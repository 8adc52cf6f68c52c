import ScriptLint.Proofs.Container.Finding
import ScriptLint.Proofs.Document.Account
import ScriptLint.Proofs.Faultless

/-!
# Findings are on lines of the script

Whatever is found in a script is on one of its lines that is neither blank nor a comment; only the
statistics are on no line, and the line of a YAML error is up to YAML. A finding on the name of a
command is on an entry of a list, and the command is the one that the entry begins with
(`checkText_located`).

Each source of findings is followed back to the lines. The texts of a document come from content
lines, and so does the key that waits while the document is built (`Builder.run_onLines`). The
checks of source lines look at lines with a text only, or at a character that is not blank.
-/

namespace ScriptLint

/-- Line `n` of the script is neither blank nor a comment. -/
def IsContentLine (t : Text) (n : Int) : Prop :=
  ∃ (i : Nat) (raw : Text), n = i ∧ (Source.rawLines (normalizeBreaks t))[i]? = some raw ∧
    LineKind.ofTrimmed (Text.trim raw) ≠ .blank ∧ LineKind.ofTrimmed (Text.trim raw) ≠ .comment

/-- The text of the command on a line, if the line is an entry of a list: what stands after the
hyphen, without the colon that opens a block. Blanks at the ends do not count. -/
def entryCommand? (raw : Text) : Option Text :=
  let t := Text.trim raw
  if t = ['-'] || Text.beginsWith ['-', ' '] t then
    let item := Text.trim (t.drop 1)
    some (if Text.endsWith [':'] item then Text.trim item.dropLast else item)
  else none

/-- The issue is that a command is not known, or that it has too few arguments. -/
def Issue.isOnName : Issue → Bool
  | unknownCommand _ | tooFewArguments .. => true
  | _ => false

/-- The diagnostic is that a command is not known, or that it has too few arguments. -/
def Diagnostic.isOnName (d : Diagnostic) : Bool :=
  d.key = "unknown_command" || d.key = "too_few_args"

/-- The issue is on the command of the name. -/
def Issue.Names (name : Text) (issue : Issue) : Prop :=
  issue = .unknownCommand name ∨ ∃ least given, issue = .tooFewArguments name least given

/-- The finding is on an entry of a list, and on the command of the name that the entry begins
with. -/
def NamesCommand (t : Text) (d : Diagnostic) : Prop :=
  ∃ (i : Nat) (raw text : Text) (first : Argument) (rest : List Argument) (issue : Issue),
    (Source.rawLines (normalizeBreaks t))[i]? = some raw ∧ entryCommand? raw = some text ∧
    (Argument.split text).1 = first :: rest ∧
    issue.Names (Command.dropTilde (Text.lower first.text)) ∧ d = issue.onLine i

/-- The finding is on a line of the script or is a YAML error, and a command that it names is on
its line. -/
structure Located (t : Text) (d : Diagnostic) : Prop where
  onLine : d.key = "invalid_yaml" ∨ IsContentLine t d.line
  names : d.isOnName = true → NamesCommand t d

/-- The keys of issues on names are the keys of no other issues. -/
theorem Issue.onLine_isOnName (issue : Issue) (line : Int) :
    (issue.onLine line).isOnName = issue.isOnName := by
  cases issue with
  | missingKey | forbiddenKey | valueForCollection | listForSection | sectionForValue
  | sectionForList | unknownKey =>
    refine Bool.or_eq_false_iff.2 ⟨decide_eq_false ?_, decide_eq_false ?_⟩ <;>
      exact append_ne_of_not_isPrefixOf (by decide) _
  | _ => rfl

/-- Any other issue is located by its line. -/
theorem Located.of_line {t : Text} {issue : Issue} {n : Int} (h : IsContentLine t n)
    (hi : issue.isOnName = false) :
    Located t (issue.onLine n) := by
  refine ⟨.inr h, fun hn => ?_⟩
  rw [Issue.onLine_isOnName, hi] at hn
  cases hn

/-! ## Content lines -/

section

variable {t : Text}

/-- A line that the checks see a text on is a content line. -/
theorem isContentLine_of_trimmed {i : Nat} {line : SourceLine}
    (h : (Source.ofText t).lines[i]? = some line) (ht : line.trimmed ≠ []) :
    IsContentLine t i := by
  rw [Source.ofText, List.getElem?_map] at h
  obtain ⟨raw, hraw, rfl⟩ := Option.map_eq_some_iff.1 h
  rw [Ne, SourceLine.trimmed_ofRaw_eq_nil, not_or] at ht
  exact ⟨i, raw, rfl, hraw, ht⟩

/-- A line with a character that is not blank is a content line, as a comment counts as empty. -/
theorem isContentLine_of_mem {i : Nat} {line : SourceLine}
    (h : (Source.ofText t).lines[i]? = some line) {c : Char} (hc : c ∈ line.raw)
    (hblank : Text.isBlank c = false) : IsContentLine t i := by
  refine isContentLine_of_trimmed h fun ht => ?_
  rw [Source.ofText, List.getElem?_map] at h
  obtain ⟨raw, -, rfl⟩ := Option.map_eq_some_iff.1 h
  by_cases hk : LineKind.ofTrimmed (Text.trim raw) = .comment
  · rw [SourceLine.ofRaw_of_comment hk] at hc
    cases hc
  · rw [SourceLine.ofRaw_of_not_comment hk] at hc ht
    have := Text.trim_eq_nil_iff.1 ht c hc
    rw [hblank] at this
    cases this

namespace Document

/-- A content line is one of the lines, and its text is the trimmed one. -/
theorem getElem?_of_mem_linesFrom {tab : Int} {number : Nat} {source : List SourceLine}
    {line : Line} (h : line ∈ linesFrom tab number source) :
    ∃ i l, source[i]? = some l ∧ line.number = number + i ∧
      line.text = l.trimmed ∧ l.trimmed ≠ [] := by
  induction source generalizing number with
  | nil => cases h
  | cons l rest ih =>
    have hrest : line ∈ linesFrom tab (number + 1) rest → ∃ i l', (l :: rest)[i]? = some l' ∧
        line.number = number + i ∧ line.text = l'.trimmed ∧ l'.trimmed ≠ [] := by
      intro hl
      obtain ⟨i, l', hi, hn, ht⟩ := ih hl
      exact ⟨i + 1, l', hi, by omega, ht⟩
    rw [linesFrom] at h
    split at h
    · exact hrest h
    · next he =>
      rcases List.mem_cons.1 h with rfl | h
      · exact ⟨0, l, rfl, rfl, rfl, fun ht => he (ht ▸ rfl)⟩
      · exact hrest h

/-- A content line of a script is one of its lines, trimmed. -/
theorem raw_of_mem_lines {tab : Int} {line : Line} (h : line ∈ lines tab (Source.ofText t)) :
    IsContentLine t line.number ∧
      ∃ raw, (Source.rawLines (normalizeBreaks t))[line.number]? = some raw ∧
        line.text = Text.trim raw := by
  obtain ⟨i, l, hl, hn, ht, hne⟩ := getElem?_of_mem_linesFrom h
  rw [Nat.zero_add] at hn
  subst hn
  refine ⟨isContentLine_of_trimmed hl hne, ?_⟩
  rw [Source.ofText, List.getElem?_map] at hl
  obtain ⟨raw, hraw, rfl⟩ := Option.map_eq_some_iff.1 hl
  rw [Ne, SourceLine.trimmed_ofRaw_eq_nil, not_or] at hne
  exact ⟨raw, hraw, by rw [ht, SourceLine.ofRaw_of_not_comment hne.2]⟩

end Document

end

/-! ## Building the document -/

namespace Document

/-- The key that waits is on a line of a mark. -/
theorem Builder.mark_of_mem_waitingLog {b : Builder} {d : Diagnostic} (h : d ∈ b.waitingLog) :
    ∃ mark ∈ b.marks, d.line = mark.text.line := by
  unfold waitingLog repeatLog at h
  split at h
  · next w hw =>
    split at h
    · have hmark : (⟨b.stack.top.block.keyRole, w.key⟩ : Mark) ∈ b.waitingMarks := by
        rw [waitingMarks, hw]
        exact List.mem_singleton_self _
      rw [List.mem_singleton.1 h]
      exact ⟨_, List.mem_append_right _ hmark, rfl⟩
    · cases h
  · cases h

/-- If all lines have a property, then so have the lines of all that a run reports and of its
marks. -/
theorem Builder.run_onLines {P : Int → Prop} {b : Builder} {lines : List Line}
    (hb : ∀ mark ∈ b.marks, P mark.text.line) (h : ∀ line ∈ lines, P line.number) :
    Every (fun d => P d.line) (b.run lines).2 ∧ ∀ mark ∈ (b.run lines).1.marks,
    P mark.text.line := by
  induction lines generalizing b with
  | nil => exact ⟨.nil, hb⟩
  | cons line rest ih =>
    obtain ⟨hline, hrest⟩ := List.forall_mem_cons.1 h
    have hm := b.step_move line
    -- A repeated key is reported when a later line settles it, so the marks are part of the
    -- invariant.
    have hlog : Every (fun d => P d.line) (b.step line).2 := by
      intro d hd
      rcases hm.reported d hd with hw | hl
      · obtain ⟨mark, hmark, hd⟩ := mark_of_mem_waitingLog hw
        exact hd ▸ hb mark hmark
      · exact hl ▸ hline
    have hmarks : ∀ mark ∈ (b.step line).1.marks, P mark.text.line := by
      intro mark hmark
      rcases List.mem_append.1 (hm.marks_subset hmark) with hmark | hmark
      · exact hb mark hmark
      · rw [added] at hmark
        split at hmark
        · exact Line.line_of_mem_marks hmark ▸ hline
        · cases hmark
    obtain ⟨hlog', hmarks'⟩ := ih hmarks hrest
    exact ⟨hlog.append hlog', hmarks'⟩

/-- All that is reported while a document is built is on its lines. -/
theorem ofLines_onLines (lines : List Line) :
    Every (fun d : Diagnostic => ∃ line ∈ lines, d.line = line.number) (ofLines lines).2 := by
  have hlines : ∀ line ∈ lines, ∃ l ∈ lines, (line.number : Int) = l.number :=
    fun line hl => ⟨line, hl, rfl⟩
  have hrun :=
    Builder.run_onLines (P := fun n => ∃ line ∈ lines, n = line.number) (b := {}) nofun hlines
  refine hrun.1.append fun d hd => ?_
  obtain ⟨mark, hm, hd⟩ := Builder.mark_of_mem_waitingLog hd
  exact hd ▸ hrun.2 mark hm

/-- All that building the tree reports is on content lines. -/
theorem ofSource_located (tab : Int) (t : Text) :
    Every (Located t) (ofSource tab (Source.ofText t)).2 := by
  intro d hd
  obtain ⟨line, hl, hline⟩ := ofLines_onLines _ d hd
  obtain ⟨issue, n, hs, rfl⟩ := ofLines_structural _ d hd
  have hn : n = line.number := hline
  refine .of_line (hn ▸ (raw_of_mem_lines hl).1) ?_
  cases issue with
  | repeatedKey | shrunkSpacing | grownSpacing | orphanEntry | orphanKey => rfl
  | _ => cases hs

/-- A command of a document is what the entry on its line says. -/
theorem Line.entryCommand?_of_mem_marks {line : Line} {mark : Mark} {raw : Text}
    (h : mark ∈ line.marks) (hc : mark.isCommand = true) (ht : line.text = Text.trim raw) :
    entryCommand? raw = some mark.text.text := by
  cases dictates_of_mem h with
  | item hi he =>
    unfold isItem at hi
    rw [ht] at hi he
    simp only [entryCommand?, hi, he, ht]
    rfl
  | block hi hk =>
    unfold isItem at hi
    rw [ht] at hi hk
    simp only [entryCommand?, hi, hk, Text.endsWith_concat, List.dropLast_concat, if_true]
  | heading | key | value => cases hc

end Document

/-! ## Checking the document -/

/-- What is found on a tag is not on the name of a command. -/
theorem Issue.IsOnTag.isOnName_eq_false {issue : Issue} (h : issue.IsOnTag) :
    issue.isOnName = false := by
  cases h <;> rfl

namespace Command

/-- The issues on the name of a command name it. -/
theorem names_of_mem_nameIssues {v : Vocabulary} {c : Command} {issue : Issue}
    (h : issue ∈ c.nameIssues v) :
    issue.Names c.name := by
  unfold nameIssues at h
  split at h
  · cases h
  · split at h
    · exact .inl (List.mem_singleton.1 h)
    · split at h
      · exact .inr ⟨_, _, List.mem_singleton.1 h⟩
      · cases h

/-- What is found in an argument is not on the name of a command. -/
theorem argumentIssues_isOnName (v : Vocabulary) (k : Known) (argument : Text) :
    Every (·.isOnName = false) (argumentIssues v k argument) :=
  argumentIssues_every (fun _ => rfl)
    (fun issue h => (tagIssues_isOnTag v argument issue h).isOnName_eq_false)
    (referenceIssues_every (fun _ => rfl) (fun _ => rfl) k)

/-- An issue of a command line on a name is on the first argument. -/
theorem names_of_mem_lineIssues {v : Vocabulary} {k : Known} {t : Text} {issue : Issue}
    (h : issue ∈ lineIssues v k t) (hn : issue.isOnName = true) :
    ∃ first rest, (Argument.split t).1 = first :: rest ∧
      issue.Names (dropTilde (Text.lower first.text)) := by
  have hsplit : Every (·.isOnName = false) (Argument.split t).2 :=
    Argument.splitFrom_every (by rfl) (by rfl) _ _ _ _
  have hother : ∀ {issues : List Issue}, Every (·.isOnName = false) issues → issue ∉ issues :=
    fun he hi => nomatch hn.symm.trans (he issue hi)
  unfold lineIssues at h
  generalize Argument.split t = r at h hsplit
  obtain ⟨arguments, splitIssues⟩ := r
  rcases List.mem_append.1 h with h | h
  · exact absurd h (hother hsplit)
  · cases arguments with
    | nil => exact absurd h (hother (.single rfl))
    | cons first rest =>
      refine ⟨first, rest, rfl, ?_⟩
      rcases List.mem_append.1 h with h | h
      · rcases List.mem_append.1 h with h | h
        · exact names_of_mem_nameIssues h
        · exact absurd h (hother (.flatMap fun argument _ => argumentIssues_isOnName v k argument))
      · exact absurd h (hother (specialIssues_every (by rfl) (fun _ => rfl) (by rfl) v _))

end Command

/-- A finding among the marks is on the line of one of them. -/
theorem Finding.line {v : Vocabulary} {marks : List Mark} {d : Diagnostic}
    (h : Finding v marks d) :
    ∃ mark ∈ marks, d.line = mark.text.line := by
  cases h with
  | command hm | tag hm | container hm => exact ⟨_, hm, rfl⟩

/-- A finding on the name of a command is on one that is among the marks. -/
theorem Finding.names {v : Vocabulary} {marks : List Mark} {d : Diagnostic} (h : Finding v marks d)
    (hn : d.isOnName = true) : ∃ mark ∈ marks, mark.isCommand = true ∧
      ∃ (first : Argument) (rest : List Argument) (issue : Issue),
        (Argument.split mark.text.text).1 = first :: rest ∧
        issue.Names (Command.dropTilde (Text.lower first.text)) ∧
          d = issue.onLine mark.text.line := by
  cases h with
  | command hm hc hi =>
    rw [Issue.onLine_isOnName] at hn
    obtain ⟨first, rest, hs, hnames⟩ := Command.names_of_mem_lineIssues hi hn
    exact ⟨_, hm, hc, first, rest, _, hs, hnames, rfl⟩
  | tag hm hi =>
    rw [Issue.onLine_isOnName, (tagIssues_isOnTag _ _ _ hi).isOnName_eq_false] at hn
    cases hn
  | @container _ issue hm hi =>
    rw [Issue.onLine_isOnName] at hn
    cases issue with
    | unknownCommand | tooFewArguments => cases hi
    | _ => cases hn

/-- All that is found in a document that is built is found among its marks. -/
theorem checkDocument_finds (v : Vocabulary) (types : Registry) {entries : Entries}
    (h : EntriesBuilt entries) :
    Every (Finding v entries.marks) (checkDocument v types entries) := by
  refine .flatMap fun e he => ?_
  obtain ⟨_, hr⟩ := (checkContainer_passes v types e.1 (entriesBuilt_iff.1 h e he)).finishes
  obtain ⟨hname, hnode⟩ := keyMarks_of_mem (List.Subset.refl entries.marks) he
  simp only [containerLog, hr]
  exact checkContainer_finds v types hname hnode

/-- All that checking the containers reports is on content lines, and names a command on its own
line. -/
theorem checkDocument_located (v : Vocabulary) (types : Registry) (tab : Int) (t : Text) :
    Every (Located t) (checkDocument v types (Document.ofSource tab (Source.ofText t)).1) := by
  intro d hd
  have hf := checkDocument_finds v types (Document.ofLines_built _) d hd
  have hmark : ∀ mark ∈ (Document.ofSource tab (Source.ofText t)).1.marks,
      ∃ line ∈ Document.lines tab (Source.ofText t), mark ∈ line.marks := fun mark hm =>
    Document.Builder.mem_marks_of_mem_recorded (Document.ofLines_marks_subset _ hm)
  refine ⟨.inr ?_, fun hn => ?_⟩
  · obtain ⟨mark, hm, hd⟩ := hf.line
    obtain ⟨line, hl, hm⟩ := hmark mark hm
    rw [hd, Document.Line.line_of_mem_marks hm]
    exact (Document.raw_of_mem_lines hl).1
  · obtain ⟨mark, hm, hc, first, rest, issue, hs, hnames, rfl⟩ := hf.names hn
    obtain ⟨line, hl, hm⟩ := hmark mark hm
    obtain ⟨-, raw, hraw, ht⟩ := Document.raw_of_mem_lines hl
    refine ⟨line.number, raw, _, first, rest, issue, hraw,
      Document.Line.entryCommand?_of_mem_marks hm hc ht, hs, hnames, ?_⟩
    rw [Document.Line.line_of_mem_marks hm]

/-! ## Checking the source lines -/

/-- A text that is not blank has a character that is not. -/
theorem exists_of_trim_ne_nil {t : Text} (h : Text.trim t ≠ []) :
    ∃ c ∈ t, Text.isBlank c = false := by
  simpa [Text.trim_eq_nil_iff] using h

/-- A name between percent signs has a percent sign. -/
theorem mem_of_holdsPercentName {t : Text} (h : holdsPercentName t = true) : '%' ∈ t := by
  induction t with
  | nil => cases h
  | cons c r ih =>
    rw [holdsPercentName, Bool.or_eq_true, Bool.and_eq_true, decide_eq_true_eq] at h
    rcases h with ⟨rfl, -⟩ | h
    · exact List.mem_cons_self
    · exact List.mem_cons_of_mem c (ih h)

/-- A line with an issue of its form has a text, and the issue is one of three. -/
theorem SourceLine.sorts_of_formIssue? {line : SourceLine} {issue : Issue}
    (h : line.formIssue? = some issue) :
    line.trimmed ≠ [] ∧
      (issue = .strayBlank ∨ issue = .uselessLine ∨ issue = .textAfterKey) := by
  simp only [formIssue?, List.isEmpty_iff] at h
  split at h
  · cases h
  · next ht =>
    refine ⟨ht, ?_⟩
    split at h
    · exact .inl (Option.some.inj h).symm
    · split at h
      · cases h
      · split at h
        · exact .inr (.inl (Option.some.inj h).symm)
        · split at h
          · cases h
          · exact .inr (.inr (Option.some.inj h).symm)

section

variable {t : Text} {P : Diagnostic → Prop}
  (hP : ∀ {issue : Issue} {n : Int}, IsContentLine t n → issue.isOnName = false →
      P (issue.onLine n))
include hP

/-- What is found in the form of lines is on content lines. -/
theorem formLog_every : Every P (formLog (Source.ofText t)) := by
  intro d hd
  obtain ⟨⟨line, i⟩, hl, hd⟩ := List.mem_filterMap.1 hd
  obtain ⟨issue, hi, rfl⟩ := Option.map_eq_some_iff.1 hd
  obtain ⟨ht, hsort⟩ := SourceLine.sorts_of_formIssue? hi
  have hname : issue.isOnName = false := by rcases hsort with rfl | rfl | rfl <;> rfl
  exact hP (isContentLine_of_trimmed (List.mem_zipIdx_iff_getElem?.1 hl) ht) hname

/-- A property that no line of blanks has is found on a content line. -/
theorem firstLineLog_every {p : Text → Bool} {issue : Issue} (hi : issue.isOnName = false)
    (hp : ∀ raw, p raw = true → ∃ c ∈ raw, Text.isBlank c = false) :
    Every P (firstLineLog (Source.ofText t) p issue) := by
  unfold firstLineLog
  split
  · next i hf =>
    obtain ⟨hlt, hpi, -⟩ := List.findIdx?_eq_some_iff_getElem.1 hf
    obtain ⟨c, hc, hblank⟩ := hp _ hpi
    exact .single (hP (isContentLine_of_mem (List.getElem?_eq_getElem hlt) hc hblank) hi)
  · exact .nil

/-- Outdated notations are found on content lines. -/
theorem legacyLog_every : Every P (legacyLog (Source.ofText t)) := by
  have hlast : ∀ {c : Char} {raw : Text}, Text.endsWith [c] raw = true → c ∈ raw := fun h =>
    List.mem_of_getLast? (Text.endsWith_singleton.1 h)
  refine .append (.append (.append ?_ ?_) ?_) ?_
  · refine firstLineLog_every hP rfl fun raw h => exists_of_trim_ne_nil ?_
    simpa using (Bool.and_eq_true_iff.1 h).2
  · refine firstLineLog_every hP rfl fun raw h => ?_
    rcases Bool.or_eq_true_iff.1 h with h | h
    · exact ⟨_, hlast h, by decide⟩
    · exact ⟨_, hlast h, by decide⟩
  · exact firstLineLog_every hP rfl fun raw h => ⟨'%', mem_of_holdsPercentName h, by decide⟩
  · refine firstLineLog_every hP rfl fun raw h => ⟨'<', ?_, by decide⟩
    exact (Text.holds_iff_infix.1 h).subset List.mem_cons_self

/-- What is found at the start of the script is on a content line. -/
theorem startLog_every : Every P (startLog (Source.ofText t)) := by
  unfold startLog
  split
  · next line i hf =>
    have hl := List.mem_zipIdx_iff_getElem?.1 (List.mem_of_find?_eq_some hf)
    have hne : Text.trim line.raw ≠ [] := by simpa using List.find?_some hf
    obtain ⟨c, hc, hblank⟩ := exists_of_trim_ne_nil hne
    exact .ite (.single (hP (isContentLine_of_mem hl hc hblank) rfl)) .nil
  · exact .nil

/-- Whatever the checks of source lines find, YAML apart, is on a content line. -/
theorem lineLogs_every :
    Every P (formLog (Source.ofText t) ++ legacyLog (Source.ofText t) ++
      startLog (Source.ofText t)) :=
  ((formLog_every hP).append (legacyLog_every hP)).append (startLog_every hP)

end

/-- If the script can be loaded or fails to be YAML, then all that is found on its lines is
located. -/
theorem checkLines_located {t : Text}
    (h : ∀ fault, Yaml.load (yamlText (Source.ofText t)) ≠ .error (.value fault)) :
    (checkLines (Source.ofText t)).result = .ok () ∧
      Every (Located t) (checkLines (Source.ofText t)).log := by
  have hyaml : (checkYaml (Source.ofText t)).result = .ok () ∧
      Every (Located t) (checkYaml (Source.ofText t)).log := by
    unfold checkYaml
    split
    · exact ⟨rfl, .nil⟩
    · exact ⟨rfl, .single ⟨.inl rfl, nofun⟩⟩
    · exact ⟨rfl, .single ⟨.inl rfl, nofun⟩⟩
    · next fault hf => exact absurd hf (h fault)
  rw [checkLines, Check.bind_of_ok hyaml.1]
  exact ⟨rfl, hyaml.2.append (lineLogs_every .of_line)⟩

/-! ## Scripts -/

/-- The statistics are on no line and name no command. -/
theorem statisticsLog_unlocated (s : Statistics) :
    Every (fun d => d.line = -1 ∧ d.isOnName = false) (statisticsLog s) := by
  refine .map fun issue hi => ⟨rfl, ?_⟩
  rw [Issue.onLine_isOnName]
  simp only [List.mem_cons, List.not_mem_nil, or_false] at hi
  rcases hi with rfl | rfl | rfl | rfl <;> rfl

/-- The report on a fault is on no line and names no command. -/
theorem Fault.scriptLog_unlocated (fault : Fault) :
    Every (fun d => d.line = -1 ∧ d.isOnName = false) fault.scriptLog :=
  .append (.single ⟨rfl, rfl⟩) (.single ⟨rfl, rfl⟩)

/-- The findings in a document are located. If the script cannot be read, they are the fault. -/
theorem documentLog_located (context : Context) (t : Text) :
    Every (fun d => Located t d ∨
        d ∈ Fault.width.scriptLog ∧ ¬ Document.Legible context.settings.tabWidth (Source.ofText t))
      (documentLog context (Source.ofText t)) := by
  by_cases hl : Document.Legible context.settings.tabWidth (Source.ofText t)
  · rw [documentLog_of_legible hl]
    have hlocated := (Document.ofSource_located context.settings.tabWidth t).append
      (checkDocument_located context.vocabulary context.types context.settings.tabWidth t)
    exact fun d hd => .inl (hlocated d hd)
  · rw [documentLog_of_not_legible hl]
    exact fun d hd => .inr ⟨hd, hl⟩

/-- Everything that is found in a script is on a line that is neither blank nor a comment, but for
the statistics and for what YAML says. If the script cannot be read, the fault is on no line
either. A finding on the name of a command is on an entry of a list that begins with this name. -/
theorem checkText_located (context : Context) (t : Text) (h : context.settings.checksLines = true →
      ∀ fault, Yaml.load (yamlText (Source.ofText t)) ≠ .error (.value fault)) :
    ∀ d ∈ (checkText context t).log,
      (d.key = "invalid_yaml" ∨ (d.line = -1 ∧ d ∈ statisticsLog (Source.ofText t).statistics) ∨
        IsContentLine t d.line ∨ (d.line = -1 ∧ d ∈ Fault.width.scriptLog ∧
          ¬ Document.Legible context.settings.tabWidth (Source.ofText t))) ∧
      (d.key = "unknown_command" ∨ d.key = "too_few_args" → NamesCommand t d) := by
  have hsource : Every (fun d => Located t d ∨
      d ∈ Fault.width.scriptLog ∧ ¬ Document.Legible context.settings.tabWidth (Source.ofText t))
      (sourceLog context (Source.ofText t)) := by
    have hdocument := documentLog_located context t
    cases hc : context.settings.checksLines with
    | false => rwa [sourceLog_of_unchecked hc]
    | true =>
      obtain ⟨hr, hl⟩ := checkLines_located (h hc)
      rw [sourceLog_of_checked hc hr]
      exact .append (fun d hd => .inl (hl d hd)) hdocument
  intro d hd
  have hkeys : d.key = "unknown_command" ∨ d.key = "too_few_args" ↔ d.isOnName = true := by
    simp [Diagnostic.isOnName]
  rw [hkeys]
  rcases List.mem_append.1 hd with hd | hd
  · rcases hsource d hd with ⟨hyaml | hline, hnames⟩ | ⟨hfault, hl⟩
    · exact ⟨.inl hyaml, hnames⟩
    · exact ⟨.inr (.inr (.inl hline)), hnames⟩
    · obtain ⟨hline, hname⟩ := Fault.width.scriptLog_unlocated d hfault
      exact ⟨.inr (.inr (.inr ⟨hline, hfault, hl⟩)), fun hn =>
        absurd hn (Bool.eq_false_iff.1 hname)⟩
  · split at hd
    · obtain ⟨hline, hname⟩ := statisticsLog_unlocated _ d hd
      exact ⟨.inr (.inl ⟨hline, hd⟩), fun hn => absurd hn (Bool.eq_false_iff.1 hname)⟩
    · cases hd

/-- A script with a comment, a blank line, and a command that has a block and a character that YAML
refuses. -/
def bellScript : Text := "# c\na:\n  type: task\n  script:\n\n  - ~Zap \x07:\n    - y".toList

/-- A script with a character that YAML refuses and two commands that are not known. -/
theorem checkText_located_bell :
    (∀ fault, Yaml.load (yamlText (Source.ofText bellScript)) ≠ .error (.value fault)) ∧
    (checkText {} bellScript).log.filter (·.isOnName) =
      [(Issue.unknownCommand "zap".toList).onLine 5, (Issue.unknownCommand ['y']).onLine 6] ∧
    ∀ d ∈ (checkText {} bellScript).log,
      (d.key = "invalid_yaml" ∨
        (d.line = -1 ∧ d ∈ statisticsLog (Source.ofText bellScript).statistics) ∨
        IsContentLine bellScript d.line ∨ (d.line = -1 ∧ d ∈ Fault.width.scriptLog ∧
          ¬ Document.Legible 4 (Source.ofText bellScript))) ∧
      (d.key = "unknown_command" ∨ d.key = "too_few_args" → NamesCommand bellScript d) := by
  have hload : ∀ fault, Yaml.load (yamlText (Source.ofText bellScript)) ≠
      .error (.value fault) := by
    have hrefused : Yaml.load (yamlText (Source.ofText bellScript)) =
        .error (.character 7 37) := by rfl
    rw [hrefused]
    exact nofun
  exact ⟨hload, by decide +kernel, checkText_located {} bellScript fun _ => hload⟩

/-- The fault of a tab that is no index is on no line, and is no statistic either. -/
theorem not_every_finding_on_line : ¬ ∀ (context : Context) (t : Text),
    (context.settings.checksLines = true →
      ∀ fault, Yaml.load (yamlText (Source.ofText t)) ≠ .error (.value fault)) →
    ∀ d ∈ (checkText context t).log, d.key = "invalid_yaml" ∨
      (d.line = -1 ∧ d ∈ statisticsLog (Source.ofText t).statistics) ∨ IsContentLine t d.line := by
  intro h
  have hlog : (checkText wideContext "a: 1".toList).log = Fault.width.scriptLog := by
    decide +kernel
  rcases h wideContext "a: 1".toList nofun (Issue.faultTrace.onLine (-1))
    (hlog ▸ List.mem_cons_self) with hkey | ⟨-, hstatistics⟩ | ⟨i, raw, hi, -⟩
  · exact absurd hkey (by decide)
  · exact absurd hstatistics (by decide)
  · exact absurd hi (by show (-1 : Int) ≠ i; omega)

end ScriptLint
