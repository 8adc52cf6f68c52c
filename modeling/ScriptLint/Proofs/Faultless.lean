import ScriptLint.Proofs.Command.Issues
import ScriptLint.Proofs.Container.Steps
import ScriptLint.Proofs.Document.Shape
import ScriptLint.Proofs.Reading

/-!
# Documents that are built are checked without a fault

A check stops at a node that has no place where it stands. On a document that was built from lines
no check stops: each has a result, and none of what it writes tells of a fault (`Check.Passes`). A
list of the shape `Node.Built` has no step that refuses a node (`checkCommands_passes`,
`checkData_passes`), and the check of keys is followed through its recursion (`checkKey_passes`).
Without the checks of source lines, which are not about the document, the report on a script that
can be read tells of no fault at all, and that on any other script tells of one
(`checkText_faultless`).
-/

namespace ScriptLint

/-! ## Issues that are no faults -/

/-- The issue tells of a fault of the checker. -/
def Issue.isFault : Issue → Bool
  | faultTrace | faultInContainer .. | faultInScript .. => true
  | _ => false

/-- What is found on a tag is no fault. -/
theorem Issue.IsOnTag.isFault_eq_false {issue : Issue} (h : issue.IsOnTag) :
    issue.isFault = false := by
  cases h <;> rfl

/-- What is found on a command is no fault. -/
theorem Issue.IsOnCommand.isFault_eq_false {issue : Issue} (h : issue.IsOnCommand) :
    issue.isFault = false := by
  cases h with
  | tag h => exact h.isFault_eq_false
  | _ => rfl

/-- The diagnostic does not tell of a fault. -/
def Diagnostic.Ordinary (d : Diagnostic) : Prop :=
  d.key ≠ "exception_internal" ∧ d.key ≠ "exception_trace"

/-- A string is no continuation of what it does not begin with. -/
theorem append_ne_of_not_isPrefixOf {start whole : String}
    (h : start.toList.isPrefixOf whole.toList = false) (rest : String) :
    start ++ rest ≠ whole := by
  rintro rfl
  rw [String.toList_append, List.isPrefixOf_iff_prefix.2 (List.prefix_append ..)] at h
  cases h

/-- The keys of faults are the keys of no other issues. -/
theorem Issue.onLine_ordinary {issue : Issue} (h : issue.isFault = false) (line : Int) :
    (issue.onLine line).Ordinary := by
  show issue.key ≠ _ ∧ issue.key ≠ _
  cases issue with
  | faultTrace | faultInContainer | faultInScript => cases h
  | missingKey | forbiddenKey | valueForCollection | listForSection | sectionForValue
  | sectionForList | unknownKey =>
    exact ⟨append_ne_of_not_isPrefixOf (by decide) _, append_ne_of_not_isPrefixOf (by decide) _⟩
  | _ => exact ⟨by simp [key], by simp [key]⟩

/-- The log tells of no fault. -/
def Log.Ordinary (log : Log) : Prop := Every Diagnostic.Ordinary log

/-- None of the issues is a fault. -/
def NoFault (issues : List Issue) : Prop := Every (·.isFault = false) issues

/-- An issue that is no fault gives a log without faults. -/
theorem issue_ordinary {issue : Issue} (h : issue.isFault = false) (line : Int) :
    Log.Ordinary [issue.onLine line] :=
  .single (Issue.onLine_ordinary h line)

/-- Issues without a fault, all on one line, give a log without faults. -/
theorem issues_ordinary {issues : List Issue} (h : NoFault issues) (line : Int) :
    Log.Ordinary (issues.map (·.onLine line)) :=
  .map fun issue hi => Issue.onLine_ordinary (h issue hi) line

/-! ## Checks that pass -/

/-- The check has a result, and what it writes tells of no fault. -/
structure Check.Passes {α : Type} (c : Check α) : Prop where
  finishes : ∃ a, c.result = .ok a
  ordinary : c.log.Ordinary

namespace Check.Passes

variable {α β : Type}

/-- Returning a value at once meets no fault. -/
theorem pure (a : α) : (Pure.pure a : Check α).Passes := ⟨⟨a, rfl⟩, Every.nil⟩

/-- Writing down a log without faults meets no fault. -/
theorem report {log : Log} (h : log.Ordinary) : (Check.report log).Passes := ⟨⟨(), rfl⟩, h⟩

/-- Of two checks in a row that pass, both pass together. -/
theorem bind {x : Check α} {next : α → Check β} (hx : x.Passes) (hn : ∀ a, (next a).Passes) :
    (x >>= next).Passes := by
  obtain ⟨a, ha⟩ := hx.finishes
  rw [Check.bind_of_ok ha]
  exact ⟨(hn a).finishes, hx.ordinary.append (hn a).ordinary⟩

/-- A check that passes in both cases passes. -/
theorem ite {c : Prop} [Decidable c] {x y : Check α} (hx : x.Passes) (hy : y.Passes) :
    (if c then x else y).Passes := by
  split
  · exact hx
  · exact hy

end Check.Passes

/-! ## Tags and commands -/

/-- Searching a text for tags reports no fault. -/
theorem tagLog_ordinary (v : Vocabulary) (t : Tracked) : (tagLog v t).Ordinary :=
  issues_ordinary (fun issue h => (tagIssues_isOnTag v t.text issue h).isFault_eq_false) t.line

/-- Checking a command line reports no fault. -/
theorem Command.lineLog_ordinary (v : Vocabulary) (k : Known) (t : Tracked) :
    (lineLog v k t).Ordinary :=
  issues_ordinary (fun issue h => (lineIssues_isOnCommand v k t.text issue h).isFault_eq_false)
    t.line

/-! ## Blocks of commands, data lists and keys -/

/-- A step that refuses no node passes. -/
theorem Step.check_passes (v : Vocabulary) {step : Step} (h : step.isRefused = false) (k : Known) :
    (step.check v k).Passes := by
  cases step with
  | command t => exact ⟨⟨_, rfl⟩, Command.lineLog_ordinary v k t⟩
  | keys key => exact ⟨⟨_, rfl⟩, issue_ordinary rfl _⟩
  | search t => exact ⟨⟨_, rfl⟩, tagLog_ordinary v t⟩
  | refused kind place => cases h

/-- Steps that refuse no node pass. -/
theorem checkSteps_passes (v : Vocabulary) {steps : List Step} (h : Unrefused steps) (k : Known) :
    (checkSteps v steps k).Passes := by
  induction steps generalizing k with
  | nil => exact .pure k
  | cons step rest ih =>
    obtain ⟨hstep, hrest⟩ := List.forall_mem_cons.1 h
    exact (step.check_passes v hstep k).bind (ih hrest)

mutual

/-- In a tree that is built every node has a place. -/
theorem Node.Built.isPlaced : ∀ {node : Node}, node.Built → node.isPlaced = true
  | .scalar _, _ => rfl
  | .list items _, h => by
    rw [Node.isPlaced]
    exact ItemsBuilt.areEntries h
  | .map entries _, h => by
    rw [Node.isPlaced]
    exact EntriesBuilt.arePlaced h
  | .foreign _, h => h.elim

/-- In a list that is built every node has a place. -/
theorem ItemsBuilt.areEntries : ∀ {items : List Node}, ItemsBuilt items → areEntries items = true
  | [], _ => rfl
  | .scalar _ :: _, ⟨_, hr⟩ => by
    rw [ScriptLint.areEntries, ItemsBuilt.areEntries hr]
    rfl
  | .map _ _ :: _, ⟨⟨_, hb⟩, hr⟩ => by
    rw [ScriptLint.areEntries, Node.isPlaced, EntriesBuilt.arePlaced hb, ItemsBuilt.areEntries hr]
    rfl
  | .list _ _ :: _, ⟨⟨he, _⟩, _⟩ => nomatch he
  | .foreign _ :: _, ⟨⟨he, _⟩, _⟩ => nomatch he

/-- In a map that is built every node has a place. -/
theorem EntriesBuilt.arePlaced : ∀ {entries : Entries}, EntriesBuilt entries →
    arePlaced entries = true
  | [], _ => rfl
  | (_, _) :: _, ⟨hb, hr⟩ => by
    rw [ScriptLint.arePlaced, hb.isPlaced, EntriesBuilt.arePlaced hr]
    rfl

end

/-- The commands of a list that is built are checked without a fault. -/
theorem checkCommands_passes (v : Vocabulary) {items : List Node} (h : ItemsBuilt items)
    (k : Known) :
    (checkCommands v items k).Passes := by
  rw [checkCommands_eq_steps]
  exact checkSteps_passes v (itemSteps_unrefused .commands h.areEntries) k

/-- A data list that is built is searched without a fault. -/
theorem checkData_passes (v : Vocabulary) {items : List Node} (h : ItemsBuilt items) :
    (checkData v items).Passes := by
  rw [checkData_eq_steps v items {}]
  exact (checkSteps_passes v (itemSteps_unrefused .data h.areEntries) {}).bind fun _ => .pure ()

section

variable (v : Vocabulary) (type : ContainerType)

/-- A script of a container that is built is checked without a fault. -/
theorem checkScript_passes {items : List Node} (h : ItemsBuilt items) :
    (checkScript v type items).Passes :=
  (checkCommands_passes v h _).bind fun _ => .pure ()

/-- A list under a key passes, be it a script, a data list or misplaced. -/
theorem checkList_passes (path : Text) (key : Tracked) {items : List Node} (h : ItemsBuilt items) :
    (checkList v type path key items).Passes := by
  unfold checkList
  exact .ite (checkScript_passes v type h) <| .ite (checkData_passes v h) <|
    .ite (.report (issue_ordinary rfl _)) <| .ite (.report (issue_ordinary rfl _)) <|
    .ite (checkScript_passes v type h) (checkData_passes v h)

/-- A value under a key passes. -/
theorem checkValue_passes (path : Text) (key value : Tracked) :
    (checkValue v type path key value).Passes :=
  .ite (.report (issue_ordinary rfl _)) (.ite (.pure ()) (.report (tagLog_ordinary v value)))

/-- A check passes as well if it is left out for an unknown key. -/
theorem unlessUnknown_passes (path : Text) (key : Tracked) {check : Check Unit}
    (h : check.Passes) :
    (unlessUnknown type path key check).Passes :=
  .ite (.report (issue_ordinary rfl _)) h

/-- A section passes if the checks of its keys do. -/
theorem checkSection_passes (path : Text) (key : Tracked) (isEmpty : Bool) {check : Check Unit}
    (h : check.Passes) : (checkSection type path key isEmpty check).Passes := by
  refine .ite (.pure ()) (.ite (.report (issue_ordinary ?_ _)) h)
  split <;> rfl

mutual

/-- What a key of a tree that is built holds is checked without a fault. -/
theorem checkKey_passes (path : Text) (key : Tracked) : ∀ {node : Node}, node.Built →
    (checkKey v type path key node).Passes
  | .scalar value, _ => by
    rw [checkKey]
    exact unlessUnknown_passes type path key (checkValue_passes v type path key value)
  | .list _ _, h => by
    rw [checkKey]
    exact unlessUnknown_passes type path key (checkList_passes v type path key h)
  | .map _ _, h => by
    rw [checkKey]
    exact unlessUnknown_passes type path key
      (checkSection_passes type path key _ (checkKeysBelow_passes path h))
  | .foreign _, h => h.elim

/-- The keys of a section that is built are checked without a fault. -/
theorem checkKeysBelow_passes (path : Text) : ∀ {entries : Entries}, EntriesBuilt entries →
    (checkKeysBelow v type path entries).Passes
  | [], _ => by rw [checkKeysBelow]; exact .pure ()
  | (key, _) :: _, ⟨hb, hr⟩ => by
    rw [checkKeysBelow]
    exact (checkKey_passes _ key hb).bind fun _ => checkKeysBelow_passes path hr

end

end

/-! ## Containers -/

/-- The rules on the key `debug` report no fault. -/
theorem debugLog_ordinary (entries : Entries) : (debugLog entries).Ordinary := by
  unfold debugLog
  split
  · exact .ite (issue_ordinary rfl _) (.ite .nil (issue_ordinary rfl _))
  · exact .nil

/-- A required key that is missing is no fault. -/
theorem requiredLog_ordinary (type : ContainerType) (name : Tracked) (entries : Entries) :
    (requiredLog type name entries).Ordinary :=
  .map fun _ _ => Issue.onLine_ordinary rfl _

/-- A forbidden key is no fault. -/
theorem forbiddenLog_ordinary (type : ContainerType) (entries : Entries) :
    (forbiddenLog type entries).Ordinary :=
  .map fun _ _ => Issue.onLine_ordinary rfl _

/-- The rules on the usage of a command script report no fault. -/
theorem usageLog_ordinary (entries : Entries) : (usageLog entries).Ordinary := by
  unfold usageLog
  split
  · exact .ite .nil (issue_ordinary rfl _)
  · exact .nil

/-- If no key of a section leads to a fault, the section does not. -/
theorem sectionLog_ordinary (name : String) {check : Tracked → Log}
    (h : ∀ key, (check key).Ordinary) (entries : Entries) :
    (sectionLog name check entries).Ordinary := by
  unfold sectionLog
  split
  · exact .flatMap fun e _ => h e.1
  · exact .nil

/-- The rules on the name of an action report no fault. -/
theorem actionLog_ordinary (v : Vocabulary) (key : Tracked) : (actionLog v key).Ordinary :=
  .append (.ite (issue_ordinary rfl _) .nil) (.ite .nil (issue_ordinary rfl _))

/-- The rules on the name of an event report no fault. -/
theorem eventLog_ordinary (v : Vocabulary) (key : Tracked) : (eventLog v key).Ordinary :=
  .append (.ite (issue_ordinary rfl _) .nil) (.ite .nil (issue_ordinary rfl _))

/-- The rules of single script types report no fault. -/
theorem typeLog_ordinary (v : Vocabulary) (type : Text) (entries : Entries) :
    (typeLog v type entries).Ordinary :=
  .ite (usageLog_ordinary entries) <|
    .ite (sectionLog_ordinary _ (actionLog_ordinary v) entries) <|
    .ite (sectionLog_ordinary _ (eventLog_ordinary v) entries) .nil

/-- The keys of a container that is built are checked without a fault. -/
theorem checkKeys_passes (v : Vocabulary) (type : ContainerType) {entries : Entries}
    (h : EntriesBuilt entries) : (checkKeys v type entries).Passes := by
  induction entries with
  | nil => exact .pure ()
  | cons e rest ih =>
    obtain ⟨key, node⟩ := e
    rw [checkKeys]
    exact .ite (ih h.2) ((checkKey_passes v type _ key h.1).bind fun _ => ih h.2)

/-- A container of a known type that is built is checked without a fault. -/
theorem checkTyped_passes (v : Vocabulary) (type : ContainerType) (name : Tracked)
    {entries : Entries} (h : EntriesBuilt entries) : (checkTyped v type name entries).Passes :=
  (Check.Passes.report (((debugLog_ordinary entries).append
    (requiredLog_ordinary type name entries)).append (forbiddenLog_ordinary type entries))).bind
    fun _ => (checkKeys_passes v type h).bind fun _ =>
    .report (typeLog_ordinary v type.name entries)

/-- A container that is built is checked without a fault, whatever its type is. -/
theorem checkContainer_passes (v : Vocabulary) (types : Registry) (name : Tracked) {node : Node}
    (h : node.Built) : (checkContainer v types name node).Passes := by
  cases node with
  | scalar value => exact .report (issue_ordinary rfl _)
  | list items line => exact .report (issue_ordinary rfl _)
  | foreign kind => exact h.elim
  | map entries line =>
    rw [checkContainer]
    split
    · exact .report (issue_ordinary rfl _)
    · split
      · exact .report (issue_ordinary rfl _)
      · exact checkTyped_passes v _ name h

/-- No container of a document that is built adds a fault to the log. -/
theorem checkDocument_ordinary (v : Vocabulary) (types : Registry) {entries : Entries}
    (h : EntriesBuilt entries) : (checkDocument v types entries).Ordinary := by
  refine .flatMap fun ⟨name, node⟩ he => ?_
  have hp := checkContainer_passes v types name (entriesBuilt_iff.1 h (name, node) he)
  obtain ⟨_, hr⟩ := hp.finishes
  simp only [containerLog, hr]
  exact hp.ordinary

/-! ## Scripts -/

namespace Document

/-- Building a document reports no fault. -/
theorem ofLines_ordinary (lines : List Line) : (ofLines lines).2.Ordinary := by
  intro d hd
  obtain ⟨issue, line, hs, rfl⟩ := ofLines_structural lines d hd
  refine Issue.onLine_ordinary ?_ line
  cases issue with
  | repeatedKey | shrunkSpacing | grownSpacing | orphanEntry | orphanKey => rfl
  | _ => cases hs

end Document

/-- The statistics tell of no fault. -/
theorem statisticsLog_ordinary (s : Statistics) : (statisticsLog s).Ordinary :=
  issues_ordinary (by simp [NoFault, Every, Issue.isFault]) _

/-- Without the checks of source lines, checking a script that can be read meets no fault: its
document has the shape of what is built, every check of a container has a result, and no diagnostic
tells of a fault. Of a script that cannot be read, all that is reported beside its statistics is
the one fault that stopped the reading. -/
theorem checkText_faultless (context : Context) (h : context.settings.checksLines = false)
    (t : Text) :
    (Document.Legible context.settings.tabWidth (Source.ofText t) →
      ∃ entries log,
        Document.read context.settings.tabWidth (Source.ofText t) = .ok (entries, log) ∧
        EntriesBuilt entries ∧
        (∀ e ∈ entries,
          (checkContainer context.vocabulary context.types e.1 e.2).result = .ok ()) ∧
        ∀ d ∈ (checkText context t).log,
          d.key ≠ "exception_internal" ∧ d.key ≠ "exception_trace") ∧
    (¬ Document.Legible context.settings.tabWidth (Source.ofText t) →
      Document.read context.settings.tabWidth (Source.ofText t) = .error .width ∧
        (checkText context t).log = Fault.width.scriptLog ++
          if context.settings.addsStatistics then statisticsLog (Source.ofText t).statistics
          else []) := by
  refine ⟨fun hl => ?_, fun hl => ⟨Document.read_of_not_legible hl, ?_⟩⟩
  · have hbuilt :=
      Document.ofLines_built (Document.lines context.settings.tabWidth (Source.ofText t))
    refine ⟨_, _, Document.read_of_legible hl, hbuilt, fun e he => ?_, ?_⟩
    · obtain ⟨_, hr⟩ := (checkContainer_passes context.vocabulary context.types e.1
        (entriesBuilt_iff.1 hbuilt e he)).finishes
      exact hr
    · have hsource : (sourceLog context (Source.ofText t)).Ordinary := by
        rw [sourceLog_of_unchecked h, documentLog_of_legible hl]
        exact (Document.ofLines_ordinary _).append (checkDocument_ordinary _ _ hbuilt)
      exact hsource.append (.ite (statisticsLog_ordinary _) .nil)
  · simp only [checkText, sourceLog_of_unchecked h, documentLog_of_not_legible hl]

/-- A context without checks of source lines, in which tabs have no width. -/
def documentContext : Context := { settings := { checksLines := false, tabWidth := -1 } }

/-- A script with keys in a list, an entry under no key, a repeated key and a width that nothing
has. -/
def malformedScript : Text :=
  "a:\n    type: task\n    script:\n    - if x:\n        k: v\n      - y\n   z:\n- w\na: b".toList

/-- A malformed script is checked to its end with tabs of a negative width, too. -/
theorem checkText_faultless_malformed : documentContext.settings.checksLines = false ∧
    Document.Legible (-1) (Source.ofText malformedScript) ∧
    ∃ entries log, Document.read (-1) (Source.ofText malformedScript) = .ok (entries, log) ∧
      EntriesBuilt entries ∧
      (∀ e ∈ entries, (checkContainer {} .builtin e.1 e.2).result = .ok ()) ∧
      ∀ d ∈ (checkText documentContext malformedScript).log,
        d.key ≠ "exception_internal" ∧ d.key ≠ "exception_trace" := by
  have hl : Document.Legible (-1) (Source.ofText malformedScript) := .inl (by decide)
  exact ⟨rfl, hl, (checkText_faultless documentContext rfl malformedScript).1 hl⟩

/-- A tab that is no index is a fault of every script with a content line. -/
theorem not_every_check_faultless : ¬ ∀ (context : Context) (t : Text),
    context.settings.checksLines = false →
      ∀ d ∈ (checkText context t).log, d.key ≠ "exception_internal" ∧
        d.key ≠ "exception_trace" := by
  intro h
  have hlog : (checkText wideContext "a: 1".toList).log = Fault.width.scriptLog := by
    decide +kernel
  obtain ⟨hinternal, -⟩ := h wideContext "a: 1".toList rfl
    ((Issue.faultInScript Fault.width.label Fault.width.reason).onLine (-1))
    (hlog ▸ by simp [Fault.scriptLog])
  exact hinternal rfl

end ScriptLint
