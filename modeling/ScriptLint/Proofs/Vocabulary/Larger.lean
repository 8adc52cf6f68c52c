import ScriptLint.Proofs.Container.Steps
import ScriptLint.Report

/-!
# Larger vocabularies

A vocabulary may grow: more names are known, and more commands, which need no argument
(`Vocabulary.Extends`). A script is then checked as before, but for names that are known now and
were reported as unknown. Which way the checks go does not depend on the vocabulary, and neither
does what the commands of a script make known.

The relation between two runs is `Thins`: the second list has the elements of the first one in the
same order, and what it lacks satisfies a condition. Two checks are related if their logs are and
if they have the same result (`Check.Thins`), which sequencing keeps. Every look-up gives a pair of
related logs, and the traversals carry this to whole reports (`checkText_of_extends`).
-/

namespace ScriptLint

/-- The vocabulary knows all that another one does. A command that both know needs as many
arguments, and one that the other does not know needs none. -/
structure Vocabulary.Extends (v' v : Vocabulary) : Prop where
  mechanisms : v.mechanisms ⊆ v'.mechanisms
  tagBases : v.tagBases ⊆ v'.tagBases
  tagParts : v.tagParts ⊆ v'.tagParts
  actions : v.actions ⊆ v'.actions
  actionPatterns : v.actionPatterns ⊆ v'.actionPatterns
  events : v.events ⊆ v'.events
  eventPatterns : v.eventPatterns ⊆ v'.eventPatterns
  commands : ∀ name info, v.commands.lookup name = some info →
    ∃ info', v'.commands.lookup name = some info' ∧ info'.least = info.least
  newCommands : ∀ name info', v'.commands.lookup name = some info' →
    v.commands.lookup name = none →
    info'.least = 0

/-! ## Lists with elements left out -/

/-- The second list has the elements of the first one in the same order, but for some that satisfy
`p`. -/
structure Thins {α : Type} (p : α → Bool) (l l' : List α) : Prop where
  sublist : l'.Sublist l
  kept : l'.filter (!p ·) = l.filter (!p ·)

namespace Thins

variable {α β : Type} {p : α → Bool}

/-- A list thins out to itself. -/
theorem refl (l : List α) : Thins p l l := ⟨.refl l, rfl⟩

/-- Two parts thin out one by one. -/
theorem append {l₁ l₁' l₂ l₂' : List α} (h₁ : Thins p l₁ l₁') (h₂ : Thins p l₂ l₂') :
    Thins p (l₁ ++ l₂) (l₁' ++ l₂') :=
  ⟨h₁.sublist.append h₂.sublist, by rw [List.filter_append, List.filter_append, h₁.kept, h₂.kept]⟩

/-- If each part thins out, the whole does. -/
theorem flatMap {f f' : β → List α} (h : ∀ b, Thins p (f b) (f' b)) (l : List β) :
    Thins p (l.flatMap f) (l.flatMap f') := by
  induction l with
  | nil => exact .refl _
  | cons b rest ih => exact (h b).append ih

/-- Images thin out if the property of an image is that of its origin. -/
theorem map {q : β → Bool} {f : β → α} (hp : ∀ b, p (f b) = q b) {l l' : List β}
    (h : Thins q l l') :
    Thins p (l.map f) (l'.map f) := by
  refine ⟨h.sublist.map f, ?_⟩
  have hcomp : ((!p ·) ∘ f) = (!q ·) := funext fun b => congrArg Bool.not (hp b)
  rw [List.filter_map, List.filter_map, hcomp, h.kept]

/-- What is left out satisfies the condition. -/
theorem single {a : α} (ha : p a = true) : Thins p [a] [] := ⟨List.nil_sublist _, by simp [ha]⟩

/-- What is said unless a name is known is said less often if more names are known. -/
theorem ifUnknown {c c' : Prop} [Decidable c] [Decidable c'] (h : c → c') {a : α}
    (ha : p a = true) :
    Thins p (if c then [] else [a]) (if c' then [] else [a]) := by
  by_cases hc : c
  · rw [if_pos hc, if_pos (h hc)]
    exact .refl _
  · rw [if_neg hc]
    split
    · exact .single ha
    · exact .refl _

/-- Lists by cases thin out in each case. -/
theorem ite {c : Prop} [Decidable c] {l₁ l₁' l₂ l₂' : List α} (h₁ : Thins p l₁ l₁')
    (h₂ : Thins p l₂ l₂') :
    Thins p (if c then l₁ else l₂) (if c then l₁' else l₂') := by
  split
  · exact h₁
  · exact h₂

/-- Elements of one sort are left out like all others. -/
theorem filter {l l' : List α} (h : Thins p l l') (q : α → Bool) :
    Thins p (l.filter q) (l'.filter q) := by
  refine ⟨h.sublist.filter q, ?_⟩
  rw [List.filter_filter, List.filter_filter]
  simp only [Bool.and_comm _ (q _)]
  rw [← List.filter_filter, ← List.filter_filter, h.kept]

end Thins

/-! ## Look-ups -/

/-- The keys of what is reported when a name is not in the vocabulary. -/
def lookupKeys : List String :=
  ["unknown_command", "bad_tag_base", "bad_tag_part", "xtag_notation", "bad_adjust_unknown_mech",
    "action_missing", "event_missing"]

/-- The issue is that a name is not in the vocabulary. -/
def Issue.isLookup (issue : Issue) : Bool := lookupKeys.contains issue.key

/-- The diagnostic tells that a name is not in the vocabulary. -/
def Diagnostic.isLookup (d : Diagnostic) : Bool := lookupKeys.contains d.key

/-- The log has less to say of names that are not in the vocabulary. -/
abbrev Log.Thins (log log' : Log) : Prop := ScriptLint.Thins Diagnostic.isLookup log log'

/-- Findings on a line thin out as the issues do. -/
theorem Log.Thins.onLine {issues issues' : List Issue}
    (h : ScriptLint.Thins Issue.isLookup issues issues') (line : Int) :
    Log.Thins (issues.map (·.onLine line)) (issues'.map (·.onLine line)) :=
  ScriptLint.Thins.map (fun _ => rfl) h

section

variable {v v' : Vocabulary}

/-- A name among the fewer names is among the more. -/
theorem contains_of_subset {names names' : List Text} (h : names ⊆ names') {name : Text}
    (hn : names.contains name = true) : names'.contains name = true :=
  List.contains_iff_mem.2 (h (List.contains_iff_mem.1 hn))

/-- What one of the fewer elements has, one of the more has. -/
theorem any_of_subset {α : Type} {l l' : List α} (h : l ⊆ l') {p : α → Bool}
    (hp : l.any p = true) :
    l'.any p = true := by
  obtain ⟨a, ha, hpa⟩ := List.any_eq_true.1 hp
  exact List.any_eq_true.2 ⟨a, h ha, hpa⟩

/-- More known names leave fewer of the names in a tag unknown. -/
theorem Tag.nameIssues_thins {known known' : List Text} (h : known ⊆ known')
    {unknown : Text → Issue} (hu : ∀ t, (unknown t).isLookup = true) (name : Text) :
    Thins Issue.isLookup (Tag.nameIssues known unknown name)
      (Tag.nameIssues known' unknown name) := by
  refine .append (.ifUnknown (contains_of_subset h) (hu name)) ?_
  by_cases hd : isDocumented known' (Text.lower name) = true
  · have : isDocumented known (Text.lower name) = true := by
      simp only [isDocumented, Bool.and_eq_true, Bool.not_eq_true', Bool.eq_false_iff] at hd ⊢
      exact ⟨hd.1, fun hk => hd.2 (contains_of_subset h hk)⟩
    rw [if_pos this, if_pos hd]
    exact .refl _
  · rw [if_neg hd]
    split
    · exact .single rfl
    · exact .refl _

/-- A larger vocabulary finds fewer issues in a tag. -/
theorem Tag.issues_thins (h : v'.Extends v) (tag : Tag) :
    Thins Issue.isLookup (tag.issues v) (tag.issues v') := by
  have hparts : ∀ p : TagPart, Thins Issue.isLookup (nameIssues v.tagParts .unknownTagPart p.name)
      (nameIssues v'.tagParts .unknownTagPart p.name) :=
    fun p => nameIssues_thins h.tagParts (fun _ => rfl) p.name
  refine .append ?_ (.flatMap hparts _)
  split
  · exact .ite (nameIssues_thins h.tagBases (fun _ => rfl) _) (.refl _)
  · exact .refl _

/-- A larger vocabulary finds fewer issues in the tags of a text. -/
theorem tagIssues_thins (h : v'.Extends v) (argument : Text) :
    Thins Issue.isLookup (tagIssues v argument) (tagIssues v' argument) := by
  refine .flatMap (fun visit => ?_) _
  cases visit with
  | closes tag => exact tag.issues_thins h
  | argument t => exact .refl _
  | opens tag => exact .refl _

/-- A larger vocabulary reports less of the tags of a text. -/
theorem tagLog_thins (h : v'.Extends v) (t : Tracked) : Log.Thins (tagLog v t) (tagLog v' t) :=
  .onLine (tagIssues_thins h t.text) t.line

namespace Command

/-- A larger vocabulary finds fewer issues on the name of a command. -/
theorem nameIssues_thins (h : v'.Extends v) (c : Command) :
    Thins Issue.isLookup (c.nameIssues v) (c.nameIssues v') := by
  refine .ite (.refl _) ?_
  simp only [Vocabulary.command?]
  cases hv : v.commands.lookup (Text.lower c.name) with
  | some info =>
    obtain ⟨info', hv', hleast⟩ := h.commands _ info hv
    rw [hv']
    simp only [hleast]
    exact .refl _
  | none =>
    cases hv' : v'.commands.lookup (Text.lower c.name) with
    | none => exact .refl _
    | some info' =>
      simp only [h.newCommands _ info' hv' hv, Nat.not_lt_zero, if_false]
      exact .single rfl

/-- A larger vocabulary finds fewer issues on a mechanism. -/
theorem mechanismIssues_thins (h : v'.Extends v) (arguments : List Text) :
    Thins Issue.isLookup (mechanismIssues v arguments) (mechanismIssues v' arguments) := by
  induction arguments with
  | nil => exact .refl _
  | cons argument rest ih =>
    exact .ite (.refl _) (.ite ih (.ifUnknown (contains_of_subset h.mechanisms) rfl))

/-- A larger vocabulary finds fewer issues by the rules of single commands. -/
theorem specialIssues_thins (h : v'.Extends v) (c : Command) :
    Thins Issue.isLookup (c.specialIssues v) (c.specialIssues v') :=
  .ite (mechanismIssues_thins h _) (.refl _)

/-- A larger vocabulary finds fewer issues in an argument. -/
theorem argumentIssues_thins (h : v'.Extends v) (k : Known) (argument : Text) :
    Thins Issue.isLookup (argumentIssues v k argument) (argumentIssues v' k argument) :=
  .append (.append (.refl _) (tagIssues_thins h argument)) (.refl _)

/-- A larger vocabulary finds fewer issues in a command. -/
theorem issues_thins (h : v'.Extends v) (k : Known) (c : Command) :
    Thins Issue.isLookup (c.issues v k) (c.issues v' k) :=
  .append (.append (nameIssues_thins h c) (.flatMap (argumentIssues_thins h k) _))
    (specialIssues_thins h c)

/-- A larger vocabulary reports less of a command line. -/
theorem lineLog_thins (h : v'.Extends v) (k : Known) (t : Tracked) :
    Log.Thins (lineLog v k t) (lineLog v' k t) := by
  refine .onLine ?_ t.line
  rw [lineIssues, lineIssues]
  obtain ⟨arguments, issues⟩ := Argument.split t.text
  refine .append (.refl _) ?_
  cases ofArguments? arguments with
  | none => exact .refl _
  | some c => exact c.issues_thins h k

end Command

/-- A larger vocabulary reports fewer names of actions. -/
theorem actionLog_thins (h : v'.Extends v) (key : Tracked) :
    Log.Thins (actionLog v key) (actionLog v' key) := by
  refine .append (.refl _) (.ifUnknown (fun hk => ?_) rfl)
  rw [Bool.or_eq_true] at hk ⊢
  exact hk.imp (contains_of_subset h.actions) (any_of_subset h.actionPatterns)

/-- A larger vocabulary reports fewer names of events. -/
theorem eventLog_thins (h : v'.Extends v) (key : Tracked) :
    Log.Thins (eventLog v key) (eventLog v' key) := by
  refine .append (.refl _) (.ifUnknown (fun hk => ?_) rfl)
  rw [Bool.or_eq_true] at hk ⊢
  exact hk.imp (contains_of_subset h.events) (any_of_subset h.eventPatterns)

/-- If less is reported of each key, less is reported of the section. -/
theorem sectionLog_thins (name : String) {check check' : Tracked → Log}
    (h : ∀ key, Log.Thins (check key) (check' key)) (entries : Entries) :
    Log.Thins (sectionLog name check entries) (sectionLog name check' entries) := by
  unfold sectionLog
  split
  · exact .flatMap (fun e : Tracked × Node => h e.1) _
  · exact .refl _

/-- A larger vocabulary reports less by the rules of single script types. -/
theorem typeLog_thins (h : v'.Extends v) (type : Text) (entries : Entries) :
    Log.Thins (typeLog v type entries) (typeLog v' type entries) :=
  .ite (.refl _) <| .ite (sectionLog_thins _ (actionLog_thins h) entries) <|
    .ite (sectionLog_thins _ (eventLog_thins h) entries) (.refl _)

end

/-! ## Checks -/

/-- The second check goes the same way and has less to say of names that are not in the
vocabulary. -/
structure Check.Thins {α : Type} (check check' : Check α) : Prop where
  result : check'.result = check.result
  log : Log.Thins check.log check'.log

namespace Check.Thins

variable {α β : Type}

/-- A check thins out to itself. -/
theorem refl (check : Check α) : check.Thins check := ⟨rfl, .refl _⟩

/-- Writing down fewer findings thins out a check. -/
theorem report {log log' : Log} (h : log.Thins log') :
    (Check.report log).Thins (Check.report log') := ⟨rfl, h⟩

/-- Two checks in a row thin out one by one. -/
theorem bind {x x' : Check α} {next next' : α → Check β} (hx : x.Thins x')
    (hn : ∀ a, (next a).Thins (next' a)) :
    (x >>= next).Thins (x' >>= next') := by
  cases hr : x.result with
  | ok a =>
    rw [Check.bind_of_ok hr, Check.bind_of_ok (hx.result.trans hr)]
    exact ⟨(hn a).result, hx.log.append (hn a).log⟩
  | error fault =>
    rw [Check.bind_of_error hr, Check.bind_of_error (hx.result.trans hr)]
    exact ⟨rfl, hx.log⟩

/-- Checks by cases thin out in each case. -/
theorem ite {c : Prop} [Decidable c] {x x' y y' : Check α} (hx : x.Thins x') (hy : y.Thins y') :
    (if c then x else y).Thins (if c then x' else y') := by
  split
  · exact hx
  · exact hy

end Check.Thins

section

variable {v v' : Vocabulary}

/-- A step goes the same way with a larger vocabulary. -/
theorem Step.check_thins (h : v'.Extends v) (step : Step) (k : Known) :
    (step.check v k).Thins (step.check v' k) := by
  cases step with
  | command t => exact ⟨rfl, Command.lineLog_thins h k t⟩
  | keys key => exact .refl _
  | search t => exact ⟨rfl, tagLog_thins h t⟩
  | refused kind place => exact .refl _

/-- Steps go the same way with a larger vocabulary. -/
theorem checkSteps_thins (h : v'.Extends v) (steps : List Step) (k : Known) :
    (checkSteps v steps k).Thins (checkSteps v' steps k) := by
  induction steps generalizing k with
  | nil => exact .refl _
  | cons step rest ih => exact (step.check_thins h k).bind ih

/-- Commands are checked alike with a larger vocabulary. -/
theorem checkCommands_thins (h : v'.Extends v) (items : List Node) (k : Known) :
    (checkCommands v items k).Thins (checkCommands v' items k) := by
  rw [checkCommands_eq_steps, checkCommands_eq_steps]
  exact checkSteps_thins h _ k

/-- A data list is searched alike with a larger vocabulary. -/
theorem checkData_thins (h : v'.Extends v) (items : List Node) :
    (checkData v items).Thins (checkData v' items) := by
  rw [checkData_eq_steps v items {}, checkData_eq_steps v' items {}]
  exact (checkSteps_thins h _ {}).bind fun _ => .refl _

/-- A larger vocabulary reports less of a script of a container. -/
theorem checkScript_thins (h : v'.Extends v) (type : ContainerType) (items : List Node) :
    (checkScript v type items).Thins (checkScript v' type items) :=
  (checkCommands_thins h items type.known).bind fun _ => .refl _

/-- A larger vocabulary reports less of a list under a key. -/
theorem checkList_thins (h : v'.Extends v) (type : ContainerType) (path : Text) (key : Tracked)
    (items : List Node) :
    (checkList v type path key items).Thins (checkList v' type path key items) :=
  .ite (checkScript_thins h type items) <| .ite (checkData_thins h items) <|
    .ite (.refl _) <| .ite (.refl _) <|
    .ite (checkScript_thins h type items) (checkData_thins h items)

/-- A larger vocabulary reports less of a value under a key. -/
theorem checkValue_thins (h : v'.Extends v) (type : ContainerType) (path : Text)
    (key value : Tracked) :
    (checkValue v type path key value).Thins (checkValue v' type path key value) :=
  .ite (.refl _) (.ite (.refl _) (.report (tagLog_thins h value)))

mutual

/-- A larger vocabulary reports less of what a key holds. -/
theorem checkKey_thins (h : v'.Extends v) (type : ContainerType) (path : Text) (key : Tracked) :
    ∀ node : Node, (checkKey v type path key node).Thins (checkKey v' type path key node)
  | .scalar value => by
    rw [checkKey, checkKey]
    exact .ite (.refl _) (checkValue_thins h type path key value)
  | .list items _ => by
    rw [checkKey, checkKey]
    exact .ite (.refl _) (checkList_thins h type path key items)
  | .map entries _ => by
    rw [checkKey, checkKey]
    exact .ite (.refl _)
      (.ite (.refl _) (.ite (.refl _) (checkKeysBelow_thins h type path entries)))
  | .foreign _ => .refl _

/-- A larger vocabulary reports less of the keys of a section. -/
theorem checkKeysBelow_thins (h : v'.Extends v) (type : ContainerType) (path : Text) :
    ∀ entries : Entries,
    (checkKeysBelow v type path entries).Thins (checkKeysBelow v' type path entries)
  | [] => by rw [checkKeysBelow, checkKeysBelow]; exact .refl _
  | (key, node) :: rest => by
    rw [checkKeysBelow, checkKeysBelow]
    exact (checkKey_thins h type _ key node).bind fun _ => checkKeysBelow_thins h type path rest

end

/-- A larger vocabulary reports less of the keys of a container. -/
theorem checkKeys_thins (h : v'.Extends v) (type : ContainerType) (entries : Entries) :
    (checkKeys v type entries).Thins (checkKeys v' type entries) := by
  induction entries with
  | nil => exact .refl _
  | cons e rest ih =>
    obtain ⟨key, node⟩ := e
    rw [checkKeys, checkKeys]
    exact .ite ih ((checkKey_thins h type _ key node).bind fun _ => ih)

/-! ## Containers and reports -/

/-- A larger vocabulary reports less of a container of a known type. -/
theorem checkTyped_thins (h : v'.Extends v) (type : ContainerType) (name : Tracked)
    (entries : Entries) :
    (checkTyped v type name entries).Thins (checkTyped v' type name entries) :=
  Check.Thins.bind (.refl _) fun _ =>
    (checkKeys_thins h type entries).bind fun _ => .report (typeLog_thins h type.name entries)

/-- A larger vocabulary reports less of a container. -/
theorem checkContainer_thins (h : v'.Extends v) (types : Registry) (name : Tracked) (node : Node) :
    (checkContainer v types name node).Thins (checkContainer v' types name node) := by
  cases node with
  | map entries line =>
    rw [checkContainer, checkContainer]
    split
    · exact .refl _
    · split
      · exact .refl _
      · exact checkTyped_thins h _ name entries
  | _ => exact .refl _

/-- A larger vocabulary reports less of a container, and the same faults. -/
theorem containerLog_thins (h : v'.Extends v) (types : Registry) (name : Tracked) (node : Node) :
    Log.Thins (containerLog v types name node) (containerLog v' types name node) := by
  have hc := checkContainer_thins h types name node
  rw [containerLog, containerLog, hc.result]
  cases (checkContainer v types name node).result with
  | ok => exact hc.log
  | error fault => exact hc.log.append (.refl _)

/-- A larger vocabulary reports less of a document. -/
theorem checkDocument_thins (h : v'.Extends v) (types : Registry) (entries : Entries) :
    Log.Thins (checkDocument v types entries) (checkDocument v' types entries) :=
  .flatMap (fun e : Tracked × Node => containerLog_thins h types e.1 e.2) entries

/-- A larger vocabulary reports less of the lines of a script and of its document. -/
theorem checkSource_thins (h : v'.Extends v) (types : Registry) (settings : Settings)
    (source : Source) :
    (checkSource ⟨v, types, settings⟩ source).Thins
      (checkSource ⟨v', types, settings⟩ source) := by
  have hdocument :=
    (Check.Thins.refl (Check.ofExcept (Document.read settings.tabWidth source))).bind
    fun tree : Entries × Log => Check.Thins.report
      (ScriptLint.Thins.append (.refl tree.2) (checkDocument_thins h types tree.1))
  exact .ite ((Check.Thins.refl (checkLines source)).bind fun _ => hdocument) hdocument

/-- A larger vocabulary reports less of a script. -/
theorem checkText_thins (h : v'.Extends v) (types : Registry) (settings : Settings) (t : Text) :
    Log.Thins (checkText ⟨v, types, settings⟩ t).log (checkText ⟨v', types, settings⟩ t).log := by
  have hs := checkSource_thins h types settings (Source.ofText t)
  refine .append ?_ (.refl _)
  rw [sourceLog, sourceLog, hs.result]
  cases (checkSource ⟨v, types, settings⟩ (Source.ofText t)).result with
  | ok => exact hs.log
  | error fault => exact hs.log.append (.refl _)

end

/-- With a larger vocabulary a script is checked alike. In each category the findings are those
with the smaller one in the same order, and only findings on names that are not in the vocabulary
may be missing. What a script makes known and where a check stops does not depend on the
vocabulary. -/
theorem checkText_of_extends {v v' : Vocabulary} (h : v'.Extends v) (types : Registry)
    (settings : Settings) (t : Text) :
    (∀ category : Category,
      ((checkText ⟨v', types, settings⟩ t).log.ofCategory category).Sublist
        ((checkText ⟨v, types, settings⟩ t).log.ofCategory category) ∧
      ((checkText ⟨v', types, settings⟩ t).log.ofCategory category).filter
          (fun d => !lookupKeys.contains d.key) =
        ((checkText ⟨v, types, settings⟩ t).log.ofCategory category).filter
          fun d => !lookupKeys.contains d.key) ∧
    (∀ items k, (checkCommands v' items k).result = (checkCommands v items k).result) ∧
    ∀ name node, (checkContainer v' types name node).result =
      (checkContainer v types name node).result := by
  refine ⟨fun category => ?_, fun items k => (checkCommands_thins h items k).result,
    fun name node => (checkContainer_thins h types name node).result⟩
  have hlog := (checkText_thins h types settings t).filter (·.category = category)
  exact ⟨hlog.sublist, hlog.kept⟩

/-- A vocabulary with one command and one tag. -/
def smallVocabulary : Vocabulary where
  commands := [("narrate".toList, ⟨"narrate".toList, 2⟩)]
  tagBases := ["player".toList]

/-- A vocabulary with one more command, a mechanism and more tags. -/
def largeVocabulary : Vocabulary where
  commands := [("adjust".toList, ⟨"adjust".toList, 0⟩), ("narrate".toList, ⟨"narrate".toList, 2⟩)]
  mechanisms := ["fly".toList]
  tagBases := ["mytag".toList, "player".toList]

/-- The second vocabulary has all names of the first. -/
theorem largeVocabulary_extends : largeVocabulary.Extends smallVocabulary where
  mechanisms := by simp [smallVocabulary]
  tagBases := by simp [smallVocabulary, largeVocabulary]
  tagParts := by simp [smallVocabulary]
  actions := by simp [smallVocabulary]
  actionPatterns := by simp [smallVocabulary]
  events := by simp [smallVocabulary]
  eventPatterns := by simp [smallVocabulary]
  commands := by
    intro name info hn
    have hname : name = "narrate".toList := by
      refine Decidable.byContradiction fun hne => ?_
      rw [smallVocabulary, List.lookup_cons, beq_false_of_ne hne] at hn
      cases hn
    subst hname
    exact ⟨_, rfl, by cases hn; rfl⟩
  newCommands := by
    intro name info hn hnew
    have hname : name = "adjust".toList := by
      refine Decidable.byContradiction fun hne => ?_
      have hnarrate : name ≠ "narrate".toList := by rintro rfl; cases hnew
      rw [largeVocabulary, List.lookup_cons, beq_false_of_ne hne, List.lookup_cons,
        beq_false_of_ne hnarrate] at hn
      cases hn
    subst hname
    cases hn
    rfl

/-- A script that adjusts a mechanism by a tag of the larger vocabulary, and has too few arguments
for a command of both. -/
def adjustingScript : Text :=
  "a:\n  type: task\n  script:\n  - adjust x fly:<mytag>\n  - narrate <player.x>".toList

/-- With the larger vocabulary, one error is left, which is on the number of arguments. -/
theorem checkText_of_extends_adjusting :
    largeVocabulary.Extends smallVocabulary ∧
    (checkText ⟨largeVocabulary, .builtin, { checksLines := false }⟩
      adjustingScript).log.ofCategory .error =
      [(Issue.tooFewArguments "narrate".toList 2 1).onLine 4] ∧
    ∀ category : Category,
      ((checkText ⟨largeVocabulary, .builtin, { checksLines := false }⟩
          adjustingScript).log.ofCategory category).Sublist
        ((checkText ⟨smallVocabulary, .builtin, { checksLines := false }⟩
          adjustingScript).log.ofCategory category) := by
  obtain ⟨hcategory, -, -⟩ :=
    checkText_of_extends largeVocabulary_extends .builtin { checksLines := false } adjustingScript
  exact ⟨largeVocabulary_extends, by decide +kernel, fun category => (hcategory category).1⟩

end ScriptLint
