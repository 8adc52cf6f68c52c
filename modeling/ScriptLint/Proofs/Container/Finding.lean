import ScriptLint.Container
import ScriptLint.Proofs.Command.Issues
import ScriptLint.Proofs.Container.Steps
import ScriptLint.Proofs.Document.Mark

/-!
# What the checks of a container find

A check of a container looks at the texts of the container one by one, and what it finds is on the
line of the text: an entry of a list or the key of one is checked as a command, any text may be
searched for tags, and keys and values have issues of their own (`Finding`). This holds for any
tree, whether or not the check stops at a fault (`checkCommands_finds`, `checkData_finds`,
`checkKey_finds`, `checkContainer_finds`), so that a property of all findings is one of these three
cases. For lists it is read off their steps, each of which is among the texts of the list
(`itemSteps_among`).
-/

namespace ScriptLint

/-- The issue is about a key or a value of a container. -/
def Issue.isOnContainer : Issue → Bool
  | keysInBlock _ | notContainer _ | missingType _ | unknownType _ | debugTrue | debugUnknown
  | missingKey ..
  | forbiddenKey .. | unknownKey .. | valueForCollection .. | listForValue _ | listForSection ..
  | sectionForValue .. | sectionForList .. | unlikeUsage _ | objectInAction | unknownAction _
  | objectInEvent
  | unknownEvent _ => true
  | _ => false

/-- The text is an entry of a list or the key of one. -/
def Mark.isCommand (mark : Mark) : Bool := mark.role = .item || mark.role = .block

/-- What a check can find among the texts of a document. -/
inductive Finding (v : Vocabulary) (marks : List Mark) : Diagnostic → Prop
  /-- An issue of a command line. -/
  | command {mark : Mark} {k : Known} {issue : Issue} : mark ∈ marks → mark.isCommand = true →
      issue ∈ Command.lineIssues v k mark.text.text → Finding v marks (issue.onLine mark.text.line)
  /-- An issue of the tags of a text. -/
  | tag {mark : Mark} {issue : Issue} : mark ∈ marks → issue ∈ tagIssues v mark.text.text →
      Finding v marks (issue.onLine mark.text.line)
  /-- An issue of a key or a value. -/
  | container {mark : Mark} {issue : Issue} : mark ∈ marks → issue.isOnContainer = true →
      Finding v marks (issue.onLine mark.text.line)

/-- All that the check writes is found among the texts. -/
def Check.Finds {α : Type} (c : Check α) (v : Vocabulary) (marks : List Mark) : Prop :=
  Every (Finding v marks) c.log

namespace Check.Finds

variable {α β : Type} {v : Vocabulary} {marks : List Mark}

/-- A check that returns a value at once finds nothing. -/
theorem pure (a : α) : (Pure.pure a : Check α).Finds v marks := Every.nil

/-- A check finds what it writes down. -/
theorem report {log : Log} (h : Every (Finding v marks) log) :
    (Check.report log).Finds v marks := h

/-- Refusing a node finds nothing. -/
theorem refuse (node : Node) (place : Fault.Place) :
    (Check.refuse node place : Check α).Finds v marks :=
  Every.nil

/-- Two checks in a row find what each finds. -/
theorem bind {x : Check α} {next : α → Check β} (hx : x.Finds v marks)
    (hn : ∀ a, (next a).Finds v marks) :
    (x >>= next).Finds v marks := by
  cases hr : x.result with
  | ok a =>
    rw [Check.bind_of_ok hr]
    exact hx.append (hn a)
  | error fault =>
    rw [Check.bind_of_error hr]
    exact hx

/-- A check by cases finds what it finds in each case. -/
theorem ite {c : Prop} [Decidable c] {x y : Check α} (hx : x.Finds v marks)
    (hy : y.Finds v marks) :
    (if c then x else y).Finds v marks := by
  split
  · exact hx
  · exact hy

end Check.Finds

section

variable (v : Vocabulary) {marks : List Mark}

/-- An issue of a key or a value is reported on its line. -/
theorem Finding.onKey {role : Role} {key : Tracked} (h : ⟨role, key⟩ ∈ marks) {issue : Issue}
    (hi : issue.isOnContainer = true) : Every (Finding v marks) [issue.onLine key.line] :=
  .single (.container h hi)

/-- What is found in a text is found among the marks, if the text has one. -/
theorem tagLog_finds {role : Role} {t : Tracked} (h : ⟨role, t⟩ ∈ marks) :
    Every (Finding v marks) (tagLog v t) :=
  .map fun _ hi => .tag h hi

/-! ## Blocks of commands and data lists -/

/-- The marks of the first entry of a list and of the others. -/
theorem itemMarks_cons_subset {node : Node} {rest : List Node}
    (h : itemMarks (node :: rest) ⊆ marks) :
    itemMarks [node] ⊆ marks ∧ itemMarks rest ⊆ marks := by
  rw [← List.singleton_append, itemMarks_append] at h
  exact List.append_subset.1 h

/-- The marks of the first key of a map, of what is under it, and of the others. -/
theorem keyMarks_cons_subset {role : Role} {key : Tracked} {node : Node} {rest : Entries}
    (h : keyMarks role ((key, node) :: rest) ⊆ marks) :
    ⟨role, key⟩ ∈ marks ∧ node.marks ⊆ marks ∧ keyMarks role rest ⊆ marks := by
  rw [keyMarks, List.cons_subset, List.append_subset] at h
  exact h

/-- If the marks of a map are among some, so are those of each entry. -/
theorem keyMarks_of_mem {role : Role} {entries : Entries} (h : keyMarks role entries ⊆ marks)
    {e : Tracked × Node} (he : e ∈ entries) : ⟨role, e.1⟩ ∈ marks ∧ e.2.marks ⊆ marks := by
  induction entries with
  | nil => cases he
  | cons first rest ih =>
    obtain ⟨hkey, hnode, hrest⟩ := keyMarks_cons_subset h
    rcases List.mem_cons.1 he with rfl | he
    · exact ⟨hkey, hnode⟩
    · exact ih hrest he

/-- The text of the step is among the texts of the document, and if it is checked as a command,
then as an entry of a list or as the key of one. -/
def Step.Among (marks : List Mark) : Step → Prop
  | command t => ∃ mark ∈ marks, mark.isCommand = true ∧ mark.text = t
  | keys t | search t => ∃ mark ∈ marks, mark.text = t
  | refused _ _ => True

/-- A step at an entry or at the key of one is among the texts that this is among. -/
theorem Walk.step_among (w : Walk) {mark : Mark} (h : mark ∈ marks) (hc : mark.isCommand = true) :
    (w.step mark.text).Among marks := by
  cases w with
  | commands => exact ⟨mark, h, hc, rfl⟩
  | data => exact ⟨mark, h, rfl⟩

mutual

/-- The steps over a list are among its texts. -/
theorem itemSteps_among (w : Walk) : ∀ {items : List Node}, itemMarks items ⊆ marks →
    Every (Step.Among marks) (itemSteps w items)
  | [], _ => .nil
  | _ :: _, h => by
    rw [itemSteps]
    exact .append (entrySteps_among w (itemMarks_cons_subset h).1)
      (itemSteps_among w (itemMarks_cons_subset h).2)

/-- The steps at an entry are among its texts. -/
theorem entrySteps_among (w : Walk) : ∀ {node : Node}, itemMarks [node] ⊆ marks →
    Every (Step.Among marks) (node.entrySteps w)
  | .scalar t, h => by
    have hmark : (⟨.item, t⟩ : Mark) ∈ marks := h List.mem_cons_self
    exact .single (w.step_among hmark rfl)
  | .map _ _, h => by
    rw [itemMarks, itemMarks, List.append_nil] at h
    rw [Node.entrySteps]
    exact keySteps_among w h
  | .list _ _, _ | .foreign _, _ => .single trivial

/-- The steps at keys are among the keys and the texts below them. -/
theorem keySteps_among (w : Walk) : ∀ {entries : Entries}, keyMarks .block entries ⊆ marks →
    Every (Step.Among marks) (keySteps w entries)
  | [], _ => .nil
  | (_, _) :: _, h => by
    obtain ⟨hkey, hnode, hrest⟩ := keyMarks_cons_subset h
    rw [keySteps]
    exact .cons (w.step_among hkey rfl)
      (.append (stepsBelow_among w hkey hnode) (keySteps_among w hrest))

/-- The steps below a key are among the key and the texts below it. -/
theorem stepsBelow_among (w : Walk) {key : Tracked} (hkey : ⟨.block, key⟩ ∈ marks) :
    ∀ {node : Node}, node.marks ⊆ marks → Every (Step.Among marks) (node.stepsBelow w key)
  | .list _ _, h => by
    rw [Node.stepsBelow]
    exact itemSteps_among w h
  | .map _ _, _ => by
    rw [Node.stepsBelow]
    exact .ite (.single ⟨_, hkey, rfl⟩) .nil
  | .scalar _, _ => .nil
  | .foreign _, _ => by
    rw [Node.stepsBelow]
    exact .ite (.single trivial) .nil

end

/-- What a step finds is found among the texts. -/
theorem Step.check_finds {step : Step} (h : step.Among marks) (k : Known) :
    (step.check v k).Finds v marks := by
  cases step with
  | command t =>
    obtain ⟨mark, hm, hc, rfl⟩ := h
    exact Every.map fun _ hi => .command hm hc hi
  | keys key =>
    obtain ⟨mark, hm, rfl⟩ := h
    exact Every.single (.container hm rfl)
  | search t =>
    obtain ⟨mark, hm, rfl⟩ := h
    exact tagLog_finds v hm
  | refused kind place => exact Every.nil

/-- What steps find is found among the texts. -/
theorem checkSteps_finds {steps : List Step} (h : Every (Step.Among marks) steps) (k : Known) :
    (checkSteps v steps k).Finds v marks := by
  induction steps generalizing k with
  | nil => exact .pure k
  | cons step rest ih =>
    obtain ⟨hstep, hrest⟩ := List.forall_mem_cons.1 h
    exact (step.check_finds v hstep k).bind (ih hrest)

/-- What is found in commands is found among their texts. -/
theorem checkCommands_finds {items : List Node} (h : itemMarks items ⊆ marks) (k : Known) :
    (checkCommands v items k).Finds v marks := by
  rw [checkCommands_eq_steps]
  exact checkSteps_finds v (itemSteps_among .commands h) k

/-- What is found in a data list is found among its texts. -/
theorem checkData_finds {items : List Node} (h : itemMarks items ⊆ marks) :
    (checkData v items).Finds v marks := by
  rw [checkData_eq_steps v items {}]
  exact (checkSteps_finds v (itemSteps_among .data h) {}).bind fun _ => .pure ()

/-! ## Keys -/

section

variable (type : ContainerType) (path : Text) {key : Tracked}

/-- What is found in a script is found among its marks. -/
theorem checkScript_finds {items : List Node} (h : itemMarks items ⊆ marks) :
    (checkScript v type items).Finds v marks :=
  (checkCommands_finds v h _).bind fun _ => .pure ()

/-- What is found in a list under a key is found among its marks and that of the key. -/
theorem checkList_finds (hkey : ⟨.key, key⟩ ∈ marks) {items : List Node}
    (h : itemMarks items ⊆ marks) :
    (checkList v type path key items).Finds v marks := by
  unfold checkList
  exact .ite (checkScript_finds v type h) <| .ite (checkData_finds v h) <|
    .ite (.report (.onKey v hkey rfl)) <|
    .ite (.report (.onKey v hkey rfl)) <| .ite (checkScript_finds v type h) (checkData_finds v h)

/-- What is found in a value under a key is found among their marks. -/
theorem checkValue_finds (hkey : ⟨.key, key⟩ ∈ marks) {value : Tracked}
    (h : ⟨.value, value⟩ ∈ marks) :
    (checkValue v type path key value).Finds v marks :=
  .ite (.report (.onKey v hkey rfl)) (.ite (.pure ()) (.report (tagLog_finds v h)))

/-- An unknown key is found at its mark. -/
theorem unlessUnknown_finds (hkey : ⟨.key, key⟩ ∈ marks) {check : Check Unit}
    (h : check.Finds v marks) :
    (unlessUnknown type path key check).Finds v marks :=
  .ite (.report (.onKey v hkey rfl)) h

/-- A misplaced section is found at the mark of its key, and all else by the checks of its keys. -/
theorem checkSection_finds (hkey : ⟨.key, key⟩ ∈ marks) (isEmpty : Bool) {check : Check Unit}
    (h : check.Finds v marks) : (checkSection type path key isEmpty check).Finds v marks := by
  refine .ite (.pure ()) (.ite (.report (.onKey v hkey ?_)) h)
  split <;> rfl

end

mutual

/-- What is found under a key is found among the marks of the key and its node. -/
theorem checkKey_finds (type : ContainerType) (path : Text) {key : Tracked}
    (hkey : ⟨.key, key⟩ ∈ marks) :
    ∀ {node : Node}, node.marks ⊆ marks → (checkKey v type path key node).Finds v marks
  | .scalar _, h => by
    rw [checkKey]
    exact unlessUnknown_finds v type path hkey
      (checkValue_finds v type path hkey (h List.mem_cons_self))
  | .list _ _, h => by
    rw [checkKey]
    exact unlessUnknown_finds v type path hkey (checkList_finds v type path hkey h)
  | .map _ _, h => by
    rw [checkKey]
    exact unlessUnknown_finds v type path hkey
      (checkSection_finds v type path hkey _ (checkKeysBelow_finds type path h))
  | .foreign _, _ => unlessUnknown_finds v type path hkey (.refuse _ _)

/-- What is found in a section is found among the marks of its entries. -/
theorem checkKeysBelow_finds (type : ContainerType) (path : Text) :
    ∀ {entries : Entries}, keyMarks .key entries ⊆ marks →
    (checkKeysBelow v type path entries).Finds v marks
  | [], _ => by rw [checkKeysBelow]; exact .pure ()
  | (_, _) :: _, h => by
    obtain ⟨hkey, hnode, hrest⟩ := keyMarks_cons_subset h
    rw [checkKeysBelow]
    exact (checkKey_finds type _ hkey hnode).bind fun _ => checkKeysBelow_finds type path hrest

end

/-! ## Containers -/

section

variable {entries : Entries} (h : keyMarks .key entries ⊆ marks)

include h

/-- The marks of an entry that is looked up are among those of the map. -/
theorem find?_finds {name : Text} {key : Tracked} {node : Node}
    (hf : entries.find? name = some (key, node)) :
    ⟨.key, key⟩ ∈ marks ∧ node.marks ⊆ marks :=
  keyMarks_of_mem h (List.mem_of_find?_eq_some hf)

/-- What is found on the key `debug` is found at its marks. -/
theorem debugLog_finds : Every (Finding v marks) (debugLog entries) := by
  unfold debugLog
  split
  · next key value hf =>
    have hkey := (find?_finds h hf).1
    exact .ite (.onKey v hkey rfl) (.ite .nil (.onKey v hkey rfl))
  · exact .nil

/-- A forbidden key is found at its mark. -/
theorem forbiddenLog_finds (type : ContainerType) :
    Every (Finding v marks) (forbiddenLog type entries) :=
  .map fun _ he => .container (keyMarks_of_mem h (List.mem_filter.1 he).1).1 rfl

/-- What is found on the usage of a command script is found at its marks. -/
theorem usageLog_finds : Every (Finding v marks) (usageLog entries) := by
  unfold usageLog
  split
  · next hf => exact .ite .nil (.onKey v ((find?_finds h hf).2 List.mem_cons_self) rfl)
  · exact .nil

/-- What is found on the keys of a section is found at their marks. -/
theorem sectionLog_finds (name : String) {check : Tracked → Log}
    (hc : ∀ key, ⟨.key, key⟩ ∈ marks → Every (Finding v marks) (check key)) :
    Every (Finding v marks) (sectionLog name check entries) := by
  unfold sectionLog
  split
  · next hf => exact .flatMap fun e he => hc e.1 (keyMarks_of_mem (find?_finds h hf).2 he).1
  · exact .nil

/-- What the rules of single script types find is found among the marks of the container. -/
theorem typeLog_finds (type : Text) : Every (Finding v marks) (typeLog v type entries) := by
  have haction : ∀ key, ⟨.key, key⟩ ∈ marks →
      Every (Finding v marks) (actionLog v key) := fun _ hk =>
    .append (.ite (.onKey v hk rfl) .nil) (.ite .nil (.onKey v hk rfl))
  have hevent : ∀ key, ⟨.key, key⟩ ∈ marks →
      Every (Finding v marks) (eventLog v key) := fun _ hk =>
    .append (.ite (.onKey v hk rfl) .nil) (.ite .nil (.onKey v hk rfl))
  exact .ite (usageLog_finds v h) <| .ite (sectionLog_finds v h _ haction) <|
    .ite (sectionLog_finds v h _ hevent) .nil

/-- What is found under the keys of a container is found among their marks. -/
theorem checkKeys_finds (type : ContainerType) : (checkKeys v type entries).Finds v marks := by
  induction entries with
  | nil => exact .pure ()
  | cons e rest ih =>
    obtain ⟨hkey, hnode, hrest⟩ := keyMarks_cons_subset h
    rw [checkKeys]
    exact .ite (ih hrest) ((checkKey_finds v type _ hkey hnode).bind fun _ => ih hrest)

/-- What is found in a container of a known type is found among its marks. -/
theorem checkTyped_finds (type : ContainerType) {name : Tracked} (hname : ⟨.key, name⟩ ∈ marks) :
    (checkTyped v type name entries).Finds v marks := by
  have hrequired : Every (Finding v marks) (requiredLog type name entries) :=
    .map fun _ _ => .container hname rfl
  exact (Check.Finds.report (((debugLog_finds v h).append hrequired).append
    (forbiddenLog_finds v h type))).bind fun _ =>
      (checkKeys_finds v h type).bind fun _ => .report (typeLog_finds v h type.name)

end

/-- All that the check of a container finds is found among its name and its texts. -/
theorem checkContainer_finds (types : Registry) {name : Tracked} (hname : ⟨.key, name⟩ ∈ marks)
    {node : Node} (h : node.marks ⊆ marks) : (checkContainer v types name node).Finds v marks := by
  cases node with
  | scalar value => exact .report (.onKey v hname rfl)
  | list items line => exact .report (.onKey v hname rfl)
  | foreign kind => exact .refuse _ _
  | map entries line =>
    rw [checkContainer]
    split
    · exact .report (.onKey v hname rfl)
    · next key node hf =>
      split
      · exact .report (.onKey v (find?_finds h hf).1 rfl)
      · exact checkTyped_finds v h _ hname

end

end ScriptLint
