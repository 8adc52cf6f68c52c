import ScriptLint.Proofs.Container.Steps
import ScriptLint.Proofs.Document.Renumber
import ScriptLint.Report

/-!
# Checks and the numbers of lines

What a check finds does not depend on where the lines are: on a renumbered tree it has the same
result and writes the renumbered log (`Check.renumber`). The steps over a list are the same ones on
their new lines (`itemSteps_renumber`), and from one step this is followed through lists
(`checkCommands_renumber`, `checkData_renumber`) and the keys of a container (`checkKey_renumber`)
up to whole documents (`checkDocument_renumber`), whether or not a check stops at a fault.
-/

namespace ScriptLint

variable (g : Nat → Nat)

namespace Check

variable {α β : Type}

/-- The check with all lines of its log renumbered. -/
def renumber (c : Check α) : Check α := ⟨c.log.renumber g, c.result⟩

@[simp] theorem renumber_report (log : Log) :
    (report log).renumber g = report (log.renumber g) := rfl

@[simp] theorem renumber_stop (fault : Fault) :
    (stop fault : Check α).renumber g = stop fault := rfl

@[simp] theorem renumber_bind (x : Check α) (next : α → Check β) :
    (x >>= next).renumber g = x.renumber g >>= fun a => (next a).renumber g := by
  cases hx : x.result with
  | ok a =>
    have hx' : (x.renumber g).result = .ok a := hx
    rw [bind_of_ok hx, bind_of_ok hx', renumber, Log.renumber_append]
    rfl
  | error fault =>
    have hx' : (x.renumber g).result = .error fault := hx
    rw [bind_of_error hx, bind_of_error hx']
    rfl

@[simp] theorem renumber_ite {c : Prop} [Decidable c] (x y : Check α) :
    (if c then x else y).renumber g = if c then x.renumber g else y.renumber g := by
  split <;> rfl

end Check

/-- Issues on one line are renumbered together. -/
theorem Log.renumber_onLine (issues : List Issue) (line : Int) :
    Log.renumber g (issues.map (·.onLine line)) = issues.map (·.onLine (renumberLine g line)) := by
  rw [renumber, List.map_map]
  rfl

/-- A node keeps the name of its kind. -/
theorem Node.kindName_renumber (node : Node) : (node.renumber g).kindName = node.kindName := by
  cases node <;> rfl

/-- A node is refused for the same reason wherever it is. -/
theorem refuse_renumber {α : Type} (node : Node) (place : Fault.Place) :
    (Check.refuse (node.renumber g) place : Check α) =
      Check.renumber g (Check.refuse node place) := by
  rw [Check.refuse, Check.refuse, Node.kindName_renumber, Check.renumber_stop]

/-- A map keeps being empty or not. -/
theorem Entries.isEmpty_renumber (entries : Entries) :
    (entries.renumber g).isEmpty = entries.isEmpty := by
  rw [Entries.renumber_eq_map, List.isEmpty_map]

/-- The entry of a name is the renumbered one. -/
theorem Entries.find?_renumber (name : Text) (entries : Entries) :
    (entries.renumber g).find? name =
      (entries.find? name).map fun e => (e.1.renumber g, e.2.renumber g) := by
  rw [Entries.renumber_eq_map, find?, find?, List.find?_map]
  rfl

/-! ## Blocks of commands and data lists -/

/-- A text is searched for tags alike on any line, and what is found is on that line. -/
theorem tagLog_renumber (v : Vocabulary) (t : Tracked) :
    tagLog v (t.renumber g) = (tagLog v t).renumber g :=
  (Log.renumber_onLine g _ _).symm

/-- The step on the new line. -/
def Step.renumber : Step → Step
  | command t => .command (t.renumber g)
  | keys key => .keys (key.renumber g)
  | search t => .search (t.renumber g)
  | refused kind place => .refused kind place

/-- The step of a text is that of the text on its new line. -/
theorem Walk.step_renumber (w : Walk) (t : Tracked) :
    w.step (t.renumber g) = (w.step t).renumber g := by
  cases w <;> rfl

mutual

/-- The steps over a renumbered list are the steps over the list on their new lines. -/
theorem itemSteps_renumber (w : Walk) : ∀ items : List Node,
    itemSteps w (renumberItems g items) = (itemSteps w items).map (Step.renumber g)
  | [] => by rw [renumberItems, itemSteps]; rfl
  | node :: rest => by
    rw [renumberItems, itemSteps, itemSteps, List.map_append, entrySteps_renumber w node,
      itemSteps_renumber w rest]

/-- The steps at a renumbered entry. -/
theorem entrySteps_renumber (w : Walk) : ∀ node : Node,
    (node.renumber g).entrySteps w = (node.entrySteps w).map (Step.renumber g)
  | .scalar t => by
    rw [Node.renumber, Node.entrySteps, Node.entrySteps, w.step_renumber]
    rfl
  | .map entries _ => by
    rw [Node.renumber, Node.entrySteps, Node.entrySteps]
    exact keySteps_renumber w entries
  | .list _ _ | .foreign _ => rfl

/-- The steps at renumbered keys. -/
theorem keySteps_renumber (w : Walk) : ∀ entries : Entries,
    keySteps w (entries.renumber g) = (keySteps w entries).map (Step.renumber g)
  | [] => by rw [Entries.renumber, keySteps]; rfl
  | (key, node) :: rest => by
    rw [Entries.renumber, keySteps, keySteps, List.map_cons, List.map_append, w.step_renumber,
      stepsBelow_renumber w key node, keySteps_renumber w rest]

/-- The steps below a renumbered key. -/
theorem stepsBelow_renumber (w : Walk) (key : Tracked) : ∀ node : Node,
    (node.renumber g).stepsBelow w (key.renumber g) = (node.stepsBelow w key).map (Step.renumber g)
  | .list items _ => by
    rw [Node.renumber, Node.stepsBelow, Node.stepsBelow]
    exact itemSteps_renumber w items
  | .map entries _ => by
    rw [Node.renumber, Node.stepsBelow, Node.stepsBelow, Entries.isEmpty_renumber]
    split <;> rfl
  | .scalar _ => rfl
  | .foreign _ => by cases w <;> rfl

end

/-- A renumbered step has the same result and writes the renumbered log. -/
theorem Step.check_renumber (v : Vocabulary) (step : Step) (k : Known) :
    (step.renumber g).check v k = (step.check v k).renumber g := by
  cases step with
  | command t =>
    exact congrArg (Check.mk · (.ok (Command.extendByLine k t.text)))
      (Log.renumber_onLine g _ _).symm
  | keys key => rfl
  | search t => exact congrArg (Check.mk · (.ok k)) (tagLog_renumber g v t)
  | refused kind place => rfl

/-- Renumbered steps have the same result and write the renumbered log. -/
theorem checkSteps_renumber (v : Vocabulary) (steps : List Step) (k : Known) :
    checkSteps v (steps.map (Step.renumber g)) k = (checkSteps v steps k).renumber g := by
  induction steps generalizing k with
  | nil => rfl
  | cons step rest ih =>
    rw [List.map_cons, checkSteps, checkSteps, Check.renumber_bind, step.check_renumber]
    exact congrArg _ (funext ih)

/-- Commands are checked alike on new lines. -/
theorem checkCommands_renumber (v : Vocabulary) (items : List Node) (k : Known) :
    checkCommands v (renumberItems g items) k = (checkCommands v items k).renumber g := by
  rw [checkCommands_eq_steps, checkCommands_eq_steps, itemSteps_renumber, checkSteps_renumber]

/-- A data list is searched alike on new lines. -/
theorem checkData_renumber (v : Vocabulary) (items : List Node) :
    checkData v (renumberItems g items) = (checkData v items).renumber g := by
  rw [checkData_eq_steps v _ {}, checkData_eq_steps v items {}, itemSteps_renumber,
    checkSteps_renumber, Check.renumber_bind]
  rfl

/-! ## Keys -/

section

variable (v : Vocabulary) (type : ContainerType) (path : Text) (key : Tracked)

/-- A script is checked alike on other lines. -/
theorem checkScript_renumber (items : List Node) :
    checkScript v type (renumberItems g items) = (checkScript v type items).renumber g := by
  rw [checkScript, checkScript, Check.renumber_bind, checkCommands_renumber]
  rfl

/-- A list under a key is checked alike on other lines. -/
theorem checkList_renumber (items : List Node) :
    checkList v type path (key.renumber g) (renumberItems g items) =
      (checkList v type path key items).renumber g := by
  simp only [checkList, Check.renumber_ite, checkScript_renumber, checkData_renumber,
    Check.renumber_report]
  rfl

/-- A value under a key is checked alike on other lines. -/
theorem checkValue_renumber (value : Tracked) :
    checkValue v type path (key.renumber g) (value.renumber g) =
      (checkValue v type path key value).renumber g := by
  simp only [checkValue, Check.renumber_ite, tagLog_renumber, Check.renumber_report]
  rfl

/-- An unknown key is reported on its new line, and all else is left to the check. -/
theorem unlessUnknown_renumber (check : Check Unit) :
    unlessUnknown type path (key.renumber g) (check.renumber g) =
      (unlessUnknown type path key check).renumber g := by
  simp only [unlessUnknown, Check.renumber_ite]
  rfl

/-- A section is checked alike on other lines if its keys are. -/
theorem checkSection_renumber (isEmpty : Bool) (check : Check Unit) :
    checkSection type path (key.renumber g) isEmpty (check.renumber g) =
      (checkSection type path key isEmpty check).renumber g := by
  simp only [checkSection, Check.renumber_ite]
  rfl

mutual

/-- What a key holds is checked alike on other lines. -/
theorem checkKey_renumber (path : Text) (key : Tracked) : ∀ node : Node,
    checkKey v type path (key.renumber g) (node.renumber g) =
      (checkKey v type path key node).renumber g
  | .scalar value => by
    rw [Node.renumber, checkKey, checkKey, checkValue_renumber, unlessUnknown_renumber]
  | .list items _ => by
    rw [Node.renumber, checkKey, checkKey, checkList_renumber, unlessUnknown_renumber]
  | .map entries _ => by
    rw [Node.renumber, checkKey, checkKey, Entries.isEmpty_renumber,
      checkKeysBelow_renumber path entries, checkSection_renumber, unlessUnknown_renumber]
  | .foreign kind =>
    unlessUnknown_renumber g type path key (Check.refuse (.foreign kind) (.key key.text))

/-- The keys of a section are checked alike on other lines. -/
theorem checkKeysBelow_renumber (path : Text) : ∀ entries : Entries,
    checkKeysBelow v type path (entries.renumber g) =
      (checkKeysBelow v type path entries).renumber g
  | [] => by rw [Entries.renumber, checkKeysBelow]; rfl
  | (key, node) :: rest => by
    rw [Entries.renumber, checkKeysBelow, checkKeysBelow, Check.renumber_bind,
      Tracked.renumber_text, checkKey_renumber _ key node, checkKeysBelow_renumber path rest]

end

/-- The keys of a container are checked alike on other lines. -/
theorem checkKeys_renumber (entries : Entries) :
    checkKeys v type (entries.renumber g) = (checkKeys v type entries).renumber g := by
  induction entries with
  | nil => rfl
  | cons e rest ih =>
    obtain ⟨key, node⟩ := e
    rw [Entries.renumber, checkKeys, checkKeys, Tracked.renumber_text, checkKey_renumber, ih]
    split
    · rfl
    · rw [Check.renumber_bind]

end

/-! ## Containers -/

/-- What is reported of the key `debug` moves with its line. -/
theorem debugLog_renumber (entries : Entries) :
    debugLog (entries.renumber g) = (debugLog entries).renumber g := by
  rw [debugLog, debugLog, Entries.find?_renumber]
  cases entries.find? "debug".toList with
  | none => rfl
  | some e =>
    obtain ⟨key, node⟩ := e
    cases node with
    | scalar value => simp only [Option.map_some, Node.renumber, Log.renumber_ite]; rfl
    | _ => rfl

/-- A required key is there or not whatever the lines are. -/
theorem isPresent_renumber (entries : Entries) (pattern : KeyPattern) :
    isPresent (entries.renumber g) pattern = isPresent entries pattern := by
  rw [isPresent, isPresent, Entries.renumber_eq_map, List.any_map]
  rfl

/-- A missing key is reported on the new line of the container. -/
theorem requiredLog_renumber (type : ContainerType) (name : Tracked) (entries : Entries) :
    requiredLog type (name.renumber g) (entries.renumber g) =
      (requiredLog type name entries).renumber g := by
  simp only [requiredLog, isPresent_renumber, Log.renumber, List.map_map]
  rfl

/-- A forbidden key is reported on its new line. -/
theorem forbiddenLog_renumber (type : ContainerType) (entries : Entries) :
    forbiddenLog type (entries.renumber g) = (forbiddenLog type entries).renumber g := by
  simp only [forbiddenLog, Entries.renumber_eq_map, List.filter_map, Log.renumber, List.map_map]
  rfl

/-- What is reported of the usage of a command script moves with its line. -/
theorem usageLog_renumber (entries : Entries) :
    usageLog (entries.renumber g) = (usageLog entries).renumber g := by
  rw [usageLog, usageLog, Entries.find?_renumber, Entries.find?_renumber]
  cases entries.find? "name".toList with
  | none => rfl
  | some n =>
  cases entries.find? "usage".toList with
  | none => rcases n with ⟨key, ⟨⟩⟩ <;> rfl
  | some u =>
    rcases n with ⟨key, ⟨⟩⟩ <;> rcases u with ⟨key', ⟨⟩⟩ <;>
      simp only [Option.map_some, Node.renumber, Log.renumber_ite] <;> rfl

/-- What is reported of the keys of a section moves with their lines. -/
theorem sectionLog_renumber (name : String) {check : Tracked → Log}
    (h : ∀ key, check (key.renumber g) = (check key).renumber g) (entries : Entries) :
    sectionLog name check (entries.renumber g) = (sectionLog name check entries).renumber g := by
  rw [sectionLog, sectionLog, Entries.find?_renumber]
  cases entries.find? name.toList with
  | none => rfl
  | some e =>
    obtain ⟨key, node⟩ := e
    cases node with
    | map keys line =>
      simp only [Option.map_some, Node.renumber, Entries.renumber_eq_map, List.flatMap_map, h,
        Log.renumber, List.map_flatMap]
    | _ => rfl

/-- What is reported of the name of an action moves with its line. -/
theorem actionLog_renumber (v : Vocabulary) (key : Tracked) :
    actionLog v (key.renumber g) = (actionLog v key).renumber g := by
  simp only [actionLog, Log.renumber_append, Log.renumber_ite]
  rfl

/-- What is reported of the name of an event moves with its line. -/
theorem eventLog_renumber (v : Vocabulary) (key : Tracked) :
    eventLog v (key.renumber g) = (eventLog v key).renumber g := by
  simp only [eventLog, Log.renumber_append, Log.renumber_ite]
  rfl

/-- What the rules of single script types report moves with the lines. -/
theorem typeLog_renumber (v : Vocabulary) (type : Text) (entries : Entries) :
    typeLog v type (entries.renumber g) = (typeLog v type entries).renumber g := by
  simp only [typeLog, usageLog_renumber, sectionLog_renumber g _ (actionLog_renumber g v),
    sectionLog_renumber g _ (eventLog_renumber g v), Log.renumber_ite]
  rfl

/-- The names that a container declares do not depend on lines. -/
theorem declaredKnown_renumber (entries : Entries) :
    declaredKnown (entries.renumber g) = declaredKnown entries := by
  rw [declaredKnown, declaredKnown, Entries.find?_renumber]
  rcases entries.find? "definitions".toList with _ | ⟨key, ⟨⟩⟩ <;> rfl

/-- A container of a known type is checked alike on other lines. -/
theorem checkTyped_renumber (v : Vocabulary) (type : ContainerType) (name : Tracked)
    (entries : Entries) :
    checkTyped v type (name.renumber g) (entries.renumber g) =
      (checkTyped v type name entries).renumber g := by
  simp only [checkTyped, debugLog_renumber, requiredLog_renumber, forbiddenLog_renumber,
    checkKeys_renumber, typeLog_renumber, Check.renumber_bind, Check.renumber_report,
    Log.renumber_append]

/-- A container is checked alike on other lines. -/
theorem checkContainer_renumber (v : Vocabulary) (types : Registry) (name : Tracked)
    (node : Node) :
    checkContainer v types (name.renumber g) (node.renumber g) =
      (checkContainer v types name node).renumber g := by
  cases node with
  | scalar value => rfl
  | list items line => rfl
  | foreign kind => exact refuse_renumber g (.foreign kind) .container
  | map entries line =>
    rw [Node.renumber, checkContainer, checkContainer, Entries.find?_renumber,
      declaredKnown_renumber]
    cases Entries.find? "type".toList entries with
    | none => rfl
    | some e =>
      obtain ⟨key, node⟩ := e
      have ht : typeName (node.renumber g) = typeName node := by cases node <;> rfl
      simp only [Option.map_some, ht]
      cases types.get? (typeName node) with
      | none => rfl
      | some schema => exact checkTyped_renumber g v _ name entries

/-- What is reported of a container moves with its lines, the faults included. -/
theorem containerLog_renumber (v : Vocabulary) (types : Registry) (name : Tracked) (node : Node) :
    containerLog v types (name.renumber g) (node.renumber g) =
      (containerLog v types name node).renumber g := by
  rw [containerLog, containerLog, checkContainer_renumber]
  simp only [Check.renumber]
  cases (checkContainer v types name node).result with
  | ok => rfl
  | error fault => simp only [Log.renumber_append]; rfl

/-- Checking a renumbered document gives the renumbered log. -/
theorem checkDocument_renumber (v : Vocabulary) (types : Registry) (entries : Entries) :
    checkDocument v types (entries.renumber g) = (checkDocument v types entries).renumber g := by
  rw [checkDocument, checkDocument, Entries.renumber_eq_map, List.flatMap_map, Log.renumber,
    List.map_flatMap]
  congr 1
  funext e
  exact containerLog_renumber g v types e.1 e.2

end ScriptLint
