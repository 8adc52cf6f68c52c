import ScriptLint.Container
import ScriptLint.Proofs.Container.Steps

/-!
# The course of a check

A check stops at the first node that has no place where it stands. Its course is the whole walk, as
if nothing could stop it: all that it would find, and all nodes that it would refuse, in order
(`Course`). Courses are put together by writing one after the other, and no part of a course
depends on the faults of another. What is known at a command is what the commands before it
introduce, be there refused nodes among them or not.

A check does what its course says up to the first fault: it writes the findings before it and none
of those after it (`Course.check`). This is shown along the recursions of the checks, for all trees
(`checkCommands_eq`, `checkData_eq`, `checkKey_eq`, `checkContainer_eq`).
-/

namespace ScriptLint

/-- What a check finds and what it refuses on its way, in order. -/
abbrev Course := List (Except Fault Diagnostic)

namespace Course

/-- The course of a check that writes a log. -/
def said (log : Log) : Course := log.map .ok

/-- The course of a check that refuses a node. -/
def refused (node : Node) (place : Fault.Place) : Course := [.error (.node node.kindName place)]

variable {α β : Type}

/-- The check that follows the course up to its first fault, and has a result if there is none. -/
def check (a : α) : Course → Check α
  | [] => pure a
  | .ok d :: rest => ⟨d :: (check a rest).log, (check a rest).result⟩
  | .error fault :: _ => Check.stop fault

@[simp] theorem check_nil (a : α) : check a [] = pure a := rfl

/-- A course has a fault or only findings. -/
theorem cases (course : Course) :
    (∃ log, course = said log) ∨ ∃ log fault rest, course = said log ++ .error fault :: rest := by
  induction course with
  | nil => exact .inl ⟨[], rfl⟩
  | cons event rest ih =>
    cases event with
    | error fault => exact .inr ⟨[], fault, rest, rfl⟩
    | ok d =>
      rcases ih with ⟨log, rfl⟩ | ⟨log, fault, rest, rfl⟩
      · exact .inl ⟨d :: log, rfl⟩
      · exact .inr ⟨d :: log, fault, rest, rfl⟩

/-- Findings are written whatever comes next. -/
theorem check_said_append (a : α) (log : Log) (rest : Course) :
    check a (said log ++ rest) = ⟨log ++ (check a rest).log, (check a rest).result⟩ := by
  induction log with
  | nil => rfl
  | cons d log ih =>
    show (⟨d :: (check a (said log ++ rest)).log,
      (check a (said log ++ rest)).result⟩ : Check α) = _
    rw [ih]
    rfl

@[simp] theorem check_said (a : α) (log : Log) : check a (said log) = ⟨log, .ok a⟩ := by
  have h := check_said_append a log []
  rwa [List.append_nil, check, Check.log_pure, List.append_nil] at h

/-- To write down findings is to follow them. -/
theorem report_eq (log : Log) : Check.report log = check () (said log) := (check_said () log).symm

/-- Nothing is written after a fault. -/
theorem check_stopped (a : α) (log : Log) (fault : Fault) (rest : Course) :
    check a (said log ++ .error fault :: rest) = ⟨log, .error fault⟩ := by
  rw [check_said_append, check, Check.log_stop, List.append_nil]
  rfl

@[simp] theorem check_ite {c : Prop} [Decidable c] (a : α) (x y : Course) :
    check a (if c then x else y) = if c then check a x else check a y :=
  apply_ite (check a) c x y

/-- One check after another follows one course after the other. -/
theorem check_bind {first rest : Course} {a : α} {b : β} {next : α → Check β}
    (h : next a = check b rest) :
    check a first >>= next = check b (first ++ rest) := by
  rcases first.cases with ⟨log, rfl⟩ | ⟨log, fault, after, rfl⟩
  · rw [check_said, Check.bind_of_ok rfl, h, check_said_append]
  · rw [check_stopped, Check.bind_of_error rfl, List.append_assoc, List.cons_append, check_stopped]

/-- What comes out may be replaced at the end. -/
theorem check_bind_pure (a : α) (b : β) (course : Course) :
    (check a course >>= fun _ => pure b) = check b course := by
  have h : (check a course >>= fun _ => pure b) = check b (course ++ []) := check_bind rfl
  rwa [List.append_nil] at h

end Course

open Course

/-! ## Lists -/

section

variable (v : Vocabulary)

/-- The course of a step. -/
def Step.course : Step → Known → Course
  | command t, k => said (Command.lineLog v k t)
  | keys key, _ => said [(Issue.keysInBlock key.text).onLine key.line]
  | search t, _ => said (tagLog v t)
  | refused kind place, _ => [.error (.node kind place)]

/-- What is known after a step. Only a command makes something known. -/
def Step.knownAfter (k : Known) : Step → Known
  | command t => Command.extendByLine k t.text
  | keys _ | search _ | refused _ _ => k

/-- The course of steps. No node that is refused keeps a later step from knowing what the commands
before it introduce. -/
def stepsCourse : List Step → Known → Course
  | [], _ => []
  | step :: rest, k => step.course v k ++ stepsCourse rest (step.knownAfter k)

/-- The course of checking the commands of a list. -/
def commandsCourse (items : List Node) (k : Known) : Course :=
  stepsCourse v (itemSteps .commands items) k

/-- The course of searching the entries of a data list. -/
def dataCourse (items : List Node) : Course := stepsCourse v (itemSteps .data items) {}

/-- A step follows its course. -/
theorem Step.check_eq (step : Step) (k : Known) :
    step.check v k = Course.check (step.knownAfter k) (step.course v k) := by
  cases step with
  | command t => exact (check_said _ _).symm
  | keys key => exact (check_said _ _).symm
  | search t => exact (check_said _ _).symm
  | refused kind place => rfl

/-- Steps follow their course. -/
theorem checkSteps_eq (steps : List Step) (k : Known) :
    checkSteps v steps k = check (steps.foldl Step.knownAfter k) (stepsCourse v steps k) := by
  induction steps generalizing k with
  | nil => rfl
  | cons step rest ih =>
    rw [checkSteps, stepsCourse, step.check_eq]
    exact check_bind (ih _)

/-- Checking the commands of a list follows its course up to the first fault. -/
theorem checkCommands_eq (items : List Node) (k : Known) : checkCommands v items k =
    check ((itemSteps .commands items).foldl Step.knownAfter k) (commandsCourse v items k) := by
  rw [checkCommands_eq_steps]
  exact checkSteps_eq v _ k

/-- Searching a data list follows its course up to the first fault. -/
theorem checkData_eq (items : List Node) : checkData v items = check () (dataCourse v items) := by
  rw [checkData_eq_steps v items {}, checkSteps_eq]
  exact check_bind_pure ..

/-! ## Keys -/

section

variable (type : ContainerType) (path : Text) (key : Tracked)

/-- The course of checking a list under a key. -/
def listCourse (items : List Node) : Course :=
  let s := type.schema
  if s.isScript path then commandsCourse v items type.known
  else if s.isList path then dataCourse v items
  else if s.isValue path then said [(Issue.listForValue key.text).onLine key.line]
  else if s.recognizes path then said [(Issue.listForSection type.name key.text).onLine key.line]
  else if s.embedsScripts then commandsCourse v items type.known
  else dataCourse v items

/-- The course of checking a value under a key. -/
def valueCourse (value : Tracked) : Course :=
  let s := type.schema
  if s.recognizes path && !s.isValue path then
    said [(Issue.valueForCollection type.name key.text).onLine key.line]
  else if path = "usage".toList then []
  else said (tagLog v value)

/-- The course of checking what a key holds unless a strict schema does not know the key. -/
def unlessUnknownCourse (course : Course) : Course :=
  if !type.schema.recognizes path && type.schema.strict then
    said [(Issue.unknownKey type.name key.text).onLine key.line]
  else course

/-- The course of checking a section, and then its keys if it may stand there. -/
def sectionCourse (isEmpty : Bool) (course : Course) : Course :=
  let s := type.schema
  if isEmpty then []
  else if s.recognizes path && !s.allowsNesting path then
    let issue := if s.isValue path then Issue.sectionForValue type.name key.text
      else Issue.sectionForList type.name key.text
    said [issue.onLine key.line]
  else course

/-- The check of a script follows the course of its commands. -/
theorem checkScript_eq (items : List Node) :
    checkScript v type items = check () (commandsCourse v items type.known) := by
  rw [checkScript, checkCommands_eq]
  exact check_bind_pure ..

/-- The check of a list under a key follows its course. -/
theorem checkList_eq (items : List Node) :
    checkList v type path key items = check () (listCourse v type path key items) := by
  simp only [checkList, listCourse, check_ite, checkScript_eq, checkData_eq, report_eq]

/-- The check of a value under a key follows its course. -/
theorem checkValue_eq (value : Tracked) :
    checkValue v type path key value = check () (valueCourse v type path key value) := by
  simp only [checkValue, valueCourse, check_ite, check_nil, report_eq]

/-- An unknown key is all that happens on its course. -/
theorem unlessUnknown_eq (course : Course) :
    unlessUnknown type path key (check () course) =
      check () (unlessUnknownCourse type path key course) := by
  rw [unlessUnknown, unlessUnknownCourse, check_ite, report_eq]

/-- The check of a section follows its course if the checks of its keys do. -/
theorem checkSection_eq (isEmpty : Bool) (course : Course) :
    checkSection type path key isEmpty (check () course) =
      check () (sectionCourse type path key isEmpty course) := by
  simp only [checkSection, sectionCourse, check_ite, check_nil, report_eq]

end

mutual

/-- The course of checking a key of a container. -/
def keyCourse (type : ContainerType) (path : Text) (key : Tracked) : Node → Course
  | .scalar value => unlessUnknownCourse type path key (valueCourse v type path key value)
  | .list items _ => unlessUnknownCourse type path key (listCourse v type path key items)
  | .map entries _ =>
    unlessUnknownCourse type path key
      (sectionCourse type path key entries.isEmpty (keysBelowCourse type path entries))
  | node => unlessUnknownCourse type path key (refused node (.key key.text))

/-- The course of checking the keys of a section. -/
def keysBelowCourse (type : ContainerType) (path : Text) : List (Tracked × Node) → Course
  | [] => []
  | (key, node) :: rest =>
    keyCourse type (pathBelow path key.text) key node ++ keysBelowCourse type path rest

end

mutual

/-- The check of what a key holds follows its course. -/
theorem checkKey_eq (type : ContainerType) (path : Text) (key : Tracked) : ∀ node : Node,
    checkKey v type path key node = check () (keyCourse v type path key node)
  | .scalar value => by rw [checkKey, keyCourse, checkValue_eq]; exact unlessUnknown_eq ..
  | .list items _ => by rw [checkKey, keyCourse, checkList_eq]; exact unlessUnknown_eq ..
  | .map entries _ => by
    rw [checkKey, keyCourse, checkKeysBelow_eq, checkSection_eq]
    exact unlessUnknown_eq ..
  | .foreign kind => unlessUnknown_eq type path key (refused (.foreign kind) (.key key.text))

/-- The check of the keys of a section follows their courses in order. -/
theorem checkKeysBelow_eq (type : ContainerType) (path : Text) : ∀ entries : Entries,
    checkKeysBelow v type path entries = check () (keysBelowCourse v type path entries)
  | [] => by rw [checkKeysBelow, keysBelowCourse]; rfl
  | (key, node) :: rest => by
    rw [checkKeysBelow, keysBelowCourse, checkKey_eq]
    exact check_bind (checkKeysBelow_eq type path rest)

end

/-! ## Containers -/

/-- The course of checking the keys of a container. -/
def keysCourse (type : ContainerType) : Entries → Course
  | [] => []
  | (key, node) :: rest =>
    let path := Text.lower key.text
    (if isReserved path || type.forbids path then [] else keyCourse v type path key node) ++
      keysCourse type rest

/-- The course of checking a container of a known type. -/
def typedCourse (type : ContainerType) (name : Tracked) (entries : Entries) : Course :=
  said (debugLog entries ++ requiredLog type name entries ++ forbiddenLog type entries) ++
    (keysCourse v type entries ++ said (typeLog v type.name entries))

/-- The course of checking a container. -/
def containerCourse (types : Registry) (name : Tracked) : Node → Course
  | .scalar _ | .list _ _ => said [(Issue.notContainer name.text).onLine name.line]
  | .map entries _ =>
    match Entries.find? "type".toList entries with
    | none => said [(Issue.missingType name.text).onLine name.line]
    | some (key, node) =>
      match types.get? (typeName node) with
      | none => said [(Issue.unknownType (typeName node)).onLine key.line]
      | some schema => typedCourse v ⟨typeName node, schema, declaredKnown entries⟩ name entries
  | node => refused node .container

/-- The check of the keys of a container follows their courses in order. -/
theorem checkKeys_eq (type : ContainerType) (entries : Entries) :
    checkKeys v type entries = check () (keysCourse v type entries) := by
  induction entries with
  | nil => rfl
  | cons e rest ih =>
    obtain ⟨key, node⟩ := e
    rw [checkKeys, keysCourse]
    split
    · exact ih
    · rw [checkKey_eq]
      exact check_bind ih

/-- The check of a container of a known type follows its course. -/
theorem checkTyped_eq (type : ContainerType) (name : Tracked) (entries : Entries) :
    checkTyped v type name entries = check () (typedCourse v type name entries) := by
  rw [checkTyped, typedCourse, report_eq]
  refine check_bind ?_
  rw [checkKeys_eq]
  exact check_bind (report_eq _)

/-- Checking a container follows its course up to the first fault. -/
theorem checkContainer_eq (types : Registry) (name : Tracked) (node : Node) :
    checkContainer v types name node = check () (containerCourse v types name node) := by
  cases node with
  | scalar value | list items line => exact report_eq _
  | foreign kind => rfl
  | map entries line =>
    rw [checkContainer, containerCourse]
    cases Entries.find? "type".toList entries with
    | none => exact report_eq _
    | some e =>
      obtain ⟨key, node⟩ := e
      simp only
      cases types.get? (typeName node) with
      | none => exact report_eq _
      | some schema => exact checkTyped_eq v _ name entries

end

end ScriptLint
