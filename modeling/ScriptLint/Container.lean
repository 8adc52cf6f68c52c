import ScriptLint.Container.Key

/-!
# Containers

Every entry at the top of a document is a container. Its `type` key names its script type, whose
schema its other keys are checked against; some types have rules of their own. A fault in one
container is reported and does not keep the other ones from being checked (`checkDocument`).
-/

namespace ScriptLint

/-- Keys that every container may have and that no schema is asked about. -/
def isReserved (path : Text) : Bool := ["type", "debug", "speed"].contains path.string

/-- The value of a key in lower case and without blanks around it, if it is a scalar. -/
def plainValue (t : Text) : Text := Text.lower (Text.trim t)

/-! ## Rules for every container -/

/-- Debug mode may be switched off; any other value is reported. -/
def debugLog (entries : Entries) : Log :=
  match entries.find? "debug".toList with
  | some (key, .scalar value) =>
    let mode := plainValue value.text
    if mode = "true".toList then [Issue.debugTrue.onLine key.line]
    else if mode = "false".toList then []
    else [Issue.debugUnknown.onLine key.line]
  | _ => []

/-- Some key is what a required pattern asks for: it is covered, or it is the section itself. -/
def isPresent (entries : Entries) (pattern : KeyPattern) : Bool :=
  entries.any fun (key, _) =>
    let path := Text.lower key.text
    pattern.covers path || pattern.section? = some path

/-- The required keys that a container lacks, in the order of their texts. -/
def requiredLog (type : ContainerType) (name : Tracked) (entries : Entries) : Log :=
  let patterns := type.schema.required.mergeSort fun a b => Text.le a.text b.text
  (patterns.filter fun pattern => !isPresent entries pattern).map fun pattern =>
    (Issue.missingKey type.name pattern.text).onLine name.line

/-- The path is forbidden to containers of the type. -/
def ContainerType.forbids (type : ContainerType) (path : Text) : Bool :=
  !isReserved path && Schema.covered type.schema.forbidden path

/-- The forbidden keys of a container. -/
def forbiddenLog (type : ContainerType) (entries : Entries) : Log :=
  (entries.filter fun (key, _) => type.forbids (Text.lower key.text)).map fun (key, _) =>
    (Issue.forbiddenKey type.name key.text).onLine key.line

/-- Checks the keys of a container but for those that are reserved or forbidden. -/
def checkKeys (v : Vocabulary) (type : ContainerType) : Entries → Check Unit
  | [] => pure ()
  | (key, node) :: rest => do
    let path := Text.lower key.text
    if isReserved path || type.forbids path then pure () else checkKey v type path key node
    checkKeys v type rest

/-! ## Rules for some types -/

/-- The usage of a command begins with a slash and the name of the command. -/
def usageLog (entries : Entries) : Log :=
  match entries.find? "name".toList, entries.find? "usage".toList with
  | some (_, .scalar name), some (_, .scalar usage) =>
    let expected := '/' :: plainValue name.text
    if Text.beginsWith expected (plainValue usage.text) then []
    else [(Issue.unlikeUsage expected).onLine usage.line]
  | _, _ => []

/-- What is reported of each key of a section. -/
def sectionLog (name : String) (check : Tracked → Log) (entries : Entries) : Log :=
  match entries.find? name.toList with
  | some (_, .map keys _) => keys.flatMap fun (key, _) => check key
  | _ => []

/-- The name of an action without the word in front of it. -/
def actionName (t : Text) : Text :=
  let name := plainValue t
  if Text.beginsWith "on ".toList name then Text.trim (name.drop 3) else name

/-- An action is known by its name or by a pattern. -/
def actionLog (v : Vocabulary) (key : Tracked) : Log :=
  let name := actionName key.text
  (if key.text.contains '@' then [Issue.objectInAction.onLine key.line] else []) ++
    (if v.hasAction name || v.matchesAction name then []
      else [(Issue.unknownAction name).onLine key.line])

/-- The name of an event without the word in front of it and without switches. -/
def eventName (t : Text) : Text :=
  let name := plainValue t
  let name := if Text.beginsWith "on ".toList name then name.drop 3
    else if Text.beginsWith "after ".toList name then name.drop 6
    else name
  Text.joined [' '] ((Text.words name).filter fun word => !word.contains ':')

/-- An event is known by its name or by a pattern. -/
def eventLog (v : Vocabulary) (key : Tracked) : Log :=
  let name := eventName key.text
  (if key.text.contains '@' then [Issue.objectInEvent.onLine key.line] else []) ++
    (if v.hasEvent name || v.matchesEvent name then []
      else [(Issue.unknownEvent name).onLine key.line])

/-- What is reported by the rules of the container's type. -/
def typeLog (v : Vocabulary) (type : Text) (entries : Entries) : Log :=
  if type = "command".toList then usageLog entries
  else if type = "assignment".toList then sectionLog "actions" (actionLog v) entries
  else if type = "world".toList then sectionLog "events" (eventLog v) entries
  else []

/-! ## Containers and documents -/

/-- The names that a container declares for its scripts. -/
def declaredKnown (entries : Entries) : Known :=
  match entries.find? "definitions".toList with
  | some (_, .scalar value) => .ofDeclaration value.text
  | _ => {}

/-- Checks a container of a known type. -/
def checkTyped (v : Vocabulary) (type : ContainerType) (name : Tracked) (entries : Entries) :
    Check Unit := do
  Check.report (debugLog entries ++ requiredLog type name entries ++ forbiddenLog type entries)
  checkKeys v type entries
  Check.report (typeLog v type.name entries)

/-- The type that a container names. -/
def typeName : Node → Text
  | .scalar value => plainValue value.text
  | _ => []

/-- Checks a container. -/
def checkContainer (v : Vocabulary) (types : Registry) (name : Tracked) : Node → Check Unit
  | .scalar _ | .list _ _ => Check.report [(Issue.notContainer name.text).onLine name.line]
  | .map entries _ =>
    match Entries.find? "type".toList entries with
    | none => Check.report [(Issue.missingType name.text).onLine name.line]
    | some (key, node) =>
      match types.get? (typeName node) with
      | none => Check.report [(Issue.unknownType (typeName node)).onLine key.line]
      | some schema => checkTyped v ⟨typeName node, schema, declaredKnown entries⟩ name entries
  | node => Check.refuse node .container

/-- What a container adds to the log; a fault is reported on the line of its name. -/
def containerLog (v : Vocabulary) (types : Registry) (name : Tracked) (node : Node) : Log :=
  let check := checkContainer v types name node
  match check.result with
  | .ok () => check.log
  | .error fault =>
    check.log ++ [Issue.faultTrace.onLine name.line,
      (Issue.faultInContainer name.text fault.label fault.reason).onLine name.line]

/-- Checks the containers of a document. -/
def checkDocument (v : Vocabulary) (types : Registry) (entries : Entries) : Log :=
  entries.flatMap fun (name, node) => containerLog v types name node

end ScriptLint
