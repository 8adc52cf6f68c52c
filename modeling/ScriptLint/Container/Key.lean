import ScriptLint.Command.Block
import ScriptLint.ScriptType

/-!
# Keys of a container

A key of a container is known by its dotted path. The schema of the container's type says what may
stand under it; a key that holds something else is reported, and what it holds is not looked at.
Values and data lists are searched for tags, scripts are checked command by command, and sections
are checked key by key.
-/

namespace ScriptLint

/-- A container's type and what its keys are checked against. -/
structure ContainerType where
  name : Text
  schema : Schema
  /-- The names that every script of the container knows. -/
  known : Known

mutual

/-- Searches the entries of a data list for tags. -/
def checkData (v : Vocabulary) : List Node → Check Unit
  | [] => pure ()
  | node :: rest => do
    checkDatum v node
    checkData v rest

/-- Searches an entry of a data list for tags. -/
def checkDatum (v : Vocabulary) : Node → Check Unit
  | .scalar t => Check.report (tagLog v t)
  | .map entries _ => checkDataKeys v entries
  | node => Check.refuse node .dataList

/-- Searches keys of a data list and the lists under them for tags. -/
def checkDataKeys (v : Vocabulary) : List (Tracked × Node) → Check Unit
  | [] => pure ()
  | (key, node) :: rest => do
    Check.report (tagLog v key)
    checkDataBelow v node
    checkDataKeys v rest

/-- Searches what stands under a key of a data list, if it is a list. -/
def checkDataBelow (v : Vocabulary) : Node → Check Unit
  | .list items _ => checkData v items
  | _ => pure ()

end

/-- Checks a list as a script. -/
def checkScript (v : Vocabulary) (type : ContainerType) (items : List Node) : Check Unit := do
  let _ ← checkCommands v items type.known
  pure ()

/-- Checks a list under a key. -/
def checkList (v : Vocabulary) (type : ContainerType) (path : Text) (key : Tracked)
    (items : List Node) :
    Check Unit :=
  let s := type.schema
  if s.isScript path then checkScript v type items
  else if s.isList path then checkData v items
  else if s.isValue path then Check.report [(Issue.listForValue key.text).onLine key.line]
  else if s.recognizes path then
    Check.report [(Issue.listForSection type.name key.text).onLine key.line]
  else if s.embedsScripts then checkScript v type items
  else checkData v items

/-- Checks a value under a key; the value of `usage` is not searched for tags. -/
def checkValue (v : Vocabulary) (type : ContainerType) (path : Text) (key value : Tracked) :
    Check Unit :=
  let s := type.schema
  if s.recognizes path && !s.isValue path then
    Check.report [(Issue.valueForCollection type.name key.text).onLine key.line]
  else if path = "usage".toList then pure ()
  else Check.report (tagLog v value)

/-- The path of a key below another path. -/
def pathBelow (path key : Text) : Text := path ++ '.' :: Text.lower key

/-- A key that a strict schema does not know is reported, and what it holds is not looked at. -/
def unlessUnknown (type : ContainerType) (path : Text) (key : Tracked) (check : Check Unit) :
    Check Unit :=
  if !type.schema.recognizes path && type.schema.strict then
    Check.report [(Issue.unknownKey type.name key.text).onLine key.line]
  else check

/-- Checks that a section may stand under a key, and then its keys by `check`. An empty section may
stand everywhere. -/
def checkSection (type : ContainerType) (path : Text) (key : Tracked) (isEmpty : Bool)
    (check : Check Unit) :
    Check Unit :=
  let s := type.schema
  if isEmpty then pure ()
  else if s.recognizes path && !s.allowsNesting path then
    let issue := if s.isValue path then Issue.sectionForValue type.name key.text
      else Issue.sectionForList type.name key.text
    Check.report [issue.onLine key.line]
  else check

mutual

/-- Checks a key of a container. -/
def checkKey (v : Vocabulary) (type : ContainerType) (path : Text) (key : Tracked) :
    Node → Check Unit
  | .scalar value => unlessUnknown type path key (checkValue v type path key value)
  | .list items _ => unlessUnknown type path key (checkList v type path key items)
  | .map entries _ =>
    unlessUnknown type path key
      (checkSection type path key entries.isEmpty (checkKeysBelow v type path entries))
  | node => unlessUnknown type path key (Check.refuse node (.key key.text))

/-- Checks the keys of a section. -/
def checkKeysBelow (v : Vocabulary) (type : ContainerType) (path : Text) :
    List (Tracked × Node) → Check Unit
  | [] => pure ()
  | (key, node) :: rest => do
    checkKey v type (pathBelow path key.text) key node
    checkKeysBelow v type path rest

end

end ScriptLint
