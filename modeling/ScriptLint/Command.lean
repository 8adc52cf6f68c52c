import ScriptLint.Argument
import ScriptLint.Document.Node
import ScriptLint.Known
import ScriptLint.Tag.Check
import ScriptLint.Text.Class

/-!
# Commands

A command line is a name and arguments. It is checked against the vocabulary and against the names
that are known before it (`Command.issues`); then the names it introduces are known as well
(`Command.extend`). Which names those are depends on the line alone.
-/

namespace ScriptLint

/-- A command with its arguments. -/
structure Command where
  /-- The name in lower case, without the mark for waiting in front. -/
  name : Text
  arguments : List Text
deriving DecidableEq, Repr

namespace Command

/-- The name without one tilde in front. -/
def dropTilde : Text → Text
  | '~' :: r => r
  | t => t

/-- The command that arguments form, if there are any: the first one is its name. -/
def ofArguments? : List Argument → Option Command
  | [] => none
  | first :: rest => some ⟨dropTilde (Text.lower first.text), rest.map (·.text)⟩

/-- The command on a line. -/
def ofText? (t : Text) : Option Command := ofArguments? (Argument.split t).1

/-! ## The names that a command introduces -/

/-- What follows `mark` in the first argument that begins with it, in any case. -/
def valueOf? (mark : String) (arguments : List Text) : Option Text :=
  (arguments.find? fun a => Text.beginsWith mark.toList (Text.lower a)).map (·.drop mark.length)

/-- The value of a mark, or a usual name if there is none. -/
def nameOf (mark usual : String) (arguments : List Text) : Text :=
  ((valueOf? mark arguments).bind Text.nonempty?).getD usual.toList

/-- The name that a reference such as `list.1` is about. A name that is built by a tag is not
known, and neither is an empty one. -/
def referenceName? (t : Text) : Option Text :=
  if t.contains '<' then none else Text.nonempty? (Text.trim (Text.before '.' t))

/-- The names of the definitions that a command introduces. -/
def definitions (c : Command) : List Text :=
  if c.name = "define".toList then
    (c.arguments.head?.bind fun a => referenceName? (Text.before ':' a)).toList
  else if c.name = "foreach".toList then
    [nameOf "as:" "value" c.arguments, nameOf "key:" "key" c.arguments, "loop_index".toList]
  else if c.name = "repeat".toList then [nameOf "as:" "value" c.arguments]
  else if c.name = "while".toList then ["loop_index".toList]
  else []

/-- The command may define names that no check can see. -/
def widens (c : Command) : Bool := c.name = "inject".toList

/-- The name of the entry that a command saves. -/
def saved? (c : Command) : Option Text := (valueOf? "save:" c.arguments).bind Text.nonempty?

/-- What is known after a command. -/
def extend (c : Command) (k : Known) : Known :=
  let k := c.definitions.foldl Known.define k
  let k := if c.widens then k.widen else k
  match c.saved? with
  | some name => k.save name
  | none => k

/-! ## Issues of a command -/

/-- Some entries of a block only look like commands. -/
def isLabel (c : Command) : Bool := c.name = "case".toList || c.name = "default".toList

/-- The command is not known, or it has too few arguments. -/
def nameIssues (v : Vocabulary) (c : Command) : List Issue :=
  if c.isLabel then []
  else
    match v.command? c.name with
    | none => [.unknownCommand c.name]
    | some info =>
      if c.arguments.length < info.least then
        [.tooFewArguments c.name info.least c.arguments.length]
      else []

/-- The letters before the sign of a raw object. -/
def objectMarks : List String :=
  ["p", "n", "e", "l", "i", "m", "w", "c", "b", "d", "s", "q", "el", "li", "pl", "in", "co",
    "cu", "ch", "du", "ta", "tr"]

/-- The text begins with a raw object: a mark, an at sign and a character that is not blank. -/
def beginsWithObject (t : Text) : Bool :=
  objectMarks.any fun mark =>
    Text.beginsWith (mark.toList ++ ['@']) t &&
      (t.drop (mark.length + 1)).head?.any fun c => !Text.isBlank c

/-- The lowercase argument is a raw object, possibly after a name and a colon. -/
def isRawObject (t : Text) : Bool :=
  let isNamePart (c : Char) : Bool := Text.isWord c || c = '-'
  let name := t.takeWhile isNamePart
  beginsWithObject t ||
    (!name.isEmpty && (t.drop name.length).head? = some ':' &&
      beginsWithObject (t.drop (name.length + 1)))

/-- The issue of a reference to a name that is not known. -/
def referenceIssues (k : Known) (tag : Tag) : List Issue :=
  match tag.definition?, tag.entry? with
  | some t, _ =>
    match referenceName? t with
    | some name => if k.hasDefinition name then [] else [.undefinedName name]
    | none => []
  | none, some t =>
    match referenceName? t with
    | some name => if k.hasEntry name then [] else [.unsavedEntry name]
    | none => []
  | none, none => []

/-- The issues of an argument: of its form, of its tags, and of what they refer to. -/
def argumentIssues (v : Vocabulary) (k : Known) (argument : Text) : List Issue :=
  (if isRawObject (Text.lower argument) then [.rawObject argument] else []) ++
    tagIssues v argument ++ (tagsOf argument).flatMap (referenceIssues k)

/-- The issue of the mechanism in the arguments of `adjust`: the first one that could be a name is
looked up. -/
def mechanismIssues (v : Vocabulary) : List Text → List Issue
  | [] => [.noMechanism]
  | argument :: rest =>
    let name := Text.before ':' argument
    if name.contains '<' && argument.contains ':' then []
    else if name.isEmpty || name.contains '<' then mechanismIssues v rest
    else if v.hasMechanism name then []
    else [.unknownMechanism name]

/-- The issues of commands that have rules of their own. -/
def specialIssues (v : Vocabulary) (c : Command) : List Issue :=
  if c.name = "adjust".toList then
    mechanismIssues v (if 1 < c.arguments.length then c.arguments.tail else c.arguments)
  else if c.name = "queue".toList then
    match c.arguments.map Text.lower with
    | [a] => if a = "stop".toList || a = "clear".toList then [.queueClear] else []
    | _ => []
  else []

/-- The issues of a command. -/
def issues (v : Vocabulary) (k : Known) (c : Command) : List Issue :=
  c.nameIssues v ++ c.arguments.flatMap (argumentIssues v k) ++ c.specialIssues v

/-- The issues of a command line. -/
def lineIssues (v : Vocabulary) (k : Known) (t : Text) : List Issue :=
  let (arguments, splitIssues) := Argument.split t
  splitIssues ++
    match ofArguments? arguments with
    | none => [.emptyCommand]
    | some c => c.issues v k

/-- What is reported of a command line. -/
def lineLog (v : Vocabulary) (k : Known) (t : Tracked) : Log :=
  (lineIssues v k t.text).map (·.onLine t.line)

/-- What is known after a command line. -/
def extendByLine (k : Known) (t : Text) : Known :=
  match ofText? t with
  | none => k
  | some c => c.extend k

end Command

end ScriptLint
