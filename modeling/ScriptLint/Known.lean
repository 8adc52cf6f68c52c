import ScriptLint.Text.Case

/-!
# Known names

Inside a script, a command may refer to definitions and to saved entries by their names. The names
that are known grow line by line. Names are kept in lower case; the name `*` stands for all names,
which are known after something that may define names no check can see.
-/

namespace ScriptLint

/-- The name that makes every name known. -/
abbrev everyName : Text := ['*']

/-- The definitions and saved entries that are known, each once. -/
structure Known where
  definitions : List Text := []
  entries : List Text := []
deriving DecidableEq, Repr

namespace Known

/-- One more definition is known. -/
def define (k : Known) (name : Text) : Known :=
  { k with definitions := k.definitions.insert (Text.lower name) }

/-- One more saved entry is known. -/
def save (k : Known) (name : Text) : Known :=
  { k with entries := k.entries.insert (Text.lower name) }

/-- Every name is known. -/
def widen (k : Known) : Known :=
  ⟨k.definitions.insert everyName, k.entries.insert everyName⟩

/-- Every definition is known. -/
def isWide (k : Known) : Bool := k.definitions.contains everyName

/-- The definition is known. -/
def hasDefinition (k : Known) (name : Text) : Bool :=
  k.definitions.contains everyName || k.definitions.contains (Text.lower name)

/-- The saved entry is known. -/
def hasEntry (k : Known) (name : Text) : Bool :=
  k.entries.contains everyName || k.entries.contains (Text.lower name)

/-- The names in a declaration: they have bars between them, and each may have a description in
brackets. -/
def declaredNames (declaration : Text) : List Text :=
  ((Text.fields '|' declaration).map fun field =>
    Text.trim (Text.before '[' field)).filter (!·.isEmpty)

/-- The names that a declaration makes known. -/
def ofDeclaration (declaration : Text) : Known := (declaredNames declaration).foldl define {}

end Known

end ScriptLint
