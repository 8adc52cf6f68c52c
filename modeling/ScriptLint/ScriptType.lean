import ScriptLint.KeyPattern

/-!
# Script types

Every container names its script type. The schema of a type says which keys a container needs,
which ones it should not have, and which keys hold a value, a list or a script. A registry gives
the schema of a type name, in any case; a type that is added later takes the place of an earlier
one.
-/

namespace ScriptLint

/-- What the containers of a script type look like. -/
structure Schema where
  required : List KeyPattern := []
  forbidden : List KeyPattern := []
  values : List KeyPattern := []
  lists : List KeyPattern := []
  scripts : List KeyPattern := []
  /-- Keys that no pattern recognizes are reported. -/
  strict : Bool := false
  /-- A list under a key that no pattern recognizes is a script. -/
  embedsScripts : Bool := true
deriving DecidableEq, Repr

namespace Schema

/-- Some pattern covers the path. -/
def covered (patterns : List KeyPattern) (path : Text) : Bool := patterns.any (·.covers path)

/-- The path holds a value. -/
def isValue (s : Schema) (path : Text) : Bool := covered s.values path

/-- The path holds a list. -/
def isList (s : Schema) (path : Text) : Bool := covered s.lists path

/-- The path holds a script. -/
def isScript (s : Schema) (path : Text) : Bool := covered s.scripts path

/-- The path holds a map of keys. -/
def isSection (s : Schema) (path : Text) : Bool :=
  (s.values ++ s.lists ++ s.scripts).any (·.crosses path)

/-- The schema knows the path. -/
def recognizes (s : Schema) (path : Text) : Bool :=
  s.isValue path || s.isList path || s.isScript path || s.isSection path

/-- Keys may be nested under the path: it is a section, or some kind of content may stand
anywhere. -/
def allowsNesting (s : Schema) (path : Text) : Bool :=
  s.isSection path || s.values.contains .any || s.lists.contains .any || s.scripts.contains .any

/-- The patterns that texts stand for, each once; the first bad one is refused. -/
def patterns (ts : List Text) : Except PatternError (List KeyPattern) :=
  return (← ts.mapM KeyPattern.parse).eraseDups

/-- A schema from the texts of its patterns. -/
def ofTexts (required forbidden values lists scripts : List Text) (strict embedsScripts : Bool) :
    Except PatternError Schema := do
  let required ← patterns required
  let forbidden ← patterns forbidden
  let values ← patterns values
  let lists ← patterns lists
  let scripts ← patterns scripts
  return { required, forbidden, values, lists, scripts, strict, embedsScripts }

/-- The texts of patterns in order. -/
def sortedTexts (patterns : List KeyPattern) : List Text := Text.sorted (patterns.map (·.text))

end Schema

/-- Schemas by the lowercase names of their types, the latest first. -/
structure Registry where
  types : List (Text × Schema) := []
deriving DecidableEq, Repr

namespace Registry

/-- A table of types with their names in lower case. -/
def lowered (types : List (Text × Schema)) : List (Text × Schema) :=
  types.map fun t => (Text.lower t.1, t.2)

/-- The registry of a table of types. -/
def ofTypes (types : List (Text × Schema)) : Registry := ⟨(lowered types).reverse⟩

/-- The registry with more types, or with other schemas for its types. It is the one of the table
of all of them. -/
def addAll (r : Registry) (types : List (Text × Schema)) : Registry :=
  ofTypes (r.types.reverse ++ lowered types)

/-- The schema of a type. -/
def get? (r : Registry) (name : Text) : Option Schema :=
  (r.types.find? (·.1 = Text.lower name)).map (·.2)

/-- The registry knows the type. -/
def contains (r : Registry) (name : Text) : Bool := r.types.any (·.1 = Text.lower name)

/-- The names of the types in order. -/
def names (r : Registry) : List Text := Text.sortedOnce (r.types.map (·.1))

end Registry

end ScriptLint
