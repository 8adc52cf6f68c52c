import ScriptLint.Source
import ScriptLint.Yaml.Load

/-!
# Configuration files

Settings and vocabularies may be read from YAML files. A file is known by its path and, if it
exists, its content. Line breaks are made uniform before the content is loaded. A document that
counts as false is an empty one.
-/

namespace ScriptLint

/-- A file that may exist. -/
structure ConfigFile where
  /-- The components of the path, without empty ones and those that stay in place. -/
  path : List Text
  content : Option Text

namespace ConfigFile

/-- The file at a path. -/
def ofPath (path : Text) (content : Option Text) : ConfigFile :=
  ⟨(Text.fields '/' path).filter fun part => part ≠ [] ∧ part ≠ ['.'], content⟩

/-- The path of a file as it is written. -/
def name (f : ConfigFile) : Text :=
  if f.path.isEmpty then ['.'] else Text.joined ['/'] f.path

/-- What is said of a file that does not exist. -/
def missingText (f : ConfigFile) : String :=
  "[Errno 2] No such file or directory: " ++ (Text.quoted f.name).string

/-- Why a file cannot be loaded. -/
inductive Failure where
  | missing
  | yaml (failure : Yaml.Failure)
deriving DecidableEq, Repr

/-- The value that a file holds. -/
def load (f : ConfigFile) : Except Failure Value :=
  match f.content with
  | none => throw .missing
  | some t =>
    match Yaml.load (normalizeBreaks t) with
    | .ok v => return if v.truthy then v else .map []
    | .error failure => throw (.yaml failure)

end ConfigFile

end ScriptLint
