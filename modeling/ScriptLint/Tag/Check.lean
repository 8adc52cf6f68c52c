import ScriptLint.Document.Node
import ScriptLint.Issue
import ScriptLint.Tag.Walk
import ScriptLint.Vocabulary

/-!
# Checking tags

What is said of the tags of an argument is said along the walk over it (`tagIssues`): that an
argument has more marks of one sort than of the other, that the base or a later part of a tag is
not in the vocabulary, or that a name is only the notation of the documentation for a kind of tag.
Names that are built by inner tags are not looked up. The base `entry` is always valid, and so is
`context` with the part after it.
-/

namespace ScriptLint

/-- The argument has not as many opening marks as closing ones; up to two characters hold no
tag. -/
def hasUnevenMarks (argument : Text) : Bool :=
  let t := substituteArrows argument
  2 < t.length && t.count '<' != t.count '>'

/-- The name looks like the notation for a kind of tag. -/
def isDocumented (known : List Text) (name : Text) : Bool :=
  3 < name.length && Text.endsWith "tag".toList name && !known.contains name

namespace Tag

/-- The issues of a name that should be one of the known ones. -/
def nameIssues (known : List Text) (unknown : Text → Issue) (name : Text) : List Issue :=
  let small := Text.lower name
  (if known.contains small then [] else [unknown name]) ++
    (if isDocumented known small then [.documentedTag name] else [])

/-- The base is looked up in the vocabulary. -/
def checksBase (base : Text) : Bool :=
  base ≠ [] && base ≠ "entry".toList && base ≠ "context".toList && !base.contains '<'

/-- The parts that are looked up: those after the base, and after the next one if the base is
`context`. -/
def checkedParts (tag : Tag) : List TagPart :=
  (tag.parts.drop (if tag.base = "context".toList then 2 else 1)).filter fun p =>
    !(Text.lower p.name).contains '<'

/-- The issues of a tag itself. -/
def issues (v : Vocabulary) (tag : Tag) : List Issue :=
  (match tag.parts with
    | p :: _ => if checksBase tag.base then nameIssues v.tagBases .unknownTagBase p.name else []
    | [] => []) ++
  tag.checkedParts.flatMap fun p => nameIssues v.tagParts .unknownTagPart p.name

end Tag

/-- The issues at a stop of the walk. -/
def Visit.issues (v : Vocabulary) : Visit → List Issue
  | .argument t => if hasUnevenMarks t then [.unevenTag t] else []
  | .opens _ => []
  | .closes tag => tag.issues v

/-- The issues of the tags of an argument. -/
def tagIssues (v : Vocabulary) (argument : Text) : List Issue :=
  (walk argument).flatMap (Visit.issues v)

/-- What is reported of the tags of a text. -/
def tagLog (v : Vocabulary) (t : Tracked) : Log := (tagIssues v t.text).map (·.onLine t.line)

end ScriptLint
