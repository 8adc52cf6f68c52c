import ScriptLint.Text.Case

/-!
# Key patterns

The keys of a container are named by dotted paths such as `events.on player joins`. A pattern
covers one path (`exact`), every path below a stem (`below`), or every path (`any`). It is written
as the path itself, as the stem with `.*` after it, or as `*`. A text that is meant as a pattern
may be refused (`PatternError`): it must not be empty or padded, and a star may stand in it only as
the last of the three forms have it.
-/

namespace ScriptLint

/-- What a schema says about keys: which dotted paths it covers. -/
inductive KeyPattern where
  | any
  | below (stem : Text)
  | exact (path : Text)
deriving DecidableEq, Repr

/-- Why a text is no pattern. -/
inductive PatternError.Reason where
  | padded
  | misplacedStar
  | secondStar
deriving DecidableEq, Repr

/-- A text that is no pattern. -/
structure PatternError where
  pattern : Text
  reason : PatternError.Reason
deriving DecidableEq, Repr

namespace PatternError

/-- The reason in words. -/
def Reason.text : Reason → String
  | padded => "must be non-empty and unpadded"
  | misplacedStar => "'*' is only allowed as a '.*' suffix"
  | secondStar => "only one wildcard is allowed"

/-- The message for a pattern and the reason for refusing it. -/
def wording (pattern : Text) (reason : String) : String :=
  "Invalid key pattern '" ++ pattern.string ++ "': " ++ reason

/-- What users are told. -/
def message (e : PatternError) : String := wording e.pattern e.reason.text

end PatternError

namespace KeyPattern

/-- The pattern that a text stands for. -/
def ofText (t : Text) : KeyPattern :=
  if t = ['*'] then any
  else if Text.endsWith ['.', '*'] t then below (t.take (t.length - 2))
  else exact t

/-- How a pattern is written. -/
def text : KeyPattern → Text
  | any => ['*']
  | below stem => stem ++ ['.', '*']
  | exact path => path

/-- Refuses a text that is no pattern; a pattern is read in lower case. -/
def parse (t : Text) : Except PatternError KeyPattern :=
  if t.isEmpty ∨ t ≠ Text.trim t then .error ⟨t, .padded⟩
  else if t = ['*'] then .ok any
  else if t.contains '*' ∧ ¬ Text.endsWith ['.', '*'] t then .error ⟨t, .misplacedStar⟩
  else if Text.endsWith ['.', '*'] t ∧
    (t.take (t.length - 2)).contains '*' then .error ⟨t, .secondStar⟩
  else .ok (ofText (Text.lower t))

/-- The pattern covers the path. -/
def covers (pattern : KeyPattern) (path : Text) : Bool :=
  match pattern with
  | any => true
  | below stem => Text.beginsWith (stem ++ ['.']) path
  | exact p => p = path

/-- The path is on the way to what the pattern covers, or below its stem. -/
def crosses (pattern : KeyPattern) (path : Text) : Bool :=
  match pattern with
  | below stem =>
    Text.beginsWith (path ++ ['.']) (stem ++ ['.', '*']) ||
      Text.beginsWith (stem ++ ['.']) (path ++ ['.'])
  | _ => false

/-- The path that a pattern for a section stands for, next to the paths it covers. -/
def section? : KeyPattern → Option Text
  | below stem => some stem
  | _ => none

end KeyPattern

end ScriptLint
