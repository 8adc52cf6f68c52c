import ScriptLint.Text.Class

/-!
# Script sources

A script is read line by line. Its line breaks are made uniform first (`normalizeBreaks`), then
every line is kept as written and trimmed, except that a comment line counts as empty in both
forms. Each line is of one kind (`LineKind`), and the statistics of a source count the lines of
four of the kinds.
-/

namespace ScriptLint

/-- The text with every line break, be it a carriage return, a line feed or both, written as a line
feed. -/
def normalizeBreaks : Text → Text
  | [] => []
  | '\r' :: '\n' :: r => '\n' :: normalizeBreaks r
  | c :: r => (if c = '\r' then '\n' else c) :: normalizeBreaks r

/-- What a trimmed line is for. -/
inductive LineKind where
  /-- It starts with a number sign. -/
  | comment
  /-- It is empty. -/
  | blank
  /-- It starts with a hyphen. -/
  | code
  /-- It ends with a colon. -/
  | heading
  /-- Any other line. -/
  | other
deriving DecidableEq, Repr

/-- The kind of a trimmed line; the first rule that applies decides. -/
def LineKind.ofTrimmed (t : Text) : LineKind :=
  if Text.beginsWith ['#'] t then .comment
  else if t.isEmpty then .blank
  else if Text.beginsWith ['-'] t then .code
  else if Text.endsWith [':'] t then .heading
  else .other

/-- A line of a source as it is written and as it is trimmed. -/
structure SourceLine where
  raw : Text
  trimmed : Text
deriving DecidableEq, Repr

/-- A line as the checks see it: a comment is an empty line. -/
def SourceLine.ofRaw (raw : Text) : SourceLine :=
  let trimmed := Text.trim raw
  if LineKind.ofTrimmed trimmed = .comment then ⟨[], []⟩ else ⟨raw, trimmed⟩

/-- How many lines of four of the kinds a source has. -/
structure Statistics where
  comments : Nat := 0
  blanks : Nat := 0
  headings : Nat := 0
  codes : Nat := 0
deriving DecidableEq, Repr

/-- A script with uniform line breaks, cut into lines. -/
structure Source where
  normalized : Text
  lines : List SourceLine
  statistics : Statistics
deriving DecidableEq, Repr

namespace Source

/-- The lines of a text whose line breaks are uniform. -/
def rawLines (normalized : Text) : List Text := Text.fields '\n' normalized

/-- The number of lines of one kind. -/
def count (kind : LineKind) (raw : List Text) : Nat :=
  (raw.filter fun line => LineKind.ofTrimmed (Text.trim line) = kind).length

/-- A script text read into lines. -/
def ofText (t : Text) : Source :=
  let normalized := normalizeBreaks t
  let raw := rawLines normalized
  { normalized
    lines := raw.map SourceLine.ofRaw
    statistics :=
      { comments := count .comment raw
        blanks := count .blank raw
        headings := count .heading raw
        codes := count .code raw } }

end Source

end ScriptLint
