/-!
# Diagnostics

A diagnostic tells of one finding: how severe it is, a key that groups findings of one sort, the
line it is on and a message. A log is the list of diagnostics in the order they were found. Lines
count from zero; a negative line stands for the whole script.

A report shows the findings that share a key once: the first of them (`Folded.primary`) stands for
all, and the lines of the others follow it. Folding keeps the keys in the order of their first
findings and lists each line once.
-/

namespace ScriptLint

/-- How severe a finding is. -/
inductive Category where
  | error
  | warning
  | minorWarning
  | info
  /-- A trace of the checker itself, which users are not shown. -/
  | debug
deriving DecidableEq, Repr

/-- A category's name in reports. -/
def Category.name : Category → String
  | .error => "error"
  | .warning => "warning"
  | .minorWarning => "minor_warning"
  | .info => "info"
  | .debug => "debug"

/-- Every category. -/
def Category.all : List Category := [.error, .warning, .minorWarning, .info, .debug]

/-- The category of a given name. -/
def Category.ofName? (name : String) : Option Category := all.find? (·.name = name)

/-- One finding. -/
structure Diagnostic where
  category : Category
  key : String
  line : Int
  message : String
deriving DecidableEq, Repr

/-- The message, after the line's number counted from one if the finding has a line. -/
def Diagnostic.render (d : Diagnostic) : String :=
  if d.line < 0 then d.message else "On line " ++ toString (d.line + 1) ++ ": " ++ d.message

/-- The findings of a check in the order they were made. -/
abbrev Log := List Diagnostic

namespace Log

/-- The findings of one category. -/
def ofCategory (log : Log) (category : Category) : Log := log.filter (·.category = category)

/-- Some finding is an error or a warning, be it a minor one. -/
def hasProblems (log : Log) : Bool :=
  log.any fun d => d.category = .error || d.category = .warning || d.category = .minorWarning

end Log

/-! ## Folded diagnostics -/

/-- The first finding of a key with the other lines its key was found on. -/
structure Folded where
  primary : Diagnostic
  others : List Int := []
deriving DecidableEq, Repr

namespace Folded

/-- The line joins the others, unless it is shown already. -/
def addLine (f : Folded) (line : Int) : Folded :=
  if line = f.primary.line ∨ line ∈ f.others then f else { f with others := f.others ++ [line] }

/-- The finding joins the entry of its key, or starts one. -/
def insert (d : Diagnostic) : List Folded → List Folded
  | [] => [{ primary := d }]
  | f :: fs => if f.primary.key = d.key then f.addLine d.line :: fs else f :: insert d fs

/-- The first `limit` items; a negative limit leaves out as many at the end. -/
def shown {α : Type} (limit : Int) (items : List α) : List α :=
  if 0 ≤ limit then items.take limit.toNat else items.take (items.length - (-limit).toNat)

/-- The first finding, and the other lines if there are any, at most `limit` of them. -/
def render (limit : Int) (f : Folded) : String :=
  let lines := (f.others.filter (0 ≤ ·)).map (· + 1)
  if lines.isEmpty then f.primary.render
  else
    f.primary.render ++ " (Also on lines " ++
      ", ".intercalate ((shown limit lines).map toString) ++
      (if limit < lines.length then ", ..." else "") ++ ")"

end Folded

namespace Log

/-- The findings of one category, folded by key. -/
def folded (log : Log) (category : Category) : List Folded :=
  (log.ofCategory category).foldl (fun fs d => Folded.insert d fs) []

/-- One line of text for each key of a category. -/
def render (log : Log) (category : Category) (limit : Int) : List String :=
  (log.folded category).map (Folded.render limit)

end Log

end ScriptLint
