import ScriptLint.Issue

/-!
# Arguments of a command line

A command line is cut into arguments at its spaces. A quote opens an argument that may hold spaces,
but only at the start of the line or right after a space, and the same quote closes it only right
before a space or the end of the line, so an apostrophe inside a word is a plain character. The
splitter reads one character at a time; its issues come beside the arguments, in order.
-/

namespace ScriptLint

/-- An argument without the quotes around it. -/
structure Argument where
  text : Text
  quoted : Bool := false
deriving DecidableEq, Repr

namespace Argument

/-- The character can open and close a quoted argument. -/
def isQuote (c : Char) : Bool := c = '\x22' || c = '\x27'

/-- Quotes are of use around a text with a space only. -/
def quoteIssues (value : Text) : List Issue :=
  if value.contains ' ' then [] else [.pointlessQuotes]

/-- The arguments of the rest of a line. `quote` is the quote that is open, `fresh` says that a
quote may open here, and `current` holds the argument so far, last character first. -/
def splitFrom (quote : Option Char) (fresh : Bool) (current : Text) :
    Text → List Argument × List Issue
  | [] =>
    match quote with
    | some _ => ([⟨current.reverse, true⟩], [.openQuote])
    | none => (if current.isEmpty then [] else [⟨current.reverse, false⟩], [])
  | c :: r =>
    match quote with
    | none =>
      if c = ' ' then
        let (args, issues) := splitFrom none true [] r
        (if current.isEmpty then args else ⟨current.reverse, false⟩ :: args, issues)
      else if isQuote c && current.isEmpty && fresh then splitFrom (some c) false [] r
      else splitFrom none false (c :: current) r
    | some q =>
      if c = q && (r.isEmpty || r.head? = some ' ') then
        let (args, issues) := splitFrom none false [] r
        (⟨current.reverse, true⟩ :: args, quoteIssues current.reverse ++ issues)
      else splitFrom (some q) false (c :: current) r

/-- The arguments of a line, the name of the command included. -/
def split (t : Text) : List Argument × List Issue := splitFrom none true [] t

end Argument

end ScriptLint
