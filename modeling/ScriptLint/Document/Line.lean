import ScriptLint.Fault
import ScriptLint.Source

/-!
# Content lines

What the tree of a script is built from: the lines that are neither blank nor comments, each with
its number, the width of its indentation and its trimmed text. A tab counts as a fixed number of
spaces, and as none if that number is not positive.

A line is measured by writing out its tabs. The number of spaces must fit the index of a text for
this (`isIndex`), or no line can be measured. That there is memory for the spaces, and for the
line in which they stand for its tabs, is taken for granted, as it is for the script.
-/

namespace ScriptLint

/-- The width of the indentation of a line: its leading spaces, and its tabs at `tab` spaces
each. -/
def indentWidth (tab : Int) : Text → Nat
  | [] => 0
  | c :: r =>
    if c = ' ' then indentWidth tab r + 1
    else if c = '\t' then indentWidth tab r + tab.toNat
    else 0

/-- Two to the power of 63: indices are below it, and at least its negative. -/
def indexBound : Int := 9223372036854775808

/-- A text can be repeated so often: the number fits the index of a text. -/
def isIndex (n : Int) : Bool := -indexBound ≤ n && n < indexBound

/-- Measures the indentation of a line. The spaces of a tab are written out whether the line has a
tab or not. -/
def measureIndent (tab : Int) (t : Text) : Except Fault Nat :=
  if isIndex tab then .ok (indentWidth tab t) else .error .width

namespace Document

/-- A line that is neither blank nor a comment. -/
structure Line where
  number : Nat
  width : Nat
  text : Text
deriving DecidableEq, Repr

namespace Line

/-- The line is an entry of a list: a hyphen alone, or one before a space. -/
def isItem (line : Line) : Bool := line.text = ['-'] || Text.beginsWith ['-', ' '] line.text

/-- What stands after the hyphen of an entry. -/
def itemText (line : Line) : Text := Text.trim (line.text.drop 1)

end Line

/-- The content lines of numbered lines. -/
def linesFrom (tab : Int) (number : Nat) : List SourceLine → List Line
  | [] => []
  | l :: rest =>
    if l.trimmed.isEmpty then linesFrom tab (number + 1) rest
    else ⟨number, indentWidth tab l.raw, l.trimmed⟩ :: linesFrom tab (number + 1) rest

/-- The content lines of a source. -/
def lines (tab : Int) (source : Source) : List Line := linesFrom tab 0 source.lines

/-- Measures and numbers the content lines of numbered lines. -/
def readLinesFrom (tab : Int) (number : Nat) : List SourceLine → Except Fault (List Line)
  | [] => .ok []
  | l :: rest =>
    if l.trimmed.isEmpty then readLinesFrom tab (number + 1) rest
    else do
      let width ← measureIndent tab l.raw
      let lines ← readLinesFrom tab (number + 1) rest
      return ⟨number, width, l.trimmed⟩ :: lines

/-- Reads the content lines of a source. -/
def readLines (tab : Int) (source : Source) : Except Fault (List Line) :=
  readLinesFrom tab 0 source.lines

end Document

end ScriptLint
