/-!
# Texts

A text is the list of its characters, so its length, the places in it and the order of two texts
all count code points. This module holds the searches and cuts the rest of the library is written
in: whether a text begins, ends or continues in a given way, the part of a text before a mark, and
the fields between marks.
-/

namespace ScriptLint

/-- A text, character by character. -/
abbrev Text := List Char

namespace Text

/-- The text as a string, for wording messages. -/
abbrev string (t : Text) : String := String.ofList t

/-- The text, unless it is empty. -/
def nonempty? (t : Text) : Option Text := if t.isEmpty then none else some t

/-- The text begins with `start`. -/
def beginsWith (start t : Text) : Bool := start.isPrefixOf t

/-- The text ends with `finish`. -/
def endsWith (finish t : Text) : Bool := finish.isSuffixOf t

/-- The text holds `part` at some place. -/
def holds (part : Text) : Text → Bool
  | [] => part.isEmpty
  | c :: r => part.isPrefixOf (c :: r) || holds part r

/-- The text up to the first `mark`, or all of it. -/
def before (mark : Char) (t : Text) : Text := t.takeWhile (· != mark)

/-- The text after the first `mark`, if there is one. -/
def after? (mark : Char) : Text → Option Text
  | [] => none
  | c :: r => if c = mark then some r else after? mark r

/-- The text up to its last `mark`, if there is one. -/
def beforeLast? (mark : Char) : Text → Option Text
  | [] => none
  | c :: r =>
    match beforeLast? mark r with
    | some t => some (c :: t)
    | none => if c = mark then some [] else none

/-- The fields of a text between its marks; a text without a mark is one field. -/
def fields (mark : Char) (t : Text) : List Text := t.splitOn mark

/-- The texts with a separator between neighbours. -/
def joined (separator : Text) (ts : List Text) : Text := separator.intercalate ts

/-- Texts are ordered by their first different character; a text comes after its beginnings. -/
def le (a b : Text) : Bool :=
  match a, b with
  | [], _ => true
  | _ :: _, [] => false
  | c :: r, d :: s => if c = d then le r s else c.val < d.val

/-- The texts in order. -/
def sorted (ts : List Text) : List Text := ts.mergeSort le

/-- The texts in order, each once. -/
def sortedOnce (ts : List Text) : List Text := sorted ts.eraseDups

end Text

end ScriptLint
