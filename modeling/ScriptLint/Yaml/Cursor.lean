import ScriptLint.Text

/-!
# Places in a YAML text

A cursor is a place in a text together with the text that is left. Reading past the end gives the
NUL character, which no YAML text holds (`Yaml.isAllowed`). Besides the usual line breaks, the
next-line control and the line and paragraph separators end a line.
-/

namespace ScriptLint.Yaml

/-- A place in a text: the number of characters before it, its line and its column, all from
zero. -/
structure Place where
  index : Nat := 0
  line : Nat := 0
  column : Nat := 0
deriving DecidableEq, Inhabited, Repr

/-- What the end of the text reads as. -/
abbrev endMark : Char := '\x00'

/-- The character ends a line. -/
def isBreak (c : Char) : Bool :=
  c = '\n' || c = '\r' || c = '\x85' || c = '\u2028' || c = '\u2029'

/-- The character ends a line or the text. -/
def endsLine (c : Char) : Bool := c = endMark || isBreak c

/-- The character is a space, or ends a line or the text. -/
def endsField (c : Char) : Bool := c = ' ' || endsLine c

/-- The character is a space or a tab, or ends a line or the text. -/
def endsWord (c : Char) : Bool := c = '\t' || endsField c

/-- The character may stand in the name of an anchor, a directive or a tag handle. -/
def isNameChar (c : Char) : Bool := c.isAlphanum || c = '-' || c = '_'

/-- A hexadecimal digit. -/
def isHex (c : Char) : Bool := c.isDigit || ('a' ≤ c && c ≤ 'f') || ('A' ≤ c && c ≤ 'F')

/-- The value of a hexadecimal digit. -/
def hexValue (c : Char) : Nat :=
  if c.isDigit then c.toNat - '0'.toNat
  else if 'a' ≤ c then c.toNat - 'a'.toNat + 10
  else c.toNat - 'A'.toNat + 10

/-- The number that hexadecimal digits stand for. -/
def hexNumber (t : Text) : Nat := t.foldl (fun n c => 16 * n + hexValue c) 0

/-- A place in a text and what is left of it. -/
structure Cursor where
  place : Place := {}
  rest : Text
  /-- More than the length of the whole text, which bounds every loop over what is left. -/
  bound : Nat
deriving Repr

namespace Cursor

/-- The start of a text. -/
def ofText (t : Text) : Cursor := { rest := t, bound := t.length + 1 }

/-- The next character. -/
def peek (c : Cursor) : Char := c.rest.headD endMark

/-- The character `n` places ahead. -/
def peekAt (c : Cursor) (n : Nat) : Char := c.rest.getD n endMark

/-- The column of the cursor. -/
abbrev column (c : Cursor) : Nat := c.place.column

/-- The place after the character `c`, before `next`. A carriage return before a line feed does not
end its line, and a byte order mark takes no column. -/
def placeAfter (p : Place) (c next : Char) : Place :=
  if c = '\n' || c = '\x85' || c = '\u2028' || c = '\u2029' || (c = '\r' && next ≠ '\n') then
    ⟨p.index + 1, p.line + 1, 0⟩
  else if c = '\ufeff' then ⟨p.index + 1, p.line, p.column⟩
  else ⟨p.index + 1, p.line, p.column + 1⟩

/-- The cursor after the next character. -/
def next (c : Cursor) : Cursor :=
  match c.rest with
  | [] => c
  | d :: r => { c with place := placeAfter c.place d (r.headD endMark), rest := r }

/-- The cursor `n` characters ahead. -/
def skip (c : Cursor) : Nat → Cursor
  | 0 => c
  | n + 1 => c.next.skip n

/-- The longest run of characters that satisfy `p`, the place after it and the rest; `p` also sees
the character after the one in question. -/
def spanFrom (p : Char → Char → Bool) (place : Place) : Text → Text × Place × Text
  | [] => ([], place, [])
  | d :: r =>
    let after := r.headD endMark
    if p d after then
      let (run, place, rest) := spanFrom p (placeAfter place d after) r
      (d :: run, place, rest)
    else ([], place, d :: r)

/-- The longest run of characters that satisfy `p`. -/
def span (c : Cursor) (p : Char → Char → Bool) : Text × Cursor :=
  let (run, place, rest) := spanFrom p c.place c.rest
  (run, { c with place, rest })

/-- The cursor after a run of characters that satisfy `p`. -/
def skipWhile (c : Cursor) (p : Char → Bool) : Cursor := (c.span fun d _ => p d).2

/-- The cursor after a run of spaces. -/
def skipSpaces (c : Cursor) : Cursor := c.skipWhile (· = ' ')

/-- The cursor after a comment, if there is one. -/
def skipComment (c : Cursor) : Cursor :=
  if c.peek = '#' then c.skipWhile fun d => !endsLine d else c

/-- Reads a line break, if there is one; all but the separators read as a line feed. -/
def lineBreak (c : Cursor) : Text × Cursor :=
  match c.rest with
  | '\r' :: '\n' :: _ => (['\n'], c.skip 2)
  | d :: _ =>
    if d = '\r' || d = '\n' || d = '\x85' then (['\n'], c.next)
    else if d = '\u2028' || d = '\u2029' then ([d], c.next)
    else ([], c)
  | [] => ([], c)

/-- A line of three hyphens or three points, which separates documents, begins here. -/
def atSeparator (c : Cursor) : Bool :=
  (c.rest.take 3 = ['-', '-', '-'] || c.rest.take 3 = ['.', '.', '.']) && endsWord (c.peekAt 3)

end Cursor

/-- The characters that a YAML text may hold. -/
def isAllowed (c : Char) : Bool :=
  let n := c.toNat
  n = 0x09 || n = 0x0a || n = 0x0d || (0x20 ≤ n && n ≤ 0x7e) || n = 0x85 ||
    (0xa0 ≤ n && n ≤ 0xd7ff) ||
    (0xe000 ≤ n && n ≤ 0xfffd) || 0x10000 ≤ n

end ScriptLint.Yaml
