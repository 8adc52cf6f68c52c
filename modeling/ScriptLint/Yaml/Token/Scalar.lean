import ScriptLint.Yaml.Token

/-!
# Scalars of a YAML text

Scalars are written plain, between quotes, or as a block of lines. In each form line breaks are
folded: a single break reads as a space and further breaks are kept, except where a block keeps all
of them. A loop over a text takes as fuel the bound of its cursor, since each round reads a
character.
-/

namespace ScriptLint.Yaml

/-! ## Plain scalars -/

/-- The character goes on with a plain scalar: it is no blank, no colon before a blank, and inside
of brackets none of their marks. -/
def continuesPlain (inFlow : Bool) (c next : Char) : Bool :=
  !(endsWord c || (c = ':' && (endsWord next || (inFlow && ",[]\x7b\x7d".contains next))) ||
    (inFlow && ",?[]\x7b\x7d".contains c))

/-- The line breaks after the first one, unless a document separator is met; spaces between them
are passed over. -/
def plainBreaks : Nat → Text → Cursor → Option Text × Cursor
  | 0, breaks, c => (some breaks, c)
  | fuel + 1, breaks, c =>
    if c.peek = ' ' then plainBreaks fuel breaks c.next
    else if isBreak c.peek then
      let (b, c) := c.lineBreak
      if c.atSeparator then (none, c) else plainBreaks fuel (breaks ++ b) c
    else (some breaks, c)

/-- Line breaks folded: a line feed alone is a space, and is left out before further breaks. -/
def foldBreaks (first breaks : Text) : Text :=
  (if first ≠ ['\n'] then first else if breaks.isEmpty then [' '] else []) ++ breaks

/-- What stands between two parts of a plain scalar, empty if the scalar ends here, and whether a
line ended. -/
def plainGap (c : Cursor) : Text × Bool × Cursor :=
  let (blanks, c) := c.span fun d _ => d = ' '
  if isBreak c.peek then
    let (first, c) := c.lineBreak
    if c.atSeparator then ([], true, c)
    else
      match plainBreaks c.bound [] c with
      | (none, c) => ([], true, c)
      | (some breaks, c) => (foldBreaks first breaks, true, c)
  else (blanks, false, c)

/-- A plain scalar as it is read: its text, the place where it ends, and whether a line has ended
since. -/
structure PlainScalar where
  text : Text
  last : Place
  lineEnded : Bool

/-- The rest of a plain scalar after a gap. -/
def plainFrom (inFlow : Bool) (indent : Int) :
    Nat → PlainScalar → Text → Cursor → PlainScalar × Cursor
  | 0, s, _, c => (s, c)
  | fuel + 1, s, gap, c =>
    let (part, after) := c.span (continuesPlain inFlow)
    if c.peek = '#' ∨ part.isEmpty then (s, c)
    else
      let (gap', lineEnded, next) := plainGap after
      let s := ⟨s.text ++ gap ++ part, after.place, lineEnded⟩
      if gap'.isEmpty ∨ next.peek = '#' ∨ (¬ inFlow ∧ (next.column : Int) < indent) then (s, next)
      else plainFrom inFlow indent fuel s gap' next

/-- A plain scalar; in a block its lines are at `indent` or deeper. -/
def plainScalar (inFlow : Bool) (indent : Int) (c : Cursor) : PlainScalar × Cursor :=
  plainFrom inFlow indent c.bound ⟨[], c.place, false⟩ [] c

/-! ## Quoted scalars -/

/-- The character that a letter after a backslash stands for. -/
def escape? : Char → Option Char
  | '0' => some '\x00'
  | 'a' => some '\x07'
  | 'b' => some '\x08'
  | 't' | '\t' => some '\t'
  | 'n' => some '\n'
  | 'v' => some '\x0b'
  | 'f' => some '\x0c'
  | 'r' => some '\r'
  | 'e' => some '\x1b'
  | ' ' => some ' '
  | '\x22' => some '\x22'
  | '\\' => some '\\'
  | '/' => some '/'
  | 'N' => some '\x85'
  | '_' => some '\xa0'
  | 'L' => some '\u2028'
  | 'P' => some '\u2029'
  | _ => none

/-- The number of hexadecimal digits that follow a letter after a backslash. -/
def escapeDigits? : Char → Option Nat
  | 'x' => some 2
  | 'u' => some 4
  | 'U' => some 8
  | _ => none

/-- The character of a code; half of a pair stands for no character and gives the replacement
character. -/
def charOfCode (n : Nat) : Except Failure Char :=
  if 0x10ffff < n then .error (.value .character)
  else if 0xd800 ≤ n ∧ n ≤ 0xdfff then .ok '\ufffd'
  else .ok (Char.ofNat n)

/-- The character with a code of `digits` hexadecimal digits. -/
def codeEscape (start : Place) (digits : Nat) (c : Cursor) : Except Failure (Char × Cursor) :=
  match (List.range digits).find? fun k => !isHex (c.peekAt k) with
  | some k => c.fail (some .doubleQuoted) (some start) (.notEscape digits (c.peekAt k))
  | none => do
    let d ← charOfCode (hexNumber (c.rest.take digits))
    return (d, c.skip digits)

/-- The line breaks after the first one inside quotes; blanks between them are passed over. -/
def quotedBreaks (start : Place) : Nat → Text → Cursor → Except Failure (Text × Cursor)
  | 0, breaks, c => .ok (breaks, c)
  | fuel + 1, breaks, c =>
    if c.atSeparator then c.fail (some .quoted) (some start) .separatorInside
    else
      let c := c.skipWhile fun d => d = ' ' || d = '\t'
      if isBreak c.peek then
        let (b, c) := c.lineBreak
        quotedBreaks start fuel (breaks ++ b) c
      else .ok (breaks, c)

/-- Blanks inside quotes; line breaks are folded. -/
def quotedGap (start : Place) (c : Cursor) : Except Failure (Text × Cursor) :=
  let (blanks, c) := c.span fun d _ => d = ' ' || d = '\t'
  if c.peek = endMark then c.fail (some .quoted) (some start) .endOfStream
  else if isBreak c.peek then do
    let (first, c) := c.lineBreak
    let (breaks, c) ← quotedBreaks start c.bound [] c
    return (foldBreaks first breaks, c)
  else .ok (blanks, c)

/-- The character ends a run of plain characters inside quotes. -/
def stopsQuoted (c : Char) : Bool := c = '\x27' || c = '\x22' || c = '\\' || endsWord c

/-- The characters of a quoted scalar up to a blank or the closing quote. -/
def quotedPart (double : Bool) (start : Place) :
    Nat → Text → Cursor → Except Failure (Text × Cursor)
  | 0, text, c => .ok (text, c)
  | fuel + 1, text, c =>
    let (run, c) := c.span fun d _ => !stopsQuoted d
    let text := text ++ run
    let d := c.peek
    if ¬ double ∧ d = '\x27' ∧ c.peekAt 1 = '\x27' then
      quotedPart double start fuel (text ++ ['\x27']) (c.skip 2)
    else if (double ∧ d = '\x27') ∨ (¬ double ∧ (d = '\x22' ∨ d = '\\')) then
      quotedPart double start fuel (text ++ [d]) c.next
    else if double ∧ d = '\\' then
      let c := c.next
      match escape? c.peek with
      | some e => quotedPart double start fuel (text ++ [e]) c.next
      | none =>
        match escapeDigits? c.peek with
        | some digits => do
          let (e, c) ← codeEscape start digits c.next
          quotedPart double start fuel (text ++ [e]) c
        | none =>
          if isBreak c.peek then do
            let (_, c) := c.lineBreak
            let (breaks, c) ← quotedBreaks start c.bound [] c
            quotedPart double start fuel (text ++ breaks) c
          else c.fail (some .doubleQuoted) (some start) (.unknownEscape c.peek)
    else .ok (text, c)

/-- The rest of a quoted scalar with its closing quote. -/
def quotedFrom (double : Bool) (start : Place) :
    Nat → Text → Cursor → Except Failure (Text × Cursor)
  | 0, text, c => .ok (text, c)
  | fuel + 1, text, c =>
    if c.peek = (if double then '\x22' else '\x27') then .ok (text, c.next)
    else do
      let (gap, c) ← quotedGap start c
      let (part, c) ← quotedPart double start c.bound [] c
      quotedFrom double start fuel (text ++ gap ++ part) c

/-- A quoted scalar from its opening quote on. -/
def quotedScalar (double : Bool) (c : Cursor) : Except Failure (Text × Cursor) := do
  let start := c.place
  let c := c.next
  let (part, c) ← quotedPart double start c.bound [] c
  quotedFrom double start c.bound part c

/-! ## Block scalars -/

/-- The line breaks at the end of a block: all are kept, the last one is, or none is. -/
inductive Chomping where
  | keep
  | clip
  | strip
deriving DecidableEq, Repr

/-- A sign of chomping. -/
def chomping? : Char → Option Chomping
  | '+' => some .keep
  | '-' => some .strip
  | _ => none

/-- The digit of an indentation, which is not zero. -/
def indentDigit (start : Place) (c : Cursor) : Except Failure ((Option Nat) × Cursor) :=
  if c.peek = '0' then c.fail (some .blockScalar) (some start) .zeroIndent
  else if c.peek.isDigit then .ok (some (c.peek.toNat - '0'.toNat), c.next)
  else .ok (none, c)

/-- The signs after the mark of a block scalar: chomping and indentation, in any order. -/
def blockHeader (start : Place) (c : Cursor) :
    Except Failure ((Chomping × Option Nat) × Cursor) := do
  let (signs, c) ← match chomping? c.peek with
    | some chomping => do
      let (indent, c) ← indentDigit start c.next
      pure ((chomping, indent), c)
    | none => do
      let (indent, c) ← indentDigit start c
      match indent, chomping? c.peek with
      | some _, some chomping => pure ((chomping, indent), c.next)
      | _, _ => pure ((Chomping.clip, indent), c)
  if endsField c.peek then return (signs, c)
  else c.fail (some .blockScalar) (some start) (.notHeader c.peek)

/-- The rest of a line that holds nothing but a comment. -/
def ignoredLine (context : Context) (start : Place) (c : Cursor) : Except Failure Cursor :=
  let c := c.skipSpaces.skipComment
  if endsLine c.peek then .ok c.lineBreak.2
  else c.fail (some context) (some start) (.notLineEnd c.peek)

/-- The empty lines at the start of a block, whose deepest column tells the indentation. -/
def leadingBreaks : Nat → Text → Nat → Place → Cursor → Text × Nat × Place × Cursor
  | 0, breaks, deepest, last, c => (breaks, deepest, last, c)
  | fuel + 1, breaks, deepest, last, c =>
    if c.peek = ' ' then
      let c := c.next
      leadingBreaks fuel breaks (max deepest c.column) last c
    else if isBreak c.peek then
      let (b, c) := c.lineBreak
      leadingBreaks fuel (breaks ++ b) deepest c.place c
    else (breaks, deepest, last, c)

/-- The cursor after spaces, at `indent` at most. -/
def skipIndent (indent : Nat) : Nat → Cursor → Cursor
  | 0, c => c
  | fuel + 1, c => if c.column < indent ∧ c.peek = ' ' then skipIndent indent fuel c.next else c

/-- The empty lines inside a block; the cursor goes on to `indent`. -/
def blockBreaks (indent : Nat) : Nat → Text → Place → Cursor → Text × Place × Cursor
  | 0, breaks, last, c => (breaks, last, c)
  | fuel + 1, breaks, last, c =>
    let c := skipIndent indent (indent + 1) c
    if isBreak c.peek then
      let (b, c) := c.lineBreak
      blockBreaks indent fuel (breaks ++ b) c.place c
    else (breaks, last, c)

/-- The lines of a block. `breaks` are the empty lines before the first, `ended` is the break that
ended the line before; the result is the text, that break, the empty lines after it and where they
end. -/
def blockLines (folded : Bool) (indent : Nat) :
    Nat → Text → Text → Text → Place → Cursor → (Text × Text × Text) × Place × Cursor
  | 0, text, breaks, ended, last, c => ((text, ended, breaks), last, c)
  | fuel + 1, text, breaks, ended, last, c =>
    if c.column = indent ∧ c.peek ≠ endMark then
      let blank := fun d => d = ' ' ∨ d = '\t'
      let startsBlank := blank c.peek
      let (line, c) := c.span fun d _ => !endsLine d
      let text := text ++ breaks ++ line
      let (ended, c) := c.lineBreak
      let (breaks, last, c) := blockBreaks indent c.bound [] c.place c
      if c.column = indent ∧ c.peek ≠ endMark then
        let joint :=
          if folded ∧ ended = ['\n'] ∧ ¬ startsBlank ∧ ¬ blank c.peek then
            if breaks.isEmpty then [' '] else []
          else ended
        blockLines folded indent fuel (text ++ joint) breaks ended last c
      else ((text, ended, breaks), last, c)
    else ((text, ended, breaks), last, c)

/-- A block scalar from its mark on, in a block at `indent`: its text and where it ends. -/
def blockScalar (folded : Bool) (indent : Int) (c : Cursor) :
    Except Failure ((Text × Place) × Cursor) := do
  let start := c.place
  let ((chomping, increment), c) ← blockHeader start c.next
  let c ← ignoredLine .blockScalar start c
  let least := (max (indent + 1) 1).toNat
  let (width, breaks, last, c) := match increment with
    | none =>
      let (breaks, deepest, last, c) := leadingBreaks c.bound [] 0 c.place c
      (max least deepest, breaks, last, c)
    | some n =>
      let width := least + n - 1
      (width, blockBreaks width c.bound [] c.place c)
  let ((text, ended, breaks), last, c) := blockLines folded width c.bound [] breaks [] last c
  let tail := match chomping with
    | .keep => ended ++ breaks
    | .clip => ended
    | .strip => []
  return ((text ++ tail, last), c)

end ScriptLint.Yaml
