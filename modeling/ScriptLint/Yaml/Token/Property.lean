import ScriptLint.Yaml.Token.Scalar

/-!
# Properties and directives

What stands before a node or a document: anchors and references, tags, and directives.
-/

namespace ScriptLint.Yaml

/-- The name of an anchor or a reference, after its mark. -/
def anchorName (context : Context) (start : Place) (c : Cursor) : Except Failure (Text × Cursor) :=
  let (name, after) := c.span fun d _ => isNameChar d
  if name.isEmpty then c.fail (some context) (some start) (.notName c.peek)
  else if endsWord after.peek || "?:,]\x7d%@`".contains after.peek then .ok (name, after)
  else after.fail (some context) (some start) (.notName after.peek)

/-! ## Tags -/

/-- What a tag is read for. -/
inductive TagUse where
  | node
  | directive

/-- The context of reading a tag. -/
def TagUse.context : TagUse → Context
  | node => .tag
  | directive => .directive

/-- The context of reading the parts of a tag. -/
def TagUse.partContext : TagUse → Context
  | node => .tagPart
  | directive => .directivePart

/-- A handle: one exclamation mark, or a name between two. -/
def tagHandle (use : TagUse) (start : Place) (c : Cursor) : Except Failure (Text × Cursor) :=
  if c.peek ≠ '!' then c.fail (some use.context) (some start) (.notHandle c.peek)
  else if c.peekAt 1 = ' ' then .ok (['!'], c.next)
  else
    let (name, after) := c.next.span fun d _ => isNameChar d
    if after.peek = '!' then .ok ('!' :: name ++ ['!'], after.next)
    else after.fail (some use.context) (some start) (.notHandle after.peek)

/-- The character may stand in the suffix of a tag. -/
def isUriChar (c : Char) : Bool := c.isAlphanum || "-;/?:@&=+$,_.!~*'()[]%".contains c

/-- How many bytes the character has that begins with byte `b`, and the range of its second
byte. -/
def sequenceShape? (b : Nat) : Option (Nat × Nat × Nat) :=
  if b < 0x80 then some (1, 0x80, 0xbf)
  else if 0xc2 ≤ b ∧ b ≤ 0xdf then some (2, 0x80, 0xbf)
  else if b = 0xe0 then some (3, 0xa0, 0xbf)
  else if b = 0xed then some (3, 0x80, 0x9f)
  else if 0xe1 ≤ b ∧ b ≤ 0xef then some (3, 0x80, 0xbf)
  else if b = 0xf0 then some (4, 0x90, 0xbf)
  else if 0xf1 ≤ b ∧ b ≤ 0xf3 then some (4, 0x80, 0xbf)
  else if b = 0xf4 then some (4, 0x80, 0x8f)
  else none

/-- The bytes after the first one of a character that are in range. -/
def sequenceTail (low high : Nat) : Nat → List Nat → List Nat
  | 0, _ | _, [] => []
  | n + 1, b :: r => if low ≤ b ∧ b ≤ high then b :: sequenceTail 0x80 0xbf n r else []

/-- Bytes that stand for no text, in words: their position and the reason. -/
def bytesReason (bytes : List Nat) (position count : Nat) (reason : String) : String :=
  if count = 1 then
    "'utf-8' codec can't decode byte 0x" ++ (Text.hex 2 (bytes.headD 0)).string ++
      " in position " ++
      toString position ++ ": " ++ reason
  else
    "'utf-8' codec can't decode bytes in position " ++ toString position ++ "-" ++
      toString (position + count - 1) ++ ": " ++ reason

/-- The text that bytes stand for, or why they stand for none. -/
def decodeBytes : Nat → Nat → List Nat → Except String Text
  | 0, _, _ | _, _, [] => .ok []
  | fuel + 1, position, b :: rest =>
    match sequenceShape? b with
    | none => .error (bytesReason (b :: rest) position 1 "invalid start byte")
    | some (size, low, high) =>
      let tail := sequenceTail low high (size - 1) rest
      if tail.length = size - 1 then do
        let first := if size = 1 then b else b % Nat.pow 2 (7 - size)
        let code := tail.foldl (fun n t => 64 * n + t % 64) first
        let text ← decodeBytes fuel (position + size) (rest.drop (size - 1))
        return Char.ofNat code :: text
      else if tail.length = rest.length then
        .error (bytesReason (b :: rest) position (1 + tail.length) "unexpected end of data")
      else .error (bytesReason (b :: rest) position (1 + tail.length) "invalid continuation byte")

/-- Bytes that are written as a percent sign and two hexadecimal digits. -/
def uriBytes (use : TagUse) (start : Place) :
    Nat → List Nat → Cursor → Except Failure ((List Nat) × Cursor)
  | 0, bytes, c => .ok (bytes, c)
  | fuel + 1, bytes, c =>
    if c.peek = '%' then
      let c := c.next
      if ¬ isHex c.peek then c.fail (some use.context) (some start) (.notUriEscape c.peek)
      else if ¬ isHex (c.peekAt 1) then c.fail (some use.context) (some start)
        (.notUriEscape (c.peekAt 1))
      else uriBytes use start fuel (bytes ++ [hexNumber (c.rest.take 2)]) (c.skip 2)
    else .ok (bytes, c)

/-- The rest of the suffix of a tag. -/
def uriFrom (use : TagUse) (start : Place) : Nat → Text → Cursor → Except Failure (Text × Cursor)
  | 0, text, c => .ok (text, c)
  | fuel + 1, text, c =>
    let (run, c) := c.span fun d _ => isUriChar d && d ≠ '%'
    let text := text ++ run
    if c.peek = '%' then do
      let (bytes, after) ← uriBytes use start c.bound [] c
      match decodeBytes (bytes.length + 1) 0 bytes with
      | .ok part => uriFrom use start fuel (text ++ part) after
      | .error reason => c.fail (some use.context) (some start) (.notUriText reason)
    else .ok (text, c)

/-- The suffix of a tag. -/
def tagUri (use : TagUse) (start : Place) (c : Cursor) : Except Failure (Text × Cursor) :=
  if isUriChar c.peek then uriFrom use start c.bound [] c
  else c.fail (some use.partContext) (some start) (.notUri c.peek)

/-- A second exclamation mark stands before the end of the tag. -/
def hasHandle (c : Cursor) : Bool := ((c.rest.drop 1).takeWhile fun d => !endsField d).contains '!'

/-- A tag from its exclamation mark on: its handle, if it has one, and its suffix. -/
def tag (c : Cursor) : Except Failure ((Option Text × Text) × Cursor) := do
  let start := c.place
  let (content, c) ←
    if c.peekAt 1 = '<' then do
      let (suffix, c) ← tagUri .node start (c.skip 2)
      if c.peek = '>' then pure ((none, suffix), c.next)
      else c.fail (some .tagPart) (some start) (.notTagEnd c.peek)
    else if endsWord (c.peekAt 1) then pure ((none, ['!']), c.next)
    else do
      let (handle, c) ← if hasHandle c then tagHandle .node start c else pure (['!'], c.next)
      let (suffix, c) ← tagUri .node start c
      pure ((some handle, suffix), c)
  if endsField c.peek then return (content, c)
  else c.fail (some .tag) (some start) (.notSpace c.peek)

/-! ## Directives -/

/-- A number of a version. -/
def versionNumber (start : Place) (c : Cursor) : Except Failure (Nat × Cursor) :=
  let (digits, after) := c.span fun d _ => d.isDigit
  if digits.isEmpty then c.fail (some .directive) (some start) (.notDigit c.peek)
  else .ok (digits.foldl (fun n d => 10 * n + (d.toNat - '0'.toNat)) 0, after)

/-- The version of a text. -/
def version (start : Place) (c : Cursor) : Except Failure (Directive × Cursor) := do
  let (major, c) ← versionNumber start c.skipSpaces
  if c.peek ≠ '.' then c.fail (some .directive) (some start) (.notDigitOrPoint c.peek)
  else
    let (minor, c) ← versionNumber start c.next
    if endsField c.peek then return (.version major minor, c)
    else c.fail (some .directive) (some start) (.notDigitOrSpace c.peek)

/-- A tag handle and what it stands for. -/
def handleDirective (start : Place) (c : Cursor) : Except Failure (Directive × Cursor) := do
  let (handle, c) ← tagHandle .directive start c.skipSpaces
  if c.peek ≠ ' ' then c.fail (some .directive) (some start) (.notSpace c.peek)
  else
    let (uri, c) ← tagUri .directive start c.skipSpaces
    if endsField c.peek then return (.handle handle uri, c)
    else c.fail (some .directive) (some start) (.notSpace c.peek)

/-- A directive from its percent sign on, with the rest of its line; the place is where it ends. -/
def directive (c : Cursor) : Except Failure ((Directive × Place) × Cursor) := do
  let start := c.place
  let c := c.next
  let (name, after) := c.span fun d _ => isNameChar d
  if name.isEmpty then c.fail (some .directive) (some start) (.notName c.peek)
  else if ¬ endsField after.peek then
    after.fail (some .directive) (some start) (.notName after.peek)
  else
    let (d, c) ←
      if name = "YAML".toList then version start after
      else if name = "TAG".toList then handleDirective start after
      else pure (.other name, after)
    let last := c.place
    let c := match d with
      | .other _ => c.skipWhile fun d => !endsLine d
      | _ => c
    let c ← ignoredLine .directive start c
    return ((d, last), c)

end ScriptLint.Yaml
