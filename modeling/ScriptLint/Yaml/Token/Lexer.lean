import ScriptLint.Yaml.Token.Property

/-!
# The tokens of a YAML text

Whether a scalar is a key is known only when a colon follows it on its line. Until then the tokens
from the scalar on wait in a queue, and the lexer remembers where a key token may have to be put in
(`PossibleKey`). A token is handed out only when no such place is left at its position, and it is
never changed afterwards. So the tokens that come before a failure are exactly those that could be
decided without reading up to it (`tokens`).

Outside of brackets, the columns at which collections begin are kept; a line that is further to the
left ends the collections it is outside of.
-/

namespace ScriptLint.Yaml

/-- A place where a key may begin: the number of the token, and whether there has to be a key. -/
structure PossibleKey where
  number : Nat
  required : Bool
  place : Place
deriving Repr

/-- The lexer between two tokens. -/
structure Lexer where
  cursor : Cursor
  /-- Tokens that are not handed out yet. -/
  queue : List Token := []
  /-- How many tokens are handed out. -/
  taken : Nat := 0
  /-- How many brackets are open. -/
  flow : Nat := 0
  /-- The column of the innermost block collection. -/
  indent : Int := -1
  /-- The columns of the collections around it, innermost first. -/
  indents : List Int := []
  /-- A key may begin at the cursor. -/
  keyAllowed : Bool := true
  /-- The possible keys by the number of open brackets. -/
  keys : List (Nat × PossibleKey) := []
  finished : Bool := false
deriving Repr

namespace Lexer

/-- The lexer with one more token in its queue. -/
def push (l : Lexer) (kind : TokenKind) (first last : Place) : Lexer :=
  { l with queue := l.queue ++ [⟨kind, first, last⟩] }

/-- Adds a token without extent. -/
def mark (l : Lexer) (kind : TokenKind) : Lexer := l.push kind l.cursor.place l.cursor.place

/-- Adds a token for the next `n` characters. -/
def take (l : Lexer) (kind : TokenKind) (n : Nat) : Lexer :=
  let after := l.cursor.skip n
  { l.push kind l.cursor.place after.place with cursor := after }

/-- The failure of a key that had to be there. -/
def missingKey {α : Type} (l : Lexer) (key : PossibleKey) : Except Failure α :=
  l.cursor.fail (some .simpleKey) (some key.place) .noColon

/-! ## Possible keys -/

/-- The possible key is out of reach: it is on an earlier line, or too far away. -/
def isStale (l : Lexer) (key : PossibleKey) : Bool :=
  key.place.line ≠ l.cursor.place.line || key.place.index + 1024 < l.cursor.place.index

/-- Gives up the possible keys that are out of reach. -/
def dropStale (l : Lexer) : Except Failure Lexer :=
  match l.keys.find? fun (_, key) => l.isStale key && key.required with
  | some (_, key) => l.missingKey key
  | none => .ok { l with keys := l.keys.filter fun (_, key) => !l.isStale key }

/-- Gives up the possible key at the current level. -/
def dropKey (l : Lexer) : Except Failure Lexer :=
  match l.keys.lookup l.flow with
  | some key =>
    if key.required then l.missingKey key
    else .ok { l with keys := l.keys.filter fun (level, _) => level ≠ l.flow }
  | none => .ok l

/-- Remembers that a key may begin here. -/
def saveKey (l : Lexer) : Except Failure Lexer :=
  if l.keyAllowed then do
    let required := l.flow = 0 ∧ l.indent = l.cursor.column
    let l ← l.dropKey
    return { l with keys := l.keys ++
      [(l.flow, ⟨l.taken + l.queue.length, required, l.cursor.place⟩)] }
  else .ok l

/-! ## Block collections -/

/-- Ends the block collections to the right of a column. -/
def endBlocks (column : Int) (place : Place) :
    Int → List Int → List Token → Int × List Int × List Token
  | indent, [], queue => (indent, [], queue)
  | indent, outer :: rest, queue =>
    if column < indent then endBlocks column place outer rest (queue ++
      [⟨.blockEnd, place, place⟩])
    else (indent, outer :: rest, queue)

/-- Ends the block collections to the right of a column; inside of brackets columns do not
matter. -/
def unwind (l : Lexer) (column : Int) : Lexer :=
  if l.flow = 0 then
    let (indent, indents, queue) := endBlocks column l.cursor.place l.indent l.indents l.queue
    { l with indent, indents, queue }
  else l

/-- The block collection that begins at a column is a new one. -/
def startsBlock (l : Lexer) (column : Nat) : Bool := l.indent < column

/-- Begins a block collection at a column, if it is a new one. -/
def indentTo (l : Lexer) (column : Nat) : Lexer :=
  if l.startsBlock column then { l with indent := column, indents := l.indent :: l.indents } else l

/-- Begins a block collection at the cursor, if it is a new one, with its token. -/
def startBlock (l : Lexer) (kind : TokenKind) : Lexer :=
  let new := l.startsBlock l.cursor.column
  let l := l.indentTo l.cursor.column
  if new then l.mark kind else l

/-! ## Tokens -/

/-- The cursor after blank lines, spaces and comments, and whether a line has ended. -/
def skipBlanks : Nat → Bool → Cursor → Bool × Cursor
  | 0, ended, c => (ended, c)
  | fuel + 1, ended, c =>
    let c := c.skipSpaces.skipComment
    let (b, after) := c.lineBreak
    if b.isEmpty then (ended, c) else skipBlanks fuel true after

/-- Goes on to the next token. Outside of brackets a new line may begin with a key. -/
def toNextToken (l : Lexer) : Lexer :=
  let c := if l.cursor.place.index = 0 ∧ l.cursor.peek = '\ufeff' then l.cursor.next else l.cursor
  let (ended, c) := skipBlanks c.bound false c
  { l with cursor := c, keyAllowed := l.keyAllowed || (ended && l.flow = 0) }

/-- Ends all block collections and forbids a key, as the marks of a document do. -/
def leaveBlocks (l : Lexer) : Except Failure Lexer := do
  let l ← (l.unwind (-1)).dropKey
  return { l with keyAllowed := false }

/-- The end of the text. -/
def streamEnd (l : Lexer) : Except Failure Lexer := do
  let l ← l.leaveBlocks
  return { l.mark .streamEnd with keys := [], finished := true }

/-- A line with a directive. -/
def directive (l : Lexer) : Except Failure Lexer := do
  let l ← l.leaveBlocks
  let ((d, last), c) ← Yaml.directive l.cursor
  return { l.push (.directive d) l.cursor.place last with cursor := c }

/-- The start or the end of a document. -/
def documentMark (l : Lexer) (kind : TokenKind) : Except Failure Lexer := do
  let l ← l.leaveBlocks
  return l.take kind 3

/-- An opening bracket. -/
def openFlow (l : Lexer) (kind : TokenKind) : Except Failure Lexer := do
  let l ← l.saveKey
  return { l with flow := l.flow + 1, keyAllowed := true }.take kind 1

/-- A closing bracket. -/
def closeFlow (l : Lexer) (kind : TokenKind) : Except Failure Lexer := do
  let l ← l.dropKey
  return { l with flow := l.flow - 1, keyAllowed := false }.take kind 1

/-- A comma between brackets. -/
def flowEntry (l : Lexer) : Except Failure Lexer := do
  let l ← { l with keyAllowed := true }.dropKey
  return l.take .flowEntry 1

/-- The hyphen of a sequence. -/
def blockEntry (l : Lexer) : Except Failure Lexer := do
  let l ←
    if l.flow = 0 then
      if l.keyAllowed then pure (l.startBlock .blockSequenceStart)
      else l.cursor.fail none none .entriesNotAllowed
    else pure l
  let l ← { l with keyAllowed := true }.dropKey
  return l.take .blockEntry 1

/-- The question mark of a key. -/
def key (l : Lexer) : Except Failure Lexer := do
  let l ←
    if l.flow = 0 then
      if l.keyAllowed then pure (l.startBlock .blockMappingStart)
      else l.cursor.fail none none .keysNotAllowed
    else pure l
  let l ← { l with keyAllowed := l.flow = 0 }.dropKey
  return l.take .key 1

/-- Puts the tokens of a key in front of where it begins. -/
def insertKey (l : Lexer) (key : PossibleKey) : Lexer :=
  let position := key.number - l.taken
  let start := l.flow = 0 && l.startsBlock key.place.column
  let l := if l.flow = 0 then l.indentTo key.place.column else l
  let tokens : List Token :=
    (if start then [⟨.blockMappingStart, key.place, key.place⟩] else []) ++
      [⟨.key, key.place, key.place⟩]
  { l with
    queue := l.queue.take position ++ tokens ++ l.queue.drop position
    keys := l.keys.filter fun (level, _) => level ≠ l.flow
    keyAllowed := false }

/-- The colon of a value. -/
def value (l : Lexer) : Except Failure Lexer := do
  let l ← match l.keys.lookup l.flow with
    | some key => pure (l.insertKey key)
    | none => do
      let l ←
        if l.flow = 0 then
          if l.keyAllowed then pure (l.startBlock .blockMappingStart)
          else l.cursor.fail none none .valuesNotAllowed
        else pure l
      { l with keyAllowed := l.flow = 0 }.dropKey
  return l.take .value 1

/-- A token that may be a key, with the cursor after it. -/
def keyToken (l : Lexer) (scan : Cursor → Except Failure (TokenKind × Cursor)) :
    Except Failure Lexer := do
  let l ← l.saveKey
  let (kind, c) ← scan l.cursor
  return { l.push kind l.cursor.place c.place with cursor := c, keyAllowed := false }

/-- A block scalar; a key may follow it. -/
def blockScalar (l : Lexer) (folded : Bool) : Except Failure Lexer := do
  let l ← { l with keyAllowed := true }.dropKey
  let ((text, last), c) ← Yaml.blockScalar folded l.indent l.cursor
  return { l.push (.scalar text false) l.cursor.place last with cursor := c }

/-- A plain scalar; a key may follow it if its line has ended. -/
def plainScalar (l : Lexer) : Except Failure Lexer := do
  let l ← l.saveKey
  let (s, c) := Yaml.plainScalar (l.flow ≠ 0) (l.indent + 1) l.cursor
  return { l.push (.scalar s.text true) l.cursor.place s.last with
    cursor := c, keyAllowed := s.lineEnded }

/-- The next character can begin a plain scalar. -/
def startsPlain (l : Lexer) : Bool :=
  let c := l.cursor.peek
  !(endsWord c || "-?:,[]\x7b\x7d#&*!|>'\"%@`".contains c) ||
    (!endsWord (l.cursor.peekAt 1) && (c = '-' || (l.flow = 0 && (c = '?' || c = ':'))))

/-- Reads one more token, or several that belong together. -/
def fetch (l : Lexer) : Except Failure Lexer := do
  let l ← l.toNextToken.dropStale
  let l := l.unwind l.cursor.column
  let c := l.cursor
  let inBlock : Bool := l.flow = 0
  let separated : Bool := endsWord (c.peekAt 1)
  let separator : Bool := c.column = 0 && c.atSeparator
  match c.peek with
  | '\x00' => l.streamEnd
  | '%' => if c.column = 0 then l.directive else c.fail (some .nextToken) none (.cannotStart '%')
  | '[' => l.openFlow .flowSequenceStart
  | '\x7b' => l.openFlow .flowMappingStart
  | ']' => l.closeFlow .flowSequenceEnd
  | '\x7d' => l.closeFlow .flowMappingEnd
  | ',' => l.flowEntry
  | '*' => l.keyToken fun c => do
    let (name, after) ← anchorName .reference c.place c.next
    return (.reference name, after)
  | '&' => l.keyToken fun c => do
    let (name, after) ← anchorName .anchor c.place c.next
    return (.anchor name, after)
  | '!' => l.keyToken fun c => do
    let ((handle, suffix), after) ← tag c
    return (.tag handle suffix, after)
  | '\x27' => l.keyToken fun c => do
    let (text, after) ← quotedScalar false c
    return (.scalar text false, after)
  | '\x22' => l.keyToken fun c => do
    let (text, after) ← quotedScalar true c
    return (.scalar text false, after)
  | d =>
    if d = '-' ∧ separator then l.documentMark .documentStart
    else if d = '.' ∧ separator then l.documentMark .documentEnd
    else if d = '-' ∧ separated then l.blockEntry
    else if d = '?' ∧ (¬ inBlock ∨ separated) then l.key
    else if d = ':' ∧ (¬ inBlock ∨ separated) then l.value
    else if d = '|' ∧ inBlock then l.blockScalar false
    else if d = '>' ∧ inBlock then l.blockScalar true
    else if l.startsPlain then l.plainScalar
    else c.fail (some .nextToken) none (.cannotStart d)

/-- The first token of the queue is not decided yet. -/
def isUndecided (l : Lexer) : Bool :=
  l.queue.isEmpty || l.keys.any fun (_, key) => key.number = l.taken

/-- The tokens that can be decided, and the failure that ended them, if there is one. A round reads
a character or hands out a token. -/
def tokensFrom : Nat → Lexer → List Token × Option Failure
  | 0, _ => ([], none)
  | fuel + 1, l =>
    match (if l.finished || l.queue.isEmpty then .ok l else l.dropStale) with
    | .error e => ([], some e)
    | .ok l =>
      if ¬ l.finished ∧ l.isUndecided then
        match l.fetch with
        | .error e => ([], some e)
        | .ok l => tokensFrom fuel l
      else
        match l.queue with
        | [] => ([], none)
        | t :: rest =>
          if t.kind = .streamEnd then ([t], none)
          else
            let (ts, failure) := tokensFrom fuel { l with queue := rest, taken := l.taken + 1 }
            (t :: ts, failure)

end Lexer

/-- The tokens of a text, up to the end of the text or to a failure. -/
def tokens (t : Text) : List Token × Option Failure :=
  Lexer.tokensFrom (8 * t.length + 16) { cursor := .ofText t }

end ScriptLint.Yaml
