import ScriptLint.Document.Line
import ScriptLint.Document.Stack
import ScriptLint.Issue

/-!
# Building the document tree

The tree of a script is built line by line from the widths and texts of its content lines. The
builder holds the open collections, a key whose collection has not begun, the width of the line
before, and, after a line that could not be placed, the width below which lines belong to it. It
never fails: a line that fits nowhere is reported and left out with all that is nested under it.
Only the reading of the lines may fail (`read`).

A line goes through three moves: it decides what the waiting key owns (`settle`), it closes the
collections it is outside of, and it is placed into the innermost one (`place`).
-/

namespace ScriptLint.Document

/-- A key line whose collection has not begun. -/
structure Waiting where
  key : Tracked
  width : Int
deriving Repr

/-- The builder between two lines. -/
structure Builder where
  stack : Stack := Stack.new
  waiting : Option Waiting := none
  previous : Int := 0
  /-- Lines wider than this belong to a line that was left out. -/
  skipped : Option Int := none
deriving Repr

/-- The report on a key that its map has already. -/
def repeatLog (block : Block) (key : Tracked) : Log :=
  if block.repeats key then [(Issue.repeatedKey key.text).onLine key.line] else []

namespace Waiting

/-- The line begins the collection of the key: it is deeper, or it is an entry of a list at the
width of a key that is no entry itself. -/
def opens (w : Waiting) (parent : Block) (line : Line) : Bool :=
  w.width < line.width || (line.isItem && !parent.isList && w.width = line.width)

end Waiting

/-- Gives a waiting key its collection: the one that the line begins, or an empty map. -/
def settle (stack : Stack) (w : Waiting) (line : Line) : Stack :=
  if w.opens stack.top.block line then
    stack.push ⟨line.width, line.number, w.key, if line.isItem then .list [] else .map []⟩
  else stack.withBlock (stack.top.block.attach w.key (.map [] w.key.line))

/-- The width that skips a line: all that is wider than the line left out. -/
def Builder.skips (b : Builder) (line : Line) : Bool :=
  match b.skipped with
  | some width => width < line.width
  | none => false

/-- Places an entry of a list. `grown` says that the line is deeper than the one before without
having begun a collection. -/
def placeItem (stack : Stack) (grown : Bool) (line : Line) : Builder × Log :=
  let base : Builder := { stack, previous := line.width }
  match stack.top.block with
  | .map _ => (base, [Issue.orphanEntry.onLine line.number])
  | .list items =>
    let log := if grown then [Issue.grownSpacing.onLine line.number] else []
    let text := line.itemText
    if Text.endsWith [':'] text then
      ({ base with waiting := some ⟨⟨Text.trim text.dropLast, line.number⟩, line.width⟩ }, log)
    else
      ({ base with stack := stack.withBlock (.list (items ++ [.scalar ⟨text, line.number⟩])) },
        log)

/-- The key and the value of a line, around its first colon before a space. -/
def splitInline : Text → Option (Text × Text)
  | [] => none
  | ':' :: ' ' :: r => some ([], r)
  | c :: r => (splitInline r).map fun (key, value) => (c :: key, value)

/-- Places a key line. -/
def placeKey (stack : Stack) (line : Line) : Builder × Log :=
  let stack := stack.closeLists line.width
  let base : Builder := { stack, previous := line.width }
  match stack.top.block with
  | .list _ =>
    ({ base with skipped := some line.width },
      if stack.top.block.continuesInline then [] else [Issue.orphanKey.onLine line.number])
  | .map entries =>
    if Text.endsWith [':'] line.text then
      ({ base with waiting := some ⟨⟨Text.trim line.text.dropLast, line.number⟩, line.width⟩ }, [])
    else
      match splitInline line.text with
      | none => (base, [])
      | some (key, value) =>
        let key : Tracked := ⟨Text.trim key, line.number⟩
        let node : Node := .scalar ⟨Text.trim value, line.number⟩
        ({ base with stack := stack.withBlock (.map (entries.insert key node)) },
          repeatLog (.map entries) key)

/-- Places a line into the innermost collection. -/
def place (stack : Stack) (grown : Bool) (line : Line) : Builder × Log :=
  if line.isItem then placeItem stack grown line else placeKey stack line

namespace Builder

/-- The line begins the collection of the waiting key. -/
def opens (b : Builder) (line : Line) : Bool :=
  match b.waiting with
  | some w => w.opens b.stack.top.block line
  | none => false

/-- The stack after the waiting key got its collection. -/
def settled (b : Builder) (line : Line) : Stack :=
  match b.waiting with
  | some w => settle b.stack w line
  | none => b.stack

/-- The report on the waiting key. -/
def waitingLog (b : Builder) : Log :=
  match b.waiting with
  | some w => repeatLog b.stack.top.block w.key
  | none => []

/-- The builder after one more line, and what the line gave rise to. -/
def step (b : Builder) (line : Line) : Builder × Log :=
  if b.skips line then (b, [])
  else
    let settled := b.settled line
    let stack := if line.width < b.previous then settled.unwind line.width else settled
    if line.width < b.previous ∧ stack.top.width ≠ line.width then
      ({ stack, previous := line.width, skipped := some line.width },
        b.waitingLog ++
          [(Issue.shrunkSpacing b.previous line.width stack.widths).onLine line.number])
    else
      let (b', log) := place stack (b.previous < line.width && !b.opens line) line
      (b', b.waitingLog ++ log)

/-- The builder after several lines. -/
def run (b : Builder) : List Line → Builder × Log
  | [] => (b, [])
  | line :: rest =>
    let (b₁, log₁) := b.step line
    let (b₂, log₂) := b₁.run rest
    (b₂, log₁ ++ log₂)

/-- The content of the document after the last line. -/
def finish (b : Builder) : Entries :=
  let stack :=
    match b.waiting with
    | some w => b.stack.withBlock (b.stack.top.block.attach w.key (.map [] w.key.line))
    | none => b.stack
  match stack.finish with
  | .map entries => entries
  | .list _ => []

end Builder

/-- The tree that content lines form. -/
def ofLines (lines : List Line) : Entries × Log :=
  let (b, log) := Builder.run {} lines
  (b.finish, log ++ b.waitingLog)

/-- The tree of a script. -/
def ofSource (tab : Int) (source : Source) : Entries × Log := ofLines (lines tab source)

/-- Reads the tree of a script. All lines are measured with the same tab, so if one fails, the
first content line does, before anything is built or reported. -/
def read (tab : Int) (source : Source) : Except Fault (Entries × Log) := do
  return ofLines (← readLines tab source)

end ScriptLint.Document
