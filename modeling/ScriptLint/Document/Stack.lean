import ScriptLint.Document.Node

/-!
# Open collections

While a tree is built, the collections that may still grow form a stack, innermost first. Each
frame knows the key that owns it, so closing a frame puts the finished collection into the one
below it: into a map under that key, into a list as a map of that one key (`Block.attach`). The
bottom frame is the map of the whole document and is never closed.
-/

namespace ScriptLint.Document

/-- The content of an open collection. -/
inductive Block where
  | list (items : List Node)
  | map (entries : Entries)
deriving Repr

namespace Block

/-- The collection is a list. -/
def isList : Block → Bool
  | .list _ => true
  | .map _ => false

/-- The collection as a node. -/
def toNode (line : Int) : Block → Node
  | .list items => .list items line
  | .map entries => .map entries line

/-- The collection with a node under a key; a list holds the key as a map of its own. -/
def attach (key : Tracked) (node : Node) : Block → Block
  | .list items => .list (items ++ [.map [(key, node)] key.line])
  | .map entries => .map (entries.insert key node)

/-- The collection is a map that has the key already. -/
def repeats (key : Tracked) : Block → Bool
  | .list _ => false
  | .map entries => entries.hasKey key.text

/-- The last entry of the list opened a map on its own line. -/
def continuesInline : Block → Bool
  | .list items =>
    match items.getLast? with
    | some (.scalar value) => Text.holds [':', ' '] value.text
    | _ => false
  | .map _ => false

end Block

/-- An open collection: the width of its entries, the line it was opened on and the key that owns
it. -/
structure Frame where
  width : Int
  line : Int
  key : Tracked
  block : Block
deriving Repr

/-- The frame after a collection that it owns is closed. -/
def Frame.adopt (owner closed : Frame) : Frame :=
  { owner with block := owner.block.attach closed.key (closed.block.toNode closed.line) }

/-- The open collections: the innermost one and those below it. -/
structure Stack where
  top : Frame
  below : List Frame
deriving Repr

namespace Stack

/-- Only the document is open. -/
def new : Stack := ⟨⟨0, -1, ⟨[], -1⟩, .map []⟩, []⟩

/-- All frames, innermost first. -/
def frames (s : Stack) : List Frame := s.top :: s.below

/-- A new innermost collection. -/
def push (f : Frame) (s : Stack) : Stack := ⟨f, s.frames⟩

/-- The stack with another content of the innermost collection. -/
def withBlock (block : Block) (s : Stack) : Stack := { s with top := { s.top with block } }

/-- Closes collections from the innermost on while they satisfy `p`; the bottom one stays open. -/
def closeFrom (p : Frame → Bool) : Frame → List Frame → Stack
  | top, [] => ⟨top, []⟩
  | top, owner :: rest =>
    if p top then closeFrom p (owner.adopt top) rest else ⟨top, owner :: rest⟩

/-- Closes the collections that are wider than `width`. -/
def unwind (width : Int) (s : Stack) : Stack := closeFrom (fun f => width < f.width) s.top s.below

/-- Closes the lists at `width`, so that a key line reaches the map that owns them. -/
def closeLists (width : Int) (s : Stack) : Stack :=
  closeFrom (fun f => f.block.isList && f.width = width) s.top s.below

/-- Closes every collection and gives the content of the document. -/
def finish (s : Stack) : Block := (closeFrom (fun _ => true) s.top s.below).top.block

/-- The widths of the open collections in ascending order, each once. -/
def widths (s : Stack) : List Int :=
  ((s.frames.map (·.width)).eraseDups).mergeSort (fun a b => a ≤ b)

end Stack

end ScriptLint.Document
