import ScriptLint.Text.Case

/-!
# Document trees

A script is a tree of maps, lists and scalars, each with the line it starts on. The entries of a
map keep the order in which their keys came first: a repeated key keeps its place and its line, and
takes the later node (`Entries.insert`). Trees that come from elsewhere may hold values of other
kinds, which every check refuses; they are `foreign` nodes, known by the name of their kind.
-/

namespace ScriptLint

/-- A text and the line it comes from. -/
structure Tracked where
  text : Text
  line : Int := -1
deriving DecidableEq, Inhabited, Repr

/-- A node of a document tree. -/
inductive Node where
  | scalar (value : Tracked)
  | list (items : List Node) (line : Int)
  | map (entries : List (Tracked × Node)) (line : Int)
  /-- A value that is no part of a script. -/
  | foreign (kind : String)
deriving Inhabited, Repr

/-- The entries of a map in order. -/
abbrev Entries := List (Tracked × Node)

/-- What a node is called in messages. -/
def Node.kindName : Node → String
  | .scalar _ => "ScalarNode"
  | .list _ _ => "ListNode"
  | .map _ _ => "MapNode"
  | .foreign kind => kind

namespace Entries

/-- The node takes the place of the key's node, or comes last with its key. -/
def insert (key : Tracked) (node : Node) : Entries → Entries
  | [] => [(key, node)]
  | (k, n) :: rest =>
    if k.text = key.text then (k, node) :: rest else (k, n) :: insert key node rest

/-- The node of a key. -/
def get? (key : Text) : Entries → Option Node
  | [] => none
  | (k, n) :: rest => if k.text = key then some n else get? key rest

/-- The map has the key. -/
def hasKey (key : Text) (entries : Entries) : Bool := entries.any fun e => e.1.text = key

/-- The first entry whose key is `name` in lower case. -/
def find? (name : Text) (entries : Entries) : Option (Tracked × Node) :=
  List.find? (fun e => Text.lower e.1.text = name) entries

/-- The map that entries give when they are set one after the other. -/
def ofList (entries : List (Tracked × Node)) : Entries :=
  entries.foldl (fun m e => insert e.1 e.2 m) []

end Entries

end ScriptLint
