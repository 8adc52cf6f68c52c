import ScriptLint.Yaml.Node
import ScriptLint.Yaml.Token.Lexer

/-!
# The node of a YAML text

Nodes are read from tokens by recursive descent. A token is looked at only when it is needed, so a
failure that ends the tokens comes up after everything that could be read before it. An anchor
names its node from the moment the node begins: a reference inside of the node finds that it is
inside.

The loops take fuel. A round reads a token or goes one level down before it reads one, so the fuel
of `document` is more than enough for the tokens of a text.
-/

namespace ScriptLint.Yaml

/-- What is left to read, and what names stand for. -/
structure Input where
  tokens : List Token
  /-- What comes after the last token. -/
  failure : Option Failure
  handles : List (Text × Text) := []
  anchors : List (Text × Node) := []

/-- Reads from an input. -/
abbrev Read (α : Type) := StateT Input (Except Failure) α

namespace Read

/-- The next token, or the failure in its place. -/
def peek : Read Token := do
  let s ← get
  match s.tokens with
  | t :: _ => return t
  | [] =>
    match s.failure with
    | some e => throw e
    | none => return ⟨.streamEnd, {}, {}⟩

/-- The next token, which is read. -/
def next : Read Token := do
  let t ← peek
  modify fun s => { s with tokens := s.tokens.tail }
  return t

/-- The next token is of one of the given kinds. -/
def sees (p : TokenKind → Bool) : Read Bool := return p (← peek).kind

/-- Stops with a problem. -/
def fail {α : Type} (phase : Phase) (context : Option Context) (since : Option Place)
    (problem : Problem) (place : Place) : Read α :=
  throw (.error { phase, context, since, problem, place })

end Read

open Read

/-- The content of a node that has none. -/
def emptyNode (place : Place) : Node := .scalar .null [] place

/-! ## Anchors and tags -/

/-- The node that a reference stands for. -/
def resolve (name : Text) (place : Place) : Read Node := do
  match (← get).anchors.lookup name with
  | some node => return node
  | none => fail .anchors none none (.unknownAnchor name) place

/-- Refuses a name that another node has already. -/
def checkAnchor (name : Option Text) (place : Place) : Read Unit := do
  if let some n := name then
    if let some first := (← get).anchors.lookup n then
      fail .anchors (some (.firstAnchor n)) (some first.place) .secondAnchor place

/-- Gives a node its name. -/
def bindAnchor (name : Option Text) (node : Node) : Read Unit :=
  match name with
  | some n => modify fun s => { s with anchors := (n, node) :: s.anchors }
  | none => pure ()

/-- What stands in front of a node. -/
structure Properties where
  anchor : Option Text := none
  tag : Option (Option Text × Text × Place) := none
  first : Option Place := none

/-- Reads an anchor and a tag, in any order. -/
def properties : Read Properties := do
  let t ← peek
  match t.kind with
  | .anchor name =>
    let _ ← next
    let u ← peek
    match u.kind with
    | .tag handle suffix =>
      let _ ← next
      return { anchor := some name, tag := some (handle, suffix, u.first), first := some t.first }
    | _ => return { anchor := some name, first := some t.first }
  | .tag handle suffix =>
    let _ ← next
    let u ← peek
    match u.kind with
    | .anchor name =>
      let _ ← next
      return { anchor := some name, tag := some (handle, suffix, t.first), first := some t.first }
    | _ => return { tag := some (handle, suffix, t.first), first := some t.first }
  | _ => return {}

/-- The full name of a tag; a single exclamation mark is no name. -/
def tagName (p : Properties) : Read (Option Text) := do
  match p.tag with
  | none => return none
  | some (handle, suffix, place) =>
    let name ← match handle with
      | none => pure suffix
      | some h =>
        match (← get).handles.lookup h with
        | some start => pure (start ++ suffix)
        | none => fail .nodes (some .node) p.first (.unknownHandle h) place
    return some name

/-- The tag of a collection. -/
def collectionTag (name : Option Text) (usual : Tag) : Tag :=
  match name with
  | none => usual
  | some n => if n = ['!'] then usual else .ofName n

/-- The tag of a scalar. -/
def scalarTag (name : Option Text) (text : Text) (plain : Bool) : Tag :=
  match name with
  | none => if plain then .ofPlain text else .str
  | some n => if n = ['!'] then .ofPlain text else .ofName n

/-! ## Nodes -/

mutual

/-- A node. A sequence of entries without an indentation of its own is a node after a key or a
colon (`entries`). -/
def node : Nat → Bool → Bool → Read Node
  | 0, _, _ => return emptyNode {}
  | fuel + 1, block, entries => do
    let t ← peek
    if let .reference name := t.kind then
      let _ ← next
      resolve name t.first
    else
      let p ← properties
      let name ← tagName p
      let t ← peek
      let first := p.first.getD t.first
      let sequence (read : Read (List Node)) : Read Node := do
        checkAnchor p.anchor first
        bindAnchor p.anchor (.enclosing false first)
        let node := Node.sequence (collectionTag name .seq) (← read) first
        bindAnchor p.anchor node
        return node
      let mapping (read : Read (List (Node × Node))) : Read Node := do
        checkAnchor p.anchor first
        bindAnchor p.anchor (.enclosing true first)
        let node := Node.mapping (collectionTag name .map) (← read) first
        bindAnchor p.anchor node
        return node
      let scalar (text : Text) (plain : Bool) : Read Node := do
        checkAnchor p.anchor first
        let node := Node.scalar (scalarTag name text plain) text first
        bindAnchor p.anchor node
        return node
      match t.kind with
      | .scalar text plain => do
        let _ ← next
        scalar text plain
      | .flowSequenceStart => sequence do
        let _ ← next
        flowSequence fuel t.first true
      | .flowMappingStart => mapping do
        let _ ← next
        flowMapping fuel t.first true
      | kind =>
        if kind = .blockEntry ∧ entries then sequence (entrySequence fuel)
        else if kind = .blockSequenceStart ∧ block then sequence do
          let _ ← next
          blockSequence fuel t.first
        else if kind = .blockMappingStart ∧ block then mapping do
          let _ ← next
          blockMapping fuel t.first
        else if p.anchor.isSome ∨ p.tag.isSome then scalar [] true
        else
          fail .nodes (some (if block then .blockNode else .flowNode)) (some first)
            (.noContent kind.name) t.first

/-- The entries of a sequence with an indentation of its own. -/
def blockSequence : Nat → Place → Read (List Node)
  | 0, _ => return []
  | fuel + 1, start => do
    let t ← next
    match t.kind with
    | .blockEntry =>
      let item ←
        if ← sees fun k => k = .blockEntry || k = .blockEnd then pure (emptyNode t.last)
        else node fuel true false
      return item :: (← blockSequence fuel start)
    | .blockEnd => return []
    | kind => fail .nodes (some .blockCollection) (some start) (.notBlockEnd kind.name) t.first

/-- The entries of a sequence at the indentation of its key. -/
def entrySequence : Nat → Read (List Node)
  | 0 => return []
  | fuel + 1 => do
    let t ← peek
    if t.kind = .blockEntry then
      let _ ← next
      let item ←
        if ← sees fun k => k = .blockEntry || k = .key || k = .value || k = .blockEnd then
          pure (emptyNode t.last)
        else node fuel true false
      return item :: (← entrySequence fuel)
    else return []

/-- The entries of a mapping in a block. -/
def blockMapping : Nat → Place → Read (List (Node × Node))
  | 0, _ => return []
  | fuel + 1, start => do
    let content (t : Token) : Read Node := do
      if ← sees fun k => k = .key || k = .value || k = .blockEnd then pure (emptyNode t.last)
      else node fuel true true
    let t ← next
    match t.kind with
    | .key =>
      let key ← content t
      let v ← peek
      let value ←
        if v.kind = .value then
          let _ ← next
          content v
        else pure (emptyNode v.first)
      return (key, value) :: (← blockMapping fuel start)
    | .blockEnd => return []
    | kind => fail .nodes (some .blockMapping) (some start) (.notBlockEnd kind.name) t.first

/-- The value of a pair inside of brackets, whose content may end with `closing`. -/
def flowValue : Nat → TokenKind → Read Node
  | 0, _ => return emptyNode {}
  | fuel + 1, closing => do
    let v ← peek
    if v.kind = .value then
      let _ ← next
      if ← sees fun k => k = .flowEntry || k = closing then pure (emptyNode v.last)
      else node fuel false false
    else return emptyNode v.first

/-- The items of a sequence in brackets. -/
def flowSequence : Nat → Place → Bool → Read (List Node)
  | 0, _, _ => return []
  | fuel + 1, start, isFirst => do
    let t ← peek
    if t.kind = .flowSequenceEnd then
      let _ ← next
      return []
    else
      if ¬ isFirst then
        if t.kind = .flowEntry then
          let _ ← next
        else fail .nodes (some .flowSequence) (some start) (.notSequenceEnd t.kind.name) t.first
      let t ← peek
      if t.kind = .flowSequenceEnd then
        let _ ← next
        return []
      else if t.kind = .key then
        let _ ← next
        let key ←
          if ← sees fun k => k = .value || k = .flowEntry || k = .flowSequenceEnd then
            pure (emptyNode t.last)
          else node fuel false false
        let value ← flowValue fuel .flowSequenceEnd
        return .mapping .map [(key, value)] t.first :: (← flowSequence fuel start false)
      else
        let item ← node fuel false false
        return item :: (← flowSequence fuel start false)

/-- The entries of a mapping in braces. -/
def flowMapping : Nat → Place → Bool → Read (List (Node × Node))
  | 0, _, _ => return []
  | fuel + 1, start, isFirst => do
    let t ← peek
    if t.kind = .flowMappingEnd then
      let _ ← next
      return []
    else
      if ¬ isFirst then
        if t.kind = .flowEntry then
          let _ ← next
        else fail .nodes (some .flowMapping) (some start) (.notMappingEnd t.kind.name) t.first
      let t ← peek
      if t.kind = .flowMappingEnd then
        let _ ← next
        return []
      else if t.kind = .key then
        let _ ← next
        let key ←
          if ← sees fun k => k = .value || k = .flowEntry || k = .flowMappingEnd then
            pure (emptyNode t.last)
          else node fuel false false
        let value ← flowValue fuel .flowMappingEnd
        return (key, value) :: (← flowMapping fuel start false)
      else
        let key ← node fuel false false
        let after ← peek
        return (key, emptyNode after.first) :: (← flowMapping fuel start false)

end

/-! ## Documents -/

/-- The handles that every document knows. -/
def usualHandles : List (Text × Text) := [(['!'], ['!']), (['!', '!'], Tag.standardStart)]

/-- Reads the directives of a document: its version may be given once, and each handle once. -/
def directives : Nat → Bool → List (Text × Text) → Read (List (Text × Text))
  | 0, _, handles => return handles
  | fuel + 1, versioned, handles => do
    let t ← peek
    match t.kind with
    | .directive d =>
      let _ ← next
      match d with
      | .version major _ =>
        if versioned then fail .nodes none none .repeatedVersion t.first
        else if major ≠ 1 then fail .nodes none none .foreignVersion t.first
        else directives fuel true handles
      | .handle name start =>
        if (handles.lookup name).isSome then fail .nodes none none (.repeatedHandle name) t.first
        else directives fuel versioned ((name, start) :: handles)
      | .other _ => directives fuel versioned handles
    | _ => return handles

/-- Reads the marks of ends of documents. -/
def skipDocumentEnds : Nat → Read Unit
  | 0 => return
  | fuel + 1 => do
    if ← sees (· = .documentEnd) then
      let _ ← next
      skipDocumentEnds fuel

/-- Reads the directives and the mark of a document. -/
def documentStart (fuel : Nat) : Read Unit := do
  let handles ← directives fuel false []
  let t ← peek
  if t.kind = .documentStart then
    let _ ← next
    modify fun s => { s with handles := handles ++ usualHandles }
  else fail .nodes none none (.notDocumentStart t.kind.name) t.first

/-- The token is a directive. -/
def TokenKind.isDirective : TokenKind → Bool
  | .directive _ => true
  | _ => false

/-- The content of the first document of a text. -/
def firstDocument (fuel : Nat) : Read Node := do
  if ← sees fun k => k.isDirective || k = .documentStart then
    documentStart fuel
    let t ← peek
    if t.kind.isDirective || t.kind = .documentStart || t.kind = .documentEnd ||
      t.kind = .streamEnd then
      return emptyNode t.first
    else node fuel true false
  else
    modify fun s => { s with handles := usualHandles }
    node fuel true false

/-- The only document of a text, if it has one. -/
def document (fuel : Nat) : Read (Option Node) := do
  if ← sees (· = .streamEnd) then return none
  else
    let root ← firstDocument fuel
    skipDocumentEnds fuel
    let t ← peek
    if t.kind = .streamEnd then return some root
    else
      documentStart fuel
      fail .anchors (some .singleDocument) (some root.place) .secondDocument t.first

/-- The node of a text, if it holds one. -/
def Node.ofText? (t : Text) : Except Failure (Option Node) :=
  let (tokens, failure) := tokens t
  (document (3 * tokens.length + 10)).run' { tokens, failure }

end ScriptLint.Yaml
