import ScriptLint.Yaml.Node.Reader
import ScriptLint.Yaml.Scalar

/-!
# Loading YAML

The value of a text is built from its node (`load`). Scalars are built where they are met; the
content of a collection is built later, after all that was met before it. So of several failures
the one of least depth comes up, and of those of one depth the first. An attempt to build a node
therefore fails at once, or gives a value together with the first failure that is still to come, if
there is one, and how many rounds later that is (`Built`).

Before the entries of a mapping are built, the mappings under its merge keys are taken over: their
entries come first, so that the mapping's own entries replace them. All merge keys are checked
before anything is built (`mergeFault?`).
-/

namespace ScriptLint.Yaml

/-! ## Attempts -/

/-- A failure that comes up some rounds later. -/
structure Late where
  rounds : Nat
  failure : Failure

/-- The one of two failures that comes up first; in one round, the first of the two. -/
def Late.earlier (a b : Option Late) : Option Late :=
  match a, b with
  | none, b => b
  | a, none => a
  | some a, some b => if b.rounds < a.rounds then some b else some a

/-- A value, and the first failure in what is still to be built of it. -/
structure Built where
  value : Value
  late : Option Late := none

/-- An attempt to build a node. -/
abbrev Attempt := Except Failure Built

namespace Attempt

/-- The value of a node at a place, or the problem with it. -/
def ofProblem (place : Place) : Except Problem Value → Attempt
  | .ok v => .ok ⟨v, none⟩
  | .error problem => .error (.error { phase := .values, problem, place })

/-- A value, or why there is no such value. -/
def ofFault : Except ValueFault Value → Attempt
  | .ok v => .ok ⟨v, none⟩
  | .error fault => .error (.value fault)

/-- A problem with a node. -/
def wrong (place : Place) (problem : Problem) : Attempt :=
  .error (.error { phase := .values, problem, place })

/-- A collection, whose content is built one round later. -/
def postponed (empty : Value) : Attempt → Attempt
  | .ok b => .ok ⟨b.value, b.late.map fun l => ⟨l.rounds + 1, l.failure⟩⟩
  | .error failure => .ok ⟨empty, some ⟨1, failure⟩⟩

/-- Attempts in order, up to the first that fails. -/
def inOrder : List Attempt → Except Failure (List Value × Option Late)
  | [] => return ([], none)
  | attempt :: rest => do
    let b ← attempt
    let (vs, late) ← inOrder rest
    return (b.value :: vs, Late.earlier b.late late)

end Attempt

/-- An attempt to build an entry of a mapping. -/
structure EntryAttempt where
  keyPlace : Place
  key : Attempt
  value : Attempt

/-- The entries of the mapping at `place`, one after the other, added to those before. -/
def entriesInOrder (place : Place) (entries : List (Value × Value)) (late : Option Late) :
    List EntryAttempt → Except Failure (List (Value × Value) × Option Late)
  | [] => return (entries, late)
  | e :: rest => do
    let key ← e.key
    if ¬ key.value.isKey then
      throw (.error {
        phase := .values, context := some .mapping, since := some place, problem := .unusableKey
        place := e.keyPlace })
    let value ← e.value
    entriesInOrder place (Value.insertEntry key.value value.value entries)
      (Late.earlier late (Late.earlier key.late value.late)) rest

/-- A pair of a list of pairs, or why there is none. -/
abbrev PairAttempt := Except Failure (Attempt × Attempt)

/-- Pairs in order, up to the first that fails. -/
def pairsInOrder : List PairAttempt → Except Failure (List Value × Option Late)
  | [] => return ([], none)
  | pair :: rest => do
    let (key, value) ← pair
    let key ← key
    let value ← value
    let (vs, late) ← pairsInOrder rest
    return (.tuple [key.value, value.value] :: vs,
      Late.earlier (Late.earlier key.late value.late) late)

/-! ## Merge keys -/

/-- The failure of a merge key of the mapping at `owner`. -/
def mergeFailure (owner : Place) (problem : Problem) (node : Node) : Failure :=
  .error { phase := .values, context := some .mapping, since := some owner, problem
           place := node.place }

mutual

/-- The first merge key of the mapping at `owner` that cannot be followed. -/
def mergeFault? (owner : Place) : List (Node × Node) → Option Failure
  | [] => none
  | (key, value) :: rest =>
    (if key.tag = .merge then mergeFaultOf? owner value else none).or (mergeFault? owner rest)

/-- Why a node cannot be merged into the mapping at `owner`: it is no mapping and no list of
them. -/
def mergeFaultOf? (owner : Place) : Node → Option Failure
  | .mapping _ entries place => mergeFault? place entries
  | .sequence _ items _ => mergeFaultIn? owner items
  | .enclosing _ _ => none
  | node@(.scalar ..) => some (mergeFailure owner (.mergeValue node.kindName) node)

/-- The first item of a list that cannot be merged into the mapping at `owner`. -/
def mergeFaultIn? (owner : Place) : List Node → Option Failure
  | [] => none
  | node :: rest =>
    (match node with
      | .mapping _ entries place => mergeFault? place entries
      | .enclosing true _ => none
      | node =>
        some (mergeFailure owner (.mergeItem node.kindName) node)).or (mergeFaultIn? owner rest)

end

/-! ## Nodes -/

/-- The text of a node that stands for a scalar: a mapping with a default value stands for that
value. -/
def scalarText (node : Node) : Except Failure Text :=
  match node with
  | .scalar _ text _ => return text
  | .mapping _ entries place => ofEntries place entries
  | node => throw (.error {
      phase := .values, problem := .wrongNode "scalar" node.kindName, place := node.place })
where
  /-- The text of the default value. -/
  ofEntries (place : Place) : List (Node × Node) → Except Failure Text
    | [] => throw (.error { phase := .values, problem := .wrongNode "scalar" "mapping", place })
    | (key, value) :: rest => if key.tag = .default then scalarText value else ofEntries place rest

/-- The value of a node that stands for a scalar. -/
def buildScalar (tag : Tag) (place : Place) (text : Except Failure Text) : Attempt := do
  let text ← text
  match tag with
  | .null => return ⟨.null, none⟩
  | .bool => Attempt.ofFault ((truthOf text).map .bool)
  | .int => Attempt.ofFault ((wholeOf text).map .int)
  | .float => Attempt.ofFault ((decimalOf text).map .float)
  | .binary => Attempt.ofProblem place ((bytesOf text).map .bytes)
  | .timestamp => Attempt.ofFault ((momentOf text).map .moment)
  | _ => return ⟨.text text, none⟩

/-- What a node of each sort gives, when it is asked for: its text, its items, its pairs and its
entries. -/
structure Content where
  text : Except Failure Text
  items : Attempt
  pairs : Context → Attempt
  entries : Attempt

/-- The value of a node with a given tag. -/
def Content.build (c : Content) (tag : Tag) (place : Place) : Attempt :=
  match tag with
  | .seq => .postponed (.list []) c.items
  | .orderedMap => .postponed (.list []) (c.pairs .orderedMap)
  | .pairs => .postponed (.list []) (c.pairs .pairs)
  | .map => .postponed (.map []) c.entries
  | .keySet => .postponed (.keys []) do
    let b ← c.entries
    match b.value with
    | .map entries => return ⟨.keys (entries.map (·.1)), b.late⟩
    | v => return ⟨v, b.late⟩
  | .merge | .default | .other _ => .wrong place (.unknownTag tag.name)
  | tag => buildScalar tag place c.text

/-- The content of a node that is of another kind than a collection. -/
def Content.lacking (node : Node) : Content :=
  { text := scalarText node
    items := .wrong node.place (.wrongNode "sequence" node.kindName)
    pairs := fun context => .error (.error {
      phase := .values, context := some context, since := some node.place
      problem := .notSequence node.kindName, place := node.place })
    entries := .wrong node.place (.wrongNode "mapping" node.kindName) }

mutual

/-- The value of a node. -/
def build : Node → Attempt
  | .scalar tag text place => (Content.lacking (.scalar tag text place)).build tag place
  | .sequence tag items place =>
    let content : Content := { Content.lacking (.sequence tag items place) with
      items := do
        let (vs, late) ← Attempt.inOrder (buildItems items)
        return ⟨.list vs, late⟩
      pairs := fun context => do
        let (vs, late) ← pairsInOrder (buildPairs context place items)
        return ⟨.list vs, late⟩ }
    content.build tag place
  | .mapping tag entries place =>
    let content : Content := { Content.lacking (.mapping tag entries place) with
      entries := do
        if let some failure := mergeFault? place entries then throw failure
        let (es, late) ← entriesInOrder place [] none (buildMerged entries ++ buildOwn entries)
        return ⟨.map es, late⟩ }
    content.build tag place
  | .enclosing isMapping _ => return ⟨if isMapping then .map [] else .list [], none⟩

/-- The items of a sequence. -/
def buildItems : List Node → List Attempt
  | [] => []
  | node :: rest => build node :: buildItems rest

/-- The pairs of a sequence of mappings with one entry each. -/
def buildPairs (context : Context) (owner : Place) : List Node → List PairAttempt
  | [] => []
  | node :: rest =>
    let fail (problem : Problem) : PairAttempt :=
      .error (.error { phase := .values, context := some context, since := some owner, problem
                       place := node.place })
    (match node with
      | .mapping _ [(key, value)] _ => .ok (build key, build value)
      | .mapping _ entries _ => fail (.notOnePair entries.length)
      | node => fail (.notPair node.kindName)) :: buildPairs context owner rest

/-- The entries that a mapping takes over from those under its merge keys. -/
def buildMerged : List (Node × Node) → List EntryAttempt
  | [] => []
  | (key, value) :: rest =>
    (if key.tag = .merge then buildMergedFrom value else []) ++ buildMerged rest

/-- The entries that a node gives when it is merged. -/
def buildMergedFrom : Node → List EntryAttempt
  | .mapping _ entries _ => buildMerged entries ++ buildOwn entries
  | .sequence _ items _ => buildMergedItems items
  | _ => []

/-- The entries that a list of mappings gives when it is merged, the last one's first. -/
def buildMergedItems : List Node → List EntryAttempt
  | [] => []
  | node :: rest => buildMergedItems rest ++ buildMergedFrom node

/-- The entries that a mapping has itself. -/
def buildOwn : List (Node × Node) → List EntryAttempt
  | [] => []
  | (key, value) :: rest =>
    if key.tag = .merge then buildOwn rest
    else ⟨key.place, buildKey key, build value⟩ :: buildOwn rest

/-- The key of an entry; the key for a default value is a text here. -/
def buildKey : Node → Attempt
  | .scalar .default text _ => return ⟨.text text, none⟩
  | node => build node

end

/-- The first character that no YAML text may hold, with its index. -/
def foreignCharacter? (index : Nat) : Text → Option Failure
  | [] => none
  | c :: r =>
    if isAllowed c then foreignCharacter? (index + 1) r else some (.character c.toNat index)

/-- The value of a YAML text; a text without content has none. -/
def load (t : Text) : Except Failure Value := do
  if let some failure := foreignCharacter? 0 t then throw failure
  match ← Node.ofText? t with
  | none => return .null
  | some node =>
    let b ← build node
    match b.late with
    | some l => throw l.failure
    | none => return b.value

end ScriptLint.Yaml
