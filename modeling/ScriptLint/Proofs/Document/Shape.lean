import ScriptLint.Proofs.Document.Order

/-!
# The shape of the trees that are built

A tree that is built from lines holds no foreign node, and an entry of a list is a scalar or a map
of one key that owns a list or a map (`Node.Built`). Every collection that is open has this shape
while it is being filled, and closing it keeps the shape of its owner (`Stack.Built`), so the
finished document has it (`ofLines_built`), whatever the lines are.
-/

namespace ScriptLint

/-- The node may be an entry of a list: a scalar, or a map of one key that owns a list or a map. -/
def Node.isEntry : Node → Bool
  | .scalar _ => true
  | .map [(_, .list _ _)] _ => true
  | .map [(_, .map _ _)] _ => true
  | _ => false

mutual

/-- The node has the shape of what is built from lines. -/
def Node.Built : Node → Prop
  | .scalar _ => True
  | .list items _ => ItemsBuilt items
  | .map entries _ => EntriesBuilt entries
  | .foreign _ => False

/-- `Node.Built` over the entries of a list, each of which may be one. -/
def ItemsBuilt : List Node → Prop
  | [] => True
  | item :: rest => (item.isEntry = true ∧ item.Built) ∧ ItemsBuilt rest

/-- `Node.Built` over the entries of a map. -/
def EntriesBuilt : List (Tracked × Node) → Prop
  | [] => True
  | (_, node) :: rest => node.Built ∧ EntriesBuilt rest

end

/-- `ItemsBuilt` in the natural per-element form. -/
theorem itemsBuilt_iff {items : List Node} :
    ItemsBuilt items ↔ ∀ item ∈ items, item.isEntry = true ∧ item.Built := by
  induction items with
  | nil => simp [ItemsBuilt]
  | cons item rest ih => simp [ItemsBuilt, ih]

/-- `EntriesBuilt` in the natural per-element form. -/
theorem entriesBuilt_iff {entries : Entries} :
    EntriesBuilt entries ↔ ∀ e ∈ entries, e.2.Built := by
  induction entries with
  | nil => simp [EntriesBuilt]
  | cons e rest ih => obtain ⟨key, node⟩ := e; simp [EntriesBuilt, ih]

/-- Setting an entry keeps the shape of a map. -/
theorem EntriesBuilt.insert {entries : Entries} (h : EntriesBuilt entries) (key : Tracked)
    {node : Node} (hn : node.Built) : EntriesBuilt (entries.insert key node) := by
  induction entries with
  | nil => exact ⟨hn, trivial⟩
  | cons e rest ih =>
    obtain ⟨k, n⟩ := e
    rw [Entries.insert]
    split
    · exact ⟨hn, h.2⟩
    · exact ⟨h.1, ih h.2⟩

namespace Document

/-- The content of an open collection has the shape of what is built. -/
def Block.Built : Block → Prop
  | .list items => ItemsBuilt items
  | .map entries => EntriesBuilt entries

/-- The node of a block that is built is built. -/
theorem Block.Built.toNode {block : Block} (h : block.Built) (line : Int) :
    (block.toNode line).Built := by
  cases block <;> exact h

/-- A collection keeps its shape when it gets another one. -/
theorem Block.Built.attach {owner block : Block} (ho : owner.Built) (hb : block.Built)
    (key : Tracked) (line : Int) : (owner.attach key (block.toNode line)).Built := by
  have hn := hb.toNode line
  cases owner with
  | map entries => exact EntriesBuilt.insert ho key hn
  | list items =>
    have hentry : (Node.map [(key, block.toNode line)] key.line).isEntry = true := by
      cases block <;> rfl
    refine itemsBuilt_iff.2 fun item hi => ?_
    rcases List.mem_append.1 hi with hi | hi
    · exact itemsBuilt_iff.1 ho item hi
    · rw [List.mem_singleton.1 hi]
      exact ⟨hentry, hn, trivial⟩

/-- All open collections have the shape of what is built. -/
def Stack.Built (s : Stack) : Prop := ∀ f ∈ s.frames, f.block.Built

namespace Stack.Built

/-- The stack of the document alone is built. -/
theorem new : Stack.new.Built := List.forall_mem_singleton.2 trivial

/-- The innermost collection of a stack that is built is built. -/
theorem top {s : Stack} (h : s.Built) : s.top.block.Built := h s.top (by simp [frames])

/-- A change to the innermost collection keeps the stack built, if the collection is. -/
theorem withBlock {s : Stack} {block : Block} (h : s.Built) (hb : block.Built) :
    (s.withBlock block).Built :=
  List.forall_mem_cons.2 ⟨hb, fun f hf => h f (List.mem_cons_of_mem _ hf)⟩

/-- Opening a collection that is built keeps the stack built. -/
theorem push {s : Stack} {f : Frame} (h : s.Built) (hf : f.block.Built) : (s.push f).Built :=
  List.forall_mem_cons.2 ⟨hf, h⟩

/-- Closing the innermost collection keeps the stack built. -/
theorem adopt {top owner : Frame} {rest : List Frame} (h : Built ⟨top, owner :: rest⟩) :
    Built ⟨owner.adopt top, rest⟩ := by
  obtain ⟨ht, ho, hr⟩ : top.block.Built ∧ owner.block.Built ∧ ∀ f ∈ rest, f.block.Built := by
    simpa [Built, frames] using h
  exact List.forall_mem_cons.2 ⟨ho.attach ht _ _, hr⟩

end Stack.Built

namespace Builder

variable {b : Builder}

/-- A waiting key that gets an empty map keeps the stack built. -/
theorem sealed_built (h : b.stack.Built) : b.sealed.Built := by
  have hempty : (Block.map []).Built := trivial
  unfold sealed
  split
  · exact h.withBlock (h.top.attach hempty _ _)
  · exact h

/-- A waiting key that is settled by a line keeps the stack built. -/
theorem settled_built (h : b.stack.Built) (line : Line) : (b.settled line).Built := by
  rcases b.settled_cases line with ⟨-, he⟩ | ⟨-, w, -, he⟩
  · exact he ▸ sealed_built h
  · refine he ▸ h.push ?_
    unfold opening
    cases line.isItem <;> exact trivial

/-- Closing what a line is outside of keeps the stack built. -/
theorem landing_built (h : b.stack.Built) (line : Line) : (b.landing line).Built :=
  landing_induction Stack.Built.adopt (settled_built h line)

/-- The builder finishes with a document that is built. -/
theorem finish_built (h : b.stack.Built) : EntriesBuilt b.finish := by
  have hdoc : b.sealed.finish.Built :=
    (Stack.closeFrom_induction Stack.Built.adopt _ (sealed_built h)).top
  rw [finish_eq_sealed]
  generalize b.sealed.finish = block at hdoc
  cases block with
  | map entries => exact hdoc
  | list items => trivial

end Builder

/-- Every move keeps the shape of the open collections. -/
theorem Move.built {b b' : Builder} {line : Line} {log : Log} (hm : Move b line b' log)
    (h : b.stack.Built) : b'.stack.Built := by
  have hl := Builder.landing_built h line
  have htop := hl.top
  cases hm with
  | skip => exact h
  | shrink => exact Builder.reached_induction Stack.Built.adopt (Builder.settled_built h line)
  | orphanEntry | unread | block | heading | strayKey => exact hl
  | scalar _ _ _ hb =>
    rw [hb] at htop
    refine hl.withBlock (itemsBuilt_iff.2 fun item hi => ?_)
    rcases List.mem_append.1 hi with hi | hi
    · exact itemsBuilt_iff.1 htop item hi
    · rw [List.mem_singleton.1 hi]
      exact ⟨rfl, trivial⟩
  | inline _ _ _ hb =>
    rw [hb] at htop
    exact hl.withBlock (EntriesBuilt.insert htop _ trivial)

/-- A document that is built from lines has the shape of what is built. -/
theorem ofLines_built (lines : List Line) : EntriesBuilt (ofLines lines).1 :=
  Builder.finish_built (Builder.run_induction Move.built Stack.Built.new lines)

end Document

end ScriptLint
