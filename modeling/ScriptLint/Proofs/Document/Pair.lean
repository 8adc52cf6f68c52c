import ScriptLint.Proofs.Document.Entries
import ScriptLint.Proofs.Document.Shape

/-!
# The keys of a document and what stands under them

A document is also read as the list of its pairs: every key of every map in it, at any depth, with
the node under it (`Entries.pairs`). The entries of a list that open a block are maps, so their
keys are among these, and every list of a document that is built from lines stands under some key.

A key with its node brings its own pairs into a collection. If the collection is a map that has the
key already, the older key stays and gets the node (`Block.mem_pairs_attach`).
-/

namespace ScriptLint

mutual

/-- The keys inside of a node with what stands under them, from top to bottom. -/
def Node.pairs : Node → List (Tracked × Node)
  | .scalar _ => []
  | .list items _ => itemPairs items
  | .map entries _ => keyPairs entries
  | .foreign _ => []

/-- The keys inside of the entries of a list. -/
def itemPairs : List Node → List (Tracked × Node)
  | [] => []
  | item :: rest => item.pairs ++ itemPairs rest

/-- The keys of a map and those inside of what stands under them. -/
def keyPairs : List (Tracked × Node) → List (Tracked × Node)
  | [] => []
  | (key, node) :: rest => (key, node) :: (node.pairs ++ keyPairs rest)

end

/-- The pairs of a document, from top to bottom. -/
def Entries.pairs (entries : Entries) : List (Tracked × Node) := keyPairs entries

/-- The pairs of two groups of items are those of each. -/
theorem itemPairs_append (first rest : List Node) :
    itemPairs (first ++ rest) = itemPairs first ++ itemPairs rest := by
  induction first with
  | nil => rfl
  | cons item first ih => rw [List.cons_append, itemPairs, itemPairs, ih, List.append_assoc]

/-- Where the pairs of a map come from that gets a node under a key. -/
theorem mem_keyPairs_insert {key : Tracked} {node : Node} {entries : Entries} {e : Tracked × Node}
    (h : e ∈ keyPairs (entries.insert key node)) :
    e ∈ keyPairs entries ∨ e ∈ node.pairs ∨ e = (key, node) ∨
      e.2 = node ∧ e.1.text = key.text ∧ e.1 ∈ entries.keys := by
  induction entries with
  | nil =>
    rw [Entries.insert, keyPairs, keyPairs, List.append_nil] at h
    rcases List.mem_cons.1 h with h | h
    · exact .inr (.inr (.inl h))
    · exact .inr (.inl h)
  | cons first rest ih =>
    obtain ⟨k, n⟩ := first
    rw [Entries.insert] at h
    split at h
    · next hk =>
      rcases List.mem_cons.1 h with rfl | h
      · exact .inr (.inr (.inr ⟨rfl, hk, List.mem_cons_self⟩))
      · rcases List.mem_append.1 h with h | h
        · exact .inr (.inl h)
        · exact .inl (List.mem_cons_of_mem _ (List.mem_append_right _ h))
    · rcases List.mem_cons.1 h with rfl | h
      · exact .inl List.mem_cons_self
      · rcases List.mem_append.1 h with h | h
        · exact .inl (List.mem_cons_of_mem _ (List.mem_append_left _ h))
        · rcases ih h with h | h | h | ⟨hnode, htext, hmem⟩
          · exact .inl (List.mem_cons_of_mem _ (List.mem_append_right _ h))
          · exact .inr (.inl h)
          · exact .inr (.inr (.inl h))
          · exact .inr (.inr (.inr ⟨hnode, htext, List.mem_cons_of_mem _ hmem⟩))

mutual

/-- What stands under a key inside of a node that is built has the shape of what is built. -/
theorem Node.pairs_built : ∀ {node : Node}, node.Built → ∀ e ∈ node.pairs, e.2.Built
  | .scalar _, _ => nofun
  | .list _ _, h => itemPairs_built h
  | .map _ _, h => keyPairs_built h

/-- The nodes under keys of a list that is built are built. -/
theorem itemPairs_built :
    ∀ {items : List Node}, ItemsBuilt items → ∀ e ∈ itemPairs items, e.2.Built
  | [], _ => nofun
  | _ :: _, h => by
    rw [itemPairs]
    exact List.forall_mem_append.2 ⟨Node.pairs_built h.1.2, itemPairs_built h.2⟩

/-- The nodes under keys of a map that is built are built. -/
theorem keyPairs_built : ∀ {entries : List (Tracked × Node)}, EntriesBuilt entries →
    ∀ e ∈ keyPairs entries, e.2.Built
  | [], _ => nofun
  | (_, _) :: _, h => by
    rw [keyPairs]
    refine List.forall_mem_cons.2 ⟨h.1, List.forall_mem_append.2 ?_⟩
    exact ⟨Node.pairs_built h.1, keyPairs_built h.2⟩

end

namespace Document.Block

/-- The pairs of a collection. -/
def pairs : Block → List (Tracked × Node)
  | .list items => itemPairs items
  | .map entries => keyPairs entries

@[simp] theorem pairs_toNode (line : Int) (block : Block) :
    (block.toNode line).pairs = block.pairs := by
  cases block <;> rfl

/-- Where the pairs of a collection come from that gets a node under a key. -/
theorem mem_pairs_attach {block : Block} {key : Tracked} {node : Node} {e : Tracked × Node}
    (h : e ∈ (block.attach key node).pairs) :
    e ∈ block.pairs ∨ e ∈ node.pairs ∨ e = (key, node) ∨
      e.2 = node ∧ e.1.text = key.text ∧ e.1 ∈ block.entries.keys := by
  cases block with
  | map entries => exact mem_keyPairs_insert h
  | list items =>
    rw [attach, pairs, itemPairs_append, itemPairs, itemPairs, List.append_nil, Node.pairs,
      keyPairs, keyPairs, List.append_nil] at h
    rcases List.mem_append.1 h with h | h
    · exact .inl h
    · rcases List.mem_cons.1 h with h | h
      · exact .inr (.inr (.inl h))
      · exact .inr (.inl h)

end Document.Block

end ScriptLint
