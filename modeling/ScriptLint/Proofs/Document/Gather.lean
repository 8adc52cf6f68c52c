import ScriptLint.Proofs.Document.Supply

/-!
# How a map is put together

Every map of a document, at any depth, is what its key lines give to it, set one after the other
(`Gathered`). The key lines of a map are those that are placed while the map is the innermost open
collection, and a map is known by the line that it was opened on (`Builder.entered`). As setting a
key again keeps the older key and takes the later node, an entry is on the first line of its map
that has the key, and has what the last such line supplies.

That a map is known by its line rests on the order of the lines on which collections are opened:
those inside of an open collection that are closed were opened after it, and before the one that is
open above it (`Stack.Gathers`). So a line only adds to the innermost collection, and never to one
that is closed.
-/

namespace ScriptLint

/-! ## The maps of a document -/

mutual

/-- The maps under keys inside of a node, and the node if it is a map, each with its line. -/
def Node.sections : Node → List (Int × Entries)
  | .scalar _ => []
  | .list items _ => itemSections items
  | .map entries line => (line, entries) :: keySections entries
  | .foreign _ => []

/-- The maps under keys inside of the entries of a list. -/
def itemSections : List Node → List (Int × Entries)
  | [] => []
  | .scalar _ :: rest => itemSections rest
  | .map entries _ :: rest => keySections entries ++ itemSections rest
  | .list items _ :: rest => itemSections items ++ itemSections rest
  | .foreign _ :: rest => itemSections rest

/-- The maps under the keys of a map. -/
def keySections : List (Tracked × Node) → List (Int × Entries)
  | [] => []
  | (_, node) :: rest => node.sections ++ keySections rest

end

/-- The maps of a document: the document itself, which is opened before the first line, and those
under keys. -/
def Entries.sections (entries : Entries) : List (Int × Entries) :=
  (-1, entries) :: keySections entries

/-- The maps in two groups of items are those in each. -/
theorem itemSections_append (first rest : List Node) :
    itemSections (first ++ rest) = itemSections first ++ itemSections rest := by
  induction first with
  | nil => rfl
  | cons item first ih => cases item <;> simp [itemSections, ih]

/-- A map in entries that got a node is in the entries or in the node. -/
theorem mem_keySections_insert {key : Tracked} {node : Node} {entries : Entries}
    {p : Int × Entries} (h : p ∈ keySections (entries.insert key node)) :
    p ∈ keySections entries ∨ p ∈ node.sections := by
  induction entries with
  | nil =>
    rw [Entries.insert, keySections, keySections, List.append_nil] at h
    exact .inr h
  | cons first rest ih =>
    obtain ⟨k, n⟩ := first
    rw [Entries.insert] at h
    split at h
    · rcases List.mem_append.1 h with h | h
      · exact .inr h
      · exact .inl (List.mem_append_right _ h)
    · rcases List.mem_append.1 h with h | h
      · exact .inl (List.mem_append_left _ h)
      · exact (ih h).imp_left (List.mem_append_right _)

/-! ## Entries that are set one after the other -/

namespace Entries

/-- Setting one more key comes after all others. -/
theorem ofList_concat (given : List (Tracked × Node)) (key : Tracked) (node : Node) :
    ofList (given ++ [(key, node)]) = (ofList given).insert key node := by
  rw [ofList, List.foldl_append]
  rfl

/-- Setting keys one after the other gives distinct keys. -/
theorem distinct_ofList (given : List (Tracked × Node)) : (ofList given).Distinct := by
  induction given using List.reverseRecOn with
  | nil => trivial
  | append_singleton given e ih =>
    rw [ofList_concat]
    exact ih.insert _ _

/-- The keys of the map are those that were set. -/
theorem hasKey_ofList (given : List (Tracked × Node)) (name : Text) :
    (ofList given).hasKey name = given.any (·.1.text = name) := by
  induction given using List.reverseRecOn with
  | nil => rfl
  | append_singleton given e ih =>
    rw [ofList_concat, hasKey_insert, ih, List.any_append, List.any_cons, List.any_nil,
      Bool.or_false, Bool.or_comm]

/-- An entry of a map that got a node under a key: another entry, or the node under the older or
the new key. -/
theorem mem_insert {entries : Entries} (hd : entries.Distinct) {key : Tracked} {node : Node}
    {e : Tracked × Node} (h : e ∈ entries.insert key node) :
    e.1.text ≠ key.text ∧ e ∈ entries ∨
      e.1.text = key.text ∧ e.2 = node ∧
        (e.1 ∈ entries.keys ∨ e.1 = key ∧ entries.hasKey key.text = false) := by
  induction entries with
  | nil =>
    obtain rfl := List.mem_singleton.1 h
    exact .inr ⟨rfl, rfl, .inr ⟨rfl, rfl⟩⟩
  | cons first rest ih =>
    rw [insert] at h
    split at h
    · next hk =>
      rcases List.mem_cons.1 h with rfl | h
      · exact .inr ⟨hk, rfl, .inl List.mem_cons_self⟩
      · refine .inl ⟨fun htext => ?_, List.mem_cons_of_mem _ h⟩
        have hagain : hasKey first.1.text rest = true :=
          List.any_eq_true.2 ⟨e, h, decide_eq_true (htext.trans hk.symm)⟩
        cases hagain.symm.trans hd.1
    · next hk =>
      rcases List.mem_cons.1 h with rfl | h
      · exact .inl ⟨hk, List.mem_cons_self⟩
      · rcases ih hd.2 h with ⟨htext, h⟩ | ⟨htext, hnode, hold | ⟨hkey, hnew⟩⟩
        · exact .inl ⟨htext, List.mem_cons_of_mem _ h⟩
        · exact .inr ⟨htext, hnode, .inl (List.mem_cons_of_mem _ hold)⟩
        · refine .inr ⟨htext, hnode, .inr ⟨hkey, ?_⟩⟩
          rw [hasKey_cons, hnew, decide_eq_false hk, Bool.or_false]

/-- Among the given entries with its text, an entry has the first key and the last node. -/
theorem mem_ofList {given : List (Tracked × Node)} {key : Tracked} {node : Node}
    (h : (key, node) ∈ ofList given) :
    (given.filter (·.1.text = key.text)).head?.map (·.1) = some key ∧
      (given.filter (·.1.text = key.text)).getLast?.map (·.2) = some node := by
  induction given using List.reverseRecOn generalizing node with
  | nil => cases h
  | append_singleton given e ih =>
    obtain ⟨k, n⟩ := e
    rw [ofList_concat] at h
    rw [List.filter_append]
    rcases mem_insert (distinct_ofList given) h with ⟨htext, h⟩ | ⟨htext, rfl, hkey⟩
    · rw [List.filter_cons_of_neg (by simpa using Ne.symm htext), List.filter_nil, List.append_nil]
      exact ih h
    · rw [List.filter_cons_of_pos (by simpa using htext.symm), List.filter_nil]
      refine ⟨?_, by rw [List.getLast?_concat, Option.map_some]⟩
      rcases hkey with hold | ⟨rfl, hnew⟩
      · obtain ⟨⟨k', n'⟩, hmem, rfl⟩ := List.mem_map.1 hold
        obtain ⟨first, hfirst, hk⟩ := Option.map_eq_some_iff.1 (ih hmem).1
        simp [List.head?_append, hfirst, hk]
      · have hnone : given.filter (·.1.text = key.text) = [] := by
          rw [hasKey_ofList] at hnew
          simpa [List.any_eq_false] using hnew
        simp [hnone]

end Entries

namespace Document

namespace Block

/-- The maps under keys inside of a collection. -/
def sections : Block → List (Int × Entries)
  | .list items => itemSections items
  | .map entries => keySections entries

/-- The maps of a block are itself, if it is one, and those in it. -/
theorem mem_sections_toNode {block : Block} {line : Int} {p : Int × Entries}
    (h : p ∈ (block.toNode line).sections) :
    p ∈ block.sections ∨ p.1 = line ∧ block = .map p.2 := by
  cases block with
  | list items => exact .inl h
  | map entries =>
    rcases List.mem_cons.1 h with rfl | h
    · exact .inr ⟨rfl, rfl⟩
    · exact .inl h

/-- The maps of a block that got a node are those in it and those in the node. -/
theorem mem_sections_attach {block : Block} {key : Tracked} {node : Node} {p : Int × Entries}
    (h : p ∈ (block.attach key node).sections) : p ∈ block.sections ∨ p ∈ node.sections := by
  cases block with
  | map entries => exact mem_keySections_insert h
  | list items =>
    rw [attach, sections, itemSections_append, itemSections, itemSections, keySections,
      keySections, List.append_nil, List.append_nil] at h
    exact List.mem_append.1 h

end Block

/-! ## The lines of a map -/

namespace Builder

/-- The keys among marks. -/
def keysOf (marks : List Mark) : List Tracked := (marks.filter (·.role = .key)).map (·.text)

/-- The keys among marks are those with the role of a key. -/
theorem mem_keysOf {marks : List Mark} {key : Tracked} :
    key ∈ keysOf marks ↔ ⟨.key, key⟩ ∈ marks := by
  simp only [keysOf, List.mem_map, List.mem_filter, decide_eq_true_eq]
  refine ⟨?_, fun h => ⟨_, ⟨h, rfl⟩, rfl⟩⟩
  rintro ⟨⟨role, text⟩, ⟨hm, rfl⟩, rfl⟩
  exact hm

/-- The key that the line adds to the collection opened on line `m`. -/
def enters (b : Builder) (m : Int) (line : Line) : List Tracked :=
  if (b.landing line).top.line = m then keysOf (b.added line) else []

/-- The keys that lines add to the collection opened on line `m`, one after the other. -/
def entered (b : Builder) (m : Int) : List Line → List Tracked
  | [] => []
  | line :: rest => b.enters m line ++ (b.step line).1.entered m rest

/-- Keys enter a map at the lines of two groups in turn. -/
theorem entered_append (b : Builder) (m : Int) (first rest : List Line) :
    b.entered m (first ++ rest) = b.entered m first ++ (b.run first).1.entered m rest := by
  induction first generalizing b with
  | nil => rfl
  | cons line first ih => rw [List.cons_append, entered, entered, ih, run_cons, List.append_assoc]

/-- A line lets its keys enter after those of the lines before. -/
theorem entered_concat (b : Builder) (m : Int) (first : List Line) (line : Line) :
    b.entered m (first ++ [line]) = b.entered m first ++ (b.run first).1.enters m line := by
  rw [entered_append, entered, entered, List.append_nil]

end Builder

section Gather

variable {lines : List Line} {seen seen' : Int → List Tracked} {upper upper' : Int}
    {pending : List Tracked}

/-- The entries are what the keys give when they are set one after the other, each with a node that
its line supplies. -/
def Gathered (lines : List Line) (keys : List Tracked) (entries : Entries) : Prop :=
  ∃ given : List (Tracked × Node), entries = Entries.ofList given ∧ given.map (·.1) = keys ∧
    ∀ e ∈ given, ∃ s ∈ lines, e.1.line = s.number ∧ Supplies lines s e.2

/-- A key that is set with a node from a line is gathered. -/
theorem Gathered.insert {keys : List Tracked} {entries : Entries}
    (h : Gathered lines keys entries) {s : Line} {key : Tracked} {node : Node} (hmem : s ∈ lines)
    (hline : key.line = s.number) (hs : Supplies lines s node) :
    Gathered lines (keys ++ [key]) (entries.insert key node) := by
  obtain ⟨given, rfl, rfl, hall⟩ := h
  refine ⟨given ++ [(key, node)], (Entries.ofList_concat ..).symm, List.map_append, ?_⟩
  refine List.forall_mem_append.2 ⟨hall, List.forall_mem_singleton.2 ?_⟩
  exact ⟨s, hmem, hline, hs⟩

/-- An entry has the first of the keys with its text, and the last of them supplies its node. -/
theorem Gathered.first_last {keys : List Tracked} {entries : Entries}
    (h : Gathered lines keys entries) {key : Tracked} {node : Node}
    (hmem : (key, node) ∈ entries) :
    ∃ s ∈ lines, Supplies lines s node ∧ (keys.filter (·.text = key.text)).head? = some key ∧
      (keys.filter (·.text = key.text)).getLast? = some ⟨key.text, s.number⟩ := by
  obtain ⟨given, rfl, rfl, hall⟩ := h
  obtain ⟨hfirst, hlast⟩ := Entries.mem_ofList hmem
  obtain ⟨e, he, rfl⟩ := Option.map_eq_some_iff.1 hlast
  obtain ⟨hgiven, htext⟩ := List.mem_filter.1 (List.mem_of_getLast? he)
  obtain ⟨s, hs, hline, hsupplies⟩ := hall e hgiven
  have hkeys : (given.map (·.1)).filter (·.text = key.text) =
      (given.filter (·.1.text = key.text)).map (·.1) :=
    List.filter_map
  have hkey : e.1 = ⟨key.text, s.number⟩ := by
    rw [← hline, ← of_decide_eq_true htext]
  refine ⟨s, hs, hsupplies, ?_, ?_⟩
  · rw [hkeys, List.head?_map, hfirst]
  · rw [hkeys, List.getLast?_map, he, Option.map_some, hkey]

/-- The keys of a map are among those that were set. -/
theorem Gathered.mem_of_mem_keys {keys : List Tracked} {entries : Entries}
    (h : Gathered lines keys entries) {key : Tracked} (hmem : key ∈ entries.keys) :
    key ∈ keys := by
  obtain ⟨⟨k, node⟩, he, rfl⟩ := List.mem_map.1 hmem
  obtain ⟨s, -, -, hfirst, -⟩ := h.first_last he
  exact (List.mem_filter.1 (List.mem_of_head? hfirst)).1

/-- A map has the names of the keys that were set. -/
theorem Gathered.hasKey_eq {keys : List Tracked} {entries : Entries}
    (h : Gathered lines keys entries) (name : Text) :
    entries.hasKey name = keys.any (·.text = name) := by
  obtain ⟨given, rfl, rfl, -⟩ := h
  rw [Entries.hasKey_ofList, List.any_map]
  rfl

/-- The maps are gathered, and they were opened between two lines. A map without entries may be one
that was never opened, which has the line of its key. -/
def SectionsGathered (lines : List Line) (seen : Int → List Tracked) (lower upper : Int)
    (sections : List (Int × Entries)) : Prop :=
  ∀ p ∈ sections, p.2 ≠ [] → lower < p.1 ∧ p.1 < upper ∧ Gathered lines (seen p.1) p.2

/-- What is known of an open collection: its own keys so far, where `pending` have no node yet, and
the maps that are closed inside of it. -/
structure Frame.Gathers (lines : List Line) (seen : Int → List Tracked) (upper : Int)
    (pending : List Tracked) (f : Frame) : Prop where
  opened : f.line < upper
  entries : ∀ entries, f.block = .map entries →
    ∃ keys, seen f.line = keys ++ pending ∧ Gathered lines keys entries
  sections : SectionsGathered lines seen f.line upper f.block.sections

namespace Stack

/-- The open collections are gathered. The key of each of them is pending in the one below. -/
inductive Gathers (lines : List Line) (seen : Int → List Tracked) :
    Int → List Tracked → Stack → Prop
  | document {f : Frame} {upper : Int}
      {pending : List Tracked} : f.Gathers lines seen upper pending →
      Gathers lines seen upper pending ⟨f, []⟩
  | above {f owner : Frame} {rest : List Frame} {upper : Int} {pending : List Tracked} :
      f.Gathers lines seen upper pending → Gathers lines seen f.line [f.key] ⟨owner, rest⟩ →
      Gathers lines seen upper pending ⟨f, owner :: rest⟩

namespace Gathers

variable {stack : Stack}

/-- The innermost collection gathers the keys set in it. -/
theorem top (h : stack.Gathers lines seen upper pending) :
    stack.top.Gathers lines seen upper pending := by
  cases h with
  | document hf => exact hf
  | above hf => exact hf

/-- What is known of the innermost collection may change without the others. -/
theorem of_top {pending' : List Tracked} (h : stack.Gathers lines seen upper pending)
    (hf : stack.top.Gathers lines seen upper' pending') :
    stack.Gathers lines seen upper' pending' := by
  cases h with
  | document => exact .document hf
  | above _ hrest => exact .above hf hrest

/-- A change to the innermost collection is all that the stack needs to follow. -/
theorem withBlock {pending' : List Tracked} {block : Block}
    (h : stack.Gathers lines seen upper pending)
    (hf : Frame.Gathers lines seen upper' pending' { stack.top with block }) :
    (stack.withBlock block).Gathers lines seen upper' pending' := by
  cases h with
  | document => exact .document hf
  | above _ hrest => exact .above hf hrest

/-- The collections to come may open later. -/
theorem mono (h : stack.Gathers lines seen upper pending) (hle : upper ≤ upper') :
    stack.Gathers lines seen upper' pending := by
  refine h.of_top ⟨Int.lt_of_lt_of_le h.top.opened hle, h.top.entries, ?_⟩
  intro p hp hne
  obtain ⟨hlower, hupper, hg⟩ := h.top.sections p hp hne
  exact ⟨hlower, Int.lt_of_lt_of_le hupper hle, hg⟩

/-- Only the collections opened below `upper` matter. -/
theorem congr_seen (h : stack.Gathers lines seen upper pending)
    (hseen : ∀ m < upper, seen' m = seen m) :
    stack.Gathers lines seen' upper pending := by
  have hframe : ∀ {f : Frame} {upper : Int} {pending : List Tracked},
      (∀ m < upper, seen' m = seen m) →
      f.Gathers lines seen upper pending → f.Gathers lines seen' upper pending := by
    intro f upper pending hseen hf
    refine ⟨hf.opened, ?_, ?_⟩
    · rw [hseen f.line hf.opened]
      exact hf.entries
    · intro p hp hne
      obtain ⟨hlower, hupper, hg⟩ := hf.sections p hp hne
      exact ⟨hlower, hupper, (hseen p.1 hupper).symm ▸ hg⟩
  induction h with
  | document hf => exact .document (hframe hseen hf)
  | above hf _ ih =>
    exact .above (hframe hseen hf) (ih fun m hm => hseen m (Int.lt_trans hm hf.opened))

/-- A line that lands on the stack adds its key to the innermost collection only. -/
theorem enter {key : Tracked} (h : stack.Gathers lines seen upper [])
    (htop : seen' stack.top.line = seen stack.top.line ++ [key])
    (hother : ∀ m ≠ stack.top.line, seen' m = seen m) : stack.Gathers lines seen' upper [key] := by
  have hf : stack.top.Gathers lines seen' upper [key] := by
    refine ⟨h.top.opened, fun entries hb => ?_, fun p hp hne => ?_⟩
    · obtain ⟨keys, hkeys, hg⟩ := h.top.entries entries hb
      rw [List.append_nil] at hkeys
      exact ⟨keys, by rw [htop, hkeys], hg⟩
    · obtain ⟨hlower, hupper, hg⟩ := h.top.sections p hp hne
      exact ⟨hlower, hupper, (hother p.1 (Int.ne_of_gt hlower)).symm ▸ hg⟩
  cases h with
  | document => exact .document hf
  | above _ hrest => exact .above hf (hrest.congr_seen fun m hm => hother m (Int.ne_of_lt hm))

/-- The pending key gets its node. -/
theorem attach {s : Line} {key : Tracked} {node : Node} (h : stack.Gathers lines seen upper [key])
    (hmem : s ∈ lines) (hline : key.line = s.number) (hs : Supplies lines s node)
    (hle : upper ≤ upper')
    (hnode : SectionsGathered lines seen stack.top.line upper' node.sections) :
    (stack.withBlock (stack.top.block.attach key node)).Gathers lines seen upper' [] := by
  have h := h.mono hle
  refine h.withBlock ⟨h.top.opened, fun entries hb => ?_, fun p hp => ?_⟩
  · cases hblock : stack.top.block with
    | list items =>
      rw [hblock] at hb
      cases hb
    | map old =>
      rw [hblock] at hb
      cases hb
      obtain ⟨keys, hkeys, hg⟩ := h.top.entries old hblock
      exact ⟨keys ++ [key], by rw [List.append_nil]; exact hkeys, hg.insert hmem hline hs⟩
  · rcases Block.mem_sections_attach hp with hp | hp
    · exact h.top.sections p hp
    · exact hnode p hp

/-- Closing a collection: its own map, if it is one, and those inside of it were opened after its
owner. -/
theorem adopt {log : Log} {top owner : Frame} {rest : List Frame}
    (ht : Traced lines log ⟨top, owner :: rest⟩)
    (h : Gathers lines seen upper [] ⟨top, owner :: rest⟩) :
    Gathers lines seen upper [] ⟨owner.adopt top, rest⟩ := by
  cases ht with
  | above _ hi hnext hline _ =>
  cases h with
  | above hf hrest =>
    refine hrest.attach hi.mem hi.line (hline ▸ .collection top.block hnext)
      (Int.le_of_lt hf.opened) ?_
    have howner : owner.line < top.line := hrest.top.opened
    intro p hp hne
    rcases Block.mem_sections_toNode hp with hp | ⟨hline, hb⟩
    · obtain ⟨hlower, hupper, hg⟩ := hf.sections p hp hne
      exact ⟨Int.lt_trans howner hlower, hupper, hg⟩
    · obtain ⟨keys, hkeys, hg⟩ := hf.entries p.2 hb
      rw [List.append_nil] at hkeys
      rw [hline, hkeys]
      exact ⟨howner, hf.opened, hg⟩

end Gathers

end Stack

/-! ## The builder -/

namespace Builder

variable {b : Builder} {before after : List Line} {log : Log} {line : Line}

/-- The waiting key has no node yet. -/
def unsettled (b : Builder) : List Tracked :=
  match b.waiting with
  | some w => [w.key]
  | none => []

/-- The stack is traced and gathered, and no key is pending. -/
def Complete (lines : List Line) (log : Log) (seen : Int → List Tracked) (upper : Int)
    (s : Stack) : Prop :=
  s.Traced lines log ∧ s.Gathers lines seen upper []

/-- Closing the innermost collection keeps all of them complete. -/
theorem Complete.adopt {top owner : Frame} {rest : List Frame}
    (h : Complete lines log seen upper ⟨top, owner :: rest⟩) :
    Complete lines log seen upper ⟨owner.adopt top, rest⟩ :=
  ⟨h.1.adopt, h.2.adopt h.1⟩

/-- A waiting key that gets an empty map is complete. -/
theorem complete_sealed (ht : b.Traced lines log before)
    (h : b.stack.Gathers lines seen upper b.unsettled) :
    Complete lines log seen upper b.sealed := by
  refine ⟨ht.sealed, ?_⟩
  have hwait := ht.waiting
  unfold unsettled at h
  unfold sealed
  cases hw : b.waiting with
  | none => rwa [hw] at h
  | some w =>
    rw [hw] at h
    obtain ⟨-, first, s, -, hi⟩ := hwait w hw
    refine h.attach hi.mem hi.line (hi.line ▸ .empty) (Int.le_refl _) fun p hp hne => ?_
    rw [List.mem_singleton.1 hp] at hne
    exact absurd rfl hne

/-- A collection that is opened has no keys yet. -/
theorem opening_gathers (hnew : seen line.number = []) (key : Tracked) :
    (opening line key).Gathers lines seen (line.number + 1) [] := by
  refine ⟨Int.lt_succ _, fun entries hb => ⟨[], hnew, ?_⟩, ?_⟩
  · have hempty : entries = [] := by
      unfold opening at hb
      cases hi : line.isItem <;> simp_all
    exact ⟨[], hempty, rfl, nofun⟩
  · unfold opening
    cases line.isItem <;> exact nofun

/-- A waiting key that is settled by a line is complete. -/
theorem complete_settled (ht : b.Traced lines log before)
    (h : b.stack.Gathers lines seen upper b.unsettled) (hl : lines = before ++ line :: after)
    (hle : upper ≤ line.number) (hnew : seen line.number = []) :
    Complete lines log seen (line.number + 1) (b.settled line) := by
  refine ⟨ht.settled hl, ?_⟩
  rcases b.settled_cases line with ⟨-, he⟩ | ⟨-, w, hw, he⟩
  · rw [he]
    exact (complete_sealed ht h).2.mono (by omega)
  · rw [unsettled, hw] at h
    rw [he]
    exact .above (opening_gathers hnew w.key) (h.mono hle)

/-- The collections that a line is inside of are complete. -/
theorem complete_reached (h : Complete lines log seen upper (b.settled line)) :
    Complete lines log seen upper (b.reached line) :=
  reached_induction Complete.adopt h

/-- The collections that a line is placed into are complete. -/
theorem complete_landing (h : Complete lines log seen upper (b.settled line)) :
    Complete lines log seen upper (b.landing line) :=
  landing_induction Complete.adopt h

/-- The keys of a line enter the map that the line lands on. -/
theorem enters_of_keys {keys : List Tracked} (h : keysOf (b.added line) = keys) (m : Int) :
    b.enters m line = if (b.landing line).top.line = m then keys else [] := by
  rw [enters, h]

end Builder

/-- A line that adds no key does not change what is known of the stack. -/
theorem Stack.Gathers.of_no_key {b : Builder} {line : Line} {stack : Stack}
    (h : stack.Gathers lines seen upper pending) (hkeys : Builder.keysOf (b.added line) = []) :
    stack.Gathers lines (fun m => seen m ++ b.enters m line) upper pending := by
  refine h.congr_seen fun m _ => ?_
  rw [Builder.enters_of_keys hkeys, ite_self, List.append_nil]

/-- A line that adds a key adds it to the collection that it lands on. -/
theorem Stack.Gathers.of_key {b : Builder} {line : Line} {key : Tracked}
    (h : (b.landing line).Gathers lines seen upper [])
    (hkeys : Builder.keysOf (b.added line) = [key]) :
    (b.landing line).Gathers lines (fun m => seen m ++ b.enters m line) upper [key] := by
  refine h.enter ?_ fun m hm => ?_
  · rw [Builder.enters_of_keys hkeys, if_pos rfl]
  · rw [Builder.enters_of_keys hkeys, if_neg (Ne.symm hm), List.append_nil]

/-- A move adds to the keys of each collection what the line enters. -/
theorem Move.gathers {b b' : Builder} {before after : List Line} {line : Line} {log said : Log}
    (hm : Move b line b' said) (ht : b.Traced lines log before)
    (h : b.stack.Gathers lines seen upper b.unsettled) (hl : lines = before ++ line :: after)
    (hle : upper ≤ line.number) (hnew : seen line.number = []) :
    b'.stack.Gathers lines (fun m => seen m ++ b.enters m line)
      (line.number + 1) b'.unsettled := by
  have hmem : line ∈ lines := hl ▸ List.mem_append_right _ List.mem_cons_self
  have hsettled := Builder.complete_settled ht h hl hle hnew
  have hland := (Builder.complete_landing hsettled).2
  have hnone : b.added line = [] → Builder.keysOf (b.added line) = [] := fun ha => by rw [ha]; rfl
  cases hm with
  | skip hk => exact (h.mono (by omega)).of_no_key (hnone (Builder.added_of_skips hk))
  | shrink _ hs =>
    exact (Builder.complete_reached hsettled).2.of_no_key (hnone (Builder.added_of_shrinks hs))
  | orphanEntry _ _ hi hb | strayKey _ _ hi hb =>
    exact hland.of_no_key (hnone (Builder.added_of_mismatch (by simp [hb, hi, Block.isList])))
  | unread hk hs hi hb he hp =>
    refine hland.of_no_key (hnone ?_)
    rw [Builder.added_of_map hk hs hi hb, Line.marks_of_unread hi he hp]
  | block hk hs hi hb he =>
    have hkeys : Builder.keysOf (b.added line) = [] := by
      rw [Builder.added_of_list hk hs hi hb, Line.marks_of_block hi he]
      rfl
    have h := hland.of_no_key hkeys
    refine h.of_top ⟨h.top.opened, fun entries hmap => ?_, h.top.sections⟩
    cases hb.symm.trans hmap
  | scalar hk hs hi hb he =>
    have hkeys : Builder.keysOf (b.added line) = [] := by
      rw [Builder.added_of_list hk hs hi hb, Line.marks_of_scalar hi he]
      rfl
    have h := hland.of_no_key hkeys
    have hsections := h.top.sections
    rw [hb] at hsections
    refine h.withBlock ⟨h.top.opened, fun entries hmap => (by cases hmap), ?_⟩
    rw [Block.sections, itemSections_append, itemSections, itemSections, List.append_nil]
    exact hsections
  | heading hk hs hi hb he =>
    refine hland.of_key ?_
    rw [Builder.added_of_map hk hs hi hb, Line.marks_of_heading hi he]
    rfl
  | @inline entries key value hk hs hi hb he hp =>
    -- The key is entered and then has its value at once, so it does not stay unsettled.
    have hkeys : Builder.keysOf (b.added line) = [⟨Text.trim key, line.number⟩] := by
      rw [Builder.added_of_map hk hs hi hb, Line.marks_of_inline hi he hp]
      rfl
    obtain ⟨htext, hkey⟩ := splitInline_eq_some hp
    have hattach :=
      (hland.of_key hkeys).attach hmem rfl (.value (.value hi he htext hkey)) (Int.le_refl _)
      (List.forall_mem_nil _)
    rw [hb] at hattach
    exact hattach

/-! ## Runs -/

namespace Builder

/-- What is known after the lines `before`: the lines to come open their collections at `upper` or
later. -/
structure Gathers (lines before : List Line) (upper : Int) : Prop where
  stack : (run {} before).1.stack.Gathers lines (fun m => entered {} m before) upper
    (run {} before).1.unsettled
  fresh : ∀ m, upper ≤ m → entered {} m before = []
  next : ∀ {line after}, lines = before ++ line :: after → upper ≤ line.number

/-- Where a line lands, the keys of the lines before are gathered. -/
theorem Gathers.landing {before after : List Line} {line : Line} {log : Log}
    (hcut : lines = before ++ line :: after) (ht : (run {} before).1.Traced lines log before)
    (h : Gathers lines before upper) :
    ((run {} before).1.landing line).Gathers lines (fun m => entered {} m before)
      (line.number + 1) [] :=
  (complete_landing
    (complete_settled ht h.stack hcut (h.next hcut) (h.fresh line.number (h.next hcut)))).2

/-- A line keeps the keys gathered. -/
theorem Gathers.step (hl : lines.Pairwise (fun l l' => l.number < l'.number))
    {before after : List Line} {line : Line} {log : Log} (hcut : lines = before ++ line :: after)
    (ht : (run {} before).1.Traced lines log before)
    (h : Gathers lines before upper) : Gathers lines (before ++ [line]) (line.number + 1) := by
  have hle := h.next hcut
  have hseen : (fun m => entered {} m (before ++ [line])) =
      fun m => entered {} m before ++ (run {} before).1.enters m line := by
    funext m
    rw [entered_concat]
  refine ⟨?_, fun m hm => ?_, fun {line' after'} hcut' => ?_⟩
  · rw [hseen, run_concat]
    exact ((run {} before).1.step_move line).gathers ht h.stack hcut hle (h.fresh line.number hle)
  · have hopened := (h.landing hcut ht).top.opened
    rw [entered_concat, h.fresh m (by omega), enters, if_neg (by omega)]
    rfl
  · rw [hcut', List.append_assoc] at hl
    have hlt := (List.pairwise_cons.1 (List.pairwise_append.1 hl).2.1).1 line' List.mem_cons_self
    omega

/-- At the start only the document is open. -/
theorem Gathers.start (lines : List Line) : Gathers lines [] 0 := by
  refine ⟨.document ⟨by decide, ?_, nofun⟩, fun _ _ => rfl, fun _ => Int.natCast_nonneg _⟩
  rintro entries ⟨⟩
  exact ⟨[], rfl, [], rfl, rfl, nofun⟩

/-- After any number of lines, their keys are gathered. -/
theorem run_gathers (hl : lines.Pairwise (fun l l' => l.number < l'.number))
    {before after : List Line} (hcut : lines = before ++ after) :
    ∃ upper, Gathers lines before upper :=
  prefix_induction (P := fun before => ∃ upper, Gathers lines before upper) ⟨0, .start lines⟩
    (fun hcut ⟨_, h⟩ => ⟨_, h.step hl hcut (run_traced hl hcut)⟩) hcut

end Builder

/-- Every map of a document is what its key lines give to it, and so is the document. -/
theorem ofLines_gathered (hl : lines.Pairwise (fun l l' => l.number < l'.number)) :
    Gathered lines (Builder.entered {} (-1) lines) (ofLines lines).1 ∧
    ∀ p ∈ keySections (ofLines lines).1, p.2 ≠ [] →
    Gathered lines (Builder.entered {} p.1 lines) p.2 := by
  obtain ⟨upper, h⟩ := Builder.run_gathers hl (List.append_nil lines).symm
  have hcomplete :=
    Builder.complete_sealed (Builder.run_traced hl (List.append_nil lines).symm) h.stack
  have hdocument : Builder.Complete lines _ _ _ (Builder.run {} lines).1.document :=
    Stack.closeFrom_induction Builder.Complete.adopt _ hcomplete
  rw [(Builder.run_sound lines).document_eq] at hdocument
  have htop := hdocument.2.top
  refine ⟨?_, fun p hp hne => (htop.sections p hp hne).2.2⟩
  obtain ⟨keys, hkeys, hg⟩ := htop.entries _ rfl
  rw [List.append_nil] at hkeys
  exact hkeys ▸ hg

end Gather

/-- What stands under a key is supplied by a line that introduces the key. The key is on this line,
or it is on an earlier one and the line is reported as one that repeats it. In every map, the
document and those under keys, the key is the first one of its text that lines add to the map, and
the last one supplies what stands under it. -/
theorem ofSource_first_key_last_node (tab : Int) (t : Text) :
    (∀ key node, (key, node) ∈ (ofSource tab (Source.ofText t)).1.pairs →
      ∃ s ∈ lines tab (Source.ofText t), s.Introduces key.text ∧
        Supplies (lines tab (Source.ofText t)) s node ∧
        (key.line = s.number ∨ key.line < s.number ∧
          (Issue.repeatedKey key.text).onLine s.number ∈ (ofSource tab (Source.ofText t)).2)) ∧
    ∀ m entries key node, (m, entries) ∈ (ofSource tab (Source.ofText t)).1.sections →
    (key, node) ∈ entries →
      ∃ s ∈ lines tab (Source.ofText t), Supplies (lines tab (Source.ofText t)) s node ∧
        ((Builder.entered {} m (lines tab (Source.ofText t))).filter (·.text = key.text)).head? =
          some key ∧
        ((Builder.entered {} m (lines tab (Source.ofText t))).filter
          (·.text = key.text)).getLast? = some ⟨key.text, s.number⟩ := by
  have hl := (linesFrom_increasing tab 0 (Source.ofText t).lines).1
  obtain ⟨hdocument, hsections⟩ := ofLines_gathered hl
  refine ⟨fun key node hmem => ofLines_supplied hl (key, node) hmem,
    fun m entries key node hs hmem => ?_⟩
  rcases List.mem_cons.1 hs with he | hs
  · cases he
    exact hdocument.first_last hmem
  · exact (hsections (m, entries) hs (List.ne_nil_of_mem hmem)).first_last hmem

/-- A script that has a key twice. -/
def twiceScript : Text := "a: 1\na: 2".toList

/-- The document keeps the first key with the last value. -/
theorem ofSource_twiceScript :
    (ofSource 4 (Source.ofText twiceScript)).1 = [(⟨['a'], 0⟩, .scalar ⟨['2'], 1⟩)] := by
  have hlines : lines 4 (Source.ofText twiceScript) =
      [⟨0, 0, "a: 1".toList⟩, ⟨1, 0, "a: 2".toList⟩] := by
    decide +kernel
  rw [ofSource, hlines]
  rfl

/-- The first key with the last value is a pair of the document. -/
theorem mem_twiceScript_pairs :
    (⟨['a'], 0⟩, .scalar ⟨['2'], 1⟩) ∈ (ofSource 4 (Source.ofText twiceScript)).1.pairs := by
  rw [ofSource_twiceScript]
  exact List.mem_singleton_self _

/-- The key is that of the first line, and its value that of the second. -/
theorem ofSource_first_key_last_node_twice :
    (∃ s ∈ lines 4 (Source.ofText twiceScript), s.Introduces ['a'] ∧
      Supplies (lines 4 (Source.ofText twiceScript)) s (.scalar ⟨['2'], 1⟩) ∧
      ((0 : Int) = s.number ∨ (0 : Int) < s.number ∧
        (Issue.repeatedKey ['a']).onLine s.number ∈ (ofSource 4 (Source.ofText twiceScript)).2)) ∧
    ∃ s ∈ lines 4 (Source.ofText twiceScript),
    Supplies (lines 4 (Source.ofText twiceScript)) s (.scalar ⟨['2'], 1⟩) ∧
      ((Builder.entered {} (-1) (lines 4 (Source.ofText twiceScript))).filter
        (·.text = ['a'])).head? = some ⟨['a'], 0⟩ ∧
      ((Builder.entered {} (-1) (lines 4 (Source.ofText twiceScript))).filter
        (·.text = ['a'])).getLast? = some ⟨['a'], s.number⟩ := by
  obtain ⟨hpairs, hsections⟩ := ofSource_first_key_last_node 4 twiceScript
  refine ⟨hpairs _ _ mem_twiceScript_pairs, hsections (-1) _ ⟨['a'], 0⟩ _ List.mem_cons_self ?_⟩
  rw [ofSource_twiceScript]
  exact List.mem_singleton_self _

/-- A repeated key is not on the line of its value. -/
theorem not_every_key_on_value_line : ¬ ∀ (tab : Int) (t : Text) (key value : Tracked),
    (key, Node.scalar value) ∈ (ofSource tab (Source.ofText t)).1.pairs →
    key.line = value.line := by
  intro h
  have hline : (0 : Int) = 1 := h 4 twiceScript ⟨['a'], 0⟩ ⟨['2'], 1⟩ mem_twiceScript_pairs
  omega

end Document

end ScriptLint
