import ScriptLint.Proofs.Document.Account
import ScriptLint.Proofs.Document.Supply

/-!
# Nesting of collections and of lines

A collection under a key is opened on the line after the one of its key, at a larger width, or as a
list at the width of a key that is no entry of a list. All that is inside of it is on this line or
below, and down to there no line is less wide than the one that opened it (`Block.Nested`). So the
tree is nested as the lines are, whatever is reported of lines that are too deep, left out, or at a
width that nothing has.

Along a run, an open collection has seen no line that is less wide since it was opened
(`Frame.Spans`): a line closes the collections that are wider than it is before anything is placed,
and a line that is left out with its owner is wider than the owner, which was itself wide enough
(`Stack.Spans.extend`). When a collection is closed, what its frame knows is what makes the
finished node nested (`Frame.Spans.nested`).
-/

namespace ScriptLint.Document

/-- The collection has no entries. -/
def Block.isEmpty : Block → Bool
  | .list items => items.isEmpty
  | .map entries => entries.isEmpty

/-- The collection is opened on the line `o` under a key of the line `k`. Its entries and all that
is inside of these are on `o` or below, and no line from `o` down to there is less wide than
`o`. -/
structure Block.Nested (lines : List Line) (k o : Line) (block : Block) : Prop where
  below : k.number < o.number
  wider : k.width < o.width ∨ k.width = o.width ∧ block.isList = true ∧ k.isItem = false
  inside : ∀ mark ∈ block.marks, (o.number : Int) ≤ mark.text.line ∧
    ∀ l ∈ lines, o.number ≤ l.number → (l.number : Int) ≤ mark.text.line → o.width ≤ l.width

/-- What stands under a key is a scalar, an empty map, or a collection that is opened on a line
after the one of a key. -/
inductive Nests (lines : List Line) : Node → Prop
  | scalar (value : Tracked) : Nests lines (.scalar value)
  | empty (line : Int) : Nests lines (.map [] line)
  | collection {k o : Line} {block : Block} : [k, o] <:+: lines → block.Nested lines k o →
      Nests lines (block.toNode o.number)

section Nesting

variable {lines before after : List Line} {line k o l : Line} {key : Tracked} {node : Node}
    {block : Block}

/-! ## Lines in order -/

/-- The lines down to a line are those before it and the line itself. -/
theorem mem_concat_of_le (hl : lines.Pairwise (fun l l' => l.number < l'.number))
    (hcut : lines = before ++ line :: after) (hmem : l ∈ lines) (hle : l.number ≤ line.number) :
    l ∈ before ++ [line] := by
  rw [List.append_cons] at hcut
  rw [hcut] at hl hmem
  rcases List.mem_append.1 hmem with hb | ha
  · exact hb
  · have hlt := (List.pairwise_append.1 hl).2.2 line (by simp) l ha
    omega

/-- A line above a given one is before it. -/
theorem mem_of_lt (hl : lines.Pairwise (fun l l' => l.number < l'.number))
    (hcut : lines = before ++ line :: after) (hmem : l ∈ lines) (hlt : l.number < line.number) :
    l ∈ before := by
  rcases List.mem_append.1 (mem_concat_of_le hl hcut hmem (Nat.le_of_lt hlt)) with hb | heq
  · exact hb
  · rw [List.mem_singleton.1 heq] at hlt
    exact absurd hlt (Nat.lt_irrefl _)

/-- No line stands between a line and the next. -/
theorem le_of_pair_of_lt (hl : lines.Pairwise (fun l l' => l.number < l'.number))
    (h : [k, o] <:+: lines) (hmem : l ∈ lines) (hlt : l.number < o.number) :
    l.number ≤ k.number := by
  obtain ⟨first, rest, hcut⟩ := h
  have hcut : lines = (first ++ [k]) ++ o :: rest := by rw [← hcut]; simp
  have hbefore := mem_of_lt hl hcut hmem hlt
  rw [hcut] at hl
  rcases List.mem_append.1 hbefore with hf | heq
  · exact Nat.le_of_lt
      ((List.pairwise_append.1 (List.pairwise_append.1 hl).1).2.2 l hf k (by simp))
  · exact Nat.le_of_eq (congrArg Line.number (List.mem_singleton.1 heq))

/-- Of two neighbouring lines, the first is above. -/
theorem lt_of_pair (hl : lines.Pairwise (fun l l' => l.number < l'.number))
    (h : [k, o] <:+: lines) :
    k.number < o.number := by
  have hpair := hl.sublist h.sublist
  exact List.rel_of_pairwise_cons hpair List.mem_cons_self

/-! ## Open collections -/

namespace Frame

/-- Something on the line `n` may be inside of the collection: it was opened on this line or above,
and all lines down to it are among those before. -/
def Admits (lines before : List Line) (f : Frame) (n : Int) : Prop :=
  f.line ≤ n ∧ ∀ l ∈ lines, (l.number : Int) ≤ n → l ∈ before

/-- A line that comes later is no obstacle. -/
theorem Admits.extend {f : Frame} {n : Int} (h : f.Admits lines before n) (line : Line) :
    f.Admits lines (before ++ [line]) n :=
  ⟨h.1, fun l hl hle => List.mem_append_left _ (h.2 l hl hle)⟩

/-- What the lines before say of an open collection: those above the line it was opened on are
among them, the others are at least as wide, and what is inside of it comes from these. -/
structure Spans (lines before : List Line) (f : Frame) : Prop where
  opened : ∀ l ∈ lines, (l.number : Int) < f.line → l ∈ before
  wide : ∀ l ∈ before, f.line ≤ l.number → f.width ≤ l.width
  marks : ∀ mark ∈ f.block.marks, f.Admits lines before mark.text.line
  nests : ∀ e ∈ f.block.pairs, Nests lines e.2

/-- The collection was opened on the line `o` under a key of the line `k`. -/
structure Opened (lines : List Line) (k o : Line) (f : Frame) : Prop where
  pair : [k, o] <:+: lines
  below : k.number < o.number
  key : f.key.line = k.number
  line : f.line = o.number
  width : f.width = o.width
  wider : k.width < o.width ∨ k.width = o.width ∧ f.block.isList = true ∧ k.isItem = false

namespace Spans

variable {f : Frame}

/-- One more line that is wide enough. -/
theorem extend (h : f.Spans lines before) (hw : f.width ≤ line.width) :
    f.Spans lines (before ++ [line]) := by
  refine ⟨fun l hm hlt => List.mem_append_left _ (h.opened l hm hlt), fun l hm hle => ?_,
    fun mark hm => (h.marks mark hm).extend line, h.nests⟩
  rcases List.mem_append.1 hm with hm | hm
  · exact h.wide l hm hle
  · rw [List.mem_singleton.1 hm]
    exact hw

/-- A collection is nested when it is closed. -/
theorem nested (h : f.Spans lines before) (ho : f.Opened lines k o) :
    f.block.Nested lines k o := by
  refine ⟨ho.below, ho.wider, fun mark hm => ?_⟩
  obtain ⟨hle, hseen⟩ := h.marks mark hm
  refine ⟨ho.line ▸ hle, fun l hl hol hlm => ?_⟩
  have hwide := h.wide l (hseen l hl hlm) (by rw [ho.line]; omega)
  rw [ho.width] at hwide
  omega

end Spans

end Frame

namespace Stack

/-- All open collections span the lines before, and each but the document was opened on the line
after the one of its key, which may be inside of its owner. -/
inductive Spans (lines before : List Line) : Stack → Prop
  | document {f : Frame} : f.Spans lines before → Spans lines before ⟨f, []⟩
  | above {f owner : Frame} {rest : List Frame}
      {k o : Line} : f.Spans lines before → f.Opened lines k o →
      owner.Admits lines before f.key.line → Spans lines before ⟨owner, rest⟩ →
      Spans lines before ⟨f, owner :: rest⟩

namespace Spans

variable {stack : Stack}

/-- The innermost collection spans the lines before. -/
theorem top (h : stack.Spans lines before) : stack.top.Spans lines before := by
  cases h with
  | document hf => exact hf
  | above hf => exact hf

/-- A change to the innermost collection keeps the spans, if what is new is admitted and nested. -/
theorem withBlock (h : stack.Spans lines before) (hkind : block.isList = stack.top.block.isList)
    (hmarks : ∀ mark ∈ block.marks, stack.top.Admits lines before mark.text.line)
    (hnests : ∀ e ∈ block.pairs, Nests lines e.2) :
    (stack.withBlock block).Spans lines before := by
  cases h with
  | document hf => exact .document ⟨hf.opened, hf.wide, hmarks, hnests⟩
  | above hf ho hkey hrest =>
    refine .above ⟨hf.opened, hf.wide, hmarks, hnests⟩ ⟨ho.pair, ho.below, ho.key, ho.line,
      ho.width, ?_⟩ hkey hrest
    exact hkind ▸ ho.wider

/-- The innermost collection gets a node under a key. -/
theorem attach (h : stack.Spans lines before) (hkey : stack.top.Admits lines before key.line)
    (hmarks : ∀ mark ∈ node.marks, stack.top.Admits lines before mark.text.line)
    (hpairs : ∀ e ∈ node.pairs, Nests lines e.2) (hnode : Nests lines node) :
    (stack.withBlock (stack.top.block.attach key node)).Spans lines before := by
  refine h.withBlock (Block.isList_attach ..) (fun mark hm => ?_) (fun e he => ?_)
  · rcases List.mem_append.1 (Block.marks_attach_subset key node _ hm) with hm | hm
    · exact h.top.marks mark hm
    rcases List.mem_cons.1 hm with rfl | hm
    · exact hkey
    · exact hmarks mark hm
  · rcases Block.mem_pairs_attach he with he | he | rfl | ⟨he, -⟩
    · exact h.top.nests e he
    · exact hpairs e he
    · exact hnode
    · exact he ▸ hnode

/-- Closing the innermost collection keeps the spans. -/
theorem adopt {top owner : Frame} {rest : List Frame}
    (h : Spans lines before ⟨top, owner :: rest⟩) :
    Spans lines before ⟨owner.adopt top, rest⟩ := by
  cases h with
  | above hf ho hkey hrest =>
    refine hrest.attach hkey (fun mark hm => ?_) (by rw [Block.pairs_toNode]; exact hf.nests) ?_
    · -- What is inside of the collection is below its key.
      rw [Block.marks_toNode] at hm
      obtain ⟨hle, hseen⟩ := hf.marks mark hm
      have hkeyline : top.key.line ≤ top.line := by
        rw [ho.key, ho.line]
        exact Int.ofNat_le.2 (Nat.le_of_lt ho.below)
      exact ⟨Int.le_trans (Int.le_trans hkey.1 hkeyline) hle, hseen⟩
    · rw [ho.line]
      exact .collection ho.pair (hf.nested ho)

/-- One more line that no open collection is wider than. -/
theorem extend (h : stack.Spans lines before) (hordered : stack.Ordered)
    (hw : stack.top.width ≤ line.width) :
    stack.Spans lines (before ++ [line]) := by
  induction h with
  | document hf => exact .document (hf.extend hw)
  | above hf ho hkey _ ih =>
    have howner := hordered.owner_le
    cases hordered with
    | above _ hordered =>
      exact .above (hf.extend hw) ho (hkey.extend line) (ih hordered (Int.le_trans howner hw))

end Spans

end Stack

/-! ## The builder -/

namespace Builder

variable {b : Builder} {w : Waiting}

/-- The waiting key is on the last of the lines before, and this line is an entry if it is in a
list. -/
structure Awaits (lines before : List Line) (b : Builder) (w : Waiting) (k : Line) : Prop where
  skipped : b.skipped = none
  last : [k] <:+ before
  key : w.key.line = k.number
  width : w.width = k.width
  kind : b.stack.top.block.isList = k.isItem
  admits : b.stack.top.Admits lines before w.key.line

/-- The open collections span the lines before. Lines are only left out if they are wider than
these. -/
structure Spans (lines before : List Line) (b : Builder) : Prop where
  stack : b.stack.Spans lines before
  waiting : ∀ w, b.waiting = some w → ∃ k, b.Awaits lines before w k
  skipped : ∀ width, b.skipped = some width → b.stack.top.width ≤ width

/-- A waiting key that gets an empty map keeps the spans. -/
theorem Spans.sealed (h : b.Spans lines before) : b.sealed.Spans lines before := by
  unfold Builder.sealed
  split
  · next w hw =>
    obtain ⟨k, hk⟩ := h.waiting w hw
    exact h.stack.attach hk.admits nofun nofun (.empty _)
  · exact h.stack

/-- The line opens the collection of the waiting key. -/
theorem Awaits.opened (h : b.Awaits lines before w k)
    (hl : lines.Pairwise (fun l l' => l.number < l'.number))
    (hcut : lines = before ++ line :: after) (ho : w.opens b.stack.top.block line = true) :
    (opening line w.key).Opened lines k line := by
  obtain ⟨first, rfl⟩ := h.last
  have hpair : [k, line] <:+: lines := ⟨first, after, by rw [hcut]; simp⟩
  have hkind : (opening line w.key).block.isList = line.isItem := by
    unfold opening
    cases line.isItem <;> rfl
  refine ⟨hpair, lt_of_pair hl hpair, h.key, rfl, rfl, ?_⟩
  rw [hkind]
  simp only [Waiting.opens, h.width, h.kind, Bool.or_eq_true, Bool.and_eq_true, Bool.not_eq_true',
    decide_eq_true_eq] at ho
  rcases ho with hlt | ⟨⟨hi, hk⟩, heq⟩
  · exact .inl (by omega)
  · exact .inr ⟨by omega, hi, hk⟩

/-- A collection that is opened spans the lines before. -/
theorem opening_spans (hl : lines.Pairwise (fun l l' => l.number < l'.number))
    (hcut : lines = before ++ line :: after) (key : Tracked) :
    (opening line key).Spans lines before := by
  have hempty : (opening line key).block.marks = [] := by
    unfold opening
    cases line.isItem <;> rfl
  refine ⟨fun l hm hlt => mem_of_lt hl hcut hm (Int.ofNat_lt.1 hlt), fun l hm hle => ?_, ?_, ?_⟩
  · -- The lines before are all above.
    rw [hcut] at hl
    have hlt := (List.pairwise_append.1 hl).2.2 l hm line List.mem_cons_self
    have hle : (line.number : Int) ≤ l.number := hle
    omega
  · rw [hempty]
    exact nofun
  · rw [opening_pairs]
    exact nofun

/-- A waiting key that is settled by a line keeps the spans. -/
theorem Spans.settled (h : b.Spans lines before)
    (hl : lines.Pairwise (fun l l' => l.number < l'.number))
    (hcut : lines = before ++ line :: after) : (b.settled line).Spans lines before := by
  rcases b.settled_cases line with ⟨-, he⟩ | ⟨ho, w, hw, he⟩
  · exact he ▸ h.sealed
  · obtain ⟨k, hk⟩ := h.waiting w hw
    rw [opens, hw] at ho
    rw [he]
    exact .above (opening_spans hl hcut w.key) (hk.opened hl hcut ho) hk.admits h.stack

/-- The collections that a line is inside of span the lines up to it. -/
theorem Spans.reached (h : b.Spans lines before) (hsound : b.Sound)
    (hl : lines.Pairwise (fun l l' => l.number < l'.number))
    (hcut : lines = before ++ line :: after) :
    (b.reached line).Spans lines (before ++ [line]) := by
  have hreached : (b.reached line).Spans lines before :=
    reached_induction Stack.Spans.adopt (h.settled hl hcut)
  exact hreached.extend (hsound.reached_ordered line) (hsound.reached_top_le line)

/-- The collections that a line is placed into span the lines up to it. -/
theorem Spans.landing (h : b.Spans lines before) (hsound : b.Sound)
    (hl : lines.Pairwise (fun l l' => l.number < l'.number))
    (hcut : lines = before ++ line :: after) :
    (b.landing line).Spans lines (before ++ [line]) := by
  have hlanding : (b.landing line).Spans lines before :=
    landing_induction Stack.Spans.adopt (h.settled hl hcut)
  exact hlanding.extend (hsound.landing_ordered line) (hsound.landing_top_le line)

/-- What is on the line may be inside of the collection that it is placed in. -/
theorem Spans.landing_admits (h : b.Spans lines before)
    (hl : lines.Pairwise (fun l l' => l.number < l'.number))
    (hcut : lines = before ++ line :: after) :
    (b.landing line).top.Admits lines (before ++ [line]) line.number := by
  have hlanding : (b.landing line).Spans lines before :=
    landing_induction Stack.Spans.adopt (h.settled hl hcut)
  refine ⟨Int.not_lt.1 fun hlt => ?_,
    fun l hm hle => mem_concat_of_le hl hcut hm (Int.ofNat_le.1 hle)⟩
  have hmem := hlanding.top.opened line (by rw [hcut]; simp) hlt
  rw [hcut] at hl
  exact absurd ((List.pairwise_append.1 hl).2.2 line hmem line List.mem_cons_self)
    (Nat.lt_irrefl _)

/-- Without a waiting key and without lines to be left out only the stack matters. -/
theorem Spans.ofStack {stack : Stack} (h : stack.Spans lines before) (previous : Int) :
    Spans lines before { stack, previous } :=
  ⟨h, nofun, nofun⟩

end Builder

/-- Every move keeps that the open collections span the lines. -/
theorem Move.spans {b b' : Builder} {said : Log} (hm : Move b line b' said)
    (h : b.Spans lines before) (hsound : b.Sound)
    (hl : lines.Pairwise (fun l l' => l.number < l'.number))
    (hcut : lines = before ++ line :: after) : b'.Spans lines (before ++ [line]) := by
  have hland := h.landing hsound hl hcut
  have hadmits := h.landing_admits hl hcut
  cases hm with
  | skip hk =>
    unfold Builder.skips at hk
    split at hk
    · next width hs =>
      have hw : b.stack.top.width ≤ line.width :=
        Int.le_trans (h.skipped width hs) (Int.le_of_lt (of_decide_eq_true hk))
      -- No key waits while lines are skipped.
      refine ⟨h.stack.extend hsound.ordered hw, fun w hw => ?_, h.skipped⟩
      obtain ⟨k, hwait⟩ := h.waiting w hw
      exact nomatch hs.symm.trans hwait.skipped
    · cases hk
  | shrink =>
    refine ⟨h.reached hsound hl hcut, nofun, ?_⟩
    rintro _ ⟨⟩
    exact hsound.reached_top_le line
  | strayKey =>
    refine ⟨hland, nofun, ?_⟩
    rintro _ ⟨⟩
    exact hsound.landing_top_le line
  | orphanEntry | unread => exact .ofStack hland _
  | block _ _ hi hb | heading _ _ hi hb =>
    refine ⟨hland, ?_, nofun⟩
    rintro _ ⟨⟩
    exact ⟨line, rfl, List.suffix_append .., rfl, rfl, by rw [hi]; exact hb ▸ rfl, hadmits⟩
  | @scalar items _ _ _ hb =>
    have hmarks : (Block.list (items ++ [.scalar ⟨line.itemText, line.number⟩])).marks =
        (b.landing line).top.block.marks ++ [⟨.item, line.itemText, line.number⟩] := by
      rw [hb]
      exact itemMarks_append _ _
    have hpairs : (Block.list (items ++ [.scalar ⟨line.itemText, line.number⟩])).pairs =
        (b.landing line).top.block.pairs ++ [] := by
      rw [hb]
      exact itemPairs_append _ _
    have htop := hland.top
    refine .ofStack (hland.withBlock (hb ▸ rfl) ?_ ?_) _
    · rw [hmarks]
      exact List.forall_mem_append.2 ⟨htop.marks, List.forall_mem_singleton.2 hadmits⟩
    · rw [hpairs, List.append_nil]
      exact htop.nests
  | @inline entries key value _ _ _ hb =>
    have hvalue : ∀ mark ∈ (Node.scalar ⟨Text.trim value, line.number⟩).marks,
        (b.landing line).top.Admits lines (before ++ [line]) mark.text.line :=
      List.forall_mem_singleton.2 hadmits
    have hattach :
        ((b.landing line).withBlock ((b.landing line).top.block.attach ⟨Text.trim key, line.number⟩
        (.scalar ⟨Text.trim value, line.number⟩))).Spans lines (before ++ [line]) :=
      hland.attach hadmits hvalue nofun (.scalar _)
    rw [hb] at hattach
    exact .ofStack hattach _

/-! ## Runs -/

namespace Builder

/-- At the start only the document is open. -/
theorem Spans.start (lines : List Line) : Spans lines [] {} := by
  refine .ofStack (.document ⟨fun l _ hlt => ?_, List.forall_mem_nil _, List.forall_mem_nil _,
    List.forall_mem_nil _⟩) _
  have hlt : (l.number : Int) < -1 := hlt
  omega

/-- After any number of lines, the open collections span them. -/
theorem run_spans (hl : lines.Pairwise (fun l l' => l.number < l'.number))
    (hcut : lines = before ++ after) :
    (run {} before).1.Spans lines before := by
  refine prefix_induction (P := fun before => (run {} before).1.Spans lines before)
    (.start lines) ?_ hcut
  intro before line after hcut h
  rw [run_concat]
  exact ((run {} before).1.step_move line).spans h (run_sound before) hl hcut

/-- All collections of the document are nested. -/
theorem Spans.finish {b : Builder} (h : b.Spans lines before) :
    ∀ e ∈ b.finish.pairs, Nests lines e.2 := by
  have hdoc := (Stack.closeFrom_induction Stack.Spans.adopt (fun _ => true) h.sealed).top.nests
  rw [finish_eq_sealed]
  change ∀ e ∈ b.sealed.finish.pairs, Nests lines e.2 at hdoc
  generalize b.sealed.finish = block at hdoc
  cases block with
  | map entries => exact hdoc
  | list items => exact nofun

end Builder

/-- All that stands under a key of a document is nested as the lines are. -/
theorem ofLines_nests (hl : lines.Pairwise (fun l l' => l.number < l'.number)) :
    ∀ e ∈ (ofLines lines).1.pairs, Nests lines e.2 :=
  (Builder.run_spans hl (List.append_nil lines).symm).finish

/-! ## Scripts -/

/-- Blocks with the same node are the same, and so are their lines. -/
theorem Block.toNode_inj {block' : Block} {m m' : Int} (h : block.toNode m = block'.toNode m') :
    block = block' ∧ m = m' := by
  cases block <;> cases block' <;> cases h <;> exact ⟨rfl, rfl⟩

/-- A block whose node is an empty map has no entries. -/
theorem Block.isEmpty_of_toNode {m m' : Int} (h : block.toNode m = .map [] m') :
    block.isEmpty = true := by
  cases block <;> cases h
  rfl

/-- A collection that has entries begins on the line after the one that supplies it. -/
theorem Supplies.pair {s : Line} {m : Int} (h : Supplies lines s (block.toNode m))
    (hne : block.isEmpty = false) :
    ∃ next, [s, next] <:+: lines ∧ m = next.number := by
  generalize hnode : block.toNode m = node at h
  cases h with
  | value => cases block <;> cases hnode
  | empty => exact nomatch (Block.isEmpty_of_toNode hnode).symm.trans hne
  | collection block' hpair => exact ⟨_, hpair, (Block.toNode_inj hnode).2⟩

/-- A collection that is not empty is opened right below the line of its key. -/
theorem Nests.pair {m : Int} (h : Nests lines (block.toNode m)) (hne : block.isEmpty = false) :
    ∃ k o, [k, o] <:+: lines ∧ m = o.number ∧ block.Nested lines k o := by
  generalize hnode : block.toNode m = node at h
  cases h with
  | scalar => cases block <;> cases hnode
  | empty => exact nomatch (Block.isEmpty_of_toNode hnode).symm.trans hne
  | collection hpair hnested =>
    obtain ⟨rfl, rfl⟩ := Block.toNode_inj hnode
    exact ⟨_, _, hpair, rfl, hnested⟩

end Nesting

/-- If no key is repeated, a list or a map under a key that has entries is nested as the lines are:
it is opened below the line of its key, at a larger width or as a list at the width of a key that
is no entry of a list, and all that is inside of it is on lines that no line less wide separates
from the one that opened it. -/
theorem ofSource_nested (tab : Int) (t : Text) (h : (ofSource tab (Source.ofText t)).2.NoRepeat)
    {key : Tracked} {block : Block} {m : Int}
    (hmem : (key, block.toNode m) ∈ (ofSource tab (Source.ofText t)).1.pairs)
    (hne : block.isEmpty = false) :
    ∃ k ∈ lines tab (Source.ofText t), ∃ o ∈ lines tab (Source.ofText t), key.line = k.number ∧
      m = o.number ∧
      block.Nested (lines tab (Source.ofText t)) k o := by
  have hl := (linesFrom_increasing tab 0 (Source.ofText t).lines).1
  obtain ⟨s, hs, -, hsupplies, hkey⟩ := ofLines_supplied hl _ hmem
  obtain ⟨k, o, hpair, hm, hnested⟩ := (ofLines_nests hl _ hmem).pair hne
  obtain ⟨next, hpair', hm'⟩ := hsupplies.pair hne
  have hk : k ∈ lines tab (Source.ofText t) := hpair.subset List.mem_cons_self
  have ho : o ∈ lines tab (Source.ofText t) := hpair.subset (by simp)
  refine ⟨k, hk, o, ho, ?_, hm, hnested⟩
  rcases hkey with hkey | ⟨-, hreport⟩
  · -- Both lines are the one above the line that opens the collection.
    have hle := le_of_pair_of_lt hl hpair hs (by have := lt_of_pair hl hpair'; omega)
    have hge := le_of_pair_of_lt hl hpair' hk (by have := lt_of_pair hl hpair; omega)
    rw [hkey]
    exact congrArg Nat.cast (Nat.le_antisymm hle hge)
  · exact absurd rfl (h _ hreport)

/-- A script with a list at the width of its key, an entry that is too deep, a line at a width that
nothing has, a line under that one, and one more entry of the list. -/
def raggedScript : Text :=
  "r:\n  a:\n  - x\n      - y\n  - b:\n        c: 1\n     d: 2\n         e: 3\n  - z\ng: h".toList

/-- What stands under the second key of the script. -/
def raggedList : Block :=
  .list [.scalar ⟨['x'], 2⟩, .scalar ⟨['y'], 3⟩,
    .map [(⟨['b'], 4⟩, .map [(⟨['c'], 5⟩, .scalar ⟨['1'], 5⟩)] 5)] 4, .scalar ⟨['z'], 8⟩]

/-- The ragged list is in the document, under its key. -/
theorem mem_raggedScript_pairs :
    (⟨['a'], 1⟩, raggedList.toNode 2) ∈ (ofSource 4 (Source.ofText raggedScript)).1.pairs := by
  have hlines : lines 4 (Source.ofText raggedScript) =
      [⟨0, 0, "r:".toList⟩, ⟨1, 2, "a:".toList⟩, ⟨2, 2, "- x".toList⟩, ⟨3, 6, "- y".toList⟩,
        ⟨4, 2, "- b:".toList⟩, ⟨5, 8, "c: 1".toList⟩, ⟨6, 5, "d: 2".toList⟩, ⟨7, 9, "e: 3".toList⟩,
        ⟨8, 2, "- z".toList⟩,
        ⟨9, 0, "g: h".toList⟩] := by
    decide +kernel
  have hdocument : (ofSource 4 (Source.ofText raggedScript)).1 =
      [(⟨['r'], 0⟩, .map [(⟨['a'], 1⟩, raggedList.toNode 2)] 1),
        (⟨['g'], 9⟩, .scalar ⟨['h'], 9⟩)] := by
    rw [ofSource, hlines]
    rfl
  rw [hdocument]
  exact List.mem_cons_of_mem _ List.mem_cons_self

/-- The lines of the key and of its list, which is as wide as the key. -/
theorem ofSource_nested_ragged :
    (ofSource 4 (Source.ofText raggedScript)).2.NoRepeat ∧ raggedList.isEmpty = false ∧
      ∃ k ∈ lines 4 (Source.ofText raggedScript), ∃ o ∈ lines 4 (Source.ofText raggedScript),
        (1 : Int) = k.number ∧ (2 : Int) = o.number ∧
        raggedList.Nested (lines 4 (Source.ofText raggedScript)) k o := by
  have hlog : (ofSource 4 (Source.ofText raggedScript)).2.NoRepeat := by decide +kernel
  exact ⟨hlog, rfl, ofSource_nested 4 raggedScript hlog mem_raggedScript_pairs rfl⟩

end ScriptLint.Document
