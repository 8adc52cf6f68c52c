import ScriptLint.Proofs.Document.Move

/-!
# The order of the open collections

The stack is reached from the one before by closing collections, by giving the waiting key an empty
map, and by opening its collection. `closeFrom_induction`, `reached_induction` and
`landing_induction` turn a property that these three keep into one of the stack a line is placed
on.

The first such property is the order of widths. The map of the document is at the bottom, at width
zero; every other collection is wider than the one below it, or is a list at the width of a map
(`Stack.Ordered`). Together with what the builder knows of the line before, this is kept by every
move (`Builder.Sound`, `Move.sound`), so it holds after every run (`Builder.run_sound`).
-/

namespace ScriptLint.Document

/-! ## Closing collections -/

namespace Frame

@[simp] theorem adopt_width (owner closed : Frame) :
    (owner.adopt closed).width = owner.width := rfl

@[simp] theorem adopt_line (owner closed : Frame) : (owner.adopt closed).line = owner.line := rfl

@[simp] theorem adopt_key (owner closed : Frame) : (owner.adopt closed).key = owner.key := rfl

@[simp] theorem adopt_block (owner closed : Frame) :
    (owner.adopt closed).block =
      owner.block.attach closed.key (closed.block.toNode closed.line) := rfl

end Frame

@[simp] theorem Block.isList_attach (key : Tracked) (node : Node) (block : Block) :
    (block.attach key node).isList = block.isList := by
  cases block <;> rfl

namespace Stack

/-- A collection that does not satisfy the condition stays open. -/
theorem closeFrom_of_not {p : Frame → Bool} {top : Frame} (h : p top = false)
    (below : List Frame) :
    closeFrom p top below = ⟨top, below⟩ := by
  cases below with
  | nil => rfl
  | cons owner rest => rw [closeFrom, if_neg (by simp [h])]

/-- A collection that satisfies the condition is closed into its owner. -/
theorem closeFrom_of_pos {p : Frame → Bool} {top : Frame} (h : p top = true) (owner : Frame)
    (rest : List Frame) :
    closeFrom p top (owner :: rest) = closeFrom p (owner.adopt top) rest := by
  rw [closeFrom, if_pos h]

/-- What closing one collection keeps, closing several keeps. -/
theorem closeFrom_induction {P : Stack → Prop}
    (hclose : ∀ {top owner : Frame} {rest : List Frame},
      P ⟨top, owner :: rest⟩ → P ⟨owner.adopt top, rest⟩)
    (p : Frame → Bool) {top : Frame} {below : List Frame} (h : P ⟨top, below⟩) :
    P (closeFrom p top below) := by
  induction below generalizing top with
  | nil => exact h
  | cons owner rest ih =>
    rw [closeFrom]
    split
    · exact ih (hclose h)
    · exact h

/-- Closing first under a stronger condition makes no difference. -/
theorem closeFrom_closeFrom {p q : Frame → Bool} (h : ∀ f, q f = true → p f = true) (top : Frame)
    (below : List Frame) :
    closeFrom p (closeFrom q top below).top (closeFrom q top below).below =
      closeFrom p top below := by
  induction below generalizing top with
  | nil => rfl
  | cons owner rest ih =>
    cases hq : q top with
    | false => rw [closeFrom_of_not hq]
    | true => rw [closeFrom_of_pos hq, closeFrom_of_pos (h top hq), ih]

/-- Closing without a condition leaves the bottom only. -/
theorem closeFrom_true_below (top : Frame) (below : List Frame) :
    (closeFrom (fun _ => true) top below).below = [] := by
  induction below generalizing top with
  | nil => rfl
  | cons owner rest ih => rw [closeFrom_of_pos rfl]; exact ih _

end Stack

/-! ## The order of widths -/

/-- The frame is the one of the document. -/
structure Frame.IsDocument (f : Frame) : Prop where
  width : f.width = 0
  line : f.line = -1
  key : f.key = ⟨[], -1⟩
  isMap : f.block.isList = false

/-- A frame may stand directly above another one. -/
def Frame.Above (f g : Frame) : Prop :=
  g.width < f.width ∨ g.width = f.width ∧ f.block.isList = true ∧ g.block.isList = false

/-- The document is at the bottom, and each frame may stand above the next. -/
inductive Stack.Ordered : Stack → Prop
  | document {f : Frame} : f.IsDocument → Ordered ⟨f, []⟩
  | above {f g : Frame} {rest : List Frame} : f.Above g → Ordered ⟨g, rest⟩ →
      Ordered ⟨f, g :: rest⟩

namespace Stack.Ordered

/-- The stack of the document alone is ordered. -/
theorem new : Ordered Stack.new := .document ⟨rfl, rfl, rfl, rfl⟩

/-- The order only depends on width and kind of the innermost collection. -/
theorem congr_top {f f' : Frame} {below : List Frame} (h : Ordered ⟨f, below⟩)
    (hw : f'.width = f.width) (hl : f'.line = f.line) (hk : f'.key = f.key)
    (hb : f'.block.isList = f.block.isList) : Ordered ⟨f', below⟩ := by
  cases h with
  | document hd =>
    exact .document ⟨hw.trans hd.width, hl.trans hd.line, hk.trans hd.key, hb.trans hd.isMap⟩
  | above ha hr => exact .above (by rw [Frame.Above, hw, hb]; exact ha) hr

/-- A change to the innermost collection keeps the order, if its kind stays. -/
theorem withBlock {s : Stack} {block : Block} (h : s.Ordered)
    (hb : block.isList = s.top.block.isList) : (s.withBlock block).Ordered :=
  congr_top h rfl rfl rfl hb

/-- Closing the innermost collection keeps the order. -/
theorem adopt {top owner : Frame} {rest : List Frame} (h : Ordered ⟨top, owner :: rest⟩) :
    Ordered ⟨owner.adopt top, rest⟩ := by
  cases h with
  | above _ hr => exact congr_top hr rfl rfl rfl (by simp)

/-- Closing collections keeps the order. -/
theorem closeFrom (p : Frame → Bool) {s : Stack} (h : s.Ordered) :
    (closeFrom p s.top s.below).Ordered :=
  closeFrom_induction adopt p h

/-- No open collection has a negative width. -/
theorem top_nonneg {s : Stack} (h : s.Ordered) : 0 ≤ s.top.width := by
  induction h with
  | document hd => exact Int.le_of_eq hd.width.symm
  | above ha _ ih =>
    rcases ha with ha | ⟨ha, -⟩
    · exact Int.le_of_lt (Int.lt_of_le_of_lt ih ha)
    · exact ha ▸ ih

/-- A collection is at least as wide as its owner. -/
theorem owner_le {top owner : Frame} {rest : List Frame} (h : Ordered ⟨top, owner :: rest⟩) :
    owner.width ≤ top.width := by
  cases h with
  | above ha _ => rcases ha with ha | ⟨ha, -⟩ <;> omega

/-- Closing collections leads to no wider one. -/
theorem closeFrom_top_le (p : Frame → Bool) {s : Stack} (h : s.Ordered) :
    (Stack.closeFrom p s.top s.below).top.width ≤ s.top.width := by
  have : ∀ {top owner : Frame} {rest : List Frame},
      Ordered ⟨top, owner :: rest⟩ ∧ top.width ≤ s.top.width →
      Ordered ⟨owner.adopt top, rest⟩ ∧ (owner.adopt top).width ≤ s.top.width :=
    fun ⟨ho, hw⟩ => ⟨ho.adopt, Int.le_trans ho.owner_le hw⟩
  exact (closeFrom_induction (P := fun t => t.Ordered ∧ t.top.width ≤ s.top.width) this p
    ⟨h, Int.le_refl _⟩).2

/-- After unwinding no open collection is wider. -/
theorem unwind_top_le {s : Stack} (h : s.Ordered) {width : Int} (hw : 0 ≤ width) :
    (s.unwind width).top.width ≤ width := by
  obtain ⟨top, below⟩ := s
  induction below generalizing top with
  | nil =>
    cases h with
    | document hd => exact Int.le_trans (Int.le_of_eq hd.width) hw
  | cons owner rest ih =>
    cases hp : decide (width < top.width) with
    | true => rw [unwind, closeFrom_of_pos hp]; exact ih _ h.adopt
    | false => rw [unwind, closeFrom_of_not hp]; exact Int.not_lt.1 (of_decide_eq_false hp)

/-- The stack only holds the document once all that is wider than nothing, and then the lists that
are not, are closed. -/
theorem closeLists_unwind_zero {s : Stack} (h : s.Ordered) :
    (s.unwind 0).closeLists 0 = Stack.closeFrom (fun _ => true) s.top s.below := by
  obtain ⟨top, below⟩ := s
  induction below generalizing top with
  | nil => rfl
  | cons owner rest ih =>
    rw [closeFrom_of_pos rfl, ← ih _ h.adopt]
    cases hp : decide (0 < top.width) with
    | true => rw [unwind, closeFrom_of_pos hp]; rfl
    | false =>
      -- A collection at width zero is a list, and below it there is a map at width zero.
      have h0 : top.width = 0 :=
        Int.le_antisymm (Int.not_lt.1 (of_decide_eq_false hp)) h.top_nonneg
      cases h with
      | above ha hr =>
      rcases ha with ha | ⟨ha, hl, hm⟩
      · exact absurd (Int.lt_of_le_of_lt hr.top_nonneg ha) (Int.not_lt.2 (Int.le_of_eq h0))
      · have hq : ((owner.adopt top).block.isList &&
            decide ((owner.adopt top).width = 0)) = false := by
          simp [hm]
        have ho : decide (0 < (owner.adopt top).width) = false :=
          decide_eq_false (Int.not_lt.2 (Int.le_of_eq (ha.trans h0)))
        rw [unwind, closeFrom_of_not hp, unwind, closeFrom_of_not ho, closeLists, closeLists,
          closeFrom_of_pos (by simp [hl, h0])]

end Stack.Ordered

/-! ## The stack a line is placed on -/

namespace Builder

variable {b : Builder} {line : Line}

/-- The frame of the collection that a line begins under a key. -/
def opening (line : Line) (key : Tracked) : Frame :=
  ⟨line.width, line.number, key, if line.isItem then .list [] else .map []⟩

/-- The waiting key gets an empty map, or the line begins its collection. -/
theorem settled_cases (b : Builder) (line : Line) :
    b.opens line = false ∧ b.settled line = b.sealed ∨
    b.opens line = true ∧ ∃ w, b.waiting = some w ∧
      b.settled line = b.stack.push (opening line w.key) := by
  unfold opens settled sealed
  cases b.waiting with
  | none => exact .inl ⟨rfl, rfl⟩
  | some w =>
    simp only [settle]
    cases h : w.opens b.stack.top.block line with
    | false => exact .inl ⟨rfl, rfl⟩
    | true => exact .inr ⟨rfl, w, rfl, rfl⟩

/-- A line only begins the collection of a key that waits. -/
theorem waiting_of_opens (h : b.opens line = true) : ∃ w, b.waiting = some w := by
  unfold opens at h
  split at h
  · next w hw => exact ⟨w, hw⟩
  · cases h

/-- A key whose collection does not begin gets an empty map. -/
theorem settled_of_not_opens (h : b.opens line = false) : b.settled line = b.sealed := by
  rcases b.settled_cases line with ⟨-, he⟩ | ⟨ho, -⟩
  · exact he
  · rw [h] at ho
    cases ho

/-- A key whose collection begins opens it on the line. -/
theorem settled_of_opens {w : Waiting} (h : b.opens line = true) (hw : b.waiting = some w) :
    b.settled line = b.stack.push (opening line w.key) := by
  rcases b.settled_cases line with ⟨hn, -⟩ | ⟨-, w', hw', he⟩
  · rw [h] at hn
    cases hn
  · rw [hw] at hw'
    cases hw'
    exact he

/-- A property that is kept when the waiting key is settled and when a collection is closed holds
of the stack that a line reaches. -/
theorem reached_induction {P : Stack → Prop}
    (hclose : ∀ {top owner : Frame} {rest : List Frame},
      P ⟨top, owner :: rest⟩ → P ⟨owner.adopt top, rest⟩)
    (hsettle : P (b.settled line)) : P (b.reached line) := by
  rw [reached]
  split
  · exact Stack.closeFrom_induction hclose _ hsettle
  · exact hsettle

/-- The same of the stack that a line is placed on. -/
theorem landing_induction {P : Stack → Prop}
    (hclose : ∀ {top owner : Frame} {rest : List Frame},
      P ⟨top, owner :: rest⟩ → P ⟨owner.adopt top, rest⟩)
    (hsettle : P (b.settled line)) : P (b.landing line) := by
  have h : P (b.reached line) := reached_induction hclose hsettle
  rw [landing]
  split
  · exact h
  · exact Stack.closeFrom_induction hclose _ h

/-- What the builder knows of the open collections and of the line before. -/
structure Sound (b : Builder) : Prop where
  ordered : b.stack.Ordered
  top_le : b.stack.top.width ≤ b.previous
  waiting_width : ∀ w, b.waiting = some w → w.width = b.previous
  skipped_nonneg : ∀ w, b.skipped = some w → 0 ≤ w

namespace Sound

/-- A builder without a waiting key that skips nothing only has its stack to be in order. -/
theorem ofStack {s : Stack} (ho : s.Ordered) {previous : Int} (hle : s.top.width ≤ previous) :
    Sound { stack := s, previous } :=
  ⟨ho, hle, nofun, nofun⟩

/-- The builder that has read nothing is sound. -/
theorem new : Sound {} := ofStack Stack.Ordered.new (Int.le_refl _)

/-- A waiting key that gets an empty map keeps the order. -/
theorem sealed_ordered (h : b.Sound) : b.sealed.Ordered := by
  unfold sealed
  split
  · exact h.ordered.withBlock (by simp)
  · exact h.ordered

/-- A waiting key that gets an empty map keeps the innermost width. -/
theorem sealed_top (b : Builder) : b.sealed.top.width = b.stack.top.width := by
  unfold sealed
  split <;> rfl

/-- The width of the line before is not negative. -/
theorem previous_nonneg (h : b.Sound) : 0 ≤ b.previous :=
  Int.le_trans h.ordered.top_nonneg h.top_le

/-- A line that begins a collection is at least as deep as its key. -/
theorem previous_le_of_opens (h : b.Sound) (ho : b.opens line = true) :
    b.previous ≤ line.width := by
  unfold opens at ho
  split at ho
  · next w hw =>
    rw [← h.waiting_width w hw]
    simp only [Waiting.opens, Bool.or_eq_true, Bool.and_eq_true, decide_eq_true_eq] at ho
    rcases ho with ho | ⟨-, ho⟩ <;> omega
  · cases ho

/-- The collection that a line begins may stand above the innermost one. -/
theorem opening_above (h : b.Sound) {w : Waiting} (hw : b.waiting = some w)
    (ho : b.opens line = true) : (opening line w.key).Above b.stack.top := by
  have hwp := h.waiting_width w hw
  have htop := h.top_le
  simp only [opens, hw, Waiting.opens, Bool.or_eq_true, Bool.and_eq_true, Bool.not_eq_true',
    decide_eq_true_eq] at ho
  rcases ho with ho | ⟨⟨hi, hm⟩, ho⟩
  · exact .inl (by simp only [opening]; omega)
  · rcases Int.lt_or_eq_of_le htop with hlt | heq
    · exact .inl (by simp only [opening]; omega)
    · exact .inr ⟨by simp only [opening]; omega, by simp [opening, hi, Block.isList], hm⟩

/-- A waiting key that is settled by a line keeps the order. -/
theorem settled_ordered (h : b.Sound) (line : Line) : (b.settled line).Ordered := by
  rcases b.settled_cases line with ⟨-, he⟩ | ⟨ho, w, hw, he⟩
  · exact he ▸ h.sealed_ordered
  · exact he ▸ .above (h.opening_above hw ho) h.ordered

/-- The collections that a line is inside of are ordered. -/
theorem reached_ordered (h : b.Sound) (line : Line) : (b.reached line).Ordered :=
  reached_induction Stack.Ordered.adopt (h.settled_ordered line)

/-- The collections that a line is placed into are ordered. -/
theorem landing_ordered (h : b.Sound) (line : Line) : (b.landing line).Ordered :=
  landing_induction Stack.Ordered.adopt (h.settled_ordered line)

/-- The collection that a line reaches is at most as wide as the line. -/
theorem reached_top_le (h : b.Sound) (line : Line) : (b.reached line).top.width ≤ line.width := by
  rw [reached]
  split
  · exact (h.settled_ordered line).unwind_top_le (Int.natCast_nonneg _)
  · next hge =>
    rcases b.settled_cases line with ⟨-, he⟩ | ⟨-, w, -, he⟩
    · rw [he, sealed_top]
      exact Int.le_trans h.top_le (Int.not_lt.1 hge)
    · rw [he]
      exact Int.le_refl _

/-- A line is at least as wide as the collection it is placed into. -/
theorem landing_top_le (h : b.Sound) (line : Line) : (b.landing line).top.width ≤ line.width := by
  rw [landing]
  split
  · exact h.reached_top_le line
  · exact Int.le_trans ((h.reached_ordered line).closeFrom_top_le _) (h.reached_top_le line)

end Sound

end Builder

/-- Every move keeps the order. -/
theorem Move.sound {b b' : Builder} {line : Line} {log : Log} (hm : Move b line b' log)
    (h : b.Sound) : b'.Sound := by
  have hl := h.landing_ordered line
  have ht := h.landing_top_le line
  cases hm with
  | skip => exact h
  | shrink => exact ⟨h.reached_ordered line, h.reached_top_le line, nofun, by rintro _ ⟨⟩; omega⟩
  | orphanEntry | unread => exact .ofStack hl ht
  | block | heading => exact ⟨hl, ht, by rintro _ ⟨⟩; rfl, nofun⟩
  | scalar _ _ _ hb => exact .ofStack (hl.withBlock (by rw [hb]; rfl)) ht
  | strayKey => exact ⟨hl, ht, nofun, by rintro _ ⟨⟩; omega⟩
  | inline _ _ _ hb => exact .ofStack (hl.withBlock (by rw [hb]; rfl)) ht

/-- The order holds after every run. -/
theorem Builder.run_sound (lines : List Line) : (Builder.run {} lines).1.Sound :=
  run_induction Move.sound Sound.new lines

end ScriptLint.Document
