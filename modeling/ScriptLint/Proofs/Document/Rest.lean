import ScriptLint.Proofs.Document.Order

/-!
# Where the next entry lands

While a collection is read, the builder may stand deep inside of one of its entries. It rests on
the collection (`Builder.Rests`) if the next entry of the collection closes all that was opened
since and lands in it. Then the step that reads this entry is `place` on the collection itself
(`Rests.step_eq`), whatever was open before. A builder that rests on a collection also rests on its
owner once the collection is closed into it (`Rests.close`); one that rests on the document has the
content of the document (`Rests.finish_eq`). At width zero every builder rests on the document
(`Sound.rests`).
-/

namespace ScriptLint.Document

/-- What is left of a stack where an entry of a list, or a key line, of some width is placed. -/
def Stack.landingAt (isItem : Bool) (width : Int) (s : Stack) : Stack :=
  if isItem then s.unwind width else (s.unwind width).closeLists width

/-- A line that closes the collections wider than `width` and the lists at it can as well close
them after a line at `width` has done so. -/
theorem Stack.closeFrom_landingAt {p : Frame → Bool} {isItem : Bool} {width : Int} (s : Stack)
    (hwide : ∀ f : Frame, width < f.width → p f = true)
    (hlist : ∀ f : Frame, isItem = false → f.width = width → p f = true) :
    closeFrom p (s.landingAt isItem width).top (s.landingAt isItem width).below =
      closeFrom p s.top s.below := by
  have hunwind := closeFrom_closeFrom (p := p) (q := fun f => width < f.width)
    (fun f hf => hwide f (of_decide_eq_true hf)) s.top s.below
  rw [landingAt]
  split
  · exact hunwind
  · next hi =>
    rw [← hunwind]
    exact closeFrom_closeFrom
      (fun f hf =>
        hlist f (by simpa using hi) (of_decide_eq_true (Bool.and_eq_true _ _ ▸ hf).2)) _ _

namespace Builder

variable {b : Builder} {line : Line} {s : Stack}

/-- The next entry of the innermost collection of `s` lands in it. -/
structure Rests (b : Builder) (s : Stack) : Prop where
  sound : b.Sound
  width_le : s.top.width ≤ b.previous
  le_skipped : ∀ width, b.skipped = some width → s.top.width ≤ width
  lands : b.sealed.landingAt s.top.block.isList s.top.width = s

/-- Giving the waiting key an empty map does not change the kind of the innermost collection. -/
theorem isList_sealed (b : Builder) : b.sealed.top.block.isList = b.stack.top.block.isList := by
  unfold sealed
  split
  · exact Block.isList_attach _ _ _
  · rfl

/-- A line that begins no collection unwinds the stack to its width. -/
theorem Sound.reached_eq_unwind (h : b.Sound) (ho : b.opens line = false) :
    b.reached line = b.sealed.unwind line.width := by
  rw [reached, settled_of_not_opens ho]
  split
  · rfl
  · next hge =>
    have htop : b.sealed.top.width ≤ line.width := by
      rw [Sound.sealed_top]
      exact Int.le_trans h.top_le (Int.not_lt.1 hge)
    exact (Stack.closeFrom_of_not (decide_eq_false (Int.not_lt.2 htop)) _).symm

namespace Rests

/-- The stack that the builder rests on is in order. -/
theorem ordered (h : b.Rests s) : s.Ordered := by
  rw [← h.lands, Stack.landingAt]
  split
  · exact h.sound.sealed_ordered.closeFrom _
  · exact (h.sound.sealed_ordered.closeFrom _).closeFrom _

/-- The next entry belongs to no line that was left out. -/
theorem skips_eq_false (h : b.Rests s) (hw : (line.width : Int) = s.top.width) :
    b.skips line = false := by
  unfold skips
  split
  · next width hs =>
    have := h.le_skipped width hs
    exact decide_eq_false (by omega)
  · rfl

/-- The next entry does not begin the collection of a waiting key: such a key is at least as deep,
and if it has the width of a list of which the line is an entry, it is in that list itself. -/
theorem opens_eq_false (h : b.Rests s) (hw : (line.width : Int) = s.top.width)
    (hi : line.isItem = s.top.block.isList) : b.opens line = false := by
  unfold opens
  split
  · next w hwt =>
    have hwp := h.sound.waiting_width w hwt
    have hle := h.width_le
    have htop := h.sound.top_le
    have hdeep : decide (w.width < line.width) = false := decide_eq_false (by omega)
    rw [Waiting.opens, hdeep, Bool.false_or]
    cases hl : line.isItem with
    | false => rfl
    | true =>
    cases hp : b.stack.top.block.isList with
    | true => rfl
    | false =>
      refine decide_eq_false fun heq => ?_
      -- All that is open fits the width of the line, so the key is in the list already.
      have hsame : b.sealed.unwind s.top.width = b.sealed :=
        Stack.closeFrom_of_not (decide_eq_false (by rw [Sound.sealed_top]; omega)) _
      have hs : b.sealed = s := by
        have := h.lands
        rwa [← hi, hl, Stack.landingAt, if_pos rfl, hsame] at this
      have : s.top.block.isList = false := by rw [← hs, isList_sealed, hp]
      rw [← hi, hl] at this
      cases this
  · rfl

/-- A line at the width of the innermost collection, and of its kind, closes what is wider. -/
theorem reached_eq (h : b.Rests s) (hw : (line.width : Int) = s.top.width)
    (hi : line.isItem = s.top.block.isList) : b.reached line = b.sealed.unwind s.top.width := by
  rw [h.sound.reached_eq_unwind (h.opens_eq_false hw hi), hw]

/-- The next entry is placed in the collection. -/
theorem landing_eq (h : b.Rests s) (hw : (line.width : Int) = s.top.width)
    (hi : line.isItem = s.top.block.isList) : b.landing line = s := by
  have := h.lands
  rwa [← hi, ← hw, Stack.landingAt, hw, ← h.reached_eq hw hi, ← hw] at this

/-- The next entry is at the width of an open collection. -/
theorem shrinks_eq_false (h : b.Rests s) (hw : (line.width : Int) = s.top.width)
    (hi : line.isItem = s.top.block.isList) : b.shrinks line = false := by
  have hl := h.landing_eq hw hi
  rw [landing] at hl
  have hwidth : (b.reached line).top.width = line.width := by
    split at hl
    · rw [hl, hw]
    · rw [Stack.closeLists] at hl
      cases hp : (b.reached line).top.block.isList &&
        decide ((b.reached line).top.width = line.width) with
      | true => exact of_decide_eq_true (Bool.and_eq_true _ _ ▸ hp).2
      | false =>
        rw [Stack.closeFrom_of_not hp] at hl
        rw [hw, ← hl]
  simp [shrinks, hwidth]

/-- Reading the next entry places it on the collection, whatever was open before. -/
theorem step_eq (h : b.Rests s) (hw : (line.width : Int) = s.top.width)
    (hi : line.isItem = s.top.block.isList) :
    b.step line = ((place s false line).1, b.waitingLog ++ (place s false line).2) := by
  have hgrow : b.grows line = false := by
    have := h.width_le
    rw [grows, decide_eq_false (by omega), Bool.false_and]
  have hplace : place (b.reached line) false line = place s false line := by
    have hl := h.landing_eq hw hi
    rw [landing] at hl
    unfold place
    split at hl
    · next hitem => rw [if_pos hitem, if_pos hitem, hl]
    · next hkey =>
      have hmap : s.top.block.isList = false := by rw [← hi]; simpa using hkey
      have hs : s.closeLists line.width = s := Stack.closeFrom_of_not (by simp [hmap]) _
      rw [if_neg hkey, if_neg hkey, placeKey, placeKey, hl, hs]
  rw [step_of_places (h.skips_eq_false hw) (h.shrinks_eq_false hw hi), hgrow, hplace]

/-- A builder that rests on a collection also rests on its owner after the collection is closed. -/
theorem close {top owner : Frame} {rest : List Frame} (h : b.Rests ⟨top, owner :: rest⟩) :
    b.Rests ⟨owner.adopt top, rest⟩ := by
  have ho := h.ordered
  refine ⟨h.sound, Int.le_trans ho.owner_le h.width_le,
    fun w hw => Int.le_trans ho.owner_le (h.le_skipped w hw), ?_⟩
  have hl := h.lands
  simp only [Frame.adopt_width, Frame.adopt_block, Block.isList_attach] at hl ⊢
  have hstop : owner.block.isList = false → ∀ width,
      (⟨owner.adopt top, rest⟩ : Stack).closeLists width = ⟨owner.adopt top, rest⟩ :=
    fun hm width => Stack.closeFrom_of_not (by simp [hm]) _
  cases ho with
  | above ha _ =>
  rcases ha with hlt | ⟨heq, htl, hom⟩
  · -- The owner is less wide: unwinding to its width closes the collection and all inside of it.
    have hun : b.sealed.unwind owner.width = ⟨owner.adopt top, rest⟩ := by
      rw [Stack.unwind, ← Stack.closeFrom_landingAt b.sealed
        (fun f hf => decide_eq_true (Int.lt_trans hlt hf))
        (fun f _ hf => decide_eq_true (hf ▸ hlt)),
        hl, Stack.closeFrom_of_pos (decide_eq_true hlt), Stack.closeFrom_of_not (by simp)]
    rw [Stack.landingAt, hun]
    split
    · rfl
    · next hm => exact hstop (by simpa using hm) _
  · -- The list is at the width of its owner: the next key line closes it.
    rw [htl, Stack.landingAt, if_pos rfl] at hl
    rw [hom, Stack.landingAt, if_neg (by simp), heq, hl, Stack.closeLists,
      Stack.closeFrom_of_pos (by simp [htl])]
    exact hstop hom _

/-- Resting on the document, the builder has its content. -/
theorem finish_eq {f : Frame} {entries : Entries} (h : b.Rests ⟨f, []⟩)
    (hf : f.block = .map entries) :
    b.finish = entries := by
  have hall : Stack.closeFrom (fun _ => true) b.sealed.top b.sealed.below = ⟨f, []⟩ := by
    rw [← Stack.closeFrom_landingAt b.sealed (fun _ _ => rfl) (fun _ _ _ => rfl), h.lands]
    rfl
  rw [finish_eq_sealed, Stack.finish, hall, hf]
  rfl

end Rests

/-- The document with all that is open in it closed. -/
def document (b : Builder) : Stack := Stack.closeFrom (fun _ => true) b.sealed.top b.sealed.below

/-- Once all is closed, the document is left. -/
theorem Sound.isDocument (h : b.Sound) : ∃ f, b.document = ⟨f, []⟩ ∧ f.IsDocument := by
  have ho : b.document.Ordered := h.sealed_ordered.closeFrom _
  have hb : b.document.below = [] := Stack.closeFrom_true_below _ _
  generalize b.document = s at ho hb
  cases ho with
  | document hf => exact ⟨_, rfl, hf⟩
  | above => cases hb

/-- At width zero the builder rests on the document. -/
theorem Sound.rests (h : b.Sound) : b.Rests b.document := by
  obtain ⟨f, hd, hf⟩ := h.isDocument
  have hw : b.document.top.width = 0 := by rw [hd]; exact hf.width
  have hm : b.document.top.block.isList = false := by rw [hd]; exact hf.isMap
  refine ⟨h, hw ▸ h.previous_nonneg, fun w hs => hw ▸ h.skipped_nonneg w hs, ?_⟩
  rw [hm, hw, Stack.landingAt, if_neg (by simp), h.sealed_ordered.closeLists_unwind_zero]
  rfl

/-- The document has the content that the builder ends with. -/
theorem Sound.document_eq (h : b.Sound) :
    b.document = ⟨{ Stack.new.top with block := .map b.finish }, []⟩ := by
  obtain ⟨f, hd, hf⟩ := h.isDocument
  have hr := h.rests
  obtain ⟨width, line, key, block⟩ := f
  obtain ⟨rfl, rfl, rfl, hm⟩ := hf
  cases block with
  | list items => cases hm
  | map entries =>
    rw [hd] at hr ⊢
    rw [hr.finish_eq rfl]
    rfl

end Builder

end ScriptLint.Document
