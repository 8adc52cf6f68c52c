import ScriptLint.Proofs.Document.Gather

/-!
# Where the keys of a document come from

The keys at the top of a document are those of the key lines that are placed when nothing but the
document is open (`ofLines_gathered`). A line that is not indented is such a line. An indented line
may be one too (`Builder.Strays`): after a value, or after a line that was left out, nothing but
the document may be open, and what is deeper than nothing still goes into it; and a key line at the
width of the entries of a list closes the list, even if the key that owns the list is less deep.
Apart from these two cases, every key at the top is on a line that is not indented
(`ofSource_containers`).
-/

namespace ScriptLint.Document

/-! ## Lines that land on the document -/

/-- The key line lands on the document although it may be indented. -/
inductive Builder.Strays (b : Builder) (line : Line) : Prop
  /-- Nothing but the document is open, the line is not less deep than the one before, and no
  waiting key gets its collection from it. -/
  | outside : b.stack.below = [] → b.previous ≤ line.width → b.opens line = false → Strays b line
  /-- The line is at the width of the entries of a list that a key of the document owns. -/
  | besideEntries {document : Frame} : (b.reached line).below = [document] →
      (b.reached line).top.block.isList = true → (b.reached line).top.width = line.width →
      Strays b line

/-- A key line at the width of a list closes this list only. -/
theorem Stack.Ordered.closeLists_of_list {top owner : Frame} {rest : List Frame} {width : Int}
    (h : Ordered ⟨top, owner :: rest⟩) (hl : top.block.isList = true) (hw : top.width = width) :
    closeLists width ⟨top, owner :: rest⟩ = ⟨owner.adopt top, rest⟩ := by
  rw [closeLists, closeFrom_of_pos (by simp [hl, hw])]
  -- The owner is less wide, or it is a map.
  refine closeFrom_of_not ?_ _
  cases h with
  | above ha _ =>
    rcases ha with hlt | ⟨-, -, hm⟩
    · have hne : owner.width ≠ width := by omega
      simp [hne]
    · simp [hm]

/-- A key line that lands on the document although it is indented strays: no collection is open
but the document, or it stands beside the entries of a list of the document. -/
theorem Builder.Sound.strays_of_landing {b : Builder} {line : Line} (h : b.Sound)
    (hs : b.shrinks line = false)
    (hlanding : b.landing line = (b.reached line).closeLists line.width)
    (hbelow : (b.landing line).below = []) (hw : line.width ≠ 0) : b.Strays line := by
  have hordered := h.reached_ordered line
  rw [hlanding] at hbelow
  generalize hr : b.reached line = s at hordered hbelow
  cases hordered with
  | @document f hd =>
    by_cases hlt : (line.width : Int) < b.previous
    · -- The document is the collection that has the width of the line.
      have hwidth : f.width = line.width := by simpa [shrinks, hlt, hr] using hs
      exact absurd (Int.ofNat_eq_zero.1 (hwidth.symm.trans hd.width)) hw
    · rw [reached, if_neg hlt] at hr
      -- A collection that the line opened would have the document below it.
      rcases b.settled_cases line with ⟨hopens, he⟩ | ⟨-, w, -, he⟩
      · have hstack : b.stack.below = b.sealed.below := by
          unfold sealed
          split <;> rfl
        refine .outside ?_ (Int.not_lt.1 hlt) hopens
        rw [hstack, ← he, hr]
      · rw [he] at hr
        cases hr
  | @above top owner rest ha ho =>
    cases hp : top.block.isList && decide (top.width = line.width) with
    | false =>
      rw [Stack.closeLists, Stack.closeFrom_of_not hp] at hbelow
      cases hbelow
    | true =>
      obtain ⟨hl, hw⟩ := Bool.and_eq_true _ _ ▸ hp
      have hw := of_decide_eq_true hw
      rw [Stack.Ordered.closeLists_of_list (.above ha ho) hl hw] at hbelow
      obtain rfl : rest = [] := hbelow
      exact .besideEntries (by rw [hr]) (by rw [hr]; exact hl) (by rw [hr]; exact hw)

/-- A key line that strays lands on the document. -/
theorem Builder.Sound.landing_of_strays {b : Builder} {line : Line} (h : b.Sound)
    (hlanding : b.landing line = (b.reached line).closeLists line.width)
    (hstrays : b.Strays line) : (b.landing line).below = [] := by
  have hordered := h.reached_ordered line
  rw [hlanding]
  cases hstrays with
  | outside hb hle hopens =>
    have hreached : (b.reached line).below = [] := by
      rw [reached, if_neg (Int.not_lt.2 hle), settled_of_not_opens hopens]
      unfold sealed
      split <;> exact hb
    generalize b.reached line = s at hreached
    obtain ⟨top, below⟩ := s
    obtain rfl : below = [] := hreached
    rfl
  | @besideEntries document hb hl hw =>
    generalize b.reached line = s at hordered hb hl hw
    obtain ⟨top, below⟩ := s
    obtain rfl : below = [document] := hb
    rw [hordered.closeLists_of_list hl hw]

/-- A key line that fits an open collection lands on the document exactly if it is not indented or
strays. -/
theorem Builder.Sound.landing_below_eq_nil {b : Builder} {line : Line} (h : b.Sound)
    (hs : b.shrinks line = false) (hi : line.isItem = false) :
    (b.landing line).below = [] ↔ line.width = 0 ∨ b.Strays line := by
  have hlanding : b.landing line = (b.reached line).closeLists line.width := by
    rw [landing, if_neg (by simp [hi])]
  refine ⟨fun hbelow => ?_, ?_⟩
  · by_cases hw : line.width = 0
    · exact .inl hw
    · exact .inr (h.strays_of_landing hs hlanding hbelow hw)
  · rintro (hzero | hstrays)
    · obtain ⟨f, hd, hf⟩ := h.isDocument
      have hw : (line.width : Int) = b.document.top.width := by
        rw [hd, hf.width, hzero]
        rfl
      have hm : line.isItem = b.document.top.block.isList := by
        rw [hi, hd]
        exact hf.isMap.symm
      rw [h.rests.landing_eq hw hm, hd]
    · exact h.landing_of_strays hlanding hstrays

/-! ## Scripts -/

/-- Only the document was opened before the first line. -/
theorem Stack.Gathers.line_eq_iff {lines : List Line} {seen : Int → List Tracked} {upper : Int}
    {pending : List Tracked} {s : Stack} (h : s.Gathers lines seen upper pending)
    (ho : s.Ordered) :
    s.top.line = -1 ↔ s.below = [] := by
  have hle : ∀ {s : Stack} {upper : Int} {pending : List Tracked},
      s.Gathers lines seen upper pending → s.Ordered →
      -1 ≤ s.top.line := by
    intro s upper pending h ho
    induction h with
    | document =>
      cases ho with
      | document hd => exact Int.le_of_eq hd.line.symm
    | above _ hrest ih =>
      cases ho with
      | above _ ho => exact Int.le_of_lt (Int.lt_of_le_of_lt (ih ho) hrest.top.opened)
  cases h with
  | document =>
    cases ho with
    | document hd => exact ⟨fun _ => rfl, fun _ => hd.line⟩
  | above _ hrest =>
    cases ho with
    | above _ ho =>
      have hnonneg := Int.lt_of_le_of_lt (hle hrest ho) hrest.top.opened
      exact ⟨fun hline => absurd hline (Int.ne_of_gt hnonneg), fun hbelow =>
        absurd hbelow (List.cons_ne_nil _ _)⟩

/-- What a line adds to the document, it adds as a key line that is placed on the document. -/
theorem Builder.mem_enters_document {lines before after : List Line} {line : Line} {key : Tracked}
    (hl : lines.Pairwise (fun l l' => l.number < l'.number))
    (hcut : lines = before ++ line :: after) :
    key ∈ (run {} before).1.enters (-1) line ↔
      ⟨.key, key⟩ ∈ (run {} before).1.added line ∧
        (line.width = 0 ∨ (run {} before).1.Strays line) := by
  have hsound := run_sound before
  obtain ⟨upper, hgathers⟩ := run_gathers hl hcut
  have hline :=
    (hgathers.landing hcut (run_traced hl hcut)).line_eq_iff (hsound.landing_ordered line)
  generalize (run {} before).1 = b at hsound hline
  have hplaced : ⟨.key, key⟩ ∈ b.added line → b.shrinks line = false ∧ line.isItem = false := by
    intro hm
    rw [added] at hm
    split at hm
    · next hp =>
      simp only [places, Bool.and_eq_true, Bool.not_eq_true'] at hp
      refine ⟨hp.1.2, Bool.eq_false_iff.2 fun hi => ?_⟩
      rw [Line.marks, if_pos hi] at hm
      split at hm <;> cases List.mem_singleton.1 hm
    · cases hm
  rw [enters]
  constructor
  · intro hmem
    split at hmem
    · next htop =>
      have hm := mem_keysOf.1 hmem
      obtain ⟨hs, hi⟩ := hplaced hm
      exact ⟨hm, (hsound.landing_below_eq_nil hs hi).1 (hline.1 htop)⟩
    · cases hmem
  · rintro ⟨hm, hw⟩
    obtain ⟨hs, hi⟩ := hplaced hm
    rw [if_pos (hline.2 ((hsound.landing_below_eq_nil hs hi).2 hw))]
    exact mem_keysOf.2 hm

/-- A key that enters a map enters it at some line. -/
theorem Builder.mem_entered {b : Builder} {m : Int} {lines : List Line} {key : Tracked}
    (h : key ∈ b.entered m lines) :
    ∃ before line after, lines = before ++ line :: after ∧
      key ∈ (b.run before).1.enters m line := by
  induction lines generalizing b with
  | nil => cases h
  | cons line rest ih =>
    rcases List.mem_append.1 h with h | h
    · exact ⟨[], line, rest, rfl, h⟩
    · obtain ⟨before, l, after, rfl, hl⟩ := ih h
      exact ⟨line :: before, l, after, rfl, hl⟩

/-- Every key at the top of a document is dictated by a key line that is not indented or strays,
and every such line that is placed gives the document its key. -/
theorem ofSource_containers (tab : Int) (t : Text) :
    (∀ key ∈ (ofSource tab (Source.ofText t)).1.keys, ∃ before line after,
      lines tab (Source.ofText t) = before ++ line :: after ∧ line.Dictates ⟨.key, key⟩ ∧
      (line.width = 0 ∨ (Builder.run {} before).1.Strays line)) ∧
    ∀ before line after key, lines tab (Source.ofText t) = before ++ line :: after →
      ⟨.key, key⟩ ∈ (Builder.run {} before).1.added line →
      line.width = 0 ∨ (Builder.run {} before).1.Strays line →
      (ofSource tab (Source.ofText t)).1.hasKey key.text = true := by
  have hl := (linesFrom_increasing tab 0 (Source.ofText t).lines).1
  have hdocument : Gathered _ (Builder.entered {} (-1) (lines tab (Source.ofText t)))
      (ofSource tab (Source.ofText t)).1 := (ofLines_gathered hl).1
  refine ⟨fun key hmem => ?_, fun before line after key hcut hm hw => ?_⟩
  · obtain ⟨before, line, after, hcut, henters⟩ :=
      Builder.mem_entered (hdocument.mem_of_mem_keys hmem)
    obtain ⟨hm, hw⟩ := (Builder.mem_enters_document hl hcut).1 henters
    rw [Builder.added] at hm
    split at hm
    · exact ⟨before, line, after, hcut, Line.dictates_of_mem hm, hw⟩
    · cases hm
  · have henters := (Builder.mem_enters_document hl hcut).2 ⟨hm, hw⟩
    have hentered : key ∈ Builder.entered {} (-1) (lines tab (Source.ofText t)) := by
      rw [hcut, Builder.entered_append]
      exact List.mem_append_right _ (List.mem_append_left _ henters)
    rw [hdocument.hasKey_eq]
    exact List.any_eq_true.2 ⟨key, hentered, decide_eq_true rfl⟩

/-- A script with a line at a width that nothing has, and one more line at this width. -/
def shrunkScript : Text := "a:\n    b: 1\n  c: 2\n  d: 3".toList

/-- The second of two lines at a width that nothing has strays into the document. -/
theorem ofSource_containers_shrunk :
    (∀ key ∈ (ofSource 4 (Source.ofText shrunkScript)).1.keys, ∃ before line after,
      lines 4 (Source.ofText shrunkScript) = before ++ line :: after ∧ line.Dictates ⟨.key, key⟩ ∧
      (line.width = 0 ∨ (Builder.run {} before).1.Strays line)) ∧
    (ofSource 4 (Source.ofText shrunkScript)).1.hasKey ['d'] = true := by
  obtain ⟨hfrom, hto⟩ := ofSource_containers 4 shrunkScript
  have hlines : lines 4 (Source.ofText shrunkScript) =
      [⟨0, 0, "a:".toList⟩, ⟨1, 4, "b: 1".toList⟩, ⟨2, 2, "c: 2".toList⟩] ++
      ⟨3, 2, "d: 3".toList⟩ :: [] := by
    decide +kernel
  exact ⟨hfrom, hto _ _ _ ⟨['d'], 3⟩ hlines (by decide +kernel)
    (.inr (.outside (by decide +kernel) (by decide +kernel) (by decide +kernel)))⟩

/-- The second of the two lines gets into the document, although the document starts with a line
that is not indented. -/
theorem not_every_container_unindented : ¬ ∀ (tab : Int) (t : Text),
    (∀ line, (lines tab (Source.ofText t)).head? = some line → line.width = 0) →
    ∀ key ∈ (ofSource tab (Source.ofText t)).1.keys,
      ∃ line ∈ lines tab (Source.ofText t), key.line = line.number ∧ line.width = 0 := by
  intro h
  have hlines : lines 4 (Source.ofText shrunkScript) =
      [⟨0, 0, "a:".toList⟩, ⟨1, 4, "b: 1".toList⟩, ⟨2, 2, "c: 2".toList⟩,
        ⟨3, 2, "d: 3".toList⟩] := by
    decide +kernel
  have hkeys : (ofSource 4 (Source.ofText shrunkScript)).1.keys = [⟨['a'], 0⟩, ⟨['d'], 3⟩] := by
    decide +kernel
  have hstart : ∀ line, (lines 4 (Source.ofText shrunkScript)).head? = some line →
      line.width = 0 := by
    rw [hlines]
    rintro line ⟨⟩
    rfl
  obtain ⟨line, hl, hnumber, hwidth⟩ := h 4 shrunkScript hstart ⟨['d'], 3⟩ (by rw [hkeys]; decide)
  rw [hlines] at hl
  have hindented : ∀ l ∈ [Line.mk 0 0 "a:".toList, ⟨1, 4, "b: 1".toList⟩, ⟨2, 2, "c: 2".toList⟩,
      ⟨3, 2, "d: 3".toList⟩], (3 : Int) = l.number → l.width ≠ 0 := by decide
  exact hindented line hl hnumber hwidth

end ScriptLint.Document
