import ScriptLint.Proofs.Document.Drop
import ScriptLint.Proofs.Document.Supply
import ScriptLint.Proofs.Names

/-!
# The widths of the open collections

Between two lines the document is at the bottom of the open collections, and each of them is wider
than the one below it, or is a list at the width of a map. The line before is at least as wide as
the innermost one. A key waits for its collection only right after its own line, and the collection
that this line was placed in is then the innermost one (`Builder.Stacked`).

So unwinding to a width, which looks at the innermost collection only, leaves those open that are
not wider (`Stack.Ordered.frameWidths_unwind`), and a line is at a width that no open collection
has exactly if none of all of them has its width (`Builder.Sound.shrinks_iff`). The report on such
a line lists the widths that are left (`ofSource_stacked`).
-/

namespace ScriptLint.Document

/-! ## Stacks -/

namespace Stack

/-- The widths of the frames, innermost first. -/
def frameWidths (s : Stack) : List Int := s.frames.map (·.width)

/-- The innermost width comes first. -/
theorem frameWidths_mk (top : Frame) (below : List Frame) :
    frameWidths ⟨top, below⟩ = top.width :: below.map (·.width) := rfl

@[simp] theorem frameWidths_withBlock (s : Stack) (block : Block) :
    (s.withBlock block).frameWidths = s.frameWidths := rfl

/-- The widths of a report are those of the frames in ascending order, each once. -/
theorem sortedOnce_widths (s : Stack) : SortedOnce (· ≤ ·) s.frameWidths s.widths := by
  have h : SortedOnce (fun a b : Int => decide (a ≤ b) = true) s.frameWidths s.widths :=
    sortedOnce_mergeSort (by simpa using fun _ _ _ => Int.le_trans) (by simpa using Int.le_total)
      s.frameWidths
  exact ⟨h.ordered.imp of_decide_eq_true, h.nodup, h.mem_iff⟩

namespace Ordered

variable {s : Stack}

/-- Only neighbours are compared. -/
theorem isChain (h : s.Ordered) : s.frames.IsChain Frame.Above := by
  induction h with
  | document => exact .singleton _
  | above ha _ ih => exact .cons_cons ha ih

/-- The document is at the bottom of the stack. -/
theorem getLast_frames (h : s.Ordered) :
    ∃ root, s.frames.getLast? = some root ∧ root.IsDocument := by
  induction h with
  | document hd => exact ⟨_, rfl, hd⟩
  | above _ _ ih =>
    obtain ⟨root, hroot, hd⟩ := ih
    exact ⟨root, by rw [frames, List.getLast?_cons_cons]; exact hroot, hd⟩

/-- The innermost collection is the widest. -/
theorem le_top (h : s.Ordered) : ∀ w ∈ s.frameWidths, w ≤ s.top.width := by
  induction h with
  | document => exact List.forall_mem_singleton.2 (Int.le_refl _)
  | @above f g rest ha hr ih =>
    have hle : g.width ≤ f.width := (Ordered.above ha hr).owner_le
    intro w hw
    rcases List.mem_cons.1 hw with rfl | hw
    · exact Int.le_refl _
    · exact Int.le_trans (ih w hw) hle

/-- Unwinding leaves the collections open that are not wider. -/
theorem frameWidths_unwind (h : s.Ordered) {width : Int} (hw : 0 ≤ width) :
    (s.unwind width).frameWidths = s.frameWidths.filter (· ≤ width) := by
  obtain ⟨top, below⟩ := s
  induction below generalizing top with
  | nil =>
    cases h with
    | document hd =>
      have hle : top.width ≤ width := hd.width ▸ hw
      rw [frameWidths_mk top [], List.map_nil, List.filter_cons, if_pos (decide_eq_true hle)]
      rfl
  | cons owner rest ih =>
    by_cases hp : width < top.width
    · have hdrop : ¬ decide (top.width ≤ width) = true := by simpa using hp
      rw [unwind, closeFrom_of_pos (decide_eq_true hp), frameWidths_mk top, List.filter_cons,
        if_neg hdrop]
      exact ih (owner.adopt top) h.adopt
    · -- No collection is wider than the innermost one, so all of them stay open.
      have hall : ∀ w ∈ (Stack.mk top (owner :: rest)).frameWidths, decide (w ≤ width) = true :=
        fun w hmem =>
        decide_eq_true (Int.le_trans (h.le_top w hmem) (Int.not_lt.1 hp))
      rw [unwind, closeFrom_of_not (decide_eq_false hp), List.filter_eq_self.2 hall]

end Ordered

end Stack

/-! ## The builder -/

namespace Builder

variable {b : Builder} {line : Line}

/-- A waiting key that gets an empty map keeps the open widths. -/
theorem frameWidths_sealed (b : Builder) : b.sealed.frameWidths = b.stack.frameWidths := by
  unfold sealed
  split
  · exact Stack.frameWidths_withBlock _ _
  · rfl

namespace Sound

/-- A line that is less deep than the one before reaches the collections that are not wider. -/
theorem frameWidths_reached (h : b.Sound) (hlt : line.width < b.previous) :
    (b.reached line).frameWidths = b.stack.frameWidths.filter (· ≤ (line.width : Int)) := by
  have hopens : b.opens line = false := by
    rw [← Bool.not_eq_true]
    exact fun ho => Int.not_lt.2 (h.previous_le_of_opens ho) hlt
  rw [h.reached_eq_unwind hopens, h.sealed_ordered.frameWidths_unwind (Int.natCast_nonneg _),
    frameWidths_sealed]

/-- The innermost collection that is reached has the width of the line exactly if some open
collection has it. -/
theorem reached_top_eq_iff (h : b.Sound) (hlt : line.width < b.previous) :
    (b.reached line).top.width = line.width ↔ (line.width : Int) ∈ b.stack.frameWidths := by
  have hmem : ∀ w : Int, w ∈ (b.reached line).frameWidths ↔
      w ∈ b.stack.frameWidths ∧ w ≤ line.width := by
    intro w
    rw [h.frameWidths_reached hlt, List.mem_filter, decide_eq_true_eq]
  constructor
  · intro htop
    exact ((hmem _).1 (htop ▸ List.mem_cons_self)).1
  · intro hw
    exact Int.le_antisymm (h.reached_top_le line)
      ((h.reached_ordered line).le_top _ ((hmem _).2 ⟨hw, Int.le_refl _⟩))

/-- A line is at a width that no open collection has. -/
theorem shrinks_iff (h : b.Sound) :
    b.shrinks line = true ↔ line.width < b.previous ∧ ∀ f ∈ b.stack.frames,
    f.width ≠ line.width := by
  rw [shrinks, Bool.and_eq_true, decide_eq_true_eq, bne_iff_ne]
  refine and_congr_right fun hlt => ?_
  rw [ne_eq, h.reached_top_eq_iff hlt, Stack.frameWidths, List.mem_map]
  simp

/-- What such a line leaves open is less wide. -/
theorem frameWidths_of_shrinks (h : b.Sound) (hs : b.shrinks line = true) :
    (b.reached line).frameWidths = b.stack.frameWidths.filter (· < (line.width : Int)) := by
  obtain ⟨hlt, hne⟩ := h.shrinks_iff.1 hs
  rw [h.frameWidths_reached hlt]
  refine List.filter_congr fun w hw => ?_
  obtain ⟨f, hf, rfl⟩ := List.mem_map.1 hw
  exact decide_eq_decide.2 ⟨fun hle => Int.lt_iff_le_and_ne.2 ⟨hle, hne f hf⟩, Int.le_of_lt⟩

/-- The widths that a line falls between are those of the open collections that it is deeper
than. -/
theorem mem_widths_of_shrinks (h : b.Sound) (hs : b.shrinks line = true) (w : Int) :
    w ∈ (b.reached line).widths ↔ w < line.width ∧ ∃ f ∈ b.stack.frames, f.width = w := by
  rw [(b.reached line).sortedOnce_widths.mem_iff, h.frameWidths_of_shrinks hs, List.mem_filter,
    decide_eq_true_eq, and_comm]
  exact and_congr_right fun _ => List.mem_map

end Sound

/-- The collection that a line is placed in. A key of the line goes into it. -/
def parent (b : Builder) (line : Line) : Frame := (b.landing line).top

/-- The builder after the lines `before`. -/
structure Stacked (before : List Line) (b : Builder) : Prop where
  document : ∃ root, b.stack.frames.getLast? = some root ∧ root.IsDocument
  /-- Innermost first, each collection may stand above the next. -/
  ordered : b.stack.frames.IsChain Frame.Above
  top_le : b.stack.top.width ≤ b.previous
  /-- The waiting key is the one of the last line. -/
  waiting : ∀ w, b.waiting = some w → w.width = b.previous ∧
    ∃ first last, before = first ++ [last] ∧ w.key.line = last.number ∧
    b.stack.top = (run {} first).1.parent last

end Builder

/-- A key that waits after a move is on the line of the move, and the line was placed in the
innermost collection. -/
theorem Move.waiting {b b' : Builder} {line : Line} {log : Log} (hm : Move b line b' log)
    (h : ∀ w, b.waiting = some w → b.skipped = none) : ∀ w, b'.waiting = some w →
      b'.skipped = none ∧ w.key.line = line.number ∧ b'.stack.top = b.parent line := by
  intro w hw
  cases hm with
  | skip hk =>
    rw [Builder.skips, h w hw] at hk
    cases hk
  | shrink | orphanEntry | scalar | strayKey | inline | unread => cases hw
  | block | heading =>
    cases hw
    exact ⟨rfl, rfl, rfl⟩

namespace Builder

/-- After a line that is left out no key waits. -/
theorem run_waiting (lines : List Line) :
    ∀ w, (run {} lines).1.waiting = some w → (run {} lines).1.skipped = none :=
  run_induction (P := fun b => ∀ w, b.waiting = some w → b.skipped = none)
    (fun hm h w hw => (hm.waiting h w hw).1) (fun _ hw => by cases hw) lines

/-- After any number of lines, the stack is as the specification has it. -/
theorem run_stacked (before : List Line) : (run {} before).1.Stacked before := by
  have hsound := run_sound before
  refine ⟨hsound.ordered.getLast_frames, hsound.ordered.isChain, hsound.top_le, fun w hw =>
    ⟨hsound.waiting_width w hw, ?_⟩⟩
  rcases List.eq_nil_or_concat before with rfl | ⟨first, last, rfl⟩
  · cases hw
  · rw [List.concat_eq_append, run_concat] at hw ⊢
    obtain ⟨-, hkey, htop⟩ := ((run {} first).1.step_move last).waiting (run_waiting first) w hw
    exact ⟨first, last, rfl, hkey, htop⟩

end Builder

/-! ## Reports -/

/-- The findings of a move are on the waiting key, on a width that no open collection has, or on
something else. -/
theorem Move.shrinks_of_mem {b b' : Builder} {line : Line} {log : Log} (hm : Move b line b' log)
    {d : Diagnostic} (hd : d ∈ log) (hkey : d.key = "shrunk_spacing") : b.shrinks line = true ∧
      d = (Issue.shrunkSpacing b.previous line.width (b.reached line).widths).onLine
        line.number := by
  have hwaiting : d ∉ b.waitingLog :=
    fun hw => absurd (hkey ▸ Builder.key_of_mem_waitingLog hw) (by decide)
  have hother : ∀ {rest : Log}, Every (fun d => d.key ≠ "shrunk_spacing") rest →
      d ∉ b.waitingLog ++ rest := by
    intro rest hrest hmem
    rcases List.mem_append.1 hmem with hmem | hmem
    · exact hwaiting hmem
    · exact hrest d hmem hkey
  cases hm with
  | skip => cases hd
  | shrink _ hs =>
    rcases List.mem_append.1 hd with hd | hd
    · exact absurd hd hwaiting
    · exact ⟨hs, List.mem_singleton.1 hd⟩
  | heading | unread => exact absurd hd hwaiting
  | orphanEntry => exact absurd hd (hother (.single (show "orphan_list_entry" ≠ _ by decide)))
  | block | scalar =>
    exact absurd hd (hother (.ite (.single (show "growing_spaces_in_script" ≠ _ by decide)) .nil))
  | strayKey => exact absurd hd (hother (.ite .nil (.single (show "orphan_key" ≠ _ by decide))))
  | inline => exact absurd hd (hother (.ite (.single (show "duplicate_key" ≠ _ by decide)) .nil))

/-- In every run over the content lines of a script, the open collections are ordered by their
widths, and a key waits in the innermost one. A line that is not left out with another one is
reported as shrunk exactly if it is less deep than the line before and no open collection has its
width. The report lists the widths of the collections that stay open, which are those less wide
than the line, in ascending order and each once. -/
theorem ofSource_stacked (tab : Int) (t : Text) :
    (∀ before after, lines tab (Source.ofText t) = before ++ after →
      (Builder.run {} before).1.Stacked before) ∧
    ∀ before line after, lines tab (Source.ofText t) = before ++ line :: after →
      (Builder.run {} before).1.skips line = false →
      let b := (Builder.run {} before).1
      ((ofSource tab (Source.ofText t)).2.Reports ["shrunk_spacing"] line ↔
        line.width < b.previous ∧ ∀ f ∈ b.stack.frames, f.width ≠ line.width) ∧
      ∀ d ∈ (ofSource tab (Source.ofText t)).2, d.line = line.number → d.key = "shrunk_spacing" →
        ∃ widths : List Int,
          d = (Issue.shrunkSpacing b.previous line.width widths).onLine line.number ∧
          SortedOnce (· ≤ ·) ((b.step line).1.stack.frames.map (·.width)) widths ∧
          ∀ w, w ∈ widths ↔ w < line.width ∧ ∃ f ∈ b.stack.frames, f.width = w := by
  refine ⟨fun before _ _ => Builder.run_stacked before, fun before line after h hskips => ?_⟩
  have hnumbers := (linesFrom_increasing tab 0 (Source.ofText t).lines).1
  rw [← lines, h] at hnumbers
  rw [ofSource, h]
  intro b
  have hsound : b.Sound := Builder.run_sound before
  have hfound : ∀ d ∈ (ofLines (before ++ line :: after)).2, d.line = line.number →
      d.key = "shrunk_spacing" →
      b.shrinks line = true ∧
        d = (Issue.shrunkSpacing b.previous line.width (b.reached line).widths).onLine
          line.number := by
    intro d hd hline hkey
    have hstep := mem_step_of_mem_ofLines hnumbers hd hline (hkey ▸ by decide)
    exact (b.step_move line).shrinks_of_mem hstep hkey
  refine ⟨⟨?_, fun hs => ?_⟩, fun d hd hline hkey => ?_⟩
  · rintro ⟨d, hd, hline, hkey⟩
    exact hsound.shrinks_iff.1 (hfound d hd hline (List.mem_singleton.1 hkey)).1
  · have hlog : (b.step line).2.Reports ["shrunk_spacing"] line := by
      rw [Builder.step_of_shrinks hskips (hsound.shrinks_iff.2 hs)]
      exact Log.reports_last (List.mem_singleton_self _)
    refine hlog.mono ?_ (List.Subset.refl _)
    exact fun d hd => story_subset_ofLines before (line :: after)
      (b.step_subset_story line after (List.mem_append_left _ hd))
  · obtain ⟨hs, rfl⟩ := hfound d hd hline hkey
    refine ⟨_, rfl, ?_, hsound.mem_widths_of_shrinks hs⟩
    rw [Builder.step_of_shrinks hskips hs]
    exact (b.reached line).sortedOnce_widths

/-- A script whose last line is between the widths of two open collections. -/
def betweenScript : Text := "a:\n  b:\n    c:\n    - x\n   d: 1".toList

/-- Its lines before the last one. -/
def betweenLines : List Line :=
  [⟨0, 0, "a:".toList⟩, ⟨1, 2, "b:".toList⟩, ⟨2, 4, "c:".toList⟩, ⟨3, 4, "- x".toList⟩]

/-- A script with three widths, and a line between two of them. -/
theorem ofSource_stacked_between :
    lines 4 (Source.ofText betweenScript) = betweenLines ++ ⟨4, 3, "d: 1".toList⟩ :: [] ∧
    (Builder.run {} (betweenLines.take 3)).1.waiting = some ⟨⟨['c'], 2⟩, 4⟩ ∧
    (Builder.run {} (betweenLines.take 3)).1.Stacked (betweenLines.take 3) ∧
    (Builder.run {} betweenLines).1.stack.frameWidths = [4, 4, 2, 0] ∧
    (Builder.run {} betweenLines).1.skips ⟨4, 3, "d: 1".toList⟩ = false ∧
    ∃ d ∈ (ofSource 4 (Source.ofText betweenScript)).2, d.line = 4 ∧ d.key = "shrunk_spacing" ∧
      ∃ widths, d = (Issue.shrunkSpacing 4 3 widths).onLine 4 ∧ ∀ w, w ∈ widths ↔
        w = 0 ∨ w = 2 := by
  have hlines : lines 4 (Source.ofText betweenScript) = betweenLines ++
      ⟨4, 3, "d: 1".toList⟩ :: [] := by
    decide +kernel
  have hskips : (Builder.run {} betweenLines).1.skips ⟨4, 3, "d: 1".toList⟩ = false := by
    decide +kernel
  have hprevious : (Builder.run {} betweenLines).1.previous = 4 := by decide +kernel
  have hwidths : (Builder.run {} betweenLines).1.stack.frameWidths = [4, 4, 2, 0] := by
    decide +kernel
  have hframe : ∀ w : Int, (∃ f ∈ (Builder.run {} betweenLines).1.stack.frames, f.width = w) ↔
      w ∈ [4, 4, 2, 0] := by
    intro w
    rw [← hwidths]
    exact List.mem_map.symm
  obtain ⟨hstacked, hreports⟩ := ofSource_stacked 4 betweenScript
  obtain ⟨hreported, hfound⟩ := hreports _ _ _ hlines hskips
  rw [hprevious] at hreported hfound
  obtain ⟨d, hd, hline, hkey⟩ :=
    hreported.2 ⟨by decide, fun f hf he => by simpa using (hframe 3).1 ⟨f, hf, he⟩⟩
  obtain ⟨listed, hmessage, -, hlisted⟩ := hfound d hd hline (List.mem_singleton.1 hkey)
  refine ⟨hlines,
    by rfl, hstacked (betweenLines.take 3) _ (hlines.trans rfl), hwidths, hskips, d, hd, hline,
    List.mem_singleton.1 hkey, listed, hmessage, fun w => ?_⟩
  rw [hlisted, hframe]
  simp only [List.mem_cons, List.not_mem_nil, or_false]
  omega

end ScriptLint.Document
