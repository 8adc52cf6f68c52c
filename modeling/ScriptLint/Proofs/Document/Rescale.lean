import Mathlib.Data.List.Forall2
import Mathlib.Order.Monotone.Basic
import ScriptLint.Proofs.Document.Order

/-!
# Rescaling widths

The builder compares the widths of lines and of open collections with each other, and only their
order matters. Widths are rescaled by a strictly increasing function that leaves zero, the width of
the document, where it is. A builder with rescaled widths (`Builder.rescale`) takes a rescaled line
the way the builder takes the line: the trees are the same and the logs have the same findings, but
the widths that a finding on shrunk spacing quotes are rescaled (`Diagnostic.Rescaled`,
`Builder.step_rescale`, `Builder.run_rescale`). So the documents of lines and of rescaled lines are
the same (`ofLines_rescale`).
-/

namespace ScriptLint

/-- The width in the new scale. No width is negative; what is negative stays. -/
def scaled (f : Nat → Nat) (width : Int) : Int := if width < 0 then width else f width.toNat

@[simp] theorem scaled_natCast (f : Nat → Nat) (n : Nat) : scaled f n = f n := by
  rw [scaled, if_neg (Int.not_lt.2 (Int.natCast_nonneg n)), Int.toNat_natCast]

section
variable {f : Nat → Nat} (hf : StrictMono f) {a b : Int}
include hf

/-- Scaling keeps the order. -/
theorem scaled_lt_of_lt (h : a < b) : scaled f a < scaled f b := by
  unfold scaled
  by_cases ha : a < 0
  · rw [if_pos ha]
    split <;> omega
  · have hlt : f a.toNat < f b.toNat := hf (by omega)
    rw [if_neg ha, if_neg (by omega)]
    exact Int.ofNat_lt.2 hlt

/-- Scaling keeps and reflects the order. -/
theorem scaled_lt_iff : scaled f a < scaled f b ↔ a < b := by
  refine ⟨fun h => ?_, scaled_lt_of_lt hf⟩
  rcases Int.lt_trichotomy a b with hlt | rfl | hgt
  · exact hlt
  · exact absurd h (Int.lt_irrefl _)
  · exact absurd h (Int.lt_asymm (scaled_lt_of_lt hf hgt))

/-- Scaling keeps and reflects the order in the wide sense. -/
theorem scaled_le_iff : scaled f a ≤ scaled f b ↔ a ≤ b := by
  rw [← Int.not_lt, scaled_lt_iff hf, Int.not_lt]

/-- Different widths scale to different ones. -/
theorem scaled_inj : scaled f a = scaled f b ↔ a = b := by
  rw [Int.le_antisymm_iff, scaled_le_iff hf, scaled_le_iff hf, Int.le_antisymm_iff]

end

/-- The diagnostic is the same, or it is on shrunk spacing and quotes the widths in the new
scale. -/
inductive Diagnostic.Rescaled (f : Nat → Nat) : Diagnostic → Diagnostic → Prop
  | same (d : Diagnostic) : Rescaled f d d
  | shrunk (previous width : Int) (expected : List Int) (line : Int) :
      Rescaled f ((Issue.shrunkSpacing previous width expected).onLine line)
        ((Issue.shrunkSpacing (scaled f previous) (scaled f width)
          (expected.map (scaled f))).onLine line)

namespace Log

/-- The logs have the same findings one by one, with rescaled widths. -/
abbrev Rescaled (f : Nat → Nat) (log log' : Log) : Prop :=
  List.Forall₂ (Diagnostic.Rescaled f) log log'

/-- A log that stays as it is counts as rescaled. -/
theorem Rescaled.refl (f : Nat → Nat) (log : Log) : Rescaled f log log :=
  List.forall₂_same.2 fun d _ => .same d

/-- Two logs are rescaled one by one. -/
theorem Rescaled.append {f : Nat → Nat} {first first' rest rest' : Log}
    (hf : Rescaled f first first') (hr : Rescaled f rest rest') :
    Rescaled f (first ++ rest) (first' ++ rest') :=
  List.rel_append hf hr

/-- Findings with rescaled widths are of the same sort and on the same lines. -/
theorem Rescaled.outline {f : Nat → Nat} {log log' : Log} (h : Rescaled f log log') :
    log'.map (fun d => (d.category, d.key, d.line)) = log.map fun d =>
    (d.category, d.key, d.line) := by
  induction h with
  | nil => rfl
  | cons hd _ ih =>
    rw [List.map_cons, List.map_cons, ih]
    cases hd <;> rfl

end Log

namespace Document

variable (f : Nat → Nat)

/-! ## Open collections -/

/-- The frame with its width in the new scale. -/
def Frame.rescale (fr : Frame) : Frame := { fr with width := scaled f fr.width }

@[simp] theorem Frame.rescale_block (fr : Frame) : (fr.rescale f).block = fr.block := rfl

@[simp] theorem Frame.rescale_width (fr : Frame) : (fr.rescale f).width = scaled f fr.width := rfl

/-- A collection is closed alike at other widths. -/
theorem Frame.adopt_rescale (owner closed : Frame) :
    (owner.rescale f).adopt (closed.rescale f) = (owner.adopt closed).rescale f := rfl

/-- The stack with all its widths in the new scale. -/
def Stack.rescale (s : Stack) : Stack := ⟨s.top.rescale f, s.below.map (Frame.rescale f)⟩

namespace Stack

@[simp] theorem rescale_top (s : Stack) : (s.rescale f).top = s.top.rescale f := rfl

/-- A collection is opened alike at other widths. -/
theorem push_rescale (fr : Frame) (s : Stack) :
    (s.rescale f).push (fr.rescale f) = (s.push fr).rescale f := rfl

variable {f}

/-- Conditions that agree in both scales close the same collections. -/
theorem closeFrom_rescale {p q : Frame → Bool} (h : ∀ fr : Frame, q (fr.rescale f) = p fr)
    (top : Frame) (below : List Frame) :
    closeFrom q (top.rescale f) (below.map (Frame.rescale f)) =
      (closeFrom p top below).rescale f := by
  induction below generalizing top with
  | nil => rfl
  | cons owner rest ih =>
    rw [List.map_cons, closeFrom, closeFrom, h, Frame.adopt_rescale, ih]
    split <;> rfl

/-- The collections wider than a line are the same at other widths. -/
theorem unwind_rescale (hf : StrictMono f) (width : Int) (s : Stack) :
    (s.rescale f).unwind (scaled f width) = (s.unwind width).rescale f :=
  closeFrom_rescale (fun _ => decide_eq_decide.2 (scaled_lt_iff hf)) s.top s.below

/-- The lists that a key is outside of are the same at other widths. -/
theorem closeLists_rescale (hf : StrictMono f) (width : Int) (s : Stack) :
    (s.rescale f).closeLists (scaled f width) = (s.closeLists width).rescale f := by
  refine closeFrom_rescale (fun fr => ?_) s.top s.below
  rw [Frame.rescale_block, Frame.rescale_width, decide_eq_decide.2 (scaled_inj hf)]

/-- A stack becomes the same document at other widths. -/
theorem finish_rescale (s : Stack) : (s.rescale f).finish = s.finish :=
  congrArg (·.top.block) (closeFrom_rescale (p := fun _ => true) (fun _ => rfl) s.top s.below)

/-- Numbers that are told apart are told apart in the new scale. -/
theorem eraseDups_map_scaled (hf : StrictMono f) (widths : List Int) :
    (widths.map (scaled f)).eraseDups = widths.eraseDups.map (scaled f) := by
  induction hn : widths.length using Nat.strongRecOn generalizing widths with
  | ind n ih =>
    cases widths with
    | nil => rfl
    | cons w rest =>
      have hbeq : ((!· == scaled f w) ∘ scaled f) = (!· == w) := by
        funext x
        exact congrArg Bool.not (Bool.eq_iff_iff.2 (by simp [scaled_inj hf]))
      have hlt : (rest.filter (!· == w)).length < n := by
        have := List.length_filter_le (!· == w) rest
        rw [← hn, List.length_cons]
        omega
      rw [List.map_cons, List.eraseDups_cons, List.eraseDups_cons, List.filter_map, hbeq,
        List.map_cons, ih _ hlt _ rfl]

/-- The widths of the open collections are quoted in the new scale. -/
theorem widths_rescale (hf : StrictMono f) (s : Stack) :
    (s.rescale f).widths = s.widths.map (scaled f) := by
  have hframes : (s.rescale f).frames.map (·.width) = (s.frames.map (·.width)).map (scaled f) := by
    simp only [frames, rescale, List.map_cons, List.map_map]
    rfl
  rw [widths, widths, hframes, eraseDups_map_scaled hf]
  refine (List.map_mergeSort fun a _ b _ => ?_).symm
  exact decide_eq_decide.2 (scaled_le_iff hf).symm

end Stack

/-! ## The builder -/

/-- The line with its width in the new scale. -/
def Line.rescale (line : Line) : Line := { line with width := f line.width }

namespace Line

@[simp] theorem rescale_number (line : Line) : (line.rescale f).number = line.number := rfl

@[simp] theorem rescale_text (line : Line) : (line.rescale f).text = line.text := rfl

@[simp] theorem isItem_rescale (line : Line) : (line.rescale f).isItem = line.isItem := rfl

@[simp] theorem itemText_rescale (line : Line) : (line.rescale f).itemText = line.itemText := rfl

end Line

/-- The waiting key with its width in the new scale. -/
def Waiting.rescale (w : Waiting) : Waiting := ⟨w.key, scaled f w.width⟩

namespace Builder

/-- The builder with all its widths in the new scale. -/
def rescale (b : Builder) : Builder :=
  ⟨b.stack.rescale f, b.waiting.map (Waiting.rescale f), scaled f b.previous,
    b.skipped.map (scaled f)⟩

variable {f} (b : Builder) (line : Line)

/-- The builder that has read nothing has no width to scale. -/
theorem rescale_new (h0 : f 0 = 0) : rescale f {} = {} := by
  have hzero : scaled f 0 = 0 := (scaled_natCast f 0).trans (by rw [h0]; rfl)
  simp [rescale, Stack.rescale, Stack.new, Frame.rescale, hzero]

/-- The width of a rescaled line is the scaled one. -/
theorem scaled_width : ((line.rescale f).width : Int) = scaled f line.width :=
  (scaled_natCast f _).symm

/-- A line is deeper than a collection at either widths. -/
theorem scaled_lt_width (hf : StrictMono f) (width : Int) :
    scaled f width < (line.rescale f).width ↔ width < line.width := by
  rw [scaled_width, scaled_lt_iff hf]

/-- A line is less deep than a collection at either widths. -/
theorem width_lt_scaled (hf : StrictMono f) (width : Int) :
    (line.rescale f).width < scaled f width ↔ line.width < width := by
  rw [scaled_width, scaled_lt_iff hf]

/-- A line is as deep as a collection at either widths. -/
theorem scaled_eq_width (hf : StrictMono f) (width : Int) :
    scaled f width = (line.rescale f).width ↔ width = line.width := by
  rw [scaled_width, scaled_inj hf]

/-- What is reported of a waiting key does not depend on widths. -/
theorem waitingLog_rescale : (b.rescale f).waitingLog = b.waitingLog := by
  unfold waitingLog rescale
  cases b.waiting <;> rfl

/-- A waiting key gets an empty map at either widths. -/
theorem sealed_rescale : (b.rescale f).sealed = b.sealed.rescale f := by
  unfold sealed rescale
  cases b.waiting <;> rfl

/-- A line is skipped at either widths. -/
theorem skips_rescale (hf : StrictMono f) :
    (b.rescale f).skips (line.rescale f) = b.skips line := by
  unfold skips rescale
  cases b.skipped with
  | none => rfl
  | some width => exact decide_eq_decide.2 (scaled_lt_width line hf width)

/-- A line begins the collection of the waiting key at either widths. -/
theorem opens_rescale (hf : StrictMono f) :
    (b.rescale f).opens (line.rescale f) = b.opens line := by
  unfold opens rescale
  cases b.waiting with
  | none => rfl
  | some w =>
    show (w.rescale f).opens b.stack.top.block (line.rescale f) = w.opens b.stack.top.block line
    unfold Waiting.opens Waiting.rescale
    rw [decide_eq_decide.2 (scaled_lt_width line hf w.width),
      decide_eq_decide.2 (scaled_eq_width line hf w.width)]
    rfl

/-- A collection is opened at the scaled width. -/
theorem opening_rescale (key : Tracked) :
    opening (line.rescale f) key = (opening line key).rescale f := by
  unfold opening Frame.rescale
  rw [scaled_width]
  rfl

/-- A waiting key is settled alike at other widths. -/
theorem settled_rescale (hf : StrictMono f) :
    (b.rescale f).settled (line.rescale f) = (b.settled line).rescale f := by
  have ho := b.opens_rescale line hf
  cases hb : b.opens line with
  | false => rw [settled_of_not_opens hb, settled_of_not_opens (ho.trans hb), sealed_rescale]
  | true =>
    obtain ⟨w, hw⟩ := waiting_of_opens hb
    have hw' : (b.rescale f).waiting = some (w.rescale f) := by rw [rescale, hw]; rfl
    rw [settled_of_opens hb hw, settled_of_opens (ho.trans hb) hw', ← Stack.push_rescale,
      opening_rescale]
    rfl

/-- A line is inside of the same collections at other widths. -/
theorem reached_rescale (hf : StrictMono f) :
    (b.rescale f).reached (line.rescale f) = (b.reached line).rescale f := by
  have hiff : (line.rescale f).width < (b.rescale f).previous ↔ line.width < b.previous :=
    width_lt_scaled line hf b.previous
  rw [reached, reached, settled_rescale b line hf]
  by_cases h : line.width < b.previous
  · rw [if_pos h, if_pos (hiff.2 h), scaled_width, Stack.unwind_rescale hf]
  · rw [if_neg h, if_neg (mt hiff.1 h)]

/-- A line is at a width that nothing has at either widths. -/
theorem shrinks_rescale (hf : StrictMono f) :
    (b.rescale f).shrinks (line.rescale f) = b.shrinks line := by
  have hwidth : ((b.reached line).rescale f).top.width ≠ (line.rescale f).width ↔
      (b.reached line).top.width ≠ line.width := not_congr (scaled_eq_width line hf _)
  rw [Bool.eq_iff_iff, shrinks, shrinks, reached_rescale b line hf]
  simp only [Bool.and_eq_true, decide_eq_true_eq, bne_iff_ne]
  exact and_congr (width_lt_scaled line hf b.previous) hwidth

/-- A line is deeper than the one before at either widths. -/
theorem grows_rescale (hf : StrictMono f) :
    (b.rescale f).grows (line.rescale f) = b.grows line := by
  rw [grows, grows, opens_rescale b line hf]
  exact congrArg (· && _) (decide_eq_decide.2 (scaled_lt_width line hf b.previous))

/-- An entry is placed alike at other widths. -/
theorem placeItem_rescale (s : Stack) (grown : Bool) :
    placeItem (s.rescale f) grown (line.rescale f) =
      ((placeItem s grown line).1.rescale f, (placeItem s grown line).2) := by
  unfold placeItem
  rw [Stack.rescale_top, Frame.rescale_block, scaled_width, Line.itemText_rescale,
    Line.rescale_number]
  cases s.top.block with
  | map entries => rfl
  | list items =>
    simp only
    cases Text.endsWith [':'] line.itemText <;> rfl

/-- A key is placed alike at other widths. -/
theorem placeKey_rescale (hf : StrictMono f) (s : Stack) :
    placeKey (s.rescale f) (line.rescale f) =
      ((placeKey s line).1.rescale f, (placeKey s line).2) := by
  unfold placeKey
  rw [scaled_width, Stack.closeLists_rescale hf, Line.rescale_text, Line.rescale_number]
  generalize s.closeLists line.width = s
  have hb : (s.rescale f).top.block = s.top.block := rfl
  simp only [hb]
  cases hs : s.top.block with
  | list items => rfl
  | map entries =>
    simp only
    cases Text.endsWith [':'] line.text with
    | true => rfl
    | false =>
      cases splitInline line.text with
      | none => rfl
      | some p => rfl

/-- Lines are placed alike in both scales, and what is reported of them does not quote widths. -/
theorem place_rescale (hf : StrictMono f) (s : Stack) (grown : Bool) :
    place (s.rescale f) grown (line.rescale f) =
      ((place s grown line).1.rescale f, (place s grown line).2) := by
  rw [place, place, Line.isItem_rescale]
  split
  · exact placeItem_rescale line s grown
  · exact placeKey_rescale line hf s

/-- A step on a rescaled line is the rescaled step. -/
theorem step_rescale (hf : StrictMono f) :
    ((b.rescale f).step (line.rescale f)).1 = (b.step line).1.rescale f ∧
      Log.Rescaled f (b.step line).2 ((b.rescale f).step (line.rescale f)).2 := by
  have hk := b.skips_rescale line hf
  have hs := b.shrinks_rescale line hf
  have hr := b.reached_rescale line hf
  cases h : b.skips line with
  | true =>
    rw [step_of_skips h, step_of_skips (hk.trans h)]
    exact ⟨rfl, .nil⟩
  | false =>
  cases h' : b.shrinks line with
  | true =>
    rw [step_of_shrinks h h', step_of_shrinks (hk.trans h) (hs.trans h'), hr, waitingLog_rescale,
      Stack.widths_rescale hf, scaled_width]
    exact ⟨rfl, (Log.Rescaled.refl f _).append (.cons (.shrunk _ _ _ _) .nil)⟩
  | false =>
    rw [step_of_places h h', step_of_places (hk.trans h) (hs.trans h'), hr,
      b.grows_rescale line hf, place_rescale line hf, waitingLog_rescale]
    exact ⟨rfl, .refl f _⟩

/-- A run on rescaled lines is the rescaled run. -/
theorem run_rescale (hf : StrictMono f) (lines : List Line) :
    ((b.rescale f).run (lines.map (Line.rescale f))).1 = (b.run lines).1.rescale f ∧
      Log.Rescaled f (b.run lines).2 ((b.rescale f).run (lines.map (Line.rescale f))).2 := by
  induction lines generalizing b with
  | nil => exact ⟨rfl, .nil⟩
  | cons line rest ih =>
    obtain ⟨hstep, hlog⟩ := b.step_rescale line hf
    obtain ⟨hrun, hlogs⟩ := ih (b.step line).1
    rw [List.map_cons, run_cons, run_cons, hstep]
    exact ⟨hrun, hlog.append hlogs⟩

/-- The builder finishes with the same document at other widths. -/
theorem finish_rescale : (b.rescale f).finish = b.finish := by
  rw [finish_eq_sealed, finish_eq_sealed, sealed_rescale, Stack.finish_rescale]

end Builder

variable {f}

/-- The document of rescaled lines is the document of the lines. -/
theorem ofLines_rescale (hf : StrictMono f) (h0 : f 0 = 0) (lines : List Line) :
    (ofLines (lines.map (Line.rescale f))).1 = (ofLines lines).1 ∧
      Log.Rescaled f (ofLines lines).2 (ofLines (lines.map (Line.rescale f))).2 := by
  obtain ⟨hrun, hlog⟩ := Builder.run_rescale {} hf lines
  rw [Builder.rescale_new h0] at hrun hlog
  simp only [ofLines, hrun, Builder.finish_rescale, Builder.waitingLog_rescale, true_and]
  exact hlog.append (.refl f _)

end Document

end ScriptLint
