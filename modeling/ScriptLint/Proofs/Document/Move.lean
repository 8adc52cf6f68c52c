import ScriptLint.Document.Build
import ScriptLint.Proofs.Log

/-!
# The moves of the builder

`Builder.step` reads one line. This module says once what a step can do: `Move` has a case for
every way a line can go, with the builder and the log it leads to, and `step_move` says that a step
is one of them. Statements about runs of the builder go through these cases, or through
`run_append`, and do not open `step` again.

A line first decides what the waiting key owns and closes the collections it is outside of
(`Builder.reached`). A key line also closes the lists at its width, so the line is placed on top of
`Builder.landing`. What is reported on the way is about the shape of the document
(`ofLines_structural`), and it is on the line itself or on the key that waits (`Move.reported`).
-/

namespace ScriptLint.Document

namespace Builder

/-- The stack once the waiting key is settled and what is wider than the line is closed. -/
def reached (b : Builder) (line : Line) : Stack :=
  if line.width < b.previous then (b.settled line).unwind line.width else b.settled line

/-- The stack on top of which the line is placed. -/
def landing (b : Builder) (line : Line) : Stack :=
  if line.isItem then b.reached line else (b.reached line).closeLists line.width

/-- The line is less deep than the one before, and no open collection has its width. -/
def shrinks (b : Builder) (line : Line) : Bool :=
  line.width < b.previous && (b.reached line).top.width != line.width

/-- The line is deeper than the one before and begins no collection. -/
def grows (b : Builder) (line : Line) : Bool := b.previous < line.width && !b.opens line

/-- The stack with an empty map under the waiting key. -/
def sealed (b : Builder) : Stack :=
  match b.waiting with
  | some w => b.stack.withBlock (b.stack.top.block.attach w.key (.map [] w.key.line))
  | none => b.stack

end Builder

/-- The entries of a map; a list has none. -/
def Block.entries : Block → Entries
  | .map entries => entries
  | .list _ => []

/-- The document at the end has all that is open closed. -/
theorem Builder.finish_eq_sealed (b : Builder) : b.finish = b.sealed.finish.entries := rfl

/-- What one line can do to the builder, and what it gives rise to. -/
inductive Move (b : Builder) (line : Line) : Builder → Log → Prop
  /-- The line belongs to a line that was left out. -/
  | skip : b.skips line = true → Move b line b []
  /-- The line is at a width that no open collection has. -/
  | shrink : b.skips line = false → b.shrinks line = true →
      Move b line
        { stack := b.reached line, previous := line.width, skipped := some line.width }
        (b.waitingLog ++ [(Issue.shrunkSpacing b.previous line.width
          (b.reached line).widths).onLine line.number])
  /-- An entry that is in no list. -/
  | orphanEntry {entries : Entries} : b.skips line = false → b.shrinks line = false →
      line.isItem = true → (b.landing line).top.block = .map entries →
      Move b line { stack := b.landing line, previous := line.width }
        (b.waitingLog ++ [Issue.orphanEntry.onLine line.number])
  /-- An entry that opens a block. -/
  | block {items : List Node} : b.skips line = false → b.shrinks line = false →
      line.isItem = true → (b.landing line).top.block = .list items →
      Text.endsWith [':'] line.itemText = true →
      Move b line
        { stack := b.landing line, previous := line.width
          waiting := some ⟨⟨Text.trim line.itemText.dropLast, line.number⟩, line.width⟩ }
        (b.waitingLog ++ if b.grows line then [Issue.grownSpacing.onLine line.number] else [])
  /-- An entry that is a scalar. -/
  | scalar {items : List Node} : b.skips line = false → b.shrinks line = false →
      line.isItem = true → (b.landing line).top.block = .list items →
      Text.endsWith [':'] line.itemText = false →
      Move b line
        { stack := (b.landing line).withBlock
            (.list (items ++ [.scalar ⟨line.itemText, line.number⟩]))
          previous := line.width }
        (b.waitingLog ++ if b.grows line then [Issue.grownSpacing.onLine line.number] else [])
  /-- A key line inside of a list. -/
  | strayKey {items : List Node} : b.skips line = false → b.shrinks line = false →
      line.isItem = false → (b.landing line).top.block = .list items →
      Move b line
        { stack := b.landing line, previous := line.width, skipped := some line.width }
        (b.waitingLog ++ if (b.landing line).top.block.continuesInline then []
          else [Issue.orphanKey.onLine line.number])
  /-- A key whose collection is to come. -/
  | heading {entries : Entries} : b.skips line = false → b.shrinks line = false →
      line.isItem = false → (b.landing line).top.block = .map entries →
      Text.endsWith [':'] line.text = true →
      Move b line
        { stack := b.landing line, previous := line.width
          waiting := some ⟨⟨Text.trim line.text.dropLast, line.number⟩, line.width⟩ }
        b.waitingLog
  /-- A key with its value on one line. -/
  | inline {entries : Entries} {key value : Text} : b.skips line = false →
      b.shrinks line = false → line.isItem = false → (b.landing line).top.block = .map entries →
      Text.endsWith [':'] line.text = false → splitInline line.text = some (key, value) →
      Move b line
        { stack := (b.landing line).withBlock (.map (entries.insert ⟨Text.trim key, line.number⟩
            (.scalar ⟨Text.trim value, line.number⟩)))
          previous := line.width }
        (b.waitingLog ++ repeatLog (.map entries) ⟨Text.trim key, line.number⟩)
  /-- A line without a key. -/
  | unread {entries : Entries} : b.skips line = false → b.shrinks line = false →
      line.isItem = false → (b.landing line).top.block = .map entries →
      Text.endsWith [':'] line.text = false → splitInline line.text = none →
      Move b line { stack := b.landing line, previous := line.width } b.waitingLog

namespace Builder

/-- A line that belongs to a line left out changes nothing. -/
theorem step_of_skips {b : Builder} {line : Line} (h : b.skips line = true) :
    b.step line = (b, []) := by
  rw [step, if_pos h]

/-- A line at a width that no open collection has is left out with what is nested under it. -/
theorem step_of_shrinks {b : Builder} {line : Line} (h : b.skips line = false)
    (hs : b.shrinks line = true) :
    b.step line = ({ stack := b.reached line, previous := line.width, skipped := some line.width },
      b.waitingLog ++ [(Issue.shrunkSpacing b.previous line.width
        (b.reached line).widths).onLine line.number]) := by
  simp only [shrinks, Bool.and_eq_true, decide_eq_true_eq, bne_iff_ne, ne_eq] at hs
  rw [step, if_neg (by simp [h])]
  exact if_pos hs

/-- Any other line is placed. -/
theorem step_of_places {b : Builder} {line : Line} (h : b.skips line = false)
    (hs : b.shrinks line = false) :
    b.step line = ((place (b.reached line) (b.grows line) line).1,
      b.waitingLog ++ (place (b.reached line) (b.grows line) line).2) := by
  have hn : ¬ (line.width < b.previous ∧ (b.reached line).top.width ≠ line.width) := by
    simpa [shrinks] using hs
  rw [step, if_neg (by simp [h])]
  exact if_neg hn

/-- A step of the builder is one of the moves. -/
theorem step_move (b : Builder) (line : Line) : Move b line (b.step line).1 (b.step line).2 := by
  cases hk : b.skips line with
  | true => rw [step_of_skips hk]; exact .skip hk
  | false =>
  cases hs : b.shrinks line with
  | true => rw [step_of_shrinks hk hs]; exact .shrink hk hs
  | false =>
  rw [step_of_places hk hs, place]
  cases hi : line.isItem with
  | true =>
    have hl : b.landing line = b.reached line := by rw [landing, if_pos hi]
    rw [if_pos rfl, placeItem]
    cases hb : (b.reached line).top.block with
    | map entries => rw [← hl] at hb ⊢; exact .orphanEntry hk hs hi hb
    | list items =>
      rw [← hl] at hb ⊢
      simp only
      cases he : Text.endsWith [':'] line.itemText with
      | true => exact .block hk hs hi hb he
      | false => exact .scalar hk hs hi hb he
  | false =>
    have hl : b.landing line = (b.reached line).closeLists line.width := by
      rw [landing, if_neg (by simp [hi])]
    rw [if_neg (by simp), placeKey, ← hl]
    cases hb : (b.landing line).top.block with
    | list items =>
      have := Move.strayKey hk hs hi hb
      rwa [hb] at this
    | map entries =>
      simp only
      cases he : Text.endsWith [':'] line.text with
      | true => simpa using Move.heading hk hs hi hb he
      | false =>
        cases hp : splitInline line.text with
        | none => simpa using Move.unread hk hs hi hb he hp
        | some p => exact .inline hk hs hi hb he hp

/-! ## Runs -/

@[simp] theorem run_nil (b : Builder) : b.run [] = (b, []) := rfl

/-- Lines are read one after the other. -/
theorem run_cons (b : Builder) (line : Line) (rest : List Line) :
    b.run (line :: rest) =
      (((b.step line).1.run rest).1, (b.step line).2 ++ ((b.step line).1.run rest).2) := rfl

/-- A run is cut anywhere. -/
theorem run_append (b : Builder) (first rest : List Line) :
    b.run (first ++ rest) =
      (((b.run first).1.run rest).1, (b.run first).2 ++ ((b.run first).1.run rest).2) := by
  induction first generalizing b with
  | nil => simp
  | cons line first ih => simp [run_cons, ih]

/-- What holds at the start and is kept by every move holds after every run. -/
theorem run_induction {P : Builder → Prop}
    (hmove : ∀ {b b' : Builder} {line : Line} {log : Log}, Move b line b' log → P b → P b')
    {b : Builder} (hb : P b) (lines : List Line) : P (b.run lines).1 := by
  induction lines generalizing b with
  | nil => exact hb
  | cons line rest ih => exact ih (hmove (b.step_move line) hb)

end Builder

/-! ## What is reported -/

/-- The issue is about the shape of a document. -/
def isStructural : Issue → Bool
  | .repeatedKey _ | .shrunkSpacing .. | .grownSpacing | .orphanEntry | .orphanKey => true
  | _ => false

/-- The finding is about the shape of a document. -/
def AboutShape (d : Diagnostic) : Prop :=
  ∃ issue line, isStructural issue = true ∧ d = issue.onLine line

/-- An issue on the shape of the document is about it on any line. -/
theorem onLine_structural {issue : Issue} (h : isStructural issue = true) (line : Int) :
    AboutShape (issue.onLine line) :=
  ⟨issue, line, h, rfl⟩

/-- What is reported of a waiting key is about the shape of the document. -/
theorem Builder.waitingLog_structural (b : Builder) : Every AboutShape b.waitingLog := by
  unfold waitingLog
  split
  · exact .ite (.single (onLine_structural rfl _)) .nil
  · exact .nil

/-- What a step reports is about the shape of the document. -/
theorem Move.structural {b b' : Builder} {line : Line} {log : Log} (h : Move b line b' log) :
    Every AboutShape log := by
  have hw := b.waitingLog_structural
  cases h with
  | skip => exact .nil
  | shrink | orphanEntry => exact hw.append (.single (onLine_structural rfl _))
  | block | scalar => exact hw.append (.ite (.single (onLine_structural rfl _)) .nil)
  | strayKey => exact hw.append (.ite .nil (.single (onLine_structural rfl _)))
  | heading | unread => exact hw
  | inline => exact hw.append (.ite (.single (onLine_structural rfl _)) .nil)

/-- A step reports on its own line or on the waiting key. -/
theorem Move.reported {b b' : Builder} {line : Line} {log : Log} (h : Move b line b' log) :
    Every (fun d => d ∈ b.waitingLog ∨ d.line = line.number) log := by
  have hw : Every (fun d => d ∈ b.waitingLog ∨ d.line = line.number) b.waitingLog :=
    fun _ hd => .inl hd
  cases h with
  | skip => exact .nil
  | shrink | orphanEntry => exact hw.append (.single (.inr rfl))
  | block | scalar => exact hw.append (.ite (.single (.inr rfl)) .nil)
  | strayKey => exact hw.append (.ite .nil (.single (.inr rfl)))
  | heading | unread => exact hw
  | inline => exact hw.append (.ite (.single (.inr rfl)) .nil)

/-- Building a document only reports on its shape. -/
theorem ofLines_structural (lines : List Line) : Every AboutShape (ofLines lines).2 := by
  have hrun : ∀ b : Builder, Every AboutShape (b.run lines).2 := by
    induction lines with
    | nil => exact fun _ => .nil
    | cons line rest ih => exact fun b => (b.step_move line).structural.append (ih _)
  exact (hrun {}).append (Builder.waitingLog_structural _)

end ScriptLint.Document
