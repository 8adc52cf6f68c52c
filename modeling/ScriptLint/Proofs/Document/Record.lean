import ScriptLint.Proofs.Document.Mark
import ScriptLint.Proofs.Document.Rest

/-!
# What the builder records

The marks of a builder are those of its open collections, outermost first, and that of its waiting
key (`Builder.marks`). Closing collections and settling the waiting key adds no mark, and keeps all
of them if no key is repeated (`Stack.Fresh`). A line adds what it says if it is placed in a
collection of its kind, and nothing otherwise (`Builder.added`, `Move.marks_subset`,
`Move.marks_eq`). So the marks of a document are among those that its lines added
(`ofLines_marks_subset`), and if no key is repeated they are these, in the order of the lines
(`ofLines_marks`).
-/

namespace ScriptLint

/-- Nothing is said of a repeated key. -/
def Log.NoRepeat (log : Log) : Prop := ∀ d ∈ log, d.key ≠ "duplicate_key"

instance (log : Log) : Decidable log.NoRepeat := inferInstanceAs (Decidable (∀ d ∈ log, d.key ≠ _))

/-- No key is repeated in two logs if none is in each. -/
theorem Log.noRepeat_append {first rest : Log} :
    NoRepeat (first ++ rest) ↔ first.NoRepeat ∧ rest.NoRepeat :=
  List.forall_mem_append

namespace Document

/-- Nothing is said of a key exactly if it is new. -/
theorem noRepeat_repeatLog {block : Block} {key : Tracked} :
    (repeatLog block key).NoRepeat ↔ block.repeats key = false := by
  rw [repeatLog]
  split
  · next h =>
    exact ⟨fun hn => absurd rfl (hn _ (List.mem_singleton_self _)), fun hf =>
      nomatch h.symm.trans hf⟩
  · next h => exact ⟨fun _ => Bool.eq_false_iff.2 h, fun _ => nofun⟩

/-! ## Open collections -/

namespace Stack

/-- The marks of open collections, outermost first, each after its key. -/
def marksFrom : Frame → List Frame → List Mark
  | top, [] => top.block.marks
  | top, owner :: rest => marksFrom owner rest ++ ⟨owner.block.keyRole, top.key⟩ :: top.block.marks

/-- The marks of the open collections. -/
def marks (s : Stack) : List Mark := marksFrom s.top s.below

/-- A collection that is opened adds the mark of its key and its own marks. -/
theorem marks_push (s : Stack) (f : Frame) :
    (s.push f).marks = s.marks ++ ⟨s.top.block.keyRole, f.key⟩ :: f.block.marks := rfl

/-- The innermost collection has the last marks. -/
theorem marks_withBlock {s : Stack} {block : Block} {added : List Mark}
    (h : block.marks = s.top.block.marks ++ added) :
    (s.withBlock block).marks = s.marks ++ added := by
  obtain ⟨top, below⟩ := s
  cases below with
  | nil => exact h
  | cons owner rest =>
    show marksFrom owner rest ++ _ :: block.marks =
      (marksFrom owner rest ++ _ :: top.block.marks) ++ added
    rw [h, List.append_assoc]
    rfl

/-- A change to the innermost collection adds no marks but those that are new in it. -/
theorem marks_withBlock_subset {s : Stack} {block : Block} {added : List Mark}
    (h : block.marks ⊆ s.top.block.marks ++ added) :
    (s.withBlock block).marks ⊆ s.marks ++ added := by
  obtain ⟨top, below⟩ := s
  cases below with
  | nil => exact h
  | cons owner rest =>
    show marksFrom owner rest ++ _ :: block.marks ⊆
      (marksFrom owner rest ++ _ :: top.block.marks) ++ added
    rw [List.append_assoc]
    refine List.append_subset.2
      ⟨List.subset_append_left .., fun m hm => List.mem_append_right _ ?_⟩
    rcases List.mem_cons.1 hm with rfl | hm
    · exact List.mem_cons_self
    · exact List.mem_cons_of_mem _ (h hm)

/-- Closing a collection adds no mark. -/
theorem marks_adopt_subset (top owner : Frame) (rest : List Frame) :
    marks ⟨owner.adopt top, rest⟩ ⊆ marks ⟨top, owner :: rest⟩ := by
  have h := owner.block.marks_attach_subset top.key (top.block.toNode top.line)
  rw [Block.marks_toNode] at h
  exact marks_withBlock_subset (s := ⟨owner, rest⟩) h

/-- Closing collections adds no marks. -/
theorem marks_closeFrom_subset (p : Frame → Bool) (s : Stack) :
    (closeFrom p s.top s.below).marks ⊆ s.marks :=
  closeFrom_induction (P := fun t => t.marks ⊆ s.marks)
    (fun h => List.Subset.trans (marks_adopt_subset _ _ _) h) p (List.Subset.refl _)

/-- No open collection has a key that its owner has already. -/
inductive Fresh : Stack → Prop
  | document (f : Frame) : Fresh ⟨f, []⟩
  | above {f owner : Frame} {rest : List Frame} : owner.block.repeats f.key = false →
      Fresh ⟨owner, rest⟩ → Fresh ⟨f, owner :: rest⟩

namespace Fresh

/-- A change to the innermost collection keeps the open keys fresh. -/
theorem withBlock {s : Stack} (h : s.Fresh) (block : Block) : (s.withBlock block).Fresh := by
  cases h with
  | document f => exact .document _
  | above hk h => exact .above hk h

/-- Closing the innermost collection keeps the open keys fresh. -/
theorem adopt {top owner : Frame} {rest : List Frame} (h : Fresh ⟨top, owner :: rest⟩) :
    Fresh ⟨owner.adopt top, rest⟩ := by
  cases h with
  | above _ h => exact h.withBlock _

/-- Closing a collection keeps all marks if its key is new. -/
theorem marks_adopt {top owner : Frame} {rest : List Frame} (h : Fresh ⟨top, owner :: rest⟩) :
    marks ⟨owner.adopt top, rest⟩ = marks ⟨top, owner :: rest⟩ := by
  cases h with
  | above hk _ =>
    have h := Block.marks_attach hk (top.block.toNode top.line)
    rw [Block.marks_toNode] at h
    exact marks_withBlock (s := ⟨owner, rest⟩) h

/-- Closing collections keeps the open keys fresh and all marks. -/
theorem closeFrom {s : Stack} (h : s.Fresh) (p : Frame → Bool) :
    (closeFrom p s.top s.below).Fresh ∧ (Stack.closeFrom p s.top s.below).marks = s.marks :=
  closeFrom_induction (P := fun t => t.Fresh ∧ t.marks = s.marks)
    (fun ⟨hf, hm⟩ => ⟨hf.adopt, hf.marks_adopt.trans hm⟩) p ⟨h, rfl⟩

end Fresh

end Stack

/-! ## The builder -/

namespace Builder

variable {b b' : Builder} {line : Line} {log : Log}

/-- The mark of the waiting key. -/
def waitingMarks (b : Builder) : List Mark :=
  match b.waiting with
  | some w => [⟨b.stack.top.block.keyRole, w.key⟩]
  | none => []

/-- The marks of the builder. -/
def marks (b : Builder) : List Mark := b.stack.marks ++ b.waitingMarks

/-- The line is placed in a collection of its kind. -/
def places (b : Builder) (line : Line) : Bool :=
  !b.skips line && !b.shrinks line && (b.landing line).top.block.isList == line.isItem

/-- The marks that the line adds. -/
def added (b : Builder) (line : Line) : List Mark := if b.places line then line.marks else []

/-- The marks that lines add, one after the other. -/
def recorded (b : Builder) : List Line → List Mark
  | [] => []
  | line :: rest => b.added line ++ (b.step line).1.recorded rest

/-- A waiting key that gets an empty map adds no marks. -/
theorem sealed_marks_subset (b : Builder) : b.sealed.marks ⊆ b.marks := by
  unfold sealed marks waitingMarks
  cases b.waiting with
  | none => rw [List.append_nil]; exact List.Subset.refl _
  | some w => exact Stack.marks_withBlock_subset (Block.marks_attach_subset _ _ _)

/-- A waiting key that is not reported is new in its map. -/
theorem repeats_of_waitingLog (h : b.waitingLog.NoRepeat) {w : Waiting} (hw : b.waiting = some w) :
    b.stack.top.block.repeats w.key = false := by
  rw [waitingLog, hw] at h
  exact noRepeat_repeatLog.1 h

/-- A waiting key that gets an empty map keeps all marks, if it is not repeated. -/
theorem sealed_marks (h : b.waitingLog.NoRepeat) : b.sealed.marks = b.marks := by
  have hk := fun w => repeats_of_waitingLog h (w := w)
  unfold sealed marks waitingMarks
  cases hw : b.waiting with
  | none => rw [List.append_nil]
  | some w => exact Stack.marks_withBlock (Block.marks_attach (hk w hw) _)

/-- A collection that is opened has no marks yet. -/
theorem opening_marks (line : Line) (key : Tracked) : (opening line key).block.marks = [] := by
  unfold opening
  cases line.isItem <;> rfl

/-- Opening the collection of the waiting key keeps the marks. -/
theorem push_opening_marks {w : Waiting} (hw : b.waiting = some w) (line : Line) :
    (b.stack.push (opening line w.key)).marks = b.marks := by
  rw [Stack.marks_push, opening_marks, marks, waitingMarks, hw]
  rfl

/-- A waiting key that is settled by a line adds no marks. -/
theorem settled_marks_subset (b : Builder) (line : Line) : (b.settled line).marks ⊆ b.marks := by
  rcases b.settled_cases line with ⟨-, he⟩ | ⟨-, w, hw, he⟩
  · exact he ▸ b.sealed_marks_subset
  · rw [he, push_opening_marks hw]
    exact List.Subset.refl _

/-- Closing what a line is outside of adds no marks. -/
theorem reached_marks_subset (b : Builder) (line : Line) : (b.reached line).marks ⊆ b.marks :=
  reached_induction (P := fun s => s.marks ⊆ b.marks)
    (fun h => List.Subset.trans (Stack.marks_adopt_subset _ _ _) h) (b.settled_marks_subset line)

/-- Closing all that a line is not placed into adds no marks. -/
theorem landing_marks_subset (b : Builder) (line : Line) : (b.landing line).marks ⊆ b.marks :=
  landing_induction (P := fun s => s.marks ⊆ b.marks)
    (fun h => List.Subset.trans (Stack.marks_adopt_subset _ _ _) h) (b.settled_marks_subset line)

/-- No open collection has a repeated key, and the marks are those of the builder. -/
def Keeps (b : Builder) (s : Stack) : Prop := s.Fresh ∧ s.marks = b.marks

/-- A waiting key that gets an empty map keeps the open keys fresh and all marks, if it is not
repeated. -/
theorem keeps_sealed (h : b.stack.Fresh) (hw : b.waitingLog.NoRepeat) : b.Keeps b.sealed := by
  refine ⟨?_, sealed_marks hw⟩
  unfold sealed
  split
  · exact h.withBlock _
  · exact h

/-- A waiting key that is settled by a line keeps the open keys fresh and all marks, if it is not
repeated. -/
theorem keeps_settled (h : b.stack.Fresh) (hw : b.waitingLog.NoRepeat) (line : Line) :
    b.Keeps (b.settled line) := by
  rcases b.settled_cases line with ⟨-, he⟩ | ⟨-, w, hwait, he⟩
  · exact he ▸ keeps_sealed h hw
  · exact he ▸ ⟨.above (repeats_of_waitingLog hw hwait) h, push_opening_marks hwait line⟩

/-- Closing the innermost collection keeps the open keys fresh and all marks. -/
theorem Keeps.adopt {top owner : Frame} {rest : List Frame} (h : b.Keeps ⟨top, owner :: rest⟩) :
    b.Keeps ⟨owner.adopt top, rest⟩ :=
  ⟨h.1.adopt, h.1.marks_adopt.trans h.2⟩

/-! ### Steps -/

/-- What a line adds where it is placed. -/
theorem added_of_places (hk : b.skips line = false) (hs : b.shrinks line = false)
    (hp : (b.landing line).top.block.isList = line.isItem) : b.added line = line.marks := by
  rw [added, places, hk, hs, hp]
  simp

/-- An entry that lands in a list adds its marks. -/
theorem added_of_list {items : List Node} (hk : b.skips line = false) (hs : b.shrinks line = false)
    (hi : line.isItem = true) (hb : (b.landing line).top.block = .list items) :
    b.added line = line.marks :=
  added_of_places hk hs (by rw [hb, hi]; rfl)

/-- A key that lands in a map adds its marks. -/
theorem added_of_map {entries : Entries} (hk : b.skips line = false) (hs : b.shrinks line = false)
    (hi : line.isItem = false) (hb : (b.landing line).top.block = .map entries) :
    b.added line = line.marks :=
  added_of_places hk hs (by rw [hb, hi]; rfl)

/-- A line that is skipped adds nothing. -/
theorem added_of_skips (hk : b.skips line = true) : b.added line = [] := by
  rw [added, places, hk]
  rfl

/-- A line at a width that nothing has adds nothing. -/
theorem added_of_shrinks (hs : b.shrinks line = true) : b.added line = [] := by
  rw [added, places, hs, Bool.not_true, Bool.and_false, Bool.false_and]
  rfl

/-- An entry outside of lists or a key inside of one adds nothing. -/
theorem added_of_mismatch (hp : (b.landing line).top.block.isList ≠ line.isItem) :
    b.added line = [] := by
  rw [added, places, beq_eq_false_iff_ne.2 hp, Bool.and_false]
  rfl

/-- The marks of the builder are those of the stack and the added ones, unless a key is repeated,
and then they are among these. -/
structure Extends (b : Builder) (s : Stack) (added : List Mark) (log : Log) : Prop where
  fresh : s.Fresh → b.stack.Fresh
  subset : b.marks ⊆ s.marks ++ added
  eq : log.NoRepeat → b.marks = s.marks ++ added

/-- The stack got another content on top, or none, and there may be a key that is waiting. -/
theorem Extends.of_eq {s : Stack} {added : List Mark} (hf : s.Fresh → b.stack.Fresh)
    (h : b.marks = s.marks ++ added) (log : Log) : b.Extends s added log :=
  ⟨hf, h ▸ List.Subset.refl _, fun _ => h⟩

/-- A key with its node adds its marks, and none is lost if the key is new. -/
theorem Extends.attach (s : Stack) {key : Tracked} (node : Node) (previous : Int)
    (hlog : log.NoRepeat → s.top.block.repeats key = false) :
    Extends { stack := s.withBlock (s.top.block.attach key node), previous } s
      (⟨s.top.block.keyRole, key⟩ :: node.marks) log := by
  refine ⟨fun h => h.withBlock _, ?_, fun h => ?_⟩
  · rw [marks, waitingMarks, List.append_nil]
    exact Stack.marks_withBlock_subset (Block.marks_attach_subset key node _)
  · rw [marks, waitingMarks, List.append_nil]
    exact Stack.marks_withBlock (Block.marks_attach (hlog h) node)

end Builder

/-- A line that is not skipped leads to the stack that it reaches, and adds what it says if it is
placed there. -/
theorem Move.extends {b b' : Builder} {line : Line} {log : Log} (hm : Move b line b' log) :
    b' = b ∧ b.added line = [] ∨
      ∃ s, (s = b.reached line ∨ s = b.landing line) ∧ b'.Extends s (b.added line) log := by
  cases hm with
  | skip hk => exact .inl ⟨rfl, Builder.added_of_skips hk⟩
  | shrink _ hs =>
    refine .inr ⟨_, .inl rfl, .of_eq id ?_ _⟩
    rw [Builder.added_of_shrinks hs]
    rfl
  | orphanEntry _ _ hi hb | strayKey _ _ hi hb =>
    refine .inr ⟨_, .inr rfl, .of_eq id ?_ _⟩
    rw [Builder.added_of_mismatch (by rw [hb, hi]; exact nofun)]
    rfl
  | block hk hs hi hb he =>
    refine .inr ⟨_, .inr rfl, .of_eq id ?_ _⟩
    rw [Builder.added_of_list hk hs hi hb, Line.marks_of_block hi he, Builder.marks,
      Builder.waitingMarks, hb]
    rfl
  | @scalar items hk hs hi hb he =>
    have hblock : (Block.list (items ++ [.scalar ⟨line.itemText, line.number⟩])).marks =
        (b.landing line).top.block.marks ++ [⟨.item, line.itemText, line.number⟩] := by
      rw [hb]
      exact itemMarks_append _ _
    refine .inr ⟨_, .inr rfl, .of_eq ?_ ?_ _⟩
    · exact fun h => h.withBlock _
    · rw [Builder.added_of_list hk hs hi hb, Line.marks_of_scalar hi he, Builder.marks,
        Stack.marks_withBlock hblock]
      exact List.append_nil _
  | heading hk hs hi hb he =>
    refine .inr ⟨_, .inr rfl, .of_eq id ?_ _⟩
    rw [Builder.added_of_map hk hs hi hb, Line.marks_of_heading hi he, Builder.marks,
      Builder.waitingMarks, hb]
    rfl
  | @inline entries key value hk hs hi hb he hp =>
    have hadded : b.added line =
        [⟨.key, Text.trim key, line.number⟩, ⟨.value, Text.trim value, line.number⟩] := by
      rw [Builder.added_of_map hk hs hi hb, Line.marks_of_inline hi he hp]
    have hnew : (b.waitingLog ++ repeatLog (.map entries) ⟨Text.trim key, line.number⟩).NoRepeat →
        (b.landing line).top.block.repeats ⟨Text.trim key, line.number⟩ = false :=
      fun h => hb ▸ noRepeat_repeatLog.1 (Log.noRepeat_append.1 h).2
    have hext := Builder.Extends.attach _ (.scalar ⟨Text.trim value, line.number⟩) line.width hnew
    rw [hb] at hext
    exact .inr ⟨_, .inr rfl, hadded ▸ hext⟩
  | unread hk hs hi hb he hp =>
    refine .inr ⟨_, .inr rfl, .of_eq id ?_ _⟩
    rw [Builder.added_of_map hk hs hi hb, Line.marks_of_unread hi he hp]
    rfl

/-- A move adds no other marks than the line does. -/
theorem Move.marks_subset {b b' : Builder} {line : Line} {log : Log} (hm : Move b line b' log) :
    b'.marks ⊆ b.marks ++ b.added line := by
  rcases hm.extends with ⟨rfl, -⟩ | ⟨s, hs, hext⟩
  · exact List.subset_append_left ..
  · have hsub : s.marks ⊆ b.marks := by
      rcases hs with rfl | rfl
      · exact b.reached_marks_subset line
      · exact b.landing_marks_subset line
    refine List.Subset.trans hext.subset (List.append_subset.2 ⟨?_, List.subset_append_right ..⟩)
    exact List.Subset.trans hsub (List.subset_append_left ..)

/-- If no key is repeated, a move adds what the line does and loses nothing. -/
theorem Move.marks_eq {b b' : Builder} {line : Line} {log : Log} (hm : Move b line b' log)
    (h : b.stack.Fresh) (hw : b.waitingLog.NoRepeat) (hlog : log.NoRepeat) :
    b'.stack.Fresh ∧ b'.marks = b.marks ++ b.added line := by
  rcases hm.extends with ⟨rfl, ha⟩ | ⟨s, hs, hext⟩
  · exact ⟨h, by rw [ha, List.append_nil]⟩
  · have hset := Builder.keeps_settled h hw line
    have hkeeps : b.Keeps s := by
      rcases hs with rfl | rfl
      · exact Builder.reached_induction Builder.Keeps.adopt hset
      · exact Builder.landing_induction Builder.Keeps.adopt hset
    exact ⟨hext.fresh hkeeps.1, by rw [hext.eq hlog, hkeeps.2]⟩

/-! ## Runs -/

namespace Builder

variable {b : Builder}

/-- All that a run from the builder on says, with what is left to be said of the last key. -/
def story (b : Builder) (lines : List Line) : Log := (b.run lines).2 ++ (b.run lines).1.waitingLog

/-- The reports on the first line come before those on the others. -/
theorem story_cons (b : Builder) (line : Line) (rest : List Line) :
    b.story (line :: rest) = (b.step line).2 ++ (b.step line).1.story rest := by
  rw [story, run_cons, List.append_assoc]
  rfl

/-- What is said of the waiting key is said in the end. -/
theorem waitingLog_subset_story (b : Builder) (lines : List Line) :
    b.waitingLog ⊆ b.story lines := by
  induction lines generalizing b with
  | nil => exact List.Subset.refl _
  | cons line rest ih =>
    have hm := b.step_move line
    have hrest := ih (b.step line).1
    rw [story_cons]
    generalize b.step line = r at hm hrest
    obtain ⟨b', log⟩ := r
    cases hm with
    | skip => exact hrest
    | heading | unread => exact List.subset_append_left ..
    | _ => exact List.subset_append_of_subset_left _ (List.subset_append_left ..)

/-- If no key is repeated in all lines, the waiting key is not. -/
theorem waitingLog_noRepeat {lines : List Line} (h : (b.story lines).NoRepeat) :
    b.waitingLog.NoRepeat :=
  fun d hd => h d (b.waitingLog_subset_story lines hd)

/-- A run adds no other marks than its lines do. -/
theorem run_marks_subset (b : Builder) (lines : List Line) :
    (b.run lines).1.marks ⊆ b.marks ++ b.recorded lines := by
  induction lines generalizing b with
  | nil => exact List.subset_append_left ..
  | cons line rest ih =>
    rw [run_cons, recorded, ← List.append_assoc]
    refine List.Subset.trans (ih _) (List.append_subset.2 ⟨?_, List.subset_append_right ..⟩)
    exact List.Subset.trans (b.step_move line).marks_subset (List.subset_append_left ..)

/-- If no key is repeated, a run adds what its lines do and loses nothing. -/
theorem run_marks {lines : List Line} (h : b.stack.Fresh) (hs : (b.story lines).NoRepeat) :
    (b.run lines).1.stack.Fresh ∧ (b.run lines).1.marks = b.marks ++ b.recorded lines := by
  induction lines generalizing b with
  | nil => exact ⟨h, (List.append_nil _).symm⟩
  | cons line rest ih =>
    have hw := waitingLog_noRepeat hs
    rw [story_cons, Log.noRepeat_append] at hs
    obtain ⟨hf, hm⟩ := (b.step_move line).marks_eq h hw hs.1
    obtain ⟨hf', hm'⟩ := ih hf hs.2
    exact ⟨hf', by rw [run_cons, recorded, hm', hm, List.append_assoc]⟩

/-- What is recorded in two groups of lines is recorded in each in turn. -/
theorem recorded_append (b : Builder) (first rest : List Line) :
    b.recorded (first ++ rest) = b.recorded first ++ (b.run first).1.recorded rest := by
  induction first generalizing b with
  | nil => rfl
  | cons line first ih =>
    rw [List.cons_append, recorded, recorded, ih, run_cons, List.append_assoc]

/-- Every recorded mark is one that a line has by its text. -/
theorem mem_marks_of_mem_recorded {lines : List Line} {mark : Mark} (h : mark ∈ b.recorded lines) :
    ∃ line ∈ lines, mark ∈ line.marks := by
  induction lines generalizing b with
  | nil => cases h
  | cons line rest ih =>
    rcases List.mem_append.1 h with h | h
    · rw [added] at h
      split at h
      · exact ⟨line, List.mem_cons_self, h⟩
      · cases h
    · obtain ⟨l, hl, hm⟩ := ih h
      exact ⟨l, List.mem_cons_of_mem _ hl, hm⟩

/-- The marks of the document are those of its bottom frame once all is closed. -/
theorem Sound.finish_marks (h : b.Sound) : b.finish.marks = b.document.marks := by
  rw [h.document_eq]
  rfl

end Builder

/-- The marks of a document are among those that its lines added. -/
theorem ofLines_marks_subset (lines : List Line) :
    (ofLines lines).1.marks ⊆ Builder.recorded {} lines := by
  have hrun := Builder.run_marks_subset {} lines
  rw [show Builder.marks {} = [] from rfl, List.nil_append] at hrun
  show (Builder.run {} lines).1.finish.marks ⊆ _
  rw [(Builder.run_sound lines).finish_marks]
  exact List.Subset.trans (Stack.marks_closeFrom_subset _ _)
    (List.Subset.trans (Builder.sealed_marks_subset _) hrun)

/-- If no key is repeated, the marks of a document are those that its lines added. -/
theorem ofLines_marks {lines : List Line} (h : (ofLines lines).2.NoRepeat) :
    (ofLines lines).1.marks = Builder.recorded {} lines := by
  obtain ⟨hf, hm⟩ := Builder.run_marks (b := {}) (.document _) h
  have hkeeps := Builder.keeps_sealed hf (Log.noRepeat_append.1 h).2
  show (Builder.run {} lines).1.finish.marks = _
  calc (Builder.run {} lines).1.finish.marks
    _ = (Builder.run {} lines).1.document.marks := (Builder.run_sound lines).finish_marks
    _ = (Builder.run {} lines).1.sealed.marks := (hkeeps.1.closeFrom _).2
    _ = (Builder.run {} lines).1.marks := hkeeps.2
    _ = Builder.recorded {} lines := hm

end Document

end ScriptLint
