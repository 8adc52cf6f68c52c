import ScriptLint.Proofs.Document.Account

/-!
# What becomes of an entry

An entry that the builder has recorded stays in the document, unless a key is repeated: then the
later node takes the place of the earlier one, and the later key is not stored again. This is
reported on the line of the later key.

At any time, the document is what the builder has when all that is open is closed
(`Builder.document`). Closing a collection early, or opening the collection of a waiting key,
changes nothing about the marks of the document (`Builder.document_subset_landing`), and a
collection that gets more marks only adds marks to it (`Stack.whole_gains`). So a move keeps the
marks of the document and adds those of the line, or there is a report on the line
(`Move.survives`). Along a run, an entry stays until there is such a report
(`Builder.run_survives`).
-/

namespace ScriptLint

/-- Of two nodes under the same key, the one with more marks gives more marks. -/
theorem keyMarks_insert_mono (role : Role) (key : Tracked) {node node' : Node}
    (h : node.marks ⊆ node'.marks) (entries : Entries) :
    keyMarks role (entries.insert key node) ⊆ keyMarks role (entries.insert key node') := by
  have hplace : ∀ rest, node.marks ++ rest ⊆ node'.marks ++ rest := fun rest =>
    List.append_subset.2 ⟨List.subset_append_of_subset_left _ h, List.subset_append_right ..⟩
  induction entries with
  | nil => exact List.cons_subset_cons _ (hplace _)
  | cons e rest ih =>
    obtain ⟨k, n⟩ := e
    rw [Entries.insert, Entries.insert]
    split
    · exact List.cons_subset_cons _ (hplace _)
    · refine List.cons_subset_cons _ (List.append_subset.2 ⟨List.subset_append_left .., ?_⟩)
      exact List.subset_append_of_subset_right _ ih

/-- A node under a key keeps its marks. -/
theorem subset_keyMarks_insert (role : Role) (key : Tracked) (node : Node) (entries : Entries) :
    node.marks ⊆ keyMarks role (entries.insert key node) := by
  induction entries with
  | nil => exact fun m hm => List.mem_cons_of_mem _ (List.mem_append_left _ hm)
  | cons e rest ih =>
    obtain ⟨k, n⟩ := e
    rw [Entries.insert]
    split
    · exact fun m hm => List.mem_cons_of_mem _ (List.mem_append_left _ hm)
    · exact fun m hm => List.mem_cons_of_mem _ (List.mem_append_right _ (ih hm))

namespace Document

namespace Block

/-- A node with more marks under a key gives the collection more marks. -/
theorem marks_attach_mono (block : Block) (key : Tracked) {node node' : Node}
    (h : node.marks ⊆ node'.marks) :
    (block.attach key node).marks ⊆ (block.attach key node').marks := by
  cases block with
  | list items =>
    rw [marks_attach rfl, marks_attach rfl]
    refine List.append_subset.2 ⟨List.subset_append_left .., ?_⟩
    exact List.subset_append_of_subset_right _ (List.cons_subset_cons _ h)
  | map entries => exact keyMarks_insert_mono .key key h entries

/-- A node that is attached to a block keeps its marks. -/
theorem subset_marks_attach (block : Block) (key : Tracked) (node : Node) :
    node.marks ⊆ (block.attach key node).marks := by
  cases block with
  | list items =>
    rw [marks_attach rfl]
    exact fun m hm => List.mem_append_right _ (List.mem_cons_of_mem _ hm)
  | map entries => exact subset_keyMarks_insert .key key node entries

end Block

/-! ## Closing all that is open -/

namespace Stack

/-- The marks of the document if all that is open is closed. -/
def whole (s : Stack) : List Mark := (closeFrom (fun _ => true) s.top s.below).marks

/-- It makes no difference for the document when a collection is closed. -/
theorem whole_adopt (top owner : Frame) (rest : List Frame) :
    whole ⟨owner.adopt top, rest⟩ = whole ⟨top, owner :: rest⟩ := by
  rw [whole, whole, closeFrom_of_pos rfl]

/-- A collection with more marks gives the document more marks. -/
theorem whole_withBlock_mono {block block' : Block} (h : block.marks ⊆ block'.marks) (s : Stack) :
    (s.withBlock block).whole ⊆ (s.withBlock block').whole := by
  obtain ⟨top, below⟩ := s
  induction below generalizing top block block' with
  | nil => exact h
  | cons owner rest ih =>
    show whole ⟨{ top with block }, owner :: rest⟩ ⊆ whole ⟨{ top with block := block' },
      owner :: rest⟩
    rw [← whole_adopt, ← whole_adopt]
    exact ih (owner.block.marks_attach_mono top.key (by simpa using h)) owner

/-- The innermost collection is part of the document. -/
theorem top_subset_whole (top : Frame) (below : List Frame) :
    top.block.marks ⊆ whole ⟨top, below⟩ := by
  induction below generalizing top with
  | nil => exact List.Subset.refl _
  | cons owner rest ih =>
    rw [← whole_adopt]
    refine List.Subset.trans ?_ (ih _)
    rw [Frame.adopt_block]
    exact Block.marks_toNode top.line top.block ▸ owner.block.subset_marks_attach top.key _

/-- What a collection gains, the document gains. -/
theorem whole_gains {s : Stack} {block : Block} {added : List Mark}
    (h : s.top.block.marks ++ added ⊆ block.marks) :
    s.whole ++ added ⊆ (s.withBlock block).whole := by
  obtain ⟨hold, hnew⟩ := List.append_subset.1 h
  refine List.append_subset.2 ⟨?_,
    List.Subset.trans hnew (top_subset_whole { s.top with block } s.below)⟩
  show (s.withBlock s.top.block).whole ⊆ _
  exact whole_withBlock_mono hold s

/-- The document gains a key with its node, or the key is reported. -/
theorem whole_attach (s : Stack) (key : Tracked) (node : Node) :
    s.whole ++ ⟨s.top.block.keyRole, key⟩ ::
    node.marks ⊆ (s.withBlock (s.top.block.attach key node)).whole ∨
      (Issue.repeatedKey key.text).onLine key.line ∈ repeatLog s.top.block key := by
  cases hr : s.top.block.repeats key with
  | true => exact .inr (by simp [repeatLog, hr])
  | false => exact .inl (whole_gains (Block.marks_attach hr node ▸ List.Subset.refl _))

end Stack

namespace Builder

variable {b : Builder} {line : Line}

/-- Opening the collection of the waiting key does not change the marks of the document. -/
theorem document_subset_settled (b : Builder) (line : Line) :
    b.document.marks ⊆ (b.settled line).whole := by
  rcases b.settled_cases line with ⟨-, he⟩ | ⟨-, w, hw, he⟩
  · rw [he]
    exact List.Subset.refl _
  · have hsealed : b.sealed =
        b.stack.withBlock (b.stack.top.block.attach w.key (.map [] w.key.line)) := by
      rw [sealed, hw]
    have hempty :
        (Node.map [] w.key.line).marks ⊆ ((opening line w.key).block.toNode line.number).marks :=
      List.nil_subset _
    rw [he, Stack.push, Stack.frames, ← Stack.whole_adopt, document, hsealed]
    exact Stack.whole_withBlock_mono (b.stack.top.block.marks_attach_mono w.key hempty) b.stack

/-- Closing what the line is outside of does not change the marks of the document. -/
theorem document_subset_reached (b : Builder) (line : Line) :
    b.document.marks ⊆ (b.reached line).whole :=
  reached_induction (P := fun s => b.document.marks ⊆ s.whole)
    (fun h => Stack.whole_adopt _ _ _ ▸ h)
    (b.document_subset_settled line)

/-- Closing all that a line is not placed into does not change the marks of the document. -/
theorem document_subset_landing (b : Builder) (line : Line) :
    b.document.marks ⊆ (b.landing line).whole :=
  landing_induction (P := fun s => b.document.marks ⊆ s.whole)
    (fun h => Stack.whole_adopt _ _ _ ▸ h)
    (b.document_subset_settled line)

end Builder

/-- A move keeps what the document has and adds what the line says, or the line repeats a key. -/
theorem Move.survives {b b' : Builder} {line : Line} {log : Log} (hm : Move b line b' log) :
    b.document.marks ++ b.added line ⊆ b'.document.marks ∨
      (log ++ b'.waitingLog).Reports ["duplicate_key"] line := by
  have hreached := b.document_subset_reached line
  have hlanding := b.document_subset_landing line
  -- What is placed on the landing stack is gained by the document as it was.
  have hgain : ∀ {added whole : List Mark}, (b.landing line).whole ++ added ⊆ whole →
      b.document.marks ++ added ⊆ whole := by
    intro added whole h
    obtain ⟨hold, hnew⟩ := List.append_subset.1 h
    exact List.append_subset.2 ⟨List.Subset.trans hlanding hold, hnew⟩
  cases hm with
  | skip hk =>
    rw [Builder.added_of_skips hk, List.append_nil]
    exact .inl (List.Subset.refl _)
  | shrink _ hs =>
    rw [Builder.added_of_shrinks hs, List.append_nil]
    exact .inl hreached
  | orphanEntry _ _ hi hb | strayKey _ _ hi hb =>
    rw [Builder.added_of_mismatch (by rw [hb, hi]; exact nofun), List.append_nil]
    exact .inl hlanding
  | unread hk hs hi hb he hp =>
    rw [Builder.added_of_map hk hs hi hb, Line.marks_of_unread hi he hp, List.append_nil]
    exact .inl hlanding
  | block hk hs hi hb he =>
    have hrole : (b.landing line).top.block.keyRole = .block := by rw [hb]; rfl
    rw [Builder.added_of_list hk hs hi hb, Line.marks_of_block hi he, ← hrole]
    rcases (b.landing line).whole_attach ⟨Text.trim line.itemText.dropLast, line.number⟩
      (.map [] line.number) with h | h
    · exact .inl (hgain h)
    · exact .inr ⟨_, List.mem_append_right _ h, rfl, List.mem_singleton_self _⟩
  | @scalar items hk hs hi hb he =>
    have hblock : (Block.list (items ++ [.scalar ⟨line.itemText, line.number⟩])).marks =
        (b.landing line).top.block.marks ++ [⟨.item, line.itemText, line.number⟩] := by
      rw [hb]
      exact itemMarks_append _ _
    rw [Builder.added_of_list hk hs hi hb, Line.marks_of_scalar hi he]
    exact .inl (hgain (Stack.whole_gains (by rw [hblock]; exact List.Subset.refl _)))
  | heading hk hs hi hb he =>
    have hrole : (b.landing line).top.block.keyRole = .key := by rw [hb]; rfl
    rw [Builder.added_of_map hk hs hi hb, Line.marks_of_heading hi he, ← hrole]
    rcases (b.landing line).whole_attach ⟨Text.trim line.text.dropLast,
      line.number⟩ (.map [] line.number) with h | h
    · exact .inl (hgain h)
    · exact .inr ⟨_, List.mem_append_right _ h, rfl, List.mem_singleton_self _⟩
  | @inline entries key value hk hs hi hb he hp =>
    have hadded : b.added line =
        [⟨.key, Text.trim key, line.number⟩, ⟨.value, Text.trim value, line.number⟩] := by
      rw [Builder.added_of_map hk hs hi hb, Line.marks_of_inline hi he hp]
    have hattach := (b.landing line).whole_attach ⟨Text.trim key, line.number⟩
      (.scalar ⟨Text.trim value, line.number⟩)
    rw [hb] at hattach
    rw [hadded]
    rcases hattach with h | h
    · exact .inl (hgain h)
    · exact .inr ⟨_, List.mem_append_left _ (List.mem_append_right _ h), rfl,
        List.mem_singleton_self _⟩

/-! ## Runs -/

namespace Builder

variable {b : Builder}

/-- What a line leads to is part of the story. -/
theorem step_subset_story (b : Builder) (line : Line) (rest : List Line) :
    (b.step line).2 ++ (b.step line).1.waitingLog ⊆ b.story (line :: rest) := by
  rw [story_cons]
  refine List.append_subset.2 ⟨List.subset_append_left .., ?_⟩
  exact List.subset_append_of_subset_right _ (waitingLog_subset_story _ rest)

/-- A mark is in the document after a run, or one of the lines repeats a key. -/
def Survives (b : Builder) (lines : List Line) (mark : Mark) : Prop :=
  mark ∈ (b.run lines).1.document.marks ∨ ∃ line ∈ lines,
    (b.story lines).Reports ["duplicate_key"] line

/-- What the document has and what a line adds survives if it does from this line on. -/
theorem survives_cons {line : Line} {rest : List Line} {mark : Mark}
    (h : mark ∈ b.document.marks ++ b.added line)
    (ih : mark ∈ (b.step line).1.document.marks → (b.step line).1.Survives rest mark) :
    b.Survives (line :: rest) mark := by
  rcases (b.step_move line).survives with hkept | hrepeat
  · rcases ih (hkept h) with hin | ⟨l, hl, hr⟩
    · exact .inl hin
    · refine .inr ⟨l, List.mem_cons_of_mem _ hl, hr.mono ?_ (List.Subset.refl _)⟩
      rw [story_cons]
      exact List.subset_append_right ..
  · exact .inr ⟨line, List.mem_cons_self,
      hrepeat.mono (b.step_subset_story line rest) (List.Subset.refl _)⟩

/-- A mark of the document survives every run. -/
theorem run_survives {lines : List Line} {mark : Mark} (h : mark ∈ b.document.marks) :
    b.Survives lines mark := by
  induction lines generalizing b with
  | nil => exact .inl h
  | cons line rest ih => exact survives_cons (List.mem_append_left _ h) ih

end Builder

/-- What is said from some line on is said of the document. -/
theorem story_subset_ofLines (before rest : List Line) :
    (Builder.run {} before).1.story rest ⊆ (ofLines (before ++ rest)).2 := by
  show _ ⊆ Builder.story {} (before ++ rest)
  rw [Builder.story, Builder.story, Builder.run_append, List.append_assoc]
  exact List.subset_append_right ..

/-- What a line adds is in the document in the end, unless the line or one after it repeats a
key. -/
theorem ofLines_survives {before : List Line} {line : Line} (after : List Line) {mark : Mark}
    (h : mark ∈ (Builder.run {} before).1.added line) :
    mark ∈ (ofLines (before ++ line :: after)).1.marks ∨
      ∃ l ∈ line :: after, (ofLines (before ++ line :: after)).2.Reports ["duplicate_key"] l := by
  have hrun := Builder.run_append {} before (line :: after)
  have hdocument : (ofLines (before ++ line :: after)).1.marks =
      ((Builder.run {} before).1.run (line :: after)).1.document.marks := by
    show (Builder.run {} (before ++ line :: after)).1.finish.marks = _
    rw [(Builder.run_sound _).finish_marks, hrun]
  have hstory := story_subset_ofLines before (line :: after)
  rw [hdocument]
  rcases Builder.survives_cons (List.mem_append_right _ h) Builder.run_survives with hin
    | ⟨l, hl, hr⟩
  · exact .inl hin
  · exact .inr ⟨l, hl, hr.mono hstory (List.Subset.refl _)⟩

end Document

end ScriptLint
