import Mathlib.Data.List.Induction
import ScriptLint.Proofs.Document.Pair
import ScriptLint.Proofs.Document.Survive

/-!
# The line that supplies what stands under a key

What stands under a key of a document is supplied by a content line that introduces this key: the
value on the line itself, the collection that begins on the next line, or an empty map
(`Supplies`). The key is the one of that line, or it is an older one that the map had already; then
the line is reported as one that repeats the key (`ofLines_supplied`).

Along a run, the key of every open collection and the waiting key remember the line that introduced
them (`Introduced`), and all that is inside of the open collections is supplied already
(`Stack.Traced`). Closing a collection, or giving the waiting key an empty map, is a case of
`Supplied.attach`.
-/

namespace ScriptLint.Document

/-- The line has the key, as a key line or as an entry of a list that opens a block. -/
def Line.Introduces (line : Line) (name : Text) : Prop :=
  line.Dictates ⟨.key, name, line.number⟩ ∨ line.Dictates ⟨.block, name, line.number⟩

/-- The node is what the line gives to its key. -/
inductive Supplies (lines : List Line) (s : Line) : Node → Prop
  /-- The value is on the same line. -/
  | value {text : Text} : s.Dictates ⟨.value, text, s.number⟩ →
      Supplies lines s (.scalar ⟨text, s.number⟩)
  /-- There is no collection. -/
  | empty : Supplies lines s (.map [] s.number)
  /-- The collection begins on the next line. -/
  | collection {next : Line} (block : Block) : [s, next] <:+: lines →
      Supplies lines s (block.toNode next.number)

/-- The node under the key is supplied by a line that introduces the key. The key is on this line,
or it is older and the line is reported. -/
def Supplied (lines : List Line) (log : Log) (e : Tracked × Node) : Prop :=
  ∃ s ∈ lines, s.Introduces e.1.text ∧ Supplies lines s e.2 ∧
    (e.1.line = s.number ∨ e.1.line < s.number ∧
      (Issue.repeatedKey e.1.text).onLine s.number ∈ log)

/-- The line introduces the key to the collection. If the collection has an older key of the same
text, the line is reported. -/
structure Introduced (lines : List Line) (log : Log) (s : Line) (key : Tracked)
    (block : Block) : Prop where
  mem : s ∈ lines
  line : key.line = s.number
  introduces : s.Introduces key.text
  repeated : ∀ k ∈ block.entries.keys, k.text = key.text →
    k.line < s.number ∧ (Issue.repeatedKey key.text).onLine s.number ∈ log

section Trace

variable {lines before after : List Line} {log : Log} {s line : Line} {key : Tracked} {node : Node}
    {block : Block}

/-- All keys of the collection are on earlier lines, and it is reported if the key is among
them. -/
theorem Introduced.of_repeatLog (hmem : s ∈ lines) (hi : s.Introduces key.text)
    (hline : key.line = s.number) (hold : ∀ k ∈ block.entries.keys, k.line < s.number)
    (hlog : repeatLog block key ⊆ log) :
    Introduced lines log s key block := by
  refine ⟨hmem, hline, hi, fun k hk htext => ⟨hold k hk, hlog ?_⟩⟩
  have hrepeats : block.repeats key = true := by
    cases block with
    | list items => cases hk
    | map entries =>
      obtain ⟨e, he, rfl⟩ := List.mem_map.1 hk
      exact List.any_eq_true.2 ⟨e, he, decide_eq_true htext⟩
  rw [repeatLog, if_pos hrepeats, hline]
  exact List.mem_singleton_self _

/-- What is inside of a collection stays supplied when a key with its node gets into it. -/
theorem Supplied.attach (hi : Introduced lines log s key block) (hs : Supplies lines s node)
    (hnode : ∀ e ∈ node.pairs, Supplied lines log e)
    (hblock : ∀ e ∈ block.pairs, Supplied lines log e) :
    ∀ e ∈ (block.attach key node).pairs, Supplied lines log e := by
  intro e he
  rcases Block.mem_pairs_attach he with he | he | rfl | ⟨rfl, htext, hk⟩
  · exact hblock e he
  · exact hnode e he
  · exact ⟨s, hi.mem, hi.introduces, hs, .inl hi.line⟩
  · refine ⟨s, hi.mem, htext ▸ hi.introduces, hs, .inr ?_⟩
    rw [htext]
    exact hi.repeated e.1 hk htext

/-! ## Open collections -/

namespace Stack

/-- All that is inside of the open collections is supplied, and each of them begins on the line
after the one that introduced its key. -/
inductive Traced (lines : List Line) (log : Log) : Stack → Prop
  | document {f : Frame} : (∀ e ∈ f.block.pairs, Supplied lines log e) → Traced lines log ⟨f, []⟩
  | above {f owner : Frame} {rest : List Frame}
      {s next : Line} : (∀ e ∈ f.block.pairs, Supplied lines log e) →
      Introduced lines log s f.key owner.block → [s, next] <:+: lines → f.line = next.number →
      Traced lines log ⟨owner, rest⟩ → Traced lines log ⟨f, owner :: rest⟩

namespace Traced

variable {stack : Stack}

/-- The pairs of the innermost collection are supplied. -/
theorem top (h : stack.Traced lines log) : ∀ e ∈ stack.top.block.pairs, Supplied lines log e := by
  cases h with
  | document hf => exact hf
  | above hf => exact hf

/-- A change to the innermost collection keeps the pairs supplied, if those in it are. -/
theorem withBlock (h : stack.Traced lines log) (hb : ∀ e ∈ block.pairs, Supplied lines log e) :
    (stack.withBlock block).Traced lines log := by
  cases h with
  | document => exact .document hb
  | above _ hi hnext hline hrest => exact .above hb hi hnext hline hrest

/-- A node from a line, under a key that the line introduces, keeps the pairs supplied. -/
theorem attach (h : stack.Traced lines log) (hi : Introduced lines log s key stack.top.block)
    (hs : Supplies lines s node) (hnode : ∀ e ∈ node.pairs, Supplied lines log e) :
    (stack.withBlock (stack.top.block.attach key node)).Traced lines log :=
  h.withBlock (Supplied.attach hi hs hnode h.top)

/-- Closing the innermost collection keeps the pairs supplied. -/
theorem adopt {top owner : Frame} {rest : List Frame} (h : Traced lines log ⟨top, owner :: rest⟩) :
    Traced lines log ⟨owner.adopt top, rest⟩ := by
  cases h with
  | above hf hi hnext hline hrest =>
    refine hrest.attach hi (hline ▸ .collection top.block hnext) ?_
    rwa [Block.pairs_toNode]

end Traced

/-- The marks of the innermost collection are among those of the stack. -/
theorem top_subset_marks (stack : Stack) : stack.top.block.marks ⊆ stack.marks := by
  obtain ⟨top, below⟩ := stack
  cases below with
  | nil => exact List.Subset.refl _
  | cons owner rest => exact fun m hm => List.mem_append_right _ (List.mem_cons_of_mem _ hm)

end Stack

/-- The keys of a map have marks. -/
theorem Block.mem_marks_of_mem_keys {k : Tracked} (h : k ∈ block.entries.keys) :
    ⟨.key, k⟩ ∈ block.marks := by
  cases block with
  | list items => cases h
  | map entries =>
    show _ ∈ keyMarks .key entries
    induction entries with
    | nil => cases h
    | cons e rest ih =>
      rcases List.mem_cons.1 h with rfl | h
      · exact List.mem_cons_self
      · exact List.mem_cons_of_mem _ (List.mem_append_right _ (ih h))

/-! ## The builder -/

namespace Builder

variable {b : Builder}

/-- The open collections are traced after the lines `before`, and the waiting key was introduced on
the last of these. -/
structure Traced (lines : List Line) (log : Log) (before : List Line) (b : Builder) : Prop where
  stack : b.stack.Traced lines log
  waiting : ∀ w, b.waiting = some w → b.skipped = none ∧
    ∃ first s, before = first ++ [s] ∧ Introduced lines log s w.key b.stack.top.block

/-- Without a waiting key only the stack matters. -/
theorem Traced.of_stack (h : b.stack.Traced lines log) (hw : b.waiting = none) :
    b.Traced lines log before := by
  refine ⟨h, fun w hsome => ?_⟩
  rw [hw] at hsome
  cases hsome

/-- A waiting key that gets an empty map keeps the pairs supplied. -/
theorem Traced.sealed (h : b.Traced lines log before) : b.sealed.Traced lines log := by
  unfold Builder.sealed
  split
  · next w hw =>
    obtain ⟨-, first, s, -, hi⟩ := h.waiting w hw
    exact h.stack.attach hi (hi.line ▸ .empty) nofun
  · exact h.stack

/-- A collection that is opened has no pairs yet. -/
theorem opening_pairs (line : Line) (key : Tracked) : (opening line key).block.pairs = [] := by
  unfold opening
  cases line.isItem <;> rfl

/-- A waiting key that is settled by a line keeps the pairs supplied. -/
theorem Traced.settled (h : b.Traced lines log before) (hl : lines = before ++ line :: after) :
    (b.settled line).Traced lines log := by
  rcases b.settled_cases line with ⟨-, he⟩ | ⟨-, w, hw, he⟩
  · exact he ▸ h.sealed
  · obtain ⟨-, first, s, rfl, hi⟩ := h.waiting w hw
    have hnext : [s, line] <:+: lines := ⟨first, after, by rw [hl]; simp⟩
    rw [he]
    refine .above ?_ hi hnext rfl h.stack
    rw [opening_pairs]
    exact nofun

/-- Closing what a line is outside of keeps the pairs supplied. -/
theorem Traced.reached (h : b.Traced lines log before) (hl : lines = before ++ line :: after) :
    (b.reached line).Traced lines log :=
  reached_induction Stack.Traced.adopt (h.settled hl)

/-- Closing all that a line is not placed into keeps the pairs supplied. -/
theorem Traced.landing (h : b.Traced lines log before) (hl : lines = before ++ line :: after) :
    (b.landing line).Traced lines log :=
  landing_induction Stack.Traced.adopt (h.settled hl)

/-- The keys that a line meets are on earlier lines. -/
theorem landing_keys_lt
    (hl : (before ++ line :: after).Pairwise (fun l l' => l.number < l'.number)) {k : Tracked}
    (h : k ∈ ((run {} before).1.landing line).top.block.entries.keys) :
    k.line < line.number := by
  have hmark :=
    (run {} before).1.landing_marks_subset line
      (Stack.top_subset_marks _ (Block.mem_marks_of_mem_keys h))
  obtain ⟨l, hmem, hm⟩ := mem_marks_of_mem_recorded (run_marks_subset {} before hmark)
  have hlt := (List.pairwise_append.1 hl).2.2 l hmem line List.mem_cons_self
  have hline : k.line = l.number := Line.line_of_mem_marks hm
  omega

end Builder

/-- A move keeps the trace, if what is reported on the way and of the key that now waits is in the
log. -/
theorem Move.traced {b b' : Builder} {said : Log} (hm : Move b line b' said)
    (h : b.Traced lines log before) (hl : lines = before ++ line :: after)
    (hold : ∀ k ∈ (b.landing line).top.block.entries.keys, k.line < line.number)
    (hlog : said ++ b'.waitingLog ⊆ log) : b'.Traced lines log (before ++ [line]) := by
  have hmem : line ∈ lines := hl ▸ List.mem_append_right _ List.mem_cons_self
  have hland := h.landing hl
  obtain ⟨hsaid, hwait⟩ := List.append_subset.1 hlog
  cases hm with
  | skip hk =>
    refine ⟨h.stack, fun w hw => ?_⟩
    rw [Builder.skips, (h.waiting w hw).1] at hk
    cases hk
  | shrink => exact .of_stack (h.reached hl) rfl
  | orphanEntry | strayKey | unread => exact .of_stack hland rfl
  | block _ _ hi hb he =>
    refine ⟨hland, ?_⟩
    rintro _ ⟨⟩
    have hintro : line.Introduces (Text.trim line.itemText.dropLast) :=
      .inr (.block hi (Text.eq_dropLast_append he))
    exact ⟨rfl, before, line, rfl, .of_repeatLog hmem hintro rfl hold hwait⟩
  | scalar _ _ _ hb =>
    have hpairs := hland.top
    rw [hb] at hpairs
    refine .of_stack (hland.withBlock ?_) rfl
    rw [Block.pairs, itemPairs_append]
    exact List.forall_mem_append.2 ⟨hpairs, List.forall_mem_nil _⟩
  | heading _ _ hi hb he =>
    refine ⟨hland, ?_⟩
    rintro _ ⟨⟩
    have hintro : line.Introduces (Text.trim line.text.dropLast) :=
      .inl (.heading hi (Text.eq_dropLast_append he))
    exact ⟨rfl, before, line, rfl, .of_repeatLog hmem hintro rfl hold hwait⟩
  | @inline entries key value _ _ hi hb he hp =>
    obtain ⟨htext, hkey⟩ := splitInline_eq_some hp
    have hintro : line.Introduces (Text.trim key) := .inl (.key hi he htext hkey)
    have hrepeat : repeatLog (b.landing line).top.block ⟨Text.trim key, line.number⟩ ⊆ log := by
      rw [hb]
      exact (List.append_subset.1 hsaid).2
    have hattach := hland.attach (.of_repeatLog hmem hintro rfl hold hrepeat)
      (.value (.value hi he htext hkey)) (List.forall_mem_nil _)
    rw [hb] at hattach
    exact .of_stack hattach rfl

/-! ## Runs -/

namespace Builder

/-- What holds at the start and is kept by every line holds after every part of the lines. -/
theorem prefix_induction {P : List Line → Prop} (hstart : P [])
    (hstep : ∀ {before line after}, lines = before ++ line :: after → P before →
      P (before ++ [line]))
    (hcut : lines = before ++ after) : P before := by
  induction before using List.reverseRecOn generalizing after with
  | nil => exact hstart
  | append_singleton before line ih =>
    have hcut' : lines = before ++ line :: after := by rw [hcut, List.append_assoc]; rfl
    exact hstep hcut' (ih hcut')

/-- The last of some lines is read after all others. -/
theorem run_concat (before : List Line) (line : Line) :
    (run {} (before ++ [line])).1 = ((run {} before).1.step line).1 := by
  rw [run_append]
  rfl

/-- A line keeps the trace. The log is that of the whole document, so every report on the way is in
it. -/
theorem step_traced (hl : lines.Pairwise (fun l l' => l.number < l'.number))
    (hcut : lines = before ++ line :: after)
    (h : (run {} before).1.Traced lines (ofLines lines).2 before) :
    (run {} (before ++ [line])).1.Traced lines (ofLines lines).2 (before ++ [line]) := by
  have hsaid : ((run {} before).1.step line).2 ++
      ((run {} before).1.step line).1.waitingLog ⊆ (ofLines lines).2 :=
    List.Subset.trans (step_subset_story _ line after)
      (hcut ▸ story_subset_ofLines before (line :: after))
  rw [run_concat]
  exact ((run {} before).1.step_move line).traced h hcut
    (fun k => landing_keys_lt (hcut ▸ hl)) hsaid

/-- After any number of lines, the pairs are supplied by them. -/
theorem run_traced (hl : lines.Pairwise (fun l l' => l.number < l'.number))
    (hcut : lines = before ++ after) :
    (run {} before).1.Traced lines (ofLines lines).2 before :=
  prefix_induction (P := fun before => (run {} before).1.Traced lines (ofLines lines).2 before)
    (.of_stack (.document (List.forall_mem_nil _)) rfl) (step_traced hl) hcut

/-- All pairs of the document are supplied. -/
theorem Traced.finish {b : Builder} (h : b.Traced lines log before) :
    ∀ e ∈ b.finish.pairs, Supplied lines log e := by
  have hdoc := (Stack.closeFrom_induction Stack.Traced.adopt (fun _ => true) h.sealed).top
  rw [finish_eq_sealed]
  change ∀ e ∈ b.sealed.finish.pairs, Supplied lines log e at hdoc
  generalize b.sealed.finish = block at hdoc
  cases block with
  | map entries => exact hdoc
  | list items => exact nofun

end Builder

/-- What stands under a key of a document is supplied. -/
theorem ofLines_supplied (hl : lines.Pairwise (fun l l' => l.number < l'.number)) :
    ∀ e ∈ (ofLines lines).1.pairs, Supplied lines (ofLines lines).2 e :=
  (Builder.run_traced hl (List.append_nil lines).symm).finish

end Trace

end ScriptLint.Document
