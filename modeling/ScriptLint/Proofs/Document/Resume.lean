import ScriptLint.Proofs.Document.Entries
import ScriptLint.Proofs.Document.Rest
import ScriptLint.Proofs.Log

/-!
# Reading on after other lines

A key line that is not indented closes all that is open, so whatever was read before, the lines
from there on are read as if they were the first ones, on top of the entries that the document has
already (`ofLines_append`).

The two runs are followed side by side. Their stacks differ in the document at the bottom only,
which has the entries of another map underneath in the one (`Stack.Over`). Every step keeps this
(`Builder.Over.step`), and the logs differ at most in what is said of repeated keys, which is for
debugging (`Log.Agree`).
-/

namespace ScriptLint.Document

/-- What is said of a repeated key is for debugging. -/
theorem repeatLog_agree (block : Block) (key : Tracked) : Log.Agree [] (repeatLog block key) := by
  intro c hc
  rw [repeatLog]
  split
  · refine List.filter_eq_nil_iff.2 fun d hd => ?_
    rw [List.mem_singleton.1 hd]
    exact fun h => hc (of_decide_eq_true h).symm
  · rfl

/-- What is reported of a waiting key is for debugging. -/
theorem Builder.waitingLog_agree (b : Builder) : Log.Agree [] b.waitingLog := by
  unfold waitingLog
  split
  · exact repeatLog_agree _ _
  · exact .refl _

/-! ## Stacks that differ in the document -/

/-- The second stack is the first one with the entries of `base` underneath those of the
document. -/
inductive Stack.Over (base : Entries) : Stack → Stack → Prop
  | document {f : Frame} {entries : Entries} : f.block = .map entries → entries.Distinct →
      Over base ⟨f, []⟩ ⟨{ f with block := .map (base.setAll entries) }, []⟩
  | above {owner owner' : Frame} {rest rest' : List Frame} (f : Frame) :
      Over base ⟨owner, rest⟩ ⟨owner', rest'⟩ → Over base ⟨f, owner :: rest⟩ ⟨f, owner' :: rest'⟩

namespace Stack.Over

variable {base : Entries} {s s' : Stack}

/-- The innermost collections are equally wide. -/
theorem width_eq (h : Over base s s') : s'.top.width = s.top.width := by
  cases h <;> rfl

/-- The innermost collections are of one kind. -/
theorem isList_eq (h : Over base s s') : s'.top.block.isList = s.top.block.isList := by
  cases h with
  | document hb => rw [hb]; rfl
  | above => rfl

/-- Only the document differs, and it is a map. -/
theorem block_eq_of_list {items : List Node} (h : Over base s s')
    (hb : s.top.block = .list items) :
    s'.top.block = .list items := by
  cases h with
  | document hd => rw [hb] at hd; cases hd
  | above => exact hb

/-- If the first stack has a map at the top, so has the second. -/
theorem block_of_map {entries : Entries} (h : Over base s s') (hb : s.top.block = .map entries) :
    ∃ entries', s'.top.block = .map entries' := by
  cases h with
  | document => exact ⟨_, rfl⟩
  | above => exact ⟨entries, hb⟩

/-- The open widths are the same. -/
theorem widths_eq (h : Over base s s') : s'.widths = s.widths := by
  have hf : s'.frames.map (·.width) = s.frames.map (·.width) := by
    induction h with
    | document => rfl
    | above f _ ih => exact congrArg (f.width :: ·) ih
  rw [widths, widths, hf]

/-- Opening a collection on both stacks keeps them one over the other. -/
theorem push (h : Over base s s') (f : Frame) : Over base (s.push f) (s'.push f) := .above f h

/-- A key with its node may be attached before or after the entries are put underneath. -/
theorem attach (h : Over base s s') (key : Tracked) (node : Node) :
    Over base (s.withBlock (s.top.block.attach key node))
      (s'.withBlock (s'.top.block.attach key node)) := by
  cases h with
  | @document f entries hb hd =>
    show Over base ⟨{ f with block := f.block.attach key node }, []⟩
      ⟨{ f with block := .map ((base.setAll entries).insert key node) }, []⟩
    rw [hb, ← Entries.setAll_insert hd]
    exact .document (f := { f with block := .map (entries.insert key node) }) rfl
      (hd.insert key node)
  | above f h => exact .above _ h

/-- A list above the document is the same in both stacks, so it grows in the same way. -/
theorem withBlock_of_list {items : List Node} (h : Over base s s') (hb : s.top.block = .list items)
    (block : Block) : Over base (s.withBlock block) (s'.withBlock block) := by
  cases h with
  | document hd => rw [hb] at hd; cases hd
  | above f h => exact .above _ h

/-- Closing a collection on both stacks keeps them one over the other. -/
theorem adopt {top owner top' owner' : Frame} {rest rest' : List Frame}
    (h : Over base ⟨top, owner :: rest⟩ ⟨top', owner' :: rest'⟩) :
    Over base ⟨owner.adopt top, rest⟩ ⟨owner'.adopt top', rest'⟩ := by
  cases h with
  | above _ h => exact h.attach top.key (top.block.toNode top.line)

/-- What is closed is above the document, so the same collections are closed in both stacks. -/
theorem closeFrom (p : Frame → Bool) (h : Over base s s') :
    Over base (Stack.closeFrom p s.top s.below) (Stack.closeFrom p s'.top s'.below) := by
  obtain ⟨top, below⟩ := s
  induction below generalizing top s' with
  | nil => cases h with
    | document hb hd => exact .document hb hd
  | cons owner rest ih =>
    cases h with
    | @above _ owner' _ rest' _ ho =>
    cases hpt : p top with
    | true =>
      rw [closeFrom_of_pos hpt, closeFrom_of_pos hpt]
      exact ih _ (adopt (.above top ho))
    | false =>
      rw [closeFrom_of_not hpt, closeFrom_of_not hpt]
      exact .above top ho

end Stack.Over

/-! ## Builders side by side -/

namespace Builder

/-- The second builder is the first one with the entries of `base` underneath those of the
document. -/
structure Over (base : Entries) (b b' : Builder) : Prop where
  stack : Stack.Over base b.stack b'.stack
  waiting : b'.waiting = b.waiting
  previous : b'.previous = b.previous
  skipped : b'.skipped = b.skipped

namespace Over

variable {base : Entries} {b b' : Builder}

/-- A waiting key that gets an empty map in both keeps the stacks one over the other. -/
theorem sealed (h : Over base b b') : Stack.Over base b.sealed b'.sealed := by
  unfold Builder.sealed
  rw [h.waiting]
  split
  · exact h.stack.attach _ _
  · exact h.stack

/-- A line begins the collection of the waiting key in both or in neither. -/
theorem opens_eq (h : Over base b b') (line : Line) : b'.opens line = b.opens line := by
  unfold opens
  rw [h.waiting]
  split
  · rw [Waiting.opens, Waiting.opens, h.stack.isList_eq]
  · rfl

/-- A waiting key that is settled in both keeps the stacks one over the other. -/
theorem settled (h : Over base b b') (line : Line) :
    Stack.Over base (b.settled line) (b'.settled line) := by
  have ho := h.opens_eq line
  cases hb : b.opens line with
  | false =>
    rw [settled_of_not_opens hb, settled_of_not_opens (ho.trans hb)]
    exact h.sealed
  | true =>
    obtain ⟨w, hw⟩ := waiting_of_opens hb
    rw [settled_of_opens hb hw, settled_of_opens (ho.trans hb) (h.waiting.trans hw)]
    exact h.stack.push _

/-- A line is inside of collections one over the other. -/
theorem reached (h : Over base b b') (line : Line) :
    Stack.Over base (b.reached line) (b'.reached line) := by
  rw [Builder.reached, Builder.reached, h.previous]
  split
  · exact (h.settled line).closeFrom _
  · exact h.settled line

/-- An entry is placed alike in both, but for debugging. -/
theorem placeItem {s s' : Stack} (h : Stack.Over base s s') (grown : Bool) (line : Line) :
    Over base (placeItem s grown line).1 (placeItem s' grown line).1 ∧
      Log.Agree (placeItem s grown line).2 (placeItem s' grown line).2 := by
  unfold Document.placeItem
  cases hb : s.top.block with
  | map entries =>
    obtain ⟨entries', hb'⟩ := h.block_of_map hb
    rw [hb']
    exact ⟨⟨h, rfl, rfl, rfl⟩, .refl _⟩
  | list items =>
    rw [h.block_eq_of_list hb]
    simp only
    split
    · exact ⟨⟨h, rfl, rfl, rfl⟩, .refl _⟩
    · exact ⟨⟨h.withBlock_of_list hb _, rfl, rfl, rfl⟩, .refl _⟩

/-- A key is placed alike in both, but for debugging. -/
theorem placeKey {s s' : Stack} (h : Stack.Over base s s') (line : Line) :
    Over base (placeKey s line).1 (placeKey s' line).1 ∧
      Log.Agree (placeKey s line).2 (placeKey s' line).2 := by
  have hc : Stack.Over base (s.closeLists line.width) (s'.closeLists line.width) := h.closeFrom _
  unfold Document.placeKey
  generalize s.closeLists line.width = s, s'.closeLists line.width = s' at hc
  simp only
  cases hb : s.top.block with
  | list items =>
    rw [hc.block_eq_of_list hb]
    exact ⟨⟨hc, rfl, rfl, rfl⟩, .refl _⟩
  | map entries =>
    obtain ⟨entries', hb'⟩ := hc.block_of_map hb
    rw [hb']
    simp only
    split
    · exact ⟨⟨hc, rfl, rfl, rfl⟩, .refl _⟩
    · split
      · exact ⟨⟨hc, rfl, rfl, rfl⟩, .refl _⟩
      · next key value _ =>
        have hs := hc.attach ⟨Text.trim key, line.number⟩ (.scalar ⟨Text.trim value, line.number⟩)
        rw [hb, hb'] at hs
        exact ⟨⟨hs, rfl, rfl, rfl⟩, (repeatLog_agree _ _).symm.trans (repeatLog_agree _ _)⟩

/-- A line is placed in the same way in both builders. -/
theorem place {s s' : Stack} (h : Stack.Over base s s') (grown : Bool) (line : Line) :
    Over base (place s grown line).1 (place s' grown line).1 ∧
      Log.Agree (place s grown line).2 (place s' grown line).2 := by
  unfold Document.place
  split
  · exact placeItem h grown line
  · exact placeKey h line

/-- A step does the same in both builders. -/
theorem step (h : Over base b b') (line : Line) :
    Over base (b.step line).1 (b'.step line).1 ∧ Log.Agree (b.step line).2 (b'.step line).2 := by
  have hr := h.reached line
  have hk : b'.skips line = b.skips line := by rw [skips, skips, h.skipped]
  have hs : b'.shrinks line = b.shrinks line := by rw [shrinks, shrinks, h.previous, hr.width_eq]
  have hg : b'.grows line = b.grows line := by rw [grows, grows, h.previous, h.opens_eq]
  have hw : Log.Agree b.waitingLog b'.waitingLog :=
    b.waitingLog_agree.symm.trans b'.waitingLog_agree
  cases hkb : b.skips line with
  | true =>
    rw [step_of_skips hkb, step_of_skips (hk.trans hkb)]
    exact ⟨h, .refl _⟩
  | false =>
  cases hsb : b.shrinks line with
  | true =>
    rw [step_of_shrinks hkb hsb, step_of_shrinks (hk.trans hkb) (hs.trans hsb), h.previous,
      hr.widths_eq]
    exact ⟨⟨hr, rfl, rfl, rfl⟩, hw.append (.refl _)⟩
  | false =>
    rw [step_of_places hkb hsb, step_of_places (hk.trans hkb) (hs.trans hsb), hg]
    obtain ⟨hp, hl⟩ := Over.place hr (b.grows line) line
    exact ⟨hp, hw.append hl⟩

/-- A run does the same in both builders. -/
theorem run (h : Over base b b') (lines : List Line) :
    Over base (b.run lines).1 (b'.run lines).1 ∧ Log.Agree (b.run lines).2 (b'.run lines).2 := by
  induction lines generalizing b b' with
  | nil => exact ⟨h, .refl _⟩
  | cons line rest ih =>
    obtain ⟨hs, hl⟩ := h.step line
    obtain ⟨hr, hl'⟩ := ih hs
    exact ⟨hr, hl.append hl'⟩

/-- The document of the second builder is that of the first one, set on top of the entries
underneath. -/
theorem finish_eq (h : Over base b b') : b.finish.Distinct ∧ b'.finish = base.setAll b.finish := by
  have hd : Stack.Over base b.document b'.document := h.sealed.closeFrom _
  have hbelow : b.document.below = [] := Stack.closeFrom_true_below _ _
  show b.document.top.block.entries.Distinct ∧
    b'.document.top.block.entries = base.setAll b.document.top.block.entries
  generalize b.document = s, b'.document = s' at hd hbelow
  cases hd with
  | document hb hdistinct => rw [hb]; exact ⟨hdistinct, rfl⟩
  | above => cases hbelow

end Over

variable {b : Builder}

/-- The builder that has read nothing but has the document of another one. -/
def resumed (b : Builder) : Builder := { stack := b.document }

/-- Reading nothing and having a document is being on top of its entries. -/
theorem Sound.over_resumed (h : b.Sound) : Over b.finish {} b.resumed := by
  refine ⟨?_, rfl, rfl, rfl⟩
  show Stack.Over b.finish Stack.new b.document
  rw [h.document_eq]
  exact .document (f := Stack.new.top) rfl trivial

/-- Once all is closed, the builder rests at the document. -/
theorem Sound.resumed_rests (h : b.Sound) : b.resumed.Rests b.document := by
  have ho := h.rests.ordered
  have hd := h.document_eq
  have hs : b.resumed.Sound := .ofStack ho (by rw [hd]; exact Int.le_refl _)
  have he : b.resumed.document = b.document := by
    show Stack.closeFrom _ b.document.top b.document.below = b.document
    rw [hd]
    rfl
  exact he ▸ hs.rests

/-- Reading a key line that is not indented depends on the document only. -/
theorem Sound.step_resumed (h : b.Sound) {line : Line} (hw : line.width = 0)
    (hi : line.isItem = false) :
    b.step line = ((b.resumed.step line).1, b.waitingLog ++ (b.resumed.step line).2) := by
  have hd := h.document_eq
  have hw' : (line.width : Int) = b.document.top.width := by rw [hd, hw]; rfl
  have hi' : line.isItem = b.document.top.block.isList := by rw [hd, hi]; rfl
  rw [h.rests.step_eq hw' hi', h.resumed_rests.step_eq hw' hi']
  rfl

/-- Lines of which the first is a key line that is not indented are read on top of the document. -/
theorem Sound.run_resumed (h : b.Sound) {lines : List Line}
    (hfirst : ∀ line, lines.head? = some line → line.width = 0 ∧ line.isItem = false) :
    (b.run lines).1.finish = (b.resumed.run lines).1.finish ∧
      Log.Agree (b.resumed.run lines).2 (b.run lines).2 := by
  cases lines with
  | nil => exact ⟨(h.over_resumed.finish_eq.2).symm, .refl _⟩
  | cons line rest =>
    obtain ⟨hw, hi⟩ := hfirst line rfl
    rw [run_cons, run_cons, h.step_resumed hw hi]
    exact ⟨rfl, (b.waitingLog_agree.append (.refl _)).append (.refl _)⟩

end Builder

/-- The document that lines form has each key once. -/
theorem ofLines_distinct (lines : List Line) : (ofLines lines).1.Distinct :=
  (Builder.Sound.new.over_resumed.run lines).1.finish_eq.1

/-- What is said of the last key is for debugging. -/
theorem ofLines_agree (lines : List Line) :
    Log.Agree (Builder.run {} lines).2 (ofLines lines).2 := by
  have :=
    (Log.Agree.refl (Builder.run {} lines).2).append (Builder.run {} lines).1.waitingLog_agree
  rwa [List.append_nil] at this

/-- Whatever the first lines are, the lines from a key line on that is not indented are read as if
nothing was before them, and their entries are set in the document of the first lines. -/
theorem ofLines_append (first : List Line) {rest : List Line}
    (hfirst : ∀ line, rest.head? = some line → line.width = 0 ∧ line.isItem = false) :
    (ofLines (first ++ rest)).1 = (ofLines first).1.setAll (ofLines rest).1 ∧
      Log.Agree ((ofLines first).2 ++ (ofLines rest).2) (ofLines (first ++ rest)).2 := by
  have hs := Builder.run_sound first
  obtain ⟨hfinish, hlog⟩ := hs.run_resumed hfirst
  obtain ⟨hover, hlog'⟩ := hs.over_resumed.run rest
  have hrun : Log.Agree ((Builder.run {} first).2 ++ (Builder.run {} rest).2)
      (Builder.run {} (first ++ rest)).2 := by
    rw [Builder.run_append]
    exact (Log.Agree.refl _).append (hlog'.trans hlog)
  refine ⟨?_, ((ofLines_agree first).symm.append (ofLines_agree rest).symm).trans
    (hrun.trans (ofLines_agree _))⟩
  simp only [ofLines, Builder.run_append]
  exact hfinish.trans hover.finish_eq.2

end ScriptLint.Document
