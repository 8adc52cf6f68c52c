import ScriptLint.Proofs.Document.Entries
import ScriptLint.Proofs.Document.Rest
import ScriptLint.Proofs.Document.Rows

/-!
# Reading a written outline

A script that is written from an outline is read back as the tree of the outline, with the number
of each row, and nothing is reported (`ofSource_printed`).

The rows are followed through the builder by what they do to the collection it rests on: lines
carry one stack to another (`Carries`) if reading them from any builder that rests on the first
gives one that rests on the second. The entries of a map append their trees to it, and so do the
entries of a list (`carries_entries`, `carries_items`); what stands below a key is read while the
key is waiting, and is then attached to it (`body_attached`).
-/

namespace ScriptLint.Document

namespace Builder

variable {b : Builder} {s : Stack}

/-- A builder whose last line was an entry of the innermost collection rests on it. -/
theorem Sound.rests_sealed (h : b.Sound) (hs : b.skipped = none)
    (hw : b.stack.top.width = b.previous) : b.Rests b.sealed := by
  have hwidth : b.sealed.top.width = b.previous := (sealed_top b).trans hw
  refine ⟨h, Int.le_of_eq hwidth, fun w hw => (by rw [hs] at hw; cases hw), ?_⟩
  have hunwind : b.sealed.unwind b.sealed.top.width = b.sealed :=
    Stack.closeFrom_of_not (by simp) _
  rw [Stack.landingAt, hunwind]
  split
  · rfl
  · next hm => exact Stack.closeFrom_of_not (by simp [hm]) _

/-- The builder rests on the stack, and nothing is to be said of a waiting key. -/
structure Quiet (b : Builder) (s : Stack) : Prop where
  rests : b.Rests s
  silent : b.waitingLog = []

/-- The builder after a key line on row `number`, at the width of the innermost collection. -/
def awaiting (s : Stack) (key : Text) (number : Nat) : Builder :=
  { stack := s, previous := s.top.width, waiting := some ⟨⟨key, number⟩, s.top.width⟩ }

/-- Nothing is to be said of a key that is new. -/
theorem waitingLog_awaiting {key : Text} {number : Nat}
    (h : s.top.block.repeats ⟨key, number⟩ = false) : (awaiting s key number).waitingLog = [] :=
  if_neg (Bool.eq_false_iff.1 h)

/-- If the first line begins the collection of the waiting key, the lines are read as if this
collection was open already. -/
theorem run_awaiting {key : Text} {number : Nat} {line : Line} (h : (awaiting s key number).Sound)
    (hq : (awaiting s key number).waitingLog = [])
    (ho : (awaiting s key number).opens line = true) (rest : List Line) :
    ∃ b : Builder, (awaiting s key number).run (line :: rest) = b.run (line :: rest) ∧
      b.Quiet (s.push (opening line ⟨key, number⟩)) := by
  have hle := h.previous_le_of_opens ho
  have hreach : (awaiting s key number).reached line = s.push (opening line ⟨key, number⟩) := by
    rw [reached, if_neg (by omega), settled_of_opens ho rfl]
    rfl
  let b : Builder := { stack := s.push (opening line ⟨key, number⟩), previous := line.width }
  have hsound : b.Sound := .ofStack (.above (h.opening_above rfl ho) h.ordered) (Int.le_refl _)
  have hrests : b.Rests (s.push (opening line ⟨key, number⟩)) := hsound.rests_sealed rfl rfl
  have hkind : line.isItem = (opening line ⟨key, number⟩).block.isList := by
    cases hi : line.isItem <;> simp [opening, hi, Block.isList]
  have hgrow : (awaiting s key number).grows line = false := by simp [grows, ho]
  have hshrink : (awaiting s key number).shrinks line = false := by
    rw [shrinks, decide_eq_false (by omega), Bool.false_and]
  have hstep : (awaiting s key number).step line = b.step line := by
    rw [step_of_places rfl hshrink, hreach, hgrow, hq, hrests.step_eq rfl hkind]
    rfl
  exact ⟨b, by rw [run_cons, run_cons, hstep], hrests, rfl⟩

end Builder

/-- The lines lead from one stack to another, and nothing is reported. -/
def Carries (lines : List Line) (s t : Stack) : Prop :=
  ∀ b : Builder, b.Quiet s → ∃ b' : Builder, b.run lines = (b', []) ∧ b'.Quiet t

namespace Carries

variable {s t u : Stack} {line : Line}

/-- No lines carry a stack to itself. -/
theorem nil (s : Stack) : Carries [] s s := fun b hb => ⟨b, rfl, hb⟩

/-- Two groups of lines carry a stack one after the other. -/
theorem append {first rest : List Line} (hf : Carries first s t) (hr : Carries rest t u) :
    Carries (first ++ rest) s u := by
  intro b hb
  obtain ⟨b₁, h₁, hb₁⟩ := hf b hb
  obtain ⟨b₂, h₂, hb₂⟩ := hr b₁ hb₁
  exact ⟨b₂, by rw [Builder.run_append, h₁, h₂]; rfl, hb₂⟩

/-- The first line is an entry of the collection and is placed in it, and the others are read from
there. -/
theorem cons {b₁ : Builder} {rest : List Line} (hw : (line.width : Int) = s.top.width)
    (hi : line.isItem = s.top.block.isList) (hp : place s false line = (b₁, []))
    (hr : b₁.Sound → ∃ b', b₁.run rest = (b', []) ∧ b'.Quiet t) : Carries (line :: rest) s t := by
  intro b hb
  have hstep : b.step line = (b₁, []) := by rw [hb.rests.step_eq hw hi, hp, hb.silent]; rfl
  have hsound : b₁.Sound := by
    have := (b.step_move line).sound hb.rests.sound
    rwa [hstep] at this
  obtain ⟨b', h', hb'⟩ := hr hsound
  exact ⟨b', by rw [Builder.run_cons, hstep, h']; rfl, hb'⟩

end Carries

namespace Outline

variable {s : Stack} {width : Nat} (number : Nat)

/-! ## Placing a row -/

/-- A row with a key and a colon makes the key wait. -/
theorem place_heading {key : Text} {acc : Entries} (hk : IsKey key) (hs : s.top.block = .map acc)
    (hw : s.top.width = width) :
    place s false (Row.line number ⟨width, key ++ [':']⟩) =
      (Builder.awaiting s key number, []) := by
  have hclose : s.closeLists width = s := Stack.closeFrom_of_not (by rw [hs]; rfl) _
  rw [Row.line, trim_heading hk.toOnRow, place, if_neg (by simp [isItem_key hk]), placeKey]
  simp only [hclose, hs, Text.endsWith_concat, if_true, List.dropLast_concat, hk.trimmed]
  rw [Builder.awaiting, hw]

/-- A row with a key and a value enters both. -/
theorem place_inline {key value : Text} {acc : Entries} (hk : IsKey key)
    (hsplit : Text.holds [':', ' '] key = false) (hv : OnRow value) (hne : value ≠ [])
    (hend : Text.endsWith [':'] value = false) (hs : s.top.block = .map acc)
    (hfresh : acc.hasKey key = false) :
    place s false (Row.line number ⟨width, key ++ ':' :: ' ' :: value⟩) =
      ({ stack := s.withBlock (.map (acc ++ [(⟨key, number⟩, .scalar ⟨value, number⟩)]))
         previous := width }, []) := by
  have hclose : s.closeLists width = s := Stack.closeFrom_of_not (by rw [hs]; rfl) _
  have hend' : Text.endsWith [':'] (key ++ ':' :: ' ' :: value) = false := by
    rw [show key ++ ':' :: ' ' :: value = (key ++ [':', ' ']) ++ value by simp,
      Text.endsWith_append _ hne, hend]
  have hinsert : Entries.insert ⟨key, number⟩ (.scalar ⟨value, number⟩) acc =
      acc ++ [(⟨key, number⟩, .scalar ⟨value, number⟩)] := Entries.insert_of_not_hasKey hfresh _
  rw [Row.line, trim_inline hk.toOnRow hv hne, place, if_neg (by simp [isItem_key hk]), placeKey]
  simp only [hclose, hs, hend', splitInline_append hsplit, hk.trimmed, hv.trimmed, repeatLog,
    Block.repeats, hfresh, hinsert]
  rfl

/-- A row with a value enters it into the list. -/
theorem place_scalar {text : Text} {acc : List Node} (ht : OnRow text)
    (hend : Text.endsWith [':'] text = false) (hs : s.top.block = .list acc) :
    place s false (Row.line number ⟨width, '-' :: ' ' :: text⟩) =
      ({ stack := s.withBlock (.list (acc ++ [.scalar ⟨text, number⟩]))
         previous := width }, []) := by
  rw [place, if_pos (isItem_row ht.trimmed _ _), placeItem]
  simp only [hs, itemText_row ht.trimmed, hend]
  rfl

/-- A row with the key of a block makes the key wait. -/
theorem place_block {key : Text} {acc : List Node} (hk : OnRow key) (hs : s.top.block = .list acc)
    (hw : s.top.width = width) :
    place s false (Row.line number ⟨width, '-' :: ' ' :: (key ++ [':'])⟩) =
      (Builder.awaiting s key number, []) := by
  have ht := trim_heading hk
  rw [place, if_pos (isItem_row ht _ _), placeItem]
  simp only [hs, itemText_row ht, Text.endsWith_concat, if_true, List.dropLast_concat, hk.trimmed]
  rw [Builder.awaiting, hw]
  rfl

/-! ## Carrying a collection -/

/-- An entry is entered under its key. -/
theorem Entry.tree_key (entry : Entry) : (entry.tree number).1.text = entry.key := by
  cases entry <;> rw [Entry.tree, Entry.key]

/-- The first row of an entry of a map. -/
theorem Entry.rows_cons {entry : Entry} (h : entry.Fits width) :
    ∃ text rest, entry.rows width = ⟨width, text⟩ :: rest ∧
      ∀ number, (Row.line number ⟨width, text⟩).isItem = false := by
  cases entry with
  | inline key value =>
    rw [Entry.Fits] at h
    refine ⟨_, [], by rw [Entry.rows], fun number => ?_⟩
    rw [Row.line, trim_inline h.1.toOnRow h.2.2.1 h.2.2.2.1, isItem_key h.1]
  | heading key body =>
    rw [Entry.Fits] at h
    refine ⟨_, body.rows, by rw [Entry.rows], fun number => ?_⟩
    rw [Row.line, trim_heading h.1.toOnRow, isItem_key h.1]

/-- The first row of an entry of a list. -/
theorem Item.rows_cons {item : Item} (h : item.Fits width) :
    ∃ text rest, item.rows width = ⟨width, text⟩ :: rest ∧
      ∀ number, (Row.line number ⟨width, text⟩).isItem = true := by
  cases item with
  | scalar text =>
    rw [Item.Fits] at h
    exact ⟨_, [], by rw [Item.rows], fun number => isItem_row h.1.trimmed _ _⟩
  | block key body =>
    rw [Item.Fits] at h
    exact ⟨_, body.rows, by rw [Item.rows], fun number => isItem_row (trim_heading h.1) _ _⟩

/-- A collection whose first row begins it, and whose rows fill it once it is open, is attached to
its key. -/
theorem attached_of_carries {key text : Text} {rows rest : List Row} {content : Block}
    (hrows : rows = ⟨width, text⟩ :: rest) (hb : (Builder.awaiting s key number).Sound)
    (hq : (Builder.awaiting s key number).waitingLog = [])
    (ho : (Builder.awaiting s key number).opens (Row.line (number + 1) ⟨width, text⟩) = true)
    (hc : ∀ t : Stack, t.top.width = width →
      t.top.block = (if (Row.line (number + 1) ⟨width, text⟩).isItem then .list [] else .map []) →
      Carries (numbered (number + 1) rows) t (t.withBlock content)) :
    ∃ b, (Builder.awaiting s key number).run (numbered (number + 1) rows) = (b, []) ∧
      b.Quiet
        (s.withBlock (s.top.block.attach ⟨key, number⟩ (content.toNode (number + 1 : Nat)))) := by
  subst hrows
  obtain ⟨b, hrun, hquiet⟩ := Builder.run_awaiting hb hq ho (numbered (number + 1 + 1) rest)
  obtain ⟨b', hrun', hquiet'⟩ := hc _ rfl rfl b hquiet
  exact ⟨b', hrun.trans hrun', hquiet'.rests.close, hquiet'.silent⟩

/-- A row deeper than the waiting key begins its collection, and so does an entry of a list at the
width of a key of a map. -/
theorem awaiting_opens {key : Text} {line : Line} (hs : 0 ≤ s.top.width)
    (h : s.top.width.toNat < line.width ∨
      (line.isItem = true ∧ s.top.block.isList = false) ∧ s.top.width.toNat = line.width) :
    (Builder.awaiting s key number).opens line = true := by
  simp only [Builder.opens, Builder.awaiting, Waiting.opens, Bool.or_eq_true, Bool.and_eq_true,
    Bool.not_eq_true', decide_eq_true_eq]
  rcases h with h | ⟨h, hw⟩
  · exact .inl (by omega)
  · exact .inr ⟨h, by omega⟩

mutual

/-- What stands below a waiting key is attached to it. -/
theorem body_attached : ∀ {body : Body} {key : Text} {number : Nat} {s : Stack},
    body.Fits s.top.width.toNat (!s.top.block.isList) →
    (Builder.awaiting s key number).Sound → (Builder.awaiting s key number).waitingLog = [] →
    ∃ b, (Builder.awaiting s key number).run (numbered (number + 1) body.rows) = (b, []) ∧
      b.Quiet (s.withBlock (s.top.block.attach ⟨key, number⟩ (body.tree number)))
  -- Without rows the key stays waiting, and it gets an empty map when it is sealed.
  | .map _ [], _, _, _, _, hb, hq => by
    rw [Body.rows, entryRows]
    exact ⟨_, rfl, hb.rests_sealed rfl rfl, hq⟩
  | .map width (entry :: rest), key, number, s, ⟨hw, hkeys, hfit⟩, hb, hq => by
    obtain ⟨text, after, hrows, hkey⟩ := Entry.rows_cons hfit.1
    have hsplit : entryRows width (entry :: rest) = ⟨width, text⟩ ::
        (after ++ entryRows width rest) := by
      rw [entryRows, hrows]
      rfl
    have hopen :
        (Builder.awaiting s key number).opens (Row.line (number + 1) ⟨width, text⟩) = true :=
      awaiting_opens number hb.ordered.top_nonneg (.inl (hw.resolve_left nofun))
    rw [Body.rows]
    exact attached_of_carries number hsplit hb hq hopen fun t ht hblock =>
      carries_entries (number + 1) hfit hkeys (fun _ _ => rfl) ht (by rw [hblock, hkey]; rfl)
  | .list _ [], _, _, _, ⟨hne, _, _⟩, _, _ => absurd rfl hne
  | .list width (item :: rest), key, number, s, ⟨_, hw, hfit⟩, hb, hq => by
    obtain ⟨text, after, hrows, hitem⟩ := Item.rows_cons hfit.1
    have hsplit : itemRows width (item :: rest) = ⟨width, text⟩ ::
        (after ++ itemRows width rest) := by
      rw [itemRows, hrows]
      rfl
    have hopen :
        (Builder.awaiting s key number).opens (Row.line (number + 1) ⟨width, text⟩) = true :=
      awaiting_opens number hb.ordered.top_nonneg
        (hw.imp_right fun ⟨hplain, heq⟩ => ⟨⟨hitem _, by simpa using hplain⟩, heq⟩)
    rw [Body.rows]
    exact attached_of_carries number hsplit hb hq hopen fun t ht hblock =>
      carries_items (number + 1) hfit ht (by rw [hblock, hitem]; rfl)

/-- An entry of a map comes last in it. -/
theorem carries_entry : ∀ {entry : Entry} {width : Nat} (number : Nat) {s : Stack} {acc : Entries},
    entry.Fits width → acc.hasKey entry.key = false → s.top.width = width →
    s.top.block = .map acc →
    Carries (numbered number (entry.rows width)) s
      (s.withBlock (.map (acc ++ [entry.tree number])))
  | .inline key value, width, number, s, acc, ⟨hk, hsplit, hv, hne, hend⟩, hfresh, hw, hs => by
    rw [Entry.rows, numbered, numbered]
    refine .cons hw.symm ?_ (place_inline number hk hsplit hv hne hend hs hfresh) fun hsound =>
      ⟨_, rfl, hsound.rests_sealed rfl hw, rfl⟩
    rw [Row.line, trim_inline hk.toOnRow hv hne, isItem_key hk, hs]
    rfl
  | .heading key body, width, number, s, acc, ⟨hk, hbody⟩, hfresh, hw, hs => by
    rw [Entry.rows, numbered]
    refine .cons hw.symm ?_ (place_heading number hk hs hw) fun hsound => ?_
    · rw [Row.line, trim_heading hk.toOnRow, isItem_key hk, hs]
      rfl
    · have hfit : body.Fits s.top.width.toNat (!s.top.block.isList) := by
        rw [hw, hs]
        exact hbody
      have hfresh' : s.top.block.repeats ⟨key, number⟩ = false := by rw [hs]; exact hfresh
      have hattach : s.top.block.attach ⟨key, number⟩ (body.tree number) =
          .map (acc ++ [Entry.tree number (.heading key body)]) := by
        rw [hs, Block.attach, Entries.insert_of_not_hasKey hfresh, Entry.tree]
      exact hattach ▸ body_attached hfit hsound (Builder.waitingLog_awaiting hfresh')

/-- An entry of a list comes last in it. -/
theorem carries_item : ∀ {item : Item} {width : Nat} (number : Nat) {s : Stack} {acc : List Node},
    item.Fits width → s.top.width = width → s.top.block = .list acc →
    Carries (numbered number (item.rows width)) s (s.withBlock (.list (acc ++ [item.tree number])))
  | .scalar text, width, number, s, acc, ⟨ht, hend⟩, hw, hs => by
    rw [Item.rows, numbered, numbered]
    refine .cons hw.symm ?_ (place_scalar number ht hend hs) fun hsound =>
      ⟨_, rfl, hsound.rests_sealed rfl hw, rfl⟩
    rw [isItem_row ht.trimmed, hs]
    rfl
  | .block key body, width, number, s, acc, ⟨hk, hbody⟩, hw, hs => by
    rw [Item.rows, numbered]
    refine .cons hw.symm ?_ (place_block number hk hs hw) fun hsound => ?_
    · rw [isItem_row (trim_heading hk), hs]
      rfl
    · have hfit : body.Fits s.top.width.toNat (!s.top.block.isList) := by
        rw [hw, hs]
        exact hbody
      have hfresh' : s.top.block.repeats ⟨key, number⟩ = false := by rw [hs]; rfl
      have hattach : s.top.block.attach ⟨key, number⟩ (body.tree number) =
          .list (acc ++ [Item.tree number (.block key body)]) := by
        rw [hs, Block.attach, Item.tree]
      exact hattach ▸ body_attached hfit hsound (Builder.waitingLog_awaiting hfresh')

/-- The entries of a map are appended to it. -/
theorem carries_entries : ∀ {entries : List Entry} {width : Nat} (number : Nat) {s : Stack}
    {acc : Entries}, EntriesFit width entries → (entries.map Entry.key).Nodup →
    (∀ entry ∈ entries, acc.hasKey entry.key = false) → s.top.width = width →
    s.top.block = .map acc →
    Carries (numbered number (entryRows width entries)) s
      (s.withBlock (.map (acc ++ entryTrees number width entries)))
  | [], _, _, s, acc, _, _, _, _, hs => by
    rw [entryRows, entryTrees, List.append_nil, ← hs]
    exact .nil s
  | entry :: rest, width, number, s, acc, ⟨he, hr⟩, hkeys, hfresh, hw, hs => by
    rw [List.map_cons, List.nodup_cons] at hkeys
    have hfirst := carries_entry number he (hfresh entry (by simp)) hw hs
    have hfresh' : ∀ e ∈ rest, (acc ++ [entry.tree number]).hasKey e.key = false := by
      intro e hmem
      have hne : entry.key ≠ e.key := fun heq => hkeys.1 (heq ▸ List.mem_map_of_mem hmem)
      rw [Entries.hasKey_append, hfresh e (List.mem_cons_of_mem _ hmem)]
      simp [Entries.hasKey, Entry.tree_key, hne]
    have hrest := carries_entries (number + (entry.rows width).length) hr hkeys.2 hfresh'
      (show (s.withBlock (.map (acc ++ [entry.tree number]))).top.width = width from hw) rfl
    rw [entryRows, entryTrees, numbered_append]
    have := hfirst.append hrest
    rwa [List.append_assoc] at this

/-- The entries of a list are appended to it. -/
theorem carries_items : ∀ {items : List Item} {width : Nat} (number : Nat) {s : Stack}
    {acc : List Node}, ItemsFit width items → s.top.width = width → s.top.block = .list acc →
    Carries (numbered number (itemRows width items)) s
      (s.withBlock (.list (acc ++ itemTrees number width items)))
  | [], _, _, s, acc, _, _, hs => by
    rw [itemRows, itemTrees, List.append_nil, ← hs]
    exact .nil s
  | item :: rest, width, number, s, acc, ⟨hi, hr⟩, hw, hs => by
    have hrest := carries_items (number + (item.rows width).length) hr
      (show (s.withBlock (.list (acc ++ [item.tree number]))).top.width = width from hw) rfl
    rw [itemRows, itemTrees, numbered_append]
    have := (carries_item number hi hw hs).append hrest
    rwa [List.append_assoc] at this

end

/-- The document that is read from a written outline is its tree, and nothing is reported. -/
theorem ofLines_rows {entries : List Entry} (h : Fits entries) :
    ofLines (numbered 0 (entryRows 0 entries)) = (tree entries, []) := by
  have hstart : ({} : Builder).Quiet Stack.new := ⟨Builder.Sound.new.rests_sealed rfl rfl, rfl⟩
  obtain ⟨b, hrun, hb⟩ := carries_entries 0 h.2 h.1 (fun _ _ => rfl) rfl rfl {} hstart
  rw [ofLines, hrun]
  show (b.finish, [] ++ b.waitingLog) = _
  rw [hb.rests.finish_eq rfl, hb.silent]
  rfl

/-- Reading the script that an outline is written as gives the tree of the outline and no report,
whatever the indentation of its collections is and however its rows are indented. -/
theorem ofSource_printed {tab : Int} {margin : Nat → Nat → Text}
    (hm : ∀ number width, IsMargin tab width (margin number width)) {entries : List Entry}
    (h : Fits entries) :
    ofSource tab (Source.ofText (printed margin entries)) = (tree entries, []) := by
  rw [ofSource, printed, lines_joined_written hm (entryRows_valid h.2), ofLines_rows h]

/-- Spaces indent a row. -/
theorem isMargin_spaces (tab : Int) (width : Nat) :
    IsMargin tab width (List.replicate width ' ') := by
  refine ⟨fun c hc => .inl (List.eq_of_mem_replicate hc), ?_⟩
  induction width with
  | zero => rfl
  | succ n ih => rw [List.replicate_succ, indentWidth, if_pos rfl, ih]

/-- A key with a value, a list at the width of its key with blocks of all sorts and an empty text,
and two levels that end at once. -/
def nestedOutline : List Entry :=
  [.heading ['a'] (.map 3
    [.inline ['k'] ['v', ':', ' ', 'w'],
      .heading ['l'] (.list 3
        [.scalar [], .block ['i', 'f'] (.list 5 [.scalar ['x'], .block [] (.map 9 [])]),
          .block ['q'] (.map 4 [.inline [] ['#']])]),
      .heading ['z'] (.map 0 [])]),
    .heading ['e'] (.list 0 [.scalar ['-', ' ', 'y']])]

/-- An outline with collections in each other, printed with its own widths. -/
theorem ofSource_printed_nested : Fits nestedOutline ∧
    ofSource 4 (Source.ofText (printed (fun _ width => List.replicate width ' ') nestedOutline)) =
      (tree nestedOutline, []) := by
  have h : Fits nestedOutline := by
    simp only [nestedOutline, Fits, EntriesFit, Entry.Fits, Body.Fits, ItemsFit, Item.Fits,
      List.map, Entry.key, ne_eq, reduceCtorEq, not_false_eq_true]
    decide
  exact ⟨h, ofSource_printed (fun _ width => isMargin_spaces 4 width) h⟩

end Outline

end ScriptLint.Document
