import Mathlib.Data.List.Forall2
import ScriptLint.Proofs.Tag.Cut

/-!
# Where the body of a tag is split

A body is scanned from the left, and what is open is counted: brackets and inner tags, each on
their own. A closing mark with nothing to close does not count. The dots at which nothing is open
separate the parts, up to the first two bars at which nothing is open; what comes after these is
the fallback. So the parts as they are written, with dots between them, and the fallback after two
bars are the whole body, and no other dot and no earlier bars are cut at (`ofBody_split`).

What is open at a place depends on the text before it (`ClosesAll`), while a body is cut from its
front (`Cut`). So all is said with some marks open at the start, and then a character at the front
is moved from the body to what is open. A part as it is written is read on its own
(`TagPart.Reads`): only text after a parameter is lost.
-/

namespace ScriptLint

/-! ## What is open -/

/-- How many brackets are open after a text if `n` are open before it. -/
def openBrackets (n : Nat) (t : Text) : Nat := t.foldl (fun n c => bracketsAfter c n) n

/-- How many tags are open after a text if `n` are open before it. -/
def openAngles (n : Nat) (t : Text) : Nat := t.foldl (fun n c => anglesAfter c n) n

/-- No brackets and no tags are open after a text if `b` brackets and `a` tags are open before
it. -/
def ClosesAll (b a : Nat) (t : Text) : Prop := openBrackets b t = 0 ∧ openAngles a t = 0

@[simp] theorem closesAll_nil {b a : Nat} : ClosesAll b a [] ↔ b = 0 ∧ a = 0 := Iff.rfl

/-- After a character, the rest closes what is open then. -/
theorem closesAll_cons {b a : Nat} {c : Char} {r : Text} :
    ClosesAll b a (c :: r) ↔ ClosesAll (bracketsAfter c b) (anglesAfter c a) r := Iff.rfl

/-! ## Separating dots -/

/-- A dot that separates two of the parts comes right after the text `u`. -/
def SeparatesAt (raws : List Text) (u : Text) : Prop :=
  ∃ first second, first ≠ [] ∧ second ≠ [] ∧ raws = first ++ second ∧ u = Text.joined ['.'] first

/-- In a single part nothing separates. -/
theorem not_separatesAt_singleton (raw u : Text) : ¬ SeparatesAt [raw] u := by
  rintro ⟨first, second, hfirst, hsecond, hraws, -⟩
  rcases List.singleton_eq_append_iff.1 hraws with ⟨h, -⟩ | ⟨-, h⟩
  · exact hfirst h
  · exact hsecond h

/-- After an empty part, there is a dot at the start. -/
theorem separatesAt_nil_cons {raws : List Text} (hne : raws ≠ []) {u : Text} :
    SeparatesAt ([] :: raws) u ↔ u = [] ∨ ∃ r, u = '.' :: r ∧ SeparatesAt raws r := by
  constructor
  · rintro ⟨first, second, hfirst, hsecond, hraws, rfl⟩
    obtain ⟨part, first, rfl⟩ := List.exists_cons_of_ne_nil hfirst
    obtain ⟨rfl, rfl⟩ := List.cons.inj hraws
    cases first with
    | nil => exact .inl (Text.joined_singleton ..)
    | cons next rest =>
      have hrest : next :: rest ≠ [] := List.cons_ne_nil _ _
      exact .inr ⟨_, Text.joined_cons hrest, next :: rest, second, hrest, hsecond, rfl, rfl⟩
  · rintro (rfl | ⟨r, rfl, first, second, hfirst, hsecond, rfl, rfl⟩)
    · exact ⟨[[]], raws, List.cons_ne_nil _ _, hne, rfl, (Text.joined_singleton ..).symm⟩
    · exact ⟨[] :: first, second, List.cons_ne_nil _ _, hsecond, rfl,
        by rw [Text.joined_cons hfirst]; rfl⟩

/-- A character at the front of the first part comes before all dots. -/
theorem separatesAt_cons_cons {c : Char} {raw : Text} {raws : List Text} {u : Text} :
    SeparatesAt ((c :: raw) :: raws) u ↔ ∃ r, u = c :: r ∧ SeparatesAt (raw :: raws) r := by
  constructor
  · rintro ⟨first, second, hfirst, hsecond, hraws, rfl⟩
    obtain ⟨part, first, rfl⟩ := List.exists_cons_of_ne_nil hfirst
    obtain ⟨rfl, rfl⟩ := List.cons.inj hraws
    exact ⟨_, Text.joined_cons_cons .., raw :: first, second, List.cons_ne_nil _ _,
      hsecond, rfl, rfl⟩
  · rintro ⟨r, rfl, first, second, hfirst, hsecond, hraws, rfl⟩
    obtain ⟨part, first, rfl⟩ := List.exists_cons_of_ne_nil hfirst
    obtain ⟨rfl, rfl⟩ := List.cons.inj hraws
    exact ⟨(c :: raw) :: first, second, List.cons_ne_nil _ _, hsecond, rfl,
      (Text.joined_cons_cons ..).symm⟩

/-! ## Parts and fallback of a body -/

/-- The fallback of a tag as it is written. -/
def fallbackText : Option Text → Text
  | none => []
  | some t => '|' :: '|' :: t

namespace Cut

variable {b a : Nat} {body : Text} {raws : List Text} {fallback : Option Text}

/-- The parts and the fallback are all of the body. -/
theorem body_eq (h : Cut b a body raws fallback) :
    body = Text.joined ['.'] raws ++ fallbackText fallback := by
  induction h with
  | nil => rfl
  | dot hrest ih => rw [Text.joined_cons hrest.ne_nil, ih]; rfl
  | bars => rfl
  | join _ _ ih => rw [Text.joined_cons_cons, ih]; rfl

/-- The dots at which nothing is open separate the parts, up to the fallback. -/
theorem separatesAt_iff (h : Cut b a body raws fallback) : ∀ {u v : Text}, body = u ++ '.' :: v →
    (SeparatesAt raws u ↔ ClosesAll b a u ∧ u.length < (Text.joined ['.'] raws).length) := by
  induction h with
  | nil => intro u v hbody; simp at hbody
  | @dot r raws fallback hrest ih =>
    intro u v hbody
    rw [separatesAt_nil_cons hrest.ne_nil, Text.joined_cons hrest.ne_nil]
    rcases List.cons_eq_append_iff.1 hbody with ⟨rfl, -⟩ | ⟨u, rfl, hr⟩
    · simp
    · have hdot : ClosesAll 0 0 ('.' :: u) ↔ ClosesAll 0 0 u := Iff.rfl
      rw [hdot]
      simpa using ih hr
  | bars =>
    intro u v _
    have hempty : ¬ u.length < (Text.joined ['.'] [[]]).length := Nat.not_lt_zero _
    exact iff_of_false (not_separatesAt_singleton _ _) fun h => hempty h.2
  | @join b a c r first raws fallback hjoin _ ih =>
    intro u v hbody
    rw [separatesAt_cons_cons, Text.joined_cons_cons]
    rcases List.cons_eq_append_iff.1 hbody with ⟨rfl, hdot⟩ | ⟨u, rfl, hr⟩
    · -- A dot joins a part only if something is open before it.
      obtain ⟨rfl, -⟩ := List.cons.inj hdot
      refine iff_of_false (fun ⟨r, hnil, _⟩ => List.cons_ne_nil _ _ hnil.symm) fun ⟨hopen, _⟩ => ?_
      obtain ⟨hb, ha⟩ := closesAll_nil.1 hopen
      exact (hjoin hb ha).1 rfl
    · rw [closesAll_cons]
      simpa using ih hr

/-- Bars at which nothing is open begin the fallback or are in it. -/
theorem fallback_of_bars (h : Cut b a body raws fallback) :
    ∀ {u v : Text}, body = u ++ '|' :: '|' :: v →
    ClosesAll b a u → fallback.isSome = true ∧ (Text.joined ['.'] raws).length ≤ u.length := by
  induction h with
  | nil => intro u v hbody; simp at hbody
  | @dot r raws fallback hrest ih =>
    intro u v hbody hopen
    rw [Text.joined_cons hrest.ne_nil]
    rcases List.cons_eq_append_iff.1 hbody with ⟨-, hbars⟩ | ⟨u, rfl, hr⟩
    · cases hbars
    · obtain ⟨hsome, hle⟩ := ih hr hopen
      exact ⟨hsome, Nat.succ_le_succ hle⟩
  | bars => exact fun _ _ => ⟨rfl, Nat.zero_le _⟩
  | @join b a c r first raws fallback hjoin _ ih =>
    intro u v hbody hopen
    rw [Text.joined_cons_cons]
    rcases List.cons_eq_append_iff.1 hbody with ⟨rfl, hbars⟩ | ⟨u, rfl, hr⟩
    · obtain ⟨rfl, rfl⟩ := List.cons.inj hbars
      obtain ⟨hb, ha⟩ := closesAll_nil.1 hopen
      exact absurd ⟨rfl, rfl⟩ (hjoin hb ha).2
    · obtain ⟨hsome, hle⟩ := ih hr hopen
      exact ⟨hsome, Nat.succ_le_succ hle⟩

/-- Nothing is open where the fallback begins. -/
theorem closesAll_of_fallback (h : Cut b a body raws fallback) (hsome : fallback.isSome = true) :
    ClosesAll b a (Text.joined ['.'] raws) := by
  induction h with
  | nil => cases hsome
  | dot hrest ih =>
    rw [Text.joined_cons hrest.ne_nil]
    exact ih hsome
  | bars => exact ⟨rfl, rfl⟩
  | join _ _ ih =>
    rw [Text.joined_cons_cons, closesAll_cons]
    exact ih hsome

end Cut

/-! ## Parts -/

/-- A part that is written as the given text: its name, and its parameter if there is an opening
bracket. The parameter goes from the first opening bracket to the last closing one, or to the end
if that one does not come later. -/
inductive TagPart.Reads : Text → TagPart → Prop
  | plain {raw : Text} : '[' ∉ raw → Reads raw ⟨raw, none⟩
  | closed {name q after : Text} : '[' ∉ name → ']' ∉ after →
      Reads (name ++ '[' :: (q ++ ']' :: after)) ⟨name, some q⟩
  | unclosed {name q : Text} : '[' ∉ name → ']' ∉ q → Reads (name ++ '[' :: q) ⟨name, some q⟩

/-- A part is read as the specification has it. -/
theorem TagPart.reads_ofRaw (raw : Text) : Reads raw (ofRaw raw) := by
  unfold ofRaw
  split
  · next hnone => exact .plain (Text.not_mem_of_after? hnone)
  · next inner hinner =>
    have hraw := Text.eq_of_after? hinner
    have hname : '[' ∉ Text.before '[' raw := Text.not_mem_before
    cases hlast : Text.beforeLast? ']' inner with
    | none =>
      have hreads := Reads.unclosed hname (Text.not_mem_of_beforeLast? hlast)
      rwa [← hraw] at hreads
    | some q =>
      have hreads := Reads.closed (q := q) hname (Text.not_mem_drop_of_beforeLast? hlast)
      rwa [← Text.eq_of_beforeLast? hlast, ← hraw] at hreads

namespace Tag

/-- A body is its parts as they are written, with dots between them, and its fallback after two
bars. The dots between the parts are those at which nothing is open, up to the fallback. There is a
fallback if nothing is open at some two bars, and then it comes after the first of these. -/
theorem ofBody_split (body : Text) : ∃ raws : List Text, raws ≠ [] ∧
    body = Text.joined ['.'] raws ++ fallbackText (ofBody body).fallback ∧
    (∀ u v, body = u ++ '.' :: v →
      (SeparatesAt raws u ↔ ClosesAll 0 0 u ∧ u.length < (Text.joined ['.'] raws).length)) ∧
    ((ofBody body).fallback.isSome = true ↔ ∃ u v, body = u ++ '|' :: '|' :: v ∧ ClosesAll 0 0 u) ∧
    (∀ t, (ofBody body).fallback = some t → ∃ u, body = u ++ '|' :: '|' :: t ∧ ClosesAll 0 0 u ∧
      ∀ u' v', body = u' ++ '|' :: '|' :: v' → ClosesAll 0 0 u' → u.length ≤ u'.length) ∧
    List.Forall₂ TagPart.Reads raws (ofBody body).parts := by
  have hcut : Cut 0 0 body (rawParts 0 0 body).1 (ofBody body).fallback := cut_rawParts body 0 0
  have hbars : ∀ t, (ofBody body).fallback = some t →
      body = Text.joined ['.'] (rawParts 0 0 body).1 ++ '|' :: '|' :: t ∧
        ClosesAll 0 0 (Text.joined ['.'] (rawParts 0 0 body).1) := by
    intro t ht
    have hbody := hcut.body_eq
    rw [ht] at hbody
    exact ⟨hbody, hcut.closesAll_of_fallback (by rw [ht]; rfl)⟩
  refine ⟨(rawParts 0 0 body).1, hcut.ne_nil, hcut.body_eq, fun u v =>
    hcut.separatesAt_iff, ⟨fun hsome => ?_, ?_⟩, fun t ht => ?_, ?_⟩
  · obtain ⟨t, ht⟩ := Option.isSome_iff_exists.1 hsome
    exact ⟨_, t, hbars t ht⟩
  · rintro ⟨u, v, hbody, hopen⟩
    exact (hcut.fallback_of_bars hbody hopen).1
  · obtain ⟨hbody, hopen⟩ := hbars t ht
    exact ⟨_, hbody, hopen, fun u v hbody hopen => (hcut.fallback_of_bars hbody hopen).2⟩
  · exact List.forall₂_map_right_iff.2 (List.forall₂_same.2 fun raw _ => TagPart.reads_ofRaw raw)

/-- Closing marks with nothing to close, a dot and bars in a parameter, text after it, and three
bars. -/
example : ofBody "a>.b][c.d||e]f.g[h]i]|||j".toList =
    ⟨[⟨"a>".toList, none⟩, ⟨"b]".toList, some "c.d||e".toList⟩, ⟨"g".toList, some "h]i".toList⟩],
      some "|j".toList⟩ := by
  decide

end Tag

end ScriptLint
