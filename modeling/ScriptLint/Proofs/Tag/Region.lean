import Mathlib.Algebra.GroupWithZero.Nat
import ScriptLint.Proofs.Tag.RoundTrip

/-!
# Where the tags of a text are

The bodies of the outermost tags of a text say how it is put together (`Regions`): texts without an
opening mark, tags whose bodies have balanced marks, and, at the end, possibly a tag that is not
closed. How many tags are open is all that matters to a mark, so that marks are balanced is a
property of a scan (`closes`). It is the same as that no prefix closes more tags than it opens, and
that all tags are closed in the end (`closes_iff`).

What is found in a text is a part of it, and a text has no arrows once they are replaced. So arrows
are replaced once and for all: nothing that is found in the text has any
(`arrowFree_substituteArrows`).
-/

namespace ScriptLint

/-! ## Balanced marks of tags -/

/-- The marks of tags are balanced: no prefix closes more tags than it opens, and in all as many
are closed as opened. -/
def MarksBalanced (t : Text) : Prop :=
  (∀ u, u <+: t → u.count '>' ≤ u.count '<') ∧ t.count '<' = t.count '>'

/-- The text closes a number of open tags and all those it opens, and nothing else. -/
def closes : Nat → Text → Bool
  | n, [] => n == 0
  | n, c :: r =>
    if c = '<' then closes (n + 1) r
    else if c = '>' then 0 < n && closes (n - 1) r
    else closes n r

section
variable (n : Nat) (r : Text)

@[simp] theorem closes_nil : closes n [] = (n == 0) := by rw [closes]

@[simp] theorem closes_open : closes n ('<' :: r) = closes (n + 1) r := by rw [closes, if_pos rfl]

@[simp] theorem closes_zero_close : closes 0 ('>' :: r) = false := by simp [closes]

@[simp] theorem closes_succ_close : closes (n + 1) ('>' :: r) = closes n r := by simp [closes]

/-- A character that is no angle does not matter for closing. -/
theorem closes_plain {c : Char} (hopen : c ≠ '<') (hclose : c ≠ '>') :
    closes n (c :: r) = closes n r := by
  rw [closes, if_neg hopen, if_neg hclose]

end

/-- A character opens a tag, closes one or does neither. -/
theorem mark_cases (c : Char) : c = '<' ∨ c = '>' ∨ c ≠ '<' ∧ c ≠ '>' := by
  by_cases hopen : c = '<'
  · exact .inl hopen
  · by_cases hclose : c = '>'
    · exact .inr (.inl hclose)
    · exact .inr (.inr ⟨hopen, hclose⟩)

/-- What holds of all beginnings of a text holds of the empty one and of those with its first
character. -/
theorem forall_prefix_cons {P : Text → Prop} {c : Char} {r : Text} :
    (∀ u, u <+: c :: r → P u) ↔ P [] ∧ ∀ u, u <+: r → P (c :: u) := by
  refine ⟨fun h => ⟨h [] List.nil_prefix, fun u hu => h _ (List.cons_prefix_cons.2 ⟨rfl, hu⟩)⟩, ?_⟩
  rintro ⟨hnil, hcons⟩ u hu
  rcases List.prefix_cons_iff.1 hu with rfl | ⟨v, rfl, hv⟩
  · exact hnil
  · exact hcons v hv

/-- A text closes the open tags if they outnumber what a prefix closes, and none is left in the
end. -/
theorem closes_iff {t : Text} : ∀ {n : Nat}, closes n t = true ↔
    (∀ u, u <+: t → u.count '>' ≤ n + u.count '<') ∧ n + t.count '<' = t.count '>' := by
  induction t with
  | nil => simp
  | cons c r ih =>
    intro n
    rw [forall_prefix_cons]
    rcases mark_cases c with rfl | rfl | ⟨hopen, hclose⟩
    · simp [ih, Nat.add_assoc, Nat.add_comm 1]
    · cases n with
      | zero =>
        -- Here the first mark alone is a prefix that closes too much.
        simp only [closes_zero_close, Bool.false_eq_true, false_iff, not_and]
        intro hprefix
        have := hprefix.2 [] List.nil_prefix
        simp at this
      | succ n => simp [ih, Nat.add_right_comm]
    · simp [closes_plain, hopen, hclose, ih]

/-- The marks are balanced exactly if the text closes what it opens and no more. -/
theorem marksBalanced_iff {t : Text} : MarksBalanced t ↔ closes 0 t = true := by
  simp [closes_iff, MarksBalanced]

instance (t : Text) : Decidable (MarksBalanced t) := decidable_of_iff _ marksBalanced_iff.symm

/-- What closes all its tags does not matter to those that are open. -/
theorem closes_append {t : Text} : ∀ {k : Nat}, closes k t = true → ∀ (n : Nat) (rest : Text),
    closes (n + k) (t ++ rest) = closes n rest := by
  induction t with
  | nil =>
    intro k h n rest
    obtain rfl : k = 0 := by simpa using h
    rfl
  | cons c r ih =>
    intro k h n rest
    rw [List.cons_append]
    rcases mark_cases c with rfl | rfl | ⟨hopen, hclose⟩
    · rw [closes_open] at h ⊢
      exact ih h n rest
    · cases k with
      | zero => simp at h
      | succ k =>
        rw [closes_succ_close] at h
        exact (closes_succ_close ..).trans (ih h n rest)
    · rw [closes_plain _ _ hopen hclose] at h ⊢
      exact ih h n rest

/-- Where all open tags are closed, one more closing mark has nothing to close. -/
theorem closes_append_close {n : Nat} {t : Text} (h : closes n t = true) (rest : Text) :
    closes n (t ++ '>' :: rest) = false := by
  rw [← Nat.zero_add n, closes_append h, closes_zero_close]

/-- A text without marks closes nothing. -/
theorem closes_plain_append {u : Text} (hopen : '<' ∉ u) (hclose : '>' ∉ u) (n : Nat) (t : Text) :
    closes n (u ++ t) = closes n t := by
  induction u with
  | nil => rfl
  | cons c r ih =>
    rw [List.mem_cons, not_or] at hopen hclose
    rw [List.cons_append, closes_plain _ _ (Ne.symm hopen.1) (Ne.symm hclose.1),
      ih hopen.2 hclose.2]

/-- A text without angles does not matter for closing. -/
theorem closes_append_plain {u : Text} (hopen : '<' ∉ u) (hclose : '>' ∉ u) (t : Text) : ∀ n : Nat,
    closes n (t ++ u) = closes n t := by
  induction t with
  | nil =>
    intro n
    have hend := closes_plain_append hopen hclose n []
    rwa [List.append_nil] at hend
  | cons c r ih =>
    intro n
    rw [List.cons_append]
    rcases mark_cases c with rfl | rfl | ⟨hc, hc'⟩
    · rw [closes_open, closes_open, ih]
    · cases n with
      | zero => rw [closes_zero_close, closes_zero_close]
      | succ n => rw [closes_succ_close, closes_succ_close, ih]
    · rw [closes_plain _ _ hc hc', closes_plain _ _ hc hc', ih]

/-- The innermost open tags are closed first, by a text of their own. -/
theorem closes_split {n : Nat} {t : Text} : ∀ {k : Nat}, closes (n + 1 + k) t = true →
    ∃ body rest, t = body ++ '>' :: rest ∧ closes k body = true ∧ closes n rest = true := by
  induction t with
  | nil => intro k h; simp at h
  | cons c r ih =>
    intro k h
    rcases mark_cases c with rfl | rfl | ⟨hopen, hclose⟩
    · rw [closes_open, Nat.add_assoc] at h
      obtain ⟨body, rest, rfl, hbody, hrest⟩ := ih h
      exact ⟨'<' :: body, rest, rfl, by simpa using hbody, hrest⟩
    · cases k with
      | zero =>
        rw [Nat.add_zero, closes_succ_close] at h
        exact ⟨[], r, rfl, rfl, h⟩
      | succ k =>
        rw [← Nat.add_assoc, closes_succ_close] at h
        obtain ⟨body, rest, rfl, hbody, hrest⟩ := ih h
        exact ⟨'>' :: body, rest, rfl, by simpa using hbody, hrest⟩
    · rw [closes_plain _ _ hopen hclose] at h
      obtain ⟨body, rest, rfl, hbody, hrest⟩ := ih h
      exact ⟨c :: body, rest, rfl, by rwa [closes_plain _ _ hopen hclose], hrest⟩

/-! ## Regions -/

/-- The text has closed tags with the given bodies, one after the other, and nothing else is
closed. -/
inductive Regions : Text → List Text → Prop
  /-- No tag is opened any more. -/
  | plain {u : Text} : '<' ∉ u → Regions u []
  /-- The next tag is not closed, so all that comes after it is inside of it. -/
  | unclosed {u inside : Text} : '<' ∉ u →
      (∀ body rest, closes 0 body = true → inside ≠ body ++ '>' :: rest) →
      Regions (u ++ '<' :: inside) []
  | tag {u body rest : Text} {bodies : List Text} : '<' ∉ u → closes 0 body = true →
      Regions rest bodies →
      Regions (u ++ '<' :: (body ++ '>' :: rest)) (body :: bodies)

/-- The text opens a number of tags that are not closed in it. -/
def Opens (n : Nat) (t : Text) : Prop := ∀ rest, closes n rest = true → closes 0 (t ++ rest) = true

/-- An open text goes on with a character that keeps it open. -/
theorem Opens.concat {n m : Nat} {t : Text} {c : Char} (h : Opens n t)
    (hc : ∀ rest, closes m rest = true → closes n (c :: rest) = true) : Opens m (t ++ [c]) := by
  intro rest hrest
  rw [List.append_assoc]
  exact h _ (hc rest hrest)

/-- Nothing in a text closes what is around it as long as the text can be continued. -/
theorem Opens.ne_append {n : Nat} {t : Text} (h : Opens n t) {body rest : Text}
    (hbody : closes 0 body = true) :
    t ≠ body ++ '>' :: rest := by
  rintro rfl
  have hmarks : ∀ k, closes k (List.replicate k '>') = true := by
    intro k
    induction k with
    | zero => rfl
    | succ k ih => rwa [List.replicate_succ, closes_succ_close]
  have hclosed := h _ (hmarks n)
  rw [List.append_assoc, List.cons_append, closes_append_close hbody] at hclosed
  cases hclosed

section
variable (inner : Nat) (body r : Text)

/-- An angle inside of a tag opens an inner one. -/
theorem tagBodiesFrom_open :
    tagBodiesFrom (some (inner, body))
    ('<' :: r) = tagBodiesFrom (some (inner + 1, '<' :: body)) r := by
  cases inner <;> rfl

/-- Without an open inner tag, a closing angle ends the tag. -/
theorem tagBodiesFrom_close :
    tagBodiesFrom (some (0, body)) ('>' :: r) = body.reverse :: tagBodiesFrom none r := rfl

/-- With open inner tags, a closing angle ends the innermost. -/
theorem tagBodiesFrom_innerClose :
    tagBodiesFrom (some (inner + 1, body))
    ('>' :: r) = tagBodiesFrom (some (inner, '>' :: body)) r := rfl

end

/-- What the scan finds in the rest of a text are the regions of the whole text. -/
theorem regions_tagBodiesFrom (t : Text) : ∀ {u : Text}, '<' ∉ u →
    Regions (u ++ t) (tagBodiesFrom none t) ∧
      ∀ {inner : Nat} {body : Text}, Opens inner body.reverse →
        Regions (u ++ '<' :: (body.reverse ++ t)) (tagBodiesFrom (some (inner, body)) t) := by
  -- Outside of tags, `u` is what was read since the last tag; inside, it is what was read before
  -- the tag, and `body` what was read of it.
  induction t with
  | nil =>
    intro u hu
    refine ⟨?_, fun {inner body} hbody => ?_⟩
    · rw [List.append_nil, tagBodiesFrom]
      exact .plain hu
    · rw [List.append_nil, tagBodiesFrom]
      exact .unclosed hu fun b rest hb => hbody.ne_append hb
  | cons c r ih =>
    intro u hu
    refine ⟨?_, fun {inner body} hbody => ?_⟩
    · rw [tagBodiesFrom]
      split
      · next hc =>
        subst hc
        have hempty : Opens 0 ([] : Text).reverse := fun rest hrest => hrest
        exact (ih hu).2 hempty
      · next hc =>
        have hfree : '<' ∉ u ++ [c] := by simpa [hu] using Ne.symm hc
        have hrest := (ih hfree).1
        rwa [List.append_assoc] at hrest
    · -- Inside of a tag, the character is gathered unless it closes the tag.
      have hgather : ∀ {m : Nat},
          (∀ rest, closes m rest = true → closes inner (c :: rest) = true) →
          Regions (u ++ '<' :: (body.reverse ++ c :: r))
            (tagBodiesFrom (some (m, c :: body)) r) := by
        intro m hm
        have hnext : Opens m (c :: body).reverse := by
          rw [List.reverse_cons]
          exact hbody.concat hm
        have hrest := (ih hu).2 hnext
        rwa [List.reverse_cons, List.append_assoc] at hrest
      rcases mark_cases c with rfl | rfl | ⟨hopen, hclose⟩
      · rw [tagBodiesFrom_open]
        exact hgather fun rest hrest => by rwa [closes_open]
      · cases inner with
        | zero =>
          rw [tagBodiesFrom_close]
          refine .tag hu ?_ (ih List.not_mem_nil).1
          have hclosed := hbody [] rfl
          rwa [List.append_nil] at hclosed
        | succ inner =>
          rw [tagBodiesFrom_innerClose]
          exact hgather fun rest hrest => by rwa [closes_succ_close]
      · rw [tagBodiesFrom_plain hopen hclose]
        exact hgather fun rest hrest => by rwa [closes_plain _ _ hopen hclose]

/-- The bodies that are found are those of the regions of the text. -/
theorem regions_tagBodies (t : Text) : Regions t (tagBodies t) :=
  (regions_tagBodiesFrom t List.not_mem_nil).1

/-- Without a tag being opened, nothing can be closed. -/
theorem closes_of_not_mem {u : Text} (hu : '<' ∉ u) {t : Text} (h : closes 0 (u ++ t) = true) :
    '>' ∉ u ∧ closes 0 t = true := by
  induction u with
  | nil => exact ⟨List.not_mem_nil, h⟩
  | cons c r ih =>
    rw [List.mem_cons, not_or] at hu
    have hclose : c ≠ '>' := by
      rintro rfl
      simp at h
    rw [List.cons_append, closes_plain _ _ (Ne.symm hu.1) hclose] at h
    obtain ⟨hr, ht⟩ := ih hu.2 h
    exact ⟨by simp [hr, Ne.symm hclose], ht⟩

namespace Regions

variable {t : Text} {bodies : List Text}

/-- The body of a region closes what it opens. -/
theorem closes_of_mem (h : Regions t bodies) : ∀ body ∈ bodies, closes 0 body = true := by
  induction h with
  | plain _ => exact List.forall_mem_nil _
  | unclosed _ _ => exact List.forall_mem_nil _
  | tag _ hbody _ ih => exact List.forall_mem_cons.2 ⟨hbody, ih⟩

/-- The body of a region stands in the text. -/
theorem infix_of_mem (h : Regions t bodies) : ∀ body ∈ bodies, body <:+: t := by
  induction h with
  | plain _ => exact List.forall_mem_nil _
  | unclosed _ _ => exact List.forall_mem_nil _
  | @tag u body rest bodies _ _ _ ih =>
    refine List.forall_mem_cons.2 ⟨⟨u ++ ['<'], '>' :: rest, by simp⟩, fun b hb =>
      (ih b hb).trans ?_⟩
    exact ⟨u ++ '<' :: (body ++ ['>']), [], by simp⟩

/-- A tag has one mark of each sort around its body. -/
theorem count_tag {c : Char} (hc : c = '<' ∨ c = '>') (u body rest : Text) :
    (u ++ '<' :: (body ++ '>' :: rest)).count c = u.count c +
    (1 + body.count c + rest.count c) := by
  rcases hc with rfl | rfl
  · simp
    omega
  · simp
    omega

/-- The marks of tags that stand in the regions are among those of the text. -/
theorem sum_count_le (h : Regions t bodies) {c : Char} (hc : c = '<' ∨ c = '>') :
    (bodies.map fun body => 1 + body.count c).sum ≤ t.count c := by
  induction h with
  | plain _ => exact Nat.zero_le _
  | unclosed _ _ => exact Nat.zero_le _
  | tag _ _ _ ih =>
    rw [List.map_cons, List.sum_cons, count_tag hc]
    omega

/-- If the marks of a text are balanced, all of them stand in its regions. -/
theorem sum_count_eq (h : Regions t bodies) (ht : closes 0 t = true) {c : Char}
    (hc : c = '<' ∨ c = '>') :
    (bodies.map fun body => 1 + body.count c).sum = t.count c := by
  induction h with
  | @plain u hu =>
    obtain ⟨hclose, -⟩ := closes_of_not_mem hu (t := []) (by rwa [List.append_nil])
    rcases hc with rfl | rfl
    · exact (List.count_eq_zero.2 hu).symm
    · exact (List.count_eq_zero.2 hclose).symm
  | unclosed hu hinside =>
    obtain ⟨-, hopen⟩ := closes_of_not_mem hu ht
    rw [closes_open] at hopen
    obtain ⟨body, rest, rfl, hbody, -⟩ := closes_split (k := 0) hopen
    exact absurd rfl (hinside body rest hbody)
  | tag hu hbody _ ih =>
    obtain ⟨hclose, hopen⟩ := closes_of_not_mem hu ht
    rw [closes_open, closes_append hbody, closes_succ_close] at hopen
    rw [List.map_cons, List.sum_cons, count_tag hc, ih hopen]
    rcases hc with rfl | rfl
    · rw [List.count_eq_zero.2 hu, Nat.zero_add]
    · rw [List.count_eq_zero.2 hclose, Nat.zero_add]

end Regions

/-! ## Arrows -/

/-- Two characters do not stand next to each other if they do not at the start, nor in the rest. -/
theorem Text.holds_pair_cons {a b c : Char} {r : Text} :
    holds [a, b] (c :: r) = false ↔ ¬ (c = a ∧ r.head? = some b) ∧ holds [a, b] r = false := by
  cases r with
  | nil => simp [holds, List.isPrefixOf]
  | cons d r => simp [holds, List.isPrefixOf, @eq_comm _ a c, @eq_comm _ b d]

/-- Replacing right arrows keeps other first characters. -/
theorem head?_substituteRight {d : Char} (hmark : d ≠ '-') (hsign : d ≠ '\x01') (t : Text) :
    (substituteRight t).head? = some d ↔ t.head? = some d := by
  fun_cases substituteRight t <;> simp [Ne.symm hmark, Ne.symm hsign]

/-- Replacing left arrows keeps other first characters. -/
theorem head?_substituteLeft {d : Char} (hmark : d ≠ '<') (hsign : d ≠ '\x02') (t : Text) :
    (substituteLeft t).head? = some d ↔ t.head? = some d := by
  fun_cases substituteLeft t <;> simp [Ne.symm hmark, Ne.symm hsign]

/-- Where right arrows are replaced, none is left. -/
theorem holds_substituteRight (t : Text) : Text.holds ['-', '>'] (substituteRight t) = false := by
  fun_induction substituteRight t with
  | case1 => rfl
  | case2 r ih => exact Text.holds_pair_cons.2 ⟨by simp, ih⟩
  | case3 c r hne ih =>
    refine Text.holds_pair_cons.2 ⟨?_, ih⟩
    rintro ⟨hc, hhead⟩
    rw [head?_substituteRight (by decide) (by decide)] at hhead
    obtain ⟨rest, rfl⟩ := List.head?_eq_some_iff.1 hhead
    exact hne rest hc rfl

/-- Where left arrows are replaced, none is left. -/
theorem holds_substituteLeft (t : Text) : Text.holds ['<', '-'] (substituteLeft t) = false := by
  fun_induction substituteLeft t with
  | case1 => rfl
  | case2 r ih => exact Text.holds_pair_cons.2 ⟨by simp, ih⟩
  | case3 c r hne ih =>
    refine Text.holds_pair_cons.2 ⟨?_, ih⟩
    rintro ⟨hc, hhead⟩
    rw [head?_substituteLeft (by decide) (by decide)] at hhead
    obtain ⟨rest, rfl⟩ := List.head?_eq_some_iff.1 hhead
    exact hne rest hc rfl

/-- Replacing the arrows to the left brings no arrow to the right about. -/
theorem holds_right_substituteLeft {t : Text} (h : Text.holds ['-', '>'] t = false) :
    Text.holds ['-', '>'] (substituteLeft t) = false := by
  fun_induction substituteLeft t with
  | case1 => rfl
  | case2 r ih =>
    obtain ⟨-, h⟩ := Text.holds_pair_cons.1 h
    obtain ⟨-, h⟩ := Text.holds_pair_cons.1 h
    exact Text.holds_pair_cons.2 ⟨by simp, ih h⟩
  | case3 c r hne ih =>
    obtain ⟨hpair, h⟩ := Text.holds_pair_cons.1 h
    refine Text.holds_pair_cons.2 ⟨?_, ih h⟩
    rintro ⟨hc, hhead⟩
    refine hpair ⟨hc, ?_⟩
    rwa [head?_substituteLeft (by decide) (by decide)] at hhead

/-- No arrow is left once arrows are replaced. -/
theorem arrowFree_substituteArrows (t : Text) : ArrowFree (substituteArrows t) :=
  ⟨holds_right_substituteLeft (holds_substituteRight t), holds_substituteLeft _⟩

/-- What is found in a text without arrows is searched as it is. -/
theorem substituteArrows_of_infix {t u : Text} (h : u <:+: substituteArrows t) :
    substituteArrows u = u :=
  substituteArrows_eq_self (ArrowFree.of_infix (arrowFree_substituteArrows t) h)

end ScriptLint
