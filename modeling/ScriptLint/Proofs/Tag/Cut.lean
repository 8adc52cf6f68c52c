import ScriptLint.Proofs.Tag.Region

/-!
# How the body of a tag is cut

A body is cut at the dots and at the first bars that are outside of brackets and inner tags. What
is open is counted, and a closing mark with nothing to close does not count (`bracketsAfter`,
`anglesAfter`). `Cut` says which parts and which fallback a body has, character by character, and
`cut_rawParts` that these are the ones which are found. So the parts and the fallback are pieces of
the body, no mark of a tag gets lost between them, and none of them is torn out of an inner tag
(`Cut.infix_parts`, `Cut.count_eq`, `Cut.closes_parts`).

A part is cut once more: the parameter is searched for tags, and what is outside of it is not
(`TagPart.outside`).
-/

namespace ScriptLint

/-- How many brackets are open after a character. -/
def bracketsAfter (c : Char) (n : Nat) : Nat :=
  if c = '[' then n + 1 else if c = ']' then n - 1 else n

/-- How many tags are open after a character. -/
def anglesAfter (c : Char) (n : Nat) : Nat :=
  if c = '<' then n + 1 else if c = '>' then n - 1 else n

/-- A text closes if its first character does not close too much and the rest closes after it. -/
theorem closes_cons {n : Nat} {c : Char} {r : Text} :
    closes n (c :: r) = true ↔ (c = '>' → 0 < n) ∧ closes (anglesAfter c n) r = true := by
  rcases mark_cases c with rfl | rfl | ⟨hopen, hclose⟩
  · simp [anglesAfter]
  · cases n <;> simp [anglesAfter]
  · simp [anglesAfter, closes_plain, hopen, hclose]

/-- A body has the given parts, as they are written, and the given fallback if some brackets and
tags are open at its start. -/
inductive Cut : Nat → Nat → Text → List Text → Option Text → Prop
  | nil {b a : Nat} : Cut b a [] [[]] none
  | dot {r : Text} {parts : List Text} {fallback : Option Text} :
      Cut 0 0 r parts fallback → Cut 0 0 ('.' :: r) ([] :: parts) fallback
  | bars {t : Text} : Cut 0 0 ('|' :: '|' :: t) [[]] (some t)
  | join {b a : Nat} {c : Char} {r first : Text} {parts : List Text} {fallback : Option Text} :
      (b = 0 → a = 0 → c ≠ '.' ∧ ¬ (c = '|' ∧ r.head? = some '|')) →
      Cut (bracketsAfter c b) (anglesAfter c a) r (first :: parts) fallback →
      Cut b a (c :: r) ((c :: first) :: parts) fallback

/-- A character that is no cut joins the first part. -/
theorem rawParts_join {b a : Nat} {c : Char} {r : Text}
    (h : b = 0 → a = 0 → c ≠ '.' ∧ ¬ (c = '|' ∧ r.head? = some '|')) :
    rawParts b a (c :: r) = consToFirst c (rawParts (bracketsAfter c b) (anglesAfter c a) r) := by
  rw [rawParts]
  split
  · next hc => subst hc; rfl
  split
  · next hc => obtain ⟨rfl, -⟩ := hc; rfl
  split
  · next hc => subst hc; rfl
  split
  · next hc => obtain ⟨rfl, -⟩ := hc; rfl
  -- What is left is no mark, or closes nothing: the counts stay as they are.
  next hopen hclose hangle hendAngle =>
  have hb : bracketsAfter c b = b := by
    rw [bracketsAfter, if_neg hopen]
    split
    · next hc =>
      have hzero : ¬ 0 < b := fun hpos => hclose ⟨hc, hpos⟩
      omega
    · rfl
  have ha : anglesAfter c a = a := by
    rw [anglesAfter, if_neg hangle]
    split
    · next hc =>
      have hzero : ¬ 0 < a := fun hpos => hendAngle ⟨hc, hpos⟩
      omega
    · rfl
  rw [hb, ha]
  split
  · next hzero =>
    obtain ⟨rfl, rfl⟩ := hzero
    rw [if_neg (h rfl rfl).1, if_neg (h rfl rfl).2]
  · rfl

/-- A tag has at least one part. -/
theorem Cut.ne_nil {b a : Nat} {body : Text} {parts : List Text} {fallback : Option Text}
    (h : Cut b a body parts fallback) : parts ≠ [] := by
  cases h <;> exact List.cons_ne_nil _ _

/-- The parts and the fallback that are found are those of the body. -/
theorem cut_rawParts (body : Text) :
    ∀ b a : Nat, Cut b a body (rawParts b a body).1 (rawParts b a body).2 := by
  induction body with
  | nil => exact fun b a => .nil
  | cons c r ih =>
    intro b a
    by_cases hjoin : b = 0 → a = 0 → c ≠ '.' ∧ ¬ (c = '|' ∧ r.head? = some '|')
    · rw [rawParts_join hjoin]
      have hrest := ih (bracketsAfter c b) (anglesAfter c a)
      generalize rawParts (bracketsAfter c b) (anglesAfter c a) r = found at hrest
      obtain ⟨_ | ⟨first, parts⟩, fallback⟩ := found
      · exact absurd rfl hrest.ne_nil
      · exact .join hjoin hrest
    · simp only [Classical.not_imp] at hjoin
      obtain ⟨rfl, rfl, hcut⟩ := hjoin
      by_cases hdot : c = '.'
      · subst hdot
        exact .dot (ih 0 0)
      · obtain ⟨rfl, hhead⟩ : c = '|' ∧ r.head? = some '|' := by simpa [hdot] using hcut
        obtain ⟨t, rfl⟩ := List.head?_eq_some_iff.1 hhead
        exact .bars

namespace Cut

variable {b a : Nat} {body : Text} {parts : List Text} {fallback : Option Text}

/-- The marks of tags in a body are those of its parts and of its fallback. -/
theorem count_eq (h : Cut b a body parts fallback) {c : Char} (hc : c = '<' ∨ c = '>') :
    body.count c = (parts.map (List.count c)).sum + fallback.elim 0 (List.count c) := by
  induction h with
  | nil => rfl
  | dot _ ih => rcases hc with rfl | rfl <;> simpa using ih
  | bars => rcases hc with rfl | rfl <;> simp
  | join _ _ ih =>
    rw [List.count_cons, ih]
    simp only [List.map_cons, List.sum_cons, List.count_cons]
    omega

/-- The first part is at the start of the body, and the other parts and the fallback are pieces of
it. -/
theorem infix_parts (h : Cut b a body parts fallback) :
    (∃ first rest, parts = first :: rest ∧ first <+: body ∧ ∀ raw ∈ rest, raw <:+: body) ∧
      ∀ t, fallback = some t → t <:+: body := by
  induction h with
  | nil => exact ⟨⟨[], [], rfl, List.nil_prefix, List.forall_mem_nil _⟩, nofun⟩
  | @dot r _ _ _ ih =>
    obtain ⟨⟨first, rest, rfl, hfirst, hrest⟩, hfallback⟩ := ih
    have htail : r <:+: '.' :: r := (List.suffix_cons _ _).isInfix
    refine ⟨⟨[], first :: rest, rfl, List.nil_prefix, ?_⟩, fun t ht =>
      (hfallback t ht).trans htail⟩
    exact List.forall_mem_cons.2
      ⟨hfirst.isInfix.trans htail, fun raw hraw => (hrest raw hraw).trans htail⟩
  | bars =>
    refine ⟨⟨[], [], rfl, List.nil_prefix, List.forall_mem_nil _⟩, ?_⟩
    rintro t ⟨⟩
    exact ⟨['|', '|'], [], by simp⟩
  | @join _ _ c r _ _ _ _ _ ih =>
    obtain ⟨⟨_, _, ⟨⟩, hfirst, hrest⟩, hfallback⟩ := ih
    have htail : r <:+: c :: r := (List.suffix_cons _ _).isInfix
    refine ⟨⟨_, _, rfl, List.cons_prefix_cons.2 ⟨rfl, hfirst⟩, ?_⟩, ?_⟩
    · exact fun raw hraw => (hrest raw hraw).trans htail
    · exact fun t ht => (hfallback t ht).trans htail

/-- The first part closes the tags that are open at the start; the marks of the other parts and of
the fallback are balanced. -/
theorem closes_parts (h : Cut b a body parts fallback) (hbody : closes a body = true) :
    (∃ first rest, parts = first :: rest ∧ closes a first = true ∧ ∀ raw ∈ rest,
      closes 0 raw = true) ∧
      ∀ t, fallback = some t → closes 0 t = true := by
  induction h with
  | nil => exact ⟨⟨[], [], rfl, hbody, List.forall_mem_nil _⟩, nofun⟩
  | dot _ ih =>
    rw [closes_plain _ _ (by decide) (by decide)] at hbody
    obtain ⟨⟨first, rest, rfl, hfirst, hrest⟩, hfallback⟩ := ih hbody
    exact ⟨⟨[], first :: rest, rfl, rfl, List.forall_mem_cons.2 ⟨hfirst, hrest⟩⟩, hfallback⟩
  | bars =>
    refine ⟨⟨[], [], rfl, rfl, List.forall_mem_nil _⟩, ?_⟩
    rintro t ⟨⟩
    rwa [closes_plain _ _ (by decide) (by decide),
      closes_plain _ _ (by decide) (by decide)] at hbody
  | join _ _ ih =>
    rw [closes_cons] at hbody
    obtain ⟨⟨_, _, ⟨⟩, hfirst, hrest⟩, hfallback⟩ := ih hbody.2
    exact ⟨⟨_, _, rfl, closes_cons.2 ⟨hbody.1, hfirst⟩, hrest⟩, hfallback⟩

end Cut

section
variable {body raw : Text}

/-- A part of a body stands in it. -/
theorem infix_of_mem_rawParts (h : raw ∈ (rawParts 0 0 body).1) : raw <:+: body := by
  obtain ⟨⟨first, rest, hparts, hfirst, hrest⟩, -⟩ := (cut_rawParts body 0 0).infix_parts
  rw [hparts] at h
  rcases List.mem_cons.1 h with rfl | h
  · exact hfirst.isInfix
  · exact hrest raw h

/-- A part of a body that closes does so as well. -/
theorem closes_of_mem_rawParts (hbody : closes 0 body = true) (h : raw ∈ (rawParts 0 0 body).1) :
    closes 0 raw = true := by
  obtain ⟨⟨first, rest, hparts, hfirst, hrest⟩, -⟩ := (cut_rawParts body 0 0).closes_parts hbody
  rw [hparts] at h
  rcases List.mem_cons.1 h with rfl | h
  · exact hfirst
  · exact hrest raw h

/-- The fallback of a body stands in it. -/
theorem infix_of_fallback {t : Text} (h : (rawParts 0 0 body).2 = some t) : t <:+: body :=
  (cut_rawParts body 0 0).infix_parts.2 t h

/-- The fallback of a body that closes does so as well. -/
theorem closes_of_fallback (hbody : closes 0 body = true) {t : Text}
    (h : (rawParts 0 0 body).2 = some t) :
    closes 0 t = true :=
  ((cut_rawParts body 0 0).closes_parts hbody).2 t h

end

/-! ## Inside and outside of a parameter -/

/-- The text of a part outside of its parameter: the name, and what comes after the parameter. -/
def TagPart.outside (raw : Text) : Text :=
  match Text.after? '[' raw with
  | none => raw
  | some inner =>
    Text.before '[' raw ++ match Text.beforeLast? ']' inner with
      | none => []
      | some q => inner.drop (q.length + 1)

/-- A part has no parameter, or one between brackets, the last of which may be missing. -/
theorem TagPart.ofRaw_cases (raw : Text) :
    (ofRaw raw).parameter = none ∧ outside raw = raw ∨
      ∃ name q mark after, (mark = [] ∨ mark = [']']) ∧
        raw = name ++ '[' :: (q ++ (mark ++ after)) ∧
        (ofRaw raw).parameter = some q ∧ outside raw = name ++ after := by
  cases hafter : Text.after? '[' raw with
  | none =>
    simp only [ofRaw, outside, hafter]
    exact .inl ⟨trivial, trivial⟩
  | some inner =>
    have hraw := Text.eq_of_after? hafter
    cases hlast : Text.beforeLast? ']' inner with
    | none =>
      simp only [ofRaw, outside, hafter, hlast]
      exact .inr ⟨_, inner, [], [], .inl rfl, by simpa using hraw, rfl, rfl⟩
    | some q =>
      have hinner := Text.eq_of_beforeLast? hlast
      simp only [ofRaw, outside, hafter, hlast]
      refine .inr ⟨_, q, [']'], inner.drop (q.length + 1), .inr rfl, ?_, rfl, rfl⟩
      rw [List.singleton_append, ← hinner]
      exact hraw

namespace TagPart

variable {raw q : Text}

/-- The parameter of a part stands in it. -/
theorem infix_of_parameter (h : (ofRaw raw).parameter = some q) : q <:+: raw := by
  rcases ofRaw_cases raw with ⟨hnone, -⟩ | ⟨name, q', mark, after, -, hraw, hsome, -⟩
  · rw [hnone] at h; cases h
  · rw [hsome] at h
    cases h
    exact ⟨name ++ ['['], mark ++ after, by simp [hraw]⟩

/-- The marks of tags in a part are in its parameter or outside of it. -/
theorem count_ofRaw {c : Char} (hc : c = '<' ∨ c = '>') (raw : Text) :
    raw.count c = (outside raw).count c + (ofRaw raw).parameter.elim 0 (·.count c) := by
  rcases ofRaw_cases raw with ⟨hnone, hout⟩ | ⟨name, q, mark, after, hmark, hraw, hsome, hout⟩
  · rw [hnone, hout]; rfl
  · have hzero : mark.count c = 0 := by
      rcases hmark with rfl | rfl <;> rcases hc with rfl | rfl <;> rfl
    have hbracket : '[' ≠ c := by rcases hc with rfl | rfl <;> decide
    rw [hout, hsome]
    conv => lhs; rw [hraw]
    simp [hzero, hbracket]
    omega

/-- A parameter has balanced marks if those of the part are balanced and none is outside of the
parameter. -/
theorem closes_parameter (hraw : closes 0 raw = true) (h : (ofRaw raw).parameter = some q)
    (hopen : '<' ∉ outside raw) (hclose : '>' ∉ outside raw) : closes 0 q = true := by
  rcases ofRaw_cases raw with ⟨hnone, -⟩ | ⟨name, q', mark, after, hmark, hsplit, hsome, hout⟩
  · rw [hnone] at h; cases h
  · rw [hsome] at h
    cases h
    rw [hout, List.mem_append, not_or] at hopen hclose
    have hends : ∀ c : Char, c = '<' ∨ c = '>' → c ∉ after → c ∉ mark ++ after := by
      rintro c hc hafter
      rcases hmark with rfl | rfl <;> rcases hc with rfl | rfl <;> simpa using hafter
    rw [hsplit, closes_plain_append hopen.1 hclose.1, closes_plain _ _ (by decide) (by decide),
      closes_append_plain (hends _ (.inl rfl) hopen.2) (hends _ (.inr rfl) hclose.2)] at hraw
    exact hraw

end TagPart

end ScriptLint
