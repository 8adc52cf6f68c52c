import Mathlib.Algebra.Order.BigOperators.Group.List
import Mathlib.Algebra.Order.Group.Nat
import ScriptLint.Proofs.Tag.Cut

/-!
# Nested tags

The search for tags goes on in the parameters and the fallback of a tag that it has found, at any
depth (`Found`). It comes to each of these places once. So, if the marks of an argument are
balanced, there cannot be more tags than opening marks, and there are as many exactly if no mark
stands elsewhere: in the name of a part, as in `<a<b>>`, or after its parameter, as in `<a[1]<b>>`
(`tagsOf_nested`).

The two sides of this count are taken apart alike. The marks of a text are those of its regions,
the marks of a body are those of its parts and of its fallback, and the marks of a part are those
inside and outside of its parameter; the tags of an argument are those of its bodies, and the tags
of a body are those of its parameters and of its fallback. At each level, the tags are at most as
many as the marks, term by term, so that the sums are equal exactly if the terms are.
-/

namespace ScriptLint

/-! ## Where tags are found -/

/-- The search for the tags of an argument comes to a tag with the given body. -/
inductive Found : Text → Text → Prop
  | outer {argument body : Text} : body ∈ tagBodies (substituteArrows argument) →
      Found argument body
  | parameter {argument body q inner : Text}
      {p : TagPart} : body ∈ tagBodies (substituteArrows argument) →
      p ∈ (Tag.ofBody body).parts → p.parameter = some q → Found q inner → Found argument inner
  | fallback {argument body t inner : Text} : body ∈ tagBodies (substituteArrows argument) →
      (Tag.ofBody body).fallback = some t → Found t inner → Found argument inner

namespace Tag

/-- The tags of a tag are itself, those in its parameters and those in its fallback. -/
theorem mem_withInner {tag inner : Tag} : inner ∈ tag.withInner ↔
    inner = tag ∨ (∃ p ∈ tag.parts, ∃ q, p.parameter = some q ∧ inner ∈ tagsOf q) ∨
      ∃ t, tag.fallback = some t ∧ inner ∈ tagsOf t := by
  have helim : ∀ o : Option Text, inner ∈ o.elim [] tagsOf ↔
      ∃ t, o = some t ∧ inner ∈ tagsOf t := by
    rintro (_ | t) <;> simp
  simp only [withInner, TagPart.innerTags, List.mem_cons, List.mem_append, List.mem_flatMap, helim]

end Tag

/-- The tags of an argument are those with the bodies that are found. -/
theorem mem_tagsOf {argument : Text} {tag : Tag} :
    tag ∈ tagsOf argument ↔ ∃ body, Found argument body ∧ tag = Tag.ofBody body := by
  constructor
  · intro h
    induction argument using walk.induct with
    | case1 argument ihparameter ihfallback =>
      rw [tagsOf_eq, List.mem_flatMap] at h
      obtain ⟨body, hbody, h⟩ := h
      rcases Tag.mem_withInner.1 h with rfl | ⟨p, hp, q, hq, h⟩ | ⟨t, ht, h⟩
      · exact ⟨body, .outer hbody, rfl⟩
      · obtain ⟨inner, hinner, rfl⟩ := ihparameter body hbody p hp q hq h
        exact ⟨inner, .parameter hbody hp hq hinner, rfl⟩
      · obtain ⟨inner, hinner, rfl⟩ := ihfallback body hbody t ht h
        exact ⟨inner, .fallback hbody ht hinner, rfl⟩
  · rintro ⟨body, h, rfl⟩
    induction h with
    | outer hbody =>
      rw [tagsOf_eq]
      exact List.mem_flatMap_of_mem hbody (Tag.mem_withInner.2 (.inl rfl))
    | parameter hbody hp hq _ ih =>
      rw [tagsOf_eq]
      exact List.mem_flatMap_of_mem hbody (Tag.mem_withInner.2 (.inr (.inl ⟨_, hp, _, hq, ih⟩)))
    | fallback hbody ht _ ih =>
      rw [tagsOf_eq]
      exact List.mem_flatMap_of_mem hbody (Tag.mem_withInner.2 (.inr (.inr ⟨_, ht, ih⟩)))

section
variable {argument body : Text} (hbody : body ∈ tagBodies (substituteArrows argument))
include hbody

/-- A parameter is searched as it stands in the argument, for no arrow is left in it. -/
theorem substituteArrows_parameter {raw q : Text} (hraw : raw ∈ (rawParts 0 0 body).1)
    (hq : (TagPart.ofRaw raw).parameter = some q) : substituteArrows q = q :=
  substituteArrows_of_infix <| (TagPart.infix_of_parameter hq).trans <|
    (infix_of_mem_rawParts hraw).trans ((regions_tagBodies _).infix_of_mem body hbody)

/-- So is a fallback. -/
theorem substituteArrows_fallback {t : Text} (ht : (rawParts 0 0 body).2 = some t) :
    substituteArrows t = t :=
  substituteArrows_of_infix
    ((infix_of_fallback ht).trans ((regions_tagBodies _).infix_of_mem body hbody))

end

/-! ## No more tags than marks -/

/-- The tags of a text are counted by its outermost tags. -/
theorem length_tagsOf (argument : Text) :
    (tagsOf argument).length =
      ((tagBodies (substituteArrows argument)).map fun body =>
        (Tag.ofBody body).withInner.length).sum := by
  rw [tagsOf_eq, List.length_flatMap]

/-- The tags of a tag are counted by its parts and its fallback. -/
theorem length_withInner (body : Text) :
    (Tag.ofBody body).withInner.length =
      1 + (((rawParts 0 0 body).1.map fun raw => (TagPart.ofRaw raw).innerTags.length).sum +
        (rawParts 0 0 body).2.elim 0 fun t => (tagsOf t).length) := by
  have hfallback : ((Tag.ofBody body).fallback.elim [] tagsOf).length =
      (rawParts 0 0 body).2.elim 0 fun t => (tagsOf t).length := by
    show ((rawParts 0 0 body).2.elim [] tagsOf).length = _
    cases (rawParts 0 0 body).2 <;> rfl
  rw [Tag.withInner, List.length_cons, List.length_append, hfallback, List.length_flatMap,
    Nat.add_comm]
  show 1 + ((((rawParts 0 0 body).1.map TagPart.ofRaw).map fun p => p.innerTags.length).sum + _) =
    _
  rw [List.map_map]
  rfl

section
variable {c : Char} (hc : c = '<' ∨ c = '>')
include hc

/-- A part has at most as many tags as marks, if its parameter does. -/
theorem length_innerTags_le {raw : Text}
    (h : ∀ q, (TagPart.ofRaw raw).parameter = some q → (tagsOf q).length ≤ q.count c) :
    (TagPart.ofRaw raw).innerTags.length ≤ raw.count c := by
  rw [TagPart.count_ofRaw hc, TagPart.innerTags]
  cases hq : (TagPart.ofRaw raw).parameter with
  | none => exact Nat.zero_le _
  | some q => exact Nat.le_add_left_of_le (h q hq)

/-- A tag has at most one more tag than marks in its body, if its parts and its fallback have at
most as many. -/
theorem length_withInner_le {body : Text}
    (hparts : ∀ raw ∈ (rawParts 0 0 body).1, (TagPart.ofRaw raw).innerTags.length ≤ raw.count c)
    (hfallback : ∀ t, (rawParts 0 0 body).2 = some t → (tagsOf t).length ≤ t.count c) :
    (Tag.ofBody body).withInner.length ≤ 1 + body.count c := by
  have helim : ((rawParts 0 0 body).2.elim 0 fun t => (tagsOf t).length) ≤
      (rawParts 0 0 body).2.elim 0 (List.count c) := by
    cases ht : (rawParts 0 0 body).2 with
    | none => exact Nat.zero_le _
    | some t => exact hfallback t ht
  rw [length_withInner, (cut_rawParts body 0 0).count_eq hc]
  exact Nat.add_le_add_left (Nat.add_le_add (List.sum_le_sum hparts) helim) 1

/-- The tags of an argument are at most as many as its marks of either sort. -/
theorem length_tagsOf_le (argument : Text) :
    (tagsOf argument).length ≤ (substituteArrows argument).count c := by
  induction argument using walk.induct with
  | case1 argument ihparameter ihfallback =>
    rw [length_tagsOf]
    refine Nat.le_trans (List.sum_le_sum fun body hbody => ?_)
      ((regions_tagBodies _).sum_count_le hc)
    refine length_withInner_le hc
      (fun raw hraw => length_innerTags_le hc fun q hq => ?_) fun t ht => ?_
    · have hle := ihparameter body hbody _ (List.mem_map_of_mem hraw) q hq
      rwa [substituteArrows_parameter hbody hraw hq] at hle
    · have hle := ihfallback body hbody t ht
      rwa [substituteArrows_fallback hbody ht] at hle

end

/-! ## As many tags as marks -/

/-- Sums of smaller and larger terms are equal exactly if the terms are. -/
theorem sum_map_eq_iff {α : Type} {f g : α → Nat} {l : List α} (h : ∀ x ∈ l, f x ≤ g x) :
    (l.map f).sum = (l.map g).sum ↔ ∀ x ∈ l, f x = g x := by
  induction l with
  | nil => simp
  | cons a l ih =>
    obtain ⟨ha, hl⟩ := List.forall_mem_cons.1 h
    have hsum := List.sum_le_sum hl
    rw [List.forall_mem_cons, ← ih hl, List.map_cons, List.map_cons, List.sum_cons, List.sum_cons]
    omega

/-- In the parts of a body, the marks of tags are in the parameters only. -/
def MarksInParameters (body : Text) : Prop :=
  ∀ raw ∈ (rawParts 0 0 body).1, '<' ∉ TagPart.outside raw ∧ '>' ∉ TagPart.outside raw

/-- No mark of the argument is in a place that is not searched. -/
def Searched (argument : Text) : Prop := ∀ body, Found argument body → MarksInParameters body

/-- All of a text is searched if no mark in a tag is outside of its parameters, and all of what the
tags hold is searched. -/
theorem searched_iff {argument : Text} : Searched argument ↔
    ∀ body ∈ tagBodies (substituteArrows argument),
      (∀ raw ∈ (rawParts 0 0 body).1, ('<' ∉ TagPart.outside raw ∧ '>' ∉ TagPart.outside raw) ∧
        ∀ q, (TagPart.ofRaw raw).parameter = some q → Searched q) ∧
      ∀ t, (rawParts 0 0 body).2 = some t → Searched t := by
  constructor
  · intro h body hbody
    refine ⟨fun raw hraw => ⟨h body (.outer hbody) raw hraw, fun q hq inner hinner => ?_⟩, ?_⟩
    · exact h inner (.parameter hbody (List.mem_map_of_mem hraw) hq hinner)
    · exact fun t ht inner hinner => h inner (.fallback hbody ht hinner)
  · intro h body hbody
    cases hbody with
    | outer hbody => exact fun raw hraw => ((h body hbody).1 raw hraw).1
    | parameter houter hp hq hinner =>
      obtain ⟨raw, hraw, rfl⟩ := List.mem_map.1 hp
      exact ((h _ houter).1 raw hraw).2 _ hq body hinner
    | fallback houter ht hinner => exact (h _ houter).2 _ ht body hinner

/-- The tags of a part with balanced marks are as many as its marks exactly if these are all in its
parameter, and the parameter has as many. -/
theorem length_innerTags_eq_iff {raw : Text} (hraw : closes 0 raw = true)
    (harrows : ∀ q, (TagPart.ofRaw raw).parameter = some q → substituteArrows q = q)
    (ih : ∀ q, (TagPart.ofRaw raw).parameter = some q → closes 0 (substituteArrows q) = true →
      ((tagsOf q).length = (substituteArrows q).count '<' ↔ Searched q)) :
    (TagPart.ofRaw raw).innerTags.length = raw.count '<' ↔
      ('<' ∉ TagPart.outside raw ∧ '>' ∉ TagPart.outside raw) ∧
        ∀ q, (TagPart.ofRaw raw).parameter = some q → Searched q := by
  have heven : raw.count '<' = raw.count '>' := by simpa using (closes_iff.1 hraw).2
  rw [TagPart.count_ofRaw (.inl rfl), TagPart.count_ofRaw (.inr rfl)] at heven
  rw [TagPart.count_ofRaw (.inl rfl), ← List.count_eq_zero, ← List.count_eq_zero,
    TagPart.innerTags]
  cases hq : (TagPart.ofRaw raw).parameter with
  | none =>
    simp only [hq, Option.elim_none] at heven ⊢
    simp
    omega
  | some q =>
    simp only [hq, Option.elim_some, Option.some.injEq, forall_eq'] at heven ⊢
    have hopens := length_tagsOf_le (.inl rfl) q
    have hcloses := length_tagsOf_le (.inr rfl) q
    have hiff := ih q hq
    rw [harrows q hq] at hopens hcloses hiff
    have hclosed : (TagPart.outside raw).count '<' = 0 → (TagPart.outside raw).count '>' = 0 →
        closes 0 q = true :=
      fun ho hc =>
        TagPart.closes_parameter hraw hq (List.count_eq_zero.1 ho) (List.count_eq_zero.1 hc)
    constructor
    · intro hlength
      -- The tags are at most as many as the closing marks, too, so none of these is outside
      -- either.
      have ho : (TagPart.outside raw).count '<' = 0 := by omega
      have hc : (TagPart.outside raw).count '>' = 0 := by omega
      exact ⟨⟨ho, hc⟩, (hiff (hclosed ho hc)).1 (by omega)⟩
    · rintro ⟨⟨ho, hc⟩, hsearched⟩
      rw [(hiff (hclosed ho hc)).2 hsearched, ho, Nat.zero_add]

/-- A tag has one more tag than marks in its body exactly if its parts and its fallback have as
many. -/
theorem length_withInner_eq_iff {body : Text}
    (hparts : ∀ raw ∈ (rawParts 0 0 body).1, (TagPart.ofRaw raw).innerTags.length ≤ raw.count '<')
    (hfallback : ∀ t, (rawParts 0 0 body).2 = some t → (tagsOf t).length ≤ t.count '<') :
    (Tag.ofBody body).withInner.length = 1 + body.count '<' ↔
      (∀ raw ∈ (rawParts 0 0 body).1, (TagPart.ofRaw raw).innerTags.length = raw.count '<') ∧
        ∀ t, (rawParts 0 0 body).2 = some t → (tagsOf t).length = t.count '<' := by
  rw [length_withInner, (cut_rawParts body 0 0).count_eq (.inl rfl), ← sum_map_eq_iff hparts]
  have hsum := List.sum_le_sum hparts
  cases ht : (rawParts 0 0 body).2 with
  | none => simp
  | some t =>
    have hle := hfallback t ht
    simp only [Option.elim_some, Option.some.injEq, forall_eq']
    omega

/-- If the marks of an argument are balanced, its tags are as many as its opening marks exactly if
no mark is in a place that is not searched. -/
theorem length_tagsOf_eq_iff (argument : Text) (h : closes 0 (substituteArrows argument) = true) :
    (tagsOf argument).length = (substituteArrows argument).count '<' ↔ Searched argument := by
  induction argument using walk.induct with
  | case1 argument ihparameter ihfallback =>
    have hregions := regions_tagBodies (substituteArrows argument)
    have hparameter : ∀ body ∈ tagBodies (substituteArrows argument),
        ∀ raw ∈ (rawParts 0 0 body).1,
          (TagPart.ofRaw raw).innerTags.length ≤ raw.count '<' := by
      intro body hbody raw hraw
      refine length_innerTags_le (.inl rfl) fun q hq => ?_
      have hle := length_tagsOf_le (.inl rfl) q
      rwa [substituteArrows_parameter hbody hraw hq] at hle
    have hfallback : ∀ body ∈ tagBodies (substituteArrows argument), ∀ t,
        (rawParts 0 0 body).2 = some t → (tagsOf t).length ≤ t.count '<' := by
      intro body hbody t ht
      have hle := length_tagsOf_le (.inl rfl) t
      rwa [substituteArrows_fallback hbody ht] at hle
    have hbodies : ∀ body ∈ tagBodies (substituteArrows argument),
        (Tag.ofBody body).withInner.length ≤ 1 + body.count '<' := fun body hbody =>
      length_withInner_le (.inl rfl) (hparameter body hbody) (hfallback body hbody)
    rw [length_tagsOf, ← hregions.sum_count_eq h (.inl rfl), sum_map_eq_iff hbodies, searched_iff]
    refine forall₂_congr fun body hbody => ?_
    have hclosed := hregions.closes_of_mem body hbody
    rw [length_withInner_eq_iff (hparameter body hbody) (hfallback body hbody)]
    refine and_congr (forall₂_congr fun raw hraw => ?_) (forall₂_congr fun t ht => ?_)
    · exact length_innerTags_eq_iff (closes_of_mem_rawParts hclosed hraw)
        (fun q hq => substituteArrows_parameter hbody hraw hq)
        (ihparameter body hbody _ (List.mem_map_of_mem hraw))
    · have hiff := ihfallback body hbody t ht
      rw [substituteArrows_fallback hbody ht] at hiff
      exact hiff (closes_of_fallback hclosed ht)

/-- The tags of an argument are those that the search comes to, and they are at most as many as its
opening marks. If the marks of the argument are balanced, no tag is missed exactly if the names of
parts and what comes after parameters are free of marks. -/
theorem tagsOf_nested (argument : Text) :
    (∀ tag, tag ∈ tagsOf argument ↔ ∃ body, Found argument body ∧ tag = Tag.ofBody body) ∧
      (tagsOf argument).length ≤ (substituteArrows argument).count '<' ∧
      (MarksBalanced (substituteArrows argument) →
        ((tagsOf argument).length = (substituteArrows argument).count '<' ↔
          ∀ body, Found argument body → MarksInParameters body)) :=
  ⟨fun _ => mem_tagsOf, length_tagsOf_le (.inl rfl) argument,
    fun h => length_tagsOf_eq_iff argument (marksBalanced_iff.1 h)⟩

/-- An argument with a tag in a parameter and one in a fallback. -/
def tagsInside : Text := "<a.b[-> <c>]||<d>>".toList

/-- Two tags in the parameters of a third one. -/
theorem tagsOf_nested_inside :
    MarksBalanced (substituteArrows tagsInside) ∧ (tagsOf tagsInside).length = 3 ∧
      ∀ body, Found tagsInside body → MarksInParameters body := by
  have hparameter : tagsOf "\x01 <c>".toList = [Tag.ofBody "c".toList] := by
    rw [tagsOf_eq]
    rfl
  have hfallback : tagsOf "<d>".toList = [Tag.ofBody "d".toList] := by
    rw [tagsOf_eq]
    rfl
  have hbalanced : MarksBalanced (substituteArrows tagsInside) := by decide
  have hbodies : tagBodies (substituteArrows tagsInside) =
      ["a.b[\x01 <c>]||<d>".toList] := by decide
  have htag : Tag.ofBody "a.b[\x01 <c>]||<d>".toList =
      ⟨[⟨"a".toList, none⟩, ⟨"b".toList, some "\x01 <c>".toList⟩], some "<d>".toList⟩ := by decide
  have hlength : (tagsOf tagsInside).length = 3 := by
    rw [tagsOf_eq, hbodies, List.flatMap_singleton, htag]
    simp only [Tag.withInner, TagPart.innerTags, List.flatMap_cons, List.flatMap_nil,
      Option.elim_none, Option.elim_some, hparameter, hfallback]
    rfl
  exact ⟨hbalanced, hlength, ((tagsOf_nested tagsInside).2.2 hbalanced).1 hlength⟩

/-- A tag in the name of a part is missed. -/
theorem not_every_tag_found : ¬ ∀ argument : Text, MarksBalanced (substituteArrows argument) →
    (tagsOf argument).length = (substituteArrows argument).count '<' := by
  intro h
  have hlength : (tagsOf "<a<player>>".toList).length = 1 := by
    rw [tagsOf_eq]
    rfl
  have hcount := h "<a<player>>".toList (by decide)
  rw [hlength] at hcount
  exact absurd hcount (by decide)

end ScriptLint
