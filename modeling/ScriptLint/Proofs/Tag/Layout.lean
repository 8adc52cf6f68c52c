import Mathlib.Logic.ExistsUnique
import ScriptLint.Proofs.Tag.Cut

/-!
# How a text with tags is written

A text is written as closed tags, each with some text before it, and a rest in which no tag is
closed (`TagLayout`). In front of a tag there is no opening mark, and the marks in its body are
balanced. The rest has no opening mark either, or its first one is never closed: from there on,
each beginning has more opening than closing marks (`ClosesNone`). Every text is written in exactly
one way, and the bodies of its tags are those which are found (`tagBodies_layout`).

That a tag is never closed is said by counting here and by the lack of a closing mark in `Regions`;
the two are the same (`forall_prefix_count_iff`). So there is a layout for the regions of a text.
There is no other one because a body ends at the first closing mark that is not needed inside of it
(`closes_append_inj`).
-/

namespace ScriptLint

/-- No tag is closed in the text: it has no opening mark, or from the first one on there are more
opening than closing marks wherever the text is broken off. -/
def ClosesNone (t : Text) : Prop :=
  '<' ∉ t ∨ ∃ before inside, t = before ++ '<' :: inside ∧ '<' ∉ before ∧
    ∀ u, u ≠ [] → u <+: '<' :: inside → u.count '>' < u.count '<'

/-- A closed tag with the text before it. -/
@[ext] structure TagRegion where
  before : Text
  body : Text
  plain : '<' ∉ before
  balanced : MarksBalanced body

/-- A text as it is written: its closed tags, and what comes after the last of them. -/
@[ext] structure TagLayout where
  regions : List TagRegion
  rest : Text
  unclosed : ClosesNone rest

/-- Closed tags with the texts before them, and then the rest. -/
def regionsText (rest : Text) : List TagRegion → Text
  | [] => rest
  | region :: regions => region.before ++ '<' :: (region.body ++ '>' :: regionsText rest regions)

/-- The text that is written. -/
def TagLayout.text (l : TagLayout) : Text := regionsText l.rest l.regions

/-- The bodies of the closed tags. -/
def TagLayout.bodies (l : TagLayout) : List Text := l.regions.map (·.body)

/-- The body of a region closes what it opens. -/
theorem TagRegion.closes_body (region : TagRegion) : closes 0 region.body = true :=
  marksBalanced_iff.1 region.balanced

/-! ## Tags that are never closed -/

/-- Either no beginning of a text closes more tags than are open, or the text closes all of them
and then one more. -/
theorem forall_prefix_count_or_split (t : Text) : ∀ n : Nat,
    (∀ u, u <+: t → u.count '>' ≤ n + u.count '<') ∨
      ∃ body rest, t = body ++ '>' :: rest ∧ closes n body = true := by
  induction t with
  | nil =>
    refine fun n => .inl fun u hu => ?_
    rw [List.prefix_nil.1 hu]
    exact Nat.zero_le _
  | cons c r ih =>
    intro n
    by_cases hstop : c = '>' ∧ n = 0
    · obtain ⟨rfl, rfl⟩ := hstop
      exact .inr ⟨[], r, rfl, rfl⟩
    have hpos : c = '>' → 0 < n := fun hc => Nat.pos_of_ne_zero fun hn => hstop ⟨hc, hn⟩
    rcases ih (anglesAfter c n) with hcount | ⟨body, rest, rfl, hbody⟩
    · refine .inl (forall_prefix_cons.2 ⟨Nat.zero_le _, fun u hu => ?_⟩)
      have hu' := hcount u hu
      rcases mark_cases c with rfl | rfl | ⟨hopen, hclose⟩
      · simp only [anglesAfter, if_true] at hu'
        rw [List.count_cons_self, List.count_cons_of_ne (by decide)]
        omega
      · have hn := hpos rfl
        simp only [anglesAfter, Char.reduceEq, if_false, if_true] at hu'
        rw [List.count_cons_self, List.count_cons_of_ne (by decide)]
        omega
      · rw [anglesAfter, if_neg hopen, if_neg hclose] at hu'
        rwa [List.count_cons_of_ne hopen, List.count_cons_of_ne hclose]
    · exact .inr ⟨c :: body, rest, rfl, closes_cons.2 ⟨hpos, hbody⟩⟩

/-- Counting marks says the same as looking for the closing mark. -/
theorem forall_prefix_count_iff {inside : Text} :
    (∀ u, u ≠ [] → u <+: '<' :: inside → u.count '>' < u.count '<') ↔
      ∀ body rest, closes 0 body = true → inside ≠ body ++ '>' :: rest := by
  constructor
  · rintro hcount body rest hbody rfl
    have hinitial : '<' :: (body ++ ['>']) <+: '<' :: (body ++ '>' :: rest) := ⟨rest, by simp⟩
    have hlt := hcount _ (List.cons_ne_nil _ _) hinitial
    have heven := (closes_iff.1 hbody).2
    rw [List.count_cons_of_ne (by decide), List.count_cons_self, List.count_append,
      List.count_append] at hlt
    have hclose : ['>'].count '>' = 1 := rfl
    have hopen : ['>'].count '<' = 0 := rfl
    omega
  · intro hopen u hne hu
    obtain ⟨v, rfl, hv⟩ := (List.prefix_cons_iff.1 hu).resolve_left hne
    rcases forall_prefix_count_or_split inside 0 with hcount | ⟨body, rest, hsplit, hbody⟩
    · have hv' := hcount v hv
      rw [List.count_cons_of_ne (by decide), List.count_cons_self]
      omega
    · exact absurd hsplit (hopen body rest hbody)

/-- A text in which no tag is closed is not one with a closed tag. -/
theorem ClosesNone.ne_region {t : Text} (h : ClosesNone t) (region : TagRegion) (more : Text) :
    t ≠ region.before ++ '<' :: (region.body ++ '>' :: more) := by
  rintro rfl
  rcases h with hnone | ⟨before, inside, heq, hbefore, hcount⟩
  · simp at hnone
  · obtain ⟨-, rfl⟩ := Text.append_inj_of_not_mem region.plain hbefore heq
    exact forall_prefix_count_iff.1 hcount region.body more region.closes_body rfl

/-! ## One layout for each text -/

/-- The regions of a text are those of a layout. -/
theorem Regions.exists_layout {t : Text} {bodies : List Text} (h : Regions t bodies) :
    ∃ l : TagLayout, l.text = t ∧ l.bodies = bodies := by
  induction h with
  | @plain u hu => exact ⟨⟨[], u, .inl hu⟩, rfl, rfl⟩
  | @unclosed u inside hu hinside =>
    exact ⟨⟨[], _, .inr ⟨u, inside, rfl, hu, forall_prefix_count_iff.2 hinside⟩⟩, rfl, rfl⟩
  | @tag u body rest bodies hu hbody _ ih =>
    obtain ⟨⟨regions, rest, hrest⟩, rfl, rfl⟩ := ih
    exact ⟨⟨⟨u, body, hu, marksBalanced_iff.2 hbody⟩ :: regions, rest, hrest⟩, rfl, rfl⟩

/-- A body ends where the tag around it is closed. -/
theorem closes_append_inj {n : Nat} {body body' rest rest' : Text} (h : closes n body = true)
    (h' : closes n body' = true) (heq : body ++ '>' :: rest = body' ++ '>' :: rest') :
    body = body' ∧ rest = rest' := by
  -- If one body were longer, it would go on with the mark that closes the other one.
  rcases List.append_eq_append_iff.1 heq with ⟨more, rfl, hmore⟩ | ⟨more, rfl, hmore⟩
  · cases more with
    | nil => exact ⟨(List.append_nil body).symm, (List.cons.inj hmore).2⟩
    | cons c more =>
      obtain ⟨rfl, -⟩ := List.cons.inj hmore
      rw [closes_append_close h] at h'
      cases h'
  · cases more with
    | nil => exact ⟨List.append_nil body', (List.cons.inj hmore).2.symm⟩
    | cons c more =>
      obtain ⟨rfl, -⟩ := List.cons.inj hmore
      rw [closes_append_close h'] at h
      cases h

/-- A closed tag is read off the front of a text in one way only. -/
theorem TagRegion.append_inj {region region' : TagRegion} {more more' : Text}
    (heq : region.before ++ '<' :: (region.body ++ '>' :: more) =
      region'.before ++ '<' :: (region'.body ++ '>' :: more')) :
    region = region' ∧ more = more' := by
  obtain ⟨hbefore, hinside⟩ := Text.append_inj_of_not_mem region.plain region'.plain heq
  obtain ⟨hbody, hmore⟩ := closes_append_inj region.closes_body region'.closes_body hinside
  exact ⟨TagRegion.ext hbefore hbody, hmore⟩

/-- Regions that print alike before rests that close nothing are the same. -/
theorem regionsText_inj {rest rest' : Text} (hrest : ClosesNone rest) (hrest' : ClosesNone rest')
    {regions regions' : List TagRegion}
    (heq : regionsText rest regions = regionsText rest' regions') :
    regions = regions' ∧ rest = rest' := by
  induction regions generalizing regions' with
  | nil =>
    cases regions' with
    | nil => exact ⟨rfl, heq⟩
    | cons region' regions' => exact absurd heq (hrest.ne_region region' _)
  | cons region regions ih =>
    cases regions' with
    | nil => exact absurd heq.symm (hrest'.ne_region region _)
    | cons region' regions' =>
      obtain ⟨rfl, hmore⟩ := TagRegion.append_inj heq
      obtain ⟨rfl, hend⟩ := ih hmore
      exact ⟨rfl, hend⟩

/-- A text is written in one way only. -/
theorem TagLayout.text_inj {l l' : TagLayout} (heq : l.text = l'.text) : l = l' := by
  obtain ⟨hregions, hrest⟩ := regionsText_inj l.unclosed l'.unclosed heq
  exact TagLayout.ext hregions hrest

/-- Every text is written in exactly one way, and the bodies of its closed tags are those which are
found, in order. -/
theorem tagBodies_layout (t : Text) :
    (∃! l : TagLayout, l.text = t) ∧ ∀ l : TagLayout, l.text = t → tagBodies t = l.bodies := by
  obtain ⟨l, htext, hbodies⟩ := (regions_tagBodies t).exists_layout
  have hunique : ∀ l' : TagLayout, l'.text = t → l' = l := fun l' htext' =>
    TagLayout.text_inj (htext'.trans htext.symm)
  refine ⟨⟨l, htext, hunique⟩, fun l' htext' => ?_⟩
  rw [hunique l' htext', hbodies]

/-- A closing mark before the first tag, a tag in a tag, and a tag that is not closed, though one
inside of it is. -/
example : tagBodies "a>b<c<d>>>e<f<g>h".toList = ["c<d>".toList] := by decide

end ScriptLint
