import ScriptLint.Proofs.Tag.Nested

/-!
# How deep the walk over an argument goes

The walk over an argument descends to the parameters and to the fallbacks of its outermost tags
(`Descends`). Each of them is a piece of the text in which the tags were searched for, so it has no
arrows, and it is searched as it is. It is shorter by three characters at least: two marks are
around the tag, and a bracket is in front of a parameter, or two bars are in front of a fallback.

What holds of one level holds of all of them (`Reaches`): the texts that the walk comes to are
pieces of one text, that of the argument with its arrows replaced, and each level takes three
characters off (`Reaches.length_add_le`). Hence the walk needs no more levels than a third of the
length of the argument, and one for the argument itself. If it may go over so many levels, it comes
to its end (`walkWithin_eq_some_iff`).
-/

namespace ScriptLint

/-! ## One level -/

/-- The walk over an argument goes on in a text of one of its outermost tags: in a parameter that
is not empty, or in the fallback. -/
inductive Descends : Text → Text → Prop
  | parameter {argument body q : Text}
      {p : TagPart} : body ∈ tagBodies (substituteArrows argument) →
      p ∈ (Tag.ofBody body).parts → p.parameter = some q → q ≠ [] → Descends argument q
  | fallback {argument body t : Text} : body ∈ tagBodies (substituteArrows argument) →
      (Tag.ofBody body).fallback = some t → Descends argument t

/-- The name of a part stands in it. -/
theorem TagPart.infix_of_name (raw : Text) : (ofRaw raw).name <:+: raw := by
  unfold ofRaw
  split
  · exact List.infix_refl raw
  · next inner hinner =>
    exact ⟨[], '[' :: inner, by rw [List.nil_append, ← Text.eq_of_after? hinner]⟩

/-- The names, the parameters and the fallback of a tag are pieces of its body. -/
theorem Tag.infix_ofBody (body : Text) :
    (∀ p ∈ (ofBody body).parts, p.name <:+: body ∧ ∀ q, p.parameter = some q → q <:+: body) ∧
      ∀ t, (ofBody body).fallback = some t → t <:+: body := by
  refine ⟨fun p hp => ?_, fun t ht => infix_of_fallback ht⟩
  obtain ⟨raw, hraw, rfl⟩ := List.mem_map.1 hp
  have hpiece := infix_of_mem_rawParts hraw
  exact ⟨(TagPart.infix_of_name raw).trans hpiece, fun q hq =>
    (TagPart.infix_of_parameter hq).trans hpiece⟩

/-- The body of a tag stands in the text. -/
theorem infix_of_mem_tagBodies {body t : Text} (h : body ∈ tagBodies t) : body <:+: t :=
  (regions_tagBodies t).infix_of_mem body h

section
variable {argument body : Text} (hbody : body ∈ tagBodies (substituteArrows argument))
include hbody

/-- The parameter of a part of a tag stands in the text. -/
theorem parameter_infix_substituteArrows {p : TagPart} {q : Text}
    (hp : p ∈ (Tag.ofBody body).parts) (hq : p.parameter = some q) :
    q <:+: substituteArrows argument :=
  (((Tag.infix_ofBody body).1 p hp).2 q hq).trans (infix_of_mem_tagBodies hbody)

/-- The fallback of a tag stands in the text. -/
theorem fallback_infix_substituteArrows {t : Text} (ht : (Tag.ofBody body).fallback = some t) :
    t <:+: substituteArrows argument :=
  ((Tag.infix_ofBody body).2 t ht).trans (infix_of_mem_tagBodies hbody)

end

namespace Descends

variable {argument inner : Text}

/-- What is descended to stands in the text above. -/
theorem isInfix (h : Descends argument inner) : inner <:+: substituteArrows argument := by
  cases h with
  | parameter hbody hp hq _ => exact parameter_infix_substituteArrows hbody hp hq
  | fallback hbody ht => exact fallback_infix_substituteArrows hbody ht

/-- What is descended to has no arrows. -/
theorem arrowFree (h : Descends argument inner) : ArrowFree inner :=
  ArrowFree.of_infix (arrowFree_substituteArrows argument) h.isInfix

/-- What the walk goes on in is searched as it is. -/
theorem substituteArrows_eq (h : Descends argument inner) : substituteArrows inner = inner :=
  substituteArrows_of_infix h.isInfix

/-- What is descended to is three characters shorter, as a tag around it has two marks and its own
mark before it. -/
theorem length_add_three_le (h : Descends argument inner) :
    inner.length + 3 ≤ (substituteArrows argument).length := by
  cases h with
  | parameter hbody hp hq _ =>
    have hmarks := length_of_mem_tagBodies hbody
    have hbracket := Tag.length_of_parameter hp hq
    omega
  | fallback hbody ht =>
    have hmarks := length_of_mem_tagBodies hbody
    have hbars := Tag.length_of_fallback ht
    omega

end Descends

/-! ## All levels -/

/-- The walk over an argument comes to a text a number of levels below it. -/
inductive Reaches : Nat → Text → Text → Prop
  | start {argument : Text} : Reaches 0 argument argument
  | down {n : Nat} {argument inner t : Text} :
      Descends argument inner → Reaches n inner t → Reaches (n + 1) argument t

namespace Reaches

variable {n : Nat} {argument t : Text}

/-- The walk never leaves the text that it starts with. -/
theorem infix_of_descends (h : Reaches n argument t) {u : Text} (hu : Descends t u) :
    u <:+: substituteArrows argument := by
  induction h with
  | start => exact hu.isInfix
  | down hinner _ ih =>
    have hpiece := ih hu
    rw [hinner.substituteArrows_eq] at hpiece
    exact hpiece.trans hinner.isInfix

/-- Each level takes three characters off. -/
theorem length_add_le (h : Reaches n argument t) :
    (substituteArrows t).length + 3 * n ≤ (substituteArrows argument).length := by
  induction h with
  | start => exact Nat.le_refl _
  | down hinner _ ih =>
    have hlevel := hinner.length_add_three_le
    rw [hinner.substituteArrows_eq] at ih
    omega

/-- There are at most as many levels as a third of the characters. -/
theorem level_le (h : Reaches n argument t) : n ≤ argument.length / 3 := by
  have hlevels := h.length_add_le
  have harrows := length_substituteArrows_le argument
  omega

end Reaches

/-- The walk over an argument comes to the argument and to what the walks one level below come
to. -/
theorem argument_mem_walk {argument t : Text} :
    .argument t ∈ walk argument ↔ t = argument ∨
      ∃ inner, Descends argument inner ∧ .argument t ∈ walk inner := by
  have hparameter : ∀ p : TagPart, .argument t ∈ walkParameter p ↔
      ∃ q, p.parameter = some q ∧ q ≠ [] ∧ .argument t ∈ walk q := by
    rintro ⟨name, _ | q⟩
    · simp [walkParameter]
    · cases q <;> simp [walkParameter]
  have hfallback : ∀ o : Option Text, .argument t ∈ o.elim [] walk ↔
      ∃ u, o = some u ∧ .argument t ∈ walk u := by
    rintro (_ | u) <;> simp
  have htag : ∀ tag : Tag, .argument t ∈ walkTag tag ↔
      (∃ p ∈ tag.parts, ∃ q, p.parameter = some q ∧ q ≠ [] ∧ .argument t ∈ walk q) ∨
        ∃ u, tag.fallback = some u ∧ .argument t ∈ walk u := by
    intro tag
    simp [walkTag, hparameter, hfallback]
  rw [walk_eq, List.mem_cons, Visit.argument.injEq, List.mem_flatMap]
  simp only [htag]
  refine or_congr Iff.rfl ⟨?_, ?_⟩
  · rintro ⟨body, hbody, ⟨p, hp, q, hq, hne, ht⟩ | ⟨u, hu, ht⟩⟩
    · exact ⟨q, .parameter hbody hp hq hne, ht⟩
    · exact ⟨u, .fallback hbody hu, ht⟩
  · rintro ⟨inner, hinner, ht⟩
    cases hinner with
    | parameter hbody hp hq hne => exact ⟨_, hbody, .inl ⟨_, hp, _, hq, hne, ht⟩⟩
    | fallback hbody hu => exact ⟨_, hbody, .inr ⟨_, hu, ht⟩⟩

/-- The arguments that are visited are those which are reached on some level. -/
theorem argument_mem_walk_iff_reaches {argument t : Text} :
    .argument t ∈ walk argument ↔ ∃ n, Reaches n argument t := by
  constructor
  · induction hn : (substituteArrows argument).length using Nat.strongRecOn
      generalizing argument with
    | ind n ih =>
      intro h
      rcases argument_mem_walk.1 h with rfl | ⟨inner, hinner, ht⟩
      · exact ⟨0, .start⟩
      · have hlevel := hinner.length_add_three_le
        have harrows := hinner.substituteArrows_eq
        obtain ⟨m, hm⟩ := ih _ (by rw [harrows]; omega) rfl ht
        exact ⟨m + 1, .down hinner hm⟩
  · rintro ⟨n, h⟩
    induction h with
    | start => exact argument_mem_walk.2 (.inl rfl)
    | down hinner _ ih => exact argument_mem_walk.2 (.inr ⟨_, hinner, ih⟩)

/-! ## Enough levels -/

/-- The walk over a parameter, if there is one, by another walk, which may give up. -/
def walkParameterBy (inner : Text → Option (List Visit)) (p : TagPart) : Option (List Visit) :=
  p.parameter.elim (some []) fun q => if q.isEmpty then some [] else inner q

/-- The walk over a tag if another walk, which may give up, goes over its parameters and its
fallback. -/
def walkTagBy (inner : Text → Option (List Visit)) (tag : Tag) : Option (List Visit) := do
  let parameters ← tag.parts.mapM (walkParameterBy inner)
  let fallback ← tag.fallback.elim (some []) inner
  return .opens tag :: parameters.flatten ++ .closes tag :: fallback

/-- The walk over an argument if it may go over a number of levels only, the first of which is the
argument itself. It gives up where there are more. -/
def walkWithin : Nat → Text → Option (List Visit)
  | 0, _ => none
  | levels + 1, argument => do
    let tags ← (tagBodies (substituteArrows argument)).mapM fun body =>
      walkTagBy (walkWithin levels) (Tag.ofBody body)
    return .argument argument :: tags.flatten

/-- A traversal that succeeds on each element gives the list of the values. -/
theorem mapM_eq_some_map {α β : Type} {f : α → Option β} {g : α → β} {l : List α}
    (h : ∀ x ∈ l, f x = some (g x)) :
    l.mapM f = some (l.map g) := by
  induction l with
  | nil => rfl
  | cons x l ih =>
    obtain ⟨hx, hl⟩ := List.forall_mem_cons.1 h
    rw [List.mapM_cons, hx, ih hl]
    rfl

/-- A traversal that succeeds has succeeded on each element. -/
theorem exists_of_mapM_eq_some {α β : Type} {f : α → Option β} {l : List α} {ys : List β}
    (h : l.mapM f = some ys) :
    ∀ x ∈ l, ∃ y, f x = some y := by
  induction l generalizing ys with
  | nil => exact List.forall_mem_nil _
  | cons x l ih =>
    rw [List.mapM_cons] at h
    obtain ⟨y, hx, h⟩ := Option.bind_eq_some_iff.1 h
    obtain ⟨rest, hl, -⟩ := Option.bind_eq_some_iff.1 h
    exact List.forall_mem_cons.2 ⟨⟨y, hx⟩, ih hl⟩

section
variable {inner : Text → Option (List Visit)} {tag : Tag}

/-- If what a tag holds is walked to its end, so is the tag. -/
theorem walkTagBy_eq (hparts : ∀ p ∈ tag.parts, ∀ q, p.parameter = some q → q ≠ [] →
    inner q = some (walk q)) (hfallback : ∀ t, tag.fallback = some t → inner t = some (walk t)) :
    walkTagBy inner tag = some (walkTag tag) := by
  have hparameter : ∀ p ∈ tag.parts, walkParameterBy inner p = some (walkParameter p) := by
    rintro ⟨name, _ | q⟩ hp
    · rfl
    · cases q with
      | nil => rfl
      | cons c r => exact hparts _ hp (c :: r) rfl (List.cons_ne_nil c r)
  have hlast : tag.fallback.elim (some []) inner = some (tag.fallback.elim [] walk) := by
    cases ht : tag.fallback with
    | none => rfl
    | some t => exact hfallback t ht
  rw [walkTagBy, mapM_eq_some_map hparameter, hlast, walkTag, List.flatMap_def]
  rfl

/-- Nothing in a tag was given up if the walk over the tag was not. -/
theorem exists_of_walkTagBy_eq_some {visits : List Visit} (h : walkTagBy inner tag = some visits) :
    (∀ p ∈ tag.parts, ∀ q, p.parameter = some q → q ≠ [] → ∃ v, inner q = some v) ∧
      ∀ t, tag.fallback = some t → ∃ v, inner t = some v := by
  obtain ⟨parameters, hparameters, h⟩ := Option.bind_eq_some_iff.1 h
  obtain ⟨fallback, hfallback, -⟩ := Option.bind_eq_some_iff.1 h
  refine ⟨fun p hp q hq hne => ?_, fun t ht => ⟨fallback, by rwa [ht] at hfallback⟩⟩
  obtain ⟨v, hv⟩ := exists_of_mapM_eq_some hparameters p hp
  refine ⟨v, ?_⟩
  rwa [walkParameterBy, hq, Option.elim_some, if_neg (by simpa using hne)] at hv

end

/-- The walk comes to its end if it may go over all the levels that it reaches. -/
theorem walkWithin_eq {levels : Nat} :
    ∀ {argument : Text}, (∀ n t, Reaches n argument t → n < levels) →
    walkWithin levels argument = some (walk argument) := by
  induction levels with
  | zero => exact fun h => absurd (h 0 _ .start) (Nat.not_lt_zero 0)
  | succ levels ih =>
    intro argument h
    have hinner : ∀ inner, Descends argument inner → walkWithin levels inner = some (walk inner) :=
      fun inner hinner =>
      ih fun n t ht => Nat.lt_of_succ_lt_succ (h (n + 1) t (.down hinner ht))
    have htags : ∀ body ∈ tagBodies (substituteArrows argument),
        walkTagBy (walkWithin levels) (Tag.ofBody body) = some (walkTag (Tag.ofBody body)) :=
        fun body hbody =>
      walkTagBy_eq (fun p hp q hq hne => hinner q (.parameter hbody hp hq hne))
        fun t ht => hinner t (.fallback hbody ht)
    rw [walkWithin, mapM_eq_some_map htags, walk_eq, List.flatMap_def]
    rfl

/-- The walk gives up if a text is below the levels that it may go over. -/
theorem lt_of_walkWithin_eq_some {levels : Nat} : ∀ {argument : Text} {visits : List Visit},
    walkWithin levels argument = some visits →
    ∀ {n : Nat} {t : Text}, Reaches n argument t → n < levels := by
  induction levels with
  | zero => exact fun h => nomatch h
  | succ levels ih =>
    intro argument visits h n t ht
    cases ht with
    | start => exact Nat.succ_pos levels
    | down hinner ht =>
      obtain ⟨tags, htags, -⟩ := Option.bind_eq_some_iff.1 h
      have hbody : ∀ body ∈ tagBodies (substituteArrows argument),
          ∃ v, walkTagBy (walkWithin levels) (Tag.ofBody body) = some v :=
          exists_of_mapM_eq_some htags
      refine Nat.succ_lt_succ ?_
      cases hinner with
      | parameter hmem hp hq hne =>
        obtain ⟨v, hv⟩ := hbody _ hmem
        obtain ⟨w, hw⟩ := (exists_of_walkTagBy_eq_some hv).1 _ hp _ hq hne
        exact ih hw ht
      | fallback hmem hf =>
        obtain ⟨v, hv⟩ := hbody _ hmem
        obtain ⟨w, hw⟩ := (exists_of_walkTagBy_eq_some hv).2 _ hf
        exact ih hw ht

/-- The levels that the walk reaches are those that it needs. -/
theorem walkWithin_eq_some_iff {levels : Nat} {argument : Text} :
    walkWithin levels argument = some (walk argument) ↔ ∀ n t, Reaches n argument t → n < levels :=
  ⟨fun h _ _ ht => lt_of_walkWithin_eq_some h ht, walkWithin_eq⟩

/-! ## What the tags are made of -/

/-- The body of each tag that is found is a piece of the text that the search starts with. -/
theorem Found.isInfix {argument body : Text} (h : Found argument body) :
    body <:+: substituteArrows argument := by
  induction h with
  | outer hbody => exact infix_of_mem_tagBodies hbody
  | parameter hbody hp hq _ ih =>
    have hpiece := parameter_infix_substituteArrows hbody hp hq
    have harrows := substituteArrows_of_infix hpiece
    rw [harrows] at ih
    exact ih.trans hpiece
  | fallback hbody ht _ ih =>
    have hpiece := fallback_infix_substituteArrows hbody ht
    have harrows := substituteArrows_of_infix hpiece
    rw [harrows] at ih
    exact ih.trans hpiece

/-- What the walk over an argument descends to, on any level, is a piece of the argument with its
arrows replaced. It has no arrows itself, is searched as it is, and is shorter by three characters
than the text it was taken from. So the walk needs no more levels than a third of the length of the
argument, and one, and the tags are made of pieces of that one text. -/
theorem walk_shrinks (argument : Text) :
    (∀ t, .argument t ∈ walk argument ↔ ∃ n, Reaches n argument t) ∧
      (∀ n t u, Reaches n argument t → Descends t u →
        u <:+: substituteArrows argument ∧ ArrowFree u ∧
        substituteArrows u = u ∧ u.length + 3 ≤ (substituteArrows t).length) ∧
      (∀ n t, Reaches n argument t → n + 1 ≤ argument.length / 3 + 1) ∧
      walkWithin (argument.length / 3 + 1) argument = some (walk argument) ∧
      ∀ tag ∈ tagsOf argument,
        (∀ p ∈ tag.parts, p.name <:+: substituteArrows argument ∧
          ∀ q, p.parameter = some q → q <:+: substituteArrows argument) ∧
        ∀ t, tag.fallback = some t → t <:+: substituteArrows argument := by
  refine ⟨fun t => argument_mem_walk_iff_reaches, fun n t u ht hu => ?_,
    fun n t ht => Nat.succ_le_succ ht.level_le,
    walkWithin_eq_some_iff.2 fun n t ht => Nat.lt_succ_of_le ht.level_le, fun tag htag => ?_⟩
  · exact ⟨ht.infix_of_descends hu, hu.arrowFree, hu.substituteArrows_eq, hu.length_add_three_le⟩
  · obtain ⟨body, hbody, rfl⟩ := mem_tagsOf.1 htag
    obtain ⟨hparts, hfallback⟩ := Tag.infix_ofBody body
    refine ⟨fun p hp => ⟨(hparts p hp).1.trans hbody.isInfix, fun q hq => ?_⟩, fun t ht => ?_⟩
    · exact ((hparts p hp).2 q hq).trans hbody.isInfix
    · exact (hfallback t ht).trans hbody.isInfix

/-- Three tags, each in the parameter of the one around it, with an arrow in the innermost one. -/
def deepArgument : Text := "<[<[<[->>>>".toList

/-- Here all the levels are needed: the walk comes to a fourth text, and eleven characters allow
for four. -/
theorem walk_shrinks_deep :
    Reaches 2 deepArgument "<[\x01>".toList ∧ Descends "<[\x01>".toList ['\x01'] ∧
      Reaches 3 deepArgument ['\x01'] ∧ ['\x01'] <:+: substituteArrows deepArgument ∧
      walkWithin 4 deepArgument = some (walk deepArgument) := by
  have hfirst : Descends deepArgument "<[<[\x01>>".toList :=
    @Descends.parameter _ "[<[<[\x01>>".toList _ ⟨[],
      some "<[<[\x01>>".toList⟩ (by decide) (by decide) rfl (by decide)
  have hsecond : Descends "<[<[\x01>>".toList "<[\x01>".toList :=
    @Descends.parameter _ "[<[\x01>".toList _ ⟨[],
      some "<[\x01>".toList⟩ (by decide) (by decide) rfl (by decide)
  have hthird : Descends "<[\x01>".toList ['\x01'] :=
    @Descends.parameter _ "[\x01".toList _ ⟨[],
      some ['\x01']⟩ (by decide) (by decide) rfl (by decide)
  have hreaches : Reaches 2 deepArgument "<[\x01>".toList := .down hfirst (.down hsecond .start)
  obtain ⟨-, hbelow, -, hwithin, -⟩ := walk_shrinks deepArgument
  exact ⟨hreaches, hthird, .down hfirst (.down hsecond (.down hthird .start)),
    (hbelow _ _ _ hreaches hthird).1, hwithin⟩

end ScriptLint
