import ScriptLint.KeyPattern
import ScriptLint.Proofs.Text
import ScriptLint.Proofs.Text.Case

/-!
# Key patterns and the components of paths

A path is compared with a pattern as a text, by its beginning and with a dot put at the end. What
is meant are the components of the path, the texts between its dots (`components`). The two agree
because a text begins with a path and a dot after it exactly if the components of the path are the
first ones of the text, and there are more of them (`beginsWith_dot_iff`). So a pattern for all
that is below a stem covers the paths that have more components after those of the stem
(`covers_below_iff`), and the paths that it crosses are those on the way to the stem, the stem
itself and all that is below it (`crosses_below_iff`).

A text is read as a pattern if a star is at the end of it only, after a dot or alone
(`parse_eq_ok_iff`). It is read in lower case, which leaves the end as it is.
-/

namespace ScriptLint

/-- The components of a dotted path. -/
def components (path : Text) : List Text := Text.fields '.' path

/-- A path has at least one component. -/
theorem components_ne_nil (path : Text) : components path ≠ [] := List.splitOn_ne_nil '.' path

/-- Paths that are joined by a dot join their components. -/
theorem components_append (a b : Text) :
    components (a ++ '.' :: b) = components a ++ components b :=
  List.splitOn_append_cons_self a b

/-- One of the paths leads to the other: its components are the first ones of the other. -/
def OnOneBranch (a b : Text) : Prop :=
  components a <+: components b ∨ components b <+: components a

/-- A text begins with a path and a dot if it has more components after those of the path. -/
theorem beginsWith_dot_iff {path t : Text} :
    Text.beginsWith (path ++ ['.']) t = true ↔
      components path <+: components t ∧ components path ≠ components t := by
  rw [Text.beginsWith, List.isPrefixOf_iff_prefix]
  constructor
  · rintro ⟨rest, rfl⟩
    rw [List.append_assoc, List.singleton_append, components_append]
    refine ⟨List.prefix_append _ _, fun heq => components_ne_nil rest ?_⟩
    exact List.self_eq_append_right.1 heq
  · rintro ⟨⟨rest, heq⟩, hne⟩
    have hrest : rest ≠ [] := by
      rintro rfl
      rw [List.append_nil] at heq
      exact hne heq
    have ht : t = path ++ '.' :: Text.joined ['.'] rest := by
      have hjoined : ∀ t : Text, Text.joined ['.'] (components t) = t := fun _ =>
        List.intercalate_splitOn '.'
      rw [← hjoined t, ← heq, Text.joined_append (components_ne_nil path) hrest, hjoined]
    exact ⟨Text.joined ['.'] rest, by rw [ht, List.append_assoc, List.singleton_append]⟩

/-- With one more component at the end of the other path, the two may also be the same. -/
theorem beginsWith_dot_append_iff {path other last : Text} (hlast : '.' ∉ last) :
    Text.beginsWith (path ++ ['.']) (other ++ '.' :: last) = true ↔
      components path <+: components other := by
  have hone : components last = [last] := List.splitOn_eq_singleton hlast
  rw [beginsWith_dot_iff, components_append, hone, List.prefix_concat_iff]
  constructor
  · rintro ⟨hinitial, hne⟩
    exact hinitial.resolve_left hne
  · intro hinitial
    refine ⟨.inr hinitial, fun heq => ?_⟩
    have hle := hinitial.length_le
    rw [heq, List.length_append, List.length_singleton] at hle
    omega

namespace KeyPattern

/-- A pattern covers the paths that have more components after those of the stem. -/
theorem covers_below_iff {stem path : Text} :
    (below stem).covers path = true ↔ components stem <+: components path ∧
      components stem ≠ components path :=
  beginsWith_dot_iff

/-- A pattern crosses the paths above the stem, the stem, and the paths below it. -/
theorem crosses_below_iff {stem path : Text} :
    (below stem).crosses path = true ↔ OnOneBranch path stem := by
  rw [crosses, Bool.or_eq_true]
  exact or_congr (beginsWith_dot_append_iff (by decide))
    (beginsWith_dot_append_iff List.not_mem_nil)

/-- What is above or below a path that is covered is above or below the stem, or it is the stem. -/
theorem onOneBranch_of_covers {stem path other : Text} (h : (below stem).covers path = true)
    (hother : OnOneBranch other path) : OnOneBranch other stem := by
  obtain ⟨hstem, -⟩ := covers_below_iff.1 h
  rcases hother with habove | hbelow
  · exact List.prefix_or_prefix_of_prefix habove hstem
  · exact .inr (hstem.trans hbelow)

/-! ## Texts of patterns -/

/-- The text may be read as a pattern. -/
def IsPattern (t : Text) : Prop :=
  t ≠ [] ∧ Text.trim t = t ∧ (t = ['*'] ∨ '*' ∉ t ∨ ∃ stem, t = stem ++ ['.', '*'] ∧ '*' ∉ stem)

/-- A stem with `.*` after it is recognized as such. -/
theorem endsWith_below (stem : Text) : Text.endsWith ['.', '*'] (stem ++ ['.', '*']) = true :=
  List.isSuffixOf_iff_suffix.2 (List.suffix_append _ _)

/-- Without its last two characters, a stem with `.*` after it is the stem. -/
theorem take_below (stem : Text) :
    (stem ++ ['.', '*']).take ((stem ++ ['.', '*']).length - 2) = stem := by
  rw [List.length_append]
  exact List.take_left

@[simp] theorem ofText_below (stem : Text) : ofText (stem ++ ['.', '*']) = below stem := by
  have hlong : stem ++ ['.', '*'] ≠ ['*'] := by
    intro h
    have hlength := congrArg List.length h
    simp at hlength
  rw [ofText, if_neg hlong, if_pos (endsWith_below stem), take_below]

/-- Lowercasing leaves the end of a pattern as it is. -/
theorem lower_below (stem : Text) :
    Text.lower (stem ++ ['.', '*']) = Text.lower stem ++ ['.', '*'] := by
  obtain ⟨inWord, h⟩ := Text.lowerFrom_append (t := ['.', '*']) (by decide) stem false
  rw [Text.lower, h]
  rfl

/-- A text is read as a pattern in lower case, and it is refused if it is none. -/
theorem parse_eq_ok_iff {t : Text} {p : KeyPattern} :
    parse t = .ok p ↔ IsPattern t ∧ p = ofText (Text.lower t) := by
  rw [parse, IsPattern]
  split
  · next hpadded =>
    refine iff_of_false nofun ?_
    rintro ⟨⟨hne, htrim, -⟩, -⟩
    rcases hpadded with hempty | hblank
    · exact hne (List.isEmpty_iff.1 hempty)
    · exact hblank htrim.symm
  next hplain =>
  have hne : t ≠ [] := fun h => hplain (.inl (List.isEmpty_iff.2 h))
  have htrim : Text.trim t = t := Decidable.byContradiction fun h => hplain (.inr (Ne.symm h))
  split
  · next hstar =>
    subst hstar
    have hany : ofText (Text.lower ['*']) = any := by decide
    rw [hany, Except.ok.injEq, eq_comm]
    exact (and_iff_right ⟨hne, htrim, .inl rfl⟩).symm
  next hstar =>
  split
  · next hmisplaced =>
    refine iff_of_false nofun ?_
    rintro ⟨⟨-, -, hany | hnone | ⟨stem, rfl, -⟩⟩, -⟩
    · exact hstar hany
    · exact hnone (List.contains_iff_mem.1 hmisplaced.1)
    · exact hmisplaced.2 (endsWith_below stem)
  next hplaced =>
  split
  · next hsecond =>
    have hmem := List.contains_iff_mem.1 hsecond.2
    refine iff_of_false nofun ?_
    rintro ⟨⟨-, -, hany | hnone | ⟨stem, rfl, hstem⟩⟩, -⟩
    · exact hstar hany
    · exact hnone (List.mem_of_mem_take hmem)
    · rw [take_below] at hmem
      exact hstem hmem
  next hone =>
  -- What passes these tests has no star, or one as its last component.
  have hform : '*' ∉ t ∨ ∃ stem, t = stem ++ ['.', '*'] ∧ '*' ∉ stem := by
    by_cases hends : Text.endsWith ['.', '*'] t = true
    · obtain ⟨stem, rfl⟩ := List.isSuffixOf_iff_suffix.1 hends
      refine .inr ⟨stem, rfl, fun hmem => hone ⟨hends, List.contains_iff_mem.2 ?_⟩⟩
      rwa [take_below]
    · exact .inl fun hmem => hplaced ⟨List.contains_iff_mem.2 hmem, hends⟩
  rw [Except.ok.injEq, eq_comm]
  exact (and_iff_right ⟨hne, htrim, .inr hform⟩).symm

/-- A pattern for all that is below a stem stays one in lower case. -/
theorem parse_below {stem : Text} {p : KeyPattern} (h : parse (stem ++ ['.', '*']) = .ok p) :
    p = below (Text.lower stem) := by
  rw [(parse_eq_ok_iff.1 h).2, lower_below, ofText_below]

end KeyPattern

end ScriptLint
