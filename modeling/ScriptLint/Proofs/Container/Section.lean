import ScriptLint.Proofs.Container.Outermost
import ScriptLint.Proofs.KeyPattern

/-!
# Sections of a schema

A pattern for all that is below a stem makes the stem a section. So are the paths on the way to it
and those below it, and no other paths are sections (`isSection_iff`). Hence a schema knows all
these paths, and a strict one reports no key on them as unknown, however the keys of a container
are nested (`sections_componentwise`).

A key is reported as unknown at a place where the schema does not know the path
(`unknown_of_mem_log`), for what else is reported there, or found in what the key holds, has other
keys.
-/

namespace ScriptLint

open Course

namespace Schema

variable {s : Schema}

/-- A pattern for values, lists or scripts stands for all that is below the stem. -/
def HasSection (s : Schema) (stem : Text) : Prop :=
  KeyPattern.below stem ∈ s.values ++ s.lists ++ s.scripts

instance (s : Schema) (stem : Text) : Decidable (s.HasSection stem) :=
  inferInstanceAs (Decidable (_ ∈ _))

/-- The sections are the stems, the paths on the way to them, and the paths below them. -/
theorem isSection_iff {path : Text} :
    s.isSection path = true ↔ ∃ stem, s.HasSection stem ∧ OnOneBranch path stem := by
  rw [isSection, List.any_eq_true]
  constructor
  · rintro ⟨pattern, hmem, hcrosses⟩
    cases pattern with
    | below stem => exact ⟨stem, hmem, KeyPattern.crosses_below_iff.1 hcrosses⟩
    | any => cases hcrosses
    | exact p => cases hcrosses
  · rintro ⟨stem, hmem, hbranch⟩
    exact ⟨.below stem, hmem, KeyPattern.crosses_below_iff.2 hbranch⟩

/-- A schema recognizes its sections. -/
theorem recognizes_of_isSection {path : Text} (h : s.isSection path = true) :
    s.recognizes path = true := by
  rw [recognizes, h, Bool.or_true]

end Schema

/-! ## Unknown keys -/

section

variable {v : Vocabulary} {type : ContainerType}

/-- The report on an unknown key has another key than those on other violations. -/
theorem Place.not_recognizes_of_key {p : Place}
    (h : (p.warning type).key = "unknown_key_" ++ type.name.string) :
    type.schema.recognizes p.path = false := by
  have hbad : "bad_key_" ++ type.name.string ≠ "unknown_key_" ++ type.name.string := by
    refine append_ne_of_not_isPrefixOf ?_ _
    rw [String.toList_append]
    rfl
  have hlist : "list_should_be_value" ≠ "unknown_key_" ++ type.name.string :=
    Ne.symm (append_ne_of_not_isPrefixOf (by decide) _)
  cases hknown : type.schema.recognizes p.path with
  | false => rfl
  | true =>
    exfalso
    rw [Place.warning, Place.issue, hknown] at h
    simp only [Bool.not_true, Bool.false_eq_true, if_false] at h
    split at h
    · split at h
      · exact hlist h
      · exact hbad h
    · split at h <;> exact hbad h
    · exact hbad h

/-- What is reported as unknown is a key that the schema does not know. -/
theorem unknown_of_mem_log {entries : Entries} {d : Diagnostic}
    (hd : d ∈ (checkKeys v type entries).log) (hcategory : d.category = .warning)
    (hkey : d.key = "unknown_key_" ++ type.name.string) :
    ∃ p ∈ places type entries, d = (Issue.unknownKey type.name p.key.text).onLine p.key.line ∧
      type.schema.recognizes p.path = false := by
  rw [checkKeys_eq, keysCourse_eq_places] at hd
  have honSchema : d.isOnSchema type = true := decide_eq_true ⟨hcategory, .inl hkey⟩
  have hfound := List.mem_filter.2 ⟨(isPrefix_log_check ()).subset hd, honSchema⟩
  rw [filter_findings_flatMap, List.mem_map] at hfound
  obtain ⟨p, hp, rfl⟩ := hfound
  have hunknown := Place.not_recognizes_of_key hkey
  refine ⟨p, (List.mem_filter.1 (List.mem_filter.1 hp).1).1, ?_, hunknown⟩
  rw [Place.warning, Place.issue, hunknown]
  rfl

end

/-- Patterns act on whole components of paths. A text is read as a pattern if it is not empty and
not padded, and a star is at its end only, alone or after a dot; a pattern for all that is below a
stem is one for the stem in lower case. It covers the paths with more components after those of the
stem. The sections are the stems, the paths on the way to them and the paths below them. So all
that is above or below a path which is covered is a section and known, and what is reported as
unknown is a key that is neither on the way to a section nor inside of one. -/
theorem Schema.sections_componentwise (s : Schema) :
    (∀ t, (∃ p, KeyPattern.parse t = .ok p) ↔ t ≠ [] ∧ Text.trim t = t ∧
      (t = ['*'] ∨ '*' ∉ t ∨ ∃ stem, t = stem ++ ['.', '*'] ∧ '*' ∉ stem)) ∧
    (∀ stem p, KeyPattern.parse (stem ++ ['.', '*']) = .ok p → p = .below (Text.lower stem)) ∧
    (∀ stem path, (KeyPattern.ofText (stem ++ ['.', '*'])).covers path = true ↔
      components stem <+: components path ∧ components stem ≠ components path) ∧
    (∀ path, s.isSection path = true ↔ ∃ stem, s.HasSection stem ∧
      (components path <+: components stem ∨ components stem <+: components path)) ∧
    (∀ stem path other, s.HasSection stem → (KeyPattern.below stem).covers path = true →
      (components other <+: components path ∨ components path <+: components other) →
      s.isSection other = true ∧ s.recognizes other = true) ∧
    ∀ v name known entries, ∀ d ∈ (checkKeys v ⟨name, s, known⟩ entries).log,
    d.category = .warning →
      d.key = "unknown_key_" ++ name.string →
      ∃ p ∈ places ⟨name, s, known⟩ entries,
      d = (Issue.unknownKey name p.key.text).onLine p.key.line ∧
        ∀ stem, s.HasSection stem →
          ¬ (components p.path <+: components stem ∨ components stem <+: components p.path) := by
  refine ⟨fun t => ?_, fun stem p => KeyPattern.parse_below, fun stem path => ?_,
    fun path => isSection_iff, ?_, ?_⟩
  · simp only [KeyPattern.parse_eq_ok_iff, exists_and_left, exists_eq, and_true]
    rfl
  · rw [KeyPattern.ofText_below]
    exact KeyPattern.covers_below_iff
  · intro stem path other hstem hcovers hother
    have hsection := isSection_iff.2 ⟨stem, hstem, KeyPattern.onOneBranch_of_covers hcovers hother⟩
    exact ⟨hsection, recognizes_of_isSection hsection⟩
  · intro v name known entries d hd hcategory hkey
    obtain ⟨p, hp, rfl, hunknown⟩ := unknown_of_mem_log hd hcategory hkey
    refine ⟨p, hp, rfl, fun stem hstem hbranch => ?_⟩
    rw [recognizes_of_isSection (isSection_iff.2 ⟨stem, hstem, hbranch⟩)] at hunknown
    cases hunknown

/-- A section two keys deep, and a key beside it whose name only begins like that of the
section. -/
def eventsBeside : Entries :=
  [(⟨"Events".toList, 1⟩, .map [(⟨"on a".toList, 2⟩, .map [(⟨"b".toList, 3⟩, .list [] 3)] 3)] 2),
    (⟨"eventsx".toList, 4⟩, .list [] 4)]

/-- Two sections, one in the other, and a key that begins like the first but is none. -/
theorem Schema.sections_componentwise_beside :
    (KeyPattern.below "events".toList).covers "events.on a".toList = true ∧
    (itemType.schema.isSection "events".toList = true ∧
      itemType.schema.recognizes "events".toList = true) ∧
    (itemType.schema.isSection "events.on a.b".toList = true ∧
      itemType.schema.recognizes "events.on a.b".toList = true) ∧
    ∃ p ∈ places itemType eventsBeside,
      (Issue.unknownKey itemType.name "eventsx".toList).onLine 4 =
        (Issue.unknownKey itemType.name p.key.text).onLine p.key.line ∧
      ∀ stem, itemType.schema.HasSection stem →
        ¬ (components p.path <+: components stem ∨ components stem <+: components p.path) := by
  obtain ⟨-, -, -, -, hknown, hunknown⟩ := Schema.sections_componentwise itemType.schema
  have hstem : itemType.schema.HasSection "events".toList := by decide
  have hcovers : (KeyPattern.below "events".toList).covers "events.on a".toList = true := by decide
  have hlog : (checkKeys {} itemType eventsBeside).log =
      [(Issue.unknownKey itemType.name "eventsx".toList).onLine 4] := by
    decide +kernel
  refine ⟨hcovers, hknown _ _ _ hstem hcovers (by decide),
    hknown _ _ _ hstem hcovers (by decide), ?_⟩
  refine hunknown {} itemType.name itemType.known eventsBeside _ ?_ rfl (by decide +kernel)
  exact hlog ▸ List.mem_singleton_self _

end ScriptLint
