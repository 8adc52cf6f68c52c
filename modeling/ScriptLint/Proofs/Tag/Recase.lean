import Mathlib.Data.List.Basic
import ScriptLint.Proofs.Text.Case
import ScriptLint.Tag.Check

/-!
# Tags in another case

Tags are found by marks, and none of them is a letter. So the tags of a text in another case are
its tags in that case, and the walk over it goes the same way (`walk_uncased`). Names are looked up
in lower case, so the issues of the tags are of the same sorts (`tagIssues_uncased`); their
messages quote another spelling.
-/

namespace ScriptLint

open Text (uncased)

/-! ## Finding tags -/

/-- Right arrows are replaced in either case. -/
theorem substituteRight_uncased (t : Text) :
    substituteRight (uncased t) = uncased (substituteRight t) := by
  fun_induction substituteRight t with
  | case1 => rfl
  | case2 r ih => simpa [substituteRight] using ih
  | case3 c r hne ih =>
    rw [Text.uncased_cons, substituteRight, ih, Text.uncased_cons]
    intro rest hc hr
    have hhead : r.head? = some '>' := (Text.head?_uncased_eq (by decide) r).1 (by rw [hr]; rfl)
    obtain ⟨rest', rfl⟩ := List.head?_eq_some_iff.1 hhead
    exact hne rest' ((Text.IsMark.toLower_eq_iff (by decide) c).1 hc) rfl

/-- Left arrows are replaced in either case. -/
theorem substituteLeft_uncased (t : Text) :
    substituteLeft (uncased t) = uncased (substituteLeft t) := by
  fun_induction substituteLeft t with
  | case1 => rfl
  | case2 r ih => simpa [substituteLeft] using ih
  | case3 c r hne ih =>
    rw [Text.uncased_cons, substituteLeft, ih, Text.uncased_cons]
    intro rest hc hr
    have hhead : r.head? = some '-' := (Text.head?_uncased_eq (by decide) r).1 (by rw [hr]; rfl)
    obtain ⟨rest', rfl⟩ := List.head?_eq_some_iff.1 hhead
    exact hne rest' ((Text.IsMark.toLower_eq_iff (by decide) c).1 hc) rfl

/-- Arrows are replaced in either case. -/
theorem substituteArrows_uncased (t : Text) :
    substituteArrows (uncased t) = uncased (substituteArrows t) := by
  rw [substituteArrows, substituteRight_uncased, substituteLeft_uncased, substituteArrows]

/-- Tags are found at the same places in either case. -/
theorem tagBodiesFrom_uncased (t : Text) : ∀ state : Option (Nat × Text),
    tagBodiesFrom (state.map fun s => (s.1, uncased s.2)) (uncased t) =
      (tagBodiesFrom state t).map uncased := by
  induction t with
  | nil => rintro (_ | ⟨inner, body⟩) <;> rfl
  | cons c r ih =>
    rintro (_ | ⟨_ | inner, body⟩)
    · simp (disch := decide) only [Option.map_none, Text.uncased_cons, tagBodiesFrom,
        Text.IsMark.toLower_eq_iff]
      split
      · exact ih (some (0, []))
      · exact ih none
    · simp (disch := decide) only [Option.map_some, Text.uncased_cons, tagBodiesFrom,
        Text.IsMark.toLower_eq_iff]
      split
      · exact ih (some (1, c :: body))
      split
      · rw [List.map_cons, Text.uncased_reverse, ← ih none]
        rfl
      · exact ih (some (0, c :: body))
    · simp (disch := decide) only [Option.map_some, Text.uncased_cons, tagBodiesFrom,
        Text.IsMark.toLower_eq_iff]
      split
      · exact ih (some (inner + 2, c :: body))
      split
      · exact ih (some (inner, c :: body))
      · exact ih (some (inner + 1, c :: body))

/-- The bodies of the tags are those in their case. -/
theorem tagBodies_uncased (t : Text) : tagBodies (uncased t) = (tagBodies t).map uncased :=
  tagBodiesFrom_uncased t none

/-! ## Cutting a body -/

/-- The parts and the fallback in another case. -/
def uncasedParts (p : List Text × Option Text) : List Text × Option Text :=
  (p.1.map uncased, p.2.map uncased)

/-- A character is put to the first part in its case. -/
theorem consToFirst_uncased (c : Char) (p : List Text × Option Text) :
    consToFirst c.toLower (uncasedParts p) = uncasedParts (consToFirst c p) := by
  obtain ⟨_ | ⟨part, parts⟩, fallback⟩ := p <;> rfl

/-- A body is cut at the same places in either case. -/
theorem rawParts_uncased (t : Text) : ∀ brackets angles : Nat,
    rawParts brackets angles (uncased t) = uncasedParts (rawParts brackets angles t) := by
  induction t with
  | nil => exact fun _ _ => rfl
  | cons c r ih =>
    intro b a
    simp (disch := decide) only [Text.uncased_cons, rawParts, Text.IsMark.toLower_eq_iff,
      Text.head?_uncased_eq, ih, consToFirst_uncased]
    -- The marks come in the order in which they are looked for.
    split
    · rfl
    split
    · rfl
    split
    · rfl
    split
    · rfl
    split
    · split
      · rfl
      split
      · cases r <;> rfl
      · rfl
    · rfl

/-- The part in another case. -/
def TagPart.uncased (p : TagPart) : TagPart := ⟨Text.uncased p.name, p.parameter.map Text.uncased⟩

/-- A part is read alike in either case. -/
theorem TagPart.ofRaw_uncased (raw : Text) : ofRaw (Text.uncased raw) = (ofRaw raw).uncased := by
  rw [ofRaw, ofRaw, Text.after?_uncased (by decide)]
  cases Text.after? '[' raw with
  | none => rfl
  | some inner =>
    simp only [Option.map_some, Text.before_uncased (show Text.IsMark '[' by decide),
      Text.beforeLast?_uncased (show Text.IsMark ']' by decide), TagPart.uncased]
    cases Text.beforeLast? ']' inner <;> rfl

/-- A parameter that is empty is none in either case. -/
theorem TagPart.given_uncased (p : TagPart) :
    p.uncased.parameter.bind Text.nonempty? =
      (p.parameter.bind Text.nonempty?).map Text.uncased := by
  obtain ⟨name, _ | q⟩ := p
  · rfl
  · exact Text.nonempty?_uncased q

namespace Tag

/-- The tag in another case. -/
def uncased (tag : Tag) : Tag := ⟨tag.parts.map TagPart.uncased, tag.fallback.map Text.uncased⟩

/-- A tag is read alike in either case. -/
theorem ofBody_uncased (body : Text) : ofBody (Text.uncased body) = (ofBody body).uncased := by
  simp only [ofBody, rawParts_uncased, uncasedParts, uncased, List.map_map]
  congr 2
  funext raw
  exact TagPart.ofRaw_uncased raw

/-- The base of a tag is kept in lower case. -/
theorem base_uncased (tag : Tag) : tag.uncased.base = tag.base := by
  obtain ⟨_ | ⟨p, parts⟩, fallback⟩ := tag
  · rfl
  · exact Text.lower_uncased p.name

/-- A tag refers to the definition in its case. -/
theorem definition?_uncased (tag : Tag) :
    tag.uncased.definition? = tag.definition?.map Text.uncased := by
  obtain ⟨_ | ⟨p, parts⟩, fallback⟩ := tag
  · rfl
  · have hname : p.uncased.name.isEmpty = p.name.isEmpty := Text.isEmpty_uncased p.name
    simp only [definition?, uncased, List.map_cons, hname, p.given_uncased]
    split <;> rfl

/-- A tag refers to the entry in its case. -/
theorem entry?_uncased (tag : Tag) : tag.uncased.entry? = tag.entry?.map Text.uncased := by
  have hbase := tag.base_uncased
  obtain ⟨_ | ⟨p, parts⟩, fallback⟩ := tag
  · rfl
  · rw [ entry?, entry?, hbase]
    simp only [uncased, List.map_cons, p.given_uncased]
    split <;> rfl

end Tag

/-! ## The walk -/

/-- The stop of a walk in another case. -/
def Visit.uncased : Visit → Visit
  | .argument t => .argument (Text.uncased t)
  | .opens tag => .opens tag.uncased
  | .closes tag => .closes tag.uncased

section

variable {n : Nat} (ih : ∀ t : Text, t.length < n → walk (uncased t) = (walk t).map Visit.uncased)
include ih

/-- The walk through a parameter is the same in either case, if it is for all shorter texts. -/
theorem walkParameter_uncased {p : TagPart} (h : ∀ q, p.parameter = some q → q.length < n) :
    walkParameter p.uncased = (walkParameter p).map Visit.uncased := by
  obtain ⟨name, _ | q⟩ := p
  · rfl
  · simp only [walkParameter, TagPart.uncased, Option.map_some, Text.isEmpty_uncased,
      ih q (h q rfl)]
    split <;> rfl

/-- The walk through a tag is the same in either case, if it is for all shorter texts. -/
theorem walkTag_uncased {body : Text} (h : body.length < n) :
    walkTag (Tag.ofBody (uncased body)) = (walkTag (Tag.ofBody body)).map Visit.uncased := by
  have hparameters : ∀ p ∈ (Tag.ofBody body).parts,
      walkParameter p.uncased = (walkParameter p).map Visit.uncased := fun p hp =>
    walkParameter_uncased ih fun q hq => by have := Tag.length_of_parameter hp hq; omega
  have hfallback : ((Tag.ofBody body).uncased.fallback.elim [] walk) =
      ((Tag.ofBody body).fallback.elim [] walk).map Visit.uncased := by
    rw [Tag.uncased]
    cases hf : (Tag.ofBody body).fallback with
    | none => rfl
    | some t => exact ih t (by have := Tag.length_of_fallback hf; omega)
  rw [Tag.ofBody_uncased, walkTag, hfallback, walkTag, List.map_append, List.map_cons,
    List.map_cons, List.map_flatMap, Tag.uncased, List.flatMap_map, List.flatMap_congr hparameters]
  rfl

end

/-- The walk over a text in another case goes the same way. -/
theorem walk_uncased (t : Text) : walk (uncased t) = (walk t).map Visit.uncased := by
  -- What a tag holds is shorter than the argument, as the walk itself needs it.
  induction h : t.length using Nat.strongRecOn generalizing t with
  | ind n ih =>
    subst h
    rw [walk_eq, walk_eq t, substituteArrows_uncased, tagBodies_uncased, List.flatMap_map,
      List.map_cons, List.map_flatMap]
    congr 1
    refine List.flatMap_congr fun body hbody =>
      walkTag_uncased (fun u hu => ih u.length hu u rfl) ?_
    have hfound := length_of_mem_tagBodies hbody
    have harrows := length_substituteArrows_le t
    omega

/-- The tags of a text are those in their case. -/
theorem tagsOf_uncased (t : Text) : tagsOf (uncased t) = (tagsOf t).map Tag.uncased := by
  have hopened : ∀ visit : Visit, visit.uncased.opened? = visit.opened?.map Tag.uncased := by
    rintro (_ | _ | _) <;> rfl
  rw [tagsOf, walk_uncased, tagsOf, List.filterMap_map, List.map_filterMap]
  congr 1
  funext visit
  exact hopened visit

/-! ## Issues -/

/-- The sort of an issue. -/
def Issue.sort (issue : Issue) : Category × String := (issue.category, issue.key)

/-- Whether the marks are even does not depend on case. -/
theorem hasUnevenMarks_uncased (t : Text) : hasUnevenMarks (uncased t) = hasUnevenMarks t := by
  simp (disch := decide) only [hasUnevenMarks, substituteArrows_uncased, Text.length_uncased,
    Text.count_uncased]

namespace Tag

/-- A name in a tag has issues of the same sorts in either case. -/
theorem nameIssues_uncased {unknown : Text → Issue}
    (h : ∀ name name', (unknown name).sort = (unknown name').sort) (known : List Text)
    (name : Text) :
    (nameIssues known unknown (Text.uncased name)).map Issue.sort =
      (nameIssues known unknown name).map Issue.sort := by
  rw [nameIssues, nameIssues, Text.lower_uncased, List.map_append, List.map_append]
  congr 1
  · split
    · rfl
    · rw [List.map_singleton, List.map_singleton, h]
  · split <;> rfl

/-- The same parts are looked up in either case. -/
theorem checkedParts_uncased (tag : Tag) :
    tag.uncased.checkedParts = tag.checkedParts.map TagPart.uncased := by
  rw [checkedParts, checkedParts, base_uncased, uncased, ← List.map_drop, List.filter_map]
  congr 2
  funext p
  simp [TagPart.uncased]

/-- A tag has issues of the same sorts in either case. -/
theorem issues_uncased (v : Vocabulary) (tag : Tag) :
    (tag.uncased.issues v).map Issue.sort = (tag.issues v).map Issue.sort := by
  rw [issues, issues, checkedParts_uncased, base_uncased, List.map_append, List.map_append,
    List.flatMap_map, List.map_flatMap, List.map_flatMap]
  congr 1
  · obtain ⟨_ | ⟨p, parts⟩, fallback⟩ := tag
    · rfl
    · simp only [uncased, List.map_cons, TagPart.uncased]
      split
      · exact nameIssues_uncased (fun _ _ => rfl) _ _
      · rfl
  · congr 1
    funext p
    exact nameIssues_uncased (fun _ _ => rfl) _ _

end Tag

/-- The issues of the tags of a text in another case are of the same sorts. -/
theorem tagIssues_uncased (v : Vocabulary) (t : Text) :
    (tagIssues v (uncased t)).map Issue.sort = (tagIssues v t).map Issue.sort := by
  have hvisit : ∀ visit : Visit, (visit.uncased.issues v).map Issue.sort =
      (visit.issues v).map Issue.sort := by
    rintro (argument | tag | tag)
    · rw [Visit.uncased, Visit.issues, Visit.issues, hasUnevenMarks_uncased]
      split <;> rfl
    · rfl
    · exact tag.issues_uncased v
  rw [tagIssues, walk_uncased, tagIssues, List.flatMap_map, List.map_flatMap, List.map_flatMap]
  congr 1
  funext visit
  exact hvisit visit

end ScriptLint
