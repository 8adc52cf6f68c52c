import Mathlib.Algebra.Group.Basic
import Mathlib.Algebra.Group.Nat.Defs
import Mathlib.Data.List.Perm.Basic
import ScriptLint.Proofs.Command.Issues

/-!
# What is reported of the tags of an argument

Every report on a tag is made where the walk over its argument closes the tag. The walk closes the
tags it opens, each once, though in another order: a tag is opened before the tags in its
parameters and closed after them (`closed_perm`). So the reports can be counted by the tags of the
argument alone, whatever else the argument holds, well-formed or not (`tagLog_tally`): one for each
base and each part that should be in the vocabulary and is not, and another one for those among
them that are written like a kind of tag.
-/

namespace ScriptLint

/-! ## Each tag is closed once -/

/-- The tag that a visit closes. -/
def Visit.closed? : Visit → Option Tag
  | .closes tag => some tag
  | _ => none

/-- A tag is closed between its parameters and its fallback. -/
theorem closed_walkTag {tag : Tag}
    (hparts : ∀ p ∈ tag.parts, ((walkParameter p).filterMap Visit.closed?).Perm p.innerTags)
    (hfallback :
      ((tag.fallback.elim [] walk).filterMap Visit.closed?).Perm (tag.fallback.elim [] tagsOf)) :
    ((walkTag tag).filterMap Visit.closed?).Perm tag.withInner := by
  have hinner : ((tag.parts.flatMap walkParameter).filterMap Visit.closed?).Perm
      (tag.parts.flatMap TagPart.innerTags) := by
    rw [List.filterMap_flatMap]
    exact List.Perm.flatMap_left _ hparts
  have hsplit : (walkTag tag).filterMap Visit.closed? =
      (tag.parts.flatMap walkParameter).filterMap Visit.closed? ++
        tag :: (tag.fallback.elim [] walk).filterMap Visit.closed? := by
    rw [walkTag, List.filterMap_append]
    rfl
  rw [hsplit, Tag.withInner]
  exact List.perm_middle.trans ((hinner.append hfallback).cons tag)

/-- The walk closes the tags that it opens. -/
theorem closed_perm (argument : Text) :
    ((walk argument).filterMap Visit.closed?).Perm (tagsOf argument) := by
  induction argument using walk.induct with
  | case1 argument ihparameter ihfallback =>
    rw [walk_eq, List.filterMap_cons_none rfl, List.filterMap_flatMap, tagsOf_eq]
    refine List.Perm.flatMap_left _ fun body hbody => closed_walkTag (fun p hp => ?_) ?_
    · rw [walkParameter, TagPart.innerTags]
      cases hq : p.parameter with
      | none => exact .nil
      | some q =>
        simp only [Option.elim_some]
        split
        · next hempty => rw [List.isEmpty_iff.1 hempty, tagsOf_nil]; exact .nil
        · exact ihparameter body hbody p hp q hq
    · cases hf : (Tag.ofBody body).fallback with
      | none => exact .nil
      | some t => exact ihfallback body hbody t hf

/-- Apart from uneven marks, the issues of an argument are those of its tags. -/
theorem countP_tagIssues {p : Issue → Bool} (hp : ∀ t, p (.unevenTag t) = false) (v : Vocabulary)
    (argument : Text) :
    (tagIssues v argument).countP p = ((tagsOf argument).flatMap (Tag.issues v)).countP p := by
  have hvisits : ∀ visits : List Visit, (visits.flatMap (Visit.issues v)).countP p =
      ((visits.filterMap Visit.closed?).flatMap (Tag.issues v)).countP p := by
    intro visits
    induction visits with
    | nil => rfl
    | cons visit rest ih =>
      rw [List.flatMap_cons, List.countP_append, ih]
      cases visit with
      | argument t =>
        rw [List.filterMap_cons_none rfl, Visit.issues]
        split <;> simp [hp]
      | opens tag => rw [List.filterMap_cons_none rfl, Visit.issues, List.countP_nil, Nat.zero_add]
      | closes tag =>
        have hclosed : Visit.closed? (.closes tag) = some tag := rfl
        rw [List.filterMap_cons_some hclosed, List.flatMap_cons, List.countP_append, Visit.issues]
  rw [tagIssues, hvisits]
  exact ((closed_perm argument).flatMap_right _).countP_eq p

/-! ## What should be known of a tag -/

/-- The base of the tag should be in the vocabulary and is not. -/
def Tag.hasUnknownBase (v : Vocabulary) (tag : Tag) : Bool :=
  tag.base ≠ [] ∧ tag.base ≠ "entry".toList ∧ tag.base ≠ "context".toList ∧ '<' ∉ tag.base ∧
    tag.base ∉ v.tagBases

/-- The names of parts, in lower case, that should be in the vocabulary and are not. What comes
after `context` depends on the event. -/
def Tag.unknownParts (v : Vocabulary) (tag : Tag) : List Text :=
  ((tag.parts.drop (if tag.base = "context".toList then 2 else 1)).map fun p =>
    Text.lower p.name).filter
    fun name => '<' ∉ name ∧ name ∉ v.tagParts

/-- The names, in lower case, that should be in the vocabulary and are not. -/
def Tag.unknownNames (v : Vocabulary) (tag : Tag) : List Text :=
  (if tag.hasUnknownBase v then [tag.base] else []) ++ tag.unknownParts v

/-- The name is written like a kind of tag. -/
def isTagNotation (name : Text) : Bool := 3 < name.length ∧ "tag".toList <:+ name

namespace Tag

/-- An unknown name is one issue, and one more if it is written like a kind of tag. -/
theorem nameIssues_eq (known : List Text) (unknown : Text → Issue) (name : Text) :
    nameIssues known unknown name =
      if Text.lower name ∈ known then []
      else unknown name :: if isTagNotation (Text.lower name) then [.documentedTag name]
      else [] := by
  by_cases hknown : Text.lower name ∈ known
  · simp [nameIssues, isDocumented, hknown]
  · simp [nameIssues, isDocumented, hknown, isTagNotation, Text.endsWith]

/-- The part of the base if the base is looked up. -/
def checkedBase (tag : Tag) : List TagPart := if checksBase tag.base then tag.parts.take 1 else []

/-- The issues of a tag are those of its names that are looked up. -/
theorem issues_eq (v : Vocabulary) (tag : Tag) :
    tag.issues v =
      (tag.checkedBase.flatMap fun q => nameIssues v.tagBases .unknownTagBase q.name) ++
      tag.checkedParts.flatMap fun q => nameIssues v.tagParts .unknownTagPart q.name := by
  rw [issues, checkedBase]
  congr 1
  obtain ⟨_ | ⟨q, qs⟩, fallback⟩ := tag
  · simp
  · simp only
    split <;> simp

/-- The base of a tag is unknown if it is looked up and not found. -/
theorem hasUnknownBase_eq (v : Vocabulary) (tag : Tag) :
    tag.hasUnknownBase v = (checksBase tag.base && decide (tag.base ∉ v.tagBases)) := by
  simp only [hasUnknownBase, checksBase, ← Bool.decide_and, and_assoc, List.contains_eq_mem,
    ← decide_not]

/-- The base that is looked up is unknown if it is not found. -/
theorem names_checkedBase (v : Vocabulary) (tag : Tag) :
    (tag.checkedBase.map fun q => Text.lower q.name).filter (· ∉ v.tagBases) =
      if tag.hasUnknownBase v then [tag.base] else [] := by
  rw [hasUnknownBase_eq, checkedBase]
  cases hchecks : checksBase tag.base with
  | false => rfl
  | true =>
    obtain ⟨_ | ⟨q, qs⟩, fallback⟩ := tag
    · cases hchecks
    · show [Text.lower q.name].filter (· ∉ v.tagBases) = _
      rw [List.filter_cons, List.filter_nil, Bool.true_and]
      rfl

/-- The parts that are looked up are unknown if they are not found. -/
theorem names_checkedParts (v : Vocabulary) (tag : Tag) :
    (tag.checkedParts.map fun q => Text.lower q.name).filter (· ∉ v.tagParts) =
      tag.unknownParts v := by
  rw [checkedParts, unknownParts, List.filter_map, List.filter_map, List.filter_filter]
  congr 2
  funext q
  simp [Bool.and_comm]

variable (key : String)

/-- The names that are looked up are counted by those that are not found. -/
theorem countP_nameIssues {unknown : Text → Issue} {sort : String}
    (hunknown : ∀ t, (unknown t).key = sort) (known : List Text) (ps : List TagPart) :
    (ps.flatMap fun q => nameIssues known unknown q.name).countP (·.key = key) =
      (if sort = key then ((ps.map fun q => Text.lower q.name).filter (· ∉ known)).length else 0) +
        if "xtag_notation" = key then
          ((ps.map fun q => Text.lower q.name).filter (· ∉ known)).countP isTagNotation
        else 0 := by
  induction ps with
  | nil => simp
  | cons q ps ih =>
    rw [List.flatMap_cons, List.countP_append, ih, nameIssues_eq, List.map_cons]
    by_cases hknown : Text.lower q.name ∈ known
    · rw [if_pos hknown, List.filter_cons_of_neg (by simpa using hknown), List.countP_nil,
        Nat.zero_add]
    · have hnotation :
          (if isTagNotation (Text.lower q.name) then
            [Issue.documentedTag q.name] else []).countP (·.key = key) =
          if "xtag_notation" = key then
            if isTagNotation (Text.lower q.name) then 1 else 0
          else 0 := by
        split <;> by_cases hdocumented : "xtag_notation" = key <;> simp [Issue.key, hdocumented]
      rw [if_neg hknown, List.filter_cons_of_pos (by simpa using hknown), List.countP_cons,
        List.countP_cons, List.length_cons, hunknown, hnotation]
      simp only [decide_eq_true_eq, ite_add_zero]
      omega

/-- The issues of a tag are counted by its names that are not found. -/
theorem countP_issues (v : Vocabulary) (tag : Tag) :
    (tag.issues v).countP (·.key = key) =
      (if "bad_tag_base" = key then if tag.hasUnknownBase v then 1 else 0 else 0) +
        (if "bad_tag_part" = key then (tag.unknownParts v).length else 0) +
        if "xtag_notation" = key then (tag.unknownNames v).countP isTagNotation else 0 := by
  have hbase : ∀ t, (Issue.unknownTagBase t).key = "bad_tag_base" := fun _ => rfl
  have hpart : ∀ t, (Issue.unknownTagPart t).key = "bad_tag_part" := fun _ => rfl
  rw [issues_eq, List.countP_append, countP_nameIssues key hbase, countP_nameIssues key hpart,
    names_checkedBase, names_checkedParts, unknownNames, List.countP_append]
  have hlength : (if tag.hasUnknownBase v then [tag.base] else []).length =
      if tag.hasUnknownBase v then 1 else 0 := by
    split <;> rfl
  rw [hlength]
  simp only [ite_add_zero]
  omega

/-- The issues of tags are counted by their names that are not found. -/
theorem countP_flatMap_issues (v : Vocabulary) (tags : List Tag) :
    (tags.flatMap (issues v)).countP (·.key = key) =
      (if "bad_tag_base" = key then tags.countP (hasUnknownBase v) else 0) +
        (if "bad_tag_part" = key then (tags.flatMap (unknownParts v)).length else 0) +
        if "xtag_notation" = key then (tags.flatMap (unknownNames v)).countP isTagNotation
        else 0 := by
  induction tags with
  | nil => simp
  | cons tag tags ih =>
    simp only [List.flatMap_cons, List.countP_append, List.countP_cons, List.length_append, ih,
      countP_issues key v tag, ite_add_zero]
    omega

end Tag

/-! ## The tally -/

/-- Apart from uneven marks, findings are counted over the tags of the text. -/
theorem countP_tagLog {key : String} (hkey : "uneven_tags" ≠ key) (v : Vocabulary)
    (argument : Text) (line : Int) :
    (tagLog v ⟨argument, line⟩).countP (·.key = key) =
      ((tagsOf argument).flatMap (Tag.issues v)).countP (·.key = key) := by
  have hissues : (tagLog v ⟨argument, line⟩).countP (·.key = key) =
      (tagIssues v argument).countP (·.key = key) := by
    rw [tagLog, List.countP_map]
    rfl
  rw [hissues, countP_tagIssues fun t => decide_eq_false hkey]

/-- Every finding is a warning on the line of the argument, of one of four sorts. -/
theorem tagLog_sorts (v : Vocabulary) (argument : Text) (line : Int) :
    Every (fun d => d.category = .warning ∧ d.line = line ∧
        d.key ∈ ["bad_tag_base", "bad_tag_part", "xtag_notation", "uneven_tags"])
      (tagLog v ⟨argument, line⟩) := by
  have hissues : Every (fun issue : Issue => issue.category = .warning ∧
      issue.key ∈ ["bad_tag_base", "bad_tag_part", "xtag_notation", "uneven_tags"])
        (tagIssues v argument) := by
    intro issue hissue
    cases tagIssues_isOnTag v argument issue hissue with
    | uneven | base | part | documented => exact ⟨rfl, by simp [Issue.key]⟩
  exact .map fun issue hissue => ⟨(hissues issue hissue).1, rfl, (hissues issue hissue).2⟩

/-- The reports on the tags of an argument are accounted for by its tags. Each unknown base and
each unknown part is reported once, and once more if it is written like a kind of tag; what else is
reported is that marks are uneven. All of it is warnings on the line of the argument. Which tags
there are does not depend on the vocabulary. -/
theorem tagLog_tally (v : Vocabulary) (argument : Text) (line : Int) :
    let log := tagLog v ⟨argument, line⟩
    let tags := tagsOf argument
    log.countP (·.key = "bad_tag_base") = tags.countP (Tag.hasUnknownBase v) ∧
      log.countP (·.key = "bad_tag_part") = (tags.flatMap (Tag.unknownParts v)).length ∧
      log.countP (·.key = "xtag_notation") =
        (tags.flatMap (Tag.unknownNames v)).countP isTagNotation ∧
      ∀ d ∈ log, d.category = .warning ∧ d.line = line ∧
        d.key ∈ ["bad_tag_base", "bad_tag_part", "xtag_notation", "uneven_tags"] := by
  refine ⟨?_, ?_, ?_, tagLog_sorts v argument line⟩
  · rw [countP_tagLog (by decide), Tag.countP_flatMap_issues]
    simp
  · rw [countP_tagLog (by decide), Tag.countP_flatMap_issues]
    simp
  · rw [countP_tagLog (by decide), Tag.countP_flatMap_issues]
    simp

end ScriptLint
