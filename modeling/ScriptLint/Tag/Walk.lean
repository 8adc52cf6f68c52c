import ScriptLint.Tag

/-!
# The walk over an argument

Tags nest: the parameters and the fallback of a tag are arguments with tags of their own. The walk
over an argument (`walk`) visits all of them in a fixed order. It comes to an argument first. Then,
for each of its tags, it opens the tag, walks over the parameters from left to right, closes the
tag, and walks over the fallback. The tags of an argument are those that the walk opens, and what
is said of an argument or a tag is said where the walk comes to it or closes it.

The walk ends because what a tag holds is shorter than the argument around it.
-/

namespace ScriptLint

/-- A stop of the walk over an argument. -/
inductive Visit where
  /-- The walk comes to an argument. -/
  | argument (text : Text)
  /-- The walk enters a tag. -/
  | opens (tag : Tag)
  /-- The walk has seen the parameters of a tag. -/
  | closes (tag : Tag)
deriving DecidableEq, Repr

/-- The walk over an argument. -/
def walk (argument : Text) : List Visit :=
  .argument argument ::
    (tagBodies (substituteArrows argument)).attach.flatMap fun ⟨body, _hb⟩ =>
      let tag := Tag.ofBody body
      .opens tag ::
        (tag.parts.attach.flatMap fun ⟨p, _hp⟩ =>
          match _hq : p.parameter with
          | none => []
          | some q => if q.isEmpty then [] else walk q) ++
        .closes tag ::
          match _hf : tag.fallback with
          | none => []
          | some t => walk t
termination_by argument.length
decreasing_by
  · have h₁ := length_of_mem_tagBodies _hb
    have h₂ := length_substituteArrows_le argument
    have h₃ := Tag.length_of_parameter _hp _hq
    omega
  · have h₁ := length_of_mem_tagBodies _hb
    have h₂ := length_substituteArrows_le argument
    have h₃ := Tag.length_of_fallback _hf
    omega

/-- The walk over a parameter, if there is one; an empty one holds nothing to visit. -/
def walkParameter (p : TagPart) : List Visit :=
  match p.parameter with
  | none => []
  | some q => if q.isEmpty then [] else walk q

/-- The walk over a tag. -/
def walkTag (tag : Tag) : List Visit :=
  .opens tag :: tag.parts.flatMap walkParameter ++ .closes tag :: (tag.fallback.elim [] walk)

/-- The walk over an argument goes over its tags one after the other. -/
theorem walk_eq (argument : Text) :
    walk argument =
      .argument argument ::
        (tagBodies (substituteArrows argument)).flatMap fun body => walkTag (Tag.ofBody body) := by
  have attach_flatMap : ∀ {α β : Type} (l : List α) (f : α → List β),
      (l.attach.flatMap fun x => f x.1) = l.flatMap f := by
    intro α β l f
    conv => rhs; rw [← List.attach_map_subtype_val l]
    rw [List.flatMap_map]
  rw [walk, ← attach_flatMap _ fun body => walkTag (Tag.ofBody body)]
  congr 2
  funext ⟨body, hb⟩
  simp only [walkTag]
  rw [← attach_flatMap _ walkParameter]
  congr 1
  · congr 2
    funext ⟨p, hp⟩
    simp only [walkParameter]
    split <;> rename_i h <;> simp [h]
  · congr 1
    split <;> rename_i h <;> simp [h]

/-- The tag that a visit opens. -/
def Visit.opened? : Visit → Option Tag
  | .opens tag => some tag
  | _ => none

/-- The tags of an argument: each before those it holds, in the order they are written. -/
def tagsOf (argument : Text) : List Tag := (walk argument).filterMap Visit.opened?

/-! ## The tags of an argument, one level at a time -/

/-- The tags in the parameter of a part, if there is one. -/
def TagPart.innerTags (p : TagPart) : List Tag := p.parameter.elim [] tagsOf

/-- A tag, then the tags it holds. -/
def Tag.withInner (tag : Tag) : List Tag :=
  tag :: (tag.parts.flatMap TagPart.innerTags ++ tag.fallback.elim [] tagsOf)

theorem tagsOf_nil : tagsOf [] = [] := by
  rw [tagsOf, walk_eq]
  rfl

theorem opened_walkParameter (p : TagPart) :
    (walkParameter p).filterMap Visit.opened? = p.innerTags := by
  obtain ⟨name, _ | q⟩ := p
  · rfl
  · cases q with
    | nil => exact tagsOf_nil.symm
    | cons c r => rfl

theorem opened_walkTag (tag : Tag) : (walkTag tag).filterMap Visit.opened? = tag.withInner := by
  have hparts : (tag.parts.flatMap walkParameter).filterMap Visit.opened? =
      tag.parts.flatMap TagPart.innerTags := by
    rw [List.filterMap_flatMap]
    simp only [opened_walkParameter]
  have hfallback : (tag.fallback.elim [] walk).filterMap Visit.opened? =
      tag.fallback.elim [] tagsOf := by
    cases tag.fallback <;> rfl
  rw [walkTag, List.filterMap_append, Tag.withInner, ← hparts, ← hfallback]
  rfl

/-- The tags of an argument are its outermost tags, each with the tags it holds. -/
theorem tagsOf_eq (argument : Text) :
    tagsOf argument = (tagBodies (substituteArrows argument)).flatMap fun body =>
    (Tag.ofBody body).withInner := by
  rw [tagsOf, walk_eq, List.filterMap_cons_none rfl, List.filterMap_flatMap]
  simp only [opened_walkTag]

end ScriptLint
