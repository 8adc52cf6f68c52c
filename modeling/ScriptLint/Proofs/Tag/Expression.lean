import ScriptLint.Tag.Check

/-!
# Expressions with tags

An expression is an argument as it is meant: literals and tags one after the other (`Expression`).
A tag has parts with dots between them and possibly a fallback (`TagBody`), and a part has a name
and possibly a parameter (`BodyPart`); parameters and fallbacks are expressions again. Literals are
free of the four marks, and names are free of dots and bars as well, so that nothing in them is
taken for a part of a tag (`Literal`, `Name`).

An expression can be written (`Expression.print`). It says which tags it has, each before those it
holds (`Expression.tags`), and which way a walk over it goes (`Expression.visits`).
-/

namespace ScriptLint

/-- The character opens or closes a tag or a parameter. -/
def isTagMark (c : Char) : Bool := c = '<' || c = '>' || c = '[' || c = ']'

/-- The marks of a tag are the angles and the brackets. -/
theorem isTagMark_eq_false_iff {c : Char} :
    isTagMark c = false ↔ c ≠ '<' ∧ c ≠ '>' ∧ c ≠ '[' ∧ c ≠ ']' := by
  simp [isTagMark, and_assoc]

/-- The character opens or closes a tag or a parameter, or it ends a part of a tag. -/
def isNameMark (c : Char) : Bool := isTagMark c || c = '.' || c = '|'

/-- A name has no mark of a tag, no dot and no bar. -/
theorem isNameMark_eq_false_iff {c : Char} :
    isNameMark c = false ↔ isTagMark c = false ∧ c ≠ '.' ∧ c ≠ '|' := by
  simp [isNameMark, and_assoc]

/-- A text without tags. -/
structure Literal where
  text : Text
  plain : ∀ c ∈ text, isTagMark c = false

/-- The name of a part of a tag. -/
structure Name where
  text : Text
  plain : ∀ c ∈ text, isNameMark c = false

/-- A string without marks as a literal. -/
def Literal.ofString (s : String) (h : s.toList.any isTagMark = false) : Literal :=
  ⟨s.toList, fun c hc => Bool.eq_false_iff.2 (List.any_eq_false.1 h c hc)⟩

/-- A string without marks as a name. -/
def Name.ofString (s : String) (h : s.toList.any isNameMark = false) : Name :=
  ⟨s.toList, fun c hc => Bool.eq_false_iff.2 (List.any_eq_false.1 h c hc)⟩

/-- A name has no mark of a tag. -/
theorem Name.isTagMark_eq_false (name : Name) : ∀ c ∈ name.text, isTagMark c = false :=
  fun c hc => (isNameMark_eq_false_iff.1 (name.plain c hc)).1

mutual

/-- An argument: literals and tags one after the other. -/
inductive Expression where
  | nil
  | literal (text : Literal) (rest : Expression)
  | tag (body : TagBody) (rest : Expression)

/-- What stands between the marks of a tag: one or more parts, and possibly a fallback. -/
inductive TagBody where
  | last (part : BodyPart)
  | orElse (part : BodyPart) (fallback : Expression)
  | dot (part : BodyPart) (rest : TagBody)

/-- A part of a tag: a name, and possibly a parameter. -/
inductive BodyPart where
  | plain (name : Name)
  | given (name : Name) (parameter : Expression)

end

/-! ## Writing -/

/-- The text between two marks. -/
def enclosed (first last : Char) (t : Text) : Text := first :: (t ++ [last])

/-- Between its marks, a text is followed by the last one. -/
theorem enclosed_append (first last : Char) (t rest : Text) :
    enclosed first last t ++ rest = first :: (t ++ last :: rest) := by
  simp [enclosed]

mutual

/-- The expression as it is written. -/
def Expression.print : Expression → Text
  | .nil => []
  | .literal t rest => t.text ++ rest.print
  | .tag body rest => enclosed '<' '>' body.print ++ rest.print

/-- The body of a tag as it is written. -/
def TagBody.print : TagBody → Text
  | .last part => part.print
  | .orElse part fallback => part.print ++ '|' :: '|' :: fallback.print
  | .dot part rest => part.print ++ '.' :: rest.print

/-- A part of a tag as it is written. -/
def BodyPart.print : BodyPart → Text
  | .plain name => name.text
  | .given name parameter => name.text ++ enclosed '[' ']' parameter.print

end

/-! ## Tags -/

/-- The part with the text of its parameter. -/
def BodyPart.tagPart : BodyPart → TagPart
  | .plain name => ⟨name.text, none⟩
  | .given name parameter => ⟨name.text, some parameter.print⟩

namespace TagBody

/-- The parts of a tag. -/
def parts : TagBody → List BodyPart
  | .last part => [part]
  | .orElse part _ => [part]
  | .dot part rest => part :: rest.parts

/-- The text of the fallback. -/
def fallbackText : TagBody → Option Text
  | .last _ => none
  | .orElse _ fallback => some fallback.print
  | .dot _ rest => rest.fallbackText

/-- The tag with the texts of its parameters and of its fallback. -/
def tag (body : TagBody) : Tag := ⟨body.parts.map BodyPart.tagPart, body.fallbackText⟩

end TagBody

mutual

/-- The tags of an expression. A tag comes first, then the tags of its parameters from left to
right, then those of its fallback. -/
def Expression.tags : Expression → List Tag
  | .nil => []
  | .literal _ rest => rest.tags
  | .tag body rest => body.tag :: (body.parameterTags ++ body.fallbackTags ++ rest.tags)

/-- The tags of the parameters in the body of a tag. -/
def TagBody.parameterTags : TagBody → List Tag
  | .last part => part.tags
  | .orElse part _ => part.tags
  | .dot part rest => part.tags ++ rest.parameterTags

/-- The tags of the fallback in the body of a tag. -/
def TagBody.fallbackTags : TagBody → List Tag
  | .last _ => []
  | .orElse _ fallback => fallback.tags
  | .dot _ rest => rest.fallbackTags

/-- The tags of the parameter of a part. -/
def BodyPart.tags : BodyPart → List Tag
  | .plain _ => []
  | .given _ parameter => parameter.tags

end

/-! ## The walk -/

mutual

/-- The walk over the tags of an expression. -/
def Expression.tagVisits : Expression → List Visit
  | .nil => []
  | .literal _ rest => rest.tagVisits
  | .tag body rest =>
    .opens body.tag :: body.parameterVisits ++ .closes body.tag :: body.fallbackVisits ++
      rest.tagVisits

/-- The walk over the parameters in the body of a tag. -/
def TagBody.parameterVisits : TagBody → List Visit
  | .last part => part.visits
  | .orElse part _ => part.visits
  | .dot part rest => part.visits ++ rest.parameterVisits

/-- The walk over the fallback in the body of a tag. -/
def TagBody.fallbackVisits : TagBody → List Visit
  | .last _ => []
  | .orElse _ fallback => .argument fallback.print :: fallback.tagVisits
  | .dot _ rest => rest.fallbackVisits

/-- The walk over the parameter of a part; an empty one holds nothing to visit. -/
def BodyPart.visits : BodyPart → List Visit
  | .plain _ => []
  | .given _ parameter =>
    if parameter.print.isEmpty then [] else .argument parameter.print :: parameter.tagVisits

end

/-- The walk over an expression. -/
def Expression.visits (e : Expression) : List Visit := .argument e.print :: e.tagVisits

/-! ## What the walk sees -/

/-- An expression that is written as the empty text has no tags. -/
theorem Expression.tags_of_print_eq_nil : ∀ {e : Expression}, e.print = [] → e.tags = []
  | .nil, _ => by rw [tags]
  | .literal t rest, h => by
    rw [print, List.append_eq_nil_iff] at h
    rw [tags, tags_of_print_eq_nil h.2]
  | .tag body rest, h => by
    rw [print, enclosed] at h
    cases h

mutual

/-- The walk over an expression opens its tags. -/
theorem Expression.opened_tagVisits :
    ∀ e : Expression, e.tagVisits.filterMap Visit.opened? = e.tags
  | .nil => by rw [Expression.tagVisits, Expression.tags]; rfl
  | .literal t rest => by rw [Expression.tagVisits, Expression.tags, rest.opened_tagVisits]
  | .tag body rest => by
    rw [Expression.tagVisits, Expression.tags, List.filterMap_append, List.filterMap_append,
      rest.opened_tagVisits]
    simp only [List.filterMap_cons, Visit.opened?, body.opened_parameterVisits,
      body.opened_fallbackVisits, List.cons_append]

/-- The walk through the parameters of a tag opens the tags in them. -/
theorem TagBody.opened_parameterVisits : ∀ body : TagBody,
    body.parameterVisits.filterMap Visit.opened? = body.parameterTags
  | .last part => by rw [TagBody.parameterVisits, TagBody.parameterTags, part.opened_visits]
  | .orElse part _ => by rw [TagBody.parameterVisits, TagBody.parameterTags, part.opened_visits]
  | .dot part rest => by
    rw [TagBody.parameterVisits, TagBody.parameterTags, List.filterMap_append, part.opened_visits,
      rest.opened_parameterVisits]

/-- The walk through the fallback of a tag opens the tags in it. -/
theorem TagBody.opened_fallbackVisits : ∀ body : TagBody,
    body.fallbackVisits.filterMap Visit.opened? = body.fallbackTags
  | .last _ => by rw [TagBody.fallbackVisits, TagBody.fallbackTags]; rfl
  | .orElse _ fallback => by
    rw [TagBody.fallbackVisits, TagBody.fallbackTags, ← fallback.opened_tagVisits]
    rfl
  | .dot _ rest => by rw [TagBody.fallbackVisits, TagBody.fallbackTags, rest.opened_fallbackVisits]

/-- The walk through a part opens the tags in its parameter. -/
theorem BodyPart.opened_visits : ∀ part : BodyPart, part.visits.filterMap Visit.opened? = part.tags
  | .plain _ => by rw [BodyPart.visits, BodyPart.tags]; rfl
  | .given _ parameter => by
    rw [BodyPart.visits, BodyPart.tags]
    split
    · next h => rw [parameter.tags_of_print_eq_nil (List.isEmpty_iff.1 h)]; rfl
    · rw [← parameter.opened_tagVisits]
      rfl

end

end ScriptLint
