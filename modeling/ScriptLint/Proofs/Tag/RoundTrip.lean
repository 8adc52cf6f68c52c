import ScriptLint.Proofs.Command.Issues
import ScriptLint.Proofs.Tag.Expression
import ScriptLint.Proofs.Text

/-!
# Reading back expressions with tags

The tags that are found in a written expression are those of the expression
(`Expression.tagsOf_print`), as long as no arrow comes up in the writing: an arrow is no mark, so
it would hide the end or the start of a tag.

Both scanners count what is open, each in its own way. What they have in common is that they pass
over a text in which all marks are balanced (`Balanced`): inside of a tag, `tagBodiesFrom` only
gathers its characters (`tagBodiesFrom_append`), and inside of a tag or of brackets, `rawParts`
only joins them to the part it is in (`rawParts_append`). All that is written is balanced, so the
bodies that are found are those that were written (`Expression.tagBodies_print`), each of them is
cut where its parts were joined (`TagBody.ofBody_print`), and the walk goes over an expression as
it is built (`Expression.walk_print`).
-/

namespace ScriptLint

/-! ## Balanced texts -/

/-- Each mark that is opened is closed, and nothing else is. -/
inductive Balanced : Text → Prop
  | nil : Balanced []
  | plain {c : Char} {rest : Text} : isTagMark c = false → Balanced rest → Balanced (c :: rest)
  | angles {inner rest : Text} : Balanced inner → Balanced rest →
      Balanced (enclosed '<' '>' inner ++ rest)
  | brackets {inner rest : Text} : Balanced inner → Balanced rest →
      Balanced (enclosed '[' ']' inner ++ rest)

namespace Balanced

/-- A text without marks is balanced. -/
theorem of_plain {t : Text} (h : ∀ c ∈ t, isTagMark c = false) : Balanced t := by
  induction t with
  | nil => exact .nil
  | cons c r ih =>
    exact .plain (h c List.mem_cons_self) (ih fun d hd => h d (List.mem_cons_of_mem c hd))

/-- Balanced texts one after the other are balanced. -/
theorem append {t rest : Text} (ht : Balanced t) (hr : Balanced rest) : Balanced (t ++ rest) := by
  induction ht with
  | nil => exact hr
  | plain hc _ ih => exact .plain hc ih
  | angles hi _ _ ih => rw [List.append_assoc]; exact .angles hi ih
  | brackets hi _ _ ih => rw [List.append_assoc]; exact .brackets hi ih

/-- A balanced text has as many opening marks of tags as closing ones. -/
theorem count_eq {t : Text} (h : Balanced t) : t.count '<' = t.count '>' := by
  induction h with
  | nil => rfl
  | plain hc _ ih =>
    obtain ⟨hopen, hclose, -, -⟩ := isTagMark_eq_false_iff.1 hc
    rw [List.count_cons_of_ne hopen, List.count_cons_of_ne hclose, ih]
  | angles _ _ hi hr => simp [enclosed_append, hi, hr, Nat.add_assoc]
  | brackets _ _ hi hr => simp [enclosed_append, hi, hr]

end Balanced

mutual

/-- A printed expression is balanced. -/
theorem Expression.balanced : ∀ e : Expression, Balanced e.print
  | .nil => .nil
  | .literal t rest => by
    rw [Expression.print]
    exact (Balanced.of_plain t.plain).append rest.balanced
  | .tag body rest => by
    rw [Expression.print]
    exact .angles body.balanced rest.balanced

/-- A printed body is balanced. -/
theorem TagBody.balanced : ∀ body : TagBody, Balanced body.print
  | .last part => part.balanced
  | .orElse part fallback => by
    rw [TagBody.print]
    exact part.balanced.append (.plain rfl (.plain rfl fallback.balanced))
  | .dot part rest => by
    rw [TagBody.print]
    exact part.balanced.append (.plain rfl rest.balanced)

/-- A printed part is balanced. -/
theorem BodyPart.balanced : ∀ part : BodyPart, Balanced part.print
  | .plain name => .of_plain name.isTagMark_eq_false
  | .given name parameter => by
    rw [BodyPart.print]
    refine (Balanced.of_plain name.isTagMark_eq_false).append ?_
    simpa using Balanced.brackets parameter.balanced .nil

end

/-! ## Arrows -/

/-- No arrow is in the text. -/
def ArrowFree (t : Text) : Prop :=
  Text.holds ['-', '>'] t = false ∧ Text.holds ['<', '-'] t = false

instance (t : Text) : Decidable (ArrowFree t) := inferInstanceAs (Decidable (_ ∧ _))

namespace ArrowFree

/-- A part of a text without arrows has none. -/
theorem of_infix {t whole : Text} (h : ArrowFree whole) (ht : t <:+: whole) : ArrowFree t := by
  simp only [ArrowFree, Bool.eq_false_iff, ne_eq, Text.holds_iff_infix] at h ⊢
  exact ⟨fun hp => h.1 (hp.trans ht), fun hp => h.2 (hp.trans ht)⟩

/-- The first part of a text without arrows has none. -/
theorem left {first rest : Text} (h : ArrowFree (first ++ rest)) : ArrowFree first :=
  h.of_infix (List.prefix_append first rest).isInfix

/-- The second part of a text without arrows has none. -/
theorem right {first rest : Text} (h : ArrowFree (first ++ rest)) : ArrowFree rest :=
  h.of_infix (List.suffix_append first rest).isInfix

/-- The rest of a text without arrows has none. -/
theorem tail {c : Char} {rest : Text} (h : ArrowFree (c :: rest)) : ArrowFree rest :=
  h.of_infix (List.suffix_cons c rest).isInfix

/-- A text between marks has no arrows if they are none with it. -/
theorem inner {first last : Char} {t : Text} (h : ArrowFree (enclosed first last t)) :
    ArrowFree t :=
  (h.tail).left

end ArrowFree

/-- Where no right arrow is, none is replaced. -/
theorem substituteRight_eq_self {t : Text} (h : Text.holds ['-', '>'] t = false) :
    substituteRight t = t := by
  fun_induction substituteRight t with
  | case1 => rfl
  | case2 r => cases h
  | case3 c r _ ih =>
    rw [Text.holds, Bool.or_eq_false_iff] at h
    rw [ih h.2]

/-- Where no left arrow is, none is replaced. -/
theorem substituteLeft_eq_self {t : Text} (h : Text.holds ['<', '-'] t = false) :
    substituteLeft t = t := by
  fun_induction substituteLeft t with
  | case1 => rfl
  | case2 r => cases h
  | case3 c r _ ih =>
    rw [Text.holds, Bool.or_eq_false_iff] at h
    rw [ih h.2]

/-- Where no arrow is, none is replaced. -/
theorem substituteArrows_eq_self {t : Text} (h : ArrowFree t) : substituteArrows t = t := by
  rw [substituteArrows, substituteRight_eq_self h.1, substituteLeft_eq_self h.2]

/-! ## Finding tags -/

/-- Inside of a tag, a character that is no mark of a tag is gathered. -/
theorem tagBodiesFrom_plain {c : Char} (hopen : c ≠ '<') (hclose : c ≠ '>') (inner : Nat)
    (body rest : Text) :
    tagBodiesFrom (some (inner, body))
    (c :: rest) = tagBodiesFrom (some (inner, c :: body)) rest := by
  cases inner <;> simp [tagBodiesFrom, hopen, hclose]

/-- Inside of a tag, the characters of a balanced text are gathered. -/
theorem tagBodiesFrom_append {t : Text} (h : Balanced t) : ∀ (inner : Nat) (body rest : Text),
    tagBodiesFrom (some (inner, body)) (t ++ rest) =
      tagBodiesFrom (some (inner, t.reverse ++ body)) rest := by
  induction h with
  | nil => intro inner body rest; rfl
  | plain hc _ ih =>
    intro inner body rest
    obtain ⟨hopen, hclose, -, -⟩ := isTagMark_eq_false_iff.1 hc
    rw [List.cons_append, tagBodiesFrom_plain hopen hclose, ih, List.reverse_cons,
      List.append_assoc]
    rfl
  | angles _ _ ih ihr =>
    intro inner body rest
    have hopen : ∀ u, tagBodiesFrom (some (inner, body)) ('<' :: u) =
        tagBodiesFrom (some (inner + 1, '<' :: body)) u := by
      intro u
      cases inner <;> simp [tagBodiesFrom]
    have hclose : ∀ body u, tagBodiesFrom (some (inner + 1, body)) ('>' :: u) =
        tagBodiesFrom (some (inner, '>' :: body)) u := by
      intro body u
      simp [tagBodiesFrom]
    rw [List.append_assoc, enclosed_append, hopen, ih, hclose, ihr]
    simp [enclosed]
  | brackets _ _ ih ihr =>
    intro inner body rest
    rw [List.append_assoc, enclosed_append, tagBodiesFrom_plain (by decide) (by decide), ih,
      tagBodiesFrom_plain (by decide) (by decide), ihr]
    simp [enclosed]

/-- The body of a tag is found as a whole. -/
theorem tagBodies_tag {body : Text} (h : Balanced body) (rest : Text) :
    tagBodies (enclosed '<' '>' body ++ rest) = body :: tagBodies rest := by
  rw [enclosed_append, tagBodies, tagBodiesFrom, if_pos rfl, tagBodiesFrom_append h, tagBodiesFrom,
    if_neg (by decide), if_pos rfl]
  simp [tagBodies]

/-- No tag is found in a text without marks. -/
theorem tagBodies_plain {t : Text} (h : ∀ c ∈ t, isTagMark c = false) (rest : Text) :
    tagBodies (t ++ rest) = tagBodies rest := by
  induction t with
  | nil => rfl
  | cons c r ih =>
    have hc := (isTagMark_eq_false_iff.1 (h c List.mem_cons_self)).1
    rw [← ih fun d hd => h d (List.mem_cons_of_mem c hd), List.cons_append, tagBodies,
      tagBodiesFrom, if_neg hc]
    rfl

/-- The bodies of the outermost tags of an expression. -/
def Expression.bodies : Expression → List TagBody
  | .nil => []
  | .literal _ rest => rest.bodies
  | .tag body rest => body :: rest.bodies

/-- The bodies that are found are those that were written. -/
theorem Expression.tagBodies_print :
    ∀ e : Expression, tagBodies e.print = e.bodies.map TagBody.print
  | .nil => rfl
  | .literal t rest => by rw [print, tagBodies_plain t.plain, rest.tagBodies_print, bodies]
  | .tag body rest =>
    by rw [print, tagBodies_tag body.balanced, rest.tagBodies_print, bodies, List.map_cons]

/-! ## Cutting a body -/

/-- Characters that are put to the first part one by one are put before it. -/
theorem foldr_consToFirst (t part : Text) (parts : List Text) (fallback : Option Text) :
    t.foldr consToFirst (part :: parts, fallback) = ((t ++ part) :: parts, fallback) := by
  induction t with
  | nil => rfl
  | cons c r ih => rw [List.foldr_cons, ih]; rfl

section
variable (b a : Nat) (r : Text)

/-- An opening bracket belongs to its part. -/
theorem rawParts_bracket : rawParts b a ('[' :: r) = consToFirst '[' (rawParts (b + 1) a r) := by
  simp [rawParts]

/-- A closing bracket belongs to its part. -/
theorem rawParts_endBracket :
    rawParts (b + 1) a (']' :: r) = consToFirst ']' (rawParts b a r) := by
  simp [rawParts]

/-- An opening angle belongs to its part. -/
theorem rawParts_angle : rawParts b a ('<' :: r) = consToFirst '<' (rawParts b (a + 1) r) := by
  simp [rawParts]

/-- A closing angle belongs to its part. -/
theorem rawParts_endAngle : rawParts b (a + 1) ('>' :: r) = consToFirst '>' (rawParts b a r) := by
  simp [rawParts]

end

/-- Dots and bars are plain characters inside of brackets and tags. -/
theorem rawParts_plain {b a : Nat} (h : 0 < b + a) {c : Char} (hc : isTagMark c = false)
    (r : Text) :
    rawParts b a (c :: r) = consToFirst c (rawParts b a r) := by
  obtain ⟨hopen, hclose, hbracket, hend⟩ := isTagMark_eq_false_iff.1 hc
  rw [rawParts, if_neg hbracket, if_neg (hend ·.1), if_neg hopen, if_neg (hclose ·.1),
    if_neg (by omega)]

/-- Inside of brackets or of a tag, the characters of a balanced text join the part. -/
theorem rawParts_append {t : Text} (h : Balanced t) : ∀ {b a : Nat}, 0 < b + a → ∀ rest : Text,
    rawParts b a (t ++ rest) = t.foldr consToFirst (rawParts b a rest) := by
  induction h with
  | nil => intro b a _ rest; rfl
  | plain hc _ ih =>
    intro b a hba rest
    rw [List.cons_append, rawParts_plain hba hc, ih hba, List.foldr_cons]
  | angles _ _ ih ihr =>
    intro b a hba rest
    rw [List.append_assoc, enclosed_append, rawParts_angle, ih (by omega),
      rawParts_endAngle, ihr hba]
    simp [enclosed]
  | brackets _ _ ih ihr =>
    intro b a hba rest
    rw [List.append_assoc, enclosed_append, rawParts_bracket, ih (by omega),
      rawParts_endBracket, ihr hba]
    simp [enclosed]

/-- A name belongs to its part. -/
theorem rawParts_name (name : Name) (rest : Text) :
    rawParts 0 0 (name.text ++ rest) = name.text.foldr consToFirst (rawParts 0 0 rest) := by
  obtain ⟨t, h⟩ := name
  show rawParts 0 0 (t ++ rest) = t.foldr consToFirst (rawParts 0 0 rest)
  induction t with
  | nil => rfl
  | cons c r ih =>
    obtain ⟨hc, hdot, hbar⟩ := isNameMark_eq_false_iff.1 (h c List.mem_cons_self)
    rw [isTagMark_eq_false_iff] at hc
    rw [List.foldr_cons, ← ih fun d hd => h d (List.mem_cons_of_mem c hd), List.cons_append]
    simp [rawParts, hc, hdot, hbar]

/-- What is written for a part stays together. -/
theorem BodyPart.rawParts_print (part : BodyPart) (rest : Text) :
    rawParts 0 0 (part.print ++ rest) = part.print.foldr consToFirst (rawParts 0 0 rest) := by
  cases part with
  | plain name => exact rawParts_name name rest
  | given name parameter =>
    rw [BodyPart.print, List.append_assoc, enclosed_append, rawParts_name, rawParts_bracket,
      rawParts_append parameter.balanced (by omega), rawParts_endBracket]
    simp [enclosed]

/-- A body is cut where its parts were joined. -/
theorem TagBody.rawParts_print : ∀ body : TagBody,
    rawParts 0 0 body.print = (body.parts.map BodyPart.print, body.fallbackText)
  | .last part => by
    have h := part.rawParts_print []
    rw [List.append_nil, rawParts, foldr_consToFirst, List.append_nil] at h
    exact h
  | .orElse part fallback => by
    -- The fallback is not cut any more: what comes after the first bars is taken as it is.
    have hbars : rawParts 0 0 ('|' :: '|' :: fallback.print) = ([[]], some fallback.print) := by
      simp [rawParts]
    rw [TagBody.print, part.rawParts_print, hbars, foldr_consToFirst, List.append_nil]
    rfl
  | .dot part rest => by
    have hdot : rawParts 0 0 ('.' :: rest.print) =
        ([] :: rest.parts.map BodyPart.print, rest.fallbackText) := by
      simp [rawParts, rest.rawParts_print]
    rw [TagBody.print, part.rawParts_print, hdot, foldr_consToFirst, List.append_nil]
    rfl

/-- A part is read as it was written. -/
theorem BodyPart.ofRaw_print (part : BodyPart) : TagPart.ofRaw part.print = part.tagPart := by
  have hname : ∀ name : Name, '[' ∉ name.text := fun name h => by cases name.isTagMark_eq_false _ h
  cases part with
  | plain name => rw [BodyPart.print, TagPart.ofRaw, Text.after?_of_not_mem (hname name), tagPart]
  | given name parameter =>
    rw [BodyPart.print, enclosed, TagPart.ofRaw, Text.after?_append (hname name),
      Text.before_append (hname name)]
    simp only [Text.beforeLast?_concat, Option.getD_some, tagPart]

/-- A printed body is read as its tag. -/
theorem TagBody.ofBody_print (body : TagBody) : Tag.ofBody body.print = body.tag := by
  simp only [Tag.ofBody, body.rawParts_print, List.map_map, TagBody.tag]
  congr 2
  funext part
  exact part.ofRaw_print

/-! ## The walk over a written expression

A parameter or a fallback has no arrows because the expression around it has none, so the marks in
it are found too.
-/

mutual

/-- The walk over the bodies of an expression goes over its tags. -/
theorem Expression.walk_bodies : ∀ {e : Expression}, ArrowFree e.print →
    e.bodies.flatMap (fun body => walkTag body.tag) = e.tagVisits
  | .nil, _ => rfl
  | .literal t rest, h => by
    rw [Expression.print] at h
    rw [Expression.bodies, Expression.tagVisits, Expression.walk_bodies h.right]
  | .tag body rest, h => by
    rw [Expression.print] at h
    rw [Expression.bodies, Expression.tagVisits, List.flatMap_cons,
      Expression.walk_bodies h.right, walkTag]
    simp only [TagBody.tag, List.flatMap_map, TagBody.walk_parameters h.left.inner,
      TagBody.walk_fallback h.left.inner]

/-- The parameters of a printed body are walked through as the expressions in them. -/
theorem TagBody.walk_parameters : ∀ {body : TagBody}, ArrowFree body.print →
    body.parts.flatMap (fun part => walkParameter part.tagPart) = body.parameterVisits
  | .last part, h => by
    rw [TagBody.print] at h
    simp only [TagBody.parts, TagBody.parameterVisits, List.flatMap_cons, List.flatMap_nil,
      List.append_nil, BodyPart.walk_parameter h]
  | .orElse part _, h => by
    rw [TagBody.print] at h
    simp only [TagBody.parts, TagBody.parameterVisits, List.flatMap_cons, List.flatMap_nil,
      List.append_nil, BodyPart.walk_parameter h.left]
  | .dot part rest, h => by
    rw [TagBody.print] at h
    simp only [TagBody.parts, TagBody.parameterVisits, List.flatMap_cons,
      BodyPart.walk_parameter h.left, TagBody.walk_parameters h.right.tail]

/-- The fallback of a printed body is walked through as the expression in it. -/
theorem TagBody.walk_fallback : ∀ {body : TagBody}, ArrowFree body.print →
    body.fallbackText.elim [] walk = body.fallbackVisits
  | .last _, _ => rfl
  | .orElse _ fallback, h => by
    rw [TagBody.print] at h
    exact Expression.walk_print h.right.tail.tail
  | .dot _ rest, h => by
    rw [TagBody.print] at h
    rw [TagBody.fallbackVisits, ← TagBody.walk_fallback h.right.tail]
    rfl

/-- The parameter of a printed part is walked through as the expression in it. -/
theorem BodyPart.walk_parameter : ∀ {part : BodyPart}, ArrowFree part.print →
    walkParameter part.tagPart = part.visits
  | .plain _, _ => rfl
  | .given _ parameter, h => by
    rw [BodyPart.print] at h
    rw [BodyPart.visits, ← Expression.visits, ← Expression.walk_print h.right.inner]
    rfl

/-- The walk over a written expression goes over it as it is built. -/
theorem Expression.walk_print : ∀ {e : Expression}, ArrowFree e.print → walk e.print = e.visits
  | e, h => by
    rw [walk_eq, substituteArrows_eq_self h, e.tagBodies_print, List.flatMap_map]
    simp only [TagBody.ofBody_print, Expression.walk_bodies h]
    rfl

end

/-! ## Even marks -/

/-- A balanced text without arrows has even marks. -/
theorem hasUnevenMarks_eq_false {t : Text} (hb : Balanced t) (h : ArrowFree t) :
    hasUnevenMarks t = false := by
  simp [hasUnevenMarks, substituteArrows_eq_self h, hb.count_eq]

/-- The visit comes to no argument with uneven marks. -/
def Visit.Even : Visit → Prop
  | .argument t => hasUnevenMarks t = false
  | .opens _ | .closes _ => True

mutual

/-- The walk through the tags of a printed expression meets even marks only. -/
theorem Expression.even_tagVisits :
    ∀ {e : Expression}, ArrowFree e.print → Every Visit.Even e.tagVisits
  | .nil, _ => .nil
  | .literal t rest, h => by
    rw [Expression.print] at h
    rw [Expression.tagVisits]
    exact Expression.even_tagVisits h.right
  | .tag body rest, h => by
    rw [Expression.print] at h
    rw [Expression.tagVisits]
    exact .append (.append (.cons trivial (TagBody.even_parameterVisits h.left.inner))
      (.cons trivial (TagBody.even_fallbackVisits h.left.inner)))
      (Expression.even_tagVisits h.right)

/-- The walk through the parameters of a printed body meets even marks only. -/
theorem TagBody.even_parameterVisits : ∀ {body : TagBody}, ArrowFree body.print →
    Every Visit.Even body.parameterVisits
  | .last part, h => by
    rw [TagBody.print] at h
    rw [TagBody.parameterVisits]
    exact BodyPart.even_visits h
  | .orElse part _, h => by
    rw [TagBody.print] at h
    rw [TagBody.parameterVisits]
    exact BodyPart.even_visits h.left
  | .dot part rest, h => by
    rw [TagBody.print] at h
    rw [TagBody.parameterVisits]
    exact .append (BodyPart.even_visits h.left) (TagBody.even_parameterVisits h.right.tail)

/-- The walk through the fallback of a printed body meets even marks only. -/
theorem TagBody.even_fallbackVisits : ∀ {body : TagBody}, ArrowFree body.print →
    Every Visit.Even body.fallbackVisits
  | .last _, _ => .nil
  | .orElse _ fallback, h => by
    rw [TagBody.print] at h
    exact Expression.even_visits h.right.tail.tail
  | .dot _ rest, h => by
    rw [TagBody.print] at h
    rw [TagBody.fallbackVisits]
    exact TagBody.even_fallbackVisits h.right.tail

/-- The walk through a printed part meets even marks only. -/
theorem BodyPart.even_visits :
    ∀ {part : BodyPart}, ArrowFree part.print → Every Visit.Even part.visits
  | .plain _, _ => .nil
  | .given _ parameter, h => by
    rw [BodyPart.print] at h
    exact .ite .nil (Expression.even_visits h.right.inner)

/-- The walk through a printed expression meets even marks only. -/
theorem Expression.even_visits : ∀ {e : Expression}, ArrowFree e.print → Every Visit.Even e.visits
  | e, h => .cons (hasUnevenMarks_eq_false e.balanced h) (Expression.even_tagVisits h)

end

/-- Uneven marks are reported of an argument that the walk comes to only. -/
theorem Visit.Even.issues_key_ne {visit : Visit} (h : visit.Even) (v : Vocabulary) :
    Every (·.key ≠ "uneven_tags") (visit.issues v) := by
  cases visit with
  | argument t =>
    rw [Visit.issues, if_neg (Bool.eq_false_iff.1 h)]
    exact .nil
  | opens tag => exact .nil
  | closes tag =>
    have hbase : "bad_tag_base" ≠ "uneven_tags" := by decide
    have hpart : "bad_tag_part" ≠ "uneven_tags" := by decide
    have hdocumented : "xtag_notation" ≠ "uneven_tags" := by decide
    exact tag.issues_every (fun _ => hbase) (fun _ => hpart) (fun _ => hdocumented) v

/-! ## The round trip -/

/-- An expression without arrows is read back as it was written: the tags that are found are its
tags, each once, before those it holds, with the names and parameters of its parts and with its
fallback; and no marks are found to be uneven, whatever the vocabulary. -/
theorem Expression.tagsOf_print {e : Expression} (h : ArrowFree e.print) :
    tagsOf e.print = e.tags ∧
      ∀ (v : Vocabulary) (line : Int), ∀ d ∈ tagLog v ⟨e.print, line⟩, d.key ≠ "uneven_tags" := by
  constructor
  · rw [tagsOf, Expression.walk_print h, ← e.opened_tagVisits]
    rfl
  · intro v line
    refine Every.map (Every.flatMap fun visit hv => ?_)
    rw [Expression.walk_print h] at hv
    exact (Expression.even_visits h visit hv).issues_key_ne v

/-- A text with a tag that has another one in a parameter and a third one in its fallback. -/
def nestedText : Text := "say <player.flag[<[key].to[]>].name||<entry[a].b||none.>>!".toList

/-- The expression that is written as `nestedText`. -/
def nestedExpression : Expression :=
  let key : TagBody :=
    .dot (.given (.ofString "" rfl) (.literal (.ofString "key" rfl) .nil))
      (.last (.given (.ofString "to" rfl) .nil))
  let entry : TagBody :=
    .dot (.given (.ofString "entry" rfl) (.literal (.ofString "a" rfl) .nil))
      (.orElse (.plain (.ofString "b" rfl)) (.literal (.ofString "none." rfl) .nil))
  let player : TagBody :=
    .dot (.plain (.ofString "player" rfl))
      (.dot (.given (.ofString "flag" rfl) (.tag key .nil))
        (.orElse (.plain (.ofString "name" rfl)) (.tag entry .nil)))
  .literal (.ofString "say " rfl) (.tag player (.literal (.ofString "!" rfl) .nil))

/-- A tag with a tag in a parameter and one in its fallback. -/
theorem Expression.tagsOf_print_nested :
    nestedExpression.print = nestedText ∧ ArrowFree nestedExpression.print ∧
      tagsOf nestedText =
        [⟨[⟨"player".toList, none⟩, ⟨"flag".toList, some "<[key].to[]>".toList⟩,
          ⟨"name".toList, none⟩],
            some "<entry[a].b||none.>".toList⟩,
          ⟨[⟨[], some "key".toList⟩, ⟨"to".toList, some []⟩], none⟩,
          ⟨[⟨"entry".toList, some "a".toList⟩, ⟨"b".toList, none⟩], some "none.".toList⟩] ∧
      ∀ (v : Vocabulary) (line : Int), ∀ d ∈ tagLog v ⟨nestedText, line⟩,
      d.key ≠ "uneven_tags" := by
  have hprint : nestedExpression.print = nestedText := by decide
  have hfree : ArrowFree nestedExpression.print := by decide
  obtain ⟨htags, heven⟩ := Expression.tagsOf_print hfree
  refine ⟨hprint, hfree, ?_, ?_⟩
  · rw [← hprint, htags]
    decide
  · rw [← hprint]
    exact heven

end ScriptLint
