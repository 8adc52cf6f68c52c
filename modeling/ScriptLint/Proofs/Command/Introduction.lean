import ScriptLint.Proofs.Argument.Layout
import ScriptLint.Proofs.Command.Flow
import ScriptLint.Proofs.Tag.RoundTrip
import ScriptLint.Proofs.Text.Case

/-!
# Referring to what was introduced

A name gets known in five ways: it is defined, it is the value or the key of a loop, it counts
rounds, or an entry is saved under it (`Introduction`). Later it is referred to by a tag
(`Introduction.usage`). A reference is about the part of a name before its first dot. A definition
is stored under this part, so it is found again whatever the name is. The other commands store the
name as it is written, so it is found again if it has no dot, and is lost if it has one
(`checkCommand_introduced`, `not_every_name_referable`).

The lines are made of words, which is how they are read (`Argument.split_joined`), and a reference
is an expression with one tag, whose parameter is the name.
-/

namespace ScriptLint

/-! ## Words of a line -/

namespace Argument

/-- Words are the arguments of the line that has a space between them. -/
theorem split_joined {words : List Text} (h : ∀ w ∈ words, IsWord w) :
    split (Text.joined [' '] words) = (words.map fun w => ⟨w, false⟩, []) := by
  induction words with
  | nil => rfl
  | cons w rest ih =>
    obtain ⟨hw, hrest⟩ := List.forall_mem_cons.1 h
    have hvalid : (Piece.bare w).Valid := hw
    cases rest with
    | nil =>
      have hend : (Piece.bare w).Before [] := ⟨rfl, nofun⟩
      have hread := hvalid.split_append hend
      rw [List.append_nil] at hread
      rw [Text.joined_singleton]
      exact hread
    | cons u us =>
      have hspace : (Piece.bare w).Before (' ' :: Text.joined [' '] (u :: us)) := ⟨rfl, nofun⟩
      have hrest : split (' ' :: Text.joined [' '] (u :: us)) = _ :=
        (split_spaces 1 _).trans (ih hrest)
      have hread := hvalid.split_append hspace
      rw [hrest] at hread
      rw [Text.joined_cons (List.cons_ne_nil u us)]
      exact hread

end Argument

/-! ## Names -/

/-- The character may stand in a name: it is no blank, no quote, no colon and no mark of a tag. -/
def isIdentifierPart (c : Char) : Bool :=
  !(Text.isBlank c || Argument.isQuote c || c = ':' || isTagMark c)

/-- The text is a name. There may be dots in it. -/
structure IsIdentifier (n : Text) : Prop where
  ne_nil : n ≠ []
  parts : n.all isIdentifierPart = true

namespace IsIdentifier

variable {n : Text} (h : IsIdentifier n)
include h

/-- A character of a name is no blank, no quote, no colon and no mark of a tag. -/
theorem part {c : Char} (hc : c ∈ n) :
    Text.isBlank c = false ∧ Argument.isQuote c = false ∧ c ≠ ':' ∧ isTagMark c = false := by
  simpa [isIdentifierPart, and_assoc] using List.all_eq_true.1 h.parts c hc

/-- A name has no character that is none of its parts. -/
theorem not_mem {c : Char} (hc : isIdentifierPart c = false) : c ∉ n := by
  intro hm
  rw [List.all_eq_true.1 h.parts c hm] at hc
  cases hc

/-- A name is one word. -/
theorem isWord : Argument.IsWord n := by
  refine ⟨h.ne_nil, h.not_mem (by decide), ?_⟩
  cases n with
  | nil => rfl
  | cons c r => exact (h.part List.mem_cons_self).2.1

/-- A mark in front of a name makes another word. -/
theorem isWord_append {mark : Text} (hm : Argument.IsWord mark) : Argument.IsWord (mark ++ n) := by
  refine ⟨?_, ?_, ?_⟩
  · simp [hm.ne_nil]
  · simp [hm.noSpace, h.isWord.noSpace]
  · rw [List.head?_append_of_ne_nil _ hm.ne_nil]
    exact hm.noQuote

/-- A name refers to what stands before its first dot, unless it begins with one. -/
theorem referenceName?_eq : Command.referenceName? n = Text.nonempty? (Text.before '.' n) := by
  have hangle : n.contains '<' = false := by simpa using h.not_mem (c := '<') (by decide)
  have hblank : ∀ c ∈ Text.before '.' n, Text.isBlank c = false := fun c hc =>
    (h.part ((List.takeWhile_prefix _).subset hc)).1
  have htrim : Text.trim (Text.before '.' n) = Text.before '.' n :=
    Text.trim_eq_self_iff.2
      ⟨fun c hc => hblank c (List.mem_of_head? hc), fun c hc => hblank c (List.mem_of_getLast? hc)⟩
  rw [Command.referenceName?, hangle, htrim]
  rfl

/-- The name of a reference is what is before the first dot. -/
theorem before_of_referenceName? {name : Text} (hname : Command.referenceName? n = some name) :
    Text.before '.' n = name := by
  rw [h.referenceName?_eq, Text.nonempty?] at hname
  split at hname
  · cases hname
  · exact Option.some.inj hname

end IsIdentifier

/-! ## Lines that introduce a name -/

/-- A way to introduce a name. -/
inductive Introduction where
  | define
  | loopValue
  | loopKey
  | counter
  | saved
deriving DecidableEq

namespace Introduction

/-- The command that introduces the name. -/
def command : Introduction → String
  | define => "define"
  | loopValue | loopKey => "foreach"
  | counter => "repeat"
  | saved => "run"

/-- Its arguments. -/
def arguments (n : Text) : Introduction → List Text
  | define => [n, ['1']]
  | loopValue => [['x'], "as:".toList ++ n]
  | loopKey => [['x'], "key:".toList ++ n]
  | counter => [['3'], "as:".toList ++ n]
  | saved => [['t'], "save:".toList ++ n]

/-- The line of the command. -/
def line (f : Introduction) (n : Text) : Text :=
  Text.joined [' '] (f.command.toList :: f.arguments n)

/-- The names that the command introduces. A loop introduces some without being told so. -/
def introduces (n : Text) : Introduction → Known
  | define => { definitions := (Command.referenceName? n).toList.map Text.lower }
  | loopValue => { definitions := [Text.lower n, "key".toList, "loop_index".toList] }
  | loopKey => { definitions := ["value".toList, Text.lower n, "loop_index".toList] }
  | counter => { definitions := [Text.lower n] }
  | saved => { entries := [Text.lower n] }

/-- The names that are introduced beside the one that is given. -/
def usual : Introduction → List Text
  | loopValue => ["key".toList, "loop_index".toList]
  | loopKey => ["value".toList, "loop_index".toList]
  | define | counter | saved => []

/-- The line is read as its command with its arguments. -/
theorem ofText?_line (f : Introduction) {n : Text} (hn : IsIdentifier n) :
    Command.ofText? (f.line n) = some ⟨f.command.toList, f.arguments n⟩ := by
  have hwords : ∀ w ∈ f.command.toList :: f.arguments n, Argument.IsWord w := by
    have hcommand : Argument.IsWord f.command.toList := by cases f <;> decide
    refine List.forall_mem_cons.2 ⟨hcommand, ?_⟩
    cases f with
    | define => exact List.forall_mem_cons.2 ⟨hn.isWord, by decide⟩
    | loopValue | loopKey | counter | saved =>
      exact List.forall_mem_cons.2
        ⟨by decide, List.forall_mem_singleton.2 (hn.isWord_append (by decide))⟩
  rw [Command.ofText?, line, Argument.split_joined hwords]
  cases f <;> rfl

/-- A name has no colon, so it is not taken for the mark of a value. -/
theorem valueOf?_define (n : Text) (hn : IsIdentifier n) :
    Command.valueOf? "save:" (define.arguments n) = none := by
  have hcolon : ':' ∉ Text.lower n :=
    fun h => hn.not_mem (by decide) ((Text.mem_lower (by decide) (by decide)).1 h)
  have hmark : ¬ Text.beginsWith "save:".toList (Text.lower n) = true := by
    rw [Text.beginsWith, List.isPrefixOf_iff_prefix]
    exact fun h => hcolon (h.subset (by decide))
  rw [Command.valueOf?, arguments, List.find?_cons_of_neg (by simpa using hmark)]
  rfl

/-- The line introduces the name as its command stores it. -/
theorem introducedBy_line (f : Introduction) {n : Text} (hn : IsIdentifier n) :
    Command.introducedBy (f.line n) = f.introduces n := by
  rw [Command.introducedBy, f.ofText?_line hn, Option.map_some, Option.getD_some,
    Command.introduced]
  cases f with
  | define =>
    have hbefore : Text.before ':' n = n :=
      Text.before_of_not_mem (hn.not_mem (by decide))
    have hdefined : Command.definitions ⟨define.command.toList, define.arguments n⟩ =
        (Command.referenceName? (Text.before ':' n)).toList := rfl
    rw [Command.saved?, valueOf?_define n hn, hdefined, hbefore, introduces]
    simp [Command.widens, command]
  | loopValue | loopKey | counter | saved =>
    -- The value of the mark is the name, which is not empty.
    obtain ⟨c, r, rfl⟩ := List.exists_cons_of_ne_nil hn.ne_nil
    rfl

/-! ### References -/

/-- The reference to a name that was introduced. -/
def reference : Introduction → Text → Reference
  | saved => .entry
  | define | loopValue | loopKey | counter => .definition

/-- The base of the tag that holds the reference. -/
def base : Introduction → String
  | saved => "entry"
  | define | loopValue | loopKey | counter => ""

/-- The base of the reference has no mark of a tag. -/
theorem isNameMark_base (f : Introduction) : f.base.toList.any isNameMark = false := by
  cases f <;> rfl

/-- The argument that refers to the name. -/
def usage (f : Introduction) (n : Text) : Text :=
  enclosed '<' '>' (f.base.toList ++ enclosed '[' ']' n)

/-- An arrow to the right ends in the mark that closes a tag, and one to the left begins with the
mark that opens it. Both stand at the ends of the argument only, next to other marks. -/
theorem arrowFree_usage (f : Introduction) {n : Text} (hn : IsIdentifier n) :
    ArrowFree (f.usage n) := by
  have hclose : '>' ∉ n := hn.not_mem (by decide)
  have hopen : '<' ∉ n := hn.not_mem (by decide)
  constructor
  · have hmarks : f.usage n = ('<' :: (f.base.toList ++ '[' :: n)) ++ ']' :: ['>'] := by
      simp [usage, enclosed]
    have hbase : '>' ∉ f.base.toList := by cases f <;> decide
    rw [hmarks]
    refine Text.holds_pair_append ?_ (by decide) rfl
    simp [hbase, hclose]
  · have hbase : '<' ∉ f.base.toList := by cases f <;> decide
    have hfirst : ['<', '-'].isPrefixOf (f.usage n) = false := by cases f <;> rfl
    have hrest : Text.holds ['<', '-'] (f.base.toList ++ enclosed '[' ']' n ++ ['>']) = false := by
      rw [Bool.eq_false_iff, ne_eq, Text.holds_iff_infix]
      intro h
      have hmem := h.subset (List.mem_cons_self (a := '<'))
      simp [enclosed, hbase, hopen] at hmem
    rw [usage, enclosed, Text.holds, hrest, Bool.or_false]
    exact hfirst

/-- The reference is on the part before the first dot, if there is one. -/
theorem references_usage (f : Introduction) {n : Text} (hn : IsIdentifier n) :
    (tagsOf (f.usage n)).filterMap Tag.reference? =
      (Command.referenceName? n).toList.map f.reference := by
  let name : Literal := ⟨n, fun c hc => (hn.part hc).2.2.2⟩
  let base : Name := .ofString f.base f.isNameMark_base
  let e : Expression := .tag (.last (.given base (.literal name .nil))) .nil
  have hprint : e.print = f.usage n := by
    simp [e, name, base, Name.ofString, Expression.print, TagBody.print, BodyPart.print, usage]
  have harrows : ArrowFree e.print := hprint ▸ f.arrowFree_usage hn
  have htags : e.tags = [⟨[⟨f.base.toList, some n⟩], none⟩] := by
    simp [e, name, base, Name.ofString, Expression.tags, TagBody.parameterTags,
      TagBody.fallbackTags, BodyPart.tags, TagBody.tag, TagBody.parts, TagBody.fallbackText,
      BodyPart.tagPart, Expression.print]
  have htag : Tag.reference? ⟨[⟨f.base.toList, some n⟩], none⟩ =
      (Command.referenceName? n).map f.reference := by
    obtain ⟨c, r, rfl⟩ := List.exists_cons_of_ne_nil hn.ne_nil
    cases f <;> rfl
  rw [← hprint, tagsOf, Expression.walk_print harrows, Expression.visits,
    List.filterMap_cons_none rfl, e.opened_tagVisits, htags, List.filterMap_cons, htag]
  cases Command.referenceName? n <;> rfl

/-- The name of the reference is among those that the line introduces, unless the line keeps its
dots. -/
theorem within_introduces (f : Introduction) {n name : Text} (hn : IsIdentifier n)
    (hname : Command.referenceName? n = some name) :
    (f.reference name).Within (f.introduces n) ↔
      f = .define ∨ '.' ∉ n ∨ Text.lower name ∈ f.usual := by
  obtain ⟨rfl⟩ : Text.before '.' n = name := hn.before_of_referenceName? hname
  by_cases hdot : '.' ∈ n
  · have hwhole : '.' ∈ Text.lower n := (Text.mem_lower (by decide) (by decide)).2 hdot
    have hpart : '.' ∉ Text.lower (Text.before '.' n) := fun h =>
      Text.not_mem_before ((Text.mem_lower (by decide) (by decide)).1 h)
    have hne : Text.lower (Text.before '.' n) ≠ Text.lower n := fun h => hpart (h ▸ hwhole)
    have hevery : everyName ≠ Text.lower n := fun h => by simp [← h] at hwhole
    cases f with
    | define => simp [reference, Reference.Within, introduces, hname]
    | loopValue | loopKey | counter | saved =>
      simp [reference, Reference.Within, introduces, usual, hne, hevery, hdot]
  · have hbefore : Text.before '.' n = n := Text.before_of_not_mem hdot
    rw [hbefore] at hname ⊢
    cases f <;> simp [reference, Reference.Within, introduces, hname, hdot]

end Introduction

/-! ## Later commands -/

namespace Reference

/-- A command among others adds what it introduces. -/
theorem within_after_cons (r : Reference) (k : Known) (t : Tracked) (rest : List Tracked) :
    r.Within (k.after (t :: rest)) ↔ r.Within (k.after rest) ∨
      r.Within (Command.introducedBy t.text) := by
  rw [within_congr (k.after_same _), within_congr (k.after_same _)]
  cases r <;> simp only [Within, Known.united, List.flatMap_cons, List.mem_append] <;> grind

end Reference

namespace Command

/-- The arguments of the command on a line. -/
def argumentsOf (t : Text) : List Text := ((ofText? t).map arguments).getD []

/-- What the command on a line refers to, not counting what a given argument refers to. -/
def referencesBut (argument t : Text) : List Reference :=
  ((argumentsOf t).filter (· ≠ argument)).flatMap fun a => (tagsOf a).filterMap Tag.reference?

/-- An argument that refers to known names adds nothing to what is reported. -/
theorem unknownTo_referencesBut {k : Known} {argument : Text}
    (h : ∀ r ∈ (tagsOf argument).filterMap Tag.reference?, r.Within k) (t : Text) :
    Reference.unknownTo k (referencesOf t) = Reference.unknownTo k (referencesBut argument t) := by
  have hknown : Reference.unknownTo k ((tagsOf argument).filterMap Tag.reference?) = [] :=
    List.filter_eq_nil_iff.2 fun r hr => by simp [h r hr]
  rw [referencesOf, ← argumentsOf, referencesBut]
  induction argumentsOf t with
  | nil => rfl
  | cons a rest ih =>
    simp only [Reference.unknownTo] at ih hknown ⊢
    by_cases ha : a = argument
    · subst ha
      rw [List.flatMap_cons, List.filter_append, hknown, ih]
      simp
    · rw [List.flatMap_cons, List.filter_append, ih, List.filter_cons_of_pos (by simpa using ha),
        List.flatMap_cons, List.filter_append]

end Command

/-- A name that a command introduces can be referred to by the commands after it, whatever is known
at the start and whatever commands are between. If the name is defined or has no dot, then only
what a later command refers to beside the name is reported. If a name with a dot is introduced in
another way, the part before the dot is not known after all: the reference is reported, unless the
part is empty or was introduced by something else. -/
theorem checkCommand_introduced (v : Vocabulary) (k : Known) (f : Introduction) {n : Text}
    (hn : IsIdentifier n) (form : Tracked) (hform : form.text = f.line n) (between : List Tracked)
    (user : Tracked) :
    (f = .define ∨ '.' ∉ n →
      (checkCommand v user (k.after (form :: between))).log.filter Diagnostic.isReference =
        (Reference.unknownTo (k.after (form :: between))
          (Command.referencesBut (f.usage n) user.text)).map
          (·.issue.onLine user.line)) ∧
    (f ≠ .define → '.' ∈ n → f.usage n ∈ Command.argumentsOf user.text →
      ∀ name, Command.referenceName? n = some name →
      ¬ (f.reference name).Within (k.after between) →
        Text.lower name ∉ f.usual →
        (f.reference name).issue.onLine user.line ∈
          (checkCommand v user (k.after (form :: between))).log) := by
  have hwithin : ∀ name, Command.referenceName? n = some name →
      ((f.reference name).Within (k.after (form :: between)) ↔
        (f.reference name).Within (k.after between) ∨ f = .define ∨ '.' ∉ n ∨
        Text.lower name ∈ f.usual) := by
    intro name hname
    rw [Reference.within_after_cons, hform, f.introducedBy_line hn, f.within_introduces hn hname]
  refine ⟨fun hfound => ?_, fun hdefine hdot huses name hname hunknown husual => ?_⟩
  · have hknown : ∀ r ∈ (tagsOf (f.usage n)).filterMap Tag.reference?,
        r.Within (k.after (form :: between)) := by
      rw [f.references_usage hn]
      intro r hr
      obtain ⟨name, hname, rfl⟩ := List.mem_map.1 hr
      rw [hwithin name (Option.mem_toList.1 hname)]
      exact .inr (hfound.imp_right .inl)
    rw [checkCommand, Command.lineLog_filter, referenceLog, Command.unknownTo_referencesBut hknown]
  · have hmem : f.reference name ∈ Command.referencesOf user.text := by
      refine List.mem_flatMap.2 ⟨f.usage n, huses, ?_⟩
      simp [f.references_usage hn, hname]
    have hlost : ¬ (f.reference name).Within (k.after (form :: between)) := by
      simp [hwithin name hname, hunknown, hdefine, hdot, husual]
    have hreported : (f.reference name).issue.onLine user.line ∈
        referenceLog (k.after (form :: between)) user :=
      List.mem_map.2 ⟨f.reference name, List.mem_filter.2 ⟨hmem, by simpa using hlost⟩, rfl⟩
    rw [← Command.lineLog_filter v] at hreported
    exact (List.mem_filter.1 hreported).1

/-- A definition with a dot in its name is found again; a loop refers to it between. -/
theorem checkCommand_introduced_list :
    IsIdentifier "List.1".toList ∧
    "define List.1 1".toList = Introduction.define.line "List.1".toList ∧
    (checkCommand {} ⟨"narrate <[List.1]> <[other]>".toList, 2⟩
      (Known.after {} [⟨"define List.1 1".toList, 0⟩,
        ⟨"foreach <[list]> as:x".toList, 1⟩])).log.filter Diagnostic.isReference =
      [(Issue.undefinedName "other".toList).onLine 2] := by
  have hname : IsIdentifier "List.1".toList := ⟨by decide, by decide⟩
  have hform : "define List.1 1".toList = Introduction.define.line "List.1".toList := by
    decide +kernel
  refine ⟨hname, hform, ?_⟩
  have hfound := (checkCommand_introduced {} {} .define hname ⟨"define List.1 1".toList, 0⟩ hform
    [⟨"foreach <[list]> as:x".toList, 1⟩] ⟨"narrate <[List.1]> <[other]>".toList, 2⟩).1 (.inl rfl)
  refine Eq.trans hfound ?_
  decide +kernel

/-- The value of a loop with a dot in its name is not found. -/
theorem not_every_name_referable :
    ¬ ∀ (v : Vocabulary) (k : Known) (f : Introduction) (n : Text), IsIdentifier n →
      ∀ (form : Tracked) (between : List Tracked) (user : Tracked), form.text = f.line n →
        Command.argumentsOf user.text = [f.usage n] →
        (checkCommand v user (k.after (form :: between))).log.filter Diagnostic.isReference =
          [] := by
  intro h
  have hname : IsIdentifier "a.b".toList := ⟨by decide, by decide⟩
  have hlog :=
    h {} {} .loopValue "a.b".toList hname ⟨"foreach x as:a.b".toList, 0⟩ []
      ⟨"narrate <[a.b]>".toList, 1⟩ (by decide +kernel) (by decide +kernel)
  revert hlog
  decide +kernel

end ScriptLint
