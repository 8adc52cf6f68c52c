import ScriptLint.Text.Case

/-!
# Regular expressions

Regular expressions over characters, matched without regard to case. An expression is searched for
at any place of a text (`Regex.foundIn`). Its meaning is the set of places where a match that
begins at a given place can end (`Regex.ends`), so that it does not matter which repetition is
tried first.
-/

namespace ScriptLint

/-- A group of characters in a character class. -/
inductive CharItem where
  | char (c : Char)
  | range (first last : Char)
  | word
  | digit
  | blank
  | nonWord
  | nonDigit
  | nonBlank
deriving DecidableEq, Repr

/-- The group holds the character. A range holds it if it holds one of its counterparts; the
properties are those of the small letter. -/
def CharItem.holds (item : CharItem) (c : Char) : Bool :=
  match item with
  | char d => (Text.counterparts c).contains d
  | range first last => (Text.counterparts c).any fun d => first.val ≤ d.val && d.val ≤ last.val
  | word => Text.isWord (Text.small c)
  | digit => Text.isDigit (Text.small c)
  | blank => Text.isBlank (Text.small c)
  | nonWord => !Text.isWord (Text.small c)
  | nonDigit => !Text.isDigit (Text.small c)
  | nonBlank => !Text.isBlank (Text.small c)

/-- A regular expression. -/
inductive Regex where
  /-- The empty text. -/
  | empty
  /-- A character of a class, or one outside of it. -/
  | oneOf (negated : Bool) (items : List CharItem)
  /-- Any character that is no line feed. -/
  | anyChar
  /-- The start of the text. -/
  | start
  /-- The end of the text, or the place before a line feed at its end. -/
  | lineEnd
  /-- The end of the text. -/
  | finish
  /-- A place where a word begins or ends (`true`), or does not (`false`). -/
  | boundary (present : Bool)
  | andThen (first second : Regex)
  | orElse (first second : Regex)
  /-- From `least` to `most` times, without an upper limit if there is no `most`. -/
  | times (body : Regex) (least : Nat) (most : Option Nat)
deriving DecidableEq, Repr

namespace Regex

/-- A word character stands at the place. -/
def wordAt (text : Array Char) (i : Nat) : Bool :=
  match text[i]? with
  | some c => Text.isWord c
  | none => false

/-- A word begins or ends at the place. -/
def isBoundary (text : Array Char) (i : Nat) : Bool :=
  (0 < i && wordAt text (i - 1)) != wordAt text i

/-- The places after one more step from some places. -/
def advance (step : Nat → List Nat) (places : List Nat) : List Nat :=
  (places.flatMap step).eraseDups

/-- The places after exactly `n` steps. -/
def afterSteps (step : Nat → List Nat) : Nat → List Nat → List Nat
  | 0, places => places
  | n + 1, places => afterSteps step n (advance step places)

/-- The places after at most `n` steps. -/
def withinSteps (step : Nat → List Nat) : Nat → List Nat → List Nat
  | 0, places => places
  | n + 1, places => withinSteps step n (places ++ advance step places).eraseDups

/-- The places where a match that begins at place `i` can end. A repetition reaches all it can
reach in as many steps as there are places. -/
def ends (text : Array Char) : Regex → Nat → List Nat
  | empty, i => [i]
  | oneOf negated items, i =>
    match text[i]? with
    | some c => if items.any (·.holds c) != negated then [i + 1] else []
    | none => []
  | anyChar, i =>
    match text[i]? with
    | some c => if c = '\n' then [] else [i + 1]
    | none => []
  | start, i => if i = 0 then [i] else []
  | lineEnd, i => if i = text.size ∨ (i + 1 = text.size ∧ text[i]? = some '\n') then [i] else []
  | finish, i => if i = text.size then [i] else []
  | boundary present, i => if 0 < text.size ∧ isBoundary text i = present then [i] else []
  | andThen first second, i => advance (ends text second) (ends text first i)
  | orElse first second, i => (ends text first i ++ ends text second i).eraseDups
  | times body least most, i =>
    let enough := text.size + 1
    let extra := match most with
      | some n => min (n - least) enough
      | none => enough
    withinSteps (ends text body) extra (afterSteps (ends text body) (min least enough) [i])

/-- The expression matches at some place of the text. -/
def foundIn (r : Regex) (t : Text) : Bool :=
  let text := t.toArray
  (List.range (text.size + 1)).any fun i => !(ends text r i).isEmpty

end Regex

end ScriptLint
