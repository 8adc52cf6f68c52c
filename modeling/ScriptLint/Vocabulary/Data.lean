import ScriptLint.ConfigFile
import ScriptLint.Regex.Reader
import ScriptLint.Text.Number
import ScriptLint.Vocabulary

/-!
# Vocabularies from data

A vocabulary may be given as data: a map with a field for each part of it. Commands come as a map
from names to numbers, descriptions or nothing, or as a list of descriptions with names; names come
as one text or a list; patterns come as one text or a list of texts. A field that is not given is
empty.

Data that does not fit is refused with all of its problems, each with the path to it
(`DataProblem`). Some faults leave nothing to check, such as a command without a name or a pattern
that cannot be read; the first of them ends the reading (`DataFault`).
-/

namespace ScriptLint

/-- How a piece of data does not fit. -/
inductive DataProblem.Code where
  | notRecord
  | notMap
  | notNames
  | notPatterns
  | negative
  | notNumber
  | notNumeral
  | fractional
  | infinite
deriving DecidableEq, Repr

/-- A piece of data that does not fit, and the path to it. -/
structure DataProblem where
  path : List Text
  code : DataProblem.Code
deriving DecidableEq, Repr

namespace DataProblem

/-- The name of a code. -/
def Code.name : Code → String
  | notRecord => "model_type"
  | notMap => "dict_type"
  | notNames => "frozen_set_type"
  | notPatterns => "tuple_type"
  | negative => "greater_than_equal"
  | notNumber => "int_type"
  | notNumeral => "int_parsing"
  | fractional => "int_from_float"
  | infinite => "finite_number"

/-- Paths are ordered by their first different component; a path comes after its beginnings. -/
def pathLe : List Text → List Text → Bool
  | [], _ => true
  | _ :: _, [] => false
  | a :: as, b :: bs => if a = b then pathLe as bs else Text.le a b

/-- Problems are ordered by their paths, and at one path by the names of their codes. -/
def le (a b : DataProblem) : Bool :=
  if a.path = b.path then Text.le a.code.name.toList b.code.name.toList else pathLe a.path b.path

/-- The problems in order. -/
def sorted (problems : List DataProblem) : List DataProblem := problems.mergeSort le

end DataProblem

/-- What leaves nothing to check. -/
inductive DataFault where
  /-- A command in a list has no name. -/
  | unnamedCommand
  /-- A command in a list is no map, or its name cannot be a key. -/
  | notCommand
  /-- A pattern is no text. -/
  | patternNotText
  | badPattern (e : RegexError)

/-- A part of a vocabulary with what does not fit left out, and the problems. -/
abbrev Checked (α : Type) := α × List DataProblem

namespace Vocabulary

/-! ## Commands -/

/-- The digits of a numeral, with single underscores between them. -/
def numeralDigits? : Text → Option Text
  | [] => some []
  | '_' :: c :: r => if c.isDigit then (numeralDigits? r).map (c :: ·) else none
  | c :: r => if c.isDigit then (numeralDigits? r).map (c :: ·) else none

/-- The whole number that a text stands for: a sign, digits, and possibly a point with zeros after
it. -/
def numeral? (t : Text) : Option Int := do
  let (negative, t) := Text.signed (Text.trim t)
  let whole := Text.before '.' t
  let zeros := (Text.after? '.' t).getD []
  guard (zeros.all (· = '0') && whole.head?.any Char.isDigit)
  let n ← Text.digits? 10 (← numeralDigits? whole)
  return if negative then -(n : Int) else n

/-- The whole number that is given as the least number of arguments. -/
def leastOf (v : Value) : Except DataProblem.Code Int :=
  match v with
  | .bool b => return if b then 1 else 0
  | .int n => return n
  | .float x =>
    match Decimal.Parts.ofFloat x with
    | .nan | .infinite _ => throw .infinite
    | _ =>
      match Decimal.toInt? x with
      | some n => return n
      | none => throw .fractional
  | .text t =>
    match numeral? t with
    | some n => return n
    | none => throw .notNumeral
  | _ => throw .notNumber

/-- A command with a least number of arguments. -/
def commandWithLeast (key : Text) (v : Value) : Except DataProblem CommandInfo :=
  let path := ["commands".toList, key, "min_required_args".toList]
  match leastOf v with
  | .error code => throw ⟨path, code⟩
  | .ok n => if n < 0 then throw ⟨path, .negative⟩ else return ⟨key, n.toNat⟩

/-- A command from its name and what is said about it. -/
def commandOf (key : Text) : Value → Except DataProblem CommandInfo
  | .null => return ⟨key, 0⟩
  | .bool b => commandWithLeast key (.bool b)
  | .int n => commandWithLeast key (.int n)
  | .map entries =>
    match Value.field? "min_required_args" entries with
    | none => return ⟨key, 0⟩
    | some v => commandWithLeast key v
  | _ => throw ⟨["commands".toList, key], .notRecord⟩

/-- Names become keys in lower case without blanks around them; the later of two names with one key
wins. -/
def byKey {α : Type} (entries : List (Value × α)) : List (Text × α) :=
  entries.foldl
    (fun found (name, x) =>
      let key := Text.lower (Text.trim name.name)
      (key, x) :: found.filter (·.1 ≠ key))
    []

/-- A list of descriptions as a map from their names. -/
def commandEntries (items : List Value) : Except DataFault (List (Value × Value)) :=
  items.foldlM
    (fun found item =>
      match item with
      | .map entries =>
        match Value.field? "name" entries with
        | none => throw .unnamedCommand
        | some name =>
          if name.isKey then return Value.insertEntry name item found else throw .notCommand
      | _ => throw .notCommand)
    []

/-- The commands of a map, those without a problem, and the problems. -/
def commandsOfEntries (entries : List (Value × Value)) :
    List (Text × CommandInfo) × List DataProblem :=
  (byKey entries).foldr
    (fun (key, v) (found, problems) =>
      match commandOf key v with
      | .ok info => ((key, info) :: found, problems)
      | .error problem => (found, problem :: problems))
    ([], [])

/-- The commands that data gives. -/
def commandsOf : Value → Except DataFault (Checked (List (Text × CommandInfo)))
  | .list items | .tuple items => return commandsOfEntries (← commandEntries items)
  | .map entries => return commandsOfEntries entries
  | _ => return ([], [⟨["commands".toList], .notMap⟩])

/-! ## Names and patterns -/

/-- The names that data gives. -/
def namesOf (field : String) : Value → Except DataFault (Checked (List Text))
  | .text t => return ([Text.lower (Text.trim t)], [])
  | .list items | .tuple items | .keys items =>
    return ((items.map fun v => Text.lower (Text.trim v.name)).eraseDups, [])
  | _ => return ([], [⟨[field.toList], .notNames⟩])

/-- A pattern for names. -/
def patternOf (t : Text) : Except DataFault NamePattern :=
  match Regex.parse t with
  | .ok regex => return ⟨t, regex⟩
  | .error e => throw (.badPattern e)

/-- The patterns that data gives. -/
def patternsOf (field : String) : Value → Except DataFault (Checked (List NamePattern))
  | .text t => return ([← patternOf t], [])
  | .list items | .tuple items => do
    let patterns ← items.mapM fun
      | .text t => patternOf t
      | _ => throw .patternNotText
    return (patterns, [])
  | _ => return ([], [⟨[field.toList], .notPatterns⟩])

/-! ## Vocabularies -/

/-- Why data is no vocabulary. -/
inductive Refusal where
  | problems (ps : List DataProblem)
  | fault (f : DataFault)

/-- A field that is not given is empty. -/
def fieldOf {α : Type} (entries : List (Value × Value)) (field : String)
    (check : String → Value → Except DataFault (Checked (List α))) :
    Except DataFault (Checked (List α)) :=
  match Value.field? field entries with
  | none => return ([], [])
  | some v => check field v

/-- The vocabulary of a map of fields, and the problems. -/
def ofFields (entries : List (Value × Value)) : Except DataFault (Checked Vocabulary) := do
  let (commands, p₁) ← fieldOf entries "commands" fun _ => commandsOf
  let (mechanisms, p₂) ← fieldOf entries "mechanisms" namesOf
  let (tagBases, p₃) ← fieldOf entries "tag_bases" namesOf
  let (tagParts, p₄) ← fieldOf entries "tag_parts" namesOf
  let (actions, p₅) ← fieldOf entries "actions" namesOf
  let (actionPatterns, p₆) ← fieldOf entries "action_patterns" patternsOf
  let (events, p₇) ← fieldOf entries "events" namesOf
  let (eventPatterns, p₈) ← fieldOf entries "event_patterns" patternsOf
  return (
    { commands, mechanisms, tagBases, tagParts, actions, actionPatterns, events, eventPatterns },
    p₁ ++ p₂ ++ p₃ ++ p₄ ++ p₅ ++ p₆ ++ p₇ ++ p₈)

/-- The vocabulary that data gives. -/
def ofData : Value → Except Refusal Vocabulary
  | .map entries =>
    match ofFields entries with
    | .error fault => throw (.fault fault)
    | .ok (v, []) => return v
    | .ok (_, problems) => throw (.problems (DataProblem.sorted problems))
  | _ => throw (.problems [⟨[], .notRecord⟩])

/-- The vocabulary with given commands only, each under its key. A repeated key keeps its first
place. -/
def ofCommands (commands : List (Text × CommandInfo)) : Vocabulary :=
  let entries : List (Value × CommandInfo) :=
    commands.foldl (fun found (key, info) => Value.insertEntry (.text key) info found) []
  { commands := byKey entries }

/-- The message for a vocabulary that is refused; an empty source is left out. -/
def wording (source : Option Text) (reason : String) : String :=
  match source.filter (!·.isEmpty) with
  | some s => "Invalid vocabulary from " ++ s.string ++ ": " ++ reason
  | none => "Invalid vocabulary: " ++ reason

/-- Why a file holds no vocabulary. -/
inductive FileRefusal where
  /-- For a reason in words. -/
  | reason (text : String)
  /-- A value of the file is impossible. -/
  | value (fault : Yaml.ValueFault)
  | data (refusal : Refusal)

/-- The vocabulary that a file holds. -/
def ofFile (f : ConfigFile) : Except FileRefusal Vocabulary :=
  match f.load with
  | .error .missing => throw (.reason f.missingText)
  | .error (.yaml (.character code index)) =>
    throw (.reason (Yaml.characterText f.name code index))
  | .error (.yaml (.error e)) => throw (.reason (e.text f.name))
  | .error (.yaml (.value fault)) => throw (.value fault)
  | .ok data =>
    match data with
    | .map _ =>
      match ofData data with
      | .ok v => return v
      | .error refusal => throw (.data refusal)
    | _ => throw (.reason "top level must be a mapping")

end Vocabulary

end ScriptLint
