import ScriptLint.Yaml.Token

/-!
# YAML nodes

A YAML document is a tree of scalars, sequences and mappings, each with a tag that says what kind
of value it stands for. A plain scalar without a tag gets one from how it is written
(`Tag.ofPlain`). A node may occur again where it is referred to by its anchor; inside of itself it
is a node that says only which kind of collection it is.
-/

namespace ScriptLint.Yaml

/-- What kind of value a node stands for. -/
inductive Tag where
  | null
  | bool
  | int
  | float
  | binary
  | timestamp
  | orderedMap
  | pairs
  | keySet
  | str
  | seq
  | map
  /-- The key of a mapping whose entries are taken over. -/
  | merge
  /-- The key of a mapping's default value. -/
  | default
  | other (name : Text)
deriving DecidableEq, Inhabited, Repr

namespace Tag

/-- What the names of the standard tags begin with. -/
def standardStart : Text := "tag:yaml.org,2002:".toList

/-- The standard tags. -/
def standard : List (String × Tag) := [
  ("null", null), ("bool", bool), ("int", int), ("float", float), ("binary", binary),
  ("timestamp", timestamp), ("omap", orderedMap), ("pairs", pairs), ("set", keySet), ("str", str),
  ("seq", seq), ("map", map), ("merge", merge), ("value", default)]

/-- The tag of a given name. -/
def ofName (name : Text) : Tag :=
  match standard.find? fun (s, _) => standardStart ++ s.toList = name with
  | some (_, tag) => tag
  | none => other name

/-- The name of a tag. -/
def name : Tag → Text
  | other n => n
  | tag =>
    match standard.find? fun (_, t) => t = tag with
    | some (s, _) => standardStart ++ s.toList
    | none => []

end Tag

/-! ## The tags of plain scalars -/

/-- The text without a sign in front of it. -/
def dropSign : Text → Text
  | '+' :: r => r
  | '-' :: r => r
  | t => t

/-- A digit or an underscore. -/
def isDigitMark (c : Char) : Bool := c.isDigit || c = '_'

/-- At least one character, all of which satisfy `p`. -/
def allOf (p : Char → Bool) (t : Text) : Bool := !t.isEmpty && t.all p

/-- A digit and then digits and underscores. -/
def isDigitRun (t : Text) : Bool := t.head?.any Char.isDigit && t.all isDigitMark

/-- A field of a number in base sixty: one or two digits below sixty. -/
def isSixtieth : Text → Bool
  | [a] => a.isDigit
  | [a, b] => '0' ≤ a && a ≤ '5' && b.isDigit
  | _ => false

/-- A whole number: binary, octal, decimal, hexadecimal or in base sixty. -/
def isIntText (t : Text) : Bool :=
  match dropSign t with
  | '0' :: 'b' :: r => allOf (fun c => c = '0' || c = '1' || c = '_') r
  | '0' :: 'x' :: r => allOf (fun c => isHex c || c = '_') r
  | '0' :: r => r.all fun c => ('0' ≤ c && c ≤ '7') || c = '_'
  | t =>
    match Text.fields ':' t with
    | first :: rest => isDigitRun first && rest.all isSixtieth
    | [] => false

/-- The end of a number with a fraction: nothing, or an exponent with a sign. -/
def isExponent : Text → Bool
  | [] => true
  | e :: s :: r => (e = 'e' || e = 'E') && (s = '+' || s = '-') && allOf Char.isDigit r
  | _ => false

/-- A number with a fraction, in base ten or sixty, or one of the special numbers. -/
def isFloatText (t : Text) : Bool :=
  let u := dropSign t
  let whole := u.takeWhile (· ≠ '.')
  match u.dropWhile (· ≠ '.') with
  | '.' :: r =>
    let ended := isExponent (r.dropWhile isDigitMark)
    if whole.isEmpty then
      ["inf", "Inf", "INF"].contains (Text.string r) ||
        (u = t && (["nan", "NaN", "NAN"].contains (Text.string r) ||
          (r.head?.any Char.isDigit && ended)))
    else if isDigitRun whole then ended
    else
      match Text.fields ':' whole with
      | first :: rest =>
        !rest.isEmpty && isDigitRun first && rest.all isSixtieth && r.all isDigitMark
      | [] => false
  | _ => false

/-- A text that begins with `least` to `most` digits: the number and the rest. -/
def digits? (least most : Nat) (t : Text) : Option (Nat × Text) :=
  let ds := (t.take most).takeWhile Char.isDigit
  if least ≤ ds.length then
    some (ds.foldl (fun n c => 10 * n + (c.toNat - '0'.toNat)) 0, t.drop ds.length)
  else none

/-- The text after a given character. -/
def char? (c : Char) : Text → Option Text
  | d :: r => if c = d then some r else none
  | [] => none

/-- A point in time as it is written, without regard to whether there is such a time. The offset
has its sign apart; coordinated time has no offset but is marked as such. -/
structure WrittenMoment where
  year : Nat
  month : Nat
  day : Nat
  time : Option (Nat × Nat × Nat) := none
  fraction : Text := []
  utc : Bool := false
  offset : Option (Bool × Nat × Nat) := none
deriving DecidableEq, Repr

/-- The offset of a time, to the end of the text. -/
def zone? (m : WrittenMoment) (t : Text) : Option WrittenMoment :=
  match t.dropWhile fun c => c = ' ' || c = '\t' with
  | ['Z'] => some { m with utc := true }
  | s :: r =>
    if s = '+' ∨ s = '-' then do
      let (hour, r) ← digits? 1 2 r
      match r with
      | [] => some { m with offset := some (s = '-', hour, 0) }
      | _ =>
        let (minute, r) ← (char? ':' r).bind (digits? 2 2)
        if r.isEmpty then some { m with offset := some (s = '-', hour, minute) } else none
    else none
  | [] => if t.isEmpty then some m else none

/-- A point in time: a day, or a day and a time of day with a fraction and an offset. -/
def writtenMoment? (t : Text) : Option WrittenMoment := do
  let (year, r) ← digits? 4 4 t
  let (month, r) ← (char? '-' r).bind (digits? 1 2)
  let (day, r) ← (char? '-' r).bind (digits? 1 2)
  let m : WrittenMoment := { year, month, day }
  match r with
  | [] => some m
  | c :: _ =>
    let r ← if c = 'T' ∨ c = 't' then some r.tail
      else if c = ' ' ∨ c = '\t' then some (r.dropWhile fun c => c = ' ' || c = '\t')
      else none
    let (hour, r) ← digits? 1 2 r
    let (minute, r) ← (char? ':' r).bind (digits? 2 2)
    let (second, r) ← (char? ':' r).bind (digits? 2 2)
    let m := { m with time := some (hour, minute, second) }
    match r with
    | '.' :: r => zone? { m with fraction := r.takeWhile Char.isDigit } (r.dropWhile Char.isDigit)
    | r => zone? m r

/-- A plain scalar is a point in time: a day needs two digits for its month and two for itself. -/
def isMomentText (t : Text) : Bool :=
  match writtenMoment? t with
  | some m => m.time.isSome || t.length = 10
  | none => false

/-- A truth value. -/
def isBoolText (t : Text) : Bool :=
  ["yes", "Yes", "YES", "no", "No", "NO", "true", "True", "TRUE", "false", "False", "FALSE",
    "on", "On", "ON", "off", "Off", "OFF"].contains t.string

/-- The tag that a plain scalar has by how it is written. A line feed at the end is no part of the
writing, unless there is nothing else. -/
def Tag.ofPlain (t : Text) : Tag :=
  let u := if t.length > 1 ∧ t.getLast? = some '\n' then t.dropLast else t
  if isBoolText u then .bool
  else if isFloatText u then .float
  else if isIntText u then .int
  else if u = ['<', '<'] then .merge
  else if ["", "~", "null", "Null", "NULL"].contains (Text.string u) then .null
  else if isMomentText u then .timestamp
  else if u = ['='] then .default
  else .str

/-! ## Nodes -/

/-- A node of a document with its tag and the place where it begins. -/
inductive Node where
  | scalar (tag : Tag) (text : Text) (place : Place)
  | sequence (tag : Tag) (items : List Node) (place : Place)
  | mapping (tag : Tag) (entries : List (Node × Node)) (place : Place)
  /-- A collection that the node itself is a part of. -/
  | enclosing (isMapping : Bool) (place : Place)
deriving Inhabited, Repr

namespace Node

/-- Where a node begins. -/
def place : Node → Place
  | scalar _ _ p | sequence _ _ p | mapping _ _ p | enclosing _ p => p

/-- What a node is called in messages. -/
def kindName : Node → String
  | scalar .. => "scalar"
  | sequence .. => "sequence"
  | mapping .. => "mapping"
  | enclosing isMapping _ => if isMapping then "mapping" else "sequence"

/-- The tag of a node; a collection around the node counts as untagged. -/
def tag : Node → Tag
  | scalar t _ _ | sequence t _ _ | mapping t _ _ => t
  | enclosing isMapping _ => if isMapping then .map else .seq

end Node

end ScriptLint.Yaml
