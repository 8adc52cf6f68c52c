import ScriptLint.Decimal.Shortest
import ScriptLint.Text.Quoted

/-!
# Data values

Settings and vocabularies come as data of any shape: the values of a configuration file. A map
keeps its keys in the order in which they came first. Numbers and truth values count as the same
key if they are equal as numbers (`Value.sameKey`). Names may be given as values of any kind, which
then stand for how they are written (`Value.text`).
-/

namespace ScriptLint

/-- A point in time as it is written, and whether it is a day only. -/
structure Moment where
  year : Nat
  month : Nat
  day : Nat
  /-- Hour, minute, second and microsecond. -/
  time : Option (Nat × Nat × Nat × Nat) := none
  /-- Minutes east of the prime meridian. -/
  offset : Option Int := none
deriving DecidableEq, Repr

/-- A value of a configuration file. -/
inductive Value where
  | null
  | bool (b : Bool)
  | int (n : Int)
  | float (x : Float)
  | text (t : Text)
  | bytes (bs : List Nat)
  | moment (m : Moment)
  | list (items : List Value)
  /-- A list of fixed length. -/
  | tuple (items : List Value)
  /-- Keys without values. -/
  | keys (items : List Value)
  | map (entries : List (Value × Value))
deriving Inhabited

/-- How numbers with a fraction are written in names: positionally from one ten-thousandth up to
sixteen whole digits. -/
def numberLayout : Decimal.Layout := ⟨-4, 16⟩

/-- A number with a fraction as it is written. -/
def floatText (x : Float) : String :=
  let sign (negative : Bool) := if negative then "-" else ""
  match Decimal.Parts.ofFloat x with
  | .nan => "nan"
  | .infinite negative => sign negative ++ "inf"
  | .zero negative => sign negative ++ "0.0"
  | .finite negative b =>
    let (digits, exponent) := b.shortest
    sign negative ++ numberLayout.write digits exponent

/-- A number with zeros in front, up to `width` digits. -/
def padded (width n : Nat) : String :=
  let digits := Nat.toDigits 10 n
  String.ofList (List.replicate (width - digits.length) '0' ++ digits)

/-- A point in time as it is written. -/
def Moment.text (m : Moment) : String :=
  let day := padded 4 m.year ++ "-" ++ padded 2 m.month ++ "-" ++ padded 2 m.day
  let time := match m.time with
    | none => ""
    | some (h, mi, s, us) =>
      " " ++ padded 2 h ++ ":" ++ padded 2 mi ++ ":" ++ padded 2 s ++
        (if us = 0 then "" else "." ++ padded 6 us)
  let offset := match m.offset with
    | none => ""
    | some o =>
      (if o < 0 then "-" else "+") ++ padded 2 (o.natAbs / 60) ++ ":" ++ padded 2 (o.natAbs % 60)
  day ++ time ++ offset

namespace Value

mutual

/-- A value as it is written inside another one. -/
def inner : Value → String
  | null => "None"
  | bool b => if b then "True" else "False"
  | int n => toString n
  | float x => floatText x
  | text t => (Text.quoted t).string
  | bytes bs => "b" ++ (Text.quotedBytes bs).string
  | moment m => m.text
  | list items => "[" ++ ", ".intercalate (innerList items) ++ "]"
  | tuple items =>
    "(" ++ ", ".intercalate (innerList items) ++ (if items.length = 1 then ",)" else ")")
  | keys items =>
    if items.isEmpty then "set()" else "\x7b" ++ ", ".intercalate (innerList items) ++ "\x7d"
  | map entries => "\x7b" ++ ", ".intercalate (innerEntries entries) ++ "\x7d"

/-- Values as they are written inside another one. -/
def innerList : List Value → List String
  | [] => []
  | v :: vs => inner v :: innerList vs

/-- Entries as they are written inside a map. -/
def innerEntries : List (Value × Value) → List String
  | [] => []
  | (k, v) :: es => (inner k ++ ": " ++ inner v) :: innerEntries es

end

/-- A value as a name: a text stands for itself. -/
def name : Value → Text
  | text t => t
  | v => (inner v).toList

/-- A number, be it whole, with a fraction or a truth value. -/
def number? : Value → Option Float
  | bool b => some (if b then 1 else 0)
  | int n => some (Float.ofInt n)
  | float x => some x
  | _ => none

/-- The whole number that a value is, if it is one: truth values count as zero and one. -/
def whole? : Value → Option Int
  | bool b => some (if b then 1 else 0)
  | int n => some n
  | _ => none

/-- The value can be a key of a map. -/
def isKey : Value → Bool
  | list _ | keys _ | map _ => false
  | tuple items => items.attach.all fun ⟨v, _⟩ => isKey v
  | _ => true

/-- Two values are the same key. -/
def sameKey : Value → Value → Bool
  | null, null => true
  | text a, text b => a = b
  | bytes a, bytes b => a = b
  | moment a, moment b => a = b
  | tuple (a :: as), tuple (b :: bs) => sameKey a b && sameKey (tuple as) (tuple bs)
  | tuple [], tuple [] => true
  | a, b =>
    match whole? a, whole? b with
    | some m, some n => m = n
    | _, _ =>
      match number? a, number? b with
      | some x, some y => x == y
      | _, _ => false

/-- The value takes the place of the key's value, or comes last with its key. -/
def insertEntry {α : Type} (key : Value) (value : α) : List (Value × α) → List (Value × α)
  | [] => [(key, value)]
  | (k, v) :: rest =>
    if sameKey k key then (k, value) :: rest else (k, v) :: insertEntry key value rest

/-- The value of a text key in a map. -/
def field? (key : String) : List (Value × Value) → Option Value
  | [] => none
  | (.text t, v) :: rest => if t = key.toList then some v else field? key rest
  | _ :: rest => field? key rest

/-- The value counts as true: it is not zero and not empty. -/
def truthy : Value → Bool
  | null => false
  | bool b => b
  | int n => n ≠ 0
  | float x => !(x == 0)
  | text t => !t.isEmpty
  | bytes bs => !bs.isEmpty
  | moment _ => true
  | list items | tuple items | keys items => !items.isEmpty
  | map entries => !entries.isEmpty

end Value

end ScriptLint
