import ScriptLint.Text.Number
import ScriptLint.Value
import ScriptLint.Yaml.Node

/-!
# Values of YAML scalars

What a scalar stands for, by its tag: a truth value, a whole number in one of several bases, a
number with a fraction, a point in time, or bytes. A scalar may have a tag that its text does not
fit, and there are points in time that do not exist; the fault says which.
-/

namespace ScriptLint.Yaml

/-! ## Numbers -/

/-- The text without underscores. -/
def dropUnderscores (t : Text) : Text := t.filter (· ≠ '_')

/-- The sign of a number without underscores and its digits, if there is anything. -/
def numberParts (t : Text) : Except ValueFault (Bool × Text) :=
  if t.isEmpty then throw .emptyNumber else return Text.signed t

/-- A number in base sixty from its fields, the last of which counts ones. -/
def ofSixtieths {α : Type} [Add α] [Mul α] (zero one sixty : α) (fields : List α) : α :=
  (fields.reverse.foldl (fun (sum, unit) field =>
    (sum + field * unit, unit * sixty)) (zero, one)).1

/-- A whole number in a given base. -/
def wholeIn (base : Nat) (t : Text) : Except ValueFault Int :=
  match Text.whole? base t with
  | some n => return n
  | none => throw (.notWhole base t)

/-- The whole number that a scalar stands for. -/
def wholeOf (t : Text) : Except ValueFault Int := do
  let (negative, t) ← numberParts (dropUnderscores t)
  let n ← match t with
    | [] => throw .emptyNumber
    | ['0'] => pure 0
    | '0' :: 'b' :: r => wholeIn 2 r
    | '0' :: 'x' :: r => wholeIn 16 r
    | '0' :: _ => wholeIn 8 t
    | _ =>
      if t.contains ':' then do
        let fields ← (Text.fields ':' t).mapM (wholeIn 10)
        pure (ofSixtieths 0 1 60 fields)
      else wholeIn 10 t
  return if negative then -n else n

/-- A number with a fraction. -/
def decimalIn (t : Text) : Except ValueFault Float :=
  match Text.decimal? t with
  | some x => return x
  | none => throw (.notNumber t)

/-- The number with a fraction that a scalar stands for. -/
def decimalOf (t : Text) : Except ValueFault Float := do
  let (negative, t) ← numberParts (Text.lower (dropUnderscores t))
  let x ←
    if t = ".inf".toList then pure (1 / 0)
    else if t = ".nan".toList then return 0 / 0
    else if t.contains ':' then do
      let fields ← (Text.fields ':' t).mapM decimalIn
      pure (ofSixtieths 0 1 60 fields)
    else decimalIn t
  return if negative then -x else x

/-- The truth value that a scalar stands for. -/
def truthOf (t : Text) : Except ValueFault Bool :=
  let name := Text.lower t
  if ["yes", "true", "on"].contains name.string then return true
  else if ["no", "false", "off"].contains name.string then return false
  else throw (.notTruth name)

/-! ## Points in time -/

/-- The number of days of a month. -/
def daysIn (year month : Nat) : Nat :=
  if month = 2 then if (year % 4 = 0 ∧ year % 100 ≠ 0) ∨ year % 400 = 0 then 29 else 28
  else if month = 4 ∨ month = 6 ∨ month = 9 ∨ month = 11 then 30
  else 31

/-- There is such a day. -/
def checkDay (year month day : Nat) : Except ValueFault Unit := do
  if year = 0 then throw (.year year)
  if month = 0 ∨ 12 < month then throw .month
  if day = 0 ∨ daysIn year month < day then throw .day

/-- There is such a time of day. -/
def checkTime (hour minute second : Nat) : Except ValueFault Unit := do
  if 23 < hour then throw .hour
  if 59 < minute then throw .minute
  if 59 < second then throw .second

/-- The microseconds of a fraction of a second. -/
def microseconds (fraction : Text) : Nat :=
  let ds := fraction.take 6
  (Text.digits? 10 (ds ++ List.replicate (6 - ds.length) '0')).getD 0

/-- The offset of a point in time, in minutes. An offset of a day or more is refused. -/
def WrittenMoment.minutes (m : WrittenMoment) : Except ValueFault (Option Int) :=
  match m.offset with
  | none => return if m.utc then some 0 else none
  | some (west, hours, minutes) =>
    let n : Int := 60 * hours + minutes
    let n := if west then -n else n
    if 1440 ≤ n.natAbs then throw (.offset n) else return some n

/-- The point in time that a scalar stands for. A line feed at its end is ignored. -/
def momentOf (t : Text) : Except ValueFault Moment := do
  let t := if t.getLast? = some '\n' then t.dropLast else t
  match writtenMoment? t with
  | none => throw .notMoment
  | some m =>
    match m.time with
    | none =>
      checkDay m.year m.month m.day
      return { year := m.year, month := m.month, day := m.day }
    | some (hour, minute, second) =>
      let offset ← m.minutes
      checkDay m.year m.month m.day
      checkTime hour minute second
      return {
        year := m.year, month := m.month, day := m.day, offset
        time := some (hour, minute, second, microseconds m.fraction) }

/-! ## Bytes -/

/-- The six bits that a character of a base64 text stands for. -/
def sixBits? (c : Char) : Option Nat :=
  if c.isUpper then some (c.toNat - 'A'.toNat)
  else if c.isLower then some (c.toNat - 'a'.toNat + 26)
  else if c.isDigit then some (c.toNat - '0'.toNat + 52)
  else if c = '+' then some 62
  else if c = '/' then some 63
  else none

/-- The bytes of a base64 text. `place` is the place in the group of four characters, `left` what
is left of the last character, `pads` counts the equals signs since then, and `size` the bytes so
far. All other characters are ignored, and a finished group with equals signs ends the text. -/
def decode64 (place left pads size : Nat) : Text → Except Problem (List Nat)
  | [] =>
    if place = 0 then return []
    else if place = 1 then
      throw (.notBase64 ("Invalid base64-encoded string: number of data characters (" ++
        toString (size / 3 * 4 + 1) ++ ") cannot be 1 more than a multiple of 4"))
    else throw (.notBase64 "Incorrect padding")
  | c :: r =>
    if c = '=' then
      if 2 ≤ place then
        if 4 ≤ place + pads + 1 then return [] else decode64 place left (pads + 1) size r
      else decode64 place left pads size r
    else
      match sixBits? c with
      | none => decode64 place left pads size r
      | some n =>
        match place with
        | 0 => decode64 1 n 0 size r
        | 1 => return (4 * left + n / 16) :: (← decode64 2 (n % 16) 0 (size + 1) r)
        | 2 => return (16 * left + n / 4) :: (← decode64 3 (n % 4) 0 (size + 1) r)
        | _ => return (64 * left + n) :: (← decode64 0 0 0 (size + 1) r)

/-- The run of characters outside of ASCII that comes first, by its first and last index. -/
def foreignRun? (index : Nat) : Text → Option (Char × Nat × Nat)
  | [] => none
  | c :: r =>
    if c.toNat < 128 then foreignRun? (index + 1) r
    else some (c, index, index + (r.takeWhile fun d => 128 ≤ d.toNat).length)

/-- The bytes that a scalar stands for. -/
def bytesOf (t : Text) : Except Problem (List Nat) :=
  match foreignRun? 0 t with
  | some (c, first, last) =>
    let which := if first = last then
        "character " ++ "'" ++ (Text.codeText c).string ++ "' in position " ++ toString first
      else "characters in position " ++ toString first ++ "-" ++ toString last
    throw (.notAscii ("'ascii' codec can't encode " ++ which ++ ": ordinal not in range(128)"))
  | none => decode64 0 0 0 0 t

end ScriptLint.Yaml
