import ScriptLint.Text.Case

/-!
# Numbers in texts

Numbers may be padded with blanks and have a sign, and their digits may be those of any script. A
whole number may name its base in front, if it is the one that is expected (`whole?`). A number
with a fraction may have an exponent and may be infinite or no number at all (`decimal?`).
-/

namespace ScriptLint.Text

/-- The sign of a number and the rest of its text. -/
def signed (t : Text) : Bool × Text :=
  match t with
  | '-' :: r => (true, r)
  | '+' :: r => (false, r)
  | r => (false, r)

/-- The number that a digit stands for in bases up to sixteen. -/
def digitOf? (base : Nat) (c : Char) : Option Nat :=
  let value := match digit? c with
    | some d => some d
    | none =>
      if 'a' ≤ c ∧ c ≤ 'f' then some (c.toNat - 'a'.toNat + 10)
      else if 'A' ≤ c ∧ c ≤ 'F' then some (c.toNat - 'A'.toNat + 10)
      else none
  value.filter (· < base)

/-- The number that digits stand for. -/
def digits? (base : Nat) (t : Text) : Option Nat :=
  if t.isEmpty then none
  else t.foldl (fun n c => do return base * (← n) + (← digitOf? base c)) (some 0)

/-- The text without the mark of a base. -/
def dropBase (base : Nat) : Text → Text
  | '0' :: m :: r =>
    if base = 2 ∧ (m = 'b' ∨ m = 'B') ∨ base = 8 ∧ (m = 'o' ∨ m = 'O') ∨
      base = 16 ∧ (m = 'x' ∨ m = 'X') then r
    else '0' :: m :: r
  | t => t

/-- The whole number that a text stands for. -/
def whole? (base : Nat) (t : Text) : Option Int :=
  let (negative, r) := signed (trim t)
  (digits? base (dropBase base r)).map fun n => if negative then -(n : Int) else n

/-- The double nearest to `digits · 10 ^ exponent`; a number of more than 310 digits before the
point is infinite, and one with more than 400 zeros after it is zero. -/
def scaled (digits : Nat) (exponent : Int) : Float :=
  let size := ((Nat.toDigits 10 digits).length : Int) + exponent
  if digits = 0 ∨ size < -400 then 0
  else if 310 < size then 1 / 0
  else if exponent < 0 then Float.ofScientific digits true exponent.natAbs
  else Float.ofScientific digits false exponent.natAbs

/-- The digits that a text begins with, as their number and how many there are, and the rest. -/
def digitRun (t : Text) : Nat × Nat × Text :=
  let ds := t.takeWhile isDigit
  ((digits? 10 ds).getD 0, ds.length, t.dropWhile isDigit)

/-- The exponent at the end of a number. -/
def exponent? : Text → Option Int
  | [] => some 0
  | e :: r =>
    if e = 'e' ∨ e = 'E' then
      let (negative, r) := signed r
      (digits? 10 r).map fun n => if negative then -(n : Int) else n
    else none

/-- A number without a sign. -/
def unsigned? (t : Text) : Option Float :=
  let name := (lower t).string
  if name = "inf" ∨ name = "infinity" then some (1 / 0)
  else if name = "nan" then some (0 / 0)
  else
    let (whole, wholeSize, r) := digitRun t
    let (part, partSize, r) := match r with
      | '.' :: r => digitRun r
      | r => (0, 0, r)
    if wholeSize + partSize = 0 then none
    else (exponent? r).map fun e => scaled (whole * Nat.pow 10 partSize + part) (e - partSize)

/-- The number with a fraction that a text stands for. -/
def decimal? (t : Text) : Option Float :=
  let (negative, r) := signed (trim t)
  (unsigned? r).map fun x => if negative then -x else x

end ScriptLint.Text
