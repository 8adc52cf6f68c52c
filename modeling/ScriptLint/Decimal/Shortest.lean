/-!
# Shortest decimals

A floating-point number stands for an interval of reals: those that are nearer to it than to its
neighbours. Its shortest decimal is the one with the fewest digits in that interval, and of several
the nearest. The digits are found by exact integer arithmetic: for one digit, two digits and so on,
the two decimals of that many digits around the number are tested (`Binary.shortest`). How digits
are laid out in a text is a separate decision (`Layout`).
-/

namespace ScriptLint.Decimal

/-- The positive number `mantissa · 2 ^ exponent` of a floating-point format. -/
structure Binary where
  mantissa : Nat
  exponent : Int
  /-- The neighbour below is half as far away as the one above. -/
  closerBelow : Bool

/-- A positive fraction. -/
structure Fraction where
  num : Nat
  den : Nat

namespace Fraction

/-- `num · 2 ^ exponent`. -/
def ofBinary (num : Nat) (exponent : Int) : Fraction :=
  if 0 ≤ exponent then ⟨num * Nat.pow 2 exponent.toNat, 1⟩ else ⟨num, Nat.pow 2 (-exponent).toNat⟩

/-- `num · 10 ^ exponent`. -/
def ofDecimal (num : Nat) (exponent : Int) : Fraction :=
  if 0 ≤ exponent then ⟨num * Nat.pow 10 exponent.toNat, 1⟩
  else ⟨num, Nat.pow 10 (-exponent).toNat⟩

/-- The first fraction is below the second. -/
def lt (a b : Fraction) : Bool := a.num * b.den < b.num * a.den

/-- The distance of two fractions. -/
def distance (a b : Fraction) : Fraction :=
  let x := a.num * b.den
  let y := b.num * a.den
  ⟨if x < y then y - x else x - y, a.den * b.den⟩

/-- The power of ten at or below a fraction, at most `limit` below one. -/
def magnitude (f : Fraction) (limit : Nat) : Int :=
  if f.den ≤ f.num then ((Nat.toDigits 10 (f.num / f.den)).length : Int) - 1
  else
    match (List.range limit).find? fun k => f.den ≤ f.num * Nat.pow 10 k with
    | some k => -(k : Int)
    | none => -(limit : Int)

end Fraction

namespace Binary

/-- The fraction a number is. -/
def value (b : Binary) : Fraction := .ofBinary b.mantissa b.exponent

/-- The fraction lies among the reals that round to the number. The ends of the interval do if the
mantissa is even. -/
def holds (b : Binary) (f : Fraction) : Bool :=
  let below := if b.closerBelow then Fraction.ofBinary (4 * b.mantissa - 1) (b.exponent - 2)
    else Fraction.ofBinary (2 * b.mantissa - 1) (b.exponent - 1)
  let above := Fraction.ofBinary (2 * b.mantissa + 1) (b.exponent - 1)
  if b.mantissa % 2 = 0 then !f.lt below && !above.lt f else below.lt f && f.lt above

/-- The decimal of `n` digits nearest to the number that rounds to it, as digits and the power of
ten of the last one. -/
def withDigits? (b : Binary) (n : Nat) : Option (Nat × Int) :=
  let v := b.value
  let unit : Int := v.magnitude 400 - (n - 1 : Nat)
  let scaled : Fraction := if 0 ≤ unit then ⟨v.num, v.den * Nat.pow 10 unit.toNat⟩
    else ⟨v.num * Nat.pow 10 (-unit).toNat, v.den⟩
  let floor := scaled.num / scaled.den
  let fits := [floor, floor + 1].filter fun d => b.holds (.ofDecimal d unit)
  match fits with
  | [] => none
  | [d] => some (d, unit)
  | d :: e :: _ =>
    let toD := (Fraction.ofDecimal d unit).distance v
    let toE := (Fraction.ofDecimal e unit).distance v
    some (if toE.lt toD then e else d, unit)

/-- The shortest decimal of the number: its digits, and the power of ten of the last one. Seventeen
digits are always enough. -/
def shortest (b : Binary) : Nat × Int :=
  ((List.range 17).findSome? fun n => b.withDigits? (n + 1)).getD (b.mantissa, 0)

end Binary

/-- A double by its sign and its size, or the mark for what is no number. -/
inductive Parts where
  | nan
  | infinite (negative : Bool)
  | zero (negative : Bool)
  | finite (negative : Bool) (value : Binary)

/-- The parts of a double, read off its bits. -/
def Parts.ofFloat (x : Float) : Parts :=
  let bits := x.toBits.toNat
  let negative := bits / Nat.pow 2 63 = 1
  let exponent : Nat := bits / Nat.pow 2 52 % Nat.pow 2 11
  let fraction : Nat := bits % Nat.pow 2 52
  if exponent = 2047 then if fraction = 0 then .infinite negative else .nan
  else if exponent = 0 then
    if fraction = 0 then .zero negative else .finite negative ⟨fraction, -1074, false⟩
  else .finite negative ⟨Nat.pow 2 52 + fraction, (exponent : Int) - 1075,
    fraction = 0 && 1 < exponent⟩

/-- The whole number that a double is, if it is one. -/
def toInt? (x : Float) : Option Int :=
  match Parts.ofFloat x with
  | .nan | .infinite _ => none
  | .zero _ => some 0
  | .finite negative b =>
    let f := b.value
    if f.num % f.den = 0 then
      some (if negative then -((f.num / f.den : Nat) : Int) else (f.num / f.den : Nat))
    else none

/-- Which decimals are written without an exponent: those whose point stands after more than
`fewest` and at most `most` digits, where a negative count means zeros after the point. -/
structure Layout where
  fewest : Int
  most : Int

/-- The digits with a point, or with an exponent of at least two digits. -/
def Layout.write (layout : Layout) (digits : Nat) (exponent : Int) : String :=
  let ds := Nat.toDigits 10 digits
  let ds := (ds.reverse.dropWhile (· = '0')).reverse
  let point : Int := (Nat.toDigits 10 digits).length + exponent
  if layout.fewest < point ∧ point ≤ layout.most then
    if point ≤ 0 then "0." ++ String.ofList (List.replicate (-point).toNat '0' ++ ds)
    else
      let whole := ds.take point.toNat ++ List.replicate (point.toNat - ds.length) '0'
      let rest := ds.drop point.toNat
      String.ofList whole ++ "." ++ (if rest.isEmpty then "0" else String.ofList rest)
  else
    let e := point - 1
    let size := Nat.toDigits 10 e.natAbs
    String.ofList (ds.take 1) ++
      (if ds.length ≤ 1 then "" else "." ++ String.ofList (ds.drop 1)) ++
      "e" ++ (if e < 0 then "-" else "+") ++ (if size.length < 2 then "0" else "") ++
      String.ofList size

end ScriptLint.Decimal
