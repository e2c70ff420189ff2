import ImportTrail.Text.Basic

/-!
Decimal fractions as binary floating point numbers of 64 bits, and the shortest decimal that names
such a number. Rounding goes to the nearest number, a tie to the even one; all arithmetic is exact,
on natural numbers.
-/

namespace ImportTrail.Decimal

open Text

/-- A floating point number. A finite one is `mantissa * 2 ^ exponent`, with a sign. -/
inductive Floating where
  | notANumber
  | infinite (negative : Bool)
  | finite (negative : Bool) (mantissa : Nat) (exponent : Int)
  deriving DecidableEq, Repr

/-- The quotient rounded to the nearest number, a tie to the even one. -/
def roundDiv (n d : Nat) : Nat :=
  let q := n / d
  let r := n % d
  if 2 * r < d then q else if d < 2 * r then q + 1 else q + q % 2

/-- The fraction `n / d` divided by `2 ^ e`, as numerator and denominator. -/
def scaleBinary (n d : Nat) (e : Int) : Nat × Nat :=
  if 0 ≤ e then (n, d * Nat.pow 2 e.toNat) else (n * Nat.pow 2 (-e).toNat, d)

/-- The fraction `n / d` divided by `10 ^ e`, as numerator and denominator. -/
def scaleDecimal (n d : Nat) (e : Int) : Nat × Nat :=
  if 0 ≤ e then (n, d * Nat.pow 10 e.toNat) else (n * Nat.pow 10 (-e).toNat, d)

/-- The least exponent of a floating point number. -/
def leastExponent : Int := -1074

/-- The floating point number nearest to the positive fraction `n / d`. -/
def nearest (negative : Bool) (n d : Nat) : Floating :=
  let guess : Int := (Nat.log2 n : Int) - Nat.log2 d - 52
  let (a, b) := scaleBinary n d (guess + 52)
  let e := max (if b ≤ a then guess else guess - 1) leastExponent
  let (a, b) := scaleBinary n d e
  let m := roundDiv a b
  let (m, e) := if m = Nat.pow 2 53 then (Nat.pow 2 52, e + 1) else (m, e)
  if e > 971 then .infinite negative else .finite negative m e

/-- The floating point number nearest to `digits * 10 ^ exponent`. -/
def toFloating (negative : Bool) (digits : Nat) (exponent : Int) : Floating :=
  let size : Int := (Nat.toDigits 10 digits).length + exponent
  if digits = 0 ∨ size < -330 then .finite negative 0 leastExponent
  else if 310 < size then .infinite negative
  else if 0 ≤ exponent then nearest negative (digits * Nat.pow 10 exponent.toNat) 1
  else nearest negative digits (Nat.pow 10 (-exponent).toNat)

/-! ### The shortest decimal -/

/-- The power of a base as numerator and denominator. -/
def power (base : Nat) (e : Int) : Nat × Nat :=
  if 0 ≤ e then (Nat.pow base e.toNat, 1) else (1, Nat.pow base (-e).toNat)

/-- The multiple of `10 ^ e` nearest to `m * 2 ^ x` among those that round to it. Numbers are
compared in quarters of `2 ^ x`, where the neighbours' midpoints are whole. -/
def onGrid? (m : Nat) (x e : Int) : Option Nat :=
  let (tn, td) := power 10 e
  let (un, ud) := power 2 (x - 2)
  let step := tn * ud
  let unit := un * td
  let mid := 4 * m * unit
  let high := (4 * m + 2) * unit
  let low := (if m = Nat.pow 2 52 ∧ leastExponent < x then 4 * m - 1 else 4 * m - 2) * unit
  let inside (k : Nat) : Bool :=
    if m % 2 = 0 then low ≤ k * step && k * step ≤ high else low < k * step && k * step < high
  let k := mid / step
  match inside k, inside (k + 1) with
  | true, true => some (if 2 * mid ≤ (2 * k + 1) * step then k else k + 1)
  | true, false => some k
  | false, true => some (k + 1)
  | false, false => none

/-- How many digits of `n / d` stand before the point; negative for zeros after it. -/
def wholeDigits (n d : Nat) : Int :=
  let i := (List.range 640).find? fun (i : Nat) =>
    let (a, b) := scaleDecimal n d ((i : Int) - 330)
    decide (a < b)
  (i.getD 0 : Int) - 330

/-- The digits of the shortest decimal for `m * 2 ^ x`, and how many stand before the point. -/
def shortest (m : Nat) (x : Int) : Nat × Int :=
  let (n, d) := scaleBinary m 1 (-x)
  let p := wholeDigits n d
  let found := (List.range 17).findSome? fun (i : Nat) =>
    (onGrid? m x (p - (i : Int) - 1)).map fun k => (k, i + 1)
  match found with
  | some (k, i) => if k = Nat.pow 10 i then (1, p + 1) else (k, p)
  | none => (0, 1)

/-- A decimal in positional form, with a point and at least one digit after it. -/
def positional (digits : Nat) (point : Int) : Text :=
  let ds := Nat.toDigits 10 digits
  if point ≤ 0 then "0.".toList ++ List.replicate (-point).toNat '0' ++ ds
  else
    let p := point.toNat
    if ds.length ≤ p then ds ++ List.replicate (p - ds.length) '0' ++ ".0".toList
    else ds.take p ++ '.' :: ds.drop p

/-- The text of a floating point number: the fewest digits that name it, without an exponent. -/
def Floating.text : Floating → Text
  | .notANumber => "NaN".toList
  | .infinite negative => (if negative then ['-'] else []) ++ "inf".toList
  | .finite negative m x =>
    (if negative then ['-'] else []) ++
      if m = 0 then "0.0".toList
      else
        let (digits, point) := shortest m x
        positional digits point

end ImportTrail.Decimal
