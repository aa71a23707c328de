import Mathlib.Algebra.Order.Field.Rat
import Mathlib.Tactic.NormNum

/-!
# Python floats

A `float` is an IEEE 754 binary64 number: a finite `Double`, an infinity or not a number. A finite
double is held by its sign, its integer significand and its binary exponent, in the one normal form
(`Double.normal`), so that two doubles are the same number with the same sign exactly when they are
the same value here.

`Double.trunc` is `int()` of a finite float and `PyFloat.repr` the shortest text that reads back as
the same float, in the layout of `float.__repr__`.
-/

set_option autoImplicit false

namespace Python

/-- A finite binary64 number, `(-1) ^ neg * significand * 2 ^ exponent`. -/
structure Double where
  neg : Bool
  significand : Nat
  exponent : Int
  significand_lt : significand < 2 ^ 53
  exponent_ge : -1074 ≤ exponent
  exponent_le : exponent ≤ 971
  normal : 2 ^ 52 ≤ significand ∨ exponent = -1074
deriving DecidableEq

namespace Double

/-- The magnitude as a fraction, numerator and positive denominator. -/
def fraction (d : Double) : Nat × Nat :=
  (d.significand * 2 ^ d.exponent.toNat, 2 ^ (-d.exponent).toNat)

/-- The number a double stands for. -/
def toRat (d : Double) : ℚ :=
  (if d.neg then -1 else 1) * (d.fraction.1 / d.fraction.2 : ℚ)

/-- `int()` of a finite float: its integer part, the fraction cut off. -/
def trunc (d : Double) : Int :=
  (if d.neg then -1 else 1) * ((d.fraction.1 / d.fraction.2 : Nat) : Int)

/-- Whether a double stands for an integer. -/
def IsIntegral (d : Double) : Prop := d.fraction.2 ∣ d.fraction.1

instance (d : Double) : Decidable d.IsIntegral := inferInstanceAs (Decidable (_ ∣ _))

theorem fraction_snd_pos (d : Double) : 0 < d.fraction.2 := Nat.two_pow_pos _

/-- A double and its integer part are the same number exactly when it has no fraction. -/
theorem toRat_eq_trunc_iff (d : Double) : d.toRat = (d.trunc : ℚ) ↔ d.IsIntegral := by
  have hpos : (d.fraction.2 : ℚ) ≠ 0 := by exact_mod_cast d.fraction_snd_pos.ne'
  have hsign : ((if d.neg then -1 else 1 : Int) : ℚ) = if d.neg then -1 else 1 := by
    split <;> norm_num
  have hne : (if d.neg then -1 else 1 : ℚ) ≠ 0 := by split <;> norm_num
  unfold toRat trunc IsIntegral
  rw [Int.cast_mul, hsign, mul_right_inj' hne, div_eq_iff hpos]
  constructor
  · intro h
    refine ⟨d.fraction.1 / d.fraction.2, ?_⟩
    rw [mul_comm]
    exact_mod_cast h
  · intro h
    exact_mod_cast (Nat.div_mul_cancel h).symm

/-! ## The shortest decimal that reads back -/

/-- Whether the decimal `digits * 10 ^ scale` rounds to the (positive) double: it lies between the
midpoints to the neighbours, on one of them only where the significand is even. Below a power of two
the neighbour is half as far. Everything is in quarters of the last binary place. -/
def readsBack (d : Double) (digits : Nat) (scale : Int) : Bool :=
  let below := if d.significand = 2 ^ 52 ∧ d.exponent ≠ -1074 then 1 else 2
  let e := d.exponent - 2
  let x := digits * 10 ^ scale.toNat * 2 ^ (-e).toNat
  let unit := 2 ^ e.toNat * 10 ^ (-scale).toNat
  let lo := (4 * d.significand - below) * unit
  let hi := (4 * d.significand + 2) * unit
  if d.significand % 2 = 0 then decide (lo ≤ x ∧ x ≤ hi) else decide (lo < x ∧ x < hi)

/-- The position of the decimal point: the `p` with `10 ^ (p - 1) ≤ d < 10 ^ p`. -/
def decimalPoint (d : Double) : Int :=
  let (num, den) := d.fraction
  if den ≤ num then (Nat.toDigits 10 (num / den)).length
  else -(((List.range 330).find? fun j => decide (den ≤ num * 10 ^ (j + 1))).getD 0 : Int)

/-- The decimal of `n` digits nearest to the double among the two around it that read back. -/
def candidate (d : Double) (n : Nat) : Option (Nat × Int) :=
  let scale := d.decimalPoint - n
  let (num, den) := d.fraction
  let num := num * 10 ^ (-scale).toNat
  let den := den * 10 ^ scale.toNat
  let lo := num / den
  let rest := 2 * (num % den)
  let first := if rest < den ∨ (rest = den ∧ lo % 2 = 0) then lo else lo + 1
  let second := if first = lo then lo + 1 else lo
  if d.readsBack first scale then some (first, scale)
  else if d.readsBack second scale then some (second, scale)
  else none

/-- Digits and power of ten of the shortest decimal that reads back; 17 digits always do. -/
def shortest (d : Double) : Nat × Int :=
  ((List.range 17).findSome? fun n => d.candidate (n + 1)).getD (0, 0)

/-- Decimal digits without the trailing zeros. -/
def significantDigits (digits : Nat) : List Char :=
  ((Nat.toDigits 10 digits).reverse.dropWhile (· == '0')).reverse

/-- Lay out digits with the decimal point after the first `point` of them, as `repr` does. -/
def layout (digits : List Char) (point : Int) : List Char :=
  if -4 < point ∧ point ≤ 16 then
    if point ≤ 0 then '0' :: '.' :: List.replicate (-point).toNat '0' ++ digits
    else if (digits.length : Int) ≤ point then
      digits ++ List.replicate (point.toNat - digits.length) '0' ++ ['.', '0']
    else digits.take point.toNat ++ '.' :: digits.drop point.toNat
  else
    let exponent := point - 1
    let expDigits := Nat.toDigits 10 exponent.natAbs
    let mantissa := match digits with
      | [c] => [c]
      | c :: cs => c :: '.' :: cs
      | [] => []
    mantissa ++ 'e' :: (if exponent < 0 then '-' else '+') ::
      (List.replicate (2 - expDigits.length) '0' ++ expDigits)

/-- `repr()` of a finite float. -/
def repr (d : Double) : String :=
  let sign := if d.neg then ['-'] else []
  if d.significand = 0 then String.ofList (sign ++ ['0', '.', '0'])
  else
    let (digits, scale) := d.shortest
    let point := (Nat.toDigits 10 digits).length + scale
    String.ofList (sign ++ layout (significantDigits digits) point)

end Double

/-- A Python float. -/
inductive PyFloat
  | finite (d : Double)
  | inf (neg : Bool)
  | nan
deriving DecidableEq

/-- `repr()` of a float, which is also its `str()`. -/
def PyFloat.repr : PyFloat → String
  | .finite d => d.repr
  | .inf false => "inf"
  | .inf true => "-inf"
  | .nan => "nan"

end Python
