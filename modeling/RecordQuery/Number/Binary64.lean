/-!
Finite binary floating-point numbers of 64 bits, as a significand and an exponent. A number is rounded from a
quotient of natural numbers, to the nearest one that the format holds, ties going to the even significand.
-/
namespace RecordQuery

/-- The number `± significand * 2 ^ exponent`. The significand has at most 53 bits, and fewer only at the least
exponent, `-1074`. -/
structure Binary64 where
  negative : Bool
  significand : Nat
  exponent : Int
deriving DecidableEq, Repr

namespace Binary64

def precision : Nat := 53

def minExponent : Int := -1074

def maxExponent : Int := 971

def zero (negative : Bool) : Binary64 :=
  ⟨negative, 0, minExponent⟩

/-- The fraction `num / den * 2 ^ -exponent`, as a numerator and a denominator. -/
def rescale (num den : Nat) (exponent : Int) : Nat × Nat :=
  (num * Nat.pow 2 (-exponent).toNat, den * Nat.pow 2 exponent.toNat)

/-- The integer nearest to `num / den`; a half goes to the even neighbour. -/
def roundHalfEven (num den : Nat) : Nat :=
  let q := num / den
  let twice := 2 * (num % den)
  if twice < den || (twice = den && q % 2 = 0) then q else q + 1

/-- The greatest `k` with `2 ^ k ≤ num / den`. -/
def binade (num den : Nat) : Int :=
  let k : Int := (num.log2 : Int) - den.log2
  let (n, d) := rescale num den k
  if d ≤ n then k else k - 1

/-- The number nearest to `num / den`, or `none` if it is out of range. -/
def round? (negative : Bool) (num den : Nat) : Option Binary64 :=
  if num = 0 then some (zero negative)
  else
    let exponent := max minExponent (binade num den - (precision - 1 : Nat))
    let (n, d) := rescale num den exponent
    let significand := roundHalfEven n d
    let (significand, exponent) :=
      if significand = Nat.pow 2 precision then (Nat.pow 2 (precision - 1), exponent + 1)
      else (significand, exponent)
    if exponent ≤ maxExponent then some ⟨negative, significand, exponent⟩ else none

/-- The numerator and the denominator of the magnitude. -/
def fraction (x : Binary64) : Nat × Nat :=
  (x.significand * Nat.pow 2 x.exponent.toNat, Nat.pow 2 (-x.exponent).toNat)

/-- The value in units of the least positive number. -/
def units (x : Binary64) : Int :=
  let size : Int := x.significand * Nat.pow 2 (x.exponent - minExponent).toNat
  if x.negative then -size else size

/-- Numbers are ordered by value, the two zeros being equal. -/
instance : Ord Binary64 where
  compare x y := compare x.units y.units

def ofInt? (n : Int) : Option Binary64 :=
  round? (n < 0) n.natAbs 1

/-- The greatest power of ten in range. -/
def maxPower : Nat := 308

/-- Divides by `10 ^ power` in steps, each rounded; a step divides by at most `10 ^ maxPower`. -/
def divPower (x : Binary64) (power : Nat) : Option Binary64 :=
  if x.significand = 0 then some x
  else do
    let step := min power maxPower
    let (pn, pd) := (← round? false (Nat.pow 10 step) 1).fraction
    let (n, d) := x.fraction
    let quotient ← round? x.negative (n * pd) (d * pn)
    if power ≤ maxPower then some quotient else divPower quotient (power - maxPower)
termination_by power
decreasing_by simp [maxPower] at *; omega

/-- Multiplies by `10 ^ power`, rounding the power first and then the product. -/
def mulPower (x : Binary64) (power : Nat) : Option Binary64 :=
  if x.significand = 0 then some x
  else if power ≤ maxPower then do
    let (pn, pd) := (← round? false (Nat.pow 10 power) 1).fraction
    let (n, d) := x.fraction
    round? x.negative (n * pn) (d * pd)
  else none

/-- The number written `significand * 10 ^ exponent`: the significand, the power of ten and their product or
quotient are rounded one after the other. -/
def ofScientific? (negative : Bool) (significand : Nat) (exponent : Int) : Option Binary64 := do
  let x ← round? negative significand 1
  if exponent < 0 then x.divPower exponent.natAbs else x.mulPower exponent.natAbs

end Binary64

end RecordQuery
