import RecordQuery.Number.Digits

/-!
Decimal numbers: a sign, a coefficient below 2^96 and up to 28 fraction places. Trailing zeros are part of
a decimal, so that it is written as it was read, and are not part of its value: `1.0` and `1.00` compare
equal, and so do the two zeros.

Reading rounds half up, away from zero, at the first digit that no longer fits. A zero that is written as
one has no sign, whatever stands in front of it; a number that its exponent makes too small keeps the sign.
-/
namespace RecordQuery

/-- The decimal `± coefficient / 10 ^ scale`. -/
structure Decimal where
  negative : Bool
  coefficient : Nat
  scale : Nat
deriving DecidableEq, Repr

namespace Decimal

/-- One less than `2 ^ 96`. -/
def maxCoefficient : Nat := 79228162514264337593543950335

def maxScale : Nat := 28

def ofInt (n : Int) : Decimal :=
  ⟨n < 0, n.natAbs, 0⟩

/-- The value in units of the last place. -/
def units (d : Decimal) : Int :=
  if d.negative then -d.coefficient else d.coefficient

/-- Decimals are ordered by value: both sides are brought to one scale. -/
instance : Ord Decimal where
  compare a b := compare (a.units * Nat.pow 10 b.scale) (b.units * Nat.pow 10 a.scale)

/-- All places are written, and at least one digit before the point. -/
def toText (d : Decimal) : String :=
  let ds := Number.padded (d.scale + 1) d.coefficient
  let whole := ds.take (ds.length - d.scale)
  let fraction := ds.drop (ds.length - d.scale)
  let sign := if d.negative then ['-'] else []
  String.ofList (sign ++ whole ++ if fraction.isEmpty then [] else '.' :: fraction)

/-! ## Reading -/

/-- A magnitude while it is read: the coefficient and the number of fraction places. -/
abbrev Magnitude := Nat × Nat

/-- One more in the last place; a coefficient that no longer fits gives up that place. -/
def roundUp : Magnitude → Option Magnitude
  | (coefficient, scale) =>
    if coefficient < maxCoefficient then some (coefficient + 1, scale)
    else match scale with
      | 0 => none
      | scale + 1 => some ((coefficient + 5) / 10, scale)

/-- Gives up the digits that do not fit. The first of them decides the rounding, a separator there counting
as a zero, and nothing else than digits and separators may be given up. -/
def cut (magnitude : Magnitude) (dropped : List Char) : Option Magnitude :=
  if dropped.all fun c => c.isDigit || c = '_' then
    match dropped with
    | d :: _ => if d.isDigit && 5 ≤ Number.digitValue d then roundUp magnitude else some magnitude
    | [] => some magnitude
  else none

/-- Below this coefficient, a separator right after the last place ends the number. -/
def separatorBound : Nat := 1844674407370954906

/-- All places are used. Separators right after the last one are passed over, unless the coefficient `before`
that place was below `separatorBound`. -/
def full (before coefficient : Nat) (rest : List Char) : Option Magnitude :=
  cut (coefficient, maxScale) (if before < separatorBound then rest else rest.dropWhile (· = '_'))

/-- Reads digits, separators after a digit, and one point. `started` tells whether a digit has been read. -/
def magnitude (coefficient scale : Nat) (point started : Bool) : List Char → Option Magnitude
  | [] => if started then some (coefficient, scale) else none
  | c :: rest =>
    if c.isDigit then
      let next := 10 * coefficient + Number.digitValue c
      if next ≤ maxCoefficient then
        if !point then magnitude next scale false true rest
        else if scale + 1 = maxScale then full coefficient next rest
        else magnitude next (scale + 1) true true rest
      else if point then cut (coefficient, scale) (c :: rest)
      else none
    else if c = '.' && !point then magnitude coefficient scale true started rest
    else if c = '_' && started then magnitude coefficient scale point started rest
    else none

/-- The sign in front of a number, and the text after it. -/
def splitSign : List Char → Bool × List Char
  | '-' :: cs => (true, cs)
  | '+' :: cs => (false, cs)
  | cs => (false, cs)

/-- Moves the point to the left. Past the last place the coefficient is rounded half up. -/
def lower (exponent : Nat) : Magnitude → Magnitude
  | (coefficient, scale) =>
    if scale + exponent ≤ maxScale then (coefficient, scale + exponent)
    else
      let unit := Nat.pow 10 (scale + exponent - maxScale)
      ((coefficient + unit / 2) / unit, maxScale)

/-- Moves the point to the right, past the last digit if need be. -/
def raise (exponent : Nat) : Magnitude → Option Magnitude
  | (coefficient, scale) =>
    if exponent ≤ scale then some (coefficient, scale - exponent)
    else
      let raised := coefficient * Nat.pow 10 (exponent - scale)
      if raised ≤ maxCoefficient then some (raised, 0) else none

/-- Applies the exponent of a number in scientific form; no exponent exceeds the number of places. -/
def applyExponent (m : Magnitude) (cs : List Char) : Option Magnitude :=
  match cs with
  | '-' :: cs => do
    let exponent ← Number.count? cs
    if exponent ≤ maxScale then some (lower exponent m) else none
  | cs => do
    let exponent ← Number.count? cs
    if exponent ≤ maxScale then raise exponent m else none

/-- Reads a number in plain form (`-12.50`, `.5`, `1_000`) or in scientific form (`1.5e3`, `2E-4`). The number in
front of the exponent decides whether there is a sign. -/
def ofText? (cs : List Char) : Option Decimal := do
  let (minus, cs) := splitSign cs
  let (plain, exponent) := cs.span fun c => c != 'e' && c != 'E'
  let m ← magnitude 0 0 false false plain
  let (coefficient, scale) ← match exponent with
    | [] => some m
    | _ :: exponent => applyExponent m exponent
  some ⟨minus && m.1 ≠ 0, coefficient, scale⟩

end Decimal

end RecordQuery
