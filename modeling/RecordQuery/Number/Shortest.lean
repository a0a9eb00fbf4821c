import RecordQuery.Number.Binary64
import RecordQuery.Number.Digits

/-!
The text of a floating-point number: the fewest digits that read back as the number and, among those, the
nearest to it. The digits are found on the coarsest grid of powers of ten that has a point in the interval of
the values that round to the number; if any point of a grid lies there, so does one of the number's two
neighbours on it.
-/
namespace RecordQuery.Binary64

/-- A positive number with the ends of the interval that rounds to it, all over one denominator. -/
structure Rounding where
  low : Nat
  value : Nat
  high : Nat
  den : Nat
  closed : Bool

/-- The interval ends halfway to the neighbours, of which the lower one is nearer at a power of two. The ends
belong to it when the significand is even. -/
def rounding (x : Binary64) : Rounding :=
  let m := x.significand
  let (up, den) := rescale 1 1 (2 - x.exponent)
  let below := if m = Nat.pow 2 (precision - 1) ∧ minExponent < x.exponent then 1 else 2
  ⟨(4 * m - below) * up, 4 * m * up, (4 * m + 2) * up, den, m % 2 = 0⟩

/-- Whether `d * 10 ^ p` rounds to the number. -/
def Rounding.admits (r : Rounding) (d : Nat) (p : Int) : Bool :=
  let point := d * Nat.pow 10 p.toNat * r.den
  let unit := Nat.pow 10 (-p).toNat
  if r.closed then r.low * unit ≤ point && point ≤ r.high * unit
  else r.low * unit < point && point < r.high * unit

/-- The point of the grid `10 ^ p` that stands for the number: of its two neighbours there the one that reads
back, of two such the nearer, of two as near the even one. -/
def Rounding.onGrid? (r : Rounding) (p : Int) : Option Nat :=
  let num := r.value * Nat.pow 10 (-p).toNat
  let den := r.den * Nat.pow 10 p.toNat
  let below := num / den
  let nearest := roundHalfEven num den
  if r.admits nearest p then some nearest
  else if r.admits below p then some below
  else if r.admits (below + 1) p then some (below + 1)
  else none

/-- Tries ever finer grids; 17 digits always read back. -/
def Rounding.search (r : Rounding) (p : Int) : Nat → Nat × Int
  | 0 => ((r.onGrid? p).getD 0, p)
  | tries + 1 =>
    match r.onGrid? p with
    | some d => (d, p)
    | none => r.search (p - 1) tries

/-- Digits `d` and an exponent `p` with the number written `d * 10 ^ p`. -/
def shortest (x : Binary64) : Nat × Int :=
  if x.significand = 0 then (0, 0)
  else
    let (num, den) := x.fraction
    x.rounding.search ((binade num den + 1) * 30103 / 100000 + 2) 20

/-- How the digits are laid out: positional when the point falls at most `wide` digits to the right of the
first digit's place or less than `narrow` zeros before it, and scientific otherwise. -/
structure Layout where
  wide : Int
  narrow : Int

/-- Numbers from `1e-5` up to below `1e16` are positional. -/
def layout : Layout := ⟨16, 5⟩

/-- Writes the number, with at least one fraction digit in positional form and the sign of a positive
exponent in scientific form. -/
def toText (x : Binary64) : String :=
  let (d, p) := x.shortest
  let ds := Nat.toDigits 10 d
  let point := ds.length + p
  let sign := if x.negative then ['-'] else []
  let zeros (n : Int) := List.replicate n.toNat '0'
  let body :=
    if x.significand = 0 then ['0', '.', '0']
    else if 0 < point ∧ point ≤ layout.wide then
      if 0 ≤ p then ds ++ zeros p ++ ['.', '0']
      else ds.take point.toNat ++ '.' :: ds.drop point.toNat
    else if -layout.narrow < point ∧ point ≤ 0 then '0' :: '.' :: zeros (-point) ++ ds
    else
      let fraction := if ds.length = 1 then [] else '.' :: ds.drop 1
      let exponent := point - 1
      let mark := if exponent < 0 then '-' else '+'
      ds.take 1 ++ fraction ++ 'e' :: mark :: Nat.toDigits 10 exponent.natAbs
  String.ofList (sign ++ body)

end RecordQuery.Binary64
