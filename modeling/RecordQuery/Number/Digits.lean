/-!
Numbers written in decimal digits. The digits are the ASCII ones. A signed integer has 64 bits, and so
has a count, which takes no minus sign.
-/
namespace RecordQuery.Number

def digitValue (c : Char) : Nat :=
  c.toNat - '0'.toNat

/-- The value of a run of digits, the empty run being zero. -/
def ofDigits (ds : List Char) : Nat :=
  Nat.ofDigitChars 10 ds 0

/-- Reads a text that is digits from end to end, and not empty. -/
def natural? (cs : List Char) : Option Nat :=
  if !cs.isEmpty && cs.all Char.isDigit then some (ofDigits cs) else none

/-- The integers of 64 bits. -/
def isInt64 (n : Int) : Bool :=
  -9223372036854775808 ≤ n && n ≤ 9223372036854775807

/-- The natural numbers of 64 bits. -/
def isNat64 (n : Nat) : Bool :=
  n ≤ 18446744073709551615

/-- Reads an integer of 64 bits, with an optional sign. -/
def int64? (cs : List Char) : Option Int :=
  let value? : Option Int := match cs with
    | '-' :: ds => (natural? ds).map fun n => -n
    | '+' :: ds => (natural? ds).map Int.ofNat
    | ds => (natural? ds).map Int.ofNat
  value?.filter isInt64

/-- Reads a count of 64 bits, with an optional plus sign. -/
def count? (cs : List Char) : Option Nat :=
  let value? := match cs with
    | '+' :: ds => natural? ds
    | ds => natural? ds
  value?.filter isNat64

/-- Writes a natural number on at least `width` digits. -/
def padded (width n : Nat) : List Char :=
  let ds := Nat.toDigits 10 n
  List.replicate (width - ds.length) '0' ++ ds

end RecordQuery.Number
