import RecordQuery.Json.Basic
import RecordQuery.Number.Shortest

/-!
The numbers of JSON text. A floating-point number is read from at most 64 bits of significand: digits past them
only move the exponent.
-/
namespace RecordQuery.Json

/-! ## Reading -/

/-- Appends digits to a significand of 64 bits for as long as it fits, and counts those left over. -/
def accumulate (significand : Nat) : List Char → Nat × Nat
  | [] => (significand, 0)
  | d :: ds =>
    let next := 10 * significand + Number.digitValue d
    if Number.isNat64 next then accumulate next ds else (significand, ds.length + 1)

/-- The number with these parts of its text. An integer of 64 bits stays one, but for `-0`; any other number is
floating-point, and must be in range. -/
def numeral? (negative : Bool) (whole : List Char) (fraction : Option (List Char))
    (exponent : Option Int) : Option Numeral :=
  let float : Option Numeral :=
    let ds := fraction.getD []
    let (significand, overWhole) := accumulate 0 whole
    let (significand, overFraction) := accumulate significand ds
    let places : Int := ds.length - overFraction
    (Binary64.ofScientific? negative significand (exponent.getD 0 + overWhole - places)).map .float
  if fraction.isNone && exponent.isNone then
    let n := Number.ofDigits whole
    if negative then if n ≠ 0 && Number.isInt64 (-n) then some (.int (-n)) else float
    else if Number.isNat64 n then some (.int n) else float
  else float

/-- Reads digits, at least one, and gives the text after them. -/
def digits? (cs : List Char) : Option (List Char × List Char) :=
  let ds := cs.takeWhile Char.isDigit
  if ds.isEmpty then none else some (ds, cs.dropWhile Char.isDigit)

def fraction? (cs : List Char) : Option (Option (List Char) × List Char) :=
  match cs with
  | '.' :: cs => (digits? cs).map fun (ds, rest) => (some ds, rest)
  | cs => some (none, cs)

def exponent? (cs : List Char) : Option (Option Int × List Char) :=
  match cs with
  | c :: rest =>
    if c = 'e' || c = 'E' then
      match rest with
      | '-' :: rest => (digits? rest).map fun (ds, rest) => (some (-Number.ofDigits ds), rest)
      | '+' :: rest => (digits? rest).map fun (ds, rest) => (some (Number.ofDigits ds : Int), rest)
      | rest => (digits? rest).map fun (ds, rest) => (some (Number.ofDigits ds : Int), rest)
    else some (none, cs)
  | [] => some (none, cs)

/-- Whether a text starts with a minus sign, and the text after it. -/
def splitMinus : List Char → Bool × List Char
  | '-' :: cs => (true, cs)
  | cs => (false, cs)

/-- Reads a number. A whole part of several digits does not start with zero. -/
def number? (cs : List Char) : Option (Numeral × List Char) := do
  let (whole, rest) ← digits? (splitMinus cs).2
  if 1 < whole.length ∧ whole.head? = some '0' then none
  else
    let (fraction, rest) ← fraction? rest
    let (exponent, rest) ← exponent? rest
    let n ← numeral? (splitMinus cs).1 whole fraction exponent
    some (n, rest)

theorem digits?_length {cs ds rest : List Char} (h : digits? cs = some (ds, rest)) :
    rest.length < cs.length := by
  simp only [digits?, Option.ite_none_left_eq_some, Option.some.injEq, Prod.mk.injEq] at h
  obtain ⟨hne, rfl, rfl⟩ := h
  have hlen := congrArg List.length (List.takeWhile_append_dropWhile (p := Char.isDigit) (l := cs))
  have := List.length_pos_iff.2 (show cs.takeWhile Char.isDigit ≠ [] by simpa using hne)
  simp only [List.length_append] at hlen
  omega

theorem fraction?_length {cs rest : List Char} {ds : Option (List Char)}
    (h : fraction? cs = some (ds, rest)) : rest.length ≤ cs.length := by
  unfold fraction? at h
  split at h
  · obtain ⟨⟨ds', rest'⟩, h', heq⟩ := Option.map_eq_some_iff.1 h
    simp only [Prod.mk.injEq] at heq
    have := digits?_length h'
    simp only [List.length_cons, ← heq.2]
    omega
  · simp only [Option.some.injEq, Prod.mk.injEq] at h
    simp [h.2]

theorem exponent?_length {cs rest : List Char} {e : Option Int}
    (h : exponent? cs = some (e, rest)) : rest.length ≤ cs.length := by
  unfold exponent? at h
  split at h
  · split at h
    · split at h <;>
      · obtain ⟨⟨ds', rest'⟩, h', heq⟩ := Option.map_eq_some_iff.1 h
        simp only [Prod.mk.injEq] at heq
        have := digits?_length h'
        simp only [List.length_cons, ← heq.2]
        omega
    · simp only [Option.some.injEq, Prod.mk.injEq] at h
      simp [h.2]
  · simp only [Option.some.injEq, Prod.mk.injEq] at h
    simp [h.2]

theorem number?_length {cs rest : List Char} {n : Numeral} (h : number? cs = some (n, rest)) :
    rest.length < cs.length := by
  have hminus : (splitMinus cs).2.length ≤ cs.length := by unfold splitMinus; split <;> simp
  simp only [number?, Option.bind_eq_bind, Option.bind_eq_some_iff, Option.ite_none_left_eq_some,
    Option.some.injEq, Prod.mk.injEq] at h
  obtain ⟨⟨_, _⟩, hw, _, ⟨_, _⟩, hf, ⟨_, _⟩, he, _, _, _, rfl⟩ := h
  have := digits?_length hw
  have := fraction?_length hf
  have := exponent?_length he
  dsimp only at *
  omega

/-! ## Writing -/

/-- Writes a number: an integer as its digits, a floating-point number with the fewest that read back. -/
def numeralText : Numeral → String
  | .int n => toString n
  | .float x => x.toText

end RecordQuery.Json
