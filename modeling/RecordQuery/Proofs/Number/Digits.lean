import RecordQuery.Number.Digits

/-!
Digits that are written and read again. A natural number is written in digits only, so that it cannot be taken for one
with a sign, and zeros in front do not change it. An integer of 64 bits reads back from its text.
-/
namespace RecordQuery.Number

theorem isDigit_toDigits (n : Nat) : ∀ d ∈ Nat.toDigits 10 n, d.isDigit = true :=
  fun _ hd => Nat.isDigit_of_mem_toDigits (by decide) (by decide) hd

/-- Digits begin with no sign. -/
theorem digits_ne_signed {ds : List Char} (h : ∀ d ∈ ds, d.isDigit = true) :
    (∀ rest, ds ≠ '-' :: rest) ∧ ∀ rest, ds ≠ '+' :: rest := by
  constructor <;> rintro rest rfl <;> exact absurd (h _ List.mem_cons_self) (by decide)

theorem natural?_toDigits (n : Nat) : natural? (Nat.toDigits 10 n) = some n := by
  have hne : (Nat.toDigits 10 n).isEmpty = false := List.isEmpty_eq_false_iff.mpr Nat.toDigits_ne_nil
  have hall : (Nat.toDigits 10 n).all Char.isDigit = true := List.all_eq_true.mpr (isDigit_toDigits n)
  rw [natural?, hne, hall]
  exact congrArg some Nat.ofDigitChars_ten_toDigits

/-! ## Fixed widths -/

theorem isDigit_padded (width n : Nat) : ∀ d ∈ padded width n, d.isDigit = true := by
  intro d hd
  rcases List.mem_append.mp hd with hzero | hdigit
  · obtain rfl := (List.mem_replicate.mp hzero).2
    rfl
  · exact isDigit_toDigits n d hdigit

theorem ofDigits_padded (width n : Nat) : ofDigits (padded width n) = n := by
  rw [ofDigits, padded, Nat.ofDigitChars_append, Nat.ofDigitChars_replicate_zero, Nat.mul_zero]
  exact Nat.ofDigitChars_ten_toDigits

theorem length_padded {width n : Nat} (hwidth : 0 < width) (h : n < Nat.pow 10 width) :
    (padded width n).length = width := by
  have hlength := (Nat.length_toDigits_le_iff (by decide) hwidth).mpr h
  rw [padded, List.length_append, List.length_replicate]
  omega

/-! ## Integers -/

/-- An integer is written in digits, behind a minus sign if it is negative. -/
theorem toList_toString (n : Int) : (toString n).toList =
    if n < 0 then '-' :: Nat.toDigits 10 n.natAbs else Nat.toDigits 10 n.natAbs := by
  cases n with
  | ofNat n =>
    show (toString n).toList = _
    rw [Nat.toString_eq_ofList_toDigits, String.toList_ofList]
    rfl
  | negSucc n =>
    show ("-" ++ toString (n + 1)).toList = _
    have hnat : (Int.negSucc n).natAbs = n + 1 := rfl
    rw [if_pos (Int.negSucc_lt_zero n), hnat, Nat.toString_eq_ofList_toDigits]
    simp

theorem int64?_digits {ds : List Char} (h : ∀ d ∈ ds, d.isDigit = true) :
    int64? ds = ((natural? ds).map Int.ofNat).filter isInt64 := by
  obtain ⟨hminus, hplus⟩ := digits_ne_signed h
  rw [int64?]
  · exact hminus
  · exact hplus

theorem int64?_toString {n : Int} (h : isInt64 n = true) : int64? (toString n).toList = some n := by
  rw [toList_toString]
  split
  · rename_i hneg
    have hnat : -(n.natAbs : Int) = n := by omega
    rw [int64?, natural?_toDigits]
    show (some (-(n.natAbs : Int))).filter isInt64 = some n
    rw [hnat, Option.filter_some, if_pos h]
  · rename_i hpos
    have hnat : (n.natAbs : Int) = n := by omega
    rw [int64?_digits (isDigit_toDigits n.natAbs), natural?_toDigits]
    show (some (n.natAbs : Int)).filter isInt64 = some n
    rw [hnat, Option.filter_some, if_pos h]

end RecordQuery.Number
