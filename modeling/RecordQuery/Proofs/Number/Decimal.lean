import RecordQuery.Number.Decimal
import RecordQuery.Proofs.Number.Digits
import Mathlib.Data.List.TakeDrop
import Mathlib.Data.List.TakeWhile

/-!
Integers among the decimals. The text of an integer that fits a coefficient reads as the decimal of the integer: no
digit is given up, there are no places, and zero has no sign.
-/
namespace RecordQuery.Decimal

theorem le_ofDigitChars (ds : List Char) (n : Nat) : n ≤ Nat.ofDigitChars 10 ds n := by
  rw [Nat.ofDigitChars_eq_ofDigitChars_zero]
  have hpow : 0 < 10 ^ ds.length := Nat.pow_pos (by decide)
  have hmul : 1 * n ≤ 10 ^ ds.length * n := Nat.mul_le_mul_right n hpow
  omega

/-- Digits are read one after another for as long as the coefficient has room for them. -/
theorem magnitude_digits {ds : List Char} {coefficient : Nat} {started : Bool} (h : ∀ d ∈ ds, d.isDigit = true)
    (hstarted : started = true ∨ ds ≠ []) (hle : Nat.ofDigitChars 10 ds coefficient ≤ maxCoefficient) :
    magnitude coefficient 0 false started ds = some (Nat.ofDigitChars 10 ds coefficient, 0) := by
  induction ds generalizing coefficient started with
  | nil =>
    obtain rfl : started = true := hstarted.resolve_right (by simp)
    rfl
  | cons d ds ih =>
    obtain ⟨hd, hds⟩ := List.forall_mem_cons.mp h
    rw [Nat.ofDigitChars_cons] at hle ⊢
    have hnext : 10 * coefficient + Number.digitValue d ≤ maxCoefficient :=
      Nat.le_trans (le_ofDigitChars ds _) hle
    rw [magnitude, if_pos hd]
    simp only [hnext, if_true, Bool.not_false]
    exact ih hds (.inl rfl) hle

/-- Digits behind an optional sign. -/
theorem ofText?_of_splitSign {cs ds : List Char} {minus : Bool} (hsign : splitSign cs = (minus, ds))
    (h : ∀ d ∈ ds, d.isDigit = true) (hne : ds ≠ []) (hle : Number.ofDigits ds ≤ maxCoefficient) :
    ofText? cs = some ⟨minus && Number.ofDigits ds ≠ 0, Number.ofDigits ds, 0⟩ := by
  have hplain : ∀ d ∈ ds, (d != 'e' && d != 'E') = true := by
    intro d hd
    have hdigit := h d hd
    rw [Bool.and_eq_true, bne_iff_ne, bne_iff_ne]
    constructor <;> rintro rfl <;> revert hdigit <;> decide
  have hspan : ds.span (fun c => c != 'e' && c != 'E') = (ds, []) := by
    rw [List.span_eq_takeWhile_dropWhile, List.takeWhile_eq_self_iff.mpr hplain, List.dropWhile_eq_nil_iff.mpr hplain]
  have hmagnitude := magnitude_digits h (.inr hne : false = true ∨ ds ≠ []) hle
  simp only [ofText?, hsign, hspan, hmagnitude]
  rfl

theorem ofText?_toString {n : Int} (h : n.natAbs ≤ maxCoefficient) : ofText? (toString n).toList = some (.ofInt n) := by
  have hdigits := Number.isDigit_toDigits n.natAbs
  have hvalue : Number.ofDigits (Nat.toDigits 10 n.natAbs) = n.natAbs := Nat.ofDigitChars_ten_toDigits
  have hle : Number.ofDigits (Nat.toDigits 10 n.natAbs) ≤ maxCoefficient := hvalue.symm ▸ h
  rw [Number.toList_toString]
  split
  · rename_i hneg
    have hsign : splitSign ('-' :: Nat.toDigits 10 n.natAbs) = (true, Nat.toDigits 10 n.natAbs) := rfl
    rw [ofText?_of_splitSign hsign hdigits Nat.toDigits_ne_nil hle, hvalue, ofInt]
    simp [hneg, Int.ne_of_lt hneg]
  · rename_i hpos
    have hsign : splitSign (Nat.toDigits 10 n.natAbs) = (false, Nat.toDigits 10 n.natAbs) := by
      obtain ⟨hminus, hplus⟩ := Number.digits_ne_signed hdigits
      rw [splitSign]
      · exact hminus
      · exact hplus
    rw [ofText?_of_splitSign hsign hdigits Nat.toDigits_ne_nil hle, hvalue, ofInt]
    simp [hpos]

end RecordQuery.Decimal
