import RecordQuery.Proofs.Sorting.Definable
import Mathlib.Data.List.TakeWhile

/-!
Comparators are orders. Values of every type are ordered totally, up to values that count as the same, and
directions, absent values and further keys keep it so. Sorting by such a comparator puts the records in its order
and is stable: those that it finds equal to one record stay as they were.
-/
namespace RecordQuery

/-! ## Values -/

theorem Decimal.isLE_compare (a b : Decimal) :
    (compare a b).isLE = true ↔ a.units * Nat.pow 10 b.scale ≤ b.units * Nat.pow 10 a.scale :=
  Int.isLE_compare

/-- Both inequalities are brought to the common scale of all three numbers, and the middle scale is taken off. -/
theorem Decimal.isLE_trans {a b c : Decimal} (hab : (compare a b).isLE = true) (hbc : (compare b c).isLE = true) :
    (compare a c).isLE = true := by
  rw [isLE_compare] at hab hbc ⊢
  have hpos : ∀ n : Nat, (0 : Int) < Nat.pow 10 n := fun n => Int.natCast_pos.mpr (Nat.pow_pos (by decide))
  have hab' := Int.mul_le_mul_of_nonneg_right hab (Int.le_of_lt (hpos c.scale))
  have hbc' := Int.mul_le_mul_of_nonneg_right hbc (Int.le_of_lt (hpos a.scale))
  apply Int.le_of_mul_le_mul_right _ (hpos b.scale)
  calc a.units * Nat.pow 10 c.scale * Nat.pow 10 b.scale
      = a.units * Nat.pow 10 b.scale * Nat.pow 10 c.scale := Int.mul_right_comm _ _ _
    _ ≤ b.units * Nat.pow 10 a.scale * Nat.pow 10 c.scale := hab'
    _ = b.units * Nat.pow 10 c.scale * Nat.pow 10 a.scale := Int.mul_right_comm _ _ _
    _ ≤ c.units * Nat.pow 10 b.scale * Nat.pow 10 a.scale := hbc'
    _ = c.units * Nat.pow 10 a.scale * Nat.pow 10 b.scale := Int.mul_right_comm _ _ _

instance : Std.TransOrd Decimal where
  eq_swap {a b} := Std.OrientedOrd.eq_swap (a := a.units * Nat.pow 10 b.scale)
  isLE_trans := Decimal.isLE_trans

instance : Std.TransOrd Calendar.Date :=
  inferInstanceAs (Std.TransCmp (compareLex _ _))

instance : Std.TransOrd Calendar.Moment :=
  inferInstanceAs (Std.TransCmp (compareLex _ _))

namespace Calendar

theorem Date.compare_eq (a b : Date) : compare a b =
    (compare a.year b.year).then ((compare a.month b.month).then (compare a.day b.day)) := rfl

theorem Moment.compare_eq (a b : Moment) : compare a b =
    (compare a.date b.date).then ((compare a.hour b.hour).then ((compare a.minute b.minute).then
      ((compare a.second b.second).then (compare a.nanosecond b.nanosecond)))) := rfl

instance : Std.LawfulEqOrd Date where
  eq_of_compare {a b} h := by
    obtain ⟨year, month, day⟩ := a
    simp only [Date.compare_eq, Ordering.then_eq_eq, Std.LawfulEqCmp.compare_eq_iff_eq] at h
    obtain ⟨rfl, rfl, rfl⟩ := h
    rfl

instance : Std.LawfulEqOrd Moment where
  eq_of_compare {a b} h := by
    obtain ⟨date, hour, minute, second, nanosecond⟩ := a
    simp only [Moment.compare_eq, Ordering.then_eq_eq, Std.LawfulEqCmp.compare_eq_iff_eq] at h
    obtain ⟨rfl, rfl, rfl, rfl, rfl⟩ := h
    rfl

end Calendar

instance (type : Scalar) : Std.TransCmp type.order := by
  cases type
  all_goals exact inferInstanceAs (Std.TransCmp compare)

namespace Sorting

variable {ρ α : Type}

/-! ## Keys -/

instance (order : α → α → Ordering) [Std.TransCmp order] : Std.TransCmp (compareAbsent order) where
  eq_swap {a b} := by
    cases a with
    | none => cases b <;> rfl
    | some a =>
      cases b with
      | none => rfl
      | some b =>
        show order a b = (order b a).swap
        exact Std.OrientedCmp.eq_swap
  isLE_trans {a b c} hab hbc := by
    cases a with
    | none => cases c <;> rfl
    | some a =>
      cases b with
      | none => cases hab
      | some b =>
        cases c with
        | none => cases hbc
        | some c =>
          show (order a c).isLE = true
          exact Std.TransCmp.isLE_trans hab hbc

/-- Comparing by a value that each record has. -/
theorem transCmp_by (order : α → α → Ordering) [Std.TransCmp order] (value : ρ → α) :
    Std.TransCmp fun a b => order (value a) (value b) where
  eq_swap := Std.OrientedCmp.eq_swap
  isLE_trans := Std.TransCmp.isLE_trans

instance (direction : Direction) (c : Comparator ρ) [Std.TransCmp c] :
    Std.TransCmp fun a b => direction.apply (c a b) := by
  cases direction with
  | asc => exact inferInstanceAs (Std.TransCmp c)
  | desc =>
    have hswap : (fun a b => (c a b).swap) = fun a b => c b a := by
      funext a b
      exact Std.OrientedCmp.eq_swap.symm
    show Std.TransCmp fun a b => (c a b).swap
    rw [hswap]
    exact inferInstance

/-- By induction on how it is put together, a comparator of any keys, in any directions, is an order. -/
theorem Definable.transCmp {registry : Registry ρ} {c : Comparator ρ} (h : Definable registry c) : Std.TransCmp c := by
  induction h with
  | @key _ type read _ direction =>
    have := transCmp_by (compareAbsent type.order) fun record => type.value? (read record)
    infer_instance
  | @thenBy c d _ _ hc hd => exact inferInstanceAs (Std.TransCmp (compareLex c d))

theorem transCmp_of_compile {registry : Registry ρ} {text : String} {c : Comparator ρ}
    (h : compile registry text = .ok c) : Std.TransCmp c :=
  (compile_definable h).transCmp

/-! ## Sorting -/

namespace Comparator

theorem perm_sort (c : Comparator ρ) (records : List ρ) : (c.sort records).Perm records :=
  List.mergeSort_perm records _

variable (c : Comparator ρ) [Std.TransCmp c]

instance (record : α → ρ) : Std.TransCmp (c.on record) :=
  transCmp_by c record

theorem isLE_total (a b : ρ) : ((c a b).isLE || (c b a).isLE) = true := by
  have hswap : c b a = (c a b).swap := Std.OrientedCmp.eq_swap
  rw [hswap]
  cases c a b <;> rfl

theorem isLE_trans (a b d : ρ) (hab : (c a b).isLE = true) (hbd : (c b d).isLE = true) : (c a d).isLE = true :=
  Std.TransCmp.isLE_trans hab hbd

theorem pairwise_sort (records : List ρ) : (c.sort records).Pairwise fun a b => (c a b).isLE = true :=
  List.pairwise_mergeSort c.isLE_trans c.isLE_total records

/-- The records that are equal to a given one stay in their order: they stand in order already, so that sorting
keeps them as a row, and it keeps their number. -/
theorem filter_sort (records : List ρ) (a : ρ) :
    (c.sort records).filter (fun b => c a b = .eq) = records.filter fun b => c a b = .eq := by
  have hequal : (records.filter fun b => c a b = .eq).Pairwise fun b d => (c b d).isLE = true := by
    apply List.pairwise_of_forall_mem_list
    intro b hb d hd
    have hab : c a b = .eq := by simpa using (List.mem_filter.mp hb).2
    have had : c a d = .eq := by simpa using (List.mem_filter.mp hd).2
    rw [← Std.TransCmp.congr_left hab, had]
    rfl
  have hsub := List.sublist_mergeSort c.isLE_trans c.isLE_total hequal List.filter_sublist
  have hfilter := hsub.filter fun b => c a b = .eq
  simp only [List.filter_filter, Bool.and_self] at hfilter
  exact (hfilter.eq_of_length ((c.perm_sort records).filter _).length_eq.symm).symm

/-- What stood in some relation before is then in the order of the comparator, and where that finds two records equal
still in the relation. -/
theorem pairwise_sort_of_pairwise {R : ρ → ρ → Prop} {records : List ρ} (h : records.Pairwise R) :
    (c.sort records).Pairwise fun a b => c a b = .lt ∨ c a b = .eq ∧ R a b := by
  rw [List.pairwise_iff_forall_sublist] at h ⊢
  intro a b hab
  have hle := List.pairwise_iff_forall_sublist.mp (c.pairwise_sort records) hab
  cases hc : c a b with
  | lt => exact .inl rfl
  | gt =>
    rw [hc] at hle
    cases hle
  | eq =>
    have ha : c a a = .eq := Std.ReflCmp.compare_self
    have hsub : [a, b].Sublist (records.filter fun d => c a d = .eq) := by
      have hfilter := hab.filter fun d => c a d = .eq
      rw [filter_sort] at hfilter
      simpa [ha, hc] using hfilter
    exact .inr ⟨rfl, h (hsub.trans List.filter_sublist)⟩

/-- What was in a strict order before is in the order of the comparator, and then in the order before. -/
theorem pairwise_sort_compareLex {before : Comparator ρ} {records : List ρ}
    (h : records.Pairwise fun a b => before a b = .lt) :
    (c.sort records).Pairwise fun a b => compareLex c before a b = .lt := by
  refine (c.pairwise_sort_of_pairwise h).imp ?_
  rintro a b (hlt | ⟨heq, hbefore⟩)
  · simp [compareLex, hlt]
  · simp [compareLex, heq, hbefore]

end Comparator

end Sorting

end RecordQuery
