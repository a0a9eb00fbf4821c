import RecordQuery.Proofs.Sorting.Iteration

/-!
Every ordering is a total preorder. This holds of the comparator of any keys, whatever the types of their fields and
their directions, and of all comparators put together from such ones, over one registry or over several. It leaves the
sort no choice: there is one list in the order of the comparator that keeps what counts as equal as it stood. So it
makes no difference whether records are dropped before they are sorted or after.
-/
namespace RecordQuery.Sorting

variable {ρ : Type}

/-- Comparators of keys, and chains of them. -/
inductive Chained : Comparator ρ → Prop
  | keys {registry : Registry ρ} {ks : List Key} {c : Comparator ρ} : compileKeys registry ks = .ok c → Chained c
  | thenBy {c d : Comparator ρ} : Chained c → Chained d → Chained (c.thenBy d)

theorem Chained.transCmp {c : Comparator ρ} (h : Chained c) : Std.TransCmp c := by
  induction h with
  | keys hc => exact (compileKeys_definable hc).transCmp
  | @thenBy c d _ _ hc hd => infer_instance

namespace Comparator

variable (c : Comparator ρ) [Std.TransCmp c]

/-- Between two equal records there are only records equal to both. -/
theorem eq_eq_of_between {a b d : ρ} (hab : (c a b).isLE = true) (hbd : (c b d).isLE = true) (had : c a d = .eq) :
    c a b = .eq ∧ c b d = .eq := by
  have hda : (c d a).isLE = true := by
    rw [Std.OrientedCmp.eq_symm had]
    rfl
  have hba : (c b a).isLE = true := Std.TransCmp.isLE_trans hbd hda
  have hdb : (c d b).isLE = true := Std.TransCmp.isLE_trans hda hab
  exact ⟨Std.OrientedCmp.isLE_antisymm hab hba, Std.OrientedCmp.isLE_antisymm hbd hdb⟩

/-- Sorting gives the list in the order of the comparator that has the rows of equal records as they stood. -/
theorem eq_sort_iff {records sorted : List ρ} : sorted = c.sort records ↔
    sorted.Pairwise (fun a b => (c a b).isLE = true) ∧
      ∀ a, sorted.filter (fun b => c a b = .eq) = records.filter fun b => c a b = .eq := by
  constructor
  · rintro rfl
    exact ⟨c.pairwise_sort records, c.filter_sort records⟩
  · rintro ⟨hsorted, hrows⟩
    refine c.eq_of_filter_eq hsorted (c.pairwise_sort records) fun a => ?_
    rw [hrows, filter_sort]

/-- Records can be dropped before sorting or after it. -/
theorem sort_filter (p : ρ → Bool) (records : List ρ) : c.sort (records.filter p) = (c.sort records).filter p := by
  refine (c.eq_sort_iff.mpr ⟨(c.pairwise_sort records).filter p, fun a => ?_⟩).symm
  rw [List.filter_comm, filter_sort, List.filter_comm]

end Comparator

/-- A comparator of keys, or any chain of such comparators, finds each record equal to itself, turns around with its
arguments and is transitive, and where three records in a row begin and end with equal ones all of them are equal. So
there is one way to sort by it and keep equal records as they stood. -/
theorem Chained.total_preorder {c : Comparator ρ} (h : Chained c) :
    (∀ a, c a a = .eq) ∧ (∀ a b, c b a = (c a b).swap) ∧
      (∀ a b d, c a b ≠ .gt → c b d ≠ .gt → c a d ≠ .gt ∧ (c a d = .eq → c a b = .eq ∧ c b d = .eq)) ∧
      ∀ records sorted, sorted = c.sort records ↔ sorted.Pairwise (fun a b => c a b ≠ .gt) ∧
        ∀ a, sorted.filter (fun b => c a b = .eq) = records.filter fun b => c a b = .eq := by
  have := h.transCmp
  simp only [ne_eq, ← Ordering.isLE_iff_ne_gt]
  refine ⟨fun a => Std.ReflCmp.compare_self, fun a b => Std.OrientedCmp.eq_swap, ?_, fun records sorted => c.eq_sort_iff⟩
  intro a b d hab hbd
  exact ⟨Std.TransCmp.isLE_trans hab hbd, c.eq_eq_of_between hab hbd⟩

/-- The two prices of one record each are the same number, with another scale; then an absent date comes first. -/
theorem Chained.total_preorder_prices :
    let registry : Registry (Decimal × Option Calendar.Moment) :=
      ⟨[("Price", .scalar .decimal Prod.fst), ("Seen", .scalar .optionalDateTime Prod.snd)]⟩
    let new : Decimal × Option Calendar.Moment := (⟨false, 10, 1⟩, none)
    let old : Decimal × Option Calendar.Moment := (⟨false, 100, 2⟩, some .epoch)
    let cheap : Decimal × Option Calendar.Moment := (⟨false, 5, 1⟩, none)
    ∃ c d, compileKeys registry [⟨"Price", .desc⟩] = .ok c ∧ compileKeys registry [⟨"Seen", .asc⟩] = .ok d ∧
      c new old = .eq ∧ (c.thenBy d) new old = .lt ∧ (c.thenBy d) old new = .gt ∧ (c.thenBy d) new cheap ≠ .gt ∧
      ((c.thenBy d).sort [cheap, old, new]).Pairwise fun a b => (c.thenBy d) a b ≠ .gt := by
  intro registry new old cheap
  have hc : compileKeys registry [⟨"Price", .desc⟩] = .ok fun a b => (compare a.1 b.1).swap := rfl
  have hd : compileKeys registry [⟨"Seen", .asc⟩] = .ok fun a b => compareAbsent compare a.2 b.2 := rfl
  obtain ⟨-, hswap, htrans, hsort⟩ := Chained.total_preorder (.thenBy (.keys hc) (.keys hd))
  refine ⟨_, _, hc, hd, by decide +kernel, by decide +kernel, ?_, ?_, ((hsort _ _).mp rfl).1⟩
  · rw [hswap new old]
    decide +kernel
  · exact (htrans new old cheap (by decide +kernel) (by decide +kernel)).1

end RecordQuery.Sorting
