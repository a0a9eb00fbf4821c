import RecordQuery.Proofs.Filter.Definable
import RecordQuery.Proofs.Sorting.Definable
import Mathlib.Data.List.Forall2

/-!
Records that no query tells apart. A query knows a record by the values of its fields and by its related records, which
it knows in the same way. So records that agree in these pass the same filters, and stand in the same order to others.
-/
namespace RecordQuery

variable {ρ : Type}

/-- A relation of records, over any registry, under which their values agree and their related records stand in the
relation again. -/
structure Bisimulation (Alike : Registry ρ → ρ → ρ → Prop) : Prop where
  scalar : ∀ {registry : Registry ρ} {a b : ρ} {name : String} {type : Scalar} {read : ρ → type.Cell},
    Alike registry a b → registry.get? name = some (.scalar type read) →
    type.value? (read a) = type.value? (read b)
  relation : ∀ {registry related : Registry ρ} {a b : ρ} {name : String} {children : ρ → List ρ},
    Alike registry a b → registry.get? name = some (.relation children related) →
    List.Forall₂ (Alike related) (children a) (children b)

variable {Alike : Registry ρ → ρ → ρ → Prop} {registry : Registry ρ}

theorem Filter.Quantifier.holds_congr {α : Type} {R : α → α → Prop} {as bs : List α} {test : α → Bool}
    (h : List.Forall₂ R as bs) (htest : ∀ a b, R a b → test a = test b) (quantifier : Quantifier) :
    quantifier.holds as test = quantifier.holds bs test := by
  have hmap : as.map test = bs.map test := by
    induction h with
    | nil => rfl
    | cons hab _ ih => rw [List.map_cons, List.map_cons, htest _ _ hab, ih]
  cases quantifier with
  | any => simpa [Quantifier.holds, List.any_map] using congrArg (List.any · id) hmap
  | all => simpa [Quantifier.holds, List.all_map] using congrArg (List.all · id) hmap

/-- The induction is on how the test is put together; of related records a smaller test is asked. -/
theorem Filter.Definable.congr {p : Filter.Predicate ρ} (h : Filter.Definable registry p) (hAlike : Bisimulation Alike)
    {a b : ρ} (hab : Alike registry a b) : p a = p b := by
  induction h generalizing a b with
  | always => rfl
  | negate _ ih => exact congrArg (!·) (ih hab)
  | both _ _ ihp ihq => exact congrArg₂ (· && ·) (ihp hab) (ihq hab)
  | either _ _ ihp ihq => exact congrArg₂ (· || ·) (ihp hab) (ihq hab)
  | scalar hget test => exact congrArg test (hAlike.scalar hab hget)
  | relation hget quantifier _ ih =>
    exact quantifier.holds_congr (hAlike.relation hab hget) fun a b hab => ih hab

theorem Sorting.Definable.congr {c : Sorting.Comparator ρ} (h : Sorting.Definable registry c)
    (hAlike : Bisimulation Alike) {a a' b b' : ρ} (ha : Alike registry a a') (hb : Alike registry b b') :
    c a b = c a' b' := by
  induction h with
  | key hget direction =>
    dsimp only
    rw [hAlike.scalar ha hget, hAlike.scalar hb hget]
  | thenBy _ _ ihc ihd => exact congrArg₂ Ordering.then ihc ihd

end RecordQuery
