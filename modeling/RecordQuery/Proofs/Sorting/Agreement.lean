import RecordQuery.Proofs.Filter.Comparison
import RecordQuery.Proofs.Sorting.Order
import Mathlib.Algebra.Order.Field.Rat
import Mathlib.Tactic.NormNum

/-!
Comparing and sorting use one order. Values that the order of a type finds equal are the same values: the same text,
the same moment, for decimals the same number at whatever scale. The comparator of a field therefore finds a record
before, equal to or behind another one just when the record passes `lessThan`, `equals` or `greaterThan` with the
other's value as the literal. Sorted by a field, the records below a literal come first of those that have a value,
and the records above it come last.
-/
namespace RecordQuery

/-! ## Values that count as the same -/

/-- The number that a decimal stands for. -/
def Decimal.value (d : Decimal) : ℚ := d.units / 10 ^ d.scale

theorem Decimal.compare_eq_eq_iff (a b : Decimal) : compare a b = .eq ↔ a.value = b.value := by
  have hpow : ∀ n : Nat, (10 : ℚ) ^ n ≠ 0 := fun n => pow_ne_zero n (by norm_num)
  calc compare a b = .eq
      ↔ compare (a.units * Nat.pow 10 b.scale) (b.units * Nat.pow 10 a.scale) = .eq := Iff.rfl
    _ ↔ a.units * Nat.pow 10 b.scale = b.units * Nat.pow 10 a.scale := Std.LawfulEqCmp.compare_eq_iff_eq
    _ ↔ (a.units * 10 ^ b.scale : ℚ) = b.units * 10 ^ a.scale := by norm_cast
    _ ↔ a.value = b.value := (div_eq_div_iff (hpow _) (hpow _)).symm

namespace Scalar

/-- Values that count as the same: decimals that stand for one number, and else a value and itself. -/
def Same : (type : Scalar) → type.Value → type.Value → Prop
  | decimal, v, w | optionalDecimal, v, w => v.value = w.value
  | string, v, w | int, v, w | optionalInt, v, w | optionalBool, v, w | dateTime, v, w | optionalDateTime, v, w => v = w

theorem order_eq_eq_iff (type : Scalar) (v w : type.Value) : type.order v w = .eq ↔ type.Same v w := by
  cases type with
  | decimal | optionalDecimal => exact Decimal.compare_eq_eq_iff v w
  | _ => exact Std.LawfulEqOrd.compare_eq_iff_eq

/-- All scalar types but `optionalBool` have every comparison. -/
theorem supports_compare {type : Scalar} (h : type ≠ .optionalBool) (c : Filter.Comparison) :
    (FieldType.scalar type).supports (.compare c) = true := by
  cases type with
  | optionalBool => exact absurd rfl h
  | _ => rfl

end Scalar

namespace Filter.Clause

/-- A comparison with a literal that has a value is true of the values that stand to it as it admits. -/
theorem compareScalar_some (type : Scalar) (c : Comparison) (value : Option type.Value) (v : type.Value) :
    compareScalar type c value (some v) = value.any fun w => c.admits (type.order w v) := by
  cases value <;> rfl

end Filter.Clause

theorem Filter.Comparison.lessThan_admits (o : Ordering) : lessThan.admits o = decide (o = .lt) := by
  cases o <;> rfl

theorem Filter.Comparison.greaterThan_admits (o : Ordering) : greaterThan.admits o = decide (o = .gt) := by
  cases o <;> rfl

namespace Sorting

open RecordQuery.Filter

variable {ρ α : Type}

/-! ## The ends of a sorted list -/

theorem filter_prefix_of_pairwise {p : ρ → Bool} {l : List ρ} (h : l.Pairwise fun a b => p b = true → p a = true) :
    l.filter p <+: l := by
  induction l with
  | nil => exact List.prefix_rfl
  | cons a l ih =>
    obtain ⟨ha, hl⟩ := List.pairwise_cons.mp h
    cases hp : p a with
    | true =>
      rw [List.filter_cons_of_pos hp]
      exact (List.prefix_cons_inj a).mpr (ih hl)
    | false =>
      -- behind one that fails the test all others fail it
      have hnone : ∀ b ∈ a :: l, ¬ p b = true := by
        rw [List.forall_mem_cons, hp]
        exact ⟨Bool.false_ne_true, fun b hb hpb => Bool.false_ne_true (hp.symm.trans (ha b hb hpb))⟩
      rw [List.filter_eq_nil_iff.mpr hnone]
      exact List.nil_prefix

theorem filter_suffix_of_pairwise {p : ρ → Bool} {l : List ρ} (h : l.Pairwise fun a b => p a = true → p b = true) :
    l.filter p <:+ l := by
  rw [← List.reverse_prefix, ← List.filter_reverse]
  exact filter_prefix_of_pairwise (List.pairwise_reverse.mpr h)

theorem filter_any (value? : ρ → Option α) (q : α → Bool) (l : List ρ) : l.filter (fun a => (value? a).any q) =
    (l.filter fun a => (value? a).isSome).filter fun a => (value? a).any q := by
  rw [List.filter_filter]
  congr 1
  funext a
  cases value? a <;> simp

section

variable {c : Comparator ρ} [Std.TransCmp c] {order : α → α → Ordering} {value? : ρ → Option α}
  (hc : ∀ a b v w, value? a = some v → value? b = some w → c a b = order v w) (records : List ρ)

include hc

theorem pairwise_sort_present : ((c.sort records).filter fun a => (value? a).isSome).Pairwise fun a b =>
    ∃ v w, value? a = some v ∧ value? b = some w ∧ (order v w).isLE = true := by
  refine List.pairwise_filter.mpr ((c.pairwise_sort records).imp ?_)
  intro a b hle ha hb
  obtain ⟨v, hv⟩ := Option.isSome_iff_exists.mp ha
  obtain ⟨w, hw⟩ := Option.isSome_iff_exists.mp hb
  rw [hc a b v w hv hw] at hle
  exact ⟨v, w, hv, hw, hle⟩

/-- Of the records that have a value, sorting by it puts those with a value before `u` first. -/
theorem sort_lt_first [Std.TransCmp order] (u : α) :
    (c.sort records).filter (fun a => (value? a).any fun v => order v u = .lt) <+:
      (c.sort records).filter fun a => (value? a).isSome := by
  rw [filter_any]
  refine filter_prefix_of_pairwise ((pairwise_sort_present hc records).imp ?_)
  rintro a b ⟨v, w, hv, hw, hle⟩ hlt
  simp only [hv, hw, Option.any_some, decide_eq_true_eq] at hlt ⊢
  exact Std.TransCmp.lt_of_isLE_of_lt hle hlt

/-- And those with a value behind `u` come last. -/
theorem sort_gt_last [Std.TransCmp order] (u : α) :
    (c.sort records).filter (fun a => (value? a).any fun v => order v u = .gt) <:+
      (c.sort records).filter fun a => (value? a).isSome := by
  rw [filter_any]
  refine filter_suffix_of_pairwise ((pairwise_sort_present hc records).imp ?_)
  rintro a b ⟨v, w, hv, hw, hle⟩ hgt
  simp only [hv, hw, Option.any_some, decide_eq_true_eq] at hgt ⊢
  exact Std.TransCmp.gt_of_isGE_of_gt (Std.OrientedCmp.isGE_iff_isLE.mpr hle) hgt

end

/-! ## One field -/

/-- Whether a record has a value in a field. -/
def hasValue (type : Scalar) (read : ρ → type.Cell) : Predicate ρ := fun record => (type.value? (read record)).isSome

/-- Sorted by a field in a direction, the records with a value before `v` come first of those that have one, and the
records with a value behind `v` come last. -/
theorem sort_ends (type : Scalar) (read : ρ → type.Cell) (direction : Direction) (records : List ρ) (v : type.Value) :
    let c : Comparator ρ := fun a b =>
      direction.apply (compareAbsent type.order (type.value? (read a)) (type.value? (read b)))
    let stands := fun (o : Ordering) (a : ρ) =>
      (type.value? (read a)).any fun w => direction.apply (type.order w v) = o
    (c.sort records).filter (stands .lt) <+: (c.sort records).filter (hasValue type read) ∧
      (c.sort records).filter (stands .gt) <:+ (c.sort records).filter (hasValue type read) := by
  intro c stands
  have := transCmp_by (compareAbsent type.order) fun record => type.value? (read record)
  have htrans : Std.TransCmp c := inferInstance
  have hc : ∀ a b u w, type.value? (read a) = some u → type.value? (read b) = some w →
      c a b = direction.apply (type.order u w) := by
    intro a b u w hu hw
    simp only [c, hu, hw]
    rfl
  exact ⟨sort_lt_first hc records v, sort_gt_last hc records v⟩

variable {registry : Registry ρ} {name : String} {type : Scalar} {read : ρ → type.Cell}

/-- The test that a comparison with the literal of a value comes down to. -/
theorem compileClause_compare (hget : registry.get? name = some (.scalar type read)) (htype : type ≠ .optionalBool)
    {word : String} {c : Comparison} (hword : Operator.ofWord? word = some (.compare c)) {text : String}
    {v : type.Value} (hliteral : type.literal name text = .ok (some v)) (nesting : Nesting) :
    compileClause registry nesting ⟨name, word, .literal text⟩ =
      .ok fun record => (type.value? (read record)).any fun w => c.admits (type.order w v) := by
  rw [compileClause_comparison hget hword (Scalar.supports_compare htype c), hliteral]
  simp only [Except.map, Clause.compareScalar_some]

/-- The comparator of a single key compares the values of its field. -/
theorem compileKeys_singleton (hget : registry.get? name = some (.scalar type read)) (direction : Direction) :
    compileKeys registry [⟨name, direction⟩] = .ok fun a b =>
      direction.apply (compareAbsent type.order (type.value? (read a)) (type.value? (read b))) := by
  rw [compileKeys_single, Key.comparator, hget]

/-- The comparators of a field and its clauses decide by one order. Against any literal that stands for the value of
`b`, the record `a` passes `lessThan`, `equals` or `greaterThan` as the ascending comparator finds it before, equal to
or behind `b`, and the descending one finds the reverse. Sorted either way, what passes `lessThan` and what passes
`greaterThan` stand at opposite ends of the records that have a value. -/
theorem compileKeys_agrees (hget : registry.get? name = some (.scalar type read)) (htype : type ≠ .optionalBool) :
    ∃ asc desc : Comparator ρ,
      compileKeys registry [⟨name, .asc⟩] = .ok asc ∧ compileKeys registry [⟨name, .desc⟩] = .ok desc ∧
      (∀ a b, desc a b = (asc a b).swap) ∧
      ∀ text v, type.literal name text = .ok (some v) → ∀ nesting, ∃ less equal greater : Predicate ρ,
        compileClause registry nesting ⟨name, "lessThan", .literal text⟩ = .ok less ∧
        compileClause registry nesting ⟨name, "equals", .literal text⟩ = .ok equal ∧
        compileClause registry nesting ⟨name, "greaterThan", .literal text⟩ = .ok greater ∧
        (∀ a b w, hasValue type read a = true → type.value? (read b) = some w → type.Same v w →
          (asc a b = .lt ↔ less a = true) ∧ (asc a b = .eq ↔ equal a = true) ∧ (asc a b = .gt ↔ greater a = true)) ∧
        ∀ records,
          (asc.sort records).filter less <+: (asc.sort records).filter (hasValue type read) ∧
          (asc.sort records).filter greater <:+ (asc.sort records).filter (hasValue type read) ∧
          (desc.sort records).filter greater <+: (desc.sort records).filter (hasValue type read) ∧
          (desc.sort records).filter less <:+ (desc.sort records).filter (hasValue type read) := by
  refine ⟨_, _, compileKeys_singleton hget .asc, compileKeys_singleton hget .desc, fun a b => rfl, ?_⟩
  intro text v hliteral nesting
  refine ⟨_, _, _, compileClause_compare (c := .lessThan) hget htype (by decide) hliteral nesting,
    compileClause_compare (c := .equals) hget htype (by decide) hliteral nesting,
    compileClause_compare (c := .greaterThan) hget htype (by decide) hliteral nesting, ?_, ?_⟩
  · intro a b w ha hw hsame
    obtain ⟨u, hu⟩ := Option.isSome_iff_exists.mp ha
    have horder : type.order u v = type.order u w :=
      Std.TransCmp.congr_right ((type.order_eq_eq_iff v w).mpr hsame)
    simp only [Direction.apply, hu, hw, compareAbsent, Option.any_some, horder]
    cases type.order u w <;> simp [Comparison.admits]
  · intro records
    obtain ⟨hless, hgreater⟩ := sort_ends type read .asc records v
    obtain ⟨hgreater', hless'⟩ := sort_ends type read .desc records v
    simp only [Direction.apply, Ordering.swap_eq_lt, Ordering.swap_eq_gt] at hgreater' hless'
    simp only [Comparison.lessThan_admits, Comparison.greaterThan_admits]
    exact ⟨hless, hgreater, hgreater', hless'⟩

/-- The literal `1.00` and the price `1.0` are one number. -/
theorem compileKeys_agrees_prices :
    let registry : Registry (Option Decimal) := ⟨[("Price", .scalar .optionalDecimal id)]⟩
    let price (coefficient scale : Nat) : Option Decimal := some ⟨false, coefficient, scale⟩
    ∃ asc desc less equal greater,
      compileKeys registry [⟨"Price", .asc⟩] = .ok asc ∧ compileKeys registry [⟨"Price", .desc⟩] = .ok desc ∧
      compileClause registry (.ofLimit 0) ⟨"Price", "lessThan", .literal "1.00"⟩ = .ok less ∧
      compileClause registry (.ofLimit 0) ⟨"Price", "equals", .literal "1.00"⟩ = .ok equal ∧
      compileClause registry (.ofLimit 0) ⟨"Price", "greaterThan", .literal "1.00"⟩ = .ok greater ∧
      asc (price 95 2) (price 10 1) = .lt ∧ less (price 95 2) = true ∧
      asc (price 1000 3) (price 10 1) = .eq ∧ equal (price 1000 3) = true ∧
      desc (price 3 0) (price 10 1) = .lt ∧ greater (price 3 0) = true ∧
      (asc.sort [price 3 0, none, price 95 2, price 10 1, price 5 1]).filter less <+:
        (asc.sort [price 3 0, none, price 95 2, price 10 1, price 5 1]).filter (hasValue .optionalDecimal id) := by
  intro registry price
  have hget : registry.get? "Price" = some (.scalar .optionalDecimal id) := rfl
  have hliteral : Scalar.literal .optionalDecimal "Price" "1.00" = .ok (some ⟨false, 100, 2⟩) := by decide +kernel
  have hsame : Scalar.Same .optionalDecimal ⟨false, 100, 2⟩ ⟨false, 10, 1⟩ := by
    show Decimal.value _ = Decimal.value _
    norm_num [Decimal.value, Decimal.units]
  obtain ⟨asc, desc, hasc, hdesc, hswap, hclauses⟩ := compileKeys_agrees hget (by decide)
  obtain ⟨less, equal, greater, hless, hequal, hgreater, hagree, hends⟩ := hclauses "1.00" _ hliteral (.ofLimit 0)
  obtain rfl := Except.ok.inj ((compileKeys_singleton hget .asc).symm.trans hasc)
  have hbefore := hagree (price 95 2) (price 10 1) _ rfl rfl hsame
  have hequals := hagree (price 1000 3) (price 10 1) _ rfl rfl hsame
  have hbehind := hagree (price 3 0) (price 10 1) _ rfl rfl hsame
  refine ⟨_, desc, less, equal, greater, hasc, hdesc, hless, hequal, hgreater, by decide +kernel,
    hbefore.1.mp (by decide +kernel), by decide +kernel, hequals.2.1.mp (by decide +kernel), ?_,
    hbehind.2.2.mp (by decide +kernel), (hends _).1⟩
  rw [hswap]
  decide +kernel

end Sorting

end RecordQuery
