import RecordQuery.Sorting.Comparator
import RecordQuery.Proofs.Result

/-!
What sort texts can say. Whatever its text, a comparator that is compiled compares records by the values of one field,
or breaks the ties of one such comparator with another.
-/
namespace RecordQuery.Sorting

variable {ρ : Type}

/-- The comparators that can be put together over a registry. -/
inductive Definable (registry : Registry ρ) : Comparator ρ → Prop
  | key {name : String} {type : Scalar} {read : ρ → type.Cell} :
      registry.get? name = some (.scalar type read) → (direction : Direction) → Definable registry fun a b =>
        direction.apply (compareAbsent type.order (type.value? (read a)) (type.value? (read b)))
  | thenBy {c d : Comparator ρ} : Definable registry c → Definable registry d → Definable registry (c.thenBy d)

variable {registry : Registry ρ}

theorem Key.comparator_definable {key : Key} {c : Comparator ρ} (h : key.comparator registry = .ok c) :
    Definable registry c := by
  unfold Key.comparator at h
  split at h
  · rename_i hget
    obtain rfl := Except.ok.inj h
    exact .key hget key.direction
  · cases h

theorem Definable.foldl {later : List (Comparator ρ)} {first : Comparator ρ} (hfirst : Definable registry first)
    (hlater : ∀ c ∈ later, Definable registry c) : Definable registry (later.foldl Comparator.thenBy first) := by
  induction later generalizing first with
  | nil => exact hfirst
  | cons c later ih =>
    have hthen := Definable.thenBy hfirst (hlater c List.mem_cons_self)
    exact ih hthen fun d hd => hlater d (List.mem_cons_of_mem c hd)

theorem compileKeys_single (key : Key) : compileKeys registry [key] = key.comparator registry := by
  rw [compileKeys, List.mapM_cons]
  cases key.comparator registry <;> rfl

theorem compileKeys_definable {keys : List Key} {c : Comparator ρ} (h : compileKeys registry keys = .ok c) :
    Definable registry c := by
  obtain ⟨cs, hm, h⟩ := exists_of_bind_eq_ok h
  have hcs : ∀ d ∈ cs, Definable registry d := by
    intro d hd
    obtain ⟨key, -, hkey⟩ := exists_of_mem_mapM hm hd
    exact key.comparator_definable hkey
  cases cs with
  | nil => cases h
  | cons first later =>
    obtain rfl := Except.ok.inj h
    exact Definable.foldl (hcs first List.mem_cons_self) fun d hd => hcs d (List.mem_cons_of_mem first hd)

theorem compile_of_keys {text : String} {ks : List Key} (h : keys text = .ok ks) :
    compile registry text = compileKeys registry ks := by
  rw [compile, h]
  rfl

/-- Every sort text that compiles gives a definable comparator. -/
theorem compile_definable {text : String} {c : Comparator ρ} (h : compile registry text = .ok c) :
    Definable registry c := by
  obtain ⟨keys, -, h⟩ := exists_of_bind_eq_ok h
  exact compileKeys_definable h

end RecordQuery.Sorting
