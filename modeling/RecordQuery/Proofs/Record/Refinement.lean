import RecordQuery.Proofs.Filter.Batch
import RecordQuery.Proofs.Result
import RecordQuery.Sorting.Comparator

/-!
Registries that refine one another. If each clause and each key that has a meaning over one registry has one over
another, and the same for the records that are seen, then so do all filter texts and all sort texts.
-/
namespace RecordQuery

variable {ρ : Type}

/-- The tests give the same answer for the records that are seen. -/
def Filter.Agree (Seen : ρ → Prop) (p p' : Filter.Predicate ρ) : Prop :=
  ∀ a, Seen a → p' a = p a

/-- The comparators put the records that are seen in the same order. -/
def Sorting.Agree (Seen : ρ → Prop) (c c' : Sorting.Comparator ρ) : Prop :=
  ∀ a b, Seen a → Seen b → c' a b = c a b

/-- What has a meaning over the first registry has one over the second, and the same for the records that are seen. -/
structure Refines (Seen : ρ → Prop) (registry registry' : Registry ρ) : Prop where
  clause : ∀ {c : Filter.Clause} {nesting : Nesting} {p : Filter.Predicate ρ},
    Filter.compileClause registry nesting c = .ok p →
    ∃ p', Filter.compileClause registry' nesting c = .ok p' ∧ Filter.Agree Seen p p'
  key : ∀ {key : Sorting.Key} {c : Sorting.Comparator ρ}, key.comparator registry = .ok c →
    ∃ c', key.comparator registry' = .ok c' ∧ Sorting.Agree Seen c c'

variable {Seen : ρ → Prop} {registry registry' : Registry ρ}

/-! ## Filters -/

namespace Filter

variable {before? before'? : Option (Predicate ρ)} {p p' term term' : Predicate ρ}

theorem Agree.turn (h : Agree Seen p p') (negates : Bool) :
    Agree Seen (if negates then negate p else p) (if negates then negate p' else p') := by
  intro a ha
  cases negates with
  | false => exact h a ha
  | true => exact congrArg (!·) (h a ha)

theorem Agree.join {connective : Option Connective} (hbefore : Option.Rel (Agree Seen) before? before'?)
    (hterm : Agree Seen term term') (h : join before? term connective = .ok p) :
    ∃ p', Filter.join before'? term' connective = .ok p' ∧ Agree Seen p p' := by
  cases hbefore with
  | none =>
    obtain rfl := Except.ok.inj h
    exact ⟨term', rfl, hterm⟩
  | @some before before' hbefore =>
    rcases connective with _ | _ | _ | _
    · cases h
    · obtain rfl := Except.ok.inj h
      exact ⟨both before' term', rfl, fun a ha => congrArg₂ (· && ·) (hbefore a ha) (hterm a ha)⟩
    · obtain rfl := Except.ok.inj h
      exact ⟨either before' term', rfl, fun a ha => congrArg₂ (· || ·) (hbefore a ha) (hterm a ha)⟩
    · cases h

/-- A group is read against the same registry as the text around it; all else is a clause. -/
theorem compileFrom_refines (h : Refines Seen registry registry') {nesting : Nesting} {cs : List Char}
    (hbefore : Option.Rel (Agree Seen) before? before'?) (hp : compileFrom registry nesting before? cs = .ok p) :
    ∃ p', compileFrom registry' nesting before'? cs = .ok p' ∧ Agree Seen p p' := by
  induction cs using segment_induction generalizing nesting before? before'? p with
  | fault cs e rest hs =>
    rw [compileFrom_eq, hs] at hp
    cases hp
  | done cs rest hs =>
    rw [compileFrom_eq, hs] at hp ⊢
    obtain rfl := Except.ok.inj hp
    cases hbefore with
    | none => exact ⟨always, rfl, fun _ _ => rfl⟩
    | some hbefore => exact ⟨_, rfl, hbefore⟩
  | more cs s rest hs hquery ih =>
    rw [compileFrom_eq, hs] at hp ⊢
    obtain ⟨term, hterm, hp⟩ := exists_of_bind_eq_ok hp
    obtain ⟨before, hjoin, hp⟩ := exists_of_bind_eq_ok hp
    have hterm' : ∃ term', compileTerm registry' nesting s.term = .ok term' ∧ Agree Seen term term' := by
      obtain ⟨w, t⟩ := s
      cases t with
      | clause c => exact h.clause hterm
      | group inner =>
        rw [compileTerm_group] at hterm ⊢
        obtain ⟨deeper, hdeeper, hinner⟩ := exists_of_bind_eq_ok hterm
        rw [hdeeper]
        exact hquery inner rfl .none hinner
    obtain ⟨term', hterm', hagree⟩ := hterm'
    obtain ⟨before', hjoin', hbefore'⟩ := Agree.join hbefore (hagree.turn s.window.negates) hjoin
    obtain ⟨p', hp', hresult⟩ := ih (.some hbefore') hp
    refine ⟨p', ?_, hresult⟩
    dsimp only
    rw [hterm']
    simp only [bind, Except.bind, hjoin', hp']

/-- A filter text that compiles over a registry compiles over one that refines it, and with the same limit. -/
theorem compile_refines (h : Refines Seen registry registry') {limit : Nat} {text : String}
    (hp : compile registry limit text = .ok p) :
    ∃ p', compile registry' limit text = .ok p' ∧ Agree Seen p p' :=
  compileFrom_refines h .none hp

end Filter

/-! ## Orders -/

namespace Sorting

variable {c c' d d' : Comparator ρ}

theorem Agree.thenBy (hc : Agree Seen c c') (hd : Agree Seen d d') : Agree Seen (c.thenBy d) (c'.thenBy d') :=
  fun a b ha hb => congrArg₂ Ordering.then (hc a b ha hb) (hd a b ha hb)

theorem Agree.foldl {later later' : List (Comparator ρ)} (hlater : List.Forall₂ (Agree Seen) later later')
    (hc : Agree Seen c c') : Agree Seen (later.foldl Comparator.thenBy c) (later'.foldl Comparator.thenBy c') := by
  induction hlater generalizing c c' with
  | nil => exact hc
  | cons hd _ ih => exact ih (hc.thenBy hd)

theorem compileKeys_refines (h : Refines Seen registry registry') {keys : List Key}
    (hc : compileKeys registry keys = .ok c) :
    ∃ c', compileKeys registry' keys = .ok c' ∧ Agree Seen c c' := by
  obtain ⟨cs, hcs, hc⟩ := exists_of_bind_eq_ok hc
  obtain ⟨cs', hcs', hall⟩ := exists_mapM_of_mapM (fun _ _ hkey => h.key hkey) hcs
  cases hall with
  | nil => cases hc
  | @cons first first' later later' hfirst hlater =>
    obtain rfl := Except.ok.inj hc
    refine ⟨later'.foldl Comparator.thenBy first', ?_, Agree.foldl hlater hfirst⟩
    rw [compileKeys, hcs']
    rfl

/-- A sort text that compiles over a registry compiles over one that refines it. -/
theorem compile_refines (h : Refines Seen registry registry') {text : String} (hc : compile registry text = .ok c) :
    ∃ c', compile registry' text = .ok c' ∧ Agree Seen c c' := by
  obtain ⟨keys, hkeys, hc⟩ := exists_of_bind_eq_ok hc
  rw [compile, hkeys]
  exact compileKeys_refines h hc

end Sorting

end RecordQuery
