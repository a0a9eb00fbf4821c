import Mathlib.Data.List.Forall2

/-!
Results of computations that may fail. A chain of them gives a value only where each one does, and what it fails
with is the fault of the first that fails.
-/
namespace RecordQuery

variable {α β γ ε : Type}

theorem exists_of_bind_eq_ok {r : Except ε α} {f : α → Except ε β} {b : β} (h : r >>= f = .ok b) :
    ∃ a, r = .ok a ∧ f a = .ok b := by
  cases r with
  | error e => cases h
  | ok a => exact ⟨a, rfl, h⟩

theorem eq_error_of_bind_eq_error {r : Except ε α} {f : α → Except ε β} {fault : ε} (h : r >>= f = .error fault) :
    r = .error fault ∨ ∃ a, r = .ok a ∧ f a = .error fault := by
  cases r with
  | error e => exact .inl (congrArg Except.error (Except.error.inj h))
  | ok a => exact .inr ⟨a, rfl, h⟩

theorem eq_error_of_map_eq_error {r : Except ε α} {f : α → β} {fault : ε} (h : r.map f = .error fault) :
    r = .error fault := by
  cases r with
  | error e => exact congrArg Except.error (Except.error.inj h)
  | ok a => cases h

theorem exists_of_map_eq_ok {r : Except ε α} {f : α → β} {b : β} (h : r.map f = .ok b) :
    ∃ a, r = .ok a ∧ f a = b := by
  cases r with
  | error e => cases h
  | ok a => exact ⟨a, rfl, Except.ok.inj h⟩

theorem eq_ok_of_toOption {r : Except ε α} {a : α} (h : r.toOption = some a) : r = .ok a := by
  cases r with
  | error e => cases h
  | ok a' => exact congrArg Except.ok (Option.some.inj h)

theorem exists_of_forall₂ {R : α → β → Prop} {as : List α} {bs : List β} (h : List.Forall₂ R as bs) {b : β}
    (hb : b ∈ bs) : ∃ a ∈ as, R a b := by
  induction h with
  | nil => cases hb
  | cons hab _ ih =>
    rcases List.mem_cons.mp hb with rfl | hb
    · exact ⟨_, List.mem_cons_self, hab⟩
    · obtain ⟨a, ha, hr⟩ := ih hb
      exact ⟨a, List.mem_cons_of_mem _ ha, hr⟩

theorem exists_of_mapM_cons {f : α → Except ε β} {a : α} {as : List α} {bs : List β}
    (h : (a :: as).mapM f = .ok bs) : ∃ b bs', f a = .ok b ∧ as.mapM f = .ok bs' ∧ bs = b :: bs' := by
  rw [List.mapM_cons] at h
  obtain ⟨b, ha, h⟩ := exists_of_bind_eq_ok h
  obtain ⟨bs', has, h⟩ := exists_of_bind_eq_ok h
  exact ⟨b, bs', ha, has, (Except.ok.inj h).symm⟩

theorem exists_of_mapM_append {f : α → Except ε β} {as as' : List α} {bs : List β}
    (h : (as ++ as').mapM f = .ok bs) : ∃ bs₁ bs₂, as.mapM f = .ok bs₁ ∧ as'.mapM f = .ok bs₂ ∧ bs = bs₁ ++ bs₂ := by
  rw [List.mapM_append] at h
  obtain ⟨bs₁, has, h⟩ := exists_of_bind_eq_ok h
  obtain ⟨bs₂, has', h⟩ := exists_of_bind_eq_ok h
  exact ⟨bs₁, bs₂, has, has', (Except.ok.inj h).symm⟩

/-- Where all are computed, each of them gives the value in its place. -/
theorem forall₂_of_mapM {f : α → Except ε β} {as : List α} {bs : List β} (h : as.mapM f = .ok bs) :
    List.Forall₂ (fun a b => f a = .ok b) as bs := by
  induction as generalizing bs with
  | nil =>
    obtain rfl := Except.ok.inj h
    exact .nil
  | cons a as ih =>
    obtain ⟨b, bs', ha, has, rfl⟩ := exists_of_mapM_cons h
    exact .cons ha (ih has)

theorem mapM_of_forall₂ {f : α → Except ε β} {as : List α} {bs : List β}
    (h : List.Forall₂ (fun a b => f a = .ok b) as bs) : as.mapM f = .ok bs := by
  induction h with
  | nil => rfl
  | cons ha _ ih =>
    rw [List.mapM_cons, ha, ih]
    rfl

theorem exists_of_mem_mapM {f : α → Except ε β} {as : List α} {bs : List β} (h : as.mapM f = .ok bs) {b : β}
    (hb : b ∈ bs) : ∃ a ∈ as, f a = .ok b :=
  exists_of_forall₂ (forall₂_of_mapM h) hb

theorem exists_mem_of_mapM {f : α → Except ε β} {as : List α} {bs : List β} (h : as.mapM f = .ok bs) {a : α}
    (ha : a ∈ as) : ∃ b ∈ bs, f a = .ok b :=
  exists_of_forall₂ (forall₂_of_mapM h).flip ha

/-- What holds of one of the values holds of a value that is computed. -/
theorem any_of_mapM {f : α → Except ε β} {as : List α} {bs : List β} (h : as.mapM f = .ok bs) (p : β → Bool) :
    bs.any p = as.any fun a => (f a).toOption.any p := by
  have hall := forall₂_of_mapM h
  clear h
  induction hall with
  | nil => rfl
  | cons ha _ ih =>
    rw [List.any_cons, List.any_cons, ih, ha]
    rfl

/-- What is done to each value may as well be done when all are there. -/
theorem mapM_map (f : α → Except ε β) (g : β → γ) (as : List α) :
    (as.mapM fun a => (f a).map g) = (as.mapM f).map (·.map g) := by
  induction as with
  | nil => rfl
  | cons a as ih =>
    rw [List.mapM_cons, List.mapM_cons, ih]
    cases f a with
    | error fault => rfl
    | ok b => cases as.mapM f <;> rfl

/-- Where one computation follows the other, so do the computations of all. -/
theorem exists_mapM_of_mapM {f : α → Except ε β} {g : α → Except ε γ} {R : β → γ → Prop}
    (hstep : ∀ a b, f a = .ok b → ∃ c, g a = .ok c ∧ R b c) {as : List α} {bs : List β} (h : as.mapM f = .ok bs) :
    ∃ cs, as.mapM g = .ok cs ∧ List.Forall₂ R bs cs := by
  induction as generalizing bs with
  | nil =>
    obtain rfl := Except.ok.inj h
    exact ⟨[], rfl, .nil⟩
  | cons a as ih =>
    obtain ⟨b, bs', ha, has, rfl⟩ := exists_of_mapM_cons h
    obtain ⟨c, hc, hbc⟩ := hstep a b ha
    obtain ⟨cs, hcs, hall⟩ := ih has
    refine ⟨c :: cs, ?_, .cons hbc hall⟩
    rw [List.mapM_cons, hc, hcs]
    rfl

/-! ## Outcomes -/

/-- What is left of a result if only its fault counts. -/
def outcome (r : Except ε α) : Except ε Unit :=
  r.map fun _ => ()

variable {r : Except ε α}

theorem exists_ok_iff_outcome : (∃ a, r = .ok a) ↔ outcome r = .ok () := by
  cases r <;> simp [outcome, Except.map]

theorem eq_error_iff_outcome {fault : ε} : r = .error fault ↔ outcome r = .error fault := by
  cases r <;> simp [outcome, Except.map]

/-- Of two results with the same outcome one fails where the other does, with the same fault. -/
theorem agree_of_outcome {r' : Except ε β} (h : outcome r = outcome r') :
    ((∃ a, r = .ok a) ↔ ∃ b, r' = .ok b) ∧ ∀ fault, r = .error fault ↔ r' = .error fault := by
  constructor
  · rw [exists_ok_iff_outcome, exists_ok_iff_outcome, h]
  · intro fault
    rw [eq_error_iff_outcome, h]
    exact eq_error_iff_outcome.symm

/-! ## Faults -/

/-- What a result fails with. -/
def fault? : Except ε α → Option ε
  | .ok _ => none
  | .error fault => some fault

/-- Where what comes behind a computation has the same fault for every value, a chain fails with the first of two. -/
theorem fault?_bind {r : Except ε α} {f : α → Except ε β} {behind? : Option ε}
    (h : ∀ a, r = .ok a → fault? (f a) = behind?) : fault? (r >>= f) = (fault? r).or behind? := by
  cases r with
  | error fault => rfl
  | ok a => exact h a rfl

theorem fault?_map (r : Except ε α) (f : α → β) : fault? (r.map f) = fault? r := by
  cases r <;> rfl

theorem fault?_eq_none_iff {r : Except ε α} : fault? r = none ↔ ∃ a, r = .ok a := by
  cases r <;> simp [fault?]

theorem fault?_eq_some_iff {r : Except ε α} {fault : ε} : fault? r = some fault ↔ r = .error fault := by
  cases r <;> simp [fault?]

/-- Where not all can be computed, the first that fails gives the fault. -/
theorem fault?_mapM (f : α → Except ε β) (as : List α) : fault? (as.mapM f) = as.findSome? fun a => fault? (f a) := by
  induction as with
  | nil => rfl
  | cons a as ih =>
    rw [List.mapM_cons, List.findSome?_cons, ← ih]
    cases f a with
    | error fault => rfl
    | ok b => cases as.mapM f <;> rfl

theorem exists_mapM_iff {f : α → Except ε β} {as : List α} :
    (∃ bs, as.mapM f = .ok bs) ↔ ∀ a ∈ as, ∃ b, f a = .ok b := by
  rw [← fault?_eq_none_iff, fault?_mapM, List.findSome?_eq_none_iff]
  simp only [fault?_eq_none_iff]

theorem mapM_eq_error_iff {f : α → Except ε β} {as : List α} {fault : ε} :
    as.mapM f = .error fault ↔ ∃ before a behind, as = before ++ a :: behind ∧ f a = .error fault ∧
      ∀ a' ∈ before, ∃ b, f a' = .ok b := by
  rw [← fault?_eq_some_iff, fault?_mapM, List.findSome?_eq_some_iff]
  simp only [fault?_eq_some_iff, fault?_eq_none_iff]

end RecordQuery
