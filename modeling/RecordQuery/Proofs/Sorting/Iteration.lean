import RecordQuery.Proofs.Sorting.Order
import Mathlib.Data.List.Permutation

/-!
Sorting by several keys. A sorted list is fixed by the rows of records that count as equal in it, so there is one way to
sort and keep those rows as they were. Sorting by one comparator and then by another one therefore is sorting by the
second with its ties broken by the first, and sorting by the keys of a text is sorting by each of them alone, the last
one first. A field that comes again has no ties left to break.
-/
namespace RecordQuery.Sorting

variable {ρ α : Type}

namespace Comparator

/-! ## Two comparators -/

theorem subset_of_filter_eq (c : Comparator ρ) [Std.TransCmp c] {l l' : List ρ}
    (hrows : ∀ a, l.filter (fun b => c a b = .eq) = l'.filter fun b => c a b = .eq) : l ⊆ l' := by
  intro a ha
  have hrow : a ∈ l.filter fun b => c a b = .eq := List.mem_filter.mpr ⟨ha, by simp [Std.ReflCmp.compare_self]⟩
  rw [hrows a] at hrow
  exact (List.mem_filter.mp hrow).1

/-- A sorted list is the only one with its rows of equal records. -/
theorem eq_of_filter_eq (c : Comparator ρ) [Std.TransCmp c] {l l' : List ρ}
    (h : l.Pairwise fun a b => (c a b).isLE = true) (h' : l'.Pairwise fun a b => (c a b).isLE = true)
    (hrows : ∀ a, l.filter (fun b => c a b = .eq) = l'.filter fun b => c a b = .eq) : l = l' := by
  have hsub := c.subset_of_filter_eq hrows
  have hsub' := c.subset_of_filter_eq fun a => (hrows a).symm
  induction l generalizing l' with
  | nil => exact (List.subset_nil.mp hsub').symm
  | cons a l ih =>
    cases l' with
    | nil => exact absurd (hsub List.mem_cons_self) List.not_mem_nil
    | cons b l' =>
      obtain ⟨hfirst, hl⟩ := List.pairwise_cons.mp h
      obtain ⟨hfirst', hl'⟩ := List.pairwise_cons.mp h'
      have hself : ∀ d, (c d d).isLE = true := fun d => by simp [Std.ReflCmp.compare_self]
      -- each of the two first records stands in the other list too, and so is not behind the other
      have hab : (c a b).isLE = true := by
        rcases List.mem_cons.mp (hsub' List.mem_cons_self) with rfl | hb
        · exact hself b
        · exact hfirst b hb
      have hba : (c b a).isLE = true := by
        rcases List.mem_cons.mp (hsub List.mem_cons_self) with rfl | ha
        · exact hself a
        · exact hfirst' a ha
      have heq : c a b = .eq := Std.OrientedCmp.isLE_antisymm hab hba
      obtain rfl : a = b := by
        have ha := hrows a
        rw [List.filter_cons_of_pos (by simp [Std.ReflCmp.compare_self]), List.filter_cons_of_pos (by simp [heq])] at ha
        exact (List.cons.inj ha).1
      have hrows' : ∀ d, l.filter (fun b => c d b = .eq) = l'.filter fun b => c d b = .eq := by
        intro d
        have hd := hrows d
        by_cases hda : c d a = .eq
        · rw [List.filter_cons_of_pos (by simp [hda]), List.filter_cons_of_pos (by simp [hda])] at hd
          exact (List.cons.inj hd).2
        · rwa [List.filter_cons_of_neg (by simp [hda]), List.filter_cons_of_neg (by simp [hda])] at hd
      rw [ih hl hl' hrows' (c.subset_of_filter_eq hrows') (c.subset_of_filter_eq fun d => (hrows' d).symm)]

instance (c d : Comparator ρ) [Std.TransCmp c] [Std.TransCmp d] : Std.TransCmp (c.thenBy d) :=
  inferInstanceAs (Std.TransCmp (compareLex c d))

theorem thenBy_eq_eq (c d : Comparator ρ) (a b : ρ) : c.thenBy d a b = .eq ↔ c a b = .eq ∧ d a b = .eq :=
  Ordering.then_eq_eq

/-- To break ties by a comparator, sort by it before. -/
theorem sort_thenBy (c d : Comparator ρ) [Std.TransCmp c] [Std.TransCmp d] (records : List ρ) :
    (c.thenBy d).sort records = c.sort (d.sort records) := by
  refine (c.thenBy d).eq_of_filter_eq ((c.thenBy d).pairwise_sort records) ?_ fun a => ?_
  · refine (c.pairwise_sort_of_pairwise (d.pairwise_sort records)).imp ?_
    rintro a b (hlt | ⟨heq, hle⟩)
    · simp [thenBy, compareLex, hlt]
    · simpa [thenBy, compareLex, heq] using hle
  · -- a row of the two is the row of the one in the row of the other
    have hrow : ∀ l : List ρ, l.filter (fun b => c.thenBy d a b = .eq) =
        (l.filter fun b => c a b = .eq).filter fun b => d a b = .eq := by
      intro l
      rw [List.filter_filter]
      simp only [thenBy_eq_eq, Bool.decide_and, Bool.and_comm]
    have hrow' : ∀ l : List ρ, l.filter (fun b => c.thenBy d a b = .eq) =
        (l.filter fun b => d a b = .eq).filter fun b => c a b = .eq := by
      intro l
      rw [List.filter_filter]
      simp only [thenBy_eq_eq, Bool.decide_and]
    calc ((c.thenBy d).sort records).filter (fun b => c.thenBy d a b = .eq)
        = records.filter fun b => c.thenBy d a b = .eq := filter_sort _ records a
      _ = (d.sort records).filter fun b => c.thenBy d a b = .eq := by rw [hrow', hrow', d.filter_sort]
      _ = (c.sort (d.sort records)).filter fun b => c.thenBy d a b = .eq := by rw [hrow, hrow, c.filter_sort]

/-! ## Any number of comparators -/

/-- The order of several comparators: the first one that tells two records apart decides. -/
def inTurn : List (Comparator ρ) → Comparator ρ
  | [] => fun _ _ => .eq
  | c :: cs => c.thenBy (inTurn cs)

theorem foldl_thenBy (first : Comparator ρ) (later : List (Comparator ρ)) :
    later.foldl thenBy first = inTurn (first :: later) := by
  induction later generalizing first with
  | nil =>
    funext a b
    exact Ordering.then_eq.symm
  | cons c later ih =>
    rw [List.foldl_cons, ih]
    funext a b
    exact Ordering.then_assoc (first a b) (c a b) (inTurn later a b)

theorem inTurn_eq_eq {cs : List (Comparator ρ)} {a b : ρ} : inTurn cs a b = .eq ↔ ∀ c ∈ cs, c a b = .eq := by
  induction cs with
  | nil => simp [inTurn]
  | cons c cs ih => rw [inTurn, thenBy_eq_eq, ih, List.forall_mem_cons]

theorem inTurn_on (cs : List (Comparator ρ)) (record : α → ρ) :
    (inTurn cs).on record = inTurn (cs.map (·.on record)) := by
  induction cs with
  | nil => rfl
  | cons c cs ih =>
    rw [List.map_cons, inTurn, inTurn, ← ih]
    rfl

theorem inTurn_append (earlier later : List (Comparator ρ)) :
    inTurn (earlier ++ later) = (inTurn earlier).thenBy (inTurn later) := by
  induction earlier with
  | nil => rfl
  | cons c earlier ih =>
    rw [List.cons_append, inTurn, ih]
    funext a b
    exact (Ordering.then_assoc (c a b) (inTurn earlier a b) (inTurn later a b)).symm

/-- A comparator that finds equal what those before it find equal changes nothing. -/
theorem inTurn_append_cons {earlier behind : List (Comparator ρ)} {c : Comparator ρ}
    (h : ∀ a b, (∀ d ∈ earlier, d a b = .eq) → c a b = .eq) :
    inTurn (earlier ++ c :: behind) = inTurn (earlier ++ behind) := by
  rw [inTurn_append, inTurn_append]
  funext a b
  cases hearlier : inTurn earlier a b with
  | lt => simp [thenBy, compareLex, hearlier]
  | gt => simp [thenBy, compareLex, hearlier]
  | eq =>
    have hc := h a b (inTurn_eq_eq.mp hearlier)
    simp [thenBy, compareLex, inTurn, hearlier, hc]

section

variable {cs : List (Comparator ρ)} (h : ∀ c ∈ cs, Std.TransCmp c)

include h

theorem transCmp_inTurn : Std.TransCmp (inTurn cs) := by
  induction cs with
  | nil => exact @Std.TransCmp.mk _ _ ⟨rfl⟩ fun _ _ => rfl
  | cons c cs ih =>
    obtain ⟨hc, hcs⟩ := List.forall_mem_cons.mp h
    have := ih hcs
    exact inferInstanceAs (Std.TransCmp (c.thenBy (inTurn cs)))

/-- Sorting by several comparators is sorting by one after the other, the last one first. -/
theorem sort_inTurn (records : List ρ) : (inTurn cs).sort records = cs.foldr sort records := by
  induction cs with
  | nil => exact List.mergeSort_of_pairwise (List.pairwise_of_forall fun _ _ => rfl)
  | cons c cs ih =>
    obtain ⟨hc, hcs⟩ := List.forall_mem_cons.mp h
    have := transCmp_inTurn hcs
    rw [inTurn, sort_thenBy, ih hcs, List.foldr_cons]

end

end Comparator

/-! ## Keys -/

/-- Records can be sorted by the key. -/
def Key.Orderable (registry : Registry ρ) (key : Key) : Prop :=
  ∃ field, registry.get? key.field = some field ∧ field.type.isOrderable = true

variable {registry : Registry ρ}

theorem Key.Orderable.exists_comparator {key : Key} (h : key.Orderable registry) :
    ∃ c, key.comparator registry = .ok c := by
  obtain ⟨field, hget, horderable⟩ := h
  cases field with
  | scalar type read =>
    rw [Key.comparator, hget]
    exact ⟨_, rfl⟩
  | relation children related => cases horderable

theorem compileKeys_eq_ok {keys : List Key} {cs : List (Comparator ρ)} (hne : keys ≠ [])
    (h : keys.mapM (·.comparator registry) = .ok cs) : compileKeys registry keys = .ok (Comparator.inTurn cs) := by
  have hlength := (forall₂_of_mapM h).length_eq
  rw [compileKeys, h]
  cases cs with
  | nil => exact absurd (List.length_eq_zero_iff.mp hlength) hne
  | cons first later => exact congrArg Except.ok (Comparator.foldl_thenBy first later)

/-- Two keys of one field find the same records equal, in whatever directions. -/
theorem Key.comparator_eq_eq {k key : Key} (hfield : k.field = key.field) {c d : Comparator ρ}
    (hc : k.comparator registry = .ok c) (hd : key.comparator registry = .ok d) {a b : ρ} (h : c a b = .eq) :
    d a b = .eq := by
  have hdirection : ∀ (direction : Direction) (o : Ordering), direction.apply o = .eq ↔ o = .eq := by
    intro direction o
    cases direction <;> cases o <;> simp [Direction.apply]
  unfold Key.comparator at hc hd
  rw [hfield] at hc
  split at hd
  · rename_i hget
    simp only [hget] at hc
    obtain rfl := Except.ok.inj hc
    obtain rfl := Except.ok.inj hd
    rw [hdirection] at h ⊢
    exact h
  · cases hd

/-- A key behind another one of its field changes nothing. -/
theorem compileKeys_append_cons {earlier behind : List Key} {k key : Key} (hk : k ∈ earlier)
    (hfield : k.field = key.field) {cs : List (Comparator ρ)}
    (h : (earlier ++ key :: behind).mapM (·.comparator registry) = .ok cs) :
    compileKeys registry (earlier ++ behind) = .ok (Comparator.inTurn cs) := by
  obtain ⟨cs₁, _, hearlier, hbehind, rfl⟩ := exists_of_mapM_append h
  obtain ⟨d, cs₂, hkey, hbehind', rfl⟩ := exists_of_mapM_cons hbehind
  have hdrop : Comparator.inTurn (cs₁ ++ d :: cs₂) = Comparator.inTurn (cs₁ ++ cs₂) := by
    obtain ⟨c, hc, hck⟩ := exists_mem_of_mapM hearlier hk
    exact Comparator.inTurn_append_cons fun a b hequal => Key.comparator_eq_eq hfield hck hkey (hequal c hc)
  rw [hdrop]
  refine compileKeys_eq_ok (List.append_ne_nil_of_left_ne_nil (List.ne_nil_of_mem hk) behind) ?_
  rw [List.mapM_append, hearlier, hbehind']
  rfl

/-- Things that have a record are sorted by several keys as they are by each key alone, the last key first. That is a
permutation in the order of the keys, it keeps what is equal under every key as it stood, and a key behind another one
of its field may as well be left out. -/
theorem sort_compileKeys {keys : List Key} (hne : keys ≠ []) (horderable : ∀ key ∈ keys, key.Orderable registry) :
    ∃ c cs, compileKeys registry keys = .ok c ∧ keys.mapM (fun key => compileKeys registry [key]) = .ok cs ∧
      (∀ (α : Type) (record : α → ρ) (things : List α),
        let sorted := (c.on record).sort things
        sorted = cs.foldr (fun d => (d.on record).sort) things ∧ sorted.Perm things ∧
          sorted.Pairwise (fun a b => (c.on record a b).isLE = true) ∧
          ∀ a, sorted.filter (fun b => ∀ d ∈ cs, d.on record a b = .eq) =
            things.filter fun b => ∀ d ∈ cs, d.on record a b = .eq) ∧
      ∀ earlier key behind, keys = earlier ++ key :: behind → (∃ k ∈ earlier, k.field = key.field) →
        compileKeys registry (earlier ++ behind) = .ok c := by
  obtain ⟨cs, hcs⟩ := exists_mapM_iff.mpr fun key hkey => (horderable key hkey).exists_comparator
  have htrans : ∀ d ∈ cs, Std.TransCmp d := by
    intro d hd
    obtain ⟨key, -, hkey⟩ := exists_of_mem_mapM hcs hd
    exact (Key.comparator_definable hkey).transCmp
  refine ⟨Comparator.inTurn cs, cs, compileKeys_eq_ok hne hcs, ?_, ?_, ?_⟩
  · simp only [compileKeys_single]
    exact hcs
  · intro α record things
    have htransOn : ∀ d ∈ cs.map (·.on record), Std.TransCmp d := by
      rw [List.forall_mem_map]
      intro d hd
      have := htrans d hd
      infer_instance
    have := Comparator.transCmp_inTurn htransOn
    rw [Comparator.inTurn_on]
    refine ⟨?_, Comparator.perm_sort _ things, Comparator.pairwise_sort _ things, fun a => ?_⟩
    · rw [Comparator.sort_inTurn htransOn, List.foldr_map]
    · have hrow := Comparator.filter_sort (Comparator.inTurn (cs.map (·.on record))) things a
      simpa only [Comparator.inTurn_eq_eq, List.forall_mem_map] using hrow
  · rintro earlier key behind rfl ⟨k, hk, hfield⟩
    exact compileKeys_append_cons hk hfield hcs

/-- Numbers are sorted by their tens, the largest first, and then by their ones. Of the two that are alike the one with
`p` stays ahead. -/
theorem sort_compileKeys_digits :
    let registry : Registry Int := ⟨[("Ones", .scalar .int (· % 10)), ("Tens", .scalar .int (· / 10))]⟩
    let keys : List Key := [⟨"Tens", .desc⟩, ⟨"Ones", .asc⟩, ⟨"Tens", .asc⟩]
    ∃ c, compileKeys registry keys = .ok c ∧ compileKeys registry [⟨"Tens", .desc⟩, ⟨"Ones", .asc⟩] = .ok c ∧
      (c.on Prod.fst).sort [(12, 'o'), (23, 'p'), (23, 'q'), (21, 'r')] =
        [(21, 'r'), (23, 'p'), (23, 'q'), (12, 'o')] := by
  intro registry keys
  have horderable : ∀ key ∈ keys, key.Orderable registry := by
    intro key hkey
    rcases List.mem_cons.mp hkey with rfl | hkey
    · exact ⟨_, rfl, rfl⟩
    rcases List.mem_pair.mp hkey with rfl | rfl
    · exact ⟨_, rfl, rfl⟩
    · exact ⟨_, rfl, rfl⟩
  obtain ⟨c, cs, hc, hcs, hsort, hdrop⟩ := sort_compileKeys (List.cons_ne_nil _ _) horderable
  have hless := hdrop [⟨"Tens", .desc⟩, ⟨"Ones", .asc⟩] ⟨"Tens", .asc⟩ [] rfl
    ⟨⟨"Tens", .desc⟩, List.mem_cons_self, rfl⟩
  refine ⟨c, hc, hless, (hsort _ Prod.fst _).1.trans ?_⟩
  obtain rfl := Except.ok.inj hcs
  cbv

end RecordQuery.Sorting
