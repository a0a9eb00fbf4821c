import RecordQuery.Proofs.Filter.Limit
import RecordQuery.Proofs.Filter.Remainder
import Mathlib.Data.Nat.Find

/-!
The limit on nesting is a threshold. Each level that a compilation goes down takes an opening parenthesis of the
text, so that a limit as large as their number is never reached. Below some least limit the nesting is too deep, and
from there on every limit gives the same result.
-/
namespace RecordQuery.Filter

variable {ρ α : Type}

theorem shallow_iff {r : Except QueryError α} : Shallow r ↔ ∀ limit, r ≠ .error (.nestingTooDeep limit) := by
  cases r with
  | ok a => simp [Shallow]
  | error e => cases e <;> simp [Shallow, QueryError.Shallow]

/-! ## Room for every parenthesis -/

variable {registry : Registry ρ} {n : Nesting}

/-- A query inside a term finds room, and has to get on with one level less. -/
theorem compileTerm_shallow {t : Term} (hroom : ∀ query, t.inner? = some query → 0 < n.room)
    (hinner : ∀ (registry : Registry ρ) (query : String) (m : Nesting), t.inner? = some query →
      m.room + 1 = n.room → Shallow (compileAt registry m query)) : Shallow (compileTerm registry n t) := by
  have hshallow := resolve_shallow registry t
  cases hr : t.resolve registry with
  | error e =>
    rw [hr] at hshallow
    rw [compileTerm, hr]
    exact hshallow
  | ok r =>
    cases r with
    | test test =>
      rw [compileTerm_of_test hr]
      trivial
    | inner registry' query lift =>
      have hi := inner?_of_resolve hr
      have hpos := hroom query hi
      unfold Nesting.room at hpos hinner
      have hlt : n.depth < n.limit := by omega
      rw [compileTerm_of_inner hr, Nesting.descend, if_pos hlt]
      refine Shallow.map (hinner registry' query ⟨n.depth + 1, n.limit⟩ hi ?_) lift
      dsimp only
      omega

/-- Of the parentheses of a text, each level below takes one. -/
theorem compileFrom_shallow (before? : Option (Predicate ρ)) {cs : List Char} (hroom : cs.count '(' ≤ n.room) :
    Shallow (compileFrom registry n before? cs) := by
  induction cs using segment_induction generalizing registry n before? with
  | fault cs e rest hs =>
    have hshallow := segment_shallow cs
    rw [hs] at hshallow
    rw [compileFrom_eq, hs]
    exact hshallow
  | done cs rest hs =>
    rw [compileFrom_eq, hs]
    trivial
  | more cs s rest hs hquery ih =>
    have hterm : Shallow (compileTerm registry n s.term) := by
      refine compileTerm_shallow (fun query hi => ?_) fun registry' query m hi hm => ?_
      · have := segment_inner_count hs hi
        omega
      · have hcount := segment_inner_count hs hi
        exact hquery query hi none (by omega)
    have hrest := segment_suffix cs
    rw [hs] at hrest
    rw [compileFrom_eq, hs]
    refine hterm.bind fun term => (join_shallow _ _ _).bind fun before => ?_
    exact ih (some before) ((hrest.sublist.count_le '(').trans hroom)

theorem compile_shallow (registry : Registry ρ) {limit : Nat} {text : String}
    (h : text.toList.count '(' ≤ limit) : Shallow (compile registry limit text) :=
  compileFrom_shallow none h

/-! ## The threshold -/

/-- What is not too deep for a limit is not so for a greater one, and stays as it is. -/
theorem compile_eq_of_le {limit limit' : Nat} (hle : limit ≤ limit') {text : String}
    (h : Shallow (compile registry limit text)) : compile registry limit' text = compile registry limit text := by
  have hroom : (Nesting.ofLimit limit).room ≤ (Nesting.ofLimit limit').room := by
    simpa [Nesting.room, Nesting.ofLimit] using hle
  rcases compileFrom_extends hroom registry none text.toList with hdeep | ⟨heq, -⟩
  · rw [compile, compileAt, hdeep] at h
    exact h.elim
  · exact heq

theorem compile_of_not_shallow {limit : Nat} {text : String} (h : ¬ Shallow (compile registry limit text)) :
    compile registry limit text = .error (.nestingTooDeep limit) := by
  have hroom := Nat.le_refl (Nesting.ofLimit limit).room
  rcases compileFrom_extends hroom registry none text.toList with hdeep | ⟨-, hshallow⟩
  · exact hdeep
  · exact absurd hshallow h

/-- The limit decides whether a text is compiled to the end, and on nothing else. Once a limit lets a result through, a
greater one gives the same result, be it a test or a fault of another kind; a limit that is no less than the number of
opening parentheses always lets one through. So each text has a depth of its own, from which on there is one result. -/
theorem compile_threshold (registry : Registry ρ) (text : String) :
    (∀ limit limit', limit ≤ limit' → (∀ l, compile registry limit text ≠ .error (.nestingTooDeep l)) →
      compile registry limit' text = compile registry limit text) ∧
    (∀ limit, text.toList.count '(' ≤ limit → ∀ l, compile registry limit text ≠ .error (.nestingTooDeep l)) ∧
    ∃ depth result, depth ≤ text.toList.count '(' ∧ (∀ l, result ≠ .error (.nestingTooDeep l)) ∧
      ∀ limit, compile registry limit text = if depth ≤ limit then result else .error (.nestingTooDeep limit) := by
  classical
  refine ⟨fun limit limit' hle h => ?_, fun limit hle => ?_, ?_⟩
  · exact compile_eq_of_le hle (shallow_iff.mpr h)
  · exact shallow_iff.mp (compile_shallow registry hle)
  · have henough : ∃ limit, Shallow (compile registry limit text) := ⟨_, compile_shallow registry (Nat.le_refl _)⟩
    refine ⟨Nat.find henough, compile registry (Nat.find henough) text, ?_, ?_, fun limit => ?_⟩
    · exact Nat.find_min' henough (compile_shallow registry (Nat.le_refl _))
    · exact shallow_iff.mp (Nat.find_spec henough)
    · split
      · rename_i hle
        exact compile_eq_of_le hle (Nat.find_spec henough)
      · rename_i hlt
        exact compile_of_not_shallow (Nat.find_min henough (Nat.lt_of_not_le hlt))

/-- One of the two parentheses stands in a literal, so that a limit of one is enough, and a limit of two is certain to
be. -/
theorem compile_threshold_quoted :
    let words : Registry String := ⟨[("Text", .scalar .string id)]⟩
    let registry : Registry String := ⟨[("Words", .relation (fun text => text.splitOn " ") words)]⟩
    let text := "Words any (Text equals '(')"
    text.toList.count '(' = 2 ∧ compile registry 0 text = .error (.nestingTooDeep 0) ∧
      (∀ l, compile registry 1 text ≠ .error (.nestingTooDeep l)) ∧
      compile registry 4 text = compile registry 1 text ∧
      ∀ l, compile registry 2 text ≠ .error (.nestingTooDeep l) := by
  intro words registry text
  have hcount : text.toList.count '(' = 2 := by decide +kernel
  have hdeep : outcome (compile registry 0 text) = .error (.nestingTooDeep 0) := by decide +kernel
  have hok : outcome (compile registry 1 text) = .ok () := by decide +kernel
  have hshallow : ∀ l, compile registry 1 text ≠ .error (.nestingTooDeep l) := by
    intro l hl
    rw [hl] at hok
    cases hok
  obtain ⟨hsame, henough, -⟩ := compile_threshold registry text
  exact ⟨hcount, eq_error_iff_outcome.mpr hdeep, hshallow, hsame 1 4 (by decide) hshallow, henough 2 hcount.le⟩

end RecordQuery.Filter
