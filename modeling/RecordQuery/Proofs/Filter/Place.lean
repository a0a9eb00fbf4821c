import RecordQuery.Proofs.Filter.Remainder
import RecordQuery.Proofs.Filter.Verdict

/-!
Where a fault points. A fault of the scanner that carries a text carries what the scanner left, from the offending
character on: so the text is an end of what was scanned, and its first character is the one that the fault is about.
Compiling hands such a fault on from however deep inside of groups and nested queries it comes, and there it is an end
of a part of the text.
-/
namespace RecordQuery

open Text (isBlank skipBlank)

namespace QueryError

/-- The text that an error points at. -/
def place? : QueryError → Option String
  | unbalancedParenthesis rest | unclosedQuote rest | expectedArray rest | unclosedArray rest
  | expectedChildQuery rest => some rest
  | _ => none

/-- How the text begins that an error points at, if its first character is `first`. -/
def Begins : QueryError → Option Char → Prop
  | unbalancedParenthesis _, first => first = some '(' ∨ first = some ')'
  | unclosedQuote _, first => first = some '\''
  | unclosedArray _, first => first = some '['
  | expectedArray _, first => ∀ c ∈ first, isBlank c = false ∧ c ≠ '['
  | expectedChildQuery _, first => ∀ c ∈ first, isBlank c = false ∧ c ≠ '('
  | _, _ => True

/-- If the error points at a text, then at this one, which begins as it has to. -/
def PointsAt (e : QueryError) (rest : List Char) : Prop :=
  ∀ place, e.place? = some place → place.toList = rest ∧ e.Begins rest.head?

end QueryError

namespace Filter

/-! ## Faults of the scanner -/

variable {α β : Type}

/-- What fails points at what is left. -/
def Scanned.Points (s : Scanned α) : Prop := ∀ e, s.result = .error e → e.PointsAt s.rest

theorem Scanned.Points.ok (a : α) (rest : List Char) : (Scanned.ok a rest).Points := by
  intro e h
  cases h

theorem Scanned.Points.fail {e : QueryError} {rest : List Char} (h : e.PointsAt rest) :
    (Scanned.fail e rest : Scanned α).Points := by
  intro e' he
  obtain rfl := Except.error.inj he
  exact h

theorem Scanned.Points.map {s : Scanned α} (h : s.Points) (f : α → β) : (s.map f).Points := by
  obtain ⟨result, rest⟩ := s
  cases result with
  | ok a => exact .ok _ rest
  | error e => exact .fail (h e rfl)

end Filter

namespace QueryError.PointsAt

/-- An error that points at a text points at that one. -/
theorem self {e : QueryError} {rest : List Char} (hplace : e.place? = some (String.ofList rest))
    (hbegins : e.Begins rest.head?) : e.PointsAt rest := by
  intro place h
  obtain rfl := Option.some.inj (hplace.symm.trans h)
  exact ⟨String.toList_ofList, hbegins⟩

theorem of_place?_eq_none {e : QueryError} (h : e.place? = none) (rest : List Char) : e.PointsAt rest := by
  intro place hplace
  rw [h] at hplace
  cases hplace

end QueryError.PointsAt

namespace Filter

open QueryError (PointsAt)

theorem group_points (cs : List Char) : (group cs).Points := by
  unfold group
  split
  · split
    · exact .ok _ _
    · exact .fail (.self rfl (.inl rfl))
  · exact .ok _ _

/-- What is left behind blanks begins with no blank, nor with the character that is missing. -/
theorem begins_of_ne {cs : List Char} {c : Char} (h : (skipBlank cs).head? ≠ some c) :
    ∀ d ∈ (skipBlank cs).head?, isBlank d = false ∧ d ≠ c := by
  intro d hd
  refine ⟨isBlank_head?_skipBlank cs d hd, ?_⟩
  rintro rfl
  exact h hd

theorem childQuery_points (cs : List Char) : (childQuery cs).Points := by
  have hg := group_points cs
  unfold childQuery
  split
  · exact .ok _ _
  · rename_i rest h
    have hhead := begins_of_ne (head?_of_group_eq_none h)
    rw [← group_eq_none h] at hhead
    exact .fail (.self rfl hhead)
  · rename_i e rest h
    rw [h] at hg
    exact .fail (hg e rfl)

theorem array_points (cs : List Char) : (array cs).Points := by
  unfold array
  split
  · split
    · exact .fail (.self rfl rfl)
    · exact .ok _ _
  · rename_i hopen
    refine .fail (.self rfl (begins_of_ne fun hhead => ?_))
    obtain ⟨rest, hrest⟩ := List.head?_eq_some_iff.mp hhead
    exact hopen rest hrest

theorem literal_points (field operator : String) (cs : List Char) : (literal field operator cs).Points := by
  unfold literal
  split
  · exact .fail (.of_place?_eq_none rfl _)
  · split
    · exact .ok _ _
    · exact .fail (.self rfl rfl)
  · exact .ok _ _

theorem operand_points (field operator : String) (cs : List Char) : (operand field operator cs).Points := by
  unfold operand
  split
  · exact (childQuery_points cs).map _
  · exact (array_points cs).map _
  · exact (literal_points field operator cs).map _

theorem clause_points (cs : List Char) : (clause cs).Points := by
  unfold clause
  dsimp only
  split
  · exact .fail (.of_place?_eq_none rfl _)
  · exact (operand_points _ _ _).map _

theorem term_points (cs : List Char) : (term cs).Points := by
  have hg := group_points cs
  unfold term
  split
  · exact .ok _ _
  · exact (clause_points _).map _
  · rename_i e rest h
    rw [h] at hg
    exact .fail (hg e rfl)

theorem segment_points (cs : List Char) : (segment cs).Points := by
  unfold segment
  split
  · exact .ok _ _
  · dsimp only
    split
    · exact .fail (.of_place?_eq_none rfl _)
    · exact .fail (.self rfl (.inr rfl))
    · exact (term_points _).map _

/-- A fault behind segments points at an end of the text. -/
theorem exists_suffix_of_segments {cs : List Char} {e : QueryError} (h : segments cs = .error e) :
    ∃ rest, rest <:+ cs ∧ e.PointsAt rest := by
  fun_induction segments cs with
  | case1 cs rest hs => cases h
  | case2 cs s rest hs ih =>
    have hsuffix := segment_suffix cs
    rw [hs] at hsuffix
    obtain ⟨place, hplace, hpoints⟩ := ih (eq_error_of_map_eq_error h)
    exact ⟨place, hplace.trans hsuffix, hpoints⟩
  | case3 cs e' rest hs =>
    obtain rfl := Except.error.inj h
    have hsuffix := segment_suffix cs
    have hpoints := segment_points cs
    rw [hs] at hsuffix hpoints
    exact ⟨rest, hsuffix, hpoints e' rfl⟩

/-! ## Faults of compilation -/

/-- Behind a quantifier the scanner reads a nested query, or fails. -/
theorem exists_query_of_operand {field operator : String} {cs rest : List Char} {o : Operand}
    (h : operand field operator cs = .ok o rest) {quantifier : Quantifier}
    (hword : Operator.ofWord? operator = some (.quantify quantifier)) : ∃ query, o = .nested query := by
  unfold operand at h
  rw [hword] at h
  obtain ⟨query, -, rfl⟩ := Scanned.map_eq_ok h
  exact ⟨query, rfl⟩

theorem exists_query_of_term {cs rest : List Char} {c : Clause} (h : term cs = .ok (.clause c) rest)
    {quantifier : Quantifier} (hword : Operator.ofWord? c.operator = some (.quantify quantifier)) :
    ∃ query, c.operand = .nested query := by
  unfold term at h
  split at h
  · cases (Scanned.ok_inj.mp h).1
  · obtain ⟨c', hc, heq⟩ := Scanned.map_eq_ok h
    obtain rfl := Term.clause.inj heq
    obtain ⟨_, _, -, -, -, ho⟩ := clause_eq_ok_iff.mp hc
    exact exists_query_of_operand ho hword
  · exact absurd h Scanned.fail_ne_ok

variable {ρ : Type} {registry : Registry ρ} {nesting : Nesting} {e : QueryError} {place : String}

/-- Of the faults of a clause that was read from a text, only those of its nested query point at a text. -/
theorem exists_query_of_place {c : Clause} (h : compileTerm registry nesting (.clause c) = .error e)
    (hplace : e.place? = some place)
    (hquery : ∀ quantifier, Operator.ofWord? c.operator = some (.quantify quantifier) →
      ∃ query, c.operand = .nested query) :
    ∃ (related : Registry ρ) (deeper : Nesting) (query : String),
      c.operand = .nested query ∧ compileAt related deeper query = .error e := by
  obtain ⟨r, hr⟩ := c.exists_verdict registry nesting
  have hfault : r = .error e := hr.outcome_eq.symm.trans (eq_error_iff_outcome.mp h)
  cases hr with
  | childQuery _ _ hoperand _ => exact ⟨_, _, _, hoperand, eq_error_iff_outcome.mpr hfault⟩
  | expectedChildQuery _ hoperator hoperand =>
    obtain ⟨op, hword, hsupports⟩ := hoperator
    cases op with
    | quantify quantifier =>
      obtain ⟨query, hnested⟩ := hquery quantifier hword
      exact absurd hnested (hoperand query)
    | compare _ | member | text _ => cases hsupports
  | accepted => cases hfault
  | unknownField | unsupportedOperator | unsupportedOperand | nestingTooDeep | invalidLiteral =>
    obtain rfl := Except.error.inj hfault
    cases hplace

theorem place?_of_descend (h : nesting.descend = .error e) : e.place? = none := by
  unfold Nesting.descend at h
  split at h
  · cases h
  · obtain rfl := Except.error.inj h
    rfl

theorem place?_of_join {before? : Option (Predicate ρ)} {test : Predicate ρ} {connective : Option Connective}
    (h : join before? test connective = .error e) : e.place? = none := by
  unfold join at h
  split at h
  · cases h
  · cases h
  · cases h
  · obtain rfl := Except.error.inj h
    rfl

/-- A fault of a term that points at a text is one of the query inside it. -/
theorem exists_inner_of_place {cs rest : List Char} {t : Term} (ht : term cs = .ok t rest)
    (h : compileTerm registry nesting t = .error e) (hplace : e.place? = some place) :
    ∃ (inner : String) (registry' : Registry ρ) (deeper : Nesting),
      t.inner? = some inner ∧ compileAt registry' deeper inner = .error e := by
  cases t with
  | group inner =>
    rw [compileTerm_group] at h
    rcases eq_error_of_bind_eq_error h with hdescend | ⟨deeper, -, hinner⟩
    · rw [place?_of_descend hdescend] at hplace
      cases hplace
    · exact ⟨inner, registry, deeper, rfl, hinner⟩
  | clause c =>
    obtain ⟨related, deeper, query, hoperand, hinner⟩ :=
      exists_query_of_place h hplace fun quantifier hword => exists_query_of_term ht hword
    obtain ⟨field, operator, o⟩ := c
    obtain rfl : o = .nested query := hoperand
    exact ⟨query, related, deeper, rfl, hinner⟩

/-- The induction goes into the query inside a segment's term, which is a part of the text, and on to what is left of
the text behind it. -/
theorem compileFrom_place {before? : Option (Predicate ρ)} {cs : List Char}
    (h : compileFrom registry nesting before? cs = .error e) (hplace : e.place? = some place) :
    place.toList <:+: cs ∧ e.Begins place.toList.head? := by
  induction cs using segment_induction generalizing registry nesting before? with
  | fault cs e' rest hs =>
    rw [compileFrom_eq, hs] at h
    obtain rfl := Except.error.inj h
    have hsuffix := segment_suffix cs
    have hpoints := segment_points cs
    rw [hs] at hsuffix hpoints
    obtain ⟨hrest, hbegins⟩ := hpoints e' rfl place hplace
    rw [hrest]
    exact ⟨hsuffix.isInfix, hbegins⟩
  | done cs rest hs =>
    rw [compileFrom_eq, hs] at h
    cases h
  | more cs s rest hs hquery ih =>
    rw [compileFrom_eq, hs] at h
    rcases eq_error_of_bind_eq_error h with hterm | ⟨test, -, h⟩
    · obtain ⟨_, _, -, -, -, -, -, ht⟩ := segment_eq_some_iff.mp hs
      obtain ⟨inner, registry', deeper, hi, hinner⟩ := exists_inner_of_place ht hterm hplace
      obtain ⟨hwithin, hbegins⟩ := hquery inner hi hinner
      have hpart : inner.toList <:+: '(' :: (inner.toList ++ ')' :: rest) :=
        List.infix_append ['('] inner.toList (')' :: rest)
      exact ⟨hwithin.trans (hpart.trans (segment_inner_suffix hs hi).isInfix), hbegins⟩
    · rcases eq_error_of_bind_eq_error h with hjoin | ⟨before, -, h⟩
      · rw [place?_of_join hjoin] at hplace
        cases hplace
      · obtain ⟨hwithin, hbegins⟩ := ih h
        have hsuffix := segment_suffix cs
        rw [hs] at hsuffix
        exact ⟨hwithin.trans hsuffix.isInfix, hbegins⟩

/-- A fault that points at a text points at the offending place: what scanning reports is an end of the text, what
compiling reports, at any depth, is a part of it, and both begin with the character that the fault is about. -/
theorem fault_place (hplace : e.place? = some place) (text : String) :
    (scan text = .error e → place.toList <:+ text.toList ∧ e.Begins place.toList.head?) ∧
      ∀ {ρ : Type} (registry : Registry ρ) (nesting : Nesting), compileAt registry nesting text = .error e →
        place.toList <:+: text.toList ∧ e.Begins place.toList.head? := by
  constructor
  · intro h
    obtain ⟨rest, hsuffix, hpoints⟩ := exists_suffix_of_segments h
    obtain ⟨rfl, hbegins⟩ := hpoints place hplace
    exact ⟨hsuffix, hbegins⟩
  · intro ρ registry nesting h
    exact compileFrom_place h hplace

/-- The bracket that does not close stands in a group, so that the text that it begins ends with the group. -/
theorem fault_place_bracket :
    let text := "(Größe in [1) or Größe"
    let e : QueryError := .unclosedArray "[1"
    scan "Größe in [1" = .error e ∧ "[1".toList <:+ "Größe in [1".toList ∧
      outcome (compile (Table.empty : Registry Unit) 1 text) = .error e ∧ "[1".toList <:+: text.toList ∧
      e.Begins (some '[') := by
  intro text e
  have hscan : scan "Größe in [1" = .error e := by decide +kernel
  have hcompile : outcome (compile (Table.empty : Registry Unit) 1 text) = .error e := by decide +kernel
  obtain ⟨hend, hbegins⟩ := (fault_place (e := e) rfl "Größe in [1").1 hscan
  exact ⟨hscan, hend, hcompile, ((fault_place rfl text).2 _ _ (eq_error_iff_outcome.mpr hcompile)).1, hbegins⟩

end Filter

end RecordQuery
