import RecordQuery.Proofs.Filter.Batch
import RecordQuery.Proofs.Result

/-!
The names that a text mentions. A filter looks up the fields of its clauses, also of those inside its groups, and no
others; the query about the records of a relation has a registry of its own. So registries that agree in the mentioned
names give a text one meaning, or refuse it for one reason, and what they hold besides has no say in it.
-/
namespace RecordQuery.Filter

variable {ρ : Type}

/-- The fields of the clauses of a text and of its groups, as far as the text can be read. Those in the query behind a
quantifier are not among them. -/
def mentioned (cs : List Char) : List String :=
  match _h : segment cs with
  | ⟨.ok (some ⟨_, .clause c⟩), rest⟩ => c.field :: mentioned rest
  | ⟨.ok (some ⟨_, .group inner⟩), rest⟩ => mentioned inner.toList ++ mentioned rest
  | _ => []
termination_by cs.length
decreasing_by
  · exact segment_length _h
  · rw [String.length_toList]
    exact segment_inner_length _h rfl
  · exact segment_length _h

section

variable {cs rest : List Char} {w : Window}

theorem mentioned_clause {c : Clause} (h : segment cs = ⟨.ok (some ⟨w, .clause c⟩), rest⟩) :
    mentioned cs = c.field :: mentioned rest := by
  rw [mentioned]
  split <;> simp_all

theorem mentioned_group {inner : String} (h : segment cs = ⟨.ok (some ⟨w, .group inner⟩), rest⟩) :
    mentioned cs = mentioned inner.toList ++ mentioned rest := by
  rw [mentioned]
  split <;> simp_all

end

variable {registry registry' : Registry ρ}

/-- A group is read against the same registry, so that its names have to agree as well. -/
theorem compileFrom_congr {cs : List Char} (h : ∀ name ∈ mentioned cs, registry.get? name = registry'.get? name)
    (nesting : Nesting) (before? : Option (Predicate ρ)) :
    compileFrom registry nesting before? cs = compileFrom registry' nesting before? cs := by
  induction cs using segment_induction generalizing nesting before? with
  | fault cs e rest hs => rw [compileFrom_eq, compileFrom_eq, hs]
  | done cs rest hs => rw [compileFrom_eq, compileFrom_eq, hs]
  | more cs s rest hs hquery ih =>
    obtain ⟨w, t⟩ := s
    have hboth : compileTerm registry nesting t = compileTerm registry' nesting t ∧
        ∀ name ∈ mentioned rest, registry.get? name = registry'.get? name := by
      cases t with
      | clause c =>
        rw [mentioned_clause hs, List.forall_mem_cons] at h
        exact ⟨compileClause_congr h.1 nesting, h.2⟩
      | group inner =>
        rw [mentioned_group hs, List.forall_mem_append] at h
        rw [compileTerm_group, compileTerm_group]
        refine ⟨congrArg nesting.descend.bind (funext fun deeper => ?_), h.2⟩
        exact hquery inner rfl h.1 deeper none
    obtain ⟨hterm, hrest⟩ := hboth
    rw [compileFrom_eq, compileFrom_eq, hs]
    simp only [hterm]
    refine congrArg _ (funext fun term => congrArg _ (funext fun before => ?_))
    exact ih hrest nesting (some before)

/-- Two registries that hold the same field, or both none, under each name that a text mentions compile it to the same
test, or refuse it with the same fault. So a field under a name that the text does not mention can come and go. -/
theorem compile_eq_of_mentioned (text : String) :
    (∀ registry registry' : Registry ρ,
      (∀ name ∈ mentioned text.toList, registry.get? name = registry'.get? name) →
      ∀ limit, compile registry limit text = compile registry' limit text) ∧
    ∀ (registry : Registry ρ) (name : String), name ∉ mentioned text.toList →
      ∀ field limit, compile (registry.insert name field) limit text = compile registry limit text := by
  have hsame : ∀ registry registry' : Registry ρ,
      (∀ name ∈ mentioned text.toList, registry.get? name = registry'.get? name) →
      ∀ limit, compile registry limit text = compile registry' limit text :=
    fun registry registry' h limit => compileFrom_congr h (.ofLimit limit) none
  refine ⟨hsame, fun registry name hname field limit => hsame _ _ (fun other hother => ?_) limit⟩
  have hne : other ≠ name := by
    rintro rfl
    exact hname hother
  rw [Table.get?_insert, if_neg hne]

/-- The query about the words mentions `Text`, and the filter does not: a field of this name may be there or not. The
rest of a text that cannot be read mentions nothing. -/
theorem compile_eq_of_mentioned_words :
    let words : Registry String := ⟨[("Text", .scalar .string id)]⟩
    let registry : Registry String := ⟨[("Size", .scalar .int fun text => text.length),
      ("Words", .relation (fun text => text.splitOn " ") words)]⟩
    let registry' : Registry String := ⟨[("Size", .scalar .int fun text => text.length)]⟩
    let text := "(Size greaterThan 3) and Words any (Text equals 'a')"
    let broken := "Size lessThan 1 or )Words"
    mentioned text.toList = ["Size", "Words"] ∧ outcome (compile registry 1 text) = .ok () ∧
      compile (registry.insert "Text" (.scalar .int fun _ => 0)) 1 text = compile registry 1 text ∧
      mentioned broken.toList = ["Size"] ∧ compile registry 1 broken = compile registry' 1 broken := by
  intro words registry registry' text broken
  have hmentioned : mentioned text.toList = ["Size", "Words"] := by decide +kernel
  have hbroken : mentioned broken.toList = ["Size"] := by decide +kernel
  have hok : outcome (compile registry 1 text) = .ok () := by decide +kernel
  have hnot : "Text" ∉ mentioned text.toList := by
    rw [hmentioned]
    decide
  have hagree : ∀ name ∈ mentioned broken.toList, registry.get? name = registry'.get? name := by
    rw [hbroken, List.forall_mem_singleton]
    rfl
  have hinsert := (compile_eq_of_mentioned text).2 registry "Text" hnot (.scalar .int fun _ => 0) 1
  have hsame := (compile_eq_of_mentioned broken).1 registry registry' hagree 1
  exact ⟨hmentioned, hok, hinsert, hbroken, hsame⟩

end RecordQuery.Filter
