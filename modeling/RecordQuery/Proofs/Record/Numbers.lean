import RecordQuery.Proofs.Number.Decimal
import RecordQuery.Proofs.Record.Related
import RecordQuery.Proofs.Record.Values

/-!
Numbers and their texts. A record may hold a decimal as a number or as the text of that number, and a query writes it as
text: there are three ways to read one, and they find the same decimal or none. So it makes no difference to a query
which way the record holds it, and the text of a number finds the records that hold the number.
-/
namespace RecordQuery

namespace Scalar

variable {type : Scalar}

/-- Two members that hold the same number: for a decimal, one may be a number and the other one its text. -/
inductive SameNumber (type : Scalar) : Option Json → Option Json → Prop
  | same (value : Option Json) : SameNumber type value value
  | toText (htype : type ∈ [decimal, optionalDecimal]) (n : Numeral) :
      SameNumber type (some (.number n)) (some (.string (Json.numeralText n)))
  | ofText (htype : type ∈ [decimal, optionalDecimal]) (n : Numeral) :
      SameNumber type (some (.string (Json.numeralText n))) (some (.number n))

/-- Every integer of 64 bits fits the coefficient of a decimal. -/
theorem natAbs_le_maxCoefficient {n : Int} (h : Number.isInt64 n = true) : n.natAbs ≤ Decimal.maxCoefficient := by
  simp only [Number.isInt64, Bool.and_eq_true, decide_eq_true_eq] at h
  rw [Decimal.maxCoefficient]
  omega

/-- A number is read like its text; an integer of 64 bits, which is not read by way of its text, as well. -/
theorem ofJson?_number (htype : type ∈ [decimal, optionalDecimal]) (n : Numeral) :
    type.ofJson? (.number n) = type.ofJson? (.string (Json.numeralText n)) := by
  have hint : ∀ n : Int, (if Number.isInt64 n then some (Decimal.ofInt n) else Decimal.ofText? (toString n).toList) =
      Decimal.ofText? (toString n).toList := by
    intro n
    split
    · rename_i h
      exact (Decimal.ofText?_toString (natAbs_le_maxCoefficient h)).symm
    · rfl
  rcases List.mem_pair.mp htype with rfl | rfl
  all_goals
    cases n with
    | float x => rfl
    | int n => exact hint n

theorem SameNumber.reads {a b : Option Json} (h : type.SameNumber a b) :
    a.bind type.ofJson? = b.bind type.ofJson? := by
  cases h with
  | same => rfl
  | toText htype n => exact ofJson?_number htype n
  | ofText htype n => exact (ofJson?_number htype n).symm

/-- The text of a number is read as a literal as it is in a record. -/
theorem ofText?_numeralText (htype : type ∈ [decimal, optionalDecimal]) (n : Numeral) :
    type.ofText? (Json.numeralText n) = type.ofJson? (.number n) := by
  rw [ofJson?_number htype]
  rcases List.mem_pair.mp htype with rfl | rfl <;> rfl

end Scalar

namespace Schema

open RecordQuery.Filter

variable {schema : Schema} {name : String} {type : Scalar}

/-- The text of a number that is read as a decimal finds the records that hold the number, by itself or in an array. -/
theorem compileClause_numeral (hget : schema.get? name = some (.scalar type))
    (htype : type ∈ [.decimal, .optionalDecimal]) {n : Numeral} (hsome : (type.ofJson? (.number n)).isSome = true)
    (nesting : Nesting) : ∃ equal,
      compileClause (registry schema) nesting ⟨name, "equals", .literal (Json.numeralText n)⟩ = .ok equal ∧
      (∀ record, record.get? name = some (.number n) → equal record = true) ∧
      ∀ items, Json.numeralText n ∈ items → (∀ item ∈ items, type.Reads item) → ∃ member,
        compileClause (registry schema) nesting ⟨name, "in", .array items⟩ = .ok member ∧
        ∀ record, record.get? name = some (.number n) → member record = true := by
  obtain ⟨v, hv⟩ := Option.isSome_iff_exists.mp hsome
  have htext : type.ofText? (Json.numeralText n) = some v := (Scalar.ofText?_numeralText htype n).trans hv
  have hmember : (FieldType.scalar type).supports .member = true := by
    rcases List.mem_pair.mp htype with rfl | rfl <;> rfl
  have hbool := Scalar.ne_optionalBool_of_member hmember
  have hget := get?_registry_scalar hget
  obtain ⟨equal, hequal, hholds⟩ := compileClause_equals_value hget hbool htext nesting
  refine ⟨equal, hequal, fun record hrecord => hholds record (Scalar.value?_read hrecord hv), ?_⟩
  intro items hitem hitems
  obtain ⟨member, hcompile, hmembers⟩ := compileClause_in_value hget hmember htext hitem hitems nesting
  exact ⟨member, hcompile, fun record hrecord => hmembers record (Scalar.value?_read hrecord hv)⟩

/-- A comparison with the text of an integer compares the integers. -/
theorem compileClause_integer (hget : schema.get? name = some (.scalar type)) (htype : type ∈ [.int, .optionalInt])
    {m : Int} (hm : Number.isInt64 m = true) {word : String} {c : Comparison}
    (hword : Operator.ofWord? word = some (.compare c)) (nesting : Nesting) :
    ∃ test, compileClause (registry schema) nesting ⟨name, word, .literal (toString m)⟩ = .ok test ∧
      ∀ (n : Int) record, Number.isInt64 n = true → record.get? name = some (.number (.int n)) →
        test record = c.admits (compare n m) := by
  have htext := Number.int64?_toString hm
  rcases List.mem_pair.mp htype with rfl | rfl
  all_goals
    have hget := get?_registry_scalar hget
    obtain ⟨test, htest, hholds⟩ := compileClause_compare_value hget (by decide) hword htext nesting
    exact ⟨test, htest, fun n record hn hrecord => hholds record n (Scalar.value?_read hrecord (if_pos hn))⟩

/-- Numbers mean the same from every spelling. An integer of 64 bits is the decimal that its text is read as, and any
number under a field of decimals is read like its text, so that no query tells records apart that differ in this, at
whatever places. Where a number is read as a decimal its text is a literal for it: the clauses `equals` and `in` find
the records that hold the number. The text of an integer is a literal of integers in the same way, and the comparisons
with it are those of the integers. -/
theorem query_numbers (schema : Schema) :
    (∀ n : Int, Number.isInt64 n = true → Decimal.ofText? (toString n).toList = some (.ofInt n)) ∧
    (∀ type ∈ [Scalar.decimal, .optionalDecimal], ∀ n,
      type.ofJson? (.number n) = type.ofJson? (.string (Json.numeralText n))) ∧
    (∀ limit text p, Filter.compile (registry schema) limit text = .ok p →
      ∀ a b, schema.Related Scalar.SameNumber a b → p a = p b) ∧
    (∀ text c, Sorting.compile (registry schema) text = .ok c →
      ∀ a a' b b', schema.Related Scalar.SameNumber a a' → schema.Related Scalar.SameNumber b b' → c a b = c a' b') ∧
    (∀ name, ∀ type ∈ [Scalar.decimal, .optionalDecimal], schema.get? name = some (.scalar type) →
      ∀ n, (type.ofJson? (.number n)).isSome = true → ∀ nesting, ∃ equal,
        compileClause (registry schema) nesting ⟨name, "equals", .literal (Json.numeralText n)⟩ = .ok equal ∧
        (∀ record, record.get? name = some (.number n) → equal record = true) ∧
        ∀ items, Json.numeralText n ∈ items → (∀ item ∈ items, type.Reads item) → ∃ member,
          compileClause (registry schema) nesting ⟨name, "in", .array items⟩ = .ok member ∧
          ∀ record, record.get? name = some (.number n) → member record = true) ∧
    ∀ name, ∀ type ∈ [Scalar.int, .optionalInt], schema.get? name = some (.scalar type) →
      ∀ m : Int, Number.isInt64 m = true → ∀ nesting, ∃ equal less greater,
        compileClause (registry schema) nesting ⟨name, "equals", .literal (toString m)⟩ = .ok equal ∧
        compileClause (registry schema) nesting ⟨name, "lessThan", .literal (toString m)⟩ = .ok less ∧
        compileClause (registry schema) nesting ⟨name, "greaterThan", .literal (toString m)⟩ = .ok greater ∧
        ∀ (n : Int) record, Number.isInt64 n = true → record.get? name = some (.number (.int n)) →
          (equal record = true ↔ n = m) ∧ (less record = true ↔ n < m) ∧ (greater record = true ↔ m < n) := by
  obtain ⟨hfilter, hsort⟩ := query_related (R := Scalar.SameNumber) (fun _ _ _ h => h.reads) schema
  refine ⟨fun n hn => Decimal.ofText?_toString (Scalar.natAbs_le_maxCoefficient hn),
    fun type htype n => Scalar.ofJson?_number htype n, hfilter, hsort, ?_, ?_⟩
  · exact fun name type htype hget n hsome nesting => compileClause_numeral hget htype hsome nesting
  · intro name type htype hget m hm nesting
    have hwords : Operator.ofWord? "equals" = some (.compare .equals) ∧
        Operator.ofWord? "lessThan" = some (.compare .lessThan) ∧
        Operator.ofWord? "greaterThan" = some (.compare .greaterThan) := ⟨rfl, rfl, rfl⟩
    obtain ⟨equal, hequal, hequals⟩ := compileClause_integer hget htype hm hwords.1 nesting
    obtain ⟨less, hless, hbelow⟩ := compileClause_integer hget htype hm hwords.2.1 nesting
    obtain ⟨greater, hgreater, habove⟩ := compileClause_integer hget htype hm hwords.2.2 nesting
    refine ⟨equal, less, greater, hequal, hless, hgreater, fun n record hn hrecord => ?_⟩
    rw [hequals n record hn hrecord, hbelow n record hn hrecord, habove n record hn hrecord, Comparison.lessThan_admits,
      Comparison.greaterThan_admits, decide_eq_true_iff, decide_eq_true_iff, compare_lt_iff_lt, compare_gt_iff_gt]
    refine ⟨?_, Iff.rfl, Iff.rfl⟩
    rw [Comparison.admits, Ordering.isEq_iff_eq_eq, compare_eq_iff_eq]

/-- One record holds a price that is written with an exponent and a cost inside a list as numbers, the other one as
texts. -/
theorem query_numbers_prices :
    let costs : Schema := ⟨[("Cost", .scalar .decimal)]⟩
    let schema : Schema := ⟨[("Count", .scalar .int), ("Items", .relation costs), ("Price", .scalar .optionalDecimal)]⟩
    let price : Numeral := .float ⟨false, 7555786372591432, -76⟩
    let record : Json := .object [("Count", .number (.int 3)),
      ("Items", .array [.object [("Cost", .number (.int (-2)))]]), ("Price", .number price)]
    let written : Json := .object [("Count", .number (.int 3)),
      ("Items", .array [.object [("Cost", .string "-2")]]), ("Price", .string "1e-7")]
    let clause := fun field operator operand =>
      compileClause (registry schema) (.ofLimit 0) ⟨field, operator, operand⟩
    Decimal.ofText? "-2".toList = some (.ofInt (-2)) ∧
    Scalar.ofJson? .optionalDecimal (.number price) = Scalar.ofJson? .optionalDecimal (.string "1e-7") ∧
    schema.Related Scalar.SameNumber record written ∧
    (∃ p, Filter.compile (registry schema) 1 "Price lessThan 1 and Items any (Cost equals -2)" = .ok p ∧
      p record = p written) ∧
    (∃ c, Sorting.compile (registry schema) "Price desc" = .ok c ∧ ∀ other, c record other = c written other) ∧
    (∃ equal, clause "Price" "equals" (.literal "1e-7") = .ok equal ∧ equal record = true) ∧
    (∃ member, clause "Price" "in" (.array ["null", "1e-7"]) = .ok member ∧ member record = true) ∧
    ∃ less, clause "Count" "lessThan" (.literal "4") = .ok less ∧ less record = true := by
  intro costs schema price record written clause
  have htext : Json.numeralText price = "1e-7" := by decide +kernel
  have hminus : toString (-2 : Int) = "-2" := by decide +kernel
  have hrelated : schema.Related Scalar.SameNumber record written := by
    have hcost : Scalar.SameNumber .decimal (some (.number (.int (-2)))) (some (.string (toString (-2 : Int)))) :=
      .toText (by decide) (.int (-2))
    have hprice : Scalar.SameNumber .optionalDecimal (some (.number price)) (some (.string (Json.numeralText price))) :=
      .toText (by decide) price
    rw [hminus] at hcost
    rw [htext] at hprice
    exact ⟨.same _, .cons ⟨hcost, trivial⟩ .nil, hprice, trivial⟩
  have hrefl : ∀ other, schema.Related Scalar.SameNumber other other := fun other =>
    related_refl (fun _ value => .same value) other schema
  obtain ⟨hinteger, hread, hfilter, hsort, hdecimal, hint⟩ := query_numbers schema
  obtain ⟨p, hp⟩ : ∃ p, Filter.compile (registry schema) 1 "Price lessThan 1 and Items any (Cost equals -2)" = .ok p :=
    exists_ok_iff_outcome.mpr (by decide +kernel)
  obtain ⟨c, hc⟩ : ∃ c, Sorting.compile (registry schema) "Price desc" = .ok c :=
    exists_ok_iff_outcome.mpr (by decide +kernel)
  obtain ⟨equal, hequal, hequals, hmember⟩ :=
    hdecimal "Price" .optionalDecimal (by decide) rfl price (by decide +kernel) (.ofLimit 0)
  rw [htext] at hequal hmember
  obtain ⟨member, hmember, hmembers⟩ := hmember ["null", "1e-7"] (by decide)
    (List.forall_mem_cons.mpr ⟨.inr (by decide), List.forall_mem_singleton.mpr (.inl (by decide +kernel))⟩)
  obtain ⟨_, less, _, -, hless, -, hints⟩ := hint "Count" .int (by decide) rfl 4 rfl (.ofLimit 0)
  refine ⟨hminus ▸ hinteger (-2) rfl, ?_, hrelated, ⟨p, hp, hfilter 1 _ p hp _ _ hrelated⟩,
    ⟨c, hc, fun other => hsort _ c hc _ _ _ _ hrelated (hrefl other)⟩, ⟨equal, hequal, hequals record rfl⟩,
    ⟨member, hmember, hmembers record rfl⟩, less, hless, (hints 3 record rfl rfl).2.1.mpr (by decide)⟩
  rw [← htext]
  exact hread .optionalDecimal (by decide) price

end Schema

end RecordQuery
