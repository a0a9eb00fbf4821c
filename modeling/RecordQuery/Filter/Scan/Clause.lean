import RecordQuery.Filter.Scan.Group

/-!
Scanning clauses. The operator decides on the form of the operand: a query in parentheses behind a quantifier,
an array behind `in`, and otherwise one literal. A clause that is read leaves strictly less text.
-/
namespace RecordQuery.Filter

open Text (isBlank skipBlank trim)

/-- Reads the query behind a quantifier. -/
def childQuery (cs : List Char) : Scanned String :=
  match group cs with
  | ⟨.ok (some inner), rest⟩ => .ok inner rest
  | ⟨.ok none, rest⟩ => .fail (.expectedChildQuery (String.ofList rest)) rest
  | ⟨.error e, rest⟩ => .fail e rest

/-- An item of an array without one pair of quotes around it. A single quote is no pair. -/
def unquote (item : List Char) : List Char :=
  match item with
  | '\'' :: inner => if inner.getLast? = some '\'' then inner.dropLast else item
  | _ => item

/-- The items of an array, which commas part; a blank array has none. -/
def arrayItems (content : List Char) : List String :=
  if (trim content).isEmpty then []
  else (content.splitOn ',').map fun item => String.ofList (unquote (trim item))

/-- Reads an array up to the first closing bracket. -/
def array (cs : List Char) : Scanned (List String) :=
  match skipBlank cs with
  | '[' :: rest =>
    match rest.dropWhile (· ≠ ']') with
    | [] => .fail (.unclosedArray (String.ofList ('[' :: rest))) ('[' :: rest)
    | _ :: after => .ok (arrayItems (rest.takeWhile (· ≠ ']'))) after
  | cs => .fail (.expectedArray (String.ofList cs)) cs

/-- Reads up to the quote that closes a literal, and past it. -/
def quoted? : List Char → Option (List Char × List Char)
  | [] => none
  | c :: rest =>
    if c = '\'' && closesQuote rest then some ([], rest)
    else (quoted? rest).map fun (text, rest) => (c :: text, rest)

/-- Reads a literal, in quotes or as a word; the field and the operator are for the fault. -/
def literal (field operator : String) (cs : List Char) : Scanned String :=
  match skipBlank cs with
  | [] => .fail (.missingOperand field operator) []
  | '\'' :: rest =>
    match quoted? rest with
    | some (text, rest) => .ok (String.ofList text) rest
    | none => .fail (.unclosedQuote (String.ofList ('\'' :: rest))) ('\'' :: rest)
  | cs =>
    let (text, rest) := word [')'] cs
    .ok (String.ofList text) rest

/-- Reads the operand that the operator calls for. -/
def operand (field operator : String) (cs : List Char) : Scanned Operand :=
  match Operator.ofWord? operator with
  | some (.quantify _) => (childQuery cs).map .nested
  | some .member => (array cs).map .array
  | _ => (literal field operator cs).map .literal

/-- Reads a field, an operator and an operand. -/
def clause (cs : List Char) : Scanned Clause :=
  let (field, cs) := word [] (skipBlank cs)
  let (operator, cs) := word ['(', '['] (skipBlank cs)
  let field := String.ofList field
  if operator.isEmpty then .fail (.missingOperator field) cs
  else
    let operator := String.ofList operator
    (operand field operator cs).map fun operand => ⟨field, operator, operand⟩

/-! ## What is used up -/

theorem childQuery_length {cs rest : List Char} {query : String}
    (h : childQuery cs = ⟨.ok query, rest⟩) : query.length + rest.length < cs.length := by
  unfold childQuery at h
  split at h
  · rename_i hg
    simp only [Scanned.ok, Scanned.mk.injEq, Except.ok.injEq] at h
    obtain ⟨rfl, rfl⟩ := h
    exact group_length hg
  · simp [Scanned.fail] at h
  · simp [Scanned.fail] at h

theorem array_length {cs rest : List Char} {items : List String}
    (h : array cs = ⟨.ok items, rest⟩) : rest.length ≤ cs.length := by
  have hle := Text.skipBlank_length_le cs
  unfold array at h
  split at h
  · rename_i r hr
    split at h
    · simp [Scanned.fail] at h
    · rename_i c after hafter
      simp only [Scanned.ok, Scanned.mk.injEq] at h
      have := (List.dropWhile_sublist (· ≠ ']') (l := r)).length_le
      rw [hafter] at this
      rw [hr] at hle
      simp only [List.length_cons, ← h.2] at *
      omega
  · simp [Scanned.fail] at h

theorem quoted?_eq_some {cs text rest : List Char} (h : quoted? cs = some (text, rest)) :
    cs = text ++ '\'' :: rest ∧ closesQuote rest = true := by
  induction cs generalizing text with
  | nil => simp [quoted?] at h
  | cons c cs ih =>
    unfold quoted? at h
    split at h
    · rename_i hc
      simp only [Bool.and_eq_true, decide_eq_true_eq] at hc
      simp only [Option.some.injEq, Prod.mk.injEq] at h
      obtain ⟨rfl, rfl⟩ := h
      simp [hc.1, hc.2]
    · obtain ⟨⟨text', rest'⟩, h', heq⟩ := Option.map_eq_some_iff.1 h
      simp only [Prod.mk.injEq] at heq
      obtain ⟨rfl, rfl⟩ := heq
      obtain ⟨rfl, hclose⟩ := ih h'
      exact ⟨rfl, hclose⟩

theorem literal_length {field operator text : String} {cs rest : List Char}
    (h : literal field operator cs = ⟨.ok text, rest⟩) : rest.length ≤ cs.length := by
  have hle := Text.skipBlank_length_le cs
  unfold literal at h
  split at h
  · simp [Scanned.fail] at h
  · rename_i r hr
    split at h
    · rename_i hq
      simp only [Scanned.ok, Scanned.mk.injEq] at h
      rw [hr, (quoted?_eq_some hq).1] at hle
      simp only [List.length_cons, List.length_append, ← h.2] at *
      omega
    · simp [Scanned.fail] at h
  · simp only [Scanned.ok, Scanned.mk.injEq] at h
    rw [← h.2]
    exact Nat.le_trans (word_length_le _ _) hle

theorem operand_length {field operator : String} {cs rest : List Char} {o : Operand}
    (h : operand field operator cs = ⟨.ok o, rest⟩) : rest.length ≤ cs.length := by
  unfold operand at h
  split at h <;> obtain ⟨_, h', _⟩ := Scanned.map_eq_ok h
  · have := childQuery_length h'
    omega
  · exact array_length h'
  · exact literal_length h'

theorem operand_nested_length {field operator query : String} {cs rest : List Char}
    (h : operand field operator cs = ⟨.ok (.nested query), rest⟩) : query.length < cs.length := by
  unfold operand at h
  split at h <;> obtain ⟨_, h', heq⟩ := Scanned.map_eq_ok h <;> cases heq
  have := childQuery_length h'
  omega

theorem clause_eq_ok {cs rest : List Char} {c : Clause} (h : clause cs = ⟨.ok c, rest⟩) :
    ∃ cs', cs'.length < cs.length ∧ operand c.field c.operator cs' = ⟨.ok c.operand, rest⟩ := by
  simp only [clause] at h
  split at h
  · simp [Scanned.fail] at h
  · rename_i hne
    obtain ⟨o, h', rfl⟩ := Scanned.map_eq_ok h
    refine ⟨_, ?_, h'⟩
    have hle := Text.skipBlank_length_le cs
    have hle₁ := Text.skipBlank_length_le (word [] (skipBlank cs)).2
    have ha₁ := congrArg List.length (word_append [] (skipBlank cs))
    have ha₂ := congrArg List.length (word_append ['(', '['] (skipBlank (word [] (skipBlank cs)).2))
    have := List.length_pos_iff.2 (mt List.isEmpty_iff.2 hne)
    simp only [List.length_append] at ha₁ ha₂
    omega

theorem clause_length {cs rest : List Char} {c : Clause} (h : clause cs = ⟨.ok c, rest⟩) :
    rest.length < cs.length := by
  obtain ⟨cs', hlt, h'⟩ := clause_eq_ok h
  exact Nat.lt_of_le_of_lt (operand_length h') hlt

end RecordQuery.Filter
