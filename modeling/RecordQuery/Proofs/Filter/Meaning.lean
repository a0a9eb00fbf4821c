import RecordQuery.Proofs.Filter.Membership
import RecordQuery.Proofs.Filter.Tree

/-!
The meaning of trees, and what compiling their texts gives. A tree holds of a record by the types of its fields: a
clause compares the value of a field, which may be absent, and a tree about related records asks for any or all of
them. The text of a tree compiles to its meaning exactly if the limit allows its depth.
-/
namespace RecordQuery.Filter

variable {ρ : Type}

/-! ## Meaning -/

/-- Whether a value passes the comparison. A value is in an array if it equals one of the items, and a literal that
the type does not have is passed by no value. -/
def Comparand.holds (type : Scalar) (field : String) (op : Operator) (value : Option type.Value) :
    Comparand → Bool
  | literal text =>
    match op with
    | .compare comparison => (type.literal field text).toOption.any (Clause.compareScalar type comparison value)
    | .text test => (value.bind type.text?).any fun whole => test.holds whole text
    | _ => false
  | array items => items.any fun item =>
    (type.literal field item).toOption.any (Clause.compareScalar type .equals value)

def Joint.holds : Joint → Bool → Bool → Bool
  | and, before, value => before && value
  | or, before, value => before || value

def turn (negated value : Bool) : Bool :=
  if negated then !value else value

mutual

def Atom.holds : Atom → Registry ρ → Predicate ρ
  | .clause field operator comparand, registry, record =>
    match registry.get? field with
    | some (.scalar type read) => comparand.holds type field operator.op (type.value? (read record))
    | _ => false
  | .group tree, registry, record => tree.holds registry record
  | .related field quantifier tree, registry, record =>
    match registry.get? field with
    | some (.relation children related) => quantifier.holds (children record) (tree.holds related)
    | _ => false

def Tree.holds : Tree → Registry ρ → Predicate ρ
  | .empty, _, _ => true
  | .row negated first others, registry, record =>
    others.holds registry record (turn negated (first.holds registry record))

/-- The value of a row from left to right, behind the value of what stands before. -/
def Others.holds : Others → Registry ρ → ρ → Bool → Bool
  | .nil, _, _, before => before
  | .cons joint negated atom others, registry, record, before =>
    others.holds registry record (joint.holds before (turn negated (atom.holds registry record)))

end

mutual

/-- How deep groups and trees about related records stand in one another. -/
def Atom.depth : Atom → Nat
  | .clause _ _ _ => 0
  | .group tree => tree.depth + 1
  | .related _ _ tree => tree.depth + 1

def Tree.depth : Tree → Nat
  | .empty => 0
  | .row _ first others => max first.depth others.depth

def Others.depth : Others → Nat
  | .nil => 0
  | .cons _ _ atom others => max atom.depth others.depth

end

/-! ## Types -/

/-- All literals are literals of the type. -/
def Comparand.Typed (type : Scalar) (field : String) : Comparand → Prop
  | literal text => ∃ value, type.literal field text = .ok value
  | array items => ∀ item ∈ items, ∃ value, type.literal field item = .ok value

mutual

/-- The fields are those of the registry, with types that have the operators and the literals. -/
def Atom.Typed : Atom → Registry ρ → Prop
  | .clause field operator comparand, registry => ∃ type read, registry.get? field = some (.scalar type read) ∧
    (FieldType.scalar type).supports operator.op = true ∧ comparand.Typed type field
  | .group tree, registry => tree.Typed registry
  | .related field _ tree, registry => ∃ children related,
    registry.get? field = some (.relation children related) ∧ tree.Typed related

def Tree.Typed : Tree → Registry ρ → Prop
  | .empty, _ => True
  | .row _ first others, registry => first.Typed registry ∧ others.Typed registry

def Others.Typed : Others → Registry ρ → Prop
  | .nil, _ => True
  | .cons _ _ atom others, registry => atom.Typed registry ∧ others.Typed registry

end

/-! ## Clauses -/

theorem Spelling.operatorOn_eq (operator : Spelling) {type : FieldType} (h : type.supports operator.op = true)
    (field : String) (o : Operand) : (Clause.mk field operator.word o).operatorOn type = .ok operator.op :=
  Clause.operatorOn_eq_ok operator.accepted h

theorem Comparand.test_eq {comparand : Comparand} {type : Scalar} {field : String} {operator : Spelling}
    (hs : (FieldType.scalar type).supports operator.op = true) (hf : comparand.operand.Fits operator.word)
    (ht : comparand.Typed type field) : Clause.test ⟨field, operator.word, comparand.operand⟩ type =
      .ok fun value => comparand.holds type field operator.op value := by
  have hop := operator.operatorOn_eq hs field comparand.operand
  have hword := operator.accepted
  rw [Clause.test, hop]
  cases comparand with
  | literal text =>
    obtain ⟨value, hv⟩ := ht
    cases h : operator.op with
    | compare comparison => simp [operand, holds, hv, bind, Except.bind, Except.toOption]
    | text test => rfl
    | member => exact absurd (hword.trans (congrArg some h)) hf.1
    | quantify q => exact absurd (hword.trans (congrArg some h)) (hf.2 q)
  | array items =>
    obtain ⟨literals, hl⟩ := exists_mapM_iff.mpr ht
    have h : operator.op = .member := Option.some.inj (hword.symm.trans hf)
    simp only [operand, h, hl, bind, Except.bind]
    congr 1
    funext value
    rw [Clause.isOneOf_eq, any_of_mapM hl]
    rfl

/-- A query behind a quantifier is compiled one level deeper, for the related records. -/
theorem compileTerm_related {registry : Registry ρ} {name : String} {children : ρ → List ρ} {related : Registry ρ}
    (hget : registry.get? name = some (.relation children related)) (quantifier : Quantifier) (query : String)
    (nesting : Nesting) : compileTerm registry nesting (.clause ⟨name, quantifier.word, .nested query⟩) =
      nesting.descend.bind fun deeper => (compileAt related deeper query).map
        fun test record => quantifier.holds (children record) test :=
  compileTerm_quantified hget (quantifier.spelling.operatorOn_eq rfl name (.nested query)) rfl

/-! ## The limit -/

/-- What compiling to some depth gives: the test if the limit allows that many levels more, and else its fault. -/
def withinLimit (nesting : Nesting) (depth : Nat) (test : Predicate ρ) : Except QueryError (Predicate ρ) :=
  if nesting.depth + depth ≤ nesting.limit then .ok test else .error (.nestingTooDeep nesting.limit)

theorem withinLimit_zero {nesting : Nesting} (h : nesting.depth ≤ nesting.limit) (test : Predicate ρ) :
    withinLimit nesting 0 test = .ok test := if_pos h

theorem withinLimit_map (nesting : Nesting) (depth : Nat) (test : Predicate ρ) (f : Predicate ρ → Predicate ρ) :
    (withinLimit nesting depth test).map f = withinLimit nesting depth (f test) := by
  unfold withinLimit
  split <;> rfl

/-- Of two depths the limit has to allow the greater one. -/
theorem withinLimit_bind (nesting : Nesting) (depth depth' : Nat) (test : Predicate ρ)
    (f : Predicate ρ → Predicate ρ) :
    (withinLimit nesting depth test).bind (fun test => withinLimit nesting depth' (f test)) =
      withinLimit nesting (max depth depth') (f test) := by
  unfold withinLimit
  by_cases h : nesting.depth + depth ≤ nesting.limit
  · have hiff : nesting.depth + max depth depth' ≤ nesting.limit ↔ nesting.depth + depth' ≤ nesting.limit := by
      omega
    simp only [if_pos h, Except.bind, hiff]
  · have hmax : ¬ nesting.depth + max depth depth' ≤ nesting.limit := by omega
    rw [if_neg h, if_neg hmax]
    rfl

/-- One level further down the limit allows one level less. -/
theorem descend_bind {nesting : Nesting} {depth : Nat} {test : Predicate ρ}
    {f : Nesting → Except QueryError (Predicate ρ)} (h : ∀ deeper : Nesting, deeper.depth ≤ deeper.limit →
      f deeper = withinLimit deeper depth test) :
    nesting.descend.bind f = withinLimit nesting (depth + 1) test := by
  unfold Nesting.descend
  by_cases hlt : nesting.depth < nesting.limit
  · rw [if_pos hlt]
    show f ⟨nesting.depth + 1, nesting.limit⟩ = _
    rw [h ⟨nesting.depth + 1, nesting.limit⟩ hlt]
    have hsum : nesting.depth + 1 + depth = nesting.depth + (depth + 1) := by omega
    simp only [withinLimit, hsum]
  · have hgt : ¬ nesting.depth + (depth + 1) ≤ nesting.limit := by omega
    rw [if_neg hlt, withinLimit, if_neg hgt]
    rfl

/-! ## Compiling -/

theorem Joint.join_eq (joint : Joint) (before test : Predicate ρ) : join (some before) test joint.connective =
    .ok fun record => joint.holds (before record) (test record) := by
  cases joint <;> rfl

theorem apply_notIf (negated value : Bool) : Window.apply ⟨notIf negated, none⟩ value = turn negated value := by
  cases negated <;> rfl

theorem apply_joint_notIf (joint : Joint) (negated value : Bool) :
    Window.apply ⟨some joint.connective, notIf negated⟩ value = turn negated value := by
  cases joint <;> cases negated <;> rfl

/-- A row compiles within the limit if its first segment and the row behind it do. -/
theorem compileRow_cons_eq {registry : Registry ρ} {nesting : Nesting} {before? : Option (Predicate ρ)} {s : Segment}
    {ss : List Segment} {depth depth' : Nat} {test : Predicate ρ} {f g : Predicate ρ → Predicate ρ}
    (hterm : compileTerm registry nesting s.term = withinLimit nesting depth test)
    (hjoin : ∀ test, join before? (if s.window.negates then negate test else test) s.window.first = .ok (f test))
    (hrest : ∀ before, compileRow registry nesting none (some before) ss = withinLimit nesting depth' (g before)) :
    compileRow registry nesting none before? (s :: ss) = withinLimit nesting (max depth depth') (g (f test)) := by
  rw [compileRow, hterm, ← withinLimit_bind nesting depth depth' test fun test => g (f test)]
  simp only [hjoin, bind, Except.bind, hrest]

mutual

/-- The induction is on the tree; a group and a tree about related records go one level down in the text too. -/
theorem Atom.compileTerm_eq : ∀ (atom : Atom) (registry : Registry ρ) (nesting : Nesting), atom.Writable →
    atom.Typed registry → nesting.depth ≤ nesting.limit →
    compileTerm registry nesting atom.term = withinLimit nesting atom.depth (atom.holds registry)
  | .clause field operator comparand, registry, nesting, ⟨_, hfits, _⟩, ⟨type, read, hget, hs, ht⟩, hle => by
    have htest := Comparand.test_eq hs hfits ht
    have hresolve : Term.resolve registry (.clause ⟨field, operator.word, comparand.operand⟩) =
        .ok (.test fun record => comparand.holds type field operator.op (type.value? (read record))) := by
      simp only [Term.resolve, Clause.resolve, hget, htest, bind, Except.bind]
    rw [Atom.term, compileTerm_of_test hresolve, Atom.depth, withinLimit_zero hle]
    congr 1
    funext record
    simp only [Atom.holds, hget]
  | .group tree, registry, nesting, hw, ht, _ => by
    rw [Atom.term, compileTerm_group, Atom.depth]
    exact descend_bind fun deeper hle => tree.compileAt_eq registry deeper hw ht hle
  | .related field quantifier tree, registry, nesting, ⟨_, hw⟩, ⟨children, related, hget, ht⟩, _ => by
    rw [Atom.term, compileTerm_related hget, Atom.depth]
    refine descend_bind fun deeper hle => ?_
    rw [tree.compileAt_eq related deeper hw ht hle, withinLimit_map]
    congr 1
    funext record
    simp only [Atom.holds, hget]

theorem Tree.compileAt_eq : ∀ (tree : Tree) (registry : Registry ρ) (nesting : Nesting), tree.Writable →
    tree.Typed registry → nesting.depth ≤ nesting.limit →
    compileAt registry nesting tree.text = withinLimit nesting tree.depth (tree.holds registry)
  | .empty, registry, nesting, hw, _, hle => by
    rw [compileAt_eq_compileRow (Tree.scan_text .empty hw)]
    exact (withinLimit_zero hle _).symm
  | .row negated first others, registry, nesting, hw, ht, hle => by
    rw [compileAt_eq_compileRow (Tree.scan_text (.row negated first others) hw)]
    refine compileRow_cons_eq (f := fun test record => turn negated (test record))
      (first.compileTerm_eq registry nesting hw.1 ht.1 hle) (fun test => ?_)
      fun before => others.compileRow_eq registry nesting before hw.2 ht.2 hle
    simp only [turned_eq, apply_notIf, join]

theorem Others.compileRow_eq : ∀ (others : Others) (registry : Registry ρ) (nesting : Nesting)
    (before : Predicate ρ), others.Writable → others.Typed registry → nesting.depth ≤ nesting.limit →
    compileRow registry nesting none (some before) others.segments =
      withinLimit nesting others.depth fun record => others.holds registry record (before record)
  | .nil, registry, nesting, before, _, _, hle => (withinLimit_zero hle before).symm
  | .cons joint negated atom others, registry, nesting, before, hw, ht, hle => by
    refine compileRow_cons_eq (f := fun test record => joint.holds (before record) (turn negated (test record)))
      (atom.compileTerm_eq registry nesting hw.1 ht.1 hle) (fun test => ?_)
      fun before => others.compileRow_eq registry nesting before hw.2 ht.2 hle
    simp only [turned_eq, apply_joint_notIf, Joint.join_eq]

end

/-- The text of a tree compiles to the meaning of the tree, for every limit that allows its depth; under any other
limit the nesting is too deep. -/
theorem compile_text (registry : Registry ρ) (limit : Nat) (tree : Tree) (hw : tree.Writable)
    (ht : tree.Typed registry) : compile registry limit tree.text =
      if tree.depth ≤ limit then .ok (tree.holds registry) else .error (.nestingTooDeep limit) := by
  rw [compile, tree.compileAt_eq registry (.ofLimit limit) hw ht (Nat.zero_le limit)]
  simp only [withinLimit, Nesting.ofLimit, Nat.zero_add]

/-- Texts and their words. The literals hold quotes, blanks and parentheses of their own. -/
theorem compile_text_words :
    let words : Registry String := ⟨[("Text", .scalar .string id)]⟩
    let registry : Registry String :=
      ⟨[("Text", .scalar .string id), ("Words", .relation (fun text => text.splitOn " ") words)]⟩
    let tree : Tree := .row true (.group (.row false (.clause "Text" ⟨"equals", .compare .equals, rfl⟩
        (.literal "it's (here")) .nil))
      (.cons .and false (.related "Words" .any (.row true (.clause "Text" ⟨"in", .member, rfl⟩
        (.array ["x)y", "z w"])) .nil)) .nil)
    tree.text = "not (Text equals 'it's (here') and Words any (not Text in ['x)y', 'z w'])" ∧
      compile registry 1 tree.text = .ok (tree.holds registry) ∧
      compile registry 0 tree.text = .error (.nestingTooDeep 0) := by
  intro words registry tree
  have hname : IsName "Text" := by
    refine ⟨by decide +kernel, ?_⟩
    intro k
    cases k <;> decide
  have hwords : IsName "Words" := by
    refine ⟨by decide +kernel, ?_⟩
    intro k
    cases k <;> decide
  have hfits : (Operand.literal "it's (here").Fits "equals" := by
    refine ⟨by decide, ?_⟩
    intro q
    cases q <;> decide
  have hquote : QuoteSafe "it's (here" := by decide +kernel
  have hitems : (Comparand.array ["x)y", "z w"]).Quotable := by
    simp only [Comparand.Quotable, List.forall_mem_cons]
    decide +kernel
  have hw : tree.Writable := ⟨⟨⟨hname, hfits, hquote⟩, trivial⟩, ⟨hwords, ⟨hname, rfl, hitems⟩, trivial⟩, trivial⟩
  have hinner : (Atom.clause "Text" ⟨"equals", .compare .equals, rfl⟩ (.literal "it's (here")).Typed registry :=
    ⟨.string, id, rfl, rfl, _, rfl⟩
  have hmember : (Atom.clause "Text" ⟨"in", .member, rfl⟩ (.array ["x)y", "z w"])).Typed words :=
    ⟨.string, id, rfl, rfl, fun item _ => ⟨some item, rfl⟩⟩
  have ht : tree.Typed registry := ⟨⟨hinner, trivial⟩, ⟨_, words, rfl, hmember, trivial⟩, trivial⟩
  have htext : tree.text = "not (Text equals 'it's (here') and Words any (not Text in ['x)y', 'z w'])" := by
    decide +kernel
  exact ⟨htext, compile_text registry 1 tree hw ht, compile_text registry 0 tree hw ht⟩

end RecordQuery.Filter
