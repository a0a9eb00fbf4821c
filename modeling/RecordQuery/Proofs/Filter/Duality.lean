import RecordQuery.Proofs.Filter.Composition
import RecordQuery.Proofs.Filter.Meaning

/-!
The duality of the quantifiers. That not any related record passes a query is that all of them pass its complement. In
the text of the one a `not` stands in front of the field; in the other it stands in the nested query, in front of a
group, and so one level deeper.
-/
namespace RecordQuery.Filter

open Text (isBlank skipBlank)

variable {ρ : Type} {registry related : Registry ρ} {children : ρ → List ρ} {name query : String}

/-! ## Queries about related records -/

def relatedText (name : String) (quantifier : Quantifier) (query : String) : String :=
  name ++ " " ++ quantifier.word ++ " (" ++ query ++ ")"

theorem scan_related (hname : IsName name) (quantifier : Quantifier) (hquery : GroupSafe query) :
    scan (relatedText name quantifier query) = .ok [⟨⟨none, none⟩, .clause ⟨name, quantifier.word, .nested query⟩⟩] := by
  have hfits : (Operand.nested query).Fits quantifier.word := ⟨quantifier, quantifier.spelling.accepted⟩
  have hspaced : Spaced [name.toList, quantifier.word.toList, '(' :: (query.toList ++ [')'])] _ :=
    (Spaced.single _).space ((Spaced.single _).space (Spaced.single _))
  refine scan_term (t := .clause _) (clause_writable hname quantifier.spelling hfits hquery) (.clause .nested) ?_
  simpa [relatedText, Quantifier.spelling] using hspaced

/-- A query about related records is compiled one level deeper than its quantifier. -/
theorem compileAt_related (hget : registry.get? name = some (.relation children related)) (hname : IsName name)
    (quantifier : Quantifier) (hquery : GroupSafe query) (nesting : Nesting) :
    compileAt registry nesting (relatedText name quantifier query) =
      nesting.descend.bind fun deeper => (compileAt related deeper query).map
        fun test record => quantifier.holds (children record) test := by
  rw [compileAt_eq_compileRow (scan_related hname quantifier hquery), compileRow, compileTerm_related hget]
  cases nesting.descend.bind fun deeper => (compileAt related deeper query).map
    fun test record => quantifier.holds (children record) test <;> rfl

theorem compile_related (hget : registry.get? name = some (.relation children related)) (hname : IsName name)
    (quantifier : Quantifier) (hquery : GroupSafe query) (limit : Nat) :
    compile registry (limit + 1) (relatedText name quantifier query) =
      ((compile related limit query).mapError (·.withLimit (limit + 1))).map
        fun test record => quantifier.holds (children record) test := by
  rw [compile, compileAt_related hget hname quantifier hquery, descend_ofLimit_succ, ← compileAt_deeper]
  rfl

theorem compile_not_related (hname : IsName name) (quantifier : Quantifier) (hquery : GroupSafe query) (limit : Nat) :
    compile registry limit ("not " ++ relatedText name quantifier query) =
      (compile registry limit (relatedText name quantifier query)).map negate :=
  compileAt_not (scan_related hname quantifier hquery)

/-- A text in parentheses may stand in parentheses, and so it may behind a `not`. -/
theorem GroupSafe.not_group (hquery : GroupSafe query) : GroupSafe ("not (" ++ query ++ ")") := by
  have hplain : Plain "not ".toList := by decide +kernel
  apply Crosses.groupSafe
  simpa using hquery.crosses.plain_append hplain

/-- The complement in the query of the second text takes a level more, and so does the limit. -/
theorem compile_all_not_eq (hget : registry.get? name = some (.relation children related)) (hname : IsName name)
    (hquery : GroupSafe query) (limit : Nat) :
    compile registry (limit + 1) (relatedText name .all ("not (" ++ query ++ ")")) =
      (compile registry limit ("not " ++ relatedText name .any query)).mapError (·.withLimit (limit + 1)) := by
  rw [compile_related hget hname .all hquery.not_group, compile_not_related hname .any hquery, compile, compile,
    compileAt_not_group related _ hquery, compileAt_related hget hname .any hquery]
  cases (Nesting.ofLimit limit).descend with
  | error fault => rfl
  | ok deeper =>
    simp only [Except.bind]
    cases compileAt related deeper query with
    | error fault => rfl
    | ok test =>
      have hdual : ∀ items : List ρ, items.all (negate test) = !items.any test := fun items =>
        List.not_any_eq_all_not.symm
      simp only [Except.mapError, Except.map, Quantifier.holds, hdual]
      rfl

/-! ## A field without a name -/

/-- Where a quantifier stands in the place of a term, it is read as a field, and in front of a parenthesis no operator
is left. -/
theorem term_quantifier_ne_ok (quantifier : Quantifier) (cs rest : List Char) (t : Term) :
    term (quantifier.word.toList ++ ' ' :: '(' :: cs) ≠ .ok t rest := by
  intro h
  have hword : IsWord ['('] quantifier.word.toList := quantifier.spelling.isWord.mono (by simp)
  rw [term_word hword] at h
  obtain ⟨c, hc, -⟩ := Scanned.map_eq_ok h
  obtain ⟨-, cs', hoperator, hne⟩ := field_of_clause_word hword hc
  have hskip : skipBlank ('(' :: cs) = '(' :: cs := skipBlank_append_cons Blanks.nil isBlank_opening cs
  rw [hskip] at hoperator
  exact hne (Prod.mk.inj hoperator).1.symm

/-- A quantifier is no keyword. -/
theorem connective_quantifier (quantifier : Quantifier) {b : List Char} (hb : Blanks b) (cs : List Char) :
    connective (b ++ (quantifier.word.toList ++ ' ' :: cs)) = (none, quantifier.word.toList ++ ' ' :: cs) := by
  have hskip : skipBlank (quantifier.word.toList ++ ' ' :: cs) = quantifier.word.toList ++ ' ' :: cs := by
    apply skipBlank_eq_self
    cases quantifier <;> simp <;> decide
  rw [connective_append hb, connective_of_not_startsKeyword, hskip]
  rintro ⟨k, rest, heq, -⟩
  rw [hskip] at heq
  cases quantifier <;> cases k <;> simp [Connective.word] at heq

/-- So no text compiles in which a quantifier comes first, or stands behind one keyword. -/
theorem compileAt_quantifier_ne_ok {text : String} {first : Option Connective} {quantifier : Quantifier}
    {cs₁ cs : List Char} (h₁ : connective text.toList = (first, cs₁))
    (h₂ : connective cs₁ = (none, quantifier.word.toList ++ ' ' :: '(' :: cs)) (nesting : Nesting) (p : Predicate ρ) :
    compileAt registry nesting text ≠ .ok p := by
  have hskip := skipBlank_skipBlank cs₁
  rw [← connective_eq_none h₂] at hskip
  intro h
  obtain ⟨t, rest, -, hterm, -⟩ := exists_term_of_compileFrom h₁ h₂ (by rw [hskip]; simp) h
  rw [hskip] at hterm
  exact term_quantifier_ne_ok quantifier cs rest t hterm

theorem compile_related_unnamed_ne_ok (limit : Nat) (quantifier : Quantifier) (query : String) (p : Predicate ρ) :
    compile registry limit (relatedText "" quantifier query) ≠ .ok p := by
  have hread := connective_quantifier quantifier Blanks.space ('(' :: (query.toList ++ [')']))
  have htext : (relatedText "" quantifier query).toList =
      [' '] ++ (quantifier.word.toList ++ ' ' :: '(' :: (query.toList ++ [')'])) := by
    simp [relatedText]
  rw [← htext] at hread
  exact compileAt_quantifier_ne_ok hread (connective_quantifier quantifier Blanks.nil _) _ p

theorem compile_not_related_unnamed_ne_ok (limit : Nat) (quantifier : Quantifier) (query : String) (p : Predicate ρ) :
    compile registry limit ("not " ++ relatedText "" quantifier query) ≠ .ok p := by
  have hnot := connective_word Blanks.nil .not
    (' ' :: (quantifier.word.toList ++ ' ' :: '(' :: (query.toList ++ [')'])))
  have htext : ("not " ++ relatedText "" quantifier query).toList = [] ++ Connective.not.word.toList ++
      ' ' :: ' ' :: (quantifier.word.toList ++ ' ' :: '(' :: (query.toList ++ [')'])) := by
    simp [relatedText, Connective.word]
  rw [← htext] at hnot
  exact compileAt_quantifier_ne_ok hnot (connective_quantifier quantifier (Blanks.space.append Blanks.space) _) _ p

/-! ## The duality -/

/-- That not any related record passes a query is that all pass its complement, however many there are, and under any
limit that leaves the same room to both texts. Without a name neither text compiles. -/
theorem compile_not_any (hget : registry.get? name = some (.relation children related))
    (hblank : ∀ c ∈ name.toList, isBlank c = false) (hplain : Plain name.toList)
    (hkeyword : ∀ k : Connective, name ≠ k.word) (hquery : GroupSafe query) (limit : Nat) :
    let notAny := "not " ++ name ++ " any (" ++ query ++ ")"
    let allNot := name ++ " all (not (" ++ query ++ "))"
    (∀ p, compile registry limit notAny = .ok p ↔ compile registry (limit + 1) allNot = .ok p) ∧
      (name ≠ "" →
        compile registry (limit + 1) allNot = (compile registry limit notAny).mapError (·.withLimit (limit + 1)) ∧
        ∀ test, compile related limit query = .ok test →
          compile registry (limit + 1) notAny = .ok fun record => !(children record).any test) := by
  intro notAny allNot
  have hnotAny : notAny = "not " ++ relatedText name .any query := by
    apply String.toList_inj.mp
    simp [notAny, relatedText]
  have hallNot : allNot = relatedText name .all ("not (" ++ query ++ ")") := by
    apply String.toList_inj.mp
    simp [allNot, relatedText]
  rw [hnotAny, hallNot]
  by_cases hempty : name = ""
  · subst hempty
    refine ⟨fun p => iff_of_false ?_ ?_, fun hne => absurd rfl hne⟩
    · exact compile_not_related_unnamed_ne_ok limit .any query p
    · exact compile_related_unnamed_ne_ok (limit + 1) .all ("not (" ++ query ++ ")") p
  · have hchars : name.toList ≠ [] := by simpa using hempty
    have hname : IsName name := ⟨⟨hchars, fun c hc => ⟨hblank c hc, hplain c hc⟩⟩, hkeyword⟩
    have heq := compile_all_not_eq hget hname hquery limit
    refine ⟨fun p => ?_, fun _ => ⟨heq, fun test htest => ?_⟩⟩
    · rw [heq]
      cases compile registry limit ("not " ++ relatedText name .any query) <;> simp [Except.mapError]
    · rw [compile_not_related hname .any hquery, compile_related hget hname .any hquery, htest]
      rfl

/-- A string has its letters, and the empty string has none. The query holds a parenthesis in a literal, and a group. -/
theorem compile_not_any_letters :
    let letters : Registry String := ⟨[("Text", .scalar .string id)]⟩
    let registry : Registry String :=
      ⟨[("Letters", .relation (fun text => text.toList.map String.singleton) letters)]⟩
    let query := "Text equals ')' or (Text equals 'b')"
    ∃ test, compile letters 1 query = .ok test ∧
      compile registry 2 ("not Letters any (" ++ query ++ ")") =
        .ok (fun text => !(text.toList.map String.singleton).any test) ∧
      compile registry 3 ("Letters all (not (" ++ query ++ "))") =
        .ok (fun text => !(text.toList.map String.singleton).any test) := by
  intro letters registry query
  have hget : registry.get? "Letters" = some (.relation (fun text => text.toList.map String.singleton) letters) := rfl
  have hquery : GroupSafe query := by decide +kernel
  have hkeyword : ∀ k : Connective, "Letters" ≠ k.word := by
    intro k
    cases k <;> decide
  have htest : ∃ test, compile letters 1 query = .ok test := by
    rw [exists_ok_iff_outcome]
    decide +kernel
  obtain ⟨test, htest⟩ := htest
  have hplain : Plain "Letters".toList := by decide +kernel
  have hblank : ∀ c ∈ "Letters".toList, isBlank c = false := by
    have hword : IsWord [] "Letters".toList := by decide +kernel
    exact fun c hc => (hword.2 c hc).1
  obtain ⟨-, hnamed⟩ := compile_not_any hget hblank hplain hkeyword hquery 1
  obtain ⟨hiff, -⟩ := compile_not_any hget hblank hplain hkeyword hquery 2
  have hnotAny := (hnamed (by decide)).2 test htest
  exact ⟨test, htest, hnotAny, (hiff _).mp hnotAny⟩

end RecordQuery.Filter
