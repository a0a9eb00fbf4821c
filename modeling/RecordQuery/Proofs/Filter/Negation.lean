import RecordQuery.Proofs.Filter.Composition
import RecordQuery.Proofs.Filter.Meaning

/-!
Terms behind more than one `not`. A window has two places, and a `not` in one of them or in both turns the term around
once. A `not` for which there is no place left is read as the field of a clause, so that the text compiles only where
there is a field of this name.
-/
namespace RecordQuery.Filter

open Text (skipBlank)

variable {ρ : Type} {registry : Registry ρ}

/-- A text behind as many words `not`. -/
def negations : Nat → String → String
  | 0, text => text
  | n + 1, text => "not " ++ negations n text

theorem negations_add_two (n : Nat) (text : String) :
    negations (n + 2) text = (Window.mk (some .not) (some .not)).inFrontOf (negations n text) := by
  apply String.toList_inj.mp
  simp [negations, Window.inFrontOf, Window.toText_two, Connective.word]

theorem joint_negations (joint : Joint) (n : Nat) (text : String) :
    joint.connective.word ++ " " ++ negations (n + 1) text =
      (Window.mk (some joint.connective) (some .not)).inFrontOf (negations n text) := by
  apply String.toList_inj.mp
  simp [negations, Window.inFrontOf, Window.toText_two, Connective.word]

theorem append_joint (front text : String) (joint : Joint) :
    front ++ " " ++ joint.connective.word ++ " " ++ text = front ++ " " ++ (joint.connective.word ++ " " ++ text) := by
  simp only [String.append_assoc]

/-! ## A full window -/

/-- The whole text is read as the words of the window and a clause behind them, which `text` spells, and the field of
this clause is `not`. -/
structure Surplus (w : Window) (whole text : String) : Prop where
  segment : Filter.segment whole.toList = (clause text.toList).map fun c => some ⟨w, .clause c⟩
  field : ∀ {c rest}, clause text.toList = .ok c rest → c.field = "not"

/-- The fault that such a clause ends in where no field has this name: its own, or that the field is unknown. -/
def surplusFault (text : String) : QueryError :=
  match (clause text.toList).result with
  | .ok _ => .unknownField "not"
  | .error fault => fault

/-- One more `not` behind a window with two words is a field, whatever follows. -/
theorem surplus_of_window {w : Window} (hfirst : w.first ≠ none) (hsecond : w.second ≠ none) (text : String) :
    Surplus w (w.inFrontOf ("not " ++ text)) ("not " ++ text) := by
  obtain ⟨first, second⟩ := w
  obtain ⟨k, rfl⟩ := Option.ne_none_iff_exists'.mp hfirst
  obtain ⟨k', rfl⟩ := Option.ne_none_iff_exists'.mp hsecond
  have hword : IsWord ['('] "not".toList := by decide +kernel
  have htext : ("not " ++ text).toList = "not".toList ++ ' ' :: text.toList := by simp
  have hwhole : ((Window.mk (some k) (some k')).inFrontOf ("not " ++ text)).toList =
      k.word.toList ++ ' ' :: (k'.word.toList ++ ' ' :: ("not".toList ++ ' ' :: text.toList)) := by
    simp [Window.inFrontOf, Window.toText_two]
  have hk := connective_word Blanks.nil k (k'.word.toList ++ ' ' :: ("not".toList ++ ' ' :: text.toList))
  have hk' := connective_word Blanks.space k' ("not".toList ++ ' ' :: text.toList)
  have hnot : skipBlank (' ' :: ("not".toList ++ ' ' :: text.toList)) = "not".toList ++ ' ' :: text.toList :=
    skipBlank_append_cons Blanks.space (by decide) _
  refine ⟨?_, fun h => ?_⟩
  · have hne := skipBlank_ne_nil_of_connective hk (skipBlank_ne_nil_of_connective hk' (by rw [hnot]; simp))
    rw [htext, hwhole]
    refine (segment_eq_map_term hne hk hk' (by rw [hnot]; simp) (by rw [hnot]; simp)).trans ?_
    rw [hnot, term_word hword]
    rcases clause ("not".toList ++ ' ' :: text.toList) with ⟨fault | c, rest⟩ <;> rfl
  · rw [htext] at h
    exact (field_of_clause_word hword h).1

/-- Where there is no field with this name, such a text does not compile. -/
theorem compileFrom_surplus {w : Window} {whole text : String} (h : Surplus w whole text)
    (hget : registry.get? "not" = none) (nesting : Nesting) (before? : Option (Predicate ρ)) :
    compileFrom registry nesting before? whole.toList = .error (surplusFault text) := by
  rw [compileFrom_eq, h.segment, surplusFault]
  rcases hclause : clause text.toList with ⟨fault | c, rest⟩
  · rfl
  · have hfield : c.field = "not" := h.field hclause
    show compileTerm registry nesting (.clause c) >>= _ = _
    rw [compileTerm_of_get?_eq_none (hfield ▸ hget), hfield]
    rfl

/-- One `not` or two turn a term around, and behind `and` or `or` one does. The first of more of them that finds no place
is read as a field, and unless there is a field with this name the text does not compile. -/
theorem compile_negations {limit : Nat} {text : String} {t : Term} {p : Predicate ρ}
    (hscan : scan text = .ok [⟨⟨none, none⟩, t⟩]) (h : compile registry limit text = .ok p) :
    (∀ n, 1 ≤ n → n ≤ 2 → compile registry limit (negations n text) = .ok (negate p)) ∧
      (∀ front q, compile registry limit front = .ok q → scan front ≠ .ok [] → ∀ joint : Joint,
        compile registry limit (front ++ " " ++ joint.connective.word ++ " " ++ negations 1 text) =
          .ok fun record => joint.holds (q record) (!p record)) ∧
      (∀ n, 3 ≤ n → Surplus ⟨some .not, some .not⟩ (negations n text) (negations (n - 2) text)) ∧
      (∀ (joint : Joint) (n : Nat), 2 ≤ n → Surplus ⟨some joint.connective, some .not⟩
        (joint.connective.word ++ " " ++ negations n text) (negations (n - 1) text)) ∧
      (registry.get? "not" = none →
        (∀ n, 3 ≤ n → compile registry limit (negations n text) = .error (surplusFault (negations (n - 2) text))) ∧
        ∀ front q, compile registry limit front = .ok q → scan front ≠ .ok [] → ∀ (joint : Joint) (n : Nat), 2 ≤ n →
          compile registry limit (front ++ " " ++ joint.connective.word ++ " " ++ negations n text) =
            .error (surplusFault (negations (n - 1) text))) := by
  have hstart : ∀ n, 3 ≤ n → Surplus ⟨some .not, some .not⟩ (negations n text) (negations (n - 2) text) := by
    intro n hn
    obtain ⟨n, rfl⟩ := Nat.exists_eq_add_of_le' hn
    rw [negations_add_two]
    exact surplus_of_window (by simp) (by simp) (negations n text)
  have hbehind : ∀ (joint : Joint) (n : Nat), 2 ≤ n → Surplus ⟨some joint.connective, some .not⟩
      (joint.connective.word ++ " " ++ negations n text) (negations (n - 1) text) := by
    intro joint n hn
    obtain ⟨n, rfl⟩ := Nat.exists_eq_add_of_le' hn
    rw [joint_negations]
    exact surplus_of_window (by simp) (by simp) (negations n text)
  refine ⟨?_, ?_, hstart, hbehind, fun hget => ⟨?_, ?_⟩⟩
  · intro n hpos hle
    obtain rfl | rfl : n = 1 ∨ n = 2 := by omega
    · rw [negations, compile, negations, compileAt_not hscan, ← compile, h]
      rfl
    · rw [negations_add_two, compile, negations, compileAt_window (by simp) hscan, ← compile, h]
      rfl
  · intro front q hq hterm joint
    have hw : (Window.mk (some joint.connective) (some .not)).Joins := by cases joint <;> decide
    rw [append_joint, joint_negations, compile, negations, compileAt_window_behind hq hterm hscan hw, ← compile, h]
    cases joint <;> rfl
  · intro n hn
    exact compileFrom_surplus (hstart n hn) hget _ none
  · intro front q hq hterm joint n hn
    rw [append_joint, compile, compileAt_join hq hterm]
    exact compileFrom_surplus (hbehind joint n hn) hget _ (some q)

/-- The text stands behind two words and behind an `or` with one; the fifth word is one too many. -/
theorem compile_negations_words :
    let registry : Registry String := ⟨[("A", .scalar .string id)]⟩
    let isX := fun a : String => (compare a "x").isEq
    let isY := fun a : String => (compare a "y").isEq
    compile registry 0 "A equals 'x'" = .ok isX ∧ compile registry 0 "not not A equals 'x'" = .ok (negate isX) ∧
      compile registry 0 "A equals 'y' or not A equals 'x'" = .ok (fun a => isY a || !isX a) ∧
      ∃ fault, compile registry 0 (negations 5 "A equals 'x'") = .error fault := by
  intro registry isX isY
  have hscan : scan "A equals 'x'" = .ok [⟨⟨none, none⟩, .clause ⟨"A", "equals", .literal "x"⟩⟩] := by decide +kernel
  have hfront : scan "A equals 'y'" = .ok [⟨⟨none, none⟩, .clause ⟨"A", "equals", .literal "y"⟩⟩] := by decide +kernel
  have hx : compile registry 0 "A equals 'x'" = .ok isX := compileAt_eq_compileRow hscan
  have hy : compile registry 0 "A equals 'y'" = .ok isY := compileAt_eq_compileRow hfront
  have hterm : scan "A equals 'y'" ≠ .ok [] := by simp [hfront]
  obtain ⟨hnot, hbehind, -, -, htoo⟩ := compile_negations hscan hx
  have hget : registry.get? "not" = none := rfl
  exact ⟨hx, hnot 2 (by simp) (by simp), hbehind _ isY hy hterm .or, ⟨_, (htoo hget).1 5 (by simp)⟩⟩

/-- The term compiles; behind three words, and behind `and` and two words, it is no term any more: the last `not` is
taken for a field. -/
theorem compile_third_negation :
    let registry : Registry String := ⟨[("A", .scalar .string id)]⟩
    let text := "A equals 'x'"
    scan text = .ok [⟨⟨none, none⟩, .clause ⟨"A", "equals", .literal "x"⟩⟩] ∧
      compile registry 0 text = .ok (fun a => (compare a "x").isEq) ∧
      compile registry 0 (negations 3 text) = .error (.unknownField "not") ∧
      compile registry 0 (text ++ " and " ++ negations 2 text) = .error (.unknownField "not") := by
  intro registry text
  have hscan : scan text = .ok [⟨⟨none, none⟩, .clause ⟨"A", "equals", .literal "x"⟩⟩] := by decide +kernel
  refine ⟨hscan, compileAt_eq_compileRow hscan, ?_, ?_⟩
  all_goals
    rw [eq_error_iff_outcome]
    decide +kernel

end RecordQuery.Filter
