import RecordQuery.Proofs.Filter.Composition
import RecordQuery.Proofs.Filter.Threshold

/-!
Parentheses around a text that has none. A group knows quotes by their neighbours alone: behind a blank, `[` or `,` a
quote opens a literal wherever it stands, be it inside a word. If the literals that are found in this way all close, the
text means in parentheses what it means without them. If the last one does not, the closing parenthesis counts as a part
of it and the parentheses do not balance, though the text may well compile without them.
-/
namespace RecordQuery.Filter

open Text (skipBlank)

/-! ## Literals that close -/

/-- In a text behind a character, every quote that opens a literal for a group has one that closes it. -/
inductive Paired : Char → List Char → Prop
  | nil {previous : Char} : Paired previous []
  | pass {previous c : Char} {cs : List Char} : (c = '\'' → opensQuote previous = false) → Paired c cs →
      Paired previous (c :: cs)
  | literal {previous : Char} {text cs : List Char} : opensQuote previous = true → KeepsOpen text →
      closesQuote cs = true → Paired '\'' cs → Paired previous ('\'' :: (text ++ '\'' :: cs))

/-- A text without parentheses. -/
def Free (cs : List Char) : Prop := '(' ∉ cs ∧ ')' ∉ cs

theorem Free.of_append {a b : List Char} (h : Free (a ++ b)) : Free b :=
  ⟨fun hb => h.1 (List.mem_append_right a hb), fun hb => h.2 (List.mem_append_right a hb)⟩

theorem Free.tail {c : Char} {cs : List Char} (h : Free (c :: cs)) : Free cs :=
  Free.of_append (a := [c]) h

variable {depth depth' : Nat} {previous : Char} {cs rest : List Char}

theorem Walk.step_outside {c : Char} (h : Free (c :: cs)) (rest : List Char) :
    Walk.step ⟨depth, false⟩ previous c rest = some ⟨depth, c = '\'' && opensQuote previous⟩ := by
  have hopen : c ≠ '(' := fun hc => h.1 (by simp [hc])
  have hclose : c ≠ ')' := fun hc => h.2 (by simp [hc])
  by_cases hc : c = '\''
  · simp [Walk.step, hc]
  · simp [Walk.step, hc, hopen, hclose]

theorem Walk.step_inside {c : Char} (rest : List Char) :
    Walk.step ⟨depth, true⟩ previous c rest = some ⟨depth, !(c = '\'' && closesQuote rest)⟩ := rfl

/-- Without parentheses the walk comes to the end at the same depth. -/
theorem exists_over (h : Free cs) (inQuotes : Bool) :
    ∃ inQuotes', Walk.over ⟨depth, inQuotes⟩ previous cs rest = some ⟨depth, inQuotes'⟩ := by
  induction cs generalizing previous inQuotes with
  | nil => exact ⟨inQuotes, rfl⟩
  | cons c cs ih =>
    cases inQuotes with
    | false =>
      rw [Walk.over, Walk.step_outside h]
      exact ih h.tail _
    | true =>
      rw [Walk.over, Walk.step_inside]
      exact ih h.tail _

theorem closesQuote_append (hrest : closesQuote rest = true) (cs : List Char) :
    closesQuote (cs ++ rest) = closesQuote cs := by
  cases cs with
  | nil => exact hrest
  | cons c cs => rfl

theorem Paired.over (h : Paired previous cs) (hfree : Free cs) (hrest : closesQuote rest = true) :
    Walk.over ⟨depth, false⟩ previous cs rest = some ⟨depth, false⟩ := by
  induction h with
  | nil => rfl
  | @pass previous c cs hc _ ih =>
    have hquote : (decide (c = '\'') && opensQuote previous) = false := by
      by_cases hq : c = '\''
      · simp [hc hq]
      · simp [hq]
    rw [Walk.over, Walk.step_outside hfree, hquote]
    exact ih hfree.tail
  | @literal previous text cs hopens hkeeps hcloses _ ih =>
    have hfree' : Free cs := Free.of_append (a := '\'' :: (text ++ ['\''])) (by simpa using hfree)
    have hstep : Walk.step ⟨depth, false⟩ previous '\'' (text ++ '\'' :: cs ++ rest) = some ⟨depth, true⟩ := by
      rw [Walk.step_outside hfree, hopens]
      rfl
    have hcloses' : closesQuote (cs ++ rest) = true := (closesQuote_append hrest cs).trans hcloses
    have hlast : (text ++ ['\'']).getLastD '\'' = '\'' := by simp
    have hover := Walk.over_append (over_quoted hkeeps hcloses' depth '\'') (hlast ▸ ih hfree')
    rw [Walk.over, hstep]
    simpa using hover

/-- A walk that gets out of a literal has passed the quote that closes it. -/
theorem exists_literal_of_over (hrest : closesQuote rest = true)
    (h : Walk.over ⟨depth, true⟩ previous cs rest = some ⟨depth', false⟩) :
    ∃ text cs', cs = text ++ '\'' :: cs' ∧ KeepsOpen text ∧ closesQuote cs' = true ∧
      Walk.over ⟨depth, false⟩ '\'' cs' rest = some ⟨depth', false⟩ := by
  induction cs generalizing previous with
  | nil => simp [Walk.over] at h
  | cons c cs ih =>
    rw [Walk.over, Walk.step_inside, closesQuote_append hrest] at h
    cases hcloses : (c = '\'' && closesQuote cs : Bool) with
    | true =>
      rw [hcloses] at h
      obtain ⟨hc, hcs⟩ := Bool.and_eq_true_iff.mp hcloses
      obtain rfl := of_decide_eq_true hc
      exact ⟨[], cs, rfl, by simp [KeepsOpen], hcs, h⟩
    | false =>
      rw [hcloses] at h
      obtain ⟨text, cs', rfl, hkeeps, hcs, hover⟩ := ih h
      refine ⟨c :: text, cs', rfl, ?_, hcs, hover⟩
      intro l d r heq
      cases l with
      | nil =>
        -- a quote that did not close, since of what follows it no more than one character counts
        obtain ⟨rfl, rfl⟩ := List.cons.inj heq
        simpa [closesQuote, and_assoc] using hcloses
      | cons c' l =>
        obtain ⟨-, rfl⟩ := List.cons.inj heq
        exact hkeeps l d r rfl

/-- By induction on the length, since a literal is passed in one step. -/
theorem paired_of_over (hfree : Free cs) (hrest : closesQuote rest = true)
    (h : Walk.over ⟨depth, false⟩ previous cs rest = some ⟨depth', false⟩) : Paired previous cs := by
  induction hlen : cs.length using Nat.strongRecOn generalizing previous cs with
  | ind length ih =>
    subst hlen
    cases cs with
    | nil => exact .nil
    | cons c cs =>
      rw [Walk.over, Walk.step_outside hfree] at h
      cases hopens : (c = '\'' && opensQuote previous : Bool) with
      | true =>
        rw [hopens] at h
        obtain ⟨hc, hprevious⟩ := Bool.and_eq_true_iff.mp hopens
        obtain rfl := of_decide_eq_true hc
        obtain ⟨text, cs', rfl, hkeeps, hcloses, hover⟩ := exists_literal_of_over hrest h
        have hfree' : Free cs' := Free.of_append (a := '\'' :: (text ++ ['\''])) (by simpa using hfree)
        exact .literal hprevious hkeeps hcloses (ih _ (by simp; omega) hfree' hover rfl)
      | false =>
        rw [hopens] at h
        exact .pass (by simpa using hopens) (ih _ (by simp) hfree.tail h rfl)

/-! ## Groups -/

/-- What a group reads of a text without parentheses, up to the parenthesis behind it. -/
theorem inner?_free (hfree : Free cs) [Decidable (Paired '(' cs)] :
    inner? ⟨0, false⟩ '(' (cs ++ [')']) = if Paired '(' cs then some (cs, []) else none := by
  have hrest : closesQuote [')'] = true := by simp [closesQuote]
  obtain ⟨inQuotes, hover⟩ : ∃ inQuotes, Walk.over ⟨0, false⟩ '(' cs [')'] = some ⟨0, inQuotes⟩ :=
    exists_over hfree false
  rw [inner?_append hover]
  cases inQuotes with
  | false =>
    rw [if_pos (paired_of_over hfree hrest hover)]
    simp [inner?, Walk.step]
  | true =>
    -- the parenthesis behind the text stands in a literal, and no other one is left
    have hnot : ¬ Paired '(' cs := by
      intro hpaired
      rw [hpaired.over hfree hrest] at hover
      cases hover
    rw [if_neg hnot]
    simp [inner?, Walk.step]

theorem groupSafe_iff_paired {text : String} (hfree : Free text.toList) :
    GroupSafe text ↔ Paired '(' text.toList := by
  classical
  rw [groupSafe_iff, inner?_free hfree]
  simp

/-- In front of a parenthesis there is no connective, so that the segment is the term. -/
theorem segment_parenthesis (cs : List Char) :
    segment ('(' :: cs) = (term ('(' :: cs)).map fun t => some ⟨⟨none, none⟩, t⟩ := by
  have hskip : skipBlank ('(' :: cs) = '(' :: cs := skipBlank_append_cons Blanks.nil isBlank_opening cs
  have hconnective : connective ('(' :: cs) = (none, '(' :: cs) := by
    rw [connective_of_not_startsKeyword, hskip]
    rintro ⟨k, rest, heq, -⟩
    rw [hskip] at heq
    cases k <;> simp [Connective.word] at heq
  simp only [segment, hskip, hconnective]
  split
  · rename_i heq
    cases heq
  · rename_i heq
    simp at heq
  · rfl

theorem segment_of_not_paired (hfree : Free cs) (h : ¬ Paired '(' cs) : segment ('(' :: (cs ++ [')'])) =
    .fail (.unbalancedParenthesis (String.ofList ('(' :: (cs ++ [')'])))) ('(' :: (cs ++ [')'])) := by
  classical
  have hskip : skipBlank ('(' :: (cs ++ [')'])) = '(' :: (cs ++ [')']) :=
    skipBlank_append_cons Blanks.nil isBlank_opening _
  have hinner : inner? ⟨0, false⟩ '(' (cs ++ [')']) = none := by rw [inner?_free hfree, if_neg h]
  simp only [segment_parenthesis, term, group, hskip, hinner, Scanned.fail]
  rfl

/-! ## Compiling -/

variable {ρ : Type} (registry : Registry ρ) (limit : Nat) {text : String}

/-- Parentheses around a text without parentheses change nothing if its literals, as a group reads them, all close; the
limit has to be greater by one. If there is one that does not, the text in parentheses is at fault, under any limit. -/
theorem compile_parentheses (hopen : '(' ∉ text.toList) (hclose : ')' ∉ text.toList) :
    (Paired '(' text.toList →
      compile registry (limit + 1) ("(" ++ text ++ ")") = compile registry limit text) ∧
    (¬ Paired '(' text.toList →
      compile registry limit ("(" ++ text ++ ")") = .error (.unbalancedParenthesis ("(" ++ text ++ ")"))) := by
  have hfree : Free text.toList := ⟨hopen, hclose⟩
  constructor
  · intro hpaired
    have hshallow : Shallow (compile registry limit text) := by
      refine compile_shallow registry ?_
      rw [List.count_eq_zero.mpr hopen]
      exact Nat.zero_le limit
    rw [compile_group registry limit ((groupSafe_iff_paired hfree).mpr hpaired), hshallow.mapError_withLimit]
  · intro hpaired
    rw [compile, compileAt, compileFrom_eq, toList_parentheses, segment_of_not_paired hfree hpaired,
      ← toList_parentheses, String.ofList_toList]
    rfl

/-- The literals of an array close; the quote inside a word opens one that does not. -/
theorem compile_parentheses_array :
    let registry : Registry String := ⟨[("A", .scalar .string id)]⟩
    let array := "not A in ['it's', ' x'] or A equals 'y'"
    let word := "A equals x,'y"
    compile registry 1 ("(" ++ array ++ ")") = compile registry 0 array ∧
      outcome (compile registry 0 array) = .ok () ∧
      compile registry 1 ("(" ++ word ++ ")") = .error (.unbalancedParenthesis "(A equals x,'y)") := by
  intro registry array word
  have hfree : Free array.toList := ⟨by decide +kernel, by decide +kernel⟩
  have hfree' : Free word.toList := ⟨by decide +kernel, by decide +kernel⟩
  have hpaired : Paired '(' array.toList := (groupSafe_iff_paired hfree).mp (by decide +kernel)
  have hnot : ¬ Paired '(' word.toList := mt (groupSafe_iff_paired hfree').mpr (by decide +kernel)
  exact ⟨(compile_parentheses registry 0 hfree.1 hfree.2).1 hpaired, by decide +kernel,
    (compile_parentheses registry 1 hfree'.1 hfree'.2).2 hnot⟩

/-- Without its parentheses the text compiles: a clause reads a word up to the next blank, with all quotes in it. -/
theorem compile_word_with_quote :
    let registry : Registry String := ⟨[("A", .scalar .string id)]⟩
    let text := "A equals x,'y"
    '(' ∉ text.toList ∧ ')' ∉ text.toList ∧
      compile registry 0 text = .ok (fun a => (compare a "x,'y").isEq) ∧
      outcome (compile registry 1 ("(" ++ text ++ ")")) = .error (.unbalancedParenthesis ("(" ++ text ++ ")")) := by
  intro registry text
  have hscan : scan text = .ok [⟨⟨none, none⟩, .clause ⟨"A", "equals", .literal "x,'y"⟩⟩] := by decide +kernel
  exact ⟨by decide +kernel, by decide +kernel, compileAt_eq_compileRow hscan, by decide +kernel⟩

end RecordQuery.Filter
