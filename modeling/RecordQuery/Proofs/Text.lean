import RecordQuery.Text.Blank

/-!
Texts in pieces. What separates the pieces stands in none of them, and where a text is put together with a blank
between its parts, its words are those of the one and then those of the other.
-/
namespace RecordQuery

theorem not_mem_of_mem_splitOn {α : Type} [BEq α] [LawfulBEq α] (separator : α) (xs : List α) :
    ∀ piece ∈ xs.splitOn separator, separator ∉ piece := by
  induction xs with
  | nil => simp
  | cons x xs ih =>
    rw [List.splitOn_cons_eq_if_modifyHead]
    split
    · simpa using ih
    · rename_i hx
      cases hs : xs.splitOn separator with
      | nil => exact absurd hs (List.splitOn_ne_nil separator xs)
      | cons first others =>
        rw [hs] at ih
        have hx : separator ≠ x := fun h => hx (by simp [h])
        simp only [List.mem_cons, forall_eq_or_imp] at ih
        simpa [hx] using ih

/-- Each piece stands in the text that the pieces make. -/
theorem infix_intercalate {α : Type} (separator : List α) {pieces : List (List α)} {piece : List α}
    (h : piece ∈ pieces) : piece <:+: separator.intercalate pieces := by
  induction pieces with
  | nil => cases h
  | cons first others ih =>
    cases others with
    | nil =>
      obtain rfl := List.mem_singleton.mp h
      exact ⟨[], [], by simp⟩
    | cons second others =>
      rw [List.intercalate_cons_cons]
      rcases List.mem_cons.mp h with rfl | h
      · exact ⟨[], separator ++ separator.intercalate (second :: others), by simp⟩
      · exact (ih h).trans (List.suffix_append _ _).isInfix

theorem Text.words_append {blank : Char} (h : isBlank blank = true) (cs cs' : List Char) :
    words (cs ++ blank :: cs') = words cs ++ words cs' := by
  rw [words, List.splitOnP_append_cons cs cs' h, List.filter_append]
  rfl

end RecordQuery
