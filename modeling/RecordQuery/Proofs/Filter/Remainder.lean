import RecordQuery.Proofs.Filter.Spelling

/-!
What the scanner leaves. Whether it reads a piece or meets a fault, what is left of a text is an end of it: nothing
is put back, and nothing is passed over twice. The text inside a term stands in parentheses right in front of what
is left, so that it shares no parenthesis with the text that follows.
-/
namespace RecordQuery.Filter

open Text (skipBlank)

variable {α β : Type}

@[simp] theorem Scanned.rest_ok (a : α) (rest : List Char) : (ok a rest).rest = rest := rfl

@[simp] theorem Scanned.rest_fail (e : QueryError) (rest : List Char) : (fail e rest : Scanned α).rest = rest := rfl

@[simp] theorem Scanned.rest_map (f : α → β) (s : Scanned α) : (s.map f).rest = s.rest := rfl

/-! ## Ends of a text -/

theorem word_suffix (stops cs : List Char) : (word stops cs).2 <:+ cs :=
  List.dropWhile_suffix _

theorem connective_suffix (cs : List Char) : (connective cs).2 <:+ cs := by
  have hskip := Text.skipBlank_suffix cs
  match hc : connective cs with
  | (none, rest) =>
    rwa [connective_eq_none hc]
  | (some k, rest) =>
    rw [(connective_eq_some hc).1] at hskip
    exact (List.suffix_append _ _).trans hskip

theorem group_suffix (cs : List Char) : (group cs).rest <:+ cs := by
  have hskip := Text.skipBlank_suffix cs
  unfold group
  split
  · rename_i r hr
    rw [hr] at hskip
    split
    · rename_i inner rest hi
      have hrest : rest <:+ r := by
        rw [inner?_eq_some hi]
        exact (List.suffix_cons _ _).trans (List.suffix_append _ _)
      exact hrest.trans ((List.suffix_cons _ _).trans hskip)
    · exact hskip
  · exact hskip

theorem childQuery_suffix (cs : List Char) : (childQuery cs).rest <:+ cs := by
  have hg := group_suffix cs
  unfold childQuery
  split
  all_goals
    rename_i h
    rwa [h] at hg

theorem array_suffix (cs : List Char) : (array cs).rest <:+ cs := by
  have hskip := Text.skipBlank_suffix cs
  unfold array
  split
  · rename_i r hr
    rw [hr] at hskip
    split
    · exact hskip
    · rename_i c after hafter
      have hend : c :: after <:+ r := hafter ▸ List.dropWhile_suffix _
      exact (List.suffix_cons _ _).trans (hend.trans ((List.suffix_cons _ _).trans hskip))
  · exact hskip

theorem literal_suffix (field operator : String) (cs : List Char) : (literal field operator cs).rest <:+ cs := by
  have hskip := Text.skipBlank_suffix cs
  unfold literal
  split
  · exact List.nil_suffix
  · rename_i r hr
    rw [hr] at hskip
    split
    · rename_i text rest hq
      have hrest : rest <:+ r := by
        rw [(quoted?_eq_some hq).1]
        exact (List.suffix_cons _ _).trans (List.suffix_append _ _)
      exact hrest.trans ((List.suffix_cons _ _).trans hskip)
    · exact hskip
  · exact (word_suffix _ _).trans hskip

theorem operand_suffix (field operator : String) (cs : List Char) : (operand field operator cs).rest <:+ cs := by
  unfold operand
  split
  · exact childQuery_suffix cs
  · exact array_suffix cs
  · exact literal_suffix field operator cs

theorem clause_suffix (cs : List Char) : (clause cs).rest <:+ cs := by
  have hfield := (word_suffix [] (skipBlank cs)).trans (Text.skipBlank_suffix cs)
  have hoperator := ((word_suffix ['(', '['] _).trans (Text.skipBlank_suffix _)).trans hfield
  unfold clause
  dsimp only
  split
  · exact hoperator
  · exact (operand_suffix _ _ _).trans hoperator

theorem term_suffix (cs : List Char) : (term cs).rest <:+ cs := by
  have hg := group_suffix cs
  unfold term
  split
  all_goals
    rename_i h
    rw [h] at hg
  · exact hg
  · exact (clause_suffix _).trans hg
  · exact hg

/-- Whatever comes of it, reading a segment leaves an end of the text. -/
theorem segment_suffix (cs : List Char) : (segment cs).rest <:+ cs := by
  have hskip := Text.skipBlank_suffix cs
  unfold segment
  split
  · exact List.nil_suffix
  · have h₁ := (connective_suffix (skipBlank cs)).trans hskip
    have h₂ := (connective_suffix (connective (skipBlank cs)).2).trans h₁
    have h₃ := (Text.skipBlank_suffix _).trans h₂
    dsimp only
    split
    · exact List.nil_suffix
    · rename_i rest hr
      rwa [hr] at h₃
    · exact (term_suffix _).trans h₃

/-! ## Texts inside terms -/

theorem term_inner_suffix {cs rest : List Char} {t : Term} {inner : String} (h : term cs = .ok t rest)
    (hi : t.inner? = some inner) : '(' :: (inner.toList ++ ')' :: rest) <:+ cs := by
  unfold term at h
  split at h
  · rename_i inner' rest' hg
    obtain ⟨rfl, rfl⟩ := Scanned.ok_inj.mp h
    obtain rfl := Option.some.inj hi
    have hskip := Text.skipBlank_suffix cs
    rwa [group_eq_some hg] at hskip
  · rename_i rest' hg
    have hrest := group_suffix cs
    rw [hg] at hrest
    obtain ⟨⟨field, operator, o⟩, hc, rfl⟩ := Scanned.map_eq_ok h
    obtain ⟨cs₁, cs₂, hfield, hoperator, -, ho⟩ := clause_eq_ok_iff.mp hc
    have h₁ : cs₁ <:+ rest' := by
      have hword := word_suffix [] (skipBlank rest')
      rw [hfield] at hword
      exact hword.trans (Text.skipBlank_suffix rest')
    have h₂ : cs₂ <:+ cs₁ := by
      have hword := word_suffix ['(', '['] (skipBlank cs₁)
      rw [hoperator] at hword
      exact hword.trans (Text.skipBlank_suffix cs₁)
    cases o with
    | literal text => cases hi
    | array items => cases hi
    | nested query =>
      obtain rfl := Option.some.inj hi
      have hquery : '(' :: (query.toList ++ ')' :: rest) <:+ cs₂ := by
        unfold operand at ho
        split at ho <;> obtain ⟨a, ha, heq⟩ := Scanned.map_eq_ok ho <;> cases heq
        obtain ⟨b, -, rfl⟩ := childQuery_spells ha
        exact ⟨b, by simp⟩
      exact hquery.trans (h₂.trans (h₁.trans hrest))
  · exact absurd h Scanned.fail_ne_ok

/-- The text inside the term of a segment stands in parentheses, and behind them is what the segment leaves. -/
theorem segment_inner_suffix {cs rest : List Char} {s : Segment} {inner : String}
    (h : segment cs = .ok (some s) rest) (hi : s.term.inner? = some inner) :
    '(' :: (inner.toList ++ ')' :: rest) <:+ cs := by
  obtain ⟨cs₁, cs₂, -, h₁, h₂, -, -, ht⟩ := segment_eq_some_iff.mp h
  have hfirst := connective_suffix cs
  have hsecond := connective_suffix cs₁
  rw [h₁] at hfirst
  rw [h₂] at hsecond
  exact (term_inner_suffix ht hi).trans ((Text.skipBlank_suffix cs₂).trans (hsecond.trans hfirst))

/-- The parentheses that open inside a term and behind it are fewer than those of the text. -/
theorem segment_inner_count {cs rest : List Char} {s : Segment} {inner : String}
    (h : segment cs = .ok (some s) rest) (hi : s.term.inner? = some inner) :
    inner.toList.count '(' + rest.count '(' < cs.count '(' := by
  have hle := (segment_inner_suffix h hi).sublist.count_le '('
  simp only [List.count_cons_self, List.count_append] at hle
  have hclose : (')' :: rest).count '(' = rest.count '(' := List.count_cons_of_ne (by decide)
  omega

end RecordQuery.Filter
