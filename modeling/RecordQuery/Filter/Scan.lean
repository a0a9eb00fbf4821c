import RecordQuery.Filter.Scan.Clause

/-!
Scanning a filter text into segments. A segment that is read leaves strictly less text, and the text inside its
term is shorter too; the first ends the loop over segments, the second the descent into groups.
-/
namespace RecordQuery.Filter

open Text (skipBlank)

/-- Reads a group or a clause. -/
def term (cs : List Char) : Scanned Term :=
  match group cs with
  | ⟨.ok (some inner), rest⟩ => .ok (.group inner) rest
  | ⟨.ok none, rest⟩ => (clause rest).map .clause
  | ⟨.error e, rest⟩ => .fail e rest

/-- Reads up to two connectives and a term, or nothing at the end of the text. -/
def segment (cs : List Char) : Scanned (Option Segment) :=
  match skipBlank cs with
  | [] => .ok none []
  | cs =>
    let (first, cs) := connective cs
    let (second, cs) := connective cs
    let window := ⟨first, second⟩
    match skipBlank cs with
    | [] => .fail (.expectedClause window) []
    | ')' :: rest => .fail (.unbalancedParenthesis (String.ofList (')' :: rest))) (')' :: rest)
    | cs => (term cs).map fun term => some ⟨window, term⟩

/-! ## What is used up -/

theorem term_length {cs rest : List Char} {t : Term} (h : term cs = ⟨.ok t, rest⟩) :
    rest.length < cs.length := by
  unfold term at h
  split at h
  · rename_i hg
    simp only [Scanned.ok, Scanned.mk.injEq] at h
    have := group_length hg
    rw [← h.2]
    omega
  · rename_i hg
    obtain ⟨_, h', _⟩ := Scanned.map_eq_ok h
    have := clause_length h'
    have := Text.skipBlank_length_le cs
    rw [group_eq_none hg] at *
    omega
  · simp [Scanned.fail] at h

/-- The text inside a term: that of a group, or of a clause's nested query. -/
def Term.inner? : Term → Option String
  | .group inner => some inner
  | .clause ⟨_, _, .nested query⟩ => some query
  | .clause _ => none

theorem term_inner_length {cs rest : List Char} {t : Term} {inner : String}
    (h : term cs = ⟨.ok t, rest⟩) (hi : t.inner? = some inner) : inner.length < cs.length := by
  unfold term at h
  split at h
  · rename_i hg
    simp only [Scanned.ok, Scanned.mk.injEq, Except.ok.injEq] at h
    obtain ⟨rfl, rfl⟩ := h
    simp only [Term.inner?, Option.some.injEq] at hi
    have := group_length hg
    rw [← hi]
    omega
  · rename_i hg
    obtain ⟨c, h', rfl⟩ := Scanned.map_eq_ok h
    obtain ⟨cs', hlt, h''⟩ := clause_eq_ok h'
    have := Text.skipBlank_length_le cs
    rw [group_eq_none hg] at hlt
    obtain ⟨field, operator, o⟩ := c
    cases o with
    | nested query =>
      simp only [Term.inner?, Option.some.injEq] at hi
      have := operand_nested_length h''
      rw [← hi]
      omega
    | literal => simp [Term.inner?] at hi
    | array => simp [Term.inner?] at hi
  · simp [Scanned.fail] at h

/-- A segment that is read comes down to a term read from a text that is no longer. -/
theorem segment_eq_some {cs rest : List Char} {s : Segment}
    (h : segment cs = ⟨.ok (some s), rest⟩) :
    ∃ cs', cs'.length ≤ cs.length ∧ term cs' = ⟨.ok s.term, rest⟩ := by
  have hle := Text.skipBlank_length_le cs
  unfold segment at h
  split at h
  · simp [Scanned.ok] at h
  · have h₁ := connective_length_le (skipBlank cs)
    have h₂ := connective_length_le (connective (skipBlank cs)).2
    have h₃ := Text.skipBlank_length_le (connective (connective (skipBlank cs)).2).2
    dsimp only at h
    split at h
    · simp [Scanned.fail] at h
    · simp [Scanned.fail] at h
    · obtain ⟨t, h', heq⟩ := Scanned.map_eq_ok h
      cases heq
      exact ⟨_, by omega, h'⟩

theorem segment_length {cs rest : List Char} {s : Segment}
    (h : segment cs = ⟨.ok (some s), rest⟩) : rest.length < cs.length := by
  obtain ⟨cs', hle, h'⟩ := segment_eq_some h
  exact Nat.lt_of_lt_of_le (term_length h') hle

theorem segment_inner_length {cs rest : List Char} {s : Segment} {inner : String}
    (h : segment cs = ⟨.ok (some s), rest⟩) (hi : s.term.inner? = some inner) :
    inner.length < cs.length := by
  obtain ⟨cs', hle, h'⟩ := segment_eq_some h
  exact Nat.lt_of_lt_of_le (term_inner_length h' hi) hle

/-! ## Whole texts -/

/-- Reads segments to the end of the text. -/
def segments (cs : List Char) : Except QueryError (List Segment) :=
  match _h : segment cs with
  | ⟨.ok none, _⟩ => .ok []
  | ⟨.ok (some s), rest⟩ => (segments rest).map (s :: ·)
  | ⟨.error e, _⟩ => .error e
termination_by cs.length
decreasing_by exact segment_length _h

/-- Scans a filter text. -/
def scan (text : String) : Except QueryError (List Segment) :=
  segments text.toList

end RecordQuery.Filter
