import RecordQuery.Proofs.Filter.Batch
import RecordQuery.Proofs.Filter.Spelling

/-!
Texts that go on. What the scanner has read does not depend on what follows, if a blank follows: a keyword, a word
or a quote at the end of a text ends in front of a blank as it does at the end. So the segments of two texts with
blanks between them are those of the first and then those of the second, and a fault is one of the second.
-/
namespace RecordQuery.Filter

open Text (isBlank skipBlank)

/-- The blanks of what follows are reached only where nothing else is left. -/
theorem skipBlank_append_tail {cs : List Char} (hne : skipBlank cs ≠ []) (tail : List Char) :
    skipBlank (cs ++ tail) = skipBlank cs ++ tail := by
  obtain ⟨b, hb, hcs⟩ := exists_blanks cs
  obtain ⟨c, rest, hc⟩ := List.exists_cons_of_ne_nil hne
  have hblank : isBlank c = false := Text.isBlank_of_skipBlank_eq_cons hc
  rw [hc] at hcs
  rw [hc, hcs, List.append_assoc]
  exact skipBlank_append_cons hb hblank _

section

variable {tail : List Char} (ht : EndsToken tail)

include ht

/-! ## Lookahead -/

theorem endsKeyword_append_tail (cs : List Char) : endsKeyword (cs ++ tail) = endsKeyword cs := by
  cases cs with
  | nil => exact ht.endsKeyword
  | cons c cs => rfl

theorem closesQuote_append_tail (cs : List Char) : closesQuote (cs ++ tail) = closesQuote cs := by
  cases cs with
  | nil => exact ht.closesQuote
  | cons c cs => rfl

theorem word_append_tail {stops cs w rest : List Char} (h : word stops cs = (w, rest)) :
    word stops (cs ++ tail) = (w, rest ++ tail) := by
  have hstop : ∀ c ∈ (rest ++ tail).head?, isBlank c = true ∨ c ∈ stops := by
    intro c hc
    cases rest with
    | nil => exact Or.inl (ht c hc)
    | cons d rest => exact word_stop h c hc
  rw [word_eq_append h, List.append_assoc]
  exact word_append_of (word_chars h) hstop

theorem quoted?_append_tail {cs text rest : List Char} (h : quoted? cs = some (text, rest)) :
    quoted? (cs ++ tail) = some (text, rest ++ tail) := by
  induction cs generalizing text with
  | nil => simp [quoted?] at h
  | cons c cs ih =>
    simp only [List.cons_append, quoted?, closesQuote_append_tail ht] at h ⊢
    split at h
    · rename_i hc
      obtain ⟨rfl, rfl⟩ := Prod.mk.inj (Option.some.inj h)
      rw [if_pos hc]
    · rename_i hc
      obtain ⟨⟨text', rest'⟩, h', heq⟩ := Option.map_eq_some_iff.mp h
      obtain ⟨rfl, rfl⟩ := Prod.mk.inj heq
      rw [if_neg hc, ih h']
      rfl

/-- A keyword does not go on behind a blank. -/
theorem startsKeyword_of_append_tail {cs : List Char} (h : StartsKeyword (cs ++ tail)) : StartsKeyword cs := by
  obtain ⟨k, rest, heq, hend⟩ := h
  rcases List.append_eq_append_iff.mp heq with ⟨t, hk, hrest⟩ | ⟨t, hcs, hrest⟩
  · cases t with
    | nil => exact ⟨k, [], by simpa using hk.symm, rfl⟩
    | cons d t =>
      have hd := ht d (by simp [hrest])
      rw [k.isBlank_word d (by simp [hk])] at hd
      cases hd
  · rw [hrest, endsKeyword_append_tail ht] at hend
    exact ⟨k, t, hcs, hend⟩

theorem connective_append_tail {cs rest : List Char} {first : Option Connective} (hne : skipBlank cs ≠ [])
    (h : connective cs = (first, rest)) : connective (cs ++ tail) = (first, rest ++ tail) := by
  have hskip := skipBlank_append_tail hne tail
  cases first with
  | some k =>
    obtain ⟨heq, hend⟩ := connective_eq_some h
    rw [← connective_skipBlank, hskip, heq, List.append_assoc]
    exact connective_keyword Blanks.nil k ((endsKeyword_append_tail ht rest).trans hend)
  | none =>
    have hk : ¬ StartsKeyword (skipBlank (cs ++ tail)) := by
      rw [hskip]
      intro hk
      obtain ⟨k, r, heq, hend⟩ := startsKeyword_of_append_tail ht hk
      have hsome := connective_keyword Blanks.nil k hend
      rw [List.nil_append, ← heq, connective_skipBlank, h] at hsome
      cases hsome
    rw [connective_of_not_startsKeyword hk, hskip, connective_eq_none h]

/-! ## Terms -/

omit ht in
theorem group_append_tail {cs rest : List Char} {inner : String} (h : group cs = .ok (some inner) rest) :
    group (cs ++ tail) = .ok (some inner) (rest ++ tail) := by
  obtain ⟨b, hb, hcs⟩ := exists_blanks cs
  obtain ⟨r, hr, hinner⟩ := exists_inner?_of_group h
  have hgroup := group_parenthesis hb (inner?_local hinner (rest ++ tail))
  rw [String.ofList_toList] at hgroup
  rw [hcs, hr, inner?_eq_some hinner]
  simpa using hgroup

omit ht in
theorem childQuery_append_tail {cs rest : List Char} {query : String} (h : childQuery cs = .ok query rest) :
    childQuery (cs ++ tail) = .ok query (rest ++ tail) := by
  unfold childQuery at h
  split at h
  · rename_i inner rest' hg
    obtain ⟨rfl, rfl⟩ := Scanned.ok_inj.mp h
    rw [childQuery, group_append_tail hg]
    rfl
  · exact absurd h Scanned.fail_ne_ok
  · exact absurd h Scanned.fail_ne_ok

omit ht in
theorem array_append_tail {cs rest : List Char} {items : List String} (h : array cs = .ok items rest) :
    array (cs ++ tail) = .ok items (rest ++ tail) := by
  obtain ⟨b, content, hb, rfl, hfree, hs⟩ := array_spells h
  rw [← hs.arrayItems_eq, List.append_assoc, List.append_assoc]
  exact array_content hb hfree (rest ++ tail)

theorem literal_append_tail {field operator text : String} {cs rest : List Char}
    (h : literal field operator cs = .ok text rest) :
    literal field operator (cs ++ tail) = .ok text (rest ++ tail) := by
  obtain ⟨c, r, hc, h⟩ := literal_eq_ok_iff.mp h
  have hne : skipBlank cs ≠ [] := by simp [hc]
  have hskip := skipBlank_append_tail hne tail
  rw [hc, List.cons_append] at hskip
  refine literal_eq_ok_iff.mpr ⟨c, r ++ tail, hskip, ?_⟩
  split at h
  · rename_i hq
    rw [if_pos hq]
    exact quoted?_append_tail ht h
  · rename_i hq
    rw [if_neg hq]
    exact word_append_tail ht h

theorem operand_append_tail {field operator : String} {cs rest : List Char} {o : Operand}
    (h : operand field operator cs = .ok o rest) : operand field operator (cs ++ tail) = .ok o (rest ++ tail) := by
  unfold operand at h ⊢
  split at h <;> obtain ⟨a, h', rfl⟩ := Scanned.map_eq_ok h
  · rw [childQuery_append_tail h']
    rfl
  · rw [array_append_tail h']
    rfl
  · rw [literal_append_tail ht h']
    rfl

theorem clause_append_tail {cs rest : List Char} {c : Clause} (hne : skipBlank cs ≠ [])
    (h : clause cs = .ok c rest) : clause (cs ++ tail) = .ok c (rest ++ tail) := by
  obtain ⟨cs₁, cs₂, hf, hop, hopne, ho⟩ := clause_eq_ok_iff.mp h
  have hne₁ : skipBlank cs₁ ≠ [] := by
    intro hnil
    rw [hnil] at hop
    exact hopne (Prod.mk.inj hop).1.symm
  refine clause_eq_ok_iff.mpr ⟨cs₁ ++ tail, cs₂ ++ tail, ?_, ?_, hopne, operand_append_tail ht ho⟩
  · rw [skipBlank_append_tail hne]
    exact word_append_tail ht hf
  · rw [skipBlank_append_tail hne₁]
    exact word_append_tail ht hop

theorem term_append_tail {cs rest : List Char} {t : Term} (hne : skipBlank cs ≠ [])
    (h : term cs = .ok t rest) : term (cs ++ tail) = .ok t (rest ++ tail) := by
  have hskip := skipBlank_append_tail hne tail
  unfold term at h
  split at h
  · rename_i inner rest' hg
    obtain ⟨rfl, rfl⟩ := Scanned.ok_inj.mp h
    rw [term, group_append_tail hg]
    rfl
  · rename_i rest' hg
    obtain ⟨c, hc, rfl⟩ := Scanned.map_eq_ok h
    obtain rfl := group_eq_none hg
    have hc' := clause_append_tail ht (by rwa [skipBlank_skipBlank]) hc
    have hhead : (skipBlank (cs ++ tail)).head? ≠ some '(' := by
      rw [hskip, List.head?_append_of_ne_nil _ hne]
      exact head?_of_group_eq_none hg
    rw [term_eq_clause hhead, hskip, hc']
    rfl
  · exact absurd h Scanned.fail_ne_ok

/-! ## Texts -/

omit ht in
theorem skipBlank_ne_nil_of_connective {cs rest : List Char} {first : Option Connective}
    (h : connective cs = (first, rest)) (hne : skipBlank rest ≠ []) : skipBlank cs ≠ [] := by
  cases first with
  | none =>
    rw [connective_eq_none h, skipBlank_skipBlank] at hne
    exact hne
  | some k =>
    rw [(connective_eq_some h).1]
    cases k <;> simp [Connective.word]

theorem segment_append_tail {cs rest : List Char} {s : Segment} (h : segment cs = .ok (some s) rest) :
    segment (cs ++ tail) = .ok (some s) (rest ++ tail) := by
  obtain ⟨cs₁, cs₂, hne, h₁, h₂, hne₂, hopen, hterm⟩ := segment_eq_some_iff.mp h
  have hskip := skipBlank_append_tail hne tail
  have hskip₂ := skipBlank_append_tail hne₂ tail
  have hne₁ := skipBlank_ne_nil_of_connective h₂ hne₂
  refine segment_eq_some_iff.mpr ⟨cs₁ ++ tail, cs₂ ++ tail, ?_, connective_append_tail ht hne h₁,
    connective_append_tail ht hne₁ h₂, ?_, ?_, ?_⟩
  · simp [hskip, hne]
  · simp [hskip₂, hne₂]
  · rwa [hskip₂, List.head?_append_of_ne_nil _ hne₂]
  · rw [hskip₂]
    exact term_append_tail ht (by rwa [skipBlank_skipBlank]) hterm

omit ht in
theorem segment_blanks_append {b : List Char} (hb : Blanks b) (cs : List Char) :
    segment (b ++ cs) = segment cs := by
  rw [segment, segment, skipBlank_append hb]

omit ht in
theorem yielded_blanks_append {b : List Char} (hb : Blanks b) (cs : List Char) :
    yielded (b ++ cs) = yielded cs := by
  rw [yielded_eq, yielded_eq cs, segment_blanks_append hb]

/-- By induction on the segments of the first text; where they end, only blanks are left in front of the tail. -/
theorem yielded_append_tail {cs : List Char} {ss : List Segment} (h : segments cs = .ok ss) :
    yielded (cs ++ tail) = (yielded tail).map (ss ++ ·) id := by
  fun_induction segments cs generalizing ss with
  | case1 cs rest hs =>
    obtain rfl := Except.ok.inj h
    exact yielded_blanks_append (segment_eq_none_iff.mp hs).1 tail
  | case2 cs s rest hs ih =>
    obtain ⟨ss', hr, rfl⟩ := exists_of_map_eq_ok h
    rw [yielded_eq, segment_append_tail ht hs]
    simp only [Scanned.ok, ih hr]
    rfl
  | case3 cs e rest hs => cases h

end

/-- What a text yields behind another one, with blanks between them. -/
theorem yielded_join {cs gap : List Char} {ss : List Segment} (h : segments cs = .ok ss) (hgap : Blanks gap)
    (hne : gap ≠ []) (cs' : List Char) : yielded (cs ++ (gap ++ cs')) = (yielded cs').map (ss ++ ·) id := by
  rw [yielded_append_tail (hgap.endsToken_append hne cs') h, yielded_blanks_append hgap]

theorem segments_join {cs gap : List Char} {ss : List Segment} (h : segments cs = .ok ss) (hgap : Blanks gap)
    (hne : gap ≠ []) (cs' : List Char) : segments (cs ++ (gap ++ cs')) = (segments cs').map (ss ++ ·) := by
  rw [segments_eq_yielded, segments_eq_yielded cs', yielded_join h hgap hne]
  obtain ⟨ss', stop?⟩ := yielded cs'
  cases stop? <;> rfl

/-- Two texts with blanks between them scan to the segments of the first and then those of the second, up to the
fault of the second if it has one, which is reported as it is; blanks around a text change nothing. -/
theorem scan_append {text gap : String} {ss : List Segment} (h : scan text = .ok ss) (hgap : Blanks gap.toList)
    (hne : gap ≠ "") (other : String) :
    scan (text ++ gap ++ other) = (scan other).map (ss ++ ·) ∧
      (yielded (text ++ gap ++ other).toList).1 = ss ++ (yielded other.toList).1 ∧
      scan (gap ++ text) = .ok ss ∧ scan (text ++ gap) = .ok ss := by
  have hgapne : gap.toList ≠ [] := by simpa using hne
  have hjoin : (text ++ gap ++ other).toList = text.toList ++ (gap.toList ++ other.toList) := by simp
  refine ⟨?_, ?_, ?_, ?_⟩
  · rw [scan, hjoin]
    exact segments_join h hgap hgapne other.toList
  · rw [hjoin, yielded_join h hgap hgapne]
    rfl
  · rw [scan, String.toList_append, segments_eq_yielded, yielded_blanks_append hgap, ← segments_eq_yielded]
    exact h
  · have hnil : segments [] = .ok [] := by
      rw [segments_eq]
      rfl
    have hend := segments_join h hgap hgapne []
    rw [List.append_nil, hnil] at hend
    rw [scan, String.toList_append, hend]
    simp [Except.map]

/-- A keyword and a quote at the end of the first text end in front of the blank. -/
theorem scan_append_quoted :
    let ss : List Segment := [⟨⟨some .not, none⟩, .clause ⟨"A", "equals", .literal "it's"⟩⟩]
    scan "not A equals 'it's'" = .ok ss ∧
      scan ("not A equals 'it's'" ++ "\n" ++ "and B equals 'x") = .error (.unclosedQuote "'x") ∧
      scan ("not A equals 'it's'" ++ "\n" ++ "or(B any)") = .ok (ss ++ [⟨⟨some .or, none⟩, .group "B any"⟩]) := by
  intro ss
  have h : scan "not A equals 'it's'" = .ok ss := by decide +kernel
  have hgap : Blanks "\n".toList := by decide
  have herror : scan "and B equals 'x" = .error (.unclosedQuote "'x") := by decide +kernel
  have hok : scan "or(B any)" = .ok [⟨⟨some .or, none⟩, .group "B any"⟩] := by decide +kernel
  refine ⟨h, ?_, ?_⟩
  · rw [(scan_append h hgap (by decide) _).1, herror]
    rfl
  · rw [(scan_append h hgap (by decide) _).1, hok]
    rfl

end RecordQuery.Filter
