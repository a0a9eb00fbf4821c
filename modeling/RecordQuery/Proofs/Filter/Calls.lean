import RecordQuery.Proofs.Filter.Place

/-!
The scanner under any calls. Its functions may be called one after another in any order, also behind a fault; what they
share is the text that is left. A call passes over some of it and leaves the rest. So the place where the scanner stands
never moves back, the texts that a call gives stand in what it has passed, and where it reads something it moves on;
and a scan, which is a run of such calls, comes to an end.
-/
namespace RecordQuery

open Text (skipBlank)

namespace Filter

/-! ## Calls and answers -/

inductive Call where
  | hasMore
  | connective
  | group
  | clause
  | segment
deriving DecidableEq, Repr

/-- What a call gives. -/
inductive Answer where
  | more (more : Bool)
  | connective (found : Option Connective)
  | group (result : Except QueryError (Option String))
  | clause (result : Except QueryError Clause)
  | segment (result : Except QueryError (Option Segment))

/-- The answer to a call, and the text that it leaves. -/
def Call.run : Call → List Char → Answer × List Char
  | .hasMore, cs => (.more (Filter.hasMore cs).1, (Filter.hasMore cs).2)
  | .connective, cs => (.connective (Filter.connective cs).1, (Filter.connective cs).2)
  | .group, cs => (.group (Filter.group cs).result, (Filter.group cs).rest)
  | .clause, cs => (.clause (Filter.clause cs).result, (Filter.clause cs).rest)
  | .segment, cs => (.segment (Filter.segment cs).result, (Filter.segment cs).rest)

/-- What is left of a text after some calls. A call that fails is followed by the others like any other. -/
def leftAfter (calls : List Call) (cs : List Char) : List Char :=
  calls.foldl (fun cs call => (call.run cs).2) cs

/-- The answer holds something that was read. -/
def Answer.Yields : Answer → Prop
  | .connective (some _) | .group (.ok (some _)) | .clause (.ok _) | .segment (.ok (some _)) => True
  | _ => False

def Answer.fault? : Answer → Option QueryError
  | .more _ | .connective _ => none
  | .group result => RecordQuery.fault? result
  | .clause result => RecordQuery.fault? result
  | .segment result => RecordQuery.fault? result

/-! ## Pieces of the text -/

def Window.words (w : Window) : List String :=
  w.connectives.map (·.word)

def Operand.pieces : Operand → List String
  | .literal text => [text]
  | .array items => items
  | .nested query => [query]

def Clause.pieces (c : Clause) : List String :=
  [c.field, c.operator] ++ c.operand.pieces

def Term.pieces : Term → List String
  | .group inner => [inner]
  | .clause c => c.pieces

def Segment.pieces (s : Segment) : List String :=
  s.window.words ++ s.term.pieces

end Filter

/-- The pieces of the text in an error, but for the text that it points at. -/
def QueryError.pieces : QueryError → List String
  | missingOperator field => [field]
  | missingOperand field operator => [field, operator]
  | expectedClause window => window.words
  | _ => []

namespace Filter

/-- The pieces of the text in an answer, of what was read as of a fault. -/
def Answer.pieces : Answer → List String
  | .more _ => []
  | .connective found => found.toList.map (·.word)
  | .group (.ok inner) => inner.toList
  | .clause (.ok c) => c.pieces
  | .segment (.ok s) => s.toList.flatMap (·.pieces)
  | .group (.error e) | .clause (.error e) | .segment (.error e) => e.pieces

/-- What is passed over on the way from one text to its rest, and the pieces that stand in it. -/
def Passes (cs rest : List Char) (pieces : List String) : Prop :=
  ∃ passed, cs = passed ++ rest ∧ ∀ piece ∈ pieces, piece.toList <:+: passed

namespace Passes

variable {cs rest rest' : List Char} {pieces pieces' : List String}

theorem of_suffix (h : rest <:+ cs) : Passes cs rest [] := by
  obtain ⟨passed, rfl⟩ := h
  exact ⟨passed, rfl, by simp⟩

theorem suffix (h : Passes cs rest pieces) : rest <:+ cs := by
  obtain ⟨passed, rfl, -⟩ := h
  exact List.suffix_append passed rest

theorem mono (h : Passes cs rest pieces) (hsubset : pieces' ⊆ pieces) : Passes cs rest pieces' := by
  obtain ⟨passed, rfl, hpieces⟩ := h
  exact ⟨passed, rfl, fun piece hpiece => hpieces piece (hsubset hpiece)⟩

/-- One way after another. -/
theorem trans (h : Passes cs rest pieces) (h' : Passes rest rest' pieces') : Passes cs rest' (pieces ++ pieces') := by
  obtain ⟨passed, rfl, hpieces⟩ := h
  obtain ⟨passed', rfl, hpieces'⟩ := h'
  refine ⟨passed ++ passed', by rw [List.append_assoc], fun piece hpiece => ?_⟩
  rcases List.mem_append.mp hpiece with hpiece | hpiece
  · exact (hpieces piece hpiece).trans (List.prefix_append _ _).isInfix
  · exact (hpieces' piece hpiece).trans (List.suffix_append _ _).isInfix

theorem single (before behind : List Char) {piece : String} (h : cs = before ++ (piece.toList ++ behind) ++ rest) :
    Passes cs rest [piece] := by
  refine ⟨before ++ (piece.toList ++ behind), h, ?_⟩
  rw [List.forall_mem_singleton]
  exact ⟨before, behind, by rw [List.append_assoc]⟩

theorem skip (cs : List Char) : Passes cs (skipBlank cs) [] :=
  of_suffix (Text.skipBlank_suffix cs)

end Passes

/-! ## What stands in what is passed -/

variable {cs rest : List Char}

theorem word_passes {stops w : List Char} (h : word stops cs = (w, rest)) : Passes cs rest [String.ofList w] :=
  .single [] [] (by simp [word_eq_append h])

theorem connective_passes {found : Option Connective} (h : connective cs = (found, rest)) :
    Passes cs rest (found.toList.map (·.word)) := by
  cases found with
  | none =>
    rw [connective_eq_none h]
    exact .skip cs
  | some k =>
    have hword : Passes (skipBlank cs) rest [k.word] :=
      .single [] [] (by simp [(connective_eq_some h).1])
    exact (Passes.skip cs).trans hword

theorem group_passes {inner : String} (h : group cs = .ok (some inner) rest) : Passes cs rest [inner] := by
  have hgroup : Passes (skipBlank cs) rest [inner] :=
    .single ['('] [')'] (by simp [group_eq_some h])
  exact (Passes.skip cs).trans hgroup

theorem SpellsItem.isInfix {item : String} {piece : List Char} (h : SpellsItem item piece) :
    item.toList <:+: piece := by
  cases h with
  | @plain l w r => exact ⟨l, r, by simp⟩
  | @quoted l w r => exact ⟨l ++ ['\''], '\'' :: r, by simp⟩

theorem SpellsArray.isInfix {items : List String} {content : List Char} (h : SpellsArray items content) {item : String}
    (hitem : item ∈ items) : item.toList <:+: content := by
  cases h with
  | blank => cases hitem
  | items _ _ hall =>
    obtain ⟨piece, hpiece, hspells⟩ := exists_of_forall₂ hall.flip hitem
    exact (SpellsItem.isInfix hspells).trans (infix_intercalate [','] hpiece)

theorem array_passes {items : List String} (h : array cs = .ok items rest) : Passes cs rest items := by
  obtain ⟨b, content, -, rfl, -, hspells⟩ := array_spells h
  refine ⟨b ++ ('[' :: (content ++ [']'])), by simp, fun item hitem => ?_⟩
  have hcontent : content <:+: b ++ ('[' :: (content ++ [']'])) := ⟨b ++ ['['], [']'], by simp⟩
  exact (hspells.isInfix hitem).trans hcontent

theorem literal_passes {field operator text : String} (h : literal field operator cs = .ok text rest) :
    Passes cs rest [text] := by
  obtain ⟨c, r, hc, h⟩ := literal_eq_ok_iff.mp h
  have hliteral : Passes (skipBlank cs) rest [text] := by
    rw [hc]
    split at h
    · rename_i hquote
      exact .single ['\''] ['\''] (by simp [hquote, (quoted?_eq_some h).1])
    · exact .single [] [] (by simp [word_eq_append h])
  exact (Passes.skip cs).trans hliteral

theorem operand_passes {field operator : String} {o : Operand} (h : operand field operator cs = .ok o rest) :
    Passes cs rest o.pieces := by
  unfold operand at h
  split at h <;> obtain ⟨a, h', rfl⟩ := Scanned.map_eq_ok h
  · obtain ⟨b, -, rfl⟩ := childQuery_spells h'
    exact .single (b ++ ['(']) [')'] (by simp)
  · exact array_passes h'
  · exact literal_passes h'

/-- From a clause on to its operand. -/
theorem words_passes {stops w₁ w₂ cs₁ cs₂ : List Char} (h₁ : word [] (skipBlank cs) = (w₁, cs₁))
    (h₂ : word stops (skipBlank cs₁) = (w₂, cs₂)) : Passes cs cs₂ [String.ofList w₁, String.ofList w₂] :=
  (((Passes.skip cs).trans (word_passes h₁)).trans (Passes.skip cs₁)).trans (word_passes h₂)

theorem clause_passes {c : Clause} (h : clause cs = .ok c rest) : Passes cs rest c.pieces := by
  obtain ⟨cs₁, cs₂, hfield, hoperator, -, ho⟩ := clause_eq_ok_iff.mp h
  have hwords := words_passes hfield hoperator
  rw [String.ofList_toList, String.ofList_toList] at hwords
  exact hwords.trans (operand_passes ho)

theorem term_passes {t : Term} (h : term cs = .ok t rest) : Passes cs rest t.pieces := by
  unfold term at h
  split at h
  · rename_i inner rest' hg
    obtain ⟨rfl, rfl⟩ := Scanned.ok_inj.mp h
    exact group_passes hg
  · rename_i rest' hg
    obtain ⟨c, hc, rfl⟩ := Scanned.map_eq_ok h
    have hskip : Passes cs rest' [] := group_eq_none hg ▸ .skip cs
    exact hskip.trans (clause_passes hc)
  · exact absurd h Scanned.fail_ne_ok

theorem window_passes {w : Window} {cs₁ cs₂ : List Char} (h₁ : connective cs = (w.first, cs₁))
    (h₂ : connective cs₁ = (w.second, cs₂)) : Passes cs (skipBlank cs₂) w.words := by
  have hwords := ((connective_passes h₁).trans (connective_passes h₂)).trans (.skip cs₂)
  rwa [List.append_nil, ← List.map_append] at hwords

theorem segment_passes {s : Segment} (h : segment cs = .ok (some s) rest) : Passes cs rest s.pieces := by
  obtain ⟨cs₁, cs₂, -, h₁, h₂, -, -, ht⟩ := segment_eq_some_iff.mp h
  exact (window_passes h₁ h₂).trans (term_passes ht)

/-! ## What stands in what is passed before a fault -/

section

variable {α β : Type} {e : QueryError} {pieces : List String}

/-- The pieces in a fault are among these. -/
def Scanned.FaultsHold (s : Scanned α) (pieces : List String) : Prop :=
  ∀ e, s.result = .error e → e.pieces ⊆ pieces

theorem Scanned.FaultsHold.ok (a : α) (rest : List Char) : (Scanned.ok a rest).FaultsHold pieces := by
  intro e h
  cases h

theorem Scanned.FaultsHold.fail (h : e.pieces ⊆ pieces) (rest : List Char) :
    (Scanned.fail e rest : Scanned α).FaultsHold pieces := by
  intro e' he
  obtain rfl := Except.error.inj he
  exact h

theorem Scanned.map_eq_fail {f : α → β} {s : Scanned α} (h : s.map f = .fail e rest) : s = .fail e rest := by
  obtain ⟨hresult, hrest⟩ := Scanned.mk.inj h
  exact congrArg₂ Scanned.mk (eq_error_of_map_eq_error hresult) hrest

theorem Scanned.FaultsHold.map {s : Scanned α} (h : s.FaultsHold pieces) (f : α → β) : (s.map f).FaultsHold pieces :=
  fun e he => h e (eq_error_of_map_eq_error he)

end

theorem group_faultsHold (cs : List Char) (pieces : List String) : (group cs).FaultsHold pieces := by
  unfold group
  split
  · split
    · exact .ok _ _
    · exact .fail (List.nil_subset _) _
  · exact .ok _ _

theorem operand_faultsHold (field operator : String) (cs : List Char) :
    (operand field operator cs).FaultsHold [field, operator] := by
  unfold operand
  split
  · refine .map ?_ _
    have hg := group_faultsHold cs [field, operator]
    unfold childQuery
    split
    · exact .ok _ _
    · exact .fail (List.nil_subset _) _
    · rename_i e rest h
      rw [h] at hg
      exact .fail (hg e rfl) _
  · refine .map ?_ _
    unfold array
    split
    · split
      · exact .fail (List.nil_subset _) _
      · exact .ok _ _
    · exact .fail (List.nil_subset _) _
  · refine .map ?_ _
    unfold literal
    split
    · exact .fail (List.Subset.refl _) _
    · split
      · exact .ok _ _
      · exact .fail (List.nil_subset _) _
    · exact .ok _ _

variable {e : QueryError}

/-- A clause fails for want of an operator, or at its operand. -/
theorem exists_words_of_clause (h : clause cs = .fail e rest) : ∃ field operator cs₁ cs₂,
    word [] (skipBlank cs) = (field, cs₁) ∧ word ['(', '['] (skipBlank cs₁) = (operator, cs₂) ∧
      (e = .missingOperator (String.ofList field) ∧ rest = cs₂ ∨
        operand (String.ofList field) (String.ofList operator) cs₂ = .fail e rest) := by
  refine ⟨_, _, _, _, rfl, rfl, ?_⟩
  simp only [clause] at h
  split at h
  · obtain ⟨herror, hrest⟩ := Scanned.mk.inj h
    exact .inl ⟨(Except.error.inj herror).symm, hrest.symm⟩
  · exact .inr (Scanned.map_eq_fail h)

theorem clause_fault_passes (h : clause cs = .fail e rest) : Passes cs rest e.pieces := by
  obtain ⟨field, operator, cs₁, cs₂, hfield, hoperator, hfault⟩ := exists_words_of_clause h
  have hwords := words_passes hfield hoperator
  rcases hfault with ⟨rfl, rfl⟩ | ho
  · exact hwords.mono (by simp [QueryError.pieces])
  · have hsuffix := operand_suffix (String.ofList field) (String.ofList operator) cs₂
    have hpieces := operand_faultsHold (String.ofList field) (String.ofList operator) cs₂
    rw [ho] at hsuffix hpieces
    exact (hwords.trans (.of_suffix hsuffix)).mono (hpieces e rfl)

theorem group_fault_passes (h : group cs = .fail e rest) : Passes cs rest e.pieces := by
  have hsuffix := group_suffix cs
  have hpieces := group_faultsHold cs []
  rw [h] at hsuffix hpieces
  exact (Passes.of_suffix hsuffix).mono (hpieces e rfl)

theorem term_fault_passes (h : term cs = .fail e rest) : Passes cs rest e.pieces := by
  unfold term at h
  split at h
  · cases h
  · rename_i rest' hg
    have hskip : Passes cs rest' [] := group_eq_none hg ▸ .skip cs
    exact hskip.trans (clause_fault_passes (Scanned.map_eq_fail h))
  · rename_i e' rest' hg
    obtain ⟨herror, rfl⟩ := Scanned.mk.inj h
    obtain rfl := Except.error.inj herror
    exact group_fault_passes hg

theorem segment_fault_passes (h : segment cs = .fail e rest) : Passes cs rest e.pieces := by
  unfold segment at h
  split at h
  · cases h
  · obtain ⟨first, cs₁, h₁⟩ : ∃ first cs₁, connective cs = (first, cs₁) := ⟨_, _, rfl⟩
    obtain ⟨second, cs₂, h₂⟩ : ∃ second cs₂, connective cs₁ = (second, cs₂) := ⟨_, _, rfl⟩
    have hwindow := window_passes (w := ⟨first, second⟩) h₁ h₂
    rw [connective_skipBlank] at h
    simp only [h₁, h₂] at h
    split at h
    · rename_i hnil
      obtain ⟨herror, rfl⟩ := Scanned.mk.inj h
      obtain rfl := Except.error.inj herror
      rwa [hnil] at hwindow
    · rename_i hparen
      obtain ⟨herror, rfl⟩ := Scanned.mk.inj h
      obtain rfl := Except.error.inj herror
      rw [hparen] at hwindow
      exact hwindow.mono (List.nil_subset _)
    · have hterm := hwindow.trans (term_fault_passes (Scanned.map_eq_fail h))
      exact hterm.mono (List.subset_append_right _ _)

/-! ## One call -/

namespace Call

variable (call : Call) (cs : List Char)

/-- A call passes over a part of the text, in which all that it gives stands. -/
theorem run_passes : Passes cs (call.run cs).2 (call.run cs).1.pieces := by
  cases call with
  | hasMore => exact .skip cs
  | connective => exact connective_passes rfl
  | group =>
    rcases hs : Filter.group cs with ⟨e | _ | inner, rest⟩
    · simpa [run, hs, Answer.pieces] using group_fault_passes hs
    · simpa [run, hs, Answer.pieces, group_eq_none hs] using Passes.skip cs
    · simpa [run, hs, Answer.pieces] using group_passes hs
  | clause =>
    rcases hs : Filter.clause cs with ⟨e | c, rest⟩
    · simpa [run, hs, Answer.pieces] using clause_fault_passes hs
    · simpa [run, hs, Answer.pieces] using clause_passes hs
  | segment =>
    rcases hs : Filter.segment cs with ⟨e | _ | s, rest⟩
    · simpa [run, hs, Answer.pieces] using segment_fault_passes hs
    · simpa [run, hs, Answer.pieces, (segment_eq_none_iff.mp hs).2] using Passes.of_suffix List.nil_suffix
    · simpa [run, hs, Answer.pieces] using segment_passes hs

/-- A call that reads something leaves less. -/
theorem length_run_lt (h : (call.run cs).1.Yields) : (call.run cs).2.length < cs.length := by
  cases call with
  | hasMore => cases h
  | connective =>
    rcases hk : Filter.connective cs with ⟨_ | k, rest⟩
    · simp [run, hk, Answer.Yields] at h
    · have hle := Text.skipBlank_length_le cs
      have hpos : 0 < k.word.toList.length := by cases k <;> simp [Connective.word]
      rw [(connective_eq_some hk).1, List.length_append] at hle
      simp only [run, hk]
      omega
  | group =>
    rcases hs : Filter.group cs with ⟨e | _ | inner, rest⟩
    · simp [run, hs, Answer.Yields] at h
    · simp [run, hs, Answer.Yields] at h
    · have hlt := group_length hs
      simp only [run, hs]
      omega
  | clause =>
    rcases hs : Filter.clause cs with ⟨e | c, rest⟩
    · simp [run, hs, Answer.Yields] at h
    · simpa only [run, hs] using clause_length hs
  | segment =>
    rcases hs : Filter.segment cs with ⟨e | _ | s, rest⟩
    · simp [run, hs, Answer.Yields] at h
    · simp [run, hs, Answer.Yields] at h
    · simpa only [run, hs] using segment_length hs

/-- A fault that points at a text points at what the call leaves. -/
theorem run_points {e : QueryError} (h : (call.run cs).1.fault? = some e) : e.PointsAt (call.run cs).2 := by
  have hfault : ∀ {α : Type} {r : Except QueryError α}, RecordQuery.fault? r = some e → r = .error e :=
    fault?_eq_some_iff.mp
  cases call with
  | hasMore | connective => cases h
  | group => exact group_points cs e (hfault h)
  | clause => exact clause_points cs e (hfault h)
  | segment => exact segment_points cs e (hfault h)

end Call

/-! ## Runs of calls -/

theorem leftAfter_suffix (calls : List Call) (cs : List Char) : leftAfter calls cs <:+ cs := by
  induction calls generalizing cs with
  | nil => exact List.suffix_refl cs
  | cons call calls ih => exact (ih _).trans (call.run_passes cs).suffix

/-- A scan is a run of calls, which give the segments in front of the end of the text, or of a fault, and then that
end. -/
theorem segment_leftAfter (cs : List Char) :
    (yielded cs).1.length ≤ cs.length ∧
      (∀ i s, (yielded cs).1[i]? = some s →
        (segment (leftAfter (List.replicate i .segment) cs)).result = .ok (some s)) ∧
      (segment (leftAfter (List.replicate (yielded cs).1.length .segment) cs)).result =
        match (yielded cs).2 with
        | none => .ok none
        | some e => .error e := by
  fun_induction yielded cs with
  | case1 cs rest hs =>
    refine ⟨Nat.zero_le _, by simp, ?_⟩
    rw [List.length_nil, List.replicate_zero]
    exact congrArg Scanned.result hs
  | case2 cs s rest hs ih =>
    obtain ⟨hlength, hsegments, hend⟩ := ih
    have hstep : ∀ n, leftAfter (List.replicate (n + 1) .segment) cs = leftAfter (List.replicate n .segment) rest := by
      intro n
      rw [List.replicate_succ, leftAfter, List.foldl_cons]
      simp only [Call.run, hs]
      rfl
    refine ⟨?_, ?_, ?_⟩
    · have hlt := segment_length hs
      simp only [Prod.map, List.length_cons]
      omega
    · intro i s' hi
      cases i with
      | zero =>
        obtain rfl : s = s' := by simpa using hi
        exact congrArg Scanned.result hs
      | succ i =>
        rw [hstep]
        exact hsegments i s' (by simpa using hi)
    · simp only [Prod.map, List.length_cons, hstep]
      exact hend
  | case3 cs e rest hs =>
    refine ⟨Nat.zero_le _, by simp, ?_⟩
    rw [List.length_nil, List.replicate_zero]
    exact congrArg Scanned.result hs

/-! ## Places in the text -/

/-- The place in a text where the scanner stands that has this left. -/
def positionIn (text : String) (rest : List Char) : Nat :=
  text.length - rest.length

/-- The characters from one place to another. -/
def slice (text : String) (i j : Nat) : String :=
  String.ofList ((text.toList.take j).drop i)

/-- The table of byte offsets: where in the bytes of a text each character begins, and where the last one ends. -/
def byteOffsets (text : String) : List Nat :=
  text.toList.scanl (fun offset c => offset + c.utf8Size) 0

theorem foldl_utf8Size (cs : List Char) (offset : Nat) :
    cs.foldl (fun offset c => offset + c.utf8Size) offset = offset + (String.ofList cs).utf8ByteSize := by
  induction cs generalizing offset with
  | nil => simp
  | cons c cs ih =>
    rw [List.foldl_cons, ih, ← List.singleton_append, String.ofList_append, String.utf8ByteSize_append]
    simp [Nat.add_assoc]

/-- The table and the characters agree: the bytes from the offset of a place on are the characters from there on. -/
theorem exists_byteOffset {text : String} {position : Nat} (h : position ≤ text.length) :
    ∃ offset, (byteOffsets text)[position]? = some offset ∧
      text.toByteArray.extract offset text.utf8ByteSize = (String.ofList (text.toList.drop position)).toByteArray := by
  have hoffset : (byteOffsets text)[position]? = some (String.ofList (text.toList.take position)).utf8ByteSize := by
    rw [byteOffsets, List.getElem?_scanl, if_pos (by rwa [String.length_toList]), foldl_utf8Size, Nat.zero_add]
  have hbytes : text.toByteArray = (String.ofList (text.toList.take position)).toByteArray ++
      (String.ofList (text.toList.drop position)).toByteArray := by
    rw [← String.toByteArray_append, ← String.ofList_append, List.take_append_drop, String.ofList_toList]
  have hsize := congrArg ByteArray.size hbytes
  rw [ByteArray.size_append] at hsize
  refine ⟨_, hoffset, ?_⟩
  rw [hbytes]
  exact ByteArray.extract_append_eq_right rfl hsize

section

variable {text : String} {rest rest' : List Char}

theorem drop_positionIn (h : rest <:+ text.toList) : text.toList.drop (positionIn text rest) = rest := by
  rw [positionIn, ← String.length_toList]
  exact (List.suffix_iff_eq_drop.mp h).symm

/-- Pieces that are passed over on the way from one place to another are slices between them. -/
theorem Passes.exists_slice {pieces : List String} (h : rest <:+ text.toList) (hpasses : Passes rest rest' pieces)
    {piece : String} (hpiece : piece ∈ pieces) :
    ∃ i j, positionIn text rest ≤ i ∧ i ≤ j ∧ j ≤ positionIn text rest' ∧ piece = slice text i j := by
  obtain ⟨passed, rfl, hpieces⟩ := hpasses
  obtain ⟨before, behind, rfl⟩ := hpieces piece hpiece
  obtain ⟨front, hfront⟩ := h
  have hlength := congrArg List.length hfront
  rw [String.length_toList] at hlength
  simp only [List.length_append] at hlength
  refine ⟨(front ++ before).length, (front ++ before ++ piece.toList).length, ?_, ?_, ?_, ?_⟩
  · simp only [positionIn, List.length_append]
    omega
  · simp only [List.length_append]
    omega
  · simp only [positionIn, List.length_append]
    omega
  · have htext : text.toList = front ++ before ++ piece.toList ++ (behind ++ rest') := by
      rw [← hfront]
      simp only [List.append_assoc]
    rw [slice, htext, List.take_left, List.drop_left, String.ofList_toList]

end

/-- In any text and after any calls the scanner stands at a place of the text, what is left are the characters from
there on, and the byte offset of the place says the same. The next call does not move back; it moves on where it reads
something; the pieces that it gives are slices of what it passes, and a fault points at what it leaves. A scan comes to
the end of the text, or to its fault, after no more segments than the text has characters. -/
theorem calls_invariant (text : String) (calls : List Call) :
    let rest := leftAfter calls text.toList
    let position := positionIn text rest
    (position ≤ text.length ∧ rest = text.toList.drop position ∧
      ∃ offset, (byteOffsets text)[position]? = some offset ∧
        text.toByteArray.extract offset text.utf8ByteSize = (String.ofList rest).toByteArray) ∧
    (∀ call : Call,
      let answer := (call.run rest).1
      let next := positionIn text (call.run rest).2
      position ≤ next ∧ next ≤ text.length ∧ (answer.Yields → position < next) ∧
        (∀ piece ∈ answer.pieces, ∃ i j, position ≤ i ∧ i ≤ j ∧ j ≤ next ∧ piece = slice text i j) ∧
        ∀ e place, answer.fault? = some e → e.place? = some place → place.toList = text.toList.drop next) ∧
    ∃ ss : List Segment, ss.length ≤ text.length ∧
      (∀ i s, ss[i]? = some s →
        (segment (leftAfter (List.replicate i .segment) text.toList)).result = .ok (some s)) ∧
      let last := (segment (leftAfter (List.replicate ss.length .segment) text.toList)).result
      (last = .ok none ∧ scan text = .ok ss ∨ ∃ e, last = .error e ∧ scan text = .error e) := by
  intro rest position
  have hrest : rest <:+ text.toList := leftAfter_suffix calls text.toList
  have hle : position ≤ text.length := Nat.sub_le _ _
  refine ⟨⟨hle, (drop_positionIn hrest).symm, ?_⟩, fun call => ?_, (yielded text.toList).1, ?_⟩
  · have hoffset := exists_byteOffset hle
    rwa [drop_positionIn hrest] at hoffset
  · intro answer next
    have hpasses := call.run_passes rest
    have hnext : (call.run rest).2 <:+ text.toList := hpasses.suffix.trans hrest
    have hlength := hpasses.suffix.length_le
    have hbound := hrest.length_le
    rw [String.length_toList] at hbound
    refine ⟨Nat.sub_le_sub_left hlength _, Nat.sub_le _ _, fun hyields => ?_, fun piece hpiece => ?_,
      fun e place hfault hplace => ?_⟩
    · have hlt := call.length_run_lt rest hyields
      exact Nat.sub_lt_sub_left (Nat.lt_of_lt_of_le hlt hbound) hlt
    · exact hpasses.exists_slice hrest hpiece
    · rw [drop_positionIn hnext]
      exact (call.run_points rest hfault place hplace).1
  · obtain ⟨hcount, hsegments, hlast⟩ := segment_leftAfter text.toList
    refine ⟨by rwa [String.length_toList] at hcount, hsegments, ?_⟩
    rw [scan, segments_eq_yielded, hlast]
    obtain ⟨ss, stop?⟩ := yielded text.toList
    cases stop? with
    | none => exact .inl ⟨rfl, rfl⟩
    | some e => exact .inr ⟨e, rfl, rfl⟩

/-- The scanner stays in front of a group that does not close, and stands some bytes further than characters there. -/
theorem calls_invariant_umlaut :
    let text := "Zoë is 'é'  or (ö"
    let calls := [Call.clause, .segment, .hasMore]
    let rest := leftAfter calls text.toList
    rest = "(ö".toList ∧ positionIn text rest = 15 ∧
      text.toByteArray.extract 17 text.utf8ByteSize = (String.ofList rest).toByteArray ∧
      (Call.segment.run rest).2 = rest ∧ ¬ (Call.segment.run rest).1.Yields := by
  intro text calls rest
  have hrest : rest = "(ö".toList := by decide +kernel
  have hposition : positionIn text rest = 15 := by
    rw [hrest]
    decide +kernel
  have htable : (byteOffsets text)[15]? = some 17 := by decide +kernel
  have hstays : (Call.segment.run rest).2 = rest := by
    rw [hrest]
    decide +kernel
  obtain ⟨⟨-, -, offset, hoffset, hbytes⟩, hcalls, -⟩ := calls_invariant text calls
  replace hoffset : (byteOffsets text)[positionIn text rest]? = some offset := hoffset
  rw [hposition, htable] at hoffset
  obtain rfl := Option.some.inj hoffset
  refine ⟨hrest, hposition, hbytes, hstays, fun hyields => ?_⟩
  have hlt : positionIn text rest < positionIn text (Call.segment.run rest).2 := (hcalls .segment).2.2.1 hyields
  rw [hstays] at hlt
  exact Nat.lt_irrefl _ hlt

end Filter

end RecordQuery
