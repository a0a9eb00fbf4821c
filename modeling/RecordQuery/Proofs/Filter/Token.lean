import RecordQuery.Filter.Scan
import RecordQuery.Proofs.Result
import Mathlib.Data.List.TakeWhile

/-!
What stands between blanks. A word ends in front of a blank or of a character that it cannot hold; a keyword needs
an end of its own, so that a field may start with one. Each function that reads a piece of the text is turned
around here: from what it gives back to what stood there.
-/
namespace RecordQuery.Filter

open Text (isBlank skipBlank)

/-! ## Blanks -/

/-- A run of blanks, perhaps an empty one. -/
def Blanks (cs : List Char) : Prop := ∀ c ∈ cs, isBlank c = true

/-- Nothing follows, or a blank does: a token in front of this text is at its end. -/
def EndsToken (cs : List Char) : Prop := ∀ c ∈ cs.head?, isBlank c = true

instance (cs : List Char) : Decidable (Blanks cs) := List.decidableBAll (fun c => isBlank c = true) cs

instance (cs : List Char) : Decidable (EndsToken cs) := Option.decidableForallMem cs.head?

@[simp] theorem isBlank_space : isBlank ' ' = true := by decide

@[simp] theorem isBlank_quote : isBlank '\'' = false := by decide

@[simp] theorem isBlank_opening : isBlank '(' = false := by decide

@[simp] theorem isBlank_closing : isBlank ')' = false := by decide

@[simp] theorem isBlank_bracket : isBlank '[' = false := by decide

theorem Blanks.nil : Blanks [] := fun _ h => absurd h List.not_mem_nil

theorem Blanks.space : Blanks [' '] := by
  intro c h
  obtain rfl := List.mem_singleton.mp h
  exact isBlank_space

theorem Blanks.append {a b : List Char} (ha : Blanks a) (hb : Blanks b) : Blanks (a ++ b) := by
  intro c h
  rcases List.mem_append.mp h with h | h
  · exact ha c h
  · exact hb c h

/-- A run of blanks that is not empty ends a token, whatever follows the run. -/
theorem Blanks.endsToken_append {b : List Char} (hb : Blanks b) (hne : b ≠ []) (cs : List Char) :
    EndsToken (b ++ cs) := by
  intro c hc
  cases b with
  | nil => exact absurd rfl hne
  | cons d b =>
    simp only [List.cons_append, List.head?_cons, Option.mem_some_iff] at hc
    exact hb c (by simp [hc])

theorem EndsToken.endsKeyword {cs : List Char} (h : EndsToken cs) : endsKeyword cs = true := by
  cases cs with
  | nil => rfl
  | cons c cs => simp [Filter.endsKeyword, h c (by simp)]

theorem EndsToken.closesQuote {cs : List Char} (h : EndsToken cs) : closesQuote cs = true := by
  cases cs with
  | nil => rfl
  | cons c cs => simp [Filter.closesQuote, h c (by simp)]

theorem skipBlank_append {b : List Char} (hb : Blanks b) (cs : List Char) :
    skipBlank (b ++ cs) = skipBlank cs := List.dropWhile_append_of_pos hb

theorem skipBlank_eq_self {cs : List Char} (h : ∀ c ∈ cs.head?, isBlank c = false) :
    skipBlank cs = cs := by
  cases cs with
  | nil => rfl
  | cons c cs => exact List.dropWhile_cons_of_neg (by simp [h c (by simp)])

theorem skipBlank_append_cons {b : List Char} (hb : Blanks b) {c : Char} (hc : isBlank c = false)
    (cs : List Char) : skipBlank (b ++ c :: cs) = c :: cs := by
  rw [skipBlank_append hb]
  exact skipBlank_eq_self (by simpa using hc)

theorem skipBlank_eq_nil {cs : List Char} : skipBlank cs = [] ↔ Blanks cs :=
  List.dropWhile_eq_nil_iff

/-- The first character that is left is no blank. -/
theorem isBlank_head?_skipBlank (cs : List Char) : ∀ c ∈ (skipBlank cs).head?, isBlank c = false := by
  intro c hc
  obtain ⟨rest, h⟩ := List.head?_eq_some_iff.mp hc
  exact Text.isBlank_of_skipBlank_eq_cons h

theorem skipBlank_skipBlank (cs : List Char) : skipBlank (skipBlank cs) = skipBlank cs :=
  skipBlank_eq_self (isBlank_head?_skipBlank cs)

/-- A text is the blanks at its front and what is left without them. -/
theorem exists_blanks (cs : List Char) : ∃ b, Blanks b ∧ cs = b ++ skipBlank cs :=
  ⟨cs.takeWhile isBlank, fun _ h => List.mem_takeWhile_imp h, List.takeWhile_append_dropWhile.symm⟩

/-! ## Words -/

/-- A word: no character of it is blank or among those that end it. -/
def IsWord (stops w : List Char) : Prop := w ≠ [] ∧ ∀ c ∈ w, isBlank c = false ∧ c ∉ stops

instance (stops w : List Char) : Decidable (IsWord stops w) :=
  @instDecidableAnd _ _ _ (List.decidableBAll (fun c => isBlank c = false ∧ c ∉ stops) w)

theorem IsWord.mono {stops stops' w : List Char} (h : IsWord stops w) (hs : stops' ⊆ stops) : IsWord stops' w := by
  refine ⟨h.1, ?_⟩
  intro c hc
  obtain ⟨hblank, hstop⟩ := h.2 c hc
  exact ⟨hblank, fun hm => hstop (hs hm)⟩

theorem word_chars {stops cs w rest : List Char} (h : word stops cs = (w, rest)) :
    ∀ c ∈ w, isBlank c = false ∧ c ∉ stops := by
  intro c hc
  obtain ⟨rfl, rfl⟩ := Prod.mk.inj h
  simpa using List.mem_takeWhile_imp hc

/-- A word stops in front of a blank or of a character that it cannot hold. -/
theorem word_stop {stops cs w rest : List Char} (h : word stops cs = (w, rest)) :
    ∀ c ∈ rest.head?, isBlank c = true ∨ c ∈ stops := by
  intro c hc
  obtain ⟨rfl, rfl⟩ := Prod.mk.inj h
  obtain ⟨t, ht⟩ := List.head?_eq_some_iff.mp hc
  have hn := List.head?_dropWhile_not (fun c => !(isBlank c || stops.contains c)) cs
  rw [ht] at hn
  simpa [or_iff_not_imp_left] using hn

theorem word_eq_append {stops cs w rest : List Char} (h : word stops cs = (w, rest)) :
    cs = w ++ rest := by
  rw [← word_append stops cs, h]

theorem word_eq_nil {stops cs rest : List Char} (h : word stops cs = ([], rest)) :
    rest = cs ∧ ∀ c ∈ cs.head?, isBlank c = true ∨ c ∈ stops := by
  have hcs := word_eq_append h
  rw [List.nil_append] at hcs
  exact ⟨hcs.symm, hcs ▸ word_stop h⟩

/-- A word is read as a whole if it holds no character that would end it, and what follows does end it. -/
theorem word_append_of {stops w rest : List Char} (hw : ∀ c ∈ w, isBlank c = false ∧ c ∉ stops)
    (hr : ∀ c ∈ rest.head?, isBlank c = true ∨ c ∈ stops) : word stops (w ++ rest) = (w, rest) := by
  have hin : ∀ c ∈ w, (!(isBlank c || stops.contains c)) = true := fun c hc => by simp [hw c hc]
  have hout : ∀ c ∈ rest.head?, (!(isBlank c || stops.contains c)) = false := fun c hc => by
    simpa [or_iff_not_imp_left] using hr c hc
  simp only [word, List.takeWhile_append_of_pos hin, List.dropWhile_append_of_pos hin]
  cases rest with
  | nil => simp
  | cons c rest =>
    have hc := hout c (by simp)
    rw [List.takeWhile_cons_of_neg (by simpa using hc), List.dropWhile_cons_of_neg (by simpa using hc)]
    simp

/-! ## Keywords -/

/-- The text starts with a keyword. -/
def StartsKeyword (cs : List Char) : Prop :=
  ∃ (k : Connective) (rest : List Char), cs = k.word.toList ++ rest ∧ endsKeyword rest = true

theorem Connective.isBlank_word (k : Connective) : ∀ c ∈ k.word.toList, isBlank c = false := by
  cases k <;> simp [Connective.word] <;> decide

/-- No keyword is the beginning of another one. -/
theorem Connective.eq_of_word_prefix {k k' : Connective} {rest : List Char}
    (h : k.word.toList <+: k'.word.toList ++ rest) : k = k' := by
  cases k <;> cases k' <;> first | rfl | simp [Connective.word] at h

theorem keyword?_self (k : Connective) {rest : List Char} (h : endsKeyword rest = true) :
    keyword? k (k.word.toList ++ rest) = some (k, rest) := by
  have hd : (k.word.toList ++ rest).drop k.word.length = rest := by
    rw [← String.length_toList, List.drop_left]
  have hp : k.word.toList.isPrefixOf (k.word.toList ++ rest) = true :=
    List.isPrefixOf_iff_prefix.mpr (List.prefix_append _ _)
  simp [keyword?, hd, hp, h]

theorem keyword?_of_ne {k k' : Connective} (hne : k ≠ k') (rest : List Char) :
    keyword? k (k'.word.toList ++ rest) = none := by
  cases h : keyword? k (k'.word.toList ++ rest) with
  | none => rfl
  | some r =>
    obtain ⟨-, heq, -⟩ := keyword?_eq_some h
    exact absurd (Connective.eq_of_word_prefix ⟨_, heq.symm⟩) hne

/-- A keyword with its end behind it is read, and the blanks before it are passed over. -/
theorem connective_keyword {b : List Char} (hb : Blanks b) (k : Connective) {rest : List Char}
    (h : endsKeyword rest = true) : connective (b ++ k.word.toList ++ rest) = (some k, rest) := by
  have hs : skipBlank (b ++ k.word.toList ++ rest) = k.word.toList ++ rest := by
    rw [List.append_assoc, skipBlank_append hb]
    apply skipBlank_eq_self
    cases k <;> simp [Connective.word] <;> decide
  have hf : Connective.all.findSome? (fun k' => keyword? k' (k.word.toList ++ rest)) = some (k, rest) := by
    cases k <;> simp [Connective.all, List.findSome?, keyword?_self _ h, keyword?_of_ne]
  simp only [connective, hs, hf]

theorem connective_word {b : List Char} (hb : Blanks b) (k : Connective) (cs : List Char) :
    connective (b ++ k.word.toList ++ ' ' :: cs) = (some k, ' ' :: cs) :=
  connective_keyword hb k (by simp [endsKeyword])

theorem connective_of_not_startsKeyword {cs : List Char} (h : ¬ StartsKeyword (skipBlank cs)) :
    connective cs = (none, skipBlank cs) := by
  have hf : Connective.all.findSome? (fun k => keyword? k (skipBlank cs)) = none := by
    rw [List.findSome?_eq_none_iff]
    intro k _
    cases hk : keyword? k (skipBlank cs) with
    | none => rfl
    | some r => exact absurd ⟨k, r.2, (keyword?_eq_some hk).2⟩ h
  simp [connective, hf]

theorem connective_eq_some {cs rest : List Char} {k : Connective}
    (h : connective cs = (some k, rest)) :
    skipBlank cs = k.word.toList ++ rest ∧ endsKeyword rest = true := by
  unfold connective at h
  dsimp only at h
  split at h
  · rename_i k' rest' hf
    obtain ⟨k'', -, hk⟩ := List.exists_of_findSome?_eq_some hf
    cases h
    obtain ⟨rfl, heq, he⟩ := keyword?_eq_some hk
    exact ⟨heq, he⟩
  · cases h

theorem connective_eq_none {cs rest : List Char} (h : connective cs = (none, rest)) :
    rest = skipBlank cs := by
  unfold connective at h
  dsimp only at h
  split at h
  · cases h
  · cases h
    rfl

theorem connective_skipBlank (cs : List Char) : connective (skipBlank cs) = connective cs := by
  simp only [connective, skipBlank_skipBlank]

theorem connective_append {b : List Char} (hb : Blanks b) (cs : List Char) : connective (b ++ cs) = connective cs := by
  simp only [connective, skipBlank_append hb]

theorem connective_parenthesis (cs : List Char) : connective (')' :: cs) = (none, ')' :: cs) := by
  have hs : skipBlank (')' :: cs) = ')' :: cs := skipBlank_append_cons Blanks.nil isBlank_closing cs
  rw [connective_of_not_startsKeyword, hs]
  intro h
  obtain ⟨k, rest, heq, -⟩ := h
  rw [hs] at heq
  cases k <;> simp [Connective.word] at heq

/-! ## Clauses and segments -/

/-- A literal starts with a quote, and goes up to the one that closes it, or else is a word. -/
theorem literal_eq_ok_iff {field operator text : String} {cs rest : List Char} :
    literal field operator cs = .ok text rest ↔ ∃ c r, skipBlank cs = c :: r ∧
      if c = '\'' then quoted? r = some (text.toList, rest) else word [')'] (c :: r) = (text.toList, rest) := by
  constructor
  · intro h
    unfold literal at h
    split at h
    · exact absurd h Scanned.fail_ne_ok
    · rename_i r hr
      split at h
      · rename_i w rest' hq
        obtain ⟨rfl, rfl⟩ := Scanned.ok_inj.mp h
        exact ⟨_, r, hr, by simpa using hq⟩
      · exact absurd h Scanned.fail_ne_ok
    · rename_i hne hquote
      obtain ⟨htext, rfl⟩ := Scanned.ok_inj.mp h
      obtain ⟨c, r, hc⟩ := List.exists_cons_of_ne_nil hne
      have hcq : c ≠ '\'' := by
        rintro rfl
        exact hquote r hc
      refine ⟨c, r, hc, ?_⟩
      rw [if_neg hcq, ← htext, String.toList_ofList, ← hc]
      rfl
  · intro h
    obtain ⟨c, r, hc, h⟩ := h
    by_cases hcq : c = '\''
    · subst hcq
      rw [if_pos rfl] at h
      simp only [literal, hc, h, String.ofList_toList]
    · rw [if_neg hcq] at h
      simp only [literal, hc]
      split
      · rename_i hnil
        cases hnil
      · rename_i r' hr
        exact absurd (List.cons.inj hr).1 hcq
      · rw [h, String.ofList_toList]

theorem clause_eq_ok_iff {cs rest : List Char} {c : Clause} :
    clause cs = .ok c rest ↔ ∃ cs₁ cs₂, word [] (skipBlank cs) = (c.field.toList, cs₁) ∧
      word ['(', '['] (skipBlank cs₁) = (c.operator.toList, cs₂) ∧ c.operator.toList ≠ [] ∧
      operand c.field c.operator cs₂ = .ok c.operand rest := by
  constructor
  · intro h
    simp only [clause] at h
    split at h
    · exact absurd h Scanned.fail_ne_ok
    · rename_i hne
      obtain ⟨o, ho, rfl⟩ := Scanned.map_eq_ok h
      refine ⟨(word [] (skipBlank cs)).2, _, ?_, ?_, ?_, ho⟩
      · rw [String.toList_ofList]
      · rw [String.toList_ofList]
      · simpa [String.toList_ofList] using hne
  · obtain ⟨field, operator, o⟩ := c
    intro h
    obtain ⟨cs₁, cs₂, h₁, h₂, hne, h₃⟩ := h
    simp only [clause, h₁, h₂, String.ofList_toList]
    rw [if_neg (by simpa using hne), h₃]
    rfl

/-- Behind two connectives a term is read, unless the text ends there or a parenthesis closes. -/
theorem segment_eq_map_term {cs cs₁ cs₂ : List Char} {first second : Option Connective} (hne : skipBlank cs ≠ [])
    (h₁ : connective cs = (first, cs₁)) (h₂ : connective cs₁ = (second, cs₂)) (hne₂ : skipBlank cs₂ ≠ [])
    (hp : (skipBlank cs₂).head? ≠ some ')') :
    segment cs = (term (skipBlank cs₂)).map fun t => some ⟨⟨first, second⟩, t⟩ := by
  unfold segment
  split
  · rename_i h0
    exact absurd h0 hne
  · rw [connective_skipBlank]
    simp only [h₁, h₂]
    split
    · rename_i h0
      exact absurd h0 hne₂
    · rename_i r hr
      exact absurd (by simp [hr]) hp
    · rfl

/-- Two connectives and a term make a segment, if there is a term at all and it does not start with `)`. -/
theorem segment_eq_some_iff {cs rest : List Char} {s : Segment} :
    segment cs = .ok (some s) rest ↔ ∃ cs₁ cs₂, skipBlank cs ≠ [] ∧
      connective cs = (s.window.first, cs₁) ∧ connective cs₁ = (s.window.second, cs₂) ∧
      skipBlank cs₂ ≠ [] ∧ (skipBlank cs₂).head? ≠ some ')' ∧
      term (skipBlank cs₂) = .ok s.term rest := by
  constructor
  · intro h
    unfold segment at h
    split at h
    · simp [Scanned.ok] at h
    · rename_i hne
      rw [connective_skipBlank] at h
      dsimp only at h
      split at h
      · exact absurd h Scanned.fail_ne_ok
      · exact absurd h Scanned.fail_ne_ok
      · rename_i hne₂ hp
        obtain ⟨t, ht, heq⟩ := Scanned.map_eq_ok h
        cases heq
        refine ⟨_, _, hne, rfl, rfl, hne₂, ?_, ht⟩
        intro hh
        obtain ⟨t, ht⟩ := List.head?_eq_some_iff.mp hh
        exact hp t ht
  · rintro ⟨cs₁, cs₂, hne, h₁, h₂, hne₂, hp, ht⟩
    rw [segment_eq_map_term hne h₁ h₂ hne₂ hp, ht]
    rfl

/-- Without a first connective there is no second one. -/
theorem segment_window {cs rest : List Char} {s : Segment} (h : segment cs = .ok (some s) rest)
    (hfirst : s.window.first = none) : s.window.second = none := by
  obtain ⟨cs₁, cs₂, -, h₁, h₂, -⟩ := segment_eq_some_iff.mp h
  rw [hfirst] at h₁
  rw [connective_eq_none h₁, connective_skipBlank, h₁] at h₂
  exact (Prod.mk.inj h₂).1.symm

theorem segment_eq_none_iff {cs rest : List Char} :
    segment cs = .ok none rest ↔ Blanks cs ∧ rest = [] := by
  constructor
  · intro h
    unfold segment at h
    split at h
    · rename_i hs
      simp only [Scanned.ok, Scanned.mk.injEq, true_and] at h
      exact ⟨skipBlank_eq_nil.mp hs, h.symm⟩
    · dsimp only at h
      split at h
      · exact absurd h Scanned.fail_ne_ok
      · exact absurd h Scanned.fail_ne_ok
      · obtain ⟨t, -, heq⟩ := Scanned.map_eq_ok h
        cases heq
  · intro h
    obtain ⟨hb, rfl⟩ := h
    simp [segment, skipBlank_eq_nil.mpr hb]

/-- One step over a text: its first segment, and then the others. -/
theorem segments_eq (cs : List Char) :
    segments cs = match segment cs with
      | ⟨.ok none, _⟩ => .ok []
      | ⟨.ok (some s), rest⟩ => (segments rest).map (s :: ·)
      | ⟨.error e, _⟩ => .error e := by
  rw [segments]
  split <;> rename_i h <;> simp [h]

theorem exists_segment_of_segments {cs : List Char} {s : Segment} {ss : List Segment}
    (h : segments cs = .ok (s :: ss)) : ∃ rest, segment cs = .ok (some s) rest ∧ segments rest = .ok ss := by
  rw [segments_eq] at h
  split at h
  · cases h
  · rename_i s' rest hs
    obtain ⟨ss', hrest, heq⟩ := exists_of_map_eq_ok h
    obtain ⟨rfl, rfl⟩ := List.cons.inj heq
    exact ⟨rest, hs, hrest⟩
  · cases h

/-- No text that starts with `)` is read to its end. -/
theorem head?_of_segments {cs : List Char} {ss : List Segment} (h : segments cs = .ok ss) :
    cs.head? ≠ some ')' := by
  intro hc
  obtain ⟨t, rfl⟩ := List.head?_eq_some_iff.mp hc
  have hs : skipBlank (')' :: t) = ')' :: t := skipBlank_append_cons Blanks.nil isBlank_closing t
  have hp := connective_parenthesis t
  rw [segments] at h
  split at h
  · rename_i rest hseg
    have hblank := (segment_eq_none_iff.mp hseg).1 ')' List.mem_cons_self
    rw [isBlank_closing] at hblank
    cases hblank
  · rename_i s rest hseg
    obtain ⟨cs₁, cs₂, -, h₁, h₂, -, hne, -⟩ := segment_eq_some_iff.mp hseg
    obtain rfl : ')' :: t = cs₁ := (Prod.mk.inj (hp.symm.trans h₁)).2
    obtain rfl : ')' :: t = cs₂ := (Prod.mk.inj (hp.symm.trans h₂)).2
    exact hne (by simp [hs])
  · cases h

end RecordQuery.Filter
