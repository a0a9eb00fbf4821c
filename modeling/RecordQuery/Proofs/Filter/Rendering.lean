import RecordQuery.Proofs.Filter.Spelling
import RecordQuery.Proofs.Result

/-!
Writing segments out. Keywords, fields, operators and operands are tokens, and a text in which blanks part the
tokens is scanned back to the segments that it was written from. Literals and items stand between quotes, so they
may hold blanks, quotes and parentheses of their own.
-/
namespace RecordQuery.Filter

open Text (isBlank skipBlank trim)

/-! ## What can be written -/

/-- A quantifier takes a nested query, `in` an array, and any other word one literal. -/
def Operand.Fits (operator : String) : Operand → Prop
  | .nested _ => ∃ q, Operator.ofWord? operator = some (.quantify q)
  | .array _ => Operator.ofWord? operator = some .member
  | .literal _ => Operator.ofWord? operator ≠ some .member ∧ ∀ q, Operator.ofWord? operator ≠ some (.quantify q)

def Operand.Writable : Operand → Prop
  | .nested query => GroupSafe query
  | .array items => ∀ item ∈ items, ',' ∉ item.toList ∧ ']' ∉ item.toList
  | .literal text => QuoteSafe text

structure Clause.Writable (c : Clause) : Prop where
  field : IsWord [] c.field.toList
  opening : c.field.toList.head? ≠ some '(' ∧ c.field.toList.head? ≠ some ')'
  keyword : ∀ k : Connective, c.field ≠ k.word ∧ ¬ k.word.toList ++ ['('] <+: c.field.toList
  operator : IsWord ['(', '['] c.operator.toList
  fits : c.operand.Fits c.operator
  operand : c.operand.Writable

def Term.Writable : Term → Prop
  | .group inner => GroupSafe inner
  | .clause c => c.Writable

structure Segment.Writable (s : Segment) : Prop where
  window : s.window.first = none → s.window.second = none
  term : s.term.Writable

/-! ## How it is written -/

/-- An item stands between quotes, perhaps with blanks around them. -/
inductive WritesItem : String → List Char → Prop
  | mk {item : String} {l r : List Char} : Blanks l → Blanks r → WritesItem item (l ++ (quote item ++ r))

inductive WritesOperand : Operand → List Char → Prop
  | nested {query : String} : WritesOperand (.nested query) ('(' :: (query.toList ++ [')']))
  | array {items : List String} {pieces : List (List Char)} : List.Forall₂ WritesItem items pieces →
      WritesOperand (.array items) ('[' :: ([','].intercalate pieces ++ [']']))
  | literal {text : String} : WritesOperand (.literal text) (quote text)

/-- The tokens of a term. -/
inductive WritesTerm : Term → List (List Char) → Prop
  | group {inner : String} : WritesTerm (.group inner) ['(' :: (inner.toList ++ [')'])]
  | clause {field operator : String} {o : Operand} {span : List Char} : WritesOperand o span →
      WritesTerm (.clause ⟨field, operator, o⟩) [field.toList, operator.toList, span]

def Window.tokens (w : Window) : List (List Char) :=
  w.connectives.map fun k => k.word.toList

/-- The tokens of a row of segments. -/
inductive WritesSegments : List Segment → List (List Char) → Prop
  | nil : WritesSegments [] []
  | cons {s : Segment} {ss : List Segment} {tokens rest : List (List Char)} : WritesTerm s.term tokens →
      WritesSegments ss rest → WritesSegments (s :: ss) (s.window.tokens ++ (tokens ++ rest))

/-- The tokens one after another, with a run of blanks between any two and perhaps blanks around them. -/
inductive Spaced : List (List Char) → List Char → Prop
  | nil {b : List Char} : Blanks b → Spaced [] b
  | cons {b token rest : List Char} {tokens : List (List Char)} : Blanks b → EndsToken rest →
      Spaced tokens rest → Spaced (token :: tokens) (b ++ (token ++ rest))

/-- The text writes the segments, in some tokens and with some blanks. -/
def Writes (ss : List Segment) (text : String) : Prop :=
  ∃ tokens, WritesSegments ss tokens ∧ Spaced tokens text.toList

/-! ## Operands -/

theorem quoted?_quote {cs rest : List Char} (h : KeepsOpen cs) (hr : closesQuote rest = true) :
    quoted? (cs ++ '\'' :: rest) = some (cs, rest) := by
  induction cs with
  | nil => simp [quoted?, hr]
  | cons c cs ih =>
    have hopen : ¬ (c = '\'' && closesQuote (cs ++ '\'' :: rest)) = true := by
      by_cases hc : c = '\''
      · subst hc
        simp [h.closesQuote_eq rest]
      · simp [hc]
    rw [List.cons_append, quoted?, if_neg hopen, ih h.tail]
    rfl

theorem literal_quote (field operator : String) {text : String} (h : QuoteSafe text) {b rest : List Char}
    (hb : Blanks b) (hr : EndsToken rest) : literal field operator (b ++ (quote text ++ rest)) = .ok text rest := by
  have hs : skipBlank (b ++ (quote text ++ rest)) = '\'' :: (text.toList ++ '\'' :: rest) := by
    rw [quote, List.cons_append, List.append_assoc]
    exact skipBlank_append_cons hb isBlank_quote _
  simp only [literal, hs, quoted?_quote h hr.closesQuote, String.ofList_toList]

theorem WritesItem.spells {item : String} {piece : List Char} (h : WritesItem item piece) :
    SpellsItem item piece := by
  obtain ⟨hl, hr⟩ := h
  have hs := SpellsItem.quoted (w := item.toList) hl hr
  rwa [String.ofList_toList] at hs

theorem mem_intercalate {sep : List Char} {pieces : List (List Char)} {c : Char}
    (h : c ∈ sep.intercalate pieces) : c ∈ sep ∨ ∃ piece ∈ pieces, c ∈ piece := by
  induction pieces with
  | nil => simp at h
  | cons first others ih =>
    cases others with
    | nil => exact Or.inr ⟨first, by simp, by simpa using h⟩
    | cons second others =>
      rw [List.intercalate_cons_cons, List.mem_append, List.mem_append] at h
      rcases h with (h | h) | h
      · exact Or.inr ⟨first, by simp, h⟩
      · exact Or.inl h
      · rcases ih h with h | ⟨piece, hp, hc⟩
        · exact Or.inl h
        · exact Or.inr ⟨piece, List.mem_cons_of_mem _ hp, hc⟩

theorem mem_intercalate_cons (sep : List Char) {first : List Char} (others : List (List Char)) {c : Char}
    (h : c ∈ first) : c ∈ sep.intercalate (first :: others) := by
  cases others with
  | nil => simpa using h
  | cons second others =>
    rw [List.intercalate_cons_cons, List.append_assoc]
    exact List.mem_append_left _ h

/-- A written item holds the characters of the item, quotes and blanks. -/
theorem WritesItem.mem {item : String} {piece : List Char} (h : WritesItem item piece) {c : Char}
    (hc : c ∈ piece) : c ∈ item.toList ∨ c = '\'' ∨ isBlank c = true := by
  obtain ⟨hl, hr⟩ := h
  simp only [quote, List.mem_append, List.mem_cons, List.not_mem_nil, or_false] at hc
  rcases hc with hc | (hc | hc | hc) | hc
  · exact Or.inr (Or.inr (hl c hc))
  · exact Or.inr (Or.inl hc)
  · exact Or.inl hc
  · exact Or.inr (Or.inl hc)
  · exact Or.inr (Or.inr (hr c hc))

theorem WritesItem.not_mem {item : String} {piece : List Char} (h : WritesItem item piece) {c : Char}
    (hc : c ∉ item.toList) (hquote : c ≠ '\'') (hblank : isBlank c = false) : c ∉ piece := by
  intro hm
  rcases h.mem hm with hm | hm | hm
  · exact hc hm
  · exact hquote hm
  · rw [hblank] at hm
    cases hm

/-- An array is read back from its written items. -/
theorem array_writes {items : List String} {pieces : List (List Char)} (hw : (Operand.array items).Writable)
    (h : List.Forall₂ WritesItem items pieces) {b : List Char} (hb : Blanks b) (rest : List Char) :
    array (b ++ ('[' :: ([','].intercalate pieces ++ [']']) ++ rest)) = .ok items rest := by
  have hfree : ∀ c, c = ',' ∨ c = ']' → ∀ piece ∈ pieces, c ∉ piece := by
    intro c hc piece hp
    obtain ⟨item, hi, hwrites⟩ := exists_of_forall₂ h hp
    rcases hc with rfl | rfl
    · exact hwrites.not_mem (hw item hi).1 (by decide) (by decide)
    · exact hwrites.not_mem (hw item hi).2 (by decide) (by decide)
  have hbracket : ']' ∉ [','].intercalate pieces := by
    intro hm
    rcases mem_intercalate hm with hm | ⟨piece, hp, hm⟩
    · cases List.mem_singleton.mp hm
    · exact hfree ']' (Or.inr rfl) piece hp hm
  have hitems : SpellsArray items ([','].intercalate pieces) := by
    cases h with
    | nil => exact .blank Blanks.nil
    | @cons item piece items pieces hi hrest =>
      refine .items ?_ (hfree ',' (Or.inl rfl)) (.cons hi.spells (hrest.imp fun _ _ => WritesItem.spells))
      obtain ⟨hl, hr⟩ := hi
      intro hblanks
      have hblank := hblanks '\'' (mem_intercalate_cons _ _ (by simp [quote]))
      rw [isBlank_quote] at hblank
      cases hblank
  rw [array_content hb hbracket, hitems.arrayItems_eq]

/-- An operand is read back as the operator reads it. -/
theorem operand_writes {field operator : String} {o : Operand} {span : List Char} (hf : o.Fits operator)
    (ho : o.Writable) (hw : WritesOperand o span) {b rest : List Char} (hb : Blanks b) (hr : EndsToken rest) :
    operand field operator (b ++ (span ++ rest)) = .ok o rest := by
  cases hw with
  | nested =>
    obtain ⟨q, hq⟩ := hf
    have hg := GroupSafe.group_append ho hb rest
    simp only [operand, hq, childQuery, hg]
    rfl
  | array h =>
    have ha := array_writes ho h hb rest
    rw [operand, hf, ha]
    rfl
  | literal =>
    obtain ⟨hmember, hquantify⟩ := hf
    have hl := literal_quote field operator ho hb hr
    unfold operand
    split
    · rename_i q hq
      exact absurd hq (hquantify q)
    · rename_i hm
      exact absurd hm hmember
    · rw [hl]
      rfl

/-! ## Terms and segments -/

theorem Spaced.uncons {token : List Char} {tokens : List (List Char)} {cs : List Char}
    (h : Spaced (token :: tokens) cs) :
    ∃ b rest, cs = b ++ (token ++ rest) ∧ Blanks b ∧ EndsToken rest ∧ Spaced tokens rest := by
  cases h with
  | cons hb hr ht => exact ⟨_, _, rfl, hb, hr, ht⟩

theorem Spaced.single (token : List Char) : Spaced [token] token := by
  have h : Spaced [token] ([] ++ (token ++ [])) := .cons Blanks.nil (by simp [EndsToken]) (.nil Blanks.nil)
  simpa using h

theorem Spaced.blanks_append {tokens : List (List Char)} {b cs : List Char} (hb : Blanks b)
    (h : Spaced tokens cs) : Spaced tokens (b ++ cs) := by
  cases h with
  | nil hb' => exact .nil (hb.append hb')
  | cons hb' hr ht =>
    rw [← List.append_assoc]
    exact .cons (hb.append hb') hr ht

/-- Two runs of tokens with blanks between them are one. -/
theorem Spaced.append {a b : List (List Char)} {x gap y : List Char} (ha : Spaced a x) (hgap : Blanks gap)
    (hne : gap ≠ []) (hb : Spaced b y) : Spaced (a ++ b) (x ++ (gap ++ y)) := by
  induction ha with
  | nil hblanks => exact .blanks_append hblanks (.blanks_append hgap hb)
  | @cons l token rest tokens hl hr _ ih =>
    have hend : EndsToken (rest ++ (gap ++ y)) := by
      cases rest with
      | nil => exact hgap.endsToken_append hne y
      | cons c rest =>
        intro d hd
        exact hr d (by simpa using hd)
    have h : Spaced (token :: (tokens ++ b)) (l ++ (token ++ (rest ++ (gap ++ y)))) := .cons hl hend ih
    simpa using h

theorem Spaced.space {a b : List (List Char)} {x y : List Char} (ha : Spaced a x) (hb : Spaced b y) :
    Spaced (a ++ b) (x ++ ' ' :: y) := ha.append Blanks.space (List.cons_ne_nil _ _) hb

/-- A token that starts with no blank is what is left without the blanks. -/
theorem skipBlank_token {b token : List Char} (hb : Blanks b) (hne : token ≠ [])
    (h : ∀ c ∈ token.head?, isBlank c = false) (rest : List Char) :
    skipBlank (b ++ (token ++ rest)) = token ++ rest := by
  obtain ⟨c, t, rfl⟩ := List.exists_cons_of_ne_nil hne
  exact skipBlank_append_cons hb (h c (by simp)) _

/-- What the scanner finds where a term is written: no keyword, no closing parenthesis, and the term. -/
structure ReadsTerm (t : Term) (tokens : List (List Char)) (cs : List Char) : Prop where
  nonempty : cs ≠ []
  opening : cs.head? ≠ some ')'
  keyword : ¬ StartsKeyword cs
  term : ∃ rest, term cs = .ok t rest ∧ Spaced tokens rest

theorem group_readsTerm {inner : String} (hw : GroupSafe inner) {tokens : List (List Char)} {rest : List Char}
    (hs : Spaced tokens rest) : ReadsTerm (.group inner) tokens ('(' :: (inner.toList ++ [')']) ++ rest) := by
  have hg := hw.group_append Blanks.nil rest
  rw [List.nil_append] at hg
  refine ⟨by simp, by simp, ?_, rest, ?_, hs⟩
  · intro h
    obtain ⟨k, r, heq, -⟩ := h
    cases k <;> simp [Connective.word] at heq
  · simp only [term, hg]
    rfl

/-- A field that is no keyword starts with none, whatever follows it. -/
theorem Clause.Writable.not_startsKeyword {c : Clause} (hw : c.Writable) {rest : List Char}
    (hr : EndsToken rest) : ¬ StartsKeyword (c.field.toList ++ rest) := by
  intro h
  obtain ⟨k, r, heq, hend⟩ := h
  obtain ⟨hword, hparen⟩ := hw.keyword k
  rcases List.append_eq_append_iff.mp heq with ⟨t, hk, hrt⟩ | ⟨t, hf, hrt⟩
  · cases t with
    | nil => exact hword (String.toList_inj.mp (by simpa using hk.symm))
    | cons d t =>
      have hd := hr d (by simp [hrt])
      rw [k.isBlank_word d (by simp [hk])] at hd
      cases hd
  · cases t with
    | nil => exact hword (String.toList_inj.mp (by simpa using hf))
    | cons d t =>
      have hd := (hw.field.2 d (by simp [hf])).1
      have hend : isBlank d = true ∨ d = '(' := by simpa [hrt, endsKeyword] using hend
      rcases hend with hd' | rfl
      · rw [hd] at hd'
        cases hd'
      · exact hparen ⟨t, by simp [hf]⟩

theorem clause_readsTerm {c : Clause} (hw : c.Writable) {span cs : List Char} {tokens : List (List Char)}
    (ho : WritesOperand c.operand span)
    (hs : Spaced ([c.field.toList, c.operator.toList, span] ++ tokens) cs) :
    ReadsTerm (.clause c) tokens (skipBlank cs) := by
  obtain ⟨b₁, rest₁, hcs₁, hb₁, hr₁, hs⟩ := hs.uncons
  obtain ⟨b₂, rest₂, hcs₂, hb₂, hr₂, hs⟩ := hs.uncons
  obtain ⟨b₃, rest₃, hcs₃, hb₃, hr₃, hs⟩ := hs.uncons
  have hfield : skipBlank cs = c.field.toList ++ rest₁ := by
    rw [hcs₁, skipBlank_token hb₁ hw.field.1]
    exact fun d hd => (hw.field.2 d (List.mem_of_mem_head? hd)).1
  have hoperator : skipBlank rest₁ = c.operator.toList ++ rest₂ := by
    rw [hcs₂, skipBlank_token hb₂ hw.operator.1]
    exact fun d hd => (hw.operator.2 d (List.mem_of_mem_head? hd)).1
  have hhead : (skipBlank cs).head? = c.field.toList.head? := by
    rw [hfield, List.head?_append_of_ne_nil _ hw.field.1]
  have hc : clause (skipBlank (skipBlank cs)) = .ok c rest₃ := by
    refine clause_eq_ok_iff.mpr ⟨rest₁, rest₂, ?_, ?_, hw.operator.1, ?_⟩
    · rw [skipBlank_skipBlank, skipBlank_skipBlank, hfield]
      exact word_append_of hw.field.2 fun d hd => Or.inl (hr₁ d hd)
    · rw [hoperator]
      exact word_append_of hw.operator.2 fun d hd => Or.inl (hr₂ d hd)
    · rw [hcs₃]
      exact operand_writes hw.fits hw.operand ho hb₃ hr₃
  constructor
  · rw [hfield]
    simp [hw.field.1]
  · rw [hhead]
    exact hw.opening.2
  · rw [hfield]
    exact hw.not_startsKeyword hr₁
  · refine ⟨rest₃, ?_, hs⟩
    rw [term_eq_clause, hc]
    · rfl
    · rw [skipBlank_skipBlank, hhead]
      exact hw.opening.1

theorem term_readsTerm {t : Term} (hw : t.Writable) {own tokens : List (List Char)} (ht : WritesTerm t own)
    {cs : List Char} (hs : Spaced (own ++ tokens) cs) : ReadsTerm t tokens (skipBlank cs) := by
  cases ht with
  | group =>
    obtain ⟨b, rest, rfl, hb, -, hs⟩ := hs.uncons
    rw [skipBlank_token hb (by simp) (by simp)]
    exact group_readsTerm hw hs
  | clause ho => exact clause_readsTerm hw ho hs

theorem connective_writes {k : Connective} {tokens : List (List Char)} {cs : List Char}
    (hs : Spaced (k.word.toList :: tokens) cs) :
    ∃ rest, connective cs = (some k, rest) ∧ skipBlank cs ≠ [] ∧ Spaced tokens rest := by
  obtain ⟨b, rest, rfl, hb, hr, hs⟩ := hs.uncons
  have hc := connective_keyword hb k hr.endsKeyword
  rw [List.append_assoc] at hc
  refine ⟨rest, hc, ?_, hs⟩
  rw [(connective_eq_some hc).1]
  cases k <;> simp [Connective.word]

theorem ReadsTerm.segment_eq {t : Term} {tokens : List (List Char)} {cs cs₁ cs₂ : List Char}
    {first second : Option Connective} (h : ReadsTerm t tokens (skipBlank cs₂)) (hne : skipBlank cs ≠ [])
    (h₁ : connective cs = (first, cs₁)) (h₂ : connective cs₁ = (second, cs₂)) :
    ∃ rest, segment cs = .ok (some ⟨⟨first, second⟩, t⟩) rest ∧ Spaced tokens rest := by
  obtain ⟨hcs₂, hopen, -, rest, ht, hs⟩ := h
  exact ⟨rest, segment_eq_some_iff.mpr ⟨cs₁, cs₂, hne, h₁, h₂, hcs₂, hopen, ht⟩, hs⟩

/-- The keywords of a window are read, as many as there are, and then the term behind them. -/
theorem segment_writes {s : Segment} (hw : s.Writable) {own tokens : List (List Char)}
    (ht : WritesTerm s.term own) {cs : List Char} (hs : Spaced (s.window.tokens ++ (own ++ tokens)) cs) :
    ∃ rest, segment cs = .ok (some s) rest ∧ Spaced tokens rest := by
  obtain ⟨⟨first, second⟩, t⟩ := s
  cases first with
  | none =>
    obtain rfl : second = none := hw.window rfl
    have hread := term_readsTerm hw.term ht hs
    have hc := connective_of_not_startsKeyword hread.keyword
    refine ReadsTerm.segment_eq ?_ hread.nonempty hc ((connective_skipBlank cs).trans hc)
    rwa [skipBlank_skipBlank]
  | some k =>
    obtain ⟨cs₁, h₁, hne, hs⟩ := connective_writes hs
    cases second with
    | none =>
      have hread := term_readsTerm hw.term ht hs
      have hc := connective_of_not_startsKeyword hread.keyword
      refine ReadsTerm.segment_eq ?_ hne h₁ hc
      rwa [skipBlank_skipBlank]
    | some k' =>
      obtain ⟨cs₂, h₂, -, hs⟩ := connective_writes hs
      exact (term_readsTerm hw.term ht hs).segment_eq hne h₁ h₂

/-! ## Texts -/

theorem segments_writes {ss : List Segment} (hw : ∀ s ∈ ss, s.Writable) {tokens : List (List Char)}
    (ht : WritesSegments ss tokens) {cs : List Char} (hs : Spaced tokens cs) : segments cs = .ok ss := by
  induction ht generalizing cs with
  | nil =>
    cases hs with
    | nil hb =>
      have hseg := segment_eq_none_iff.mpr ⟨hb, rfl⟩
      rw [segments_eq, hseg]
      rfl
  | cons ht _ ih =>
    obtain ⟨rest, hseg, hs⟩ := segment_writes (hw _ List.mem_cons_self) ht hs
    have hrest := ih (fun s hm => hw s (List.mem_cons_of_mem _ hm)) hs
    rw [segments_eq, hseg]
    simp only [Scanned.ok, hrest]
    rfl

/-- A term that is written alone is scanned as the only one, with no words in front of it. -/
theorem scan_term {t : Term} (hw : t.Writable) {tokens : List (List Char)} (ht : WritesTerm t tokens) {text : String}
    (hs : Spaced tokens text.toList) : scan text = .ok [⟨⟨none, none⟩, t⟩] := by
  have hwritable : ∀ s ∈ [Segment.mk ⟨none, none⟩ t], s.Writable := by
    intro s hmem
    obtain rfl := List.mem_singleton.mp hmem
    exact ⟨fun _ => rfl, hw⟩
  refine segments_writes hwritable (.cons ht .nil) ?_
  simpa [Window.tokens, Window.connectives] using hs

/-- Writing segments out and scanning the text gives the same segments: literals and items come back with their
blanks, quotes and parentheses, and no part of one is taken for anything else. -/
theorem scan_writes {ss : List Segment} {text : String} (hw : ∀ s ∈ ss, s.Writable) (h : Writes ss text) :
    scan text = .ok ss := by
  obtain ⟨tokens, ht, hs⟩ := h
  exact segments_writes hw ht hs

/-- The literal holds a quote and an open parenthesis, and the group a literal that looks like its end. -/
theorem scan_writes_quoted : scan "not A equals 'it's (here'\n\tand not (B in [' x)','y'])" =
    .ok [⟨⟨some .not, none⟩, .clause ⟨"A", "equals", .literal "it's (here"⟩⟩,
      ⟨⟨some .and, some .not⟩, .group "B in [' x)','y']"⟩] := by
  have hfits : (Operand.literal "it's (here").Fits "equals" := by
    refine ⟨by decide, ?_⟩
    intro q
    cases q <;> decide
  have hwritable : (Clause.mk "A" "equals" (.literal "it's (here")).Writable := by
    refine ⟨by decide +kernel, by decide +kernel, ?_, by decide +kernel, hfits, ?_⟩
    · intro k
      cases k <;> decide +kernel
    · exact (by decide +kernel : QuoteSafe "it's (here")
  have hgroup : GroupSafe "B in [' x)','y']" := by decide +kernel
  have htail : Spaced ["and".toList, "not".toList, '(' :: ("B in [' x)','y']".toList ++ [')'])] _ :=
    (Spaced.single _).space ((Spaced.single _).space (Spaced.single _))
  have hclause : Spaced ["not".toList, "A".toList, "equals".toList, quote "it's (here"] _ :=
    (Spaced.single _).space ((Spaced.single _).space ((Spaced.single _).space (Spaced.single _)))
  have hgap : Blanks ['\n', '\t'] := by decide
  have hspaced := hclause.append hgap (List.cons_ne_nil _ _) htail
  apply scan_writes
  · simp only [List.forall_mem_cons]
    exact ⟨⟨by simp, hwritable⟩, ⟨by simp, hgroup⟩, by simp⟩
  · refine ⟨_, .cons (.clause .literal) (.cons .group .nil), ?_⟩
    convert hspaced using 1 <;> decide +kernel

end RecordQuery.Filter
