import RecordQuery.Proofs.Filter.Group
import RecordQuery.Proofs.Result
import RecordQuery.Proofs.Text
import Mathlib.Data.List.Forall2

/-!
How segments are spelled. A text that is scanned consists of the spans of its segments, one after another, with
nothing but blanks between and around them. The relations below read like a grammar: each takes what was read, the
characters it was read from and, where a keyword or a quote looks ahead, the text that follows them.
-/
namespace RecordQuery.Filter

open Text (isBlank skipBlank trim)

/-- A literal is a word, or stands between quotes of which the second one closes in front of what follows. -/
inductive SpellsLiteral (after : List Char) : String → List Char → Prop
  | word {w : List Char} : IsWord [')'] w → SpellsLiteral after (String.ofList w) w
  | quoted {w : List Char} : closesQuote after = true →
      SpellsLiteral after (String.ofList w) ('\'' :: (w ++ ['\'']))

/-- An item stands between blanks; a pair of quotes around it does not belong to it. -/
inductive SpellsItem : String → List Char → Prop
  | plain {l w r : List Char} : Blanks l → (∀ c ∈ w.head?, isBlank c = false) →
      (∀ c ∈ w.getLast?, isBlank c = false) → (∀ v, w ≠ '\'' :: (v ++ ['\''])) → Blanks r →
      SpellsItem (String.ofList w) (l ++ (w ++ r))
  | quoted {l w r : List Char} : Blanks l → Blanks r →
      SpellsItem (String.ofList w) (l ++ ('\'' :: (w ++ ['\'']) ++ r))

/-- The items of an array stand between commas, and an array without items holds blanks. -/
inductive SpellsArray : List String → List Char → Prop
  | blank {content : List Char} : Blanks content → SpellsArray [] content
  | items {items : List String} {pieces : List (List Char)} : ¬ Blanks ([','].intercalate pieces) →
      (∀ piece ∈ pieces, ',' ∉ piece) → List.Forall₂ SpellsItem items pieces →
      SpellsArray items ([','].intercalate pieces)

inductive SpellsOperand (after : List Char) : Operand → List Char → Prop
  | literal {text : String} {span : List Char} : SpellsLiteral after text span →
      SpellsOperand after (.literal text) span
  | array {items : List String} {content : List Char} : ']' ∉ content → SpellsArray items content →
      SpellsOperand after (.array items) ('[' :: (content ++ [']']))
  | nested {query : String} : SpellsOperand after (.nested query) ('(' :: (query.toList ++ [')']))

inductive SpellsTerm (after : List Char) : Term → List Char → Prop
  | group {inner : String} : SpellsTerm after (.group inner) ('(' :: (inner.toList ++ [')']))
  | clause {field operator : String} {o : Operand} {gap b span : List Char} : IsWord [] field.toList →
      Blanks gap → gap ≠ [] → IsWord ['(', '['] operator.toList → Blanks b → SpellsOperand after o span →
      SpellsTerm after (.clause ⟨field, operator, o⟩) (field.toList ++ (gap ++ (operator.toList ++ (b ++ span))))

/-- Keywords, each with an end of its own, and then a term. -/
inductive SpellsBehind (after : List Char) (t : Term) : List Connective → List Char → Prop
  | term {span : List Char} : SpellsTerm after t span → SpellsBehind after t [] span
  | keyword {k : Connective} {ks : List Connective} {b span : List Char} :
      endsKeyword (b ++ (span ++ after)) = true → Blanks b → SpellsBehind after t ks span →
      SpellsBehind after t (k :: ks) (k.word.toList ++ (b ++ span))

/-- The keywords of the window stand in front of the term, the first one before the second. -/
structure SpellsSegment (after : List Char) (s : Segment) (span : List Char) : Prop where
  behind : SpellsBehind after s.term s.window.connectives span
  window : s.window.first = none → s.window.second = none

/-- The segments of a text with their spans; what lies between the spans is blank. -/
inductive SpellsText : List Segment → List (List Char) → List Char → Prop
  | nil {b : List Char} : Blanks b → SpellsText [] [] b
  | cons {s : Segment} {ss : List Segment} {spans : List (List Char)} {b span rest : List Char} :
      Blanks b → SpellsSegment rest s span → SpellsText ss spans rest →
      SpellsText (s :: ss) (span :: spans) (b ++ (span ++ rest))

/-! ## Operands -/

theorem childQuery_spells {cs rest : List Char} {query : String} (h : childQuery cs = .ok query rest) :
    ∃ b, Blanks b ∧ cs = b ++ ('(' :: (query.toList ++ [')']) ++ rest) := by
  unfold childQuery at h
  split at h
  · rename_i inner rest' hg
    obtain ⟨rfl, rfl⟩ := Scanned.ok_inj.mp h
    obtain ⟨b, hb, hcs⟩ := exists_blanks cs
    exact ⟨b, hb, by rw [hcs, group_eq_some hg]; simp⟩
  · exact absurd h Scanned.fail_ne_ok
  · exact absurd h Scanned.fail_ne_ok

/-- Trimming takes blanks off both ends, and all of them. -/
theorem exists_trim (cs : List Char) : ∃ l r, Blanks l ∧ Blanks r ∧ cs = l ++ (trim cs ++ r) ∧
    (∀ c ∈ (trim cs).head?, isBlank c = false) ∧ (∀ c ∈ (trim cs).getLast?, isBlank c = false) := by
  obtain ⟨l, hl, hcs⟩ := exists_blanks cs
  obtain ⟨r, hr, hrev⟩ := exists_blanks (skipBlank cs).reverse
  have hskip : skipBlank cs = trim cs ++ r.reverse := by
    rw [← List.reverse_reverse (skipBlank cs), hrev, List.reverse_append]
    rfl
  refine ⟨l, r.reverse, hl, fun c hc => hr c (List.mem_reverse.mp hc), by rw [← hskip, ← hcs], ?_, ?_⟩
  · intro c hc
    apply isBlank_head?_skipBlank cs
    rw [Option.mem_def] at hc ⊢
    rw [hskip, List.head?_append, hc, Option.some_or]
  · intro c hc
    rw [trim, List.getLast?_reverse] at hc
    exact isBlank_head?_skipBlank _ c hc

theorem unquote_quoted (w : List Char) : unquote ('\'' :: (w ++ ['\''])) = w := by
  simp [unquote]

theorem unquote_of_not_quoted {w : List Char} (h : ∀ v, w ≠ '\'' :: (v ++ ['\''])) : unquote w = w := by
  unfold unquote
  split
  · rename_i inner
    split
    · rename_i hl
      obtain ⟨v, rfl⟩ := List.getLast?_eq_some_iff.mp hl
      exact absurd rfl (h v)
    · rfl
  · rfl

theorem spellsItem_trim (piece : List Char) : SpellsItem (String.ofList (unquote (trim piece))) piece := by
  obtain ⟨l, r, hl, hr, hp, hhead, hlast⟩ := exists_trim piece
  by_cases hq : ∃ v, trim piece = '\'' :: (v ++ ['\''])
  · obtain ⟨v, hv⟩ := hq
    rw [hv] at hp
    rw [hv, unquote_quoted, hp]
    exact .quoted hl hr
  · rw [not_exists] at hq
    have hs := SpellsItem.plain hl hhead hlast hq hr
    rw [← hp] at hs
    rwa [unquote_of_not_quoted hq]

theorem spellsArray_items (content : List Char) : SpellsArray (arrayItems content) content := by
  unfold arrayItems
  split
  · rename_i he
    obtain ⟨l, r, hl, hr, hc, -, -⟩ := exists_trim content
    rw [List.isEmpty_iff.mp he, List.nil_append] at hc
    exact .blank (hc ▸ hl.append hr)
  · rename_i he
    have hc : [','].intercalate (content.splitOn ',') = content := List.intercalate_splitOn ','
    have hs : SpellsArray ((content.splitOn ',').map fun item => String.ofList (unquote (trim item)))
        ([','].intercalate (content.splitOn ',')) := by
      refine .items ?_ ?_ ?_
      · rw [hc]
        intro hb
        exact he (by simp [trim, skipBlank_eq_nil.mpr hb, skipBlank_eq_nil.mpr Blanks.nil])
      · exact not_mem_of_mem_splitOn ',' content
      · rw [List.forall₂_map_left_iff]
        exact List.forall₂_same.mpr fun piece _ => spellsItem_trim piece
    rwa [hc] at hs

theorem trim_append {l w r : List Char} (hl : Blanks l) (hhead : ∀ c ∈ w.head?, isBlank c = false)
    (hlast : ∀ c ∈ w.getLast?, isBlank c = false) (hr : Blanks r) : trim (l ++ (w ++ r)) = w := by
  have hrev : Blanks r.reverse := fun c hc => hr c (List.mem_reverse.mp hc)
  cases w with
  | nil =>
    have hnil : skipBlank (l ++ ([] ++ r)) = [] := skipBlank_eq_nil.mpr (hl.append (Blanks.nil.append hr))
    rw [trim, hnil]
    rfl
  | cons c w =>
    rw [trim, List.cons_append, skipBlank_append_cons hl (hhead c (by simp)), ← List.cons_append,
      List.reverse_append, skipBlank_append hrev, skipBlank_eq_self (by rwa [List.head?_reverse]),
      List.reverse_reverse]

theorem SpellsItem.unquote_trim {item : String} {piece : List Char} (h : SpellsItem item piece) :
    String.ofList (unquote (trim piece)) = item := by
  cases h with
  | plain hl hhead hlast hq hr => rw [trim_append hl hhead hlast hr, unquote_of_not_quoted hq]
  | @quoted l w r hl hr =>
    have hlast : ∀ c ∈ ('\'' :: (w ++ ['\''])).getLast?, isBlank c = false := by
      rw [← List.cons_append, List.getLast?_concat]
      simp
    rw [trim_append hl (by simp) hlast hr, unquote_quoted]

/-- The items of an array are those that its content spells. -/
theorem SpellsArray.arrayItems_eq {items : List String} {content : List Char} (h : SpellsArray items content) :
    arrayItems content = items := by
  cases h with
  | blank hb => simp [arrayItems, trim, skipBlank_eq_nil.mpr hb, skipBlank_eq_nil.mpr Blanks.nil]
  | @items items pieces hb hfree hitems =>
    have htrim : trim ([','].intercalate pieces) ≠ [] := by
      intro ht
      obtain ⟨l, r, hl, hr, hc, -, -⟩ := exists_trim ([','].intercalate pieces)
      rw [ht, List.nil_append] at hc
      exact hb (hc ▸ hl.append hr)
    have hne : pieces ≠ [] := by
      rintro rfl
      exact hb Blanks.nil
    unfold arrayItems
    rw [if_neg (by simpa using htrim), List.splitOn_intercalate ',' hfree hne]
    clear hb hfree htrim hne
    induction hitems with
    | nil => rfl
    | cons hitem _ ih => rw [List.map_cons, hitem.unquote_trim, ih]

theorem array_spells {cs rest : List Char} {items : List String} (h : array cs = .ok items rest) :
    ∃ b content, Blanks b ∧ cs = b ++ ('[' :: (content ++ [']']) ++ rest) ∧ ']' ∉ content ∧
      SpellsArray items content := by
  obtain ⟨b, hb, hcs⟩ := exists_blanks cs
  unfold array at h
  split at h
  · rename_i r hr
    split at h
    · exact absurd h Scanned.fail_ne_ok
    · rename_i c after hafter
      obtain ⟨rfl, rfl⟩ := Scanned.ok_inj.mp h
      have hc : c = ']' := by
        have hn := List.head?_dropWhile_not (· ≠ ']') r
        rw [hafter] at hn
        simpa using hn
      refine ⟨b, r.takeWhile (· ≠ ']'), hb, ?_, ?_, spellsArray_items _⟩
      · have hr' := List.takeWhile_append_dropWhile (p := (· ≠ ']')) (l := r)
        rw [hafter, hc] at hr'
        rw [hcs, hr]
        nth_rewrite 1 [← hr']
        simp
      · intro hm
        simpa using List.mem_takeWhile_imp hm
  · exact absurd h Scanned.fail_ne_ok

/-- An array ends at its first bracket. -/
theorem array_content {b content : List Char} (hb : Blanks b) (hfree : ']' ∉ content) (rest : List Char) :
    array (b ++ ('[' :: (content ++ [']']) ++ rest)) = .ok (arrayItems content) rest := by
  have hclose : ∀ c ∈ content, decide (c ≠ ']') = true := by
    intro c hc
    apply decide_eq_true
    rintro rfl
    exact hfree hc
  have hs : skipBlank (b ++ ('[' :: (content ++ [']']) ++ rest)) = '[' :: (content ++ ']' :: rest) := by
    rw [List.cons_append, List.append_assoc]
    exact skipBlank_append_cons hb isBlank_bracket _
  simp only [array, hs, List.takeWhile_append_of_pos hclose, List.dropWhile_append_of_pos hclose]
  simp

/-- An empty word would stand in front of `)`. -/
theorem literal_spells {field operator text : String} {cs rest : List Char}
    (h : literal field operator cs = .ok text rest) (hrest : rest.head? ≠ some ')') :
    ∃ b span, Blanks b ∧ cs = b ++ (span ++ rest) ∧ SpellsLiteral rest text span := by
  obtain ⟨b, hb, hcs⟩ := exists_blanks cs
  obtain ⟨c, r, hc, h⟩ := literal_eq_ok_iff.mp h
  rw [hc] at hcs
  rw [← String.ofList_toList (s := text)]
  by_cases hquote : c = '\''
  · subst hquote
    rw [if_pos rfl] at h
    obtain ⟨rfl, hclose⟩ := quoted?_eq_some h
    exact ⟨b, _, hb, by simp [hcs], .quoted hclose⟩
  · rw [if_neg hquote] at h
    have hne : text.toList ≠ [] := by
      intro hnil
      rw [hnil] at h
      obtain ⟨rfl, hstop⟩ := word_eq_nil h
      rcases hstop c rfl with hblank | hparen
      · rw [Text.isBlank_of_skipBlank_eq_cons hc] at hblank
        cases hblank
      · exact hrest (by simpa using hparen)
    exact ⟨b, text.toList, hb, by rw [← word_eq_append h, ← hcs], .word ⟨hne, word_chars h⟩⟩

theorem operand_spells {field operator : String} {cs rest : List Char} {o : Operand}
    (h : operand field operator cs = .ok o rest) (hrest : rest.head? ≠ some ')') :
    ∃ b span, Blanks b ∧ cs = b ++ (span ++ rest) ∧ SpellsOperand rest o span := by
  unfold operand at h
  split at h <;> obtain ⟨a, h', rfl⟩ := Scanned.map_eq_ok h
  · obtain ⟨b, hb, hcs⟩ := childQuery_spells h'
    exact ⟨b, _, hb, hcs, .nested⟩
  · obtain ⟨b, content, hb, hcs, hfree, hs⟩ := array_spells h'
    exact ⟨b, _, hb, hcs, .array hfree hs⟩
  · obtain ⟨b, span, hb, hcs, hs⟩ := literal_spells h' hrest
    exact ⟨b, span, hb, hcs, .literal hs⟩

/-! ## Terms and segments -/

theorem clause_spells {cs rest : List Char} {c : Clause} (h : clause cs = .ok c rest)
    (hcs : skipBlank cs = cs) (hne : cs ≠ []) (hrest : rest.head? ≠ some ')') :
    ∃ span, cs = span ++ rest ∧ SpellsTerm rest (.clause c) span := by
  obtain ⟨field, operator, o⟩ := c
  obtain ⟨cs₁, cs₂, hf, hop, hopne, ho⟩ := clause_eq_ok_iff.mp h
  dsimp only at hf hop hopne ho
  obtain ⟨gap, hgap, hcs₁⟩ := exists_blanks cs₁
  obtain ⟨b, span, hb, hcs₂, hs⟩ := operand_spells ho hrest
  rw [hcs] at hf
  have hop' := word_eq_append hop
  have hfne : field.toList ≠ [] := by
    intro hnil
    obtain ⟨c, t, rfl⟩ := List.exists_cons_of_ne_nil hne
    rw [hnil] at hf
    rcases (word_eq_nil hf).2 c (by simp) with hc | hc
    · rw [Text.isBlank_of_skipBlank_eq_cons hcs] at hc
      cases hc
    · simp at hc
  have hgapne : gap ≠ [] := by
    rintro rfl
    rw [List.nil_append, hop'] at hcs₁
    obtain ⟨c, t, ht⟩ := List.exists_cons_of_ne_nil hopne
    rcases word_stop hf c (by simp [hcs₁, ht]) with hc | hc
    · rw [(word_chars hop c (by simp [ht])).1] at hc
      cases hc
    · simp at hc
  refine ⟨_, ?_, .clause ⟨hfne, word_chars hf⟩ hgap hgapne ⟨hopne, word_chars hop⟩ hb hs⟩
  rw [word_eq_append hf, hcs₁, hop', hcs₂]
  simp

theorem term_spells {cs rest : List Char} {t : Term} (h : term cs = .ok t rest)
    (hcs : skipBlank cs = cs) (hne : cs ≠ []) (hrest : rest.head? ≠ some ')') :
    ∃ span, cs = span ++ rest ∧ SpellsTerm rest t span := by
  unfold term at h
  split at h
  · rename_i inner rest' hg
    obtain ⟨rfl, rfl⟩ := Scanned.ok_inj.mp h
    exact ⟨_, by rw [← hcs, group_eq_some hg]; simp, .group⟩
  · rename_i rest' hg
    obtain ⟨c, hc, rfl⟩ := Scanned.map_eq_ok h
    rw [group_eq_none hg, hcs] at hc
    exact clause_spells hc hcs hne hrest
  · exact absurd h Scanned.fail_ne_ok

/-- A keyword that is read joins the keywords and the term behind it. -/
theorem SpellsBehind.of_connective {after cs cs' : List Char} {t : Term} {first : Option Connective}
    {ks : List Connective} (h : connective cs = (first, cs'))
    (hcs' : ∃ b span, Blanks b ∧ cs' = b ++ (span ++ after) ∧ SpellsBehind after t ks span) :
    ∃ b span, Blanks b ∧ cs = b ++ (span ++ after) ∧ SpellsBehind after t (first.toList ++ ks) span := by
  obtain ⟨b, hb, hcs⟩ := exists_blanks cs
  obtain ⟨b', span, hb', rfl, hs⟩ := hcs'
  cases first with
  | none =>
    refine ⟨b ++ b', span, hb.append hb', ?_, hs⟩
    rw [hcs, ← connective_eq_none h]
    simp
  | some k =>
    obtain ⟨heq, hend⟩ := connective_eq_some h
    refine ⟨b, _, hb, ?_, .keyword hend hb' hs⟩
    rw [hcs, heq]
    simp

theorem segment_spells {cs rest : List Char} {s : Segment} (h : segment cs = .ok (some s) rest)
    (hrest : rest.head? ≠ some ')') :
    ∃ b span, Blanks b ∧ cs = b ++ (span ++ rest) ∧ SpellsSegment rest s span := by
  obtain ⟨cs₁, cs₂, -, h₁, h₂, hne, -, ht⟩ := segment_eq_some_iff.mp h
  obtain ⟨span, hspan, hs⟩ := term_spells ht (skipBlank_skipBlank cs₂) hne hrest
  obtain ⟨b, hb, hcs₂⟩ := exists_blanks cs₂
  rw [hspan] at hcs₂
  have hsecond := SpellsBehind.of_connective h₂ ⟨b, span, hb, hcs₂, .term hs⟩
  obtain ⟨b', span', hb', hcs, hs'⟩ := SpellsBehind.of_connective h₁ hsecond
  exact ⟨b', span', hb', hcs, by simpa [Window.connectives] using hs', segment_window h⟩

/-! ## Texts -/

theorem segments_spells {cs : List Char} {ss : List Segment} (h : segments cs = .ok ss) :
    ∃ spans, SpellsText ss spans cs := by
  fun_induction segments cs generalizing ss with
  | case1 cs rest hs =>
    obtain rfl := Except.ok.inj h
    exact ⟨[], .nil (segment_eq_none_iff.mp hs).1⟩
  | case2 cs s rest hs ih =>
    obtain ⟨ss', hr, rfl⟩ := exists_of_map_eq_ok h
    obtain ⟨spans, ht⟩ := ih hr
    obtain ⟨b, span, hb, rfl, hspan⟩ := segment_spells hs (head?_of_segments hr)
    exact ⟨span :: spans, .cons hb hspan ht⟩
  | case3 cs e rest hs => cases h

/-- All that is not blank stands in the spans. -/
theorem SpellsText.filter_eq {ss : List Segment} {spans : List (List Char)} {cs : List Char}
    (h : SpellsText ss spans cs) :
    cs.filter (fun c => !isBlank c) = spans.flatten.filter fun c => !isBlank c := by
  have hblanks : ∀ b, Blanks b → b.filter (fun c => !isBlank c) = [] := fun b hb =>
    List.filter_eq_nil_iff.mpr fun c hc => by simp [hb c hc]
  induction h with
  | nil hb => rw [hblanks _ hb, List.flatten_nil, List.filter_nil]
  | cons hb hs ht ih =>
    rw [List.filter_append, hblanks _ hb, List.nil_append, List.filter_append, ih, List.flatten_cons,
      List.filter_append]

/-- A text that is scanned is spelled by its segments: their spans stand in it one after another, with blanks
between and around them, so that whatever is not blank belongs to a segment. -/
theorem scan_spells {text : String} {ss : List Segment} (h : scan text = .ok ss) :
    ∃ spans, SpellsText ss spans text.toList ∧
      text.toList.filter (fun c => !isBlank c) = spans.flatten.filter fun c => !isBlank c := by
  obtain ⟨spans, hs⟩ := segments_spells h
  exact ⟨spans, hs, hs.filter_eq⟩

/-- The group holds a literal with a parenthesis that does not count, and the array an item in quotes. -/
theorem scan_spells_group_and_array :
    let text := "not(A equals 'b (c') or not B in [1, 'x y']"
    let ss : List Segment := [⟨⟨some .not, none⟩, .group "A equals 'b (c'"⟩,
      ⟨⟨some .or, some .not⟩, .clause ⟨"B", "in", .array ["1", "x y"]⟩⟩]
    scan text = .ok ss ∧ ∃ spans, SpellsText ss spans text.toList ∧
      text.toList.filter (fun c => !isBlank c) = spans.flatten.filter fun c => !isBlank c := by
  intro text ss
  have h : scan text = .ok ss := by decide +kernel
  exact ⟨h, scan_spells h⟩

end RecordQuery.Filter
