import RecordQuery.Proofs.Filter.Rendering

/-!
Trees of terms and their texts. A tree is a row of terms, joined from left to right; a term is a clause, a tree in
parentheses or a tree about the records of a relation. The text of a tree scans to its terms: the walk through a
group crosses the text of a tree from end to end, so that no parenthesis in a literal opens or closes anything.
-/
namespace RecordQuery.Filter

open Text (isBlank skipBlank)

/-! ## Trees -/

/-- A word that is read as an operator. -/
structure Spelling where
  word : String
  op : Operator
  accepted : Operator.ofWord? word = some op

/-- What a clause compares its field with. -/
inductive Comparand where
  | literal (text : String)
  | array (items : List String)

inductive Joint where
  | and
  | or

mutual

/-- A term. -/
inductive Atom where
  | clause (field : String) (operator : Spelling) (comparand : Comparand)
  | group (tree : Tree)
  | related (field : String) (quantifier : Quantifier) (tree : Tree)

/-- A row of terms, or none. -/
inductive Tree where
  | empty
  | row (negated : Bool) (first : Atom) (others : Others)

/-- The terms behind the first one of a row. -/
inductive Others where
  | nil
  | cons (joint : Joint) (negated : Bool) (atom : Atom) (others : Others)

end

/-! ## Their texts -/

def Comparand.text : Comparand → String
  | literal text => "'" ++ text ++ "'"
  | array items => "[" ++ ", ".intercalate (items.map fun item => "'" ++ item ++ "'") ++ "]"

def Joint.connective : Joint → Connective
  | and => .and
  | or => .or

/-- What stands in front of a term. -/
def negation (negated : Bool) : String :=
  if negated then "not " else ""

def Quantifier.word (q : Quantifier) : String :=
  (Operator.quantify q).word

@[simp] theorem Quantifier.word_any : any.word = "any" := by decide +kernel

@[simp] theorem Quantifier.word_all : all.word = "all" := by decide +kernel

def Quantifier.spelling (q : Quantifier) : Spelling :=
  ⟨q.word, .quantify q, by cases q <;> rfl⟩

mutual

def Atom.text : Atom → String
  | .clause field operator comparand => field ++ " " ++ operator.word ++ " " ++ comparand.text
  | .group tree => "(" ++ tree.text ++ ")"
  | .related field quantifier tree => field ++ " " ++ quantifier.word ++ " (" ++ tree.text ++ ")"

def Tree.text : Tree → String
  | .empty => ""
  | .row negated first others => negation negated ++ first.text ++ others.text

def Others.text : Others → String
  | .nil => ""
  | .cons joint negated atom others =>
    " " ++ joint.connective.word ++ " " ++ negation negated ++ atom.text ++ others.text

end

/-- A name of a field: a word without quotes and parentheses that is no keyword. -/
structure IsName (name : String) : Prop where
  word : IsWord ['\'', '(', ')'] name.toList
  keyword : ∀ k : Connective, name ≠ k.word

/-- What can stand between quotes, by itself or in an array. -/
def Comparand.Quotable : Comparand → Prop
  | literal text => QuoteSafe text
  | array items => ∀ item ∈ items, QuoteSafe item ∧ ',' ∉ item.toList ∧ ']' ∉ item.toList

/-- The operand that the comparand is read as. -/
def Comparand.operand : Comparand → Operand
  | literal text => .literal text
  | array items => .array items

mutual

/-- The names are names, the literals can stand between quotes, and `in` has an array behind it. -/
def Atom.Writable : Atom → Prop
  | .clause field operator comparand =>
    IsName field ∧ comparand.operand.Fits operator.word ∧ comparand.Quotable
  | .group tree => tree.Writable
  | .related field _ tree => IsName field ∧ tree.Writable

def Tree.Writable : Tree → Prop
  | .empty => True
  | .row _ first others => first.Writable ∧ others.Writable

def Others.Writable : Others → Prop
  | .nil => True
  | .cons _ _ atom others => atom.Writable ∧ others.Writable

end

/-! ## Crossing a text -/

theorem Comparand.toList_text_literal (text : String) : (Comparand.literal text).text.toList = quote text := by
  simp [Comparand.text, quote]

theorem Comparand.toList_text_array (items : List String) : (Comparand.array items).text.toList =
    '[' :: ([',', ' '].intercalate (items.map quote) ++ [']']) := by
  have hquote : (fun item : String => ("'" ++ item ++ "'").toList) = quote := by
    funext item
    simp [quote]
  simp [Comparand.text, Function.comp_def, ← hquote]

/-- The items of an array are crossed one after another, each behind the bracket or a blank. -/
theorem crosses_items {c : Char} (hc : opensQuote c = true) {item : String} {items : List String}
    (h : ∀ i ∈ item :: items, QuoteSafe i) :
    Crosses (c :: ([',', ' '].intercalate ((item :: items).map quote) ++ [']'])) := by
  induction items generalizing c item with
  | nil =>
    have hclose : Crosses [']'] := .plain_append (a := [']']) (by decide) .nil
    simpa using (crosses_quote (h item List.mem_cons_self) hc).append (by decide) hclose
  | cons second items ih =>
    have hothers := ih (c := ' ') (by decide) fun i hi => h i (List.mem_cons_of_mem item hi)
    have hcomma := hothers.plain_append (a := [',']) (by decide)
    simpa using (crosses_quote (h item List.mem_cons_self) hc).append (by decide) hcomma

theorem Comparand.Quotable.crosses {comparand : Comparand} (h : comparand.Quotable) :
    Crosses (' ' :: comparand.text.toList) := by
  cases comparand with
  | literal text =>
    rw [toList_text_literal]
    exact crosses_quote h (by decide)
  | array items =>
    rw [toList_text_array]
    cases items with
    | nil => exact .plain_append (a := [' ', '[', ']']) (by decide) .nil
    | cons item items =>
      have hitems := crosses_items (c := '[') (by decide) fun i hi => (h i hi).1
      exact hitems.plain_append (a := [' ']) (by decide)

theorem IsName.plain {name : String} (h : IsName name) : Plain name.toList := fun c hc => (h.word.2 c hc).2

/-- A word for an operator consists of letters. -/
theorem Spelling.isWord (operator : Spelling) : IsWord ['\'', '(', ')', '['] operator.word.toList := by
  obtain ⟨word, op, h⟩ := operator
  obtain ⟨⟨op', word'⟩, hfind, -⟩ := Option.map_eq_some_iff.mp h
  obtain rfl : word' = word := by simpa using List.find?_some hfind
  have hall : ∀ entry ∈ Operator.names ++ Operator.aliases, IsWord ['\'', '(', ')', '['] entry.2.toList := by
    decide +kernel
  exact hall _ (List.mem_of_find?_eq_some hfind)

/-- Two words with a blank between them. -/
theorem plain_words {name : String} (h : IsName name) (operator : Spelling) :
    Plain (name.toList ++ ' ' :: operator.word.toList) := by
  have hword : IsWord ['\'', '(', ')'] operator.word.toList := operator.isWord.mono (by simp)
  have hblank : Plain [' '] := by decide
  exact h.plain.append (hblank.append fun c hc => (hword.2 c hc).2)

theorem plain_negation (negated : Bool) : Plain (negation negated).toList := by
  cases negated <;> decide +kernel

theorem plain_joint (joint : Joint) : Plain (joint.connective.word.toList ++ [' ']) := by
  cases joint <;> decide +kernel

mutual

theorem Atom.crosses : ∀ atom : Atom, atom.Writable → Crosses atom.text.toList
  | .clause field operator comparand, ⟨hname, _, hq⟩ => by
    have h := hq.crosses.plain_append (plain_words hname operator)
    simpa [Atom.text] using h
  | .group tree, hw => by
    have h := (tree.crosses hw).groupSafe.crosses
    simpa [Atom.text] using h
  | .related field quantifier tree, ⟨hname, hw⟩ => by
    have hgroup := (tree.crosses hw).groupSafe.crosses.plain_append (a := [' ']) (by decide)
    have h := hgroup.plain_append (plain_words hname quantifier.spelling)
    simpa [Atom.text, Quantifier.spelling] using h

theorem Tree.crosses : ∀ tree : Tree, tree.Writable → Crosses tree.text.toList
  | .empty, _ => .nil
  | .row negated first others, ⟨hfirst, hothers⟩ => by
    have h := others.crosses hothers ((first.crosses hfirst).plain_append (plain_negation negated))
    simpa [Tree.text] using h

theorem Others.crosses : ∀ (others : Others), others.Writable → ∀ {own : List Char}, Crosses own →
    Crosses (own ++ others.text.toList)
  | .nil, _, own, hown => by simpa [Others.text] using hown
  | .cons joint negated atom others, ⟨hatom, hothers⟩, own, hown => by
    have hterm := (atom.crosses hatom).plain_append (plain_negation negated)
    have hjoined := (hterm.plain_append (plain_joint joint)).plain_append (a := [' ']) (by decide)
    have h := others.crosses hothers (hown.append (by decide) hjoined)
    simpa [Others.text] using h

end

/-- The text of a tree can stand in parentheses. -/
theorem Tree.groupSafe (tree : Tree) (h : tree.Writable) : GroupSafe tree.text :=
  (tree.crosses h).groupSafe

/-! ## The segments of a tree -/

def Atom.term : Atom → Term
  | .clause field operator comparand => .clause ⟨field, operator.word, comparand.operand⟩
  | .group tree => .group tree.text
  | .related field quantifier tree => .clause ⟨field, quantifier.word, .nested tree.text⟩

def notIf (negated : Bool) : Option Connective :=
  if negated then some .not else none

def Others.segments : Others → List Segment
  | .nil => []
  | .cons joint negated atom others => ⟨⟨some joint.connective, notIf negated⟩, atom.term⟩ :: others.segments

def Tree.segments : Tree → List Segment
  | .empty => []
  | .row negated first others => ⟨⟨notIf negated, none⟩, first.term⟩ :: others.segments

theorem IsName.not_keyword_prefix {name : String} (h : IsName name) (k : Connective) :
    ¬ k.word.toList ++ ['('] <+: name.toList := by
  intro hprefix
  obtain ⟨rest, heq⟩ := hprefix
  exact h.plain '(' (by simp [← heq]) (by simp)

theorem clause_writable {name : String} (h : IsName name) (operator : Spelling) {o : Operand}
    (hfits : o.Fits operator.word) (ho : o.Writable) : (Clause.mk name operator.word o).Writable := by
  have hhead : ∀ c ∈ ['(', ')'], name.toList.head? ≠ some c := by
    intro c hc hn
    have hplain := h.plain c (List.mem_of_mem_head? hn)
    rcases List.mem_cons.mp hc with rfl | hc
    · exact hplain (by simp)
    · obtain rfl := List.mem_singleton.mp hc
      exact hplain (by simp)
  exact ⟨h.word.mono (by simp), ⟨hhead '(' (by simp), hhead ')' (by simp)⟩,
    fun k => ⟨h.keyword k, h.not_keyword_prefix k⟩, operator.isWord.mono (by simp), hfits, ho⟩

theorem Comparand.Quotable.writable {comparand : Comparand} (h : comparand.Quotable) :
    comparand.operand.Writable := by
  cases comparand with
  | literal text => exact h
  | array items => exact fun item hi => (h item hi).2

theorem Atom.term_writable (atom : Atom) (h : atom.Writable) : atom.term.Writable := by
  cases atom with
  | clause field operator comparand => exact clause_writable h.1 operator h.2.1 h.2.2.writable
  | group tree => exact tree.groupSafe h
  | related field quantifier tree =>
    exact clause_writable h.1 quantifier.spelling ⟨quantifier, quantifier.spelling.accepted⟩ (tree.groupSafe h.2)

theorem Others.segments_writable : ∀ others : Others, others.Writable → ∀ s ∈ others.segments, s.Writable
  | .nil, _ => by simp [Others.segments]
  | .cons joint negated atom others, ⟨hatom, hothers⟩ => by
    rw [Others.segments, List.forall_mem_cons]
    exact ⟨⟨by simp, atom.term_writable hatom⟩, others.segments_writable hothers⟩

theorem Tree.segments_writable (tree : Tree) (h : tree.Writable) : ∀ s ∈ tree.segments, s.Writable := by
  cases tree with
  | empty => simp [Tree.segments]
  | row negated first others =>
    rw [Tree.segments, List.forall_mem_cons]
    exact ⟨⟨by simp, first.term_writable h.1⟩, others.segments_writable h.2⟩

/-! ## Writing a tree -/

theorem intercalate_cons_append (sep : List Char) (c : Char) (cs : List Char) (others : List (List Char)) :
    sep.intercalate ((c :: cs) :: others) = c :: sep.intercalate (cs :: others) := by
  cases others <;> simp

/-- Items with a comma and a blank between them: the blank belongs to the item behind it. -/
theorem exists_pieces (items : List String) : ∃ pieces, List.Forall₂ WritesItem items pieces ∧
    [','].intercalate pieces = [',', ' '].intercalate (items.map quote) := by
  have hquote : ∀ {l : List Char} (item : String), Blanks l → WritesItem item (l ++ quote item) := by
    intro l item hl
    have h : WritesItem item (l ++ (quote item ++ [])) := .mk hl Blanks.nil
    simpa using h
  cases items with
  | nil => exact ⟨[], .nil, rfl⟩
  | cons item items =>
    refine ⟨quote item :: items.map fun i => ' ' :: quote i, .cons (hquote item Blanks.nil) ?_, ?_⟩
    · rw [List.forall₂_map_right_iff]
      exact List.forall₂_same.mpr fun i _ => hquote i Blanks.space
    · induction items generalizing item with
      | nil => rfl
      | cons second items ih =>
        have h := ih second
        simp only [List.map_cons, List.intercalate_cons_cons, intercalate_cons_append] at h ⊢
        rw [h]
        simp

theorem Comparand.writes (comparand : Comparand) : WritesOperand comparand.operand comparand.text.toList := by
  cases comparand with
  | literal text =>
    rw [toList_text_literal]
    exact .literal
  | array items =>
    obtain ⟨pieces, hitems, hpieces⟩ := exists_pieces items
    rw [toList_text_array, ← hpieces]
    exact .array hitems

theorem Atom.writes (atom : Atom) : ∃ tokens, WritesTerm atom.term tokens ∧ Spaced tokens atom.text.toList := by
  have hclause : ∀ (field word : String) (span : List Char), Spaced [field.toList, word.toList, span]
      (field.toList ++ ' ' :: (word.toList ++ ' ' :: span)) := fun field word span =>
    (Spaced.single _).space ((Spaced.single _).space (Spaced.single _))
  cases atom with
  | clause field operator comparand =>
    refine ⟨_, .clause comparand.writes, ?_⟩
    simpa [Atom.text] using hclause field operator.word comparand.text.toList
  | group tree =>
    refine ⟨_, .group, ?_⟩
    simpa [Atom.text] using Spaced.single ('(' :: (tree.text.toList ++ [')']))
  | related field quantifier tree =>
    refine ⟨_, .clause .nested, ?_⟩
    simpa [Atom.text] using hclause field quantifier.word ('(' :: (tree.text.toList ++ [')']))

theorem spaced_negation (negated : Bool) {tokens : List (List Char)} {cs : List Char} (h : Spaced tokens cs) :
    Spaced ((notIf negated).toList.map (fun k => k.word.toList) ++ tokens) ((negation negated).toList ++ cs) := by
  cases negated with
  | false => simpa [notIf, negation] using h
  | true =>
    have hnot := (Spaced.single "not".toList).space h
    simpa [notIf, negation, Connective.word] using hnot

theorem Others.writes : ∀ (others : Others) {own : List (List Char)} {cs : List Char}, Spaced own cs →
    ∃ tokens, WritesSegments others.segments tokens ∧ Spaced (own ++ tokens) (cs ++ others.text.toList)
  | .nil, own, cs, h => ⟨[], .nil, by simpa [Others.text] using h⟩
  | .cons joint negated atom others, own, cs, h => by
    obtain ⟨term, hterm, hatom⟩ := atom.writes
    have hjoined := h.space ((Spaced.single joint.connective.word.toList).space (spaced_negation negated hatom))
    obtain ⟨tokens, hothers, hall⟩ := others.writes hjoined
    refine ⟨_, .cons hterm hothers, ?_⟩
    simpa [Others.text, Window.tokens, Window.connectives] using hall

theorem Tree.writes (tree : Tree) : Writes tree.segments tree.text := by
  cases tree with
  | empty => exact ⟨[], .nil, .nil Blanks.nil⟩
  | row negated first others =>
    obtain ⟨term, hterm, hatom⟩ := first.writes
    obtain ⟨tokens, hothers, hall⟩ := others.writes (spaced_negation negated hatom)
    refine ⟨_, .cons hterm hothers, ?_⟩
    simpa [Tree.text, Window.tokens, Window.connectives] using hall

/-- The text of a tree scans to the terms of its row. -/
theorem Tree.scan_text (tree : Tree) (h : tree.Writable) : scan tree.text = .ok tree.segments := by
  obtain ⟨tokens, htokens, hspaced⟩ := tree.writes
  exact segments_writes (tree.segments_writable h) htokens hspaced

end RecordQuery.Filter
