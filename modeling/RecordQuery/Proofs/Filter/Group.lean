import RecordQuery.Proofs.Filter.Token
import Mathlib.Data.List.Chain

/-!
Walks through groups. What a group reads depends on the group alone: a quote in it is followed by another of its
characters or by its closing parenthesis, so no lookahead leaves it. A stretch of text that the walk crosses
without closing the group can be cut off in front, and stretches are put together one after another.
-/
namespace RecordQuery.Filter

open Text (isBlank skipBlank)

/-! ## Locality -/

/-- Of what follows it, a quote sees one character. -/
theorem closesQuote_append_cons (cs : List Char) (c : Char) (rest rest' : List Char) :
    closesQuote (cs ++ c :: rest) = closesQuote (cs ++ c :: rest') := by
  cases cs <;> rfl

/-- Of the text behind a character the walk sees only whether a quote closes in front of it. -/
theorem Walk.step_congr (w : Walk) (previous c : Char) (rest rest' : List Char)
    (h : c = '\'' → closesQuote rest = closesQuote rest') :
    w.step previous c rest = w.step previous c rest' := by
  unfold Walk.step
  by_cases hc : c = '\''
  · rw [h hc]
  · simp [hc]

/-- A group is read from its own characters: the text behind it can be exchanged. -/
theorem inner?_local {w : Walk} {previous : Char} {cs inner rest : List Char}
    (h : inner? w previous cs = some (inner, rest)) (rest' : List Char) :
    inner? w previous (inner ++ ')' :: rest') = some (inner, rest') := by
  induction cs generalizing w previous inner with
  | nil => simp [inner?] at h
  | cons c cs ih =>
    unfold inner? at h
    split at h
    · rename_i hs
      obtain ⟨rfl, rfl⟩ := Prod.mk.inj (Option.some.inj h)
      obtain rfl := Walk.step_eq_none hs
      rw [Walk.step_congr w previous ')' cs rest' (by simp)] at hs
      simp [inner?, hs]
    · rename_i w' hs
      obtain ⟨⟨inner', rest''⟩, h', heq⟩ := Option.map_eq_some_iff.mp h
      obtain ⟨rfl, rfl⟩ := Prod.mk.inj heq
      rw [inner?_eq_some h', Walk.step_congr w previous c _ (inner' ++ ')' :: rest')
        (fun _ => closesQuote_append_cons _ _ _ _)] at hs
      simp [inner?, hs, ih h']

theorem group_parenthesis {b : List Char} (hb : Blanks b) {cs inner rest : List Char}
    (h : inner? ⟨0, false⟩ '(' cs = some (inner, rest)) :
    group (b ++ '(' :: cs) = .ok (some (String.ofList inner)) rest := by
  simp only [group, skipBlank_append_cons hb isBlank_opening, h]

theorem exists_inner?_of_group {cs rest : List Char} {inner : String} (h : group cs = .ok (some inner) rest) :
    ∃ r, skipBlank cs = '(' :: r ∧ inner? ⟨0, false⟩ '(' r = some (inner.toList, rest) := by
  unfold group at h
  split at h
  · rename_i r hr
    split at h
    · rename_i inner' rest' hinner
      obtain ⟨hsome, rfl⟩ := Scanned.ok_inj.mp h
      obtain rfl := Option.some.inj hsome
      exact ⟨r, hr, by rw [hinner, String.toList_ofList]⟩
    · exact absurd h Scanned.fail_ne_ok
  · cases (Scanned.ok_inj.mp h).1

/-- Where no parenthesis opens, there is no group, and only blanks are passed over. -/
theorem group_eq_none_of_head? {cs : List Char} (h : (skipBlank cs).head? ≠ some '(') :
    group cs = .ok none (skipBlank cs) := by
  unfold group
  split
  · rename_i rest hr
    exact absurd (by simp [hr]) h
  · rfl

theorem head?_of_group_eq_none {cs rest : List Char} (h : group cs = .ok none rest) :
    (skipBlank cs).head? ≠ some '(' := by
  unfold group at h
  split at h
  · split at h <;> simp [Scanned.ok, Scanned.fail] at h
  · rename_i hopen
    intro hp
    obtain ⟨r, hr⟩ := List.head?_eq_some_iff.mp hp
    exact hopen r hr

/-- Where no parenthesis opens, a term is a clause. -/
theorem term_eq_clause {cs : List Char} (h : (skipBlank cs).head? ≠ some '(') :
    term cs = (clause (skipBlank cs)).map .clause := by
  rw [term, group_eq_none_of_head? h]
  rfl

section

variable {name : String} (hname : IsWord ['('] name.toList)

include hname

theorem skipBlank_word (cs : List Char) : skipBlank (name.toList ++ cs) = name.toList ++ cs := by
  obtain ⟨c, w, hw⟩ := List.exists_cons_of_ne_nil hname.1
  rw [hw, List.cons_append]
  exact skipBlank_append_cons Blanks.nil (hname.2 c (by simp [hw])).1 _

/-- Where a word stands in the place of a term, a clause is read. -/
theorem term_word (cs : List Char) : term (name.toList ++ cs) = (clause (name.toList ++ cs)).map .clause := by
  have hopen : (skipBlank (name.toList ++ cs)).head? ≠ some '(' := by
    obtain ⟨c, w, hw⟩ := List.exists_cons_of_ne_nil hname.1
    rw [skipBlank_word hname, hw]
    intro heq
    exact (hname.2 c (by simp [hw])).2 (by simpa using heq)
  rw [term_eq_clause hopen, skipBlank_word hname]

/-- The word is the field of the clause, and an operator comes next. -/
theorem field_of_clause_word {cs rest : List Char} {c : Clause} (h : clause (name.toList ++ ' ' :: cs) = .ok c rest) :
    c.field = name ∧ ∃ cs', word ['(', '['] (skipBlank cs) = (c.operator.toList, cs') ∧ c.operator.toList ≠ [] := by
  obtain ⟨cs₁, cs₂, hfield, hoperator, hne, -⟩ := clause_eq_ok_iff.mp h
  have hword : word [] (name.toList ++ ' ' :: cs) = (name.toList, ' ' :: cs) :=
    word_append_of (fun c hc => ⟨(hname.2 c hc).1, List.not_mem_nil⟩) (by simp)
  rw [skipBlank_word hname, hword] at hfield
  obtain ⟨hname', rfl⟩ := Prod.mk.inj hfield
  have hspace : skipBlank (' ' :: cs) = skipBlank cs := skipBlank_append Blanks.space cs
  rw [hspace] at hoperator
  exact ⟨String.toList_inj.mp hname'.symm, cs₂, hoperator, hne⟩

end

/-- A text that can stand in parentheses: they enclose it and nothing else. -/
def GroupSafe (text : String) : Prop :=
  group ('(' :: (text.toList ++ [')'])) = .ok (some text) []

theorem groupSafe_of_inner? {text : String} (rest : List Char)
    (h : inner? ⟨0, false⟩ '(' (text.toList ++ ')' :: rest) = some (text.toList, rest)) : GroupSafe text := by
  have hg := group_parenthesis Blanks.nil (inner?_local h [])
  rwa [String.ofList_toList] at hg

theorem GroupSafe.inner?_eq_some {text : String} (h : GroupSafe text) (rest : List Char) :
    inner? ⟨0, false⟩ '(' (text.toList ++ ')' :: rest) = some (text.toList, rest) := by
  have hs : skipBlank ('(' :: (text.toList ++ [')'])) = '(' :: (text.toList ++ [')']) :=
    skipBlank_append_cons Blanks.nil isBlank_opening _
  obtain ⟨r, hr, hinner⟩ := exists_inner?_of_group h
  rw [hs] at hr
  obtain rfl := (List.cons.inj hr).2
  exact inner?_local hinner rest

theorem groupSafe_iff {text : String} :
    GroupSafe text ↔ inner? ⟨0, false⟩ '(' (text.toList ++ [')']) = some (text.toList, []) :=
  ⟨fun h => h.inner?_eq_some [], groupSafe_of_inner? []⟩

instance (text : String) : Decidable (GroupSafe text) := decidable_of_iff _ groupSafe_iff.symm

/-- A text that can stand in parentheses is read between them, behind blanks and in front of any text. -/
theorem GroupSafe.group_append {text : String} (h : GroupSafe text) {b : List Char} (hb : Blanks b)
    (rest : List Char) : group (b ++ ('(' :: (text.toList ++ [')']) ++ rest)) = .ok (some text) rest := by
  have hg := group_parenthesis hb (h.inner?_eq_some rest)
  rw [String.ofList_toList] at hg
  rwa [List.cons_append, List.append_assoc]

/-! ## Stretches of a walk -/

/-- Walks over `cs`, in front of `rest`; `none` if the group closes on the way. -/
def Walk.over (w : Walk) (previous : Char) : List Char → List Char → Option Walk
  | [], _ => some w
  | c :: cs, rest => (w.step previous c (cs ++ rest)).bind fun w => w.over c cs rest

theorem Walk.over_append {w w₁ w₂ : Walk} {previous : Char} {a b rest : List Char}
    (ha : w.over previous a (b ++ rest) = some w₁) (hb : w₁.over (a.getLastD previous) b rest = some w₂) :
    w.over previous (a ++ b) rest = some w₂ := by
  induction a generalizing w previous with
  | nil =>
    obtain rfl := Option.some.inj ha
    exact hb
  | cons c a ih =>
    obtain ⟨w', hs, ha'⟩ := Option.bind_eq_some_iff.mp ha
    rw [List.getLastD_cons] at hb
    simpa [Walk.over, hs] using ih ha' hb

/-- A stretch that the walk crosses belongs to the group. -/
theorem inner?_append {w w' : Walk} {previous : Char} {cs rest : List Char}
    (h : w.over previous cs rest = some w') :
    inner? w previous (cs ++ rest) =
      (inner? w' (cs.getLastD previous) rest).map fun (inner, rest) => (cs ++ inner, rest) := by
  induction cs generalizing w previous with
  | nil =>
    obtain rfl := Option.some.inj h
    simp
  | cons c cs ih =>
    obtain ⟨w₁, hs, h'⟩ := Option.bind_eq_some_iff.mp h
    rw [List.getLastD_cons]
    simp [inner?, hs, ih h', Option.map_map, Function.comp_def]

/-! ## Literals between quotes -/

/-- A literal as it is written. -/
def quote (text : String) : List Char :=
  '\'' :: (text.toList ++ ['\''])

/-- No quote in the text stands in front of a character that would let it close a literal. -/
def KeepsOpen (cs : List Char) : Prop :=
  ∀ l c r, cs = l ++ '\'' :: c :: r → isBlank c = false ∧ c ∉ [')', ']', ',']

def QuoteSafe (text : String) : Prop := KeepsOpen text.toList

theorem keepsOpen_iff_isChain {cs : List Char} : KeepsOpen cs ↔
    cs.IsChain fun c d => c = '\'' → isBlank d = false ∧ d ∉ [')', ']', ','] := by
  rw [List.isChain_iff_forall_rel_of_append_cons_cons]
  constructor
  · rintro h c d l r heq rfl
    exact h l d r heq
  · intro h l d r heq
    exact h heq rfl

instance (text : String) : Decidable (QuoteSafe text) := decidable_of_iff _ keepsOpen_iff_isChain.symm

theorem KeepsOpen.tail {c : Char} {cs : List Char} (h : KeepsOpen (c :: cs)) : KeepsOpen cs := by
  intro l d r heq
  exact h (c :: l) d r (by rw [heq, List.cons_append])

/-- A quote in a literal does not close it: the literal goes on with a character that keeps it open, or with the
quote that does close. -/
theorem KeepsOpen.closesQuote_eq {cs : List Char} (h : KeepsOpen ('\'' :: cs)) (rest : List Char) :
    closesQuote (cs ++ '\'' :: rest) = false := by
  cases cs with
  | nil => simp [closesQuote]
  | cons c cs =>
    obtain ⟨hb, hc⟩ := h [] c cs rfl
    simp only [List.mem_cons, List.not_mem_nil, or_false, not_or] at hc
    simp [closesQuote, hb, hc]

/-! ## Crossing a text -/

/-- A walk through a group crosses the text, from outside of literals to outside of literals, if what follows lets a
quote close. -/
def Crosses (cs : List Char) : Prop := ∀ depth previous rest, closesQuote rest = true →
  Walk.over ⟨depth, false⟩ previous cs rest = some ⟨depth, false⟩

/-- A text without quotes and parentheses. -/
def Plain (cs : List Char) : Prop := ∀ c ∈ cs, c ∉ ['\'', '(', ')']

instance (cs : List Char) : Decidable (Plain cs) := List.decidableBAll (fun c => c ∉ ['\'', '(', ')']) cs

theorem Plain.append {a b : List Char} (ha : Plain a) (hb : Plain b) : Plain (a ++ b) := by
  intro c hc
  rcases List.mem_append.mp hc with hc | hc
  · exact ha c hc
  · exact hb c hc

/-- A plain text is crossed, whatever follows. -/
theorem over_plain {cs : List Char} (h : Plain cs) (depth : Nat) (previous : Char)
    (rest : List Char) : Walk.over ⟨depth, false⟩ previous cs rest = some ⟨depth, false⟩ := by
  induction cs generalizing previous with
  | nil => rfl
  | cons c cs ih =>
    have hc := h c List.mem_cons_self
    simp only [List.mem_cons, List.not_mem_nil, or_false, not_or] at hc
    have hs : Walk.step ⟨depth, false⟩ previous c (cs ++ rest) = some ⟨depth, false⟩ := by
      simp [Walk.step, hc]
    rw [Walk.over, hs]
    exact ih (fun d hd => h d (List.mem_cons_of_mem c hd)) c

theorem Crosses.nil : Crosses [] := fun _ _ _ _ => rfl

theorem Crosses.plain_append {a b : List Char} (ha : Plain a) (hb : Crosses b) : Crosses (a ++ b) := by
  intro depth previous rest hrest
  exact Walk.over_append (over_plain ha depth previous _) (hb depth _ rest hrest)

/-- Two crossed texts make one, if the second one starts with a character that lets a quote close. -/
theorem Crosses.append {a b : List Char} {c : Char} (ha : Crosses a) (hc : closesQuote [c] = true)
    (hb : Crosses (c :: b)) : Crosses (a ++ c :: b) := by
  intro depth previous rest hrest
  exact Walk.over_append (ha depth previous _ hc) (hb depth _ rest hrest)

/-- Inside a literal the walk waits for a quote that closes. -/
theorem over_quoted {cs rest : List Char} (h : KeepsOpen cs) (hrest : closesQuote rest = true) (depth : Nat)
    (previous : Char) : Walk.over ⟨depth, true⟩ previous (cs ++ ['\'']) rest = some ⟨depth, false⟩ := by
  induction cs generalizing previous with
  | nil => simp [Walk.over, Walk.step, hrest]
  | cons c cs ih =>
    have hs : Walk.step ⟨depth, true⟩ previous c (cs ++ ['\''] ++ rest) = some ⟨depth, true⟩ := by
      by_cases hc : c = '\''
      · subst hc
        simp [Walk.step, h.closesQuote_eq rest]
      · simp [Walk.step, hc]
    rw [List.cons_append, Walk.over, hs]
    exact ih h.tail c

/-- A literal is crossed behind a character that lets its first quote open. -/
theorem crosses_quote {text : String} (h : QuoteSafe text) {c : Char} (hc : opensQuote c = true) :
    Crosses (c :: quote text) := by
  intro depth previous rest hrest
  have hplain : c ≠ '(' ∧ c ≠ '\'' ∧ c ≠ ')' := by
    refine ⟨?_, ?_, ?_⟩ <;> rintro rfl <;> simp [opensQuote] at hc
  have hs : Walk.step ⟨depth, false⟩ previous c (quote text ++ rest) = some ⟨depth, false⟩ := by
    simp [Walk.step, hplain]
  have hq : Walk.step ⟨depth, false⟩ c '\'' ((text.toList ++ ['\'']) ++ rest) = some ⟨depth, true⟩ := by
    simp [Walk.step, hc]
  rw [Walk.over, hs]
  show Walk.over ⟨depth, false⟩ c (quote text) rest = _
  rw [quote, Walk.over, hq]
  exact over_quoted h hrest depth '\''

/-- With more parentheses open around it, a walk that stays in the group takes the same step. -/
theorem Walk.step_deeper {w w' : Walk} {previous c : Char} {rest : List Char} (h : w.step previous c rest = some w')
    (k : Nat) : Walk.step ⟨w.depth + k, w.inQuotes⟩ previous c rest = some ⟨w'.depth + k, w'.inQuotes⟩ := by
  obtain ⟨depth, inQuotes⟩ := w
  unfold Walk.step at h ⊢
  grind

theorem Walk.over_deeper {w w' : Walk} {previous : Char} {cs rest : List Char}
    (h : w.over previous cs rest = some w') (k : Nat) :
    Walk.over ⟨w.depth + k, w.inQuotes⟩ previous cs rest = some ⟨w'.depth + k, w'.inQuotes⟩ := by
  induction cs generalizing w previous with
  | nil =>
    obtain rfl := Option.some.inj h
    rfl
  | cons c cs ih =>
    obtain ⟨w₁, hs, h⟩ := Option.bind_eq_some_iff.mp h
    rw [Walk.over, Walk.step_deeper hs k]
    exact ih h

/-- A group closes where nothing else is open. -/
theorem Walk.eq_of_step_eq_none {w : Walk} {previous c : Char} {rest : List Char}
    (h : w.step previous c rest = none) : w = ⟨0, false⟩ := by
  obtain ⟨depth, inQuotes⟩ := w
  unfold Walk.step at h
  grind

/-- A walk through a whole group stands outside of literals in front of the parenthesis that closes the group, with
nothing open. -/
theorem over_of_inner? {w : Walk} {previous : Char} {cs rest : List Char}
    (h : inner? w previous (cs ++ ')' :: rest) = some (cs, rest)) :
    w.over previous cs (')' :: rest) = some ⟨0, false⟩ := by
  induction cs generalizing w previous with
  | nil =>
    rw [List.nil_append, inner?] at h
    split at h
    · rename_i hs
      obtain rfl := Walk.eq_of_step_eq_none hs
      rfl
    · obtain ⟨r, -, heq⟩ := Option.map_eq_some_iff.mp h
      cases heq
  | cons c cs ih =>
    rw [List.cons_append, inner?] at h
    split at h
    · cases h
    · rename_i w₁ hs
      obtain ⟨⟨cs', rest'⟩, h, heq⟩ := Option.map_eq_some_iff.mp h
      obtain ⟨hcs, rfl⟩ := Prod.mk.inj heq
      obtain rfl := (List.cons.inj hcs).2
      rw [Walk.over, hs]
      exact ih h

/-- A walk crosses a group: what the group reads between its parentheses it reads at any depth. -/
theorem GroupSafe.crosses {text : String} (h : GroupSafe text) : Crosses ('(' :: (text.toList ++ [')'])) := by
  intro depth previous rest _
  have hin := Walk.over_deeper (over_of_inner? (h.inner?_eq_some rest)) (depth + 1)
  have hout : Walk.over ⟨0 + (depth + 1), false⟩ (text.toList.getLastD '(') [')'] rest = some ⟨depth, false⟩ := by
    simp [Walk.over, Walk.step]
  have hgroup := Walk.over_append hin hout
  rw [Nat.zero_add] at hgroup
  exact hgroup

/-- A text that is crossed can stand in parentheses: where it ends, nothing is open. -/
theorem Crosses.groupSafe {text : String} (h : Crosses text.toList) : GroupSafe text := by
  have hover := h 0 '(' [')'] (by simp [closesQuote])
  apply groupSafe_of_inner? []
  simp [inner?_append hover, inner?, Walk.step]

end RecordQuery.Filter
