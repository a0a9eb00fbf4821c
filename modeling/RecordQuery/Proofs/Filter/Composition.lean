import RecordQuery.Proofs.Filter.Concatenation
import RecordQuery.Proofs.Filter.Limit
import RecordQuery.Proofs.Filter.Rendering
import RecordQuery.Proofs.Query.Request

/-!
Filters put together from texts. A text with another one in parentheses behind it compiles to the two tests joined:
neither text changes how the other one is read, and the first needs no parentheses, since terms are joined from the
left. The second text stands one level deeper, which a limit greater by one makes up for. The words in front of it, as
in front of any single term, turn its test around or join it, and are read the same way whatever the term is.
-/
namespace RecordQuery.Filter

open Text (skipBlank)

variable {ρ : Type} {registry : Registry ρ}

/-! ## Rows one after another -/

/-- What comes behind a row is joined to the test of the row. -/
theorem compileRow_append {nesting : Nesting} {stop? : Option QueryError} {before? : Option (Predicate ρ)}
    {p : Predicate ρ} {ss : List Segment} (h : compileRow registry nesting none before? ss = .ok p)
    (hne : before? = none → ss ≠ []) (ss' : List Segment) :
    compileRow registry nesting stop? before? (ss ++ ss') = compileRow registry nesting stop? (some p) ss' := by
  induction ss generalizing before? with
  | nil =>
    cases before? with
    | none => exact absurd rfl (hne rfl)
    | some before =>
      obtain rfl := Except.ok.inj h
      rfl
  | cons s ss ih =>
    rw [compileRow] at h
    obtain ⟨term, ht, h⟩ := exists_of_bind_eq_ok h
    obtain ⟨before, hj, h⟩ := exists_of_bind_eq_ok h
    rw [List.cons_append, compileRow, ht]
    simp only [bind, Except.bind, hj]
    exact ih h (by simp)

/-- A text is compiled behind another one, with blanks between them, as it is behind the test of the other one. -/
theorem compileAt_join {nesting : Nesting} {text : String} {p : Predicate ρ}
    (h : compileAt registry nesting text = .ok p) (hterm : scan text ≠ .ok []) (other : String) :
    compileAt registry nesting (text ++ " " ++ other) = compileFrom registry nesting (some p) other.toList := by
  rw [compileAt, compileFrom_eq_compileRow] at h
  obtain ⟨hstop, -⟩ := compileRow_eq_ok_iff.mp h
  rw [hstop] at h
  have hscan : scan text = .ok (yielded text.toList).1 := segments_eq_ok_iff.mpr (Prod.ext rfl hstop)
  have hne : (yielded text.toList).1 ≠ [] := by
    intro hnil
    exact hterm (by rw [hscan, hnil])
  have hjoin := yielded_join hscan Blanks.space (by simp) other.toList
  have htext : (text ++ " " ++ other).toList = text.toList ++ ([' '] ++ other.toList) := by simp
  rw [compileAt, compileFrom_eq_compileRow, htext, hjoin, compileFrom_eq_compileRow]
  exact compileRow_append h (fun _ => hne) _

/-! ## A window in front of a text -/

/-- A text compiles only if there is a term behind the words of its window, and the term compiles. -/
theorem exists_term_of_compileFrom {nesting : Nesting} {before? : Option (Predicate ρ)} {p : Predicate ρ}
    {first second : Option Connective} {cs cs₁ cs₂ : List Char} (h₁ : connective cs = (first, cs₁))
    (h₂ : connective cs₁ = (second, cs₂)) (hne : skipBlank cs₂ ≠ [])
    (h : compileFrom registry nesting before? cs = .ok p) :
    ∃ t rest test, term (skipBlank cs₂) = .ok t rest ∧ compileTerm registry nesting t = .ok test := by
  have hne₁ := skipBlank_ne_nil_of_connective h₂ hne
  rw [compileFrom_eq] at h
  split at h
  · cases h
  · rename_i rest hs
    have hblanks := (segment_eq_none_iff.mp hs).1
    exact absurd (skipBlank_eq_nil.mpr hblanks) (skipBlank_ne_nil_of_connective h₁ hne₁)
  · rename_i s rest hs
    obtain ⟨cs₁', cs₂', -, h₁', h₂', -, -, hterm⟩ := segment_eq_some_iff.mp hs
    obtain rfl := (Prod.mk.inj (h₁.symm.trans h₁')).2
    obtain rfl := (Prod.mk.inj (h₂.symm.trans h₂')).2
    obtain ⟨test, htest, -⟩ := exists_of_bind_eq_ok h
    exact ⟨s.term, rest, test, hterm, htest⟩

/-- A text behind the words of a window. -/
def Window.inFrontOf (w : Window) (text : String) : String :=
  w.toText ++ " " ++ text

theorem Window.toText_one (k : Connective) : (Window.mk (some k) none).toText = k.word := by
  simp [toText, connectives]

theorem Window.toText_two (k k' : Connective) :
    (Window.mk (some k) (some k')).toText = k.word ++ " " ++ k'.word := by
  simp [toText, connectives]

theorem Window.inFrontOf_not (text : String) : (Window.mk (some .not) none).inFrontOf text = "not " ++ text := by
  rw [inFrontOf, toText_one]
  rfl

theorem Window.Joins.first_ne_none {w : Window} (h : w.Joins) : w.first ≠ none := by
  intro hnone
  rcases h with h | h
  all_goals
    rw [hnone] at h
    cases h

section

variable {w : Window} (hfirst : w.first ≠ none) {t : Term}

include hfirst

/-- The words of a window are read, and behind them the term that the text starts with. -/
theorem segment_window_append {cs rest : List Char} (h : segment cs = .ok (some ⟨⟨none, none⟩, t⟩) rest) :
    segment (w.toText.toList ++ ' ' :: cs) = .ok (some ⟨w, t⟩) rest := by
  obtain ⟨cs₁, cs₂, -, h₁, h₂, hne, hp, ht⟩ := segment_eq_some_iff.mp h
  obtain rfl := connective_eq_none h₁
  obtain rfl := connective_eq_none h₂
  rw [skipBlank_skipBlank, skipBlank_skipBlank] at hne hp ht
  have hspace : connective (' ' :: cs) = (none, skipBlank cs) := (connective_append Blanks.space cs).trans h₁
  have hskip : skipBlank (' ' :: cs) = skipBlank cs := skipBlank_append Blanks.space cs
  obtain ⟨first, second⟩ := w
  obtain ⟨k, rfl⟩ := Option.ne_none_iff_exists'.mp hfirst
  cases second with
  | none =>
    have hk := connective_word Blanks.nil k cs
    rw [Window.toText_one]
    refine segment_eq_some_iff.mpr ⟨_, _, skipBlank_ne_nil_of_connective hk (hskip ▸ hne), hk, hspace, ?_⟩
    rw [skipBlank_skipBlank]
    exact ⟨hne, hp, ht⟩
  | some k' =>
    have hk := connective_word Blanks.nil k (k'.word.toList ++ ' ' :: cs)
    have hk' := connective_word Blanks.space k' cs
    have htext : (Window.mk (some k) (some k')).toText.toList ++ ' ' :: cs =
        k.word.toList ++ ' ' :: (k'.word.toList ++ ' ' :: cs) := by simp [Window.toText_two]
    rw [htext]
    have hne' := skipBlank_ne_nil_of_connective hk' (hskip ▸ hne)
    refine segment_eq_some_iff.mpr ⟨_, _, skipBlank_ne_nil_of_connective hk hne', hk, hk', ?_⟩
    rw [hskip]
    exact ⟨hne, hp, ht⟩

theorem scan_window {text : String} {ss : List Segment} (h : scan text = .ok (⟨⟨none, none⟩, t⟩ :: ss)) :
    scan (w.inFrontOf text) = .ok (⟨w, t⟩ :: ss) := by
  obtain ⟨rest, hs, hrest⟩ := exists_segment_of_segments h
  have htext : (w.inFrontOf text).toList = w.toText.toList ++ ' ' :: text.toList := by simp [Window.inFrontOf]
  rw [scan, htext, segments_eq, segment_window_append hfirst hs]
  simp only [Scanned.ok, hrest]
  rfl

/-- In front of a term, a window with a `not` turns the term around. -/
theorem compileAt_window {nesting : Nesting} {text : String} (h : scan text = .ok [⟨⟨none, none⟩, t⟩]) :
    compileAt registry nesting (w.inFrontOf text) =
      (compileAt registry nesting text).map fun test => if w.negates then negate test else test := by
  rw [compileAt_eq_compileRow (scan_window hfirst h), compileAt_eq_compileRow h, compileRow, compileRow]
  cases compileTerm registry nesting t <;> rfl

omit hfirst in
theorem compileAt_not {nesting : Nesting} {text : String} (h : scan text = .ok [⟨⟨none, none⟩, t⟩]) :
    compileAt registry nesting ("not " ++ text) = (compileAt registry nesting text).map negate := by
  rw [← Window.inFrontOf_not]
  exact compileAt_window (by simp) h

end

/-- Behind a window that joins, a term is joined to the text in front. -/
theorem compileAt_window_behind {nesting : Nesting} {text other : String} {p : Predicate ρ}
    (h : compileAt registry nesting text = .ok p) (hterm : scan text ≠ .ok []) {t : Term}
    (hother : scan other = .ok [⟨⟨none, none⟩, t⟩]) {w : Window} (hw : w.Joins) :
    compileAt registry nesting (text ++ " " ++ w.inFrontOf other) =
      (compileAt registry nesting other).map fun q record => joinValue (p record) (w, q record) := by
  have hscan := scan_window hw.first_ne_none hother
  rw [compileAt_join h hterm, compileFrom_eq_compileRow, segments_eq_ok_iff.mp hscan, compileAt_eq_compileRow hother,
    compileRow, compileRow]
  cases compileTerm registry nesting t with
  | error fault => rfl
  | ok q =>
    simp only [bind, Except.bind, join_of_joins hw]
    rfl

/-! ## Groups behind a window -/

/-- A text in parentheses, behind the words of a window. -/
def Window.group (w : Window) (text : String) : String :=
  w.toText ++ " (" ++ text ++ ")"

theorem Window.group_eq (w : Window) (text : String) : w.group text = w.inFrontOf ("(" ++ text ++ ")") := by
  apply String.toList_inj.mp
  simp [Window.group, Window.inFrontOf]

theorem toList_parentheses (text : String) : ("(" ++ text ++ ")").toList = '(' :: (text.toList ++ [')']) := by
  simp

theorem scan_parentheses {text : String} (h : GroupSafe text) :
    scan ("(" ++ text ++ ")") = .ok [⟨⟨none, none⟩, .group text⟩] := by
  refine scan_term (t := .group text) h .group ?_
  rw [toList_parentheses]
  exact .single _

/-- A text that can stand in parentheses is compiled there one level deeper, like a term of its own. -/
theorem compileAt_group (registry : Registry ρ) (nesting : Nesting) {text : String} (h : GroupSafe text) :
    compileAt registry nesting ("(" ++ text ++ ")") =
      nesting.descend.bind fun deeper => compileAt registry deeper text := by
  rw [compileAt_eq_compileRow (scan_parentheses h), compileRow, compileTerm_group]
  cases nesting.descend.bind fun deeper => compileAt registry deeper text <;> rfl

/-- One level deeper a limit greater by one leaves as much room. -/
theorem compileAt_deeper (registry : Registry ρ) (limit : Nat) (text : String) :
    compileAt registry ⟨1, limit + 1⟩ text = (compile registry limit text).mapError (·.withLimit (limit + 1)) := by
  have hroom : (Nesting.ofLimit limit).room = (Nesting.mk 1 (limit + 1)).room := rfl
  exact compileAt_of_room_eq hroom registry text

theorem descend_ofLimit_succ (limit : Nat) : (Nesting.ofLimit (limit + 1)).descend = .ok ⟨1, limit + 1⟩ :=
  if_pos (Nat.succ_pos limit)

theorem compile_group (registry : Registry ρ) (limit : Nat) {text : String} (h : GroupSafe text) :
    compile registry (limit + 1) ("(" ++ text ++ ")") =
      (compile registry limit text).mapError (·.withLimit (limit + 1)) := by
  rw [compile, compileAt_group registry _ h, descend_ofLimit_succ]
  exact compileAt_deeper registry limit text

/-- Behind a window that joins, a text in parentheses is joined to the text in front. -/
theorem compile_group_behind {limit : Nat} {t₁ t₂ : String} {p : Predicate ρ}
    (h₁ : compile registry (limit + 1) t₁ = .ok p) (hterm : scan t₁ ≠ .ok []) (hsafe : GroupSafe t₂) {w : Window}
    (hw : w.Joins) : compile registry (limit + 1) (t₁ ++ " " ++ w.group t₂) =
      ((compile registry limit t₂).mapError (·.withLimit (limit + 1))).map
        fun q record => joinValue (p record) (w, q record) := by
  rw [← compile_group registry limit hsafe, w.group_eq]
  exact compileAt_window_behind h₁ hterm (scan_parentheses hsafe) hw

/-- In front of a text in parentheses, `not` turns the text around. -/
theorem compileAt_not_group (registry : Registry ρ) (nesting : Nesting) {text : String} (h : GroupSafe text) :
    compileAt registry nesting ("not (" ++ text ++ ")") =
      (nesting.descend.bind fun deeper => compileAt registry deeper text).map negate := by
  have htext : "not (" ++ text ++ ")" = "not " ++ ("(" ++ text ++ ")") := by
    apply String.toList_inj.mp
    simp
  rw [htext, compileAt_not (scan_parentheses h), compileAt_group registry nesting h]

theorem compile_not_group (registry : Registry ρ) (limit : Nat) {text : String} (h : GroupSafe text) :
    compile registry (limit + 1) ("not (" ++ text ++ ")") =
      ((compile registry limit text).mapError (·.withLimit (limit + 1))).map negate := by
  rw [compile, compileAt_not_group registry _ h, descend_ofLimit_succ, ← compileAt_deeper]
  rfl

/-- With a limit that is no less a text that compiles means the same. -/
theorem compile_of_le {limit limit' : Nat} (hle : limit ≤ limit') {text : String} {p : Predicate ρ}
    (h : compile registry limit text = .ok p) : compile registry limit' text = .ok p := by
  have hroom : (Nesting.ofLimit limit).room ≤ (Nesting.ofLimit limit').room := by
    simpa [Nesting.room, Nesting.ofLimit] using hle
  exact compileAt_of_room_le hroom h

/-! ## Conjunction, disjunction and complement -/

theorem behind_group (t₁ t₂ : String) (w : Window) :
    t₁ ++ " " ++ w.group t₂ = t₁ ++ (" " ++ w.toText ++ " (") ++ t₂ ++ ")" := by
  simp [Window.group, String.append_assoc]

/-- Texts put together mean their tests put together. The first text may hold any row of terms, and the second
stands in parentheses; where it fails, the whole fails in the same way. Keeping rows by the conjunction is keeping
them by one text after the other. -/
theorem compile_composed {limit : Nat} {t₁ t₂ : String} {p : Predicate ρ}
    (h₁ : compile registry (limit + 1) t₁ = .ok p) (hterm : scan t₁ ≠ .ok []) (h₂ : GroupSafe t₂) :
    (∀ q, compile registry limit t₂ = .ok q →
      compile registry (limit + 1) (t₁ ++ " and (" ++ t₂ ++ ")") = .ok (fun record => p record && q record) ∧
      compile registry (limit + 1) (t₁ ++ " or (" ++ t₂ ++ ")") = .ok (fun record => p record || q record) ∧
      compile registry (limit + 1) (t₁ ++ " and not (" ++ t₂ ++ ")") = .ok (fun record => p record && !q record) ∧
      compile registry (limit + 1) ("not (" ++ t₂ ++ ")") = .ok (fun record => !q record) ∧
      ∀ e : Engine ρ, e.registry = registry → e.config.maxNesting = limit + 1 → ∀ rows, ∃ kept kept',
        e.keep (some t₁) rows = .ok kept ∧ e.keep (some t₂) kept = .ok kept' ∧
        e.keep (some (t₁ ++ " and (" ++ t₂ ++ ")")) rows = .ok kept') ∧
    ∀ fault, compile registry limit t₂ = .error fault →
      ∀ text ∈ [t₁ ++ " and (" ++ t₂ ++ ")", t₁ ++ " or (" ++ t₂ ++ ")", t₁ ++ " and not (" ++ t₂ ++ ")",
        "not (" ++ t₂ ++ ")"], compile registry (limit + 1) text = .error (fault.withLimit (limit + 1)) := by
  have hand := compile_group_behind h₁ hterm h₂ (w := ⟨some .and, none⟩) (Or.inl rfl)
  have hor := compile_group_behind h₁ hterm h₂ (w := ⟨some .or, none⟩) (Or.inr rfl)
  have handNot := compile_group_behind h₁ hterm h₂ (w := ⟨some .and, some .not⟩) (Or.inl rfl)
  have hnot := compile_not_group registry limit h₂
  rw [behind_group] at hand hor handNot
  constructor
  · intro q hq
    rw [hq] at hand hor handNot hnot
    refine ⟨hand, hor, handNot, hnot, ?_⟩
    intro e hregistry hlimit rows
    have hcompile : ∀ text, e.compileFilter text = compile registry (limit + 1) text := by
      intro text
      rw [Engine.compileFilter, hregistry, hlimit]
    have hkept := e.keep_of_compileFilter ((hcompile t₁).trans h₁) rows
    have hkept' := e.keep_of_compileFilter ((hcompile t₂).trans (compile_of_le (Nat.le_succ limit) hq))
    refine ⟨_, _, hkept, hkept' _, (e.keep_of_compileFilter ((hcompile _).trans hand) rows).trans ?_⟩
    rw [List.filter_filter]
    congr 2
    funext row
    exact Bool.and_comm (p row.record) (q row.record)
  · intro fault hfault
    rw [hfault] at hand hor handNot hnot
    simp only [List.forall_mem_cons]
    exact ⟨hand, hor, handNot, hnot, by simp⟩

/-- The disjunction in front needs no parentheses; the group behind it, in parentheses of its own, is too deep for
the limit. -/
theorem compile_composed_words :
    let registry : Registry String := ⟨[("Text", .scalar .string id)]⟩
    let ab := fun text : String => (compare text "a").isEq || (compare text "b").isEq
    let b := fun text : String => (compare text "b").isEq
    compile registry 1 "Text equals 'a' or Text equals 'b'" = .ok ab ∧
      compile registry 0 "Text equals 'b'" = .ok b ∧
      compile registry 1 "Text equals 'a' or Text equals 'b' and not (Text equals 'b')" =
        .ok (fun text => ab text && !b text) ∧
      compile registry 0 "(Text equals 'b')" = .error (.nestingTooDeep 0) ∧
      compile registry 1 "Text equals 'a' or Text equals 'b' and ((Text equals 'b'))" =
        .error (.nestingTooDeep 1) := by
  intro registry ab b
  have hscan : scan "Text equals 'a' or Text equals 'b'" =
      .ok [⟨⟨none, none⟩, .clause ⟨"Text", "equals", .literal "a"⟩⟩,
        ⟨⟨some .or, none⟩, .clause ⟨"Text", "equals", .literal "b"⟩⟩] := by decide +kernel
  have hscan₂ : scan "Text equals 'b'" = .ok [⟨⟨none, none⟩, .clause ⟨"Text", "equals", .literal "b"⟩⟩] := by
    decide +kernel
  have hscan₃ : scan "(Text equals 'b')" = .ok [⟨⟨none, none⟩, .group "Text equals 'b'"⟩] := by decide +kernel
  have h₁ : compile registry 1 "Text equals 'a' or Text equals 'b'" = .ok ab := compileAt_eq_compileRow hscan
  have h₂ : compile registry 0 "Text equals 'b'" = .ok b := compileAt_eq_compileRow hscan₂
  have h₃ : compile registry 0 "(Text equals 'b')" = .error (.nestingTooDeep 0) := compileAt_eq_compileRow hscan₃
  have hterm : scan "Text equals 'a' or Text equals 'b'" ≠ .ok [] := by simp [hscan]
  have hsafe : GroupSafe "Text equals 'b'" := by decide +kernel
  have hsafe' : GroupSafe "(Text equals 'b')" := by decide +kernel
  refine ⟨h₁, h₂, ((compile_composed h₁ hterm hsafe).1 b h₂).2.2.1, h₃, ?_⟩
  exact (compile_composed h₁ hterm hsafe').2 _ h₃ _ List.mem_cons_self

end RecordQuery.Filter
