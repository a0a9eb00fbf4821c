import RecordQuery.Proofs.Sorting.Iteration
import RecordQuery.Proofs.Text

/-!
How sort texts are spelled. The words of a text are those of its keys, with `thenBy` between one key and the next, and
there is one way at most to read them so. Two texts with `thenBy` between them are read one after the other: the keys of
the first and then those of the second, or the fault of the first text that has one. What the two compile to breaks the
ties of the first comparator with the second.
-/
namespace RecordQuery.Sorting

open Text (words isBlank)

variable {ρ : Type}

/-- The words of a sort text. -/
def wordsOf (text : String) : List String :=
  (words text.toList).map String.ofList

/-- The words of a key: a field, and the direction unless it is left to be ascending. No field has the name of the word
between keys. -/
inductive Key.Spells : Key → List String → Prop
  | bare {field : String} : field ≠ "thenBy" → Spells ⟨field, .asc⟩ [field]
  | asc {field : String} : field ≠ "thenBy" → Spells ⟨field, .asc⟩ [field, "asc"]
  | desc {field : String} : field ≠ "thenBy" → Spells ⟨field, .desc⟩ [field, "desc"]

/-- Words read as the pieces of one or more keys. -/
structure Reading (ws : List String) (ks : List Key) (pieces : List (List String)) : Prop where
  nonempty : pieces ≠ []
  words_eq : ws = ["thenBy"].intercalate pieces
  spells : List.Forall₂ Key.Spells ks pieces

/-! ## One key -/

theorem Direction.ofWord?_eq_some_iff {word : String} {direction : Direction} :
    Direction.ofWord? word = some direction ↔ word = direction.word := by
  constructor
  · intro h
    have hword := List.find?_some h
    exact (of_decide_eq_true hword).symm
  · rintro rfl
    cases direction <;> rfl

theorem Key.Spells.not_mem {key : Key} {ws : List String} (h : key.Spells ws) : "thenBy" ∉ ws := by
  cases h with
  | bare hfield | asc hfield | desc hfield => simpa using hfield.symm

theorem Key.Spells.ofWords_eq {key : Key} {ws : List String} (h : key.Spells ws) : Key.ofWords ws = .ok key := by
  cases h with
  | bare _ | asc _ | desc _ => rfl

/-- Between two separators, what is read as a key spells it. -/
theorem Key.spells_iff {key : Key} {ws : List String} (h : "thenBy" ∉ ws) :
    key.Spells ws ↔ Key.ofWords ws = .ok key := by
  constructor
  · exact Key.Spells.ofWords_eq
  · intro hws
    match ws, hws with
    | [field], hws =>
      obtain rfl := Except.ok.inj hws
      have hfield : field ≠ "thenBy" := by rintro rfl; simp at h
      exact .bare hfield
    | [field, word], hws =>
      have hfield : field ≠ "thenBy" := by rintro rfl; simp at h
      simp only [Key.ofWords] at hws
      split at hws
      · rename_i direction hword
        obtain rfl := Direction.ofWord?_eq_some_iff.mp hword
        obtain rfl := Except.ok.inj hws
        cases direction with
        | asc => exact .asc hfield
        | desc => exact .desc hfield
      · cases hws

/-! ## The keys of a text -/

theorem keys_eq (text : String) : keys text = ((wordsOf text).splitOn "thenBy").mapM Key.ofWords := rfl

/-- The pieces of a reading are what stands between the separators. -/
theorem reading_iff {ws : List String} {ks : List Key} {pieces : List (List String)} :
    Reading ws ks pieces ↔ pieces = ws.splitOn "thenBy" ∧ pieces.mapM Key.ofWords = .ok ks := by
  constructor
  · rintro ⟨hne, rfl, hspells⟩
    have hnot : ∀ piece ∈ pieces, "thenBy" ∉ piece := by
      intro piece hpiece
      obtain ⟨key, -, hkey⟩ := exists_of_forall₂ hspells hpiece
      exact hkey.not_mem
    refine ⟨(List.splitOn_intercalate "thenBy" hnot hne).symm, mapM_of_forall₂ ?_⟩
    exact hspells.flip.imp fun _ _ h => h.ofWords_eq
  · rintro ⟨rfl, hks⟩
    have hnot := not_mem_of_mem_splitOn "thenBy" ws
    have hpieces := (List.forall₂_and_left _ _).mpr ⟨hnot, forall₂_of_mapM hks⟩
    exact ⟨List.splitOn_ne_nil _ _, (List.intercalate_splitOn "thenBy").symm,
      (hpieces.imp fun _ _ h => (Key.spells_iff h.1).mpr h.2).flip⟩

theorem keys_eq_ok_iff {text : String} {ks : List Key} :
    keys text = .ok ks ↔ ∃ pieces, Reading (wordsOf text) ks pieces := by
  simp only [reading_iff, exists_eq_left, keys_eq]

/-! ## Two texts -/

theorem wordsOf_thenBy (s t : String) : wordsOf (s ++ " thenBy " ++ t) = wordsOf s ++ "thenBy" :: wordsOf t := by
  have htext : (s ++ " thenBy " ++ t).toList = s.toList ++ ' ' :: ("thenBy".toList ++ ' ' :: t.toList) := by simp
  have hblank : isBlank ' ' = true := by decide
  have hword : words "thenBy".toList = ["thenBy".toList] := by decide +kernel
  rw [wordsOf, htext, Text.words_append hblank, Text.words_append hblank, hword]
  simp [wordsOf]

/-- The keys of two texts with `thenBy` between them. -/
theorem keys_thenBy (s t : String) : keys (s ++ " thenBy " ++ t) = (do
    let ks ← keys s
    let ks' ← keys t
    .ok (ks ++ ks')) := by
  rw [keys_eq, wordsOf_thenBy, List.splitOn_append_cons_self, List.mapM_append]
  rfl

variable {registry : Registry ρ}

theorem exists_of_compileKeys {ks : List Key} {c : Comparator ρ} (h : compileKeys registry ks = .ok c) :
    ks ≠ [] ∧ ∃ cs, ks.mapM (·.comparator registry) = .ok cs ∧ c = Comparator.inTurn cs := by
  have hne : ks ≠ [] := by
    rintro rfl
    cases h
  obtain ⟨cs, hcs, -⟩ := exists_of_bind_eq_ok h
  rw [compileKeys_eq_ok hne hcs] at h
  exact ⟨hne, cs, hcs, (Except.ok.inj h).symm⟩

/-- The keys of one list behind those of another break its ties. -/
theorem compileKeys_append {ks ks' : List Key} {c c' : Comparator ρ} (h : compileKeys registry ks = .ok c)
    (h' : compileKeys registry ks' = .ok c') : compileKeys registry (ks ++ ks') = .ok (c.thenBy c') := by
  obtain ⟨hne, cs, hcs, rfl⟩ := exists_of_compileKeys h
  obtain ⟨-, cs', hcs', rfl⟩ := exists_of_compileKeys h'
  rw [← Comparator.inTurn_append]
  refine compileKeys_eq_ok (List.append_ne_nil_of_left_ne_nil hne ks') ?_
  rw [List.mapM_append, hcs, hcs']
  rfl

/-- A text is read as keys just when its words are those of one or more keys with `thenBy` between them, in one way
only. Two texts with `thenBy` between them are read as the first and then the second, well formed or not, and where both
compile so does the whole, to the comparator of the first with its ties broken by that of the second. -/
theorem keys_spelled :
    (∀ text ks, keys text = .ok ks ↔ ∃ pieces, Reading (wordsOf text) ks pieces) ∧
    (∀ ws ks ks' pieces pieces', Reading ws ks pieces → Reading ws ks' pieces' → ks = ks' ∧ pieces = pieces') ∧
    (∀ s t, keys (s ++ " thenBy " ++ t) = (do
      let ks ← keys s
      let ks' ← keys t
      .ok (ks ++ ks'))) ∧
    ∀ {ρ : Type} (registry : Registry ρ) (s t : String) (c d : Comparator ρ), compile registry s = .ok c →
      compile registry t = .ok d → ∃ both, compile registry (s ++ " thenBy " ++ t) = .ok both ∧
        ∀ a b, both a b = (c.thenBy d) a b := by
  refine ⟨fun text ks => keys_eq_ok_iff, ?_, keys_thenBy, ?_⟩
  · intro ws ks ks' pieces pieces' h h'
    obtain ⟨rfl, hks⟩ := reading_iff.mp h
    obtain ⟨rfl, hks'⟩ := reading_iff.mp h'
    exact ⟨Except.ok.inj (hks.symm.trans hks'), rfl⟩
  · intro ρ registry s t c d hs ht
    obtain ⟨ks, hks, hc⟩ := exists_of_bind_eq_ok hs
    obtain ⟨ks', hks', hd⟩ := exists_of_bind_eq_ok ht
    have hboth : keys (s ++ " thenBy " ++ t) = .ok (ks ++ ks') := by
      rw [keys_thenBy, hks, hks']
      rfl
    exact ⟨c.thenBy d, (compile_of_keys hboth).trans (compileKeys_append hc hd), fun a b => rfl⟩

/-- A field may have the name of a direction. Of two faulty texts the first one is reported. -/
theorem keys_spelled_words :
    let registry : Registry (Int × String) := ⟨[("Age", .scalar .int Prod.fst), ("asc", .scalar .string Prod.snd)]⟩
    keys " Age  desc thenBy\tasc" = .ok [⟨"Age", .desc⟩, ⟨"asc", .asc⟩] ∧
      keys ("Age up" ++ " thenBy " ++ "asc asc asc") = .error (.invalidDirection "up") ∧
      ∃ both, compile registry ("Age desc" ++ " thenBy " ++ "asc") = .ok both ∧ both (1, "a") (2, "b") = .gt ∧
        both (1, "a") (1, "b") = .lt := by
  intro registry
  obtain ⟨hspelled, -, hjoined, hcompiled⟩ := keys_spelled
  have hage : keys "Age desc" = .ok [⟨"Age", .desc⟩] := by decide +kernel
  have hasc : keys "asc" = .ok [⟨"asc", .asc⟩] := by decide +kernel
  have hup : keys "Age up" = .error (.invalidDirection "up") := by decide +kernel
  refine ⟨(hspelled _ _).mpr ⟨[["Age", "desc"], ["asc"]], ?_⟩, ?_, ?_⟩
  · exact ⟨by simp, by decide +kernel, .cons (.desc (by decide)) (.cons (.bare (by decide)) .nil)⟩
  · rw [hjoined, hup]
    rfl
  · have hc : compile registry "Age desc" = .ok fun a b => (compare a.1 b.1).swap := compile_of_keys hage
    have hd : compile registry "asc" = .ok fun a b => compare a.2 b.2 := compile_of_keys hasc
    obtain ⟨both, hboth, hsame⟩ := hcompiled registry _ _ _ _ hc hd
    refine ⟨both, hboth, ?_, ?_⟩
    all_goals
      rw [hsame]
      decide +kernel

end RecordQuery.Sorting
