import RecordQuery.Json.Printer
import RecordQuery.Json.Reader

/-!
JSON text that is written reads back. A string closes at its own quote, since every quote inside it is escaped, and an
array or object at its own mark; so what stands behind a value does not matter to it. Numbers are left out: they end
where the next character is none of theirs, and some floating-point numbers are read with an error in the last place.
-/
namespace RecordQuery.Json

/-! ## Strings -/

theorem hexValue?_digitChar {n : Nat} (h : n < 16) : hexValue? (Nat.digitChar n) = some n := by
  have hall : ∀ n < 16, hexValue? (Nat.digitChar n) = some n := by decide
  exact hall n h

/-- A control character is written as the code unit that it is. -/
theorem codePoint?_control {c : Char} (h : c.toNat < 0x20) (rest : List Char) :
    codePoint? ('0' :: '0' :: Nat.digitChar (c.toNat / 16) :: Nat.digitChar (c.toNat % 16) :: rest) =
      some (c, rest) := by
  have hhigh := hexValue?_digitChar (show c.toNat / 16 < 16 by omega)
  have hlow := hexValue?_digitChar (Nat.mod_lt c.toNat (by decide : 16 > 0))
  have hzero : hexValue? '0' = some 0 := by decide
  have hunit : unit? ('0' :: '0' :: Nat.digitChar (c.toNat / 16) :: Nat.digitChar (c.toNat % 16) :: rest) =
      some (c.toNat, rest) := by
    simp only [unit?, hzero, hhigh, hlow, Option.bind_eq_bind, Option.bind_some, Option.some.injEq, Prod.mk.injEq,
      and_true]
    omega
  have hnotHigh : isHighSurrogate c.toNat = false := by
    simp only [isHighSurrogate, Bool.and_eq_false_iff, decide_eq_false_iff_not]
    omega
  have hnotLow : isLowSurrogate c.toNat = false := by
    simp only [isLowSurrogate, Bool.and_eq_false_iff, decide_eq_false_iff_not]
    omega
  simp [codePoint?, hunit, hnotHigh, hnotLow]

theorem character?_escaped (c : Char) (rest : List Char) : character? (escaped c ++ rest) = some (c, rest) := by
  unfold escaped
  split
  case h_8 hquote hbackslash _ _ _ _ _ =>
    split
    · rename_i h
      exact codePoint?_control h rest
    · rename_i h
      have hplain : ¬ (c = '\\' || c = '"' || decide (c.toNat < 0x20)) = true := by simp_all
      rw [List.singleton_append, character?.eq_2 c rest (by simp_all), if_neg hplain]
  all_goals rfl

theorem head?_escaped (c : Char) (rest : List Char) : (escaped c ++ rest).head? ≠ some '"' := by
  unfold escaped
  split
  case h_8 =>
    split
    · simp
    · simp_all
  all_goals simp

/-- A string that is written ends at its closing quote. -/
theorem characters?_quoted (text rest : List Char) :
    characters? (text.flatMap escaped ++ '"' :: rest) = some (text, rest) := by
  induction text with
  | nil => rw [List.flatMap_nil, List.nil_append, characters?]
  | cons c text ih =>
    rw [List.flatMap_cons, List.append_assoc]
    have hquote : ∀ behind, escaped c ++ (text.flatMap escaped ++ '"' :: rest) ≠ '"' :: behind := by
      intro behind heq
      apply head?_escaped c (text.flatMap escaped ++ '"' :: rest)
      rw [heq]
      rfl
    rw [characters?.eq_2 _ hquote]
    split
    · rename_i c' rest' hread
      rw [character?_escaped] at hread
      obtain ⟨rfl, rfl⟩ : c = c' ∧ text.flatMap escaped ++ '"' :: rest = rest' := by simpa using hread
      rw [ih]
      rfl
    · rename_i hread
      rw [character?_escaped] at hread
      cases hread

/-! ## Items -/

theorem skipSpace_cons {c : Char} (h : isSpace c = false) (cs : List Char) : skipSpace (c :: cs) = c :: cs := by
  rw [skipSpace, List.dropWhile_cons, h]
  rfl

theorem intercalate_comma (first : List Char) (others : List (List Char)) :
    [','].intercalate (first :: others) = first ++ others.flatMap (',' :: ·) := by
  induction others generalizing first with
  | nil => simp
  | cons second others ih => rw [List.intercalate_cons_cons, ih, List.flatMap_cons, List.append_assoc]; rfl

section

variable {α : Type} {item : Reader α} {text : α → List Char} {close : Char} {items : List α}
  (hspace : isSpace close = false) (hitem : ∀ a ∈ items, ∀ rest, item.run (text a ++ rest) = some (a, rest))

include hspace hitem

/-- Items that stand behind another one, each behind its comma. -/
theorem more?_written (hcomma : close ≠ ',') (rest : List Char) :
    more? item close (items.flatMap (fun a => ',' :: text a) ++ close :: rest) = some (items, rest) := by
  induction items with
  | nil =>
    rw [List.flatMap_nil, List.nil_append, more?, skipSpace_cons hspace]
    exact if_pos rfl
  | cons a items ih =>
    have hskip := skipSpace_cons (show isSpace ',' = false by decide)
      (text a ++ (items.flatMap (fun a => ',' :: text a) ++ close :: rest))
    have hrun := hitem a List.mem_cons_self (items.flatMap (fun a => ',' :: text a) ++ close :: rest)
    have hmore := ih fun b hb => hitem b (List.mem_cons_of_mem a hb)
    rw [List.flatMap_cons, List.cons_append, List.cons_append, List.append_assoc, more?, hskip]
    simp only [hcomma.symm, if_false, if_true]
    split
    · rename_i b rest' hread
      rw [hrun] at hread
      obtain ⟨rfl, rfl⟩ := Prod.mk.inj (Option.some.inj hread)
      rw [hmore]
      rfl
    · rename_i hread
      rw [hrun] at hread
      cases hread

theorem items?_written (hcomma : close ≠ ',')
    (hstart : ∀ a ∈ items, ∃ c cs, text a = c :: cs ∧ isSpace c = false ∧ c ≠ close) (rest : List Char) :
    items? item close (List.intercalate [','] (items.map text) ++ close :: rest) = some (items, rest) := by
  cases items with
  | nil =>
    show items? item close (close :: rest) = _
    rw [items?, skipSpace_cons hspace]
    exact if_pos rfl
  | cons a items =>
    obtain ⟨c, cs, htext, hc, hne⟩ := hstart a List.mem_cons_self
    have hrun := hitem a List.mem_cons_self (items.flatMap (fun a => ',' :: text a) ++ close :: rest)
    have hmore := more?_written hspace (fun b hb => hitem b (List.mem_cons_of_mem a hb)) hcomma rest
    have hwritten : List.intercalate [','] ((a :: items).map text) = text a ++ items.flatMap fun a => ',' :: text a := by
      rw [List.map_cons, intercalate_comma, List.flatMap_map]
    rw [hwritten, List.append_assoc, items?, htext, List.cons_append, skipSpace_cons hc]
    rw [htext, List.cons_append] at hrun
    simp only [hne, if_false, hrun, hmore, Option.bind_eq_bind, Option.bind_some]

end

/-! ## Values -/

/-- A value without numbers, in which arrays and objects stand at most so deep. -/
inductive PlainWithin : Nat → Json → Prop
  | null {depth : Nat} : PlainWithin depth null
  | bool {depth : Nat} (value : Bool) : PlainWithin depth (bool value)
  | string {depth : Nat} (text : String) : PlainWithin depth (string text)
  | array {depth : Nat} {items : List Json} (h : ∀ item ∈ items, PlainWithin depth item) :
      PlainWithin (depth + 1) (array items)
  | object {depth : Nat} {members : List (String × Json)} (h : ∀ member ∈ members, PlainWithin depth member.2) :
      PlainWithin (depth + 1) (object members)

theorem compactItems_eq_map (items : List Json) : compactItems items = items.map compact := by
  induction items with
  | nil => rfl
  | cons item items ih => rw [compactItems, ih, List.map_cons]

def compactMember (member : String × Json) : List Char :=
  quoted member.1 ++ ':' :: compact member.2

theorem compactMembers_eq_map (members : List (String × Json)) :
    compactMembers members = members.map compactMember := by
  induction members with
  | nil => rfl
  | cons member members ih =>
    obtain ⟨name, value⟩ := member
    rw [compactMembers, ih, List.map_cons]
    rfl

/-- A value begins with a character of its own. -/
theorem PlainWithin.compact_eq_cons {depth : Nat} {json : Json} (h : PlainWithin depth json) :
    ∃ c cs, compact json = c :: cs ∧ isSpace c = false ∧ c ≠ ']' := by
  cases h with
  | null => exact ⟨'n', _, rfl, rfl, by decide⟩
  | bool value => cases value <;> exact ⟨_, _, rfl, rfl, by decide⟩
  | string text => exact ⟨'"', _, rfl, rfl, by decide⟩
  | array => exact ⟨'[', _, rfl, rfl, by decide⟩
  | object => exact ⟨'{', _, rfl, rfl, by decide⟩

theorem member_run_written {value : Reader Json} {entry : String × Json} {rest : List Char}
    (h : value.run (compact entry.2 ++ rest) = some (entry.2, rest)) :
    (member value).run (compactMember entry ++ rest) = some (entry, rest) := by
  obtain ⟨name, json⟩ := entry
  have htext : compactMember (name, json) ++ rest =
      '"' :: (name.toList.flatMap escaped ++ '"' :: (':' :: (compact json ++ rest))) := by
    simp [compactMember, quoted]
  simp only [member, htext, skipSpace_cons (show isSpace '"' = false by decide), characters?_quoted,
    skipSpace_cons (show isSpace ':' = false by decide), Option.bind_eq_bind, Option.bind_some, h,
    String.ofList_toList]

theorem exists_value_eq (depth : Nat) : ∃ nested?, value depth = valueOf nested? := by
  cases depth <;> exact ⟨_, rfl⟩

/-- What is written is read, whatever stands behind it. -/
theorem PlainWithin.run_compact {depth : Nat} {json : Json} (h : PlainWithin depth json) (rest : List Char) :
    (value depth).run (compact json ++ rest) = some (json, rest) := by
  induction h generalizing rest with
  | @null depth =>
    obtain ⟨nested?, hvalue⟩ := exists_value_eq depth
    rw [hvalue]
    rfl
  | @bool depth value =>
    obtain ⟨nested?, hvalue⟩ := exists_value_eq depth
    rw [hvalue]
    cases value <;> rfl
  | @string depth text =>
    obtain ⟨nested?, hvalue⟩ := exists_value_eq depth
    have htext : compact (.string text) ++ rest = '"' :: (text.toList.flatMap escaped ++ '"' :: rest) := by
      simp [compact, quoted]
    rw [hvalue, htext]
    simp only [valueOf, skipSpace_cons (show isSpace '"' = false by decide), characters?_quoted, Option.map_some,
      String.ofList_toList]
  | @array depth items h ih =>
    have htext : compact (.array items) ++ rest = '[' :: ([','].intercalate (items.map compact) ++ ']' :: rest) := by
      simp [compact, compactItems_eq_map]
    have hitems : items? (value depth) ']' ([','].intercalate (items.map compact) ++ ']' :: rest) = some (items, rest) :=
      items?_written rfl ih (by decide) (fun item hitem => (h item hitem).compact_eq_cons) rest
    rw [htext, value]
    simp only [valueOf, skipSpace_cons (show isSpace '[' = false by decide), hitems, Option.bind_eq_bind,
      Option.bind_some]
  | @object depth members h ih =>
    have htext : compact (.object members) ++ rest =
        '{' :: ([','].intercalate (members.map compactMember) ++ '}' :: rest) := by
      simp [compact, compactMembers_eq_map]
    have hstart : ∀ member ∈ members, ∃ c cs, compactMember member = c :: cs ∧ isSpace c = false ∧ c ≠ '}' :=
      fun member _ => ⟨'"', _, rfl, rfl, by decide⟩
    have hmembers : items? (member (value depth)) '}' ([','].intercalate (members.map compactMember) ++ '}' :: rest) =
        some (members, rest) :=
      items?_written rfl (fun member hmember rest => member_run_written (ih member hmember rest)) (by decide) hstart rest
    rw [htext, value]
    simp only [valueOf, skipSpace_cons (show isSpace '{' = false by decide), hmembers, Option.bind_eq_bind,
      Option.bind_some]

theorem ofText?_toText {json : Json} (h : PlainWithin maxDepth json) : ofText? json.toText = some json := by
  have hread := h.run_compact []
  rw [List.append_nil] at hread
  rw [ofText?, ofTextWithin?, toText, String.toList_ofList, hread]
  rfl

end RecordQuery.Json
