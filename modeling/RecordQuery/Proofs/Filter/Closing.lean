import RecordQuery.Proofs.Filter.Group
import Mathlib.Algebra.BigOperators.Intervals

/-!
Where a group closes. Seen from the whole text, every character behind an opening parenthesis stands inside of a
literal or outside, and outside of literals a parenthesis opens a level or closes one. The group ends at the first
parenthesis that brings the level to zero; what stands behind that one has no say in it.
-/
namespace RecordQuery.Filter

open Text (isBlank skipBlank)
open Finset (Ico)

/-! ## Places in a text -/

/-- The first place from `position` on where no blank stands. -/
def tokenStart (text : List Char) (position : Nat) : Nat :=
  position + ((text.drop position).takeWhile isBlank).length

/-- A quote at this place would open a literal: a blank, `[` or `,` stands in front of it. -/
def opensAt (text : List Char) : Nat → Bool
  | 0 => false
  | i + 1 => text[i]?.any fun c => isBlank c || c ∈ ['[', ',']

/-- A quote at this place would close a literal: a blank, `)`, `]`, `,` or nothing stands behind it. -/
def closesAt (text : List Char) (i : Nat) : Bool :=
  text[i + 1]?.all fun c => isBlank c || c ∈ [')', ']', ',']

section

variable (text : List Char) (start : Nat)

/-- Whether the way from the parenthesis at `start` to the place `i` ends inside of a literal. -/
def inLiteral : Nat → Bool
  | 0 => false
  | i + 1 =>
    if start < i ∧ text[i]? = some '\'' then
      if inLiteral i then !closesAt text i else opensAt text i
    else inLiteral i

/-- What the character at `i` does to the level: outside of literals a parenthesis opens one or closes one. -/
def levelChange (i : Nat) : Int :=
  if inLiteral text start i then 0
  else if text[i]? = some '(' then 1
  else if text[i]? = some ')' then -1
  else 0

/-- How many parentheses are open at the place `i`, the one at `start` among them. -/
def level (i : Nat) : Int :=
  1 + ∑ j ∈ Ico (start + 1) i, levelChange text start j

/-- A parenthesis behind `start`, outside of literals, that brings the level to zero. -/
structure ClosesGroup (i : Nat) : Prop where
  behind : start < i
  parenthesis : text[i]? = some ')'
  outside : inLiteral text start i = false
  level : level text start (i + 1) = 0

instance (i : Nat) : Decidable (ClosesGroup text start i) :=
  decidable_of_iff (start < i ∧ text[i]? = some ')' ∧ inLiteral text start i = false ∧ level text start (i + 1) = 0)
    ⟨fun h => ⟨h.1, h.2.1, h.2.2.1, h.2.2.2⟩, fun h => ⟨h.1, h.2, h.3, h.4⟩⟩

/-- The walk has come to the place `i`, and knows where it stands. -/
structure Walk.At (w : Walk) (i : Nat) : Prop where
  behind : start < i
  inQuotes : w.inQuotes = inLiteral text start i
  depth : (w.depth : Int) + 1 = level text start i

end

variable {text : List Char} {start i : Nat}

theorem drop_tokenStart (text : List Char) (position : Nat) :
    text.drop (tokenStart text position) = skipBlank (text.drop position) := by
  have happend := List.takeWhile_append_dropWhile (p := isBlank) (l := text.drop position)
  calc text.drop (tokenStart text position)
      = (text.drop position).drop ((text.drop position).takeWhile isBlank).length := List.drop_drop.symm
    _ = ((text.drop position).takeWhile isBlank ++ skipBlank (text.drop position)).drop
          ((text.drop position).takeWhile isBlank).length := by rw [skipBlank, happend]
    _ = skipBlank (text.drop position) := List.drop_left

theorem opensAt_succ {previous : Char} (h : text[i]? = some previous) :
    opensAt text (i + 1) = opensQuote previous := by
  simp [opensAt, h, opensQuote, Bool.or_assoc]

theorem closesAt_eq {c : Char} {rest : List Char} (h : text.drop i = c :: rest) :
    closesAt text i = closesQuote rest := by
  have hnext : text[i + 1]? = rest[0]? := by
    rw [← List.getElem?_drop, h, List.getElem?_cons_succ]
  cases rest with
  | nil => simp [closesAt, hnext, closesQuote]
  | cons d rest => simp [closesAt, hnext, closesQuote, Bool.or_assoc]

/-- No literal opens in front of the group. -/
theorem inLiteral_of_le (h : i ≤ start + 1) : inLiteral text start i = false := by
  induction i with
  | zero => rfl
  | succ i ih =>
    have hle : ¬ start < i := by omega
    simp [inLiteral, hle, ih (by omega)]

theorem inLiteral_succ (text : List Char) (h : start < i) : inLiteral text start (i + 1) =
    if text[i]? = some '\'' then if inLiteral text start i then !closesAt text i else opensAt text i
    else inLiteral text start i := by
  simp [inLiteral, h]

theorem level_succ (text : List Char) (h : start < i) :
    level text start (i + 1) = level text start i + levelChange text start i := by
  rw [level, level, Finset.sum_Ico_succ_top h, add_assoc]

theorem getElem?_of_drop {c : Char} {rest : List Char} (h : text.drop i = c :: rest) : text[i]? = some c := by
  rw [← List.head?_drop, h, List.head?_cons]

/-! ## The walk against the places -/

theorem Walk.at_start (text : List Char) (start : Nat) : Walk.At text start ⟨0, false⟩ (start + 1) where
  behind := Nat.lt_succ_self start
  inQuotes := (inLiteral_of_le (Nat.le_refl _)).symm
  depth := by simp [level]

namespace Walk.At

variable {w w' : Walk} {previous c : Char} {rest : List Char}

/-- The walk ends where the group closes. -/
theorem step_eq_none_iff (hw : w.At text start i) (previous : Char) (hrest : text.drop i = c :: rest) :
    w.step previous c rest = none ↔ ClosesGroup text start i := by
  have hc : text[i]? = some c := getElem?_of_drop hrest
  have hlevel := level_succ text hw.behind
  have hdepth := hw.depth
  constructor
  · intro hs
    obtain rfl := Walk.step_eq_none hs
    obtain rfl := Walk.eq_of_step_eq_none hs
    have houtside : inLiteral text start i = false := hw.inQuotes.symm
    refine ⟨hw.behind, hc, houtside, ?_⟩
    rw [hlevel, ← hdepth]
    simp [levelChange, houtside, hc]
  · intro hcloses
    obtain rfl : c = ')' := Option.some.inj (hc.symm.trans hcloses.parenthesis)
    have hquotes : w.inQuotes = false := hw.inQuotes.trans hcloses.outside
    have hzero : w.depth = 0 := by
      rw [hcloses.level] at hlevel
      simp only [levelChange, hcloses.outside, hc] at hlevel
      simp at hlevel
      omega
    simp [Walk.step, hquotes, hzero]

/-- A step of the walk goes one place on. -/
theorem step (hw : w.At text start i) (hrest : text.drop i = c :: rest) (hprevious : text[i - 1]? = some previous)
    (hs : w.step previous c rest = some w') : w'.At text start (i + 1) := by
  have hc : text[i]? = some c := getElem?_of_drop hrest
  have hopens : opensAt text i = opensQuote previous := by
    rw [← Nat.sub_add_cancel (Nat.one_le_of_lt hw.behind)]
    exact opensAt_succ hprevious
  have hliteral := inLiteral_succ text hw.behind
  have hlevel := level_succ text hw.behind
  rw [hc, closesAt_eq hrest, hopens] at hliteral
  rw [levelChange, hc] at hlevel
  obtain ⟨depth, inQuotes⟩ := w
  obtain ⟨hbehind, rfl, hdepth⟩ := hw
  dsimp only at hdepth
  refine ⟨Nat.lt_succ_of_lt hbehind, ?_, ?_⟩
  · rw [hliteral]
    unfold Walk.step at hs
    grind
  · rw [hlevel, ← hdepth]
    unfold Walk.step at hs
    grind

end Walk.At

/-- A group that is read goes up to the first parenthesis that closes it. -/
theorem inner?_closes {w : Walk} {previous : Char} {inner rest : List Char} (hw : w.At text start i)
    (hprevious : text[i - 1]? = some previous) (h : inner? w previous (text.drop i) = some (inner, rest)) :
    ClosesGroup text start (i + inner.length) ∧ ∀ j, i ≤ j → j < i + inner.length → ¬ ClosesGroup text start j := by
  induction hcs : text.drop i generalizing w previous i inner with
  | nil => simp [hcs, inner?] at h
  | cons c cs ih =>
    have hiff := hw.step_eq_none_iff previous hcs
    rw [hcs, inner?] at h
    split at h
    · rename_i hs
      obtain ⟨rfl, rfl⟩ := Prod.mk.inj (Option.some.inj h)
      exact ⟨hiff.mp hs, fun j hj hlt => absurd hlt (Nat.not_lt.mpr hj)⟩
    · rename_i w' hs
      obtain ⟨⟨inner', rest'⟩, h', heq⟩ := Option.map_eq_some_iff.mp h
      obtain ⟨rfl, rfl⟩ := Prod.mk.inj heq
      have hnext : text.drop (i + 1) = cs := by rw [← List.tail_drop, hcs, List.tail_cons]
      rw [← hnext] at h'
      obtain ⟨hcloses, hfirst⟩ := ih (hw.step hcs hprevious hs) (getElem?_of_drop hcs) h' hnext
      have hlength : i + 1 + inner'.length = i + (c :: inner').length := by rw [List.length_cons]; omega
      rw [hlength] at hcloses hfirst
      refine ⟨hcloses, fun j hj hlt => ?_⟩
      rcases hj.eq_or_lt with rfl | hgt
      · exact fun hclosed => by simp [hiff.mpr hclosed] at hs
      · exact hfirst j hgt hlt

/-- Where the walk comes to the end of the text no parenthesis closes the group. -/
theorem not_closesGroup_of_inner? {w : Walk} {previous : Char} (hw : w.At text start i)
    (hprevious : text[i - 1]? = some previous) (h : inner? w previous (text.drop i) = none) {j : Nat} (hj : i ≤ j) :
    ¬ ClosesGroup text start j := by
  induction hcs : text.drop i generalizing w previous i with
  | nil =>
    intro hcloses
    have hend : text[j]? = none := List.getElem?_eq_none ((List.drop_eq_nil_iff.mp hcs).trans hj)
    rw [hcloses.parenthesis] at hend
    cases hend
  | cons c cs ih =>
    have hiff := hw.step_eq_none_iff previous hcs
    rw [hcs, inner?] at h
    split at h
    · cases h
    · rename_i w' hs
      rw [Option.map_eq_none_iff] at h
      rcases hj.eq_or_lt with rfl | hgt
      · exact fun hclosed => by simp [hiff.mpr hclosed] at hs
      · have hnext : text.drop (i + 1) = cs := by rw [← List.tail_drop, hcs, List.tail_cons]
        rw [← hnext] at h
        exact ih (hw.step hcs hprevious hs) (getElem?_of_drop hcs) h hgt hnext

/-! ## Groups -/

/-- What stands at a place where a group may start, and what reading it gives: no group, the text up to the first
parenthesis that closes it, or the fault of one that never closes. -/
inductive GroupAt (text : List Char) (start : Nat) : Scanned (Option String) → Prop
  | absent : text[start]? ≠ some '(' → GroupAt text start (.ok none (text.drop start))
  | closed {i : Nat} : text[start]? = some '(' → ClosesGroup text start i →
      (∀ j < i, ¬ ClosesGroup text start j) →
      GroupAt text start (.ok (some (String.ofList ((text.take i).drop (start + 1)))) (text.drop (i + 1)))
  | unclosed : text[start]? = some '(' → (∀ i, ¬ ClosesGroup text start i) →
      GroupAt text start (.fail (.unbalancedParenthesis (String.ofList (text.drop start))) (text.drop start))

theorem GroupAt.det {r r' : Scanned (Option String)} (h : GroupAt text start r) (h' : GroupAt text start r') :
    r = r' := by
  cases h with
  | absent hne =>
    cases h' with
    | absent => rfl
    | closed hopening | unclosed hopening => exact absurd hopening hne
  | @closed i hopening hcloses hfirst =>
    cases h' with
    | absent hne => exact absurd hopening hne
    | unclosed _ hnone => exact absurd hcloses (hnone i)
    | @closed j _ hcloses' hfirst' =>
      have hle : i ≤ j := Nat.le_of_not_lt fun hlt => hfirst j hlt hcloses'
      have hge : j ≤ i := Nat.le_of_not_lt fun hlt => hfirst' i hlt hcloses
      rw [Nat.le_antisymm hle hge]
  | unclosed hopening hnone =>
    cases h' with
    | absent hne => exact absurd hopening hne
    | closed _ hcloses => exact absurd hcloses (hnone _)
    | unclosed => rfl

/-- What a walk reads from a place on, as a part of the text. -/
theorem inner?_eq_slice {w : Walk} {previous : Char} {inner rest : List Char}
    (h : inner? w previous (text.drop i) = some (inner, rest)) :
    (text.take (i + inner.length)).drop i = inner ∧ text.drop (i + inner.length + 1) = rest := by
  have hspelled := inner?_eq_some h
  constructor
  · rw [List.drop_take, hspelled, Nat.add_sub_cancel_left, List.take_left]
  · rw [← List.tail_drop, ← List.drop_drop, hspelled, List.drop_left, List.tail_cons]

theorem groupAt_group (text : List Char) (position : Nat) :
    GroupAt text (tokenStart text position) (group (text.drop position)) := by
  have hskip := drop_tokenStart text position
  generalize tokenStart text position = start at hskip
  by_cases hopening : text[start]? = some '('
  · obtain ⟨rest, hrest⟩ : ∃ rest, text.drop start = '(' :: rest :=
      List.head?_eq_some_iff.mp (by rwa [List.head?_drop])
    have hnext : text.drop (start + 1) = rest := by rw [← List.tail_drop, hrest, List.tail_cons]
    have hstart := Walk.at_start text start
    simp only [group, ← hskip, hrest]
    rw [← hnext] at hrest ⊢
    cases hinner : inner? ⟨0, false⟩ '(' (text.drop (start + 1)) with
    | some found =>
      obtain ⟨inner, behind⟩ := found
      obtain ⟨hcloses, hfirst⟩ := inner?_closes hstart hopening hinner
      obtain ⟨hslice, hbehind⟩ := inner?_eq_slice hinner
      rw [← hslice, ← hbehind]
      exact .closed hopening hcloses fun j hlt hclosed => hfirst j hclosed.behind hlt hclosed
    | none =>
      dsimp only
      rw [← hrest]
      exact .unclosed hopening fun i hcloses =>
        not_closesGroup_of_inner? hstart hopening hinner hcloses.behind hcloses
  · have hhead : (skipBlank (text.drop position)).head? ≠ some '(' := by
      rwa [← hskip, List.head?_drop]
    rw [group_eq_none_of_head? hhead, ← hskip]
    exact .absent hopening

/-- From any place in any text, reading a group gives what stands there: behind blanks, the text from an opening
parenthesis up to the first one that closes it. And the group alone decides: with any other text behind it, it is read
again as it was. -/
theorem group_closes (text : List Char) (position : Nat) :
    (∀ r, group (text.drop position) = r ↔ GroupAt text (tokenStart text position) r) ∧
      ∀ inner rest, group (text.drop position) = .ok (some inner) rest →
        ∀ behind, group ('(' :: (inner.toList ++ ')' :: behind)) = .ok (some inner) behind := by
  constructor
  · intro r
    constructor
    · rintro rfl
      exact groupAt_group text position
    · exact fun h => (groupAt_group text position).det h
  · intro inner rest h behind
    obtain ⟨cs, -, hinner⟩ := exists_inner?_of_group h
    have hgroup := group_parenthesis Blanks.nil (inner?_local hinner behind)
    rwa [String.ofList_toList] at hgroup

/-- The parentheses in literals do not count, neither behind a comma nor behind a blank. -/
theorem group_closes_literals :
    let text := "not (A in [x,')'] or (B equals '(')) and C".toList
    let inner := "A in [x,')'] or (B equals '(')"
    ClosesGroup text 4 35 ∧ group (text.drop 3) = .ok (some inner) " and C".toList ∧
      group ('(' :: (inner.toList ++ ')' :: "') or (".toList)) = .ok (some inner) "') or (".toList := by
  intro text inner
  have hcloses : ClosesGroup text 4 35 := by decide +kernel
  have hfirst : ∀ j < 35, ¬ ClosesGroup text 4 j := by decide +kernel
  have hgroup : group (text.drop 3) = .ok (some inner) " and C".toList :=
    ((group_closes text 3).1 _).mpr (.closed (by decide +kernel) hcloses hfirst)
  exact ⟨hcloses, hgroup, (group_closes text 3).2 inner _ hgroup _⟩

end RecordQuery.Filter
