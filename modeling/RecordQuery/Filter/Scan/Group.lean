import RecordQuery.Query.Error
import RecordQuery.Text.Blank

/-!
Scanning connectives and groups. A quote opens a literal only behind a blank, `[` or `,`, and closes it only in
front of a blank, `)`, `]`, `,` or the end, so that a literal may hold spaces and quotes (`'it's here'`).

A scanning function takes the text that is left and gives back what is left after it, also when it fails. What
it reads stands there in full: `group_eq_some` and `keyword?_eq_some` spell the text out.
-/
namespace RecordQuery.Filter

open Text (isBlank skipBlank trim)

/-- What a scanning function gives: what it read, or the fault that it met, and the text that is left. -/
structure Scanned (α : Type) where
  result : Except QueryError α
  rest : List Char

namespace Scanned

variable {α β : Type}

def ok (a : α) (rest : List Char) : Scanned α :=
  ⟨.ok a, rest⟩

def fail (e : QueryError) (rest : List Char) : Scanned α :=
  ⟨.error e, rest⟩

def map (f : α → β) (s : Scanned α) : Scanned β :=
  ⟨s.result.map f, s.rest⟩

theorem ok_inj {a a' : α} {rest rest' : List Char} : ok a rest = ok a' rest' ↔ a = a' ∧ rest = rest' := by
  simp [ok]

theorem fail_ne_ok {e : QueryError} {a : α} {rest rest' : List Char} : fail e rest ≠ ok a rest' := by
  simp [fail, ok]

theorem map_eq_ok {f : α → β} {s : Scanned α} {b : β} {rest : List Char}
    (h : s.map f = ⟨.ok b, rest⟩) : ∃ a, s = ⟨.ok a, rest⟩ ∧ f a = b := by
  obtain ⟨result, rest'⟩ := s
  cases result with
  | error e => simp [map, Except.map] at h
  | ok a =>
    simp only [map, Except.map, Scanned.mk.injEq, Except.ok.injEq] at h
    exact ⟨a, by simp [h.2], h.1⟩

end Scanned

/-- Reads up to a blank or one of the characters in `stops`. -/
def word (stops cs : List Char) : List Char × List Char :=
  let inWord c := !(isBlank c || stops.contains c)
  (cs.takeWhile inWord, cs.dropWhile inWord)

theorem word_append (stops cs : List Char) : (word stops cs).1 ++ (word stops cs).2 = cs :=
  List.takeWhile_append_dropWhile

theorem word_length_le (stops cs : List Char) : (word stops cs).2.length ≤ cs.length :=
  (List.dropWhile_sublist _).length_le

/-- Whether more than blanks is left; the blanks are passed over. -/
def hasMore (cs : List Char) : Bool × List Char :=
  (!(skipBlank cs).isEmpty, skipBlank cs)

/-! ## Connectives -/

/-- A keyword ends in front of a blank, an opening parenthesis or the end. -/
def endsKeyword : List Char → Bool
  | [] => true
  | c :: _ => isBlank c || c = '('

/-- Reads the keyword of a given connective. -/
def keyword? (k : Connective) (cs : List Char) : Option (Connective × List Char) :=
  let rest := cs.drop k.word.length
  if k.word.toList.isPrefixOf cs && endsKeyword rest then some (k, rest) else none

/-- Reads a connective, if one comes next; the blanks before it are passed over in any case. -/
def connective (cs : List Char) : Option Connective × List Char :=
  let cs := skipBlank cs
  match Connective.all.findSome? fun k => keyword? k cs with
  | some (k, rest) => (some k, rest)
  | none => (none, cs)

theorem keyword?_eq_some {k k' : Connective} {cs rest : List Char}
    (h : keyword? k cs = some (k', rest)) :
    k' = k ∧ cs = k.word.toList ++ rest ∧ endsKeyword rest = true := by
  simp only [keyword?, Bool.and_eq_true, Option.ite_none_right_eq_some, Option.some.injEq,
    Prod.mk.injEq] at h
  obtain ⟨⟨hp, he⟩, rfl, rfl⟩ := h
  obtain ⟨t, rfl⟩ := List.isPrefixOf_iff_prefix.1 hp
  refine ⟨rfl, ?_, he⟩
  rw [← String.length_toList, List.drop_left]

theorem connective_length_le (cs : List Char) : (connective cs).2.length ≤ cs.length := by
  have hle := Text.skipBlank_length_le cs
  simp only [connective]
  split
  · rename_i k rest h
    obtain ⟨k', _, h⟩ := List.exists_of_findSome?_eq_some h
    have := congrArg List.length (keyword?_eq_some h).2.1
    simp only [List.length_append] at this
    dsimp only
    omega
  · exact hle

/-! ## Groups -/

/-- Whether a quote behind `previous` opens a literal. -/
def opensQuote (previous : Char) : Bool :=
  isBlank previous || previous = '[' || previous = ','

/-- Whether a quote in front of this text closes a literal. -/
def closesQuote : List Char → Bool
  | [] => true
  | next :: _ => isBlank next || next = ')' || next = ']' || next = ','

/-- Where a walk through a group stands: how many inner parentheses are open, and whether it is in a literal. -/
structure Walk where
  depth : Nat
  inQuotes : Bool

/-- One character of the walk, with its neighbours; `none` when it closes the group. Parentheses inside a
literal do not count. -/
def Walk.step (w : Walk) (previous c : Char) (rest : List Char) : Option Walk :=
  if w.inQuotes then some ⟨w.depth, !(c = '\'' && closesQuote rest)⟩
  else if c = '(' then some ⟨w.depth + 1, false⟩
  else if c = '\'' then some ⟨w.depth, opensQuote previous⟩
  else if c = ')' then
    match w.depth with
    | 0 => none
    | depth + 1 => some ⟨depth, false⟩
  else some w

/-- Reads up to the parenthesis that closes the group, and past it. -/
def inner? (w : Walk) (previous : Char) : List Char → Option (List Char × List Char)
  | [] => none
  | c :: rest =>
    match w.step previous c rest with
    | none => some ([], rest)
    | some w => (inner? w c rest).map fun (inner, rest) => (c :: inner, rest)

/-- Reads a group, if an opening parenthesis comes next, and gives its inner text. -/
def group (cs : List Char) : Scanned (Option String) :=
  match skipBlank cs with
  | '(' :: rest =>
    match inner? ⟨0, false⟩ '(' rest with
    | some (inner, rest) => .ok (some (String.ofList inner)) rest
    | none => .fail (.unbalancedParenthesis (String.ofList ('(' :: rest))) ('(' :: rest)
  | cs => .ok none cs

theorem Walk.step_eq_none {w : Walk} {previous c : Char} {rest : List Char}
    (h : w.step previous c rest = none) : c = ')' := by
  unfold Walk.step at h
  grind

theorem inner?_eq_some {w : Walk} {previous : Char} {cs inner rest : List Char}
    (h : inner? w previous cs = some (inner, rest)) : cs = inner ++ ')' :: rest := by
  induction cs generalizing w previous inner with
  | nil => simp [inner?] at h
  | cons c cs ih =>
    unfold inner? at h
    split at h
    · rename_i hs
      simp only [Option.some.injEq, Prod.mk.injEq] at h
      obtain ⟨rfl, rfl⟩ := h
      simp [Walk.step_eq_none hs]
    · obtain ⟨⟨inner', rest'⟩, h', heq⟩ := Option.map_eq_some_iff.1 h
      simp only [Prod.mk.injEq] at heq
      obtain ⟨rfl, rfl⟩ := heq
      simp [ih h']

/-- A group that is read stands there in full, behind blanks. -/
theorem group_eq_some {cs rest : List Char} {inner : String}
    (h : group cs = ⟨.ok (some inner), rest⟩) :
    skipBlank cs = '(' :: inner.toList ++ ')' :: rest := by
  unfold group at h
  split at h
  · rename_i r hr
    split at h
    · rename_i h'
      simp only [Scanned.ok, Scanned.mk.injEq, Except.ok.injEq, Option.some.injEq] at h
      obtain ⟨rfl, rfl⟩ := h
      simp [hr, inner?_eq_some h']
    · simp [Scanned.fail] at h
  · simp [Scanned.ok] at h

theorem group_eq_none {cs rest : List Char} (h : group cs = ⟨.ok none, rest⟩) :
    rest = skipBlank cs := by
  unfold group at h
  split at h
  · split at h <;> simp [Scanned.ok, Scanned.fail] at h
  · simp only [Scanned.ok, Scanned.mk.injEq, true_and] at h
    exact h.symm

theorem group_length {cs rest : List Char} {inner : String}
    (h : group cs = ⟨.ok (some inner), rest⟩) : inner.length + rest.length < cs.length := by
  have hle := Text.skipBlank_length_le cs
  rw [group_eq_some h] at hle
  simp only [List.cons_append, List.length_cons, List.length_append, String.length_toList] at hle
  omega

end RecordQuery.Filter
