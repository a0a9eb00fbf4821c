import RecordQuery.Json.Numeral
import RecordQuery.Json.Quoted

/-!
Reading JSON text. The grammar is the strict one, without comments and trailing commas. A reader carries the
proof that it uses up some of its text, so that the items of an array are read by recursion on what is left.
How deep arrays and objects may stand in one another is bounded by a number given from outside.
-/
namespace RecordQuery.Json

/-- A reader takes a value off the front of a text and leaves strictly less than it was given. -/
structure Reader (α : Type) where
  run : List Char → Option (α × List Char)
  shorter : ∀ {cs a rest}, run cs = some (a, rest) → rest.length < cs.length

def isSpace (c : Char) : Bool :=
  c = ' ' || c = '\t' || c = '\n' || c = '\r'

def skipSpace (cs : List Char) : List Char :=
  cs.dropWhile isSpace

theorem skipSpace_length_le (cs : List Char) : (skipSpace cs).length ≤ cs.length :=
  (List.dropWhile_sublist _).length_le

theorem length_lt_of_skipSpace {cs rest : List Char} {c : Char} (h : skipSpace cs = c :: rest) :
    rest.length < cs.length := by
  have := skipSpace_length_le cs
  rw [h] at this
  exact this

/-! ## Items and members -/

/-- Reads what follows an item: more items, each behind a comma, and the closing mark. -/
def more? {α : Type} (item : Reader α) (close : Char) (cs : List Char) :
    Option (List α × List Char) :=
  match _hc : skipSpace cs with
  | [] => none
  | c :: rest =>
    if c = close then some ([], rest)
    else if c = ',' then
      match _hi : item.run rest with
      | some (a, rest) => (more? item close rest).map fun (items, rest) => (a :: items, rest)
      | none => none
    else none
termination_by cs.length
decreasing_by exact Nat.lt_trans (item.shorter _hi) (length_lt_of_skipSpace _hc)

/-- Reads what follows an opening mark: the items, if any, and the closing mark. -/
def items? {α : Type} (item : Reader α) (close : Char) (cs : List Char) :
    Option (List α × List Char) :=
  match skipSpace cs with
  | [] => none
  | c :: rest =>
    if c = close then some ([], rest)
    else do
      let (a, rest) ← item.run (c :: rest)
      let (items, rest) ← more? item close rest
      some (a :: items, rest)

theorem more?_length {α : Type} {item : Reader α} {close : Char} {cs rest : List Char}
    {items : List α} (h : more? item close cs = some (items, rest)) : rest.length < cs.length := by
  induction hn : cs.length using Nat.strongRecOn generalizing cs items with
  | _ n ih =>
    subst hn
    rw [more?] at h
    split at h
    · simp at h
    · rename_i c r hc
      have hr := length_lt_of_skipSpace hc
      split at h
      · simp only [Option.some.injEq, Prod.mk.injEq] at h
        exact h.2 ▸ hr
      · split at h
        · split at h
          · rename_i a r' hi
            have hr' := item.shorter hi
            obtain ⟨⟨items', rest'⟩, h', heq⟩ := Option.map_eq_some_iff.1 h
            simp only [Prod.mk.injEq] at heq
            have := ih _ (Nat.lt_trans hr' hr) (heq.2 ▸ h') rfl
            omega
          · simp at h
        · simp at h

theorem items?_length {α : Type} {item : Reader α} {close : Char} {cs rest : List Char}
    {items : List α} (h : items? item close cs = some (items, rest)) : rest.length < cs.length := by
  unfold items? at h
  split at h
  · simp at h
  · rename_i c r hc
    have hr := length_lt_of_skipSpace hc
    split at h
    · simp only [Option.some.injEq, Prod.mk.injEq] at h
      exact h.2 ▸ hr
    · simp only [Option.bind_eq_bind, Option.bind_eq_some_iff, Option.some.injEq, Prod.mk.injEq] at h
      obtain ⟨⟨a, r₁⟩, h₁, ⟨items', r₂⟩, h₂, _, rfl⟩ := h
      have := item.shorter h₁
      have := more?_length h₂
      simp only [List.length_cons] at *
      omega

/-- Reads a name, a colon and a value. -/
def member (value : Reader Json) : Reader (String × Json) where
  run cs :=
    match skipSpace cs with
    | '"' :: rest => do
      let (name, rest) ← characters? rest
      match skipSpace rest with
      | ':' :: rest => do
        let (json, rest) ← value.run rest
        some ((String.ofList name, json), rest)
      | _ => none
    | _ => none
  shorter {cs a rest} h := by
    split at h
    · rename_i hq
      have := length_lt_of_skipSpace hq
      simp only [Option.bind_eq_bind, Option.bind_eq_some_iff] at h
      obtain ⟨⟨name, r₁⟩, h₁, h⟩ := h
      have := characters?_length h₁
      dsimp only at h
      split at h
      · rename_i hc
        have := length_lt_of_skipSpace hc
        simp only [Option.bind_eq_some_iff, Option.some.injEq, Prod.mk.injEq] at h
        obtain ⟨⟨json, r₂⟩, h₂, _, rfl⟩ := h
        have := value.shorter h₂
        dsimp only at *
        omega
      · simp at h
    · simp at h

/-! ## Values -/

/-- Reads a value, `nested?` reading the values inside it; without `nested?` there are none. -/
def valueOf (nested? : Option (Reader Json)) : Reader Json where
  run cs :=
    match skipSpace cs with
    | 'n' :: 'u' :: 'l' :: 'l' :: rest => some (.null, rest)
    | 't' :: 'r' :: 'u' :: 'e' :: rest => some (.bool true, rest)
    | 'f' :: 'a' :: 'l' :: 's' :: 'e' :: rest => some (.bool false, rest)
    | '"' :: rest => (characters? rest).map fun (text, rest) => (.string (String.ofList text), rest)
    | '[' :: rest => do
      let (values, rest) ← items? (← nested?) ']' rest
      some (.array values, rest)
    | '{' :: rest => do
      let (members, rest) ← items? (member (← nested?)) '}' rest
      some (.object members, rest)
    | cs => (number? cs).map fun (n, rest) => (.number n, rest)
  shorter {cs a rest} h := by
    have hle := skipSpace_length_le cs
    split at h
    case h_1 heq | h_2 heq | h_3 heq =>
      simp only [heq, List.length_cons, Option.some.injEq, Prod.mk.injEq] at h hle
      obtain ⟨_, rfl⟩ := h
      omega
    case h_4 heq =>
      obtain ⟨⟨text, r⟩, h₁, h₂⟩ := Option.map_eq_some_iff.1 h
      simp only [heq, List.length_cons, Prod.mk.injEq] at h₂ hle
      obtain ⟨_, rfl⟩ := h₂
      have := characters?_length h₁
      omega
    case h_5 heq | h_6 heq =>
      simp only [Option.bind_eq_bind, Option.bind_eq_some_iff, Option.some.injEq, Prod.mk.injEq] at h
      obtain ⟨_, _, ⟨_, _⟩, h₁, _, rfl⟩ := h
      simp only [heq, List.length_cons] at hle
      have := items?_length h₁
      dsimp only at *
      omega
    case h_7 =>
      obtain ⟨⟨n, r⟩, h₁, h₂⟩ := Option.map_eq_some_iff.1 h
      simp only [Prod.mk.injEq] at h₂
      obtain ⟨_, rfl⟩ := h₂
      have := number?_length h₁
      omega

/-- Reads a value in which arrays and objects stand at most `depth` deep. -/
def value : Nat → Reader Json
  | 0 => valueOf none
  | depth + 1 => valueOf (some (value depth))

/-- How deep arrays and objects of a document may stand. -/
def maxDepth : Nat := 127

/-- Reads a text that holds one value of bounded depth and, around it, nothing but white space. -/
def ofTextWithin? (depth : Nat) (text : String) : Option Json := do
  let (json, rest) ← (value depth).run text.toList
  if (skipSpace rest).isEmpty then some json else none

/-- Reads a document. -/
def ofText? (text : String) : Option Json :=
  ofTextWithin? maxDepth text

end RecordQuery.Json
