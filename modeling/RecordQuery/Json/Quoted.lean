/-!
The strings of JSON text. A string is read with all its escapes, half of a surrogate pair and a plain control
character being refused; it is written with the escapes that it needs and no others.
-/
namespace RecordQuery.Json

/-! ## Reading -/

def hexValue? (c : Char) : Option Nat :=
  if c.isDigit then some (c.toNat - '0'.toNat)
  else if 'a' ≤ c ∧ c ≤ 'f' then some (c.toNat - 'a'.toNat + 10)
  else if 'A' ≤ c ∧ c ≤ 'F' then some (c.toNat - 'A'.toNat + 10)
  else none

/-- Reads four hexadecimal digits. -/
def unit? : List Char → Option (Nat × List Char)
  | a :: b :: c :: d :: rest => do
    some (4096 * (← hexValue? a) + 256 * (← hexValue? b) + 16 * (← hexValue? c) + (← hexValue? d), rest)
  | _ => none

def isHighSurrogate (unit : Nat) : Bool := 0xD800 ≤ unit && unit < 0xDC00

def isLowSurrogate (unit : Nat) : Bool := 0xDC00 ≤ unit && unit < 0xE000

/-- Reads what follows `\u`: one code unit, or a surrogate pair. -/
def codePoint? (cs : List Char) : Option (Char × List Char) := do
  let (unit, rest) ← unit? cs
  if isHighSurrogate unit then
    match rest with
    | '\\' :: 'u' :: rest => do
      let (low, rest) ← unit? rest
      if isLowSurrogate low then
        some (Char.ofNat (0x10000 + 0x400 * (unit - 0xD800) + (low - 0xDC00)), rest)
      else none
    | _ => none
  else if isLowSurrogate unit then none
  else some (Char.ofNat unit, rest)

/-- The character that a letter behind a backslash stands for. -/
def shortEscape? : Char → Option Char
  | '"' => some '"'
  | '\\' => some '\\'
  | '/' => some '/'
  | 'b' => some '\x08'
  | 'f' => some '\x0c'
  | 'n' => some '\n'
  | 'r' => some '\r'
  | 't' => some '\t'
  | _ => none

/-- Reads one character of a string, written plainly or escaped. -/
def character? : List Char → Option (Char × List Char)
  | '\\' :: c :: rest =>
    if c = 'u' then codePoint? rest else (shortEscape? c).map fun escaped => (escaped, rest)
  | c :: rest => if c = '\\' || c = '"' || c.toNat < 0x20 then none else some (c, rest)
  | [] => none

theorem unit?_length {cs rest : List Char} {n : Nat} (h : unit? cs = some (n, rest)) :
    rest.length < cs.length := by
  unfold unit? at h
  split at h
  · simp only [Option.bind_eq_bind, Option.bind_eq_some_iff, Option.some.injEq, Prod.mk.injEq] at h
    obtain ⟨_, _, _, _, _, _, _, _, _, rfl⟩ := h
    simp only [List.length_cons]
    omega
  · simp at h

theorem codePoint?_length {cs rest : List Char} {c : Char} (h : codePoint? cs = some (c, rest)) :
    rest.length < cs.length := by
  simp only [codePoint?, Option.bind_eq_bind, Option.bind_eq_some_iff] at h
  obtain ⟨⟨unit, rest₁⟩, h₁, h⟩ := h
  have := unit?_length h₁
  dsimp only at h
  split at h
  · split at h
    · simp only [Option.bind_eq_some_iff] at h
      obtain ⟨⟨low, rest₂⟩, h₂, h⟩ := h
      have := unit?_length h₂
      simp only [Option.ite_none_right_eq_some, Option.some.injEq, Prod.mk.injEq] at h
      obtain ⟨_, _, rfl⟩ := h
      simp only [List.length_cons] at *
      omega
    · simp at h
  · simp only [Option.ite_none_left_eq_some, Option.some.injEq, Prod.mk.injEq] at h
    obtain ⟨_, _, rfl⟩ := h
    exact this

theorem character?_length {cs rest : List Char} {c : Char} (h : character? cs = some (c, rest)) :
    rest.length < cs.length := by
  unfold character? at h
  split at h
  · split at h
    · have := codePoint?_length h
      simp only [List.length_cons]
      omega
    · obtain ⟨_, _, heq⟩ := Option.map_eq_some_iff.1 h
      simp only [Prod.mk.injEq] at heq
      simp only [List.length_cons, heq.2]
      omega
  · simp only [Option.ite_none_left_eq_some, Option.some.injEq, Prod.mk.injEq] at h
    obtain ⟨_, _, rfl⟩ := h
    simp
  · simp at h

/-- Reads the rest of a string, after its opening quote. -/
def characters? : List Char → Option (List Char × List Char)
  | '"' :: rest => some ([], rest)
  | cs =>
    match _h : character? cs with
    | some (c, rest) => (characters? rest).map fun (text, rest) => (c :: text, rest)
    | none => none
termination_by cs => cs.length
decreasing_by exact character?_length _h

theorem characters?_length {cs text rest : List Char} (h : characters? cs = some (text, rest)) :
    rest.length < cs.length := by
  induction cs using characters?.induct generalizing text with
  | case1 r => simp only [characters?, Option.some.injEq, Prod.mk.injEq] at h; simp [h.2]
  | case2 cs hq c r hc ih =>
    rw [characters?.eq_2 cs hq] at h
    split at h
    · rename_i c' r' hc'
      obtain ⟨rfl, rfl⟩ : c' = c ∧ r' = r := by simpa [hc] using hc'.symm
      obtain ⟨⟨text', rest'⟩, h', heq⟩ := Option.map_eq_some_iff.1 h
      simp only [Prod.mk.injEq] at heq
      have := ih (heq.2 ▸ h')
      have := character?_length hc
      omega
    · simp at h
  | case3 cs hq hc =>
    rw [characters?.eq_2 cs hq] at h
    split at h <;> simp_all

/-! ## Writing -/

/-- Writes one character: a quote, a backslash and the control characters are escaped. -/
def escaped (c : Char) : List Char :=
  match c with
  | '"' => ['\\', '"']
  | '\\' => ['\\', '\\']
  | '\x08' => ['\\', 'b']
  | '\x0c' => ['\\', 'f']
  | '\n' => ['\\', 'n']
  | '\r' => ['\\', 'r']
  | '\t' => ['\\', 't']
  | c =>
    if c.toNat < 0x20 then
      ['\\', 'u', '0', '0', Nat.digitChar (c.toNat / 16), Nat.digitChar (c.toNat % 16)]
    else [c]

/-- Writes a string between its quotes. -/
def quoted (text : String) : List Char :=
  '"' :: text.toList.flatMap escaped ++ ['"']

end RecordQuery.Json
