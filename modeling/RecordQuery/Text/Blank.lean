/-!
Blank characters, and the words that they separate. Blank means the Unicode property
`White_Space`, of which core's `Char.isWhitespace` is the ASCII part.
-/
namespace RecordQuery.Text

/-- The code points of the blank characters, as closed ranges. -/
def blankRanges : List (Nat × Nat) :=
  [(0x09, 0x0D), (0x20, 0x20), (0x85, 0x85), (0xA0, 0xA0), (0x1680, 0x1680), (0x2000, 0x200A),
    (0x2028, 0x2029), (0x202F, 0x202F), (0x205F, 0x205F), (0x3000, 0x3000)]

def isBlank (c : Char) : Bool :=
  blankRanges.any fun range => range.1 ≤ c.toNat && c.toNat ≤ range.2

def skipBlank (cs : List Char) : List Char :=
  cs.dropWhile isBlank

/-- The text without the blanks at its two ends. -/
def trim (cs : List Char) : List Char :=
  (skipBlank (skipBlank cs).reverse).reverse

/-- The maximal runs of characters that are not blank. -/
def words (cs : List Char) : List (List Char) :=
  (cs.splitOnP isBlank).filter fun word => !word.isEmpty

theorem skipBlank_length_le (cs : List Char) : (skipBlank cs).length ≤ cs.length :=
  (List.dropWhile_sublist _).length_le

theorem skipBlank_suffix (cs : List Char) : skipBlank cs <:+ cs :=
  List.dropWhile_suffix _

/-- What is left starts with no blank. -/
theorem isBlank_of_skipBlank_eq_cons {cs rest : List Char} {c : Char}
    (h : skipBlank cs = c :: rest) : isBlank c = false := by
  unfold skipBlank at h
  have hc := List.head_dropWhile_not isBlank (show cs.dropWhile isBlank ≠ [] by simp [h])
  simpa [h] using hc

end RecordQuery.Text
