import RecordQuery.Calendar.Moment
import RecordQuery.Number.Digits
import RecordQuery.Text.Blank

/-!
Reading moments. Three spellings are tried in turn: RFC 3339 with an offset, brought to universal time; a date
and a time without an offset; a date alone, which means its midnight. The first has fixed widths. In the other
two a number may be short and may follow blanks, and a year with a sign may have any number of digits. The
reader of a piece gives the piece and the text after it.
-/
namespace RecordQuery.Calendar

/-- Reads `least` to `most` digits. -/
def number (least most : Nat) (cs : List Char) : Option (Nat × List Char) :=
  let ds := (cs.take most).takeWhile Char.isDigit
  if least ≤ ds.length then some (Number.ofDigits ds, cs.drop ds.length) else none

/-- Reads one of the given characters. -/
def mark (marks : List Char) : List Char → Option (List Char)
  | c :: cs => if c ∈ marks then some cs else none
  | [] => none

/-- Reads a fraction of a second, in nanoseconds. Digits after the ninth are dropped; no point, no fraction. -/
def fraction : List Char → Option (Nat × List Char)
  | '.' :: cs =>
    let ds := cs.takeWhile Char.isDigit
    let kept := ds.take 9
    if ds.isEmpty then none
    else some (Number.ofDigits kept * Nat.pow 10 (9 - kept.length), cs.drop ds.length)
  | cs => some (0, cs)

/-- The moment with these fields, second 60 being a leap second. -/
def Moment.make? (date : Date) (hour minute second nanosecond : Nat) : Option Moment :=
  if date.isValid && hour < 24 && minute < 60 then
    if second < 60 then some ⟨date, hour, minute, second, nanosecond⟩
    else if second = 60 then some ⟨date, hour, minute, 59, nanosecond + 1000000000⟩
    else none
  else none

/-! ## With an offset -/

/-- Reads the distance from universal time, in minutes: `Z`, or a sign with hours and minutes. -/
def offset (cs : List Char) : Option (Int × List Char) :=
  match cs with
  | 'Z' :: cs | 'z' :: cs => some (0, cs)
  | sign :: cs =>
    if sign ∈ ['+', '-', '\u2212'] then do
      let (hours, cs) ← number 2 2 cs
      let cs ← mark [':'] cs
      let (minutes, cs) ← number 2 2 cs
      let distance : Int := 60 * hours + minutes
      if hours < 24 ∧ minutes < 60 then some (if sign = '+' then distance else -distance, cs) else none
    else none
  | [] => none

/-- Reads `2024-03-01T10:30:00.5+02:00`; the moment is that of universal time. -/
def universal? (cs : List Char) : Option Moment := do
  let (year, cs) ← number 4 4 cs
  let (month, cs) ← number 2 2 (← mark ['-'] cs)
  let (day, cs) ← number 2 2 (← mark ['-'] cs)
  let (hour, cs) ← number 2 2 (← mark ['T', 't', ' '] cs)
  let (minute, cs) ← number 2 2 (← mark [':'] cs)
  let (second, cs) ← number 2 2 (← mark [':'] cs)
  let (nanosecond, cs) ← fraction cs
  let (distance, cs) ← offset cs
  let moment ← Moment.make? ⟨year, month, day⟩ hour minute second nanosecond
  if cs.isEmpty then some (moment.addMinutes (-distance)) else none

/-! ## Without an offset -/

/-- Reads one or two digits, after any blanks. -/
def short (cs : List Char) : Option (Nat × List Char) :=
  number 1 2 (Text.skipBlank cs)

/-- Reads a year, after any blanks: up to four digits, or a sign and any number of digits. -/
def year (cs : List Char) : Option (Int × List Char) :=
  match Text.skipBlank cs with
  | '-' :: cs => (number 1 cs.length cs).map fun (n, cs) => (-n, cs)
  | '+' :: cs => (number 1 cs.length cs).map fun (n, cs) => (n, cs)
  | cs => (number 1 4 cs).map fun (n, cs) => (n, cs)

def localDate (cs : List Char) : Option (Date × List Char) := do
  let (year, cs) ← year cs
  let (month, cs) ← short (← mark ['-'] cs)
  let (day, cs) ← short (← mark ['-'] cs)
  some (⟨year, month, day⟩, cs)

/-- What stands between a date and a time. -/
inductive Separator where
  | letter
  | blanks

def Separator.skip : Separator → List Char → Option (List Char)
  | .letter, cs => mark ['T'] cs
  | .blanks, cs => some (Text.skipBlank cs)

/-- Reads the seconds of a time that has them, and otherwise nothing. -/
def seconds (present : Bool) (cs : List Char) : Option ((Nat × Nat) × List Char) :=
  if present then do
    let (second, cs) ← short (← mark [':'] cs)
    let (nanosecond, cs) ← fraction cs
    some ((second, nanosecond), cs)
  else some ((0, 0), cs)

/-- Reads a date and a time, from end to end. -/
def local? (separator : Separator) (withSeconds : Bool) (cs : List Char) : Option Moment := do
  let (date, cs) ← localDate cs
  let (hour, cs) ← short (← separator.skip cs)
  let (minute, cs) ← short (← mark [':'] cs)
  let ((second, nanosecond), cs) ← seconds withSeconds cs
  if cs.isEmpty then Moment.make? date hour minute second nanosecond else none

/-- Reads a date alone. -/
def midnight? (cs : List Char) : Option Moment := do
  let (date, cs) ← localDate cs
  if cs.isEmpty && date.isValid then some (.midnight date) else none

def Moment.ofText? (cs : List Char) : Option Moment :=
  universal? cs
    <|> local? .letter true cs <|> local? .blanks true cs
    <|> local? .letter false cs <|> local? .blanks false cs
    <|> midnight? cs

end RecordQuery.Calendar
