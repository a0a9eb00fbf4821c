import RecordQuery.Calendar.Reader
import RecordQuery.Proofs.Calendar.Ordinal
import RecordQuery.Proofs.Number.Digits

/-!
The spellings of a moment. A moment is written as date and time with an offset, with or without seconds, or as a date
alone. A piece of such a text is read back whatever stands behind it, so that the reader for a spelling succeeds on it,
and those that are tried before fail: where they ask for more than is there, or for another separator.
-/
namespace RecordQuery.Calendar

open Number (padded)

/-! ## Pieces -/

theorem number_append {least : Nat} {ds : List Char} (hdigits : ∀ d ∈ ds, d.isDigit = true) (hleast : least ≤ ds.length)
    (rest : List Char) : number least ds.length (ds ++ rest) = some (Number.ofDigits ds, rest) := by
  have htake : (ds ++ rest).take ds.length = ds := List.take_left
  have hall : ds.takeWhile Char.isDigit = ds := List.takeWhile_eq_self_iff.mpr hdigits
  simp only [number, htake, hall, hleast, if_true, List.drop_left]

theorem number_padded {least width n : Nat} (hwidth : 0 < width) (hleast : least ≤ width) (h : n < Nat.pow 10 width)
    (rest : List Char) : number least width (padded width n ++ rest) = some (n, rest) := by
  have hlength := Number.length_padded hwidth h
  have hread := number_append (Number.isDigit_padded width n) (hlength.symm ▸ hleast) rest
  rwa [hlength, Number.ofDigits_padded] at hread

/-- The fields of a text that has fixed widths. -/
theorem number_pair {n : Nat} (h : n < 100) (rest : List Char) : number 2 2 (padded 2 n ++ rest) = some (n, rest) :=
  number_padded (by decide) (by decide) h rest

theorem number_pair_nil {n : Nat} (h : n < 100) : number 2 2 (padded 2 n) = some (n, []) := by
  rw [← List.append_nil (padded 2 n)]
  exact number_pair h []

theorem number_four {n : Nat} (h : n < 10000) (rest : List Char) : number 4 4 (padded 4 n ++ rest) = some (n, rest) :=
  number_padded (by decide) (by decide) h rest

/-- A reader goes on with what one of its pieces yields. -/
theorem bind_eq_of_eq_some {α β : Type} {x : Option α} {a : α} (h : x = some a) (next : α → Option β) :
    (x >>= next) = next a := by
  rw [h]
  rfl

/-- Two digits and the mark in front of them. -/
theorem bind_marked_pair {α : Type} {marks : List Char} {c : Char} (hc : c ∈ marks) {n : Nat} (h : n < 100)
    (rest : List Char) (next : Nat × List Char → Option α) :
    (do next (← number 2 2 (← mark marks (c :: (padded 2 n ++ rest))))) = next (n, rest) := by
  have hmark : mark marks (c :: (padded 2 n ++ rest)) = some (padded 2 n ++ rest) := if_pos hc
  exact (bind_eq_of_eq_some hmark _).trans (bind_eq_of_eq_some (number_pair h rest) _)

/-- The digits lie between two ranges of blanks. -/
theorem isBlank_of_isDigit {c : Char} (h : c.isDigit = true) : Text.isBlank c = false := by
  simp only [Char.isDigit, Bool.and_eq_true, decide_eq_true_eq, ge_iff_le, UInt32.le_iff_toNat_le] at h
  have hleast : 48 ≤ c.toNat := h.1
  have hmost : c.toNat ≤ 57 := h.2
  have hranges : ∀ range ∈ Text.blankRanges, range.2 < 48 ∨ 57 < range.1 := by decide
  rw [Text.isBlank, List.any_eq_false]
  intro range hrange
  have hapart := hranges range hrange
  simp only [Bool.and_eq_true, decide_eq_true_eq]
  omega

/-- A number that begins a text has no blanks or sign in front. -/
theorem padded_eq_cons {width n : Nat} (hwidth : 0 < width) (h : n < Nat.pow 10 width) :
    ∃ d ds, padded width n = d :: ds ∧ d.isDigit = true := by
  have hlength := Number.length_padded hwidth h
  cases hds : padded width n with
  | nil =>
    rw [hds] at hlength
    exact absurd hlength (Nat.ne_of_lt hwidth)
  | cons d ds =>
    have hd := Number.isDigit_padded width n d
    exact ⟨d, ds, rfl, hd (by rw [hds]; exact List.mem_cons_self)⟩

theorem skipBlank_padded {width n : Nat} (hwidth : 0 < width) (h : n < Nat.pow 10 width) (rest : List Char) :
    Text.skipBlank (padded width n ++ rest) = padded width n ++ rest := by
  obtain ⟨d, ds, hds, hd⟩ := padded_eq_cons hwidth h
  rw [hds, List.cons_append, Text.skipBlank, List.dropWhile_cons_of_neg]
  rw [isBlank_of_isDigit hd]
  exact Bool.false_ne_true

theorem short_padded {n : Nat} (h : n < 100) (rest : List Char) : short (padded 2 n ++ rest) = some (n, rest) := by
  rw [short, skipBlank_padded (by decide) h]
  exact number_padded (by decide) (by decide) h rest

theorem year_padded {n : Nat} (h : n < 10000) (rest : List Char) :
    year (padded 4 n ++ rest) = some ((n : Int), rest) := by
  obtain ⟨d, ds, hds, hd⟩ := padded_eq_cons (by decide : 0 < 4) h
  have hread : number 1 4 (padded 4 n ++ rest) = some (n, rest) := number_padded (by decide) (by decide) h rest
  rw [year, skipBlank_padded (by decide) h, hds, List.cons_append]
  rw [hds, List.cons_append] at hread
  split
  · rename_i heq
    obtain ⟨rfl, -⟩ := List.cons.inj heq
    cases hd
  · rename_i heq
    obtain ⟨rfl, -⟩ := List.cons.inj heq
    cases hd
  · rw [hread]
    rfl

/-! ## Dates and times of day -/

def Date.text (d : Date) : List Char :=
  padded 4 d.year.toNat ++ '-' :: padded 2 d.month ++ '-' :: padded 2 d.day

/-- A date whose year has four digits. -/
structure Date.Writable (d : Date) : Prop where
  proper : d.Proper
  year_nonneg : 0 ≤ d.year
  year_le : d.year ≤ 9999

/-- The hour and the minute. -/
def Moment.clock (m : Moment) : List Char :=
  padded 2 m.hour ++ ':' :: padded 2 m.minute

/-- The second and the nanosecond as they are written: a leap second is second 60. -/
def Moment.written (m : Moment) : Nat × Nat :=
  if m.nanosecond < 1000000000 then (m.second, m.nanosecond) else (60, m.nanosecond - 1000000000)

/-- A fraction of a second with some places, and none without places. -/
def fractionText (places nanosecond : Nat) : List Char :=
  if places = 0 then [] else '.' :: padded places (nanosecond / Nat.pow 10 (9 - places))

/-- The second, with some places of its fraction. -/
def Moment.secondText (m : Moment) (places : Nat) : List Char :=
  ':' :: padded 2 m.written.1 ++ fractionText places m.written.2

theorem Date.daysIn_le (year : Int) (month : Nat) : daysIn year month ≤ 31 := by
  unfold daysIn
  split
  · split <;> decide
  all_goals decide

namespace Date

variable {d : Date}

theorem Writable.lt (h : d.Writable) : d.year.toNat < 10000 ∧ d.month < 100 ∧ d.day < 100 := by
  obtain ⟨⟨-, hmonth, -, hday⟩, hyear, hyear'⟩ := h
  have hdays := daysIn_le d.year d.month
  omega

theorem Writable.isValid (h : d.Writable) : d.isValid = true := by
  obtain ⟨hproper, hyear, hyear'⟩ := h
  refine Date.isValid_iff.mpr ⟨?_, ?_, hproper⟩ <;> simp only [years] <;> omega

theorem localDate_text (h : d.Writable) (rest : List Char) : localDate (d.text ++ rest) = some (d, rest) := by
  obtain ⟨hyear, hmonth, hday⟩ := h.lt
  simp only [localDate, text, List.append_assoc, List.cons_append, year_padded hyear, short_padded hmonth,
    short_padded hday, mark, List.mem_singleton, if_true, Option.bind_eq_bind, Option.bind_some,
    Int.toNat_of_nonneg h.year_nonneg]

end Date

/-! ## Seconds and offsets -/

/-- The fraction can be written with so many places. -/
def Moment.HasPlaces (m : Moment) (places : Nat) : Prop :=
  places ≤ 9 ∧ Nat.pow 10 (9 - places) ∣ m.written.2

/-- What stands behind a fraction does not go on with it. -/
def EndsFraction (rest : List Char) : Prop :=
  ∀ c ∈ rest.head?, c.isDigit = false ∧ c ≠ '.'

theorem endsFraction_nil : EndsFraction [] := by
  rintro c ⟨⟩

theorem endsFraction_cons {c : Char} (hdigit : c.isDigit = false) (hpoint : c ≠ '.') (rest : List Char) :
    EndsFraction (c :: rest) := by
  intro c' hc
  obtain rfl := Option.some.inj hc
  exact ⟨hdigit, hpoint⟩

theorem takeWhile_isDigit_append {ds rest : List Char} (hds : ∀ d ∈ ds, d.isDigit = true) (hrest : EndsFraction rest) :
    (ds ++ rest).takeWhile Char.isDigit = ds := by
  rw [List.takeWhile_append_of_pos hds]
  cases rest with
  | nil => rw [List.takeWhile_nil, List.append_nil]
  | cons c rest =>
    have hc := (hrest c rfl).1
    rw [List.takeWhile_cons_of_neg (by rw [hc]; exact Bool.false_ne_true), List.append_nil]

/-- The units of a fraction of a second fit the places in which they are written. -/
theorem lt_of_mul_lt_second {places units : Nat} (hplaces : places ≤ 9)
    (h : Nat.pow 10 (9 - places) * units < 1000000000) : units < Nat.pow 10 places := by
  have hsplit : Nat.pow 10 (9 - places) * Nat.pow 10 places = 1000000000 := by
    show 10 ^ (9 - places) * 10 ^ places = 10 ^ 9
    rw [← Nat.pow_add, Nat.sub_add_cancel hplaces]
  exact Nat.lt_of_mul_lt_mul_left (hsplit.symm ▸ h)

theorem fraction_text {places nanosecond : Nat} (hplaces : places ≤ 9) (hdvd : Nat.pow 10 (9 - places) ∣ nanosecond)
    (hlt : nanosecond < 1000000000) {rest : List Char} (hrest : EndsFraction rest) :
    fraction (fractionText places nanosecond ++ rest) = some (nanosecond, rest) := by
  by_cases hzero : places = 0
  · -- without places nothing is written, and what stands behind does not begin with a point
    subst hzero
    have hnone : nanosecond = 0 := Nat.eq_zero_of_dvd_of_lt hdvd hlt
    rw [fractionText, if_pos rfl, List.nil_append, fraction, hnone]
    rintro cs rfl
    exact (hrest '.' rfl).2 rfl
  · obtain ⟨units, rfl⟩ := hdvd
    have hpos : 0 < Nat.pow 10 (9 - places) := Nat.pow_pos (by decide)
    have hlength := Number.length_padded (Nat.pos_of_ne_zero hzero) (lt_of_mul_lt_second hplaces hlt)
    have htake := takeWhile_isDigit_append (Number.isDigit_padded places units) hrest
    have hkept : (padded places units).take 9 = padded places units := List.take_of_length_le (by omega)
    have hne : (padded places units).isEmpty = false := by
      rw [List.isEmpty_eq_false_iff]
      rintro hnil
      rw [hnil] at hlength
      exact hzero hlength.symm
    rw [fractionText, if_neg hzero, Nat.mul_div_cancel_left _ hpos, List.cons_append, fraction]
    simp only [htake, hkept, hne, hlength, Bool.false_eq_true, if_false, Number.ofDigits_padded]
    rw [Nat.mul_comm, List.drop_left' hlength]

/-- The texts of a distance from universal time, in minutes. -/
inductive Zone : Int → List Char → Prop
  | universal {mark : Char} (hmark : mark ∈ ['Z', 'z']) : Zone 0 [mark]
  | ahead {hours minutes : Nat} (hhours : hours < 24) (hminutes : minutes < 60) :
      Zone (60 * hours + minutes) ('+' :: padded 2 hours ++ ':' :: padded 2 minutes)
  | behind {sign : Char} (hsign : sign ∈ ['-', '\u2212']) {hours minutes : Nat} (hhours : hours < 24)
      (hminutes : minutes < 60) :
      Zone (-(60 * hours + minutes)) (sign :: padded 2 hours ++ ':' :: padded 2 minutes)

namespace Zone

variable {distance : Int} {zone : List Char}

/-- Every distance of less than a day has a text. -/
theorem exists_of_lt (h : distance.natAbs < 1440) : ∃ zone, Zone distance zone := by
  have hhours : distance.natAbs / 60 < 24 := by omega
  have hminutes : distance.natAbs % 60 < 60 := by omega
  by_cases hsign : 0 ≤ distance
  · have hsplit : distance = 60 * (distance.natAbs / 60 : Nat) + (distance.natAbs % 60 : Nat) := by omega
    rw [hsplit]
    exact ⟨_, .ahead hhours hminutes⟩
  · have hsplit : distance = -(60 * (distance.natAbs / 60 : Nat) + (distance.natAbs % 60 : Nat)) := by omega
    have hsign : '-' ∈ ['-', '\u2212'] := by decide
    rw [hsplit]
    exact ⟨_, .behind hsign hhours hminutes⟩

theorem lt (h : Zone distance zone) : -1440 < distance ∧ distance < 1440 := by
  cases h <;> omega

theorem endsFraction (h : Zone distance zone) : EndsFraction zone := by
  cases h with
  | universal hmark => rcases List.mem_pair.mp hmark with rfl | rfl <;> exact endsFraction_cons rfl (by decide) _
  | ahead => exact endsFraction_cons rfl (by decide) _
  | behind hsign => rcases List.mem_pair.mp hsign with rfl | rfl <;> exact endsFraction_cons rfl (by decide) _

/-- Both signs are read in one way. -/
theorem offset_clock {sign : Char} (hsign : sign ∈ ['+', '-', '\u2212']) {hours minutes : Nat} (hhours : hours < 24)
    (hminutes : minutes < 60) :
    offset (sign :: padded 2 hours ++ ':' :: padded 2 minutes) =
      some (if sign = '+' then (60 * hours + minutes : Int) else -(60 * hours + minutes), []) := by
  have hread := number_pair (Nat.lt_trans hhours (by decide)) (':' :: padded 2 minutes)
  have hread' := number_pair_nil (Nat.lt_trans hminutes (by decide))
  rw [List.cons_append, offset]
  · simp only [hsign, if_true, hread, Option.bind_eq_bind, Option.bind_some, mark, List.mem_singleton, hread', hhours,
      hminutes, and_self]
  · rintro rfl
    revert hsign
    decide
  · rintro rfl
    revert hsign
    decide

theorem offset_eq (h : Zone distance zone) : offset zone = some (distance, []) := by
  cases h with
  | universal hmark => rcases List.mem_pair.mp hmark with rfl | rfl <;> rfl
  | ahead hhours hminutes => exact offset_clock (by decide) hhours hminutes
  | behind hsign hhours hminutes =>
    rw [offset_clock (List.mem_cons_of_mem _ hsign) hhours hminutes, if_neg]
    rintro rfl
    revert hsign
    decide

end Zone

/-! ## Moments -/

namespace Moment

/-- A moment whose year has four digits. -/
structure Writable (m : Moment) : Prop extends Proper m where
  year_nonneg : 0 ≤ m.date.year
  year_le : m.date.year ≤ 9999

variable {m : Moment}

theorem Writable.date_writable (h : m.Writable) : m.date.Writable :=
  ⟨(Date.isValid_iff.mp h.date).2.2, h.year_nonneg, h.year_le⟩

theorem Proper.written_lt (h : m.Proper) : m.written.1 < 100 ∧ m.written.2 < 1000000000 := by
  have hsecond := h.second
  have hnanosecond := h.nanosecond
  unfold written
  split
  · dsimp only
    omega
  · dsimp only
    omega

/-- The fields of a moment make the moment, a leap second included. -/
theorem Proper.make? (h : m.Proper) : make? m.date m.hour m.minute m.written.1 m.written.2 = some m := by
  obtain ⟨hdate, hhour, hminute, hsecond, hnanosecond⟩ := h
  obtain ⟨date, hour, minute, second, nanosecond⟩ := m
  dsimp only at *
  by_cases hordinary : nanosecond < 1000000000
  · simp [Moment.make?, written, hdate, hhour, hminute, hordinary, hsecond]
  · obtain ⟨rfl, hleap⟩ := hnanosecond.resolve_left hordinary
    have hadd : nanosecond - 1000000000 + 1000000000 = nanosecond := by omega
    simp [Moment.make?, written, hdate, hhour, hminute, hordinary, hadd]

theorem HasPlaces.fraction_text {places : Nat} (hplaces : m.HasPlaces places) (h : m.Proper) {rest : List Char}
    (hrest : EndsFraction rest) : fraction (fractionText places m.written.2 ++ rest) = some (m.written.2, rest) :=
  Calendar.fraction_text hplaces.1 hplaces.2 h.written_lt.2 hrest

/-! ### With an offset -/

/-- Behind the date, the hour and the minute it is left to read the second, its fraction and the offset. -/
theorem universal?_clock (h : m.Writable) {separator : Char} (hseparator : separator ∈ ['T', 't', ' '])
    (rest : List Char) : universal? (m.date.text ++ separator :: m.clock ++ rest) = (do
      let (second, cs) ← number 2 2 (← mark [':'] rest)
      let (nanosecond, cs) ← fraction cs
      let (distance, cs) ← offset cs
      let moment ← Moment.make? m.date m.hour m.minute second nanosecond
      if cs.isEmpty then some (moment.addMinutes (-distance)) else none) := by
  obtain ⟨hyear, hmonth, hday⟩ := h.date_writable.lt
  have hhour : m.hour < 100 := Nat.lt_trans h.hour (by decide)
  have hminute : m.minute < 100 := Nat.lt_trans h.minute (by decide)
  have htext : m.date.text ++ separator :: m.clock ++ rest = padded 4 m.date.year.toNat ++ '-' ::
      (padded 2 m.date.month ++ '-' :: (padded 2 m.date.day ++ separator ::
        (padded 2 m.hour ++ ':' :: (padded 2 m.minute ++ rest)))) := by
    simp only [Date.text, clock, List.append_assoc, List.cons_append]
  rw [htext, universal?]
  refine (bind_eq_of_eq_some (number_four hyear _) _).trans ?_
  refine (bind_marked_pair (List.mem_singleton_self _) hmonth _ _).trans ?_
  refine (bind_marked_pair (List.mem_singleton_self _) hday _ _).trans ?_
  refine (bind_marked_pair hseparator hhour _ _).trans ?_
  refine (bind_marked_pair (List.mem_singleton_self _) hminute _ _).trans ?_
  rw [Int.toNat_of_nonneg h.year_nonneg]

/-- Behind the second it is the offset that decides. -/
theorem universal?_second (h : m.Writable) {separator : Char} (hseparator : separator ∈ ['T', 't', ' ']) {places : Nat}
    (hplaces : m.HasPlaces places) {rest : List Char} (hrest : EndsFraction rest) :
    universal? (m.date.text ++ separator :: m.clock ++ (m.secondText places ++ rest)) = (do
      let (distance, cs) ← offset rest
      if cs.isEmpty then some (m.addMinutes (-distance)) else none) := by
  rw [universal?_clock h hseparator, secondText, List.append_assoc, List.cons_append]
  refine (bind_marked_pair (List.mem_singleton_self _) h.toProper.written_lt.1 _ _).trans ?_
  refine (bind_eq_of_eq_some (hplaces.fraction_text h.toProper hrest) _).trans ?_
  dsimp only
  rw [h.toProper.make?]
  rfl

theorem universal?_zoned (h : m.Writable) {separator : Char} (hseparator : separator ∈ ['T', 't', ' ']) {places : Nat}
    (hplaces : m.HasPlaces places) {distance : Int} {zone : List Char} (hzone : Zone distance zone) :
    universal? (m.date.text ++ separator :: m.clock ++ (m.secondText places ++ zone)) =
      some (m.addMinutes (-distance)) := by
  rw [universal?_second h hseparator hplaces hzone.endsFraction, hzone.offset_eq]
  rfl

end Moment

/-! ## Without an offset -/

/-- The character that a separator is written as. -/
def Separator.char : Separator → Char
  | letter => 'T'
  | blanks => ' '

namespace Separator

theorem char_mem (separator : Separator) : separator.char ∈ ['T', 't', ' '] := by
  cases separator <;> decide

theorem skip_char (separator : Separator) {n : Nat} (h : n < 100) (rest : List Char) :
    separator.skip (separator.char :: (padded 2 n ++ rest)) = some (padded 2 n ++ rest) := by
  cases separator with
  | letter => rfl
  | blanks => exact congrArg some (skipBlank_padded (by decide) h rest)

/-- Behind a date, one separator cannot be taken for the other one. -/
theorem skip_other {separator other : Separator} (h : separator ≠ other) (rest : List Char) :
    (separator.skip (other.char :: rest)).bind short = none := by
  cases separator <;> cases other
  · exact absurd rfl h
  · rfl
  · rfl
  · exact absurd rfl h

end Separator

namespace Moment

variable {m : Moment}

/-- A reader that takes another separator than stands there, or finds no time behind it, fails. -/
theorem local?_eq_none {d : Date} (h : d.Writable) {separator : Separator} {rest : List Char}
    (hskip : (separator.skip rest).bind short = none) (withSeconds : Bool) :
    local? separator withSeconds (d.text ++ rest) = none := by
  simp only [local?, Date.localDate_text h, Option.bind_eq_bind, Option.bind_some]
  cases hrest : separator.skip rest with
  | none => rfl
  | some cs =>
    rw [hrest, Option.bind_some] at hskip
    rw [Option.bind_some, hskip, Option.bind_none]

theorem local?_other (h : m.Writable) {separator other : Separator} (hne : separator ≠ other) (withSeconds : Bool)
    (rest : List Char) : local? separator withSeconds (m.date.text ++ other.char :: m.clock ++ rest) = none := by
  rw [List.append_assoc]
  exact local?_eq_none h.date_writable (Separator.skip_other hne _) withSeconds

/-- With the separator that stands there, what is left to read is the seconds. -/
theorem local?_clock (h : m.Writable) (separator : Separator) (withSeconds : Bool) (rest : List Char) :
    local? separator withSeconds (m.date.text ++ separator.char :: m.clock ++ rest) = (do
      let ((second, nanosecond), cs) ← seconds withSeconds rest
      if cs.isEmpty then Moment.make? m.date m.hour m.minute second nanosecond else none) := by
  have hhour : m.hour < 100 := Nat.lt_trans h.hour (by decide)
  have hminute : m.minute < 100 := Nat.lt_trans h.minute (by decide)
  simp only [local?, clock, List.append_assoc, List.cons_append, Date.localDate_text h.date_writable,
    separator.skip_char hhour, short_padded hhour, mark, List.mem_singleton, if_true, short_padded hminute,
    Option.bind_eq_bind, Option.bind_some]

theorem seconds_text (h : m.Proper) {places : Nat} (hplaces : m.HasPlaces places) :
    seconds true (m.secondText places) = some (m.written, []) := by
  have hfraction := hplaces.fraction_text h endsFraction_nil
  rw [List.append_nil] at hfraction
  simp only [seconds, if_true, secondText, List.cons_append, mark, List.mem_singleton, short_padded h.written_lt.1,
    hfraction, Option.bind_eq_bind, Option.bind_some]

end Moment

/-! ## All spellings -/

/-- The texts of a moment: with an offset, the date and time at that distance from universal time; without one, the date
and time with or without seconds, or the date alone. The second may have any places that hold its fraction. -/
inductive Moment.Spelling (m : Moment) : List Char → Prop
  | zoned {d : Moment} {distance : Int} {zone : List Char} {separator : Char} {places : Nat} (hd : d.Writable)
      (hplaces : d.HasPlaces places) (hseparator : separator ∈ ['T', 't', ' ']) (hzone : Zone distance zone)
      (hm : m.Proper) (hminutes : m.minutes = d.minutes - distance) (hsecond : m.second = d.second)
      (hnanosecond : m.nanosecond = d.nanosecond) :
      Spelling m (d.date.text ++ separator :: d.clock ++ (d.secondText places ++ zone))
  | seconds {places : Nat} (hm : m.Writable) (hplaces : m.HasPlaces places) (separator : Separator) :
      Spelling m (m.date.text ++ separator.char :: m.clock ++ m.secondText places)
  | minutes (hm : m.Writable) (hsecond : m.second = 0) (hnanosecond : m.nanosecond = 0) (separator : Separator) :
      Spelling m (m.date.text ++ separator.char :: m.clock)
  | day {d : Date} (hd : d.Writable) (hm : m = .midnight d) : Spelling m d.text

namespace Moment

variable {m : Moment}

theorem Writable.proper_addMinutes {d : Moment} (h : d.Writable) {distance : Int} (hleast : -1440 < distance)
    (hmost : distance < 1440) : (d.addMinutes (-distance)).Proper := by
  have hyear := h.year_nonneg
  have hyear' := h.year_le
  refine h.toProper.addMinutes ?_ ?_ (by omega) (by omega) <;> simp only [Date.years] <;> omega

/-- Just one moment stands at a distance and has the same second. -/
theorem Writable.existsUnique_distance {d : Moment} (h : d.Writable) {distance : Int} (hleast : -1440 < distance)
    (hmost : distance < 1440) : ∃! m : Moment, m.Proper ∧ m.minutes = d.minutes - distance ∧ m.second = d.second ∧
      m.nanosecond = d.nanosecond := by
  have hproper := h.proper_addMinutes hleast hmost
  have hminutes := minutes_addMinutes h.date_writable.proper (-distance)
  refine ⟨d.addMinutes (-distance), ⟨hproper, by omega, rfl, rfl⟩, ?_⟩
  rintro m ⟨hm, hminutes', hsecond, hnanosecond⟩
  exact hm.eq_of_minutes_eq hproper (by omega) hsecond hnanosecond

/-! ### The readers in turn -/

/-- Where the offset is missing, or the second, or the time of day, the reader that asks for an offset fails. -/
theorem universal?_seconds (h : m.Writable) (separator : Separator) {places : Nat} (hplaces : m.HasPlaces places) :
    universal? (m.date.text ++ separator.char :: m.clock ++ m.secondText places) = none := by
  have hread := universal?_second h separator.char_mem hplaces endsFraction_nil
  rw [List.append_nil] at hread
  exact hread

theorem universal?_minutes (h : m.Writable) (separator : Separator) :
    universal? (m.date.text ++ separator.char :: m.clock) = none := by
  have hread := universal?_clock h separator.char_mem []
  rw [List.append_nil] at hread
  exact hread

theorem universal?_day {d : Date} (h : d.Writable) : universal? d.text = none := by
  obtain ⟨hyear, hmonth, hday⟩ := h.lt
  have htext : d.text = padded 4 d.year.toNat ++ '-' :: (padded 2 d.month ++ '-' :: (padded 2 d.day ++ [])) := by
    simp only [Date.text, List.append_assoc, List.cons_append, List.append_nil]
  rw [htext, universal?]
  refine (bind_eq_of_eq_some (number_four hyear _) _).trans ?_
  refine (bind_marked_pair (List.mem_singleton_self _) hmonth _ _).trans ?_
  exact (bind_marked_pair (List.mem_singleton_self _) hday [] _).trans rfl

theorem local?_seconds (h : m.Writable) (separator : Separator) {places : Nat} (hplaces : m.HasPlaces places) :
    local? separator true (m.date.text ++ separator.char :: m.clock ++ m.secondText places) = some m := by
  simp only [local?_clock h, seconds_text h.toProper hplaces, h.toProper.make?, List.isEmpty_nil, if_true,
    Option.bind_eq_bind, Option.bind_some]

theorem local?_minutes (h : m.Writable) (hsecond : m.second = 0) (hnanosecond : m.nanosecond = 0)
    (separator : Separator) : local? separator false (m.date.text ++ separator.char :: m.clock) = some m := by
  have hread := local?_clock h separator false []
  have hmake := h.toProper.make?
  have hwritten : m.written = (0, 0) := by simp [written, hsecond, hnanosecond]
  rw [hwritten] at hmake
  rw [List.append_nil] at hread
  rw [hread]
  exact hmake

/-- Where the seconds are missing, a reader that asks for them fails. -/
theorem local?_minutes_seconds (h : m.Writable) (separator reader : Separator) :
    local? reader true (m.date.text ++ separator.char :: m.clock) = none := by
  rw [← List.append_nil (m.date.text ++ separator.char :: m.clock)]
  cases reader <;> cases separator
  · exact local?_clock h .letter true []
  · exact local?_other h (by rintro ⟨⟩) true []
  · exact local?_other h (by rintro ⟨⟩) true []
  · exact local?_clock h .blanks true []

theorem local?_day {d : Date} (h : d.Writable) (separator : Separator) (withSeconds : Bool) :
    local? separator withSeconds d.text = none := by
  rw [← List.append_nil d.text]
  apply local?_eq_none h
  cases separator <;> rfl

theorem midnight?_day {d : Date} (h : d.Writable) : midnight? d.text = some (.midnight d) := by
  have hread := Date.localDate_text h []
  rw [List.append_nil] at hread
  simp only [midnight?, hread, h.isValid, Option.bind_eq_bind, Option.bind_some, List.isEmpty_nil, Bool.and_self,
    if_true]

/-- Whatever its spelling, a moment is read as itself: the reader for the spelling succeeds, and those before it
fail. -/
theorem Spelling.ofText?_eq {text : List Char} (h : m.Spelling text) : ofText? text = some m := by
  cases h with
  | @zoned d distance zone separator places hd hplaces hseparator hzone hm hminutes hsecond hnanosecond =>
    obtain ⟨hleast, hmost⟩ := hzone.lt
    have hmoved := minutes_addMinutes hd.date_writable.proper (-distance)
    have hsame : d.addMinutes (-distance) = m :=
      (hd.proper_addMinutes hleast hmost).eq_of_minutes_eq hm (by omega) hsecond.symm hnanosecond.symm
    rw [ofText?, universal?_zoned hd hseparator hplaces hzone, hsame]
    rfl
  | seconds hm hplaces separator =>
    have hlocal := local?_seconds hm separator hplaces
    rw [ofText?, universal?_seconds hm separator hplaces]
    cases separator with
    | letter =>
      rw [hlocal]
      rfl
    | blanks =>
      rw [local?_other hm (by rintro ⟨⟩), hlocal]
      rfl
  | minutes hm hsecond hnanosecond separator =>
    have hlocal := local?_minutes hm hsecond hnanosecond separator
    rw [ofText?, universal?_minutes hm, local?_minutes_seconds hm, local?_minutes_seconds hm]
    cases separator with
    | letter =>
      rw [hlocal]
      rfl
    | blanks =>
      have hne : Separator.letter ≠ .blanks := by rintro ⟨⟩
      have hother := local?_other hm hne false []
      rw [List.append_nil] at hother
      rw [hother, hlocal]
      rfl
  | day hd hm =>
    subst hm
    rw [ofText?, universal?_day hd, local?_day hd, local?_day hd, local?_day hd, local?_day hd, midnight?_day hd]
    rfl

end Moment

end RecordQuery.Calendar
