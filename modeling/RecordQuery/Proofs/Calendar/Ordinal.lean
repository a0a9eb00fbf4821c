import RecordQuery.Calendar.Moment
import RecordQuery.Proofs.Sorting.Order
import Mathlib.Data.Int.Order.Basic
import Mathlib.Order.Monotone.Basic

/-!
Counting days and minutes. The days are numbered, the first day of the year 1 being day 1, and the minutes of all days
are numbered with them. The next day has the next number, so that moving a date or a moment adds to its number; and
dates are ordered as their numbers are, so that no two of them share one.
-/
namespace RecordQuery.Calendar

/-- The days of the first months of a year. -/
def daysOfMonths (year : Int) : Nat → Nat
  | 0 => 0
  | months + 1 => daysOfMonths year months + daysIn year (months + 1)

/-- The days of the years before a year, from the year 1 on; a leap year is one that 4 divides, unless 100 does and 400
does not. -/
def daysBefore (year : Int) : Int :=
  365 * (year - 1) + (year - 1) / 4 - (year - 1) / 100 + (year - 1) / 400

theorem daysOfMonths_twelve (year : Int) : daysOfMonths year 12 = if isLeap year then 366 else 365 := by
  cases h : isLeap year <;> simp [daysOfMonths, daysIn, h]

theorem daysBefore_succ (year : Int) : daysBefore (year + 1) = daysBefore year + daysOfMonths year 12 := by
  rw [daysOfMonths_twelve, daysBefore, daysBefore]
  -- each of the three quotients grows just when the year is divided
  split
  · rename_i h
    simp only [isLeap, Bool.and_eq_true, Bool.or_eq_true, decide_eq_true_eq] at h
    omega
  · rename_i h
    simp only [isLeap, Bool.and_eq_true, Bool.or_eq_true, decide_eq_true_eq] at h
    omega

namespace Date

/-- A day that the calendar has. -/
structure Proper (d : Date) : Prop where
  month_pos : 1 ≤ d.month
  month_le : d.month ≤ 12
  day_pos : 1 ≤ d.day
  day_le : d.day ≤ daysIn d.year d.month

/-- The number of a day. -/
def ordinal (d : Date) : Int :=
  daysBefore d.year + daysOfMonths d.year (d.month - 1) + d.day

/-- The epoch is day 719163. -/
example : ordinal ⟨1, 1, 1⟩ = 1 ∧ ordinal ⟨1970, 1, 1⟩ = 719163 := by decide

variable {d : Date}

theorem isValid_iff : d.isValid = true ↔ years.1 ≤ d.year ∧ d.year ≤ years.2 ∧ d.Proper := by
  simp only [isValid, Bool.and_eq_true, decide_eq_true_eq]
  constructor
  · rintro ⟨⟨⟨⟨⟨hfirst, hlast⟩, hmonth⟩, hmonth'⟩, hday⟩, hday'⟩
    exact ⟨hfirst, hlast, hmonth, hmonth', hday, hday'⟩
  · rintro ⟨hfirst, hlast, hmonth, hmonth', hday, hday'⟩
    exact ⟨⟨⟨⟨⟨hfirst, hlast⟩, hmonth⟩, hmonth'⟩, hday⟩, hday'⟩

/-! ## One day -/

theorem daysIn_pos (year : Int) (month : Nat) : 1 ≤ daysIn year month := by
  unfold daysIn
  split
  · split <;> decide
  all_goals decide

theorem daysOfMonths_pred (h : 1 ≤ d.month) :
    daysOfMonths d.year d.month = daysOfMonths d.year (d.month - 1) + daysIn d.year d.month := by
  obtain ⟨months, hmonths⟩ := Nat.exists_eq_add_of_le' h
  rw [hmonths]
  rfl

theorem Proper.next (h : d.Proper) : d.next.Proper := by
  obtain ⟨hmonth, hmonth', hday, hday'⟩ := h
  unfold Date.next
  split
  · constructor <;> dsimp only <;> omega
  · split
    · exact ⟨by dsimp only; omega, by dsimp only; omega, Nat.le_refl 1, daysIn_pos _ _⟩
    · exact ⟨Nat.le_refl 1, Nat.le_add_left 1 11, Nat.le_refl 1, daysIn_pos _ _⟩

theorem Proper.previous (h : d.Proper) : d.previous.Proper := by
  obtain ⟨hmonth, hmonth', hday, hday'⟩ := h
  unfold Date.previous
  split
  · constructor <;> dsimp only <;> omega
  · split
    · exact ⟨by dsimp only; omega, by dsimp only; omega, daysIn_pos _ _, Nat.le_refl _⟩
    · exact ⟨Nat.le_add_left 1 11, Nat.le_refl 12, daysIn_pos (d.year - 1) 12, Nat.le_refl _⟩

/-- The next day is a later one of the month, or the first one of the next month or of the next year. -/
theorem Proper.ordinal_next (h : d.Proper) : d.next.ordinal = d.ordinal + 1 := by
  obtain ⟨hmonth, hmonth', hday, hday'⟩ := h
  have hmonths := daysOfMonths_pred hmonth
  unfold Date.next
  split
  · simp only [ordinal]
    omega
  · split
    · simp only [ordinal, Nat.add_sub_cancel]
      omega
    · have htwelve : d.month = 12 := by omega
      have hyear := daysBefore_succ d.year
      rw [← htwelve] at hyear
      simp only [ordinal, hyear, Nat.sub_self, daysOfMonths]
      omega

/-- The day before is an earlier one of the month, or the last one of the month or of the year before. -/
theorem Proper.ordinal_previous (h : d.Proper) : d.previous.ordinal = d.ordinal - 1 := by
  obtain ⟨hmonth, hmonth', hday, hday'⟩ := h
  unfold Date.previous
  split
  · simp only [ordinal]
    omega
  · split
    · rename_i hlater
      have hmonths : daysOfMonths d.year (d.month - 1) =
          daysOfMonths d.year (d.month - 1 - 1) + daysIn d.year (d.month - 1) :=
        daysOfMonths_pred (d := ⟨d.year, d.month - 1, 1⟩) (by dsimp only; omega)
      simp only [ordinal]
      omega
    · have hone : d.month = 1 := by omega
      have hyear : daysBefore d.year = daysBefore (d.year - 1) + daysOfMonths (d.year - 1) 12 := by
        rw [← daysBefore_succ, Int.sub_add_cancel]
      have hmonths : daysOfMonths (d.year - 1) 12 = daysOfMonths (d.year - 1) (12 - 1) + daysIn (d.year - 1) 12 := rfl
      have hzero : daysOfMonths d.year (1 - 1) = 0 := rfl
      simp only [ordinal, hyear, hmonths, hone, hzero]
      omega

/-! ## Several days -/

theorem Proper.repeat_next (h : d.Proper) (n : Nat) : (n.repeat Date.next d).Proper ∧
    (n.repeat Date.next d).ordinal = d.ordinal + n := by
  induction n with
  | zero => exact ⟨h, (Int.add_zero _).symm⟩
  | succ n ih =>
    refine ⟨ih.1.next, ?_⟩
    rw [Nat.repeat, ih.1.ordinal_next, ih.2]
    omega

theorem Proper.repeat_previous (h : d.Proper) (n : Nat) : (n.repeat Date.previous d).Proper ∧
    (n.repeat Date.previous d).ordinal = d.ordinal - n := by
  induction n with
  | zero => exact ⟨h, (Int.sub_zero _).symm⟩
  | succ n ih =>
    refine ⟨ih.1.previous, ?_⟩
    rw [Nat.repeat, ih.1.ordinal_previous, ih.2]
    omega

/-- Moving a date moves its number. -/
theorem Proper.addDays (h : d.Proper) (days : Int) :
    (d.addDays days).Proper ∧ (d.addDays days).ordinal = d.ordinal + days := by
  unfold Date.addDays
  split
  · obtain ⟨hproper, hordinal⟩ := h.repeat_next days.natAbs
    exact ⟨hproper, by omega⟩
  · obtain ⟨hproper, hordinal⟩ := h.repeat_previous days.natAbs
    exact ⟨hproper, by omega⟩

/-! ## Order -/

/-- The days of a year stand between its first months and the next year. -/
theorem Proper.ordinal_bounds (h : d.Proper) :
    daysBefore d.year + daysOfMonths d.year (d.month - 1) < d.ordinal ∧
      d.ordinal ≤ daysBefore d.year + daysOfMonths d.year d.month := by
  obtain ⟨hmonth, hmonth', hday, hday'⟩ := h
  have hmonths := daysOfMonths_pred hmonth
  simp only [ordinal]
  omega

theorem daysOfMonths_mono (year : Int) {months months' : Nat} (h : months ≤ months') :
    daysOfMonths year months ≤ daysOfMonths year months' :=
  monotone_nat_of_le_succ (fun _ => Nat.le_add_right _ _) h

theorem daysBefore_mono {year year' : Int} (h : year ≤ year') : daysBefore year ≤ daysBefore year' := by
  have hmono : Monotone daysBefore := by
    refine monotone_int_of_le_succ fun year => ?_
    rw [daysBefore_succ]
    omega
  exact hmono h

theorem ordinal_lt_of_lt {a b : Date} (ha : a.Proper) (hb : b.Proper) (h : compare a b = .lt) :
    a.ordinal < b.ordinal := by
  simp only [compare_eq, Ordering.then_eq_lt, compare_lt_iff_lt, compare_eq_iff_eq] at h
  have hupper := ha.ordinal_bounds.2
  have hlower := hb.ordinal_bounds.1
  rcases h with hyear | ⟨hyear, hmonth | ⟨hmonth, hday⟩⟩
  · -- the later year begins behind all twelve months of the earlier one
    have hmonths := daysOfMonths_mono a.year ha.month_le
    have hyears := daysBefore_mono (Int.add_one_le_of_lt hyear)
    rw [daysBefore_succ] at hyears
    omega
  · have hmonths := daysOfMonths_mono a.year (Nat.le_sub_one_of_lt hmonth)
    rw [← hyear] at hlower
    omega
  · simp only [ordinal, ← hyear, ← hmonth]
    omega

/-- Dates are ordered as their numbers are. -/
theorem compare_ordinal {a b : Date} (ha : a.Proper) (hb : b.Proper) :
    compare a b = compare a.ordinal b.ordinal := by
  cases h : compare a b with
  | lt => exact (compare_lt_iff_lt.mpr (ordinal_lt_of_lt ha hb h)).symm
  | eq =>
    obtain rfl := Std.LawfulEqCmp.eq_of_compare h
    exact Std.ReflCmp.compare_self.symm
  | gt =>
    have hlt := ordinal_lt_of_lt hb ha (Std.OrientedCmp.gt_iff_lt.mp h)
    exact (compare_gt_iff_gt.mpr hlt).symm

theorem eq_of_ordinal_eq {a b : Date} (ha : a.Proper) (hb : b.Proper) (h : a.ordinal = b.ordinal) : a = b := by
  have hcompare : compare a b = .eq := by
    rw [compare_ordinal ha hb, h]
    exact Std.ReflCmp.compare_self
  exact Std.LawfulEqCmp.eq_of_compare hcompare

/-! ## Years -/

theorem year_next (d : Date) : d.year ≤ d.next.year ∧ d.next.year ≤ d.year + 1 := by
  unfold next
  split
  · dsimp only
    omega
  · split <;> dsimp only <;> omega

theorem year_previous (d : Date) : d.year - 1 ≤ d.previous.year ∧ d.previous.year ≤ d.year := by
  unfold previous
  split
  · dsimp only
    omega
  · split <;> dsimp only <;> omega

/-- Within a day of a date is no year but its own and the two beside it. -/
theorem year_addDays (d : Date) {days : Int} (h : -1 ≤ days) (h' : days ≤ 1) :
    d.year - 1 ≤ (d.addDays days).year ∧ (d.addDays days).year ≤ d.year + 1 := by
  have hnext := d.year_next
  have hprevious := d.year_previous
  obtain rfl | rfl | rfl : days = -1 ∨ days = 0 ∨ days = 1 := by omega
  · show d.year - 1 ≤ d.previous.year ∧ d.previous.year ≤ d.year + 1
    omega
  · show d.year - 1 ≤ d.year ∧ d.year ≤ d.year + 1
    omega
  · show d.year - 1 ≤ d.next.year ∧ d.next.year ≤ d.year + 1
    omega

end Date

/-! ## Moments -/

namespace Moment

/-- A moment that the calendar has, in the range of years, with a leap second at the end of a minute or without one. -/
structure Proper (m : Moment) : Prop where
  date : m.date.isValid = true
  hour : m.hour < 24
  minute : m.minute < 60
  second : m.second < 60
  nanosecond : m.nanosecond < 1000000000 ∨ m.second = 59 ∧ m.nanosecond < 2000000000

/-- The number of a moment's minute. -/
def minutes (m : Moment) : Int :=
  1440 * m.date.ordinal + 60 * m.hour + m.minute

/-- Moving a moment moves its minute, through the ends of days, months and years. The time of day comes out of the
remainder, and what is left over moves the date. -/
theorem minutes_addMinutes {m : Moment} (h : m.date.Proper) (minutes : Int) :
    (m.addMinutes minutes).minutes = m.minutes + minutes := by
  have hordinal := fun days => (h.addDays days).2
  simp only [Moment.minutes, addMinutes, hordinal]
  omega

/-- A moment that is moved by less than a day is one that the calendar has, unless it leaves the range of years. -/
theorem Proper.addMinutes {m : Moment} (h : m.Proper) (hyear : Date.years.1 < m.date.year)
    (hyear' : m.date.year < Date.years.2) {minutes : Int} (hleast : -1440 < minutes) (hmost : minutes < 1440) :
    (m.addMinutes minutes).Proper := by
  obtain ⟨hdate, hhour, hminute, hsecond, hnanosecond⟩ := h
  have hproper := (Date.isValid_iff.mp hdate).2.2
  have hdays : -1 ≤ (60 * (m.hour : Int) + m.minute + minutes) / 1440 ∧
      (60 * (m.hour : Int) + m.minute + minutes) / 1440 ≤ 1 := by omega
  have hmoved := m.date.year_addDays hdays.1 hdays.2
  refine ⟨Date.isValid_iff.mpr ⟨?_, ?_, (hproper.addDays _).1⟩, ?_, ?_, hsecond, hnanosecond⟩
  · simp only [Moment.addMinutes]
    omega
  · simp only [Moment.addMinutes]
    omega
  · simp only [Moment.addMinutes]
    omega
  · simp only [Moment.addMinutes]
    omega

/-- No two moments that the calendar has share minute, second and nanosecond. -/
theorem Proper.eq_of_minutes_eq {a b : Moment} (ha : a.Proper) (hb : b.Proper) (hminutes : a.minutes = b.minutes)
    (hsecond : a.second = b.second) (hnanosecond : a.nanosecond = b.nanosecond) : a = b := by
  have hhour := ha.hour
  have hminute := ha.minute
  have hhour' := hb.hour
  have hminute' := hb.minute
  simp only [minutes] at hminutes
  have hordinal : a.date.ordinal = b.date.ordinal := by omega
  have hdate := Date.eq_of_ordinal_eq (Date.isValid_iff.mp ha.date).2.2 (Date.isValid_iff.mp hb.date).2.2 hordinal
  obtain ⟨date, hour, minute, second, nanosecond⟩ := a
  obtain ⟨date', hour', minute', second', nanosecond'⟩ := b
  dsimp only at *
  obtain rfl : hour = hour' := by omega
  obtain rfl : minute = minute' := by omega
  subst hdate hsecond hnanosecond
  rfl

end Moment

end RecordQuery.Calendar
