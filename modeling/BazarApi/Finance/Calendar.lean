import Mathlib.Algebra.Order.Group.Basic
import Mathlib.Algebra.Order.Ring.Int
import BazarApi.Common

/- Calendar dates and the business clock, six hours behind UTC all year round. Days are
   counted from the epoch as ECMAScript counts them: `dayFromYear` is the first day of a
   year, and the year, month and day of an instant are found by looking up. `Date.UTC`
   takes the years 0 to 99 for 1900 to 1999; `businessStart` puts the year back.

   Correspondence (TypeScript ↔ Lean):
     `finance/work-shift.dto.ts` `isCalendarDate`      ↔ `CalendarDate`
     `common/business-time.ts` `fromLocalReadable`     ↔ `fromLocalReadable`
     `common/business-time.ts` `parseRangeBoundary`    ↔ `rangeStart`, for a date and 'start'
     `common/business-time.ts` `currentBusinessDate`   ↔ `currentBusinessDate`
     `finance-overview.service.ts` `businessStart`     ↔ `businessStart`
     `Date.prototype.setUTCFullYear`, `toISOString`    ↔ `setUTCFullYear`, `isoText` -/
namespace Bazar.Finance

/-! Days and years. -/

def msPerDay : Int := 86400000

/-- The day a year begins on. -/
def dayFromYear (y : Int) : Int :=
  365 * (y - 1970) + (y - 1969) / 4 - (y - 1901) / 100 + (y - 1601) / 400

def isLeap (y : Int) : Bool := y % 4 = 0 ∧ (y % 100 ≠ 0 ∨ y % 400 = 0)

/-- The year a day lies in: the mean year gives it up to one. -/
def yearFromDay (n : Int) : Int :=
  let y := n * 400 / 146097 + 1970
  if n < dayFromYear y then y - 1
  else if dayFromYear (y + 1) ≤ n then y + 1
  else y

theorem dayFromYear_succ (y : Int) :
    dayFromYear (y + 1) = dayFromYear y + if isLeap y then 366 else 365 := by
  unfold dayFromYear isLeap
  simp only [decide_eq_true_eq]
  split <;> omega

theorem dayFromYear_lt {y z : Int} (h : y < z) : dayFromYear y < dayFromYear z := by
  obtain ⟨n, rfl⟩ := Int.le.dest h
  induction n with
  | zero =>
    rw [Int.natCast_zero, Int.add_zero, dayFromYear_succ]
    split <;> omega
  | succ n ih =>
    have ih := ih (by omega)
    rw [Int.natCast_succ, ← Int.add_assoc, dayFromYear_succ]
    split <;> omega

theorem dayFromYear_le {y z : Int} (h : y ≤ z) : dayFromYear y ≤ dayFromYear z := by
  rcases Int.lt_or_eq_of_le h with hlt | rfl
  · exact Int.le_of_lt (dayFromYear_lt hlt)
  · exact Int.le_refl _

theorem lt_of_dayFromYear_lt {y z : Int} (h : dayFromYear y < dayFromYear z) : y < z := by
  rcases Int.lt_trichotomy y z with hlt | rfl | hgt
  · exact hlt
  · exact absurd h (Int.lt_irrefl _)
  · exact absurd (Int.lt_trans h (dayFromYear_lt hgt)) (Int.lt_irrefl _)

theorem yearFromDay_spec (n : Int) :
    dayFromYear (yearFromDay n) ≤ n ∧ n < dayFromYear (yearFromDay n + 1) := by
  unfold yearFromDay
  simp only
  generalize hy : n * 400 / 146097 + 1970 = y
  split
  · rename_i h
    rw [sub_add_cancel]
    refine ⟨?_, h⟩
    unfold dayFromYear at *
    omega
  · rename_i h
    split
    · rename_i h'
      refine ⟨h', ?_⟩
      unfold dayFromYear at *
      omega
    · rename_i h'
      exact ⟨not_lt.mp h, not_le.mp h'⟩

theorem yearFromDay_eq {n y : Int} (h : dayFromYear y ≤ n) (h' : n < dayFromYear (y + 1)) :
    yearFromDay n = y := by
  obtain ⟨hs, hs'⟩ := yearFromDay_spec n
  have h1 := lt_of_dayFromYear_lt (h.trans_lt hs')
  have h2 := lt_of_dayFromYear_lt (hs.trans_lt h')
  omega

/-! Months, from 1 to 12. -/

/-- The days of a year before a month; before month 13, all of them. -/
def daysBeforeMonth (leap : Bool) (month : Nat) : Int :=
  ([0, 31, 59, 90, 120, 151, 181, 212, 243, 273, 304, 334, 365].getD (month - 1) 0 : Int) +
    if leap ∧ 2 < month then 1 else 0

def daysInMonth (leap : Bool) (month : Nat) : Int :=
  daysBeforeMonth leap (month + 1) - daysBeforeMonth leap month

/-- The month of a day of the year, counted from 0. -/
def monthFromDay (leap : Bool) (n : Int) : Nat :=
  ((List.range' 2 11).find? fun m => n < daysBeforeMonth leap m).elim 12 (· - 1)

def dayOf (y : Int) (month : Nat) (day : Int) : Int :=
  dayFromYear y + daysBeforeMonth (isLeap y) month + (day - 1)

/-! Instants. -/

def yearOf (t : Instant) : Int := yearFromDay (t / msPerDay)

def dayOfYear (t : Instant) : Int := t / msPerDay - dayFromYear (yearOf t)

def monthOf (t : Instant) : Nat := monthFromDay (isLeap (yearOf t)) (dayOfYear t)

def dateOf (t : Instant) : Int :=
  dayOfYear t - daysBeforeMonth (isLeap (yearOf t)) (monthOf t) + 1

def setUTCFullYear (t : Instant) (y : Int) : Instant :=
  msPerDay * dayOf y (monthOf t) (dateOf t) + t % msPerDay

/-- `Date.UTC` of a day. -/
def dateUTC (y : Int) (month : Nat) (day : Int) : Instant :=
  msPerDay * dayOf (if 0 ≤ y ∧ y ≤ 99 then 1900 + y else y) month day

def businessTzOffsetMinutes : Int := -6 * 60

def toLocalReadable (t : Instant) : Instant := t + businessTzOffsetMinutes * 60000

def fromLocalReadable (t : Instant) : Instant := t - businessTzOffsetMinutes * 60000

/-- Decimal digits, at least `width` of them. -/
def padStart (width n : Nat) : String :=
  let digits := Nat.toDigits 10 n
  String.ofList (List.replicate (width - digits.length) '0' ++ digits)

/-- The year as ISO 8601 writes it: four digits, or a sign and six. -/
def isoYear (y : Int) : String :=
  if 0 ≤ y ∧ y ≤ 9999 then padStart 4 y.toNat
  else (if y < 0 then "-" else "+") ++ padStart 6 y.natAbs

def isoText (t : Instant) : String :=
  let ms := (t % msPerDay).toNat
  isoYear (yearOf t) ++ "-" ++ padStart 2 (monthOf t) ++ "-" ++ padStart 2 (dateOf t).toNat ++
    "T" ++ padStart 2 (ms / 3600000) ++ ":" ++ padStart 2 (ms / 60000 % 60) ++ ":" ++
    padStart 2 (ms / 1000 % 60) ++ "." ++ padStart 3 (ms % 1000) ++ "Z"

/-- The business day of an instant. -/
def currentBusinessDate (t : Instant) : String :=
  let l := toLocalReadable t
  toString (yearOf l) ++ "-" ++ padStart 2 (monthOf l) ++ "-" ++ padStart 2 (dateOf l).toNat

/-! Calendar dates. -/

/-- What `isCalendarDate` lets through. -/
structure CalendarDate where
  year : Nat
  month : Nat
  day : Nat
  year_range : 1 ≤ year ∧ year ≤ 9999
  month_range : 1 ≤ month ∧ month ≤ 12
  day_range : 1 ≤ day ∧ (day : Int) ≤ daysInMonth (isLeap year) month
  deriving DecidableEq

namespace CalendarDate

def text (c : CalendarDate) : String :=
  padStart 4 c.year ++ "-" ++ padStart 2 c.month ++ "-" ++ padStart 2 c.day

/-- The eight digits of the text, which order dates as the text and the calendar do. -/
def number (c : CalendarDate) : Nat := c.year * 10000 + c.month * 100 + c.day

instance : LT CalendarDate := ⟨fun a b => a.number < b.number⟩
instance : LE CalendarDate := ⟨fun a b => a.number ≤ b.number⟩

instance (a b : CalendarDate) : Decidable (a < b) :=
  inferInstanceAs (Decidable (a.number < b.number))

instance (a b : CalendarDate) : Decidable (a ≤ b) :=
  inferInstanceAs (Decidable (a.number ≤ b.number))

end CalendarDate

def rangeStart (c : CalendarDate) : Instant :=
  fromLocalReadable (dateUTC c.year c.month c.day)

/-- The instant a business day begins. -/
def businessStart (c : CalendarDate) : Instant := setUTCFullYear (rangeStart c) c.year

/-! What the lookups find. -/

theorem daysBeforeMonth_mono (leap : Bool) :
    ∀ a ≤ 13, ∀ b ≤ 13, a ≤ b → daysBeforeMonth leap a ≤ daysBeforeMonth leap b := by
  cases leap <;> decide

theorem monthFromDay_eq {leap : Bool} {month : Nat} {n : Int} (hm : 1 ≤ month ∧ month ≤ 12)
    (h : daysBeforeMonth leap month ≤ n) (h' : n < daysBeforeMonth leap (month + 1)) :
    monthFromDay leap n = month := by
  have hbefore : ∀ m, m ≤ month → ¬ n < daysBeforeMonth leap m := by
    intro m hle hlt
    have hmono := daysBeforeMonth_mono leap m (by omega) month (by omega) hle
    omega
  unfold monthFromDay
  by_cases hlast : month = 12
  · have hnone : ((List.range' 2 11).find? fun m => n < daysBeforeMonth leap m) = none := by
      rw [List.find?_range'_eq_none]
      intro m h2 h13
      simp only [decide_eq_false (hbefore m (by omega)), Bool.not_false]
    rw [hnone, hlast]
    rfl
  · have hsome : ((List.range' 2 11).find? fun m => n < daysBeforeMonth leap m) =
        some (month + 1) := by
      rw [List.find?_range'_eq_some]
      refine ⟨decide_eq_true h', List.mem_range'_1.mpr ⟨by omega, by omega⟩, ?_⟩
      intro m h2 hlt
      simp only [decide_eq_false (hbefore m (by omega)), Bool.not_false]
    rw [hsome]
    rfl

/-- A day of a month of a year, read back. -/
theorem dayOf_read {y : Int} {month : Nat} {day : Int} (hm : 1 ≤ month ∧ month ≤ 12)
    (hd : 1 ≤ day ∧ day ≤ daysInMonth (isLeap y) month) {t : Int}
    (ht : t / msPerDay = dayOf y month day) :
    yearOf t = y ∧ monthOf t = month ∧ dateOf t = day := by
  have h0 := daysBeforeMonth_mono (isLeap y) 1 (by omega) month (by omega) hm.1
  have h1 : daysBeforeMonth (isLeap y) 1 = 0 := by cases isLeap y <;> rfl
  have h13 : daysBeforeMonth (isLeap y) 13 = if isLeap y then 366 else 365 := by
    cases isLeap y <;> rfl
  have hend := daysBeforeMonth_mono (isLeap y) (month + 1) (by omega) 13 (by omega) (by omega)
  have hnext := dayFromYear_succ y
  unfold daysInMonth at hd
  unfold dayOf at ht
  have hy : yearOf t = y := by
    unfold yearOf
    refine yearFromDay_eq ?_ ?_
    · omega
    · rw [hnext, ← h13]
      omega
  have hday : dayOfYear t = daysBeforeMonth (isLeap y) month + (day - 1) := by
    unfold dayOfYear
    rw [hy, ht]
    omega
  have hmonth : monthOf t = month := by
    unfold monthOf
    rw [hy]
    exact monthFromDay_eq hm (by omega) (by omega)
  refine ⟨hy, hmonth, ?_⟩
  unfold dateOf
  rw [hmonth, hy, hday]
  omega

namespace CalendarDate

/-- The day of a date. -/
def days (c : CalendarDate) : Int := dayOf c.year c.month c.day

/-- The remapped years of `Date.UTC` are leap years when the ones they stand for are. -/
theorem isLeap_remapped (c : CalendarDate) :
    isLeap (if 0 ≤ (c.year : Int) ∧ (c.year : Int) ≤ 99 then 1900 + (c.year : Int) else c.year) =
      isLeap c.year := by
  have hpos := c.year_range.1
  unfold isLeap
  refine decide_eq_decide.mpr ?_
  split <;> omega

end CalendarDate

theorem day_and_time (n ms : Int) (h : 0 ≤ ms ∧ ms < msPerDay) :
    (msPerDay * n + ms) / msPerDay = n ∧ (msPerDay * n + ms) % msPerDay = ms := by
  unfold msPerDay at *
  omega

/-- A business day begins at six in the morning, UTC, of its date. -/
theorem businessStart_eq (c : CalendarDate) :
    businessStart c = msPerDay * c.days + 6 * 3600000 := by
  let y : Int := if 0 ≤ (c.year : Int) ∧ (c.year : Int) ≤ 99 then 1900 + c.year else c.year
  have hstart : rangeStart c = msPerDay * dayOf y c.month c.day + 6 * 3600000 := rfl
  obtain ⟨hday, hms⟩ := day_and_time (dayOf y c.month c.day) (6 * 3600000) (by decide)
  have hd : 1 ≤ (c.day : Int) ∧ (c.day : Int) ≤ daysInMonth (isLeap y) c.month := by
    rw [c.isLeap_remapped]
    exact ⟨by exact_mod_cast c.day_range.1, c.day_range.2⟩
  obtain ⟨-, hmonth, hdate⟩ := dayOf_read c.month_range hd hday
  unfold businessStart setUTCFullYear
  rw [hstart, hmonth, hdate, hms]
  rfl

end Bazar.Finance
