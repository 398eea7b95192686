import BazarApi.Finance.DateText

/- Business days and weeks (`common/business-time.ts`), and the days of the dashboard. The
   local day of an instant is a whole number, the days since the epoch; the texts, the
   boundaries and the weeks are all read off it (`parseRangeBoundary_text`,
   `currentWeekRange_eq`), so that they meet without a gap.

   Correspondence (TypeScript ↔ Lean):
     `Date.UTC`, `Date.prototype.getUTCDay`      ↔ `utc`, `getUTCDay`
     `parseRangeBoundary`, `currentWeekRange`    ↔ the same names
     `DashboardService.ranges`                   ↔ `ranges`
     `new Date` of a text that is no plain date  ↔ the parameter `newDate`

   No year here is past 10007, so no time value is out of the range of a `Date`. -/
namespace Bazar.Finance

/-! The clock. -/

/-- The day of a month counted from 0, which may lie outside the year. -/
def makeDay (y month day : Int) : Int :=
  dayFromYear (y + month / 12) + daysBeforeMonth (isLeap (y + month / 12)) ((month % 12).toNat + 1) +
    (day - 1)

/-- `Date.UTC`, which takes the years 0 to 99 for 1900 to 1999. -/
def utc (y month day ms : Int) : Instant :=
  msPerDay * makeDay (if 0 ≤ y ∧ y ≤ 99 then 1900 + y else y) month day + ms

/-- From 0, a Sunday; the epoch was a Thursday. -/
def getUTCDay (t : Instant) : Int := (t / msPerDay + 4) % 7

inductive Boundary where
  | start
  | stop
  deriving DecidableEq

/-- The numbers of a text of the form `YYYY-MM-DD`. -/
def dateOnly (cs : List Char) : Option (Nat × Nat × Nat) := do
  let (year, cs) ← digits 4 cs
  let (month, cs) ← digits 2 (← mark '-' cs)
  let (day, cs) ← digits 2 (← mark '-' cs)
  if cs.isEmpty then some (year, month, day) else none

def parseRangeBoundary (newDate : String → Option Instant) (value : String) (boundary : Boundary) :
    Except Err Instant :=
  match dateOnly value.toList with
  | some (year, month, day) =>
    match boundary with
    | .start => .ok (fromLocalReadable (utc year (month - 1) day 0))
    | .stop => .ok (fromLocalReadable (utc year (month - 1) day 86399999))
  | none =>
    match newDate value with
    | some t => .ok t
    | none => .error (.badRequest s!"Invalid date: {value}")

/-- Both ends belong to it. -/
structure InstantRange where
  start : Instant
  stop : Instant
  deriving DecidableEq

def currentWeekRange (instant : Instant) : InstantRange :=
  let l := toLocalReadable instant
  let dayOfWeek := getUTCDay l
  let localSundayStart := utc (yearOf l) ((monthOf l : Int) - 1) (dateOf l - dayOfWeek) 0
  let localSaturdayEnd := localSundayStart + 7 * 86400000 - 1
  ⟨fromLocalReadable localSundayStart, fromLocalReadable localSaturdayEnd⟩

structure DashboardRanges where
  today : InstantRange
  yesterday : InstantRange
  deriving DecidableEq

def ranges (newDate : String → Option Instant) (now : Instant) : Except Err DashboardRanges := do
  let today := currentBusinessDate now
  let yesterday := currentBusinessDate (now - 86400000)
  return {
    today := {
      start := ← parseRangeBoundary newDate today .start
      stop := ← parseRangeBoundary newDate today .stop }
    yesterday := {
      start := ← parseRangeBoundary newDate yesterday .start
      stop := ← parseRangeBoundary newDate yesterday .stop } }

/-! The date of a day. -/

theorem monthFromDay_range (leap : Bool) : ∀ n : Fin 366, (n.val : Int) < (if leap then 366 else 365) →
    1 ≤ monthFromDay leap n.val ∧ monthFromDay leap n.val ≤ 12 ∧
      daysBeforeMonth leap (monthFromDay leap n.val) ≤ n.val ∧
      n.val < daysBeforeMonth leap (monthFromDay leap n.val + 1) := by
  cases leap <;> decide +kernel

/-- The month and the day of an instant are those of a calendar. -/
theorem date_range (t : Instant) : (1 ≤ monthOf t ∧ monthOf t ≤ 12) ∧
    1 ≤ dateOf t ∧ dateOf t ≤ daysInMonth (isLeap (yearOf t)) (monthOf t) := by
  obtain ⟨h1, h2⟩ := yearFromDay_spec (t / msPerDay)
  rw [dayFromYear_succ] at h2
  have hday : 0 ≤ dayOfYear t ∧ dayOfYear t < if isLeap (yearOf t) then 366 else 365 :=
    ⟨sub_nonneg.mpr h1, sub_lt_iff_lt_add'.mpr h2⟩
  obtain ⟨n, hn⟩ := Int.eq_ofNat_of_zero_le hday.1
  have hlt : n < 366 := by
    split at hday <;> omega
  obtain ⟨hm, hm', hbefore, hnext⟩ := monthFromDay_range (isLeap (yearOf t)) ⟨n, hlt⟩ (hn ▸ hday.2)
  unfold daysInMonth dateOf monthOf
  rw [hn]
  refine ⟨⟨hm, hm'⟩, ?_, ?_⟩
  · exact Int.le_add_of_nonneg_left (Int.sub_nonneg_of_le hbefore)
  · simp only at hnext
    omega

/-- The date of an instant of the years from 1 to 9999. -/
def dateAt (t : Instant) (h : 1 ≤ yearOf t ∧ yearOf t ≤ 9999) : CalendarDate where
  year := (yearOf t).toNat
  month := monthOf t
  day := (dateOf t).toNat
  year_range := by omega
  month_range := (date_range t).1
  day_range := by
    have hd := (date_range t).2
    rw [Int.toNat_of_nonneg (by omega), Int.toNat_of_nonneg (by omega)]
    exact ⟨by omega, hd.2⟩

theorem dateAt_days {t : Instant} (h : 1 ≤ yearOf t ∧ yearOf t ≤ 9999) :
    (dateAt t h).days = t / msPerDay := by
  have hd := (date_range t).2
  change dayOf ((yearOf t).toNat : Int) (monthOf t) ((dateOf t).toNat : Int) = _
  rw [Int.toNat_of_nonneg (by omega), Int.toNat_of_nonneg (by omega), dayOf_self]

/-- A date is told by its day. -/
theorem CalendarDate.days_inj {a b : CalendarDate} (h : a.days = b.days) : a = b := by
  have read : ∀ c : CalendarDate, yearOf (msPerDay * c.days) = c.year ∧
      monthOf (msPerDay * c.days) = c.month ∧ dateOf (msPerDay * c.days) = c.day := by
    intro c
    refine dayOf_read c.month_range ⟨by exact_mod_cast c.day_range.1, c.day_range.2⟩ ?_
    exact Int.mul_ediv_cancel_left _ (by decide)
  obtain ⟨hy, hm, hd⟩ := read a
  obtain ⟨hy', hm', hd'⟩ := read b
  rw [h] at hy hm hd
  cases a
  cases b
  simp only [CalendarDate.mk.injEq] at *
  omega

/-! Boundaries of days. -/

theorem utc_eq {y : Int} {month : Nat} (hy : 100 ≤ y) (hm : 1 ≤ month ∧ month ≤ 12) (day ms : Int) :
    utc y ((month : Int) - 1) day ms = msPerDay * dayOf y month day + ms := by
  have hdiv : ((month : Int) - 1) / 12 = 0 := by omega
  have hmod : (((month : Int) - 1) % 12).toNat + 1 = month := by omega
  unfold utc makeDay dayOf
  rw [if_neg (by omega), hdiv, hmod, add_zero]

theorem dateOnly_text (c : CalendarDate) : dateOnly c.text.toList = some (c.year, c.month, c.day) := by
  have hd := c.day_range
  have hlong : ∀ leap : Bool, ∀ m : Fin 13, daysInMonth leap m.val < 100 := by decide
  have hday : c.day < 100 := by
    have := hlong (isLeap c.year) ⟨c.month, Nat.lt_succ_of_le c.month_range.2⟩
    simp only at this
    omega
  have hdash : "-".toList = ['-'] := rfl
  have hm := c.month_range
  have hy := c.year_range
  have hlast := digits_padStart 2 c.day (by decide) (by omega) []
  rw [List.append_nil] at hlast
  unfold dateOnly CalendarDate.text
  simp only [String.toList_append, hdash, List.append_assoc, List.cons_append, List.nil_append]
  rw [digits_padStart 4 c.year (by decide) (by omega)]
  dsimp only [Option.bind_eq_bind, Option.bind_some]
  rw [mark_cons, Option.bind_some, digits_padStart 2 c.month (by decide) (by omega)]
  dsimp only [Option.bind_some]
  rw [mark_cons, Option.bind_some, hlast]
  rfl

/-- When a business day begins. -/
def dayStart (n : Int) : Int := msPerDay * n + 6 * 3600000

variable (newDate : String → Option Instant)

/-- The text of a date stands for the whole of its day. -/
theorem parseRangeBoundary_text (c : CalendarDate) (hc : 100 ≤ c.year) :
    parseRangeBoundary newDate c.text .start = .ok (dayStart c.days) ∧
      parseRangeBoundary newDate c.text .stop = .ok (dayStart (c.days + 1) - 1) := by
  have hutc : ∀ ms, utc c.year ((c.month : Int) - 1) c.day ms =
      msPerDay * dayOf c.year c.month c.day + ms :=
    fun ms => utc_eq (by exact_mod_cast hc) c.month_range _ ms
  unfold parseRangeBoundary
  rw [dateOnly_text]
  dsimp only
  rw [hutc, hutc]
  have hday : dayOf c.year c.month c.day = c.days := rfl
  rw [hday]
  unfold fromLocalReadable businessTzOffsetMinutes dayStart msPerDay
  generalize c.days = n
  refine ⟨congrArg Except.ok ?_, congrArg Except.ok ?_⟩
  · change 86400000 * n + 0 - -6 * 60 * 60000 = 86400000 * n + 6 * 3600000
    omega
  · change 86400000 * n + 86399999 - -6 * 60 * 60000 = 86400000 * (n + 1) + 6 * 3600000 - 1
    omega

/-- The business day of an instant, as a number. -/
def businessDay (t : Instant) : Int := toLocalReadable t / msPerDay

theorem businessDay_iff (t n : Int) :
    businessDay t = n ↔ dayStart n ≤ t ∧ t ≤ dayStart (n + 1) - 1 := by
  unfold businessDay toLocalReadable businessTzOffsetMinutes dayStart msPerDay
  omega

/-- `String(year)` has four digits in these years. -/
theorem toString_year {y : Int} (h : 1000 ≤ y ∧ y ≤ 9999) : toString y = padStart 4 y.toNat := by
  obtain ⟨n, rfl⟩ := Int.eq_ofNat_of_zero_le (by omega : 0 ≤ y)
  have hlen : ¬ (Nat.toDigits 10 n).length ≤ 3 := by
    rw [Nat.length_toDigits_le_iff (by decide) (by decide)]
    omega
  have hzeros : 4 - (Nat.toDigits 10 n).length = 0 := by omega
  unfold padStart
  dsimp only
  rw [Int.toNat_natCast, hzeros]
  rfl

/-! Instants of four-digit years. -/

/-- The local year is between 1000 and 9999. -/
def InYears (t : Instant) : Prop :=
  1000 ≤ yearOf (toLocalReadable t) ∧ yearOf (toLocalReadable t) ≤ 9999

instance (t : Instant) : Decidable (InYears t) := inferInstanceAs (Decidable (_ ∧ _))

theorem yearOf_le_iff (y : Int) (t : Instant) : y ≤ yearOf t ↔ dayFromYear y ≤ t / msPerDay := by
  obtain ⟨h1, h2⟩ := yearFromDay_spec (t / msPerDay)
  constructor
  · intro h
    exact (dayFromYear_le h).trans h1
  · intro h
    have := lt_of_dayFromYear_lt (h.trans_lt h2)
    exact Int.lt_add_one_iff.mp this

/-- The first local day of these years. -/
theorem inYears_iff (t : Instant) :
    InYears t ↔ dayFromYear 1000 ≤ businessDay t ∧ businessDay t < dayFromYear 10000 := by
  unfold InYears businessDay
  rw [yearOf_le_iff, ← not_lt (b := yearOf _), Int.lt_iff_add_one_le (a := 9999), yearOf_le_iff, not_le]
  rfl

section
variable {t : Instant} (h : InYears t)
include h

/-- The calendar date of an instant. -/
def businessDate : CalendarDate :=
  dateAt (toLocalReadable t) ⟨le_trans (by decide) h.1, h.2⟩

theorem businessDate_days : (businessDate h).days = businessDay t := dateAt_days _

theorem businessDate_year : 1000 ≤ (businessDate h).year := by
  have := h.1
  change 1000 ≤ (yearOf (toLocalReadable t)).toNat
  omega

theorem currentBusinessDate_eq : currentBusinessDate t = (businessDate h).text := by
  unfold currentBusinessDate CalendarDate.text
  dsimp only
  rw [toString_year h]
  rfl

end

/-! Weeks. -/

/-- The week that begins on a Sunday, counted in Sundays. -/
def week (k : Int) : InstantRange := ⟨dayStart (7 * k - 4), dayStart (7 * (k + 1) - 4) - 1⟩

/-- The number of the week of an instant. -/
def weekNumber (t : Instant) : Int := (businessDay t + 4) / 7

theorem currentWeekRange_eq {t : Instant} (h : 100 ≤ yearOf (toLocalReadable t)) :
    currentWeekRange t = week (weekNumber t) := by
  have hday := dayOf_self (toLocalReadable t)
  have hsunday : utc (yearOf (toLocalReadable t)) ((monthOf (toLocalReadable t) : Int) - 1)
      (dateOf (toLocalReadable t) - getUTCDay (toLocalReadable t)) 0 =
      msPerDay * (7 * weekNumber t - 4) := by
    rw [utc_eq h (date_range _).1]
    change msPerDay * (dayFromYear _ + daysBeforeMonth _ _ + _) + 0 = _
    unfold dayOf at hday
    unfold getUTCDay weekNumber businessDay
    rw [← hday]
    generalize dayFromYear _ + daysBeforeMonth _ _ = n
    generalize dateOf (toLocalReadable t) = day
    unfold msPerDay
    omega
  unfold currentWeekRange week
  dsimp only
  rw [hsunday]
  unfold fromLocalReadable businessTzOffsetMinutes dayStart msPerDay
  generalize weekNumber t = k
  congr 1
  change 86400000 * (7 * k - 4) + 7 * 86400000 - 1 - -6 * 60 * 60000 =
    86400000 * (7 * (k + 1) - 4) + 6 * 3600000 - 1
  omega

theorem weekNumber_iff (t k : Int) :
    weekNumber t = k ↔ (week k).start ≤ t ∧ t ≤ (week k).stop := by
  change (businessDay t + 4) / 7 = k ↔ dayStart (7 * k - 4) ≤ t ∧ t ≤ dayStart (7 * (k + 1) - 4) - 1
  unfold businessDay toLocalReadable businessTzOffsetMinutes dayStart msPerDay
  omega

/-- Different weeks have no instant in common. -/
theorem week_lt {k k' : Int} (h : k < k') : (week k).stop < (week k').start := by
  change dayStart (7 * (k + 1) - 4) - 1 < dayStart (7 * k' - 4)
  unfold dayStart msPerDay
  omega

theorem week_next (k : Int) : (week k).stop + 1 = (week (k + 1)).start := by
  change dayStart (7 * (k + 1) - 4) - 1 + 1 = dayStart (7 * (k + 1) - 4)
  omega

theorem week_sunday (k : Int) : getUTCDay (toLocalReadable (week k).start) = 0 ∧
    toLocalReadable (week k).start % msPerDay = 0 := by
  change (((dayStart (7 * k - 4) + _) / msPerDay + 4) % 7 = 0) ∧
    (dayStart (7 * k - 4) + _) % msPerDay = 0
  unfold businessTzOffsetMinutes dayStart msPerDay
  omega

/-- A week that begins no earlier than an instant of these years is found from its start. -/
theorem week_of_start {t k : Int} (hle : t ≤ (week k).start)
    (h : 100 ≤ yearOf (toLocalReadable t)) : currentWeekRange (week k).start = week k := by
  have hnumber : weekNumber (week k).start = k := by
    refine (weekNumber_iff _ k).mpr ⟨le_refl _, ?_⟩
    change dayStart (7 * k - 4) ≤ dayStart (7 * (k + 1) - 4) - 1
    unfold dayStart msPerDay
    omega
  have hday : toLocalReadable t / msPerDay ≤ toLocalReadable (week k).start / msPerDay :=
    Int.ediv_le_ediv (by decide) (Int.add_le_add_right hle _)
  have hyear := (yearOf_le_iff 100 _).mpr (((yearOf_le_iff 100 _).mp h).trans hday)
  rw [currentWeekRange_eq hyear, hnumber]

/-! The dashboard. -/

section
variable {newDate : String → Option Instant} {t : Instant}

theorem businessDay_sub (t : Int) : businessDay (t - 86400000) = businessDay t - 1 := by
  unfold businessDay toLocalReadable businessTzOffsetMinutes msPerDay
  omega

/-- The ranges of a day and of the one before it. -/
theorem ranges_eq (h : InYears t) (hbefore : InYears (t - 86400000)) :
    ranges newDate t = .ok
      { today := ⟨dayStart (businessDay t), dayStart (businessDay t + 1) - 1⟩
        yesterday := ⟨dayStart (businessDay t - 1), dayStart (businessDay t) - 1⟩ } := by
  have hlong : ∀ {t : Instant} (h : InYears t), 100 ≤ (businessDate h).year :=
    fun h => le_trans (by decide) (businessDate_year h)
  obtain ⟨h1, h2⟩ := parseRangeBoundary_text newDate (businessDate h) (hlong h)
  obtain ⟨h3, h4⟩ := parseRangeBoundary_text newDate (businessDate hbefore)
    (hlong hbefore)
  rw [businessDate_days] at h1 h2 h3 h4
  rw [businessDay_sub] at h3 h4
  rw [sub_add_cancel] at h4
  unfold ranges
  dsimp only
  rw [currentBusinessDate_eq h, currentBusinessDate_eq hbefore, h1, h2, h3, h4]
  rfl

/-- The day before the first is written without a leading zero. -/
theorem currentBusinessDate_before (h : businessDay t = dayFromYear 1000) :
    currentBusinessDate (t - 86400000) = "999-12-31" := by
  have hday : toLocalReadable (t - 86400000) / msPerDay = dayOf 999 12 31 := by
    change businessDay (t - 86400000) = _
    rw [businessDay_sub, h]
    decide
  obtain ⟨hy, hm, hd⟩ := dayOf_read (by decide) (by decide) hday
  unfold currentBusinessDate
  dsimp only
  rw [hy, hm, hd]
  decide

/-- And is then no date of a day: whatever it is read as, it is one instant. -/
theorem ranges_first (h : businessDay t = dayFromYear 1000) {r : DashboardRanges}
    (hr : ranges newDate t = .ok r) : r.yesterday.start = r.yesterday.stop := by
  have hread : parseRangeBoundary newDate "999-12-31" .stop =
      parseRangeBoundary newDate "999-12-31" .start := by
    have hnone : dateOnly "999-12-31".toList = none := by decide
    unfold parseRangeBoundary
    rw [hnone]
  unfold ranges at hr
  dsimp only at hr
  rw [currentBusinessDate_before h, hread] at hr
  obtain ⟨_, -, hr⟩ := ok_of_bind hr
  obtain ⟨_, -, hr⟩ := ok_of_bind hr
  obtain ⟨a, ha, hr⟩ := ok_of_bind hr
  obtain ⟨b, hb, hr⟩ := ok_of_bind hr
  cases hr
  exact Except.ok.inj (ha.symm.trans hb)

end

/-- The clock of the business at an instant: its day is the only date whose boundaries hold
it; its week begins on a Sunday, holds it, and meets the others without overlap or gap; and
the yesterday of the dashboard is the business day before. -/
structure BusinessClock (newDate : String → Option Instant) (t : Instant) : Prop where
  day : ∃ d : CalendarDate, 1000 ≤ d.year ∧ d.text = currentBusinessDate t ∧
    ∀ d' : CalendarDate, 1000 ≤ d'.year →
      ((∃ a b, parseRangeBoundary newDate d'.text .start = .ok a ∧
        parseRangeBoundary newDate d'.text .stop = .ok b ∧ a ≤ t ∧ t ≤ b) ↔ d' = d)
  week : (currentWeekRange t).start ≤ t ∧ t ≤ (currentWeekRange t).stop
  sunday : getUTCDay (toLocalReadable (currentWeekRange t).start) = 0 ∧
    toLocalReadable (currentWeekRange t).start % msPerDay = 0
  weeks : ∀ t', InYears t' → currentWeekRange t = currentWeekRange t' ∨
    (currentWeekRange t).stop < (currentWeekRange t').start ∨
    (currentWeekRange t').stop < (currentWeekRange t).start
  next : (currentWeekRange ((currentWeekRange t).stop + 1)).start = (currentWeekRange t).stop + 1
  yesterday : ∃ r, ranges newDate t = .ok r ∧ r.today.start ≤ t ∧ t ≤ r.today.stop ∧
    r.yesterday.start = r.today.start - msPerDay ∧ r.yesterday.stop = r.today.start - 1

section
variable {newDate : String → Option Instant} {t : Instant} (h : InYears t)
include h

theorem day_unique {d : CalendarDate} (hd : 1000 ≤ d.year) :
    (∃ a b, parseRangeBoundary newDate d.text .start = .ok a ∧
      parseRangeBoundary newDate d.text .stop = .ok b ∧ a ≤ t ∧ t ≤ b) ↔ d = businessDate h := by
  obtain ⟨hstart, hstop⟩ := parseRangeBoundary_text newDate d (le_trans (by decide) hd)
  have hday : d = businessDate h ↔ businessDay t = d.days := by
    rw [← businessDate_days h]
    exact ⟨fun he => he ▸ rfl, fun he => CalendarDate.days_inj he.symm⟩
  rw [hday, businessDay_iff, hstart, hstop]
  constructor
  · rintro ⟨a, b, ha, hb, hat, htb⟩
    cases ha
    cases hb
    exact ⟨hat, htb⟩
  · rintro ⟨hat, htb⟩
    exact ⟨_, _, rfl, rfl, hat, htb⟩

theorem weekRange_eq : currentWeekRange t = week (weekNumber t) :=
  currentWeekRange_eq (le_trans (by decide) h.1)

/-- The first business day of these years is the only one whose day before is not. -/
theorem before_iff : InYears (t - 86400000) ↔ currentBusinessDate t ≠ "1000-01-01" := by
  let first : CalendarDate := ⟨1000, 1, 1, by decide, by decide, by decide⟩
  have htext : currentBusinessDate t = "1000-01-01" ↔ businessDay t = dayFromYear 1000 := by
    have hfirst : first.text = "1000-01-01" := by decide
    have hdays : first.days = dayFromYear 1000 := by decide
    rw [currentBusinessDate_eq h, ← hfirst, ← businessDate_days h, ← hdays]
    constructor
    · intro he
      have hread := CalendarDate.read_text (businessDate h)
      rw [he, CalendarDate.read_text] at hread
      rw [Option.some.inj hread]
    · intro he
      rw [CalendarDate.days_inj he]
  have hin := (inYears_iff t).mp h
  rw [Ne, htext, inYears_iff, businessDay_sub]
  omega

end

/-- For every instant of the years from 1000 to 9999, the clock is as it should be exactly
when the instant is not on the first of these days. -/
theorem businessClock_iff (newDate : String → Option Instant) (t : Instant) (h : InYears t) :
    BusinessClock newDate t ↔ currentBusinessDate t ≠ "1000-01-01" := by
  rw [← before_iff h]
  constructor
  · rintro ⟨-, -, -, -, -, r, hr, -, -, hstart, hstop⟩
    by_contra hbefore
    have hin := (inYears_iff t).mp h
    have hfirst : businessDay t = dayFromYear 1000 := by
      rw [inYears_iff, businessDay_sub] at hbefore
      omega
    have hone := ranges_first hfirst hr
    rw [hstart, hstop] at hone
    have hone : (r.today.start : Int) - 86400000 = (r.today.start : Int) - 1 := hone
    exact absurd (sub_right_injective hone) (by decide)
  · intro hbefore
    refine ⟨⟨businessDate h, businessDate_year h, (currentBusinessDate_eq h).symm,
      fun d hd => day_unique h hd⟩, ?_, ?_, ?_, ?_, _, ranges_eq h hbefore, ?_, ?_, ?_, rfl⟩
    · rw [weekRange_eq h]
      exact (weekNumber_iff t _).mp rfl
    · rw [weekRange_eq h]
      exact week_sunday _
    · intro t' h'
      rw [weekRange_eq h, weekRange_eq h']
      rcases lt_trichotomy (weekNumber t) (weekNumber t') with hlt | heq | hgt
      · exact .inr (.inl (week_lt hlt))
      · exact .inl (by rw [heq])
      · exact .inr (.inr (week_lt hgt))
    · rw [weekRange_eq h, week_next]
      exact congrArg InstantRange.start (week_of_start (lt_of_lt_of_eq
        (Int.lt_add_one_of_le ((weekNumber_iff t _).mp rfl).2) (week_next _)).le
        (le_trans (by decide) h.1))
    · exact ((businessDay_iff t _).mp rfl).1
    · exact ((businessDay_iff t _).mp rfl).2
    · change dayStart (businessDay t - 1) = dayStart (businessDay t) - msPerDay
      unfold dayStart msPerDay
      omega

/-- Six in the morning, UTC, of 1000-01-01: local midnight. -/
theorem businessClock_fails : ¬ ∀ newDate t, InYears t → BusinessClock newDate t := by
  intro h
  have hin : InYears (dayStart (dayFromYear 1000)) := by decide
  exact absurd (by decide : currentBusinessDate (dayStart (dayFromYear 1000)) = "1000-01-01")
    ((businessClock_iff (fun _ => none) _ hin).mp (h _ _ hin))

/-- New Year of 2026, at midnight and a millisecond before. -/
theorem businessClock_iff_newYear : BusinessClock (fun _ => none) (dayStart (dayFromYear 2026)) ∧
    BusinessClock (fun _ => none) (dayStart (dayFromYear 2026) - 1) :=
  ⟨(businessClock_iff _ _ (by decide)).mpr (by decide),
    (businessClock_iff _ _ (by decide)).mpr (by decide)⟩

end Bazar.Finance
