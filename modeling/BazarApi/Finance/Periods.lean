import BazarApi.Finance.Simulation

/- The overview is additive in time. A period is cut at a date: rows bounded by instants are
   cut at the start of that business day, shifts at the date itself, and every row falls in
   exactly one of the two parts. The instants cut where the dates do because `businessStart`
   keeps the order of the calendar, the years 1 to 99 included. -/
namespace Bazar.Finance

open Txn Team

/-! The calendar. -/

namespace CalendarDate

/-- The order of the eight digits is the order of the days. -/
theorem days_lt {a b : CalendarDate} (h : a < b) : a.days < b.days := by
  change a.number < b.number at h
  unfold number at h
  have ham := a.month_range
  have hbm := b.month_range
  have hau := daysBeforeMonth_mono (isLeap a.year) (a.month + 1) (by omega) 13 (by omega) (by omega)
  have hbl := daysBeforeMonth_mono (isLeap b.year) 1 (by omega) b.month (by omega) hbm.1
  have had := a.day_range
  have hbd := b.day_range
  have h1 : daysBeforeMonth (isLeap b.year) 1 = 0 := by cases isLeap b.year <;> rfl
  have hdays : ∀ c : CalendarDate, c.day ≤ 31 := by
    intro c
    have hc := c.day_range.2
    have hm : ∀ leap : Bool, ∀ m ≤ 12, 1 ≤ m → daysInMonth leap m ≤ 31 := by decide
    have := hm (isLeap c.year) c.month c.month_range.2 c.month_range.1
    omega
  have ha31 := hdays a
  have hb31 := hdays b
  unfold days dayOf
  unfold daysInMonth at had hbd
  rcases Nat.lt_trichotomy a.year b.year with hy | hy | hy
  · -- the year of `a` ends before the year of `b` begins
    have h13 : daysBeforeMonth (isLeap a.year) 13 = if isLeap a.year then 366 else 365 := by
      cases isLeap a.year <;> rfl
    have hnext := dayFromYear_succ a.year
    have hyears : dayFromYear (a.year + 1) ≤ dayFromYear b.year :=
      dayFromYear_le (by omega)
    omega
  · rw [hy] at hau had ⊢
    rcases Nat.lt_trichotomy a.month b.month with hm | hm | hm
    · have hmonths := daysBeforeMonth_mono (isLeap b.year) (a.month + 1) (by omega) b.month
        (by omega) (by omega)
      omega
    · rw [hm]
      omega
    · omega
  · omega

end CalendarDate

/-- The business days begin one after another, in the order of the calendar. -/
theorem businessStart_lt {a b : CalendarDate} (h : a < b) : businessStart a < businessStart b := by
  have hdays := CalendarDate.days_lt h
  rw [businessStart_eq, businessStart_eq]
  exact Int.add_lt_add_right (Int.mul_lt_mul_of_pos_left hdays (by decide)) _

/-- A business day begins at 06:00 UTC of its date, as ISO 8601 writes it. -/
theorem isoText_businessStart (c : CalendarDate) :
    isoText (businessStart c) = c.text ++ "T06:00:00.000Z" := by
  obtain ⟨hday, hms⟩ := day_and_time c.days (6 * 3600000) (by decide)
  obtain ⟨hyear, hmonth, hdate⟩ := dayOf_read c.month_range
    ⟨by exact_mod_cast c.day_range.1, c.day_range.2⟩ hday
  have hyears := c.year_range
  unfold isoText
  rw [businessStart_eq, hyear, hmonth, hdate, hms]
  unfold isoYear CalendarDate.text
  rw [if_pos (by omega), Int.toNat_natCast, Int.toNat_natCast]
  have htime : ("T" ++ padStart 2 ((6 * 3600000 : Int).toNat / 3600000) ++ ":" ++
      padStart 2 ((6 * 3600000 : Int).toNat / 60000 % 60) ++ ":" ++
      padStart 2 ((6 * 3600000 : Int).toNat / 1000 % 60) ++ "." ++
      padStart 3 ((6 * 3600000 : Int).toNat % 1000) ++ "Z") = "T06:00:00.000Z" := by decide
  rw [← htime]
  simp only [String.append_assoc]

/-! Figures. -/

/-- The figures of an overview that count or add up the rows of its period. -/
structure Figures where
  saleCount : Int
  salesMinor : Int
  recordedCostMinor : Int
  recordedGrossMarginMinor : Int
  totalLineCount : Int
  knownCostLineCount : Int
  missingCostLineCount : Int
  missingCostUnitCount : Int
  salesWithoutCostMinor : Int
  operatingMinor : Int
  inventoryPurchasesMinor : Int
  contributionsMinor : Int
  contributionCount : Int
  shiftCount : Int
  knownMinutes : Int
  unknownDurationCount : Int
  recordedOperatingResultMinor : Int
  deriving DecidableEq, Repr

instance : Add Figures :=
  ⟨fun a b =>
    { saleCount := a.saleCount + b.saleCount
      salesMinor := a.salesMinor + b.salesMinor
      recordedCostMinor := a.recordedCostMinor + b.recordedCostMinor
      recordedGrossMarginMinor := a.recordedGrossMarginMinor + b.recordedGrossMarginMinor
      totalLineCount := a.totalLineCount + b.totalLineCount
      knownCostLineCount := a.knownCostLineCount + b.knownCostLineCount
      missingCostLineCount := a.missingCostLineCount + b.missingCostLineCount
      missingCostUnitCount := a.missingCostUnitCount + b.missingCostUnitCount
      salesWithoutCostMinor := a.salesWithoutCostMinor + b.salesWithoutCostMinor
      operatingMinor := a.operatingMinor + b.operatingMinor
      inventoryPurchasesMinor := a.inventoryPurchasesMinor + b.inventoryPurchasesMinor
      contributionsMinor := a.contributionsMinor + b.contributionsMinor
      contributionCount := a.contributionCount + b.contributionCount
      shiftCount := a.shiftCount + b.shiftCount
      knownMinutes := a.knownMinutes + b.knownMinutes
      unknownDurationCount := a.unknownDurationCount + b.unknownDurationCount
      recordedOperatingResultMinor :=
        a.recordedOperatingResultMinor + b.recordedOperatingResultMinor }⟩

def Overview.figures (o : Overview) : Figures :=
  { saleCount := o.sales.saleCount
    salesMinor := o.sales.salesMinor
    recordedCostMinor := o.sales.recordedCostMinor
    recordedGrossMarginMinor := o.sales.recordedGrossMarginMinor
    totalLineCount := o.costCoverage.totalLineCount
    knownCostLineCount := o.costCoverage.knownCostLineCount
    missingCostLineCount := o.costCoverage.missingCostLineCount
    missingCostUnitCount := o.costCoverage.missingCostUnitCount
    salesWithoutCostMinor := o.costCoverage.salesWithoutCostMinor
    operatingMinor := o.operatingMinor
    inventoryPurchasesMinor := o.inventoryPurchasesMinor
    contributionsMinor := o.contributionsMinor
    contributionCount := o.contributionCount
    shiftCount := o.workShifts.shiftCount
    knownMinutes := o.workShifts.knownMinutes
    unknownDurationCount := o.workShifts.unknownDurationCount
    recordedOperatingResultMinor := o.result.recordedOperatingResultMinor }

namespace Books

def saleTotals (b : Books) : SaleTotals := (b.sales.map RecordedSale.totals).sum

def expenseTotals (b : Books) : Int × Int := (b.expenses.map expenseParts).sum

/-- The figures without the check of their range. -/
def figures (b : Books) : Figures :=
  { saleCount := b.sales.length
    salesMinor := b.saleTotals.salesMinor
    recordedCostMinor := b.saleTotals.costMinor
    recordedGrossMarginMinor := b.saleTotals.salesMinor - b.saleTotals.costMinor
    totalLineCount := b.saleTotals.totalLines
    knownCostLineCount := b.saleTotals.knownLines
    missingCostLineCount := b.saleTotals.totalLines - b.saleTotals.knownLines
    missingCostUnitCount := b.saleTotals.missingUnits
    salesWithoutCostMinor := b.saleTotals.uncostedRevenue
    operatingMinor := b.expenseTotals.1
    inventoryPurchasesMinor := b.expenseTotals.2
    contributionsMinor := b.contributions.sum
    contributionCount := b.contributions.length
    shiftCount := b.shifts.length
    knownMinutes := (b.shifts.map (·.getD 0)).sum
    unknownDurationCount := (b.shifts.filter (· = none)).length
    recordedOperatingResultMinor :=
      b.saleTotals.salesMinor - b.saleTotals.costMinor - b.expenseTotals.1 }

/-- Every list of the books in two parts, whatever the order of the rows; the reserves do
not enter the figures. -/
structure Cut (whole first second : Books) : Prop where
  sales : whole.sales.Perm (first.sales ++ second.sales)
  expenses : whole.expenses.Perm (first.expenses ++ second.expenses)
  contributions : whole.contributions.Perm (first.contributions ++ second.contributions)
  shifts : whole.shifts.Perm (first.shifts ++ second.shifts)

theorem Cut.figures {whole first second : Books} (h : Cut whole first second) :
    whole.figures = first.figures + second.figures := by
  have hsales : whole.saleTotals = first.saleTotals + second.saleTotals := by
    unfold saleTotals
    rw [(h.sales.map _).sum_eq, List.map_append, List.sum_append]
  have hexpenses : whole.expenseTotals = first.expenseTotals + second.expenseTotals := by
    unfold expenseTotals
    rw [(h.expenses.map _).sum_eq, List.map_append, List.sum_append]
  have hcontributions : whole.contributions.sum =
      first.contributions.sum + second.contributions.sum := by
    rw [h.contributions.sum_eq, List.sum_append]
  have hminutes : (whole.shifts.map (·.getD 0)).sum =
      (first.shifts.map (·.getD 0)).sum + (second.shifts.map (·.getD 0)).sum := by
    rw [(h.shifts.map _).sum_eq, List.map_append, List.sum_append]
  have hunknown : (whole.shifts.filter (· = none)).length =
      (first.shifts.filter (· = none)).length + (second.shifts.filter (· = none)).length := by
    rw [(h.shifts.filter _).length_eq, List.filter_append, List.length_append]
  have hsaleCount := h.sales.length_eq
  have hcontributionCount := h.contributions.length_eq
  have hshiftCount := h.shifts.length_eq
  rw [List.length_append] at hsaleCount hcontributionCount hshiftCount
  rw [SaleTotals.add_eq] at hsales
  unfold Books.figures
  change _ = Figures.mk _ _ _ _ _ _ _ _ _ _ _ _ _ _ _ _ _
  simp only [hsales, hexpenses, hcontributions, hminutes, hunknown, hsaleCount,
    hcontributionCount, hshiftCount, Prod.fst_add, Prod.snd_add, Nat.cast_add, Figures.mk.injEq,
    true_and]
  refine ⟨?_, ?_, ?_⟩ <;> ring

end Books

theorem safeNumber_ok {n m : Int} (h : safeNumber n = .ok m) : m = n := by
  unfold safeNumber at h
  split at h
  · cases h
  · cases h
    rfl

/-- An overview that is answered shows the figures of its books. -/
theorem overviewOf_figures {period : Period} {books : Books} {o : Overview}
    (h : overviewOf period books = .ok o) : o.figures = books.figures := by
  unfold overviewOf at h
  obtain ⟨t, ht, h⟩ := ok_of_bind h
  obtain ⟨e, he, h⟩ := ok_of_bind h
  rw [saleTotals_eq] at ht
  rw [expenseTotals_eq] at he
  split at ht
  · cases ht
  cases ht
  split at he
  · cases he
  cases he
  obtain ⟨_, h1, h⟩ := ok_of_bind h
  obtain ⟨_, h2, h⟩ := ok_of_bind h
  obtain ⟨_, h3, h⟩ := ok_of_bind h
  obtain ⟨_, h4, h⟩ := ok_of_bind h
  obtain ⟨_, h5, h⟩ := ok_of_bind h
  obtain ⟨_, h6, h⟩ := ok_of_bind h
  obtain ⟨_, h7, h⟩ := ok_of_bind h
  obtain ⟨_, h8, h⟩ := ok_of_bind h
  obtain ⟨_, h9, h⟩ := ok_of_bind h
  obtain ⟨_, -, h⟩ := ok_of_bind h
  obtain ⟨_, h11, h⟩ := ok_of_bind h
  obtain ⟨_, -, h⟩ := ok_of_bind h
  cases h
  unfold Overview.figures Books.figures
  simp only [safeNumber_ok h1, safeNumber_ok h2, safeNumber_ok h3, safeNumber_ok h4,
    safeNumber_ok h5, safeNumber_ok h6, safeNumber_ok h7, safeNumber_ok h8, safeNumber_ok h9,
    safeNumber_ok h11]
  rfl

/-! Cutting a period. -/

/-- A list filtered by a condition that is one of two that exclude each other. -/
theorem filter_perm_append {α : Type} {p q r : α → Bool} (hor : ∀ x, p x = (q x || r x))
    (hand : ∀ x, q x = true → r x = false) (l : List α) :
    (l.filter p).Perm (l.filter q ++ l.filter r) := by
  induction l with
  | nil => exact .nil
  | cons x l ih =>
    cases hq : q x with
    | true =>
      rw [List.filter_cons_of_pos (by rw [hor, hq]; rfl), List.filter_cons_of_pos hq,
        List.filter_cons_of_neg (by rw [hand x hq]; decide)]
      exact ih.cons x
    | false =>
      cases hr : r x with
      | true =>
        rw [List.filter_cons_of_pos (by rw [hor, hr, Bool.or_true]),
          List.filter_cons_of_neg (by rw [hq]; decide), List.filter_cons_of_pos hr]
        exact (ih.cons x).trans List.perm_middle.symm
      | false =>
        rw [List.filter_cons_of_neg (by rw [hor, hq, hr]; decide),
          List.filter_cons_of_neg (by rw [hq]; decide), List.filter_cons_of_neg (by rw [hr]; decide)]
        exact ih

section
variable {start mid stop : CalendarDate} (hs : start < mid) (he : mid < stop)
include hs he

theorem Period.trans : start < stop := Nat.lt_trans hs he

/-- The books of a period are cut at any date inside it. -/
theorem booksAt_cut (d : Db) (contextId : String) :
    (booksAt d contextId ⟨start, stop, Period.trans hs he⟩).Cut
      (booksAt d contextId ⟨start, mid, hs⟩) (booksAt d contextId ⟨mid, stop, he⟩) := by
  have h1 := businessStart_lt hs
  have h2 := businessStart_lt he
  change start.number < mid.number at hs
  change mid.number < stop.number at he
  refine ⟨?_, ?_, ?_, ?_⟩
  · unfold booksAt
    rw [← List.map_append]
    refine (filter_perm_append ?_ ?_ _).map _
    · intro x
      grind
    · intro x
      grind
  · unfold booksAt
    rw [← List.map_append]
    refine (filter_perm_append ?_ ?_ _).map _
    · intro x
      grind
    · intro x
      grind
  · unfold booksAt
    rw [← List.map_append]
    refine (filter_perm_append ?_ ?_ _).map _
    · intro x
      grind
    · intro x
      grind
  · unfold booksAt
    rw [← List.map_append]
    refine (filter_perm_append ?_ ?_ _).map _
    · intro x
      change decide (_ ∧ _ ∧ start.number ≤ x.workDate.number ∧ x.workDate.number < stop.number) =
        (decide (_ ∧ _ ∧ start.number ≤ x.workDate.number ∧ x.workDate.number < mid.number) ||
          decide (_ ∧ _ ∧ mid.number ≤ x.workDate.number ∧ x.workDate.number < stop.number))
      grind
    · intro x
      change decide (_ ∧ _ ∧ start.number ≤ x.workDate.number ∧ x.workDate.number < mid.number) =
          true → decide (_ ∧ _ ∧ mid.number ≤ x.workDate.number ∧
            x.workDate.number < stop.number) = false
      grind

end

/-- Over any data set, the figures of a period are the sums of the figures of its two parts,
whenever the three overviews are answered; and the business days, of all the years from 1
to 9999, begin in the order of the calendar, each at 06:00 UTC of its date. -/
theorem overview_additive (d : Db) (contextId : String) (start mid stop : CalendarDate)
    (hs : start < mid) (he : mid < stop) (whole first second : Overview)
    (hwhole : (compute contextId ⟨start, stop, Period.trans hs he⟩).Ends d.MayAnswer (.ok whole))
    (hfirst : (compute contextId ⟨start, mid, hs⟩).Ends d.MayAnswer (.ok first))
    (hsecond : (compute contextId ⟨mid, stop, he⟩).Ends d.MayAnswer (.ok second)) :
    whole.figures = first.figures + second.figures ∧
      (∀ a b : CalendarDate, a < b → businessStart a < businessStart b) ∧
      ∀ c : CalendarDate, isoText (businessStart c) = c.text ++ "T06:00:00.000Z" := by
  refine ⟨?_, fun a b => businessStart_lt, isoText_businessStart⟩
  rw [overviewOf_figures (compute_ends hwhole).symm, overviewOf_figures (compute_ends hfirst).symm,
    overviewOf_figures (compute_ends hsecond).symm]
  exact (booksAt_cut hs he d contextId).figures

/-- An overview that reads and writes nothing is one of those the database may answer. -/
theorem compute_ends_of_eval {d : Db} {contextId : String} {period : Period} {o : Overview}
    (h : (compute contextId period).eval d [] = .ok (o, [])) :
    (compute contextId period).Ends d.MayAnswer (.ok o) :=
  Tx.ends_of_eval (fun q r hx => ⟨r, r, [], rfl, hx, sameRows_refl q r⟩) h

namespace Demo

/-- The sales and the minutes of an overview that wrote nothing. -/
def shown : Except Err (Overview × List Write) → Option (Int × Int)
  | .ok (o, []) => some (o.figures.salesMinor, o.figures.knownMinutes)
  | _ => none

theorem of_shown {x : Except Err (Overview × List Write)} {l : Int × Int} (h : shown x = some l) :
    ∃ o, x = .ok (o, []) ∧ (o.figures.salesMinor, o.figures.knownMinutes) = l := by
  unfold shown at h
  split at h
  · cases h
    exact ⟨_, rfl, rfl⟩
  · cases h

def first : CalendarDate := day 1 day_one

def second : CalendarDate := day 2 day_two

def third : CalendarDate := day 3 day_three

/-- The sale and the shifts of the second of January. -/
theorem shown_whole (h : first < third) : shown ((compute "c" ⟨first, third, h⟩).eval db []) =
    some (100, 7) := by decide +revert +kernel

theorem shown_before (h : first < second) : shown ((compute "c" ⟨first, second, h⟩).eval db []) =
    some (0, 0) := by decide +revert +kernel

theorem shown_after (h : second < third) : shown ((compute "c" ⟨second, third, h⟩).eval db []) =
    some (100, 7) := by decide +revert +kernel

end Demo

theorem overview_additive_shown : ∃ whole first second : Overview,
    (whole.figures.salesMinor, whole.figures.knownMinutes) = (100, 7) ∧
      whole.figures = first.figures + second.figures := by
  have hs : Demo.first < Demo.second := by decide
  have he : Demo.second < Demo.third := by decide
  obtain ⟨whole, hwhole, hl⟩ := Demo.of_shown (Demo.shown_whole (Period.trans hs he))
  obtain ⟨first, hfirst, -⟩ := Demo.of_shown (Demo.shown_before hs)
  obtain ⟨second, hsecond, -⟩ := Demo.of_shown (Demo.shown_after he)
  exact ⟨whole, first, second, hl, (overview_additive Demo.db "c" _ _ _ hs he _ _ _
    (compute_ends_of_eval hwhole) (compute_ends_of_eval hfirst)
    (compute_ends_of_eval hsecond)).1⟩

end Bazar.Finance
