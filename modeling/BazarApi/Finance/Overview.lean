import Mathlib.Algebra.Group.Prod
import BazarApi.Finance.Database

/- `finance/finance-overview.service.ts`: the figures of a period, from five lists read in
   one snapshot. The loops add up what each row brings (`saleTotals_eq`,
   `expenseTotals_eq`), so the order of the rows does not matter. Left out: the percentage
   of lines with a cost, a quotient of doubles, the constants of `timeBasis` and `sync`, and
   the moment of the computation.

   Correspondence (TypeScript ↔ Lean):
     `safeNumber`                 ↔ `safeNumber`
     `compute`, its queries       ↔ `compute`
     `compute`, its sums          ↔ `overviewOf` -/
namespace Bazar.Finance

open Txn

def maxSafeInteger : Int := 9007199254740991

def safeNumber (value : Int) : Except Err Int :=
  if maxSafeInteger < value ∨ value < -maxSafeInteger then
    .error (.unprocessable "FINANCE_OVERVIEW_OVERFLOW"
      "Recorded totals exceed the safe integer range" [])
  else .ok value

structure Warning where
  code : String
  message : String
  deriving DecidableEq, Repr

/-- A loop that adds what each element brings, or stops at a bad one. -/
theorem foldlM_add {M A : Type} [AddMonoid M] {f : M → A → Except Err M} {bad : A → Prop}
    [DecidablePred bad] {e : Err} {parts : A → M}
    (hf : ∀ t a, f t a = if bad a then .error e else .ok (t + parts a)) (l : List A) (t : M) :
    l.foldlM f t = if ∃ a ∈ l, bad a then .error e else .ok (t + (l.map parts).sum) := by
  induction l generalizing t with
  | nil =>
    rw [if_neg (by rintro ⟨a, ha, -⟩; cases ha), List.map_nil, List.sum_nil, add_zero]
    rfl
  | cons a l ih =>
    rw [List.foldlM_cons, hf]
    by_cases h : bad a
    · rw [if_pos h, if_pos ⟨a, List.mem_cons_self, h⟩]
      rfl
    · rw [if_neg h]
      refine (ih _).trans ?_
      rw [List.map_cons, List.sum_cons, add_assoc]
      simp only [List.mem_cons, exists_eq_or_imp, h, false_or]

/-! Sales. -/

structure SaleTotals where
  salesMinor : Int
  costMinor : Int
  missingUnits : Int
  uncostedRevenue : Int
  totalLines : Int
  knownLines : Int
  deriving DecidableEq, Repr

namespace SaleTotals

instance : Zero SaleTotals := ⟨⟨0, 0, 0, 0, 0, 0⟩⟩

instance : Add SaleTotals :=
  ⟨fun a b => ⟨a.salesMinor + b.salesMinor, a.costMinor + b.costMinor,
    a.missingUnits + b.missingUnits, a.uncostedRevenue + b.uncostedRevenue,
    a.totalLines + b.totalLines, a.knownLines + b.knownLines⟩⟩

theorem add_eq (a b : SaleTotals) :
    a + b = ⟨a.salesMinor + b.salesMinor, a.costMinor + b.costMinor,
      a.missingUnits + b.missingUnits, a.uncostedRevenue + b.uncostedRevenue,
      a.totalLines + b.totalLines, a.knownLines + b.knownLines⟩ := rfl

theorem zero_eq : (0 : SaleTotals) = ⟨0, 0, 0, 0, 0, 0⟩ := rfl

instance : AddCommMonoid SaleTotals where
  add_assoc a b c := by simp only [add_eq, add_assoc]
  zero_add a := by simp only [add_eq, zero_eq, zero_add]
  add_zero a := by simp only [add_eq, zero_eq, add_zero]
  add_comm a b := by simp only [add_eq, add_comm]
  nsmul := nsmulRec

end SaleTotals

/-- One line of a sale. -/
def addItem (t : SaleTotals) (item : SaleItem) : SaleTotals :=
  match item.unitCostMinor with
  | none =>
    { t with totalLines := t.totalLines + 1, missingUnits := t.missingUnits + item.quantity
             uncostedRevenue := t.uncostedRevenue + item.subtotalMinor }
  | some cost =>
    { t with totalLines := t.totalLines + 1, knownLines := t.knownLines + 1
             costMinor := t.costMinor + cost * item.quantity }

def invalidRecordedSale : Err :=
  .unprocessable "FINANCE_OVERVIEW_INVALID_RECORDED_SALE"
    "A completed sale has no recorded total" []

def addSale (t : SaleTotals) (sale : RecordedSale) : Except Err SaleTotals :=
  match sale.totalMinor with
  | none => .error invalidRecordedSale
  | some totalMinor =>
    .ok (sale.items.foldl addItem { t with salesMinor := t.salesMinor + totalMinor })

def saleTotals (sales : List RecordedSale) : Except Err SaleTotals := sales.foldlM addSale 0

/-- What one sale brings. -/
def RecordedSale.totals (sale : RecordedSale) : SaleTotals :=
  ⟨sale.totalMinor.getD 0, 0, 0, 0, 0, 0⟩ + (sale.items.map (addItem 0)).sum

theorem addItem_eq (t : SaleTotals) (item : SaleItem) : addItem t item = t + addItem 0 item := by
  unfold addItem
  cases item.unitCostMinor <;> simp [SaleTotals.add_eq, SaleTotals.zero_eq]

theorem foldl_addItem (items : List SaleItem) (t : SaleTotals) :
    items.foldl addItem t = t + (items.map (addItem 0)).sum := by
  induction items generalizing t with
  | nil => exact (add_zero t).symm
  | cons item items ih =>
    rw [List.foldl_cons, ih, addItem_eq, List.map_cons, List.sum_cons, add_assoc]

theorem addSale_eq (t : SaleTotals) (sale : RecordedSale) :
    addSale t sale =
      if sale.totalMinor = none then .error invalidRecordedSale else .ok (t + sale.totals) := by
  unfold addSale
  cases h : sale.totalMinor with
  | none => rfl
  | some totalMinor =>
    simp only [foldl_addItem, RecordedSale.totals, h, reduceCtorEq, if_false, Option.getD_some]
    rw [← add_assoc]
    simp [SaleTotals.add_eq]

/-- Every sale recorded: the sum of what they bring. -/
theorem saleTotals_eq (sales : List RecordedSale) :
    saleTotals sales =
      if ∃ sale ∈ sales, sale.totalMinor = none then .error invalidRecordedSale
      else .ok (sales.map RecordedSale.totals).sum := by
  rw [saleTotals, foldlM_add addSale_eq, zero_add]

/-! Expenses. -/

def invalidExpenseNature : Err :=
  .unprocessable "FINANCE_OVERVIEW_INVALID_EXPENSE_NATURE"
    "An active expense has an unsupported nature" []

/-- Operating expenses and inventory purchases. -/
def addExpense (t : Int × Int) (expense : String × Int) : Except Err (Int × Int) :=
  if expense.1 = "OPERATING_EXPENSE" then .ok (t.1 + expense.2, t.2)
  else if expense.1 = "INVENTORY_PURCHASE" then .ok (t.1, t.2 + expense.2)
  else .error invalidExpenseNature

def expenseTotals (expenses : List (String × Int)) : Except Err (Int × Int) :=
  expenses.foldlM addExpense (0, 0)

def supportedNature (nature : String) : Bool :=
  nature = "OPERATING_EXPENSE" ∨ nature = "INVENTORY_PURCHASE"

/-- What one expense brings to each of the two. -/
def expenseParts (expense : String × Int) : Int × Int :=
  (if expense.1 = "OPERATING_EXPENSE" then expense.2 else 0,
    if expense.1 = "INVENTORY_PURCHASE" then expense.2 else 0)

theorem addExpense_eq (t : Int × Int) (expense : String × Int) :
    addExpense t expense =
      if supportedNature expense.1 = false then .error invalidExpenseNature
      else .ok (t + expenseParts expense) := by
  obtain ⟨nature, amount⟩ := expense
  unfold addExpense supportedNature expenseParts
  by_cases ho : nature = "OPERATING_EXPENSE"
  · subst ho
    simp [Prod.ext_iff]
  · by_cases hi : nature = "INVENTORY_PURCHASE"
    · subst hi
      simp [Prod.ext_iff]
    · simp [ho, hi]

theorem expenseTotals_eq (expenses : List (String × Int)) :
    expenseTotals expenses =
      if ∃ expense ∈ expenses, supportedNature expense.1 = false then .error invalidExpenseNature
      else .ok (expenses.map expenseParts).sum := by
  rw [expenseTotals, foldlM_add addExpense_eq, Prod.mk_zero_zero, zero_add]

/-! The overview. -/

structure SalesFigures where
  saleCount : Int
  salesMinor : Int
  recordedCostMinor : Int
  recordedGrossMarginMinor : Int
  deriving DecidableEq, Repr

structure CostCoverage where
  status : FinancialStatus
  totalLineCount : Int
  knownCostLineCount : Int
  missingCostLineCount : Int
  missingCostUnitCount : Int
  salesWithoutCostMinor : Int
  deriving DecidableEq, Repr

structure WorkShiftFigures where
  shiftCount : Int
  knownMinutes : Int
  unknownDurationCount : Int
  deriving DecidableEq, Repr

structure ResultFigures where
  recordedOperatingResultMinor : Int
  potentiallyAvailableMinor : Int
  status : FinancialStatus
  deriving DecidableEq, Repr

structure Overview where
  currency : String
  period : Period
  sales : SalesFigures
  costCoverage : CostCoverage
  operatingMinor : Int
  inventoryPurchasesMinor : Int
  contributionsMinor : Int
  contributionCount : Int
  workShifts : WorkShiftFigures
  activeReserveCount : Int
  plannedMinor : Int
  result : ResultFigures
  warnings : List Warning
  deriving DecidableEq

def missingSaleCost : Warning :=
  ⟨"MISSING_SALE_COST", "Some sold lines have no recorded cost; downstream results are partial."⟩

def overviewWarnings (missingLines : Int) : List Warning :=
  (if missingLines ≠ 0 then [missingSaleCost] else []) ++
    [⟨"SYNC_TIME_COST_NO_LOT_VALUATION",
        "Sale costs are snapshots captured when processed by the server, not historical lot valuations."⟩,
      ⟨"NOT_CASH_OR_WITHDRAWABLE_PROFIT",
        "Cash, commitments, capital recovery and compensation are not reconciled."⟩]

/-- The five lists of a period. -/
structure Books where
  sales : List RecordedSale
  expenses : List (String × Int)
  contributions : List Int
  shifts : List (Option Int)
  reserves : List Int

/-- The figures of the lists; each is checked as it is put into the answer. -/
def overviewOf (period : Period) (books : Books) : Except Err Overview := do
  let plannedMinor := books.reserves.sum
  let t ← saleTotals books.sales
  let (operating, inventory) ← expenseTotals books.expenses
  let contributionMinor := books.contributions.sum
  let knownMinutes := (books.shifts.map (·.getD 0)).sum
  let missingLines := t.totalLines - t.knownLines
  let status := if missingLines ≠ 0 then FinancialStatus.partly else .complete
  let grossMargin := t.salesMinor - t.costMinor
  let operatingResult := grossMargin - operating
  let salesMinor ← safeNumber t.salesMinor
  let recordedCostMinor ← safeNumber t.costMinor
  let recordedGrossMarginMinor ← safeNumber grossMargin
  let missingCostUnitCount ← safeNumber t.missingUnits
  let salesWithoutCostMinor ← safeNumber t.uncostedRevenue
  let operatingMinor ← safeNumber operating
  let inventoryPurchasesMinor ← safeNumber inventory
  let contributionsMinor ← safeNumber contributionMinor
  let knownMinutes ← safeNumber knownMinutes
  let plannedMinor ← safeNumber plannedMinor
  let recordedOperatingResultMinor ← safeNumber operatingResult
  let potentiallyAvailableMinor ← safeNumber (operatingResult - plannedMinor)
  return {
    currency := "MXN"
    period
    sales := {
      saleCount := books.sales.length
      salesMinor, recordedCostMinor, recordedGrossMarginMinor }
    costCoverage := {
      status, totalLineCount := t.totalLines, knownCostLineCount := t.knownLines
      missingCostLineCount := missingLines, missingCostUnitCount, salesWithoutCostMinor }
    operatingMinor, inventoryPurchasesMinor
    contributionsMinor, contributionCount := books.contributions.length
    workShifts := {
      shiftCount := books.shifts.length, knownMinutes
      unknownDurationCount := (books.shifts.filter (· = none)).length }
    activeReserveCount := books.reserves.length, plannedMinor
    result := { recordedOperatingResultMinor, potentiallyAvailableMinor, status }
    warnings := overviewWarnings missingLines }

def compute (contextId : String) (period : Period) : Tx finance Overview := do
  let fromInstant := businessStart period.start
  let toInstant := businessStart period.stop
  let sales ← query (.salesIn contextId fromInstant toInstant)
  let expenses ← query (.expensesIn contextId fromInstant toInstant)
  let contributions ← query (.contributionsIn contextId fromInstant toInstant)
  let shifts ← query (.shiftsIn contextId period)
  let reserves ← query (.reservesOf contextId period)
  Tx.ofExcept (overviewOf period ⟨sales, expenses, contributions, shifts, reserves⟩)

end Bazar.Finance
