import BazarApi.Finance.Periods
import BazarApi.Finance.Simulation
import BazarApi.Finance.Lists

/- The totals that people check an overview against: `ExpensesService.summary` and
   `WorkShiftsService.summary`. Each asks the database to add up groups of rows and adds the
   groups; summing a group at a time is summing the rows (`sum_groups`). Numbers are
   integers here: in the safe range the additions of numbers are exact.

   Correspondence (TypeScript ↔ Lean):
     `ExpensesService.occurredAtFilter`, `checkRange` ↔ the same names
     `ExpensesService.summary`, its query, its loop   ↔ `groupByNature`, `addGroup`
     `WorkShiftsService.scope`                        ↔ `Lists.WorkShifts.scope`, `inScope`
     `WorkShiftsService.summary`                      ↔ `WorkShiftsService.summary`

   A `groupBy` may answer its groups in any order. -/
namespace Bazar.Finance

open Txn Team

/-! Expenses. -/

structure ExpenseSummaryDto where
  since : Option Instant
  before : Option Instant

/-- A row of the `groupBy` of expenses. -/
structure ExpenseGroup where
  nature : String
  fundsSource : String
  amountMinor : Option Int
  deriving DecidableEq, Repr

structure ExpenseSummary where
  operatingMinor : Int
  inventoryMinor : Int
  personalMinor : Int
  businessMinor : Int
  deriving DecidableEq, Repr

namespace ExpensesService

def checkRange (query : ExpenseSummaryDto) : Except Err Unit :=
  if query.since.any fun a => query.before.any (· ≤ a) then
    .error (.badRequest "from must precede to")
  else .ok ()

def occurredAtFilter (query : ExpenseSummaryDto) (t : Instant) : Bool :=
  query.since.all (· ≤ t) && query.before.all (t < ·)

/-- The `where` of the query. -/
def matching (contextId : String) (query : ExpenseSummaryDto) (r : Expense) : Bool :=
  r.contextId = contextId && r.reversed = false && occurredAtFilter query r.occurredAt

/-- `GROUP BY "nature", "fundsSource"`. -/
def groupByNature (fundsSource : Uuid → String) (expenses : List Expense) : List ExpenseGroup :=
  (expenses.map fun x => (x.nature, fundsSource x.id)).dedup.map fun k =>
    { nature := k.1, fundsSource := k.2
      amountMinor := sumOf
        ((expenses.filter fun x => (x.nature, fundsSource x.id) = k).map (·.amountMinor)) }

/-- One round of the loop: whatever is no inventory purchase counts as operating, and
whatever is not personal as the money of the business. -/
def addGroup (total : ExpenseSummary) (group : ExpenseGroup) : ExpenseSummary :=
  let amount := group.amountMinor.getD 0
  let total :=
    if group.nature = "INVENTORY_PURCHASE" then
      { total with inventoryMinor := total.inventoryMinor + amount }
    else { total with operatingMinor := total.operatingMinor + amount }
  if group.fundsSource = "PERSONAL" then
    { total with personalMinor := total.personalMinor + amount }
  else { total with businessMinor := total.businessMinor + amount }

/-- `summary`, given what the database answers. -/
def summary (query : ExpenseSummaryDto) (groups : List ExpenseGroup) : Except Err ExpenseSummary := do
  checkRange query
  return groups.foldl addGroup ⟨0, 0, 0, 0⟩

end ExpensesService

/-! Work shifts. -/

structure WorkShiftSummaryDto where
  since : Option CalendarDate
  before : Option CalendarDate
  memberId : Option String
  /-- `duration`: `known` or `unknown`. -/
  known : Option Bool

/-- The query of a summary, as `scope` takes it. -/
def WorkShiftSummaryDto.toList (query : WorkShiftSummaryDto) : Lists.WorkShiftListDto :=
  { since := query.since, before := query.before, memberId := query.memberId, known := query.known
    status := none, cursor := none, limit := 20 }

structure MemberWork where
  memberId : Uuid
  member : Option Member
  shiftCount : Int
  knownMinutes : Int
  unknownDurationCount : Int

structure WorkShiftSummary where
  totals : WorkShiftFigures
  members : List MemberWork

/-- A row of the `groupBy` of shifts; `known` counts the rows with a duration. -/
structure ShiftCounts where
  memberId : Uuid
  count : Int
  known : Int
  minutes : Option Int

namespace WorkShiftsService

/-- The member that the selection of the actor names, if active. -/
def reader (d : Db) (contextId : String) (memberId : Uuid) : Option Lists.Reader :=
  ((d.members.find? memberId).filter fun m => m.contextId = contextId ∧ m.active).map fun m =>
    ⟨m.id, m.role = .colaborador⟩

/-- The `where` that `scope` answers, and `reversal: { is: null }`. -/
def inScope (contextId : String) (memberId : Option Uuid) (query : WorkShiftSummaryDto)
    (r : WorkShift) : Bool :=
  r.contextId = contextId && memberId.all (r.memberId = ·) && query.since.all (· ≤ r.workDate) &&
    query.before.all (r.workDate < ·) && query.known.all (r.minutes.isSome = ·) && r.reversed = false

/-- `GROUP BY "memberId"` with the counts of rows and of durations. -/
def countByMember (shifts : List WorkShift) : List ShiftCounts :=
  (shifts.map (·.memberId)).dedup.map fun id =>
    let own := shifts.filter fun s => s.memberId = id
    { memberId := id, count := own.length, known := (own.filterMap (·.minutes)).length
      minutes := sumOf (own.filterMap (·.minutes)) }

def memberWork (people : List Member) (group : ShiftCounts) : MemberWork :=
  { memberId := group.memberId
    member := people.find? fun person => person.id = group.memberId
    shiftCount := group.count
    knownMinutes := group.minutes.getD 0
    unknownDurationCount := group.count - group.known }

/-- One round of the `reduce`. -/
def addMember (sum : WorkShiftFigures) (member : MemberWork) : WorkShiftFigures :=
  { shiftCount := sum.shiftCount + member.shiftCount
    knownMinutes := sum.knownMinutes + member.knownMinutes
    unknownDurationCount := sum.unknownDurationCount + member.unknownDurationCount }

/-- What `summary` makes of the groups and the people that the database answers. -/
def summaryOf (localeCompare : String → String → Ordering) (groups : List ShiftCounts)
    (people : List Member) : WorkShiftSummary :=
  let members := (groups.map (memberWork people)).insertionSort fun a b =>
    localeCompare a.memberId.text b.memberId.text ≠ .gt
  { totals := members.foldl addMember ⟨0, 0, 0⟩, members }

/-- A way in which `summary` may end: its groups and its people in any order. -/
def Ends (localeCompare : String → String → Ordering) (d : Db) (contextId : String)
    (selected : Uuid) (query : WorkShiftSummaryDto) (x : Except Err WorkShiftSummary) : Prop :=
  match Lists.WorkShifts.scope (reader d contextId selected) query.toList with
  | .error e => x = .error e
  | .ok memberId => ∃ groups people,
      groups.Perm (countByMember (d.workShifts.rows.filter (inScope contextId memberId query))) ∧
      people.Perm (d.members.rows.filter fun m =>
        m.contextId = contextId ∧ m.id ∈ groups.map (·.memberId)) ∧
      x = .ok (summaryOf localeCompare groups people)

end WorkShiftsService

namespace ExpensesService

/-- A way in which `summary` may end: its groups in any order. -/
def Ends (fundsSource : Uuid → String) (d : Db) (contextId : String) (query : ExpenseSummaryDto)
    (x : Except Err ExpenseSummary) : Prop :=
  ∃ groups, groups.Perm
    (groupByNature fundsSource (d.expenses.rows.filter (matching contextId query))) ∧
    x = summary query groups

end ExpensesService

/-! The loops add up the rows. -/

/-- A loop that adds what each element brings to a figure. -/
theorem foldl_figure {S A : Type} {f : S → A → S} (figure : S → Int) (part : A → Int)
    (h : ∀ s a, figure (f s a) = figure s + part a) (l : List A) (s : S) :
    figure (l.foldl f s) = figure s + (l.map part).sum := by
  induction l generalizing s with
  | nil => rw [List.map_nil, List.sum_nil, add_zero, List.foldl_nil]
  | cons a l ih => rw [List.foldl_cons, ih, h, List.map_cons, List.sum_cons, add_assoc]

namespace ExpensesService

theorem summary_operating (groups : List ExpenseGroup) :
    (groups.foldl addGroup ⟨0, 0, 0, 0⟩).operatingMinor = (groups.map fun group =>
      if group.nature = "INVENTORY_PURCHASE" then 0 else group.amountMinor.getD 0).sum := by
  refine (foldl_figure ExpenseSummary.operatingMinor _ ?_ groups _).trans (zero_add _)
  intro total group
  unfold addGroup
  split <;> split <;> simp

theorem summary_inventory (groups : List ExpenseGroup) :
    (groups.foldl addGroup ⟨0, 0, 0, 0⟩).inventoryMinor = (groups.map fun group =>
      if group.nature = "INVENTORY_PURCHASE" then group.amountMinor.getD 0 else 0).sum := by
  refine (foldl_figure ExpenseSummary.inventoryMinor _ ?_ groups _).trans (zero_add _)
  intro total group
  unfold addGroup
  split <;> split <;> simp

/-- The groups of one side add up to its rows. -/
theorem sum_groupByNature (fundsSource : Uuid → String) (side : String → Bool)
    (expenses : List Expense) :
    ((groupByNature fundsSource expenses).map fun group =>
      if side group.nature then group.amountMinor.getD 0 else 0).sum =
      (expenses.map fun x => if side x.nature then x.amountMinor else 0).sum := by
  rw [← sum_groups (fun x : Expense => (x.nature, fundsSource x.id))
    (fun x => if side x.nature then x.amountMinor else 0) (List.nodup_dedup _)
    (fun k hk => List.mem_dedup.mpr hk)]
  unfold groupByNature
  rw [List.map_map]
  refine congrArg List.sum (List.map_congr_left fun k _ => ?_)
  have hside : ∀ x ∈ expenses.filter fun x => (x.nature, fundsSource x.id) = k, x.nature = k.1 := by
    intro x hx
    have he : (x.nature, fundsSource x.id) = k := by simpa using (List.mem_filter.mp hx).2
    exact congrArg Prod.fst he
  change (if side k.1 then (sumOf _).getD 0 else 0) = _
  rw [sumOf_getD]
  split
  · rename_i hk
    refine congrArg List.sum (List.map_congr_left fun x hx => ?_)
    rw [hside x hx, if_pos hk]
  · rename_i hk
    refine (List.sum_eq_zero ?_).symm
    intro n hn
    obtain ⟨x, hx, rfl⟩ := List.mem_map.mp hn
    rw [hside x hx, if_neg hk]

end ExpensesService

namespace WorkShiftsService

section
variable {localeCompare : String → String → Ordering} {groups : List ShiftCounts}
variable {people : List Member} {shifts : List WorkShift}

/-- A total is the sum over the groups, sorted or not. -/
theorem totals_sum (figure : WorkShiftFigures → Int) (part : MemberWork → Int)
    (h : ∀ s a, figure (addMember s a) = figure s + part a) (h₀ : figure ⟨0, 0, 0⟩ = 0) :
    figure (summaryOf localeCompare groups people).totals =
      (groups.map fun group => part (memberWork people group)).sum := by
  refine (foldl_figure figure part h _ _).trans ?_
  rw [h₀, zero_add, ((List.perm_insertionSort _ _).map part).sum_eq, List.map_map]
  rfl

/-- The groups add up to their shifts. -/
theorem sum_countByMember (part : ShiftCounts → Int) (g : WorkShift → Int)
    (hp : groups.Perm (countByMember shifts))
    (h : ∀ id (own : List WorkShift), part ⟨id, own.length, (own.filterMap (·.minutes)).length,
      sumOf (own.filterMap (·.minutes))⟩ = (own.map g).sum) :
    (groups.map part).sum = (shifts.map g).sum := by
  rw [(hp.map part).sum_eq, ← sum_groups (fun s : WorkShift => s.memberId) g
    (List.nodup_dedup _) (fun k hk => List.mem_dedup.mpr hk)]
  unfold countByMember
  rw [List.map_map]
  exact congrArg List.sum (List.map_congr_left fun id _ => h id _)

theorem known_add_unknown (own : List WorkShift) :
    ((own.filterMap WorkShift.minutes).length : Int) +
      (own.map fun s => if s.minutes = none then 1 else 0).sum = own.length := by
  induction own with
  | nil => rfl
  | cons s own ih =>
    cases hm : s.minutes with
    | none =>
      rw [List.filterMap_cons_none hm, List.map_cons, List.sum_cons, if_pos hm, List.length_cons]
      omega
    | some n =>
      rw [List.filterMap_cons_some hm, List.map_cons, List.sum_cons, hm, if_neg (by simp),
        List.length_cons, List.length_cons]
      omega

/-- The totals of the groups are the figures of the shifts. -/
theorem summaryOf_totals (hp : groups.Perm (countByMember shifts)) :
    (summaryOf localeCompare groups people).totals =
      { shiftCount := shifts.length
        knownMinutes := (shifts.map (·.minutes.getD 0)).sum
        unknownDurationCount := (shifts.map fun s => if s.minutes = none then 1 else 0).sum } := by
  have hcount : (summaryOf localeCompare groups people).totals.shiftCount = shifts.length := by
    refine (totals_sum WorkShiftFigures.shiftCount MemberWork.shiftCount (fun _ _ => rfl) rfl).trans ?_
    refine (sum_countByMember (fun group => group.count) (fun _ => 1) hp ?_).trans ?_
    · simp
    · simp
  have hminutes : (summaryOf localeCompare groups people).totals.knownMinutes =
      (shifts.map (·.minutes.getD 0)).sum := by
    refine (totals_sum WorkShiftFigures.knownMinutes MemberWork.knownMinutes (fun _ _ => rfl)
      rfl).trans ?_
    exact sum_countByMember (fun group => group.minutes.getD 0) _ hp
      fun _ own => (sumOf_getD _).trans (sum_minutes own)
  have hunknown : (summaryOf localeCompare groups people).totals.unknownDurationCount =
      (shifts.map fun s => if s.minutes = none then 1 else 0).sum := by
    refine (totals_sum WorkShiftFigures.unknownDurationCount MemberWork.unknownDurationCount
      (fun _ _ => rfl) rfl).trans ?_
    refine sum_countByMember (fun group => group.count - group.known) _ hp fun _ own => ?_
    have := known_add_unknown own
    change (own.length : Int) - ((own.filterMap WorkShift.minutes).length : Int) = _
    omega
  rw [← hcount, ← hminutes, ← hunknown]

end

end WorkShiftsService

/-! The figures of the overview. -/

section
variable {period : Period} {books : Books} {o : Overview}

/-- An overview is answered only if it knows the nature of every expense. -/
theorem overviewOf_supported (h : overviewOf period books = .ok o) :
    ∀ expense ∈ books.expenses, supportedNature expense.1 = true := by
  unfold overviewOf at h
  obtain ⟨t, -, h⟩ := ok_of_bind h
  obtain ⟨e, he, -⟩ := ok_of_bind h
  rw [expenseTotals_eq] at he
  split at he
  · cases he
  · rename_i hbad
    intro expense hx
    by_contra hne
    exact hbad ⟨expense, hx, by simpa using hne⟩

theorem expenseParts_sum (expenses : List (String × Int)) :
    (expenses.map expenseParts).sum =
      ((expenses.map fun x => if x.1 = "OPERATING_EXPENSE" then x.2 else 0).sum,
        (expenses.map fun x => if x.1 = "INVENTORY_PURCHASE" then x.2 else 0).sum) := by
  induction expenses with
  | nil => rfl
  | cons x expenses ih =>
    rw [List.map_cons, List.sum_cons, ih, List.map_cons, List.map_cons, List.sum_cons, List.sum_cons]
    rfl

/-- What is no inventory purchase is operating, where every nature is known. -/
theorem operating_eq {nature : String} (h : supportedNature nature = true) (n : Int) :
    (if nature = "OPERATING_EXPENSE" then n else 0) =
      if nature = "INVENTORY_PURCHASE" then 0 else n := by
  have h : nature = "OPERATING_EXPENSE" ∨ nature = "INVENTORY_PURCHASE" := of_decide_eq_true h
  rcases h with rfl | rfl
  · rw [if_pos rfl, if_neg (by decide)]
  · rw [if_neg (by decide), if_pos rfl]

end

section
variable {d : Db} {contextId : String} {period : Period} {o : Overview}

/-- The expenses asked for by the instants of the period are those of the overview. -/
theorem filter_expenses : d.expenses.rows.filter (ExpensesService.matching contextId
      ⟨some (businessStart period.start), some (businessStart period.stop)⟩) =
    d.activeExpenses contextId (businessStart period.start) (businessStart period.stop) := by
  refine List.filter_congr fun x _ => ?_
  simp only [ExpensesService.matching, ExpensesService.occurredAtFilter, Option.all_some,
    Bool.decide_and]
  grind

theorem filter_shifts : d.workShifts.rows.filter (WorkShiftsService.inScope contextId none
      ⟨some period.start, some period.stop, none, none⟩) = d.activeShifts contextId period := by
  refine List.filter_congr fun x _ => ?_
  simp only [WorkShiftsService.inScope, Option.all_some, Option.all_none, Bool.and_true,
    Bool.decide_and]
  grind

theorem summary_agrees {fundsSource : Uuid → String} {x : Except Err ExpenseSummary}
    (ho : overviewAt d contextId period = .ok o)
    (hx : ExpensesService.Ends fundsSource d contextId
      ⟨some (businessStart period.start), some (businessStart period.stop)⟩ x) :
    ∃ s, x = .ok s ∧ s.operatingMinor = o.operatingMinor ∧
      s.inventoryMinor = o.inventoryPurchasesMinor := by
  obtain ⟨groups, hgroups, rfl⟩ := hx
  have hfigures := overviewOf_figures ho
  have hsupported := overviewOf_supported ho
  have hrange : ExpensesService.checkRange
      ⟨some (businessStart period.start), some (businessStart period.stop)⟩ = .ok () := by
    have hlt := businessStart_lt period.ordered
    unfold ExpensesService.checkRange
    rw [Option.any_some, Option.any_some, decide_eq_false (not_le.mpr hlt)]
    rfl
  rw [filter_expenses] at hgroups
  have hparts : (o.operatingMinor, o.inventoryPurchasesMinor) =
      ((booksAt d contextId period).expenses.map expenseParts).sum :=
    Prod.ext (congrArg Figures.operatingMinor hfigures)
      (congrArg Figures.inventoryPurchasesMinor hfigures)
  rw [expenseParts_sum, Prod.mk.injEq] at hparts
  refine ⟨_, by rw [ExpensesService.summary, hrange]; rfl, ?_, ?_⟩
  · have hsum := ExpensesService.sum_groupByNature fundsSource
      (fun nature => nature ≠ "INVENTORY_PURCHASE")
      (d.activeExpenses contextId (businessStart period.start) (businessStart period.stop))
    simp only [decide_not, Bool.not_eq_true', decide_eq_false_iff_not, ite_not] at hsum
    rw [ExpensesService.summary_operating, (hgroups.map _).sum_eq, hsum, hparts.1]
    unfold booksAt
    rw [List.map_map]
    refine congrArg List.sum (List.map_congr_left fun x hx => ?_)
    exact (operating_eq (hsupported (x.nature, x.amountMinor)
      (List.mem_map_of_mem (f := fun x : Expense => (x.nature, x.amountMinor)) hx)) _).symm
  · have hsum := ExpensesService.sum_groupByNature fundsSource
      (fun nature => nature = "INVENTORY_PURCHASE")
      (d.activeExpenses contextId (businessStart period.start) (businessStart period.stop))
    simp only [decide_eq_true_iff] at hsum
    rw [ExpensesService.summary_inventory, (hgroups.map _).sum_eq, hsum, hparts.2]
    unfold booksAt
    rw [List.map_map]
    rfl

theorem length_filter_none (shifts : List WorkShift) :
    (((shifts.map (·.minutes)).filter (· = none)).length : Int) =
      (shifts.map fun s => if s.minutes = none then 1 else 0).sum := by
  induction shifts with
  | nil => rfl
  | cons s shifts ih =>
    rw [List.map_cons, List.filter_cons, List.map_cons, List.sum_cons, ← ih]
    by_cases hm : s.minutes = none
    · rw [if_pos (decide_eq_true hm), if_pos hm, List.length_cons]
      omega
    · rw [if_neg (by simpa using hm), if_neg hm]
      omega

variable (period) in
/-- An active socio who names nobody reads the shifts of all. -/
theorem scope_socio {selected : Uuid} {socio : Member}
    (hfind : d.members.find? selected = some socio) (hcontext : socio.contextId = contextId)
    (hactive : socio.active = true) (hrole : socio.role = .socio) :
    Lists.WorkShifts.scope (WorkShiftsService.reader d contextId selected)
      (WorkShiftSummaryDto.toList ⟨some period.start, some period.stop, none, none⟩) = .ok none := by
  have hreader : WorkShiftsService.reader d contextId selected = some ⟨socio.id, false⟩ := by
    unfold WorkShiftsService.reader
    rw [hfind, Option.filter_some_pos (by simp [hcontext, hactive]), Option.map_some, hrole]
    rfl
  have hlt : ¬ period.stop ≤ period.start := Nat.not_le.mpr period.ordered
  rw [hreader]
  unfold Lists.WorkShifts.scope WorkShiftSummaryDto.toList
  rw [Option.any_some, Option.any_some, decide_eq_false hlt]
  rfl

theorem totals_agree {localeCompare : String → String → Ordering} {selected : Uuid} {socio : Member}
    {x : Except Err WorkShiftSummary} (ho : overviewAt d contextId period = .ok o)
    (hfind : d.members.find? selected = some socio) (hcontext : socio.contextId = contextId)
    (hactive : socio.active = true) (hrole : socio.role = .socio)
    (hx : WorkShiftsService.Ends localeCompare d contextId selected
      ⟨some period.start, some period.stop, none, none⟩ x) :
    ∃ s, x = .ok s ∧ s.totals = o.workShifts := by
  unfold WorkShiftsService.Ends at hx
  rw [scope_socio period hfind hcontext hactive hrole] at hx
  obtain ⟨groups, people, hgroups, -, rfl⟩ := hx
  rw [filter_shifts] at hgroups
  refine ⟨_, rfl, ?_⟩
  have hfigures := overviewOf_figures ho
  rw [WorkShiftsService.summaryOf_totals hgroups]
  have hcount : o.workShifts.shiftCount = ((d.activeShifts contextId period).length : Int) :=
    (congrArg Figures.shiftCount hfigures).trans (by simp [Books.figures, booksAt])
  have hminutes : o.workShifts.knownMinutes =
      ((d.activeShifts contextId period).map (·.minutes.getD 0)).sum :=
    (congrArg Figures.knownMinutes hfigures).trans (by simp [Books.figures, booksAt]; rfl)
  have hunknown : o.workShifts.unknownDurationCount =
      ((d.activeShifts contextId period).map fun s => if s.minutes = none then 1 else 0).sum := by
    exact (congrArg Figures.unknownDurationCount hfigures).trans (length_filter_none _)
  rw [← hcount, ← hminutes, ← hunknown]

end

/-- Over any data set, with any rows reversed and any rows in their place: the totals of
`ExpensesService.summary`, asked for the instants at which the period begins and ends, and of
`WorkShiftsService.summary`, asked for its dates by an active socio without another filter,
are those of the overview of the period whenever it is answered, in whatever order the
database answers rows and groups. -/
theorem overview_agrees_with_summaries (d : Db) (contextId : String) (period : Period)
    (o : Overview) (ho : (compute contextId period).Ends d.MayAnswer (.ok o)) :
    (∀ fundsSource x, ExpensesService.Ends fundsSource d contextId
        ⟨some (businessStart period.start), some (businessStart period.stop)⟩ x →
      ∃ s, x = .ok s ∧ s.operatingMinor = o.operatingMinor ∧
        s.inventoryMinor = o.inventoryPurchasesMinor) ∧
    ∀ localeCompare selected socio x, d.members.find? selected = some socio →
      socio.contextId = contextId → socio.active = true → socio.role = .socio →
      WorkShiftsService.Ends localeCompare d contextId selected
        ⟨some period.start, some period.stop, none, none⟩ x →
      ∃ s, x = .ok s ∧ s.totals.shiftCount = o.workShifts.shiftCount ∧
        s.totals.knownMinutes = o.workShifts.knownMinutes ∧
        s.totals.unknownDurationCount = o.workShifts.unknownDurationCount := by
  have ho := (compute_ends ho).symm
  refine ⟨fun fundsSource x hx => summary_agrees ho hx, ?_⟩
  intro localeCompare selected socio x hfind hcontext hactive hrole hx
  obtain ⟨s, rfl, hs⟩ := totals_agree ho hfind hcontext hactive hrole hx
  exact ⟨s, rfl, congrArg _ hs, congrArg _ hs, congrArg _ hs⟩

namespace Demo

def expense (id nature : String) (amountMinor : Int) (reversed : Bool) : Expense :=
  { id := ⟨id⟩, contextId := "c", nature, occurredAt := businessStart second, amountMinor, reversed }

/-- The books of the demo with three expenses of the second of January, one reversed. -/
def spent : Db :=
  { db with expenses := ⟨[expense "1" "OPERATING_EXPENSE" 30 false,
      expense "2" "OPERATING_EXPENSE" 50 true, expense "3" "INVENTORY_PURCHASE" 20 false],
      by decide⟩ }

/-- The expenses and the shifts of an overview that wrote nothing. -/
def spentIn : Except Err (Overview × List Write) → Option (Int × Int × Int)
  | .ok (o, []) => some (o.operatingMinor, o.inventoryPurchasesMinor, o.workShifts.shiftCount)
  | _ => none

/-- The first two days of January. -/
def span : Period := ⟨first, third, by decide⟩

theorem spent_shown : spentIn ((compute "c" span).eval spent []) = some (30, 20, 3) := by
  decide

theorem of_spentIn {x : Except Err (Overview × List Write)} {l : Int × Int × Int}
    (h : spentIn x = some l) : ∃ o, x = .ok (o, []) ∧
      (o.operatingMinor, o.inventoryPurchasesMinor, o.workShifts.shiftCount) = l := by
  unfold spentIn at h
  split at h
  · cases h
    exact ⟨_, rfl, rfl⟩
  · cases h

theorem spent_socio : spent.members.find? ⟨"b"⟩ = some (member "b" .socio true) := by decide

end Demo

theorem overview_agrees_with_summaries_spent : ∃ (o : Overview) (e : ExpenseSummary)
    (w : WorkShiftSummary), o.operatingMinor = 30 ∧ o.inventoryPurchasesMinor = 20 ∧
      e.operatingMinor = 30 ∧ e.inventoryMinor = 20 ∧ o.workShifts.shiftCount = 3 ∧
      w.totals.shiftCount = 3 := by
  obtain ⟨o, ho, hl⟩ := Demo.of_spentIn Demo.spent_shown
  simp only [Prod.mk.injEq] at hl
  have hagree := overview_agrees_with_summaries Demo.spent "c" Demo.span o (compute_ends_of_eval ho)
  have hcontext : (Demo.member "b" .socio true).contextId = "c" := rfl
  have hends : ∃ x, WorkShiftsService.Ends compare Demo.spent "c" ⟨"b"⟩
      ⟨some Demo.span.start, some Demo.span.stop, none, none⟩ x := by
    unfold WorkShiftsService.Ends
    rw [scope_socio Demo.span Demo.spent_socio hcontext rfl rfl]
    exact ⟨_, _, _, .refl _, .refl _, rfl⟩
  obtain ⟨e, -, hoperating, hinventory⟩ := hagree.1 (fun _ => "BUSINESS") _ ⟨_, .refl _, rfl⟩
  obtain ⟨x, hx⟩ := hends
  obtain ⟨w, -, hcount, -⟩ := hagree.2 compare ⟨"b"⟩ _ x Demo.spent_socio hcontext rfl rfl hx
  exact ⟨o, e, w, hl.1, hl.2.1, hoperating.trans hl.1, hinventory.trans hl.2.1, hl.2.2,
    hcount.trans hl.2.2⟩

end Bazar.Finance
