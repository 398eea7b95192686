import BazarApi.Js.Map
import BazarApi.Finance.Overview

/- `finance/finance-distribution.service.ts`: how an amount of a period is simulated to be
   shared, and the fingerprint of everything the participants saw.

   Correspondence (TypeScript ↔ Lean):
     `simulateInTx`, its queries     ↔ `simulateInTx`
     `simulateInTx`, the map `work`  ↔ `workOf`
     `simulateInTx`, the rest        ↔ `simulationOf`
     `warnings`                      ↔ `simulationWarnings`
     `simulationFingerprint`         ↔ `simulationFingerprint` -/
open Json

namespace Bazar.Finance

open Txn Team

structure WorkAggregate where
  shiftCount : Int
  knownMinutes : Int
  unknownDurationCount : Int
  deriving DecidableEq, Repr

abbrev Work := Js.Map Uuid WorkAggregate

structure SimulatedMember where
  memberId : Uuid
  name : String
  role : MemberRole
  isActive : Bool
  partnerEligible : Bool
  partnerAmountMinor : Int
  workUnits : Int
  shiftCount : Int
  knownMinutes : Int
  unknownDurationCount : Int
  workAmountMinor : Int
  totalMinor : Int
  deriving DecidableEq, Repr

structure FinancialBase where
  potentiallyAvailableMinor : Int
  requestedAmountMinor : Int
  remainingAvailableMinor : Int
  status : FinancialStatus
  deriving DecidableEq, Repr

structure Rule where
  partnerShareBps : Int
  workShareBps : Int
  workBasis : WorkBasis
  deriving DecidableEq, Repr

structure Totals where
  distributedMinor : Int
  undistributedMinor : Int
  deriving DecidableEq, Repr

/-- What the participants see. -/
structure SimulationContent where
  period : Period
  currency : String
  financialBase : FinancialBase
  rule : Rule
  pools : Pools
  members : List SimulatedMember
  totals : Totals
  warnings : List Warning
  deriving DecidableEq

structure Simulation extends SimulationContent where
  simulationFingerprint : String
  deriving DecidableEq

/-! The content as JSON. -/

def MemberRole.text : MemberRole → String
  | .socio => "socio"
  | .colaborador => "colaborador"

def periodValue (p : Period) : Value :=
  .object [("from", .text p.start.text), ("to", .text p.stop.text),
    ("fromInstant", .iso (businessStart p.start)), ("toInstant", .iso (businessStart p.stop)),
    ("utcOffsetMinutes", .num businessTzOffsetMinutes), ("interval", .text "[from,to)")]

def FinancialBase.value (b : FinancialBase) : Value :=
  .object [("potentiallyAvailableMinor", .num b.potentiallyAvailableMinor),
    ("requestedAmountMinor", .num b.requestedAmountMinor),
    ("remainingAvailableMinor", .num b.remainingAvailableMinor), ("status", .text b.status.text)]

def Rule.value (r : Rule) : Value :=
  .object [("partnerShareBps", .num r.partnerShareBps), ("workShareBps", .num r.workShareBps),
    ("workBasis", .text r.workBasis.text), ("partnerMode", .text "EQUAL")]

def Pools.value (p : Pools) : Value :=
  .object [("partnerPoolMinor", .num p.partnerPoolMinor), ("workPoolMinor", .num p.workPoolMinor)]

def SimulatedMember.value (m : SimulatedMember) : Value :=
  .object [("memberId", .text m.memberId.text), ("name", .text m.name),
    ("role", .text (MemberRole.text m.role)), ("isActive", .bool m.isActive),
    ("partnerEligible", .bool m.partnerEligible),
    ("partnerAmountMinor", .num m.partnerAmountMinor), ("workUnits", .num m.workUnits),
    ("shiftCount", .num m.shiftCount), ("knownMinutes", .num m.knownMinutes),
    ("unknownDurationCount", .num m.unknownDurationCount),
    ("workAmountMinor", .num m.workAmountMinor), ("totalMinor", .num m.totalMinor)]

def Totals.value (t : Totals) : Value :=
  .object [("distributedMinor", .num t.distributedMinor),
    ("undistributedMinor", .num t.undistributedMinor)]

def Warning.value (w : Warning) : Value :=
  .object [("code", .text w.code), ("message", .text w.message)]

def SimulationContent.value (c : SimulationContent) : Value :=
  .object [("period", periodValue c.period), ("currency", .text c.currency),
    ("financialBase", c.financialBase.value), ("rule", c.rule.value), ("pools", c.pools.value),
    ("members", .arr (c.members.map SimulatedMember.value)), ("totals", c.totals.value),
    ("warnings", .arr (c.warnings.map Warning.value))]

def simulationFingerprint (host : Host) (content : SimulationContent) : String :=
  "sim1:" ++ digest host content.value

/-! Errors. -/

def exceedsAvailable (available : Int) : Err :=
  .unprocessable "FINANCE_DISTRIBUTION_EXCEEDS_AVAILABLE"
    (if 0 < available then
      "The requested amount exceeds the potentially available amount of the period"
    else "The period has no potentially available amount to distribute") []

def noPartners : Err :=
  .unprocessable "FINANCE_DISTRIBUTION_NO_PARTNERS"
    "There are no active socios eligible for the partner share" []

def noWork (work : Work) : Err :=
  .unprocessable "FINANCE_DISTRIBUTION_NO_WORK"
    (if 0 < work.length then
      "All shifts of the period lack a known duration, so KNOWN_MINUTES has no work to weigh"
    else "No active work shifts are registered in the period") []

/-! The computation. -/

def workEntry (row : ShiftGroup) : Uuid × WorkAggregate :=
  (row.memberId, ⟨row.count, row.minutes.getD 0, 0⟩)

/-- `work.get(row.memberId)!.unknownDurationCount = row._count._all`. -/
def countUnknown (work : Work) (row : ShiftGroup) : Except Err Work :=
  match work.get row.memberId with
  | none => .error (.internal "Cannot set properties of undefined (setting 'unknownDurationCount')")
  | some aggregate => .ok (work.set row.memberId { aggregate with unknownDurationCount := row.count })

def workOf (grouped unknown : List ShiftGroup) : Except Err Work :=
  unknown.foldlM countUnknown (.ofEntries (grouped.map workEntry))

def unitsOf (basis : WorkBasis) (aggregate : WorkAggregate) : Int :=
  match basis with
  | .workShifts => aggregate.shiftCount
  | .knownMinutes => aggregate.knownMinutes

def isPartner (m : Member) : Bool := m.role = .socio ∧ m.active

def weightsOf (basis : WorkBasis) (work : Work) : List (Weighted Uuid) :=
  work.map fun e => ⟨e.1, unitsOf basis e.2⟩

/-- Allocations by id. -/
def amounts (rows : List (Allocation Uuid)) : Js.Map Uuid Int :=
  .ofEntries (rows.map fun row => (row.id, row.amount))

def simulatedMember (basis : WorkBasis) (partnerIds : List Uuid) (work : Work)
    (partnerAmounts workAmounts : Js.Map Uuid Int) (member : Member) : SimulatedMember :=
  let aggregate := work.get member.id
  let partnerAmount := (partnerAmounts.get member.id).getD 0
  let workAmount := (workAmounts.get member.id).getD 0
  { memberId := member.id, name := member.name, role := member.role, isActive := member.active
    partnerEligible := member.id ∈ partnerIds, partnerAmountMinor := partnerAmount
    workUnits := (aggregate.map (unitsOf basis)).getD 0
    shiftCount := (aggregate.map (·.shiftCount)).getD 0
    knownMinutes := (aggregate.map (·.knownMinutes)).getD 0
    unknownDurationCount := (aggregate.map (·.unknownDurationCount)).getD 0
    workAmountMinor := workAmount, totalMinor := partnerAmount + workAmount }

/-- Who is in the simulation, by id. -/
def simulatedMembers (partnerIds : List Uuid) (work : Work) (members : List Member) :
    List Member :=
  sortById Member.id (members.filter fun m => m.id ∈ partnerIds ∨ work.has m.id)

def unknownShifts (work : Work) : Int := (work.values.map (·.unknownDurationCount)).sum

def simulationWarnings (base : Overview) (basis : WorkBasis) (partnerPoolMinor : Int)
    (rows : List SimulatedMember) (work : Work) : List Warning :=
  [⟨"SIMULATION_ONLY",
      "This is a simulation. Nothing was saved and no figure here is a recorded decision."⟩,
    ⟨"NOT_A_PAYMENT_OR_OBLIGATION",
      "Simulated amounts are not payments, withdrawals, debts or obligations."⟩] ++
  (if base.result.status = .partly then
    ⟨"OPERATING_RESULT_PARTIAL",
      "The operating result is partial because some sold lines have no recorded cost; the available amount may be overstated."⟩ ::
      (base.warnings.find? fun w => w.code = "MISSING_SALE_COST").toList
  else []) ++
  (if 0 < partnerPoolMinor then
    [⟨"PARTNER_ELIGIBILITY_IS_CURRENT_STATE",
      "Partner eligibility uses the current active socios; membership history is not tracked."⟩]
  else []) ++
  (if basis = .knownMinutes ∧ 0 < unknownShifts work then
    [⟨"WORK_SHIFTS_WITHOUT_DURATION",
      toString (unknownShifts work) ++
        " work shift(s) have no known duration and weigh 0 under KNOWN_MINUTES."⟩]
  else []) ++
  (if rows.any fun row => row.isActive = false ∧ 0 < row.workAmountMinor then
    [⟨"INACTIVE_MEMBER_RECEIVES_WORK_AMOUNT",
      "An inactive member has registered work in the period and receives a simulated work amount."⟩]
  else [])

/-- `if (bad) throw e`. -/
def reject (bad : Prop) [Decidable bad] (e : Err) : Except Err Unit :=
  if bad then .error e else .ok ()

theorem ok_bind {α β : Type} (a : α) (f : α → Except Err β) : (Except.ok a >>= f) = f a := rfl

/-- The pools, and what each member gets of either. -/
structure Split where
  pools : Pools
  partnerAmounts : Js.Map Uuid Int
  workAmounts : Js.Map Uuid Int

def splitOf (dto : FinanceDistributionSimulationDto) (partnerIds : List Uuid) (work : Work) :
    Except Err Split := do
  let pools ← splitPools dto.requestedAmountMinor dto.partnerShareBps
  reject (0 < dto.partnerShareBps ∧ partnerIds = []) noPartners
  let weights := weightsOf dto.workBasis work
  let totalUnits : Int := (weights.map (·.weight)).sum
  reject (0 < dto.workShareBps ∧ totalUnits = 0) (noWork work)
  let partnerRows ← allocateEqual pools.partnerPoolMinor partnerIds
  let workRows ←
    if totalUnits = 0 then .ok (weights.map fun w => ⟨w.id, 0⟩)
    else allocateByWeight pools.workPoolMinor weights
  return ⟨pools, amounts partnerRows, amounts workRows⟩

def partnersOf (members : List Member) : List Uuid := (members.filter isPartner).map (·.id)

def simulatedRows (basis : WorkBasis) (work : Work) (members : List Member) (split : Split) :
    List SimulatedMember :=
  (simulatedMembers (partnersOf members) work members).map
    (simulatedMember basis (partnersOf members) work split.partnerAmounts split.workAmounts)

/-- The answer, when the rows add up. -/
def contentOf (dto : FinanceDistributionSimulationDto) (base : Overview) (work : Work)
    (pools : Pools) (rows : List SimulatedMember) : Except Err SimulationContent := do
  let available := base.result.potentiallyAvailableMinor
  let requested := dto.requestedAmountMinor
  let distributed := (rows.map (·.totalMinor)).sum
  reject (distributed ≠ requested) (.internal "Simulated distribution does not add up")
  return {
    period := base.period, currency := base.currency
    financialBase := ⟨available, requested, available - requested, base.result.status⟩
    rule := ⟨dto.partnerShareBps, dto.workShareBps, dto.workBasis⟩
    pools, members := rows, totals := ⟨distributed, requested - distributed⟩
    warnings := simulationWarnings base dto.workBasis pools.partnerPoolMinor rows work }

def simulationOf (host : Host) (dto : FinanceDistributionSimulationDto) (base : Overview)
    (work : Work) (members : List Member) : Except Err Simulation := do
  let split ← splitOf dto (partnersOf members) work
  let content ← contentOf dto base work split.pools
    (simulatedRows dto.workBasis work members split)
  return { content with simulationFingerprint := simulationFingerprint host content }

def simulateInTx (host : Host) (contextId : String) (dto : FinanceDistributionSimulationDto) :
    Tx finance Simulation := do
  let base ← compute contextId dto.period
  let available := base.result.potentiallyAvailableMinor
  Tx.require (dto.requestedAmountMinor ≤ available) (exceedsAvailable available)
  let grouped ← query (.shiftsByMember contextId dto.period)
  let unknown ← query (.unknownByMember contextId dto.period)
  let work ← Tx.ofExcept (workOf grouped unknown)
  let members ← query (.findMembers contextId work.keys)
  Tx.ofExcept (simulationOf host dto base work members)

end Bazar.Finance
