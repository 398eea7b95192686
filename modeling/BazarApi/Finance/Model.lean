import Mathlib.Data.String.Basic
import BazarApi.Json.Canonical
import BazarApi.Team.Model
import BazarApi.Finance.Calendar

/- The books of a business, its distribution agreements and what is paid on them, as
   `prisma/schema.prisma` and the migrations declare them. A row keeps the columns its
   services read; `reversed` stands for a row of the reversal table that refers to it. A
   JSON column keeps a value and may reorder the keys of its objects. -/
open Json

namespace Bazar.Finance

open Txn

/-! JSON values. -/

/-- The code units of a text. -/
def utf16 (s : String) : JsString :=
  s.toList.flatMap fun c =>
    if c.toNat < 0x10000 then [unit c]
    else [Fin.ofNat 65536 (0xD800 + (c.toNat - 0x10000) / 0x400),
      Fin.ofNat 65536 (0xDC00 + (c.toNat - 0x10000) % 0x400)]

abbrev Value := Json.Tree Int

def Value.text (s : String) : Value := .str (utf16 s)

def Value.iso (t : Instant) : Value := Value.text (isoText t)

def Value.opt {α : Type} (f : α → Value) : Option α → Value
  | some a => f a
  | none => .null

/-- An object literal. -/
def Value.object (fields : List (String × Value)) : Value :=
  .obj (fields.map fun f => (utf16 f.1, f.2))

/-- The host functions the services call. -/
structure Host where
  /-- `createHash('sha256').update(text, 'utf8').digest('hex')`. -/
  sha256Hex : JsString → String
  /-- `value.trim()`. -/
  trim : String → String
  /-- A value read back from a JSONB column. -/
  jsonb : Value → Value
  jsonb_same : ∀ v : Value, v.Plain → v.Same (jsonb v)

def digest (host : Host) (v : Value) : String := canonicalDigest intLiteral host.sha256Hex v

/-! The books. -/

structure SaleItem where
  quantity : Int
  unitCostMinor : Option Int
  subtotalMinor : Int
  deriving DecidableEq, Repr

inductive SaleStatus where
  | completada
  | rechazadaPorConflicto
  deriving DecidableEq, Repr

/-- A sale with its lines. -/
structure Sale where
  id : Uuid
  contextId : String
  status : SaleStatus
  occurredAt : Instant
  totalMinor : Option Int
  items : List SaleItem
  deriving DecidableEq, Repr

structure Expense where
  id : Uuid
  contextId : String
  nature : String
  occurredAt : Instant
  amountMinor : Int
  reversed : Bool
  deriving DecidableEq, Repr

structure Contribution where
  id : Uuid
  contextId : String
  occurredAt : Instant
  amountMinor : Int
  reversed : Bool
  deriving DecidableEq, Repr

structure WorkShift where
  id : Uuid
  contextId : String
  memberId : Uuid
  workDate : CalendarDate
  minutes : Option Int
  reversed : Bool
  /-- `CHECK ("minutes" > 0)`. -/
  minutes_pos : ∀ m ∈ minutes, 0 < m
  deriving DecidableEq

structure FinanceReserve where
  id : Uuid
  contextId : String
  periodFrom : CalendarDate
  periodTo : CalendarDate
  amountMinor : Int
  reversed : Bool
  deriving DecidableEq

instance : Keyed Sale Uuid := ⟨Sale.id⟩
instance : Keyed Expense Uuid := ⟨Expense.id⟩
instance : Keyed Contribution Uuid := ⟨Contribution.id⟩
instance : Keyed WorkShift Uuid := ⟨WorkShift.id⟩
instance : Keyed FinanceReserve Uuid := ⟨FinanceReserve.id⟩

/-- Ids compare as their texts do. -/
instance : LinearOrder Uuid :=
  LinearOrder.lift' Uuid.text fun a b h => by
    cases a
    cases b
    exact congrArg Uuid.mk h

/-! Request bodies, as validation lets them through. -/

/-- Two calendar dates with from preceding to. -/
structure Period where
  start : CalendarDate
  stop : CalendarDate
  ordered : start < stop
  deriving DecidableEq

inductive WorkBasis where
  | workShifts
  | knownMinutes
  deriving DecidableEq, Repr

def WorkBasis.text : WorkBasis → String
  | .workShifts => "WORK_SHIFTS"
  | .knownMinutes => "KNOWN_MINUTES"

structure FinanceDistributionSimulationDto where
  period : Period
  requestedAmountMinor : Int
  partnerShareBps : Int
  workShareBps : Int
  workBasis : WorkBasis
  requested_range : 1 ≤ requestedAmountMinor ∧ requestedAmountMinor ≤ maxMinorUnits
  partner_range : 0 ≤ partnerShareBps ∧ partnerShareBps ≤ 10000
  work_range : 0 ≤ workShareBps ∧ workShareBps ≤ 10000
  shares_total : partnerShareBps + workShareBps = 10000
  deriving DecidableEq

structure CreateDistributionAgreementDto extends FinanceDistributionSimulationDto where
  id : String
  title : String
  note : Option String
  simulationFingerprint : String
  replacesAgreementId : Option String
  occurredAt : Instant
  createdByMemberId : String
  deviceId : String

structure ReverseDistributionAgreementDto where
  id : String
  reason : String
  occurredAt : Instant
  createdByMemberId : String
  deviceId : String

structure CreateDistributionPaymentDto where
  id : String
  participantMemberId : String
  amountMinor : Int
  occurredAt : Instant
  note : Option String
  createdByMemberId : String
  deviceId : String
  amount_range : 1 ≤ amountMinor ∧ amountMinor ≤ maxMinorUnits

structure ReverseDistributionPaymentDto where
  id : String
  reason : String
  occurredAt : Instant
  createdByMemberId : String
  deviceId : String

/-! Agreements and payments. -/

inductive FinancialStatus where
  | complete
  | partly
  deriving DecidableEq, Repr

def FinancialStatus.text : FinancialStatus → String
  | .complete => "complete"
  | .partly => "partial"

structure DistributionAgreement where
  id : Uuid
  contextId : String
  folio : String
  period : Period
  requestedAmountMinor : Int
  partnerShareBps : Int
  workShareBps : Int
  workBasis : WorkBasis
  currency : String
  financialStatus : FinancialStatus
  potentiallyAvailableMinor : Int
  partnerPoolMinor : Int
  workPoolMinor : Int
  distributedMinor : Int
  undistributedMinor : Int
  title : String
  note : Option String
  replacesAgreementId : Option Uuid
  createdByMemberId : Uuid
  createdByMemberName : String
  createdByAccountId : String
  deviceId : Uuid
  occurredAt : Instant
  receivedAt : Instant
  requestFingerprint : String
  snapshotFingerprint : String
  creationResponse : Value

structure DistributionAgreementParticipant where
  agreementId : Uuid
  contextId : String
  memberId : Uuid
  memberName : String
  role : MemberRole
  isActive : Bool
  partnerEligible : Bool
  partnerAmountMinor : Int
  workUnits : Int
  shiftCount : Int
  knownMinutes : Int
  unknownDurationCount : Int
  workAmountMinor : Int
  totalMinor : Int
  deriving DecidableEq, Repr

structure DistributionAgreementReversal where
  id : Uuid
  contextId : String
  agreementId : Uuid
  reason : String
  occurredAt : Instant
  receivedAt : Instant
  createdByMemberId : Uuid
  createdByAccountId : String
  deviceId : Uuid
  requestFingerprint : String
  creationResponse : Value

/-- The last folio number of a context in a year. -/
structure DistributionAgreementCounter where
  contextId : String
  year : Int
  lastNumber : Int
  deriving DecidableEq, Repr

/-- Who recorded an operation, as its receipt says. -/
structure Origin where
  memberId : Uuid
  name : String
  accountId : String
  deviceId : Uuid
  deriving DecidableEq, Repr

/-- The frozen receipt of a payment. -/
structure PaymentCore where
  id : Uuid
  contextId : String
  agreementId : Uuid
  participantMemberId : Uuid
  participantName : String
  amountMinor : Int
  currency : String
  occurredAt : Instant
  receivedAt : Instant
  note : Option String
  createdBy : Origin
  deriving DecidableEq, Repr

/-- The frozen receipt of the reversal of a payment. -/
structure ReversalCore where
  id : Uuid
  paymentId : Uuid
  reason : String
  occurredAt : Instant
  receivedAt : Instant
  createdBy : Origin
  deriving DecidableEq, Repr

structure DistributionPayment where
  id : Uuid
  contextId : String
  agreementId : Uuid
  participantMemberId : Uuid
  amountMinor : Int
  currency : String
  occurredAt : Instant
  note : Option String
  createdByMemberId : Uuid
  createdByAccountId : String
  deviceId : Uuid
  receivedAt : Instant
  requestFingerprint : String
  creationResponse : PaymentCore

structure DistributionPaymentReversal where
  id : Uuid
  contextId : String
  paymentId : Uuid
  reason : String
  occurredAt : Instant
  receivedAt : Instant
  createdByMemberId : Uuid
  createdByAccountId : String
  deviceId : Uuid
  requestFingerprint : String
  creationResponse : ReversalCore

instance : Keyed DistributionAgreement Uuid := ⟨DistributionAgreement.id⟩
instance : Keyed DistributionAgreementParticipant (Uuid × Uuid) :=
  ⟨fun x => (x.agreementId, x.memberId)⟩
instance : Keyed DistributionAgreementReversal Uuid := ⟨DistributionAgreementReversal.id⟩
instance : Keyed DistributionAgreementCounter (String × Int) := ⟨fun x => (x.contextId, x.year)⟩
instance : Keyed DistributionPayment Uuid := ⟨DistributionPayment.id⟩
instance : Keyed DistributionPaymentReversal Uuid := ⟨DistributionPaymentReversal.id⟩

end Bazar.Finance
