import BazarApi.Finance.Model
import BazarApi.Finance.Allocation

/- The database of the books, the agreements and their payments, and the statements their
   services send. A list without `ORDER BY` comes in the order of the table. An entry of a
   unique index is a write of its own, so that a snapshot that does not hold it is found
   stale, as the index finds the row it cannot see. -/
namespace Bazar.Finance

open Txn Team

structure Db where
  accounts : Table Account
  members : Table Member
  devices : Table Device
  sales : Table Sale
  expenses : Table Expense
  contributions : Table Contribution
  workShifts : Table WorkShift
  reserves : Table FinanceReserve
  agreements : Table DistributionAgreement
  participants : Table DistributionAgreementParticipant
  agreementReversals : Table DistributionAgreementReversal
  counters : Table DistributionAgreementCounter
  payments : Table DistributionPayment
  paymentReversals : Table DistributionPaymentReversal

/-- What can be locked: a row, a slot of a unique index, or an advisory key. -/
inductive Key where
  | account (id : Uuid)
  | member (id : Uuid)
  | device (id : Uuid)
  | sale (id : Uuid)
  | expense (id : Uuid)
  | contribution (id : Uuid)
  | workShift (id : Uuid)
  | reserve (id : Uuid)
  | agreement (id : Uuid)
  | folio (contextId folio : String)
  | replaces (id : Uuid) (contextId : String)
  | participant (agreementId memberId : Uuid)
  | agreementReversal (id : Uuid)
  | reversedAgreement (id : Uuid)
  | counter (contextId : String) (year : Int)
  | payment (id : Uuid)
  | paymentReversal (id : Uuid)
  | reversedPayment (id : Uuid)
  | advisory (text : String)
  deriving DecidableEq

/-- What the rest of the system records meanwhile: new versions of the books, of the
people and of the devices. -/
inductive BookWrite where
  | account (row : Account)
  | member (row : Member)
  | device (row : Device)
  | sale (row : Sale)
  | expense (row : Expense)
  | contribution (row : Contribution)
  | workShift (row : WorkShift)
  | reserve (row : FinanceReserve)

def BookWrite.apply (d : Db) : BookWrite → Db
  | .account row => { d with accounts := d.accounts.put row }
  | .member row => { d with members := d.members.put row }
  | .device row => { d with devices := d.devices.put row }
  | .sale row => { d with sales := d.sales.put row }
  | .expense row => { d with expenses := d.expenses.put row }
  | .contribution row => { d with contributions := d.contributions.put row }
  | .workShift row => { d with workShifts := d.workShifts.put row }
  | .reserve row => { d with reserves := d.reserves.put row }

def BookWrite.key : BookWrite → Key
  | .account row => .account row.id
  | .member row => .member row.id
  | .device row => .device row.id
  | .sale row => .sale row.id
  | .expense row => .expense row.id
  | .contribution row => .contribution row.id
  | .workShift row => .workShift row.id
  | .reserve row => .reserve row.id

/-! Row versions written. -/

inductive Write where
  | book (w : BookWrite)
  | putCounter (row : DistributionAgreementCounter)
  | insertAgreement (row : DistributionAgreement)
  | insertParticipant (row : DistributionAgreementParticipant)
  | insertAgreementReversal (row : DistributionAgreementReversal)
  | insertPayment (row : DistributionPayment)
  | insertPaymentReversal (row : DistributionPaymentReversal)
  /-- An entry of a unique index. -/
  | entry (k : Key)

def Write.apply (d : Db) : Write → Db
  | .book w => w.apply d
  | .putCounter row => { d with counters := d.counters.put row }
  | .insertAgreement row => { d with agreements := d.agreements.put row }
  | .insertParticipant row => { d with participants := d.participants.put row }
  | .insertAgreementReversal row =>
    { d with agreementReversals := d.agreementReversals.put row }
  | .insertPayment row => { d with payments := d.payments.put row }
  | .insertPaymentReversal row => { d with paymentReversals := d.paymentReversals.put row }
  | .entry _ => d

def Write.key : Write → Key
  | .book w => w.key
  | .putCounter row => .counter row.contextId row.year
  | .insertAgreement row => .agreement row.id
  | .insertParticipant row => .participant row.agreementId row.memberId
  | .insertAgreementReversal row => .agreementReversal row.id
  | .insertPayment row => .payment row.id
  | .insertPaymentReversal row => .paymentReversal row.id
  | .entry k => k

def Write.mode : Write → LockMode
  | .book _ => .noKeyUpdate
  | .putCounter _ => .noKeyUpdate
  | _ => .update

/-! What the statements read. -/

/-- What `select` keeps of a sale. -/
structure RecordedSale where
  totalMinor : Option Int
  items : List SaleItem
  deriving DecidableEq, Repr

/-- A row of a `groupBy` of shifts by member; `minutes` is null when no duration is known. -/
structure ShiftGroup where
  memberId : Uuid
  count : Int
  minutes : Option Int
  deriving DecidableEq, Repr

/-- An agreement with its live facts. -/
structure LiveAgreement where
  agreement : DistributionAgreement
  reversal : Option DistributionAgreementReversal
  replacedBy : Option (Uuid × String)

structure LivePayment where
  payment : DistributionPayment
  reversal : Option DistributionPaymentReversal

structure ParticipantPaymentLine where
  memberId : Uuid
  memberName : String
  agreedMinor : Int
  paidMinor : Int
  paymentCount : Int
  activePaymentCount : Int
  deriving DecidableEq, Repr

/-- `SUM`, null over no values. -/
def sumOf (xs : List Int) : Option Int := if xs = [] then none else some xs.sum

/-- `GROUP BY "memberId"` of shifts. -/
def groupByMember (shifts : List WorkShift) : List ShiftGroup :=
  (shifts.map (·.memberId)).dedup.map fun id =>
    let own := shifts.filter fun s => s.memberId = id
    { memberId := id, count := own.length, minutes := sumOf (own.filterMap (·.minutes)) }

namespace Db
variable (d : Db)

def completedSales (contextId : String) (start stop : Instant) : List Sale :=
  d.sales.rows.filter fun x =>
    x.contextId = contextId ∧ x.status = .completada ∧ start ≤ x.occurredAt ∧ x.occurredAt < stop

def activeExpenses (contextId : String) (start stop : Instant) : List Expense :=
  d.expenses.rows.filter fun x =>
    x.contextId = contextId ∧ start ≤ x.occurredAt ∧ x.occurredAt < stop ∧ x.reversed = false

def activeContributions (contextId : String) (start stop : Instant) : List Contribution :=
  d.contributions.rows.filter fun x =>
    x.contextId = contextId ∧ start ≤ x.occurredAt ∧ x.occurredAt < stop ∧ x.reversed = false

def activeShifts (contextId : String) (period : Period) : List WorkShift :=
  d.workShifts.rows.filter fun x =>
    x.contextId = contextId ∧ x.reversed = false ∧ period.start ≤ x.workDate ∧
      x.workDate < period.stop

def activeReserves (contextId : String) (period : Period) : List FinanceReserve :=
  d.reserves.rows.filter fun x =>
    x.contextId = contextId ∧ x.periodFrom = period.start ∧ x.periodTo = period.stop ∧
      x.reversed = false

/-- The active socios, and whoever has an id of the list. -/
def eligibleMembers (contextId : String) (ids : List Uuid) : List Member :=
  d.members.rows.filter fun m =>
    m.contextId = contextId ∧ ((m.role = .socio ∧ m.active) ∨ m.id ∈ ids)

def findAgreement (id : Uuid) (contextId : String) : Option DistributionAgreement :=
  (d.agreements.find? id).filter fun a => a.contextId = contextId

def reversalOf (a : DistributionAgreement) : Option DistributionAgreementReversal :=
  d.agreementReversals.rows.find? fun r => r.agreementId = a.id ∧ r.contextId = a.contextId

def replacementOf (a : DistributionAgreement) : Option DistributionAgreement :=
  d.agreements.rows.find? fun b => b.replacesAgreementId = some a.id ∧ b.contextId = a.contextId

def live (a : DistributionAgreement) : LiveAgreement :=
  { agreement := a, reversal := d.reversalOf a
    replacedBy := (d.replacementOf a).map fun b => (b.id, b.folio) }

/-- The agreements of an exact period that are not voided. -/
def liveAgreements (contextId : String) (period : Period) : List DistributionAgreement :=
  d.agreements.rows.filter fun a =>
    a.contextId = contextId ∧ a.period = period ∧ (d.reversalOf a).isNone

def findAgreementReversal (id : Uuid) (contextId : String) :
    Option DistributionAgreementReversal :=
  (d.agreementReversals.find? id).filter fun r => r.contextId = contextId

/-- The reversal of an agreement, by the agreement's id. -/
def voided (agreementId : Uuid) (contextId : String) : Bool :=
  d.agreementReversals.rows.any fun r => r.agreementId = agreementId ∧ r.contextId = contextId

def findParticipant (agreementId memberId : Uuid) (contextId : String) :
    Option DistributionAgreementParticipant :=
  (d.participants.find? (agreementId, memberId)).filter fun p => p.contextId = contextId

def findPayment (id : Uuid) (contextId : String) : Option DistributionPayment :=
  (d.payments.find? id).filter fun p => p.contextId = contextId

def reversalOfPayment (p : DistributionPayment) : Option DistributionPaymentReversal :=
  d.paymentReversals.rows.find? fun r => r.paymentId = p.id ∧ r.contextId = p.contextId

def livePayment (p : DistributionPayment) : LivePayment := ⟨p, d.reversalOfPayment p⟩

/-- The payments of an agreement, the latest first. -/
def livePayments (agreementId : Uuid) (contextId : String) : List LivePayment :=
  ((d.payments.rows.filter fun p =>
      p.agreementId = agreementId ∧ p.contextId = contextId).insertionSort fun a b =>
    b.occurredAt < a.occurredAt ∨ (a.occurredAt = b.occurredAt ∧ (b.receivedAt < a.receivedAt ∨
      (a.receivedAt = b.receivedAt ∧ b.id ≤ a.id)))).map d.livePayment

/-- The payments of a participant. -/
def paymentsOf (agreementId memberId : Uuid) (contextId : String) : List DistributionPayment :=
  d.payments.rows.filter fun p =>
    p.agreementId = agreementId ∧ p.participantMemberId = memberId ∧ p.contextId = contextId

/-- Those without a reversal. -/
def activePayments (agreementId memberId : Uuid) (contextId : String) :
    List DistributionPayment :=
  (d.paymentsOf agreementId memberId contextId).filter fun p => (d.reversalOfPayment p).isNone

def paid (agreementId memberId : Uuid) (contextId : String) : Int :=
  ((d.activePayments agreementId memberId contextId).map (·.amountMinor)).sum

def findPaymentReversal (id : Uuid) (contextId : String) : Option DistributionPaymentReversal :=
  (d.paymentReversals.find? id).filter fun r => r.contextId = contextId

def paymentReversed (paymentId : Uuid) (contextId : String) : Bool :=
  d.paymentReversals.rows.any fun r => r.paymentId = paymentId ∧ r.contextId = contextId

def paymentLine (p : DistributionAgreementParticipant) : ParticipantPaymentLine :=
  { memberId := p.memberId, memberName := p.memberName, agreedMinor := p.totalMinor
    paidMinor := d.paid p.agreementId p.memberId p.contextId
    paymentCount := (d.paymentsOf p.agreementId p.memberId p.contextId).length
    activePaymentCount := (d.activePayments p.agreementId p.memberId p.contextId).length }

/-- Ordered by name, then id. -/
def paymentLines (agreementId : Uuid) (contextId : String) : List ParticipantPaymentLine :=
  ((d.participants.rows.filter fun p =>
      p.agreementId = agreementId ∧ p.contextId = contextId).map d.paymentLine).insertionSort
    fun a b => a.memberName < b.memberName ∨ (a.memberName = b.memberName ∧ a.memberId ≤ b.memberId)

end Db

/-! Statements. -/

inductive Sql where
  | lockAccount (id : Uuid) (contextId : String) (memberId : Uuid)
  | lockMember (id : Uuid) (contextId : String)
  | lockDevice (id : Uuid) (contextId : String)
  | advisoryLock (text : String)
  | record (w : BookWrite)
  -- the books
  | salesIn (contextId : String) (start stop : Instant)
  | expensesIn (contextId : String) (start stop : Instant)
  | contributionsIn (contextId : String) (start stop : Instant)
  | shiftsIn (contextId : String) (period : Period)
  | reservesOf (contextId : String) (period : Period)
  | shiftsByMember (contextId : String) (period : Period)
  | unknownByMember (contextId : String) (period : Period)
  | findMembers (contextId : String) (ids : List Uuid)
  -- agreements
  | findAgreement (id : Uuid) (contextId : String)
  | committed (contextId : String) (period : Period)
  | nextNumber (contextId : String) (year : Option Int)
  | createAgreement (row : DistributionAgreement)
  | createParticipants (rows : List DistributionAgreementParticipant)
  | findAgreementReversal (id : Uuid) (contextId : String)
  | lockAgreement (id : Uuid) (contextId : String)
  | shareAgreement (id : Uuid) (contextId : String)
  | agreementVoided (id : Uuid) (contextId : String)
  | createAgreementReversal (row : DistributionAgreementReversal)
  -- payments
  | findPayment (id : Uuid) (contextId : String)
  | findParticipant (agreementId memberId : Uuid) (contextId : String)
  | lockParticipant (agreementId memberId : Uuid) (contextId : String)
  | paidBy (agreementId memberId : Uuid) (contextId : String)
  | createPayment (row : DistributionPayment)
  | paymentLines (agreementId : Uuid) (contextId : String)
  | findPayments (agreementId : Uuid) (contextId : String)
  | findPaymentReversal (id : Uuid) (contextId : String)
  | lockPayment (id : Uuid) (contextId : String)
  | paymentReversed (paymentId : Uuid) (contextId : String)
  | createPaymentReversal (row : DistributionPaymentReversal)

@[reducible] def Sql.Res : Sql → Type
  | .lockAccount _ _ _ => Bool
  | .lockMember _ _ => Option String
  | .lockDevice _ _ => Bool
  | .advisoryLock _ => Unit
  | .record _ => Unit
  | .salesIn _ _ _ => List RecordedSale
  | .expensesIn _ _ _ => List (String × Int)
  | .contributionsIn _ _ _ => List Int
  | .shiftsIn _ _ => List (Option Int)
  | .reservesOf _ _ => List Int
  | .shiftsByMember _ _ => List ShiftGroup
  | .unknownByMember _ _ => List ShiftGroup
  | .findMembers _ _ => List Member
  | .findAgreement _ _ => Option LiveAgreement
  | .committed _ _ => Option Int
  | .nextNumber _ _ => Int
  | .createAgreement _ => Unit
  | .createParticipants _ => Unit
  | .findAgreementReversal _ _ => Option DistributionAgreementReversal
  | .lockAgreement _ _ => Bool
  | .shareAgreement _ _ => Option (Instant × String)
  | .agreementVoided _ _ => Bool
  | .createAgreementReversal _ => Unit
  | .findPayment _ _ => Option LivePayment
  | .findParticipant _ _ _ => Option DistributionAgreementParticipant
  | .lockParticipant _ _ _ => Unit
  | .paidBy _ _ _ => Int
  | .createPayment _ => Unit
  | .paymentLines _ _ => List ParticipantPaymentLine
  | .findPayments _ _ => List LivePayment
  | .findPaymentReversal _ _ => Option DistributionPaymentReversal
  | .lockPayment _ _ => Unit
  | .paymentReversed _ _ => Bool
  | .createPaymentReversal _ => Unit

def findAccount (id : Uuid) (contextId : String) (memberId : Uuid) (v : Db) : Option Account :=
  (v.accounts.find? id).filter fun a =>
    a.contextId = contextId ∧ a.active ∧ ∀ m ∈ a.memberId, m = memberId

def findSocio (id : Uuid) (contextId : String) (v : Db) : Option Member :=
  (v.members.find? id).filter fun m => m.contextId = contextId ∧ m.active ∧ m.role = .socio

def findDevice (id : Uuid) (contextId : String) (v : Db) : Option Device :=
  (v.devices.find? id).filter fun x => x.contextId = contextId ∧ x.authorized

/-- What an `INTEGER` column holds. -/
def int4 (n : Int) : Bool := -2147483648 ≤ n ∧ n ≤ 2147483647

def outOfRange : Err := .database "integer out of range"

def checkViolation : Err := .database "new row violates check constraint"

/-- The counter of a context and year, one further; `CHECK ("year" BETWEEN 2000 AND 9999)`. -/
def advanceCounter (contextId : String) (year : Option Int) (v : Db) :
    Except Err (Int × List Write) :=
  match year with
  | none => .error outOfRange
  | some year =>
    if year < 2000 ∨ 9999 < year then .error checkViolation
    else
      let number := ((v.counters.find? (contextId, year)).elim 0 (·.lastNumber)) + 1
      if int4 number then .ok (number, [.putCounter ⟨contextId, year, number⟩])
      else .error outOfRange

/-- The checks of a row. -/
def DistributionAgreement.checks (a : DistributionAgreement) : Bool :=
  a.requestedAmountMinor ≤ a.potentiallyAvailableMinor ∧ 0 ≤ a.partnerPoolMinor ∧
    0 ≤ a.workPoolMinor ∧ 0 ≤ a.distributedMinor ∧ 0 ≤ a.undistributedMinor ∧
    a.partnerPoolMinor + a.workPoolMinor = a.requestedAmountMinor ∧
    a.distributedMinor + a.undistributedMinor = a.requestedAmountMinor ∧
    a.replacesAgreementId ≠ some a.id

/-- The entries of the unique indexes. -/
def DistributionAgreement.entries (a : DistributionAgreement) : List Write :=
  .entry (.folio a.contextId a.folio) ::
    a.replacesAgreementId.toList.map fun id => .entry (.replaces id a.contextId)

def insertAgreement (row : DistributionAgreement) (v : Db) : Except Err (Unit × List Write) :=
  if int4 row.potentiallyAvailableMinor = false then .error outOfRange
  else if row.checks = false then .error checkViolation
  else if (v.agreements.find? row.id).isSome then .error (.uniqueIndex "DistributionAgreement_pkey")
  else if v.agreements.rows.any fun a => a.contextId = row.contextId ∧ a.folio = row.folio then
    .error (.uniqueIndex "DistributionAgreement_contextId_folio_key")
  else if row.replacesAgreementId.isSome ∧ v.agreements.rows.any fun a =>
      a.contextId = row.contextId ∧ a.replacesAgreementId = row.replacesAgreementId then
    .error (.uniqueIndex "DistributionAgreement_replacesAgreementId_contextId_key")
  else .ok ((), .insertAgreement row :: row.entries)

def DistributionAgreementParticipant.inRange (p : DistributionAgreementParticipant) : Bool :=
  int4 p.workUnits ∧ int4 p.shiftCount ∧ int4 p.knownMinutes ∧ int4 p.unknownDurationCount

def DistributionAgreementParticipant.checks (p : DistributionAgreementParticipant) : Bool :=
  0 ≤ p.partnerAmountMinor ∧ 0 ≤ p.workUnits ∧ 0 ≤ p.shiftCount ∧ 0 ≤ p.knownMinutes ∧
    0 ≤ p.unknownDurationCount ∧ 0 ≤ p.workAmountMinor ∧ 0 ≤ p.totalMinor ∧
    p.partnerAmountMinor + p.workAmountMinor = p.totalMinor

def insertParticipants (rows : List DistributionAgreementParticipant) (v : Db) :
    Except Err (Unit × List Write) :=
  if rows.any fun p => p.inRange = false then .error outOfRange
  else if rows.any fun p => p.checks = false then .error checkViolation
  else if ¬ (rows.map Keyed.key).Nodup ∨
      rows.any fun p => (v.participants.find? (Keyed.key p)).isSome then
    .error (.uniqueIndex "DistributionAgreementParticipant_pkey")
  else .ok ((), rows.map .insertParticipant)

def insertAgreementReversal (row : DistributionAgreementReversal) (v : Db) :
    Except Err (Unit × List Write) :=
  if (v.agreementReversals.find? row.id).isSome then
    .error (.uniqueIndex "DistributionAgreementReversal_pkey")
  else if v.agreementReversals.rows.any fun r => r.agreementId = row.agreementId then
    .error (.uniqueIndex "DistributionAgreementReversal_agreementId_key")
  else .ok ((), [.insertAgreementReversal row, .entry (.reversedAgreement row.agreementId)])

def insertPayment (row : DistributionPayment) (v : Db) : Except Err (Unit × List Write) :=
  if row.amountMinor ≤ 0 then .error checkViolation
  else if (v.payments.find? row.id).isSome then .error (.uniqueIndex "DistributionPayment_pkey")
  else .ok ((), [.insertPayment row])

def insertPaymentReversal (row : DistributionPaymentReversal) (v : Db) :
    Except Err (Unit × List Write) :=
  if row.id = row.paymentId then .error checkViolation
  else if (v.paymentReversals.find? row.id).isSome then
    .error (.uniqueIndex "DistributionPaymentReversal_pkey")
  else if v.paymentReversals.rows.any fun r => r.paymentId = row.paymentId then
    .error (.uniqueIndex "DistributionPaymentReversal_paymentId_key")
  else .ok ((), [.insertPaymentReversal row, .entry (.reversedPayment row.paymentId)])

def Sql.exec : (q : Sql) → Db → Except Err (q.Res × List Write)
  | .lockAccount id contextId memberId, v => .ok ((findAccount id contextId memberId v).isSome, [])
  | .lockMember id contextId, v => .ok ((findSocio id contextId v).map (·.name), [])
  | .lockDevice id contextId, v => .ok ((findDevice id contextId v).isSome, [])
  | .advisoryLock _, _ => .ok ((), [])
  | .record w, _ => .ok ((), [.book w])
  | .salesIn contextId start stop, v =>
    .ok ((v.completedSales contextId start stop).map fun x => ⟨x.totalMinor, x.items⟩, [])
  | .expensesIn contextId start stop, v =>
    .ok ((v.activeExpenses contextId start stop).map fun x => (x.nature, x.amountMinor), [])
  | .contributionsIn contextId start stop, v =>
    .ok ((v.activeContributions contextId start stop).map (·.amountMinor), [])
  | .shiftsIn contextId period, v => .ok ((v.activeShifts contextId period).map (·.minutes), [])
  | .reservesOf contextId period, v =>
    .ok ((v.activeReserves contextId period).map (·.amountMinor), [])
  | .shiftsByMember contextId period, v => .ok (groupByMember (v.activeShifts contextId period), [])
  | .unknownByMember contextId period, v =>
    .ok (groupByMember ((v.activeShifts contextId period).filter fun s => s.minutes = none), [])
  | .findMembers contextId ids, v => .ok (v.eligibleMembers contextId ids, [])
  | .findAgreement id contextId, v => .ok ((v.findAgreement id contextId).map v.live, [])
  | .committed contextId period, v =>
    .ok (sumOf ((v.liveAgreements contextId period).map (·.distributedMinor)), [])
  | .nextNumber contextId year, v => advanceCounter contextId year v
  | .createAgreement row, v => insertAgreement row v
  | .createParticipants rows, v => insertParticipants rows v
  | .findAgreementReversal id contextId, v => .ok (v.findAgreementReversal id contextId, [])
  | .lockAgreement id contextId, v => .ok ((v.findAgreement id contextId).isSome, [])
  | .shareAgreement id contextId, v =>
    .ok ((v.findAgreement id contextId).map fun a => (a.occurredAt, a.currency), [])
  | .agreementVoided id contextId, v => .ok (v.voided id contextId, [])
  | .createAgreementReversal row, v => insertAgreementReversal row v
  | .findPayment id contextId, v =>
    .ok ((v.findPayment id contextId).map v.livePayment, [])
  | .findParticipant agreementId memberId contextId, v =>
    .ok (v.findParticipant agreementId memberId contextId, [])
  | .lockParticipant _ _ _, _ => .ok ((), [])
  | .paidBy agreementId memberId contextId, v => .ok (v.paid agreementId memberId contextId, [])
  | .createPayment row, v => insertPayment row v
  | .paymentLines agreementId contextId, v => .ok (v.paymentLines agreementId contextId, [])
  | .findPayments agreementId contextId, v => .ok (v.livePayments agreementId contextId, [])
  | .findPaymentReversal id contextId, v => .ok (v.findPaymentReversal id contextId, [])
  | .lockPayment _ _, _ => .ok ((), [])
  | .paymentReversed paymentId contextId, v => .ok (v.paymentReversed paymentId contextId, [])
  | .createPaymentReversal row, v => insertPaymentReversal row v

/-- Who recorded a row: the rows its foreign keys refer to. -/
def originLocks (memberId : Uuid) (accountId : String) (deviceId : Uuid) : Locks Key :=
  [(.member memberId, .keyShare), (.account (uuid accountId), .keyShare),
    (.device deviceId, .keyShare)]

/-- The rows locked by `FOR SHARE` and `FOR UPDATE`, the advisory keys, and the rows the
foreign keys of a new row refer to. -/
def Sql.locks : Sql → Db → Locks Key
  | .lockAccount id contextId memberId, v =>
    (findAccount id contextId memberId v).toList.map fun a => (.account a.id, .share)
  | .lockMember id contextId, v =>
    (findSocio id contextId v).toList.map fun m => (.member m.id, .share)
  | .lockDevice id contextId, v =>
    (findDevice id contextId v).toList.map fun x => (.device x.id, .share)
  | .advisoryLock text, _ => [(.advisory text, .update)]
  | .createAgreement row, _ =>
    (row.replacesAgreementId.toList.map fun id => (.agreement id, .keyShare)) ++
      originLocks row.createdByMemberId row.createdByAccountId row.deviceId
  | .createParticipants rows, _ =>
    rows.flatMap fun p => [(.agreement p.agreementId, .keyShare), (.member p.memberId, .keyShare)]
  | .lockAgreement id contextId, v =>
    (v.findAgreement id contextId).toList.map fun a => (.agreement a.id, .update)
  | .shareAgreement id contextId, v =>
    (v.findAgreement id contextId).toList.map fun a => (.agreement a.id, .share)
  | .createAgreementReversal row, _ =>
    (.agreement row.agreementId, .keyShare) ::
      originLocks row.createdByMemberId row.createdByAccountId row.deviceId
  | .lockParticipant agreementId memberId contextId, v =>
    (v.findParticipant agreementId memberId contextId).toList.map fun p =>
      (.participant p.agreementId p.memberId, .update)
  | .createPayment row, _ =>
    [(.agreement row.agreementId, .keyShare),
      (.participant row.agreementId row.participantMemberId, .keyShare)] ++
      originLocks row.createdByMemberId row.createdByAccountId row.deviceId
  | .lockPayment id contextId, v =>
    (v.findPayment id contextId).toList.map fun p => (.payment p.id, .update)
  | .createPaymentReversal row, _ =>
    (.payment row.paymentId, .keyShare) ::
      originLocks row.createdByMemberId row.createdByAccountId row.deviceId
  | _, _ => []

/-- A row the snapshot does not hold stops an insert as a duplicate, anything else as a
conflict of two writers. -/
def Sql.stale : Sql → Err
  | .createAgreement _ => .uniqueIndex "DistributionAgreement_pkey"
  | _ => .database "could not serialize access due to concurrent update"

/-- The schema of the finances. -/
@[reducible] def finance : Schema where
  Db := Db
  Write := Write
  Key := Key
  Err := Err
  Sql := Sql
  Res := Sql.Res
  keyEq := inferInstance
  apply := Write.apply
  key := Write.key
  mode := Write.mode
  mode_writes := by
    intro w
    cases w <;> rfl
  locks := Sql.locks
  exec := Sql.exec
  stale := Sql.stale
  spontaneous := Err.spontaneous

/-- Sends one statement of the schema. -/
abbrev query (q : Sql) : Tx finance q.Res := Tx.query (S := finance) q

end Bazar.Finance
