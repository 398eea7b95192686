import BazarApi.Finance.Agreements

/- `finance/finance-payments.service.ts`. A payment locks its agreement for sharing, so that
   nobody voids it meanwhile, and its participant for updating, so that the balance it reads
   is the balance it fills. A reversal locks the participant and the payment.

   Correspondence (TypeScript ↔ Lean):
     `livePayment`                 ↔ `livePayment`
     `receipt`                     ↔ `paymentReceipt`
     `create`, `createInTx`        ↔ `createPayment`, `createPaymentInTx`, `payNew`
     `reverse`                     ↔ `reversePayment`, `reversePaymentInTx`, `unpayNew`
     `findOne`, `list`             ↔ `findOnePayment`, `listPayments` -/
open Json

namespace Bazar.Finance

open Txn

/-! Errors. -/

def paymentIdConflict (message : String) : Err :=
  .conflictWith "FINANCE_PAYMENT_ID_CONFLICT" message []

def paymentAgreementVoided : Err :=
  .conflictWith "FINANCE_PAYMENT_AGREEMENT_VOIDED"
    "The agreement is voided and cannot receive payments" []

def paymentAlreadyVoided : Err :=
  .conflictWith "FINANCE_PAYMENT_ALREADY_VOIDED" "Payment is already reversed" []

def exceedsPending (agreedMinor paidMinor : Int) : Err :=
  .unprocessable "FINANCE_PAYMENT_EXCEEDS_PENDING"
    "The payment exceeds what is pending for this participant"
    [("agreedMinor", agreedMinor), ("paidMinor", paidMinor),
      ("pendingMinor", agreedMinor - paidMinor)]

def paymentTimeInvalid : Err :=
  .unprocessable "FINANCE_PAYMENT_TIME_INVALID"
    "Payment time must be on or after the agreement time and not in the future" []

def nothingAgreed : Err :=
  .unprocessable "FINANCE_PAYMENT_NOTHING_AGREED"
    "This participant has nothing agreed to be paid" []

def paymentReversalTimeInvalid : Err :=
  .unprocessable "FINANCE_PAYMENT_REVERSAL_TIME_INVALID"
    "Reversal time must be on or after the payment time and not in the future" []

def paymentNotFound : Err := .notFound "Payment not found"

/-! Receipts. -/

/-- The receipt of a reversal but its payment's id. -/
structure PaymentReversalView where
  id : Uuid
  reason : String
  occurredAt : Instant
  receivedAt : Instant
  createdBy : Origin
  deriving DecidableEq, Repr

structure PaymentView extends PaymentCore where
  voided : Bool
  reversal : Option PaymentReversalView
  deriving DecidableEq, Repr

structure PaymentReceipt extends PaymentView where
  participantSummary : Option ParticipantSummary
  paymentSummary : PaymentSummary
  deriving DecidableEq, Repr

def ReversalCore.view (r : ReversalCore) : PaymentReversalView :=
  ⟨r.id, r.reason, r.occurredAt, r.receivedAt, r.createdBy⟩

/-- The frozen receipt with what happened since. -/
def livePayment (row : LivePayment) : PaymentView :=
  { row.payment.creationResponse with
    voided := row.reversal.isSome
    reversal := row.reversal.map fun r => r.creationResponse.view }

def participantSummaryOf (summary : PaymentSummary) (memberId : Uuid) : Option ParticipantSummary :=
  summary.participants.find? fun p => p.memberId = memberId

def paymentReceipt (row : LivePayment) : Tx finance PaymentReceipt := do
  let payment := livePayment row
  let paymentSummary ← loadPaymentSummary payment.contextId payment.agreementId
  return { payment with
    participantSummary := participantSummaryOf paymentSummary payment.participantMemberId
    paymentSummary }

/-! Payments. -/

def paymentIdentity (contextId : String) (id : Uuid) : String :=
  "distribution-payment:identity:" ++ contextId ++ ":" ++ id.text

def paymentFingerprint (host : Host) (actor : Actor) (agreementId : Uuid)
    (dto : CreateDistributionPaymentDto) : String :=
  digest host (.object (operationFields actor "payment:create" ++
    [("id", .text (uuid dto.id).text), ("agreementId", .text agreementId.text),
      ("participantMemberId", .text (uuid dto.participantMemberId).text),
      ("amountMinor", .num dto.amountMinor), ("occurredAt", .iso dto.occurredAt),
      ("note", .opt (fun note => .text (host.trim note)) dto.note),
      ("createdByMemberId", .text (uuid dto.createdByMemberId).text),
      ("deviceId", .text (uuid dto.deviceId).text)]))

def paymentCore (host : Host) (env : Env) (actor : Actor) (agreementId : Uuid)
    (dto : CreateDistributionPaymentDto) (memberName participantName currency : String) :
    PaymentCore :=
  { id := uuid dto.id, contextId := actor.account.contextId, agreementId
    participantMemberId := uuid dto.participantMemberId, participantName
    amountMinor := dto.amountMinor, currency, occurredAt := dto.occurredAt
    receivedAt := env.now 0, note := dto.note.map host.trim
    createdBy := {
      memberId := uuid dto.createdByMemberId, name := memberName, accountId := actor.account.id
      deviceId := uuid dto.deviceId } }

/-- The row of a receipt. -/
def PaymentCore.row (core : PaymentCore) (requestFingerprint : String) : DistributionPayment :=
  { id := core.id, contextId := core.contextId, agreementId := core.agreementId
    participantMemberId := core.participantMemberId, amountMinor := core.amountMinor
    currency := core.currency, occurredAt := core.occurredAt, note := core.note
    createdByMemberId := core.createdBy.memberId, createdByAccountId := core.createdBy.accountId
    deviceId := core.createdBy.deviceId, receivedAt := core.receivedAt, requestFingerprint
    creationResponse := core }

/-- A payment whose id is new. -/
def payNew (host : Host) (env : Env) (actor : Actor) (agreementId : Uuid)
    (dto : CreateDistributionPaymentDto) (memberName : String) :
    Tx finance (Bool × PaymentReceipt) := do
  let contextId := actor.account.contextId
  let memberId := uuid dto.participantMemberId
  let agreement ← query (.shareAgreement agreementId contextId)
  let agreement ← Tx.orThrow agreement agreementNotFound
  let voided ← query (.agreementVoided agreementId contextId)
  Tx.require (voided = false) paymentAgreementVoided
  let participant ← query (.findParticipant agreementId memberId contextId)
  let participant ← Tx.orThrow participant agreementNotFound
  Tx.require (participant.totalMinor ≠ 0) nothingAgreed
  query (.lockParticipant agreementId memberId contextId)
  Tx.require (agreement.1 ≤ dto.occurredAt ∧ dto.occurredAt ≤ env.now 0) paymentTimeInvalid
  let paid ← query (.paidBy agreementId memberId contextId)
  Tx.require (paid + dto.amountMinor ≤ participant.totalMinor)
    (exceedsPending participant.totalMinor paid)
  let core := paymentCore host env actor agreementId dto memberName participant.memberName agreement.2
  query (.createPayment (core.row (paymentFingerprint host actor agreementId dto)))
  let paymentSummary ← loadPaymentSummary contextId agreementId
  return (true, { core with
    voided := false, reversal := none
    participantSummary := participantSummaryOf paymentSummary memberId, paymentSummary })

def createPaymentInTx (host : Host) (env : Env) (actor : Actor) (s : Selection)
    (agreementId : Uuid) (dto : CreateDistributionPaymentDto) :
    Tx finance (Bool × PaymentReceipt) := do
  let contextId := actor.account.contextId
  let id := uuid dto.id
  let memberName ← authorize actor s
  query (.advisoryLock (paymentIdentity contextId id))
  let existing ← query (.findPayment id contextId)
  match existing with
  | some existing => do
    Tx.require (existing.payment.requestFingerprint = paymentFingerprint host actor agreementId dto)
      (paymentIdConflict "Payment ID already has different content")
    let receipt ← paymentReceipt existing
    return (false, receipt)
  | none => payNew host env actor agreementId dto memberName

/-- A unique violation met outside is an id of another context. -/
def settlePayment (message : String) (settled : Except Err (Bool × PaymentReceipt)) :
    Call finance (Bool × PaymentReceipt) :=
  match settled with
  | .ok a => .ret a
  | .error e => .throw (if isUniqueViolation e then paymentIdConflict message else e)

def createPayment (host : Host) (env : Env) (actor : Actor) (agreementId : String)
    (dto : CreateDistributionPaymentDto) : Call finance (Bool × PaymentReceipt) := do
  let s ← Call.ofExcept (assertOrigin actor dto.createdByMemberId dto.deviceId)
  let settled ← Call.settle .readCommitted
    (createPaymentInTx host env actor s (uuid agreementId) dto)
  settlePayment "Payment ID is already in use" settled

/-! Reversals. -/

def paymentReversalIdentity (contextId : String) (id : Uuid) : String :=
  "distribution-payment-reversal:identity:" ++ contextId ++ ":" ++ id.text

def paymentReversalFingerprint (host : Host) (actor : Actor) (paymentId : Uuid)
    (dto : ReverseDistributionPaymentDto) : String :=
  digest host (.object (operationFields actor "payment:reverse" ++
    [("id", .text (uuid dto.id).text), ("paymentId", .text paymentId.text),
      ("reason", .text (host.trim dto.reason)), ("occurredAt", .iso dto.occurredAt),
      ("createdByMemberId", .text (uuid dto.createdByMemberId).text),
      ("deviceId", .text (uuid dto.deviceId).text)]))

def reversalCore (host : Host) (env : Env) (actor : Actor) (paymentId : Uuid)
    (dto : ReverseDistributionPaymentDto) (memberName : String) : ReversalCore :=
  { id := uuid dto.id, paymentId, reason := host.trim dto.reason, occurredAt := dto.occurredAt
    receivedAt := env.now 0
    createdBy := {
      memberId := uuid dto.createdByMemberId, name := memberName, accountId := actor.account.id
      deviceId := uuid dto.deviceId } }

def ReversalCore.row (core : ReversalCore) (contextId requestFingerprint : String) :
    DistributionPaymentReversal :=
  { id := core.id, contextId, paymentId := core.paymentId, reason := core.reason
    occurredAt := core.occurredAt, receivedAt := core.receivedAt
    createdByMemberId := core.createdBy.memberId, createdByAccountId := core.createdBy.accountId
    deviceId := core.createdBy.deviceId, requestFingerprint, creationResponse := core }

/-- A reversal whose id is new. -/
def unpayNew (host : Host) (env : Env) (actor : Actor) (paymentId : Uuid)
    (dto : ReverseDistributionPaymentDto) (memberName : String) :
    Tx finance (Bool × PaymentReceipt) := do
  let contextId := actor.account.contextId
  let target ← query (.findPayment paymentId contextId)
  let target ← Tx.orThrow target paymentNotFound
  query (.lockParticipant target.payment.agreementId target.payment.participantMemberId contextId)
  query (.lockPayment paymentId contextId)
  let already ← query (.paymentReversed paymentId contextId)
  Tx.require (already = false) paymentAlreadyVoided
  Tx.require (target.payment.occurredAt ≤ dto.occurredAt ∧ dto.occurredAt ≤ env.now 0)
    paymentReversalTimeInvalid
  let core := reversalCore host env actor paymentId dto memberName
  query (.createPaymentReversal
    (core.row contextId (paymentReversalFingerprint host actor paymentId dto)))
  let row ← query (.findPayment paymentId contextId)
  let row ← Tx.orThrow row .recordNotFound
  let receipt ← paymentReceipt row
  return (true, receipt)

def reversePaymentInTx (host : Host) (env : Env) (actor : Actor) (s : Selection)
    (paymentId : Uuid) (dto : ReverseDistributionPaymentDto) :
    Tx finance (Bool × PaymentReceipt) := do
  let contextId := actor.account.contextId
  let id := uuid dto.id
  let memberName ← authorize actor s
  query (.advisoryLock (paymentReversalIdentity contextId id))
  let existing ← query (.findPaymentReversal id contextId)
  match existing with
  | some existing => do
    Tx.require (existing.requestFingerprint = paymentReversalFingerprint host actor paymentId dto)
      (paymentIdConflict "Reversal ID already has different content")
    let row ← query (.findPayment existing.paymentId contextId)
    let row ← Tx.orThrow row .recordNotFound
    let receipt ← paymentReceipt row
    return (false, receipt)
  | none => unpayNew host env actor paymentId dto memberName

def reversePayment (host : Host) (env : Env) (actor : Actor) (paymentId : String)
    (dto : ReverseDistributionPaymentDto) : Call finance (Bool × PaymentReceipt) := do
  let s ← Call.ofExcept (assertOrigin actor dto.createdByMemberId dto.deviceId)
  let settled ← Call.settle .readCommitted
    (reversePaymentInTx host env actor s (uuid paymentId) dto)
  settlePayment "Reversal ID is already in use" settled

/-! Reading. -/

def findOnePayment (contextId id : String) : Call finance PaymentView :=
  .transaction .readCommitted do
    let row ← query (.findPayment (uuid id) contextId)
    let row ← Tx.orThrow row paymentNotFound
    return livePayment row

def listInTx (contextId : String) (agreementId : Uuid) :
    Tx finance (List PaymentView × PaymentSummary) := do
  let agreement ← query (.findAgreement agreementId contextId)
  let agreement ← Tx.orThrow agreement agreementNotFound
  let rows ← query (.findPayments agreement.agreement.id contextId)
  let paymentSummary ← loadPaymentSummary contextId agreement.agreement.id
  return (rows.map livePayment, paymentSummary)

def listPayments (contextId agreementId : String) :
    Call finance (List PaymentView × PaymentSummary) :=
  .transaction .readCommitted (listInTx contextId (uuid agreementId))

end Bazar.Finance
