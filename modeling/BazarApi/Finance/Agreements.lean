import Mathlib.Data.List.Infix
import BazarApi.Finance.PaymentSummary

/- `finance/finance-agreements.service.ts`. An agreement is created under REPEATABLE READ:
   the simulation is run again on the transaction's snapshot, compared with the one that was
   accepted, set against the agreements of the period, and the folio is taken from the counter
   of the year. A creation that lost a race starts over, `maxCreateAttempts` times at most.
   Left out: the queue of creations inside one process, which only delays them, and `list` and
   `commitment`, which decide nothing.

   Correspondence (TypeScript ↔ Lean):
     `isRetryableTransactionError`  ↔ `isRetryableTransactionError`
     `isUniqueViolation`            ↔ `isUniqueViolation`
     `runWithRetry`                 ↔ `runWithRetry`
     `normalized`                   ↔ `normalized`
     `assertOrigin`, `authorize`    ↔ `assertOrigin`, `authorize`
     `create`, `createInTx`         ↔ `createAgreement`, `createInTx`, `createNew`
     `validateReplacement`          ↔ `validateReplacement`
     `reverse`                      ↔ `reverseAgreement`, `reverseInTx`
     `findOne`                      ↔ `findAgreementDocument` -/
open Json

namespace Bazar.Finance

open Txn Team

/-! Errors. -/

def originMismatch : Err :=
  .forbidden "Operation origin does not match the selected member and device"

def originUnauthorized : Err := .forbidden "Operation origin is no longer authorized"

def agreementNotFound : Err := .notFound "Agreement not found"

def agreementBusy : Err :=
  .serviceUnavailableWith "FINANCE_AGREEMENT_BUSY"
    "The agreement could not be created because of concurrent activity. Try again."

def agreementIdConflict (message : String) : Err :=
  .conflictWith "FINANCE_AGREEMENT_ID_CONFLICT" message []

def simulationChanged (current : String) : Err :=
  .conflictWith "FINANCE_AGREEMENT_SIMULATION_CHANGED"
    "The data changed since this simulation was calculated. Simulate again before creating the agreement."
    [("currentSimulationFingerprint", current)]

def replacementInvalid : Err :=
  .unprocessable "FINANCE_AGREEMENT_REPLACEMENT_INVALID"
    "The agreement to replace must exist, be voided and not already replaced" []

def exceedsUncommitted (commitment : Commitment) (requestedMinor : Int) : Err :=
  .unprocessable "FINANCE_AGREEMENT_EXCEEDS_UNCOMMITTED" (exceedsMessage commitment requestedMinor)
    [("availableMinor", commitment.availableMinor), ("committedMinor", commitment.committedMinor),
      ("freeMinor", commitment.freeMinor), ("requestedMinor", requestedMinor),
      ("missingMinor", requestedMinor - commitment.freeMinor)]

def agreementAlreadyVoided : Err :=
  .conflictWith "FINANCE_AGREEMENT_ALREADY_VOIDED" "Agreement is already voided" []

def agreementReversalTimeInvalid : Err :=
  .unprocessable "FINANCE_AGREEMENT_REVERSAL_TIME_INVALID"
    "Reversal time must be on or after the agreement time and not in the future" []

/-! Retrying. -/

/-- `/pattern/i.test(text)`, of a pattern in small letters. -/
def mentions (text pattern : String) : Bool :=
  pattern.toList <:+: text.toList.map Char.toLower

/-- Serialization failures and deadlocks, by their text. -/
def isRetryableTransactionError : Err → Bool
  | .database message =>
    mentions message "could not serialize access" || mentions message "deadlock detected"
  | _ => false

def isUniqueViolation : Err → Bool
  | .uniqueIndex _ => true
  | .uniqueViolation _ => true
  | _ => false

def maxCreateAttempts : Nat := 5

/-- `last` is the error of the attempt before; `attempt` counts them from 0. -/
def runWithRetry {α : Type} (unit : Nat → Tx finance α) : Nat → Nat → Err → Call finance α
  | 0, _, last => .throw (if isUniqueViolation last then agreementNotFound else agreementBusy)
  | attempts + 1, attempt, _ =>
    .tx .repeatableRead (unit attempt) fun x =>
      match x with
      | .ok a => .ret a
      | .error e =>
        if isRetryableTransactionError e ∨ isUniqueViolation e then
          runWithRetry unit attempts (attempt + 1) e
        else .throw e

/-! The origin of an operation. -/

def assertOrigin (actor : Actor) (createdByMemberId deviceId : String) : Except Err Selection :=
  match actor.selection with
  | none => .error originMismatch
  | some s =>
    if (uuid createdByMemberId).text ≠ s.memberId ∨ (uuid deviceId).text ≠ s.deviceId then
      .error originMismatch
    else .ok s

/-- Checks under `FOR SHARE` locks that the origin is still authorized; the member's name. -/
def authorize (actor : Actor) (s : Selection) : Tx finance String := do
  let contextId := actor.account.contextId
  let account ← query (.lockAccount (uuid actor.account.id) contextId (uuid s.memberId))
  let member ← query (.lockMember (uuid s.memberId) contextId)
  let device ← query (.lockDevice (uuid s.deviceId) contextId)
  Tx.require (account = true ∧ member.isSome ∧ device = true) originUnauthorized
  Tx.orThrow member originUnauthorized

/-- The fields a request's fingerprint has beside its data. -/
def operationFields (actor : Actor) (operation : String) : List (String × Value) :=
  [("contextId", .text actor.account.contextId), ("accountId", .text actor.account.id),
    ("operation", .text operation)]

/-! Creation. -/

def agreementIdentity (contextId : String) (id : Uuid) : String :=
  "distribution-agreement:identity:" ++ contextId ++ ":" ++ id.text

/-- The body of a creation, its ids in small letters and its texts trimmed. -/
def normalized (host : Host) (dto : CreateDistributionAgreementDto) : List (String × Value) :=
  [("id", .text (uuid dto.id).text), ("from", .text dto.period.start.text),
    ("to", .text dto.period.stop.text), ("requestedAmountMinor", .num dto.requestedAmountMinor),
    ("partnerShareBps", .num dto.partnerShareBps), ("workShareBps", .num dto.workShareBps),
    ("workBasis", .text dto.workBasis.text), ("title", .text (host.trim dto.title)),
    ("note", .opt (fun note => .text (host.trim note)) dto.note),
    ("replacesAgreementId", .opt (fun id => .text (uuid id).text) dto.replacesAgreementId),
    ("simulationFingerprint", .text dto.simulationFingerprint),
    ("createdByMemberId", .text (uuid dto.createdByMemberId).text),
    ("deviceId", .text (uuid dto.deviceId).text), ("occurredAt", .iso dto.occurredAt)]

def creationFingerprint (host : Host) (actor : Actor) (dto : CreateDistributionAgreementDto) :
    String :=
  digest host (.object (operationFields actor "create" ++ normalized host dto))

/-- A replacement targets an existing, voided, not yet replaced agreement. -/
def validateReplacement (contextId : String) (newId replacesId : Uuid) :
    Tx finance AgreementRef := do
  let target ←
    if replacesId = newId then .ret none else query (.findAgreement replacesId contextId)
  let target ← Tx.orThrow target replacementInvalid
  Tx.require (target.reversal.isSome ∧ target.replacedBy.isNone) replacementInvalid
  return ⟨target.agreement.id, target.agreement.folio⟩

def replacedAgreement (contextId : String) (newId : Uuid) :
    Option Uuid → Tx finance (Option AgreementRef)
  | some replacesId => do return some (← validateReplacement contextId newId replacesId)
  | none => return none

/-- What a creation puts in its document. -/
def documentInput (host : Host) (actor : Actor) (dto : CreateDistributionAgreementDto)
    (memberName : String) (replaces : Option AgreementRef) (simulation : Simulation)
    (receivedAt : Instant) (folio : String) : AgreementDocumentInput :=
  { contextId := actor.account.contextId, id := uuid dto.id, folio, title := host.trim dto.title
    note := dto.note.map host.trim, replacesAgreement := replaces, occurredAt := dto.occurredAt
    receivedAt
    createdBy := {
      memberId := uuid dto.createdByMemberId, name := memberName, accountId := actor.account.id
      deviceId := uuid dto.deviceId }
    simulation }

def agreementRow (host : Host) (actor : Actor) (dto : CreateDistributionAgreementDto)
    (x : AgreementDocumentInput) : DistributionAgreement :=
  { id := x.id, contextId := x.contextId, folio := x.folio, period := dto.period
    requestedAmountMinor := dto.requestedAmountMinor, partnerShareBps := dto.partnerShareBps
    workShareBps := dto.workShareBps, workBasis := dto.workBasis, currency := "MXN"
    financialStatus := x.simulation.financialBase.status
    potentiallyAvailableMinor := x.simulation.financialBase.potentiallyAvailableMinor
    partnerPoolMinor := x.simulation.pools.partnerPoolMinor
    workPoolMinor := x.simulation.pools.workPoolMinor
    distributedMinor := x.simulation.totals.distributedMinor
    undistributedMinor := x.simulation.totals.undistributedMinor
    title := x.title, note := x.note, replacesAgreementId := dto.replacesAgreementId.map uuid
    createdByMemberId := x.createdBy.memberId, createdByMemberName := x.createdBy.name
    createdByAccountId := x.createdBy.accountId, deviceId := x.createdBy.deviceId
    occurredAt := x.occurredAt, receivedAt := x.receivedAt
    requestFingerprint := creationFingerprint host actor dto
    snapshotFingerprint := snapshotFingerprint host x
    creationResponse := buildAgreementDocument host x }

def participantRow (agreementId : Uuid) (contextId : String) (m : SimulatedMember) :
    DistributionAgreementParticipant :=
  { agreementId, contextId, memberId := m.memberId, memberName := m.name, role := m.role
    isActive := m.isActive, partnerEligible := m.partnerEligible
    partnerAmountMinor := m.partnerAmountMinor, workUnits := m.workUnits
    shiftCount := m.shiftCount, knownMinutes := m.knownMinutes
    unknownDurationCount := m.unknownDurationCount, workAmountMinor := m.workAmountMinor
    totalMinor := m.totalMinor }

/-- A creation whose id is new. -/
def createNew (host : Host) (env : Env) (actor : Actor) (dto : CreateDistributionAgreementDto)
    (memberName : String) (attempt : Nat) : Tx finance (Bool × Value) := do
  let contextId := actor.account.contextId
  let id := uuid dto.id
  let replaces ← replacedAgreement contextId id (dto.replacesAgreementId.map uuid)
  let simulation ← simulateInTx host contextId dto.toFinanceDistributionSimulationDto
  Tx.require (simulation.simulationFingerprint = dto.simulationFingerprint)
    (simulationChanged simulation.simulationFingerprint)
  let committed ← query (.committed contextId dto.period)
  let commitment :=
    commitmentOf simulation.financialBase.potentiallyAvailableMinor (committed.getD 0)
  Tx.require (dto.requestedAmountMinor ≤ commitment.freeMinor)
    (exceedsUncommitted commitment dto.requestedAmountMinor)
  let receivedAt := env.now attempt
  let year := folioYear receivedAt
  let number ← query (.nextNumber contextId year)
  let folio := formatFolio (year.getD 0) number
  let x := documentInput host actor dto memberName replaces simulation receivedAt folio
  query (.createAgreement (agreementRow host actor dto x))
  query (.createParticipants (simulation.members.map (participantRow id contextId)))
  return (true, buildAgreementDocument host x)

/-- A creation sent again. -/
def replayCreation (host : Host) (fingerprint : String) (existing : LiveAgreement) :
    Tx finance (Bool × Value) := do
  Tx.require (existing.agreement.requestFingerprint = fingerprint)
    (agreementIdConflict "Agreement ID already has different content")
  return (false, liveDocument host existing)

def createInTx (host : Host) (env : Env) (actor : Actor) (s : Selection)
    (dto : CreateDistributionAgreementDto) (attempt : Nat) : Tx finance (Bool × Value) := do
  let contextId := actor.account.contextId
  let id := uuid dto.id
  let memberName ← authorize actor s
  query (.advisoryLock (agreementIdentity contextId id))
  let existing ← query (.findAgreement id contextId)
  match existing with
  | some existing => replayCreation host (creationFingerprint host actor dto) existing
  | none => createNew host env actor dto memberName attempt

def createAgreement (host : Host) (env : Env) (actor : Actor)
    (dto : CreateDistributionAgreementDto) : Call finance (Bool × Value) := do
  let s ← Call.ofExcept (assertOrigin actor dto.createdByMemberId dto.deviceId)
  runWithRetry (createInTx host env actor s dto) maxCreateAttempts 0 agreementBusy

/-! Voiding. -/

/-- The data of a reversal that its fingerprint and its receipt share. -/
def reversalData (host : Host) (id agreementId : Uuid) (dto : ReverseDistributionAgreementDto) :
    List (String × Value) :=
  [("id", .text id.text), ("agreementId", .text agreementId.text),
    ("reason", .text (host.trim dto.reason)), ("occurredAt", .iso dto.occurredAt),
    ("createdByMemberId", .text (uuid dto.createdByMemberId).text),
    ("deviceId", .text (uuid dto.deviceId).text)]

def reversalFingerprint (host : Host) (actor : Actor) (id agreementId : Uuid)
    (dto : ReverseDistributionAgreementDto) : String :=
  digest host (.object (operationFields actor "reverse" ++ reversalData host id agreementId dto))

def reversalReceipt (host : Host) (actor : Actor) (dto : ReverseDistributionAgreementDto)
    (id targetId : Uuid) (original : DistributionAgreement) (receivedAt : Instant) : Value :=
  .object (reversalData host id targetId dto ++
    [("contextId", .text actor.account.contextId), ("createdByAccountId", .text actor.account.id),
      ("receivedAt", .iso receivedAt), ("original", host.jsonb original.creationResponse)])

def reversalRow (host : Host) (actor : Actor) (dto : ReverseDistributionAgreementDto)
    (id targetId : Uuid) (original : DistributionAgreement) (receivedAt : Instant) :
    DistributionAgreementReversal :=
  { id, contextId := actor.account.contextId, agreementId := targetId
    reason := host.trim dto.reason, occurredAt := dto.occurredAt, receivedAt
    createdByMemberId := uuid dto.createdByMemberId, createdByAccountId := actor.account.id
    deviceId := uuid dto.deviceId
    requestFingerprint := reversalFingerprint host actor id targetId dto
    creationResponse := reversalReceipt host actor dto id targetId original receivedAt }

/-- A reversal whose id is new. -/
def reverseNew (host : Host) (env : Env) (actor : Actor) (dto : ReverseDistributionAgreementDto)
    (id targetId : Uuid) : Tx finance (Bool × Value) := do
  let contextId := actor.account.contextId
  let locked ← query (.lockAgreement targetId contextId)
  Tx.require (locked = true) agreementNotFound
  let original ← query (.findAgreement targetId contextId)
  let original ← Tx.orThrow original .recordNotFound
  Tx.require original.reversal.isNone agreementAlreadyVoided
  let receivedAt := env.now 0
  Tx.require (original.agreement.occurredAt ≤ dto.occurredAt ∧ dto.occurredAt ≤ receivedAt)
    agreementReversalTimeInvalid
  query (.createAgreementReversal
    (reversalRow host actor dto id targetId original.agreement receivedAt))
  return (true, reversalReceipt host actor dto id targetId original.agreement receivedAt)

def reverseInTx (host : Host) (env : Env) (actor : Actor) (s : Selection)
    (dto : ReverseDistributionAgreementDto) (id targetId : Uuid) : Tx finance (Bool × Value) := do
  let contextId := actor.account.contextId
  let _ ← authorize actor s
  -- sorted, so that two reversals never wait for each other
  query (.advisoryLock (agreementIdentity contextId (min id targetId)))
  query (.advisoryLock (agreementIdentity contextId (max id targetId)))
  let existing ← query (.findAgreementReversal id contextId)
  match existing with
  | some existing => do
    Tx.require (existing.requestFingerprint = reversalFingerprint host actor id targetId dto)
      (agreementIdConflict "Reversal ID already has different content")
    return (false, host.jsonb existing.creationResponse)
  | none => reverseNew host env actor dto id targetId

def reverseAgreement (host : Host) (env : Env) (actor : Actor) (agreementId : String)
    (dto : ReverseDistributionAgreementDto) : Call finance (Bool × Value) := do
  let s ← Call.ofExcept (assertOrigin actor dto.createdByMemberId dto.deviceId)
  let id := uuid dto.id
  let targetId := uuid agreementId
  Call.require (id ≠ targetId)
    (.badRequest "Reversal and agreement identities must be distinct")
  let settled ← Call.settle .readCommitted (reverseInTx host env actor s dto id targetId)
  match settled with
  | .ok a => .ret a
  | .error e => .throw (if isUniqueViolation e then agreementNotFound else e)

/-! Reading. -/

/-- The document of record with the payments of today. -/
def findOneInTx (host : Host) (contextId : String) (id : Uuid) : Tx finance Value := do
  let row ← query (.findAgreement id contextId)
  let row ← Tx.orThrow row agreementNotFound
  let paymentSummary ← loadPaymentSummary contextId id
  return (liveDocument host row).with [("paymentSummary", paymentSummary.value)]

def findAgreementDocument (host : Host) (contextId id : String) : Call finance Value :=
  .transaction .readCommitted (findOneInTx host contextId (uuid id))

end Bazar.Finance
