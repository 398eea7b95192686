import BazarApi.Finance.Orders
import BazarApi.Finance.Payments
import BazarApi.Txn.Snapshot

/- The requests on agreements and payments, beside whatever the rest of the system records
   in the books meanwhile, and what a commit of each does, said without its program. A
   creation goes by its snapshot: what it found there (`Creation`), and that nobody has
   written since what it writes (`Untouched`). -/
namespace Bazar.Finance

open Txn

inductive Request where
  | createAgreement (env : Env) (actor : Actor) (dto : CreateDistributionAgreementDto)
  | reverseAgreement (env : Env) (actor : Actor) (agreementId : String)
    (dto : ReverseDistributionAgreementDto)
  | findAgreement (contextId id : String)
  | createPayment (env : Env) (actor : Actor) (agreementId : String)
    (dto : CreateDistributionPaymentDto)
  | reversePayment (env : Env) (actor : Actor) (paymentId : String)
    (dto : ReverseDistributionPaymentDto)
  | findPayment (contextId id : String)
  | listPayments (contextId agreementId : String)
  /-- New versions of the books, of people and of devices, in one transaction. -/
  | record (writes : List BookWrite)

inductive Answer where
  | agreement (created : Bool) (receipt : Value)
  | reversal (created : Bool) (receipt : Value)
  | document (v : Value)
  | payment (created : Bool) (receipt : PaymentReceipt)
  | paymentView (v : PaymentView)
  | payments (items : List PaymentView) (summary : PaymentSummary)
  | recorded

def recordAll : List BookWrite → Tx finance Unit
  | [] => .ret ()
  | w :: ws => do
    query (.record w)
    recordAll ws

/-- The program that serves a request. -/
def Request.call (host : Host) : Request → Call finance Answer
  | .createAgreement env actor dto => do
    let a ← Finance.createAgreement host env actor dto
    .ret (.agreement a.1 a.2)
  | .reverseAgreement env actor agreementId dto => do
    let a ← Finance.reverseAgreement host env actor agreementId dto
    .ret (.reversal a.1 a.2)
  | .findAgreement contextId id => do
    let v ← findAgreementDocument host contextId id
    .ret (.document v)
  | .createPayment env actor agreementId dto => do
    let a ← Finance.createPayment host env actor agreementId dto
    .ret (.payment a.1 a.2)
  | .reversePayment env actor paymentId dto => do
    let a ← Finance.reversePayment host env actor paymentId dto
    .ret (.payment a.1 a.2)
  | .findPayment contextId id => do
    let v ← findOnePayment contextId id
    .ret (.paymentView v)
  | .listPayments contextId agreementId => do
    let a ← Finance.listPayments contextId agreementId
    .ret (.payments a.1 a.2)
  | .record writes => do
    Call.transaction .readCommitted (recordAll writes)
    .ret .recorded

/-! Creations. -/

/-- The last folio number given out. -/
def Db.lastNumber (d : Db) (contextId : String) (year : Int) : Int :=
  (d.counters.find? (contextId, year)).elim 0 (·.lastNumber)

/-- What the agreements of a period that are not voided distribute. -/
def Db.committedMinor (d : Db) (contextId : String) (period : Period) : Int :=
  ((d.liveAgreements contextId period).map (·.distributedMinor)).sum

/-- What a creation writes. -/
def creationWrites (host : Host) (actor : Actor) (dto : CreateDistributionAgreementDto)
    (x : AgreementDocumentInput) (year number : Int) : List Write :=
  .putCounter ⟨x.contextId, year, number⟩ ::
    (.insertAgreement (agreementRow host actor dto x) :: (agreementRow host actor dto x).entries) ++
    (x.simulation.members.map (participantRow x.id x.contextId)).map .insertParticipant

/-- What a creation found in its snapshot. -/
structure Creation (host : Host) (actor : Actor) (dto : CreateDistributionAgreementDto)
    (x : AgreementDocumentInput) (year number : Int) (d : Db) : Prop where
  input : ∃ memberName replaces simulation receivedAt, x =
    documentInput host actor dto memberName replaces simulation receivedAt (formatFolio year number)
  simulated : simulationAt host d x.contextId dto.toFinanceDistributionSimulationDto =
    .ok x.simulation
  free : dto.requestedAmountMinor + d.committedMinor x.contextId dto.period ≤
    x.simulation.financialBase.potentiallyAvailableMinor
  year_eq : folioYear x.receivedAt = some year
  number_eq : number = d.lastNumber x.contextId year + 1
  replaced : ∀ id ∈ dto.replacesAgreementId.map uuid, id ≠ x.id ∧
    ∃ a, d.findAgreement id x.contextId = some a ∧ (d.reversalOf a).isSome = true ∧
      d.replacementOf a = none
  new : d.agreements.find? x.id = none
  folio_new : ∀ a ∈ d.agreements.rows, a.contextId = x.contextId → a.folio ≠ x.folio
  checks : (agreementRow host actor dto x).checks = true
  participants : ∀ m ∈ x.simulation.members, (participantRow x.id x.contextId m).checks = true ∧
    d.participants.find? (x.id, m.memberId) = none
  members_nodup : (x.simulation.members.map (·.memberId)).Nodup

/-- Nobody has written since `g` what `ws` write. -/
structure Untouched (g h : History finance) (ws : List Write) : Prop where
  pre : g <+: h
  keys : ∀ e ∈ h.drop g.length, ∀ w ∈ e.writes, ∀ w' ∈ ws, w.key ≠ w'.key

/-! Effects. -/

/-- What request `i` writes when it writes anything, after history `h`, under its locks; its
transaction began on a history of length `snap`. -/
inductive Effect (host : Host) (d₀ : Db) (i : Nat) (h : History finance) (snap : Nat)
    (locks : Locks Key) : Request → List Write → Prop where
  | recorded {writes : List BookWrite} :
    Effect host d₀ i h snap locks (.record writes) (writes.map .book)
  | created {env : Env} {actor : Actor} {dto : CreateDistributionAgreementDto}
    {x : AgreementDocumentInput} {year number : Int} {g : History finance}
    (hfound : Creation host actor dto x year number (replay (S := finance) d₀ g))
    (huntouched : Untouched g h (creationWrites host actor dto x year number))
    (hexec : .exec i (.nextNumber x.contextId (some year)) ∈ h.drop g.length)
    (hsnap : g.length = snap) :
    Effect host d₀ i h snap locks (.createAgreement env actor dto)
      (creationWrites host actor dto x year number)
  | voided {env : Env} {actor : Actor} {agreementId : String}
    {dto : ReverseDistributionAgreementDto} {original : DistributionAgreement}
    (horiginal : (replay (S := finance) d₀ h).findAgreement (uuid agreementId)
      actor.account.contextId = some original)
    (hactive : ∀ r ∈ (replay (S := finance) d₀ h).agreementReversals.rows,
      r.agreementId ≠ uuid agreementId)
    (hnew : (replay (S := finance) d₀ h).agreementReversals.find? (uuid dto.id) = none)
    (hlock : (.agreement (uuid agreementId), .update) ∈ locks) :
    Effect host d₀ i h snap locks (.reverseAgreement env actor agreementId dto)
      [.insertAgreementReversal
          (reversalRow host actor dto (uuid dto.id) (uuid agreementId) original (env.now 0)),
        .entry (.reversedAgreement (uuid agreementId))]
  | paid {env : Env} {actor : Actor} {agreementId : String} {dto : CreateDistributionPaymentDto}
    {memberName currency : String} {agreement : DistributionAgreement}
    {participant : DistributionAgreementParticipant}
    (hagreement : (replay (S := finance) d₀ h).findAgreement (uuid agreementId)
      actor.account.contextId = some agreement)
    (hactive : (replay (S := finance) d₀ h).voided (uuid agreementId) actor.account.contextId = false)
    (hparticipant : (replay (S := finance) d₀ h).findParticipant (uuid agreementId)
      (uuid dto.participantMemberId) actor.account.contextId = some participant)
    (hbalance : (replay (S := finance) d₀ h).paid (uuid agreementId) (uuid dto.participantMemberId)
      actor.account.contextId + dto.amountMinor ≤ participant.totalMinor)
    (hnew : (replay (S := finance) d₀ h).payments.find? (uuid dto.id) = none)
    (hlock : (.participant (uuid agreementId) (uuid dto.participantMemberId), .update) ∈ locks) :
    Effect host d₀ i h snap locks (.createPayment env actor agreementId dto)
      [.insertPayment ((paymentCore host env actor (uuid agreementId) dto memberName
        participant.memberName currency).row
          (paymentFingerprint host actor (uuid agreementId) dto))]
  | unpaid {env : Env} {actor : Actor} {paymentId : String} {dto : ReverseDistributionPaymentDto}
    {memberName : String} {payment : DistributionPayment}
    (hpayment : (replay (S := finance) d₀ h).findPayment (uuid paymentId)
      actor.account.contextId = some payment)
    (hactive : ∀ r ∈ (replay (S := finance) d₀ h).paymentReversals.rows,
      r.paymentId ≠ uuid paymentId)
    (hnew : (replay (S := finance) d₀ h).paymentReversals.find? (uuid dto.id) = none)
    (hlock : (.payment (uuid paymentId), .update) ∈ locks) :
    Effect host d₀ i h snap locks (.reversePayment env actor paymentId dto)
      [.insertPaymentReversal
          ((reversalCore host env actor (uuid paymentId) dto memberName).row
            actor.account.contextId (paymentReversalFingerprint host actor (uuid paymentId) dto)),
        .entry (.reversedPayment (uuid paymentId))]

/-- Every commit is of one of the requests, and writes nothing or what that request writes. -/
def Commits (host : Host) (d₀ : Db) (reqs : List Request) (h : History finance)
    (c : Commit finance) : Prop :=
  ∃ r, reqs[c.pid]? = some r ∧ (c.writes = [] ∨ Effect host d₀ c.pid h c.snap c.locks r c.writes)

/-- A state of a run in which the requests are served from the database `d₀`. -/
def Reachable (host : Host) (d₀ : Db) (reqs : List Request) (s : Sys finance Answer) : Prop :=
  Sys.Reach (S := finance) d₀ (Sys.initial (reqs.map (Request.call host))) s

end Bazar.Finance
