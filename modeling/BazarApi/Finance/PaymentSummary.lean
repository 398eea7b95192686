import BazarApi.Finance.Documents

/- `finance/finance-payments.summary.ts`: what an agreement's participants are owed and have
   been paid, derived on every read and stored nowhere.

   Correspondence (TypeScript ↔ Lean):
     `participantPaymentStatus`   ↔ `participantPaymentStatus`
     `safe`                       ↔ `safePaymentSum`
     `buildParticipantSummary`    ↔ `buildParticipantSummary`
     `buildPaymentSummary`        ↔ `buildPaymentSummary`
     `loadPaymentSummary`         ↔ `loadPaymentSummary` -/
namespace Bazar.Finance

open Txn

inductive ParticipantPaymentStatus where
  | unpaid
  | partiallyPaid
  | paid
  | notDue
  deriving DecidableEq, Repr

def ParticipantPaymentStatus.text : ParticipantPaymentStatus → String
  | .unpaid => "UNPAID"
  | .partiallyPaid => "PARTIALLY_PAID"
  | .paid => "PAID"
  | .notDue => "NOT_DUE"

def overpaid : Err := .internal "Participant is overpaid: invariant violated"

def participantPaymentStatus (agreedMinor paidMinor : Int) :
    Except Err ParticipantPaymentStatus :=
  if agreedMinor < paidMinor then .error overpaid
  else if agreedMinor = 0 then .ok .notDue
  else if paidMinor = 0 then .ok .unpaid
  else .ok (if paidMinor = agreedMinor then .paid else .partiallyPaid)

def unsafeSum : Err := .rangeError "Payment sum exceeds the safe integer range"

def safePaymentSum (value : Int) : Except Err Int :=
  if maxSafeInteger < value ∨ value < -maxSafeInteger then .error unsafeSum else .ok value

structure ParticipantSummary where
  memberId : Uuid
  memberName : String
  agreedMinor : Int
  paidMinor : Int
  pendingMinor : Int
  status : ParticipantPaymentStatus
  deriving DecidableEq, Repr

def buildParticipantSummary (line : ParticipantPaymentLine) : Except Err ParticipantSummary := do
  let status ← participantPaymentStatus line.agreedMinor line.paidMinor
  return {
    memberId := line.memberId, memberName := line.memberName, agreedMinor := line.agreedMinor
    paidMinor := line.paidMinor, pendingMinor := line.agreedMinor - line.paidMinor, status }

structure PaymentSummary where
  status : ParticipantPaymentStatus
  agreedMinor : Int
  paidMinor : Int
  pendingMinor : Int
  hasPayments : Bool
  paymentCount : Int
  activePaymentCount : Int
  participants : List ParticipantSummary
  deriving DecidableEq, Repr

/-- The status of those something is due to. -/
def summaryStatus (participants : List ParticipantSummary) : ParticipantPaymentStatus :=
  let due := participants.filter fun p => 0 < p.agreedMinor
  if due = [] then .notDue
  else if due.all fun p => p.status = .paid then .paid
  else if due.all fun p => p.status = .unpaid then .unpaid
  else .partiallyPaid

def buildPaymentSummary (lines : List ParticipantPaymentLine) : Except Err PaymentSummary := do
  let participants ← lines.mapM buildParticipantSummary
  let agreed := (lines.map (·.agreedMinor)).sum
  let paid := (lines.map (·.paidMinor)).sum
  let paymentCount := (lines.map (·.paymentCount)).sum
  let agreedMinor ← safePaymentSum agreed
  let paidMinor ← safePaymentSum paid
  let pendingMinor ← safePaymentSum (agreed - paid)
  return {
    status := summaryStatus participants, agreedMinor, paidMinor, pendingMinor
    hasPayments := 0 < paymentCount, paymentCount
    activePaymentCount := (lines.map (·.activePaymentCount)).sum, participants }

/-- The rows as the summary takes them. -/
def paymentSummaryOf (rows : List ParticipantPaymentLine) : Except Err PaymentSummary := do
  let lines ← rows.mapM fun row => do
    let paidMinor ← safePaymentSum row.paidMinor
    return { row with paidMinor }
  buildPaymentSummary lines

def loadPaymentSummary (contextId : String) (agreementId : Uuid) : Tx finance PaymentSummary := do
  let rows ← query (.paymentLines agreementId contextId)
  Tx.ofExcept (paymentSummaryOf rows)

/-! As JSON. -/

def ParticipantSummary.value (p : ParticipantSummary) : Value :=
  .object [("memberId", .text p.memberId.text), ("memberName", .text p.memberName),
    ("agreedMinor", .num p.agreedMinor), ("paidMinor", .num p.paidMinor),
    ("pendingMinor", .num p.pendingMinor), ("status", .text p.status.text)]

def PaymentSummary.value (s : PaymentSummary) : Value :=
  .object [("status", .text s.status.text), ("agreedMinor", .num s.agreedMinor),
    ("paidMinor", .num s.paidMinor), ("pendingMinor", .num s.pendingMinor),
    ("hasPayments", .bool s.hasPayments), ("paymentCount", .num s.paymentCount),
    ("activePaymentCount", .num s.activePaymentCount),
    ("participants", .arr (s.participants.map ParticipantSummary.value))]

/-! Nobody overpaid, no such error. -/

theorem mapM_error {α β : Type} {f : α → Except Err β} {l : List α} {e : Err}
    (h : l.mapM f = .error e) : ∃ a ∈ l, f a = .error e := by
  induction l with
  | nil => cases h
  | cons a l ih =>
    rw [List.mapM_cons] at h
    rcases error_of_bind h with ha | ⟨b, hb⟩
    · exact ⟨a, List.mem_cons_self, ha⟩
    · rcases error_of_bind hb with hl | ⟨bs, hbs⟩
      · obtain ⟨a', ha', he⟩ := ih hl
        exact ⟨a', List.mem_cons_of_mem _ ha', he⟩
      · cases hbs

theorem safePaymentSum_error {n : Int} {e : Err} (h : safePaymentSum n = .error e) :
    e = unsafeSum := by
  unfold safePaymentSum at h
  split at h
  · cases h
    rfl
  · cases h

theorem safePaymentSum_ok {n m : Int} (h : safePaymentSum n = .ok m) : m = n := by
  unfold safePaymentSum at h
  split at h
  · cases h
  · cases h
    rfl

theorem participantPaymentStatus_error {agreed paid : Int} {e : Err}
    (h : participantPaymentStatus agreed paid = .error e) : agreed < paid := by
  unfold participantPaymentStatus at h
  split at h
  · assumption
  · split at h
    · cases h
    · split at h <;> cases h

/-- A summary throws the overpaid error for an overpaid participant only. -/
theorem paymentSummaryOf_error {rows : List ParticipantPaymentLine} {e : Err}
    (hpaid : ∀ row ∈ rows, row.paidMinor ≤ row.agreedMinor)
    (h : paymentSummaryOf rows = .error e) : e = unsafeSum := by
  unfold paymentSummaryOf at h
  cases hlines : rows.mapM (fun row => do
      let paidMinor ← safePaymentSum row.paidMinor
      return { row with paidMinor }) with
  | error e' =>
    rw [hlines] at h
    cases h
    obtain ⟨row, -, he⟩ := mapM_error hlines
    rcases error_of_bind he with he | ⟨n, hn⟩
    · exact safePaymentSum_error he
    · cases hn
  | ok lines =>
    rw [hlines] at h
    change buildPaymentSummary lines = .error e at h
    have hpaid' : ∀ line ∈ lines, line.paidMinor ≤ line.agreedMinor := by
      intro line hline
      have hf := mapM_ok hlines
      clear hlines h
      induction hf with
      | nil => cases hline
      | cons hab _ ih =>
        rcases List.mem_cons.mp hline with rfl | hline
        · obtain ⟨n, hn, hab⟩ := ok_of_bind hab
          cases hab
          rw [safePaymentSum_ok hn]
          exact hpaid _ List.mem_cons_self
        · exact ih (fun row hrow => hpaid row (List.mem_cons_of_mem _ hrow)) hline
    unfold buildPaymentSummary at h
    rcases error_of_bind h with h | ⟨participants, h⟩
    · obtain ⟨line, hline, he⟩ := mapM_error h
      unfold buildParticipantSummary at he
      rcases error_of_bind he with he | ⟨status, he⟩
      · exact absurd (participantPaymentStatus_error he) (not_lt.mpr (hpaid' line hline))
      · cases he
    iterate 3
      rcases error_of_bind h with h | ⟨_, h⟩
      · exact safePaymentSum_error h
    cases h

end Bazar.Finance
