import BazarApi.Finance.Creations

/- Payments over whole runs. Nobody is paid more than was agreed, whichever payments,
   reversals and voids run together, so no summary and no request meets the overpaid error; a
   payment is reversed once at most and commits only while its agreement stands; and an
   operation that is sent again writes nothing (`Effect.fresh`). -/
namespace Bazar.Finance

open Txn

/-- Each payment has one reversal at most. -/
def ReversedOnce (d : Db) : Prop :=
  ∀ r ∈ d.paymentReversals.rows, ∀ r' ∈ d.paymentReversals.rows, r.paymentId = r'.paymentId → r = r'

/-- The operation of the request has its row, or it has none to record. -/
def Request.Recorded (d : Db) : Request → Prop
  | .createAgreement _ _ dto => (d.agreements.find? (uuid dto.id)).isSome
  | .reverseAgreement _ _ _ dto => (d.agreementReversals.find? (uuid dto.id)).isSome
  | .createPayment _ _ _ dto => (d.payments.find? (uuid dto.id)).isSome
  | .reversePayment _ _ _ dto => (d.paymentReversals.find? (uuid dto.id)).isSome
  | .findAgreement _ _ => True
  | .findPayment _ _ => True
  | .listPayments _ _ => True
  | .record _ => False

section
variable {host : Host} {d₀ : Db} {reqs : List Request} {h : History finance}
variable {i : Nat} {snap : Nat} {locks : Locks Key} {r : Request} {ws : List Write}

theorem not_isSome_of_none {α : Type} {o : Option α} (h : o = none) : ¬ o.isSome = true := by
  rw [h]
  exact Bool.false_ne_true

/-- Whoever writes anything records what was not recorded. -/
theorem Effect.fresh (he : Effect host d₀ i h snap locks r ws) :
    ¬ r.Recorded (replay (S := finance) d₀ h) := by
  cases he with
  | recorded => exact id
  | created hfound hu hexec _ =>
    have hnew := hfound.still_new hu
    obtain ⟨_, _, _, _, rfl⟩ := hfound.input
    exact not_isSome_of_none hnew
  | voided horiginal hactive hnew hlock => exact not_isSome_of_none hnew
  | paid hagreement hactive hparticipant hbalance hnew hlock => exact not_isSome_of_none hnew
  | unpaid hpayment hactive hnew hlock => exact not_isSome_of_none hnew

/-- A payment commits on an agreement of its context that stands. -/
theorem Effect.paid_standing {row : DistributionPayment} (he : Effect host d₀ i h snap locks r ws)
    (hrow : Write.insertPayment row ∈ ws) :
    (∃ agreement, (replay (S := finance) d₀ h).findAgreement row.agreementId row.contextId =
        some agreement) ∧
      (replay (S := finance) d₀ h).voided row.agreementId row.contextId = false := by
  cases he with
  | recorded =>
    obtain ⟨w, -, hw⟩ := List.mem_map.mp hrow
    cases hw
  | created hfound hu hexec _ =>
    unfold creationWrites DistributionAgreement.entries at hrow
    simp at hrow
  | voided horiginal hactive hnew hlock => simp at hrow
  | unpaid hpayment hactive hnew hlock => simp at hrow
  | @paid env actor agreementId dto memberName currency agreement participant hagreement hactive
      hparticipant hbalance hnew hlock =>
    obtain rfl := Write.insertPayment.inj (List.mem_singleton.mp hrow)
    exact ⟨⟨agreement, hagreement⟩, hactive⟩

theorem Lawful.reversed_once (hl : Lawful (Commits host d₀ reqs) h) (h0 : ReversedOnce d₀) :
    ReversedOnce (replay (S := finance) d₀ h) := by
  refine hl.induct (S := finance) d₀ ReversedOnce h0 ?_
  intro h₁ c _ hd _ hg
  obtain ⟨r, -, hw | he⟩ := hg
  · rw [hw]
    exact hd
  generalize c.writes = ws at he ⊢
  cases he with
  | recorded =>
    unfold ReversedOnce
    rw [(sameRecords_books _ _).paymentReversals]
    exact hd
  | created hfound hu hexec _ =>
    rw [creation_apply]
    exact hd
  | voided horiginal hactive hnew hlock => exact hd
  | paid hagreement hactive hparticipant hbalance hnew hlock => exact hd
  | unpaid hpayment hactive hnew hlock =>
    intro r hr r' hr' hsame
    rcases Table.mem_put.mp hr with rfl | ⟨hr, -⟩
    · rcases Table.mem_put.mp hr' with rfl | ⟨hr', -⟩
      · rfl
      · exact absurd hsame.symm (hactive r' hr')
    · rcases Table.mem_put.mp hr' with rfl | ⟨hr', -⟩
      · exact absurd hsame (hactive r hr)
      · exact hd r hr r' hr' hsame

end

/-- In every state of every run: no participant has been paid more than was agreed, and no
summary of an agreement ends in the overpaid error; no request but a creation is answered with
it; each payment is reversed once at most; a payment commits only on an agreement of its
context that nobody has voided; and a request whose operation is recorded writes nothing. -/
theorem payments_within_agreed (host : Host) (d₀ : Db) (reqs : List Request)
    (s : Sys finance Answer) (h0 : Consistent host d₀) (hr₀ : ReversedOnce d₀)
    (hr : Reachable host d₀ reqs s) :
    (∀ p ∈ (replay (S := finance) d₀ s.hist).participants.rows,
      (replay (S := finance) d₀ s.hist).paid p.agreementId p.memberId p.contextId ≤ p.totalMinor) ∧
    (∀ agreementId contextId e, paymentSummaryOf
      ((replay (S := finance) d₀ s.hist).paymentLines agreementId contextId) = .error e →
        e ≠ overpaid) ∧
    (∀ i r e, reqs[i]? = some r → s.Answered i (.error e) →
      (∀ env actor dto, r ≠ .createAgreement env actor dto) → e ≠ overpaid) ∧
    ReversedOnce (replay (S := finance) d₀ s.hist) ∧
    ∀ h₁ c h₂, s.hist = h₁ ++ .commit c :: h₂ →
      (∀ row, Write.insertPayment row ∈ c.writes →
        (∃ agreement, (replay (S := finance) d₀ h₁).findAgreement row.agreementId row.contextId =
          some agreement) ∧
        (replay (S := finance) d₀ h₁).voided row.agreementId row.contextId = false) ∧
      ∀ r, reqs[c.pid]? = some r → r.Recorded (replay (S := finance) d₀ h₁) → c.writes = [] := by
  have hok := hr.ok h0
  have hcons := Lawful.consistent hok.lawful h0
  refine ⟨hcons.within, ?_, ?_, Lawful.reversed_once hok.lawful hr₀, ?_⟩
  · intro agreementId contextId e he
    rw [paymentSummaryOf_error (paymentLines_within hcons) he]
    intro h
    cases h
  · intro i r e hreq ha hnot
    rcases hok.answered ha r hreq with he | ⟨env, actor, dto, he⟩
    · exact he
    · exact absurd he (hnot env actor dto)
  · intro h₁ c h₂ he
    obtain ⟨-, r, hreq, hw | heffect⟩ := hok.lawful h₁ c h₂ he
    · rw [hw]
      exact ⟨fun _ hrow => absurd hrow List.not_mem_nil, fun _ _ _ => rfl⟩
    · refine ⟨fun row hrow => heffect.paid_standing hrow, ?_⟩
      intro r' hr' hrecorded
      cases hreq.symm.trans hr'
      exact absurd hrecorded heffect.fresh

/-! Two payments at once, one of them reversed and sent again, for a concrete run. -/

namespace Demo

def payment (id : String) (amountMinor : Int)
    (h : 1 ≤ amountMinor ∧ amountMinor ≤ maxMinorUnits) : CreateDistributionPaymentDto :=
  { id, participantMemberId := "b", amountMinor, occurredAt := 1790000000000, note := none
    createdByMemberId := "a", deviceId := "caja", amount_range := h }

def unpay (id : String) : ReverseDistributionPaymentDto :=
  { id, reason := "r", occurredAt := 1790000000000, createdByMemberId := "a", deviceId := "caja" }

theorem thirty_range : (1 : Int) ≤ 30 ∧ (30 : Int) ≤ maxMinorUnits := by decide

def paying : List Request :=
  [.createAgreement today actor (creation "n" none),
    .createPayment today actor "n" (payment "p" 30 thirty_range),
    .createPayment today actor "n" (payment "q" 30 thirty_range),
    .reversePayment today actor "p" (unpay "u"),
    .createPayment today actor "n" (payment "p" 30 thirty_range)]

def payingSteps : List Nat :=
  List.replicate 19 0 ++ List.replicate 9 2 ++ List.replicate 14 1 ++ List.replicate 3 2 ++
    List.replicate 14 3 ++ List.replicate 8 4

theorem reversedOnce : ReversedOnce office := fun _ hr => absurd hr List.not_mem_nil

end Demo

/-- The second payment, begun first, finds too little left. -/
theorem payments_within_agreed_paying :
    (Demo.run Demo.office Demo.paying Demo.payingSteps).answer? 2 =
        some (.error (exceedsPending 40 30)) ∧
      ∀ p ∈ (replay (S := finance) Demo.office
          (Demo.run Demo.office Demo.paying Demo.payingSteps).hist).participants.rows,
        (replay (S := finance) Demo.office (Demo.run Demo.office Demo.paying Demo.payingSteps).hist).paid
          p.agreementId p.memberId p.contextId ≤ p.totalMinor :=
  ⟨rfl, (payments_within_agreed Demo.host Demo.office Demo.paying _ Demo.consistent
    Demo.reversedOnce (Demo.reachable (by decide))).1⟩

end Bazar.Finance
