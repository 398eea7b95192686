import BazarApi.Finance.Requests

/- What the inserts of the services write, what they checked before, and the errors they end
   with. -/
namespace Bazar.Finance

open Txn

section
variable {v : Db}

/-! What the inserts write. -/

theorem advanceCounter_writes {contextId : String} {year : Option Int} {n : Int} {ws : List Write}
    (hx : advanceCounter contextId year v = .ok (n, ws)) :
    ∃ y, ws = [.putCounter ⟨contextId, y, n⟩] := by
  unfold advanceCounter at hx
  split at hx
  · cases hx
  · rename_i y
    split at hx
    · cases hx
    · dsimp only at hx
      split at hx
      · cases hx
        exact ⟨y, rfl⟩
      · cases hx

theorem insertAgreement_writes {row : DistributionAgreement} {u : Unit} {ws : List Write}
    (hx : insertAgreement row v = .ok (u, ws)) : ws = .insertAgreement row :: row.entries := by
  unfold insertAgreement at hx
  iterate 5
    split at hx
    · cases hx
  cases hx
  rfl

theorem insertParticipants_writes {rows : List DistributionAgreementParticipant} {u : Unit}
    {ws : List Write} (hx : insertParticipants rows v = .ok (u, ws)) :
    ws = rows.map .insertParticipant := by
  unfold insertParticipants at hx
  iterate 3
    split at hx
    · cases hx
  cases hx
  rfl

theorem insertAgreementReversal_writes {row : DistributionAgreementReversal} {u : Unit}
    {ws : List Write} (hx : insertAgreementReversal row v = .ok (u, ws)) :
    ws = [.insertAgreementReversal row, .entry (.reversedAgreement row.agreementId)] := by
  unfold insertAgreementReversal at hx
  iterate 2
    split at hx
    · cases hx
  cases hx
  rfl

theorem insertPayment_writes {row : DistributionPayment} {u : Unit} {ws : List Write}
    (hx : insertPayment row v = .ok (u, ws)) : ws = [.insertPayment row] := by
  unfold insertPayment at hx
  iterate 2
    split at hx
    · cases hx
  cases hx
  rfl

theorem insertPaymentReversal_writes {row : DistributionPaymentReversal} {u : Unit}
    {ws : List Write} (hx : insertPaymentReversal row v = .ok (u, ws)) :
    ws = [.insertPaymentReversal row, .entry (.reversedPayment row.paymentId)] := by
  unfold insertPaymentReversal at hx
  iterate 3
    split at hx
    · cases hx
  cases hx
  rfl

/-! What the inserts check. -/

theorem insertPayment_ok {row : DistributionPayment} {x : Unit × List Write}
    (h : insertPayment row v = .ok x) : v.payments.find? row.id = none := by
  unfold insertPayment at h
  split at h
  · cases h
  · split at h
    · cases h
    · rename_i hnone
      exact Option.not_isSome_iff_eq_none.mp hnone

theorem insertPaymentReversal_ok {row : DistributionPaymentReversal} {x : Unit × List Write}
    (h : insertPaymentReversal row v = .ok x) : v.paymentReversals.find? row.id = none ∧
      ∀ r ∈ v.paymentReversals.rows, r.paymentId ≠ row.paymentId := by
  unfold insertPaymentReversal at h
  split at h
  · cases h
  · split at h
    · cases h
    · rename_i hnone
      split at h
      · cases h
      · rename_i hactive
        refine ⟨Option.not_isSome_iff_eq_none.mp hnone, ?_⟩
        intro r hr hid
        exact hactive (List.any_eq_true.mpr ⟨r, hr, decide_eq_true hid⟩)

theorem insertAgreementReversal_ok {row : DistributionAgreementReversal} {x : Unit × List Write}
    (h : insertAgreementReversal row v = .ok x) : v.agreementReversals.find? row.id = none ∧
      ∀ r ∈ v.agreementReversals.rows, r.agreementId ≠ row.agreementId := by
  unfold insertAgreementReversal at h
  split at h
  · cases h
  · rename_i hnone
    split at h
    · cases h
    · rename_i hactive
      refine ⟨Option.not_isSome_iff_eq_none.mp hnone, ?_⟩
      intro r hr hid
      exact hactive (List.any_eq_true.mpr ⟨r, hr, decide_eq_true hid⟩)

/-! Errors. -/

theorem insertPayment_error {row : DistributionPayment} {e : Err}
    (h : insertPayment row v = .error e) : e ≠ overpaid := by
  unfold insertPayment at h
  split at h
  · cases h
    intro he
    cases he
  · split at h
    · cases h
      intro he
      cases he
    · cases h

theorem insertPaymentReversal_error {row : DistributionPaymentReversal} {e : Err}
    (h : insertPaymentReversal row v = .error e) : e ≠ overpaid := by
  unfold insertPaymentReversal at h
  split at h
  · cases h
    intro he
    cases he
  · split at h
    · cases h
      intro he
      cases he
    · split at h
      · cases h
        intro he
        cases he
      · cases h

theorem insertAgreementReversal_error {row : DistributionAgreementReversal} {e : Err}
    (h : insertAgreementReversal row v = .error e) : e ≠ overpaid := by
  unfold insertAgreementReversal at h
  split at h
  · cases h
    intro he
    cases he
  · split at h
    · cases h
      intro he
      cases he
    · cases h

end

end Bazar.Finance
