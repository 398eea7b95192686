import BazarApi.Finance.Growth

/- What has been paid to a participant. A payment raises it by its amount, a reversal lowers
   it, and nothing else moves it (`Effect.paid_le`). So the check that a payment makes under
   the participant's lock keeps everybody within what was agreed (`Effect.consistent`). -/
namespace Bazar.Finance

open Txn

/-! The sum. -/

/-- What a payment counts for a participant. -/
def Db.counted (d : Db) (agreementId memberId : Uuid) (contextId : String)
    (p : DistributionPayment) : Int :=
  if (p.agreementId = agreementId ∧ p.participantMemberId = memberId ∧ p.contextId = contextId) ∧
      (d.reversalOfPayment p).isNone then p.amountMinor
  else 0

theorem sum_filter (l : List DistributionPayment) (p q : DistributionPayment → Bool) :
    (((l.filter p).filter q).map (·.amountMinor)).sum =
      (l.map fun x => if p x = true ∧ q x = true then x.amountMinor else 0).sum := by
  induction l with
  | nil => rfl
  | cons x l ih =>
    rw [List.map_cons, List.sum_cons, ← ih, List.filter_cons]
    by_cases hp : p x = true
    · rw [if_pos hp, List.filter_cons]
      by_cases hq : q x = true
      · rw [if_pos hq, if_pos ⟨hp, hq⟩, List.map_cons, List.sum_cons]
      · rw [if_neg hq, if_neg fun h => hq h.2, zero_add]
    · rw [if_neg hp, if_neg fun h => hp h.1, zero_add]

section
variable {d d' : Db} {agreementId memberId : Uuid} {contextId : String}

theorem paid_eq_total : d.paid agreementId memberId contextId =
    d.payments.total (d.counted agreementId memberId contextId) := by
  unfold Db.paid Db.activePayments Db.paymentsOf Table.total Db.counted
  rw [sum_filter]
  simp only [decide_eq_true_eq]

theorem SameRecords.paid_eq (h : SameRecords d d') :
    d'.paid agreementId memberId contextId = d.paid agreementId memberId contextId := by
  unfold Db.paid Db.activePayments Db.paymentsOf Db.reversalOfPayment
  rw [h.payments, h.paymentReversals]

theorem paid_insertPayment {row : DistributionPayment}
    (hnew : d.payments.find? row.id = none) :
    ((Write.insertPayment row).apply d).paid agreementId memberId contextId =
      d.paid agreementId memberId contextId + d.counted agreementId memberId contextId row := by
  rw [paid_eq_total, paid_eq_total]
  exact Table.total_put_new _ hnew

/-- A reversal that is new hides no other. -/
theorem reversalOfPayment_insert {row : DistributionPaymentReversal} {p : DistributionPayment}
    (hnew : d.paymentReversals.find? row.id = none)
    (h : (((Write.insertPaymentReversal row).apply d).reversalOfPayment p).isNone = true) :
    (d.reversalOfPayment p).isNone = true := by
  unfold Db.reversalOfPayment at h ⊢
  rw [Option.isNone_iff_eq_none, List.find?_eq_none] at h ⊢
  intro r hr
  exact h r (Table.mem_of_find? (Table.grows_put hnew _ _ (Table.find?_of_mem hr)))

theorem paid_insertPaymentReversal {row : DistributionPaymentReversal}
    (hpos : ∀ p ∈ d.payments.rows, 0 < p.amountMinor)
    (hnew : d.paymentReversals.find? row.id = none) :
    ((Write.insertPaymentReversal row).apply d).paid agreementId memberId contextId ≤
      d.paid agreementId memberId contextId := by
  rw [paid_eq_total, paid_eq_total]
  refine List.sum_le_sum ?_
  intro p hp
  unfold Db.counted
  by_cases hafter : (p.agreementId = agreementId ∧ p.participantMemberId = memberId ∧
      p.contextId = contextId) ∧
      (((Write.insertPaymentReversal row).apply d).reversalOfPayment p).isNone = true
  · rw [if_pos hafter, if_pos ⟨hafter.1, reversalOfPayment_insert hnew hafter.2⟩]
  · rw [if_neg hafter]
    split
    · exact (hpos p hp).le
    · exact le_refl _

end

/-! What every run keeps. -/

/-- The checks and foreign keys of the tables, every agreement with the document it was
created with, and nobody paid more than was agreed. -/
structure Consistent (host : Host) (d : Db) : Prop where
  positive : ∀ p ∈ d.payments.rows, 0 < p.amountMinor
  known : ∀ p ∈ d.payments.rows, (d.agreements.find? p.agreementId).isSome = true
  recorded : ∀ a ∈ d.agreements.rows, ∃ x, a.creationResponse = buildAgreementDocument host x
  within : ∀ p ∈ d.participants.rows, d.paid p.agreementId p.memberId p.contextId ≤ p.totalMinor

section
variable {host : Host} {d₀ : Db} {reqs : List Request} {h h' : History finance}
variable {i : Nat} {snap : Nat} {locks : Locks Key} {r : Request} {ws : List Write}

/-- Without the participant's lock nobody is paid. -/
theorem Effect.paid_le (he : Effect host d₀ i h snap locks r ws)
    (hpos : ∀ p ∈ (replay (S := finance) d₀ h).payments.rows, 0 < p.amountMinor)
    {agreementId memberId : Uuid} (hfree : (.participant agreementId memberId, .update) ∉ locks)
    (contextId : String) :
    (applyAll (S := finance) (replay (S := finance) d₀ h) ws).paid agreementId memberId contextId ≤
      (replay (S := finance) d₀ h).paid agreementId memberId contextId := by
  cases he with
  | recorded => exact (sameRecords_books _ _).paid_eq.le
  | created hfound hu hexec _ =>
    rw [creation_apply]
    exact le_refl _
  | voided horiginal hactive hnew hlock => exact le_refl _
  | paid hagreement hactive hparticipant hbalance hnew hlock =>
    refine (paid_insertPayment hnew).le.trans ?_
    unfold Db.counted
    rw [if_neg, add_zero]
    rintro ⟨⟨ha, hm, -⟩, -⟩
    subst ha hm
    exact hfree hlock
  | unpaid hpayment hactive hnew hlock => exact paid_insertPaymentReversal hpos hnew

theorem mem_putAll {t : Table DistributionAgreementParticipant}
    {rows : List DistributionAgreementParticipant} (hn : (rows.map Keyed.key).Nodup)
    (h : ∀ r ∈ rows, t.find? (Keyed.key r) = none) {p : DistributionAgreementParticipant}
    (hp : p ∈ (t.putAll rows).rows) : p ∈ t.rows ∨ p ∈ rows := by
  rw [Table.putAll_rows hn h] at hp
  exact List.mem_append.mp hp

/-- Nobody was paid on an agreement that is new. -/
theorem paid_new {d : Db} (hc : Consistent host d) {agreementId : Uuid}
    (hnew : d.agreements.find? agreementId = none) (memberId : Uuid) (contextId : String) :
    d.paid agreementId memberId contextId = 0 := by
  have hnone : d.paymentsOf agreementId memberId contextId = [] := by
    refine List.filter_eq_nil_iff.mpr ?_
    intro p hp hmine
    have hknown := hc.known p hp
    rw [(of_decide_eq_true hmine).1, hnew] at hknown
    cases hknown
  unfold Db.paid Db.activePayments
  rw [hnone]
  rfl

theorem Effect.known (he : Effect host d₀ i h snap locks r ws)
    (hc : Consistent host (replay (S := finance) d₀ h)) :
    ∀ p ∈ (applyAll (S := finance) (replay (S := finance) d₀ h) ws).payments.rows,
      0 < p.amountMinor ∧ ((applyAll (S := finance) (replay (S := finance) d₀ h)
        ws).agreements.find? p.agreementId).isSome = true := by
  have hgrows := he.grows.agreements
  have hold : ∀ p ∈ (replay (S := finance) d₀ h).payments.rows, 0 < p.amountMinor ∧
      ((applyAll (S := finance) (replay (S := finance) d₀ h)
        ws).agreements.find? p.agreementId).isSome = true := by
    intro p hp
    obtain ⟨a, ha⟩ := Option.isSome_iff_exists.mp (hc.known p hp)
    exact ⟨hc.positive p hp, Option.isSome_iff_exists.mpr ⟨a, hgrows _ a ha⟩⟩
  cases he with
  | recorded =>
    intro p hp
    rw [(sameRecords_books _ _).payments] at hp
    exact hold p hp
  | created hfound hu hexec _ =>
    intro p hp
    rw [creation_apply] at hp
    exact hold p hp
  | voided horiginal hactive hnew hlock => exact hold
  | unpaid hpayment hactive hnew hlock => exact hold
  | @paid env actor agreementId dto memberName currency agreement participant hagreement hactive
      hparticipant hbalance hnew hlock =>
    intro p hp
    rcases Table.mem_put.mp hp with rfl | ⟨hp, -⟩
    · exact ⟨lt_of_lt_of_le Int.zero_lt_one dto.amount_range.1,
        Option.isSome_iff_exists.mpr ⟨agreement, (Option.filter_eq_some_iff.mp hagreement).1⟩⟩
    · exact hold p hp

theorem Effect.recorded_documents (he : Effect host d₀ i h snap locks r ws)
    (hc : Consistent host (replay (S := finance) d₀ h)) :
    ∀ a ∈ (applyAll (S := finance) (replay (S := finance) d₀ h) ws).agreements.rows,
      ∃ x, a.creationResponse = buildAgreementDocument host x := by
  cases he with
  | recorded =>
    intro a ha
    rw [(sameRecords_books _ _).agreements] at ha
    exact hc.recorded a ha
  | @created env actor dto x year number g hfound hu hexec _ =>
    intro a ha
    rw [creation_apply] at ha
    rcases Table.mem_put.mp ha with rfl | ⟨ha, -⟩
    · exact ⟨x, rfl⟩
    · exact hc.recorded a ha
  | voided horiginal hactive hnew hlock => exact hc.recorded
  | paid hagreement hactive hparticipant hbalance hnew hlock => exact hc.recorded
  | unpaid hpayment hactive hnew hlock => exact hc.recorded

theorem Effect.within (he : Effect host d₀ i h snap locks r ws)
    (hc : Consistent host (replay (S := finance) d₀ h)) :
    ∀ p ∈ (applyAll (S := finance) (replay (S := finance) d₀ h) ws).participants.rows,
      (applyAll (S := finance) (replay (S := finance) d₀ h) ws).paid p.agreementId p.memberId
        p.contextId ≤ p.totalMinor := by
  cases he with
  | recorded =>
    intro p hp
    rw [(sameRecords_books _ _).participants] at hp
    exact (sameRecords_books _ _).paid_eq.le.trans (hc.within p hp)
  | @created env actor dto x year number g hfound hu hexec _ =>
    rw [creation_apply]
    intro p hp
    rcases mem_putAll hfound.rows_nodup (hfound.still_without hu) hp with hp | hp
    · exact hc.within p hp
    · obtain ⟨m, hm, rfl⟩ := List.mem_map.mp hp
      have hchecks := of_decide_eq_true (hfound.participants m hm).1
      exact (paid_new hc (hfound.still_new hu) _ _).le.trans hchecks.2.2.2.2.2.2.1
  | voided horiginal hactive hnew hlock => exact hc.within
  | @paid env actor agreementId dto memberName currency agreement participant hagreement hactive
      hparticipant hbalance hnew hlock =>
    intro p hp
    refine (paid_insertPayment hnew).le.trans ?_
    unfold Db.counted
    split
    · rename_i hmine
      obtain ⟨⟨ha, hm, hx⟩, -⟩ := hmine
      obtain ⟨hfind, -⟩ := Option.filter_eq_some_iff.mp hparticipant
      -- the row of the participant is the one the balance was compared with
      have hrow : p = participant := by
        refine Table.eq_of_key hp (Table.mem_of_find? hfind) ?_
        rw [Table.find?_key hfind]
        exact Prod.ext ha.symm hm.symm
      subst hrow
      rw [← ha, ← hm, ← hx]
      exact hbalance
    · rw [add_zero]
      exact hc.within p hp
  | unpaid hpayment hactive hnew hlock =>
    intro p hp
    exact (paid_insertPaymentReversal hc.positive hnew).trans (hc.within p hp)

theorem Effect.consistent (he : Effect host d₀ i h snap locks r ws)
    (hc : Consistent host (replay (S := finance) d₀ h)) :
    Consistent host (applyAll (S := finance) (replay (S := finance) d₀ h) ws) where
  positive := fun p hp => (he.known hc p hp).1
  known := fun p hp => (he.known hc p hp).2
  recorded := he.recorded_documents hc
  within := he.within hc

theorem Lawful.consistent (hl : Lawful (Commits host d₀ reqs) h) (h0 : Consistent host d₀) :
    Consistent host (replay (S := finance) d₀ h) := by
  refine hl.induct (S := finance) d₀ (Consistent host) h0 ?_
  intro h₁ c _ hc _ hg
  obtain ⟨r, -, hw | he⟩ := hg
  · rw [hw]
    exact hc
  · exact he.consistent hc

end

end Bazar.Finance
