import BazarApi.Finance.Inserts
import BazarApi.Finance.Paid
import BazarApi.Txn.Silent

/- What nobody changes under a lock, whatever is committed meanwhile: under a lock on its
   agreement nobody voids it (`Later.no_reversal`), under one on a payment nobody reverses it
   (`Later.no_paymentReversal`), under one on a participant nobody else pays
   (`Later.paid_le`). -/
namespace Bazar.Finance

open Txn

section
variable {host : Host} {d₀ : Db} {reqs : List Request} {i : Nat} {h h' : History finance}
variable {held : Locks Key} {r : Request}

theorem commits_quiet (hreq : reqs[i]? = some r) (h : History finance) (c : Commit finance)
    (hc : c.pid = i) (hw : c.writes = []) : Commits host d₀ reqs h c :=
  ⟨r, by rw [hc]; exact hreq, .inl hw⟩

theorem commits_effect {c : Commit finance} (hreq : reqs[i]? = some r) (hc : c.pid = i)
    (he : Effect host d₀ i h c.snap c.locks r c.writes) : Commits host d₀ reqs h c :=
  ⟨r, by rw [hc]; exact hreq, .inr (by rw [hc]; exact he)⟩

/-! What stays under a lock. -/

/-- Whoever locks a row for updating has it alone. -/
theorem not_mem_of_apart {ls ls' : Locks Key} (ha : Apart ls ls') {k : Key} {m : LockMode}
    (hk : (k, m) ∈ ls) : (k, .update) ∉ ls' := by
  intro hk'
  have hfree := ha _ hk _ hk' rfl
  rw [LockMode.conflicts_comm, LockMode.update_conflicts] at hfree
  cases hfree

/-- An agreement locked is not voided meanwhile. -/
theorem Later.no_reversal {p : DistributionAgreementReversal → Prop} {id : Uuid} {m : LockMode}
    (hl : Later (Commits host d₀ reqs) i held h h') (hk : (.agreement id, m) ∈ held)
    (hp : ∀ r, p r → r.agreementId = id)
    (h0 : ∀ r ∈ (replay (S := finance) d₀ h).agreementReversals.rows, ¬ p r) :
    ∀ r ∈ (replay (S := finance) d₀ h').agreementReversals.rows, ¬ p r := by
  refine hl.induct (S := finance) d₀ (fun d => ∀ r ∈ d.agreementReversals.rows, ¬ p r) h0 ?_
  intro h₁ c _ _ hnone _ ha _ hg
  obtain ⟨r, -, hw | he⟩ := hg
  · rw [hw]
    exact hnone
  generalize c.writes = ws at he ⊢
  cases he with
  | recorded =>
    intro r hr
    rw [(sameRecords_books _ _).agreementReversals] at hr
    exact hnone r hr
  | created hfound hu hexec _ =>
    rw [creation_apply]
    exact hnone
  | voided horiginal hactive hnew hlock =>
    intro r hr hpr
    rcases Table.mem_put.mp hr with rfl | ⟨hr, -⟩
    · have hid := hp _ hpr
      subst hid
      exact not_mem_of_apart ha hk hlock
    · exact hnone r hr hpr
  | paid hagreement hactive hparticipant hbalance hnew hlock => exact hnone
  | unpaid hpayment hactive hnew hlock => exact hnone

/-- A payment locked is not reversed meanwhile. -/
theorem Later.no_paymentReversal {id : Uuid} {m : LockMode}
    (hl : Later (Commits host d₀ reqs) i held h h') (hk : (.payment id, m) ∈ held)
    (h0 : ∀ r ∈ (replay (S := finance) d₀ h).paymentReversals.rows, r.paymentId ≠ id) :
    ∀ r ∈ (replay (S := finance) d₀ h').paymentReversals.rows, r.paymentId ≠ id := by
  refine hl.induct (S := finance) d₀ (fun d => ∀ r ∈ d.paymentReversals.rows, r.paymentId ≠ id)
    h0 ?_
  intro h₁ c _ _ hnone _ ha _ hg
  obtain ⟨r, -, hw | he⟩ := hg
  · rw [hw]
    exact hnone
  generalize c.writes = ws at he ⊢
  cases he with
  | recorded =>
    intro r hr
    rw [(sameRecords_books _ _).paymentReversals] at hr
    exact hnone r hr
  | created hfound hu hexec _ =>
    rw [creation_apply]
    exact hnone
  | voided horiginal hactive hnew hlock => exact hnone
  | paid hagreement hactive hparticipant hbalance hnew hlock => exact hnone
  | unpaid hpayment hactive hnew hlock =>
    intro r hr hid
    rcases Table.mem_put.mp hr with rfl | ⟨hr, -⟩
    · subst hid
      exact not_mem_of_apart ha hk hlock
    · exact hnone r hr hid

/-- A participant locked is paid no more meanwhile. -/
theorem Later.paid_le {agreementId memberId : Uuid} {m : LockMode}
    (hl : Later (Commits host d₀ reqs) i held h h') (h0 : Consistent host d₀)
    (hk : (.participant agreementId memberId, m) ∈ held) (contextId : String) :
    (replay (S := finance) d₀ h').paid agreementId memberId contextId ≤
      (replay (S := finance) d₀ h).paid agreementId memberId contextId := by
  refine hl.induct (S := finance) d₀ (fun d => d.paid agreementId memberId contextId ≤ _)
    (le_refl _) ?_
  intro h₁ c hlaw _ hle _ ha _ hg
  have hcons := Lawful.consistent (Lawful.left hlaw) h0
  obtain ⟨r, -, hw | he⟩ := hg
  · rw [hw]
    exact hle
  · exact (he.paid_le hcons.positive (not_mem_of_apart ha hk) contextId).trans hle

/-- Rows that were there still are. -/
theorem Later.grows (hl : Later (Commits host d₀ reqs) i held h h') :
    Grows (replay (S := finance) d₀ h) (replay (S := finance) d₀ h') :=
  Lawful.grows hl.lawful hl.pre

end

section
variable {d d' : Db} {id memberId : Uuid} {contextId : String}

theorem findAgreement_grows {a : DistributionAgreement} (hg : Grows d d')
    (h : d.findAgreement id contextId = some a) : d'.findAgreement id contextId = some a := by
  obtain ⟨hfind, hctx⟩ := Option.filter_eq_some_iff.mp h
  exact Option.filter_eq_some_iff.mpr ⟨hg.agreements _ _ hfind, hctx⟩

theorem findParticipant_grows {p : DistributionAgreementParticipant} (hg : Grows d d')
    (h : d.findParticipant id memberId contextId = some p) :
    d'.findParticipant id memberId contextId = some p := by
  obtain ⟨hfind, hctx⟩ := Option.filter_eq_some_iff.mp h
  exact Option.filter_eq_some_iff.mpr ⟨hg.participants _ _ hfind, hctx⟩

theorem findPayment_grows {p : DistributionPayment} (hg : Grows d d')
    (h : d.findPayment id contextId = some p) : d'.findPayment id contextId = some p := by
  obtain ⟨hfind, hctx⟩ := Option.filter_eq_some_iff.mp h
  exact Option.filter_eq_some_iff.mpr ⟨hg.payments _ _ hfind, hctx⟩

theorem agreementReversals_apply_ne {w : Write} (h : w.key ≠ .agreementReversal id) :
    (w.apply d).agreementReversals.find? id = d.agreementReversals.find? id := by
  cases w with
  | insertAgreementReversal r =>
    refine Table.find?_put_ne ?_
    rintro rfl
    exact h rfl
  | book w => cases w <;> rfl
  | _ => rfl

theorem payments_apply_ne {w : Write} (h : w.key ≠ .payment id) :
    (w.apply d).payments.find? id = d.payments.find? id := by
  cases w with
  | insertPayment r =>
    refine Table.find?_put_ne ?_
    rintro rfl
    exact h rfl
  | book w => cases w <;> rfl
  | _ => rfl

theorem paymentReversals_apply_ne {w : Write} (h : w.key ≠ .paymentReversal id) :
    (w.apply d).paymentReversals.find? id = d.paymentReversals.find? id := by
  cases w with
  | insertPaymentReversal r =>
    refine Table.find?_put_ne ?_
    rintro rfl
    exact h rfl
  | book w => cases w <;> rfl
  | _ => rfl

end

/-! What is read and locked. -/

section
variable {v : Db} {q : Sql} {id memberId : Uuid} {contextId : String}

/-- The only value a statement that writes nothing yields. -/
theorem silent_read (r : Db → q.Res) (hx : ∀ v, Sql.exec q v = .ok (r v, [])) :
    Silent (S := finance) q := fun v => ⟨r v, hx v⟩

/-- A statement that reads and locks nothing. -/
theorem reads_read (r : Db → q.Res) (hx : ∀ v, Sql.exec q v = .ok (r v, []))
    (hk : ∀ v, q.locks v = []) : Reads (S := finance) q := fun v => ⟨hk v, r v, hx v⟩

theorem mem_shareAgreement {a : DistributionAgreement}
    (h : v.findAgreement id contextId = some a) :
    (.agreement id, .share) ∈ (Sql.shareAgreement id contextId).locks v := by
  have hkey : a.id = id := Table.find?_key (Option.filter_eq_some_iff.mp h).1
  show _ ∈ (v.findAgreement id contextId).toList.map _
  rw [h, ← hkey]
  exact List.mem_singleton_self _

theorem mem_lockAgreement {a : DistributionAgreement}
    (h : v.findAgreement id contextId = some a) :
    (.agreement id, .update) ∈ (Sql.lockAgreement id contextId).locks v := by
  have hkey : a.id = id := Table.find?_key (Option.filter_eq_some_iff.mp h).1
  show _ ∈ (v.findAgreement id contextId).toList.map _
  rw [h, ← hkey]
  exact List.mem_singleton_self _

theorem mem_lockParticipant {p : DistributionAgreementParticipant}
    (h : v.findParticipant id memberId contextId = some p) :
    (.participant id memberId, .update) ∈ (Sql.lockParticipant id memberId contextId).locks v := by
  have hkey : (p.agreementId, p.memberId) = (id, memberId) :=
    Table.find?_key (Option.filter_eq_some_iff.mp h).1
  obtain ⟨rfl, rfl⟩ := Prod.mk.inj hkey
  show _ ∈ (v.findParticipant p.agreementId p.memberId contextId).toList.map _
  rw [h]
  exact List.mem_singleton_self _

theorem mem_lockPayment {p : DistributionPayment} (h : v.findPayment id contextId = some p) :
    (.payment id, .update) ∈ (Sql.lockPayment id contextId).locks v := by
  have hkey : p.id = id := Table.find?_key (Option.filter_eq_some_iff.mp h).1
  show _ ∈ (v.findPayment id contextId).toList.map _
  rw [h, ← hkey]
  exact List.mem_singleton_self _

/-- Nobody is overpaid in the lines of a consistent state. -/
theorem paymentLines_within {host : Host} (hc : Consistent host v) :
    ∀ row ∈ v.paymentLines id contextId, row.paidMinor ≤ row.agreedMinor := by
  intro row hrow
  unfold Db.paymentLines at hrow
  rw [(List.perm_insertionSort _ _).mem_iff] at hrow
  obtain ⟨p, hp, rfl⟩ := List.mem_map.mp hrow
  exact hc.within p (List.mem_filter.mp hp).1

theorem voided_false_iff : v.voided id contextId = false ↔
    ∀ r ∈ v.agreementReversals.rows, ¬ (r.agreementId = id ∧ r.contextId = contextId) := by
  unfold Db.voided
  rw [List.any_eq_false]
  simp only [decide_eq_true_eq]

end

end Bazar.Finance
