import BazarApi.Finance.Locked

/- Payments, their reversals and the voids of agreements keep the guarantee of their commits
   (`payNew_safe`, `unpayNew_safe`, `reverseNew_safe`), whatever is committed in between. None
   of them, nor any reading, ends with the error of an overpaid participant: the summary it
   shows is that of a consistent state, its own writes included. -/
namespace Bazar.Finance

open Txn

section
variable {host : Host} {d₀ : Db} {reqs : List Request} {i : Nat} {h : History finance}
variable {α β : Type} {t : Open finance} {actor : Actor}

/-- The errors of a request: not that of an overpaid participant. -/
abbrev NotOverpaid : Err → History finance → Prop := fun e _ => e ≠ overpaid

/-- A part that goes on for any answer. -/
abbrev Anything : α → History finance → Prop := fun _ _ => True

theorem throw_safe {Q : β → History finance → Prop} {e : Err} (he : e ≠ overpaid) :
    (Tx.throw e : Tx finance β).Safe d₀ (Commits host d₀ reqs) i Q NotOverpaid t h :=
  fun _ _ => he

theorem authorize_safe {Q : β → History finance → Prop} {s : Selection}
    {f : String → Tx finance β} (hc : t.Clean)
    (hs : ∀ name h' t', t'.Clean → Lawful (Commits host d₀ reqs) h' →
      (f name).Safe d₀ (Commits host d₀ reqs) i Q NotOverpaid t' h') :
    (authorize actor s >>= f).Safe d₀ (Commits host d₀ reqs) i Q NotOverpaid t h := by
  unfold authorize
  simp only [Tx.bind_assoc]
  refine Tx.Safe.silent hc (silent_read _ fun _ => rfl) ?_
  intro h₁ t₁ account c₁ _ _ _
  refine Tx.Safe.silent c₁ (silent_read _ fun _ => rfl) ?_
  intro h₂ t₂ member c₂ _ _ _
  refine Tx.Safe.silent c₂ (silent_read _ fun _ => rfl) ?_
  intro h₃ t₃ device c₃ l₃ _ _
  refine Tx.Safe.require (fun _ => ?_) fun _ => throw_safe nofun
  exact Tx.Safe.orThrow (fun name _ => hs name h₃ t₃ c₃ l₃.lawful) fun _ => throw_safe nofun

/-- A summary is that of what the transaction sees, where nobody is overpaid. -/
theorem loadPaymentSummary_safe {Q : β → History finance → Prop} {contextId : String}
    {agreementId : Uuid} {f : PaymentSummary → Tx finance β} (ht : t.iso = .readCommitted)
    (hview : ∀ h', Later (Commits host d₀ reqs) i t.held h h' →
      Consistent host (applyAll (S := finance) (replay (S := finance) d₀ h') t.pending))
    (hs : ∀ h' summary, Later (Commits host d₀ reqs) i t.held h h' →
      (f summary).Safe d₀ (Commits host d₀ reqs) i Q NotOverpaid t h') :
    (loadPaymentSummary contextId agreementId >>= f).Safe d₀ (Commits host d₀ reqs) i Q
      NotOverpaid t h := by
  unfold loadPaymentSummary
  simp only [Tx.bind_assoc]
  refine Tx.Safe.reread ht (reads_read _ (fun _ => rfl) fun _ => rfl) ?_
  intro h₁ rows l₁ hx
  cases hx
  refine Tx.Safe.ofExcept (fun summary _ => hs h₁ summary l₁) fun e he => throw_safe ?_
  rw [paymentSummaryOf_error (paymentLines_within (hview h₁ l₁)) he]
  nofun

/-- A receipt of what is there already. -/
theorem paymentReceipt_safe {Q : β → History finance → Prop} {row : LivePayment}
    {f : PaymentReceipt → Tx finance β} (ht : t.iso = .readCommitted)
    (hview : ∀ h', Later (Commits host d₀ reqs) i t.held h h' →
      Consistent host (applyAll (S := finance) (replay (S := finance) d₀ h') t.pending))
    (hs : ∀ h' receipt, Later (Commits host d₀ reqs) i t.held h h' →
      (f receipt).Safe d₀ (Commits host d₀ reqs) i Q NotOverpaid t h') :
    (paymentReceipt row >>= f).Safe d₀ (Commits host d₀ reqs) i Q NotOverpaid t h := by
  unfold paymentReceipt
  simp only [Tx.bind_assoc]
  exact loadPaymentSummary_safe ht hview fun h' _ l' => hs h' _ l'

/-- What a transaction that has written nothing sees. -/
theorem clean_consistent (ht : t.Clean) {h' : History finance} (h0 : Consistent host d₀)
    (hl : Lawful (Commits host d₀ reqs) h') :
    Consistent host (applyAll (S := finance) (replay (S := finance) d₀ h') t.pending) := by
  rw [ht.pending]
  exact Lawful.consistent hl h0

theorem quiet_commit {r : Request} {b : β} (hreq : reqs[i]? = some r) (hc : t.Clean) :
    (Tx.ret b : Tx finance β).Safe d₀ (Commits host d₀ reqs) i Anything NotOverpaid t h :=
  fun h' _ => ⟨commits_quiet hreq h' _ rfl hc.pending, trivial⟩

/-! Payments. -/

/-- A payment is recorded under its locks, and then its receipt is made. -/
theorem createPayment_safe {env : Env} {agreementId : String} {dto : CreateDistributionPaymentDto}
    {memberName currency : String} {agreement : DistributionAgreement}
    {participant : DistributionAgreementParticipant} {f : PaymentSummary → Bool × PaymentReceipt}
    (hreq : reqs[i]? = some (.createPayment env actor agreementId dto))
    (h0 : Consistent host d₀) (hc : t.Clean)
    (hagreement : (replay (S := finance) d₀ h).findAgreement (uuid agreementId)
      actor.account.contextId = some agreement)
    (hactive : (replay (S := finance) d₀ h).voided (uuid agreementId) actor.account.contextId = false)
    (hparticipant : (replay (S := finance) d₀ h).findParticipant (uuid agreementId)
      (uuid dto.participantMemberId) actor.account.contextId = some participant)
    (hbalance : (replay (S := finance) d₀ h).paid (uuid agreementId) (uuid dto.participantMemberId)
      actor.account.contextId + dto.amountMinor ≤ participant.totalMinor)
    (hshare : (.agreement (uuid agreementId), .share) ∈ t.held)
    (hlock : (.participant (uuid agreementId) (uuid dto.participantMemberId), .update) ∈ t.held) :
    (query (.createPayment ((paymentCore host env actor (uuid agreementId) dto memberName
        participant.memberName currency).row
          (paymentFingerprint host actor (uuid agreementId) dto))) >>= fun _ =>
      loadPaymentSummary actor.account.contextId (uuid agreementId) >>= fun summary =>
      .ret (f summary)).Safe d₀ (Commits host d₀ reqs) i Anything NotOverpaid t h := by
  refine Tx.Safe.writes hc (fun e _ _ hx => insertPayment_error hx) ?_
  intro h₁ t₁ u ws l₁ hx hiso hpending hlocked hheld
  obtain rfl := insertPayment_writes hx
  have hnew := insertPayment_ok hx
  -- whatever is committed from here on, the commit is that of a payment
  have hpaid : ∀ h', Later (Commits host d₀ reqs) i t₁.held h₁ h' →
      Effect host d₀ i h' t₁.snap.length t₁.held (.createPayment env actor agreementId dto) t₁.pending := by
    intro h' l'
    have hl := l₁.trans (l'.weaken hheld)
    rw [hpending]
    refine .paid (findAgreement_grows (Later.grows hl) hagreement) ?_
      (findParticipant_grows (Later.grows hl) hparticipant) ?_ ?_ (hheld hlock)
    · exact voided_false_iff.mpr (Later.no_reversal hl hshare (fun _ hr => hr.1)
        (voided_false_iff.mp hactive))
    · have hle := Later.paid_le hl h0 hlock actor.account.contextId
      omega
    · exact (hlocked.read_eq (S := finance) hpending l' d₀
        (fun d => d.payments.find? (uuid dto.id))
        (fun _ _ hne => payments_apply_ne hne)).trans hnew
  refine loadPaymentSummary_safe hiso ?_ ?_
  · intro h' l'
    exact (hpaid h' l').consistent (Lawful.consistent l'.lawful h0)
  · intro h₂ summary l₂ h₃ e₃
    exact ⟨commits_effect hreq rfl (hpaid h₃ (l₂.trans e₃.later)), trivial⟩

/-- A payment whose id is new. -/
theorem payNew_safe {env : Env} {agreementId : String} {dto : CreateDistributionPaymentDto}
    {memberName : String} (hreq : reqs[i]? = some (.createPayment env actor agreementId dto))
    (h0 : Consistent host d₀) (hc : t.Clean) :
    (payNew host env actor (uuid agreementId) dto memberName).Safe d₀ (Commits host d₀ reqs) i
      Anything NotOverpaid t h := by
  unfold payNew
  refine Tx.Safe.silent hc (silent_read _ fun _ => rfl) ?_
  intro h₁ t₁ found c₁ l₁ hx₁ hheld₁
  refine Tx.Safe.orThrow (fun agreement hsome => ?_) fun _ => throw_safe nofun
  cases hx₁
  obtain ⟨row, hrow, rfl⟩ := Option.map_eq_some_iff.mp hsome
  have hshare : (.agreement (uuid agreementId), .share) ∈ t₁.held := by
    rw [hheld₁]
    exact List.mem_append_right _ (mem_shareAgreement hrow)
  refine Tx.Safe.silent c₁ (silent_read _ fun _ => rfl) ?_
  intro h₂ t₂ voided c₂ l₂ hx₂ hheld₂
  refine Tx.Safe.require (fun hactive => ?_) fun _ => throw_safe nofun
  cases hx₂
  have hshare₂ : (.agreement (uuid agreementId), .share) ∈ t₂.held := by
    rw [hheld₂]
    exact List.mem_append_left _ hshare
  refine Tx.Safe.silent c₂ (silent_read _ fun _ => rfl) ?_
  intro h₃ t₃ found₃ c₃ l₃ hx₃ hheld₃
  refine Tx.Safe.orThrow (fun participant hparticipant => ?_) fun _ => throw_safe nofun
  cases hx₃
  refine Tx.Safe.require (fun _ => ?_) fun _ => throw_safe nofun
  refine Tx.Safe.silent c₃ (silent_read _ fun _ => rfl) ?_
  intro h₄ t₄ _ c₄ l₄ _ hheld₄
  have hparticipant₄ := findParticipant_grows (Later.grows l₄) hparticipant
  have hlock : (.participant (uuid agreementId) (uuid dto.participantMemberId), .update) ∈
      t₄.held := by
    rw [hheld₄]
    exact List.mem_append_right _ (mem_lockParticipant hparticipant₄)
  refine Tx.Safe.require (fun _ => ?_) fun _ => throw_safe nofun
  refine Tx.Safe.silent c₄ (silent_read _ fun _ => rfl) ?_
  intro h₅ t₅ paid c₅ l₅ hx₅ hheld₅
  refine Tx.Safe.require (fun hbalance => ?_) fun _ => throw_safe nofun
  cases hx₅
  have hsub₃ : t₂.held ⊆ t₃.held := by
    rw [hheld₃]
    exact List.subset_append_left _ _
  have hsub₄ : t₃.held ⊆ t₄.held := by
    rw [hheld₄]
    exact List.subset_append_left _ _
  have hsub₅ : t₄.held ⊆ t₅.held := by
    rw [hheld₅]
    exact List.subset_append_left _ _
  -- since the agreement was found not voided
  have hl : Later (Commits host d₀ reqs) i t₂.held h₂ h₅ :=
    (l₃.trans (l₄.weaken hsub₃)).trans (l₅.weaken fun _ hx => hsub₄ (hsub₃ hx))
  refine createPayment_safe hreq h0 c₅
    (findAgreement_grows (Later.grows (l₂.trans (hl.weaken ?_))) hrow) ?_
    (findParticipant_grows (Later.grows l₅) hparticipant₄) ?_ (hsub₅ (hsub₄ (hsub₃ hshare₂)))
    (hsub₅ hlock)
  · rw [hheld₂]
    exact List.subset_append_left _ _
  · exact voided_false_iff.mpr (Later.no_reversal hl hshare₂ (fun _ hr => hr.1)
      (voided_false_iff.mp hactive))
  · exact hbalance

theorem createPaymentInTx_safe {env : Env} {agreementId : String}
    {dto : CreateDistributionPaymentDto} {s : Selection}
    (hreq : reqs[i]? = some (.createPayment env actor agreementId dto))
    (h0 : Consistent host d₀) (hc : t.Clean) :
    (createPaymentInTx host env actor s (uuid agreementId) dto).Safe d₀ (Commits host d₀ reqs) i
      Anything NotOverpaid t h := by
  unfold createPaymentInTx
  refine authorize_safe hc ?_
  intro memberName h₁ t₁ c₁ _
  refine Tx.Safe.silent c₁ (silent_read _ fun _ => rfl) ?_
  intro h₂ t₂ _ c₂ _ _ _
  refine Tx.Safe.silent c₂ (silent_read _ fun _ => rfl) ?_
  intro h₃ t₃ existing c₃ _ _ _
  cases existing with
  | none => exact payNew_safe hreq h0 c₃
  | some existing =>
    refine Tx.Safe.require (fun _ => ?_) fun _ => throw_safe nofun
    refine paymentReceipt_safe c₃.iso (fun h' l' => ?_) fun h' _ _ => quiet_commit hreq c₃
    exact clean_consistent c₃ h0 l'.lawful

/-! Reversals. -/

/-- A reversal is recorded under its locks, and then its receipt is made. -/
theorem createPaymentReversal_safe {env : Env} {paymentId : String}
    {dto : ReverseDistributionPaymentDto} {memberName : String} {payment : DistributionPayment}
    {f : PaymentReceipt → Bool × PaymentReceipt}
    (hreq : reqs[i]? = some (.reversePayment env actor paymentId dto))
    (h0 : Consistent host d₀) (hc : t.Clean)
    (hpayment : (replay (S := finance) d₀ h).findPayment (uuid paymentId)
      actor.account.contextId = some payment)
    (hlock : (.payment (uuid paymentId), .update) ∈ t.held) :
    (query (.createPaymentReversal ((reversalCore host env actor (uuid paymentId) dto
        memberName).row actor.account.contextId
          (paymentReversalFingerprint host actor (uuid paymentId) dto))) >>= fun _ =>
      query (.findPayment (uuid paymentId) actor.account.contextId) >>= fun row =>
      Tx.orThrow row .recordNotFound >>= fun row =>
      paymentReceipt row >>= fun receipt =>
      .ret (f receipt)).Safe d₀ (Commits host d₀ reqs) i Anything NotOverpaid t h := by
  refine Tx.Safe.writes hc (fun e _ _ hx => insertPaymentReversal_error hx) ?_
  intro h₁ t₁ u ws l₁ hx hiso hpending hlocked hheld
  obtain rfl := insertPaymentReversal_writes hx
  obtain ⟨hnew, hactive⟩ := insertPaymentReversal_ok hx
  have hunpaid : ∀ h', Later (Commits host d₀ reqs) i t₁.held h₁ h' →
      Effect host d₀ i h' t₁.snap.length t₁.held (.reversePayment env actor paymentId dto) t₁.pending := by
    intro h' l'
    have hl := l₁.trans (l'.weaken hheld)
    rw [hpending]
    refine .unpaid (findPayment_grows (Later.grows hl) hpayment)
      (Later.no_paymentReversal l' (hheld hlock) hactive) ?_ (hheld hlock)
    exact (hlocked.read_eq (S := finance) hpending l' d₀
      (fun d => d.paymentReversals.find? (uuid dto.id))
      (fun _ _ hne => paymentReversals_apply_ne hne)).trans hnew
  have hview : ∀ h', Later (Commits host d₀ reqs) i t₁.held h₁ h' →
      Consistent host (applyAll (S := finance) (replay (S := finance) d₀ h') t₁.pending) :=
    fun h' l' => (hunpaid h' l').consistent (Lawful.consistent l'.lawful h0)
  refine Tx.Safe.reread hiso (reads_read _ (fun _ => rfl) fun _ => rfl) ?_
  intro h₂ row l₂ _
  refine Tx.Safe.orThrow (fun row _ => ?_) fun _ => throw_safe nofun
  refine paymentReceipt_safe hiso (fun h' l' => hview h' (l₂.trans l')) ?_
  intro h₃ receipt l₃ h₄ e₄
  exact ⟨commits_effect hreq rfl (hunpaid h₄ (l₂.trans (l₃.trans e₄.later))), trivial⟩

/-- A reversal whose id is new. -/
theorem unpayNew_safe {env : Env} {paymentId : String} {dto : ReverseDistributionPaymentDto}
    {memberName : String} (hreq : reqs[i]? = some (.reversePayment env actor paymentId dto))
    (h0 : Consistent host d₀) (hc : t.Clean) :
    (unpayNew host env actor (uuid paymentId) dto memberName).Safe d₀ (Commits host d₀ reqs) i
      Anything NotOverpaid t h := by
  unfold unpayNew
  refine Tx.Safe.silent hc (silent_read _ fun _ => rfl) ?_
  intro h₁ t₁ found c₁ l₁ hx₁ _
  refine Tx.Safe.orThrow (fun target hsome => ?_) fun _ => throw_safe nofun
  cases hx₁
  obtain ⟨payment, hpayment, rfl⟩ := Option.map_eq_some_iff.mp hsome
  refine Tx.Safe.silent c₁ (silent_read _ fun _ => rfl) ?_
  intro h₂ t₂ _ c₂ l₂ _ _
  refine Tx.Safe.silent c₂ (silent_read _ fun _ => rfl) ?_
  intro h₃ t₃ _ c₃ l₃ _ hheld₃
  have hpayment₃ := findPayment_grows (Later.grows l₃) (findPayment_grows (Later.grows l₂) hpayment)
  have hlock : (.payment (uuid paymentId), .update) ∈ t₃.held := by
    rw [hheld₃]
    exact List.mem_append_right _ (mem_lockPayment hpayment₃)
  refine Tx.Safe.silent c₃ (silent_read _ fun _ => rfl) ?_
  intro h₄ t₄ already c₄ l₄ _ hheld₄
  refine Tx.Safe.require (fun _ => ?_) fun _ => throw_safe nofun
  refine Tx.Safe.require (fun _ => ?_) fun _ => throw_safe nofun
  refine createPaymentReversal_safe hreq h0 c₄ (findPayment_grows (Later.grows l₄) hpayment₃) ?_
  rw [hheld₄]
  exact List.mem_append_left _ hlock

theorem reversePaymentInTx_safe {env : Env} {paymentId : String}
    {dto : ReverseDistributionPaymentDto} {s : Selection}
    (hreq : reqs[i]? = some (.reversePayment env actor paymentId dto))
    (h0 : Consistent host d₀) (hc : t.Clean) :
    (reversePaymentInTx host env actor s (uuid paymentId) dto).Safe d₀ (Commits host d₀ reqs) i
      Anything NotOverpaid t h := by
  unfold reversePaymentInTx
  refine authorize_safe hc ?_
  intro memberName h₁ t₁ c₁ _
  refine Tx.Safe.silent c₁ (silent_read _ fun _ => rfl) ?_
  intro h₂ t₂ _ c₂ _ _ _
  refine Tx.Safe.silent c₂ (silent_read _ fun _ => rfl) ?_
  intro h₃ t₃ existing c₃ _ _ _
  cases existing with
  | none => exact unpayNew_safe hreq h0 c₃
  | some existing =>
    refine Tx.Safe.require (fun _ => ?_) fun _ => throw_safe nofun
    refine Tx.Safe.silent c₃ (silent_read _ fun _ => rfl) ?_
    intro h₄ t₄ row c₄ _ _ _
    refine Tx.Safe.orThrow (fun row _ => ?_) fun _ => throw_safe nofun
    refine paymentReceipt_safe c₄.iso (fun h' l' => ?_) fun h' _ _ => quiet_commit hreq c₄
    exact clean_consistent c₄ h0 l'.lawful

/-! Voids. -/

/-- A void whose id is new. -/
theorem reverseNew_safe {env : Env} {agreementId : String} {dto : ReverseDistributionAgreementDto}
    (hreq : reqs[i]? = some (.reverseAgreement env actor agreementId dto)) (hc : t.Clean) :
    (reverseNew host env actor dto (uuid dto.id) (uuid agreementId)).Safe d₀
      (Commits host d₀ reqs) i Anything NotOverpaid t h := by
  unfold reverseNew
  refine Tx.Safe.silent hc (silent_read _ fun _ => rfl) ?_
  intro h₁ t₁ locked c₁ _ hx₁ hheld₁
  refine Tx.Safe.require (fun hlocked => ?_) fun _ => throw_safe nofun
  cases hx₁
  obtain ⟨row, hrow⟩ := Option.isSome_iff_exists.mp hlocked
  have hlock : (.agreement (uuid agreementId), .update) ∈ t₁.held := by
    rw [hheld₁]
    exact List.mem_append_right _ (mem_lockAgreement hrow)
  refine Tx.Safe.silent c₁ (silent_read _ fun _ => rfl) ?_
  intro h₂ t₂ found c₂ _ hx₂ hheld₂
  refine Tx.Safe.orThrow (fun original hsome => ?_) fun _ => throw_safe nofun
  cases hx₂
  obtain ⟨original, horiginal, rfl⟩ := Option.map_eq_some_iff.mp hsome
  refine Tx.Safe.require (fun _ => ?_) fun _ => throw_safe nofun
  refine Tx.Safe.require (fun _ => ?_) fun _ => throw_safe nofun
  have hlock₂ : (.agreement (uuid agreementId), .update) ∈ t₂.held := by
    rw [hheld₂]
    exact List.mem_append_left _ hlock
  refine Tx.Safe.writes c₂ (fun e _ _ hx => insertAgreementReversal_error hx) ?_
  intro h₃ t₃ u ws l₃ hx hiso hpending hlocked hheld
  obtain rfl := insertAgreementReversal_writes hx
  obtain ⟨hnew, hactive⟩ := insertAgreementReversal_ok hx
  intro h₄ e₄
  have hl := e₄.later
  refine ⟨commits_effect hreq rfl ?_, trivial⟩
  show Effect host d₀ i h₄ _ _ _ t₃.pending
  rw [hpending]
  refine .voided (findAgreement_grows (Later.grows hl)
    (findAgreement_grows (Later.grows l₃) horiginal))
    (Later.no_reversal hl (hheld hlock₂) (fun _ hr => hr) hactive) ?_ (hheld hlock₂)
  exact (hlocked.read_eq (S := finance) hpending hl d₀
    (fun d => d.agreementReversals.find? (uuid dto.id))
    (fun _ _ hne => agreementReversals_apply_ne hne)).trans hnew

theorem reverseInTx_safe {env : Env} {agreementId : String} {dto : ReverseDistributionAgreementDto}
    {s : Selection} (hreq : reqs[i]? = some (.reverseAgreement env actor agreementId dto))
    (hc : t.Clean) :
    (reverseInTx host env actor s dto (uuid dto.id) (uuid agreementId)).Safe d₀
      (Commits host d₀ reqs) i Anything NotOverpaid t h := by
  unfold reverseInTx
  refine authorize_safe hc ?_
  intro _ h₁ t₁ c₁ _
  refine Tx.Safe.silent c₁ (silent_read _ fun _ => rfl) ?_
  intro h₂ t₂ _ c₂ _ _ _
  refine Tx.Safe.silent c₂ (silent_read _ fun _ => rfl) ?_
  intro h₃ t₃ _ c₃ _ _ _
  refine Tx.Safe.silent c₃ (silent_read _ fun _ => rfl) ?_
  intro h₄ t₄ existing c₄ _ _ _
  cases existing with
  | none => exact reverseNew_safe hreq c₄
  | some existing => exact Tx.Safe.require (fun _ => quiet_commit hreq c₄) fun _ => throw_safe nofun

end

end Bazar.Finance
