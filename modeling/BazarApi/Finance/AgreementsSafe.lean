import BazarApi.Finance.Simulation
import BazarApi.Finance.PaymentsSafe
import BazarApi.Finance.Verified

/- Every request keeps the guarantee of its commits (`Request.safe`), so every run is lawful
   (`Reachable.ok`). A creation runs on a snapshot: what it read there it writes unless
   somebody wrote one of its rows first, and then it starts over from nothing. Whatever it
   answers with shows what was hashed for a document, new or sent again. -/
namespace Bazar.Finance

open Txn

/-! What a creation reads. -/

section
variable {v : Db} {contextId : String} {newId : Uuid}

theorem simulateInTx_reads {host : Host} {dto : FinanceDistributionSimulationDto} :
    (simulateInTx host contextId dto).All Reads := by
  have hread : ∀ {q : Sql} (r : Db → q.Res), (∀ v, Sql.exec q v = .ok (r v, [])) →
      (∀ v, q.locks v = []) → (query q).All Reads := fun r hx hk =>
    ⟨reads_read r hx hk, fun _ => trivial⟩
  refine Tx.All.bind ?_ fun _ => Tx.All.bind Tx.all_require fun _ =>
    Tx.All.bind (hread _ (fun _ => rfl) fun _ => rfl) fun _ =>
    Tx.All.bind (hread _ (fun _ => rfl) fun _ => rfl) fun _ =>
    Tx.All.bind Tx.all_ofExcept fun _ =>
    Tx.All.bind (hread _ (fun _ => rfl) fun _ => rfl) fun _ => Tx.all_ofExcept
  -- the books
  exact Tx.All.bind (hread _ (fun _ => rfl) fun _ => rfl) fun _ =>
    Tx.All.bind (hread _ (fun _ => rfl) fun _ => rfl) fun _ =>
    Tx.All.bind (hread _ (fun _ => rfl) fun _ => rfl) fun _ =>
    Tx.All.bind (hread _ (fun _ => rfl) fun _ => rfl) fun _ =>
    Tx.All.bind (hread _ (fun _ => rfl) fun _ => rfl) fun _ => Tx.all_ofExcept

theorem all_orThrow {α : Type} {o : Option α} {e : Err} :
    (Tx.orThrow o e : Tx finance α).All Reads := by
  cases o <;> trivial

theorem replacedAgreement_reads {replacesId : Option Uuid} :
    (replacedAgreement contextId newId replacesId).All Reads := by
  cases replacesId with
  | none => trivial
  | some id =>
    refine Tx.All.bind ?_ fun _ => trivial
    unfold validateReplacement
    dsimp only
    split
    · exact Tx.All.bind (x := .ret none) trivial fun _ =>
        Tx.All.bind all_orThrow fun _ => Tx.All.bind Tx.all_require fun _ => trivial
    · exact Tx.All.bind ⟨reads_read _ (fun _ => rfl) fun _ => rfl, fun _ => trivial⟩ fun _ =>
        Tx.All.bind all_orThrow fun _ => Tx.All.bind Tx.all_require fun _ => trivial

/-- The simulation of a snapshot. -/
theorem simulateInTx_answered {host : Host} {dto : FinanceDistributionSimulationDto}
    {s : Simulation}
    (h : (simulateInTx host contextId dto).Ends (Answered (S := finance) v) (.ok s)) :
    simulationAt host v contextId dto = .ok s := by
  have hmay : ∀ (q : Sql) (r : q.Res), Answered (S := finance) v q (.ok r) →
      v.MayAnswer q (.ok r) := by
    intro q r hr
    unfold Answered at hr
    cases hx : finance.exec q v with
    | error e =>
      rw [hx] at hr
      cases hr
    | ok x =>
      rw [hx] at hr
      cases hr
      exact ⟨_, _, x.2, rfl, hx, sameRows_refl q x.1⟩
  rcases Tx.Ends.of_answers simulateInTx_reads (fun q r _ hr => hmay q r hr) h with
    ⟨_, _, -, he⟩ | hends
  · cases he
  · exact (simulateInTx_ends hends).symm

/-- What is replaced is another agreement, voided and not replaced yet. -/
theorem replacedAgreement_answered {replacesId : Option Uuid} {ref : Option AgreementRef}
    (h : (replacedAgreement contextId newId replacesId).Ends (Answered (S := finance) v) (.ok ref)) :
    ∀ id ∈ replacesId, id ≠ newId ∧ ∃ a, v.findAgreement id contextId = some a ∧
      (v.reversalOf a).isSome = true ∧ v.replacementOf a = none := by
  rintro id rfl
  obtain ⟨_, -, he⟩ | ⟨ref', h, -⟩ := Tx.ends_bind.mp h
  · cases he
  unfold validateReplacement at h
  dsimp only at h
  have hrest : ∀ target : Option LiveAgreement,
      Tx.Ends (Answered (S := finance) v) (do
        let target ← Tx.orThrow target replacementInvalid
        Tx.require (target.reversal.isSome ∧ target.replacedBy.isNone) replacementInvalid
        return (⟨target.agreement.id, target.agreement.folio⟩ : AgreementRef)) (.ok ref') →
      ∃ live, target = some live ∧ live.reversal.isSome = true ∧ live.replacedBy.isNone = true := by
    intro target h
    cases target with
    | none => cases h
    | some live =>
      obtain ⟨_, -, he⟩ | ⟨_, hlive, h⟩ := Tx.ends_bind.mp h
      · cases he
      cases hlive
      obtain ⟨_, -, he⟩ | ⟨_, hreq, -⟩ := Tx.ends_bind.mp h
      · cases he
      · rcases Tx.ends_require.mp hreq with ⟨hc, -⟩ | ⟨-, he⟩
        · exact ⟨live, rfl, hc⟩
        · cases he
  by_cases hid : id = newId
  · rw [if_pos hid] at h
    obtain ⟨_, hnone, -⟩ := hrest none h
    cases hnone
  · rw [if_neg hid] at h
    obtain ⟨_, -, he⟩ | ⟨target, htarget, h⟩ := Tx.ends_bind.mp h
    · cases he
    obtain ⟨live, rfl, hreversal, hreplaced⟩ := hrest target h
    have hfound := Tx.ends_query.mp htarget
    unfold Answered at hfound
    have hfound : (v.findAgreement id contextId).map v.live = some live :=
      (Except.ok.inj hfound).symm
    obtain ⟨a, ha, rfl⟩ := Option.map_eq_some_iff.mp hfound
    refine ⟨hid, a, ha, hreversal, ?_⟩
    exact Option.map_eq_none_iff.mp (Option.isNone_iff_eq_none.mp hreplaced)

/-! What the inserts of a creation check. -/

theorem advanceCounter_ok {year : Option Int} {n : Int} {ws : List Write}
    (h : advanceCounter contextId year v = .ok (n, ws)) :
    ∃ y, year = some y ∧ n = v.lastNumber contextId y + 1 ∧ ws = [.putCounter ⟨contextId, y, n⟩] := by
  unfold advanceCounter at h
  split at h
  · cases h
  · rename_i y
    split at h
    · cases h
    · dsimp only at h
      split at h
      · cases h
        exact ⟨y, rfl, rfl, rfl⟩
      · cases h

theorem insertAgreement_ok {row : DistributionAgreement} {x : Unit × List Write}
    (h : insertAgreement row v = .ok x) : row.checks = true ∧ v.agreements.find? row.id = none ∧
      ∀ a ∈ v.agreements.rows, a.contextId = row.contextId → a.folio ≠ row.folio := by
  unfold insertAgreement at h
  split at h
  · cases h
  split at h
  · cases h
  rename_i hchecks
  split at h
  · cases h
  rename_i hnew
  split at h
  · cases h
  rename_i hfolio
  refine ⟨Bool.not_eq_false _ ▸ hchecks, Option.not_isSome_iff_eq_none.mp hnew, ?_⟩
  intro a ha hctx hsame
  exact hfolio (List.any_eq_true.mpr ⟨a, ha, decide_eq_true ⟨hctx, hsame⟩⟩)

theorem insertParticipants_ok {rows : List DistributionAgreementParticipant} {x : Unit × List Write}
    (h : insertParticipants rows v = .ok x) : (rows.map Keyed.key).Nodup ∧
      ∀ p ∈ rows, p.checks = true ∧ v.participants.find? (Keyed.key p) = none := by
  unfold insertParticipants at h
  split at h
  · cases h
  split at h
  · cases h
  rename_i hchecks
  split at h
  · cases h
  rename_i hnew
  obtain ⟨hnodup, hnew⟩ := not_or.mp hnew
  refine ⟨not_not.mp hnodup, ?_⟩
  intro p hp
  refine ⟨?_, ?_⟩
  · by_contra hc
    exact hchecks (List.any_eq_true.mpr ⟨p, hp, decide_eq_true (Bool.eq_false_iff.mpr hc)⟩)
  · refine Option.not_isSome_iff_eq_none.mp fun hs => hnew ?_
    exact List.any_eq_true.mpr ⟨p, hp, hs⟩

end

/-! Creations. -/

section
variable {host : Host} {d₀ : Db} {reqs : List Request} {i : Nat} {h : History finance}
variable {t : Open finance} {env : Env} {actor : Actor} {dto : CreateDistributionAgreementDto}

/-- What a creation may answer: a document with what was hashed for it. -/
abbrev Receipt (host : Host) : Bool × Value → History finance → Prop :=
  fun b _ => ∃ x, Documented host x b.2

/-- A creation that fails is tried again or given up. -/
abbrev AnyError : Err → History finance → Prop := fun _ _ => True

theorem authorize_snapshot {β : Type} {Q : β → History finance → Prop} {s : Selection}
    {f : String → Tx finance β} (hc : t.Current h) (hp : t.pending = [])
    (hs : ∀ name h' t', t'.Current h' → t'.pending = [] → t'.snap = t.snap →
      (f name).Safe d₀ (Commits host d₀ reqs) i Q AnyError t' h') :
    (authorize actor s >>= f).Safe d₀ (Commits host d₀ reqs) i Q AnyError t h := by
  unfold authorize
  simp only [Tx.bind_assoc]
  refine Tx.Safe.snapshot_silent hc hp (silent_read _ fun _ => rfl) (fun _ _ => trivial) ?_
  intro h₁ t₁ _ c₁ p₁ s₁ _ _
  refine Tx.Safe.snapshot_silent c₁ p₁ (silent_read _ fun _ => rfl) (fun _ _ => trivial) ?_
  intro h₂ t₂ _ c₂ p₂ s₂ _ _
  refine Tx.Safe.snapshot_silent c₂ p₂ (silent_read _ fun _ => rfl) (fun _ _ => trivial) ?_
  intro h₃ t₃ _ c₃ p₃ s₃ _ _
  refine Tx.Safe.require (fun _ => ?_) fun _ _ _ => trivial
  exact Tx.Safe.orThrow (fun name _ => hs name h₃ t₃ c₃ p₃ (s₃.trans (s₂.trans s₁)))
    fun _ _ _ => trivial

theorem mem_drop_later {h' : History finance} {e : Event finance} {n : Nat} (hp : h <+: h')
    (he : e ∈ h.drop n) : e ∈ h'.drop n := by
  obtain ⟨m, rfl⟩ := hp
  rw [List.drop_append]
  exact List.mem_append_left _ he

/-- The agreement under the next number, with its participants. -/
theorem recordAgreement_safe {memberName : String} {replaces : Option AgreementRef}
    {simulation : Simulation} {receivedAt : Instant} (doc : Int → AgreementDocumentInput)
    (hdoc : ∀ number, doc number = documentInput host actor dto memberName replaces simulation
      receivedAt (formatFolio ((folioYear receivedAt).getD 0) number))
    (hreq : reqs[i]? = some (.createAgreement env actor dto)) (hc : t.Current h)
    (hp : t.pending = [])
    (hsimulated : simulationAt host (replay (S := finance) d₀ t.snap) actor.account.contextId
      dto.toFinanceDistributionSimulationDto = .ok simulation)
    (hfree : dto.requestedAmountMinor + (replay (S := finance) d₀ t.snap).committedMinor
      actor.account.contextId dto.period ≤ simulation.financialBase.potentiallyAvailableMinor)
    (hreplaced : ∀ id ∈ dto.replacesAgreementId.map uuid, id ≠ uuid dto.id ∧ ∃ a,
      (replay (S := finance) d₀ t.snap).findAgreement id actor.account.contextId = some a ∧
        ((replay (S := finance) d₀ t.snap).reversalOf a).isSome = true ∧
        (replay (S := finance) d₀ t.snap).replacementOf a = none) :
    (query (.nextNumber actor.account.contextId (folioYear receivedAt)) >>= fun number =>
      query (.createAgreement (agreementRow host actor dto (doc number))) >>= fun _ =>
      query (.createParticipants (simulation.members.map
        (participantRow (uuid dto.id) actor.account.contextId))) >>= fun _ =>
      (.ret (true, buildAgreementDocument host (doc number)) : Tx finance (Bool × Value))).Safe d₀
        (Commits host d₀ reqs) i (Receipt host) AnyError t h := by
  refine Tx.Safe.snapshot_writes hc (Open.Locked.of_nil hp) (fun _ _ => trivial) ?_
  intro h₁ t₁ number ws₁ _ hexec hx₁ c₁ k₁ s₁ p₁
  rw [hp, applyAll_nil] at hx₁
  obtain ⟨year, hyear, hnumber, rfl⟩ := advanceCounter_ok hx₁
  have hx := hdoc number
  rw [hyear] at hexec hx
  refine Tx.Safe.snapshot_writes c₁ k₁ (fun _ _ => trivial) ?_
  intro h₂ t₂ _ ws₂ l₂ _ hx₂ c₂ k₂ s₂ p₂
  rw [p₁, hp, s₁] at hx₂
  obtain rfl := insertAgreement_writes hx₂
  obtain ⟨hchecks, hnew, hfolio⟩ := insertAgreement_ok hx₂
  refine Tx.Safe.snapshot_writes c₂ k₂ (fun _ _ => trivial) ?_
  intro h₃ t₃ _ ws₃ l₃ _ hx₃ c₃ k₃ s₃ p₃
  rw [p₂, p₁, hp, s₂, s₁, applyAll_append, applyAll_cons, entries_apply] at hx₃
  obtain rfl := insertParticipants_writes hx₃
  obtain ⟨hnodup, hparticipants⟩ := insertParticipants_ok hx₃
  intro h₄ e₄
  refine ⟨commits_effect hreq rfl ?_, ⟨_, documented_build⟩⟩
  have c₄ := c₃.stable e₄
  have hsnap : t₃.snap = t.snap := s₃.trans (s₂.trans s₁)
  show Effect host d₀ i h₄ _ _ _ t₃.pending
  rw [p₁, hp] at p₂
  rw [p₂] at p₃
  generalize doc number = x at *
  subst hx
  have hwrites : t₃.pending = creationWrites host actor dto (documentInput host actor dto
      memberName replaces simulation receivedAt (formatFolio year number)) year number := p₃
  rw [hwrites]
  refine .created (g := t.snap) ?_ ?_
    (mem_drop_later (l₂.pre.trans (l₃.pre.trans e₄.pre)) hexec) (congrArg List.length hsnap.symm)
  · refine ⟨⟨_, _, _, _, rfl⟩, hsimulated, hfree, hyear, hnumber, hreplaced, hnew, hfolio, hchecks,
      ?_, ?_⟩
    · intro m hm
      exact hparticipants _ (List.mem_map_of_mem hm)
    · rw [List.map_map] at hnodup
      refine List.Nodup.of_map (fun id => (uuid dto.id, id)) ?_
      rw [List.map_map]
      exact hnodup
  · rw [← hsnap]
    refine ⟨c₄.pre, ?_⟩
    rw [← hwrites]
    exact c₄.untouched k₃

/-- A creation whose id is new. -/
theorem createNew_safe {memberName : String} {attempt : Nat}
    (hreq : reqs[i]? = some (.createAgreement env actor dto)) (hc : t.Current h)
    (hp : t.pending = []) :
    (createNew host env actor dto memberName attempt).Safe d₀ (Commits host d₀ reqs) i
      (Receipt host) AnyError t h := by
  unfold createNew
  refine Tx.Safe.reads hc replacedAgreement_reads ?_ fun _ _ _ _ => trivial
  intro replaces h₁ _ c₁ hreplaced
  refine Tx.Safe.reads c₁ simulateInTx_reads ?_ fun _ _ _ _ => trivial
  intro simulation h₂ _ c₂ hsimulated
  rw [hp, applyAll_nil] at hreplaced hsimulated
  refine Tx.Safe.require (fun _ => ?_) fun _ _ _ => trivial
  refine Tx.Safe.snapshot_silent c₂ hp (silent_read _ fun _ => rfl) (fun _ _ => trivial) ?_
  intro h₃ t₃ committed c₃ p₃ s₃ _ hx₃
  cases hx₃
  refine Tx.Safe.require (fun hfree => ?_) fun _ _ _ => trivial
  rw [← s₃] at hreplaced hsimulated hfree
  refine recordAgreement_safe _ (fun _ => rfl) hreq c₃ p₃ (simulateInTx_answered hsimulated) ?_
    (replacedAgreement_answered hreplaced)
  -- something is asked for, so something is free
  rw [sumOf_getD] at hfree
  have hrange := dto.requested_range.1
  unfold commitmentOf at hfree
  dsimp only at hfree
  unfold Db.committedMinor
  omega

theorem createInTx_safe {s : Selection} {attempt : Nat}
    (hreq : reqs[i]? = some (.createAgreement env actor dto)) (h0 : Consistent host d₀)
    (hc : t.Current h) (hp : t.pending = []) :
    (createInTx host env actor s dto attempt).Safe d₀ (Commits host d₀ reqs) i
      (Receipt host) AnyError t h := by
  unfold createInTx
  refine authorize_snapshot hc hp ?_
  intro memberName h₁ t₁ c₁ p₁ s₁
  refine Tx.Safe.snapshot_silent c₁ p₁ (silent_read _ fun _ => rfl) (fun _ _ => trivial) ?_
  intro h₂ t₂ _ c₂ p₂ s₂ _ _
  refine Tx.Safe.snapshot_silent c₂ p₂ (silent_read _ fun _ => rfl) (fun _ _ => trivial) ?_
  intro h₃ t₃ existing c₃ p₃ s₃ l₃ hx₃
  cases hx₃
  have hcons := Lawful.consistent (l₃.of_prefix (s₃ ▸ c₃.pre)) h0
  cases hfound : (replay (S := finance) d₀ t₂.snap).findAgreement (uuid dto.id)
      actor.account.contextId with
  | none => exact createNew_safe hreq c₃ p₃
  | some a =>
    refine Tx.Safe.require (fun _ => ?_) fun _ _ _ => trivial
    intro h₄ e₄
    refine ⟨commits_quiet hreq h₄ _ rfl p₃, ?_⟩
    obtain ⟨x, hx⟩ := hcons.recorded a
      (Table.mem_of_find? (Option.filter_eq_some_iff.mp hfound).1)
    exact ⟨x, documented_live (Db.live _ a) hx⟩

/-! Answers. -/

/-- What a request may be answered: documents with what was hashed for them, and, but for a
creation, no error of an overpaid participant. -/
def Request.Post (host : Host) (r : Request) : Except Err Answer → Prop
  | .ok (.agreement _ receipt) => ∃ x, Documented host x receipt
  | .ok (.document v) => ∃ document summary, v = Value.with document [("paymentSummary", summary)] ∧
      ∃ x, Documented host x document
  | .ok _ => True
  | .error e => e ≠ overpaid ∨ ∃ env actor dto, r = .createAgreement env actor dto

theorem runWithRetry_safe {unit : Nat → Tx finance (Bool × Value)} {r : Request}
    {attempts attempt : Nat} {last : Err} (hr : ∃ env actor dto, r = .createAgreement env actor dto)
    (hu : ∀ attempt h, (unit attempt).Safe d₀ (Commits host d₀ reqs) i (Receipt host) AnyError
      ⟨.repeatableRead, h, [], []⟩ h) :
    (runWithRetry unit attempts attempt last).Safe d₀ (Commits host d₀ reqs) i
      (fun x _ => r.Post host (x.map fun a => Answer.agreement a.1 a.2)) h := by
  induction attempts generalizing attempt last h with
  | zero => exact fun _ _ => .inr hr
  | succ attempts ih =>
    have herror : ∀ (e : Err) (h' : History finance), Call.Safe (S := finance) d₀
        (Commits host d₀ reqs) i
        (fun x _ => r.Post host (x.map fun a => Answer.agreement a.1 a.2))
        (if isRetryableTransactionError e ∨ isUniqueViolation e then
          runWithRetry unit attempts (attempt + 1) e else .throw e) h' := by
      intro e h'
      split
      · exact ih
      · exact fun _ _ => .inr hr
    refine ⟨fun h₁ _ => (hu attempt h₁).mono ?_ fun e h' _ => herror e h',
      fun e h' _ _ _ => herror e h'⟩
    intro b h' hb h'' _
    exact hb

theorem createAgreement_safe (hreq : reqs[i]? = some (.createAgreement env actor dto))
    (h0 : Consistent host d₀) :
    (createAgreement host env actor dto).Safe d₀ (Commits host d₀ reqs) i
      (fun x _ => (Request.createAgreement env actor dto).Post host
        (x.map fun a => Answer.agreement a.1 a.2)) h := by
  unfold createAgreement
  cases assertOrigin actor dto.createdByMemberId dto.deviceId with
  | error e => exact fun _ _ => .inr ⟨_, _, _, rfl⟩
  | ok s => exact runWithRetry_safe ⟨_, _, _, rfl⟩ fun attempt h' =>
      createInTx_safe hreq h0 (Open.Current.begun h') rfl

/-- What the transaction of a request settles with, when it is not a creation. -/
theorem settle_safe {α : Type} {r : Request} {f : α → Answer} {body : Tx finance α}
    {k : Except Err α → Call finance α}
    (hb : ∀ h', body.Safe d₀ (Commits host d₀ reqs) i (fun b _ => r.Post host (.ok (f b)))
      NotOverpaid ⟨.readCommitted, h', [], []⟩ h')
    (hok : ∀ a, k (.ok a) = .ret a)
    (herr : ∀ e, e ≠ overpaid → ∃ e', k (.error e) = .throw e' ∧ e' ≠ overpaid) :
    (Call.tx .readCommitted body k).Safe d₀ (Commits host d₀ reqs) i
      (fun x _ => r.Post host (x.map f)) h := by
  have herror : ∀ (e : Err) (h' : History finance), e ≠ overpaid → Call.Safe (S := finance) d₀
      (Commits host d₀ reqs) i (fun x _ => r.Post host (x.map f)) (k (.error e)) h' := by
    intro e h' he
    obtain ⟨e', hk, he'⟩ := herr e he
    rw [hk]
    exact fun _ _ => .inl he'
  refine ⟨fun h₁ _ => (hb h₁).mono ?_ fun e h' he => herror e h' he, ?_⟩
  · intro b h' hpost
    rw [hok]
    exact fun _ _ => hpost
  · intro e h' hs _ _
    refine herror e h' ?_
    rintro rfl
    exact hs

theorem transaction_safe {α : Type} {r : Request} {f : α → Answer} {body : Tx finance α}
    (hb : ∀ h', body.Safe d₀ (Commits host d₀ reqs) i (fun b _ => r.Post host (.ok (f b)))
      NotOverpaid ⟨.readCommitted, h', [], []⟩ h') :
    (Call.transaction .readCommitted body).Safe d₀ (Commits host d₀ reqs) i
      (fun x _ => r.Post host (x.map f)) h :=
  settle_safe hb (fun _ => rfl) fun e he => ⟨e, rfl, he⟩

/-! Readings and records. -/

theorem recordAll_safe {writes : List BookWrite} (done : List BookWrite)
    (hreq : reqs[i]? = some (.record (done ++ writes))) (ht : t.iso = .readCommitted)
    (hp : t.pending = done.map .book) :
    (recordAll writes).Safe d₀ (Commits host d₀ reqs) i Anything NotOverpaid t h := by
  induction writes generalizing t h done with
  | nil =>
    intro h' _
    refine ⟨commits_effect hreq rfl ?_, trivial⟩
    show Effect host d₀ i h' _ _ _ t.pending
    rw [hp, List.append_nil]
    exact .recorded
  | cons w writes ih =>
    refine Tx.Safe.stmt ht ?_
    intro h₁ _ _
    refine ih (done ++ [w]) (by rw [List.append_assoc]; exact hreq) ht ?_
    rw [Open.after_pending, hp, List.map_append]
    rfl

theorem findOneInTx_safe {contextId id : String}
    (hreq : reqs[i]? = some (.findAgreement contextId id)) (h0 : Consistent host d₀)
    (hc : t.Clean) :
    (findOneInTx host contextId (uuid id)).Safe d₀ (Commits host d₀ reqs) i
      (fun v _ => (Request.findAgreement contextId id).Post host (.ok (.document v)))
      NotOverpaid t h := by
  unfold findOneInTx
  refine Tx.Safe.silent hc (silent_read _ fun _ => rfl) ?_
  intro h₁ t₁ found c₁ l₁ hx₁ _
  refine Tx.Safe.orThrow (fun row hsome => ?_) fun _ => throw_safe nofun
  cases hx₁
  obtain ⟨a, ha, rfl⟩ := Option.map_eq_some_iff.mp hsome
  refine loadPaymentSummary_safe c₁.iso (fun h' l' => clean_consistent c₁ h0 l'.lawful) ?_
  intro h₂ summary l₂ h₃ e₃
  refine ⟨commits_quiet hreq h₃ _ rfl c₁.pending, _, _, rfl, ?_⟩
  obtain ⟨x, hx⟩ := (Lawful.consistent l₁.lawful h0).recorded a
    (Table.mem_of_find? (Option.filter_eq_some_iff.mp ha).1)
  exact ⟨x, documented_live (Db.live _ a) hx⟩

theorem listInTx_safe {contextId agreementId : String}
    (hreq : reqs[i]? = some (.listPayments contextId agreementId)) (h0 : Consistent host d₀)
    (hc : t.Clean) :
    (listInTx contextId (uuid agreementId)).Safe d₀ (Commits host d₀ reqs) i Anything
      NotOverpaid t h := by
  unfold listInTx
  refine Tx.Safe.silent hc (silent_read _ fun _ => rfl) ?_
  intro h₁ t₁ found c₁ _ _ _
  refine Tx.Safe.orThrow (fun agreement _ => ?_) fun _ => throw_safe nofun
  refine Tx.Safe.silent c₁ (silent_read _ fun _ => rfl) ?_
  intro h₂ t₂ rows c₂ _ _ _
  exact loadPaymentSummary_safe c₂.iso (fun h' l' => clean_consistent c₂ h0 l'.lawful)
    fun _ _ _ => quiet_commit hreq c₂

theorem settlePayment_error (message : String) {e : Err} (he : e ≠ overpaid) :
    ∃ e', settlePayment message (.error e) = .throw e' ∧ e' ≠ overpaid := by
  refine ⟨_, rfl, ?_⟩
  split
  · nofun
  · exact he

theorem assertOrigin_error {createdByMemberId deviceId : String} {e : Err}
    (h : assertOrigin actor createdByMemberId deviceId = .error e) : e ≠ overpaid := by
  unfold assertOrigin at h
  split at h
  · cases h
    nofun
  · split at h
    · cases h
      nofun
    · cases h

/-- Every request keeps the guarantee, and is answered as it should be. -/
theorem Request.safe {r : Request} (hreq : reqs[i]? = some r) (h0 : Consistent host d₀) :
    (r.call host).Safe d₀ (Commits host d₀ reqs) i (fun x _ => r.Post host x) h := by
  cases r with
  | createAgreement env actor dto => exact Call.Safe.map (createAgreement_safe hreq h0)
  | reverseAgreement env actor agreementId dto =>
    refine Call.Safe.map ?_
    unfold Finance.reverseAgreement
    cases horigin : assertOrigin actor dto.createdByMemberId dto.deviceId with
    | error e => exact fun _ _ => .inl (assertOrigin_error horigin)
    | ok s =>
      refine Call.Safe.require (fun _ => ?_) fun _ _ _ => .inl nofun
      refine settle_safe (r := .reverseAgreement env actor agreementId dto)
        (f := fun a => Answer.reversal a.1 a.2)
        (k := fun settled => match settled with
          | .ok a => .ret a
          | .error e => .throw (if isUniqueViolation e then agreementNotFound else e))
        (fun h' => reverseInTx_safe hreq (Open.Clean.begun h')) (fun _ => rfl) fun e he => ?_
      refine ⟨_, rfl, ?_⟩
      split
      · nofun
      · exact he
  | findAgreement contextId id =>
    exact Call.Safe.map (transaction_safe (r := .findAgreement contextId id)
      fun h' => findOneInTx_safe hreq h0 (Open.Clean.begun h'))
  | createPayment env actor agreementId dto =>
    refine Call.Safe.map ?_
    unfold Finance.createPayment
    cases horigin : assertOrigin actor dto.createdByMemberId dto.deviceId with
    | error e => exact fun _ _ => .inl (assertOrigin_error horigin)
    | ok s =>
      exact settle_safe (r := .createPayment env actor agreementId dto)
        (f := fun a => Answer.payment a.1 a.2)
        (fun h' => createPaymentInTx_safe hreq h0 (Open.Clean.begun h')) (fun _ => rfl)
        fun e he => settlePayment_error _ he
  | reversePayment env actor paymentId dto =>
    refine Call.Safe.map ?_
    unfold Finance.reversePayment
    cases horigin : assertOrigin actor dto.createdByMemberId dto.deviceId with
    | error e => exact fun _ _ => .inl (assertOrigin_error horigin)
    | ok s =>
      exact settle_safe (r := .reversePayment env actor paymentId dto)
        (f := fun a => Answer.payment a.1 a.2)
        (fun h' => reversePaymentInTx_safe hreq h0 (Open.Clean.begun h')) (fun _ => rfl)
        fun e he => settlePayment_error _ he
  | findPayment contextId id =>
    refine Call.Safe.map (transaction_safe (r := .findPayment contextId id)
      (f := Answer.paymentView) fun h' => ?_)
    refine Tx.Safe.silent (Open.Clean.begun h') (silent_read _ fun _ => rfl) ?_
    intro h₁ t₁ found c₁ _ _ _
    exact Tx.Safe.orThrow (fun row _ => quiet_commit hreq c₁) fun _ => throw_safe nofun
  | listPayments contextId agreementId =>
    exact Call.Safe.map (transaction_safe (r := .listPayments contextId agreementId)
      (f := fun a => Answer.payments a.1 a.2)
      fun h' => listInTx_safe hreq h0 (Open.Clean.begun h'))
  | record writes =>
    exact Call.Safe.map (transaction_safe (r := .record writes) (f := fun _ => Answer.recorded)
      fun h' => recordAll_safe [] hreq rfl rfl)

end

/-- The requests of a run keep their guarantee in each of its states. -/
theorem Reachable.ok {host : Host} {d₀ : Db} {reqs : List Request} {s : Sys finance Answer}
    (h0 : Consistent host d₀) (hr : Reachable host d₀ reqs s) :
    s.Ok d₀ (Commits host d₀ reqs) fun i x _ => ∀ r, reqs[i]? = some r → r.Post host x := by
  refine Sys.Reach.ok hr (Sys.initial_ok ?_)
  intro i c hc
  rw [List.getElem?_map] at hc
  obtain ⟨r, hreq, rfl⟩ := Option.map_eq_some_iff.mp hc
  refine (Request.safe hreq h0).mono ?_
  intro x h hx r' hr'
  cases hreq.symm.trans hr'
  exact hx

end Bazar.Finance
