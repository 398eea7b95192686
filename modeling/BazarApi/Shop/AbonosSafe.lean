import BazarApi.Shop.DeudasSafe

/- `DeudasService.registerAbono` and the operations on a schedule keep the
   guarantee. A payment sums under the lock of its debt (`Paying`); nobody else can
   add to that sum meanwhile, since every other payment of the debt holds the same
   lock and a new debt is another one. -/
namespace Bazar.Shop

open Txn

/-- One more payment adds to the sum of its debt. -/
theorem sumAbonos_put {d d' : Db} {a : Abono} (hf : d.abonos.find? a.id = none)
    (hd : d'.abonos = d.abonos.put a) (k : Uuid) (contextId : String) :
    d'.sumAbonos k contextId = d.sumAbonos k contextId +
      if a.deudaId = k ∧ a.contextId = contextId then a.montoMinor else 0 := by
  unfold Db.sumAbonos
  rw [hd]
  exact Table.total_put_new _ hf

section
variable {host : Host} {d : Db} {reqs : List Request} {i : Nat} {h h' : History shop}
variable {actor : Actor} {t : Open shop} {env : Env}

/-- Under the lock of a debt the sum of its payments stays. -/
theorem sumAbonos_eq {held : Locks Key} {k : Uuid} {contextId : String} {x : Deuda}
    (hl : Later (Commits host d reqs) i held h h')
    (hk : ((TableName.deuda, k), LockMode.update) ∈ held)
    (hx : (replay (S := shop) d h).deudas.find? k = some x) :
    (replay (S := shop) d h').sumAbonos k contextId =
      (replay (S := shop) d h).sumAbonos k contextId := by
  refine hl.induct (S := shop) d
    (fun v => v.sumAbonos k contextId = (replay (S := shop) d h).sumAbonos k contextId) rfl ?_
  intro h₁ c hlaw hp ih _ hapart _ hc
  rw [← ih]
  refine hc.keep (I := fun v => v.sumAbonos k contextId =
    (replay (S := shop) d h₁).sumAbonos k contextId) rfl ?_
  intro r d' _ hw hh
  have hkept := Lawful.deuda_kept hlaw.left hp hx
  rcases hw.abonos with he | ⟨a, hf, he, ⟨_, _, _, y, rfl, hy, hd, -⟩ | ⟨_, _, id, _, y, now, rfl, hy⟩⟩
  · unfold Db.sumAbonos
    rw [he]
  · -- a payment of a new debt
    rw [sumAbonos_put hf he, if_neg, Int.add_zero]
    rintro ⟨rfl, -⟩
    obtain ⟨x', hx', -⟩ := hkept
    rw [hd, hy.fresh] at hx'
    cases hx'
  · -- a payment under the lock of its own debt
    rw [sumAbonos_put hf he, if_neg, Int.add_zero]
    rintro ⟨rfl, -⟩
    rw [hy.abonoDeuda] at hk
    cases hapart _ hk _ hh rfl

/-- A debt being paid: its row is held, and `paid` is what its payments come to. -/
structure Paying (d : Db) (k : Uuid) (contextId : String) (x : Deuda) (paid : Int) (t : Open shop)
    (h : History shop) : Prop where
  iso : t.iso = .readCommitted
  locked : ((TableName.deuda, k), LockMode.update) ∈ t.held
  deuda : (replay (S := shop) d h).deudas.find? k = some x
  sum : (replay (S := shop) d h).sumAbonos k contextId = paid

section
variable {k : Uuid} {contextId : String} {x : Deuda} {paid : Int} {dto : CreateAbonoDto}

theorem Paying.later (hp : Paying d k contextId x paid t h)
    (hl : Later (Commits host d reqs) i t.held h h') : Paying d k contextId x paid t h' :=
  ⟨hp.iso, hp.locked, (Later.deuda_eq (d := d) hl hp.locked (by decide)).trans hp.deuda,
    (sumAbonos_eq hl hp.locked hp.deuda).trans hp.sum⟩

theorem Paying.after (hp : Paying d k contextId x paid t h) (ls : Locks Key) (ws : List Write) :
    Paying d k contextId x paid (t.after ls ws) h :=
  ⟨hp.iso, List.mem_append_left _ hp.locked, hp.deuda, hp.sum⟩

/-- What is written of a debt that a payment settles. -/
def settleWrites (k : Uuid) (settled : Prop) [Decidable settled] (now : Instant) : List Write :=
  if settled then [.updateDeuda k { status := some .saldada, saldadaAt := some now }] else []

/-- The answer is read and the payment committed. -/
theorem registered_safe {id : String} {a : Abono} (now : Instant)
    (hreq : reqs[i]? = some (.registerAbono env actor id dto))
    (hp : Paying d (uuid id) actor.account.contextId x paid t h) (hc : Claimed d (.abono, a.id) t h)
    (hw : t.pending = [.insert (.abono a)] ++
      settleWrites (uuid id) (x.totalMinor ≤ paid + dto.montoMinor.val) now)
    (hctx : x.contextId = actor.account.contextId) (ha : a.deudaId = uuid id)
    (hactx : a.contextId = actor.account.contextId) (hm : a.montoMinor = dto.montoMinor.val)
    (hle : paid + dto.montoMinor.val ≤ x.totalMinor) :
    (orNotFound (findDeudaWithPlan (uuid id) actor.account.contextId) >>= fun full =>
      (pure (Deudas.detail full) : Tx shop Deudas.DeudaDetail)).Safe d (Commits host d reqs) i
      (fun _ _ => True) (fun _ _ => True) t h := by
  simp only [orNotFound, Tx.bind_assoc]
  refine Tx.Safe.read hp.iso (fun v => v.findDeudaWithPlan _ _) (fun _ => rfl) (fun _ => rfl) ?_
  intro h₁ _ l₁
  refine Tx.Safe.orThrow ?_ (fun _ _ _ => trivial)
  intro full _ h₂ e₂
  have hp₂ := (hp.later l₁).later e₂.later
  have hc₂ := (hc.later l₁).later e₂.later
  refine ⟨⟨_, hreq, .inr ⟨⟨x, a, now, ?_⟩, hp₂.locked⟩⟩, trivial⟩
  change AbonoRegistered _ _ dto _ (applyAll (S := shop) _ t.pending) x a now
  rw [hw]
  refine
    { deuda := hp₂.deuda, deudaContext := hctx, abonoDeuda := ha, abonoContext := hactx
      montoMinor := hm, fresh := eq_none_of_isSome hc₂.2, within := by rw [hp₂.sum]; exact hle
      db := ?_ }
  rw [hp₂.sum, applyAll_append]
  unfold settleWrites
  split
  · have hmod := Table.modify_of_find?
      (f := ({ status := some .saldada, saldadaAt := some now } : DeudaUpdate).apply) hp₂.deuda
    exact congrArg (fun T => { replay (S := shop) d h₂ with
      abonos := (replay (S := shop) d h₂).abonos.put a, deudas := T }) hmod
  · rfl

/-- What follows the lock of the debt. -/
theorem payLocked_safe (paid : Int) {id : String} {existing : Deuda} {memberId : Uuid}
    (hreq : reqs[i]? = some (.registerAbono env actor id dto))
    (hp : Paying d (uuid id) actor.account.contextId x paid t h) (hw : t.pending = [])
    (hctx : x.contextId = actor.account.contextId) (htotal : existing.totalMinor = x.totalMinor) :
    (Deudas.payLocked env actor (uuid id) memberId existing dto).Safe d (Commits host d reqs) i
      (fun _ _ => True) (fun _ _ => True) t h := by
  simp only [Deudas.payLocked]
  refine Tx.Safe.read hp.iso (fun v => v.sumAbonos _ _) (fun _ => rfl) (fun _ => rfl) ?_
  intro h₁ e₁ l₁
  have hsum : (applyAll (S := shop) (replay (S := shop) d h₁) t.pending).sumAbonos (uuid id)
      actor.account.contextId = paid := by
    rw [hw]
    exact (hp.later e₁.later).sum
  have hp₁ := hp.later l₁
  rw [hsum, htotal]
  refine Tx.Safe.ofExcept ?_ (fun _ _ _ _ => trivial)
  intro _ hbalance
  have hle := assertWithinBalance_ok hbalance
  refine create_claims hp.iso (by simp [hw]) ?_ (fun _ _ => trivial)
  intro h₂ l₂ hc
  have hp₂ := (hp₁.later l₂).after
    [((.abono, (Deudas.newAbono env actor (uuid id) memberId dto).id), .update)]
    [.insert (.abono (Deudas.newAbono env actor (uuid id) memberId dto))]
  refine Tx.Safe.ofExcept ?_ (fun _ _ _ _ => trivial)
  intro newPaid hnew
  obtain rfl : newPaid = paid + dto.montoMinor.val := by
    obtain ⟨a, ha, hnew⟩ := ok_of_bind hnew
    obtain ⟨b, hb, hnew⟩ := ok_of_bind hnew
    obtain ⟨rfl, -⟩ := assertMinorUnits_ok.mp ha
    obtain ⟨rfl, -⟩ := assertMinorUnits_ok.mp hb
    exact (assertMinorUnits_ok.mp hnew).1
  unfold Deudas.settle
  split
  · rename_i hsettled
    simp only [orNotFound, Tx.bind_assoc]
    refine updateDeuda_safe hp₂.iso ?_ ?_
    · intro h₃ y l₃
      refine Tx.Safe.orThrow ?_ (fun hn => by cases hn)
      intro _ _
      refine registered_safe (env.now 1) hreq ((hp₂.later l₃).after _ _)
        ((hc.later l₃).after _ _) ?_ hctx rfl rfl rfl hle
      rw [Open.after_pending, Open.after_pending, hw, settleWrites, if_pos hsettled]
      rfl
    · intro h₃ _
      exact Tx.Safe.orThrow (fun _ hn => by cases hn) (fun _ _ _ => trivial)
  · rename_i hopen
    refine registered_safe (env.now 1) hreq hp₂ hc ?_ hctx rfl rfl rfl hle
    rw [Open.after_pending, hw, settleWrites, if_neg hopen]
    rfl

/-- `DeudasService.registerAbono` keeps the guarantee. -/
theorem Deudas.registerAbono_safe {id : String}
    (hreq : reqs[i]? = some (.registerAbono env actor id dto)) :
    (Deudas.registerAbono env actor id dto).Safe d (Commits host d reqs) i (fun _ _ => True) h := by
  refine transaction_safe ?_
  intro h₀ _ _
  simp only [Deudas.registerAbonoInTx, Deudas.authorize]
  refine authorizeAs_safe rfl ?_ (fun _ _ _ => trivial)
  intro h₁ ids _
  refine Tx.Safe.read rfl (fun v => v.findDeudaOfMember _ _) (fun _ => rfl) (fun _ => rfl) ?_
  intro h₂ e₂ _
  refine Tx.Safe.orThrow ?_ (fun _ _ _ => trivial)
  intro existing hex
  obtain ⟨hex, -⟩ := Option.filter_eq_some_iff.mp hex
  obtain ⟨hex, hctx⟩ := Option.filter_eq_some_iff.mp hex
  rw [applyAll_nil] at hex
  -- the debt is still there for its lock, a later version of the row read
  have kept : ∀ h', Extends (Commits host d reqs) i [] (h₂ ++ [.exec i (.findDeudaOfMember (uuid id)
      actor.account.contextId)]) h' → ∃ x, (Txn.replay (S := shop) d h').deudas.find? (uuid id) = some x ∧
      existing.Version x := by
    intro h' e
    refine Lawful.deuda_kept e.lawful e.pre ?_
    rw [replay_sent]
    exact hex
  refine lockDeuda_safe rfl ?_ ?_
  · intro h₃ y e₃ _ _
    obtain ⟨x, hx, hv⟩ := kept h₃ e₃
    refine payLocked_safe (x := x)
      ((Txn.replay (S := shop) d h₃).sumAbonos (uuid id) actor.account.contextId) hreq
      ⟨rfl, List.mem_singleton.mpr rfl, ?_, ?_⟩ rfl
      (hv.contextId.trans (of_decide_eq_true hctx)) hv.totalMinor.symm
    · rw [replay_sent]
      exact hx
    · rw [replay_sent]
  · intro h₃ e₃ _ hnone
    obtain ⟨x, hx, hv⟩ := kept h₃ e₃
    rw [applyAll_nil, Db.findDeuda, hx, Option.filter_some, hv.contextId, if_pos hctx] at hnone
    cases hnone

end

/-! Schedules. -/

/-- A commit of one write to the schedules. -/
theorem cuotasChanged {r : Request} {c : Commit shop} {w : Write} (hreq : reqs[i]? = some r)
    (hp : c.pid = i) (hc : c.writes = [w]) (hw : ∀ v : Db, CuotasChanged v (w.apply v))
    (hr : ∀ d', CuotasChanged (replay (S := shop) d h) d' →
      r.Writes host d i h (replay (S := shop) d h) d' ∧ r.Holds c.locks) :
    Commits host d reqs h c := by
  refine ⟨r, by rw [hp]; exact hreq, .inr ?_⟩
  rw [hc, hp]
  exact hr _ (hw _)

theorem Deudas.addCuota_safe {id : String} {dto : CuotaPlaneadaInputDto}
    (hreq : reqs[i]? = some (.addCuota env actor id dto)) :
    (Deudas.addCuota env actor id dto).Safe d (Commits host d reqs) i (fun _ _ => True) h := by
  refine transaction_safe ?_
  intro h₀ _ _
  simp only [Deudas.addCuotaInTx, Deudas.authorize]
  refine authorizeAs_safe rfl ?_ (fun _ _ _ => trivial)
  intro h₁ ids _
  refine Tx.Safe.read rfl (fun v => v.findDeudaOfMember _ _) (fun _ => rfl) (fun _ => rfl) ?_
  intro h₂ _ _
  refine Tx.Safe.orThrow ?_ (fun _ _ _ => trivial)
  intro _ _
  refine create_claims rfl (by simp) ?_ (fun _ _ => trivial)
  intro h₃ _ _ h₄ _
  exact ⟨cuotasChanged hreq rfl rfl (fun _ => rfl) fun _ hd => ⟨hd, trivial⟩, trivial⟩

theorem Deudas.updateCuota_safe {id cuotaId : String} {dto : UpdateCuotaDto}
    (hreq : reqs[i]? = some (.updateCuota actor id cuotaId dto)) :
    (Deudas.updateCuota actor id cuotaId dto).Safe d (Commits host d reqs) i (fun _ _ => True) h := by
  refine transaction_safe ?_
  intro h₀ _ _
  simp only [Deudas.updateCuotaInTx, Deudas.authorize]
  refine authorizeAs_safe rfl ?_ (fun _ _ _ => trivial)
  intro h₁ ids _
  refine Tx.Safe.read rfl (fun v => v.findCuota _ _ _) (fun _ => rfl) (fun _ => rfl) ?_
  intro h₂ _ _
  refine Tx.Safe.orThrow ?_ (fun _ _ _ => trivial)
  intro _ _
  refine Shop.updateCuota_safe rfl ?_ (fun _ _ _ _ => trivial)
  intro h₃ x ls _ h₄ _
  exact ⟨cuotasChanged hreq rfl rfl (fun _ => rfl) fun _ hd => ⟨hd, trivial⟩, trivial⟩

theorem Deudas.deleteCuota_safe {id cuotaId : String}
    (hreq : reqs[i]? = some (.deleteCuota actor id cuotaId)) :
    (Deudas.deleteCuota actor id cuotaId).Safe d (Commits host d reqs) i (fun _ _ => True) h := by
  refine transaction_safe ?_
  intro h₀ _ _
  simp only [Deudas.deleteCuotaInTx, Deudas.authorize]
  refine authorizeAs_safe rfl ?_ (fun _ _ _ => trivial)
  intro h₁ ids _
  refine Tx.Safe.read rfl (fun v => v.findCuota _ _ _) (fun _ => rfl) (fun _ => rfl) ?_
  intro h₂ _ _
  refine Tx.Safe.orThrow ?_ (fun _ _ _ => trivial)
  intro _ _
  refine Shop.deleteCuota_safe rfl ?_ (fun _ _ _ _ => trivial)
  intro h₃ x ls _ h₄ _
  exact ⟨cuotasChanged hreq rfl rfl (fun _ => rfl) fun _ hd => ⟨hd, trivial⟩, trivial⟩

end

end Bazar.Shop
