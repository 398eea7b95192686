import BazarApi.MemberEmail.Requests

/- Every request keeps the guarantee of its commits, whatever the others do meanwhile. A
   request works under the lock of its person's row; a confirmation under those of its link,
   of its person and of the slot of the address. -/
namespace Bazar.MemberEmail

open Txn Team Registration

section
variable {host : Host} {d : Db} {reqs : List Request} {i : Nat} {h h' : History emails}
variable {r : Request}

theorem commits_quiet (hreq : reqs[i]? = some r) (h : History emails) (c : Commit emails)
    (hc : c.pid = i) (hw : c.writes = []) : Commits host d reqs h c :=
  ⟨r, by rw [hc]; exact hreq, .inl hw⟩

/-- The end of a transaction that wrote nothing. -/
theorem quiet_safe {α : Type} {t : Open emails} {a : α} {Q : α → History emails → Prop}
    {R : Err → History emails → Prop} (hreq : reqs[i]? = some r) (hp : t.pending = [])
    (hq : ∀ h', Q a h') :
    (Tx.ret a : Tx emails α).Safe d (Commits host d reqs) i Q R t h := by
  intro h' _
  exact ⟨commits_quiet hreq _ _ rfl hp, hq _⟩

/-- A link stays as it is while its row is locked. -/
theorem confirmation_locked {held : Locks Key} {k : Uuid}
    (hl : Later (Commits host d reqs) i held h h') (hk : (.confirmation k, .update) ∈ held) :
    (replay (S := emails) d h').confirmations.find? k =
      (replay (S := emails) d h).confirmations.find? k :=
  Later.read_eq (S := emails) d (fun v => v.confirmations.find? k)
    (fun _ _ hne => confirmations_apply_ne hne) hl hk LockMode.noConfusion

/-- A person stays as they are while their row is locked. -/
theorem member_locked {held : Locks Key} {k : Uuid}
    (hl : Later (Commits host d reqs) i held h h') (hk : (.member k, .update) ∈ held) :
    (replay (S := emails) d h').members.find? k = (replay (S := emails) d h).members.find? k :=
  Later.read_eq (S := emails) d (fun v => v.members.find? k)
    (fun _ _ hne => members_apply_ne hne) hl hk LockMode.noConfusion

theorem exec_createConfirmation {row : MemberEmailConfirmation} {v : Db} {x : Unit}
    {ws : List Write} (hx : insertConfirmation row v = .ok (x, ws)) :
    ws = [.insertConfirmation row] ∧ v.confirmations.find? row.id = none := by
  unfold insertConfirmation at hx
  split at hx
  · cases hx
  · rename_i hn
    split at hx
    · cases hx
    · cases hx
      exact ⟨rfl, by simpa using hn⟩

/-- An address given: to a person without one, and that nobody has. -/
theorem giveCorreo_given {id : Uuid} {contextId correo name : String} {v : Db} {ws : List Write}
    (hx : v.giveCorreo id contextId correo = (.given name, ws)) :
    ∃ m, v.members.find? id = some m ∧ m.contextId = contextId ∧ m.correo = none ∧
      m.name = name ∧ (∀ o ∈ v.members.rows, o.correo ≠ some correo) ∧
      ws = [.setCorreo id correo] := by
  unfold Db.giveCorreo updateCorreo at hx
  generalize hm : (v.findSocio id contextId).filter (fun m => m.correo.isNone) = found at hx
  cases found with
  | none => cases hx
  | some m =>
    obtain ⟨hsocio, hnone⟩ := Option.filter_eq_some_iff.mp hm
    obtain ⟨hmember, -⟩ := Option.filter_eq_some_iff.mp hsocio
    obtain ⟨hfind, hctx⟩ := Option.filter_eq_some_iff.mp hmember
    dsimp only at hx
    split at hx
    · cases hx
    · rename_i heq
      split at heq
      · cases heq
      · cases heq
    · rename_i heq
      split at heq
      · cases heq
      · rename_i hfree
        cases heq
        cases hx
        have hkey : m.id = id := Table.find?_key hfind
        refine ⟨m, hfind, of_decide_eq_true hctx, Option.isNone_iff_eq_none.mp hnone, rfl, ?_, ?_⟩
        · intro o ho he
          exact hfree (List.any_eq_true.mpr ⟨o, ho, decide_eq_true he⟩)
        · rw [hkey]

/-- Otherwise it writes nothing. -/
theorem giveCorreo_not {id : Uuid} {contextId correo : String} {v : Db} {g : Given}
    {ws : List Write} (hx : v.giveCorreo id contextId correo = (g, ws))
    (hg : ∀ name, g ≠ .given name) : ws = [] := by
  unfold Db.giveCorreo updateCorreo at hx
  generalize (v.findSocio id contextId).filter (fun m => m.correo.isNone) = found at hx
  cases found with
  | none =>
    cases hx
    rfl
  | some m =>
    dsimp only at hx
    split at hx
    · cases hx
      rfl
    · rename_i heq
      split at heq
      · cases heq
      · cases heq
    · cases hx
      exact absurd rfl (hg _)

/-! A socio writes an address. -/

/-- The statements under the lock of the person. -/
theorem writeInTx_safe {env : Env} {actor : Actor} {rawCorreo correo name : String}
    {t : Open emails} (hreq : reqs[i]? = some (.request env actor rawCorreo)) (hcorreo : correo ≠ "")
    (ht : t.iso = .readCommitted) (hp : t.pending = [])
    (hlock : (.member actor.memberId, .update) ∈ t.held)
    (hunset : ∀ m, (replay (S := emails) d h).members.find? actor.memberId = some m → Unset m) :
    (query (.supersedeAll actor.contextId actor.memberId (env.now 0)) >>= fun _ =>
      query (.createConfirmation (newConfirmation host env actor correo)) >>= fun _ =>
      (pure name : Tx emails String)).Safe d (Commits host d reqs) i (fun _ _ => True)
      (fun _ _ => True) t h := by
  refine Tx.Safe.send ht (fun _ _ _ => trivial) ?_
  intro h₁ x ws e₁ hx
  rw [hp] at hx
  obtain ⟨ids, hids, hws⟩ : ∃ ids, ids = (((replay (S := emails) d h₁).confirmationsOf
      actor.contextId actor.memberId).filter fun x => x.unspent).map (·.id) ∧
      ws = ids.map fun k => .supersede k (env.now 0) := by
    refine ⟨_, rfl, ?_⟩
    rw [List.map_map]
    exact (Prod.mk.inj (Except.ok.inj hx)).2.symm
  subst hws
  refine Tx.Safe.send ht (fun _ _ _ => trivial) ?_
  intro h₂ y ws₂ e₂ hx₂ h₃ e₃
  obtain ⟨rfl, hnone⟩ := exec_createConfirmation hx₂
  rw [Open.after_pending, hp] at hnone
  have l₂ := (e₂.exec (.createConfirmation (newConfirmation host env actor correo))).trans
    (e₃.later.weaken (List.subset_append_left _ _))
  have hlock₁ := List.mem_append_left (taken (S := emails)
    (.supersedeAll actor.contextId actor.memberId (env.now 0))
    (applyAll (S := emails) (replay (S := emails) d h₁) t.pending)
    (ids.map fun k => Write.supersede k (env.now 0))) hlock
  refine ⟨⟨_, hreq, .inr ?_⟩, trivial⟩
  change Effect host d h₃ _ _ ((t.pending ++ _) ++ _)
  rw [hp, List.nil_append]
  refine .requested (List.mem_append_left _ hlock₁) hcorreo ?_ ?_ ?_
  · intro m hm
    refine hunset m ?_
    rw [← member_locked (e₁.exec (.supersedeAll actor.contextId actor.memberId (env.now 0))) hlock,
      ← member_locked l₂ hlock₁]
    exact hm
  · -- nobody else inserts it
    have hsame := e₃.later.since_write (S := emails) d
      (fun v => v.confirmations.find? (env.serverId 0))
      (w := .insertConfirmation (newConfirmation host env actor correo))
      (fun d w hne => confirmations_apply_ne hne) List.mem_cons_self
    refine hsame.trans ?_
    by_contra hsome
    obtain ⟨z, hz⟩ := Option.ne_none_iff_exists'.mp hsome
    obtain ⟨z', hz'⟩ := find?_applyAll_present ([] ++ _) hz
    cases hnone.symm.trans hz'
  · intro k z hz hof hun
    obtain ⟨y, hy, hid, hyof, hyun⟩ := Later.link_old l₂ hlock₁ z (Table.mem_of_find? hz) hof hun
    rw [replay_sent] at hy
    rw [hids]
    refine List.mem_map.mpr ⟨y, List.mem_filter.mpr ⟨List.mem_filter.mpr
      ⟨hy, decide_eq_true hyof⟩, decide_eq_true hyun⟩, ?_⟩
    exact hid.trans (Table.find?_key hz)

theorem requestInTx_safe {env : Env} {actor : Actor} {rawCorreo correo : String}
    (hreq : reqs[i]? = some (.request env actor rawCorreo)) (hcorreo : correo ≠ "") :
    (requestInTx host env actor correo).Safe d (Commits host d reqs) i (fun _ _ => True)
      (fun _ _ => True) ⟨.readCommitted, h, [], []⟩ h := by
  refine Tx.Safe.send rfl (fun _ _ _ => trivial) ?_
  intro h₁ x ws e₁ hx
  cases hx
  generalize ht : Open.after (S := emails) ⟨.readCommitted, h, [], []⟩ _ _ = t
  have hiso : t.iso = .readCommitted := by rw [← ht]; rfl
  have hp : t.pending = [] := by rw [← ht]; rfl
  refine Tx.Safe.read hiso (fun v => v.findSocio _ _) (fun _ => rfl) (fun _ => rfl) ?_
  intro h₂ e₂ l₂
  rw [hp]
  refine Tx.Safe.orThrow ?_ (fun _ _ _ => trivial)
  intro member hmember
  have hmember : (replay (S := emails) d h₂).findSocio actor.memberId actor.contextId =
      some member := hmember
  obtain ⟨hfound, -⟩ := Option.filter_eq_some_iff.mp hmember
  obtain ⟨hfind, hctx⟩ := Option.filter_eq_some_iff.mp hfound
  -- the person was there to be locked
  have hlock : (.member actor.memberId, .update) ∈ t.held := by
    obtain ⟨m, hm, hmctx⟩ := Lawful.member_old e₂.lawful e₂.pre member hfind
    rw [replay_sent] at hm
    have hkey : m.id = actor.memberId := Table.find?_key hm
    have hlocked : (replay (S := emails) d h₁).findMember actor.memberId actor.contextId = some m :=
      Option.filter_eq_some_iff.mpr ⟨hm, decide_eq_true (hmctx.trans (of_decide_eq_true hctx))⟩
    rw [← ht]
    refine mem_held_of_lock (S := emails) ?_
    change _ ∈ ((replay (S := emails) d h₁).findMember _ _).toList.map _
    rw [hlocked, ← hkey]
    exact List.mem_singleton_self _
  refine Tx.Safe.require (fun hunset => ?_) (fun _ _ _ => trivial)
  refine Tx.Safe.read hiso (fun v => (v.memberCorreoTaken actor.memberId correo).1) ?_
    (fun _ => rfl) ?_
  · intro v
    change Except.ok _ = Except.ok _
    unfold Db.memberCorreoTaken
    split <;> rfl
  intro h₃ _ l₃
  refine Tx.Safe.read hiso (fun v => v.findLogin _) (fun _ => rfl) (fun _ => rfl) ?_
  intro h₄ _ l₄
  refine Tx.Safe.require (fun _ => ?_) (fun _ _ _ => trivial)
  refine writeInTx_safe hreq hcorreo hiso hp hlock ?_
  intro m hm
  rw [member_locked (l₃.trans l₄) hlock, replay_sent] at hm
  cases hfind.symm.trans hm
  intro s hs
  rw [hs] at hunset
  exact of_decide_eq_true hunset

theorem normalizeSocioEmail_ne {raw correo : String}
    (hn : normalizeSocioEmail host.toHost raw = some correo) : correo ≠ "" := by
  unfold normalizeSocioEmail at hn
  dsimp only at hn
  split at hn
  · cases hn
  · rename_i hpat
    cases hn
    rintro he
    rw [he] at hpat
    exact hpat (.inr (by decide))

theorem request_safe {env : Env} {actor : Actor} {rawCorreo : String}
    (hreq : reqs[i]? = some (.request env actor rawCorreo)) :
    (request host env actor rawCorreo).Safe d (Commits host d reqs) i (fun _ _ => True) h := by
  unfold request
  cases hn : normalizeSocioEmail host.toHost rawCorreo with
  | none => exact fun _ _ => trivial
  | some correo =>
    refine ⟨?_, fun _ _ _ _ _ _ _ => trivial⟩
    intro h₁ e₁
    refine (requestInTx_safe hreq (normalizeSocioEmail_ne hn)).mono ?_ (fun _ _ _ _ _ => trivial)
    intro names h₂ _
    change Call.Safe (S := emails) d _ i _ (if env.delivered = true then _ else _) h₂
    split
    · exact fun _ _ => trivial
    refine ⟨?_, fun _ _ _ _ _ _ _ => trivial⟩
    intro h₃ e₃
    refine Tx.Safe.send rfl (fun _ _ _ _ _ => trivial) ?_
    intro h₄ x ws e₄ hx
    have hws : ws = [.supersede (env.serverId 0) (env.now 1)] := by
      simp only [Sql.exec] at hx
      split at hx
      · exact (Prod.mk.inj (Except.ok.inj hx)).2.symm
      · cases hx
    subst hws
    intro h₅ e₅
    exact ⟨⟨_, hreq, .inr .failed⟩, fun _ _ => trivial⟩

/-! Confirming. -/

/-- The statements that spend a locked link. -/
theorem spendInTx_safe {env : Env} {token name : String} {x : MemberEmailConfirmation}
    {t : Open emails} {ws : List Write} (hreq : reqs[i]? = some (.confirm env token))
    (ht : t.iso = .readCommitted) (hp : t.pending = [])
    (hlock : (.confirmation x.id, .update) ∈ t.held) (hunspent : x.unspent)
    (hlive : env.now 0 < x.expiresAt) (htoken : x.tokenHash = hashSingleUseToken host token)
    (hx : (replay (S := emails) d h).confirmations.find? x.id = some x)
    (hgiven : (replay (S := emails) d h).giveCorreo x.memberId x.contextId x.correo =
      (.given name, ws)) :
    (query (.useConfirmation x.id (env.now 0)) >>= fun _ =>
      query (.supersedeOthers x.id x.contextId x.memberId (env.now 0)) >>= fun _ =>
      query (.others x.contextId x.memberId) >>= fun notify =>
      (pure (some ⟨x.correo, name, x.contextId, x.memberId, notify⟩) :
        Tx emails (Option Confirmed))).Safe d (Commits host d reqs) i (fun _ _ => True)
      (fun _ _ => True) (t.after (S := emails) (taken (S := emails)
        (.giveCorreo x.memberId x.contextId x.correo)
        (applyAll (S := emails) (replay (S := emails) d h) t.pending) ws) ws)
      (h ++ [.exec i (.giveCorreo x.memberId x.contextId x.correo)]) := by
  obtain ⟨m, hm, hmctx, hnone, -, hfree, rfl⟩ := giveCorreo_given hgiven
  generalize ht₁ : t.after (S := emails) (taken (S := emails)
    (.giveCorreo x.memberId x.contextId x.correo)
    (applyAll (S := emails) (replay (S := emails) d h) t.pending)
    [.setCorreo x.memberId x.correo]) [.setCorreo x.memberId x.correo] = t₁
  have hiso : t₁.iso = .readCommitted := by rw [← ht₁]; exact ht
  have hp₁ : t₁.pending = [.setCorreo x.memberId x.correo] := by
    rw [← ht₁, Open.after_pending, hp, List.nil_append]
  have hlock₁ : (.confirmation x.id, .update) ∈ t₁.held := by
    rw [← ht₁]
    exact List.mem_append_left _ hlock
  have hperson : (.member x.memberId, .update) ∈ t₁.held := by
    rw [← ht₁]
    exact mem_held_of_write (S := emails) (w := .setCorreo x.memberId x.correo) List.mem_cons_self
  have hslot : (.correo x.correo, .update) ∈ t₁.held := by
    rw [← ht₁]
    refine mem_held_of_lock (S := emails) ?_
    change _ ∈ (Db.giveCorreo (applyAll (S := emails) _ t.pending) _ _ _).2.map _
    rw [hp]
    change _ ∈ ((replay (S := emails) d h).giveCorreo _ _ _).2.map _
    rw [hgiven]
    exact List.mem_singleton_self _
  refine Tx.Safe.send hiso (fun _ _ _ => trivial) ?_
  intro h₂ u ws₂ e₂ hx₂
  have hws : ws₂ = [.use x.id (env.now 0)] := by
    obtain ⟨-, hws⟩ := Prod.mk.inj (Except.ok.inj hx₂)
    rw [← hws, hp₁]
    change (((replay (S := emails) d h₂).confirmations.find? x.id).toList.map _) = _
    rw [confirmation_locked e₂.later hlock₁, replay_sent, hx]
    rfl
  subst hws
  refine Tx.Safe.send hiso (fun _ _ _ => trivial) ?_
  intro h₃ v ws₃ e₃ hx₃
  have l₂ := (e₂.exec (.useConfirmation x.id (env.now 0))).trans
    (e₃.later.weaken (List.subset_append_left _ _))
  obtain ⟨ids, hids, hws⟩ : ∃ ids, ids = (((applyAll (S := emails) (replay (S := emails) d h₃)
      [.setCorreo x.memberId x.correo, .use x.id (env.now 0)]).confirmationsOf x.contextId
      x.memberId).filter fun y => y.id ≠ x.id ∧ y.unspent).map (·.id) ∧
      ws₃ = ids.map fun k => .supersede k (env.now 0) := by
    refine ⟨_, rfl, ?_⟩
    rw [List.map_map]
    obtain ⟨-, hws⟩ := Prod.mk.inj (Except.ok.inj hx₃)
    rw [← hws, Open.after_pending, hp₁]
    rfl
  subst hws
  refine Tx.Safe.read hiso (fun v => v.others _ _) (fun _ => rfl) (fun _ => rfl) ?_
  intro h₄ e₄ l₄ h₅ e₅
  refine ⟨⟨_, hreq, .inr ?_⟩, trivial⟩
  change Effect host d h₅ _ _ ((t₁.pending ++ _) ++ _)
  rw [hp₁]
  -- from each statement to the commit
  have m₃ := (e₃.exec (.supersedeOthers x.id x.contextId x.memberId (env.now 0))).trans
    ((l₄.trans e₅.later).weaken (List.subset_append_left _ _))
  have m₂ := (e₂.exec (.useConfirmation x.id (env.now 0))).trans
    (m₃.weaken (List.subset_append_left _ _))
  refine .confirmed (m := m) ?_ hunspent hlive htoken
    (List.mem_append_left _ (List.mem_append_left _ hslot)) ?_ hnone ?_ ?_ ?_
  · rw [confirmation_locked m₂ hlock₁, replay_sent]
    exact hx
  · rw [member_locked m₂ hperson, replay_sent]
    exact hm
  · refine Later.correo_free m₂ hslot ?_
    rw [replay_sent]
    exact hfree
  · rw [hids]
    intro hmem
    obtain ⟨y, hy, hid⟩ := List.mem_map.mp hmem
    exact (of_decide_eq_true (List.mem_filter.mp hy).2).1 hid
  · intro k y hy hof hun hne
    obtain ⟨z, hz, hid, hzof, hzun⟩ := Later.link_old
      ((l₄.trans e₅.later).weaken (List.subset_append_left _ _))
      (List.mem_append_left _ hperson) y (Table.mem_of_find? hy) hof hun
    rw [replay_sent] at hz
    have hkey : z.id = k := hid.trans (Table.find?_key hy)
    rw [hids]
    refine List.mem_map.mpr ⟨z, List.mem_filter.mpr ⟨List.mem_filter.mpr ⟨?_,
      decide_eq_true hzof⟩, decide_eq_true ⟨by rw [hkey]; exact hne, hzun⟩⟩, hkey⟩
    refine Table.mem_of_find? (k := z.id) ?_
    refine (Table.find?_modify_ne (used_id _) (by rw [hkey]; exact hne)).trans ?_
    exact Table.find?_of_mem hz

theorem confirmInTx_safe {env : Env} {token : String} (hreq : reqs[i]? = some (.confirm env token)) :
    (confirmInTx env (hashSingleUseToken host token)).Safe d (Commits host d reqs) i
      (fun _ _ => True) (fun _ _ => True) ⟨.readCommitted, h, [], []⟩ h := by
  refine Tx.Safe.send rfl (fun _ _ _ => trivial) ?_
  intro h₁ found ws e₁ hx
  cases hx
  generalize hfound : Db.findConfirmation _ _ _ = found
  cases found with
  | none => exact quiet_safe hreq rfl fun _ => trivial
  | some x =>
    have hfound : (replay (S := emails) d h₁).findConfirmation (hashSingleUseToken host token)
        (env.now 0) = some x := hfound
    have hmatch := List.find?_some hfound
    obtain ⟨htoken, hunspent, hlive⟩ := of_decide_eq_true hmatch
    have hx := Table.find?_of_mem (List.mem_of_find?_eq_some hfound)
    generalize ht : Open.after (S := emails) ⟨.readCommitted, h, [], []⟩ _ _ = t
    have hiso : t.iso = .readCommitted := by rw [← ht]; rfl
    have hp : t.pending = [] := by rw [← ht]; rfl
    have hlock : (.confirmation x.id, .update) ∈ t.held := by
      rw [← ht]
      refine mem_held_of_lock (S := emails) ?_
      change _ ∈ ((replay (S := emails) d h₁).findConfirmation _ _).toList.map _
      rw [hfound]
      exact List.mem_singleton_self _
    refine Tx.Safe.send hiso (fun _ _ _ => trivial) ?_
    intro h₂ given ws e₂ hgiven
    rw [hp] at hgiven
    have hgiven : (replay (S := emails) d h₂).giveCorreo x.memberId x.contextId x.correo =
        (given, ws) := Except.ok.inj hgiven
    cases given with
    | nobody =>
      obtain rfl := giveCorreo_not hgiven fun _ => Given.noConfusion
      refine quiet_safe hreq ?_ fun _ => trivial
      rw [Open.after_pending, hp, List.nil_append]
    | taken =>
      obtain rfl := giveCorreo_not hgiven fun _ => Given.noConfusion
      refine quiet_safe hreq ?_ fun _ => trivial
      rw [Open.after_pending, hp, List.nil_append]
    | given name =>
      have hx₂ : (replay (S := emails) d h₂).confirmations.find? x.id = some x := by
        rw [confirmation_locked e₂.later hlock, replay_sent]
        exact hx
      exact spendInTx_safe hreq hiso hp hlock hunspent hlive htoken hx₂ hgiven

theorem confirm_safe {env : Env} {token : String} (hreq : reqs[i]? = some (.confirm env token)) :
    (confirm host env token).Safe d (Commits host d reqs) i (fun _ _ => True) h := by
  refine ⟨?_, fun _ _ _ _ _ _ _ => trivial⟩
  intro h₁ _
  refine (confirmInTx_safe hreq).mono ?_ (fun _ _ _ _ _ => trivial)
  intro row h₂ _
  cases row <;> exact fun _ _ => trivial

/-- Every request keeps the guarantee. -/
theorem Request.safe (hreq : reqs[i]? = some r) :
    (r.call host).Safe d (Commits host d reqs) i (fun _ _ => True) [] := by
  cases r with
  | request env actor rawCorreo => exact Call.Safe.map (request_safe hreq)
  | confirm env token => exact Call.Safe.map (confirm_safe hreq)

end

/-! Runs. -/

/-- A state of a run in which the requests are served from the database `d₀`. -/
def Reachable (host : Host) (d₀ : Db) (reqs : List Request) (s : Sys emails Answer) : Prop :=
  Sys.Reach (S := emails) d₀ (Sys.initial (reqs.map (Request.call host))) s

/-- The requests of a run keep their guarantee in each of its states. -/
theorem Reachable.ok {host : Host} {d₀ : Db} {reqs : List Request} {s : Sys emails Answer}
    (hr : Reachable host d₀ reqs s) : s.Ok d₀ (Commits host d₀ reqs) (fun _ _ _ => True) := by
  refine Sys.Reach.ok hr (Sys.initial_ok ?_)
  intro i c hc
  rw [List.getElem?_map] at hc
  obtain ⟨r, hreq, rfl⟩ := Option.map_eq_some_iff.mp hc
  exact Request.safe hreq

/-- Every commit of a run did what its request may do. -/
theorem Reachable.lawful {host : Host} {d₀ : Db} {reqs : List Request} {s : Sys emails Answer}
    (hr : Reachable host d₀ reqs s) : Lawful (Commits host d₀ reqs) s.hist := hr.ok.lawful

/-! A socio without an address, for concrete runs. -/

namespace Demo

def host : Host :=
  { sha256Hex := id, trimLower := id, trim := id, unaccent := id, expired := fun _ => false
    maskEmail := id }

/-- Identifiers of a request, apart from those of the others. -/
def env (n : Nat) (now : Instant) : Env :=
  { serverId := fun k => ⟨String.ofList (List.replicate (20 * n + k) 'x')⟩, now := fun _ => now
    token := String.ofList (List.replicate n 'x'), delivered := true }

def luis : Member :=
  { id := ⟨"luis"⟩, name := "Luis", role := .socio, contextId := "bazar", active := true
    correo := none }

def actor : Actor := { contextId := "bazar", accountId := ⟨"login"⟩, memberId := ⟨"luis"⟩ }

def bazar : Db := { members := ⟨[luis], by decide⟩, accounts := .empty, confirmations := .empty }

/-- The state after the requests took the steps of a schedule. -/
def run (d : Db) (reqs : List Request) (steps : List Nat) : Sys emails Answer :=
  (Sys.initial (reqs.map (Request.call host))).scheduled d steps

theorem reachable {d : Db} {reqs : List Request} {steps : List Nat}
    (h : ((Sys.initial (reqs.map (Request.call host))).schedule (S := emails) d steps).isSome =
      true) : Reachable host d reqs (run d reqs steps) :=
  Sys.scheduled_reach h

end Demo

end Bazar.MemberEmail
