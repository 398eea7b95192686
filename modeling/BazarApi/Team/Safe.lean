import BazarApi.Team.Requests

/- Every request of the team keeps the guarantee of `Requests`, whatever the others do in
   between. What a row lock gives is used once in each proof: from the statement that
   wrote or locked a device to the commit, nobody else writes it. -/
namespace Bazar.Team

open Txn

section
variable {d : Db} {G : History team → Commit team → Prop} {i : Nat} {h h' : History team}
variable {β : Type} {Q : β → History team → Prop} {R : Err → History team → Prop} {t : Open team}

/-- A device stays as the statement found that wrote it. -/
theorem device_since {k : Uuid} {q : Sql} {v : Db} {w : Write} {ws : List Write}
    (he : Later (S := team) G i (t.after (taken (S := team) q v ws) ws).held (h ++ [.exec i q]) h')
    (hw : w ∈ ws) (hk : w.key = .device k) :
    (replay (S := team) d h').devices.find? k = (replay (S := team) d h).devices.find? k := by
  refine he.since_write (S := team) d (fun v => v.devices.find? k) ?_ hw
  intro d w' hne
  refine devices_apply_ne ?_
  rwa [← hk]

/-- The actor is read again; nothing is written. -/
theorem authorize_safe {actor : Actor} {f : Unit → Tx team β} (ht : t.iso = .readCommitted)
    (hs : ∀ h', Later G i t.held h h' → (f ()).Safe d G i Q R t h')
    (hn : ∀ e h', Later G i t.held h h' → R e h') :
    (Devices.authorize actor >>= f).Safe d G i Q R t h := by
  simp only [Devices.authorize, query, Tx.bind_assoc]
  refine Tx.Safe.orThrow ?_ ?_
  · intro selection _
    refine Tx.Safe.read ht (fun v => v.findAccount _ _) (fun _ => rfl) (fun _ => rfl) ?_
    intro h₁ _ l₁
    refine Tx.Safe.read ht (fun v => v.findMember _ _ _) (fun _ => rfl) (fun _ => rfl) ?_
    intro h₂ _ l₂
    refine Tx.Safe.read ht (fun v => v.findAuthorizedDevice _ _) (fun _ => rfl) (fun _ => rfl) ?_
    intro h₃ _ l₃
    have l := (l₁.trans l₂).trans l₃
    refine Tx.Safe.require ?_ ?_
    · intro _
      exact hs _ l
    · intro _ h₄ e₄
      exact hn _ h₄ (l.trans e₄.later)
  · intro _ h₁ e₁
    exact hn _ h₁ e₁.later

/-- The end of a transaction that sends an email or shows the code. -/
theorem deliverOrReveal_safe {env : Env} {device : Device} {correo : Option String}
    {Q : Devices.DeviceAnswer → History team → Prop}
    (hs : ∀ a h', Extends G i t.held h h' → G h' (t.commit i) ∧ Q a (h' ++ [.commit (t.commit i)]))
    (hn : ∀ e h', Later G i t.held h h' → R e h') :
    (Devices.deliverOrReveal env device correo).Safe d G i Q R t h := by
  cases correo with
  | none => exact hs _
  | some address =>
    refine Tx.Safe.orThrow ?_ ?_
    · intro a _
      exact hs _
    · intro _ h₁ e₁
      exact hn _ h₁ e₁.later

/-- A transaction that is the whole request. -/
theorem transaction_safe {α : Type} {body : Tx team α} {Q : Except Err α → History team → Prop}
    (hb : ∀ h', Extends G i [] h h' → body.Safe d G i (fun a h'' => ∀ h₃, Extends G i [] h'' h₃ →
      Q (.ok a) h₃) (fun e h'' => ∀ h₃, Extends G i [] h'' h₃ → Q (.error e) h₃)
        ⟨.readCommitted, h', [], []⟩ h')
    (hf : ∀ e h', Lawful G h' → Q (.error e) h') :
    (Call.transaction .readCommitted body).Safe d G i Q h := by
  refine ⟨hb, ?_⟩
  intro e h' _ _ hl h'' he
  exact hf e h'' he.lawful

end

section
variable {host : Host} {d : Db} {reqs : List Request} {i : Nat} {h : History team}
variable {r : Request}

theorem commits_quiet (hreq : reqs[i]? = some r) (h : History team) (c : Commit team)
    (hc : c.pid = i) (hw : c.writes = []) : Commits host d reqs h c :=
  ⟨r, by rw [hc]; exact hreq, .inl hw⟩

theorem exec_createDevice {row : Device} {v : Db} {x : Device} {ws : List Write}
    (hx : insertDevice row v = .ok (x, ws)) :
    x = row ∧ ws = [.insertDevice row] ∧ v.devices.find? row.id = none := by
  unfold insertDevice at hx
  split at hx
  · cases hx
  · rename_i hn
    split at hx
    · cases hx
    · cases hx
      exact ⟨rfl, rfl, by simpa using hn⟩

theorem exec_updateDevice {id : Uuid} {data : DeviceUpdate} {v : Db} {x : Device} {ws : List Write}
    (hx : changeDevice id data v = .ok (x, ws)) :
    ∃ row, v.devices.find? id = some row ∧ x = data.apply row ∧ ws = [.updateDevice id data] := by
  unfold changeDevice at hx
  split at hx
  · cases hx
  · rename_i row hrow
    split at hx
    · cases hx
    · cases hx
      exact ⟨row, hrow, rfl, rfl⟩

theorem create_safe {env : Env} {actor : Actor} {dto : CreateDeviceDto}
    (hreq : reqs[i]? = some (.create env actor dto)) (hq : Quiet i h) :
    (Devices.create env actor dto).Safe d (Commits host d reqs) i (fun _ _ => True) h := by
  refine transaction_safe ?_ (fun _ _ _ => trivial)
  intro h₁ e₁
  refine authorize_safe rfl ?_ (fun _ _ _ _ _ => trivial)
  intro h₂ l₂
  refine Tx.Safe.send rfl (fun _ _ _ _ _ => trivial) ?_
  intro h₃ x ws e₃ hx
  obtain ⟨-, rfl, hnew⟩ := exec_createDevice hx
  refine deliverOrReveal_safe ?_ (fun _ _ _ _ _ => trivial)
  intro a h₄ e₄
  refine ⟨⟨_, hreq, .inr ⟨?_, .created ?_⟩⟩, fun _ _ => trivial⟩
  · exact (e₁.since.trans (l₂.since.trans ((e₃.exec _).since.trans e₄.since))).quiet hq
  · exact (device_since e₄.later (List.mem_singleton.mpr rfl) rfl).trans hnew

/-- What a request may be answered. -/
def Request.Post (host : Host) (d₀ : Db) (reqs : List Request) (i : Nat) (r : Request)
    (a : Except Err Answer) (h : History team) : Prop :=
  match r, a with
  | .identify _ _ _, .ok (.identified ⟨id, some _⟩) =>
    ∃ c, Event.commit c ∈ h ∧ c.pid = i ∧ Activates reqs c id
  | .canActivate _ headers, .ok (.selected _ deviceId) =>
    ∃ h₁ contextId device, h₁ ++ [.exec i (.findAuthorizedDevice deviceId contextId)] <+: h ∧
      (replay (S := team) d₀ h₁).findAuthorizedDevice deviceId contextId = some device ∧
      ContextGuard.tokenAccepted host headers device = true
  | _, _ => True

theorem identify_safe {env : Env} {account : AccountRef} {dto : IdentifyDeviceDto}
    (hreq : reqs[i]? = some (.identify env account dto)) (hn : ∀ e ∈ h, e.pid ≠ i) :
    (Devices.identify host env account dto).Safe d (Commits host d reqs) i
      (fun a h' => (Request.identify env account dto).Post host d reqs i (a.map .identified) h') h := by
  refine transaction_safe ?_ (fun _ _ _ => trivial)
  intro h₁ e₁
  have hquiet : ∀ h' c, c.pid = i → c.writes = [] → Commits host d reqs h' c := commits_quiet hreq
  refine Tx.Safe.read rfl (fun v => v.findByIdentifier _ _ _) (fun _ => rfl) (fun _ => rfl) ?_
  intro h₂ e₂ l₂
  refine Tx.Safe.orThrow ?_ (fun _ _ _ _ _ => trivial)
  intro device hread
  cases hst : device.status with
  | revocado => exact fun _ _ _ _ => trivial
  | activo =>
    refine Tx.Safe.require (fun _ => ?_) (fun _ _ _ _ _ => trivial)
    refine Tx.Safe.require (fun _ => ?_) (fun _ _ _ _ _ => trivial)
    intro h₃ _
    exact ⟨hquiet _ _ rfl rfl, fun _ _ => trivial⟩
  | pendienteActivacion =>
    refine Tx.Safe.send rfl (fun _ _ _ _ _ => trivial) ?_
    intro h₃ count ws e₃ hx
    simp only [Sql.exec] at hx
    split at hx
    · rename_i hclaim
      cases hx
      refine Tx.Safe.require (fun _ => ?_) (fun _ _ _ _ _ => trivial)
      obtain ⟨row, hrow⟩ := Option.isSome_iff_exists.mp hclaim
      obtain ⟨hrow, hholds⟩ := Option.filter_eq_some_iff.mp hrow
      intro h₄ e₄
      -- what the lookup read, seen from the commit
      have hpre : h₂ ++ [.exec i (.findByIdentifier account.contextId dto.identifier dto.name)] <+: h₄ :=
        e₃.pre.trans ((List.prefix_append _ _).trans e₄.pre)
      obtain ⟨g', rfl⟩ := hpre
      have hpending : row.status = .pendienteActivacion :=
        (of_decide_eq_true hholds).2 _ rfl
      have hrow' := (device_since e₄.later (List.mem_singleton.mpr rfl) rfl).trans hrow
      have hfirst := (e₁.trans e₂).unseen hn
      refine ⟨⟨_, hreq, .inr ⟨?_, ?_⟩⟩, ?_⟩
      · exact (e₁.since.trans (l₂.since.trans ((e₃.exec _).since.trans e₄.since))).quiet
          (quiet_of_unseen hn)
      · exact .activated (List.append_assoc _ _ _) hfirst hread hrow' hpending
      · intro h₅ e₅
        refine ⟨_, e₅.pre.subset (List.mem_append_right _ (List.mem_singleton.mpr rfl)), rfl,
          ⟨_, _, _, hreq⟩, _, List.mem_singleton.mpr rfl⟩
    · cases hx
      refine Tx.Safe.require (fun hn => absurd rfl hn) (fun _ _ _ _ _ => trivial)

/-- The lock, the actor and the device of a management request: only read. -/
theorem target_safe {β : Type} {Q : β → History team → Prop} {R : Err → History team → Prop}
    {t : Open team} {G : History team → Commit team → Prop} {actor : Actor} {id : String}
    {f : Device → Tx team β} (ht : t.iso = .readCommitted) (hp : t.pending = [])
    (hs : ∀ h' t' target, t'.iso = .readCommitted → t'.pending = [] → Later G i [] h h' →
      (f target).Safe d G i Q R t' h')
    (hn : ∀ e h', R e h') :
    (query (.lockDevice (uuid id) actor.account.contextId) >>= fun _ =>
      Devices.authorize actor >>= fun _ =>
      query (.findDevice (uuid id) actor.account.contextId) >>= fun found =>
      Tx.orThrow found (Err.notFound "Not Found") >>= f).Safe d G i Q R t h := by
  refine Tx.Safe.send ht (fun e h' _ => hn e h') ?_
  intro h₁ x ws e₁ hx
  cases hx
  refine authorize_safe ht ?_ (fun e h' _ => hn e h')
  intro h₂ l₂
  refine Tx.Safe.read ht (fun v => v.findDevice _ _) (fun _ => rfl) (fun _ => rfl) ?_
  intro h₃ e₃ l₃
  refine Tx.Safe.orThrow ?_ (fun _ _ _ => hn _ _)
  intro target _
  have l := ((e₁.exec (.lockDevice (uuid id) actor.account.contextId)).weaken (List.nil_subset _)).trans
    ((l₂.weaken (List.nil_subset _)).trans (l₃.weaken (List.nil_subset _)))
  exact hs _ _ target ht (by rw [Open.after_pending, hp]; rfl) l

theorem revoke_safe {env : Env} {actor : Actor} {id : String}
    (hreq : reqs[i]? = some (.revoke env actor id)) (hq : Quiet i h) :
    (Devices.revoke env actor id).Safe d (Commits host d reqs) i (fun _ _ => True) h := by
  refine transaction_safe ?_ (fun _ _ _ => trivial)
  intro h₁ e₁
  refine target_safe rfl rfl ?_ (fun _ _ _ _ => trivial)
  intro h₂ t target ht hp l₂
  split
  · intro h₃ _
    exact ⟨commits_quiet hreq _ _ rfl hp, fun _ _ => trivial⟩
  · refine Tx.Safe.send ht (fun _ _ _ _ _ => trivial) ?_
    intro h₃ x ws e₃ hx
    obtain ⟨row, hrow, -, rfl⟩ := exec_updateDevice hx
    rw [hp] at hrow
    intro h₄ e₄
    have hrow' := (device_since e₄.later (List.mem_singleton.mpr rfl) rfl).trans hrow
    have hw : (t.pending ++ [Write.updateDevice (uuid id) (Devices.revocation env)]) =
        [.updateDevice (uuid id) (Devices.revocation env)] := by rw [hp]; rfl
    refine ⟨⟨_, hreq, .inr ⟨?_, ?_⟩⟩, fun _ _ => trivial⟩
    · exact (e₁.since.trans (l₂.since.trans ((e₃.exec _).since.trans e₄.since))).quiet hq
    · change Effect host d i h₄ _ (t.pending ++ _)
      rw [hw]
      exact .revoked hrow'

theorem reissue_safe {env : Env} {actor : Actor} {id : String} {dto : ReissueDeviceDto}
    (hreq : reqs[i]? = some (.reissue env actor id dto)) (hq : Quiet i h) :
    (Devices.reissue env actor id dto).Safe d (Commits host d reqs) i (fun _ _ => True) h := by
  refine transaction_safe ?_ (fun _ _ _ => trivial)
  intro h₁ e₁
  refine target_safe rfl rfl ?_ (fun _ _ _ _ => trivial)
  intro h₂ t target ht hp l₂
  refine Tx.Safe.send ht (fun _ _ _ _ _ => trivial) ?_
  intro h₃ x ws e₃ hx
  obtain ⟨row, hrow, -, rfl⟩ := exec_updateDevice hx
  rw [hp] at hrow
  refine deliverOrReveal_safe ?_ (fun _ _ _ _ _ => trivial)
  intro a h₄ e₄
  have hrow' := (device_since e₄.later (List.mem_singleton.mpr rfl) rfl).trans hrow
  have hw : (t.pending ++ [Write.updateDevice (uuid id) (Devices.reissuance env)]) =
      [.updateDevice (uuid id) (Devices.reissuance env)] := by rw [hp]; rfl
  refine ⟨⟨_, hreq, .inr ⟨?_, ?_⟩⟩, fun _ _ => trivial⟩
  · exact (e₁.since.trans (l₂.since.trans ((e₃.exec _).since.trans e₄.since))).quiet hq
  · change Effect host d i h₄ _ (t.pending ++ _)
    rw [hw]
    exact .reissued hrow'

/-- The end of a transaction that wrote nothing. -/
theorem quiet_safe {α : Type} {r : Request} {t : Open team} {a : α}
    {Q : α → History team → Prop} {R : Err → History team → Prop}
    (hreq : reqs[i]? = some r) (hp : t.pending = [])
    (hs : ∀ h', Extends (Commits host d reqs) i t.held h h' → Q a (h' ++ [.commit (t.commit i)])) :
    (Tx.ret a : Tx team α).Safe d (Commits host d reqs) i Q R t h := by
  intro h' he
  exact ⟨commits_quiet hreq _ _ rfl hp, hs h' he⟩

theorem exec_createAccount {row : Account} {v : Db} {x : Unit} {ws : List Write}
    (hx : insertAccount row v = .ok (x, ws)) : ws = [.insertAccount row] := by
  unfold insertAccount at hx
  split at hx
  · cases hx
  · split at hx
    · cases hx
    · split at hx
      · cases hx
      · cases hx
        rfl

theorem acceptInTx_safe {env : Env} {token tokenHash : String}
    (hreq : reqs[i]? = some (.accept env token)) (hq : Quiet i h) :
    (Invitations.acceptInTx host env tokenHash).Safe d (Commits host d reqs) i (fun _ _ => True)
      (fun _ _ => True) ⟨.readCommitted, h, [], []⟩ h := by
  refine Tx.Safe.send rfl (fun _ _ _ => trivial) ?_
  intro h₁ found ws e₁ hx
  cases hx
  generalize Db.findInvitation _ _ _ = found
  cases found with
  | none => exact quiet_safe hreq rfl fun _ _ => trivial
  | some inv =>
    refine Tx.Safe.read rfl (fun v => v.findMember _ _ _) (fun _ => rfl) (fun _ => rfl) ?_
    intro h₂ e₂ l₂
    generalize Db.findMember _ _ _ _ = found
    cases found with
    | none => exact quiet_safe hreq rfl fun _ _ => trivial
    | some member =>
      refine Tx.Safe.read rfl (fun v => v.accounts.rows.any _) (fun _ => rfl) (fun _ => rfl) ?_
      intro h₃ e₃ l₃
      refine Tx.Safe.read rfl (fun v => v.accounts.rows.any _) (fun _ => rfl) (fun _ => rfl) ?_
      intro h₄ e₄ l₄
      generalize List.any _ _ = hasAccount
      generalize List.any _ _ = nameTaken
      cases nameTaken with
      | true => exact quiet_safe hreq rfl fun _ _ => trivial
      | false =>
      cases hasAccount with
      | true => exact quiet_safe hreq rfl fun _ _ => trivial
      | false =>
        refine Tx.Safe.send rfl (fun _ _ _ => trivial) ?_
        intro h₅ x ws e₅ hx
        obtain rfl := exec_createAccount hx
        refine Tx.Safe.send rfl (fun _ _ _ => trivial) ?_
        intro h₆ x ws e₆ hx
        obtain ⟨-, rfl, hnew⟩ := exec_createDevice hx
        refine Tx.Safe.send rfl (fun _ _ _ => trivial) ?_
        intro h₇ x ws e₇ hx
        cases hx
        intro h₈ e₈
        refine ⟨⟨_, hreq, .inr ⟨?_, .accepted ?_⟩⟩, trivial⟩
        · have hs₁ := (e₁.exec _).since.trans (l₂.since.trans (l₃.since.trans l₄.since))
          have hs₂ := (e₅.exec _).since.trans ((e₆.exec _).since.trans
            ((e₇.exec _).since.trans e₈.since))
          exact (hs₁.trans hs₂).quiet hq
        · have hl := (e₇.exec _).trans (e₈.later.weaken (List.subset_append_left _ _))
          exact (device_since hl (List.mem_singleton.mpr rfl) rfl).trans hnew

theorem Quiet.commit {t : Open team} (hq : Quiet i h) (hp : t.pending = []) :
    Quiet i (h ++ [.commit (t.commit i)]) := by
  intro c hc hi
  rcases List.mem_append.mp hc with hc | hc
  · exact hq c hc hi
  · cases List.mem_singleton.mp hc
    exact hp

theorem lookup_safe {r : Request} {tokenHash : String} {now : Instant}
    (hreq : reqs[i]? = some r) (hq : Quiet i h) :
    (Invitations.lookup tokenHash now).Safe d (Commits host d reqs) i (fun _ h' => Quiet i h')
      (fun _ _ => True) ⟨.readCommitted, h, [], []⟩ h := by
  refine Tx.Safe.read rfl (fun v => v.findInvitation _ _) (fun _ => rfl) (fun _ => rfl) ?_
  intro h₁ e₁ l₁
  generalize Db.findInvitation _ _ _ = found
  cases found with
  | none => exact quiet_safe hreq rfl fun h₂ e₂ =>
      Quiet.commit ((l₁.since.trans e₂.since).quiet hq) rfl
  | some inv =>
    refine Tx.Safe.read rfl (fun v => v.findMember _ _ _) (fun _ => rfl) (fun _ => rfl) ?_
    intro h₂ e₂ l₂
    exact quiet_safe hreq rfl fun h₃ e₃ =>
      Quiet.commit ((l₁.since.trans (l₂.since.trans e₃.since)).quiet hq) rfl

theorem accept_safe {env : Env} {token : String} (hreq : reqs[i]? = some (.accept env token))
    (hq : Quiet i h) :
    (Invitations.accept host env token).Safe d (Commits host d reqs) i (fun _ _ => True) h := by
  simp only [Invitations.accept, Call.transaction_bind]
  refine ⟨?_, fun _ _ _ _ _ _ _ => trivial⟩
  intro h₁ e₁
  refine (lookup_safe hreq (e₁.since.quiet hq)).mono ?_ (fun _ _ _ _ _ => trivial)
  intro live h₂ hq₂
  refine Call.Safe.require (fun _ => ?_) (fun _ _ _ => trivial)
  refine ⟨?_, fun _ _ _ _ _ _ _ => trivial⟩
  intro h₃ e₃
  refine (acceptInTx_safe hreq (e₃.since.quiet hq₂)).mono ?_ (fun _ _ _ _ _ => trivial)
  intro row h₄ _
  cases row with
  | none => exact fun _ _ => trivial
  | some row => exact fun _ _ => trivial

theorem canActivate_safe {subject : Option String} {headers : Headers}
    (hreq : reqs[i]? = some (.canActivate subject headers)) :
    (ContextGuard.canActivate host subject headers).Safe d (Commits host d reqs) i
      (fun a h' => (Request.canActivate subject headers).Post host d reqs i
        (a.map fun p => .selected p.1 p.2) h') h := by
  have hquiet : ∀ h' c, c.pid = i → c.writes = [] → Commits host d reqs h' c := commits_quiet hreq
  cases subject with
  | none => exact fun _ _ => trivial
  | some subject =>
    by_cases hs : host.isUUID subject = true
    · simp only [ContextGuard.canActivate, AuthGuard.canActivate, Call.require, if_pos hs]
      refine Call.Safe.lookup (fun v => v.findAccount _ _) (fun _ => rfl) (fun _ => rfl) hquiet ?_
        (fun _ _ _ _ _ _ _ => trivial)
      intro h₁ h₂ _ _ _
      generalize Db.findAccount _ _ _ = found
      cases found with
      | none => exact fun _ _ => trivial
      | some account =>
        obtain ⟨id, username, passwordHash, contextId, active, memberId⟩ := account
        cases memberId with
        | none => exact fun _ _ => trivial
        | some memberId =>
          cases hd : headers.xDeviceId.filter fun s => host.isUUID s with
          | none => exact fun _ _ => trivial
          | some deviceId =>
            refine Call.Safe.lookup (fun v => v.findMember _ _ _) (fun _ => rfl) (fun _ => rfl)
              hquiet ?_ (fun _ _ _ _ _ _ _ => trivial)
            intro h₃ h₄ _ _ _
            refine Call.Safe.lookup (fun v => v.findAuthorizedDevice _ _) (fun _ => rfl)
              (fun _ => rfl) hquiet ?_ (fun _ _ _ _ _ _ _ => trivial)
            intro h₅ h₆ _ _ hpre
            generalize Db.findMember _ _ _ _ = member
            generalize hfound : Db.findAuthorizedDevice _ _ _ = found
            cases member with
            | none => exact fun _ _ => trivial
            | some member =>
              cases found with
              | none => exact fun _ _ => trivial
              | some device =>
                refine Call.Safe.require ?_ (fun _ _ _ => trivial)
                intro htoken h₇ e₇
                exact ⟨h₅, contextId, device, hpre.trans e₇.pre, hfound, htoken⟩
    · simp only [ContextGuard.canActivate, AuthGuard.canActivate, Call.require, if_neg hs]
      exact fun _ _ => trivial

/-- Every request keeps the guarantee. -/
theorem Request.safe (hreq : reqs[i]? = some r) :
    (r.call host).Safe d (Commits host d reqs) i (r.Post host d reqs i) [] := by
  have hn : ∀ e ∈ ([] : History team), e.pid ≠ i := by
    intro e he
    cases he
  have hq := quiet_of_unseen hn
  cases r with
  | create env actor dto => exact Call.Safe.map ((create_safe hreq hq).mono fun _ _ _ => trivial)
  | identify env account dto => exact Call.Safe.map (identify_safe hreq hn)
  | revoke env actor id => exact Call.Safe.map ((revoke_safe hreq hq).mono fun _ _ _ => trivial)
  | reissue env actor id dto =>
    exact Call.Safe.map ((reissue_safe hreq hq).mono fun _ _ _ => trivial)
  | accept env token => exact Call.Safe.map ((accept_safe hreq hq).mono fun _ _ _ => trivial)
  | canActivate subject headers => exact Call.Safe.map (canActivate_safe hreq)

end

/-! Runs. -/

/-- A state of a run in which the requests are served from the database `d₀`. -/
def Reachable (host : Host) (d₀ : Db) (reqs : List Request) (s : Sys team Answer) : Prop :=
  Sys.Reach (S := team) d₀ (Sys.initial (reqs.map (Request.call host))) s

section
variable {host : Host} {d₀ : Db} {reqs : List Request} {s : Sys team Answer}

theorem Reachable.ok (hr : Reachable host d₀ reqs s) :
    s.Ok d₀ (Commits host d₀ reqs)
      (fun i a h => ∀ r, reqs[i]? = some r → r.Post host d₀ reqs i a h) := by
  refine Sys.Reach.ok hr (Sys.initial_ok ?_)
  intro i c hc
  rw [List.getElem?_map] at hc
  obtain ⟨r, hreq, rfl⟩ := Option.map_eq_some_iff.mp hc
  refine (Request.safe hreq).mono ?_
  intro a h hp r' hr'
  cases hreq.symm.trans hr'
  exact hp

/-- Every commit of a run did what its request may do. -/
theorem Reachable.lawful (hr : Reachable host d₀ reqs s) : Lawful (Commits host d₀ reqs) s.hist :=
  hr.ok.lawful

/-- Every answer of a run is one its request may be given. -/
theorem Reachable.answered (hr : Reachable host d₀ reqs s) {i : Nat} {a : Except Err Answer}
    (ha : s.Answered i a) {r : Request} (hreq : reqs[i]? = some r) :
    r.Post host d₀ reqs i a s.hist :=
  hr.ok.answered ha r hreq

end

/-! A small team, for concrete runs: a socio at a desk, and a till that waits for its
identifier. -/

namespace Demo

/-- The digest of the one token used here. -/
def host : Host :=
  { sha256Hex := fun s =>
      if s = "secret" then "2bb80d537b1da3e38bd30361aa855686bde0eacd7162fef6a25fe97bf527a25b" else s
    isUUID := fun _ => true }

/-- Identifiers of a request, apart from those of the others. -/
def env (n : Nat) : Env :=
  { serverId := fun k => ⟨String.ofList (List.replicate (20 * n + k) 'x')⟩, now := fun _ => 0
    deviceToken := "secret", passwordHash := "", delivery := none }

def account : AccountRef := ⟨"account", "bazar"⟩

def actor : Actor := ⟨account, some ⟨"member", "desk"⟩⟩

def desk : OldDevice := ⟨⟨"desk"⟩, "Desk", "desk", "bazar", true, 0⟩

def till : OldDevice := ⟨⟨"till"⟩, "Till", "till", "bazar", true, 0⟩

/-- As the migration leaves it. -/
def migrated : Db :=
  { accounts := ⟨[⟨⟨"account"⟩, "socio", "", "bazar", true, some ⟨"member"⟩⟩], by decide⟩
    members := ⟨[⟨⟨"member"⟩, "Socio", .socio, "bazar", true, none⟩], by decide⟩
    devices := migrateDevices 0 ⟨[desk, till], by decide⟩
    invitations := .empty }

/-- The till waits for the identifier `old`. -/
def waiting : Db :=
  { migrated with
    devices := (migrateDevices 0 ⟨[desk], by decide⟩).put
      { id := ⟨"till"⟩, name := "Till", identifier := "old", contextId := "bazar"
        authorized := false, createdAt := 0, status := .pendienteActivacion, tokenHash := none
        activatedAt := none, revokedAt := none } }

/-- The state after the requests took the steps of a schedule. -/
def run (d : Db) (reqs : List Request) (steps : List Nat) : Sys team Answer :=
  (Sys.initial (reqs.map (Request.call host))).scheduled d steps

theorem reachable {d : Db} {reqs : List Request} {steps : List Nat}
    (h : ((Sys.initial (reqs.map (Request.call host))).schedule (S := team) d steps).isSome = true) :
    Reachable host d reqs (run d reqs steps) :=
  Sys.scheduled_reach h

end Demo

end Bazar.Team
