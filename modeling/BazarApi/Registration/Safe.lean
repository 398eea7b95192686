import BazarApi.Registration.Rows

/- Every request of the registration flow keeps the guarantee of `Requests`. The claims of
   an approval, of a resend and of a confirmation lock the rows they match, so each commit
   still finds them as its claim did. -/
namespace Bazar.Registration

open Txn Team

/-! Reading a row that a write leaves alone. -/

theorem members_apply_ne {d : Db} {w : Write} {k : Uuid} (h : w.key ≠ .member k) :
    (w.apply d).members.find? k = d.members.find? k := by
  cases w with
  | insertMember r =>
    refine Table.find?_put_ne ?_
    rintro rfl
    exact h rfl
  | setMemberCorreo id correo =>
    refine Table.find?_modify_ne (f := fun m : Member => { m with correo := some correo })
      (fun _ => rfl) ?_
    rintro rfl
    exact h rfl
  | _ => rfl

theorem devices_apply_ne {d : Db} {w : Write} {k : Uuid} (h : w.key ≠ .device k) :
    (w.apply d).devices.find? k = d.devices.find? k := by
  cases w with
  | insertDevice r =>
    refine Table.find?_put_ne ?_
    rintro rfl
    exact h rfl
  | _ => rfl

theorem accounts_apply_ne {d : Db} {w : Write} {k : Uuid} (h : w.key ≠ .account k) :
    (w.apply d).accounts.find? k = d.accounts.find? k := by
  cases w with
  | insertAccount r =>
    refine Table.find?_put_ne ?_
    rintro rfl
    exact h rfl
  | _ => rfl

section
variable {d : Db} {G : History registration → Commit registration → Prop} {i : Nat}
variable {h h' : History registration} {t : Open registration} {q : Sql} {v : Db}
variable {k : Uuid} {w : Write} {ws : List Write}

/-- A request stays as the statement found that wrote it. -/
theorem request_since
    (he : Later (S := registration) G i (t.after (taken (S := registration) q v ws) ws).held
      (h ++ [.exec i q]) h') (hw : w ∈ ws) (hk : w.key = .request k) :
    (replay (S := registration) d h').requests.find? k =
      (replay (S := registration) d h).requests.find? k := by
  refine he.since_write (S := registration) d (fun v => v.requests.find? k) ?_ hw
  intro d w' hne
  refine requests_apply_ne ?_
  rwa [← hk]

theorem member_since
    (he : Later (S := registration) G i (t.after (taken (S := registration) q v ws) ws).held
      (h ++ [.exec i q]) h') (hw : w ∈ ws) (hk : w.key = .member k) :
    (replay (S := registration) d h').members.find? k =
      (replay (S := registration) d h).members.find? k := by
  refine he.since_write (S := registration) d (fun v => v.members.find? k) ?_ hw
  intro d w' hne
  refine members_apply_ne ?_
  rwa [← hk]

theorem device_since
    (he : Later (S := registration) G i (t.after (taken (S := registration) q v ws) ws).held
      (h ++ [.exec i q]) h') (hw : w ∈ ws) (hk : w.key = .device k) :
    (replay (S := registration) d h').devices.find? k =
      (replay (S := registration) d h).devices.find? k := by
  refine he.since_write (S := registration) d (fun v => v.devices.find? k) ?_ hw
  intro d w' hne
  refine devices_apply_ne ?_
  rwa [← hk]

theorem account_since
    (he : Later (S := registration) G i (t.after (taken (S := registration) q v ws) ws).held
      (h ++ [.exec i q]) h') (hw : w ∈ ws) (hk : w.key = .account k) :
    (replay (S := registration) d h').accounts.find? k =
      (replay (S := registration) d h).accounts.find? k := by
  refine he.since_write (S := registration) d (fun v => v.accounts.find? k) ?_ hw
  intro d w' hne
  refine accounts_apply_ne ?_
  rwa [← hk]

end

/-! What the statements that write do when they succeed. -/

section
variable {v : Db} {x : Unit} {ws : List Write}

theorem exec_createRequest {row : BusinessRegistrationRequest}
    (hx : insertRequest row v = .ok (x, ws)) :
    ws = [.insertRequest row] ∧ v.requests.find? row.id = none ∧
      (row.status ≠ .rechazado → row.legalVersion.isSome →
        ∀ k y, v.requests.find? k = some y → ¬ y.liveFor row.correo) := by
  unfold insertRequest at hx
  split at hx
  · cases hx
  · rename_i hn
    split at hx
    · cases hx
    · rename_i htaken
      cases hx
      refine ⟨rfl, by simpa using hn, ?_⟩
      intro hst hlegal k y hy hlive
      refine htaken ⟨hst, ?_, hlegal, ?_⟩
      · rw [← hlive.1]
        exact hlive.2.2.1
      · exact List.any_eq_true.mpr ⟨y, Table.mem_of_find? hy, decide_eq_true hlive⟩

theorem exec_createMember {row : Member} (hx : insertMember row v = .ok (x, ws)) :
    ws = [.insertMember row] ∧ v.members.find? row.id = none := by
  unfold insertMember at hx
  split at hx
  · cases hx
  · rename_i hn
    cases hx
    exact ⟨rfl, by simpa using hn⟩

theorem exec_createDevice {row : Device} (hx : insertDevice row v = .ok (x, ws)) :
    ws = [.insertDevice row] ∧ v.devices.find? row.id = none := by
  unfold insertDevice at hx
  split at hx
  · cases hx
  · rename_i hn
    split at hx
    · cases hx
    · cases hx
      exact ⟨rfl, by simpa using hn⟩

theorem exec_createAccount {row : Account} (hx : insertAccount row v = .ok (x, ws)) :
    ws = [.insertAccount row] ∧ v.accounts.find? row.id = none := by
  unfold insertAccount at hx
  split at hx
  · cases hx
  · rename_i hn
    split at hx
    · cases hx
    · split at hx
      · cases hx
      · cases hx
        exact ⟨rfl, by simpa using hn⟩

theorem exec_setMemberCorreo {id : Uuid} {correo : String}
    (hx : changeMemberCorreo id correo v = .ok (x, ws)) : ws = [.setMemberCorreo id correo] := by
  unfold changeMemberCorreo at hx
  split at hx
  · cases hx
  · cases hx
    rfl

theorem exec_updateRequest {id : Uuid} {data : RequestUpdate}
    (hx : Sql.exec (.updateRequest id data) v = .ok (x, ws)) :
    (∃ row, v.requests.find? id = some row) ∧ ws = [.updateRequest id data] := by
  simp only [Sql.exec] at hx
  split at hx
  · rename_i hrow
    cases hx
    exact ⟨Option.isSome_iff_exists.mp hrow, rfl⟩
  · cases hx

theorem exec_updateMany {condition : RequestWhere} {data : RequestUpdate} {n : Nat}
    (hx : Sql.exec (.updateManyRequests condition data) v = .ok (n, ws)) :
    n = (v.matching condition).length ∧
      ws = (v.matching condition).map fun x => .updateRequest x.id data := by
  cases hx
  exact ⟨rfl, rfl⟩

/-- A claim that names its request matches it alone, if at all. -/
theorem matching_of_id {condition : RequestWhere} {id : Uuid} (hid : condition.id = some id) :
    v.matching condition = ((v.requests.find? id).filter condition.holds).toList := by
  refine Table.filter_of_key ?_
  intro y _ hy
  refine (of_decide_eq_true hy).1 id ?_
  rw [hid]
  rfl

end

section
variable {host : Host} {d : Db} {reqs : List Request} {i : Nat} {h : History registration}
variable {r : Request}

theorem commits_quiet (hreq : reqs[i]? = some r) (h : History registration)
    (c : Commit registration) (hc : c.pid = i) (hw : c.writes = []) : Commits host d reqs h c :=
  ⟨r, by rw [hc]; exact hreq, .inl hw⟩

/-- The end of a transaction that wrote nothing. -/
theorem quiet_safe {α : Type} {t : Open registration} {a : α} {R : Err → History registration → Prop}
    (hreq : reqs[i]? = some r) (hp : t.pending = []) :
    (Tx.ret a : Tx registration α).Safe d (Commits host d reqs) i (fun _ _ => True) R t h := by
  intro h' _
  exact ⟨commits_quiet hreq _ _ rfl hp, trivial⟩

/-- The end of a transaction that did what its request does. -/
theorem effect_safe {α : Type} {t : Open registration} {a : α}
    {R : Err → History registration → Prop} (hreq : reqs[i]? = some r)
    (he : ∀ h', Extends (Commits host d reqs) i t.held h h' → Effect host d i h' t.held r t.pending) :
    (Tx.ret a : Tx registration α).Safe d (Commits host d reqs) i (fun _ _ => True) R t h := by
  intro h' hext
  exact ⟨⟨r, hreq, .inr (he h' hext)⟩, trivial⟩

/-- A transaction after which nothing is left to check. -/
theorem settle_safe {α β : Type} {body : Tx registration β}
    {k : Except Err β → Call registration α}
    (hb : ∀ h', Extends (Commits host d reqs) i [] h h' →
      body.Safe d (Commits host d reqs) i (fun _ _ => True) (fun _ _ => True)
        ⟨.readCommitted, h', [], []⟩ h')
    (hk : ∀ x h', (k x).Safe d (Commits host d reqs) i (fun _ _ => True) h') :
    (Call.tx .readCommitted body k).Safe d (Commits host d reqs) i (fun _ _ => True) h := by
  refine ⟨?_, fun e h' _ _ _ => hk _ h'⟩
  intro h' he
  exact (hb h' he).mono (fun _ h'' _ => hk _ h'') (fun _ h'' _ => hk _ h'')

/-- A claim that names its request: it matches nothing, or the request as it is then. -/
theorem claim_safe {β : Type} {Q : β → History registration → Prop}
    {R : Err → History registration → Prop} {t : Open registration} {condition : RequestWhere}
    {data : RequestUpdate} {id : Uuid} {f : Nat → Tx registration β}
    (hid : condition.id = some id) (ht : t.iso = .readCommitted) (hp : t.pending = [])
    (hmiss : ∀ t' h', t'.pending = [] → (f 0).Safe d (Commits host d reqs) i Q R t' h')
    (hhit : ∀ h₁ row t', Extends (Commits host d reqs) i t.held h h₁ →
      (replay (S := registration) d h₁).requests.find? id = some row → condition.holds row = true →
      t'.iso = .readCommitted → t'.pending = [.updateRequest id data] →
      (∀ h₂, Later (Commits host d reqs) i t'.held
          (h₁ ++ [.exec i (.updateManyRequests condition data)]) h₂ →
        (replay (S := registration) d h₂).requests.find? id = some row) →
      (f 1).Safe d (Commits host d reqs) i Q R t'
        (h₁ ++ [.exec i (.updateManyRequests condition data)])) :
    (Tx.stmt (S := registration) (.updateManyRequests condition data) f).Safe d
      (Commits host d reqs) i Q R t h := by
  refine Tx.Safe.stmt ht ?_
  intro h₁ e₁ _
  rw [hp]
  change (f (List.length (Db.matching (replay (S := registration) d h₁) condition))).Safe _ _ _ _ _
    (t.after (taken _ _ (List.map _ (Db.matching (replay (S := registration) d h₁) condition)))
      (List.map _ (Db.matching (replay (S := registration) d h₁) condition))) _
  rw [matching_of_id hid]
  cases hrow : ((replay (S := registration) d h₁).requests.find? id).filter condition.holds with
  | none =>
    refine hmiss _ _ ?_
    rw [Open.after_pending, hp]
    rfl
  | some row =>
    obtain ⟨hfind, hholds⟩ := Option.filter_eq_some_iff.mp hrow
    obtain rfl : row.id = id := Table.find?_key hfind
    refine hhit h₁ row _ e₁ hfind hholds ht ?_ ?_
    · rw [Open.after_pending, hp]
      rfl
    · intro h₂ l₂
      exact (request_since l₂ (List.mem_singleton.mpr rfl) rfl).trans hfind

/-! Verification emails. -/

theorem sendVerification_safe {env : Env} {n : Nat} {t : Open registration}
    (hreq : reqs[i]? = some r)
    (he : ∀ h', Extends (Commits host d reqs) i t.held h h' → Effect host d i h' t.held r t.pending) :
    (sendVerification env n).Safe d (Commits host d reqs) i (fun _ _ => True) (fun _ _ => True)
      t h := by
  unfold sendVerification Tx.require
  split
  · exact effect_safe hreq he
  · exact fun _ _ => trivial

theorem createRequest_safe {env : Env} {dto : CreateBusinessRegistrationDto} {t : Open registration}
    (hreq : reqs[i]? = some (.create env dto)) (ht : t.iso = .readCommitted) (hp : t.pending = []) :
    (createRequest host env dto (host.trimLower dto.correo)).Safe d (Commits host d reqs) i
      (fun _ _ => True) (fun _ _ => True) t h := by
  unfold createRequest
  split
  · exact quiet_safe hreq hp
  · refine Tx.Safe.send ht (fun _ _ _ => trivial) ?_
    intro h₁ x ws e₁ hx
    rw [hp] at hx
    obtain ⟨rfl, hnew, hlive⟩ := exec_createRequest hx
    refine sendVerification_safe hreq ?_
    intro h₂ e₂
    rw [Open.after_pending, hp]
    -- the slot is locked from the insertion on
    refine .created ((request_since e₂.later (List.mem_singleton.mpr rfl) rfl).trans hnew)
      (mem_held_of_lock (S := registration) (by exact List.mem_cons_self)) ?_
    refine Later.no_live e₂.later
      (mem_held_of_lock (S := registration) (by exact List.mem_cons_self)) ?_
    rw [replay_sent]
    exact hlive Status.noConfusion rfl

theorem resendVerification_safe {env : Env} {n : Nat} {existing : BusinessRegistrationRequest}
    {t : Open registration} (hreq : reqs[i]? = some r) (hr : r.resends = some env)
    (ht : t.iso = .readCommitted) (hp : t.pending = []) :
    (resendVerification host env n existing).Safe d (Commits host d reqs) i
      (fun _ _ => True) (fun _ _ => True) t h := by
  unfold resendVerification
  split
  · exact quiet_safe hreq hp
  rename_i hmay
  split
  · exact quiet_safe hreq hp
  refine claim_safe rfl ht hp (fun t' h' hp' => quiet_safe hreq hp') ?_
  intro h₁ row t' _ _ hholds _ hp' hsince
  refine sendVerification_safe hreq ?_
  intro h₂ e₂
  have hrow := hsince h₂ e₂.later
  rw [hp']
  have hid : row.id = existing.id := Table.find?_key hrow
  rw [← hid] at hrow ⊢
  refine .resent hr hrow ?_
  -- the claim repeats what the lookup found
  obtain ⟨-, hst, -, -, hsent, huntil, -⟩ := of_decide_eq_true hholds
  have hmay : mayResend env n existing = true := by simpa using hmay
  obtain ⟨-, hmax, -⟩ := of_decide_eq_true hmay
  refine decide_eq_true ⟨hst _ rfl, ?_, huntil _ rfl⟩
  rw [hsent _ rfl]
  exact hmax

theorem createInTx_safe {env : Env} {dto : CreateBusinessRegistrationDto}
    (hreq : reqs[i]? = some (.create env dto)) :
    (createInTx host env dto (host.trimLower dto.correo)).Safe d (Commits host d reqs) i
      (fun _ _ => True) (fun _ _ => True) ⟨.readCommitted, h, [], []⟩ h := by
  refine Tx.Safe.read rfl (fun v => v.findLiveRequest _) (fun _ => rfl) (fun _ => rfl) ?_
  intro h₁ _ _
  generalize Db.findLiveRequest _ _ = found
  cases found with
  | none => exact createRequest_safe hreq rfl rfl
  | some existing => exact resendVerification_safe hreq rfl rfl rfl

theorem resendInTx_safe {env : Env} {n : Nat} {correo : String} (hreq : reqs[i]? = some r)
    (hr : r.resends = some env) :
    (resendInTx host env n correo).Safe d (Commits host d reqs) i
      (fun _ _ => True) (fun _ _ => True) ⟨.readCommitted, h, [], []⟩ h := by
  refine Tx.Safe.read rfl (fun v => v.findLiveRequest _) (fun _ => rfl) (fun _ => rfl) ?_
  intro h₁ _ _
  generalize Db.findLiveRequest _ _ = found
  cases found with
  | none => exact quiet_safe hreq rfl
  | some existing => exact resendVerification_safe hreq hr rfl rfl

theorem resendByCorreo_safe {env : Env} {n : Nat} {correo : String} (hreq : reqs[i]? = some r)
    (hr : r.resends = some env) :
    (resendByCorreo host env n correo).Safe d (Commits host d reqs) i (fun _ _ => True) h := by
  refine settle_safe (fun h' _ => resendInTx_safe hreq hr) ?_
  intro x h'
  cases x with
  | ok a => exact fun _ _ => trivial
  | error e => exact fun _ _ => trivial

theorem create_safe {env : Env} {dto : CreateBusinessRegistrationDto}
    (hreq : reqs[i]? = some (.create env dto)) :
    (create host env dto).Safe d (Commits host d reqs) i (fun _ _ => True) h := by
  unfold create
  split
  · exact fun _ _ => trivial
  cases admitted env with
  | error e => exact fun _ _ => trivial
  | ok u =>
    refine settle_safe (fun h' _ => createInTx_safe hreq) ?_
    intro x h'
    cases x with
    | ok a => exact fun _ _ => trivial
    | error e =>
      change Call.Safe d _ i _ (if isUniqueViolation e = true then _ else _) h'
      split
      · exact resendByCorreo_safe hreq rfl
      · exact fun _ _ => trivial

theorem resend_safe {env : Env} {correo : String} (hreq : reqs[i]? = some (.resend env correo)) :
    (resend host env correo).Safe d (Commits host d reqs) i (fun _ _ => True) h := by
  unfold resend
  cases publicSiteUrl env with
  | error e => exact fun _ _ => trivial
  | ok url =>
    refine settle_safe (fun h' _ => resendInTx_safe hreq rfl) ?_
    intro x h'
    cases x with
    | ok a => exact fun _ _ => trivial
    | error e => exact fun _ _ => trivial

/-! Confirming the address. -/

theorem sendApproverEmail_safe {env : Env} {request : BusinessRegistrationRequest}
    {t : Open registration} (hreq : reqs[i]? = some r) (ht : t.iso = .readCommitted)
    (he : ∀ h', Later (Commits host d reqs) i t.held h h' → Effect host d i h' t.held r t.pending) :
    (sendApproverEmail env request).Safe d (Commits host d reqs) i (fun _ _ => True)
      (fun _ _ => True) t h := by
  -- the counts read only
  have hcount : ∀ h₀, (∀ h', Later (Commits host d reqs) i t.held h₀ h' →
        Effect host d i h' t.held r t.pending) →
      (query (.countOthers request.id none (some request.correo)) >>= fun _ =>
        Tx.require (env.mailed 0 = true)
          (Err.emailNotSent "Approver email failed; verification rolled back") >>= fun _ =>
        (pure true : Tx registration Bool)).Safe d (Commits host d reqs) i (fun _ _ => True)
        (fun _ _ => True) t h₀ := by
    intro h₀ he₀
    refine Tx.Safe.read ht (fun v => List.length (v.requests.rows.filter _)) (fun _ => rfl)
      (fun _ => rfl) ?_
    intro h₁ _ l₁
    refine Tx.Safe.require (fun _ => ?_) (fun _ _ _ => trivial)
    exact effect_safe hreq fun h₂ e₂ => he₀ h₂ (l₁.trans e₂.later)
  unfold sendApproverEmail
  split
  · refine Tx.Safe.read ht (fun v => List.length (v.requests.rows.filter _)) (fun _ => rfl)
      (fun _ => rfl) ?_
    intro h₁ _ l₁
    exact hcount _ fun h₂ l₂ => he h₂ (l₁.trans l₂)
  · exact hcount h he

theorem verifyInTx_safe {env : Env} {token : String}
    (hreq : reqs[i]? = some (.verifyEmail env token)) :
    (verifyInTx host env token).Safe d (Commits host d reqs) i
      (fun _ _ => True) (fun _ _ => True) ⟨.readCommitted, h, [], []⟩ h := by
  refine Tx.Safe.send rfl (fun _ _ _ => trivial) ?_
  intro h₁ count ws e₁ hx
  obtain ⟨hcount, hws⟩ := exec_updateMany hx
  change Tx.Safe (S := registration) d _ i _ _ (if count = 0 then _ else _) _ _
  split
  · rename_i hzero
    refine quiet_safe hreq ?_
    rw [Open.after_pending, hws, List.length_eq_zero_iff.mp (hcount.symm.trans hzero)]
    rfl
  refine Tx.Safe.read rfl (fun v => v.findByApprovalToken _) (fun _ => rfl) (fun _ => rfl) ?_
  intro h₂ _ l₂
  refine Tx.Safe.orThrow ?_ (fun _ _ _ => trivial)
  intro request _
  refine sendApproverEmail_safe hreq rfl ?_
  intro h₃ l₃
  rw [Open.after_pending, List.nil_append, hws]
  refine .verified ?_
  intro x hxm
  obtain ⟨hmem, hholds⟩ := List.mem_filter.mp hxm
  have hw : Write.updateRequest x.id (verification host env) ∈ ws := by
    rw [hws]
    exact List.mem_map.mpr ⟨x, hxm, rfl⟩
  refine ⟨?_, hholds⟩
  exact (request_since (l₂.trans l₃) hw rfl).trans (Table.find?_of_mem hmem)

theorem verifyEmail_safe {env : Env} {token : String}
    (hreq : reqs[i]? = some (.verifyEmail env token)) :
    (verifyEmail host env token).Safe d (Commits host d reqs) i (fun _ _ => True) h := by
  refine settle_safe (fun h' _ => verifyInTx_safe hreq) ?_
  intro x h'
  match x with
  | .ok true => exact fun _ _ => trivial
  | .ok false => exact fun _ _ => trivial
  | .error e => cases e <;> exact fun _ _ => trivial

/-! Deciding. -/

/-- A link that is honored runs the decision on the request its lookup read. -/
theorem resolve_safe {env : Env} {token : String}
    {onValid : BusinessRegistrationRequest → Tx registration (String × String)}
    (hreq : reqs[i]? = some r)
    (hv : ∀ h₁ h₂ read, Extends (Commits host d reqs) i [] h h₁ →
      h₁ ++ [.exec i (.findByApprovalToken (hashToken host token))] <+: h₂ →
      (replay (S := registration) d h₁).findByApprovalToken (hashToken host token) = some read →
      read.status = .pendiente →
      (onValid read).Safe d (Commits host d reqs) i (fun _ _ => True) (fun _ _ => True)
        ⟨.readCommitted, h₂, [], []⟩ h₂) :
    (resolve host env token onValid).Safe d (Commits host d reqs) i (fun _ _ => True) h := by
  refine Call.Safe.lookup (fun v => v.findByApprovalToken _) (fun _ => rfl) (fun _ => rfl)
    (commits_quiet hreq) ?_ (fun _ _ _ _ _ _ _ => trivial)
  intro h₁ h₂ e₁ _ hpre
  generalize hfound : Db.findByApprovalToken _ _ = found
  cases found with
  | none => exact fun _ _ => trivial
  | some read =>
    change Call.Safe (S := registration) d _ i _ (if read.status ≠ .pendiente then _ else _) _
    split
    · exact fun _ _ => trivial
    rename_i hst
    split
    · exact fun _ _ => trivial
    refine settle_safe ?_ ?_
    · intro h₃ e₃
      exact hv h₁ h₃ read e₁ (hpre.trans e₃.pre) hfound (not_not.mp hst)
    · intro x h'
      cases x with
      | ok a => exact fun _ _ => trivial
      | error e => exact fun _ _ => trivial

theorem orRetryPage_safe {c : Call registration HtmlPageResult}
    (hs : c.Safe d (Commits host d reqs) i (fun _ _ => True) h) :
    (orRetryPage host c).Safe d (Commits host d reqs) i (fun _ _ => True) h := by
  induction c generalizing h with
  | ret page => exact fun _ _ => trivial
  | throw e =>
    unfold orRetryPage
    cases retryableApproveFailure host e with
    | none => exact fun _ _ => trivial
    | some page => exact fun _ _ => trivial
  | tx iso body k ih =>
    refine ⟨?_, ?_⟩
    · intro h' he
      exact (hs.1 h' he).mono (fun b h'' hb => ih _ hb) (fun e h'' hb => ih _ hb)
    · intro e h' hsp hpre hl
      exact ih _ (hs.2 e h' hsp hpre hl)

theorem reject_safe {env : Env} {token : String} (hreq : reqs[i]? = some (.reject env token))
    (hn : ∀ e ∈ h, e.pid ≠ i) :
    (reject host env token).Safe d (Commits host d reqs) i (fun _ _ => True) h := by
  refine resolve_safe hreq ?_
  intro h₁ h₂ read e₁ hpre hread hst
  refine Tx.Safe.send rfl (fun _ _ _ => trivial) ?_
  intro h₃ x ws e₃ hx
  obtain ⟨⟨row, hrow⟩, rfl⟩ := exec_updateRequest hx
  refine effect_safe hreq ?_
  intro h₄ e₄
  have hrow' := (request_since e₄.later (List.mem_singleton.mpr rfl) rfl).trans hrow
  obtain ⟨g', rfl⟩ := hpre.trans (e₃.pre.trans ((List.prefix_append _ _).trans e₄.pre))
  exact .rejected (List.append_assoc _ _ _) (e₁.unseen hn) hread hst hrow'

/-- A free username: the accounts are only read. -/
theorem firstFree_safe {β : Type} {Q : β → History registration → Prop} {t : Open registration}
    {candidates : List String} {f : String → Tx registration β} (ht : t.iso = .readCommitted)
    (hs : ∀ username h', Later (Commits host d reqs) i t.held h h' →
      (f username).Safe d (Commits host d reqs) i Q (fun _ _ => True) t h') :
    (firstFree candidates >>= f).Safe d (Commits host d reqs) i Q (fun _ _ => True) t h := by
  induction candidates generalizing h with
  | nil => exact fun _ _ => trivial
  | cons candidate rest ih =>
    refine Tx.Safe.read ht (fun v => v.accounts.rows.any _) (fun _ => rfl) (fun _ => rfl) ?_
    intro h₁ _ l₁
    generalize List.any _ _ = taken
    cases taken with
    | true => exact ih fun username h₂ l₂ => hs username h₂ (l₁.trans l₂)
    | false => exact hs candidate _ l₁

theorem deriveUniqueUsername_safe {β : Type} {Q : β → History registration → Prop}
    {t : Open registration} {env : Env} {request : BusinessRegistrationRequest}
    {f : String → Tx registration β} (ht : t.iso = .readCommitted)
    (hs : ∀ username h', Later (Commits host d reqs) i t.held h h' →
      (f username).Safe d (Commits host d reqs) i Q (fun _ _ => True) t h') :
    (deriveUniqueUsername host env request >>= f).Safe d (Commits host d reqs) i Q
      (fun _ _ => True) t h := by
  unfold deriveUniqueUsername
  split
  · exact firstFree_safe ht hs
  · refine Tx.Safe.read ht (fun v => v.accounts.rows.any _) (fun _ => rfl) (fun _ => rfl) ?_
    intro h₁ _ l₁
    generalize List.any _ _ = taken
    cases taken with
    | true => exact firstFree_safe ht fun username h₂ l₂ => hs username h₂ (l₁.trans l₂)
    | false => exact hs _ _ l₁

/-- The last steps of an approval: the founder's address, and the credentials. -/
theorem delivered_safe {env : Env} {socioEmail : Option String} {page : CredentialsDelivery → String × String}
    {e : Err} {t : Open registration} (hreq : reqs[i]? = some r) (ht : t.iso = .readCommitted)
    (he : ∀ correo locks h', Later (Commits host d reqs) i t.held h h' →
      Effect host d i h' locks r (t.pending ++ founderCorreo env correo)) :
    (setFounderCorreo env socioEmail >>= fun _ => Tx.orThrow env.delivery e >>= fun delivery =>
      (pure (page delivery) : Tx registration (String × String))).Safe d (Commits host d reqs) i
      (fun _ _ => True) (fun _ _ => True) t h := by
  -- after the address, written or not, the credentials go out or everything rolls back
  have hend : ∀ correo (t' : Open registration) h₀,
      t'.pending = t.pending ++ founderCorreo env correo → t.held ⊆ t'.held →
      (∀ h', Later (Commits host d reqs) i t.held h₀ h' → Later (Commits host d reqs) i t.held h h') →
      (Tx.orThrow env.delivery e >>= fun delivery =>
        (pure (page delivery) : Tx registration (String × String))).Safe d (Commits host d reqs) i
        (fun _ _ => True) (fun _ _ => True) t' h₀ := by
    intro correo t' h₀ hp hheld hl
    refine Tx.Safe.orThrow ?_ (fun _ _ _ => trivial)
    intro delivery _
    refine effect_safe hreq ?_
    intro h' e'
    rw [hp]
    exact he correo _ h' (hl h' (e'.later.weaken hheld))
  have hp : t.pending = t.pending ++ founderCorreo env none := (List.append_nil _).symm
  cases socioEmail with
  | none => exact hend none t h hp (List.Subset.refl _) fun _ l => l
  | some correo =>
    refine Tx.Safe.send ht (fun _ _ _ => trivial) ?_
    intro h₁ taken ws e₁ hx
    cases hx
    generalize Db.correoTaken _ _ _ = taken
    have l₁ := e₁.exec (.memberCorreoTaken (env.serverId 2) correo)
    cases taken with
    | true =>
      refine hend none _ _ ?_ (List.subset_append_left _ _) fun _ l => l₁.trans l
      rw [Open.after_pending]
      rfl
    | false =>
      refine Tx.Safe.send ht (fun _ _ _ => trivial) ?_
      intro h₂ x ws e₂ hx
      obtain rfl := exec_setMemberCorreo hx
      have l₂ := (e₂.exec (.setMemberCorreo (env.serverId 2) correo)).weaken
        (List.subset_append_left _ _)
      refine hend (some correo) _ _ ?_ ?_ fun _ l => l₁.trans (l₂.trans l)
      · rw [Open.after_pending, Open.after_pending, List.append_nil]
        rfl
      · exact List.Subset.trans (List.subset_append_left _ _) (List.subset_append_left _ _)

theorem approveInTransaction_safe {env : Env} {token : String}
    {read : BusinessRegistrationRequest} (hreq : reqs[i]? = some (.approve env token)) :
    (approveInTransaction host env read).Safe d (Commits host d reqs) i (fun _ _ => True)
      (fun _ _ => True) ⟨.readCommitted, h, [], []⟩ h := by
  refine claim_safe rfl rfl rfl (fun _ _ hp => quiet_safe hreq hp) ?_
  intro h₁ row t₁ e₁ hrow hholds ht₁ hp₁ hsince
  have hpending : row.status = .pendiente := (of_decide_eq_true hholds).2.1 _ rfl
  refine deriveUniqueUsername_safe ht₁ ?_
  intro username h₂ l₂
  refine Tx.Safe.send ht₁ (fun _ _ _ => trivial) ?_
  intro h₃ x ws e₃ hx
  obtain ⟨rfl, hmember⟩ := exec_createMember hx
  refine Tx.Safe.send ht₁ (fun _ _ _ => trivial) ?_
  intro h₄ x ws e₄ hx
  obtain ⟨rfl, hdevice⟩ := exec_createDevice hx
  refine Tx.Safe.send ht₁ (fun _ _ _ => trivial) ?_
  intro h₅ x ws e₅ hx
  obtain ⟨rfl, haccount⟩ := exec_createAccount hx
  refine delivered_safe hreq ht₁ ?_
  intro correo locks h₆ l₆
  -- each row as its own statement found it
  rw [hp₁] at hmember
  rw [Open.after_pending, hp₁] at hdevice
  rw [Open.after_pending, Open.after_pending, hp₁] at haccount
  have l₅ := l₆.weaken (List.subset_append_left _ _)
  have l₄ := (e₅.exec (.createAccount (initialAccount env username))).trans l₅
  have l₃ := (e₄.exec (.createDevice (initialDevice env))).trans
    (l₄.weaken (List.subset_append_left _ _))
  have l₁ := l₂.trans ((e₃.exec (.createMember (founder host env read))).trans
    (l₃.weaken (List.subset_append_left _ _)))
  rw [Open.after_pending, Open.after_pending, Open.after_pending, hp₁]
  change Effect host d i h₆ locks _ (.updateRequest read.id (approval env) ::
    (newBusiness host env read username ++ founderCorreo env correo))
  exact .approved (hsince h₆ l₁) hpending
    ((member_since l₃ (List.mem_singleton.mpr rfl) rfl).trans hmember)
    ((device_since l₄ (List.mem_singleton.mpr rfl) rfl).trans hdevice)
    ((account_since l₆ (List.mem_singleton.mpr rfl) rfl).trans haccount)

theorem approve_safe {env : Env} {token : String} (hreq : reqs[i]? = some (.approve env token)) :
    (approve host env token).Safe d (Commits host d reqs) i (fun _ _ => True) h := by
  refine orRetryPage_safe (resolve_safe hreq ?_)
  intro h₁ h₂ read _ _ _ _
  exact approveInTransaction_safe hreq

/-! Cleaning up. -/

theorem deleteMany_safe {now : Instant} {batchSize take : Nat} {condition : RequestWhere}
    {h₀ : History registration} (hreq : reqs[i]? = some (.runBatch now batchSize))
    (hcat : condition ∈ categories now)
    (hpre : h₀ ++ [.exec i (.findManyRequests condition take)] <+: h) :
    (query (.deleteManyRequests
      (((replay (S := registration) d h₀).matching condition).take take |>.map (·.id)))).Safe d
      (Commits host d reqs) i (fun _ _ => True) (fun _ _ => True) ⟨.readCommitted, h, [], []⟩ h := by
  refine Tx.Safe.send rfl (fun _ _ _ => trivial) ?_
  intro h₁ count ws e₁ hx
  simp only [Sql.exec] at hx
  obtain ⟨-, hws⟩ := Prod.mk.inj (Except.ok.inj hx)
  refine effect_safe hreq ?_
  intro h₂ e₂
  rw [Open.after_pending, List.nil_append, ← hws]
  obtain ⟨g', rfl⟩ := hpre.trans (e₁.pre.trans ((List.prefix_append _ _).trans e₂.pre))
  refine .cleaned hcat (List.append_assoc _ _ _) ?_
  intro x hxm
  obtain ⟨hmem, hid⟩ := List.mem_filter.mp hxm
  have hw : Write.deleteRequest x.id ∈ ws := by
    rw [← hws]
    exact List.mem_map.mpr ⟨x, hxm, rfl⟩
  refine ⟨(request_since e₂.later hw rfl).trans (Table.find?_of_mem hmem), ?_⟩
  obtain ⟨y, hy, hyid⟩ := List.mem_map.mp (of_decide_eq_true hid)
  obtain ⟨hymem, hyholds⟩ := List.mem_filter.mp (List.mem_of_mem_take hy)
  refine ⟨y, ?_, hyholds⟩
  rw [← hyid]
  exact Table.find?_of_mem hymem

theorem cleanUp_safe {now : Instant} {batchSize remaining deleted : Nat}
    {conditions : List RequestWhere} (hreq : reqs[i]? = some (.runBatch now batchSize))
    (hcat : conditions ⊆ categories now) :
    (cleanUp conditions remaining deleted).Safe d (Commits host d reqs) i (fun _ _ => True) h := by
  induction conditions generalizing h remaining deleted with
  | nil => exact fun _ _ => trivial
  | cons condition rest ih =>
    have hrest : rest ⊆ categories now := List.Subset.trans (List.subset_cons_self _ _) hcat
    unfold cleanUp
    split
    · exact fun _ _ => trivial
    refine Call.Safe.lookup (fun v => ((v.matching condition).take remaining).map (·.id))
      (fun _ => rfl) (fun _ => rfl) (commits_quiet hreq) ?_ (fun _ _ _ _ _ _ _ => trivial)
    intro h₁ h₂ e₁ _ hpre
    change Call.Safe (S := registration) d _ i _ (if _ = [] then _ else _) _
    split
    · exact ih hrest
    refine settle_safe ?_ ?_
    · intro h₃ e₃
      exact deleteMany_safe hreq (hcat List.mem_cons_self) (hpre.trans e₃.pre)
    · intro x h'
      cases x with
      | ok count => exact ih hrest
      | error e => exact fun _ _ => trivial

/-- Every request keeps the guarantee. -/
theorem Request.safe (hreq : reqs[i]? = some r) :
    (r.call host).Safe d (Commits host d reqs) i (fun _ _ => True) [] := by
  have hn : ∀ e ∈ ([] : History registration), e.pid ≠ i := by
    intro e he
    cases he
  cases r with
  | create env dto => exact Call.Safe.map (create_safe hreq)
  | resend env correo => exact Call.Safe.map (resend_safe hreq)
  | verifyEmail env token => exact Call.Safe.map (verifyEmail_safe hreq)
  | approve env token => exact Call.Safe.map (approve_safe hreq)
  | reject env token => exact Call.Safe.map (reject_safe hreq hn)
  | runBatch now batchSize => exact Call.Safe.map (cleanUp_safe hreq (List.Subset.refl _))

end

/-! Runs. -/

/-- A state of a run in which the requests are served from the database `d₀`. -/
def Reachable (host : Host) (d₀ : Db) (reqs : List Request) (s : Sys registration Answer) : Prop :=
  Sys.Reach (S := registration) d₀ (Sys.initial (reqs.map (Request.call host))) s

/-- Every commit of a run did what its request may do. -/
theorem Reachable.lawful {host : Host} {d₀ : Db} {reqs : List Request}
    {s : Sys registration Answer} (hr : Reachable host d₀ reqs s) :
    Lawful (Commits host d₀ reqs) s.hist := by
  refine (Sys.Reach.ok hr (Sys.initial_ok (Q := fun _ _ _ => True) ?_)).lawful
  intro i c hc
  rw [List.getElem?_map] at hc
  obtain ⟨r, hreq, rfl⟩ := Option.map_eq_some_iff.mp hc
  exact Request.safe hreq

/-! A pending request, for concrete runs. -/

namespace Demo

def host : Host :=
  { sha256Hex := id, trimLower := id, trim := id, unaccent := id, expired := fun _ => false }

/-- Identifiers of a request, apart from those of the others. -/
def env (n : Nat) : Env :=
  { serverId := fun k => ⟨String.ofList (List.replicate (20 * n + k) 'x')⟩, now := fun _ => 0
    passwordHash := "hash", delivery := some .socio, token := fun _ => ""
    suffix := fun _ => "a", turnstile := .valid, siteUrl := some "", allowed := fun _ => true
    mailed := fun _ => true }

/-- Confirmed, and its link sent to the approver. -/
def request : BusinessRegistrationRequest :=
  { id := ⟨"request"⟩, nombreNegocio := "Bazar", nombre := "Ana", apellidos := "Ruiz"
    correo := "ana@bazar.mx", telefono := none, status := .pendiente, approvalTokenHash := "link"
    tokenExpiresAt := 1, createdAt := 0, resolvedAt := none, createdContextId := none
    legalVersion := some "1", legalAcceptedAt := some 0, emailVerifiedAt := some 0
    emailTokenHash := none, emailTokenExpiresAt := none, verificationEmailsSent := 1
    lastVerificationEmailAt := some 0 }

def pending : Db :=
  { requests := ⟨[request], by decide⟩, accounts := .empty, members := .empty, devices := .empty }

/-- A request of last week whose second email was sent a day ago. -/
def unconfirmed : BusinessRegistrationRequest :=
  { request with
    status := .pendienteCorreo, emailTokenHash := some "email", emailVerifiedAt := none
    emailTokenExpiresAt := some (9 * day), verificationEmailsSent := 2
    lastVerificationEmailAt := some (7 * day) }

def old : Db :=
  { requests := ⟨[unconfirmed], by decide⟩, accounts := .empty, members := .empty
    devices := .empty }

def today : Env := { env 1 with now := fun _ => 8 * day }

/-- The state after the requests took the steps of a schedule. -/
def run (d : Db) (reqs : List Request) (steps : List Nat) : Sys registration Answer :=
  (Sys.initial (reqs.map (Request.call host))).scheduled d steps

theorem reachable {d : Db} {reqs : List Request} {steps : List Nat}
    (h : ((Sys.initial (reqs.map (Request.call host))).schedule (S := registration) d steps).isSome =
      true) : Reachable host d reqs (run d reqs steps) :=
  Sys.scheduled_reach h

end Demo

end Bazar.Registration
