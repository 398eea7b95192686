import BazarApi.Corrections.Requests

/- Every request keeps the guarantee of its commits, and what it is answered goes by what is
   stored under its id: a success shows the row that is there, made from the same content, and
   a failure comes before the row is looked for, or when it was not there or was made from
   other content (`Request.Post`). -/
namespace Bazar.Corrections

open Txn

/-! What a request says. -/

def Request.content (host : Host) : Request → Json
  | .create _ k actor dto => creationContent actor "create" (k.service.normalized host dto)
  | .reverse _ _ actor targetId dto => reversalContent host actor (uuid targetId) dto

def Request.fingerprint (host : Host) (r : Request) : String := host.sha256 (r.content host)

/-- What is checked before its transaction. -/
def Request.check (host : Host) : Request → Except Err Unit
  | .create _ k actor dto =>
    let data := k.service.normalized host dto
    checkSelection actor data.createdByMemberId data.deviceId
  | .reverse _ _ actor targetId dto => checkReversal host actor (uuid targetId) dto

/-- The answer a replay is given. -/
def Answer.replayed : Answer → Answer
  | .created _ receipt => .created false receipt
  | .reversed _ receipt => .reversed false receipt

/-- What is stored under its id: the fingerprint, and the answer to a replay. -/
def Request.stored (host : Host) : Request → Db → Option (String × Answer)
  | .create _ k actor dto, v =>
    (v.findRecord k (k.service.normalized host dto).id actor.account.contextId).map fun row =>
      (row.requestFingerprint, .created false row.creationResponse)
  | .reverse _ k actor _ dto, v =>
    (v.findReversal k (uuid dto.id) actor.account.contextId).map fun row =>
      (row.requestFingerprint, .reversed false row.creationResponse)

/-- The statement that looks for the row under its id. -/
def Request.look (host : Host) : Request → Sql
  | .create _ k actor dto =>
    .findRecord k (k.service.normalized host dto).id actor.account.contextId
  | .reverse _ k actor _ dto => .findReversal k (uuid dto.id) actor.account.contextId

/-- The lock of the id. -/
def Request.identity (host : Host) : Request → Key
  | .create _ k actor dto =>
    identityKey k actor.account.contextId (k.service.normalized host dto).id
  | .reverse _ k actor _ dto => identityKey k actor.account.contextId (uuid dto.id)

/-- Request `i` sent its statement `q`, and found the database so whenever it did anything. -/
structure Looked (d₀ : Db) (i : Nat) (q : Sql) (h : History corrections) (P : Db → Prop) : Prop where
  sent : .exec i q ∈ h
  found : ∀ h₁ e n, h = h₁ ++ e :: n → e.pid = i → P (replay (S := corrections) d₀ h₁)

/-- Nothing is stored under its id that was made from the same content. -/
def Request.Unstored (host : Host) (r : Request) (v : Db) : Prop :=
  ∀ s, r.stored host v = some s → s.1 ≠ r.fingerprint host

/-- What a request may be answered, after history `h`. -/
def Request.Post (host : Host) (d₀ : Db) (i : Nat) (h : History corrections) (r : Request) :
    Except Err Answer → Prop
  | .ok a => r.stored host (replay (S := corrections) d₀ h) =
      some (r.fingerprint host, a.replayed) ∧
    (a = a.replayed ∨ Looked d₀ i (r.look host) h fun v => r.stored host v = none)
  | .error e => r.check host = .error e ∨ e = originUnauthorized ∨ e.spontaneous ∨
    Looked d₀ i (r.look host) h (r.Unstored host)

section
variable {host : Host} {d : Db} {reqs : List Request} {i : Nat} {h h' : History corrections}
variable {α β : Type} {k : Kind} {r : Request} {t : Open corrections}

theorem Looked.later {q : Sql} {P : Db → Prop} {held : Locks Key} (hl : Looked d i q h P)
    (he : Extends (Commits host d reqs) i held h h') : Looked d i q h' P := by
  obtain ⟨-, new, rfl, hothers⟩ := he
  refine ⟨List.mem_append_left _ hl.sent, ?_⟩
  intro h₁ e n hsplit hpid
  rcases List.append_eq_append_iff.mp hsplit with ⟨m, rfl, hm⟩ | ⟨m, rfl, hm⟩
  · have hnew : e ∈ new := by
      rw [hm]
      exact List.mem_append_right _ List.mem_cons_self
    exact absurd hpid (hothers e hnew).1
  · cases m with
    | nil =>
      have hnew : e ∈ new := by
        rw [← List.nil_append new, ← hm]
        exact List.mem_cons_self
      exact absurd hpid (hothers e hnew).1
    | cons e' m =>
      obtain ⟨rfl, -⟩ := List.cons.inj hm
      exact hl.found h₁ e m rfl hpid

/-- One more event. -/
theorem Looked.step {q : Sql} {P : Db → Prop} (hl : Looked d i q h P)
    (hP : P (replay (S := corrections) d h)) (e : Event corrections) :
    Looked d i q (h ++ [e]) P := by
  refine ⟨List.mem_append_left _ hl.sent, ?_⟩
  intro h₁ e' n hsplit hpid
  rcases List.eq_nil_or_concat n with rfl | ⟨n, e'', rfl⟩
  · obtain ⟨rfl, -⟩ := List.append_inj' hsplit rfl
    exact hP
  · rw [List.concat_eq_append, ← List.cons_append, ← List.append_assoc] at hsplit
    exact hl.found h₁ e' n (List.append_inj' hsplit rfl).1 hpid

/-- What holds now and could only be lost held all along. -/
theorem looked_of {q : Sql} {P : Db → Prop} (hl : Lawful (Commits host d reqs) h)
    (hq : .exec i q ∈ h) (hback : ∀ v v', Grows v v' → P v' → P v)
    (hP : P (replay (S := corrections) d h)) : Looked d i q h P := by
  refine ⟨hq, ?_⟩
  rintro h₁ e n rfl -
  exact hback _ _ (Lawful.grows hl (List.prefix_append _ _)) hP

theorem commits_quiet (hreq : reqs[i]? = some r) (h : History corrections) (c : Commit corrections)
    (hc : c.pid = i) (hw : c.writes = []) : Commits host d reqs h c :=
  ⟨r, by rw [hc]; exact hreq, .inl hw⟩

theorem findRecord_grows {v v' : Db} {id : Uuid} {contextId : String} {row : Record}
    (hg : Grows v v') (hr : v.findRecord k id contextId = some row) :
    v'.findRecord k id contextId = some row := by
  obtain ⟨hfind, hctx⟩ := Option.filter_eq_some_iff.mp hr
  exact Option.filter_eq_some_iff.mpr ⟨hg.records k id row hfind, hctx⟩

theorem findReversal_grows {v v' : Db} {id : Uuid} {contextId : String} {row : Reversal}
    (hg : Grows v v') (hr : v.findReversal k id contextId = some row) :
    v'.findReversal k id contextId = some row := by
  obtain ⟨hfind, hctx⟩ := Option.filter_eq_some_iff.mp hr
  exact Option.filter_eq_some_iff.mpr ⟨hg.reversals k id row hfind, hctx⟩

/-- What is stored stays. -/
theorem Request.stored_grows {v v' : Db} {s : String × Answer} (hg : Grows v v')
    (hs : r.stored host v = some s) : r.stored host v' = some s := by
  cases r with
  | create env k actor dto =>
    obtain ⟨row, hrow, rfl⟩ := Option.map_eq_some_iff.mp hs
    exact Option.map_eq_some_iff.mpr ⟨row, findRecord_grows hg hrow, rfl⟩
  | reverse env k actor targetId dto =>
    obtain ⟨row, hrow, rfl⟩ := Option.map_eq_some_iff.mp hs
    exact Option.map_eq_some_iff.mpr ⟨row, findReversal_grows hg hrow, rfl⟩

theorem Request.stored_none_back {v v' : Db} (hg : Grows v v') (hn : r.stored host v' = none) :
    r.stored host v = none := by
  cases hs : r.stored host v with
  | none => rfl
  | some s => cases hn.symm.trans (Request.stored_grows hg hs)

theorem Request.Unstored.back {v v' : Db} (hg : Grows v v') (hn : r.Unstored host v') :
    r.Unstored host v := fun s hs => hn s (Request.stored_grows hg hs)

theorem Request.unstored_of_none {v : Db} (hn : r.stored host v = none) : r.Unstored host v := by
  intro s hs
  cases hn.symm.trans hs

/-- Nobody stores the row of a request that holds its identity. -/
theorem Request.not_stored {held : Locks Key} (hl : Later (Commits host d reqs) i held h h')
    (hk : (r.identity host, .update) ∈ held)
    (hn : r.stored host (replay (S := corrections) d h) = none) :
    r.stored host (replay (S := corrections) d h') = none := by
  cases r with
  | create env k actor dto =>
    exact Option.map_eq_none_iff.mpr ((Later.not_stored hl hk).1 (Option.map_eq_none_iff.mp hn))
  | reverse env k actor targetId dto =>
    exact Option.map_eq_none_iff.mpr ((Later.not_stored hl hk).2 (Option.map_eq_none_iff.mp hn))

/-- A request that holds its identity and found nothing has found nothing all along. -/
theorem Request.looked_none {held : Locks Key} (hl : Later (Commits host d reqs) i held h h')
    (hk : (r.identity host, .update) ∈ held) (hq : .exec i (r.look host) ∈ h)
    (hn : r.stored host (replay (S := corrections) d h) = none) :
    Looked d i (r.look host) h' fun v => r.stored host v = none :=
  looked_of hl.lawful (hl.pre.subset hq) (fun _ _ => Request.stored_none_back)
    (Request.not_stored hl hk hn)

theorem Looked.unstored {q : Sql} (hl : Looked d i q h fun v => r.stored host v = none) :
    Looked d i q h (r.Unstored host) :=
  ⟨hl.sent, fun h₁ e n hs hp => Request.unstored_of_none (hl.found h₁ e n hs hp)⟩

/-! Parts of the transactions. -/

variable {Q : β → History corrections → Prop} {R : Err → History corrections → Prop}

/-- A statement that writes nothing. -/
theorem quiet_send {q : Sql} {f : q.Res → Tx corrections β} (ht : t.iso = .readCommitted)
    (hx : ∀ v, ∃ x, Sql.exec q v = .ok (x, []))
    (hs : ∀ h₁ x ls, Extends (Commits host d reqs) i t.held h h₁ →
      Sql.exec q (applyAll (S := corrections) (replay (S := corrections) d h₁) t.pending) =
        .ok (x, []) →
      ls = q.locks (applyAll (S := corrections) (replay (S := corrections) d h₁) t.pending) →
      (f x).Safe d (Commits host d reqs) i Q R (t.after (S := corrections) ls [])
        (h₁ ++ [.exec i q])) :
    (query q >>= f).Safe d (Commits host d reqs) i Q R t h := by
  refine Tx.Safe.stmt ht ?_
  intro h₁ e₁ _
  obtain ⟨x, hx⟩ := hx (applyAll (S := corrections) (replay (S := corrections) d h₁) t.pending)
  have htaken : taken (S := corrections) q
      (applyAll (S := corrections) (replay (S := corrections) d h₁) t.pending) [] =
        q.locks (applyAll (S := corrections) (replay (S := corrections) d h₁) t.pending) :=
    List.append_nil _
  have hexec : corrections.exec q
      (applyAll (S := corrections) (replay (S := corrections) d h₁) t.pending) = .ok (x, []) := hx
  rw [hexec]
  change Tx.Safe d _ i Q R _ (t.after (taken (S := corrections) q _ []) []) _
  rw [htaken]
  exact hs h₁ x _ e₁ hx rfl

/-- A transaction that has written nothing and holds what `t` holds. -/
structure Clean (t t' : Open corrections) : Prop where
  iso : t'.iso = .readCommitted
  pending : t'.pending = []
  held : t.held ⊆ t'.held

theorem Clean.after {t' : Open corrections} (hc : Clean t t') (ls : Locks Key) :
    Clean t (t'.after (S := corrections) ls []) :=
  ⟨hc.iso, by rw [Open.after_pending, hc.pending, List.append_nil],
    fun _ hx => List.mem_append_left _ (hc.held hx)⟩

theorem Clean.trans {t' t'' : Open corrections} (hc : Clean t t') (hc' : Clean t' t'') :
    Clean t t'' := ⟨hc'.iso, hc'.pending, fun _ hx => hc'.held (hc.held hx)⟩

/-- What goes on: the transaction still clean, some time later. -/
theorem Extends.next {t' : Open corrections} (hc : Clean t t')
    (he : Extends (Commits host d reqs) i t'.held h h') (q : Sql) :
    Later (Commits host d reqs) i t.held h (h' ++ [.exec i q]) :=
  (he.exec q).weaken hc.held

/-- A statement that writes nothing, in a clean transaction. -/
theorem clean_send {q : Sql} {f : q.Res → Tx corrections β} (hc : Clean t t)
    (hx : ∀ v, ∃ x, Sql.exec q v = .ok (x, []))
    (hs : ∀ h₁ t' x, Clean t t' → Extends (Commits host d reqs) i t.held h h₁ →
      Later (Commits host d reqs) i t.held h (h₁ ++ [.exec i q]) →
      Sql.exec q (replay (S := corrections) d h₁) = .ok (x, []) →
      t'.held = t.held ++ q.locks (replay (S := corrections) d h₁) →
      (f x).Safe d (Commits host d reqs) i Q R t' (h₁ ++ [.exec i q])) :
    (query q >>= f).Safe d (Commits host d reqs) i Q R t h := by
  refine quiet_send hc.iso hx ?_
  intro h₁ x ls e₁ hx₁ hls
  rw [hc.pending] at hx₁ hls
  refine hs h₁ _ x (hc.after ls) e₁ (e₁.exec q) hx₁ ?_
  rw [Open.after_held, hls]
  rfl

theorem authorize_safe {actor : Actor} {memberId deviceId : Uuid} {f : Unit → Tx corrections β}
    (hc : Clean t t) (hR : ∀ h', R originUnauthorized h')
    (hs : ∀ h' t', Clean t t' → Later (Commits host d reqs) i t.held h h' →
      (f ()).Safe d (Commits host d reqs) i Q R t' h') :
    (authorize actor memberId deviceId >>= f).Safe d (Commits host d reqs) i Q R t h := by
  refine clean_send hc (fun _ => ⟨_, rfl⟩) ?_
  intro h₁ t₁ x c₁ _ l₁ _ _
  refine clean_send ⟨c₁.iso, c₁.pending, List.Subset.refl _⟩ (fun _ => ⟨_, rfl⟩) ?_
  intro h₂ t₂ y c₂ _ l₂ _ _
  refine Tx.Safe.require (fun _ => ?_) (fun _ _ _ => hR _)
  exact hs _ t₂ (c₁.trans c₂) (l₁.trans (l₂.weaken c₁.held))

theorem lockIdentities_safe {contextId : String} {ids : List String} {f : Unit → Tx corrections β}
    (hc : Clean t t) (hl : Lawful (Commits host d reqs) h)
    (hs : ∀ h' t', Clean t t' → Later (Commits host d reqs) i t.held h h' →
      (∀ id ∈ ids, (.advisory (k.service.identity ++ ":" ++ contextId ++ ":" ++ id), .update) ∈
        t'.held) →
      (f ()).Safe d (Commits host d reqs) i Q R t' h') :
    (lockIdentities k contextId ids >>= f).Safe d (Commits host d reqs) i Q R t h := by
  induction ids generalizing t h with
  | nil => exact hs h t hc (.refl hl _ _) fun _ hm => nomatch hm
  | cons id ids ih =>
    refine clean_send hc (fun _ => ⟨_, rfl⟩) ?_
    intro h₁ t₁ x c₁ _ l₁ _ hheld₁
    refine ih ⟨c₁.iso, c₁.pending, List.Subset.refl _⟩ l₁.lawful ?_
    intro h' t' c' l' hids
    refine hs h' t' (c₁.trans c') (l₁.trans (l'.weaken c₁.held)) ?_
    intro id' hm
    rcases List.mem_cons.mp hm with rfl | hm
    · refine c'.held ?_
      rw [hheld₁]
      exact List.mem_append_right _ (List.mem_singleton_self _)
    · exact hids id' hm

/-- A row inserted under an id that is new, and the rest. -/
theorem insert_safe {actor : Actor} {dto : k.service.Dto} {now : Instant} {fp : String}
    {f : Receipt → Tx corrections β} (hc : Clean t t)
    (hR : ∀ e h', Later (Commits host d reqs) i t.held h h' → R e h')
    (hs : ∀ h₁ t₁, Clean t t₁ → Later (Commits host d reqs) i t.held h h₁ →
      let receipt := newReceipt actor (k.service.normalized host dto) now
      let v := replay (S := corrections) d h₁
      let q := Sql.createRecord k (receipt.row fp)
      let ws := [Write.insertRecord k (receipt.row fp)]
      (v.records k).find? receipt.data.id = none →
      (f receipt).Safe d (Commits host d reqs) i Q R
        (t₁.after (S := corrections) (taken (S := corrections) q v ws) ws) (h₁ ++ [.exec i q])) :
    (insert host k actor dto now fp >>= f).Safe d (Commits host d reqs) i Q R t h := by
  unfold insert
  simp only [Tx.bind_assoc]
  refine Tx.Safe.ofExcept (fun _ _ => ?_) (fun _ _ h' e' => hR _ _ e'.later)
  refine clean_send hc (fun _ => ⟨_, rfl⟩) ?_
  intro h₁ t₁ x c₁ _ l₁ _ _
  refine Tx.Safe.require (fun _ => ?_)
    (fun _ h' e' => hR _ _ (l₁.trans (e'.later.weaken c₁.held)))
  refine Tx.Safe.send c₁.iso (fun e h' l' => hR _ _ (l₁.trans (l'.weaken c₁.held))) ?_
  intro h₂ u ws e₂ hx₂
  rw [c₁.pending] at hx₂ ⊢
  have hx₂ : insertRecord k ((newReceipt actor (k.service.normalized host dto) now).row fp)
      (replay (S := corrections) d h₂) = .ok (u, ws) := hx₂
  unfold insertRecord at hx₂
  split at hx₂
  · cases hx₂
  · rename_i hnone
    cases hx₂
    exact hs h₂ t₁ c₁ (l₁.trans (e₂.later.weaken c₁.held)) (Option.not_isSome_iff_eq_none.mp hnone)

/-! Creations. -/

/-- The row just inserted is still new when the transaction commits. -/
theorem inserted_new {t₁ : Open corrections} {h₁ h₂ : History corrections} {row : Record}
    (hl : Later (Commits host d reqs) i (t₁.after (S := corrections) (taken (S := corrections)
      (.createRecord k row) (replay (S := corrections) d h₁) [.insertRecord k row])
      [.insertRecord k row]).held (h₁ ++ [.exec i (.createRecord k row)]) h₂)
    (hnew : ((replay (S := corrections) d h₁).records k).find? row.id = none) :
    ((replay (S := corrections) d h₂).records k).find? row.id = none :=
  (hl.since_write (S := corrections) d (fun v => (v.records k).find? row.id)
    (w := .insertRecord k row) (fun _ _ hne => records_apply_ne hne)
    List.mem_cons_self).trans hnew

theorem createInTx_safe {env : Env} {actor : Actor} {dto : k.service.Dto}
    (hreq : reqs[i]? = some (.create env k actor dto)) :
    (createInTx host env k actor dto).Safe d (Commits host d reqs) i
      (fun b h' => (Request.create env k actor dto).Post host d i h' (.ok (.created b.1 b.2)))
      (fun e h' => e = originUnauthorized ∨
        Looked d i ((Request.create env k actor dto).look host) h'
          ((Request.create env k actor dto).Unstored host))
      ⟨.readCommitted, h, [], []⟩ h := by
  refine authorize_safe ⟨rfl, rfl, List.Subset.refl _⟩ (fun _ => .inl rfl) ?_
  intro h₁ t₁ c₁ l₁
  refine clean_send ⟨c₁.iso, c₁.pending, List.Subset.refl _⟩ (fun _ => ⟨_, rfl⟩) ?_
  intro h₂ t₂ _ c₂ _ l₂ _ hheld₂
  have hown₂ : ((Request.create env k actor dto).identity host, .update) ∈ t₂.held := by
    rw [hheld₂]
    exact List.mem_append_right _ (List.mem_singleton_self _)
  refine clean_send ⟨c₂.iso, c₂.pending, List.Subset.refl _⟩ (fun _ => ⟨_, rfl⟩) ?_
  intro h₃ t₃ existing c₃ e₃ l₃ hx₃ _
  have hfound : (replay (S := corrections) d h₃).findRecord k (k.service.normalized host dto).id
      actor.account.contextId = existing := (Prod.mk.inj (Except.ok.inj hx₃)).1
  have hsent : .exec i ((Request.create env k actor dto).look host) ∈ h₃ ++ [.exec i (.findRecord k
      (k.service.normalized host dto).id actor.account.contextId)] :=
    List.mem_append_right _ (List.mem_singleton_self _)
  cases existing with
  | some row =>
    -- Rows stay, so what differs at the end differed whenever the request did anything.
    refine Tx.Safe.require (fun hfp => ?_) (fun hne h' e' => .inr (looked_of e'.lawful
      (e'.pre.subset hsent) (fun _ _ => Request.Unstored.back) ?_))
    · intro h₄ e₄
      refine ⟨commits_quiet hreq _ _ rfl c₃.pending, ?_, .inl rfl⟩
      have hgrows := Lawful.grows e₄.lawful ((List.prefix_append _ _).trans e₄.pre)
      change Option.map _ (Db.findRecord _ _ _ _) = _
      rw [replay_committed]
      change Option.map _ (Db.findRecord (applyAll (S := corrections) _ t₃.pending) _ _ _) = _
      rw [c₃.pending, applyAll_nil, findRecord_grows hgrows hfound]
      change some (row.requestFingerprint, _) = _
      rw [hfp]
      rfl
    · intro s hs
      have hgrows := Lawful.grows e'.lawful ((List.prefix_append _ _).trans e'.pre)
      obtain ⟨row', hrow', rfl⟩ := Option.map_eq_some_iff.mp hs
      cases (findRecord_grows hgrows hfound).symm.trans hrow'
      exact hne
  | none =>
    -- The identity is held since before the look, so nobody stores the row until the commit.
    have hown₃ := c₃.held hown₂
    have hnone₃ : (Request.create env k actor dto).stored host (replay (S := corrections) d (h₃ ++
        [.exec i (.findRecord k (k.service.normalized host dto).id actor.account.contextId)])) =
          none := by
      rw [replay_sent]
      exact Option.map_eq_none_iff.mpr hfound
    refine insert_safe ⟨c₃.iso, c₃.pending, List.Subset.refl _⟩
      (fun e h' l' => .inr (Request.looked_none l' hown₃ hsent hnone₃).unstored) ?_
    intro h₄ t₄ c₄ l₄
    dsimp only
    intro hnew h₅ e₅
    have hnew₅ := inserted_new e₅.later hnew
    have hown₄ := c₄.held hown₃
    have hnone₄ := Request.not_stored l₄ hown₃ hnone₃
    have hlooked := Request.looked_none (r := .create env k actor dto) e₅.later
      (List.mem_append_left _ hown₄)
      (List.mem_append_left _ (l₄.pre.subset hsent)) (by
        rw [replay_sent]
        exact hnone₄)
    have hnone₅ := Request.not_stored (r := .create env k actor dto) e₅.later
      (List.mem_append_left _ hown₄) (by
        rw [replay_sent]
        exact hnone₄)
    refine ⟨⟨_, hreq, .inr ?_⟩, ?_, .inr (hlooked.step hnone₅ _)⟩
    · change Effect host d h₅ _ _ (t₄.pending ++ _)
      rw [c₄.pending]
      exact .created hnew₅ (List.mem_append_left _ hown₄)
    · change Option.map _ (Db.findRecord _ _ _ _) = _
      rw [replay_committed]
      change Option.map _ (Db.findRecord (applyAll (S := corrections) _ (t₄.pending ++ _)) _ _ _) = _
      rw [c₄.pending]
      change Option.map _ (Option.filter _ (Table.find? (((Write.insertRecord k
        (createdRow host env k actor dto)).apply _).records k) _)) = _
      rw [records_insertRecord, if_pos rfl]
      have hput := Table.find?_put_self
        (t := (replay (S := corrections) d h₅).records k) (r := createdRow host env k actor dto)
      change Option.map _ (Option.filter _ (Table.find? _ (Keyed.key
        (createdRow host env k actor dto)))) = _
      have hctx : decide ((createdRow host env k actor dto).contextId = actor.account.contextId) =
          true := decide_eq_true rfl
      rw [hput, Option.filter_some, if_pos hctx]
      rfl

/-! Reversals. -/

/-- The row of a reversal, with its replacement if it has one. -/
def correctionRow (host : Host) (env : Env) (actor : Actor) (targetId : Uuid) (dto : ReverseDto k)
    (original : Receipt) : Reversal :=
  reversalRow host env actor targetId dto original
    ((dto.normalized host).map fun data => newReceipt actor data (env.now 0))

/-- Replacements pending leave the reversals alone. -/
theorem reversals_pending {env : Env} {actor : Actor} {id : Uuid} (data : Option Normalized) (v : Db) :
    (applyAll (S := corrections) v (data.toList.map fun data =>
      Write.insertRecord k (replacementRow host env actor id data))).reversals = v.reversals := by
  cases data <;> rfl

/-- The reversal inserted, under the lock of its record. -/
theorem createReversal_safe {env : Env} {actor : Actor} {targetId : String} {dto : ReverseDto k}
    (original : Record) (hreq : reqs[i]? = some (.reverse env k actor targetId dto))
    (ht : t.iso = .readCommitted)
    (hp : t.pending = (dto.normalized host).toList.map fun data =>
      .insertRecord k (replacementRow host env actor (uuid dto.id) data))
    (hlock : (.record k (uuid targetId), .update) ∈ t.held)
    (horiginal : (replay (S := corrections) d h).findRecord k (uuid targetId)
      actor.account.contextId = some original)
    (hactive : ∀ r ∈ ((replay (S := corrections) d h).reversals k).rows,
      r.data.targetId ≠ uuid targetId)
    (hfree : ∀ h', Later (Commits host d reqs) i t.held h h' → ∀ data ∈ dto.normalized host,
      ((replay (S := corrections) d h').records k).find? data.id = none)
    (hown : ((Request.reverse env k actor targetId dto).identity host, .update) ∈ t.held)
    (hnamed : ∀ data ∈ dto.normalized host,
      (identityKey k actor.account.contextId data.id, .update) ∈ t.held)
    (hsent : .exec i ((Request.reverse env k actor targetId dto).look host) ∈ h)
    (hstored : (Request.reverse env k actor targetId dto).stored host
      (replay (S := corrections) d h) = none)
    (hR : ∀ e h', Later (Commits host d reqs) i t.held h h' → R e h') :
    (query (.createReversal k
        (correctionRow host env actor (uuid targetId) dto original.creationResponse)) >>= fun _ =>
      (pure (true, (correctionRow host env actor (uuid targetId) dto
        original.creationResponse).creationResponse) :
          Tx corrections (Bool × ReversalReceipt))).Safe d (Commits host d reqs) i
      (fun b h' => (Request.reverse env k actor targetId dto).Post host d i h'
        (.ok (.reversed b.1 b.2))) R t h := by
  refine Tx.Safe.send ht (fun e h' l' => hR _ _ l') ?_
  intro h₁ u ws e₁ hx
  have hx : insertReversal k (correctionRow host env actor (uuid targetId) dto
      original.creationResponse) (applyAll (S := corrections) (replay (S := corrections) d h₁)
        t.pending) = .ok (u, ws) := hx
  unfold insertReversal at hx
  rw [hp, reversals_pending] at hx
  split at hx
  · cases hx
  rename_i hnone
  split at hx
  · cases hx
  split at hx
  · cases hx
  cases hx
  intro h₂ e₂
  have hl := (e₁.exec (.createReversal k (correctionRow host env actor (uuid targetId) dto
    original.creationResponse))).trans (e₂.later.weaken (List.subset_append_left _ _))
  refine ⟨⟨_, hreq, .inr ?_⟩, ?_, .inr ((Request.looked_none hl hown hsent hstored).step
    (Request.not_stored hl hown hstored) _)⟩
  · change Effect host d h₂ _ _ (t.pending ++ _)
    rw [hp]
    refine .reversed (List.mem_append_left _ hlock)
      (findRecord_grows (Lawful.grows hl.lawful hl.pre) horiginal)
      (Later.not_reversed hl hlock hactive) ?_ (hfree _ hl) (List.mem_append_left _ hown)
      fun data hdata => List.mem_append_left _ (hnamed data hdata)
    exact (e₂.later.since_write (S := corrections) d (fun v => (v.reversals k).find? (uuid dto.id))
      (w := .insertReversal k (correctionRow host env actor (uuid targetId) dto
        original.creationResponse))
      (fun _ _ hne => reversals_apply_ne hne) List.mem_cons_self).trans
      (Option.not_isSome_iff_eq_none.mp hnone)
  · change Option.map _ (Db.findReversal _ _ _ _) = _
    rw [replay_committed]
    change Option.map _ (Db.findReversal (applyAll (S := corrections) _ (t.pending ++ _)) _ _ _) = _
    rw [applyAll_append]
    change Option.map _ (Option.filter _ (Table.find? (((Write.insertReversal k (correctionRow host
      env actor (uuid targetId) dto original.creationResponse)).apply _).reversals k) (Keyed.key
        (correctionRow host env actor (uuid targetId) dto original.creationResponse)))) = _
    have hctx : decide ((correctionRow host env actor (uuid targetId) dto
        original.creationResponse).contextId = actor.account.contextId) = true :=
      decide_eq_true rfl
    rw [reversals_insertReversal, if_pos rfl, Table.find?_put_self, Option.filter_some, if_pos hctx]
    rfl

/-- A reversal whose id is new. -/
theorem reverseNew_safe {env : Env} {actor : Actor} {targetId : String} {dto : ReverseDto k}
    (hreq : reqs[i]? = some (.reverse env k actor targetId dto))
    (hc : Clean t t)
    (hown : ((Request.reverse env k actor targetId dto).identity host, .update) ∈ t.held)
    (hnamed : ∀ data ∈ dto.normalized host,
      (identityKey k actor.account.contextId data.id, .update) ∈ t.held)
    (hsent : .exec i ((Request.reverse env k actor targetId dto).look host) ∈ h)
    (hstored : (Request.reverse env k actor targetId dto).stored host
      (replay (S := corrections) d h) = none)
    (hR : ∀ e h', Later (Commits host d reqs) i t.held h h' → R e h') :
    (reverseNew host env actor (uuid targetId) dto).Safe d (Commits host d reqs) i
      (fun b h' => (Request.reverse env k actor targetId dto).Post host d i h'
        (.ok (.reversed b.1 b.2))) R t h := by
  refine clean_send hc (fun _ => ⟨_, rfl⟩) ?_
  intro h₁ t₁ locked c₁ _ l₁ hx₁ hheld₁
  refine Tx.Safe.require (fun hlocked => ?_)
    (fun _ h' e' => hR _ _ (l₁.trans (e'.later.weaken c₁.held)))
  have hlock : (.record k (uuid targetId), .update) ∈ t₁.held := by
    have hsome : ((replay (S := corrections) d h₁).findRecord k (uuid targetId)
        actor.account.contextId).isSome = locked := (Prod.mk.inj (Except.ok.inj hx₁)).1
    rw [hlocked] at hsome
    obtain ⟨row, hrow⟩ := Option.isSome_iff_exists.mp hsome
    obtain ⟨hfind, -⟩ := Option.filter_eq_some_iff.mp hrow
    have hkey : row.id = uuid targetId := Table.find?_key hfind
    rw [hheld₁]
    refine List.mem_append_right _ ?_
    change _ ∈ (Db.findRecord _ _ _ _).toList.map _
    rw [hrow, ← hkey]
    exact List.mem_singleton_self _
  refine clean_send ⟨c₁.iso, c₁.pending, List.Subset.refl _⟩ (fun _ => ⟨_, rfl⟩) ?_
  intro h₂ t₂ found c₂ _ l₂ hx₂ _
  have hfound : ((replay (S := corrections) d h₂).findRecord k (uuid targetId)
      actor.account.contextId).map (fun x => (x, (replay (S := corrections) d h₂).reversalOf k x.id)) =
        found := (Prod.mk.inj (Except.ok.inj hx₂)).1
  have c := c₁.trans c₂
  have l := l₁.trans (l₂.weaken c₁.held)
  refine Tx.Safe.orThrow (fun original he => ?_)
    (fun _ h' e' => hR _ _ (l.trans (e'.later.weaken c.held)))
  refine Tx.Safe.require (fun hnone => ?_)
    (fun _ h' e' => hR _ _ (l.trans (e'.later.weaken c.held)))
  rw [he] at hfound
  obtain ⟨row, hrow, rfl⟩ := Option.map_eq_some_iff.mp hfound
  have hkey : row.id = uuid targetId :=
    Table.find?_key (Option.filter_eq_some_iff.mp hrow).1
  have hactive : ∀ r ∈ ((replay (S := corrections) d h₂).reversals k).rows,
      r.data.targetId ≠ uuid targetId := by
    intro r hr htarget
    have hnone := List.find?_eq_none.mp (Option.isNone_iff_eq_none.mp hnone) r hr
    exact hnone (decide_eq_true (htarget.trans hkey.symm))
  have hlock₂ := c₂.held hlock
  have hrow₂ : (replay (S := corrections) d (h₂ ++ [.exec i (.findLive k (uuid targetId)
      actor.account.contextId)])).findRecord k (uuid targetId) actor.account.contextId =
        some row := by
    rw [replay_sent]
    exact hrow
  have hactive₂ : ∀ r ∈ ((replay (S := corrections) d (h₂ ++ [.exec i (.findLive k (uuid targetId)
      actor.account.contextId)])).reversals k).rows, r.data.targetId ≠ uuid targetId := by
    rw [replay_sent]
    exact hactive
  cases hdto : dto.replacement with
  | none =>
    have hnorm : dto.normalized host = none := by
      unfold ReverseDto.normalized
      rw [hdto]
      rfl
    have hcorrection : correctionRow host env actor (uuid targetId) dto row.creationResponse =
        reversalRow host env actor (uuid targetId) dto row.creationResponse none := by
      unfold correctionRow
      rw [hnorm]
      rfl
    have hsafe := createReversal_safe (R := R) (t := t₂) row hreq c₂.iso
      (by rw [hnorm]; exact c₂.pending) hlock₂ hrow₂ hactive₂
      (by rw [hnorm]; intro _ _ _ hd; cases hd) (c.held hown)
      (fun data hdata => c.held (hnamed data hdata)) (l.pre.subset hsent)
      (Request.not_stored l hown hstored) (fun e h' l' => hR e h' (l.trans (l'.weaken c.held)))
    rw [hcorrection] at hsafe
    exact hsafe
  | some body =>
    have hnorm : dto.normalized host = some (k.service.normalized host body) := by
      unfold ReverseDto.normalized
      rw [hdto]
      rfl
    have hcorrection : correctionRow host env actor (uuid targetId) dto row.creationResponse =
        reversalRow host env actor (uuid targetId) dto row.creationResponse
          (some (newReceipt actor (k.service.normalized host body) (env.now 0))) := by
      unfold correctionRow
      rw [hnorm]
      rfl
    unfold insertReplacement
    simp only [Tx.bind_assoc]
    refine clean_send ⟨c₂.iso, c₂.pending, List.Subset.refl _⟩ (fun _ => ⟨_, rfl⟩) ?_
    intro h₃ t₃ used c₃ _ l₃ _ _
    have cUsed := c.trans c₃
    have lUsed := l.trans (l₃.weaken c.held)
    refine Tx.Safe.require (fun _ => ?_)
      (fun _ h' e' => hR _ _ (lUsed.trans (e'.later.weaken cUsed.held)))
    refine insert_safe ⟨c₃.iso, c₃.pending, List.Subset.refl _⟩
      (fun e h' l' => hR e h' (lUsed.trans (l'.weaken cUsed.held))) ?_
    intro h₄ t₄ c₄ l₄
    dsimp only
    intro hnew
    have hl := l₃.trans (l₄.weaken c₃.held)
    have cNew := cUsed.trans c₄
    have lNew : Later (Commits host d reqs) i t.held h (h₄ ++ [.exec i (.createRecord k
        (replacementRow host env actor (uuid dto.id) (k.service.normalized host body)))]) :=
      (lUsed.trans (l₄.weaken cUsed.held)).trans
        ((Extends.refl l₄.lawful i t.held).exec _)
    have hsafe := createReversal_safe (R := R) (h := h₄ ++ [.exec i (.createRecord k
        (replacementRow host env actor (uuid dto.id) (k.service.normalized host body)))])
      (t := t₄.after (S := corrections) (taken (S := corrections) (.createRecord k
        (replacementRow host env actor (uuid dto.id) (k.service.normalized host body)))
        (replay (S := corrections) d h₄) [.insertRecord k (replacementRow host env actor
          (uuid dto.id) (k.service.normalized host body))])
        [.insertRecord k (replacementRow host env actor (uuid dto.id)
          (k.service.normalized host body))])
      row hreq c₄.iso ?_ ?_ ?_ ?_ ?_ (List.mem_append_left _ (cNew.held hown))
      (fun data hdata => List.mem_append_left _ (cNew.held (hnamed data hdata)))
      (lNew.pre.subset hsent) (Request.not_stored lNew hown hstored)
      (fun e h' l' => hR e h' (lNew.trans (l'.weaken fun _ hx =>
        List.mem_append_left _ (cNew.held hx))))
    · rw [hcorrection] at hsafe
      exact hsafe
    · rw [hnorm, Open.after_pending, c₄.pending]
      rfl
    · exact List.mem_append_left _ (c₄.held (c₃.held hlock₂))
    · rw [replay_sent]
      exact findRecord_grows (Lawful.grows hl.lawful hl.pre) hrow₂
    · rw [replay_sent]
      exact Later.not_reversed hl hlock₂ hactive₂
    · intro h' l' data hdata
      rw [hnorm] at hdata
      cases hdata
      exact inserted_new l' hnew

theorem reverseInTx_safe {env : Env} {actor : Actor} {targetId : String} {dto : ReverseDto k}
    (hreq : reqs[i]? = some (.reverse env k actor targetId dto)) :
    (reverseInTx host env actor (uuid targetId) dto).Safe d (Commits host d reqs) i
      (fun b h' => (Request.reverse env k actor targetId dto).Post host d i h'
        (.ok (.reversed b.1 b.2)))
      (fun e h' => e = originUnauthorized ∨
        Looked d i ((Request.reverse env k actor targetId dto).look host) h'
          ((Request.reverse env k actor targetId dto).Unstored host))
      ⟨.readCommitted, h, [], []⟩ h := by
  refine authorize_safe ⟨rfl, rfl, List.Subset.refl _⟩ (fun _ => .inl rfl) ?_
  intro h₁ t₁ c₁ l₁
  refine lockIdentities_safe ⟨c₁.iso, c₁.pending, List.Subset.refl _⟩ l₁.lawful ?_
  intro h₂ t₂ c₂ l₂ hids
  have hown₂ : ((Request.reverse env k actor targetId dto).identity host, .update) ∈ t₂.held :=
    hids _ ((List.mem_insertionSort _).mpr List.mem_cons_self)
  have hnamed₂ : ∀ data ∈ dto.normalized host,
      (identityKey k actor.account.contextId data.id, .update) ∈ t₂.held := by
    intro data hdata
    refine hids _ ((List.mem_insertionSort _).mpr ?_)
    exact List.mem_cons_of_mem _ (List.mem_cons_of_mem _
      (List.mem_map.mpr ⟨data, Option.mem_toList.mpr hdata, rfl⟩))
  refine clean_send ⟨c₂.iso, c₂.pending, List.Subset.refl _⟩ (fun _ => ⟨_, rfl⟩) ?_
  intro h₃ t₃ existing c₃ e₃ l₃ hx₃ _
  have hfound : (replay (S := corrections) d h₃).findReversal k (uuid dto.id)
      actor.account.contextId = existing := (Prod.mk.inj (Except.ok.inj hx₃)).1
  have hsent : .exec i ((Request.reverse env k actor targetId dto).look host) ∈ h₃ ++
      [.exec i (.findReversal k (uuid dto.id) actor.account.contextId)] :=
    List.mem_append_right _ (List.mem_singleton_self _)
  cases existing with
  | some row =>
    refine Tx.Safe.require (fun hfp => ?_) (fun hne h' e' => .inr (looked_of e'.lawful
      (e'.pre.subset hsent) (fun _ _ => Request.Unstored.back) ?_))
    · intro h₄ e₄
      refine ⟨commits_quiet hreq _ _ rfl c₃.pending, ?_, .inl rfl⟩
      have hgrows := Lawful.grows e₄.lawful ((List.prefix_append _ _).trans e₄.pre)
      change Option.map _ (Db.findReversal _ _ _ _) = _
      rw [replay_committed]
      change Option.map _ (Db.findReversal (applyAll (S := corrections) _ t₃.pending) _ _ _) = _
      rw [c₃.pending, applyAll_nil, findReversal_grows hgrows hfound]
      change some (row.requestFingerprint, _) = _
      rw [hfp]
      rfl
    · intro s hs
      have hgrows := Lawful.grows e'.lawful ((List.prefix_append _ _).trans e'.pre)
      obtain ⟨row', hrow', rfl⟩ := Option.map_eq_some_iff.mp hs
      cases (findReversal_grows hgrows hfound).symm.trans hrow'
      exact hne
  | none =>
    have hstored : (Request.reverse env k actor targetId dto).stored host
        (replay (S := corrections) d (h₃ ++ [.exec i (.findReversal k (uuid dto.id)
          actor.account.contextId)])) = none := by
      rw [replay_sent]
      exact Option.map_eq_none_iff.mpr hfound
    have hown₃ := c₃.held hown₂
    exact reverseNew_safe hreq ⟨c₃.iso, c₃.pending, List.Subset.refl _⟩ hown₃
      (fun data hdata => c₃.held (hnamed₂ data hdata)) hsent hstored
      fun e h' l' => .inr (Request.looked_none l' hown₃ hsent hstored).unstored

/-! Requests. -/

/-- A unique violation on the way out is still a failure after the look. -/
theorem mapUnique_safe {taken : Err} {e : Err} {f : α → Answer}
    (hx : e = originUnauthorized ∨ e.spontaneous ∨ Looked d i (r.look host) h (r.Unstored host)) :
    (mapUnique taken (.error e : Except Err α)).Safe d (Commits host d reqs) i
      (fun x h' => r.Post host d i h' (x.map f)) h := by
  intro h' e'
  rcases hx with rfl | hs | hlook
  · exact .inr (.inl rfl)
  · cases e with
    | database message => exact .inr (.inr (.inl trivial))
    | _ => exact hs.elim
  · exact .inr (.inr (.inr (hlook.later e')))

/-- An answer stays right while others go on. -/
theorem Post.later {a : Answer} (hp : r.Post host d i h (.ok a))
    (he : Extends (Commits host d reqs) i [] h h') : r.Post host d i h' (.ok a) := by
  refine ⟨Request.stored_grows (Lawful.grows he.lawful he.pre) hp.1, ?_⟩
  rcases hp.2 with hr | hl
  · exact .inl hr
  · exact .inr (hl.later he)

/-- Every request keeps the guarantee, and is answered as it should be. -/
theorem Request.safe (hreq : reqs[i]? = some r) :
    (r.call host).Safe d (Commits host d reqs) i (fun x h' => r.Post host d i h' x) [] := by
  cases r with
  | create env k actor dto =>
    refine Call.Safe.map ?_
    unfold Corrections.create
    dsimp only
    cases hcheck : checkSelection actor (k.service.normalized host dto).createdByMemberId
        (k.service.normalized host dto).deviceId with
    | error e => exact fun _ _ => .inl hcheck
    | ok u =>
      refine ⟨fun h₁ _ => (createInTx_safe hreq).mono ?_ ?_, ?_⟩
      · intro b h₂ hb h₃ e₃
        exact Post.later hb e₃
      · intro e h₂ he
        exact mapUnique_safe (he.imp_right .inr)
      · intro e h₂ hs _ _
        exact mapUnique_safe (.inr (.inl hs))
  | reverse env k actor targetId dto =>
    refine Call.Safe.map ?_
    unfold Corrections.reverse
    dsimp only
    cases hcheck : checkReversal host actor (uuid targetId) dto with
    | error e => exact fun _ _ => .inl hcheck
    | ok u =>
      refine ⟨fun h₁ _ => (reverseInTx_safe hreq).mono ?_ ?_, ?_⟩
      · intro b h₂ hb h₃ e₃
        exact Post.later hb e₃
      · intro e h₂ he
        exact mapUnique_safe (he.imp_right .inr)
      · intro e h₂ hs _ _
        exact mapUnique_safe (.inr (.inl hs))

end

/-! Runs. -/

/-- A state of a run in which the requests are served from the database `d₀`. -/
def Reachable (host : Host) (d₀ : Db) (reqs : List Request) (s : Sys corrections Answer) : Prop :=
  Sys.Reach (S := corrections) d₀ (Sys.initial (reqs.map (Request.call host))) s

/-- The requests of a run keep their guarantee in each of its states. -/
theorem Reachable.ok {host : Host} {d₀ : Db} {reqs : List Request} {s : Sys corrections Answer}
    (hr : Reachable host d₀ reqs s) : s.Ok d₀ (Commits host d₀ reqs) fun i x h =>
      ∀ r, reqs[i]? = some r → r.Post host d₀ i h x := by
  refine Sys.Reach.ok hr (Sys.initial_ok ?_)
  intro i c hc
  rw [List.getElem?_map] at hc
  obtain ⟨r, hreq, rfl⟩ := Option.map_eq_some_iff.mp hc
  refine (Request.safe hreq).mono ?_
  intro x h hx r' hr'
  cases hreq.symm.trans hr'
  exact hx

end Bazar.Corrections
