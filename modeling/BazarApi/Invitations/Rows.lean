import BazarApi.Invitations.Requests

/- One invitation, seen through one commit, and the list of issues. Nothing deletes an
   invitation or changes its issue; an invitation once used or replaced stays so. -/
namespace Bazar.Invitations

open Txn Team Registration

variable {host : Host} {d₀ d : Db} {reqs : List Request} {h : History invitations}
variable {c : Commit invitations} {id : Uuid} {x y : AccountInvitation}

/-! Reading a row that a write leaves alone. -/

theorem superseded_id (now : Instant) (x : AccountInvitation) :
    Keyed.key (superseded now x) = Keyed.key x := rfl

theorem used_id (now : Instant) (accountId : Uuid) (x : AccountInvitation) :
    Keyed.key (used now accountId x) = Keyed.key x := rfl

theorem invitations_apply_ne {w : Write} {k : Uuid} (h : w.key ≠ .invitation k) :
    (w.apply d).invitations.find? k = d.invitations.find? k := by
  cases w with
  | insertInvitation r =>
    refine Table.find?_put_ne ?_
    rintro rfl
    exact h rfl
  | supersede id now =>
    refine Table.find?_modify_ne (superseded_id now) ?_
    rintro rfl
    exact h rfl
  | useInvitation id now accountId =>
    refine Table.find?_modify_ne (used_id now accountId) ?_
    rintro rfl
    exact h rfl
  | _ => rfl

theorem accounts_apply_ne {w : Write} {k : Uuid} (h : w.key ≠ .account k) :
    (w.apply d).accounts.find? k = d.accounts.find? k := by
  cases w with
  | insertAccount r =>
    refine Table.find?_put_ne ?_
    rintro rfl
    exact h rfl
  | _ => rfl

theorem devices_apply_ne {w : Write} {k : Uuid} (h : w.key ≠ .device k) :
    (w.apply d).devices.find? k = d.devices.find? k := by
  cases w with
  | insertDevice r =>
    refine Table.find?_put_ne ?_
    rintro rfl
    exact h rfl
  | _ => rfl

/-- Several invitations replaced at once. -/
theorem find?_supersedeAll (ids : List Uuid) (now : Instant) (d : Db) :
    (applyAll (S := invitations) d (ids.map fun k => Write.supersede k now)).invitations.find? id =
      if id ∈ ids then (d.invitations.find? id).map (superseded now) else d.invitations.find? id := by
  induction ids generalizing d with
  | nil => rfl
  | cons k ids ih =>
    rw [List.map_cons, applyAll_cons, ih]
    change (if _ then ((d.invitations.modify k (superseded now)).find? id).map _
      else (d.invitations.modify k (superseded now)).find? id) = _
    rw [Table.find?_modify (superseded_id now)]
    by_cases hk : id = k
    · have htwice : ((d.invitations.find? id).map (superseded now)).map (superseded now) =
          (d.invitations.find? id).map (superseded now) := by
        cases d.invitations.find? id <;> rfl
      rw [if_pos hk, ← hk, htwice, ite_self, if_pos List.mem_cons_self]
    · simp only [if_false, List.mem_cons, hk, false_or]

/-! The issues. -/

theorem Write.issues_apply {w : Write} (hw : ∀ row, w ≠ .insertInvitation row) (d : Db) :
    (w.apply d).issues = d.issues := by
  cases w with
  | insertInvitation row => exact absurd rfl (hw row)
  | supersede id now => exact Table.map_modify (superseded_id now) (fun _ => rfl) id
  | useInvitation id now accountId =>
    exact Table.map_modify (used_id now accountId) (fun _ => rfl) id
  | insertAccount row => rfl
  | insertDevice row => rfl

theorem issues_insert {row : AccountInvitation} (hnew : d.invitations.find? row.id = none) :
    (Write.apply d (.insertInvitation row)).issues = d.issues ++ [row.issue] := by
  change (d.invitations.put row).rows.map _ = _
  rw [Table.put_rows_new hnew, List.map_append]
  rfl

/-- The issue a commit adds, with what it keeps. -/
inductive Issues (host : Host) (d₀ : Db) (reqs : List Request) (h : History invitations)
    (c : Commit invitations) : List Issue → Prop where
  | same : Issues host d₀ reqs h c (replay (S := invitations) d₀ h).issues
  | issued {env : Env} {actor : Actor} {memberId rawEmail email : String}
    (hreq : reqs[c.pid]? = some (.invite env actor memberId rawEmail))
    (hw : .insertInvitation (newInvitation host env actor memberId email) ∈ c.writes)
    (hlock : (.member (uuid memberId), .update) ∈ c.locks)
    (hspaced : Spaced ((replay (S := invitations) d₀ h).issuesOf actor.contextId (uuid memberId))
      (env.now 0))
    (hlimit : (∃ x ∈ (replay (S := invitations) d₀ h).issues,
        x.isOf actor.contextId (uuid memberId)) ∨
      BelowLimit d₀ c.pid h actor.contextId (uuid actor.selectedMemberId) (env.now 0 - dayMs)) :
    Issues host d₀ reqs h c ((replay (S := invitations) d₀ h).issues ++
      [(newInvitation host env actor memberId email).issue])

theorem Commits.issues (hc : Commits host d₀ reqs h c) :
    Issues host d₀ reqs h c (replay (S := invitations) d₀ (h ++ [.commit c])).issues := by
  obtain ⟨r, hreq, hw⟩ := hc
  rw [replay_committed]
  have hquiet : ∀ {ws : List Write} {d : Db}, (∀ w ∈ ws, ∀ row, w ≠ .insertInvitation row) →
      (applyAll (S := invitations) d ws).issues = d.issues := by
    intro ws d hws
    exact applyAll_read_eq (S := invitations) Db.issues
      (fun w hw d => Write.issues_apply (hws w hw) d) d
  rcases hw with hw | he
  · rw [hw]
    exact .same
  generalize hws : c.writes = ws at he
  cases he with
  | @invited env actor memberId rawEmail email ids hlock hnew hspaced hlimit hids =>
    have hsame : (applyAll (S := invitations) (replay (S := invitations) d₀ h)
        (ids.map fun k => Write.supersede k (env.now 0))).issues =
        (replay (S := invitations) d₀ h).issues := by
      refine hquiet ?_
      intro w hw
      obtain ⟨k, -, rfl⟩ := List.mem_map.mp hw
      exact fun _ => Write.noConfusion
    have hnew' : (applyAll (S := invitations) (replay (S := invitations) d₀ h)
        (ids.map fun k => Write.supersede k (env.now 0))).invitations.find?
          (newInvitation host env actor memberId email).id = none := by
      rw [find?_supersedeAll]
      change (if _ then ((replay (S := invitations) d₀ h).invitations.find? (env.serverId 0)).map _
        else (replay (S := invitations) d₀ h).invitations.find? (env.serverId 0)) = _
      rw [hnew]
      exact ite_self _
    rw [applyAll_append]
    change Issues host d₀ reqs h c (Write.apply _ (.insertInvitation _)).issues
    rw [issues_insert hnew', hsame]
    exact .issued hreq (by rw [hws]; simp) hlock hspaced hlimit
  | failed =>
    rw [hquiet (by simp)]
    exact .same
  | accepted _ _ _ _ _ _ _ _ =>
    rw [hquiet (by simp)]
    exact .same

/-- The issues only grow. -/
theorem Commits.issues_grow (hc : Commits host d₀ reqs h c) :
    (replay (S := invitations) d₀ h).issues <+:
      (replay (S := invitations) d₀ (h ++ [.commit c])).issues := by
  have hi := hc.issues
  generalize (replay (S := invitations) d₀ (h ++ [.commit c])).issues = xs at hi
  cases hi with
  | same => exact List.prefix_refl _
  | issued _ _ _ _ _ => exact List.prefix_append _ _

theorem Lawful.issues_grow {n : History invitations}
    (hl : Lawful (Commits host d₀ reqs) (h ++ n)) :
    (replay (S := invitations) d₀ h).issues <+: (replay (S := invitations) d₀ (h ++ n)).issues := by
  induction n using List.reverseRecOn with
  | nil => simp only [List.append_nil, List.prefix_refl]
  | append_singleton n e ih =>
    rw [← List.append_assoc] at hl ⊢
    have ih := ih hl.left
    cases e with
    | exec j q =>
      rw [replay_sent]
      exact ih
    | commit c => exact ih.trans (hl (h ++ n) c [] rfl).2.issues_grow

/-! One invitation. -/

/-- What was there of an invitation that a commit leaves as the row given. -/
inductive Turn (host : Host) (reqs : List Request) (d : Db) (c : Commit invitations) (id : Uuid) :
    Option AccountInvitation → AccountInvitation → Prop where
  | stay {x : AccountInvitation} (hno : ∀ w ∈ c.writes, w.key ≠ .invitation id) :
    Turn host reqs d c id (some x) x
  | issue {env : Env} {actor : Actor} {memberId rawEmail email : String}
    (hreq : reqs[c.pid]? = some (.invite env actor memberId rawEmail))
    (hw : .insertInvitation (newInvitation host env actor memberId email) ∈ c.writes)
    (hid : env.serverId 0 = id)
    (hothers : ∀ k x, d.invitations.find? k = some x → x.isOf actor.contextId (uuid memberId) →
      x.unspent → .supersede k (env.now 0) ∈ c.writes) :
    Turn host reqs d c id none (newInvitation host env actor memberId email)
  | supersede {env : Env} {actor : Actor} {memberId rawEmail : String} {now : Instant}
    {x : AccountInvitation} (hreq : reqs[c.pid]? = some (.invite env actor memberId rawEmail))
    (hw : .supersede id now ∈ c.writes) : Turn host reqs d c id (some x) (superseded now x)
  | use {env : Env} {token : String} {x : AccountInvitation}
    (hreq : reqs[c.pid]? = some (.accept env token))
    (hw : .useInvitation id (env.now 1) (env.serverId 0) ∈ c.writes) (hunspent : x.unspent) :
    Turn host reqs d c id (some x) (used (env.now 1) (env.serverId 0) x)

/-- One commit, seen from one invitation that is there after it. -/
theorem Commits.turn (hc : Commits host d₀ reqs h c)
    (hy : (replay (S := invitations) d₀ (h ++ [.commit c])).invitations.find? id = some y) :
    Turn host reqs (replay (S := invitations) d₀ h) c id
      ((replay (S := invitations) d₀ h).invitations.find? id) y := by
  obtain ⟨r, hreq, hw⟩ := hc
  rw [replay_committed] at hy
  by_cases hno : ∀ w ∈ c.writes, w.key ≠ .invitation id
  · rw [applyAll_read_eq (S := invitations) (fun v => v.invitations.find? id) fun w hw d =>
      invitations_apply_ne (hno w hw)] at hy
    rw [hy]
    exact .stay hno
  push Not at hno
  obtain ⟨w, hmem, hkey⟩ := hno
  rcases hw with hw | he
  · rw [hw] at hmem
    cases hmem
  generalize hws : c.writes = ws at he hy hmem
  cases he with
  | @invited env actor memberId rawEmail email ids hlock hnew hspaced hlimit hids =>
    have hothers : ∀ k x, (replay (S := invitations) d₀ h).invitations.find? k = some x →
        x.isOf actor.contextId (uuid memberId) → x.unspent → .supersede k (env.now 0) ∈ c.writes := by
      intro k x hx hof hun
      rw [hws]
      exact List.mem_append_left _ (List.mem_map.mpr ⟨k, hids k x hx hof hun, rfl⟩)
    rw [applyAll_append] at hy
    change (Table.put (applyAll (S := invitations) _ _).invitations
      (newInvitation host env actor memberId email)).find? id = _ at hy
    rw [Table.find?_put] at hy
    split at hy
    · rename_i hid
      obtain rfl : id = env.serverId 0 := hid
      cases hy
      rw [hnew]
      exact .issue hreq (by rw [hws]; simp) rfl hothers
    · rename_i hid
      rcases List.mem_append.mp hmem with hmem | hmem
      · obtain ⟨k, hk, rfl⟩ := List.mem_map.mp hmem
        obtain rfl : k = id := Key.invitation.inj hkey
        rw [find?_supersedeAll, if_pos hk] at hy
        obtain ⟨x, hx, rfl⟩ := Option.map_eq_some_iff.mp hy
        rw [hx]
        exact .supersede hreq (by
          rw [hws]
          exact List.mem_append_left _ (List.mem_map.mpr ⟨k, hk, rfl⟩))
      · obtain rfl := List.mem_singleton.mp hmem
        exact absurd (Key.invitation.inj hkey).symm hid
  | @failed env actor memberId rawEmail =>
    obtain rfl := List.mem_singleton.mp hmem
    obtain rfl : env.serverId 0 = id := Key.invitation.inj hkey
    change (Table.modify _ _ (superseded (env.now 1))).find? _ = _ at hy
    rw [Table.find?_modify (superseded_id _), if_pos rfl] at hy
    obtain ⟨x, hx, rfl⟩ := Option.map_eq_some_iff.mp hy
    rw [hx]
    exact .supersede hreq (by rw [hws]; exact List.mem_cons_self)
  | @accepted env token name inv hinv hunspent hlive htoken hslot hnone haccount hdevice =>
    have hid : inv.id = id := by
      simp only [List.mem_cons, List.not_mem_nil, or_false] at hmem
      rcases hmem with rfl | rfl | rfl
      · cases hkey
      · cases hkey
      · exact Key.invitation.inj hkey
    subst hid
    change (Table.modify _ _ (used (env.now 1) (env.serverId 0))).find? _ = _ at hy
    rw [Table.find?_modify (used_id _ _), if_pos rfl] at hy
    obtain ⟨x, hx, rfl⟩ := Option.map_eq_some_iff.mp hy
    have hx : (replay (S := invitations) d₀ h).invitations.find? inv.id = some x := hx
    cases hinv.symm.trans hx
    rw [hx]
    exact .use hreq (by rw [hws]; simp) hunspent

/-- An invitation that a turn leaves unspent is new or was so before. -/
theorem Turn.unspent (ht : Turn host reqs d c id (some x) y) (hy : y.unspent) : x.unspent := by
  cases ht with
  | stay _ => exact hy
  | supersede _ _ => cases hy.2
  | use _ _ hx => exact hx

theorem Turn.issue_eq (ht : Turn host reqs d c id (some x) y) : y.issue = x.issue := by
  cases ht <;> rfl

/-- An invitation that is there stays there. -/
theorem find?_applyAll_present (ws : List Write) (hx : d.invitations.find? id = some x) :
    ∃ y, (applyAll (S := invitations) d ws).invitations.find? id = some y := by
  induction ws generalizing d x with
  | nil => exact ⟨x, hx⟩
  | cons w ws ih =>
    have hw : ∃ y, (Write.apply d w).invitations.find? id = some y := by
      by_cases hk : w.key = .invitation id
      · cases w with
        | insertInvitation row =>
          obtain rfl : row.id = id := Key.invitation.inj hk
          exact ⟨row, Table.find?_put_self⟩
        | supersede k now =>
          obtain rfl : k = id := Key.invitation.inj hk
          refine ⟨superseded now x, (Table.find?_modify (superseded_id now) k).trans ?_⟩
          rw [if_pos rfl, hx]
          rfl
        | useInvitation k now accountId =>
          obtain rfl : k = id := Key.invitation.inj hk
          refine ⟨used now accountId x, (Table.find?_modify (used_id now accountId) k).trans ?_⟩
          rw [if_pos rfl, hx]
          rfl
        | _ => cases hk
      · exact ⟨x, (invitations_apply_ne hk).trans hx⟩
    obtain ⟨y, hy⟩ := hw
    exact ih hy

/-- What every turn of an invitation in `n` keeps holds of it after `n`. -/
theorem Lawful.row_stays {n : History invitations} {P : AccountInvitation → Prop}
    (hl : Lawful (Commits host d₀ reqs) (h ++ n))
    (h0 : ∃ x, (replay (S := invitations) d₀ h).invitations.find? id = some x ∧ P x)
    (hs : ∀ c d x y, .commit c ∈ n → Turn host reqs d c id (some x) y → P x → P y) :
    ∃ x, (replay (S := invitations) d₀ (h ++ n)).invitations.find? id = some x ∧ P x := by
  induction n using List.reverseRecOn with
  | nil => simpa using h0
  | append_singleton n e ih =>
    rw [← List.append_assoc] at hl ⊢
    obtain ⟨x, hx, hp⟩ := ih hl.left fun c d x y hc => hs c d x y (List.mem_append_left _ hc)
    cases e with
    | exec j q =>
      rw [replay_sent]
      exact ⟨x, hx, hp⟩
    | commit c =>
      have hc := (hl (h ++ n) c [] rfl).2
      obtain ⟨y, hy⟩ := find?_applyAll_present c.writes hx
      have hy : (replay (S := invitations) d₀ (h ++ n ++ [.commit c])).invitations.find? id =
          some y := by
        rw [replay_committed]
        exact hy
      have hturn := hc.turn hy
      rw [hx] at hturn
      exact ⟨y, hy, hs c _ x y (by simp) hturn hp⟩

/-! What locks keep from others. -/

section
variable {i : Nat} {held : Locks Key} {h' : History invitations} {contextId : String}
variable {memberId : Uuid}

/-- Nobody invites a person whose row is locked. -/
theorem Later.issuesOf_eq (hl : Later (S := invitations) (Commits host d₀ reqs) i held h h')
    (hlock : (.member memberId, .update) ∈ held) :
    (replay (S := invitations) d₀ h').issuesOf contextId memberId =
      (replay (S := invitations) d₀ h).issuesOf contextId memberId := by
  refine hl.induct (S := invitations) d₀ (fun d => d.issuesOf contextId memberId =
    (replay (S := invitations) d₀ h).issuesOf contextId memberId) rfl ?_
  intro h₁ c _ _ ih _ hapart _ hg
  rw [← ih]
  have hi := hg.issues
  rw [replay_committed] at hi
  unfold Db.issuesOf
  generalize (applyAll (S := invitations) (replay (S := invitations) d₀ h₁) c.writes).issues = xs
    at hi ⊢
  cases hi with
  | same => rfl
  | @issued env actor memberId' rawEmail email hreq hw hlock' hspaced hlimit =>
    rw [List.filter_append]
    have hne : uuid memberId' ≠ memberId := by
      rintro rfl
      have hf := hapart _ hlock _ hlock' rfl
      cases hf
    rw [List.filter_cons_of_neg (by
      intro hx
      exact hne (of_decide_eq_true hx).2)]
    exact List.append_nil _

/-- Nobody gives a login to a person whose slot, or whose row, is locked. -/
theorem Later.account_old (hl : Later (S := invitations) (Commits host d₀ reqs) i held h h')
    (hlock : (.accountMember memberId, .update) ∈ held ∨ (.member memberId, .update) ∈ held) :
    ∀ a ∈ (replay (S := invitations) d₀ h').accounts.rows, a.memberId = some memberId →
      a ∈ (replay (S := invitations) d₀ h).accounts.rows := by
  refine hl.induct (S := invitations) d₀ (fun d => ∀ a ∈ d.accounts.rows,
    a.memberId = some memberId → a ∈ (replay (S := invitations) d₀ h).accounts.rows)
    (fun a ha _ => ha) ?_
  intro h₁ c _ _ ih _ hapart _ ⟨r, hreq, hw⟩
  rcases hw with hw | he
  · rw [hw]
    exact ih
  generalize c.writes = ws at he ⊢
  cases he with
  | @invited env actor memberId rawEmail email ids _ _ _ _ _ =>
    rw [applyAll_read_eq (S := invitations) Db.accounts (by
      intro w hw d
      rcases List.mem_append.mp hw with hw | hw
      · obtain ⟨k, -, rfl⟩ := List.mem_map.mp hw
        rfl
      · obtain rfl := List.mem_singleton.mp hw
        rfl)]
    exact ih
  | failed => exact ih
  | @accepted env token name inv _ _ _ _ hslot _ _ _ =>
    intro a ha
    have ha : a ∈ ((replay (S := invitations) d₀ h₁).accounts.put (acceptedAccount env inv)).rows := ha
    rcases Table.mem_put.mp ha with rfl | ⟨ha, -⟩
    · intro hm
      obtain rfl : inv.memberId = memberId := Option.some.inj hm
      exfalso
      rcases hlock with hlock | hlock
      · have hf := hapart _ hlock _ hslot.1 rfl
        cases hf
      · have hf := hapart _ hlock _ hslot.2 rfl
        cases hf
    · exact ih a ha

end

end Bazar.Invitations
