import BazarApi.MemberEmail.Service
import BazarApi.Txn.Logic

/- What a commit of a request or of a confirmation does, said without its program, and one
   link and one person seen through a commit. Nothing deletes a link or changes what it is
   for; a link once used or replaced stays so. -/
namespace Bazar.MemberEmail

open Txn Team Registration

inductive Request where
  | request (env : Env) (actor : Actor) (rawCorreo : String)
  | confirm (env : Env) (token : String)

inductive Answer where
  | requested (a : RequestAnswer)
  | confirmed (correo : String)

/-- The program that serves a request. -/
def Request.call (host : Host) : Request → Call emails Answer
  | .request env actor rawCorreo => do
    return .requested (← MemberEmail.request host env actor rawCorreo)
  | .confirm env token => do return .confirmed (← MemberEmail.confirm host env token)

/-- No address, as JavaScript reads it. -/
def Unset (m : Member) : Prop := ∀ s, m.correo = some s → s = ""

/-- What request `i` writes when it writes anything, after history `h`, under its locks. -/
inductive Effect (host : Host) (d₀ : Db) (h : History emails) (locks : Locks Key) :
    Request → List Write → Prop where
  | requested {env : Env} {actor : Actor} {rawCorreo correo : String} {ids : List Uuid}
    (hlock : (.member actor.memberId, .update) ∈ locks) (hcorreo : correo ≠ "")
    (hunset : ∀ m, (replay (S := emails) d₀ h).members.find? actor.memberId = some m → Unset m)
    (hnew : (replay (S := emails) d₀ h).confirmations.find? (env.serverId 0) = none)
    (hids : ∀ k x, (replay (S := emails) d₀ h).confirmations.find? k = some x →
      x.isOf actor.contextId actor.memberId → x.unspent → k ∈ ids) :
    Effect host d₀ h locks (.request env actor rawCorreo)
      (ids.map (fun k => .supersede k (env.now 0)) ++
        [.insertConfirmation (newConfirmation host env actor correo)])
  | failed {env : Env} {actor : Actor} {rawCorreo : String} :
    Effect host d₀ h locks (.request env actor rawCorreo) [.supersede (env.serverId 0) (env.now 1)]
  | confirmed {env : Env} {token : String} {x : MemberEmailConfirmation} {m : Member}
    {ids : List Uuid}
    (hx : (replay (S := emails) d₀ h).confirmations.find? x.id = some x) (hunspent : x.unspent)
    (hlive : env.now 0 < x.expiresAt) (htoken : x.tokenHash = hashSingleUseToken host token)
    (hslot : (.correo x.correo, .update) ∈ locks)
    (hmember : (replay (S := emails) d₀ h).members.find? x.memberId = some m)
    (hnone : m.correo = none)
    (hfree : ∀ o ∈ (replay (S := emails) d₀ h).members.rows, o.correo ≠ some x.correo)
    (hapart : x.id ∉ ids)
    (hids : ∀ k y, (replay (S := emails) d₀ h).confirmations.find? k = some y →
      y.isOf x.contextId x.memberId → y.unspent → k ≠ x.id → k ∈ ids) :
    Effect host d₀ h locks (.confirm env token)
      ([.setCorreo x.memberId x.correo, .use x.id (env.now 0)] ++
        ids.map fun k => .supersede k (env.now 0))

/-- Every commit is of one of the requests, and writes nothing or what that request writes. -/
def Commits (host : Host) (d₀ : Db) (reqs : List Request) (h : History emails)
    (c : Commit emails) : Prop :=
  ∃ r, reqs[c.pid]? = some r ∧ (c.writes = [] ∨ Effect host d₀ h c.locks r c.writes)

/-! What never changes of a link. -/

structure Link where
  id : Uuid
  contextId : String
  memberId : Uuid
  correo : String
  deriving DecidableEq

def MemberEmailConfirmation.link (x : MemberEmailConfirmation) : Link :=
  ⟨x.id, x.contextId, x.memberId, x.correo⟩

theorem isOf_of_link_eq {x y : MemberEmailConfirmation} {contextId : String} {memberId : Uuid}
    (he : y.link = x.link) (hy : y.isOf contextId memberId) : x.isOf contextId memberId :=
  ⟨(congrArg Link.contextId he).symm.trans hy.1, (congrArg Link.memberId he).symm.trans hy.2⟩

variable {host : Host} {d₀ d : Db} {reqs : List Request} {h : History emails}
variable {c : Commit emails} {id : Uuid} {x y : MemberEmailConfirmation}

/-! Reading a row that a write leaves alone. -/

theorem withCorreo_id (correo : String) (m : Member) :
    Keyed.key (withCorreo correo m) = Keyed.key m := rfl

theorem superseded_id (now : Instant) (x : MemberEmailConfirmation) :
    Keyed.key (superseded now x) = Keyed.key x := rfl

theorem used_id (now : Instant) (x : MemberEmailConfirmation) :
    Keyed.key (used now x) = Keyed.key x := rfl

theorem confirmations_apply_ne {w : Write} {k : Uuid} (h : w.key ≠ .confirmation k) :
    (w.apply d).confirmations.find? k = d.confirmations.find? k := by
  cases w with
  | setCorreo id correo => rfl
  | insertConfirmation r =>
    refine Table.find?_put_ne ?_
    rintro rfl
    exact h rfl
  | supersede id now =>
    refine Table.find?_modify_ne (superseded_id now) ?_
    rintro rfl
    exact h rfl
  | use id now =>
    refine Table.find?_modify_ne (used_id now) ?_
    rintro rfl
    exact h rfl

theorem members_apply_ne {w : Write} {k : Uuid} (h : w.key ≠ .member k) :
    (w.apply d).members.find? k = d.members.find? k := by
  cases w with
  | setCorreo id correo =>
    refine Table.find?_modify_ne (withCorreo_id correo) ?_
    rintro rfl
    exact h rfl
  | _ => rfl

/-- Several links replaced at once. -/
theorem find?_supersedeAll (ids : List Uuid) (now : Instant) (d : Db) :
    (applyAll (S := emails) d (ids.map fun k => Write.supersede k now)).confirmations.find? id =
      if id ∈ ids then (d.confirmations.find? id).map (superseded now)
      else d.confirmations.find? id := by
  induction ids generalizing d with
  | nil => rfl
  | cons k ids ih =>
    rw [List.map_cons, applyAll_cons, ih]
    change (if _ then ((d.confirmations.modify k (superseded now)).find? id).map _
      else (d.confirmations.modify k (superseded now)).find? id) = _
    rw [Table.find?_modify (superseded_id now)]
    by_cases hk : id = k
    · have htwice : ((d.confirmations.find? id).map (superseded now)).map (superseded now) =
          (d.confirmations.find? id).map (superseded now) := by
        cases d.confirmations.find? id <;> rfl
      rw [if_pos hk, ← hk, htwice, ite_self, if_pos List.mem_cons_self]
    · simp only [if_false, List.mem_cons, hk, false_or]

/-- Links replaced leave the people alone. -/
theorem members_supersedeAll (ids : List Uuid) (now : Instant) (d : Db) :
    (applyAll (S := emails) d (ids.map fun k => Write.supersede k now)).members = d.members := by
  refine applyAll_read_eq (S := emails) Db.members ?_ d
  intro w hw d
  obtain ⟨k, -, rfl⟩ := List.mem_map.mp hw
  rfl

/-! One link. -/

/-- What was there of a link that a commit leaves as the row given. -/
inductive Turn (host : Host) (reqs : List Request) (d : Db) (c : Commit emails) (id : Uuid) :
    Option MemberEmailConfirmation → MemberEmailConfirmation → Prop where
  | stay {x : MemberEmailConfirmation} (hno : ∀ w ∈ c.writes, w.key ≠ .confirmation id) :
    Turn host reqs d c id (some x) x
  | issue {env : Env} {actor : Actor} {rawCorreo correo : String}
    (hreq : reqs[c.pid]? = some (.request env actor rawCorreo)) (hcorreo : correo ≠ "")
    (hlock : (.member actor.memberId, .update) ∈ c.locks)
    (hunset : ∀ m, d.members.find? actor.memberId = some m → Unset m) :
    Turn host reqs d c id none (newConfirmation host env actor correo)
  | supersede {now : Instant} {x : MemberEmailConfirmation} (hw : .supersede id now ∈ c.writes) :
    Turn host reqs d c id (some x) (superseded now x)
  | use {env : Env} {token : String} {x : MemberEmailConfirmation}
    (hreq : reqs[c.pid]? = some (.confirm env token)) (hw : .use id (env.now 0) ∈ c.writes)
    (hunspent : x.unspent) : Turn host reqs d c id (some x) (used (env.now 0) x)

/-- One commit, seen from one link that is there after it. -/
theorem Commits.turn (hc : Commits host d₀ reqs h c)
    (hy : (replay (S := emails) d₀ (h ++ [.commit c])).confirmations.find? id = some y) :
    Turn host reqs (replay (S := emails) d₀ h) c id
      ((replay (S := emails) d₀ h).confirmations.find? id) y := by
  obtain ⟨r, hreq, hw⟩ := hc
  rw [replay_committed] at hy
  by_cases hno : ∀ w ∈ c.writes, w.key ≠ .confirmation id
  · rw [applyAll_read_eq (S := emails) (fun v => v.confirmations.find? id) fun w hw d =>
      confirmations_apply_ne (hno w hw)] at hy
    rw [hy]
    exact .stay hno
  push Not at hno
  obtain ⟨w, hmem, hkey⟩ := hno
  rcases hw with hw | he
  · rw [hw] at hmem
    cases hmem
  generalize hws : c.writes = ws at he hy hmem
  cases he with
  | @requested env actor rawCorreo correo ids hlock hcorreo hunset hnew hids =>
    rw [applyAll_append] at hy
    change (Table.put (applyAll (S := emails) _ _).confirmations
      (newConfirmation host env actor correo)).find? id = _ at hy
    rw [Table.find?_put] at hy
    split at hy
    · rename_i hid
      obtain rfl : id = env.serverId 0 := hid
      cases hy
      rw [hnew]
      exact .issue hreq hcorreo hlock hunset
    · rename_i hid
      rcases List.mem_append.mp hmem with hmem | hmem
      · obtain ⟨k, hk, rfl⟩ := List.mem_map.mp hmem
        obtain rfl : k = id := Key.confirmation.inj hkey
        rw [find?_supersedeAll, if_pos hk] at hy
        obtain ⟨x, hx, rfl⟩ := Option.map_eq_some_iff.mp hy
        rw [hx]
        exact .supersede (by
          rw [hws]
          exact List.mem_append_left _ (List.mem_map.mpr ⟨k, hk, rfl⟩))
      · obtain rfl := List.mem_singleton.mp hmem
        exact absurd (Key.confirmation.inj hkey).symm hid
  | @failed env actor rawCorreo =>
    obtain rfl := List.mem_singleton.mp hmem
    obtain rfl : env.serverId 0 = id := Key.confirmation.inj hkey
    change (Table.modify _ _ (superseded (env.now 1))).find? _ = _ at hy
    rw [Table.find?_modify (superseded_id _), if_pos rfl] at hy
    obtain ⟨x, hx, rfl⟩ := Option.map_eq_some_iff.mp hy
    rw [hx]
    exact .supersede (by rw [hws]; exact List.mem_cons_self)
  | @confirmed env token z m ids hz hunspent hlive htoken hslot hmember hnone hfree hapart hids =>
    rw [applyAll_append, find?_supersedeAll] at hy
    change (if id ∈ ids then Option.map _ ((Table.modify _ _ (used (env.now 0))).find? id)
      else (Table.modify _ _ (used (env.now 0))).find? id) = _ at hy
    rw [Table.find?_modify (used_id _)] at hy
    rcases List.mem_append.mp hmem with hmem | hmem
    · simp only [List.mem_cons, List.not_mem_nil, or_false] at hmem
      rcases hmem with rfl | rfl
      · cases hkey
      · obtain rfl : z.id = id := Key.confirmation.inj hkey
        rw [if_neg hapart, if_pos rfl] at hy
        obtain ⟨x, hx, rfl⟩ := Option.map_eq_some_iff.mp hy
        have hx : (replay (S := emails) d₀ h).confirmations.find? z.id = some x := hx
        cases hz.symm.trans hx
        rw [hz]
        exact .use hreq (by rw [hws]; simp) hunspent
    · obtain ⟨k, hk, rfl⟩ := List.mem_map.mp hmem
      obtain rfl : k = id := Key.confirmation.inj hkey
      have hne : k ≠ z.id := fun he => hapart (he ▸ hk)
      rw [if_pos hk, if_neg hne] at hy
      obtain ⟨x, hx, rfl⟩ := Option.map_eq_some_iff.mp hy
      have hx : (replay (S := emails) d₀ h).confirmations.find? k = some x := hx
      rw [hx]
      exact .supersede (by
        rw [hws]
        exact List.mem_append_right _ (List.mem_map.mpr ⟨k, hk, rfl⟩))

/-- A link that a turn leaves unspent is new or was so before. -/
theorem Turn.unspent (ht : Turn host reqs d c id (some x) y) (hy : y.unspent) : x.unspent := by
  cases ht with
  | stay _ => exact hy
  | supersede _ => cases hy.2
  | use _ _ hx => exact hx

theorem Turn.link_eq (ht : Turn host reqs d c id (some x) y) : y.link = x.link := by
  cases ht <;> rfl

/-- A link that is there stays there. -/
theorem find?_applyAll_present (ws : List Write) (hx : d.confirmations.find? id = some x) :
    ∃ y, (applyAll (S := emails) d ws).confirmations.find? id = some y := by
  induction ws generalizing d x with
  | nil => exact ⟨x, hx⟩
  | cons w ws ih =>
    have hw : ∃ y, (Write.apply d w).confirmations.find? id = some y := by
      by_cases hk : w.key = .confirmation id
      · cases w with
        | setCorreo k correo => cases hk
        | insertConfirmation row =>
          obtain rfl : row.id = id := Key.confirmation.inj hk
          exact ⟨row, Table.find?_put_self⟩
        | supersede k now =>
          obtain rfl : k = id := Key.confirmation.inj hk
          refine ⟨superseded now x, (Table.find?_modify (superseded_id now) k).trans ?_⟩
          rw [if_pos rfl, hx]
          rfl
        | use k now =>
          obtain rfl : k = id := Key.confirmation.inj hk
          refine ⟨used now x, (Table.find?_modify (used_id now) k).trans ?_⟩
          rw [if_pos rfl, hx]
          rfl
      · exact ⟨x, (confirmations_apply_ne hk).trans hx⟩
    obtain ⟨y, hy⟩ := hw
    exact ih hy

/-- What every turn of a link in `n` keeps holds of it after `n`. -/
theorem Lawful.row_stays {n : History emails} {P : MemberEmailConfirmation → Prop}
    (hl : Lawful (Commits host d₀ reqs) (h ++ n))
    (h0 : ∃ x, (replay (S := emails) d₀ h).confirmations.find? id = some x ∧ P x)
    (hs : ∀ c d x y, Turn host reqs d c id (some x) y → P x → P y) :
    ∃ x, (replay (S := emails) d₀ (h ++ n)).confirmations.find? id = some x ∧ P x := by
  induction n using List.reverseRecOn with
  | nil => simpa using h0
  | append_singleton n e ih =>
    rw [← List.append_assoc] at hl ⊢
    obtain ⟨x, hx, hp⟩ := ih hl.left
    cases e with
    | exec j q =>
      rw [replay_sent]
      exact ⟨x, hx, hp⟩
    | commit c =>
      have hc := (hl (h ++ n) c [] rfl).2
      obtain ⟨y, hy⟩ := find?_applyAll_present c.writes hx
      have hy : (replay (S := emails) d₀ (h ++ n ++ [.commit c])).confirmations.find? id =
          some y := by
        rw [replay_committed]
        exact hy
      have hturn := hc.turn hy
      rw [hx] at hturn
      exact ⟨y, hy, hs c _ x y hturn hp⟩

/-! One person. -/

/-- What a commit does to the people: nothing, or it gives one their address. -/
inductive Gives (host : Host) (reqs : List Request) (d : Db) (c : Commit emails) :
    Table Member → Prop where
  | none : Gives host reqs d c d.members
  | gives {env : Env} {token : String} {x : MemberEmailConfirmation} {m : Member}
    (hreq : reqs[c.pid]? = some (.confirm env token))
    (hw : .use x.id (env.now 0) ∈ c.writes) (hslot : (.correo x.correo, .update) ∈ c.locks)
    (hx : d.confirmations.find? x.id = some x)
    (hmember : d.members.find? x.memberId = some m) (hnone : m.correo = Option.none)
    (hfree : ∀ o ∈ d.members.rows, o.correo ≠ some x.correo) :
    Gives host reqs d c (d.members.modify x.memberId (withCorreo x.correo))

theorem Commits.gives (hc : Commits host d₀ reqs h c) :
    Gives host reqs (replay (S := emails) d₀ h) c
      (replay (S := emails) d₀ (h ++ [.commit c])).members := by
  obtain ⟨r, hreq, hw⟩ := hc
  rw [replay_committed]
  rcases hw with hw | he
  · rw [hw]
    exact .none
  generalize hws : c.writes = ws at he
  cases he with
  | @requested env actor rawCorreo correo ids _ _ _ _ _ =>
    rw [applyAll_append]
    change Gives host reqs _ c (applyAll (S := emails) (replay (S := emails) d₀ h)
      (ids.map fun k => Write.supersede k (env.now 0))).members
    rw [members_supersedeAll]
    exact .none
  | failed => exact .none
  | @confirmed env token x m ids hx _ _ _ hslot hmember hnone hfree _ _ =>
    rw [applyAll_append, members_supersedeAll]
    exact .gives hreq (by rw [hws]; simp) hslot hx hmember hnone hfree

/-- Who is there was there before, in the same business. -/
theorem Lawful.member_old {h' : History emails} (hl : Lawful (Commits host d₀ reqs) h')
    (hp : h <+: h') :
    ∀ m, (replay (S := emails) d₀ h').members.find? id = some m →
      ∃ m', (replay (S := emails) d₀ h).members.find? id = some m' ∧ m'.contextId = m.contextId := by
  refine hl.keep (S := emails) d₀ (fun d => ∀ m, d.members.find? id = some m →
    ∃ m', (replay (S := emails) d₀ h).members.find? id = some m' ∧ m'.contextId = m.contextId) hp
    (fun m hm => ⟨m, hm, rfl⟩) ?_
  intro h₁ c _ _ ih _ hg
  have hgives := hg.gives
  rw [replay_committed] at hgives
  generalize (applyAll (S := emails) (replay (S := emails) d₀ h₁) c.writes).members = t
    at hgives ⊢
  cases hgives with
  | none => exact ih
  | gives _ _ _ _ _ _ _ =>
    intro m hm
    rw [Table.find?_modify (withCorreo_id _)] at hm
    split at hm
    · rename_i hid
      obtain ⟨m', hm', rfl⟩ := Option.map_eq_some_iff.mp hm
      rw [← hid] at hm'
      exact ih m' hm'
    · exact ih m hm

/-! What locks keep from others. -/

section
variable {i : Nat} {held : Locks Key} {h' : History emails} {contextId : String} {memberId : Uuid}

/-- Nobody asks for another link of a person whose row is locked. -/
theorem Later.link_old (hl : Later (S := emails) (Commits host d₀ reqs) i held h h')
    (hlock : (.member memberId, .update) ∈ held) :
    ∀ y ∈ (replay (S := emails) d₀ h').confirmations.rows, y.isOf contextId memberId →
      y.unspent → ∃ x ∈ (replay (S := emails) d₀ h).confirmations.rows, x.id = y.id ∧
        x.isOf contextId memberId ∧ x.unspent := by
  refine hl.induct (S := emails) d₀ (fun d => ∀ y ∈ d.confirmations.rows,
    y.isOf contextId memberId → y.unspent →
      ∃ x ∈ (replay (S := emails) d₀ h).confirmations.rows, x.id = y.id ∧
        x.isOf contextId memberId ∧ x.unspent)
    (fun y hy hof hun => ⟨y, hy, rfl, hof, hun⟩) ?_
  intro h₁ c _ _ ih _ hapart _ hg y hy hof hun
  have hy := Table.find?_of_mem hy
  rw [← replay_nil (S := emails) (applyAll (S := emails) _ c.writes), ← replay_commit,
    ← replay_append] at hy
  have hturn := hg.turn hy
  generalize hx : (replay (S := emails) d₀ h₁).confirmations.find? (Keyed.key y) = x at hturn
  cases x with
  | some x =>
    obtain ⟨z, hz, hid, hz'⟩ := ih x (Table.mem_of_find? hx) (isOf_of_link_eq hturn.link_eq hof)
      (hturn.unspent hun)
    exact ⟨z, hz, hid.trans (Table.find?_key hx), hz'⟩
  | none =>
    cases hturn with
    | issue _ _ hlock' _ =>
      obtain ⟨-, rfl⟩ := hof
      have hf := hapart _ hlock _ hlock' rfl
      cases hf

/-- Nobody gets an address whose slot is locked. -/
theorem Later.correo_free {correo : String}
    (hl : Later (S := emails) (Commits host d₀ reqs) i held h h')
    (hlock : (.correo correo, .update) ∈ held)
    (hno : ∀ o ∈ (replay (S := emails) d₀ h).members.rows, o.correo ≠ some correo) :
    ∀ o ∈ (replay (S := emails) d₀ h').members.rows, o.correo ≠ some correo := by
  refine hl.induct (S := emails) d₀ (fun d => ∀ o ∈ d.members.rows, o.correo ≠ some correo) hno ?_
  intro h₁ c _ _ ih _ hapart _ hg
  have hgives := hg.gives
  rw [replay_committed] at hgives
  generalize (applyAll (S := emails) (replay (S := emails) d₀ h₁) c.writes).members = t
    at hgives ⊢
  cases hgives with
  | none => exact ih
  | @gives env token x m hreq hw hslot hx hmember hnone hfree =>
    intro o ho he
    have ho := Table.find?_of_mem ho
    rw [Table.find?_modify (withCorreo_id _)] at ho
    split at ho
    · obtain ⟨z, hz, rfl⟩ := Option.map_eq_some_iff.mp ho
      obtain rfl : x.correo = correo := Option.some.inj he
      have hf := hapart _ hlock _ hslot rfl
      cases hf
    · exact ih o (Table.mem_of_find? ho) he

end

end Bazar.MemberEmail
