import BazarApi.Team.Devices
import BazarApi.Txn.Logic

/- What a commit of the team does, said without its program: one constructor of `Effect`
   for each request that writes. What a commit may do to one device (`Move`) follows
   from it, and the results about devices are read off that. -/
namespace Bazar.Team

open Txn

inductive Request where
  | create (env : Env) (actor : Actor) (dto : CreateDeviceDto)
  | identify (env : Env) (account : AccountRef) (dto : IdentifyDeviceDto)
  | revoke (env : Env) (actor : Actor) (id : String)
  | reissue (env : Env) (actor : Actor) (id : String) (dto : ReissueDeviceDto)
  | accept (env : Env) (token : String)
  | canActivate (subject : Option String) (headers : Headers)

inductive Answer where
  | device (a : Devices.DeviceAnswer)
  | identified (a : Devices.IdentifyAnswer)
  | accepted (a : Invitations.AcceptAnswer)
  | selected (memberId deviceId : Uuid)
  deriving DecidableEq

/-- The program that serves a request. -/
def Request.call (host : Host) : Request → Call team Answer
  | .create env actor dto => do return .device (← Devices.create env actor dto)
  | .identify env account dto => do return .identified (← Devices.identify host env account dto)
  | .revoke env actor id => do return .device (← Devices.revoke env actor id)
  | .reissue env actor id dto => do return .device (← Devices.reissue env actor id dto)
  | .accept env token => do return .accepted (← Invitations.accept host env token)
  | .canActivate subject headers => do
    let (memberId, deviceId) ← ContextGuard.canActivate host subject headers
    return .selected memberId deviceId

/-- What request `i` writes when it writes anything, after history `h`. The claim of
`identify` goes back to what the request read in its first statement, the lookup of the
identifier. -/
inductive Effect (host : Host) (d₀ : Db) (i : Nat) (h : History team) : Request → List Write → Prop where
  | created {env : Env} {actor : Actor} {dto : CreateDeviceDto}
    (hnew : (replay (S := team) d₀ h).devices.find? (env.serverId 0) = none) :
    Effect host d₀ i h (.create env actor dto)
      [.insertDevice (Devices.newDevice env actor.account.contextId dto)]
  | activated {env : Env} {account : AccountRef} {dto : IdentifyDeviceDto} {g g' : History team}
    {read row : Device}
    (he : h = g ++ .exec i (.findByIdentifier account.contextId dto.identifier dto.name) :: g')
    (hfirst : ∀ e ∈ g, e.pid ≠ i)
    (hread : (replay (S := team) d₀ g).findByIdentifier account.contextId dto.identifier dto.name =
      some read)
    (hrow : (replay (S := team) d₀ h).devices.find? read.id = some row)
    (hpending : row.status = .pendienteActivacion) :
    Effect host d₀ i h (.identify env account dto)
      [.updateDevice read.id (Devices.activation host env)]
  | revoked {env : Env} {actor : Actor} {id : String} {row : Device}
    (hrow : (replay (S := team) d₀ h).devices.find? (uuid id) = some row) :
    Effect host d₀ i h (.revoke env actor id) [.updateDevice (uuid id) (Devices.revocation env)]
  | reissued {env : Env} {actor : Actor} {id : String} {dto : ReissueDeviceDto} {row : Device}
    (hrow : (replay (S := team) d₀ h).devices.find? (uuid id) = some row) :
    Effect host d₀ i h (.reissue env actor id dto)
      [.updateDevice (uuid id) (Devices.reissuance env)]
  | accepted {env : Env} {token : String} {inv : AccountInvitation} {name : String}
    (hnew : (replay (S := team) d₀ h).devices.find? (env.serverId 1) = none) :
    Effect host d₀ i h (.accept env token)
      [.insertAccount (Invitations.acceptedAccount env inv),
        .insertDevice (Invitations.acceptedDevice host env inv name),
        .updateInvitation inv.id
          { usedAt := some (some (env.now 1)), accountId := some (some (env.serverId 0)) }]

/-- Every commit is of one of the requests; it writes nothing, or what that request
writes, once. -/
def Commits (host : Host) (d₀ : Db) (reqs : List Request) (h : History team) (c : Commit team) :
    Prop :=
  ∃ r, reqs[c.pid]? = some r ∧
    (c.writes = [] ∨ (Quiet c.pid h ∧ Effect host d₀ c.pid h r c.writes))

/-! One device. -/

/-- The commit wrote a new version of the device. -/
def Updates (c : Commit team) (id : Uuid) : Prop := ∃ data, Write.updateDevice id data ∈ c.writes

def Activates (reqs : List Request) (c : Commit team) (id : Uuid) : Prop :=
  (∃ env account dto, reqs[c.pid]? = some (.identify env account dto)) ∧ Updates c id

def Revokes (reqs : List Request) (c : Commit team) (id : Uuid) : Prop :=
  (∃ env actor text, reqs[c.pid]? = some (.revoke env actor text)) ∧ Updates c id

def Reissues (reqs : List Request) (c : Commit team) (id : Uuid) : Prop :=
  (∃ env actor text dto, reqs[c.pid]? = some (.reissue env actor text dto)) ∧ Updates c id

/-- What a commit makes of the row of a device that exists. -/
inductive Move (host : Host) (reqs : List Request) (c : Commit team) (id : Uuid) (row : Device) :
    Device → Prop where
  | stay : Move host reqs c id row row
  | activate {env : Env} (ha : Activates reqs c id) (hst : row.status = .pendienteActivacion) :
    Move host reqs c id row ((Devices.activation host env).apply row)
  | revoke {env : Env} (hr : Revokes reqs c id) :
    Move host reqs c id row ((Devices.revocation env).apply row)
  | reissue {env : Env} {actor : Actor} {text : String} {dto : ReissueDeviceDto}
    (hr : reqs[c.pid]? = some (.reissue env actor text dto)) (hu : Updates c id) :
    Move host reqs c id row ((Devices.reissuance env).apply row)

section
variable {host : Host} {d₀ : Db} {reqs : List Request} {h : History team} {c : Commit team}
variable {id : Uuid} {row : Device}

theorem DeviceUpdate.apply_id (u : DeviceUpdate) (x : Device) :
    Keyed.key (u.apply x) = Keyed.key x := rfl

theorem devices_apply_ne {d : Db} {w : Write} {k : Uuid} (h : w.key ≠ .device k) :
    (w.apply d).devices.find? k = d.devices.find? k := by
  cases w with
  | insertDevice r =>
    refine Table.find?_put_ne ?_
    rintro rfl
    exact h rfl
  | updateDevice id data =>
    refine Table.find?_modify_ne data.apply_id ?_
    rintro rfl
    exact h rfl
  | _ => rfl

theorem find?_updateDevice {d : Db} {data : DeviceUpdate} {k : Uuid}
    (hrow : d.devices.find? id = some row) :
    (applyAll (S := team) d [.updateDevice k data]).devices.find? id =
      some (if id = k then data.apply row else row) := by
  change (d.devices.modify k data.apply).find? id = _
  rw [Table.find?_modify data.apply_id]
  split
  · rename_i hk
    rw [← hk, hrow]
    rfl
  · exact hrow

/-- One commit, seen from one device. -/
theorem Commits.move (hc : Commits host d₀ reqs h c)
    (hrow : (replay (S := team) d₀ h).devices.find? id = some row) :
    ∃ row', (replay (S := team) d₀ (h ++ [.commit c])).devices.find? id = some row' ∧
      Move host reqs c id row row' := by
  obtain ⟨r, hreq, hw⟩ := hc
  rw [replay_committed]
  -- a device written anew is another one
  have other : ∀ x : Device, (replay (S := team) d₀ h).devices.find? x.id = none → id ≠ x.id := by
    rintro x hx rfl
    rw [hx] at hrow
    cases hrow
  have updated : ∀ k data, c.writes = [.updateDevice k data] →
      (id = k → Move host reqs c id row (data.apply row)) →
      ∃ row', (applyAll (S := team) (replay (S := team) d₀ h) c.writes).devices.find? id = some row' ∧
        Move host reqs c id row row' := by
    intro k data he hm
    rw [he, find?_updateDevice hrow]
    refine ⟨_, rfl, ?_⟩
    split
    · rename_i hk
      exact hm hk
    · exact .stay
  rcases hw with hw | ⟨-, he⟩
  · rw [hw]
    exact ⟨row, hrow, .stay⟩
  · generalize hws : c.writes = ws at he
    cases he with
    | created hnew =>
      exact ⟨row, (Table.find?_put_ne (other _ hnew)).trans hrow, .stay⟩
    | activated hh hfirst hread hrow' hpending =>
      rw [← hws]
      refine updated _ _ hws ?_
      rintro rfl
      cases hrow.symm.trans hrow'
      exact .activate ⟨⟨_, _, _, hreq⟩, _, by rw [hws]; exact List.mem_singleton.mpr rfl⟩ hpending
    | revoked hrow' =>
      rw [← hws]
      refine updated _ _ hws ?_
      rintro rfl
      exact .revoke ⟨⟨_, _, _, hreq⟩, _, by rw [hws]; exact List.mem_singleton.mpr rfl⟩
    | reissued hrow' =>
      rw [← hws]
      refine updated _ _ hws ?_
      rintro rfl
      exact .reissue hreq ⟨_, by rw [hws]; exact List.mem_singleton.mpr rfl⟩
    | accepted hnew =>
      exact ⟨row, (Table.find?_put_ne (other _ hnew)).trans hrow, .stay⟩

end

end Bazar.Team
