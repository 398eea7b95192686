import BazarApi.Invitations.Service
import BazarApi.Txn.Logic

/- What a commit of an invitation or of an acceptance does, said without its program. The
   columns of an invitation that never change are its `Issue`; a commit keeps the list of
   issues or adds one to it. -/
namespace Bazar.Invitations

open Txn Team Team.Invitations Registration

inductive Request where
  | invite (env : Env) (actor : Actor) (memberId rawEmail : String)
  | accept (env : Env) (token : String)

inductive Answer where
  | invited (expiresAt : Instant)
  | accepted (a : AcceptAnswer)

/-- The program that serves a request. -/
def Request.call (host : Host) : Request → Call invitations Answer
  | .invite env actor memberId rawEmail => do
    return .invited (← Invitations.invite host env actor memberId rawEmail)
  | .accept env token => do return .accepted (← Invitations.accept host env token)

/-! What never changes of an invitation. -/

structure Issue where
  id : Uuid
  contextId : String
  memberId : Uuid
  tokenHash : String
  invitedByMemberId : Uuid
  createdAt : Instant
  expiresAt : Instant
  deriving DecidableEq

def AccountInvitation.issue (x : AccountInvitation) : Issue :=
  ⟨x.id, x.contextId, x.memberId, x.tokenHash, x.invitedByMemberId, x.createdAt, x.expiresAt⟩

/-- The invitations made, in the order they committed. -/
def Db.issues (d : Db) : List Issue := d.invitations.rows.map AccountInvitation.issue

def Issue.isOf (x : Issue) (contextId : String) (memberId : Uuid) : Prop :=
  x.contextId = contextId ∧ x.memberId = memberId

instance (x : Issue) (contextId : String) (memberId : Uuid) :
    Decidable (x.isOf contextId memberId) := by
  unfold Issue.isOf
  infer_instance

/-- The issues of a person. -/
def Db.issuesOf (d : Db) (contextId : String) (memberId : Uuid) : List Issue :=
  d.issues.filter fun x => x.isOf contextId memberId

/-- The rules a new invitation keeps with the others of its person. -/
structure Spaced (xs : List Issue) (now : Instant) : Prop where
  gap : ∀ x ∈ xs, x.createdAt + invitationMinGapMs ≤ now
  day : (xs.filter fun x => now - x.createdAt < dayMs).length < invitationMaxPerDay

/-- The inviter was below the limit of new people, by what a request read: first the
inviter's own recent invitations, then all those of the people invited. -/
structure BelowLimit (d₀ : Db) (i : Nat) (h : History invitations) (contextId : String)
    (inviterId : Uuid) (since : Instant) : Prop where
  read : ∃ a a' b, h = a ++ .exec i (.invitationsBy contextId inviterId since) :: b ∧
    a <+: a' ∧ a' <+: h ∧
    newPeople ((replay (S := invitations) d₀ a').invitationsOfAll contextId
      (((replay (S := invitations) d₀ a).invitationsBy contextId inviterId since).map
        fun x => x.memberId)) inviterId since < invitationMaxNewPerDay

/-- What request `i` writes when it writes anything, after history `h`, under its locks. -/
inductive Effect (host : Host) (d₀ : Db) (i : Nat) (h : History invitations) (locks : Locks Key) :
    Request → List Write → Prop where
  | invited {env : Env} {actor : Actor} {memberId rawEmail email : String} {ids : List Uuid}
    (hlock : (.member (uuid memberId), .update) ∈ locks)
    (hnew : (replay (S := invitations) d₀ h).invitations.find? (env.serverId 0) = none)
    (hspaced : Spaced ((replay (S := invitations) d₀ h).issuesOf actor.contextId (uuid memberId))
      (env.now 0))
    (hlimit : (∃ x ∈ (replay (S := invitations) d₀ h).issues,
        x.isOf actor.contextId (uuid memberId)) ∨
      BelowLimit d₀ i h actor.contextId (uuid actor.selectedMemberId) (env.now 0 - dayMs))
    (hids : ∀ k x, (replay (S := invitations) d₀ h).invitations.find? k = some x →
      x.isOf actor.contextId (uuid memberId) → x.unspent → k ∈ ids) :
    Effect host d₀ i h locks (.invite env actor memberId rawEmail)
      (ids.map (fun k => .supersede k (env.now 0)) ++
        [.insertInvitation (newInvitation host env actor memberId email)])
  | failed {env : Env} {actor : Actor} {memberId rawEmail : String} :
    Effect host d₀ i h locks (.invite env actor memberId rawEmail)
      [.supersede (env.serverId 0) (env.now 1)]
  | accepted {env : Env} {token name : String} {inv : AccountInvitation}
    (hinv : (replay (S := invitations) d₀ h).invitations.find? inv.id = some inv)
    (hunspent : inv.unspent) (hlive : env.now 1 < inv.expiresAt)
    (htoken : inv.tokenHash = hashInvitationToken host token)
    (hslot : (.accountMember inv.memberId, .update) ∈ locks ∧
      (.member inv.memberId, .keyShare) ∈ locks)
    (hnone : ∀ a ∈ (replay (S := invitations) d₀ h).accounts.rows, a.memberId ≠ some inv.memberId)
    (haccount : (replay (S := invitations) d₀ h).accounts.find? (env.serverId 0) = none)
    (hdevice : (replay (S := invitations) d₀ h).devices.find? (env.serverId 1) = none) :
    Effect host d₀ i h locks (.accept env token)
      [.insertAccount (acceptedAccount env inv), .insertDevice (acceptedDevice host env inv name),
        .useInvitation inv.id (env.now 1) (env.serverId 0)]

/-- Every commit is of one of the requests, and writes nothing or what that request writes. -/
def Commits (host : Host) (d₀ : Db) (reqs : List Request) (h : History invitations)
    (c : Commit invitations) : Prop :=
  ∃ r, reqs[c.pid]? = some r ∧ (c.writes = [] ∨ Effect host d₀ c.pid h c.locks r c.writes)

end Bazar.Invitations
