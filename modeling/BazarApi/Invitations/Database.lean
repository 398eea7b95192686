import Mathlib.Data.List.Sort
import BazarApi.Registration.Model

/- Invitations to a personal login: their rows, the tables an invitation and its acceptance
   touch, and the statements they send, as in `prisma/schema.prisma` and the migrations
   `account_invitations` and `invitation_accept_creates_device`. A row written with a foreign
   key locks the row it refers to `FOR KEY SHARE`. -/
namespace Bazar.Invitations

open Txn Team

structure AccountInvitation extends Team.AccountInvitation where
  invitedByMemberId : Uuid
  invitedViaSharedLogin : Bool
  deriving DecidableEq, Repr

instance : Keyed AccountInvitation Uuid := ⟨fun x => x.id⟩

/-- The invitation is of the person `memberId` of the business `contextId`. -/
def AccountInvitation.isOf (x : AccountInvitation) (contextId : String) (memberId : Uuid) : Prop :=
  x.contextId = contextId ∧ x.memberId = memberId

instance (x : AccountInvitation) (contextId : String) (memberId : Uuid) :
    Decidable (x.isOf contextId memberId) := by
  unfold AccountInvitation.isOf
  infer_instance

/-- Neither used nor replaced. -/
def AccountInvitation.unspent (x : AccountInvitation) : Prop :=
  x.usedAt = none ∧ x.supersededAt = none

instance (x : AccountInvitation) : Decidable x.unspent := by
  unfold AccountInvitation.unspent
  infer_instance

structure Db where
  members : Table Member
  accounts : Table Account
  devices : Table Device
  invitations : Table AccountInvitation

/-- What can be locked: a row, or a slot of a unique index. -/
inductive Key where
  | member (id : Uuid)
  | account (id : Uuid)
  | username (s : String)
  | accountMember (id : Uuid)
  | device (id : Uuid)
  | identifier (s : String)
  | invitation (id : Uuid)
  | invitationToken (s : String)
  deriving DecidableEq

/-! Row versions written. -/

inductive Write where
  | insertInvitation (row : AccountInvitation)
  | supersede (id : Uuid) (now : Instant)
  | useInvitation (id : Uuid) (now : Instant) (accountId : Uuid)
  | insertAccount (row : Account)
  | insertDevice (row : Device)
  deriving DecidableEq

def superseded (now : Instant) (x : AccountInvitation) : AccountInvitation :=
  { x with supersededAt := some now }

def used (now : Instant) (accountId : Uuid) (x : AccountInvitation) : AccountInvitation :=
  { x with usedAt := some now, accountId := some accountId }

def Write.apply (d : Db) : Write → Db
  | .insertInvitation row => { d with invitations := d.invitations.put row }
  | .supersede id now => { d with invitations := d.invitations.modify id (superseded now) }
  | .useInvitation id now accountId =>
    { d with invitations := d.invitations.modify id (used now accountId) }
  | .insertAccount row => { d with accounts := d.accounts.put row }
  | .insertDevice row => { d with devices := d.devices.put row }

def Write.key : Write → Key
  | .insertInvitation row => .invitation row.id
  | .supersede id _ => .invitation id
  | .useInvitation id _ _ => .invitation id
  | .insertAccount row => .account row.id
  | .insertDevice row => .device row.id

/-- The index on `accountId` is partial, so no update here changes a key. -/
def Write.mode : Write → LockMode
  | .supersede _ _ => .noKeyUpdate
  | .useInvitation _ _ _ => .noKeyUpdate
  | _ => .update

/-! What the statements read. -/

namespace Db
variable (d : Db)

def findMember (id : Uuid) (contextId : String) : Option Member :=
  (d.members.find? id).filter fun m => m.contextId = contextId

/-- An active socio. -/
def findSocio (id : Uuid) (contextId : String) : Option Member :=
  (d.findMember id contextId).filter fun m => m.active ∧ m.role = .socio

def sociosOf (contextId : String) : List Uuid :=
  (d.members.rows.filter fun m => m.contextId = contextId ∧ m.role = .socio ∧ m.active).map (·.id)

/-- Some account of the business belongs to one of these people. -/
def accountAmong (contextId : String) (ids : List Uuid) : Bool :=
  d.accounts.rows.any fun a => a.contextId = contextId ∧ a.memberId.any (· ∈ ids)

/-- The invitations of a person. -/
def invitationsOf (contextId : String) (memberId : Uuid) : List AccountInvitation :=
  d.invitations.rows.filter fun x => x.isOf contextId memberId

/-- The latest first. -/
def latestOf (contextId : String) (memberId : Uuid) (take : Nat) : List AccountInvitation :=
  ((d.invitationsOf contextId memberId).insertionSort fun x y => y.createdAt ≤ x.createdAt).take take

def invitationsBy (contextId : String) (inviterId : Uuid) (since : Instant) :
    List AccountInvitation :=
  d.invitations.rows.filter fun x =>
    x.contextId = contextId ∧ x.invitedByMemberId = inviterId ∧ since ≤ x.createdAt

/-- The invitations of several people, the earliest first. -/
def invitationsOfAll (contextId : String) (ids : List Uuid) : List AccountInvitation :=
  (d.invitations.rows.filter fun x => x.contextId = contextId ∧ x.memberId ∈ ids).insertionSort
    fun x y => x.createdAt ≤ y.createdAt

/-- A link that can still be used. -/
def findInvitation (tokenHash : String) (now : Instant) : Option AccountInvitation :=
  d.invitations.rows.find? fun x => x.tokenHash = tokenHash ∧ x.unspent ∧ now < x.expiresAt

end Db

/-! Statements. -/

inductive Sql where
  | lockMember (id : Uuid) (contextId : String)
  | findMember (id : Uuid) (contextId : String)
  | findSocio (id : Uuid) (contextId : String)
  | sociosOf (contextId : String)
  | accountAmong (contextId : String) (ids : List Uuid)
  | accountOfMember (memberId : Uuid)
  | accountNamed (username : String)
  | latestOf (contextId : String) (memberId : Uuid) (take : Nat)
  | countInvitations (contextId : String) (memberId : Uuid)
  | invitationsBy (contextId : String) (inviterId : Uuid) (since : Instant)
  | invitationsOfAll (contextId : String) (ids : List Uuid)
  | supersedeAll (contextId : String) (memberId : Uuid) (now : Instant)
  | createInvitation (row : AccountInvitation)
  | supersedeOne (id : Uuid) (now : Instant)
  | findInvitation (tokenHash : String) (now : Instant)
  | lockInvitation (tokenHash : String) (now : Instant)
  | createAccount (row : Account)
  | createDevice (row : Device)
  | useInvitation (id : Uuid) (now : Instant) (accountId : Uuid)
  deriving DecidableEq

@[reducible] def Sql.Res : Sql → Type
  | .lockMember _ _ => Unit
  | .findMember _ _ => Option Member
  | .findSocio _ _ => Option Member
  | .sociosOf _ => List Uuid
  | .accountAmong _ _ => Bool
  | .accountOfMember _ => Bool
  | .accountNamed _ => Bool
  | .latestOf _ _ _ => List AccountInvitation
  | .countInvitations _ _ => Nat
  | .invitationsBy _ _ _ => List AccountInvitation
  | .invitationsOfAll _ _ => List AccountInvitation
  | .supersedeAll _ _ _ => Unit
  | .createInvitation _ => Unit
  | .supersedeOne _ _ => Unit
  | .findInvitation _ _ => Option AccountInvitation
  | .lockInvitation _ _ => Option AccountInvitation
  | .createAccount _ => Unit
  | .createDevice _ => Unit
  | .useInvitation _ _ _ => Unit

/-- A new invitation, unless its key or its token is taken. -/
def insertInvitation (row : AccountInvitation) (v : Db) : Except Err (Unit × List Write) :=
  if (v.invitations.find? row.id).isSome then .error (.uniqueIndex "AccountInvitation_pkey")
  else if v.invitations.rows.any fun x => x.tokenHash = row.tokenHash then
    .error (.uniqueIndex "AccountInvitation_tokenHash_key")
  else .ok ((), [.insertInvitation row])

/-- A new login, unless its key, its name or its person is taken. -/
def insertAccount (row : Account) (v : Db) : Except Err (Unit × List Write) :=
  if (v.accounts.find? row.id).isSome then .error (.uniqueViolation .account)
  else if v.accounts.rows.any fun a => a.username = row.username then
    .error (.uniqueIndex "Account_username_key")
  else if row.memberId.isSome ∧ v.accounts.rows.any fun a => a.memberId = row.memberId then
    .error (.uniqueIndex "Account_memberId_key")
  else .ok ((), [.insertAccount row])

def insertDevice (row : Device) (v : Db) : Except Err (Unit × List Write) :=
  if (v.devices.find? row.id).isSome then .error (.uniqueViolation .device)
  else if v.devices.rows.any fun x => x.identifier = row.identifier then
    .error (.uniqueIndex "Device_identifier_key")
  else .ok ((), [.insertDevice row])

def Sql.exec : (q : Sql) → Db → Except Err (q.Res × List Write)
  | .lockMember _ _, _ => .ok ((), [])
  | .findMember id contextId, v => .ok (v.findMember id contextId, [])
  | .findSocio id contextId, v => .ok (v.findSocio id contextId, [])
  | .sociosOf contextId, v => .ok (v.sociosOf contextId, [])
  | .accountAmong contextId ids, v => .ok (v.accountAmong contextId ids, [])
  | .accountOfMember memberId, v =>
    .ok (v.accounts.rows.any fun a => a.memberId = some memberId, [])
  | .accountNamed username, v => .ok (v.accounts.rows.any fun a => a.username = username, [])
  | .latestOf contextId memberId take, v => .ok (v.latestOf contextId memberId take, [])
  | .countInvitations contextId memberId, v => .ok ((v.invitationsOf contextId memberId).length, [])
  | .invitationsBy contextId inviterId since, v => .ok (v.invitationsBy contextId inviterId since, [])
  | .invitationsOfAll contextId ids, v => .ok (v.invitationsOfAll contextId ids, [])
  | .supersedeAll contextId memberId now, v =>
    .ok ((), ((v.invitationsOf contextId memberId).filter fun x => x.unspent).map fun x =>
      .supersede x.id now)
  | .createInvitation row, v => insertInvitation row v
  | .supersedeOne id now, v =>
    if (v.invitations.find? id).isSome then .ok ((), [.supersede id now]) else .error .recordNotFound
  | .findInvitation tokenHash now, v => .ok (v.findInvitation tokenHash now, [])
  | .lockInvitation tokenHash now, v => .ok (v.findInvitation tokenHash now, [])
  | .createAccount row, v => insertAccount row v
  | .createDevice row, v => insertDevice row v
  | .useInvitation id now accountId, v =>
    .ok ((), (v.invitations.find? id).toList.map fun x => .useInvitation x.id now accountId)

/-- The rows locked by `FOR UPDATE`, the slots of unique indexes a statement takes, and the
rows its foreign keys refer to. -/
def Sql.locks : Sql → Db → Locks Key
  | .lockMember id contextId, v =>
    (v.findMember id contextId).toList.map fun m => (.member m.id, .update)
  | .createInvitation row, _ =>
    [(.invitationToken row.tokenHash, .update), (.member row.memberId, .keyShare),
      (.member row.invitedByMemberId, .keyShare)]
  | .lockInvitation tokenHash now, v =>
    (v.findInvitation tokenHash now).toList.map fun x => (.invitation x.id, .update)
  | .createAccount row, _ =>
    (.username row.username, .update) :: row.memberId.toList.flatMap fun m =>
      [(.accountMember m, .update), (.member m, .keyShare)]
  | .createDevice row, _ => [(.identifier row.identifier, .update)]
  | .useInvitation _ _ accountId, _ => [(.account accountId, .keyShare)]
  | _, _ => []

/-- The schema of invitations. -/
@[reducible] def invitations : Schema where
  Db := Db
  Write := Write
  Key := Key
  Err := Err
  Sql := Sql
  Res := Sql.Res
  keyEq := inferInstance
  apply := Write.apply
  key := Write.key
  mode := Write.mode
  mode_writes := by
    intro w
    cases w <;> rfl
  locks := Sql.locks
  exec := Sql.exec
  stale := fun _ => .database "could not serialize access due to concurrent update"
  spontaneous := Err.spontaneous

/-- Sends one statement of the schema. -/
abbrev query (q : Sql) : Tx invitations q.Res := Tx.query (S := invitations) q

end Bazar.Invitations
