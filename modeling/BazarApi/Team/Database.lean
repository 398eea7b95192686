import BazarApi.Team.Model

/- The database of logins, people, devices and invitations and the statements its
   services send. Every row is locked when it is written; a statement that writes into a
   unique index locks the slot it takes there, and one that writes a foreign key locks the
   row it refers to. -/
namespace Bazar.Team

open Txn

structure Db where
  accounts : Table Account
  members : Table Member
  devices : Table Device
  invitations : Table AccountInvitation

/-- What can be locked: a row, or a slot of a unique index. -/
inductive Key where
  | account (id : Uuid)
  | username (s : String)
  | accountMember (id : Uuid)
  | member (id : Uuid)
  | device (id : Uuid)
  | identifier (s : String)
  | invitation (id : Uuid)
  deriving DecidableEq

/-! Rows updated: `none` leaves a column alone. -/

structure DeviceUpdate where
  identifier : Option String := none
  status : Option DeviceStatus := none
  authorized : Option Bool := none
  tokenHash : Option (Option String) := none
  activatedAt : Option (Option Instant) := none
  revokedAt : Option (Option Instant) := none
  deriving DecidableEq

def DeviceUpdate.apply (u : DeviceUpdate) (x : Device) : Device :=
  { x with
    identifier := u.identifier.getD x.identifier
    status := u.status.getD x.status
    authorized := u.authorized.getD x.authorized
    tokenHash := u.tokenHash.getD x.tokenHash
    activatedAt := u.activatedAt.getD x.activatedAt
    revokedAt := u.revokedAt.getD x.revokedAt }

structure InvitationUpdate where
  usedAt : Option (Option Instant) := none
  accountId : Option (Option Uuid) := none
  deriving DecidableEq

def InvitationUpdate.apply (u : InvitationUpdate) (x : AccountInvitation) : AccountInvitation :=
  { x with usedAt := u.usedAt.getD x.usedAt, accountId := u.accountId.getD x.accountId }

/-- A `where` on devices; `none` is a condition not given. -/
structure DeviceWhere where
  id : Uuid
  contextId : Option String := none
  status : Option DeviceStatus := none
  deriving DecidableEq

def DeviceWhere.holds (w : DeviceWhere) (x : Device) : Bool :=
  (∀ c ∈ w.contextId, x.contextId = c) ∧ ∀ s ∈ w.status, x.status = s

/-! Row versions written. -/

inductive Write where
  | insertAccount (row : Account)
  | insertDevice (row : Device)
  | updateDevice (id : Uuid) (data : DeviceUpdate)
  | updateInvitation (id : Uuid) (data : InvitationUpdate)
  deriving DecidableEq

def Write.apply (d : Db) : Write → Db
  | .insertAccount row => { d with accounts := d.accounts.put row }
  | .insertDevice row => { d with devices := d.devices.put row }
  | .updateDevice id data => { d with devices := d.devices.modify id data.apply }
  | .updateInvitation id data => { d with invitations := d.invitations.modify id data.apply }

def Write.key : Write → Key
  | .insertAccount row => .account row.id
  | .insertDevice row => .device row.id
  | .updateDevice id _ => .device id
  | .updateInvitation id _ => .invitation id

/-- An update that changes a column of a full unique index locks the row for deletion as
well; the index on the account of an invitation is partial. -/
def Write.mode : Write → LockMode
  | .updateDevice _ data => if data.identifier.isSome then .update else .noKeyUpdate
  | .updateInvitation _ _ => .noKeyUpdate
  | _ => .update

/-! What the statements read. -/

namespace Db
variable (d : Db)

def findAccount (id : Uuid) (contextId : Option String) : Option Account :=
  (d.accounts.find? id).filter fun a => (∀ c ∈ contextId, a.contextId = c) ∧ a.active

def findMember (id : Uuid) (contextId : String) (role : Option MemberRole) : Option Member :=
  (d.members.find? id).filter fun m =>
    m.contextId = contextId ∧ m.active ∧ ∀ r ∈ role, m.role = r

def findDevice (id : Uuid) (contextId : String) : Option Device :=
  (d.devices.find? id).filter fun x => x.contextId = contextId

def findAuthorizedDevice (id : Uuid) (contextId : String) : Option Device :=
  (d.findDevice id contextId).filter fun x => x.authorized

def findByIdentifier (contextId identifier name : String) : Option Device :=
  d.devices.rows.find? fun x =>
    x.contextId = contextId ∧ x.identifier = identifier ∧ x.name = name

/-- The slot of `Device_identifier_key` is taken by a device other than `id`. -/
def identifierTaken (identifier : String) (id : Uuid) : Bool :=
  d.devices.rows.any fun x => x.identifier = identifier ∧ x.id ≠ id

/-- An invitation that can still be used. -/
def findInvitation (tokenHash : String) (now : Instant) : Option AccountInvitation :=
  d.invitations.rows.find? fun x =>
    x.tokenHash = tokenHash ∧ x.usedAt = none ∧ x.supersededAt = none ∧ now < x.expiresAt

end Db

/-! Statements. -/

inductive Sql where
  | findAccount (id : Uuid) (contextId : Option String)
  | findMember (id : Uuid) (contextId : String) (role : Option MemberRole)
  | findDevice (id : Uuid) (contextId : String)
  | findAuthorizedDevice (id : Uuid) (contextId : String)
  | findByIdentifier (contextId identifier name : String)
  | lockDevice (id : Uuid) (contextId : String)
  | createDevice (row : Device)
  | updateManyDevices (condition : DeviceWhere) (data : DeviceUpdate)
  | updateDevice (id : Uuid) (data : DeviceUpdate)
  | findInvitation (tokenHash : String) (now : Instant)
  | lockInvitation (tokenHash : String) (now : Instant)
  | accountOfMember (memberId : Uuid)
  | accountNamed (username : String)
  | createAccount (row : Account)
  | updateInvitation (id : Uuid) (data : InvitationUpdate)
  deriving DecidableEq

@[reducible] def Sql.Res : Sql → Type
  | .findAccount _ _ => Option Account
  | .findMember _ _ _ => Option Member
  | .findDevice _ _ => Option Device
  | .findAuthorizedDevice _ _ => Option Device
  | .findByIdentifier _ _ _ => Option Device
  | .lockDevice _ _ => Unit
  | .createDevice _ => Device
  | .updateManyDevices _ _ => Nat
  | .updateDevice _ _ => Device
  | .findInvitation _ _ => Option AccountInvitation
  | .lockInvitation _ _ => Option AccountInvitation
  | .accountOfMember _ => Bool
  | .accountNamed _ => Bool
  | .createAccount _ => Unit
  | .updateInvitation _ _ => Unit

/-- A new device, unless its key or its identifier is taken. -/
def insertDevice (row : Device) (v : Db) : Except Err (Device × List Write) :=
  if (v.devices.find? row.id).isSome then .error (.uniqueViolation .device)
  else if v.identifierTaken row.identifier row.id then .error (.uniqueIndex "Device_identifier_key")
  else .ok (row, [.insertDevice row])

/-- The device of a key changed, unless there is none or the new identifier is taken. -/
def changeDevice (id : Uuid) (data : DeviceUpdate) (v : Db) : Except Err (Device × List Write) :=
  match v.devices.find? id with
  | none => .error .recordNotFound
  | some x =>
    if data.identifier.any (v.identifierTaken · id) then .error (.uniqueIndex "Device_identifier_key")
    else .ok (data.apply x, [.updateDevice id data])

/-- A new login, unless its key, its name or its person is taken. -/
def insertAccount (row : Account) (v : Db) : Except Err (Unit × List Write) :=
  if (v.accounts.find? row.id).isSome then .error (.uniqueViolation .account)
  else if v.accounts.rows.any fun a => a.username = row.username then
    .error (.uniqueIndex "Account_username_key")
  else if row.memberId.isSome ∧ v.accounts.rows.any fun a => a.memberId = row.memberId then
    .error (.uniqueIndex "Account_memberId_key")
  else .ok ((), [.insertAccount row])

def Sql.exec : (q : Sql) → Db → Except Err (q.Res × List Write)
  | .findAccount id contextId, v => .ok (v.findAccount id contextId, [])
  | .findMember id contextId role, v => .ok (v.findMember id contextId role, [])
  | .findDevice id contextId, v => .ok (v.findDevice id contextId, [])
  | .findAuthorizedDevice id contextId, v => .ok (v.findAuthorizedDevice id contextId, [])
  | .findByIdentifier contextId identifier name, v =>
    .ok (v.findByIdentifier contextId identifier name, [])
  | .lockDevice _ _, _ => .ok ((), [])
  | .createDevice row, v => insertDevice row v
  | .updateManyDevices condition data, v =>
    if ((v.devices.find? condition.id).filter condition.holds).isSome then
      .ok (1, [.updateDevice condition.id data])
    else .ok (0, [])
  | .updateDevice id data, v => changeDevice id data v
  | .findInvitation tokenHash now, v => .ok (v.findInvitation tokenHash now, [])
  | .lockInvitation tokenHash now, v => .ok (v.findInvitation tokenHash now, [])
  | .accountOfMember memberId, v =>
    .ok (v.accounts.rows.any fun a => a.memberId = some memberId, [])
  | .accountNamed username, v => .ok (v.accounts.rows.any fun a => a.username = username, [])
  | .createAccount row, v => insertAccount row v
  | .updateInvitation id data, _ => .ok ((), [.updateInvitation id data])

/-- The rows locked by `FOR UPDATE`, the slots of unique indexes a statement takes, and
the rows its foreign keys refer to. -/
def Sql.locks : Sql → Db → Locks Key
  | .lockDevice id contextId, v =>
    if (v.findDevice id contextId).isSome then [(.device id, .update)] else []
  | .createDevice row, _ => [(.identifier row.identifier, .update)]
  | .updateDevice _ data, _ => data.identifier.toList.map fun s => (.identifier s, .update)
  | .lockInvitation tokenHash now, v =>
    (v.findInvitation tokenHash now).toList.map fun x => (.invitation x.id, .update)
  | .createAccount row, _ =>
    (.username row.username, .update) :: row.memberId.toList.flatMap fun m =>
      [(.accountMember m, .update), (.member m, .keyShare)]
  | .updateInvitation _ data, _ =>
    (data.accountId.bind id).toList.map fun a => (.account a, .keyShare)
  | _, _ => []

/-- The schema of the team. -/
@[reducible] def team : Schema where
  Db := Db
  Write := Write
  Key := Key
  Err := Err
  Sql := Sql
  Res := Sql.Res
  keyEq := inferInstance
  apply := Write.apply
  key := Write.key
  mode := Write.mode
  mode_writes := by
    intro w
    cases w with
    | insertAccount row => rfl
    | insertDevice row => rfl
    | updateDevice id data => simp only [Write.mode]; split <;> rfl
    | updateInvitation id data => rfl
  locks := Sql.locks
  exec := Sql.exec
  stale := fun _ => .database "could not serialize access due to concurrent update"
  spontaneous := Err.spontaneous

/-- Sends one statement of the schema. -/
abbrev query (q : Sql) : Tx team q.Res := Tx.query (S := team) q

end Bazar.Team
