import BazarApi.Registration.Model

/- The tables a registration touches and its statements. The partial unique index
   `BusinessRegistrationRequest_live_correo_key` allows one live request of the second
   version per address. -/
namespace Bazar.Registration

open Txn Team

structure Db where
  requests : Table BusinessRegistrationRequest
  accounts : Table Account
  members : Table Member
  devices : Table Device

/-- What can be locked: a row, or a slot of a unique index. -/
inductive Key where
  | request (id : Uuid)
  | liveCorreo (s : String)
  | account (id : Uuid)
  | username (s : String)
  | accountMember (id : Uuid)
  | member (id : Uuid)
  | memberCorreo (s : String)
  | device (id : Uuid)
  | identifier (s : String)
  deriving DecidableEq

/-! Rows updated: `none` leaves a column alone. -/

structure RequestUpdate where
  status : Option Status := none
  resolvedAt : Option (Option Instant) := none
  createdContextId : Option (Option String) := none
  emailVerifiedAt : Option (Option Instant) := none
  emailTokenHash : Option (Option String) := none
  emailTokenExpiresAt : Option (Option Instant) := none
  approvalTokenHash : Option String := none
  tokenExpiresAt : Option Instant := none
  verificationEmailsIncrement : Int := 0
  lastVerificationEmailAt : Option (Option Instant) := none
  deriving DecidableEq

def RequestUpdate.apply (u : RequestUpdate) (x : BusinessRegistrationRequest) :
    BusinessRegistrationRequest :=
  { x with
    status := u.status.getD x.status
    resolvedAt := u.resolvedAt.getD x.resolvedAt
    createdContextId := u.createdContextId.getD x.createdContextId
    emailVerifiedAt := u.emailVerifiedAt.getD x.emailVerifiedAt
    emailTokenHash := u.emailTokenHash.getD x.emailTokenHash
    emailTokenExpiresAt := u.emailTokenExpiresAt.getD x.emailTokenExpiresAt
    approvalTokenHash := u.approvalTokenHash.getD x.approvalTokenHash
    tokenExpiresAt := u.tokenExpiresAt.getD x.tokenExpiresAt
    verificationEmailsSent := x.verificationEmailsSent + u.verificationEmailsIncrement
    lastVerificationEmailAt := u.lastVerificationEmailAt.getD x.lastVerificationEmailAt }

/-- A `where` on requests; `none` is a condition not given. -/
structure RequestWhere where
  id : Option Uuid := none
  status : Option Status := none
  emailTokenHash : Option String := none
  emailTokenExpiresAfter : Option Instant := none
  verificationEmailsSent : Option Int := none
  lastVerificationEmailUntil : Option Instant := none
  createdBefore : Option Instant := none
  resolvedBefore : Option Instant := none
  tokenExpiresBefore : Option Instant := none
  deriving DecidableEq

def RequestWhere.holds (w : RequestWhere) (x : BusinessRegistrationRequest) : Bool :=
  (∀ v ∈ w.id, x.id = v) ∧ (∀ v ∈ w.status, x.status = v) ∧
    (∀ v ∈ w.emailTokenHash, x.emailTokenHash = some v) ∧
    (∀ v ∈ w.emailTokenExpiresAfter, x.emailTokenExpiresAt.any (v < ·)) ∧
    (∀ v ∈ w.verificationEmailsSent, x.verificationEmailsSent = v) ∧
    (∀ v ∈ w.lastVerificationEmailUntil, x.lastVerificationEmailAt.all (· ≤ v)) ∧
    (∀ v ∈ w.createdBefore, x.createdAt < v) ∧
    (∀ v ∈ w.resolvedBefore, x.resolvedAt.any (· < v)) ∧
    ∀ v ∈ w.tokenExpiresBefore, x.tokenExpiresAt < v

/-! Row versions written. -/

inductive Write where
  | insertRequest (row : BusinessRegistrationRequest)
  | updateRequest (id : Uuid) (data : RequestUpdate)
  | deleteRequest (id : Uuid)
  | insertMember (row : Member)
  | setMemberCorreo (id : Uuid) (correo : String)
  | insertDevice (row : Device)
  | insertAccount (row : Account)
  deriving DecidableEq

def Write.apply (d : Db) : Write → Db
  | .insertRequest row => { d with requests := d.requests.put row }
  | .updateRequest id data => { d with requests := d.requests.modify id data.apply }
  | .deleteRequest id => { d with requests := d.requests.erase id }
  | .insertMember row => { d with members := d.members.put row }
  | .setMemberCorreo id correo =>
    { d with members := d.members.modify id fun m => { m with correo := some correo } }
  | .insertDevice row => { d with devices := d.devices.put row }
  | .insertAccount row => { d with accounts := d.accounts.put row }

def Write.key : Write → Key
  | .insertRequest row => .request row.id
  | .updateRequest id _ => .request id
  | .deleteRequest id => .request id
  | .insertMember row => .member row.id
  | .setMemberCorreo id _ => .member id
  | .insertDevice row => .device row.id
  | .insertAccount row => .account row.id

def Write.mode : Write → LockMode
  | .updateRequest _ _ => .noKeyUpdate
  | _ => .update

/-! What the statements read. -/

namespace Db
variable (d : Db)

def findByApprovalToken (approvalTokenHash : String) : Option BusinessRegistrationRequest :=
  d.requests.rows.find? fun x => x.approvalTokenHash = approvalTokenHash

/-- Live: not rejected, of the second version. -/
def findLiveRequest (correo : String) : Option BusinessRegistrationRequest :=
  d.requests.rows.find? fun x => x.correo = correo ∧ x.status ≠ .rechazado ∧ x.legalVersion.isSome

/-- The slot of the live index is taken. -/
def liveTaken (correo : String) : Bool :=
  d.requests.rows.any fun x =>
    x.correo = correo ∧ x.status ≠ .rechazado ∧ x.correo ≠ "" ∧ x.legalVersion.isSome

def matching (condition : RequestWhere) : List BusinessRegistrationRequest :=
  d.requests.rows.filter condition.holds

/-- Another person has the address. -/
def correoTaken (id : Uuid) (correo : String) : Bool :=
  d.members.rows.any fun m => m.id ≠ id ∧ m.correo = some correo

end Db

/-! Statements. -/

inductive Sql where
  | findByApprovalToken (approvalTokenHash : String)
  | findLiveRequest (correo : String)
  | createRequest (row : BusinessRegistrationRequest)
  | updateManyRequests (condition : RequestWhere) (data : RequestUpdate)
  | updateRequest (id : Uuid) (data : RequestUpdate)
  | countOthers (id : Uuid) (telefono correo : Option String)
  | findManyRequests (condition : RequestWhere) (take : Nat)
  | deleteManyRequests (ids : List Uuid)
  | accountNamed (username : String)
  | createMember (row : Member)
  | createDevice (row : Device)
  | createAccount (row : Account)
  | memberCorreoTaken (id : Uuid) (correo : String)
  | setMemberCorreo (id : Uuid) (correo : String)
  deriving DecidableEq

@[reducible] def Sql.Res : Sql → Type
  | .findByApprovalToken _ => Option BusinessRegistrationRequest
  | .findLiveRequest _ => Option BusinessRegistrationRequest
  | .createRequest _ => Unit
  | .updateManyRequests _ _ => Nat
  | .updateRequest _ _ => Unit
  | .countOthers _ _ _ => Nat
  | .findManyRequests _ _ => List Uuid
  | .deleteManyRequests _ => Nat
  | .accountNamed _ => Bool
  | .createMember _ => Unit
  | .createDevice _ => Unit
  | .createAccount _ => Unit
  | .memberCorreoTaken _ _ => Bool
  | .setMemberCorreo _ _ => Unit

/-- A new request, unless its key or its address is taken. -/
def insertRequest (row : BusinessRegistrationRequest) (v : Db) : Except Err (Unit × List Write) :=
  if (v.requests.find? row.id).isSome then .error (.uniqueIndex "BusinessRegistrationRequest_pkey")
  else if row.status ≠ .rechazado ∧ row.correo ≠ "" ∧ row.legalVersion.isSome ∧
      v.liveTaken row.correo then
    .error (.uniqueIndex "BusinessRegistrationRequest_live_correo_key")
  else .ok ((), [.insertRequest row])

def insertMember (row : Member) (v : Db) : Except Err (Unit × List Write) :=
  if (v.members.find? row.id).isSome then .error (.uniqueViolation .member)
  else .ok ((), [.insertMember row])

def insertDevice (row : Device) (v : Db) : Except Err (Unit × List Write) :=
  if (v.devices.find? row.id).isSome then .error (.uniqueViolation .device)
  else if v.devices.rows.any fun x => x.identifier = row.identifier then
    .error (.uniqueIndex "Device_identifier_key")
  else .ok ((), [.insertDevice row])

def insertAccount (row : Account) (v : Db) : Except Err (Unit × List Write) :=
  if (v.accounts.find? row.id).isSome then .error (.uniqueViolation .account)
  else if v.accounts.rows.any fun a => a.username = row.username then
    .error (.uniqueIndex "Account_username_key")
  else if row.memberId.isSome ∧ v.accounts.rows.any fun a => a.memberId = row.memberId then
    .error (.uniqueIndex "Account_memberId_key")
  else .ok ((), [.insertAccount row])

/-- The address of a person, unless another person has it. -/
def changeMemberCorreo (id : Uuid) (correo : String) (v : Db) : Except Err (Unit × List Write) :=
  if v.correoTaken id correo then .error (.uniqueIndex "Member_correo_key")
  else .ok ((), [.setMemberCorreo id correo])

def Sql.exec : (q : Sql) → Db → Except Err (q.Res × List Write)
  | .findByApprovalToken approvalTokenHash, v => .ok (v.findByApprovalToken approvalTokenHash, [])
  | .findLiveRequest correo, v => .ok (v.findLiveRequest correo, [])
  | .createRequest row, v => insertRequest row v
  | .updateManyRequests condition data, v =>
    .ok ((v.matching condition).length,
      (v.matching condition).map fun x => .updateRequest x.id data)
  | .updateRequest id data, v =>
    if (v.requests.find? id).isSome then .ok ((), [.updateRequest id data])
    else .error .recordNotFound
  | .countOthers id telefono correo, v =>
    .ok ((v.requests.rows.filter fun x => x.id ≠ id ∧ (∀ t ∈ telefono, x.telefono = some t) ∧
      ∀ c ∈ correo, x.correo = c).length, [])
  | .findManyRequests condition take, v =>
    .ok (((v.matching condition).take take).map fun x => x.id, [])
  | .deleteManyRequests ids, v =>
    let rows := v.requests.rows.filter fun x => x.id ∈ ids
    .ok (rows.length, rows.map fun x => .deleteRequest x.id)
  | .accountNamed username, v => .ok (v.accounts.rows.any fun a => a.username = username, [])
  | .createMember row, v => insertMember row v
  | .createDevice row, v => insertDevice row v
  | .createAccount row, v => insertAccount row v
  | .memberCorreoTaken id correo, v => .ok (v.correoTaken id correo, [])
  | .setMemberCorreo id correo, v => changeMemberCorreo id correo v

/-- The slots of unique indexes a statement takes, and the rows its foreign keys refer to. -/
def Sql.locks : Sql → Db → Locks Key
  | .createRequest row, _ => [(.liveCorreo row.correo, .update)]
  | .createDevice row, _ => [(.identifier row.identifier, .update)]
  | .createAccount row, _ =>
    (.username row.username, .update) :: row.memberId.toList.flatMap fun m =>
      [(.accountMember m, .update), (.member m, .keyShare)]
  | .memberCorreoTaken _ correo, _ => [(.memberCorreo correo, .share)]
  | .setMemberCorreo _ correo, _ => [(.memberCorreo correo, .update)]
  | _, _ => []

/-- The schema of registrations. -/
@[reducible] def registration : Schema where
  Db := Db
  Write := Write
  Key := Key
  Err := Err
  Sql := Sql
  Res := Sql.Res
  keyEq := inferInstance
  apply := Write.apply
  key := Write.key
  mode := Write.mode
  mode_writes := by
    intro w
    cases w <;> rfl
  locks := Sql.locks
  exec := Sql.exec
  stale := fun _ => .database "could not serialize access due to concurrent update"
  spontaneous := Err.spontaneous

/-- Sends one statement of the schema. -/
abbrev query (q : Sql) : Tx registration q.Res := Tx.query (S := registration) q

end Bazar.Registration
