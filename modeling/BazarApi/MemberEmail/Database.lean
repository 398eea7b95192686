import BazarApi.Registration.Model

/- The address of a socio and the links that prove it: the rows, the tables a request and a
   confirmation touch, and the statements they send, as in the migrations
   `rules_approval_by_email` and `member_correo_taken`. The index on `correo` is unique over
   all businesses and not partial, so to give an address locks the row of the person whole. -/
namespace Bazar.MemberEmail

open Txn Team

structure MemberEmailConfirmation where
  id : Uuid
  contextId : String
  memberId : Uuid
  correo : String
  tokenHash : String
  requestedByAccountId : Uuid
  createdAt : Instant
  expiresAt : Instant
  usedAt : Option Instant
  supersededAt : Option Instant
  deriving DecidableEq, Repr

instance : Keyed MemberEmailConfirmation Uuid := ⟨MemberEmailConfirmation.id⟩

/-- The link is of the person `memberId` of the business `contextId`. -/
def MemberEmailConfirmation.isOf (x : MemberEmailConfirmation) (contextId : String)
    (memberId : Uuid) : Prop :=
  x.contextId = contextId ∧ x.memberId = memberId

instance (x : MemberEmailConfirmation) (contextId : String) (memberId : Uuid) :
    Decidable (x.isOf contextId memberId) := by
  unfold MemberEmailConfirmation.isOf
  infer_instance

/-- Neither used nor replaced. -/
def MemberEmailConfirmation.unspent (x : MemberEmailConfirmation) : Prop :=
  x.usedAt = none ∧ x.supersededAt = none

instance (x : MemberEmailConfirmation) : Decidable x.unspent := by
  unfold MemberEmailConfirmation.unspent
  infer_instance

structure Db where
  members : Table Member
  accounts : Table Account
  confirmations : Table MemberEmailConfirmation

/-- What can be locked: a row, or a slot of a unique index. -/
inductive Key where
  | member (id : Uuid)
  | correo (s : String)
  | account (id : Uuid)
  | confirmation (id : Uuid)
  | confirmationToken (s : String)
  deriving DecidableEq

/-! Row versions written. -/

inductive Write where
  | setCorreo (id : Uuid) (correo : String)
  | insertConfirmation (row : MemberEmailConfirmation)
  | supersede (id : Uuid) (now : Instant)
  | use (id : Uuid) (now : Instant)
  deriving DecidableEq

def withCorreo (correo : String) (m : Member) : Member := { m with correo := some correo }

def superseded (now : Instant) (x : MemberEmailConfirmation) : MemberEmailConfirmation :=
  { x with supersededAt := some now }

def used (now : Instant) (x : MemberEmailConfirmation) : MemberEmailConfirmation :=
  { x with usedAt := some now }

def Write.apply (d : Db) : Write → Db
  | .setCorreo id correo => { d with members := d.members.modify id (withCorreo correo) }
  | .insertConfirmation row => { d with confirmations := d.confirmations.put row }
  | .supersede id now => { d with confirmations := d.confirmations.modify id (superseded now) }
  | .use id now => { d with confirmations := d.confirmations.modify id (used now) }

def Write.key : Write → Key
  | .setCorreo id _ => .member id
  | .insertConfirmation row => .confirmation row.id
  | .supersede id _ => .confirmation id
  | .use id _ => .confirmation id

def Write.mode : Write → LockMode
  | .supersede _ _ => .noKeyUpdate
  | .use _ _ => .noKeyUpdate
  | _ => .update

/-! What the statements read. -/

namespace Db
variable (d : Db)

def findMember (id : Uuid) (contextId : String) : Option Member :=
  (d.members.find? id).filter fun m => m.contextId = contextId

/-- An active socio. -/
def findSocio (id : Uuid) (contextId : String) : Option Member :=
  (d.findMember id contextId).filter fun m => m.active ∧ m.role = .socio

def findLogin (username : String) : Option Account :=
  d.accounts.rows.find? fun a => a.username = username

/-- The links of a person. -/
def confirmationsOf (contextId : String) (memberId : Uuid) : List MemberEmailConfirmation :=
  d.confirmations.rows.filter fun x => x.isOf contextId memberId

/-- A link that can still be used. -/
def findConfirmation (tokenHash : String) (now : Instant) : Option MemberEmailConfirmation :=
  d.confirmations.rows.find? fun x => x.tokenHash = tokenHash ∧ x.unspent ∧ now < x.expiresAt

/-- The other active socios that have an address. -/
def others (contextId : String) (memberId : Uuid) : List (String × String) :=
  (d.members.rows.filter fun m => m.contextId = contextId ∧ m.role = .socio ∧ m.active ∧
    m.id ≠ memberId).filterMap fun m => m.correo.map fun correo => (m.name, correo)

end Db

/-! Statements. -/

/-- `UPDATE "Member" SET "correo"` of a person without an address: the row matched, unless
the index refuses. -/
def updateCorreo (found : Option Member) (correo : String) (v : Db) :
    Except Unit (Option Member × List Write) :=
  match found.filter fun m => m.correo.isNone with
  | none => .ok (none, [])
  | some m =>
    if v.members.rows.any fun o => o.correo = some correo then .error ()
    else .ok (some m, [.setCorreo m.id correo])

def lower (s : String) : String := String.ofList (s.toList.map Char.toLower)

/-- What the update inside `member_email_confirm` comes to. -/
inductive Given where
  | nobody
  | taken
  | given (name : String)
  deriving DecidableEq, Repr

inductive Sql where
  | lockMember (id : Uuid) (contextId : String)
  | findSocio (id : Uuid) (contextId : String)
  | memberCorreoTaken (id : Uuid) (correo : String)
  | findLogin (username : String)
  | supersedeAll (contextId : String) (memberId : Uuid) (now : Instant)
  | createConfirmation (row : MemberEmailConfirmation)
  | supersedeOne (id : Uuid) (now : Instant)
  | lockConfirmation (tokenHash : String) (now : Instant)
  | giveCorreo (id : Uuid) (contextId : String) (correo : String)
  | useConfirmation (id : Uuid) (now : Instant)
  | supersedeOthers (id : Uuid) (contextId : String) (memberId : Uuid) (now : Instant)
  | others (contextId : String) (memberId : Uuid)
  deriving DecidableEq

@[reducible] def Sql.Res : Sql → Type
  | .lockMember _ _ => Unit
  | .findSocio _ _ => Option Member
  | .memberCorreoTaken _ _ => Bool
  | .findLogin _ => Option Account
  | .supersedeAll _ _ _ => Unit
  | .createConfirmation _ => Unit
  | .supersedeOne _ _ => Unit
  | .lockConfirmation _ _ => Option MemberEmailConfirmation
  | .giveCorreo _ _ _ => Given
  | .useConfirmation _ _ => Unit
  | .supersedeOthers _ _ _ _ => Unit
  | .others _ _ => List (String × String)

/-- `member_correo_taken`: the attempt is undone, whether the index refuses it or not. -/
def Db.memberCorreoTaken (v : Db) (id : Uuid) (correo : String) : Bool × List Write :=
  match updateCorreo (v.members.find? id) (lower correo) v with
  | .error _ => (true, [])
  | .ok _ => (false, [])

/-- The update of `member_email_confirm`; when the index refuses, its block is undone. -/
def Db.giveCorreo (v : Db) (id : Uuid) (contextId correo : String) : Given × List Write :=
  match updateCorreo (v.findSocio id contextId) correo v with
  | .error _ => (.taken, [])
  | .ok (none, ws) => (.nobody, ws)
  | .ok (some m, ws) => (.given m.name, ws)

/-- A new link, unless its key or its token is taken. -/
def insertConfirmation (row : MemberEmailConfirmation) (v : Db) : Except Err (Unit × List Write) :=
  if (v.confirmations.find? row.id).isSome then .error (.uniqueIndex "MemberEmailConfirmation_pkey")
  else if v.confirmations.rows.any fun x => x.tokenHash = row.tokenHash then
    .error (.uniqueIndex "MemberEmailConfirmation_tokenHash_key")
  else .ok ((), [.insertConfirmation row])

def Sql.exec : (q : Sql) → Db → Except Err (q.Res × List Write)
  | .lockMember _ _, _ => .ok ((), [])
  | .findSocio id contextId, v => .ok (v.findSocio id contextId, [])
  | .memberCorreoTaken id correo, v => .ok (v.memberCorreoTaken id correo)
  | .findLogin username, v => .ok (v.findLogin username, [])
  | .supersedeAll contextId memberId now, v =>
    .ok ((), ((v.confirmationsOf contextId memberId).filter fun x => x.unspent).map fun x =>
      .supersede x.id now)
  | .createConfirmation row, v => insertConfirmation row v
  | .supersedeOne id now, v =>
    if (v.confirmations.find? id).isSome then .ok ((), [.supersede id now])
    else .error .recordNotFound
  | .lockConfirmation tokenHash now, v => .ok (v.findConfirmation tokenHash now, [])
  | .giveCorreo id contextId correo, v => .ok (v.giveCorreo id contextId correo)
  | .useConfirmation id now, v =>
    .ok ((), (v.confirmations.find? id).toList.map fun x => .use x.id now)
  | .supersedeOthers id contextId memberId now, v =>
    .ok ((), ((v.confirmationsOf contextId memberId).filter fun x => x.id ≠ id ∧ x.unspent).map
      fun x => .supersede x.id now)
  | .others contextId memberId, v => .ok (v.others contextId memberId, [])

/-- The rows locked by `FOR UPDATE`, the slots of unique indexes a statement takes, and the
rows its foreign keys refer to. What the attempt of `member_correo_taken` takes it gives back
at once. -/
def Sql.locks : Sql → Db → Locks Key
  | .lockMember id contextId, v =>
    (v.findMember id contextId).toList.map fun m => (.member m.id, .update)
  | .createConfirmation row, _ =>
    [(.confirmationToken row.tokenHash, .update), (.member row.memberId, .keyShare),
      (.account row.requestedByAccountId, .keyShare)]
  | .lockConfirmation tokenHash now, v =>
    (v.findConfirmation tokenHash now).toList.map fun x => (.confirmation x.id, .update)
  | .giveCorreo id contextId correo, v =>
    (v.giveCorreo id contextId correo).2.map fun _ => (.correo correo, .update)
  | _, _ => []

/-- The schema of the addresses. -/
@[reducible] def emails : Schema where
  Db := Db
  Write := Write
  Key := Key
  Err := Err
  Sql := Sql
  Res := Sql.Res
  keyEq := inferInstance
  apply := Write.apply
  key := Write.key
  mode := Write.mode
  mode_writes := by
    intro w
    cases w <;> rfl
  locks := Sql.locks
  exec := Sql.exec
  stale := fun _ => .database "could not serialize access due to concurrent update"
  spontaneous := Err.spontaneous

/-- Sends one statement of the schema. -/
abbrev query (q : Sql) : Tx emails q.Res := Tx.query (S := emails) q

end Bazar.MemberEmail
