import Mathlib.Data.List.Sort
import BazarApi.Common
import BazarApi.Team.Model
import BazarApi.Txn.Logic

/- `finance/contributions.service.ts` and `finance/expenses.service.ts`: records that are never
   changed, only reversed, with a replacement or without. The two services are one program over
   what each makes of a body, whom it asks for and what it says; `contributions` and `expenses`
   are these. A receipt is kept as the record of its fields, not as their JSON.

   Correspondence (TypeScript ↔ Lean):
     `normalized`               ↔ `normalizedContribution`, `normalizedExpense`
     `fingerprint`              ↔ `fingerprint`, of `creationContent`
     `checkSelection`           ↔ `checkSelection`
     `authorize`                ↔ `authorize`
     `lockIdentity`             ↔ `Sql.advisoryLock`, of `Service.identity`
     `insert`                   ↔ `insert`
     `create`, `reverse`        ↔ `create`, `createInTx`; `reverse`, `reverseInTx`, `reverseNew` -/
namespace Bazar.Corrections

open Txn Team

structure Host extends Bazar.Host where
  /-- `value.trim()`. -/
  trim : String → String

/-! Bodies. -/

structure CreateContributionDto where
  id : String
  memberId : String
  createdByMemberId : String
  deviceId : String
  amountMinor : Int
  occurredAt : Instant
  note : Option String

structure CreateExpenseDto where
  id : String
  amountMinor : Int
  occurredAt : Instant
  nature : String
  category : String
  description : String
  paidByMemberId : String
  fundsSource : String
  createdByMemberId : String
  deviceId : String

/-- What both services use of a body, and all of it as JSON. -/
structure Normalized where
  id : Uuid
  /-- The contributor, or who paid. -/
  partyId : Uuid
  createdByMemberId : Uuid
  deviceId : Uuid
  amountMinor : Int
  occurredAt : Instant
  fields : List (String × Json)

def normalizedContribution (_ : Host) (dto : CreateContributionDto) : Normalized :=
  { id := uuid dto.id, partyId := uuid dto.memberId
    createdByMemberId := uuid dto.createdByMemberId, deviceId := uuid dto.deviceId
    amountMinor := dto.amountMinor, occurredAt := dto.occurredAt
    fields := [("id", .str (uuid dto.id).text), ("memberId", .str (uuid dto.memberId).text),
      ("createdByMemberId", .str (uuid dto.createdByMemberId).text),
      ("deviceId", .str (uuid dto.deviceId).text), ("amountMinor", .num dto.amountMinor),
      ("occurredAt", .iso dto.occurredAt), ("note", .opt .str dto.note)] }

def normalizedExpense (host : Host) (dto : CreateExpenseDto) : Normalized :=
  { id := uuid dto.id, partyId := uuid dto.paidByMemberId
    createdByMemberId := uuid dto.createdByMemberId, deviceId := uuid dto.deviceId
    amountMinor := dto.amountMinor, occurredAt := dto.occurredAt
    fields := [("id", .str (uuid dto.id).text), ("amountMinor", .num dto.amountMinor),
      ("occurredAt", .iso dto.occurredAt), ("nature", .str dto.nature),
      ("category", .str dto.category), ("description", .str (host.trim dto.description)),
      ("paidByMemberId", .str (uuid dto.paidByMemberId).text),
      ("fundsSource", .str dto.fundsSource),
      ("createdByMemberId", .str (uuid dto.createdByMemberId).text),
      ("deviceId", .str (uuid dto.deviceId).text)] }

def isValidNatureCategoryPair (nature category : String) : Bool :=
  (nature = "INVENTORY_PURCHASE") = (category = "inventory")

def checkExpense (dto : CreateExpenseDto) : Except Err Unit :=
  if isValidNatureCategoryPair dto.nature dto.category then .ok ()
  else .error (.badRequest
    "INVENTORY_PURCHASE requires category 'inventory' and no other nature may use it")

/-- What one of the services makes of a body, and says. -/
structure Service where
  Dto : Type
  normalized : Host → Dto → Normalized
  /-- What a body must satisfy beside what its DTO validates. -/
  check : Dto → Except Err Unit
  /-- The role the contributor, or who paid, must have. -/
  partyRole : Option MemberRole
  partyRefused : Err
  /-- The namespace of its advisory locks. -/
  identity : String
  /-- The name of a reversal's reference. -/
  target : String
  notFound : Err
  idConflict : Err
  identityExists : Err
  alreadyReversed : Err

def contributions : Service where
  Dto := CreateContributionDto
  normalized := normalizedContribution
  check := fun _ => .ok ()
  partyRole := some .socio
  partyRefused := .forbidden "Contributor must be an active socio of this business"
  identity := "contribution"
  target := "contributionId"
  notFound := .notFound "Contribution not found"
  idConflict := .conflict "Contribution ID already has different content"
  identityExists := .conflict "Contribution identity already exists"
  alreadyReversed := .conflict "Contribution already reversed"

def expenses : Service where
  Dto := CreateExpenseDto
  normalized := normalizedExpense
  check := checkExpense
  partyRole := none
  partyRefused := .forbidden "Payer must be an active member of this business"
  identity := "expense"
  target := "expenseId"
  notFound := .notFound "Expense not found"
  idConflict := .conflict "Expense ID already has different content"
  identityExists := .conflict "Expense identity already exists"
  alreadyReversed := .conflict "Expense already reversed"

inductive Kind where
  | contribution
  | expense
  deriving DecidableEq, Repr

def Kind.service : Kind → Service
  | .contribution => contributions
  | .expense => expenses

structure ReverseDto (k : Kind) where
  id : String
  createdByMemberId : String
  deviceId : String
  occurredAt : Instant
  reason : String
  replacement : Option k.service.Dto

/-! Rows. -/

structure Receipt where
  data : Normalized
  contextId : String
  currency : String
  createdByAccountId : Uuid
  receivedAt : Instant

structure Record where
  id : Uuid
  contextId : String
  data : Normalized
  currency : String
  createdByAccountId : Uuid
  receivedAt : Instant
  requestFingerprint : String
  creationResponse : Receipt

structure ReversalData where
  id : Uuid
  targetId : Uuid
  createdByMemberId : Uuid
  deviceId : Uuid
  occurredAt : Instant
  reason : String
  deriving DecidableEq, Repr

structure ReversalReceipt where
  data : ReversalData
  contextId : String
  createdByAccountId : Uuid
  receivedAt : Instant
  replacementId : Option Uuid
  original : Receipt
  replacement : Option Receipt

structure Reversal where
  id : Uuid
  contextId : String
  data : ReversalData
  receivedAt : Instant
  createdByAccountId : Uuid
  replacementId : Option Uuid
  requestFingerprint : String
  creationResponse : ReversalReceipt

instance : Keyed Record Uuid := ⟨Record.id⟩
instance : Keyed Reversal Uuid := ⟨Reversal.id⟩

/-- The people, the devices, and the two tables of each service. -/
structure Db where
  members : Table Member
  devices : Table Device
  records : Kind → Table Record
  reversals : Kind → Table Reversal

/-! Statements. -/

inductive Write where
  | insertRecord (k : Kind) (row : Record)
  | insertReversal (k : Kind) (row : Reversal)

inductive Key where
  | member (id : Uuid)
  | device (id : Uuid)
  | record (k : Kind) (id : Uuid)
  | reversal (k : Kind) (id : Uuid)
  | advisory (text : String)
  deriving DecidableEq

def Write.apply (d : Db) : Write → Db
  | .insertRecord k row =>
    { d with records := Function.update d.records k ((d.records k).put row) }
  | .insertReversal k row =>
    { d with reversals := Function.update d.reversals k ((d.reversals k).put row) }

def Write.key : Write → Key
  | .insertRecord k row => .record k row.id
  | .insertReversal k row => .reversal k row.id

namespace Db
variable (d : Db)

def findMember (id : Uuid) (contextId : String) (role : Option MemberRole) : Option Member :=
  (d.members.find? id).filter fun m => m.contextId = contextId ∧ m.active ∧ ∀ r ∈ role, m.role = r

def findDevice (id : Uuid) (contextId : String) : Option Device :=
  (d.devices.find? id).filter fun x => x.contextId = contextId ∧ x.authorized

def findRecord (k : Kind) (id : Uuid) (contextId : String) : Option Record :=
  ((d.records k).find? id).filter fun x => x.contextId = contextId

def findReversal (k : Kind) (id : Uuid) (contextId : String) : Option Reversal :=
  ((d.reversals k).find? id).filter fun x => x.contextId = contextId

/-- The reversal of a record. -/
def reversalOf (k : Kind) (id : Uuid) : Option Reversal :=
  (d.reversals k).rows.find? fun r => r.data.targetId = id

end Db

inductive Sql where
  | lockMember (id : Uuid) (contextId : String) (role : Option MemberRole)
  | lockDevice (id : Uuid) (contextId : String)
  | advisoryLock (text : String)
  | findRecord (k : Kind) (id : Uuid) (contextId : String)
  | createRecord (k : Kind) (row : Record)
  | findReversal (k : Kind) (id : Uuid) (contextId : String)
  | lockRecord (k : Kind) (id : Uuid) (contextId : String)
  /-- With its reversal. -/
  | findLive (k : Kind) (id : Uuid) (contextId : String)
  | createReversal (k : Kind) (row : Reversal)

@[reducible] def Sql.Res : Sql → Type
  | .lockMember _ _ _ => Bool
  | .lockDevice _ _ => Bool
  | .advisoryLock _ => Unit
  | .findRecord _ _ _ => Option Record
  | .createRecord _ _ => Unit
  | .findReversal _ _ _ => Option Reversal
  | .lockRecord _ _ _ => Bool
  | .findLive _ _ _ => Option (Record × Option Reversal)
  | .createReversal _ _ => Unit

def insertRecord (k : Kind) (row : Record) (v : Db) : Except Err (Unit × List Write) :=
  if ((v.records k).find? row.id).isSome then .error (.uniqueIndex "pkey")
  else .ok ((), [.insertRecord k row])

def insertReversal (k : Kind) (row : Reversal) (v : Db) : Except Err (Unit × List Write) :=
  if ((v.reversals k).find? row.id).isSome then .error (.uniqueIndex "pkey")
  else if (v.reversalOf k row.data.targetId).isSome then .error (.uniqueIndex "target_key")
  else if row.replacementId.isSome ∧ (v.reversals k).rows.any fun r =>
      r.replacementId = row.replacementId then
    .error (.uniqueIndex "replacement_key")
  else .ok ((), [.insertReversal k row])

def Sql.exec : (q : Sql) → Db → Except Err (q.Res × List Write)
  | .lockMember id contextId role, v => .ok ((v.findMember id contextId role).isSome, [])
  | .lockDevice id contextId, v => .ok ((v.findDevice id contextId).isSome, [])
  | .advisoryLock _, _ => .ok ((), [])
  | .findRecord k id contextId, v => .ok (v.findRecord k id contextId, [])
  | .createRecord k row, v => insertRecord k row v
  | .findReversal k id contextId, v => .ok (v.findReversal k id contextId, [])
  | .lockRecord k id contextId, v => .ok ((v.findRecord k id contextId).isSome, [])
  | .findLive k id contextId, v =>
    .ok ((v.findRecord k id contextId).map fun x => (x, v.reversalOf k x.id), [])
  | .createReversal k row, v => insertReversal k row v

/-- The rows locked by `FOR SHARE` and `FOR UPDATE`, the advisory keys, and the rows the
foreign keys of a new row refer to. -/
def Sql.locks : Sql → Db → Locks Key
  | .lockMember id contextId role, v =>
    (v.findMember id contextId role).toList.map fun m => (.member m.id, .share)
  | .lockDevice id contextId, v =>
    (v.findDevice id contextId).toList.map fun x => (.device x.id, .share)
  | .advisoryLock text, _ => [(.advisory text, .update)]
  | .lockRecord k id contextId, v =>
    (v.findRecord k id contextId).toList.map fun x => (.record k x.id, .update)
  | .createRecord _ row, _ =>
    [(.member row.data.partyId, .keyShare), (.member row.data.createdByMemberId, .keyShare),
      (.device row.data.deviceId, .keyShare)]
  | .createReversal k row, _ =>
    (.record k row.data.targetId, .keyShare) ::
      (row.replacementId.toList.map fun id => (.record k id, .keyShare)) ++
      [(.member row.data.createdByMemberId, .keyShare), (.device row.data.deviceId, .keyShare)]
  | _, _ => []

/-- The schema of contributions and expenses. -/
@[reducible] def corrections : Schema where
  Db := Db
  Write := Write
  Key := Key
  Err := Err
  Sql := Sql
  Res := Sql.Res
  keyEq := inferInstance
  apply := Write.apply
  key := Write.key
  mode := fun _ => .update
  mode_writes := fun _ => rfl
  locks := Sql.locks
  exec := Sql.exec
  stale := fun _ => .database "could not serialize access due to concurrent update"
  spontaneous := Err.spontaneous

/-- Sends one statement of the schema. -/
abbrev query (q : Sql) : Tx corrections q.Res := Tx.query (S := corrections) q

/-! The services. -/

def originMismatch : Err :=
  .forbidden "Operation origin does not match the selected member and device"

def originUnauthorized : Err := .forbidden "Operation origin is no longer authorized"

def identitiesNotDistinct : Err := .badRequest "Correction identities must be distinct"

def reversalIdConflict : Err := .conflict "Reversal ID already has different content"

def replacementExists : Err := .conflict "Replacement ID already exists"

def correctionExists : Err := .conflict "Correction identity already exists"

def isUniqueViolation : Err → Bool
  | .uniqueIndex _ => true
  | .uniqueViolation _ => true
  | _ => false

def checkSelection (actor : Actor) (createdByMemberId deviceId : Uuid) : Except Err Unit :=
  if actor.selection = some ⟨createdByMemberId.text, deviceId.text⟩ then .ok ()
  else .error originMismatch

/-- What a fingerprint of a record is made from. -/
def creationContent (actor : Actor) (operation : String) (data : Normalized) : Json :=
  .obj ([("contextId", .str actor.account.contextId), ("accountId", .str actor.account.id),
    ("operation", .str operation)] ++ data.fields)

def fingerprint (host : Host) (actor : Actor) (operation : String) (data : Normalized) : String :=
  host.sha256 (creationContent actor operation data)

def authorize (actor : Actor) (memberId deviceId : Uuid) : Tx corrections Unit := do
  let contextId := actor.account.contextId
  let member ← query (.lockMember memberId contextId (some .socio))
  let device ← query (.lockDevice deviceId contextId)
  Tx.require (member = true ∧ device = true) originUnauthorized

def lockIdentity (k : Kind) (contextId : String) (id : String) : Tx corrections Unit :=
  query (.advisoryLock (k.service.identity ++ ":" ++ contextId ++ ":" ++ id))

def newReceipt (actor : Actor) (data : Normalized) (receivedAt : Instant) : Receipt :=
  { data, contextId := actor.account.contextId, currency := "MXN"
    createdByAccountId := uuid actor.account.id, receivedAt }

/-- The row of a receipt. -/
def Receipt.row (receipt : Receipt) (requestFingerprint : String) : Record :=
  { id := receipt.data.id, contextId := receipt.contextId, data := receipt.data
    currency := receipt.currency, createdByAccountId := receipt.createdByAccountId
    receivedAt := receipt.receivedAt, requestFingerprint, creationResponse := receipt }

def insert (host : Host) (k : Kind) (actor : Actor) (dto : k.service.Dto) (receivedAt : Instant)
    (requestFingerprint : String) : Tx corrections Receipt := do
  let data := k.service.normalized host dto
  Tx.ofExcept (k.service.check dto)
  let party ← query (.lockMember data.partyId actor.account.contextId k.service.partyRole)
  Tx.require (party = true) k.service.partyRefused
  let receipt := newReceipt actor data receivedAt
  query (.createRecord k (receipt.row requestFingerprint))
  return receipt

def createInTx (host : Host) (env : Env) (k : Kind) (actor : Actor) (dto : k.service.Dto) :
    Tx corrections (Bool × Receipt) := do
  let data := k.service.normalized host dto
  authorize actor data.createdByMemberId data.deviceId
  lockIdentity k actor.account.contextId data.id.text
  let existing ← query (.findRecord k data.id actor.account.contextId)
  match existing with
  | some existing => do
    Tx.require (existing.requestFingerprint = fingerprint host actor "create" data)
      k.service.idConflict
    return (false, existing.creationResponse)
  | none => do
    let receipt ← insert host k actor dto (env.now 0) (fingerprint host actor "create" data)
    return (true, receipt)

/-- An error on the way out: a unique violation is an identity in use. -/
def mapUnique {α : Type} (taken : Err) : Except Err α → Call corrections α
  | .ok a => .ret a
  | .error e => .throw (if isUniqueViolation e then taken else e)

def create (host : Host) (env : Env) (k : Kind) (actor : Actor) (dto : k.service.Dto) :
    Call corrections (Bool × Receipt) := do
  let data := k.service.normalized host dto
  Call.ofExcept (checkSelection actor data.createdByMemberId data.deviceId)
  let settled ← Call.settle .readCommitted (createInTx host env k actor dto)
  mapUnique k.service.identityExists settled

/-! Reversals. -/

variable {k : Kind}

def reversalData (targetId : Uuid) (dto : ReverseDto k) : ReversalData :=
  { id := uuid dto.id, targetId, createdByMemberId := uuid dto.createdByMemberId
    deviceId := uuid dto.deviceId, occurredAt := dto.occurredAt, reason := dto.reason }

def ReverseDto.normalized (host : Host) (dto : ReverseDto k) : Option Normalized :=
  dto.replacement.map (k.service.normalized host)

/-- What the fingerprint of a reversal is made from. -/
def reversalContent (host : Host) (actor : Actor) (targetId : Uuid) (dto : ReverseDto k) : Json :=
  .obj [("contextId", .str actor.account.contextId), ("accountId", .str actor.account.id),
    ("id", .str (uuid dto.id).text), (k.service.target, .str targetId.text),
    ("createdByMemberId", .str (uuid dto.createdByMemberId).text),
    ("deviceId", .str (uuid dto.deviceId).text), ("occurredAt", .iso dto.occurredAt),
    ("reason", .str dto.reason),
    ("replacement", .opt (fun data => .obj data.fields) (dto.normalized host))]

/-- The replacement, if one is asked for. -/
def insertReplacement (host : Host) (env : Env) (k : Kind) (actor : Actor) (id : Uuid) :
    Option k.service.Dto → Tx corrections (Option Receipt)
  | none => return none
  | some dto => do
    let data := k.service.normalized host dto
    let used ← query (.findRecord k data.id actor.account.contextId)
    Tx.require used.isNone replacementExists
    let receipt ← insert host k actor dto (env.now 0)
      (fingerprint host actor ("replacement:" ++ id.text) data)
    return some receipt

def reversalRow (host : Host) (env : Env) (actor : Actor) (targetId : Uuid) (dto : ReverseDto k)
    (original : Receipt) (replacement : Option Receipt) : Reversal :=
  let data := reversalData targetId dto
  let replacementId := (dto.normalized host).map (·.id)
  { id := data.id, contextId := actor.account.contextId, data, receivedAt := env.now 1
    createdByAccountId := uuid actor.account.id, replacementId
    requestFingerprint := host.sha256 (reversalContent host actor targetId dto)
    creationResponse := {
      data, contextId := actor.account.contextId, createdByAccountId := uuid actor.account.id
      receivedAt := env.now 1, replacementId, original, replacement } }

/-- A reversal whose id is new. -/
def reverseNew (host : Host) (env : Env) (actor : Actor) (targetId : Uuid) (dto : ReverseDto k) :
    Tx corrections (Bool × ReversalReceipt) := do
  let contextId := actor.account.contextId
  let locked ← query (.lockRecord k targetId contextId)
  Tx.require (locked = true) k.service.notFound
  let original ← query (.findLive k targetId contextId)
  let original ← Tx.orThrow original .recordNotFound
  Tx.require original.2.isNone k.service.alreadyReversed
  let replacement ← insertReplacement host env k actor (uuid dto.id) dto.replacement
  let row := reversalRow host env actor targetId dto original.1.creationResponse replacement
  query (.createReversal k row)
  return (true, row.creationResponse)

def lockIdentities (k : Kind) (contextId : String) : List String → Tx corrections Unit
  | [] => return ()
  | id :: ids => do
    lockIdentity k contextId id
    lockIdentities k contextId ids

/-- The identities a correction names, sorted. -/
def identities (host : Host) (targetId : Uuid) (dto : ReverseDto k) : List String :=
  ((uuid dto.id).text :: targetId.text ::
    (dto.normalized host).toList.map (·.id.text)).insertionSort fun a b =>
      host.localeCompare a b ≠ .gt

def reverseInTx (host : Host) (env : Env) (actor : Actor) (targetId : Uuid) (dto : ReverseDto k) :
    Tx corrections (Bool × ReversalReceipt) := do
  let contextId := actor.account.contextId
  authorize actor (uuid dto.createdByMemberId) (uuid dto.deviceId)
  lockIdentities k contextId (identities host targetId dto)
  let existing ← query (.findReversal k (uuid dto.id) contextId)
  match existing with
  | some existing => do
    Tx.require (existing.requestFingerprint = host.sha256 (reversalContent host actor targetId dto))
      reversalIdConflict
    return (false, existing.creationResponse)
  | none => reverseNew host env actor targetId dto

/-- What is checked before the transaction of a reversal. -/
def checkReversal (host : Host) (actor : Actor) (targetId : Uuid) (dto : ReverseDto k) :
    Except Err Unit := do
  checkSelection actor (uuid dto.createdByMemberId) (uuid dto.deviceId)
  match dto.normalized host with
  | some data => checkSelection actor data.createdByMemberId data.deviceId
  | none => .ok ()
  let replacementId := (dto.normalized host).map (·.id)
  if replacementId = some targetId ∨ replacementId = some (uuid dto.id) ∨ uuid dto.id = targetId then
    .error identitiesNotDistinct
  else .ok ()

def reverse (host : Host) (env : Env) (actor : Actor) (targetId : String) (dto : ReverseDto k) :
    Call corrections (Bool × ReversalReceipt) := do
  Call.ofExcept (checkReversal host actor (uuid targetId) dto)
  let settled ← Call.settle .readCommitted (reverseInTx host env actor (uuid targetId) dto)
  mapUnique correctionExists settled

end Bazar.Corrections
