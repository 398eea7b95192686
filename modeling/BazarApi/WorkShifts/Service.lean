import Mathlib.Data.List.Dedup
import BazarApi.Json.Canonical
import BazarApi.Finance.Model
import BazarApi.Team.Model
import BazarApi.Txn.Silent

/- `finance/work-shifts.service.ts`: shifts of work, recorded and reversed, with a corrected
   shift in their place or without. A shift's id and a reversal's are looked up in both tables
   under advisory locks; the shifts of one member and day are counted under another.

   Correspondence (TypeScript ↔ Lean):
     `normalized`                      ↔ `normalized`
     `fingerprint`                     ↔ `fingerprint`
     `checkSelection`, `authorize`     ↔ `checkSelection`, `authorize`
     `[...new Set(keys)].sort()`       ↔ `sortedSet`
     `lockIdentities`, `lockDays`      ↔ `lockIdentities`, `lockDays`
     `insert`                          ↔ `insert`
     `conflict`                        ↔ `conflict`
     `create`                          ↔ `create`, `createInTx`
     `reverse`                         ↔ `reverse`, `reverseInTx`, `reverseNew` -/
open Json

namespace Bazar.WorkShifts

open Txn Team
open Finance (utf16 CalendarDate)

/-! Bodies. -/

structure CreateWorkShiftDto where
  id : String
  memberId : String
  workDate : CalendarDate
  minutes : Option Int
  note : Option String
  createdByMemberId : String
  deviceId : String

structure ReverseWorkShiftDto where
  id : String
  createdByMemberId : String
  deviceId : String
  occurredAt : Instant
  reason : String
  replacement : Option CreateWorkShiftDto

structure ShiftData where
  id : Uuid
  memberId : Uuid
  workDate : CalendarDate
  minutes : Option Int
  note : Option String
  createdByMemberId : Uuid
  deviceId : Uuid
  deriving DecidableEq

def normalized (dto : CreateWorkShiftDto) : ShiftData :=
  { id := uuid dto.id, memberId := uuid dto.memberId, workDate := dto.workDate
    minutes := dto.minutes, note := dto.note, createdByMemberId := uuid dto.createdByMemberId
    deviceId := uuid dto.deviceId }

def ShiftData.fields (x : ShiftData) : List (String × Bazar.Json) :=
  [("id", .str x.id.text), ("memberId", .str x.memberId.text), ("workDate", .str x.workDate.text),
    ("minutes", .opt .num x.minutes), ("note", .opt .str x.note),
    ("createdByMemberId", .str x.createdByMemberId.text), ("deviceId", .str x.deviceId.text)]

structure ReversalData where
  id : Uuid
  workShiftId : Uuid
  createdByMemberId : Uuid
  deviceId : Uuid
  occurredAt : Instant
  reason : String
  deriving DecidableEq, Repr

def ReversalData.fields (x : ReversalData) : List (String × Bazar.Json) :=
  [("id", .str x.id.text), ("workShiftId", .str x.workShiftId.text),
    ("createdByMemberId", .str x.createdByMemberId.text), ("deviceId", .str x.deviceId.text),
    ("occurredAt", .iso x.occurredAt), ("reason", .str x.reason)]

def fingerprint (host : Host) (actor : Actor) (payload : List (String × Bazar.Json))
    (operation : String) : String :=
  host.sha256 (.obj ([("contextId", .str actor.account.contextId),
    ("accountId", .str actor.account.id), ("operation", .str operation)] ++ payload))

/-! Rows. -/

structure Warning where
  code : String
  existingActiveShiftCount : Nat
  deriving DecidableEq, Repr

/-- What a creation warns of. -/
def warningsOf (existingActiveShiftCount : Nat) : List Warning :=
  if existingActiveShiftCount = 0 then []
  else [⟨"MULTIPLE_SHIFTS_SAME_DAY", existingActiveShiftCount⟩]

structure Receipt where
  data : ShiftData
  contextId : String
  createdByAccountId : String
  receivedAt : Instant
  warnings : List Warning
  deriving DecidableEq

structure WorkShift where
  data : ShiftData
  contextId : String
  receivedAt : Instant
  createdByAccountId : String
  requestFingerprint : String
  creationResponse : Receipt
  deriving DecidableEq

structure ReversalReceipt where
  data : ReversalData
  contextId : String
  createdByAccountId : String
  receivedAt : Instant
  replacementWorkShiftId : Option Uuid
  original : Receipt
  replacement : Option Receipt
  deriving DecidableEq

structure WorkShiftReversal where
  data : ReversalData
  contextId : String
  receivedAt : Instant
  createdByAccountId : String
  replacementWorkShiftId : Option Uuid
  requestFingerprint : String
  creationResponse : ReversalReceipt
  deriving DecidableEq

instance : Keyed WorkShift Uuid := ⟨fun s => s.data.id⟩
instance : Keyed WorkShiftReversal Uuid := ⟨fun r => r.data.id⟩

structure Db where
  members : Table Member
  devices : Table Device
  shifts : Table WorkShift
  reversals : Table WorkShiftReversal

namespace Db
variable (d : Db)

def findMember (id : Uuid) (contextId : String) (role : Option MemberRole) : Option Member :=
  (d.members.find? id).filter fun m => m.contextId = contextId ∧ m.active ∧ ∀ r ∈ role, m.role = r

def findDevice (id : Uuid) (contextId : String) : Option Device :=
  (d.devices.find? id).filter fun x => x.contextId = contextId ∧ x.authorized

def findShift (id : Uuid) (contextId : String) : Option WorkShift :=
  (d.shifts.find? id).filter fun s => s.contextId = contextId

def findReversal (id : Uuid) (contextId : String) : Option WorkShiftReversal :=
  (d.reversals.find? id).filter fun r => r.contextId = contextId

/-- The reversal of a shift. -/
def reversalOf (s : WorkShift) : Option WorkShiftReversal :=
  d.reversals.rows.find? fun r => r.data.workShiftId = s.data.id ∧ r.contextId = s.contextId

/-- The shifts of a member and day that are not reversed. -/
def activeOn (contextId : String) (memberId : Uuid) (workDate : CalendarDate) : List WorkShift :=
  d.shifts.rows.filter fun s => s.contextId = contextId ∧ s.data.memberId = memberId ∧
    s.data.workDate = workDate ∧ (d.reversalOf s).isNone

/-- How many of them, but for one. -/
def countActive (contextId : String) (memberId : Uuid) (workDate : CalendarDate)
    (excludedId : Option Uuid) : Nat :=
  ((d.activeOn contextId memberId workDate).filter fun s => some s.data.id ≠ excludedId).length

end Db

/-! Statements. -/

inductive Write where
  | insertShift (row : WorkShift)
  | insertReversal (row : WorkShiftReversal)

inductive Key where
  | member (id : Uuid)
  | device (id : Uuid)
  | shift (id : Uuid)
  | reversal (id : Uuid)
  | advisory (text : JsString)
  deriving DecidableEq

def Write.apply (d : Db) : Write → Db
  | .insertShift row => { d with shifts := d.shifts.put row }
  | .insertReversal row => { d with reversals := d.reversals.put row }

def Write.key : Write → Key
  | .insertShift row => .shift row.data.id
  | .insertReversal row => .reversal row.data.id

inductive Sql where
  | lockMember (id : Uuid) (contextId : String) (role : Option MemberRole)
  | lockDevice (id : Uuid) (contextId : String)
  | advisoryLock (text : JsString)
  | findShift (id : Uuid) (contextId : String)
  | findReversal (id : Uuid) (contextId : String)
  /-- With its reversal. -/
  | findLive (id : Uuid) (contextId : String)
  | countActive (contextId : String) (memberId : Uuid) (workDate : CalendarDate)
    (excludedId : Option Uuid)
  | createShift (row : WorkShift)
  | createReversal (row : WorkShiftReversal)

@[reducible] def Sql.Res : Sql → Type
  | .lockMember _ _ _ => Bool
  | .lockDevice _ _ => Bool
  | .advisoryLock _ => Unit
  | .findShift _ _ => Option WorkShift
  | .findReversal _ _ => Option WorkShiftReversal
  | .findLive _ _ => Option (WorkShift × Option WorkShiftReversal)
  | .countActive _ _ _ _ => Nat
  | .createShift _ => Unit
  | .createReversal _ => Unit

/-- A violated unique index or foreign key, by its name. -/
def violated (constraint : String) : Err := .uniqueIndex constraint

def insertShift (row : WorkShift) (v : Db) : Except Err (Unit × List Write) :=
  if (v.shifts.find? row.data.id).isSome then .error (violated "WorkShift_pkey")
  else .ok ((), [.insertShift row])

def insertReversal (row : WorkShiftReversal) (v : Db) : Except Err (Unit × List Write) :=
  if (v.reversals.find? row.data.id).isSome then .error (violated "WorkShiftReversal_pkey")
  else if v.reversals.rows.any fun r => r.data.workShiftId = row.data.workShiftId then
    .error (violated "WorkShiftReversal_workShiftId_key")
  else if row.replacementWorkShiftId.isSome ∧ v.reversals.rows.any fun r =>
      r.replacementWorkShiftId = row.replacementWorkShiftId then
    .error (violated "WorkShiftReversal_replacementWorkShiftId_key")
  else if (v.findShift row.data.workShiftId row.contextId).isNone ∨
      ∃ id ∈ row.replacementWorkShiftId, (v.findShift id row.contextId).isNone = true then
    .error (violated "WorkShiftReversal_workShiftId_contextId_fkey")
  else .ok ((), [.insertReversal row])

def Sql.exec : (q : Sql) → Db → Except Err (q.Res × List Write)
  | .lockMember id contextId role, v => .ok ((v.findMember id contextId role).isSome, [])
  | .lockDevice id contextId, v => .ok ((v.findDevice id contextId).isSome, [])
  | .advisoryLock _, _ => .ok ((), [])
  | .findShift id contextId, v => .ok (v.findShift id contextId, [])
  | .findReversal id contextId, v => .ok (v.findReversal id contextId, [])
  | .findLive id contextId, v =>
    .ok ((v.findShift id contextId).map fun s => (s, v.reversalOf s), [])
  | .countActive contextId memberId workDate excludedId, v =>
    .ok (v.countActive contextId memberId workDate excludedId, [])
  | .createShift row, v => insertShift row v
  | .createReversal row, v => insertReversal row v

/-- The rows locked by `FOR SHARE`, the advisory keys, and the rows the foreign keys of a new
row refer to. -/
def Sql.locks : Sql → Db → Locks Key
  | .lockMember id contextId role, v =>
    (v.findMember id contextId role).toList.map fun m => (.member m.id, .share)
  | .lockDevice id contextId, v =>
    (v.findDevice id contextId).toList.map fun x => (.device x.id, .share)
  | .advisoryLock text, _ => [(.advisory text, .update)]
  | .createShift row, _ =>
    [(.member row.data.memberId, .keyShare), (.member row.data.createdByMemberId, .keyShare),
      (.device row.data.deviceId, .keyShare)]
  | .createReversal row, _ =>
    (.shift row.data.workShiftId, .keyShare) ::
      (row.replacementWorkShiftId.toList.map fun id => (.shift id, .keyShare)) ++
      [(.member row.data.createdByMemberId, .keyShare), (.device row.data.deviceId, .keyShare)]
  | _, _ => []

/-- The schema of work shifts. -/
@[reducible] def shifts : Schema where
  Db := Db
  Write := Write
  Key := Key
  Err := Err
  Sql := Sql
  Res := Sql.Res
  keyEq := inferInstance
  apply := Write.apply
  key := Write.key
  mode := fun _ => .update
  mode_writes := fun _ => rfl
  locks := Sql.locks
  exec := Sql.exec
  stale := fun _ => .database "could not serialize access due to concurrent update"
  spontaneous := Err.spontaneous

/-- Sends one statement of the schema. -/
abbrev query (q : Sql) : Tx shifts q.Res := Tx.query (S := shifts) q

/-! Locks. -/

/-- `[...new Set(keys)].sort()`. -/
def sortedSet (keys : List JsString) : List JsString := keys.dedup.insertionSort fun a b => a ≤ b

theorem mem_sortedSet {keys : List JsString} {key : JsString} :
    key ∈ sortedSet keys ↔ key ∈ keys :=
  (List.perm_insertionSort _ _).mem_iff.trans List.mem_dedup

def lockAll : List JsString → Tx shifts Unit
  | [] => .ret ()
  | key :: keys => do
    query (.advisoryLock key)
    lockAll keys

def identityKey (contextId : String) (id : JsString) : JsString :=
  utf16 ("work-shift:identity:" ++ contextId ++ ":") ++ id

def lockIdentities (contextId : String) (ids : List Uuid) : Tx shifts Unit :=
  lockAll ((sortedSet (ids.map fun id => utf16 id.text)).map (identityKey contextId))

/-- `JSON.stringify([contextId, day.memberId, day.workDate])`. -/
def dayText (contextId : String) (day : Uuid × CalendarDate) : JsString :=
  serialize intLiteral (.arr [.str (utf16 contextId), .str (utf16 day.1.text),
    .str (utf16 day.2.text)])

def dayKey (text : JsString) : JsString := utf16 "work-shift:day:" ++ text

def lockDays (contextId : String) (days : List (Uuid × CalendarDate)) : Tx shifts Unit :=
  lockAll ((sortedSet (days.map (dayText contextId))).map dayKey)

/-! The service. -/

def originMismatch : Err :=
  .forbidden "Operation origin does not match the selected member and device"

def originUnauthorized : Err := .forbidden "Operation origin is no longer authorized"

def workerInactive : Err := .forbidden "Worker must be an active member of this business"

def relationConflict : Err := .conflict "Work shift identity or relationship conflicts"

def checkSelection (actor : Actor) (createdByMemberId deviceId : String) :
    Except Err Selection :=
  match actor.selection with
  | some s =>
    if (uuid createdByMemberId).text ≠ s.memberId ∨ (uuid deviceId).text ≠ s.deviceId then
      .error originMismatch
    else .ok s
  | none => .error originMismatch

def authorize (actor : Actor) (s : Selection) : Tx shifts Unit := do
  let contextId := actor.account.contextId
  let members ← query (.lockMember (uuid s.memberId) contextId (some .socio))
  let devices ← query (.lockDevice (uuid s.deviceId) contextId)
  Tx.require (members = true ∧ devices = true) originUnauthorized

/-- A violated index or foreign key on the way out. -/
def conflict {α : Type} : Except Err α → Call shifts α
  | .ok a => .ret a
  | .error (.uniqueIndex _) => .throw relationConflict
  | .error e => .throw e

/-- The row of a shift that is warned of `count` others. -/
def shiftRow (actor : Actor) (data : ShiftData) (count : Nat) (receivedAt : Instant)
    (requestFingerprint : String) : WorkShift :=
  { data, contextId := actor.account.contextId, receivedAt
    createdByAccountId := actor.account.id, requestFingerprint
    creationResponse := {
      data, contextId := actor.account.contextId, createdByAccountId := actor.account.id
      receivedAt, warnings := warningsOf count } }

def insert (actor : Actor) (dto : CreateWorkShiftDto) (receivedAt : Instant)
    (requestFingerprint : String) (excludedId : Option Uuid) : Tx shifts Receipt := do
  let data := normalized dto
  let contextId := actor.account.contextId
  let workers ← query (.lockMember data.memberId contextId none)
  Tx.require (workers = true) workerInactive
  let count ← query (.countActive contextId data.memberId data.workDate excludedId)
  let row := shiftRow actor data count receivedAt requestFingerprint
  query (.createShift row)
  return row.creationResponse

def createInTx (host : Host) (env : Env) (actor : Actor) (s : Selection)
    (dto : CreateWorkShiftDto) : Tx shifts (Bool × Receipt) := do
  let data := normalized dto
  let contextId := actor.account.contextId
  let requestFingerprint := fingerprint host actor data.fields "create"
  authorize actor s
  lockIdentities contextId [data.id]
  let existing ← query (.findShift data.id contextId)
  match existing with
  | some existing => do
    -- The same request sent again: its receipt is answered as it was.
    Tx.require (existing.requestFingerprint = requestFingerprint)
      (.conflict "Work shift ID already has different content")
    return (false, existing.creationResponse)
  | none => do
    -- The id of a reversal is not taken for a shift.
    let used ← query (.findReversal data.id contextId)
    Tx.require used.isNone (.conflict "Work shift identity already exists")
    lockDays contextId [(data.memberId, data.workDate)]
    let receipt ← insert actor dto (env.now 0) requestFingerprint none
    return (true, receipt)

def create (host : Host) (env : Env) (actor : Actor) (dto : CreateWorkShiftDto) :
    Call shifts (Bool × Receipt) := do
  let s ← Call.ofExcept (checkSelection actor dto.createdByMemberId dto.deviceId)
  let settled ← Call.settle .readCommitted (createInTx host env actor s dto)
  conflict settled

/-! Reversals. -/

def reversalData (workShiftId : Uuid) (dto : ReverseWorkShiftDto) : ReversalData :=
  { id := uuid dto.id, workShiftId, createdByMemberId := uuid dto.createdByMemberId
    deviceId := uuid dto.deviceId, occurredAt := dto.occurredAt, reason := dto.reason }

def replacementWorkShiftId (dto : ReverseWorkShiftDto) : Option Uuid :=
  dto.replacement.map fun r => uuid r.id

def reversalFingerprint (host : Host) (actor : Actor) (workShiftId : Uuid)
    (dto : ReverseWorkShiftDto) : String :=
  fingerprint host actor ((reversalData workShiftId dto).fields ++
    [("replacement", .opt (fun r => .obj (normalized r).fields) dto.replacement)]) "reverse"

/-- The ids a correction names. -/
def identities (workShiftId : Uuid) (dto : ReverseWorkShiftDto) : List Uuid :=
  uuid dto.id :: workShiftId :: (replacementWorkShiftId dto).toList

/-- The days it is about. -/
def correctedDays (original : WorkShift) (dto : ReverseWorkShiftDto) :
    List (Uuid × CalendarDate) :=
  (original.data.memberId, original.data.workDate) ::
    dto.replacement.toList.map fun r => ((normalized r).memberId, (normalized r).workDate)

def replacementFingerprint (host : Host) (actor : Actor) (id : Uuid) (dto : CreateWorkShiftDto) :
    String :=
  fingerprint host actor (normalized dto).fields ("replacement:" ++ id.text)

/-- The corrected shift, if one is asked for. -/
def insertReplacement (host : Host) (env : Env) (actor : Actor) (id workShiftId : Uuid) :
    Option CreateWorkShiftDto → Tx shifts (Option Receipt)
  | none => return none
  | some dto => do
    let contextId := actor.account.contextId
    let usedShift ← query (.findShift (uuid dto.id) contextId)
    let usedReversal ← query (.findReversal (uuid dto.id) contextId)
    Tx.require (usedShift.isNone ∧ usedReversal.isNone)
      (.conflict "Replacement identity already exists")
    let receipt ← insert actor dto (env.now 0) (replacementFingerprint host actor id dto)
      (some workShiftId)
    return some receipt

def reversalRow (host : Host) (env : Env) (actor : Actor) (workShiftId : Uuid)
    (dto : ReverseWorkShiftDto) (original : Receipt) (replacement : Option Receipt) :
    WorkShiftReversal :=
  let data := reversalData workShiftId dto
  { data, contextId := actor.account.contextId, receivedAt := env.now 1
    createdByAccountId := actor.account.id, replacementWorkShiftId := replacementWorkShiftId dto
    requestFingerprint := reversalFingerprint host actor workShiftId dto
    creationResponse := {
      data, contextId := actor.account.contextId, createdByAccountId := actor.account.id
      receivedAt := env.now 1, replacementWorkShiftId := replacementWorkShiftId dto, original
      replacement } }

/-- A reversal whose id is new. -/
def reverseNew (host : Host) (env : Env) (actor : Actor) (workShiftId : Uuid)
    (dto : ReverseWorkShiftDto) : Tx shifts (Bool × ReversalReceipt) := do
  let contextId := actor.account.contextId
  let used ← query (.findShift (uuid dto.id) contextId)
  Tx.require used.isNone (.conflict "Correction identity already exists")
  let original ← query (.findLive workShiftId contextId)
  let original ← Tx.orThrow original (.notFound "Work shift not found")
  Tx.require original.2.isNone (.conflict "Work shift already reversed")
  lockDays contextId (correctedDays original.1 dto)
  let replacement ← insertReplacement host env actor (uuid dto.id) workShiftId dto.replacement
  let row := reversalRow host env actor workShiftId dto original.1.creationResponse replacement
  query (.createReversal row)
  return (true, row.creationResponse)

def reverseInTx (host : Host) (env : Env) (actor : Actor) (s : Selection) (workShiftId : Uuid)
    (dto : ReverseWorkShiftDto) : Tx shifts (Bool × ReversalReceipt) := do
  let contextId := actor.account.contextId
  authorize actor s
  lockIdentities contextId (identities workShiftId dto)
  let existing ← query (.findReversal (uuid dto.id) contextId)
  match existing with
  | some existing => do
    Tx.require (existing.requestFingerprint = reversalFingerprint host actor workShiftId dto)
      (.conflict "Reversal ID already has different content")
    return (false, existing.creationResponse)
  | none => reverseNew host env actor workShiftId dto

/-- What is checked before the transaction of a reversal. -/
def checkReversal (actor : Actor) (workShiftId : Uuid) (dto : ReverseWorkShiftDto) :
    Except Err Selection := do
  let s ← checkSelection actor dto.createdByMemberId dto.deviceId
  let _ ← dto.replacement.elim (.ok s) fun r =>
    checkSelection actor r.createdByMemberId r.deviceId
  if (identities workShiftId dto).Nodup then .ok s
  else .error (.badRequest "Correction identities must be distinct")

def reverse (host : Host) (env : Env) (actor : Actor) (target : String)
    (dto : ReverseWorkShiftDto) : Call shifts (Bool × ReversalReceipt) := do
  let s ← Call.ofExcept (checkReversal actor (uuid target) dto)
  let settled ← Call.settle .readCommitted (reverseInTx host env actor s (uuid target) dto)
  conflict settled

end Bazar.WorkShifts
