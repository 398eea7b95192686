import Mathlib.Data.Prod.Lex
import BazarApi.Finance.Model
import BazarApi.Finance.DateText
import BazarApi.Js.Base64
import BazarApi.Js.Pages
import BazarApi.Json.Parse

/- The lists of expenses, reserves, work shifts and agreements, a page at a time
   (`finance/expenses.service.ts`, `finance/finance-reserves.service.ts`,
   `finance/work-shifts.service.ts`, `finance/finance-agreements.service.ts`: `list`). A row
   keeps the columns that its list selects by; an item is its row.

   Correspondence (TypeScript ↔ Lean):
     `where`, `orderBy`, `take`, `slice` ↔ `listPage`
     `Buffer.from(JSON.stringify(…)).toString('base64url')` ↔ `toCursor`
     `list` of each service              ↔ `Expenses.list`, `Reserves.list`, … -/
open Json

namespace Bazar.Finance.Lists

open Txn Bazar.Js Pages

/-! What the services call. -/

structure Host where
  /-- `createHash('sha256').update(text).digest('hex')`. -/
  sha256Hex : JsString → JsString
  /-- `isUUID`. -/
  isUUID : String → Bool
  /-- Whether the number of a literal is 1. -/
  isOne : JsString → Bool
  /-- `Date.parse` of a text that `toISOString` does not print. -/
  otherDates : JsString → Option Instant
  /-- `new Date` of a value that is not a text, unless `Date.parse` finds no time in it. -/
  dateOf : Json.Tree JsString → Option Instant

def isHexChar (c : Char) : Bool :=
  (48 ≤ c.toNat && c.toNat ≤ 57) || (65 ≤ c.toNat && c.toNat ≤ 70) || (97 ≤ c.toNat && c.toNat ≤ 102)

/-- `UUID_V7.test`. -/
def isV7 (s : String) : Bool :=
  s.toList.length = 36 && s.toList.zipIdx.all fun p =>
    if p.2 ∈ [8, 13, 18, 23] then p.1 = '-' else if p.2 = 14 then p.1 = '7'
    else if p.2 = 19 then p.1 ∈ ['8', '9', 'a', 'b', 'A', 'B'] else isHexChar p.1

/-- What the host is documented to do: a digest is hexadecimal, 1 is one, and an identifier
of version 7 is a UUID. -/
structure Host.Documented (host : Host) : Prop where
  hex : ∀ s, ∀ c ∈ host.sha256Hex s, isHex c = true
  one : host.isOne (text "1") = true
  v7 : ∀ s, isV7 s = true → host.isUUID s = true

/-- A text of ASCII characters. -/
def ascii (s : JsString) : Option String :=
  (s.mapM fun c => if c.val < 0x80 then some (Char.ofNat c.val) else none).map String.ofList

/-- `new Date(text)`, unless it is invalid. -/
def newDate (host : Host) (s : JsString) : Option Instant :=
  match (ascii s).bind fun x => (readIso x.toList).filter fun t => isoText t = x with
  | some t => some t
  | none => host.otherDates s

/-- The time that a value stands for. -/
def dateValue (host : Host) : Json.Tree JsString → Option Instant
  | .str s => newDate host s
  | v => host.dateOf v

/-! Cursors. -/

def toCursor (fields : List (JsString × JsString)) : JsString := toBase64url (toUtf8 (stringify fields))

def strOf (t : Json.Tree JsString) (key : String) : Option JsString :=
  match t.get? (text key) with
  | some (.str s) => some s
  | _ => none

/-- A stored identifier, as the check of its column has it. -/
structure Stored (id : Uuid) : Prop where
  v7 : isV7 id.text = true
  lower : uuid id.text = id

/-! A page. -/

section
variable {α τ : Type} [LinearOrder τ] (time : α → τ) (id : α → Uuid)

def key (r : α) : τ ×ₗ Uuid := toLex (time r, id r)

/-- The condition on the rows behind a cursor. -/
def behind (cursor : Option (τ × Uuid)) (r : α) : Bool :=
  cursor.all fun c => decide (time r < c.1) || (decide (time r = c.1) && decide (id r < c.2))

def listPage (matching : List α) (limit : Nat) (cursor : Option (τ × Uuid)) (encode : α → JsString) :
    Page α JsString :=
  let rows := (descending (key time id) (matching.filter (behind time id cursor))).take (limit + 1)
  let items := rows.take limit
  ⟨items, if rows.length > limit then items.getLast?.map encode else none⟩

end

/-- The cursor of a query, read; an empty text is none. -/
def readCursor {κ : Type} (decode : JsString → Option κ) (message : String) :
    Option JsString → Except Err (Option κ)
  | none => pure none
  | some [] => pure none
  | some (c :: s) =>
    match decode (c :: s) with
    | some k => pure (some k)
    | none => throw (.badRequest message)

/-! Expenses. -/

structure Expense where
  id : Uuid
  contextId : String
  occurredAt : Instant
  nature : String
  category : String
  paidByMemberId : Uuid
  id_stored : Stored id
  occurredAt_time : IsTime occurredAt

structure ExpenseListDto where
  since : Option Instant
  before : Option Instant
  paidByMemberId : Option String
  nature : Option String
  category : Option String
  cursor : Option JsString
  limit : Nat

namespace Expenses

def matching (contextId : String) (query : ExpenseListDto) (r : Expense) : Bool :=
  r.contextId = contextId && query.paidByMemberId.all (r.paidByMemberId = uuid ·) &&
    query.nature.all (r.nature = ·) && query.category.all (r.category = ·) &&
    query.since.all (· ≤ r.occurredAt) && query.before.all (r.occurredAt < ·)

def encode (r : Expense) : JsString :=
  toCursor [(text "occurredAt", quote (text (isoText r.occurredAt))), (text "id", quote (text r.id.text))]

def decode (host : Host) (cursor : JsString) : Option (Instant × Uuid) := do
  let decoded ← parse (ofUtf8 (fromBase64url cursor))
  let id ← (strOf decoded "id").bind ascii
  let occurredAt ← (decoded.get? (text "occurredAt")).bind (dateValue host)
  if host.isUUID id then some (occurredAt, uuid id) else none

/-- `list`. -/
def list (host : Host) (rows : List Expense) (contextId : String) (query : ExpenseListDto) :
    Except Err (Page Expense JsString) := do
  if query.since.any fun a => query.before.any (· ≤ a) then
    throw (.badRequest "from must precede to")
  let cursor ← readCursor (decode host) "Invalid cursor" query.cursor
  return listPage Expense.occurredAt Expense.id (rows.filter (matching contextId query)) query.limit
    cursor encode

end Expenses

/-! Reserves and agreements. -/

/-- Both ends of an exact period or neither, in order. -/
def checkPeriod (since until' : Option CalendarDate) : Except Err Unit :=
  match since, until' with
  | none, none => pure ()
  | some a, some b =>
    if a < b then pure ()
    else throw (.badRequest "Both exact-period dates are required with from preceding to")
  | _, _ => throw (.badRequest "Both exact-period dates are required with from preceding to")

def encodeScoped (scope : JsString) (receivedAt : Instant) (id : Uuid) : JsString :=
  toCursor [(text "version", text "1"), (text "scope", quote scope),
    (text "receivedAt", quote (text (isoText receivedAt))), (text "id", quote (text id.text))]

/-- The cursor of a list that names the context and the filter it belongs to. -/
def decodeScoped (host : Host) (scope : JsString) (cursor : JsString) : Option (Instant × Uuid) := do
  if !isBase64url cursor then none
  let raw := fromBase64url cursor
  if toBase64url raw ≠ cursor then none
  let decoded ← parse (ofUtf8 raw)
  let version ← match decoded.get? (text "version") with
    | some (.num n) => some (host.isOne n)
    | _ => none
  let id ← (strOf decoded "id").bind ascii
  let receivedAt ← (strOf decoded "receivedAt").bind fun s =>
    (newDate host s).filter fun t => text (isoText t) = s
  if version ∧ strOf decoded "scope" = some scope ∧ host.isUUID id ∧ isV7 id then
    some (receivedAt, uuid id)
  else none

structure FinanceReserve where
  id : Uuid
  contextId : String
  periodFrom : CalendarDate
  periodTo : CalendarDate
  receivedAt : Instant
  reversed : Bool
  id_stored : Stored id
  receivedAt_time : IsTime receivedAt

structure FinanceReserveListDto where
  since : Option CalendarDate
  until' : Option CalendarDate
  /-- `status`: `reversed`, or else `active`. -/
  reversed : Bool
  cursor : Option JsString
  limit : Nat

/-- A value or `null`, printed. -/
def orNull (d : Option JsString) : JsString := (d.map quote).getD (text "null")

namespace Reserves

def matching (contextId : String) (query : FinanceReserveListDto) (r : FinanceReserve) : Bool :=
  r.contextId = contextId && query.since.all (r.periodFrom = ·) && query.until'.all (r.periodTo = ·) &&
    r.reversed = query.reversed

def scope (host : Host) (contextId : String) (query : FinanceReserveListDto) : JsString :=
  host.sha256Hex (stringify [(text "contextId", quote (utf16 contextId)),
    (text "from", orNull (query.since.map fun d => text d.text)),
    (text "to", orNull (query.until'.map fun d => text d.text)),
    (text "status", quote (text (if query.reversed then "reversed" else "active")))])

def encode (scope : JsString) (r : FinanceReserve) : JsString := encodeScoped scope r.receivedAt r.id

/-- `list`. -/
def list (host : Host) (rows : List FinanceReserve) (contextId : String)
    (query : FinanceReserveListDto) : Except Err (Page FinanceReserve JsString) := do
  checkPeriod query.since query.until'
  let scope := scope host contextId query
  let cursor ← readCursor (decodeScoped host scope) "Invalid cursor for this context and filter" query.cursor
  return listPage FinanceReserve.receivedAt FinanceReserve.id (rows.filter (matching contextId query))
    query.limit cursor (encode scope)

end Reserves

structure DistributionAgreement where
  id : Uuid
  contextId : String
  folio : String
  periodFrom : CalendarDate
  periodTo : CalendarDate
  receivedAt : Instant
  reversed : Bool
  id_stored : Stored id
  receivedAt_time : IsTime receivedAt

structure DistributionAgreementListDto where
  since : Option CalendarDate
  until' : Option CalendarDate
  /-- `status`: `voided`, or else `active`. -/
  voided : Bool
  folio : Option String
  cursor : Option JsString
  limit : Nat

namespace Agreements

def matching (contextId : String) (query : DistributionAgreementListDto) (r : DistributionAgreement) :
    Bool :=
  r.contextId = contextId && query.since.all (r.periodFrom = ·) && query.until'.all (r.periodTo = ·) &&
    query.folio.all (r.folio = ·) && r.reversed = query.voided

/-- `canonicalDigest`: the keys in their order. -/
def scope (host : Host) (contextId : String) (query : DistributionAgreementListDto) : JsString :=
  host.sha256Hex (stringify [(text "contextId", quote (utf16 contextId)),
    (text "folio", orNull (query.folio.map utf16)),
    (text "from", orNull (query.since.map fun d => text d.text)),
    (text "status", quote (text (if query.voided then "voided" else "active"))),
    (text "to", orNull (query.until'.map fun d => text d.text))])

def encode (scope : JsString) (r : DistributionAgreement) : JsString :=
  encodeScoped scope r.receivedAt r.id

/-- `list`. -/
def list (host : Host) (rows : List DistributionAgreement) (contextId : String)
    (query : DistributionAgreementListDto) : Except Err (Page DistributionAgreement JsString) := do
  checkPeriod query.since query.until'
  let scope := scope host contextId query
  let cursor ← readCursor (decodeScoped host scope) "Invalid cursor for this context and filter" query.cursor
  return listPage DistributionAgreement.receivedAt DistributionAgreement.id
    (rows.filter (matching contextId query)) query.limit cursor (encode scope)

end Agreements

/-! Work shifts. -/

structure WorkShift where
  id : Uuid
  contextId : String
  memberId : Uuid
  workDate : CalendarDate
  minutes : Option Int
  reversed : Bool
  id_stored : Stored id

inductive ShiftStatus where
  | active
  | reversed
  deriving DecidableEq

structure WorkShiftListDto where
  since : Option CalendarDate
  before : Option CalendarDate
  memberId : Option String
  /-- `duration`: `known` or `unknown`. -/
  known : Option Bool
  status : Option ShiftStatus
  cursor : Option JsString
  limit : Nat

/-- The active member that reads, as `scope` finds it. -/
structure Reader where
  id : Uuid
  colaborador : Bool

namespace WorkShifts

/-- `scope`: whose shifts are read. -/
def scope (reader : Option Reader) (query : WorkShiftListDto) : Except Err (Option Uuid) := do
  if query.since.any fun a => query.before.any (· ≤ a) then
    throw (.badRequest "from must precede to")
  let some member := reader | throw (.forbidden "Selection is no longer authorized")
  let memberId := query.memberId.map uuid
  if member.colaborador then
    if memberId.any (· ≠ member.id) then
      throw (.forbidden "Only your own work shifts may be read")
    return some member.id
  return memberId

def matching (contextId : String) (memberId : Option Uuid) (query : WorkShiftListDto) (r : WorkShift) :
    Bool :=
  r.contextId = contextId && memberId.all (r.memberId = ·) && query.since.all (· ≤ r.workDate) &&
    query.before.all (r.workDate < ·) && query.known.all (r.minutes.isSome = ·) &&
    query.status.all fun s => r.reversed = (s = .reversed)

def encode (r : WorkShift) : JsString :=
  toCursor [(text "workDate", quote (text r.workDate.text)), (text "id", quote (text r.id.text))]

/-- `Object.keys(…).sort().join(',')`. -/
def keys (t : Json.Tree JsString) : JsString :=
  match t with
  | .obj fields => comma ((fields.map Prod.fst).dedup.insertionSort (· ≤ ·))
  | _ => []

def decode (host : Host) (cursor : JsString) : Option (Nat × Uuid) := do
  if !isBase64url cursor then none
  let decoded ← parse (ofUtf8 (fromBase64url cursor))
  let workDate ← (strOf decoded "workDate").bind fun s => (ascii s).bind fun x => CalendarDate.read x.toList
  let id ← (strOf decoded "id").bind ascii
  if host.isUUID id ∧ keys decoded = text "id,workDate" then some (workDate.number, uuid id) else none

/-- `list`; an empty cursor is no cursor of this list. -/
def list (host : Host) (rows : List WorkShift) (contextId : String) (reader : Option Reader)
    (query : WorkShiftListDto) : Except Err (Page WorkShift JsString) := do
  let memberId ← scope reader query
  let cursor ← match query.cursor with
    | none => pure none
    | some c => match decode host c with
      | some k => pure (some k)
      | none => throw (.badRequest "Invalid cursor")
  return listPage (fun r => r.workDate.number) WorkShift.id (rows.filter (matching contextId memberId query))
    query.limit cursor encode

end WorkShifts

end Bazar.Finance.Lists
