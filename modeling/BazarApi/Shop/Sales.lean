import BazarApi.Shop.Database

/- `SalesService.create` (`sales/sales.service.ts`): the check before the
   transaction, the transaction itself with its loop over the items, and the
   branch that answers a lost race, a duplicate id or a client error.

   Correspondence (TypeScript ↔ Lean):
     `requestFingerprint`, `isIdempotentReplay`   ↔ the same names
     the `for (const item of dto.items)` body     ↔ `sellItem`, `sellItems`
     the `$transaction` callback                  ↔ `createInTx`
     the `catch` block                            ↔ `recover`
     the `sale.create(...).then(...).catch(...)`  ↔ `persistRejection` -/
namespace Bazar.Shop.Sales

open Txn

/-! Idempotency. -/

def isSaleIdConflict : Err → Bool
  | .uniqueViolation .sale => true
  | _ => false

structure SaleItemResponse where
  id : Uuid
  productId : Uuid
  quantity : Int
  unitPriceMinor : Int
  subtotalMinor : Int
  createdAt : Instant
  deriving DecidableEq, Repr

structure SaleResponse extends SaleHeader where
  items : List SaleItemResponse
  deriving DecidableEq, Repr

def response (sale : Sale) : SaleResponse :=
  { toSaleHeader := sale.toSaleHeader
    items := sale.items.map fun item =>
      ⟨item.id, item.productId, item.quantity, item.unitPriceMinor, item.subtotalMinor,
        item.createdAt⟩ }

/-- `MAX_OCCURRED_AT_FUTURE_MS`. -/
def maxOccurredAtFutureMs : Int := 5 * 60000

/-- `MAX_OCCURRED_AT_PAST_DAYS`. -/
def maxOccurredAtPastDays : Int := 2

def occurredAtIssue (host : Host) (occurredAt receivedAt : Instant) : Option String :=
  let diffMs := occurredAt - receivedAt
  if diffMs > maxOccurredAtFutureMs then
    some ("La fecha registrada por el dispositivo parece estar adelantada. " ++
      "Revisa el reloj de la tablet.")
  else if -diffMs > maxOccurredAtPastDays * 86400000 then
    some (s!"occurredAt es {host.daysText (-diffMs)} días anterior a receivedAt " ++
      s!"(excede el máximo de {maxOccurredAtPastDays} días)")
  else none

/-- Whether the rows sold are the lines asked for, in any order. -/
def sameItems (host : Host) (existingItems : List SaleItem) (dtoItems : List CreateSaleItemDto) :
    Bool :=
  existingItems.length = dtoItems.length ∧
    (((existingItems.insertionSort fun a b =>
        host.localeCompare a.productId.text b.productId.text ≠ .gt).zip
      (dtoItems.insertionSort fun a b => host.localeCompare a.productId b.productId ≠ .gt)).all
        fun x => x.1.productId.text = x.2.productId ∧ x.1.quantity = x.2.quantity.val) = true

/-- The normalized content of a request: the items in a fixed order, no client price,
cash only where it applies, and only a method other than cash. -/
def content (host : Host) (dto : CreateSaleDto) (occurredAt : Instant) : Json :=
  let cash := isCashPayment dto.paymentMethod
  let items := dto.items.insertionSort fun a b =>
    (host.localeCompare a.productId b.productId).then (compare a.quantity.val b.quantity.val) ≠ .gt
  .obj ([("memberId", .str dto.memberId), ("deviceId", .str dto.deviceId),
      ("currency", .str dto.currency)] ++
    (if cash then (dto.cashReceivedMinor.map fun v => ("cashReceivedMinor", Json.num v)).toList
      else []) ++
    [("occurredAt", .iso occurredAt),
      ("items", .arr (items.map fun item =>
        .obj [("productId", .str item.productId), ("quantity", .num item.quantity.val)]))] ++
    (if cash then []
      else [("paymentMethod", .str (resolvePaymentMethod dto.paymentMethod).text)]))

def requestFingerprint (host : Host) (dto : CreateSaleDto) (occurredAt : Instant) : String :=
  host.sha256 (content host dto occurredAt)

/-- What `toISOString` throws for an invalid date. -/
def invalidTime : Err := .rangeError "Invalid time value"

/-- The columns compared before the fingerprint. -/
def sameHeader (existing : Sale) (dto : CreateSaleDto) : Bool :=
  existing.memberId.text = dto.memberId ∧ existing.deviceId.text = dto.deviceId ∧
    existing.currency = dto.currency ∧
    existing.paymentMethod = resolvePaymentMethod dto.paymentMethod ∧
    existing.cashReceivedMinor = dto.cashReceivedMinor ∧
    some existing.occurredAt = dto.occurredAt

/-- Whether a request with a known id is a resend of that sale. A row without a
fingerprint is older than the column: a rejected one never matches. -/
def isIdempotentReplay (host : Host) (existing : Sale) (dto : CreateSaleDto) : Bool :=
  sameHeader existing dto &&
    match existing.requestFingerprint.filter (· ≠ "") with
    | some fingerprint => requestFingerprint host dto existing.occurredAt = fingerprint
    | none =>
      existing.status ≠ .rechazadaPorConflicto && sameItems host existing.items dto.items

/-! The transaction. -/

/-- `SalesService.authorize`. -/
def authorize (actor : Actor) : Tx shop (Uuid × Uuid) := authorizeAs none actor

/-- One line priced and taken from stock. -/
structure Line where
  productId : Uuid
  quantity : Int
  unitPriceMinor : Int
  subtotalMinor : Int
  unitCostMinor : Option Int
  deriving DecidableEq

/-- `toMinorUnits(multiply(toDinero(price), quantity))`. -/
def lineSubtotal (unitPriceMinor quantity : Int) : Except Err Int := do
  toMinorUnits ((← toDinero unitPriceMinor) * quantity)

def notInContext (productId : String) : Err :=
  .badRequest s!"Product {productId} does not exist in this context"

def deactivated (productId : String) : Err :=
  .badRequest s!"Product {productId} is deactivated and cannot be sold"

def insufficientStock (productId : String) : Err :=
  .badRequest s!"Insufficient stock for product {productId}"

/-- The message of the lost race, which the rejected sale keeps as its reason. -/
def lostRace (productId : String) (quantity stock : Int) : String :=
  s!"stock insuficiente al sincronizar: producto {productId}, " ++
    s!"solicitado {quantity}, disponible {stock}"

/-- One item: an unlocked look, the row lock, a second look, the decrement. -/
def sellItem (actor : Actor) (item : CreateSaleItemDto) (total : Int) : Tx shop (Line × Int) := do
  let contextId := actor.account.contextId
  let before ← Tx.orThrow (← findProduct (uuid item.productId) contextId)
    (notInContext item.productId)
  Tx.require (before.active = true) (deactivated item.productId)
  Tx.require (item.quantity.val ≤ before.stock) (insufficientStock item.productId)
  lockProduct (uuid item.productId) contextId
  let product ← Tx.orThrow (← findProduct (uuid item.productId) contextId)
    (notInContext item.productId)
  Tx.require (product.active = true) (deactivated item.productId)
  Tx.require (item.quantity.val ≤ product.stock)
    (Err.saleStockConflict (lostRace item.productId item.quantity.val product.stock))
  let _ ← orNotFound (updateProduct { id := product.id, contextId := contextId }
    { stock := some (.set (product.stock - item.quantity.val)) })
  let subtotalMinor ← Tx.ofExcept (lineSubtotal product.unitPriceMinor item.quantity.val)
  let subtotal ← Tx.ofExcept (toDinero subtotalMinor)
  return (⟨product.id, item.quantity.val, product.unitPriceMinor, subtotalMinor,
    product.purchaseCostMinor⟩, total + subtotal)

/-- The items in cart order, so that a repeated product sees its own decrement. -/
def sellItems (actor : Actor) : List CreateSaleItemDto → List Line → Int → Tx shop (List Line × Int)
  | [], lines, total => return (lines, total)
  | item :: items, lines, total => do
    let (line, total) ← sellItem actor item total
    sellItems actor items (lines ++ [line]) total

/-- Cash received and change; both stay empty when no cash is involved. -/
def charge (dto : CreateSaleDto) (totalMinor : Int) : Except Err (Option Int × Option Int) :=
  if isCashPayment dto.paymentMethod then
    match dto.cashReceivedMinor with
    | none => .error (.badRequest "Cash received is required for an EFECTIVO sale")
    | some cash =>
      if cash < totalMinor then
        .error (.badRequest "Cash received is insufficient for the calculated total")
      else do
        let change ← toMinorUnits ((← toDinero cash) - (← toDinero totalMinor))
        return (some cash, some change)
  else .ok (none, none)

/-- The row of a sale that went through. -/
def completed (host : Host) (env : Env) (actor : Actor) (dto : CreateSaleDto)
    (memberId deviceId : Uuid) (occurredAt : Instant) (lines : List Line) (totalMinor : Int)
    (cash change : Option Int) : Sale :=
  let id := uuid dto.id
  let contextId := actor.account.contextId
  { id, memberId, deviceId, contextId, occurredAt, totalMinor
    receivedAt := env.now 0
    currency := dto.currency
    status := .completada
    paymentMethod := resolvePaymentMethod dto.paymentMethod
    cashReceivedMinor := cash
    requestFingerprint := some (requestFingerprint host dto occurredAt)
    changeMinor := change
    conflictReason := none
    conflictDetectedAt := none
    items := lines.zipIdx.map fun (line, n) =>
      { id := env.serverId n, saleId := id, productId := line.productId, contextId
        quantity := line.quantity, unitPriceMinor := line.unitPriceMinor
        subtotalMinor := line.subtotalMinor, unitCostMinor := line.unitCostMinor
        createdAt := env.now 1 }
    incidencias := (occurredAtIssue host occurredAt (env.now 0)).toList.map fun reason =>
      { id := env.serverId lines.length, saleId := id, contextId, type := .incidenciaFecha
        reason, detectedAt := env.now 1 } }

/-- `sale.create` with its nested rows, which answers the row. -/
def createSale (sale : Sale) : Tx shop Sale := do
  create (.sale sale)
  return sale

def createInTx (host : Host) (env : Env) (actor : Actor) (dto : CreateSaleDto) : Tx shop Sale := do
  let (memberId, deviceId) ← authorize actor
  let (lines, total) ← sellItems actor dto.items [] 0
  let totalMinor ← Tx.ofExcept (toMinorUnits total)
  let (cash, change) ← Tx.ofExcept (charge dto totalMinor)
  let occurredAt ← Tx.orThrow dto.occurredAt invalidTime
  let sale := completed host env actor dto memberId deviceId occurredAt lines totalMinor cash change
  createSale sale

/-! The request. -/

structure SaleAnswer where
  sale : SaleResponse
  created : Bool
  deriving DecidableEq, Repr

/-- `prisma.sale.findUnique` outside a transaction. -/
def findUnique (actor : Actor) (dto : CreateSaleDto) : Call shop (Option Sale) :=
  Call.transaction .readCommitted (findSale (uuid dto.id) actor.account.contextId)

def differentData (dto : CreateSaleDto) : Err :=
  .conflict s!"Sale {dto.id} already exists with different data"

/-- Answers with the persisted sale when the request is a resend of it. -/
def replayOr (host : Host) (actor : Actor) (dto : CreateSaleDto) (absent : Call shop SaleAnswer) :
    Call shop SaleAnswer := do
  match ← findUnique actor dto with
  | some persisted =>
    if isIdempotentReplay host persisted dto then return ⟨response persisted, false⟩
    else Call.throw (differentData dto)
  | none => absent

/-- The row of a sale that lost a race for stock. -/
def rejection (host : Host) (env : Env) (actor : Actor) (dto : CreateSaleDto)
    (occurredAt : Instant) (reason : String) : Sale :=
  let id := uuid dto.id
  let contextId := actor.account.contextId
  { id, contextId, occurredAt
    memberId := uuid dto.memberId
    deviceId := uuid dto.deviceId
    receivedAt := env.now 3
    currency := dto.currency
    status := .rechazadaPorConflicto
    totalMinor := none
    paymentMethod := resolvePaymentMethod dto.paymentMethod
    cashReceivedMinor := dto.cashReceivedMinor
    requestFingerprint := some (requestFingerprint host dto occurredAt)
    changeMinor := none
    conflictReason := some reason
    conflictDetectedAt := some (env.now 2)
    items := []
    incidencias := [{ id := env.serverId 0, saleId := id, contextId, type := .conflictoStock
                      reason, detectedAt := env.now 3 }] }

/-- Records the rejection in a transaction of its own; another request may have
taken the id meanwhile. -/
def persistRejection (host : Host) (env : Env) (actor : Actor) (dto : CreateSaleDto)
    (reason : String) : Call shop SaleAnswer := do
  match dto.occurredAt with
  | none => Call.throw invalidTime
  | some occurredAt =>
    match ← Call.settle .readCommitted
        (createSale (rejection host env actor dto occurredAt reason)) with
    | .ok sale => return ⟨response sale, true⟩
    | .error error =>
      if isSaleIdConflict error then replayOr host actor dto (Call.throw (differentData dto))
      else Call.throw error

/-- After the transaction failed and nothing of it survived. -/
def recover (host : Host) (env : Env) (actor : Actor) (dto : CreateSaleDto) (err : Err) :
    Call shop SaleAnswer :=
  match err with
  | .uniqueViolation .sale => replayOr host actor dto (Call.throw (differentData dto))
  | .badRequest message => replayOr host actor dto (Call.throw (Err.badRequest message))
  | .saleStockConflict reason =>
    replayOr host actor dto (persistRejection host env actor dto reason)
  | err => Call.throw err

def notSelected : Err := .forbidden "Sale attribution must match the authenticated selection"

/-- `SalesService.create`. -/
def create (host : Host) (env : Env) (actor : Actor) (dto : CreateSaleDto) :
    Call shop SaleAnswer := do
  match actor.selection with
  | none => Call.throw notSelected
  | some selection =>
    Call.require (dto.memberId = selection.memberId ∧ dto.deviceId = selection.deviceId) notSelected
    replayOr host actor dto do
      match ← Call.settle .readCommitted (createInTx host env actor dto) with
      | .ok sale => return ⟨response sale, true⟩
      | .error err => recover host env actor dto err

end Bazar.Shop.Sales
