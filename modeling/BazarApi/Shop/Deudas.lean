import BazarApi.Shop.Database

/- `DeudasService` (`deudas/deudas.service.ts`): a debt for one product with its
   optional first payment and schedule, later payments, and the schedule's own
   edits.

   A debt with a client id freezes its first answer in `creationResponse`; a
   resend answers that receipt again, whatever happened to the debt since.

   Correspondence (TypeScript ↔ Lean):
     `requestFingerprint`, `assertWithinBalance`   ↔ the same names
     the `replay` and `create` closures            ↔ `replay`, `createInTx`
     `registerAbono`, `addCuota`, `updateCuota`,
     `deleteCuota`                                 ↔ the same names -/
namespace Bazar.Shop.Deudas

open Txn

/-- The public part of a debt with its payments and schedule. -/
def response (full : DeudaWithPlan) : DeudaResponse :=
  { toDeudaHeader := full.deuda.toDeudaHeader
    abonos := full.abonos
    cuotasPlaneadas := full.cuotasPlaneadas }

/-- What identifies a creation request: who acts, and everything it would store. -/
def content (actor : Actor) (dto : CreateDeudaDto) : Json :=
  .obj ([("contextId", .str actor.account.contextId), ("accountId", .str actor.account.id),
      ("memberId", .opt (fun s => .str s.memberId) actor.selection),
      ("deviceId", .opt (fun s => .str s.deviceId) actor.selection),
      ("type", .str dto.type.text), ("productId", .str (uuid dto.productId).text),
      ("cantidad", .num dto.cantidad.val),
      ("deudorId", .opt (fun id => .str (uuid id).text) dto.deudorId),
      ("deudor", .opt (fun d => .obj [("nombre", .str d.nombre),
        ("telefono", .opt .str d.telefono), ("notas", .opt .str d.notas)]) dto.deudor),
      ("abonoInicialMinor", .num dto.abonoInicialMinor.val),
      ("cuotasPlaneadas", .arr (dto.cuotasPlaneadas.map fun cuota =>
        .obj [("fechaEsperada", .str cuota.fechaEsperada),
          ("montoEsperadoMinor", .num cuota.montoEsperadoMinor.val)]))] ++
    (if isCashPayment dto.abonoInicialPaymentMethod then []
      else [("abonoInicialPaymentMethod",
        .str (resolvePaymentMethod dto.abonoInicialPaymentMethod).text)]))

def requestFingerprint (host : Host) (actor : Actor) (dto : CreateDeudaDto) : String :=
  host.sha256 (content actor dto)

def isDebtIdConflict : Err → Bool
  | .uniqueViolation .deuda => true
  | _ => false

def isBadRequest : Err → Bool
  | .badRequest _ => true
  | _ => false

/-- `DeudasService.authorize`. -/
def authorize (actor : Actor) (requireSocio : Bool) : Tx shop (Uuid × Uuid) :=
  authorizeAs (if requireSocio then some .socio else none) actor

/-- The one guard of every payment; answers the balance before it. -/
def assertWithinBalance (paidMinor totalMinor montoMinor : Int) : Except Err Int := do
  let remainingMinor ← toMinorUnits ((← toDinero totalMinor) - (← toDinero paidMinor))
  if montoMinor > remainingMinor then
    .error (.badRequest
      s!"Abono of {montoMinor} exceeds the remaining balance of {remainingMinor}")
  else .ok remainingMinor

/-! Creation. -/

/-- An existing debtor by id, or a new one; anything else is no valid request. -/
def debtorOf (dto : CreateDeudaDto) : Option (String ⊕ DeudorInputDto) :=
  match dto.deudorId, dto.deudor with
  | some id, none => some (.inl id)
  | none, some deudor => some (.inr deudor)
  | _, _ => none

def differentData (id : String) : Err :=
  .conflict s!"Deuda {id} already exists with different data"

/-- The receipt of an earlier creation with this client id. -/
def replay (host : Host) (actor : Actor) (dto : CreateDeudaDto) : Tx shop (Option DeudaResponse) :=
  match dto.id with
  | none => return none
  | some id => do
    match ← findDeuda (uuid id) actor.account.contextId with
    | none => return none
    | some existing =>
      if existing.requestFingerprint = some (requestFingerprint host actor dto) then do
        let receipt ← Tx.orThrow existing.creationResponse (differentData id)
        return some receipt
      else Tx.throw (differentData id)

def newDeudor (env : Env) (actor : Actor) (input : DeudorInputDto) : Deudor :=
  { id := env.serverId 0
    nombre := input.nombre
    telefono := input.telefono
    notas := input.notas
    contextId := actor.account.contextId
    createdAt := env.now 1 }

def resolveDeudor (env : Env) (actor : Actor) : String ⊕ DeudorInputDto → Tx shop Uuid
  | .inl deudorId => do
    let deudor ← Tx.orThrow (← findDeudor (uuid deudorId) actor.account.contextId)
      (Err.badRequest s!"Deudor {deudorId} does not exist in this context")
    return deudor.id
  | .inr input => do
    let deudor := newDeudor env actor input
    create (.deudor deudor)
    return deudor.id

/-- What follows the lock of the product: one read, the checks, the decrement. -/
def takeLocked (actor : Actor) (dto : CreateDeudaDto) : Tx shop Product := do
  let contextId := actor.account.contextId
  let product ← Tx.orThrow (← findProduct (uuid dto.productId) contextId)
    (Err.badRequest s!"Product {dto.productId} does not exist in this context")
  Tx.require (product.active = true)
    (Err.badRequest s!"Product {dto.productId} is deactivated and cannot be used for a new deuda")
  Tx.require (dto.cantidad.val ≤ product.stock)
    (Err.badRequest s!"Insufficient stock for product {dto.productId}")
  let _ ← orNotFound (updateProduct { id := product.id, contextId := contextId }
    { stock := some (.set (product.stock - dto.cantidad.val)) })
  return product

/-- The lock comes first here: the product is read once, under it. -/
def takeProduct (actor : Actor) (dto : CreateDeudaDto) : Tx shop Product := do
  lockProduct (uuid dto.productId) actor.account.contextId
  takeLocked actor dto

/-- `toMinorUnits(multiply(toDinero(price), cantidad))`. -/
def total (product : Product) (dto : CreateDeudaDto) : Except Err Int := do
  toMinorUnits ((← toDinero product.unitPriceMinor) * dto.cantidad.val)

/-- The first payment is checked before the debt is written. -/
def checkInitial (dto : CreateDeudaDto) (totalMinor : Int) : Except Err Unit :=
  if 0 < dto.abonoInicialMinor.val then do
    let _ ← assertWithinBalance 0 totalMinor dto.abonoInicialMinor.val
  else .ok ()

def deudaId (env : Env) (dto : CreateDeudaDto) : Uuid :=
  match dto.id with
  | some id => uuid id
  | none => env.serverId 1

/-- The debt as it is first written; `settled` when the first payment covers it. -/
def newDeuda (host : Host) (env : Env) (actor : Actor) (dto : CreateDeudaDto)
    (memberId deudorId : Uuid) (product : Product) (totalMinor : Int) : Deuda :=
  let settled : Prop := 0 < dto.abonoInicialMinor.val ∧ totalMinor ≤ dto.abonoInicialMinor.val
  { id := deudaId env dto
    type := dto.type
    deudorId, totalMinor
    productId := product.id
    contextId := actor.account.contextId
    cantidad := dto.cantidad.val
    status := if settled then .saldada else .pendiente
    unitCostMinor := product.purchaseCostMinor
    saldadaAt := if settled then some (env.now 0) else none
    createdByMemberId := memberId
    createdAt := env.now 1
    requestFingerprint := dto.id.map fun _ => requestFingerprint host actor dto
    creationResponse := none }

def initialAbono (env : Env) (dto : CreateDeudaDto) (memberId : Uuid) (deuda : Deuda) : Abono :=
  { id := env.serverId 2
    deudaId := deuda.id
    contextId := deuda.contextId
    montoMinor := dto.abonoInicialMinor.val
    receivedByMemberId := memberId
    receivedAt := env.now 0
    nota := none
    paymentMethod := resolvePaymentMethod dto.abonoInicialPaymentMethod }

def plannedCuotas (env : Env) (dto : CreateDeudaDto) (deuda : Deuda) : List CuotaPlaneada :=
  dto.cuotasPlaneadas.zipIdx.map fun (cuota, n) =>
    { id := env.serverId (3 + n)
      deudaId := deuda.id
      contextId := deuda.contextId
      fechaEsperada := cuota.fechaEsperada
      montoEsperadoMinor := cuota.montoEsperadoMinor.val
      createdAt := env.now 1 }

/-- Freezes the answer of a debt with a client id. -/
def freeze (dto : CreateDeudaDto) (deuda : Deuda) : Tx shop DeudaResponse := do
  let full ← orNotFound (findDeudaWithPlan deuda.id deuda.contextId)
  match dto.id with
  | none => return response full
  | some _ => do
    let _ ← orNotFound
      (updateDeuda deuda.id deuda.contextId { creationResponse := some (response full) })
    return response full

/-- The first payment, if there is one. -/
def writeAbono (env : Env) (dto : CreateDeudaDto) (memberId : Uuid) (deuda : Deuda) : Tx shop Unit :=
  if 0 < dto.abonoInicialMinor.val then create (.abono (initialAbono env dto memberId deuda))
  else return ()

/-- The schedule, if there is one. -/
def writeCuotas (env : Env) (dto : CreateDeudaDto) (deuda : Deuda) : Tx shop Unit :=
  if dto.cuotasPlaneadas ≠ [] then createMany ((plannedCuotas env dto deuda).map .cuotaPlaneada)
  else return ()

/-- The debt with its first payment and its schedule. -/
def writeDeuda (env : Env) (dto : CreateDeudaDto) (memberId : Uuid) (deuda : Deuda) :
    Tx shop DeudaResponse := do
  create (.deuda deuda)
  writeAbono env dto memberId deuda
  writeCuotas env dto deuda
  freeze dto deuda

def createInTx (host : Host) (env : Env) (actor : Actor) (dto : CreateDeudaDto)
    (debtor : String ⊕ DeudorInputDto) : Tx shop DeudaResponse := do
  let (memberId, _) ← authorize actor true
  match ← replay host actor dto with
  | some receipt => return receipt
  | none => do
    let deudorId ← resolveDeudor env actor debtor
    let product ← takeProduct actor dto
    let totalMinor ← Tx.ofExcept (total product dto)
    Tx.ofExcept (checkInitial dto totalMinor)
    writeDeuda env dto memberId (newDeuda host env actor dto memberId deudorId product totalMinor)

/-- The second look after a lost race: the winner's receipt, if there is one. -/
def replayAuthorized (host : Host) (actor : Actor) (dto : CreateDeudaDto) :
    Tx shop (Option DeudaResponse) := do
  let _ ← authorize actor true
  replay host actor dto

/-- The `catch` block: a lost race, or a shortage that the winner of one caused, looks
for the winner's receipt. -/
def recover (host : Host) (actor : Actor) (dto : CreateDeudaDto) (error : Err) :
    Call shop DeudaResponse :=
  if dto.id.isNone ∨ ¬(isBadRequest error ∨ isDebtIdConflict error) then Call.throw error
  else do
    match ← Call.transaction .readCommitted (replayAuthorized host actor dto) with
    | some winner => return winner
    | none =>
      if isDebtIdConflict error then Call.throw (Err.conflict "Debt creation ID is unavailable")
      else Call.throw error

/-- `DeudasService.create`. -/
def create (host : Host) (env : Env) (actor : Actor) (dto : CreateDeudaDto) :
    Call shop DeudaResponse := do
  match debtorOf dto with
  | none => Call.throw (Err.badRequest "Exactly one of deudorId or deudor must be provided")
  | some debtor =>
    match ← Call.settle .readCommitted (createInTx host env actor dto debtor) with
    | .ok receipt => return receipt
    | .error error => recover host actor dto error

/-! Payments. -/

/-- A debt as `registerAbono` answers it. -/
structure DeudaDetail extends DeudaResponse where
  deudor : Option Deudor
  deriving DecidableEq, Repr

def detail (full : DeudaWithPlan) : DeudaDetail :=
  { toDeudaResponse := response full, deudor := full.deudor }

def newAbono (env : Env) (actor : Actor) (deudaId memberId : Uuid) (dto : CreateAbonoDto) : Abono :=
  { id := env.serverId 0
    deudaId
    contextId := actor.account.contextId
    montoMinor := dto.montoMinor.val
    receivedByMemberId := memberId
    receivedAt := env.now 0
    nota := dto.nota
    paymentMethod := resolvePaymentMethod dto.paymentMethod }

/-- The debt is settled when nothing is left to pay. -/
def settle (env : Env) (actor : Actor) (deudaId : Uuid) (totalMinor newPaidMinor : Int) :
    Tx shop Unit :=
  if newPaidMinor ≥ totalMinor then do
    let _ ← orNotFound (updateDeuda deudaId actor.account.contextId
      { status := some .saldada, saldadaAt := some (env.now 1) })
  else return ()

/-- What follows the lock of the debt: the payments are summed under it. -/
def payLocked (env : Env) (actor : Actor) (deudaId memberId : Uuid) (existing : Deuda)
    (dto : CreateAbonoDto) : Tx shop DeudaDetail := do
  let contextId := actor.account.contextId
  let paidMinor ← sumAbonos deudaId contextId
  let _ ← Tx.ofExcept (assertWithinBalance paidMinor existing.totalMinor dto.montoMinor.val)
  Shop.create (.abono (newAbono env actor deudaId memberId dto))
  let newPaidMinor ← Tx.ofExcept do
    toMinorUnits ((← toDinero paidMinor) + (← toDinero dto.montoMinor.val))
  settle env actor deudaId existing.totalMinor newPaidMinor
  let full ← orNotFound (findDeudaWithPlan deudaId contextId)
  return detail full

/-- The debt is read before its row is locked, the payments after. -/
def registerAbonoInTx (env : Env) (actor : Actor) (deudaId : Uuid) (dto : CreateAbonoDto) :
    Tx shop DeudaDetail := do
  let contextId := actor.account.contextId
  let (memberId, _) ← authorize actor false
  let existing ← Tx.orThrow (← findDeudaOfMember deudaId contextId) (Err.notFound "Not Found")
  lockDeuda deudaId contextId
  payLocked env actor deudaId memberId existing dto

def registerAbono (env : Env) (actor : Actor) (deudaId : String) (dto : CreateAbonoDto) :
    Call shop DeudaDetail :=
  Call.transaction .readCommitted (registerAbonoInTx env actor (uuid deudaId) dto)

/-! Schedule. -/

def addCuotaInTx (env : Env) (actor : Actor) (deudaId : Uuid) (dto : CuotaPlaneadaInputDto) :
    Tx shop CuotaPlaneada := do
  let contextId := actor.account.contextId
  let _ ← authorize actor true
  let _ ← Tx.orThrow (← findDeudaOfMember deudaId contextId) (Err.notFound "Not Found")
  let created : CuotaPlaneada :=
    { id := env.serverId 0, deudaId, contextId, fechaEsperada := dto.fechaEsperada
      montoEsperadoMinor := dto.montoEsperadoMinor.val, createdAt := env.now 0 }
  Shop.create (.cuotaPlaneada created)
  return created

def addCuota (env : Env) (actor : Actor) (deudaId : String) (dto : CuotaPlaneadaInputDto) :
    Call shop CuotaPlaneada :=
  Call.transaction .readCommitted (addCuotaInTx env actor (uuid deudaId) dto)

def updateCuotaInTx (actor : Actor) (deudaId cuotaId : Uuid) (dto : UpdateCuotaDto) :
    Tx shop CuotaPlaneada := do
  let contextId := actor.account.contextId
  let _ ← authorize actor true
  let _ ← Tx.orThrow (← findCuota cuotaId deudaId contextId) (Err.notFound "Not Found")
  orNotFound (Shop.updateCuota cuotaId contextId
    { fechaEsperada := dto.fechaEsperada, montoEsperadoMinor := dto.montoEsperadoMinor.map (·.val) })

def updateCuota (actor : Actor) (deudaId cuotaId : String) (dto : UpdateCuotaDto) :
    Call shop CuotaPlaneada :=
  Call.transaction .readCommitted (updateCuotaInTx actor (uuid deudaId) (uuid cuotaId) dto)

def deleteCuotaInTx (actor : Actor) (deudaId cuotaId : Uuid) : Tx shop CuotaPlaneada := do
  let contextId := actor.account.contextId
  let _ ← authorize actor true
  let _ ← Tx.orThrow (← findCuota cuotaId deudaId contextId) (Err.notFound "Not Found")
  orNotFound (Shop.deleteCuota cuotaId contextId)

def deleteCuota (actor : Actor) (deudaId cuotaId : String) : Call shop CuotaPlaneada :=
  Call.transaction .readCommitted (deleteCuotaInTx actor (uuid deudaId) (uuid cuotaId))

end Bazar.Shop.Deudas
