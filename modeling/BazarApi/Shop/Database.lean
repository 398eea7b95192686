import BazarApi.Shop.Model

/- The shop's database as the services use it: tables, row versions written, and
   the statements that Prisma sends. Every statement runs for one tenant, so its
   reads filter by `contextId` (`tenant.extension.ts` adds the filter, the raw
   `SELECT ... FOR UPDATE` has it by hand). A primary key is checked against every
   tenant.

   `FOR UPDATE` takes the strongest lock on the row it finds, if it finds one; an
   insert holds its key, an update its row. -/
namespace Bazar.Shop

open Txn

structure Db where
  accounts : Table Account
  members : Table Member
  devices : Table Device
  products : Table Product
  productAudits : Table ProductAudit
  stockMovements : Table StockMovement
  sales : Table Sale
  deudores : Table Deudor
  deudas : Table Deuda
  abonos : Table Abono
  cuotasPlaneadas : Table CuotaPlaneada

/-! Rows created. -/

inductive Row where
  | product (r : Product)
  | productAudit (r : ProductAudit)
  | stockMovement (r : StockMovement)
  | sale (r : Sale)
  | deudor (r : Deudor)
  | deuda (r : Deuda)
  | abono (r : Abono)
  | cuotaPlaneada (r : CuotaPlaneada)
  deriving DecidableEq

abbrev Key := TableName × Uuid

def Row.key : Row → Key
  | .product r => (.product, r.id)
  | .productAudit r => (.productAudit, r.id)
  | .stockMovement r => (.stockMovement, r.id)
  | .sale r => (.sale, r.id)
  | .deudor r => (.deudor, r.id)
  | .deuda r => (.deuda, r.id)
  | .abono r => (.abono, r.id)
  | .cuotaPlaneada r => (.cuotaPlaneada, r.id)

/-- Whether the primary key is taken. -/
def Db.has (d : Db) : Key → Bool
  | (.account, id) => (d.accounts.find? id).isSome
  | (.member, id) => (d.members.find? id).isSome
  | (.device, id) => (d.devices.find? id).isSome
  | (.product, id) => (d.products.find? id).isSome
  | (.productAudit, id) => (d.productAudits.find? id).isSome
  | (.stockMovement, id) => (d.stockMovements.find? id).isSome
  | (.sale, id) => (d.sales.find? id).isSome
  | (.deudor, id) => (d.deudores.find? id).isSome
  | (.deuda, id) => (d.deudas.find? id).isSome
  | (.abono, id) => (d.abonos.find? id).isSome
  | (.cuotaPlaneada, id) => (d.cuotasPlaneadas.find? id).isSome

def Db.insert (d : Db) : Row → Db
  | .product r => { d with products := d.products.put r }
  | .productAudit r => { d with productAudits := d.productAudits.put r }
  | .stockMovement r => { d with stockMovements := d.stockMovements.put r }
  | .sale r => { d with sales := d.sales.put r }
  | .deudor r => { d with deudores := d.deudores.put r }
  | .deuda r => { d with deudas := d.deudas.put r }
  | .abono r => { d with abonos := d.abonos.put r }
  | .cuotaPlaneada r => { d with cuotasPlaneadas := d.cuotasPlaneadas.put r }

/-! Rows updated: `none` leaves a column alone. -/

inductive IntUpdate where
  | set (n : Int)
  | increment (n : Int)
  deriving DecidableEq

def IntUpdate.apply : IntUpdate → Int → Int
  | .set n, _ => n
  | .increment n, m => m + n

structure ProductUpdate where
  name : Option String := none
  unitPriceMinor : Option Int := none
  category : Option (Option String) := none
  purchaseCostMinor : Option (Option Int) := none
  supplier : Option (Option String) := none
  notes : Option (Option String) := none
  brand : Option (Option String) := none
  presentation : Option (Option String) := none
  description : Option (Option String) := none
  imagePath : Option (Option String) := none
  stock : Option IntUpdate := none
  active : Option Bool := none
  deriving DecidableEq

def ProductUpdate.apply (u : ProductUpdate) (p : Product) : Product :=
  { p with
    name := u.name.getD p.name
    unitPriceMinor := u.unitPriceMinor.getD p.unitPriceMinor
    category := u.category.getD p.category
    purchaseCostMinor := u.purchaseCostMinor.getD p.purchaseCostMinor
    supplier := u.supplier.getD p.supplier
    notes := u.notes.getD p.notes
    brand := u.brand.getD p.brand
    presentation := u.presentation.getD p.presentation
    description := u.description.getD p.description
    imagePath := u.imagePath.getD p.imagePath
    stock := (u.stock.map fun s => s.apply p.stock).getD p.stock
    active := u.active.getD p.active }

/-- A `where` on products; `none` is a condition not given. -/
structure ProductWhere where
  id : Uuid
  contextId : String
  tipo : Option ProductType := none
  active : Option Bool := none
  stockLte : Option Int := none
  deriving DecidableEq

def ProductWhere.holds (w : ProductWhere) (p : Product) : Bool :=
  p.contextId = w.contextId ∧ (∀ t ∈ w.tipo, p.tipo = t) ∧ (∀ a ∈ w.active, p.active = a) ∧
    ∀ n ∈ w.stockLte, p.stock ≤ n

structure DeudaUpdate where
  status : Option DeudaStatus := none
  saldadaAt : Option Instant := none
  creationResponse : Option DeudaResponse := none
  deriving DecidableEq

def DeudaUpdate.apply (u : DeudaUpdate) (d : Deuda) : Deuda :=
  { d with
    status := u.status.getD d.status
    saldadaAt := u.saldadaAt.or d.saldadaAt
    creationResponse := u.creationResponse.or d.creationResponse }

structure CuotaUpdate where
  fechaEsperada : Option Day := none
  montoEsperadoMinor : Option Int := none
  deriving DecidableEq

def CuotaUpdate.apply (u : CuotaUpdate) (c : CuotaPlaneada) : CuotaPlaneada :=
  { c with
    fechaEsperada := u.fechaEsperada.getD c.fechaEsperada
    montoEsperadoMinor := u.montoEsperadoMinor.getD c.montoEsperadoMinor }

/-! Row versions written. -/

inductive Write where
  | insert (row : Row)
  | updateProduct (id : Uuid) (data : ProductUpdate)
  | updateDeuda (id : Uuid) (data : DeudaUpdate)
  | updateCuota (id : Uuid) (data : CuotaUpdate)
  | deleteCuota (id : Uuid)
  deriving DecidableEq

def Write.apply (d : Db) : Write → Db
  | .insert row => d.insert row
  | .updateProduct id data => { d with products := d.products.modify id data.apply }
  | .updateDeuda id data => { d with deudas := d.deudas.modify id data.apply }
  | .updateCuota id data => { d with cuotasPlaneadas := d.cuotasPlaneadas.modify id data.apply }
  | .deleteCuota id => { d with cuotasPlaneadas := d.cuotasPlaneadas.erase id }

def Write.key : Write → Key
  | .insert row => row.key
  | .updateProduct id _ => (.product, id)
  | .updateDeuda id _ => (.deuda, id)
  | .updateCuota id _ => (.cuotaPlaneada, id)
  | .deleteCuota id => (.cuotaPlaneada, id)

def Write.mode : Write → LockMode
  | .insert _ => .update
  | .deleteCuota _ => .update
  | _ => .noKeyUpdate

/-! What the statements read. -/

namespace Db
variable (d : Db)

def findAccount (id : Uuid) (contextId : String) : Option Account :=
  (d.accounts.find? id).filter fun a => a.contextId = contextId ∧ a.active

def findMember (id : Uuid) (contextId : String) (role : Option MemberRole) : Option Member :=
  (d.members.find? id).filter fun m =>
    m.contextId = contextId ∧ m.active ∧ ∀ r ∈ role, m.role = r

def findDevice (id : Uuid) (contextId : String) : Option Device :=
  (d.devices.find? id).filter fun v => v.contextId = contextId ∧ v.authorized

def findSale (id : Uuid) (contextId : String) : Option Sale :=
  (d.sales.find? id).filter fun s => s.contextId = contextId

def findProduct (id : Uuid) (contextId : String) : Option Product :=
  (d.products.find? id).filter fun p => p.contextId = contextId

def findDeudor (id : Uuid) (contextId : String) : Option Deudor :=
  (d.deudores.find? id).filter fun x => x.contextId = contextId

def findDeuda (id : Uuid) (contextId : String) : Option Deuda :=
  (d.deudas.find? id).filter fun x => x.contextId = contextId

/-- The filter `createdByMember: { contextId }` beside the tenant's own. -/
def findDeudaOfMember (id : Uuid) (contextId : String) : Option Deuda :=
  (d.findDeuda id contextId).filter fun x =>
    (d.members.find? x.createdByMemberId).any fun m => m.contextId = contextId

def findCuota (id deudaId : Uuid) (contextId : String) : Option CuotaPlaneada :=
  (d.cuotasPlaneadas.find? id).filter fun c => c.deudaId = deudaId ∧ c.contextId = contextId

def abonosOf (deudaId : Uuid) : List Abono := d.abonos.rows.filter fun a => a.deudaId = deudaId

def cuotasOf (deudaId : Uuid) : List CuotaPlaneada :=
  d.cuotasPlaneadas.rows.filter fun c => c.deudaId = deudaId

/-- `aggregate({ _sum: { montoMinor } })`, with nothing to sum as 0. -/
def sumAbonos (deudaId : Uuid) (contextId : String) : Int :=
  d.abonos.total fun a => if a.deudaId = deudaId ∧ a.contextId = contextId then a.montoMinor else 0

end Db

/-! Statements. -/

inductive Sql where
  | findAccount (id : Uuid) (contextId : String)
  | findMember (id : Uuid) (contextId : String) (role : Option MemberRole)
  | findDevice (id : Uuid) (contextId : String)
  | findSale (id : Uuid) (contextId : String)
  | findProduct (id : Uuid) (contextId : String)
  | findDeudor (id : Uuid) (contextId : String)
  | findDeuda (id : Uuid) (contextId : String)
  | findDeudaOfMember (id : Uuid) (contextId : String)
  | findDeudaWithPlan (id : Uuid) (contextId : String)
  | findCuota (id deudaId : Uuid) (contextId : String)
  | sumAbonos (deudaId : Uuid) (contextId : String)
  | lockProduct (id : Uuid) (contextId : String)
  | lockDeuda (id : Uuid) (contextId : String)
  | create (rows : List Row)
  | updateProduct (condition : ProductWhere) (data : ProductUpdate)
  | updateDeuda (id : Uuid) (contextId : String) (data : DeudaUpdate)
  | updateCuota (id : Uuid) (contextId : String) (data : CuotaUpdate)
  | deleteCuota (id : Uuid) (contextId : String)
  deriving DecidableEq

/-- A debt read with `include: { abonos, cuotasPlaneadas, deudor }`. -/
structure DeudaWithPlan where
  deuda : Deuda
  abonos : List Abono
  cuotasPlaneadas : List CuotaPlaneada
  deudor : Option Deudor
  deriving DecidableEq

def Db.findDeudaWithPlan (d : Db) (id : Uuid) (contextId : String) : Option DeudaWithPlan :=
  (d.findDeuda id contextId).map fun x =>
    ⟨x, d.abonosOf id, d.cuotasOf id, d.deudores.find? x.deudorId⟩

@[reducible] def Sql.Res : Sql → Type
  | .findAccount _ _ => Option Account
  | .findMember _ _ _ => Option Member
  | .findDevice _ _ => Option Device
  | .findSale _ _ => Option Sale
  | .findProduct _ _ => Option Product
  | .findDeudor _ _ => Option Deudor
  | .findDeuda _ _ => Option Deuda
  | .findDeudaOfMember _ _ => Option Deuda
  | .findDeudaWithPlan _ _ => Option DeudaWithPlan
  | .findCuota _ _ _ => Option CuotaPlaneada
  | .sumAbonos _ _ => Int
  | .lockProduct _ _ => Unit
  | .lockDeuda _ _ => Unit
  | .create _ => Unit
  | .updateProduct _ _ => Option Product
  | .updateDeuda _ _ _ => Option Deuda
  | .updateCuota _ _ _ => Option CuotaPlaneada
  | .deleteCuota _ _ => Option CuotaPlaneada

/-- The rows of one `INSERT`, unless a primary key is taken. -/
def createRows : List Row → Db → Except Err (List Write)
  | [], _ => .ok []
  | row :: rows, v =>
    if v.has row.key then .error (.uniqueViolation row.key.1)
    else (createRows rows (v.insert row)).map fun ws => .insert row :: ws

/-- The row found and its new version, or nothing to do. -/
def updated {R : Type} (row : Option R) (change : R → R) (w : Write) : Option R × List Write :=
  match row with
  | some r => (some (change r), [w])
  | none => (none, [])

def Sql.exec : (q : Sql) → Db → Except Err (q.Res × List Write)
  | .findAccount id contextId, v => .ok (v.findAccount id contextId, [])
  | .findMember id contextId role, v => .ok (v.findMember id contextId role, [])
  | .findDevice id contextId, v => .ok (v.findDevice id contextId, [])
  | .findSale id contextId, v => .ok (v.findSale id contextId, [])
  | .findProduct id contextId, v => .ok (v.findProduct id contextId, [])
  | .findDeudor id contextId, v => .ok (v.findDeudor id contextId, [])
  | .findDeuda id contextId, v => .ok (v.findDeuda id contextId, [])
  | .findDeudaOfMember id contextId, v => .ok (v.findDeudaOfMember id contextId, [])
  | .findDeudaWithPlan id contextId, v => .ok (v.findDeudaWithPlan id contextId, [])
  | .findCuota id deudaId contextId, v => .ok (v.findCuota id deudaId contextId, [])
  | .sumAbonos deudaId contextId, v => .ok (v.sumAbonos deudaId contextId, [])
  | .lockProduct _ _, _ => .ok ((), [])
  | .lockDeuda _ _, _ => .ok ((), [])
  | .create rows, v => (createRows rows v).map fun ws => ((), ws)
  | .updateProduct condition data, v =>
    .ok (updated ((v.products.find? condition.id).filter condition.holds) data.apply
      (.updateProduct condition.id data))
  | .updateDeuda id contextId data, v =>
    .ok (updated (v.findDeuda id contextId) data.apply (.updateDeuda id data))
  | .updateCuota id contextId data, v =>
    .ok (updated ((v.cuotasPlaneadas.find? id).filter fun c => c.contextId = contextId) data.apply
      (.updateCuota id data))
  | .deleteCuota id contextId, v =>
    .ok (updated ((v.cuotasPlaneadas.find? id).filter fun c => c.contextId = contextId) (fun c => c)
      (.deleteCuota id))

/-- The rows locked by `FOR UPDATE`. -/
def Sql.locks : Sql → Db → Locks Key
  | .lockProduct id contextId, v =>
    if (v.findProduct id contextId).isSome then [((.product, id), .update)] else []
  | .lockDeuda id contextId, v =>
    if (v.findDeuda id contextId).isSome then [((.deuda, id), .update)] else []
  | _, _ => []

/-- The shop's schema. -/
@[reducible] def shop : Schema where
  Db := Db
  Write := Write
  Key := Key
  Err := Err
  Sql := Sql
  Res := Sql.Res
  keyEq := inferInstance
  apply := Write.apply
  key := Write.key
  mode := Write.mode
  mode_writes := by
    intro w
    cases w <;> rfl
  locks := Sql.locks
  exec := Sql.exec
  stale := fun _ => .database "could not serialize access due to concurrent update"
  spontaneous := Err.spontaneous

/-! The statements as programs. -/

def findAccount (id : Uuid) (contextId : String) : Tx shop (Option Account) :=
  Tx.query (S := shop) (.findAccount id contextId)
def findMember (id : Uuid) (contextId : String) (role : Option MemberRole) :
    Tx shop (Option Member) :=
  Tx.query (S := shop) (.findMember id contextId role)
def findDevice (id : Uuid) (contextId : String) : Tx shop (Option Device) :=
  Tx.query (S := shop) (.findDevice id contextId)
def findSale (id : Uuid) (contextId : String) : Tx shop (Option Sale) :=
  Tx.query (S := shop) (.findSale id contextId)
def findProduct (id : Uuid) (contextId : String) : Tx shop (Option Product) :=
  Tx.query (S := shop) (.findProduct id contextId)
def findDeudor (id : Uuid) (contextId : String) : Tx shop (Option Deudor) :=
  Tx.query (S := shop) (.findDeudor id contextId)
def findDeuda (id : Uuid) (contextId : String) : Tx shop (Option Deuda) :=
  Tx.query (S := shop) (.findDeuda id contextId)
def findDeudaOfMember (id : Uuid) (contextId : String) : Tx shop (Option Deuda) :=
  Tx.query (S := shop) (.findDeudaOfMember id contextId)
def findDeudaWithPlan (id : Uuid) (contextId : String) : Tx shop (Option DeudaWithPlan) :=
  Tx.query (S := shop) (.findDeudaWithPlan id contextId)
def findCuota (id deudaId : Uuid) (contextId : String) : Tx shop (Option CuotaPlaneada) :=
  Tx.query (S := shop) (.findCuota id deudaId contextId)
def sumAbonos (deudaId : Uuid) (contextId : String) : Tx shop Int :=
  Tx.query (S := shop) (.sumAbonos deudaId contextId)
def lockProduct (id : Uuid) (contextId : String) : Tx shop Unit :=
  Tx.query (S := shop) (.lockProduct id contextId)
def lockDeuda (id : Uuid) (contextId : String) : Tx shop Unit :=
  Tx.query (S := shop) (.lockDeuda id contextId)
def create (row : Row) : Tx shop Unit := Tx.query (S := shop) (.create [row])
def createMany (rows : List Row) : Tx shop Unit := Tx.query (S := shop) (.create rows)
def updateProduct (condition : ProductWhere) (data : ProductUpdate) : Tx shop (Option Product) :=
  Tx.query (S := shop) (.updateProduct condition data)
def updateDeuda (id : Uuid) (contextId : String) (data : DeudaUpdate) : Tx shop (Option Deuda) :=
  Tx.query (S := shop) (.updateDeuda id contextId data)
def updateCuota (id : Uuid) (contextId : String) (data : CuotaUpdate) :
    Tx shop (Option CuotaPlaneada) :=
  Tx.query (S := shop) (.updateCuota id contextId data)
def deleteCuota (id : Uuid) (contextId : String) : Tx shop (Option CuotaPlaneada) :=
  Tx.query (S := shop) (.deleteCuota id contextId)

/-- Prisma's `P2025`: an update or delete that matched no row throws. -/
def orNotFound {α : Type} (x : Tx shop (Option α)) : Tx shop α := do
  Tx.orThrow (← x) Err.recordNotFound

/-! Every service reads the actor again inside its transaction. -/

/-- Account, person and device of the actor, read again inside the transaction. -/
def authorizeAs (role : Option MemberRole) (actor : Actor) : Tx shop (Uuid × Uuid) := do
  let selection ← Tx.orThrow actor.selection (Err.forbidden "Forbidden")
  let contextId := actor.account.contextId
  let account ← findAccount (uuid actor.account.id) contextId
  let member ← findMember (uuid selection.memberId) contextId role
  let device ← findDevice (uuid selection.deviceId) contextId
  Tx.orThrow
    (account.bind fun _ => member.bind fun member => device.map fun device =>
      (member.id, device.id))
    (Err.forbidden "Forbidden")

end Bazar.Shop
