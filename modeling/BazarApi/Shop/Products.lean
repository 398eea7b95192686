import BazarApi.Shop.Database

/- `ProductsService` (`products/products.service.ts`): the operations that write a
   product. `patch` and the image upload share `mutate`, which takes the row lock
   before it reads anything; `restock` is one guarded `UPDATE` that adds to the
   stock in the database and holds the row for the rest of the transaction.

   Correspondence (TypeScript ↔ Lean):
     `create`, `mutate`, `patch`, `restock`,
     `deactivate`, `reactivate`               ↔ the same names
     `products/restock-cost.ts`               ↔ `nextProductCost` -/
namespace Bazar.Shop.Products

open Txn

/-- A product as the write endpoints answer it; the image is the storage's address
of `imagePath`, and is left as the path. -/
abbrev ProductResponse := Product

def response (product : Product) : ProductResponse := product

def snapshot (product : Product) : ProductSnapshot :=
  { name := product.name, tipo := product.tipo, unitPriceMinor := product.unitPriceMinor
    initialStock := product.initialStock, stock := product.stock, imagePath := product.imagePath
    category := product.category, purchaseCostMinor := product.purchaseCostMinor
    supplier := product.supplier, notes := product.notes, brand := product.brand
    presentation := product.presentation, description := product.description }

/-- `ProductsService.authorize`: an active socio of the context. -/
def authorize (actor : Actor) : Tx shop Uuid := do
  let (memberId, _) ← authorizeAs (some .socio) actor
  return memberId

/-- `ProductsService.audit`. -/
def auditRow (id : Uuid) (now : Instant) (memberId : Uuid) (product : Product)
    (before : Option Product) : ProductAudit :=
  { id, memberId
    productId := product.id
    contextId := product.contextId
    changedAt := now
    oldUnitPriceMinor := before.map (·.unitPriceMinor)
    newUnitPriceMinor := product.unitPriceMinor
    before := before.map snapshot
    after := snapshot product }

/-! Creation. -/

/-- A unique piece always starts with one. -/
def initialStock (dto : CreateProductDto) : Int :=
  match dto.tipo with
  | .unica => 1
  | .cantidad => (dto.initialStock.map (·.val)).getD 0

def newProduct (env : Env) (actor : Actor) (dto : CreateProductDto) : Product :=
  { id := env.serverId 0
    name := dto.name
    tipo := dto.tipo
    unitPriceMinor := dto.unitPriceMinor.val
    contextId := actor.account.contextId
    imagePath := none
    initialStock := initialStock dto
    stock := initialStock dto
    category := dto.category
    purchaseCostMinor := some dto.purchaseCostMinor.val
    supplier := dto.supplier
    notes := dto.notes
    brand := dto.brand
    presentation := dto.presentation
    description := dto.description
    createdAt := env.now 0
    active := true }

def createInTx (env : Env) (actor : Actor) (dto : CreateProductDto) : Tx shop ProductResponse := do
  let memberId ← authorize actor
  let product := newProduct env actor dto
  Shop.create (.product product)
  Shop.create (.productAudit (auditRow (env.serverId 1) (env.now 1) memberId product none))
  return response product

def create (env : Env) (actor : Actor) (dto : CreateProductDto) : Call shop ProductResponse :=
  Call.transaction .readCommitted (createInTx env actor dto)

/-! Changes that are not to the stock. -/

/-- What `mutate` does under the row lock. -/
def mutateLocked (env : Env) (actor : Actor) (id : Uuid) (data : ProductUpdate) :
    Tx shop ProductResponse := do
  let contextId := actor.account.contextId
  let memberId ← authorize actor
  let before ← Tx.orThrow (← findProduct id contextId) (Err.notFound "Not Found")
  Tx.require (before.purchaseCostMinor = none ∨ data.purchaseCostMinor ≠ some none)
    (Err.badRequest "purchaseCostMinor cannot be cleared once it has been set")
  let product ← orNotFound (updateProduct { id, contextId } data)
  Shop.create
    (.productAudit (auditRow (env.serverId 0) (env.now 0) memberId product (some before)))
  return response product

def mutate (env : Env) (actor : Actor) (id : Uuid) (data : ProductUpdate) :
    Tx shop ProductResponse := do
  lockProduct id actor.account.contextId
  mutateLocked env actor id data

/-- The columns a `PATCH` may name; type, stock and initial stock are not among them. -/
def patchData (dto : PatchProductDto) : ProductUpdate :=
  { name := dto.name
    unitPriceMinor := dto.unitPriceMinor.map (·.val)
    category := dto.category
    purchaseCostMinor := dto.purchaseCostMinor.map fun cost => cost.map (·.val)
    supplier := dto.supplier
    notes := dto.notes
    brand := dto.brand
    presentation := dto.presentation
    description := dto.description }

def patch (env : Env) (actor : Actor) (id : String) (dto : PatchProductDto) :
    Call shop ProductResponse := do
  Call.require (dto ≠ ⟨none, none, none, none, none, none, none, none, none⟩)
    (Err.badRequest "At least one editable field is required")
  Call.transaction .readCommitted (mutate env actor (uuid id) (patchData dto))

/-- `image`; `saved` is what the storage answers for the file. -/
def image (env : Env) (actor : Actor) (id : String) (saved : Except Err String) :
    Call shop ProductResponse := do
  match ← Call.transaction .readCommitted (findProduct (uuid id) actor.account.contextId) with
  | none => Call.throw (Err.notFound "Not Found")
  | some _ =>
    match saved with
    | .error error => Call.throw error
    | .ok path =>
      Call.transaction .readCommitted (mutate env actor (uuid id) { imagePath := some (some path) })

/-- What `deactivate` and `reactivate` do under the row lock: a write only if it changes
anything. -/
def setActiveLocked (actor : Actor) (id : Uuid) (active : Bool) : Tx shop ProductResponse := do
  let contextId := actor.account.contextId
  let _ ← authorize actor
  let product ← Tx.orThrow (← findProduct id contextId) (Err.notFound "Not Found")
  if product.active = active then return response product
  else do
    let updated ← orNotFound (updateProduct { id, contextId } { active := some active })
    return response updated

def setActive (actor : Actor) (id : Uuid) (active : Bool) : Tx shop ProductResponse := do
  lockProduct id actor.account.contextId
  setActiveLocked actor id active

def deactivate (actor : Actor) (id : String) : Call shop ProductResponse :=
  Call.transaction .readCommitted (setActive actor (uuid id) false)

def reactivate (actor : Actor) (id : String) : Call shop ProductResponse :=
  Call.transaction .readCommitted (setActive actor (uuid id) true)

/-! Restocking. -/

def assertWholeNumber (value : Int) (name : String) (least : Int) : Except Err Unit :=
  if value < least then .error (.rangeError s!"{name} must be an integer >= {least}") else .ok ()

/-- The product's cost after a restock, `none` when it stays: the average weighted by
pieces, rounded half up; an unknown cost is not averaged. -/
def nextProductCost (stockBefore : Int) (costBeforeMinor : Option Int) (quantity : Int)
    (unitCostMinor : Option Int) : Except Err (Option Int) := do
  assertWholeNumber stockBefore "stockBefore" 0
  assertWholeNumber quantity "quantity" 1
  match unitCostMinor with
  | none => return none
  | some unitCostMinor =>
    assertWholeNumber unitCostMinor "unitCostMinor" 0
    let purchase ← toMinorUnits (← toDinero unitCostMinor)
    if stockBefore = 0 then return some purchase
    else
      match costBeforeMinor with
      | none => return none
      | some costBeforeMinor =>
        assertWholeNumber costBeforeMinor "costBeforeMinor" 0
        let current ← toMinorUnits (← toDinero costBeforeMinor)
        let units := stockBefore + quantity
        let total := stockBefore * current + quantity * purchase
        let average ← toMinorUnits (← toDinero ((2 * total + units) / (2 * units)))
        return some average

/-- `explainRestockRejection`: why the guarded increment matched no row. -/
def explainRestockRejection (product : Option Product) : Err :=
  match product with
  | none => .notFound "Not Found"
  | some product =>
    if product.tipo ≠ .cantidad then
      .badRequest "Only products sold by quantity can be restocked"
    else if ¬product.active then
      .badRequest "A deactivated product cannot be restocked; reactivate it first"
    else .badRequest "The resulting stock would exceed the maximum allowed"

structure RestockAnswer where
  product : ProductResponse
  movement : StockMovement
  deriving DecidableEq, Repr

def movementRow (env : Env) (contextId : String) (memberId : Uuid) (dto : RestockProductDto)
    (stockBefore : Int) (product : Product) : StockMovement :=
  { id := env.serverId 1
    contextId, memberId, stockBefore
    productId := product.id
    quantity := dto.quantity.val
    stockAfter := product.stock
    unitCostMinor := dto.unitCostMinor.map (·.val)
    note := dto.note
    createdAt := env.now 1 }

/-- The cost is written only when it changes. -/
def writeCost (contextId : String) (incremented : Product) (nextCost : Option Int) :
    Tx shop Product :=
  if nextCost = none ∨ nextCost = incremented.purchaseCostMinor then return incremented
  else
    orNotFound (updateProduct { id := incremented.id, contextId }
      { purchaseCostMinor := some nextCost })

def restockInTx (env : Env) (actor : Actor) (id : Uuid) (dto : RestockProductDto) :
    Tx shop RestockAnswer := do
  let memberId ← authorize actor
  let contextId := actor.account.contextId
  match ← updateProduct
      { id, contextId, tipo := some .cantidad, active := some true
        stockLte := some (maxMinorUnits - dto.quantity.val) }
      { stock := some (.increment dto.quantity.val) } with
  | none => do
    let product ← findProduct id contextId
    Tx.throw (explainRestockRejection product)
  | some incremented => do
    let stockBefore := incremented.stock - dto.quantity.val
    let nextCost ← Tx.ofExcept (nextProductCost stockBefore incremented.purchaseCostMinor
      dto.quantity.val (dto.unitCostMinor.map (·.val)))
    let product ← writeCost contextId incremented nextCost
    let before := { incremented with stock := stockBefore }
    Shop.create
      (.productAudit (auditRow (env.serverId 0) (env.now 0) memberId product (some before)))
    let movement := movementRow env contextId memberId dto stockBefore product
    Shop.create (.stockMovement movement)
    return ⟨response product, movement⟩

def restock (env : Env) (actor : Actor) (id : String) (dto : RestockProductDto) :
    Call shop RestockAnswer :=
  Call.transaction .readCommitted (restockInTx env actor (uuid id) dto)

end Bazar.Shop.Products
