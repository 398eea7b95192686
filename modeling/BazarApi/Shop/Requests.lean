import BazarApi.Shop.Sales
import BazarApi.Shop.Deudas
import BazarApi.Shop.Products
import BazarApi.Txn.Logic

/- What a commit of the shop does, said without its program: for each request, the
   change it may make to the database it finds. `Commits` is the guarantee that
   every request keeps (`SalesSafe`, `DeudasSafe`, `ProductsSafe`); the invariants
   of the shop are read off it and never look at a program again. -/
namespace Bazar.Shop

open Txn

/-- A request to one of the services, with the actor the guards established. -/
inductive Request where
  | createSale (env : Env) (actor : Actor) (dto : CreateSaleDto)
  | createDeuda (env : Env) (actor : Actor) (dto : CreateDeudaDto)
  | registerAbono (env : Env) (actor : Actor) (deudaId : String) (dto : CreateAbonoDto)
  | addCuota (env : Env) (actor : Actor) (deudaId : String) (dto : CuotaPlaneadaInputDto)
  | updateCuota (actor : Actor) (deudaId cuotaId : String) (dto : UpdateCuotaDto)
  | deleteCuota (actor : Actor) (deudaId cuotaId : String)
  | createProduct (env : Env) (actor : Actor) (dto : CreateProductDto)
  | patchProduct (env : Env) (actor : Actor) (id : String) (dto : PatchProductDto)
  | changeImage (env : Env) (actor : Actor) (id : String) (saved : Except Err String)
  | restockProduct (env : Env) (actor : Actor) (id : String) (dto : RestockProductDto)
  | deactivateProduct (actor : Actor) (id : String)
  | reactivateProduct (actor : Actor) (id : String)

inductive Answer where
  | sale (a : Sales.SaleAnswer)
  | deuda (a : DeudaResponse)
  | abono (a : Deudas.DeudaDetail)
  | cuota (a : CuotaPlaneada)
  | product (a : Products.ProductResponse)
  | restock (a : Products.RestockAnswer)

/-- The program that serves a request. -/
def Request.call (host : Host) : Request → Call shop Answer
  | .createSale env actor dto => do return .sale (← Sales.create host env actor dto)
  | .createDeuda env actor dto => do return .deuda (← Deudas.create host env actor dto)
  | .registerAbono env actor id dto => do return .abono (← Deudas.registerAbono env actor id dto)
  | .addCuota env actor id dto => do return .cuota (← Deudas.addCuota env actor id dto)
  | .updateCuota actor id cuotaId dto => do
    return .cuota (← Deudas.updateCuota actor id cuotaId dto)
  | .deleteCuota actor id cuotaId => do return .cuota (← Deudas.deleteCuota actor id cuotaId)
  | .createProduct env actor dto => do return .product (← Products.create env actor dto)
  | .patchProduct env actor id dto => do return .product (← Products.patch env actor id dto)
  | .changeImage env actor id saved => do return .product (← Products.image env actor id saved)
  | .restockProduct env actor id dto => do return .restock (← Products.restock env actor id dto)
  | .deactivateProduct actor id => do return .product (← Products.deactivate actor id)
  | .reactivateProduct actor id => do return .product (← Products.reactivate actor id)

/-! Stock. -/

/-- The product with `n` pieces fewer. -/
def Product.take (p : Product) (n : Int) : Product := { p with stock := p.stock - n }

/-- The pieces of product `k` among the items. -/
def soldOf (items : List SaleItem) (k : Uuid) : Int :=
  (items.map fun x => if x.productId = k then x.quantity else 0).sum

/-- From `d` to `d'` every product lost `n` of its pieces and nothing else of it changed. -/
def Taken (d d' : Db) (n : Uuid → Int) : Prop :=
  ∀ k, d'.products.find? k = (d.products.find? k).map fun p => p.take (n k)

/-! Sales. -/

/-- A line carries the price and the cost of its product, and its subtotal is an amount. -/
def LinePriced (d : Db) (x : SaleItem) : Prop :=
  ∃ p, d.products.find? x.productId = some p ∧ x.unitPriceMinor = p.unitPriceMinor ∧
    x.unitCostMinor = p.purchaseCostMinor ∧
    x.subtotalMinor = x.unitPriceMinor * x.quantity ∧ x.subtotalMinor ≤ maxMinorUnits

/-- The columns of a completed sale add up. -/
structure AddsUp (s : Sale) : Prop where
  total : s.totalMinor = some ((s.items.map (·.subtotalMinor)).sum)
  range : (s.items.map (·.subtotalMinor)).sum ≤ maxMinorUnits
  lines : ∀ x ∈ s.items, x.subtotalMinor = x.unitPriceMinor * x.quantity
  cash : s.paymentMethod = .efectivo → ∃ cash change,
    s.cashReceivedMinor = some cash ∧ s.changeMinor = some change ∧
      cash = (s.items.map (·.subtotalMinor)).sum + change ∧ 0 ≤ change
  exempt : s.paymentMethod ≠ .efectivo → s.cashReceivedMinor = none ∧ s.changeMinor = none

/-- A sale that went through. -/
structure SaleCompleted (dto : CreateSaleDto) (d d' : Db) (s : Sale) : Prop where
  status : s.status = .completada
  paymentMethod : s.paymentMethod = resolvePaymentMethod dto.paymentMethod
  addsUp : AddsUp s
  priced : ∀ x ∈ s.items, LinePriced d x
  items : (s.items.map fun x => (x.productId, x.quantity)) =
    dto.items.map fun x => (uuid x.productId, x.quantity.val)
  incidencias : ∀ x ∈ s.incidencias, x.type ≠ .conflictoStock
  taken : Taken d d' (soldOf s.items)
  enough : ∀ x ∈ s.items,
    ∃ p, d.products.find? x.productId = some p ∧ soldOf s.items x.productId ≤ p.stock
  db : d' = { d with products := d'.products, sales := d.sales.put s }

/-- A sale recorded as rejected. -/
structure SaleRejected (d d' : Db) (s : Sale) : Prop where
  status : s.status = .rechazadaPorConflicto
  items : s.items = []
  totalMinor : s.totalMinor = none
  incidencias : ∃ x, s.incidencias = [x] ∧ x.type = .conflictoStock
  db : d' = { d with sales := d.sales.put s }

/-- The pieces of product `k` among the lines of a cart. -/
def cartSold (items : List CreateSaleItemDto) (k : Uuid) : Int :=
  (items.map fun x => if uuid x.productId = k then x.quantity.val else 0).sum

/-- What a line of a cart needs in stock: its own pieces and those of the lines before
it, which the transaction has taken already. -/
def needed (before : List CreateSaleItemDto) (item : CreateSaleItemDto) : Int :=
  item.quantity.val + cartSold before (uuid item.productId)

/-- For one line of the cart of request `i`, its unlocked read found the stock the line
needs, and the read under the lock right after did not. -/
def LostRace (d : Db) (i : Nat) (contextId : String) (dto : CreateSaleDto) (h : History shop) :
    Prop :=
  ∃ before item after, dto.items = before ++ item :: after ∧ ∃ h₁ a b h₂,
    h = h₁ ++ .exec i (.findProduct (uuid item.productId) contextId) :: a ++
      .exec i (.lockProduct (uuid item.productId) contextId) :: b ++
      .exec i (.findProduct (uuid item.productId) contextId) :: h₂ ∧
    (∀ e ∈ a ++ b, e.pid ≠ i) ∧
    ∃ p p', (replay (S := shop) d h₁).products.find? (uuid item.productId) = some p ∧
      (replay (S := shop) d (h₁ ++ a ++ b)).products.find? (uuid item.productId) = some p' ∧
      needed before item ≤ p.stock ∧ p'.stock < needed before item

/-- For each of these lines of the cart, a look of request `i` found the stock it needs. -/
def InStock (d : Db) (i : Nat) (contextId : String) (items : List CreateSaleItemDto)
    (h : History shop) : Prop :=
  ∀ before item, before ++ [item] <+: items → ∃ h₁ p,
    h₁ ++ [.exec i (.findProduct (uuid item.productId) contextId)] <+: h ∧
    (replay (S := shop) d h₁).products.find? (uuid item.productId) = some p ∧
    needed before item ≤ p.stock

/-- What a `SalesService.create` writes. -/
structure SaleWritten (host : Host) (i : Nat) (actor : Actor) (dto : CreateSaleDto) (d₀ : Db)
    (h : History shop) (d d' : Db) (s : Sale) : Prop where
  id : s.id = uuid dto.id
  contextId : s.contextId = actor.account.contextId
  occurredAt : dto.occurredAt = some s.occurredAt
  requestFingerprint :
    s.requestFingerprint = some (Sales.requestFingerprint host dto s.occurredAt)
  fresh : d.sales.find? s.id = none
  outcome :
    (SaleCompleted dto d d' s ∧ InStock d₀ i actor.account.contextId dto.items h) ∨
    (SaleRejected d d' s ∧ LostRace d₀ i actor.account.contextId dto h)

/-! Debts. -/

/-- No statement names a product for its lock before the commit that creates it:
identifiers come from `createServerId`, and nobody knows one before it is answered. -/
def FreshIds (h : History shop) : Prop :=
  ∀ h₁ c h₂, h = h₁ ++ .commit c :: h₂ → ∀ p, Write.insert (.product p) ∈ c.writes →
    ∀ i contextId, Event.exec i (Sql.lockProduct p.id contextId) ∉ h₁

/-- The first payment of a debt, if any. -/
def FirstAbono (dto : CreateDeudaDto) (x : Deuda) (d d' : Db) : Prop :=
  if 0 < dto.abonoInicialMinor.val then
    ∃ a : Abono, a.deudaId = x.id ∧ a.contextId = x.contextId ∧
      a.montoMinor = dto.abonoInicialMinor.val ∧ dto.abonoInicialMinor.val ≤ x.totalMinor ∧
      d.abonos.find? a.id = none ∧ d'.abonos = d.abonos.put a
  else d'.abonos = d.abonos

/-- A new debtor, or none. -/
def NewDeudor (dto : CreateDeudaDto) (d d' : Db) : Prop :=
  d'.deudores = d.deudores ∨
    (dto.deudor.isSome ∧ ∃ r : Deudor, d.deudores.find? r.id = none ∧ d'.deudores = d.deudores.put r)

/-- What a `DeudasService.create` writes. -/
structure DeudaCreated (host : Host) (actor : Actor) (dto : CreateDeudaDto) (d₀ : Db)
    (h : History shop) (d d' : Db) (x : Deuda) : Prop where
  id : ∀ id ∈ dto.id, x.id = uuid id
  contextId : x.contextId = actor.account.contextId
  productId : x.productId = uuid dto.productId
  cantidad : x.cantidad = dto.cantidad.val
  requestFingerprint :
    x.requestFingerprint = dto.id.map fun _ => Deudas.requestFingerprint host actor dto
  creationResponse : dto.id.isSome → ∃ a, x.creationResponse = some a ∧
    a.toDeudaHeader = x.toDeudaHeader
  fresh : d.deudas.find? x.id = none
  status : x.status = .saldada ↔
    0 < dto.abonoInicialMinor.val ∧ x.totalMinor ≤ dto.abonoInicialMinor.val
  saldadaAt : x.saldadaAt.isSome ↔ x.status = .saldada
  total : ∃ h₁ p, h₁ <+: h ∧ (replay (S := shop) d₀ h₁).products.find? x.productId = some p ∧
    x.totalMinor = p.unitPriceMinor * x.cantidad
  cost : ∃ h₁ p, h₁ <+: h ∧ (replay (S := shop) d₀ h₁).products.find? x.productId = some p ∧
    x.unitCostMinor = p.purchaseCostMinor
  range : x.totalMinor ≤ maxMinorUnits
  price : FreshIds h → ∃ p, d.products.find? x.productId = some p ∧
    x.totalMinor = p.unitPriceMinor * x.cantidad
  enough : FreshIds h → ∃ p, d.products.find? x.productId = some p ∧ x.cantidad ≤ p.stock
  products : ∃ n, d'.products = d.products.modify x.productId fun p => { p with stock := n }
  taken : FreshIds h → Taken d d' fun k => if x.productId = k then x.cantidad else 0
  deudor : NewDeudor dto d d'
  abono : FirstAbono dto x d d'
  db : d' = { d with
    products := d'.products, deudores := d'.deudores, deudas := d.deudas.put x
    abonos := d'.abonos, cuotasPlaneadas := d'.cuotasPlaneadas }

/-- What a `registerAbono` writes; the debt is settled when nothing is left to pay. -/
structure AbonoRegistered (contextId : String) (id : Uuid) (dto : CreateAbonoDto) (d d' : Db)
    (x : Deuda) (a : Abono) (now : Instant) : Prop where
  deuda : d.deudas.find? id = some x
  deudaContext : x.contextId = contextId
  abonoDeuda : a.deudaId = id
  abonoContext : a.contextId = contextId
  montoMinor : a.montoMinor = dto.montoMinor.val
  fresh : d.abonos.find? a.id = none
  within : d.sumAbonos id contextId + dto.montoMinor.val ≤ x.totalMinor
  db : d' = { d with
    abonos := d.abonos.put a
    deudas :=
      if x.totalMinor ≤ d.sumAbonos id contextId + dto.montoMinor.val then
        d.deudas.put { x with status := .saldada, saldadaAt := some now }
      else d.deudas }

/-- What the operations on a schedule write. -/
def CuotasChanged (d d' : Db) : Prop := d' = { d with cuotasPlaneadas := d'.cuotasPlaneadas }

/-! Products. -/

/-- An amount, as the columns of prices and costs hold it. -/
def IsAmount (n : Int) : Prop := 0 ≤ n ∧ n ≤ maxMinorUnits

/-- One audit row more, of the change from `before` to `p`. -/
def Audited (d d' : Db) (before : Option Product) (p : Product) : Prop :=
  ∃ r : ProductAudit, d.productAudits.find? r.id = none ∧
    d'.productAudits = d.productAudits.put r ∧ r.productId = p.id ∧
    r.before = before.map Products.snapshot ∧ r.after = Products.snapshot p

structure ProductCreated (d d' : Db) (p : Product) : Prop where
  fresh : d.products.find? p.id = none
  stock : p.stock = p.initialStock
  range : 0 ≤ p.stock ∧ p.stock ≤ maxMinorUnits
  unica : p.tipo = .unica → p.stock = 1
  price : 0 ≤ p.unitPriceMinor
  cost : ∃ c, p.purchaseCostMinor = some c ∧ IsAmount c
  audit : Audited d d' none p
  db : d' = { d with products := d.products.put p, productAudits := d'.productAudits }

/-- `patch`, `image`, `deactivate`, `reactivate`: columns other than the stock. What changes
a column of the snapshot is audited; the row it starts from is the one it read, since
nobody names a product before it is there. -/
structure ProductChanged (h : History shop) (id : Uuid) (d d' : Db) (data : ProductUpdate) :
    Prop where
  stock : data.stock = none
  price : ∀ v ∈ data.unitPriceMinor, 0 ≤ v
  cost : ∀ c, data.purchaseCostMinor = some (some c) → IsAmount c
  audit : (d'.productAudits = d.productAudits ∧
      ∀ p, Products.snapshot (data.apply p) = Products.snapshot p) ∨
    (FreshIds h → ∃ p, d.products.find? id = some p ∧ Audited d d' (some p) (data.apply p) ∧
      (p.purchaseCostMinor.isSome → (data.apply p).purchaseCostMinor.isSome))
  db : d' = { d with
    products := d.products.modify id data.apply, productAudits := d'.productAudits }

structure Restocked (contextId : String) (id : Uuid) (dto : RestockProductDto) (d d' : Db)
    (p : Product) (m : StockMovement) (cost : Option Int) : Prop where
  product : d.products.find? id = some p
  productContext : p.contextId = contextId
  tipo : p.tipo = .cantidad
  active : p.active = true
  room : p.stock + dto.quantity.val ≤ maxMinorUnits
  productId : m.productId = id
  quantity : m.quantity = dto.quantity.val
  stockBefore : m.stockBefore = p.stock
  stockAfter : m.stockAfter = p.stock + dto.quantity.val
  fresh : d.stockMovements.find? m.id = none
  costRange : cost = p.purchaseCostMinor ∨ ∃ c, cost = some c ∧ IsAmount c
  costNext : ∃ next, Products.nextProductCost p.stock p.purchaseCostMinor dto.quantity.val
    (dto.unitCostMinor.map (·.val)) = .ok next ∧ cost = next.or p.purchaseCostMinor
  audit : Audited d d' (some p)
    { p with stock := p.stock + dto.quantity.val, purchaseCostMinor := cost }
  db : d' = { d with
    products := d.products.put
      { p with stock := p.stock + dto.quantity.val, purchaseCostMinor := cost }
    productAudits := d'.productAudits
    stockMovements := d.stockMovements.put m }

/-! The guarantee. -/

/-- What request `i` writes when it writes anything: `d` is the database it finds. -/
def Request.Writes (host : Host) (d₀ : Db) (i : Nat) (h : History shop) (d d' : Db) :
    Request → Prop
  | .createSale _ actor dto => ∃ s, SaleWritten host i actor dto d₀ h d d' s
  | .createDeuda _ actor dto => ∃ x, DeudaCreated host actor dto d₀ h d d' x
  | .registerAbono _ actor id dto =>
    ∃ x a now, AbonoRegistered actor.account.contextId (uuid id) dto d d' x a now
  | .addCuota _ _ _ _ => CuotasChanged d d'
  | .updateCuota _ _ _ _ => CuotasChanged d d'
  | .deleteCuota _ _ _ => CuotasChanged d d'
  | .createProduct env actor dto =>
    ∃ p, ProductCreated d d' p ∧ p = Products.newProduct env actor dto
  | .patchProduct _ _ id dto =>
    ∃ data, ProductChanged h (uuid id) d d' data ∧
      data.purchaseCostMinor = (Products.patchData dto).purchaseCostMinor
  | .changeImage _ _ id _ =>
    ∃ data, ProductChanged h (uuid id) d d' data ∧ data.purchaseCostMinor = none
  | .restockProduct _ actor id dto =>
    ∃ p m cost, Restocked actor.account.contextId (uuid id) dto d d' p m cost
  | .deactivateProduct _ id =>
    ∃ data, ProductChanged h (uuid id) d d' data ∧ data.purchaseCostMinor = none
  | .reactivateProduct _ id =>
    ∃ data, ProductChanged h (uuid id) d d' data ∧ data.purchaseCostMinor = none

/-- The locks a commit that writes was made under, beside those of its own rows: a
payment holds its debt. -/
def Request.Holds (locks : Locks Key) : Request → Prop
  | .registerAbono _ _ id _ => ((.deuda, uuid id), .update) ∈ locks
  | _ => True

/-- Every commit is of one of the requests, and writes nothing or what that request
writes on the database found. -/
def Commits (host : Host) (d₀ : Db) (reqs : List Request) (h : History shop) (c : Commit shop) :
    Prop :=
  ∃ r, reqs[c.pid]? = some r ∧
    (c.writes = [] ∨
      (r.Writes host d₀ c.pid h (replay d₀ h) (applyAll (replay d₀ h) c.writes) ∧
        r.Holds c.locks))

end Bazar.Shop
