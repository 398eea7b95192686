import Mathlib.Data.List.Sort
import BazarApi.Shop.Model
import BazarApi.Team.Model
import BazarApi.Tenant.Extension
import BazarApi.Txn.Logic

/- The listings of products and sales, `products/products.service.ts` and
   `sales/sales.service.ts`, and the way their two reads reach the database.

   Correspondence (TypeScript ↔ Lean):
     `isRequestingSocio`              ↔ `isRequestingSocio`
     `ProductsService.list`           ↔ `listProducts`
     `SalesService.list`              ↔ `listSales`
     `$allOperations` of an operation ↔ `managed`, of what `Tenant.allOperations` sends
     `prisma.$transaction([…], …)`    ↔ `batch`, which `takesPart` tells together or apart
   The two reads of a batch that run in transactions of their own run in either order, as the
   request's surroundings choose. Everything else that touches these rows is any request. -/
namespace Bazar.Listing

open Txn

structure Db where
  members : Table Team.Member
  products : Table Shop.Product
  sales : Table Shop.Sale

structure Host where
  /-- `contains` and `equals` with `mode: 'insensitive'`. -/
  contains : String → String → Bool
  equals : String → String → Bool
  getUrl : String → String

/-! What the listings select. -/

structure ProductListDto where
  page : Nat
  limit : Nat
  search : Option String
  brand : Option String
  umbral : Option Int
  agotados : Bool
  sinCosto : Bool
  tipo : Option Shop.ProductType
  includeInactive : Bool
  deriving DecidableEq, Repr

structure ProductWhere where
  contextId : String
  active : Bool
  search : Option String
  brand : Option String
  agotados : Bool
  umbral : Option Int
  sinCosto : Bool
  tipo : Option Shop.ProductType
  deriving DecidableEq, Repr

/-- An empty text filters nothing. -/
def given (s : Option String) : Option String := s.filter (· ≠ "")

def ProductWhere.matches (host : Host) (w : ProductWhere) (p : Shop.Product) : Bool :=
  p.contextId = w.contextId ∧ (w.active = true → p.active = true) ∧
    (w.search.all fun s => host.contains p.name s || p.brand.any (host.contains · s) ||
      p.presentation.any (host.contains · s)) ∧
    (w.brand.all fun s => p.brand.any (host.equals · s)) ∧
    (if w.agotados then p.stock = 0 else ∀ u ∈ w.umbral, p.stock ≤ u) ∧
    (w.sinCosto = true → p.purchaseCostMinor = none) ∧ ∀ t ∈ w.tipo, p.tipo = t

/-- By creation, then by id. -/
def productOrder (p o : Shop.Product) : Prop :=
  p.createdAt < o.createdAt ∨ (p.createdAt = o.createdAt ∧ p.id.text ≤ o.id.text)

instance : DecidableRel productOrder := by
  intro p o
  unfold productOrder
  infer_instance

inductive SortOrder where
  | asc
  | desc
  deriving DecidableEq, Repr

structure SaleListDto where
  page : Nat
  limit : Nat
  search : Option String
  status : Option Shop.SaleStatus
  sort : SortOrder
  deriving DecidableEq, Repr

structure SaleWhere where
  contextId : String
  search : Option String
  status : Option Shop.SaleStatus
  deriving DecidableEq, Repr

/-- The seller belongs to the business and has a name that matches; so does the sale. -/
def SaleWhere.matches (host : Host) (w : SaleWhere) (d : Db) (x : Shop.Sale) : Bool :=
  (x.contextId = w.contextId) ∧ ((d.members.find? x.memberId).any fun m =>
    m.contextId = w.contextId ∧ w.search.all fun s => host.contains m.name s) ∧
    ∀ st ∈ w.status, x.status = st

/-- By reception, one way or the other, then by id. -/
def saleOrder (sort : SortOrder) (x y : Shop.Sale) : Prop :=
  (match sort with
    | .asc => x.receivedAt < y.receivedAt
    | .desc => y.receivedAt < x.receivedAt) ∨
    (x.receivedAt = y.receivedAt ∧ x.id.text ≤ y.id.text)

instance (sort : SortOrder) : DecidableRel (saleOrder sort) := by
  intro x y
  unfold saleOrder
  cases sort <;> infer_instance

namespace Db
variable (d : Db) (host : Host)

def productsWhere (w : ProductWhere) : List Shop.Product := d.products.rows.filter (w.matches host)

def salesWhere (w : SaleWhere) : List Shop.Sale := d.sales.rows.filter (w.matches host d)

/-- Only the products of the business are selected. -/
theorem productsWhere_business (w : ProductWhere) : d.productsWhere host w =
    (d.products.rows.filter fun p => p.contextId = w.contextId).filter (w.matches host) := by
  rw [productsWhere, List.filter_filter]
  refine List.filter_congr ?_
  intro p _
  by_cases hp : p.contextId = w.contextId <;> simp [ProductWhere.matches, hp]

end Db

/-- The members of one page. -/
def pageOf {α : Type} (page limit : Nat) (xs : List α) : List α :=
  (xs.drop ((page - 1) * limit)).take limit

/-! Statements. -/

/-- A row written by anybody. -/
inductive Write where
  | member (row : Team.Member)
  | product (row : Shop.Product)
  | sale (row : Shop.Sale)
  | deleteProduct (id : Uuid)
  | deleteSale (id : Uuid)

inductive Key where
  | member (id : Uuid)
  | product (id : Uuid)
  | sale (id : Uuid)
  deriving DecidableEq

def Write.apply (d : Db) : Write → Db
  | .member row => { d with members := d.members.put row }
  | .product row => { d with products := d.products.put row }
  | .sale row => { d with sales := d.sales.put row }
  | .deleteProduct id => { d with products := d.products.erase id }
  | .deleteSale id => { d with sales := d.sales.erase id }

def Write.key : Write → Key
  | .member row => .member row.id
  | .product row => .product row.id
  | .sale row => .sale row.id
  | .deleteProduct id => .product id
  | .deleteSale id => .sale id

inductive Sql where
  | setConfig (contextId : String)
  | findMember (id : Uuid) (contextId : String)
  | findProducts (w : ProductWhere) (page limit : Nat)
  | countProducts (w : ProductWhere)
  | findSales (w : SaleWhere) (sort : SortOrder) (page limit : Nat)
  | countSales (w : SaleWhere)
  | write (ws : List Write)

@[reducible] def Sql.Res : Sql → Type
  | .setConfig _ => Unit
  | .findMember _ _ => Option Team.Member
  | .findProducts _ _ _ => List Shop.Product
  | .countProducts _ => Nat
  | .findSales _ _ _ _ => List Shop.Sale
  | .countSales _ => Nat
  | .write _ => Unit

/-- What a statement that reads finds. -/
def Sql.read (host : Host) : (q : Sql) → Db → q.Res
  | .setConfig _, _ => ()
  | .findMember id contextId, d => (d.members.find? id).filter fun m =>
      m.contextId = contextId ∧ m.role = .socio ∧ m.active
  | .findProducts w page limit, d =>
    pageOf page limit ((d.productsWhere host w).insertionSort productOrder)
  | .countProducts w, d => (d.productsWhere host w).length
  | .findSales w sort page limit, d =>
    pageOf page limit ((d.salesWhere host w).insertionSort (saleOrder sort))
  | .countSales w, d => (d.salesWhere host w).length
  | .write _, _ => ()

def Sql.writes : Sql → List Write
  | .write ws => ws
  | _ => []

/-- The schema of the listings. -/
@[reducible] def listings (host : Host) : Schema where
  Db := Db
  Write := Write
  Key := Key
  Err := Err
  Sql := Sql
  Res := Sql.Res
  keyEq := inferInstance
  apply := Write.apply
  key := Write.key
  mode := fun _ => .update
  mode_writes := fun _ => rfl
  locks := fun _ _ => []
  exec := fun q d => .ok (q.read host d, q.writes)
  stale := fun _ => .database "could not serialize access due to concurrent update"
  spontaneous := Err.spontaneous

/-- Sends one statement of the schema. -/
abbrev query (host : Host) (q : Sql) : Tx (listings host) q.Res := Tx.query (S := listings host) q

/-! The batch of two reads. -/

/-- The extension passes an element on, so that it takes part in the batch. -/
def takesPart (store : Option Tenant.TenantStore) (model : Tenant.Model) : Bool :=
  model ∉ Tenant.tenantScopedModels ∨ store.isNone

/-- The last part of a name. -/
def lastName (s : String) : String := (s.splitOn ".").getLastD ""

def refused : Tenant.Refusal → Err
  | .noTenantContext model operation => .internal ("No tenant context established for " ++
      lastName (reprStr model) ++ "." ++ lastName (reprStr operation) ++
      "; refusing to run without one")

/-- What the extension sends for a read of a business. -/
def sentFor (store : Option Tenant.TenantStore) (model : Tenant.Model)
    (operation : Tenant.Operation) (contextId : String) :
    Except Tenant.Refusal (List Tenant.Sent) :=
  Tenant.allOperations store false model operation
    (.obj [("where", .obj [("contextId", .str contextId)])])

/-- The statements sent for a read. -/
def perform (host : Host) (sent : List Tenant.Sent) (q : Sql) : Tx (listings host) q.Res :=
  match sent with
  | .setConfig active :: _ => do
    query host (.setConfig active)
    query host q
  | _ => query host q

/-- A read by itself. What is sent for it runs in a transaction of its own. -/
def managed (host : Host) (store : Option Tenant.TenantStore) (model : Tenant.Model)
    (operation : Tenant.Operation) (contextId : String) (q : Sql) : Call (listings host) q.Res :=
  match sentFor store model operation contextId with
  | .ok sent => Call.transaction .readCommitted (perform host sent q)
  | .error refusal => .throw (refused refusal)

/-- `$transaction([items, count], { isolationLevel: 'RepeatableRead' })`. -/
def batch (host : Host) (store : Option Tenant.TenantStore) (model : Tenant.Model)
    (countFirst : Bool) (contextId : String) (items count : Sql) :
    Call (listings host) (items.Res × count.Res) :=
  if takesPart store model then
    Call.transaction .repeatableRead do
      let xs ← query host items
      let n ← query host count
      pure (xs, n)
  else if countFirst then do
    let n ← managed host store model .count contextId count
    let xs ← managed host store model .findMany contextId items
    pure (xs, n)
  else do
    let xs ← managed host store model .findMany contextId items
    let n ← managed host store model .count contextId count
    pure (xs, n)

/-! The listings. -/

structure Page (α : Type) where
  items : List α
  total : Nat
  page : Nat
  limit : Nat
  deriving DecidableEq

/-- What only a socio is shown of a product. -/
structure CostResponse where
  purchaseCostMinor : Option Int
  supplier : Option String
  notes : Option String
  deriving DecidableEq, Repr

structure ProductResponse where
  id : Uuid
  name : String
  tipo : Shop.ProductType
  unitPriceMinor : Int
  contextId : String
  initialStock : Int
  stock : Int
  category : Option String
  brand : Option String
  presentation : Option String
  description : Option String
  createdAt : Instant
  active : Bool
  cost : Option CostResponse
  image : Option String
  deriving DecidableEq, Repr

def productResponse (host : Host) (withCost : Bool) (p : Shop.Product) : ProductResponse :=
  { id := p.id, name := p.name, tipo := p.tipo, unitPriceMinor := p.unitPriceMinor
    contextId := p.contextId, initialStock := p.initialStock, stock := p.stock
    category := p.category, brand := p.brand, presentation := p.presentation
    description := p.description, createdAt := p.createdAt, active := p.active
    cost := if withCost then some ⟨p.purchaseCostMinor, p.supplier, p.notes⟩ else none
    image := (given p.imagePath).map host.getUrl }

def productWhere (contextId : String) (dto : ProductListDto) (isSocio : Bool) : ProductWhere :=
  { contextId, active := ¬ (dto.includeInactive && isSocio), search := given dto.search
    brand := given dto.brand, agotados := dto.agotados, umbral := dto.umbral
    sinCosto := dto.sinCosto, tipo := dto.tipo }

def isRequestingSocio (host : Host) (store : Option Tenant.TenantStore) (contextId : String)
    (accountMemberId : Option Uuid) : Call (listings host) Bool :=
  match accountMemberId with
  | none => pure false
  | some id => do
    let member ← managed host store .Member .findFirst contextId (.findMember id contextId)
    pure member.isSome

def listProducts (host : Host) (store : Option Tenant.TenantStore) (countFirst : Bool)
    (contextId : String) (dto : ProductListDto) (accountMemberId : Option Uuid) :
    Call (listings host) (Page ProductResponse) := do
  let isSocio ← isRequestingSocio host store contextId accountMemberId
  let w := productWhere contextId dto isSocio
  let (items, total) ← batch host store .Product countFirst contextId
    (.findProducts w dto.page dto.limit) (.countProducts w)
  pure { items := items.map (productResponse host isSocio), total, page := dto.page
         limit := dto.limit }

structure SaleItemResponse where
  id : Uuid
  productId : Uuid
  quantity : Int
  unitPriceMinor : Int
  subtotalMinor : Int
  createdAt : Instant
  deriving DecidableEq, Repr

structure SaleResponse where
  header : Shop.SaleHeader
  items : List SaleItemResponse
  deriving DecidableEq, Repr

def saleResponse (sale : Shop.Sale) : SaleResponse :=
  { header := sale.toSaleHeader
    items := sale.items.map fun item =>
      ⟨item.id, item.productId, item.quantity, item.unitPriceMinor, item.subtotalMinor,
        item.createdAt⟩ }

def saleWhere (contextId : String) (dto : SaleListDto) : SaleWhere :=
  { contextId, search := given dto.search, status := dto.status }

def listSales (host : Host) (store : Option Tenant.TenantStore) (countFirst : Bool)
    (contextId : String) (dto : SaleListDto) : Call (listings host) (Page SaleResponse) := do
  let w := saleWhere contextId dto
  let (sales, total) ← batch host store .Sale countFirst contextId
    (.findSales w dto.sort dto.page dto.limit) (.countSales w)
  pure { items := sales.map saleResponse, total, page := dto.page, limit := dto.limit }

end Bazar.Listing
