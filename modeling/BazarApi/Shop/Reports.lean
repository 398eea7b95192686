import Mathlib.Algebra.GroupWithZero.Nat
import BazarApi.Js.Groups
import BazarApi.Shop.Database

/- The reports on sales and debts (`reports/reports.service.ts`,
   `commissions/commissions.service.ts`, `dashboard/dashboard.service.ts`,
   `common/profit-totals.ts`). Each is a function of the rows its queries answered, in
   whatever order the database answered them; the queries themselves are predicates on
   the rows.

   Correspondence (TypeScript ↔ Lean):
     `computeProfitTotals`                        ↔ the same name
     `salesByPeriod`, `salesByMember`, `salesDetail` ↔ the same names
     `this.prisma.sale.groupBy`                   ↔ `groupBy`, `sumTotal`
     `commissionMinorFor`, `calculate`            ↔ `commissionMinorFor`, `commissions`
     `DashboardService.summary`                   ↔ `summary`
     columns of `Member`, `AppSettings` and `Incidencia` that only reports read ↔ `Registry` -/
namespace Bazar.Shop.Reports

open Txn

/-- What the reports read beside the tables of the shop. -/
structure Registry where
  name : Uuid → Option String
  commissionRateBps : Uuid → Option Int
  defaultCommissionRateBps : String → Option Int
  pending : Uuid → Bool

/-- `{ gte: from, lte: to }`. -/
structure Period where
  start : Instant
  finish : Instant
  deriving DecidableEq

def Period.holds (p : Period) (t : Instant) : Bool := p.start ≤ t ∧ t ≤ p.finish

/-- `member: { contextId }`. -/
def ofContext (d : Db) (contextId : String) (memberId : Uuid) : Bool :=
  (d.members.find? memberId).any (·.contextId = contextId)

/-! The rows the queries ask for. -/

/-- The completed sales of the period. -/
def isSold (d : Db) (contextId : String) (p : Period) (s : Sale) : Bool :=
  s.status = .completada ∧ ofContext d contextId s.memberId ∧ p.holds s.receivedAt

def sold (d : Db) (contextId : String) (p : Period) : List Sale :=
  d.sales.rows.filter (isSold d contextId p)

/-- A payment with its debt and debtor. -/
structure AbonoRow where
  receivedAt : Instant
  montoMinor : Int
  paymentMethod : PaymentMethod
  type : DeudaType
  deudor : String
  deriving DecidableEq

def abonoRow (d : Db) (contextId : String) (p : Period) (a : Abono) : Option AbonoRow := do
  let deuda ← d.deudas.find? a.deudaId
  let deudor ← d.deudores.find? deuda.deudorId
  if ofContext d contextId deuda.createdByMemberId ∧ p.holds a.receivedAt then
    some ⟨a.receivedAt, a.montoMinor, a.paymentMethod, deuda.type, deudor.nombre⟩
  else none

def abonos (d : Db) (contextId : String) (p : Period) : List AbonoRow :=
  d.abonos.rows.filterMap (abonoRow d contextId p)

/-- The debts settled in the period. -/
def isSettled (d : Db) (contextId : String) (p : Period) (x : Deuda) : Bool :=
  ofContext d contextId x.createdByMemberId ∧ x.saldadaAt.any p.holds

def settled (d : Db) (contextId : String) (p : Period) : List Deuda :=
  d.deudas.rows.filter (isSettled d contextId p)

/-- A line sold, with what is shown of its product and its seller. -/
structure SoldLine where
  productId : Uuid
  quantity : Int
  subtotalMinor : Int
  unitCostMinor : Option Int
  productName : String
  productBrand : Option String
  productPresentation : Option String
  memberId : Uuid
  memberName : Option String
  deriving DecidableEq

/-- The product of a line is there: the column is a foreign key. -/
def soldLine (d : Db) (reg : Registry) (s : Sale) (x : SaleItem) : SoldLine :=
  let product := d.products.find? x.productId
  { productId := x.productId, quantity := x.quantity, subtotalMinor := x.subtotalMinor
    unitCostMinor := x.unitCostMinor, productName := (product.map (·.name)).getD ""
    productBrand := product.bind (·.brand), productPresentation := product.bind (·.presentation)
    memberId := s.memberId, memberName := reg.name s.memberId }

def soldLines (d : Db) (reg : Registry) (contextId : String) (p : Period) : List SoldLine :=
  (sold d contextId p).flatMap fun s => s.items.map (soldLine d reg s)

/-! Profit. -/

structure ProfitTotals where
  ingresoMinor : Int
  gananciaMinor : Int
  lineasSinCosto : Nat
  deriving DecidableEq, Repr

/-- One line added to the sums; its amounts must be amounts. -/
def addProfit (sums : Int × Int × Nat) (x : SoldLine) : Except Err (Int × Int × Nat) := do
  let subtotal ← toDinero x.subtotalMinor
  match x.unitCostMinor with
  | none => return (sums.1 + subtotal, sums.2.1, sums.2.2 + 1)
  | some cost =>
    let cost ← toDinero cost
    return (sums.1 + subtotal, sums.2.1 + (subtotal - cost * x.quantity), sums.2.2)

def computeProfitTotals (items : List SoldLine) : Except Err ProfitTotals := do
  let (ingreso, ganancia, lineasSinCosto) ← items.foldlM addProfit (0, 0, 0)
  return ⟨← toMinorUnits ingreso, ← toMinorUnits ganancia, lineasSinCosto⟩

/-! Sales by period and by member. -/

/-- The rows by the value of a column. -/
def groupBy {α K : Type} [DecidableEq K] (by' : α → K) (rows : List α) : Js.Map K (List α) :=
  Js.collect by' (fun _ => []) (fun group x => group ++ [x]) rows

/-- `_sum.totalMinor ?? 0`. -/
def sumTotal (sales : List Sale) : Int := (sales.map fun s => s.totalMinor.getD 0).sum

def paymentMethods : List PaymentMethod := [.efectivo, .transferencia, .tarjeta]

structure DeudaLiquidada where
  id : Uuid
  type : DeudaType
  deudor : Option String
  totalMinor : Int
  saldadaAt : Option Instant
  gananciaMinor : Option Int
  gananciaDisponible : Bool

/-- The profit of a debt, when the cost of its product is known. -/
def gananciaMinor (x : Deuda) : Except Err (Option Int) :=
  match x.unitCostMinor with
  | none => .ok none
  | some cost => do
    let ganancia ← toMinorUnits ((← toDinero x.totalMinor) - (← toDinero cost) * x.cantidad)
    return some ganancia

def deudaLiquidada (d : Db) (x : Deuda) : Except Err DeudaLiquidada := do
  let gananciaMinor ← gananciaMinor x
  return { id := x.id, type := x.type, deudor := (d.deudores.find? x.deudorId).map (·.nombre)
           totalMinor := x.totalMinor, saldadaAt := x.saldadaAt, gananciaMinor
           gananciaDisponible := x.unitCostMinor.isSome }

structure MethodTotal where
  method : PaymentMethod
  ventasMinor : Int
  abonosMinor : Int
  totalMinor : Int
  deriving DecidableEq, Repr

/-- What came in by one payment method. -/
def methodTotal (soldByMethod : Js.Map PaymentMethod (List Sale)) (abonos : List AbonoRow)
    (method : PaymentMethod) : Except Err MethodTotal := do
  let ventasMinor := ((soldByMethod.get method).map sumTotal).getD 0
  let abonosMinor := ((abonos.filter (·.paymentMethod = method)).map (·.montoMinor)).sum
  let totalMinor ← toMinorUnits ((← toDinero ventasMinor) + (← toDinero abonosMinor))
  return ⟨method, ventasMinor, abonosMinor, totalMinor⟩

structure SalesByPeriod where
  period : Period
  totalSoldMinor : Int
  saleCount : Nat
  abonosRecibidos : List AbonoRow
  abonosRecibidosMinor : Int
  deudasLiquidadas : List DeudaLiquidada
  totalIngresadoMinor : Int
  porMetodoPago : List MethodTotal

def salesByPeriod (d : Db) (period : Period) (sales : List Sale) (abonos : List AbonoRow)
    (settled : List Deuda) : Except Err SalesByPeriod := do
  let soldByMethod := groupBy (fun s : Sale => s.paymentMethod) sales
  let abonosRecibidosMinor := (abonos.map (·.montoMinor)).sum
  let deudasLiquidadas ← settled.mapM (deudaLiquidada d)
  let porMetodoPago ← paymentMethods.mapM (methodTotal soldByMethod abonos)
  let totalSoldMinor := (soldByMethod.values.map sumTotal).sum
  let saleCount := (soldByMethod.values.map List.length).sum
  let totalIngresadoMinor ←
    toMinorUnits ((← toDinero totalSoldMinor) + (← toDinero abonosRecibidosMinor))
  return { period, totalSoldMinor, saleCount, abonosRecibidosMinor, deudasLiquidadas
           totalIngresadoMinor, porMetodoPago, abonosRecibidos := abonos }

structure MemberSales where
  memberId : Uuid
  memberName : Option String
  role : Option MemberRole
  totalSoldMinor : Int
  deriving DecidableEq

def salesByMember (d : Db) (reg : Registry) (sales : List Sale) : List MemberSales :=
  let items := (groupBy (fun s : Sale => s.memberId) sales).map fun g =>
    { memberId := g.1, memberName := reg.name g.1
      role := (d.members.find? g.1).map (·.role), totalSoldMinor := sumTotal g.2 : MemberSales }
  items.insertionSort fun a b => b.totalSoldMinor ≤ a.totalSoldMinor

/-! Sales in detail. -/

/-- The sums of one product and one seller. -/
structure Row where
  productId : Uuid
  productName : String
  productBrand : Option String
  productPresentation : Option String
  memberId : Uuid
  memberName : Option String
  units : Int
  ingreso : Int
  costo : Int
  allCosted : Bool
  deriving DecidableEq

def newRow (x : SoldLine) : Row :=
  { productId := x.productId, productName := x.productName, productBrand := x.productBrand
    productPresentation := x.productPresentation, memberId := x.memberId
    memberName := x.memberName, units := 0, ingreso := 0, costo := 0, allCosted := true }

def Row.add (row : Row) (x : SoldLine) : Row :=
  { row with
    units := row.units + x.quantity
    ingreso := row.ingreso + x.subtotalMinor
    costo := row.costo + (x.unitCostMinor.map (· * x.quantity)).getD 0
    allCosted := row.allCosted && x.unitCostMinor.isSome }

/-- The key of a line; no identifier has the colon that joins the two. -/
def SoldLine.key (x : SoldLine) : Uuid × Uuid := (x.productId, x.memberId)

/-- The amounts of a line pass through `toDinero`. -/
def checkLine (x : SoldLine) : Except Err Unit := do
  let _ ← toDinero x.subtotalMinor
  match x.unitCostMinor with
  | none => return ()
  | some cost => do
    let _ ← toDinero cost

def groups (items : List SoldLine) : Except Err (Js.Map (Uuid × Uuid) Row) := do
  items.forM checkLine
  return Js.collect SoldLine.key newRow Row.add items

structure DetailRow where
  productId : Uuid
  productName : String
  productBrand : Option String
  productPresentation : Option String
  memberId : Uuid
  memberName : Option String
  units : Int
  ingresoMinor : Int
  costoMinor : Option Int
  gananciaMinor : Option Int
  gananciaDisponible : Bool
  deriving DecidableEq, Repr

/-- Shown only when every line of the row has a cost. -/
def Row.shown (row : Row) (value : Int) : Except Err (Option Int) :=
  if row.allCosted then (toMinorUnits value).map some else .ok none

def Row.detail (row : Row) : Except Err DetailRow := do
  let ingresoMinor ← toMinorUnits row.ingreso
  let costoMinor ← row.shown row.costo
  let gananciaMinor ← row.shown (row.ingreso - row.costo)
  return { productId := row.productId, productName := row.productName
           productBrand := row.productBrand, productPresentation := row.productPresentation
           memberId := row.memberId, memberName := row.memberName, units := row.units
           ingresoMinor, costoMinor, gananciaMinor, gananciaDisponible := row.allCosted }

/-- Revenue descending, then name, product and seller. -/
def compareRows (host : Host) (a b : DetailRow) : Ordering :=
  (compare b.ingresoMinor a.ingresoMinor).then
    ((host.localeCompare a.productName b.productName).then
      ((host.localeCompare a.productId.text b.productId.text).then
        (host.localeCompare a.memberId.text b.memberId.text)))

structure SalesDetail where
  items : List DetailRow
  total : Nat
  page : Nat
  limit : Nat
  totals : ProfitTotals
  deriving DecidableEq

def salesDetail (host : Host) (saleItems : List SoldLine) (page limit : Nat) :
    Except Err SalesDetail := do
  let rows ← (← groups saleItems).values.mapM Row.detail
  let sorted := rows.insertionSort fun a b => compareRows host a b ≠ .gt
  let totals ← computeProfitTotals saleItems
  return { items := (sorted.drop ((page - 1) * limit)).take limit, total := sorted.length
           page, limit, totals }

/-! Commissions. -/

/-- `multiply` by `rateBps / 10^4`, then back to cents, half a cent up. -/
def commissionMinorFor (totalSoldMinor rateBps : Int) : Except Err Int := do
  let scaled := (← toDinero totalSoldMinor) * rateBps
  toMinorUnits ((2 * scaled + 10000) / 20000)

structure Commission where
  memberId : Uuid
  memberName : Option String
  totalSoldMinor : Int
  rateBps : Int
  commissionMinor : Int
  deriving DecidableEq

/-- The completed sales of one member, whatever their context. -/
def soldBy (d : Db) (memberId : Uuid) (p : Period) : List Sale :=
  d.sales.rows.filter fun s => s.memberId = memberId ∧ s.status = .completada ∧ p.holds s.receivedAt

def commission (d : Db) (reg : Registry) (contextId : String) (p : Period) (m : Member) :
    Except Err Commission := do
  let totalSoldMinor := sumTotal (soldBy d m.id p)
  let rateBps := (reg.commissionRateBps m.id).getD ((reg.defaultCommissionRateBps contextId).getD 0)
  return ⟨m.id, reg.name m.id, totalSoldMinor, rateBps,
    ← commissionMinorFor totalSoldMinor rateBps⟩

/-- The colaboradores of the context, or the one asked for. -/
def colaboradores (d : Db) (contextId : String) (memberId : Option Uuid) : List Member :=
  d.members.rows.filter fun m =>
    m.contextId = contextId ∧ m.role = .colaborador ∧ ∀ id ∈ memberId, m.id = id

def commissions (d : Db) (reg : Registry) (contextId : String) (memberId : Option Uuid) (p : Period)
    (members : List Member) : Except Err (List Commission) :=
  match memberId with
  | some id =>
    if members = [] then
      .error (.notFound s!"Colaborador {id.text} not found in this context")
    else members.mapM (commission d reg contextId p)
  | none => members.mapM (commission d reg contextId p)

/-! The dashboard. -/

structure SalesTotals where
  totalMinor : Int
  count : Nat
  deriving DecidableEq

def salesTotals (sales : List Sale) : SalesTotals := ⟨sumTotal sales, sales.length⟩

/-- The debts still to be paid. -/
def isPending (d : Db) (contextId : String) (x : Deuda) : Bool :=
  x.status = .pendiente ∧ ofContext d contextId x.createdByMemberId

def pendingDebts (d : Db) (contextId : String) : List Deuda :=
  d.deudas.rows.filter (isPending d contextId)

/-- What is left to pay of a debt. -/
def remaining (d : Db) (x : Deuda) : Except Err Int := do
  let paidMinor := ((d.abonos.rows.filter (·.deudaId = x.id)).map (·.montoMinor)).sum
  return (← toDinero x.totalMinor) - (← toDinero paidMinor)

structure LowStock where
  id : Uuid
  name : String
  stock : Int
  category : Option String
  deriving DecidableEq

structure Summary where
  ventasHoy : SalesTotals
  ventasAyer : SalesTotals
  gananciaHoyMinor : Int
  lineasSinCostoHoy : Nat
  incidenciasPendientes : Nat
  deudasTotalMinor : Int
  personas : Nat
  umbral : Int
  totalPocaExistencia : Nat
  productosBajoStock : List LowStock

/-- The active products at or below the threshold. -/
def lowStock (d : Db) (contextId : String) (umbral : Int) : List Product :=
  d.products.rows.filter fun p => p.contextId = contextId ∧ p.active = true ∧ p.stock ≤ umbral

def incidenciasPendientes (d : Db) (reg : Registry) (contextId : String) : Nat :=
  ((d.sales.rows.filter fun s => ofContext d contextId s.memberId).flatMap fun s =>
    s.incidencias.filter fun x => reg.pending x.id).length

def summary (d : Db) (reg : Registry) (contextId : String) (umbral : Int)
    (ventasHoy ventasAyer : List Sale) (todaySaleItems : List SoldLine) (deudas : List Deuda)
    (bajoStock : List Product) : Except Err Summary := do
  let totals ← computeProfitTotals todaySaleItems
  let deudasTotal ← deudas.mapM (remaining d)
  return { ventasHoy := salesTotals ventasHoy, ventasAyer := salesTotals ventasAyer
           gananciaHoyMinor := totals.gananciaMinor, lineasSinCostoHoy := totals.lineasSinCosto
           incidenciasPendientes := incidenciasPendientes d reg contextId
           deudasTotalMinor := ← toMinorUnits deudasTotal.sum
           personas := (deudas.map (·.deudorId)).dedup.length
           umbral, totalPocaExistencia := bajoStock.length
           productosBajoStock := (bajoStock.take 5).map fun p => ⟨p.id, p.name, p.stock, p.category⟩ }

end Bazar.Shop.Reports
