import BazarApi.Common
import BazarApi.Txn.Table

/- The rows of the shop, as `prisma/schema.prisma` declares them, and the request
   bodies of sales, debts and products. A sale carries its items and incidents
   and is written with them in one statement, as Prisma's nested `create` does.
   A request body carries what its DTO validates, so that a service never sees a
   quantity of zero or an amount outside the range. Columns that no service
   modelled here reads or writes are left out. -/
namespace Bazar.Shop

open Txn

/-! Accounts, people and devices. -/

structure Account where
  id : Uuid
  contextId : String
  active : Bool
  deriving DecidableEq, Repr

structure Member where
  id : Uuid
  contextId : String
  role : MemberRole
  active : Bool
  deriving DecidableEq, Repr

structure Device where
  id : Uuid
  contextId : String
  authorized : Bool
  deriving DecidableEq, Repr

/-! Products. -/

inductive ProductType where
  | unica
  | cantidad
  deriving DecidableEq, Repr

structure Product where
  id : Uuid
  name : String
  tipo : ProductType
  unitPriceMinor : Int
  contextId : String
  imagePath : Option String
  initialStock : Int
  stock : Int
  category : Option String
  purchaseCostMinor : Option Int
  supplier : Option String
  notes : Option String
  brand : Option String
  presentation : Option String
  description : Option String
  createdAt : Instant
  active : Bool
  deriving DecidableEq, Repr

/-- What an audit row keeps of a product. -/
structure ProductSnapshot where
  name : String
  tipo : ProductType
  unitPriceMinor : Int
  initialStock : Int
  stock : Int
  imagePath : Option String
  category : Option String
  purchaseCostMinor : Option Int
  supplier : Option String
  notes : Option String
  brand : Option String
  presentation : Option String
  description : Option String
  deriving DecidableEq, Repr

structure ProductAudit where
  id : Uuid
  productId : Uuid
  memberId : Uuid
  contextId : String
  changedAt : Instant
  oldUnitPriceMinor : Option Int
  newUnitPriceMinor : Int
  before : Option ProductSnapshot
  after : ProductSnapshot
  deriving DecidableEq, Repr

/-- The only type is `REPOSICION`, so the column is left out. -/
structure StockMovement where
  id : Uuid
  contextId : String
  productId : Uuid
  memberId : Uuid
  quantity : Int
  stockBefore : Int
  stockAfter : Int
  unitCostMinor : Option Int
  note : Option String
  createdAt : Instant
  deriving DecidableEq, Repr

/-! Sales. -/

inductive SaleStatus where
  | completada
  | rechazadaPorConflicto
  deriving DecidableEq, Repr

inductive IncidenciaType where
  | conflictoStock
  | incidenciaFecha
  deriving DecidableEq, Repr

structure SaleItem where
  id : Uuid
  saleId : Uuid
  productId : Uuid
  contextId : String
  quantity : Int
  unitPriceMinor : Int
  subtotalMinor : Int
  unitCostMinor : Option Int
  createdAt : Instant
  deriving DecidableEq, Repr

structure Incidencia where
  id : Uuid
  saleId : Uuid
  contextId : String
  type : IncidenciaType
  reason : String
  detectedAt : Instant
  deriving DecidableEq, Repr

/-- The columns of a sale. -/
structure SaleHeader where
  id : Uuid
  memberId : Uuid
  deviceId : Uuid
  contextId : String
  occurredAt : Instant
  receivedAt : Instant
  currency : String
  status : SaleStatus
  totalMinor : Option Int
  paymentMethod : PaymentMethod
  cashReceivedMinor : Option Int
  requestFingerprint : Option String
  changeMinor : Option Int
  conflictReason : Option String
  conflictDetectedAt : Option Instant
  deriving DecidableEq, Repr

/-- A sale with the rows nested in it. -/
structure Sale extends SaleHeader where
  items : List SaleItem
  incidencias : List Incidencia
  deriving DecidableEq, Repr

/-! Debts. -/

inductive DeudaType where
  | fiado
  | apartado
  deriving DecidableEq, Repr

def DeudaType.text : DeudaType → String
  | .fiado => "fiado"
  | .apartado => "apartado"

inductive DeudaStatus where
  | pendiente
  | saldada
  deriving DecidableEq, Repr

structure Deudor where
  id : Uuid
  nombre : String
  telefono : Option String
  notas : Option String
  contextId : String
  createdAt : Instant
  deriving DecidableEq, Repr

structure Abono where
  id : Uuid
  deudaId : Uuid
  contextId : String
  montoMinor : Int
  receivedByMemberId : Uuid
  receivedAt : Instant
  nota : Option String
  paymentMethod : PaymentMethod
  deriving DecidableEq, Repr

structure CuotaPlaneada where
  id : Uuid
  deudaId : Uuid
  contextId : String
  fechaEsperada : Day
  montoEsperadoMinor : Int
  createdAt : Instant
  deriving DecidableEq, Repr

/-- The columns of a debt that its responses show. -/
structure DeudaHeader where
  id : Uuid
  type : DeudaType
  deudorId : Uuid
  productId : Uuid
  contextId : String
  cantidad : Int
  totalMinor : Int
  status : DeudaStatus
  unitCostMinor : Option Int
  saldadaAt : Option Instant
  createdByMemberId : Uuid
  createdAt : Instant
  deriving DecidableEq, Repr

/-- A debt as a creation answers it, and as `creationResponse` freezes it. -/
structure DeudaResponse extends DeudaHeader where
  abonos : List Abono
  cuotasPlaneadas : List CuotaPlaneada
  deriving DecidableEq, Repr

structure Deuda extends DeudaHeader where
  requestFingerprint : Option String
  creationResponse : Option DeudaResponse
  deriving DecidableEq, Repr

/-! Primary keys. -/

instance : Keyed Account Uuid := ⟨Account.id⟩
instance : Keyed Member Uuid := ⟨Member.id⟩
instance : Keyed Device Uuid := ⟨Device.id⟩
instance : Keyed Product Uuid := ⟨Product.id⟩
instance : Keyed ProductAudit Uuid := ⟨ProductAudit.id⟩
instance : Keyed StockMovement Uuid := ⟨StockMovement.id⟩
instance : Keyed Sale Uuid := ⟨fun s => s.id⟩
instance : Keyed Deudor Uuid := ⟨Deudor.id⟩
instance : Keyed Deuda Uuid := ⟨fun d => d.id⟩
instance : Keyed Abono Uuid := ⟨Abono.id⟩
instance : Keyed CuotaPlaneada Uuid := ⟨CuotaPlaneada.id⟩

/-! Request bodies. -/

/-- The largest quantity of one line. -/
def maxItemQuantity : Int := 100000

/-- `IsInt`, `Min(1)`, `Max(MAX_ITEM_QUANTITY)`. -/
structure ItemQuantity where
  val : Int
  pos : 1 ≤ val
  le : val ≤ maxItemQuantity
  deriving DecidableEq

/-- `IsInt`, `Min(0)`, `Max(MAX_MINOR_UNITS)`. -/
structure Amount where
  val : Int
  nonneg : 0 ≤ val
  le : val ≤ maxMinorUnits
  deriving DecidableEq

/-- `IsInt`, `Min(1)`, `Max(MAX_MINOR_UNITS)`. -/
structure PositiveAmount where
  val : Int
  pos : 1 ≤ val
  le : val ≤ maxMinorUnits
  deriving DecidableEq

structure CreateSaleItemDto where
  productId : String
  quantity : ItemQuantity
  deriving DecidableEq

/-- `CashReceivedMatchesMethod`. -/
def cashReceivedMatchesMethod (paymentMethod : Option PaymentMethod)
    (cashReceivedMinor : Option Int) : Prop :=
  if isCashPayment paymentMethod then
    ∃ v, cashReceivedMinor = some v ∧ 0 ≤ v ∧ v ≤ maxMinorUnits
  else cashReceivedMinor = none

/-- `occurredAt` is what `new Date` makes of the text; `none` is an invalid date. -/
structure CreateSaleDto where
  id : String
  memberId : String
  deviceId : String
  occurredAt : Option Instant
  currency : String
  items : List CreateSaleItemDto
  paymentMethod : Option PaymentMethod
  cashReceivedMinor : Option Int
  mxn : currency = "MXN"
  nonempty : items ≠ []
  size : items.length ≤ 500
  cash : cashReceivedMatchesMethod paymentMethod cashReceivedMinor

structure DeudorInputDto where
  nombre : String
  telefono : Option String
  notas : Option String
  deriving DecidableEq

structure CuotaPlaneadaInputDto where
  fechaEsperada : Day
  montoEsperadoMinor : PositiveAmount
  deriving DecidableEq

structure CreateDeudaDto where
  id : Option String
  type : DeudaType
  productId : String
  cantidad : ItemQuantity
  deudorId : Option String
  deudor : Option DeudorInputDto
  abonoInicialMinor : Amount
  abonoInicialPaymentMethod : Option PaymentMethod
  cuotasPlaneadas : List CuotaPlaneadaInputDto
  deriving DecidableEq

structure CreateAbonoDto where
  montoMinor : PositiveAmount
  nota : Option String
  paymentMethod : Option PaymentMethod
  deriving DecidableEq

structure UpdateCuotaDto where
  fechaEsperada : Option Day
  montoEsperadoMinor : Option PositiveAmount
  deriving DecidableEq

/-- The optional texts and the cost of a product; in a change, `none` leaves the
column alone and `some none` clears it. -/
structure CreateProductDto where
  name : String
  tipo : ProductType
  unitPriceMinor : Amount
  initialStock : Option Amount
  category : Option String
  purchaseCostMinor : Amount
  supplier : Option String
  notes : Option String
  brand : Option String
  presentation : Option String
  description : Option String
  stocked : tipo = .cantidad → initialStock.isSome

structure PatchProductDto where
  name : Option String
  unitPriceMinor : Option Amount
  category : Option (Option String)
  purchaseCostMinor : Option (Option Amount)
  supplier : Option (Option String)
  notes : Option (Option String)
  brand : Option (Option String)
  presentation : Option (Option String)
  description : Option (Option String)
  deriving DecidableEq

structure RestockProductDto where
  quantity : PositiveAmount
  unitCostMinor : Option Amount
  note : Option String
  deriving DecidableEq

end Bazar.Shop
