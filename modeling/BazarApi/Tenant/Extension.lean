import Mathlib.Data.List.Basic

/- The tenant extension of the Prisma client (`database/tenant.extension.ts`,
   `database/tenant-context.ts`): every operation on a model of a business is rewritten for
   the active tenant before the client runs it.

   Correspondence (TypeScript ↔ Lean):
     `{ a, ...b, c }`                      ↔ appended assignments, the last of a key wins
     `TENANT_SCOPED_MODELS`                ↔ `tenantScopedModels`
     `WHERE_OPERATIONS`                    ↔ `whereOperations`
     `explicitContextId`, `injectArgs`     ↔ `explicitContextId`, `injectArgs`
     `resolveTenantAccess`                 ↔ `resolveTenantAccess`
     `$allOperations`                      ↔ `allOperations`

   What the client is sent is recorded in order, `set_config` included. -/
namespace Bazar.Tenant

/-! Values of the language. -/

inductive Value where
  | undefined
  | null
  | str (s : String)
  /-- A number, a boolean or any other value without properties, and whether it counts as true. -/
  | atom (n : Nat) (truthy : Bool)
  | arr (items : List Value)
  /-- The assignments that made the object; a later one of the same key wins. -/
  | obj (fields : List (String × Value))

namespace Value

/-- What a spread copies: the own properties. -/
def entries : Value → List (String × Value)
  | .obj fields => fields
  | .arr items => items.zipIdx.map fun p => (toString p.2, p.1)
  | .str s => s.toList.zipIdx.map fun p => (toString p.2, .str p.1.toString)
  | _ => []

/-- The value assigned last to a key. -/
def lookup (key : String) (fields : List (String × Value)) : Option Value :=
  (fields.reverse.find? fun p => p.1 = key).map Prod.snd

/-- `value[key]`, or `undefined`. -/
def get (key : String) (v : Value) : Value := (lookup key v.entries).getD .undefined

/-- `value ?? {}`. -/
def orEmpty : Value → Value
  | .undefined => .obj []
  | .null => .obj []
  | v => v

/-- What `if (value)` lets through. -/
def truthy : Value → Bool
  | .undefined => false
  | .null => false
  | .str s => s ≠ ""
  | .atom _ truthy => truthy
  | .arr _ => true
  | .obj _ => true

/-- `Array.isArray(data) ? data : [data]`. -/
def toRows : Value → List Value
  | .arr items => items
  | v => [v]

end Value

/-! Models and operations. -/

inductive Model where
  | Account | BusinessRegistrationRequest
  | DistributionAgreement | DistributionAgreementParticipant | DistributionAgreementReversal
  | DistributionAgreementCounter | DistributionPayment | DistributionPaymentReversal
  | FinanceReserve | FinanceReserveReversal | FinanceRuleSet | FinanceRuleApproval
  | FinanceRuleReminder | FinanceRuleLink | FinanceRuleObjection | MemberEmailConfirmation
  | AccountInvitation | Contribution | ContributionReversal | Expense | ExpenseReversal
  | WorkShift | WorkShiftReversal | Product | ProductAudit | StockMovement | Sale | SaleItem
  | Incidencia | Deudor | Deuda | Abono | CuotaPlaneada | AppSettings | Member | Device
  deriving DecidableEq, Repr

def tenantScopedModels : List Model :=
  [.DistributionAgreement, .DistributionAgreementParticipant, .DistributionAgreementReversal,
    .DistributionAgreementCounter, .DistributionPayment, .DistributionPaymentReversal,
    .FinanceReserve, .FinanceReserveReversal, .FinanceRuleSet, .FinanceRuleApproval,
    .FinanceRuleReminder, .FinanceRuleLink, .FinanceRuleObjection, .MemberEmailConfirmation,
    .AccountInvitation, .Contribution, .ContributionReversal, .Expense, .ExpenseReversal,
    .WorkShift, .WorkShiftReversal, .Product, .ProductAudit, .StockMovement, .Sale, .SaleItem,
    .Incidencia, .Deudor, .Deuda, .Abono, .CuotaPlaneada, .AppSettings, .Member, .Device]

/-- `@default` of a model's `contextId`, in `prisma/schema.prisma`. -/
def Model.defaultContextId : Model → Option String
  | .Member | .Device | .Product | .ProductAudit | .Sale | .SaleItem | .Incidencia | .Deudor
  | .Deuda | .Abono | .CuotaPlaneada => some "legacy-unassigned"
  | _ => none

/-- The operations the client has on a model. -/
inductive Operation where
  | findUnique | findUniqueOrThrow | findFirst | findFirstOrThrow | findMany
  | create | createMany | createManyAndReturn
  | update | updateMany | updateManyAndReturn
  | upsert | delete | deleteMany
  | count | aggregate | groupBy
  deriving DecidableEq, Repr

def whereOperations : List Operation :=
  [.findMany, .findFirst, .findFirstOrThrow, .findUnique, .findUniqueOrThrow, .count, .aggregate,
    .groupBy, .update, .updateMany, .delete, .deleteMany, .upsert]

/-! The tenant of a request. -/

structure TenantStore where
  contextId : Option String

/-- The tenant a guard resolved; an empty one counts as none. -/
def activeContextId (store : Option TenantStore) : Option String :=
  (store.bind TenantStore.contextId).filter (· ≠ "")

inductive Access where
  | passthrough
  | enforce (contextId : Value)

/-- `No tenant context established for …; refusing to run without one`. -/
inductive Refusal where
  | noTenantContext (model : Model) (operation : Operation)
  deriving DecidableEq, Repr

def resolveTenantAccess (store : Option TenantStore) (model : Model) (operation : Operation)
    (explicitContextId : Value) : Except Refusal Access :=
  if store.isNone then .ok .passthrough
  else match activeContextId store with
    | some active => .ok (.enforce (.str active))
    | none =>
      if explicitContextId.truthy then .ok (.enforce explicitContextId)
      else .error (.noTenantContext model operation)

/-! Rewriting. -/

def explicitContextId (operation : Operation) (args : Value) : Value :=
  let a := args.orEmpty
  match operation with
  | .create => (a.get "data").get "contextId"
  | .createMany => ((a.get "data").toRows.headD .undefined).get "contextId"
  | _ => (a.get "where").get "contextId"

/-- `{ contextId, ...row }`. -/
def withContextId (contextId : Value) (row : Value) : Value :=
  .obj (("contextId", contextId) :: row.entries)

/-- `{ ...value, key: v }`. -/
def Value.set (value : Value) (key : String) (v : Value) : Value :=
  .obj (value.entries ++ [(key, v)])

def injectArgs (operation : Operation) (args : Value) (contextId : Value) : Value :=
  let a := args.orEmpty
  if operation = .create then a.set "data" (withContextId contextId (a.get "data"))
  else if operation = .createMany then
    a.set "data" (.arr ((a.get "data").toRows.map (withContextId contextId)))
  else if operation ∈ whereOperations then
    let patched := a.set "where" ((a.get "where").set "contextId" contextId)
    if operation = .upsert then patched.set "create" (withContextId contextId (a.get "create"))
    else patched
  else a

/-! Running an operation. -/

/-- What the extension sends to the client. -/
inductive Sent where
  | setConfig (contextId : String)
  | query (model : Model) (operation : Operation) (args : Value)

/-- The transaction the extension opens for a call outside any. -/
def runManagedTransaction (store : Option TenantStore) (fn : Except Refusal (List Sent)) :
    Except Refusal (List Sent) :=
  fn.map fun sent => (activeContextId store).toList.map .setConfig ++ sent

/-- The body of `$allOperations`; `run` tells what is done with the rewritten arguments. -/
def rewriting (store : Option TenantStore) (model : Model) (operation : Operation) (args : Value)
    (run : Value → Except Refusal (List Sent)) : Except Refusal (List Sent) :=
  if model ∉ tenantScopedModels then .ok [.query model operation args]
  else do
    match ← resolveTenantAccess store model operation (explicitContextId operation args) with
    | .passthrough => .ok [.query model operation args]
    | .enforce contextId => run (injectArgs operation args contextId)

/-- A call made inside a managed transaction. -/
def insideTransaction (store : Option TenantStore) (model : Model) (operation : Operation)
    (args : Value) : Except Refusal (List Sent) :=
  rewriting store model operation args fun patched => .ok [.query model operation patched]

/-- Any call: outside a transaction the original arguments are run again inside one. -/
def allOperations (store : Option TenantStore) (inside : Bool) (model : Model)
    (operation : Operation) (args : Value) : Except Refusal (List Sent) :=
  if inside then insideTransaction store model operation args
  else rewriting store model operation args fun _ =>
    runManagedTransaction store (insideTransaction store model operation args)

end Bazar.Tenant
