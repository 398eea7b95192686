import Mathlib.Data.List.Sort
import BazarApi.Txn.Program

/- What every service shares: identifiers, money, payment methods, the acting
   account, the errors a request can end with, and the host functions that live
   outside the repository (hashing, text collation, number formatting).

   Amounts are integers of cents. `toDinero` and `toMinorUnits` are the two range
   checks of `common/money.ts`; what lies between them is exact integer
   arithmetic, since no intermediate amount leaves the safe integers of a double.

   Correspondence (TypeScript ↔ Lean):
     `common/money.ts`            ↔ `maxMinorUnits`, `toDinero`, `toMinorUnits`
     `common/payment-method.ts`   ↔ `resolvePaymentMethod`, `isCashPayment`
     `auth/auth.guard.ts` `Actor` ↔ `Actor`
     Nest and Prisma exceptions   ↔ `Err` -/
namespace Bazar

/-- An identifier as PostgreSQL stores it. -/
structure Uuid where
  text : String
  deriving DecidableEq, Repr

/-- A text read as a `uuid`: the letter case does not matter. -/
def uuid (s : String) : Uuid := ⟨String.ofList (s.toList.map Char.toLower)⟩

/-- Milliseconds since the epoch. -/
abbrev Instant := Int

/-- A calendar day, `YYYY-MM-DD`: `new Date` makes it UTC midnight and the first
ten characters of the ISO text give it back. -/
abbrev Day := String

/-- A value handed to `JSON.stringify`; `iso` is the ISO text of an instant. A key
whose value is `undefined` is not listed. -/
inductive Json where
  | null
  | num (n : Int)
  | str (s : String)
  | iso (t : Instant)
  | arr (xs : List Json)
  | obj (fields : List (String × Json))

/-- An optional value, `null` when absent. -/
def Json.opt {α : Type} (f : α → Json) : Option α → Json
  | some a => f a
  | none => .null

/-- The host functions the services call. -/
structure Host where
  /-- `createHash('sha256').update(JSON.stringify(x)).digest('hex')`. -/
  sha256 : Json → String
  localeCompare : String → String → Ordering
  /-- A span of milliseconds as days, `toFixed(1)`. -/
  daysText : Int → String

/-- What one request draws from its surroundings: the identifiers `createServerId`
returns and the instants its clock and the database's show, in the order asked. -/
structure Env where
  serverId : Nat → Uuid
  now : Nat → Instant

/-! Errors. -/

/-- The tables of the schema, by their primary key constraint. -/
inductive TableName where
  | account | member | device
  | product | productAudit | stockMovement
  | sale
  | deudor | deuda | abono | cuotaPlaneada
  deriving DecidableEq, Repr

/-- What ends a request or a transaction with an error. -/
inductive Err where
  | badRequest (message : String)
  | forbidden (message : String)
  | notFound (message : String)
  | conflict (message : String)
  | saleStockConflict (message : String)
  | unauthorized
  | badGateway (message : String)
  | serviceUnavailable (message : String)
  | emailNotSent (message : String)
  /-- The ones that carry a code of their own, and figures. -/
  | unprocessable (code message : String) (details : List (String × Int))
  | conflictWith (code message : String) (details : List (String × String))
  | serviceUnavailableWith (code message : String)
  | badRequestWith (code message : String)
  | forbiddenWith (code message : String)
  | notFoundWith (code message : String)
  | tooManyRequests (code message : String)
  | uniqueViolation (table : TableName)
  | uniqueIndex (index : String)
  | recordNotFound
  | rangeError (message : String)
  | internal (message : String)
  | database (message : String)
  deriving DecidableEq, Repr

/-- The HTTP status of the answer; what is not an HTTP exception is answered 500. -/
def Err.status : Err → Nat
  | .badRequest _ => 400
  | .badRequestWith _ _ => 400
  | .unauthorized => 401
  | .forbidden _ => 403
  | .notFound _ => 404
  | .conflict _ => 409
  | .conflictWith _ _ _ => 409
  | .unprocessable _ _ _ => 422
  | .badGateway _ => 502
  | .serviceUnavailable _ => 503
  | .serviceUnavailableWith _ _ => 503
  | .forbiddenWith _ _ => 403
  | .notFoundWith _ _ => 404
  | .tooManyRequests _ _ => 429
  | _ => 500

/-- What the database may raise by itself. -/
def Err.spontaneous : Err → Prop
  | .database _ => True
  | _ => False

/-! Money. -/

def maxMinorUnits : Int := 2147483647

def assertMinorUnits (amount : Int) : Except Err Int :=
  if -2147483648 ≤ amount ∧ amount ≤ maxMinorUnits then .ok amount
  else .error (.rangeError "Amount must be integer cents within the PostgreSQL Int range")

/-- An amount that may enter a calculation. -/
def toDinero (amount : Int) : Except Err Int := assertMinorUnits amount

/-- The amount a calculation ends with. -/
def toMinorUnits (value : Int) : Except Err Int := assertMinorUnits value

theorem assertMinorUnits_ok {a b : Int} :
    assertMinorUnits a = .ok b ↔ b = a ∧ -2147483648 ≤ a ∧ a ≤ maxMinorUnits := by
  unfold assertMinorUnits
  split
  · rename_i h
    constructor
    · intro he
      cases he
      exact ⟨rfl, h⟩
    · rintro ⟨rfl, -⟩
      rfl
  · rename_i h
    constructor
    · intro he
      cases he
    · intro he
      exact absurd he.2 h

/-- Where the error of a sequence comes from. -/
theorem error_of_bind {ε α β : Type} {x : Except ε α} {f : α → Except ε β} {e : ε}
    (h : x >>= f = .error e) : x = .error e ∨ ∃ a, f a = .error e := by
  cases x with
  | error e' =>
    cases h
    exact .inl rfl
  | ok a => exact .inr ⟨a, h⟩

theorem ok_of_bind {ε α β : Type} {x : Except ε α} {f : α → Except ε β} {b : β}
    (h : x >>= f = .ok b) : ∃ a, x = .ok a ∧ f a = .ok b := by
  cases x with
  | error e => cases h
  | ok a => exact ⟨a, rfl, h⟩

theorem mapM_ok {ε α β : Type} {f : α → Except ε β} {xs : List α} {ys : List β}
    (h : xs.mapM f = .ok ys) : List.Forall₂ (fun x y => f x = .ok y) xs ys := by
  induction xs generalizing ys with
  | nil =>
    cases h
    exact .nil
  | cons x xs ih =>
    rw [List.mapM_cons] at h
    obtain ⟨y, hy, h⟩ := ok_of_bind h
    obtain ⟨ys', hys, h⟩ := ok_of_bind h
    cases h
    exact .cons hy (ih hys)

theorem assertMinorUnits_error {a : Int} {e : Err} (h : assertMinorUnits a = .error e) :
    ∃ m, e = .rangeError m := by
  unfold assertMinorUnits at h
  split at h
  · cases h
  · cases h
    exact ⟨_, rfl⟩

/-! Payment methods. -/

inductive PaymentMethod where
  | efectivo
  | transferencia
  | tarjeta
  deriving DecidableEq, Repr

def PaymentMethod.text : PaymentMethod → String
  | .efectivo => "EFECTIVO"
  | .transferencia => "TRANSFERENCIA"
  | .tarjeta => "TARJETA"

/-- What an absent method means. -/
def defaultPaymentMethod : PaymentMethod := .efectivo

def resolvePaymentMethod (method : Option PaymentMethod) : PaymentMethod :=
  method.getD defaultPaymentMethod

/-- Only cash involves cash received and change. -/
def isCashPayment (method : Option PaymentMethod) : Bool :=
  resolvePaymentMethod method = .efectivo

/-! The acting account. -/

inductive MemberRole where
  | socio
  | colaborador
  deriving DecidableEq, Repr

/-- The account of the session. -/
structure AccountRef where
  id : String
  contextId : String
  deriving DecidableEq, Repr

/-- The person and the device a request acts with. -/
structure Selection where
  memberId : String
  deviceId : String
  deriving DecidableEq, Repr

structure Actor where
  account : AccountRef
  selection : Option Selection
  deriving DecidableEq, Repr

end Bazar
