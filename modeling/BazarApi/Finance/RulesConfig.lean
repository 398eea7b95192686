import Mathlib.Data.Rat.Floor
import BazarApi.Json.Parse
import BazarApi.Common

/- The rules of the profit sharing as the parser reads them (`finance/finance-rules.config.ts`).
   Numbers are exact rationals. A reader answers a value or the errors it found, never
   neither (`Read.Sound`), so that the parser answers a configuration exactly when no reader
   complained.

   Correspondence (TypeScript ↔ Lean):
     `hundredths`, `isPct`, `isMinor`, `oneOf`   ↔ `hundredths`, `pctOf`, `minorOf`, `choiceOf`
     `Reader`, its methods                       ↔ `Reader`, the same names
     `parseRulesConfig`, section by section      ↔ `parseRulesConfig`, `profitBaseOf`, …
     `raw[key]`, `undefined` where it is missing ↔ `get`, `none` -/
open Json

namespace Bazar.Finance.Rules

/-! Configurations. -/

inductive BusinessPhase where
  | arranque
  | operacion
  | cierre
  deriving DecidableEq, Repr

inductive RecoveryMode where
  | ninguna
  | porDiferencia
  | total
  | proporcional
  deriving DecidableEq, Repr

inductive RecoveryTiming where
  | durante
  | alCierre
  deriving DecidableEq, Repr

inductive WorkOrder where
  | antes
  | despues
  deriving DecidableEq, Repr

inductive PartnerExpenseMode where
  | noReembolsar
  | reembolsar
  | contarComoAportacion
  deriving DecidableEq, Repr

def BusinessPhase.text : BusinessPhase → String
  | .arranque => "arranque"
  | .operacion => "operacion"
  | .cierre => "cierre"

def RecoveryMode.text : RecoveryMode → String
  | .ninguna => "ninguna"
  | .porDiferencia => "por_diferencia"
  | .total => "total"
  | .proporcional => "proporcional"

def RecoveryTiming.text : RecoveryTiming → String
  | .durante => "durante"
  | .alCierre => "al_cierre"

def WorkOrder.text : WorkOrder → String
  | .antes => "antes"
  | .despues => "despues"

def PartnerExpenseMode.text : PartnerExpenseMode → String
  | .noReembolsar => "no_reembolsar"
  | .reembolsar => "reembolsar"
  | .contarComoAportacion => "contar_como_aportacion"

def businessPhases : List BusinessPhase := [.arranque, .operacion, .cierre]

def recoveryModes : List RecoveryMode := [.ninguna, .porDiferencia, .total, .proporcional]

def recoveryTimings : List RecoveryTiming := [.durante, .alCierre]

def workOrders : List WorkOrder := [.antes, .despues]

def partnerExpenseModes : List PartnerExpenseMode :=
  [.noReembolsar, .reembolsar, .contarComoAportacion]

structure ProfitBase where
  partnerPct : ℚ
  capitalPct : ℚ
  workPct : ℚ
  deriving DecidableEq

structure Reinvestment where
  currentPhase : BusinessPhase
  arranquePct : ℚ
  operacionPct : ℚ
  cierrePct : ℚ
  untilAmountMinor : Option Int
  deriving DecidableEq

structure CapitalRecovery where
  mode : RecoveryMode
  timing : RecoveryTiming
  deriving DecidableEq

inductive Pay where
  | porHora (rateMinorPerHour : Int)
  | porcentaje (pct : ℚ)
  deriving DecidableEq

structure Work where
  payHours : Bool
  order : WorkOrder
  pay : Pay
  deriving DecidableEq

inductive Reserves where
  | porcentaje (pct : ℚ)
  | monto (amountMinor : Int)
  deriving DecidableEq

structure PartnerLoans where
  repayBeforeCapital : Bool
  deriving DecidableEq

/-- The version of the schema is always 1. -/
structure FinanceRulesConfig where
  profitBase : ProfitBase
  reinvestment : Reinvestment
  capitalRecovery : CapitalRecovery
  work : Work
  partnerExpenses : PartnerExpenseMode
  reserves : Reserves
  partnerLoans : PartnerLoans
  deriving DecidableEq

/-! Values. -/

/-- A JSON value, its numbers exact. -/
abbrev Raw := Json.Tree ℚ

abbrev Fields := List (JsString × Raw)

def get (raw : Fields) (key : String) : Option Raw := (Json.Tree.obj raw).get? (text key)

/-- `Math.round(pct * 100)`. -/
def hundredths (pct : ℚ) : Int := ⌊pct * 100 + 1 / 2⌋

/-- `isPct` of a number. -/
def IsPct (value : ℚ) : Prop :=
  0 ≤ value ∧ value ≤ 100 ∧ |value * 100 - hundredths value| < 1 / 1000000

instance (value : ℚ) : Decidable (IsPct value) := inferInstanceAs (Decidable (_ ∧ _ ∧ _))

def pctOf : Raw → Option ℚ
  | .num value => if IsPct value then some value else none
  | _ => none

/-- `isMinor`. -/
def minorOf : Raw → Option Int
  | .num value =>
    if value.den = 1 ∧ 0 ≤ value.num ∧ value.num ≤ maxMinorUnits then some value.num else none
  | _ => none

def boolOf : Raw → Option Bool
  | .bool b => some b
  | _ => none

/-- `oneOf`. -/
def choiceOf {α : Type} (list : List α) (name : α → String) : Raw → Option α
  | .str s => list.find? fun a => text (name a) = s
  | _ => none

def objectOf : Raw → Option Fields
  | .obj fields => some fields
  | _ => none

/-! Readers. -/

/-- What was read, and the errors found. -/
structure Read (α : Type) where
  value : Option α
  errors : List JsString

structure Reader where
  path : JsString
  raw : Option Fields

namespace Reader
variable (r : Reader)

def atKey (key : JsString) : JsString := if r.path = [] then key else r.path ++ text "." ++ key

def fail (key : JsString) (message : String) : JsString := r.atKey key ++ text ": " ++ text message

/-- What the constructor complains of. -/
def unknown (allowed : List String) : List JsString :=
  ((r.raw.getD []).filter fun f => f.1 ∉ allowed.map text).map fun f => r.fail f.1 "no está permitido"

/-- The value of a key, as `read` takes it. -/
def need {α : Type} (key : String) (read : Raw → Option α) (message : String) : Read α :=
  match r.raw.bind fun raw => (get raw key).bind read with
  | some a => ⟨some a, []⟩
  | none => ⟨none, [r.fail (text key) message]⟩

def pct (key : String) : Read ℚ :=
  r.need key pctOf "debe ser un número de 0 a 100 con máximo 2 decimales"

def minor (key : String) : Read Int :=
  r.need key minorOf s!"debe ser un número entero de 0 a {maxMinorUnits}"

def bool (key : String) : Read Bool := r.need key boolOf "debe ser verdadero o falso"

def choice {α : Type} (key : String) (list : List α) (name : α → String) : Read α :=
  r.need key (choiceOf list name) ("debe ser uno de: " ++ ", ".intercalate (list.map name))

def object (key : String) : Read Fields := r.need key objectOf "debe ser un objeto"

end Reader

/-! The parser. -/

/-- `formatPct`: at most two decimals, no zeros at the end. -/
def formatPct (totalHundredths : Int) : String :=
  let whole := toString (totalHundredths / 100)
  let cents := totalHundredths % 100
  if cents = 0 then whole
  else if cents % 10 = 0 then whole ++ "." ++ toString (cents / 10)
  else whole ++ "." ++ toString (cents / 10) ++ toString (cents % 10)

/-- The complaint about three shares that were read. -/
def totalErrors (partnerPct capitalPct workPct : Option ℚ) : List JsString :=
  match partnerPct, capitalPct, workPct with
  | some partner, some capital, some work =>
    let total := hundredths partner + hundredths capital + hundredths work
    if total ≠ 10000 then
      [text s!"profitBase: partnerPct, capitalPct y workPct deben sumar 100 (hoy suman {formatPct total})"]
    else []
  | _, _, _ => []

def profitBaseOf (root : Reader) : Read ProfitBase :=
  let baseRaw := root.object "profitBase"
  let base : Reader := ⟨text "profitBase", baseRaw.value⟩
  let partnerPct := base.pct "partnerPct"
  let capitalPct := base.pct "capitalPct"
  let workPct := base.pct "workPct"
  { value := do return ⟨← partnerPct.value, ← capitalPct.value, ← workPct.value⟩
    errors := baseRaw.errors ++ base.unknown ["partnerPct", "capitalPct", "workPct"] ++
      partnerPct.errors ++ capitalPct.errors ++ workPct.errors ++
      totalErrors partnerPct.value capitalPct.value workPct.value }

/-- `null` is no ceiling; a missing key is a mistake. -/
def untilOf (reinv : Reader) : Read (Option Int) :=
  match reinv.raw with
  | none => ⟨some none, []⟩
  | some raw =>
    match get raw "untilAmountMinor" with
    | some .null => ⟨some none, []⟩
    | _ =>
      let amount := reinv.minor "untilAmountMinor"
      ⟨amount.value.map some, amount.errors⟩

def reinvestmentOf (root : Reader) : Read Reinvestment :=
  let reinvRaw := root.object "reinvestment"
  let reinv : Reader := ⟨text "reinvestment", reinvRaw.value⟩
  let currentPhase := reinv.choice "currentPhase" businessPhases BusinessPhase.text
  let arranquePct := reinv.pct "arranquePct"
  let operacionPct := reinv.pct "operacionPct"
  let cierrePct := reinv.pct "cierrePct"
  let untilAmountMinor := untilOf reinv
  { value := do
      return ⟨← currentPhase.value, ← arranquePct.value, ← operacionPct.value, ← cierrePct.value,
        ← untilAmountMinor.value⟩
    errors := reinvRaw.errors ++
      reinv.unknown ["currentPhase", "arranquePct", "operacionPct", "cierrePct", "untilAmountMinor"] ++
      currentPhase.errors ++ arranquePct.errors ++ operacionPct.errors ++ cierrePct.errors ++
      untilAmountMinor.errors }

def capitalRecoveryOf (root : Reader) : Read CapitalRecovery :=
  let recRaw := root.object "capitalRecovery"
  let recovery : Reader := ⟨text "capitalRecovery", recRaw.value⟩
  let mode := recovery.choice "mode" recoveryModes RecoveryMode.text
  let timing := recovery.choice "timing" recoveryTimings RecoveryTiming.text
  { value := do return ⟨← mode.value, ← timing.value⟩
    errors := recRaw.errors ++ recovery.unknown ["mode", "timing"] ++ mode.errors ++ timing.errors }

/-- `payRaw.kind === name`. -/
def kindIs (raw : Fields) (name : String) : Bool :=
  match get raw "kind" with
  | some (.str s) => s = text name
  | _ => false

/-- An object whose `kind` selects what else it has. -/
def variantOf {α : Type} (path : String) (raw : Fields) (first second : String)
    (firstKey secondKey : String) (readFirst readSecond : Reader → Read α) : Read α :=
  let r : Reader := ⟨text path, some raw⟩
  if kindIs raw first then
    let x := readFirst r
    ⟨x.value, r.unknown ["kind", firstKey] ++ x.errors⟩
  else if kindIs raw second then
    let x := readSecond r
    ⟨x.value, r.unknown ["kind", secondKey] ++ x.errors⟩
  else
    ⟨none, r.unknown ["kind"] ++ [r.fail (text "kind") ("debe ser uno de: " ++ first ++ ", " ++ second)]⟩

def Read.map {α β : Type} (f : α → β) (x : Read α) : Read β := ⟨x.value.map f, x.errors⟩

def payOf (payRaw : Fields) : Read Pay :=
  variantOf "work.pay" payRaw "por_hora" "porcentaje" "rateMinorPerHour" "pct"
    (fun r => (r.minor "rateMinorPerHour").map .porHora) (fun r => (r.pct "pct").map .porcentaje)

def workOf (root : Reader) : Read Work :=
  let workRaw := root.object "work"
  let work : Reader := ⟨text "work", workRaw.value⟩
  let payHours := work.bool "payHours"
  let order := work.choice "order" workOrders WorkOrder.text
  let payRaw := work.object "pay"
  let pay : Read Pay :=
    match payRaw.value with
    | none => ⟨none, []⟩
    | some raw => payOf raw
  { value := do return ⟨← payHours.value, ← order.value, ← pay.value⟩
    errors := workRaw.errors ++ work.unknown ["payHours", "order", "pay"] ++ payHours.errors ++
      order.errors ++ payRaw.errors ++ pay.errors }

def reservesOf (root : Reader) : Read Reserves :=
  let resRaw := root.object "reserves"
  let reserves : Read Reserves :=
    match resRaw.value with
    | none => ⟨none, []⟩
    | some raw =>
      variantOf "reserves" raw "porcentaje" "monto" "pct" "amountMinor"
        (fun r => (r.pct "pct").map .porcentaje) (fun r => (r.minor "amountMinor").map .monto)
  ⟨reserves.value, resRaw.errors ++ reserves.errors⟩

def partnerLoansOf (root : Reader) : Read PartnerLoans :=
  let loansRaw := root.object "partnerLoans"
  let loans : Reader := ⟨text "partnerLoans", loansRaw.value⟩
  let repay := loans.bool "repayBeforeCapital"
  ⟨repay.value.map PartnerLoans.mk,
    loansRaw.errors ++ loans.unknown ["repayBeforeCapital"] ++ repay.errors⟩

def rootKeys : List String :=
  ["schemaVersion", "profitBase", "reinvestment", "capitalRecovery", "work", "partnerExpenses",
    "reserves", "partnerLoans"]

/-- `input.schemaVersion !== RULES_SCHEMA_VERSION`. -/
def versionErrors (root : Reader) (input : Fields) : List JsString :=
  match get input "schemaVersion" with
  | some (.num version) =>
    if version = 1 then [] else [root.fail (text "schemaVersion") "debe ser 1"]
  | _ => [root.fail (text "schemaVersion") "debe ser 1"]

/-- Where nothing complained every value was read, so the last error is never answered. -/
def parseRulesConfig (input : Raw) : Except (List JsString) FinanceRulesConfig :=
  match input with
  | .obj fields =>
    let root : Reader := ⟨[], some fields⟩
    let base := profitBaseOf root
    let reinv := reinvestmentOf root
    let recovery := capitalRecoveryOf root
    let work := workOf root
    let expenses := root.choice "partnerExpenses" partnerExpenseModes PartnerExpenseMode.text
    let reserves := reservesOf root
    let loans := partnerLoansOf root
    let errors := root.unknown rootKeys ++ versionErrors root fields ++ base.errors ++
      reinv.errors ++ recovery.errors ++ work.errors ++ expenses.errors ++ reserves.errors ++
      loans.errors
    let config : Option FinanceRulesConfig := do
      return ⟨← base.value, ← reinv.value, ← recovery.value, ← work.value, ← expenses.value,
        ← reserves.value, ← loans.value⟩
    if errors = [] then
      match config with
      | some config => .ok config
      | none => .error errors
    else .error errors
  | _ => .error [text "config: debe ser un objeto"]

end Bazar.Finance.Rules
