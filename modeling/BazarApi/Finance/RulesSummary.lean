import BazarApi.Json.Restrict
import BazarApi.Finance.RulesExact

/- The rules as socios read them (`finance/finance-rules.summary.ts`) and the hash that they
   approve. A line is fixed texts around the values of one section, so two lines that are
   equal have equal values where neither the text of a number nor that of an amount has a
   space; the hash covers the whole configuration.

   Correspondence (TypeScript ↔ Lean):
     `${value}`, `JSON.stringify` of a number   ↔ `Formats.number`
     `toDecimal` of dinero.js                   ↔ `Formats.toDecimal`
     `sections`, one function for each line     ↔ `sections`, `profitBaseLine`, …
     `describeRules`, `describeChanges`         ↔ the same names
     `configHash`                               ↔ `configHash` -/
open Json

namespace Bazar.Finance.Rules

/-- How the host writes numbers and amounts. -/
structure Formats where
  number : ℚ → JsString
  toDecimal : Int → JsString

/-! The configuration as a JSON value. -/

def Pay.toJson : Pay → Raw
  | .porHora rate => .obj [(text "kind", .str (text "por_hora")), (text "rateMinorPerHour", .num rate)]
  | .porcentaje pct => .obj [(text "kind", .str (text "porcentaje")), (text "pct", .num pct)]

def Reserves.toJson : Reserves → Raw
  | .porcentaje pct => .obj [(text "kind", .str (text "porcentaje")), (text "pct", .num pct)]
  | .monto amount => .obj [(text "kind", .str (text "monto")), (text "amountMinor", .num amount)]

def ProfitBase.toJson (b : ProfitBase) : Raw :=
  .obj [(text "partnerPct", .num b.partnerPct), (text "capitalPct", .num b.capitalPct),
    (text "workPct", .num b.workPct)]

def untilJson : Option Int → Raw
  | none => .null
  | some amount => .num amount

def Reinvestment.toJson (r : Reinvestment) : Raw :=
  .obj [(text "currentPhase", .str (text r.currentPhase.text)), (text "arranquePct", .num r.arranquePct),
    (text "operacionPct", .num r.operacionPct), (text "cierrePct", .num r.cierrePct),
    (text "untilAmountMinor", untilJson r.untilAmountMinor)]

def CapitalRecovery.toJson (c : CapitalRecovery) : Raw :=
  .obj [(text "mode", .str (text c.mode.text)), (text "timing", .str (text c.timing.text))]

def Work.toJson (w : Work) : Raw :=
  .obj [(text "payHours", .bool w.payHours), (text "order", .str (text w.order.text)),
    (text "pay", w.pay.toJson)]

def PartnerExpenseMode.toJson (e : PartnerExpenseMode) : Raw := .str (Json.text e.text)

def PartnerLoans.toJson (l : PartnerLoans) : Raw :=
  .obj [(text "repayBeforeCapital", .bool l.repayBeforeCapital)]

def FinanceRulesConfig.toJson (c : FinanceRulesConfig) : Raw :=
  .obj [(text "schemaVersion", .num 1), (text "profitBase", c.profitBase.toJson),
    (text "reinvestment", c.reinvestment.toJson), (text "capitalRecovery", c.capitalRecovery.toJson),
    (text "work", c.work.toJson), (text "partnerExpenses", c.partnerExpenses.toJson),
    (text "reserves", c.reserves.toJson), (text "partnerLoans", c.partnerLoans.toJson)]

def configHash (formats : Formats) (sha256Hex : JsString → String) (config : FinanceRulesConfig) :
    String := canonicalDigest formats.number sha256Hex config.toJson

/-! Lines. -/

def phaseName : BusinessPhase → JsString
  | .arranque => text "arranque"
  | .operacion => text "operación"
  | .cierre => text "cierre"

def timingName : RecoveryTiming → JsString
  | .durante => text "durante la operación"
  | .alCierre => text "solo al cierre"

section
variable (formats : Formats)

def formatCurrency (amount : Int) : Except Err JsString := do
  return text "$" ++ formats.toDecimal (← toDinero amount)

def pct (value : ℚ) : JsString := formats.number value ++ text " %"

def profitBaseLine (b : ProfitBase) : JsString :=
  text "La utilidad va " ++ pct formats b.partnerPct ++ text " por ser socio, " ++
    pct formats b.capitalPct ++ text " por capital y " ++ pct formats b.workPct ++
    text " por trabajo."

def ceiling : Option Int → Except Err JsString
  | none => return []
  | some amount => do
    return text " Se deja de reinvertir al llegar a " ++ (← formatCurrency formats amount) ++ text "."

def reinvestmentLine (r : Reinvestment) : Except Err JsString := do
  return text "Se reinvierte " ++ pct formats r.arranquePct ++ text " en arranque, " ++
    pct formats r.operacionPct ++ text " en operación y " ++ pct formats r.cierrePct ++
    text " en cierre. Hoy: " ++ phaseName r.currentPhase ++ text "." ++
    (← ceiling formats r.untilAmountMinor)

def recoveryLine (c : CapitalRecovery) : JsString :=
  match c.mode with
  | .ninguna => text "El capital de los socios no se devuelve."
  | .porDiferencia =>
    text "El capital se devuelve por diferencia, " ++ timingName c.timing ++ text "."
  | .total => text "Se devuelve todo el capital, " ++ timingName c.timing ++ text "."
  | .proporcional =>
    text "El capital se devuelve en proporción, " ++ timingName c.timing ++ text "."

def when : WorkOrder → JsString
  | .antes => text "antes"
  | .despues => text "después"

def hoursLine (w : Work) : Except Err JsString :=
  if !w.payHours then return text "Las horas de trabajo no se pagan aparte."
  else
    match w.pay with
    | .porHora rate => do
      return text "Las horas se pagan a " ++ (← formatCurrency formats rate) ++ text " cada una, " ++
        when w.order ++ text " del capital."
    | .porcentaje value =>
      return text "Las horas se pagan con " ++ pct formats value ++ text " del reparto, " ++
        when w.order ++ text " del capital."

def expensesLine : PartnerExpenseMode → JsString
  | .noReembolsar => text "Los gastos que un socio paga de su bolsillo no se reembolsan."
  | .reembolsar => text "Los gastos que un socio paga de su bolsillo se reembolsan."
  | .contarComoAportacion =>
    text "Los gastos que un socio paga de su bolsillo cuentan como aportación."

def reservesLine : Reserves → Except Err JsString
  | .porcentaje value =>
    return text "Se aparta " ++ pct formats value ++ text " para reservas antes de repartir."
  | .monto amount => do
    return text "Se aparta " ++ (← formatCurrency formats amount) ++
      text " para reservas antes de repartir."

def loansLine (l : PartnerLoans) : JsString :=
  if l.repayBeforeCapital then text "Los préstamos de socios se pagan antes de devolver capital."
  else text "Los préstamos de socios se pagan después de devolver capital."

/-! Sections. -/

structure Section where
  topic : String
  line : JsString
  key : Raw

def sections (config : FinanceRulesConfig) : Except Err (List Section) := do
  let reinvestment ← reinvestmentLine formats config.reinvestment
  let hours ← hoursLine formats config.work
  let reserves ← reservesLine formats config.reserves
  return [
    ⟨"Reparto de la utilidad", profitBaseLine formats config.profitBase, config.profitBase.toJson⟩,
    ⟨"Reinversión", reinvestment, config.reinvestment.toJson⟩,
    ⟨"Devolución del capital", recoveryLine config.capitalRecovery, config.capitalRecovery.toJson⟩,
    ⟨"Pago de horas", hours, config.work.toJson⟩,
    ⟨"Gastos de socios", expensesLine config.partnerExpenses, config.partnerExpenses.toJson⟩,
    ⟨"Reservas", reserves, config.reserves.toJson⟩,
    ⟨"Préstamos de socios", loansLine config.partnerLoans, config.partnerLoans.toJson⟩]

def describeRules (config : FinanceRulesConfig) : Except Err (List JsString) := do
  return (← sections formats config).map fun s => s.line

structure RuleChange where
  topic : String
  before : JsString
  after : JsString

/-- The change of one topic, if there is one. -/
def changeOf (section' old : Section) : List RuleChange :=
  if canonicalJson formats.number section'.key = canonicalJson formats.number old.key then []
  else [⟨section'.topic, old.line, section'.line⟩]

def describeChanges (before after : FinanceRulesConfig) : Except Err (List RuleChange) := do
  let old ← sections formats before
  let new ← sections formats after
  return (new.zip old).flatMap fun p => changeOf formats p.1 p.2

end

end Bazar.Finance.Rules
