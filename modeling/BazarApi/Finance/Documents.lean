import Std.Data.String.ToNat
import BazarApi.Finance.Distribution

/- `finance/finance-agreements.snapshot.ts` and `finance/finance-agreements.commitment.ts`:
   the folio of an agreement, its frozen document with the fingerprint of it, and the money
   of a period that is still free.

   Correspondence (TypeScript ↔ Lean):
     `formatFolio`, `folioYear`        ↔ `formatFolio`, `folioYear`
     `buildAgreementDocument`          ↔ `documentContent`, `buildAgreementDocument`
     `verifyAgreementDocument`         ↔ `verifyDocument`, `verifyAgreementDocument`
     `reversalProjection`              ↔ `reversalProjection`
     `liveDocument`                    ↔ `liveDocument`
     `commitmentOf`, `exceedsMessage`  ↔ `commitmentOf`, `exceedsMessage` -/
namespace Json

/-- The properties `{...v}` copies. -/
def Tree.fields {N : Type} : Tree N → Js.Map JsString (Tree N)
  | .obj fields => fields
  | _ => []

end Json

open Json

namespace Bazar.Finance

/-! The folio. -/

/-- `text.padStart(width, '0')`. -/
def padText (width : Nat) (text : String) : String :=
  String.ofList (List.replicate (width - text.length) '0' ++ text.toList)

def formatFolio (year number : Int) : String :=
  "AC-" ++ padText 4 (toString year) ++ "-" ++ padText 5 (toString number)

/-- `Number(text)`, of digits with a sign; `none` for NaN. -/
def numberOf (text : List Char) : Option Int :=
  let digits := text.dropWhile (· = '-')
  if digits = [] ∨ digits.any (¬ ·.isDigit) ∨ digits.length + 1 < text.length then none
  else
    let n : Int := Nat.ofDigitChars 10 digits 0
    some (if digits.length < text.length then -n else n)

/-- The business year of an instant. -/
def folioYear (receivedAt : Instant) : Option Int :=
  numberOf ((currentBusinessDate receivedAt).toList.take 4)

/-! Objects. -/

/-- `{...v, fields}`. -/
def Value.with (v : Value) (fields : List (String × Value)) : Value :=
  .obj (fields.foldl (fun m f => Js.Map.set m (utf16 f.1) f.2) v.fields)

/-! The document. -/

def agreementAlgorithmVersion : Int := 1

def agreementGeneratedFrom : String := "DISTRIBUTION_SIMULATOR"

def agreementNotice : String :=
  "Documento generado a partir de una simulación aceptada por los participantes. No es un contrato legal ni registra pagos."

def simulationOnlyWarningCodes : List String := ["SIMULATION_ONLY", "NOT_A_PAYMENT_OR_OBLIGATION"]

/-- An agreement by its id and folio. -/
structure AgreementRef where
  id : Uuid
  folio : String
  deriving DecidableEq, Repr

structure AgreementDocumentInput where
  contextId : String
  id : Uuid
  folio : String
  title : String
  note : Option String
  replacesAgreement : Option AgreementRef
  occurredAt : Instant
  receivedAt : Instant
  createdBy : Origin
  simulation : Simulation

def AgreementRef.value (r : AgreementRef) : Value :=
  .object [("id", .text r.id.text), ("folio", .text r.folio)]

def Origin.value (o : Origin) : Value :=
  .object [("memberId", .text o.memberId.text), ("name", .text o.name),
    ("accountId", .text o.accountId), ("deviceId", .text o.deviceId.text)]

/-- What the fingerprint covers. -/
def documentContent (x : AgreementDocumentInput) : List (String × Value) :=
  [("id", .text x.id.text), ("contextId", .text x.contextId), ("folio", .text x.folio),
    ("title", .text x.title), ("note", .opt .text x.note),
    ("replacesAgreementId", .opt (fun r => .text r.id.text) x.replacesAgreement),
    ("replacesAgreement", .opt AgreementRef.value x.replacesAgreement),
    ("generatedFrom", .text agreementGeneratedFrom),
    ("algorithmVersion", .num agreementAlgorithmVersion), ("notice", .text agreementNotice),
    ("period", periodValue x.simulation.period), ("currency", .text x.simulation.currency),
    ("financialBase", x.simulation.financialBase.value), ("rule", x.simulation.rule.value),
    ("pools", x.simulation.pools.value),
    ("participants", .arr (x.simulation.members.map SimulatedMember.value)),
    ("totals", x.simulation.totals.value),
    ("warnings", .arr ((x.simulation.warnings.filter fun w =>
      w.code ∉ simulationOnlyWarningCodes).map Warning.value)),
    ("simulationFingerprint", .text x.simulation.simulationFingerprint),
    ("occurredAt", .iso x.occurredAt), ("receivedAt", .iso x.receivedAt),
    ("createdBy", x.createdBy.value)]

def snapshotFingerprint (host : Host) (x : AgreementDocumentInput) : String :=
  digest host (.object (documentContent x))

def buildAgreementDocument (host : Host) (x : AgreementDocumentInput) : Value :=
  .object (documentContent x ++
    [("snapshotFingerprint", .text (snapshotFingerprint host x)), ("status", .text "active"),
      ("reversal", .null), ("replacedBy", .null)])

/-- The properties the fingerprint leaves out. -/
def unhashed : List String := ["snapshotFingerprint", "status", "reversal", "replacedBy"]

section
variable {N : Type}

/-- The rest of a document. -/
def hashedFields (document : Json.Tree N) : Js.Map JsString (Json.Tree N) :=
  document.fields.filter fun f => f.1 ∉ unhashed.map utf16

/-- `verifyAgreementDocument`, of a document with any numbers. -/
def verifyDocument (number : N → JsString) (host : Host) (document : Json.Tree N) : Bool :=
  match document.fields.get (utf16 "snapshotFingerprint") with
  | some (.str fingerprint) =>
    utf16 (canonicalDigest number host.sha256Hex (.obj (hashedFields document))) = fingerprint
  | _ => false

end

/-- Of a document the code builds: its numbers are integers. -/
def verifyAgreementDocument (host : Host) (document : Value) : Bool :=
  verifyDocument intLiteral host document

/-! The live document. -/

def reversalProjection (r : DistributionAgreementReversal) : Value :=
  .object [("id", .text r.id.text), ("agreementId", .text r.agreementId.text),
    ("reason", .text r.reason), ("occurredAt", .iso r.occurredAt),
    ("receivedAt", .iso r.receivedAt), ("createdByMemberId", .text r.createdByMemberId.text),
    ("createdByAccountId", .text r.createdByAccountId), ("deviceId", .text r.deviceId.text)]

/-- The stored document with what happened since. -/
def liveDocument (host : Host) (row : LiveAgreement) : Value :=
  (host.jsonb row.agreement.creationResponse).with
    [("status", .text (if row.reversal.isSome then "voided" else "active")),
      ("reversal", .opt reversalProjection row.reversal),
      ("replacedBy", .opt (fun r => AgreementRef.value ⟨r.1, r.2⟩) row.replacedBy)]

/-! The money that is still free. -/

structure Commitment where
  availableMinor : Int
  committedMinor : Int
  freeMinor : Int
  deriving DecidableEq, Repr

def commitmentOf (availableMinor committedMinor : Int) : Commitment :=
  ⟨availableMinor, committedMinor, max 0 (availableMinor - committedMinor)⟩

/-- Digits in groups of three, the last digit first. -/
def groupThousands : List Char → List Char
  | a :: b :: c :: d :: rest => a :: b :: c :: ',' :: groupThousands (d :: rest)
  | digits => digits

def formatMxn (minor : Int) : String :=
  (if minor < 0 then "-" else "") ++ "$" ++
    String.ofList (groupThousands (Nat.toDigits 10 (minor.natAbs / 100)).reverse).reverse ++ "." ++
    padStart 2 (minor.natAbs % 100)

def exceedsMessage (commitment : Commitment) (requestedMinor : Int) : String :=
  "No alcanza. Este acuerdo pide " ++ formatMxn requestedMinor ++ " y solo quedan " ++
    formatMxn commitment.freeMinor ++ " libres. Faltan " ++
    formatMxn (requestedMinor - commitment.freeMinor) ++ ". Hay " ++
    formatMxn commitment.availableMinor ++ " disponibles y " ++
    formatMxn commitment.committedMinor ++ " ya están comprometidos en otros acuerdos vigentes."

end Bazar.Finance
