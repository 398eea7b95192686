import BazarApi.Finance.RulesSummary

/- The history of the rule sets of one business (`finance/finance-rules.service.ts`, the
   answers of `finance/finance-rule-links.service.ts` and the functions of the migration that
   records them). A request commits its one transaction or leaves the tables as they were.
   Taking them one after the other loses nothing: whoever creates or submits a set holds the
   lock of the business, and whoever changes one holds its row.

   Correspondence (TypeScript, SQL ↔ Lean):
     `saveDraft`, `discard`, `submit`, `modify`, `resend` ↔ the same names
     `issue`, `deliver`                                   ↔ `issue`, `delivered`
     `finance_rule_link_respond`                          ↔ `linkRespond`
     `finance_rule_set_settle`                            ↔ `settle`
     `overview`, `toViews`                                ↔ `overview`, `toView` -/
open Json

namespace Bazar.Finance.RuleSets
open Rules

/-! Tables. -/

inductive Status where
  | borrador
  | pendiente
  | enRevision
  | vigente
  | reemplazada
  | descartada
  | retirada
  deriving DecidableEq, Repr

/-- `OPEN.includes`: waiting for answers or in review. -/
def isOpen (s : Status) : Bool := s = .pendiente || s = .enRevision

structure RuleSetRow where
  id : Uuid
  version : Nat
  status : Status
  config : FinanceRulesConfig
  configHash : String
  proposedByMemberId : Uuid
  proposedByAccountId : Uuid
  basedOnId : Option Uuid
  changeSummary : Option (List RuleChange)
  closedNote : Option JsString
  createdAt : Instant
  updatedAt : Instant
  submittedAt : Option Instant
  inReviewAt : Option Instant
  activatedAt : Option Instant
  supersededAt : Option Instant
  discardedAt : Option Instant

structure Member where
  id : Uuid
  name : String
  role : MemberRole
  active : Bool
  correo : Option String
  createdAt : Instant

structure Approval where
  id : Uuid
  ruleSetId : Uuid
  memberId : Uuid
  approvedHash : String
  correo : String
  linkId : Uuid
  approvedAt : Instant

structure Objection where
  id : Uuid
  ruleSetId : Uuid
  memberId : Uuid
  linkId : Uuid
  correo : String
  reason : JsString
  createdAt : Instant

inductive LinkKind where
  | envio
  | reenvio
  deriving DecidableEq, Repr

structure Link where
  id : Uuid
  ruleSetId : Uuid
  memberId : Uuid
  correo : String
  tokenHash : String
  kind : LinkKind
  sentByMemberId : Uuid
  emailSent : Bool
  createdAt : Instant
  expiresAt : Instant
  usedAt : Option Instant
  supersededAt : Option Instant

/-- The tables of one business. -/
structure Db where
  ruleSets : List RuleSetRow
  members : List Member
  approvals : List Approval
  objections : List Objection
  links : List Link

namespace Db

def empty : Db := ⟨[], [], [], [], []⟩

/-- `update` of the rule set with an id. -/
def setRule (db : Db) (id : Uuid) (f : RuleSetRow → RuleSetRow) : Db :=
  { db with ruleSets := db.ruleSets.map fun r => if r.id = id then f r else r }

def setLinks (db : Db) (p : Link → Bool) (f : Link → Link) : Db :=
  { db with links := db.links.map fun l => if p l then f l else l }

/-- `activePartners`. -/
def activePartners (db : Db) : List Member :=
  (db.members.filter fun m => m.role = .socio && m.active).mergeSort
    fun a b => a.createdAt < b.createdAt || (a.createdAt = b.createdAt && a.id.text ≤ b.id.text)

def nameOf (db : Db) (memberId : Uuid) : String :=
  ((db.members.find? fun m => m.id = memberId).map fun m => m.name).getD "Un socio"

end Db

/-! Requests. -/

/-- The account and the member of a session; the guard lets none through without a member. -/
structure Socio where
  accountId : Uuid
  memberId : Uuid

structure Host where
  formats : Formats
  sha256Hex : JsString → String
  hashSingleUseToken : String → String
  cleanText : JsString → JsString

/-- What a request draws: identifiers, tokens and an instant. -/
structure Env where
  serverId : Nat → Uuid
  token : Nat → String
  now : Instant

inductive Failure where
  | http (status : Nat) (code : String) (message : JsString)
  | missingEmail (message : JsString) (missing : List (Uuid × String))
  | uniqueViolation (index : String)
  | thrown (e : Err)

section
variable (host : Host) (env : Env)

def wrongState (message : String) : Failure := .http 409 "FINANCE_RULES_WRONG_STATE" (text message)

def lockRow (db : Db) (id : Uuid) : Except Failure RuleSetRow :=
  match db.ruleSets.find? fun r => r.id = id with
  | some row => .ok row
  | none => .error (.http 404 "FINANCE_RULES_NOT_FOUND" (text "No encontramos esas reglas."))

def openAfterLock (db : Db) (id : Uuid) : Except Failure (Option RuleSetRow) := do
  let locked ← lockRow db id
  return if isOpen locked.status then some locked else none

def createDraft (actor : Socio) (config : FinanceRulesConfig) (hash : String)
    (basedOnId : Option Uuid) (db : Db) : Except Failure Db :=
  let next := (db.ruleSets.map fun r => r.version).foldr max 0 + 1
  let created : RuleSetRow :=
    { id := env.serverId 0, version := next, status := .borrador, config := config,
      configHash := hash, proposedByMemberId := actor.memberId,
      proposedByAccountId := actor.accountId, basedOnId := basedOnId, changeSummary := none,
      closedNote := none, createdAt := env.now, updatedAt := env.now, submittedAt := none,
      inReviewAt := none, activatedAt := none, supersededAt := none, discardedAt := none }
  if db.ruleSets.any fun r => r.id = created.id then .error (.uniqueViolation "FinanceRuleSet_pkey")
  else .ok { db with ruleSets := db.ruleSets ++ [created] }

def saveDraft (actor : Socio) (input : Raw) (db : Db) : Except Failure Db :=
  match parseRulesConfig input with
  | .error errors => .error (.http 400 "FINANCE_RULES_INVALID"
      (text "Las reglas no son válidas: " ++ (text "; ").intercalate errors))
  | .ok config =>
    let hash := configHash host.formats host.sha256Hex config
    match db.ruleSets.find? fun r => r.status = .borrador with
    | some draft =>
      if draft.proposedByMemberId ≠ actor.memberId then
        .error (.http 409 "FINANCE_RULES_DRAFT_OWNED"
          (text "Otro socio ya tiene un borrador abierto. Pídele que lo envíe o lo descarte."))
      else .ok (db.setRule draft.id fun r =>
        { r with config := config, configHash := hash, updatedAt := env.now })
    | none => createDraft env actor config hash none db

def discard (actor : Socio) (id : Uuid) (db : Db) : Except Failure Db := do
  let row ← lockRow db id
  if row.status ≠ .borrador ∧ ¬isOpen row.status then
    throw (wrongState "Solo se puede descartar un borrador o una propuesta abierta.")
  let closed := db.setRule id fun r =>
    { r with status := .descartada, discardedAt := some env.now, updatedAt := env.now,
             closedNote := some (text s!"Descartada por {db.nameOf actor.memberId}.") }
  return closed.setLinks (fun l => l.ruleSetId = id && l.usedAt.isNone && l.supersededAt.isNone)
    fun l => { l with supersededAt := some env.now }

def linkTtlMs : Int := 7 * 24 * 60 * 60 * 1000

/-- `issue`, the `n`-th of a request. -/
def issue (n : Nat) (ruleSetId : Uuid) (partner : Member) (correo : String) (kind : LinkKind)
    (me : Uuid) (db : Db) : Db :=
  let retired := db.setLinks (fun l => l.ruleSetId = ruleSetId && l.memberId = partner.id &&
    l.usedAt.isNone && l.supersededAt.isNone) fun l => { l with supersededAt := some env.now }
  { retired with links := retired.links ++ [
    { id := env.serverId n, ruleSetId := ruleSetId, memberId := partner.id, correo := correo,
      tokenHash := host.hashSingleUseToken (env.token n), kind := kind, sentByMemberId := me,
      emailSent := false, createdAt := env.now, expiresAt := env.now + linkTtlMs,
      usedAt := none, supersededAt := none }] }

/-- A link for every partner who has an address. -/
def issueAll (ruleSetId : Uuid) (kind : LinkKind) (me : Uuid) (partners : List Member) (db : Db) :
    Db :=
  partners.zipIdx.foldl (fun db p =>
    match p.1.correo with
    | some correo => issue host env p.2 ruleSetId p.1 correo kind me db
    | none => db) db

def listNames : List String → String
  | [] => ""
  | [name] => name
  | names => ", ".intercalate names.dropLast ++ " y " ++ names.getLast?.getD ""

/-- The open proposal, locked and looked at again. -/
def openProposal (db : Db) : Except Failure (Option RuleSetRow) :=
  match db.ruleSets.find? fun r => isOpen r.status with
  | some found => openAfterLock db found.id
  | none => .ok none

/-- What changed against the set it was copied from, or the one in force. -/
def changesOf (row : RuleSetRow) (db : Db) : Except Failure (List RuleChange) :=
  let base : Option RuleSetRow := match row.basedOnId with
    | some basedOn => db.ruleSets.find? fun r => r.id = basedOn
    | none => db.ruleSets.find? fun r => r.status = .vigente
  match base with
  | some base => (describeChanges host.formats base.config row.config).mapError .thrown
  | none => .ok []

/-- The open proposal that is replaced is closed. -/
def replace (standing : Option RuleSetRow) (row : RuleSetRow) (db : Db) : Db :=
  match standing with
  | some o => db.setRule o.id fun r =>
    { r with status := .descartada, discardedAt := some env.now, updatedAt := env.now,
             closedNote := some (text s!"Reemplazada por la versión {row.version}.") }
  | none => db

def submit (actor : Socio) (id : Uuid) (db : Db) : Except Failure Db := do
  let row ← lockRow db id
  if row.status ≠ .borrador then throw (wrongState "Solo se puede enviar un borrador.")
  if row.proposedByMemberId ≠ actor.memberId then
    throw (.http 403 "FINANCE_RULES_NOT_PROPOSER"
      (text "Solo el socio que creó este borrador puede enviarlo."))
  let partners := db.activePartners
  let missing := partners.filter fun p => p.correo.isNone
  if !missing.isEmpty then
    throw (.missingEmail (text "No se puede enviar. Falta el correo de " ++
      text (listNames (missing.map fun p => p.name)) ++ text ".")
      (missing.map fun p => (p.id, p.name)))
  let standing ← openProposal db
  if standing.any fun o => some o.id ≠ row.basedOnId then
    throw (.http 409 "FINANCE_RULES_PENDING_EXISTS"
      (text "Ya hay una propuesta abierta. Descártenla o modifíquenla antes de enviar otra."))
  let changes ← changesOf host row db
  let sent := (replace env standing row db).setRule id fun r =>
    { r with status := .pendiente, submittedAt := some env.now, updatedAt := env.now,
             changeSummary := if changes.isEmpty then r.changeSummary else some changes }
  return issueAll host env id .envio actor.memberId partners sent

def modify (actor : Socio) (id : Uuid) (db : Db) : Except Failure Db := do
  let row ← lockRow db id
  if ¬isOpen row.status then throw (wrongState "Solo se puede modificar una propuesta abierta.")
  match db.ruleSets.find? fun r => r.status = .borrador with
  | some draft =>
    throw (.http 409 "FINANCE_RULES_DRAFT_EXISTS" (text (db.nameOf draft.proposedByMemberId) ++
      text " ya tiene un borrador abierto. Que lo envíe o lo descarte primero."))
  | none => createDraft env actor row.config row.configHash (some row.id) db

/-- Activates a waiting proposal that every active socio has approved. -/
def settle (id : Uuid) (db : Db) : Bool × Db :=
  if ¬(db.ruleSets.any fun s => s.id = id && s.status = .pendiente) then (false, db)
  else
    let socios := db.members.filter fun m => m.role = .socio && m.active
    if socios.isEmpty then (false, db)
    else if socios.any fun m => !db.approvals.any fun a => a.ruleSetId = id && a.memberId = m.id then
      (false, db)
    else
      let replaced : Db := { db with ruleSets := db.ruleSets.map fun (r : RuleSetRow) =>
        if r.status = .vigente then
          { r with status := .reemplazada, supersededAt := some env.now, updatedAt := env.now }
        else r }
      (true, replaced.setRule id fun r =>
        { r with status := .vigente, activatedAt := some env.now, updatedAt := env.now })

def resendCooldownMs : Int := 24 * 60 * 60 * 1000

def resend (actor : Socio) (id : Uuid) (db : Db) : Except Failure Db := do
  let row ← lockRow db id
  if row.status = .enRevision then
    throw (.http 409 "FINANCE_RULES_IN_REVIEW"
      (text "Esta propuesta está en revisión. Modifícala o descártala."))
  if row.status ≠ .pendiente then throw (wrongState "Esta propuesta ya no espera respuestas.")
  let (settled, after) := settle env id db
  if settled then return after
  -- The last one is within the cooldown when any is.
  let recent := fun (p : Member) => db.links.any fun l => l.ruleSetId = id && l.memberId = p.id &&
    l.kind = .reenvio && (l.emailSent || l.supersededAt.isNone) &&
    env.now - l.createdAt < resendCooldownMs
  let waiting := db.activePartners.filter fun p =>
    !(db.approvals.any fun a => a.ruleSetId = id && a.memberId = p.id) && p.correo.isSome && !recent p
  return issueAll host env id .reenvio actor.memberId waiting db

/-- `deliver`, on one link: the email went out, or the link is retired. -/
def delivered (linkId : Uuid) (sent : Bool) (db : Db) : Db :=
  db.setLinks (fun l => l.id = linkId) fun l =>
    if sent then { l with emailSent := true } else { l with supersededAt := some env.now }

inductive Decision where
  | approve
  | object (rawReason : Option JsString)

def maxReasonLength : Nat := 500

def invalidLink : Failure := .http 404 "AGREEMENT_LINK_INVALID"
  (text "Este enlace no sirve. Pide a un socio que te lo envíe de nuevo.")

/-- The answer to the link with a hash; none for every failure. -/
def linkRespond (tokenHash : String) (reason : Option JsString) (db : Db) : Option (String × Db) := do
  let l ← db.links.find? fun k => k.tokenHash = tokenHash
  let s ← db.ruleSets.find? fun st => st.id = l.ruleSetId
  if !(l.usedAt.isNone && l.supersededAt.isNone && env.now < l.expiresAt) then none
  if !(db.members.any fun m => m.id = l.memberId && m.active && m.role = .socio) then none
  let use := fun (db : Db) => db.setLinks (fun k => k.id = l.id) fun k => { k with usedAt := some env.now }
  if s.status = .enRevision then return ("en_revision", db)
  if s.status ≠ .pendiente then none
  match reason with
  | none =>
    if db.approvals.any fun a =>
      a.id = env.serverId 0 || (a.ruleSetId = l.ruleSetId && a.memberId = l.memberId) then none
    let recorded := use { db with approvals := db.approvals ++ [
      { id := env.serverId 0, ruleSetId := l.ruleSetId, memberId := l.memberId,
        approvedHash := s.configHash, correo := l.correo, linkId := l.id, approvedAt := env.now }] }
    let (settled, after) := settle env l.ruleSetId recorded
    return (if settled then "vigente" else "aprobada", after)
  | some reason =>
    if db.objections.any fun o =>
      o.id = env.serverId 0 || (o.ruleSetId = l.ruleSetId && o.memberId = l.memberId) then none
    let recorded := use { db with objections := db.objections ++ [
      { id := env.serverId 0, ruleSetId := l.ruleSetId, memberId := l.memberId, linkId := l.id,
        correo := l.correo, reason := reason, createdAt := env.now }] }
    return ("objetada", recorded.setRule l.ruleSetId fun r =>
      { r with status := .enRevision, inReviewAt := some env.now, updatedAt := env.now })

/-- The reason of an objection, cleaned. -/
def reasonOf : Decision → Except Failure (Option JsString)
  | .approve => return none
  | .object rawReason =>
    let reason := host.cleanText (rawReason.getD [])
    if reason.isEmpty then
      throw (.http 400 "AGREEMENT_REASON_REQUIRED"
        (text "Escribe en pocas palabras por qué no estás de acuerdo."))
    else if reason.length > maxReasonLength then
      throw (.http 400 "AGREEMENT_REASON_TOO_LONG" (text s!"Usa máximo {maxReasonLength} letras."))
    else return some reason

/-- `respond`, past the limit on attempts. A clean text has no blanks at its ends to trim. -/
def respond (token : String) (decision : Decision) (db : Db) : Except Failure (String × Db) := do
  let reason ← reasonOf host decision
  match linkRespond env (host.hashSingleUseToken token) reason db with
  | some answer => return answer
  | none => throw invalidLink

/-! Runs. -/

inductive Request where
  | saveDraft (actor : Socio) (input : Raw)
  | discard (actor : Socio) (id : Uuid)
  | submit (actor : Socio) (id : Uuid)
  | modify (actor : Socio) (id : Uuid)
  | resend (actor : Socio) (id : Uuid)
  | respond (token : String) (decision : Decision)
  /-- The end of a delivery. -/
  | delivered (linkId : Uuid) (sent : Bool)
  /-- Other services change the members. -/
  | members (team : List Member)

def Request.run (request : Request) (db : Db) : Except Failure Db :=
  match request with
  | .saveDraft actor input => RuleSets.saveDraft host env actor input db
  | .discard actor id => RuleSets.discard env actor id db
  | .submit actor id => RuleSets.submit host env actor id db
  | .modify actor id => RuleSets.modify env actor id db
  | .resend actor id => RuleSets.resend host env actor id db
  | .respond token decision => (RuleSets.respond host env token decision db).map Prod.snd
  | .delivered linkId sent => .ok (RuleSets.delivered env linkId sent db)
  | .members team => .ok { db with members := team }

/-- A request that fails leaves the tables as they were. -/
def step (db : Db) (request : Request) : Db :=
  match request.run host env db with
  | .ok after => after
  | .error _ => db

end

/-- The tables of a new business after some requests. -/
def history (host : Host) (requests : List (Env × Request)) : Db :=
  requests.foldl (fun db x => step host x.1 db x.2) .empty

/-! The overview. -/

structure ApprovalView where
  memberId : Uuid
  name : String
  approvedAt : Instant
  correo : String

structure ObjectionView where
  memberId : Uuid
  name : String
  correo : String
  reason : JsString
  createdAt : Instant

/-- A row with what is known of it. -/
structure RuleSetView where
  row : RuleSetRow
  proposedBy : String
  approvals : List ApprovalView
  objections : List ObjectionView
  basedOn : Option (Uuid × Nat × List ObjectionView)
  missing : List (Uuid × String)

section
variable (maskEmail : String → String) (db : Db)

def memberName (memberId : Uuid) : String :=
  ((db.members.find? fun m => m.id = memberId).map fun m => m.name).getD "Socio"

def objectionViews (setId : Uuid) : List ObjectionView :=
  ((db.objections.filter fun o => o.ruleSetId = setId).mergeSort
    fun a b => a.createdAt ≤ b.createdAt).map fun o =>
      ⟨o.memberId, memberName db o.memberId, maskEmail o.correo, o.reason, o.createdAt⟩

/-- `toViews`, on one row. -/
def toView (row : RuleSetRow) : RuleSetView :=
  let mine := (db.approvals.filter fun a => a.ruleSetId = row.id).mergeSort
    fun a b => a.approvedAt ≤ b.approvedAt
  let objections := objectionViews maskEmail db row.id
  let answered := mine.map (fun a => a.memberId) ++ objections.map fun o => o.memberId
  let base := db.ruleSets.find? fun b => some b.id = row.basedOnId
  { row := row
    proposedBy := memberName db row.proposedByMemberId
    approvals := mine.map fun a =>
      ⟨a.memberId, memberName db a.memberId, a.approvedAt, maskEmail a.correo⟩
    objections := objections
    basedOn := base.map fun b => (b.id, b.version, objectionViews maskEmail db b.id)
    missing := if isOpen row.status then
        (db.activePartners.filter fun p => p.id ∉ answered).map fun p => (p.id, p.name)
      else [] }

/-- The state of the rules: that of the open proposal, else in force or not approved. -/
inductive State where
  | open (status : Status)
  | vigente
  | sinAprobar
  deriving DecidableEq, Repr

structure Overview where
  state : State
  inForce : Option RuleSetView
  proposal : Option RuleSetView
  draft : Option RuleSetView
  history : List RuleSetView

/-- `orderBy: { version: 'desc' }, take: 60`. -/
def latest : List RuleSetRow :=
  (db.ruleSets.mergeSort fun a b => b.version ≤ a.version).take 60

def overview : Overview :=
  let views := (latest db).map (toView maskEmail db)
  let inForce := views.find? fun v => v.row.status = .vigente
  let proposal := views.find? fun v => isOpen v.row.status
  let draft := views.find? fun v => v.row.status = .borrador
  { state := match proposal with
      | some p => .open p.row.status
      | none => if inForce.isSome then .vigente else .sinAprobar
    inForce := inForce
    proposal := proposal
    draft := draft
    history := views.filter fun v => v.row.status ≠ .borrador }

end

end Bazar.Finance.RuleSets
