import BazarApi.MemberEmail.Database

/- `members/member-email.service.ts` and the SQL functions it calls.

   Correspondence (TypeScript and SQL ↔ Lean):
     `request`               ↔ `requestInTx`, `request`
     `member_correo_taken`   ↔ `Db.memberCorreoTaken`
     `member_email_confirm`  ↔ `confirmInTx`
     `confirm`               ↔ `confirm`
   The limiters, the contents of the emails and the notices to the other socios are left out. -/
namespace Bazar.MemberEmail

open Txn Team Registration

def emailConfirmationTtlMs : Int := 48 * 60 * 60 * 1000

/-! Errors. -/

def invalidLink : Err :=
  .notFoundWith "MEMBER_EMAIL_LINK_INVALID"
    "Este enlace no sirve. Escribe tu correo de nuevo para recibir otro."

def emailInUse : Err :=
  .conflictWith "MEMBER_EMAIL_IN_USE" "Ese correo ya está en uso. Usa otro correo." []

def alreadySet : Err :=
  .conflictWith "MEMBER_EMAIL_ALREADY_SET" "Ya tienes un correo registrado." []

def notSent : Err :=
  .unprocessable "MEMBER_EMAIL_NOT_SENT"
    "No pudimos enviar el correo. Revisa que esté bien escrito e inténtalo de nuevo." []

def invalidEmail : Err :=
  .badRequestWith "MEMBER_EMAIL_INVALID" "Escribe un correo válido, por ejemplo nombre@dominio.com"

/-- The acting login and the person selected with it. -/
structure Actor where
  contextId : String
  accountId : Uuid
  memberId : Uuid
  deriving DecidableEq, Repr

/-- Beside identifiers and instants: the token of the link, and whether its email was
delivered. -/
structure Env extends Bazar.Env where
  token : String
  delivered : Bool

structure Host extends Registration.Host where
  maskEmail : String → String

def hashSingleUseToken (host : Host) (token : String) : String := host.sha256Hex token

/-! A socio writes an address. -/

/-- A login with the address belongs to somebody else. -/
def loginIsSomeoneElses (actor : Actor) (login : Option Account) : Bool :=
  login.any fun a => ¬ (a.contextId = actor.contextId ∧ a.memberId = none) ∧
    a.memberId ≠ some actor.memberId

/-- The row of a new link. -/
def newConfirmation (host : Host) (env : Env) (actor : Actor) (correo : String) :
    MemberEmailConfirmation :=
  { id := env.serverId 0, contextId := actor.contextId, memberId := actor.memberId, correo
    tokenHash := hashSingleUseToken host env.token, requestedByAccountId := actor.accountId
    createdAt := env.now 0, expiresAt := env.now 0 + emailConfirmationTtlMs, usedAt := none
    supersededAt := none }

/-- The name in the email. -/
def requestInTx (host : Host) (env : Env) (actor : Actor) (correo : String) : Tx emails String := do
  query (.lockMember actor.memberId actor.contextId)
  let found ← query (.findSocio actor.memberId actor.contextId)
  let member ← Tx.orThrow found (Err.notFound "No encontramos a esa persona.")
  Tx.require (member.correo.all (· = "")) alreadySet
  let taken ← query (.memberCorreoTaken actor.memberId correo)
  let login ← query (.findLogin correo)
  Tx.require (taken = false ∧ loginIsSomeoneElses actor login = false) emailInUse
  query (.supersedeAll actor.contextId actor.memberId (env.now 0))
  query (.createConfirmation (newConfirmation host env actor correo))
  pure member.name

structure RequestAnswer where
  correo : String
  expiresAt : Instant
  deriving DecidableEq, Repr

def request (host : Host) (env : Env) (actor : Actor) (rawCorreo : String) :
    Call emails RequestAnswer := do
  let correo ← Call.ofExcept ((normalizeSocioEmail host.toHost rawCorreo).elim
    (.error invalidEmail) .ok)
  let _ ← Call.transaction .readCommitted (requestInTx host env actor correo)
  if env.delivered then pure ⟨host.maskEmail correo, env.now 0 + emailConfirmationTtlMs⟩
  else do
    -- the link never reached the address: it must not stay usable
    let _ ← Call.settle .readCommitted (query (.supersedeOne (env.serverId 0) (env.now 1)))
    .throw notSent

/-! The public page. -/

structure Confirmed where
  correo : String
  memberName : String
  contextId : String
  memberId : Uuid
  notify : List (String × String)
  deriving DecidableEq, Repr

/-- `member_email_confirm`. -/
def confirmInTx (env : Env) (tokenHash : String) : Tx emails (Option Confirmed) := do
  match ← query (.lockConfirmation tokenHash (env.now 0)) with
  | none => pure none
  | some c => do
    match ← query (.giveCorreo c.memberId c.contextId c.correo) with
    | .nobody => pure none
    | .taken => pure none
    | .given name => do
      query (.useConfirmation c.id (env.now 0))
      query (.supersedeOthers c.id c.contextId c.memberId (env.now 0))
      let notify ← query (.others c.contextId c.memberId)
      pure (some ⟨c.correo, name, c.contextId, c.memberId, notify⟩)

/-- The answer is the address, masked. -/
def confirm (host : Host) (env : Env) (token : String) : Call emails String := do
  let row ← Call.transaction .readCommitted (confirmInTx env (hashSingleUseToken host token))
  let row ← Call.ofExcept (row.elim (.error invalidLink) .ok)
  pure (host.maskEmail row.correo)

end Bazar.MemberEmail
