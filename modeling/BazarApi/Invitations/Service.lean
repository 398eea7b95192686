import BazarApi.Invitations.Database

/- `invitations/account-invitations.service.ts` and the SQL functions of its public page.

   Correspondence (TypeScript and SQL ↔ Lean):
     `inviteRestriction`                   ↔ `inviteRestriction`
     `enforceSendLimits`                   ↔ `enforceSendLimits`
     `enforceNewInvitationLimit`           ↔ `enforceNewInvitationLimit`, `newPeople`
     `hasPersonalSocio`                    ↔ `hasPersonalSocio`
     `invite`                              ↔ `inviteInTx`, `invite`
     `account_invitation_lookup`           ↔ `lookup`
     `account_invitation_accept`           ↔ `acceptInTx`
     `accept`                              ↔ `accept`
   The limiter in front of the public page and the contents of the email are left out. -/
namespace Bazar.Invitations

open Txn Team Team.Invitations Registration

/-! `invitation-token.ts`. -/

def hour : Int := 60 * 60 * 1000
def invitationTtlMs : Int := 72 * hour
def invitationMaxPerDay : Nat := 3
def invitationMaxNewPerDay : Nat := 10
def invitationMinGapMs : Int := 60 * 1000
def dayMs : Int := 24 * hour
def maxEmailLength : Nat := 100

/-! Errors. -/

def notSent : Err :=
  .unprocessable "INVITATION_NOT_SENT" "No pudimos enviar la invitación a ese correo." []

def tooMany (code message : String) : Err := .tooManyRequests code message

def sharedBlockedMessage : String :=
  "Tu acceso es compartido y ya hay cuentas personales. Pídele a un socio con cuenta personal que te invite."

def sharedSelfOnlyMessage : String :=
  "Con el acceso compartido solo puedes invitar al socio que elegiste en este momento."

/-! What a request draws from its surroundings. -/

/-- The acting login and the socio selected with it; `memberId` is the person the login
belongs to, if it belongs to one. -/
structure Actor where
  contextId : String
  memberId : Option Uuid
  selectedMemberId : String
  deriving DecidableEq, Repr

/-- Beside identifiers and instants: the token of the link, whether its email was delivered,
the secret of the new device and the hash of the password chosen. -/
structure Env extends Bazar.Env where
  token : String
  delivered : Bool
  deviceToken : String
  passwordHash : String

abbrev Host := Registration.Host

def hashInvitationToken (host : Host) (token : String) : String := host.sha256Hex token

/-! A socio invites another socio. -/

/-- Who may invite whom. -/
def inviteRestriction (shared : Bool) (selectedMemberId targetMemberId : String)
    (businessHasPersonalSocio : Bool) : Option Err :=
  if shared = false then none
  else if businessHasPersonalSocio then
    some (.forbiddenWith "INVITATION_SHARED_BLOCKED" sharedBlockedMessage)
  else if targetMemberId ≠ selectedMemberId then
    some (.forbiddenWith "INVITATION_SHARED_SELF_ONLY" sharedSelfOnlyMessage)
  else none

def hasPersonalSocio (contextId : String) : Tx invitations Bool := do
  let socios ← query (.sociosOf contextId)
  if socios = [] then pure false else query (.accountAmong contextId socios)

/-- What both limits of `enforceSendLimits` say of the latest invitations of a person. -/
def sendRefusal (mine : List AccountInvitation) (now : Instant) : Option Err :=
  if mine.head?.any fun x => now - x.createdAt < invitationMinGapMs then
    some (tooMany "INVITATION_TOO_SOON" "Espera un minuto antes de enviar otra invitación.")
  else if invitationMaxPerDay ≤ (mine.filter fun x => now - x.createdAt < dayMs).length then
    some (tooMany "INVITATION_DAILY_LIMIT" "Ya se enviaron 3 invitaciones hoy. Intenta mañana.")
  else none

def enforceSendLimits (contextId : String) (memberId : Uuid) (now : Instant) :
    Tx invitations Unit := do
  let mine ← query (.latestOf contextId memberId (invitationMaxPerDay + 1))
  Tx.ofExcept ((sendRefusal mine now).elim (.ok ()) .error)

/-- The first invitation of each person, of invitations in the order they were made. -/
def firsts : List AccountInvitation → List AccountInvitation
  | [] => []
  | x :: rest => x :: (firsts rest).filter fun y => y.memberId ≠ x.memberId

/-- How many people somebody invited for the first time since then. -/
def newPeople (everything : List AccountInvitation) (inviterId : Uuid) (since : Instant) : Nat :=
  ((firsts everything).filter fun x => x.invitedByMemberId = inviterId ∧ since ≤ x.createdAt).length

def enforceNewInvitationLimit (contextId : String) (memberId inviterId : Uuid) (now : Instant) :
    Tx invitations Unit := do
  if 0 < (← query (.countInvitations contextId memberId)) then pure ()
  else do
    let since := now - dayMs
    let recent ← query (.invitationsBy contextId inviterId since)
    if recent = [] then pure ()
    else do
      let everything ← query (.invitationsOfAll contextId (recent.map fun x => x.memberId))
      Tx.require (newPeople everything inviterId since < invitationMaxNewPerDay)
        (tooMany "INVITATION_NEW_DAILY_LIMIT" "Ya invitaste a 10 personas hoy. Intenta mañana.")

/-- The row of a new invitation. -/
def newInvitation (host : Host) (env : Env) (actor : Actor) (memberId : String) (email : String) :
    AccountInvitation :=
  { id := env.serverId 0, contextId := actor.contextId, memberId := uuid memberId, email
    tokenHash := hashInvitationToken host env.token, createdAt := env.now 0
    expiresAt := env.now 0 + invitationTtlMs, usedAt := none, supersededAt := none, accountId := none
    invitedByMemberId := uuid actor.selectedMemberId, invitedViaSharedLogin := actor.memberId.isNone }

/-- The address may be invited, and the row is written. -/
def issueInTx (host : Host) (env : Env) (actor : Actor) (memberId : String) (email : String) :
    Tx invitations Unit := do
  let contextId := actor.contextId
  enforceSendLimits contextId (uuid memberId) (env.now 0)
  enforceNewInvitationLimit contextId (uuid memberId) (uuid actor.selectedMemberId) (env.now 0)
  let named ← query (.accountNamed email)
  Tx.require (named = false) notSent
  query (.supersedeAll contextId (uuid memberId) (env.now 0))
  query (.createInvitation (newInvitation host env actor memberId email))

/-- The names in the email: the person invited and who invites. -/
def inviteInTx (host : Host) (env : Env) (actor : Actor) (memberId : String) (email : String) :
    Tx invitations (String × String) := do
  let contextId := actor.contextId
  query (.lockMember (uuid memberId) contextId)
  let found ← query (.findMember (uuid memberId) contextId)
  let member ← Tx.orThrow found (Err.notFound "No encontramos a esa persona.")
  Tx.require (member.active = true ∧ member.role = .socio)
    (Err.unprocessable "Unprocessable Entity" "Solo se puede invitar a un socio activo." [])
  let personal ← if actor.memberId.isNone then hasPersonalSocio contextId else pure false
  Tx.ofExcept ((inviteRestriction actor.memberId.isNone actor.selectedMemberId memberId
    personal).elim (.ok ()) .error)
  let account ← query (.accountAmong contextId [uuid memberId])
  Tx.require (account = false) (Err.conflict "Este socio ya tiene su cuenta personal.")
  issueInTx host env actor memberId email
  let inviter ← query (.findMember (uuid actor.selectedMemberId) contextId)
  pure (member.name, inviter.elim "Un socio" (·.name))

/-- The address invited, when it is one. -/
def inviteEmail (host : Host) (rawEmail : String) : Except Err String :=
  match (normalizeSocioEmail host rawEmail).filter fun e => e.length ≤ maxEmailLength with
  | some email => .ok email
  | none => .error (.badRequest "Escribe un correo válido.")

/-- The answer is when the link expires. -/
def invite (host : Host) (env : Env) (actor : Actor) (memberId rawEmail : String) :
    Call invitations Instant := do
  let email ← Call.ofExcept (inviteEmail host rawEmail)
  let _ ← Call.transaction .readCommitted (inviteInTx host env actor memberId email)
  if env.delivered then pure (env.now 0 + invitationTtlMs)
  else do
    -- the link was never delivered: it must not stay usable
    let _ ← Call.settle .readCommitted (query (.supersedeOne (env.serverId 0) (env.now 1)))
    .throw notSent

/-! The public page. -/

/-- `account_invitation_lookup`. -/
def lookup (tokenHash : String) (now : Instant) : Tx invitations (Option String) := do
  match ← query (.findInvitation tokenHash now) with
  | none => pure none
  | some inv => do
    let member ← query (.findSocio inv.memberId inv.contextId)
    pure (member.map fun _ => inv.email)

/-- The login of the person invited. -/
def acceptedAccount (env : Env) (inv : AccountInvitation) : Account :=
  personalAccount env.toEnv env.passwordHash inv.toAccountInvitation

/-- The device registered with it. -/
def acceptedDevice (host : Host) (env : Env) (inv : AccountInvitation) (memberName : String) :
    Device :=
  personalDevice env.toEnv (host.sha256Hex env.deviceToken) inv.toAccountInvitation memberName

/-- `account_invitation_accept`: one statement block. -/
def acceptInTx (host : Host) (env : Env) (tokenHash : String) :
    Tx invitations (Option AcceptedInvitation) := do
  match ← query (.lockInvitation tokenHash (env.now 1)) with
  | none => pure none
  | some inv => do
    match ← query (.findSocio inv.memberId inv.contextId) with
    | none => pure none
    | some member => do
      let hasAccount ← query (.accountOfMember inv.memberId)
      let nameTaken ← query (.accountNamed inv.email)
      if hasAccount || nameTaken then pure none
      else do
        let device := acceptedDevice host env inv member.name
        query (.createAccount (acceptedAccount env inv))
        query (.createDevice device)
        query (.useInvitation inv.id (env.now 1) (env.serverId 0))
        pure (some ⟨inv.email, device.name⟩)

def accept (host : Host) (env : Env) (token : String) : Call invitations AcceptAnswer := do
  let tokenHash := hashInvitationToken host token
  let live ← Call.transaction .readCommitted (lookup tokenHash (env.now 0))
  Call.require (live.isSome = true) invalidLink
  let row ← Call.transaction .readCommitted (acceptInTx host env tokenHash)
  let row ← Call.ofExcept (row.elim (.error invalidLink) .ok)
  pure (row.answer env.toEnv env.deviceToken)

end Bazar.Invitations
