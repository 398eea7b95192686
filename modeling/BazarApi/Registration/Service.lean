import BazarApi.Registration.Database

/- `business-registration/business-registration.service.ts` and
   `registration-cleanup.service.ts`.

   Correspondence (TypeScript ↔ Lean):
     `create`, `resend`, `resendByCorreo`     ↔ `create`, `resend`, `resendByCorreo`
     `createRequest`, `resendVerification`    ↔ `createRequest`, `resendVerification`
     `verifyEmail`                            ↔ `verifyEmail`
     `resolve`, `approve`, `reject`           ↔ `resolve`, `approve`, `reject`
     `approveInTransaction`                   ↔ `approveInTransaction`
     `retryableApproveFailure`                ↔ `retryableApproveFailure`
     `deriveUniqueUsername`                   ↔ `deriveUniqueUsername`
     `RegistrationCleanupService.runBatch`    ↔ `runBatch` -/
namespace Bazar.Registration

open Txn Team

/-! Errors. -/

def turnstileInvalidMessage : String :=
  "No pudimos comprobar que eres una persona. Intenta de nuevo."

def turnstileUnavailableMessage : String :=
  "No pudimos comprobar tu solicitud en este momento. Intenta de nuevo en unos minutos."

def emailUnavailableMessage : String :=
  "No pudimos enviar el correo en este momento. Intenta de nuevo en unos minutos."

def linkInvalidMessage : String :=
  "Este enlace ya no sirve: venció o ya se usó. Puedes pedir uno nuevo."

def isUniqueViolation : Err → Bool
  | .uniqueViolation _ => true
  | .uniqueIndex _ => true
  | _ => false

def isTransactionExpired (host : Host) : Err → Bool
  | .database message => host.expired message
  | _ => false

def isAccountUsernameConflict (e : Err) : Bool := e = .uniqueIndex "Account_username_key"

/-- What a failure of a registration step is answered with. -/
def unavailable (host : Host) (e : Err) : Err :=
  match e with
  | .emailNotSent _ => .serviceUnavailable emailUnavailableMessage
  | e => if isTransactionExpired host e then .serviceUnavailable emailUnavailableMessage else e

def publicSiteUrl (env : Env) : Except Err String :=
  env.siteUrl.elim (.error (.serviceUnavailable emailUnavailableMessage)) .ok

/-! Verification emails. -/

/-- The row of a new request; `n` counts the attempts of this call. -/
def newRequest (host : Host) (env : Env) (dto : CreateBusinessRegistrationDto) (correo : String) :
    BusinessRegistrationRequest :=
  { id := env.serverId 0, nombreNegocio := dto.nombreNegocio, nombre := dto.nombre
    apellidos := dto.apellidos, correo, telefono := some dto.telefono, status := .pendienteCorreo
    approvalTokenHash := hashToken host (env.token 1), tokenExpiresAt := env.now 0 + verificationTtlMs
    createdAt := env.now 0, resolvedAt := none, createdContextId := none
    legalVersion := some dto.versionLegal, legalAcceptedAt := some (env.now 0)
    emailVerifiedAt := none, emailTokenHash := some (hashToken host (env.token 0))
    emailTokenExpiresAt := some (env.now 0 + verificationTtlMs), verificationEmailsSent := 1
    lastVerificationEmailAt := some (env.now 0) }

/-- The last step of both: the email, or everything rolls back. -/
def sendVerification (env : Env) (n : Nat) : Tx registration Unit :=
  Tx.require (env.mailed n = true) (Err.emailNotSent "Verification email failed")

def createRequest (host : Host) (env : Env) (dto : CreateBusinessRegistrationDto) (correo : String) :
    Tx registration Unit := do
  if env.allowed 0 = false then pure ()
  else do
    query (.createRequest (newRequest host env dto correo))
    sendVerification env 0

/-- What a resend writes. -/
def reissuedLink (host : Host) (env : Env) (n : Nat) : RequestUpdate :=
  { emailTokenHash := some (some (hashToken host (env.token (2 + n))))
    emailTokenExpiresAt := some (some (env.now n + verificationTtlMs))
    verificationEmailsIncrement := 1
    lastVerificationEmailAt := some (some (env.now n)) }

/-- The optimistic claim of a resend. -/
def resendClaim (env : Env) (n : Nat) (request : BusinessRegistrationRequest) : RequestWhere :=
  { id := some request.id, status := some .pendienteCorreo
    verificationEmailsSent := some request.verificationEmailsSent
    lastVerificationEmailUntil := some (env.now n - resendWaitMs) }

/-- The request is due for another email. -/
def mayResend (env : Env) (n : Nat) (request : BusinessRegistrationRequest) : Bool :=
  request.status = .pendienteCorreo ∧
    request.verificationEmailsSent < maxVerificationEmailsPerRequest ∧
    request.lastVerificationEmailAt.all (· ≤ env.now n - resendWaitMs)

def resendVerification (host : Host) (env : Env) (n : Nat) (request : BusinessRegistrationRequest) :
    Tx registration Unit := do
  if mayResend env n request = false then pure ()
  else if env.allowed n = false then pure ()
  else do
    let count ← query (.updateManyRequests (resendClaim env n request) (reissuedLink host env n))
    if count = 0 then pure ()
    else sendVerification env n

def createInTx (host : Host) (env : Env) (dto : CreateBusinessRegistrationDto) (correo : String) :
    Tx registration Unit := do
  match ← query (.findLiveRequest correo) with
  | some existing => resendVerification host env 0 existing
  | none => createRequest host env dto correo

def resendInTx (host : Host) (env : Env) (n : Nat) (correo : String) : Tx registration Unit := do
  match ← query (.findLiveRequest correo) with
  | some existing => resendVerification host env n existing
  | none => pure ()

def resendByCorreo (host : Host) (env : Env) (n : Nat) (correo : String) : Call registration Unit :=
  Call.transaction .readCommitted (resendInTx host env n correo)

/-- The checks before anything is looked up. -/
def admitted (env : Env) : Except Err Unit :=
  match env.turnstile with
  | .valid => (publicSiteUrl env).map fun _ => ()
  | .invalid => .error (.badRequest turnstileInvalidMessage)
  | .unavailable => .error (.serviceUnavailable turnstileUnavailableMessage)

def create (host : Host) (env : Env) (dto : CreateBusinessRegistrationDto) :
    Call registration Unit := do
  if dto.sitioWebEmpresa.any fun s => host.trim s ≠ "" then pure ()
  else do
    Call.ofExcept (admitted env)
    let correo := host.trimLower dto.correo
    match ← Call.settle .readCommitted (createInTx host env dto correo) with
    | .ok _ => pure ()
    | .error e =>
      -- another submission of the same address won the race
      if isUniqueViolation e then resendByCorreo host env 1 correo
      else .throw (unavailable host e)

def resend (host : Host) (env : Env) (correoInput : String) : Call registration Unit := do
  let _ ← Call.ofExcept (publicSiteUrl env)
  let correo := host.trimLower correoInput
  match ← Call.settle .readCommitted (resendInTx host env 0 correo) with
  | .ok _ => pure ()
  | .error e => .throw (unavailable host e)

/-! Confirming the address. -/

def verifyClaim (emailTokenHash : String) (now : Instant) : RequestWhere :=
  { emailTokenHash := some emailTokenHash, status := some .pendienteCorreo
    emailTokenExpiresAfter := some now }

/-- What the confirmation writes. -/
def verification (host : Host) (env : Env) : RequestUpdate :=
  { status := some .pendiente, emailVerifiedAt := some (some (env.now 0)), emailTokenHash := some none
    emailTokenExpiresAt := some none, approvalTokenHash := some (hashToken host (env.token 0))
    tokenExpiresAt := some (env.now 0 + approvalTtlMs) }

/-- The email to the approver, which tells whether others gave the same phone or address. -/
def sendApproverEmail (env : Env) (request : BusinessRegistrationRequest) :
    Tx registration Bool := do
  if request.telefono.any (· ≠ "") then do
    let _ ← query (.countOthers request.id request.telefono none)
  let _ ← query (.countOthers request.id none (some request.correo))
  Tx.require (env.mailed 0 = true) (Err.emailNotSent "Approver email failed; verification rolled back")
  pure true

def verifyInTx (host : Host) (env : Env) (token : String) : Tx registration Bool := do
  let count ← query (.updateManyRequests (verifyClaim (hashToken host token) (env.now 0))
    (verification host env))
  if count = 0 then pure false
  else do
    let found ← query (.findByApprovalToken (hashToken host (env.token 0)))
    let request ← Tx.orThrow found Err.recordNotFound
    sendApproverEmail env request

def verifyEmail (host : Host) (env : Env) (token : String) : Call registration Unit := do
  match ← Call.settle .readCommitted (verifyInTx host env token) with
  | .ok true => pure ()
  | .ok false => .throw (Err.badRequest linkInvalidMessage)
  | .error (.badRequest message) => .throw (.badRequest message)
  | .error e => .throw (unavailable host e)

/-! Deciding. -/

def alreadyProcessedPage : String × String :=
  ("Ya fue procesado",
    "Esta solicitud ya fue resuelta anteriormente; este enlace ya no tiene efecto.")

def invalidLinkPage : HtmlPageResult :=
  ⟨404, "Enlace inválido", "Este enlace no corresponde a ninguna solicitud."⟩

def expiredPage : HtmlPageResult :=
  ⟨200, "El enlace expiró",
    "Este enlace de aprobación/rechazo ya expiró (30 días). Solicita el registro de nuevo si sigue vigente el interés."⟩

/-- The link must belong to a pending, unexpired request; then `onValid` runs in a transaction. -/
def resolve (host : Host) (env : Env) (token : String)
    (onValid : BusinessRegistrationRequest → Tx registration (String × String)) :
    Call registration HtmlPageResult := do
  let found ← Call.transaction .readCommitted
    (query (.findByApprovalToken (hashToken host token)))
  match found with
  | none => pure invalidLinkPage
  | some request =>
    if request.status ≠ .pendiente then
      pure ⟨200, alreadyProcessedPage.1, alreadyProcessedPage.2⟩
    else if request.tokenExpiresAt < env.now 0 then pure expiredPage
    else do
      let html ← Call.transaction .readCommitted (onValid request)
      pure ⟨200, html.1, html.2⟩

/-- The first of some candidates that is free. -/
def firstFree : List String → Tx registration String
  | [] => .throw (Err.database "Could not derive a unique username")
  | candidate :: rest => do
    if ← query (.accountNamed candidate) then firstFree rest else pure candidate

def deriveUniqueUsername (host : Host) (env : Env) (request : BusinessRegistrationRequest) :
    Tx registration String := do
  let slug := slugifyBusinessName host request.nombreNegocio
  let candidates := (List.range usernameAttempts).map fun k => slug ++ "-" ++ env.suffix k
  match (normalizeSocioEmail host request.correo).filter fun e => e.length ≤ maxUsernameLength with
  | none => firstFree candidates
  | some email => do
    if ← query (.accountNamed email) then firstFree candidates else pure email

/-- What the claim of an approval writes. -/
def approval (env : Env) : RequestUpdate :=
  { status := some .aprobado, resolvedAt := some (some (env.now 1))
    createdContextId := some (some (env.serverId 0).text) }

def founder (host : Host) (env : Env) (request : BusinessRegistrationRequest) : Member :=
  { id := env.serverId 2, name := fullName host request.nombre request.apellidos, role := .socio
    contextId := (env.serverId 0).text, active := true, correo := none }

/-- The columns not given take their defaults: active, with no token. -/
def initialDevice (env : Env) : Device :=
  { id := env.serverId 3, name := initialDeviceName, identifier := (env.serverId 1).text
    contextId := (env.serverId 0).text, authorized := true, createdAt := env.now 1
    status := .activo, tokenHash := none, activatedAt := none, revokedAt := none }

def initialAccount (env : Env) (username : String) : Account :=
  { id := env.serverId 4, username, passwordHash := env.passwordHash
    contextId := (env.serverId 0).text, active := true, memberId := some (env.serverId 2) }

def approvedPage (request : BusinessRegistrationRequest) (socioEmail name : String) :
    CredentialsDelivery → String × String
  | .socio => ("Negocio aprobado",
      "El negocio \"" ++ request.nombreNegocio ++ "\" fue aprobado. Las credenciales de acceso (usuario, contraseña temporal e identificador del dispositivo) se enviaron por correo a " ++ socioEmail ++ ".")
  | .approverFallback => ("Negocio aprobado",
      "El negocio \"" ++ request.nombreNegocio ++ "\" fue aprobado. Resend (en modo de prueba) no permitió enviar las credenciales de acceso a " ++ socioEmail ++ ", así que se enviaron al correo del aprobador como reenvío de respaldo: hazlas llegar al socio.")
  | .approverNoSocioEmail => ("Negocio aprobado",
      "El negocio \"" ++ request.nombreNegocio ++ "\" fue aprobado. El socio (" ++ name ++ ") no tiene un correo electrónico utilizable, así que las credenciales de acceso se enviaron al correo del aprobador: hazlas llegar al socio" ++ (request.telefono.filter (· ≠ "")).elim "" (fun t => " (teléfono: " ++ t ++ ")") ++ ".")

/-- The verified address becomes the founder's, unless another person has it. -/
def setFounderCorreo (env : Env) (socioEmail : Option String) : Tx registration Unit :=
  match socioEmail with
  | none => pure ()
  | some correo => do
    if ← query (.memberCorreoTaken (env.serverId 2) correo) then pure ()
    else query (.setMemberCorreo (env.serverId 2) correo)

def approveInTransaction (host : Host) (env : Env) (request : BusinessRegistrationRequest) :
    Tx registration (String × String) := do
  let count ← query (.updateManyRequests { id := some request.id, status := some .pendiente }
    (approval env))
  if count = 0 then pure alreadyProcessedPage
  else do
    let socioEmail := normalizeSocioEmail host request.correo
    let username ← deriveUniqueUsername host env request
    query (.createMember (founder host env request))
    query (.createDevice (initialDevice env))
    query (.createAccount (initialAccount env username))
    setFounderCorreo env socioEmail
    let delivery ← Tx.orThrow env.delivery
      (Err.emailNotSent ("Credentials email for registration request " ++ request.id.text ++ " failed; approval rolled back"))
    pure (approvedPage request (socioEmail.getD "undefined")
      (fullName host request.nombre request.apellidos) delivery)

def retryHint : String :=
  "La aprobación no se completó y la solicitud sigue pendiente. Vuelve a abrir este mismo enlace para reintentarlo."

/-- The failures the same link can be used to retry. -/
def retryableApproveFailure (host : Host) (e : Err) : Option HtmlPageResult :=
  match e with
  | .emailNotSent _ => some ⟨502, "No se pudo enviar el correo de credenciales", retryHint⟩
  | e =>
    if isTransactionExpired host e then
      some ⟨502, "La aprobación tardó demasiado", "Se agotó el tiempo de la operación. " ++ retryHint⟩
    else if isAccountUsernameConflict e then
      some ⟨502, "No se pudo crear el usuario",
        "Otro registro tomó el mismo nombre de usuario al mismo tiempo. " ++ retryHint⟩
    else none

/-- The page of a failure that may be retried; any other failure goes up. -/
def orRetryPage (host : Host) : Call registration HtmlPageResult → Call registration HtmlPageResult
  | .ret page => .ret page
  | .throw e => (retryableApproveFailure host e).elim (.throw e) .ret
  | .tx iso body k => .tx iso body fun r => orRetryPage host (k r)

def approve (host : Host) (env : Env) (token : String) : Call registration HtmlPageResult :=
  orRetryPage host (resolve host env token (approveInTransaction host env))

/-- What a rejection writes. -/
def rejection (env : Env) : RequestUpdate :=
  { status := some .rechazado, resolvedAt := some (some (env.now 1)) }

def rejectInTx (env : Env) (request : BusinessRegistrationRequest) :
    Tx registration (String × String) := do
  query (.updateRequest request.id (rejection env))
  pure ("Solicitud rechazada",
    "La solicitud de \"" ++ request.nombreNegocio ++ "\" fue rechazada. No se creó nada.")

def reject (host : Host) (env : Env) (token : String) : Call registration HtmlPageResult :=
  resolve host env token (rejectInTx env)

/-! Cleaning up. -/

def categories (now : Instant) : List RequestWhere :=
  [{ status := some .pendienteCorreo, createdBefore := some (now - unconfirmedRetentionMs) },
    { status := some .rechazado, resolvedBefore := some (now - rejectedOrExpiredRetentionMs) },
    { status := some .pendiente, tokenExpiresBefore := some (now - rejectedOrExpiredRetentionMs) }]

/-- The loop of `runBatch`: each category is selected, then deleted. -/
def cleanUp : List RequestWhere → (remaining deleted : Nat) → Call registration Nat
  | [], _, deleted => .ret deleted
  | condition :: rest, remaining, deleted => do
    if remaining = 0 then pure deleted
    else do
      let ids ← Call.transaction .readCommitted (query (.findManyRequests condition remaining))
      if ids = [] then cleanUp rest remaining deleted
      else do
        let count ← Call.transaction .readCommitted (query (.deleteManyRequests ids))
        cleanUp rest (remaining - count) (deleted + count)

def runBatch (now : Instant) (batchSize : Nat) : Call registration Nat :=
  cleanUp (categories now) batchSize 0

end Bazar.Registration
