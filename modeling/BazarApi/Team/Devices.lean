import BazarApi.Team.Database

/- `devices/devices.service.ts`, `auth/context.guard.ts` and the acceptance of an
   invitation (`invitations/account-invitations.service.ts` and the SQL function
   `account_invitation_accept`), which registers a device of its own.

   Correspondence (TypeScript and SQL ↔ Lean):
     `DevicesService`                  ↔ `Devices.create`, `identify`, `revoke`, `reissue`
     `summarize`                       ↔ `Devices.summarize`
     `AuthGuard`, `ContextGuard`       ↔ `AuthGuard.canActivate`, `ContextGuard.canActivate`
     `verifyDeviceToken`               ↔ `verifyDeviceToken`
     `account_invitation_lookup`       ↔ `Invitations.lookup`
     `account_invitation_accept`       ↔ `Invitations.acceptInTx`
     `AccountInvitationsService.accept` ↔ `Invitations.accept`
   The limiter in front of the public pages and the wording of the logs are left out. -/
namespace Bazar.Team

open Txn

/-! Device secrets. -/

def hashDeviceToken (host : Host) (token : String) : String := host.sha256Hex token

/-- 64 lower-case hexadecimal digits. -/
def isHashHex (s : String) : Bool :=
  s.toList.length = 64 ∧ s.toList.all fun c => c.isDigit ∨ ('a' ≤ c ∧ c ≤ 'f')

def verifyDeviceToken (host : Host) (token storedHash : String) : Bool :=
  token ≠ "" ∧ isHashHex storedHash ∧ hashDeviceToken host token = storedHash

/-! Devices. -/

namespace Devices

def unknownDeviceMessage : String := "Device is unknown or unauthorized"

def activationCodeUsedMessage : String :=
  "Este identificador ya fue usado. Pide a un socio que te genere uno nuevo."

def deviceRevokedMessage : String :=
  "Este dispositivo fue revocado. Pide a un socio que te genere un identificador nuevo."

def activationEmailFailedMessage : String :=
  "No se pudo enviar el correo con el código de activación, así que no se hizo ningún cambio. Intenta de nuevo, o hazlo sin correo y comparte el código tú mismo."

/-- What the API shows of a device, and where its code was emailed. -/
structure DeviceAnswer where
  id : Uuid
  name : String
  status : DeviceStatus
  legacy : Bool
  createdAt : Instant
  activatedAt : Option Instant
  revokedAt : Option Instant
  identifier : Option String
  deliveredTo : Option DeliveredTo
  deriving DecidableEq, Repr

def summarize (device : Device) (withIdentifier : Bool) : DeviceAnswer :=
  { id := device.id, name := device.name, status := device.status
    legacy := device.status = .activo ∧ device.tokenHash = none
    createdAt := device.createdAt, activatedAt := device.activatedAt, revokedAt := device.revokedAt
    identifier :=
      if withIdentifier ∧ device.status = .pendienteActivacion then some device.identifier else none
    deliveredTo := none }

structure IdentifyAnswer where
  deviceId : Uuid
  deviceToken : Option String
  deriving DecidableEq, Repr

/-- Login, socio and device of the actor, read again inside the transaction. -/
def authorize (actor : Actor) : Tx team Unit := do
  let selection ← Tx.orThrow actor.selection (Err.forbidden "Forbidden")
  let contextId := actor.account.contextId
  let account ← query (.findAccount (uuid actor.account.id) (some contextId))
  let member ← query (.findMember (uuid selection.memberId) contextId (some .socio))
  let device ← query (.findAuthorizedDevice (uuid selection.deviceId) contextId)
  Tx.require (account.isSome ∧ member.isSome ∧ device.isSome) (Err.forbidden "Forbidden")

def deliverOrReveal (env : Env) (device : Device) (correoEnvio : Option String) :
    Tx team DeviceAnswer :=
  match correoEnvio with
  | none => pure (summarize device true)
  | some _ => do
    let deliveredTo ← Tx.orThrow env.delivery (Err.badGateway activationEmailFailedMessage)
    pure { summarize device false with deliveredTo := some deliveredTo }

/-- The row of a device that waits for its activation. -/
def newDevice (env : Env) (contextId : String) (dto : CreateDeviceDto) : Device :=
  { id := env.serverId 0, name := dto.name, identifier := (env.serverId 1).text, contextId
    authorized := false, createdAt := env.now 0, status := .pendienteActivacion, tokenHash := none
    activatedAt := none, revokedAt := none }

def createInTx (env : Env) (actor : Actor) (dto : CreateDeviceDto) : Tx team DeviceAnswer := do
  authorize actor
  let device ← query (.createDevice (newDevice env actor.account.contextId dto))
  deliverOrReveal env device dto.correoEnvio

def create (env : Env) (actor : Actor) (dto : CreateDeviceDto) : Call team DeviceAnswer :=
  Call.transaction .readCommitted (createInTx env actor dto)

/-- What the claim of `identify` writes. -/
def activation (host : Host) (env : Env) : DeviceUpdate :=
  { status := some .activo, authorized := some true, activatedAt := some (some (env.now 0))
    tokenHash := some (some (hashDeviceToken host env.deviceToken)) }

def identifyInTx (host : Host) (env : Env) (account : AccountRef) (dto : IdentifyDeviceDto) :
    Tx team IdentifyAnswer := do
  let contextId := account.contextId
  let found ← query (.findByIdentifier contextId dto.identifier dto.name)
  let device ← Tx.orThrow found (Err.forbidden unknownDeviceMessage)
  match device.status with
  | .revocado => .throw (Err.conflict deviceRevokedMessage)
  | .activo => do
    Tx.require (device.tokenHash = none) (Err.conflict activationCodeUsedMessage)
    Tx.require (device.authorized = true) (Err.forbidden unknownDeviceMessage)
    pure ⟨device.id, none⟩
  | .pendienteActivacion => do
    let count ← query (.updateManyDevices
      { id := device.id, contextId := some contextId, status := some .pendienteActivacion }
      (activation host env))
    Tx.require (count ≠ 0) (Err.conflict activationCodeUsedMessage)
    pure ⟨device.id, some env.deviceToken⟩

def identify (host : Host) (env : Env) (account : AccountRef) (dto : IdentifyDeviceDto) :
    Call team IdentifyAnswer :=
  Call.transaction .readCommitted (identifyInTx host env account dto)

def revocation (env : Env) : DeviceUpdate :=
  { status := some .revocado, authorized := some false, revokedAt := some (some (env.now 0)) }

def revokeInTx (env : Env) (actor : Actor) (id : String) : Tx team DeviceAnswer := do
  let contextId := actor.account.contextId
  query (.lockDevice (uuid id) contextId)
  authorize actor
  let found ← query (.findDevice (uuid id) contextId)
  let target ← Tx.orThrow found (Err.notFound "Not Found")
  if target.status = .revocado then pure (summarize target false)
  else do
    let updated ← query (.updateDevice (uuid id) (revocation env))
    pure (summarize updated false)

def revoke (env : Env) (actor : Actor) (id : String) : Call team DeviceAnswer :=
  Call.transaction .readCommitted (revokeInTx env actor id)

def reissuance (env : Env) : DeviceUpdate :=
  { identifier := some (env.serverId 0).text, status := some .pendienteActivacion
    authorized := some false, tokenHash := some none, activatedAt := some none
    revokedAt := some none }

def reissueInTx (env : Env) (actor : Actor) (id : String) (dto : ReissueDeviceDto) :
    Tx team DeviceAnswer := do
  let contextId := actor.account.contextId
  query (.lockDevice (uuid id) contextId)
  authorize actor
  let found ← query (.findDevice (uuid id) contextId)
  let _ ← Tx.orThrow found (Err.notFound "Not Found")
  let updated ← query (.updateDevice (uuid id) (reissuance env))
  deliverOrReveal env updated dto.correoEnvio

def reissue (env : Env) (actor : Actor) (id : String) (dto : ReissueDeviceDto) :
    Call team DeviceAnswer :=
  Call.transaction .readCommitted (reissueInTx env actor id dto)

end Devices

/-! The guards. -/

/-- The headers a request selects its device with. -/
structure Headers where
  xDeviceId : Option String
  xDeviceToken : Option String
  deriving DecidableEq, Repr

namespace AuthGuard

/-- `subject` is what the bearer token was signed for; `none` when it is missing or bad. -/
def canActivate (host : Host) (subject : Option String) : Call team Account := do
  match subject with
  | none => .throw Err.unauthorized
  | some subject => do
    Call.require (host.isUUID subject = true) Err.unauthorized
    let account ← Call.transaction .readCommitted (query (.findAccount (uuid subject) none))
    Call.ofExcept (account.elim (.error Err.unauthorized) .ok)

end AuthGuard

namespace ContextGuard

def noPersonMessage : String := "Tu cuenta no tiene una persona asignada"

def noDeviceMessage : String := "Valid device selection required"

/-- The one message of every refusal of a selection. -/
def refuse : Err := .forbidden "Selection is not authorized for this context"

/-- A device with a token hash wants its token. -/
def tokenAccepted (host : Host) (headers : Headers) (device : Device) : Bool :=
  match device.tokenHash with
  | none => true
  | some storedHash => headers.xDeviceToken.any fun token => verifyDeviceToken host token storedHash

/-- The member, then the device: two reads of their own, which the guard awaits together. -/
def canActivate (host : Host) (subject : Option String) (headers : Headers) :
    Call team (Uuid × Uuid) := do
  let account ← AuthGuard.canActivate host subject
  let memberId ← Call.ofExcept (account.memberId.elim (.error (.forbidden noPersonMessage)) .ok)
  let deviceId ← Call.ofExcept ((headers.xDeviceId.filter fun s => host.isUUID s).elim
    (.error (.forbidden noDeviceMessage)) .ok)
  let member ← Call.transaction .readCommitted
    (query (.findMember memberId account.contextId none))
  let device ← Call.transaction .readCommitted
    (query (.findAuthorizedDevice (uuid deviceId) account.contextId))
  match member, device with
  | some _, some device => do
    Call.require (tokenAccepted host headers device = true) refuse
    pure (memberId, uuid deviceId)
  | _, _ => .throw refuse

end ContextGuard

/-! Accepting an invitation. -/

namespace Invitations

/-- `account_invitation_lookup`. -/
def lookup (tokenHash : String) (now : Instant) : Tx team (Option String) := do
  match ← query (.findInvitation tokenHash now) with
  | none => pure none
  | some inv => do
    let member ← query (.findMember inv.memberId inv.contextId (some .socio))
    pure (member.map fun _ => inv.email)

/-- The device registered with an account. -/
def acceptedDevice (host : Host) (env : Env) (inv : AccountInvitation) (memberName : String) :
    Device :=
  personalDevice env.toEnv (hashDeviceToken host env.deviceToken) inv memberName

/-- The login of the person invited. -/
def acceptedAccount (env : Env) (inv : AccountInvitation) : Account :=
  personalAccount env.toEnv env.passwordHash inv

/-- `account_invitation_accept`: one statement block. -/
def acceptInTx (host : Host) (env : Env) (tokenHash : String) :
    Tx team (Option AcceptedInvitation) := do
  match ← query (.lockInvitation tokenHash (env.now 1)) with
  | none => pure none
  | some inv => do
    match ← query (.findMember inv.memberId inv.contextId (some .socio)) with
    | none => pure none
    | some member => do
      let hasAccount ← query (.accountOfMember inv.memberId)
      let nameTaken ← query (.accountNamed inv.email)
      if hasAccount || nameTaken then pure none
      else do
        let device := acceptedDevice host env inv member.name
        query (.createAccount (acceptedAccount env inv))
        let _ ← query (.createDevice device)
        query (.updateInvitation inv.id
          { usedAt := some (some (env.now 1)), accountId := some (some (env.serverId 0)) })
        pure (some ⟨inv.email, device.name⟩)

def accept (host : Host) (env : Env) (token : String) : Call team AcceptAnswer := do
  let tokenHash := host.sha256Hex token
  let live ← Call.transaction .readCommitted (lookup tokenHash (env.now 0))
  Call.require (live.isSome = true) invalidLink
  let row ← Call.transaction .readCommitted (acceptInTx host env tokenHash)
  let row ← Call.ofExcept (row.elim (.error invalidLink) .ok)
  pure (row.answer env.toEnv env.deviceToken)

end Invitations

end Bazar.Team
