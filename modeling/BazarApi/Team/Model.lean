import BazarApi.Common
import BazarApi.Txn.Table

/- The people of a business and their devices, as `prisma/schema.prisma` declares
   them: logins, members, devices and invitations to a login. A device is born
   waiting for its one-time identifier, or with an accepted invitation, or before the
   migration `be12_team_devices`, which gave every device a status. -/
namespace Bazar.Team

open Txn

structure Account where
  id : Uuid
  username : String
  passwordHash : String
  contextId : String
  active : Bool
  memberId : Option Uuid
  deriving DecidableEq, Repr

structure Member where
  id : Uuid
  name : String
  role : MemberRole
  contextId : String
  active : Bool
  correo : Option String
  deriving DecidableEq, Repr

inductive DeviceStatus where
  | pendienteActivacion
  | activo
  | revocado
  deriving DecidableEq, Repr

structure Device where
  id : Uuid
  name : String
  identifier : String
  contextId : String
  authorized : Bool
  createdAt : Instant
  status : DeviceStatus
  tokenHash : Option String
  activatedAt : Option Instant
  revokedAt : Option Instant
  deriving DecidableEq, Repr

structure AccountInvitation where
  id : Uuid
  contextId : String
  memberId : Uuid
  email : String
  tokenHash : String
  createdAt : Instant
  expiresAt : Instant
  usedAt : Option Instant
  supersededAt : Option Instant
  accountId : Option Uuid
  deriving DecidableEq, Repr

instance : Keyed Account Uuid := ⟨Account.id⟩
instance : Keyed Member Uuid := ⟨Member.id⟩
instance : Keyed Device Uuid := ⟨Device.id⟩
instance : Keyed AccountInvitation Uuid := ⟨AccountInvitation.id⟩

/-! Before `be12_team_devices`. -/

/-- A device as it was: switched on or off. -/
structure OldDevice where
  id : Uuid
  name : String
  identifier : String
  contextId : String
  authorized : Bool
  createdAt : Instant
  deriving DecidableEq, Repr

instance : Keyed OldDevice Uuid := ⟨OldDevice.id⟩

/-- The new columns with their defaults, then the backfill: what was off is revoked. -/
def OldDevice.migrate (now : Instant) (o : OldDevice) : Device :=
  let added : Device :=
    { id := o.id, name := o.name, identifier := o.identifier, contextId := o.contextId
      authorized := o.authorized, createdAt := o.createdAt
      status := .activo, tokenHash := none, activatedAt := none, revokedAt := none }
  if added.authorized = false ∧ added.status = .activo then
    { added with status := .revocado, revokedAt := some now }
  else added

theorem OldDevice.migrate_id (now : Instant) (o : OldDevice) : (o.migrate now).id = o.id := by
  unfold migrate
  simp only
  split <;> rfl

/-- The migration of the whole table. -/
def migrateDevices (now : Instant) (old : Table OldDevice) : Table Device :=
  ⟨old.rows.map (OldDevice.migrate now), by
    have hkeys : (old.rows.map (OldDevice.migrate now)).map Keyed.key = old.rows.map Keyed.key := by
      rw [List.map_map]
      exact List.map_congr_left fun o _ => OldDevice.migrate_id now o
    rw [hkeys]
    exact old.nodup⟩

/-! Request bodies. -/

structure CreateDeviceDto where
  name : String
  correoEnvio : Option String
  deriving DecidableEq

structure ReissueDeviceDto where
  correoEnvio : Option String
  deriving DecidableEq

structure IdentifyDeviceDto where
  identifier : String
  name : String
  deriving DecidableEq

/-! What a request draws from its surroundings. -/

inductive DeliveredTo where
  | recipient
  | approverFallback
  deriving DecidableEq, Repr

/-- Beside identifiers and instants: a device token, the hash of the chosen password, and
where the email went; `none` when it could not be sent. -/
structure Env extends Bazar.Env where
  deviceToken : String
  passwordHash : String
  delivery : Option DeliveredTo

structure Host where
  /-- `createHash('sha256').update(text).digest('hex')`. -/
  sha256Hex : String → String
  isUUID : String → Bool

/-! What an accepted invitation leaves, in the tables of the devices and in those of the
   invitations. -/

namespace Invitations

/-- One answer for unknown, used, replaced and expired links. -/
def invalidLink : Err :=
  .notFoundWith "INVITATION_INVALID" "Este enlace no sirve. Pide una invitación nueva."

structure AcceptedInvitation where
  email : String
  deviceName : String
  deriving DecidableEq, Repr

structure AcceptAnswer where
  email : String
  accountId : Uuid
  deviceId : Uuid
  deviceIdentifier : String
  deviceToken : String
  deviceName : String
  deriving DecidableEq, Repr

section
variable (env : Bazar.Env)

/-- The login of the person invited. -/
def personalAccount (passwordHash : String) (inv : AccountInvitation) : Account :=
  { id := env.serverId 0, username := inv.email, passwordHash, contextId := inv.contextId
    active := true, memberId := some inv.memberId }

/-- The device registered with it. -/
def personalDevice (tokenHash : String) (inv : AccountInvitation) (memberName : String) : Device :=
  { id := env.serverId 1, name := String.ofList (("Dispositivo de " ++ memberName).toList.take 100)
    identifier := (env.serverId 2).text, contextId := inv.contextId, authorized := true
    createdAt := env.now 1, status := .activo, tokenHash := some tokenHash
    activatedAt := some (env.now 1), revokedAt := none }

def AcceptedInvitation.answer (row : AcceptedInvitation) (deviceToken : String) : AcceptAnswer :=
  ⟨row.email, env.serverId 0, env.serverId 1, (env.serverId 2).text, deviceToken, row.deviceName⟩

end

end Invitations

end Bazar.Team
