import BazarApi.Team.Model

/- The registration of a new business: its request row, the rules of the flow and the
   texts of its pages, as in `prisma/schema.prisma` and `business-registration/`. What
   the applicant answers about the business travels in the emails only and is left out,
   as are the pages' markup and the limits per IP in front of the routes. -/
namespace Bazar.Registration

open Txn

inductive Status where
  | pendienteCorreo
  | pendiente
  | aprobado
  | rechazado
  deriving DecidableEq, Repr

structure BusinessRegistrationRequest where
  id : Uuid
  nombreNegocio : String
  nombre : String
  apellidos : String
  correo : String
  telefono : Option String
  status : Status
  approvalTokenHash : String
  tokenExpiresAt : Instant
  createdAt : Instant
  resolvedAt : Option Instant
  createdContextId : Option String
  legalVersion : Option String
  legalAcceptedAt : Option Instant
  emailVerifiedAt : Option Instant
  emailTokenHash : Option String
  emailTokenExpiresAt : Option Instant
  verificationEmailsSent : Int
  lastVerificationEmailAt : Option Instant
  deriving DecidableEq, Repr

instance : Keyed BusinessRegistrationRequest Uuid := ⟨BusinessRegistrationRequest.id⟩

/-! `REGISTRATION_RULES`. -/

def minute : Int := 60 * 1000
def hour : Int := 60 * minute
def day : Int := 24 * hour

def resendWaitMs : Int := minute
def maxVerificationEmailsPerRequest : Int := 3
def verificationTtlMs : Int := 48 * hour
def approvalTtlMs : Int := 30 * day
def unconfirmedRetentionMs : Int := 7 * day
def rejectedOrExpiredRetentionMs : Int := 30 * day
def cleanupBatchSize : Nat := 200

/-! Request bodies. -/

structure CreateBusinessRegistrationDto where
  nombreNegocio : String
  nombre : String
  apellidos : String
  correo : String
  telefono : String
  versionLegal : String
  sitioWebEmpresa : Option String
  deriving DecidableEq

/-! What a request draws from its surroundings. -/

inductive Verdict where
  | valid
  | invalid
  | unavailable
  deriving DecidableEq, Repr

inductive CredentialsDelivery where
  | socio
  | approverFallback
  | approverNoSocioEmail
  deriving DecidableEq, Repr

/-- Beside identifiers and instants: random tokens and suffixes, the hash of the temporary
password, Turnstile's verdict, the site's configured address, whether the limit per address
and the email service let an email out, and where the credentials went. -/
structure Env extends Bazar.Env where
  token : Nat → String
  suffix : Nat → String
  passwordHash : String
  turnstile : Verdict
  siteUrl : Option String
  allowed : Nat → Bool
  mailed : Nat → Bool
  delivery : Option CredentialsDelivery

structure Host where
  sha256Hex : String → String
  /-- `value.trim().toLowerCase()`. -/
  trimLower : String → String
  /-- `value.trim()`. -/
  trim : String → String
  /-- `value.normalize('NFD')` without the combining marks, in lower case. -/
  unaccent : String → String
  /-- Whether an error of the database is an expired transaction. -/
  expired : String → Bool

def hashToken (host : Host) (token : String) : String := host.sha256Hex token

/-! `initial-credentials.ts`. -/

def initialDeviceName : String := "Dispositivo principal"

def maxEmailLength : Nat := 254
def maxUsernameLength : Nat := 100
def maxSlugLength : Nat := 30
def usernameAttempts : Nat := 5

def isAsciiLetter (c : Char) : Bool := ('a' ≤ c ∧ c ≤ 'z') ∨ ('A' ≤ c ∧ c ≤ 'Z')

/-- `[a-z0-9._%+-]`, any case. -/
def isLocalChar (c : Char) : Bool := isAsciiLetter c ∨ c.isDigit ∨ c ∈ ['.', '_', '%', '+', '-']

/-- `[a-z0-9-]`, any case. -/
def isDomainChar (c : Char) : Bool := isAsciiLetter c ∨ c.isDigit ∨ c = '-'

/-- The parts of a text between the dots. -/
def splitDots (s : List Char) : List (List Char) :=
  s.foldr (fun c parts => if c = '.' then [] :: parts else
    match parts with
    | [] => [[c]]
    | p :: ps => (c :: p) :: ps) [[]]

/-- `EMAIL_PATTERN`: a local part, an `@`, and two or more labels between dots. -/
def emailPattern (s : String) : Bool :=
  let name := s.toList.takeWhile (· ≠ '@')
  let rest := s.toList.dropWhile (· ≠ '@')
  let labels := splitDots rest.tail
  name ≠ [] ∧ name.all isLocalChar ∧ rest.head? = some '@' ∧ 2 ≤ labels.length ∧
    labels.all fun l => l ≠ [] ∧ l.all isDomainChar

def normalizeSocioEmail (host : Host) (correo : String) : Option String :=
  let value := host.trimLower correo
  if maxEmailLength < value.length ∨ emailPattern value = false then none else some value

/-- Runs of other characters as one dash. -/
def dashed : List Char → List Char
  | [] => []
  | c :: cs =>
    if isAsciiLetter c ∨ c.isDigit then c :: dashed cs
    else match dashed cs with
      | '-' :: rest => '-' :: rest
      | rest => '-' :: rest

def trimDashes (s : List Char) : List Char :=
  ((s.dropWhile (· = '-')).reverse.dropWhile (· = '-')).reverse

def slugifyBusinessName (host : Host) (nombreNegocio : String) : String :=
  let slug := trimDashes ((dashed (host.unaccent nombreNegocio).toList).take maxSlugLength)
  if slug = [] then "negocio" else String.ofList slug

/-- `fullName`. -/
def fullName (host : Host) (nombre apellidos : String) : String :=
  host.trim (nombre ++ " " ++ apellidos)

/-! Pages. -/

structure HtmlPageResult where
  statusCode : Nat
  title : String
  message : String
  deriving DecidableEq, Repr

end Bazar.Registration
