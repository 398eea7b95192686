import BazarApi.Registration.Service
import BazarApi.Txn.Logic

/- What a commit of the registration flow does, said without its program, and what it may
   do to one request (`Move`). A decision goes back to what its link's lookup read. -/
namespace Bazar.Registration

open Txn Team

inductive Request where
  | create (env : Env) (dto : CreateBusinessRegistrationDto)
  | resend (env : Env) (correo : String)
  | verifyEmail (env : Env) (token : String)
  | approve (env : Env) (token : String)
  | reject (env : Env) (token : String)
  | runBatch (now : Instant) (batchSize : Nat)

inductive Answer where
  | done
  | page (a : HtmlPageResult)
  | deleted (n : Nat)
  deriving DecidableEq

/-- The program that serves a request. -/
def Request.call (host : Host) : Request → Call registration Answer
  | .create env dto => do
    Registration.create host env dto
    return .done
  | .resend env correo => do
    Registration.resend host env correo
    return .done
  | .verifyEmail env token => do
    Registration.verifyEmail host env token
    return .done
  | .approve env token => do return .page (← Registration.approve host env token)
  | .reject env token => do return .page (← Registration.reject host env token)
  | .runBatch now batchSize => do return .deleted (← Registration.runBatch now batchSize)

/-- The requests that send a verification email again. -/
def Request.resends : Request → Option Env
  | .create env _ => some env
  | .resend env _ => some env
  | _ => none

/-- What an approval inserts, beside the claim of its request. -/
def newBusiness (host : Host) (env : Env) (request : BusinessRegistrationRequest)
    (username : String) : List Write :=
  [.insertMember (founder host env request), .insertDevice (initialDevice env),
    .insertAccount (initialAccount env username)]

/-- The founder's address, when it is set. -/
def founderCorreo (env : Env) (correo : Option String) : List Write :=
  correo.toList.map (.setMemberCorreo (env.serverId 2))

/-- The request holds the slot of the live index for the address. -/
def BusinessRegistrationRequest.liveFor (x : BusinessRegistrationRequest) (correo : String) : Prop :=
  x.correo = correo ∧ x.status ≠ .rechazado ∧ x.correo ≠ "" ∧ x.legalVersion.isSome

/-- What request `i` writes when it writes anything, after history `h`, under its locks. -/
inductive Effect (host : Host) (d₀ : Db) (i : Nat) (h : History registration) (locks : Locks Key) :
    Request → List Write → Prop where
  | created {env : Env} {dto : CreateBusinessRegistrationDto}
    (hnew : (replay (S := registration) d₀ h).requests.find? (env.serverId 0) = none)
    (hlock : (.liveCorreo (host.trimLower dto.correo), .update) ∈ locks)
    (hlive : ∀ k x, (replay (S := registration) d₀ h).requests.find? k = some x →
      ¬ x.liveFor (host.trimLower dto.correo)) :
    Effect host d₀ i h locks (.create env dto)
      [.insertRequest (newRequest host env dto (host.trimLower dto.correo))]
  | resent {r : Request} {env : Env} {n : Nat} {row : BusinessRegistrationRequest}
    (hr : r.resends = some env)
    (hrow : (replay (S := registration) d₀ h).requests.find? row.id = some row)
    (hdue : mayResend env n row = true) :
    Effect host d₀ i h locks r [.updateRequest row.id (reissuedLink host env n)]
  | verified {env : Env} {token : String} {rows : List BusinessRegistrationRequest}
    (hrows : ∀ x ∈ rows, (replay (S := registration) d₀ h).requests.find? x.id = some x ∧
      (verifyClaim (hashToken host token) (env.now 0)).holds x = true) :
    Effect host d₀ i h locks (.verifyEmail env token)
      (rows.map fun x => .updateRequest x.id (verification host env))
  | approved {env : Env} {token username : String} {read row : BusinessRegistrationRequest}
    {correo : Option String}
    (hrow : (replay (S := registration) d₀ h).requests.find? read.id = some row)
    (hpending : row.status = .pendiente)
    (hmember : (replay (S := registration) d₀ h).members.find? (env.serverId 2) = none)
    (hdevice : (replay (S := registration) d₀ h).devices.find? (env.serverId 3) = none)
    (haccount : (replay (S := registration) d₀ h).accounts.find? (env.serverId 4) = none) :
    Effect host d₀ i h locks (.approve env token)
      (.updateRequest read.id (approval env) ::
        (newBusiness host env read username ++ founderCorreo env correo))
  | rejected {env : Env} {token : String} {g g' : History registration}
    {read row : BusinessRegistrationRequest}
    (he : h = g ++ .exec i (.findByApprovalToken (hashToken host token)) :: g')
    (hfirst : ∀ e ∈ g, e.pid ≠ i)
    (hread : (replay (S := registration) d₀ g).findByApprovalToken (hashToken host token) = some read)
    (hpending : read.status = .pendiente)
    (hrow : (replay (S := registration) d₀ h).requests.find? read.id = some row) :
    Effect host d₀ i h locks (.reject env token) [.updateRequest read.id (rejection env)]
  | cleaned {now : Instant} {batchSize take : Nat} {condition : RequestWhere}
    {g g' : History registration} {rows : List BusinessRegistrationRequest}
    (hcat : condition ∈ categories now)
    (he : h = g ++ .exec i (.findManyRequests condition take) :: g')
    (hrows : ∀ x ∈ rows, (replay (S := registration) d₀ h).requests.find? x.id = some x ∧
      ∃ y, (replay (S := registration) d₀ g).requests.find? x.id = some y ∧
        condition.holds y = true) :
    Effect host d₀ i h locks (.runBatch now batchSize) (rows.map fun x => .deleteRequest x.id)

/-- Every commit is of one of the requests, and writes nothing or what that request writes. -/
def Commits (host : Host) (d₀ : Db) (reqs : List Request) (h : History registration)
    (c : Commit registration) : Prop :=
  ∃ r, reqs[c.pid]? = some r ∧ (c.writes = [] ∨ Effect host d₀ c.pid h c.locks r c.writes)

end Bazar.Registration
