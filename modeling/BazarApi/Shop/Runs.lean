import BazarApi.Shop.SalesSafe
import BazarApi.Shop.DeudasSafe
import BazarApi.Shop.AbonosSafe
import BazarApi.Shop.ProductsSafe

/- Runs of the shop: any number of requests, interleaved in any way. Every request is
   safe, so in every run each commit did what its request may do (`Reachable.lawful`)
   and each answer is as `Request.Post` says (`Reachable.answered`). The results
   about the shop start from these two. -/
namespace Bazar.Shop

open Txn

/-- What a request may be answered, after history `h`. -/
def Request.Post (host : Host) (d₀ : Db) (i : Nat) (r : Request) (a : Except Err Answer)
    (h : History shop) : Prop :=
  match r with
  | .createSale _ actor dto => ∃ b, a = b.map .sale ∧ SaleAnswered host d₀ i actor dto b h
  | .createDeuda _ actor dto => ∃ b, a = b.map .deuda ∧ DeudaAnswered host d₀ i actor dto b h
  | _ => True

/-- A state of a run in which the requests are served from the database `d₀`. -/
def Reachable (host : Host) (d₀ : Db) (reqs : List Request) (s : Sys shop Answer) : Prop :=
  Sys.Reach (S := shop) d₀ (Sys.initial (reqs.map (Request.call host))) s

section
variable {host : Host} {d₀ : Db} {reqs : List Request} {i : Nat}

/-- Every request keeps the guarantee. -/
theorem Request.safe {r : Request} (hreq : reqs[i]? = some r) :
    (r.call host).Safe d₀ (Commits host d₀ reqs) i (r.Post host d₀ i) [] := by
  have free : ∀ e ∈ ([] : History shop), e.pid ≠ i := by
    intro e he
    cases he
  cases r with
  | createSale env actor dto =>
    exact Call.Safe.map ((Sales.create_safe hreq free).mono fun b _ hb => ⟨b, rfl, hb⟩)
  | createDeuda env actor dto =>
    exact Call.Safe.map ((Deudas.create_safe hreq free).mono fun b _ hb => ⟨b, rfl, hb⟩)
  | registerAbono env actor id dto => exact Call.Safe.map (Deudas.registerAbono_safe hreq)
  | addCuota env actor id dto => exact Call.Safe.map (Deudas.addCuota_safe hreq)
  | updateCuota actor id cuotaId dto => exact Call.Safe.map (Deudas.updateCuota_safe hreq)
  | deleteCuota actor id cuotaId => exact Call.Safe.map (Deudas.deleteCuota_safe hreq)
  | createProduct env actor dto => exact Call.Safe.map (Products.create_safe hreq)
  | patchProduct env actor id dto => exact Call.Safe.map (Products.patch_safe hreq)
  | changeImage env actor id saved => exact Call.Safe.map (Products.image_safe hreq)
  | restockProduct env actor id dto => exact Call.Safe.map (Products.restock_safe hreq)
  | deactivateProduct actor id => exact Call.Safe.map (Products.deactivate_safe hreq)
  | reactivateProduct actor id => exact Call.Safe.map (Products.reactivate_safe hreq)

variable {s : Sys shop Answer}

theorem Reachable.ok (hr : Reachable host d₀ reqs s) :
    s.Ok d₀ (Commits host d₀ reqs)
      (fun i a h => ∀ r, reqs[i]? = some r → r.Post host d₀ i a h) := by
  refine Sys.Reach.ok hr (Sys.initial_ok ?_)
  intro i c hc
  rw [List.getElem?_map] at hc
  obtain ⟨r, hreq, rfl⟩ := Option.map_eq_some_iff.mp hc
  refine (Request.safe hreq).mono ?_
  intro a h hp r' hr'
  cases hreq.symm.trans hr'
  exact hp

/-- Every commit of a run did what its request may do. -/
theorem Reachable.lawful (hr : Reachable host d₀ reqs s) : Lawful (Commits host d₀ reqs) s.hist :=
  hr.ok.lawful

/-- Every answer of a run is one its request may be given. -/
theorem Reachable.answered (hr : Reachable host d₀ reqs s) {a : Except Err Answer}
    (ha : s.Answered i a) {r : Request} (hreq : reqs[i]? = some r) :
    r.Post host d₀ i a s.hist :=
  hr.ok.answered ha r hreq

theorem Reachable.sale (hr : Reachable host d₀ reqs s) {a : Except Err Answer}
    (ha : s.Answered i a) {env : Env} {actor : Actor} {dto : CreateSaleDto}
    (hreq : reqs[i]? = some (.createSale env actor dto)) :
    ∃ b, a = b.map .sale ∧ SaleAnswered host d₀ i actor dto b s.hist :=
  hr.answered ha hreq

theorem Reachable.deuda (hr : Reachable host d₀ reqs s) {a : Except Err Answer}
    (ha : s.Answered i a) {env : Env} {actor : Actor} {dto : CreateDeudaDto}
    (hreq : reqs[i]? = some (.createDeuda env actor dto)) :
    ∃ b, a = b.map .deuda ∧ DeudaAnswered host d₀ i actor dto b s.hist :=
  hr.answered ha hreq

end

/-! A small shop, for concrete runs: one socio with a device, and two products. -/

namespace Demo

mutual

/-- A text for a value, in place of its hash. -/
def digest : Json → String
  | .null => "null"
  | .num n => toString n
  | .str s => "<" ++ s ++ ">"
  | .iso t => "@" ++ toString t
  | .arr xs => "[" ++ digestAll xs ++ "]"
  | .obj fields => "(" ++ digestFields fields ++ ")"

def digestAll : List Json → String
  | [] => ""
  | x :: xs => digest x ++ "," ++ digestAll xs

def digestFields : List (String × Json) → String
  | [] => ""
  | (k, x) :: xs => k ++ ":" ++ digest x ++ "," ++ digestFields xs

end

def host : Host :=
  { sha256 := digest
    localeCompare := fun a b => compareOfLessAndEq a b
    daysText := fun _ => "" }

/-- Identifiers and instants of a request, apart from those of the others. -/
def env (n : Nat) : Env :=
  { serverId := fun k => ⟨String.ofList (List.replicate (20 * n + k) 'x')⟩, now := fun k => 10 * n + k }

def actor : Actor := ⟨⟨"account", "bazar"⟩, some ⟨"member", "device"⟩⟩

def product (id : String) (stock : Int) : Product :=
  { id := ⟨id⟩, name := id, tipo := .cantidad, unitPriceMinor := 100, contextId := "bazar"
    imagePath := none, initialStock := stock, stock, category := none, purchaseCostMinor := none
    supplier := none, notes := none, brand := none, presentation := none, description := none
    createdAt := 0, active := true }

def db : Db :=
  { accounts := ⟨[⟨⟨"account"⟩, "bazar", true⟩], by decide⟩
    members := ⟨[⟨⟨"member"⟩, "bazar", .socio, true⟩], by decide⟩
    devices := ⟨[⟨⟨"device"⟩, "bazar", true⟩], by decide⟩
    products := ⟨[product "a" 5, product "b" 1], by decide⟩
    productAudits := .empty, stockMovements := .empty, sales := .empty, deudores := .empty
    deudas := .empty, abonos := .empty, cuotasPlaneadas := .empty }

/-- A cash sale of the items. -/
def sale (id : String) (items : List CreateSaleItemDto) (hn : items ≠ []) (hs : items.length ≤ 500) :
    CreateSaleDto :=
  { id, items, memberId := "member", deviceId := "device", occurredAt := some 0, currency := "MXN"
    paymentMethod := none, cashReceivedMinor := some 10000, mxn := rfl, nonempty := hn, size := hs
    cash := ⟨10000, rfl, by decide, by decide⟩ }

def item (productId : String) : CreateSaleItemDto := ⟨productId, ⟨1, by decide, by decide⟩⟩

/-- Two pieces of one product, and one of the other. -/
def pair (id : String) : CreateSaleDto := sale id [item "a", item "a"] (by decide) (by decide)
def single (id : String) : CreateSaleDto := sale id [item "b"] (by decide) (by decide)

def one : ItemQuantity := ⟨1, by decide, by decide⟩
def two : ItemQuantity := ⟨2, by decide, by decide⟩
def three : PositiveAmount := ⟨3, by decide, by decide⟩
def forty : Amount := ⟨40, by decide, by decide⟩
def sixty : PositiveAmount := ⟨60, by decide, by decide⟩

/-- One piece owed, with a first payment of `paid`. -/
def deuda (id : String) (productId : String) (paid : Amount) : CreateDeudaDto :=
  { id := some id, type := .fiado, productId, cantidad := ⟨1, by decide, by decide⟩
    deudorId := none, deudor := some ⟨"debtor", none, none⟩, abonoInicialMinor := paid
    abonoInicialPaymentMethod := none, cuotasPlaneadas := [] }

/-- The state after the requests took the steps of a schedule. -/
def run (reqs : List Request) (steps : List Nat) : Sys shop Answer :=
  (Sys.initial (reqs.map (Request.call host))).scheduled db steps

theorem reachable {reqs : List Request} {steps : List Nat}
    (h : ((Sys.initial (reqs.map (Request.call host))).schedule (S := shop) db steps).isSome = true) :
    Reachable host db reqs (run reqs steps) :=
  Sys.scheduled_reach h

end Demo

end Bazar.Shop
