import Mathlib.Order.WithBot
import BazarApi.Js.Slices
import BazarApi.Finance.Calendar
import BazarApi.Shop.Deudas
import BazarApi.Shop.SameItems

/- The list of debts (`DeudasService.list`): the database sorts and cuts a plain listing;
   what is computed from payments and installments is filtered, sorted and cut in memory,
   over the rows in whatever order the database answered them, anew for each page. Both rank
   and then tell debts apart by their ids, so the pages of one listing are those of one
   sequence, and a filter on lateness keeps that sequence.

   Correspondence (TypeScript ↔ Lean):
     `where` of the two queries       ↔ `matching`
     `orderBy`, `skip`, `take`        ↔ `databasePage`
     `computed`, `filtered`, `slice`  ↔ `saldoPendienteMinor`, `atrasado`, …, `inMemoryPage`
     `a - b || c` of a comparator     ↔ `compare`, `Ordering.then` -/
open Txn

namespace Bazar.Shop.DeudaList

inductive OrderBy where
  | createdAt
  | saldoPendiente
  | cuotaVencida
  deriving DecidableEq, Repr

inductive SortDir where
  | asc
  | desc
  deriving DecidableEq, Repr

/-- `DeudaListDto`. -/
structure DeudaListQuery where
  status : Option DeudaStatus
  search : Option String
  orderBy : OrderBy
  sort : SortDir
  atrasado : Option Bool
  page : Nat
  limit : Nat

/-- An item of the list: the response of a debt with its debtor. -/
structure DeudaListItem extends DeudaResponse where
  deudor : Option Deudor

structure DeudaListPage where
  items : List DeudaListItem
  total : Nat
  page : Nat
  limit : Nat

def listItem (full : DeudaWithPlan) : DeudaListItem :=
  { Deudas.response full with deudor := full.deudor }

/-! The rows. -/

def withPlan (d : Db) (deuda : Deuda) : DeudaWithPlan :=
  ⟨deuda, d.abonosOf deuda.id, d.cuotasOf deuda.id, d.deudores.find? deuda.deudorId⟩

/-- `where`; `contains` is `ILIKE '%…%'`. -/
def matching (contains : String → String → Bool) (d : Db) (contextId : String)
    (query : DeudaListQuery) : List DeudaWithPlan :=
  (d.deudas.rows.map (withPlan d)).filter fun x =>
    ((d.members.find? x.deuda.createdByMemberId).any fun m => m.contextId = contextId) &&
    (query.status.all fun status => x.deuda.status = status) &&
    -- An empty search is none.
    (query.search.all fun search => search = "" ||
      x.deudor.any fun deudor => contains deudor.nombre search)

/-! What is computed of a debt. -/

section
variable (now : Instant) (x : DeudaWithPlan)

def saldoPendienteMinor : Int := x.deuda.totalMinor - (x.abonos.map fun a => a.montoMinor).sum

def overdueCuotas (cuotas : List CuotaPlaneada) : List CuotaPlaneada :=
  cuotas.filter fun c => c.fechaEsperada < Finance.currentBusinessDate now

/-- `atrasado`, from the payments and the installments. -/
def atrasadoOf (abonos : List Abono) (cuotas : List CuotaPlaneada) : Bool :=
  let overdue := overdueCuotas now cuotas
  let overdueExpectedMinor := (overdue.map fun c => c.montoEsperadoMinor).sum
  let paidUpToNowMinor := ((abonos.filter fun a => a.receivedAt ≤ now).map fun a => a.montoMinor).sum
  0 < overdue.length && paidUpToNowMinor < overdueExpectedMinor

def atrasado : Bool := atrasadoOf now x.abonos x.cuotasPlaneadas

/-- Dates compare as their texts do. -/
def earliestOverdueFecha : Option Day :=
  match overdueCuotas now x.cuotasPlaneadas with
  | [] => none
  | first :: rest => some ((first :: rest).foldl
      (fun min c => if c.fechaEsperada < min then c.fechaEsperada else min) first.fechaEsperada)

end

/-! The two paths. -/

section
variable (host : Host) (now : Instant) (query : DeudaListQuery)

/-- The comparator of `filtered.sort`. -/
def comparator (a b : DeudaWithPlan) : Ordering :=
  let byId := host.localeCompare a.deuda.id.text b.deuda.id.text
  match query.orderBy with
  | .saldoPendiente =>
    (compare (saldoPendienteMinor b) (saldoPendienteMinor a)).then byId
  | .cuotaVencida =>
    match earliestOverdueFecha now a, earliestOverdueFecha now b with
    | none, none => byId
    | none, some _ => .gt
    | some _, none => .lt
    | some x, some y => (compare x y).then byId
  | .createdAt =>
    (match query.sort with
      | .asc => compare a.deuda.createdAt b.deuda.createdAt
      | .desc => compare b.deuda.createdAt a.deuda.createdAt).then byId

/-- `ORDER BY "createdAt" …, "id" ASC`; identifiers compare as their texts do. -/
def databaseOrder (a b : DeudaWithPlan) : Ordering :=
  (match query.sort with
    | .asc => compare a.deuda.createdAt b.deuda.createdAt
    | .desc => compare b.deuda.createdAt a.deuda.createdAt).then
      (compare a.deuda.id.text b.deuda.id.text)

def slice (rows : List DeudaWithPlan) : List DeudaWithPlan :=
  (rows.drop ((query.page - 1) * query.limit)).take query.limit

def databasePage (rows : List DeudaWithPlan) : DeudaListPage :=
  { items := (slice query (Js.sortWith (databaseOrder query) rows)).map listItem
    total := rows.length
    page := query.page
    limit := query.limit }

def inMemoryPage (rows : List DeudaWithPlan) : DeudaListPage :=
  let filtered := rows.filter fun x => query.atrasado.all fun late => atrasado now x = late
  { items := (slice query (Js.sortWith (comparator host now query) filtered)).map listItem
    total := filtered.length
    page := query.page
    limit := query.limit }

/-- `list`, over the matching rows in the order in which the database has them. -/
def list (rows : List DeudaWithPlan) : DeudaListPage :=
  if query.atrasado.isSome || query.orderBy ≠ .createdAt then inMemoryPage host now query rows
  else databasePage query rows

/-- The pages from the first to the `n`-th, each over the rows as they are answered to it. -/
def pages (rows : Nat → List DeudaWithPlan) (n : Nat) : List DeudaListItem :=
  (List.range n).flatMap fun k => (list host now { query with page := k + 1 } (rows k)).items

end

/-! One sequence. -/

/-- The text of a `uuid` as the database answers it. -/
def isCanonicalUuid (s : String) : Bool := isUuidText s && s.toList.all fun c => c.toLower = c

/-- What the collation of the host is known for: it is a total preorder of the texts, and orders
    the texts of identifiers as their digits are, the numerals before the letters. -/
structure CollatesUuids (host : Host) : Prop where
  trans : Std.TransCmp host.localeCompare
  order : ∀ a b, isCanonicalUuid a → isCanonicalUuid b → host.localeCompare a b = compare a b

section
variable {host : Host} {now : Instant} {query : DeudaListQuery}

def idText (x : DeudaWithPlan) : String := x.deuda.id.text

/-- An order is kept by a map that keeps what is less. -/
theorem compare_of_lt {κ μ : Type} [LinearOrder κ] [LinearOrder μ] {a b : κ} {x y : μ}
    (hlt : a < b ↔ x < y) (hgt : b < a ↔ y < x) : compare a b = compare x y := by
  rcases lt_trichotomy a b with h | h | h
  · rw [compare_lt_iff_lt.mpr h, compare_lt_iff_lt.mpr (hlt.mp h)]
  · have hxy : x = y := le_antisymm (not_lt.mp fun hyx => (hgt.mpr hyx).ne h.symm)
      (not_lt.mp fun hxy => (hlt.mpr hxy).ne h)
    rw [compare_eq_iff_eq.mpr h, compare_eq_iff_eq.mpr hxy]
  · rw [compare_gt_iff_gt.mpr h, compare_gt_iff_gt.mpr (hgt.mp h)]

theorem compare_neg (a b : Int) : compare (-a) (-b) = compare b a :=
  compare_of_lt neg_lt_neg_iff neg_lt_neg_iff

/-- What the sort on the creation ranks by. -/
def createdRank (sort : SortDir) (x : DeudaWithPlan) : Int :=
  match sort with
  | .asc => x.deuda.createdAt
  | .desc => -x.deuda.createdAt

theorem compare_createdRank (sort : SortDir) (a b : DeudaWithPlan) :
    compare (createdRank sort a) (createdRank sort b) = match sort with
      | .asc => compare a.deuda.createdAt b.deuda.createdAt
      | .desc => compare b.deuda.createdAt a.deuda.createdAt := by
  cases sort with
  | asc => rfl
  | desc => exact compare_neg _ _

theorem databaseOrder_eq (a b : DeudaWithPlan) : databaseOrder query a b =
    (compare (createdRank query.sort a) (createdRank query.sort b)).then
      (compare (idText a) (idText b)) := by
  rw [compare_createdRank]
  rfl

theorem comparator_createdAt (h : query.orderBy = .createdAt) (a b : DeudaWithPlan) :
    comparator host now query a b =
      (compare (createdRank query.sort a) (createdRank query.sort b)).then
        (host.localeCompare (idText a) (idText b)) := by
  rw [compare_createdRank]
  unfold comparator
  rw [h]
  rfl

theorem comparator_saldoPendiente (h : query.orderBy = .saldoPendiente) (a b : DeudaWithPlan) :
    comparator host now query a b =
      (compare (-saldoPendienteMinor a) (-saldoPendienteMinor b)).then
        (host.localeCompare (idText a) (idText b)) := by
  rw [compare_neg]
  unfold comparator
  rw [h]
  rfl

/-- The earliest date ranks, and none ranks last. -/
def cuotaRank (now : Instant) (x : DeudaWithPlan) : WithTop String := earliestOverdueFecha now x

theorem comparator_cuotaVencida (h : query.orderBy = .cuotaVencida) (a b : DeudaWithPlan) :
    comparator host now query a b = (compare (cuotaRank now a) (cuotaRank now b)).then
      (host.localeCompare (idText a) (idText b)) := by
  unfold comparator cuotaRank
  rw [h]
  dsimp only
  split
  · rename_i ha hb
    have heq : compare (⊤ : WithTop String) ⊤ = .eq := compare_eq_iff_eq.mpr rfl
    rw [ha, hb]
    change _ = (compare (⊤ : WithTop String) ⊤).then _
    rw [heq]
    rfl
  · rename_i y ha hb
    have hlt : compare (⊤ : WithTop String) y = .gt := compare_gt_iff_gt.mpr (WithTop.coe_lt_top y)
    rw [ha, hb]
    change _ = (compare (⊤ : WithTop String) y).then _
    rw [hlt]
    rfl
  · rename_i x ha hb
    have hlt : compare (x : WithTop String) ⊤ = .lt := compare_lt_iff_lt.mpr (WithTop.coe_lt_top x)
    rw [ha, hb]
    change _ = (compare (x : WithTop String) ⊤).then _
    rw [hlt]
    rfl
  · rename_i x y ha hb
    have heq : compare (x : WithTop String) (y : WithTop String) = compare x y :=
      compare_of_lt WithTop.coe_lt_coe WithTop.coe_lt_coe
    rw [ha, hb]
    change _ = (compare (x : WithTop String) (y : WithTop String)).then _
    rw [heq]
    rfl

/-! The rows of a listing. -/

variable {contains : String → String → Bool} {d : Db} {contextId : String}

theorem matching_nodup : ((matching contains d contextId query).map idText).Nodup := by
  have hids : (d.deudas.rows.map fun x => x.id.text).Nodup := by
    have hinj : Function.Injective Uuid.text := by
      rintro ⟨a⟩ ⟨b⟩ h
      exact congrArg Uuid.mk h
    have h := d.deudas.nodup.map hinj
    rw [List.map_map] at h
    exact h
  unfold matching
  refine List.Nodup.sublist (List.filter_sublist.map idText) ?_
  rw [List.map_map]
  exact hids

theorem matching_canonical (hids : ∀ x ∈ d.deudas.rows, isCanonicalUuid x.id.text) {x : DeudaWithPlan}
    (hx : x ∈ matching contains d contextId query) : isCanonicalUuid (idText x) := by
  obtain ⟨deuda, hdeuda, rfl⟩ := List.mem_map.mp (List.mem_of_mem_filter hx)
  exact hids deuda hdeuda

/-- The rows that a filter on lateness keeps. -/
def fits (now : Instant) (late : Option Bool) (x : DeudaWithPlan) : Bool :=
  late.all fun late => atrasado now x = late

/-- The in-memory path keeps the order of one sequence. -/
theorem inMemory_sequence (hc : CollatesUuids host)
    (hids : ∀ x ∈ d.deudas.rows, isCanonicalUuid x.id.text) {rows : List DeudaWithPlan}
    (hrows : rows.Perm (matching contains d contextId query)) (late : Option Bool) :
    Js.sortWith (comparator host now query) (rows.filter (fits now late)) =
      (Js.sortWith (comparator host now query) (matching contains d contextId query)).filter
        (fits now late) := by
  have := hc.trans
  have hname : ∀ a ∈ matching contains d contextId query, ∀ b ∈ matching contains d contextId query,
      host.localeCompare (idText a) (idText b) = compare (idText a) (idText b) :=
    fun a ha b hb => hc.order _ _ (matching_canonical hids ha) (matching_canonical hids hb)
  cases h : query.orderBy with
  | createdAt =>
    exact Js.sortWith_filter (comparator_createdAt h) hrows matching_nodup hname _
  | saldoPendiente =>
    exact Js.sortWith_filter (comparator_saldoPendiente h) hrows matching_nodup hname _
  | cuotaVencida =>
    exact Js.sortWith_filter (comparator_cuotaVencida h) hrows matching_nodup hname _

variable (now) in
/-- The database path reads the same sequence. -/
theorem database_sequence (hc : CollatesUuids host)
    (hids : ∀ x ∈ d.deudas.rows, isCanonicalUuid x.id.text) (h : query.orderBy = .createdAt)
    {rows : List DeudaWithPlan} (hrows : rows.Perm (matching contains d contextId query)) :
    Js.sortWith (databaseOrder query) rows =
      Js.sortWith (comparator host now query) (matching contains d contextId query) := by
  have := hc.trans
  exact Js.sortWith_collate (comparator_createdAt h) databaseOrder_eq hrows matching_nodup
    (fun a ha b hb => hc.order _ _ (matching_canonical hids ha) (matching_canonical hids hb))
    fun _ _ _ _ => rfl

/-- Every listing of a query reads what it keeps of one sequence of the matching debts. -/
theorem pages_sequence (hc : CollatesUuids host)
    (hids : ∀ x ∈ d.deudas.rows, isCanonicalUuid x.id.text) {rows : Nat → List DeudaWithPlan}
    (hrows : ∀ k, (rows k).Perm (matching contains d contextId query)) {n : Nat}
    (hn : (matching contains d contextId query).length ≤ n * query.limit) (late : Option Bool) :
    pages host now { query with atrasado := late } rows n =
      ((Js.sortWith (comparator host now query) (matching contains d contextId query)).filter
        (fits now late)).map listItem := by
  set s := Js.sortWith (comparator host now query) (matching contains d contextId query) with hs
  have hpage (k : Nat) :
      (list host now { query with atrasado := late, page := k + 1 } (rows k)).items =
        (((s.filter (fits now late)).drop (k * query.limit)).take query.limit).map listItem := by
    unfold list
    split
    · exact congrArg (fun l => List.map listItem ((l.drop (k * query.limit)).take query.limit))
        (inMemory_sequence hc hids (hrows k) late)
    · rename_i hpath
      simp only [Bool.or_eq_true, decide_eq_true_eq, not_or, Option.not_isSome_iff_eq_none, ne_eq,
        not_not] at hpath
      obtain ⟨hlate, horder⟩ := hpath
      have hall : s.filter (fits now late) = s := by
        rw [hlate]
        exact List.filter_eq_self.mpr fun _ _ => rfl
      rw [hall]
      exact congrArg (fun l => List.map listItem ((l.drop (k * query.limit)).take query.limit))
        (database_sequence now hc hids horder (hrows k))
  unfold pages
  simp only [hpage]
  rw [← List.map_flatMap, Js.flatMap_slices, List.take_of_length_le]
  calc (s.filter (fits now late)).length ≤ s.length := List.length_filter_le _ _
    _ = (matching contains d contextId query).length := (Js.sortWith_perm _ _).length_eq
    _ ≤ n * query.limit := hn

end

/-- The two paths of the list agree, for every order in which the database has the rows of each
    page: the debts that are late and those that are not partition the listing, the pages hold
    every matching debt once, and the late ones come in the order of the listing, which for the
    creation is that of the database. -/
theorem debts_list_paths_agree (host : Host) (hc : CollatesUuids host)
    (contains : String → String → Bool) (d : Db) (contextId : String) (now : Instant)
    (query : DeudaListQuery) (hids : ∀ x ∈ d.deudas.rows, isCanonicalUuid x.id.text)
    (rows : Option Bool → Nat → List DeudaWithPlan)
    (hrows : ∀ late k, (rows late k).Perm (matching contains d contextId query)) (n : Nat)
    (hn : (matching contains d contextId query).length ≤ n * query.limit) :
    let read := fun late => pages host now { query with atrasado := late } (rows late) n
    (read (some true) ++ read (some false)).Perm (read none) ∧
    (∀ late, (read late).Perm
      (((matching contains d contextId query).filter (fits now late)).map listItem) ∧
      ((read late).map fun item => item.id).Nodup) ∧
    (∀ late, read (some late) =
      (read none).filter fun item => atrasadoOf now item.abonos item.cuotasPlaneadas = late) ∧
    (query.orderBy = .createdAt →
      read none = (Js.sortWith (databaseOrder query) (rows none 0)).map listItem) := by
  intro read
  have hread (late : Option Bool) : read late =
      ((Js.sortWith (comparator host now query) (matching contains d contextId query)).filter
        (fits now late)).map listItem := pages_sequence hc hids (hrows late) hn late
  have hall : read none =
      (Js.sortWith (comparator host now query) (matching contains d contextId query)).map listItem := by
    rw [hread]
    exact congrArg _ (List.filter_eq_self.mpr fun _ _ => rfl)
  have hperm := Js.sortWith_perm (comparator host now query) (matching contains d contextId query)
  refine ⟨?_, fun late => ⟨?_, ?_⟩, fun late => ?_, fun h => ?_⟩
  · rw [hread, hread, hall, ← List.map_append]
    refine List.Perm.map listItem ?_
    have hsplit := List.filter_append_perm (fits now (some true))
      (Js.sortWith (comparator host now query) (matching contains d contextId query))
    have hnot : (fun x => !fits now (some true) x) = fits now (some false) := by
      funext x
      unfold fits
      simp
    rwa [hnot] at hsplit
  · rw [hread]
    exact (hperm.filter _).map listItem
  · rw [hread, List.map_map]
    have hnodup := (hperm.map idText).nodup_iff.mpr matching_nodup
    have hfilter := hnodup.sublist (List.filter_sublist (p := fits now late) |>.map idText)
    refine List.Nodup.of_map Uuid.text ?_
    rw [List.map_map]
    exact hfilter
  · rw [hread, hall, List.filter_map]
    rfl
  · rw [hall, database_sequence now hc hids h (hrows none 0)]

namespace Demo

/-- A host that collates by code points. -/
def host : Host := ⟨fun _ => "", fun a b => compare a b, fun _ => ""⟩

theorem host_collates : CollatesUuids host where
  trans := inferInstanceAs (Std.TransCmp fun a b : String => compare a b)
  order _ _ _ _ := rfl

def ana : Member := ⟨⟨"m"⟩, "tienda", .socio, true⟩

def deuda (id : String) (createdAt : Instant) : Deuda :=
  { id := ⟨id⟩, type := .fiado, deudorId := ⟨"c"⟩, productId := ⟨"p"⟩, contextId := "tienda"
    cantidad := 1, totalMinor := 500, status := .pendiente, unitCostMinor := none
    saldadaAt := none, createdByMemberId := ana.id, createdAt := createdAt
    requestFingerprint := none, creationResponse := none }

/-- An installment that fell due on the first day. -/
def cuota : CuotaPlaneada :=
  { id := ⟨"q"⟩, deudaId := ⟨"00000000-0000-7000-8000-00000000000a"⟩, contextId := "tienda"
    fechaEsperada := "1970-01-01", montoEsperadoMinor := 500, createdAt := 0 }

/-- Three days later. -/
def later : Instant := 259200000

/-- Two debts of one instant, one of them late. -/
def tied : Db :=
  { accounts := .empty, members := ⟨[ana], by decide⟩, devices := .empty, products := .empty
    productAudits := .empty, stockMovements := .empty, sales := .empty, deudores := .empty
    deudas := ⟨[deuda "00000000-0000-7000-8000-00000000000a" 0,
      deuda "00000000-0000-7000-8000-000000000001" 0], by decide⟩
    abonos := .empty, cuotasPlaneadas := ⟨[cuota], by decide⟩ }

def newest : DeudaListQuery := ⟨none, none, .createdAt, .desc, none, 1, 1⟩

end Demo

theorem debts_list_paths_agree_tied :
    (matching (fun _ _ => true) Demo.tied "tienda" Demo.newest).map (atrasado Demo.later) =
        [true, false] ∧
      (pages Demo.host Demo.later { Demo.newest with atrasado := some true }
          (fun _ => matching (fun _ _ => true) Demo.tied "tienda" Demo.newest) 2 ++
        pages Demo.host Demo.later { Demo.newest with atrasado := some false }
          (fun _ => (matching (fun _ _ => true) Demo.tied "tienda" Demo.newest).reverse) 2).Perm
        (pages Demo.host Demo.later Demo.newest
          (fun _ => matching (fun _ _ => true) Demo.tied "tienda" Demo.newest) 2) := by
  refine ⟨by decide +kernel, ?_⟩
  exact (debts_list_paths_agree Demo.host Demo.host_collates (fun _ _ => true) Demo.tied "tienda"
    Demo.later Demo.newest (by decide)
    (fun late _ => if late = some false
      then (matching (fun _ _ => true) Demo.tied "tienda" Demo.newest).reverse
      else matching (fun _ _ => true) Demo.tied "tienda" Demo.newest)
    (by
      intro late k
      split
      · exact List.reverse_perm _
      · exact List.Perm.refl _) 2 (by decide)).1

end Bazar.Shop.DeudaList
