import Mathlib.Data.List.Perm.Lattice
import Mathlib.Data.List.Dedup
import BazarApi.Common
import BazarApi.Apportion.LargestRemainder

/- `finance/finance-distribution.allocation.ts`: how an amount of minor units is split among
   ids. Big integers are integers; every division here has operands that are not negative.

   Correspondence (TypeScript ↔ Lean):
     `splitPools`         ↔ `splitPools`
     `allocateEqual`      ↔ `allocateEqual`
     `allocateByWeight`   ↔ `allocateByWeight`
     `byId`               ↔ the order of the ids -/
namespace Bazar.Finance

open Apportion

structure Allocation (ι : Type) where
  id : ι
  amount : Int
  deriving DecidableEq, Repr

structure Weighted (ι : Type) where
  id : ι
  weight : Int
  deriving DecidableEq, Repr

def bpsTotal : Int := 10000

variable {ι : Type} [LinearOrder ι]

def assertUnique (ids : List ι) : Except Err Unit :=
  if ids.dedup.length ≠ ids.length then .error (.rangeError "Allocation ids must be unique")
  else .ok ()

structure Pools where
  partnerPoolMinor : Int
  workPoolMinor : Int
  deriving DecidableEq, Repr

def splitPools (requestedMinor partnerShareBps : Int) : Except Err Pools :=
  if requestedMinor < 0 then .error (.rangeError "Requested amount is negative")
  else if partnerShareBps < 0 ∨ bpsTotal < partnerShareBps then
    .error (.rangeError "partnerShareBps must be within 0..10000")
  else
    let partnerPoolMinor := requestedMinor * partnerShareBps / bpsTotal
    .ok ⟨partnerPoolMinor, requestedMinor - partnerPoolMinor⟩

/-- Ids in ascending order. -/
def ascending (ids : List ι) : List ι := ids.insertionSort (· ≤ ·)

/-- Rows in ascending order of their ids. -/
def sortById {α : Type} (id : α → ι) (rows : List α) : List α :=
  rows.insertionSort fun a b => id a ≤ id b

/-- Equal split; the first ids take one unit more each while the remainder lasts. -/
def allocateEqual (pool : Int) (ids : List ι) : Except Err (List (Allocation ι)) := do
  if pool < 0 then .error (.rangeError "Pool is negative")
  assertUnique ids
  if ids = [] then
    if pool = 0 then .ok []
    else .error (.rangeError "Cannot allocate a positive pool to nobody")
  else
    let base := pool / ids.length
    let remainder := pool % ids.length
    .ok ((ascending ids).zipIdx.map fun p =>
      ⟨p.1, base + if (p.2 : Int) < remainder then 1 else 0⟩)

/-- A share in the making. -/
structure Row (ι : Type) where
  id : ι
  amount : Int
  remainder : Int
  weight : Int

/-- The loop that hands the leftover out along the ranking: who got a unit, and what is
still left. -/
def handOut : List (Row ι) → (leftover : Int) → List ι × Int
  | [], leftover => ([], leftover)
  | row :: rest, leftover =>
    if leftover = 0 then ([], 0)
    else
      let (ids, left) := handOut rest (leftover - 1)
      (row.id :: ids, left)

/-- The rows before the leftover. -/
def floors (pool : Int) (items : List (Weighted ι)) : List (Row ι) :=
  let total := (items.map (·.weight)).sum
  items.map fun item =>
    { id := item.id, amount := quota pool total item.weight
      remainder := fraction pool total item.weight, weight := item.weight }

/-- Who comes first for the leftover: larger remainder, then smaller id. -/
def ranking (rows : List (Row ι)) : List (Row ι) :=
  (rows.filter fun row => 0 < row.weight).insertionSort
    (ByScore (fun row => row.remainder) fun row => row.id)

/-- Largest remainder. -/
def allocateByWeight (pool : Int) (items : List (Weighted ι)) :
    Except Err (List (Allocation ι)) := do
  if pool < 0 then .error (.rangeError "Pool is negative")
  assertUnique (items.map (·.id))
  if items.any fun item => item.weight < 0 then
    .error (.rangeError "Weights must not be negative")
  let total := (items.map (·.weight)).sum
  if total = 0 then
    if pool = 0 then .ok (sortById Allocation.id (items.map fun item => ⟨item.id, 0⟩))
    else .error (.rangeError "Cannot allocate a positive pool without weight")
  else
    let rows := floors pool items
    let (ids, leftover) := handOut (ranking rows) (pool - (rows.map (·.amount)).sum)
    let result := sortById Allocation.id
      (rows.map fun row => ⟨row.id, row.amount + if row.id ∈ ids then 1 else 0⟩)
    if leftover ≠ 0 ∨ (result.map (·.amount)).sum ≠ pool then
      .error (.internal "Allocation does not add up to the pool")
    else .ok result

/-! Sorting by id. -/

theorem sortById_perm {α : Type} (id : α → ι) (rows : List α) : (sortById id rows).Perm rows :=
  List.perm_insertionSort _ _

/-- Rows with distinct ids are sorted in one way. -/
theorem sortById_eq_of_perm {α : Type} {id : α → ι} {rows rows' : List α} (hp : rows.Perm rows')
    (hn : (rows.map id).Nodup) : sortById id rows = sortById id rows' := by
  refine List.Perm.eq_of_pairwise ?_ (List.pairwise_insertionSort _ _)
    (List.pairwise_insertionSort _ _)
    ((sortById_perm id rows).trans (hp.trans (sortById_perm id rows').symm))
  intro a b ha hb hab hba
  exact List.inj_on_of_nodup_map hn ((sortById_perm id rows).subset ha)
    (hp.symm.subset ((sortById_perm id rows').subset hb)) (le_antisymm hab hba)

theorem ascending_perm (ids : List ι) : (ascending ids).Perm ids := List.perm_insertionSort _ _

theorem ascending_eq_of_perm {ids ids' : List ι} (hp : ids.Perm ids') :
    ascending ids = ascending ids' :=
  insertionSort_eq_of_perm _ hp fun _ _ _ _ => le_antisymm

theorem assertUnique_of_nodup {ids : List ι} (h : ids.Nodup) : assertUnique ids = .ok () := by
  unfold assertUnique
  rw [List.dedup_eq_self.mpr h, if_neg (not_not.mpr rfl)]

theorem assertUnique_perm {ids ids' : List ι} (hp : ids.Perm ids') :
    assertUnique ids = assertUnique ids' := by
  unfold assertUnique
  rw [(List.Perm.dedup hp).length_eq, hp.length_eq]

/-! The equal split. -/

omit [LinearOrder ι] in
theorem sum_first (base r : Int) (ids : List ι) (k : Nat) :
    ((ids.zipIdx k).map fun p => base + if (p.2 : Int) < r then 1 else 0).sum =
      ids.length * base + max 0 (min (r - k) ids.length) := by
  induction ids generalizing k with
  | nil => simp
  | cons id ids ih =>
    rw [List.zipIdx_cons, List.map_cons, List.sum_cons, ih, List.length_cons]
    push_cast
    rw [add_mul, one_mul]
    generalize (ids.length : Int) * base = m
    split <;> omega

omit [LinearOrder ι] in
theorem zipIdx_map_id (f : Nat → Int) (ids : List ι) (k : Nat) :
    ((ids.zipIdx k).map fun p => (⟨p.1, f p.2⟩ : Allocation ι)).map (·.id) = ids := by
  induction ids generalizing k with
  | nil => rfl
  | cons id ids ih =>
    rw [List.zipIdx_cons, List.map_cons, List.map_cons, ih]

/-- Somebody to share among, or nothing to share: the parts differ by one at most. -/
theorem allocateEqual_ok {pool : Int} {ids : List ι} (hp : 0 ≤ pool) (hn : ids.Nodup)
    (hne : ids ≠ [] ∨ pool = 0) :
    ∃ out, allocateEqual pool ids = .ok out ∧ out.map (·.id) = ascending ids ∧
      (out.map (·.amount)).sum = pool ∧
      ∀ a ∈ out, pool / ids.length ≤ a.amount ∧ a.amount ≤ pool / ids.length + 1 := by
  unfold allocateEqual
  rw [if_neg (not_lt.mpr hp), assertUnique_of_nodup hn]
  by_cases hids : ids = []
  · subst hids
    obtain rfl : pool = 0 := hne.resolve_left (not_not.mpr rfl)
    exact ⟨[], rfl, rfl, rfl, nofun⟩
  have hlen : (0 : Int) < ids.length := by exact_mod_cast List.length_pos_iff.mpr hids
  have hdiv := Int.mul_ediv_add_emod pool ids.length
  have hmod := Int.emod_nonneg pool hlen.ne'
  have hlt := Int.emod_lt_of_pos pool hlen
  refine ⟨_, if_neg hids, zipIdx_map_id
    (fun n => pool / ids.length + if (n : Int) < pool % ids.length then 1 else 0) _ _, ?_, ?_⟩
  · rw [List.map_map]
    refine (sum_first (pool / ids.length) (pool % ids.length) (ascending ids) 0).trans ?_
    rw [(ascending_perm ids).length_eq]
    push_cast
    rw [sub_zero, min_eq_left hlt.le, max_eq_right hmod]
    exact hdiv
  · intro a ha
    obtain ⟨p, -, rfl⟩ := List.mem_map.mp ha
    simp only
    split <;> omega

theorem allocateEqual_perm (pool : Int) {ids ids' : List ι} (hp : ids.Perm ids') :
    allocateEqual pool ids = allocateEqual pool ids' := by
  have hnil : ids = [] ↔ ids' = [] := by
    constructor
    · rintro rfl
      exact List.nil_perm.mp hp
    · rintro rfl
      exact List.perm_nil.mp hp
  unfold allocateEqual
  rw [assertUnique_perm hp, ascending_eq_of_perm hp, hp.length_eq]
  simp only [hnil]

/-! The split by weight. -/

/-- Who gets one unit more than the floor. -/
def extra (pool : Int) (items : List (Weighted ι)) : List ι :=
  ((ranking (floors pool items)).take (leftover pool (items.map (·.weight))).toNat).map (·.id)

/-- What each id gets. -/
def shares (pool : Int) (items : List (Weighted ι)) : List (Allocation ι) :=
  (floors pool items).map fun row =>
    ⟨row.id, row.amount + if row.id ∈ extra pool items then 1 else 0⟩

omit [LinearOrder ι] in
theorem handOut_eq (rows : List (Row ι)) (n : Nat) :
    handOut rows n = ((rows.take n).map (·.id), ((n - rows.length : Nat) : Int)) := by
  induction rows generalizing n with
  | nil => simp [handOut]
  | cons row rest ih =>
    unfold handOut
    cases n with
    | zero => simp
    | succ n =>
      have h : ((n + 1 : Nat) : Int) - 1 = n := by omega
      rw [if_neg (by omega), h, ih]
      simp

omit [LinearOrder ι] in
theorem floors_id (pool : Int) (items : List (Weighted ι)) :
    (floors pool items).map (·.id) = items.map (·.id) := by
  unfold floors
  rw [List.map_map]
  rfl

omit [LinearOrder ι] in
theorem floors_amount (pool : Int) (items : List (Weighted ι)) :
    pool - ((floors pool items).map (·.amount)).sum = leftover pool (items.map (·.weight)) := by
  unfold floors leftover
  rw [List.map_map, List.map_map]
  rfl

theorem ranking_perm (rows : List (Row ι)) :
    (ranking rows).Perm (rows.filter fun row => 0 < row.weight) :=
  List.perm_insertionSort _ _

section
variable {pool : Int} {items : List (Weighted ι)}

/-- The leftover reaches rows with a fraction only. -/
theorem leftover_le_ranking (pool : Int) (hw : ∀ item ∈ items, 0 ≤ item.weight)
    (ht : 0 < (items.map (·.weight)).sum) :
    leftover pool (items.map (·.weight)) ≤ (ranking (floors pool items)).length := by
  refine (leftover_le pool ht).trans ?_
  rw [(ranking_perm _).length_eq, floors, List.filter_map, List.length_map, List.countP_map,
    ← List.countP_eq_length_filter]
  refine Int.ofNat_le.mpr (List.countP_mono_left ?_)
  intro item hi hf
  have hf : 0 < fraction pool (items.map (·.weight)).sum item.weight := of_decide_eq_true hf
  refine decide_eq_true ((hw item hi).lt_of_ne ?_)
  intro h
  rw [← h, fraction_zero] at hf
  exact lt_irrefl _ hf

theorem extra_subset : extra pool items ⊆ (floors pool items).map (·.id) := by
  intro id h
  obtain ⟨row, hrow, rfl⟩ := List.mem_map.mp h
  have hmem := (ranking_perm _).subset (List.mem_of_mem_take hrow)
  exact List.mem_map_of_mem (List.mem_filter.mp hmem).1

theorem extra_nodup (pool : Int) (hn : (items.map (·.id)).Nodup) : (extra pool items).Nodup := by
  refine List.Sublist.nodup ((List.take_sublist _ _).map _) ?_
  rw [((ranking_perm _).map _).nodup_iff]
  refine List.Sublist.nodup (List.filter_sublist.map _) ?_
  rwa [floors_id]

theorem extra_length (hw : ∀ item ∈ items, 0 ≤ item.weight)
    (ht : 0 < (items.map (·.weight)).sum) :
    ((extra pool items).length : Int) = leftover pool (items.map (·.weight)) := by
  have h := leftover_le_ranking pool hw ht
  have h0 := leftover_nonneg pool ht
  unfold extra
  rw [List.length_map, List.length_take]
  omega

/-- The shares are the pool, to the last unit. -/
theorem shares_sum (hn : (items.map (·.id)).Nodup) (hw : ∀ item ∈ items, 0 ≤ item.weight)
    (ht : 0 < (items.map (·.weight)).sum) : ((shares pool items).map (·.amount)).sum = pool := by
  have hsum := sum_add_indicator (l := floors pool items) (·.id)
    (by rwa [floors_id]) (extra_nodup pool hn) extra_subset (·.amount)
  have hleft := floors_amount pool items
  unfold shares
  rw [List.map_map]
  refine hsum.trans ?_
  rw [extra_length hw ht, ← hleft]
  ring

/-- A pool and somebody with weight: the last check passes, and this is what it lets out. -/
theorem allocateByWeight_eq (hp : 0 ≤ pool) (hn : (items.map (·.id)).Nodup)
    (hw : ∀ item ∈ items, 0 ≤ item.weight) (ht : 0 < (items.map (·.weight)).sum) :
    allocateByWeight pool items = .ok (sortById Allocation.id (shares pool items)) := by
  have hneg : ¬ (items.any fun item => item.weight < 0) = true := by
    intro h
    obtain ⟨item, hi, hlt⟩ := List.any_eq_true.mp h
    exact not_lt.mpr (hw item hi) (of_decide_eq_true hlt)
  have hleft := Int.toNat_of_nonneg (leftover_nonneg pool ht)
  have hle := leftover_le_ranking pool hw ht
  have hout : handOut (ranking (floors pool items))
      (pool - ((floors pool items).map (·.amount)).sum) = (extra pool items, 0) := by
    rw [floors_amount, ← hleft, handOut_eq]
    refine Prod.ext rfl ?_
    simp only
    omega
  have hsum : ((sortById Allocation.id (shares pool items)).map (·.amount)).sum = pool :=
    ((sortById_perm _ _).map _).sum_eq.trans (shares_sum hn hw ht)
  unfold allocateByWeight
  rw [if_neg (not_lt.mpr hp), assertUnique_of_nodup hn, if_neg hneg, if_neg ht.ne']
  simp only [hout]
  exact if_neg (not_or.mpr ⟨not_not.mpr rfl, not_not.mpr hsum⟩)

theorem mem_shares (hn : (items.map (·.id)).Nodup) {a : Allocation ι}
    (ha : a ∈ shares pool items) :
    ∃ item ∈ items, a.id = item.id ∧
      quota pool (items.map (·.weight)).sum item.weight ≤ a.amount ∧
      a.amount ≤ quota pool (items.map (·.weight)).sum item.weight + 1 ∧
      (item.weight = 0 → a.amount = 0) := by
  obtain ⟨row, hrow, rfl⟩ := List.mem_map.mp ha
  obtain ⟨item, hi, rfl⟩ := List.mem_map.mp hrow
  refine ⟨item, hi, rfl, ?_, ?_, ?_⟩
  · simp only
    split <;> omega
  · simp only
    split <;> omega
  intro hzero
  have hnot : item.id ∉ extra pool items := by
    intro h
    obtain ⟨row, hrow, he⟩ := List.mem_map.mp h
    have hmem := List.mem_filter.mp ((ranking_perm _).subset (List.mem_of_mem_take hrow))
    obtain ⟨other, ho, rfl⟩ := List.mem_map.mp hmem.1
    obtain rfl : other = item := List.inj_on_of_nodup_map hn ho hi he
    have hpos : 0 < other.weight := of_decide_eq_true hmem.2
    omega
  simp only
  rw [if_neg hnot, hzero, quota_zero, add_zero]

end

omit [LinearOrder ι] in
theorem floors_perm (pool : Int) {items items' : List (Weighted ι)} (hp : items.Perm items') :
    (floors pool items).Perm (floors pool items') := by
  unfold floors
  rw [(hp.map (·.weight)).sum_eq]
  exact hp.map _

/-- Rows with distinct ids are ranked in one way. -/
theorem ranking_eq_of_perm {rows rows' : List (Row ι)} (hp : rows.Perm rows')
    (hn : (rows.map (·.id)).Nodup) : ranking rows = ranking rows' := by
  refine insertionSort_eq_of_perm _ (hp.filter _) ?_
  intro a ha b hb hab hba
  exact List.inj_on_of_nodup_map hn (List.mem_filter.mp ha).1 (List.mem_filter.mp hb).1
    (ByScore.key_eq hab hba)

/-- The order of the input does not matter, whatever comes out. -/
theorem allocateByWeight_perm (pool : Int) {items items' : List (Weighted ι)}
    (hp : items.Perm items') : allocateByWeight pool items = allocateByWeight pool items' := by
  have hids := hp.map (·.id)
  have hsum : (items.map (·.weight)).sum = (items'.map (·.weight)).sum := (hp.map _).sum_eq
  have hany : (items.any fun item => item.weight < 0) = items'.any fun item => item.weight < 0 :=
    hp.any_eq
  by_cases hn : (items.map (·.id)).Nodup
  · have hfloors := floors_perm pool hp
    have hamount := (hfloors.map (·.amount)).sum_eq
    have hrank : ranking (floors pool items) = ranking (floors pool items') :=
      ranking_eq_of_perm hfloors (by rwa [floors_id])
    have hzero : sortById Allocation.id (items.map fun item => ⟨item.id, 0⟩) =
        sortById Allocation.id (items'.map fun item => ⟨item.id, 0⟩) := by
      refine sortById_eq_of_perm (hp.map _) ?_
      rw [List.map_map]
      exact hn
    have hresult : ∀ f : Row ι → Int,
        sortById Allocation.id ((floors pool items).map fun row => ⟨row.id, f row⟩) =
          sortById Allocation.id ((floors pool items').map fun row => ⟨row.id, f row⟩) := by
      intro f
      refine sortById_eq_of_perm (hfloors.map _) ?_
      rw [List.map_map]
      exact (floors_id pool items).symm ▸ hn
    unfold allocateByWeight
    rw [assertUnique_perm hids, hany, hsum, hzero]
    simp only [hamount, hrank, hresult]
  · unfold allocateByWeight
    rw [← assertUnique_perm hids]
    unfold assertUnique
    rw [if_pos fun h => hn (List.dedup_eq_self.mp
      ((List.dedup_sublist _).eq_of_length h))]
    rfl

end Bazar.Finance
