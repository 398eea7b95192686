import Mathlib.Data.Rat.Floor
import Mathlib.Algebra.Order.Field.Basic
import Mathlib.Tactic.FieldSimp
import BazarApi.Finance.Allocation

/- `allocateByWeight` is the largest-remainder method, stated on the exact shares: rational
   numbers, their floors and their fractional parts. -/
namespace Apportion

/-- The exact share of a weight. -/
def share (pool total w : Int) : ℚ := (pool * w : ℚ) / total

section
variable {pool total w : Int}

theorem share_eq (pool w : Int) (ht : 0 < total) :
    share pool total w = quota pool total w + (fraction pool total w : ℚ) / total := by
  have ht' : (total : ℚ) ≠ 0 := by exact_mod_cast ht.ne'
  have h : (total : ℚ) * quota pool total w + fraction pool total w = pool * w := by
    exact_mod_cast total_mul_quota pool total w
  unfold share
  rw [← h]
  field_simp

theorem fraction_div_range (pool w : Int) (ht : 0 < total) :
    0 ≤ (fraction pool total w : ℚ) / total ∧ (fraction pool total w : ℚ) / total < 1 := by
  have ht' : (0 : ℚ) < total := by exact_mod_cast ht
  have h0 : (0 : ℚ) ≤ fraction pool total w := by exact_mod_cast fraction_nonneg pool w ht
  have h1 : (fraction pool total w : ℚ) < total := by exact_mod_cast fraction_lt pool w ht
  exact ⟨div_nonneg h0 ht'.le, (div_lt_one ht').mpr h1⟩

theorem floor_share (pool w : Int) (ht : 0 < total) : ⌊share pool total w⌋ = quota pool total w := by
  obtain ⟨h0, h1⟩ := fraction_div_range pool w ht
  rw [share_eq pool w ht, Int.floor_intCast_add, Int.floor_eq_zero_iff.mpr ⟨h0, h1⟩, add_zero]

theorem fract_share (pool w : Int) (ht : 0 < total) :
    Int.fract (share pool total w) = (fraction pool total w : ℚ) / total := by
  unfold Int.fract
  rw [floor_share pool w ht, share_eq pool w ht]
  ring

theorem fract_lt_iff (ht : 0 < total) (v w : Int) :
    Int.fract (share pool total v) < Int.fract (share pool total w) ↔
      fraction pool total v < fraction pool total w := by
  have ht' : (0 : ℚ) < total := by exact_mod_cast ht
  rw [fract_share pool v ht, fract_share pool w ht, div_lt_div_iff_of_pos_right ht']
  exact_mod_cast Iff.rfl

theorem fract_eq_iff (ht : 0 < total) (v w : Int) :
    Int.fract (share pool total v) = Int.fract (share pool total w) ↔
      fraction pool total v = fraction pool total w := by
  have ht' : (total : ℚ) ≠ 0 := by exact_mod_cast ht.ne'
  rw [fract_share pool v ht, fract_share pool w ht, div_left_inj' ht']
  exact_mod_cast Iff.rfl

/-- Where at least `k` scores are positive, so are the first `k`. -/
theorem pos_of_mem_take {α : Type} {score : α → Int} {l : List α}
    (hs : l.Pairwise fun a b => score b ≤ score a) :
    ∀ {k : Nat}, k ≤ l.countP (fun a => 0 < score a) → ∀ a ∈ l.take k, 0 < score a := by
  induction l with
  | nil => simp
  | cons x l ih =>
    obtain ⟨hx, hl⟩ := List.pairwise_cons.mp hs
    intro k hk a ha
    cases k with
    | zero => cases ha
    | succ k =>
      by_cases hpos : 0 < score x
      · rw [List.countP_cons_of_pos (p := fun b => decide (0 < score b)) (decide_eq_true hpos)] at hk
        rcases List.mem_cons.mp ha with rfl | ha
        · exact hpos
        · exact ih hl (Nat.le_of_succ_le_succ hk) a ha
      · -- nothing behind a score that is not positive is
        have hzero : (x :: l).countP (fun a => 0 < score a) = 0 := by
          refine List.countP_eq_zero.mpr fun b hb hd => ?_
          have hb' : 0 < score b := of_decide_eq_true hd
          rcases List.mem_cons.mp hb with rfl | hb
          · exact hpos hb'
          · exact hpos (hb'.trans_le (hx b hb))
        omega

end

end Apportion

namespace Bazar.Finance

open Apportion

variable {ι : Type} [LinearOrder ι]

/-! The winners. -/

section
variable {pool : Int} {items : List (Weighted ι)}

theorem ranking_sorted (rows : List (Row ι)) :
    (ranking rows).Pairwise (ByScore (fun row => row.remainder) fun row => row.id) :=
  List.pairwise_insertionSort _ _

/-- The row of a participant. -/
def rowOf (pool total : Int) (item : Weighted ι) : Row ι where
  id := item.id
  amount := quota pool total item.weight
  remainder := fraction pool total item.weight
  weight := item.weight

theorem mem_extra (hn : (items.map (·.id)).Nodup) {a : Weighted ι} (ha : a ∈ items) :
    a.id ∈ extra pool items ↔ rowOf pool (items.map (·.weight)).sum a ∈
      (ranking (floors pool items)).take (leftover pool (items.map (·.weight))).toNat := by
  constructor
  · intro h
    obtain ⟨row, hrow, hid⟩ := List.mem_map.mp h
    have hmem := List.mem_filter.mp ((ranking_perm _).subset (List.mem_of_mem_take hrow))
    obtain ⟨b, hb, rfl⟩ := List.mem_map.mp hmem.1
    obtain rfl : b = a := List.inj_on_of_nodup_map hn hb ha hid
    exact hrow
  · exact fun h => List.mem_map_of_mem (f := fun row : Row ι => row.id) h

/-- Who gets a leftover unit has a remainder. -/
theorem remainder_pos (hw : ∀ item ∈ items, 0 ≤ item.weight) (ht : 0 < (items.map (·.weight)).sum) :
    ∀ row ∈ (ranking (floors pool items)).take (leftover pool (items.map (·.weight))).toNat,
      0 < row.remainder := by
  refine pos_of_mem_take ((ranking_sorted _).imp ?_) ?_
  · rintro a b (h | ⟨h, -⟩)
    · exact h.le
    · exact h.ge
  · have hle := leftover_le pool ht
    have hcount : (ranking (floors pool items)).countP (fun row => 0 < row.remainder) =
        (items.map (·.weight)).countP fun w => 0 < fraction pool (items.map (·.weight)).sum w := by
      rw [(ranking_perm _).countP_eq, List.countP_filter, floors, List.countP_map, List.countP_map]
      refine List.countP_congr fun item hi => ?_
      simp only [Function.comp_apply, Bool.and_eq_true, decide_eq_true_eq, and_iff_left_iff_imp]
      intro hf
      refine (hw item hi).lt_of_ne fun h => ?_
      rw [← h, fraction_zero] at hf
      exact lt_irrefl _ hf
    rw [hcount]
    omega

/-- A winner comes before everybody who is none. -/
theorem extra_first (hn : (items.map (·.id)).Nodup) (hw : ∀ item ∈ items, 0 ≤ item.weight)
    (ht : 0 < (items.map (·.weight)).sum) {a b : Weighted ι} (ha : a ∈ items) (hb : b ∈ items)
    (hwin : a.id ∈ extra pool items) (hlose : b.id ∉ extra pool items) :
    fraction pool (items.map (·.weight)).sum b.weight < fraction pool (items.map (·.weight)).sum a.weight ∨
      fraction pool (items.map (·.weight)).sum a.weight =
        fraction pool (items.map (·.weight)).sum b.weight ∧ a.id < b.id := by
  rw [mem_extra hn ha] at hwin
  rw [mem_extra hn hb] at hlose
  by_cases hweight : 0 < b.weight
  · have hmem : rowOf pool (items.map (·.weight)).sum b ∈ ranking (floors pool items) :=
      (ranking_perm _).mem_iff.mpr (List.mem_filter.mpr ⟨List.mem_map_of_mem hb, decide_eq_true hweight⟩)
    rw [← List.take_append_drop (leftover pool (items.map (·.weight))).toNat
      (ranking (floors pool items))] at hmem
    have hdrop := (List.mem_append.mp hmem).resolve_left hlose
    have hsorted := ranking_sorted (floors pool items)
    rw [← List.take_append_drop (leftover pool (items.map (·.weight))).toNat
      (ranking (floors pool items))] at hsorted
    rcases (List.pairwise_append.mp hsorted).2.2 _ hwin _ hdrop with h | ⟨h, hle⟩
    · exact .inl h
    · refine .inr ⟨h, lt_of_le_of_ne hle fun he => hlose ?_⟩
      obtain rfl : a = b := List.inj_on_of_nodup_map hn ha hb he
      exact hwin
  · -- nobody without weight has a remainder
    have hzero : b.weight = 0 := le_antisymm (not_lt.mp hweight) (hw b hb)
    have hpos := remainder_pos hw ht _ hwin
    rw [hzero, fraction_zero]
    exact .inl hpos

end

/-! Equal weights. -/

section
variable {pool c : Int} {ids : List ι}

omit [LinearOrder ι] in
theorem sum_equal (ids : List ι) (c : Int) :
    ((ids.map fun id => (⟨id, c⟩ : Weighted ι)).map (·.weight)).sum = ids.length * c := by
  rw [List.map_map]
  induction ids with
  | nil => simp
  | cons id ids ih =>
    rw [List.map_cons, List.sum_cons, ih, List.length_cons]
    simp only [Function.comp_apply]
    push_cast
    ring

theorem quota_equal (pool n : Int) (hc : 0 < c) : quota pool (n * c) c = pool / n := by
  unfold quota
  exact Int.mul_ediv_mul_of_pos_left pool n hc

theorem fraction_equal (pool n : Int) (hc : 0 < c) : fraction pool (n * c) c = pool % n * c := by
  unfold fraction
  rw [mul_comm pool, mul_comm n, Int.mul_emod_mul_of_pos pool n hc, mul_comm]

/-- Everybody the same weight. -/
def equally (c : Int) (ids : List ι) : List (Weighted ι) := ids.map fun id => ⟨id, c⟩

omit [LinearOrder ι] in
theorem floors_equal (pool : Int) (hc : 0 < c) (ids : List ι) :
    floors pool (equally c ids) =
      ids.map fun id => ⟨id, pool / ids.length, pool % ids.length * c, c⟩ := by
  unfold floors equally
  rw [sum_equal, List.map_map]
  simp only [Function.comp_def, quota_equal pool _ hc, fraction_equal pool _ hc]

/-- Of one remainder, the ids alone decide. -/
theorem ranking_equal (pool : Int) (hc : 0 < c) (ids : List ι) :
    (ranking (floors pool (equally c ids))).map (·.id) = ascending ids := by
  have hall : (floors pool (equally c ids)).filter (fun row => 0 < row.weight) =
      floors pool (equally c ids) := by
    refine List.filter_eq_self.mpr fun row hrow => ?_
    rw [floors_equal pool hc] at hrow
    obtain ⟨id, -, rfl⟩ := List.mem_map.mp hrow
    exact decide_eq_true hc
  have hids : (floors pool (equally c ids)).map (·.id) = ids := by
    rw [floors_equal pool hc, List.map_map]
    exact List.map_id ids
  unfold ranking ascending
  rw [hall]
  refine (List.map_insertionSort _ (· ≤ ·) (fun row : Row ι => row.id) _ ?_).trans (by rw [hids])
  intro a ha b hb
  rw [floors_equal pool hc] at ha hb
  obtain ⟨x, -, rfl⟩ := List.mem_map.mp ha
  obtain ⟨y, -, rfl⟩ := List.mem_map.mp hb
  simp [ByScore]

omit [LinearOrder ι] in
theorem leftover_equal (pool : Int) (hc : 0 < c) (ids : List ι) :
    leftover pool ((equally c ids).map (·.weight)) = pool % ids.length := by
  have hsum : ∀ xs : List ι, ∀ m : Int, (xs.map fun _ => m).sum = xs.length * m := by
    intro xs m
    simp [List.map_const', List.sum_replicate]
  rw [← floors_amount, floors_equal pool hc, List.map_map]
  have h := Int.mul_ediv_add_emod pool ids.length
  have hmap : (ids.map ((fun row : Row ι => row.amount) ∘ fun id =>
      (⟨id, pool / ids.length, pool % ids.length * c, c⟩ : Row ι))).sum = ids.length * (pool / ids.length) :=
    hsum ids _
  rw [hmap]
  omega

theorem extra_equal (pool : Int) (hc : 0 < c) (ids : List ι) :
    extra pool (equally c ids) = (ascending ids).take (pool % ids.length).toNat := by
  unfold extra
  rw [List.map_take, ranking_equal pool hc, leftover_equal pool hc]

omit [LinearOrder ι] in
/-- The first ones of a list, by position and by membership. -/
theorem zipIdx_first {l : List ι} (hn : l.Nodup) (r : Int) (f : ι → Bool → Allocation ι)
    [DecidableEq ι] :
    (l.zipIdx.map fun p => f p.1 (decide ((p.2 : Int) < r))) =
      l.map fun id => f id (decide (id ∈ l.take r.toNat)) := by
  refine List.ext_getElem (by simp) fun i h1 h2 => ?_
  have hi : i < l.length := by simpa using h1
  have hmem : l[i] ∈ l.take r.toNat ↔ (i : Int) < r := by
    rw [List.mem_take_iff_getElem]
    constructor
    · rintro ⟨j, hj, he⟩
      have := (List.Nodup.getElem_inj_iff hn).mp he
      omega
    · exact fun h => ⟨i, by omega, rfl⟩
  simp only [List.getElem_map, List.getElem_zipIdx, Nat.zero_add, hmem]

/-- The equal split is the split by equal weights. -/
theorem allocateEqual_eq (hp : 0 ≤ pool) (hc : 0 < c) (hne : ids ≠ []) (hn : ids.Nodup) :
    allocateEqual pool ids = allocateByWeight pool (equally c ids) := by
  have hids : (equally c ids).map (·.id) = ids := by
    unfold equally
    rw [List.map_map]
    exact List.map_id ids
  have hlen : (0 : Int) < ids.length := by exact_mod_cast List.length_pos_iff.mpr hne
  have ht : 0 < ((equally c ids).map (·.weight)).sum := by
    have hsum := sum_equal ids c
    unfold equally
    rw [hsum]
    exact mul_pos hlen hc
  have hw : ∀ item ∈ equally c ids, 0 ≤ item.weight := by
    intro item hi
    obtain ⟨id, -, rfl⟩ := List.mem_map.mp hi
    exact hc.le
  rw [allocateByWeight_eq hp (by rwa [hids]) hw ht]
  unfold allocateEqual
  rw [if_neg (not_lt.mpr hp), assertUnique_of_nodup hn]
  refine (if_neg hne).trans (congrArg Except.ok ?_)
  have hshares : shares pool (equally c ids) = ids.map fun id =>
      ⟨id, pool / ids.length + if id ∈ (ascending ids).take (pool % ids.length).toNat then 1 else 0⟩ := by
    unfold shares
    rw [extra_equal pool hc, floors_equal pool hc, List.map_map]
    rfl
  have hsorted : sortById Allocation.id (shares pool (equally c ids)) = (ascending ids).map fun id =>
      ⟨id, pool / ids.length + if id ∈ (ascending ids).take (pool % ids.length).toNat then 1 else 0⟩ := by
    rw [hshares]
    unfold sortById ascending
    exact (List.map_insertionSort (fun x y : ι => x ≤ y) (fun a b : Allocation ι => a.id ≤ b.id) _ ids
      fun _ _ _ _ => Iff.rfl).symm
  rw [hsorted]
  have hzip := zipIdx_first ((ascending_perm ids).nodup_iff.mpr hn) (pool % ids.length)
    fun id b => ⟨id, pool / ids.length + if b then 1 else 0⟩
  simp only [decide_eq_true_eq] at hzip
  exact hzip

end

/-! The method. -/

theorem allocateByWeight_consistent (pool : Int) (items : List (Weighted ι)) :
    allocateByWeight pool items ≠ .error (.internal "Allocation does not add up to the pool") := by
  intro h
  by_cases hp : pool < 0
  · unfold allocateByWeight at h
    rw [if_pos hp] at h
    cases h
  by_cases hn : (items.map (·.id)).Nodup
  · by_cases hw : (items.any fun item => item.weight < 0) = true
    · unfold allocateByWeight at h
      rw [if_neg hp, assertUnique_of_nodup hn, if_pos hw] at h
      cases h
    · have hw' : ∀ item ∈ items, 0 ≤ item.weight := by
        intro item hi
        by_contra hlt
        exact hw (List.any_eq_true.mpr ⟨item, hi, decide_eq_true (not_le.mp hlt)⟩)
      have hsum : 0 ≤ (items.map (·.weight)).sum := by
        refine List.sum_nonneg fun w h => ?_
        obtain ⟨item, hi, rfl⟩ := List.mem_map.mp h
        exact hw' item hi
      rcases hsum.eq_or_lt with hz | ht
      · unfold allocateByWeight at h
        rw [if_neg hp, assertUnique_of_nodup hn, if_neg hw] at h
        simp only [← hz, if_true] at h
        split at h <;> cases h
      · rw [allocateByWeight_eq (not_lt.mp hp) hn hw' ht] at h
        cases h
  · unfold allocateByWeight assertUnique at h
    rw [if_neg hp, if_pos fun he => hn (List.dedup_eq_self.mp ((List.dedup_sublist _).eq_of_length he))] at h
    cases h

/-- Each participant gets the floor of the exact share or one more. The extra units are as many
as the floors leave of the pool and go to the first in the order of larger fractional part, then
smaller id; no weight, nothing; the order of the input does not matter; and the last check never
fails, on any input. The equal split is the split by equal weights. -/
theorem allocation_by_largest_remainder (pool : Int) (hp : 0 ≤ pool) :
    (∀ items : List (Weighted ι), (items.map (·.id)).Nodup → (∀ item ∈ items, 0 ≤ item.weight) →
      0 < (items.map (·.weight)).sum →
      ∃ out winners, allocateByWeight pool items = .ok out ∧
        (∀ items', items.Perm items' → allocateByWeight pool items' = .ok out) ∧
        out.map (·.id) = ascending (items.map (·.id)) ∧ (out.map (·.amount)).sum = pool ∧
        winners.Nodup ∧ winners ⊆ items.map (·.id) ∧
        (winners.length : Int) =
          pool - (items.map fun item => ⌊share pool (items.map (·.weight)).sum item.weight⌋).sum ∧
        (∀ a ∈ items, ∀ b ∈ items, a.id ∈ winners → b.id ∉ winners →
          Int.fract (share pool (items.map (·.weight)).sum b.weight) <
              Int.fract (share pool (items.map (·.weight)).sum a.weight) ∨
            Int.fract (share pool (items.map (·.weight)).sum a.weight) =
              Int.fract (share pool (items.map (·.weight)).sum b.weight) ∧ a.id < b.id) ∧
        ∀ a ∈ items,
          ⟨a.id, ⌊share pool (items.map (·.weight)).sum a.weight⌋ + if a.id ∈ winners then 1 else 0⟩ ∈ out ∧
            (a.weight = 0 → ⟨a.id, 0⟩ ∈ out)) ∧
    (∀ p (items : List (Weighted ι)),
      allocateByWeight p items ≠ .error (.internal "Allocation does not add up to the pool")) ∧
    ∀ (ids : List ι) (c : Int), ids.Nodup → ids ≠ [] → 0 < c →
      allocateEqual pool ids = allocateByWeight pool (ids.map fun id => ⟨id, c⟩) := by
  refine ⟨?_, allocateByWeight_consistent, fun ids c hn hne hc => allocateEqual_eq hp hc hne hn⟩
  intro items hn hw ht
  have heq := allocateByWeight_eq hp hn hw ht
  have hids : (shares pool items).map (·.id) = items.map (·.id) := by
    unfold shares
    rw [List.map_map]
    exact floors_id pool items
  have hshare : ∀ a ∈ items, (⟨a.id, ⌊share pool (items.map (·.weight)).sum a.weight⌋ +
      if a.id ∈ extra pool items then 1 else 0⟩ : Allocation ι) ∈ sortById Allocation.id (shares pool items) := by
    intro a ha
    rw [floor_share pool a.weight ht]
    exact (sortById_perm _ _).mem_iff.mpr (List.mem_map.mpr
      ⟨rowOf pool (items.map (·.weight)).sum a, List.mem_map_of_mem ha, rfl⟩)
  refine ⟨_, extra pool items, heq, fun items' hperm => (allocateByWeight_perm pool hperm).symm.trans heq,
    ?_, ((sortById_perm _ _).map _).sum_eq.trans (shares_sum hn hw ht), extra_nodup pool hn, ?_, ?_, ?_,
    fun a ha => ⟨hshare a ha, ?_⟩⟩
  · rw [← hids]
    unfold sortById ascending
    exact List.map_insertionSort _ (· ≤ ·) _ _ fun _ _ _ _ => Iff.rfl
  · rw [← floors_id pool items]
    exact extra_subset
  · rw [extra_length hw ht]
    unfold leftover
    rw [List.map_map]
    simp only [Function.comp_def, floor_share pool _ ht]
  · intro a ha b hb hwin hlose
    rw [fract_lt_iff ht, fract_eq_iff ht]
    exact extra_first hn hw ht ha hb hwin hlose
  · intro hzero
    have h := hshare a ha
    obtain ⟨item, hi, hid, -, -, h0⟩ := mem_shares hn ((sortById_perm _ _).mem_iff.mp h)
    obtain rfl : a = item := List.inj_on_of_nodup_map hn ha hi hid
    have hamount := h0 hzero
    simp only at hamount
    rwa [hamount] at h

/-- Ten units by weights 1, 1, 1: the first id gets the one that is left. -/
theorem allocation_by_largest_remainder_thirds :
    allocateEqual 10 [3, 1, 2] = allocateByWeight 10 ([3, 1, 2].map fun id => ⟨id, 5⟩) ∧
      ∃ out winners, allocateByWeight 10 ([⟨3, 1⟩, ⟨1, 1⟩, ⟨2, 1⟩] : List (Weighted Nat)) = .ok out ∧
        winners ⊆ [3, 1, 2] ∧ (out.map (·.amount)).sum = 10 := by
  obtain ⟨hweights, -, hequal⟩ := allocation_by_largest_remainder (ι := Nat) 10 (by decide)
  obtain ⟨out, winners, hout, -, -, hsum, -, hsub, -⟩ := hweights [⟨3, 1⟩, ⟨1, 1⟩, ⟨2, 1⟩]
    (by decide) (by decide) (by decide)
  exact ⟨hequal [3, 1, 2] 5 (by decide) (by decide) (by decide), out, winners, hout, hsub, hsum⟩

end Bazar.Finance
