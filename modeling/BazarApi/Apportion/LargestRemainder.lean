import Mathlib.Data.List.Sort
import Mathlib.Data.List.Count
import Mathlib.Algebra.BigOperators.Group.List.Basic
import Mathlib.Algebra.Order.BigOperators.Group.List
import Mathlib.Tactic.Linarith
import Mathlib.Tactic.Ring

/- Sharing an integer amount in proportion to integer weights. Each weight has a quota,
   its exact share rounded down, and a fraction, what the rounding dropped in units of the
   total weight. The fractions add up to the total weight times what is left over
   (`total_mul_leftover`), so at least as many fractions are positive as units are left over
   (`leftover_le`): one more unit each for that many entries makes the sum exact
   (`sum_add_indicator`). A sort by a total order does not depend on the order it starts
   from (`insertionSort_eq_of_perm`). -/
namespace Apportion

/-! Sorting. -/

section
variable {α : Type} (r : α → α → Prop) [DecidableRel r] [Std.Total r] [IsTrans α r]

/-- Lists of the same elements are sorted into one list. -/
theorem insertionSort_eq_of_perm {l l' : List α} (hp : l.Perm l')
    (ha : ∀ a ∈ l, ∀ b ∈ l, r a b → r b a → a = b) :
    l.insertionSort r = l'.insertionSort r := by
  have hl := List.perm_insertionSort r l
  have hl' := List.perm_insertionSort r l'
  refine List.Perm.eq_of_pairwise ?_ (List.pairwise_insertionSort r _)
    (List.pairwise_insertionSort r _) (hl.trans (hp.trans hl'.symm))
  intro a b hma hmb hab hba
  exact ha a (hl.subset hma) b (hp.symm.subset (hl'.subset hmb)) hab hba

end

/-- Larger scores first, and of one score the smaller key. -/
def ByScore {α ι : Type} [LinearOrder ι] (score : α → Int) (key : α → ι) (a b : α) : Prop :=
  score b < score a ∨ score a = score b ∧ key a ≤ key b

section
variable {α ι : Type} [LinearOrder ι] {score : α → Int} {key : α → ι}

instance : DecidableRel (ByScore score key) :=
  fun a b => inferInstanceAs (Decidable (score b < score a ∨ score a = score b ∧ key a ≤ key b))

instance : Std.Total (ByScore score key) where
  total a b := by
    rcases lt_trichotomy (score a) (score b) with h | h | h
    · exact .inr (.inl h)
    · rcases le_total (key a) (key b) with hk | hk
      · exact .inl (.inr ⟨h, hk⟩)
      · exact .inr (.inr ⟨h.symm, hk⟩)
    · exact .inl (.inl h)

instance : IsTrans α (ByScore score key) where
  trans a b c := by
    rintro (h | ⟨h, hk⟩) (h' | ⟨h', hk'⟩)
    · exact .inl (h'.trans h)
    · exact .inl (h' ▸ h)
    · exact .inl (h.symm ▸ h')
    · exact .inr ⟨h.trans h', hk.trans hk'⟩

theorem ByScore.key_eq {a b : α} (h : ByScore score key a b) (h' : ByScore score key b a) :
    key a = key b := by
  rcases h with h | ⟨he, hk⟩
  · rcases h' with h' | ⟨he, -⟩
    · exact absurd h' (lt_asymm h)
    · exact absurd he h.ne
  · rcases h' with h' | ⟨-, hk'⟩
    · exact absurd he h'.ne
    · exact le_antisymm hk hk'

end

/-! One more for some. -/

/-- One unit more for each of some entries adds their number. -/
theorem sum_add_indicator {α ι : Type} [DecidableEq ι] {l : List α} (key : α → ι) {s : List ι}
    (hl : (l.map key).Nodup) (hs : s.Nodup) (hsub : s ⊆ l.map key) (f : α → Int) :
    (l.map fun a => f a + if key a ∈ s then 1 else 0).sum = (l.map f).sum + s.length := by
  have hcount : (l.map fun a => (if key a ∈ s then 1 else 0 : Int)).sum = s.length := by
    have hperm : ((l.map key).filter (· ∈ s)).Perm s := by
      rw [List.perm_ext_iff_of_nodup (hl.filter _) hs]
      intro x
      rw [List.mem_filter]
      simp only [decide_eq_true_eq]
      exact ⟨And.right, fun hx => ⟨hsub hx, hx⟩⟩
    rw [← hperm.length_eq]
    clear hl hs hsub hperm
    induction l with
    | nil => rfl
    | cons a l ih =>
      rw [List.map_cons, List.sum_cons, ih, List.map_cons, List.filter_cons]
      by_cases ha : key a ∈ s
      · rw [if_pos ha, if_pos (decide_eq_true ha), List.length_cons]
        omega
      · rw [if_neg ha, if_neg (by simpa using ha)]
        omega
  rw [← hcount, ← List.sum_map_add]

/-! Quotas. -/

/-- The share of a weight, rounded down. -/
def quota (pool total w : Int) : Int := pool * w / total

/-- What the rounding drops, in units of the total weight. -/
def fraction (pool total w : Int) : Int := pool * w % total

/-- What the quotas leave of the pool. -/
def leftover (pool : Int) (ws : List Int) : Int := pool - (ws.map (quota pool ws.sum)).sum

section
variable {pool total w : Int} {ws : List Int}

theorem total_mul_quota (pool total w : Int) :
    total * quota pool total w + fraction pool total w = pool * w :=
  Int.mul_ediv_add_emod _ _

theorem fraction_nonneg (pool w : Int) (ht : 0 < total) : 0 ≤ fraction pool total w :=
  Int.emod_nonneg _ ht.ne'

theorem fraction_lt (pool w : Int) (ht : 0 < total) : fraction pool total w < total :=
  Int.emod_lt_of_pos _ ht

theorem fraction_zero (pool total : Int) : fraction pool total 0 = 0 := by
  unfold fraction
  rw [mul_zero, Int.zero_emod]

theorem quota_zero (pool total : Int) : quota pool total 0 = 0 := by
  unfold quota
  rw [mul_zero, Int.zero_ediv]

theorem quota_nonneg (hp : 0 ≤ pool) (hw : 0 ≤ w) (ht : 0 < total) : 0 ≤ quota pool total w :=
  Int.ediv_nonneg (mul_nonneg hp hw) ht.le

theorem sum_quota (pool total : Int) (ws : List Int) :
    total * (ws.map (quota pool total)).sum + (ws.map (fraction pool total)).sum =
      pool * ws.sum := by
  induction ws with
  | nil => simp
  | cons w ws ih =>
    have hw := total_mul_quota pool total w
    simp only [List.map_cons, List.sum_cons, mul_add] at ih ⊢
    linarith

theorem total_mul_leftover (pool : Int) (ws : List Int) :
    ws.sum * leftover pool ws = (ws.map (fraction pool ws.sum)).sum := by
  have h := sum_quota pool ws.sum ws
  unfold leftover
  rw [mul_sub]
  linarith

/-- The fractions are fewer units than positive fractions there are. -/
theorem sum_fraction_le (ht : 0 < total) (pool : Int) (ws : List Int) :
    (ws.map (fraction pool total)).sum ≤
      total * (ws.countP fun w => 0 < fraction pool total w : Nat) := by
  induction ws with
  | nil => simp
  | cons w ws ih =>
    rw [List.map_cons, List.sum_cons, List.countP_cons]
    have hlt := fraction_lt pool w ht
    split
    · push_cast
      linarith
    · rename_i hw
      have hw : ¬ 0 < fraction pool total w := by simpa using hw
      push_cast
      linarith

theorem leftover_nonneg (pool : Int) (ht : 0 < ws.sum) : 0 ≤ leftover pool ws := by
  have h := total_mul_leftover pool ws
  have hsum : 0 ≤ (ws.map (fraction pool ws.sum)).sum := by
    refine List.sum_nonneg ?_
    intro x hx
    obtain ⟨w, -, rfl⟩ := List.mem_map.mp hx
    exact fraction_nonneg pool w ht
  rw [← h] at hsum
  exact nonneg_of_mul_nonneg_right hsum ht

/-- At least as many fractions are positive as units are left over. -/
theorem leftover_le (pool : Int) (ht : 0 < ws.sum) :
    leftover pool ws ≤ (ws.countP fun w => 0 < fraction pool ws.sum w : Nat) := by
  have h := total_mul_leftover pool ws
  have hle := sum_fraction_le ht pool ws
  rw [← h] at hle
  exact le_of_mul_le_mul_left hle ht

end

end Apportion
