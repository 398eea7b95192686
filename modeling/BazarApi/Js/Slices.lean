import Mathlib.Data.Prod.Lex
import Mathlib.Order.Compare
import Mathlib.Data.List.Sort
import Mathlib.Data.String.Basic

/- Lists that are sorted with a comparator and cut into pages by an offset. Where the
   comparator ranks by a key and then by an identifier that tells the elements apart, the
   order in which they come does not matter, and the pages are those of one sequence. -/
namespace Js

variable {α κ : Type}

/-- `Array.prototype.sort` with a comparator, by the sign of what it answers. -/
def sortWith (cmp : α → α → Ordering) (l : List α) : List α := l.mergeSort fun a b => cmp a b ≠ .gt

/-- The pages of a list are its beginning. -/
theorem flatMap_slices (l : List α) (limit n : Nat) :
    ((List.range n).flatMap fun k => (l.drop (k * limit)).take limit) = l.take (n * limit) := by
  induction n with
  | zero => simp
  | succ n ih =>
    rw [List.range_succ, List.flatMap_append, ih, List.flatMap_singleton, Nat.succ_mul, List.take_add]

theorem sortWith_perm (cmp : α → α → Ordering) (l : List α) : (sortWith cmp l).Perm l :=
  List.mergeSort_perm l _

section
variable [LinearOrder κ] {rank : α → κ} {name : α → String} {collate : String → String → Ordering}
  {cmp : α → α → Ordering}

/-- A comparator that ranks and then collates is a total preorder. -/
theorem ranked_trans [Std.TransCmp collate]
    (hcmp : ∀ a b, cmp a b = (compare (rank a) (rank b)).then (collate (name a) (name b))) :
    Std.TransCmp cmp := by
  have hrank : Std.TransCmp fun a b : α => compare (rank a) (rank b) :=
    { eq_swap := Std.OrientedCmp.eq_swap, isLE_trans := Std.TransCmp.isLE_trans }
  have hname : Std.TransCmp fun a b : α => collate (name a) (name b) :=
    { eq_swap := Std.OrientedCmp.eq_swap, isLE_trans := Std.TransCmp.isLE_trans }
  have heq : cmp = compareLex (fun a b => compare (rank a) (rank b))
      fun a b => collate (name a) (name b) := funext fun a => funext fun b => hcmp a b
  rw [heq]
  infer_instance

theorem sortWith_pairwise (hcmp : Std.TransCmp cmp) (l : List α) :
    (sortWith cmp l).Pairwise fun a b => cmp a b ≠ .gt := by
  have hle := @List.pairwise_mergeSort _ (fun a b => decide (cmp a b ≠ .gt))
    (fun a b c hab hbc => by
      rw [decide_eq_true_eq, Ne, Ordering.ne_gt_iff_isLE] at hab hbc ⊢
      exact Std.TransCmp.isLE_trans hab hbc)
    (fun a b => by
      have hswap : cmp b a = (cmp a b).swap := Std.OrientedCmp.eq_swap
      rw [hswap]
      cases cmp a b <;> simp) l
  exact hle.imp fun h => of_decide_eq_true h

/-- Where the collation is the order of the names, the elements stand in strict order of rank
    and name. -/
theorem sortWith_strict [Std.TransCmp collate]
    (hcmp : ∀ a b, cmp a b = (compare (rank a) (rank b)).then (collate (name a) (name b)))
    {l : List α} (hnodup : (l.map name).Nodup)
    (hname : ∀ a ∈ l, ∀ b ∈ l, collate (name a) (name b) = compare (name a) (name b)) :
    (sortWith cmp l).Pairwise fun a b => toLex (rank a, name a) < toLex (rank b, name b) := by
  have hperm := sortWith_perm cmp l
  have hne : (sortWith cmp l).Pairwise fun a b => name a ≠ name b :=
    List.pairwise_map.mp ((hperm.map name).nodup_iff.mpr hnodup)
  have hle := sortWith_pairwise (ranked_trans hcmp) l
  refine (hle.and hne).imp_of_mem ?_
  rintro a b ha hb ⟨hab, hne⟩
  rw [hcmp, hname a (hperm.mem_iff.mp ha) b (hperm.mem_iff.mp hb)] at hab
  rw [Prod.Lex.toLex_lt_toLex]
  dsimp only
  rcases lt_trichotomy (rank a) (rank b) with hlt | heq | hgt
  · exact Or.inl hlt
  · refine Or.inr ⟨heq, ?_⟩
    rw [compare_eq_iff_eq.mpr heq] at hab
    refine lt_of_le_of_ne ?_ hne
    by_contra hnot
    exact hab (compare_gt_iff_gt.mpr (not_le.mp hnot))
  · rw [compare_gt_iff_gt.mpr hgt] at hab
    exact absurd rfl hab

/-- Sorting with such a comparator gives one list, whatever the order of the elements and the
    collation that is used. -/
theorem eq_sortWith [Std.TransCmp collate]
    (hcmp : ∀ a b, cmp a b = (compare (rank a) (rank b)).then (collate (name a) (name b)))
    {l s : List α} (hnodup : (l.map name).Nodup)
    (hname : ∀ a ∈ l, ∀ b ∈ l, collate (name a) (name b) = compare (name a) (name b))
    (hperm : s.Perm l)
    (hs : s.Pairwise fun a b => toLex (rank a, name a) < toLex (rank b, name b)) :
    sortWith cmp l = s := by
  have hstrict := sortWith_strict hcmp hnodup hname
  refine ((sortWith_perm cmp l).trans hperm.symm).eq_of_pairwise ?_ hstrict hs
  intro a b _ _ hab hba
  exact absurd (hab.trans hba) (lt_irrefl (α := κ ×ₗ String) _)

/-- A filter before the sort is one after it. -/
theorem sortWith_filter [Std.TransCmp collate]
    (hcmp : ∀ a b, cmp a b = (compare (rank a) (rank b)).then (collate (name a) (name b)))
    {l m : List α} (hp : l.Perm m) (hnodup : (m.map name).Nodup)
    (hname : ∀ a ∈ m, ∀ b ∈ m, collate (name a) (name b) = compare (name a) (name b))
    (p : α → Bool) : sortWith cmp (l.filter p) = (sortWith cmp m).filter p := by
  have hmem {a : α} (ha : a ∈ l.filter p) : a ∈ m := hp.mem_iff.mp (List.mem_of_mem_filter ha)
  refine eq_sortWith hcmp ?_ (fun a ha b hb => hname a (hmem ha) b (hmem hb)) ?_ ?_
  · exact ((hp.map name).nodup_iff.mpr hnodup).sublist (List.filter_sublist.map name)
  · exact ((sortWith_perm cmp m).trans hp.symm).filter p
  · exact (sortWith_strict hcmp hnodup hname).filter p

/-- Two comparators of one rank sort alike, where both collate in the order of the names. -/
theorem sortWith_collate [Std.TransCmp collate] {collate' : String → String → Ordering}
    [Std.TransCmp collate'] {cmp' : α → α → Ordering}
    (hcmp : ∀ a b, cmp a b = (compare (rank a) (rank b)).then (collate (name a) (name b)))
    (hcmp' : ∀ a b, cmp' a b = (compare (rank a) (rank b)).then (collate' (name a) (name b)))
    {l m : List α} (hp : l.Perm m) (hnodup : (m.map name).Nodup)
    (hname : ∀ a ∈ m, ∀ b ∈ m, collate (name a) (name b) = compare (name a) (name b))
    (hname' : ∀ a ∈ m, ∀ b ∈ m, collate' (name a) (name b) = compare (name a) (name b)) :
    sortWith cmp' l = sortWith cmp m :=
  eq_sortWith hcmp' ((hp.map name).nodup_iff.mpr hnodup)
    (fun a ha b hb => hname' a (hp.mem_iff.mp ha) b (hp.mem_iff.mp hb))
    ((sortWith_perm cmp m).trans hp.symm) (sortWith_strict hcmp hnodup hname)

end

end Js
