import Mathlib.Data.List.Sort

/- Sorting by a key (`Array.prototype.sort` with a comparator of keys is stable): lines of
   one key keep their order, so two lists sort to the same list exactly when they agree on
   the lines of every key. -/
namespace Js

variable {α K : Type} [DecidableEq K] {key : α → K} {le : K → K → Prop}

/-- The elements of one key keep their order. -/
theorem filter_insertionSort (key : α → K) (le : K → K → Prop) [DecidableRel le]
    (hr : ∀ k, le k k) (l : List α) (k : K) :
    (l.insertionSort fun a b => le (key a) (key b)).filter (key · = k) =
      l.filter (key · = k) := by
  have hsorted : (l.filter (key · = k)).Pairwise fun a b => le (key a) (key b) := by
    rw [List.pairwise_filter]
    refine List.pairwise_of_forall fun a b ha hb => ?_
    rw [of_decide_eq_true ha, of_decide_eq_true hb]
    exact hr k
  have hsub := (List.sublist_insertionSort hsorted List.filter_sublist).filter (key · = k)
  rw [List.filter_filter] at hsub
  simp only [Bool.and_self] at hsub
  refine (hsub.eq_of_length ?_).symm
  exact (((List.perm_insertionSort _ l).filter _).length_eq).symm

theorem mem_iff_of_filter {l₁ l₂ : List α}
    (h : ∀ k, l₁.filter (key · = k) = l₂.filter (key · = k)) (x : α) : x ∈ l₁ ↔ x ∈ l₂ := by
  have hx : x ∈ l₁.filter (key · = key x) ↔ x ∈ l₂.filter (key · = key x) := by rw [h]
  simpa using hx

/-- Two sorted lists that agree on the elements of every key are equal, when the order
tells the keys apart. -/
theorem eq_of_sorted_of_filter {l₁ l₂ : List α}
    (hanti : ∀ a ∈ l₁, ∀ b ∈ l₁, le (key a) (key b) → le (key b) (key a) → key a = key b)
    (h₁ : l₁.Pairwise fun a b => le (key a) (key b))
    (h₂ : l₂.Pairwise fun a b => le (key a) (key b))
    (h : ∀ k, l₁.filter (key · = k) = l₂.filter (key · = k)) : l₁ = l₂ := by
  induction l₁ generalizing l₂ with
  | nil =>
    cases l₂ with
    | nil => rfl
    | cons b l₂ => cases (mem_iff_of_filter h b).mpr List.mem_cons_self
  | cons a l₁ ih =>
    cases l₂ with
    | nil => cases (mem_iff_of_filter h a).mp List.mem_cons_self
    | cons b l₂ =>
      obtain ⟨ha, hs₁⟩ := List.pairwise_cons.mp h₁
      obtain ⟨hb, hs₂⟩ := List.pairwise_cons.mp h₂
      have hb₁ : b ∈ a :: l₁ := (mem_iff_of_filter h b).mpr List.mem_cons_self
      have ha₂ : a ∈ b :: l₂ := (mem_iff_of_filter h a).mp List.mem_cons_self
      -- both heads are least, so they have one key
      have hkey : key a = key b := by
        rcases List.mem_cons.mp hb₁ with rfl | hb'
        · rfl
        rcases List.mem_cons.mp ha₂ with rfl | ha'
        · rfl
        exact hanti a List.mem_cons_self b hb₁ (ha b hb') (hb a ha')
      have hhead := h (key a)
      rw [List.filter_cons_of_pos (by simp), List.filter_cons_of_pos (by simp [hkey])] at hhead
      obtain ⟨rfl, -⟩ := List.cons.inj hhead
      have htail : ∀ k, l₁.filter (key · = k) = l₂.filter (key · = k) := by
        intro k
        have hk := h k
        by_cases hak : key a = k
        · rw [List.filter_cons_of_pos (by simp [hak]), List.filter_cons_of_pos (by simp [hak])] at hk
          exact (List.cons.inj hk).2
        · rwa [List.filter_cons_of_neg (by simp [hak]), List.filter_cons_of_neg (by simp [hak])] at hk
      rw [ih (fun x hx y hy => hanti x (List.mem_cons_of_mem a hx) y (List.mem_cons_of_mem a hy))
        hs₁ hs₂ htail]

/-- Two lists sort to the same list exactly when they agree on the elements of every key. -/
theorem insertionSort_eq_iff (key : α → K) (le : K → K → Prop) [DecidableRel le] {l₁ l₂ : List α}
    (htotal : ∀ j k, le j k ∨ le k j)
    (htrans : ∀ i j k, le i j → le j k → le i k)
    (hanti : ∀ a ∈ l₁, ∀ b ∈ l₁, le (key a) (key b) → le (key b) (key a) → key a = key b) :
    (l₁.insertionSort fun a b => le (key a) (key b)) =
        (l₂.insertionSort fun a b => le (key a) (key b)) ↔
      ∀ k, l₁.filter (key · = k) = l₂.filter (key · = k) := by
  have hrefl : ∀ k, le k k := fun k => (htotal k k).elim id id
  have : Std.Total fun a b : α => le (key a) (key b) := ⟨fun _ _ => htotal _ _⟩
  have : IsTrans α fun a b => le (key a) (key b) := ⟨fun _ _ _ => htrans _ _ _⟩
  constructor
  · intro h k
    rw [← filter_insertionSort key le hrefl l₁ k, h, filter_insertionSort key le hrefl]
  · intro h
    refine eq_of_sorted_of_filter ?_ (List.pairwise_insertionSort _ l₁)
      (List.pairwise_insertionSort _ l₂) ?_
    · intro a ha b hb
      exact hanti a (List.mem_insertionSort _ |>.mp ha) b (List.mem_insertionSort _ |>.mp hb)
    · intro k
      rw [filter_insertionSort key le hrefl, filter_insertionSort key le hrefl, h]

/-- Reordering within keys is reordering. -/
theorem perm_iff_filter (key : α → K) {l₁ l₂ : List α} [DecidableEq α] :
    l₁.Perm l₂ ↔ ∀ k, (l₁.filter (key · = k)).Perm (l₂.filter (key · = k)) := by
  constructor
  · intro h k
    exact h.filter _
  · intro h
    rw [List.perm_iff_count]
    intro a
    have ha := (h (key a)).count_eq a
    rwa [List.count_filter (by simp), List.count_filter (by simp)] at ha

end Js
