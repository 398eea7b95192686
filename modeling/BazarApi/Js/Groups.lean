import BazarApi.Js.Map
import Mathlib.Data.List.Induction

/- Grouping by a key with a `Map`: `collect` runs over a list and folds each element into the
   row of its key, which it starts if there is none. What a row of the result holds is the
   fold over the elements of its key (`collect_get`), and a sum over the rows is the sum
   over the elements (`sum_collect`). Where neither the start of a row nor the order of what
   is folded into it matters, the order of the list does not (`values_collect_perm`). -/
namespace Js

namespace Map
variable {K V : Type} [DecidableEq K] {m : Map K V} {k k' : K} {v : V}

theorem get_cons (e : K × V) (m : Map K V) (k : K) :
    get (e :: m) k = if e.1 = k then some e.2 else m.get k := by
  unfold get
  by_cases h : e.1 = k
  · rw [List.find?_cons_of_pos (by simpa using h), if_pos h]
    rfl
  · rw [List.find?_cons_of_neg (by simpa using h), if_neg h]

/-- Without the key, setting it appends. -/
theorem set_cons_ne {e : K × V} (h : e.1 ≠ k) : set (e :: m) k v = e :: m.set k v := by
  unfold set has
  rw [List.any_cons, decide_eq_false h, Bool.false_or]
  split
  · rw [List.map_cons, if_neg h]
  · rfl

theorem set_cons_eq {e : K × V} (hn : keys (e :: m) |>.Nodup) (h : e.1 = k) :
    set (e :: m) k v = (k, v) :: m := by
  unfold set has
  rw [List.any_cons, decide_eq_true h, Bool.true_or, if_pos rfl, List.map_cons, if_pos h]
  congr 1
  refine (List.map_congr_left ?_).trans (List.map_id _)
  intro x hx
  have hne : x.1 ≠ k := by
    intro hk
    have hnot := (List.nodup_cons.mp hn).1
    exact hnot (List.mem_map.mpr ⟨x, hx, hk.trans h.symm⟩)
  rw [if_neg hne]
  rfl

/-- The key set is there, and the others as they were. -/
theorem get_set (hn : m.keys.Nodup) (k k' : K) (v : V) :
    (m.set k v).get k' = if k = k' then some v else m.get k' := by
  induction m with
  | nil => exact get_cons (k, v) [] k'
  | cons e m ih =>
    by_cases h : e.1 = k
    · rw [set_cons_eq hn h, get_cons, get_cons, h]
      split <;> rfl
    · rw [set_cons_ne h, get_cons, get_cons, ih (List.nodup_cons.mp hn).2]
      by_cases he : e.1 = k'
      · rw [if_pos he, if_pos he, if_neg fun hk => h (he.trans hk.symm)]
      · rw [if_neg he, if_neg he]

theorem mem_keys_set (hn : m.keys.Nodup) : k' ∈ (m.set k v).keys ↔ k' = k ∨ k' ∈ m.keys := by
  induction m with
  | nil => simp [set, has, keys]
  | cons e m ih =>
    by_cases h : e.1 = k
    · rw [set_cons_eq hn h]
      simp [keys, h]
    · rw [set_cons_ne h]
      simp only [keys, List.map_cons, List.mem_cons] at ih ⊢
      rw [ih (List.nodup_cons.mp hn).2]
      tauto

theorem nodup_set (hn : m.keys.Nodup) : (m.set k v).keys.Nodup := by
  induction m with
  | nil => exact List.nodup_singleton k
  | cons e m ih =>
    obtain ⟨hnot, hrest⟩ := List.nodup_cons.mp hn
    by_cases h : e.1 = k
    · rw [set_cons_eq hn h]
      exact List.nodup_cons.mpr ⟨by rw [← h]; exact hnot, hrest⟩
    · rw [set_cons_ne h]
      refine List.nodup_cons.mpr ⟨?_, ih hrest⟩
      intro hm
      rcases (mem_keys_set hrest).mp hm with he | hm
      · exact h he
      · exact hnot hm

/-- A sum over the values changes by the value set. -/
theorem sum_set (hn : m.keys.Nodup) (f : V → Int) :
    ((m.set k v).values.map f).sum =
      (m.values.map f).sum + f v - ((m.get k).map f).getD 0 := by
  induction m with
  | nil => simp [set, has, get, values]
  | cons e m ih =>
    have hrest := (List.nodup_cons.mp hn).2
    by_cases h : e.1 = k
    · rw [set_cons_eq hn h, get_cons, if_pos h]
      simp only [values, List.map_cons, List.sum_cons, Option.map_some, Option.getD_some]
      omega
    · rw [set_cons_ne h, get_cons, if_neg h]
      have ih := ih hrest
      simp only [values, List.map_cons, List.sum_cons] at ih ⊢
      omega

/-- Two maps that hold the same are the same up to order. -/
theorem perm_of_get {m' : Map K V} (hn : m.keys.Nodup) (hn' : m'.keys.Nodup)
    (h : ∀ k, m.get k = m'.get k) : m.Perm m' := by
  refine (List.perm_ext_iff_of_nodup (hn.of_map _) (hn'.of_map _)).mpr ?_
  rintro ⟨k, v⟩
  constructor
  · intro hm
    exact mem_of_get ((h k).symm.trans (get_of_mem hn hm))
  · intro hm
    exact mem_of_get ((h k).trans (get_of_mem hn' hm))

end Map

section
variable {α K V : Type} [DecidableEq K] (key : α → K) (fresh : α → V) (add : V → α → V)

/-- One element folded into the row of its key. -/
def put (m : Map K V) (x : α) : Map K V :=
  m.set (key x) (add ((m.get (key x)).getD (fresh x)) x)

/-- The rows of a list, in the order in which their keys first come. -/
def collect (xs : List α) : Map K V := xs.foldl (put key fresh add) []

theorem collect_concat (xs : List α) (x : α) :
    collect key fresh add (xs ++ [x]) = put key fresh add (collect key fresh add xs) x := by
  unfold collect
  rw [List.foldl_append]
  rfl

theorem nodup_collect (xs : List α) : (collect key fresh add xs).keys.Nodup := by
  induction xs using List.reverseRecOn with
  | nil => exact List.nodup_nil
  | append_singleton xs x ih =>
    rw [collect_concat]
    exact Map.nodup_set ih

theorem mem_keys_collect {xs : List α} {k : K} :
    k ∈ (collect key fresh add xs).keys ↔ ∃ x ∈ xs, key x = k := by
  induction xs using List.reverseRecOn with
  | nil => simp [collect, Map.keys]
  | append_singleton xs x ih =>
    rw [collect_concat, put, Map.mem_keys_set (nodup_collect key fresh add xs), ih]
    constructor
    · rintro (rfl | ⟨y, hy, hk⟩)
      · exact ⟨x, by simp, rfl⟩
      · exact ⟨y, List.mem_append_left _ hy, hk⟩
    · rintro ⟨y, hy, rfl⟩
      rcases List.mem_append.mp hy with hy | hy
      · exact .inr ⟨y, hy, rfl⟩
      · rw [List.mem_singleton.mp hy]
        exact .inl rfl

/-- What the row of a key holds is the fold over the elements of that key. -/
theorem collect_get {β : Type} (f : V → β) (z : β) (step : β → α → β)
    (hz : ∀ x, f (fresh x) = z) (hs : ∀ v x, f (add v x) = step (f v) x) (xs : List α) (k : K) :
    (((collect key fresh add xs).get k).map f).getD z =
      (xs.filter (key · = k)).foldl step z := by
  induction xs using List.reverseRecOn with
  | nil => rfl
  | append_singleton xs x ih =>
    rw [collect_concat, put, Map.get_set (nodup_collect key fresh add xs), List.filter_append]
    by_cases h : key x = k
    · rw [if_pos h, List.filter_cons_of_pos (by simpa using h), List.filter_nil,
        List.foldl_append, ← ih]
      subst h
      cases (collect key fresh add xs).get (key x) with
      | none => exact (hs _ _).trans (by rw [Option.getD_none, hz]; rfl)
      | some v => exact hs v x
    · rw [if_neg h, List.filter_cons_of_neg (by simpa using h), List.filter_nil,
        List.append_nil, ih]

/-- The rows are those of the keys. -/
theorem mem_values_collect {xs : List α} {v : V} (hv : v ∈ (collect key fresh add xs).values) :
    ∃ x ∈ xs, (collect key fresh add xs).get (key x) = some v := by
  obtain ⟨⟨k, _⟩, hm, rfl⟩ := List.mem_map.mp hv
  obtain ⟨x, hx, rfl⟩ := (mem_keys_collect key fresh add).mp (List.mem_map.mpr ⟨_, hm, rfl⟩)
  exact ⟨x, hx, Map.get_of_mem (nodup_collect key fresh add xs) hm⟩

/-- A sum over the rows is the sum over the elements. -/
theorem sum_collect (f : V → Int) (c : α → Int) (hz : ∀ x, f (fresh x) = 0)
    (hs : ∀ v x, f (add v x) = f v + c x) (xs : List α) :
    ((collect key fresh add xs).values.map f).sum = (xs.map c).sum := by
  induction xs using List.reverseRecOn with
  | nil => rfl
  | append_singleton xs x ih =>
    rw [collect_concat, put, Map.sum_set (nodup_collect key fresh add xs), ih, hs]
    rw [List.map_append, List.sum_append, List.map_singleton, List.sum_singleton]
    cases (collect key fresh add xs).get (key x) with
    | none => simp only [Option.getD_none, Option.map_none, hz]; omega
    | some v => simp only [Option.getD_some, Option.map_some]; omega

theorem get_put {m : Map K V} (hn : m.keys.Nodup) (x : α) (k : K) :
    (put key fresh add m x).get k =
      if key x = k then some (add ((m.get k).getD (fresh x)) x) else m.get k := by
  unfold put
  rw [Map.get_set hn]
  split
  · rename_i h
    rw [h]
  · rfl

/-- What a key has is the same after one list as it was before it. -/
theorem get_foldl_put_congr {m m' : Map K V} (hn : m.keys.Nodup) (hn' : m'.keys.Nodup)
    (h : ∀ k, m.get k = m'.get k) (xs : List α) (k : K) :
    (xs.foldl (put key fresh add) m).get k = (xs.foldl (put key fresh add) m').get k := by
  induction xs generalizing m m' with
  | nil => exact h k
  | cons x xs ih =>
    refine ih (Map.nodup_set hn) (Map.nodup_set hn') fun k => ?_
    rw [get_put key fresh add hn, get_put key fresh add hn', h]

theorem get_foldl_put_perm {xs ys : List α} (hp : xs.Perm ys)
    (hf : ∀ x ∈ xs, ∀ y ∈ xs, key x = key y → fresh x = fresh y)
    (ha : ∀ v x y, add (add v x) y = add (add v y) x) {m : Map K V} (hn : m.keys.Nodup) (k : K) :
    (xs.foldl (put key fresh add) m).get k = (ys.foldl (put key fresh add) m).get k := by
  induction hp generalizing m with
  | nil => rfl
  | cons x _ ih =>
    refine ih ?_ (Map.nodup_set hn)
    exact fun a ha b hb => hf a (List.mem_cons_of_mem _ ha) b (List.mem_cons_of_mem _ hb)
  | swap x y xs =>
    have hx : (put key fresh add m x).keys.Nodup := Map.nodup_set hn
    have hy : (put key fresh add m y).keys.Nodup := Map.nodup_set hn
    have hswap : ∀ k, (put key fresh add (put key fresh add m y) x).get k =
        (put key fresh add (put key fresh add m x) y).get k := by
      intro k
      rw [get_put key fresh add hy, get_put key fresh add hx, get_put key fresh add hn,
        get_put key fresh add hn]
      by_cases hkx : key x = k
      · by_cases hky : key y = k
        · have hxy := hf x (by simp) y (by simp) (hkx.trans hky.symm)
          simp only [hkx, hky, if_true, Option.getD_some, hxy, ha]
        · simp only [hkx, hky, if_true, if_false]
      · simp only [hkx, if_false]
    exact get_foldl_put_congr key fresh add (Map.nodup_set hy) (Map.nodup_set hx) hswap xs k
  | trans h₁ _ ih₁ ih₂ =>
    refine (ih₁ hf hn).trans (ih₂ ?_ hn)
    exact fun a ha b hb => hf a (h₁.symm.subset ha) b (h₁.symm.subset hb)

/-- The rows of a list, up to their order, whatever the order of the list. -/
theorem values_collect_perm {xs ys : List α} (hp : xs.Perm ys)
    (hf : ∀ x ∈ xs, ∀ y ∈ xs, key x = key y → fresh x = fresh y)
    (ha : ∀ v x y, add (add v x) y = add (add v y) x) :
    (collect key fresh add xs).values.Perm (collect key fresh add ys).values := by
  refine (Map.perm_of_get (nodup_collect key fresh add xs) (nodup_collect key fresh add ys)
    fun k => ?_).map _
  have hnil : (Map.keys ([] : Map K V)).Nodup := List.nodup_nil
  exact get_foldl_put_perm key fresh add hp hf ha hnil k

/-- What the start of a row has and no element changes, every row of the key has. -/
theorem collect_kept {β : Type} (f : V → β) (g : K → β) (hz : ∀ x, f (fresh x) = g (key x))
    (hs : ∀ v x, f (add v x) = f v) {xs : List α} {k : K} {v : V}
    (hv : (collect key fresh add xs).get k = some v) : f v = g k := by
  induction xs using List.reverseRecOn generalizing k v with
  | nil => cases hv
  | append_singleton xs x ih =>
    rw [collect_concat, get_put key fresh add (nodup_collect key fresh add xs)] at hv
    split at hv
    · rename_i hk
      cases hv
      rw [hs]
      cases ho : (collect key fresh add xs).get k with
      | none => exact (hz x).trans (congrArg g hk)
      | some v => exact ih ho
    · exact ih hv

end

end Js
