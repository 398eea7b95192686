import Mathlib.Data.List.Sort

/- Rows in an order: `ORDER BY … LIMIT 1` takes a least row (`first_iff`), and
   `SELECT DISTINCT ON (key) … ORDER BY key, …` a least row of each key
   (`mem_distinctOn_iff`). -/
namespace Sql

section
variable {α κ : Type} [DecidableEq κ]

/-- The first row of each key, in the order of the rows. -/
def distinctOn (key : α → κ) : List α → List α
  | [] => []
  | a :: rest => a :: (distinctOn key rest).filter fun b => key b ≠ key a

/-- `ORDER BY … LIMIT 1`. -/
def first (le : α → α → Bool) (rows : List α) : Option α := (rows.mergeSort le).head?

variable {le : α → α → Bool} {key : α → κ} {rows : List α} {a b : α}

/-- An order of rows is total and transitive. -/
structure IsOrder (le : α → α → Bool) : Prop where
  total : ∀ a b, le a b || le b a
  trans : ∀ a b c, le a b → le b c → le a c

theorem IsOrder.refl (ho : IsOrder le) (a : α) : le a a := by
  have := ho.total a a
  simpa using this

theorem first_some (ho : IsOrder le) (h : first le rows = some a) :
    a ∈ rows ∧ ∀ b ∈ rows, le a b := by
  have hsorted := List.pairwise_mergeSort ho.trans ho.total rows
  unfold first at h
  cases hm : rows.mergeSort le with
  | nil => simp [hm] at h
  | cons x rest =>
    rw [hm, List.head?_cons, Option.some.injEq] at h
    subst h
    rw [hm] at hsorted
    refine ⟨List.mem_mergeSort.mp (hm ▸ List.mem_cons_self), fun b hb => ?_⟩
    rcases List.mem_cons.mp (hm ▸ List.mem_mergeSort.mpr hb) with rfl | hrest
    · exact ho.refl _
    · exact List.rel_of_pairwise_cons hsorted hrest

/-- A least row is the one taken, where rows that are as old as each other are the same. -/
theorem first_iff (ho : IsOrder le)
    (hanti : ∀ a ∈ rows, ∀ b ∈ rows, le a b → le b a → a = b) :
    first le rows = some a ↔ a ∈ rows ∧ ∀ b ∈ rows, le a b := by
  refine ⟨first_some ho, fun ⟨ha, hle⟩ => ?_⟩
  cases hf : first le rows with
  | none =>
    have hnil : rows.mergeSort le = [] := List.head?_eq_none_iff.mp hf
    have : a ∈ rows.mergeSort le := List.mem_mergeSort.mpr ha
    simp [hnil] at this
  | some x =>
    obtain ⟨hx, hxle⟩ := first_some ho hf
    rw [hanti x hx a ha (hxle a ha) (hle x hx)]

/-! `DISTINCT ON`. -/

theorem distinctOn_sublist (key : α → κ) (rows : List α) : (distinctOn key rows).Sublist rows := by
  induction rows with
  | nil => exact .slnil
  | cons a rest ih => exact (List.filter_sublist.trans ih).cons_cons a

theorem distinctOn_nodup (key : α → κ) (rows : List α) : ((distinctOn key rows).map key).Nodup := by
  induction rows with
  | nil => exact List.nodup_nil
  | cons a rest ih =>
    rw [distinctOn, List.map_cons, List.nodup_cons]
    constructor
    · simp
    · exact ih.sublist (List.filter_sublist.map key)

theorem exists_distinctOn (key : α → κ) (ha : a ∈ rows) :
    ∃ b ∈ distinctOn key rows, key b = key a := by
  induction rows with
  | nil => cases ha
  | cons x rest ih =>
    by_cases hk : key a = key x
    · exact ⟨x, List.mem_cons_self, hk.symm⟩
    · rcases List.mem_cons.mp ha with rfl | hrest
      · exact absurd rfl hk
      · obtain ⟨b, hb, hkey⟩ := ih hrest
        refine ⟨b, List.mem_cons_of_mem _ (List.mem_filter.mpr ⟨hb, ?_⟩), hkey⟩
        simpa [hkey] using hk

/-- In sorted rows the row that stands for a key comes before the others of the key. -/
theorem distinctOn_least {r : α → α → Prop} (hr : ∀ a, r a a) (hs : rows.Pairwise r)
    (ha : a ∈ distinctOn key rows) : ∀ b ∈ rows, key b = key a → r a b := by
  induction rows with
  | nil => cases ha
  | cons x rest ih =>
    intro b hb hk
    rcases List.mem_cons.mp ha with rfl | ha
    · rcases List.mem_cons.mp hb with rfl | hb
      · exact hr _
      · exact List.rel_of_pairwise_cons hs hb
    · obtain ⟨ha, hne⟩ := List.mem_filter.mp ha
      rcases List.mem_cons.mp hb with rfl | hb
      · simp [hk] at hne
      · exact ih (List.pairwise_cons.mp hs).2 ha b hb hk

/-- What `DISTINCT ON` takes of sorted rows: those that are least among the rows of their key. -/
theorem mem_distinctOn_iff (ho : IsOrder le)
    (hanti : ∀ a ∈ rows, ∀ b ∈ rows, key a = key b → le a b → le b a → a = b) :
    a ∈ distinctOn key (rows.mergeSort le) ↔ a ∈ rows ∧ ∀ b ∈ rows, key b = key a → le a b := by
  have hsorted := List.pairwise_mergeSort ho.trans ho.total rows
  have hleast {x : α} (hx : x ∈ distinctOn key (rows.mergeSort le)) :
      x ∈ rows ∧ ∀ b ∈ rows, key b = key x → le x b :=
    ⟨List.mem_mergeSort.mp ((distinctOn_sublist key _).subset hx), fun b hb hk =>
      distinctOn_least ho.refl hsorted hx b (List.mem_mergeSort.mpr hb) hk⟩
  refine ⟨hleast, fun ⟨ha, hle⟩ => ?_⟩
  have hamem : a ∈ rows.mergeSort le := List.mem_mergeSort.mpr ha
  obtain ⟨x, hx, hk⟩ := exists_distinctOn key hamem
  obtain ⟨hxmem, hxle⟩ := hleast hx
  rwa [← hanti x hxmem a ha hk (hxle a ha hk.symm) (hle x hxmem hk)]

end

end Sql
