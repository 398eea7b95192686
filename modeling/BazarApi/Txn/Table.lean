import Mathlib.Algebra.BigOperators.Group.List.Basic
import Mathlib.Algebra.Order.BigOperators.Group.List
import Mathlib.Data.List.Nodup
import Mathlib.Algebra.Ring.Int.Defs

/- Tables with a primary key. A table is a list of rows with distinct keys, so no
   operation can produce two rows of one key; `put` writes a row version (a new
   row, or the new version of the row with that key), `erase` removes a row. Sums
   over a table (`total`) change by the row put or removed, which is all that an
   argument about a running balance needs. -/
namespace Txn

/-- The primary key of a row. -/
class Keyed (R : Type) (K : outParam Type) where
  key : R → K

/-- Rows with distinct keys. -/
structure Table (R : Type) {K : Type} [Keyed R K] where
  rows : List R
  nodup : (rows.map Keyed.key).Nodup

namespace Table
variable {R K : Type} [Keyed R K]
open Keyed

def empty : Table R := ⟨[], List.nodup_nil⟩

instance : Inhabited (Table R) := ⟨empty⟩

/-- The sum of `f` over the rows. -/
def total (t : Table R) (f : R → Int) : Int := (t.rows.map f).sum

theorem total_nonneg {t : Table R} (f : R → Int) (h : ∀ x ∈ t.rows, 0 ≤ f x) : 0 ≤ t.total f := by
  apply List.sum_nonneg
  intro y hy
  obtain ⟨x, hx, rfl⟩ := List.mem_map.mp hy
  exact h x hx

theorem total_congr {t : Table R} {f g : R → Int} (h : ∀ x ∈ t.rows, f x = g x) :
    t.total f = t.total g := by
  unfold total
  rw [List.map_congr_left h]

variable [DecidableEq K]

def find? (t : Table R) (k : K) : Option R := t.rows.find? (fun r => key r = k)

/-- The rows with the version `r` in place of the row of that key, if there is one. -/
def replace (r : R) (rows : List R) : List R := rows.map fun x => if key x = key r then r else x

theorem replace_keys (r : R) (rows : List R) : (replace r rows).map key = rows.map key := by
  simp only [replace, List.map_map]
  apply List.map_congr_left
  intro x _
  by_cases hx : key x = key r <;> simp [hx]

/-- Writes a row version. -/
def put (t : Table R) (r : R) : Table R :=
  if h : key r ∈ t.rows.map key then
    ⟨replace r t.rows, by rw [replace_keys]; exact t.nodup⟩
  else
    ⟨t.rows ++ [r], by
      rw [List.map_append]
      exact List.Nodup.append t.nodup (List.nodup_singleton _) (by simpa using h)⟩

/-- Removes the row of a key. -/
def erase (t : Table R) (k : K) : Table R :=
  ⟨t.rows.filter (fun r => key r ≠ k), t.nodup.sublist (List.filter_sublist.map key)⟩

/-- Changes the row of a key, if there is one. -/
def modify (t : Table R) (k : K) (f : R → R) : Table R :=
  match t.find? k with
  | some r => t.put (f r)
  | none => t

variable {t : Table R} {r o : R} {k : K}

theorem find?_key (h : t.find? k = some r) : key r = k := by
  simpa using List.find?_some h

theorem mem_of_find? (h : t.find? k = some r) : r ∈ t.rows := List.mem_of_find?_eq_some h

theorem find?_of_mem (h : r ∈ t.rows) : t.find? (key r) = some r := by
  obtain ⟨rows, hn⟩ := t
  simp only [find?] at h ⊢
  induction rows with
  | nil => cases h
  | cons x rows ih =>
    rw [List.map_cons, List.nodup_cons] at hn
    rcases List.mem_cons.mp h with rfl | hm
    · simp
    · have hne : key x ≠ key r := by
        intro he
        exact hn.1 (he ▸ List.mem_map_of_mem hm)
      rw [List.find?_cons_of_neg (by simpa using hne)]
      exact ih hn.2 hm

theorem find?_eq_none : t.find? k = none ↔ k ∉ t.rows.map key := by
  simp [find?, List.find?_eq_none]

/-- Rows that share a key are one at most. -/
theorem filter_of_key {p : R → Bool} (hp : ∀ x ∈ t.rows, p x = true → key x = k) :
    t.rows.filter p = ((t.find? k).filter p).toList := by
  obtain ⟨rows, hn⟩ := t
  simp only [find?] at hp ⊢
  induction rows with
  | nil => rfl
  | cons x rows ih =>
    rw [List.map_cons, List.nodup_cons] at hn
    have ih := ih hn.2 fun y hy => hp y (List.mem_cons_of_mem _ hy)
    by_cases hx : key x = k
    · have hrest : rows.filter p = [] := by
        rw [List.filter_eq_nil_iff]
        intro y hy hpy
        have hk := hp y (List.mem_cons_of_mem _ hy) hpy
        exact hn.1 (List.mem_map.mpr ⟨y, hy, hk.trans hx.symm⟩)
      rw [List.find?_cons_of_pos (by simpa using hx), List.filter_cons, hrest]
      cases hpx : p x <;> simp [hpx, Option.filter]
    · have hpx : ¬ p x = true := fun h => hx (hp x List.mem_cons_self h)
      rw [List.find?_cons_of_neg (by simpa using hx), List.filter_cons_of_neg hpx, ih]

/-- Two rows of a table with one key are one row. -/
theorem eq_of_key (h : r ∈ t.rows) (ho : o ∈ t.rows) (he : key r = key o) : r = o := by
  have h' := find?_of_mem h
  rw [he, find?_of_mem ho] at h'
  exact (Option.some.inj h').symm

theorem mem_put {x : R} : x ∈ (t.put r).rows ↔ x = r ∨ (x ∈ t.rows ∧ key x ≠ key r) := by
  unfold put
  split
  · rename_i h
    obtain ⟨y, hy, hky⟩ := List.mem_map.mp h
    simp only [replace, List.mem_map]
    constructor
    · rintro ⟨z, hz, rfl⟩
      by_cases hk : key z = key r
      · simp [hk]
      · simp [hk, hz]
    · rintro (rfl | ⟨hx, hk⟩)
      · exact ⟨y, hy, by simp [hky]⟩
      · exact ⟨x, hx, by simp [hk]⟩
  · rename_i h
    simp only [List.mem_append, List.mem_singleton]
    constructor
    · rintro (hx | rfl)
      · exact .inr ⟨hx, fun he => h (he ▸ List.mem_map_of_mem hx)⟩
      · exact .inl rfl
    · rintro (rfl | ⟨hx, -⟩)
      · exact .inr rfl
      · exact .inl hx

@[simp] theorem find?_put_self : (t.put r).find? (key r) = some r :=
  find?_of_mem (mem_put.mpr (.inl rfl))

theorem find?_ext {t' : Table R} (h : ∀ x, key x = k → (x ∈ t'.rows ↔ x ∈ t.rows)) :
    t'.find? k = t.find? k := by
  cases ht : t.find? k with
  | some x =>
    obtain rfl := find?_key ht
    exact find?_of_mem ((h x rfl).mpr (mem_of_find? ht))
  | none =>
    rw [find?_eq_none] at ht ⊢
    intro hm
    obtain ⟨x, hx, hk⟩ := List.mem_map.mp hm
    exact ht (hk ▸ List.mem_map_of_mem ((h x hk).mp hx))

theorem find?_put_ne (h : k ≠ key r) : (t.put r).find? k = t.find? k := by
  apply find?_ext
  rintro x rfl
  rw [mem_put]
  constructor
  · rintro (rfl | ⟨hx, -⟩)
    · exact absurd rfl h
    · exact hx
  · intro hx
    exact .inr ⟨hx, h⟩

theorem find?_put (k : K) : (t.put r).find? k = if k = key r then some r else t.find? k := by
  split
  · rename_i h; rw [h, find?_put_self]
  · rename_i h; exact find?_put_ne h

theorem mem_erase {x : R} : x ∈ (t.erase k).rows ↔ x ∈ t.rows ∧ key x ≠ k := by
  simp [erase]

theorem find?_erase_ne {k' : K} (h : k' ≠ k) : (t.erase k).find? k' = t.find? k' := by
  apply find?_ext
  rintro x rfl
  simp [mem_erase, h]

@[simp] theorem find?_erase_self : (t.erase k).find? k = none := by
  rw [find?_eq_none]
  simp [erase]

theorem replace_of_not_mem {rows : List R} (h : key r ∉ rows.map key) : replace r rows = rows := by
  unfold replace
  conv => rhs; rw [← List.map_id rows]
  apply List.map_congr_left
  intro x hx
  have hne : key x ≠ key r := by
    intro he
    exact h (he ▸ List.mem_map_of_mem hx)
  simp [hne]

theorem put_rows (t : Table R) (r : R) :
    (t.put r).rows = if key r ∈ t.rows.map key then replace r t.rows else t.rows ++ [r] := by
  unfold put
  split <;> rfl

theorem put_rows_new (h : t.find? (key r) = none) : (t.put r).rows = t.rows ++ [r] := by
  rw [put_rows, if_neg (find?_eq_none.mp h)]

/-- A second version of one row replaces the first. -/
theorem put_put (hk : key o = key r) : (t.put o).put r = t.put r := by
  have hrows : ∀ a b : Table R, a.rows = b.rows → a = b := by
    rintro ⟨_, _⟩ ⟨_, _⟩ rfl
    rfl
  apply hrows
  have hmem : key r ∈ (t.put o).rows.map key := by
    rw [← hk]
    exact List.mem_map_of_mem (mem_put.mpr (.inl rfl))
  rw [put_rows, if_pos hmem, put_rows, put_rows, hk]
  by_cases h : key r ∈ t.rows.map key
  · rw [if_pos h, if_pos h]
    simp only [replace, List.map_map]
    apply List.map_congr_left
    intro x _
    simp only [Function.comp, hk]
    by_cases hx : key x = key r <;> simp [hx, hk]
  · rw [if_neg h, if_neg h, replace, List.map_append]
    exact congrArg₂ _ (replace_of_not_mem h) (by simp [hk])

theorem find?_modify {f : R → R} (hf : ∀ r, key (f r) = key r) (k' : K) :
    (t.modify k f).find? k' = if k' = k then (t.find? k).map f else t.find? k' := by
  cases h : t.find? k with
  | some r =>
    have hk : key (f r) = k := (hf r).trans (find?_key h)
    simp only [modify, h]
    rw [find?_put, hk, Option.map_some]
  | none =>
    simp only [modify, h, Option.map_none]
    split
    · rename_i hk; rw [hk, h]
    · rfl

theorem find?_modify_ne {f : R → R} (hf : ∀ r, key (f r) = key r) {k' : K} (h : k' ≠ k) :
    (t.modify k f).find? k' = t.find? k' := by
  rw [find?_modify hf, if_neg h]

theorem modify_of_find? {f : R → R} (h : t.find? k = some r) : t.modify k f = t.put (f r) := by
  simp only [modify, h]

/-- What a change of a row leaves alone reads the same in all rows. -/
theorem map_modify {γ : Type} {f : R → R} {g : R → γ} (hf : ∀ r, key (f r) = key r)
    (hg : ∀ r, g (f r) = g r) (k : K) : (t.modify k f).rows.map g = t.rows.map g := by
  cases h : t.find? k with
  | none => simp only [modify, h]
  | some r =>
    have hmem : key (f r) ∈ t.rows.map key := by
      rw [hf]
      exact List.mem_map_of_mem (mem_of_find? h)
    rw [modify_of_find? h, put_rows, if_pos hmem, replace, List.map_map]
    refine List.map_congr_left ?_
    intro x hx
    by_cases hk : key x = key (f r)
    · obtain rfl := eq_of_key hx (mem_of_find? h) (hk.trans (hf r))
      simp only [Function.comp, hk, if_true, hg]
    · simp only [Function.comp, hk, if_false]

/-! Rows that stay. -/

/-- Every row of the one table is still there in the other. -/
def Grows (t t' : Table R) : Prop := ∀ k r, t.find? k = some r → t'.find? k = some r

theorem Grows.refl (t : Table R) : t.Grows t := fun _ _ h => h

theorem Grows.trans {t t' t'' : Table R} (h : t.Grows t') (h' : t'.Grows t'') : t.Grows t'' :=
  fun k r hr => h' k r (h k r hr)

theorem Grows.mem {t' : Table R} (h : t.Grows t') (hr : r ∈ t.rows) : r ∈ t'.rows :=
  mem_of_find? (h _ _ (find?_of_mem hr))

theorem grows_put (h : t.find? (key r) = none) : t.Grows (t.put r) := by
  intro k o ho
  refine (find?_put_ne ?_).trans ho
  rintro rfl
  rw [h] at ho
  cases ho

/-- Writes row versions, in order. -/
def putAll (t : Table R) (rows : List R) : Table R := rows.foldl put t

theorem putAll_rows {rows : List R} (hn : (rows.map key).Nodup)
    (h : ∀ r ∈ rows, t.find? (key r) = none) : (t.putAll rows).rows = t.rows ++ rows := by
  induction rows generalizing t with
  | nil => exact (List.append_nil _).symm
  | cons r rows ih =>
    rw [List.map_cons, List.nodup_cons] at hn
    have hrest : ∀ o ∈ rows, (t.put r).find? (key o) = none := by
      intro o ho
      have hne : key o ≠ key r := fun he => hn.1 (he ▸ List.mem_map_of_mem ho)
      rw [find?_put_ne hne]
      exact h o (List.mem_cons_of_mem _ ho)
    have ih := ih hn.2 hrest
    rw [put_rows_new (h r List.mem_cons_self), List.append_assoc] at ih
    exact ih

theorem grows_putAll {rows : List R} (hn : (rows.map key).Nodup)
    (h : ∀ r ∈ rows, t.find? (key r) = none) : t.Grows (t.putAll rows) := by
  intro k o ho
  obtain rfl := find?_key ho
  refine find?_of_mem ?_
  rw [putAll_rows hn h]
  exact List.mem_append_left _ (mem_of_find? ho)

/-! Sums. -/

theorem total_put_new (f : R → Int) (h : t.find? (key r) = none) :
    (t.put r).total f = t.total f + f r := by
  rw [find?_eq_none] at h
  simp [total, put, h]

theorem sum_replace (f : R → Int) (rows : List R) (hn : (rows.map key).Nodup) (ho : o ∈ rows)
    (hk : key o = key r) : ((replace r rows).map f).sum = (rows.map f).sum - f o + f r := by
  induction rows with
  | nil => cases ho
  | cons x rows ih =>
    rw [List.map_cons, List.nodup_cons] at hn
    simp only [replace, List.map_cons, List.sum_cons]
    by_cases hx : key x = key r
    · -- the row itself: no other row has its key
      have hxo : x = o := by
        rcases List.mem_cons.mp ho with rfl | hm
        · rfl
        · exact absurd (by rw [hx, ← hk]; exact List.mem_map_of_mem hm) hn.1
      have hrest : replace r rows = rows := replace_of_not_mem (hx ▸ hn.1)
      change _ + ((replace r rows).map f).sum = _
      rw [if_pos hx, hrest, hxo]
      omega
    · have hm : o ∈ rows := by
        rcases List.mem_cons.mp ho with rfl | hm
        · exact absurd hk hx
        · exact hm
      have ih := ih hn.2 hm
      change _ + ((replace r rows).map f).sum = _
      rw [if_neg hx, ih]
      omega

theorem total_put_old (f : R → Int) (h : t.find? (key r) = some o) :
    (t.put r).total f = t.total f - f o + f r := by
  have hm := mem_of_find? h
  have hk := find?_key h
  have hmem : key r ∈ t.rows.map key := hk ▸ List.mem_map_of_mem hm
  simp only [total, put, hmem, dite_true]
  exact sum_replace f t.rows t.nodup hm hk

end Table

end Txn
