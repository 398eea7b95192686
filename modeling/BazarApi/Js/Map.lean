import Mathlib.Data.List.Nodup
import Mathlib.Data.List.Perm.Basic
import Mathlib.Algebra.BigOperators.Group.List.Basic
import Mathlib.Algebra.Ring.Int.Defs

/- ECMAScript's `Map`: entries in the order their keys were first set. `ofEntries` is
   `new Map(entries)`. Maps with the same entries in another order read the same
   (`get_perm`), and a sum over keys that include every key of the map is the sum of its
   values (`sum_get`). -/
namespace Js

abbrev Map (K V : Type) := List (K × V)

namespace Map
variable {K V : Type} [DecidableEq K]

def get (m : Map K V) (k : K) : Option V := (m.find? fun e => e.1 = k).map (·.2)

def has (m : Map K V) (k : K) : Bool := m.any fun e => e.1 = k

/-- Changes the entry of the key where it stands, or appends one. -/
def set (m : Map K V) (k : K) (v : V) : Map K V :=
  if m.has k then m.map fun e => if e.1 = k then (k, v) else e else m ++ [(k, v)]

def ofEntries (entries : List (K × V)) : Map K V := entries.foldl (fun m e => m.set e.1 e.2) []

def keys (m : Map K V) : List K := m.map (·.1)

def values (m : Map K V) : List V := m.map (·.2)

def delete (m : Map K V) (k : K) : Map K V := m.filter fun e => e.1 ≠ k

omit [DecidableEq K] in
theorem nodup_filter {m : Map K V} (hn : m.keys.Nodup) (p : K × V → Bool) :
    (keys (m.filter p)).Nodup :=
  hn.sublist (List.filter_sublist.map _)

variable {m m' : Map K V} {k : K} {v : V}

theorem has_iff : m.has k = true ↔ k ∈ m.keys := by
  unfold has keys
  rw [List.any_eq_true, List.mem_map]
  simp only [decide_eq_true_eq]

/-- Entries with distinct keys are all there, in their order. -/
theorem ofEntries_eq {entries : List (K × V)} (hn : (entries.map (·.1)).Nodup) :
    ofEntries entries = entries := by
  have happend : ∀ (rest acc : List (K × V)), ((acc ++ rest).map (·.1)).Nodup →
      rest.foldl (fun m e => set m e.1 e.2) acc = acc ++ rest := by
    intro rest
    induction rest with
    | nil =>
      intro acc _
      exact (List.append_nil acc).symm
    | cons e rest ih =>
      intro acc hn
      have hnew : has acc e.1 = false := by
        rw [← Bool.not_eq_true, has_iff]
        intro h
        rw [List.map_append, List.map_cons] at hn
        exact List.disjoint_of_nodup_append hn h List.mem_cons_self
      have hset : set acc e.1 e.2 = acc ++ [e] := by
        unfold set
        rw [hnew]
        rfl
      rw [List.foldl_cons, hset, ih (acc ++ [e]) (by simpa using hn), List.append_assoc]
      rfl
  exact happend entries [] hn

theorem get_of_mem (hn : m.keys.Nodup) (h : (k, v) ∈ m) : m.get k = some v := by
  induction m with
  | nil => cases h
  | cons e m ih =>
    unfold keys at hn
    rw [List.map_cons, List.nodup_cons] at hn
    unfold get
    rcases List.mem_cons.mp h with rfl | hm
    · rw [List.find?_cons_of_pos (by simp)]
      rfl
    · have hne : ¬ e.1 = k := fun he => hn.1 (List.mem_map.mpr ⟨(k, v), hm, he.symm⟩)
      rw [List.find?_cons_of_neg (by simpa using hne)]
      exact ih hn.2 hm

theorem mem_of_get (h : m.get k = some v) : (k, v) ∈ m := by
  obtain ⟨e, he, rfl⟩ := Option.map_eq_some_iff.mp h
  have hk : e.1 = k := by simpa using List.find?_some he
  rw [← hk]
  exact List.mem_of_find?_eq_some he

theorem get_eq_none : m.get k = none ↔ k ∉ m.keys := by
  unfold get keys
  rw [Option.map_eq_none_iff, List.find?_eq_none, List.mem_map]
  simp only [decide_eq_true_eq]
  constructor
  · rintro h ⟨e, he, hk⟩
    exact h e he hk
  · intro h e he hk
    exact h ⟨e, he, hk⟩

/-- The order of the entries does not matter to a lookup. -/
theorem get_perm (hp : m.Perm m') (hn : m.keys.Nodup) (k : K) : m.get k = m'.get k := by
  have hn' : m'.keys.Nodup := (hp.map _).nodup_iff.mp hn
  cases h : m.get k with
  | some v => exact (get_of_mem hn' (hp.subset (mem_of_get h))).symm
  | none =>
    rw [get_eq_none] at h
    refine (get_eq_none.mpr ?_).symm
    intro hm
    exact h ((hp.symm.map _).subset hm)

/-- Entries that are taken out read as if they had not been set. -/
theorem get_filter (hn : m.keys.Nodup) (p : K × V → Bool) (k : K) :
    get (m.filter p) k = (m.get k).filter fun v => p (k, v) := by
  have hn' : (keys (m.filter p)).Nodup := nodup_filter hn p
  cases h : m.get k with
  | none =>
    refine get_eq_none.mpr fun hk => get_eq_none.mp h ?_
    exact (List.filter_sublist.map _).subset hk
  | some v =>
    have hmem := mem_of_get h
    by_cases hp : p (k, v) = true
    · rw [get_of_mem hn' (List.mem_filter.mpr ⟨hmem, hp⟩)]
      exact (if_pos hp).symm
    · cases h' : get (m.filter p) k with
      | none => exact (if_neg hp).symm
      | some v' =>
        obtain ⟨hmem', hp'⟩ := List.mem_filter.mp (mem_of_get h')
        have hv := get_of_mem hn hmem'
        rw [h, Option.some.injEq] at hv
        subst hv
        exact absurd hp' hp

theorem get_delete (hn : m.keys.Nodup) (k k' : K) :
    (m.delete k).get k' = if k = k' then none else m.get k' := by
  unfold delete
  rw [get_filter hn]
  by_cases h : k = k'
  · subst h
    cases m.get k <;> simp
  · have hne : k' ≠ k := fun hk => h hk.symm
    cases m.get k' <;> simp [h, hne]

/-- A sum over keys, of what the map has there. -/
theorem sum_get {f : V → Int} {ids : List K} (hn : m.keys.Nodup) (hi : ids.Nodup)
    (hsub : m.keys ⊆ ids) :
    (ids.map fun k => ((m.get k).map f).getD 0).sum = (m.values.map f).sum := by
  induction m generalizing ids with
  | nil =>
    refine (List.sum_eq_zero ?_).trans rfl
    intro x hx
    obtain ⟨k, -, rfl⟩ := List.mem_map.mp hx
    rfl
  | cons e m ih =>
    have hnodup := List.nodup_cons.mp hn
    have hmem : e.1 ∈ ids := hsub List.mem_cons_self
    have hperm := List.perm_cons_erase hmem
    have hrest : keys m ⊆ ids.erase e.1 := by
      intro k hk
      refine (List.mem_erase_of_ne ?_).mpr (hsub (List.mem_cons_of_mem _ hk))
      rintro rfl
      exact hnodup.1 hk
    have hget : (ids.erase e.1).map (fun k => ((get (e :: m) k).map f).getD 0) =
        (ids.erase e.1).map fun k => ((get m k).map f).getD 0 := by
      refine List.map_congr_left ?_
      intro k hk
      have hne : ¬ e.1 = k := by
        rintro rfl
        exact (hi.mem_erase_iff.mp hk).1 rfl
      unfold get
      rw [List.find?_cons_of_neg (by simpa using hne)]
    have hself : ((get (e :: m) e.1).map f).getD 0 = f e.2 := by
      rw [get_of_mem hn (v := e.2) List.mem_cons_self]
      rfl
    rw [(hperm.map _).sum_eq, List.map_cons, List.sum_cons, hself, hget,
      ih hnodup.2 (hi.erase _) hrest]
    rfl

end Map

end Js
