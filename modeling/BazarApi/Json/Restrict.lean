import Mathlib.Data.Set.List
import BazarApi.Json.Canonical

/- Canonical texts where printing numbers is injective on some of them only. Trees whose
   numbers are of that kind are trees over the subtype, so one text still means equal up to
   the order of keys; and objects with one list of keys are then equal value by value. -/
namespace Json
variable {M N : Type}

/-! Trees with other numbers. -/

mutual

def Tree.map (f : M → N) : Tree M → Tree N
  | .null => .null
  | .bool b => .bool b
  | .num n => .num (f n)
  | .str s => .str s
  | .arr xs => .arr (mapAll f xs)
  | .obj fields => .obj (mapFields f fields)

def mapAll (f : M → N) : List (Tree M) → List (Tree N)
  | [] => []
  | x :: xs => x.map f :: mapAll f xs

def mapFields (f : M → N) : List (JsString × Tree M) → List (JsString × Tree N)
  | [] => []
  | (k, x) :: fields => (k, x.map f) :: mapFields f fields

end

/-- A member with its numbers changed. -/
def mapped (f : M → N) (p : JsString × Tree M) : JsString × Tree N := (p.1, p.2.map f)

theorem mapAll_eq (f : M → N) (xs : List (Tree M)) : mapAll f xs = xs.map (Tree.map f) := by
  induction xs with
  | nil => rfl
  | cons x xs ih => rw [mapAll, ih, List.map_cons]

theorem mapFields_eq (f : M → N) (fields : List (JsString × Tree M)) :
    mapFields f fields = fields.map (mapped f) := by
  induction fields with
  | nil => rfl
  | cons p fields ih =>
    obtain ⟨k, x⟩ := p
    rw [mapFields, ih, List.map_cons]
    rfl

theorem serialize_map (f : M → N) (number : N → JsString) (t : Tree M) :
    serialize number (t.map f) = serialize (fun n => number (f n)) t := by
  induction t using Tree.induct with
  | null => rfl
  | bool b => rfl
  | num n => rfl
  | str s => rfl
  | arr xs ih =>
    have h : (xs.map (Tree.map f)).map (serialize number) =
        xs.map (serialize fun n => number (f n)) := by
      rw [List.map_map]
      exact List.map_congr_left ih
    rw [Tree.map, serialize, serialize, serializeAll_eq, serializeAll_eq, mapAll_eq, h]
  | obj fields ih =>
    have h : (fields.map (mapped f)).map (printed number) =
        fields.map (printed fun n => number (f n)) := by
      rw [List.map_map]
      exact List.map_congr_left fun p hp => Prod.ext rfl (ih p hp)
    rw [Tree.map, serialize, serialize, serializeFields_eq, serializeFields_eq, mapFields_eq, h]

theorem Tree.Same.map (f : M → N) {a b : Tree M} (h : a.Same b) : (a.map f).Same (b.map f) := by
  induction h with
  | null => exact .null
  | bool b => exact .bool b
  | num n => exact .num _
  | str s => exact .str s
  | arr hl h ih =>
    rw [Tree.map, Tree.map, mapAll_eq, mapAll_eq]
    refine .arr (by rw [List.length_map, List.length_map, hl]) ?_
    rw [List.zip_map]
    intro p hp
    obtain ⟨q, hq, rfl⟩ := List.mem_map.mp hp
    exact ih q hq
  | @obj fs fs' gs gs' hf hg hk h ih =>
    have keys (l : List (JsString × Tree M)) : (l.map (mapped f)).map Prod.fst = l.map Prod.fst := by
      rw [List.map_map]
      rfl
    rw [Tree.map, Tree.map, mapFields_eq, mapFields_eq]
    refine .obj (hf.map _) (hg.map _) (by rw [keys, keys, hk]) ?_
    rw [List.zip_map]
    intro p hp
    obtain ⟨q, hq, rfl⟩ := List.mem_map.mp hp
    exact ih q hq

/-- Every number is of one kind. -/
inductive Tree.Nums (P : N → Prop) : Tree N → Prop where
  | null : Nums P .null
  | bool (b : Bool) : Nums P (.bool b)
  | num {n : N} (h : P n) : Nums P (.num n)
  | str (s : JsString) : Nums P (.str s)
  | arr {xs : List (Tree N)} (h : ∀ x ∈ xs, Nums P x) : Nums P (.arr xs)
  | obj {fields : List (JsString × Tree N)} (h : ∀ f ∈ fields, Nums P f.2) : Nums P (.obj fields)

theorem Tree.Nums.exists_map {P : N → Prop} {t : Tree N} (h : t.Nums P) :
    ∃ t' : Tree {n // P n}, t'.map Subtype.val = t := by
  induction h with
  | null => exact ⟨.null, rfl⟩
  | bool b => exact ⟨.bool b, rfl⟩
  | num h => exact ⟨.num ⟨_, h⟩, rfl⟩
  | str s => exact ⟨.str s, rfl⟩
  | @arr xs _ ih =>
    have hmem : xs ∈ Set.range (List.map (Tree.map (Subtype.val : {n // P n} → N))) := by
      rw [Set.range_list_map]
      exact ih
    obtain ⟨xs', rfl⟩ := hmem
    exact ⟨.arr xs', by rw [Tree.map, mapAll_eq]⟩
  | @obj fields _ ih =>
    have hmem : fields ∈ Set.range (List.map (mapped (Subtype.val : {n // P n} → N))) := by
      rw [Set.range_list_map]
      intro p hp
      obtain ⟨x, hx⟩ := ih p hp
      exact ⟨(p.1, x), Prod.ext rfl hx⟩
    obtain ⟨fields', rfl⟩ := hmem
    exact ⟨.obj fields', by rw [Tree.map, mapFields_eq]⟩

/-- One canonical text means the same tree, where printing tells the numbers of the trees. -/
theorem canonicalJson_same_of {P : N → Prop} {number : N → JsString}
    (hn : NumberLiterals fun n : {n // P n} => number n) {a b : Tree N} (ha : a.Nums P)
    (hb : b.Nums P) (h : canonicalJson number a = canonicalJson number b) : a.Same b := by
  obtain ⟨a, rfl⟩ := ha.exists_map
  obtain ⟨b, rfl⟩ := hb.exists_map
  refine Tree.Same.map _ ((serialize_unique hn a b [] [] .nil .nil ?_).1)
  unfold canonicalJson at h
  rw [serialize_map, serialize_map] at h
  rw [List.append_nil, List.append_nil]
  exact h

/-! Members of objects that are the same. -/

section
variable {fs gs : List (JsString × Tree N)}

theorem Tree.Same.keys (h : (Tree.obj fs).Same (.obj gs)) :
    (fs.map Prod.fst).Perm (gs.map Prod.fst) := by
  cases h with
  | obj hf hg hk _ =>
    refine (hf.map Prod.fst).trans ?_
    rw [hk]
    exact (hg.map Prod.fst).symm

theorem Tree.Same.member (h : (Tree.obj fs).Same (.obj gs)) {k : JsString} {v : Tree N}
    (hv : (k, v) ∈ fs) : ∃ w, (k, w) ∈ gs ∧ v.Same w := by
  cases h with
  | @obj _ fs' _ gs' hf hg hk h =>
    obtain ⟨i, hi, hget⟩ := List.mem_iff_getElem.mp (hf.mem_iff.mp hv)
    have hlen : fs'.length = gs'.length := by simpa using congrArg List.length hk
    have hi' : i < gs'.length := hlen ▸ hi
    have hfst := congrArg (fun l : List JsString => l[i]?) hk
    have hkey : fs'[i].1 = gs'[i].1 := by simpa [List.getElem?_map, hi, hi'] using hfst
    have hmem : (fs'[i], gs'[i]) ∈ fs'.zip gs' := by
      rw [← List.getElem_zip (i := i) (h := by rw [List.length_zip]; omega)]
      exact List.getElem_mem _
    rw [hget] at hkey hmem
    refine ⟨gs'[i].2, hg.mem_iff.mpr ?_, h _ hmem⟩
    change k = gs'[i].1 at hkey
    rw [hkey]
    exact List.getElem_mem hi'

/-- Under one list of distinct keys the values are the same one by one. -/
theorem Tree.Same.values {K : List JsString} (h : (Tree.obj fs).Same (.obj gs))
    (hf : fs.map Prod.fst = K) (hg : gs.map Prod.fst = K) (hnodup : K.Nodup) :
    ∀ p ∈ fs.zip gs, p.1.2.Same p.2.2 := by
  intro p hp
  obtain ⟨i, hi, rfl⟩ := List.mem_iff_getElem.mp hp
  rw [List.length_zip] at hi
  have hi₁ : i < fs.length := by omega
  have hi₂ : i < gs.length := by omega
  have hfst := congrArg (fun l : List JsString => l[i]?) (hf.trans hg.symm)
  have hkey : fs[i].1 = gs[i].1 := by simpa [List.getElem?_map, hi₁, hi₂] using hfst
  rw [List.getElem_zip]
  obtain ⟨w, hw, hsame⟩ := h.member (List.getElem_mem hi₁)
  have heq := List.inj_on_of_nodup_map (hg ▸ hnodup) hw (List.getElem_mem hi₂) hkey
  rw [← heq]
  exact hsame

end

end Json
