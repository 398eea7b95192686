import Mathlib.Data.Rat.Floor
import Mathlib.Tactic.Linarith
import BazarApi.Shop.Audits

/- What a product costs the shop (`products/restock-cost.ts`). A restock averages the cost
   known with the cost paid, weighted by pieces and rounded half up. The average lies
   between the two (`weightedAverage_between`), rounding included, because both are whole;
   so along a run a cost never leaves the range of those that were entered. -/
namespace Rounding

/-! Half up. -/

/-- `n` is `x` rounded to a whole number, the half upward. -/
def IsHalfUp (x : ℚ) (n : Int) : Prop := (n : ℚ) - 1 / 2 ≤ x ∧ x < n + 1 / 2

theorem isHalfUp_iff {x : ℚ} {n : Int} : IsHalfUp x n ↔ ⌊x + 1 / 2⌋ = n := by
  rw [Int.floor_eq_iff, IsHalfUp, sub_le_iff_le_add]
  refine and_congr_right' ?_
  constructor <;> intro h <;> linarith

/-- Half up in whole numbers. -/
theorem isHalfUp_ediv (t : Int) {u : Int} (hu : 0 < u) :
    IsHalfUp ((t : ℚ) / u) ((2 * t + u) / (2 * u)) := by
  have hu' : (0 : ℚ) < u := by exact_mod_cast hu
  have hlow : (2 * t + u) / (2 * u) * (2 * u) ≤ 2 * t + u := Int.ediv_mul_le _ (by omega)
  have hhigh : 2 * t + u < ((2 * t + u) / (2 * u) + 1) * (2 * u) :=
    Int.lt_ediv_add_one_mul_self _ (by omega)
  generalize (2 * t + u) / (2 * u) = n at hlow hhigh
  have hlow' : (n : ℚ) * (2 * u) ≤ 2 * t + u := by exact_mod_cast hlow
  have hhigh' : (2 * t + u : ℚ) < (n + 1) * (2 * u) := by exact_mod_cast hhigh
  constructor
  · rw [le_div_iff₀ hu']
    linarith
  · rw [div_lt_iff₀ hu']
    linarith

end Rounding

namespace Bazar.Shop

open Txn Rounding

/-! One restock. -/

/-- The average before it is rounded. -/
def exactAverage (stock current quantity purchase : Int) : ℚ :=
  ((stock : ℚ) * current + quantity * purchase) / (stock + quantity)

section
variable {stock current quantity purchase : Int}

theorem weightedAverage_between (hs : 0 ≤ stock) (hq : 1 ≤ quantity) :
    min current purchase ≤ weightedAverage stock current quantity purchase ∧
      weightedAverage stock current quantity purchase ≤ max current purchase := by
  have hunits : 0 < 2 * (stock + quantity) := by omega
  have hlow : (stock + quantity) * min current purchase ≤ stock * current + quantity * purchase := by
    rw [add_mul]
    exact add_le_add (mul_le_mul_of_nonneg_left (min_le_left _ _) hs)
      (mul_le_mul_of_nonneg_left (min_le_right _ _) (by omega))
  have hhigh : stock * current + quantity * purchase ≤ (stock + quantity) * max current purchase := by
    rw [add_mul]
    exact add_le_add (mul_le_mul_of_nonneg_left (le_max_left _ _) hs)
      (mul_le_mul_of_nonneg_left (le_max_right _ _) (by omega))
  constructor
  · apply Int.le_ediv_of_mul_le hunits
    linarith
  · apply Int.le_of_lt_add_one
    apply Int.ediv_lt_of_lt_mul hunits
    linarith

/-- It is the exact average rounded half up, and no other number is. -/
theorem isHalfUp_weightedAverage (hs : 0 ≤ stock) (hq : 1 ≤ quantity) (n : Int) :
    IsHalfUp (exactAverage stock current quantity purchase) n ↔
      n = weightedAverage stock current quantity purchase := by
  have hunits : 0 < stock + quantity := by omega
  have h := isHalfUp_ediv (stock * current + quantity * purchase) hunits
  push_cast at h
  rw [isHalfUp_iff]
  constructor
  · rintro rfl
    exact isHalfUp_iff.mp h
  · rintro rfl
    exact isHalfUp_iff.mp h

theorem assertWholeNumber_eq {value least : Int} {name : String} (h : least ≤ value) :
    Products.assertWholeNumber value name least = .ok () := if_neg (not_lt.mpr h)

theorem IsAmount.minorUnits {n : Int} (h : IsAmount n) : assertMinorUnits n = .ok n :=
  assertMinorUnits_ok.mpr ⟨rfl, by have := h.1; omega, h.2⟩

/-- On what the shop holds and the DTOs admit, no guard stops it. -/
theorem nextProductCost_eq {cost unitCost : Option Int} (hs : 0 ≤ stock) (hq : 1 ≤ quantity)
    (hc : ∀ c ∈ cost, IsAmount c) (hu : ∀ c ∈ unitCost, IsAmount c) :
    Products.nextProductCost stock cost quantity unitCost =
      .ok (costAfter stock cost quantity unitCost) := by
  unfold Products.nextProductCost
  rw [assertWholeNumber_eq hs, assertWholeNumber_eq hq]
  cases unitCost with
  | none => rfl
  | some purchase =>
    have hpurchase := hu purchase rfl
    dsimp only [bind, Except.bind]
    rw [assertWholeNumber_eq hpurchase.1]
    dsimp only [toDinero, toMinorUnits]
    rw [hpurchase.minorUnits]
    dsimp only
    rw [hpurchase.minorUnits]
    dsimp only [costAfter]
    split
    · rfl
    · cases cost with
      | none => rfl
      | some current =>
        have hcurrent := hc current rfl
        have haverage : IsAmount (weightedAverage stock current quantity purchase) := by
          have hbetween := @weightedAverage_between stock current quantity purchase hs hq
          exact ⟨le_trans (le_min hcurrent.1 hpurchase.1) hbetween.1,
            hbetween.2.trans (max_le hcurrent.2 hpurchase.2)⟩
        dsimp only
        rw [assertWholeNumber_eq hcurrent.1]
        dsimp only
        rw [hcurrent.minorUnits]
        dsimp only
        rw [hcurrent.minorUnits]
        dsimp only
        change ((assertMinorUnits (weightedAverage stock current quantity purchase)).bind _) = _
        rw [haverage.minorUnits]
        change ((assertMinorUnits (weightedAverage stock current quantity purchase)).bind _) = _
        rw [haverage.minorUnits]
        rfl

end

/-! The costs entered. -/

/-- The cost that a request states for a product. -/
def Request.entered (k : Uuid) : Request → Option Int
  | .createProduct env actor dto =>
    if (Products.newProduct env actor dto).id = k then some dto.purchaseCostMinor.val else none
  | .patchProduct _ _ id dto =>
    if uuid id = k then (Products.patchData dto).purchaseCostMinor.join else none
  | .restockProduct _ _ id dto =>
    if uuid id = k then dto.unitCostMinor.map (·.val) else none
  | _ => none

/-- The cost entered with an event: only a commit that writes enters one. -/
def enteredBy (reqs : List Request) (k : Uuid) : Event shop → Option Int
  | .exec _ _ => none
  | .commit c => if c.writes = [] then none else reqs[c.pid]?.bind (·.entered k)

/-- The costs ever entered for a product, the oldest first: the one it had at the start, and
those of the requests that have changed something. -/
def costsEntered (d₀ : Db) (reqs : List Request) (k : Uuid) (h : History shop) : List Int :=
  ((d₀.products.find? k).bind (·.purchaseCostMinor)).toList ++ h.filterMap (enteredBy reqs k)

/-- A cost known after a step was known before it, or is entered with it, or lies between
such two. -/
def CostStep (d d' : Db) (k : Uuid) (entered : Option Int) : Prop :=
  ∀ p' c, d'.products.find? k = some p' → p'.purchaseCostMinor = some c →
    (∃ p, d.products.find? k = some p ∧ p.purchaseCostMinor = some c) ∨ entered = some c ∨
    ∃ p b u, d.products.find? k = some p ∧ p.purchaseCostMinor = some b ∧ entered = some u ∧
      min b u ≤ c ∧ c ≤ max b u

/-- A known cost is in the range of the costs entered. -/
def CostWithin (d : Db) (k : Uuid) (costs : List Int) : Prop :=
  ∀ p c, d.products.find? k = some p → p.purchaseCostMinor = some c →
    (∃ a ∈ costs, a ≤ c) ∧ ∃ b ∈ costs, c ≤ b

section
variable {host : Host} {d₀ d d' : Db} {reqs : List Request} {h : History shop} {i : Nat}
variable {r : Request} {k : Uuid}

theorem CostWithin.step {costs : List Int} {entered : Option Int} (hc : CostWithin d k costs)
    (hs : CostStep d d' k entered) : CostWithin d' k (costs ++ entered.toList) := by
  intro p' c hp' hcost
  rcases hs p' c hp' hcost with ⟨p, hp, hpc⟩ | rfl | ⟨p, b, u, hp, hpb, rfl, hlow, hhigh⟩
  · obtain ⟨⟨a, ha, hac⟩, b, hb, hcb⟩ := hc p c hp hpc
    exact ⟨⟨a, List.mem_append_left _ ha, hac⟩, b, List.mem_append_left _ hb, hcb⟩
  · have hmem : c ∈ costs ++ [c] := List.mem_append_right _ (List.mem_singleton.mpr rfl)
    exact ⟨⟨c, hmem, le_refl c⟩, c, hmem, le_refl c⟩
  · obtain ⟨⟨a, ha, hab⟩, a', ha', hba'⟩ := hc p b hp hpb
    have hmem : u ∈ costs ++ [u] := List.mem_append_right _ (List.mem_singleton.mpr rfl)
    constructor
    · rcases min_le_iff.mp hlow with hbc | huc
      · exact ⟨a, List.mem_append_left _ ha, hab.trans hbc⟩
      · exact ⟨u, hmem, huc⟩
    · rcases le_max_iff.mp hhigh with hcb | hcu
      · exact ⟨a', List.mem_append_left _ ha', hcb.trans hba'⟩
      · exact ⟨u, hmem, hcu⟩

/-- The row is as it was, its stock apart. -/
theorem CostStep.kept {entered : Option Int} (hp : ∀ p', d'.products.find? k = some p' →
      ∃ p, d.products.find? k = some p ∧ p'.purchaseCostMinor = p.purchaseCostMinor) :
    CostStep d d' k entered := by
  intro p' c hp' hc
  obtain ⟨p, hfind, hcost⟩ := hp p' hp'
  exact .inl ⟨p, hfind, hcost.symm.trans hc⟩

theorem CostStep.same {entered : Option Int} (hp : d'.products = d.products) :
    CostStep d d' k entered :=
  .kept fun p' hp' => ⟨p', hp ▸ hp', rfl⟩

/-- An edit sets the cost it names, or none. -/
theorem ProductChanged.cost_step {id : Uuid} {data : ProductUpdate}
    (hc : ProductChanged h id d d' data) :
    CostStep d d' k (if id = k then data.purchaseCostMinor.join else none) := by
  intro p' c hp' hcost
  rw [hc.db] at hp'
  change (d.products.modify id data.apply).find? k = some p' at hp'
  rw [Table.find?_modify data.apply_id] at hp'
  split at hp'
  · rename_i hk
    obtain ⟨p, hp, rfl⟩ := Option.map_eq_some_iff.mp hp'
    change data.purchaseCostMinor.getD p.purchaseCostMinor = some c at hcost
    cases hd : data.purchaseCostMinor with
    | none =>
      rw [hd] at hcost
      exact .inl ⟨p, hk ▸ hp, hcost⟩
    | some stated =>
      rw [hd] at hcost
      change stated = some c at hcost
      refine .inr (.inl ?_)
      rw [if_pos hk.symm, hcost]
      rfl
  · exact .inl ⟨p', hp', hcost⟩

/-- A restock leaves the cost, sets it, or averages it with the cost paid. -/
theorem Restocked.cost_step {contextId : String} {id : Uuid} {dto : RestockProductDto}
    {p : Product} {m : StockMovement} {cost : Option Int}
    (hm : Restocked contextId id dto d d' p m cost) :
    CostStep d d' k (if id = k then dto.unitCostMinor.map (·.val) else none) := by
  intro p' c hp' hc
  have hid : p.id = id := Table.find?_key hm.product
  rw [hm.db] at hp'
  change (d.products.put _).find? k = some p' at hp'
  rw [Table.find?_put] at hp'
  split at hp'
  · rename_i hk
    change k = p.id at hk
    cases hp'
    change cost = some c at hc
    rw [if_pos (hid.symm.trans hk.symm)]
    have hfind : d.products.find? k = some p := by
      rw [hk, hid]
      exact hm.product
    obtain ⟨next, hnext, hcost⟩ := hm.costNext
    obtain ⟨hs, hq, rfl, -⟩ := nextProductCost_ok hnext
    rw [hcost] at hc
    cases hu : dto.unitCostMinor with
    | none =>
      rw [hu] at hc
      exact .inl ⟨p, hfind, hc⟩
    | some purchase =>
      rw [hu] at hc
      simp only [Option.map_some, costAfter] at hc
      split at hc
      · exact .inr (.inl hc)
      · cases hb : p.purchaseCostMinor with
        | none =>
          rw [hb] at hc
          cases hc
        | some current =>
          rw [hb] at hc
          simp only [Option.map_some, Option.some_or, Option.some.injEq] at hc
          subst hc
          exact .inr (.inr ⟨p, current, purchase.val, hfind, hb, rfl, weightedAverage_between hs hq⟩)
  · exact .inl ⟨p', hp', hc⟩

/-- What any request writes is a step of every cost. -/
theorem Request.Writes.cost_step (hw : r.Writes host d₀ i h d d') (k : Uuid) :
    CostStep d d' k (r.entered k) := by
  cases r with
  | createSale env actor dto =>
    obtain ⟨s, hs⟩ := hw
    rcases hs.outcome with ⟨ho, -⟩ | ⟨ho, -⟩
    · refine .kept fun p' hp' => ?_
      rw [ho.taken k] at hp'
      obtain ⟨p, hp, rfl⟩ := Option.map_eq_some_iff.mp hp'
      exact ⟨p, hp, rfl⟩
    · exact .same (by rw [ho.db])
  | createDeuda env actor dto =>
    obtain ⟨x, hx⟩ := hw
    obtain ⟨n, hn⟩ := hx.products
    refine .kept fun p' hp' => ?_
    rw [hn, Table.find?_modify (f := fun p : Product => { p with stock := n }) fun _ => rfl] at hp'
    split at hp'
    · rename_i hk
      obtain ⟨p, hp, rfl⟩ := Option.map_eq_some_iff.mp hp'
      exact ⟨p, hk ▸ hp, rfl⟩
    · exact ⟨p', hp', rfl⟩
  | registerAbono env actor id dto =>
    obtain ⟨x, a, now, ha⟩ := hw
    exact .same (by rw [ha.db])
  | addCuota env actor id dto => rw [show d' = _ from hw]; exact .same rfl
  | updateCuota actor id cuotaId dto => rw [show d' = _ from hw]; exact .same rfl
  | deleteCuota actor id cuotaId => rw [show d' = _ from hw]; exact .same rfl
  | createProduct env actor dto =>
    obtain ⟨p, hp, rfl⟩ := hw
    intro p' c hp' hc
    rw [hp.db] at hp'
    change (d.products.put _).find? k = some p' at hp'
    rw [Table.find?_put] at hp'
    split at hp'
    · rename_i hk
      cases hp'
      refine .inr (.inl ?_)
      rw [← hc]
      exact if_pos hk.symm
    · exact .inl ⟨p', hp', hc⟩
  | restockProduct env actor id dto =>
    obtain ⟨p, m, cost, hm⟩ := hw
    exact hm.cost_step
  | patchProduct env actor id dto =>
    obtain ⟨data, hc, hcost⟩ := hw
    have hstep := hc.cost_step (k := k)
    rw [hcost] at hstep
    exact hstep
  | changeImage env actor id saved =>
    obtain ⟨data, hc, hcost⟩ := hw
    have hstep := hc.cost_step (k := k)
    rw [hcost, Option.join_none, ite_self] at hstep
    exact hstep
  | deactivateProduct actor id =>
    obtain ⟨data, hc, hcost⟩ := hw
    have hstep := hc.cost_step (k := k)
    rw [hcost, Option.join_none, ite_self] at hstep
    exact hstep
  | reactivateProduct actor id =>
    obtain ⟨data, hc, hcost⟩ := hw
    have hstep := hc.cost_step (k := k)
    rw [hcost, Option.join_none, ite_self] at hstep
    exact hstep

/-- Along a run a cost stays in the range of those entered. -/
theorem CostWithin.replay (hl : Lawful (Commits host d₀ reqs) h) (k : Uuid) :
    CostWithin (Txn.replay (S := shop) d₀ h) k (costsEntered d₀ reqs k h) := by
  induction h using List.reverseRecOn with
  | nil =>
    intro p c hp hc
    have hmem : c ∈ costsEntered d₀ reqs k [] := by
      change d₀.products.find? k = some p at hp
      simp [costsEntered, hp, hc]
    exact ⟨⟨c, hmem, le_refl c⟩, c, hmem, le_refl c⟩
  | append_singleton h e ih =>
    have ih := ih (hl.of_prefix (List.prefix_append _ _))
    have hentered : costsEntered d₀ reqs k (h ++ [e]) =
        costsEntered d₀ reqs k h ++ (enteredBy reqs k e).toList := by
      unfold costsEntered
      rw [List.filterMap_append, ← List.append_assoc]
      congr 1
    rw [hentered]
    refine ih.step ?_
    cases e with
    | exec i q =>
      rw [replay_sent]
      exact .same rfl
    | commit c =>
      obtain ⟨-, r, hreq, hw⟩ := hl h c [] (by simp)
      rw [replay_committed]
      rcases hw with hw | ⟨hw, -⟩
      · rw [hw, applyAll_nil]
        exact .same rfl
      · by_cases hwrites : c.writes = []
        · rw [hwrites, applyAll_nil]
          exact .same rfl
        · change CostStep _ _ _ (if c.writes = [] then none else reqs[c.pid]?.bind (·.entered k))
          rw [if_neg hwrites, hreq]
          exact hw.cost_step k

/-- A known cost stays known. -/
theorem AuditStep.known (hs : AuditStep d d' k) {p : Product} (hp : d.products.find? k = some p)
    (hc : p.purchaseCostMinor.isSome) :
    ∃ p', d'.products.find? k = some p' ∧ p'.purchaseCostMinor.isSome := by
  rcases hs with ⟨-, hkept⟩ | ⟨r, p', -, hp', -, hbefore⟩
  · obtain ⟨p', hp', hfacts⟩ := hkept p hp
    have he : p'.purchaseCostMinor = p.purchaseCostMinor :=
      congrArg ProductSnapshot.purchaseCostMinor hfacts
    exact ⟨p', hp', he ▸ hc⟩
  · exact ⟨p', hp', (hbefore p hp).2 hc⟩

theorem Lawful.cost_known (hl : Lawful (Commits host d₀ reqs) h) (hf : FreshIds h)
    {h₁ : History shop} (h₁₂ : h₁ <+: h) {p : Product}
    (hp : (replay (S := shop) d₀ h₁).products.find? k = some p)
    (hc : p.purchaseCostMinor.isSome) :
    ∃ p', (replay (S := shop) d₀ h).products.find? k = some p' ∧ p'.purchaseCostMinor.isSome := by
  induction h using List.reverseRecOn with
  | nil =>
    rw [List.prefix_nil.mp h₁₂] at hp
    exact ⟨p, hp, hc⟩
  | append_singleton h e ih =>
    rcases List.prefix_concat_iff.mp h₁₂ with rfl | hbefore
    · exact ⟨p, hp, hc⟩
    · obtain ⟨q, hq, hqc⟩ := ih (hl.of_prefix (List.prefix_append _ _))
        (hf.of_prefix (List.prefix_append _ _)) hbefore
      cases e with
      | exec i sql =>
        rw [replay_sent]
        exact ⟨q, hq, hqc⟩
      | commit c => exact (Lawful.audit_step hl hf (List.prefix_refl _) k).known hq hqc

end

/-- Whatever stock, quantity and costs a restock may meet, the cost after it is worked out
without an error. An average is the one whole number that rounds the exact average half up,
and lies between the two costs averaged. In every committed state of every run, a known cost
lies between the least and the greatest cost entered for the product; and it stays known, in
a run in which nobody names a product before it is there. -/
theorem weighted_average_cost :
    (∀ (stock quantity : Int) (cost unitCost : Option Int), 0 ≤ stock → 1 ≤ quantity →
      (∀ c ∈ cost, IsAmount c) → (∀ c ∈ unitCost, IsAmount c) →
      (∃ next, Products.nextProductCost stock cost quantity unitCost = .ok next) ∧
      ∀ current ∈ cost, ∀ purchase ∈ unitCost, stock ≠ 0 → ∃ average,
        Products.nextProductCost stock cost quantity unitCost = .ok (some average) ∧
        (∀ n, IsHalfUp (exactAverage stock current quantity purchase) n ↔ n = average) ∧
        min current purchase ≤ average ∧ average ≤ max current purchase) ∧
    ∀ (host : Host) (d₀ : Db) (reqs : List Request) (s : Sys shop Answer),
      Reachable host d₀ reqs s → ∀ (k : Uuid) (h : History shop), h <+: s.hist →
        (∀ p c, (replay (S := shop) d₀ h).products.find? k = some p → p.purchaseCostMinor = some c →
          ∃ least greatest, (costsEntered d₀ reqs k h).min? = some least ∧
            (costsEntered d₀ reqs k h).max? = some greatest ∧ least ≤ c ∧ c ≤ greatest) ∧
        (FreshIds h → ∀ h₁, h₁ <+: h →
          ∀ p, (replay (S := shop) d₀ h₁).products.find? k = some p → p.purchaseCostMinor.isSome →
          ∃ p', (replay (S := shop) d₀ h).products.find? k = some p' ∧
            p'.purchaseCostMinor.isSome) := by
  constructor
  · intro stock quantity cost unitCost hs hq hc hu
    have he := nextProductCost_eq hs hq hc hu
    refine ⟨⟨_, he⟩, ?_⟩
    intro current hcurrent purchase hpurchase hne
    obtain rfl := Option.mem_def.mp hcurrent
    obtain rfl := Option.mem_def.mp hpurchase
    refine ⟨weightedAverage stock current quantity purchase, ?_,
      isHalfUp_weightedAverage hs hq, weightedAverage_between hs hq⟩
    rw [he]
    exact congrArg Except.ok (if_neg hne)
  · intro host d₀ reqs s hr k h hp
    have hl := hr.lawful.of_prefix hp
    refine ⟨?_, fun hf h₁ h₁₂ p hfind hc => Lawful.cost_known hl hf h₁₂ hfind hc⟩
    intro p c hfind hc
    obtain ⟨⟨a, ha, hac⟩, b, hb, hcb⟩ := CostWithin.replay hl k p c hfind hc
    have hne := List.ne_nil_of_mem ha
    refine ⟨_, _, List.min?_eq_some_min hne, List.max?_eq_some_max hne, ?_, ?_⟩
    · exact (List.min_le_of_mem ha).trans hac
    · exact hcb.trans (List.le_max_of_mem hb)

/-- A cost of 40 for what had none, then three pieces more at 61 each: `5 · 40 + 3 · 61`
over 8 is 47.875. -/
def Demo.costs : List Request :=
  [.patchProduct (env 1) actor "a"
      ⟨none, none, none, some (some forty), none, none, none, none, none⟩,
    .restockProduct (env 2) actor "a"
      ⟨three, some ⟨61, by decide, by decide⟩, none⟩]

def Demo.costsSteps : List Nat := List.replicate 9 0 ++ List.replicate 9 1

/-- The product after the two requests. -/
def Demo.averaged : Product := { product "a" 8 with initialStock := 5, purchaseCostMinor := some 48 }

theorem weighted_average_cost_restocked :
    (∃ average, Products.nextProductCost 5 (some 40) 3 (some 61) = .ok (some average) ∧
      ∀ n, IsHalfUp (exactAverage 5 40 3 61) n ↔ n = average) ∧
    (replay (S := shop) Demo.db (Demo.run Demo.costs Demo.costsSteps).hist).products.find?
      (uuid "a") = some Demo.averaged ∧
    ∃ least greatest,
      (costsEntered Demo.db Demo.costs (uuid "a")
        (Demo.run Demo.costs Demo.costsSteps).hist).min? = some least ∧
      (costsEntered Demo.db Demo.costs (uuid "a")
        (Demo.run Demo.costs Demo.costsSteps).hist).max? = some greatest ∧
      least ≤ 48 ∧ 48 ≤ greatest := by
  have hfind : (replay (S := shop) Demo.db (Demo.run Demo.costs Demo.costsSteps).hist).products.find?
      (uuid "a") = some Demo.averaged := by decide
  have hamount : ∀ c ∈ some (61 : Int), IsAmount c := by
    rintro c ⟨⟩
    exact ⟨by decide, by decide⟩
  have hamount' : ∀ c ∈ some (40 : Int), IsAmount c := by
    rintro c ⟨⟩
    exact ⟨by decide, by decide⟩
  refine ⟨?_, hfind, ?_⟩
  · obtain ⟨average, he, hround, -⟩ := (weighted_average_cost.1 5 3 (some 40) (some 61) (by decide)
      (by decide) hamount' hamount).2 40 rfl 61 rfl (by decide)
    exact ⟨average, he, hround⟩
  · exact (weighted_average_cost.2 Demo.host Demo.db Demo.costs (Demo.run Demo.costs Demo.costsSteps)
      (Demo.reachable (by decide)) (uuid "a") _ (List.prefix_refl _)).1 _ 48 hfind rfl

end Bazar.Shop
