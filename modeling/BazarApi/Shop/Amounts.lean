import BazarApi.Shop.ReportsAgree
import BazarApi.Shop.Balances
import BazarApi.Shop.Ledger

/- Every amount that sales and debts store is in the range of an amount: the prices and
   costs of the products are, and each line and each debt is checked against the range
   when it is written. -/
namespace Bazar.Shop

open Txn

/-- The cost of every product, if known, is an amount. -/
def CostsInRange (d : Db) : Prop :=
  ∀ p ∈ d.products.rows, ∀ c, p.purchaseCostMinor = some c → IsAmount c

/-- A line of pieces at amounts. -/
structure SaleItem.InRange (x : SaleItem) : Prop where
  subtotal : IsAmount x.subtotalMinor
  cost : ∀ c, x.unitCostMinor = some c → IsAmount c
  quantity : 0 < x.quantity

def SalesInRange (d : Db) : Prop :=
  ∀ s ∈ d.sales.rows, s.status = .completada → ∀ x ∈ s.items, x.InRange

/-- A debt of pieces at amounts. -/
structure Deuda.InRange (x : Deuda) : Prop where
  total : x.totalMinor ≤ maxMinorUnits
  cost : ∀ c, x.unitCostMinor = some c → IsAmount c
  cantidad : 0 < x.cantidad

def DeudasInRange (d : Db) : Prop := ∀ x ∈ d.deudas.rows, x.InRange

/-- What the reports may rely on. -/
structure Amounts (d : Db) : Prop where
  prices : PricesNonneg d
  costs : CostsInRange d
  addUp : SalesAddUp d
  sales : SalesInRange d
  deudas : DeudasInRange d
  balances : Balances d

section
variable {host : Host} {d₀ d d' : Db} {reqs : List Request} {h : History shop} {i : Nat}
variable {r : Request}

theorem CostsInRange.step (hc : CostsInRange d) (hw : r.Writes host d₀ i h d d') :
    CostsInRange d' := by
  refine hw.products_all hc (fun _ _ h => h) ?_ ?_ ?_
  · intro p hp c hc
    obtain ⟨cost, hcost, hrange⟩ := hp.cost
    cases hcost.symm.trans hc
    exact hrange
  · intro id data p hd hp c hc
    change data.purchaseCostMinor.getD p.purchaseCostMinor = some c at hc
    cases hu : data.purchaseCostMinor with
    | none =>
      rw [hu] at hc
      exact hp c hc
    | some v =>
      rw [hu] at hc
      exact hd.cost c (by rw [hu]; exact congrArg some hc)
  · intro _ _ _ p m cost hm hp c hc
    rcases hm.costRange with hsame | ⟨c', hc', hrange⟩
    · exact hp c (hsame.symm.trans hc)
    · cases hc'.symm.trans hc
      exact hrange

theorem CostsInRange.replay (hc : CostsInRange d₀) (hl : Lawful (Commits host d₀ reqs) h) :
    CostsInRange (Txn.replay (S := shop) d₀ h) := by
  refine hl.induct (S := shop) d₀ CostsInRange hc ?_
  intro h₁ c _ ih _ hc
  exact hc.keep ih fun r d' _ hw _ => ih.step hw

/-- A line sold at the price of its product is in range. -/
theorem LinePriced.inRange {x : SaleItem} (hx : LinePriced d x) (hp : PricesNonneg d)
    (hc : CostsInRange d) (hq : 0 < x.quantity) : x.InRange := by
  obtain ⟨p, hfind, hprice, hcost, hsub, hle⟩ := hx
  have hm := Table.mem_of_find? hfind
  refine ⟨⟨?_, hle⟩, fun c h => hc p hm c (hcost.symm.trans h), hq⟩
  rw [hsub, hprice]
  exact Int.mul_nonneg (hp p hm) hq.le

theorem SalesInRange.replay (h₀ : SalesInRange d₀) (hp : PricesNonneg d₀) (hc : CostsInRange d₀)
    (hl : Lawful (Commits host d₀ reqs) h) : SalesInRange (Txn.replay (S := shop) d₀ h) := by
  intro s hs hst
  rcases Lawful.sale_origin hl s hs with hold | ⟨h₁, c, env, actor, dto, hpre, -, hw⟩
  · exact h₀ s hold hst
  · have hl₁ := hl.of_prefix ((List.prefix_append h₁ [.commit c]).trans hpre)
    rcases hw.outcome with ⟨ho, -⟩ | ⟨ho, -⟩
    · exact fun x hx => (ho.priced x hx).inRange (hp.replay hl₁) (hc.replay hl₁)
        (Int.lt_of_lt_of_le Int.one_pos (ho.quantity x hx))
    · cases hst.symm.trans ho.status

/-- Every commit keeps the debts in range: it is in range when it is created, and a payment
changes none of these columns. -/
theorem DeudasInRange.step (hd : DeudasInRange d)
    (hc : ∀ h₁, h₁ <+: h → CostsInRange (Txn.replay (S := shop) d₀ h₁))
    (hw : r.Writes host d₀ i h d d') : DeudasInRange d' := by
  unfold DeudasInRange
  rcases hw.kinds with ⟨_, _, _, s, -, hs⟩ | ⟨_, _, dto, x, -, hx⟩ | ⟨_, _, _, _, x, a, now, -, ha⟩ |
    he | he
  · rw [hs.db]
    exact hd
  · rw [hx.db]
    intro y hy
    rcases Table.mem_put.mp hy with rfl | ⟨hold, -⟩
    · obtain ⟨h₁, p, hp₁, hfind, hcost⟩ := hx.cost
      refine ⟨hx.range, fun c h => ?_, ?_⟩
      · exact hc h₁ hp₁ p (Table.mem_of_find? hfind) c (hcost.symm.trans h)
      · have hpos := dto.cantidad.pos
        rw [hx.cantidad]
        omega
    · exact hd y hold
  · have hx := hd x (Table.mem_of_find? ha.deuda)
    rw [ha.db]
    intro y hy
    dsimp only at hy
    split at hy
    · rcases Table.mem_put.mp hy with rfl | ⟨hold, -⟩
      · exact ⟨hx.total, hx.cost, hx.cantidad⟩
      · exact hd y hold
    · exact hd y hy
  · rw [he]
    exact hd
  · rw [show d' = _ from he]
    exact hd

/-- Every run keeps the amounts in range. -/
theorem Amounts.replay (ha : Amounts d₀) (hl : Lawful (Commits host d₀ reqs) h) :
    Amounts (Txn.replay (S := shop) d₀ h) := by
  refine ⟨ha.prices.replay hl, ha.costs.replay hl, ha.addUp.replay hl,
    ha.sales.replay ha.prices ha.costs hl, ?_, ha.balances.replay ha.prices hl⟩
  refine hl.induct (S := shop) d₀ DeudasInRange ha.deudas ?_
  intro h₁ c hl₁ ih _ hc
  exact hc.keep ih fun r d' _ hw _ =>
    ih.step (fun h₂ hp₂ => ha.costs.replay (hl₁.of_prefix hp₂)) hw

end

end Bazar.Shop
