import BazarApi.Shop.Amounts

/- When the reports answer. Each row that sales and debts store is in the range of an amount
   (`Amounts`), but the reports add any number of rows and multiply costs by quantities,
   and pass the results through helpers that refuse what leaves the range. Each report
   answers exactly when its own sums stay in it. -/
namespace Bazar.Shop

open Txn Reports

namespace Reports

/-- The report is answered. -/
def Answers {α : Type} (r : Except Err α) : Prop := ∃ a, r = .ok a

theorem toMinorUnits_answers {n : Int} :
    Answers (toMinorUnits n) ↔ -2147483648 ≤ n ∧ n ≤ maxMinorUnits := by
  constructor
  · rintro ⟨a, ha⟩
    exact (assertMinorUnits_ok.mp ha).2
  · exact fun h => ⟨n, assertMinorUnits_ok.mpr ⟨rfl, h⟩⟩

theorem IsAmount.ok {n : Int} (h : IsAmount n) : toDinero n = .ok n := by
  have hmin : (-2147483648 : Int) ≤ 0 := by decide
  exact assertMinorUnits_ok.mpr ⟨rfl, hmin.trans h.1, h.2⟩

theorem mapM_answers {α β : Type} {f : α → Except Err β} {xs : List α} :
    Answers (xs.mapM f) ↔ ∀ x ∈ xs, Answers (f x) := by
  induction xs with
  | nil => exact ⟨(fun _ x hx => by cases hx), fun _ => ⟨[], rfl⟩⟩
  | cons x xs ih =>
    rw [List.forall_mem_cons, ← ih, List.mapM_cons]
    constructor
    · rintro ⟨ys, h⟩
      obtain ⟨y, hy, h⟩ := ok_of_bind h
      obtain ⟨ys', hys, -⟩ := ok_of_bind h
      exact ⟨⟨y, hy⟩, ys', hys⟩
    · rintro ⟨⟨y, hy⟩, ys, hys⟩
      exact ⟨y :: ys, by rw [hy, hys]; rfl⟩

/-! Sums. -/

theorem sum_nonneg {α : Type} {f : α → Int} {xs : List α} (h : ∀ x ∈ xs, 0 ≤ f x) :
    0 ≤ (xs.map f).sum := by
  apply List.sum_nonneg
  intro n hn
  obtain ⟨x, hx, rfl⟩ := List.mem_map.mp hn
  exact h x hx

theorem sum_filter_le {α : Type} {f : α → Int} {xs : List α} (p : α → Bool)
    (h : ∀ x ∈ xs, 0 ≤ f x) : ((xs.filter p).map f).sum ≤ (xs.map f).sum := by
  induction xs with
  | nil => exact le_refl _
  | cons x xs ih =>
    have ih := ih fun x hx => h x (List.mem_cons_of_mem _ hx)
    have hx := h x List.mem_cons_self
    rw [List.filter_cons, List.map_cons, List.sum_cons]
    split
    · rw [List.map_cons, List.sum_cons]
      omega
    · omega

theorem sum_le {α : Type} {f g : α → Int} {xs : List α} (h : ∀ x ∈ xs, f x ≤ g x) :
    (xs.map f).sum ≤ (xs.map g).sum := by
  induction xs with
  | nil => exact le_refl _
  | cons x xs ih =>
    have ih := ih fun x hx => h x (List.mem_cons_of_mem _ hx)
    have hx := h x List.mem_cons_self
    rw [List.map_cons, List.map_cons, List.sum_cons, List.sum_cons]
    omega

/-! Lines. -/

structure SoldLine.InRange (x : SoldLine) : Prop where
  subtotal : IsAmount x.subtotalMinor
  cost : ∀ c, x.unitCostMinor = some c → IsAmount c
  quantity : 0 < x.quantity

/-- The cost of a line, when it is known. -/
def SoldLine.costo (x : SoldLine) : Int := (x.unitCostMinor.map (· * x.quantity)).getD 0

/-- The money of the lines. -/
def revenue (items : List SoldLine) : Int := (items.map (·.subtotalMinor)).sum

/-- Their profit, as far as the costs are known. -/
def profit (items : List SoldLine) : Int := (items.map (·.ganancia)).sum

/-- The costs of a product sold by one member, when all are known. -/
def CostsFit (items : List SoldLine) : Prop :=
  ∀ x ∈ items, (∀ y ∈ items, y.key = x.key → y.unitCostMinor.isSome) →
    ((items.filter (·.key = x.key)).map (·.costo)).sum ≤ maxMinorUnits

section
variable {items : List SoldLine} {x : SoldLine}

theorem SoldLine.InRange.costo_nonneg (hx : x.InRange) : 0 ≤ x.costo := by
  unfold SoldLine.costo
  cases hc : x.unitCostMinor with
  | none => exact le_refl _
  | some c => exact Int.mul_nonneg (hx.cost c hc).1 hx.quantity.le

theorem SoldLine.InRange.ganancia_le (hx : x.InRange) : x.ganancia ≤ x.subtotalMinor := by
  unfold SoldLine.ganancia
  split
  · exact hx.subtotal.1
  · rename_i c hc
    have h := Int.mul_nonneg (hx.cost c hc).1 hx.quantity.le
    omega

/-- The line passes the checks of the loop. -/
theorem addProfit_inRange (hx : x.InRange) (sums : Int × Int × Nat) :
    Answers (addProfit sums x) := by
  unfold addProfit
  rw [IsAmount.ok hx.subtotal]
  dsimp only [bind, Except.bind]
  split
  · exact ⟨_, rfl⟩
  · rename_i c hc
    rw [IsAmount.ok (hx.cost c hc)]
    exact ⟨_, rfl⟩

theorem foldlM_addProfit_inRange (hx : ∀ x ∈ items, x.InRange) (sums : Int × Int × Nat) :
    Answers (items.foldlM addProfit sums) := by
  induction items generalizing sums with
  | nil => exact ⟨sums, rfl⟩
  | cons x items ih =>
    obtain ⟨sums', hs⟩ := addProfit_inRange (hx x List.mem_cons_self) sums
    obtain ⟨sums'', hs'⟩ := ih (fun x h => hx x (List.mem_cons_of_mem _ h)) sums'
    exact ⟨sums'', by rw [List.foldlM_cons, hs]; exact hs'⟩

theorem computeProfitTotals_answers (hx : ∀ x ∈ items, x.InRange) :
    Answers (computeProfitTotals items) ↔
      revenue items ≤ maxMinorUnits ∧ -2147483648 ≤ profit items := by
  obtain ⟨sums, hs⟩ := foldlM_addProfit_inRange hx (0, 0, 0)
  obtain ⟨h1, h2⟩ := foldlM_addProfit_ok hs
  have hrevenue : sums.1 = revenue items := h1.trans (Int.zero_add _)
  have hprofit : sums.2.1 = profit items := h2.trans (Int.zero_add _)
  have hnonneg : 0 ≤ revenue items := sum_nonneg fun x h => (hx x h).subtotal.1
  have hle : profit items ≤ revenue items := sum_le fun x h => (hx x h).ganancia_le
  have hmin : (-2147483648 : Int) ≤ 0 := by decide
  constructor
  · rintro ⟨t, ht⟩
    obtain ⟨sums', hs', ht⟩ := ok_of_bind ht
    cases hs.symm.trans hs'
    obtain ⟨a, ha, ht⟩ := ok_of_bind ht
    obtain ⟨b, hb, -⟩ := ok_of_bind ht
    rw [← hrevenue, ← hprofit]
    exact ⟨(assertMinorUnits_ok.mp ha).2.2, (assertMinorUnits_ok.mp hb).2.1⟩
  · rintro ⟨hmax, hlow⟩
    obtain ⟨a, ha⟩ := toMinorUnits_answers.mpr (⟨by omega, by omega⟩ :
      -2147483648 ≤ sums.1 ∧ sums.1 ≤ maxMinorUnits)
    obtain ⟨b, hb⟩ := toMinorUnits_answers.mpr (⟨by omega, by omega⟩ :
      -2147483648 ≤ sums.2.1 ∧ sums.2.1 ≤ maxMinorUnits)
    refine ⟨⟨a, b, sums.2.2⟩, ?_⟩
    unfold computeProfitTotals
    rw [hs]
    dsimp only [bind, Except.bind]
    rw [ha, hb]
    rfl

/-! The rows of the detail. -/

/-- The row of a key holds the sums of its lines. -/
theorem collect_row (items : List SoldLine) {row : Row} {k : Uuid × Uuid}
    (hget : (Js.collect SoldLine.key newRow Row.add items).get k = some row) :
    row.ingreso = revenue (items.filter (·.key = k)) ∧
      row.costo = ((items.filter (·.key = k)).map (·.costo)).sum ∧
      (row.allCosted = true ↔ ∀ y ∈ items, y.key = k → y.unitCostMinor.isSome) := by
  have hingreso := Js.collect_get SoldLine.key newRow Row.add Row.ingreso 0
    (fun n y => n + y.subtotalMinor) (fun _ => rfl) (fun _ _ => rfl) items k
  have hcosto := Js.collect_get SoldLine.key newRow Row.add Row.costo 0
    (fun n y => n + y.costo) (fun _ => rfl) (fun _ _ => rfl) items k
  have hall := Js.collect_get SoldLine.key newRow Row.add Row.allCosted true
    (fun b y => b && y.unitCostMinor.isSome) (fun _ => rfl) (fun _ _ => rfl) items k
  rw [hget, foldl_add, Int.zero_add] at hingreso hcosto
  rw [hget, foldl_and, Bool.true_and] at hall
  refine ⟨hingreso, hcosto, ?_⟩
  change row.allCosted = _ at hall
  rw [hall, List.all_eq_true]
  simp only [List.mem_filter, decide_eq_true_eq]
  exact ⟨fun h y hy hk => h y ⟨hy, hk⟩, fun h y hy => h y hy.1 hy.2⟩

theorem checkLine_inRange (hx : ∀ x ∈ items, x.InRange) : items.forM checkLine = .ok () := by
  induction items with
  | nil => rfl
  | cons x items ih =>
    have hone : checkLine x = .ok () := by
      have hr := hx x List.mem_cons_self
      unfold checkLine
      rw [IsAmount.ok hr.subtotal]
      dsimp only [bind, Except.bind]
      split
      · rfl
      · rename_i c hc
        rw [IsAmount.ok (hr.cost c hc)]
        rfl
    change (checkLine x >>= fun _ => items.forM checkLine) = .ok ()
    rw [hone]
    exact ih fun x h => hx x (List.mem_cons_of_mem _ h)

theorem shown_answers {row : Row} {value : Int} : Answers (row.shown value) ↔
    (row.allCosted = true → -2147483648 ≤ value ∧ value ≤ maxMinorUnits) := by
  unfold Row.shown
  by_cases hc : row.allCosted = true
  · rw [if_pos hc, ← toMinorUnits_answers]
    constructor
    · rintro ⟨a, ha⟩ -
      cases hv : toMinorUnits value with
      | error e =>
        rw [hv] at ha
        cases ha
      | ok v => exact ⟨v, rfl⟩
    · intro h
      obtain ⟨v, hv⟩ := h hc
      exact ⟨some v, by rw [hv]; rfl⟩
  · rw [if_neg hc]
    exact ⟨fun _ h => absurd h hc, fun _ => ⟨none, rfl⟩⟩

theorem detail_answers {row : Row} : Answers row.detail ↔
    Answers (toMinorUnits row.ingreso) ∧ Answers (row.shown row.costo) ∧
      Answers (row.shown (row.ingreso - row.costo)) := by
  constructor
  · rintro ⟨r, h⟩
    obtain ⟨a, ha, h⟩ := ok_of_bind h
    obtain ⟨b, hb, h⟩ := ok_of_bind h
    obtain ⟨c, hc, -⟩ := ok_of_bind h
    exact ⟨⟨a, ha⟩, ⟨b, hb⟩, ⟨c, hc⟩⟩
  · rintro ⟨⟨a, ha⟩, ⟨b, hb⟩, ⟨c, hc⟩⟩
    unfold Row.detail
    rw [ha, hb, hc]
    exact ⟨_, rfl⟩

theorem salesDetail_answers {host : Host} {page limit : Nat} (hx : ∀ x ∈ items, x.InRange) :
    Answers (salesDetail host items page limit) ↔
      revenue items ≤ maxMinorUnits ∧ -2147483648 ≤ profit items ∧ CostsFit items := by
  have hgroups : groups items = .ok (Js.collect SoldLine.key newRow Row.add items) := by
    unfold groups
    rw [checkLine_inRange hx]
    rfl
  have hsplit : Answers (salesDetail host items page limit) ↔
      Answers (computeProfitTotals items) ∧
        ∀ row ∈ (Js.collect SoldLine.key newRow Row.add items).values, Answers row.detail := by
    rw [← mapM_answers]
    constructor
    · rintro ⟨q, h⟩
      obtain ⟨m, hm, h⟩ := ok_of_bind h
      cases hgroups.symm.trans hm
      obtain ⟨rows, hrows, h⟩ := ok_of_bind h
      obtain ⟨totals, htotals, -⟩ := ok_of_bind h
      exact ⟨⟨totals, htotals⟩, rows, hrows⟩
    · rintro ⟨⟨totals, htotals⟩, rows, hrows⟩
      unfold salesDetail
      rw [hgroups, htotals]
      dsimp only [bind, Except.bind]
      rw [hrows]
      exact ⟨_, rfl⟩
  rw [hsplit, computeProfitTotals_answers hx, and_assoc]
  refine and_congr_right fun hmax => and_congr_right fun _ => ?_
  have hfilter : ∀ k, ∀ y ∈ items.filter (·.key = k), y.InRange :=
    fun k y hy => hx y (List.mem_of_mem_filter hy)
  constructor
  · intro hrows x hxm hcosted
    obtain ⟨e, he, hk⟩ := List.mem_map.mp
      ((Js.mem_keys_collect SoldLine.key newRow Row.add).mpr ⟨x, hxm, rfl⟩)
    have hget := Js.Map.get_of_mem (v := e.2) (Js.nodup_collect SoldLine.key newRow Row.add items)
      (show (x.key, e.2) ∈ _ by rw [← hk]; exact he)
    obtain ⟨-, hcosto, hall⟩ := collect_row items hget
    obtain ⟨-, hshown, -⟩ := detail_answers.mp (hrows e.2 (List.mem_map_of_mem he))
    rw [← hcosto]
    exact (shown_answers.mp hshown (hall.mpr hcosted)).2
  · intro hfit row hrow
    obtain ⟨x, hxm, hget⟩ := Js.mem_values_collect SoldLine.key newRow Row.add hrow
    obtain ⟨hingreso, hcosto, hall⟩ := collect_row items hget
    have h0 : 0 ≤ row.ingreso := by
      rw [hingreso]
      exact sum_nonneg fun y hy => (hfilter x.key y hy).subtotal.1
    have h1 : row.ingreso ≤ maxMinorUnits := by
      rw [hingreso]
      exact (sum_filter_le _ fun y hy => (hx y hy).subtotal.1).trans hmax
    have h2 : 0 ≤ row.costo := by
      rw [hcosto]
      exact sum_nonneg fun y hy => (hfilter x.key y hy).costo_nonneg
    have hbound : maxMinorUnits ≤ 2147483648 := by decide
    refine detail_answers.mpr ⟨toMinorUnits_answers.mpr ⟨by omega, h1⟩, ?_, ?_⟩
    · exact shown_answers.mpr fun hc => ⟨by omega, hcosto ▸ hfit x hxm (hall.mp hc)⟩
    · refine shown_answers.mpr fun hc => ?_
      have h3 : row.costo ≤ maxMinorUnits := hcosto ▸ hfit x hxm (hall.mp hc)
      exact ⟨by omega, by omega⟩

end

/-! Sales by period. -/

theorem gananciaMinor_answers {x : Deuda} (h0 : 0 ≤ x.totalMinor) (hx : x.InRange) :
    Answers (gananciaMinor x) ↔
      ∀ c, x.unitCostMinor = some c → c * x.cantidad - x.totalMinor ≤ 2147483648 := by
  unfold gananciaMinor
  cases hc : x.unitCostMinor with
  | none => exact ⟨(fun _ c h => by cases h), fun _ => ⟨none, rfl⟩⟩
  | some cost =>
    have hcost := hx.cost cost hc
    have hprod := Int.mul_nonneg hcost.1 hx.cantidad.le
    have hle := hx.total
    dsimp only
    rw [IsAmount.ok ⟨h0, hle⟩, IsAmount.ok hcost]
    have hsplit : Answers (do
        let ganancia ← toMinorUnits (x.totalMinor - cost * x.cantidad)
        return some ganancia : Except Err (Option Int)) ↔
        Answers (toMinorUnits (x.totalMinor - cost * x.cantidad)) := by
      constructor
      · rintro ⟨a, ha⟩
        obtain ⟨b, hb, -⟩ := ok_of_bind ha
        exact ⟨b, hb⟩
      · rintro ⟨b, hb⟩
        exact ⟨some b, by rw [hb]; rfl⟩
    refine hsplit.trans (toMinorUnits_answers.trans ?_)
    constructor
    · rintro ⟨hlow, -⟩ c he
      cases he
      omega
    · intro h
      have h := h cost rfl
      exact ⟨by omega, by omega⟩

theorem deudaLiquidada_answers {d : Db} {x : Deuda} :
    Answers (deudaLiquidada d x) ↔ Answers (gananciaMinor x) := by
  constructor
  · rintro ⟨r, h⟩
    obtain ⟨g, hg, -⟩ := ok_of_bind h
    exact ⟨g, hg⟩
  · rintro ⟨g, hg⟩
    unfold deudaLiquidada
    rw [hg]
    exact ⟨_, rfl⟩

/-- A method's part of the sales and payments. -/
theorem methodTotal_answers {sales : List Sale} {abonos : List AbonoRow} {method : PaymentMethod}
    (hs : ∀ s ∈ sales, 0 ≤ s.totalMinor.getD 0) (ha : ∀ a ∈ abonos, 0 ≤ a.montoMinor)
    (hle : sumTotal sales + (abonos.map (·.montoMinor)).sum ≤ maxMinorUnits) :
    Answers (methodTotal (groupBy (fun s : Sale => s.paymentMethod) sales) abonos method) := by
  have hv0 : 0 ≤ sumTotal (sales.filter (·.paymentMethod = method)) :=
    sum_nonneg fun s h => hs s (List.mem_of_mem_filter h)
  have hv1 : sumTotal (sales.filter (·.paymentMethod = method)) ≤ sumTotal sales :=
    sum_filter_le _ hs
  have hp0 : 0 ≤ ((abonos.filter (·.paymentMethod = method)).map (·.montoMinor)).sum :=
    sum_nonneg fun a h => ha a (List.mem_of_mem_filter h)
  have hp1 : ((abonos.filter (·.paymentMethod = method)).map (·.montoMinor)).sum ≤
      (abonos.map (·.montoMinor)).sum := sum_filter_le _ ha
  unfold methodTotal
  rw [sum_method]
  dsimp only
  rw [IsAmount.ok ⟨hv0, by omega⟩, IsAmount.ok ⟨hp0, by omega⟩]
  dsimp only [bind, Except.bind]
  obtain ⟨total, htotal⟩ := toMinorUnits_answers.mpr (⟨by omega, by omega⟩ :
    -2147483648 ≤ sumTotal (sales.filter (·.paymentMethod = method)) +
      ((abonos.filter (·.paymentMethod = method)).map (·.montoMinor)).sum ∧ _ ≤ maxMinorUnits)
  rw [htotal]
  exact ⟨_, rfl⟩

theorem salesByPeriod_answers {d : Db} {p : Period} {sales : List Sale} {abonos : List AbonoRow}
    {settled : List Deuda} (hs : ∀ s ∈ sales, 0 ≤ s.totalMinor.getD 0)
    (ha : ∀ a ∈ abonos, 0 ≤ a.montoMinor) (hd : ∀ x ∈ settled, 0 ≤ x.totalMinor ∧ x.InRange) :
    Answers (salesByPeriod d p sales abonos settled) ↔
      sumTotal sales + (abonos.map (·.montoMinor)).sum ≤ maxMinorUnits ∧
      ∀ x ∈ settled, ∀ c, x.unitCostMinor = some c →
        c * x.cantidad - x.totalMinor ≤ 2147483648 := by
  have hsettled : (∀ x ∈ settled, Answers (deudaLiquidada d x)) ↔ ∀ x ∈ settled, ∀ c,
      x.unitCostMinor = some c → c * x.cantidad - x.totalMinor ≤ 2147483648 :=
    forall₂_congr fun x hx =>
      deudaLiquidada_answers.trans (gananciaMinor_answers (hd x hx).1 (hd x hx).2)
  have hs0 : 0 ≤ sumTotal sales := sum_nonneg hs
  have ha0 : 0 ≤ (abonos.map (·.montoMinor)).sum := sum_nonneg ha
  rw [← hsettled, ← mapM_answers]
  constructor
  · rintro ⟨r, h⟩
    obtain ⟨liquidadas, hl, h⟩ := ok_of_bind h
    obtain ⟨methods, -, h⟩ := ok_of_bind h
    obtain ⟨soldMinor, hsold, h⟩ := ok_of_bind h
    obtain ⟨abonosMinor, habonos, h⟩ := ok_of_bind h
    obtain ⟨total, htotal, -⟩ := ok_of_bind h
    obtain ⟨rfl, -⟩ := assertMinorUnits_ok.mp hsold
    obtain ⟨rfl, -⟩ := assertMinorUnits_ok.mp habonos
    have hmax := (assertMinorUnits_ok.mp htotal).2.2
    rw [sum_groupBy] at hmax
    exact ⟨hmax, liquidadas, hl⟩
  · rintro ⟨hmax, liquidadas, hl⟩
    have hall : Answers (paymentMethods.mapM
        (methodTotal (groupBy (fun s : Sale => s.paymentMethod) sales) abonos)) :=
      mapM_answers.mpr fun _ _ => methodTotal_answers hs ha hmax
    obtain ⟨methods, hmethods⟩ := hall
    unfold salesByPeriod
    dsimp only
    rw [hl, hmethods]
    dsimp only [bind, Except.bind]
    rw [sum_groupBy, IsAmount.ok ⟨hs0, by omega⟩, IsAmount.ok ⟨ha0, by omega⟩]
    dsimp only
    obtain ⟨total, htotal⟩ := toMinorUnits_answers.mpr (⟨by omega, by omega⟩ :
      -2147483648 ≤ sumTotal sales + (abonos.map (·.montoMinor)).sum ∧ _ ≤ maxMinorUnits)
    rw [htotal]
    exact ⟨_, rfl⟩

/-! Commissions. -/

/-- Rates as their requests allow them, up to `MAX_COMMISSION_RATE_BPS`. -/
structure Registry.Rates (reg : Registry) : Prop where
  member : ∀ id rate, reg.commissionRateBps id = some rate → 0 ≤ rate ∧ rate ≤ 10000
  default : ∀ contextId rate, reg.defaultCommissionRateBps contextId = some rate →
    0 ≤ rate ∧ rate ≤ 10000

theorem commissionMinorFor_answers {totalSoldMinor rateBps : Int} (h0 : 0 ≤ totalSoldMinor)
    (hr : 0 ≤ rateBps ∧ rateBps ≤ 10000) :
    Answers (commissionMinorFor totalSoldMinor rateBps) ↔ totalSoldMinor ≤ maxMinorUnits := by
  constructor
  · rintro ⟨a, h⟩
    obtain ⟨b, hb, -⟩ := ok_of_bind h
    exact (assertMinorUnits_ok.mp hb).2.2
  · intro hmax
    have hprod0 := Int.mul_nonneg h0 hr.1
    have hprod1 : totalSoldMinor * rateBps ≤ totalSoldMinor * 10000 :=
      Int.mul_le_mul_of_nonneg_left hr.2 h0
    obtain ⟨a, ha⟩ := toMinorUnits_answers.mpr (⟨by omega, by omega⟩ :
      -2147483648 ≤ (2 * (totalSoldMinor * rateBps) + 10000) / 20000 ∧ _ ≤ maxMinorUnits)
    unfold commissionMinorFor
    rw [IsAmount.ok ⟨h0, hmax⟩]
    exact ⟨a, ha⟩

theorem commission_answers {d : Db} {reg : Registry} {contextId : String} {p : Period} {m : Member}
    (hr : reg.Rates) (h0 : 0 ≤ sumTotal (soldBy d m.id p)) :
    Answers (commission d reg contextId p m) ↔ sumTotal (soldBy d m.id p) ≤ maxMinorUnits := by
  have hrate : 0 ≤ (reg.commissionRateBps m.id).getD
        ((reg.defaultCommissionRateBps contextId).getD 0) ∧
      (reg.commissionRateBps m.id).getD ((reg.defaultCommissionRateBps contextId).getD 0) ≤
        10000 := by
    cases hm : reg.commissionRateBps m.id with
    | some rate => exact hr.member m.id rate hm
    | none =>
      cases hd : reg.defaultCommissionRateBps contextId with
      | some rate => exact hr.default contextId rate hd
      | none => decide
  rw [← commissionMinorFor_answers h0 hrate]
  constructor
  · rintro ⟨r, h⟩
    obtain ⟨a, ha, -⟩ := ok_of_bind h
    exact ⟨a, ha⟩
  · rintro ⟨a, ha⟩
    unfold commission
    dsimp only
    rw [ha]
    exact ⟨_, rfl⟩

theorem commissions_answers {d : Db} {reg : Registry} {contextId : String} {memberId : Option Uuid}
    {p : Period} {members : List Member} (hr : reg.Rates)
    (h0 : ∀ m ∈ members, 0 ≤ sumTotal (soldBy d m.id p))
    (hm : memberId.isSome → members ≠ []) :
    Answers (commissions d reg contextId memberId p members) ↔
      ∀ m ∈ members, sumTotal (soldBy d m.id p) ≤ maxMinorUnits := by
  have hall : Answers (members.mapM (commission d reg contextId p)) ↔
      ∀ m ∈ members, sumTotal (soldBy d m.id p) ≤ maxMinorUnits :=
    mapM_answers.trans (forall₂_congr fun m h => commission_answers hr (h0 m h))
  unfold commissions
  split
  · rw [if_neg (hm rfl)]
    exact hall
  · exact hall

/-! The dashboard. -/

/-- What is left to pay of a debt. -/
def owed (d : Db) (x : Deuda) : Int := x.totalMinor - d.paid x.id

theorem paid_eq (d : Db) (k : Uuid) :
    ((d.abonos.rows.filter (·.deudaId = k)).map (·.montoMinor)).sum = d.paid k := by
  unfold Db.paid Table.total
  induction d.abonos.rows with
  | nil => rfl
  | cons a rows ih =>
    rw [List.map_cons, List.sum_cons, List.filter_cons, ← ih]
    split
    · rename_i h
      rw [if_pos (of_decide_eq_true h), List.map_cons, List.sum_cons]
    · rename_i h
      rw [if_neg fun he => h (decide_eq_true he), Int.zero_add]

theorem remaining_ok {d : Db} {x : Deuda} (hb : Balances d) (hx : x.Balanced d) (hr : x.InRange) :
    remaining d x = .ok (owed d x) := by
  have hpaid := hb.paid_nonneg x.id
  unfold remaining
  dsimp only
  rw [paid_eq, IsAmount.ok ⟨hx.nonneg, hr.total⟩, IsAmount.ok ⟨hpaid, hx.within.trans hr.total⟩]
  rfl

theorem summary_answers {d : Db} {reg : Registry} {contextId : String} {umbral : Int}
    {ventasHoy ventasAyer : List Sale} {lines : List SoldLine} {deudas : List Deuda}
    {bajoStock : List Product} (hl : ∀ x ∈ lines, x.InRange) (hb : Balances d)
    (hd : ∀ x ∈ deudas, x.Balanced d ∧ x.InRange) :
    Answers (summary d reg contextId umbral ventasHoy ventasAyer lines deudas bajoStock) ↔
      revenue lines ≤ maxMinorUnits ∧ -2147483648 ≤ profit lines ∧
        (deudas.map (owed d)).sum ≤ maxMinorUnits := by
  have hall : deudas.mapM (remaining d) = .ok (deudas.map (owed d)) := by
    clear hl
    induction deudas with
    | nil => rfl
    | cons x deudas ih =>
      obtain ⟨hx, hr⟩ := hd x List.mem_cons_self
      rw [List.mapM_cons, remaining_ok hb hx hr, ih fun y hy => hd y (List.mem_cons_of_mem _ hy)]
      rfl
  have h0 : 0 ≤ (deudas.map (owed d)).sum := by
    refine sum_nonneg fun x hx => ?_
    have hw := (hd x hx).1.within
    unfold owed
    omega
  have hmin : (-2147483648 : Int) ≤ 0 := by decide
  rw [← and_assoc, ← computeProfitTotals_answers hl]
  constructor
  · rintro ⟨r, h⟩
    obtain ⟨totals, ht, h⟩ := ok_of_bind h
    obtain ⟨debts, hdebts, h⟩ := ok_of_bind h
    cases hall.symm.trans hdebts
    obtain ⟨sum, hsum, -⟩ := ok_of_bind h
    exact ⟨⟨totals, ht⟩, (assertMinorUnits_ok.mp hsum).2.2⟩
  · rintro ⟨⟨totals, ht⟩, hmax⟩
    obtain ⟨sum, hsum⟩ := toMinorUnits_answers.mpr ⟨hmin.trans h0, hmax⟩
    unfold summary
    rw [ht, hall]
    dsimp only [bind, Except.bind]
    rw [hsum]
    exact ⟨_, rfl⟩

/-! The rows the shop stores. -/

section
variable {d : Db} {reg : Registry} {contextId : String} {p : Period}

theorem soldLines_inRange (ha : Amounts d) : ∀ x ∈ soldLines d reg contextId p, x.InRange := by
  intro x hx
  obtain ⟨s, hs, hx⟩ := List.mem_flatMap.mp hx
  obtain ⟨item, hitem, rfl⟩ := List.mem_map.mp hx
  obtain ⟨hm, hsold⟩ := List.mem_filter.mp hs
  have hr := ha.sales s hm (of_decide_eq_true hsold).1 item hitem
  exact ⟨hr.subtotal, hr.cost, hr.quantity⟩

/-- A completed sale has a total that is not negative. -/
theorem total_nonneg (ha : Amounts d) {s : Sale} (hm : s ∈ d.sales.rows)
    (hst : s.status = .completada) : 0 ≤ s.totalMinor.getD 0 := by
  rw [(ha.addUp s hm hst).total]
  exact sum_nonneg fun x hx => (ha.sales s hm hst x hx).subtotal.1

theorem sold_nonneg (ha : Amounts d) : ∀ s ∈ sold d contextId p, 0 ≤ s.totalMinor.getD 0 := by
  intro s hs
  obtain ⟨hm, hsold⟩ := List.mem_filter.mp hs
  exact total_nonneg ha hm (of_decide_eq_true hsold).1

theorem soldBy_nonneg (ha : Amounts d) (memberId : Uuid) : 0 ≤ sumTotal (soldBy d memberId p) := by
  refine sum_nonneg fun s hs => ?_
  obtain ⟨hm, hsold⟩ := List.mem_filter.mp hs
  exact total_nonneg ha hm (of_decide_eq_true hsold).2.1

theorem abonos_nonneg (ha : Amounts d) : ∀ a ∈ abonos d contextId p, 0 ≤ a.montoMinor := by
  intro a hm
  obtain ⟨abono, habono, hrow⟩ := List.mem_filterMap.mp hm
  have hpos := (ha.balances.abonos abono habono).1
  obtain ⟨x, -, hrow⟩ := Option.bind_eq_some_iff.mp hrow
  obtain ⟨y, -, hrow⟩ := Option.bind_eq_some_iff.mp hrow
  split at hrow
  · cases hrow
    exact hpos.le
  · cases hrow

end

end Reports

/-- In every committed state of every run that begins with amounts in range, for every
context and period, and whatever the order of the rows: the sales by period are answered
exactly when the sales and payments sum to an amount and no settled debt lost more than
2^31; the detail, when the revenue is an amount, the profit of the lines is at least
-2^31, and the costs of each product and seller are an amount; the commissions, when what
each colaborador sold is an amount; and the dashboard, when the revenue of today is an
amount, its profit at least -2^31, and what all pending debts still owe an amount. -/
theorem reports_answer_iff (host : Host) (d₀ : Db) (reqs : List Request) (s : Sys shop Answer)
    (h₀ : Amounts d₀) (hr : Reachable host d₀ reqs s) (h : History shop) (hp : h <+: s.hist)
    (d : Db) (hd : d = replay (S := shop) d₀ h) (reg : Registry) (hrates : reg.Rates)
    (contextId : String) (p : Period) (sales : List Sale) (lines : List SoldLine)
    (payments : List AbonoRow) (debts pending : List Deuda)
    (hs : sales.Perm (sold d contextId p)) (hl : lines.Perm (soldLines d reg contextId p))
    (ha : payments.Perm (abonos d contextId p)) (hx : debts.Perm (settled d contextId p))
    (hpending : pending.Perm (pendingDebts d contextId)) :
    (Answers (salesByPeriod d p sales payments debts) ↔
      sumTotal sales + (payments.map (·.montoMinor)).sum ≤ maxMinorUnits ∧
      ∀ x ∈ debts, ∀ c, x.unitCostMinor = some c →
        c * x.cantidad - x.totalMinor ≤ 2147483648) ∧
    (∀ page limit, Answers (salesDetail host lines page limit) ↔
      revenue lines ≤ maxMinorUnits ∧ -2147483648 ≤ profit lines ∧ CostsFit lines) ∧
    (∀ memberId members, members.Perm (colaboradores d contextId memberId) →
      (memberId.isSome → members ≠ []) →
      (Answers (commissions d reg contextId memberId p members) ↔
        ∀ m ∈ members, sumTotal (soldBy d m.id p) ≤ maxMinorUnits)) ∧
    ∀ umbral ventasHoy ventasAyer bajoStock,
      Answers (summary d reg contextId umbral ventasHoy ventasAyer lines pending bajoStock) ↔
        revenue lines ≤ maxMinorUnits ∧ -2147483648 ≤ profit lines ∧
          (pending.map (owed d)).sum ≤ maxMinorUnits := by
  have hamounts : Amounts d := hd ▸ h₀.replay (hr.lawful.of_prefix hp)
  have hlines : ∀ x ∈ lines, x.InRange := fun x h => soldLines_inRange hamounts x (hl.subset h)
  have hrow : ∀ {x : Deuda} {xs : List Deuda} {q : Deuda → Bool},
      xs.Perm (d.deudas.rows.filter q) → x ∈ xs → x.Balanced d ∧ x.InRange := by
    intro x xs q hperm hm
    have hm := List.mem_of_mem_filter (hperm.subset hm)
    exact ⟨hamounts.balances.deudas x hm, hamounts.deudas x hm⟩
  refine ⟨?_, ?_, ?_, ?_⟩
  · refine salesByPeriod_answers (fun s h => sold_nonneg hamounts s (hs.subset h))
      (fun a h => abonos_nonneg hamounts a (ha.subset h)) fun x h => ?_
    obtain ⟨hbalanced, hrange⟩ := hrow hx h
    exact ⟨hbalanced.nonneg, hrange⟩
  · intro page limit
    exact salesDetail_answers hlines
  · intro memberId members _ hm
    exact commissions_answers hrates (fun m _ => soldBy_nonneg hamounts m.id) hm
  · intro umbral ventasHoy ventasAyer bajoStock
    exact summary_answers hlines hamounts.balances fun x h => hrow hpending h

theorem Demo.amounts : Amounts Demo.db := by
  refine ⟨Demo.priced, ?_, (fun _ h => by cases h), (fun _ h => by cases h),
    (fun _ h => by cases h), Demo.balances⟩
  intro p hp c hc
  rcases List.mem_cons.mp hp with rfl | hp
  · cases hc
  · rw [List.mem_singleton.mp hp] at hc
    cases hc

theorem Demo.rates : Demo.registry.Rates :=
  ⟨(fun _ _ h => by cases h), (fun _ _ h => by cases h; decide)⟩

theorem reports_answer_iff_rivals :
    Answers (salesByPeriod Demo.sold ⟨0, 100⟩ (sold Demo.sold "bazar" ⟨0, 100⟩)
      (abonos Demo.sold "bazar" ⟨0, 100⟩) (settled Demo.sold "bazar" ⟨0, 100⟩)) := by
  refine (reports_answer_iff Demo.host Demo.db Demo.rivals (Demo.run Demo.rivals Demo.rivalsSteps)
    Demo.amounts (Demo.reachable (by decide)) _ (List.prefix_refl _) Demo.sold rfl
    Demo.registry Demo.rates "bazar" ⟨0, 100⟩ _ _ _ _ _ (List.Perm.refl _) (List.Perm.refl _)
    (List.Perm.refl _) (List.Perm.refl _) (List.Perm.refl _)).1.mpr ⟨by decide, ?_⟩
  intro x hx
  have hnone : settled Demo.sold "bazar" ⟨0, 100⟩ = [] := by decide
  rw [hnone] at hx
  cases hx

/-- The highest cost for a product, and a sale of two pieces of it. -/
def Demo.costly : List Request :=
  [.patchProduct (env 1) actor "a"
      ⟨none, none, none, some (some ⟨2147483647, by decide, by decide⟩), none, none, none, none,
        none⟩,
    .createSale (env 2) actor (pair "sale")]

def Demo.costlySteps : List Nat := List.replicate 9 0 ++ List.replicate 17 1

/-- The shop after the sale. -/
def Demo.sunk : Db := replay (S := shop) Demo.db (Demo.run Demo.costly Demo.costlySteps).hist

theorem reports_fail_costly :
    Reachable Demo.host Demo.db Demo.costly (Demo.run Demo.costly Demo.costlySteps) ∧
      ¬ Answers (salesDetail Demo.host (soldLines Demo.sunk Demo.registry "bazar" ⟨0, 100⟩) 1 20) ∧
      ¬ Answers (summary Demo.sunk Demo.registry "bazar" 0 [] []
        (soldLines Demo.sunk Demo.registry "bazar" ⟨0, 100⟩) [] []) := by
  refine ⟨Demo.reachable (by decide), ?_, ?_⟩
  · rintro ⟨q, hq⟩
    cases hq
  · rintro ⟨r, hr⟩
    cases hr

end Bazar.Shop
