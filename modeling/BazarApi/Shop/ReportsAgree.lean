import BazarApi.Shop.ReportsOrder
import BazarApi.Shop.SaleWhole

/- The sales reports agree. They add the same money from three tables: the totals of the
   sales, the subtotals of their lines, and the rows of one product and one seller. The
   first two agree because every completed sale adds up (`SalesAddUp`, an invariant of the
   shop), the others because grouping and paging lose no row, and because a page does not
   depend on the order of the lines that its own query answered. -/
namespace Bazar.Shop

open Txn Reports

/-- Every completed sale adds up. -/
def SalesAddUp (d : Db) : Prop := ∀ s ∈ d.sales.rows, s.status = .completada → AddsUp s

theorem SalesAddUp.replay {host : Host} {d₀ : Db} {reqs : List Request} {h : History shop}
    (h₀ : SalesAddUp d₀) (hl : Lawful (Commits host d₀ reqs) h) :
    SalesAddUp (Txn.replay (S := shop) d₀ h) := by
  intro s hs hst
  rcases Lawful.sale_origin hl s hs with hold | ⟨h₁, c, env, actor, dto, -, -, hw⟩
  · exact h₀ s hold hst
  · rcases hw.outcome with ⟨ho, -⟩ | ⟨ho, -⟩
    · exact ho.addsUp
    · cases hst.symm.trans ho.status

namespace Reports

/-! Lists. -/

theorem foldl_add {α : Type} (f : α → Int) (n : Int) (xs : List α) :
    xs.foldl (fun n x => n + f x) n = n + (xs.map f).sum := by
  induction xs generalizing n with
  | nil => exact (Int.add_zero n).symm
  | cons x xs ih => rw [List.foldl_cons, ih, List.map_cons, List.sum_cons, Int.add_assoc]

theorem foldl_and {α : Type} (f : α → Bool) (b : Bool) (xs : List α) :
    xs.foldl (fun b x => b && f x) b = (b && xs.all f) := by
  induction xs generalizing b with
  | nil => exact (Bool.and_true b).symm
  | cons x xs ih => rw [List.foldl_cons, ih, List.all_cons, Bool.and_assoc]

/-- Two functions that agree along the lists have the same sums. -/
theorem sum_of_forall₂ {α β : Type} {r : α → β → Prop} {xs : List α} {ys : List β} {f : α → Int}
    {g : β → Int} (h : List.Forall₂ r xs ys) (he : ∀ x ∈ xs, ∀ y, r x y → g y = f x) :
    (ys.map g).sum = (xs.map f).sum := by
  induction h with
  | nil => rfl
  | cons hxy _ ih =>
    rw [List.map_cons, List.map_cons, List.sum_cons, List.sum_cons,
      he _ List.mem_cons_self _ hxy, ih fun x hx => he x (List.mem_cons_of_mem _ hx)]

theorem mem_of_forall₂ {α β : Type} {r : α → β → Prop} {xs : List α} {ys : List β} {y : β}
    (h : List.Forall₂ r xs ys) (hy : y ∈ ys) : ∃ x ∈ xs, r x y := by
  induction h with
  | nil => cases hy
  | cons hxy _ ih =>
    rcases List.mem_cons.mp hy with rfl | hy
    · exact ⟨_, List.mem_cons_self, hxy⟩
    · obtain ⟨x, hx, hr⟩ := ih hy
      exact ⟨x, List.mem_cons_of_mem _ hx, hr⟩

/-- The first pages are the first rows. -/
theorem pages_take {α : Type} (xs : List α) (limit n : Nat) :
    ((List.range n).flatMap fun k => (xs.drop (k * limit)).take limit) = xs.take (n * limit) := by
  induction n with
  | zero => simp
  | succ n ih =>
    rw [List.range_succ, List.flatMap_append, ih, Nat.succ_mul, List.take_add]
    simp

/-! Sums of sales. -/

section
variable {sales sales' : List Sale}

theorem sumTotal_append : sumTotal (sales ++ sales') = sumTotal sales + sumTotal sales' := by
  simp [sumTotal]

/-- Grouping the sales keeps their sum. -/
theorem sum_groupBy {K : Type} [DecidableEq K] (key : Sale → K) (sales : List Sale) :
    ((groupBy key sales).values.map sumTotal).sum = sumTotal sales := by
  refine Js.sum_collect key _ _ sumTotal (fun s => s.totalMinor.getD 0) (fun _ => rfl) ?_ sales
  intro group x
  rw [sumTotal_append]
  simp [sumTotal]

theorem sumTotal_perm (hp : sales.Perm sales') : sumTotal sales = sumTotal sales' :=
  (hp.map _).sum_eq

/-- The sales of the members are all the sales. -/
theorem salesByMember_sum (d : Db) (reg : Registry) (sales : List Sale) :
    ((salesByMember d reg sales).map (·.totalSoldMinor)).sum = sumTotal sales := by
  unfold salesByMember
  rw [((List.perm_insertionSort _ _).map _).sum_eq, List.map_map, ← sum_groupBy (·.memberId),
    Js.Map.values, List.map_map]
  rfl

/-- The sales of a payment method. -/
theorem sum_method (sales : List Sale) (method : PaymentMethod) :
    (((groupBy (fun s : Sale => s.paymentMethod) sales).get method).map sumTotal).getD 0 =
      sumTotal (sales.filter (·.paymentMethod = method)) := by
  unfold groupBy
  rw [Js.collect_get (fun s : Sale => s.paymentMethod) _ _ sumTotal 0
    (fun n s => n + s.totalMinor.getD 0) (fun _ => rfl), foldl_add, Int.zero_add]
  · rfl
  intro group x
  rw [sumTotal_append]
  simp [sumTotal]

end

/-- The sums of the three payment methods are the sum of all. -/
theorem sum_by_method {α : Type} (f : α → Int) (method : α → PaymentMethod) (xs : List α) :
    ((xs.filter (method · = .efectivo)).map f).sum +
        (((xs.filter (method · = .transferencia)).map f).sum +
          ((xs.filter (method · = .tarjeta)).map f).sum) = (xs.map f).sum := by
  induction xs with
  | nil => rfl
  | cons x xs ih =>
    rw [List.map_cons, List.sum_cons, ← ih]
    cases hm : method x with
    | efectivo => simp [hm]; omega
    | transferencia => simp [hm]; omega
    | tarjeta => simp [hm]; omega

/-! Lines. -/

/-- The profit of a line whose cost is known. -/
def SoldLine.ganancia (x : SoldLine) : Int :=
  match x.unitCostMinor with
  | none => 0
  | some cost => x.subtotalMinor - cost * x.quantity

theorem addProfit_ok {sums sums' : Int × Int × Nat} {x : SoldLine}
    (h : addProfit sums x = .ok sums') :
    sums'.1 = sums.1 + x.subtotalMinor ∧ sums'.2.1 = sums.2.1 + x.ganancia := by
  unfold addProfit at h
  obtain ⟨subtotal, hs, h⟩ := ok_of_bind h
  obtain ⟨rfl, -⟩ := assertMinorUnits_ok.mp hs
  unfold SoldLine.ganancia
  cases hc : x.unitCostMinor with
  | none =>
    simp only [hc] at h
    cases h
    exact ⟨rfl, (Int.add_zero _).symm⟩
  | some cost =>
    simp only [hc] at h
    obtain ⟨cost', hcost, hsums⟩ := ok_of_bind h
    obtain ⟨rfl, -⟩ := assertMinorUnits_ok.mp hcost
    cases hsums
    exact ⟨rfl, rfl⟩

theorem foldlM_addProfit_ok {xs : List SoldLine} {sums sums' : Int × Int × Nat}
    (h : xs.foldlM addProfit sums = .ok sums') :
    sums'.1 = sums.1 + (xs.map (·.subtotalMinor)).sum ∧
      sums'.2.1 = sums.2.1 + (xs.map (·.ganancia)).sum := by
  induction xs generalizing sums with
  | nil =>
    cases h
    exact ⟨(Int.add_zero _).symm, (Int.add_zero _).symm⟩
  | cons x xs ih =>
    rw [List.foldlM_cons] at h
    obtain ⟨mid, hx, h⟩ := ok_of_bind h
    obtain ⟨h1, h2⟩ := addProfit_ok hx
    obtain ⟨h1', h2'⟩ := ih h
    simp only [List.map_cons, List.sum_cons]
    exact ⟨by omega, by omega⟩

/-- The totals are the sums over the lines. -/
theorem computeProfitTotals_ok {xs : List SoldLine} {t : ProfitTotals}
    (h : computeProfitTotals xs = .ok t) :
    t.ingresoMinor = (xs.map (·.subtotalMinor)).sum ∧ t.gananciaMinor = (xs.map (·.ganancia)).sum := by
  obtain ⟨sums, hs, h⟩ := ok_of_bind h
  obtain ⟨h1, h2⟩ := foldlM_addProfit_ok hs
  obtain ⟨a, ha, h⟩ := ok_of_bind h
  obtain ⟨b, hb, h⟩ := ok_of_bind h
  obtain ⟨rfl, -⟩ := assertMinorUnits_ok.mp ha
  obtain ⟨rfl, -⟩ := assertMinorUnits_ok.mp hb
  cases h
  exact ⟨h1.trans (Int.zero_add _), h2.trans (Int.zero_add _)⟩

/-- The subtotals of the lines are the totals of the sales. -/
theorem sum_soldLines {d : Db} {reg : Registry} {contextId : String} {p : Period}
    (hd : SalesAddUp d) :
    ((soldLines d reg contextId p).map (·.subtotalMinor)).sum = sumTotal (sold d contextId p) := by
  have hsum : ∀ sales : List Sale, (∀ s ∈ sales, AddsUp s) →
      ((sales.flatMap fun s => s.items.map (soldLine d reg s)).map (·.subtotalMinor)).sum =
        sumTotal sales := by
    intro sales hs
    induction sales with
    | nil => rfl
    | cons s sales ih =>
      have htotal := (hs s List.mem_cons_self).total
      rw [List.flatMap_cons, List.map_append, List.sum_append,
        ih fun s hm => hs s (List.mem_cons_of_mem _ hm)]
      unfold sumTotal
      rw [List.map_cons, List.sum_cons, htotal, Option.getD_some, List.map_map]
      rfl
  refine hsum _ fun s hs => ?_
  obtain ⟨hm, hsold⟩ := List.mem_filter.mp hs
  exact hd s hm (of_decide_eq_true hsold).1

/-! The rows of the detail. -/

theorem groups_ok {items : List SoldLine} {m : Js.Map (Uuid × Uuid) Row}
    (h : groups items = .ok m) : m = Js.collect SoldLine.key newRow Row.add items := by
  obtain ⟨_, -, h⟩ := ok_of_bind h
  cases h
  rfl

theorem Row.detail_ok {row : Row} {r : DetailRow} (h : row.detail = .ok r) :
    r.ingresoMinor = row.ingreso ∧
      (row.allCosted = true → r.gananciaMinor = some (row.ingreso - row.costo)) := by
  obtain ⟨ingreso, hi, h⟩ := ok_of_bind h
  obtain ⟨costo, -, h⟩ := ok_of_bind h
  obtain ⟨ganancia, hg, h⟩ := ok_of_bind h
  obtain ⟨rfl, -⟩ := assertMinorUnits_ok.mp hi
  cases h
  refine ⟨rfl, fun hc => ?_⟩
  rw [Row.shown, if_pos hc] at hg
  cases hv : toMinorUnits (row.ingreso - row.costo) with
  | error e =>
    rw [hv] at hg
    cases hg
  | ok v =>
    rw [hv] at hg
    obtain ⟨rfl, -⟩ := assertMinorUnits_ok.mp hv
    cases hg
    rfl

/-- The sorted rows, which every page is a part of. -/
theorem salesDetail_ok {host : Host} {items : List SoldLine} {page limit : Nat} {q : SalesDetail}
    (h : salesDetail host items page limit = .ok q) :
    ∃ rows : List DetailRow, q.total = rows.length ∧ computeProfitTotals items = .ok q.totals ∧
      (rows.map (·.ingresoMinor)).sum = (items.map (·.subtotalMinor)).sum ∧
      ((∀ x ∈ items, x.unitCostMinor.isSome) → (∀ r ∈ rows, r.gananciaMinor.isSome) ∧
        (rows.map fun r => r.gananciaMinor.getD 0).sum = (items.map (·.ganancia)).sum) ∧
      ∀ page, ∃ q', salesDetail host items page limit = .ok q' ∧
        q'.items = (rows.drop ((page - 1) * limit)).take limit := by
  obtain ⟨m, hm, h⟩ := ok_of_bind h
  obtain ⟨rows, hrows, h⟩ := ok_of_bind h
  obtain ⟨totals, htotals, h⟩ := ok_of_bind h
  cases h
  have hrel := mapM_ok hrows
  have hsorted := List.perm_insertionSort (fun a b => compareRows host a b ≠ .gt) rows
  have hgroups := groups_ok hm
  refine ⟨rows.insertionSort fun a b => compareRows host a b ≠ .gt, rfl, htotals, ?_, ?_, ?_⟩
  · rw [(hsorted.map _).sum_eq, sum_of_forall₂ hrel fun row _ r hr => (Row.detail_ok hr).1,
      hgroups]
    exact Js.sum_collect SoldLine.key newRow Row.add Row.ingreso SoldLine.subtotalMinor
      (fun _ => rfl) (fun _ _ => rfl) items
  · intro hcosted
    -- a row of lines with a cost has one
    have hall : ∀ row ∈ m.values, row.allCosted = true := by
      intro row hrow
      rw [hgroups] at hrow
      obtain ⟨x, -, hget⟩ := Js.mem_values_collect _ _ _ hrow
      have hfold := Js.collect_get SoldLine.key newRow Row.add Row.allCosted true
        (fun b y => b && y.unitCostMinor.isSome) (fun _ => rfl) (fun _ _ => rfl) items x.key
      rw [hget] at hfold
      refine hfold.trans ?_
      rw [foldl_and, Bool.true_and, List.all_eq_true]
      exact fun y hy => hcosted y (List.mem_of_mem_filter hy)
    constructor
    · intro r hr
      obtain ⟨row, hrow, hd⟩ := mem_of_forall₂ hrel (hsorted.subset hr)
      rw [(Row.detail_ok hd).2 (hall row hrow)]
      rfl
    · rw [(hsorted.map _).sum_eq, sum_of_forall₂ (f := fun row : Row => row.ingreso - row.costo) hrel
        fun row hrow r hr => by rw [(Row.detail_ok hr).2 (hall row hrow)]; rfl, hgroups]
      refine (Js.sum_collect SoldLine.key newRow Row.add (fun row => row.ingreso - row.costo)
        (fun x => x.subtotalMinor - (x.unitCostMinor.map (· * x.quantity)).getD 0) (fun _ => rfl)
        ?_ items).trans ?_
      · intro row x
        change row.ingreso + x.subtotalMinor - (row.costo + _) = _
        omega
      · refine congrArg List.sum (List.map_congr_left fun x hx => ?_)
        obtain ⟨cost, hc⟩ := Option.isSome_iff_exists.mp (hcosted x hx)
        simp only [SoldLine.ganancia, hc, Option.map_some, Option.getD_some]
  · intro page
    unfold salesDetail
    rw [hm, htotals]
    simp only [bind, Except.bind, hrows]
    exact ⟨_, rfl, rfl⟩

/-- The totals of the payment methods are what came in. -/
theorem salesByPeriod_ok {d : Db} {p : Period} {sales : List Sale} {abonos : List AbonoRow}
    {settled : List Deuda} {a : SalesByPeriod}
    (h : salesByPeriod d p sales abonos settled = .ok a) :
    a.totalSoldMinor = sumTotal sales ∧
      (a.porMetodoPago.map (·.totalMinor)).sum = a.totalIngresadoMinor := by
  obtain ⟨liquidadas, -, h⟩ := ok_of_bind h
  obtain ⟨methods, hmethods, h⟩ := ok_of_bind h
  obtain ⟨soldMinor, hsold, h⟩ := ok_of_bind h
  obtain ⟨abonosMinor, habonos, h⟩ := ok_of_bind h
  obtain ⟨total, htotal, h⟩ := ok_of_bind h
  obtain ⟨rfl, -⟩ := assertMinorUnits_ok.mp hsold
  obtain ⟨rfl, -⟩ := assertMinorUnits_ok.mp habonos
  obtain ⟨rfl, -⟩ := assertMinorUnits_ok.mp htotal
  cases h
  refine ⟨sum_groupBy _ sales, ?_⟩
  have hone : ∀ method ∈ paymentMethods, ∀ r,
      methodTotal (groupBy (fun s : Sale => s.paymentMethod) sales) abonos method = .ok r →
      r.totalMinor = sumTotal (sales.filter (·.paymentMethod = method)) +
        ((abonos.filter (·.paymentMethod = method)).map (·.montoMinor)).sum := by
    intro method _ r hr
    obtain ⟨ventas, hv, hr⟩ := ok_of_bind hr
    obtain ⟨pagos, hp, hr⟩ := ok_of_bind hr
    obtain ⟨total, ht, hr⟩ := ok_of_bind hr
    obtain ⟨rfl, -⟩ := assertMinorUnits_ok.mp hv
    obtain ⟨rfl, -⟩ := assertMinorUnits_ok.mp hp
    obtain ⟨rfl, -⟩ := assertMinorUnits_ok.mp ht
    cases hr
    exact congrArg (· + _) (sum_method sales method)
  change (methods.map (·.totalMinor)).sum = ((groupBy _ sales).values.map sumTotal).sum + _
  rw [sum_of_forall₂ (mapM_ok hmethods) hone, sum_groupBy]
  have hsales := sum_by_method (fun s : Sale => s.totalMinor.getD 0) (·.paymentMethod) sales
  have hpagos := sum_by_method (fun a : AbonoRow => a.montoMinor) (·.paymentMethod) abonos
  simp only [paymentMethods, List.map_cons, List.map_nil, List.sum_cons, List.sum_nil, sumTotal]
  omega

end Reports

/-- In every committed state of every run that begins with sales that add up, for every
context and period, whatever the order in which the database answers the rows: where the
reports are answered, the sum by period is the sum by member, the revenue of the detail,
and the revenue of the rows on all its pages; the payment methods sum to what came in; and
when every line has a cost, the profits of the rows sum to the profit of the detail. With a
collation that tells identifiers apart, every other order of the lines gives the same pages. -/
theorem sales_reports_agree (host : Host) (d₀ : Db) (reqs : List Request) (s : Sys shop Answer)
    (h₀ : SalesAddUp d₀) (hr : Reachable host d₀ reqs s) (h : History shop) (hp : h <+: s.hist)
    (reg : Registry) (contextId : String) (p : Period) (sales sales' : List Sale)
    (lines : List SoldLine) (abonos : List AbonoRow) (settled : List Deuda) (limit : Nat)
    (hs : sales.Perm (sold (replay (S := shop) d₀ h) contextId p))
    (hs' : sales'.Perm (sold (replay (S := shop) d₀ h) contextId p))
    (hl : lines.Perm (soldLines (replay (S := shop) d₀ h) reg contextId p))
    (a : SalesByPeriod)
    (ha : salesByPeriod (replay (S := shop) d₀ h) p sales abonos settled = .ok a)
    (q : SalesDetail) (hq : salesDetail host lines 1 limit = .ok q) :
    a.totalSoldMinor =
        ((salesByMember (replay (S := shop) d₀ h) reg sales').map (·.totalSoldMinor)).sum ∧
      a.totalSoldMinor = q.totals.ingresoMinor ∧
      (∀ n, q.total ≤ n * limit → ∃ pages : List SalesDetail,
        List.Forall₂ (fun k page => salesDetail host lines (k + 1) limit = .ok page)
          (List.range n) pages ∧
        ((pages.flatMap (·.items)).map (·.ingresoMinor)).sum = q.totals.ingresoMinor ∧
        ((∀ x ∈ lines, x.unitCostMinor.isSome) →
          (∀ r ∈ pages.flatMap (·.items), r.gananciaMinor.isSome) ∧
          ((pages.flatMap (·.items)).map fun r => r.gananciaMinor.getD 0).sum =
            q.totals.gananciaMinor)) ∧
      (a.porMetodoPago.map (·.totalMinor)).sum = a.totalIngresadoMinor ∧
      (host.Collates →
        (∀ x ∈ lines, isUuidText x.productId.text = true ∧ isUuidText x.memberId.text = true) →
        ∀ lines', lines'.Perm (soldLines (replay (S := shop) d₀ h) reg contextId p) →
          ∀ page, salesDetail host lines' page limit = salesDetail host lines page limit) := by
  have hadd := h₀.replay (hr.lawful.of_prefix hp)
  obtain ⟨hsold, hmethods⟩ := salesByPeriod_ok ha
  obtain ⟨rows, htotal, htotals, hingreso, hganancia, hpages⟩ := salesDetail_ok hq
  obtain ⟨hrevenue, hprofit⟩ := computeProfitTotals_ok htotals
  have hlines : (lines.map (·.subtotalMinor)).sum = sumTotal sales := by
    rw [(hl.map _).sum_eq, sum_soldLines hadd, sumTotal_perm hs]
  refine ⟨?_, ?_, ?_, hmethods, ?_⟩
  · rw [hsold, salesByMember_sum, sumTotal_perm hs, sumTotal_perm hs']
  · rw [hsold, hrevenue, hlines]
  · intro n hn
    choose page hpage hitems using hpages
    have hflat : ((List.range n).map fun k => page (k + 1)).flatMap (·.items) = rows := by
      rw [List.flatMap_map]
      have hk : (fun k => (page (k + 1)).items) =
          fun k => (rows.drop (k * limit)).take limit := by
        funext k
        exact hitems (k + 1)
      rw [hk, pages_take, List.take_of_length_le (by omega)]
    refine ⟨(List.range n).map fun k => page (k + 1), ?_, ?_, ?_⟩
    · rw [List.forall₂_map_right_iff]
      exact List.forall₂_same.mpr fun k _ => hpage (k + 1)
    · rw [hflat, hrevenue, hingreso]
    · intro hcosted
      rw [hflat, hprofit]
      exact hganancia hcosted
  · intro hc hids lines' hl' page
    have hcoherent : Coherent lines := by
      intro x hx y hy
      exact coherent_soldLines _ reg contextId p x (hl.subset hx) y (hl.subset hy)
    obtain ⟨q', hq', -⟩ := hpages page
    rw [hq', salesDetail_perm hc (hl'.trans hl.symm) hcoherent hids hq']

/-- What the reports of the small shop read beside its tables. -/
def Demo.registry : Reports.Registry :=
  { name := fun _ => some "Socio", commissionRateBps := fun _ => none
    defaultCommissionRateBps := fun _ => some 1000, pending := fun _ => true }

/-- The shop after the sale that went through and the one that was rejected. -/
def Demo.sold : Db := replay (S := shop) Demo.db (Demo.run Demo.rivals Demo.rivalsSteps).hist

theorem sales_reports_agree_rivals :
    ∃ a q, salesByPeriod Demo.sold ⟨0, 100⟩ (sold Demo.sold "bazar" ⟨0, 100⟩) [] [] = .ok a ∧
      salesDetail Demo.host (soldLines Demo.sold Demo.registry "bazar" ⟨0, 100⟩) 1 20 = .ok q ∧
      a.totalSoldMinor = q.totals.ingresoMinor := by
  refine ⟨_, _, rfl, rfl, ?_⟩
  exact (sales_reports_agree Demo.host Demo.db Demo.rivals (Demo.run Demo.rivals Demo.rivalsSteps)
    (fun _ hs => by cases hs) (Demo.reachable (by decide)) _ (List.prefix_refl _)
    Demo.registry "bazar" ⟨0, 100⟩ _ _ _ [] [] 20 (List.Perm.refl _) (List.Perm.refl _)
    (List.Perm.refl _) _ rfl _ rfl).2.1

end Bazar.Shop
