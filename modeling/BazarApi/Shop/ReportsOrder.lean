import BazarApi.Apportion.LargestRemainder
import BazarApi.Shop.Reports
import BazarApi.Shop.SameItems

/- The order in which the database answers the lines does not matter to the sales in detail.
   The sums of a row are the same in every order, and the comparator, which goes on to the
   product and the seller where revenue and name tie, tells any two rows apart. So each page
   is a part of one sequence, though it is a query of its own (`salesDetail_perm`). -/
namespace Bazar.Shop.Reports

/-! Checks and sums along a list. -/

section
variable {α β : Type} {xs ys : List α}

theorem forM_ok {f : α → Except Err Unit} : xs.forM f = .ok () ↔ ∀ x ∈ xs, f x = .ok () := by
  induction xs with
  | nil => exact ⟨(fun _ x hx => by cases hx), fun _ => rfl⟩
  | cons x xs ih =>
    rw [List.forall_mem_cons, ← ih]
    constructor
    · intro h
      obtain ⟨⟨⟩, hx, h⟩ := ok_of_bind h
      exact ⟨hx, h⟩
    · rintro ⟨hx, h⟩
      show (f x >>= fun _ => xs.forM f) = _
      rw [hx]
      exact h

theorem mapM_of_forall₂ {f : α → Except Err β} {rs : List β}
    (h : List.Forall₂ (fun x r => f x = .ok r) xs rs) : xs.mapM f = .ok rs := by
  induction h with
  | nil => rfl
  | cons hx _ ih =>
    rw [List.mapM_cons, hx, ih]
    rfl

theorem mapM_perm {f : α → Except Err β} {rs : List β} (hp : ys.Perm xs)
    (h : xs.mapM f = .ok rs) : ∃ rs', ys.mapM f = .ok rs' ∧ rs'.Perm rs := by
  obtain ⟨rs', hall, hperm⟩ := List.perm_comp_forall₂ hp (mapM_ok h)
  exact ⟨rs', mapM_of_forall₂ hall, hperm⟩

/-- Steps that commute may be taken in any order. -/
theorem foldlM_perm {f : β → α → Except Err β} (hp : xs.Perm ys)
    (hcomm : ∀ s x y t, (f s x >>= fun s => f s y) = .ok t → (f s y >>= fun s => f s x) = .ok t)
    {s t : β} (h : xs.foldlM f s = .ok t) : ys.foldlM f s = .ok t := by
  induction hp generalizing s with
  | nil => exact h
  | cons x _ ih =>
    rw [List.foldlM_cons] at h ⊢
    obtain ⟨s', hs, h⟩ := ok_of_bind h
    rw [hs]
    exact ih h
  | swap x y xs =>
    rw [List.foldlM_cons] at h ⊢
    obtain ⟨s₁, hs₁, h⟩ := ok_of_bind h
    rw [List.foldlM_cons] at h
    obtain ⟨s₂, hs₂, h⟩ := ok_of_bind h
    obtain ⟨s₃, hs₃, hs₄⟩ := ok_of_bind (hcomm s y x s₂ (by rw [hs₁]; exact hs₂))
    rw [hs₃]
    show List.foldlM f s₃ (y :: xs) = _
    rw [List.foldlM_cons, hs₄]
    exact h
  | trans _ _ ih₁ ih₂ => exact ih₂ (ih₁ h)

theorem map_of_forall₂ {γ : Type} {r : α → β → Prop} {rs : List β} {f : α → γ} {g : β → γ}
    (h : List.Forall₂ r xs rs) (he : ∀ x y, r x y → g y = f x) : rs.map g = xs.map f := by
  induction h with
  | nil => rfl
  | cons hx _ ih => rw [List.map_cons, List.map_cons, he _ _ hx, ih]

end

/-! The totals. -/

/-- What a line adds to the sums, unless an amount of it is refused. -/
theorem addProfit_eq (x : SoldLine) : (∃ e, ∀ sums, addProfit sums x = .error e) ∨
    ∃ a b n, ∀ sums, addProfit sums x = .ok (sums.1 + a, sums.2.1 + b, sums.2.2 + n) := by
  unfold addProfit
  cases toDinero x.subtotalMinor with
  | error e => exact .inl ⟨e, fun _ => rfl⟩
  | ok subtotal =>
    cases x.unitCostMinor with
    | none =>
      refine .inr ⟨subtotal, 0, 1, fun sums => ?_⟩
      rw [Int.add_zero]
      rfl
    | some cost =>
      dsimp only
      cases toDinero cost with
      | error e => exact .inl ⟨e, fun _ => rfl⟩
      | ok cost => exact .inr ⟨subtotal, subtotal - cost * x.quantity, 0, fun _ => rfl⟩

theorem addProfit_comm (sums : Int × Int × Nat) (x y : SoldLine) (sums' : Int × Int × Nat)
    (h : (addProfit sums x >>= fun sums => addProfit sums y) = .ok sums') :
    (addProfit sums y >>= fun sums => addProfit sums x) = .ok sums' := by
  obtain ⟨mid, hx, hy⟩ := ok_of_bind h
  rcases addProfit_eq x with ⟨e, he⟩ | ⟨a, b, n, hax⟩
  · cases (he sums).symm.trans hx
  rcases addProfit_eq y with ⟨e, he⟩ | ⟨a', b', n', hay⟩
  · cases (he mid).symm.trans hy
  cases (hax sums).symm.trans hx
  cases (hay _).symm.trans hy
  rw [hay]
  refine (hax _).trans ?_
  dsimp only
  rw [Int.add_right_comm, Int.add_right_comm sums.2.1, Nat.add_right_comm]

theorem computeProfitTotals_perm {xs ys : List SoldLine} (hp : xs.Perm ys) {t : ProfitTotals}
    (h : computeProfitTotals xs = .ok t) : computeProfitTotals ys = .ok t := by
  obtain ⟨sums, hs, h⟩ := ok_of_bind h
  unfold computeProfitTotals
  rw [foldlM_perm hp addProfit_comm hs]
  exact h

/-! The rows. -/

/-- Lines of one product and one seller show the same of them. -/
def Coherent (xs : List SoldLine) : Prop :=
  ∀ x ∈ xs, ∀ y ∈ xs, x.key = y.key → newRow x = newRow y

/-- The lines of one state do. -/
theorem coherent_soldLines (d : Db) (reg : Registry) (contextId : String) (p : Period) :
    Coherent (soldLines d reg contextId p) := by
  intro x hx y hy hk
  obtain ⟨s, -, hx⟩ := List.mem_flatMap.mp hx
  obtain ⟨item, -, rfl⟩ := List.mem_map.mp hx
  obtain ⟨s', -, hy⟩ := List.mem_flatMap.mp hy
  obtain ⟨item', -, rfl⟩ := List.mem_map.mp hy
  obtain ⟨hproduct, hmember⟩ := Prod.mk.inj hk
  have hproduct : item.productId = item'.productId := hproduct
  have hmember : s.memberId = s'.memberId := hmember
  simp only [newRow, soldLine, hproduct, hmember]

theorem Row.add_comm (row : Row) (x y : SoldLine) : (row.add x).add y = (row.add y).add x := by
  simp only [Row.add, Int.add_right_comm, Bool.and_right_comm]

/-- What the comparator ends in. -/
def Row.key (row : Row) : Uuid × Uuid := (row.productId, row.memberId)

def DetailRow.key (r : DetailRow) : Uuid × Uuid := (r.productId, r.memberId)

theorem Row.detail_key {row : Row} {r : DetailRow} (h : row.detail = .ok r) : r.key = row.key := by
  obtain ⟨ingreso, -, h⟩ := ok_of_bind h
  obtain ⟨costo, -, h⟩ := ok_of_bind h
  obtain ⟨ganancia, -, h⟩ := ok_of_bind h
  cases h
  rfl

/-- Each row is of its product and seller, those of one of the lines, and no two are of the
same. -/
theorem rows_keys {items : List SoldLine} {rows : List DetailRow}
    (h : (Js.collect SoldLine.key newRow Row.add items).values.mapM Row.detail = .ok rows) :
    rows.map DetailRow.key = (Js.collect SoldLine.key newRow Row.add items).keys := by
  rw [map_of_forall₂ (mapM_ok h) fun _ _ => Row.detail_key]
  unfold Js.Map.values Js.Map.keys
  rw [List.map_map]
  refine List.map_congr_left fun e he => ?_
  have hn := Js.nodup_collect SoldLine.key newRow Row.add items
  exact Js.collect_kept SoldLine.key newRow Row.add Row.key id (fun _ => rfl) (fun _ _ => rfl)
    (Js.Map.get_of_mem hn he)

/-! The order of the rows. -/

section
variable {host : Host}

theorem compareRows_trans (hc : host.Collates) : Std.TransCmp (compareRows host) := by
  have := hc.trans
  have hingreso : Std.TransCmp fun a b : DetailRow => compare b.ingresoMinor a.ingresoMinor :=
    { eq_swap := Std.OrientedCmp.eq_swap
      isLE_trans := fun hab hbc => Std.TransCmp.isLE_trans hbc hab }
  have hname : Std.TransCmp fun a b : DetailRow =>
      host.localeCompare a.productName b.productName :=
    { eq_swap := Std.OrientedCmp.eq_swap, isLE_trans := Std.TransCmp.isLE_trans }
  have hproduct : Std.TransCmp fun a b : DetailRow =>
      host.localeCompare a.productId.text b.productId.text :=
    { eq_swap := Std.OrientedCmp.eq_swap, isLE_trans := Std.TransCmp.isLE_trans }
  have hmember : Std.TransCmp fun a b : DetailRow =>
      host.localeCompare a.memberId.text b.memberId.text :=
    { eq_swap := Std.OrientedCmp.eq_swap, isLE_trans := Std.TransCmp.isLE_trans }
  exact inferInstanceAs (Std.TransCmp (compareLex _ (compareLex _ (compareLex _ _))))

/-- Rows that the comparator does not tell apart are of one product and one seller. -/
theorem compareRows_key (hc : host.Collates) {a b : DetailRow}
    (ha : isUuidText a.productId.text = true ∧ isUuidText a.memberId.text = true)
    (hb : isUuidText b.productId.text = true ∧ isUuidText b.memberId.text = true)
    (h : compareRows host a b = .eq) : a.key = b.key := by
  obtain ⟨-, h⟩ := Ordering.then_eq_eq.mp h
  obtain ⟨-, h⟩ := Ordering.then_eq_eq.mp h
  obtain ⟨hproduct, hmember⟩ := Ordering.then_eq_eq.mp h
  have htext : ∀ {x y : Uuid}, x.text = y.text → x = y := by
    rintro ⟨x⟩ ⟨y⟩ rfl
    rfl
  exact Prod.ext (htext (hc.distinct _ _ ha.1 hb.1 hproduct))
    (htext (hc.distinct _ _ ha.2 hb.2 hmember))

/-- Rows of different products or sellers are sorted into one sequence. -/
theorem sorted_perm (hc : host.Collates) {rows rows' : List DetailRow} (hp : rows'.Perm rows)
    (hn : (rows'.map DetailRow.key).Nodup)
    (hids : ∀ r ∈ rows', isUuidText r.productId.text = true ∧ isUuidText r.memberId.text = true) :
    (rows'.insertionSort fun a b => compareRows host a b ≠ .gt) =
      rows.insertionSort fun a b => compareRows host a b ≠ .gt := by
  have := compareRows_trans hc
  have hswap : ∀ a b, compareRows host b a = (compareRows host a b).swap :=
    fun a b => Std.OrientedCmp.eq_swap
  have htotal : Std.Total fun a b : DetailRow => compareRows host a b ≠ .gt := by
    refine ⟨fun a b => ?_⟩
    rw [hswap a b]
    cases compareRows host a b <;> simp
  have htrans : IsTrans DetailRow fun a b => compareRows host a b ≠ .gt := by
    refine ⟨fun a b c hab hbc => ?_⟩
    rw [Ne, Ordering.ne_gt_iff_isLE] at hab hbc ⊢
    exact Std.TransCmp.isLE_trans hab hbc
  refine Apportion.insertionSort_eq_of_perm _ hp fun a ha b hb hab hba => ?_
  refine List.inj_on_of_nodup_map hn ha hb (compareRows_key hc (hids a ha) (hids b hb) ?_)
  rw [hswap a b] at hba
  cases h : compareRows host a b with
  | lt => exact absurd (by rw [h]; rfl) hba
  | eq => rfl
  | gt => exact absurd h hab

/-- The same page, whatever the order of the lines. -/
theorem salesDetail_perm (hc : host.Collates) {lines lines' : List SoldLine}
    (hp : lines'.Perm lines) (hcoherent : Coherent lines)
    (hids : ∀ x ∈ lines, isUuidText x.productId.text = true ∧ isUuidText x.memberId.text = true)
    {page limit : Nat} {q : SalesDetail} (hq : salesDetail host lines page limit = .ok q) :
    salesDetail host lines' page limit = .ok q := by
  obtain ⟨m, hm, hq⟩ := ok_of_bind hq
  obtain ⟨rows, hrows, hq⟩ := ok_of_bind hq
  obtain ⟨totals, htotals, hq⟩ := ok_of_bind hq
  cases hq
  obtain ⟨⟨⟩, hcheck, hm⟩ := ok_of_bind hm
  cases hm
  have hgroups : groups lines' = .ok (Js.collect SoldLine.key newRow Row.add lines') := by
    unfold groups
    rw [forM_ok.mpr fun x hx => forM_ok.mp hcheck x (hp.subset hx)]
    rfl
  -- The rows are the same up to their order, which sorting settles.
  have hvalues := Js.values_collect_perm SoldLine.key newRow Row.add hp.symm hcoherent Row.add_comm
  obtain ⟨rows', hrows', hperm⟩ := mapM_perm hvalues.symm hrows
  have hkeys := rows_keys hrows'
  have hsorted := sorted_perm hc hperm
    (by rw [hkeys]; exact Js.nodup_collect SoldLine.key newRow Row.add lines') (by
      intro r hr
      have hk : r.key ∈ (Js.collect SoldLine.key newRow Row.add lines').keys := by
        rw [← hkeys]
        exact List.mem_map_of_mem hr
      obtain ⟨x, hx, hkey⟩ := (Js.mem_keys_collect SoldLine.key newRow Row.add).mp hk
      obtain ⟨hproduct, hmember⟩ := Prod.mk.inj hkey
      rw [← hproduct, ← hmember]
      exact hids x (hp.subset hx))
  unfold salesDetail
  rw [hgroups, computeProfitTotals_perm hp.symm htotals]
  simp only [bind, Except.bind, hrows', hsorted]
  rfl

end

end Bazar.Shop.Reports
