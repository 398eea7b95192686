import BazarApi.Shop.Runs

/- Stock conservation. `Ledger` is the invariant: every product's stock is its
   initial stock plus what its movements brought in, less what completed sales and
   debts took out. Each kind of commit moves the two sides alike (`Ledger.step`), so
   it holds in every committed state of every run. -/
namespace Bazar.Shop

open Txn

/-! What moved a product's stock. -/

/-- The pieces restocked. -/
def Db.restocked (d : Db) (k : Uuid) : Int :=
  d.stockMovements.total fun m => if m.productId = k then m.quantity else 0

/-- The pieces sold by completed sales. -/
def Db.sold (d : Db) (k : Uuid) : Int :=
  d.sales.total fun s => if s.status = .completada then soldOf s.items k else 0

/-- The pieces taken by debts. -/
def Db.owed (d : Db) (k : Uuid) : Int :=
  d.deudas.total fun x => if x.productId = k then x.cantidad else 0

/-- The stock the rows account for. -/
def Db.accounted (d : Db) (p : Product) : Int :=
  p.initialStock + d.restocked p.id - d.sold p.id - d.owed p.id

/-- A product's stock is in range and accounted for. -/
structure Product.Accounted (d : Db) (p : Product) : Prop where
  nonneg : 0 ≤ p.stock
  le : p.stock ≤ maxMinorUnits
  stock : p.stock = d.accounted p
  unica : p.tipo = .unica → p.stock ≤ 1

/-- Every row names a product of the catalog. -/
structure Db.Known (d : Db) : Prop where
  movements : ∀ m ∈ d.stockMovements.rows, (d.products.find? m.productId).isSome
  items : ∀ s ∈ d.sales.rows, s.status = .completada → ∀ x ∈ s.items,
    (d.products.find? x.productId).isSome
  deudas : ∀ x ∈ d.deudas.rows, (d.products.find? x.productId).isSome

/-- The books balance. -/
structure Ledger (d : Db) : Prop where
  products : ∀ p ∈ d.products.rows, p.Accounted d
  movements : ∀ m ∈ d.stockMovements.rows, m.stockAfter = m.stockBefore + m.quantity
  known : d.Known

/-- An empty shop balances. -/
theorem Ledger.empty {d : Db} (hp : d.products = Table.empty) (hm : d.stockMovements = Table.empty)
    (hs : d.sales = Table.empty) (hd : d.deudas = Table.empty) : Ledger d := by
  refine ⟨?_, ?_, ?_, ?_, ?_⟩
  · rw [hp]
    intro p hp
    cases hp
  · rw [hm]
    intro m hm
    cases hm
  · rw [hm]
    intro m hm
    cases hm
  · rw [hs]
    intro s hs
    cases hs
  · rw [hd]
    intro x hx
    cases hx

section
variable {d d' : Db} {k : Uuid}

/-! An unknown product has no rows. -/

theorem soldOf_eq_zero {items : List SaleItem} (h : ∀ x ∈ items, x.productId ≠ k) :
    soldOf items k = 0 := by
  apply List.sum_eq_zero
  intro n hn
  obtain ⟨x, hx, rfl⟩ := List.mem_map.mp hn
  exact if_neg (h x hx)

theorem total_eq_zero {R : Type} [Keyed R Uuid] {t : Table R} {f : R → Int}
    (h : ∀ x ∈ t.rows, f x = 0) : t.total f = 0 := by
  rw [Table.total_congr h]
  simp [Table.total]

theorem Db.Known.accounted (hk : d.Known) {p : Product} (hp : d.products.find? p.id = none) :
    d.accounted p = p.initialStock := by
  have hne : ∀ {k : Uuid}, (d.products.find? k).isSome → k ≠ p.id := by
    rintro k hs rfl
    rw [hp] at hs
    cases hs
  have h₁ : d.restocked p.id = 0 :=
    total_eq_zero fun m hm => if_neg (hne (hk.movements m hm))
  have h₂ : d.sold p.id = 0 := by
    refine total_eq_zero fun s hs => ?_
    split
    · rename_i hc
      exact soldOf_eq_zero fun x hx => hne (hk.items s hs hc x hx)
    · rfl
  have h₃ : d.owed p.id = 0 := total_eq_zero fun x hx => if_neg (hne (hk.deudas x hx))
  unfold Db.accounted
  omega

/-! One commit. -/

/-- A product whose stock moved as its rows did. -/
theorem Product.Accounted.move {p p' : Product} (ha : p.Accounted d) (hv : p.Version p')
    (hs : p'.stock - p.stock = d'.restocked p.id - d.restocked p.id - (d'.sold p.id - d.sold p.id) -
      (d'.owed p.id - d.owed p.id))
    (h0 : 0 ≤ p'.stock) (h1 : p'.stock ≤ maxMinorUnits)
    (hu : p'.tipo = .unica → p'.stock ≤ p.stock) : p'.Accounted d' := by
  refine ⟨h0, h1, ?_, ?_⟩
  · have h := ha.stock
    unfold Db.accounted at h ⊢
    rw [hv.id, hv.initialStock]
    omega
  · intro ht
    exact (hu ht).trans (ha.unica (hv.tipo.symm.trans ht))

/-- The same of every product, when each is a later version of one that was there. -/
theorem Ledger.moved (hl : Ledger d) (hm : d'.stockMovements = d.stockMovements) (hk : d'.Known)
    (h : ∀ p' ∈ d'.products.rows, ∃ p, d.products.find? p'.id = some p ∧ p.Version p' ∧
      p'.stock - p.stock = - (d'.sold p.id - d.sold p.id) - (d'.owed p.id - d.owed p.id) ∧
      0 ≤ p'.stock ∧ p'.stock ≤ p.stock) : Ledger d' := by
  refine ⟨?_, by rw [hm]; exact hl.movements, hk⟩
  intro p' hp'
  obtain ⟨p, hp, hv, hs, h0, hle⟩ := h p' hp'
  have ha := hl.products p (Table.mem_of_find? hp)
  have hr : d'.restocked p.id = d.restocked p.id := by
    unfold Db.restocked
    rw [hm]
  exact ha.move hv (by omega) h0 (hle.trans ha.le) fun _ => hle

variable {host : Host} {d₀ : Db} {i : Nat} {h : History shop} {r : Request}

/-- References stay good when products are kept and the new rows name known ones. -/
theorem Db.Known.kept (hk : d.Known) (hw : r.Writes host d₀ i h d d')
    (hm : ∀ m ∈ d'.stockMovements.rows, m ∈ d.stockMovements.rows ∨
      (d.products.find? m.productId).isSome)
    (hs : ∀ s ∈ d'.sales.rows, s.status = .completada → s ∈ d.sales.rows ∨
      ∀ x ∈ s.items, (d.products.find? x.productId).isSome)
    (hx : ∀ x ∈ d'.deudas.rows, (d.products.find? x.productId).isSome) : d'.Known := by
  have kept : ∀ {k : Uuid}, (d.products.find? k).isSome → (d'.products.find? k).isSome := by
    intro k hsome
    obtain ⟨p, hp⟩ := Option.isSome_iff_exists.mp hsome
    obtain ⟨p', hp', -⟩ := hw.product_kept hp
    rw [hp']
    rfl
  refine ⟨?_, ?_, fun x hxm => kept (hx x hxm)⟩
  · intro m hmm
    rcases hm m hmm with hold | hnew
    · exact kept (hk.movements m hold)
    · exact kept hnew
  · intro s hsm hc x hxm
    rcases hs s hsm hc with hold | hnew
    · exact kept (hk.items s hold hc x hxm)
    · exact kept (hnew x hxm)

theorem soldOf_nonneg {items : List SaleItem} (hq : ∀ x ∈ items, 0 ≤ x.quantity) (k : Uuid) :
    0 ≤ soldOf items k := by
  apply List.sum_nonneg
  intro n hn
  obtain ⟨x, hx, rfl⟩ := List.mem_map.mp hn
  split
  · exact hq x hx
  · exact le_refl 0

theorem SaleCompleted.quantity {dto : CreateSaleDto} {s : Sale} (hs : SaleCompleted dto d d' s) :
    ∀ x ∈ s.items, 1 ≤ x.quantity := by
  intro x hx
  have hmem : (x.productId, x.quantity) ∈ dto.items.map fun y => (uuid y.productId, y.quantity.val) := by
    rw [← hs.items]
    exact List.mem_map_of_mem (f := fun x : SaleItem => (x.productId, x.quantity)) hx
  obtain ⟨y, -, he⟩ := List.mem_map.mp hmem
  rw [← (Prod.mk.inj he).2]
  exact y.quantity.pos

theorem Ledger.sale {env : Env} {actor : Actor} {dto : CreateSaleDto} (hl : Ledger d)
    (hw : (Request.createSale env actor dto).Writes host d₀ i h d d') : Ledger d' := by
  have hw' := hw
  obtain ⟨s, hs⟩ := hw'
  have hsold : ∀ k, d'.sold k = d.sold k + if s.status = .completada then soldOf s.items k else 0 := by
    intro k
    unfold Db.sold
    rw [hs.sales]
    exact Table.total_put_new _ hs.fresh
  have howed : ∀ k, d'.owed k = d.owed k := by
    intro k
    unfold Db.owed
    rw [hs.db]
  have hmov : d'.stockMovements = d.stockMovements := by rw [hs.db]
  have hknown : (s.status = .completada → ∀ x ∈ s.items, (d.products.find? x.productId).isSome) →
      d'.Known := by
    intro hitems
    refine hl.known.kept hw ?_ ?_ ?_
    · rw [hmov]
      exact fun m hm => .inl hm
    · rw [hs.sales]
      intro s' hs' hc
      rcases Table.mem_put.mp hs' with rfl | ⟨hold, -⟩
      · exact .inr (hitems hc)
      · exact .inl hold
    · rw [hs.db]
      exact hl.known.deudas
  rcases hs.outcome with ⟨ho, -⟩ | ⟨ho, -⟩
  · refine hl.moved hmov (hknown ?_) ?_
    · intro _ x hx
      obtain ⟨p, hp, -⟩ := ho.enough x hx
      rw [hp]
      rfl
    · intro p' hp'
      obtain ⟨p, hp, rfl⟩ := ho.taken.row hp'
      have hn := soldOf_nonneg (fun x hx => le_trans (by decide) (ho.quantity x hx)) p.id
      have hid : p.id = (p.take (soldOf s.items p.id)).id := rfl
      have hsp := hsold p.id
      rw [if_pos ho.status] at hsp
      have hop := howed p.id
      have hstock : (p.take (soldOf s.items p.id)).stock = p.stock - soldOf s.items p.id := rfl
      have hle : soldOf s.items p.id ≤ p.stock := by
        by_cases hx : ∃ x ∈ s.items, x.productId = p.id
        · obtain ⟨x, hx, hxp⟩ := hx
          obtain ⟨q, hq, hle⟩ := ho.enough x hx
          rw [hxp] at hq hle
          cases hp.symm.trans hq
          exact hle
        · have hz : soldOf s.items p.id = 0 :=
            soldOf_eq_zero fun x hxm hxp => hx ⟨x, hxm, hxp⟩
          rw [hz]
          exact (hl.products p (Table.mem_of_find? hp)).nonneg
      exact ⟨p, hp, ⟨rfl, rfl, rfl, rfl⟩, by omega, by omega, by omega⟩
  · refine hl.moved hmov (hknown ?_) ?_
    · intro hc
      cases hc.symm.trans ho.status
    · intro p hp
      have hp : p ∈ d.products.rows := by
        rw [ho.db] at hp
        exact hp
      have hsp := hsold p.id
      rw [if_neg (by rw [ho.status]; decide)] at hsp
      have hop := howed p.id
      have ha := hl.products p hp
      exact ⟨p, Table.find?_of_mem hp, .refl p, by omega, ha.nonneg, le_refl _⟩

theorem Ledger.deuda {env : Env} {actor : Actor} {dto : CreateDeudaDto} (hl : Ledger d)
    (hf : FreshIds h) (hw : (Request.createDeuda env actor dto).Writes host d₀ i h d d') :
    Ledger d' := by
  have hw' := hw
  obtain ⟨x, hx⟩ := hw'
  obtain ⟨q, hq, hle⟩ := hx.enough hf
  have howed : ∀ k, d'.owed k = d.owed k + if x.productId = k then x.cantidad else 0 := by
    intro k
    unfold Db.owed
    rw [hx.db]
    exact Table.total_put_new _ hx.fresh
  have hsold : ∀ k, d'.sold k = d.sold k := by
    intro k
    unfold Db.sold
    rw [hx.db]
  have hmov : d'.stockMovements = d.stockMovements := by rw [hx.db]
  have hpos : 0 ≤ x.cantidad := by
    rw [hx.cantidad]
    exact le_trans (by decide) dto.cantidad.pos
  refine hl.moved hmov (hl.known.kept hw ?_ ?_ ?_) ?_
  · rw [hmov]
    exact fun m hm => .inl hm
  · rw [hx.db]
    exact fun s hs _ => .inl hs
  · rw [hx.db]
    intro y hy
    rcases Table.mem_put.mp hy with rfl | ⟨hold, -⟩
    · rw [hq]
      rfl
    · exact hl.known.deudas y hold
  · intro p' hp'
    obtain ⟨p, hp, rfl⟩ := (hx.taken hf).row hp'
    have hop := howed p.id
    have hsp := hsold p.id
    have hid : (p.take (if x.productId = p.id then x.cantidad else 0)).id = p.id := rfl
    have hstock : (p.take (if x.productId = p.id then x.cantidad else 0)).stock =
        p.stock - if x.productId = p.id then x.cantidad else 0 := rfl
    have h0 := (hl.products p (Table.mem_of_find? hp)).nonneg
    refine ⟨p, hp, ⟨rfl, rfl, rfl, rfl⟩, by omega, ?_, ?_⟩
    · rw [hstock]
      split
      · rename_i hk
        rw [hk] at hq
        cases hp.symm.trans hq
        omega
      · omega
    · rw [hstock]
      split
      · omega
      · omega

/-- A payment changes a debt's status, not what it took. -/
theorem Ledger.abono {env : Env} {actor : Actor} {id : String} {dto : CreateAbonoDto}
    (hl : Ledger d) (hw : (Request.registerAbono env actor id dto).Writes host d₀ i h d d') :
    Ledger d' := by
  have hw' := hw
  obtain ⟨x, a, now, ha⟩ := hw'
  have hid : x.id = uuid id := Table.find?_key ha.deuda
  have hx : d.deudas.find? x.id = some x := hid.symm ▸ ha.deuda
  have hold : ∀ y ∈ d'.deudas.rows, ∃ z ∈ d.deudas.rows, y.productId = z.productId := by
    rw [ha.db]
    intro y hy
    change y ∈ (if _ then d.deudas.put _ else d.deudas).rows at hy
    split at hy
    · rcases Table.mem_put.mp hy with rfl | ⟨hm, -⟩
      · exact ⟨x, Table.mem_of_find? hx, rfl⟩
      · exact ⟨y, hm, rfl⟩
    · exact ⟨y, hy, rfl⟩
  have howed : ∀ k, d'.owed k = d.owed k := by
    intro k
    unfold Db.owed
    rw [ha.db]
    change Table.total (if _ then d.deudas.put { x with status := .saldada, saldadaAt := some now }
      else d.deudas) _ = _
    split
    · have hput := Table.total_put_old (r := { x with status := .saldada, saldadaAt := some now })
        (fun y : Deuda => if y.productId = k then y.cantidad else 0) hx
      rw [hput]
      exact Int.sub_add_cancel _ _
    · rfl
  have hsold : ∀ k, d'.sold k = d.sold k := by
    intro k
    unfold Db.sold
    rw [ha.db]
  refine hl.moved (by rw [ha.db]) (hl.known.kept hw ?_ ?_ ?_) ?_
  · rw [ha.db]
    exact fun m hm => .inl hm
  · rw [ha.db]
    exact fun s hs _ => .inl hs
  · intro y hy
    obtain ⟨z, hz, he⟩ := hold y hy
    rw [he]
    exact hl.known.deudas z hz
  · intro p hp
    have hp : p ∈ d.products.rows := by
      rw [ha.db] at hp
      exact hp
    have hop := howed p.id
    have hsp := hsold p.id
    exact ⟨p, Table.find?_of_mem hp, .refl p, by omega, (hl.products p hp).nonneg, le_refl _⟩

/-- What reads no table but the catalog, the movements, the sales and the debts. -/
theorem Ledger.cuotas (hl : Ledger d) (hc : CuotasChanged d d') : Ledger d' := by
  rw [show d' = _ from hc]
  exact ⟨fun p hp => ⟨(hl.products p hp).nonneg, (hl.products p hp).le, (hl.products p hp).stock,
    (hl.products p hp).unica⟩, hl.movements, hl.known.movements, hl.known.items, hl.known.deudas⟩

/-- A new product starts with its initial stock. -/
theorem Ledger.product {env : Env} {actor : Actor} {dto : CreateProductDto} (hl : Ledger d)
    (hw : (Request.createProduct env actor dto).Writes host d₀ i h d d') : Ledger d' := by
  have hw' := hw
  obtain ⟨q, hq, -⟩ := hw'
  have hsame : ∀ p, d'.accounted p = d.accounted p := by
    intro p
    rw [hq.db]
    rfl
  refine ⟨?_, by rw [hq.db]; exact hl.movements, hl.known.kept hw ?_ ?_ ?_⟩
  · intro p hp
    have hp : p ∈ (d.products.put q).rows := by
      rw [hq.db] at hp
      exact hp
    rcases Table.mem_put.mp hp with rfl | ⟨hold, -⟩
    · refine ⟨hq.range.1, hq.range.2, ?_, fun ht => le_of_eq (hq.unica ht)⟩
      rw [hsame, hl.known.accounted hq.fresh]
      exact hq.stock
    · have ha := hl.products p hold
      exact ⟨ha.nonneg, ha.le, by rw [hsame]; exact ha.stock, ha.unica⟩
  · rw [hq.db]
    exact fun m hm => .inl hm
  · rw [hq.db]
    exact fun s hs _ => .inl hs
  · rw [hq.db]
    exact hl.known.deudas

/-- An edit leaves the stock alone. -/
theorem Ledger.edit {id : Uuid} {data : ProductUpdate} (hl : Ledger d)
    (hw : r.Writes host d₀ i h d d') (hc : ProductChanged h id d d' data) : Ledger d' := by
  have hstock : ∀ p, (data.apply p).stock = p.stock := by
    intro p
    simp [ProductUpdate.apply, hc.stock]
  have hsold : ∀ k, d'.sold k = d.sold k := by
    intro k
    unfold Db.sold
    rw [hc.db]
  have howed : ∀ k, d'.owed k = d.owed k := by
    intro k
    unfold Db.owed
    rw [hc.db]
  refine hl.moved (by rw [hc.db]) (hl.known.kept hw ?_ ?_ ?_) ?_
  · rw [hc.db]
    exact fun m hm => .inl hm
  · rw [hc.db]
    exact fun s hs _ => .inl hs
  · rw [hc.db]
    exact hl.known.deudas
  · intro p' hp'
    have hf : d'.products.find? p'.id = some p' := Table.find?_of_mem hp'
    rw [hc.db] at hf
    change (d.products.modify id data.apply).find? p'.id = some p' at hf
    rw [Table.find?_modify data.apply_id] at hf
    split at hf
    · rename_i hk
      obtain ⟨p, hp, rfl⟩ := Option.map_eq_some_iff.mp hf
      have hid : p.id = id := Table.find?_key hp
      have h0 := (hl.products p (Table.mem_of_find? hp)).nonneg
      have hsp := hsold p.id
      have hop := howed p.id
      refine ⟨p, by rw [hk]; exact hp, data.version p, ?_, ?_, ?_⟩
      · rw [hstock]
        omega
      · rw [hstock]
        exact h0
      · rw [hstock]
    · have h0 := (hl.products p' (Table.mem_of_find? hf)).nonneg
      have hsp := hsold p'.id
      have hop := howed p'.id
      exact ⟨p', hf, .refl p', by omega, h0, le_refl _⟩

/-- A restock adds the same to the stock and to its movements. -/
theorem Ledger.restock {env : Env} {actor : Actor} {id : String} {dto : RestockProductDto}
    (hl : Ledger d) (hw : (Request.restockProduct env actor id dto).Writes host d₀ i h d d') :
    Ledger d' := by
  have hw' := hw
  obtain ⟨p, m, cost, hm⟩ := hw'
  have hid : p.id = uuid id := Table.find?_key hm.product
  have hrestocked : ∀ k, d'.restocked k = d.restocked k + if m.productId = k then m.quantity else 0 := by
    intro k
    unfold Db.restocked
    rw [hm.db]
    exact Table.total_put_new _ hm.fresh
  have hsold : ∀ k, d'.sold k = d.sold k := by
    intro k
    unfold Db.sold
    rw [hm.db]
  have howed : ∀ k, d'.owed k = d.owed k := by
    intro k
    unfold Db.owed
    rw [hm.db]
  refine ⟨?_, ?_, hl.known.kept hw ?_ ?_ ?_⟩
  · intro p' hp'
    have hp' : p' ∈ (d.products.put
        { p with stock := p.stock + dto.quantity.val, purchaseCostMinor := cost }).rows := by
      rw [hm.db] at hp'
      exact hp'
    have hpos := dto.quantity.pos
    rcases Table.mem_put.mp hp' with rfl | ⟨hold, hne⟩
    · have ha := hl.products p (Table.mem_of_find? hm.product)
      have hrp := hrestocked p.id
      rw [if_pos (hm.productId.trans hid.symm), hm.quantity] at hrp
      have hsp := hsold p.id
      have hop := howed p.id
      have h0 := ha.nonneg
      have hv : p.Version
          { p with stock := p.stock + dto.quantity.val, purchaseCostMinor := cost } :=
        ⟨rfl, rfl, rfl, rfl⟩
      refine ha.move hv ?_ ?_ hm.room ?_
      · change p.stock + dto.quantity.val - p.stock = _
        omega
      · change 0 ≤ p.stock + dto.quantity.val
        omega
      · intro hu
        change p.tipo = .unica at hu
        rw [hm.tipo] at hu
        cases hu
    · have ha := hl.products p' hold
      have hne : m.productId ≠ p'.id := by
        rw [hm.productId, ← hid]
        exact Ne.symm hne
      have hrp := hrestocked p'.id
      rw [if_neg hne] at hrp
      have hsp := hsold p'.id
      have hop := howed p'.id
      exact ha.move (.refl p') (by omega) ha.nonneg ha.le fun _ => le_refl _
  · intro m' hm'
    have hm' : m' ∈ (d.stockMovements.put m).rows := by
      rw [hm.db] at hm'
      exact hm'
    rcases Table.mem_put.mp hm' with rfl | ⟨hold, -⟩
    · rw [hm.stockAfter, hm.stockBefore, hm.quantity]
    · exact hl.movements m' hold
  · rw [hm.db]
    intro m' hm'
    rcases Table.mem_put.mp hm' with rfl | ⟨hold, -⟩
    · rw [hm.productId, hm.product]
      exact .inr rfl
    · exact .inl hold
  · rw [hm.db]
    exact fun s hs _ => .inl hs
  · rw [hm.db]
    exact hl.known.deudas

/-- Every commit keeps the books balanced. -/
theorem Ledger.step (hl : Ledger d) (hf : FreshIds h) (hw : r.Writes host d₀ i h d d') :
    Ledger d' := by
  cases r with
  | createSale env actor dto => exact hl.sale hw
  | createDeuda env actor dto => exact hl.deuda hf hw
  | registerAbono env actor id dto => exact hl.abono hw
  | addCuota env actor id dto => exact hl.cuotas hw
  | updateCuota actor id cuotaId dto => exact hl.cuotas hw
  | deleteCuota actor id cuotaId => exact hl.cuotas hw
  | createProduct env actor dto => exact hl.product hw
  | patchProduct env actor id dto =>
    have hw' := hw
    obtain ⟨data, hc, -⟩ := hw'
    exact hl.edit hw hc
  | changeImage env actor id saved =>
    have hw' := hw
    obtain ⟨data, hc, -⟩ := hw'
    exact hl.edit hw hc
  | restockProduct env actor id dto => exact hl.restock hw
  | deactivateProduct actor id =>
    have hw' := hw
    obtain ⟨data, hc, -⟩ := hw'
    exact hl.edit hw hc
  | reactivateProduct actor id =>
    have hw' := hw
    obtain ⟨data, hc, -⟩ := hw'
    exact hl.edit hw hc

/-- And so the books balance after every lawful history. -/
theorem Ledger.replay {reqs : List Request} (h0 : Ledger d₀)
    (hl : Lawful (Commits host d₀ reqs) h) (hf : FreshIds h) :
    Ledger (Txn.replay (S := shop) d₀ h) := by
  refine hl.history_induct (P := fun h => FreshIds h → Ledger (Txn.replay (S := shop) d₀ h))
    (fun _ => h0) ?_ ?_ hf
  · intro h i q ih hf
    rw [replay_sent]
    exact ih (hf.of_prefix (List.prefix_append _ _))
  · intro h c _ ih _ hc hf
    have hf := hf.of_prefix (List.prefix_append h _)
    rw [replay_committed]
    exact hc.keep (ih hf) fun r d' _ hw _ => (ih hf).step hf hw

/-! Movements. -/

/-- The commit that wrote the movement found the stock it starts from and left the stock it
ends with. -/
def Recorded (d₀ : Db) (h : History shop) (m : StockMovement) : Prop :=
  ∃ h₁ c p p', h₁ ++ [.commit c] <+: h ∧ Write.insert (.stockMovement m) ∈ c.writes ∧
    (replay (S := shop) d₀ h₁).products.find? m.productId = some p ∧ m.stockBefore = p.stock ∧
    (replay (S := shop) d₀ (h₁ ++ [.commit c])).products.find? m.productId = some p' ∧
    m.stockAfter = p'.stock

theorem Recorded.mono {m : StockMovement} {h' : History shop} (hm : Recorded d₀ h m) (hp : h <+: h') :
    Recorded d₀ h' m := by
  obtain ⟨h₁, c, p, p', hpre, hs⟩ := hm
  exact ⟨h₁, c, p, p', hpre.trans hp, hs⟩

/-- A movement that was not there before is one of the rows written. -/
theorem movement_inserted {ws : List Write} {m : StockMovement}
    (hm : m ∈ (applyAll (S := shop) d ws).stockMovements.rows) :
    m ∈ d.stockMovements.rows ∨ Write.insert (.stockMovement m) ∈ ws := by
  induction ws generalizing d with
  | nil => exact .inl hm
  | cons w ws ih =>
    rcases ih hm with hm | hm
    · by_cases hold : m ∈ d.stockMovements.rows
      · exact .inl hold
      · right
        cases w with
        | insert row =>
          cases row with
          | stockMovement n =>
            rcases Table.mem_put.mp hm with rfl | ⟨hold', -⟩
            · exact List.mem_cons_self
            · exact absurd hold' hold
          | _ => exact absurd hm hold
        | _ => exact absurd hm hold
    · exact .inr (List.mem_cons_of_mem w hm)

/-- Only a restock writes a movement. -/
theorem Request.Writes.movements (hw : r.Writes host d₀ i h d d') {m : StockMovement}
    (hm : m ∈ d'.stockMovements.rows) : m ∈ d.stockMovements.rows ∨
      ∃ p p', d.products.find? m.productId = some p ∧ m.stockBefore = p.stock ∧
        d'.products.find? m.productId = some p' ∧ m.stockAfter = p'.stock := by
  cases r with
  | restockProduct env actor id dto =>
    obtain ⟨p, m', cost, hr⟩ := hw
    have hid : p.id = uuid id := Table.find?_key hr.product
    rw [hr.db] at hm ⊢
    rcases Table.mem_put.mp hm with rfl | ⟨hold, -⟩
    · refine .inr ⟨p, { p with stock := p.stock + dto.quantity.val, purchaseCostMinor := cost },
        by rw [hr.productId]; exact hr.product, hr.stockBefore, ?_, hr.stockAfter⟩
      rw [hr.productId, ← hid]
      exact Table.find?_put_self
    · exact .inl hold
  | createSale env actor dto =>
    obtain ⟨s, hs⟩ := hw
    rw [hs.db] at hm
    exact .inl hm
  | createDeuda env actor dto =>
    obtain ⟨x, hx⟩ := hw
    rw [hx.db] at hm
    exact .inl hm
  | registerAbono env actor id dto =>
    obtain ⟨x, a, now, ha⟩ := hw
    rw [ha.db] at hm
    exact .inl hm
  | createProduct env actor dto =>
    obtain ⟨p, hp, -⟩ := hw
    rw [hp.db] at hm
    exact .inl hm
  | patchProduct env actor id dto =>
    obtain ⟨data, hp, -⟩ := hw
    rw [hp.db] at hm
    exact .inl hm
  | changeImage env actor id saved =>
    obtain ⟨data, hp, -⟩ := hw
    rw [hp.db] at hm
    exact .inl hm
  | deactivateProduct actor id =>
    obtain ⟨data, hp, -⟩ := hw
    rw [hp.db] at hm
    exact .inl hm
  | reactivateProduct actor id =>
    obtain ⟨data, hp, -⟩ := hw
    rw [hp.db] at hm
    exact .inl hm
  | addCuota env actor id dto => rw [show d' = _ from hw] at hm; exact .inl hm
  | updateCuota actor id cuotaId dto => rw [show d' = _ from hw] at hm; exact .inl hm
  | deleteCuota actor id cuotaId => rw [show d' = _ from hw] at hm; exact .inl hm

/-- Every movement of a run is one of the first database or was recorded. -/
theorem movements_recorded {reqs : List Request} (hl : Lawful (Commits host d₀ reqs) h) :
    ∀ m ∈ (replay (S := shop) d₀ h).stockMovements.rows,
      m ∈ d₀.stockMovements.rows ∨ Recorded d₀ h m := by
  refine hl.history_induct (P := fun h => ∀ m ∈ (replay (S := shop) d₀ h).stockMovements.rows,
    m ∈ d₀.stockMovements.rows ∨ Recorded d₀ h m) (fun m hm => .inl hm) ?_ ?_
  · intro h i q ih m hm
    rw [replay_sent] at hm
    exact (ih m hm).imp_right fun hr => hr.mono (List.prefix_append _ _)
  · intro h c _ ih _ hc m hm
    have hpre : h <+: h ++ [.commit c] := List.prefix_append _ _
    obtain ⟨r, hreq, hw | ⟨hw, -⟩⟩ := hc
    · rw [replay_committed, hw, applyAll_nil] at hm
      exact (ih m hm).imp_right fun hr => hr.mono hpre
    · rw [replay_committed] at hm
      rcases movement_inserted hm with hold | hinsert
      · exact (ih m hold).imp_right fun hr => hr.mono hpre
      rcases hw.movements hm with hold | ⟨p, p', hp, hb, hp', ha⟩
      · exact (ih m hold).imp_right fun hr => hr.mono hpre
      · refine .inr ⟨h, c, p, p', List.prefix_refl _, hinsert, hp, hb, ?_, ha⟩
        rw [replay_committed]
        exact hp'

end

/-! Runs. -/

/-- In every committed state of every run the stock is in range and accounted for, and
every movement says what the stock was before and after it. -/
theorem stock_conserved (host : Host) (d₀ : Db) (reqs : List Request) (s : Sys shop Answer)
    (h₀ : Ledger d₀) (hr : Reachable host d₀ reqs s) (hf : FreshIds s.hist) (h : History shop)
    (hp : h <+: s.hist) :
    (∀ p ∈ (replay (S := shop) d₀ h).products.rows,
      0 ≤ p.stock ∧ p.stock ≤ 2147483647 ∧
      p.stock = p.initialStock + (replay (S := shop) d₀ h).restocked p.id -
        (replay (S := shop) d₀ h).sold p.id - (replay (S := shop) d₀ h).owed p.id ∧
      (p.tipo = .unica → p.stock = 0 ∨ p.stock = 1)) ∧
    ∀ m ∈ (replay (S := shop) d₀ h).stockMovements.rows,
      m.stockAfter = m.stockBefore + m.quantity ∧
      (m ∈ d₀.stockMovements.rows ∨ Recorded d₀ h m) := by
  have hl := hr.lawful.of_prefix hp
  have hledger := h₀.replay hl (hf.of_prefix hp)
  refine ⟨?_, ?_⟩
  · intro p hm
    have ha := hledger.products p hm
    refine ⟨ha.nonneg, ha.le, ha.stock, ?_⟩
    intro ht
    have h0 := ha.nonneg
    have h1 := ha.unica ht
    omega
  · intro m hm
    exact ⟨hledger.movements m hm, movements_recorded hl m hm⟩

/-- No commit creates a product. -/
def noProducts (h : History shop) : Bool :=
  h.all fun e => e.writes.all fun w => match (w : Write) with
    | .insert (.product _) => false
    | _ => true

theorem FreshIds.of_noProducts {h : History shop} (hn : noProducts h = true) : FreshIds h := by
  intro h₁ c h₂ he p hp
  have hc := List.all_eq_true.mp hn (.commit c) (by rw [he]; simp)
  have hw := List.all_eq_true.mp hc _ hp
  cases hw

theorem Demo.ledger : Ledger Demo.db := by
  refine ⟨?_, ?_, ?_, ?_, ?_⟩
  · intro p hp
    rcases List.mem_cons.mp hp with rfl | hp
    · exact ⟨by decide, by decide, by decide, by decide⟩
    · rw [List.mem_singleton.mp hp]
      exact ⟨by decide, by decide, by decide, by decide⟩
  · intro m hm
    cases hm
  · intro m hm
    cases hm
  · intro m hm
    cases hm
  · intro m hm
    cases hm

/-- A sale, a debt with a first payment and a restock, interleaved. -/
def Demo.trade : List Request :=
  [.createSale (env 1) actor (pair "sale"),
    .createDeuda (env 2) actor (deuda "debt" "b" forty),
    .restockProduct (env 3) actor "a" ⟨three, none, none⟩]

/-- The schedule that interleaves them; the restock waits for the sale to commit. -/
def Demo.tradeSteps : List Nat :=
  List.replicate 9 0 ++ List.replicate 7 1 ++ List.replicate 4 2 ++ List.replicate 8 0 ++
    List.replicate 7 1 ++ List.replicate 4 2

theorem stock_conserved_trade :
    (∀ p ∈ (replay (S := shop) Demo.db (Demo.run Demo.trade Demo.tradeSteps).hist).products.rows,
      0 ≤ p.stock ∧ p.stock ≤ 2147483647 ∧
      p.stock = p.initialStock +
        (replay (S := shop) Demo.db (Demo.run Demo.trade Demo.tradeSteps).hist).restocked p.id -
        (replay (S := shop) Demo.db (Demo.run Demo.trade Demo.tradeSteps).hist).sold p.id -
        (replay (S := shop) Demo.db (Demo.run Demo.trade Demo.tradeSteps).hist).owed p.id ∧
      (p.tipo = .unica → p.stock = 0 ∨ p.stock = 1)) ∧
    ∀ m ∈ (replay (S := shop) Demo.db (Demo.run Demo.trade Demo.tradeSteps).hist).stockMovements.rows,
      m.stockAfter = m.stockBefore + m.quantity ∧
      (m ∈ Demo.db.stockMovements.rows ∨
        Recorded Demo.db (Demo.run Demo.trade Demo.tradeSteps).hist m) :=
  stock_conserved Demo.host Demo.db Demo.trade (Demo.run Demo.trade Demo.tradeSteps) Demo.ledger
    (Demo.reachable (by decide)) (FreshIds.of_noProducts (by decide)) _
    (List.prefix_refl _)

end Bazar.Shop
