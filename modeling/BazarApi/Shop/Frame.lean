import BazarApi.Shop.Requests

/- What no commit of the shop undoes. A sale, once committed, stays as it is; a debt
   keeps everything but its status and settlement time; a product keeps its
   identity, type and initial stock. Each is a fact about one commit (`Commits`)
   carried along a lawful history. -/
namespace Bazar.Shop

open Txn

section
variable {host : Host} {d₀ d d' : Db} {reqs : List Request} {i : Nat} {h h' : History shop}
variable {c : Commit shop} {r : Request}

/-! Sales. -/

theorem SaleWritten.db {actor : Actor} {dto : CreateSaleDto} {s : Sale}
    (hs : SaleWritten host i actor dto d₀ h d d' s) :
    d' = { d with products := d'.products, sales := d.sales.put s } := by
  rcases hs.outcome with ⟨ho, -⟩ | ⟨ho, -⟩
  · exact ho.db
  · rw [ho.db]

theorem SaleWritten.sales {actor : Actor} {dto : CreateSaleDto} {s : Sale}
    (hs : SaleWritten host i actor dto d₀ h d d' s) : d'.sales = d.sales.put s := by
  rw [hs.db]

/-- The kinds of commit: a sale, a debt, a payment, or a change to the catalog's or the
schedules' tables alone. -/
theorem Request.Writes.kinds (hw : r.Writes host d₀ i h d d') :
    (∃ env actor dto s, r = .createSale env actor dto ∧
      SaleWritten host i actor dto d₀ h d d' s) ∨
    (∃ env actor dto x, r = .createDeuda env actor dto ∧
      DeudaCreated host actor dto d₀ h d d' x) ∨
    (∃ env actor id dto x a now, r = .registerAbono env actor id dto ∧
      AbonoRegistered actor.account.contextId (uuid id) dto d d' x a now) ∨
    d' = { d with
      products := d'.products, productAudits := d'.productAudits
      stockMovements := d'.stockMovements } ∨
    CuotasChanged d d' := by
  cases r with
  | createSale env actor dto =>
    obtain ⟨s, hs⟩ := hw
    exact .inl ⟨env, actor, dto, s, rfl, hs⟩
  | createDeuda env actor dto =>
    obtain ⟨x, hx⟩ := hw
    exact .inr (.inl ⟨env, actor, dto, x, rfl, hx⟩)
  | registerAbono env actor id dto =>
    obtain ⟨x, a, now, ha⟩ := hw
    exact .inr (.inr (.inl ⟨env, actor, id, dto, x, a, now, rfl, ha⟩))
  | createProduct env actor dto =>
    obtain ⟨p, hp, -⟩ := hw
    exact .inr (.inr (.inr (.inl (by rw [hp.db]))))
  | restockProduct env actor id dto =>
    obtain ⟨p, m, cost, hm⟩ := hw
    exact .inr (.inr (.inr (.inl (by rw [hm.db]))))
  | patchProduct env actor id dto =>
    obtain ⟨data, hp, -⟩ := hw
    exact .inr (.inr (.inr (.inl (by rw [hp.db]))))
  | changeImage env actor id saved =>
    obtain ⟨data, hp, -⟩ := hw
    exact .inr (.inr (.inr (.inl (by rw [hp.db]))))
  | deactivateProduct actor id =>
    obtain ⟨data, hp, -⟩ := hw
    exact .inr (.inr (.inr (.inl (by rw [hp.db]))))
  | reactivateProduct actor id =>
    obtain ⟨data, hp, -⟩ := hw
    exact .inr (.inr (.inr (.inl (by rw [hp.db]))))
  | addCuota env actor id dto => exact .inr (.inr (.inr (.inr hw)))
  | updateCuota actor id cuotaId dto => exact .inr (.inr (.inr (.inr hw)))
  | deleteCuota actor id cuotaId => exact .inr (.inr (.inr (.inr hw)))

/-- Only a sale's request writes a sale, and it writes one that was not there. -/
theorem Request.Writes.sales (hw : r.Writes host d₀ i h d d') :
    d'.sales = d.sales ∨ ∃ env actor dto s, r = .createSale env actor dto ∧
      SaleWritten host i actor dto d₀ h d d' s := by
  rcases hw.kinds with hs | ⟨_, _, _, x, -, hx⟩ | ⟨_, _, _, _, x, a, now, -, ha⟩ | he | he
  · exact .inr hs
  · exact .inl (by rw [hx.db])
  · exact .inl (by rw [ha.db])
  · exact .inl (by rw [he])
  · exact .inl (by rw [show d' = _ from he])

theorem Request.Writes.sale_kept (hw : r.Writes host d₀ i h d d') {k : Uuid} {s : Sale}
    (hs : d.sales.find? k = some s) : d'.sales.find? k = some s := by
  rcases hw.sales with he | ⟨_, _, _, s', -, hs'⟩
  · rw [he]
    exact hs
  · rw [hs'.sales, Table.find?_put_ne]
    · exact hs
    · rintro rfl
      have hf := hs'.fresh
      change d.sales.find? s'.id = some s at hs
      rw [hf] at hs
      cases hs

/-- What a commit keeps when every request that writes keeps it. -/
theorem Commits.keep {I : Db → Prop} (hc : Commits host d₀ reqs h c) (h0 : I (replay (S := shop) d₀ h))
    (hs : ∀ r d', reqs[c.pid]? = some r → r.Writes host d₀ c.pid h (replay (S := shop) d₀ h) d' →
      r.Holds c.locks → I d') :
    I (applyAll (S := shop) (replay (S := shop) d₀ h) c.writes) := by
  obtain ⟨r, hr, hw | ⟨hw, hh⟩⟩ := hc
  · rw [hw]
    exact h0
  · exact hs r _ hr hw hh

theorem Lawful.sale_kept (hl : Lawful (Commits host d₀ reqs) h') (hp : h <+: h') {k : Uuid}
    {s : Sale} (hs : (replay (S := shop) d₀ h).sales.find? k = some s) :
    (replay (S := shop) d₀ h').sales.find? k = some s :=
  hl.keep (S := shop) d₀ (fun v => v.sales.find? k = some s) hp hs fun _ _ _ _ h0 _ hc =>
    hc.keep (I := fun v => v.sales.find? k = some s) h0 fun _ _ _ hw _ => hw.sale_kept h0

/-! Products. -/

/-- `p'` is a later version of the product `p`. -/
structure Product.Version (p p' : Product) : Prop where
  id : p'.id = p.id
  contextId : p'.contextId = p.contextId
  tipo : p'.tipo = p.tipo
  initialStock : p'.initialStock = p.initialStock

theorem Product.Version.refl (p : Product) : p.Version p := ⟨rfl, rfl, rfl, rfl⟩

theorem Product.Version.trans {p p' p'' : Product} (h : p.Version p') (h' : p'.Version p'') :
    p.Version p'' :=
  ⟨h'.id.trans h.id, h'.contextId.trans h.contextId, h'.tipo.trans h.tipo,
    h'.initialStock.trans h.initialStock⟩

theorem ProductUpdate.version (u : ProductUpdate) (p : Product) : p.Version (u.apply p) :=
  ⟨rfl, rfl, rfl, rfl⟩

theorem modify_version {t : Table Product} {f : Product → Product} (hf : ∀ p : Product, p.Version (f p))
    {id k : Uuid} {p : Product} (hp : t.find? k = some p) :
    ∃ p', (t.modify id f).find? k = some p' ∧ p.Version p' := by
  rw [Table.find?_modify fun p => (hf p).id]
  split
  · rename_i hk
    subst hk
    rw [hp]
    exact ⟨_, rfl, hf p⟩
  · exact ⟨p, hp, .refl p⟩

theorem put_version {t : Table Product} {p₀ q : Product} (h0 : t.find? q.id = some p₀)
    (hv : p₀.Version q) {k : Uuid} {p : Product} (hp : t.find? k = some p) :
    ∃ p', (t.put q).find? k = some p' ∧ p.Version p' := by
  rw [Table.find?_put]
  split
  · rename_i hk
    subst hk
    have he : some p₀ = some p := h0.symm.trans hp
    cases he
    exact ⟨q, rfl, hv⟩
  · exact ⟨p, hp, .refl p⟩

/-- A row of the catalog after pieces were taken. -/
theorem Taken.row {n : Uuid → Int} (ht : Taken d d' n) {p' : Product} (hp : p' ∈ d'.products.rows) :
    ∃ p, d.products.find? p'.id = some p ∧ p' = p.take (n p.id) := by
  have hf := Table.find?_of_mem hp
  change d'.products.find? p'.id = some p' at hf
  rw [ht p'.id] at hf
  obtain ⟨p, hp, he⟩ := Option.map_eq_some_iff.mp hf
  have hid : p.id = p'.id := Table.find?_key hp
  exact ⟨p, hp, by rw [hid]; exact he.symm⟩

/-- Products are never removed and keep what they were created as. -/
theorem Request.Writes.product_kept (hw : r.Writes host d₀ i h d d') {k : Uuid} {p : Product}
    (hp : d.products.find? k = some p) : ∃ p', d'.products.find? k = some p' ∧ p.Version p' := by
  cases r with
  | createSale env actor dto =>
    obtain ⟨s, hs⟩ := hw
    rcases hs.outcome with ⟨ho, -⟩ | ⟨ho, -⟩
    · rw [ho.taken k, hp]
      exact ⟨_, rfl, rfl, rfl, rfl, rfl⟩
    · rw [ho.db]
      exact ⟨p, hp, .refl p⟩
  | createDeuda env actor dto =>
    obtain ⟨x, hx⟩ := hw
    obtain ⟨n, hn⟩ := hx.products
    rw [hn]
    exact modify_version (f := fun p => { p with stock := n }) (fun _ => ⟨rfl, rfl, rfl, rfl⟩) hp
  | registerAbono env actor id dto =>
    obtain ⟨x, a, now, ha⟩ := hw
    rw [ha.db]
    exact ⟨p, hp, .refl p⟩
  | createProduct env actor dto =>
    obtain ⟨q, hq, -⟩ := hw
    rw [hq.db, Table.find?_put_ne]
    · exact ⟨p, hp, .refl p⟩
    · rintro rfl
      have hf := hq.fresh
      change d.products.find? q.id = some p at hp
      rw [hf] at hp
      cases hp
  | restockProduct env actor id dto =>
    obtain ⟨q, m, cost, hm⟩ := hw
    rw [hm.db]
    have hid : q.id = uuid id := Table.find?_key hm.product
    have h0 : d.products.find? q.id = some q := hid.symm ▸ hm.product
    exact put_version (q := { q with stock := _, purchaseCostMinor := cost }) h0
      ⟨rfl, rfl, rfl, rfl⟩ hp
  | patchProduct env actor id dto =>
    obtain ⟨data, hd, -⟩ := hw
    rw [hd.db]
    exact modify_version data.version hp
  | changeImage env actor id saved =>
    obtain ⟨data, hd, -⟩ := hw
    rw [hd.db]
    exact modify_version data.version hp
  | deactivateProduct actor id =>
    obtain ⟨data, hd, -⟩ := hw
    rw [hd.db]
    exact modify_version data.version hp
  | reactivateProduct actor id =>
    obtain ⟨data, hd, -⟩ := hw
    rw [hd.db]
    exact modify_version data.version hp
  | addCuota env actor id dto => rw [show d' = _ from hw]; exact ⟨p, hp, .refl p⟩
  | updateCuota actor id cuotaId dto => rw [show d' = _ from hw]; exact ⟨p, hp, .refl p⟩
  | deleteCuota actor id cuotaId => rw [show d' = _ from hw]; exact ⟨p, hp, .refl p⟩

theorem Lawful.product_kept (hl : Lawful (Commits host d₀ reqs) h') (hp : h <+: h') {k : Uuid}
    {p : Product} (hs : (replay (S := shop) d₀ h).products.find? k = some p) :
    ∃ p', (replay (S := shop) d₀ h').products.find? k = some p' ∧ p.Version p' := by
  refine hl.keep (S := shop) d₀ (fun v => ∃ p', v.products.find? k = some p' ∧ p.Version p') hp
    ⟨p, hs, .refl p⟩ ?_
  intro h₁ c _ _ h0 _ hc
  refine hc.keep (I := fun v => ∃ p', v.products.find? k = some p' ∧ p.Version p') h0 ?_
  intro r d' _ hw _
  obtain ⟨p₁, hp₁, hv₁⟩ := h0
  obtain ⟨p₂, hp₂, hv₂⟩ := hw.product_kept hp₁
  exact ⟨p₂, hp₂, hv₁.trans hv₂⟩

/-! Debts. -/

/-- `x'` is a later version of the debt `x`. -/
def Deuda.Version (x x' : Deuda) : Prop :=
  x' = { x with status := x'.status, saldadaAt := x'.saldadaAt }

theorem Deuda.Version.refl (x : Deuda) : x.Version x := rfl

theorem Deuda.Version.trans {x x' x'' : Deuda} (h : x.Version x') (h' : x'.Version x'') :
    x.Version x'' := by
  unfold Deuda.Version at *
  rw [h', h]

theorem Deuda.Version.totalMinor {x x' : Deuda} (h : x.Version x') :
    x'.totalMinor = x.totalMinor := by
  rw [h]

theorem Deuda.Version.contextId {x x' : Deuda} (h : x.Version x') : x'.contextId = x.contextId := by
  rw [h]

theorem Deuda.Version.requestFingerprint {x x' : Deuda} (h : x.Version x') :
    x'.requestFingerprint = x.requestFingerprint := by
  rw [h]

theorem Deuda.Version.creationResponse {x x' : Deuda} (h : x.Version x') :
    x'.creationResponse = x.creationResponse := by
  rw [h]

/-- A debt is created once and then only paid. -/
theorem Request.Writes.deudas (hw : r.Writes host d₀ i h d d') :
    d'.deudas = d.deudas ∨
    (∃ env actor dto x, r = .createDeuda env actor dto ∧
      DeudaCreated host actor dto d₀ h d d' x ∧ d'.deudas = d.deudas.put x) ∨
    (∃ env actor id dto x a now, r = .registerAbono env actor id dto ∧
      AbonoRegistered actor.account.contextId (uuid id) dto d d' x a now ∧
      x.totalMinor ≤ d.sumAbonos (uuid id) actor.account.contextId + dto.montoMinor.val ∧
      d'.deudas = d.deudas.put { x with status := .saldada, saldadaAt := some now }) := by
  rcases hw.kinds with ⟨_, _, _, s, -, hs⟩ | ⟨env, actor, dto, x, rfl, hx⟩ |
    ⟨env, actor, id, dto, x, a, now, rfl, ha⟩ | he | he
  · exact .inl (by rw [hs.db])
  · exact .inr (.inl ⟨env, actor, dto, x, rfl, hx, by rw [hx.db]⟩)
  · by_cases hle : x.totalMinor ≤
        d.sumAbonos (uuid id) actor.account.contextId + dto.montoMinor.val
    · refine .inr (.inr ⟨env, actor, id, dto, x, a, now, rfl, ha, hle, ?_⟩)
      rw [ha.db]
      exact if_pos hle
    · refine .inl ?_
      rw [ha.db]
      exact if_neg hle
  · exact .inl (by rw [he])
  · exact .inl (by rw [show d' = _ from he])

theorem Request.Writes.deuda_kept (hw : r.Writes host d₀ i h d d') {k : Uuid} {x : Deuda}
    (hx : d.deudas.find? k = some x) : ∃ x', d'.deudas.find? k = some x' ∧ x.Version x' := by
  rcases hw.deudas with he | ⟨_, _, _, y, -, hy, he⟩ | ⟨_, _, id, _, y, _, now, -, hy, -, he⟩
  · rw [he]
    exact ⟨x, hx, rfl⟩
  · rw [he, Table.find?_put_ne]
    · exact ⟨x, hx, rfl⟩
    · rintro rfl
      have hf := hy.fresh
      change d.deudas.find? y.id = some x at hx
      rw [hf] at hx
      cases hx
  · rw [he, Table.find?_put]
    split
    · rename_i hk
      have hid : y.id = uuid id := Table.find?_key hy.deuda
      have hxy : some y = some x := by
        rw [← hy.deuda, ← hid]
        exact (congrArg d.deudas.find? hk.symm).trans hx
      cases hxy
      exact ⟨_, rfl, rfl⟩
    · exact ⟨x, hx, rfl⟩

/-- A payment is one more row, of a debt created with it or of a debt it holds. -/
theorem Request.Writes.abonos (hw : r.Writes host d₀ i h d d') :
    d'.abonos = d.abonos ∨ ∃ a : Abono, d.abonos.find? a.id = none ∧ d'.abonos = d.abonos.put a ∧
      ((∃ env actor dto x, r = .createDeuda env actor dto ∧
          DeudaCreated host actor dto d₀ h d d' x ∧ a.deudaId = x.id ∧ a.contextId = x.contextId ∧
          a.montoMinor = dto.abonoInicialMinor.val ∧ 0 < dto.abonoInicialMinor.val ∧
          dto.abonoInicialMinor.val ≤ x.totalMinor) ∨
        ∃ env actor id dto x now, r = .registerAbono env actor id dto ∧
          AbonoRegistered actor.account.contextId (uuid id) dto d d' x a now) := by
  rcases hw.kinds with ⟨_, _, _, s, -, hs⟩ | ⟨env, actor, dto, x, rfl, hx⟩ |
    ⟨env, actor, id, dto, x, a, now, rfl, ha⟩ | he | he
  · exact .inl (by rw [hs.db])
  · have hab := hx.abono
    unfold FirstAbono at hab
    split at hab
    · rename_i hpos
      obtain ⟨a, hd, hc, hm, hle, hf, he⟩ := hab
      exact .inr ⟨a, hf, he, .inl ⟨env, actor, dto, x, rfl, hx, hd, hc, hm, hpos, hle⟩⟩
    · exact .inl hab
  · exact .inr ⟨a, ha.fresh, by rw [ha.db], .inr ⟨env, actor, id, dto, x, now, rfl, ha⟩⟩
  · exact .inl (by rw [he])
  · exact .inl (by rw [show d' = _ from he])

theorem Lawful.deuda_kept (hl : Lawful (Commits host d₀ reqs) h') (hp : h <+: h') {k : Uuid}
    {x : Deuda} (hx : (replay (S := shop) d₀ h).deudas.find? k = some x) :
    ∃ x', (replay (S := shop) d₀ h').deudas.find? k = some x' ∧ x.Version x' := by
  refine hl.keep (S := shop) d₀ (fun v => ∃ x', v.deudas.find? k = some x' ∧ x.Version x') hp
    ⟨x, hx, rfl⟩ ?_
  intro h₁ c _ _ h0 _ hc
  refine hc.keep (I := fun v => ∃ x', v.deudas.find? k = some x' ∧ x.Version x') h0 ?_
  intro r d' _ hw _
  obtain ⟨x₁, hx₁, hv₁⟩ := h0
  obtain ⟨x₂, hx₂, hv₂⟩ := hw.deuda_kept hx₁
  exact ⟨x₂, hx₂, hv₁.trans hv₂⟩

/-! What holds of every product. -/

/-- A property of products that no stock changes holds of them all, when a new product has
it and edits and restocks keep it. -/
theorem Request.Writes.products_all {P : Product → Prop} (hw : r.Writes host d₀ i h d d')
    (hd : ∀ p ∈ d.products.rows, P p) (hstock : ∀ (p : Product) n, P p → P { p with stock := n })
    (hnew : ∀ p, ProductCreated d d' p → P p)
    (hchange : ∀ id data p, ProductChanged h id d d' data → P p → P (data.apply p))
    (hrestock : ∀ {contextId id dto p m cost}, Restocked contextId id dto d d' p m cost → P p →
      P { p with purchaseCostMinor := cost }) : ∀ p ∈ d'.products.rows, P p := by
  have modify : ∀ {id : Uuid} {f : Product → Product}, (∀ p, Keyed.key (f p) = Keyed.key p) →
      (∀ p, P p → P (f p)) → ∀ p ∈ (d.products.modify id f).rows, P p := by
    intro id f hid hf p hm
    have hfind := Table.find?_of_mem hm
    rw [Table.find?_modify hid] at hfind
    split at hfind
    · obtain ⟨q, hq, rfl⟩ := Option.map_eq_some_iff.mp hfind
      exact hf q (hd q (Table.mem_of_find? hq))
    · exact hd p (Table.mem_of_find? hfind)
  have put : ∀ {q : Product}, P q → ∀ p ∈ (d.products.put q).rows, P p := by
    intro q hq p hm
    rcases Table.mem_put.mp hm with rfl | ⟨hold, -⟩
    · exact hq
    · exact hd p hold
  have edit : ∀ {id data}, ProductChanged h id d d' data → ∀ p ∈ d'.products.rows, P p := by
    intro id data hc
    rw [hc.db]
    exact modify (f := data.apply) (fun _ => rfl) fun p => hchange id data p hc
  cases r with
  | createSale env actor dto =>
    obtain ⟨s, hs⟩ := hw
    rcases hs.outcome with ⟨ho, -⟩ | ⟨ho, -⟩
    · intro p hm
      obtain ⟨q, hq, rfl⟩ := ho.taken.row hm
      exact hstock q _ (hd q (Table.mem_of_find? hq))
    · rw [ho.db]
      exact hd
  | createDeuda env actor dto =>
    obtain ⟨x, hx⟩ := hw
    obtain ⟨n, hn⟩ := hx.products
    rw [hn]
    exact modify (f := fun p => { p with stock := n }) (fun _ => rfl) fun p => hstock p n
  | registerAbono env actor id dto =>
    obtain ⟨x, a, now, ha⟩ := hw
    rw [ha.db]
    exact hd
  | createProduct env actor dto =>
    obtain ⟨q, hq, -⟩ := hw
    rw [hq.db]
    exact put (hnew q hq)
  | restockProduct env actor id dto =>
    obtain ⟨q, m, cost, hm⟩ := hw
    have hq := hrestock hm (hd q (Table.mem_of_find? hm.product))
    rw [hm.db]
    exact put (hstock _ _ hq)
  | patchProduct env actor id dto =>
    obtain ⟨data, hc, -⟩ := hw
    exact edit hc
  | changeImage env actor id saved =>
    obtain ⟨data, hc, -⟩ := hw
    exact edit hc
  | deactivateProduct actor id =>
    obtain ⟨data, hc, -⟩ := hw
    exact edit hc
  | reactivateProduct actor id =>
    obtain ⟨data, hc, -⟩ := hw
    exact edit hc
  | addCuota env actor id dto => rw [show d' = _ from hw]; exact hd
  | updateCuota actor id cuotaId dto => rw [show d' = _ from hw]; exact hd
  | deleteCuota actor id cuotaId => rw [show d' = _ from hw]; exact hd

end

end Bazar.Shop
