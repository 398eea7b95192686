import BazarApi.Txn.WaitFor
import BazarApi.Shop.Runs

/- Who waits for whom over the rows of the products. Every request but a sale asks for
   one product at most. A sale asks for the products of its cart in the cart's order, so
   two carts that name two products the other way round can deadlock; when no product
   comes before itself along the carts, nobody does. -/
namespace Bazar.Shop

open Txn

/-- The rows of products. -/
def IsProduct (k : Key) : Prop := k.1 = .product

instance : DecidablePred IsProduct := fun k => inferInstanceAs (Decidable (k.1 = .product))

/-- Some sale asks for product `k'` for the first time with product `k` in its hands. -/
def Precedes (reqs : List Request) (k k' : Uuid) : Prop :=
  ∃ env actor dto before item, Request.createSale env actor dto ∈ reqs ∧
    before ++ [item] <+: dto.items ∧ uuid item.productId = k' ∧
    k ∈ before.map (fun x => uuid x.productId) ∧ k' ∉ before.map (fun x => uuid x.productId)

/-- The order in which the carts name the products. -/
def CartOrder (reqs : List Request) (k k' : Key) : Prop :=
  Relation.TransGen (Precedes reqs) k.2 k'.2

/-- The product a statement may ask for. -/
def Sql.Touches : Sql → Uuid → Prop
  | .lockProduct id _, k => id = k
  | .updateProduct c _, k => c.id = k
  | .create rows, k => ∃ p, Row.product p ∈ rows ∧ p.id = k
  | _, _ => False

section
variable {reqs : List Request} {α β : Type} {k : Uuid} {held : Locks Key}

theorem createRows_product {rows : List Row} {v : Db} {ws : List Write}
    (hx : createRows rows v = .ok ws) {w : Write} (hw : w ∈ ws) {id : Uuid}
    (hk : w.key = (.product, id)) : ∃ p, Row.product p ∈ rows ∧ p.id = id := by
  rw [createRows_ok hx] at hw
  obtain ⟨row, hm, rfl⟩ := List.mem_map.mp hw
  cases row with
  | product p => exact ⟨p, hm, congrArg Prod.snd hk⟩
  | _ => cases hk

/-- An update writes at most its row. -/
theorem updated_writes {R : Type} {row : Option R} {change : R → R} {w₀ : Write} {r : Option R}
    {ws : List Write} (hx : (.ok (updated row change w₀) : Except Err _) = .ok (r, ws)) {w : Write}
    (hw : w ∈ ws) : w = w₀ := by
  cases row with
  | none =>
    cases hx
    cases hw
  | some a =>
    cases hx
    exact List.mem_singleton.mp hw

/-- A statement asks for products only for writing, and only for those it touches. -/
theorem Sql.product_locks {q : Sql} {v : Db} {r : q.Res} {ws : List Write}
    (hx : Sql.exec q v = .ok (r, ws)) {x : Key × LockMode}
    (hm : x ∈ taken (S := shop) q v ws) (hp : IsProduct x.1) :
    x.2.writes = true ∧ q.Touches x.1.2 := by
  obtain ⟨⟨table, id⟩, m⟩ := x
  obtain rfl : table = .product := hp
  rcases List.mem_append.mp hm with hm | hm
  · cases q with
    | lockProduct id' contextId =>
      simp only [Sql.locks] at hm
      split at hm
      · cases List.mem_singleton.mp hm
        exact ⟨rfl, rfl⟩
      · cases hm
    | lockDeuda id' contextId =>
      simp only [Sql.locks] at hm
      split at hm
      · cases List.mem_singleton.mp hm
      · cases hm
    | _ => cases hm
  · obtain ⟨w, hw, he⟩ := List.mem_map.mp hm
    obtain ⟨hk, rfl⟩ := Prod.mk.inj he
    refine ⟨shop.mode_writes w, ?_⟩
    cases q with
    | create rows =>
      cases hr : createRows rows v with
      | error e =>
        simp only [Sql.exec, hr] at hx
        cases hx
      | ok ws' =>
        simp only [Sql.exec, hr] at hx
        cases hx
        exact createRows_product hr hw hk
    | updateProduct c data =>
      rw [updated_writes hx hw] at hk
      exact congrArg Prod.snd hk
    | updateDeuda id' contextId data =>
      rw [updated_writes hx hw] at hk
      cases hk
    | updateCuota id' contextId data =>
      rw [updated_writes hx hw] at hk
      cases hk
    | deleteCuota id' contextId =>
      rw [updated_writes hx hw] at hk
      cases hk
    | _ =>
      cases hx
      cases hw

/-! One product at most. -/

theorem only_stmt {q : Sql} {f : q.Res → Tx shop β} (hq : ∀ k', q.Touches k' → k' = k)
    (hf : ∀ v r ws, Sql.exec q v = .ok (r, ws) → (f r).Only IsProduct (.product, k)) :
    (Tx.stmt (S := shop) q f).Only IsProduct (.product, k) := by
  intro v r ws hx
  refine ⟨?_, hf v r ws hx⟩
  intro x hm hp
  obtain ⟨hw, ht⟩ := Sql.product_locks hx hm hp
  exact ⟨Prod.ext hp (hq _ ht), hw⟩

theorem only_query_bind {q : Sql} {f : q.Res → Tx shop β} (hq : ∀ k', q.Touches k' → k' = k)
    (hf : ∀ v r ws, Sql.exec q v = .ok (r, ws) → (f r).Only IsProduct (.product, k)) :
    (Tx.query (S := shop) q >>= f).Only IsProduct (.product, k) :=
  only_stmt hq hf

/-- A statement of its own. -/
theorem only_query {q : Sql} (hq : ∀ k', q.Touches k' → k' = k) :
    (Tx.query (S := shop) q).Only IsProduct (.product, k) :=
  only_stmt hq fun _ _ _ _ => trivial

theorem only_create {row : Row} (hr : ∀ p, row = .product p → p.id = k) :
    (create row).Only IsProduct (.product, k) := by
  refine only_query ?_
  rintro k' ⟨p, hm, rfl⟩
  exact hr p (List.mem_singleton.mp hm).symm

theorem only_orNotFound {x : Tx shop (Option α)} (hx : x.Only IsProduct (.product, k)) :
    (orNotFound x).Only IsProduct (.product, k) :=
  hx.bind fun _ => .orThrow _ _ _

theorem only_authorizeAs {role : Option MemberRole} {actor : Actor} :
    (authorizeAs role actor).Only IsProduct (.product, k) := by
  refine Tx.Only.bind (.orThrow _ _ _) fun _ => ?_
  refine Tx.Only.bind (only_query fun _ h => h.elim) fun _ => ?_
  refine Tx.Only.bind (only_query fun _ h => h.elim) fun _ => ?_
  exact Tx.Only.bind (only_query fun _ h => h.elim) fun _ => .orThrow _ _ _

/-- The product an update answers is the one it was sent for, and written. -/
theorem updateProduct_found {c : ProductWhere} {data : ProductUpdate} {v : Db} {p : Product}
    {ws : List Write} (hx : Sql.exec (.updateProduct c data) v = .ok (some p, ws)) :
    p.id = c.id ∧ ws = [.updateProduct c.id data] := by
  simp only [Sql.exec] at hx
  cases hf : (v.products.find? c.id).filter c.holds with
  | none =>
    rw [hf] at hx
    cases hx
  | some q =>
    rw [hf] at hx
    cases hx
    exact ⟨(data.apply_id q).trans (Table.find?_key (Option.filter_eq_some_iff.mp hf).1), rfl⟩

theorem only_takeProduct {actor : Actor} {dto : CreateDeudaDto} (hk : uuid dto.productId = k) :
    (Deudas.takeProduct actor dto).Only IsProduct (.product, k) := by
  refine only_query_bind (fun k' h => h.symm.trans hk) fun _ _ _ _ => ?_
  refine only_query_bind (fun _ h => h.elim) fun v r ws hx => ?_
  refine Tx.Only.orThrow_bind fun product he => ?_
  have hid : product.id = uuid dto.productId := by
    cases hx
    exact Table.find?_key (Option.filter_eq_some_iff.mp he).1
  refine Tx.Only.bind (.require _ _ _) fun _ => ?_
  refine Tx.Only.bind (.require _ _ _) fun _ => ?_
  refine Tx.Only.bind (only_orNotFound (only_query ?_)) fun _ => trivial
  rintro k' rfl
  exact hid.trans hk

theorem only_replay {host : Host} {actor : Actor} {dto : CreateDeudaDto} :
    (Deudas.replay host actor dto).Only IsProduct (.product, k) := by
  unfold Deudas.replay
  split
  · trivial
  · refine only_query_bind (fun _ h => h.elim) fun _ r _ _ => ?_
    cases r with
    | none => trivial
    | some existing =>
      change (if _ then _ else _ : Tx shop _).Only _ _
      split
      · exact Tx.Only.bind (.orThrow _ _ _) fun _ => trivial
      · trivial

theorem only_resolveDeudor {env : Env} {actor : Actor} {debtor : String ⊕ DeudorInputDto} :
    (Deudas.resolveDeudor env actor debtor).Only IsProduct (.product, k) := by
  cases debtor with
  | inl id =>
    refine Tx.Only.bind (only_query fun _ h => h.elim) fun _ => ?_
    exact Tx.Only.bind (.orThrow _ _ _) fun _ => trivial
  | inr input => exact Tx.Only.bind (only_create fun p h => by cases h) fun _ => trivial

theorem only_writeDeuda {env : Env} {dto : CreateDeudaDto} {memberId : Uuid} {deuda : Deuda} :
    (Deudas.writeDeuda env dto memberId deuda).Only IsProduct (.product, k) := by
  refine Tx.Only.bind (only_create fun p h => by cases h) fun _ => ?_
  refine Tx.Only.bind ?_ fun _ => Tx.Only.bind ?_ fun _ => ?_
  · unfold Deudas.writeAbono
    split
    · exact only_create fun p h => by cases h
    · trivial
  · unfold Deudas.writeCuotas
    split
    · refine only_query ?_
      rintro k' ⟨p, hm, -⟩
      obtain ⟨_, -, he⟩ := List.mem_map.mp hm
      cases he
    · trivial
  · refine Tx.Only.bind (only_orNotFound (only_query fun _ h => h.elim)) fun _ => ?_
    split
    · trivial
    · exact Tx.Only.bind (only_orNotFound (only_query fun _ h => h.elim)) fun _ => trivial

theorem Deudas.createInTx_only {host : Host} {env : Env} {actor : Actor} {dto : CreateDeudaDto}
    {debtor : String ⊕ DeudorInputDto} :
    (Deudas.createInTx host env actor dto debtor).Only IsProduct
      (.product, uuid dto.productId) := by
  refine Tx.Only.bind only_authorizeAs fun _ => ?_
  refine Tx.Only.bind only_replay fun r => ?_
  cases r with
  | some receipt => trivial
  | none =>
    refine Tx.Only.bind only_resolveDeudor fun _ => ?_
    refine Tx.Only.bind (only_takeProduct rfl) fun _ => ?_
    refine Tx.Only.bind (.ofExcept _ _) fun _ => ?_
    exact Tx.Only.bind (.ofExcept _ _) fun _ => only_writeDeuda

theorem Deudas.replayAuthorized_only {host : Host} {actor : Actor} {dto : CreateDeudaDto} :
    (Deudas.replayAuthorized host actor dto).Only IsProduct (.product, k) :=
  Tx.Only.bind only_authorizeAs fun _ => only_replay

theorem Deudas.registerAbonoInTx_only {env : Env} {actor : Actor} {id : Uuid}
    {dto : CreateAbonoDto} :
    (Deudas.registerAbonoInTx env actor id dto).Only IsProduct (.product, k) := by
  refine Tx.Only.bind only_authorizeAs fun _ => ?_
  refine Tx.Only.bind (only_query fun _ h => h.elim) fun _ => ?_
  refine Tx.Only.bind (.orThrow _ _ _) fun _ => ?_
  refine Tx.Only.bind (only_query fun _ h => h.elim) fun _ => ?_
  refine Tx.Only.bind (only_query fun _ h => h.elim) fun _ => ?_
  refine Tx.Only.bind (.ofExcept _ _) fun _ => ?_
  refine Tx.Only.bind (only_create fun p h => by cases h) fun _ => ?_
  refine Tx.Only.bind (.ofExcept _ _) fun _ => ?_
  refine Tx.Only.bind ?_ fun _ => ?_
  · unfold Deudas.settle
    split
    · exact Tx.Only.bind (only_orNotFound (only_query fun _ h => h.elim)) fun _ => trivial
    · trivial
  · exact Tx.Only.bind (only_orNotFound (only_query fun _ h => h.elim)) fun _ => trivial

theorem Deudas.addCuotaInTx_only {env : Env} {actor : Actor} {id : Uuid}
    {dto : CuotaPlaneadaInputDto} :
    (Deudas.addCuotaInTx env actor id dto).Only IsProduct (.product, k) := by
  refine Tx.Only.bind only_authorizeAs fun _ => ?_
  refine Tx.Only.bind (only_query fun _ h => h.elim) fun _ => ?_
  refine Tx.Only.bind (.orThrow _ _ _) fun _ => ?_
  exact Tx.Only.bind (only_create fun p h => by cases h) fun _ => trivial

theorem Deudas.updateCuotaInTx_only {actor : Actor} {id cuotaId : Uuid} {dto : UpdateCuotaDto} :
    (Deudas.updateCuotaInTx actor id cuotaId dto).Only IsProduct (.product, k) := by
  refine Tx.Only.bind only_authorizeAs fun _ => ?_
  refine Tx.Only.bind (only_query fun _ h => h.elim) fun _ => ?_
  exact Tx.Only.bind (.orThrow _ _ _) fun _ => only_orNotFound (only_query fun _ h => h.elim)

theorem Deudas.deleteCuotaInTx_only {actor : Actor} {id cuotaId : Uuid} :
    (Deudas.deleteCuotaInTx actor id cuotaId).Only IsProduct (.product, k) := by
  refine Tx.Only.bind only_authorizeAs fun _ => ?_
  refine Tx.Only.bind (only_query fun _ h => h.elim) fun _ => ?_
  exact Tx.Only.bind (.orThrow _ _ _) fun _ => only_orNotFound (only_query fun _ h => h.elim)

theorem only_authorizeProduct {actor : Actor} :
    (Products.authorize actor).Only IsProduct (.product, k) :=
  Tx.Only.bind only_authorizeAs fun _ => trivial

theorem Products.createInTx_only {env : Env} {actor : Actor} {dto : CreateProductDto} :
    (Products.createInTx env actor dto).Only IsProduct
      (.product, (Products.newProduct env actor dto).id) := by
  refine Tx.Only.bind only_authorizeProduct fun _ => ?_
  refine Tx.Only.bind (only_create fun p h => by cases h; rfl) fun _ => ?_
  exact Tx.Only.bind (only_create fun p h => by cases h) fun _ => trivial

theorem Products.mutate_only {env : Env} {actor : Actor} {id : Uuid} {data : ProductUpdate} :
    (Products.mutate env actor id data).Only IsProduct (.product, id) := by
  refine Tx.Only.bind (only_query fun _ h => h.symm) fun _ => ?_
  refine Tx.Only.bind only_authorizeProduct fun _ => ?_
  refine Tx.Only.bind (only_query fun _ h => h.elim) fun _ => ?_
  refine Tx.Only.bind (.orThrow _ _ _) fun _ => ?_
  refine Tx.Only.bind (.require _ _ _) fun _ => ?_
  refine Tx.Only.bind (only_orNotFound (only_query fun _ h => h.symm)) fun _ => ?_
  exact Tx.Only.bind (only_create fun p h => by cases h) fun _ => trivial

theorem only_findProduct {id : Uuid} {contextId : String} :
    (findProduct id contextId).Only IsProduct (.product, k) :=
  only_query fun _ h => h.elim

theorem Products.setActive_only {actor : Actor} {id : Uuid} {active : Bool} :
    (Products.setActive actor id active).Only IsProduct (.product, id) := by
  refine Tx.Only.bind (only_query fun _ h => h.symm) fun _ => ?_
  refine Tx.Only.bind only_authorizeProduct fun _ => ?_
  refine Tx.Only.bind (only_query fun _ h => h.elim) fun _ => ?_
  refine Tx.Only.bind (.orThrow _ _ _) fun product => ?_
  split
  · trivial
  · exact Tx.Only.bind (only_orNotFound (only_query fun _ h => h.symm)) fun _ => trivial

theorem Products.restockInTx_only {env : Env} {actor : Actor} {id : Uuid} {dto : RestockProductDto} :
    (Products.restockInTx env actor id dto).Only IsProduct (.product, id) := by
  refine Tx.Only.bind only_authorizeProduct fun _ => ?_
  refine only_query_bind (fun _ h => h.symm) fun v r ws hx => ?_
  cases r with
  | none => exact Tx.Only.bind (only_query fun _ h => h.elim) fun _ => trivial
  | some incremented =>
    have hid : incremented.id = id := (updateProduct_found hx).1
    refine Tx.Only.bind (.ofExcept _ _) fun nextCost => ?_
    refine Tx.Only.bind ?_ fun _ => ?_
    · unfold Products.writeCost
      split
      · trivial
      · refine only_orNotFound (only_query ?_)
        rintro k' rfl
        exact hid
    · refine Tx.Only.bind (only_create fun p h => by cases h) fun _ => ?_
      exact Tx.Only.bind (only_create fun p h => by cases h) fun _ => trivial

end

/-! The carts. -/

section
variable {reqs : List Request} {β : Type} {held : Locks Key}
variable {before : List CreateSaleItemDto} {item : CreateSaleItemDto}

/-- The products in hand are some of these lines'. -/
def Named (items : List CreateSaleItemDto) (held : Locks Key) : Prop :=
  ∀ y ∈ held, IsProduct y.1 → y.1.2 ∈ items.map fun x => uuid x.productId

/-- The products of these lines are in hand. -/
def InHand (items : List CreateSaleItemDto) (held : Locks Key) : Prop :=
  ∀ k ∈ items.map (fun x => uuid x.productId), ∃ m, ((TableName.product, k), m) ∈ held

theorem Named.append {items : List CreateSaleItemDto} {ls : Locks Key} (hn : Named items held)
    (hl : ∀ x ∈ ls, IsProduct x.1 → x.1.2 ∈ items.map fun x => uuid x.productId) :
    Named items (held ++ ls) := by
  intro y hy hp
  rcases List.mem_append.mp hy with hy | hy
  · exact hn y hy hp
  · exact hl y hy hp

theorem InHand.append {items : List CreateSaleItemDto} (hh : InHand items held) (ls : Locks Key) :
    InHand items (held ++ ls) := by
  intro k hk
  obtain ⟨m, hm⟩ := hh k hk
  exact ⟨m, List.mem_append_left _ hm⟩

theorem Named.line (hn : Named before held) (item : CreateSaleItemDto) :
    Named (before ++ [item]) held := by
  intro y hy hp
  rw [List.map_append]
  exact List.mem_append_left _ (hn y hy hp)

/-- A line asks for its product in order: it has it, or has only earlier ones. -/
theorem climb_line {env : Env} {actor : Actor} {dto : CreateSaleDto}
    (hreq : Request.createSale env actor dto ∈ reqs) (hi : before ++ [item] <+: dto.items)
    (hn : Named (before ++ [item]) held) (hh : InHand before held) {ls : Locks Key}
    (hl : ∀ x ∈ ls, IsProduct x.1 → x.2.writes = true ∧ x.1.2 = uuid item.productId) :
    Climb (S := shop) IsProduct (CartOrder reqs) held ls := by
  intro x hx hp
  obtain ⟨hw, hk⟩ := hl x hx hp
  have hxk : x.1 = (.product, uuid item.productId) := Prod.ext hp hk
  refine ⟨hw, ?_⟩
  rw [hxk]
  by_cases hb : uuid item.productId ∈ before.map fun x => uuid x.productId
  · exact .inl (hh _ hb)
  · by_cases hy : ∃ y ∈ held, y.1 = (TableName.product, uuid item.productId)
    · obtain ⟨⟨_, m⟩, hym, rfl⟩ := hy
      exact .inl ⟨m, hym⟩
    · right
      intro y hym hyp
      have hmem := hn y hym hyp
      rw [List.map_append] at hmem
      rcases List.mem_append.mp hmem with hmem | hmem
      · exact .single ⟨env, actor, dto, before, item, hreq, hi, rfl, hmem, hb⟩
      · exact absurd ⟨y, hym, Prod.ext hyp (List.mem_singleton.mp hmem)⟩ hy

theorem climbs_query_bind {lt : Key → Key → Prop} {q : Sql} {f : q.Res → Tx shop β}
    {Q : β → Locks Key → Prop}
    (hf : ∀ v r ws, Sql.exec q v = .ok (r, ws) →
      (∀ x ∈ taken (S := shop) q v ws, IsProduct x.1 → x.2.writes = true ∧ q.Touches x.1.2) →
      Climb (S := shop) IsProduct lt held (taken (S := shop) q v ws) ∧
        (f r).Climbs IsProduct lt Q (held ++ taken (S := shop) q v ws)) :
    (Tx.query (S := shop) q >>= f).Climbs IsProduct lt Q held :=
  fun v r ws hx => hf v r ws hx fun _ hm hp => Sql.product_locks hx hm hp

/-- A statement that touches no product. -/
theorem climbs_quiet_bind {lt : Key → Key → Prop} {q : Sql} {f : q.Res → Tx shop β}
    {Q : β → Locks Key → Prop} (hq : ∀ k, ¬ q.Touches k)
    (hf : ∀ v r ws, Sql.exec q v = .ok (r, ws) → ∀ ls, (∀ x ∈ ls, ¬ IsProduct x.1) →
      (f r).Climbs IsProduct lt Q (held ++ ls)) :
    (Tx.query (S := shop) q >>= f).Climbs IsProduct lt Q held := by
  refine climbs_query_bind fun v r ws hx ht => ?_
  have hnone : ∀ x ∈ taken (S := shop) q v ws, ¬ IsProduct x.1 := fun x hm hp =>
    hq _ (ht x hm hp).2
  exact ⟨fun x hm hp => absurd hp (hnone x hm), hf v r ws hx _ hnone⟩

theorem sellItem_climbs {env : Env} {actor : Actor} {dto : CreateSaleDto}
    (hreq : Request.createSale env actor dto ∈ reqs) (hi : before ++ [item] <+: dto.items)
    (hn : Named before held) (hh : InHand before held) {total : Int} :
    (Sales.sellItem actor item total).Climbs IsProduct (CartOrder reqs)
      (fun _ held' => Named (before ++ [item]) held' ∧ InHand (before ++ [item]) held') held := by
  have quiet : ∀ {ls : Locks Key}, (∀ x ∈ ls, ¬ IsProduct x.1) → ∀ x ∈ ls, IsProduct x.1 →
      x.1.2 ∈ (before ++ [item]).map fun x => uuid x.productId :=
    fun hl x hm hp => absurd hp (hl x hm)
  have line : ∀ {k}, k = uuid item.productId →
      k ∈ (before ++ [item]).map fun x => uuid x.productId := by
    rintro k rfl
    simp
  unfold Sales.sellItem
  refine climbs_quiet_bind (fun _ h => h.elim) fun _ _ _ _ ls₁ hl₁ => ?_
  have hn₁ := (hn.line item).append (quiet hl₁)
  have hh₁ := hh.append ls₁
  refine Tx.Climbs.orThrow fun _ _ => Tx.Climbs.require fun _ => Tx.Climbs.require fun _ => ?_
  refine climbs_query_bind fun v₂ _ ws₂ _ ht₂ => ⟨climb_line hreq hi hn₁ hh₁ ?_, ?_⟩
  · intro x hm hp
    exact ⟨(ht₂ x hm hp).1, (ht₂ x hm hp).2.symm⟩
  have hn₂ := hn₁.append fun x hm hp => line (ht₂ x hm hp).2.symm
  have hh₂ := hh₁.append (taken (S := shop) (.lockProduct (uuid item.productId)
    actor.account.contextId) v₂ ws₂)
  refine climbs_quiet_bind (fun _ h => h.elim) fun _ _ _ hx₃ ls₃ hl₃ => ?_
  have hn₃ := hn₂.append (quiet hl₃)
  have hh₃ := hh₂.append ls₃
  refine Tx.Climbs.orThrow fun product hp => ?_
  have hid : product.id = uuid item.productId := by
    cases hx₃
    exact Table.find?_key (Option.filter_eq_some_iff.mp hp).1
  refine Tx.Climbs.require fun _ => Tx.Climbs.require fun _ => ?_
  rw [orNotFound, Tx.bind_assoc]
  refine climbs_query_bind fun v₄ r₄ ws₄ hx₄ ht₄ => ⟨climb_line hreq hi hn₃ hh₃ ?_, ?_⟩
  · intro x hm hp
    exact ⟨(ht₄ x hm hp).1, (ht₄ x hm hp).2.symm.trans hid⟩
  have hn₄ := hn₃.append fun x hm hp => line ((ht₄ x hm hp).2.symm.trans hid)
  have hh₄ := hh₃.append (taken (S := shop) (.updateProduct
    { id := product.id, contextId := actor.account.contextId }
    { stock := some (.set (product.stock - item.quantity.val)) }) v₄ ws₄)
  refine Tx.Climbs.orThrow fun updated hu => ?_
  refine Tx.Climbs.ofExcept fun _ _ => Tx.Climbs.ofExcept fun _ _ => ⟨hn₄, ?_⟩
  intro k hk
  rw [List.map_append] at hk
  rcases List.mem_append.mp hk with hk | hk
  · exact hh₄ k hk
  · obtain rfl := List.mem_singleton.mp hk
    rw [hu] at hx₄
    obtain ⟨-, hw⟩ := updateProduct_found hx₄
    refine ⟨.noKeyUpdate, List.mem_append_right _ (List.mem_append_right _ ?_)⟩
    change ((TableName.product, uuid item.productId), LockMode.noKeyUpdate) ∈ _
    rw [hw, ← hid]
    exact List.mem_singleton.mpr rfl

theorem sellItems_climbs {env : Env} {actor : Actor} {dto : CreateSaleDto}
    (hreq : Request.createSale env actor dto ∈ reqs) {items : List CreateSaleItemDto}
    (hi : dto.items = before ++ items) (hn : Named before held) (hh : InHand before held)
    {lines : List Sales.Line} {total : Int} :
    (Sales.sellItems actor items lines total).Climbs IsProduct (CartOrder reqs)
      (fun _ _ => True) held := by
  induction items generalizing before lines total held with
  | nil => trivial
  | cons item items ih =>
    have hi' : dto.items = (before ++ [item]) ++ items := by
      rw [hi]
      simp
    refine (sellItem_climbs hreq (hi' ▸ List.prefix_append _ _) hn hh).bind ?_
    rintro ⟨line, total'⟩ held' ⟨hn', hh'⟩
    exact ih hi' hn' hh'

theorem authorizeAs_climbs {lt : Key → Key → Prop} {role : Option MemberRole} {actor : Actor}
    {f : Uuid × Uuid → Tx shop β} {Q : β → Locks Key → Prop} (hn : Named [] held)
    (hf : ∀ ids held', Named [] held' → (f ids).Climbs IsProduct lt Q held') :
    (authorizeAs role actor >>= f).Climbs IsProduct lt Q held := by
  have more : ∀ {held' ls : Locks Key}, Named [] held' → (∀ x ∈ ls, ¬ IsProduct x.1) →
      Named [] (held' ++ ls) :=
    fun hn' hl => hn'.append fun x hm hp => absurd hp (hl x hm)
  simp only [authorizeAs, Tx.bind_assoc]
  refine Tx.Climbs.orThrow fun _ _ => ?_
  refine climbs_quiet_bind (fun _ h => h.elim) fun _ _ _ _ _ hl₁ => ?_
  refine climbs_quiet_bind (fun _ h => h.elim) fun _ _ _ _ _ hl₂ => ?_
  refine climbs_quiet_bind (fun _ h => h.elim) fun _ _ _ _ _ hl₃ => ?_
  exact Tx.Climbs.orThrow fun ids _ => hf ids _ (more (more (more hn hl₁) hl₂) hl₃)

/-- A request of one transaction that touches one product. -/
theorem climbs_transaction {lt : Key → Key → Prop} {α : Type} {body : Tx shop α} {k : Key}
    (hb : body.Only IsProduct k) :
    (Call.transaction .readCommitted body).Climbs (S := shop) IsProduct lt :=
  ⟨hb.climbs (by simp), fun r => Call.Climbs.ofExcept r⟩

theorem Sales.replayOr_climbs {lt : Key → Key → Prop} {host : Host} {actor : Actor}
    {dto : CreateSaleDto} {absent : Call shop Sales.SaleAnswer}
    (ha : absent.Climbs (S := shop) IsProduct lt) :
    (Sales.replayOr host actor dto absent).Climbs (S := shop) IsProduct lt := by
  refine Call.Climbs.transaction_bind ?_ fun r => ?_
  · exact Tx.Only.climbs (k := (.product, ⟨""⟩)) (only_query (by exact fun _ h => h.elim)) (by simp)
  · cases r with
    | none => exact ha
    | some persisted =>
      change (if _ then _ else _ : Call shop _).Climbs (S := shop) _ _
      split <;> trivial

theorem Sales.persistRejection_climbs {lt : Key → Key → Prop} {host : Host} {env : Env}
    {actor : Actor} {dto : CreateSaleDto} {reason : String} :
    (Sales.persistRejection host env actor dto reason).Climbs (S := shop) IsProduct lt := by
  unfold Sales.persistRejection
  split
  · trivial
  · refine ⟨Tx.Only.climbs (k := (.product, ⟨""⟩)) (only_create fun p h => by cases h) (by simp), ?_⟩
    intro r
    cases r with
    | ok sale => trivial
    | error error =>
      change (if _ then _ else _ : Call shop _).Climbs (S := shop) _ _
      split
      · exact Sales.replayOr_climbs trivial
      · trivial

theorem Sales.recover_climbs {lt : Key → Key → Prop} {host : Host} {env : Env} {actor : Actor}
    {dto : CreateSaleDto} {err : Err} :
    (Sales.recover host env actor dto err).Climbs (S := shop) IsProduct lt := by
  unfold Sales.recover
  split
  · exact Sales.replayOr_climbs trivial
  · exact Sales.replayOr_climbs trivial
  · exact Sales.replayOr_climbs Sales.persistRejection_climbs
  · trivial

theorem Sales.create_climbs {host : Host} {env : Env} {actor : Actor} {dto : CreateSaleDto}
    (hreq : Request.createSale env actor dto ∈ reqs) :
    (Sales.create host env actor dto).Climbs (S := shop) IsProduct (CartOrder reqs) := by
  unfold Sales.create
  split
  · trivial
  · unfold Call.require
    split
    · refine Sales.replayOr_climbs ⟨?_, ?_⟩
      · refine authorizeAs_climbs (by simp [Named]) fun ids held' hn => ?_
        refine (sellItems_climbs hreq (List.nil_append _).symm hn (by simp [InHand])).bind ?_
        rintro ⟨lines, total⟩ held' -
        refine Tx.Climbs.ofExcept fun _ _ => Tx.Climbs.ofExcept fun _ _ => ?_
        refine Tx.Climbs.orThrow fun _ _ => ?_
        refine climbs_quiet_bind ?_ fun _ _ _ _ _ _ => trivial
        rintro k ⟨p, hm, -⟩
        cases List.mem_singleton.mp hm
      · intro r
        cases r with
        | ok sale => trivial
        | error err => exact Sales.recover_climbs
    · trivial

theorem Deudas.create_climbs {lt : Key → Key → Prop} {host : Host} {env : Env} {actor : Actor}
    {dto : CreateDeudaDto} : (Deudas.create host env actor dto).Climbs (S := shop) IsProduct lt := by
  unfold Deudas.create
  split
  · trivial
  · refine ⟨Deudas.createInTx_only.climbs (by simp), ?_⟩
    intro r
    cases r with
    | ok receipt => trivial
    | error error =>
      change (Deudas.recover host actor dto error).Climbs (S := shop) _ _
      unfold Deudas.recover
      split
      · trivial
      · refine Call.Climbs.transaction_bind
          (Tx.Only.climbs (k := (.product, ⟨""⟩)) Deudas.replayAuthorized_only (by simp)) fun r => ?_
        cases r with
        | some winner => trivial
        | none =>
          change (if _ then _ else _ : Call shop _).Climbs (S := shop) _ _
          split <;> trivial

/-- Every request asks for products in the order of the carts. -/
theorem Request.climbs {host : Host} {r : Request} (hr : r ∈ reqs) :
    (r.call host).Climbs (S := shop) IsProduct (CartOrder reqs) := by
  cases r with
  | createSale env actor dto => exact Call.Climbs.map (Sales.create_climbs hr)
  | createDeuda env actor dto => exact Call.Climbs.map Deudas.create_climbs
  | registerAbono env actor id dto =>
    exact Call.Climbs.map
      (climbs_transaction (k := (.product, ⟨""⟩)) Deudas.registerAbonoInTx_only)
  | addCuota env actor id dto =>
    exact Call.Climbs.map (climbs_transaction (k := (.product, ⟨""⟩)) Deudas.addCuotaInTx_only)
  | updateCuota actor id cuotaId dto =>
    exact Call.Climbs.map (climbs_transaction (k := (.product, ⟨""⟩)) Deudas.updateCuotaInTx_only)
  | deleteCuota actor id cuotaId =>
    exact Call.Climbs.map (climbs_transaction (k := (.product, ⟨""⟩)) Deudas.deleteCuotaInTx_only)
  | createProduct env actor dto =>
    exact Call.Climbs.map (climbs_transaction Products.createInTx_only)
  | patchProduct env actor id dto =>
    refine Call.Climbs.map ?_
    unfold Products.patch Call.require
    split
    · exact climbs_transaction Products.mutate_only
    · trivial
  | changeImage env actor id saved =>
    refine Call.Climbs.map ?_
    unfold Products.image
    refine Call.Climbs.transaction_bind (Tx.Only.climbs (k := (.product, ⟨""⟩))
      only_findProduct (by simp)) fun r => ?_
    cases r with
    | none => trivial
    | some _ =>
      cases saved with
      | error e => trivial
      | ok path => exact climbs_transaction Products.mutate_only
  | restockProduct env actor id dto =>
    exact Call.Climbs.map (climbs_transaction Products.restockInTx_only)
  | deactivateProduct actor id => exact Call.Climbs.map (climbs_transaction Products.setActive_only)
  | reactivateProduct actor id => exact Call.Climbs.map (climbs_transaction Products.setActive_only)

end

/-- When no product comes before itself along the carts of the requests, no run of them
ever deadlocks on products. -/
theorem no_deadlock_in_order (host : Host) (d₀ : Db) (reqs : List Request) (s : Sys shop Answer)
    (ho : ∀ k, ¬ Relation.TransGen (Precedes reqs) k k) (hr : Reachable host d₀ reqs s) :
    ¬ s.Deadlocked (S := shop) d₀ IsProduct := by
  have htrans : ∀ a b c, CartOrder reqs a b → CartOrder reqs b c → CartOrder reqs a c :=
    fun _ _ _ h h' => h.trans h'
  refine Sys.no_deadlock htrans (fun k => ho k.2) hr.ok.apart (Sys.Reach.climbs hr ?_)
  intro p hp
  obtain ⟨c, hc, rfl⟩ := List.mem_map.mp hp
  obtain ⟨r, hm, rfl⟩ := List.mem_map.mp hc
  exact Request.climbs hm

/-- A rank that grows along every cart is an order of them all. -/
theorem order_of_rank {reqs : List Request} (rank : Uuid → Nat)
    (hr : ∀ k k', Precedes reqs k k' → rank k < rank k') (k : Uuid) :
    ¬ Relation.TransGen (Precedes reqs) k k := by
  intro hk
  have hlt : ∀ {a b}, Relation.TransGen (Precedes reqs) a b → rank a < rank b := by
    intro a b hab
    induction hab with
    | single h => exact hr _ _ h
    | tail _ h ih => exact ih.trans (hr _ _ h)
  exact lt_irrefl _ (hlt hk)

/-- Two carts that name two products in the same order. -/
def Demo.aligned : List Request :=
  [.createSale (env 1) actor (sale "one" [item "a", item "b"] (by decide) (by decide)),
    .createSale (env 2) actor (sale "two" [item "a", item "b"] (by decide) (by decide))]

/-- Two carts that name them the other way round. -/
def Demo.crossing : List Request :=
  [.createSale (env 1) actor (sale "one" [item "a", item "b"] (by decide) (by decide)),
    .createSale (env 2) actor (sale "two" [item "b", item "a"] (by decide) (by decide))]

/-- Each takes its first product and looks at its second, if the first lets it. -/
def Demo.crossingSteps : List Nat := List.replicate 12 0 ++ List.replicate 12 1

theorem no_deadlock_in_order_aligned :
    ¬ (Demo.run Demo.aligned (List.replicate 12 0 ++ List.replicate 8 1)).Deadlocked (S := shop)
      Demo.db IsProduct := by
  refine no_deadlock_in_order Demo.host Demo.db Demo.aligned _
    (order_of_rank (fun k => if k = uuid "a" then 0 else 1) ?_) (Demo.reachable (by decide))
  rintro k k' ⟨env, actor, dto, before, line, hm, hp, rfl, hk, hk'⟩
  have hitems : dto.items = [Demo.item "a", Demo.item "b"] := by
    rcases List.mem_cons.mp hm with he | hm
    · cases he
      rfl
    · cases List.mem_singleton.mp hm
      rfl
  rw [hitems] at hp
  match before with
  | [] => cases hk
  | [x] =>
    obtain ⟨hx, hp⟩ := List.cons_prefix_cons.mp hp
    obtain ⟨hl, -⟩ := List.cons_prefix_cons.mp hp
    rw [List.mem_singleton.mp hk, hx, hl]
    decide
  | x :: y :: rest =>
    have hlen := hp.length_le
    simp at hlen

theorem deadlock_crossing :
    ∃ s, Reachable Demo.host Demo.db Demo.crossing s ∧
      s.Deadlocked (S := shop) Demo.db IsProduct := by
  refine ⟨Demo.run Demo.crossing Demo.crossingSteps, Demo.reachable (by decide), 0, ?_⟩
  have h : (Demo.run Demo.crossing Demo.crossingSteps).Waits (S := shop) Demo.db IsProduct 0 1 ∧
      (Demo.run Demo.crossing Demo.crossingSteps).Waits (S := shop) Demo.db IsProduct 1 0 := by
    decide
  exact .tail (.single h.1) h.2

end Bazar.Shop
