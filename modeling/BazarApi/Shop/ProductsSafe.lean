import BazarApi.Shop.DeudasSafe

/- The operations on products keep the guarantee. Each writes one product row: an
   edit sets columns other than the stock, whatever it read before; a restock adds
   to the row its own `UPDATE` holds, and records in the movement the stock that
   this row had. -/
namespace Bazar.Shop

open Txn

section
variable {host : Host} {d : Db} {reqs : List Request} {i : Nat} {h : History shop}
variable {actor : Actor} {t : Open shop}

/-! Creation. -/

theorem Products.create_safe {env : Env} {dto : CreateProductDto}
    (hreq : reqs[i]? = some (.createProduct env actor dto)) :
    (Products.create env actor dto).Safe d (Commits host d reqs) i (fun _ _ => True) h := by
  refine transaction_safe ?_
  intro h₀ _ _
  simp only [Products.createInTx, Products.authorize, Tx.bind_assoc]
  refine authorizeAs_safe rfl ?_ (fun _ _ _ => trivial)
  intro h₁ ids _
  refine Shop.create_safe rfl ?_ (fun _ _ _ _ => trivial)
  intro h₂ _ _ hfree
  refine Shop.create_safe rfl ?_ (fun _ _ _ _ => trivial)
  intro h₃ _ l₃ hfree₃ h₄ e₄
  have l₄ := l₃.trans (e₄.later.weaken (List.subset_append_left _ _))
  have haudit : (replay (S := shop) d h₄).productAudits.find? (env.serverId 1) = none :=
    eq_none_of_isSome (free_later hfree₃ (by simp [Write.key, Row.key]) e₄.later
      (List.mem_append_right _ (List.mem_singleton.mpr rfl)))
  have hfresh : (replay (S := shop) d h₄).products.find? (Products.newProduct env actor dto).id = none :=
    eq_none_of_isSome (free_later hfree (by simp) l₄ (List.mem_singleton.mpr rfl))
  refine ⟨⟨_, hreq, .inr ⟨⟨Products.newProduct env actor dto, ⟨hfresh, rfl, ?_, ?_, ?_,
    ⟨_, rfl, dto.purchaseCostMinor.nonneg, dto.purchaseCostMinor.le⟩,
    ⟨_, haudit, rfl, rfl, rfl, rfl⟩, rfl⟩, rfl⟩, trivial⟩⟩, trivial⟩
  · change 0 ≤ Products.initialStock dto ∧ Products.initialStock dto ≤ maxMinorUnits
    unfold Products.initialStock
    split
    · decide
    · cases hs : dto.initialStock with
      | none => decide
      | some a => exact ⟨a.nonneg, a.le⟩
  · intro hu
    change dto.tipo = .unica at hu
    change Products.initialStock dto = 1
    simp only [Products.initialStock, hu]
  · exact dto.unitPriceMinor.nonneg

/-! Edits. -/

/-- From now on, a product once read stays as it was read, as long as nobody guesses an
identifier: the transaction holds it, or had asked for it before it was there. -/
def Kept (host : Host) (d : Db) (reqs : List Request) (i : Nat) (contextId : String) (id : Uuid)
    (held : Locks Key) (h : History shop) : Prop :=
  ∀ h₁ h₂ p, Later (Commits host d reqs) i held h h₁ → Later (Commits host d reqs) i held h₁ h₂ →
    FreshIds h₂ → (replay (S := shop) d h₁).findProduct id contextId = some p →
    (replay (S := shop) d h₂).products.find? id = some p

theorem Kept.of_lock {contextId : String} {id : Uuid} {held : Locks Key}
    (hk : ((TableName.product, id), LockMode.update) ∈ held) :
    Kept host d reqs i contextId id held h := by
  intro h₁ h₂ p _ l₂ _ hp
  rw [Later.product_eq l₂ hk (by decide)]
  exact (Option.filter_eq_some_iff.mp hp).1

theorem Kept.of_unguessed {contextId : String} {id : Uuid} {held : Locks Key}
    (hn : (replay (S := shop) d h).findProduct id contextId = none) :
    Kept host d reqs i contextId id held (h ++ [.exec i (.lockProduct id contextId)]) := by
  intro h₁ h₂ p l₁ l₂ hf hp
  rw [product_unguessed l₁.lawful (hf.of_prefix l₂.pre) l₁.pre hn] at hp
  cases hp

/-- An edit commits its columns and an audit row. -/
theorem mutateLocked_safe {env : Env} {id : Uuid} {data : ProductUpdate}
    (hg : ∀ h c, c.pid = i → ProductChanged h id (replay (S := shop) d h)
      (applyAll (S := shop) (replay (S := shop) d h) c.writes) data → Commits host d reqs h c)
    (hs : data.stock = none) (hp : ∀ v ∈ data.unitPriceMinor, 0 ≤ v)
    (hcost : ∀ c, data.purchaseCostMinor = some (some c) → IsAmount c)
    (hk : Kept host d reqs i actor.account.contextId id t.held h)
    (ht : t.iso = .readCommitted) (hw : t.pending = []) :
    (Products.mutateLocked env actor id data).Safe d (Commits host d reqs) i (fun _ _ => True)
      (fun _ _ => True) t h := by
  simp only [Products.mutateLocked, Products.authorize, Tx.bind_assoc]
  refine authorizeAs_safe ht ?_ (fun _ _ _ => trivial)
  intro h₁ ids l₁
  refine Tx.Safe.read ht (fun v => v.findProduct _ _) (fun _ => rfl) (fun _ => rfl) ?_
  intro h₂ e₂ l₂
  refine Tx.Safe.orThrow ?_ (fun _ _ _ => trivial)
  intro before hbefore
  refine Tx.Safe.require ?_ (fun _ _ _ => trivial)
  intro hclear
  simp only [orNotFound, Tx.bind_assoc]
  refine updateProduct_safe ht ?_ ?_
  · intro h₃ p e₃ l₃ hfind _
    refine Tx.Safe.orThrow ?_ (fun hn => by cases hn)
    intro product hproduct
    refine create_safe ht ?_ (fun _ _ _ _ => trivial)
    intro h₄ _ l₄ hfree h₅ e₅
    have l₅ := l₄.trans (e₅.later.weaken (List.subset_append_left _ _))
    refine ⟨hg _ _ rfl ?_, trivial⟩
    change ProductChanged h₅ id _ (applyAll (S := shop) _ (t.pending ++ [_] ++ [_])) data
    rw [hw]
    refine ⟨hs, hp, hcost, .inr fun hf => ?_, rfl⟩
    -- what was read is still there, at the update and at the commit
    rw [hw, applyAll_nil] at hbefore hfind
    have held : ∀ x ∈ t.held, x ∈ (t.after [((.product, id), .noKeyUpdate)]
        [.updateProduct id data]).held := fun x hx => List.mem_append_left _ hx
    have hread₃ := hk h₂ h₃ before (l₁.trans e₂.later)
      (((Extends.refl e₂.lawful i t.held).exec _).trans e₃.later)
      (hf.of_prefix ((List.prefix_append _ _).trans l₅.pre)) hbefore
    have hread₅ := hk h₂ h₅ before (l₁.trans e₂.later)
      (((Extends.refl e₂.lawful i t.held).exec _).trans ((e₃.exec _).trans (l₅.weaken held))) hf hbefore
    obtain rfl : p = before := Option.some.inj (hfind.symm.trans hread₃)
    cases hproduct
    refine ⟨p, hread₅, ⟨_, eq_none_of_isSome (free_later hfree ?_ e₅.later
      (List.mem_append_right _ (List.mem_singleton.mpr rfl))), rfl, rfl, rfl, rfl⟩, ?_⟩
    · intro w hm
      change w ∈ t.pending ++ [_] at hm
      rw [hw] at hm
      rw [List.mem_singleton.mp hm]
      simp [Write.key, Row.key]
    · intro hsome
      change (data.purchaseCostMinor.getD p.purchaseCostMinor).isSome
      cases hd : data.purchaseCostMinor with
      | none => exact hsome
      | some v =>
        cases v with
        | some c => rfl
        | none =>
          rcases hclear with hnone | hne
          · rw [hnone] at hsome
            cases hsome
          · exact absurd hd hne
  · intro _ _ _ _
    exact Tx.Safe.orThrow (fun _ hn => by cases hn) (fun _ _ _ => trivial)

theorem mutate_safe {env : Env} {id : Uuid} {data : ProductUpdate}
    (hg : ∀ h c, c.pid = i → ProductChanged h id (replay (S := shop) d h)
      (applyAll (S := shop) (replay (S := shop) d h) c.writes) data → Commits host d reqs h c)
    (hs : data.stock = none) (hp : ∀ v ∈ data.unitPriceMinor, 0 ≤ v)
    (hcost : ∀ c, data.purchaseCostMinor = some (some c) → IsAmount c) :
    (Call.transaction .readCommitted (Products.mutate env actor id data)).Safe d
      (Commits host d reqs) i (fun _ _ => True) h := by
  refine transaction_safe ?_
  intro h₀ _ _
  simp only [Products.mutate]
  refine lockProduct_safe rfl ?_ ?_
  · intro h₁ _ _ _ _
    exact mutateLocked_safe hg hs hp hcost (.of_lock (List.mem_singleton.mpr rfl)) rfl rfl
  · intro h₁ _ _ hnone
    exact mutateLocked_safe hg hs hp hcost (.of_unguessed hnone) rfl rfl

theorem Products.patch_safe {env : Env} {id : String} {dto : PatchProductDto}
    (hreq : reqs[i]? = some (.patchProduct env actor id dto)) :
    (Products.patch env actor id dto).Safe d (Commits host d reqs) i (fun _ _ => True) h := by
  refine Call.Safe.require ?_ (fun _ _ _ => trivial)
  intro _
  refine mutate_safe ?_ rfl ?_ ?_
  · intro h c hc hd
    exact ⟨.patchProduct env actor id dto, by rw [hc]; exact hreq, .inr ⟨⟨_, hd, rfl⟩, trivial⟩⟩
  · intro v hv
    obtain ⟨a, _, rfl⟩ := Option.map_eq_some_iff.mp hv
    exact a.nonneg
  · intro c hc
    obtain ⟨cost, _, hcost⟩ := Option.map_eq_some_iff.mp hc
    obtain ⟨a, _, rfl⟩ := Option.map_eq_some_iff.mp hcost
    exact ⟨a.nonneg, a.le⟩

theorem Products.image_safe {env : Env} {id : String} {saved : Except Err String}
    (hreq : reqs[i]? = some (.changeImage env actor id saved)) :
    (Products.image env actor id saved).Safe d (Commits host d reqs) i (fun _ _ => True) h := by
  simp only [Products.image, Call.transaction_bind]
  refine Call.Safe.lookup (fun v => v.findProduct _ _) (fun _ => rfl) (fun _ => rfl) ?_ ?_
    (fun _ _ _ _ _ _ _ => trivial)
  · intro h c hc hw
    exact ⟨.changeImage env actor id saved, by rw [hc]; exact hreq, .inl hw⟩
  · intro h₁ h₂ _ _ _
    cases (replay (S := shop) d h₁).findProduct (uuid id) actor.account.contextId with
    | none => exact fun _ _ => trivial
    | some _ =>
      cases saved with
      | error e => exact fun _ _ => trivial
      | ok path =>
        refine mutate_safe ?_ rfl (by simp) (by simp)
        intro h c hc hd
        exact ⟨.changeImage env actor id (.ok path), by rw [hc]; exact hreq,
          .inr ⟨⟨_, hd, rfl⟩, trivial⟩⟩

/-- Setting the active flag commits that column, or nothing. -/
theorem setActiveLocked_safe {id : Uuid} {active : Bool} {r : Request} (hreq : reqs[i]? = some r)
    (hg : ∀ h c, c.pid = i → ProductChanged h id (replay (S := shop) d h)
      (applyAll (S := shop) (replay (S := shop) d h) c.writes) { active := some active } →
      Commits host d reqs h c)
    (ht : t.iso = .readCommitted) (hw : t.pending = []) :
    (Products.setActiveLocked actor id active).Safe d (Commits host d reqs) i (fun _ _ => True)
      (fun _ _ => True) t h := by
  simp only [Products.setActiveLocked, Products.authorize, Tx.bind_assoc]
  refine authorizeAs_safe ht ?_ (fun _ _ _ => trivial)
  intro h₁ ids _
  refine Tx.Safe.read ht (fun v => v.findProduct _ _) (fun _ => rfl) (fun _ => rfl) ?_
  intro h₂ _ _
  refine Tx.Safe.orThrow ?_ (fun _ _ _ => trivial)
  intro product _
  split
  · intro h₃ _
    exact ⟨⟨r, hreq, .inl hw⟩, trivial⟩
  · simp only [orNotFound, Tx.bind_assoc]
    refine updateProduct_safe ht ?_ ?_
    · intro h₃ p _ _ _ _
      refine Tx.Safe.orThrow ?_ (fun hn => by cases hn)
      intro updated _ h₄ _
      refine ⟨hg _ _ rfl ?_, trivial⟩
      change ProductChanged _ id _ (applyAll (S := shop) _ (t.pending ++ [_])) _
      rw [hw]
      exact ⟨rfl, by simp, by simp, .inl ⟨rfl, fun _ => rfl⟩, rfl⟩
    · intro _ _ _ _
      exact Tx.Safe.orThrow (fun _ hn => by cases hn) (fun _ _ _ => trivial)

theorem setActive_safe {id : Uuid} {active : Bool} {r : Request} (hreq : reqs[i]? = some r)
    (hg : ∀ h c, c.pid = i → ProductChanged h id (replay (S := shop) d h)
      (applyAll (S := shop) (replay (S := shop) d h) c.writes) { active := some active } →
      Commits host d reqs h c) :
    (Call.transaction .readCommitted (Products.setActive actor id active)).Safe d
      (Commits host d reqs) i (fun _ _ => True) h := by
  refine transaction_safe ?_
  intro h₀ _ _
  simp only [Products.setActive]
  refine lockProduct_safe rfl ?_ ?_
  · intro h₁ _ _ _ _
    exact setActiveLocked_safe hreq hg rfl rfl
  · intro h₁ _ _ _
    exact setActiveLocked_safe hreq hg rfl rfl

/-! Restocking. -/

/-- The row as its own `UPDATE` left it, then with its new cost. -/
theorem put_cost {p : Product} {n : Int} {cost : Option Int} {T : Table Product} {id : Uuid}
    (hp : T.find? id = some p) :
    (T.modify id (ProductUpdate.apply { stock := some (.increment n) })).modify id
        (ProductUpdate.apply { purchaseCostMinor := some cost }) =
      T.put { p with stock := p.stock + n, purchaseCostMinor := cost } := by
  have hid : p.id = id := Table.find?_key hp
  rw [Table.modify_of_find? hp]
  have hf : (T.put (ProductUpdate.apply { stock := some (.increment n) } p)).find? id =
      some (ProductUpdate.apply { stock := some (.increment n) } p) := by
    rw [← hid]
    exact Table.find?_put_self
  rw [Table.modify_of_find? hf]
  exact Table.put_put rfl

/-- The average of two costs by pieces, as `nextProductCost` rounds it. -/
def weightedAverage (stock current quantity purchase : Int) : Int :=
  (2 * (stock * current + quantity * purchase) + (stock + quantity)) / (2 * (stock + quantity))

/-- What `nextProductCost` answers where its guards let it. -/
def costAfter (stockBefore : Int) (costBefore : Option Int) (quantity : Int)
    (unitCost : Option Int) : Option Int :=
  match unitCost with
  | none => none
  | some purchase =>
    if stockBefore = 0 then some purchase
    else costBefore.map fun current => weightedAverage stockBefore current quantity purchase

theorem assertWholeNumber_ok {value least : Int} {name : String}
    (h : Products.assertWholeNumber value name least = .ok ()) : least ≤ value := by
  unfold Products.assertWholeNumber at h
  split at h
  · cases h
  · omega

/-- An answer went through every guard, and the cost it names is an amount. -/
theorem nextProductCost_ok {stockBefore : Int} {costBeforeMinor : Option Int} {quantity : Int}
    {unitCostMinor next : Option Int}
    (h : Products.nextProductCost stockBefore costBeforeMinor quantity unitCostMinor = .ok next) :
    0 ≤ stockBefore ∧ 1 ≤ quantity ∧
      next = costAfter stockBefore costBeforeMinor quantity unitCostMinor ∧
      ∀ c ∈ next, IsAmount c := by
  obtain ⟨_, hstock, h⟩ := ok_of_bind h
  obtain ⟨_, hquantity, h⟩ := ok_of_bind h
  have hstock := assertWholeNumber_ok hstock
  have hquantity := assertWholeNumber_ok hquantity
  refine ⟨hstock, hquantity, ?_⟩
  cases unitCostMinor with
  | none =>
    cases h
    exact ⟨rfl, fun _ hc => by cases hc⟩
  | some unitCost =>
    obtain ⟨_, hunit, hpaid⟩ := ok_of_bind h
    obtain ⟨u, hu, hbought⟩ := ok_of_bind hpaid
    obtain ⟨purchase, hpurchase, hcost⟩ := ok_of_bind hbought
    obtain ⟨rfl, -⟩ := assertMinorUnits_ok.mp hu
    obtain ⟨rfl, -, hmax⟩ := assertMinorUnits_ok.mp hpurchase
    have hunit := assertWholeNumber_ok hunit
    by_cases hzero : stockBefore = 0
    · rw [if_pos hzero] at hcost
      cases hcost
      refine ⟨(if_pos hzero).symm, ?_⟩
      rintro c ⟨⟩
      exact ⟨hunit, hmax⟩
    · rw [if_neg hzero] at hcost
      cases costBeforeMinor with
      | none =>
        cases hcost
        exact ⟨(if_neg hzero).symm, fun _ hc => by cases hc⟩
      | some costBefore =>
        obtain ⟨_, hbefore, hcost⟩ := ok_of_bind hcost
        obtain ⟨b, hb, hcost⟩ := ok_of_bind hcost
        obtain ⟨current, hcurrent, hcost⟩ := ok_of_bind hcost
        obtain ⟨a, ha, hcost⟩ := ok_of_bind hcost
        obtain ⟨average, haverage, hcost⟩ := ok_of_bind hcost
        obtain ⟨rfl, -⟩ := assertMinorUnits_ok.mp hb
        obtain ⟨rfl, -⟩ := assertMinorUnits_ok.mp hcurrent
        obtain ⟨rfl, -⟩ := assertMinorUnits_ok.mp ha
        obtain ⟨rfl, -, hle⟩ := assertMinorUnits_ok.mp haverage
        cases hcost
        have hbefore := assertWholeNumber_ok hbefore
        refine ⟨(if_neg hzero).symm, ?_⟩
        rintro c ⟨⟩
        refine ⟨Int.ediv_nonneg ?_ (by omega), hle⟩
        have h1 := Int.mul_nonneg hstock hbefore
        have h2 := Int.mul_nonneg (le_trans zero_le_one hquantity) hunit
        omega

/-- From the guarded increment on: what is still to be written, and the commit. -/
theorem restocked_safe {env : Env} {id : Uuid} {dto : RestockProductDto} {p product : Product}
    {memberId : Uuid} {cost : Option Int}
    (hg : ∀ h c p m cost, c.pid = i →
      Restocked actor.account.contextId id dto (replay (S := shop) d h)
        (applyAll (S := shop) (replay (S := shop) d h) c.writes) p m cost → Commits host d reqs h c)
    (ht : t.iso = .readCommitted)
    (hlock : ((TableName.product, id), LockMode.noKeyUpdate) ∈ t.held)
    (hp : (replay (S := shop) d h).products.find? id = some p)
    (hc : p.contextId = actor.account.contextId) (htipo : p.tipo = .cantidad)
    (hactive : p.active = true) (hroom : p.stock ≤ maxMinorUnits - dto.quantity.val)
    (hproduct : product = { p with stock := p.stock + dto.quantity.val, purchaseCostMinor := cost })
    (hcost : cost = p.purchaseCostMinor ∨ ∃ c, cost = some c ∧ IsAmount c)
    (hnext : ∃ next, Products.nextProductCost p.stock p.purchaseCostMinor dto.quantity.val
      (dto.unitCostMinor.map (·.val)) = .ok next ∧ cost = next.or p.purchaseCostMinor)
    (hw : ∀ w ∈ t.pending, w.key = (.product, id))
    (happ : ∀ v : Db, v.products.find? id = some p → applyAll (S := shop) v t.pending =
      { v with products := v.products.put product }) :
    (Shop.create (.productAudit (Products.auditRow (env.serverId 0) (env.now 0) memberId product
        (some p))) >>= fun _ =>
      Shop.create (.stockMovement (Products.movementRow env actor.account.contextId memberId dto
        p.stock product)) >>= fun _ =>
      (Tx.ret ⟨product, Products.movementRow env actor.account.contextId memberId dto p.stock
        product⟩ : Tx shop Products.RestockAnswer)).Safe d (Commits host d reqs) i
      (fun _ _ => True) (fun _ _ => True) t h := by
  refine create_safe ht ?_ (fun _ _ _ _ => trivial)
  intro h₁ _ l₁ hfree₁
  refine create_safe ht ?_ (fun _ _ _ _ => trivial)
  intro h₂ _ l₂ hfree h₃ e₃
  have hid : p.id = id := Table.find?_key hp
  have l₃ := l₂.trans (e₃.later.weaken (List.subset_append_left _ _))
  have hp₃ : (replay (S := shop) d h₃).products.find? id = some p := by
    rw [Later.product_eq (d := d) l₃ (List.mem_append_left _ hlock) (by decide),
      Later.product_eq (d := d) l₁ hlock (by decide)]
    exact hp
  refine ⟨hg _ _ p (Products.movementRow env actor.account.contextId memberId dto p.stock product)
    cost rfl ?_, trivial⟩
  have hfresh : (replay (S := shop) d h₃).stockMovements.find? (env.serverId 1) = none := by
    refine eq_none_of_isSome (free_later hfree ?_ e₃.later
      (List.mem_append_right _ (List.mem_singleton.mpr rfl)))
    intro w hw'
    rcases List.mem_append.mp hw' with hw' | hw'
    · rw [hw w hw']
      simp [Row.key]
    · rw [List.mem_singleton.mp hw']
      simp [Row.key, Write.key]
  have haudit : (replay (S := shop) d h₃).productAudits.find? (env.serverId 0) = none := by
    refine eq_none_of_isSome (free_later hfree₁ ?_ l₃
      (List.mem_append_right _ (List.mem_singleton.mpr rfl)))
    intro w hw'
    rw [hw w hw']
    simp [Row.key]
  change Restocked _ id dto _ (applyAll (S := shop) _ (t.pending ++ [_] ++ [_])) p _ cost
  rw [applyAll_append, applyAll_append, happ _ hp₃, hproduct]
  exact ⟨hp₃, hc, htipo, hactive, by omega, hid, rfl, rfl, rfl, hfresh, hcost, hnext,
    ⟨_, haudit, rfl, rfl, rfl, rfl⟩, rfl⟩

theorem Products.restock_safe {env : Env} {id : String} {dto : RestockProductDto}
    (hreq : reqs[i]? = some (.restockProduct env actor id dto)) :
    (Products.restock env actor id dto).Safe d (Commits host d reqs) i (fun _ _ => True) h := by
  have hg : ∀ h c p m cost, c.pid = i →
      Restocked actor.account.contextId (uuid id) dto (replay (S := shop) d h)
        (applyAll (S := shop) (replay (S := shop) d h) c.writes) p m cost →
      Commits host d reqs h c := by
    intro h c p m cost hc hr
    exact ⟨.restockProduct env actor id dto, by rw [hc]; exact hreq, .inr ⟨⟨p, m, cost, hr⟩, trivial⟩⟩
  refine transaction_safe ?_
  intro h₀ _ _
  simp only [Products.restockInTx, Products.authorize, Tx.bind_assoc]
  refine authorizeAs_safe rfl ?_ (fun _ _ _ => trivial)
  intro h₁ ids _
  refine updateProduct_safe rfl ?_ ?_
  · intro h₂ p e₂ _ hp hc
    have hp' : (replay (S := shop) d (h₂ ++ [.exec i (.updateProduct
        { id := uuid id, contextId := actor.account.contextId, tipo := some .cantidad
          active := some true, stockLte := some (maxMinorUnits - dto.quantity.val) }
        { stock := some (.increment dto.quantity.val) })])).products.find? (uuid id) = some p := by
      rw [replay_sent]
      exact hp
    have hid : p.id = uuid id := Table.find?_key hp
    obtain ⟨hctx, htipo, hactive, hroom⟩ := of_decide_eq_true hc
    have hstock : p.stock + dto.quantity.val - dto.quantity.val = p.stock := by omega
    refine Tx.Safe.ofExcept ?_ (fun _ _ _ _ => trivial)
    intro nextCost hnext
    have hinc : ProductUpdate.apply { stock := some (.increment dto.quantity.val) } p =
        { p with stock := p.stock + dto.quantity.val } := rfl
    have hnext' : Products.nextProductCost p.stock p.purchaseCostMinor dto.quantity.val
        (dto.unitCostMinor.map (·.val)) = .ok nextCost := by
      rw [← hstock]
      exact hnext
    by_cases hcost : nextCost = none ∨ nextCost = p.purchaseCostMinor
    · -- the cost stays
      simp only [hinc, hstock, Products.writeCost, if_pos hcost]
      refine restocked_safe hg rfl (List.mem_singleton.mpr rfl) hp'
        hctx (htipo _ rfl) (hactive _ rfl) (hroom _ rfl) rfl (.inl rfl) ⟨nextCost, hnext', ?_⟩ ?_ ?_
      · rcases hcost with rfl | rfl
        · rfl
        · exact (Option.or_self).symm
      · intro w hw
        rw [List.mem_singleton.mp hw]
        rfl
      · intro v hv
        change { v with products := v.products.modify _ _ } = _
        rw [Table.modify_of_find? hv]
        rfl
    · have hrange : nextCost = p.purchaseCostMinor ∨ ∃ c, nextCost = some c ∧ IsAmount c := by
        cases hv : nextCost with
        | none => exact absurd (.inl hv) hcost
        | some c => exact .inr ⟨c, rfl, (nextProductCost_ok hnext).2.2.2 c hv⟩
      have hpaid : nextCost = nextCost.or p.purchaseCostMinor := by
        cases hv : nextCost with
        | none => exact absurd (.inl hv) hcost
        | some c => rfl
      simp only [hinc, hstock, Products.writeCost, if_neg hcost, orNotFound, Tx.bind_assoc]
      refine updateProduct_safe rfl ?_ ?_
      · intro h₃ q e₃ l₃ hq _
        have hrow : ∀ v : Db, v.products.find? (uuid id) = some p →
            (applyAll (S := shop) v [.updateProduct (uuid id)
              { stock := some (.increment dto.quantity.val) }]).products.find? p.id =
            some { p with stock := p.stock + dto.quantity.val } := by
          intro v hv
          change (v.products.modify (uuid id) _).find? p.id = _
          rw [Table.find?_modify (ProductUpdate.apply_id _), if_pos hid, hv]
          rfl
        have hq' := hrow _
          ((Later.product_eq (d := d) e₃.later (List.mem_singleton.mpr rfl) (by decide)).trans hp')
        have hpq : q = { p with stock := p.stock + dto.quantity.val } :=
          Option.some.inj (hq.symm.trans hq')
        refine Tx.Safe.orThrow ?_ (fun hn => by cases hn)
        intro product he
        have hproduct : product = { p with
            stock := p.stock + dto.quantity.val, purchaseCostMinor := nextCost } := by
          cases he
          rw [hpq]
          rfl
        refine restocked_safe hg rfl
          (List.mem_append_left _ (List.mem_singleton.mpr rfl))
          ((Later.product_eq (d := d) l₃ (List.mem_singleton.mpr rfl) (by decide)).trans hp')
          hctx (htipo _ rfl) (hactive _ rfl) (hroom _ rfl) hproduct hrange
          ⟨nextCost, hnext', hpaid⟩ ?_ ?_
        · intro w hw
          rcases List.mem_append.mp hw with hw | hw
          · rw [List.mem_singleton.mp hw]
            rfl
          · rw [List.mem_singleton.mp hw]
            exact congrArg _ hid
        · intro v hv
          change { v with products := (v.products.modify (uuid id) _).modify p.id _ } = _
          rw [hid, put_cost hv, hproduct]
      · intro _ _ _ _
        exact Tx.Safe.orThrow (fun _ hn => by cases hn) (fun _ _ _ => trivial)
  · intro _ _ _ _
    refine Tx.Safe.read rfl (fun v => v.findProduct _ _) (fun _ => rfl) (fun _ => rfl) ?_
    intro _ _ _ _ _
    trivial

theorem Products.deactivate_safe {id : String}
    (hreq : reqs[i]? = some (.deactivateProduct actor id)) :
    (Products.deactivate actor id).Safe d (Commits host d reqs) i (fun _ _ => True) h := by
  refine setActive_safe hreq ?_
  intro h c hc hd
  exact ⟨.deactivateProduct actor id, by rw [hc]; exact hreq, .inr ⟨⟨_, hd, rfl⟩, trivial⟩⟩

theorem Products.reactivate_safe {id : String}
    (hreq : reqs[i]? = some (.reactivateProduct actor id)) :
    (Products.reactivate actor id).Safe d (Commits host d reqs) i (fun _ _ => True) h := by
  refine setActive_safe hreq ?_
  intro h c hc hd
  exact ⟨.reactivateProduct actor id, by rw [hc]; exact hreq, .inr ⟨⟨_, hd, rfl⟩, trivial⟩⟩

end

end Bazar.Shop
