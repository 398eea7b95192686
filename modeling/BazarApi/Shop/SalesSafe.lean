import BazarApi.Shop.Rules
import BazarApi.Shop.Frame

/- `SalesService.create` keeps the guarantee, and what it answers. The loop invariant is `Selling`: the
   rows of the lines sold so far are locked, and what the transaction sees is the
   committed stock less those lines. It survives what others commit in between,
   because they cannot touch a locked row (`Selling.later`); one item carries it on
   (`sellItem_safe`), and a race lost on the way leaves its evidence in the history. -/
namespace Bazar.Shop

open Txn

/-- The pieces of product `k` among the lines. -/
def lineSold (lines : List Sales.Line) (k : Uuid) : Int :=
  (lines.map fun l => if l.productId = k then l.quantity else 0).sum

theorem lineSold_append (lines : List Sales.Line) (l : Sales.Line) (k : Uuid) :
    lineSold (lines ++ [l]) k = lineSold lines k + if l.productId = k then l.quantity else 0 := by
  simp [lineSold]

theorem lineSold_eq_zero {lines : List Sales.Line} {k : Uuid}
    (h : ∀ l ∈ lines, l.productId ≠ k) : lineSold lines k = 0 := by
  induction lines with
  | nil => rfl
  | cons l lines ih =>
    have hl := h l List.mem_cons_self
    have ih := ih fun l' hl' => h l' (List.mem_cons_of_mem _ hl')
    simp only [lineSold, List.map_cons, List.sum_cons, if_neg hl] at ih ⊢
    omega

theorem Product.take_zero (p : Product) : p.take 0 = p := by
  simp [Product.take]

/-- The loop invariant of a sale. -/
structure Selling (d : Db) (lines : List Sales.Line) (t : Open shop) (h : History shop) : Prop where
  iso : t.iso = .readCommitted
  nonneg : ∀ l ∈ lines, 0 ≤ l.quantity
  locked : ∀ l ∈ lines, ((TableName.product, l.productId), LockMode.update) ∈ t.held
  pending : ∀ w ∈ t.pending, ∃ l ∈ lines, ∃ n,
    w = .updateProduct l.productId { stock := some (.set n) }
  taken : Taken (replay (S := shop) d h) (applyAll (S := shop) (replay (S := shop) d h) t.pending)
    (lineSold lines)
  enough : ∀ l ∈ lines, ∃ p, (replay (S := shop) d h).products.find? l.productId = some p ∧
    lineSold lines l.productId ≤ p.stock
  priced : ∀ l ∈ lines, ∃ p, (replay (S := shop) d h).products.find? l.productId = some p ∧
    l.unitPriceMinor = p.unitPriceMinor ∧ l.unitCostMinor = p.purchaseCostMinor ∧
    Sales.lineSubtotal l.unitPriceMinor l.quantity = .ok l.subtotalMinor

section
variable {d : Db} {lines : List Sales.Line} {t : Open shop}
variable {G : History shop → Commit shop → Prop} {i : Nat} {h h' : History shop}

theorem applyAll_products_congr {d₁ d₂ : Db} {k : Uuid} (ws : List Write)
    (hd : d₁.products.find? k = d₂.products.find? k) :
    (applyAll (S := shop) d₁ ws).products.find? k =
      (applyAll (S := shop) d₂ ws).products.find? k := by
  induction ws generalizing d₁ d₂ with
  | nil => exact hd
  | cons w ws ih => exact ih (products_apply_congr w hd)

theorem Selling.start (iso : t.iso = .readCommitted) (hp : t.pending = []) :
    Selling d [] t h := by
  refine ⟨iso, by simp, by simp, by simp [hp], ?_, by simp, by simp⟩
  intro k
  rw [hp, applyAll_nil]
  cases hk : (replay (S := shop) d h).products.find? k with
  | none => rfl
  | some p => exact congrArg some p.take_zero.symm

/-- Others cannot touch the rows of the lines. -/
theorem Selling.later (hs : Selling d lines t h) (hl : Later (S := shop) G i t.held h h') :
    Selling d lines t h' := by
  have hrow : ∀ l ∈ lines, (replay (S := shop) d h').products.find? l.productId =
      (replay (S := shop) d h).products.find? l.productId := by
    intro l hm
    exact Later.product_eq hl (hs.locked l hm) (by decide)
  refine ⟨hs.iso, hs.nonneg, hs.locked, hs.pending, ?_, ?_, ?_⟩
  · intro k
    by_cases hk : ∃ l ∈ lines, l.productId = k
    · obtain ⟨l, hm, rfl⟩ := hk
      rw [applyAll_products_congr t.pending (hrow l hm), hrow l hm]
      exact hs.taken _
    · have hne : ∀ l ∈ lines, l.productId ≠ k := fun l hm he => hk ⟨l, hm, he⟩
      rw [products_applyAll_ne, lineSold_eq_zero hne]
      · cases (replay (S := shop) d h').products.find? k with
        | none => rfl
        | some p => exact congrArg some p.take_zero.symm
      · intro w hw
        obtain ⟨l, hm, n, rfl⟩ := hs.pending w hw
        intro he
        exact hne l hm (congrArg Prod.snd he)
  · intro l hm
    rw [hrow l hm]
    exact hs.enough l hm
  · intro l hm
    rw [hrow l hm]
    exact hs.priced l hm

/-- More locks change nothing. -/
theorem Selling.lock (hs : Selling d lines t h) (ls : Locks Key) :
    Selling d lines (t.after ls []) h := by
  refine ⟨hs.iso, hs.nonneg, ?_, ?_, ?_, hs.enough, hs.priced⟩
  · intro l hm
    exact List.mem_append_left _ (hs.locked l hm)
  · intro w hw
    rw [Open.after_pending, List.append_nil] at hw
    exact hs.pending w hw
  · rw [Open.after_pending, List.append_nil]
    exact hs.taken

/-- A product the transaction sees is the committed one less its own lines. -/
theorem Selling.seen (hs : Selling d lines t h) {k : Uuid} {contextId : String} {p : Product}
    (hp : (applyAll (S := shop) (replay (S := shop) d h) t.pending).findProduct k contextId = some p) :
    ∃ q, (replay (S := shop) d h).products.find? k = some q ∧ q.contextId = contextId ∧
      p = q.take (lineSold lines k) := by
  obtain ⟨hf, hc⟩ := Option.filter_eq_some_iff.mp hp
  rw [hs.taken k] at hf
  obtain ⟨q, hq, rfl⟩ := Option.map_eq_some_iff.mp hf
  exact ⟨q, hq, of_decide_eq_true hc, rfl⟩

/-- And a committed one of the context is seen. -/
theorem Selling.sees (hs : Selling d lines t h) {k : Uuid} {contextId : String} {q : Product}
    (hq : (replay (S := shop) d h).products.find? k = some q) (hc : q.contextId = contextId) :
    (applyAll (S := shop) (replay (S := shop) d h) t.pending).findProduct k contextId =
      some (q.take (lineSold lines k)) := by
  unfold Db.findProduct
  rw [hs.taken k, hq]
  simp [Product.take, hc]

/-- One more line: its row is locked and its decrement written. -/
theorem Selling.add (hs : Selling d lines t h) {l : Sales.Line} {q : Product}
    (hk : ((TableName.product, l.productId), LockMode.update) ∈ t.held) (hn : 0 ≤ l.quantity)
    (hq : (replay (S := shop) d h).products.find? l.productId = some q)
    (hle : l.quantity ≤ (q.take (lineSold lines l.productId)).stock)
    (hprice : l.unitPriceMinor = q.unitPriceMinor) (hcost : l.unitCostMinor = q.purchaseCostMinor)
    (hsub : Sales.lineSubtotal l.unitPriceMinor l.quantity = .ok l.subtotalMinor)
    (ls : Locks Key) :
    Selling d (lines ++ [l]) (t.after ls [.updateProduct l.productId
      { stock := some (.set ((q.take (lineSold lines l.productId)).stock - l.quantity)) }]) h := by
  have hstock : (q.take (lineSold lines l.productId)).stock =
      q.stock - lineSold lines l.productId := rfl
  refine ⟨hs.iso, ?_, ?_, ?_, ?_, ?_, ?_⟩
  · intro l' hm
    rcases List.mem_append.mp hm with hm | hm
    · exact hs.nonneg l' hm
    · rw [List.mem_singleton.mp hm]
      exact hn
  · intro l' hm
    rw [Open.after_held]
    refine List.mem_append_left _ ?_
    rcases List.mem_append.mp hm with hm | hm
    · exact hs.locked l' hm
    · rw [List.mem_singleton.mp hm]
      exact hk
  · intro w hw
    rcases List.mem_append.mp hw with hw | hw
    · obtain ⟨l', hm, n, rfl⟩ := hs.pending w hw
      exact ⟨l', List.mem_append_left _ hm, n, rfl⟩
    · rw [List.mem_singleton.mp hw]
      exact ⟨l, by simp, _, rfl⟩
  · intro k
    rw [Open.after_pending, applyAll_append]
    change ((Write.updateProduct _ _).apply _).products.find? k = _
    simp only [Write.apply, Table.find?_modify (ProductUpdate.apply_id _), lineSold_append]
    by_cases he : l.productId = k
    · subst he
      rw [if_pos rfl, hs.taken, hq]
      simp [ProductUpdate.apply, IntUpdate.apply, Product.take, Int.sub_sub]
    · have hne : ¬ k = l.productId := fun hx => he hx.symm
      rw [if_neg he, if_neg hne, hs.taken, Int.add_zero]
  · intro l' hm
    rw [lineSold_append]
    by_cases he : l.productId = l'.productId
    · rw [if_pos he, ← he]
      exact ⟨q, hq, by omega⟩
    · rcases List.mem_append.mp hm with hm | hm
      · obtain ⟨p, hp, hle'⟩ := hs.enough l' hm
        rw [if_neg he, Int.add_zero]
        exact ⟨p, hp, hle'⟩
      · rw [List.mem_singleton.mp hm] at he
        exact absurd rfl he
  · intro l' hm
    rcases List.mem_append.mp hm with hm | hm
    · exact hs.priced l' hm
    · rw [List.mem_singleton.mp hm]
      exact ⟨q, hq, hprice, hcost, hsub⟩

end

section
variable {host : Host} {d : Db} {reqs : List Request} {i : Nat} {h₀ h : History shop}
variable {actor : Actor} {dto : CreateSaleDto} {lines : List Sales.Line} {t : Open shop} {β : Type}
variable {Q : β → History shop → Prop} {R : Err → History shop → Prop}

/-! Why a sale is refused. -/

/-- Some line of the cart costs more than an amount may be. -/
def TooDear (d : Db) (dto : CreateSaleDto) (h : History shop) : Prop :=
  ∃ item ∈ dto.items, ∃ h₁ p e, h₁ <+: h ∧
    (replay (S := shop) d h₁).products.find? (uuid item.productId) = some p ∧
    Sales.lineSubtotal p.unitPriceMinor item.quantity.val = .error e

/-- Request `i`, having written nothing, found a sale under its id. -/
def SaleTaken (d : Db) (i : Nat) (dto : CreateSaleDto) (h : History shop) : Prop :=
  ∃ h₁ q s, h₁ ++ [.exec i q] <+: h ∧ Quiet i h₁ ∧
    (replay (S := shop) d h₁).sales.find? (uuid dto.id) = some s

/-- The errors of a sale's transaction, each with what the history shows for it. -/
inductive SaleFailed (d : Db) (i : Nat) (actor : Actor) (dto : CreateSaleDto) (h : History shop) :
    Err → Prop where
  | client (m : String) : SaleFailed d i actor dto h (.badRequest m)
  | unauthorized (m : String) (ha : ¬ Authorized d none actor) :
    SaleFailed d i actor dto h (.forbidden m)
  | lost (m : String) (hr : LostRace d i actor.account.contextId dto h) :
    SaleFailed d i actor dto h (.saleStockConflict m)
  | taken (hs : SaleTaken d i dto h) : SaleFailed d i actor dto h (.uniqueViolation .sale)
  | range (m : String)
    (hr : TooDear d dto h ∨ InStock d i actor.account.contextId dto.items h) :
    SaleFailed d i actor dto h (.rangeError m)

theorem TooDear.mono {h' : History shop} (ht : TooDear d dto h) (hp : h <+: h') :
    TooDear d dto h' := by
  obtain ⟨item, hi, h₁, p, e, hpre, hs⟩ := ht
  exact ⟨item, hi, h₁, p, e, hpre.trans hp, hs⟩

theorem SaleTaken.mono {h' : History shop} (ht : SaleTaken d i dto h) (hp : h <+: h') :
    SaleTaken d i dto h' := by
  obtain ⟨h₁, q, s, hpre, hs⟩ := ht
  exact ⟨h₁, q, s, hpre.trans hp, hs⟩

theorem InStock.mono {contextId : String} {items : List CreateSaleItemDto} {h' : History shop}
    (hs : InStock d i contextId items h) (hp : h <+: h') : InStock d i contextId items h' := by
  intro before item hi
  obtain ⟨h₁, p, hpre, hf⟩ := hs before item hi
  exact ⟨h₁, p, hpre.trans hp, hf⟩

theorem InStock.nil {contextId : String} : InStock d i contextId [] h := by
  intro before item hi
  exact absurd (List.prefix_nil.mp hi) (by simp)

/-- One more line found in stock. -/
theorem InStock.add {contextId : String} {items : List CreateSaleItemDto} {item : CreateSaleItemDto}
    {h₁ : History shop} {p : Product} (hs : InStock d i contextId items h)
    (hpre : h₁ ++ [.exec i (.findProduct (uuid item.productId) contextId)] <+: h)
    (hp : (replay (S := shop) d h₁).products.find? (uuid item.productId) = some p)
    (hle : needed items item ≤ p.stock) : InStock d i contextId (items ++ [item]) h := by
  intro before x hx
  rcases List.prefix_concat_iff.mp hx with he | hx
  · obtain ⟨rfl, hl⟩ := List.append_inj' he rfl
    obtain rfl := List.singleton_inj.mp hl
    exact ⟨h₁, p, hpre, hp, hle⟩
  · exact hs before x hx

theorem LostRace.mono {contextId : String} {h' : History shop} (hr : LostRace d i contextId dto h)
    (hp : h <+: h') : LostRace d i contextId dto h' := by
  obtain ⟨n, rfl⟩ := hp
  obtain ⟨before, item, after, hi, h₁, a, b, h₂, rfl, hc, hs⟩ := hr
  exact ⟨before, item, after, hi, h₁, a, b, h₂ ++ n, by simp, hc, hs⟩

theorem SaleFailed.mono {e : Err} {h' : History shop} (hf : SaleFailed d i actor dto h e)
    (hp : h <+: h') : SaleFailed d i actor dto h' e := by
  cases hf with
  | client m => exact .client m
  | unauthorized m ha => exact .unauthorized m ha
  | lost m hr => exact .lost m (hr.mono hp)
  | taken hs => exact .taken (hs.mono hp)
  | range m hr => exact .range m (hr.imp (fun ht => ht.mono hp) (fun hs => hs.mono hp))

theorem lineSubtotal_error {unitPriceMinor quantity : Int} {e : Err}
    (he : Sales.lineSubtotal unitPriceMinor quantity = .error e) : ∃ m, e = .rangeError m := by
  rcases error_of_bind he with he | ⟨v, he⟩
  · exact assertMinorUnits_error he
  · exact assertMinorUnits_error he

/-- A subtotal is an amount already. -/
theorem lineSubtotal_ok {unitPriceMinor quantity v : Int}
    (hv : Sales.lineSubtotal unitPriceMinor quantity = .ok v) : toDinero v = .ok v := by
  obtain ⟨a, -, hv⟩ := ok_of_bind hv
  obtain ⟨rfl, hr⟩ := assertMinorUnits_ok.mp hv
  exact assertMinorUnits_ok.mpr ⟨rfl, hr⟩

/-- And the price of the pieces. -/
theorem lineSubtotal_eq {unitPriceMinor quantity v : Int}
    (hv : Sales.lineSubtotal unitPriceMinor quantity = .ok v) :
    v = unitPriceMinor * quantity ∧ v ≤ maxMinorUnits := by
  obtain ⟨a, ha, hsub⟩ := ok_of_bind hv
  obtain ⟨rfl, -⟩ := assertMinorUnits_ok.mp ha
  obtain ⟨rfl, -, hr⟩ := assertMinorUnits_ok.mp hsub
  exact ⟨rfl, hr⟩

/-- What is charged: the total and a change in cash, nothing by another method. -/
theorem charge_ok {totalMinor : Int} {cash : Option Int × Option Int}
    (hc : Sales.charge dto totalMinor = .ok cash) :
    (isCashPayment dto.paymentMethod = true → ∃ received change,
      cash = (some received, some change) ∧ received = totalMinor + change ∧ 0 ≤ change) ∧
    (isCashPayment dto.paymentMethod = false → cash = (none, none)) := by
  unfold Sales.charge at hc
  split at hc
  · rename_i hcash
    refine ⟨fun _ => ?_, fun hn => absurd (hcash.symm.trans hn) (by decide)⟩
    split at hc
    · cases hc
    · rename_i received _
      by_cases hlt : received < totalMinor
      · rw [if_pos hlt] at hc
        cases hc
      · rw [if_neg hlt] at hc
        obtain ⟨a, ha, hc⟩ := ok_of_bind hc
        obtain ⟨b, hb, hc⟩ := ok_of_bind hc
        obtain ⟨change, hchange, hc⟩ := ok_of_bind hc
        obtain ⟨rfl, -⟩ := assertMinorUnits_ok.mp ha
        obtain ⟨rfl, -⟩ := assertMinorUnits_ok.mp hb
        obtain ⟨rfl, -⟩ := assertMinorUnits_ok.mp hchange
        cases hc
        exact ⟨_, _, rfl, by omega, by omega⟩
  · rename_i hcash
    cases hc
    exact ⟨fun ht => absurd ht hcash, fun _ => rfl⟩

/-- Charging fails only with client and range errors. -/
theorem charge_error {totalMinor : Int} {e : Err} (he : Sales.charge dto totalMinor = .error e) :
    (∃ m, e = .badRequest m) ∨ ∃ m, e = .rangeError m := by
  unfold Sales.charge at he
  split at he
  · split at he
    · cases he
      exact .inl ⟨_, rfl⟩
    · split at he
      · cases he
        exact .inl ⟨_, rfl⟩
      · rcases error_of_bind he with he | ⟨a, he⟩
        · exact .inr (assertMinorUnits_error he)
        rcases error_of_bind he with he | ⟨b, he⟩
        · exact .inr (assertMinorUnits_error he)
        rcases error_of_bind he with he | ⟨c, he⟩
        · exact .inr (assertMinorUnits_error he)
        cases he
  · cases he

/-! One item, and the cart. -/

/-- What a line is for the stock. -/
def Sales.Line.pair (l : Sales.Line) : Uuid × Int := (l.productId, l.quantity)

/-- The same of a line of the cart. -/
def CreateSaleItemDto.pair (x : CreateSaleItemDto) : Uuid × Int := (uuid x.productId, x.quantity.val)

/-- Lines sold for some lines of the cart took what those need. -/
theorem lineSold_eq_cartSold {items : List CreateSaleItemDto}
    (h : lines.map Sales.Line.pair = items.map CreateSaleItemDto.pair) (k : Uuid) :
    lineSold lines k = cartSold items k := by
  have hl : lineSold lines k = ((lines.map Sales.Line.pair).map
      fun x => if x.1 = k then x.2 else 0).sum := by
    rw [List.map_map]
    rfl
  have hc : cartSold items k = ((items.map CreateSaleItemDto.pair).map
      fun x => if x.1 = k then x.2 else 0).sum := by
    rw [List.map_map]
    rfl
  rw [hl, hc, h]

/-- One item. On the way it either fails, with the evidence of the race if that is
why, or adds its line to the invariant. -/
theorem sellItem_safe {before after : List CreateSaleItemDto} {item : CreateSaleItemDto}
    (hi : dto.items = before ++ item :: after)
    (hsold : lines.map Sales.Line.pair = before.map CreateSaleItemDto.pair) {total : Int}
    {f : Sales.Line × Int → Tx shop β} (l₀ : Later (Commits host d reqs) i [] h₀ h)
    (S : Selling d lines t h) (hin : InStock d i actor.account.contextId before h)
    (hs : ∀ line total' t' h', Later (Commits host d reqs) i [] h₀ h' →
      line.productId = uuid item.productId → line.quantity = item.quantity.val →
      total' = total + line.subtotalMinor → Selling d (lines ++ [line]) t' h' →
      InStock d i actor.account.contextId (before ++ [item]) h' →
      (f (line, total')).Safe d (Commits host d reqs) i Q R t' h')
    (hR : ∀ e h', Later (Commits host d reqs) i [] h₀ h' → SaleFailed d i actor dto h' e → R e h') :
    (Sales.sellItem actor item total >>= f).Safe d (Commits host d reqs) i Q R t h := by
  have fail : ∀ {e : Err} {t' : Open shop} {h'}, SaleFailed d i actor dto h' e →
      Later (Commits host d reqs) i [] h₀ h' →
      (Tx.throw e : Tx shop β).Safe d (Commits host d reqs) i Q R t' h' := by
    intro e t' h' hf l h'' he
    exact hR e h'' (l.trans (he.later.weaken (List.nil_subset _))) (hf.mono he.pre)
  simp only [Sales.sellItem, Tx.bind_assoc]
  refine Tx.Safe.read S.iso (fun v => v.findProduct _ _) (fun _ => rfl) (fun _ => rfl) ?_
  intro h₁ e₁ l₁
  have S₁ := S.later l₁
  have l₁ := l₀.trans (l₁.weaken (List.nil_subset _))
  refine Tx.Safe.orThrow ?_ (fun _ => fail (.client _) l₁)
  intro seen hseen
  refine Tx.Safe.require ?_ (fun _ => fail (.client _) l₁)
  intro _
  refine Tx.Safe.require ?_ (fun _ => fail (.client _) l₁)
  intro hstock
  obtain ⟨p₁, hp₁, hc₁, hseen₁⟩ := (S.later e₁.later).seen hseen
  have htaken := lineSold_eq_cartSold hsold (uuid item.productId)
  have hneeded : needed before item ≤ p₁.stock := by
    rw [hseen₁] at hstock
    simp only [Product.take] at hstock
    unfold needed
    omega
  refine lockProduct_safe S.iso ?_ ?_
  · intro h₂ p e₂ l₂ _
    have S₂ := (S₁.later l₂).lock [((TableName.product, uuid item.productId), .update)]
    have l₂ := l₁.trans (l₂.weaken (List.nil_subset _))
    refine Tx.Safe.read S₂.iso (fun v => v.findProduct _ _) (fun _ => rfl) (fun _ => rfl) ?_
    intro h₃ e₃ l₃
    have S₃ := S₂.later l₃
    have hlock : ((TableName.product, uuid item.productId), LockMode.update) ∈
        (t.after [((TableName.product, uuid item.productId), LockMode.update)] []).held := by
      simp
    have l₃' := l₂.trans (l₃.weaken (List.nil_subset _))
    refine Tx.Safe.orThrow ?_ (fun _ => fail (.client _) l₃')
    intro product hproduct
    obtain ⟨p₃, hp₃, hc₃, hseen₃⟩ := (S₂.later e₃.later).seen hproduct
    have hid : product.id = uuid item.productId := by
      rw [hseen₃]
      exact Table.find?_key hp₃
    refine Tx.Safe.require ?_ (fun _ => fail (.client _) l₃')
    intro _
    refine Tx.Safe.require ?_ ?_
    · intro hle
      have hp₃' : (replay (S := shop) d (h₃ ++ [.exec i (.findProduct (uuid item.productId)
          actor.account.contextId)])).products.find? (uuid item.productId) = some p₃ := by
        rw [replay_sent]
        exact hp₃
      simp only [orNotFound, Tx.bind_assoc]
      refine updateProduct_safe S₃.iso ?_ ?_
      · intro h₄ q e₄ l₄ _ _
        have S₄ := S₃.later l₄
        have hp₄ := (Later.product_eq l₄ hlock (by decide)).trans hp₃'
        have hpre := (e₂.pre.trans (List.prefix_append _ _)).trans (l₃.pre.trans l₄.pre)
        have hin₄ := (hin.mono (e₁.pre.trans ((List.prefix_append _ _).trans hpre))).add hpre hp₁ hneeded
        have hpre₃ := (List.prefix_append _ _).trans l₄.pre
        have l₄ := l₃'.trans (l₄.weaken (List.nil_subset _))
        refine Tx.Safe.orThrow ?_ (fun hn => by cases hn)
        intro _ _
        refine Tx.Safe.ofExcept ?_ ?_
        · intro subtotalMinor hsub
          refine Tx.Safe.ofExcept ?_ ?_
          · intro subtotal hsubtotal
            obtain ⟨heq, -⟩ := assertMinorUnits_ok.mp hsubtotal
            have hadd := S₄.add (l := ⟨product.id, item.quantity.val, product.unitPriceMinor,
              subtotalMinor, product.purchaseCostMinor⟩) (by rw [hid]; exact hlock)
              (le_trans (by decide) item.quantity.pos) (by rw [← hid] at hp₄; exact hp₄)
              (by rw [hid, ← hseen₃]; exact hle) (by rw [hseen₃]; rfl) (by rw [hseen₃]; rfl) hsub
              [((TableName.product, product.id), .noKeyUpdate)]
            have hst : (p₃.take (lineSold lines product.id)).stock = product.stock := by
              rw [hid, ← hseen₃]
            simp only [hst] at hadd
            exact hs _ _ _ _ l₄ hid rfl (congrArg (total + ·) heq) hadd hin₄
          · intro e he
            rw [lineSubtotal_ok hsub] at he
            cases he
        · intro e he
          rw [hseen₃] at he
          obtain ⟨m, rfl⟩ := lineSubtotal_error he
          exact fail (.range m (.inl ⟨item, by rw [hi]; simp, _, p₃, _, hpre₃, hp₃, he⟩)) l₄
      · -- the row is locked, so its update finds it
        intro h₄ e₄ _ hnone
        have hp₄ := (Later.product_eq e₄.later hlock (by decide)).trans hp₃'
        have hf := (S₃.later e₄.later).sees hp₄ hc₃
        obtain ⟨hf, hc⟩ := Option.filter_eq_some_iff.mp hf
        simp only [hid] at hnone
        rw [hf, Option.filter_some, if_pos (by simpa [ProductWhere.holds] using hc)] at hnone
        cases hnone
    · -- the locked read found too little: the race was lost between the two reads
      intro hlt h₄ e₄
      refine hR _ h₄ (l₃'.trans (e₄.later.weaken (List.nil_subset _))) (.lost _ ?_)
      obtain ⟨-, n₂, rfl, hn₂⟩ := e₂
      obtain ⟨-, n₃, rfl, hn₃⟩ := e₃
      obtain ⟨-, n₄, rfl, -⟩ := e₄
      refine ⟨before, item, after, hi, h₁, n₂, n₃, n₄, by simp, ?_, p₁, p₃, hp₁, ?_, hneeded, ?_⟩
      · intro e he
        rcases List.mem_append.mp he with he | he
        · exact (hn₂ _ he).1
        · exact (hn₃ _ he).1
      · simpa using hp₃
      · rw [hseen₃] at hlt
        simp only [Product.take] at hlt
        unfold needed
        omega
  · -- a product seen once is still there for its lock
    intro h₂ e₂ l₂ hnone
    have hp₁' : (replay (S := shop) d (h₁ ++ [.exec i (.findProduct (uuid item.productId)
        actor.account.contextId)])).products.find? (uuid item.productId) = some p₁ := by
      rw [replay_sent]
      exact hp₁
    obtain ⟨q, hq, hv⟩ := Lawful.product_kept e₂.lawful e₂.pre hp₁'
    rw [(S₁.later e₂.later).sees hq (hv.contextId.trans hc₁)] at hnone
    cases hnone

/-- The whole cart. -/
theorem sellItems_safe {before items : List CreateSaleItemDto} (hi : dto.items = before ++ items)
    (hsold : lines.map Sales.Line.pair = before.map CreateSaleItemDto.pair)
    {total : Int} (htotal : total = (lines.map (·.subtotalMinor)).sum)
    {f : List Sales.Line × Int → Tx shop β} (l₀ : Later (Commits host d reqs) i [] h₀ h) (S : Selling d lines t h)
    (hin : InStock d i actor.account.contextId before h)
    (hs : ∀ lines' total' t' h', Later (Commits host d reqs) i [] h₀ h' →
      lines'.map Sales.Line.pair = dto.items.map CreateSaleItemDto.pair →
      total' = (lines'.map (·.subtotalMinor)).sum → Selling d lines' t' h' →
      InStock d i actor.account.contextId dto.items h' →
      (f (lines', total')).Safe d (Commits host d reqs) i Q R t' h')
    (hR : ∀ e h', Later (Commits host d reqs) i [] h₀ h' → SaleFailed d i actor dto h' e → R e h') :
    (Sales.sellItems actor items lines total >>= f).Safe d (Commits host d reqs) i Q R t h := by
  induction items generalizing before lines total t h with
  | nil =>
    rw [List.append_nil] at hi
    exact hs lines total t h l₀ (by rw [hi]; exact hsold) htotal S (by rw [hi]; exact hin)
  | cons item items ih =>
    simp only [Sales.sellItems, Tx.bind_assoc]
    refine sellItem_safe hi hsold l₀ S hin ?_ hR
    intro line total' t' h' l hid hq ht S' hin'
    have hi' : dto.items = (before ++ [item]) ++ items := by
      rw [hi]
      simp
    refine ih hi' ?_ ?_ l S' hin'
    · rw [List.map_append, List.map_append, hsold]
      simp [Sales.Line.pair, CreateSaleItemDto.pair, hid, hq]
    · rw [ht, htotal]
      simp

theorem completed_items (env : Env) (memberId deviceId : Uuid) (occurredAt : Instant)
    (totalMinor : Int) (cash change : Option Int) :
    ((Sales.completed host env actor dto memberId deviceId occurredAt lines totalMinor cash
      change).items.map fun x => (x.productId, x.quantity)) = lines.map Sales.Line.pair := by
  simp only [Sales.completed, List.map_map]
  conv => rhs; rw [← List.zipIdx_map_fst 0 lines, List.map_map]
  rfl

theorem completed_subtotals (env : Env) (memberId deviceId : Uuid) (occurredAt : Instant)
    (totalMinor : Int) (cash change : Option Int) :
    (Sales.completed host env actor dto memberId deviceId occurredAt lines totalMinor cash
      change).items.map (·.subtotalMinor) = lines.map (·.subtotalMinor) := by
  simp only [Sales.completed, List.map_map]
  conv => rhs; rw [← List.zipIdx_map_fst 0 lines, List.map_map]
  rfl

/-- Each item of the row is one of the lines. -/
theorem mem_completed_items {env : Env} {memberId deviceId : Uuid} {occurredAt : Instant}
    {totalMinor : Int} {cash change : Option Int} {x : SaleItem}
    (hx : x ∈ (Sales.completed host env actor dto memberId deviceId occurredAt lines totalMinor cash
      change).items) :
    ∃ l ∈ lines, ∃ id createdAt, x = { id, saleId := uuid dto.id, productId := l.productId
                                       contextId := actor.account.contextId, quantity := l.quantity
                                       unitPriceMinor := l.unitPriceMinor
                                       subtotalMinor := l.subtotalMinor
                                       unitCostMinor := l.unitCostMinor, createdAt } := by
  obtain ⟨⟨l, n⟩, hm, rfl⟩ := List.mem_map.mp hx
  exact ⟨l, List.fst_mem_of_mem_zipIdx hm, _, _, rfl⟩

/-- The row adds up when its lines and its charge do. -/
theorem completed_addsUp {env : Env} {memberId deviceId : Uuid} {occurredAt : Instant}
    {totalMinor : Int} {cash : Option Int × Option Int}
    (htotal : totalMinor = (lines.map (·.subtotalMinor)).sum) (hmax : totalMinor ≤ maxMinorUnits)
    (hcash : Sales.charge dto totalMinor = .ok cash)
    (hlines : ∀ l ∈ lines, Sales.lineSubtotal l.unitPriceMinor l.quantity = .ok l.subtotalMinor) :
    AddsUp (Sales.completed host env actor dto memberId deviceId occurredAt lines totalMinor cash.1
      cash.2) := by
  obtain ⟨hpaid, hexempt⟩ := charge_ok hcash
  refine ⟨?_, ?_, ?_, ?_, ?_⟩
  · rw [completed_subtotals, ← htotal]
    rfl
  · rw [completed_subtotals, ← htotal]
    exact hmax
  · intro x hx
    obtain ⟨l, hl, _, _, rfl⟩ := mem_completed_items hx
    exact (lineSubtotal_eq (hlines l hl)).1
  · intro hm
    obtain ⟨received, change, rfl, he, h0⟩ := hpaid (decide_eq_true hm)
    rw [completed_subtotals, ← htotal]
    exact ⟨received, change, rfl, rfl, he, h0⟩
  · intro hm
    rw [hexempt (decide_eq_false hm)]
    exact ⟨rfl, rfl⟩

theorem soldOf_eq_lineSold {items : List SaleItem}
    (h : (items.map fun x => (x.productId, x.quantity)) = lines.map Sales.Line.pair) (k : Uuid) :
    soldOf items k = lineSold lines k := by
  have hi : soldOf items k = ((items.map fun x => (x.productId, x.quantity)).map
      fun x => if x.1 = k then x.2 else 0).sum := by
    rw [List.map_map]
    rfl
  have hl : lineSold lines k = ((lines.map Sales.Line.pair).map
      fun x => if x.1 = k then x.2 else 0).sum := by
    rw [List.map_map]
    rfl
  rw [hi, hl, h]

/-- Writes of stock change no other table. -/
theorem applyAll_stock_only {ws : List Write} (h : ∀ w ∈ ws, ∃ id data, w = .updateProduct id data)
    (v : Db) : applyAll (S := shop) v ws =
      { v with products := (applyAll (S := shop) v ws).products } := by
  induction ws generalizing v with
  | nil => rfl
  | cons w ws ih =>
    obtain ⟨id, data, rfl⟩ := h w List.mem_cons_self
    rw [applyAll_cons, ih fun w hw => h w (List.mem_cons_of_mem _ hw)]
    rfl

/-- The transaction of a sale commits a completed sale, or leaves an error. -/
theorem createInTx_safe {env : Env} (hreq : reqs[i]? = some (.createSale env actor dto))
    (hq : Quiet i h) {Q : Sale → History shop → Prop}
    (hQ : ∀ s h' c, Later (Commits host d reqs) i [] h h' → c.pid = i →
      SaleWritten host i actor dto d h' (replay (S := shop) d h')
        (applyAll (S := shop) (replay (S := shop) d h') c.writes) s → Q s (h' ++ [.commit c]))
    (hR : ∀ e h', Later (Commits host d reqs) i [] h h' → SaleFailed d i actor dto h' e → R e h') :
    (Sales.createInTx host env actor dto).Safe d (Commits host d reqs) i Q R
      ⟨.readCommitted, h, [], []⟩ h := by
  have fail : ∀ {e : Err} {t' : Open shop} {h'}, SaleFailed d i actor dto h' e →
      Later (Commits host d reqs) i [] h h' →
      (Tx.throw e : Tx shop Sale).Safe d (Commits host d reqs) i Q R t' h' := by
    intro e t' h' hf l h'' he
    exact hR e h'' (l.trans (he.later.weaken (List.nil_subset _))) (hf.mono he.pre)
  simp only [Sales.createInTx, Sales.authorize]
  refine authorizeAs_safe rfl ?_ ?_
  · intro h₁ ids l₁
    refine sellItems_safe (List.nil_append _).symm rfl rfl l₁ (Selling.start rfl rfl) .nil ?_ hR
    intro lines total t h₂ l₂ hlines htotal S hin
    refine Tx.Safe.ofExcept ?_ ?_
    · intro totalMinor hminor
      obtain ⟨rfl, -, hmax⟩ := assertMinorUnits_ok.mp hminor
      refine Tx.Safe.ofExcept ?_ ?_
      · intro cash hcash
        refine Tx.Safe.orThrow ?_ (fun _ => fail (.range _ (.inr hin)) l₂)
        intro occurredAt hocc
        have honly : ∀ w ∈ t.pending, ∃ id data, w = .updateProduct id data := by
          intro w hw
          obtain ⟨l, _, n, rfl⟩ := S.pending w hw
          exact ⟨_, _, rfl⟩
        have hne : ∀ w ∈ t.pending, ∀ id, w.key ≠ (.sale, id) := by
          intro w hw id
          obtain ⟨_, _, rfl⟩ := honly w hw
          simp [Write.key]
        refine create_safe S.iso ?_ ?_
        · intro h₃ e₃ _ hfree h₄ e₄
          generalize hs : Sales.completed host env actor dto ids.1 ids.2 occurredAt lines
            totalMinor cash.1 cash.2 = sale at *
          have hsub : sale.items.map (·.subtotalMinor) = lines.map (·.subtotalMinor) := by
            rw [← hs]
            exact completed_subtotals ..
          have hitems : (sale.items.map fun x => (x.productId, x.quantity)) =
              lines.map Sales.Line.pair := by
            rw [← hs]
            exact completed_items ..
          have hid : sale.id = uuid dto.id := by rw [← hs]; rfl
          have l₄ := (e₃.exec (.create [.sale sale])).trans
            (e₄.later.weaken (List.subset_append_left _ _))
          have S₄ := S.later l₄
          have hfresh : (replay (S := shop) d h₄).sales.find? sale.id = none :=
            eq_none_of_isSome (free_later hfree (fun w hw => hne w hw _) e₄.later
              (List.mem_append_right _ (List.mem_singleton.mpr rfl)))
          have hcompleted : SaleCompleted dto (replay (S := shop) d h₄)
              (applyAll (S := shop) (replay (S := shop) d h₄)
                (t.pending ++ [.insert (.sale sale)])) sale := by
            refine ⟨by rw [← hs]; rfl, by rw [← hs]; rfl, ?_, ?_, ?_, ?_, ?_, ?_, ?_⟩
            · rw [← hs]
              refine completed_addsUp htotal hmax hcash fun l hl => ?_
              obtain ⟨_, -, -, -, hsub⟩ := S₄.priced l hl
              exact hsub
            · intro x hx
              rw [← hs] at hx
              obtain ⟨l, hl, _, _, rfl⟩ := mem_completed_items hx
              obtain ⟨p, hp, hprice, hcost, hsub⟩ := S₄.priced l hl
              obtain ⟨hsub, hle⟩ := lineSubtotal_eq hsub
              exact ⟨p, hp, hprice, hcost, hsub, hle⟩
            · rw [hitems, hlines]
              rfl
            · intro x hx
              rw [← hs] at hx
              obtain ⟨reason, _, rfl⟩ := List.mem_map.mp hx
              simp
            · intro k
              rw [applyAll_append, soldOf_eq_lineSold hitems]
              exact S₄.taken k
            · intro x hx
              have hmem : (x.productId, x.quantity) ∈ lines.map Sales.Line.pair := by
                rw [← hitems]
                exact List.mem_map_of_mem (f := fun x : SaleItem => (x.productId, x.quantity)) hx
              obtain ⟨l, hm, hpair⟩ := List.mem_map.mp hmem
              have hpid : l.productId = x.productId := congrArg Prod.fst hpair
              rw [soldOf_eq_lineSold hitems, ← hpid]
              exact S₄.enough l hm
            · rw [applyAll_append, applyAll_stock_only honly]
              rfl
          have hwritten : SaleWritten host i actor dto d h₄ (replay (S := shop) d h₄)
              (applyAll (S := shop) (replay (S := shop) d h₄)
                (t.pending ++ [.insert (.sale sale)])) sale :=
            ⟨hid, by rw [← hs]; rfl, by rw [← hs]; exact hocc, by rw [← hs]; rfl, hfresh,
              .inl ⟨hcompleted, hin.mono l₄.pre⟩⟩
          refine ⟨⟨_, hreq, .inr ⟨⟨sale, hwritten⟩, trivial⟩⟩, ?_⟩
          exact hQ sale h₄ _ (l₂.trans (l₄.weaken (List.nil_subset _))) rfl hwritten
        · -- another sale has the id
          intro h₃ e₃ l₃ htaken
          have hhas : (replay (S := shop) d h₃).has (.sale, uuid dto.id) = true := by
            rw [← has_applyAll_ne fun w hw => hne w hw (uuid dto.id)]
            exact htaken
          obtain ⟨s, hs⟩ := Option.isSome_iff_exists.mp hhas
          have hq₃ := (l₂.trans (e₃.later.weaken (List.nil_subset _))).since.quiet hq
          exact hR _ _ (l₂.trans (l₃.weaken (List.nil_subset _)))
            (.taken ⟨h₃, _, s, List.prefix_refl _, hq₃, hs⟩)
      · intro e he
        rcases charge_error he with ⟨m, rfl⟩ | ⟨m, rfl⟩
        · exact fail (.client m) l₂
        · exact fail (.range m (.inr hin)) l₂
    · intro e he
      obtain ⟨m, rfl⟩ := assertMinorUnits_error he
      exact fail (.range m (.inr hin)) l₂
  · intro ha h₁ l₁
    exact hR _ h₁ l₁ (.unauthorized _ ha)

/-! The request. -/

/-- Whether the request asks for what the sale records: the same fingerprint, or, for
a sale older than the fingerprint, the same header and items. -/
def SameContent (host : Host) (s : Sale) (dto : CreateSaleDto) : Prop :=
  (dto.occurredAt = some s.occurredAt ∧
    s.requestFingerprint = some (Sales.requestFingerprint host dto s.occurredAt)) ∨
  (s.requestFingerprint.filter (· ≠ "") = none ∧ Sales.isIdempotentReplay host s dto = true)

theorem sameContent_of_replay {s : Sale} (h : Sales.isIdempotentReplay host s dto = true) :
    SameContent host s dto := by
  cases hf : s.requestFingerprint.filter (· ≠ "") with
  | none => exact .inr ⟨hf, h⟩
  | some f =>
    unfold Sales.isIdempotentReplay at h
    rw [hf] at h
    obtain ⟨hh, hfp⟩ := Bool.and_eq_true_iff.mp h
    obtain ⟨-, -, -, -, -, ht⟩ := of_decide_eq_true hh
    obtain ⟨hs, -⟩ := Option.filter_eq_some_iff.mp hf
    exact .inl ⟨ht.symm, by rw [hs, of_decide_eq_true hfp]⟩

theorem SaleWritten.sameContent {d' : Db} {s : Sale}
    (hs : SaleWritten host i actor dto d₀ h d d' s) : SameContent host s dto :=
  .inl ⟨hs.occurredAt, hs.requestFingerprint⟩

/-- The request names the selected person and device. -/
def Selected (actor : Actor) (dto : CreateSaleDto) : Prop :=
  ∃ selection, actor.selection = some selection ∧ dto.memberId = selection.memberId ∧
    dto.deviceId = selection.deviceId

/-- What may keep a sale request from both its success and a 400. -/
inductive SaleExcused (d : Db) (i : Nat) (actor : Actor) (dto : CreateSaleDto)
    (h : History shop) : Prop where
  | unselected (hs : ¬ Selected actor dto)
  | unauthorized (ha : ¬ Authorized d none actor)
  | taken (ht : SaleTaken d i dto h)
  | tooDear (ht : TooDear d dto h)
  | inStock (hs : InStock d i actor.account.contextId dto.items h)
  | lost (hr : LostRace d i actor.account.contextId dto h)

/-- What a sale request is answered. A success shows the committed sale of its id, which
asks for the same; either it was found, or the request wrote it, and the answer says
which. An error the database did not raise by itself wrote nothing. A request whose first
look finds another sale gets 409. Anything else has its reason. -/
def SaleAnswered (host : Host) (d : Db) (i : Nat) (actor : Actor) (dto : CreateSaleDto)
    (r : Except Err Sales.SaleAnswer) (h : History shop) : Prop :=
  match r with
  | .ok a =>
    (∃ s, (replay (S := shop) d h).sales.find? (uuid dto.id) = some s ∧
      SameContent host s dto ∧ a.sale = Sales.response s) ∧
    ((a.created = false ∧ SaleTaken d i dto h) ∨ (a.created = true ∧ ¬ Quiet i h))
  | .error e =>
    (¬ e.spontaneous → Quiet i h) ∧
    (∀ h₁ q h₂ s, h = h₁ ++ .exec i q :: h₂ → (∀ e ∈ h₁, e.pid ≠ i) → Selected actor dto →
      (replay (S := shop) d h₁).findSale (uuid dto.id) actor.account.contextId = some s →
      ¬ SameContent host s dto → e.status = 409 ∨ e.spontaneous) ∧
    (e.status = 400 ∨ e.spontaneous ∨ SaleExcused d i actor dto h)

/-- The request looked for the sale and found none. -/
def SaleUnseen (d : Db) (i : Nat) (actor : Actor) (dto : CreateSaleDto) (h : History shop) : Prop :=
  ∃ h₁ q, h₁ ++ [.exec i q] <+: h ∧
    (replay (S := shop) d h₁).findSale (uuid dto.id) actor.account.contextId = none

theorem SaleUnseen.mono {h' : History shop} (hu : SaleUnseen d i actor dto h) (hp : h <+: h') :
    SaleUnseen d i actor dto h' := by
  obtain ⟨h₁, q, hpre, hf⟩ := hu
  exact ⟨h₁, q, hpre.trans hp, hf⟩

theorem SaleAnswered.conflict {m : String} (hq : Quiet i h) (ht : SaleTaken d i dto h) :
    SaleAnswered host d i actor dto (.error (.conflict m)) h := by
  refine ⟨fun _ => hq, fun _ _ _ _ _ _ _ _ _ => .inl rfl, ?_⟩
  exact .inr (.inr (.taken ht))

theorem SaleAnswered.spontaneous {e : Err} (he : e.spontaneous) :
    SaleAnswered host d i actor dto (.error e) h := by
  exact ⟨fun hn => absurd he hn, fun _ _ _ _ _ _ _ _ _ => .inr he, .inr (.inl he)⟩

/-- An error of the transaction that goes up as it is. -/
theorem SaleAnswered.failed {e : Err} (hl : Lawful (Commits host d reqs) h) (hq : Quiet i h)
    (hu : SaleUnseen d i actor dto h) (hf : e.status = 400 ∨ SaleExcused d i actor dto h) :
    SaleAnswered host d i actor dto (.error e) h := by
  refine ⟨fun _ => hq, ?_, ?_⟩
  · intro h₁ q h₂ s he hn _ hs _
    obtain ⟨h₃, q', hpre, hnone⟩ := hu
    obtain ⟨hs, hc⟩ := Option.filter_eq_some_iff.mp hs
    have hle := prefix_of_first he hn hpre
    have hs₃ := Lawful.sale_kept (hl.of_prefix ((List.prefix_append _ _).trans hpre)) hle hs
    rw [Db.findSale, hs₃, Option.filter_some, if_pos hc] at hnone
    cases hnone
  · exact hf.imp_right .inr

theorem SaleFailed.excused {e : Err} (hf : SaleFailed d i actor dto h e) :
    e.status = 400 ∨ SaleExcused d i actor dto h := by
  cases hf with
  | client m => exact .inl rfl
  | unauthorized m ha => exact .inr (.unauthorized ha)
  | lost m hr => exact .inr (.lost hr)
  | taken ht => exact .inr (.taken ht)
  | range m hr => exact .inr (hr.elim .tooDear .inStock)

/-- A commit that writes nothing is always one of a request's. -/
theorem commits_quiet {r : Request} (hreq : reqs[i]? = some r) (h : History shop) (c : Commit shop)
    (hc : c.pid = i) (hw : c.writes = []) : Commits host d reqs h c :=
  ⟨r, by rw [hc]; exact hreq, .inl hw⟩

theorem replayOr_safe {r : Request} (hreq : reqs[i]? = some r) (hq : Quiet i h)
    {absent : Call shop Sales.SaleAnswer}
    (hs : ∀ h₁ h₂, Extends (Commits host d reqs) i [] h h₁ → Since (Commits host d reqs) i h₁ h₂ →
      h₁ ++ [.exec i (.findSale (uuid dto.id) actor.account.contextId)] <+: h₂ →
      (replay (S := shop) d h₁).findSale (uuid dto.id) actor.account.contextId = none →
      absent.Safe d (Commits host d reqs) i (SaleAnswered host d i actor dto) h₂) :
    (Sales.replayOr host actor dto absent).Safe d (Commits host d reqs) i
      (SaleAnswered host d i actor dto) h := by
  simp only [Sales.replayOr, Sales.findUnique, Call.transaction_bind]
  refine Call.Safe.lookup (fun v => v.findSale _ _) (fun _ => rfl) (fun _ => rfl)
    (commits_quiet hreq) ?_ ?_
  · intro h₁ h₂ e₁ s₁ hp
    cases hf : (replay (S := shop) d h₁).findSale (uuid dto.id) actor.account.contextId with
    | none => exact hs h₁ h₂ e₁ s₁ hp hf
    | some s =>
      show Call.Safe _ _ _ _ (if Sales.isIdempotentReplay host s dto = true then _ else _) _
      obtain ⟨hfind, -⟩ := Option.filter_eq_some_iff.mp hf
      have htaken : SaleTaken d i dto h₂ := ⟨h₁, _, s, hp, e₁.since.quiet hq, hfind⟩
      split
      · rename_i hr
        intro h₃ e₃
        exact ⟨⟨s, Lawful.sale_kept e₃.lawful (s₁.pre.trans e₃.pre) hfind,
          sameContent_of_replay hr, rfl⟩, .inl ⟨rfl, htaken.mono e₃.pre⟩⟩
      · intro h₃ e₃
        exact SaleAnswered.conflict (((e₁.since.trans s₁).trans e₃.since).quiet hq)
          (htaken.mono e₃.pre)
  · intro e h' he _ _ h'' _
    exact SaleAnswered.spontaneous he

/-- The written sale is the one the request asked for, from its commit on. -/
theorem SaleAnswered.created {s : Sale} {c : Commit shop} {h' : History shop}
    (hc : c.pid = i) (hs : SaleWritten host i actor dto d h (replay (S := shop) d h)
      (applyAll (S := shop) (replay (S := shop) d h) c.writes) s)
    (he : Extends (Commits host d reqs) i [] (h ++ [.commit c]) h') :
    SaleAnswered host d i actor dto (.ok ⟨Sales.response s, true⟩) h' := by
  have hfind : (replay (S := shop) d (h ++ [.commit c])).sales.find? (uuid dto.id) = some s := by
    rw [replay_committed, hs.sales, ← hs.id]
    exact Table.find?_put_self
  refine ⟨⟨s, Lawful.sale_kept he.lawful he.pre hfind, hs.sameContent, rfl⟩, .inr ⟨rfl, ?_⟩⟩
  intro hq
  have hw := hq c (he.pre.subset (by simp)) hc
  have hf := hs.fresh
  rw [hw, applyAll_nil] at hs
  have hp : (replay (S := shop) d h).sales.find? s.id = some s := by
    rw [hs.sales]
    exact Table.find?_put_self
  rw [hf] at hp
  cases hp

theorem persistRejection_safe {env : Env} (hreq : reqs[i]? = some (.createSale env actor dto))
    {reason : String} (hq : Quiet i h) (hu : SaleUnseen d i actor dto h)
    (hr : LostRace d i actor.account.contextId dto h) :
    (Sales.persistRejection host env actor dto reason).Safe d (Commits host d reqs) i
      (SaleAnswered host d i actor dto) h := by
  unfold Sales.persistRejection
  cases hocc : dto.occurredAt with
  | none =>
    intro h' he
    exact SaleAnswered.failed he.lawful (he.since.quiet hq) (hu.mono he.pre)
      (.inr (.lost (hr.mono he.pre)))
  | some occurredAt =>
    refine ⟨?_, ?_⟩
    · intro h₁ e₁
      refine create_safe rfl ?_ ?_
      · intro h₂ e₂ _ hfree h₃ e₃
        generalize hs : Sales.rejection host env actor dto occurredAt reason = s at *
        have hid : s.id = uuid dto.id := by rw [← hs]; rfl
        have hfresh : (replay (S := shop) d h₃).sales.find? s.id = none :=
          eq_none_of_isSome (free_later hfree (by simp) e₃.later (List.mem_singleton.mpr rfl))
        have hl := ((e₁.pre.trans e₂.pre).trans (List.prefix_append _ _)).trans e₃.pre
        have hwritten : SaleWritten host i actor dto d h₃ (replay (S := shop) d h₃)
            (applyAll (S := shop) (replay (S := shop) d h₃) [.insert (.sale s)]) s := by
          refine ⟨hid, by rw [← hs]; rfl, by rw [← hs]; exact hocc, by rw [← hs]; rfl, hfresh,
            .inr ⟨⟨by rw [← hs]; rfl, by rw [← hs]; rfl, by rw [← hs]; rfl, ?_, rfl⟩,
              hr.mono hl⟩⟩
          rw [← hs]
          exact ⟨_, rfl, rfl⟩
        refine ⟨⟨_, hreq, .inr ⟨⟨s, hwritten⟩, trivial⟩⟩, ?_⟩
        intro h₄ e₄
        exact SaleAnswered.created rfl hwritten e₄
      · intro h₂ e₂ l₂ hhas
        have s₂ := e₁.since.trans l₂.since
        obtain ⟨s, hs⟩ := Option.isSome_iff_exists.mp hhas
        have htaken : SaleTaken d i dto (h₂ ++ [.exec i (.create
            [.sale (Sales.rejection host env actor dto occurredAt reason)])]) :=
          ⟨h₂, _, s, List.prefix_refl _, (e₁.since.trans e₂.since).quiet hq, hs⟩
        simp only [Row.key, Sales.isSaleIdConflict]
        refine replayOr_safe hreq (s₂.quiet hq) ?_
        intro h₃ h₄ e₃ s₃ _ _ h₅ e₅
        have s₅ := s₂.trans ((e₃.since.trans s₃).trans e₅.since)
        exact SaleAnswered.conflict (s₅.quiet hq)
          (htaken.mono ((e₃.pre.trans s₃.pre).trans e₅.pre))
    · intro e h' he _ _
      cases e <;> simp [Err.spontaneous] at he
      intro h'' _
      exact SaleAnswered.spontaneous trivial

theorem recover_safe {env : Env} (hreq : reqs[i]? = some (.createSale env actor dto)) {err : Err}
    (hq : Quiet i h) (hu : SaleUnseen d i actor dto h) (hf : SaleFailed d i actor dto h err) :
    (Sales.recover host env actor dto err).Safe d (Commits host d reqs) i
      (SaleAnswered host d i actor dto) h := by
  have hthrow : ∀ e h₁, e.status = 400 ∨ SaleFailed d i actor dto h e →
      Since (Commits host d reqs) i h h₁ →
      (Call.throw e : Call shop Sales.SaleAnswer).Safe d (Commits host d reqs) i
        (SaleAnswered host d i actor dto) h₁ := by
    intro e h₁ he s₁ h₂ e₂
    have s₂ := s₁.trans e₂.since
    exact SaleAnswered.failed e₂.lawful (s₂.quiet hq) (hu.mono s₂.pre)
      (he.elim .inl fun hf => (hf.mono s₂.pre).excused)
  cases hf with
  | client m =>
    refine replayOr_safe hreq hq ?_
    intro h₁ h₂ e₁ s₁ _ _
    exact hthrow _ _ (.inl rfl) (e₁.since.trans s₁)
  | taken ht =>
    refine replayOr_safe hreq hq ?_
    intro h₁ h₂ e₁ s₁ _ _ h₃ e₃
    exact SaleAnswered.conflict (((e₁.since.trans s₁).trans e₃.since).quiet hq)
      (ht.mono ((e₁.pre.trans s₁.pre).trans e₃.pre))
  | lost m hr =>
    refine replayOr_safe hreq hq ?_
    intro h₁ h₂ e₁ s₁ _ _
    have s₂ := e₁.since.trans s₁
    exact persistRejection_safe hreq (s₂.quiet hq) (hu.mono s₂.pre) (hr.mono s₂.pre)
  | unauthorized m ha =>
    intro h₁ e₁
    exact hthrow _ h (.inr (.unauthorized m ha)) (.refl (e₁.lawful.of_prefix e₁.pre) i) h₁ e₁
  | range m hr =>
    intro h₁ e₁
    exact hthrow _ h (.inr (.range m hr)) (.refl (e₁.lawful.of_prefix e₁.pre) i) h₁ e₁

/-- `SalesService.create` is safe for a request that has not begun. -/
theorem Sales.create_safe {env : Env} (hreq : reqs[i]? = some (.createSale env actor dto))
    (hn : ∀ e ∈ h, e.pid ≠ i) :
    (Sales.create host env actor dto).Safe d (Commits host d reqs) i
      (SaleAnswered host d i actor dto) h := by
  have hq : Quiet i h := fun c hc hi => absurd hi (hn _ hc)
  -- a request that does not name its selection is refused at once
  have refused : ¬ Selected actor dto →
      (Call.throw Sales.notSelected : Call shop Sales.SaleAnswer).Safe d (Commits host d reqs) i
        (SaleAnswered host d i actor dto) h := by
    intro hsel h' he
    refine ⟨fun _ => he.since.quiet hq, ?_, .inr (.inr (.unselected hsel))⟩
    intro _ _ _ _ _ _ hs
    exact absurd hs hsel
  unfold Sales.create
  cases hsel : actor.selection with
  | none =>
    refine refused ?_
    rintro ⟨s, hs, -⟩
    rw [hsel] at hs
    cases hs
  | some selection =>
    refine Call.Safe.require ?_ ?_
    · intro hid
      refine replayOr_safe hreq hq ?_
      intro h₁ h₂ e₁ s₁ hp hnone
      have hu : SaleUnseen d i actor dto h₂ := ⟨h₁, _, hp, hnone⟩
      have hq₂ := (e₁.since.trans s₁).quiet hq
      refine ⟨?_, ?_⟩
      · intro h₃ e₃
        refine createInTx_safe hreq (e₃.since.quiet hq₂) ?_ ?_
        · intro s h₄ c _ hc hs h₅ e₅
          exact SaleAnswered.created hc hs e₅
        · intro e h₄ l₄ hf
          have s₄ := e₃.since.trans l₄.since
          exact recover_safe hreq (s₄.quiet hq₂) (hu.mono s₄.pre) hf
      · intro e h' he _ _
        cases e <;> simp [Err.spontaneous] at he
        intro h'' _
        exact SaleAnswered.spontaneous trivial
    · intro hid
      refine refused ?_
      rintro ⟨s, hs, hm⟩
      rw [hsel] at hs
      cases hs
      exact hid hm

end

end Bazar.Shop
