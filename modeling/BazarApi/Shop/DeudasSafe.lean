import BazarApi.Shop.Rules
import BazarApi.Shop.Frame

/- `DeudasService.create` keeps the guarantee, and what it answers. A creation is
   followed through its stages by `Opening` and `Drafted`: the product row it took is
   held, so the stock it computed is still the committed one at the commit, and every
   row it creates is claimed. -/
namespace Bazar.Shop

open Txn

/-! A product nobody knows of yet. -/

theorem FreshIds.of_prefix {h h' : History shop} (hf : FreshIds h') (hp : h <+: h') :
    FreshIds h := by
  obtain ⟨n, rfl⟩ := hp
  intro h₁ c h₂ he
  exact hf h₁ c (h₂ ++ n) (by rw [he]; simp)

theorem products_apply_none {d : Db} {w : Write} {k : Uuid} (h : d.products.find? k = none)
    (hw : ∀ p, w = .insert (.product p) → p.id ≠ k) : (w.apply d).products.find? k = none := by
  cases w with
  | insert row =>
    cases row with
    | product p => exact (Table.find?_put_ne (Ne.symm (hw p rfl))).trans h
    | _ => exact h
  | updateProduct id data =>
    simp only [Write.apply, Table.find?_modify data.apply_id]
    split
    · rename_i hk
      rw [← hk, h]
      rfl
    · exact h
  | _ => exact h

section
variable {host : Host} {d : Db} {reqs : List Request} {i : Nat} {h h' h₁ : History shop}

/-- A product that was not there when its lock was asked for is not there later: its
creation would have come after the request that names it. -/
theorem product_unguessed {k : Uuid} {contextId : String} (hl : Lawful (Commits host d reqs) h)
    (hf : FreshIds h) (hp : h₁ ++ [.exec i (.lockProduct k contextId)] <+: h)
    (hn : (replay (S := shop) d h₁).findProduct k contextId = none) :
    (replay (S := shop) d h).findProduct k contextId = none := by
  cases hk : (replay (S := shop) d h₁).products.find? k with
  | some p =>
    obtain ⟨p', hp', hv⟩ := Lawful.product_kept hl ((List.prefix_append _ _).trans hp) hk
    rw [Db.findProduct, hk, Option.filter_some] at hn
    rw [Db.findProduct, hp', Option.filter_some, hv.contextId]
    split at hn
    · cases hn
    · rename_i hc
      exact if_neg hc
  | none =>
    -- by induction over the events since: no commit among them creates it
    obtain ⟨n, rfl⟩ := hp
    have hnone : (replay (S := shop) d
        (h₁ ++ [.exec i (.lockProduct k contextId)] ++ n)).products.find? k = none := by
      clear hl
      induction n using List.reverseRecOn with
      | nil =>
        rw [List.append_nil, replay_sent]
        exact hk
      | append_singleton n e ih =>
        rw [← List.append_assoc] at hf ⊢
        have ih := ih (hf.of_prefix (List.prefix_append _ _))
        rw [replay_append]
        cases e with
        | exec j q => exact ih
        | commit c =>
          change (applyAll (S := shop) _ c.writes).products.find? k = none
          have hc : ∀ p, Write.insert (.product p) ∈ c.writes → p.id ≠ k := by
            rintro p hm rfl
            exact hf _ c [] rfl p hm i contextId (by simp)
          generalize replay (S := shop) d _ = v at ih
          generalize c.writes = ws at hc
          induction ws generalizing v with
          | nil => exact ih
          | cons w ws ihw =>
            refine ihw _ (products_apply_none ih ?_) fun p hm => hc p (List.mem_cons_of_mem _ hm)
            rintro p rfl
            exact hc p List.mem_cons_self
    rw [Db.findProduct, hnone, Option.filter_none]

end

/-! What a creation writes. -/

def debtorWrites (r : Option Deudor) : List Write := r.toList.map fun r => .insert (.deudor r)

def abonoWrites (a : Option Abono) : List Write := a.toList.map fun a => .insert (.abono a)

def cuotaWrites (cs : List CuotaPlaneada) : List Write := cs.map fun c => .insert (.cuotaPlaneada c)

def receiptWrites (id : Uuid) (a : Option DeudaResponse) : List Write :=
  a.toList.map fun a => .updateDeuda id { creationResponse := some a }

def stockWrite (product : Product) (cantidad : Int) : Write :=
  .updateProduct product.id { stock := some (.set (product.stock - cantidad)) }

/-- All the writes of a creation, in order. -/
def debtWrites (r : Option Deudor) (product : Product) (cantidad : Int) (x : Deuda)
    (a : Option Abono) (cs : List CuotaPlaneada) (receipt : Option DeudaResponse) : List Write :=
  debtorWrites r ++ [stockWrite product cantidad] ++ ([.insert (.deuda x)] ++ abonoWrites a ++
    cuotaWrites cs ++ receiptWrites x.id receipt)

theorem applyAll_debtorWrites (v : Db) (r : Option Deudor) :
    applyAll (S := shop) v (debtorWrites r) =
      { v with deudores := r.elim v.deudores v.deudores.put } := by
  cases r <;> rfl

theorem applyAll_abonoWrites (v : Db) (a : Option Abono) :
    applyAll (S := shop) v (abonoWrites a) = { v with abonos := a.elim v.abonos v.abonos.put } := by
  cases a <;> rfl

theorem applyAll_cuotaWrites (v : Db) (cs : List CuotaPlaneada) :
    applyAll (S := shop) v (cuotaWrites cs) =
      { v with cuotasPlaneadas := cs.foldl Table.put v.cuotasPlaneadas } := by
  induction cs generalizing v with
  | nil => rfl
  | cons c cs ih => exact ih _

theorem applyAll_receiptWrites {v : Db} {T : Table Deuda} {x : Deuda}
    (hx : x.creationResponse = none) (hv : v.deudas = T.put x) (receipt : Option DeudaResponse) :
    applyAll (S := shop) v (receiptWrites x.id receipt) =
      { v with deudas := T.put { x with creationResponse := receipt } } := by
  cases receipt with
  | none =>
    change v = _
    rw [← hx, ← hv]
  | some a =>
    have hf : v.deudas.find? x.id = some x := by
      rw [hv]
      exact Table.find?_put_self
    change { v with deudas := v.deudas.modify x.id _ } = _
    rw [Table.modify_of_find? hf, hv, Table.put_put (by rfl)]
    rfl

/-- The database after a creation. -/
theorem applyAll_debtWrites (v : Db) (r : Option Deudor) (product : Product) (cantidad : Int)
    {x : Deuda} (hx : x.creationResponse = none) (a : Option Abono) (cs : List CuotaPlaneada)
    (receipt : Option DeudaResponse) :
    applyAll (S := shop) v (debtWrites r product cantidad x a cs receipt) =
      { v with
        deudores := r.elim v.deudores v.deudores.put
        products := v.products.modify product.id fun p =>
          { p with stock := product.stock - cantidad }
        deudas := v.deudas.put { x with creationResponse := receipt }
        abonos := a.elim v.abonos v.abonos.put
        cuotasPlaneadas := cs.foldl Table.put v.cuotasPlaneadas } := by
  rw [debtWrites, applyAll_append, applyAll_append, applyAll_append, applyAll_append,
    applyAll_append, applyAll_debtorWrites, applyAll_receiptWrites (T := v.deudas) hx]
  · rw [applyAll_cuotaWrites, applyAll_abonoWrites]
    rfl
  · rw [applyAll_cuotaWrites, applyAll_abonoWrites]
    rfl

/-! The stages of a creation. -/

/-- A debt being opened: the debtor is claimed, the product is held and its row is the
one that was read; `ws` is what was written since. -/
structure Opening (d : Db) (dto : CreateDeudaDto) (r : Option Deudor) (product : Product)
    (ws : List Write) (t : Open shop) (h : History shop) : Prop where
  iso : t.iso = .readCommitted
  pending : t.pending = debtorWrites r ++ [stockWrite product dto.cantidad.val] ++ ws
  debtor : ∀ x ∈ r, dto.deudor.isSome ∧ Claimed d (.deudor, x.id) t h
  id : product.id = uuid dto.productId
  locked : ((TableName.product, product.id), LockMode.noKeyUpdate) ∈ t.held
  seen : ∃ h₁, h₁ <+: h ∧ (replay (S := shop) d h₁).products.find? product.id = some product
  enough : dto.cantidad.val ≤ product.stock
  current : FreshIds h → (replay (S := shop) d h).products.find? product.id = some product

section
variable {host : Host} {d : Db} {reqs : List Request} {i : Nat} {h₀ h h' : History shop}
variable {actor : Actor} {dto : CreateDeudaDto} {t : Open shop} {β : Type} {env : Env}
variable {G : History shop → Commit shop → Prop} {r : Option Deudor} {product : Product}
variable {ws : List Write} {Q : β → History shop → Prop} {R : Err → History shop → Prop}

theorem Opening.later (ho : Opening d dto r product ws t h)
    (hl : Later (S := shop) G i t.held h h') : Opening d dto r product ws t h' := by
  obtain ⟨h₁, hp, hs⟩ := ho.seen
  refine { ho with debtor := ?_, seen := ⟨h₁, hp.trans hl.pre, hs⟩, current := ?_ }
  · intro x hx
    exact ⟨(ho.debtor x hx).1, (ho.debtor x hx).2.later hl⟩
  · intro hf
    rw [Later.product_eq (d := d) hl ho.locked (by decide)]
    exact ho.current (hf.of_prefix hl.pre)

theorem Opening.after (ho : Opening d dto r product ws t h) (ls : Locks Key) (ws' : List Write) :
    Opening d dto r product (ws ++ ws') (t.after ls ws') h := by
  refine { ho with pending := ?_, debtor := ?_, locked := List.mem_append_left _ ho.locked }
  · rw [Open.after_pending, ho.pending, List.append_assoc]
  · intro x hx
    exact ⟨(ho.debtor x hx).1, (ho.debtor x hx).2.after ls ws'⟩

/-- The tables written so far. -/
theorem Opening.keys (ho : Opening d dto r product ws t h) {w : Write} (hw : w ∈ t.pending) :
    w.key.1 = .deudor ∨ w.key.1 = .product ∨ w ∈ ws := by
  rw [ho.pending] at hw
  rcases List.mem_append.mp hw with hw | hw
  · rcases List.mem_append.mp hw with hw | hw
    · obtain ⟨x, _, rfl⟩ := List.mem_map.mp hw
      exact .inl rfl
    · rw [List.mem_singleton.mp hw]
      exact .inr (.inl rfl)
  · exact .inr (.inr hw)

theorem debtorOf_inr {input : DeudorInputDto} (hd : Deudas.debtorOf dto = some (.inr input)) :
    dto.deudor.isSome := by
  unfold Deudas.debtorOf at hd
  split at hd
  · cases hd
  · rename_i hs
    rw [hs]
    rfl
  · cases hd

/-- The debtor is found, or created and claimed. -/
theorem resolveDeudor_safe {debtor : String ⊕ DeudorInputDto} {f : Uuid → Tx shop β}
    (hd : Deudas.debtorOf dto = some debtor) (ht : t.iso = .readCommitted) (hw : t.pending = [])
    (hs : ∀ r id t' h', Later G i [] h h' → t'.iso = .readCommitted → t'.pending = debtorWrites r →
      (∀ x ∈ r, dto.deudor.isSome ∧ Claimed d (.deudor, x.id) t' h') → (f id).Safe d G i Q R t' h')
    (hR : ∀ e h', Later G i [] h h' → R e h') :
    (Deudas.resolveDeudor env actor debtor >>= f).Safe d G i Q R t h := by
  cases debtor with
  | inl deudorId =>
    simp only [Deudas.resolveDeudor, Tx.bind_assoc]
    refine Tx.Safe.read ht (fun v => v.findDeudor _ _) (fun _ => rfl) (fun _ => rfl) ?_
    intro h₁ _ l₁
    have l₁ := l₁.weaken (List.nil_subset _)
    refine Tx.Safe.orThrow ?_ ?_
    · intro deudor _
      exact hs none _ _ _ l₁ ht hw (by simp)
    · intro _ h₂ e₂
      exact hR _ _ (l₁.trans (e₂.later.weaken (List.nil_subset _)))
  | inr input =>
    simp only [Deudas.resolveDeudor, Tx.bind_assoc]
    refine create_claims ht (by simp [hw]) ?_ ?_
    · intro h₁ l₁ hc
      refine hs (some (Deudas.newDeudor env actor input)) _ _ h₁ (l₁.weaken (List.nil_subset _)) ht ?_ ?_
      · rw [Open.after_pending, hw]
        rfl
      · intro x hx
        cases hx
        exact ⟨debtorOf_inr hd, hc⟩
    · intro h₁ l₁
      exact hR _ _ (l₁.weaken (List.nil_subset _))

/-- The product taken, given that a product once read stays. -/
theorem takeLocked_safe {f : Product → Tx shop β} (ht : t.iso = .readCommitted)
    (hw : t.pending = debtorWrites r)
    (hc : ∀ x ∈ r, dto.deudor.isSome ∧ Claimed d (.deudor, x.id) t h)
    (hcur : ∀ h₁ h₂ p, Later G i t.held h h₁ → Later G i t.held h₁ h₂ →
      (replay (S := shop) d h₁).findProduct (uuid dto.productId) actor.account.contextId = some p →
      FreshIds h₂ → (replay (S := shop) d h₂).products.find? (uuid dto.productId) = some p)
    (hs : ∀ product t' h', Later G i [] h h' → Opening d dto r product [] t' h' →
      (f product).Safe d G i Q R t' h')
    (hR : ∀ e h', Later G i [] h h' → R e h') :
    (Deudas.takeLocked actor dto >>= f).Safe d G i Q R t h := by
  have hview : ∀ v : Db, (applyAll (S := shop) v t.pending).products = v.products := by
    intro v
    rw [hw, applyAll_debtorWrites]
  have fail : ∀ {e : Err} {t' : Open shop} {h'}, Later G i [] h h' →
      (Tx.throw e : Tx shop β).Safe d G i Q R t' h' := by
    intro e t' h' l h'' he
    exact hR e h'' (l.trans (he.later.weaken (List.nil_subset _)))
  simp only [Deudas.takeLocked, Tx.bind_assoc]
  refine Tx.Safe.read ht (fun v => v.findProduct _ _) (fun _ => rfl) (fun _ => rfl) ?_
  intro h₁ e₁ l₁
  have l₁' := l₁.weaken (List.nil_subset _)
  refine Tx.Safe.orThrow ?_ (fun _ => fail l₁')
  intro product hp
  rw [Db.findProduct, hview] at hp
  obtain ⟨hfind, -⟩ := Option.filter_eq_some_iff.mp hp
  have hid : product.id = uuid dto.productId := Table.find?_key hfind
  refine Tx.Safe.require ?_ (fun _ => fail l₁')
  intro _
  refine Tx.Safe.require ?_ (fun _ => fail l₁')
  intro hle
  simp only [orNotFound, Tx.bind_assoc]
  refine updateProduct_safe ht ?_ ?_
  · intro h₂ q e₂ l₂ _ _
    refine Tx.Safe.orThrow ?_ (fun hn => by cases hn)
    intro _ _
    have l := l₁.trans l₂
    refine hs product _ _ (l.weaken (List.nil_subset _)) ⟨ht, ?_, ?_, hid, ?_, ?_, hle, ?_⟩
    · rw [Open.after_pending, hw, List.append_nil]
      rfl
    · intro x hx
      exact ⟨(hc x hx).1, ((hc x hx).2.later l).after _ _⟩
    · exact List.mem_append_right _ (List.mem_singleton.mpr rfl)
    · exact ⟨h₁, (List.prefix_append _ _).trans l₂.pre, by rw [hid]; exact hfind⟩
    · intro hf
      refine (congrArg _ hid).trans (hcur h₁ _ product e₁.later ?_ hp hf)
      exact ((Extends.refl e₁.lawful i t.held).exec _).trans l₂
  · intro h₂ _ l₂ _
    exact Tx.Safe.orThrow (fun _ hn => by cases hn)
      (fun _ => fail (l₁'.trans (l₂.weaken (List.nil_subset _))))

theorem takeProduct_safe {f : Product → Tx shop β} (ht : t.iso = .readCommitted)
    (hw : t.pending = debtorWrites r)
    (hc : ∀ x ∈ r, dto.deudor.isSome ∧ Claimed d (.deudor, x.id) t h)
    (hs : ∀ product t' h', Later (Commits host d reqs) i [] h h' →
      Opening d dto r product [] t' h' → (f product).Safe d (Commits host d reqs) i Q R t' h')
    (hR : ∀ e h', Later (Commits host d reqs) i [] h h' → R e h') :
    (Deudas.takeProduct actor dto >>= f).Safe d (Commits host d reqs) i Q R t h := by
  have hview : ∀ v : Db, (applyAll (S := shop) v t.pending).products = v.products := by
    intro v
    rw [hw, applyAll_debtorWrites]
  simp only [Deudas.takeProduct, Tx.bind_assoc]
  refine lockProduct_safe ht ?_ ?_
  · -- the row is held from here on
    intro h₁ p _ l₁ _
    refine takeLocked_safe ht (by rw [Open.after_pending, List.append_nil]; exact hw) ?_ ?_ ?_ ?_
    · intro x hx
      exact ⟨(hc x hx).1, ((hc x hx).2.later l₁).after _ _⟩
    · intro h₂ h₃ q _ l₃ hq _
      obtain ⟨hfind, -⟩ := Option.filter_eq_some_iff.mp hq
      rw [Later.product_eq (d := d) l₃
        (List.mem_append_right _ (List.mem_singleton.mpr rfl)) (by decide)]
      exact hfind
    · intro product t' h₂ l₂ ho
      exact hs product t' h₂ ((l₁.weaken (List.nil_subset _)).trans l₂) ho
    · intro e h₂ l₂
      exact hR e h₂ ((l₁.weaken (List.nil_subset _)).trans l₂)
  · -- a product found later had its identifier guessed
    intro h₁ e₁ l₁ hnone
    rw [Db.findProduct, hview] at hnone
    refine takeLocked_safe ht hw ?_ ?_ ?_ ?_
    · intro x hx
      exact ⟨(hc x hx).1, (hc x hx).2.later l₁⟩
    · intro h₂ h₃ q l₂ l₃ hq hf
      rw [product_unguessed l₂.lawful (hf.of_prefix l₃.pre) l₂.pre hnone] at hq
      cases hq
    · intro product t' h₂ l₂ ho
      exact hs product t' h₂ ((l₁.weaken (List.nil_subset _)).trans l₂) ho
    · intro e h₂ l₂
      exact hR e h₂ ((l₁.weaken (List.nil_subset _)).trans l₂)

/-! The amounts. -/

theorem assertWithinBalance_ok {paidMinor totalMinor montoMinor remaining : Int}
    (h : Deudas.assertWithinBalance paidMinor totalMinor montoMinor = .ok remaining) :
    paidMinor + montoMinor ≤ totalMinor := by
  obtain ⟨a, ha, h⟩ := ok_of_bind h
  obtain ⟨b, hb, h⟩ := ok_of_bind h
  obtain ⟨c, hc, h⟩ := ok_of_bind h
  obtain ⟨rfl, -⟩ := assertMinorUnits_ok.mp ha
  obtain ⟨rfl, -⟩ := assertMinorUnits_ok.mp hb
  obtain ⟨rfl, -⟩ := assertMinorUnits_ok.mp hc
  split at h
  · cases h
  · omega

theorem total_ok {totalMinor : Int} (h : Deudas.total product dto = .ok totalMinor) :
    totalMinor = product.unitPriceMinor * dto.cantidad.val := by
  obtain ⟨a, ha, h⟩ := ok_of_bind h
  obtain ⟨rfl, -⟩ := assertMinorUnits_ok.mp ha
  exact (assertMinorUnits_ok.mp h).1

theorem total_le {totalMinor : Int} (h : Deudas.total product dto = .ok totalMinor) :
    totalMinor ≤ maxMinorUnits := by
  obtain ⟨a, ha, h⟩ := ok_of_bind h
  obtain ⟨rfl, -, hle⟩ := assertMinorUnits_ok.mp h
  exact hle

theorem checkInitial_ok {totalMinor : Int} (h : Deudas.checkInitial dto totalMinor = .ok ())
    (hpos : 0 < dto.abonoInicialMinor.val) : dto.abonoInicialMinor.val ≤ totalMinor := by
  rw [Deudas.checkInitial, if_pos hpos] at h
  obtain ⟨_, h, -⟩ := ok_of_bind h
  have := assertWithinBalance_ok h
  omega

/-! The commit. -/

/-- The first payment of the debt `x`, if there is one. -/
def firstAbono (env : Env) (dto : CreateDeudaDto) (memberId : Uuid) (x : Deuda) : Option Abono :=
  if 0 < dto.abonoInicialMinor.val then some (Deudas.initialAbono env dto memberId x) else none

/-- The debt `x` is the one the request asks for, at the price of `product`. -/
def Priced (host : Host) (env : Env) (actor : Actor) (dto : CreateDeudaDto) (memberId : Uuid)
    (product : Product) (x : Deuda) : Prop :=
  ∃ deudorId totalMinor,
    x = Deudas.newDeuda host env actor dto memberId deudorId product totalMinor ∧
    Deudas.total product dto = .ok totalMinor ∧ Deudas.checkInitial dto totalMinor = .ok ()

theorem Priced.unanswered {memberId : Uuid} {x : Deuda}
    (hx : Priced host env actor dto memberId product x) : x.creationResponse = none := by
  obtain ⟨_, _, rfl, -⟩ := hx
  rfl

/-- A debt written on top of an opening, with its first payment if `a` is one. -/
structure Drafted (d : Db) (dto : CreateDeudaDto) (r : Option Deudor) (product : Product) (x : Deuda)
    (a : Option Abono) (ws : List Write) (t : Open shop) (h : History shop) : Prop where
  opening : Opening d dto r product ([.insert (.deuda x)] ++ abonoWrites a ++ ws) t h
  claimed : Claimed d (.deuda, x.id) t h
  abono : ∀ b ∈ a, Claimed d (.abono, b.id) t h

section
variable {x : Deuda} {a : Option Abono} {memberId : Uuid} {cs : List CuotaPlaneada}

theorem Drafted.later (hd : Drafted d dto r product x a ws t h)
    (hl : Later (S := shop) G i t.held h h') : Drafted d dto r product x a ws t h' :=
  ⟨hd.opening.later hl, hd.claimed.later hl, fun b hb => (hd.abono b hb).later hl⟩

theorem Drafted.after (hd : Drafted d dto r product x a ws t h) (ls : Locks Key) (ws' : List Write) :
    Drafted d dto r product x a (ws ++ ws') (t.after ls ws') h := by
  refine ⟨?_, hd.claimed.after ls ws', fun b hb => (hd.abono b hb).after ls ws'⟩
  rw [← List.append_assoc]
  exact hd.opening.after ls ws'

/-- A debt drafted in full is a debt created. -/
theorem Drafted.created {receipt : Option DeudaResponse}
    (hd : Drafted d dto r product x (firstAbono env dto memberId x)
      (cuotaWrites cs ++ receiptWrites x.id receipt) t h)
    (hx : Priced host env actor dto memberId product x)
    (hreceipt : dto.id.isSome → ∃ a, receipt = some a ∧ a.toDeudaHeader = x.toDeudaHeader) :
    DeudaCreated host actor dto d h (replay (S := shop) d h)
      (applyAll (S := shop) (replay (S := shop) d h) t.pending)
      { x with creationResponse := receipt } := by
  obtain ⟨deudorId, totalMinor, hx, htotal, hinitial⟩ := hx
  have hnone : x.creationResponse = none := by rw [hx]; rfl
  have hproduct : x.productId = product.id := by rw [hx]; rfl
  have hcantidad : x.cantidad = dto.cantidad.val := by rw [hx]; rfl
  have htot : x.totalMinor = totalMinor := by rw [hx]; rfl
  have hpending : t.pending = debtWrites r product dto.cantidad.val x
      (firstAbono env dto memberId x) cs receipt := by
    rw [hd.opening.pending]
    simp [debtWrites]
  rw [hpending, applyAll_debtWrites _ _ _ _ hnone]
  obtain ⟨h₁, hp₁, hs₁⟩ := hd.opening.seen
  refine
    { id := ?_, contextId := by rw [hx]; rfl, productId := hproduct.trans hd.opening.id
      cantidad := hcantidad, requestFingerprint := by rw [hx]; rfl, creationResponse := hreceipt
      fresh := eq_none_of_isSome hd.claimed.2, status := ?_, saldadaAt := ?_
      total := ⟨h₁, product, hp₁, by rw [hproduct]; exact hs₁, ?_⟩
      cost := ⟨h₁, product, hp₁, by rw [hproduct]; exact hs₁, by rw [hx]; rfl⟩
      range := htot.le.trans (total_le htotal)
      price := ?_, enough := ?_, products := ⟨_, by rw [hproduct]⟩, taken := ?_, deudor := ?_, abono := ?_
      db := rfl }
  · intro id hid
    rw [hx]
    change Deudas.deudaId env dto = uuid id
    unfold Deudas.deudaId
    rw [show dto.id = some id from hid]
  · change x.status = .saldada ↔ 0 < dto.abonoInicialMinor.val ∧ x.totalMinor ≤ _
    rw [htot, hx]
    change (if _ then DeudaStatus.saldada else .pendiente) = .saldada ↔ _
    split
    · rename_i hs
      exact ⟨fun _ => hs, fun _ => rfl⟩
    · rename_i hs
      exact ⟨(fun he => by cases he), fun he => absurd he hs⟩
  · change x.saldadaAt.isSome ↔ x.status = .saldada
    rw [hx]
    change Option.isSome (if _ then some (env.now 0) else none) = true ↔
      (if _ then DeudaStatus.saldada else .pendiente) = .saldada
    split
    · simp
    · simp
  · change x.totalMinor = product.unitPriceMinor * x.cantidad
    rw [htot, total_ok htotal, hcantidad]
  · intro hf
    refine ⟨product, by rw [hproduct]; exact hd.opening.current hf, ?_⟩
    change x.totalMinor = product.unitPriceMinor * x.cantidad
    rw [htot, total_ok htotal, hcantidad]
  · intro hf
    rw [hproduct, hcantidad]
    exact ⟨product, hd.opening.current hf, hd.opening.enough⟩
  · intro hf k
    rw [Table.find?_modify
      (f := fun p : Product => { p with stock := product.stock - dto.cantidad.val }) (fun _ => rfl)]
    change _ = ((replay (S := shop) d h).products.find? k).map fun p =>
      p.take (if x.productId = k then x.cantidad else 0)
    rw [hproduct, hcantidad]
    by_cases hk : k = product.id
    · rw [if_pos hk, hk, hd.opening.current hf, if_pos rfl]
      rfl
    · rw [if_neg hk, if_neg (Ne.symm hk)]
      simp [Product.take]
  · cases r with
    | none => exact .inl rfl
    | some r =>
      obtain ⟨hsome, hcr⟩ := hd.opening.debtor r rfl
      exact .inr ⟨hsome, r, eq_none_of_isSome hcr.2, rfl⟩
  · unfold FirstAbono
    split
    · rename_i hpos
      have ha : firstAbono env dto memberId x = some (Deudas.initialAbono env dto memberId x) :=
        if_pos hpos
      refine ⟨Deudas.initialAbono env dto memberId x, rfl, rfl, rfl, ?_,
        eq_none_of_isSome (hd.abono _ ha).2, ?_⟩
      · change _ ≤ x.totalMinor
        rw [htot]
        exact checkInitial_ok hinitial hpos
      · rw [ha]
        rfl
    · rename_i hpos
      have ha : firstAbono env dto memberId x = none := if_neg hpos
      rw [ha]
      rfl

/-- A debt read under its own writes is the one written. -/
theorem Drafted.reads {full : DeudaWithPlan}
    (hd : Drafted d dto r product x a (cuotaWrites cs) t h) (hx : x.creationResponse = none)
    (hf : (applyAll (S := shop) (replay (S := shop) d h) t.pending).findDeudaWithPlan x.id x.contextId =
      some full) : (Deudas.response full).toDeudaHeader = x.toDeudaHeader := by
  have hp : t.pending = debtWrites r product dto.cantidad.val x a cs none := by
    rw [hd.opening.pending]
    simp [debtWrites, receiptWrites]
  rw [hp, Db.findDeudaWithPlan, applyAll_debtWrites _ _ _ _ hx] at hf
  obtain ⟨y, hy, rfl⟩ := Option.map_eq_some_iff.mp hf
  have hfind : (Table.put (replay (S := shop) d h).deudas { x with creationResponse := none }).find?
      x.id = some { x with creationResponse := none } := Table.find?_put_self
  rw [Db.findDeuda, hfind] at hy
  obtain ⟨hy, -⟩ := Option.filter_eq_some_iff.mp hy
  cases hy
  rfl

/-- The commit of a creation that has written everything. -/
theorem created_safe {receipt : Option DeudaResponse} {answer : DeudaResponse}
    {Q : DeudaResponse → History shop → Prop}
    (hd : Drafted d dto r product x (firstAbono env dto memberId x)
      (cuotaWrites cs ++ receiptWrites x.id receipt) t h)
    (hreq : reqs[i]? = some (.createDeuda env actor dto)) (l₀ : Later (Commits host d reqs) i [] h₀ h)
    (hx : Priced host env actor dto memberId product x)
    (hreceipt : dto.id.isSome → receipt = some answer ∧ answer.toDeudaHeader = x.toDeudaHeader)
    (hQ : ∀ a h' c y, Later (Commits host d reqs) i [] h₀ h' → c.pid = i →
      DeudaCreated host actor dto d h' (replay (S := shop) d h')
        (applyAll (S := shop) (replay (S := shop) d h') c.writes) y →
      (dto.id.isSome → y.creationResponse = some a) → Q a (h' ++ [.commit c])) :
    (Tx.ret answer : Tx shop DeudaResponse).Safe d (Commits host d reqs) i Q R t h := by
  intro h' e
  have hcreated := (hd.later e.later).created hx fun hs => ⟨answer, hreceipt hs⟩
  refine ⟨⟨_, hreq, .inr ⟨⟨_, hcreated⟩, trivial⟩⟩, ?_⟩
  exact hQ answer h' _ _ (l₀.trans (e.later.weaken (List.nil_subset _))) rfl hcreated
    fun hs => (hreceipt hs).1

/-- The answer is frozen and the debt committed. -/
theorem freeze_safe {Q : DeudaResponse → History shop → Prop}
    (hd : Drafted d dto r product x (firstAbono env dto memberId x) (cuotaWrites cs) t h)
    (hreq : reqs[i]? = some (.createDeuda env actor dto)) (l₀ : Later (Commits host d reqs) i [] h₀ h)
    (hx : Priced host env actor dto memberId product x)
    (hQ : ∀ a h' c y, Later (Commits host d reqs) i [] h₀ h' → c.pid = i →
      DeudaCreated host actor dto d h' (replay (S := shop) d h')
        (applyAll (S := shop) (replay (S := shop) d h') c.writes) y →
      (dto.id.isSome → y.creationResponse = some a) → Q a (h' ++ [.commit c]))
    (hR : ∀ e h', Later (Commits host d reqs) i [] h₀ h' → R e h') :
    (Deudas.freeze dto x).Safe d (Commits host d reqs) i Q R t h := by
  have fail : ∀ {e : Err} {t' : Open shop} {h'}, Later (Commits host d reqs) i [] h₀ h' →
      (Tx.throw e : Tx shop DeudaResponse).Safe d (Commits host d reqs) i Q R t' h' := by
    intro e t' h' l h'' he
    exact hR e h'' (l.trans (he.later.weaken (List.nil_subset _)))
  simp only [Deudas.freeze, orNotFound, Tx.bind_assoc]
  refine Tx.Safe.read hd.opening.iso (fun v => v.findDeudaWithPlan _ _) (fun _ => rfl)
    (fun _ => rfl) ?_
  intro h₁ e₁ l₁
  have l₁' := l₀.trans (l₁.weaken (List.nil_subset _))
  refine Tx.Safe.orThrow ?_ (fun _ => fail l₁')
  intro full hfull
  have hheader := (hd.later e₁.later).reads hx.unanswered hfull
  have hd₁ := hd.later l₁
  cases hid : dto.id with
  | none =>
    have hcs : cuotaWrites cs = cuotaWrites cs ++ receiptWrites x.id none := (List.append_nil _).symm
    rw [hcs] at hd₁
    refine created_safe hd₁ hreq l₁' hx ?_ hQ
    intro hs
    rw [hid] at hs
    cases hs
  | some id =>
    refine updateDeuda_safe hd.opening.iso ?_ ?_
    · intro h₂ y l₂
      refine Tx.Safe.orThrow ?_ (fun hn => by cases hn)
      intro _ _
      exact created_safe ((hd₁.later l₂).after [((.deuda, x.id), .noKeyUpdate)]
        (receiptWrites x.id (some (Deudas.response full)))) hreq
        (l₁'.trans (l₂.weaken (List.nil_subset _))) hx (fun _ => ⟨rfl, hheader⟩) hQ
    · intro h₂ l₂
      exact Tx.Safe.orThrow (fun _ hn => by cases hn)
        (fun _ => fail (l₁'.trans (l₂.weaken (List.nil_subset _))))

/-- The schedule, if there is one, and the end. -/
theorem writeCuotas_safe {Q : DeudaResponse → History shop → Prop}
    (hd : Drafted d dto r product x (firstAbono env dto memberId x) [] t h)
    (hreq : reqs[i]? = some (.createDeuda env actor dto)) (l₀ : Later (Commits host d reqs) i [] h₀ h)
    (hx : Priced host env actor dto memberId product x)
    (hQ : ∀ a h' c y, Later (Commits host d reqs) i [] h₀ h' → c.pid = i →
      DeudaCreated host actor dto d h' (replay (S := shop) d h')
        (applyAll (S := shop) (replay (S := shop) d h') c.writes) y →
      (dto.id.isSome → y.creationResponse = some a) → Q a (h' ++ [.commit c]))
    (hR : ∀ e h', Later (Commits host d reqs) i [] h₀ h' → R e h') :
    (Deudas.writeCuotas env dto x >>= fun _ => Deudas.freeze dto x).Safe d (Commits host d reqs) i
      Q R t h := by
  unfold Deudas.writeCuotas
  split
  · refine createMany_safe hd.opening.iso ?_ ?_
    · intro h₁ ls l₁
      have hcs : ((Deudas.plannedCuotas env dto x).map Row.cuotaPlaneada).map Write.insert =
          cuotaWrites (Deudas.plannedCuotas env dto x) := List.map_map
      rw [hcs]
      exact freeze_safe ((hd.later l₁).after ls _) hreq (l₀.trans (l₁.weaken (List.nil_subset _)))
        hx hQ hR
    · intro h₁ l₁ row _
      exact hR _ _ (l₀.trans (l₁.weaken (List.nil_subset _)))
  · have hcs : cuotaWrites [] = [] := rfl
    exact freeze_safe (hcs ▸ hd) hreq l₀ hx hQ hR

/-- The debt, its first payment, its schedule, its frozen answer. -/
theorem writeDeuda_safe {Q : DeudaResponse → History shop → Prop}
    (ho : Opening d dto r product [] t h)
    (hreq : reqs[i]? = some (.createDeuda env actor dto)) (l₀ : Later (Commits host d reqs) i [] h₀ h)
    (hx : Priced host env actor dto memberId product x)
    (hQ : ∀ a h' c y, Later (Commits host d reqs) i [] h₀ h' → c.pid = i →
      DeudaCreated host actor dto d h' (replay (S := shop) d h')
        (applyAll (S := shop) (replay (S := shop) d h') c.writes) y →
      (dto.id.isSome → y.creationResponse = some a) → Q a (h' ++ [.commit c]))
    (hR : ∀ e h', Later (Commits host d reqs) i [] h₀ h' → R e h') :
    (Deudas.writeDeuda env dto memberId x).Safe d (Commits host d reqs) i Q R t h := by
  simp only [Deudas.writeDeuda]
  refine create_claims ho.iso ?_ ?_ ?_
  · intro w hw
    rcases ho.keys hw with hk | hk | hk
    · exact fun he => by cases hk.symm.trans (congrArg Prod.fst he)
    · exact fun he => by cases hk.symm.trans (congrArg Prod.fst he)
    · cases hk
  · intro h₁ l₁ hc
    have l₁' := l₀.trans (l₁.weaken (List.nil_subset _))
    have ho₁ := (ho.later l₁).after [((.deuda, x.id), .update)] [.insert (.deuda x)]
    have hkeys : ∀ w ∈ (t.after [((TableName.deuda, x.id), LockMode.update)]
        [.insert (.deuda x)]).pending, w.key.1 ≠ .abono := by
      intro w hw
      rcases ho₁.keys hw with hk | hk | hk
      · simp [hk]
      · simp [hk]
      · rw [List.mem_singleton.mp hk]
        simp [Write.key, Row.key]
    unfold Deudas.writeAbono
    split
    · rename_i hpos
      have ha : firstAbono env dto memberId x = some (Deudas.initialAbono env dto memberId x) :=
        if_pos hpos
      refine create_claims ho₁.iso (fun w hw he => hkeys w hw (congrArg Prod.fst he)) ?_ ?_
      · intro h₂ l₂ hca
        refine writeCuotas_safe (r := r) ⟨?_, (hc.later l₂).after _ _, ?_⟩ hreq
          (l₁'.trans (l₂.weaken (List.nil_subset _))) hx hQ hR
        · rw [ha]
          exact (ho₁.later l₂).after _ _
        · intro b hb
          rw [ha] at hb
          cases hb
          exact hca
      · intro h₂ l₂
        exact hR _ _ (l₁'.trans (l₂.weaken (List.nil_subset _)))
    · rename_i hpos
      have ha : firstAbono env dto memberId x = none := if_neg hpos
      refine writeCuotas_safe (r := r) ⟨?_, hc, ?_⟩ hreq l₁' hx hQ hR
      · rw [ha]
        exact ho₁
      · rw [ha]
        intro b hb
        cases hb
  · intro h₁ l₁
    exact hR _ _ (l₀.trans (l₁.weaken (List.nil_subset _)))

end

/-! What a creation answers. -/

/-- The answer is the one frozen in the debt of the request's id. -/
def Receipt (host : Host) (d : Db) (actor : Actor) (dto : CreateDeudaDto) (a : DeudaResponse)
    (h : History shop) : Prop :=
  ∀ id ∈ dto.id, ∃ x, (replay (S := shop) d h).deudas.find? (uuid id) = some x ∧
    x.requestFingerprint = some (Deudas.requestFingerprint host actor dto) ∧
    x.creationResponse = some a

/-- What a creation is answered: the frozen receipt of its id; 409 when its first look
finds a debt with other content, unless the actor may not create debts. -/
def DeudaAnswered (host : Host) (d : Db) (i : Nat) (actor : Actor) (dto : CreateDeudaDto)
    (r : Except Err DeudaResponse) (h : History shop) : Prop :=
  match r with
  | .ok a => Receipt host d actor dto a h
  | .error e => ∀ id ∈ dto.id, ∀ h₁ q h₂ x, h = h₁ ++ .exec i q :: h₂ → (∀ e ∈ h₁, e.pid ≠ i) →
      (replay (S := shop) d h₁).findDeuda (uuid id) actor.account.contextId = some x →
      x.requestFingerprint ≠ some (Deudas.requestFingerprint host actor dto) →
      e.status = 409 ∨ e.spontaneous ∨ ¬ Authorized d (some .socio) actor

/-- The request looked for the debt and found none. -/
def DeudaUnseen (d : Db) (i : Nat) (actor : Actor) (dto : CreateDeudaDto) (h : History shop) : Prop :=
  ∀ id ∈ dto.id, ∃ h₁ q, h₁ ++ [.exec i q] <+: h ∧
    (replay (S := shop) d h₁).findDeuda (uuid id) actor.account.contextId = none

theorem DeudaUnseen.mono (hu : DeudaUnseen d i actor dto h) (hp : h <+: h') :
    DeudaUnseen d i actor dto h' := by
  intro id hid
  obtain ⟨h₁, q, hpre, hf⟩ := hu id hid
  exact ⟨h₁, q, hpre.trans hp, hf⟩

theorem Receipt.mono {a : DeudaResponse} (hr : Receipt host d actor dto a h)
    (hl : Lawful (Commits host d reqs) h') (hp : h <+: h') : Receipt host d actor dto a h' := by
  intro id hid
  obtain ⟨x, hx, hf, ha⟩ := hr id hid
  obtain ⟨x', hx', hv⟩ := Lawful.deuda_kept hl hp hx
  exact ⟨x', hx', hv.requestFingerprint.trans hf, hv.creationResponse.trans ha⟩

theorem DeudaAnswered.error {e : Err} (hl : Lawful (Commits host d reqs) h)
    (hu : DeudaUnseen d i actor dto h) : DeudaAnswered host d i actor dto (.error e) h := by
  intro id hid h₁ q h₂ x he hn hx _
  obtain ⟨h₃, q', hpre, hf⟩ := hu id hid
  obtain ⟨hx, hc⟩ := Option.filter_eq_some_iff.mp hx
  obtain ⟨x', hx', hv⟩ := Lawful.deuda_kept (hl.of_prefix ((List.prefix_append _ _).trans hpre))
    (prefix_of_first he hn hpre) hx
  rw [Db.findDeuda, hx', Option.filter_some, hv.contextId, if_pos hc] at hf
  cases hf

theorem DeudaAnswered.conflict {m : String} :
    DeudaAnswered host d i actor dto (.error (.conflict m)) h :=
  fun _ _ _ _ _ _ _ _ _ _ => .inl rfl

theorem DeudaAnswered.spontaneous {e : Err} (he : e.spontaneous) :
    DeudaAnswered host d i actor dto (.error e) h :=
  fun _ _ _ _ _ _ _ _ _ _ => .inr (.inl he)

theorem DeudaAnswered.unauthorized {e : Err} (hn : ¬ Authorized d (some .socio) actor) :
    DeudaAnswered host d i actor dto (.error e) h :=
  fun _ _ _ _ _ _ _ _ _ _ => .inr (.inr hn)

/-- Looking for the receipt: nothing there, the receipt, or another content. -/
theorem replay_safe {f : Option DeudaResponse → Tx shop β} (hl : Lawful G h)
    (ht : t.iso = .readCommitted) (hw : t.pending = [])
    (hnone : ∀ h', Later G i t.held h h' → DeudaUnseen d i actor dto h' →
      (f none).Safe d G i Q R t h')
    (hsome : ∀ a h', Later G i t.held h h' → Receipt host d actor dto a h' →
      (f (some a)).Safe d G i Q R t h')
    (hR : ∀ m h', Later G i t.held h h' → R (.conflict m) h') :
    (Deudas.replay host actor dto >>= f).Safe d G i Q R t h := by
  unfold Deudas.replay
  cases hid : dto.id with
  | none =>
    refine hnone h (.refl hl i t.held) ?_
    intro id hm
    rw [hid] at hm
    cases hm
  | some id =>
    simp only [Tx.bind_assoc]
    refine Tx.Safe.read ht (fun v => v.findDeuda _ _) (fun _ => rfl) (fun _ => rfl) ?_
    intro h₁ e₁ l₁
    rw [hw, applyAll_nil]
    cases hf : (replay (S := shop) d h₁).findDeuda (uuid id) actor.account.contextId with
    | none =>
      refine hnone _ l₁ ?_
      intro id' hm
      cases hid.symm.trans hm
      exact ⟨h₁, _, List.prefix_refl _, hf⟩
    | some x =>
      have fail : ∀ m, (Tx.throw (Err.conflict m) : Tx shop β).Safe d G i Q R t
          (h₁ ++ [.exec i (.findDeuda (uuid id) actor.account.contextId)]) := by
        intro m h₂ e₂
        exact hR m h₂ (l₁.trans e₂.later)
      simp only [Tx.bind]
      split
      · rename_i hfp
        rw [Tx.bind_assoc]
        refine Tx.Safe.orThrow ?_ (fun _ => fail _)
        intro a ha
        refine hsome a _ l₁ ?_
        intro id' hm
        cases hid.symm.trans hm
        obtain ⟨hx, -⟩ := Option.filter_eq_some_iff.mp hf
        refine ⟨x, ?_, hfp, ha⟩
        rw [replay_sent]
        exact hx
      · exact fail _

/-- The transaction of a creation answers a receipt, or says why not. -/
theorem Deudas.createInTx_safe {debtor : String ⊕ DeudorInputDto}
    {Q : DeudaResponse → History shop → Prop} (hreq : reqs[i]? = some (.createDeuda env actor dto))
    (hd : Deudas.debtorOf dto = some debtor)
    (hQ : ∀ a h', Receipt host d actor dto a h' → Q a h')
    (hR : ∀ e h', ((∃ m, e = .conflict m) ∨ ¬ Authorized d (some .socio) actor ∨
      DeudaUnseen d i actor dto h') → R e h') :
    (Deudas.createInTx host env actor dto debtor).Safe d (Commits host d reqs) i Q R
      ⟨.readCommitted, h, [], []⟩ h := by
  simp only [Deudas.createInTx, Deudas.authorize]
  refine authorizeAs_safe rfl ?_ ?_
  · intro h₁ ids l₁
    refine replay_safe l₁.lawful rfl rfl ?_ ?_ ?_
    · intro h₂ l₂ hu
      -- from here on every error leaves a request that found nothing
      have fail : ∀ e h', Later (Commits host d reqs) i [] h₂ h' → R e h' := by
        intro e h' l
        exact hR e h' (.inr (.inr (hu.mono l.pre)))
      refine resolveDeudor_safe hd rfl rfl ?_ fail
      intro r deudorId t h₃ l₃ ht hw hc
      refine takeProduct_safe ht hw hc ?_ (fun e h' l => fail e h' (l₃.trans l))
      intro product t' h₄ l₄ ho
      have l₄' := l₃.trans l₄
      have throws : ∀ e, (Tx.throw e : Tx shop DeudaResponse).Safe d (Commits host d reqs) i Q R
          t' h₄ := by
        intro e h' he
        exact fail e h' (l₄'.trans (he.later.weaken (List.nil_subset _)))
      refine Tx.Safe.ofExcept ?_ (fun e _ => throws e)
      intro totalMinor htotal
      refine Tx.Safe.ofExcept ?_ (fun e _ => throws e)
      intro _ hinitial
      refine writeDeuda_safe ho hreq l₄' ⟨deudorId, totalMinor, rfl, htotal, hinitial⟩ ?_ fail
      intro a h' c x l hc hx hanswer
      refine hQ a _ ?_
      intro id hid
      have hsome : dto.id.isSome := by rw [show dto.id = some id from hid]; rfl
      refine ⟨x, ?_, ?_, hanswer hsome⟩
      · rw [replay_committed, hx.db, ← hx.id id hid]
        exact Table.find?_put_self
      · rw [hx.requestFingerprint, show dto.id = some id from hid]
        rfl
    · intro a h₂ l₂ hr h₃ e₃
      have hc : Commits host d reqs h₃ (Open.commit ⟨.readCommitted, h, [], []⟩ i) :=
        ⟨_, hreq, .inl rfl⟩
      refine ⟨hc, hQ _ _ ?_⟩
      exact hr.mono (e₃.lawful.commit (by intro w hw; cases hw) hc)
        (e₃.pre.trans (List.prefix_append _ _))
    · intro m h₂ l₂
      exact hR _ _ (.inl ⟨m, rfl⟩)
  · intro hn h₁ l₁
    exact hR _ _ (.inr (.inl hn))

/-- The second look: a receipt, or the error. -/
theorem Deudas.recover_safe {error : Err} (hreq : reqs[i]? = some (.createDeuda env actor dto))
    (he : (∃ m, error = .conflict m) ∨ ¬ Authorized d (some .socio) actor ∨
      DeudaUnseen d i actor dto h) :
    (Deudas.recover host actor dto error).Safe d (Commits host d reqs) i
      (DeudaAnswered host d i actor dto) h := by
  have hthrow : ∀ h', h <+: h' → (Call.throw error : Call shop DeudaResponse).Safe d
      (Commits host d reqs) i (DeudaAnswered host d i actor dto) h' := by
    intro h₁ hp h₂ e₂
    rcases he with ⟨m, rfl⟩ | hn | hu
    · exact .conflict
    · exact .unauthorized hn
    · exact .error e₂.lawful (hu.mono (hp.trans e₂.pre))
  unfold Deudas.recover
  split
  · exact hthrow h (List.prefix_refl _)
  · refine ⟨?_, ?_⟩
    · intro h₁ e₁
      simp only [Deudas.replayAuthorized, Deudas.authorize]
      refine authorizeAs_safe rfl ?_ ?_
      · intro h₂ ids l₂
        rw [← Tx.bind_ret (Deudas.replay host actor dto)]
        refine replay_safe l₂.lawful rfl rfl ?_ ?_ ?_
        · intro h₃ l₃ hu h₄ e₄
          refine ⟨⟨_, hreq, .inl rfl⟩, ?_⟩
          simp only [Call.ofExcept]
          split
          · exact fun h₅ _ => .conflict
          · intro h₅ e₅
            exact .error e₅.lawful
              (hu.mono ((e₄.pre.trans (List.prefix_append _ _)).trans e₅.pre))
        · intro a h₃ l₃ hr h₄ e₄
          refine ⟨⟨_, hreq, .inl rfl⟩, ?_⟩
          intro h₅ e₅
          exact hr.mono e₅.lawful ((e₄.pre.trans (List.prefix_append _ _)).trans e₅.pre)
        · intro m h₃ _ h₄ _
          exact .conflict
      · intro hn h₂ _ h₃ _
        exact .unauthorized hn
    · intro e h' hsp _ _ h'' _
      exact .spontaneous hsp

/-- `DeudasService.create` is safe for a request that has not begun. -/
theorem Deudas.create_safe (hreq : reqs[i]? = some (.createDeuda env actor dto))
    (hn : ∀ e ∈ h, e.pid ≠ i) :
    (Deudas.create host env actor dto).Safe d (Commits host d reqs) i
      (DeudaAnswered host d i actor dto) h := by
  unfold Deudas.create
  cases hd : Deudas.debtorOf dto with
  | none =>
    -- refused without a statement
    intro h' e'
    obtain ⟨-, n, rfl, hm⟩ := e'
    intro _ _ h₁ q h₂ _ he
    have hmem : Event.exec i q ∈ h ++ n := by
      rw [he]
      simp
    rcases List.mem_append.mp hmem with hmem | hmem
    · exact absurd rfl (hn _ hmem)
    · exact absurd rfl (hm _ hmem).1
  | some debtor =>
    refine ⟨?_, ?_⟩
    · intro h₁ e₁
      refine Deudas.createInTx_safe hreq hd ?_ ?_
      · intro a h₂ hr h₃ e₃
        exact hr.mono e₃.lawful e₃.pre
      · intro e h₂ hr
        exact Deudas.recover_safe hreq hr
    · intro e h₁ hsp _ _
      cases e <;> simp [Err.spontaneous] at hsp
      change (Deudas.recover host actor dto _).Safe _ _ _ _ _
      rw [Deudas.recover, if_pos (.inr (by simp [Deudas.isBadRequest, Deudas.isDebtIdConflict]))]
      exact fun _ _ => .spontaneous trivial

end

end Bazar.Shop
