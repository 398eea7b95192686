import BazarApi.Listing.Service

/- The page and the total of a listing. Inside a request of a business the two reads of the
   batch run in transactions of their own, so that each finds what is committed when it runs
   (`batch_safe`): they agree when what commits in between leaves the page or the number of
   rows as it was, and not otherwise. Outside, the batch is one transaction on one snapshot. -/
namespace Bazar.Listing

open Txn

/-- A listing, or anything else that touches its rows. -/
inductive Request (host : Host) : Type 1 where
  | products (store : Option Tenant.TenantStore) (countFirst : Bool) (contextId : String)
    (dto : ProductListDto) (accountMemberId : Option Uuid)
  | sales (store : Option Tenant.TenantStore) (countFirst : Bool) (contextId : String)
    (dto : SaleListDto)
  | other (call : Call (listings host) Unit)

inductive Answer where
  | products (page : Page ProductResponse)
  | sales (page : Page SaleResponse)
  | other

def Request.call {host : Host} : Request host → Call (listings host) Answer
  | .products store countFirst contextId dto accountMemberId => do
    return .products (← listProducts host store countFirst contextId dto accountMemberId)
  | .sales store countFirst contextId dto => do
    return .sales (← listSales host store countFirst contextId dto)
  | .other call => do
    let _ ← call
    return .other

/-! What an answer says. -/

section
variable (host : Host)

/-- The account belongs to an active socio, in one state. -/
def socioAt (contextId : String) (accountMemberId : Option Uuid) (d : Db) : Bool :=
  accountMemberId.any fun id => ((Sql.findMember id contextId).read host d).isSome

def productsPage (dto : ProductListDto) (isSocio : Bool) (x : List Shop.Product × Nat) :
    Page ProductResponse :=
  ⟨x.1.map (productResponse host isSocio), x.2, dto.page, dto.limit⟩

def salesPage (dto : SaleListDto) (x : List Shop.Sale × Nat) : Page SaleResponse :=
  ⟨x.1.map saleResponse, x.2, dto.page, dto.limit⟩

/-- The items and the total of an answer come from one committed state. -/
def OneSnapshot (d₀ : Db) (h : History (listings host)) : Request host → Answer → Prop
  | .products _ _ contextId dto accountMemberId, .products page =>
    ∃ g₀ g, g₀ <+: g ∧ g <+: h ∧
      let isSocio := socioAt host contextId accountMemberId (replay (S := listings host) d₀ g₀)
      let w := productWhere contextId dto isSocio
      let d := replay (S := listings host) d₀ g
      page = productsPage host dto isSocio ((Sql.findProducts w dto.page dto.limit).read host d,
        (Sql.countProducts w).read host d)
  | .sales _ _ contextId dto, .sales page =>
    ∃ g, g <+: h ∧
      let w := saleWhere contextId dto
      let d := replay (S := listings host) d₀ g
      page = salesPage dto ((Sql.findSales w dto.sort dto.page dto.limit).read host d,
        (Sql.countSales w).read host d)
  | _, _ => True

/-- The two reads of a listing that runs them in transactions of their own. -/
inductive Request.Apart {host : Host} : Request host → Sql → Sql → Prop where
  | products {store : Option Tenant.TenantStore} {countFirst : Bool} {contextId : String}
    {dto : ProductListDto} {accountMemberId : Option Uuid} {w : ProductWhere}
    (h : takesPart store .Product = false) :
    Apart (.products store countFirst contextId dto accountMemberId)
      (.findProducts w dto.page dto.limit) (.countProducts w)
  | sales {store : Option Tenant.TenantStore} {countFirst : Bool} {contextId : String}
    {dto : SaleListDto} {w : SaleWhere} (h : takesPart store .Sale = false) :
    Apart (.sales store countFirst contextId dto) (.findSales w dto.sort dto.page dto.limit)
      (.countSales w)

/-- The commits of `b`, after `a`, leave what a read finds as it is. -/
def Keeps (d₀ : Db) (a b : History (listings host)) (q : Sql) : Prop :=
  ∀ b₁ c b₂, b = b₁ ++ .commit c :: b₂ →
    q.read host (replay (S := listings host) d₀ (a ++ b₁ ++ [.commit c])) =
      q.read host (replay (S := listings host) d₀ (a ++ b₁))

/-- In between the two reads of a listing, the commits of the others leave the rows of its
page as they are, or the number of rows that match. -/
def Undisturbed (d₀ : Db) (reqs : List (Request host)) (h : History (listings host)) : Prop :=
  ∀ i r items count, reqs[i]? = some r → r.Apart items count → ∀ q q' a b c,
    q = items ∧ q' = count ∨ q = count ∧ q' = items →
    h = a ++ .exec i q :: (b ++ .exec i q' :: c) →
    Keeps host d₀ a b items ∨ Keeps host d₀ a b count

/-! What the two reads of a batch find. -/

/-- Anything may be committed. -/
def Anything (_ : History (listings host)) (_ : Commit (listings host)) : Prop := True

/-- What the reads of request `i` found in a history. -/
inductive Found (d₀ : Db) (i : Nat) (together : Bool) (items count : Sql)
    (h₀ h : History (listings host)) : items.Res × count.Res → Prop where
  | together {g : History (listings host)} (ht : together = true) (h₀g : h₀ <+: g) (hg : g <+: h) :
    Found d₀ i together items count h₀ h (items.read host (replay (S := listings host) d₀ g),
      count.read host (replay (S := listings host) d₀ g))
  | itemsFirst {a b : History (listings host)} (ht : together = false) (h₀a : h₀ <+: a)
    (hp : a ++ .exec i items :: (b ++ [.exec i count]) <+: h) :
    Found d₀ i together items count h₀ h (items.read host (replay (S := listings host) d₀ a),
      count.read host (replay (S := listings host) d₀ (a ++ b)))
  | countFirst {a b : History (listings host)} (ht : together = false) (h₀a : h₀ <+: a)
    (hp : a ++ .exec i count :: (b ++ [.exec i items]) <+: h) :
    Found d₀ i together items count h₀ h
      (items.read host (replay (S := listings host) d₀ (a ++ b)),
        count.read host (replay (S := listings host) d₀ a))

end

section
variable {host : Host} {d₀ : Db} {i : Nat} {items count q : Sql} {α : Type}
variable {a b h₀ h h' : History (listings host)} {Q : Except Err α → History (listings host) → Prop}

/-- What is found stays found. -/
theorem Found.later {together : Bool} {x : items.Res × count.Res}
    (hf : Found host d₀ i together items count h₀ h x) (hp : h <+: h') :
    Found host d₀ i together items count h₀ h' x := by
  cases hf with
  | together ht h₀g hg => exact .together ht h₀g (hg.trans hp)
  | itemsFirst ht h₀a ha => exact .itemsFirst ht h₀a (ha.trans hp)
  | countFirst ht h₀a ha => exact .countFirst ht h₀a (ha.trans hp)

theorem Found.since {together : Bool} {x : items.Res × count.Res} {h₁ : History (listings host)}
    (hf : Found host d₀ i together items count h h' x) (hp : h₁ <+: h) :
    Found host d₀ i together items count h₁ h' x := by
  cases hf with
  | together ht h₀g hg => exact .together ht (hp.trans h₀g) hg
  | itemsFirst ht h₀a ha => exact .itemsFirst ht (hp.trans h₀a) ha
  | countFirst ht h₀a ha => exact .countFirst ht (hp.trans h₀a) ha

/-- A read finds the same before and after commits that leave it as it is. -/
theorem Keeps.read_eq (hk : Keeps host d₀ a b q) :
    q.read host (replay (S := listings host) d₀ (a ++ b)) =
      q.read host (replay (S := listings host) d₀ a) := by
  induction b using List.reverseRecOn with
  | nil => rw [List.append_nil]
  | append_singleton b e ih =>
    have ih := ih fun b₁ c b₂ he => hk b₁ c (b₂ ++ [e]) (by rw [he]; simp)
    rw [← ih]
    cases e with
    | exec j q' => rw [← List.append_assoc, replay_sent]
    | commit c => rw [← List.append_assoc, hk b c [] rfl]

/-- Undisturbed reads find one state. -/
theorem Found.snapshot {together : Bool} {x : items.Res × count.Res}
    (hf : Found host d₀ i together items count h₀ h x)
    (hu : together = false → ∀ q q' a b c, q = items ∧ q' = count ∨ q = count ∧ q' = items →
      h = a ++ .exec i q :: (b ++ .exec i q' :: c) →
      Keeps host d₀ a b items ∨ Keeps host d₀ a b count) :
    ∃ g, h₀ <+: g ∧ g <+: h ∧ x = (items.read host (replay (S := listings host) d₀ g),
      count.read host (replay (S := listings host) d₀ g)) := by
  -- either state serves both reads when one of them finds the same in the other
  have hends : ∀ (q q' : Sql) (a b : History (listings host)), h₀ <+: a →
      a ++ .exec i q :: (b ++ [.exec i q']) <+: h → ∃ g, h₀ <+: g ∧ g <+: h ∧
        replay (S := listings host) d₀ g = replay (S := listings host) d₀ (a ++ b) := by
    intro q q' a b ha hp
    refine ⟨a ++ .exec i q :: b, ha.trans (List.prefix_append _ _), ?_, replay_skip _ _ _ _ _⟩
    refine List.IsPrefix.trans ?_ hp
    exact ⟨[.exec i q'], by simp⟩
  cases hf with
  | together ht h₀g hg => exact ⟨_, h₀g, hg, rfl⟩
  -- What commits between the two reads keeps one of the answers: the other read tells the state.
  | @itemsFirst a b ht h₀a hp =>
    obtain ⟨c, hc⟩ := hp
    rcases hu ht items count a b c (.inl ⟨rfl, rfl⟩) (by rw [← hc]; simp) with hk | hk
    · obtain ⟨g, h₀g, hg, heq⟩ := hends items count a b h₀a ⟨c, hc⟩
      exact ⟨g, h₀g, hg, by rw [heq, hk.read_eq]⟩
    · exact ⟨a, h₀a, (List.prefix_append _ _).trans ⟨c, hc⟩, by rw [hk.read_eq]⟩
  | @countFirst a b ht h₀a hp =>
    obtain ⟨c, hc⟩ := hp
    rcases hu ht count items a b c (.inr ⟨rfl, rfl⟩) (by rw [← hc]; simp) with hk | hk
    · exact ⟨a, h₀a, (List.prefix_append _ _).trans ⟨c, hc⟩, by rw [hk.read_eq]⟩
    · obtain ⟨g, h₀g, hg, heq⟩ := hends count items a b h₀a ⟨c, hc⟩
      exact ⟨g, h₀g, hg, by rw [heq, hk.read_eq]⟩

/-- A read by itself finds what is committed when it runs. -/
theorem managed_safe {store : Option Tenant.TenantStore} {model : Tenant.Model}
    {operation : Tenant.Operation} {contextId : String} {k : q.Res → Call (listings host) α}
    (hq : q.writes = []) (hfail : ∀ e h', Q (.error e) h')
    (hk : ∀ h₁ h₂, h <+: h₁ → h₁ ++ [.exec i q] <+: h₂ →
      (k (q.read host (replay (S := listings host) d₀ h₁))).Safe d₀ (Anything host) i Q h₂) :
    (managed host store model operation contextId q >>= k).Safe d₀ (Anything host) i Q h := by
  have hexec : ∀ v, (listings host).exec q v = .ok (q.read host v, []) := by
    intro v
    change Except.ok (_, q.writes) = _
    rw [hq]
  unfold managed
  split
  · refine ⟨?_, fun e _ _ _ _ _ _ => hfail e _⟩
    intro h₁ e₁
    unfold perform
    split
    · refine Tx.Safe.read rfl (fun _ => ()) (fun _ => rfl) (fun _ => rfl) ?_
      intro h₂ e₂ l₂
      refine Tx.Safe.read rfl (q.read host) hexec (fun _ => rfl) ?_
      intro h₃ e₃ _ h₄ e₄
      exact ⟨trivial, hk h₃ _ (e₁.pre.trans (l₂.pre.trans e₃.pre))
        (e₄.pre.trans (List.prefix_append _ _))⟩
    · refine Tx.Safe.read rfl (q.read host) hexec (fun _ => rfl) ?_
      intro h₂ e₂ _ h₃ e₃
      exact ⟨trivial, hk h₂ _ (e₁.pre.trans e₂.pre) (e₃.pre.trans (List.prefix_append _ _))⟩
  · exact fun _ _ => hfail _ _

theorem isRequestingSocio_safe {store : Option Tenant.TenantStore} {contextId : String}
    {accountMemberId : Option Uuid}
    {k : Bool → Call (listings host) α} (hfail : ∀ e h', Q (.error e) h')
    (hk : ∀ h₁ h₂, h₁ <+: h₂ → (k (socioAt host contextId accountMemberId
      (replay (S := listings host) d₀ h₁))).Safe d₀ (Anything host) i Q h₂) :
    (isRequestingSocio host store contextId accountMemberId >>= k).Safe d₀ (Anything host) i Q
      h := by
  cases accountMemberId with
  | none => exact hk h h (List.prefix_refl _)
  | some id =>
    unfold isRequestingSocio
    rw [Call.bind_assoc]
    refine managed_safe (q := .findMember id contextId) rfl hfail ?_
    intro h₁ h₂ _ hp
    exact hk h₁ h₂ ((List.prefix_append _ _).trans hp)

theorem batch_safe {store : Option Tenant.TenantStore} {model : Tenant.Model} {countFirst : Bool}
    {contextId : String}
    {k : items.Res × count.Res → Call (listings host) α} (hi : items.writes = [])
    (hc : count.writes = []) (hfail : ∀ e h', Q (.error e) h')
    (hk : ∀ x h₁, Found host d₀ i (takesPart store model) items count h h₁ x →
      (k x).Safe d₀ (Anything host) i Q h₁) :
    (batch host store model countFirst contextId items count >>= k).Safe d₀ (Anything host) i Q
      h := by
  unfold batch
  split
  · rename_i ht
    refine ⟨?_, fun e _ _ _ _ _ _ => hfail e _⟩
    intro g e₁ h₁ e₂
    change (_ → _) ∧ (_ → _)
    refine ⟨fun _ => ?_, fun _ _ _ => hfail _ _⟩
    rw [hi]
    intro h₂ e₃
    change (_ → _) ∧ (_ → _)
    refine ⟨fun _ => ?_, fun _ _ _ => hfail _ _⟩
    rw [hc]
    intro h₃ e₄
    refine ⟨trivial, hk _ _ (.together ht e₁.pre ?_)⟩
    exact e₂.pre.trans ((List.prefix_append _ _).trans (e₃.pre.trans
      ((List.prefix_append _ _).trans (e₄.pre.trans (List.prefix_append _ _)))))
  · rename_i ht
    have ht := Bool.eq_false_iff.mpr ht
    split
    · rw [Call.bind_assoc]
      refine managed_safe hc hfail ?_
      intro h₁ h₂ p₁ p₂
      rw [Call.bind_assoc]
      refine managed_safe hi hfail ?_
      rintro _ h₄ hp p₄
      obtain ⟨b, rfl⟩ := p₂.trans hp
      refine hk (items.read host _, _) h₄ ?_
      have hskip := replay_skip (S := listings host) d₀ i count h₁ b
      rw [show h₁ ++ [.exec i count] ++ b = h₁ ++ .exec i count :: b by simp, hskip]
      exact .countFirst ht p₁ (by simpa using p₄)
    · rw [Call.bind_assoc]
      refine managed_safe hi hfail ?_
      intro h₁ h₂ p₁ p₂
      rw [Call.bind_assoc]
      refine managed_safe hc hfail ?_
      rintro _ h₄ hp p₄
      obtain ⟨b, rfl⟩ := p₂.trans hp
      refine hk (_, count.read host _) h₄ ?_
      have hskip := replay_skip (S := listings host) d₀ i items h₁ b
      rw [show h₁ ++ [.exec i items] ++ b = h₁ ++ .exec i items :: b by simp, hskip]
      exact .itemsFirst ht p₁ (by simpa using p₄)

/-! Requests. -/

/-- What an answer was made of. -/
def Request.Post (d₀ : Db) (i : Nat) (h : History (listings host)) :
    Request host → Except Err Answer → Prop
  | .products store _ contextId dto accountMemberId, .ok a =>
    ∃ g₀,
      let isSocio := socioAt host contextId accountMemberId (replay (S := listings host) d₀ g₀)
      let w := productWhere contextId dto isSocio
      ∃ x, Found host d₀ i (takesPart store .Product) (.findProducts w dto.page dto.limit)
        (.countProducts w) g₀ h x ∧ a = .products (productsPage host dto isSocio x)
  | .sales store _ contextId dto, .ok a =>
    let w := saleWhere contextId dto
    ∃ x, Found host d₀ i (takesPart store .Sale) (.findSales w dto.sort dto.page dto.limit)
      (.countSales w) [] h x ∧ a = .sales (salesPage dto x)
  | _, _ => True

theorem Request.safe (r : Request host) :
    r.call.Safe d₀ (Anything host) i (fun x h => r.Post d₀ i h x) h := by
  cases r with
  | products store countFirst contextId dto accountMemberId =>
    refine Call.Safe.map (isRequestingSocio_safe (fun _ _ => trivial) ?_)
    intro g₀ h₁ hp
    refine batch_safe rfl rfl (fun _ _ => trivial) ?_
    intro x h₂ hf h₃ e₃
    refine ⟨g₀, x, ?_, rfl⟩
    exact (hf.since hp).later e₃.pre
  | sales store countFirst contextId dto =>
    refine Call.Safe.map (batch_safe rfl rfl (fun _ _ => trivial) ?_)
    intro x h₂ hf h₃ e₃
    exact ⟨x, (hf.since List.nil_prefix).later e₃.pre, rfl⟩
  | other call =>
    refine Call.Safe.map (Call.safe_of_forall (fun _ _ => trivial) ?_ call h)
    intro x _
    cases x <;> trivial

end

/-! Runs. -/

/-- A state of a run in which the requests are served from the database `d₀`. -/
def Reachable (host : Host) (d₀ : Db) (reqs : List (Request host)) (s : Sys (listings host) Answer) :
    Prop :=
  Sys.Reach (S := listings host) d₀ (Sys.initial (reqs.map Request.call)) s

theorem Reachable.ok {host : Host} {d₀ : Db} {reqs : List (Request host)}
    {s : Sys (listings host) Answer} (hr : Reachable host d₀ reqs s) :
    s.Ok d₀ (Anything host) fun i x h => ∀ r, reqs[i]? = some r → r.Post d₀ i h x := by
  refine Sys.Reach.ok hr (Sys.initial_ok ?_)
  intro i c hc
  rw [List.getElem?_map] at hc
  obtain ⟨r, hreq, rfl⟩ := Option.map_eq_some_iff.mp hc
  refine (Request.safe r).mono ?_
  intro x h hx r' hr'
  cases hreq.symm.trans hr'
  exact hx

/-- In every run in which the commits between the two reads of a listing leave its page or
its number of rows as they are, every listing answers from one committed state. -/
theorem one_snapshot_of_undisturbed (host : Host) (d₀ : Db) (reqs : List (Request host))
    (s : Sys (listings host) Answer) (hr : Reachable host d₀ reqs s)
    (hu : Undisturbed host d₀ reqs s.hist) (i : Nat) (r : Request host) (a : Answer)
    (hreq : reqs[i]? = some r) (ha : s.Answered i (.ok a)) : OneSnapshot host d₀ s.hist r a := by
  have hpost := hr.ok.answered ha r hreq
  cases r with
  | products store countFirst contextId dto accountMemberId =>
    obtain ⟨g₀, x, hf, rfl⟩ := hpost
    obtain ⟨g, hg₀, hg, rfl⟩ := hf.snapshot fun ht => hu i _ _ _ hreq (.products ht)
    exact ⟨g₀, g, hg₀, hg, rfl⟩
  | sales store countFirst contextId dto =>
    obtain ⟨x, hf, rfl⟩ := hpost
    obtain ⟨g, -, hg, rfl⟩ := hf.snapshot fun ht => hu i _ _ _ hreq (.sales ht)
    exact ⟨g, hg, rfl⟩
  | other call => cases a <;> trivial

/-! A product added while the catalog is listed, for concrete runs. -/

namespace Demo

def host : Host := { contains := fun _ _ => true, equals := fun _ _ => true, getUrl := id }

def product (id : String) : Shop.Product :=
  { id := ⟨id⟩, name := id, tipo := .cantidad, unitPriceMinor := 100, contextId := "bazar"
    imagePath := none, initialStock := 1, stock := 1, category := none, purchaseCostMinor := none
    supplier := none, notes := none, brand := none, presentation := none, description := none
    createdAt := 0, active := true }

def bazar : Db :=
  { members := .empty, products := ⟨[product "taza"], by decide⟩, sales := .empty }

def store : Option Tenant.TenantStore := some ⟨some "bazar"⟩

def dto : ProductListDto :=
  { page := 1, limit := 20, search := none, brand := none, umbral := none, agotados := false
    sinCosto := false, tipo := none, includeInactive := false }

def addition : Call (listings host) Unit :=
  Call.transaction .readCommitted (query host (.write [.product (product "vaso")]))

def listedWhileAdded : List (Request host) :=
  [.products store false "bazar" dto none, .other addition]

/-- The state after the requests took the steps of a schedule. -/
def run (d : Db) (reqs : List (Request host)) (steps : List Nat) : Sys (listings host) Answer :=
  (Sys.initial (reqs.map Request.call)).scheduled d steps

theorem reachable {d : Db} {reqs : List (Request host)} {steps : List Nat}
    (h : ((Sys.initial (reqs.map Request.call)).schedule (S := listings host) d steps).isSome =
      true) : Reachable host d reqs (run d reqs steps) :=
  Sys.scheduled_reach h

def listedWhileAddedSteps : List Nat :=
  List.replicate 4 0 ++ List.replicate 3 1 ++ List.replicate 4 0

/-- A product of another business, added between the two reads. -/
def elsewhere : Call (listings host) Unit :=
  Call.transaction .readCommitted
    (query host (.write [.product { product "vaso" with contextId := "otro" }]))

def listedMeanwhile : List (Request host) :=
  [.products store false "bazar" dto none, .other elsewhere]

/-- A count of products is of one business. -/
def counts (contextId : String) : Event (listings host) → Bool
  | .exec _ (.countProducts w) => w.contextId = contextId
  | _ => true

end Demo

/-- The products of the business are the same after every event. -/
theorem Demo.listedMeanwhile_business {g : History (listings Demo.host)}
    (hg : g <+: (Demo.run Demo.bazar Demo.listedMeanwhile Demo.listedWhileAddedSteps).hist) :
    (replay (S := listings Demo.host) Demo.bazar g).products.rows.filter
      (fun p => p.contextId = "bazar") = [Demo.product "taza"] := by
  have hall : let h := (Demo.run Demo.bazar Demo.listedMeanwhile Demo.listedWhileAddedSteps).hist
      ∀ n ≤ h.length, (replay (S := listings Demo.host) Demo.bazar
        (h.take n)).products.rows.filter (fun p => p.contextId = "bazar") =
          [Demo.product "taza"] := by
    decide
  rw [List.prefix_iff_eq_take.mp hg]
  exact hall _ hg.length_le

/-- Only the catalog of the business is listed. -/
theorem Demo.listedMeanwhile_apart {i : Nat} {r : Request Demo.host} {items count : Sql}
    (hi : Demo.listedMeanwhile[i]? = some r) (ha : r.Apart items count) :
    ∃ w, count = .countProducts w := by
  cases ha with
  | products _ => exact ⟨_, rfl⟩
  | sales _ =>
    have hmem := List.mem_of_getElem? hi
    simp [Demo.listedMeanwhile] at hmem

/-- The catalog listed while another business adds a product. -/
theorem one_snapshot_of_undisturbed_meanwhile :
    ((Demo.run Demo.bazar Demo.listedMeanwhile Demo.listedWhileAddedSteps).hist.any
        fun e => ¬ e.writes.isEmpty) = true ∧
      OneSnapshot Demo.host Demo.bazar
        (Demo.run Demo.bazar Demo.listedMeanwhile Demo.listedWhileAddedSteps).hist
        (.products Demo.store false "bazar" Demo.dto none)
        (.products ⟨[productResponse Demo.host false (Demo.product "taza")], 1, 1, 20⟩) := by
  refine ⟨by decide, one_snapshot_of_undisturbed Demo.host Demo.bazar Demo.listedMeanwhile _
    (Demo.reachable (by decide)) ?_ 0 _ _ rfl (Sys.answered_of_answer? rfl)⟩
  have hbazar : ∀ e ∈ (Demo.run Demo.bazar Demo.listedMeanwhile Demo.listedWhileAddedSteps).hist,
      Demo.counts "bazar" e = true := by
    decide
  have hkept := @Demo.listedMeanwhile_business
  revert hbazar hkept
  generalize (Demo.run Demo.bazar Demo.listedMeanwhile Demo.listedWhileAddedSteps).hist = h
  intro hbazar hkept i r items count hi hapart q q' a b c hq hh
  obtain ⟨w, rfl⟩ := Demo.listedMeanwhile_apart hi hapart
  -- the count is of the products of the business, and so reads the same in both states
  have hw : w.contextId = "bazar" := by
    have hmem : Event.exec (S := listings Demo.host) i (.countProducts w) ∈ h := by
      rcases hq with ⟨-, rfl⟩ | ⟨rfl, -⟩ <;> rw [hh] <;> simp
    simpa [Demo.counts] using hbazar _ hmem
  have hread : ∀ b₁ c₁, h = a ++ .exec i q :: (b₁ ++ c₁) → (Sql.countProducts w).read Demo.host
      (replay (S := listings Demo.host) Demo.bazar (a ++ b₁)) =
        ([Demo.product "taza"].filter (w.matches Demo.host)).length := by
    intro b₁ c₁ he
    have hg : a ++ .exec i q :: b₁ <+: h := ⟨c₁, by rw [he]; simp⟩
    rw [← replay_skip (S := listings Demo.host) Demo.bazar i q a b₁]
    simp only [Sql.read, Db.productsWhere_business, hw, hkept hg]
  refine .inr ?_
  intro b₁ cm b₂ hb
  rw [hread b₁ (.commit cm :: b₂ ++ .exec i q' :: c) (by rw [hh, hb]; simp), List.append_assoc]
  exact hread (b₁ ++ [.commit cm]) (b₂ ++ .exec i q' :: c) (by rw [hh, hb]; simp)

/-- The page is read before the addition and the total after it: one item of two. -/
theorem two_snapshots_listed_while_added :
    Demo.store = some ⟨some "bazar"⟩ ∧
      Reachable Demo.host Demo.bazar Demo.listedWhileAdded
        (Demo.run Demo.bazar Demo.listedWhileAdded Demo.listedWhileAddedSteps) ∧
      ∃ a, (Demo.run Demo.bazar Demo.listedWhileAdded Demo.listedWhileAddedSteps).Answered 0
          (.ok a) ∧
        ¬ OneSnapshot Demo.host Demo.bazar
          (Demo.run Demo.bazar Demo.listedWhileAdded Demo.listedWhileAddedSteps).hist
          (.products Demo.store false "bazar" Demo.dto none) a := by
  refine ⟨rfl, Demo.reachable (by decide),
    .products ⟨[productResponse Demo.host false (Demo.product "taza")], 2, 1, 20⟩,
    Sys.answered_of_answer? rfl, ?_⟩
  rintro ⟨g₀, g, -, -, hpage⟩
  have hitems := congrArg (fun p => p.items.length) hpage
  have htotal := congrArg Page.total hpage
  generalize replay (S := listings Demo.host) Demo.bazar g = d at hitems htotal
  generalize productWhere _ _ _ = w at hitems htotal
  change 1 = (List.map _ (pageOf 1 20 ((d.productsWhere Demo.host w).insertionSort _))).length
    at hitems
  change 2 = (d.productsWhere Demo.host w).length at htotal
  unfold pageOf at hitems
  rw [List.length_map, List.length_take, List.length_drop, List.length_insertionSort,
    ← htotal] at hitems
  omega

end Bazar.Listing
