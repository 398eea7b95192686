import BazarApi.Shop.Runs

/- A debt with a client id is created once. One commit at most writes for the id: one
   debt, at most one new debtor, one first payment and one decrement. Its receipt is
   frozen with it, and every success answers that receipt; a request with another
   content, account, person or device is refused, and writes nothing. -/
namespace Bazar.Shop

open Txn

/-- Request `i` creates a debt with this client id. -/
def IsDeuda (reqs : List Request) (id : Uuid) (i : Nat) : Prop :=
  ∃ env actor dto cid, reqs[i]? = some (.createDeuda env actor dto) ∧ dto.id = some cid ∧ uuid cid = id

/-- Two creation requests differ in who acts or in what they ask for. -/
def Deudas.Differ (actor : Actor) (dto : CreateDeudaDto) (actor' : Actor) (dto' : CreateDeudaDto) :
    Prop :=
  actor.account ≠ actor'.account ∨ actor.selection ≠ actor'.selection ∨
    Deudas.content actor dto ≠ Deudas.content actor' dto'

/-- The content names the account, the person and the device. -/
theorem content_actor {actor actor' : Actor} {dto dto' : CreateDeudaDto}
    (h : Deudas.content actor dto = Deudas.content actor' dto') :
    actor.account = actor'.account ∧ actor.selection = actor'.selection := by
  obtain ⟨⟨id, contextId⟩, selection⟩ := actor
  obtain ⟨⟨id', contextId'⟩, selection'⟩ := actor'
  simp only [Deudas.content, List.cons_append, Json.obj.injEq, List.cons.injEq, Prod.mk.injEq,
    Json.str.injEq] at h
  obtain ⟨⟨-, rfl⟩, ⟨-, rfl⟩, ⟨-, hm⟩, ⟨-, hd⟩, -⟩ := h
  refine ⟨rfl, ?_⟩
  cases selection with
  | none =>
    cases selection' with
    | none => rfl
    | some s' => cases hm
  | some s =>
    cases selection' with
    | none => cases hm
    | some s' =>
      obtain ⟨m, v⟩ := s
      obtain ⟨m', v'⟩ := s'
      simp only [Json.opt, Json.str.injEq] at hm hd
      subst hm hd
      rfl

section
variable {host : Host} {d₀ : Db} {reqs : List Request} {i : Nat} {h h₁ h₂ : History shop}
variable {c : Commit shop} {id : Uuid}

/-- What a commit of a creation request writes. -/
theorem Commits.deuda (hc : Commits host d₀ reqs h c) (hw : c.writes ≠ []) {env : Env}
    {actor : Actor} {dto : CreateDeudaDto}
    (hreq : reqs[c.pid]? = some (.createDeuda env actor dto)) :
    ∃ x, DeudaCreated host actor dto d₀ h (replay (S := shop) d₀ h)
      (replay (S := shop) d₀ (h ++ [.commit c])) x := by
  obtain ⟨r, hr, hn | ⟨hwr, -⟩⟩ := hc
  · exact absurd hn hw
  · cases hreq.symm.trans hr
    rw [replay_committed]
    exact hwr

/-- The debt a commit of a creation request writes is there ever after, as it was created. -/
theorem Lawful.deuda_written (hl : Lawful (Commits host d₀ reqs) h) (he : h₁ ++ [.commit c] <+: h)
    (hw : c.writes ≠ []) {env : Env} {actor : Actor} {dto : CreateDeudaDto}
    (hreq : reqs[c.pid]? = some (.createDeuda env actor dto)) :
    ∃ x x', DeudaCreated host actor dto d₀ h₁ (replay (S := shop) d₀ h₁)
        (replay (S := shop) d₀ (h₁ ++ [.commit c])) x ∧
      (replay (S := shop) d₀ h).deudas.find? x.id = some x' ∧ x.Version x' := by
  obtain ⟨n, rfl⟩ := he
  obtain ⟨-, hc⟩ := hl h₁ c n (by simp)
  obtain ⟨x, hx⟩ := hc.deuda hw hreq
  have hfind : (replay (S := shop) d₀ (h₁ ++ [.commit c])).deudas.find? x.id = some x := by
    rw [hx.db]
    exact Table.find?_put_self
  obtain ⟨x', hx', hv⟩ := Lawful.deuda_kept hl (List.prefix_append _ _) hfind
  exact ⟨x, x', hx, hx', hv⟩

/-- Two commits that write for one client id are one commit. -/
theorem Lawful.deuda_once (hl : Lawful (Commits host d₀ reqs) h) {h₁' h₂' : History shop}
    {c' : Commit shop} (he : h = h₁ ++ .commit c :: h₂) (he' : h = h₁' ++ .commit c' :: h₂')
    (hs : IsDeuda reqs id c.pid) (hs' : IsDeuda reqs id c'.pid) (hw : c.writes ≠ [])
    (hw' : c'.writes ≠ []) : h₁ = h₁' := by
  -- the later one would find the debt of the earlier one
  have order : ∀ {a a' b' : History shop} {e e' : Commit shop}, h = a' ++ .commit e' :: b' →
      IsDeuda reqs id e.pid → IsDeuda reqs id e'.pid → e.writes ≠ [] → e'.writes ≠ [] →
      ¬ a ++ [.commit e] <+: a' := by
    rintro a a' b' e e' he ⟨_, _, dto, cid, hreq, hid, hk⟩ ⟨_, _, dto', cid', hreq', hid', hk'⟩ hw hw' hp
    obtain ⟨-, hc⟩ := hl a' e' b' he
    obtain ⟨y, hy⟩ := hc.deuda hw' hreq'
    obtain ⟨x, x', hx, hx', -⟩ :=
      Lawful.deuda_written (hl.of_prefix (he ▸ List.prefix_append _ _)) hp hw hreq
    have hf := hy.fresh
    rw [hy.id cid' hid', hk', ← hk, ← hx.id cid hid, hx'] at hf
    cases hf
  rcases split_cases he he' with heq | hp | hp
  · exact heq
  · exact absurd hp (order he' hs hs' hw hw')
  · exact absurd hp (order he hs' hs hw' hw)

/-- The fingerprint of a debt is that of the request that created it. -/
theorem Lawful.deuda_fingerprint (hl : Lawful (Commits host d₀ reqs) h) (hc : .commit c ∈ h)
    (hw : c.writes ≠ []) {env : Env} {actor : Actor} {dto : CreateDeudaDto} {cid : String}
    (hreq : reqs[c.pid]? = some (.createDeuda env actor dto)) (hid : dto.id = some cid) {x : Deuda}
    (hx : (replay (S := shop) d₀ h).deudas.find? (uuid cid) = some x) :
    x.requestFingerprint = some (Deudas.requestFingerprint host actor dto) := by
  obtain ⟨h₁, h₂, he⟩ := List.append_of_mem hc
  have hp : h₁ ++ [.commit c] <+: h := ⟨h₂, by rw [he]; simp⟩
  obtain ⟨y, y', hy, hy', hv⟩ := Lawful.deuda_written hl hp hw hreq
  rw [hy.id cid hid] at hy'
  cases hx.symm.trans hy'
  rw [hv.requestFingerprint, hy.requestFingerprint, hid]
  rfl

end

/-- However many requests carry one client id: one commit at most writes for it, and that
commit makes one debt, at most one new debtor, at most one first payment and one
decrement; the debt keeps its fingerprint and its frozen receipt; every success answers
that receipt; a request with another fingerprint never succeeds, writes nothing, and is
answered 409 when it begins after the debt is there, unless the actor may not create
debts; and the fingerprint tells apart any difference in content, account, person or
device, as long as the hash does. -/
theorem deuda_idempotent (host : Host) (d₀ : Db) (reqs : List Request) (s : Sys shop Answer)
    (hr : Reachable host d₀ reqs s) (id : Uuid) :
    (∀ h₁ c h₂ h₁' c' h₂', s.hist = h₁ ++ .commit c :: h₂ → s.hist = h₁' ++ .commit c' :: h₂' →
      IsDeuda reqs id c.pid → IsDeuda reqs id c'.pid → c.writes ≠ [] → c'.writes ≠ [] → h₁ = h₁') ∧
    (∀ h₁ c, h₁ ++ [.commit c] <+: s.hist → IsDeuda reqs id c.pid → c.writes ≠ [] →
      ∃ dto x, x.id = id ∧
        (replay (S := shop) d₀ (h₁ ++ [.commit c])).deudas = (replay (S := shop) d₀ h₁).deudas.put x ∧
        NewDeudor dto (replay (S := shop) d₀ h₁) (replay (S := shop) d₀ (h₁ ++ [.commit c])) ∧
        FirstAbono dto x (replay (S := shop) d₀ h₁) (replay (S := shop) d₀ (h₁ ++ [.commit c])) ∧
        (∃ n, (replay (S := shop) d₀ (h₁ ++ [.commit c])).products =
          (replay (S := shop) d₀ h₁).products.modify x.productId fun p => { p with stock := n }) ∧
        (FreshIds h₁ → Taken (replay (S := shop) d₀ h₁) (replay (S := shop) d₀ (h₁ ++ [.commit c]))
          fun k => if x.productId = k then x.cantidad else 0)) ∧
    (∀ h h' x, h <+: h' → h' <+: s.hist → (replay (S := shop) d₀ h).deudas.find? id = some x →
      ∃ x', (replay (S := shop) d₀ h').deudas.find? id = some x' ∧
        x'.requestFingerprint = x.requestFingerprint ∧ x'.creationResponse = x.creationResponse) ∧
    (∀ i env actor dto cid a, reqs[i]? = some (.createDeuda env actor dto) → dto.id = some cid →
      uuid cid = id → s.Answered i (.ok a) → ∃ x receipt,
        (replay (S := shop) d₀ s.hist).deudas.find? id = some x ∧
        x.requestFingerprint = some (Deudas.requestFingerprint host actor dto) ∧
        x.creationResponse = some receipt ∧ a = .deuda receipt) ∧
    (∀ i env actor dto cid x, reqs[i]? = some (.createDeuda env actor dto) → dto.id = some cid →
      uuid cid = id → (replay (S := shop) d₀ s.hist).deudas.find? id = some x →
      x.requestFingerprint ≠ some (Deudas.requestFingerprint host actor dto) →
      (∀ a, ¬ s.Answered i (.ok a)) ∧ Quiet i s.hist ∧
      ∀ e h₁ q h₂ y, s.Answered i (.error e) → s.hist = h₁ ++ .exec i q :: h₂ →
        (∀ z ∈ h₁, z.pid ≠ i) →
        (replay (S := shop) d₀ h₁).findDeuda id actor.account.contextId = some y →
        e.status = 409 ∨ e.spontaneous ∨ ¬ Authorized d₀ (some .socio) actor) ∧
    ∀ c env actor dto cid x actor' dto', .commit c ∈ s.hist → c.writes ≠ [] →
      reqs[c.pid]? = some (.createDeuda env actor dto) → dto.id = some cid → uuid cid = id →
      (replay (S := shop) d₀ s.hist).deudas.find? id = some x →
      (host.sha256 (Deudas.content actor dto) = host.sha256 (Deudas.content actor' dto') →
        Deudas.content actor dto = Deudas.content actor' dto') →
      Deudas.Differ actor dto actor' dto' →
      x.requestFingerprint ≠ some (Deudas.requestFingerprint host actor' dto') := by
  have hl := hr.lawful
  refine ⟨?_, ?_, ?_, ?_, ?_, ?_⟩
  · intro h₁ c h₂ h₁' c' h₂' he he' hs hs' hw hw'
    exact Lawful.deuda_once hl he he' hs hs' hw hw'
  · rintro h₁ c hp ⟨env, actor, dto, cid, hreq, hid, rfl⟩ hw
    obtain ⟨x, -, hx, -⟩ := Lawful.deuda_written hl hp hw hreq
    exact ⟨dto, x, hx.id cid hid, by rw [hx.db], hx.deudor, hx.abono, hx.products,
      hx.taken⟩
  · intro h h' x hp hp' hx
    obtain ⟨x', hx', hv⟩ := Lawful.deuda_kept (hl.of_prefix hp') hp hx
    exact ⟨x', hx', hv.requestFingerprint, hv.creationResponse⟩
  · rintro i env actor dto cid a hreq hid rfl ha
    obtain ⟨b, hb, hans⟩ := hr.deuda ha hreq
    cases b with
    | error e => cases hb
    | ok receipt =>
      cases hb
      obtain ⟨x, hx, hf, hreceipt⟩ := hans cid hid
      exact ⟨x, receipt, hx, hf, hreceipt, rfl⟩
  · rintro i env actor dto cid x hreq hid rfl hx hd
    refine ⟨?_, ?_, ?_⟩
    · intro a ha
      obtain ⟨b, hb, hans⟩ := hr.deuda ha hreq
      cases b with
      | error e => cases hb
      | ok receipt =>
        obtain ⟨y, hy, hf, -⟩ := hans cid hid
        cases hx.symm.trans hy
        exact hd hf
    · intro c hc hi
      by_contra hw
      rw [← hi] at hreq
      exact hd (Lawful.deuda_fingerprint hl hc hw hreq hid hx)
    · intro e h₁ q h₂ y ha he hn hy
      obtain ⟨b, hb, hans⟩ := hr.deuda ha hreq
      cases b with
      | ok receipt => cases hb
      | error e' =>
        cases hb
        refine hans cid hid h₁ q h₂ y he hn hy ?_
        -- the debt found is the debt there now
        obtain ⟨hf, -⟩ := Option.filter_eq_some_iff.mp hy
        obtain ⟨x', hx', hv⟩ :=
          Lawful.deuda_kept hl (show h₁ <+: s.hist from he ▸ List.prefix_append _ _) hf
        cases hx.symm.trans hx'
        rw [← hv.requestFingerprint]
        exact hd
  · rintro c env actor dto cid x actor' dto' hc hw hreq hid rfl hx hsha hdiff
    rw [Lawful.deuda_fingerprint hl hc hw hreq hid hx]
    intro hf
    have heq := hsha (Option.some.inj hf)
    rcases hdiff with hdiff | hdiff | hdiff
    · exact hdiff (content_actor heq).1
    · exact hdiff (content_actor heq).2
    · exact hdiff heq

/-- A debt, its resend, a payment, and another debt under the same id. -/
def Demo.redebt : List Request :=
  [.createDeuda (env 1) actor (deuda "debt" "b" forty),
    .createDeuda (env 2) actor (deuda "debt" "b" forty),
    .registerAbono (env 3) actor "debt" ⟨sixty, none, none⟩,
    .createDeuda (env 4) actor (deuda "debt" "b" ⟨50, by decide, by decide⟩)]

/-- The resend waits for the product and finds none left; the payment settles the debt
before the resend looks for its receipt. -/
def Demo.redebtSteps : List Nat :=
  List.replicate 8 0 ++ List.replicate 6 1 ++ List.replicate 6 0 ++ List.replicate 3 1 ++
    List.replicate 11 2 ++ List.replicate 6 1 ++ List.replicate 6 3

theorem deuda_idempotent_redebt :
    (∀ a, ¬ (Demo.run Demo.redebt Demo.redebtSteps).Answered 3 (.ok a)) ∧
      Quiet 3 (Demo.run Demo.redebt Demo.redebtSteps).hist := by
  have h := (deuda_idempotent Demo.host Demo.db Demo.redebt (Demo.run Demo.redebt Demo.redebtSteps)
    (Demo.reachable (by decide +kernel)) (uuid "debt")).2.2.2.2.1 3 _ _ _ _
    (((replay (S := shop) Demo.db (Demo.run Demo.redebt Demo.redebtSteps).hist).deudas.find?
      (uuid "debt")).get (by decide +kernel)) rfl rfl rfl (Option.some_get _).symm (by decide +kernel)
  exact ⟨h.1, h.2.1⟩

end Bazar.Shop
