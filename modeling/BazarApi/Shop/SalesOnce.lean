import BazarApi.Shop.Runs

/- A sale is sold once. However many requests carry its id, and however they
   interleave, one commit at most writes for that id; the row it writes stays, and is
   what every successful answer shows. A request for something else is refused, and
   writes nothing. -/
namespace Bazar.Shop

open Txn

/-- Request `i` is a sale request with this id. -/
def IsSale (reqs : List Request) (id : Uuid) (i : Nat) : Prop :=
  ∃ env actor dto, reqs[i]? = some (.createSale env actor dto) ∧ uuid dto.id = id

section
variable {host : Host} {d₀ : Db} {reqs : List Request} {i : Nat} {h h₁ h₂ : History shop}
variable {c : Commit shop} {id : Uuid}

/-- What a commit of a sale request writes. -/
theorem Commits.sale (hc : Commits host d₀ reqs h c) (hw : c.writes ≠ []) {env : Env} {actor : Actor}
    {dto : CreateSaleDto} (hreq : reqs[c.pid]? = some (.createSale env actor dto)) :
    ∃ s, SaleWritten host c.pid actor dto d₀ h (replay (S := shop) d₀ h)
      (replay (S := shop) d₀ (h ++ [.commit c])) s := by
  obtain ⟨r, hr, hn | ⟨hwr, -⟩⟩ := hc
  · exact absurd hn hw
  · cases hreq.symm.trans hr
    rw [replay_committed]
    exact hwr

/-- The row a commit of a sale request writes is there ever after. -/
theorem Lawful.sale_written (hl : Lawful (Commits host d₀ reqs) h) (he : h₁ ++ [.commit c] <+: h)
    (hw : c.writes ≠ []) {env : Env} {actor : Actor} {dto : CreateSaleDto}
    (hreq : reqs[c.pid]? = some (.createSale env actor dto)) :
    ∃ s, SaleWritten host c.pid actor dto d₀ h₁ (replay (S := shop) d₀ h₁)
        (replay (S := shop) d₀ (h₁ ++ [.commit c])) s ∧
      (replay (S := shop) d₀ h).sales.find? (uuid dto.id) = some s := by
  obtain ⟨n, rfl⟩ := he
  obtain ⟨-, hc⟩ := hl h₁ c n (by simp)
  obtain ⟨s, hs⟩ := hc.sale hw hreq
  refine ⟨s, hs, Lawful.sale_kept hl (List.prefix_append _ _) ?_⟩
  rw [hs.sales, ← hs.id]
  exact Table.find?_put_self

/-- Two commits that write for one sale id are one commit. -/
theorem Lawful.sale_once (hl : Lawful (Commits host d₀ reqs) h) {h₁' h₂' : History shop}
    {c' : Commit shop} (he : h = h₁ ++ .commit c :: h₂) (he' : h = h₁' ++ .commit c' :: h₂')
    (hs : IsSale reqs id c.pid) (hs' : IsSale reqs id c'.pid) (hw : c.writes ≠ [])
    (hw' : c'.writes ≠ []) : h₁ = h₁' := by
  -- the later one would find the row of the earlier one
  have order : ∀ {a a' b' : History shop} {e e' : Commit shop}, h = a' ++ .commit e' :: b' →
      IsSale reqs id e.pid → IsSale reqs id e'.pid → e.writes ≠ [] → e'.writes ≠ [] →
      ¬ a ++ [.commit e] <+: a' := by
    rintro a a' b' e e' he ⟨_, _, dto, hreq, hid⟩ ⟨_, _, dto', hreq', hid'⟩ hw hw' hp
    obtain ⟨-, hc⟩ := hl a' e' b' he
    obtain ⟨s', hs'⟩ := hc.sale hw' hreq'
    obtain ⟨s, -, hs⟩ := Lawful.sale_written (hl.of_prefix (he ▸ List.prefix_append _ _)) hp hw hreq
    have hf := hs'.fresh
    rw [hs'.id, hid', ← hid, hs] at hf
    cases hf
  rcases split_cases he he' with heq | hp | hp
  · exact heq
  · exact absurd hp (order he' hs hs' hw hw')
  · exact absurd hp (order he hs' hs hw' hw)

/-- A request whose content is not that of its sale wrote nothing. -/
theorem Lawful.sale_quiet (hl : Lawful (Commits host d₀ reqs) h) {env : Env} {actor : Actor}
    {dto : CreateSaleDto} (hreq : reqs[i]? = some (.createSale env actor dto)) {s : Sale}
    (hs : (replay (S := shop) d₀ h).sales.find? (uuid dto.id) = some s)
    (hd : ¬ SameContent host s dto) : Quiet i h := by
  intro c hc hi
  by_contra hw
  obtain ⟨h₁, h₂, he⟩ := List.append_of_mem hc
  rw [← hi] at hreq
  have hp : h₁ ++ [.commit c] <+: h := ⟨h₂, by rw [he]; simp⟩
  obtain ⟨s', hs', hf⟩ := Lawful.sale_written hl hp hw hreq
  cases hs.symm.trans hf
  exact hd hs'.sameContent

end

/-- However many requests carry one sale id: the row of the id, once committed, stays as
it is; one commit at most writes for the id, and it takes its items from stock; every
success answers that row; and a request for something else never succeeds, writes
nothing, and is answered 409 when it begins after the row is there. -/
theorem sale_idempotent (host : Host) (d₀ : Db) (reqs : List Request) (s : Sys shop Answer)
    (hr : Reachable host d₀ reqs s) (id : Uuid) :
    (∀ h h' row, h <+: h' → h' <+: s.hist →
      (replay (S := shop) d₀ h).sales.find? id = some row →
      (replay (S := shop) d₀ h').sales.find? id = some row) ∧
    (∀ h₁ c h₂ h₁' c' h₂', s.hist = h₁ ++ .commit c :: h₂ → s.hist = h₁' ++ .commit c' :: h₂' →
      IsSale reqs id c.pid → IsSale reqs id c'.pid → c.writes ≠ [] → c'.writes ≠ [] → h₁ = h₁') ∧
    (∀ h₁ c, h₁ ++ [.commit c] <+: s.hist → IsSale reqs id c.pid → c.writes ≠ [] →
      ∃ row, (replay (S := shop) d₀ s.hist).sales.find? id = some row ∧
        Taken (replay (S := shop) d₀ h₁) (replay (S := shop) d₀ (h₁ ++ [.commit c])) (soldOf row.items)) ∧
    (∀ i env actor dto a, reqs[i]? = some (.createSale env actor dto) → uuid dto.id = id →
      s.Answered i (.ok a) → ∃ row answer,
        (replay (S := shop) d₀ s.hist).sales.find? id = some row ∧ SameContent host row dto ∧
        a = .sale answer ∧ answer.sale = Sales.response row) ∧
    ∀ i env actor dto row, reqs[i]? = some (.createSale env actor dto) → uuid dto.id = id →
      (replay (S := shop) d₀ s.hist).sales.find? id = some row → ¬ SameContent host row dto →
      (∀ a, ¬ s.Answered i (.ok a)) ∧ Quiet i s.hist ∧
      ∀ e h₁ q h₂, s.Answered i (.error e) → Selected actor dto →
        s.hist = h₁ ++ .exec i q :: h₂ → (∀ x ∈ h₁, x.pid ≠ i) →
        (replay (S := shop) d₀ h₁).findSale id actor.account.contextId = some row →
        e.status = 409 ∨ e.spontaneous := by
  have hl := hr.lawful
  refine ⟨?_, ?_, ?_, ?_, ?_⟩
  · intro h h' row hp hp' hrow
    exact Lawful.sale_kept (hl.of_prefix hp') hp hrow
  · intro h₁ c h₂ h₁' c' h₂' he he' hs hs' hw hw'
    exact Lawful.sale_once hl he he' hs hs' hw hw'
  · rintro h₁ c hp ⟨env, actor, dto, hreq, rfl⟩ hw
    obtain ⟨row, hs, hrow⟩ := Lawful.sale_written hl hp hw hreq
    refine ⟨row, hrow, ?_⟩
    rcases hs.outcome with ⟨ho, -⟩ | ⟨ho, -⟩
    · exact ho.taken
    · intro k
      rw [ho.items, ho.db]
      change (replay (S := shop) d₀ h₁).products.find? k = _
      cases (replay (S := shop) d₀ h₁).products.find? k with
      | none => rfl
      | some p => exact congrArg some p.take_zero.symm
  · rintro i env actor dto a hreq rfl ha
    obtain ⟨b, hb, hans⟩ := hr.sale ha hreq
    cases b with
    | error e => cases hb
    | ok answer =>
      cases hb
      obtain ⟨⟨row, hrow, hsame, heq⟩, -⟩ := hans
      exact ⟨row, answer, hrow, hsame, rfl, heq⟩
  · rintro i env actor dto row hreq rfl hrow hd
    refine ⟨?_, Lawful.sale_quiet hl hreq hrow hd, ?_⟩
    · intro a ha
      obtain ⟨b, hb, hans⟩ := hr.sale ha hreq
      cases b with
      | error e => cases hb
      | ok answer =>
        obtain ⟨⟨row', hrow', hsame, -⟩, -⟩ := hans
        cases hrow.symm.trans hrow'
        exact hd hsame
    · intro e h₁ q h₂ ha hsel he hn hf
      obtain ⟨b, hb, hans⟩ := hr.sale ha hreq
      cases b with
      | ok answer => cases hb
      | error e' =>
        cases hb
        exact hans.2.1 h₁ q h₂ row he hn hsel hf hd

/-- A sale, its resend, and another sale under the same id. -/
def Demo.resend : List Request :=
  [.createSale (env 1) actor (pair "sale"),
    .createSale (env 2) actor (pair "sale"),
    .createSale (env 3) actor (single "sale")]

/-- The resend looks before the sale commits, and loses the race for the id. -/
def Demo.resendSteps : List Nat :=
  List.replicate 3 0 ++ List.replicate 3 1 ++ List.replicate 14 0 ++ List.replicate 16 1 ++
    List.replicate 3 2

theorem sale_idempotent_resend :
    (∀ a, ¬ (Demo.run Demo.resend Demo.resendSteps).Answered 2 (.ok a)) ∧
      Quiet 2 (Demo.run Demo.resend Demo.resendSteps).hist := by
  have h := (sale_idempotent Demo.host Demo.db Demo.resend (Demo.run Demo.resend Demo.resendSteps)
    (Demo.reachable (by decide)) (uuid "sale")).2.2.2.2 2 _ _ _
    (((replay (S := shop) Demo.db (Demo.run Demo.resend Demo.resendSteps).hist).sales.find?
      (uuid "sale")).get (by decide)) rfl rfl (Option.some_get _).symm
    (by unfold SameContent; decide)
  exact ⟨h.1, h.2.1⟩

end Bazar.Shop
