import BazarApi.Shop.Conflicts
import BazarApi.Shop.SalesOnce

/- A sale is all or nothing. Whatever the others do, at most one commit of a sale
   request writes: it sells the whole cart, with a row whose columns add up, or it
   records the stock conflict and touches nothing else. A request that fails has
   written nothing, at whatever line it failed. -/
namespace Bazar.Shop

open Txn

/-- The request sold its whole cart: a line for each of its items, the pieces are gone, the
row is there, and nothing else changed. -/
def SoldWhole (dto : CreateSaleDto) (d d' : Db) (row : Sale) : Prop :=
  row.status = .completada ∧ AddsUp row ∧
    (row.items.map fun x => (x.productId, x.quantity)) =
      dto.items.map (fun x => (uuid x.productId, x.quantity.val)) ∧
    Taken d d' (soldOf row.items) ∧
    d' = { d with products := d'.products, sales := d.sales.put row }

/-- The request recorded a stock conflict that another sale or debt caused, and changed
nothing else. -/
def RejectedWhole (d₀ : Db) (reqs : List Request) (i : Nat) (contextId : String)
    (dto : CreateSaleDto) (h : History shop) (d d' : Db) (row : Sale) : Prop :=
  row.status = .rechazadaPorConflicto ∧ row.items = [] ∧
    (∃ x, row.incidencias = [x] ∧ x.type = .conflictoStock) ∧
    d' = { d with sales := d.sales.put row } ∧
    ∃ b, Beaten d₀ i contextId dto h b ∧ IsTrade reqs b.pid

section
variable {host : Host} {d₀ : Db} {reqs : List Request} {i : Nat} {h : History shop}

/-- What a sale request writes is one of the two. -/
theorem SaleWritten.whole {actor : Actor} {dto : CreateSaleDto} {d d' : Db} {row : Sale}
    (hl : Lawful (Commits host d₀ reqs) h) (hs : SaleWritten host i actor dto d₀ h d d' row) :
    SoldWhole dto d d' row ∨ RejectedWhole d₀ reqs i actor.account.contextId dto h d d' row := by
  rcases hs.outcome with ⟨ho, -⟩ | ⟨ho, hlost⟩
  · exact .inl ⟨ho.status, ho.addsUp, ho.items, ho.taken, ho.db⟩
  · obtain ⟨b, hb⟩ := hlost.beaten hl
    exact .inr ⟨ho.status, ho.items, ho.incidencias, ho.db, b, hb, hb.trade hl⟩

/-- A request that found a sale under its id writes none. -/
theorem Lawful.quiet_of_taken (hl : Lawful (Commits host d₀ reqs) h) {env : Env} {actor : Actor}
    {dto : CreateSaleDto} (hreq : reqs[i]? = some (.createSale env actor dto))
    (ht : SaleTaken d₀ i dto h) : Quiet i h := by
  obtain ⟨h₁, q, row, ⟨n, rfl⟩, hq, hrow⟩ := ht
  intro c hc hi
  by_contra hw
  subst hi
  obtain ⟨g, g', he⟩ := List.append_of_mem hc
  rcases split_cases (show h₁ ++ [.exec c.pid q] ++ n = h₁ ++ .exec c.pid q :: n by simp) he with
    heq | hle | hle
  · subst heq
    cases List.append_cancel_left ((show h₁ ++ .exec c.pid q :: n = h₁ ++ .commit c :: g' by
      rw [← he]; simp))
  · -- it commits after the look, and the row is still there
    obtain ⟨-, hcom⟩ := hl g c g' he
    obtain ⟨row', hs⟩ := hcom.sale hw hreq
    have hpre : h₁ <+: g := (List.prefix_append _ _).trans hle
    have hkept := Lawful.sale_kept (hl.of_prefix (he ▸ List.prefix_append _ _)) hpre hrow
    have hf := hs.fresh
    rw [hs.id, hkept] at hf
    cases hf
  · exact hw (hq c (hle.subset (by simp)) rfl)

end

/-- In every run, for every sale request: a commit of it that writes sells the whole cart
or records the conflict, on a free id; at most one does. A success shows the row of its
id: one the request wrote adds up if it is completed, and a replay wrote nothing. A
failure, unless the database raised it by itself, wrote nothing. -/
theorem sale_all_or_nothing (host : Host) (d₀ : Db) (reqs : List Request) (s : Sys shop Answer)
    (hr : Reachable host d₀ reqs s) (i : Nat) (env : Env) (actor : Actor) (dto : CreateSaleDto)
    (hreq : reqs[i]? = some (.createSale env actor dto)) :
    (∀ h c, h ++ [.commit c] <+: s.hist → c.pid = i → c.writes ≠ [] →
      ∃ row, row.id = uuid dto.id ∧ (replay (S := shop) d₀ h).sales.find? row.id = none ∧
        (SoldWhole dto (replay (S := shop) d₀ h) (replay (S := shop) d₀ (h ++ [.commit c])) row ∨
          RejectedWhole d₀ reqs i actor.account.contextId dto h (replay (S := shop) d₀ h)
            (replay (S := shop) d₀ (h ++ [.commit c])) row)) ∧
    (∀ h₁ c h₂ h₁' c' h₂', s.hist = h₁ ++ .commit c :: h₂ → s.hist = h₁' ++ .commit c' :: h₂' →
      c.pid = i → c'.pid = i → c.writes ≠ [] → c'.writes ≠ [] → h₁ = h₁') ∧
    (∀ a, s.Answered i (.ok a) → ∃ answer row, a = .sale answer ∧
      (replay (S := shop) d₀ s.hist).sales.find? (uuid dto.id) = some row ∧
      answer.sale = Sales.response row ∧
      (answer.created = true → row.status = .completada → AddsUp row) ∧
      (answer.created = false → Quiet i s.hist)) ∧
    ∀ e, s.Answered i (.error e) → ¬ e.spontaneous → Quiet i s.hist := by
  have hl := hr.lawful
  refine ⟨?_, ?_, ?_, ?_⟩
  · rintro h c hp rfl hw
    have hl' := hl.of_prefix hp
    obtain ⟨-, hcom⟩ := hl' h c [] rfl
    obtain ⟨row, hs⟩ := hcom.sale hw hreq
    exact ⟨row, hs.id, hs.fresh, hs.whole (hl'.of_prefix (List.prefix_append _ _))⟩
  · rintro h₁ c h₂ h₁' c' h₂' he he' hi hi' hw hw'
    have hsale : IsSale reqs (uuid dto.id) i := ⟨env, actor, dto, hreq, rfl⟩
    exact Lawful.sale_once hl he he' (hi ▸ hsale) (hi' ▸ hsale) hw hw'
  · intro a ha
    obtain ⟨b, hb, hans⟩ := hr.sale ha hreq
    cases b with
    | error e => cases hb
    | ok answer =>
      cases hb
      obtain ⟨⟨row, hrow, -, heq⟩, how⟩ := hans
      refine ⟨answer, row, rfl, hrow, heq, ?_, ?_⟩
      · intro hc hst
        rcases how with ⟨hc', -⟩ | ⟨-, hn⟩
        · cases hc.symm.trans hc'
        · -- the row is the one its commit wrote
          have hex : ∃ c, .commit c ∈ s.hist ∧ c.pid = i ∧ c.writes ≠ [] := by
            by_contra hno
            refine hn fun c hm hi => ?_
            by_contra hw
            exact hno ⟨c, hm, hi, hw⟩
          obtain ⟨c, hm, rfl, hw⟩ := hex
          obtain ⟨h₁, h₂, he⟩ := List.append_of_mem hm
          have hp : h₁ ++ [.commit c] <+: s.hist := ⟨h₂, by rw [he]; simp⟩
          obtain ⟨row', hs, hrow'⟩ := Lawful.sale_written hl hp hw hreq
          cases hrow.symm.trans hrow'
          rcases hs.outcome with ⟨ho, -⟩ | ⟨ho, -⟩
          · exact ho.addsUp
          · cases hst.symm.trans ho.status
      · intro hc
        rcases how with ⟨-, ht⟩ | ⟨hc', -⟩
        · exact Lawful.quiet_of_taken hl hreq ht
        · cases hc.symm.trans hc'
  · intro e ha hsp
    obtain ⟨b, hb, hans⟩ := hr.sale ha hreq
    cases b with
    | ok answer => cases hb
    | error e' =>
      cases hb
      exact hans.1 hsp

/-- A cart that runs out of stock at its last line. -/
def Demo.short : List Request :=
  [.createSale (env 1) actor
    (sale "sale" [item "a", item "b", item "b"] (by decide) (by decide))]

def Demo.shortSteps : List Nat := List.replicate 20 0

theorem sale_all_or_nothing_short : Quiet 0 (Demo.run Demo.short Demo.shortSteps).hist := by
  refine (sale_all_or_nothing Demo.host Demo.db Demo.short (Demo.run Demo.short Demo.shortSteps)
    (Demo.reachable (by decide)) 0 _ _ _ rfl).2.2.2
    (Sales.insufficientStock "b") (Sys.answered_of_answer? (by rfl))
    (by simp [Sales.insufficientStock, Err.spontaneous])

end Bazar.Shop
