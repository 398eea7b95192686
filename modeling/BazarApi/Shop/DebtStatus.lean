import BazarApi.Shop.Balances
import BazarApi.Shop.Ledger

/- When the status of a debt is exact. A debt is settled by the payment that completes its
   total, so a debt of nothing, which no payment completes, stays pending though nothing
   is left to pay: the status is exact as long as no debt is created of a product whose
   price is 0. -/
namespace Bazar.Shop

open Txn

/-- The status and the date of a debt say whether its payments reach its total. -/
def Deuda.StatusExact (d : Db) (x : Deuda) : Prop :=
  ((x.status = .saldada ∧ x.saldadaAt.isSome) ↔ d.paid x.id = x.totalMinor) ∧
    ((x.status = .pendiente ∧ x.saldadaAt = none) ↔ d.paid x.id < x.totalMinor)

def StatusExact (d : Db) : Prop := ∀ x ∈ d.deudas.rows, x.StatusExact d

/-- Settled debts carry the date. (Debts settled before the column existed carry none.) -/
def Dated (d : Db) : Prop := ∀ x ∈ d.deudas.rows, x.status = .saldada → x.saldadaAt.isSome

/-- Every debt is of something. -/
def Owing (d : Db) : Prop := ∀ x ∈ d.deudas.rows, 0 < x.totalMinor

/-- No debt of the history is created while its product is given away. -/
def PricedAtCreation (d₀ : Db) (reqs : List Request) (h : History shop) : Prop :=
  ∀ g c, g ++ [.commit c] <+: h → c.writes ≠ [] →
    ∀ env actor dto, reqs[c.pid]? = some (.createDeuda env actor dto) →
      ∀ p, (replay (S := shop) d₀ g).products.find? (uuid dto.productId) = some p →
        0 < p.unitPriceMinor

section
variable {d d' d₀ : Db} {host : Host} {i : Nat} {h h' : History shop} {r : Request}
variable {reqs : List Request}

/-! One state. -/

/-- The status of a balanced debt is exact when it is a debt of something. -/
theorem Deuda.Balanced.statusExact_iff {x : Deuda} (hx : x.Balanced d)
    (hdate : x.status = .saldada → x.saldadaAt.isSome) (hpaid : 0 ≤ d.paid x.id) :
    x.StatusExact d ↔ 0 < x.totalMinor := by
  have hwithin := hx.within
  have hnonneg := hx.nonneg
  have hstatus := hx.status
  constructor
  · rintro ⟨hsettled, -⟩
    by_contra hzero
    have hpaid0 : d.paid x.id = x.totalMinor := by omega
    have := (hstatus.mp (hsettled.mpr hpaid0).1).1
    omega
  · intro hpos
    have hreached : x.status = .saldada ↔ d.paid x.id = x.totalMinor := by
      rw [hstatus]
      omega
    have hnone : x.status = .pendiente → x.saldadaAt = none := by
      intro hp
      cases hs : x.saldadaAt with
      | none => rfl
      | some t =>
        have := hx.saldadaAt (by rw [hs]; rfl)
        rw [hp] at this
        cases this
    refine ⟨⟨fun hs => hreached.mp hs.1, fun he => ?_⟩, ⟨fun hs => ?_, fun hlt => ?_⟩⟩
    · exact ⟨hreached.mpr he, hdate (hreached.mpr he)⟩
    · have hne : d.paid x.id ≠ x.totalMinor := by
        intro he
        have := hreached.mpr he
        rw [hs.1] at this
        cases this
      omega
    · have hpend : x.status = .pendiente := by
        cases hs : x.status with
        | pendiente => rfl
        | saldada =>
          have := hreached.mp hs
          omega
      exact ⟨hpend, hnone hpend⟩

theorem Balances.statusExact_iff (hb : Balances d) (hd : Dated d) : StatusExact d ↔ Owing d := by
  unfold StatusExact Owing
  refine forall₂_congr fun x hx => ?_
  exact (hb.deudas x hx).statusExact_iff (hd x hx) (hb.paid_nonneg x.id)

/-! One commit. -/

theorem Dated.step (hd : Dated d) (hw : r.Writes host d₀ i h d d') : Dated d' := by
  intro y hy hs
  rcases hw.deudas with he | ⟨_, _, _, x, -, hx, he⟩ | ⟨_, _, _, _, x, _, now, -, -, -, he⟩
  · rw [he] at hy
    exact hd y hy hs
  · rw [he] at hy
    rcases Table.mem_put.mp hy with rfl | ⟨hold, -⟩
    · exact hx.saldadaAt.mpr hs
    · exact hd y hold hs
  · rw [he] at hy
    rcases Table.mem_put.mp hy with rfl | ⟨hold, -⟩
    · rfl
    · exact hd y hold hs

theorem Dated.replay (hd : Dated d₀) (hl : Lawful (Commits host d₀ reqs) h) :
    Dated (Txn.replay (S := shop) d₀ h) := by
  refine hl.induct (S := shop) d₀ Dated hd ?_
  intro h₁ c _ ih _ hc
  exact hc.keep ih fun r d' _ hw _ => ih.step hw

/-- A commit leaves only debts of something when the debt it creates, if any, is priced. -/
theorem Owing.step (ho : Owing d) (hf : FreshIds h) (hw : r.Writes host d₀ i h d d')
    (hp : ∀ env actor dto, r = .createDeuda env actor dto →
      ∀ p, d.products.find? (uuid dto.productId) = some p → 0 < p.unitPriceMinor) : Owing d' := by
  intro y hy
  rcases hw.deudas with he | ⟨env, actor, dto, x, rfl, hx, he⟩ |
    ⟨_, _, _, _, x, _, now, -, ha, -, he⟩
  · rw [he] at hy
    exact ho y hy
  · rw [he] at hy
    rcases Table.mem_put.mp hy with rfl | ⟨hold, -⟩
    · obtain ⟨p, hfind, htotal⟩ := hx.price hf
      rw [hx.productId] at hfind
      have hcantidad := dto.cantidad.pos
      rw [htotal, hx.cantidad]
      exact Int.mul_pos (hp env actor dto rfl p hfind) (by omega)
    · exact ho y hold
  · rw [he] at hy
    rcases Table.mem_put.mp hy with rfl | ⟨hold, -⟩
    · exact ho x (Table.mem_of_find? ha.deuda)
    · exact ho y hold

/-! Runs. -/

theorem PricedAtCreation.of_prefix (hp : PricedAtCreation d₀ reqs h') (hpre : h <+: h') :
    PricedAtCreation d₀ reqs h :=
  fun g c hg => hp g c (hg.trans hpre)

/-- Priced creations leave only debts of something. -/
theorem Owing.replay (ho : Owing d₀) (hl : Lawful (Commits host d₀ reqs) h) (hf : FreshIds h)
    (hp : PricedAtCreation d₀ reqs h) : Owing (Txn.replay (S := shop) d₀ h) := by
  refine hl.history_induct (P := fun h => FreshIds h → PricedAtCreation d₀ reqs h →
    Owing (Txn.replay (S := shop) d₀ h)) (fun _ _ => ho) ?_ ?_ hf hp
  · intro h₁ j q ih hf hp
    rw [replay_sent]
    exact ih (hf.of_prefix (List.prefix_append _ _)) (hp.of_prefix (List.prefix_append _ _))
  · intro h₁ c _ ih _ hc hf hp
    have hf₁ := hf.of_prefix (List.prefix_append h₁ [.commit c])
    have ih := ih hf₁ (hp.of_prefix (List.prefix_append _ _))
    rw [replay_committed]
    obtain ⟨r, hr, hn | ⟨hw, -⟩⟩ := hc
    · rw [hn]
      exact ih
    · by_cases hn : c.writes = []
      · rw [hn]
        exact ih
      · refine ih.step hf₁ hw ?_
        rintro env actor dto rfl
        exact hp h₁ c List.prefix_rfl hn env actor dto hr

/-- A debt once created is there to the end, so each was created of a priced product. -/
theorem PricedAtCreation.of_owing (hl : Lawful (Commits host d₀ reqs) h) (hf : FreshIds h)
    (ho : Owing (Txn.replay (S := shop) d₀ h)) (hp : PricesNonneg d₀) :
    PricedAtCreation d₀ reqs h := by
  intro g c hg hne env actor dto hreq p hfind
  have hcommits : Commits host d₀ reqs g c := by
    obtain ⟨n, hn⟩ := hg
    exact (hl g c n (by rw [← hn]; simp)).2
  obtain ⟨r, hr, hn | ⟨hw, -⟩⟩ := hcommits
  · exact absurd hn hne
  · cases hreq.symm.trans hr
    obtain ⟨x, hx⟩ := hw
    have hfg := hf.of_prefix ((List.prefix_append g [.commit c]).trans hg)
    have hrow : (Txn.replay (S := shop) d₀ (g ++ [.commit c])).deudas.find? x.id = some x := by
      rw [replay_committed, hx.db]
      exact Table.find?_put_self
    obtain ⟨x', hx', hv⟩ := Lawful.deuda_kept hl hg hrow
    have hpos := ho x' (Table.mem_of_find? hx')
    rw [hv.totalMinor] at hpos
    obtain ⟨q, hq, htotal⟩ := hx.price hfg
    rw [hx.productId, hfind] at hq
    cases hq
    have hprice := hp.replay (hl.of_prefix ((List.prefix_append g [.commit c]).trans hg)) p
      (Table.mem_of_find? hfind)
    rcases Int.lt_or_eq_of_le hprice with hlt | heq
    · exact hlt
    · rw [htotal, ← heq, Int.zero_mul] at hpos
      exact absurd hpos (lt_irrefl 0)

end

/-- In every committed state of every run the status of every debt is exact if and only if
no debt was created so far of a product priced 0. -/
theorem status_exact_iff (host : Host) (d₀ : Db) (reqs : List Request) (s : Sys shop Answer)
    (hb : Balances d₀) (hp : PricesNonneg d₀) (hd : Dated d₀) (he : StatusExact d₀)
    (hr : Reachable host d₀ reqs s) (hf : FreshIds s.hist) (h : History shop) (hpre : h <+: s.hist) :
    StatusExact (replay (S := shop) d₀ h) ↔ PricedAtCreation d₀ reqs h := by
  have hl := hr.lawful.of_prefix hpre
  have hfh := hf.of_prefix hpre
  rw [(hb.replay hp hl).statusExact_iff (hd.replay hl)]
  constructor
  · intro ho
    exact PricedAtCreation.of_owing hl hfh ho hp
  · intro hpriced
    exact Owing.replay ((hb.statusExact_iff hd).mp he) hl hfh hpriced

theorem Demo.statusExact : StatusExact Demo.db ∧ Dated Demo.db :=
  ⟨fun _ hx => (List.not_mem_nil hx).elim, fun _ hx => (List.not_mem_nil hx).elim⟩

theorem status_exact_iff_paid :
    StatusExact (replay (S := shop) Demo.db (Demo.run Demo.payments Demo.paymentsSteps).hist) := by
  have hr : Reachable Demo.host Demo.db Demo.payments (Demo.run Demo.payments Demo.paymentsSteps) :=
    Demo.reachable (by decide)
  have hf := FreshIds.of_noProducts
    (h := (Demo.run Demo.payments Demo.paymentsSteps).hist) (by decide)
  refine (status_exact_iff Demo.host Demo.db Demo.payments _ Demo.balances Demo.priced
    Demo.statusExact.2 Demo.statusExact.1 hr hf _ List.prefix_rfl).mpr ?_
  refine PricedAtCreation.of_owing hr.lawful hf ?_ Demo.priced
  unfold Owing
  decide

/-- A product given away from now on, and a debt of it without a first payment. -/
def Demo.giveaway : List Request :=
  [.patchProduct (env 1) actor "b"
      ⟨none, some ⟨0, by decide, by decide⟩, none, none, none, none, none, none, none⟩,
    .createDeuda (env 2) actor (deuda "debt" "b" ⟨0, by decide, by decide⟩)]

def Demo.giveawaySteps : List Nat := List.replicate 9 0 ++ List.replicate 13 1

/-- Nothing is left to pay of the debt, and it is pending. -/
theorem status_inexact_giveaway :
    Reachable Demo.host Demo.db Demo.giveaway (Demo.run Demo.giveaway Demo.giveawaySteps) ∧
      ∃ x ∈ (replay (S := shop) Demo.db
          (Demo.run Demo.giveaway Demo.giveawaySteps).hist).deudas.rows,
        (replay (S := shop) Demo.db (Demo.run Demo.giveaway Demo.giveawaySteps).hist).paid x.id =
          x.totalMinor ∧ x.status = .pendiente ∧ x.saldadaAt = none := by
  refine ⟨Demo.reachable (by decide), ?_⟩
  decide

end Bazar.Shop
