import BazarApi.Shop.Runs

/- A debt is never overpaid and never reopened. `Balances` is the invariant: what was
   paid of a debt stays within its total, and the debt is settled exactly when the
   total is reached. A settled debt is then never written again, since every payment
   would exceed its balance. -/
namespace Bazar.Shop

open Txn

/-- What was paid of a debt. -/
def Db.paid (d : Db) (k : Uuid) : Int :=
  d.abonos.total fun a => if a.deudaId = k then a.montoMinor else 0

/-- A debt whose columns agree with its payments. -/
structure Deuda.Balanced (d : Db) (x : Deuda) : Prop where
  nonneg : 0 ≤ x.totalMinor
  within : d.paid x.id ≤ x.totalMinor
  status : x.status = .saldada ↔ 0 < d.paid x.id ∧ x.totalMinor ≤ d.paid x.id
  saldadaAt : x.saldadaAt.isSome → x.status = .saldada

/-- Every debt is balanced; every payment is of a debt of its own context. -/
structure Balances (d : Db) : Prop where
  deudas : ∀ x ∈ d.deudas.rows, x.Balanced d
  abonos : ∀ a ∈ d.abonos.rows, 0 < a.montoMinor ∧
    ∃ x, d.deudas.find? a.deudaId = some x ∧ x.contextId = a.contextId

/-- No price is negative. -/
def PricesNonneg (d : Db) : Prop := ∀ p ∈ d.products.rows, 0 ≤ p.unitPriceMinor

/-- A shop without debts is balanced. -/
theorem Balances.empty {d : Db} (hd : d.deudas = Table.empty) (ha : d.abonos = Table.empty) :
    Balances d := by
  refine ⟨?_, ?_⟩
  · rw [hd]
    intro x hx
    cases hx
  · rw [ha]
    intro a ha
    cases ha

section
variable {d d' d₀ : Db} {k : Uuid} {host : Host} {i : Nat} {h h' : History shop} {r : Request}
variable {reqs : List Request}

/-! Prices. -/

/-- No commit makes a price negative. -/
theorem PricesNonneg.step (hp : PricesNonneg d) (hw : r.Writes host d₀ i h d d') : PricesNonneg d' := by
  refine hw.products_all hp (fun _ _ h => h) (fun _ hq => hq.price) ?_ (fun _ h => h)
  intro id data p hc h
  change 0 ≤ data.unitPriceMinor.getD p.unitPriceMinor
  cases hu : data.unitPriceMinor with
  | none => exact h
  | some v => exact hc.price v hu

theorem PricesNonneg.replay (hp : PricesNonneg d₀) (hl : Lawful (Commits host d₀ reqs) h) :
    PricesNonneg (Txn.replay (S := shop) d₀ h) := by
  refine hl.induct (S := shop) d₀ PricesNonneg hp ?_
  intro h₁ c _ ih _ hc
  exact hc.keep ih fun r d' _ hw _ => ih.step hw

/-! Sums of payments. -/

theorem paid_put {a : Abono} (hf : d.abonos.find? a.id = none) (hd : d'.abonos = d.abonos.put a)
    (k : Uuid) : d'.paid k = d.paid k + if a.deudaId = k then a.montoMinor else 0 := by
  unfold Db.paid
  rw [hd]
  exact Table.total_put_new _ hf

theorem paid_congr (hd : d'.abonos = d.abonos) (k : Uuid) : d'.paid k = d.paid k := by
  unfold Db.paid
  rw [hd]

/-- The sum the service asks for is what was paid: every payment of a debt is of its context. -/
theorem Balances.sumAbonos (hb : Balances d) {x : Deuda} (hx : d.deudas.find? k = some x) :
    d.sumAbonos k x.contextId = d.paid k := by
  refine Table.total_congr fun a ha => ?_
  obtain ⟨-, y, hy, hc⟩ := hb.abonos a ha
  by_cases hk : a.deudaId = k
  · rw [hk, hx] at hy
    cases hy
    rw [if_pos ⟨hk, hc.symm⟩, if_pos hk]
  · rw [if_neg (fun h => hk h.1), if_neg hk]

theorem Balances.paid_nonneg (hb : Balances d) (k : Uuid) : 0 ≤ d.paid k := by
  refine Table.total_nonneg _ fun a ha => ?_
  split
  · exact le_of_lt (hb.abonos a ha).1
  · exact le_refl 0

/-- Nothing was paid of a debt that is not there. -/
theorem Balances.paid_none (hb : Balances d) (hk : d.deudas.find? k = none) : d.paid k = 0 := by
  unfold Db.paid
  rw [Table.total_congr (g := fun _ => 0)]
  · simp [Table.total]
  · intro a ha
    refine if_neg ?_
    rintro rfl
    obtain ⟨-, y, hy, -⟩ := hb.abonos a ha
    rw [hk] at hy
    cases hy

/-! One commit. -/

/-- Debts and payments as they were. -/
theorem Balances.congr (hb : Balances d) (hd : d'.deudas = d.deudas) (ha : d'.abonos = d.abonos) :
    Balances d' := by
  refine ⟨?_, ?_⟩
  · rw [hd]
    intro x hx
    obtain ⟨h0, hw, hs, ht⟩ := hb.deudas x hx
    exact ⟨h0, by rw [paid_congr ha]; exact hw, by rw [paid_congr ha]; exact hs, ht⟩
  · rw [hd, ha]
    exact hb.abonos

/-- A debt whose payments are as they were. -/
theorem Deuda.Balanced.congr {x : Deuda} (hx : x.Balanced d) (hp : d'.paid x.id = d.paid x.id) :
    x.Balanced d' :=
  ⟨hx.nonneg, by rw [hp]; exact hx.within, by rw [hp]; exact hx.status, hx.saldadaAt⟩

/-- What was paid once a debt is created: its first payment, of that debt. -/
theorem DeudaCreated.paid {actor : Actor} {dto : CreateDeudaDto} {x : Deuda} (hb : Balances d)
    (hx : DeudaCreated host actor dto d₀ h d d' x) :
    d'.paid x.id = dto.abonoInicialMinor.val ∧ (∀ k, k ≠ x.id → d'.paid k = d.paid k) ∧
      (0 < dto.abonoInicialMinor.val → dto.abonoInicialMinor.val ≤ x.totalMinor) ∧
      ∀ a ∈ d'.abonos.rows, a ∈ d.abonos.rows ∨
        (0 < a.montoMinor ∧ a.deudaId = x.id ∧ a.contextId = x.contextId) := by
  have hnone := hb.paid_none hx.fresh
  have h0 : 0 ≤ dto.abonoInicialMinor.val := dto.abonoInicialMinor.nonneg
  have hab := hx.abono
  unfold FirstAbono at hab
  split at hab
  · rename_i hpos
    obtain ⟨a, hd, hc, hm, hle, hf, he⟩ := hab
    refine ⟨?_, ?_, fun _ => hle, ?_⟩
    · rw [paid_put hf he, hnone, if_pos hd, hm, Int.zero_add]
    · intro k hk
      rw [paid_put hf he, if_neg (fun h => hk (h.symm.trans hd)), Int.add_zero]
    · rw [he]
      intro b hm'
      rcases Table.mem_put.mp hm' with rfl | ⟨hold, -⟩
      · exact .inr ⟨by rw [hm]; exact hpos, hd, hc⟩
      · exact .inl hold
  · rename_i hpos
    refine ⟨?_, fun k _ => paid_congr hab k, fun h => absurd h hpos, ?_⟩
    · rw [paid_congr hab, hnone]
      omega
    · rw [hab]
      exact fun a ha => .inl ha

/-- A debt created is balanced, and so are the others. -/
theorem Balances.created {actor : Actor} {dto : CreateDeudaDto} {x : Deuda} (hb : Balances d)
    (hp : ∀ h₁, h₁ <+: h → PricesNonneg (Txn.replay (S := shop) d₀ h₁))
    (hx : DeudaCreated host actor dto d₀ h d d' x) : Balances d' := by
  have hdeudas : d'.deudas = d.deudas.put x := by rw [hx.db]
  have h0 : 0 ≤ dto.abonoInicialMinor.val := dto.abonoInicialMinor.nonneg
  obtain ⟨hself, hothers, hwithin, hrows⟩ := hx.paid hb
  refine ⟨?_, ?_⟩
  · rw [hdeudas]
    intro y hy
    rcases Table.mem_put.mp hy with rfl | ⟨hold, hne⟩
    · have htotal : 0 ≤ y.totalMinor := by
        obtain ⟨h₁, p, hp₁, hf, ht⟩ := hx.total
        rw [ht, hx.cantidad]
        exact Int.mul_nonneg (hp h₁ hp₁ p (Table.mem_of_find? hf))
          (le_trans (by decide) dto.cantidad.pos)
      refine ⟨htotal, ?_, ?_, hx.saldadaAt.mp⟩
      · rw [hself]
        by_cases hpos : 0 < dto.abonoInicialMinor.val
        · exact hwithin hpos
        · omega
      · rw [hself]
        exact hx.status
    · exact (hb.deudas y hold).congr (hothers y.id hne)
  · intro a ha
    rw [hdeudas]
    rcases hrows a ha with hold | ⟨hpos, hd, hc⟩
    · obtain ⟨hpos, y, hy, hc⟩ := hb.abonos a hold
      refine ⟨hpos, y, ?_, hc⟩
      rw [Table.find?_put_ne]
      · exact hy
      · intro he
        have hf := hx.fresh
        change d.deudas.find? (Keyed.key x) = none at hf
        rw [← he, hy] at hf
        cases hf
    · refine ⟨hpos, x, ?_, hc.symm⟩
      rw [hd]
      exact Table.find?_put_self

/-- What was paid after a payment, which stayed within the debt. -/
theorem AbonoRegistered.paid {contextId : String} {dto : CreateAbonoDto} {x : Deuda} {a : Abono}
    {now : Instant} (hb : Balances d) (ha : AbonoRegistered contextId k dto d d' x a now) :
    d.paid k + dto.montoMinor.val ≤ x.totalMinor ∧
      (∀ k', d'.paid k' = d.paid k' + if k = k' then dto.montoMinor.val else 0) ∧
      d'.deudas = if x.totalMinor ≤ d.paid k + dto.montoMinor.val then
        d.deudas.put { x with status := .saldada, saldadaAt := some now } else d.deudas := by
  have hsum : d.sumAbonos k contextId = d.paid k := by
    rw [← ha.deudaContext]
    exact hb.sumAbonos ha.deuda
  refine ⟨hsum ▸ ha.within, ?_, by rw [ha.db, hsum]⟩
  intro k'
  rw [paid_put ha.fresh (by rw [ha.db]), ha.abonoDeuda, ha.montoMinor]

/-- A payment leaves its debt balanced, settled or not. -/
theorem Balances.registered {contextId : String} {dto : CreateAbonoDto} {x : Deuda} {a : Abono}
    {now : Instant} (hb : Balances d) (ha : AbonoRegistered contextId k dto d d' x a now) :
    Balances d' := by
  have hid : x.id = k := Table.find?_key ha.deuda
  have hx := hb.deudas x (Table.mem_of_find? ha.deuda)
  have habonos : d'.abonos = d.abonos.put a := by rw [ha.db]
  obtain ⟨hwithin, hpaid, hdeudas⟩ := ha.paid hb
  have hself := hpaid k
  rw [if_pos rfl] at hself
  have hpos := dto.montoMinor.pos
  have h0 := hb.paid_nonneg k
  have hxs := hx.status
  rw [hid] at hxs
  have hkey : ∀ {y : Deuda}, y ∈ d.deudas.rows → y.id = k → y = x := by
    intro y hy hyk
    have hf : d.deudas.find? y.id = some y := Table.find?_of_mem hy
    rw [hyk, ha.deuda] at hf
    exact (Option.some.inj hf).symm
  have hothers : ∀ {y : Deuda}, y ∈ d.deudas.rows → y.id ≠ k → y.Balanced d' := by
    intro y hy hne
    refine (hb.deudas y hy).congr ?_
    rw [hpaid, if_neg (Ne.symm hne), Int.add_zero]
  refine ⟨?_, ?_⟩
  · rw [hdeudas]
    split
    · rename_i hle
      intro y hy
      rcases Table.mem_put.mp hy with rfl | ⟨hold, hne⟩
      · refine ⟨hx.nonneg, ?_, ?_, fun _ => rfl⟩
        · change d'.paid x.id ≤ x.totalMinor
          rw [hid]
          omega
        · change DeudaStatus.saldada = .saldada ↔ 0 < d'.paid x.id ∧ x.totalMinor ≤ d'.paid x.id
          rw [hid]
          exact ⟨fun _ => ⟨by omega, by omega⟩, fun _ => rfl⟩
      · exact hothers hold (fun he => hne (he.trans hid.symm))
    · rename_i hle
      intro y hy
      by_cases hyk : y.id = k
      · obtain rfl := hkey hy hyk
        refine ⟨hx.nonneg, by rw [hid]; omega, ?_, hx.saldadaAt⟩
        rw [hid, hxs]
        constructor
        · rintro ⟨-, h⟩
          omega
        · rintro ⟨-, h⟩
          omega
      · exact hothers hy hyk
  · rw [habonos]
    intro b hb'
    have hkept : ∀ {k' y}, d.deudas.find? k' = some y →
        ∃ y', d'.deudas.find? k' = some y' ∧ y'.contextId = y.contextId := by
      intro k' y hy
      rw [hdeudas]
      split
      · rw [Table.find?_put]
        split
        · rename_i he
          refine ⟨_, rfl, ?_⟩
          change k' = x.id at he
          rw [he, hid, ha.deuda] at hy
          cases hy
          rfl
        · exact ⟨y, hy, rfl⟩
      · exact ⟨y, hy, rfl⟩
    rcases Table.mem_put.mp hb' with rfl | ⟨hold, -⟩
    · refine ⟨by rw [ha.montoMinor]; exact hpos, ?_⟩
      obtain ⟨y', hy', hc⟩ := hkept ha.deuda
      rw [ha.abonoDeuda, ha.abonoContext]
      exact ⟨y', hy', hc.trans ha.deudaContext⟩
    · obtain ⟨hpos, y, hy, hc⟩ := hb.abonos b hold
      obtain ⟨y', hy', hc'⟩ := hkept hy
      exact ⟨hpos, y', hy', hc'.trans hc⟩

/-- Every commit keeps the debts balanced. -/
theorem Balances.step (hb : Balances d)
    (hp : ∀ h₁, h₁ <+: h → PricesNonneg (Txn.replay (S := shop) d₀ h₁)) (hw : r.Writes host d₀ i h d d') :
    Balances d' := by
  rcases hw.kinds with ⟨_, _, _, s, -, hs⟩ | ⟨_, _, _, x, -, hx⟩ | ⟨_, _, _, _, x, a, now, -, ha⟩ |
    he | he
  · exact hb.congr (by rw [hs.db]) (by rw [hs.db])
  · exact hb.created hp hx
  · exact hb.registered ha
  · exact hb.congr (by rw [he]) (by rw [he])
  · exact hb.congr (by rw [show d' = _ from he]) (by rw [show d' = _ from he])

theorem Balances.replay (hb : Balances d₀) (hp : PricesNonneg d₀) (hl : Lawful (Commits host d₀ reqs) h) :
    Balances (Txn.replay (S := shop) d₀ h) := by
  refine hl.induct (S := shop) d₀ Balances hb ?_
  intro h₁ c hl₁ ih _ hc
  exact hc.keep ih fun r d' _ hw _ => ih.step (fun h₂ hp₂ => hp.replay (hl₁.of_prefix hp₂)) hw

/-! Settled debts. -/

/-- A payment of a settled debt would exceed it. -/
theorem AbonoRegistered.open_debt {contextId : String} {dto : CreateAbonoDto} {x : Deuda} {a : Abono}
    {now : Instant} (hb : Balances d) (ha : AbonoRegistered contextId k dto d d' x a now) :
    x.status ≠ .saldada := by
  intro hs
  have hid : x.id = k := Table.find?_key ha.deuda
  have hx := (hb.deudas x (Table.mem_of_find? ha.deuda)).status.mp hs
  rw [hid] at hx
  have hle := (ha.paid hb).1
  have hpos := dto.montoMinor.pos
  omega

/-- A commit neither writes a settled debt nor pays it. -/
theorem Request.Writes.settled (hb : Balances d) (hw : r.Writes host d₀ i h d d') {x : Deuda}
    (hx : d.deudas.find? k = some x) (hs : x.status = .saldada) :
    d'.deudas.find? k = some x ∧
      (∀ a ∈ d'.abonos.rows, a.deudaId = k → a ∈ d.abonos.rows) ∧
      ∀ env actor id dto, r = .registerAbono env actor id dto → uuid id ≠ k := by
  have hpay : ∀ env actor id dto, r = .registerAbono env actor id dto → uuid id ≠ k := by
    rintro env actor id dto rfl rfl
    obtain ⟨y, a, now, ha⟩ := hw
    cases hx.symm.trans ha.deuda
    exact ha.open_debt hb hs
  refine ⟨?_, ?_, hpay⟩
  · rcases hw.deudas with he | ⟨_, _, _, y, -, hy, he⟩ | ⟨env, actor, id, dto, y, _, now, rfl, ha, -, he⟩
    · rw [he]
      exact hx
    · rw [he, Table.find?_put_ne]
      · exact hx
      · rintro rfl
        cases hx.symm.trans hy.fresh
    · rw [he, Table.find?_put_ne]
      · exact hx
      · intro hk
        have hid : y.id = uuid id := Table.find?_key ha.deuda
        exact hpay env actor id dto rfl (hid.symm.trans hk.symm)
  · rcases hw.abonos with he | ⟨a, hf, he, ⟨_, _, _, y, -, hy, hd, -⟩ |
      ⟨env, actor, id, dto, y, now, rfl, ha⟩⟩
    · rw [he]
      exact fun a ha _ => ha
    · rw [he]
      intro b hb' hbk
      rcases Table.mem_put.mp hb' with rfl | ⟨hold, -⟩
      · rw [← hbk, hd, hy.fresh] at hx
        cases hx
      · exact hold
    · rw [he]
      intro b hb' hbk
      rcases Table.mem_put.mp hb' with rfl | ⟨hold, -⟩
      · exact absurd (ha.abonoDeuda.symm.trans hbk) (hpay env actor id dto rfl)
      · exact hold

/-- A commit settles a debt, and dates it, exactly when its payment completes the total. -/
theorem Request.Writes.settles (hb : Balances d) (hw : r.Writes host d₀ i h d d') {x' : Deuda}
    (hx' : d'.deudas.find? k = some x') :
    (x'.saldadaAt.isSome ∧ ∀ x, d.deudas.find? k = some x → x.saldadaAt = none) ↔
      d.paid k < d'.paid k ∧ d'.paid k = x'.totalMinor := by
  -- nothing of the debt `k` changed
  have same : d.deudas.find? k = some x' → d'.paid k = d.paid k →
      ((x'.saldadaAt.isSome ∧ ∀ x, d.deudas.find? k = some x → x.saldadaAt = none) ↔
        d.paid k < d'.paid k ∧ d'.paid k = x'.totalMinor) := by
    intro hx hp
    constructor
    · rintro ⟨hs, hn⟩
      rw [hn x' hx] at hs
      cases hs
    · rintro ⟨hlt, -⟩
      omega
  rcases hw.kinds with ⟨_, _, _, s, -, hs⟩ | ⟨_, _, dto, x, -, hx⟩ |
    ⟨_, _, id, dto, x, a, now, -, ha⟩ | he | he
  · rw [hs.db] at hx'
    exact same hx' (paid_congr (by rw [hs.db]) k)
  · obtain ⟨hself, hothers, hwithin, -⟩ := hx.paid hb
    have hfind : (d.deudas.put x).find? k = some x' := by
      rw [hx.db] at hx'
      exact hx'
    rw [Table.find?_put] at hfind
    split at hfind
    · rename_i hk
      cases hfind
      change k = x'.id at hk
      rw [hk, hself, hb.paid_none hx.fresh, hx.saldadaAt, hx.status]
      constructor
      · rintro ⟨⟨hpos, hle⟩, -⟩
        exact ⟨hpos, le_antisymm (hwithin hpos) hle⟩
      · rintro ⟨hpos, heq⟩
        refine ⟨⟨hpos, le_of_eq heq.symm⟩, ?_⟩
        intro y hy
        cases hy.symm.trans hx.fresh
    · rename_i hk
      exact same hfind (hothers k hk)
  · obtain ⟨hwithin, hpaid, hdeudas⟩ := ha.paid hb
    have hid : x.id = uuid id := Table.find?_key ha.deuda
    have hxb := hb.deudas x (Table.mem_of_find? ha.deuda)
    have hpos := dto.montoMinor.pos
    by_cases hk : uuid id = k
    · subst hk
      have hself := hpaid (uuid id)
      rw [if_pos rfl] at hself
      rw [hdeudas] at hx'
      split at hx'
      · rename_i hle
        rw [← hid] at hx'
        have hput := Table.find?_put_self (t := d.deudas)
          (r := { x with status := .saldada, saldadaAt := some now })
        cases hx'.symm.trans hput
        constructor
        · intro _
          change _ ∧ d'.paid (uuid id) = x.totalMinor
          omega
        · intro _
          refine ⟨rfl, ?_⟩
          intro y hy
          cases hy.symm.trans ha.deuda
          -- a dated debt is settled, and a settled one takes no payment
          cases hsal : x.saldadaAt with
          | none => rfl
          | some t => exact absurd (hxb.saldadaAt (by rw [hsal]; rfl)) (ha.open_debt hb)
      · rename_i hlt
        cases hx'.symm.trans ha.deuda
        constructor
        · rintro ⟨hs, hn⟩
          rw [hn _ ha.deuda] at hs
          cases hs
        · rintro ⟨-, heq⟩
          omega
    · have hp := hpaid k
      rw [if_neg hk, Int.add_zero] at hp
      refine same ?_ hp
      rw [hdeudas] at hx'
      split at hx'
      · rwa [Table.find?_put_ne] at hx'
        exact fun h => hk (hid.symm.trans h.symm)
      · exact hx'
  · rw [he] at hx'
    exact same hx' (paid_congr (by rw [he]) k)
  · rw [show d' = _ from he] at hx'
    exact same hx' (paid_congr (by rw [show d' = _ from he]) k)

end

/-! Runs. -/

/-- Request `i` edits a schedule. -/
def IsCuota (reqs : List Request) (i : Nat) : Prop :=
  (∃ env actor id dto, reqs[i]? = some (.addCuota env actor id dto)) ∨
    (∃ actor id cuotaId dto, reqs[i]? = some (.updateCuota actor id cuotaId dto)) ∨
    ∃ actor id cuotaId, reqs[i]? = some (.deleteCuota actor id cuotaId)

/-- In every committed state of every run what was paid of a debt is within its total; a
settled debt stays as it is and takes no further payment; a debt is dated exactly by the
commit whose payment completes its total; and an edit of a schedule changes neither debts
nor payments. -/
theorem never_overpaid (host : Host) (d₀ : Db) (reqs : List Request) (s : Sys shop Answer)
    (hb : Balances d₀) (hp : PricesNonneg d₀) (hr : Reachable host d₀ reqs s) :
    (∀ h, h <+: s.hist → ∀ x ∈ (replay (S := shop) d₀ h).deudas.rows,
      (replay (S := shop) d₀ h).paid x.id ≤ x.totalMinor) ∧
    (∀ h h' k x, h <+: h' → h' <+: s.hist → (replay (S := shop) d₀ h).deudas.find? k = some x →
      x.status = .saldada →
      (replay (S := shop) d₀ h').deudas.find? k = some x ∧
      (∀ a ∈ (replay (S := shop) d₀ h').abonos.rows, a.deudaId = k →
        a ∈ (replay (S := shop) d₀ h).abonos.rows) ∧
      ∀ c env actor id dto, h' ++ [.commit c] <+: s.hist →
        reqs[c.pid]? = some (.registerAbono env actor id dto) → uuid id = k → c.writes = []) ∧
    (∀ h c k x', h ++ [.commit c] <+: s.hist →
      (replay (S := shop) d₀ (h ++ [.commit c])).deudas.find? k = some x' →
      ((x'.saldadaAt.isSome ∧
          ∀ x, (replay (S := shop) d₀ h).deudas.find? k = some x → x.saldadaAt = none) ↔
        (replay (S := shop) d₀ h).paid k < (replay (S := shop) d₀ (h ++ [.commit c])).paid k ∧
        (replay (S := shop) d₀ (h ++ [.commit c])).paid k = x'.totalMinor)) ∧
    ∀ h c, h ++ [.commit c] <+: s.hist → IsCuota reqs c.pid →
      (replay (S := shop) d₀ (h ++ [.commit c])).deudas = (replay (S := shop) d₀ h).deudas ∧
      (replay (S := shop) d₀ (h ++ [.commit c])).abonos = (replay (S := shop) d₀ h).abonos := by
  have hl := hr.lawful
  have hbal : ∀ h, h <+: s.hist → Balances (replay (S := shop) d₀ h) :=
    fun h hpre => hb.replay hp (hl.of_prefix hpre)
  have hcommit : ∀ h c, h ++ [.commit c] <+: s.hist → Commits host d₀ reqs h c := by
    rintro h c ⟨n, hn⟩
    exact (hl h c n (by rw [← hn]; simp)).2
  refine ⟨?_, ?_, ?_, ?_⟩
  · intro h hpre x hx
    exact ((hbal h hpre).deudas x hx).within
  · intro h h' k x hle hpre hx hs
    have hkept : (replay (S := shop) d₀ h').deudas.find? k = some x ∧
        ∀ a ∈ (replay (S := shop) d₀ h').abonos.rows, a.deudaId = k →
          a ∈ (replay (S := shop) d₀ h).abonos.rows := by
      refine (hl.of_prefix hpre).keep (S := shop) d₀ (fun v => v.deudas.find? k = some x ∧
        ∀ a ∈ v.abonos.rows, a.deudaId = k → a ∈ (replay (S := shop) d₀ h).abonos.rows) hle
        ⟨hx, fun a ha _ => ha⟩ ?_
      intro h₁ c hl₁ _ ih _ hc
      refine hc.keep (I := fun v => v.deudas.find? k = some x ∧
        ∀ a ∈ v.abonos.rows, a.deudaId = k → a ∈ (replay (S := shop) d₀ h).abonos.rows) ih ?_
      intro r d' _ hw _
      obtain ⟨hx', hab, -⟩ := hw.settled (hb.replay hp hl₁) ih.1 hs
      exact ⟨hx', fun a ha hk => ih.2 a (hab a ha hk) hk⟩
    refine ⟨hkept.1, hkept.2, ?_⟩
    intro c env actor id dto hc hreq hk
    obtain ⟨r, hr', hn | ⟨hw, -⟩⟩ := hcommit h' c hc
    · exact hn
    · cases hreq.symm.trans hr'
      exact absurd hk ((hw.settled (hbal h' hpre) hkept.1 hs).2.2 env actor id dto rfl)
  · intro h c k x' hc hx'
    have hpre : h <+: s.hist := (List.prefix_append _ _).trans hc
    rw [replay_committed] at hx' ⊢
    obtain ⟨r, hr', hn | ⟨hw, -⟩⟩ := hcommit h c hc
    · rw [hn, applyAll_nil] at hx' ⊢
      constructor
      · rintro ⟨hs, hnone⟩
        rw [hnone x' hx'] at hs
        cases hs
      · rintro ⟨hlt, -⟩
        exact absurd hlt (lt_irrefl _)
    · exact hw.settles (hbal h hpre) hx'
  · intro h c hc hcuota
    rw [replay_committed]
    obtain ⟨r, hr', hn | ⟨hw, -⟩⟩ := hcommit h c hc
    · rw [hn]
      exact ⟨rfl, rfl⟩
    · have hchanged : CuotasChanged (replay (S := shop) d₀ h)
          (applyAll (S := shop) (replay (S := shop) d₀ h) c.writes) := by
        rcases hcuota with ⟨_, _, _, _, hreq⟩ | ⟨_, _, _, _, hreq⟩ | ⟨_, _, _, hreq⟩
        · cases hreq.symm.trans hr'
          exact hw
        · cases hreq.symm.trans hr'
          exact hw
        · cases hreq.symm.trans hr'
          exact hw
      rw [hchanged]
      exact ⟨rfl, rfl⟩

theorem Demo.balances : Balances Demo.db := Balances.empty rfl rfl

theorem Demo.priced : PricesNonneg Demo.db := by
  unfold PricesNonneg
  decide

/-- A debt and two payments, each of all that the first one left open. -/
def Demo.payments : List Request :=
  [.createDeuda (env 1) actor (deuda "debt" "b" forty),
    .registerAbono (env 2) actor "debt" ⟨sixty, none, none⟩,
    .registerAbono (env 3) actor "debt" ⟨sixty, none, none⟩]

/-- The second payment reads the debt while the first is open, and waits for its row. -/
def Demo.paymentsSteps : List Nat :=
  List.replicate 14 0 ++ List.replicate 6 1 ++ List.replicate 5 2 ++ List.replicate 5 1 ++
    List.replicate 3 2

theorem never_overpaid_payments :
    ∃ x ∈ (replay (S := shop) Demo.db (Demo.run Demo.payments Demo.paymentsSteps).hist).deudas.rows,
      x.status = .saldada ∧
      (replay (S := shop) Demo.db (Demo.run Demo.payments Demo.paymentsSteps).hist).paid x.id ≤
        x.totalMinor := by
  have hbound := (never_overpaid Demo.host Demo.db Demo.payments
    (Demo.run Demo.payments Demo.paymentsSteps) Demo.balances Demo.priced
    (Demo.reachable (by decide))).1 _ (List.prefix_refl _)
  obtain ⟨x, hx, hs⟩ : ∃ x ∈ (replay (S := shop) Demo.db
      (Demo.run Demo.payments Demo.paymentsSteps).hist).deudas.rows, x.status = .saldada := by
    decide
  exact ⟨x, hx, hs, hbound x hx⟩

end Bazar.Shop
