import BazarApi.Shop.Ledger
import Mathlib.Data.List.Chain

/- The audit trail of a product is a chain. Every change of a column that a snapshot keeps,
   the stock apart, is made under the lock of the row and leaves one audit row, which
   starts from the row as it stands (`AuditStep`); sales and debts change the stock only.
   So the snapshots link up, and end in the row. -/
namespace Bazar.Shop

open Txn

/-- A snapshot without its stock. -/
def ProductSnapshot.facts (s : ProductSnapshot) : ProductSnapshot := { s with stock := 0 }

def Product.facts (p : Product) : ProductSnapshot := (Products.snapshot p).facts

/-- The audit rows of a product, the oldest first: a table keeps its rows in the order in
which they came. -/
def Db.auditsOf (d : Db) (k : Uuid) : List ProductAudit :=
  d.productAudits.rows.filter (·.productId = k)

/-- One row takes up where the other ended, and loses no cost. -/
def Links (a b : ProductAudit) : Prop :=
  ∃ s, b.before = some s ∧ a.after.facts = s.facts ∧
    (s.purchaseCostMinor.isSome → b.after.purchaseCostMinor.isSome)

/-- The trail of a product ends in its row. -/
structure AuditChain (d : Db) (k : Uuid) : Prop where
  links : (d.auditsOf k).IsChain Links
  current : ∀ r ∈ (d.auditsOf k).getLast?,
    ∃ p, d.products.find? k = some p ∧ r.after.facts = p.facts

/-- The row of `k` keeps its facts, or one audit row tells how they changed. -/
def AuditStep (d d' : Db) (k : Uuid) : Prop :=
  (d'.auditsOf k = d.auditsOf k ∧ ∀ p, d.products.find? k = some p →
    ∃ p', d'.products.find? k = some p' ∧ p'.facts = p.facts) ∨
  ∃ r p', d'.auditsOf k = d.auditsOf k ++ [r] ∧ d'.products.find? k = some p' ∧
    r.after = Products.snapshot p' ∧
    ∀ p, d.products.find? k = some p → r.before = some (Products.snapshot p) ∧
      (p.purchaseCostMinor.isSome → p'.purchaseCostMinor.isSome)

section
variable {host : Host} {d₀ d d' : Db} {reqs : List Request} {h : History shop} {i : Nat}
variable {r : Request} {k : Uuid}

theorem AuditChain.step (hc : AuditChain d k) (hs : AuditStep d d' k) : AuditChain d' k := by
  rcases hs with ⟨ha, hp⟩ | ⟨r, p', ha, hp', hafter, hbefore⟩
  · refine ⟨by rw [ha]; exact hc.links, ?_⟩
    intro r hr
    rw [ha] at hr
    obtain ⟨p, hfind, hfacts⟩ := hc.current r hr
    obtain ⟨p', hfind', hfacts'⟩ := hp p hfind
    exact ⟨p', hfind', hfacts.trans hfacts'.symm⟩
  · refine ⟨?_, ?_⟩
    · rw [ha, List.isChain_append]
      refine ⟨hc.links, List.isChain_singleton r, ?_⟩
      intro a hlast b hb
      obtain rfl : r = b := by simpa using hb
      obtain ⟨p, hfind, hfacts⟩ := hc.current a hlast
      obtain ⟨hsnap, hcost⟩ := hbefore p hfind
      refine ⟨_, hsnap, hfacts, fun hsome => ?_⟩
      rw [hafter]
      exact hcost hsome
    · intro x hx
      rw [ha, List.getLast?_concat] at hx
      cases hx
      exact ⟨p', hp', by rw [hafter]; rfl⟩

/-! What the requests do to the trail. -/

theorem Audited.appended {before : Option Product} {p : Product} (ha : Audited d d' before p) :
    (p.id = k → ∃ r, d'.auditsOf k = d.auditsOf k ++ [r] ∧ r.before = before.map Products.snapshot ∧
      r.after = Products.snapshot p) ∧
    (p.id ≠ k → d'.auditsOf k = d.auditsOf k) := by
  obtain ⟨r, hfresh, hput, hid, hbefore, hafter⟩ := ha
  have hrows : d'.auditsOf k = d.auditsOf k ++ [r].filter (·.productId = k) := by
    unfold Db.auditsOf
    rw [hput, Table.put_rows_new hfresh, List.filter_append]
  refine ⟨fun hk => ⟨r, ?_, hbefore, hafter⟩, fun hk => ?_⟩
  · rw [hrows, List.filter_cons_of_pos (by simpa using hid.trans hk), List.filter_nil]
  · rw [hrows, List.filter_cons_of_neg (by simpa [hid] using hk), List.filter_nil, List.append_nil]

/-- Nothing audited, and the rows as they were but for the stock. -/
theorem AuditStep.silent (ha : d'.productAudits = d.productAudits)
    (hp : ∀ p, d.products.find? k = some p →
      ∃ p', d'.products.find? k = some p' ∧ p'.facts = p.facts) : AuditStep d d' k := by
  refine .inl ⟨?_, hp⟩
  unfold Db.auditsOf
  rw [ha]

theorem AuditStep.same (ha : d'.productAudits = d.productAudits)
    (hp : d'.products.find? k = d.products.find? k) : AuditStep d d' k :=
  .silent ha fun p h => ⟨p, hp.trans h, rfl⟩

/-- An audited change of a row. -/
theorem AuditStep.audited {id : Uuid} {p p' : Product} (hfind : d.products.find? id = some p)
    (ha : Audited d d' (some p) p') (hid : p'.id = id)
    (hcost : p.purchaseCostMinor.isSome → p'.purchaseCostMinor.isSome)
    (hp' : d'.products.find? id = some p')
    (hne : ∀ k, k ≠ id → d'.products.find? k = d.products.find? k) : AuditStep d d' k := by
  by_cases hk : k = id
  · subst hk
    obtain ⟨r, hr, hbefore, hafter⟩ := ha.appended.1 hid
    refine .inr ⟨r, p', hr, hp', hafter, fun q hq => ?_⟩
    cases hfind.symm.trans hq
    exact ⟨hbefore, hcost⟩
  · refine .inl ⟨ha.appended.2 fun he => hk (he.symm.trans hid), fun q hq => ?_⟩
    exact ⟨q, (hne k hk).trans hq, rfl⟩

theorem ProductChanged.audit_step {id : Uuid} {data : ProductUpdate} (hf : FreshIds h)
    (hc : ProductChanged h id d d' data) : AuditStep d d' k := by
  have hproducts : ∀ k, d'.products.find? k =
      if k = id then (d.products.find? id).map data.apply else d.products.find? k := by
    intro k
    rw [hc.db]
    exact Table.find?_modify data.apply_id k
  rcases hc.audit with ⟨ha, hsnap⟩ | ha
  · refine .silent ha fun p hp => ?_
    rw [hproducts]
    split
    · rename_i hk
      rw [← hk, hp]
      exact ⟨_, rfl, congrArg ProductSnapshot.facts (hsnap p)⟩
    · exact ⟨p, hp, rfl⟩
  · obtain ⟨p, hfind, haudit, hcost⟩ := ha hf
    have hid : p.id = id := Table.find?_key hfind
    refine .audited hfind haudit hid hcost ?_ fun k hk => ?_
    · rw [hproducts, if_pos rfl, hfind]
      rfl
    · rw [hproducts, if_neg hk]

/-- What any request writes is a step of every trail. -/
theorem Request.Writes.audit_step (hw : r.Writes host d₀ i h d d') (hf : FreshIds h) (k : Uuid) :
    AuditStep d d' k := by
  cases r with
  | createSale env actor dto =>
    obtain ⟨s, hs⟩ := hw
    rcases hs.outcome with ⟨ho, -⟩ | ⟨ho, -⟩
    · refine .silent (by rw [ho.db]) fun p hp => ?_
      rw [ho.taken k, hp]
      exact ⟨_, rfl, rfl⟩
    · exact .same (by rw [ho.db]) (by rw [ho.db])
  | createDeuda env actor dto =>
    obtain ⟨x, hx⟩ := hw
    obtain ⟨n, hn⟩ := hx.products
    refine .silent (by rw [hx.db]) fun p hp => ?_
    rw [hn, Table.find?_modify (f := fun p : Product => { p with stock := n }) fun _ => rfl]
    split
    · rename_i hk
      rw [← hk, hp]
      exact ⟨_, rfl, rfl⟩
    · exact ⟨p, hp, rfl⟩
  | registerAbono env actor id dto =>
    obtain ⟨x, a, now, ha⟩ := hw
    exact .same (by rw [ha.db]) (by rw [ha.db])
  | addCuota env actor id dto => rw [show d' = _ from hw]; exact .same rfl rfl
  | updateCuota actor id cuotaId dto => rw [show d' = _ from hw]; exact .same rfl rfl
  | deleteCuota actor id cuotaId => rw [show d' = _ from hw]; exact .same rfl rfl
  | createProduct env actor dto =>
    obtain ⟨p, hp, -⟩ := hw
    have hput : ∀ k, d'.products.find? k = if k = p.id then some p else d.products.find? k := by
      intro k
      rw [hp.db]
      exact Table.find?_put k
    by_cases hk : k = p.id
    · obtain ⟨r, hr, -, hafter⟩ := hp.audit.appended.1 hk.symm
      refine .inr ⟨r, p, hr, by rw [hput, if_pos hk], hafter, fun q hq => ?_⟩
      rw [hk, hp.fresh] at hq
      cases hq
    · refine .inl ⟨hp.audit.appended.2 fun he => hk he.symm, fun q hq => ?_⟩
      exact ⟨q, by rw [hput, if_neg hk, hq], rfl⟩
  | restockProduct env actor id dto =>
    obtain ⟨p, m, cost, hm⟩ := hw
    have hid : p.id = uuid id := Table.find?_key hm.product
    refine .audited hm.product hm.audit hid ?_ ?_ fun k hk => ?_
    · intro hsome
      rcases hm.costRange with hc | ⟨c, hc, -⟩
      · rw [hc]
        exact hsome
      · rw [hc]
        rfl
    · rw [hm.db, ← hid]
      exact Table.find?_put_self
    · rw [hm.db]
      exact Table.find?_put_ne fun he => hk (he.trans hid)
  | patchProduct env actor id dto =>
    obtain ⟨data, hc, -⟩ := hw
    exact hc.audit_step hf
  | changeImage env actor id saved =>
    obtain ⟨data, hc, -⟩ := hw
    exact hc.audit_step hf
  | deactivateProduct actor id =>
    obtain ⟨data, hc, -⟩ := hw
    exact hc.audit_step hf
  | reactivateProduct actor id =>
    obtain ⟨data, hc, -⟩ := hw
    exact hc.audit_step hf

/-- Every commit of a run is a step of every trail. -/
theorem Lawful.audit_step (hl : Lawful (Commits host d₀ reqs) h) (hf : FreshIds h)
    {h₁ : History shop} {c : Commit shop} (hp : h₁ ++ [.commit c] <+: h) (k : Uuid) :
    AuditStep (replay (S := shop) d₀ h₁) (replay (S := shop) d₀ (h₁ ++ [.commit c])) k := by
  obtain ⟨n, rfl⟩ := hp
  obtain ⟨-, r, hreq, hw⟩ := hl h₁ c n (by simp)
  rw [replay_committed]
  rcases hw with hw | ⟨hw, -⟩
  · rw [hw, applyAll_nil]
    exact .same rfl rfl
  · exact hw.audit_step (hf.of_prefix ⟨.commit c :: n, by simp⟩) k

theorem AuditChain.replay (hc : AuditChain d₀ k) (hl : Lawful (Commits host d₀ reqs) h)
    (hf : FreshIds h) : AuditChain (Txn.replay (S := shop) d₀ h) k := by
  induction h using List.reverseRecOn with
  | nil => exact hc
  | append_singleton h e ih =>
    have ih := ih (hl.of_prefix (List.prefix_append _ _)) (hf.of_prefix (List.prefix_append _ _))
    cases e with
    | exec i q =>
      rw [replay_sent]
      exact ih
    | commit c => exact ih.step (Lawful.audit_step hl hf (List.prefix_refl _) k)

/-! Costs along the trail. -/

/-- A cost known after one row is known in the other. -/
def KeepsCost (a b : ProductAudit) : Prop :=
  a.after.purchaseCostMinor.isSome →
    (∃ s, b.before = some s ∧ s.purchaseCostMinor.isSome) ∧ b.after.purchaseCostMinor.isSome

instance : Trans KeepsCost KeepsCost KeepsCost := ⟨fun hab hbc ha => hbc (hab ha).2⟩

theorem Links.keepsCost {a b : ProductAudit} (hl : Links a b) : KeepsCost a b := by
  obtain ⟨s, hs, hfacts, hcost⟩ := hl
  intro ha
  have he := congrArg ProductSnapshot.purchaseCostMinor hfacts
  change a.after.purchaseCostMinor = s.purchaseCostMinor at he
  rw [he] at ha
  exact ⟨⟨s, hs, ha⟩, hcost ha⟩

theorem AuditChain.pairwise (hc : AuditChain d k) : (d.auditsOf k).Pairwise KeepsCost :=
  List.isChain_iff_pairwise.mp (hc.links.imp fun _ _ => Links.keepsCost)

/-- A cost once known is the row's. -/
theorem AuditChain.known (hc : AuditChain d k) {a : ProductAudit} (ha : a ∈ d.auditsOf k)
    (hcost : a.after.purchaseCostMinor.isSome) :
    ∃ p, d.products.find? k = some p ∧ p.purchaseCostMinor.isSome := by
  obtain ⟨l, last, hl⟩ := List.eq_nil_or_concat (d.auditsOf k) |>.resolve_left
    (List.ne_nil_of_mem ha)
  obtain ⟨p, hp, hfacts⟩ := hc.current last (by rw [hl, List.concat_eq_append]; simp)
  have hlast : last.after.purchaseCostMinor.isSome := by
    have hpair := hc.pairwise
    rw [hl, List.concat_eq_append] at ha hpair
    rcases List.mem_append.mp ha with ha | ha
    · exact ((List.pairwise_append.mp hpair).2.2 a ha last (by simp) hcost).2
    · rw [List.mem_singleton.mp ha] at hcost
      exact hcost
  refine ⟨p, hp, ?_⟩
  have he := congrArg ProductSnapshot.purchaseCostMinor hfacts
  change last.after.purchaseCostMinor = p.purchaseCostMinor at he
  rw [← he]
  exact hlast

/-- The product's cost is known, and before and after each of the rows. -/
def CostKept (d : Db) (k : Uuid) (rows : List ProductAudit) : Prop :=
  (∀ r ∈ rows, (∃ t, r.before = some t ∧ t.purchaseCostMinor.isSome) ∧
    r.after.purchaseCostMinor.isSome) ∧
  ∃ p, d.products.find? k = some p ∧ p.purchaseCostMinor.isSome

theorem CostKept.step {rows : List ProductAudit} (hc : CostKept d k rows) (hs : AuditStep d d' k) :
    ∃ more, d'.auditsOf k = d.auditsOf k ++ more ∧ CostKept d' k (rows ++ more) := by
  obtain ⟨hrows, p, hp, hcost⟩ := hc
  rcases hs with ⟨ha, hkept⟩ | ⟨r, p', ha, hp', hafter, hbefore⟩
  · obtain ⟨p', hp', hfacts⟩ := hkept p hp
    refine ⟨[], by rw [ha, List.append_nil], by rwa [List.append_nil], p', hp', ?_⟩
    have he := congrArg ProductSnapshot.purchaseCostMinor hfacts
    change p'.purchaseCostMinor = p.purchaseCostMinor at he
    rw [he]
    exact hcost
  · obtain ⟨hsnap, hkeeps⟩ := hbefore p hp
    refine ⟨[r], ha, ?_, p', hp', hkeeps hcost⟩
    intro x hx
    rcases List.mem_append.mp hx with hx | hx
    · exact hrows x hx
    · rw [List.mem_singleton.mp hx]
      exact ⟨⟨_, hsnap, hcost⟩, by rw [hafter]; exact hkeeps hcost⟩

/-- A cost once known stays known, in the row and in what is audited from then on. -/
theorem Lawful.cost_kept (hl : Lawful (Commits host d₀ reqs) h) (hf : FreshIds h)
    {a b : History shop} (hp : a ++ b <+: h)
    (hcost : ∃ p, (replay (S := shop) d₀ a).products.find? k = some p ∧
      p.purchaseCostMinor.isSome) :
    ∃ rows, (replay (S := shop) d₀ (a ++ b)).auditsOf k =
        (replay (S := shop) d₀ a).auditsOf k ++ rows ∧
      CostKept (replay (S := shop) d₀ (a ++ b)) k rows := by
  induction b using List.reverseRecOn with
  | nil => exact ⟨[], by simp, by simp, by simpa using hcost⟩
  | append_singleton b e ih =>
    rw [← List.append_assoc] at hp ⊢
    obtain ⟨rows, hrows, hkept⟩ := ih ((List.prefix_append _ _).trans hp)
    cases e with
    | exec i q =>
      rw [replay_sent]
      exact ⟨rows, hrows, hkept⟩
    | commit c =>
      obtain ⟨more, hmore, hkept'⟩ := hkept.step (Lawful.audit_step hl hf hp k)
      exact ⟨rows ++ more, by rw [hmore, hrows, List.append_assoc], hkept'⟩

end

/-- In every committed state of every run in which nobody names a product before it is
there, the trail of every product, in the order of the commits: each row starts, the stock
apart, where the one before it ended; the last ends in the product's row; and a cost known
after a row is known in every later one and in the product's row. A cost known in the
product's row, audited or not, is known before and after every row that follows. -/
theorem audit_trail_chain (host : Host) (d₀ : Db) (reqs : List Request) (s : Sys shop Answer)
    (hr : Reachable host d₀ reqs s) (hf : FreshIds s.hist) (k : Uuid) (h₀ : AuditChain d₀ k) :
    (∀ h c, h ++ [.commit c] <+: s.hist →
      (replay (S := shop) d₀ (h ++ [.commit c])).auditsOf k = (replay (S := shop) d₀ h).auditsOf k ∨
      ∃ r, (replay (S := shop) d₀ (h ++ [.commit c])).auditsOf k =
        (replay (S := shop) d₀ h).auditsOf k ++ [r]) ∧
    ∀ h, h <+: s.hist →
      ((replay (S := shop) d₀ h).auditsOf k).IsChain
        (fun a b => ∃ s, b.before = some s ∧ a.after.facts = s.facts) ∧
      (∀ r ∈ ((replay (S := shop) d₀ h).auditsOf k).getLast?, ∃ p,
        (replay (S := shop) d₀ h).products.find? k = some p ∧ r.after.facts = p.facts) ∧
      ((replay (S := shop) d₀ h).auditsOf k).Pairwise
        (fun a b => a.after.purchaseCostMinor.isSome →
          (∃ s, b.before = some s ∧ s.purchaseCostMinor.isSome) ∧
            b.after.purchaseCostMinor.isSome) ∧
      (∀ a ∈ (replay (S := shop) d₀ h).auditsOf k, a.after.purchaseCostMinor.isSome →
        ∃ p, (replay (S := shop) d₀ h).products.find? k = some p ∧
          p.purchaseCostMinor.isSome) ∧
      ∀ n, h ++ n <+: s.hist → (∃ p, (replay (S := shop) d₀ h).products.find? k = some p ∧
          p.purchaseCostMinor.isSome) →
        ∃ rows, (replay (S := shop) d₀ (h ++ n)).auditsOf k =
            (replay (S := shop) d₀ h).auditsOf k ++ rows ∧
          CostKept (replay (S := shop) d₀ (h ++ n)) k rows := by
  refine ⟨?_, ?_⟩
  · intro h c hp
    rcases Lawful.audit_step hr.lawful hf hp k with ⟨ha, -⟩ | ⟨r, p', ha, -⟩
    · exact .inl ha
    · exact .inr ⟨r, ha⟩
  · intro h hp
    have hc := h₀.replay (hr.lawful.of_prefix hp) (hf.of_prefix hp)
    refine ⟨hc.links.imp ?_, hc.current, hc.pairwise, fun a ha hcost => hc.known ha hcost,
      fun n hn hcost => Lawful.cost_kept hr.lawful hf hn hcost⟩
    rintro a b ⟨s, hs, hfacts, -⟩
    exact ⟨s, hs, hfacts⟩

/-- A cost for a product that had none, then another price for it. -/
def Demo.edits : List Request :=
  [.patchProduct (env 1) actor "a"
      ⟨none, none, none, some (some forty), none, none, none, none, none⟩,
    .patchProduct (env 2) actor "a"
      ⟨none, some ⟨120, by decide, by decide⟩, none, none, none, none, none, none, none⟩]

def Demo.editsSteps : List Nat := List.replicate 9 0 ++ List.replicate 9 1

/-- The shop after the two edits. -/
def Demo.edited : Db := replay (S := shop) Demo.db (Demo.run Demo.edits Demo.editsSteps).hist

theorem audit_trail_chain_edits :
    (Demo.edited.auditsOf (uuid "a")).length = 2 ∧
      (Demo.edited.auditsOf (uuid "a")).IsChain
        fun a b => ∃ s, b.before = some s ∧ a.after.facts = s.facts := by
  refine ⟨by decide, ?_⟩
  exact ((audit_trail_chain Demo.host Demo.db Demo.edits (Demo.run Demo.edits Demo.editsSteps)
    (Demo.reachable (by decide)) (FreshIds.of_noProducts (by decide)) (uuid "a")
    ⟨.nil, fun _ h => by cases h⟩).2 _ (List.prefix_refl _)).1

end Bazar.Shop
