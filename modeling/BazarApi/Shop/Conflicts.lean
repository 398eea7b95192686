import BazarApi.Shop.SalesOnce

/- A rejected sale lost a race. Between its unlocked look at a product and its look
   under the lock, another sale or debt committed the decrease that left too little
   (`Beaten`). When sales and debts run one after the other nobody can do that: such a
   run adds no rejected sale, and a sale that lacks stock is answered 400. -/
namespace Bazar.Shop

open Txn

/-- For one line of the cart of request `i`, commit `c` of another request took the
product below what the line needs, between the unlocked look at it and the locked one. -/
def Beaten (d : Db) (i : Nat) (contextId : String) (dto : CreateSaleDto) (h : History shop)
    (c : Commit shop) : Prop :=
  ∃ before item after, dto.items = before ++ item :: after ∧ ∃ h₁ g g' h₂ p p',
    h = h₁ ++ .exec i (.findProduct (uuid item.productId) contextId) :: g ++ .commit c :: g' ++
      .exec i (.findProduct (uuid item.productId) contextId) :: h₂ ∧
    .exec i (.lockProduct (uuid item.productId) contextId) ∈ g ++ g' ∧
    (∀ e ∈ g ++ g', e.pid = i → e = .exec i (.lockProduct (uuid item.productId) contextId)) ∧
    c.pid ≠ i ∧
    (replay (S := shop) d (h₁ ++ g)).products.find? (uuid item.productId) = some p ∧
    (replay (S := shop) d (h₁ ++ g ++ [.commit c])).products.find? (uuid item.productId) = some p' ∧
    needed before item ≤ p.stock ∧ p'.stock < needed before item

/-- A sale or debt request: what takes products from stock. -/
def IsTrade (reqs : List Request) (i : Nat) : Prop :=
  (∃ env actor dto, reqs[i]? = some (.createSale env actor dto)) ∨
    ∃ env actor dto, reqs[i]? = some (.createDeuda env actor dto)

/-- Sales and debts run one after the other: nothing of another one happens between two
events of one. -/
def Serial (reqs : List Request) (h : History shop) : Prop :=
  ∀ h₁ e g e' h₂, h = h₁ ++ e :: g ++ e' :: h₂ → e.pid = e'.pid → IsTrade reqs e.pid →
    ∀ x ∈ g, IsTrade reqs x.pid → x.pid = e.pid

section
variable {host : Host} {d₀ d d' : Db} {reqs : List Request} {i : Nat} {h h' : History shop}
variable {c : Commit shop} {r : Request}

/-! Who takes stock. -/

/-- Only a sale or a debt leaves less of a product. -/
theorem Request.Writes.stock_taken (hw : r.Writes host d₀ i h d d') {k : Uuid} {p p' : Product}
    (hp : d.products.find? k = some p) (hp' : d'.products.find? k = some p')
    (hlt : p'.stock < p.stock) :
    (∃ env actor dto, r = .createSale env actor dto) ∨
      ∃ env actor dto, r = .createDeuda env actor dto := by
  have same : d'.products = d.products → False := by
    intro he
    rw [he, hp] at hp'
    cases hp'
    exact lt_irrefl _ hlt
  have edit : ∀ {id data}, ProductChanged h id d d' data → False := by
    intro id data hd
    rw [hd.db] at hp'
    change (d.products.modify id data.apply).find? k = some p' at hp'
    rw [Table.find?_modify data.apply_id] at hp'
    split at hp'
    · rename_i hk
      rw [← hk, hp] at hp'
      cases hp'
      have hs : (data.apply p).stock = p.stock := by simp [ProductUpdate.apply, hd.stock]
      omega
    · rw [hp] at hp'
      cases hp'
      exact lt_irrefl _ hlt
  cases r with
  | createSale env actor dto => exact .inl ⟨env, actor, dto, rfl⟩
  | createDeuda env actor dto => exact .inr ⟨env, actor, dto, rfl⟩
  | registerAbono env actor id dto =>
    obtain ⟨x, a, now, ha⟩ := hw
    exact (same (by rw [ha.db])).elim
  | createProduct env actor dto =>
    obtain ⟨q, hq, -⟩ := hw
    have hne : k ≠ q.id := by
      rintro rfl
      have hf := hq.fresh
      rw [hp] at hf
      cases hf
    rw [hq.db] at hp'
    change (d.products.put q).find? k = some p' at hp'
    rw [Table.find?_put_ne hne, hp] at hp'
    cases hp'
    exact absurd hlt (lt_irrefl _)
  | restockProduct env actor id dto =>
    obtain ⟨q, m, cost, hm⟩ := hw
    rw [hm.db] at hp'
    change (d.products.put _).find? k = some p' at hp'
    rw [Table.find?_put] at hp'
    have hpos := dto.quantity.pos
    split at hp'
    · rename_i hk
      have hqk : k = q.id := hk
      have hq := hm.product
      rw [← Table.find?_key hq] at hq
      rw [hqk] at hp
      have hpq : some p = some q := hp.symm.trans hq
      cases hpq
      cases hp'
      simp only at hlt
      omega
    · rw [hp] at hp'
      cases hp'
      exact absurd hlt (lt_irrefl _)
  | patchProduct env actor id dto =>
    obtain ⟨data, hd, -⟩ := hw
    exact (edit hd).elim
  | changeImage env actor id saved =>
    obtain ⟨data, hd, -⟩ := hw
    exact (edit hd).elim
  | deactivateProduct actor id =>
    obtain ⟨data, hd, -⟩ := hw
    exact (edit hd).elim
  | reactivateProduct actor id =>
    obtain ⟨data, hd, -⟩ := hw
    exact (edit hd).elim
  | addCuota env actor id dto => exact (same (by rw [show d' = _ from hw])).elim
  | updateCuota actor id cuotaId dto => exact (same (by rw [show d' = _ from hw])).elim
  | deleteCuota actor id cuotaId => exact (same (by rw [show d' = _ from hw])).elim

/-- A lost race was lost to somebody. -/
theorem LostRace.beaten {contextId : String} {dto : CreateSaleDto}
    (hl : Lawful (Commits host d₀ reqs) h) (hr : LostRace d₀ i contextId dto h) :
    ∃ c, Beaten d₀ i contextId dto h c := by
  obtain ⟨before, item, after, hi, h₁, a, b, h₂, he, hfree, p, p', hp, hp', hle, hlt⟩ := hr
  generalize hlook : Event.exec (S := shop) i (Sql.findProduct (uuid item.productId) contextId) = look at he
  generalize hlock : Event.exec (S := shop) i (Sql.lockProduct (uuid item.productId) contextId) = lock at he
  have middle : ∀ {x y : Event shop} {l l' : History shop},
      y ∈ l ++ x :: l' ↔ y = x ∨ y ∈ l ++ l' := List.perm_middle.mem_iff.trans List.mem_cons
  -- the stock fell below what the line needs at some commit between the looks
  have hn : ¬ ∃ q, (replay (S := shop) d₀ (h₁ ++ (a ++ lock :: b))).products.find?
      (uuid item.productId) = some q ∧ needed before item ≤ q.stock := by
    rintro ⟨q, hq, hq'⟩
    rw [← hlock, ← List.append_assoc, replay_skip, hp'] at hq
    cases hq
    omega
  obtain ⟨g, c, g', hg, ⟨q, hq, hqs⟩, hc⟩ := replay_crossing (S := shop)
    (fun v => ∃ q, v.products.find? (uuid item.productId) = some q ∧ needed before item ≤ q.stock)
    ⟨p, hp, hle⟩ hn
  have he' : h = h₁ ++ look :: g ++ .commit c :: g' ++ look :: h₂ := by
    rw [he]
    simpa using congrArg (· ++ look :: h₂) hg
  have hpre : h₁ ++ look :: g ++ [.commit c] <+: h := ⟨g' ++ look :: h₂, by rw [he']; simp⟩
  have hq₁ : (replay (S := shop) d₀ (h₁ ++ look :: g)).products.find? (uuid item.productId) =
      some q := by
    rw [← hlook, replay_skip]
    exact hq
  obtain ⟨q', hq', -⟩ := Lawful.product_kept (hl.of_prefix hpre) (List.prefix_append _ _) hq₁
  rw [← hlook, List.append_assoc, List.cons_append, replay_skip, ← List.append_assoc] at hq'
  have hlock_ne : lock ≠ .commit c := by
    rw [← hlock]
    simp
  refine ⟨c, before, item, after, hi, h₁, g, g', h₂, q, q', by rw [hlook]; exact he', ?_, ?_, ?_,
    hq, hq', hqs, ?_⟩
  · rw [hlock]
    have hm : lock ∈ g ++ .commit c :: g' := hg ▸ List.mem_append_right a List.mem_cons_self
    exact (middle.mp hm).resolve_left hlock_ne
  · intro e hm hei
    have hm : e ∈ a ++ lock :: b := hg ▸ middle.mpr (.inr hm)
    rcases middle.mp hm with rfl | hm
    · exact hlock.symm
    · exact absurd hei (hfree e hm)
  · have hm : Event.commit c ∈ a ++ lock :: b := hg ▸ List.mem_append_right g List.mem_cons_self
    exact hfree _ ((middle.mp hm).resolve_left (Ne.symm hlock_ne))
  · by_contra hge
    exact hc ⟨q', hq', not_lt.mp hge⟩

/-- And it was another sale or debt. -/
theorem Beaten.trade {contextId : String} {dto : CreateSaleDto}
    (hl : Lawful (Commits host d₀ reqs) h) (hb : Beaten d₀ i contextId dto h c) :
    IsTrade reqs c.pid := by
  obtain ⟨before, item, after, -, h₁, g, g', h₂, p, p', rfl, -, -, -, hp, hp', hle, hlt⟩ := hb
  obtain ⟨-, r, hreq, hw⟩ := hl (h₁ ++ .exec i (.findProduct (uuid item.productId) contextId) :: g) c
    (g' ++ .exec i (.findProduct (uuid item.productId) contextId) :: h₂) (by simp)
  rw [replay_skip] at hw
  rw [replay_committed] at hp'
  rcases hw with hw | ⟨hw, -⟩
  · rw [hw, applyAll_nil, hp] at hp'
    cases hp'
    omega
  · rcases hw.stock_taken hp hp' (by omega) with ⟨env, actor, dto, rfl⟩ | ⟨env, actor, dto, rfl⟩
    · exact .inl ⟨env, actor, dto, hreq⟩
    · exact .inr ⟨env, actor, dto, hreq⟩

/-! One after the other. -/

theorem Serial.of_prefix (hs : Serial reqs h') (hp : h <+: h') : Serial reqs h := by
  obtain ⟨n, rfl⟩ := hp
  intro h₁ e g e' h₂ he
  exact hs h₁ e g e' (h₂ ++ n) (by rw [he]; simp)

/-- Then no race is lost. -/
theorem Serial.not_lost {contextId : String} {dto : CreateSaleDto} (hs : Serial reqs h)
    (hl : Lawful (Commits host d₀ reqs) h) (hi : IsTrade reqs i) :
    ¬ LostRace d₀ i contextId dto h := by
  intro hr
  obtain ⟨c, hb⟩ := hr.beaten hl
  have ht := hb.trade hl
  obtain ⟨before, item, after, -, h₁, g, g', h₂, p, p', he, -, -, hne, -⟩ := hb
  generalize hlook : Event.exec (S := shop) i (Sql.findProduct (uuid item.productId) contextId) =
    look at he
  have hpid : look.pid = i := hlook ▸ rfl
  have hsame := hs h₁ look (g ++ .commit c :: g') look h₂ (by rw [he]; simp) rfl (hpid.symm ▸ hi)
    (.commit c) (by simp) ht
  exact hne (hsame.trans hpid)

/-- A request of such a run whose sale id was free when it began never finds it taken. -/
theorem Serial.not_taken {dto : CreateSaleDto} (hs : Serial reqs h)
    (hl : Lawful (Commits host d₀ reqs) h) (hi : IsTrade reqs i)
    (hfree : ∀ h₁ e h₂, h = h₁ ++ e :: h₂ → e.pid = i → (∀ x ∈ h₁, x.pid ≠ i) →
      (replay (S := shop) d₀ h₁).sales.find? (uuid dto.id) = none) :
    ¬ SaleTaken d₀ i dto h := by
  rintro ⟨h₂, q, s, ⟨n, he⟩, hq, hs₂⟩
  have hm : Event.exec i q ∈ h := he ▸ by simp
  obtain ⟨h₁, e, h₃, he₁, hei, hn⟩ := first_event hm
  have hnone := hfree h₁ e h₃ he₁ hei hn
  -- between its first event and the look, the row was committed
  have hle : h₁ <+: h₂ := by
    rcases split_cases he₁ (show h = h₂ ++ .exec i q :: n by rw [← he]; simp) with heq | hle | hle
    · exact heq ▸ List.prefix_refl _
    · exact (List.prefix_append _ _).trans hle
    · exact absurd rfl (hn _ (hle.subset (by simp)))
  obtain ⟨m, rfl⟩ := hle
  obtain ⟨g, c, g', rfl, hg, hc⟩ := replay_crossing (S := shop)
    (fun v => v.sales.find? (uuid dto.id) = none) hnone (by rw [hs₂]; simp)
  have hpre : h₁ ++ g ++ [.commit c] <+: h := ⟨g' ++ .exec i q :: n, by rw [← he]; simp⟩
  obtain ⟨-, r, hreq, hw⟩ := hl (h₁ ++ g) c (g' ++ .exec i q :: n) (by rw [← he]; simp)
  rw [replay_committed] at hc
  rcases hw with hw | ⟨hw, -⟩
  · rw [hw, applyAll_nil] at hc
    exact hc hg
  · have hci : c.pid = i := by
      cases g with
      | nil =>
        -- the commit is that first event
        rw [List.append_nil] at *
        rw [← he] at he₁
        simp only [List.append_assoc, List.append_cancel_left_eq, List.nil_append,
          List.cons_append, List.cons.injEq] at he₁
        rw [← he₁.1] at hei
        exact hei
      | cons e' g =>
        rcases hw.sales with hsame | ⟨env, actor, dto', s', rfl, -⟩
        · rw [hsame] at hc
          exact absurd hg hc
        · have hee : e' = e := by
            rw [← he] at he₁
            simp only [List.append_assoc, List.append_cancel_left_eq, List.nil_append,
              List.cons_append, List.cons.injEq] at he₁
            exact he₁.1
          subst hee
          have hpid := hs h₁ e' (g ++ .commit c :: g') (.exec i q) n (by rw [← he]; simp) hei
            (hei ▸ hi) (.commit c) (by simp) (.inl ⟨env, actor, dto', hreq⟩)
          exact hpid.trans hei
    have hwrites := hq c (by simp) hci
    rw [hwrites, applyAll_nil] at hc
    exact hc hg

/-! Where a sale comes from. -/

/-- Every sale was there at first, or a commit of a sale request wrote it. -/
theorem Lawful.sale_origin (hl : Lawful (Commits host d₀ reqs) h) :
    ∀ row ∈ (replay (S := shop) d₀ h).sales.rows, row ∈ d₀.sales.rows ∨
      ∃ h₁ c env actor dto, h₁ ++ [.commit c] <+: h ∧
        reqs[c.pid]? = some (.createSale env actor dto) ∧
        SaleWritten host c.pid actor dto d₀ h₁ (replay (S := shop) d₀ h₁)
          (replay (S := shop) d₀ (h₁ ++ [.commit c])) row := by
  refine hl.history_induct (P := fun h => ∀ row ∈ (replay (S := shop) d₀ h).sales.rows,
    row ∈ d₀.sales.rows ∨ ∃ h₁ c env actor dto, h₁ ++ [.commit c] <+: h ∧
      reqs[c.pid]? = some (.createSale env actor dto) ∧
      SaleWritten host c.pid actor dto d₀ h₁ (replay (S := shop) d₀ h₁)
        (replay (S := shop) d₀ (h₁ ++ [.commit c])) row) (fun row hm => .inl hm) ?_ ?_
  · intro h i q ih row hm
    rw [replay_skip, List.append_nil] at hm
    refine (ih row hm).imp_right ?_
    rintro ⟨h₁, c, env, actor, dto, hp, hs⟩
    exact ⟨h₁, c, env, actor, dto, hp.trans (List.prefix_append _ _), hs⟩
  · intro h c _ ih _ hc row hm
    have old (hold : row ∈ (replay (S := shop) d₀ h).sales.rows) :
        row ∈ d₀.sales.rows ∨ ∃ h₁ c' env actor dto, h₁ ++ [.commit c'] <+: h ++ [.commit c] ∧
          reqs[c'.pid]? = some (.createSale env actor dto) ∧
          SaleWritten host c'.pid actor dto d₀ h₁ (replay (S := shop) d₀ h₁)
            (replay (S := shop) d₀ (h₁ ++ [.commit c'])) row := by
      refine (ih row hold).imp_right ?_
      rintro ⟨h₁, c', env, actor, dto, hp, hs⟩
      exact ⟨h₁, c', env, actor, dto, hp.trans (List.prefix_append _ _), hs⟩
    obtain ⟨r, hreq, hw⟩ := hc
    have he : replay (S := shop) d₀ (h ++ [.commit c]) =
        applyAll (S := shop) (replay (S := shop) d₀ h) c.writes := by
      rw [replay_committed]
    rw [he] at hm
    rcases hw with hw | ⟨hw, -⟩
    · rw [hw] at hm
      exact old hm
    · rcases hw.sales with hsame | ⟨env, actor, dto, s, rfl, hs⟩
      · rw [hsame] at hm
        exact old hm
      · rw [hs.sales] at hm
        rcases Table.mem_put.mp hm with rfl | ⟨hold, -⟩
        · exact .inr ⟨h, c, env, actor, dto, List.prefix_refl _, hreq, by rw [he]; exact hs⟩
        · exact old hold

end

/-- A sale is recorded as rejected only when another sale or debt took, between its two
looks at a product, the pieces it needs, and then it takes nothing itself. The rows
written are whole: a rejected one has no items, no total and one incident of its kind, a
completed one has none. When sales and debts run one after the other no sale is rejected;
a new one that lacks stock whenever it looks is answered 400, unless a line of it costs
more than an amount may be or the database fails, and writes nothing. -/
theorem conflict_is_lost_race (host : Host) (d₀ : Db) (reqs : List Request) (s : Sys shop Answer)
    (hr : Reachable host d₀ reqs s) :
    (∀ h c row, h ++ [.commit c] <+: s.hist →
      row ∈ (replay (S := shop) d₀ (h ++ [.commit c])).sales.rows →
      row ∉ (replay (S := shop) d₀ h).sales.rows → row.status = .rechazadaPorConflicto →
      (∀ k, (replay (S := shop) d₀ (h ++ [.commit c])).products.find? k =
        (replay (S := shop) d₀ h).products.find? k) ∧
      ∃ env actor dto b, reqs[c.pid]? = some (.createSale env actor dto) ∧ row.id = uuid dto.id ∧
        Beaten d₀ c.pid actor.account.contextId dto h b ∧ IsTrade reqs b.pid) ∧
    (∀ row ∈ (replay (S := shop) d₀ s.hist).sales.rows, row ∈ d₀.sales.rows ∨
      (row.status = .rechazadaPorConflicto ∧ row.items = [] ∧ row.totalMinor = none ∧
        ∃ x, row.incidencias = [x] ∧ x.type = .conflictoStock) ∨
      (row.status = .completada ∧ ∀ x ∈ row.incidencias, x.type ≠ .conflictoStock)) ∧
    (Serial reqs s.hist →
      (∀ row ∈ (replay (S := shop) d₀ s.hist).sales.rows, row.status = .rechazadaPorConflicto →
        row ∈ d₀.sales.rows) ∧
      ∀ i env actor dto a, reqs[i]? = some (.createSale env actor dto) → s.Answered i a →
        Selected actor dto → Authorized d₀ none actor →
        (∀ h₁ e h₂, s.hist = h₁ ++ e :: h₂ → e.pid = i → (∀ x ∈ h₁, x.pid ≠ i) →
          (replay (S := shop) d₀ h₁).sales.find? (uuid dto.id) = none) →
        (∃ before item, before ++ [item] <+: dto.items ∧ ∀ h₁ p,
          h₁ ++ [.exec i (.findProduct (uuid item.productId) actor.account.contextId)] <+: s.hist →
          (replay (S := shop) d₀ h₁).products.find? (uuid item.productId) = some p →
          p.stock < needed before item) →
        Quiet i s.hist ∧
          ∃ e, a = .error e ∧ (e.status = 400 ∨ e.spontaneous ∨ TooDear d₀ dto s.hist)) := by
  have hl := hr.lawful
  refine ⟨?_, ?_, ?_⟩
  · intro h c row hp hrow hnew hst
    have hl' := hl.of_prefix hp
    obtain ⟨-, r, hreq, hw⟩ := hl' h c [] rfl
    have he : replay (S := shop) d₀ (h ++ [.commit c]) =
        applyAll (S := shop) (replay (S := shop) d₀ h) c.writes := by
      rw [replay_committed]
    rw [he] at hrow
    rcases hw with hw | ⟨hw, -⟩
    · rw [hw] at hrow
      exact absurd hrow hnew
    rcases hw.sales with hsame | ⟨env, actor, dto, row', rfl, hs⟩
    · rw [hsame] at hrow
      exact absurd hrow hnew
    rw [hs.sales] at hrow
    rcases Table.mem_put.mp hrow with rfl | ⟨hold, -⟩
    · rcases hs.outcome with ⟨ho, -⟩ | ⟨ho, hlost⟩
      · cases ho.status.symm.trans hst
      · obtain ⟨b, hb⟩ := hlost.beaten (hl'.of_prefix (List.prefix_append _ _))
        refine ⟨?_, env, actor, dto, b, hreq, hs.id, hb,
          hb.trade (hl'.of_prefix (List.prefix_append _ _))⟩
        intro k
        rw [he, ho.db]
    · exact absurd hold hnew
  · intro row hrow
    rcases Lawful.sale_origin hl row hrow with hold | ⟨h₁, c, env, actor, dto, hp, hreq, hs⟩
    · exact .inl hold
    · rcases hs.outcome with ⟨ho, -⟩ | ⟨ho, -⟩
      · exact .inr (.inr ⟨ho.status, ho.incidencias⟩)
      · exact .inr (.inl ⟨ho.status, ho.items, ho.totalMinor, ho.incidencias⟩)
  · intro hserial
    refine ⟨?_, ?_⟩
    · intro row hrow hst
      rcases Lawful.sale_origin hl row hrow with hold | ⟨h₁, c, env, actor, dto, hp, hreq, hs⟩
      · exact hold
      · have hpre : h₁ <+: s.hist := (List.prefix_append _ _).trans hp
        rcases hs.outcome with ⟨ho, -⟩ | ⟨-, hlost⟩
        · cases ho.status.symm.trans hst
        · exact absurd hlost ((hserial.of_prefix hpre).not_lost (hl.of_prefix hpre)
            (.inl ⟨env, actor, dto, hreq⟩))
    · rintro i env actor dto a hreq ha hsel hauth hfree ⟨before, item, hitem, hshort⟩
      have htrade : IsTrade reqs i := .inl ⟨env, actor, dto, hreq⟩
      have hstock : ¬ InStock d₀ i actor.account.contextId dto.items s.hist := by
        intro hin
        obtain ⟨h₁, p, hp, hf, hle⟩ := hin before item hitem
        exact absurd (hshort h₁ p hp hf) (not_lt.mpr hle)
      have hlost : ¬ LostRace d₀ i actor.account.contextId dto s.hist := hserial.not_lost hl htrade
      have htaken := hserial.not_taken hl htrade hfree
      have hquiet : Quiet i s.hist := by
        intro c hc hi
        by_contra hw
        obtain ⟨h₁, h₂, he⟩ := List.append_of_mem hc
        have hp : h₁ ++ [.commit c] <+: s.hist := ⟨h₂, by rw [he]; simp⟩
        have hpre := (List.prefix_append h₁ [.commit c]).trans hp
        obtain ⟨-, hcom⟩ := hl h₁ c h₂ he
        subst hi
        obtain ⟨row, hs⟩ := Commits.sale hcom hw hreq
        rcases hs.outcome with ⟨-, hin⟩ | ⟨-, hr'⟩
        · exact hstock (hin.mono hpre)
        · exact hlost (hr'.mono hpre)
      refine ⟨hquiet, ?_⟩
      obtain ⟨b, rfl, hans⟩ := hr.sale ha hreq
      cases b with
      | ok answer => exact (hans.2.elim (fun ht => htaken ht.2) fun hn => hn.2 hquiet).elim
      | error e =>
        refine ⟨e, rfl, ?_⟩
        rcases hans.2.2 with h400 | hsp | hx
        · exact .inl h400
        · exact .inr (.inl hsp)
        · cases hx with
          | unselected hn => exact absurd hsel hn
          | unauthorized hn => exact absurd hauth hn
          | taken ht => exact absurd ht htaken
          | tooDear ht => exact .inr (.inr ht)
          | inStock hin => exact absurd hin hstock
          | lost hl' => exact absurd hl' hlost

/-- Two sales of the last piece. -/
def Demo.rivals : List Request :=
  [.createSale (env 1) actor (single "one"),
    .createSale (env 2) actor (single "two")]

/-- The second looks at the piece before the first takes it. -/
def Demo.rivalsSteps : List Nat :=
  List.replicate 8 1 ++ List.replicate 13 0 ++ List.replicate 9 1

theorem conflict_is_lost_race_rivals :
    ∃ row ∈ (replay (S := shop) Demo.db (Demo.run Demo.rivals Demo.rivalsSteps).hist).sales.rows,
      row.status = .rechazadaPorConflicto ∧ row.items = [] ∧ row.totalMinor = none := by
  obtain ⟨row, hm, hst⟩ : ∃ row ∈ (replay (S := shop) Demo.db
      (Demo.run Demo.rivals Demo.rivalsSteps).hist).sales.rows,
      row.status = .rechazadaPorConflicto := by
    decide
  rcases (conflict_is_lost_race Demo.host Demo.db Demo.rivals
    (Demo.run Demo.rivals Demo.rivalsSteps) (Demo.reachable (by decide))).2.1 row hm with
    hold | ⟨-, hitems, htotal, -⟩ | ⟨hdone, -⟩
  · cases hold
  · exact ⟨row, hm, hst, hitems, htotal⟩
  · cases hst.symm.trans hdone

end Bazar.Shop
