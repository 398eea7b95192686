import BazarApi.Finance.Creations

/- Folios have no gaps. The counter of a context and year moves only with the agreement that
   takes the number (`Effect.created`), and two creations that take one number cannot both
   commit. So in every state of every run the agreements of a year bear the numbers from one
   to the last, in the order in which they were committed, and no folio twice. -/
namespace Bazar.Finance

open Txn

/-- The folios of a context and business year, in the order of the table. -/
def Db.foliosOf (d : Db) (contextId : String) (year : Int) : List String :=
  (d.agreements.rows.filter fun a =>
    a.contextId = contextId ∧ folioYear a.receivedAt = some year).map (·.folio)

/-- The folios a counter has given out. -/
def foliosUpTo (year : Int) (n : Nat) : List String :=
  (List.range n).map fun k : Nat => formatFolio year (k + 1)

structure Numbered (d : Db) : Prop where
  nonneg : ∀ contextId year, 0 ≤ d.lastNumber contextId year
  gapless : ∀ contextId year,
    d.foliosOf contextId year = foliosUpTo year (d.lastNumber contextId year).toNat
  distinct : ∀ a ∈ d.agreements.rows, ∀ b ∈ d.agreements.rows, a.contextId = b.contextId →
    a.folio = b.folio → a = b

section
variable {host : Host} {d₀ : Db} {reqs : List Request} {h : History finance}

theorem foliosUpTo_succ (year : Int) (n : Nat) :
    foliosUpTo year (n + 1) = foliosUpTo year n ++ [formatFolio year (n + 1)] := by
  unfold foliosUpTo
  rw [List.range_succ, List.map_append]
  rfl

theorem lastNumber_put {d : Db} {row : DistributionAgreementCounter} {contextId : String}
    {year : Int} : ({ d with counters := d.counters.put row } : Db).lastNumber contextId year =
      if contextId = row.contextId ∧ year = row.year then row.lastNumber
      else d.lastNumber contextId year := by
  unfold Db.lastNumber
  rw [Table.find?_put]
  by_cases hk : (contextId, year) = Keyed.key row
  · obtain ⟨hc, hy⟩ := Prod.mk.inj hk
    rw [if_pos hk, if_pos ⟨hc, hy⟩]
    rfl
  · rw [if_neg hk, if_neg fun h => hk (Prod.ext h.1 h.2)]

theorem SameRecords.numbered {d d' : Db} (hs : SameRecords d d') (hn : Numbered d) :
    Numbered d' := by
  refine ⟨?_, ?_, ?_⟩
  · intro contextId year
    unfold Db.lastNumber
    rw [hs.counters]
    exact hn.nonneg contextId year
  · intro contextId year
    unfold Db.foliosOf Db.lastNumber
    rw [hs.counters, hs.agreements]
    exact hn.gapless contextId year
  · rw [hs.agreements]
    exact hn.distinct

/-- One creation takes the next number. -/
theorem Numbered.created {actor : Actor} {dto : CreateDistributionAgreementDto}
    {x : AgreementDocumentInput} {year number : Int} {g : History finance}
    (hn : Numbered (replay (S := finance) d₀ h)) (hl : Lawful (Commits host d₀ reqs) h)
    (hfound : Creation host actor dto x year number (replay (S := finance) d₀ g))
    (hu : Untouched g h (creationWrites host actor dto x year number)) :
    Numbered (applyAll (S := finance) (replay (S := finance) d₀ h)
      (creationWrites host actor dto x year number)) := by
  have hnumber := hfound.still_next hu
  have hnew := hfound.still_new hu
  have hlast := hn.nonneg x.contextId year
  have hfolio : x.folio = formatFolio year number := by
    obtain ⟨_, _, _, _, hx⟩ := hfound.input
    rw [hx]
    rfl
  have hyear : folioYear (agreementRow host actor dto x).receivedAt = some year := hfound.year_eq
  rw [creation_apply]
  refine ⟨?_, ?_, ?_⟩
  · intro contextId year'
    refine lastNumber_put.symm ▸ ?_
    split
    · show 0 ≤ number
      omega
    · exact hn.nonneg contextId year'
  · intro contextId year'
    have hold := hn.gapless contextId year'
    unfold Db.foliosOf at hold ⊢
    show List.map _ (List.filter _ ((replay (S := finance) d₀ h).agreements.put _).rows) =
      foliosUpTo year' (Db.lastNumber { replay (S := finance) d₀ h with
        counters := (replay (S := finance) d₀ h).counters.put _ } contextId year').toNat
    rw [Table.put_rows_new hnew, List.filter_append, List.map_append, hold, lastNumber_put]
    by_cases hmine : contextId = x.contextId ∧ year' = year
    · obtain ⟨rfl, rfl⟩ := hmine
      have hkeep : [agreementRow host actor dto x].filter (fun a => a.contextId = x.contextId ∧
          folioYear a.receivedAt = some year') = [agreementRow host actor dto x] :=
        List.filter_eq_self.mpr fun a ha => by
          obtain rfl := List.mem_singleton.mp ha
          exact decide_eq_true ⟨rfl, hyear⟩
      obtain ⟨n, hlast⟩ := Int.eq_ofNat_of_zero_le hlast
      rw [hkeep, if_pos ⟨rfl, rfl⟩, hlast]
      show _ ++ [x.folio] = foliosUpTo year' number.toNat
      rw [hfolio, hnumber, hlast]
      exact (foliosUpTo_succ year' n).symm
    · have hdrop : [agreementRow host actor dto x].filter (fun a => a.contextId = contextId ∧
          folioYear a.receivedAt = some year') = [] := by
        refine List.filter_eq_nil_iff.mpr fun a ha hmine' => hmine ?_
        obtain rfl := List.mem_singleton.mp ha
        obtain ⟨hc, hy⟩ := of_decide_eq_true hmine'
        exact ⟨hc.symm, Option.some.inj (hy.symm.trans hyear)⟩
      rw [hdrop, if_neg hmine]
      exact List.append_nil _
  · have hfresh := hfound.folio_still_new hl hu
    intro a ha b hb hctx hsame
    rcases Table.mem_put.mp ha with rfl | ⟨ha, -⟩
    · rcases Table.mem_put.mp hb with rfl | ⟨hb, -⟩
      · rfl
      · exact absurd hsame.symm (hfresh b hb hctx.symm)
    · rcases Table.mem_put.mp hb with rfl | ⟨hb, -⟩
      · exact absurd hsame (hfresh a ha hctx)
      · exact hn.distinct a ha b hb hctx hsame

theorem Lawful.numbered (hl : Lawful (Commits host d₀ reqs) h) (h0 : Numbered d₀) :
    Numbered (replay (S := finance) d₀ h) := by
  refine hl.induct (S := finance) d₀ Numbered h0 ?_
  intro h₁ c hl₁ hn _ hg
  obtain ⟨r, -, hw | he⟩ := hg
  · rw [hw]
    exact hn
  generalize c.writes = ws at he ⊢
  cases he with
  | recorded => exact (sameRecords_books _ _).numbered hn
  | created hfound hu hexec _ => exact hn.created hl₁ hfound hu
  | voided horiginal hactive hnew hlock => exact ⟨hn.nonneg, hn.gapless, hn.distinct⟩
  | paid hagreement hactive hparticipant hbalance hnew hlock =>
    exact ⟨hn.nonneg, hn.gapless, hn.distinct⟩
  | unpaid hpayment hactive hnew hlock => exact ⟨hn.nonneg, hn.gapless, hn.distinct⟩

/-- What a commit that gives out no agreement leaves of the counters. -/
theorem Effect.counters_eq {i : Nat} {snap : Nat} {locks : Locks Key} {r : Request} {ws : List Write}
    (he : Effect host d₀ i h snap locks r ws) (hr : ∀ row, Write.insertAgreement row ∉ ws) :
    (applyAll (S := finance) (replay (S := finance) d₀ h) ws).counters =
      (replay (S := finance) d₀ h).counters := by
  cases he with
  | recorded => exact (sameRecords_books _ _).counters
  | created hfound hu hexec _ => exact absurd mem_agreement (hr _)
  | voided horiginal hactive hnew hlock => rfl
  | paid hagreement hactive hparticipant hbalance hnew hlock => rfl
  | unpaid hpayment hactive hnew hlock => rfl

end

/-- In every run, whatever fails, is rolled back, tried again or sent again: the agreements of
a context and business year bear the numbers from one to the last given out, each once and in
the order of their commits; no two agreements of a context share a folio; and only the commit
of an agreement moves a counter. -/
theorem folios_without_gaps (host : Host) (d₀ : Db) (reqs : List Request) (s : Sys finance Answer)
    (h0 : Consistent host d₀) (hn : Numbered d₀) (hr : Reachable host d₀ reqs s) :
    Numbered (replay (S := finance) d₀ s.hist) ∧
    ∀ h₁ c h₂, s.hist = h₁ ++ .commit c :: h₂ →
      (∀ row, Write.insertAgreement row ∉ c.writes) →
      (applyAll (S := finance) (replay (S := finance) d₀ h₁) c.writes).counters =
        (replay (S := finance) d₀ h₁).counters := by
  have hl := (hr.ok h0).lawful
  refine ⟨Lawful.numbered hl hn, ?_⟩
  intro h₁ c h₂ he hnone
  obtain ⟨-, r, -, hw | heffect⟩ := hl h₁ c h₂ he
  · rw [hw]
    rfl
  · exact heffect.counters_eq hnone

theorem Demo.numbered : Numbered Demo.office where
  nonneg _ _ := le_refl _
  gapless _ _ := rfl
  distinct _ ha := absurd ha List.not_mem_nil

/-- Two creations, with a void in between. -/
theorem folios_without_gaps_replacing :
    Numbered (replay (S := finance) Demo.office
      (Demo.run Demo.office Demo.replacing Demo.replacingSteps).hist) ∧
    (replay (S := finance) Demo.office
      (Demo.run Demo.office Demo.replacing Demo.replacingSteps).hist).foliosOf "c" 2026 =
        ["AC-2026-00001", "AC-2026-00002"] :=
  ⟨(folios_without_gaps Demo.host Demo.office Demo.replacing _ Demo.consistent Demo.numbered
    Demo.replacing_reachable).1, by decide⟩

end Bazar.Finance
