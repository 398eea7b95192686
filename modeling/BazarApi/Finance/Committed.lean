import BazarApi.Finance.Columns
import BazarApi.Finance.Creations

/- The same money is not committed twice. A creation compares what it asks for with the
   agreements of its snapshot. Two creations of one context and business year write one
   counter, so none was committed in between (`Later.committed_le`), and a void only frees
   money. So where a creation commits, what the period's agreements distribute is at most what
   was potentially available in its own snapshot. -/
namespace Bazar.Finance

open Txn

/-- The checks and foreign keys that the money of a period rests on. -/
structure Sound (d : Db) : Prop where
  checks : ∀ a ∈ d.agreements.rows, a.checks = true
  reversed : ∀ r ∈ d.agreementReversals.rows, (d.agreements.find? r.agreementId).isSome = true

section
variable {host : Host} {d₀ : Db} {reqs : List Request} {g h : History finance}

theorem checks_nonneg {a : DistributionAgreement} (h : a.checks = true) :
    0 ≤ a.distributedMinor ∧ a.distributedMinor ≤ a.requestedAmountMinor := by
  unfold DistributionAgreement.checks at h
  simp only [decide_eq_true_eq] at h
  omega

theorem Lawful.sound (hl : Lawful (Commits host d₀ reqs) h) (h0 : Sound d₀) :
    Sound (replay (S := finance) d₀ h) := by
  refine hl.induct (S := finance) d₀ Sound h0 ?_
  intro h₁ c _ hs _ hg
  have hgrows := hg.grows.agreements
  obtain ⟨r, -, hw | he⟩ := hg
  · rw [hw]
    exact hs
  generalize c.writes = ws at he hgrows ⊢
  have hkept : ∀ r ∈ (replay (S := finance) d₀ h₁).agreementReversals.rows,
      ((applyAll (S := finance) (replay (S := finance) d₀ h₁) ws).agreements.find?
        r.agreementId).isSome = true := by
    intro r hr
    obtain ⟨a, ha⟩ := Option.isSome_iff_exists.mp (hs.reversed r hr)
    exact Option.isSome_iff_exists.mpr ⟨a, hgrows _ a ha⟩
  cases he with
  | recorded =>
    refine ⟨?_, ?_⟩
    · rw [(sameRecords_books _ _).agreements]
      exact hs.checks
    · intro r hr
      rw [(sameRecords_books _ _).agreementReversals] at hr
      exact hkept r hr
  | created hfound hu hexec _ =>
    refine ⟨?_, ?_⟩
    · intro a ha
      rw [creation_apply] at ha
      rcases Table.mem_put.mp ha with rfl | ⟨ha, -⟩
      · exact hfound.checks
      · exact hs.checks a ha
    · intro r hr
      rw [creation_apply] at hr
      exact hkept r hr
  | voided horiginal hactive hnew hlock =>
    refine ⟨hs.checks, ?_⟩
    intro r hr
    rcases Table.mem_put.mp hr with rfl | ⟨hr, -⟩
    · exact Option.isSome_iff_exists.mpr ⟨_, (Option.filter_eq_some_iff.mp horiginal).1⟩
    · exact hkept r hr
  | paid hagreement hactive hparticipant hbalance hnew hlock => exact ⟨hs.checks, hs.reversed⟩
  | unpaid hpayment hactive hnew hlock => exact ⟨hs.checks, hs.reversed⟩

/-! What the agreements of a period distribute. -/

theorem committed_congr {d d' : Db} (ha : d'.agreements = d.agreements)
    (hr : d'.agreementReversals = d.agreementReversals) (contextId : String) (period : Period) :
    d'.committedMinor contextId period = d.committedMinor contextId period := by
  unfold Db.committedMinor Db.liveAgreements Db.reversalOf
  rw [ha, hr]

theorem sum_filter_le {l : List DistributionAgreement} {p q : DistributionAgreement → Bool}
    (hpq : ∀ a ∈ l, p a = true → q a = true) (hpos : ∀ a ∈ l, 0 ≤ a.distributedMinor) :
    ((l.filter p).map (·.distributedMinor)).sum ≤ ((l.filter q).map (·.distributedMinor)).sum := by
  induction l with
  | nil => exact le_refl _
  | cons a l ih =>
    have ih := ih (fun b hb => hpq b (List.mem_cons_of_mem _ hb))
      fun b hb => hpos b (List.mem_cons_of_mem _ hb)
    have ha := hpos a List.mem_cons_self
    rw [List.filter_cons, List.filter_cons]
    by_cases hp : p a = true
    · rw [if_pos hp, if_pos (hpq a List.mem_cons_self hp), List.map_cons, List.map_cons,
        List.sum_cons, List.sum_cons]
      exact add_le_add (le_refl _) ih
    · rw [if_neg hp]
      split
      · rw [List.map_cons, List.sum_cons]
        omega
      · exact ih

/-- A void frees what its agreement distributed. -/
theorem committed_voided {d : Db} {row : DistributionAgreementReversal} (hs : Sound d)
    (hnew : d.agreementReversals.find? row.id = none) (contextId : String) (period : Period) :
    ((Write.insertAgreementReversal row).apply d).committedMinor contextId period ≤
      d.committedMinor contextId period := by
  refine sum_filter_le (fun a _ ha => ?_) fun a ha => (checks_nonneg (hs.checks a ha)).1
  obtain ⟨hctx, hperiod, hlive⟩ := of_decide_eq_true ha
  refine decide_eq_true ⟨hctx, hperiod, ?_⟩
  unfold Db.reversalOf at hlive ⊢
  rw [Option.isNone_iff_eq_none, List.find?_eq_none] at hlive ⊢
  intro r hr
  exact hlive r (Table.mem_of_find? (Table.grows_put hnew _ _ (Table.find?_of_mem hr)))

/-- A new agreement adds at most what it distributes. -/
theorem committed_put {d : Db} {row : DistributionAgreement}
    (hnew : d.agreements.find? row.id = none) (contextId : String) (period : Period) :
    ({ d with agreements := d.agreements.put row } : Db).committedMinor contextId period =
      d.committedMinor contextId period +
        if row.contextId = contextId ∧ row.period = period ∧ (d.reversalOf row).isNone = true then
          row.distributedMinor
        else 0 := by
  unfold Db.committedMinor Db.liveAgreements
  show ((List.filter (fun a => decide (a.contextId = contextId ∧ a.period = period ∧
    (d.reversalOf a).isNone = true)) (d.agreements.put row).rows).map (·.distributedMinor)).sum = _
  rw [Table.put_rows_new hnew, List.filter_append, List.map_append, List.sum_append,
    List.filter_singleton]
  by_cases hmine : row.contextId = contextId ∧ row.period = period ∧
      (d.reversalOf row).isNone = true
  · rw [if_pos hmine, decide_eq_true hmine]
    simp
  · rw [if_neg hmine, decide_eq_false hmine]
    simp

theorem committed_created {d : Db} {actor : Actor} {dto : CreateDistributionAgreementDto}
    {x : AgreementDocumentInput} {year number : Int}
    (hnew : d.agreements.find? x.id = none) (contextId : String) (period : Period) :
    (applyAll (S := finance) d (creationWrites host actor dto x year number)).committedMinor
      contextId period = d.committedMinor contextId period +
        if x.contextId = contextId ∧ dto.period = period ∧
            (d.reversalOf (agreementRow host actor dto x)).isNone = true then
          x.simulation.totals.distributedMinor
        else 0 := by
  have hput := @committed_put d (agreementRow host actor dto x) hnew contextId period
  rw [creation_apply]
  exact (committed_congr rfl rfl contextId period).trans hput

/-- The agreements created in a history were all received in one business year. -/
def InYear (year : Int) (h : History finance) : Prop :=
  ∀ c, .commit c ∈ h → ∀ row, Write.insertAgreement row ∈ c.writes →
    folioYear row.receivedAt = some year

theorem InYear.of_prefix {year : Int} (hy : InYear year h) (hp : g <+: h) : InYear year g :=
  fun c hc => hy c (hp.subset hc)

/-- Nothing of a creation's context was committed since its snapshot. -/
theorem Untouched.committed_le {actor : Actor} {dto : CreateDistributionAgreementDto}
    {x : AgreementDocumentInput} {year number : Int}
    (hl : Lawful (Commits host d₀ reqs) h) (h0 : Sound d₀)
    (hu : Untouched g h (creationWrites host actor dto x year number)) (hy : InYear year h)
    (period : Period) :
    (replay (S := finance) d₀ h).committedMinor x.contextId period ≤
      (replay (S := finance) d₀ g).committedMinor x.contextId period := by
  refine hu.keep hl (P := fun d => d.committedMinor x.contextId period ≤ _) (le_refl _) ?_
  intro h₁ c hl₁ hmem _ hle hg hkeys
  have hs := Lawful.sound hl₁ h0
  have hyear := hy c (List.drop_subset _ _ hmem)
  obtain ⟨r, -, hw | he⟩ := hg
  · rw [hw]
    exact hle
  generalize c.writes = ws at he hkeys hyear ⊢
  cases he with
  | recorded =>
    have hsame := sameRecords_books (replay (S := finance) d₀ h₁)
    exact (committed_congr (hsame _).agreements (hsame _).agreementReversals _ _).le.trans hle
  | @created env' actor' dto' x' year' number' g' hfound hu' hexec _ =>
    -- another creation of the context would have written the counter
    have hother : x'.contextId ≠ x.contextId := by
      intro hctx
      have hmine : folioYear x'.receivedAt = some year :=
        hyear (agreementRow host actor' dto' x') mem_agreement
      have hsame : year' = year := Option.some.inj (hfound.year_eq.symm.trans hmine)
      exact hkeys (.putCounter ⟨x'.contextId, year', number'⟩) mem_counter
        (.putCounter ⟨x.contextId, year, number⟩) mem_counter (congrArg₂ Key.counter hctx hsame)
    rw [committed_created (hfound.still_new hu'), if_neg fun hmine => hother hmine.1, add_zero]
    exact hle
  | voided horiginal hactive hnew hlock => exact (committed_voided hs hnew _ _).trans hle
  | paid hagreement hactive hparticipant hbalance hnew hlock => exact hle
  | unpaid hpayment hactive hnew hlock => exact hle

end

/-- In every run whose creations are received in one business year: whenever an agreement
commits, the agreements of its context and exact period that are not voided, itself included,
distribute at most what was potentially available in the snapshot its own transaction began on;
there, what it asks for fitted beside what was distributed, and its folio was drawn since. -/
theorem money_committed_once (host : Host) (d₀ : Db) (reqs : List Request) (s : Sys finance Answer)
    (year : Int) (h0 : Consistent host d₀) (hs : Sound d₀) (hr : Reachable host d₀ reqs s)
    (hy : InYear year s.hist) (h₁ : History finance) (c : Commit finance) (h₂ : History finance)
    (he : s.hist = h₁ ++ .commit c :: h₂) (row : DistributionAgreement)
    (hrow : Write.insertAgreement row ∈ c.writes) :
    (replay (S := finance) d₀ (h₁ ++ [.commit c])).committedMinor row.contextId row.period ≤
        row.potentiallyAvailableMinor ∧
      ∃ g, g <+: h₁ ∧ g.length = c.snap ∧
        .exec c.pid (.nextNumber row.contextId (some year)) ∈ h₁.drop c.snap ∧
        ∃ base, overviewAt (replay (S := finance) d₀ g) row.contextId row.period = .ok base ∧
          row.potentiallyAvailableMinor = base.result.potentiallyAvailableMinor ∧
          row.requestedAmountMinor +
            (replay (S := finance) d₀ g).committedMinor row.contextId row.period ≤
              base.result.potentiallyAvailableMinor := by
  have hl := (hr.ok h0).lawful
  have hp : h₁ ++ [.commit c] <+: s.hist := ⟨h₂, by rw [he, List.append_assoc]; rfl⟩
  have hl₁ : Lawful (Commits host d₀ reqs) h₁ :=
    Lawful.of_prefix hl ((List.prefix_append _ _).trans hp)
  obtain ⟨-, r, -, hw | heffect⟩ := hl h₁ c h₂ he
  · rw [hw] at hrow
    cases hrow
  have hyear := hy c (hp.subset (List.mem_append_right _ List.mem_cons_self)) row hrow
  rw [replay_committed]
  generalize c.writes = ws at heffect hrow ⊢
  generalize hsnap : c.snap = snap at heffect ⊢
  cases heffect with
  | recorded =>
    obtain ⟨w, -, hw⟩ := List.mem_map.mp hrow
    cases hw
  | voided horiginal hactive hnew hlock =>
    rcases List.mem_cons.mp hrow with hrow | hrow
    · cases hrow
    · cases List.mem_singleton.mp hrow
  | paid hagreement hactive hparticipant hbalance hnew hlock => cases List.mem_singleton.mp hrow
  | unpaid hpayment hactive hnew hlock =>
    rcases List.mem_cons.mp hrow with hrow | hrow
    · cases hrow
    · cases List.mem_singleton.mp hrow
  | @created env actor dto x year' number g hfound hu hexec hlength =>
    obtain rfl : row = agreementRow host actor dto x := by
      unfold creationWrites DistributionAgreement.entries at hrow
      rcases List.mem_append.mp hrow with hrow | hrow
      · rcases List.mem_cons.mp hrow with hrow | hrow
        · cases hrow
        rcases List.mem_cons.mp hrow with hrow | hrow
        · cases hrow
          rfl
        rcases List.mem_cons.mp hrow with hrow | hrow
        · cases hrow
        · obtain ⟨_, -, hw⟩ := List.mem_map.mp hrow
          cases hw
      · obtain ⟨_, -, hw⟩ := List.mem_map.mp hrow
        cases hw
    obtain rfl : year' = year := Option.some.inj (hfound.year_eq.symm.trans hyear)
    have hle := Untouched.committed_le hl₁ hs hu
      (hy.of_prefix ((List.prefix_append _ _).trans hp)) dto.period
    have hdistributed := (checks_nonneg hfound.checks).2
    have hfree := hfound.free
    refine ⟨?_, g, hu.pre, hlength, hlength ▸ hexec, ?_⟩
    · have hadded : x.simulation.totals.distributedMinor ≤ dto.requestedAmountMinor := hdistributed
      have hnonneg : 0 ≤ x.simulation.totals.distributedMinor := (checks_nonneg hfound.checks).1
      show Db.committedMinor _ x.contextId dto.period ≤
        x.simulation.financialBase.potentiallyAvailableMinor
      rw [committed_created (hfound.still_new hu)]
      split <;> omega
    · obtain ⟨base, split, hshown⟩ := simulationAt_shown hfound.simulated
      exact ⟨base, hshown.overview, hshown.available, hshown.available ▸ hfree⟩

/-! The money of the last agreement of a run. -/

namespace Demo

theorem sound : Sound office where
  checks _ ha := absurd ha List.not_mem_nil
  reversed _ hr := absurd hr List.not_mem_nil

def createdIn (year : Int) (h : History finance) : Bool :=
  h.all fun e => e.writes.all fun w =>
    match w with
    | .insertAgreement row => folioYear row.receivedAt = some year
    | _ => true

theorem inYear_of_createdIn {year : Int} {h : History finance} (hc : createdIn year h = true) :
    InYear year h := by
  intro c hmem row hrow
  have hall := List.all_eq_true.mp (List.all_eq_true.mp hc _ hmem) _ hrow
  exact of_decide_eq_true hall

/-- The agreement the last commit gives out. -/
def lastAgreement (h : History finance) : Option (Commit finance × DistributionAgreement) := do
  let c ← lastCommit? h
  let row ← c.writes.findSome? fun w => match w with
    | .insertAgreement row => some row
    | _ => none
  return (c, row)

theorem of_lastAgreement {h : History finance} (hs : (lastAgreement h).isSome = true) :
    ∃ c row, h = h.dropLast ++ .commit c :: [] ∧ Write.insertAgreement row ∈ c.writes := by
  obtain ⟨⟨c, row⟩, hx⟩ := Option.isSome_iff_exists.mp hs
  obtain ⟨c', hc, hx⟩ := Option.bind_eq_some_iff.mp hx
  obtain ⟨row', hrow, hx⟩ := Option.bind_eq_some_iff.mp hx
  obtain ⟨w, hw, hrow⟩ := List.exists_of_findSome?_eq_some hrow
  refine ⟨c', row', eq_of_lastCommit? hc, ?_⟩
  split at hrow
  · cases hrow
    exact hw
  · cases hrow

end Demo

/-- The agreement that replaces a voided one, whose money its snapshot finds free. -/
theorem money_committed_once_replacing : ∃ c row,
    (Demo.run Demo.office Demo.replacing Demo.replacingSteps).hist =
        (Demo.run Demo.office Demo.replacing Demo.replacingSteps).hist.dropLast ++ [.commit c] ∧
      Write.insertAgreement row ∈ c.writes ∧
      (replay (S := finance) Demo.office
        ((Demo.run Demo.office Demo.replacing Demo.replacingSteps).hist.dropLast ++
          [.commit c])).committedMinor row.contextId row.period ≤ row.potentiallyAvailableMinor ∧
      ∃ g base, g.length = c.snap ∧
        overviewAt (replay (S := finance) Demo.office g) row.contextId row.period = .ok base ∧
        row.potentiallyAvailableMinor = base.result.potentiallyAvailableMinor := by
  obtain ⟨c, row, he, hrow⟩ := Demo.of_lastAgreement
    (h := (Demo.run Demo.office Demo.replacing Demo.replacingSteps).hist) (by decide)
  obtain ⟨hle, g, -, hlength, -, base, hbase, havailable, -⟩ := money_committed_once Demo.host
    Demo.office Demo.replacing _ 2026 Demo.consistent Demo.sound Demo.replacing_reachable
    (Demo.inYear_of_createdIn (by decide)) _ c [] he row hrow
  exact ⟨c, row, he, hrow, hle, g, base, hlength, hbase, havailable⟩

end Bazar.Finance
