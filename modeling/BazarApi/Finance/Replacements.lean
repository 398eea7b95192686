import BazarApi.Finance.Creations

/- Chains of agreements. An agreement is voided once at most and for good, and replaced by one
   other at most; what replaces it was created after it, when it had been voided. So the
   agreements that replace one another form lines that never come back to themselves, and all
   of a line but its last agreement are voided (`Chained.line`). -/
namespace Bazar.Finance

open Txn

structure Chained (d : Db) : Prop where
  voided_once : ∀ r ∈ d.agreementReversals.rows, ∀ r' ∈ d.agreementReversals.rows,
    r.agreementId = r'.agreementId → r = r'
  replaced_once : ∀ a ∈ d.agreements.rows, ∀ b ∈ d.agreements.rows, a.contextId = b.contextId →
    ∀ id ∈ a.replacesAgreementId, b.replacesAgreementId = some id → a = b
  before : ∀ earlier a later, d.agreements.rows = earlier ++ a :: later →
    ∀ id ∈ a.replacesAgreementId, ∃ o ∈ earlier, o.id = id ∧ o.contextId = a.contextId ∧
      (d.reversalOf o).isSome = true

/-- An agreement, what it replaces, and so on to the first. -/
inductive Line (d : Db) : DistributionAgreement → List DistributionAgreement → Prop where
  | first {a : DistributionAgreement} (h : a.replacesAgreementId = none) : Line d a [a]
  | next {a o : DistributionAgreement} {l : List DistributionAgreement}
    (h : a.replacesAgreementId = some o.id) (ho : o ∈ d.agreements.rows) (hl : Line d o l) :
    Line d a (a :: l)

section
variable {d : Db} {a o : DistributionAgreement} {l l' : List DistributionAgreement}

theorem Line.unique (hl : Line d a l) (hl' : Line d a l') : l = l' := by
  induction hl generalizing l' with
  | first h =>
    cases hl' with
    | first => rfl
    | next h' ho hl =>
      rw [h] at h'
      cases h'
  | next h ho hl ih =>
    cases hl' with
    | first h' =>
      rw [h] at h'
      cases h'
    | next h' ho' hl' =>
      rw [h] at h'
      obtain rfl := Table.eq_of_key ho ho' (Option.some.inj h')
      rw [ih hl']

theorem rows_nodup : d.agreements.rows.Nodup := d.agreements.nodup.of_map _

/-- From every agreement a line leads to the first, through others that are voided. -/
theorem Chained.line (hd : Chained d) (ha : a ∈ d.agreements.rows) :
    ∃ l, Line d a l ∧ l.Nodup ∧ l ⊆ d.agreements.rows ∧
      ∀ o ∈ l, o.contextId = a.contextId ∧ (o = a ∨ (d.reversalOf o).isSome = true) := by
  -- the agreements before a cut have their lines before it
  have hcut : ∀ earlier, (∃ later, d.agreements.rows = earlier ++ later) → ∀ a ∈ earlier,
      ∃ l, Line d a l ∧ l.Nodup ∧ l ⊆ earlier ∧
        ∀ o ∈ l, o.contextId = a.contextId ∧ (o = a ∨ (d.reversalOf o).isSome = true) := by
    intro earlier
    induction earlier using List.reverseRecOn with
    | nil =>
      intro _ a ha
      cases ha
    | append_singleton earlier b ih =>
      rintro ⟨later, hrows⟩ a ha
      rw [List.append_assoc, List.singleton_append] at hrows
      have ih := ih ⟨b :: later, hrows⟩
      rcases List.mem_append.mp ha with ha | ha
      · obtain ⟨l, hl, hn, hsub, hall⟩ := ih a ha
        exact ⟨l, hl, hn, fun o ho => List.mem_append_left _ (hsub ho), hall⟩
      obtain rfl := List.mem_singleton.mp ha
      cases hreplaces : a.replacesAgreementId with
      | none =>
        refine ⟨[a], .first hreplaces, List.nodup_singleton a,
          fun o ho => List.mem_append_right _ ho, ?_⟩
        intro o ho
        obtain rfl := List.mem_singleton.mp ho
        exact ⟨rfl, .inl rfl⟩
      | some id =>
        obtain ⟨o, ho, rfl, hctx, hvoided⟩ := hd.before earlier a later hrows id hreplaces
        obtain ⟨l, hl, hn, hsub, hall⟩ := ih o ho
        have hmem : o ∈ d.agreements.rows := by
          rw [hrows]
          exact List.mem_append_left _ ho
        have hnew : a ∉ l := by
          intro hal
          have hnodup := @rows_nodup d
          rw [hrows] at hnodup
          exact List.disjoint_of_nodup_append hnodup (hsub hal) List.mem_cons_self
        refine ⟨a :: l, .next hreplaces hmem hl, List.nodup_cons.mpr ⟨hnew, hn⟩, ?_, ?_⟩
        · intro p hp
          rcases List.mem_cons.mp hp with rfl | hp
          · exact List.mem_append_right _ List.mem_cons_self
          · exact List.mem_append_left _ (hsub hp)
        · intro p hp
          rcases List.mem_cons.mp hp with rfl | hp
          · exact ⟨rfl, .inl rfl⟩
          · obtain ⟨hpctx, hpvoid⟩ := hall p hp
            refine ⟨hpctx.trans hctx, .inr ?_⟩
            rcases hpvoid with rfl | hpvoid
            · exact hvoided
            · exact hpvoid
  exact hcut d.agreements.rows ⟨[], (List.append_nil _).symm⟩ a ha

end

section
variable {host : Host} {d₀ : Db} {reqs : List Request} {h : History finance}

theorem SameRecords.chained {d d' : Db} (hs : SameRecords d d') (hc : Chained d) : Chained d' := by
  have hreversal : ∀ a, d'.reversalOf a = d.reversalOf a := by
    intro a
    unfold Db.reversalOf
    rw [hs.agreementReversals]
  refine ⟨?_, ?_, ?_⟩
  · rw [hs.agreementReversals]
    exact hc.voided_once
  · rw [hs.agreements]
    exact hc.replaced_once
  · intro earlier a later hrows id hid
    rw [hs.agreements] at hrows
    obtain ⟨o, ho, hoid, hctx, hvoided⟩ := hc.before earlier a later hrows id hid
    exact ⟨o, ho, hoid, hctx, by rw [hreversal]; exact hvoided⟩

/-- One more agreement, at the end of its line. -/
theorem Chained.created {actor : Actor} {dto : CreateDistributionAgreementDto}
    {x : AgreementDocumentInput} {year number : Int} {g : History finance}
    (hd : Chained (replay (S := finance) d₀ h)) (hl : Lawful (Commits host d₀ reqs) h)
    (hfound : Creation host actor dto x year number (replay (S := finance) d₀ g))
    (hu : Untouched g h (creationWrites host actor dto x year number)) :
    Chained (applyAll (S := finance) (replay (S := finance) d₀ h)
      (creationWrites host actor dto x year number)) := by
  have hnew := hfound.still_new hu
  have hgrows : Grows (replay (S := finance) d₀ g) (replay (S := finance) d₀ h) :=
    Lawful.grows hl hu.pre
  have hfree : ∀ id ∈ (agreementRow host actor dto x).replacesAgreementId,
      ∀ b ∈ (replay (S := finance) d₀ h).agreements.rows, b.contextId = x.contextId →
        b.replacesAgreementId ≠ some id := fun id hid => hfound.still_unreplaced hl hu hid
  rw [creation_apply]
  refine ⟨hd.voided_once, ?_, ?_⟩
  · intro a ha b hb hctx id hid hid'
    rcases Table.mem_put.mp ha with rfl | ⟨ha, -⟩
    · rcases Table.mem_put.mp hb with rfl | ⟨hb, -⟩
      · rfl
      · exact absurd hid' (hfree id hid b hb hctx.symm)
    · rcases Table.mem_put.mp hb with rfl | ⟨hb, -⟩
      · exact absurd hid (hfree id hid' a ha hctx)
      · exact hd.replaced_once a ha b hb hctx id hid hid'
  · intro earlier a later hrows id hid
    change ((replay (S := finance) d₀ h).agreements.put _).rows = _ at hrows
    rw [Table.put_rows_new hnew] at hrows
    show ∃ o ∈ earlier, o.id = id ∧ o.contextId = a.contextId ∧
      ((replay (S := finance) d₀ h).reversalOf o).isSome = true
    rcases List.eq_nil_or_concat later with rfl | ⟨later, b, rfl⟩
    · obtain ⟨rfl, hlast⟩ := List.append_inj' hrows rfl
      cases hlast
      obtain ⟨-, o, ho, hvoided, -⟩ := hfound.replaced id hid
      obtain ⟨hfind, hctx⟩ := Option.filter_eq_some_iff.mp ho
      exact ⟨o, hgrows.agreements.mem (Table.mem_of_find? hfind), Table.find?_key hfind,
        of_decide_eq_true hctx, reversalOf_grows hgrows hvoided⟩
    · rw [List.concat_eq_append, ← List.cons_append, ← List.append_assoc] at hrows
      obtain ⟨hrows, -⟩ := List.append_inj' hrows rfl
      exact hd.before earlier a later hrows id hid

theorem Lawful.chained (hl : Lawful (Commits host d₀ reqs) h) (h0 : Chained d₀) :
    Chained (replay (S := finance) d₀ h) := by
  refine hl.induct (S := finance) d₀ Chained h0 ?_
  intro h₁ c hl₁ hd _ hg
  have hgrows := hg.grows
  obtain ⟨r, -, hw | he⟩ := hg
  · rw [hw]
    exact hd
  generalize c.writes = ws at he hgrows ⊢
  cases he with
  | recorded => exact (sameRecords_books _ _).chained hd
  | created hfound hu hexec _ => exact hd.created hl₁ hfound hu
  | paid hagreement hactive hparticipant hbalance hnew hlock =>
    exact ⟨hd.voided_once, hd.replaced_once, hd.before⟩
  | unpaid hpayment hactive hnew hlock => exact ⟨hd.voided_once, hd.replaced_once, hd.before⟩
  | voided horiginal hactive hnew hlock =>
    refine ⟨?_, hd.replaced_once, ?_⟩
    · intro r hr r' hr' hsame
      rcases Table.mem_put.mp hr with rfl | ⟨hr, -⟩
      · rcases Table.mem_put.mp hr' with rfl | ⟨hr', -⟩
        · rfl
        · exact absurd hsame.symm (hactive r' hr')
      · rcases Table.mem_put.mp hr' with rfl | ⟨hr', -⟩
        · exact absurd hsame (hactive r hr)
        · exact hd.voided_once r hr r' hr' hsame
    · intro earlier a later hrows id hid
      obtain ⟨o, ho, hoid, hctx, hvoided⟩ := hd.before earlier a later hrows id hid
      exact ⟨o, ho, hoid, hctx, reversalOf_grows hgrows hvoided⟩

end

/-- In every state of every run, each agreement is voided once at most, and what is voided
stays so; each is replaced by one other at most, of its context, created after it and when it
had been voided; and what it replaces, what that replaced and so on is one line without
repetition, voided but for its last agreement. -/
theorem replacement_lines (host : Host) (d₀ : Db) (reqs : List Request) (s : Sys finance Answer)
    (h0 : Consistent host d₀) (hc : Chained d₀) (hr : Reachable host d₀ reqs s) :
    Chained (replay (S := finance) d₀ s.hist) ∧
    (∀ h₁, h₁ <+: s.hist → ∀ r ∈ (replay (S := finance) d₀ h₁).agreementReversals.rows,
      r ∈ (replay (S := finance) d₀ s.hist).agreementReversals.rows) ∧
    ∀ a ∈ (replay (S := finance) d₀ s.hist).agreements.rows,
      ∃! l, Line (replay (S := finance) d₀ s.hist) a l ∧ l.Nodup ∧
        ∀ o ∈ l, o.contextId = a.contextId ∧
          (o = a ∨ ((replay (S := finance) d₀ s.hist).reversalOf o).isSome = true) := by
  have hl := (hr.ok h0).lawful
  have hchained := Lawful.chained hl hc
  refine ⟨hchained, ?_, ?_⟩
  · intro h₁ hp r hmem
    exact (Lawful.grows hl hp).agreementReversals.mem hmem
  · intro a ha
    obtain ⟨l, hline, hnodup, -, hall⟩ := hchained.line ha
    exact ⟨l, ⟨hline, hnodup, hall⟩, fun l' h' => h'.1.unique hline⟩

theorem Demo.chained : Chained Demo.office where
  voided_once _ hr := absurd hr List.not_mem_nil
  replaced_once _ ha := absurd ha List.not_mem_nil
  before earlier a later hrows := absurd hrows (by simp [Demo.office, Demo.db, Table.empty])

/-- Of two agreements the second replaces the first, which was voided. -/
theorem replacement_lines_replacing :
    ((replay (S := finance) Demo.office
      (Demo.run Demo.office Demo.replacing Demo.replacingSteps).hist).agreements.rows.map
        fun a => (a.id.text, a.replacesAgreementId)) = [("n", none), ("m", some ⟨"n"⟩)] ∧
    Chained (replay (S := finance) Demo.office
      (Demo.run Demo.office Demo.replacing Demo.replacingSteps).hist) :=
  ⟨by decide, (replacement_lines Demo.host Demo.office Demo.replacing _ Demo.consistent Demo.chained
    Demo.replacing_reachable).1⟩

end Bazar.Finance
