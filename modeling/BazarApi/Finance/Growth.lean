import BazarApi.Finance.Requests

/- Agreements, participants, payments and reversals are only ever added: `Effect.grows` for
   one commit, `Lawful.grows` for a history. What a creation found in its snapshot it still
   finds where it commits, of the rows it writes (`Untouched.read_eq`). -/
namespace Bazar.Finance

open Txn

/-! What each write touches. -/

section
variable {d : Db} {w : Write} {k : Uuid} {k' : Uuid × Uuid}

theorem agreements_apply_ne (h : w.key ≠ .agreement k) :
    (w.apply d).agreements.find? k = d.agreements.find? k := by
  cases w with
  | insertAgreement r =>
    refine Table.find?_put_ne ?_
    rintro rfl
    exact h rfl
  | book w => cases w <;> rfl
  | _ => rfl

theorem participants_apply_ne (h : w.key ≠ .participant k'.1 k'.2) :
    (w.apply d).participants.find? k' = d.participants.find? k' := by
  cases w with
  | insertParticipant r =>
    refine Table.find?_put_ne ?_
    rintro rfl
    exact h rfl
  | book w => cases w <;> rfl
  | _ => rfl

theorem counters_apply_ne {contextId : String} {year : Int} (h : w.key ≠ .counter contextId year) :
    (w.apply d).counters.find? (contextId, year) = d.counters.find? (contextId, year) := by
  cases w with
  | putCounter r =>
    refine Table.find?_put_ne ?_
    intro he
    have hc : contextId = r.contextId := (Prod.ext_iff.mp he).1
    have hy : year = r.year := (Prod.ext_iff.mp he).2
    subst hc hy
    exact h rfl
  | book w => cases w <;> rfl
  | _ => rfl

end

/-! What a commit leaves. -/

/-- The same agreements and payments; the books may differ. -/
structure SameRecords (d d' : Db) : Prop where
  agreements : d'.agreements = d.agreements
  participants : d'.participants = d.participants
  agreementReversals : d'.agreementReversals = d.agreementReversals
  counters : d'.counters = d.counters
  payments : d'.payments = d.payments
  paymentReversals : d'.paymentReversals = d.paymentReversals

theorem SameRecords.refl (d : Db) : SameRecords d d := ⟨rfl, rfl, rfl, rfl, rfl, rfl⟩

theorem sameRecords_books (d : Db) (writes : List BookWrite) :
    SameRecords d (applyAll (S := finance) d (writes.map .book)) := by
  induction writes generalizing d with
  | nil => exact .refl d
  | cons w ws ih =>
    obtain ⟨h₁, h₂, h₃, h₄, h₅, h₆⟩ := ih (w.apply d)
    refine ⟨h₁.trans ?_, h₂.trans ?_, h₃.trans ?_, h₄.trans ?_, h₅.trans ?_, h₆.trans ?_⟩ <;>
      cases w <;> rfl

theorem insertParticipants_apply (d : Db) (rows : List DistributionAgreementParticipant) :
    applyAll (S := finance) d (rows.map .insertParticipant) =
      { d with participants := d.participants.putAll rows } := by
  induction rows generalizing d with
  | nil => rfl
  | cons r rows ih => exact ih _

theorem entries_apply (d : Db) (a : DistributionAgreement) :
    applyAll (S := finance) d a.entries = d := by
  unfold DistributionAgreement.entries
  cases a.replacesAgreementId <;> rfl

section
variable {host : Host} {actor : Actor} {dto : CreateDistributionAgreementDto}
variable {x : AgreementDocumentInput} {year number : Int}

/-- The rows of a creation's participants. -/
def participantRows (x : AgreementDocumentInput) : List DistributionAgreementParticipant :=
  x.simulation.members.map (participantRow x.id x.contextId)

theorem creation_apply (d : Db) :
    applyAll (S := finance) d (creationWrites host actor dto x year number) =
      { d with
        counters := d.counters.put ⟨x.contextId, year, number⟩
        agreements := d.agreements.put (agreementRow host actor dto x)
        participants := d.participants.putAll (participantRows x) } := by
  unfold creationWrites
  rw [applyAll_append, applyAll_cons, applyAll_cons, entries_apply]
  exact insertParticipants_apply _ _

/-! Since the snapshot. -/

theorem Untouched.read_eq {γ : Type} {g h : History finance} {ws : List Write} {w : Write}
    (hu : Untouched g h ws) (hw : w ∈ ws) (d₀ : Db) {f : Db → γ}
    (hf : ∀ (d : Db) (w' : Write), w'.key ≠ w.key → f (w'.apply d) = f d) :
    f (replay (S := finance) d₀ h) = f (replay (S := finance) d₀ g) := by
  have hkeys := hu.keys
  obtain ⟨n, rfl⟩ := hu.pre
  rw [List.drop_left] at hkeys
  rw [replay_append]
  exact replay_read_eq (S := finance) f (fun e he w' hw' d => hf d w' (hkeys e he w' hw' w hw)) _

variable {d₀ : Db} {g h : History finance}

theorem mem_counter : Write.putCounter ⟨x.contextId, year, number⟩ ∈
    creationWrites host actor dto x year number := by
  unfold creationWrites
  exact List.mem_append_left _ List.mem_cons_self

theorem mem_agreement : Write.insertAgreement (agreementRow host actor dto x) ∈
    creationWrites host actor dto x year number := by
  unfold creationWrites
  exact List.mem_append_left _ (List.mem_cons_of_mem _ List.mem_cons_self)

theorem mem_participant {m : SimulatedMember} (hm : m ∈ x.simulation.members) :
    Write.insertParticipant (participantRow x.id x.contextId m) ∈
      creationWrites host actor dto x year number := by
  unfold creationWrites
  exact List.mem_append_right _ (List.mem_map_of_mem (List.mem_map_of_mem hm))

/-- The id of a creation is still new where it commits. -/
theorem Creation.still_new (hc : Creation host actor dto x year number (replay (S := finance) d₀ g))
    (hu : Untouched g h (creationWrites host actor dto x year number)) :
    (replay (S := finance) d₀ h).agreements.find? x.id = none :=
  (hu.read_eq mem_agreement d₀ (f := fun d => d.agreements.find? x.id)
    fun _ _ hne => agreements_apply_ne hne).trans hc.new

/-- And its number still the next one. -/
theorem Creation.still_next
    (hc : Creation host actor dto x year number (replay (S := finance) d₀ g))
    (hu : Untouched g h (creationWrites host actor dto x year number)) :
    number = (replay (S := finance) d₀ h).lastNumber x.contextId year + 1 := by
  have hread := hu.read_eq mem_counter d₀ (f := fun d => d.lastNumber x.contextId year)
    fun _ _ hne => congrArg (fun o => o.elim 0 (·.lastNumber)) (counters_apply_ne hne)
  exact hc.number_eq.trans (congrArg (· + 1) hread.symm)

theorem Creation.still_without
    (hc : Creation host actor dto x year number (replay (S := finance) d₀ g))
    (hu : Untouched g h (creationWrites host actor dto x year number)) :
    ∀ r ∈ participantRows x,
      (replay (S := finance) d₀ h).participants.find? (Keyed.key r) = none := by
  intro r hr
  obtain ⟨m, hm, rfl⟩ := List.mem_map.mp hr
  exact (hu.read_eq (mem_participant hm) d₀ (f := fun d => d.participants.find? (x.id, m.memberId))
    fun _ _ hne => participants_apply_ne hne).trans (hc.participants m hm).2

theorem Creation.rows_nodup {d : Db} (hc : Creation host actor dto x year number d) :
    ((participantRows x).map Keyed.key).Nodup := by
  have h := hc.members_nodup.map (f := fun id => (x.id, id)) fun _ _ he => (Prod.ext_iff.mp he).2
  rw [List.map_map] at h
  unfold participantRows
  rw [List.map_map]
  exact h

end

/-! Growth. -/

structure Grows (d d' : Db) : Prop where
  agreements : d.agreements.Grows d'.agreements
  participants : d.participants.Grows d'.participants
  agreementReversals : d.agreementReversals.Grows d'.agreementReversals
  payments : d.payments.Grows d'.payments
  paymentReversals : d.paymentReversals.Grows d'.paymentReversals

theorem Grows.refl (d : Db) : Grows d d := ⟨.refl _, .refl _, .refl _, .refl _, .refl _⟩

theorem Grows.trans {d d' d'' : Db} (h : Grows d d') (h' : Grows d' d'') : Grows d d'' :=
  ⟨h.agreements.trans h'.agreements, h.participants.trans h'.participants,
    h.agreementReversals.trans h'.agreementReversals, h.payments.trans h'.payments,
    h.paymentReversals.trans h'.paymentReversals⟩

theorem SameRecords.grows {d d' : Db} (h : SameRecords d d') : Grows d d' := by
  refine ⟨?_, ?_, ?_, ?_, ?_⟩
  · rw [h.agreements]
    exact .refl _
  · rw [h.participants]
    exact .refl _
  · rw [h.agreementReversals]
    exact .refl _
  · rw [h.payments]
    exact .refl _
  · rw [h.paymentReversals]
    exact .refl _

section
variable {host : Host} {d₀ : Db} {reqs : List Request} {h h' : History finance}

theorem Effect.grows {i : Nat} {snap : Nat} {locks : Locks Key} {r : Request} {ws : List Write}
    (he : Effect host d₀ i h snap locks r ws) :
    Grows (replay (S := finance) d₀ h)
      (applyAll (S := finance) (replay (S := finance) d₀ h) ws) := by
  cases he with
  | recorded => exact (sameRecords_books _ _).grows
  | created hfound hu hexec _ =>
    rw [creation_apply]
    exact ⟨Table.grows_put (hfound.still_new hu),
      Table.grows_putAll hfound.rows_nodup (hfound.still_without hu), .refl _, .refl _, .refl _⟩
  | voided horiginal hactive hnew hlock =>
    exact ⟨.refl _, .refl _, Table.grows_put hnew, .refl _, .refl _⟩
  | paid hagreement hactive hparticipant hbalance hnew hlock =>
    exact ⟨.refl _, .refl _, .refl _, Table.grows_put hnew, .refl _⟩
  | unpaid hpayment hactive hnew hlock =>
    exact ⟨.refl _, .refl _, .refl _, .refl _, Table.grows_put hnew⟩

theorem Commits.grows {c : Commit finance} (hc : Commits host d₀ reqs h c) :
    Grows (replay (S := finance) d₀ h)
      (applyAll (S := finance) (replay (S := finance) d₀ h) c.writes) := by
  obtain ⟨r, -, hw | he⟩ := hc
  · rw [hw]
    exact .refl _
  · exact he.grows

/-- A later state has every row of an earlier one. -/
theorem Lawful.grows (hl : Lawful (Commits host d₀ reqs) h') (hp : h <+: h') :
    Grows (replay (S := finance) d₀ h) (replay (S := finance) d₀ h') :=
  hl.keep (S := finance) d₀ (fun d => Grows (replay (S := finance) d₀ h) d) hp (.refl _)
    fun _ _ _ _ hg _ hc => hg.trans hc.grows

end

end Bazar.Finance
