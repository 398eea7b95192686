import BazarApi.Finance.AgreementsSafe
import BazarApi.Finance.Deadlock

/- What a creation found in its snapshot and still finds where it commits. Whoever took its
   folio, or replaced what it replaces, in between would have written the same entry of a
   unique index (`Creation.folio_still_new`, `Creation.still_unreplaced`). -/
namespace Bazar.Finance

open Txn

section
variable {host : Host} {d₀ : Db} {reqs : List Request} {g h : History finance}
variable {actor : Actor} {dto : CreateDistributionAgreementDto} {x : AgreementDocumentInput}
variable {year number : Int}

/-- What the snapshot satisfied and every commit since then keeps. -/
theorem Untouched.keep {ws : List Write} (hu : Untouched g h ws)
    (hl : Lawful (Commits host d₀ reqs) h) {P : Db → Prop} (h0 : P (replay (S := finance) d₀ g))
    (hs : ∀ h₁ c, Lawful (Commits host d₀ reqs) h₁ → .commit c ∈ h.drop g.length →
      h₁ ++ [.commit c] <+: h → P (replay (S := finance) d₀ h₁) → Commits host d₀ reqs h₁ c →
      (∀ w ∈ c.writes, ∀ w' ∈ ws, w.key ≠ w'.key) →
      P (applyAll (S := finance) (replay (S := finance) d₀ h₁) c.writes)) :
    P (replay (S := finance) d₀ h) := by
  have hkeys := hu.keys
  obtain ⟨n, rfl⟩ := hu.pre
  rw [List.drop_left] at hkeys hs
  have hpart : ∀ m, m <+: n → P (replay (S := finance) d₀ (g ++ m)) := by
    intro m hm
    induction m using List.reverseRecOn with
    | nil =>
      rw [List.append_nil]
      exact h0
    | append_singleton m e ih =>
      have ih := ih ((List.prefix_append m [e]).trans hm)
      have hmem : e ∈ n := hm.subset (List.mem_append_right _ List.mem_cons_self)
      have hpre : g ++ m ++ [e] <+: g ++ n := by
        rw [List.append_assoc]
        exact (List.prefix_append_right_inj g).mpr hm
      rw [← List.append_assoc, replay_append]
      cases e with
      | exec j q => exact ih
      | commit c =>
        obtain ⟨-, hc⟩ := Lawful.of_prefix hl hpre (g ++ m) c [] rfl
        exact hs (g ++ m) c (Lawful.of_prefix hl ((List.prefix_append _ _).trans hpre)) hmem hpre ih
          hc fun w hw w' hw' => hkeys _ hmem w hw w' hw'
  exact hpart n (List.prefix_refl n)

/-! The entries of the unique indexes. -/

theorem mem_folio : Write.entry (.folio x.contextId x.folio) ∈
    creationWrites host actor dto x year number := by
  unfold creationWrites
  exact List.mem_append_left _ (List.mem_cons_of_mem _ (List.mem_cons_of_mem _ List.mem_cons_self))

theorem mem_replaces {id : Uuid} (hid : id ∈ dto.replacesAgreementId.map uuid) :
    Write.entry (.replaces id x.contextId) ∈ creationWrites host actor dto x year number := by
  unfold creationWrites
  refine List.mem_append_left _ (List.mem_cons_of_mem _ (List.mem_cons_of_mem _
    (List.mem_cons_of_mem _ (List.mem_map_of_mem (f := fun id => Write.entry
      (.replaces id x.contextId)) ?_))))
  exact Option.mem_toList.mpr hid

/-- The folio of a creation is still new where it commits. -/
theorem Creation.folio_still_new (hl : Lawful (Commits host d₀ reqs) h)
    (hc : Creation host actor dto x year number (replay (S := finance) d₀ g))
    (hu : Untouched g h (creationWrites host actor dto x year number)) :
    ∀ a ∈ (replay (S := finance) d₀ h).agreements.rows, a.contextId = x.contextId →
      a.folio ≠ x.folio := by
  refine hu.keep hl (P := fun d => ∀ a ∈ d.agreements.rows, a.contextId = x.contextId →
    a.folio ≠ x.folio) hc.folio_new ?_
  intro h₁ c _ _ _ hnew hg hkeys
  obtain ⟨r, -, hw | he⟩ := hg
  · rw [hw]
    exact hnew
  generalize c.writes = ws at he hkeys ⊢
  cases he with
  | recorded =>
    rw [(sameRecords_books _ _).agreements]
    exact hnew
  | created hfound hu' hexec _ =>
    rw [creation_apply]
    intro a ha hctx hfolio
    rcases Table.mem_put.mp ha with rfl | ⟨ha, -⟩
    · exact hkeys _ mem_folio _ mem_folio (congrArg₂ Key.folio hctx hfolio)
    · exact hnew a ha hctx hfolio
  | voided horiginal hactive hnew' hlock => exact hnew
  | paid hagreement hactive hparticipant hbalance hnew' hlock => exact hnew
  | unpaid hpayment hactive hnew' hlock => exact hnew

/-- Nobody else replaces what a creation replaces. -/
theorem Creation.still_unreplaced (hl : Lawful (Commits host d₀ reqs) h)
    (hc : Creation host actor dto x year number (replay (S := finance) d₀ g))
    (hu : Untouched g h (creationWrites host actor dto x year number)) {id : Uuid}
    (hid : id ∈ dto.replacesAgreementId.map uuid) :
    ∀ a ∈ (replay (S := finance) d₀ h).agreements.rows, a.contextId = x.contextId →
      a.replacesAgreementId ≠ some id := by
  have h0 : ∀ a ∈ (replay (S := finance) d₀ g).agreements.rows, a.contextId = x.contextId →
      a.replacesAgreementId ≠ some id := by
    obtain ⟨-, o, ho, -, hnone⟩ := hc.replaced id hid
    obtain ⟨hfind, hctx⟩ := Option.filter_eq_some_iff.mp ho
    have hkey : o.id = id := Table.find?_key hfind
    intro a ha hac har
    refine List.find?_eq_none.mp hnone a ha (decide_eq_true ⟨?_, ?_⟩)
    · rw [har, hkey]
    · rw [hac, of_decide_eq_true hctx]
  refine hu.keep hl (P := fun d => ∀ a ∈ d.agreements.rows, a.contextId = x.contextId →
    a.replacesAgreementId ≠ some id) h0 ?_
  intro h₁ c _ _ _ hnew hg hkeys
  obtain ⟨r, -, hw | he⟩ := hg
  · rw [hw]
    exact hnew
  generalize c.writes = ws at he hkeys ⊢
  cases he with
  | recorded =>
    rw [(sameRecords_books _ _).agreements]
    exact hnew
  | created hfound hu' hexec _ =>
    rw [creation_apply]
    intro a ha hctx hreplaces
    rcases Table.mem_put.mp ha with rfl | ⟨ha, -⟩
    · exact hkeys _ (mem_replaces hreplaces) _ (mem_replaces hid) (congrArg (Key.replaces id) hctx)
    · exact hnew a ha hctx hreplaces
  | voided horiginal hactive hnew' hlock => exact hnew
  | paid hagreement hactive hparticipant hbalance hnew' hlock => exact hnew
  | unpaid hpayment hactive hnew' hlock => exact hnew

/-- A void stays. -/
theorem reversalOf_grows {d d' : Db} {a : DistributionAgreement} (hg : Grows d d')
    (h : (d.reversalOf a).isSome = true) : (d'.reversalOf a).isSome = true := by
  obtain ⟨r, hr⟩ := Option.isSome_iff_exists.mp h
  have hmine := List.find?_some hr
  exact List.find?_isSome.mpr ⟨r, hg.agreementReversals.mem (List.mem_of_find?_eq_some hr), hmine⟩

end

/-! An agreement, its void and the one that replaces it, for concrete runs. -/

namespace Demo

def creation (id : String) (replaces : Option String) : CreateDistributionAgreementDto where
  toFinanceDistributionSimulationDto := dto
  id
  title := "t"
  note := none
  simulationFingerprint := "sim1:"
  replacesAgreementId := replaces
  occurredAt := 0
  createdByMemberId := "a"
  deviceId := "caja"

/-- Some day of 2026. -/
def today : Env := { serverId := fun _ => ⟨""⟩, now := fun _ => 1790000000000 }

def replacing : List Request :=
  [.createAgreement today actor (creation "n" none), .reverseAgreement today actor "n" (reversal "r"),
    .createAgreement today actor (creation "m" (some "n"))]

def replacingSteps : List Nat :=
  List.replicate 19 0 ++ List.replicate 11 1 ++ List.replicate 20 2

theorem replacing_reachable : Reachable host office replacing (run office replacing replacingSteps) :=
  reachable (by decide)

theorem consistent {h : Host} : Consistent h office where
  positive _ hp := absurd hp List.not_mem_nil
  known _ hp := absurd hp List.not_mem_nil
  recorded _ ha := absurd ha List.not_mem_nil
  within _ hp := absurd hp List.not_mem_nil

end Demo

end Bazar.Finance
