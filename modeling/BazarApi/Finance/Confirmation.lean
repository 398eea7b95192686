import BazarApi.Finance.Simulation
import BazarApi.Finance.Agreements

/- A simulation depends on its data alone. Two snapshots that hold the same rows of a period,
   each in an order of its own and answering each query in any order, simulate the same
   (`simulationAt_of_sameData`). So a creation that confirms a simulation is not told that the
   data changed when they did not. -/
namespace Bazar.Finance

open Txn Team

/-! The data of a simulation. -/

/-- The same rows of a period, each table in an order of its own. -/
structure SameData (contextId : String) (period : Period) (d d' : Db) : Prop where
  sales : (d.completedSales contextId (businessStart period.start) (businessStart period.stop)).Perm
    (d'.completedSales contextId (businessStart period.start) (businessStart period.stop))
  expenses : (d.activeExpenses contextId (businessStart period.start)
    (businessStart period.stop)).Perm
      (d'.activeExpenses contextId (businessStart period.start) (businessStart period.stop))
  contributions : (d.activeContributions contextId (businessStart period.start)
    (businessStart period.stop)).Perm
      (d'.activeContributions contextId (businessStart period.start) (businessStart period.stop))
  shifts : (d.activeShifts contextId period).Perm (d'.activeShifts contextId period)
  reserves : (d.activeReserves contextId period).Perm (d'.activeReserves contextId period)
  members : (d.members.rows.filter fun m => m.contextId = contextId).Perm
    (d'.members.rows.filter fun m => m.contextId = contextId)

theorem sumOf_of_perm {xs ys : List Int} (h : xs.Perm ys) : sumOf xs = sumOf ys := by
  have hnil : xs = [] ↔ ys = [] := by
    rw [← List.length_eq_zero_iff, ← List.length_eq_zero_iff, h.length_eq]
  unfold sumOf
  simp only [hnil, h.sum_eq]

theorem groupByMember_of_perm {shifts shifts' : List WorkShift} (h : shifts.Perm shifts') :
    (groupByMember shifts).Perm (groupByMember shifts') := by
  unfold groupByMember
  have hgroup : ∀ id, (shifts.filter fun s => s.memberId = id).Perm
      (shifts'.filter fun s => s.memberId = id) := fun id => h.filter _
  simp only [(hgroup _).length_eq, sumOf_of_perm ((hgroup _).filterMap _)]
  exact (h.map _).dedup.map _

section
variable {host : Host} {d d' : Db} {contextId : String} {period : Period}

theorem SameData.eligibleMembers (hd : SameData contextId period d d') {ids ids' : List Uuid}
    (hi : ∀ id, id ∈ ids ↔ id ∈ ids') :
    (d.eligibleMembers contextId ids).Perm (d'.eligibleMembers contextId ids') := by
  have hsplit : ∀ (v : Db) (l : List Uuid), v.eligibleMembers contextId l =
      (v.members.rows.filter fun m => m.contextId = contextId).filter fun m =>
        (m.role = .socio ∧ m.active) ∨ m.id ∈ l := by
    intro v l
    unfold Db.eligibleMembers
    rw [List.filter_filter]
    refine List.filter_congr fun m _ => ?_
    rw [Bool.decide_and, Bool.and_comm]
  rw [hsplit, hsplit]
  simp only [hi]
  exact hd.members.filter _

theorem SameData.overviewAt (hd : SameData contextId period d d') :
    overviewAt d contextId period = overviewAt d' contextId period := by
  refine overviewOf_of_sameRows ⟨_, hd.sales.map _, ?_⟩ (hd.expenses.map _)
    (hd.contributions.map _) (hd.shifts.map _) (hd.reserves.map _)
  exact List.forall₂_same.mpr fun _ _ => ⟨rfl, .refl _⟩

theorem SameData.workMap (hd : SameData contextId period d d') :
    (workMap d contextId period).Perm (workMap d' contextId period) := by
  obtain ⟨work, hwork, hperm⟩ := workOf_of_perm (groupByMember_of_perm hd.shifts)
    (groupByMember_of_perm (hd.shifts.filter _))
  cases hwork.symm.trans (workAt_eq d contextId period)
  exact hperm

/-- The same rows are simulated the same. -/
theorem simulationAt_of_sameData {dto : FinanceDistributionSimulationDto}
    (hd : SameData contextId dto.period d d') :
    simulationAt host d contextId dto = simulationAt host d' contextId dto := by
  unfold simulationAt
  rw [hd.overviewAt, workAt_eq, workAt_eq]
  refine bind_congr fun base => bind_congr fun _ => ?_
  have hwork := hd.workMap
  exact simulationOf_of_perm host dto base hwork (workMap_nodup _ _ _)
    (hd.eligibleMembers fun _ => (hwork.map Prod.fst).mem_iff) (eligibleMembers_nodup _ _ _)

/-! Confirming. -/

/-- A failure of the database. -/
def Failure : Err → Prop
  | .database _ => True
  | .uniqueIndex _ => True
  | _ => False

/-- The queries of a simulation. -/
def Sql.Simulates : Sql → Prop
  | .salesIn _ _ _ => True
  | .expensesIn _ _ _ => True
  | .contributionsIn _ _ _ => True
  | .shiftsIn _ _ => True
  | .reservesOf _ _ => True
  | .shiftsByMember _ _ => True
  | .unknownByMember _ _ => True
  | .findMembers _ _ => True
  | _ => False

/-- How the statements of a creation may be answered: the queries of the simulation from the
snapshot, in any order, the others in any way, and each with a failure. -/
def Db.Confirms (d : Db) (q : Sql) : Except Err q.Res → Prop
  | .ok r => q.Simulates → d.MayAnswer q (.ok r)
  | .error e => Failure e

/-- A statement fails as the database does. -/
theorem exec_failure {q : Sql} {v : Db} {e : Err} (h : q.exec v = .error e) : Failure e := by
  cases q with
  | nextNumber contextId year =>
    change advanceCounter contextId year v = .error e at h
    unfold advanceCounter at h
    split at h
    · cases h
      trivial
    · split at h
      · cases h
        trivial
      · dsimp only at h
        split at h <;> cases h
        trivial
  | createAgreement row =>
    change insertAgreement row v = .error e at h
    unfold insertAgreement at h
    split_ifs at h <;> cases h <;> trivial
  | createParticipants rows =>
    change insertParticipants rows v = .error e at h
    unfold insertParticipants at h
    split_ifs at h <;> cases h <;> trivial
  | createAgreementReversal row =>
    change insertAgreementReversal row v = .error e at h
    unfold insertAgreementReversal at h
    split_ifs at h <;> cases h <;> trivial
  | createPayment row =>
    change insertPayment row v = .error e at h
    unfold insertPayment at h
    split_ifs at h <;> cases h <;> trivial
  | createPaymentReversal row =>
    change insertPaymentReversal row v = .error e at h
    unfold insertPaymentReversal at h
    split_ifs at h <;> cases h <;> trivial
  | _ => cases h

/-- What the snapshot answers is one of these. -/
theorem Db.confirms_exec (d : Db) (q : Sql) : d.Confirms q ((q.exec d).map Prod.fst) := by
  cases hx : q.exec d with
  | error e => exact exec_failure hx
  | ok y => exact fun _ => ⟨_, _, y.2, rfl, hx, sameRows_refl q y.1⟩

/-- The answer that the data changed. -/
def Changed (e : Err) : Prop := ∃ current, e = simulationChanged current

theorem Failure.not_changed {e : Err} (h : Failure e) : ¬ Changed e := by
  rintro ⟨current, rfl⟩
  exact h

theorem avoids_query (q : Sql) : (query q).Avoids (S := finance) d.Confirms Changed :=
  Tx.avoids_query fun _ he => Failure.not_changed he

theorem simulateInTx_simulates (host : Host) (contextId : String)
    (dto : FinanceDistributionSimulationDto) :
    (simulateInTx host contextId dto).All (S := finance) Sql.Simulates := by
  have hcompute : (compute contextId dto.period).All (S := finance) Sql.Simulates := by
    refine .query_bind trivial fun _ => .query_bind trivial fun _ => ?_
    refine .query_bind trivial fun _ => .query_bind trivial fun _ => ?_
    exact .query_bind trivial fun _ => Tx.all_ofExcept
  refine hcompute.bind fun base => Tx.All.bind Tx.all_require fun _ => ?_
  refine .query_bind trivial fun grouped => .query_bind trivial fun unknown => ?_
  refine Tx.All.bind Tx.all_ofExcept fun work => ?_
  exact .query_bind trivial fun members => Tx.all_ofExcept

/-- On the snapshot of a creation, a simulation fails or ends as the snapshot says. -/
theorem simulateInTx_confirms {dto : FinanceDistributionSimulationDto} {x : Except Err Simulation}
    (h : (simulateInTx host contextId dto).Ends (S := finance) d.Confirms x) :
    (∃ e, Failure e ∧ x = .error e) ∨ x = simulationAt host d contextId dto := by
  have hanswers : ∀ (q : Sql) (r : q.Res), q.Simulates → d.Confirms q (.ok r) →
      d.MayAnswer q (.ok r) := fun q r hq hr => hr hq
  rcases Tx.Ends.of_answers (simulateInTx_simulates host contextId dto) hanswers h with
    ⟨q, e, he, hx⟩ | hend
  · exact .inl ⟨e, he, hx⟩
  · exact .inr (simulateInTx_ends hend)

theorem authorize_avoids {actor : Actor} {sel : Selection} :
    (authorize actor sel).Avoids (S := finance) d.Confirms Changed := by
  have horigin : ¬ Changed originUnauthorized := by
    rintro ⟨current, he⟩
    cases he
  refine (avoids_query _).bind fun account _ => (avoids_query _).bind fun member _ => ?_
  refine (avoids_query _).bind fun device _ => ?_
  exact (Tx.avoids_require fun _ => horigin).bind fun _ _ => Tx.avoids_orThrow horigin

theorem replacedAgreement_avoids {id : Uuid} (replacesId : Option Uuid) :
    (replacedAgreement contextId id replacesId).Avoids (S := finance) d.Confirms Changed := by
  have hinvalid : ¬ Changed replacementInvalid := by
    rintro ⟨current, he⟩
    cases he
  cases replacesId with
  | none => exact Tx.avoids_ret _
  | some replacesId =>
    refine Tx.Avoids.bind ?_ fun _ _ => Tx.avoids_ret _
    have hrest : ∀ target : Option LiveAgreement, (Tx.orThrow target replacementInvalid >>=
        fun target => Tx.require (target.reversal.isSome ∧ target.replacedBy.isNone)
          replacementInvalid >>= fun _ =>
        (pure ⟨target.agreement.id, target.agreement.folio⟩ : Tx finance AgreementRef)).Avoids
          (S := finance) d.Confirms Changed := by
      intro target
      refine (Tx.avoids_orThrow hinvalid).bind fun target _ => ?_
      exact (Tx.avoids_require fun _ => hinvalid).bind fun _ _ => Tx.avoids_ret _
    unfold validateReplacement
    dsimp only
    split
    · exact (Tx.avoids_ret _).bind fun target _ => hrest target
    · exact (avoids_query _).bind fun target _ => hrest target

/-- A creation whose simulation is still that of the snapshot. -/
theorem createInTx_avoids {env : Env} {actor : Actor} {sel : Selection}
    {body : CreateDistributionAgreementDto} {attempt : Nat} {s : Simulation}
    (hs : simulationAt host d actor.account.contextId body.toFinanceDistributionSimulationDto =
      .ok s) (hf : body.simulationFingerprint = s.simulationFingerprint) :
    (createInTx host env actor sel body attempt).Avoids (S := finance) d.Confirms Changed := by
  refine authorize_avoids.bind fun memberName _ => (avoids_query _).bind fun _ _ => ?_
  refine (avoids_query _).bind fun existing _ => ?_
  cases existing with
  | some existing =>
    refine (Tx.avoids_require fun _ => ?_).bind fun _ _ => Tx.avoids_ret _
    rintro ⟨current, he⟩
    exact absurd (Err.conflictWith.inj he).1 (by decide)
  | none =>
    refine (replacedAgreement_avoids _).bind fun replaces _ => ?_
    refine Tx.Avoids.bind ?_ fun simulation hend => ?_
    · intro e he
      rcases simulateInTx_confirms he with ⟨e', hfail, hee⟩ | hat
      · cases hee
        exact hfail.not_changed
      · rw [hs] at hat
        cases hat
    -- so the fingerprint compared is the one that was accepted
    obtain rfl : simulation = s := by
      rcases simulateInTx_confirms hend with ⟨e', -, hee⟩ | hat
      · cases hee
      · exact Except.ok.inj (hat.trans hs)
    refine (Tx.avoids_require fun hne => absurd hf.symm hne).bind fun _ _ => ?_
    refine (avoids_query _).bind fun committed _ => ?_
    refine (Tx.avoids_require fun _ => ?_).bind fun _ _ => ?_
    · rintro ⟨current, he⟩
      cases he
    refine (avoids_query _).bind fun number _ => (avoids_query _).bind fun _ _ => ?_
    exact (avoids_query _).bind fun _ _ => Tx.avoids_ret _

end

/-- Two simulations of the same data end the same, whatever the order of the rows in each; and
a creation that confirms such a simulation on the same data is not told that they changed. -/
theorem simulation_depends_on_data (host : Host) (d d' : Db) (contextId : String)
    (dto : FinanceDistributionSimulationDto) (x y : Except Err Simulation)
    (hd : SameData contextId dto.period d d')
    (hx : (simulateInTx host contextId dto).Ends (S := finance) d.MayAnswer x)
    (hy : (simulateInTx host contextId dto).Ends (S := finance) d'.MayAnswer y) :
    x = y ∧ ∀ s, x = .ok s → ∀ env actor sel attempt (body : CreateDistributionAgreementDto),
      actor.account.contextId = contextId → body.toFinanceDistributionSimulationDto = dto →
      body.simulationFingerprint = s.simulationFingerprint → ∀ current,
        ¬ (createInTx host env actor sel body attempt).Ends (S := finance) d'.Confirms
          (.error (simulationChanged current)) := by
  have hat : simulationAt host d contextId dto = simulationAt host d' contextId dto :=
    simulationAt_of_sameData hd
  have hx := simulateInTx_ends hx
  refine ⟨hx.trans (hat.trans (simulateInTx_ends hy).symm), ?_⟩
  rintro s rfl env actor sel attempt body rfl rfl hf current he
  exact createInTx_avoids (hat.symm.trans hx.symm) hf _ he ⟨current, rfl⟩

namespace Demo

/-- The same rows, those of the people and of the shifts the other way round. -/
def reversed : Db :=
  { db with
    members := ⟨db.members.rows.reverse, by decide⟩
    workShifts := ⟨db.workShifts.rows.reverse, by decide⟩ }

theorem reversed_sameData : SameData "c" dto.period db reversed where
  sales := .refl _
  expenses := .refl _
  contributions := .refl _
  shifts := (List.reverse_perm _).symm.filter _
  reserves := .refl _
  members := (List.reverse_perm _).symm.filter _

theorem handedOut_reversed : handedOut ((simulateInTx host "c" dto).eval reversed []) =
    some [("a", 25), ("b", 40), ("x", 33)] := by decide

/-- A creation that confirms the simulation of a fingerprint. -/
def confirming (simulationFingerprint : String) : CreateDistributionAgreementDto :=
  { dto with
    id := "g", title := "Enero", note := none, simulationFingerprint, replacesAgreementId := none
    occurredAt := 0, createdByMemberId := "a", deviceId := "caja" }

end Demo

theorem simulation_depends_on_data_reversed : ∃ s s' : Simulation,
    (s.members.map fun m => (m.memberId.text, m.totalMinor)) = [("a", 25), ("b", 40), ("x", 33)] ∧
      s = s' ∧ ∀ current,
        ¬ (createInTx Demo.host ⟨fun _ => ⟨""⟩, fun _ => 0⟩ ⟨⟨"login", "c"⟩, none⟩ ⟨"a", "caja"⟩
          (Demo.confirming s.simulationFingerprint) 0).Ends (S := finance) Demo.reversed.Confirms
            (.error (simulationChanged current)) := by
  obtain ⟨s, hs, hl⟩ := Demo.of_handedOut Demo.handedOut_db
  obtain ⟨s', hs', -⟩ := Demo.of_handedOut Demo.handedOut_reversed
  obtain ⟨he, hconfirm⟩ := simulation_depends_on_data Demo.host Demo.db Demo.reversed "c" Demo.dto
    _ _ Demo.reversed_sameData (simulateInTx_ends_of_eval hs) (simulateInTx_ends_of_eval hs')
  exact ⟨s, s', hl, Except.ok.inj he, hconfirm s rfl _ _ _ _ _ rfl rfl rfl⟩

end Bazar.Finance
