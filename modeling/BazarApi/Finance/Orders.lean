import BazarApi.Txn.Answers
import BazarApi.Finance.Distribution

/- The order of the rows does not matter to a simulation. `MayAnswer` lets the database
   answer a query of the books with its rows in any order, each time another. Whatever the
   order, the simulation ends as `simulationAt` says, which reads every list in the order of
   its table. -/
namespace Bazar.Finance

open Txn Team

/-! Answers. -/

/-- One sale, its lines in any order. -/
def SameSale (a b : RecordedSale) : Prop := a.totalMinor = b.totalMinor ∧ a.items.Perm b.items

/-- The same rows, where a query of the books gives no order. -/
def SameRows : (q : Sql) → q.Res → q.Res → Prop
  | .salesIn _ _ _, r, r' => ∃ sales, r.Perm sales ∧ List.Forall₂ SameSale sales r'
  | .expensesIn _ _ _, r, r' => r.Perm r'
  | .contributionsIn _ _ _, r, r' => r.Perm r'
  | .shiftsIn _ _, r, r' => r.Perm r'
  | .reservesOf _ _, r, r' => r.Perm r'
  | .shiftsByMember _ _, r, r' => r.Perm r'
  | .unknownByMember _ _, r, r' => r.Perm r'
  | .findMembers _ _, r, r' => r.Perm r'
  | _, r, r' => r = r'

/-- How the snapshot may answer a statement. -/
def Db.MayAnswer (d : Db) (q : Sql) (x : Except Err q.Res) : Prop :=
  ∃ r r' ws, x = .ok r ∧ q.exec d = .ok (r', ws) ∧ SameRows q r r'

theorem sameRows_refl (q : Sql) (r : q.Res) : SameRows q r r := by
  cases q with
  | salesIn contextId start stop =>
    exact ⟨r, .refl _, List.forall₂_same.mpr fun _ _ => ⟨rfl, .refl _⟩⟩
  | _ => first | rfl | exact List.Perm.refl _

/-! The simulation of a snapshot. -/

def booksAt (d : Db) (contextId : String) (period : Period) : Books :=
  let start := businessStart period.start
  let stop := businessStart period.stop
  { sales := (d.completedSales contextId start stop).map fun x => ⟨x.totalMinor, x.items⟩
    expenses := (d.activeExpenses contextId start stop).map fun x => (x.nature, x.amountMinor)
    contributions := (d.activeContributions contextId start stop).map (·.amountMinor)
    shifts := (d.activeShifts contextId period).map (·.minutes)
    reserves := (d.activeReserves contextId period).map (·.amountMinor) }

def overviewAt (d : Db) (contextId : String) (period : Period) : Except Err Overview :=
  overviewOf period (booksAt d contextId period)

/-- The shifts of a period by member, and those of them without a duration. -/
def workAt (d : Db) (contextId : String) (period : Period) : Except Err Work :=
  workOf (groupByMember (d.activeShifts contextId period))
    (groupByMember ((d.activeShifts contextId period).filter fun s => s.minutes = none))

def simulationAt (host : Host) (d : Db) (contextId : String)
    (dto : FinanceDistributionSimulationDto) : Except Err Simulation := do
  let base ← overviewAt d contextId dto.period
  reject (base.result.potentiallyAvailableMinor < dto.requestedAmountMinor)
    (exceedsAvailable base.result.potentiallyAvailableMinor)
  let work ← workAt d contextId dto.period
  simulationOf host dto base work (d.eligibleMembers contextId work.keys)

/-! The overview. -/

theorem totals_of_sameSale {a b : RecordedSale} (h : SameSale a b) : a.totals = b.totals := by
  unfold RecordedSale.totals
  rw [h.1, (h.2.map _).sum_eq]

theorem saleTotals_of_sameRows {sales sales' mid : List RecordedSale} (hp : sales.Perm mid)
    (hf : List.Forall₂ SameSale mid sales') : saleTotals sales = saleTotals sales' := by
  have hmap : mid.map RecordedSale.totals = sales'.map RecordedSale.totals := by
    clear hp
    induction hf with
    | nil => rfl
    | cons h _ ih => rw [List.map_cons, List.map_cons, totals_of_sameSale h, ih]
  have hnone : (∃ sale ∈ mid, sale.totalMinor = none) ↔ ∃ sale ∈ sales', sale.totalMinor = none := by
    clear hmap hp
    induction hf with
    | nil => exact Iff.rfl
    | cons h _ ih => simp only [List.mem_cons, exists_eq_or_imp, h.1, ih]
  rw [saleTotals_eq, saleTotals_eq, (hp.map _).sum_eq, hmap]
  simp only [hp.mem_iff, hnone]

theorem expenseTotals_of_perm {expenses expenses' : List (String × Int)}
    (hp : expenses.Perm expenses') : expenseTotals expenses = expenseTotals expenses' := by
  rw [expenseTotals_eq, expenseTotals_eq, (hp.map _).sum_eq]
  simp only [hp.mem_iff]

/-- The figures depend on the rows alone. -/
theorem overviewOf_of_sameRows {period : Period} {books books' : Books}
    (hs : ∃ sales, books.sales.Perm sales ∧ List.Forall₂ SameSale sales books'.sales)
    (he : books.expenses.Perm books'.expenses) (hc : books.contributions.Perm books'.contributions)
    (hw : books.shifts.Perm books'.shifts) (hr : books.reserves.Perm books'.reserves) :
    overviewOf period books = overviewOf period books' := by
  obtain ⟨sales, hp, hf⟩ := hs
  unfold overviewOf
  rw [saleTotals_of_sameRows hp hf, expenseTotals_of_perm he, hp.length_eq, hf.length_eq,
    hc.sum_eq, hc.length_eq, (hw.map _).sum_eq, hw.length_eq, (hw.filter _).length_eq,
    hr.sum_eq, hr.length_eq]

/-- A statement of the snapshot: its rows, in some order. -/
theorem ends_read {d : Db} {q : Sql} {α : Type} {k : q.Res → Tx finance α} {x : Except Err α}
    (h : (query q >>= k).Ends d.MayAnswer x) :
    ∃ r r' ws, q.exec d = .ok (r', ws) ∧ SameRows q r r' ∧ (k r).Ends d.MayAnswer x := by
  rcases h with ⟨e, ⟨r, r', ws, he, -⟩, -⟩ | ⟨r, ⟨r₀, r', ws, hr, hx, hs⟩, h⟩
  · cases he
  · cases hr
    exact ⟨r, r', ws, hx, hs, h⟩

theorem compute_ends {d : Db} {contextId : String} {period : Period} {x : Except Err Overview}
    (h : (compute contextId period).Ends d.MayAnswer x) : x = overviewAt d contextId period := by
  unfold compute at h
  obtain ⟨sales, _, _, hx, hsales, h⟩ := ends_read h
  cases hx
  obtain ⟨expenses, _, _, hx, hexpenses, h⟩ := ends_read h
  cases hx
  obtain ⟨contributions, _, _, hx, hcontributions, h⟩ := ends_read h
  cases hx
  obtain ⟨shifts, _, _, hx, hshifts, h⟩ := ends_read h
  cases hx
  obtain ⟨reserves, _, _, hx, hreserves, h⟩ := ends_read h
  cases hx
  rw [Tx.ends_ofExcept] at h
  rw [h]
  exact overviewOf_of_sameRows hsales hexpenses hcontributions hshifts hreserves

/-! The shifts by member. -/

theorem groupByMember_ids (shifts : List WorkShift) :
    (groupByMember shifts).map (·.memberId) = (shifts.map (·.memberId)).dedup := by
  unfold groupByMember
  rw [List.map_map]
  exact List.map_id _

theorem groupByMember_nodup (shifts : List WorkShift) :
    ((groupByMember shifts).map (·.memberId)).Nodup := by
  rw [groupByMember_ids]
  exact List.nodup_dedup _

/-- Groups by distinct ids, as entries of the map. -/
theorem workEntries_nodup {grouped : List ShiftGroup} (hn : (grouped.map (·.memberId)).Nodup) :
    ((grouped.map workEntry).map (·.1)).Nodup := by
  rw [List.map_map]
  exact hn

/-- The entry of a group, with the count of its unknown durations filled in. -/
def filledEntry (counts : Uuid → Int) (row : ShiftGroup) : Uuid × WorkAggregate :=
  (row.memberId, ⟨row.count, row.minutes.getD 0, counts row.memberId⟩)

theorem countUnknown_filled {grouped : List ShiftGroup} (hn : (grouped.map (·.memberId)).Nodup)
    {row : ShiftGroup} (hrow : row.memberId ∈ grouped.map (·.memberId)) (counts : Uuid → Int) :
    countUnknown (grouped.map (filledEntry counts)) row =
      .ok (grouped.map (filledEntry (Function.update counts row.memberId row.count))) := by
  have hkeys : (Js.Map.keys (grouped.map (filledEntry counts))).Nodup := by
    unfold Js.Map.keys
    rw [List.map_map]
    exact hn
  obtain ⟨own, hown, hid⟩ := List.mem_map.mp hrow
  have hget := Js.Map.get_of_mem hkeys (List.mem_map_of_mem (f := filledEntry counts) hown)
  have hhas : Js.Map.has (grouped.map (filledEntry counts)) own.memberId = true :=
    Js.Map.has_iff.mpr (List.mem_map_of_mem (f := Prod.fst)
      (List.mem_map_of_mem (f := filledEntry counts) hown))
  unfold countUnknown
  rw [← hid, hget]
  simp only [Js.Map.set, hhas, if_true, List.map_map]
  refine congrArg _ (List.map_congr_left ?_)
  intro g hg
  by_cases he : g.memberId = own.memberId
  · obtain rfl : g = own := List.inj_on_of_nodup_map hn hg hown he
    refine (if_pos rfl).trans ?_
    simp only [filledEntry, Function.update_self]
  · refine (if_neg he).trans ?_
    simp only [filledEntry, Function.update_of_ne he]

/-- The counts of a grouping, by id. -/
def countsOf (groups : List ShiftGroup) : Js.Map Uuid Int :=
  groups.map fun row => (row.memberId, row.count)

theorem countsOf_nodup {groups : List ShiftGroup} (hn : (groups.map (·.memberId)).Nodup) :
    (countsOf groups).keys.Nodup := by
  unfold Js.Map.keys countsOf
  rw [List.map_map]
  exact hn

theorem workOf_eq {grouped unknown : List ShiftGroup} (hn : (grouped.map (·.memberId)).Nodup)
    (hu : (unknown.map (·.memberId)).Nodup)
    (hsub : unknown.map (·.memberId) ⊆ grouped.map (·.memberId)) :
    workOf grouped unknown =
      .ok (grouped.map (filledEntry fun id => ((countsOf unknown).get id).getD 0)) := by
  have hfold : ∀ (rest : List ShiftGroup) (counts : Uuid → Int),
      (rest.map (·.memberId)).Nodup → rest.map (·.memberId) ⊆ grouped.map (·.memberId) →
      rest.foldlM countUnknown (grouped.map (filledEntry counts)) =
        .ok (grouped.map (filledEntry fun id => ((countsOf rest).get id).getD (counts id))) := by
    intro rest
    induction rest with
    | nil =>
      intro counts _ _
      rfl
    | cons row rest ih =>
      intro counts hr hs
      rw [List.map_cons, List.nodup_cons] at hr
      rw [List.map_cons, List.cons_subset] at hs
      rw [List.foldlM_cons, countUnknown_filled hn hs.1]
      refine (ih _ hr.2 hs.2).trans (congrArg _ (List.map_congr_left ?_))
      intro g _
      refine congrArg (fun n => (g.memberId, WorkAggregate.mk g.count (g.minutes.getD 0) n)) ?_
      by_cases he : row.memberId = g.memberId
      · have hnone : (countsOf rest).get g.memberId = none := by
          rw [Js.Map.get_eq_none]
          unfold Js.Map.keys countsOf
          rw [List.map_map, ← he]
          exact hr.1
        have hsome : (countsOf (row :: rest)).get g.memberId = some row.count := by
          unfold countsOf Js.Map.get
          rw [List.map_cons, List.find?_cons_of_pos (by simpa using he)]
          rfl
        simp only [hnone, hsome, he, Function.update_self, Option.getD_none, Option.getD_some]
      · have hrest : (countsOf (row :: rest)).get g.memberId = (countsOf rest).get g.memberId := by
          unfold countsOf Js.Map.get
          rw [List.map_cons, List.find?_cons_of_neg (by simpa using he)]
        simp only [hrest, Function.update_of_ne (fun h => he h.symm)]
  have hentries : (Js.Map.ofEntries (grouped.map workEntry) : Work) =
      grouped.map (filledEntry fun _ => 0) := by
    rw [Js.Map.ofEntries_eq (workEntries_nodup hn)]
    rfl
  unfold workOf
  rw [hentries]
  exact hfold unknown (fun _ => 0) hu hsub

theorem unknown_subset (shifts : List WorkShift) :
    (groupByMember (shifts.filter fun s => s.minutes = none)).map (·.memberId) ⊆
      (groupByMember shifts).map (·.memberId) := by
  rw [groupByMember_ids, groupByMember_ids]
  intro id h
  rw [List.mem_dedup] at h ⊢
  exact (List.filter_sublist.map _).subset h

/-- The map of the work of a period. -/
def workMap (d : Db) (contextId : String) (period : Period) : Work :=
  let shifts := d.activeShifts contextId period
  (groupByMember shifts).map (filledEntry fun id =>
    ((countsOf (groupByMember (shifts.filter fun s => s.minutes = none))).get id).getD 0)

theorem workAt_eq (d : Db) (contextId : String) (period : Period) :
    workAt d contextId period = .ok (workMap d contextId period) :=
  workOf_eq (groupByMember_nodup _) (groupByMember_nodup _) (unknown_subset _)

theorem workMap_nodup (d : Db) (contextId : String) (period : Period) :
    (workMap d contextId period).keys.Nodup := by
  unfold workMap Js.Map.keys
  rw [List.map_map]
  exact groupByMember_nodup _

/-- In any order, the groups make the same map but for its order. -/
theorem workOf_of_perm {d : Db} {contextId : String} {period : Period}
    {grouped unknown : List ShiftGroup}
    (hg : grouped.Perm (groupByMember (d.activeShifts contextId period)))
    (hu : unknown.Perm
      (groupByMember ((d.activeShifts contextId period).filter fun s => s.minutes = none))) :
    ∃ work, workOf grouped unknown = .ok work ∧ work.Perm (workMap d contextId period) := by
  have hgn := (hg.map (·.memberId)).nodup_iff.mpr (groupByMember_nodup _)
  have hun := (hu.map (·.memberId)).nodup_iff.mpr (groupByMember_nodup _)
  refine ⟨_, workOf_eq hgn hun ?_, ?_⟩
  · intro id h
    exact (hg.map _).symm.subset (unknown_subset _ ((hu.map _).subset h))
  · have hcounts : ∀ id, (countsOf unknown).get id = (countsOf _).get id := fun id =>
      Js.Map.get_perm (hu.map _) (countsOf_nodup hun) id
    simp only [hcounts]
    exact hg.map _

/-! The rest. -/

theorem amounts_eq {rows : List (Allocation Uuid)} (hn : (rows.map (·.id)).Nodup) :
    amounts rows = rows.map fun row => (row.id, row.amount) := by
  refine Js.Map.ofEntries_eq ?_
  rw [List.map_map]
  exact hn

theorem amounts_get_perm {rows rows' : List (Allocation Uuid)} (hp : rows.Perm rows')
    (hn : (rows.map (·.id)).Nodup) (id : Uuid) : (amounts rows).get id = (amounts rows').get id := by
  rw [amounts_eq hn, amounts_eq ((hp.map (·.id)).nodup_iff.mp hn)]
  refine Js.Map.get_perm (hp.map _) ?_ id
  unfold Js.Map.keys
  rw [List.map_map]
  exact hn

theorem weightsOf_ids (basis : WorkBasis) (work : Work) :
    (weightsOf basis work).map (·.id) = work.keys := by
  unfold weightsOf Js.Map.keys
  rw [List.map_map]
  rfl

section
variable {dto : FinanceDistributionSimulationDto} {work work' : Work} {members members' : List Member}

theorem partnersOf_perm (hm : members.Perm members') :
    (partnersOf members).Perm (partnersOf members') := (hm.filter _).map _

/-- Splits that give everybody the same. -/
def SameSplit (x y : Except Err Split) : Prop :=
  (∃ e, x = .error e ∧ y = .error e) ∨
  ∃ s s', x = .ok s ∧ y = .ok s' ∧ s.pools = s'.pools ∧ s.partnerAmounts = s'.partnerAmounts ∧
    ∀ id, s.workAmounts.get id = s'.workAmounts.get id

theorem splitOf_of_perm (dto : FinanceDistributionSimulationDto) {partnerIds partnerIds' : List Uuid} (hp : partnerIds.Perm partnerIds')
    (hw : work.Perm work') (hwn : work.keys.Nodup) :
    SameSplit (splitOf dto partnerIds work) (splitOf dto partnerIds' work') := by
  have hnil : partnerIds = [] ↔ partnerIds' = [] := by
    constructor
    · rintro rfl
      exact List.nil_perm.mp hp
    · rintro rfl
      exact List.perm_nil.mp hp
  have hweights : (weightsOf dto.workBasis work).Perm (weightsOf dto.workBasis work') := hw.map _
  have hunits := (hweights.map (·.weight)).sum_eq
  have hnoWork : noWork work = noWork work' := by
    unfold noWork
    rw [hw.length_eq]
  have hzeros : ∀ id, (amounts ((weightsOf dto.workBasis work).map fun w => ⟨w.id, 0⟩)).get id =
      (amounts ((weightsOf dto.workBasis work').map fun w => ⟨w.id, 0⟩)).get id := by
    refine amounts_get_perm (hweights.map _) ?_
    rw [List.map_map]
    exact (weightsOf_ids dto.workBasis work) ▸ hwn
  unfold splitOf
  simp only [hnil, hunits, hnoWork, allocateEqual_perm _ hp, allocateByWeight_perm _ hweights]
  cases splitPools dto.requestedAmountMinor dto.partnerShareBps with
  | error e => exact .inl ⟨e, rfl, rfl⟩
  | ok pools =>
    simp only [ok_bind]
    cases reject (0 < dto.partnerShareBps ∧ partnerIds' = []) noPartners with
    | error e => exact .inl ⟨e, rfl, rfl⟩
    | ok _ =>
      simp only [ok_bind]
      cases reject (0 < dto.workShareBps ∧ ((weightsOf dto.workBasis work').map (·.weight)).sum = 0)
          (noWork work') with
      | error e => exact .inl ⟨e, rfl, rfl⟩
      | ok _ =>
        simp only [ok_bind]
        cases allocateEqual pools.partnerPoolMinor partnerIds' with
        | error e => exact .inl ⟨e, rfl, rfl⟩
        | ok partnerRows =>
          by_cases hzero : ((weightsOf dto.workBasis work').map (·.weight)).sum = 0
          · simp only [ok_bind, hzero, if_true]
            exact .inr ⟨_, _, rfl, rfl, rfl, rfl, hzeros⟩
          · simp only [ok_bind, hzero, if_false]
            cases allocateByWeight pools.workPoolMinor (weightsOf dto.workBasis work') with
            | error e => exact .inl ⟨e, rfl, rfl⟩
            | ok workRows => exact .inr ⟨_, _, rfl, rfl, rfl, rfl, fun _ => rfl⟩

theorem simulatedMembers_of_perm (hw : work.Perm work') (hm : members.Perm members')
    (hmn : (members.map (·.id)).Nodup) :
    simulatedMembers (partnersOf members) work members =
      simulatedMembers (partnersOf members') work' members' := by
  have hhas : ∀ id, work.has id = work'.has id := fun id => hw.any_eq
  unfold simulatedMembers
  simp only [(partnersOf_perm hm).mem_iff, hhas]
  exact sortById_eq_of_perm (hm.filter _) (List.Sublist.nodup (List.filter_sublist.map _) hmn)

theorem simulatedRows_of_perm {basis : WorkBasis} {s s' : Split} (hw : work.Perm work')
    (hwn : work.keys.Nodup) (hm : members.Perm members') (hmn : (members.map (·.id)).Nodup)
    (hp : s.partnerAmounts = s'.partnerAmounts)
    (hs : ∀ id, s.workAmounts.get id = s'.workAmounts.get id) :
    simulatedRows basis work members s = simulatedRows basis work' members' s' := by
  unfold simulatedRows
  rw [simulatedMembers_of_perm hw hm hmn]
  refine List.map_congr_left ?_
  intro m _
  unfold simulatedMember
  simp only [Js.Map.get_perm hw hwn, hs, hp, (partnersOf_perm hm).mem_iff]

theorem contentOf_of_perm {base : Overview} {pools : Pools} {rows : List SimulatedMember}
    (hw : work.Perm work') :
    contentOf dto base work pools rows = contentOf dto base work' pools rows := by
  have hunknown : unknownShifts work = unknownShifts work' :=
    ((hw.map Prod.snd).map WorkAggregate.unknownDurationCount).sum_eq
  unfold contentOf simulationWarnings
  rw [hunknown]

/-- The order of the work and of the members does not matter. -/
theorem simulationOf_of_perm (host : Host) (dto : FinanceDistributionSimulationDto)
    (base : Overview) (hw : work.Perm work') (hwn : work.keys.Nodup) (hm : members.Perm members')
    (hmn : (members.map (·.id)).Nodup) :
    simulationOf host dto base work members = simulationOf host dto base work' members' := by
  unfold simulationOf
  rcases splitOf_of_perm dto (partnersOf_perm hm) hw hwn with
    ⟨e, hx, hy⟩ | ⟨s, s', hx, hy, hpools, hpartner, hget⟩
  · rw [hx, hy]
    rfl
  · rw [hx, hy]
    change contentOf dto base work s.pools _ >>= _ = contentOf dto base work' s'.pools _ >>= _
    rw [hpools, simulatedRows_of_perm hw hwn hm hmn hpartner hget, contentOf_of_perm hw]

end

theorem eligibleMembers_nodup (d : Db) (contextId : String) (ids : List Uuid) :
    ((d.eligibleMembers contextId ids).map (·.id)).Nodup :=
  List.Sublist.nodup (List.filter_sublist.map _) d.members.nodup

/-- A simulation ends as the snapshot says, in whatever order the rows come. -/
theorem simulateInTx_ends {host : Host} {d : Db} {contextId : String}
    {dto : FinanceDistributionSimulationDto} {x : Except Err Simulation}
    (h : (simulateInTx host contextId dto).Ends d.MayAnswer x) :
    x = simulationAt host d contextId dto := by
  unfold simulateInTx at h
  unfold simulationAt
  rw [Tx.ends_bind] at h
  rcases h with ⟨e, he, rfl⟩ | ⟨base, hbase, h⟩
  · rw [← compute_ends he]
    rfl
  rw [← compute_ends hbase]
  rw [Tx.ends_bind] at h
  rcases h with ⟨e, he, rfl⟩ | ⟨_, hreq, h⟩
  · rcases Tx.ends_require.mp he with ⟨-, he⟩ | ⟨hlt, he⟩
    · cases he
    · cases he
      rw [ok_bind, reject, if_pos (not_le.mp hlt)]
      rfl
  have hle : ¬ base.result.potentiallyAvailableMinor < dto.requestedAmountMinor := by
    rcases Tx.ends_require.mp hreq with ⟨hle, -⟩ | ⟨-, he⟩
    · exact not_lt.mpr hle
    · cases he
  obtain ⟨grouped, _, _, hx, hgrouped, h⟩ := ends_read h
  cases hx
  obtain ⟨unknown, _, _, hx, hunknown, h⟩ := ends_read h
  cases hx
  obtain ⟨work, hwork, hperm⟩ := workOf_of_perm hgrouped hunknown
  rw [hwork] at h
  obtain ⟨members, _, _, hx, hmembers, h⟩ := ends_read h
  cases hx
  rw [Tx.ends_ofExcept] at h
  have hkeys : d.eligibleMembers contextId work.keys =
      d.eligibleMembers contextId (workMap d contextId dto.period).keys := by
    have hmem : ∀ id, id ∈ work.keys ↔ id ∈ (workMap d contextId dto.period).keys :=
      fun _ => (hperm.map _).mem_iff
    refine List.filter_congr fun m _ => decide_eq_decide.mpr ?_
    rw [hmem]
  have hnodup : work.keys.Nodup := (hperm.map Prod.fst).nodup_iff.mpr (workMap_nodup _ _ _)
  have hmn : (members.map (·.id)).Nodup :=
    (hmembers.map _).nodup_iff.mpr (eligibleMembers_nodup _ _ _)
  rw [h, simulationOf_of_perm host dto base hperm hnodup (hkeys ▸ hmembers) hmn]
  rw [ok_bind, reject, if_neg hle, ok_bind, workAt_eq]
  rfl

/-- The order of the tables is one of the orders. -/
theorem simulateInTx_ends_of_eval {host : Host} {d : Db} {contextId : String}
    {dto : FinanceDistributionSimulationDto} {s : Simulation}
    (h : (simulateInTx host contextId dto).eval d [] = .ok (s, [])) :
    (simulateInTx host contextId dto).Ends d.MayAnswer (.ok s) :=
  Tx.ends_of_eval (fun q r hx => ⟨r, r, [], rfl, hx, sameRows_refl q r⟩) h

end Bazar.Finance
