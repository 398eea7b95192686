import BazarApi.Finance.Orders

/- A simulation balances. Each of the two pools is handed out whole, rounded on its own; the
   rows bring the parts together, one for each active socio and each member with shifts in
   the period, and every such member is there because a shift refers to a member of its
   context. So the totals are the requested amount and the work of the rows is the work of
   the overview. -/
namespace Bazar.Finance

open Txn Team Apportion

/-! The shifts by member, added up. -/

/-- Grouping by distinct keys loses nothing. -/
theorem sum_groups {α K : Type} [DecidableEq K] (key : α → K) (f : α → Int) {ks : List K}
    (hn : ks.Nodup) {l : List α} (hsub : l.map key ⊆ ks) :
    (ks.map fun k => ((l.filter fun a => key a = k).map f).sum).sum = (l.map f).sum := by
  induction l with
  | nil => simp
  | cons a l ih =>
    rw [List.map_cons, List.cons_subset] at hsub
    have hsplit : ∀ k, (((a :: l).filter fun a => key a = k).map f).sum =
        (if k = key a then f a else 0) + ((l.filter fun a => key a = k).map f).sum := by
      intro k
      rw [List.filter_cons]
      by_cases h : key a = k
      · rw [if_pos (by simpa using h), if_pos h.symm, List.map_cons, List.sum_cons]
      · rw [if_neg (by simpa using h), if_neg fun h' => h h'.symm, zero_add]
    simp only [hsplit]
    rw [List.sum_map_add, ih hsub.2, List.map_cons, List.sum_cons]
    refine congrArg (· + _) ?_
    rw [List.sum_map_ite_eq, hn.count, if_pos hsub.1]
    simp

theorem sumOf_getD (xs : List Int) : (sumOf xs).getD 0 = xs.sum := by
  unfold sumOf
  split
  · rename_i hnil
    rw [hnil]
    rfl
  · rfl

/-- An unknown duration counts as none. -/
theorem sum_minutes (shifts : List WorkShift) :
    (shifts.filterMap (·.minutes)).sum = (shifts.map (·.minutes.getD 0)).sum := by
  induction shifts with
  | nil => rfl
  | cons s shifts ih =>
    cases hm : s.minutes with
    | none =>
      rw [List.filterMap_cons_none hm, ih, List.map_cons, List.sum_cons, hm]
      exact (zero_add _).symm
    | some n =>
      rw [List.filterMap_cons_some hm, List.sum_cons, ih, List.map_cons, List.sum_cons, hm]
      rfl

section
variable {d : Db} {contextId : String} {period : Period}

theorem mem_workMap {id : Uuid} {a : WorkAggregate}
    (h : (id, a) ∈ workMap d contextId period) :
    ∃ own : List WorkShift, own = (d.activeShifts contextId period).filter (·.memberId = id) ∧
      a.shiftCount = own.length ∧ a.knownMinutes = (own.map (·.minutes.getD 0)).sum := by
  obtain ⟨row, hrow, he⟩ := List.mem_map.mp h
  obtain ⟨k, hk, rfl⟩ := List.mem_map.mp hrow
  cases he
  exact ⟨_, rfl, rfl, (sumOf_getD _).trans (sum_minutes _)⟩

theorem workMap_keys :
    (workMap d contextId period).keys = ((d.activeShifts contextId period).map (·.memberId)).dedup := by
  unfold workMap Js.Map.keys
  rw [List.map_map]
  exact groupByMember_ids _

/-- What the map says of a member is the work of the member's own shifts. -/
theorem workMap_own (id : Uuid) :
    let shifts := (d.activeShifts contextId period).filter (·.memberId = id)
    (((workMap d contextId period).get id).map (·.shiftCount)).getD 0 = shifts.length ∧
      (((workMap d contextId period).get id).map (·.knownMinutes)).getD 0 =
        (shifts.map (·.minutes.getD 0)).sum := by
  intro shifts
  cases hget : (workMap d contextId period).get id with
  | some a =>
    obtain ⟨own, rfl, hcount, hminutes⟩ := mem_workMap (Js.Map.mem_of_get hget)
    exact ⟨hcount, hminutes⟩
  | none =>
    have hnone : shifts = [] := by
      refine List.filter_eq_nil_iff.mpr ?_
      intro x hx heq
      refine Js.Map.get_eq_none.mp hget ?_
      rw [workMap_keys, List.mem_dedup]
      exact List.mem_map.mpr ⟨x, hx, of_decide_eq_true heq⟩
    rw [hnone]
    exact ⟨rfl, rfl⟩

/-- A sum over the map of what its own shifts give. -/
theorem sum_workMap {f : WorkAggregate → Int} {g : WorkShift → Int}
    (h : ∀ id a, (id, a) ∈ workMap d contextId period →
      f a = (((d.activeShifts contextId period).filter (·.memberId = id)).map g).sum) :
    ((workMap d contextId period).values.map f).sum =
      ((d.activeShifts contextId period).map g).sum := by
  have hmap : (workMap d contextId period).values.map f =
      (workMap d contextId period).keys.map fun id =>
        (((d.activeShifts contextId period).filter (·.memberId = id)).map g).sum := by
    unfold Js.Map.values Js.Map.keys
    rw [List.map_map, List.map_map]
    exact List.map_congr_left fun e he => h e.1 e.2 he
  rw [hmap, workMap_keys]
  exact sum_groups _ g (List.nodup_dedup _) (fun id hid => List.mem_dedup.mpr hid)

theorem sum_shiftCount : ((workMap d contextId period).values.map (·.shiftCount)).sum =
    (d.activeShifts contextId period).length := by
  refine (sum_workMap (g := fun _ => 1) ?_).trans (by simp)
  intro id a h
  obtain ⟨own, rfl, hcount, -⟩ := mem_workMap h
  rw [hcount]
  simp

theorem sum_knownMinutes : ((workMap d contextId period).values.map (·.knownMinutes)).sum =
    ((d.activeShifts contextId period).map (·.minutes.getD 0)).sum := by
  refine sum_workMap ?_
  intro id a h
  obtain ⟨own, rfl, -, hminutes⟩ := mem_workMap h
  exact hminutes

/-- Nothing to weigh: no shifts, or none of a known duration. -/
theorem no_units {basis : WorkBasis} :
    ((workMap d contextId period).values.map (unitsOf basis)).sum = 0 →
    match basis with
    | .workShifts => d.activeShifts contextId period = []
    | .knownMinutes => ∀ x ∈ d.activeShifts contextId period, x.minutes = none := by
  intro h
  cases basis with
  | workShifts =>
    have hcount : ((workMap d contextId period).values.map (·.shiftCount)).sum = _ :=
      sum_shiftCount
    exact List.length_eq_zero_iff.mp (by exact_mod_cast hcount.symm.trans h)
  | knownMinutes =>
    have hminutes : ((workMap d contextId period).values.map (·.knownMinutes)).sum = _ :=
      sum_knownMinutes
    have hsum : ((d.activeShifts contextId period).map (·.minutes.getD 0)).sum = 0 :=
      hminutes.symm.trans h
    -- No term is negative, so all are zero, and a known duration is not.
    have hnonneg : ∀ n ∈ (d.activeShifts contextId period).map (·.minutes.getD 0), 0 ≤ n := by
      intro n hn
      obtain ⟨x, -, rfl⟩ := List.mem_map.mp hn
      cases hm : x.minutes with
      | none => exact le_refl 0
      | some n => exact (x.minutes_pos n hm).le
    intro x hx
    have hzero := List.all_zero_of_le_zero_le_of_sum_eq_zero hnonneg hsum
      (List.mem_map_of_mem hx)
    cases hm : x.minutes with
    | none => rfl
    | some n =>
      rw [hm] at hzero
      exact absurd hzero (x.minutes_pos n hm).ne'

theorem units_nonneg {basis : WorkBasis} {id : Uuid} {a : WorkAggregate}
    (h : (id, a) ∈ workMap d contextId period) : 0 ≤ unitsOf basis a := by
  obtain ⟨own, -, hcount, hminutes⟩ := mem_workMap h
  cases basis with
  | workShifts =>
    change 0 ≤ a.shiftCount
    omega
  | knownMinutes =>
    change 0 ≤ a.knownMinutes
    rw [hminutes]
    refine List.sum_nonneg ?_
    intro n hn
    obtain ⟨s, -, rfl⟩ := List.mem_map.mp hn
    cases hm : s.minutes with
    | none => exact le_refl 0
    | some n => exact (s.minutes_pos n hm).le

end

/-! The two pools. -/

/-- A pool handed out to some ids. -/
structure HandedOut (pool : Int) (ids : List Uuid) (amounts : Js.Map Uuid Int) : Prop where
  ids_perm : amounts.keys.Perm ids
  ids_nodup : amounts.keys.Nodup
  total : amounts.values.sum = pool

theorem handedOut_amounts {pool : Int} (ids : List Uuid) (rows : List (Allocation Uuid))
    (hp : (rows.map (·.id)).Perm ids) (hn : ids.Nodup) (ht : (rows.map (·.amount)).sum = pool) :
    HandedOut pool ids (amounts rows) ∧
      ∀ id a, (amounts rows).get id = some a → ⟨id, a⟩ ∈ rows := by
  have hrn := hp.nodup_iff.mpr hn
  have hkeys : (amounts rows).keys = rows.map (·.id) := by
    rw [amounts_eq hrn]
    unfold Js.Map.keys
    rw [List.map_map]
    rfl
  refine ⟨⟨hkeys ▸ hp, hkeys ▸ hrn, ?_⟩, ?_⟩
  · rw [amounts_eq hrn, ← ht]
    unfold Js.Map.values
    rw [List.map_map]
    rfl
  · intro id a h
    have hm := Js.Map.mem_of_get h
    rw [amounts_eq hrn] at hm
    obtain ⟨row, hrow, he⟩ := List.mem_map.mp hm
    cases he
    exact hrow

/-- What a split is, when the request is not refused. -/
structure SplitSpec (dto : FinanceDistributionSimulationDto) (partnerIds : List Uuid) (work : Work)
    (split : Split) : Prop where
  partnerPool : split.pools.partnerPoolMinor = dto.requestedAmountMinor * dto.partnerShareBps / 10000
  workPool : split.pools.workPoolMinor = dto.requestedAmountMinor - split.pools.partnerPoolMinor
  partners : HandedOut split.pools.partnerPoolMinor partnerIds split.partnerAmounts
  workers : HandedOut split.pools.workPoolMinor work.keys split.workAmounts
  even : ∀ id a id' a', split.partnerAmounts.get id = some a → split.partnerAmounts.get id' = some a' →
    a ≤ a' + 1
  share : ∀ id agg a, (id, agg) ∈ work → split.workAmounts.get id = some a →
    let total := (work.values.map (unitsOf dto.workBasis)).sum
    split.pools.workPoolMinor * unitsOf dto.workBasis agg - total ≤ a * total ∧
      a * total ≤ split.pools.workPoolMinor * unitsOf dto.workBasis agg + total ∧
      (unitsOf dto.workBasis agg = 0 → a = 0)

theorem splitPools_eq (dto : FinanceDistributionSimulationDto) :
    splitPools dto.requestedAmountMinor dto.partnerShareBps =
      .ok ⟨dto.requestedAmountMinor * dto.partnerShareBps / 10000,
        dto.requestedAmountMinor - dto.requestedAmountMinor * dto.partnerShareBps / 10000⟩ := by
  have hr := dto.requested_range.1
  have hp := dto.partner_range
  unfold splitPools bpsTotal
  rw [if_neg (by omega), if_neg (by omega)]

theorem pools_nonneg (dto : FinanceDistributionSimulationDto) :
    0 ≤ dto.requestedAmountMinor * dto.partnerShareBps / 10000 ∧
      dto.requestedAmountMinor * dto.partnerShareBps / 10000 ≤ dto.requestedAmountMinor := by
  have hr := dto.requested_range.1
  obtain ⟨hp, hp'⟩ := dto.partner_range
  constructor
  · exact Int.ediv_nonneg (mul_nonneg (by omega) hp) (by decide)
  · refine Int.ediv_le_of_le_mul (by decide) ?_
    exact mul_le_mul_of_nonneg_left hp' (by omega)

theorem weightsOf_sum (basis : WorkBasis) (work : Work) :
    ((weightsOf basis work).map (·.weight)).sum = (work.values.map (unitsOf basis)).sum := by
  unfold weightsOf Js.Map.values
  rw [List.map_map, List.map_map]
  rfl

/-- A split is refused for want of partners or of work, and for nothing else. -/
theorem splitOf_spec (dto : FinanceDistributionSimulationDto) {partnerIds : List Uuid} {work : Work}
    (hp : partnerIds.Nodup) (hw : work.keys.Nodup)
    (hunits : ∀ id a, (id, a) ∈ work → 0 ≤ unitsOf dto.workBasis a) :
    (0 < dto.partnerShareBps ∧ partnerIds = [] ∧ splitOf dto partnerIds work = .error noPartners) ∨
    (0 < dto.workShareBps ∧ (work.values.map (unitsOf dto.workBasis)).sum = 0 ∧
      splitOf dto partnerIds work = .error (noWork work)) ∨
    ∃ split, splitOf dto partnerIds work = .ok split ∧ SplitSpec dto partnerIds work split := by
  obtain ⟨hpool, hle⟩ := pools_nonneg dto
  unfold splitOf
  rw [splitPools_eq, ok_bind]
  by_cases hpartner : 0 < dto.partnerShareBps ∧ partnerIds = []
  · refine .inl ⟨hpartner.1, hpartner.2, ?_⟩
    rw [reject, if_pos hpartner]
    rfl
  rw [reject, if_neg hpartner, ok_bind]
  simp only [weightsOf_sum]
  by_cases hwork : 0 < dto.workShareBps ∧ (work.values.map (unitsOf dto.workBasis)).sum = 0
  · refine .inr (.inl ⟨hwork.1, hwork.2, ?_⟩)
    rw [reject, if_pos hwork]
    rfl
  rw [reject, if_neg hwork, ok_bind]
  refine .inr (.inr ?_)
  have hbps := dto.shares_total
  have hpr := dto.partner_range
  have hwr := dto.work_range
  have hnone : partnerIds ≠ [] ∨ dto.requestedAmountMinor * dto.partnerShareBps / 10000 = 0 := by
    by_cases hnil : partnerIds = []
    · have hzero : dto.partnerShareBps = 0 := by
        by_contra h
        exact hpartner ⟨by omega, hnil⟩
      exact .inr (by rw [hzero, mul_zero, Int.zero_ediv])
    · exact .inl hnil
  obtain ⟨rows, hrows, hrowIds, hrowSum, hrowEven⟩ := allocateEqual_ok hpool hp hnone
  obtain ⟨hpartners, hpartnerMem⟩ :=
    handedOut_amounts partnerIds rows (by rw [hrowIds]; exact ascending_perm _) hp hrowSum
  have heven : ∀ id a id' a', (amounts rows).get id = some a → (amounts rows).get id' = some a' →
      a ≤ a' + 1 := by
    intro id a id' a' h h'
    have h := hrowEven _ (hpartnerMem id a h)
    have h' := hrowEven _ (hpartnerMem id' a' h')
    simp only at h h'
    omega
  rw [hrows, ok_bind]
  by_cases hzero : (work.values.map (unitsOf dto.workBasis)).sum = 0
  · -- nothing to weigh: the whole amount is the partners'
    rw [if_pos hzero, ok_bind]
    have hall : dto.requestedAmountMinor * dto.partnerShareBps / 10000 = dto.requestedAmountMinor := by
      have hbps : dto.partnerShareBps = 10000 := by
        by_contra h
        exact hwork ⟨by omega, hzero⟩
      rw [hbps]
      exact Int.mul_ediv_cancel _ (by decide)
    have hnothing : (((weightsOf dto.workBasis work).map fun w =>
        (⟨w.id, 0⟩ : Allocation Uuid)).map (·.amount)).sum = 0 := by
      refine List.sum_eq_zero ?_
      intro n hn
      obtain ⟨a, ha, rfl⟩ := List.mem_map.mp hn
      obtain ⟨w, -, rfl⟩ := List.mem_map.mp ha
      rfl
    obtain ⟨hworkers, hworkMem⟩ := handedOut_amounts work.keys _
      (by rw [List.map_map]; exact (weightsOf_ids dto.workBasis work) ▸ List.Perm.refl _) hw
      hnothing
    refine ⟨_, rfl, rfl, rfl, hpartners, ?_, heven, ?_⟩
    · simp only
      rw [hall, sub_self]
      exact hworkers
    · intro id agg a _ ha
      obtain ⟨w, -, he⟩ := List.mem_map.mp (hworkMem id a ha)
      cases he
      simp only [hzero, hall]
      refine ⟨?_, ?_, fun _ => trivial⟩ <;> simp
  · rw [if_neg hzero]
    have hpos : 0 < ((weightsOf dto.workBasis work).map (·.weight)).sum := by
      rw [weightsOf_sum]
      refine lt_of_le_of_ne (List.sum_nonneg ?_) (Ne.symm hzero)
      intro n hn
      obtain ⟨a, ha, rfl⟩ := List.mem_map.mp hn
      obtain ⟨e, he, rfl⟩ := List.mem_map.mp ha
      exact hunits e.1 e.2 he
    have hweights : ∀ item ∈ weightsOf dto.workBasis work, 0 ≤ item.weight := by
      intro item hi
      obtain ⟨e, he, rfl⟩ := List.mem_map.mp hi
      exact hunits e.1 e.2 he
    have hwn : ((weightsOf dto.workBasis work).map (·.id)).Nodup := by
      rw [weightsOf_ids]
      exact hw
    have hpool' : 0 ≤ dto.requestedAmountMinor -
        dto.requestedAmountMinor * dto.partnerShareBps / 10000 := by omega
    rw [allocateByWeight_eq hpool' hwn hweights hpos, ok_bind]
    have hperm := sortById_perm Allocation.id (shares (dto.requestedAmountMinor -
        dto.requestedAmountMinor * dto.partnerShareBps / 10000) (weightsOf dto.workBasis work))
    obtain ⟨hworkers, hworkMem⟩ := handedOut_amounts work.keys _
      (by
        refine (hperm.map _).trans ?_
        unfold shares
        rw [List.map_map]
        exact (floors_id _ _).trans (weightsOf_ids dto.workBasis work) ▸ List.Perm.refl _) hw
      ((hperm.map _).sum_eq.trans (shares_sum hwn hweights hpos))
    refine ⟨_, rfl, rfl, rfl, hpartners, hworkers, heven, ?_⟩
    intro id agg a hagg ha
    obtain ⟨item, hi, hid, hlo, hhi, h0⟩ := mem_shares hwn (hperm.subset (hworkMem id a ha))
    obtain ⟨e, he, rfl⟩ := List.mem_map.mp hi
    have hsame : e.2 = agg := by
      have h := Js.Map.get_of_mem hw he
      rw [← show id = e.1 from hid, Js.Map.get_of_mem hw hagg] at h
      exact (Option.some.inj h).symm
    have hquota := total_mul_quota (dto.requestedAmountMinor -
      dto.requestedAmountMinor * dto.partnerShareBps / 10000)
      ((weightsOf dto.workBasis work).map (·.weight)).sum (unitsOf dto.workBasis e.2)
    have hfr := fraction_nonneg (dto.requestedAmountMinor -
      dto.requestedAmountMinor * dto.partnerShareBps / 10000) (unitsOf dto.workBasis e.2) hpos
    have hfr' := fraction_lt (dto.requestedAmountMinor -
      dto.requestedAmountMinor * dto.partnerShareBps / 10000) (unitsOf dto.workBasis e.2) hpos
    rw [hsame] at hquota hfr hfr' hlo hhi h0
    rw [weightsOf_sum] at hquota hfr hfr' hlo hhi hpos
    simp only at hlo hhi h0 ⊢
    refine ⟨?_, ?_, h0⟩
    · nlinarith
    · nlinarith

/-! The rows. -/

/-- A shift refers to a member of its context: the foreign key of the table. -/
def Db.ShiftMembers (d : Db) : Prop :=
  ∀ s ∈ d.workShifts.rows, ∃ m, d.members.find? s.memberId = some m ∧ m.contextId = s.contextId

/-- What a simulation of a snapshot says. -/
structure Balanced (d : Db) (contextId : String) (dto : FinanceDistributionSimulationDto)
    (base : Overview) (s : Simulation) : Prop where
  /-- The totals are the requested amount, and each pool is handed out whole. -/
  total : (s.members.map (·.totalMinor)).sum = dto.requestedAmountMinor
  parts : ∀ m ∈ s.members, m.totalMinor = m.partnerAmountMinor + m.workAmountMinor
  partnerPool : s.pools.partnerPoolMinor = dto.requestedAmountMinor * dto.partnerShareBps / 10000
  workPool : s.pools.workPoolMinor = dto.requestedAmountMinor - s.pools.partnerPoolMinor
  partnerTotal : (s.members.map (·.partnerAmountMinor)).sum = s.pools.partnerPoolMinor
  workTotal : (s.members.map (·.workAmountMinor)).sum = s.pools.workPoolMinor
  /-- One row for a member of the business, and one for whoever worked. -/
  nodup : (s.members.map (·.memberId)).Nodup
  people : ∀ m ∈ s.members, ∃ row ∈ d.members.rows, row.id = m.memberId ∧
    row.contextId = contextId ∧ row.name = m.name ∧ row.role = m.role ∧ row.active = m.isActive
  workers : ∀ x ∈ d.activeShifts contextId dto.period, ∃ m ∈ s.members, m.memberId = x.memberId
  /-- The work of a row is that of the member's own shifts. -/
  own : ∀ m ∈ s.members,
    let shifts := (d.activeShifts contextId dto.period).filter (·.memberId = m.memberId)
    m.shiftCount = shifts.length ∧ m.knownMinutes = (shifts.map (·.minutes.getD 0)).sum
  /-- The partners' part goes to the active socios, all of them and nobody else. -/
  partners : ∀ m ∈ s.members, m.partnerAmountMinor ≠ 0 → m.partnerEligible = true
  eligible : ∀ id, (∃ m ∈ s.members, m.memberId = id ∧ m.partnerEligible = true) ↔
    ∃ row ∈ d.members.rows, row.id = id ∧ row.contextId = contextId ∧ row.role = .socio ∧
      row.active = true
  even : ∀ m ∈ s.members, ∀ m' ∈ s.members, m.partnerEligible = true → m'.partnerEligible = true →
    m.partnerAmountMinor ≤ m'.partnerAmountMinor + 1
  /-- Each work part is within one unit of `pool * units / all units`. -/
  share : ∀ m ∈ s.members,
    let total := (s.members.map (·.workUnits)).sum
    s.pools.workPoolMinor * m.workUnits - total ≤ m.workAmountMinor * total ∧
      m.workAmountMinor * total ≤ s.pools.workPoolMinor * m.workUnits + total
  idle : ∀ m ∈ s.members, m.workUnits = 0 → m.workAmountMinor = 0
  units : ∀ m ∈ s.members, m.workUnits = match dto.workBasis with
    | .workShifts => m.shiftCount
    | .knownMinutes => m.knownMinutes
  /-- The work is the work of the overview. -/
  shiftCount : (s.members.map (·.shiftCount)).sum = base.workShifts.shiftCount
  knownMinutes : (s.members.map (·.knownMinutes)).sum = base.workShifts.knownMinutes

/-- Every member with shifts in the period is read. -/
theorem workers_read {d : Db} (hfk : d.ShiftMembers) (contextId : String) (period : Period) :
    (workMap d contextId period).keys ⊆
      (d.eligibleMembers contextId (workMap d contextId period).keys).map (·.id) := by
  intro id h
  have hid := h
  rw [workMap_keys, List.mem_dedup] at hid
  obtain ⟨s, hs, rfl⟩ := List.mem_map.mp hid
  obtain ⟨hs, hactive⟩ := List.mem_filter.mp hs
  obtain ⟨m, hm, hctx⟩ := hfk s hs
  have hmid : m.id = s.memberId := Table.find?_key hm
  refine List.mem_map.mpr ⟨m, List.mem_filter.mpr ⟨Table.mem_of_find? hm, ?_⟩, hmid⟩
  refine decide_eq_true ⟨hctx.trans (of_decide_eq_true hactive).1, .inr ?_⟩
  rw [hmid]
  exact h

theorem mem_partnersOf {d : Db} {contextId : String} (ids : List Uuid) {id : Uuid} :
    id ∈ partnersOf (d.eligibleMembers contextId ids) ↔
      ∃ row ∈ d.members.rows, row.id = id ∧ row.contextId = contextId ∧ row.role = .socio ∧
        row.active = true := by
  unfold partnersOf
  rw [List.mem_map]
  constructor
  · rintro ⟨m, hm, hid⟩
    obtain ⟨hm, hp⟩ := List.mem_filter.mp hm
    obtain ⟨hm, hc⟩ := List.mem_filter.mp hm
    obtain ⟨hrole, hactive⟩ := of_decide_eq_true hp
    exact ⟨m, hm, hid, (of_decide_eq_true hc).1, hrole, hactive⟩
  · rintro ⟨m, hm, hid, hctx, hrole, hactive⟩
    refine ⟨m, List.mem_filter.mpr ⟨List.mem_filter.mpr ⟨hm, ?_⟩, ?_⟩, hid⟩
    · exact decide_eq_true ⟨hctx, .inl ⟨hrole, hactive⟩⟩
    · exact decide_eq_true ⟨hrole, hactive⟩

theorem partnersOf_nodup (d : Db) (contextId : String) (ids : List Uuid) :
    (partnersOf (d.eligibleMembers contextId ids)).Nodup :=
  List.Sublist.nodup (List.filter_sublist.map _) (eligibleMembers_nodup d contextId ids)

/-- Whoever was read is shown. -/
theorem simulatedMembers_ids (d : Db) (contextId : String) (work : Work) :
    (simulatedMembers (partnersOf (d.eligibleMembers contextId work.keys)) work
      (d.eligibleMembers contextId work.keys)).Perm (d.eligibleMembers contextId work.keys) := by
  refine (sortById_perm _ _).trans ?_
  have hall : (d.eligibleMembers contextId work.keys).filter (fun m =>
      m.id ∈ partnersOf (d.eligibleMembers contextId work.keys) ∨ work.has m.id) =
      d.eligibleMembers contextId work.keys := by
    rw [List.filter_eq_self]
    intro m hm
    obtain ⟨hrow, hc⟩ := List.mem_filter.mp hm
    obtain ⟨hctx, hor⟩ := of_decide_eq_true hc
    refine decide_eq_true ?_
    rcases hor with ⟨hrole, hactive⟩ | hid
    · exact .inl ((mem_partnersOf _).mpr ⟨m, hrow, rfl, hctx, hrole, hactive⟩)
    · exact .inr (Js.Map.has_iff.mpr hid)
  rw [hall]

theorem overviewOf_workShifts {period : Period} {books : Books} {base : Overview}
    (h : overviewOf period books = .ok base) :
    base.workShifts.shiftCount = books.shifts.length ∧
      base.workShifts.knownMinutes = (books.shifts.map (·.getD 0)).sum := by
  unfold overviewOf at h
  obtain ⟨t, -, h⟩ := ok_of_bind h
  obtain ⟨⟨operating, inventory⟩, -, h⟩ := ok_of_bind h
  obtain ⟨_, -, h⟩ := ok_of_bind h
  obtain ⟨_, -, h⟩ := ok_of_bind h
  obtain ⟨_, -, h⟩ := ok_of_bind h
  obtain ⟨_, -, h⟩ := ok_of_bind h
  obtain ⟨_, -, h⟩ := ok_of_bind h
  obtain ⟨_, -, h⟩ := ok_of_bind h
  obtain ⟨_, -, h⟩ := ok_of_bind h
  obtain ⟨_, -, h⟩ := ok_of_bind h
  obtain ⟨minutes, hminutes, h⟩ := ok_of_bind h
  obtain ⟨_, -, h⟩ := ok_of_bind h
  obtain ⟨_, -, h⟩ := ok_of_bind h
  obtain ⟨_, -, h⟩ := ok_of_bind h
  cases h
  refine ⟨rfl, ?_⟩
  unfold safeNumber at hminutes
  split at hminutes
  · cases hminutes
  · cases hminutes
    rfl

theorem safeNumber_error {n : Int} {e : Err} (h : safeNumber n = .error e) : e.status = 422 := by
  unfold safeNumber at h
  split at h
  · cases h
    rfl
  · cases h

/-- The overview fails with an error of the client only. -/
theorem overviewOf_error {period : Period} {books : Books} {e : Err}
    (h : overviewOf period books = .error e) : e.status = 422 := by
  unfold overviewOf at h
  rcases error_of_bind h with h | ⟨t, h⟩
  · rw [saleTotals_eq] at h
    split at h
    · cases h
      rfl
    · cases h
  rcases error_of_bind h with h | ⟨⟨operating, inventory⟩, h⟩
  · rw [expenseTotals_eq] at h
    split at h
    · cases h
      rfl
    · cases h
  iterate 12
    rcases error_of_bind h with h | ⟨_, h⟩
    · exact safeNumber_error h
  cases h

section
variable {d : Db} {contextId : String} {dto : FinanceDistributionSimulationDto}
variable {base : Overview}

/-- A sum over the rows of what depends on the id alone. -/
theorem sum_simulatedRows {basis : WorkBasis} {work : Work} {split : Split}
    {f : SimulatedMember → Int} {g : Uuid → Int}
    (h : ∀ m, f (simulatedMember basis (partnersOf (d.eligibleMembers contextId work.keys)) work
      split.partnerAmounts split.workAmounts m) = g m.id) :
    ((simulatedRows basis work (d.eligibleMembers contextId work.keys) split).map f).sum =
      (((d.eligibleMembers contextId work.keys).map (·.id)).map g).sum := by
  unfold simulatedRows
  rw [List.map_map, List.map_map]
  refine (((simulatedMembers_ids d contextId work).map _).sum_eq).trans ?_
  exact congrArg List.sum (List.map_congr_left fun m _ => h m)

theorem getD_map_id (o : Option Int) : (o.map id).getD 0 = o.getD 0 := by
  cases o <;> rfl

theorem sum_get_id {amounts : Js.Map Uuid Int} {ids : List Uuid} (hn : amounts.keys.Nodup)
    (hi : ids.Nodup) (hsub : amounts.keys ⊆ ids) :
    (ids.map fun k => (amounts.get k).getD 0).sum = amounts.values.sum := by
  have h := Js.Map.sum_get (f := id) hn hi hsub
  rw [List.map_id] at h
  rw [← h]
  exact congrArg List.sum (List.map_congr_left fun k _ => (getD_map_id _).symm)

/-- The rows of a split that keeps its specification balance. -/
theorem balanced_of_split (host : Host) (hfk : d.ShiftMembers)
    (hbase : overviewAt d contextId dto.period = .ok base) {split : Split}
    (hs : SplitSpec dto
      (partnersOf (d.eligibleMembers contextId (workMap d contextId dto.period).keys))
      (workMap d contextId dto.period) split) :
    ∃ s, (do
        let content ← contentOf dto base (workMap d contextId dto.period) split.pools
          (simulatedRows dto.workBasis (workMap d contextId dto.period)
            (d.eligibleMembers contextId (workMap d contextId dto.period).keys) split)
        return { content with simulationFingerprint := simulationFingerprint host content } :
          Except Err Simulation) = .ok s ∧ Balanced d contextId dto base s := by
  have hread := workers_read hfk contextId dto.period
  have hwn := workMap_nodup d contextId dto.period
  have hunits : ∀ id a, (id, a) ∈ workMap d contextId dto.period → 0 ≤ unitsOf dto.workBasis a :=
    fun id a => units_nonneg
  generalize hwork : workMap d contextId dto.period = work at hs hread hwn hunits ⊢
  have hmn := eligibleMembers_nodup d contextId work.keys
  have hpartnerSub : split.partnerAmounts.keys ⊆
      (d.eligibleMembers contextId work.keys).map (·.id) := by
    intro id h
    exact (List.filter_sublist.map _).subset (hs.partners.ids_perm.subset h)
  have hworkSub : split.workAmounts.keys ⊆
      (d.eligibleMembers contextId work.keys).map (·.id) := by
    intro id h
    exact hread (hs.workers.ids_perm.subset h)
  have htotal : ((simulatedRows dto.workBasis work (d.eligibleMembers contextId work.keys)
      split).map (·.totalMinor)).sum = dto.requestedAmountMinor := by
    refine (sum_simulatedRows (g := fun id =>
      (split.partnerAmounts.get id).getD 0 + (split.workAmounts.get id).getD 0) fun _ => rfl).trans ?_
    rw [List.sum_map_add, sum_get_id hs.partners.ids_nodup hmn hpartnerSub,
      sum_get_id hs.workers.ids_nodup hmn hworkSub, hs.partners.total, hs.workers.total, hs.workPool]
    exact add_sub_cancel _ _
  have hpartnerTotal : ((simulatedRows dto.workBasis work (d.eligibleMembers contextId work.keys)
      split).map (·.partnerAmountMinor)).sum = split.pools.partnerPoolMinor :=
    (sum_simulatedRows (g := fun id => (split.partnerAmounts.get id).getD 0) fun _ => rfl).trans
      ((sum_get_id hs.partners.ids_nodup hmn hpartnerSub).trans hs.partners.total)
  have hworkTotal : ((simulatedRows dto.workBasis work (d.eligibleMembers contextId work.keys)
      split).map (·.workAmountMinor)).sum = split.pools.workPoolMinor :=
    (sum_simulatedRows (g := fun id => (split.workAmounts.get id).getD 0) fun _ => rfl).trans
      ((sum_get_id hs.workers.ids_nodup hmn hworkSub).trans hs.workers.total)
  have hids : ((simulatedRows dto.workBasis work (d.eligibleMembers contextId work.keys)
      split).map (·.memberId)).Perm ((d.eligibleMembers contextId work.keys).map (·.id)) := by
    unfold simulatedRows
    rw [List.map_map]
    exact (simulatedMembers_ids d contextId work).map _
  have hsumUnits : ((simulatedRows dto.workBasis work (d.eligibleMembers contextId work.keys)
      split).map (·.workUnits)).sum = (work.values.map (unitsOf dto.workBasis)).sum :=
    (sum_simulatedRows fun _ => rfl).trans (Js.Map.sum_get hwn hmn hread)
  have hsumCount : ((simulatedRows dto.workBasis work (d.eligibleMembers contextId work.keys)
      split).map (·.shiftCount)).sum = (work.values.map (·.shiftCount)).sum :=
    (sum_simulatedRows fun _ => rfl).trans (Js.Map.sum_get hwn hmn hread)
  have hsumMinutes : ((simulatedRows dto.workBasis work (d.eligibleMembers contextId work.keys)
      split).map (·.knownMinutes)).sum = (work.values.map (·.knownMinutes)).sum :=
    (sum_simulatedRows fun _ => rfl).trans (Js.Map.sum_get hwn hmn hread)
  obtain ⟨hcount, hminutes⟩ := overviewOf_workShifts hbase
  have hrow : ∀ m ∈ simulatedRows dto.workBasis work (d.eligibleMembers contextId work.keys) split,
      ∃ row ∈ d.eligibleMembers contextId work.keys, m = simulatedMember dto.workBasis
        (partnersOf (d.eligibleMembers contextId work.keys)) work split.partnerAmounts
        split.workAmounts row := by
    intro m hm
    obtain ⟨row, hr, rfl⟩ := List.mem_map.mp hm
    exact ⟨row, (simulatedMembers_ids d contextId work).subset hr, rfl⟩
  have hpartner : ∀ id, id ∈ partnersOf (d.eligibleMembers contextId work.keys) ↔
      ∃ a, split.partnerAmounts.get id = some a := by
    intro id
    rw [← hs.partners.ids_perm.mem_iff, ← not_iff_not, ← Js.Map.get_eq_none]
    cases split.partnerAmounts.get id <;> simp
  -- a member with shifts has an amount, and the others none
  have hshare : ∀ id, (work.get id = none ∧ split.workAmounts.get id = none) ∨
      ∃ agg a, work.get id = some agg ∧ (id, agg) ∈ work ∧ split.workAmounts.get id = some a := by
    intro id
    cases hget : work.get id with
    | none =>
      refine .inl ⟨rfl, ?_⟩
      rw [Js.Map.get_eq_none, hs.workers.ids_perm.mem_iff]
      exact Js.Map.get_eq_none.mp hget
    | some agg =>
      cases ha : split.workAmounts.get id with
      | some a => exact .inr ⟨agg, a, rfl, Js.Map.mem_of_get hget, rfl⟩
      | none =>
        rw [Js.Map.get_eq_none, hs.workers.ids_perm.mem_iff, ← Js.Map.get_eq_none, hget] at ha
        cases ha
  refine ⟨_, by rw [contentOf, reject, if_neg (not_not.mpr htotal)]; rfl, ?_⟩
  refine ⟨htotal, ?_, hs.partnerPool, hs.workPool, hpartnerTotal, hworkTotal,
    hids.nodup_iff.mpr hmn, ?_, ?_, ?_, ?_, ?_, ?_, ?_, ?_, ?_, ?_, ?_⟩
  · intro m hm
    obtain ⟨row, -, rfl⟩ := hrow m hm
    rfl
  · intro m hm
    obtain ⟨row, hr, rfl⟩ := hrow m hm
    obtain ⟨hr, hc⟩ := List.mem_filter.mp hr
    exact ⟨row, hr, rfl, (of_decide_eq_true hc).1, rfl, rfl, rfl⟩
  · intro x hx
    refine List.mem_map.mp (hids.symm.subset (hread ?_))
    rw [← hwork, workMap_keys, List.mem_dedup]
    exact List.mem_map_of_mem hx
  · intro m hm
    obtain ⟨row, -, rfl⟩ := hrow m hm
    rw [← hwork]
    exact workMap_own row.id
  · intro m hm hne
    obtain ⟨row, -, rfl⟩ := hrow m hm
    refine decide_eq_true ((hpartner row.id).mpr ?_)
    cases hget : split.partnerAmounts.get row.id with
    | some a => exact ⟨a, rfl⟩
    | none =>
      refine absurd ?_ hne
      change (split.partnerAmounts.get row.id).getD 0 = 0
      rw [hget]
      rfl
  · intro id
    rw [← mem_partnersOf work.keys]
    constructor
    · rintro ⟨m, hm, hid, he⟩
      obtain ⟨row, -, rfl⟩ := hrow m hm
      exact hid ▸ of_decide_eq_true he
    · intro h
      obtain ⟨row, hr, hid⟩ := List.mem_map.mp h
      have hr := (List.mem_filter.mp hr).1
      refine ⟨_, List.mem_map_of_mem ((simulatedMembers_ids d contextId work).symm.subset hr),
        hid, decide_eq_true ?_⟩
      rw [hid]
      exact h
  · intro m hm m' hm' he he'
    obtain ⟨row, -, rfl⟩ := hrow m hm
    obtain ⟨row', -, rfl⟩ := hrow m' hm'
    obtain ⟨a, ha⟩ := (hpartner row.id).mp (of_decide_eq_true he)
    obtain ⟨a', ha'⟩ := (hpartner row'.id).mp (of_decide_eq_true he')
    change (split.partnerAmounts.get row.id).getD 0 ≤ (split.partnerAmounts.get row'.id).getD 0 + 1
    rw [ha, ha']
    exact hs.even _ _ _ _ ha ha'
  · intro m hm
    obtain ⟨row, -, rfl⟩ := hrow m hm
    simp only [hsumUnits]
    rcases hshare row.id with ⟨hget, hzero⟩ | ⟨agg, a, hget, hmem, ha⟩
    · have hpos : 0 ≤ (work.values.map (unitsOf dto.workBasis)).sum := by
        refine List.sum_nonneg ?_
        intro n hn
        obtain ⟨agg, hagg, rfl⟩ := List.mem_map.mp hn
        obtain ⟨e, he, rfl⟩ := List.mem_map.mp hagg
        exact hunits e.1 e.2 he
      simp only [simulatedMember, hget, hzero, Option.map_none, Option.getD_none, mul_zero, zero_mul]
      omega
    · have h := hs.share row.id agg a hmem ha
      simp only [simulatedMember, hget, ha, Option.map_some, Option.getD_some]
      exact ⟨h.1, h.2.1⟩
  · intro m hm
    obtain ⟨row, -, rfl⟩ := hrow m hm
    intro hidle
    rcases hshare row.id with ⟨hget, hzero⟩ | ⟨agg, a, hget, hmem, ha⟩
    · simp only [simulatedMember, hzero, Option.getD_none]
    · simp only [simulatedMember, hget, ha, Option.map_some, Option.getD_some] at hidle ⊢
      exact (hs.share row.id agg a hmem ha).2.2 hidle
  · intro m hm
    obtain ⟨row, -, rfl⟩ := hrow m hm
    cases dto.workBasis with
    | workShifts => rfl
    | knownMinutes => rfl
  · refine hsumCount.trans ?_
    rw [hcount, ← hwork, sum_shiftCount]
    exact congrArg _ (List.length_map _).symm
  · refine hsumMinutes.trans ?_
    rw [hminutes, ← hwork, sum_knownMinutes]
    unfold booksAt
    simp only [List.map_map]
    rfl

end

/-- How a simulation of a snapshot can end. -/
inductive Outcome (d : Db) (contextId : String) (dto : FinanceDistributionSimulationDto) :
    Except Err Simulation → Prop where
  | noOverview {e : Err} (h : overviewAt d contextId dto.period = .error e) (hs : e.status = 422) :
    Outcome d contextId dto (.error e)
  | exceedsAvailable {base : Overview} (h : overviewAt d contextId dto.period = .ok base)
    (hlt : base.result.potentiallyAvailableMinor < dto.requestedAmountMinor) :
    Outcome d contextId dto (.error (exceedsAvailable base.result.potentiallyAvailableMinor))
  | noPartners (h : 0 < dto.partnerShareBps)
    (hnone : ∀ row ∈ d.members.rows, row.contextId = contextId → row.role = .socio →
      row.active = false) :
    Outcome d contextId dto (.error noPartners)
  | noWork (h : 0 < dto.workShareBps)
    (hnone : match dto.workBasis with
      | .workShifts => d.activeShifts contextId dto.period = []
      | .knownMinutes => ∀ x ∈ d.activeShifts contextId dto.period, x.minutes = none) :
    Outcome d contextId dto (.error (noWork (workMap d contextId dto.period)))
  | simulated {base : Overview} {s : Simulation}
    (h : overviewAt d contextId dto.period = .ok base)
    (hle : dto.requestedAmountMinor ≤ base.result.potentiallyAvailableMinor)
    (hs : Balanced d contextId dto base s) : Outcome d contextId dto (.ok s)

/-- A simulation is refused with an error of the client or balances, whatever the order in
which the database returns the rows. -/
theorem simulation_balances (host : Host) (d : Db) (hfk : d.ShiftMembers) (contextId : String)
    (dto : FinanceDistributionSimulationDto) (x : Except Err Simulation)
    (hx : (simulateInTx host contextId dto).Ends d.MayAnswer x) : Outcome d contextId dto x := by
  rw [simulateInTx_ends hx]
  unfold simulationAt
  cases hbase : overviewAt d contextId dto.period with
  | error e => exact .noOverview hbase (overviewOf_error hbase)
  | ok base =>
    rw [ok_bind, reject]
    by_cases hlt : base.result.potentiallyAvailableMinor < dto.requestedAmountMinor
    · rw [if_pos hlt]
      exact .exceedsAvailable hbase hlt
    rw [if_neg hlt, ok_bind, workAt_eq, ok_bind]
    unfold simulationOf
    rcases splitOf_spec dto
        (partnersOf_nodup d contextId (workMap d contextId dto.period).keys)
        (workMap_nodup d contextId dto.period) (fun id a => units_nonneg) with
      ⟨hshare, hnil, hsplit⟩ | ⟨hshare, hzero, hsplit⟩ | ⟨split, hsplit, hspec⟩
    · rw [hsplit]
      refine .noPartners hshare ?_
      intro row hrow hctx hrole
      by_contra hactive
      have hmem := (mem_partnersOf (workMap d contextId dto.period).keys).mpr
        ⟨row, hrow, rfl, hctx, hrole, Bool.eq_true_of_not_eq_false hactive⟩
      rw [hnil] at hmem
      cases hmem
    · rw [hsplit]
      exact .noWork hshare (no_units hzero)
    · rw [hsplit, ok_bind]
      obtain ⟨s, hs, hbalanced⟩ := balanced_of_split host hfk hbase hspec
      rw [hs]
      exact .simulated hbase (not_lt.mp hlt) hbalanced

/-! One snapshot. -/

namespace Demo
def host : Host :=
  { sha256Hex := fun _ => "", trim := id, jsonb := id, jsonb_same := fun v _ => .refl v }

def day (n : Nat) (h : 1 ≤ n ∧ (n : Int) ≤ 31) : CalendarDate :=
  ⟨2026, 1, n, by decide, by decide, h⟩

theorem day_one : 1 ≤ 1 ∧ ((1 : Nat) : Int) ≤ 31 := by decide
theorem day_two : 1 ≤ 2 ∧ ((2 : Nat) : Int) ≤ 31 := by decide
theorem day_three : 1 ≤ 3 ∧ ((3 : Nat) : Int) ≤ 31 := by decide

def member (id : String) (role : MemberRole) (active : Bool) : Member :=
  { id := ⟨id⟩, name := id, role, contextId := "c", active, correo := none }

def shift (id memberId : String) (minutes : Option Int) (h : ∀ m ∈ minutes, 0 < m) : WorkShift :=
  { id := ⟨id⟩, contextId := "c", memberId := ⟨memberId⟩, workDate := day 2 day_two, minutes
    reversed := false, minutes_pos := h }

/-- Two socios, and somebody inactive who worked; one sale of a peso. -/
def db : Db where
  accounts := .empty
  members := ⟨[member "b" .socio true, member "a" .socio true, member "x" .colaborador false],
    by decide⟩
  devices := .empty
  sales := ⟨[{ id := ⟨"s"⟩, contextId := "c", status := .completada
               occurredAt := businessStart (day 2 day_two), totalMinor := some 100
               items := [⟨1, some 1, 100⟩] }], by decide⟩
  expenses := .empty
  contributions := .empty
  workShifts := ⟨[shift "1" "b" (some 5) (by decide), shift "2" "x" none (by decide),
    shift "3" "x" (some 2) (by decide)], by decide⟩
  reserves := .empty
  agreements := .empty
  participants := .empty
  agreementReversals := .empty
  counters := .empty
  payments := .empty
  paymentReversals := .empty

def dto : FinanceDistributionSimulationDto where
  period := ⟨day 1 day_one, day 3 day_three, by decide⟩
  requestedAmountMinor := 98
  partnerShareBps := 5000
  workShareBps := 5000
  workBasis := .workShifts
  requested_range := by decide
  partner_range := by decide
  work_range := by decide
  shares_total := by decide

theorem shiftMembers : db.ShiftMembers := by
  intro s hs
  change s ∈ [_, _, _] at hs
  simp only [List.mem_cons, List.not_mem_nil, or_false] at hs
  rcases hs with rfl | rfl | rfl
  · exact ⟨member "b" .socio true, by decide, rfl⟩
  · exact ⟨member "x" .colaborador false, by decide, rfl⟩
  · exact ⟨member "x" .colaborador false, by decide, rfl⟩

/-- What a simulation that wrote nothing hands out. -/
def handedOut : Except Err (Simulation × List Write) → Option (List (String × Int))
  | .ok (s, []) => some (s.members.map fun m => (m.memberId.text, m.totalMinor))
  | _ => none

theorem of_handedOut {x : Except Err (Simulation × List Write)} {l : List (String × Int)}
    (h : handedOut x = some l) :
    ∃ s, x = .ok (s, []) ∧ (s.members.map fun m => (m.memberId.text, m.totalMinor)) = l := by
  unfold handedOut at h
  split at h
  · cases h
    exact ⟨_, rfl, rfl⟩
  · cases h

theorem handedOut_db : handedOut ((simulateInTx host "c" dto).eval db []) =
    some [("a", 25), ("b", 40), ("x", 33)] := by decide

end Demo

theorem simulation_balances_demo : ∃ s : Simulation,
    (s.members.map fun m => (m.memberId.text, m.totalMinor)) = [("a", 25), ("b", 40), ("x", 33)] ∧
      Outcome Demo.db "c" Demo.dto (.ok s) := by
  obtain ⟨s, hs, hl⟩ := Demo.of_handedOut Demo.handedOut_db
  exact ⟨s, hl, simulation_balances Demo.host Demo.db Demo.shiftMembers "c" Demo.dto _
    (simulateInTx_ends_of_eval hs)⟩

end Bazar.Finance
