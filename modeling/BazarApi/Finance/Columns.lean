import BazarApi.Finance.Confirmation
import BazarApi.Finance.Deadlock
import BazarApi.Finance.Periods

/- What the tables of an agreement admit, and when they admit what a creation writes. A
   simulation works on exact integers, up to the safe integers of a double; an `INTEGER`
   column holds 32 bits. Everything else about the rows holds by construction: the pools are
   parts of the requested amount, the shares of a pool are not negative and add up to it, and
   the folio has the form the table asks for.

   Correspondence (SQL ↔ Lean):
     `DistributionAgreement`, its column types and checks ↔ `DistributionAgreement.Admitted`
     `DistributionAgreementParticipant`, the same         ↔ `…Participant.Admitted`
     `"folio" ~ '^AC-[0-9]{4}-[0-9]{5,}$'`                ↔ `folioFormat`
   The checks on the id, the title and the note are those of the request's own validation
   and are left out. -/
namespace Bazar.Finance

open Txn Team

/-! The tables. -/

/-- `'^AC-[0-9]{4}-[0-9]{5,}$'`. -/
def folioFormat (folio : String) : Prop :=
  ∃ year number : List Char, folio.toList = "AC-".toList ++ year ++ '-' :: number ∧
    year.length = 4 ∧ 5 ≤ number.length ∧ (∀ c ∈ year, c.isDigit) ∧ ∀ c ∈ number, c.isDigit

/-- The `INTEGER` columns that a creation writes. -/
def DistributionAgreement.integers (a : DistributionAgreement) : List Int :=
  [a.requestedAmountMinor, a.partnerShareBps, a.workShareBps, a.potentiallyAvailableMinor,
    a.partnerPoolMinor, a.workPoolMinor, a.distributedMinor, a.undistributedMinor]

/-- The row fits its columns and satisfies the checks of its table. -/
structure DistributionAgreement.Admitted (a : DistributionAgreement) : Prop where
  integers : ∀ n ∈ a.integers, int4 n = true
  folio : folioFormat a.folio
  period : a.period.start < a.period.stop
  requested : 0 < a.requestedAmountMinor
  shares : 0 ≤ a.partnerShareBps ∧ a.partnerShareBps ≤ 10000 ∧ 0 ≤ a.workShareBps ∧
    a.workShareBps ≤ 10000
  sharesTotal : a.partnerShareBps + a.workShareBps = 10000
  currency : a.currency = "MXN"
  checks : a.checks = true

/-- The `INTEGER` columns of a participant. -/
def DistributionAgreementParticipant.integers (p : DistributionAgreementParticipant) : List Int :=
  [p.partnerAmountMinor, p.workUnits, p.shiftCount, p.knownMinutes, p.unknownDurationCount,
    p.workAmountMinor, p.totalMinor]

structure DistributionAgreementParticipant.Admitted (p : DistributionAgreementParticipant) :
    Prop where
  integers : ∀ n ∈ p.integers, int4 n = true
  checks : p.checks = true

/-- A statement that the database does not refuse for a range or a check. -/
def Accepted {α : Type} (x : Except Err α) : Prop :=
  x ≠ .error outOfRange ∧ x ≠ .error checkViolation

theorem int4_iff {n : Int} : int4 n = true ↔ -2147483648 ≤ n ∧ n ≤ maxMinorUnits := by
  unfold int4 maxMinorUnits
  rw [decide_eq_true_eq]

theorem int4_of_nonneg {n : Int} (h : 0 ≤ n) (hle : n ≤ maxMinorUnits) : int4 n = true :=
  int4_iff.mpr ⟨le_trans (by decide) h, hle⟩

theorem insertAgreement_accepted {row : DistributionAgreement} (h : row.Admitted) (v : Db) :
    Accepted (insertAgreement row v) := by
  have hint := h.integers row.potentiallyAvailableMinor (by
    simp [DistributionAgreement.integers])
  unfold insertAgreement
  rw [if_neg (by rw [hint]; decide), if_neg (by rw [h.checks]; decide)]
  constructor <;>
  · split_ifs <;> exact fun he => by cases he

theorem insertParticipants_accepted {rows : List DistributionAgreementParticipant}
    (h : ∀ p ∈ rows, p.Admitted) (v : Db) : Accepted (insertParticipants rows v) := by
  have hrange : ¬ (rows.any fun p => p.inRange = false) = true := by
    rw [Bool.not_eq_true, List.any_eq_false]
    intro p hp
    have hint := (h p hp).integers
    unfold DistributionAgreementParticipant.integers at hint
    unfold DistributionAgreementParticipant.inRange
    simp only [List.mem_cons, forall_eq_or_imp] at hint
    simp [hint]
  have hchecks : ¬ (rows.any fun p => p.checks = false) = true := by
    rw [Bool.not_eq_true, List.any_eq_false]
    intro p hp
    rw [(h p hp).checks]
    decide
  unfold insertParticipants
  rw [if_neg hrange, if_neg hchecks]
  constructor <;>
  · split_ifs <;> exact fun he => by cases he

/-! The folio. -/

theorem padText_digits (width : Nat) (n : Nat) :
    (padText width (toString n)).toList =
      List.replicate (width - (Nat.toDigits 10 n).length) '0' ++ Nat.toDigits 10 n := by
  unfold padText
  have hl : (toString n : String).toList = Nat.toDigits 10 n := Nat.toList_repr
  rw [String.toList_ofList, hl]
  congr 2
  rw [← hl]
  rfl

theorem padText_isDigit (width n : Nat) : ∀ c ∈ (padText width (toString n)).toList, c.isDigit := by
  intro c hc
  rw [padText_digits] at hc
  rcases List.mem_append.mp hc with hc | hc
  · rw [(List.mem_replicate.mp hc).2]
    decide
  · exact Nat.isDigit_of_mem_toDigits (by decide) (by decide) hc

theorem padText_length (width n : Nat) :
    (padText width (toString n)).toList.length = max width (Nat.toDigits 10 n).length := by
  rw [padText_digits, List.length_append, List.length_replicate]
  omega

/-- Years of four digits and counted numbers make folios of the form the table asks for. -/
theorem formatFolio_format {year number : Int} (hy : 0 ≤ year ∧ year ≤ 9999) (hn : 0 ≤ number) :
    folioFormat (formatFolio year number) := by
  obtain ⟨y, rfl⟩ := Int.eq_ofNat_of_zero_le hy.1
  obtain ⟨n, rfl⟩ := Int.eq_ofNat_of_zero_le hn
  have hdigits : (Nat.toDigits 10 y).length ≤ 4 :=
    (Nat.length_toDigits_le_iff (by decide) (by decide)).mpr (by omega)
  refine ⟨(padText 4 (toString y)).toList, (padText 5 (toString n)).toList, ?_, ?_, ?_,
    padText_isDigit 4 y, padText_isDigit 5 n⟩
  · unfold formatFolio
    rw [String.toList_append, String.toList_append, String.toList_append]
    simp only [List.append_assoc]
    rfl
  · rw [padText_length]
    omega
  · rw [padText_length]
    omega

/-! What a simulation hands out. -/

theorem mem_ofEntries {K V : Type} [DecidableEq K] {e : K × V} :
    ∀ (entries acc : List (K × V)),
      e ∈ entries.foldl (fun m x => Js.Map.set m x.1 x.2) acc → e ∈ acc ∨ e ∈ entries
  | [], _, h => .inl h
  | x :: entries, acc, h => by
    rcases mem_ofEntries entries _ h with h | h
    · simp only [Js.Map.set] at h
      split at h
      · obtain ⟨y, hy, he⟩ := List.mem_map.mp h
        split at he
        · exact .inr (he ▸ List.mem_cons_self)
        · exact .inl (he ▸ hy)
      · rcases List.mem_append.mp h with h | h
        · exact .inl h
        · rw [List.mem_singleton.mp h]
          exact .inr List.mem_cons_self
    · exact .inr (List.mem_cons_of_mem _ h)

/-- An amount of the map is one of the allocations. -/
theorem amounts_get_mem {rows : List (Allocation Uuid)} {id : Uuid} {a : Int}
    (h : (amounts rows).get id = some a) : ⟨id, a⟩ ∈ rows := by
  rcases mem_ofEntries _ _ (Js.Map.mem_of_get h) with h | h
  · cases h
  · obtain ⟨row, hrow, he⟩ := List.mem_map.mp h
    cases he
    exact hrow

theorem allocateEqual_nonneg {pool : Int} {ids : List Uuid} {out : List (Allocation Uuid)}
    (h : allocateEqual pool ids = .ok out) : ∀ a ∈ out, 0 ≤ a.amount := by
  unfold allocateEqual at h
  by_cases hp : pool < 0
  · rw [if_pos hp] at h
    cases h
  rw [if_neg hp] at h
  obtain ⟨_, -, h⟩ := ok_of_bind h
  split at h
  · split at h
    · cases h
      exact nofun
    · cases h
  · cases h
    intro a ha
    obtain ⟨p, -, rfl⟩ := List.mem_map.mp ha
    have hbase : 0 ≤ pool / (ids.length : Int) :=
      Int.ediv_nonneg (not_lt.mp hp) (Int.natCast_nonneg _)
    simp only
    split <;> omega

theorem allocateByWeight_nonneg {pool : Int} {items : List (Weighted Uuid)}
    {out : List (Allocation Uuid)} (h : allocateByWeight pool items = .ok out) :
    ∀ a ∈ out, 0 ≤ a.amount := by
  unfold allocateByWeight at h
  by_cases hp : pool < 0
  · rw [if_pos hp] at h
    cases h
  rw [if_neg hp] at h
  obtain ⟨_, -, h⟩ := ok_of_bind h
  by_cases hneg : (items.any fun item => item.weight < 0) = true
  · rw [if_pos hneg] at h
    cases h
  rw [if_neg hneg] at h
  have hweights : ∀ item ∈ items, 0 ≤ item.weight := by
    intro item hi
    by_contra hlt
    exact hneg (List.any_eq_true.mpr ⟨item, hi, decide_eq_true (not_le.mp hlt)⟩)
  have hsum : 0 ≤ (items.map (·.weight)).sum := by
    refine List.sum_nonneg ?_
    intro w hw
    obtain ⟨item, hi, rfl⟩ := List.mem_map.mp hw
    exact hweights item hi
  dsimp only at h
  split at h
  · split at h
    · cases h
      intro a ha
      obtain ⟨item, -, rfl⟩ := List.mem_map.mp ((sortById_perm _ _).subset ha)
      exact le_refl 0
    · cases h
  · rename_i htotal
    split at h
    · cases h
    · cases h
      intro a ha
      obtain ⟨row, hrow, rfl⟩ := List.mem_map.mp ((sortById_perm _ _).subset ha)
      obtain ⟨item, hi, rfl⟩ := List.mem_map.mp hrow
      have hquota := Apportion.quota_nonneg (not_lt.mp hp) (hweights item hi)
        (lt_of_le_of_ne hsum (Ne.symm htotal))
      simp only
      split <;> omega

/-- The pools are the parts of the requested amount, and nobody gets less than nothing. -/
theorem splitOf_nonneg {dto : FinanceDistributionSimulationDto} {partnerIds : List Uuid}
    {work : Work} {split : Split} (h : splitOf dto partnerIds work = .ok split) :
    splitPools dto.requestedAmountMinor dto.partnerShareBps = .ok split.pools ∧
      (∀ id a, split.partnerAmounts.get id = some a → 0 ≤ a) ∧
      ∀ id a, split.workAmounts.get id = some a → 0 ≤ a := by
  unfold splitOf at h
  obtain ⟨pools, hpools, h⟩ := ok_of_bind h
  obtain ⟨_, -, h⟩ := ok_of_bind h
  obtain ⟨_, -, h⟩ := ok_of_bind h
  obtain ⟨partnerRows, hpartners, h⟩ := ok_of_bind h
  have hpartner : ∀ id a, (amounts partnerRows).get id = some a → 0 ≤ a :=
    fun id a ha => allocateEqual_nonneg hpartners _ (amounts_get_mem ha)
  dsimp only at h
  split at h
  · cases h
    refine ⟨hpools, hpartner, fun id a ha => ?_⟩
    obtain ⟨w, -, he⟩ := List.mem_map.mp (amounts_get_mem ha)
    cases he
    exact le_refl 0
  · obtain ⟨workRows, hwork, h⟩ := ok_of_bind h
    cases h
    exact ⟨hpools, hpartner, fun id a ha => allocateByWeight_nonneg hwork _ (amounts_get_mem ha)⟩

/-- What a simulation that is answered is made of. -/
structure Shown (d : Db) (contextId : String) (dto : FinanceDistributionSimulationDto)
    (base : Overview) (split : Split) (s : Simulation) : Prop where
  overview : overviewAt d contextId dto.period = .ok base
  enough : dto.requestedAmountMinor ≤ base.result.potentiallyAvailableMinor
  parts : splitOf dto
    (partnersOf (d.eligibleMembers contextId (workMap d contextId dto.period).keys))
    (workMap d contextId dto.period) = .ok split
  available : s.financialBase.potentiallyAvailableMinor = base.result.potentiallyAvailableMinor
  pools : s.pools = split.pools
  members : s.members = simulatedRows dto.workBasis (workMap d contextId dto.period)
    (d.eligibleMembers contextId (workMap d contextId dto.period).keys) split
  distributed : s.totals.distributedMinor = dto.requestedAmountMinor
  undistributed : s.totals.undistributedMinor = 0
  total : (s.members.map (·.totalMinor)).sum = dto.requestedAmountMinor

theorem reject_ok {bad : Prop} [Decidable bad] {e : Err} {u : Unit} (h : reject bad e = .ok u) :
    ¬ bad := by
  unfold reject at h
  split at h
  · cases h
  · assumption

theorem simulationAt_shown {host : Host} {d : Db} {contextId : String}
    {dto : FinanceDistributionSimulationDto} {s : Simulation}
    (h : simulationAt host d contextId dto = .ok s) :
    ∃ base split, Shown d contextId dto base split s := by
  unfold simulationAt at h
  obtain ⟨base, hbase, h⟩ := ok_of_bind h
  obtain ⟨_, hreject, h⟩ := ok_of_bind h
  rw [workAt_eq, ok_bind] at h
  unfold simulationOf at h
  obtain ⟨split, hsplit, h⟩ := ok_of_bind h
  obtain ⟨content, hcontent, h⟩ := ok_of_bind h
  cases h
  unfold contentOf at hcontent
  obtain ⟨_, hsum, hcontent⟩ := ok_of_bind hcontent
  cases hcontent
  have hle := reject_ok hreject
  have hsum := not_not.mp (reject_ok hsum)
  refine ⟨base, split, hbase, not_lt.mp hle, hsplit, rfl, rfl, rfl, hsum, ?_, hsum⟩
  change dto.requestedAmountMinor - _ = 0
  rw [hsum, sub_self]

/-! The work of a member. -/

/-- The active shifts of a member in a period. -/
def Db.shiftsOf (d : Db) (contextId : String) (period : Period) (id : Uuid) : List WorkShift :=
  (d.activeShifts contextId period).filter (·.memberId = id)

/-- Their known minutes. -/
def Db.minutesOf (d : Db) (contextId : String) (period : Period) (id : Uuid) : Int :=
  ((d.shiftsOf contextId period id).map (·.minutes.getD 0)).sum

section
variable {d : Db} {contextId : String} {period : Period} {id : Uuid}

theorem minutesOf_nonneg (d : Db) (contextId : String) (period : Period) (id : Uuid) :
    0 ≤ d.minutesOf contextId period id := by
  refine List.sum_nonneg ?_
  intro n hn
  obtain ⟨s, -, rfl⟩ := List.mem_map.mp hn
  cases hm : s.minutes with
  | none => exact le_refl 0
  | some n => exact (s.minutes_pos n hm).le

/-- The shifts without a duration are some of them. -/
theorem unknown_le {shifts : List WorkShift} {c : Int}
    (h : (countsOf (groupByMember (shifts.filter fun s => s.minutes = none))).get id = some c) :
    0 ≤ c ∧ c ≤ (shifts.filter (·.memberId = id)).length := by
  obtain ⟨row, hrow, he⟩ := List.mem_map.mp (Js.Map.mem_of_get h)
  obtain ⟨k, -, rfl⟩ := List.mem_map.mp hrow
  cases he
  refine ⟨Int.natCast_nonneg _, ?_⟩
  dsimp only
  rw [List.filter_comm]
  exact_mod_cast List.length_filter_le _ _

/-- What the map says of a member who worked, and of one who did not. -/
theorem workMap_get (d : Db) (contextId : String) (period : Period) (id : Uuid) :
    ((workMap d contextId period).get id = none ∧ d.shiftsOf contextId period id = []) ∨
    ∃ a, (workMap d contextId period).get id = some a ∧
      a.shiftCount = (d.shiftsOf contextId period id).length ∧
      a.knownMinutes = d.minutesOf contextId period id ∧
      0 ≤ a.unknownDurationCount ∧
      a.unknownDurationCount ≤ (d.shiftsOf contextId period id).length := by
  cases h : (workMap d contextId period).get id with
  | none =>
    refine .inl ⟨rfl, List.filter_eq_nil_iff.mpr ?_⟩
    intro s hs he
    rw [Js.Map.get_eq_none, workMap_keys, List.mem_dedup] at h
    exact h (List.mem_map.mpr ⟨s, hs, of_decide_eq_true he⟩)
  | some a =>
    have hmem := Js.Map.mem_of_get h
    obtain ⟨own, rfl, hcount, hminutes⟩ := mem_workMap hmem
    refine .inr ⟨a, rfl, hcount, hminutes, ?_⟩
    obtain ⟨row, -, he⟩ := List.mem_map.mp hmem
    cases he
    simp only
    cases hc : (countsOf (groupByMember
        ((d.activeShifts contextId period).filter fun s => s.minutes = none))).get row.memberId with
    | none => exact ⟨le_refl 0, Int.natCast_nonneg _⟩
    | some c => exact unknown_le hc

/-- The row of a member shows his work. -/
theorem simulatedMember_work (d : Db) (contextId : String) (period : Period) (basis : WorkBasis)
    (partnerIds : List Uuid) (partnerAmounts workAmounts : Js.Map Uuid Int) (m : Member) :
    let row := simulatedMember basis partnerIds (workMap d contextId period) partnerAmounts
      workAmounts m
    row.shiftCount = (d.shiftsOf contextId period m.id).length ∧
      row.knownMinutes = d.minutesOf contextId period m.id ∧
      0 ≤ row.unknownDurationCount ∧
      row.unknownDurationCount ≤ (d.shiftsOf contextId period m.id).length ∧
      (row.workUnits = row.shiftCount ∨ row.workUnits = row.knownMinutes) := by
  rcases workMap_get d contextId period m.id with
    ⟨hget, hnil⟩ | ⟨a, hget, hcount, hminutes, h0, hle⟩
  · have hzero : d.minutesOf contextId period m.id = 0 := by
      unfold Db.minutesOf
      rw [hnil]
      rfl
    simp only [simulatedMember, hget, hnil, hzero]
    exact ⟨rfl, rfl, le_refl 0, le_refl 0, .inl rfl⟩
  · simp only [simulatedMember, hget]
    refine ⟨hcount, hminutes, h0, hle, ?_⟩
    cases basis with
    | workShifts => exact .inl rfl
    | knownMinutes => exact .inr rfl

end

/-! The condition. -/

/-- What is left of the sales of a period when their costs, the operating expenses and the
reserves are taken off. -/
def Db.availableMinor (d : Db) (contextId : String) (period : Period) : Int :=
  (booksAt d contextId period).figures.recordedOperatingResultMinor -
    (booksAt d contextId period).reserves.sum

/-- The books of the period are small enough for the columns, and the folio counter of the
year is not at its end. -/
structure Small (d : Db) (contextId : String) (period : Period) (year : Option Int) : Prop where
  available : d.availableMinor contextId period ≤ maxMinorUnits
  shifts : ∀ m ∈ d.members.rows, m.contextId = contextId →
    ((d.shiftsOf contextId period m.id).length : Int) ≤ maxMinorUnits
  minutes : ∀ m ∈ d.members.rows, m.contextId = contextId →
    d.minutesOf contextId period m.id ≤ maxMinorUnits
  year : ∃ y, year = some y ∧ 2000 ≤ y ∧ y ≤ 9999 ∧
    (d.counters.find? (contextId, y)).elim 0 (·.lastNumber) < maxMinorUnits

/-- `CHECK ("lastNumber" >= 0)`. -/
def Db.Counted (d : Db) : Prop := ∀ c ∈ d.counters.rows, 0 ≤ c.lastNumber

section
variable {host : Host} {d : Db} {contextId : String} {dto : FinanceDistributionSimulationDto}
variable {base : Overview} {split : Split} {s : Simulation}

theorem overviewOf_available {period : Period} {books : Books} {o : Overview}
    (h : overviewOf period books = .ok o) : o.result.potentiallyAvailableMinor =
      books.figures.recordedOperatingResultMinor - books.reserves.sum := by
  rw [← overviewOf_figures h]
  unfold overviewOf at h
  obtain ⟨t, -, h⟩ := ok_of_bind h
  obtain ⟨e, -, h⟩ := ok_of_bind h
  iterate 9
    obtain ⟨_, -, h⟩ := ok_of_bind h
  obtain ⟨_, hplanned, h⟩ := ok_of_bind h
  obtain ⟨_, hresult, h⟩ := ok_of_bind h
  obtain ⟨_, havailable, h⟩ := ok_of_bind h
  cases h
  simp only [Overview.figures, safeNumber_ok hresult, safeNumber_ok havailable,
    safeNumber_ok hplanned]

theorem Shown.available_eq (h : Shown d contextId dto base split s) :
    s.financialBase.potentiallyAvailableMinor = d.availableMinor contextId dto.period := by
  rw [h.available]
  exact overviewOf_available h.overview

/-- The row of somebody shown: whose it is, and that its parts are not negative. -/
theorem Shown.row (h : Shown d contextId dto base split s) {r : SimulatedMember}
    (hr : r ∈ s.members) :
    ∃ m ∈ d.members.rows, m.contextId = contextId ∧ r = simulatedMember dto.workBasis
        (partnersOf (d.eligibleMembers contextId (workMap d contextId dto.period).keys))
        (workMap d contextId dto.period) split.partnerAmounts split.workAmounts m ∧
      0 ≤ r.partnerAmountMinor ∧ 0 ≤ r.workAmountMinor ∧
      r.partnerAmountMinor + r.workAmountMinor = r.totalMinor := by
  obtain ⟨-, hpartner, hwork⟩ := splitOf_nonneg h.parts
  rw [h.members] at hr
  obtain ⟨m, hm, rfl⟩ := List.mem_map.mp hr
  have hread := (simulatedMembers_ids d contextId _).subset hm
  obtain ⟨hrow, hc⟩ := List.mem_filter.mp hread
  refine ⟨m, hrow, (of_decide_eq_true hc).1, rfl, ?_, ?_, rfl⟩
  · change 0 ≤ (split.partnerAmounts.get m.id).getD 0
    cases hg : split.partnerAmounts.get m.id with
    | none => exact le_refl 0
    | some a => exact hpartner _ _ hg
  · change 0 ≤ (split.workAmounts.get m.id).getD 0
    cases hg : split.workAmounts.get m.id with
    | none => exact le_refl 0
    | some a => exact hwork _ _ hg

/-- A part is not more than the whole. -/
theorem Shown.total_le (h : Shown d contextId dto base split s) {r : SimulatedMember}
    (hr : r ∈ s.members) : r.totalMinor ≤ maxMinorUnits := by
  have hnonneg : ∀ x ∈ s.members.map (·.totalMinor), 0 ≤ x := by
    intro x hx
    obtain ⟨r', hr', rfl⟩ := List.mem_map.mp hx
    obtain ⟨-, -, -, -, hp, hw, htotal⟩ := h.row hr'
    omega
  have hle := List.single_le_sum hnonneg _ (List.mem_map_of_mem hr)
  rw [h.total] at hle
  exact hle.trans dto.requested_range.2

/-- Whoever worked is shown. -/
theorem Shown.worker (h : Shown d contextId dto base split s) {m : Member}
    (hm : m ∈ d.members.rows) (hc : m.contextId = contextId)
    (hw : d.shiftsOf contextId dto.period m.id ≠ []) :
    simulatedMember dto.workBasis
        (partnersOf (d.eligibleMembers contextId (workMap d contextId dto.period).keys))
        (workMap d contextId dto.period) split.partnerAmounts split.workAmounts m ∈ s.members := by
  rw [h.members]
  refine List.mem_map_of_mem ((simulatedMembers_ids d contextId _).symm.subset ?_)
  refine List.mem_filter.mpr ⟨hm, decide_eq_true ⟨hc, .inr ?_⟩⟩
  obtain ⟨x, hx⟩ := List.exists_mem_of_ne_nil _ hw
  obtain ⟨hx, he⟩ := List.mem_filter.mp hx
  rw [workMap_keys, List.mem_dedup]
  exact List.mem_map.mpr ⟨x, hx, of_decide_eq_true he⟩

/-- The row of a participant is admitted when the work of the member fits. -/
theorem Shown.admitted_iff (h : Shown d contextId dto base split s) {id : Uuid} :
    (∀ r ∈ s.members, (participantRow id contextId r).Admitted) ↔
      ∀ m ∈ d.members.rows, m.contextId = contextId →
        ((d.shiftsOf contextId dto.period m.id).length : Int) ≤ maxMinorUnits ∧
        d.minutesOf contextId dto.period m.id ≤ maxMinorUnits := by
  constructor
  · intro hadmitted m hm hc
    by_cases hw : d.shiftsOf contextId dto.period m.id = []
    · refine ⟨by rw [hw]; decide, ?_⟩
      unfold Db.minutesOf
      rw [hw]
      decide
    · have hints := (hadmitted _ (h.worker hm hc hw)).integers
      obtain ⟨hcount, hminutes, -⟩ := simulatedMember_work d contextId dto.period dto.workBasis
        (partnersOf (d.eligibleMembers contextId (workMap d contextId dto.period).keys))
        split.partnerAmounts split.workAmounts m
      constructor
      · rw [← hcount]
        exact (int4_iff.mp (hints _ (by simp [DistributionAgreementParticipant.integers,
          participantRow]))).2
      · rw [← hminutes]
        exact (int4_iff.mp (hints _ (by simp [DistributionAgreementParticipant.integers,
          participantRow]))).2
  · intro hsmall r hr
    obtain ⟨m, hm, hc, he, hp, hw, htotal⟩ := h.row hr
    obtain ⟨hcount, hminutes, hu, hule, hunits⟩ := simulatedMember_work d contextId dto.period
      dto.workBasis
      (partnersOf (d.eligibleMembers contextId (workMap d contextId dto.period).keys))
      split.partnerAmounts split.workAmounts m
    rw [← he] at hcount hminutes hu hule hunits
    obtain ⟨hshifts, hmins⟩ := hsmall m hm hc
    have hle := h.total_le hr
    have hmin0 := minutesOf_nonneg d contextId dto.period m.id
    have hcount0 : 0 ≤ r.shiftCount := by
      rw [hcount]
      exact Int.natCast_nonneg _
    have hunits0 : 0 ≤ r.workUnits ∧ r.workUnits ≤ maxMinorUnits := by
      rcases hunits with hu | hu <;> omega
    constructor
    · intro n hn
      simp only [DistributionAgreementParticipant.integers, participantRow, List.mem_cons,
        List.not_mem_nil, or_false] at hn
      rcases hn with rfl | rfl | rfl | rfl | rfl | rfl | rfl <;>
        exact int4_of_nonneg (by omega) (by omega)
    · unfold DistributionAgreementParticipant.checks
      refine decide_eq_true ?_
      simp only [participantRow]
      omega

/-- A creation that gets to write does not replace itself. -/
theorem replacedAgreement_ne {answer : (q : Sql) → Except Err q.Res → Prop} {id : Uuid}
    {replacesId : Option Uuid} {x : Option AgreementRef}
    (h : (replacedAgreement contextId id replacesId).Ends (S := finance) answer (.ok x)) :
    replacesId ≠ some id := by
  rintro rfl
  unfold replacedAgreement validateReplacement at h
  simp only [if_true] at h
  rcases Tx.ends_bind.mp h with ⟨_, _, he⟩ | ⟨a, ha, -⟩
  · cases he
  · cases ha

/-- What a creation sends for a simulation: every value fits its column and satisfies the
checks, and no statement is refused for a range or a check. -/
def Insertable (host : Host) (d : Db) (actor : Actor) (dto : CreateDistributionAgreementDto)
    (memberName : String) (replaces : Option AgreementRef) (s : Simulation)
    (receivedAt : Instant) : Prop :=
  let contextId := actor.account.contextId
  ∃ number ws, (Sql.nextNumber contextId (folioYear receivedAt)).exec d = .ok (number, ws) ∧
    let row := agreementRow host actor dto (documentInput host actor dto memberName replaces s
      receivedAt (formatFolio ((folioYear receivedAt).getD 0) number))
    let rows := s.members.map (participantRow (uuid dto.id) contextId)
    row.Admitted ∧ (∀ p ∈ rows, p.Admitted) ∧
      ∀ v, Accepted ((Sql.createAgreement row).exec v) ∧
        Accepted ((Sql.createParticipants rows).exec v)

/-- The counter goes one further when the year and the number fit. -/
theorem advanceCounter_ok_iff (d : Db) (contextId : String) {year : Option Int} :
    (∃ number ws, advanceCounter contextId year d = .ok (number, ws)) ↔
      ∃ y, year = some y ∧ 2000 ≤ y ∧ y ≤ 9999 ∧
        int4 ((d.counters.find? (contextId, y)).elim 0 (·.lastNumber) + 1) = true := by
  unfold advanceCounter
  cases year with
  | none =>
    constructor
    · rintro ⟨_, _, h⟩
      cases h
    · rintro ⟨_, h, -⟩
      cases h
  | some y =>
    dsimp only
    by_cases hy : y < 2000 ∨ 9999 < y
    · rw [if_pos hy]
      constructor
      · rintro ⟨_, _, h⟩
        cases h
      · rintro ⟨y', h, h0, h1, -⟩
        cases h
        omega
    · rw [if_neg hy]
      constructor
      · rintro ⟨_, _, h⟩
        split at h
        · rename_i hi
          exact ⟨y, rfl, by omega, by omega, hi⟩
        · cases h
      · rintro ⟨y', h, -, -, hi⟩
        cases h
        rw [if_pos hi]
        exact ⟨_, _, rfl⟩

theorem advanceCounter_number {y number : Int} {ws : List Write}
    (h : advanceCounter contextId (some y) d = .ok (number, ws)) :
    number = (d.counters.find? (contextId, y)).elim 0 (·.lastNumber) + 1 := by
  unfold advanceCounter at h
  dsimp only at h
  split at h
  · cases h
  · split at h
    · cases h
      rfl
    · cases h

theorem Db.Counted.last_nonneg (hc : d.Counted) (contextId : String) (y : Int) :
    0 ≤ (d.counters.find? (contextId, y)).elim 0 (·.lastNumber) := by
  cases hf : d.counters.find? (contextId, y) with
  | none => exact le_refl 0
  | some c => exact hc c (Table.mem_of_find? hf)

/-- The row of an agreement is admitted when the available amount fits. -/
theorem Shown.agreement_admitted_iff {actor : Actor} {dto : CreateDistributionAgreementDto}
    {folio : String} (host : Host) (memberName : String) (replaces : Option AgreementRef)
    (receivedAt : Instant)
    (h : Shown d actor.account.contextId dto.toFinanceDistributionSimulationDto base split s)
    (hreplaces : dto.replacesAgreementId.map uuid ≠ some (uuid dto.id))
    (hfolio : folioFormat folio) :
    (agreementRow host actor dto (documentInput host actor dto memberName replaces s receivedAt
        folio)).Admitted ↔
      d.availableMinor actor.account.contextId dto.period ≤ maxMinorUnits := by
  have havailable := h.available_eq
  have henough := h.enough
  rw [← h.available] at henough
  obtain ⟨hpools, -, -⟩ := splitOf_nonneg h.parts
  rw [splitPools_eq, ← h.pools] at hpools
  have hpart := congrArg Pools.partnerPoolMinor (Except.ok.inj hpools)
  have hwork := congrArg Pools.workPoolMinor (Except.ok.inj hpools)
  obtain ⟨hpool0, hpoolle⟩ := pools_nonneg dto.toFinanceDistributionSimulationDto
  have hrequested := dto.requested_range
  have hdistributed := h.distributed
  have hundistributed := h.undistributed
  dsimp only at hpart hwork
  constructor
  · intro hadmitted
    rw [← havailable]
    exact (int4_iff.mp (hadmitted.integers _ (by
      simp [DistributionAgreement.integers, agreementRow, documentInput]))).2
  · intro hle
    rw [← havailable] at hle
    refine ⟨?_, hfolio, dto.period.ordered, by
      change 0 < dto.requestedAmountMinor
      omega, ?_, dto.shares_total, rfl, ?_⟩
    · intro n hn
      have hp := dto.partner_range
      have hw := dto.work_range
      have hmax : (10000 : Int) ≤ maxMinorUnits := by decide
      simp only [DistributionAgreement.integers, agreementRow, documentInput, List.mem_cons,
        List.not_mem_nil, or_false] at hn
      rcases hn with rfl | rfl | rfl | rfl | rfl | rfl | rfl | rfl <;>
        exact int4_of_nonneg (by omega) (by omega)
    · exact ⟨dto.partner_range.1, dto.partner_range.2, dto.work_range.1, dto.work_range.2⟩
    · unfold DistributionAgreement.checks
      refine decide_eq_true ?_
      simp only [agreementRow, documentInput]
      exact ⟨henough, by omega, by omega, by omega, by omega, by omega, by omega, hreplaces⟩

end

/-- For every database and request whose simulation is answered: what a creation then writes
fits its columns and satisfies the checks, and so is never refused for either, if and only
if the available amount of the period, the shifts and the minutes of each member in it, and
the folio counter of the year fit 32 bits, the year having four digits from 2000 on. -/
theorem insertable_iff_small (host : Host) (d : Db) (hcounted : d.Counted) (actor : Actor)
    (dto : CreateDistributionAgreementDto) (memberName : String) (replaces : Option AgreementRef)
    (s : Simulation) (receivedAt : Instant)
    (hsimulated : (simulateInTx host actor.account.contextId
      dto.toFinanceDistributionSimulationDto).Ends d.MayAnswer (.ok s))
    (hreplaces : (replacedAgreement actor.account.contextId (uuid dto.id)
      (dto.replacesAgreementId.map uuid)).Ends d.MayAnswer (.ok replaces)) :
    Insertable host d actor dto memberName replaces s receivedAt ↔
      Small d actor.account.contextId dto.period (folioYear receivedAt) := by
  obtain ⟨base, split, hshown⟩ := simulationAt_shown (simulateInTx_ends hsimulated).symm
  have hne := replacedAgreement_ne hreplaces
  -- a number that was answered makes a folio of the right form
  have hfolio : ∀ y number ws, folioYear receivedAt = some y →
      advanceCounter actor.account.contextId (folioYear receivedAt) d = .ok (number, ws) →
      folioFormat (formatFolio ((folioYear receivedAt).getD 0) number) := by
    intro y number ws hy hnext
    obtain ⟨y', hy', h0, h1, -⟩ := (advanceCounter_ok_iff d _).mp ⟨number, ws, hnext⟩
    cases hy.symm.trans hy'
    rw [hy] at hnext ⊢
    have hlast := hcounted.last_nonneg actor.account.contextId y
    rw [advanceCounter_number hnext]
    exact formatFolio_format ⟨by simpa using by omega, by simpa using by omega⟩ (by omega)
  constructor
  · rintro ⟨number, ws, hnext, hrow, hrows, -⟩
    obtain ⟨y, hy, h0, h1, hint⟩ := (advanceCounter_ok_iff d _).mp ⟨number, ws, hnext⟩
    have hmembers := hshown.admitted_iff.mp fun r hr => hrows _ (List.mem_map_of_mem hr)
    have havailable := (Shown.agreement_admitted_iff host memberName replaces receivedAt hshown hne
      (hfolio y number ws hy hnext)).mp hrow
    refine ⟨havailable, fun m hm hc => (hmembers m hm hc).1, fun m hm hc => (hmembers m hm hc).2,
      y, hy, h0, h1, ?_⟩
    have := (int4_iff.mp hint).2
    omega
  · rintro ⟨havailable, hshifts, hminutes, y, hy, h0, h1, hlast⟩
    have hlast0 := hcounted.last_nonneg actor.account.contextId y
    obtain ⟨number, ws, hnext⟩ := (advanceCounter_ok_iff d actor.account.contextId).mpr
        ⟨y, hy, h0, h1, int4_of_nonneg (by omega) (by omega)⟩
    have hrow := (Shown.agreement_admitted_iff host memberName replaces receivedAt hshown hne
      (hfolio y number ws hy hnext)).mpr havailable
    have hrows : ∀ p ∈ s.members.map (participantRow (uuid dto.id) actor.account.contextId),
        p.Admitted := by
      intro p hp
      obtain ⟨r, hr, rfl⟩ := List.mem_map.mp hp
      exact hshown.admitted_iff.mpr (fun m hm hc => ⟨hshifts m hm hc, hminutes m hm hc⟩) r hr
    exact ⟨number, ws, hnext, hrow, hrows, fun v =>
      ⟨insertAgreement_accepted hrow v, insertParticipants_accepted hrows v⟩⟩

namespace Demo

/-- A day of 2027. -/
def later : Instant := 1800000000000

/-- Sales of thirty million pesos, of two tickets. -/
def rich : Db :=
  { office with
    sales := ⟨[{ id := ⟨"s"⟩, contextId := "c", status := .completada
                 occurredAt := businessStart (day 2 day_two), totalMinor := some 1500000000
                 items := [⟨1, some 0, 1500000000⟩] },
               { id := ⟨"t"⟩, contextId := "c", status := .completada
                 occurredAt := businessStart (day 2 day_two), totalMinor := some 1500000000
                 items := [⟨1, some 0, 1500000000⟩] }], by decide⟩ }

theorem handedOut_rich : handedOut ((simulateInTx host "c" dto).eval rich []) =
    some [("a", 25), ("b", 40), ("x", 33)] := by decide

/-- Whether a body fails for the range of a column. -/
def refused {α : Type} : Except Err α → Bool
  | .error e => e = outOfRange
  | .ok _ => false

theorem of_refused {α : Type} {x : Except Err α} (h : refused x = true) :
    x = .error outOfRange := by
  cases x with
  | ok a => cases h
  | error e => exact congrArg Except.error (of_decide_eq_true h)

end Demo

theorem insertable_iff_small_demo : ∃ s : Simulation,
    (s.members.map fun m => (m.memberId.text, m.totalMinor)) = [("a", 25), ("b", 40), ("x", 33)] ∧
      Insertable Demo.host Demo.db Demo.actor (Demo.confirming s.simulationFingerprint) "a" none s
        Demo.later := by
  obtain ⟨s, hs, hl⟩ := Demo.of_handedOut Demo.handedOut_db
  refine ⟨s, hl, (insertable_iff_small Demo.host Demo.db (fun _ hc => (List.not_mem_nil hc).elim)
    Demo.actor (Demo.confirming s.simulationFingerprint) "a" none s Demo.later
    (simulateInTx_ends_of_eval hs) rfl).mpr ⟨?_, ?_, ?_, ?_⟩⟩
  · change Demo.db.availableMinor "c" Demo.dto.period ≤ maxMinorUnits
    decide
  · change ∀ m ∈ Demo.db.members.rows, m.contextId = "c" →
      ((Demo.db.shiftsOf "c" Demo.dto.period m.id).length : Int) ≤ maxMinorUnits
    decide
  · change ∀ m ∈ Demo.db.members.rows, m.contextId = "c" →
      Demo.db.minutesOf "c" Demo.dto.period m.id ≤ maxMinorUnits
    decide
  · exact ⟨2027, by decide, by decide, by decide, by decide⟩

/-- The simulation is shown, and the agreement on it is refused by the database. -/
theorem not_insertable_rich : ∃ s : Simulation,
    (simulateInTx Demo.host "c" Demo.dto).Ends Demo.rich.MayAnswer (.ok s) ∧
      (createInTx Demo.host ⟨fun _ => ⟨""⟩, fun _ => Demo.later⟩ Demo.actor ⟨"a", "caja"⟩
        (Demo.confirming "sim1:") 0).eval Demo.rich [] = .error outOfRange ∧
      ¬ Insertable Demo.host Demo.rich Demo.actor (Demo.confirming "sim1:") "a" none s
        Demo.later := by
  obtain ⟨s, hs, -⟩ := Demo.of_handedOut Demo.handedOut_rich
  have hsimulated := simulateInTx_ends_of_eval hs
  refine ⟨s, hsimulated, Demo.of_refused (by decide), ?_⟩
  rintro ⟨number, ws, -, hrow, -⟩
  obtain ⟨base, split, hshown⟩ := simulationAt_shown (simulateInTx_ends hsimulated).symm
  have hfits := (int4_iff.mp (hrow.integers s.financialBase.potentiallyAvailableMinor (by
    simp [DistributionAgreement.integers, agreementRow, documentInput]))).2
  rw [hshown.available_eq] at hfits
  exact absurd hfits (by decide)

end Bazar.Finance
