import BazarApi.WorkShifts.Service

/- What a commit of a creation or of a reversal of a shift does, said without its program, and
   what nobody changes under its locks: under the lock of an identity nobody in the context
   takes the id (`Later.no_shift`, `Later.no_reversal`) and nobody reverses the shift
   (`Later.not_reversed`); under the lock of a day the shifts of the member and day stay the
   same (`Later.activeOn_eq`). -/
namespace Bazar.WorkShifts

open Txn
open Finance (utf16 CalendarDate)

inductive Request where
  | create (env : Env) (actor : Actor) (dto : CreateWorkShiftDto)
  | reverse (env : Env) (actor : Actor) (target : String) (dto : ReverseWorkShiftDto)

inductive Answer where
  | created (created : Bool) (receipt : Receipt)
  | reversed (created : Bool) (receipt : ReversalReceipt)

/-- The program that serves a request. -/
def Request.call (host : Host) : Request → Call shifts Answer
  | .create env actor dto => do
    let a ← WorkShifts.create host env actor dto
    .ret (.created a.1 a.2)
  | .reverse env actor target dto => do
    let a ← WorkShifts.reverse host env actor target dto
    .ret (.reversed a.1 a.2)

/-! Effects. -/

/-- The lock of an id in a context. -/
def identityLock (contextId : String) (id : Uuid) : Key × LockMode :=
  (.advisory (identityKey contextId (utf16 id.text)), .update)

/-- The lock of a member's day. -/
def dayLock (contextId : String) (day : Uuid × CalendarDate) : Key × LockMode :=
  (.advisory (dayKey (dayText contextId day)), .update)

/-- No reversal of the context has the id. -/
def NoReversal (d : Db) (contextId : String) (id : Uuid) : Prop :=
  ∀ r ∈ d.reversals.rows, r.contextId = contextId → r.data.id ≠ id

/-- No shift of the context has the id. -/
def NoShift (d : Db) (contextId : String) (id : Uuid) : Prop :=
  ∀ s ∈ d.shifts.rows, s.contextId = contextId → s.data.id ≠ id

/-- The row of a creation on a database. -/
def createdRow (host : Host) (env : Env) (actor : Actor) (dto : CreateWorkShiftDto) (d : Db) :
    WorkShift :=
  let data := normalized dto
  shiftRow actor data (d.countActive actor.account.contextId data.memberId data.workDate none)
    (env.now 0) (fingerprint host actor data.fields "create")

/-- The row of a replacement on a database, in the reversal `id` of `workShiftId`. -/
def replacementRow (host : Host) (env : Env) (actor : Actor) (id workShiftId : Uuid) (d : Db)
    (dto : CreateWorkShiftDto) : WorkShift :=
  let data := normalized dto
  shiftRow actor data
    (d.countActive actor.account.contextId data.memberId data.workDate (some workShiftId))
    (env.now 0) (replacementFingerprint host actor id dto)

/-- What a reversal writes. -/
def reversalWrites (host : Host) (env : Env) (actor : Actor) (workShiftId : Uuid)
    (dto : ReverseWorkShiftDto) (original : Receipt) (d : Db) : List Write :=
  let row := dto.replacement.map (replacementRow host env actor (uuid dto.id) workShiftId d)
  row.toList.map .insertShift ++
    [.insertReversal (reversalRow host env actor workShiftId dto original
      (row.map (·.creationResponse)))]

/-- What request `i` writes when it writes anything, after history `h`, under its locks. -/
inductive Effect (host : Host) (d₀ : Db) (h : History shifts) (locks : Locks Key) :
    Request → List Write → Prop where
  | created {env : Env} {actor : Actor} {dto : CreateWorkShiftDto}
    (hnew : (replay (S := shifts) d₀ h).shifts.find? (uuid dto.id) = none)
    (hfree : NoReversal (replay (S := shifts) d₀ h) actor.account.contextId (uuid dto.id))
    (hidentity : identityLock actor.account.contextId (uuid dto.id) ∈ locks)
    (hday : dayLock actor.account.contextId (uuid dto.memberId, dto.workDate) ∈ locks) :
    Effect host d₀ h locks (.create env actor dto)
      [.insertShift (createdRow host env actor dto (replay (S := shifts) d₀ h))]
  | reversed {env : Env} {actor : Actor} {target : String} {dto : ReverseWorkShiftDto}
    {original : WorkShift}
    (horiginal : (replay (S := shifts) d₀ h).findShift (uuid target) actor.account.contextId =
      some original)
    (hactive : ∀ r ∈ (replay (S := shifts) d₀ h).reversals.rows, r.data.workShiftId ≠ uuid target)
    (hnew : (replay (S := shifts) d₀ h).reversals.find? (uuid dto.id) = none)
    (hfree : NoShift (replay (S := shifts) d₀ h) actor.account.contextId (uuid dto.id))
    (hreplacement : ∀ r ∈ dto.replacement,
      (replay (S := shifts) d₀ h).shifts.find? (uuid r.id) = none ∧
      NoReversal (replay (S := shifts) d₀ h) actor.account.contextId (uuid r.id))
    (hdistinct : (identities (uuid target) dto).Nodup)
    (hidentities : ∀ id ∈ identities (uuid target) dto,
      identityLock actor.account.contextId id ∈ locks)
    (hdays : ∀ day ∈ correctedDays original dto, dayLock actor.account.contextId day ∈ locks) :
    Effect host d₀ h locks (.reverse env actor target dto)
      (reversalWrites host env actor (uuid target) dto original.creationResponse
        (replay (S := shifts) d₀ h))

/-- Every commit is of one of the requests, and writes nothing or what that request writes. -/
def Commits (host : Host) (d₀ : Db) (reqs : List Request) (h : History shifts)
    (c : Commit shifts) : Prop :=
  ∃ r, reqs[c.pid]? = some r ∧ (c.writes = [] ∨ Effect host d₀ h c.locks r c.writes)

/-- A state of a run in which the requests are served from the database `d₀`. -/
def Reachable (host : Host) (d₀ : Db) (reqs : List Request) (s : Sys shifts Answer) : Prop :=
  Sys.Reach (S := shifts) d₀ (Sys.initial (reqs.map (Request.call host))) s

/-! What a write leaves. -/

section
variable {d : Db} {contextId : String} {memberId id : Uuid} {workDate : CalendarDate}

theorem shifts_apply_ne {w : Write} (hne : w.key ≠ .shift id) :
    (w.apply d).shifts.find? id = d.shifts.find? id := by
  cases w with
  | insertShift row =>
    refine Table.find?_put_ne ?_
    rintro rfl
    exact hne rfl
  | insertReversal row => rfl

theorem reversals_apply_ne {w : Write} (hne : w.key ≠ .reversal id) :
    (w.apply d).reversals.find? id = d.reversals.find? id := by
  cases w with
  | insertShift row => rfl
  | insertReversal row =>
    refine Table.find?_put_ne ?_
    rintro rfl
    exact hne rfl

theorem isNone_reversalOf_insert {row : WorkShiftReversal} {s : WorkShift}
    (hnew : d.reversals.find? row.data.id = none) :
    (((Write.insertReversal row).apply d).reversalOf s).isNone = true ↔
      (d.reversalOf s).isNone = true ∧
        ¬ (row.data.workShiftId = s.data.id ∧ row.contextId = s.contextId) := by
  unfold Db.reversalOf
  show (List.find? _ (d.reversals.put row).rows).isNone = true ↔ _
  rw [Table.put_rows_new hnew, Option.isNone_iff_eq_none, Option.isNone_iff_eq_none,
    List.find?_append, Option.or_eq_none_iff, List.find?_singleton]
  by_cases hrow : row.data.workShiftId = s.data.id ∧ row.contextId = s.contextId
  · rw [if_pos (decide_eq_true hrow)]
    simp [hrow]
  · rw [if_neg fun h => hrow (of_decide_eq_true h)]
    simp [hrow]

/-- A reversal takes its shift out. -/
theorem activeOn_insertReversal {row : WorkShiftReversal}
    (hnew : d.reversals.find? row.data.id = none) :
    ((Write.insertReversal row).apply d).activeOn contextId memberId workDate =
      (d.activeOn contextId memberId workDate).filter fun s =>
        ¬ (row.data.workShiftId = s.data.id ∧ row.contextId = s.contextId) := by
  unfold Db.activeOn
  rw [List.filter_filter]
  refine List.filter_congr fun s _ => ?_
  rw [Bool.eq_iff_iff, Bool.and_eq_true, decide_eq_true_iff, decide_eq_true_iff,
    decide_eq_true_iff, isNone_reversalOf_insert hnew]
  tauto

/-- A shift of another day changes nothing, one of the day is added. -/
theorem activeOn_insertShift {row : WorkShift} (hnew : d.shifts.find? row.data.id = none) :
    ((Write.insertShift row).apply d).activeOn contextId memberId workDate =
      d.activeOn contextId memberId workDate ++ [row].filter fun s =>
        s.contextId = contextId ∧ s.data.memberId = memberId ∧ s.data.workDate = workDate ∧
          (d.reversalOf s).isNone := by
  unfold Db.activeOn
  show List.filter _ (d.shifts.put row).rows = _
  rw [Table.put_rows_new hnew, List.filter_append]
  rfl

theorem activeOn_insertShift_other {row : WorkShift} (hnew : d.shifts.find? row.data.id = none)
    (hother : ¬ (row.contextId = contextId ∧ row.data.memberId = memberId ∧
      row.data.workDate = workDate)) :
    ((Write.insertShift row).apply d).activeOn contextId memberId workDate =
      d.activeOn contextId memberId workDate := by
  rw [activeOn_insertShift hnew, List.filter_eq_nil_iff.mpr, List.append_nil]
  intro s hs hmine
  obtain rfl := List.mem_singleton.mp hs
  obtain ⟨hc, hm, hd, -⟩ := of_decide_eq_true hmine
  exact hother ⟨hc, hm, hd⟩

end

/-! Growth. -/

structure Grows (d d' : Db) : Prop where
  shifts : d.shifts.Grows d'.shifts
  reversals : d.reversals.Grows d'.reversals

theorem Grows.refl (d : Db) : Grows d d := ⟨.refl _, .refl _⟩

theorem Grows.trans {d d' d'' : Db} (h : Grows d d') (h' : Grows d' d'') : Grows d d'' :=
  ⟨h.shifts.trans h'.shifts, h.reversals.trans h'.reversals⟩

theorem findShift_grows {d d' : Db} {id : Uuid} {contextId : String} {s : WorkShift}
    (hg : Grows d d') (h : d.findShift id contextId = some s) :
    d'.findShift id contextId = some s := by
  obtain ⟨hfind, hctx⟩ := Option.filter_eq_some_iff.mp h
  exact Option.filter_eq_some_iff.mpr ⟨hg.shifts _ _ hfind, hctx⟩

section
variable {host : Host} {d₀ : Db} {reqs : List Request} {h h' : History shifts} {i : Nat}
variable {locks held : Locks Key} {r : Request} {ws : List Write} {contextId : String} {id : Uuid}

theorem Effect.grows (he : Effect host d₀ h locks r ws) :
    Grows (replay (S := shifts) d₀ h) (applyAll (S := shifts) (replay (S := shifts) d₀ h) ws) := by
  cases he with
  | created hnew hfree hidentity hday => exact ⟨Table.grows_put hnew, .refl _⟩
  | @reversed env actor target dto original horiginal hactive hnew hfree hreplacement hdistinct
      hidentities hdays =>
    unfold reversalWrites
    cases hr : dto.replacement with
    | none => exact ⟨.refl _, Table.grows_put hnew⟩
    | some x => exact ⟨Table.grows_put (hreplacement x hr).1, Table.grows_put hnew⟩

theorem Lawful.grows (hl : Lawful (Commits host d₀ reqs) h') (hp : h <+: h') :
    Grows (replay (S := shifts) d₀ h) (replay (S := shifts) d₀ h') := by
  refine hl.keep (S := shifts) d₀ (fun d => Grows (replay (S := shifts) d₀ h) d) hp (.refl _) ?_
  intro h₁ c _ _ ih _ hc
  obtain ⟨r, -, hw | he⟩ := hc
  · rw [hw]
    exact ih
  · exact ih.trans he.grows

/-! Under the locks. -/

/-- Nobody has a lock that another holds. -/
theorem not_held {ls ls' : Locks Key} (ha : Apart ls ls') {k : Key}
    (hk : (k, LockMode.update) ∈ ls) : (k, LockMode.update) ∉ ls' :=
  fun hk' => ha.ne_of_writes hk hk' LockMode.noConfusion rfl rfl

/-- Whoever records a shift has the lock of its id, and of its day. -/
theorem Effect.insertShift_locks {row : WorkShift} (he : Effect host d₀ h locks r ws)
    (hrow : Write.insertShift row ∈ ws) : identityLock row.contextId row.data.id ∈ locks ∧
      dayLock row.contextId (row.data.memberId, row.data.workDate) ∈ locks := by
  cases he with
  | created hnew hfree hidentity hday =>
    cases List.mem_singleton.mp hrow
    exact ⟨hidentity, hday⟩
  | @reversed env actor target dto original horiginal hactive hnew hfree hreplacement hdistinct
      hidentities hdays =>
    unfold reversalWrites at hrow
    rcases List.mem_append.mp hrow with hrow | hrow
    · cases hr : dto.replacement with
      | none =>
        rw [hr] at hrow
        cases hrow
      | some x =>
        rw [hr] at hrow
        cases List.mem_singleton.mp hrow
        refine ⟨hidentities (uuid x.id) ?_, hdays (uuid x.memberId, x.workDate) ?_⟩
        · unfold identities replacementWorkShiftId
          rw [hr]
          simp
        · unfold correctedDays
          rw [hr]
          simp [normalized]
    · cases List.mem_singleton.mp hrow

/-- Whoever records a reversal has the locks of its id and of its shift, which is one of the
context that had no reversal, and the lock of its day. -/
theorem Effect.insertReversal_locks {row : WorkShiftReversal} (he : Effect host d₀ h locks r ws)
    (hrow : Write.insertReversal row ∈ ws) :
    (replay (S := shifts) d₀ h).reversals.find? row.data.id = none ∧
    identityLock row.contextId row.data.id ∈ locks ∧
    identityLock row.contextId row.data.workShiftId ∈ locks ∧
    ∃ original, (replay (S := shifts) d₀ h).findShift row.data.workShiftId row.contextId =
        some original ∧
      dayLock row.contextId (original.data.memberId, original.data.workDate) ∈ locks := by
  cases he with
  | created hnew hfree hidentity hday => cases List.mem_singleton.mp hrow
  | @reversed env actor target dto original horiginal hactive hnew hfree hreplacement hdistinct
      hidentities hdays =>
    unfold reversalWrites at hrow
    rcases List.mem_append.mp hrow with hrow | hrow
    · obtain ⟨_, -, hw⟩ := List.mem_map.mp hrow
      cases hw
    · cases List.mem_singleton.mp hrow
      exact ⟨hnew, hidentities (uuid dto.id) List.mem_cons_self,
        hidentities (uuid target) (List.mem_cons_of_mem _ List.mem_cons_self), original, horiginal,
        hdays _ List.mem_cons_self⟩

theorem noShift_applyAll {d : Db} (h0 : NoShift d contextId id)
    (hne : ∀ row, Write.insertShift row ∈ ws → row.contextId = contextId → row.data.id ≠ id) :
    NoShift (applyAll (S := shifts) d ws) contextId id := by
  induction ws generalizing d with
  | nil => exact h0
  | cons w ws ih =>
    refine ih (d := w.apply d) ?_ fun row hw => hne row (List.mem_cons_of_mem _ hw)
    cases w with
    | insertReversal row => exact h0
    | insertShift row =>
      intro s hs hctx
      rcases Table.mem_put.mp hs with rfl | ⟨hs, -⟩
      · exact hne s List.mem_cons_self hctx
      · exact h0 s hs hctx

/-- What holds of every reversal and of each that is written still holds. -/
theorem reversals_applyAll {d : Db} {p : WorkShiftReversal → Prop}
    (h0 : ∀ r ∈ d.reversals.rows, p r) (hp : ∀ row, Write.insertReversal row ∈ ws → p row) :
    ∀ r ∈ (applyAll (S := shifts) d ws).reversals.rows, p r := by
  induction ws generalizing d with
  | nil => exact h0
  | cons w ws ih =>
    refine ih (d := w.apply d) ?_ fun row hw => hp row (List.mem_cons_of_mem _ hw)
    cases w with
    | insertShift row => exact h0
    | insertReversal row =>
      intro r hr
      rcases Table.mem_put.mp hr with rfl | ⟨hr, -⟩
      · exact hp r List.mem_cons_self
      · exact h0 r hr

/-- Nobody takes an id whose lock is held, for a shift. -/
theorem Later.no_shift (hl : Later (Commits host d₀ reqs) i held h h')
    (hk : identityLock contextId id ∈ held)
    (h0 : NoShift (replay (S := shifts) d₀ h) contextId id) :
    NoShift (replay (S := shifts) d₀ h') contextId id := by
  refine hl.induct (S := shifts) d₀ (fun d => NoShift d contextId id) h0 ?_
  intro h₁ c _ _ hnone _ ha _ hg
  obtain ⟨r, -, hw | he⟩ := hg
  · rw [hw]
    exact hnone
  -- Whoever writes it would hold the same lock.
  refine noShift_applyAll hnone fun row hrow hctx hid => ?_
  subst hctx hid
  exact not_held ha hk (he.insertShift_locks hrow).1

/-- Nor for a reversal. -/
theorem Later.no_reversal (hl : Later (Commits host d₀ reqs) i held h h')
    (hk : identityLock contextId id ∈ held)
    (h0 : NoReversal (replay (S := shifts) d₀ h) contextId id) :
    NoReversal (replay (S := shifts) d₀ h') contextId id := by
  refine hl.induct (S := shifts) d₀ (fun d => NoReversal d contextId id) h0 ?_
  intro h₁ c _ _ hnone _ ha _ hg
  obtain ⟨r, -, hw | he⟩ := hg
  · rw [hw]
    exact hnone
  refine reversals_applyAll hnone fun row hrow hctx hid => ?_
  subst hctx hid
  exact not_held ha hk (he.insertReversal_locks hrow).2.1

/-- Nobody reverses a shift while the lock of its id is held. -/
theorem Later.not_reversed {s : WorkShift} (hl : Later (Commits host d₀ reqs) i held h h')
    (hk : identityLock contextId id ∈ held)
    (hs : (replay (S := shifts) d₀ h).findShift id contextId = some s)
    (h0 : ∀ r ∈ (replay (S := shifts) d₀ h).reversals.rows, r.data.workShiftId ≠ id) :
    ∀ r ∈ (replay (S := shifts) d₀ h').reversals.rows, r.data.workShiftId ≠ id := by
  have hkeep : (∀ r ∈ (replay (S := shifts) d₀ h').reversals.rows, r.data.workShiftId ≠ id) ∧
      (replay (S := shifts) d₀ h').findShift id contextId = some s := by
    refine hl.induct (S := shifts) d₀ (fun d => (∀ r ∈ d.reversals.rows, r.data.workShiftId ≠ id) ∧
      d.findShift id contextId = some s) ⟨h0, hs⟩ ?_
    intro h₁ c _ _ hkept _ ha _ hg
    obtain ⟨hnone, hs⟩ := hkept
    obtain ⟨r, -, hw | he⟩ := hg
    · rw [hw]
      exact ⟨hnone, hs⟩
    refine ⟨reversals_applyAll hnone fun row hrow hid => ?_, findShift_grows he.grows hs⟩
    obtain ⟨-, -, hlock, original, horiginal, -⟩ := he.insertReversal_locks hrow
    -- the shift is of one context only
    obtain ⟨hfind, hctx⟩ := Option.filter_eq_some_iff.mp hs
    obtain ⟨hfind', hctx'⟩ := Option.filter_eq_some_iff.mp horiginal
    rw [hid] at hfind' hlock
    cases hfind.symm.trans hfind'
    rw [← of_decide_eq_true hctx', of_decide_eq_true hctx] at hlock
    exact not_held ha hk hlock
  exact hkeep.1

/-- Without the lock of the day nobody changes what is worked on it. -/
theorem Effect.activeOn_eq {memberId : Uuid} {workDate : CalendarDate}
    (he : Effect host d₀ h locks r ws) (hfree : dayLock contextId (memberId, workDate) ∉ locks) :
    (applyAll (S := shifts) (replay (S := shifts) d₀ h) ws).activeOn contextId memberId workDate =
      (replay (S := shifts) d₀ h).activeOn contextId memberId workDate := by
  have hshift : ∀ row, Write.insertShift row ∈ ws → ¬ (row.contextId = contextId ∧
      row.data.memberId = memberId ∧ row.data.workDate = workDate) := by
    rintro row hrow ⟨rfl, rfl, rfl⟩
    exact hfree (he.insertShift_locks hrow).2
  have hreversal : ∀ row, Write.insertReversal row ∈ ws →
      ((replay (S := shifts) d₀ h).activeOn contextId memberId workDate).filter (fun s =>
        ¬ (row.data.workShiftId = s.data.id ∧ row.contextId = s.contextId)) =
      (replay (S := shifts) d₀ h).activeOn contextId memberId workDate := by
    intro row hrow
    -- The shift that is reversed is of another day, whose lock the request holds.
    refine List.filter_eq_self.mpr fun s hs => decide_eq_true ?_
    rintro ⟨hid, -⟩
    obtain ⟨-, -, -, original, horiginal, hlock⟩ := he.insertReversal_locks hrow
    obtain ⟨hfind, hctx⟩ := Option.filter_eq_some_iff.mp horiginal
    obtain ⟨hmem, hmine⟩ := List.mem_filter.mp hs
    obtain ⟨rfl, rfl, rfl, -⟩ := of_decide_eq_true hmine
    rw [hid] at hfind
    cases (Table.find?_of_mem hmem).symm.trans hfind
    rw [of_decide_eq_true hctx] at hfree
    exact hfree hlock
  cases he with
  | created hnew hfree' hidentity hday =>
    exact activeOn_insertShift_other hnew (hshift _ List.mem_cons_self)
  | @reversed env actor target dto original horiginal hactive hnew hfree' hreplacement hdistinct
      hidentities hdays =>
    unfold reversalWrites at hshift hreversal ⊢
    cases hr : dto.replacement with
    | none =>
      rw [hr] at hreversal
      exact (activeOn_insertReversal hnew).trans (hreversal _ List.mem_cons_self)
    | some x =>
      rw [hr] at hshift hreversal
      have hput := activeOn_insertShift_other (hreplacement x hr).1 (hshift _ List.mem_cons_self)
      have hcut := hreversal _ (List.mem_cons_of_mem _ List.mem_cons_self)
      refine (activeOn_insertReversal hnew).trans ?_
      exact (congrArg _ hput).trans hcut

theorem Later.activeOn_eq {memberId : Uuid} {workDate : CalendarDate}
    (hl : Later (Commits host d₀ reqs) i held h h')
    (hk : dayLock contextId (memberId, workDate) ∈ held) :
    (replay (S := shifts) d₀ h').activeOn contextId memberId workDate =
      (replay (S := shifts) d₀ h).activeOn contextId memberId workDate := by
  refine hl.induct (S := shifts) d₀ (fun d => d.activeOn contextId memberId workDate = _) rfl ?_
  intro h₁ c _ _ hsame _ ha _ hg
  obtain ⟨r, -, hw | he⟩ := hg
  · rw [hw]
    exact hsame
  · exact (he.activeOn_eq (not_held ha hk)).trans hsame

end

end Bazar.WorkShifts
