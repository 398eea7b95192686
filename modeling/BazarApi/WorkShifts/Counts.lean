import BazarApi.WorkShifts.Safe

/- Over whole runs of creations and reversals of shifts: no id of a context is both a shift's
   and a reversal's, each shift is reversed once at most (`Kept`), and the count a shift warns
   of is that of the other shifts of its member and day in the state it is committed in
   (`Effect.warned`). -/
namespace Bazar.WorkShifts

open Txn
open Finance (utf16 CalendarDate)

structure Kept (d : Db) : Prop where
  apart : ∀ s ∈ d.shifts.rows, ∀ r ∈ d.reversals.rows, s.contextId = r.contextId →
    s.data.id ≠ r.data.id
  reversed_once : ∀ r ∈ d.reversals.rows, ∀ r' ∈ d.reversals.rows,
    r.data.workShiftId = r'.data.workShiftId → r = r'

/-- The other shifts of a shift's member and day that are not reversed. -/
def Db.othersActive (d : Db) (row : WorkShift) : List WorkShift :=
  (d.activeOn row.contextId row.data.memberId row.data.workDate).filter fun s =>
    s.data.id ≠ row.data.id

section
variable {host : Host} {d₀ d : Db} {reqs : List Request} {h : History shifts} {locks : Locks Key}
variable {r : Request} {ws : List Write}

/-- A shift with an id that is new. -/
theorem Kept.insertShift (row : WorkShift) (hk : Kept d)
    (hfree : NoReversal d row.contextId row.data.id) : Kept ((Write.insertShift row).apply d) := by
  refine ⟨?_, hk.reversed_once⟩
  intro s hs r hr hctx
  rcases Table.mem_put.mp hs with rfl | ⟨hs, -⟩
  · exact (hfree r hr hctx.symm).symm
  · exact hk.apart s hs r hr hctx

/-- The first reversal of a shift, with an id that is new. -/
theorem Kept.insertReversal {row : WorkShiftReversal} (hk : Kept d)
    (hfree : NoShift d row.contextId row.data.id)
    (hactive : ∀ r ∈ d.reversals.rows, r.data.workShiftId ≠ row.data.workShiftId) :
    Kept ((Write.insertReversal row).apply d) := by
  refine ⟨?_, ?_⟩
  · intro s hs r hr hctx
    rcases Table.mem_put.mp hr with rfl | ⟨hr, -⟩
    · exact hfree s hs hctx
    · exact hk.apart s hs r hr hctx
  · intro r hr r' hr' hsame
    rcases Table.mem_put.mp hr with rfl | ⟨hold, -⟩
    · rcases Table.mem_put.mp hr' with rfl | ⟨hold', -⟩
      · rfl
      · exact absurd hsame.symm (hactive r' hold')
    · rcases Table.mem_put.mp hr' with rfl | ⟨hold', -⟩
      · exact absurd hsame (hactive r hold)
      · exact hk.reversed_once r hold r' hold' hsame

theorem Effect.kept (he : Effect host d₀ h locks r ws) (hk : Kept (replay (S := shifts) d₀ h)) :
    Kept (applyAll (S := shifts) (replay (S := shifts) d₀ h) ws) := by
  cases he with
  | created hnew hfree hidentity hday => exact hk.insertShift _ hfree
  | @reversed env actor target dto original horiginal hactive hnew hfree hreplacement hdistinct
      hidentities hdays =>
    unfold reversalWrites
    cases hr : dto.replacement with
    | none => exact hk.insertReversal hfree hactive
    | some x =>
      refine (hk.insertShift (replacementRow host env actor (uuid dto.id) (uuid target)
        (replay (S := shifts) d₀ h) x) (hreplacement x hr).2).insertReversal ?_ hactive
      intro s hs hctx
      rcases Table.mem_put.mp hs with rfl | ⟨hs, -⟩
      · -- the ids a correction names are distinct
        intro hid
        refine (List.nodup_cons.mp hdistinct).1 (List.mem_cons_of_mem _ ?_)
        unfold replacementWorkShiftId
        rw [hr]
        exact List.mem_singleton.mpr hid.symm
      · exact hfree s hs hctx

theorem Lawful.kept (hl : Lawful (Commits host d₀ reqs) h) (h0 : Kept d₀) :
    Kept (replay (S := shifts) d₀ h) := by
  refine hl.induct (S := shifts) d₀ Kept h0 ?_
  intro h₁ c _ hk _ hg
  obtain ⟨r, -, hw | he⟩ := hg
  · rw [hw]
    exact hk
  · exact he.kept hk

/-! Warnings. -/

/-- A new shift is not among the others. -/
theorem othersActive_insertShift (row : WorkShift) (hnew : d.shifts.find? row.data.id = none) :
    ((Write.insertShift row).apply d).othersActive row =
      d.activeOn row.contextId row.data.memberId row.data.workDate := by
  unfold Db.othersActive
  rw [activeOn_insertShift hnew, List.filter_append]
  have hself : ([row].filter fun s => s.contextId = row.contextId ∧
      s.data.memberId = row.data.memberId ∧ s.data.workDate = row.data.workDate ∧
        (d.reversalOf s).isNone).filter (fun s => s.data.id ≠ row.data.id) = [] := by
    refine List.filter_eq_nil_iff.mpr fun s hs => ?_
    obtain rfl := List.mem_singleton.mp (List.mem_filter.mp hs).1
    simp
  rw [hself, List.append_nil]
  refine List.filter_eq_self.mpr fun s hs => decide_eq_true fun hid => ?_
  have hfound := Table.find?_of_mem (List.mem_filter.mp hs).1
  have hkey : Keyed.key s = row.data.id := hid
  rw [hkey, hnew] at hfound
  cases hfound

/-- The count a shift warns of is right in the state it is committed in. -/
theorem Effect.warned {row : WorkShift} (he : Effect host d₀ h locks r ws)
    (hrow : Write.insertShift row ∈ ws) : row.creationResponse.warnings = warningsOf
      ((applyAll (S := shifts) (replay (S := shifts) d₀ h) ws).othersActive row).length := by
  cases he with
  | @created env actor dto hnew hfree hidentity hday =>
    cases List.mem_singleton.mp hrow
    have hothers := othersActive_insertShift (createdRow host env actor dto
      (replay (S := shifts) d₀ h)) hnew
    refine congrArg warningsOf ?_
    refine Eq.trans ?_ (congrArg List.length hothers).symm
    unfold Db.countActive
    rw [List.filter_eq_self.mpr fun s _ => decide_eq_true (Option.some_ne_none _)]
    rfl
  | @reversed env actor target dto original horiginal hactive hnew hfree hreplacement hdistinct
      hidentities hdays =>
    unfold reversalWrites at hrow ⊢
    rcases List.mem_append.mp hrow with hrow | hrow
    · cases hr : dto.replacement with
      | none =>
        rw [hr] at hrow
        cases hrow
      | some x =>
        rw [hr] at hrow
        obtain rfl := Write.insertShift.inj (List.mem_singleton.mp hrow)
        have hothers := othersActive_insertShift (replacementRow host env actor (uuid dto.id)
          (uuid target) (replay (S := shifts) d₀ h) x) (hreplacement x hr).1
        refine congrArg warningsOf ?_
        refine Eq.trans ?_ (congrArg List.length (Eq.trans (congrArg (List.filter _)
          (activeOn_insertReversal hnew)) (Eq.trans (List.filter_comm ..) (congrArg (List.filter _)
            hothers)))).symm
        -- those left are all but the one it replaces
        unfold Db.countActive
        refine congrArg List.length (List.filter_congr fun s hs => ?_)
        obtain ⟨hctx, -⟩ := of_decide_eq_true (List.mem_filter.mp hs).2
        have hctx : s.contextId = actor.account.contextId := hctx
        rw [decide_eq_decide]
        show some s.data.id ≠ some (uuid target) ↔
          ¬ (uuid target = s.data.id ∧ actor.account.contextId = s.contextId)
        rw [hctx]
        simp [eq_comm]
    · cases List.mem_singleton.mp hrow

end

/-- In every state of every run: no id is both a shift's and a reversal's in one context, each
shift is reversed once at most, and every shift recorded warns of the number of other shifts
of its member and day that are not reversed in the state its commit leaves; the one it
replaces is reversed there. -/
theorem shifts_kept (host : Host) (d₀ : Db) (reqs : List Request) (s : Sys shifts Answer)
    (h0 : Kept d₀) (hr : Reachable host d₀ reqs s) :
    Kept (replay (S := shifts) d₀ s.hist) ∧
    ∀ h₁ c h₂, s.hist = h₁ ++ .commit c :: h₂ → ∀ row, Write.insertShift row ∈ c.writes →
      row.creationResponse.warnings = warningsOf
        ((replay (S := shifts) d₀ (h₁ ++ [.commit c])).othersActive row).length := by
  refine ⟨Lawful.kept hr.lawful h0, ?_⟩
  intro h₁ c h₂ he row hrow
  obtain ⟨-, r, -, hw | heffect⟩ := hr.lawful h₁ c h₂ he
  · rw [hw] at hrow
    cases hrow
  · rw [replay_committed]
    exact heffect.warned hrow

/-! Two shifts of a day, the first of them corrected, for a concrete run. -/

namespace Demo

def member : Team.Member :=
  { id := ⟨"b"⟩, name := "b", role := .socio, contextId := "c", active := true, correo := none }

def device : Team.Device :=
  { id := ⟨"caja"⟩, name := "caja", identifier := "caja", contextId := "c", authorized := true
    createdAt := 0, status := .activo, tokenHash := none, activatedAt := none, revokedAt := none }

def db : Db where
  members := ⟨[member], List.nodup_singleton _⟩
  devices := ⟨[device], List.nodup_singleton _⟩
  shifts := .empty
  reversals := .empty

def host : Host := { sha256 := fun _ => "", localeCompare := fun _ _ => .eq, daysText := fun _ => "" }

def env : Env := { serverId := fun _ => ⟨""⟩, now := fun _ => 0 }

def actor : Actor :=
  { account := { id := "login", contextId := "c" }
    selection := some { memberId := "b", deviceId := "caja" } }

theorem year_range : 1 ≤ 2026 ∧ 2026 ≤ 9999 := by decide
theorem month_range : 1 ≤ 1 ∧ 1 ≤ 12 := by decide
theorem day_range : 1 ≤ 2 ∧ ((2 : Nat) : Int) ≤ Finance.daysInMonth (Finance.isLeap 2026) 1 := by
  decide

def shift (id : String) : CreateWorkShiftDto :=
  { id, memberId := "b", workDate := ⟨2026, 1, 2, year_range, month_range, day_range⟩
    minutes := none, note := none, createdByMemberId := "b", deviceId := "caja" }

def correction : ReverseWorkShiftDto :=
  { id := "r", createdByMemberId := "b", deviceId := "caja", occurredAt := 0, reason := "hora"
    replacement := some (shift "3") }

def requests : List Request :=
  [.create env actor (shift "1"), .create env actor (shift "2"), .reverse env actor "1" correction]

/-- The second begins first, and waits for the day. -/
def steps : List Nat :=
  List.replicate 4 1 ++ List.replicate 11 0 ++ List.replicate 7 1 ++ List.replicate 17 2

def final : Sys shifts Answer :=
  (Sys.initial (requests.map (Request.call host))).scheduled (S := shifts) db steps

theorem kept : Kept db where
  apart _ hs := absurd hs List.not_mem_nil
  reversed_once _ hr := absurd hr List.not_mem_nil

end Demo

theorem shifts_kept_correction :
    ((replay (S := shifts) Demo.db Demo.final.hist).shifts.rows.map fun s =>
      (s.data.id.text, s.creationResponse.warnings)) =
        [("1", []), ("2", warningsOf 1), ("3", warningsOf 1)] ∧
      Kept (replay (S := shifts) Demo.db Demo.final.hist) :=
  ⟨by decide +kernel, (shifts_kept Demo.host Demo.db Demo.requests _ Demo.kept
    (Sys.scheduled_reach (by decide +kernel))).1⟩

end Bazar.WorkShifts
