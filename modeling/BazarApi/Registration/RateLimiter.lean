import Mathlib.Data.List.Sort
import BazarApi.Js.Groups
import BazarApi.Registration.Model

/- The limit on attempts (`business-registration/rate-limiter.ts`) and its use by the
   registration flow (`registration-limits.ts`). A limiter keeps, for each key, the instants of
   the hits it allowed, drops those that left the window when the key is hit again, and forgets
   whole keys in a sweep. At any instant from then on it still sees exactly the allowed hits that
   lie in the window (`Sees`), which is why neither of the two changes an answer.

   Correspondence (TypeScript ↔ Lean):
     `SlidingWindowLimiter.hit`, `sweep`  ↔ `SlidingWindowLimiter.hit`, `sweep`
     `RegistrationLimits`                 ↔ `RegistrationLimits`
     a sequence of calls                  ↔ `List Op`, `run` -/
namespace Bazar.Registration

/-! The limiter. -/

structure LimitResult where
  allowed : Bool
  retryAfterMs : Int
  deriving DecidableEq, Repr

abbrev SlidingWindowLimiter := Js.Map String (List Int)

/-- The instants that are still in the window. -/
def inWindow (windowMs : Int) (now : Int) (hits : List Int) : List Int :=
  hits.filter fun time => now - time < windowMs

namespace SlidingWindowLimiter

/-- A limit is at least 1, so there is an oldest hit when one is blocked. -/
def hit (hits : SlidingWindowLimiter) (key : String) (limit : Nat) (windowMs : Int)
    (now : Int) : LimitResult × SlidingWindowLimiter :=
  let recent := inWindow windowMs now ((hits.get key).getD [])
  if limit ≤ recent.length then
    (⟨false, max 1 (windowMs - (now - recent.headD 0))⟩, hits.set key recent)
  else (⟨true, 0⟩, hits.set key (recent ++ [now]))

def sweep (hits : SlidingWindowLimiter) (now : Int) (windowMs : Int) : SlidingWindowLimiter :=
  hits.filter fun entry => !entry.2.all fun time => windowMs ≤ now - time

end SlidingWindowLimiter

/-! Sequences of calls. -/

inductive Op where
  | hit (key : String) (now : Int)
  | sweep (now : Int)
  deriving DecidableEq, Repr

def Op.now : Op → Int
  | .hit _ now => now
  | .sweep now => now

def Op.isHit : Op → Bool
  | .hit .. => true
  | .sweep _ => false

/-- A hit that was answered. -/
structure Answered where
  key : String
  now : Int
  result : LimitResult
  deriving DecidableEq, Repr

section
variable (limitOf : String → Nat) (windowMs : Int)

/-- A call, after the answers so far. -/
def step (s : List Answered × SlidingWindowLimiter) : Op → List Answered × SlidingWindowLimiter
  | .hit key now =>
    let r := s.2.hit key (limitOf key) windowMs now
    (s.1 ++ [⟨key, now, r.1⟩], r.2)
  | .sweep now => (s.1, s.2.sweep now windowMs)

/-- The answers to a sequence of calls on a new limiter, and the limiter after them. -/
def run (ops : List Op) : List Answered × SlidingWindowLimiter :=
  ops.foldl (step limitOf windowMs) ([], [])

end

/-- The instants at which hits of a key were allowed. -/
def allowedTimes (key : String) (log : List Answered) : List Int :=
  (log.filter fun x => x.key = key && x.result.allowed).map fun x => x.now

theorem allowedTimes_append (key : String) (log log' : List Answered) :
    allowedTimes key (log ++ log') = allowedTimes key log ++ allowedTimes key log' := by
  simp [allowedTimes]

/-! Windows. -/

section
variable {windowMs : Int} {now now' time : Int} {hits : List Int}

theorem inWindow_append (hits hits' : List Int) :
    inWindow windowMs now (hits ++ hits') =
      inWindow windowMs now hits ++ inWindow windowMs now hits' :=
  List.filter_append ..

/-- What left the window does not come back. -/
theorem inWindow_inWindow (h : now ≤ now') :
    inWindow windowMs now' (inWindow windowMs now hits) = inWindow windowMs now' hits := by
  simp only [inWindow, List.filter_filter]
  refine List.filter_congr fun time _ => ?_
  simp only [Bool.and_eq_left_iff_imp, decide_eq_true_eq]
  omega

/-- The oldest of the hits leaves the window first, so they are all there as long as it is. -/
theorem inWindow_eq_self (hs : hits.Pairwise (· ≤ ·)) (hne : hits ≠ []) :
    inWindow windowMs now hits = hits ↔ now - hits.headD 0 < windowMs := by
  cases hits with
  | nil => exact absurd rfl hne
  | cons oldest rest =>
    simp only [inWindow, List.filter_eq_self, decide_eq_true_eq, List.headD_cons]
    constructor
    · intro h
      exact h oldest List.mem_cons_self
    · intro h time htime
      rcases List.mem_cons.mp htime with rfl | hrest
      · exact h
      · have := List.rel_of_pairwise_cons hs hrest
        omega

/-- The hits of an interval that ends at the last of them are in its window. -/
theorem between_sublist (hnow : ∀ time ∈ hits, time ≤ now) (start : Int)
    (hstop : now < start + windowMs) :
    (hits.filter fun time => start ≤ time && time < start + windowMs).Sublist
      (inWindow windowMs now hits) := by
  have hkept : (hits.filter fun time => start ≤ time && time < start + windowMs) =
      (inWindow windowMs now hits).filter fun time => start ≤ time := by
    simp only [inWindow, List.filter_filter]
    refine List.filter_congr fun time htime => ?_
    have := hnow time htime
    by_cases hstart : start ≤ time
    · simp only [hstart, decide_true, Bool.true_and, decide_eq_decide]
      omega
    · simp [hstart]
  rw [hkept]
  exact List.filter_sublist

end

/-! What a limiter sees. -/

/-- From an instant on, a limiter sees the allowed hits of every key as the log has them. -/
structure Sees (windowMs : Int) (log : List Answered) (hits : SlidingWindowLimiter)
    (now : Int) : Prop where
  nodup : hits.keys.Nodup
  recent : ∀ key now', now ≤ now' →
    inWindow windowMs now' ((hits.get key).getD []) = inWindow windowMs now' (allowedTimes key log)

/-- A log that keeps the limits. -/
structure Kept (limitOf : String → Nat) (windowMs : Int) (log : List Answered) (now : Int) :
    Prop where
  sorted : ∀ key, (allowedTimes key log).Pairwise (· ≤ ·)
  past : ∀ key, ∀ time ∈ allowedTimes key log, time ≤ now
  limited : ∀ key start, ((allowedTimes key log).filter fun time =>
    start ≤ time && time < start + windowMs).length ≤ limitOf key

section
variable {limitOf : String → Nat} {windowMs : Int} {log : List Answered}
  {hits : SlidingWindowLimiter} {now now' : Int}

theorem Sees.later (hs : Sees windowMs log hits now) (h : now ≤ now') :
    Sees windowMs log hits now' :=
  ⟨hs.nodup, fun key later hl => hs.recent key later (h.trans hl)⟩

theorem Kept.later (hk : Kept limitOf windowMs log now) (h : now ≤ now') :
    Kept limitOf windowMs log now' :=
  ⟨hk.sorted, fun key time htime => (hk.past key time htime).trans h, hk.limited⟩

/-- A sweep drops keys of which nothing is in the window any more. -/
theorem Sees.sweep (hs : Sees windowMs log hits now) :
    Sees windowMs log (hits.sweep now windowMs) now := by
  refine ⟨Js.Map.nodup_filter hs.nodup _, fun key later hl => ?_⟩
  rw [← hs.recent key later hl]
  unfold SlidingWindowLimiter.sweep
  rw [Js.Map.get_filter hs.nodup]
  cases hits.get key with
  | none => rfl
  | some times =>
    by_cases hall : (times.all fun time => windowMs ≤ now - time) = true
    · -- The key goes; nothing of it is in a window that ends later.
      have hnone : inWindow windowMs later times = [] := by
        simp only [List.all_eq_true, decide_eq_true_eq] at hall
        simp only [inWindow, List.filter_eq_nil_iff, decide_eq_true_eq]
        intro time htime
        have := hall time htime
        omega
      rw [Option.getD_some, hnone]
      simp [Option.filter, hall, inWindow]
    · simp [Option.filter, hall]

/-- The decision of a hit, read off the log. -/
theorem Sees.hit_eq (hs : Sees windowMs log hits now) (key : String) (limit : Nat) :
    hits.hit key limit windowMs now =
      let recent := inWindow windowMs now (allowedTimes key log)
      if limit ≤ recent.length then
        (⟨false, max 1 (windowMs - (now - recent.headD 0))⟩, hits.set key recent)
      else (⟨true, 0⟩, hits.set key (recent ++ [now])) := by
  unfold SlidingWindowLimiter.hit
  rw [hs.recent key now le_rfl]

theorem allowedTimes_hit (key other : String) (r : LimitResult) :
    allowedTimes other (log ++ [⟨key, now, r⟩]) =
      allowedTimes other log ++ if key = other ∧ r.allowed = true then [now] else [] := by
  rw [allowedTimes_append]
  congr 1
  by_cases h : key = other ∧ r.allowed = true
  · simp [allowedTimes, h]
  · simp only [allowedTimes, if_neg h, List.map_eq_nil_iff, List.filter_eq_nil_iff]
    simpa using h

/-- A hit keeps what the limiter sees, and the limits. -/
theorem Sees.hit (hs : Sees windowMs log hits now) (hk : Kept limitOf windowMs log now)
    (key : String) :
    let r := hits.hit key (limitOf key) windowMs now
    Sees windowMs (log ++ [⟨key, now, r.1⟩]) r.2 now ∧
      Kept limitOf windowMs (log ++ [⟨key, now, r.1⟩]) now := by
  rw [hs.hit_eq]
  dsimp only
  split
  · -- Blocked: the log of allowed hits stays, and the key keeps what is in the window.
    rename_i hfull
    have hsame (other : String) : allowedTimes other
        (log ++ [⟨key, now, ⟨false, max 1 (windowMs - (now -
          (inWindow windowMs now (allowedTimes key log)).headD 0))⟩⟩]) =
        allowedTimes other log := by
      rw [allowedTimes_hit]
      simp
    refine ⟨⟨Js.Map.nodup_set hs.nodup, fun other later hl => ?_⟩, ?_, ?_, ?_⟩
    · rw [hsame, Js.Map.get_set hs.nodup]
      split
      · rename_i heq
        rw [← heq]
        exact inWindow_inWindow hl
      · exact hs.recent other later hl
    · intro other
      rw [hsame]
      exact hk.sorted other
    · intro other
      rw [hsame]
      exact hk.past other
    · intro other
      rw [hsame]
      exact hk.limited other
  · rename_i hroom
    have hlog (other : String) : allowedTimes other (log ++ [⟨key, now, ⟨true, 0⟩⟩]) =
        allowedTimes other log ++ if key = other then [now] else [] := by
      rw [allowedTimes_hit]
      simp
    refine ⟨⟨Js.Map.nodup_set hs.nodup, fun other later hl => ?_⟩, fun other => ?_,
      fun other => ?_, fun other start => ?_⟩
    · rw [hlog, Js.Map.get_set hs.nodup]
      split
      · rename_i heq
        rw [← heq, Option.getD_some, inWindow_append, inWindow_append, inWindow_inWindow hl]
      · rw [List.append_nil]
        exact hs.recent other later hl
    · rw [hlog]
      split
      · refine List.pairwise_append.mpr ⟨hk.sorted other, List.pairwise_singleton _ _, ?_⟩
        intro time htime last hlast
        rw [List.mem_singleton.mp hlast]
        exact hk.past other time htime
      · rw [List.append_nil]
        exact hk.sorted other
    · rw [hlog]
      intro time htime
      rcases List.mem_append.mp htime with hold | hnew
      · exact hk.past other time hold
      · split at hnew
        · rw [List.mem_singleton.mp hnew]
        · cases hnew
    · rw [hlog, List.filter_append, List.length_append]
      have hold := hk.limited other start
      split
      · rename_i heq
        subst heq
        by_cases hin : start ≤ now ∧ now < start + windowMs
        · -- The interval reaches the new hit, so what it holds is in the window of the hit.
          have hsub := (between_sublist (hk.past key) start hin.2).length_le
          have hone : ([now].filter fun time => start ≤ time && time < start + windowMs).length = 1 := by
            simp [hin]
          omega
        · have hnone : ([now].filter fun time => start ≤ time && time < start + windowMs) = [] := by
            simp only [List.filter_eq_nil_iff, List.mem_singleton, forall_eq]
            simpa using hin
          rw [hnone]
          exact hold
      · simpa using hold

end

/-! Whole sequences. -/

/-- Calls in the order of their instants. -/
def Chronological (ops : List Op) : Prop := (ops.map Op.now).Pairwise (· ≤ ·)

instance (ops : List Op) : Decidable (Chronological ops) :=
  inferInstanceAs (Decidable (List.Pairwise _ _))

section
variable {limitOf : String → Nat} {windowMs : Int} {ops pre post mid : List Op} {op : Op}
  {key : String} {now now' : Int}

theorem exists_last (ops : List Op) : ∃ last, ∀ op ∈ ops, op.now ≤ last := by
  induction ops with
  | nil => exact ⟨0, by simp⟩
  | cons op ops ih =>
    obtain ⟨last, hlast⟩ := ih
    refine ⟨max op.now last, ?_⟩
    simp only [List.forall_mem_cons]
    exact ⟨le_max_left _ _, fun x hx => (hlast x hx).trans (le_max_right _ _)⟩

theorem Chronological.left (h : Chronological (pre ++ post)) : Chronological pre := by
  unfold Chronological at h
  rw [List.map_append] at h
  exact (List.pairwise_append.mp h).1

theorem Chronological.before (h : Chronological (pre ++ op :: post)) :
    ∀ x ∈ pre, x.now ≤ op.now := by
  unfold Chronological at h
  rw [List.map_append] at h
  intro x hx
  exact (List.pairwise_append.mp h).2.2 _ (List.mem_map_of_mem hx) _ List.mem_cons_self

theorem run_append (pre post : List Op) :
    run limitOf windowMs (pre ++ post) =
      post.foldl (step limitOf windowMs) (run limitOf windowMs pre) :=
  List.foldl_append ..

/-- After calls up to an instant, the limiter sees what its answers say, and they keep the
    limits. -/
theorem run_sees (limitOf : String → Nat) (windowMs : Int) (ho : Chronological ops)
    (hl : ∀ op ∈ ops, op.now ≤ now) :
    Sees windowMs (run limitOf windowMs ops).1 (run limitOf windowMs ops).2 now ∧
      Kept limitOf windowMs (run limitOf windowMs ops).1 now := by
  induction ops using List.reverseRecOn generalizing now with
  | nil =>
    refine ⟨⟨List.nodup_nil, fun key now' _ => rfl⟩, fun key => List.Pairwise.nil, ?_, ?_⟩
    · intro key time htime
      cases htime
    · intro key start
      exact Nat.zero_le _
  | append_singleton ops op ih =>
    have hop : op.now ≤ now := hl op (List.mem_append_right _ List.mem_cons_self)
    obtain ⟨hs, hk⟩ := ih ho.left ho.before
    rw [run_append, List.foldl_cons, List.foldl_nil]
    cases op with
    | hit key time =>
      obtain ⟨hs', hk'⟩ := hs.hit hk key
      exact ⟨hs'.later hop, hk'.later hop⟩
    | sweep time => exact ⟨hs.sweep.later hop, hk.later hop⟩

theorem Chronological.filter (h : Chronological ops) (p : Op → Bool) :
    Chronological (ops.filter p) :=
  List.Pairwise.sublist (List.filter_sublist.map _) h

/-- Sweeps change no answer. -/
theorem run_hits (ho : Chronological ops) :
    (run limitOf windowMs (ops.filter Op.isHit)).1 = (run limitOf windowMs ops).1 := by
  induction ops using List.reverseRecOn with
  | nil => rfl
  | append_singleton ops op ih =>
    have ih := ih ho.left
    rw [List.filter_append, run_append, run_append, List.foldl_cons, List.foldl_nil]
    cases op with
    | sweep time => exact ih
    | hit key time =>
      have hbefore : ∀ x ∈ ops, x.now ≤ time := ho.before
      have hs := (run_sees limitOf windowMs ho.left hbefore).1
      have hs' := (run_sees limitOf windowMs (ho.left.filter Op.isHit)
        fun x hx => hbefore x (List.mem_filter.mp hx).1).1
      show _ ++ [_] = _ ++ [_]
      rw [hs.hit_eq, hs'.hit_eq, ih]
      dsimp only
      split <;> rfl

/-- Calls that are no hit of a key leave its allowed hits as they were. -/
theorem allowedTimes_foldl (hmid : ∀ now, Op.hit key now ∉ mid)
    (s : List Answered × SlidingWindowLimiter) :
    allowedTimes key (mid.foldl (step limitOf windowMs) s).1 = allowedTimes key s.1 := by
  induction mid generalizing s with
  | nil => rfl
  | cons op mid ih =>
    rw [List.foldl_cons, ih fun now hm => hmid now (List.mem_cons_of_mem _ hm)]
    cases op with
    | sweep time => rfl
    | hit other time =>
      have hne : other ≠ key := by
        intro h
        subst h
        exact hmid time List.mem_cons_self
      show allowedTimes key (s.1 ++ [_]) = _
      rw [allowedTimes_hit]
      simp [hne]

/-- A blocked hit finds the window full to the limit, and names the delay after which the oldest
    of the hits in it leaves. -/
theorem blocked (hlimit : 1 ≤ limitOf key) (ho : Chronological (pre ++ [.hit key now]))
    (hb : ((run limitOf windowMs pre).2.hit key (limitOf key) windowMs now).1.allowed = false) :
    let recent := inWindow windowMs now (allowedTimes key (run limitOf windowMs pre).1)
    recent.length = limitOf key ∧ recent ≠ [] ∧ recent.Pairwise (· ≤ ·) ∧
      ((run limitOf windowMs pre).2.hit key (limitOf key) windowMs now).1.retryAfterMs =
        windowMs - (now - recent.headD 0) := by
  obtain ⟨hs, hk⟩ := run_sees limitOf windowMs ho.left ho.before
  change Sees windowMs _ _ now at hs
  change Kept limitOf windowMs _ now at hk
  intro recent
  have hfull : limitOf key ≤ recent.length := by
    by_contra hroom
    rw [hs.hit_eq] at hb
    dsimp only at hb
    rw [if_neg hroom] at hb
    cases hb
  have hsorted : recent.Pairwise (· ≤ ·) := (hk.sorted key).sublist List.filter_sublist
  have hne : recent ≠ [] := by
    intro h
    rw [h] at hfull
    simp at hfull
    omega
  have hlength : recent.length = limitOf key := by
    refine le_antisymm ?_ hfull
    -- The window is the interval that begins just after the instant `windowMs` before.
    refine le_trans (List.Sublist.length_le ?_) (hk.limited key (now - windowMs + 1))
    have heq : recent = (allowedTimes key (run limitOf windowMs pre).1).filter fun time =>
        now - windowMs + 1 ≤ time && time < now - windowMs + 1 + windowMs := by
      refine List.filter_congr fun time htime => ?_
      have := hk.past key time htime
      rw [← Bool.decide_and, decide_eq_decide]
      omega
    rw [heq]
  refine ⟨hlength, hne, hsorted, ?_⟩
  have hin : now - recent.headD 0 < windowMs := by
    refine (inWindow_eq_self hsorted hne).mp ?_
    exact inWindow_inWindow le_rfl
  rw [hs.hit_eq]
  dsimp only
  rw [if_pos hfull]
  show max 1 (windowMs - (now - recent.headD 0)) = _
  omega

/-- With no other hit of the key, the next one is allowed from the delay on. -/
theorem next_allowed (hlimit : 1 ≤ limitOf key)
    (ho : Chronological (pre ++ .hit key now :: (mid ++ .hit key now' :: post)))
    (hb : ((run limitOf windowMs pre).2.hit key (limitOf key) windowMs now).1.allowed = false)
    (hmid : ∀ time, Op.hit key time ∉ mid) :
    ((run limitOf windowMs (pre ++ .hit key now :: mid)).2.hit key (limitOf key) windowMs
        now').1.allowed = true ↔
      now + ((run limitOf windowMs pre).2.hit key (limitOf key) windowMs now).1.retryAfterMs ≤
        now' := by
  have hfirst : Chronological (pre ++ [.hit key now]) := by
    rw [List.append_cons] at ho
    exact ho.left
  have hsecond : Chronological ((pre ++ .hit key now :: mid) ++ .hit key now' :: post) := by
    rwa [List.append_assoc]
  have hle : now ≤ now' := hsecond.before (.hit key now) (by simp)
  obtain ⟨hlength, hne, hsorted, hretry⟩ := blocked hlimit hfirst hb
  have hs := (run_sees limitOf windowMs hsecond.left hsecond.before).1
  change Sees windowMs _ _ now' at hs
  have hlog : allowedTimes key (run limitOf windowMs (pre ++ .hit key now :: mid)).1 =
      allowedTimes key (run limitOf windowMs pre).1 := by
    rw [run_append, List.foldl_cons, allowedTimes_foldl hmid]
    show allowedTimes key (_ ++ [_]) = _
    rw [allowedTimes_hit]
    simp [hb]
  rw [hretry, hs.hit_eq, hlog, ← inWindow_inWindow hle]
  generalize inWindow windowMs now (allowedTimes key (run limitOf windowMs pre).1) = recent
    at hlength hne hsorted
  -- Full again exactly when none of the hits has left, that is when the oldest has not.
  have hfull : limitOf key ≤ (inWindow windowMs now' recent).length ↔
      now' - recent.headD 0 < windowMs := by
    rw [← inWindow_eq_self hsorted hne, ← hlength]
    exact (List.filter_sublist.length_eq.symm.trans ⟨ge_of_eq, fun h =>
      le_antisymm List.filter_sublist.length_le h⟩).symm
  dsimp only
  split
  · rename_i h
    have := hfull.mp h
    constructor
    · intro hf
      cases hf
    · intro hd
      omega
  · rename_i h
    rw [hfull] at h
    constructor
    · intro _
      omega
    · intro _
      rfl

end

/-- The limiter is a sliding window. Every interval of the length of the window holds at most
    `limitOf` allowed hits of a key; a hit is blocked only when the interval that ends with it
    holds that many; the delay it is given is the one after which a hit of the key is next
    allowed, whatever other keys and sweeps come between; and sweeps change no answer. -/
theorem sliding_window (limitOf : String → Nat) (windowMs : Int) (hlimit : ∀ key, 1 ≤ limitOf key)
    (ops : List Op) (ho : Chronological ops) :
    (∀ key start, ((allowedTimes key (run limitOf windowMs ops).1).filter fun time =>
      start ≤ time && time < start + windowMs).length ≤ limitOf key) ∧
    (∀ pre key now post, ops = pre ++ .hit key now :: post →
      ((run limitOf windowMs pre).2.hit key (limitOf key) windowMs now).1.allowed = false →
      ((allowedTimes key (run limitOf windowMs pre).1).filter fun time =>
        now - windowMs < time && time ≤ now).length = limitOf key) ∧
    (∀ pre key now mid now' post, ops = pre ++ .hit key now :: (mid ++ .hit key now' :: post) →
      ((run limitOf windowMs pre).2.hit key (limitOf key) windowMs now).1.allowed = false →
      (∀ time, .hit key time ∉ mid) →
      (((run limitOf windowMs (pre ++ .hit key now :: mid)).2.hit key (limitOf key) windowMs
          now').1.allowed = true ↔
        now + ((run limitOf windowMs pre).2.hit key (limitOf key) windowMs now).1.retryAfterMs ≤
          now')) ∧
    (∀ ops', Chronological ops' → ops'.filter Op.isHit = ops.filter Op.isHit →
      (run limitOf windowMs ops').1 = (run limitOf windowMs ops).1) := by
  refine ⟨?_, ?_, ?_, ?_⟩
  · intro key start
    obtain ⟨last, hlast⟩ := exists_last ops
    exact (run_sees limitOf windowMs ho hlast).2.limited key start
  · intro pre key now post heq hb
    subst heq
    have hfirst : Chronological (pre ++ [.hit key now]) := by
      rw [List.append_cons] at ho
      exact ho.left
    rw [← (blocked (hlimit key) hfirst hb).1]
    congr 1
    refine List.filter_congr fun time htime => ?_
    have := (run_sees limitOf windowMs ho.left ho.before).2.past key time htime
    change time ≤ now at this
    rw [← Bool.decide_and, decide_eq_decide]
    omega
  · intro pre key now mid now' post heq hb hmid
    subst heq
    exact next_allowed (hlimit key) ho hb hmid
  · intro ops' ho' heq
    rw [← run_hits ho, ← run_hits ho', heq]

/-- Two hits allowed in a second: the third has to wait for the first to leave. -/
theorem sliding_window_twice :
    (((run (fun _ => 2) 1000 [.hit "ip" 0, .hit "ip" 300, .sweep 400]).2.hit "ip" 2 1000
      500).1.retryAfterMs = 500) ∧
    (((run (fun _ => 2) 1000 [.hit "ip" 0, .hit "ip" 300, .sweep 400, .hit "ip" 500]).2.hit "ip" 2
      1000 1000).1.allowed = true) := by
  have hretry : ((run (fun _ => 2) 1000 [.hit "ip" 0, .hit "ip" 300, .sweep 400]).2.hit "ip" 2 1000
      500).1 = ⟨false, 500⟩ := by decide
  have hnext := (sliding_window (fun _ => 2) 1000 (fun _ => by decide)
    [.hit "ip" 0, .hit "ip" 300, .sweep 400, .hit "ip" 500, .hit "ip" 1000] (by decide)).2.2.1
    [.hit "ip" 0, .hit "ip" 300, .sweep 400] "ip" 500 [] 1000 [] rfl
    (congrArg LimitResult.allowed hretry) (fun _ => List.not_mem_nil)
  refine ⟨congrArg LimitResult.retryAfterMs hretry, hnext.mpr ?_⟩
  rw [hretry]
  decide

/-! The limits of the registration. -/

def createPerIpPerHour : Nat := 5
def verificationEmailsPerCorreoPerHour : Nat := 3
def verifyPerIpPerHour : Nat := 10
def resendPerIpPerHour : Nat := 10
def windowMs : Int := hour

structure RegistrationLimits where
  limiter : SlidingWindowLimiter
  hits : Nat

/-- The routes that are limited by address. -/
inductive Bucket where
  | create
  | verify
  | resend
  deriving DecidableEq, Repr

def Bucket.text : Bucket → String
  | .create => "create"
  | .verify => "verify"
  | .resend => "resend"

def Bucket.limit : Bucket → Nat
  | .create => createPerIpPerHour
  | .verify => verifyPerIpPerHour
  | .resend => resendPerIpPerHour

/-- An attempt: at a route from an address, or at an email to a person. -/
inductive Attempt where
  | route (bucket : Bucket) (ip : String)
  | email (correo : String)
  deriving DecidableEq, Repr

def Attempt.key : Attempt → String
  | .route bucket ip => s!"ip:{bucket.text}:{ip}"
  | .email correo => s!"mail:{correo}"

def Attempt.limit : Attempt → Nat
  | .route bucket _ => bucket.limit
  | .email _ => verificationEmailsPerCorreoPerHour

namespace RegistrationLimits

def sweepSometimes (s : RegistrationLimits) (now : Int) : RegistrationLimits :=
  let hits := s.hits + 1
  ⟨if hits % 200 = 0 then s.limiter.sweep now windowMs else s.limiter, hits⟩

/-- `hitIp` and `allowVerificationEmail`, which read the clock for the sweep and for the hit. -/
def attempt (s : RegistrationLimits) (a : Attempt) (swept now : Int) :
    LimitResult × RegistrationLimits :=
  let s := s.sweepSometimes swept
  let r := s.limiter.hit a.key a.limit windowMs now
  (r.1, ⟨r.2, s.hits⟩)

/-- The answers to attempts, and the limits after them. -/
def answers (s : RegistrationLimits) : List (Attempt × Int × Int) → List Answered × RegistrationLimits
  | [] => ([], s)
  | (a, swept, now) :: rest =>
    let r := s.attempt a swept now
    let rest := answers r.2 rest
    (⟨a.key, now, r.1⟩ :: rest.1, rest.2)

end RegistrationLimits

/-- The calls of the limiter that attempts make, when `hits` were made before. -/
def calls (hits : Nat) : List (Attempt × Int × Int) → List Op
  | [] => []
  | (a, swept, now) :: rest =>
    (if (hits + 1) % 200 = 0 then [.sweep swept, .hit a.key now] else [.hit a.key now]) ++
      calls (hits + 1) rest

theorem answers_eq (limitOf : String → Nat) (attempts : List (Attempt × Int × Int))
    (hlimit : ∀ x ∈ attempts, limitOf x.1.key = x.1.limit) (s : RegistrationLimits)
    (log : List Answered) :
    (calls s.hits attempts).foldl (step limitOf windowMs) (log, s.limiter) =
      (log ++ (s.answers attempts).1, (s.answers attempts).2.limiter) := by
  induction attempts generalizing s log with
  | nil => simp [calls, RegistrationLimits.answers]
  | cons x rest ih =>
    obtain ⟨a, swept, now⟩ := x
    have ha : limitOf a.key = a.limit := hlimit _ List.mem_cons_self
    have ih := ih fun x hx => hlimit x (List.mem_cons_of_mem _ hx)
    rw [calls, List.foldl_append, RegistrationLimits.answers]
    have hstep : (if (s.hits + 1) % 200 = 0 then [Op.sweep swept, .hit a.key now]
        else [.hit a.key now]).foldl (step limitOf windowMs) (log, s.limiter) =
        (log ++ [⟨a.key, now, (s.attempt a swept now).1⟩], (s.attempt a swept now).2.limiter) := by
      unfold RegistrationLimits.attempt RegistrationLimits.sweepSometimes
      by_cases hsweep : (s.hits + 1) % 200 = 0 <;> simp [step, ha, hsweep]
    have hhits : (s.attempt a swept now).2.hits = s.hits + 1 := rfl
    rw [hstep, ← hhits, ih]
    simp

/-- Attempts are answered as by a limiter that never sweeps. -/
theorem registration_limits (limitOf : String → Nat) (attempts : List (Attempt × Int × Int))
    (hlimit : ∀ x ∈ attempts, limitOf x.1.key = x.1.limit)
    (ho : Chronological (calls 0 attempts)) :
    (RegistrationLimits.answers ⟨[], 0⟩ attempts).1 =
      (run limitOf windowMs (attempts.map fun x => .hit x.1.key x.2.2)).1 := by
  have hhits : ∀ (hits : Nat), (calls hits attempts).filter Op.isHit =
      attempts.map fun x => .hit x.1.key x.2.2 := by
    clear hlimit ho
    induction attempts with
    | nil => intro hits; rfl
    | cons x rest ih =>
      intro hits
      rw [calls, List.filter_append, ih]
      split <;> rfl
  have hrun := answers_eq limitOf attempts hlimit ⟨[], 0⟩ []
  rw [← hhits 0, run_hits ho]
  unfold run
  change _ = (List.foldl _ ([], (⟨[], 0⟩ : RegistrationLimits).limiter) _).1
  rw [hrun, List.nil_append]

end Bazar.Registration
