import Mathlib.Order.Nat
import BazarApi.Js.KeyedQueue

/- Whole runs of the calls in line: phases only go on, a job that is due is run in its turn, and in
   a fair run every call comes to its end (`Run.done`). -/

namespace KeyedQueue
variable {K R : Type} [DecidableEq K]

namespace Phase
variable {p q : Phase}

theorem lt_of_ne (h : p.rank ≤ q.rank) (hne : q ≠ p) : p.rank < q.rank := by
  cases p <;> cases q <;> simp_all [rank]

theorem rank_of_not_idle (h : p ≠ .idle) : 1 ≤ p.rank := by
  cases p <;> simp_all [rank]

end Phase

/-! What one event does to the phases and to the line. -/

section
variable {s s' : State K R} {n : Nat}

/-- No call goes back. -/
theorem rank_mono (hi : Inv s) {event : Event K R} (hs : s.step event = some s') (n : Nat) :
    (s.phase n).rank ≤ (s'.phase n).rank := by
  obtain ⟨hp, ho, -⟩ := hi
  have hput {p q : Phase} {m : Nat} (hm : s.phase m = p) (hpq : p.rank ≤ q.rank) :
      (s.phase n).rank ≤ (Function.update s.phase m q n).rank := by
    by_cases hn : n = m
    · rw [hn, Function.update_self, hm]
      exact hpq
    · rw [Function.update_of_ne hn]
  cases State.step_cases hs with
  | call key =>
    have hidle := (ho.fresh hp).1
    cases hb : s.before key with
    | none =>
      rw [State.call_none hb]
      exact hput hidle (by decide)
    | some m =>
      rw [State.call_some hb]
      exact hput hidle (by decide)
  | invoke _ _ hn => exact hput hn (by decide)
  | adopt _ _ hn => exact hput hn (by decide)
  | adoptSettled _ _ hn => exact hput hn (by decide)
  | pass _ _ hn => exact hput hn (by decide)
  | release _ _ hn => exact hput hn (by decide)
  | @releaseNext _ m _ _ _ hn hm =>
    obtain ⟨hwaiting, -⟩ := ho.waiting (by rw [hn]; decide) hm
    dsimp only
    by_cases hnm : n = m
    · rw [hnm, Function.update_self, hwaiting]
      decide
    · rw [Function.update_of_ne hnm]
      exact hput hn (by decide)
  | forget _ _ hn => exact hput hn (by decide)
  | returned hcurrent => exact hput ((hp.current _).mp hcurrent) (by decide)
  | threw hcurrent => exact hput ((hp.current _).mp hcurrent) (by decide)
  | settleAdopted hn => exact hput hn (by decide)
  | settleEarly => exact Nat.le_refl _

/-- Calls get in line behind. -/
theorem line_grows {event : Event K R} (hevent : event ≠ .job) (hs : s.step event = some s') :
    ∃ post, s'.line = s.line ++ post := by
  cases State.step_cases hs with
  | call key =>
    cases hb : s.before key with
    | none =>
      rw [State.call_none hb]
      exact ⟨_, rfl⟩
    | some m =>
      rw [State.call_some hb]
      exact ⟨[], (List.append_nil _).symm⟩
  | returned => exact ⟨_, rfl⟩
  | threw => exact ⟨_, rfl⟩
  | settleAdopted => exact ⟨_, rfl⟩
  | settleEarly => exact ⟨[], (List.append_nil _).symm⟩
  | _ => exact absurd rfl hevent

/-- The first of the line goes on, and the others move up. -/
theorem line_moves (hi : Inv s) (hs : s.step .job = some s') :
    ∃ n line post, s.line = n :: line ∧ s'.line = line ++ post ∧
      (s.phase n).rank < (s'.phase n).rank := by
  have hput {p q : Phase} {n : Nat} (hn : s.phase n = p) (hpq : p.rank < q.rank) :
      (s.phase n).rank < (Function.update s.phase n q n).rank := by
    rw [hn, Function.update_self]
    exact hpq
  cases State.step_cases hs with
  | invoke _ hline hn => exact ⟨_, _, [], hline, (List.append_nil _).symm, hput hn (by decide)⟩
  | adopt _ hline hn => exact ⟨_, _, [], hline, (List.append_nil _).symm, hput hn (by decide)⟩
  | adoptSettled _ hline hn => exact ⟨_, _, _, hline, rfl, hput hn (by decide)⟩
  | pass _ hline hn => exact ⟨_, _, _, hline, rfl, hput hn (by decide)⟩
  | release _ hline hn => exact ⟨_, _, _, hline, rfl, hput hn (by decide)⟩
  | @releaseNext n m _ _ hline hn hm =>
    have hne : n ≠ m := Nat.ne_of_lt (hi.inOrder.waiting (by rw [hn]; decide) hm).2
    refine ⟨n, _, [n] ++ [m], hline, List.append_assoc _ _ _, ?_⟩
    dsimp only
    rw [Function.update_of_ne hne]
    exact hput hn (by decide)
  | forget _ hline hn => exact ⟨_, _, [], hline, (List.append_nil _).symm, hput hn (by decide)⟩

end

/-! Runs. -/

/-- A run, with nothing at some times. -/
structure Run (K R : Type) [DecidableEq K] where
  state : Nat → State K R
  event : Nat → Option (Event K R)
  start : state 0 = .empty
  next : ∀ i, match event i with
    | some event => (state i).step event = some (state (i + 1))
    | none => state (i + 1) = state i

/-- What is due is run, what is on the stack leaves it, and what began ends. -/
structure Fair (run : Run K R) : Prop where
  jobs : ∀ i, (run.state i).line ≠ [] → ∃ j, i ≤ j ∧ run.event j = some .job
  stack : ∀ i n, (run.state i).current = some n → ∃ j, i ≤ j ∧ (run.state j).current = none
  units : ∀ i n, n ∈ (run.state i).started → ∃ j, i ≤ j ∧ (run.state j).outcome n ≠ none

namespace Run
variable {run : Run K R} {n : Nat}

theorem inv (run : Run K R) (i : Nat) : Inv (run.state i) := by
  induction i with
  | zero =>
    rw [run.start]
    exact .empty
  | succ i ih =>
    have h := run.next i
    split at h
    · exact ih.step h
    · rwa [h]

theorem rank_mono (run : Run K R) {i j : Nat} (hij : i ≤ j) (n : Nat) :
    ((run.state i).phase n).rank ≤ ((run.state j).phase n).rank := by
  induction hij with
  | refl => exact Nat.le_refl _
  | @step j _ ih =>
    have h := run.next j
    split at h
    · exact Nat.le_trans ih (KeyedQueue.rank_mono (run.inv j) h n)
    · rwa [h]

/-- Until the next job nobody leaves the line. -/
theorem line_until (run : Run K R) {i j : Nat} (hij : i ≤ j)
    (hno : ∀ l, i ≤ l → l < j → run.event l ≠ some .job) :
    ∃ post, (run.state j).line = (run.state i).line ++ post := by
  induction hij with
  | refl => exact ⟨[], (List.append_nil _).symm⟩
  | @step j hij ih =>
    obtain ⟨post, hpost⟩ := ih fun l hl hlj => hno l hl (Nat.lt_succ_of_lt hlj)
    have h := run.next j
    split at h
    case h_1 event hevent =>
      have hjob : event ≠ .job := by
        rintro rfl
        exact hno j hij (Nat.lt_succ_self j) hevent
      obtain ⟨more, hmore⟩ := line_grows hjob h
      exact ⟨post ++ more, by rw [hmore, hpost, List.append_assoc]⟩
    case h_2 =>
      rw [h]
      exact ⟨post, hpost⟩

/-- The first job from a time on. -/
theorem next_job (hf : Fair run) {i : Nat} (hline : (run.state i).line ≠ []) :
    ∃ j, i ≤ j ∧ run.event j = some .job ∧ ∀ l, i ≤ l → l < j → run.event l ≠ some .job := by
  classical
  have h := hf.jobs i hline
  refine ⟨Nat.find h, (Nat.find_spec h).1, (Nat.find_spec h).2, ?_⟩
  intro l hil hl hjob
  exact Nat.find_min h hl ⟨hil, hjob⟩

/-- Whoever is in line goes on in turn. -/
theorem turn (hf : Fair run) (pre post : List Nat) (i : Nat)
    (hline : (run.state i).line = pre ++ n :: post) :
    ∃ j, i < j ∧ ((run.state i).phase n).rank < ((run.state j).phase n).rank := by
  induction pre generalizing i post with
  | nil =>
    obtain ⟨j, hij, hjob, hno⟩ := next_job hf (i := i) (by rw [hline]; simp)
    obtain ⟨more, hmore⟩ := run.line_until hij hno
    have hstep := run.next j
    rw [hjob] at hstep
    obtain ⟨m, line, post', hfirst, -, hrank⟩ := line_moves (run.inv j) hstep
    have hm : n = m := by
      rw [hmore, hline] at hfirst
      exact (List.cons.inj hfirst).1
    have hmono := run.rank_mono hij n
    rw [← hm] at hrank
    exact ⟨j + 1, by omega, by omega⟩
  | cons m pre ih =>
    obtain ⟨j, hij, hjob, hno⟩ := next_job hf (i := i) (by rw [hline]; simp)
    obtain ⟨more, hmore⟩ := run.line_until hij hno
    have hstep := run.next j
    rw [hjob] at hstep
    obtain ⟨m', line, post', hfirst, hrest, -⟩ := line_moves (run.inv j) hstep
    have hleft : (run.state (j + 1)).line = pre ++ n :: (post ++ more ++ post') := by
      rw [hmore, hline] at hfirst
      rw [hrest, ← (List.cons.inj hfirst).2]
      simp
    obtain ⟨k, hjk, hrank⟩ := ih _ (j + 1) hleft
    have hmono := run.rank_mono (by omega : i ≤ j + 1) n
    exact ⟨k, by omega, by omega⟩

/-- A call goes on that waits for none that has the key. -/
theorem goes_on (hf : Fair run) {i : Nat} (hcalled : (run.state i).phase n ≠ .idle)
    (hrank : ((run.state i).phase n).rank < 9)
    (hfreed : ∀ m, m < n → ((run.state i).phase m).Freed) :
    ∃ j, i < j ∧ ((run.state i).phase n).rank < ((run.state j).phase n).rank := by
  obtain ⟨hp, ho, -⟩ := run.inv i
  have hturn (h : ((run.state i).phase n).InLine) :
      ∃ j, i < j ∧ ((run.state i).phase n).rank < ((run.state j).phase n).rank := by
    obtain ⟨pre, post, hline⟩ := List.append_of_mem ((hp.line n).mpr h)
    exact turn hf pre post i hline
  cases hphase : (run.state i).phase n with
  | idle => exact absurd hphase hcalled
  | waiting =>
    obtain ⟨m, hm⟩ := ho.waits n hphase
    obtain ⟨hlt, -, -, -, hiff⟩ := ho.waiter m n hm
    exact absurd (hfreed m hlt) (hiff.mp hphase)
  | invoked =>
    obtain ⟨j, hij, hj⟩ := hf.stack i n ((hp.current n).mpr hphase)
    have hmono := run.rank_mono hij n
    have hne : (run.state j).phase n ≠ .invoked := by
      rw [ne_eq, ← (run.inv j).placed.current, hj]
      nofun
    rw [hphase] at hmono
    have hlt := Phase.lt_of_ne hmono hne
    refine ⟨j, Nat.lt_of_le_of_ne hij ?_, hlt⟩
    rintro rfl
    exact hne hphase
  | adopted =>
    obtain ⟨j, hij, hj⟩ := hf.units i n ((hp.started n).mpr (by rw [hphase]; decide))
    have hmono := run.rank_mono hij n
    have hne : (run.state j).phase n ≠ .adopted := fun h => hj ((run.inv j).placed.adopted n h)
    rw [hphase] at hmono
    have hlt := Phase.lt_of_ne hmono hne
    refine ⟨j, Nat.lt_of_le_of_ne hij ?_, hlt⟩
    rintro rfl
    exact hne hphase
  | queued => exact hphase ▸ hturn (by rw [hphase]; simp [Phase.InLine])
  | adopting => exact hphase ▸ hturn (by rw [hphase]; simp [Phase.InLine])
  | passing => exact hphase ▸ hturn (by rw [hphase]; simp [Phase.InLine])
  | finished => exact hphase ▸ hturn (by rw [hphase]; simp [Phase.InLine])
  | tailed => exact hphase ▸ hturn (by rw [hphase]; simp [Phase.InLine])
  | done =>
    rw [hphase] at hrank
    exact absurd hrank (by decide)

theorem called_later {i j : Nat} (hij : i ≤ j) (h : (run.state i).phase n ≠ .idle) :
    (run.state j).phase n ≠ .idle := by
  have hmono := Nat.le_trans (Phase.rank_of_not_idle h) (run.rank_mono hij n)
  intro hidle
  rw [hidle] at hmono
  exact absurd hmono (by decide)

/-- Step by step to its end. -/
theorem done_after (hf : Fair run) (left : Nat) {i : Nat} (hcalled : (run.state i).phase n ≠ .idle)
    (hfreed : ∀ m, m < n → ((run.state i).phase m).Freed)
    (hleft : 9 ≤ ((run.state i).phase n).rank + left) :
    ∃ j, i ≤ j ∧ 9 ≤ ((run.state j).phase n).rank := by
  induction left generalizing i with
  | zero => exact ⟨i, Nat.le_refl i, hleft⟩
  | succ left ih =>
    by_cases hdone : 9 ≤ ((run.state i).phase n).rank
    · exact ⟨i, Nat.le_refl i, hdone⟩
    · obtain ⟨j, hij, hrank⟩ := goes_on hf hcalled (by omega) hfreed
      have hle := Nat.le_of_lt hij
      obtain ⟨k, hjk, hk⟩ := ih (called_later hle hcalled)
        (fun m hm => Nat.le_trans (hfreed m hm) (run.rank_mono hle m)) (by omega)
      exact ⟨k, Nat.le_trans hle hjk, hk⟩

/-- In a fair run every call comes to its end. -/
theorem done (hf : Fair run) (n i : Nat) (hcalled : (run.state i).phase n ≠ .idle) :
    ∃ j, i ≤ j ∧ 9 ≤ ((run.state j).phase n).rank := by
  induction n using Nat.strong_induction_on generalizing i with
  | _ n ih =>
    -- All the calls before, whatever their keys.
    have hbefore (b : Nat) (hb : b ≤ n) : ∃ j, i ≤ j ∧ ∀ m, m < b → ((run.state j).phase m).Freed := by
      induction b with
      | zero => exact ⟨i, Nat.le_refl i, fun m hm => absurd hm (Nat.not_lt_zero m)⟩
      | succ b ihb =>
        obtain ⟨j, hij, hj⟩ := ihb (by omega)
        have hlength := ((run.inv i).placed.called n).mp hcalled
        have hbcalled := ((run.inv i).placed.called b).mpr (by omega)
        obtain ⟨k, hjk, hk⟩ := ih b (by omega) j (called_later hij hbcalled)
        refine ⟨k, Nat.le_trans hij hjk, ?_⟩
        intro m hm
        rcases Nat.lt_or_eq_of_le (Nat.le_of_lt_succ hm) with hlt | rfl
        · exact Nat.le_trans (hj m hlt) (run.rank_mono hjk m)
        · exact Nat.le_trans (by decide) hk
    obtain ⟨j, hij, hj⟩ := hbefore n (Nat.le_refl n)
    obtain ⟨k, hjk, hk⟩ := done_after hf 9 (called_later hij hcalled) hj (Nat.le_add_left _ _)
    exact ⟨k, Nat.le_trans hij hjk, hk⟩

end Run

/-! What callers rely on. -/

/-- Two calls of a key do not run at a time. -/
theorem Inv.alone {s : State K R} (h : Inv s) {m n : Nat} (hm : m ∈ s.started)
    (hmo : s.outcome m = none) (hn : n ∈ s.started) (hno : s.outcome n = none)
    (hkey : s.calls[m]? = s.calls[n]?) : m = n := by
  have hlater (i j : Nat) (hij : i < j) (hi : s.outcome i = none) (hj : j ∈ s.started)
      (hkey : s.calls[i]? = s.calls[j]?) : False := by
    have hbegun := (h.placed.started j).mp hj
    have hlength := h.placed.called_of_started hj
    have hwaiting : s.phase j ≠ .waiting := by
      intro hw
      rw [hw] at hbegun
      exact absurd hbegun (by decide)
    have hfreed := h.inOrder.order i j hij hlength hkey hwaiting
    exact h.placed.ended i (Nat.le_trans (by decide) hfreed) hi
  rcases Nat.lt_trichotomy m n with hlt | rfl | hlt
  · exact (hlater m n hlt hmo hn hkey).elim
  · rfl
  · exact (hlater n m hlt hno hm hkey.symm).elim

end KeyedQueue
