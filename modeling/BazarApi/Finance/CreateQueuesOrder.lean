import BazarApi.Finance.CreateQueuesLine
import BazarApi.Js.KeyedQueueRuns

/- The creations of a context run one at a time and in the order of their calls, and every one of
   them runs: what holds of the line in every run (`KeyedQueue.Inv`, `KeyedQueue.Run.done`), of the
   promises that stand for it. -/
open Promise

namespace Bazar.Finance.CreateQueues

section
variable {K V : Type} [DecidableEq K] {undefined : V}

namespace Trace
variable (trace : Trace K V undefined)

/-- The line at each time. -/
def line : Nat → KeyedQueue.State K (Result V)
  | 0 => .empty
  | i + 1 =>
    match trace.event i with
    | some event => ((line i).step (eventOf event)).getD (line i)
    | none => line i

theorem line_stands (i : Nat) : Stands undefined (trace.state i) (trace.line i) ∧
    KeyedQueue.Inv (trace.line i) := by
  induction i with
  | zero =>
    rw [trace.start]
    exact ⟨.empty, .empty⟩
  | succ i ih =>
    have h := trace.next i
    rw [line]
    cases hevent : trace.event i with
    | some event =>
      rw [hevent] at h
      obtain ⟨b, hb, hstands⟩ := ih.1.step ih.2 h
      dsimp only
      rw [hb]
      exact ⟨hstands, ih.2.step hb⟩
    | none =>
      rw [hevent] at h
      exact ⟨h ▸ ih.1, ih.2⟩

def run : KeyedQueue.Run K (Result V) where
  state := trace.line
  event := fun i => (trace.event i).map eventOf
  start := rfl
  next := by
    intro i
    have h := trace.next i
    rw [line]
    cases hevent : trace.event i with
    | some event =>
      rw [hevent] at h
      obtain ⟨b, hb, -⟩ := (trace.line_stands i).1.step (trace.line_stands i).2 h
      dsimp only [Option.map_some]
      rw [hb]
      rfl
    | none => rfl

theorem run_fair {trace : Trace K V undefined} (hf : Fair trace) : KeyedQueue.Fair trace.run := by
  constructor
  · intro i hline
    have hjobs : (trace.state i).runtime.jobs ≠ [] := by
      intro hnil
      have := (trace.line_stands i).1.jobs
      rw [hnil] at this
      cases hl : (trace.line i).line with
      | nil => exact hline hl
      | cons n line =>
        rw [hl] at this
        cases this
    obtain ⟨j, hij, hj⟩ := hf.jobs i hjobs
    refine ⟨j, hij, ?_⟩
    show (trace.event j).map eventOf = _
    rw [hj]
    rfl
  · intro i n hn
    obtain ⟨j, hij, hj⟩ := hf.stack i n ((trace.line_stands i).1.current.trans hn)
    exact ⟨j, hij, (trace.line_stands j).1.current.symm.trans hj⟩
  · intro i n hn
    obtain ⟨j, hij, hj⟩ := hf.units i n ((trace.line_stands i).1.started ▸ hn)
    refine ⟨j, hij, ?_⟩
    show (trace.line j).outcome n ≠ none
    rwa [← (trace.line_stands j).1.outcome]

/-- The keys so far are those of the calls so far. -/
theorem calls_eq (i : Nat) : (trace.state i).calls =
    (List.range i).filterMap fun l => (trace.event l).bind Event.key := by
  induction i with
  | zero =>
    rw [trace.start]
    rfl
  | succ i ih =>
    have h := trace.next i
    rw [List.range_succ, List.filterMap_append, ← ih]
    cases hevent : trace.event i with
    | some event =>
      rw [hevent] at h
      rw [step_calls h]
      refine congrArg _ ?_
      cases hkey : event.key with
      | none =>
        rw [List.filterMap_cons_none (by rw [hevent]; exact hkey)]
        rfl
      | some key =>
        rw [List.filterMap_cons_some (by rw [hevent]; exact hkey)]
        rfl
    | none =>
      rw [hevent] at h
      rw [h, List.filterMap_cons_none (by rw [hevent]; rfl)]
      exact (List.append_nil _).symm

theorem calls_prefix {i j : Nat} (hij : i ≤ j) : (trace.state i).calls <+: (trace.state j).calls := by
  rw [trace.calls_eq, trace.calls_eq]
  refine List.IsPrefix.filterMap _ ?_
  obtain ⟨m, rfl⟩ := Nat.exists_eq_add_of_le hij
  rw [List.range_add]
  exact List.prefix_append _ _

/-- A call that was made has its unit run, and its promise settled. -/
theorem served (hf : Fair trace) (i n : Nat) (hn : n < (trace.state i).calls.length) :
    ∃ j, i ≤ j ∧ n ∈ (trace.state j).started ∧ ∃ result,
      (trace.state j).outcome n = some result ∧
      (trace.state j).runtime.cells (.run n) = .settled result := by
  obtain ⟨h, hi⟩ := trace.line_stands i
  have hcalled : (trace.line i).phase n ≠ .idle := by
    rw [hi.placed.called, ← h.calls]
    exact hn
  obtain ⟨j, hij, hdone⟩ := KeyedQueue.Run.done (Trace.run_fair hf) n i hcalled
  obtain ⟨h, hi⟩ := trace.line_stands j
  obtain ⟨result, hout, hcell⟩ := h.runSettled n (Nat.le_trans (by decide) hdone)
  refine ⟨j, hij, ?_, result, ?_, hcell⟩
  · rw [h.started, hi.placed.started]
    exact Nat.le_trans (by decide) hdone
  · rw [h.outcome]
    exact hout

end Trace

end

/-! What `create` relies on. -/

/-- In every state of every run: the k-th call is the one of the k-th key, and its caller has the
    k-th promise; at most one unit of a key runs; units begin once, and those of a key in the order
    of their calls; only a unit's promise and what its own caller has are rejected, and that settles
    as the unit ended; a key without an entry has no unit that waits or runs, and an entry is the
    last call's. In every fair run each call has its unit run and its caller gets its outcome,
    whatever became of the others. -/
theorem serialized_in_order {K V : Type} [DecidableEq K] (undefined : V) :
    (∀ (events : List (Event K V)) (s : State K V), run undefined events = some s →
      s.calls = events.filterMap Event.key ∧
      (∀ key, (serialized undefined key s).1 = .run (events.filterMap Event.key).length) ∧
      (∀ m n, Running s m → Running s n → s.calls[m]? = s.calls[n]? → m = n) ∧
      s.started.Nodup ∧
      (∀ key, (s.started.filter fun n => s.calls[n]? = some key) <+:
        (List.range s.calls.length).filter fun n => s.calls[n]? = some key) ∧
      (∀ p e, s.runtime.cells p = .settled (.rejected e) →
        ∃ n, (p = .unit n ∨ p = .run n) ∧ s.outcome n = some (.rejected e)) ∧
      (∀ n result, s.runtime.cells (.run n) = .settled result → s.outcome n = some result) ∧
      (∀ key, s.createQueues.get key = none → ∀ n, s.calls[n]? = some key →
        n ∈ s.started ∧ s.outcome n ≠ none) ∧
      ∀ key p, s.createQueues.get key = some p →
        ∃ n, p = .tail n ∧ s.calls[n]? = some key ∧ ∀ m, s.calls[m]? = some key → m ≤ n) ∧
    ∀ trace : Trace K V undefined, Fair trace → ∀ i key, trace.event i = some (.call key) →
      ∃ n, (serialized undefined key (trace.state i)).1 = .run n ∧
        n = ((List.range i).filterMap fun l => (trace.event l).bind Event.key).length ∧
        ∃ j, i < j ∧ (trace.state j).calls[n]? = some key ∧ n ∈ (trace.state j).started ∧
          ∃ result, (trace.state j).outcome n = some result ∧
            (trace.state j).runtime.cells (.run n) = .settled result := by
  constructor
  · intro events s hs
    obtain ⟨a, h, hi⟩ := run_stands hs
    refine ⟨run_calls hs, ?_, ?_, h.started_nodup hi, ?_, fun p e hp => h.rejected hi hp,
      fun n result hrun => h.run_result hrun, fun key hget n hkey => h.no_entry hi hget hkey,
      fun key p hget => h.entry hi hget⟩
    · intro key
      rw [← run_calls hs]
      rfl
    · intro m n hm hn hkey
      unfold Running at hm hn
      rw [h.started, h.outcome] at hm hn
      rw [h.calls] at hkey
      exact hi.alone hm.1 hm.2 hn.1 hn.2 hkey
    · intro key
      rw [h.started, h.calls]
      exact hi.firstOf key
  · intro trace hf i key hevent
    have hnext : step undefined (trace.state i) (.call key) = some (trace.state (i + 1)) := by
      have h := trace.next i
      rw [hevent] at h
      exact h
    have hcalls := step_calls hnext
    obtain ⟨j, hij, hbegun, result, hout, hcell⟩ := trace.served hf (i + 1)
      (trace.state i).calls.length (by
        rw [hcalls, List.length_append]
        exact Nat.lt_succ_self _)
    refine ⟨_, rfl, congrArg List.length (trace.calls_eq i), j, hij, ?_, hbegun, result, hout, hcell⟩
    have hkey : (trace.state (i + 1)).calls[(trace.state i).calls.length]? = some key := by
      rw [hcalls]
      exact List.getElem?_concat_length
    obtain ⟨rest, hrest⟩ := trace.calls_prefix hij
    rw [← hrest]
    exact List.getElem?_append_left (List.getElem?_eq_some_iff.mp hkey).1 ▸ hkey

namespace Two

/-- Two calls of a key, of which the first is rejected. -/
def events : List (Event Nat Nat) :=
  [.call 7, .call 7, .job, .returned, .job, .settle 0 (.rejected 5), .job, .job, .job, .job,
    .returned, .job, .settle 1 (.fulfilled 6), .job, .job, .job]

def state : Nat → State Nat Nat
  | 0 => empty
  | i + 1 =>
    match events[i]? with
    | some event => (step 0 (state i) event).getD (state i)
    | none => state i

theorem state_later {i : Nat} (hi : 16 ≤ i) : state i = state 16 := by
  induction hi with
  | refl => rfl
  | @step i hi ih =>
    have hnone : events[i]? = none := List.getElem?_eq_none hi
    rw [state, hnone]
    exact ih

theorem steps : (List.range 16).all (fun i =>
    (events[i]?).all fun event => (step 0 (state i) event).isSome) = true := by
  decide +kernel

theorem ends : (state 16).runtime.jobs = [] ∧ (state 16).current = none ∧
    ((List.range 17).all fun i => (state i).started.all fun n =>
      ((state 16).outcome n).isSome) = true := by
  decide +kernel

def trace : Trace Nat Nat 0 where
  state := state
  event := fun i => events[i]?
  start := rfl
  next := by
    intro i
    split
    case h_1 event hevent =>
      have hi : i < 16 := (List.getElem?_eq_some_iff.mp hevent).1
      have hstep := List.all_eq_true.mp steps i (List.mem_range.mpr hi)
      rw [hevent, Option.all_some, Option.isSome_iff_exists] at hstep
      obtain ⟨s, hs⟩ := hstep
      have hnext : state (i + 1) = s := by
        rw [state, hevent]
        show (step 0 (state i) event).getD (state i) = s
        rw [hs]
        rfl
      exact hs.trans (congrArg some hnext.symm)
    case h_2 hevent =>
      rw [state, hevent]

theorem fair : Fair trace := by
  obtain ⟨hjobs, hstack, hunits⟩ := ends
  have hlast (i : Nat) : state (max i 16) = state 16 := state_later (Nat.le_max_right i 16)
  constructor
  · intro i hi
    by_cases hlt : i < 16
    · exact ⟨15, by omega, rfl⟩
    · have hstate : trace.state i = state 16 := state_later (by omega)
      rw [hstate] at hi
      exact absurd hjobs hi
  · intro i n _
    exact ⟨max i 16, Nat.le_max_left i 16, (congrArg State.current (hlast i)).trans hstack⟩
  · intro i n hn
    refine ⟨max i 16, Nat.le_max_left i 16, ?_⟩
    show (state (max i 16)).outcome n ≠ none
    rw [hlast, ← Option.isSome_iff_ne_none]
    have hwhen : ∃ l, l < 17 ∧ state i = state l := by
      by_cases hlt : i < 16
      · exact ⟨i, by omega, rfl⟩
      · exact ⟨16, by decide, state_later (by omega)⟩
    obtain ⟨l, hl, hsame⟩ := hwhen
    have hstarted : n ∈ (state l).started := hsame ▸ hn
    exact List.all_eq_true.mp (List.all_eq_true.mp hunits l (List.mem_range.mpr hl)) n hstarted

end Two

/-- The second caller gets what its unit came to, though the first was rejected. -/
theorem serialized_in_order_two : ∃ j result,
    (serialized 0 7 (Two.trace.state 1)).1 = .run 1 ∧ (Two.trace.state j).outcome 1 = some result ∧
    (Two.trace.state j).runtime.cells (.run 1) = .settled result := by
  obtain ⟨n, hrun, hn, j, -, -, -, result, hout, hcell⟩ :=
    (serialized_in_order (0 : Nat)).2 Two.trace Two.fair 1 7 rfl
  cases hn
  exact ⟨j, result, hrun, hout, hcell⟩

end Bazar.Finance.CreateQueues
