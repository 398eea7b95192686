import Mathlib.Data.List.Forall2
import BazarApi.Finance.CreateQueues
import BazarApi.Js.KeyedQueue

/- The promises of the creations make a line of calls by key (`Stands`): what an event does to the
   promises, the map and the jobs is what it does to the line. -/
open Promise

namespace Bazar.Finance.CreateQueues

/-! The line that the promises make. -/

section
variable {K V : Type} [DecidableEq K] {undefined : V}

def eventOf : Event K V → KeyedQueue.Event K (Result V)
  | .call key => .call key
  | .job => .job
  | .returned => .returned
  | .threw e => .threw (.rejected e)
  | .settle n result => .settle n result

/-- The job of a call in line. -/
def jobOf (undefined : V) (a : KeyedQueue.State K (Result V)) (n : Nat) :
    Option (Job Name (Handler K) V) :=
  match a.phase n with
  | .queued => some (.handle (.run n) (some (.unit n)) (.fulfilled undefined))
  | .adopting => some (.adopt (.run n) (.unit n))
  | .passing => (a.outcome n).map fun result => .settle (.run n) result
  | .finished => (a.outcome n).map fun result => .handle (.tail n) (some .ignore) result
  | .tailed => (a.calls[n]?).map fun key =>
      .handle (.after n) (some (.cleanup key n)) (.fulfilled undefined)
  | _ => none

def runReaction (n : Nat) : Reaction Name (Handler K) :=
  .handlers (.tail n) (some .ignore) (some .ignore)

def unitReaction (n : Nat) : Reaction Name (Handler K) :=
  .handlers (.run n) (some (.unit n)) (some (.unit n))

/-- The promises stand for the line. -/
structure Stands (undefined : V) (s : State K V) (a : KeyedQueue.State K (Result V)) : Prop where
  calls : s.calls = a.calls
  current : s.current = a.current
  started : s.started = a.started
  outcome : s.outcome = a.outcome
  keys : s.createQueues.keys.Nodup
  queues : ∀ key, s.createQueues.get key = (a.last key).map Name.tail
  jobs : List.Forall₂ (fun n job => jobOf undefined a n = some job) a.line s.runtime.jobs
  resolved : ∀ n, a.calls.length ≤ n → s.runtime.cells (.resolved n) = .pending []
  runIdle : ∀ n, a.phase n = .idle → s.runtime.cells (.run n) = .pending []
  runPending : ∀ n, a.phase n ≠ .idle → (a.phase n).rank < 7 →
    s.runtime.cells (.run n) = .pending [runReaction n]
  runSettled : ∀ n, 7 ≤ (a.phase n).rank → ∃ result, a.outcome n = some result ∧
    s.runtime.cells (.run n) = .settled result
  tailIdle : ∀ n, a.phase n = .idle → s.runtime.cells (.tail n) = .pending []
  tailPending : ∀ n key, a.calls[n]? = some key → ¬(a.phase n).Freed →
    s.runtime.cells (.tail n) = .pending (.handlers (.after n) (some (.cleanup key n)) none ::
      ((a.waiter n).toList.map unitReaction))
  tailSettled : ∀ n, (a.phase n).Freed → s.runtime.cells (.tail n) = .settled (.fulfilled undefined)
  unitPending : ∀ n, a.outcome n = none → s.runtime.cells (.unit n) =
    .pending (if a.phase n = .adopted then [.resolved (.run n)] else [])
  unitSettled : ∀ n result, a.outcome n = some result →
    a.phase n = .invoked ∨ a.phase n = .adopting → s.runtime.cells (.unit n) = .settled result
  afterPending : ∀ n, a.phase n ≠ .done → s.runtime.cells (.after n) = .pending []
  unitResult : ∀ n result, s.runtime.cells (.unit n) = .settled result → a.outcome n = some result
  others : ∀ n e, s.runtime.cells (.resolved n) ≠ .settled (.rejected e) ∧
    s.runtime.cells (.after n) ≠ .settled (.rejected e)

variable {s : State K V} {a b : KeyedQueue.State K (Result V)} {n : Nat}

omit [DecidableEq K] in
theorem jobs_congr {line : List Nat} {jobs : List (Job Name (Handler K) V)}
    (h : List.Forall₂ (fun n job => jobOf undefined a n = some job) line jobs)
    (hsame : ∀ n ∈ line, jobOf undefined b n = jobOf undefined a n) :
    List.Forall₂ (fun n job => jobOf undefined b n = some job) line jobs := by
  induction h with
  | nil => exact .nil
  | cons hjob hrest ih =>
    refine .cons ?_ (ih fun n hn => hsame n (List.mem_cons_of_mem _ hn))
    rw [hsame _ List.mem_cons_self]
    exact hjob

omit [DecidableEq K] in
theorem jobs_push {line : List Nat} {jobs : List (Job Name (Handler K) V)}
    (job : Job Name (Handler K) V)
    (h : List.Forall₂ (fun n job => jobOf undefined a n = some job) line jobs)
    (hjob : jobOf undefined a n = some job) :
    List.Forall₂ (fun n job => jobOf undefined a n = some job) (line ++ [n]) (jobs ++ [job]) :=
  List.rel_append h (.cons hjob .nil)

omit [DecidableEq K] in
theorem jobOf_congr (hphase : b.phase n = a.phase n) (houtcome : b.outcome n = a.outcome n)
    (hcalls : b.calls[n]? = a.calls[n]?) : jobOf undefined b n = jobOf undefined a n := by
  unfold jobOf
  rw [hphase, houtcome, hcalls]

omit [DecidableEq K] in
/-- A change of a call that is not in line. -/
theorem jobs_other {jobs : List (Job Name (Handler K) V)}
    (h : List.Forall₂ (fun n job => jobOf undefined a n = some job) a.line jobs) (hn : n ∉ a.line)
    (hphase : ∀ i, i ≠ n → b.phase i = a.phase i)
    (houtcome : ∀ i, i ≠ n → b.outcome i = a.outcome i) (hcalls : b.calls = a.calls) :
    List.Forall₂ (fun n job => jobOf undefined b n = some job) a.line jobs := by
  refine jobs_congr h ?_
  intro i hi
  have hne : i ≠ n := by
    rintro rfl
    exact hn hi
  exact jobOf_congr (hphase i hne) (houtcome i hne) (by rw [hcalls])

/-! What a job does to the promises is what it does to the line. -/

/-- The unit of a call begins. -/
theorem Stands.invoke (h : Stands undefined s a) (hp : a.phase n = .queued)
    (hnone : a.outcome n = none) (hn : n ∉ a.line) :
    Stands undefined { s with current := some n, started := s.started ++ [n] }
      { a.put n .invoked with current := some n, started := a.started ++ [n] } := by
  unfold KeyedQueue.State.put
  have hjobs := jobs_other h.jobs hn (b := { a with
    phase := Function.update a.phase n .invoked, current := some n, started := a.started ++ [n] })
    (fun i hi => Function.update_of_ne hi _ _) (fun i hi => rfl) rfl
  constructor
  case jobs => exact hjobs
  all_goals grind [Stands, Function.update_apply, KeyedQueue.Phase.Freed, KeyedQueue.Phase.rank]

/-- A call subscribes to the promise of its unit. -/
theorem Stands.adopt (h : Stands undefined s a) (hp : a.phase n = .adopting)
    (hnone : a.outcome n = none) (hn : n ∉ a.line) :
    Stands undefined { s with runtime := s.runtime.subscribe (.unit n) (.resolved (.run n)) }
      (a.put n .adopted) := by
  have hcell : s.runtime.cells (.unit n) = .pending [] := by
    have := h.unitPending n hnone
    rwa [if_neg (by rw [hp]; nofun)] at this
  rw [Runtime.subscribe_pending _ _ _ hcell]
  unfold KeyedQueue.State.put
  have hjobs := jobs_other h.jobs hn (b := { a with phase := Function.update a.phase n .adopted })
    (fun i hi => Function.update_of_ne hi _ _) (fun i hi => rfl) rfl
  constructor
  case jobs => exact hjobs
  all_goals grind [Stands, Function.update_apply, KeyedQueue.Phase.Freed, KeyedQueue.Phase.rank]

/-- The promise of its unit has settled already. -/
theorem Stands.adopt_settled (h : Stands undefined s a) (hp : a.phase n = .adopting)
    {result : Result V} (hsome : a.outcome n = some result) (hn : n ∉ a.line) :
    Stands undefined { s with runtime := s.runtime.subscribe (.unit n) (.resolved (.run n)) }
      ((a.put n .passing).push n) := by
  rw [Runtime.subscribe_settled _ _ _ (h.unitSettled n result hsome (.inr hp))]
  unfold KeyedQueue.State.push KeyedQueue.State.put
  have hjobs := jobs_push (n := n) (.settle (.run n) result)
    (jobs_other h.jobs hn (b := { a with
      phase := Function.update a.phase n .passing, line := a.line ++ [n] })
      (fun i hi => Function.update_of_ne hi _ _) (fun i hi => rfl) rfl)
    (by simp [jobOf, hsome])
  constructor
  case jobs => exact hjobs
  all_goals grind [Stands, Function.update_apply, KeyedQueue.Phase.Freed, KeyedQueue.Phase.rank]

/-- What the caller has settles, with the outcome of the unit. -/
theorem Stands.pass (h : Stands undefined s a) (hp : a.phase n ≠ .idle) (hrank : (a.phase n).rank < 7)
    {result : Result V} (hsome : a.outcome n = some result) (hn : n ∉ a.line) :
    Stands undefined { s with runtime := s.runtime.settle (.run n) result }
      ((a.put n .finished).push n) := by
  rw [Runtime.settle_pending _ _ _ (h.runPending n hp hrank)]
  unfold KeyedQueue.State.push KeyedQueue.State.put
  have hreaction : (runReaction n : Reaction Name (Handler K)).job result =
      .handle (.tail n) (some .ignore) result := by
    cases result <;> rfl
  rw [List.map_singleton, hreaction]
  have hjobs := jobs_push (n := n) (.handle (.tail n) (some .ignore) result)
    (jobs_other h.jobs hn (b := { a with
      phase := Function.update a.phase n .finished, line := a.line ++ [n] })
      (fun i hi => Function.update_of_ne hi _ _) (fun i hi => rfl) rfl)
    (by simp [jobOf, hsome])
  constructor
  case jobs => exact hjobs
  all_goals grind [Stands, Function.update_apply, KeyedQueue.Phase.Freed, KeyedQueue.Phase.rank]

/-- The last of its key lets go. -/
theorem Stands.release (h : Stands undefined s a) (hp : a.phase n = .finished) {key : K}
    (hkey : a.calls[n]? = some key) (hwaiter : a.waiter n = none) (hn : n ∉ a.line) :
    Stands undefined { s with runtime := s.runtime.settle (.tail n) (.fulfilled undefined) }
      ((a.put n .tailed).push n) := by
  have hcell := h.tailPending n key hkey (by rw [hp]; decide)
  rw [hwaiter] at hcell
  rw [Runtime.settle_pending _ _ _ hcell]
  unfold KeyedQueue.State.push KeyedQueue.State.put
  have hjobs := jobs_push (n := n) (.handle (.after n) (some (.cleanup key n)) (.fulfilled undefined))
    (jobs_other h.jobs hn (b := { a with
      phase := Function.update a.phase n .tailed, line := a.line ++ [n] })
      (fun i hi => Function.update_of_ne hi _ _) (fun i hi => rfl) rfl)
    (by simp [jobOf, hkey])
  constructor
  case jobs => exact hjobs
  all_goals grind [Stands, Function.update_apply, KeyedQueue.Phase.Freed, KeyedQueue.Phase.rank]

/-- A call lets go, and the next one of its key is due. -/
theorem Stands.release_next (h : Stands undefined s a) (hp : a.phase n = .finished) {key : K}
    (hkey : a.calls[n]? = some key) {m : Nat} (hwaiter : a.waiter n = some m)
    (hwaiting : a.phase m = .waiting) (hn : n ∉ a.line) (hm : m ∉ a.line) :
    Stands undefined { s with runtime := s.runtime.settle (.tail n) (.fulfilled undefined) }
      ((((a.put n .tailed).push n).put m .queued).push m) := by
  have hcell := h.tailPending n key hkey (by rw [hp]; decide)
  rw [hwaiter] at hcell
  have hne : m ≠ n := by
    rintro rfl
    rw [hp] at hwaiting
    cases hwaiting
  rw [Runtime.settle_pending _ _ _ hcell]
  unfold KeyedQueue.State.push KeyedQueue.State.put
  have hkept := jobs_congr (b := { a with
      phase := Function.update (Function.update a.phase n .tailed) m .queued,
      line := a.line ++ [n] ++ [m] }) h.jobs (by
    intro i hi
    have hin : i ≠ n := by
      rintro rfl
      exact hn hi
    have him : i ≠ m := by
      rintro rfl
      exact hm hi
    refine jobOf_congr ?_ rfl rfl
    dsimp only
    rw [Function.update_of_ne him, Function.update_of_ne hin])
  have hcleanup := jobs_push (n := n) (.handle (.after n) (some (.cleanup key n)) (.fulfilled undefined)) hkept
    (by simp [jobOf, hkey, Function.update_of_ne hne.symm])
  have hjobs := jobs_push (n := m) (.handle (.run m) (some (.unit m)) (.fulfilled undefined)) hcleanup
    (by simp [jobOf])
  rw [List.append_assoc] at hjobs
  constructor
  case jobs => simpa [unitReaction, Reaction.job] using hjobs
  all_goals grind [Stands, Function.update_apply, KeyedQueue.Phase.Freed, KeyedQueue.Phase.rank]

/-- A call takes its entry out, if it is still its own. -/
theorem Stands.forget (h : Stands undefined s a) (hp : a.phase n = .tailed) {key : K}
    (hlast : ∀ k, a.last k = some n → k = key) (hn : n ∉ a.line) :
    Stands undefined { s with
        createQueues := if s.createQueues.get key = some (.tail n) then s.createQueues.delete key
          else s.createQueues,
        runtime := s.runtime.settle (.after n) (.fulfilled undefined) }
      { a.put n .done with last := fun k => if a.last k = some n then none else a.last k } := by
  rw [Runtime.settle_pending _ _ _ (h.afterPending n (by rw [hp]; nofun))]
  unfold KeyedQueue.State.put
  have hjobs := jobs_other h.jobs hn (b := { a with
    phase := Function.update a.phase n .done,
    last := fun k => if a.last k = some n then none else a.last k })
    (fun i hi => Function.update_of_ne hi _ _) (fun i hi => rfl) rfl
  have hmine : s.createQueues.get key = some (.tail n) ↔ a.last key = some n := by
    rw [h.queues]
    cases a.last key <;> simp
  have hkeys : (if s.createQueues.get key = some (.tail n) then s.createQueues.delete key
      else s.createQueues).keys.Nodup := by
    split
    · exact Js.Map.nodup_filter h.keys _
    · exact h.keys
  have hqueues (k : K) : (if s.createQueues.get key = some (.tail n) then s.createQueues.delete key
      else s.createQueues).get k = (if a.last k = some n then none else a.last k).map Name.tail := by
    by_cases hm : a.last key = some n
    · rw [if_pos (hmine.mpr hm), Js.Map.get_delete h.keys]
      by_cases hk : key = k
      · rw [if_pos hk, ← hk, if_pos hm]
        rfl
      · rw [if_neg hk, if_neg fun hkn => hk (hlast k hkn).symm, h.queues]
    · rw [if_neg fun hg => hm (hmine.mp hg), h.queues]
      by_cases hk : a.last k = some n
      · exact absurd (hlast k hk ▸ hk) hm
      · rw [if_neg hk]
  constructor
  case jobs => simpa using hjobs
  case keys => exact hkeys
  case queues => exact hqueues
  all_goals grind [Stands, Function.update_apply, KeyedQueue.Phase.Freed, KeyedQueue.Phase.rank]

/-! So are the events of the units. -/

theorem Stands.returned (h : Stands undefined s a) (hp : a.phase n = .invoked) (hn : n ∉ a.line) :
    Stands undefined
      { s with runtime := s.runtime.enqueue (.adopt (.run n) (.unit n)), current := none }
      ({ a.put n .adopting with current := none }.push n) := by
  unfold Runtime.enqueue KeyedQueue.State.push KeyedQueue.State.put
  have hjobs := jobs_push (n := n) (.adopt (.run n) (.unit n))
    (jobs_other h.jobs hn (b := { a with
      phase := Function.update a.phase n .adopting, current := none, line := a.line ++ [n] })
      (fun i hi => Function.update_of_ne hi _ _) (fun i hi => rfl) rfl)
    (by simp [jobOf])
  constructor
  case jobs => exact hjobs
  all_goals grind [Stands, Function.update_apply, KeyedQueue.Phase.Freed, KeyedQueue.Phase.rank]

theorem Stands.threw (h : Stands undefined s a) (hp : a.phase n = .invoked)
    (hnone : a.outcome n = none) (hn : n ∉ a.line) (e : V) :
    Stands undefined
      { s with runtime := s.runtime.settle (.run n) (.rejected e), current := none,
               outcome := Function.update s.outcome n (some (.rejected e)) }
      ({ a.put n .finished with
        outcome := Function.update a.outcome n (some (.rejected e)), current := none }.push n) := by
  rw [Runtime.settle_pending _ _ _ (h.runPending n (by rw [hp]; nofun) (by rw [hp]; decide))]
  unfold KeyedQueue.State.push KeyedQueue.State.put
  have hjobs := jobs_push (n := n) (.handle (.tail n) (some .ignore) (.rejected e))
    (jobs_other h.jobs hn (b := { a with
      phase := Function.update a.phase n .finished, current := none, line := a.line ++ [n],
      outcome := Function.update a.outcome n (some (.rejected e)) })
      (fun i hi => Function.update_of_ne hi _ _) (fun i hi => Function.update_of_ne hi _ _) rfl)
    (by simp [jobOf])
  constructor
  case jobs => exact hjobs
  all_goals grind [Stands, Function.update_apply, KeyedQueue.Phase.Freed, KeyedQueue.Phase.rank]

/-- A promise that is subscribed to settles. -/
theorem Stands.settle_adopted (h : Stands undefined s a) (hp : a.phase n = .adopted)
    (hnone : a.outcome n = none) (hn : n ∉ a.line) (result : Result V) :
    Stands undefined
      { s with runtime := s.runtime.settle (.unit n) result,
               outcome := Function.update s.outcome n (some result) }
      (({ a with outcome := Function.update a.outcome n (some result) }.put n .passing).push n) := by
  have hcell := h.unitPending n hnone
  rw [if_pos hp] at hcell
  rw [Runtime.settle_pending _ _ _ hcell]
  unfold KeyedQueue.State.push KeyedQueue.State.put
  have hjobs := jobs_push (n := n) (.settle (.run n) result)
    (jobs_other h.jobs hn (b := { a with
      phase := Function.update a.phase n .passing, line := a.line ++ [n],
      outcome := Function.update a.outcome n (some result) })
      (fun i hi => Function.update_of_ne hi _ _) (fun i hi => Function.update_of_ne hi _ _) rfl)
    (by simp [jobOf])
  constructor
  case jobs => exact hjobs
  all_goals grind [Stands, Function.update_apply, KeyedQueue.Phase.Freed, KeyedQueue.Phase.rank]

/-- It settles before anyone subscribed to it. -/
theorem Stands.settle_early (h : Stands undefined s a)
    (hp : a.phase n = .invoked ∨ a.phase n = .adopting) (hnone : a.outcome n = none)
    (result : Result V) :
    Stands undefined
      { s with runtime := s.runtime.settle (.unit n) result,
               outcome := Function.update s.outcome n (some result) }
      { a with outcome := Function.update a.outcome n (some result) } := by
  have hcell := h.unitPending n hnone
  rw [if_neg (by rcases hp with hp | hp <;> rw [hp] <;> nofun)] at hcell
  rw [Runtime.settle_pending _ _ _ hcell, List.map_nil, List.append_nil]
  have hjobs := jobs_congr (b := { a with outcome := Function.update a.outcome n (some result) })
    h.jobs (by
      intro i _
      by_cases hi : i = n
      · rw [hi]
        rcases hp with hp | hp <;> simp [jobOf, hp]
      · exact jobOf_congr rfl (Function.update_of_ne hi _ _) rfl)
  constructor
  case jobs => exact hjobs
  all_goals grind [Stands, Function.update_apply, KeyedQueue.Phase.Freed, KeyedQueue.Phase.rank]

/-! And the calls. -/

omit [DecidableEq K] in
/-- What a call leaves once it is subscribed to the promise before. -/
theorem subscribe_own {cells : Name → Cell Name (Handler K) V} (jobs : List (Job Name (Handler K) V))
    (key : K) (hrun : cells (.run n) = .pending []) (htail : cells (.tail n) = .pending []) :
    (Runtime.subscribe ⟨cells, jobs⟩ (.run n) (runReaction n)).subscribe (.tail n)
      (.handlers (.after n) (some (.cleanup key n)) none) =
      ⟨Function.update (Function.update cells (.run n) (.pending [runReaction n])) (.tail n)
        (.pending [.handlers (.after n) (some (.cleanup key n)) none]), jobs⟩ := by
  have hother : Function.update cells (.run n) (.pending [runReaction n]) (.tail n) = .pending [] := by
    rw [Function.update_of_ne (by nofun)]
    exact htail
  rw [Runtime.subscribe_pending ⟨cells, jobs⟩ (.run n) _ hrun]
  exact Runtime.subscribe_pending ⟨Function.update cells (.run n) (.pending [runReaction n]), jobs⟩
    (.tail n) _ hother

/-- The promise before has settled: the unit of the call is due. -/
theorem Stands.subscribe_freed (h : Stands undefined s a) {key : K} (hbefore : a.before key = none) :
    ∃ cells, (serialized undefined key s).2.runtime =
        (Runtime.subscribe ⟨cells, s.runtime.jobs ++
          [.handle (.run a.calls.length) (some (.unit a.calls.length)) (.fulfilled undefined)]⟩
          (.run a.calls.length) (runReaction a.calls.length)).subscribe (.tail a.calls.length)
          (.handlers (.after a.calls.length) (some (.cleanup key a.calls.length)) none) ∧
      (∀ n, cells (.run n) = s.runtime.cells (.run n)) ∧
      (∀ n, cells (.tail n) = s.runtime.cells (.tail n)) ∧
      (∀ n, cells (.after n) = s.runtime.cells (.after n)) ∧
      (∀ n, cells (.unit n) = s.runtime.cells (.unit n)) ∧
      (∀ n, n ≠ a.calls.length → cells (.resolved n) = s.runtime.cells (.resolved n)) ∧
      ∀ e, cells (.resolved a.calls.length) ≠ .settled (.rejected e) := by
  unfold serialized
  dsimp only
  rw [h.queues, h.calls]
  cases hlast : a.last key with
  | none =>
    rw [Option.map_none, Option.getD_none]
    dsimp only
    have hsettled : Function.update s.runtime.cells (.resolved a.calls.length)
        (.settled (.fulfilled undefined)) (.resolved a.calls.length) =
          .settled (.fulfilled undefined) := Function.update_self ..
    have hdue := Runtime.subscribe_settled
      ⟨Function.update s.runtime.cells (.resolved a.calls.length) (.settled (.fulfilled undefined)),
        s.runtime.jobs⟩ (.resolved a.calls.length) (unitReaction a.calls.length) hsettled
    unfold unitReaction at hdue
    rw [Runtime.settle_pending _ _ _ (h.resolved _ (Nat.le_refl _)), List.map_nil, List.append_nil, hdue]
    refine ⟨Function.update s.runtime.cells (.resolved a.calls.length) (.settled (.fulfilled undefined)),
      rfl, ?_, ?_, ?_, ?_, ?_, ?_⟩
    · exact fun n => Function.update_of_ne (by nofun) _ _
    · exact fun n => Function.update_of_ne (by nofun) _ _
    · exact fun n => Function.update_of_ne (by nofun) _ _
    · exact fun n => Function.update_of_ne (by nofun) _ _
    · exact fun n hn => Function.update_of_ne (by simpa using hn) _ _
    · intro e
      rw [Function.update_self]
      nofun
  | some m =>
    have hfreed := KeyedQueue.before_none hbefore hlast
    rw [Option.map_some, Option.getD_some]
    dsimp only
    rw [Runtime.subscribe_settled _ _ _ (h.tailSettled m hfreed)]
    exact ⟨_, rfl, fun _ => rfl, fun _ => rfl, fun _ => rfl, fun _ => rfl, fun _ _ => rfl,
      fun e => (h.others _ e).1⟩

/-- The map once the call's `tail` is its key's. -/
theorem Stands.queues_set (h : Stands undefined s a) (key : K) (n : Nat) (k : K) :
    (s.createQueues.set key (.tail n)).get k =
      (Function.update a.last key (some n) k).map Name.tail := by
  rw [Js.Map.get_set h.keys]
  by_cases hk : key = k
  · rw [if_pos hk, ← hk, Function.update_self]
    rfl
  · rw [if_neg hk, Function.update_of_ne (Ne.symm hk), h.queues]

omit [DecidableEq K] in
/-- The jobs of the calls so far. -/
theorem jobs_call {key : K} {p : KeyedQueue.Phase} {jobs : List (Job Name (Handler K) V)}
    (h : List.Forall₂ (fun n job => jobOf undefined a n = some job) a.line jobs)
    (hline : ∀ n ∈ a.line, n < a.calls.length) (hcalls : b.calls = a.calls ++ [key])
    (hphase : b.phase = Function.update a.phase a.calls.length p) (houtcome : b.outcome = a.outcome) :
    List.Forall₂ (fun n job => jobOf undefined b n = some job) a.line jobs := by
  refine jobs_congr h ?_
  intro i hi
  have hlt := hline i hi
  refine jobOf_congr ?_ (by rw [houtcome]) ?_
  · rw [hphase, Function.update_of_ne (Nat.ne_of_lt hlt)]
  · rw [hcalls, List.getElem?_append_left hlt]

theorem Stands.call_queued (h : Stands undefined s a) (hp : KeyedQueue.Placed a)
    (ho : KeyedQueue.InOrder a) {key : K} (hbefore : a.before key = none) :
    Stands undefined (serialized undefined key s).2 (a.call key) := by
  obtain ⟨hidle, hwaiter, hnone, hline⟩ := ho.fresh hp
  have hold (i : Nat) (hi : i < a.calls.length) : (a.calls ++ [key])[i]? = a.calls[i]? :=
    List.getElem?_append_left hi
  have hnew : (a.calls ++ [key])[a.calls.length]? = some key := by simp
  have hlength : (a.calls ++ [key]).length = a.calls.length + 1 := by simp
  have hcalled := hp.called
  obtain ⟨cells, hcells, hrunCell, htailCell, hafterCell, hunitCell, hresolved, hrejected⟩ :=
    h.subscribe_freed hbefore
  have hrun := hrunCell a.calls.length
  rw [h.runIdle _ hidle] at hrun
  have htail := htailCell a.calls.length
  rw [h.tailIdle _ hidle] at htail
  have hown := subscribe_own (s.runtime.jobs ++
    [.handle (.run a.calls.length) (some (.unit a.calls.length)) (.fulfilled undefined)]) key hrun htail
  rw [KeyedQueue.State.call_none hbefore]
  have hnodup := Js.Map.nodup_set (k := key) (v := Name.tail a.calls.length) h.keys
  have hserialized : (serialized undefined key s).2 =
      { s with
        runtime := (serialized undefined key s).2.runtime
        createQueues := s.createQueues.set key (.tail s.calls.length)
        calls := s.calls ++ [key] } := rfl
  rw [hserialized, hcells, hown, h.calls]
  constructor
  case jobs => exact jobs_push _ (jobs_call h.jobs hline rfl rfl rfl) (by simp [jobOf])
  case keys => exact hnodup
  case queues => exact h.queues_set key a.calls.length
  all_goals clear hserialized hcells hown hnodup hbefore ho hrun htail
  case tailPending =>
    intro i key' hi hf
    dsimp only at hi hf ⊢
    by_cases hin : i = a.calls.length
    · rw [hin] at hi ⊢
      rw [hnew, Option.some.injEq] at hi
      rw [Function.update_self, hwaiter, hi]
      rfl
    · have hil := (List.getElem?_eq_some_iff.mp hi).1
      have hlt : i < a.calls.length := by omega
      rw [hold i hlt] at hi
      rw [Function.update_of_ne hin] at hf
      rw [Function.update_of_ne (by simpa using hin), Function.update_of_ne (by nofun), htailCell]
      exact h.tailPending i key' hi hf
  all_goals grind [Stands, Function.update_apply, KeyedQueue.Phase.Freed, KeyedQueue.Phase.rank]

theorem Stands.call_waiting (h : Stands undefined s a) (hp : KeyedQueue.Placed a)
    (ho : KeyedQueue.InOrder a) {key : K} {m : Nat} (hbefore : a.before key = some m) :
    Stands undefined (serialized undefined key s).2 (a.call key) := by
  obtain ⟨hidle, hwaiter, hnone, hline⟩ := ho.fresh hp
  obtain ⟨hlast, hfreed⟩ := KeyedQueue.before_some hbefore
  obtain ⟨hm, hmost⟩ := ho.lastIs key m hlast
  have hml : m < a.calls.length := (List.getElem?_eq_some_iff.mp hm).1
  have hnobody := ho.nobody_waits hlast
  have hget : s.createQueues.get key = some (.tail m) := by
    rw [h.queues, hlast]
    rfl
  have hcell := h.tailPending m key hm hfreed
  rw [hnobody] at hcell
  have hother : Name.tail a.calls.length ≠ .tail m := by
    rw [ne_eq, Name.tail.injEq]
    omega
  have hrun : Function.update s.runtime.cells (.tail m) (.pending
      [.handlers (.after m) (some (.cleanup key m)) none, unitReaction a.calls.length])
      (.run a.calls.length) = .pending [] :=
    (Function.update_of_ne (by nofun) _ _).trans (h.runIdle _ hidle)
  have htail : Function.update s.runtime.cells (.tail m) (.pending
      [.handlers (.after m) (some (.cleanup key m)) none, unitReaction a.calls.length])
      (.tail a.calls.length) = .pending [] :=
    (Function.update_of_ne hother _ _).trans (h.tailIdle _ hidle)
  have hown := subscribe_own s.runtime.jobs key hrun htail
  have hold (i : Nat) (hi : i < a.calls.length) : (a.calls ++ [key])[i]? = a.calls[i]? :=
    List.getElem?_append_left hi
  have hnew : (a.calls ++ [key])[a.calls.length]? = some key := by simp
  have hlength : (a.calls ++ [key]).length = a.calls.length + 1 := by simp
  have hcalled := hp.called
  rw [KeyedQueue.State.call_some hbefore]
  unfold serialized
  dsimp only
  rw [hget, h.calls]
  dsimp only [Option.getD_some]
  rw [Runtime.subscribe_pending _ _ _ hcell]
  have hnodup := Js.Map.nodup_set (k := key) (v := Name.tail a.calls.length) h.keys
  simp only [runReaction, unitReaction, List.map_nil, List.cons_append, List.nil_append,
    Option.toList_none] at hown ⊢
  rw [hown]
  constructor
  case jobs => exact jobs_call (a := a) h.jobs hline rfl rfl rfl
  case keys => exact hnodup
  case queues => exact h.queues_set key a.calls.length
  all_goals clear hown hnodup hcell hget hbefore ho hrun htail
  case tailPending =>
    intro i key' hi hf
    dsimp only at hi hf ⊢
    by_cases hin : i = a.calls.length
    · rw [hin] at hi ⊢
      rw [hnew, Option.some.injEq] at hi
      rw [Function.update_self, Function.update_of_ne (Nat.ne_of_gt hml), hwaiter, hi]
      rfl
    · have hil := (List.getElem?_eq_some_iff.mp hi).1
      have hlt : i < a.calls.length := by omega
      rw [hold i hlt] at hi
      rw [Function.update_of_ne hin] at hf
      rw [Function.update_of_ne (by simpa using hin), Function.update_of_ne (by nofun)]
      by_cases him : i = m
      · rw [him] at hi ⊢
        rw [hm, Option.some.injEq] at hi
        rw [Function.update_self, Function.update_self, hi]
        rfl
      · rw [Function.update_of_ne (by simpa using him), Function.update_of_ne him]
        exact h.tailPending i key' hi hf
  case runPending =>
    intro i hi hrank
    dsimp only at hi hrank ⊢
    rw [Function.update_of_ne (by nofun)]
    by_cases hin : i = a.calls.length
    · rw [hin, Function.update_self]
      rfl
    · rw [Function.update_of_ne hin] at hi hrank
      rw [Function.update_of_ne (by simpa using hin), Function.update_of_ne (by nofun)]
      exact h.runPending i hi hrank
  all_goals grind [Stands, Function.update_apply, KeyedQueue.Phase.Freed, KeyedQueue.Phase.rank]

/-! Every run makes a line. -/

theorem Stands.empty : Stands undefined (empty : State K V) .empty := by
  constructor
  case jobs => exact .nil
  case keys => exact List.nodup_nil
  all_goals simp [CreateQueues.empty, KeyedQueue.State.empty, Runtime.empty, KeyedQueue.Phase.Freed,
    KeyedQueue.Phase.rank, Js.Map.get]

theorem Stands.job (h : Stands undefined s a) (hi : KeyedQueue.Inv a) {s' : State K V}
    (hs : step undefined s .job = some s') : ∃ b, a.step .job = some b ∧ Stands undefined s' b := by
  unfold step at hs
  dsimp only at hs
  split at hs
  case h_2 => cases hs
  case h_1 job jobs hidle hjobs =>
    have hline := h.jobs
    rw [hjobs] at hline
    cases hline' : a.line with
    | nil =>
      rw [hline'] at hline
      cases hline
    | cons n line =>
      rw [hline'] at hline
      cases hline with
      | cons hjob hrest =>
        cases hs
        have hpop : Stands undefined { s with runtime := { s.runtime with jobs := jobs } }
            { a with line := line } :=
          { h with jobs := hrest }
        have hn : n ∉ line := by
          have := hi.placed.nodup
          rw [hline', List.nodup_cons] at this
          exact this.1
        have hphase : (a.phase n).InLine := by
          rw [← hi.placed.line, hline']
          exact List.mem_cons_self
        rw [KeyedQueue.State.step_job (h.current.symm.trans hidle) hline']
        unfold KeyedQueue.State.job
        dsimp only
        rcases hphase with hp | hp | hp | hp | hp
        · have hnone := hi.placed.early n (by rw [hp]; decide)
          simp only [jobOf, hp, Option.some.injEq] at hjob
          rw [← hjob, hp]
          exact ⟨_, rfl, hpop.invoke hp hnone hn⟩
        · simp only [jobOf, hp, Option.some.injEq] at hjob
          rw [← hjob, hp]
          cases hout : a.outcome n with
          | none => exact ⟨_, rfl, hpop.adopt hp hout hn⟩
          | some result => exact ⟨_, rfl, hpop.adopt_settled hp hout hn⟩
        · simp only [jobOf, hp, Option.map_eq_some_iff] at hjob
          obtain ⟨result, hout, hjob⟩ := hjob
          rw [← hjob, hp]
          exact ⟨_, rfl, hpop.pass (by rw [hp]; nofun) (by rw [hp]; decide) hout hn⟩
        · simp only [jobOf, hp, Option.map_eq_some_iff] at hjob
          obtain ⟨result, hout, hjob⟩ := hjob
          have hlt : n < a.calls.length := by
            rw [← hi.placed.called, hp]
            nofun
          rw [← hjob, hp]
          cases hw : a.waiter n with
          | none => exact ⟨_, rfl, hpop.release hp (List.getElem?_eq_getElem hlt) hw hn⟩
          | some m =>
            obtain ⟨hwaiting, -⟩ := hi.inOrder.waiting (by rw [hp]; decide) hw
            have hm : m ∉ line := by
              intro hm
              have : m ∈ a.line := by
                rw [hline']
                exact List.mem_cons_of_mem _ hm
              rw [hi.placed.line, hwaiting] at this
              simp [KeyedQueue.Phase.InLine] at this
            exact ⟨_, rfl, hpop.release_next hp (List.getElem?_eq_getElem hlt) hw hwaiting hn hm⟩
        · simp only [jobOf, hp, Option.map_eq_some_iff] at hjob
          obtain ⟨key, hkey, hjob⟩ := hjob
          rw [← hjob, hp]
          refine ⟨_, rfl, hpop.forget hp ?_ hn⟩
          intro k hk
          exact Option.some.inj ((hi.inOrder.lastIs k n hk).1.symm.trans hkey)

/-- What an event does to the promises is what it does to the line. -/
theorem Stands.step (h : Stands undefined s a) (hi : KeyedQueue.Inv a) {event : Event K V}
    {s' : State K V} (hs : step undefined s event = some s') :
    ∃ b, a.step (eventOf event) = some b ∧ Stands undefined s' b := by
  cases event with
  | call key =>
    cases hs
    cases hbefore : a.before key with
    | none => exact ⟨_, rfl, h.call_queued hi.placed hi.inOrder hbefore⟩
    | some m => exact ⟨_, rfl, h.call_waiting hi.placed hi.inOrder hbefore⟩
  | job => exact h.job hi hs
  | returned =>
    unfold CreateQueues.step at hs
    dsimp only at hs
    split at hs
    case h_2 => cases hs
    case h_1 n hn =>
      rw [h.current] at hn
      have hp := (hi.placed.current n).mp hn
      cases hs
      refine ⟨_, ?_, h.returned hp ?_⟩
      · simp only [eventOf, KeyedQueue.State.step, hn]
      · rw [hi.placed.line, hp]
        simp [KeyedQueue.Phase.InLine]
  | threw e =>
    unfold CreateQueues.step at hs
    dsimp only at hs
    split at hs
    case h_2 => cases hs
    case h_1 n hn =>
      rw [h.current] at hn
      have hp := (hi.placed.current n).mp hn
      split at hs
      case isFalse => cases hs
      case isTrue hnone =>
        rw [h.outcome] at hnone
        cases hs
        refine ⟨_, ?_, h.threw hp hnone ?_ e⟩
        · simp only [eventOf, KeyedQueue.State.step, hn, if_pos hnone]
        · rw [hi.placed.line, hp]
          simp [KeyedQueue.Phase.InLine]
  | settle n result =>
    unfold CreateQueues.step at hs
    dsimp only at hs
    split at hs
    case isFalse => cases hs
    case isTrue hstarted =>
      rw [h.started, hi.placed.started, h.outcome] at hstarted
      obtain ⟨hbegun, hnone⟩ := hstarted
      cases hs
      by_cases hp : a.phase n = .adopted
      · refine ⟨_, ?_, h.settle_adopted hp hnone ?_ result⟩
        · simp only [eventOf, KeyedQueue.State.step, if_pos (And.intro hbegun hnone), if_pos hp]
        · rw [hi.placed.line, hp]
          simp [KeyedQueue.Phase.InLine]
      · have hearly : a.phase n = .invoked ∨ a.phase n = .adopting := by
          have hended := mt (hi.placed.ended n) (not_not_intro hnone)
          cases hphase : a.phase n <;>
            simp_all [KeyedQueue.Phase.Begun, KeyedQueue.Phase.Ended, KeyedQueue.Phase.rank]
        refine ⟨_, ?_, h.settle_early hearly hnone result⟩
        simp only [eventOf, KeyedQueue.State.step, if_pos (And.intro hbegun hnone), if_neg hp]

/-- Every state of a run stands for a line. -/
theorem run_stands {events : List (Event K V)} (hs : run undefined events = some s) :
    ∃ a, Stands undefined s a ∧ KeyedQueue.Inv a := by
  suffices h : ∀ (start : State K V) (a : KeyedQueue.State K (Result V)), Stands undefined start a →
      KeyedQueue.Inv a → events.foldlM (CreateQueues.step undefined) start = some s →
      ∃ b, Stands undefined s b ∧ KeyedQueue.Inv b from h empty .empty .empty .empty hs
  clear hs
  induction events with
  | nil =>
    intro start a h hi hs
    cases hs
    exact ⟨a, h, hi⟩
  | cons event events ih =>
    intro start a h hi hs
    rw [List.foldlM_cons] at hs
    obtain ⟨next, hnext, hs⟩ := Option.bind_eq_some_iff.mp hs
    obtain ⟨b, hb, hnextb⟩ := h.step hi hnext
    exact ih next b hnextb (hi.step hb) hs

/-- A call adds its key at the end of the keys, and nothing else does. -/
theorem step_calls {event : Event K V} {s' : State K V} (hs : step undefined s event = some s') :
    s'.calls = s.calls ++ event.key.toList := by
  cases event with
  | call key =>
    cases hs
    rfl
  | job =>
    unfold CreateQueues.step at hs
    dsimp only at hs
    split at hs
    case h_2 => cases hs
    case h_1 job jobs _ _ =>
      cases hs
      refine Eq.trans ?_ (List.append_nil _).symm
      cases job with
      | settle target result => rfl
      | adopt target source => rfl
      | handle derived handler result =>
        cases handler with
        | none => rfl
        | some handler => cases handler <;> rfl
  | returned =>
    unfold CreateQueues.step at hs
    dsimp only at hs
    split at hs
    case h_2 => cases hs
    case h_1 =>
      cases hs
      exact (List.append_nil _).symm
  | threw e =>
    unfold CreateQueues.step at hs
    dsimp only at hs
    split at hs
    case h_2 => cases hs
    case h_1 =>
      split at hs
      case isFalse => cases hs
      case isTrue =>
        cases hs
        exact (List.append_nil _).symm
  | settle n result =>
    unfold CreateQueues.step at hs
    dsimp only at hs
    split at hs
    case isFalse => cases hs
    case isTrue =>
      cases hs
      exact (List.append_nil _).symm

/-- The keys of a run are those of its calls, in their order. -/
theorem run_calls {events : List (Event K V)} (hs : run undefined events = some s) :
    s.calls = events.filterMap Event.key := by
  suffices h : ∀ start : State K V, events.foldlM (CreateQueues.step undefined) start = some s →
      s.calls = start.calls ++ events.filterMap Event.key from h empty hs
  clear hs
  induction events with
  | nil =>
    intro start hs
    cases hs
    exact (List.append_nil _).symm
  | cons event events ih =>
    intro start hs
    rw [List.foldlM_cons] at hs
    obtain ⟨next, hnext, hs⟩ := Option.bind_eq_some_iff.mp hs
    rw [ih next hs, step_calls hnext, List.append_assoc]
    cases hkey : event.key with
    | none => rw [List.filterMap_cons_none hkey, Option.toList_none, List.nil_append]
    | some key => rw [List.filterMap_cons_some hkey, Option.toList_some, List.singleton_append]

theorem Stands.started_nodup (h : Stands undefined s a) (hi : KeyedQueue.Inv a) :
    s.started.Nodup := by
  rw [h.started, List.nodup_iff_count_le_one]
  intro n
  by_cases hn : n ∈ a.started
  · have hlength := hi.placed.called_of_started hn
    have hkey : decide (a.calls[n]? = some a.calls[n]) = true := by simp
    have hfirst := hi.firstOf a.calls[n]
    rw [← List.count_filter (p := fun i => decide (a.calls[i]? = some a.calls[n])) hkey]
    refine (hfirst.sublist.count_le n).trans ?_
    exact List.nodup_iff_count_le_one.mp (List.nodup_range.filter _) n
  · rw [List.count_eq_zero_of_not_mem hn]
    exact Nat.zero_le _

/-- What a caller has settles as its own unit ended. -/
theorem Stands.run_result (h : Stands undefined s a) {result : Result V}
    (hrun : s.runtime.cells (.run n) = .settled result) : s.outcome n = some result := by
  rw [h.outcome]
  by_cases hrank : 7 ≤ (a.phase n).rank
  · obtain ⟨result', hout, hcell⟩ := h.runSettled n hrank
    rw [hcell, Cell.settled.injEq] at hrun
    rw [hout, hrun]
  · have hpending : ∃ reactions, s.runtime.cells (.run n) = .pending reactions := by
      by_cases hidle : a.phase n = .idle
      · exact ⟨_, h.runIdle n hidle⟩
      · exact ⟨_, h.runPending n hidle (by omega)⟩
    obtain ⟨reactions, hcell⟩ := hpending
    rw [hcell] at hrun
    cases hrun

theorem Stands.tail_fulfilled (h : Stands undefined s a) (hi : KeyedQueue.Inv a)
    {result : Result V} (htail : s.runtime.cells (.tail n) = .settled result) :
    result = .fulfilled undefined := by
  by_cases hfreed : (a.phase n).Freed
  · rw [h.tailSettled n hfreed, Cell.settled.injEq] at htail
    exact htail.symm
  · have hpending : ∃ reactions, s.runtime.cells (.tail n) = .pending reactions := by
      by_cases hidle : a.phase n = .idle
      · exact ⟨_, h.tailIdle n hidle⟩
      · have hlt := (hi.placed.called n).mp hidle
        exact ⟨_, h.tailPending n _ (List.getElem?_eq_getElem hlt) hfreed⟩
    obtain ⟨reactions, hcell⟩ := hpending
    rw [hcell] at htail
    cases htail

/-- Who is rejected is a unit, or what its own caller has. -/
theorem Stands.rejected (h : Stands undefined s a) (hi : KeyedQueue.Inv a) {p : Name} {e : V}
    (hp : s.runtime.cells p = .settled (.rejected e)) :
    ∃ n, (p = .unit n ∨ p = .run n) ∧ s.outcome n = some (.rejected e) := by
  rw [h.outcome]
  cases p with
  | resolved n => exact absurd hp (h.others n e).1
  | after n => exact absurd hp (h.others n e).2
  | unit n => exact ⟨n, .inl rfl, h.unitResult n _ hp⟩
  | run n => exact ⟨n, .inr rfl, h.outcome ▸ h.run_result hp⟩
  | tail n => cases h.tail_fulfilled hi hp

/-- Where a key has no entry, its calls have all ended. -/
theorem Stands.no_entry (h : Stands undefined s a) (hi : KeyedQueue.Inv a) {key : K}
    (hget : s.createQueues.get key = none) (hkey : s.calls[n]? = some key) :
    n ∈ s.started ∧ s.outcome n ≠ none := by
  rw [h.queues, Option.map_eq_none_iff] at hget
  rw [h.calls] at hkey
  have hfreed := hi.inOrder.lastGone key hget n hkey
  rw [h.started, h.outcome, hi.placed.started]
  exact ⟨Nat.le_trans (by decide) hfreed, hi.placed.ended n (Nat.le_trans (by decide) hfreed)⟩

/-- An entry is the `tail` of the last call of its key. -/
theorem Stands.entry (h : Stands undefined s a) (hi : KeyedQueue.Inv a) {key : K} {p : Name}
    (hget : s.createQueues.get key = some p) :
    ∃ n, p = .tail n ∧ s.calls[n]? = some key ∧ ∀ m, s.calls[m]? = some key → m ≤ n := by
  rw [h.queues] at hget
  obtain ⟨n, hlast, hp⟩ := Option.map_eq_some_iff.mp hget
  rw [h.calls]
  exact ⟨n, hp.symm, hi.inOrder.lastIs key n hlast⟩

end

end Bazar.Finance.CreateQueues
