import BazarApi.Js.Groups
import BazarApi.Js.Promise

/- The creations of a context queue up (`serialized` of `finance/finance-agreements.service.ts`):
   a map of promises, each of which settles when the last creation of its key has ended, and which
   a creation takes its own out of when no other came after it. The events are those that the
   process may meet in any order: a call, the next job of the runtime, and what a unit does, which
   returns a promise or throws, and whose promise settles at some time. A call may come at any
   time, also from inside a unit. Reactions that callers subscribe to what they get are calls, or
   nothing to the map.

   Correspondence (TypeScript ↔ Lean):
     `run`, `tail`, `tail.then(…)` of the n-th call  ↔ `Name.run n`, `Name.tail n`, `Name.after n`
     `Promise.resolve()`, the promise of `unit()`    ↔ `Name.resolved n`, `Name.unit n`
     `() => undefined`, the callback that deletes    ↔ `Handler.ignore`, `Handler.cleanup` -/
open Promise

namespace Bazar.Finance.CreateQueues

/-! The process. -/

/-- The promises of the n-th call. -/
inductive Name where
  | resolved (n : Nat)
  | unit (n : Nat)
  | run (n : Nat)
  | tail (n : Nat)
  | after (n : Nat)
  deriving DecidableEq

inductive Handler (K : Type) where
  | unit (n : Nat)
  | ignore
  | cleanup (key : K) (n : Nat)
  deriving DecidableEq

structure State (K V : Type) where
  runtime : Runtime Name (Handler K) V
  createQueues : Js.Map K Name
  /-- The keys of the calls, in their order. -/
  calls : List K
  /-- The unit on the stack. -/
  current : Option Nat
  /-- The units that began, in their order, and how units ended. -/
  started : List Nat
  outcome : Nat → Option (Result V)

inductive Event (K V : Type) where
  | call (key : K)
  | job
  | returned
  | threw (e : V)
  | settle (n : Nat) (result : Result V)

/-- The key of a call. -/
def Event.key {K V : Type} : Event K V → Option K
  | .call key => some key
  | _ => none

section
variable {K V : Type} [DecidableEq K] (undefined : V)

def empty : State K V := ⟨.empty, [], [], none, [], fun _ => none⟩

/-- The promise its caller is given, and the process after the call. -/
def serialized (key : K) (s : State K V) : Name × State K V :=
  let n := s.calls.length
  let previous := (s.createQueues.get key).getD (.resolved n)
  let resolved := match s.createQueues.get key with
    | some _ => s.runtime
    | none => s.runtime.settle (.resolved n) (.fulfilled undefined)
  let run := resolved.subscribe previous (.handlers (.run n) (some (.unit n)) (some (.unit n)))
  let tail := run.subscribe (.run n) (.handlers (.tail n) (some .ignore) (some .ignore))
  let after := tail.subscribe (.tail n) (.handlers (.after n) (some (.cleanup key n)) none)
  (.run n, { s with runtime := after, createQueues := s.createQueues.set key (.tail n),
                    calls := s.calls ++ [key] })

/-- A job, past the queue. A unit is left on the stack. -/
def runJob (s : State K V) : Job Name (Handler K) V → State K V
  | .settle target result => { s with runtime := s.runtime.settle target result }
  | .adopt target source => { s with runtime := s.runtime.subscribe source (.resolved target) }
  | .handle derived none result => { s with runtime := s.runtime.settle derived result }
  | .handle derived (some .ignore) _ =>
    { s with runtime := s.runtime.settle derived (.fulfilled undefined) }
  | .handle derived (some (.cleanup key n)) _ =>
    let queues := if s.createQueues.get key = some (.tail n) then s.createQueues.delete key
      else s.createQueues
    { s with createQueues := queues, runtime := s.runtime.settle derived (.fulfilled undefined) }
  | .handle _ (some (.unit n)) _ => { s with current := some n, started := s.started ++ [n] }

def step (s : State K V) : Event K V → Option (State K V)
  | .call key => some (serialized undefined key s).2
  | .job =>
    match s.current, s.runtime.jobs with
    | none, job :: jobs => some (runJob undefined { s with runtime := { s.runtime with jobs := jobs } } job)
    | _, _ => none
  -- `run` is resolved with what the unit returned, or rejected with what it threw.
  | .returned =>
    match s.current with
    | some n => some { s with runtime := s.runtime.enqueue (.adopt (.run n) (.unit n)), current := none }
    | none => none
  | .threw e =>
    match s.current with
    | some n =>
      if s.outcome n = none then
        some { s with runtime := s.runtime.settle (.run n) (.rejected e), current := none,
                      outcome := Function.update s.outcome n (some (.rejected e)) }
      else none
    | none => none
  | .settle n result =>
    if n ∈ s.started ∧ s.outcome n = none then
      some { s with runtime := s.runtime.settle (.unit n) result,
                    outcome := Function.update s.outcome n (some result) }
    else none

/-- A run from the start of the process. -/
def run (events : List (Event K V)) : Option (State K V) :=
  events.foldlM (step undefined) empty

end

/-! Whole runs of the process. -/

/-- A run without an end, with nothing at some times. -/
structure Trace (K V : Type) [DecidableEq K] (undefined : V) where
  state : Nat → State K V
  event : Nat → Option (Event K V)
  start : state 0 = empty
  next : ∀ i, match event i with
    | some event => step undefined (state i) event = some (state (i + 1))
    | none => state (i + 1) = state i

section
variable {K V : Type} [DecidableEq K] {undefined : V}

/-- The runtime runs the jobs that are due, a unit on the stack returns or throws, and what a unit
    promised settles. -/
structure Fair (trace : Trace K V undefined) : Prop where
  jobs : ∀ i, (trace.state i).runtime.jobs ≠ [] → ∃ j, i ≤ j ∧ trace.event j = some .job
  stack : ∀ i n, (trace.state i).current = some n → ∃ j, i ≤ j ∧ (trace.state j).current = none
  units : ∀ i n, n ∈ (trace.state i).started → ∃ j, i ≤ j ∧ (trace.state j).outcome n ≠ none

end

/-- A unit that began and has not ended. -/
def Running {K V : Type} (s : State K V) (n : Nat) : Prop := n ∈ s.started ∧ s.outcome n = none

end Bazar.Finance.CreateQueues
