import Mathlib.Logic.Function.Basic

/- Promises and the jobs that settle them, as ECMAScript orders them: `settle` (`resolve` and
   `reject` with a value that is not a promise), `subscribe` (`then`), and the queue of jobs, one
   for each reaction of a promise that is settled. What a job does with its handler is the reader's
   machine. A promise that was never touched is pending without reactions, so that none is
   created. -/

namespace Promise

inductive Result (V : Type) where
  | fulfilled (v : V)
  | rejected (e : V)
  deriving DecidableEq

/-- What waits for a promise: the handlers of a `then`, with the promise that `then` returned, or a
    promise that was resolved with this one. -/
inductive Reaction (P H : Type) where
  | handlers (derived : P) (onFulfilled onRejected : Option H)
  | resolved (target : P)
  deriving DecidableEq

inductive Job (P H V : Type) where
  /-- Calls the handler, or passes the result on where there is none. -/
  | handle (derived : P) (handler : Option H) (result : Result V)
  | settle (target : P) (result : Result V)
  /-- Subscribes a promise to the one it was resolved with. -/
  | adopt (target source : P)
  deriving DecidableEq

inductive Cell (P H V : Type) where
  | pending (reactions : List (Reaction P H))
  | settled (result : Result V)
  deriving DecidableEq

structure Runtime (P H V : Type) where
  cells : P → Cell P H V
  jobs : List (Job P H V)

variable {P H V : Type} [DecidableEq P]

def Reaction.job (result : Result V) : Reaction P H → Job P H V
  | .handlers derived onFulfilled onRejected =>
    match result with
    | .fulfilled _ => .handle derived onFulfilled result
    | .rejected _ => .handle derived onRejected result
  | .resolved target => .settle target result

namespace Runtime

def empty : Runtime P H V := ⟨fun _ => .pending [], []⟩

def settle (rt : Runtime P H V) (p : P) (result : Result V) : Runtime P H V :=
  match rt.cells p with
  | .pending reactions =>
    { cells := Function.update rt.cells p (.settled result),
      jobs := rt.jobs ++ reactions.map (Reaction.job result) }
  | .settled _ => rt

def subscribe (rt : Runtime P H V) (p : P) (reaction : Reaction P H) : Runtime P H V :=
  match rt.cells p with
  | .pending reactions =>
    { rt with cells := Function.update rt.cells p (.pending (reactions ++ [reaction])) }
  | .settled result => { rt with jobs := rt.jobs ++ [reaction.job result] }

def enqueue (rt : Runtime P H V) (job : Job P H V) : Runtime P H V :=
  { rt with jobs := rt.jobs ++ [job] }

variable (rt : Runtime P H V) (p : P) {reactions : List (Reaction P H)}

theorem settle_pending (result : Result V) (h : rt.cells p = .pending reactions) :
    rt.settle p result =
      { cells := Function.update rt.cells p (.settled result),
        jobs := rt.jobs ++ reactions.map (Reaction.job result) } := by
  unfold settle
  rw [h]

theorem subscribe_pending (reaction : Reaction P H) (h : rt.cells p = .pending reactions) :
    rt.subscribe p reaction =
      { rt with cells := Function.update rt.cells p (.pending (reactions ++ [reaction])) } := by
  unfold subscribe
  rw [h]

theorem subscribe_settled {result : Result V} (reaction : Reaction P H)
    (h : rt.cells p = .settled result) :
    rt.subscribe p reaction = { rt with jobs := rt.jobs ++ [reaction.job result] } := by
  unfold subscribe
  rw [h]

end Runtime

end Promise
