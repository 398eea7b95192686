import Mathlib.Data.List.Basic
import Mathlib.Data.Nat.Basic
import Mathlib.Logic.Function.Basic

/- Calls that wait in line by key, as a machine of its own: what each call is doing (`Phase`), who
   waits for whom, and the jobs that are due, one call a job. A call begins when the one before it
   with its key has let go (`Freed`). Its events are those of the runtime that carries it: a job is
   run, what a job began returns or throws, and what it returned settles. -/

namespace KeyedQueue

/-- What a call is doing. Between two phases that are in line stands what the runtime does alone. -/
inductive Phase where
  | idle
  /-- For the call before it. -/
  | waiting
  | queued
  /-- Its unit is on the stack. -/
  | invoked
  /-- The unit returned a promise, which is to be subscribed to, and then is. -/
  | adopting
  | adopted
  /-- The promise settled, and so did what the caller has. -/
  | passing
  | finished
  /-- The next call may begin; the entry is to be looked at, and then was. -/
  | tailed
  | done
  deriving DecidableEq

namespace Phase

def rank : Phase → Nat
  | idle => 0
  | waiting => 1
  | queued => 2
  | invoked => 3
  | adopting => 4
  | adopted => 5
  | passing => 6
  | finished => 7
  | tailed => 8
  | done => 9

/-- There is a job for the call. -/
def InLine (p : Phase) : Prop :=
  p = queued ∨ p = adopting ∨ p = passing ∨ p = finished ∨ p = tailed

def Begun (p : Phase) : Prop := 3 ≤ p.rank

def Ended (p : Phase) : Prop := 6 ≤ p.rank

/-- The call has let go of its key. -/
def Freed (p : Phase) : Prop := 8 ≤ p.rank

instance (p : Phase) : Decidable p.Begun := inferInstanceAs (Decidable (3 ≤ p.rank))

instance (p : Phase) : Decidable p.Freed := inferInstanceAs (Decidable (8 ≤ p.rank))

end Phase

structure State (K R : Type) where
  /-- The keys of the calls, in their order. -/
  calls : List K
  phase : Nat → Phase
  outcome : Nat → Option R
  /-- Who begins when a call lets go. -/
  waiter : Nat → Option Nat
  line : List Nat
  last : K → Option Nat
  current : Option Nat
  started : List Nat

inductive Event (K R : Type) where
  | call (key : K)
  | job
  | returned
  | threw (r : R)
  | settle (n : Nat) (r : R)

variable {K R : Type} [DecidableEq K]

namespace State

def empty : State K R := ⟨[], fun _ => .idle, fun _ => none, fun _ => none, [], fun _ => none, none, []⟩

def put (s : State K R) (n : Nat) (p : Phase) : State K R :=
  { s with phase := Function.update s.phase n p }

def push (s : State K R) (n : Nat) : State K R := { s with line := s.line ++ [n] }

/-- The call before, while it has the key. -/
def before (s : State K R) (key : K) : Option Nat :=
  (s.last key).filter fun m => decide ¬(s.phase m).Freed

def call (s : State K R) (key : K) : State K R :=
  let n := s.calls.length
  let s' := { s with calls := s.calls ++ [key], last := Function.update s.last key (some n) }
  match s.before key with
  | some m => { s'.put n .waiting with waiter := Function.update s.waiter m (some n) }
  | none => (s'.put n .queued).push n

/-- The job of a call, past the line. -/
def job (s : State K R) (n : Nat) : Option (State K R) :=
  match s.phase n with
  | .queued => some { s.put n .invoked with current := some n, started := s.started ++ [n] }
  | .adopting =>
    match s.outcome n with
    | none => some (s.put n .adopted)
    | some _ => some ((s.put n .passing).push n)
  | .passing => some ((s.put n .finished).push n)
  | .finished =>
    match s.waiter n with
    | none => some ((s.put n .tailed).push n)
    | some m => some ((((s.put n .tailed).push n).put m .queued).push m)
  | .tailed => some { s.put n .done with last := fun k => if s.last k = some n then none else s.last k }
  | _ => none

def step (s : State K R) : Event K R → Option (State K R)
  | .call key => some (s.call key)
  | .job =>
    match s.current, s.line with
    | none, n :: line => { s with line := line }.job n
    | _, _ => none
  | .returned =>
    match s.current with
    | some n => some ({ s.put n .adopting with current := none }.push n)
    | none => none
  | .threw r =>
    match s.current with
    | some n =>
      if s.outcome n = none then
        some ({ s.put n .finished with
          outcome := Function.update s.outcome n (some r), current := none }.push n)
      else none
    | none => none
  | .settle n r =>
    if (s.phase n).Begun ∧ s.outcome n = none then
      let s' := { s with outcome := Function.update s.outcome n (some r) }
      some (if s.phase n = .adopted then (s'.put n .passing).push n else s')
    else none

end State

theorem State.call_some {s : State K R} {key : K} {m : Nat} (h : s.before key = some m) :
    s.call key =
      { s with
        calls := s.calls ++ [key]
        last := Function.update s.last key (some s.calls.length)
        phase := Function.update s.phase s.calls.length .waiting
        waiter := Function.update s.waiter m (some s.calls.length) } := by
  unfold State.call
  dsimp only
  rw [h]
  rfl

theorem State.call_none {s : State K R} {key : K} (h : s.before key = none) :
    s.call key =
      { s with
        calls := s.calls ++ [key]
        last := Function.update s.last key (some s.calls.length)
        phase := Function.update s.phase s.calls.length .queued
        line := s.line ++ [s.calls.length] } := by
  unfold State.call
  dsimp only
  rw [h]
  rfl

/-- What an event does, case by case. -/
inductive Step (s : State K R) : Event K R → State K R → Prop where
  | call (key : K) : Step s (.call key) (s.call key)
  | invoke {n : Nat} {line : List Nat} (hidle : s.current = none) (hline : s.line = n :: line)
      (hn : s.phase n = .queued) :
      Step s .job { s with
        phase := Function.update s.phase n .invoked, line := line, current := some n,
        started := s.started ++ [n] }
  | adopt {n : Nat} {line : List Nat} (hidle : s.current = none) (hline : s.line = n :: line)
      (hn : s.phase n = .adopting) (hnone : s.outcome n = none) :
      Step s .job { s with phase := Function.update s.phase n .adopted, line := line }
  | adoptSettled {n : Nat} {line : List Nat} {r : R} (hidle : s.current = none)
      (hline : s.line = n :: line) (hn : s.phase n = .adopting) (hsome : s.outcome n = some r) :
      Step s .job { s with phase := Function.update s.phase n .passing, line := line ++ [n] }
  | pass {n : Nat} {line : List Nat} (hidle : s.current = none) (hline : s.line = n :: line)
      (hn : s.phase n = .passing) :
      Step s .job { s with phase := Function.update s.phase n .finished, line := line ++ [n] }
  | release {n : Nat} {line : List Nat} (hidle : s.current = none) (hline : s.line = n :: line)
      (hn : s.phase n = .finished) (hnobody : s.waiter n = none) :
      Step s .job { s with phase := Function.update s.phase n .tailed, line := line ++ [n] }
  | releaseNext {n m : Nat} {line : List Nat} (hidle : s.current = none)
      (hline : s.line = n :: line) (hn : s.phase n = .finished) (hm : s.waiter n = some m) :
      Step s .job { s with
        phase := Function.update (Function.update s.phase n .tailed) m .queued,
        line := line ++ [n] ++ [m] }
  | forget {n : Nat} {line : List Nat} (hidle : s.current = none) (hline : s.line = n :: line)
      (hn : s.phase n = .tailed) :
      Step s .job { s with
        phase := Function.update s.phase n .done, line := line,
        last := fun k => if s.last k = some n then none else s.last k }
  | returned {n : Nat} (hcurrent : s.current = some n) :
      Step s .returned { s with
        phase := Function.update s.phase n .adopting, line := s.line ++ [n], current := none }
  | threw {n : Nat} {r : R} (hcurrent : s.current = some n) (hnone : s.outcome n = none) :
      Step s (.threw r) { s with
        phase := Function.update s.phase n .finished, line := s.line ++ [n], current := none,
        outcome := Function.update s.outcome n (some r) }
  | settleAdopted {n : Nat} {r : R} (hn : s.phase n = .adopted) (hnone : s.outcome n = none) :
      Step s (.settle n r) { s with
        phase := Function.update s.phase n .passing, line := s.line ++ [n],
        outcome := Function.update s.outcome n (some r) }
  | settleEarly {n : Nat} {r : R} (hbegun : (s.phase n).Begun) (hn : s.phase n ≠ .adopted)
      (hnone : s.outcome n = none) :
      Step s (.settle n r) { s with outcome := Function.update s.outcome n (some r) }

theorem State.step_cases {s s' : State K R} {event : Event K R} (hs : s.step event = some s') :
    Step s event s' := by
  cases event with
  | call key =>
    cases hs
    exact .call key
  | job =>
    unfold State.step at hs
    dsimp only at hs
    split at hs
    case h_2 => cases hs
    case h_1 n line hidle hline =>
      unfold State.job at hs
      dsimp only at hs
      split at hs
      case h_1 hn =>
        cases hs
        exact .invoke hidle hline hn
      case h_2 hn =>
        split at hs
        case h_1 hnone =>
          cases hs
          exact .adopt hidle hline hn hnone
        case h_2 r hsome =>
          cases hs
          exact .adoptSettled hidle hline hn hsome
      case h_3 hn =>
        cases hs
        exact .pass hidle hline hn
      case h_4 hn =>
        split at hs
        case h_1 hnobody =>
          cases hs
          exact .release hidle hline hn hnobody
        case h_2 m hm =>
          cases hs
          exact .releaseNext hidle hline hn hm
      case h_5 hn =>
        cases hs
        exact .forget hidle hline hn
      case h_6 => cases hs
  | returned =>
    unfold State.step at hs
    dsimp only at hs
    split at hs
    case h_1 n hcurrent =>
      cases hs
      exact .returned hcurrent
    case h_2 => cases hs
  | threw r =>
    unfold State.step at hs
    dsimp only at hs
    split at hs
    case h_1 n hcurrent =>
      split at hs
      case isTrue hnone =>
        cases hs
        exact .threw hcurrent hnone
      case isFalse => cases hs
    case h_2 => cases hs
  | settle n r =>
    unfold State.step at hs
    dsimp only at hs
    split at hs
    case isTrue hbegun =>
      rw [Option.some.injEq] at hs
      split at hs
      case isTrue hadopted =>
        subst hs
        exact .settleAdopted hadopted hbegun.2
      case isFalse hadopted =>
        subst hs
        exact .settleEarly hbegun.1 hadopted hbegun.2
    case isFalse => cases hs

/-! What holds in every run. -/

/-- Each call is where its phase says. -/
structure Placed (s : State K R) : Prop where
  called : ∀ n, s.phase n ≠ .idle ↔ n < s.calls.length
  line : ∀ n, n ∈ s.line ↔ (s.phase n).InLine
  nodup : s.line.Nodup
  current : ∀ n, s.current = some n ↔ s.phase n = .invoked
  started : ∀ n, n ∈ s.started ↔ (s.phase n).Begun
  early : ∀ n, ¬(s.phase n).Begun → s.outcome n = none
  adopted : ∀ n, s.phase n = .adopted → s.outcome n = none
  ended : ∀ n, (s.phase n).Ended → s.outcome n ≠ none

/-- The calls of a key let go in their order. -/
structure InOrder (s : State K R) : Prop where
  order : ∀ m n, m < n → n < s.calls.length → s.calls[m]? = s.calls[n]? → s.phase n ≠ .waiting →
    (s.phase m).Freed
  waits : ∀ n, s.phase n = .waiting → ∃ m, s.waiter m = some n
  waiter : ∀ m n, s.waiter m = some n → m < n ∧ n < s.calls.length ∧ s.calls[m]? = s.calls[n]? ∧
    (∀ i, i < n → s.calls[i]? = s.calls[n]? → i ≤ m) ∧ (s.phase n = .waiting ↔ ¬(s.phase m).Freed)
  lastIs : ∀ k n, s.last k = some n → s.calls[n]? = some k ∧ ∀ m, s.calls[m]? = some k → m ≤ n
  lastGone : ∀ k, s.last k = none → ∀ m, s.calls[m]? = some k → (s.phase m).Freed

/-- Begun calls of a key, in the order they began, are the first calls of the key. -/
def FirstOf (s : State K R) : Prop :=
  ∀ k, (s.started.filter fun n => s.calls[n]? = some k) <+:
    (List.range s.calls.length).filter fun n => s.calls[n]? = some k

structure Inv (s : State K R) : Prop where
  placed : Placed s
  inOrder : InOrder s
  firstOf : FirstOf s

section
variable {s s' : State K R} {n : Nat} {key : K} {r : R}

omit [DecidableEq K] in
theorem Placed.empty : Placed (.empty : State K R) := by
  constructor <;> simp [State.empty, Phase.InLine, Phase.Begun, Phase.Ended, Phase.rank]

omit [DecidableEq K] in
theorem InOrder.empty : InOrder (.empty : State K R) := by
  constructor <;> simp [State.empty]

omit [DecidableEq K] in
/-- What a call finds of its own. -/
theorem InOrder.fresh (h : InOrder s) (hp : Placed s) :
    s.phase s.calls.length = .idle ∧ s.waiter s.calls.length = none ∧
      s.outcome s.calls.length = none ∧ ∀ n ∈ s.line, n < s.calls.length := by
  have hidle : s.phase s.calls.length = .idle := by
    by_contra hne
    exact Nat.lt_irrefl _ ((hp.called _).mp hne)
  refine ⟨hidle, ?_, ?_, ?_⟩
  · cases hw : s.waiter s.calls.length with
    | none => rfl
    | some m =>
      obtain ⟨hlt, hm, -⟩ := h.waiter _ m hw
      omega
  · refine hp.early _ ?_
    rw [hidle]
    decide
  · intro n hn
    rw [← hp.called]
    intro hidle
    rw [hp.line, hidle] at hn
    simp [Phase.InLine] at hn

omit [DecidableEq K] in
theorem Placed.called_of_started (h : Placed s) (hn : n ∈ s.started) : n < s.calls.length := by
  rw [← h.called]
  intro hidle
  have hbegun := (h.started n).mp hn
  rw [hidle] at hbegun
  exact absurd hbegun (by decide)

theorem Placed.call (h : Placed s) (key : K) : Placed (s.call key) := by
  unfold State.call State.push State.put
  dsimp only
  split
  · constructor <;> grind [Placed, Function.update_apply, Phase.InLine, Phase.Begun, Phase.Ended, Phase.rank]
  · constructor <;> grind [Placed, Function.update_apply, Phase.InLine, Phase.Begun, Phase.Ended, Phase.rank]

omit [DecidableEq K] in
theorem before_some {m : Nat} (h : s.before key = some m) :
    s.last key = some m ∧ ¬(s.phase m).Freed := by
  unfold State.before at h
  rw [Option.filter_eq_some_iff] at h
  simpa using h

omit [DecidableEq K] in
theorem before_none (h : s.before key = none) {m : Nat} (hm : s.last key = some m) :
    (s.phase m).Freed := by
  unfold State.before at h
  rw [hm] at h
  simpa using h

theorem Freed.not_waiting {p : Phase} (h : p.Freed) : p ≠ .waiting := by
  rintro rfl
  exact absurd h (by decide)

omit [DecidableEq K] in
/-- When a call comes, whoever has the key is the last of its calls. -/
theorem InOrder.freed_before (h : InOrder s) (hb : s.before key = none) {m : Nat}
    (hm : s.calls[m]? = some key) : (s.phase m).Freed := by
  cases hlast : s.last key with
  | none => exact h.lastGone key hlast m hm
  | some l =>
    have hl := before_none hb hlast
    obtain ⟨hkey, hmost⟩ := h.lastIs key l hlast
    rcases Nat.lt_or_eq_of_le (hmost m hm) with hlt | rfl
    · exact h.order m l hlt (List.getElem?_eq_some_iff.mp hkey).1 (hm.trans hkey.symm)
        (Freed.not_waiting hl)
    · exact hl

omit [DecidableEq K] in
/-- The last call of a key is the last that could wait. -/
theorem InOrder.nobody_waits (h : InOrder s) {m : Nat} (hlast : s.last key = some m) :
    s.waiter m = none := by
  obtain ⟨hmkey, hmost⟩ := h.lastIs key m hlast
  cases hw : s.waiter m with
  | none => rfl
  | some n =>
    obtain ⟨hlt, -, hsame, -⟩ := h.waiter m n hw
    have hle := hmost n (hsame.symm.trans hmkey)
    omega

/-! A call comes last. -/

omit [DecidableEq K] in
theorem getElem?_old {calls : List K} {k : K} {i : Nat} (hk : k ≠ key)
    (hi : (calls ++ [key])[i]? = some k) : calls[i]? = some k := by
  have hlt := (List.getElem?_eq_some_iff.mp hi).1
  rw [List.length_append, List.length_singleton] at hlt
  by_cases hold : i < calls.length
  · rwa [List.getElem?_append_left hold] at hi
  · have heq : i = calls.length := by omega
    rw [heq, List.getElem?_concat_length, Option.some.injEq] at hi
    exact absurd hi.symm hk

omit [DecidableEq K] in
/-- Those who need not wait have none before them. -/
theorem InOrder.order_call (h : InOrder s) {p : Phase}
    (hfree : p ≠ .waiting → ∀ m, s.calls[m]? = some key → (s.phase m).Freed) {i j : Nat} (hij : i < j)
    (hj : j < (s.calls ++ [key]).length) (hsame : (s.calls ++ [key])[i]? = (s.calls ++ [key])[j]?)
    (hw : Function.update s.phase s.calls.length p j ≠ .waiting) :
    (Function.update s.phase s.calls.length p i).Freed := by
  rw [List.length_append, List.length_singleton] at hj
  have hi : i < s.calls.length := by omega
  rw [List.getElem?_append_left hi] at hsame
  rw [Function.update_of_ne (Nat.ne_of_lt hi)]
  by_cases hjn : j = s.calls.length
  · rw [hjn, Function.update_self] at hw
    rw [hjn, List.getElem?_concat_length] at hsame
    exact hfree hw i hsame
  · have hjl : j < s.calls.length := by omega
    rw [List.getElem?_append_left hjl] at hsame
    rw [Function.update_of_ne hjn] at hw
    exact h.order i j hij hjl hsame hw

omit [DecidableEq K] in
/-- Who waited before waits as it did. -/
theorem InOrder.waiter_call (h : InOrder s) (key : K) (p : Phase) {i j : Nat}
    (hij : s.waiter i = some j) :
    i < j ∧ j < (s.calls ++ [key]).length ∧ (s.calls ++ [key])[i]? = (s.calls ++ [key])[j]? ∧
      (∀ l, l < j → (s.calls ++ [key])[l]? = (s.calls ++ [key])[j]? → l ≤ i) ∧
      (Function.update s.phase s.calls.length p j = .waiting ↔
        ¬(Function.update s.phase s.calls.length p i).Freed) := by
  obtain ⟨hlt, hj, hsame, hmost, hiff⟩ := h.waiter i j hij
  have hi : i < s.calls.length := Nat.lt_trans hlt hj
  rw [List.length_append, List.getElem?_append_left hi, List.getElem?_append_left hj,
    Function.update_of_ne (Nat.ne_of_lt hi), Function.update_of_ne (Nat.ne_of_lt hj)]
  refine ⟨hlt, by omega, hsame, ?_, hiff⟩
  intro l hl hlkey
  rw [List.getElem?_append_left (Nat.lt_trans hl hj)] at hlkey
  exact hmost l hl hlkey

theorem InOrder.lastIs_call (h : InOrder s) {k : K}
    (hn : Function.update s.last key (some s.calls.length) k = some n) :
    (s.calls ++ [key])[n]? = some k ∧ ∀ m, (s.calls ++ [key])[m]? = some k → m ≤ n := by
  by_cases hk : k = key
  · rw [hk, Function.update_self, Option.some.injEq] at hn
    rw [hk, ← hn]
    refine ⟨List.getElem?_concat_length, ?_⟩
    intro m hm
    have hlt := (List.getElem?_eq_some_iff.mp hm).1
    rw [List.length_append, List.length_singleton] at hlt
    omega
  · rw [Function.update_of_ne hk] at hn
    obtain ⟨hnk, hmost⟩ := h.lastIs k n hn
    have hlt := (List.getElem?_eq_some_iff.mp hnk).1
    rw [List.getElem?_append_left hlt]
    exact ⟨hnk, fun m hm => hmost m (getElem?_old hk hm)⟩

theorem InOrder.lastGone_call (h : InOrder s) (p : Phase) {k : K}
    (hk : Function.update s.last key (some s.calls.length) k = none) {j : Nat}
    (hj : (s.calls ++ [key])[j]? = some k) :
    (Function.update s.phase s.calls.length p j).Freed := by
  have hne : k ≠ key := by
    rintro rfl
    rw [Function.update_self] at hk
    cases hk
  have hold := getElem?_old hne hj
  have hlt := (List.getElem?_eq_some_iff.mp hold).1
  rw [Function.update_of_ne hne] at hk
  rw [Function.update_of_ne (Nat.ne_of_lt hlt)]
  exact h.lastGone k hk j hold

/-- A call that waits for another, which nobody waited for. -/
theorem InOrder.call_waits (h : InOrder s) {m : Nat} (hm : s.before key = some m) :
    InOrder (s.call key) := by
  obtain ⟨hlast, hfreed⟩ := before_some hm
  obtain ⟨hmkey, hmost⟩ := h.lastIs key m hlast
  have hml := (List.getElem?_eq_some_iff.mp hmkey).1
  have hnobody := h.nobody_waits hlast
  rw [State.call_some hm]
  constructor
  · intro i j
    exact h.order_call fun hw => absurd rfl hw
  · intro j hj
    dsimp only at hj ⊢
    by_cases hjn : j = s.calls.length
    · exact ⟨m, by rw [Function.update_self, hjn]⟩
    · rw [Function.update_of_ne hjn] at hj
      obtain ⟨i, hi⟩ := h.waits j hj
      have him : i ≠ m := by
        rintro rfl
        rw [hnobody] at hi
        cases hi
      exact ⟨i, by rw [Function.update_of_ne him]; exact hi⟩
  · intro i j hij
    dsimp only at hij ⊢
    by_cases him : i = m
    · rw [him, Function.update_self, Option.some.injEq] at hij
      rw [him, ← hij, List.getElem?_concat_length, List.getElem?_append_left hml,
        Function.update_self, Function.update_of_ne (Nat.ne_of_lt hml)]
      refine ⟨hml, by simp, hmkey, ?_, iff_of_true rfl hfreed⟩
      intro l hl hlkey
      rw [List.getElem?_append_left hl] at hlkey
      exact hmost l hlkey
    · rw [Function.update_of_ne him] at hij
      exact h.waiter_call key .waiting hij
  · intro k n
    exact h.lastIs_call
  · intro k hk j
    exact h.lastGone_call .waiting hk

/-- A call whose key is free. -/
theorem InOrder.call_begins (h : InOrder s) (hnone : s.before key = none) :
    InOrder (s.call key) := by
  rw [State.call_none hnone]
  constructor
  · intro i j
    exact h.order_call fun _ m hm => h.freed_before hnone hm
  · intro j hj
    dsimp only at hj
    by_cases hjn : j = s.calls.length
    · rw [hjn, Function.update_self] at hj
      cases hj
    · rw [Function.update_of_ne hjn] at hj
      exact h.waits j hj
  · intro i j
    exact h.waiter_call key .queued
  · intro k n
    exact h.lastIs_call
  · intro k hk j
    exact h.lastGone_call .queued hk

theorem InOrder.call (h : InOrder s) (key : K) : InOrder (s.call key) := by
  cases hb : s.before key with
  | none => exact h.call_begins hb
  | some m => exact h.call_waits hb

/-! A call goes on. -/

omit [DecidableEq K] in
/-- Moves that neither wait nor let go. -/
theorem InOrder.congr (h : InOrder s) (hcalls : s'.calls = s.calls) (hwaiter : s'.waiter = s.waiter)
    (hlast : s'.last = s.last) (hwaiting : ∀ n, s'.phase n = .waiting ↔ s.phase n = .waiting)
    (hfreed : ∀ n, (s'.phase n).Freed ↔ (s.phase n).Freed) : InOrder s' := by
  obtain ⟨order, waits, waiter, lastIs, lastGone⟩ := h
  constructor
  · intro m n hmn hn hkey hw
    rw [hcalls] at hn hkey
    rw [ne_eq, hwaiting] at hw
    exact (hfreed m).mpr (order m n hmn hn hkey hw)
  · intro n hn
    rw [hwaiter]
    exact waits n ((hwaiting n).mp hn)
  · intro m n hmn
    rw [hwaiter] at hmn
    rw [hcalls, hwaiting, hfreed]
    exact waiter m n hmn
  · intro k n hn
    rw [hlast] at hn
    rw [hcalls]
    exact lastIs k n hn
  · intro k hk m hm
    rw [hlast] at hk
    rw [hcalls] at hm
    exact (hfreed m).mpr (lastGone k hk m hm)

omit [DecidableEq K] in
theorem InOrder.put {p q : Phase} (h : InOrder s) (hcalls : s'.calls = s.calls)
    (hwaiter : s'.waiter = s.waiter) (hlast : s'.last = s.last)
    (hphase : s'.phase = Function.update s.phase n p) (hn : s.phase n = q)
    (hpq : p ≠ .waiting ∧ q ≠ .waiting ∧ (p.Freed ↔ q.Freed)) : InOrder s' := by
  obtain ⟨hp, hq, hf⟩ := hpq
  refine h.congr hcalls hwaiter hlast ?_ ?_
  · intro i
    rw [hphase]
    by_cases hi : i = n
    · rw [hi, Function.update_self, hn]
      exact iff_of_false hp hq
    · rw [Function.update_of_ne hi]
  · intro i
    rw [hphase]
    by_cases hi : i = n
    · rw [hi, Function.update_self, hn]
      exact hf
    · rw [Function.update_of_ne hi]

omit [DecidableEq K] in
/-- A call lets go, and who waits for it waits no more. -/
theorem InOrder.release (h : InOrder s) (hn : s.phase n = .finished) (hcalls : s'.calls = s.calls)
    (hwaiter : s'.waiter = s.waiter) (hlast : s'.last = s.last)
    (hwaiting : ∀ i, s'.phase i = .waiting ↔ s.phase i = .waiting ∧ s.waiter n ≠ some i)
    (hfreed : ∀ i, (s'.phase i).Freed ↔ (s.phase i).Freed ∨ i = n) : InOrder s' := by
  obtain ⟨order, waits, waiter, lastIs, lastGone⟩ := h
  have hnw : s.phase n ≠ .waiting := by
    rw [hn]
    nofun
  constructor
  · intro i j hij hj hkey hw
    rw [hcalls] at hj hkey
    rw [ne_eq, hwaiting, not_and, not_not] at hw
    rw [hfreed]
    by_cases hjw : s.phase j = .waiting
    · obtain ⟨hnj, -, hsame, hmost, -⟩ := waiter n j (hw hjw)
      rcases Nat.lt_or_eq_of_le (hmost i hij hkey) with hlt | heq
      · exact .inl (order i n hlt (Nat.lt_trans hnj hj) (hkey.trans hsame.symm) hnw)
      · exact .inr heq
    · exact .inl (order i j hij hj hkey hjw)
  · intro j hj
    rw [hwaiter]
    exact waits j ((hwaiting j).mp hj).1
  · intro i j hij
    rw [hwaiter] at hij
    obtain ⟨hlt, hj, hsame, hmost, hiff⟩ := waiter i j hij
    -- Only one call is waited for.
    have hone : s.waiter n = some j ↔ i = n := by
      constructor
      · intro hnj
        obtain ⟨hlt', -, hsame', hmost', -⟩ := waiter n j hnj
        exact Nat.le_antisymm (hmost' i hlt hsame) (hmost n hlt' hsame')
      · rintro rfl
        exact hij
    rw [hcalls, hwaiting, hfreed, ne_eq, hone, hiff, not_or]
    exact ⟨hlt, hj, hsame, hmost, Iff.rfl⟩
  · intro k j hj
    rw [hlast] at hj
    rw [hcalls]
    exact lastIs k j hj
  · intro k hk j hj
    rw [hlast] at hk
    rw [hcalls] at hj
    exact (hfreed j).mpr (.inl (lastGone k hk j hj))

omit [DecidableEq K] in
/-- A call that let go takes its key away with it, if no other came. -/
theorem InOrder.forget (h : InOrder s) (hn : s.phase n = .tailed) (hcalls : s'.calls = s.calls)
    (hwaiter : s'.waiter = s.waiter) (hphase : s'.phase = Function.update s.phase n .done)
    (hlast : s'.last = fun k => if s.last k = some n then none else s.last k) : InOrder s' := by
  have hput : InOrder { s' with last := s.last } :=
    h.put hcalls hwaiter rfl hphase hn (by decide)
  obtain ⟨order, waits, waiter, lastIs, lastGone⟩ := hput
  have hdone : s'.phase n = .done := by
    rw [hphase]
    exact Function.update_self ..
  refine ⟨order, waits, waiter, ?_, ?_⟩
  · intro k j hj
    rw [hlast] at hj
    dsimp only at hj
    split at hj
    · cases hj
    · exact lastIs k j hj
  · intro k hk m hm
    rw [hlast] at hk
    dsimp only at hk
    split at hk
    case isFalse => exact lastGone k hk m hm
    case isTrue hlast =>
      obtain ⟨hkey, hmost⟩ := lastIs k n hlast
      rcases Nat.lt_or_eq_of_le (hmost m hm) with hlt | rfl
      · refine order m n hlt (List.getElem?_eq_some_iff.mp hkey).1 (hm.trans hkey.symm) ?_
        show s'.phase n ≠ .waiting
        rw [hdone]
        nofun
      · rw [hdone]
        decide

theorem FirstOf.congr (h : FirstOf s) (hcalls : s'.calls = s.calls) (hstarted : s'.started = s.started) :
    FirstOf s' := by
  unfold FirstOf
  rw [hcalls, hstarted]
  exact h

theorem FirstOf.call (h : FirstOf s) (hp : Placed s) (key : K) : FirstOf (s.call key) := by
  have hcalls : (s.call key).calls = s.calls ++ [key] := by
    unfold State.call
    dsimp only
    split <;> rfl
  have hstarted : (s.call key).started = s.started := by
    unfold State.call
    dsimp only
    split <;> rfl
  intro k
  have hold (i : Nat) (hi : i < s.calls.length) : (s.calls ++ [key])[i]? = s.calls[i]? :=
    List.getElem?_append_left hi
  rw [hcalls, hstarted, List.length_append, List.length_singleton, List.range_succ,
    List.filter_append]
  have hleft : (s.started.filter fun n => (s.calls ++ [key])[n]? = some k) =
      s.started.filter fun n => s.calls[n]? = some k :=
    List.filter_congr fun n hn => by rw [hold n (hp.called_of_started hn)]
  have hright : ((List.range s.calls.length).filter fun n => (s.calls ++ [key])[n]? = some k) =
      (List.range s.calls.length).filter fun n => s.calls[n]? = some k :=
    List.filter_congr fun n hn => by rw [hold n (List.mem_range.mp hn)]
  rw [hleft, hright]
  exact (h k).trans (List.prefix_append _ _)

/-- The call that begins is the next one of its key. -/
theorem FirstOf.start (h : FirstOf s) (hb : ∀ n, n ∈ s.started ↔ (s.phase n).Begun)
    (ho : InOrder s) (hn : s.phase n = .queued) (hcalls : s'.calls = s.calls)
    (hstarted : s'.started = s.started ++ [n]) : FirstOf s' := by
  intro k
  rw [hcalls, hstarted, List.filter_append]
  by_cases hk : s.calls[n]? = some k
  · obtain ⟨rest, hrest⟩ := h k
    have hnot : n ∉ s.started := by
      rw [hb, hn]
      decide
    have hsorted : ((List.range s.calls.length).filter fun n => s.calls[n]? = some k).Pairwise (· < ·) :=
      List.Pairwise.filter _ List.pairwise_lt_range
    have hmem : n ∈ (List.range s.calls.length).filter fun n => s.calls[n]? = some k := by
      rw [List.mem_filter, List.mem_range]
      exact ⟨(List.getElem?_eq_some_iff.mp hk).1, decide_eq_true hk⟩
    rw [← hrest] at hsorted hmem ⊢
    rcases List.mem_append.mp hmem with hleft | hright
    · exact absurd (List.mem_of_mem_filter hleft) hnot
    cases rest with
    | nil => cases hright
    | cons m rest =>
      -- Whoever comes first of those left has let go, if it is another.
      rcases List.mem_cons.mp hright with rfl | hlater
      · have hone : ([n].filter fun n => s.calls[n]? = some k) = [n] := by simp [hk]
        rw [hone]
        exact ⟨rest, by simp⟩
      · exfalso
        obtain ⟨-, hrest', hdisjoint⟩ := List.pairwise_append.mp hsorted
        have hmn : m < n := (List.pairwise_cons.mp hrest').1 n hlater
        have hm : m ∈ (List.range s.calls.length).filter fun n => s.calls[n]? = some k := by
          rw [← hrest]
          simp
        have hmk := of_decide_eq_true (List.mem_filter.mp hm).2
        have hfreed := ho.order m n hmn (List.getElem?_eq_some_iff.mp hk).1 (hmk.trans hk.symm)
          (by rw [hn]; nofun)
        have hstarted : m ∈ s.started := (hb m).mpr (Nat.le_trans (by decide) hfreed)
        exact Nat.lt_irrefl m (hdisjoint m (List.mem_filter.mpr ⟨hstarted, decide_eq_true hmk⟩) m
          List.mem_cons_self)
  · have hnone : ([n].filter fun n => s.calls[n]? = some k) = [] := by simp [hk]
    rw [hnone, List.append_nil]
    exact h k

omit [DecidableEq K] in
/-- Who waits for a call that has the key is waiting. -/
theorem InOrder.waiting (h : InOrder s) (hn : ¬(s.phase n).Freed) {m : Nat}
    (hm : s.waiter n = some m) : s.phase m = .waiting ∧ n < m := by
  obtain ⟨hlt, -, -, -, hiff⟩ := h.waiter n m hm
  exact ⟨hiff.mpr hn, hlt⟩

theorem Placed.step (h : Placed s) (ho : InOrder s) {event : Event K R} (hs : Step s event s') :
    Placed s' := by
  cases hs with
  | call key => exact h.call key
  | releaseNext hidle hline hn hm =>
    obtain ⟨hwaiting, hlt⟩ := ho.waiting (by rw [hn]; decide) hm
    constructor <;>
      grind [Placed, Function.update_apply, Phase.InLine, Phase.Begun, Phase.Ended, Phase.rank]
  | _ =>
    constructor <;>
      grind [Placed, Function.update_apply, Phase.InLine, Phase.Begun, Phase.Ended, Phase.rank]

theorem InOrder.step (h : InOrder s) (hp : Placed s) {event : Event K R} (hs : Step s event s') :
    InOrder s' := by
  cases hs with
  | call key => exact h.call key
  | invoke _ _ hn => exact h.put rfl rfl rfl rfl hn (by decide)
  | adopt _ _ hn => exact h.put rfl rfl rfl rfl hn (by decide)
  | adoptSettled _ _ hn => exact h.put rfl rfl rfl rfl hn (by decide)
  | pass _ _ hn => exact h.put rfl rfl rfl rfl hn (by decide)
  | release _ _ hn hnobody =>
    refine h.release hn rfl rfl rfl ?_ ?_
    · intro i
      grind [Function.update_apply]
    · intro i
      grind [Function.update_apply, Phase.Freed, Phase.rank]
  | releaseNext _ _ hn hm =>
    obtain ⟨hwaiting, hlt⟩ := h.waiting (by rw [hn]; decide) hm
    refine h.release hn rfl rfl rfl ?_ ?_
    · intro i
      grind [Function.update_apply]
    · intro i
      grind [Function.update_apply, Phase.Freed, Phase.rank]
  | forget _ _ hn => exact h.forget hn rfl rfl rfl rfl
  | returned hcurrent => exact h.put rfl rfl rfl rfl ((hp.current _).mp hcurrent) (by decide)
  | threw hcurrent => exact h.put rfl rfl rfl rfl ((hp.current _).mp hcurrent) (by decide)
  | settleAdopted hn => exact h.put rfl rfl rfl rfl hn (by decide)
  | settleEarly => exact ⟨h.order, h.waits, h.waiter, h.lastIs, h.lastGone⟩

theorem FirstOf.step (h : FirstOf s) (hp : Placed s) (ho : InOrder s) {event : Event K R}
    (hs : Step s event s') : FirstOf s' := by
  cases hs with
  | call key => exact h.call hp key
  | invoke _ _ hn => exact h.start hp.started ho hn rfl rfl
  | _ => exact h.congr rfl rfl

/-- Every event keeps the calls in their places and in order. -/
theorem Inv.step (h : Inv s) {event : Event K R} (hs : s.step event = some s') : Inv s' := by
  have hstep := State.step_cases hs
  obtain ⟨hp, ho, hf⟩ := h
  exact ⟨hp.step ho hstep, ho.step hp hstep, hf.step hp ho hstep⟩

theorem Inv.empty : Inv (.empty : State K R) :=
  ⟨.empty, .empty, fun _ => List.nil_prefix⟩

/-- A job of the line, by the phase of its call. -/
theorem State.step_job {line : List Nat} (hidle : s.current = none) (hline : s.line = n :: line) :
    s.step .job = ({ s with line := line } : State K R).job n := by
  unfold State.step
  rw [hidle, hline]

end

end KeyedQueue
