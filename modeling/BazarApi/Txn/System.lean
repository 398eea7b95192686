import BazarApi.Txn.Program

/- Interleaved requests over one database. The history lists, in order, the
   statements executed and the transactions committed; the database is the fold
   of its commits over the initial one, so every earlier committed state is a
   prefix of the history. A statement waits until its row locks are free and then
   runs at once: under READ COMMITTED it sees every commit so far, under
   REPEATABLE READ those of its snapshot, and then a row it must lock that was
   written since the snapshot, in conflict with that lock, makes it fail. A commit
   applies the pending writes and releases the locks. Any transaction may also be
   ended by the database, and the acknowledgement of a commit may be lost. -/
namespace Txn

variable {S : Schema} {α : Type}

/-- A committed transaction: the request, its writes, the locks it held, and how long the history
was that it began on. -/
structure Commit (S : Schema) where
  pid : Nat
  writes : List S.Write
  locks : Locks S.Key
  snap : Nat

/-- What happened: a statement of a request, or a commit. -/
inductive Event (S : Schema) where
  | exec (pid : Nat) (q : S.Sql)
  | commit (c : Commit S)

abbrev History (S : Schema) := List (Event S)

/-- The commit a history ends with, if it ends with one. -/
def lastCommit? (h : History S) : Option (Commit S) :=
  match h.getLast? with
  | some (.commit c) => some c
  | _ => none

theorem eq_of_lastCommit? {h : History S} {c : Commit S} (hc : lastCommit? h = some c) :
    h = h.dropLast ++ [.commit c] := by
  unfold lastCommit? at hc
  split at hc
  · rename_i hlast
    cases hc
    obtain ⟨h', rfl⟩ := List.getLast?_eq_some_iff.mp hlast
    rw [List.dropLast_concat]
  · cases hc

def Event.pid : Event S → Nat
  | .exec pid _ => pid
  | .commit c => c.pid

def Event.writes : Event S → List S.Write
  | .exec _ _ => []
  | .commit c => c.writes

/-- The rows an event wrote, locked as its writes lock them. -/
def Event.written (e : Event S) : Locks S.Key := e.writes.map fun w => (S.key w, S.mode w)

/-- The database after writes, in order. -/
def applyAll (d : S.Db) (ws : List S.Write) : S.Db := ws.foldl S.apply d

/-- The committed database after a history. -/
def replay (d : S.Db) (h : History S) : S.Db := h.foldl (fun d e => applyAll d e.writes) d

@[simp] theorem applyAll_nil (d : S.Db) : applyAll d [] = d := rfl
@[simp] theorem applyAll_cons (d : S.Db) (w : S.Write) (ws : List S.Write) :
    applyAll d (w :: ws) = applyAll (S.apply d w) ws := rfl
@[simp] theorem applyAll_append (d : S.Db) (ws ws' : List S.Write) :
    applyAll d (ws ++ ws') = applyAll (applyAll d ws) ws' := by
  simp [applyAll]

@[simp] theorem replay_nil (d : S.Db) : replay d [] = d := rfl
@[simp] theorem replay_append (d : S.Db) (h h' : History S) :
    replay d (h ++ h') = replay (replay d h) h' := by
  simp [replay]
@[simp] theorem replay_exec (d : S.Db) (i : Nat) (q : S.Sql) (h : History S) :
    replay d (.exec i q :: h) = replay d h := rfl
@[simp] theorem replay_commit (d : S.Db) (c : Commit S) (h : History S) :
    replay d (.commit c :: h) = replay (applyAll d c.writes) h := rfl

theorem replay_sent (d : S.Db) (h : History S) (i : Nat) (q : S.Sql) :
    replay d (h ++ [.exec i q]) = replay d h := by
  rw [replay_append, replay_exec, replay_nil]

theorem replay_committed (d : S.Db) (h : History S) (c : Commit S) :
    replay d (h ++ [.commit c]) = applyAll (replay d h) c.writes := by
  rw [replay_append, replay_commit, replay_nil]

/-- Statements change nothing. -/
theorem replay_skip (d : S.Db) (i : Nat) (q : S.Sql) (h h' : History S) :
    replay d (h ++ .exec i q :: h') = replay d (h ++ h') := by
  rw [replay_append, replay_exec, ← replay_append]

/-- The history before the first statement of request `i` is a prefix of the history
before any of its statements. -/
theorem prefix_of_first {i : Nat} {q q' : S.Sql} {h h₁ h₂ h₃ : History S}
    (he : h = h₁ ++ .exec i q :: h₂) (hn : ∀ e ∈ h₁, e.pid ≠ i) (hp : h₃ ++ [.exec i q'] <+: h) :
    h₁ <+: h₃ := by
  have h1 : h₁ <+: h := he ▸ List.prefix_append _ _
  rcases List.prefix_or_prefix_of_prefix h1 ((List.prefix_append _ _).trans hp) with hle | ⟨n, rfl⟩
  · exact hle
  · cases n with
    | nil => simp
    | cons e n =>
      obtain ⟨m, hm⟩ := hp
      rw [← hm, List.append_assoc, List.append_assoc] at he
      have he := List.append_cancel_left he
      simp only [List.cons_append, List.cons.injEq] at he
      exact absurd (by rw [← he.1]; rfl) (hn e (by simp))

/-- Two events of a history are one, or one comes before the other. -/
theorem split_cases {h h₁ h₂ h₁' h₂' : History S} {e e' : Event S} (he : h = h₁ ++ e :: h₂)
    (he' : h = h₁' ++ e' :: h₂') : h₁ = h₁' ∨ h₁ ++ [e] <+: h₁' ∨ h₁' ++ [e'] <+: h₁ := by
  rcases List.append_eq_append_iff.mp (he.symm.trans he') with ⟨n, rfl, hn⟩ | ⟨n, rfl, hn⟩
  · cases n with
    | nil => exact .inl (List.append_nil _).symm
    | cons x n =>
      cases hn
      exact .inr (.inl ⟨n, by simp⟩)
  · cases n with
    | nil => exact .inl (List.append_nil _)
    | cons x n =>
      cases hn
      exact .inr (.inr ⟨n, by simp⟩)

/-- The first event of a request is one. -/
theorem first_unique {i : Nat} {h h₁ h₂ h₁' h₂' : History S} {e e' : Event S}
    (he : h = h₁ ++ e :: h₂) (he' : h = h₁' ++ e' :: h₂') (hi : e.pid = i) (hi' : e'.pid = i)
    (hn : ∀ x ∈ h₁, x.pid ≠ i) (hn' : ∀ x ∈ h₁', x.pid ≠ i) : h₁ = h₁' ∧ e = e' ∧ h₂ = h₂' := by
  have heq : h₁ = h₁' := by
    rcases split_cases he he' with heq | hp | hp
    · exact heq
    · exact absurd hi (hn' e (hp.subset (by simp)))
    · exact absurd hi' (hn e' (hp.subset (by simp)))
  subst heq
  obtain ⟨rfl, rfl⟩ := List.cons.inj (List.append_cancel_left (he.symm.trans he'))
  exact ⟨rfl, rfl, rfl⟩

/-- The first event of a request that has one. -/
theorem first_event {h : History S} {e : Event S} (he : e ∈ h) :
    ∃ h₁ e' h₂, h = h₁ ++ e' :: h₂ ∧ e'.pid = e.pid ∧ ∀ x ∈ h₁, x.pid ≠ e.pid := by
  induction h with
  | nil => cases he
  | cons x h ih =>
    by_cases hx : x.pid = e.pid
    · exact ⟨[], x, h, rfl, hx, by simp⟩
    · have he : e ∈ h := by
        rcases List.mem_cons.mp he with rfl | he
        · exact absurd rfl hx
        · exact he
      obtain ⟨h₁, e', h₂, rfl, hp, hn⟩ := ih he
      refine ⟨x :: h₁, e', h₂, rfl, hp, ?_⟩
      intro y hy
      rcases List.mem_cons.mp hy with rfl | hy
      · exact hx
      · exact hn y hy

/-- What held of the database and holds no more, some commit in between ended. -/
theorem replay_crossing (P : S.Db → Prop) {d : S.Db} {h n : History S} (h0 : P (replay d h))
    (hn : ¬ P (replay d (h ++ n))) :
    ∃ g c g', n = g ++ .commit c :: g' ∧ P (replay d (h ++ g)) ∧
      ¬ P (replay d (h ++ g ++ [.commit c])) := by
  induction n generalizing h with
  | nil =>
    rw [List.append_nil] at hn
    exact absurd h0 hn
  | cons e n ih =>
    by_cases he : P (replay d (h ++ [e]))
    · obtain ⟨g, c, g', rfl, hp, hc⟩ := ih he (by simpa using hn)
      exact ⟨e :: g, c, g', rfl, by simpa using hp, by simpa using hc⟩
    · cases e with
      | exec i q => exact absurd (by simpa using h0) he
      | commit c => exact ⟨[], c, n, rfl, by simpa using h0, by simpa using he⟩

/-- An open transaction: its isolation, the history it began on, its locks and
its writes so far. -/
structure Open (S : Schema) where
  iso : Isolation
  snap : History S
  held : Locks S.Key
  pending : List S.Write

namespace Open

/-- What the next statement sees when it runs after history `h`. -/
def view (t : Open S) (d : S.Db) (h : History S) : S.Db :=
  match t.iso with
  | .readCommitted => applyAll (replay d h) t.pending
  | .repeatableRead => applyAll (replay d t.snap) t.pending

/-- Under snapshot isolation, no row of `ls` was written since the snapshot in a way that
conflicts with its lock. -/
def Fresh (t : Open S) (h : History S) (ls : Locks S.Key) : Prop :=
  match t.iso with
  | .readCommitted => True
  | .repeatableRead => ∀ e ∈ h.drop t.snap.length, Apart ls e.written

instance (t : Open S) (h : History S) (ls : Locks S.Key) : Decidable (t.Fresh h ls) := by
  unfold Fresh
  cases t.iso
  · exact inferInstanceAs (Decidable True)
  · exact inferInstanceAs (Decidable (∀ e ∈ h.drop t.snap.length, Apart ls e.written))

def commit (t : Open S) (pid : Nat) : Commit S := ⟨pid, t.pending, t.held, t.snap.length⟩

/-- The transaction after a statement that took `ls` and wrote `ws`. -/
def after (t : Open S) (ls : Locks S.Key) (ws : List S.Write) : Open S :=
  { t with held := t.held ++ ls, pending := t.pending ++ ws }

@[simp] theorem after_nil (t : Open S) : t.after [] [] = t := by
  simp only [after, List.append_nil]

@[simp] theorem after_iso (t : Open S) (ls : Locks S.Key) (ws : List S.Write) :
    (t.after ls ws).iso = t.iso := rfl

@[simp] theorem after_held (t : Open S) (ls : Locks S.Key) (ws : List S.Write) :
    (t.after ls ws).held = t.held ++ ls := rfl

@[simp] theorem after_pending (t : Open S) (ls : Locks S.Key) (ws : List S.Write) :
    (t.after ls ws).pending = t.pending ++ ws := rfl

end Open

/-- The locks a statement takes: those it asks for and one for each row it writes. -/
def taken (q : S.Sql) (v : S.Db) (ws : List S.Write) : Locks S.Key :=
  S.locks q v ++ ws.map (fun w => (S.key w, S.mode w))

/-- A request being served: between transactions, or inside one. -/
inductive Proc (S : Schema) (α : Type) : Type 1 where
  | call (c : Call S α)
  | run {β : Type} (t : Open S) (body : Tx S β) (k : Except S.Err β → Call S α)

/-- The locks a request holds. -/
def Proc.held : Proc S α → Locks S.Key
  | .call _ => []
  | .run t _ _ => t.held

/-- One step of request `i` after history `h`: the events it adds and what it
becomes. `free` tells the locks nobody else keeps it from. -/
inductive ProcStep (d : S.Db) (i : Nat) (h : History S) (free : Locks S.Key → Prop) :
    Proc S α → History S → Proc S α → Prop where
  | start {β : Type} {iso : Isolation} {body : Tx S β} {k : Except S.Err β → Call S α} :
    ProcStep d i h free (.call (.tx iso body k)) [] (.run ⟨iso, h, [], []⟩ body k)
  | exec {β : Type} {t : Open S} {q : S.Sql} {f : S.Res q → Tx S β} {k : Except S.Err β → Call S α}
    {r : S.Res q} {ws : List S.Write} (hx : S.exec q (t.view d h) = .ok (r, ws))
    (hs : t.Fresh h (taken q (t.view d h) ws)) (hf : free (taken q (t.view d h) ws)) :
    ProcStep d i h free (.run t (.stmt q f) k) [.exec i q]
      (.run (t.after (taken q (t.view d h) ws) ws) (f r) k)
  | reject {β : Type} {t : Open S} {q : S.Sql} {f : S.Res q → Tx S β} {k : Except S.Err β → Call S α}
    {e : S.Err} (hx : S.exec q (t.view d h) = .error e) :
    ProcStep d i h free (.run t (.stmt q f) k) [.exec i q] (.call (k (.error e)))
  | stale {β : Type} {t : Open S} {q : S.Sql} {f : S.Res q → Tx S β} {k : Except S.Err β → Call S α}
    {r : S.Res q} {ws : List S.Write} (hx : S.exec q (t.view d h) = .ok (r, ws))
    (hs : ¬ t.Fresh h (taken q (t.view d h) ws)) :
    ProcStep d i h free (.run t (.stmt q f) k) [.exec i q] (.call (k (.error (S.stale q))))
  | throw {β : Type} {t : Open S} {e : S.Err} {k : Except S.Err β → Call S α} :
    ProcStep d i h free (.run t (.throw e) k) [] (.call (k (.error e)))
  | commit {β : Type} {t : Open S} {b : β} {k : Except S.Err β → Call S α} :
    ProcStep d i h free (.run t (.ret b) k) [.commit (t.commit i)] (.call (k (.ok b)))
  | unacknowledged {β : Type} {t : Open S} {b : β} {k : Except S.Err β → Call S α} {e : S.Err}
    (he : S.spontaneous e) :
    ProcStep d i h free (.run t (.ret b) k) [.commit (t.commit i)] (.call (k (.error e)))
  | aborted {β : Type} {t : Open S} {body : Tx S β} {k : Except S.Err β → Call S α} {e : S.Err}
    (he : S.spontaneous e) :
    ProcStep d i h free (.run t body k) [] (.call (k (.error e)))

/-- The whole system: what happened, and the requests. -/
structure Sys (S : Schema) (α : Type) where
  hist : History S
  procs : List (Proc S α)

namespace Sys

/-- Nobody but request `i` holds a lock that conflicts with `ls`. -/
def Free (s : Sys S α) (i : Nat) (ls : Locks S.Key) : Prop :=
  ∀ p ∈ s.procs.zipIdx, p.2 ≠ i → Apart p.1.held ls

instance (s : Sys S α) (i : Nat) (ls : Locks S.Key) : Decidable (s.Free i ls) :=
  inferInstanceAs (Decidable (∀ p ∈ s.procs.zipIdx, p.2 ≠ i → Apart p.1.held ls))

theorem Free.apart {s : Sys S α} {i j : Nat} {ls : Locks S.Key} {p : Proc S α}
    (h : s.Free i ls) (hp : s.procs[j]? = some p) (hij : j ≠ i) : Apart p.held ls :=
  h (p, j) (List.mem_zipIdx_iff_getElem?.mpr hp) hij

/-- One step of some request. -/
inductive Step (d : S.Db) : Sys S α → Sys S α → Prop where
  | mk {s : Sys S α} {i : Nat} {p p' : Proc S α} {es : History S} (hp : s.procs[i]? = some p)
    (hs : ProcStep d i s.hist (s.Free i) p es p') :
    Step d s ⟨s.hist ++ es, s.procs.set i p'⟩

/-- Runs: any number of steps. -/
inductive Reach (d : S.Db) : Sys S α → Sys S α → Prop where
  | refl (s : Sys S α) : Reach d s s
  | tail {s s' s'' : Sys S α} : Reach d s s' → Step d s' s'' → Reach d s s''

theorem Reach.trans {d : S.Db} {s s' s'' : Sys S α} (h : Reach d s s') (h' : Reach d s' s'') :
    Reach d s s'' := by
  induction h' with
  | refl => exact h
  | tail _ hs ih => exact .tail ih hs

/-- Requests waiting to be served, on the initial database. -/
def initial (calls : List (Call S α)) : Sys S α := ⟨[], calls.map .call⟩

/-- Request `i` has been answered. -/
def Answered (s : Sys S α) (i : Nat) (r : Except S.Err α) : Prop :=
  s.procs[i]? = some (.call (Call.ofExcept r))

/-- The answer of request `i`, if it has one. -/
def answer? (s : Sys S α) (i : Nat) : Option (Except S.Err α) :=
  match s.procs[i]? with
  | some (.call (.ret a)) => some (.ok a)
  | some (.call (.throw e)) => some (.error e)
  | _ => none

theorem answered_of_answer? {s : Sys S α} {i : Nat} {r : Except S.Err α}
    (h : s.answer? i = some r) : s.Answered i r := by
  unfold answer? at h
  split at h
  · rename_i hp
    cases h
    exact hp
  · rename_i hp
    cases h
    exact hp
  · cases h

/-! Stepping by schedule. -/

/-- The step request `i` takes when the database raises no error by itself, if it
need not wait. -/
def advance (d : S.Db) (s : Sys S α) (i : Nat) : Option (Sys S α) :=
  match s.procs[i]? with
  | some (.call (.tx iso body k)) => some ⟨s.hist, s.procs.set i (.run ⟨iso, s.hist, [], []⟩ body k)⟩
  | some (.run t (.stmt q f) k) =>
    match S.exec q (t.view d s.hist) with
    | .error e => some ⟨s.hist ++ [.exec i q], s.procs.set i (.call (k (.error e)))⟩
    | .ok (r, ws) =>
      let ls := taken q (t.view d s.hist) ws
      if t.Fresh s.hist ls then
        if s.Free i ls then
          some ⟨s.hist ++ [.exec i q], s.procs.set i (.run (t.after ls ws) (f r) k)⟩
        else none
      else some ⟨s.hist ++ [.exec i q], s.procs.set i (.call (k (.error (S.stale q))))⟩
  | some (.run _ (.throw e) k) => some ⟨s.hist, s.procs.set i (.call (k (.error e)))⟩
  | some (.run t (.ret b) k) =>
    some ⟨s.hist ++ [.commit (t.commit i)], s.procs.set i (.call (k (.ok b)))⟩
  | _ => none

theorem advance_step {d : S.Db} {s s' : Sys S α} {i : Nat} (h : s.advance d i = some s') :
    Step d s s' := by
  unfold advance at h
  split at h
  · rename_i hp
    cases h
    have hs := Step.mk (d := d) hp .start
    rwa [List.append_nil] at hs
  · rename_i hp
    split at h
    · rename_i hx
      cases h
      exact .mk hp (.reject hx)
    · rename_i hx
      simp only at h
      split at h
      · rename_i hfr
        split at h
        · rename_i hfree
          cases h
          exact .mk hp (.exec hx hfr hfree)
        · cases h
      · rename_i hfr
        cases h
        exact .mk hp (.stale hx hfr)
  · rename_i hp
    cases h
    have hs := Step.mk (d := d) hp .throw
    rwa [List.append_nil] at hs
  · rename_i hp
    cases h
    exact .mk hp .commit
  · cases h

/-- Steps the requests named by `is`, in order. -/
def schedule (d : S.Db) (s : Sys S α) : List Nat → Option (Sys S α)
  | [] => some s
  | i :: is => (s.advance d i).bind fun s' => s'.schedule d is

theorem schedule_reach {d : S.Db} {is : List Nat} {s s' : Sys S α}
    (h : s.schedule d is = some s') : Reach d s s' := by
  induction is generalizing s with
  | nil => cases h; exact .refl _
  | cons i is ih =>
    obtain ⟨s₁, h₁, h₂⟩ := Option.bind_eq_some_iff.mp h
    exact Reach.trans (.tail (.refl _) (advance_step h₁)) (ih h₂)

/-- The state a schedule ends in, when every step of it could be taken. -/
def scheduled (d : S.Db) (s : Sys S α) (is : List Nat) : Sys S α := (s.schedule d is).getD s

theorem scheduled_reach {d : S.Db} {is : List Nat} {s : Sys S α}
    (h : (s.schedule d is).isSome = true) : Reach d s (s.scheduled d is) := by
  obtain ⟨s', hs⟩ := Option.isSome_iff_exists.mp h
  rw [scheduled, hs]
  exact schedule_reach hs

end Sys

end Txn
