import Mathlib.Logic.Relation
import BazarApi.Txn.Logic

/- Who waits for whom. A request waits for another when its next statement asks for a
   row lock that the other keeps from it; a cycle of such waits is a deadlock, which
   the database ends by killing somebody. `Tx.Climbs` is the discipline that rules it
   out for the rows of a class: a transaction asks for each such row for writing, and
   only for rows it has already or that come after all it has. Like `Tx.Safe` it
   recurses over a program; `Sys.no_deadlock` is its soundness. -/
namespace Txn

variable {S : Schema} {α β γ : Type}

/-- No two requests hold conflicting locks. -/
def Sys.Apart (s : Sys S α) : Prop :=
  ∀ (i j : Nat) (p p' : Proc S α), i ≠ j → s.procs[i]? = some p → s.procs[j]? = some p' →
    Txn.Apart p.held p'.held

/-- The next statement of request `i` asks for a lock on a row of the class `P` that
request `j` keeps from it. -/
def Sys.Waits (d : S.Db) (P : S.Key → Prop) (s : Sys S α) (i j : Nat) : Prop :=
  match s.procs[i]? with
  | some (.run t (.stmt q _) _) =>
    match S.exec q (t.view d s.hist) with
    | .ok (_, ws) => i ≠ j ∧ ∃ p ∈ s.procs[j]?, ∃ x ∈ taken q (t.view d s.hist) ws,
        ∃ y ∈ p.held, x.1 = y.1 ∧ P x.1 ∧ x.2.conflicts y.2 = true
    | .error _ => False
  | _ => False

instance (d : S.Db) (P : S.Key → Prop) [DecidablePred P] (s : Sys S α) (i j : Nat) :
    Decidable (s.Waits d P i j) := by
  unfold Sys.Waits
  split
  · split
    · infer_instance
    · exact inferInstanceAs (Decidable False)
  · exact inferInstanceAs (Decidable False)

/-- Some requests wait for each other in a circle. -/
def Sys.Deadlocked (d : S.Db) (P : S.Key → Prop) (s : Sys S α) : Prop :=
  ∃ i, Relation.TransGen (s.Waits d P) i i

section
variable (P : S.Key → Prop) (lt : S.Key → S.Key → Prop)

/-- Holding `held`, locks `ls` may be asked for: those on rows of the class are for writing,
and on a row held or after all rows of the class held. -/
def Climb (held ls : Locks S.Key) : Prop :=
  ∀ x ∈ ls, P x.1 → x.2.writes = true ∧
    ((∃ m, (x.1, m) ∈ held) ∨ ∀ y ∈ held, P y.1 → lt y.1 x.1)

/-- Holding `held`, the program asks for rows in order, whatever it reads, and ends with
locks that satisfy `Q`. -/
def Tx.Climbs (Q : β → Locks S.Key → Prop) : Tx S β → Locks S.Key → Prop
  | .ret b, held => Q b held
  | .throw _, _ => True
  | .stmt q f, held => ∀ v r ws, S.exec q v = .ok (r, ws) →
      Climb P lt held (taken q v ws) ∧ Climbs Q (f r) (held ++ taken q v ws)

/-- The only row of the class the program may ask for is `k`, and for writing. -/
def Tx.Only (k : S.Key) : Tx S β → Prop
  | .ret _ => True
  | .throw _ => True
  | .stmt q f => ∀ v r ws, S.exec q v = .ok (r, ws) →
      (∀ x ∈ taken q v ws, P x.1 → x.1 = k ∧ x.2.writes = true) ∧ Only k (f r)

/-- Every transaction of the request does. -/
def Call.Climbs : Call S α → Prop
  | .ret _ => True
  | .throw _ => True
  | .tx _ body k => body.Climbs P lt (fun _ _ => True) [] ∧ ∀ r, Climbs (k r)

def Proc.Climbs : Proc S α → Prop
  | .call c => c.Climbs P lt
  | .run t body k => body.Climbs P lt (fun _ _ => True) t.held ∧
      (∀ x ∈ t.held, P x.1 → x.2.writes = true) ∧ ∀ r, (k r).Climbs P lt

end

section
variable {P : S.Key → Prop} {lt : S.Key → S.Key → Prop} {held : Locks S.Key}

/-! Rules for the parts of a program. -/

theorem Tx.Climbs.mono {Q Q' : β → Locks S.Key → Prop} {x : Tx S β} (hx : x.Climbs P lt Q held)
    (hq : ∀ b held', Q b held' → Q' b held') : x.Climbs P lt Q' held := by
  induction x generalizing held with
  | ret b => exact hq b held hx
  | throw e => trivial
  | stmt q f ih =>
    intro v r ws he
    obtain ⟨hc, hf⟩ := hx v r ws he
    exact ⟨hc, ih r hf⟩

theorem Tx.Climbs.bind {Q : γ → Locks S.Key → Prop} {Q' : β → Locks S.Key → Prop} {x : Tx S β}
    {f : β → Tx S γ} (hx : x.Climbs P lt Q' held)
    (hf : ∀ b held', Q' b held' → (f b).Climbs P lt Q held') : (x >>= f).Climbs P lt Q held := by
  induction x generalizing held with
  | ret b => exact hf b held hx
  | throw e => trivial
  | stmt q k ih =>
    intro v r ws he
    obtain ⟨hc, hk⟩ := hx v r ws he
    exact ⟨hc, ih r hk⟩

theorem Tx.Climbs.orThrow {Q : γ → Locks S.Key → Prop} {o : Option β} {e : S.Err} {f : β → Tx S γ}
    (hs : ∀ a, o = some a → (f a).Climbs P lt Q held) :
    (Tx.orThrow o e >>= f).Climbs P lt Q held := by
  cases o with
  | some a => exact hs a rfl
  | none => trivial

theorem Tx.Climbs.require {Q : γ → Locks S.Key → Prop} {c : Prop} [Decidable c] {e : S.Err}
    {f : Unit → Tx S γ} (hs : c → (f ()).Climbs P lt Q held) :
    (Tx.require c e >>= f).Climbs P lt Q held := by
  unfold Tx.require
  split
  · rename_i hc
    exact hs hc
  · trivial

theorem Tx.Climbs.ofExcept {Q : γ → Locks S.Key → Prop} {x : Except S.Err β} {f : β → Tx S γ}
    (hs : ∀ a, x = .ok a → (f a).Climbs P lt Q held) :
    (Tx.ofExcept x >>= f).Climbs P lt Q held := by
  cases x with
  | ok a => exact hs a rfl
  | error e => trivial

theorem Tx.Only.bind {k : S.Key} {x : Tx S β} {f : β → Tx S γ} (hx : x.Only P k)
    (hf : ∀ b, (f b).Only P k) : (x >>= f).Only P k := by
  induction x with
  | ret b => exact hf b
  | throw e => trivial
  | stmt q g ih =>
    intro v r ws he
    obtain ⟨hc, hg⟩ := hx v r ws he
    exact ⟨hc, ih r hg⟩

theorem Tx.Only.orThrow (k : S.Key) (o : Option β) (e : S.Err) : (Tx.orThrow o e).Only P k := by
  cases o <;> trivial

theorem Tx.Only.orThrow_bind {k : S.Key} {o : Option β} {e : S.Err} {f : β → Tx S γ}
    (hf : ∀ a, o = some a → (f a).Only P k) : (Tx.orThrow o e >>= f).Only P k := by
  cases o with
  | none => trivial
  | some a => exact hf a rfl

theorem Tx.Only.require (k : S.Key) (c : Prop) [Decidable c] (e : S.Err) :
    (Tx.require c e : Tx S Unit).Only P k := by
  unfold Tx.require
  split <;> trivial

theorem Tx.Only.ofExcept (k : S.Key) (x : Except S.Err β) : (Tx.ofExcept x).Only P k := by
  cases x <;> trivial

/-- One row is always in order. -/
theorem Tx.Only.climbs {k : S.Key} {x : Tx S β} (hx : x.Only P k)
    (hh : ∀ y ∈ held, P y.1 → y.1 = k) : x.Climbs P lt (fun _ _ => True) held := by
  induction x generalizing held with
  | ret b => trivial
  | throw e => trivial
  | stmt q f ih =>
    intro v r ws he
    obtain ⟨hc, hf⟩ := hx v r ws he
    refine ⟨?_, ih r hf ?_⟩
    · intro x hm hP
      obtain ⟨hk, hw⟩ := hc x hm hP
      refine ⟨hw, ?_⟩
      by_cases hy : ∃ y ∈ held, P y.1
      · obtain ⟨y, hym, hyP⟩ := hy
        exact .inl ⟨y.2, by rw [hk, ← hh y hym hyP]; exact hym⟩
      · exact .inr fun y hym hyP => absurd ⟨y, hym, hyP⟩ hy
    · intro y hm hP
      rcases List.mem_append.mp hm with hm | hm
      · exact hh y hm hP
      · exact (hc y hm hP).1

/-- The answer changed by a function asks for the same. -/
theorem Call.Climbs.map {c : Call S α} {f : α → β} (hc : c.Climbs P lt) :
    (c >>= fun a => Call.ret (f a)).Climbs P lt := by
  induction c with
  | ret a => trivial
  | throw e => trivial
  | tx iso body k ih => exact ⟨hc.1, fun r => ih r (hc.2 r)⟩

theorem Call.Climbs.transaction_bind {iso : Isolation} {body : Tx S α} {f : α → Call S β}
    (hb : body.Climbs P lt (fun _ _ => True) []) (hf : ∀ a, (f a).Climbs P lt) :
    (Call.transaction iso body >>= f).Climbs P lt := by
  refine ⟨hb, ?_⟩
  intro r
  cases r with
  | ok a => exact hf a
  | error e => trivial

theorem Call.Climbs.ofExcept (r : Except S.Err α) : (Call.ofExcept r : Call S α).Climbs P lt := by
  cases r <;> trivial

/-! Soundness. -/

/-- A step keeps the discipline. -/
theorem ProcStep.climbs {d : S.Db} {i : Nat} {h es : History S} {free : Locks S.Key → Prop}
    {p p' : Proc S α} (hs : ProcStep d i h free p es p') (hp : p.Climbs P lt) : p'.Climbs P lt := by
  cases hs with
  | start => exact ⟨hp.1, by simp, hp.2⟩
  | exec hx _ _ =>
    obtain ⟨hb, hw, hk⟩ := hp
    obtain ⟨hc, hf⟩ := hb _ _ _ hx
    refine ⟨hf, ?_, hk⟩
    intro x hm hP
    rcases List.mem_append.mp hm with hm | hm
    · exact hw x hm hP
    · exact (hc x hm hP).1
  | reject _ => exact hp.2.2 _
  | stale _ _ => exact hp.2.2 _
  | throw => exact hp.2.2 _
  | commit => exact hp.2.2 _
  | unacknowledged _ => exact hp.2.2 _
  | aborted _ => exact hp.2.2 _

theorem Sys.Reach.climbs {d : S.Db} {s s' : Sys S α} (hr : Sys.Reach d s s')
    (hs : ∀ p ∈ s.procs, p.Climbs P lt) : ∀ p ∈ s'.procs, p.Climbs P lt := by
  induction hr with
  | refl => exact hs
  | tail _ hstep ih =>
    cases hstep with
    | mk hp hstep =>
      intro p hm
      rcases List.mem_or_eq_of_mem_set hm with hm | rfl
      · exact ih p hm
      · exact hstep.climbs (ih _ (List.mem_of_getElem? hp))

/-- What a waiting request asks for comes after all it holds, and is held by the other. -/
theorem Sys.Waits.climbs {d : S.Db} {s : Sys S α} {i j : Nat} (hw : s.Waits d P i j)
    (ha : s.Apart)
    (hc : ∀ p ∈ s.procs, p.Climbs P lt) :
    ∃ p p' k, s.procs[i]? = some p ∧ s.procs[j]? = some p' ∧ P k ∧ (∃ m, (k, m) ∈ p'.held) ∧
      ∀ y ∈ p.held, P y.1 → lt y.1 k := by
  unfold Sys.Waits at hw
  split at hw
  · rename_i β t q f k hp
    split at hw
    · rename_i r ws hx
      obtain ⟨hij, p', hp', x, hxm, y, hym, hxy, hP, hconf⟩ := hw
      obtain ⟨hb, hexcl, -⟩ := hc _ (List.mem_of_getElem? hp)
      obtain ⟨hwrites, hheld | hafter⟩ := (hb _ _ _ hx).1 x hxm hP
      · -- what one has for writing nobody else has
        obtain ⟨m, hm⟩ := hheld
        have hm' := hexcl _ hm hP
        have hp' : s.procs[j]? = some p' := hp'
        have hpw : p'.Climbs P lt := hc _ (List.mem_of_getElem? hp')
        have hy : y.2.writes = true := by
          cases p' with
          | call c => cases hym
          | run t' body' k' => exact hpw.2.1 y hym (hxy ▸ hP)
        have hne : m ≠ .keyShare := by
          rintro rfl
          cases hm'
        exact absurd hxy ((ha i j _ _ hij hp hp').ne_of_writes hm hym hne hy)
      · exact ⟨_, p', x.1, hp, hp', hP, ⟨y.2, hxy ▸ hym⟩, hafter⟩
    · exact hw.elim
  · exact hw.elim

/-- Requests that take the rows of a class in order never deadlock on them. -/
theorem Sys.no_deadlock {d : S.Db} {s : Sys S α} (htrans : ∀ a b c, lt a b → lt b c → lt a c)
    (hirr : ∀ a, ¬ lt a a)
    (ha : s.Apart)
    (hc : ∀ p ∈ s.procs, p.Climbs P lt) : ¬ s.Deadlocked d P := by
  -- along a chain of waits, what the last one holds comes after what the first one asks for
  have chain : ∀ {i j}, Relation.TransGen (s.Waits d P) i j →
      ∃ p p' k k', s.procs[i]? = some p ∧ s.procs[j]? = some p' ∧ P k' ∧
        (∃ m, (k', m) ∈ p'.held) ∧ (k = k' ∨ lt k k') ∧ ∀ y ∈ p.held, P y.1 → lt y.1 k := by
    intro i j hij
    induction hij with
    | single hw =>
      obtain ⟨p, p', k, hp, hp', hk, hm, hafter⟩ := Sys.Waits.climbs hw ha hc
      exact ⟨p, p', k, k, hp, hp', hk, hm, .inl rfl, hafter⟩
    | tail _ hw ih =>
      obtain ⟨p, p', k, k', hp, hp', hk', ⟨m, hm⟩, hle, hafter⟩ := ih
      obtain ⟨q, q', k₂, hq, hq', hk₂, hm₂, hafter₂⟩ := Sys.Waits.climbs hw ha hc
      cases hp'.symm.trans hq
      have hlt := hafter₂ _ hm hk'
      refine ⟨p, q', k, k₂, hp, hq', hk₂, hm₂, .inr ?_, hafter⟩
      rcases hle with rfl | hle
      · exact hlt
      · exact htrans _ _ _ hle hlt
  rintro ⟨i, hi⟩
  obtain ⟨p, p', k, k', hp, hp', hk', ⟨m, hm⟩, hle, hafter⟩ := chain hi
  cases hp.symm.trans hp'
  have hlt := hafter _ hm hk'
  rcases hle with rfl | hle
  · exact hirr _ hlt
  · exact hirr _ (htrans _ _ _ hle hlt)

end

end Txn
