import BazarApi.Txn.WaitFor

/- Locks in one order, of any mode. `Tx.Climbs` asks for the rows of a class only for writing;
   here a transaction may also share. Rows that everybody only shares keep nobody waiting;
   any other row is asked for when it is held already in a mode that keeps out as much, or
   when it comes after all such rows held (`InOrder`). `Sys.no_deadlock_of_order` is the
   soundness: nobody ever waits in a circle, whatever the rows. -/
namespace Txn

variable {S : Schema} {α β γ : Type}

/-- Keeps out whatever `m'` does. -/
def LockMode.Covers (m m' : LockMode) : Prop :=
  ∀ n : LockMode, m'.conflicts n = true → m.conflicts n = true

theorem LockMode.update_covers (m : LockMode) : LockMode.update.Covers m := by
  intro n _
  exact LockMode.update_conflicts n

theorem LockMode.share_covers_keyShare : LockMode.share.Covers .keyShare := by
  intro n h
  cases n with
  | update => rfl
  | _ => cases h

/-- Two locks that write nothing go together. -/
theorem LockMode.conflicts_of_not_writes {a b : LockMode} (ha : a.writes = false)
    (hb : b.writes = false) : a.conflicts b = false := by
  cases a <;> cases b <;> simp_all [conflicts, writes]

section
variable (shared : S.Key → Prop) (lt : S.Key → S.Key → Prop)

/-- Row `k` may be asked for in mode `m` by who holds `held`. -/
def Ready (held : Locks S.Key) (k : S.Key) (m : LockMode) : Prop :=
  (∃ m', (k, m') ∈ held ∧ m'.Covers m) ∨ ∀ y ∈ held, ¬ shared y.1 → lt y.1 k

/-- Holding `held`, locks `ls` may be asked for. -/
def InOrder (held ls : Locks S.Key) : Prop :=
  ∀ x ∈ ls, (shared x.1 → x.2.writes = false) ∧ (¬ shared x.1 → Ready shared lt held x.1 x.2)

/-- Holding `held`, the program asks for rows in order, whatever it reads, and ends with
locks that satisfy `Q`. -/
def Tx.InOrder (Q : β → Locks S.Key → Prop) : Tx S β → Locks S.Key → Prop
  | .ret b, held => Q b held
  | .throw _, _ => True
  | .stmt q f, held => ∀ v r ws, S.exec q v = .ok (r, ws) →
      Txn.InOrder shared lt held (taken q v ws) ∧ InOrder Q (f r) (held ++ taken q v ws)

/-- Every transaction of the request does. -/
def Call.InOrder : Call S α → Prop
  | .ret _ => True
  | .throw _ => True
  | .tx _ body k => body.InOrder shared lt (fun _ _ => True) [] ∧ ∀ r, InOrder (k r)

def Proc.InOrder : Proc S α → Prop
  | .call c => c.InOrder shared lt
  | .run t body k => body.InOrder shared lt (fun _ _ => True) t.held ∧
      (∀ x ∈ t.held, shared x.1 → x.2.writes = false) ∧ ∀ r, (k r).InOrder shared lt

end

section
variable {shared : S.Key → Prop} {lt : S.Key → S.Key → Prop} {held : Locks S.Key}

/-! Rules for the parts of a program. -/

theorem Tx.InOrder.bind {Q : γ → Locks S.Key → Prop} {Q' : β → Locks S.Key → Prop} {x : Tx S β}
    {f : β → Tx S γ} (hx : x.InOrder shared lt Q' held)
    (hf : ∀ b held', Q' b held' → (f b).InOrder shared lt Q held') :
    (x >>= f).InOrder shared lt Q held := by
  induction x generalizing held with
  | ret b => exact hf b held hx
  | throw e => trivial
  | stmt q k ih =>
    intro v r ws he
    obtain ⟨hc, hk⟩ := hx v r ws he
    exact ⟨hc, ih r hk⟩

theorem Tx.InOrder.orThrow {Q : γ → Locks S.Key → Prop} {o : Option β} {e : S.Err}
    {f : β → Tx S γ} (hs : ∀ a, o = some a → (f a).InOrder shared lt Q held) :
    (Tx.orThrow o e >>= f).InOrder shared lt Q held := by
  cases o with
  | some a => exact hs a rfl
  | none => trivial

theorem Tx.InOrder.require {Q : γ → Locks S.Key → Prop} {c : Prop} [Decidable c] {e : S.Err}
    {f : Unit → Tx S γ} (hs : c → (f ()).InOrder shared lt Q held) :
    (Tx.require c e >>= f).InOrder shared lt Q held := by
  unfold Tx.require
  split
  · rename_i hc
    exact hs hc
  · trivial

theorem Tx.InOrder.ofExcept {Q : γ → Locks S.Key → Prop} {x : Except S.Err β} {f : β → Tx S γ}
    (hs : ∀ a, x = .ok a → (f a).InOrder shared lt Q held) :
    (Tx.ofExcept x >>= f).InOrder shared lt Q held := by
  cases x with
  | ok a => exact hs a rfl
  | error e => trivial

/-- The answer changed by a function asks for the same. -/
theorem Call.InOrder.map {c : Call S α} {f : α → β} (hc : c.InOrder shared lt) :
    (c >>= fun a => Call.ret (f a)).InOrder shared lt := by
  induction c with
  | ret a => trivial
  | throw e => trivial
  | tx iso body k ih => exact ⟨hc.1, fun r => ih r (hc.2 r)⟩

theorem Call.InOrder.ofExcept {x : Except S.Err α} {f : α → Call S β}
    (hs : ∀ a, x = .ok a → (f a).InOrder shared lt) :
    (Call.ofExcept x >>= f).InOrder shared lt := by
  cases x with
  | ok a => exact hs a rfl
  | error e => trivial

theorem Call.InOrder.require {c : Prop} [Decidable c] {e : S.Err} {f : Unit → Call S α}
    (hs : c → (f ()).InOrder shared lt) : (Call.require c e >>= f).InOrder shared lt := by
  unfold Call.require
  split
  · rename_i hc
    exact hs hc
  · trivial

/-! Soundness. -/

/-- A step keeps the discipline. -/
theorem ProcStep.inOrder {d : S.Db} {i : Nat} {h es : History S} {free : Locks S.Key → Prop}
    {p p' : Proc S α} (hs : ProcStep d i h free p es p') (hp : p.InOrder shared lt) :
    p'.InOrder shared lt := by
  cases hs with
  | start => exact ⟨hp.1, by simp, hp.2⟩
  | exec hx _ _ =>
    obtain ⟨hb, hw, hk⟩ := hp
    obtain ⟨hc, hf⟩ := hb _ _ _ hx
    refine ⟨hf, ?_, hk⟩
    intro x hm hshared
    rcases List.mem_append.mp hm with hm | hm
    · exact hw x hm hshared
    · exact (hc x hm).1 hshared
  | reject _ => exact hp.2.2 _
  | stale _ _ => exact hp.2.2 _
  | throw => exact hp.2.2 _
  | commit => exact hp.2.2 _
  | unacknowledged _ => exact hp.2.2 _
  | aborted _ => exact hp.2.2 _

theorem Sys.Reach.inOrder {d : S.Db} {s s' : Sys S α} (hr : Sys.Reach d s s')
    (hs : ∀ p ∈ s.procs, p.InOrder shared lt) : ∀ p ∈ s'.procs, p.InOrder shared lt := by
  induction hr with
  | refl => exact hs
  | tail _ hstep ih =>
    cases hstep with
    | mk hp hstep =>
      intro p hm
      rcases List.mem_or_eq_of_mem_set hm with hm | rfl
      · exact ih p hm
      · exact hstep.inOrder (ih _ (List.mem_of_getElem? hp))

/-- What a waiting request asks for comes after all it holds, and is held by the other. -/
theorem Sys.Waits.inOrder {d : S.Db} {P : S.Key → Prop} {s : Sys S α} {i j : Nat}
    (hw : s.Waits d P i j) (ha : s.Apart) (hc : ∀ p ∈ s.procs, p.InOrder shared lt) :
    ∃ p p' k, s.procs[i]? = some p ∧ s.procs[j]? = some p' ∧ ¬ shared k ∧
      (∃ m, (k, m) ∈ p'.held) ∧ ∀ y ∈ p.held, ¬ shared y.1 → lt y.1 k := by
  unfold Sys.Waits at hw
  split at hw
  · rename_i β t q f k hp
    split at hw
    · rename_i r ws hx
      obtain ⟨hij, p', hp', x, hxm, y, hym, hxy, -, hconf⟩ := hw
      have hp' : s.procs[j]? = some p' := hp'
      obtain ⟨hmild, hready⟩ := ((hc _ (List.mem_of_getElem? hp)).1 _ _ _ hx).1 x hxm
      -- a shared row keeps nobody waiting
      have hnot : ¬ shared x.1 := by
        intro hshared
        have hy : y.2.writes = false := by
          cases p' with
          | call c => cases hym
          | run t' body' k' =>
            exact (hc _ (List.mem_of_getElem? hp')).2.1 y hym (hxy ▸ hshared)
        rw [LockMode.conflicts_of_not_writes (hmild hshared) hy] at hconf
        cases hconf
      rcases hready hnot with ⟨m, hm, hcovers⟩ | hafter
      · -- what one has in a mode that covers it nobody else has in conflict with it
        have hfree := ha i j _ _ hij hp hp' _ hm _ hym hxy
        rw [hcovers _ hconf] at hfree
        cases hfree
      · exact ⟨_, p', x.1, hp, hp', hnot, ⟨y.2, hxy ▸ hym⟩, hafter⟩
    · exact hw.elim
  · exact hw.elim

/-- Requests that take all rows in order never deadlock. -/
theorem Sys.no_deadlock_of_order {d : S.Db} {P : S.Key → Prop} {s : Sys S α}
    (htrans : ∀ a b c, lt a b → lt b c → lt a c) (hirr : ∀ a, ¬ lt a a) (ha : s.Apart)
    (hc : ∀ p ∈ s.procs, p.InOrder shared lt) : ¬ s.Deadlocked d P := by
  -- along a chain of waits, what the last one holds comes after what the first one asks for
  have chain : ∀ {i j}, Relation.TransGen (s.Waits d P) i j →
      ∃ p p' k k', s.procs[i]? = some p ∧ s.procs[j]? = some p' ∧ ¬ shared k' ∧
        (∃ m, (k', m) ∈ p'.held) ∧ (k = k' ∨ lt k k') ∧
        ∀ y ∈ p.held, ¬ shared y.1 → lt y.1 k := by
    intro i j hij
    induction hij with
    | single hw =>
      obtain ⟨p, p', k, hp, hp', hk, hm, hafter⟩ := Sys.Waits.inOrder hw ha hc
      exact ⟨p, p', k, k, hp, hp', hk, hm, .inl rfl, hafter⟩
    | tail _ hw ih =>
      obtain ⟨p, p', k, k', hp, hp', hk', ⟨m, hm⟩, hle, hafter⟩ := ih
      obtain ⟨q, q', k₂, hq, hq', hk₂, hm₂, hafter₂⟩ := Sys.Waits.inOrder hw ha hc
      cases hp'.symm.trans hq
      have hlt := hafter₂ _ hm hk'
      refine ⟨p, q', k, k₂, hp, hq', hk₂, hm₂, .inr ?_, hafter⟩
      rcases hle with rfl | hle
      · exact hlt
      · exact htrans _ _ _ hle hlt
  rintro ⟨i, hi⟩
  obtain ⟨p, p', k, k', hp, hp', hk', ⟨m, hm⟩, hle, hafter⟩ := chain hi
  cases hp.symm.trans hp'
  have hlt := hafter _ hm hk'
  rcases hle with rfl | hle
  · exact hirr _ hlt
  · exact hirr _ (htrans _ _ _ hle hlt)

end

/-- In every run, what two requests hold is apart. -/
theorem Sys.Reach.apart {d : S.Db} {calls : List (Call S α)} {s : Sys S α}
    (hr : Sys.Reach d (Sys.initial calls) s) : s.Apart := by
  have hok : s.Ok d (fun _ _ => True) (fun _ _ _ => True) := by
    refine Sys.Reach.ok hr (Sys.initial_ok ?_)
    intro i c _
    exact Call.safe_of_forall (fun _ _ => trivial) (fun _ _ => trivial) c []
  exact hok.apart

end Txn
