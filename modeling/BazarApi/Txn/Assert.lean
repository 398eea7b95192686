import BazarApi.Txn.WaitFor

/- What a request holds and knows at each of its statements. `Tx.Asserts` recurses over a
   program like `Tx.Safe`: whatever the others do in between, `A` holds of the transaction,
   its next statement and the history when the statement is about to run. A wait is a request
   about to run a statement, so an assertion about waiting is one about statements:
   `Sys.Waits.asserts` gives what `A` says of the one who waits. -/
namespace Txn

variable {S : Schema} {α β γ : Type}

section
variable (d : S.Db) (G : History S → Commit S → Prop)
variable (A : Nat → Open S → S.Sql → History S → Prop)

/-- From history `h`, with the transaction at `t`: `A` holds at every statement. -/
def Tx.Asserts (i : Nat) : Tx S β → Open S → History S → Prop
  | .ret _, _, _ => True
  | .throw _, _, _ => True
  | .stmt q f, t, h => ∀ h', Extends G i t.held h h' → A i t q h' ∧
      ∀ r ws, S.exec q (t.view d h') = .ok (r, ws) →
        Asserts i (f r) (t.after (taken q (t.view d h') ws) ws) (h' ++ [.exec i q])

/-- The program sends only statements that read, about which `A` says nothing. -/
def Tx.Reads : Tx S β → Prop
  | .ret _ => True
  | .throw _ => True
  | .stmt q f => (∀ v r ws, S.exec q v = .ok (r, ws) → taken q v ws = [] ∧ ws = []) ∧
      (∀ i t h, A i t q h) ∧ ∀ r, Reads (f r)

def Call.Asserts (i : Nat) : Call S α → History S → Prop
  | .ret _, _ => True
  | .throw _, _ => True
  | .tx iso body k, h =>
    (∀ h', Extends G i [] h h' → body.Asserts d G A i ⟨iso, h', [], []⟩ h') ∧
    ∀ r h', h <+: h' → Lawful G h' → Asserts i (k r) h'

def Proc.Asserts (i : Nat) : Proc S α → History S → Prop
  | .call c, h => c.Asserts d G A i h
  | .run t body k, h => body.Asserts d G A i t h ∧
    ∀ r h', h <+: h' → Lawful G h' → (k r).Asserts d G A i h'

end

section
variable {d : S.Db} {G : History S → Commit S → Prop}
variable {A : Nat → Open S → S.Sql → History S → Prop} {i : Nat} {h h' : History S} {t : Open S}

/-! Assertions are stable under what others may do. -/

theorem Tx.Asserts.stable {body : Tx S β} (hs : body.Asserts d G A i t h)
    (he : Extends G i t.held h h') : body.Asserts d G A i t h' := by
  cases body with
  | ret b => trivial
  | throw e => trivial
  | stmt q f =>
    intro h'' he'
    exact hs h'' (he.trans he')

theorem Call.Asserts.stable {c : Call S α} (hs : c.Asserts d G A i h) (he : Extends G i [] h h') :
    c.Asserts d G A i h' := by
  cases c with
  | ret a => trivial
  | throw e => trivial
  | tx iso body k =>
    exact ⟨fun h'' he' => hs.1 h'' (he.trans he'),
      fun r h'' hp hl => hs.2 r h'' (he.pre.trans hp) hl⟩

theorem Proc.Asserts.stable {p : Proc S α} (hs : p.Asserts d G A i h)
    (he : Extends G i p.held h h') : p.Asserts d G A i h' := by
  cases p with
  | call c => exact Call.Asserts.stable hs he
  | run t body k => exact ⟨hs.1.stable he, fun r h'' hp hl => hs.2 r h'' (he.pre.trans hp) hl⟩

/-! Rules for the parts of a program. -/

/-- A statement under READ COMMITTED. -/
theorem Tx.Asserts.send {q : S.Sql} {f : S.Res q → Tx S β} (ht : t.iso = .readCommitted)
    (ha : ∀ h', Extends G i t.held h h' → A i t q h')
    (hs : ∀ h' r ws, Extends G i t.held h h' →
      S.exec q (applyAll (replay d h') t.pending) = .ok (r, ws) →
      (f r).Asserts d G A i (t.after (taken q (applyAll (replay d h') t.pending) ws) ws)
        (h' ++ [.exec i q])) :
    (Tx.stmt q f).Asserts d G A i t h := by
  intro h' he
  refine ⟨ha h' he, ?_⟩
  intro r ws hx
  rw [Open.view_readCommitted ht] at hx ⊢
  exact hs h' r ws he hx

/-- A program that only reads, before another. -/
theorem Tx.Asserts.reads_bind {x : Tx S β} {f : β → Tx S γ} (ht : t.iso = .readCommitted)
    (hl : Lawful G h) (hx : x.Reads A)
    (hs : ∀ b h', Later G i t.held h h' → (f b).Asserts d G A i t h') :
    (x >>= f).Asserts d G A i t h := by
  induction x generalizing h with
  | ret b => exact hs b h (.refl hl i t.held)
  | throw e => trivial
  | stmt q k ih =>
    obtain ⟨hquiet, ha, hk⟩ := hx
    refine Tx.Asserts.send ht (fun h' _ => ha i t h') ?_
    intro h' r ws he hx
    obtain ⟨htaken, rfl⟩ := hquiet _ _ _ hx
    rw [htaken, Open.after_nil]
    refine ih r (he.lawful.exec i q) (hk r) ?_
    intro b h'' hl'
    exact hs b h'' ((he.exec q).trans hl')

theorem Tx.Reads.bind {x : Tx S β} {f : β → Tx S γ} (hx : x.Reads A) (hf : ∀ b, (f b).Reads A) :
    (x >>= f).Reads A := by
  induction x with
  | ret b => exact hf b
  | throw e => trivial
  | stmt q k ih => exact ⟨hx.1, hx.2.1, fun r => ih r (hx.2.2 r)⟩

theorem Tx.Reads.require {c : Prop} [Decidable c] {e : S.Err} :
    (Tx.require c e : Tx S Unit).Reads A := by
  unfold Tx.require
  split <;> trivial

theorem Tx.Reads.ofExcept {x : Except S.Err β} : (Tx.ofExcept x).Reads A := by
  cases x <;> trivial

/-- A statement that only reads. -/
theorem Tx.Asserts.read {q : S.Sql} {f : S.Res q → Tx S β} (ht : t.iso = .readCommitted)
    (r : S.Db → S.Res q) (hx : ∀ v, S.exec q v = .ok (r v, [])) (hk : ∀ v, S.locks q v = [])
    (ha : ∀ h', A i t q h')
    (hs : ∀ h', Extends G i t.held h h' → Later G i t.held h (h' ++ [.exec i q]) →
      (f (r (applyAll (replay d h') t.pending))).Asserts d G A i t (h' ++ [.exec i q])) :
    (Tx.stmt q f).Asserts d G A i t h := by
  refine Tx.Asserts.send ht (fun h' _ => ha h') ?_
  intro h' x ws he hx'
  rw [hx] at hx'
  cases hx'
  simpa [taken, hk] using hs h' he (he.exec q)

theorem Tx.Asserts.require {c : Prop} [Decidable c] {e : S.Err} {f : Unit → Tx S β}
    (hc : c → (f ()).Asserts d G A i t h) : (Tx.require c e >>= f).Asserts d G A i t h := by
  unfold Tx.require
  split
  · rename_i hc'
    exact hc hc'
  · trivial

theorem Tx.Asserts.orThrow {o : Option γ} {e : S.Err} {f : γ → Tx S β}
    (hs : ∀ a, o = some a → (f a).Asserts d G A i t h) :
    (Tx.orThrow o e >>= f).Asserts d G A i t h := by
  cases o with
  | some a => exact hs a rfl
  | none => trivial

theorem Tx.Asserts.ofExcept {x : Except S.Err γ} {f : γ → Tx S β}
    (hs : ∀ a, x = .ok a → (f a).Asserts d G A i t h) :
    (Tx.ofExcept x >>= f).Asserts d G A i t h := by
  cases x with
  | ok a => exact hs a rfl
  | error e => trivial

theorem Call.Asserts.map {c : Call S α} {f : α → β} (hc : c.Asserts d G A i h) :
    (c >>= fun a => Call.ret (f a)).Asserts d G A i h := by
  induction c generalizing h with
  | ret a => trivial
  | throw e => trivial
  | tx iso body k ih => exact ⟨hc.1, fun r h' hp hl => ih r (hc.2 r h' hp hl)⟩

theorem Call.Asserts.transaction_bind {iso : Isolation} {body : Tx S α} {f : α → Call S β}
    (hb : ∀ h', Extends G i [] h h' → body.Asserts d G A i ⟨iso, h', [], []⟩ h')
    (hf : ∀ a h', h <+: h' → Lawful G h' → (f a).Asserts d G A i h') :
    (Call.transaction iso body >>= f).Asserts d G A i h := by
  refine ⟨hb, ?_⟩
  intro r h' hp hl
  cases r with
  | ok a => exact hf a h' hp hl
  | error e => trivial

theorem Call.Asserts.require {c : Prop} [Decidable c] {e : S.Err} {f : Unit → Call S α}
    (hc : c → (f ()).Asserts d G A i h) : (Call.require c e >>= f).Asserts d G A i h := by
  unfold Call.require
  split
  · rename_i hc'
    exact hc hc'
  · trivial

theorem Call.Asserts.ofExcept {x : Except S.Err α} {f : α → Call S β}
    (hs : ∀ a, x = .ok a → (f a).Asserts d G A i h) :
    (Call.ofExcept x >>= f).Asserts d G A i h := by
  cases x with
  | ok a => exact hs a rfl
  | error e => trivial

/-! Soundness. -/

theorem ProcStep.asserts {es : History S} {free : Locks S.Key → Prop} {p p' : Proc S α}
    (hl : Lawful G h) (hl' : Lawful G (h ++ es)) (hs : ProcStep d i h free p es p')
    (hp : p.Asserts d G A i h) : p'.Asserts d G A i (h ++ es) := by
  have hpre : h <+: h ++ es := List.prefix_append _ _
  cases hs with
  | start =>
    rw [List.append_nil]
    exact ⟨hp.1 h (.refl hl _ _), hp.2⟩
  | exec hx _ _ =>
    exact ⟨(hp.1 h (.refl hl _ _)).2 _ _ hx, fun r h' hp' hl'' => hp.2 r h' (hpre.trans hp') hl''⟩
  | reject _ => exact hp.2 _ _ hpre hl'
  | stale _ _ => exact hp.2 _ _ hpre hl'
  | throw => exact hp.2 _ _ hpre hl'
  | commit => exact hp.2 _ _ hpre hl'
  | unacknowledged _ => exact hp.2 _ _ hpre hl'
  | aborted _ => exact hp.2 _ _ hpre hl'

/-- In every state of a run of safe requests that assert `A`, they do from there on. -/
theorem Sys.Reach.asserts {Q : Nat → Except S.Err α → History S → Prop} {s s' : Sys S α}
    (hr : Sys.Reach d s s') (ho : s.Ok d G Q)
    (ha : ∀ (i : Nat) (p : Proc S α), s.procs[i]? = some p → p.Asserts d G A i s.hist) :
    ∀ (i : Nat) (p : Proc S α), s'.procs[i]? = some p → p.Asserts d G A i s'.hist := by
  induction hr with
  | refl => exact ha
  | @tail s' s'' hr hstep ih =>
    have hok := Sys.Reach.ok hr ho
    have hok' := hstep.ok hok
    cases hstep with
    | @mk i p p' es hp hs =>
      intro j q hq
      rcases getElem?_set_cases hq with ⟨rfl, rfl⟩ | ⟨hij, hq⟩
      · exact hs.asserts hok.lawful hok'.lawful (ih i p hp)
      · -- the others see the step as one of the moves they allow
        refine (ih j q hq).stable ⟨hok'.lawful, es, rfl, ?_⟩
        intro e he
        obtain ⟨hpid, hlocks⟩ := hs.events e he
        refine ⟨by rw [hpid]; exact hij, ?_⟩
        intro c hc
        rw [hlocks c hc]
        exact hok.apart j i q p (Ne.symm hij) hq hp

theorem Sys.initial_asserts {calls : List (Call S α)}
    (hc : ∀ (i : Nat) (c : Call S α), calls[i]? = some c → c.Asserts d G A i []) :
    ∀ (i : Nat) (p : Proc S α), (Sys.initial calls).procs[i]? = some p →
      p.Asserts d G A i (Sys.initial calls).hist := by
  intro i p hp
  change (calls.map Proc.call)[i]? = some p at hp
  rw [List.getElem?_map] at hp
  obtain ⟨c, hi, rfl⟩ := Option.map_eq_some_iff.mp hp
  exact hc i c hi

/-- Who waits is about to run a statement: what `A` says of it, what it asks for and who
keeps it from it. -/
theorem Sys.Waits.asserts {P : S.Key → Prop} {s : Sys S α} {j : Nat}
    (hl : Lawful G s.hist) (ha : ∀ (i : Nat) (p : Proc S α), s.procs[i]? = some p → p.Asserts d G A i s.hist)
    (hw : s.Waits d P i j) :
    ∃ (p p' : Proc S α) (t : Open S) (q : S.Sql) (r : S.Res q) (ws : List S.Write)
      (x y : S.Key × LockMode), i ≠ j ∧ s.procs[i]? = some p ∧ s.procs[j]? = some p' ∧
        p.held = t.held ∧ A i t q s.hist ∧ S.exec q (t.view d s.hist) = .ok (r, ws) ∧
        x ∈ taken q (t.view d s.hist) ws ∧ y ∈ p'.held ∧ x.1 = y.1 ∧ P x.1 ∧
        x.2.conflicts y.2 = true := by
  unfold Sys.Waits at hw
  split at hw
  · rename_i β t q f k hp
    split at hw
    · rename_i r ws hx
      obtain ⟨hij, p', hp', x, hxm, y, hym, hxy, hP, hconf⟩ := hw
      have hp' : s.procs[j]? = some p' := hp'
      have hA := ((ha i _ hp).1 s.hist (.refl hl _ _)).1
      exact ⟨_, p', t, q, r, ws, x, y, hij, hp, hp', rfl, hA, hx, hxm, hym, hxy, hP, hconf⟩
    · exact hw.elim
  · exact hw.elim

end

/-- On a circle of waits, somebody waits for one who waits in turn. -/
theorem Sys.Deadlocked.waits {d : S.Db} {P : S.Key → Prop} {s : Sys S α}
    (hd : s.Deadlocked d P) :
    ∃ i j k l, s.Waits d P i j ∧ s.Waits d P j k ∧ s.Waits d P k l := by
  obtain ⟨i, hi⟩ := hd
  obtain ⟨j, hij, hji⟩ := Relation.TransGen.head'_iff.mp hi
  have next : ∀ {a}, Relation.ReflTransGen (s.Waits d P) a i → ∃ b, s.Waits d P a b ∧
      Relation.ReflTransGen (s.Waits d P) b i := by
    intro a ha
    rcases Relation.ReflTransGen.cases_head ha with rfl | ⟨b, hab, hbi⟩
    · exact ⟨j, hij, hji⟩
    · exact ⟨b, hab, hbi⟩
  obtain ⟨k, hjk, hki⟩ := next hji
  obtain ⟨l, hkl, -⟩ := next hki
  exact ⟨i, j, k, l, hij, hjk, hkl⟩

end Txn
