import Mathlib.Data.List.Induction
import BazarApi.Txn.System

/- A rely-guarantee logic for transactions. `G h c` states what a transaction
   may commit as `c` after history `h`; a history is lawful when every commit of
   it did. `Extends i held` is what request `i` must expect of the others while it
   holds the locks `held`: more events of others, every commit lawful and made
   under locks apart from `held`. `Tx.Safe` and `Call.Safe` recurse over a program:
   whatever the others do in between, each commit satisfies `G` and the answer
   satisfies `Q`. `Sys.Step.ok` is their soundness: a system of safe requests stays
   lawful in every run, and every answer satisfies its `Q`. -/
namespace Txn

variable {S : Schema} {α β : Type}

/-- Every written row was locked by the transaction that wrote it. -/
def Commit.Locked (c : Commit S) : Prop := ∀ w ∈ c.writes, (S.key w, S.mode w) ∈ c.locks

section
variable (G : History S → Commit S → Prop)

/-- Every commit of the history did what `G` allows on the history it found. -/
def Lawful (h : History S) : Prop :=
  ∀ h₁ c h₂, h = h₁ ++ .commit c :: h₂ → c.Locked ∧ G h₁ c

/-- `h'` adds to `h` only what others may do while request `i` holds `held`. -/
structure Extends (i : Nat) (held : Locks S.Key) (h h' : History S) : Prop where
  lawful : Lawful G h'
  others : ∃ new, h' = h ++ new ∧
    ∀ e ∈ new, e.pid ≠ i ∧ ∀ c, e = .commit c → Apart held c.locks

/-- The same with statements of request `i` itself in between: what its transaction
finds later on. -/
structure Later (i : Nat) (held : Locks S.Key) (h h' : History S) : Prop where
  lawful : Lawful G h'
  others : ∃ new, h' = h ++ new ∧
    ∀ c, .commit c ∈ new → c.pid ≠ i ∧ Apart held c.locks

/-- The same between transactions: what request `i` itself committed wrote nothing. -/
structure Since (i : Nat) (h h' : History S) : Prop where
  lawful : Lawful G h'
  others : ∃ new, h' = h ++ new ∧ ∀ c, .commit c ∈ new → c.pid = i → c.writes = []

end

/-- Request `i` has written nothing so far. -/
def Quiet (i : Nat) (h : History S) : Prop := ∀ c, .commit c ∈ h → c.pid = i → c.writes = []

/-! Lawful histories. -/

section
variable {G : History S → Commit S → Prop} {h h' : History S}

theorem lawful_nil : Lawful G ([] : History S) := by
  intro h₁ c h₂ he
  have := congrArg List.length he
  simp at this

theorem Lawful.left {h₂ : History S} (h : Lawful G (h' ++ h₂)) : Lawful G h' := by
  intro h₁ c h₃ he
  exact h h₁ c (h₃ ++ h₂) (by rw [he]; simp)

theorem Lawful.of_prefix (hl : Lawful G h') (hp : h <+: h') : Lawful G h := by
  obtain ⟨h₂, rfl⟩ := hp
  exact hl.left

/-- The commits of a history with one more event. -/
theorem commit_append_singleton {e : Event S} {h₁ h₂ : History S} {c : Commit S}
    (he : h ++ [e] = h₁ ++ .commit c :: h₂) :
    (e = .commit c ∧ h = h₁) ∨ ∃ h₃, h = h₁ ++ .commit c :: h₃ := by
  rcases List.eq_nil_or_concat h₂ with rfl | ⟨h₃, e', rfl⟩
  · obtain ⟨rfl, he⟩ := List.append_inj' he rfl
    exact .inl ⟨by simpa using he, rfl⟩
  · rw [List.concat_eq_append, ← List.cons_append, ← List.append_assoc] at he
    obtain ⟨he, -⟩ := List.append_inj' he rfl
    exact .inr ⟨h₃, he⟩

theorem Lawful.exec (hl : Lawful G h) (i : Nat) (q : S.Sql) : Lawful G (h ++ [.exec i q]) := by
  intro h₁ c h₂ he
  rcases commit_append_singleton he with ⟨hc, -⟩ | ⟨h₃, he⟩
  · cases hc
  · exact hl h₁ c h₃ he

theorem Lawful.commit (hl : Lawful G h) {c : Commit S} (hc : c.Locked) (hg : G h c) :
    Lawful G (h ++ [.commit c]) := by
  intro h₁ c' h₂ he
  rcases commit_append_singleton he with ⟨hc', rfl⟩ | ⟨h₃, he⟩
  · cases hc'
    exact ⟨hc, hg⟩
  · exact hl h₁ c' h₃ he

/-- Induction over a lawful history. -/
theorem Lawful.history_induct {P : History S → Prop} (hnil : P [])
    (hexec : ∀ h i q, P h → P (h ++ [.exec i q]))
    (hcommit : ∀ h c, Lawful G (h ++ [.commit c]) → P h → c.Locked → G h c → P (h ++ [.commit c]))
    (hl : Lawful G h) : P h := by
  induction h using List.reverseRecOn with
  | nil => exact hnil
  | append_singleton h e ih =>
    have ih := ih hl.left
    cases e with
    | exec i q => exact hexec h i q ih
    | commit c =>
      obtain ⟨hc, hg⟩ := hl h c [] rfl
      exact hcommit h c hl ih hc hg

/-- What held after `h` and every lawful commit keeps holds after `h'`. -/
theorem Lawful.keep (d : S.Db) (I : S.Db → Prop) (hl : Lawful G h') (hp : h <+: h')
    (h0 : I (replay d h))
    (hs : ∀ h₁ c, Lawful G h₁ → h <+: h₁ → I (replay d h₁) → c.Locked → G h₁ c →
      I (applyAll (replay d h₁) c.writes)) : I (replay d h') := by
  obtain ⟨n, rfl⟩ := hp
  induction n using List.reverseRecOn with
  | nil => simpa using h0
  | append_singleton n e ih =>
    rw [← List.append_assoc] at hl ⊢
    have ih := ih hl.left
    cases e with
    | exec j q =>
      rw [replay_sent]
      exact ih
    | commit c =>
      obtain ⟨hc, hg⟩ := hl (h ++ n) c [] rfl
      rw [replay_committed]
      exact hs (h ++ n) c hl.left (List.prefix_append _ _) ih hc hg

/-- What the first database satisfies and every lawful commit keeps, the
database satisfies after every lawful history. -/
theorem Lawful.induct (d : S.Db) (I : S.Db → Prop) (h0 : I d)
    (hs : ∀ h₁ c, Lawful G h₁ → I (replay d h₁) → c.Locked → G h₁ c →
      I (applyAll (replay d h₁) c.writes))
    (hl : Lawful G h) : I (replay d h) :=
  hl.keep d I (List.nil_prefix) h0 fun h₁ c hl' _ => hs h₁ c hl'

/-! What others may do. -/

theorem Extends.refl (hl : Lawful G h) (i : Nat) (held : Locks S.Key) : Extends G i held h h :=
  ⟨hl, [], by simp, by simp⟩

theorem Extends.trans {i : Nat} {held : Locks S.Key} {h'' : History S} (he : Extends G i held h h')
    (he' : Extends G i held h' h'') : Extends G i held h h'' := by
  obtain ⟨-, n, rfl, hn⟩ := he
  obtain ⟨hl, n', rfl, hn'⟩ := he'
  refine ⟨hl, n ++ n', by simp, ?_⟩
  intro e hm
  rcases List.mem_append.mp hm with hm | hm
  · exact hn e hm
  · exact hn' e hm

theorem Extends.later {i : Nat} {held : Locks S.Key} (he : Extends G i held h h') :
    Later G i held h h' := by
  obtain ⟨hl, n, rfl, hn⟩ := he
  refine ⟨hl, n, rfl, ?_⟩
  intro c hc
  exact ⟨(hn _ hc).1, (hn _ hc).2 c rfl⟩

theorem Extends.pre {i : Nat} {held : Locks S.Key} (he : Extends G i held h h') : h <+: h' := by
  obtain ⟨-, n, rfl, -⟩ := he
  exact List.prefix_append _ _

/-- A request that did nothing yet has not, whatever the others did. -/
theorem Extends.unseen {i : Nat} {held : Locks S.Key} (he : Extends G i held h h')
    (hn : ∀ e ∈ h, e.pid ≠ i) : ∀ e ∈ h', e.pid ≠ i := by
  obtain ⟨-, n, rfl, hnew⟩ := he
  intro e hm
  rcases List.mem_append.mp hm with hm | hm
  · exact hn e hm
  · exact (hnew e hm).1

theorem quiet_of_unseen {i : Nat} (hn : ∀ e ∈ h, e.pid ≠ i) : Quiet i h := by
  intro c hc hi
  exact absurd hi (hn _ hc)

theorem Later.refl (hl : Lawful G h) (i : Nat) (held : Locks S.Key) : Later G i held h h :=
  (Extends.refl hl i held).later

theorem Later.trans {i : Nat} {held : Locks S.Key} {h'' : History S} (he : Later G i held h h')
    (he' : Later G i held h' h'') : Later G i held h h'' := by
  obtain ⟨-, n, rfl, hn⟩ := he
  obtain ⟨hl, n', rfl, hn'⟩ := he'
  refine ⟨hl, n ++ n', by simp, ?_⟩
  intro c hc
  rcases List.mem_append.mp hc with hc | hc
  · exact hn c hc
  · exact hn' c hc

/-- A statement of the request itself, after what others did. -/
theorem Extends.exec {i : Nat} {held : Locks S.Key} (he : Extends G i held h h') (q : S.Sql) :
    Later G i held h (h' ++ [.exec i q]) := by
  obtain ⟨hl, n, rfl, hn⟩ := he
  refine ⟨hl.exec i q, n ++ [.exec i q], by simp, ?_⟩
  intro c hc
  have hc : Event.commit c ∈ n := by simpa using hc
  exact ⟨(hn _ hc).1, (hn _ hc).2 c rfl⟩

theorem Later.pre {i : Nat} {held : Locks S.Key} (he : Later G i held h h') : h <+: h' := by
  obtain ⟨-, n, rfl, -⟩ := he
  exact List.prefix_append _ _

theorem Later.since {i : Nat} {held : Locks S.Key} (he : Later G i held h h') : Since G i h h' := by
  obtain ⟨hl, n, rfl, hn⟩ := he
  refine ⟨hl, n, rfl, ?_⟩
  intro c hc hi
  exact absurd hi (hn c hc).1

theorem Extends.since {i : Nat} {held : Locks S.Key} (he : Extends G i held h h') :
    Since G i h h' := he.later.since

theorem Since.refl (hl : Lawful G h) (i : Nat) : Since G i h h := ⟨hl, [], by simp, by simp⟩

theorem Since.trans {i : Nat} {h'' : History S} (hs : Since G i h h') (hs' : Since G i h' h'') :
    Since G i h h'' := by
  obtain ⟨-, n, rfl, hn⟩ := hs
  obtain ⟨hl, n', rfl, hn'⟩ := hs'
  refine ⟨hl, n ++ n', by simp, ?_⟩
  intro c hc
  rcases List.mem_append.mp hc with hc | hc
  · exact hn c hc
  · exact hn' c hc

theorem Since.pre {i : Nat} (hs : Since G i h h') : h <+: h' := by
  obtain ⟨-, n, rfl, -⟩ := hs
  exact List.prefix_append _ _

theorem Since.quiet {i : Nat} (hs : Since G i h h') (hq : Quiet i h) : Quiet i h' := by
  obtain ⟨-, n, rfl, hn⟩ := hs
  intro c hc
  rcases List.mem_append.mp hc with hc | hc
  · exact hq c hc
  · exact hn c hc

/-- Holding fewer locks, more may happen. -/
theorem Later.weaken {i : Nat} {held held' : Locks S.Key} (he : Later G i held h h')
    (hs : held' ⊆ held) : Later G i held' h h' := by
  obtain ⟨hl, n, rfl, hn⟩ := he
  refine ⟨hl, n, rfl, ?_⟩
  intro c hc
  refine ⟨(hn c hc).1, ?_⟩
  intro x hx
  exact (hn c hc).2 x (hs hx)

/-- What `h` satisfies and every commit of another request under locks apart
from `held` keeps, `h'` satisfies. -/
theorem Later.induct {i : Nat} {held : Locks S.Key} (d : S.Db) (I : S.Db → Prop)
    (he : Later G i held h h') (h0 : I (replay d h))
    (hs : ∀ h₁ c, Lawful G (h₁ ++ [.commit c]) → h <+: h₁ → I (replay d h₁) → c.pid ≠ i →
      Apart held c.locks → c.Locked → G h₁ c → I (applyAll (replay d h₁) c.writes)) :
    I (replay d h') := by
  obtain ⟨hl, n, rfl, hn⟩ := he
  induction n using List.reverseRecOn with
  | nil => simpa using h0
  | append_singleton n e ih =>
    rw [← List.append_assoc] at hl ⊢
    have ih := ih (fun c hm => hn c (List.mem_append_left _ hm)) hl.left
    cases e with
    | exec j q =>
      rw [replay_sent]
      exact ih
    | commit c =>
      obtain ⟨hc, hg⟩ := hl (h ++ n) c [] rfl
      obtain ⟨hi, ha⟩ := hn c (by simp)
      rw [replay_committed]
      exact hs (h ++ n) c hl (List.prefix_append _ _) ih hi ha hc hg

/-- A reading that no write of the list changes. -/
theorem applyAll_read_eq {γ : Type} (f : S.Db → γ) {ws : List S.Write}
    (hf : ∀ w ∈ ws, ∀ d, f (S.apply d w) = f d) (d : S.Db) : f (applyAll d ws) = f d := by
  induction ws generalizing d with
  | nil => rfl
  | cons w ws ih =>
    rw [applyAll_cons, ih (fun w' hw' => hf w' (List.mem_cons_of_mem _ hw')),
      hf w List.mem_cons_self]

/-- A reading that no commit of the history changes. -/
theorem replay_read_eq {γ : Type} (f : S.Db → γ) {h : History S}
    (hf : ∀ e ∈ h, ∀ w ∈ e.writes, ∀ d, f (S.apply d w) = f d) (d : S.Db) :
    f (replay d h) = f d := by
  induction h generalizing d with
  | nil => rfl
  | cons e h ih =>
    exact (ih (fun e' he' => hf e' (List.mem_cons_of_mem _ he')) _).trans
      (applyAll_read_eq f (hf e List.mem_cons_self) d)

/-- A row locked at least for sharing reads the same: `f` is a reading that no
write of another row changes. -/
theorem Later.read_eq {γ : Type} {i : Nat} {held : Locks S.Key} {k : S.Key} {m : LockMode}
    (d : S.Db) (f : S.Db → γ) (hf : ∀ d w, S.key w ≠ k → f (S.apply d w) = f d)
    (he : Later G i held h h') (hk : (k, m) ∈ held) (hm : m ≠ .keyShare) :
    f (replay d h') = f (replay d h) := by
  refine he.induct d (fun d' => f d' = f (replay d h)) rfl ?_
  intro h₁ c _ _ ih _ ha hc _
  rw [← ih]
  apply applyAll_read_eq
  intro w hw d'
  exact hf d' w (ha.ne_of_writes hk (hc w hw) hm (S.mode_writes w)).symm

end

/-- A statement leaves the rows it wrote locked. -/
theorem mem_held_of_write {t : Open S} {q : S.Sql} {v : S.Db} {w : S.Write} {ws : List S.Write}
    (hw : w ∈ ws) : (S.key w, S.mode w) ∈ (t.after (taken q v ws) ws).held :=
  List.mem_append_right _ (List.mem_append_right _
    (List.mem_map_of_mem (f := fun w => (S.key w, S.mode w)) hw))

/-- And the rows it asked for. -/
theorem mem_held_of_lock {t : Open S} {q : S.Sql} {v : S.Db} {x : S.Key × LockMode}
    {ws : List S.Write} (hx : x ∈ S.locks q v) : x ∈ (t.after (taken q v ws) ws).held :=
  List.mem_append_right _ (List.mem_append_left _ hx)

/-- A row reads at any later time as the statement found it that wrote it. -/
theorem Later.since_write {γ : Type} {G : History S → Commit S → Prop} {i : Nat}
    {h h' : History S} {t : Open S} {q : S.Sql} {v : S.Db} {w : S.Write} {ws : List S.Write}
    (d : S.Db) (f : S.Db → γ) (hf : ∀ d w', S.key w' ≠ S.key w → f (S.apply d w') = f d)
    (he : Later G i (t.after (taken q v ws) ws).held (h ++ [.exec i q]) h') (hw : w ∈ ws) :
    f (replay d h') = f (replay d h) := by
  have hm : S.mode w ≠ .keyShare := by
    intro hm
    have hwrites := S.mode_writes w
    rw [hm] at hwrites
    cases hwrites
  rw [he.read_eq d f hf (mem_held_of_write hw) hm, replay_sent]

/-! Safety of a program. -/

section
variable (d : S.Db) (G : History S → Commit S → Prop)

/-- From history `h`, with the transaction at `t`: whatever the others do, its
commit satisfies `G` and then `Q` of its value, and an error leaves `R`. -/
def Tx.Safe (i : Nat) (Q : β → History S → Prop) (R : S.Err → History S → Prop) :
    Tx S β → Open S → History S → Prop
  | .ret b, t, h => ∀ h', Extends G i t.held h h' →
      G h' (t.commit i) ∧ Q b (h' ++ [.commit (t.commit i)])
  | .throw e, t, h => ∀ h', Extends G i t.held h h' → R e h'
  | .stmt q f, t, h => ∀ h', Extends G i t.held h h' →
      match S.exec q (t.view d h') with
      | .error e => R e (h' ++ [.exec i q])
      | .ok (r, ws) =>
        (t.Fresh h' (taken q (t.view d h') ws) →
          Safe i Q R (f r) (t.after (taken q (t.view d h') ws) ws) (h' ++ [.exec i q])) ∧
        (¬ t.Fresh h' (taken q (t.view d h') ws) → R (S.stale q) (h' ++ [.exec i q]))

/-- From history `h`, the request answers only what `Q` allows, through commits
that satisfy `G`. -/
def Call.Safe (i : Nat) (Q : Except S.Err α → History S → Prop) : Call S α → History S → Prop
  | .ret a, h => ∀ h', Extends G i [] h h' → Q (.ok a) h'
  | .throw e, h => ∀ h', Extends G i [] h h' → Q (.error e) h'
  | .tx iso body k, h =>
    (∀ h', Extends G i [] h h' → body.Safe d G i (fun b => Safe i Q (k (.ok b)))
      (fun e => Safe i Q (k (.error e))) ⟨iso, h', [], []⟩ h') ∧
    ∀ e h', S.spontaneous e → h <+: h' → Lawful G h' → Safe i Q (k (.error e)) h'

def Proc.Safe (i : Nat) (Q : Except S.Err α → History S → Prop) : Proc S α → History S → Prop
  | .call c, h => c.Safe d G i Q h
  | .run t body k, h =>
    body.Safe d G i (fun b => (k (.ok b)).Safe d G i Q) (fun e => (k (.error e)).Safe d G i Q) t h ∧
    (∀ w ∈ t.pending, (S.key w, S.mode w) ∈ t.held) ∧
    ∀ e h', S.spontaneous e → h <+: h' → Lawful G h' → (k (.error e)).Safe d G i Q h'

/-- A system whose history is lawful, whose locks are apart and whose requests
are safe from here on. -/
structure Sys.Ok (Q : Nat → Except S.Err α → History S → Prop) (s : Sys S α) : Prop where
  lawful : Lawful G s.hist
  apart : ∀ (i j : Nat) (p p' : Proc S α), i ≠ j → s.procs[i]? = some p → s.procs[j]? = some p' →
    Apart p.held p'.held
  safe : ∀ (i : Nat) (p : Proc S α), s.procs[i]? = some p → p.Safe d G i (Q i) s.hist

end

section
variable {d : S.Db} {G : History S → Commit S → Prop} {i : Nat} {h h' : History S}

/-! Safety is stable under what others may do. -/

theorem Tx.Safe.stable {Q : β → History S → Prop} {R : S.Err → History S → Prop} {body : Tx S β}
    {t : Open S} (hs : body.Safe d G i Q R t h) (he : Extends G i t.held h h') :
    body.Safe d G i Q R t h' := by
  cases body with
  | ret b => intro h'' he'; exact hs h'' (he.trans he')
  | throw e => intro h'' he'; exact hs h'' (he.trans he')
  | stmt q f => intro h'' he'; exact hs h'' (he.trans he')

theorem Call.Safe.stable {Q : Except S.Err α → History S → Prop} {c : Call S α}
    (hs : c.Safe d G i Q h) (he : Extends G i [] h h') : c.Safe d G i Q h' := by
  cases c with
  | ret a => intro h'' he'; exact hs h'' (he.trans he')
  | throw e => intro h'' he'; exact hs h'' (he.trans he')
  | tx iso body k =>
    refine ⟨fun h'' he' => hs.1 h'' (he.trans he'), ?_⟩
    intro e h'' hp hpre hl
    exact hs.2 e h'' hp (he.pre.trans hpre) hl

theorem Proc.Safe.stable {Q : Except S.Err α → History S → Prop} {p : Proc S α}
    (hs : p.Safe d G i Q h) (he : Extends G i p.held h h') : p.Safe d G i Q h' := by
  cases p with
  | call c => exact Call.Safe.stable hs he
  | run t body k =>
    obtain ⟨hb, hp, hf⟩ := hs
    refine ⟨hb.stable he, hp, ?_⟩
    intro e h'' hsp hpre hl
    exact hf e h'' hsp (he.pre.trans hpre) hl

/-! Rules for the parts of a program. -/

section
variable {Q : β → History S → Prop} {R : S.Err → History S → Prop} {t : Open S} {γ : Type}

theorem Open.view_readCommitted (ht : t.iso = .readCommitted) (h : History S) :
    t.view d h = applyAll (replay d h) t.pending := by
  simp only [Open.view, ht]

/-- A statement under READ COMMITTED. -/
theorem Tx.Safe.stmt {q : S.Sql} {f : S.Res q → Tx S β} (ht : t.iso = .readCommitted)
    (hs : ∀ h', Extends G i t.held h h' → Later G i t.held h (h' ++ [.exec i q]) →
      match S.exec q (applyAll (replay d h') t.pending) with
      | .error e => R e (h' ++ [.exec i q])
      | .ok (r, ws) => (f r).Safe d G i Q R
          (t.after (taken q (applyAll (replay d h') t.pending) ws) ws) (h' ++ [.exec i q])) :
    (Tx.stmt q f).Safe d G i Q R t h := by
  intro h' he
  have hs := hs h' he (he.exec q)
  rw [Open.view_readCommitted ht]
  split
  · rename_i hx
    rw [hx] at hs
    exact hs
  · rename_i hx
    rw [hx] at hs
    refine ⟨fun _ => hs, fun hn => absurd ?_ hn⟩
    simp only [Open.Fresh, ht]

/-- A statement that may fail, seen from its result. -/
theorem Tx.Safe.send {q : S.Sql} {f : S.Res q → Tx S β} (ht : t.iso = .readCommitted)
    (he : ∀ e h', Later G i t.held h h' → R e h')
    (hs : ∀ h' r ws, Extends G i t.held h h' →
      S.exec q (applyAll (replay d h') t.pending) = .ok (r, ws) →
      (f r).Safe d G i Q R (t.after (taken q (applyAll (replay d h') t.pending) ws) ws)
        (h' ++ [.exec i q])) :
    (Tx.stmt q f).Safe d G i Q R t h := by
  refine Tx.Safe.stmt ht ?_
  intro h' hext hl
  split
  · exact he _ _ hl
  · rename_i r ws hx
    exact hs h' r ws hext hx

/-- A statement that only reads. -/
theorem Tx.Safe.read {q : S.Sql} {f : S.Res q → Tx S β} (ht : t.iso = .readCommitted)
    (r : S.Db → S.Res q) (hx : ∀ v, S.exec q v = .ok (r v, [])) (hk : ∀ v, S.locks q v = [])
    (hs : ∀ h', Extends G i t.held h h' → Later G i t.held h (h' ++ [.exec i q]) →
      (f (r (applyAll (replay d h') t.pending))).Safe d G i Q R t (h' ++ [.exec i q])) :
    (Tx.stmt q f).Safe d G i Q R t h := by
  refine Tx.Safe.stmt ht ?_
  intro h' he hl
  rw [hx]
  simpa [taken, hk] using hs h' he hl

theorem Tx.Safe.require {c : Prop} [Decidable c] {e : S.Err} {f : Unit → Tx S β}
    (hc : c → (f ()).Safe d G i Q R t h) (hn : ¬ c → (Tx.throw e : Tx S β).Safe d G i Q R t h) :
    (Tx.require c e >>= f).Safe d G i Q R t h := by
  unfold Tx.require
  split
  · rename_i hc'; exact hc hc'
  · rename_i hc'; exact hn hc'

theorem Tx.Safe.orThrow {o : Option γ} {e : S.Err} {f : γ → Tx S β}
    (hs : ∀ a, o = some a → (f a).Safe d G i Q R t h)
    (hn : o = none → (Tx.throw e : Tx S β).Safe d G i Q R t h) :
    (Tx.orThrow o e >>= f).Safe d G i Q R t h := by
  cases o with
  | some a => exact hs a rfl
  | none => exact hn rfl

theorem Tx.Safe.ofExcept {x : Except S.Err γ} {f : γ → Tx S β}
    (hs : ∀ a, x = .ok a → (f a).Safe d G i Q R t h)
    (hn : ∀ e, x = .error e → (Tx.throw e : Tx S β).Safe d G i Q R t h) :
    (Tx.ofExcept x >>= f).Safe d G i Q R t h := by
  cases x with
  | ok a => exact hs a rfl
  | error e => exact hn e rfl

/-- Weaker postconditions. -/
theorem Tx.Safe.mono {Q' : β → History S → Prop} {R' : S.Err → History S → Prop} {body : Tx S β}
    (hs : body.Safe d G i Q R t h) (hq : ∀ b h', Q b h' → Q' b h') (hr : ∀ e h', R e h' → R' e h') :
    body.Safe d G i Q' R' t h := by
  induction body generalizing t h with
  | ret b => intro h' he; exact ⟨(hs h' he).1, hq _ _ (hs h' he).2⟩
  | throw e => intro h' he; exact hr _ _ (hs h' he)
  | stmt q f ih =>
    intro h' he
    have hs := hs h' he
    split
    · rename_i hx
      rw [hx] at hs
      exact hr _ _ hs
    · rename_i r ws hx
      rw [hx] at hs
      exact ⟨fun hf => ih _ (hs.1 hf), fun hf => hr _ _ (hs.2 hf)⟩

end

/-- A transaction of one statement that only reads: what it read was so at `h₁`. -/
theorem Call.Safe.lookup {Q : Except S.Err α → History S → Prop} {q : S.Sql}
    {k : Except S.Err (S.Res q) → Call S α} (r : S.Db → S.Res q)
    (hx : ∀ v, S.exec q v = .ok (r v, [])) (hk : ∀ v, S.locks q v = [])
    (hG : ∀ h c, c.pid = i → c.writes = [] → G h c)
    (hs : ∀ h₁ h₂, Extends G i [] h h₁ → Since G i h₁ h₂ → h₁ ++ [.exec i q] <+: h₂ →
      (k (.ok (r (replay d h₁)))).Safe d G i Q h₂)
    (hf : ∀ e h', S.spontaneous e → h <+: h' → Lawful G h' → (k (.error e)).Safe d G i Q h') :
    (Call.tx .readCommitted (Tx.query q) k).Safe d G i Q h := by
  refine ⟨?_, hf⟩
  intro h₀ he₀
  refine Tx.Safe.read rfl r hx hk ?_
  intro h₁ he₁ _ h₂ he₂
  refine ⟨hG _ _ rfl rfl, ?_⟩
  have hlast : Since G i h₂ (h₂ ++ [.commit (Open.commit ⟨.readCommitted, h₀, [], []⟩ i)]) := by
    refine ⟨he₂.lawful.commit (by intro w hw; cases hw) (hG _ _ rfl rfl), _, rfl, ?_⟩
    intro c hc _
    obtain rfl : c = _ := by simpa using hc
    rfl
  have hsince := ((Extends.refl he₁.lawful i []).exec q).since.trans (he₂.since.trans hlast)
  exact hs h₁ _ (he₀.trans he₁) hsince (he₂.pre.trans (List.prefix_append _ _))

theorem Call.Safe.throw {Q : Except S.Err α → History S → Prop} {e : S.Err}
    (hs : ∀ h', Extends G i [] h h' → Q (.error e) h') :
    (Call.throw e : Call S α).Safe d G i Q h := hs

theorem Call.Safe.ret {Q : Except S.Err α → History S → Prop} {a : α}
    (hs : ∀ h', Extends G i [] h h' → Q (.ok a) h') :
    (Call.ret a : Call S α).Safe d G i Q h := hs

/-- The answer changed by a function. -/
theorem Call.Safe.map {Q : Except S.Err β → History S → Prop} {c : Call S α} {f : α → β}
    (hs : c.Safe d G i (fun r => Q (r.map f)) h) :
    (c >>= fun a => .ret (f a)).Safe d G i Q h := by
  induction c generalizing h with
  | ret a => exact hs
  | throw e => exact hs
  | tx iso body k ih =>
    refine ⟨?_, ?_⟩
    · intro h' he
      exact (hs.1 h' he).mono (fun b h'' hb => ih _ hb) (fun e h'' hb => ih _ hb)
    · intro e h' hsp hpre hl
      exact ih _ (hs.2 e h' hsp hpre hl)

theorem Call.Safe.mono {Q Q' : Except S.Err α → History S → Prop} {c : Call S α}
    (hs : c.Safe d G i Q h) (hq : ∀ r h', Q r h' → Q' r h') : c.Safe d G i Q' h := by
  induction c generalizing h with
  | ret a => intro h' he; exact hq _ _ (hs h' he)
  | throw e => intro h' he; exact hq _ _ (hs h' he)
  | tx iso body k ih =>
    refine ⟨?_, ?_⟩
    · intro h' he
      exact (hs.1 h' he).mono (fun b h'' hb => ih _ hb) (fun e h'' hb => ih _ hb)
    · intro e h' hsp hpre hl
      exact ih _ (hs.2 e h' hsp hpre hl)

theorem Call.Safe.require {Q : Except S.Err α → History S → Prop} {c : Prop} [Decidable c]
    {e : S.Err} {f : Unit → Call S α} (hc : c → (f ()).Safe d G i Q h)
    (hn : ¬ c → (Call.throw e : Call S α).Safe d G i Q h) :
    (Call.require c e >>= f).Safe d G i Q h := by
  unfold Call.require
  split
  · rename_i hc'; exact hc hc'
  · rename_i hc'; exact hn hc'

/-- When anything may be committed and answered, every body is safe. -/
theorem Tx.safe_of_forall {Q : β → History S → Prop} {R : S.Err → History S → Prop}
    (hG : ∀ h c, G h c) (hq : ∀ b h, Q b h) (hr : ∀ e h, R e h) (body : Tx S β) (t : Open S)
    (h : History S) : body.Safe d G i Q R t h := by
  induction body generalizing t h with
  | ret b => intro h' _; exact ⟨hG _ _, hq _ _⟩
  | throw e => intro h' _; exact hr _ _
  | stmt q f ih =>
    intro h' _
    split
    · exact hr _ _
    · exact ⟨fun _ => ih _ _ _, fun _ => hr _ _⟩

/-- And every request. -/
theorem Call.safe_of_forall {Q : Except S.Err α → History S → Prop} (hG : ∀ h c, G h c)
    (hq : ∀ r h, Q r h) (c : Call S α) (h : History S) : c.Safe d G i Q h := by
  induction c generalizing h with
  | ret a => intro h' _; exact hq _ _
  | throw e => intro h' _; exact hq _ _
  | tx iso body k ih =>
    refine ⟨?_, fun e h' _ _ _ => ih _ _⟩
    intro h' _
    exact Tx.safe_of_forall hG (fun b h => ih _ h) (fun e h => ih _ h) body _ _

end

/-! Soundness. -/

section
variable {d : S.Db} {G : History S → Commit S → Prop}

/-- One step of a safe request: it is safe after its own events, and what it
commits is lawful. -/
theorem ProcStep.safe {i : Nat} {h es : History S} {free : Locks S.Key → Prop} {p p' : Proc S α}
    {Q : Except S.Err α → History S → Prop} (hl : Lawful G h) (hs : ProcStep d i h free p es p')
    (hp : p.Safe d G i Q h) :
    Lawful G (h ++ es) ∧ p'.Safe d G i Q (h ++ es) := by
  cases hs with
  | start =>
    rw [List.append_nil]
    exact ⟨hl, hp.1 h (.refl hl _ _), by simp, hp.2⟩
  | @exec β t q f k r ws hx hs hf =>
    obtain ⟨hb, hw, hfail⟩ := hp
    have hb := hb h (.refl hl _ _)
    rw [hx] at hb
    refine ⟨hl.exec _ _, hb.1 hs, ?_, ?_⟩
    · intro w hw'
      rcases List.mem_append.mp hw' with hm | hm
      · exact List.mem_append_left _ (hw w hm)
      · exact List.mem_append_right _ (List.mem_append_right _
          (List.mem_map_of_mem (f := fun w => (S.key w, S.mode w)) hm))
    · intro e h' hsp hpre hl'
      exact hfail e h' hsp ((List.prefix_append _ _).trans hpre) hl'
  | @reject β t q f k e hx =>
    have hb := hp.1 h (.refl hl _ _)
    rw [hx] at hb
    exact ⟨hl.exec _ _, hb⟩
  | @stale β t q f k r ws hx hs =>
    have hb := hp.1 h (.refl hl _ _)
    rw [hx] at hb
    exact ⟨hl.exec _ _, hb.2 hs⟩
  | throw =>
    rw [List.append_nil]
    exact ⟨hl, hp.1 h (.refl hl _ _)⟩
  | commit =>
    obtain ⟨hg, hq⟩ := hp.1 h (.refl hl _ _)
    exact ⟨hl.commit (c := Open.commit _ i) hp.2.1 hg, hq⟩
  | unacknowledged he =>
    obtain ⟨hg, -⟩ := hp.1 h (.refl hl _ _)
    have hl' := hl.commit (c := Open.commit _ i) hp.2.1 hg
    exact ⟨hl', hp.2.2 _ _ he (List.prefix_append _ _) hl'⟩
  | aborted he =>
    rw [List.append_nil]
    exact ⟨hl, hp.2.2 _ _ he (List.prefix_refl _) hl⟩

/-- The events of a step are the request's own, and a commit holds the locks the
request held. -/
theorem ProcStep.events {i : Nat} {h es : History S} {free : Locks S.Key → Prop} {p p' : Proc S α}
    (hs : ProcStep d i h free p es p') :
    ∀ e ∈ es, e.pid = i ∧ ∀ c, e = .commit c → c.locks = p.held := by
  cases hs with
  | commit =>
    intro e he
    obtain rfl := List.mem_singleton.mp he
    refine ⟨rfl, ?_⟩
    intro c hc
    cases hc
    rfl
  | unacknowledged =>
    intro e he
    obtain rfl := List.mem_singleton.mp he
    refine ⟨rfl, ?_⟩
    intro c hc
    cases hc
    rfl
  | _ => simp [Event.pid]

/-- The locks of a request grow only by free ones. -/
theorem ProcStep.held {i : Nat} {h es : History S} {free : Locks S.Key → Prop} {p p' : Proc S α}
    (hs : ProcStep d i h free p es p') : p'.held = [] ∨ ∃ ls, free ls ∧ p'.held = p.held ++ ls := by
  cases hs with
  | exec _ _ hf => exact .inr ⟨_, hf, rfl⟩
  | _ => exact .inl rfl

theorem getElem?_set_cases.{u} {γ : Type u} {l : List γ} {i j : Nat} {a b : γ}
    (h : (l.set i a)[j]? = some b) : (i = j ∧ b = a) ∨ (i ≠ j ∧ l[j]? = some b) := by
  by_cases hij : i = j
  · subst hij
    rw [List.getElem?_set_self'] at h
    cases hl : l[i]? with
    | none => rw [hl] at h; cases h
    | some c => rw [hl] at h; cases h; exact .inl ⟨rfl, rfl⟩
  · rw [List.getElem?_set_ne hij] at h
    exact .inr ⟨hij, h⟩

theorem Sys.Step.ok {Q : Nat → Except S.Err α → History S → Prop} {s s' : Sys S α}
    (hs : Sys.Step d s s') (ho : s.Ok d G Q) : s'.Ok d G Q := by
  cases hs with
  | @mk i p p' es hp hstep =>
    obtain ⟨hl', hp'⟩ := hstep.safe ho.lawful (ho.safe i p hp)
    refine ⟨hl', ?_, ?_⟩
    · -- a lock is granted only when it is apart from everybody's
      have hnew : ∀ j q, j ≠ i → s.procs[j]? = some q → Apart p'.held q.held := by
        intro j q hj hq
        rcases hstep.held with he | ⟨ls, hf, he⟩
        · rw [he]; exact apart_nil_left
        · rw [he, apart_append_left]
          exact ⟨ho.apart i j p q (Ne.symm hj) hp hq, (hf.apart hq hj).symm⟩
      intro a b q q' hab ha hb
      rcases getElem?_set_cases ha with ⟨rfl, rfl⟩ | ⟨hia, ha'⟩
      · rcases getElem?_set_cases hb with ⟨rfl, -⟩ | ⟨hib, hb⟩
        · exact absurd rfl hab
        · exact hnew b q' (Ne.symm hib) hb
      · rcases getElem?_set_cases hb with ⟨rfl, rfl⟩ | ⟨hib, hb'⟩
        · exact (hnew a q (Ne.symm hia) ha').symm
        · exact ho.apart a b q q' hab ha' hb'
    · intro j q hq
      rcases getElem?_set_cases hq with ⟨rfl, rfl⟩ | ⟨hij, hq⟩
      · exact hp'
      · -- the others see the step as one of the moves they allow
        refine (ho.safe j q hq).stable ⟨hl', es, rfl, ?_⟩
        intro e he
        obtain ⟨hpid, hlocks⟩ := hstep.events e he
        refine ⟨by rw [hpid]; exact hij, ?_⟩
        intro c hc
        rw [hlocks c hc]
        exact ho.apart j i q p (Ne.symm hij) hq hp

theorem Sys.Reach.ok {Q : Nat → Except S.Err α → History S → Prop} {s s' : Sys S α}
    (hr : Sys.Reach d s s') (ho : s.Ok d G Q) : s'.Ok d G Q := by
  induction hr with
  | refl => exact ho
  | tail _ hs ih => exact hs.ok ih

/-- Safe requests waiting to be served are a safe system. -/
theorem Sys.initial_ok {Q : Nat → Except S.Err α → History S → Prop} {calls : List (Call S α)}
    (hc : ∀ (i : Nat) (c : Call S α), calls[i]? = some c → c.Safe d G i (Q i) []) :
    (Sys.initial calls).Ok d G Q := by
  have hcall : ∀ (i : Nat) (p : Proc S α), (calls.map Proc.call)[i]? = some p →
      ∃ c, calls[i]? = some c ∧ p = .call c := by
    intro i p hp
    rw [List.getElem?_map] at hp
    obtain ⟨c, hc, rfl⟩ := Option.map_eq_some_iff.mp hp
    exact ⟨c, hc, rfl⟩
  refine ⟨lawful_nil, ?_, ?_⟩
  · intro i j p p' _ hp _
    obtain ⟨c, -, rfl⟩ := hcall i p hp
    exact apart_nil_left
  · intro i p hp
    obtain ⟨c, hi, rfl⟩ := hcall i p hp
    exact hc i c hi

/-- An answer satisfies its postcondition. -/
theorem Sys.Ok.answered {Q : Nat → Except S.Err α → History S → Prop} {s : Sys S α}
    (ho : s.Ok d G Q) {i : Nat} {r : Except S.Err α} (ha : s.Answered i r) : Q i r s.hist := by
  have hs := ho.safe i _ ha
  cases r with
  | ok a => exact hs s.hist (.refl ho.lawful _ _)
  | error e => exact hs s.hist (.refl ho.lawful _ _)

end

end Txn
