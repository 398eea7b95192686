import BazarApi.Txn.Snapshot

/- Parts of a transaction that write nothing, under either isolation. What goes before the
   first write leaves the transaction `Clean`, or `Current` on its snapshot; what only reads
   after the last one leaves the commit as it was (`Tx.Safe.tail`). What a transaction on a
   snapshot has written nobody else has written since (`Open.Current.untouched`). -/
namespace Txn

variable {S : Schema} {α β γ : Type}

/-- A statement that writes nothing. -/
def Silent (q : S.Sql) : Prop := ∀ v, ∃ r, S.exec q v = .ok (r, [])

/-- A transaction under READ COMMITTED that has written nothing. -/
structure Open.Clean (t : Open S) : Prop where
  iso : t.iso = .readCommitted
  pending : t.pending = []

/-- What a transaction wrote it has locked. -/
def Open.Locked (t : Open S) : Prop := ∀ w ∈ t.pending, (S.key w, S.mode w) ∈ t.held

theorem taken_nil (q : S.Sql) (v : S.Db) : taken q v ([] : List S.Write) = S.locks q v :=
  List.append_nil _

namespace Open
variable {t : Open S} {h : History S}

theorem Clean.view (hc : t.Clean) (d : S.Db) (h : History S) : t.view d h = replay d h := by
  simp only [Open.view, hc.iso, hc.pending, applyAll_nil]

theorem Clean.begun (h : History S) : (⟨.readCommitted, h, [], []⟩ : Open S).Clean := ⟨rfl, rfl⟩

theorem Clean.after (hc : t.Clean) (ls : Locks S.Key) : (t.after ls []).Clean :=
  ⟨hc.iso, by rw [after_pending, hc.pending, List.append_nil]⟩

theorem Locked.of_nil (h : t.pending = []) : t.Locked := by
  intro w hw
  rw [h] at hw
  cases hw

theorem Locked.after (hl : t.Locked) {q : S.Sql} {v : S.Db} {ws : List S.Write} :
    (t.after (taken q v ws) ws).Locked := by
  intro w hw
  rcases List.mem_append.mp hw with hw | hw
  · exact List.mem_append_left _ (hl w hw)
  · exact mem_held_of_write hw

/-- What the transaction wrote nobody has written since its snapshot. -/
theorem Current.untouched (hc : t.Current h) (hl : t.Locked) :
    ∀ e ∈ h.drop t.snap.length, ∀ w ∈ e.writes, ∀ w' ∈ t.pending, S.key w ≠ S.key w' := by
  intro e he w hw w' hw'
  refine hc.unwritten (hl w' hw') ?_ e he w hw
  intro hm
  have hwrites := S.mode_writes w'
  rw [hm] at hwrites
  cases hwrites

/-- The row the transaction wrote first, read later. -/
theorem Locked.read_eq (hl : t.Locked) {G : History S → Commit S → Prop} {i : Nat}
    {h h' : History S} {w : S.Write} {ws : List S.Write} (hp : t.pending = w :: ws)
    (he : Later G i t.held h h') (d : S.Db) (f : S.Db → γ)
    (hf : ∀ d w', S.key w' ≠ S.key w → f (S.apply d w') = f d) :
    f (replay d h') = f (replay d h) := by
  refine he.read_eq d f hf (hl w (hp ▸ List.mem_cons_self)) ?_
  intro hm
  have hwrites := S.mode_writes w
  rw [hm] at hwrites
  cases hwrites

end Open

section
variable {d : S.Db} {G : History S → Commit S → Prop} {i : Nat} {h : History S}
variable {Q : β → History S → Prop} {R : S.Err → History S → Prop} {t : Open S}

/-! Under READ COMMITTED. -/

/-- A statement that writes nothing, in a transaction that has written nothing. -/
theorem Tx.Safe.silent {q : S.Sql} {f : S.Res q → Tx S β} (hc : t.Clean) (hq : Silent q)
    (hs : ∀ h' t' r, t'.Clean → Later G i t.held h h' → S.exec q (replay d h') = .ok (r, []) →
      t'.held = t.held ++ S.locks q (replay d h') → (f r).Safe d G i Q R t' h') :
    (Tx.stmt q f).Safe d G i Q R t h := by
  refine Tx.Safe.stmt hc.iso ?_
  intro h₁ _ l₁
  rw [hc.pending, applyAll_nil]
  obtain ⟨r, hr⟩ := hq (replay d h₁)
  have hreplay : replay d (h₁ ++ [.exec i q]) = replay d h₁ := by
    rw [replay_sent]
  rw [hr]
  refine hs _ _ r (hc.after _) l₁ ?_ ?_
  · rw [hreplay]
    exact hr
  · rw [Open.after_held, taken_nil, hreplay]

/-- The first statement that writes. -/
theorem Tx.Safe.writes {q : S.Sql} {f : S.Res q → Tx S β} (hc : t.Clean)
    (he : ∀ e h', Later G i t.held h h' → S.exec q (replay d h') = .error e → R e h')
    (hs : ∀ h' t' r ws, Later G i t.held h h' → S.exec q (replay d h') = .ok (r, ws) →
      t'.iso = .readCommitted → t'.pending = ws → t'.Locked → t.held ⊆ t'.held →
      (f r).Safe d G i Q R t' h') :
    (Tx.stmt q f).Safe d G i Q R t h := by
  refine Tx.Safe.stmt hc.iso ?_
  intro h₁ _ l₁
  have hreplay : replay d (h₁ ++ [.exec i q]) = replay d h₁ := by
    rw [replay_sent]
  rw [hc.pending, applyAll_nil, ← hreplay]
  split
  · rename_i e hx
    exact he e _ l₁ hx
  · rename_i r ws hx
    refine hs _ _ r ws l₁ hx hc.iso ?_ (Open.Locked.of_nil hc.pending).after
      (List.subset_append_left _ _)
    rw [Open.after_pending, hc.pending, List.nil_append]

/-- A statement that reads, after the writes. -/
theorem Tx.Safe.reread {q : S.Sql} {f : S.Res q → Tx S β} (ht : t.iso = .readCommitted)
    (hq : Reads q)
    (hs : ∀ h' r, Later G i t.held h h' →
      S.exec q (applyAll (replay d h') t.pending) = .ok (r, []) → (f r).Safe d G i Q R t h') :
    (Tx.stmt q f).Safe d G i Q R t h := by
  refine Tx.Safe.stmt ht ?_
  intro h₁ _ l₁
  have hreplay : replay d (h₁ ++ [.exec i q]) = replay d h₁ := by
    rw [replay_sent]
  obtain ⟨hlocks, r, hr⟩ := hq (applyAll (replay d h₁) t.pending)
  rw [hr]
  dsimp only
  rw [taken_nil, hlocks, Open.after_nil]
  refine hs _ r l₁ ?_
  rw [hreplay]
  exact hr

/-! On a snapshot. -/

/-- A statement that writes nothing, before the first write. -/
theorem Tx.Safe.snapshot_silent {q : S.Sql} {f : S.Res q → Tx S β} (hc : t.Current h)
    (hp : t.pending = []) (hq : Silent q) (hR : ∀ e h', R e h')
    (hs : ∀ h' t' r, t'.Current h' → t'.pending = [] → t'.snap = t.snap → Lawful G h' →
      S.exec q (replay d t.snap) = .ok (r, []) → (f r).Safe d G i Q R t' h') :
    (Tx.stmt q f).Safe d G i Q R t h := by
  refine Tx.Safe.snapshot hc ?_
  intro h₁ e₁
  obtain ⟨r, hr⟩ := hq (replay d t.snap)
  rw [hp, applyAll_nil, hr]
  refine ⟨hR _ _, fun hc' => hs _ _ r hc' ?_ rfl (e₁.exec q).lawful hr⟩
  rw [Open.after_pending, hp, List.append_nil]

/-- A statement that writes. -/
theorem Tx.Safe.snapshot_writes {q : S.Sql} {f : S.Res q → Tx S β} (hc : t.Current h)
    (hl : t.Locked) (hR : ∀ e h', R e h')
    (hs : ∀ h' t' r ws, Later G i t.held h h' → .exec i q ∈ h'.drop t.snap.length →
      S.exec q (applyAll (replay d t.snap) t.pending) = .ok (r, ws) → t'.Current h' →
      t'.Locked → t'.snap = t.snap → t'.pending = t.pending ++ ws →
      (f r).Safe d G i Q R t' h') :
    (Tx.stmt q f).Safe d G i Q R t h := by
  refine Tx.Safe.snapshot hc ?_
  intro h₁ e₁
  split
  · exact hR _ _
  · rename_i r ws hx
    refine ⟨hR _ _, fun hc' => hs _ _ r ws (e₁.exec q) ?_ hx hc' hl.after rfl rfl⟩
    rw [(hc.stable e₁).drop_append]
    exact List.mem_append_right _ List.mem_cons_self

end

end Txn
