import BazarApi.Txn.Answers
import BazarApi.Txn.Logic

/- Safety under snapshot isolation. A transaction sees its snapshot and its own writes,
   whatever the others commit. What it locks nobody had written since the snapshot, or the
   statement fails; and nobody writes it before the commit (`Open.Current`). So a row it
   locked reads at the commit as it did in the snapshot (`Open.Current.read_eq`): the first
   of two writers commits, the other fails. -/
namespace Txn

variable {S : Schema} {α β γ : Type}

/-- An open transaction on a snapshot, the rows it locked unwritten since. -/
structure Open.Current (t : Open S) (h : History S) : Prop where
  iso : t.iso = .repeatableRead
  pre : t.snap <+: h
  fresh : t.Fresh h t.held

namespace Open

theorem fresh_iff {t : Open S} {h : History S} {ls : Locks S.Key} (ht : t.iso = .repeatableRead) :
    t.Fresh h ls ↔ ∀ e ∈ h.drop t.snap.length, Apart ls e.written := by
  unfold Fresh
  rw [ht]

namespace Current
variable {t : Open S} {h h' : History S} {G : History S → Commit S → Prop} {i : Nat}

theorem begun (h : History S) : (⟨.repeatableRead, h, [], []⟩ : Open S).Current h := by
  refine ⟨rfl, List.prefix_refl _, (fresh_iff rfl).mpr ?_⟩
  intro e _
  exact apart_nil_left

/-- The events after the snapshot, one history later. -/
theorem drop_append (hc : t.Current h) (n : History S) :
    (h ++ n).drop t.snap.length = h.drop t.snap.length ++ n :=
  List.drop_append_of_le_length hc.pre.length_le

theorem stable (hc : t.Current h) (he : Extends G i t.held h h') : t.Current h' := by
  have hpre := he.pre
  obtain ⟨hl, n, rfl, hn⟩ := he
  refine ⟨hc.iso, hc.pre.trans hpre, (fresh_iff hc.iso).mpr ?_⟩
  intro e hm
  rw [hc.drop_append, List.mem_append] at hm
  rcases hm with hm | hm
  · exact (fresh_iff hc.iso).mp hc.fresh e hm
  · cases e with
    | exec j q => exact apart_nil_right
    | commit c =>
      -- what another transaction wrote, it had locked
      have hapart := (hn _ hm).2 c rfl
      obtain ⟨h₁, h₂, rfl⟩ := List.append_of_mem hm
      have hlocked := (hl (h ++ h₁) c h₂ (by simp)).1
      intro x hx y hy
      obtain ⟨w, hw, rfl⟩ := List.mem_map.mp hy
      exact hapart x hx _ (hlocked w hw)

theorem exec (hc : t.Current h) (q : S.Sql) : t.Current (h ++ [.exec i q]) := by
  refine ⟨hc.iso, hc.pre.trans (List.prefix_append _ _), (fresh_iff hc.iso).mpr ?_⟩
  intro e hm
  rw [hc.drop_append, List.mem_append] at hm
  rcases hm with hm | hm
  · exact (fresh_iff hc.iso).mp hc.fresh e hm
  · obtain rfl := List.mem_singleton.mp hm
    exact apart_nil_right

theorem after (hc : t.Current h) {ls : Locks S.Key} (hf : t.Fresh h ls) (ws : List S.Write) :
    (t.after ls ws).Current h := by
  refine ⟨hc.iso, hc.pre, (fresh_iff hc.iso).mpr ?_⟩
  intro e hm
  exact apart_append_left.mpr
    ⟨(fresh_iff hc.iso).mp hc.fresh e hm, (fresh_iff hc.iso).mp hf e hm⟩

/-- No event since the snapshot wrote a row locked at least for sharing. -/
theorem unwritten (hc : t.Current h) {k : S.Key} {m : LockMode} (hk : (k, m) ∈ t.held)
    (hm : m ≠ .keyShare) : ∀ e ∈ h.drop t.snap.length, ∀ w ∈ e.writes, S.key w ≠ k := by
  intro e he w hw
  exact (((fresh_iff hc.iso).mp hc.fresh e he).ne_of_writes hk
    (List.mem_map_of_mem (f := fun w => (S.key w, S.mode w)) hw) hm (S.mode_writes w)).symm

/-- Such a row reads as in the snapshot. -/
theorem read_eq (hc : t.Current h) (d : S.Db) {f : S.Db → γ} {k : S.Key} {m : LockMode}
    (hf : ∀ d w, S.key w ≠ k → f (S.apply d w) = f d) (hk : (k, m) ∈ t.held)
    (hm : m ≠ .keyShare) : f (replay d h) = f (replay d t.snap) := by
  have hun := hc.unwritten hk hm
  obtain ⟨n, rfl⟩ := hc.pre
  rw [List.drop_left] at hun
  rw [replay_append]
  exact replay_read_eq f (fun e he w hw d => hf d w (hun e he w hw)) _

end Current

end Open

/-! Rules. -/

section
variable {d : S.Db} {G : History S → Commit S → Prop} {i : Nat} {h : History S}
variable {Q : β → History S → Prop} {R : S.Err → History S → Prop} {t : Open S}

theorem Open.Current.view (hc : t.Current h) (h' : History S) :
    t.view d h' = applyAll (replay d t.snap) t.pending := by
  simp only [Open.view, hc.iso]

/-- A statement on a snapshot. -/
theorem Tx.Safe.snapshot {q : S.Sql} {f : S.Res q → Tx S β} (hc : t.Current h)
    (hs : ∀ h', Extends G i t.held h h' →
      match S.exec q (applyAll (replay d t.snap) t.pending) with
      | .error e => R e (h' ++ [.exec i q])
      | .ok (r, ws) => R (S.stale q) (h' ++ [.exec i q]) ∧
        let t' := t.after (taken q (applyAll (replay d t.snap) t.pending) ws) ws
        (t'.Current (h' ++ [.exec i q]) → (f r).Safe d G i Q R t' (h' ++ [.exec i q]))) :
    (Tx.stmt q f).Safe d G i Q R t h := by
  intro h' he
  have hs := hs h' he
  rw [hc.view]
  split
  · rename_i hx
    rw [hx] at hs
    exact hs
  · rename_i r ws hx
    rw [hx] at hs
    refine ⟨fun hf => hs.2 ?_, fun _ => hs.1⟩
    exact Open.Current.exec ((hc.stable he).after hf ws) q

/-- How a snapshot answers a statement. -/
def Answered (v : S.Db) (q : S.Sql) (x : Except S.Err (S.Res q)) : Prop :=
  x = (S.exec q v).map Prod.fst

/-- A statement that reads without locks. -/
def Reads (q : S.Sql) : Prop := ∀ v, S.locks q v = [] ∧ ∃ r, S.exec q v = .ok (r, [])

/-- A part of the transaction that only reads ends as the snapshot answers. -/
theorem Tx.Safe.reads {body : Tx S γ} {f : γ → Tx S β} (hc : t.Current h) (hb : body.All Reads)
    (hok : ∀ a h', h <+: h' → t.Current h' →
      body.Ends (Answered (applyAll (replay d t.snap) t.pending)) (.ok a) →
      (f a).Safe d G i Q R t h')
    (herr : ∀ e h', h <+: h' →
      body.Ends (Answered (applyAll (replay d t.snap) t.pending)) (.error e) → R e h') :
    (body >>= f).Safe d G i Q R t h := by
  induction body generalizing h with
  | ret a => exact hok a h (List.prefix_refl _) hc rfl
  | throw e =>
    intro h' he
    exact herr e h' he.pre rfl
  | stmt q k ih =>
    obtain ⟨hlocks, r, hx⟩ := hb.1 (applyAll (replay d t.snap) t.pending)
    have hans : Answered (applyAll (replay d t.snap) t.pending) q (.ok r) := by
      unfold Answered
      rw [hx]
      rfl
    have htaken : taken q (applyAll (replay d t.snap) t.pending) ([] : List S.Write) = [] := by
      unfold taken
      rw [hlocks]
      rfl
    intro h' he
    rw [hc.view, hx]
    simp only [htaken, Open.after_nil]
    refine ⟨fun _ => ?_, fun hn => absurd ?_ hn⟩
    · have hpre : h <+: h' ++ [.exec i q] := he.pre.trans (List.prefix_append _ _)
      refine ih r (Open.Current.exec (hc.stable he) q) (hb.2 r) ?_ ?_
      · intro a h'' hp hc'' hends
        exact hok a h'' (hpre.trans hp) hc'' (.inr ⟨r, hans, hends⟩)
      · intro e h'' hp hends
        exact herr e h'' (hpre.trans hp) (.inr ⟨r, hans, hends⟩)
    · rw [Open.fresh_iff hc.iso]
      intro e _
      exact apart_nil_left

end

end Txn
