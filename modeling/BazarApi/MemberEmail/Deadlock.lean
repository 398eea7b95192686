import BazarApi.MemberEmail.Addresses
import BazarApi.Txn.Assert

/- Waiting for people and links. A request takes the row of its person and then the person's
   links; a confirmation takes its link and then the row of its person: the two orders meet.
   Whoever holds anything holds a person for writing, or a link for writing, or a link of a
   person held so; hence a circle of waits needs somebody who holds the link of a person
   whose row somebody else holds. -/
namespace Bazar.MemberEmail

open Txn Team Registration

variable {host : Host} {d₀ : Db} {reqs : List Request} {h h' : History emails}
variable {i : Nat} {t : Open emails} {q : Sql}

/-- The rows of people and of links. -/
def OnRows : Key → Prop
  | .member _ => True
  | .confirmation _ => True
  | _ => False

instance : DecidablePred OnRows := by
  intro k
  unfold OnRows
  cases k <;> infer_instance

/-- Somebody holds the link of a person whose row somebody else holds. -/
def Overlap (d₀ : Db) (s : Sys emails Answer) : Prop :=
  ∃ (i j : Nat) (p p' : Proc emails Answer) (x : MemberEmailConfirmation), i ≠ j ∧
    s.procs[i]? = some p ∧ s.procs[j]? = some p' ∧
    (replay (S := emails) d₀ s.hist).confirmations.find? x.id = some x ∧
    (.confirmation x.id, .update) ∈ p.held ∧ (.member x.memberId, .update) ∈ p'.held

/-! What a request holds. -/

/-- People are held for writing; a link is, or its person is. -/
structure Holding (d₀ : Db) (t : Open emails) (h : History emails) : Prop where
  people : ∀ y ∈ t.held, ∀ k, y.1 = .member k → (.member k, .update) ∈ t.held
  links : ∀ y ∈ t.held, ∀ k, y.1 = .confirmation k →
    ∃ x, (replay (S := emails) d₀ h).confirmations.find? k = some x ∧
      ((.confirmation k, .update) ∈ t.held ∨ (.member x.memberId, .update) ∈ t.held)

/-- What holds when a statement is about to run. -/
def About (d₀ : Db) (_i : Nat) (t : Open emails) (q : Sql) (h : History emails) : Prop :=
  match q with
  | .lockMember _ _ => t.held = []
  | .lockConfirmation _ _ => t.held = []
  | .supersedeOne _ _ => t.held = []
  | .supersedeAll _ memberId _ =>
    t.iso = .readCommitted ∧ Holding d₀ t h ∧ (.member memberId, .update) ∈ t.held ∧ t.pending = []
  | .createConfirmation row =>
    t.iso = .readCommitted ∧ Holding d₀ t h ∧ (.member row.memberId, .update) ∈ t.held
  | .giveCorreo id _ _ => t.iso = .readCommitted ∧ Holding d₀ t h ∧
    ∃ x, (replay (S := emails) d₀ h).confirmations.find? x.id = some x ∧ x.memberId = id ∧
      (.confirmation x.id, .update) ∈ t.held
  | .useConfirmation id _ => Holding d₀ t h ∧ (.confirmation id, .update) ∈ t.held
  | .supersedeOthers id _ memberId _ => t.iso = .readCommitted ∧ Holding d₀ t h ∧
    (.member memberId, .update) ∈ t.held ∧
    ∃ correo now, t.pending = [.setCorreo memberId correo, .use id now]
  | _ => True

/-- What a statement may ask for. -/
inductive Asks (d₀ : Db) (t : Open emails) (h : History emails) : Key × LockMode → Prop where
  | idle {x : Key × LockMode} (hheld : t.held = []) : Asks d₀ t h x
  | link {x : MemberEmailConfirmation} {m : LockMode} (hh : Holding d₀ t h)
    (hx : (replay (S := emails) d₀ h).confirmations.find? x.id = some x)
    (hlock : (.member x.memberId, .update) ∈ t.held) : Asks d₀ t h (.confirmation x.id, m)
  | new {id : Uuid} {m : LockMode} (hh : Holding d₀ t h)
    (hx : (replay (S := emails) d₀ h).confirmations.find? id = none) :
    Asks d₀ t h (.confirmation id, m)
  | person {x : MemberEmailConfirmation} {m : LockMode} (hh : Holding d₀ t h)
    (hx : (replay (S := emails) d₀ h).confirmations.find? x.id = some x)
    (hlock : (.confirmation x.id, .update) ∈ t.held) : Asks d₀ t h (.member x.memberId, m)
  | own {k : Key} {m : LockMode} (hh : Holding d₀ t h) (hlock : (k, .update) ∈ t.held) :
    Asks d₀ t h (k, m)

/-- Nothing is held, or what is held is. -/
theorem Asks.holding {x : Key × LockMode} (ha : Asks d₀ t h x) : t.held = [] ∨ Holding d₀ t h := by
  cases ha with
  | idle hheld => exact .inl hheld
  | link hh _ _ => exact .inr hh
  | new hh _ => exact .inr hh
  | person hh _ _ => exact .inr hh
  | own hh _ => exact .inr hh

theorem About.asks {r : q.Res} {ws : List Write} {x : Key × LockMode} (ha : About d₀ i t q h)
    (hx : Sql.exec q (t.view (S := emails) d₀ h) = .ok (r, ws))
    (hm : x ∈ taken (S := emails) q (t.view (S := emails) d₀ h) ws) (hP : OnRows x.1) :
    Asks d₀ t h x := by
  cases q with
  | lockMember id contextId => exact .idle ha
  | lockConfirmation tokenHash now => exact .idle ha
  | supersedeOne id now => exact .idle ha
  | supersedeAll contextId memberId now =>
    obtain ⟨hiso, hh, hlock, hp⟩ := ha
    rw [Open.view_readCommitted hiso, hp] at hx hm
    obtain ⟨-, rfl⟩ := Prod.mk.inj (Except.ok.inj hx)
    obtain ⟨w, hw, rfl⟩ := List.mem_map.mp ((List.mem_append.mp hm).resolve_left List.not_mem_nil)
    obtain ⟨y, hy, rfl⟩ := List.mem_map.mp hw
    obtain ⟨hperson, -⟩ := List.mem_filter.mp hy
    obtain ⟨hrow, hof⟩ := List.mem_filter.mp hperson
    obtain ⟨-, rfl⟩ := of_decide_eq_true hof
    exact .link hh (Table.find?_of_mem hrow) hlock
  | createConfirmation row =>
    obtain ⟨hiso, hh, hlock⟩ := ha
    rw [Open.view_readCommitted hiso] at hx hm
    obtain ⟨rfl, hnone⟩ := exec_createConfirmation hx
    have hnone : (replay (S := emails) d₀ h).confirmations.find? row.id = none := by
      by_contra hsome
      obtain ⟨y, hy⟩ := Option.ne_none_iff_exists'.mp hsome
      obtain ⟨z, hz⟩ := find?_applyAll_present t.pending hy
      cases hnone.symm.trans hz
    change x ∈ [_, _, _] ++ [_] at hm
    simp only [List.cons_append, List.nil_append, List.mem_cons, List.not_mem_nil, or_false] at hm
    rcases hm with rfl | rfl | rfl | rfl
    · exact hP.elim
    · exact .own hh hlock
    · exact hP.elim
    · exact .new hh hnone
  | giveCorreo id contextId correo =>
    obtain ⟨hiso, hh, y, hy, rfl, hlock⟩ := ha
    have hgiven : (t.view (S := emails) d₀ h).giveCorreo y.memberId contextId correo = (r, ws) :=
      Except.ok.inj hx
    cases r with
    | nobody =>
      obtain rfl := giveCorreo_not hgiven fun _ => Given.noConfusion
      change x ∈ (Db.giveCorreo _ _ _ _).2.map _ ++ _ at hm
      rw [hgiven] at hm
      cases hm
    | taken =>
      obtain rfl := giveCorreo_not hgiven fun _ => Given.noConfusion
      change x ∈ (Db.giveCorreo _ _ _ _).2.map _ ++ _ at hm
      rw [hgiven] at hm
      cases hm
    | given name =>
      obtain ⟨m, -, -, -, -, -, rfl⟩ := giveCorreo_given hgiven
      change x ∈ (Db.giveCorreo _ _ _ _).2.map _ ++ _ at hm
      rw [hgiven] at hm
      change x ∈ [_, _] at hm
      simp only [List.mem_cons, List.not_mem_nil, or_false] at hm
      rcases hm with rfl | rfl
      · exact hP.elim
      · exact .person hh hy hlock
  | useConfirmation id now =>
    obtain ⟨hh, hlock⟩ := ha
    obtain ⟨-, rfl⟩ := Prod.mk.inj (Except.ok.inj hx)
    obtain ⟨w, hw, rfl⟩ := List.mem_map.mp ((List.mem_append.mp hm).resolve_left List.not_mem_nil)
    obtain ⟨y, hy, rfl⟩ := List.mem_map.mp hw
    obtain rfl := Table.find?_key (Option.mem_toList.mp hy)
    exact .own hh hlock
  | supersedeOthers id contextId memberId now =>
    obtain ⟨hiso, hh, hlock, correo, now', hp⟩ := ha
    rw [Open.view_readCommitted hiso, hp] at hx hm
    obtain ⟨-, rfl⟩ := Prod.mk.inj (Except.ok.inj hx)
    obtain ⟨w, hw, rfl⟩ := List.mem_map.mp ((List.mem_append.mp hm).resolve_left List.not_mem_nil)
    obtain ⟨y, hy, rfl⟩ := List.mem_map.mp hw
    obtain ⟨hperson, hother⟩ := List.mem_filter.mp hy
    obtain ⟨hne, -⟩ := of_decide_eq_true hother
    obtain ⟨hrow, hof⟩ := List.mem_filter.mp hperson
    obtain ⟨-, rfl⟩ := of_decide_eq_true hof
    -- its own link apart, the row is as it was
    have hfind := (Table.find?_modify_ne (used_id now') hne).symm.trans (Table.find?_of_mem hrow)
    exact .link hh hfind hlock
  | memberCorreoTaken id correo =>
    obtain ⟨taken, he, -⟩ := probes (t.view (S := emails) d₀ h) id correo
    cases he.symm.trans hx
    cases hm
  | _ =>
    obtain ⟨-, rfl⟩ := Prod.mk.inj (Except.ok.inj hx)
    cases hm

/-! The programs. -/

theorem Holding.later (hh : Holding d₀ t h)
    (hl : Later (S := emails) (Commits host d₀ reqs) i t.held h h') : Holding d₀ t h' := by
  refine ⟨hh.people, ?_⟩
  intro y hy k hk
  obtain ⟨x, hx, hor⟩ := hh.links y hy k hk
  obtain ⟨n, rfl⟩ := hl.pre
  obtain ⟨z, hz, hm⟩ := Lawful.row_stays (P := fun z => z.memberId = x.memberId) hl.lawful
    ⟨x, hx, rfl⟩ fun c d x y hturn hx => (congrArg Link.memberId hturn.link_eq).trans hx
  exact ⟨z, hz, by rw [hm]; exact hor⟩

/-- Further locks of the same kind. -/
theorem Holding.after {ls : Locks Key} {ws : List Write} (hh : Holding d₀ t h)
    (hp : ∀ y ∈ ls, ∀ k, y.1 = .member k → (.member k, .update) ∈ t.held ++ ls)
    (hx : ∀ y ∈ ls, ∀ k, y.1 = .confirmation k →
      ∃ x, (replay (S := emails) d₀ h).confirmations.find? k = some x ∧
        ((.confirmation k, .update) ∈ t.held ∨ (.member x.memberId, .update) ∈ t.held)) :
    Holding d₀ (t.after (S := emails) ls ws) h := by
  refine ⟨?_, ?_⟩
  · intro y hy k hk
    rcases List.mem_append.mp hy with hy | hy
    · exact List.mem_append_left _ (hh.people y hy k hk)
    · exact hp y hy k hk
  · intro y hy k hk
    have hlink : ∃ x, (replay (S := emails) d₀ h).confirmations.find? k = some x ∧
        ((.confirmation k, .update) ∈ t.held ∨ (.member x.memberId, .update) ∈ t.held) := by
      rcases List.mem_append.mp hy with hy | hy
      · exact hh.links y hy k hk
      · exact hx y hy k hk
    obtain ⟨x, hx, hor⟩ := hlink
    exact ⟨x, hx, hor.imp (List.mem_append_left _) (List.mem_append_left _)⟩

/-- One row held for writing. -/
theorem holding_one {k : Key} (hheld : t.held = [(k, .update)])
    (hx : ∀ id, k = .confirmation id →
      ∃ x, (replay (S := emails) d₀ h).confirmations.find? id = some x) : Holding d₀ t h := by
  refine ⟨?_, ?_⟩
  · intro y hy id hk
    rw [hheld] at hy ⊢
    obtain rfl := List.mem_singleton.mp hy
    rw [← hk]
    exact List.mem_singleton_self _
  · intro y hy id hk
    rw [hheld] at hy ⊢
    obtain rfl := List.mem_singleton.mp hy
    obtain ⟨x, hx⟩ := hx id hk
    refine ⟨x, hx, .inl ?_⟩
    rw [← hk]
    exact List.mem_singleton_self _

section
variable {env : Env} {actor : Actor} {correo token name : String}

/-- From the row of the person to the end. -/
theorem writeInTx_asserts (ht : t.iso = .readCommitted) (hp : t.pending = [])
    (hh : Holding d₀ t h) (hlock : (.member actor.memberId, .update) ∈ t.held) :
    (query (.supersedeAll actor.contextId actor.memberId (env.now 0)) >>= fun _ =>
      query (.createConfirmation (newConfirmation host env actor correo)) >>= fun _ =>
      (pure name : Tx emails String)).Asserts d₀ (Commits host d₀ reqs) (About d₀) i t h := by
  refine Tx.Asserts.send ht (fun h' he => ⟨ht, hh.later he.later, hlock, hp⟩) ?_
  intro h₁ x ws e₁ hx
  have hh₁ := hh.later (e₁.exec (.supersedeAll actor.contextId actor.memberId (env.now 0)))
  rw [hp] at hx ⊢
  obtain ⟨-, rfl⟩ := Prod.mk.inj (Except.ok.inj hx)
  refine Tx.Asserts.send ht ?_ (fun _ _ _ _ _ => trivial)
  intro h₂ e₂
  refine ⟨ht, Holding.later (hh₁.after ?_ ?_) e₂.later, List.mem_append_left _ hlock⟩
  · intro y hy k hk
    obtain ⟨w, hw, rfl⟩ := List.mem_map.mp ((List.mem_append.mp hy).resolve_left List.not_mem_nil)
    obtain ⟨z, -, rfl⟩ := List.mem_map.mp hw
    cases hk
  · intro y hy k hk
    obtain ⟨w, hw, rfl⟩ := List.mem_map.mp ((List.mem_append.mp hy).resolve_left List.not_mem_nil)
    obtain ⟨z, hz, rfl⟩ := List.mem_map.mp hw
    obtain ⟨hperson, -⟩ := List.mem_filter.mp hz
    obtain ⟨hrow, hof⟩ := List.mem_filter.mp hperson
    obtain ⟨-, hm⟩ := of_decide_eq_true hof
    obtain rfl : z.id = k := Key.confirmation.inj hk
    refine ⟨z, ?_, .inr (by rw [hm]; exact hlock)⟩
    rw [replay_sent]
    exact Table.find?_of_mem hrow

theorem requestInTx_asserts :
    (requestInTx host env actor correo).Asserts d₀ (Commits host d₀ reqs) (About d₀) i
      ⟨.readCommitted, h, [], []⟩ h := by
  refine Tx.Asserts.send rfl (fun _ _ => rfl) ?_
  intro h₁ x ws e₁ hx
  cases hx
  generalize ht : Open.after (S := emails) ⟨.readCommitted, h, [], []⟩ _ _ = t
  have hiso : t.iso = .readCommitted := by rw [← ht]; rfl
  have hp : t.pending = [] := by rw [← ht]; rfl
  refine Tx.Asserts.read hiso (fun v => v.findSocio _ _) (fun _ => rfl) (fun _ => rfl)
    (fun _ => trivial) ?_
  intro h₂ e₂ l₂
  rw [hp]
  refine Tx.Asserts.orThrow ?_
  intro member hmember
  have hmember : (replay (S := emails) d₀ h₂).findSocio actor.memberId actor.contextId =
      some member := hmember
  obtain ⟨hfound, -⟩ := Option.filter_eq_some_iff.mp hmember
  obtain ⟨hfind, hctx⟩ := Option.filter_eq_some_iff.mp hfound
  -- the row of the person is all that is locked
  have hheld : t.held = [(.member actor.memberId, .update)] := by
    obtain ⟨m, hm, hmctx⟩ := Lawful.member_old e₂.lawful e₂.pre member hfind
    rw [replay_sent] at hm
    have hkey : m.id = actor.memberId := Table.find?_key hm
    have hlocked : (replay (S := emails) d₀ h₁).findMember actor.memberId actor.contextId = some m :=
      Option.filter_eq_some_iff.mpr ⟨hm, decide_eq_true (hmctx.trans (of_decide_eq_true hctx))⟩
    rw [← ht]
    change ((replay (S := emails) d₀ h₁).findMember _ _).toList.map _ ++ [] = _
    rw [hlocked, List.append_nil, ← hkey]
    rfl
  refine Tx.Asserts.require fun _ => ?_
  refine Tx.Asserts.read hiso (fun v => (v.memberCorreoTaken actor.memberId correo).1) ?_
    (fun _ => rfl) (fun _ => trivial) ?_
  · intro v
    change Except.ok _ = Except.ok _
    unfold Db.memberCorreoTaken
    split <;> rfl
  intro h₃ _ _
  refine Tx.Asserts.read hiso (fun v => v.findLogin _) (fun _ => rfl) (fun _ => rfl)
    (fun _ => trivial) ?_
  intro h₄ _ _
  refine Tx.Asserts.require fun _ => ?_
  refine writeInTx_asserts hiso hp (holding_one hheld fun _ => Key.noConfusion) ?_
  rw [hheld]
  exact List.mem_singleton_self _

theorem spendInTx_asserts {x : MemberEmailConfirmation} {ws : List Write}
    (ht : t.iso = .readCommitted) (hp : t.pending = [])
    (hlock : (.confirmation x.id, .update) ∈ t.held) (hh : Holding d₀ t h)
    (hx : (replay (S := emails) d₀ h).confirmations.find? x.id = some x)
    (hgiven : (replay (S := emails) d₀ h).giveCorreo x.memberId x.contextId x.correo =
      (.given name, ws)) :
    (query (.useConfirmation x.id (env.now 0)) >>= fun _ =>
      query (.supersedeOthers x.id x.contextId x.memberId (env.now 0)) >>= fun _ =>
      query (.others x.contextId x.memberId) >>= fun notify =>
      (pure (some ⟨x.correo, name, x.contextId, x.memberId, notify⟩) :
        Tx emails (Option Confirmed))).Asserts d₀ (Commits host d₀ reqs) (About d₀) i
      (t.after (S := emails) (taken (S := emails)
        (.giveCorreo x.memberId x.contextId x.correo)
        (applyAll (S := emails) (replay (S := emails) d₀ h) t.pending) ws) ws)
      (h ++ [.exec i (.giveCorreo x.memberId x.contextId x.correo)]) := by
  obtain ⟨m, -, -, -, -, -, rfl⟩ := giveCorreo_given hgiven
  have htaken : taken (S := emails) (.giveCorreo x.memberId x.contextId x.correo)
      (applyAll (S := emails) (replay (S := emails) d₀ h) t.pending)
      [.setCorreo x.memberId x.correo] =
      [(.correo x.correo, .update), (.member x.memberId, .update)] := by
    rw [hp]
    change ((replay (S := emails) d₀ h).giveCorreo _ _ _).2.map _ ++ _ = _
    rw [hgiven]
    rfl
  rw [htaken]
  generalize ht₁ : t.after (S := emails) [(.correo x.correo, .update),
    (.member x.memberId, .update)] [.setCorreo x.memberId x.correo] = t₁
  have hiso : t₁.iso = .readCommitted := by rw [← ht₁]; exact ht
  have hp₁ : t₁.pending = [.setCorreo x.memberId x.correo] := by
    rw [← ht₁, Open.after_pending, hp, List.nil_append]
  have hlock₁ : (.confirmation x.id, .update) ∈ t₁.held := by
    rw [← ht₁]
    exact List.mem_append_left _ hlock
  have hperson : (.member x.memberId, .update) ∈ t₁.held := by
    rw [← ht₁]
    exact List.mem_append_right _ (List.mem_cons_of_mem _ List.mem_cons_self)
  have hh₁ : Holding d₀ t₁ (h ++ [.exec i (.giveCorreo x.memberId x.contextId x.correo)]) := by
    rw [← ht₁]
    refine Holding.after ⟨hh.people, ?_⟩ ?_ ?_
    · rw [replay_sent]
      exact hh.links
    · intro y hy k hk
      simp only [List.mem_cons, List.not_mem_nil, or_false] at hy
      rcases hy with rfl | rfl
      · cases hk
      · rw [← hk]
        exact List.mem_append_right _ (List.mem_cons_of_mem _ List.mem_cons_self)
    · intro y hy k hk
      simp only [List.mem_cons, List.not_mem_nil, or_false] at hy
      rcases hy with rfl | rfl <;> cases hk
  refine Tx.Asserts.send hiso (fun h' he => ⟨hh₁.later he.later, hlock₁⟩) ?_
  intro h₂ u ws₂ e₂ hx₂
  have hws : ws₂ = [.use x.id (env.now 0)] := by
    obtain ⟨-, hws⟩ := Prod.mk.inj (Except.ok.inj hx₂)
    rw [← hws, hp₁]
    change (((replay (S := emails) d₀ h₂).confirmations.find? x.id).toList.map _) = _
    rw [confirmation_locked e₂.later hlock₁, replay_sent, hx]
    rfl
  subst hws
  have hh₂ : Holding d₀ (t₁.after (S := emails) (taken (S := emails)
      (.useConfirmation x.id (env.now 0))
      (applyAll (S := emails) (replay (S := emails) d₀ h₂) t₁.pending) [.use x.id (env.now 0)])
      [.use x.id (env.now 0)]) (h₂ ++ [.exec i (.useConfirmation x.id (env.now 0))]) := by
    have hlater := hh₁.later (e₂.exec (.useConfirmation x.id (env.now 0)))
    refine Holding.after hlater ?_ ?_
    · intro y hy k hk
      obtain rfl := List.mem_singleton.mp hy
      cases hk
    · intro y hy k hk
      obtain rfl := List.mem_singleton.mp hy
      obtain rfl : x.id = k := Key.confirmation.inj hk
      obtain ⟨z, hz, -⟩ := hlater.links _ hlock₁ _ rfl
      exact ⟨z, hz, .inl hlock₁⟩
  refine Tx.Asserts.send hiso ?_ ?_
  · intro h₃ e₃
    refine ⟨hiso, hh₂.later e₃.later, List.mem_append_left _ hperson, x.correo, env.now 0, ?_⟩
    rw [Open.after_pending, hp₁]
    rfl
  intro h₃ v ws₃ e₃ hx₃
  exact Tx.Asserts.read hiso (fun v => v.others _ _) (fun _ => rfl) (fun _ => rfl)
    (fun _ => trivial) fun _ _ _ => trivial

theorem confirmInTx_asserts {tokenHash : String} :
    (confirmInTx env tokenHash).Asserts d₀ (Commits host d₀ reqs) (About d₀) i
      ⟨.readCommitted, h, [], []⟩ h := by
  refine Tx.Asserts.send rfl (fun _ _ => rfl) ?_
  intro h₁ found ws e₁ hx
  cases hx
  generalize hfound : Db.findConfirmation _ _ _ = found
  cases found with
  | none => trivial
  | some x =>
    have hfound : (replay (S := emails) d₀ h₁).findConfirmation tokenHash (env.now 0) = some x :=
      hfound
    have hx := Table.find?_of_mem (List.mem_of_find?_eq_some hfound)
    generalize ht : Open.after (S := emails) ⟨.readCommitted, h, [], []⟩ _ _ = t
    have hiso : t.iso = .readCommitted := by rw [← ht]; rfl
    have hp : t.pending = [] := by rw [← ht]; rfl
    -- the link is all that is locked
    have hheld : t.held = [(.confirmation x.id, .update)] := by
      rw [← ht]
      change ((replay (S := emails) d₀ h₁).findConfirmation _ _).toList.map _ ++ [] = _
      rw [hfound, List.append_nil]
      rfl
    have hlock : (.confirmation x.id, .update) ∈ t.held := by
      rw [hheld]
      exact List.mem_singleton_self _
    have hlater : ∀ {h' held}, Later (S := emails) (Commits host d₀ reqs) i held
        (h₁ ++ [.exec i (.lockConfirmation tokenHash (env.now 0))]) h' →
        (.confirmation x.id, .update) ∈ held →
        (replay (S := emails) d₀ h').confirmations.find? x.id = some x := by
      intro h' held hl hk
      rw [confirmation_locked hl hk, replay_sent]
      exact hx
    have hone : ∀ {h'}, (replay (S := emails) d₀ h').confirmations.find? x.id = some x →
        Holding d₀ t h' := by
      intro h' hx'
      refine holding_one hheld ?_
      intro id hid
      obtain rfl : x.id = id := Key.confirmation.inj hid
      exact ⟨x, hx'⟩
    refine Tx.Asserts.send hiso ?_ ?_
    · intro h₂ e₂
      have hx₂ := hlater e₂.later hlock
      exact ⟨hiso, hone hx₂, x, hx₂, rfl, hlock⟩
    intro h₂ given ws e₂ hgiven
    rw [hp] at hgiven
    have hgiven : (replay (S := emails) d₀ h₂).giveCorreo x.memberId x.contextId x.correo =
        (given, ws) := Except.ok.inj hgiven
    cases given with
    | nobody => trivial
    | taken => trivial
    | given name =>
      have hx₂ := hlater e₂.later hlock
      exact spendInTx_asserts hiso hp hlock (hone hx₂) hx₂ hgiven

end

theorem Request.asserts (r : Request) :
    (r.call host).Asserts d₀ (Commits host d₀ reqs) (About d₀) i [] := by
  cases r with
  | request env actor rawCorreo =>
    refine Call.Asserts.map ?_
    refine Call.Asserts.ofExcept ?_
    intro correo _
    refine Call.Asserts.transaction_bind (fun h₁ _ => requestInTx_asserts) ?_
    intro name h₂ _ _
    dsimp only
    split
    · trivial
    · refine ⟨?_, fun _ _ _ _ => trivial⟩
      intro h₃ _
      exact Tx.Asserts.send rfl (fun _ _ => rfl) fun _ _ _ _ _ => trivial
  | confirm env token =>
    refine Call.Asserts.map ?_
    refine Call.Asserts.transaction_bind (fun _ _ => confirmInTx_asserts) ?_
    intro row h₂ _ _
    cases row <;> trivial

/-! Circles. -/

/-- A request whose statement must wait for one that waits itself: a link and its person. -/
theorem Asks.overlap {s : Sys emails Answer} {j : Nat} {p p' : Proc emails Answer}
    {t' : Open emails} {x x' y : Key × LockMode} (hr : Reachable host d₀ reqs s) (hij : i ≠ j)
    (hp : s.procs[i]? = some p) (hp' : s.procs[j]? = some p') (hheld : p.held = t.held)
    (hheld' : p'.held = t'.held) (ha : Asks d₀ t s.hist x) (ha' : Asks d₀ t' s.hist x')
    (hne : t.held ≠ []) (hy : y ∈ p'.held) (hxy : x.1 = y.1) : Overlap d₀ s := by
  have hapart : Apart t.held t'.held := by
    rw [← hheld, ← hheld']
    exact hr.ok.apart i j p p' hij hp hp'
  have hclash : ∀ {k m}, (k, .update) ∈ t.held → (k, m) ∈ t'.held → False := by
    intro k m hk hk'
    have hf := hapart _ hk _ hk' rfl
    rw [LockMode.update_conflicts] at hf
    cases hf
  rw [hheld'] at hy
  have hh' : Holding d₀ t' s.hist := by
    rcases ha'.holding with hnil | hh'
    · rw [hnil] at hy
      cases hy
    · exact hh'
  obtain ⟨k, m⟩ := y
  cases ha with
  | idle hnil => exact absurd hnil hne
  | @link z _ hh hz hlock =>
    obtain rfl : Key.confirmation z.id = k := hxy
    obtain ⟨z', hz', hor⟩ := hh'.links _ hy _ rfl
    cases hz.symm.trans hz'
    rcases hor with hlink | hperson
    · exact ⟨j, i, p', p, z, hij.symm, hp', hp, hz, hheld' ▸ hlink, hheld ▸ hlock⟩
    · exact (hclash hlock hperson).elim
  | @new id _ hh hnone =>
    obtain rfl : Key.confirmation id = k := hxy
    obtain ⟨z', hz', -⟩ := hh'.links _ hy _ rfl
    cases hnone.symm.trans hz'
  | @person z _ hh hz hlock =>
    obtain rfl : Key.member z.memberId = k := hxy
    exact ⟨i, j, p, p', z, hij, hp, hp', hz, hheld ▸ hlock, hheld' ▸ hh'.people _ hy _ rfl⟩
  | @own k' _ hh hlock =>
    obtain rfl : k' = k := hxy
    exact (hclash hlock hy).elim

/-- In every state of a run in which nobody holds the link of a person whose row somebody
else holds, nobody waits in a circle for a person or a link. -/
theorem waits_acyclic_of_not_overlap (host : Host) (d₀ : Db) (reqs : List Request)
    (s : Sys emails Answer) (hr : Reachable host d₀ reqs s) (hno : ¬ Overlap d₀ s) :
    ¬ s.Deadlocked (S := emails) d₀ OnRows := by
  intro hd
  have hasserts : ∀ (i : Nat) (p : Proc emails Answer), s.procs[i]? = some p →
      p.Asserts d₀ (Commits host d₀ reqs) (About d₀) i s.hist := by
    refine Sys.Reach.asserts hr (Q := fun _ _ _ => True) (Sys.initial_ok ?_)
      (Sys.initial_asserts ?_)
    · intro i c hc
      rw [List.getElem?_map] at hc
      obtain ⟨r, hreq, rfl⟩ := Option.map_eq_some_iff.mp hc
      exact Request.safe hreq
    · intro i c hc
      rw [List.getElem?_map] at hc
      obtain ⟨r, -, rfl⟩ := Option.map_eq_some_iff.mp hc
      exact Request.asserts r
  obtain ⟨a, i, j, l, hai, hij, hjl⟩ := Sys.Deadlocked.waits hd
  obtain ⟨-, p, -, -, -, -, -, y₀, -, -, hp, -, -, -, -, hy₀, -⟩ := hai.asserts hr.lawful hasserts
  obtain ⟨p₁, p', t, q, r, ws, x, y, hne, hp₁, hp', hheld, hA, hx, hxm, hy, hxy, hP, -⟩ :=
    hij.asserts hr.lawful hasserts
  obtain ⟨p₂, -, t', q', r', ws', x', -, -, hp₂, -, hheld', hA', hx', hxm', -, -, hP', -⟩ :=
    hjl.asserts hr.lawful hasserts
  cases hp.symm.trans hp₁
  cases hp'.symm.trans hp₂
  refine hno ((hA.asks hx hxm hP).overlap hr hne hp hp' hheld hheld' (hA'.asks hx' hxm' hP')
    ?_ hy hxy)
  rw [← hheld]
  exact List.ne_nil_of_mem hy₀

/-- Luis wrote his address before. -/
def Demo.earlier : MemberEmailConfirmation :=
  newConfirmation Demo.host (Demo.env 3 0) Demo.actor "luis@bazar.mx"

def Demo.written : Db := { Demo.bazar with confirmations := ⟨[Demo.earlier], by decide⟩ }

/-- Some request holds the link of a person whose row another one holds. -/
def Demo.overlaps (d : Db) (s : Sys emails Answer) : Bool :=
  s.procs.zipIdx.any fun a => s.procs.zipIdx.any fun b => a.2 ≠ b.2 &&
    (replay (S := emails) d s.hist).confirmations.rows.any fun x =>
      (.confirmation x.id, .update) ∈ a.1.held && (.member x.memberId, .update) ∈ b.1.held

theorem Demo.not_overlap {d : Db} {s : Sys emails Answer} (h : Demo.overlaps d s = false) :
    ¬ Overlap d s := by
  rintro ⟨i, j, p, p', x, hij, hp, hp', hx, hlink, hperson⟩
  have hyes : Demo.overlaps d s = true := by
    refine List.any_eq_true.mpr ⟨(p, i), List.mem_zipIdx_iff_getElem?.mpr hp, ?_⟩
    refine List.any_eq_true.mpr ⟨(p', j), List.mem_zipIdx_iff_getElem?.mpr hp', ?_⟩
    refine Bool.and_eq_true_iff.mpr ⟨decide_eq_true hij, ?_⟩
    refine List.any_eq_true.mpr ⟨x, Table.mem_of_find? hx, ?_⟩
    exact Bool.and_eq_true_iff.mpr ⟨decide_eq_true hlink, decide_eq_true hperson⟩
  rw [h] at hyes
  cases hyes

def Demo.eva : Member := { Demo.luis with id := ⟨"eva"⟩, name := "Eva" }

def Demo.withEva : Db :=
  { members := ⟨[Demo.luis, Demo.eva], by decide⟩, accounts := .empty
    confirmations := ⟨[Demo.earlier], by decide⟩ }

/-- Luis opens his link while Eva writes her address. -/
def Demo.openedWhileWritten : List Request :=
  [.confirm (Demo.env 2 60) "xxx",
    .request (Demo.env 1 60) { Demo.actor with memberId := ⟨"eva"⟩ } "eva@bazar.mx"]

def Demo.openedWhileWrittenSteps : List Nat := List.replicate 2 0 ++ List.replicate 5 1

/-- Both hold rows, of different people. -/
theorem waits_acyclic_of_not_overlap_apart :
    ((Demo.run Demo.withEva Demo.openedWhileWritten Demo.openedWhileWrittenSteps).procs.all
        fun p => ¬ p.held.isEmpty) = true ∧
      ¬ (Demo.run Demo.withEva Demo.openedWhileWritten Demo.openedWhileWrittenSteps).Deadlocked
        (S := emails) Demo.withEva OnRows :=
  ⟨by decide, waits_acyclic_of_not_overlap Demo.host _ _ _ (Demo.reachable (by decide))
    (Demo.not_overlap (by decide))⟩

/-- Luis writes it again while he opens the link he has. -/
def Demo.rewrittenWhileOpened : List Request :=
  [.request (Demo.env 1 60) Demo.actor "luis@bazar.mx", .confirm (Demo.env 2 60) "xxx"]

def Demo.rewrittenWhileOpenedSteps : List Nat := List.replicate 2 1 ++ List.replicate 5 0

/-- The request waits for the link, and the confirmation for the person. -/
theorem deadlock_rewritten_while_opened :
    Sound Demo.written ∧ Reachable Demo.host Demo.written Demo.rewrittenWhileOpened
        (Demo.run Demo.written Demo.rewrittenWhileOpened Demo.rewrittenWhileOpenedSteps) ∧
      (Demo.run Demo.written Demo.rewrittenWhileOpened Demo.rewrittenWhileOpenedSteps).Deadlocked
        (S := emails) Demo.written OnRows := by
  refine ⟨⟨?_, ?_⟩, Demo.reachable (by decide), 0, ?_⟩
  · intro a ha b hb _ _
    rw [List.mem_singleton.mp ha, List.mem_singleton.mp hb]
  · intro x hx
    rw [List.mem_singleton.mp hx]
    decide
  · have hlink : (Demo.run Demo.written Demo.rewrittenWhileOpened
        Demo.rewrittenWhileOpenedSteps).Waits (S := emails) Demo.written OnRows 0 1 := by
      decide
    have hperson : (Demo.run Demo.written Demo.rewrittenWhileOpened
        Demo.rewrittenWhileOpenedSteps).Waits (S := emails) Demo.written OnRows 1 0 := by
      decide
    exact .tail (.single hlink) hperson

end Bazar.MemberEmail
