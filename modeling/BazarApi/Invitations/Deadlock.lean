import BazarApi.Invitations.NewPeople
import BazarApi.Txn.Assert

/- Waiting for people and links. An invitation takes the row of its person and then the
   person's links; an acceptance takes a link and then, through a foreign key, the row of
   its person: the two orders meet. Apart from that pair nobody who waits keeps anything
   from one who waits, so a circle of waits needs an acceptance that holds the link of a
   person whose row an invitation holds. -/
namespace Bazar.Invitations

open Txn Team Team.Invitations Registration

variable {host : Host} {d₀ : Db} {reqs : List Request} {h h' : History invitations}
variable {i : Nat} {t : Open invitations} {q : Sql} {contextId : String} {memberId : Uuid}

/-- The rows of people and of invitations. -/
def OnRows : Key → Prop
  | .member _ => True
  | .invitation _ => True
  | _ => False

instance : DecidablePred OnRows := by
  intro k
  unfold OnRows
  cases k <;> infer_instance

/-- Somebody holds the link of a person whose row somebody else holds. -/
def Overlap (d₀ : Db) (s : Sys invitations Answer) : Prop :=
  ∃ (i j : Nat) (p p' : Proc invitations Answer) (x : AccountInvitation), i ≠ j ∧
    s.procs[i]? = some p ∧ s.procs[j]? = some p' ∧
    (replay (S := invitations) d₀ s.hist).invitations.find? x.id = some x ∧
    (.invitation x.id, .update) ∈ p.held ∧ (.member x.memberId, .update) ∈ p'.held

/-- Who invites with a login of their own has that login, and is of its business, when the
request begins. -/
def Authentic (d₀ : Db) (reqs : List Request) (H : History invitations) : Prop :=
  ∀ g i q n env actor memberId rawEmail, H = g ++ .exec i q :: n →
    reqs[i]? = some (.invite env actor memberId rawEmail) → actor.memberId.isSome →
    (∃ a ∈ (replay (S := invitations) d₀ g).accounts.rows, a.contextId = actor.contextId ∧
      a.memberId = some (uuid actor.selectedMemberId)) ∧
    ∃ m, d₀.members.find? (uuid actor.selectedMemberId) = some m ∧ m.contextId = actor.contextId

/-! What a request holds and knows. -/

/-- It invites a person: it holds the person's row and, of the links, only the person's. -/
structure Inviting (d₀ : Db) (i : Nat) (t : Open invitations) (h : History invitations)
    (contextId : String) (memberId : Uuid) : Prop where
  lock : (.member memberId, .update) ∈ t.held
  only : ∀ y ∈ t.held, ∀ k, y.1 = .member k → k = memberId
  links : ∀ y ∈ t.held, ∀ k, y.1 = .invitation k →
    ∃ x, (replay (S := invitations) d₀ h).invitations.find? k = some x ∧ x.memberId = memberId
  member : ∃ m, d₀.members.find? memberId = some m ∧ m.contextId = contextId
  unnamed : ∀ a ∈ (replay (S := invitations) d₀ h).accounts.rows, a.contextId = contextId →
    a.memberId ≠ some memberId
  started : ∃ q, .exec i q ∈ h

/-- It accepts a link: it holds the link, and of people only what a foreign key holds. -/
structure Accepting (d₀ : Db) (t : Open invitations) (h : History invitations) : Prop where
  members : ∀ y ∈ t.held, ∀ k, y.1 = .member k → y.2 = .keyShare
  links : ∀ y ∈ t.held, ∀ k, y.1 = .invitation k → y.2 = .update ∧
    ∃ x, (replay (S := invitations) d₀ h).invitations.find? k = some x

/-- The inviter is the person invited, or has a login of their own. -/
def InviterOf (reqs : List Request) (i : Nat) (row : AccountInvitation) : Prop :=
  row.invitedByMemberId = row.memberId ∨ ∃ env actor memberId rawEmail,
    reqs[i]? = some (.invite env actor memberId rawEmail) ∧ actor.memberId.isSome ∧
    row.contextId = actor.contextId ∧ row.invitedByMemberId = uuid actor.selectedMemberId

/-- What holds when a statement is about to run. -/
def About (d₀ : Db) (reqs : List Request) (i : Nat) (t : Open invitations) (q : Sql)
    (h : History invitations) : Prop :=
  match q with
  | .lockMember _ _ => t.held = []
  | .lockInvitation _ _ => t.held = []
  | .supersedeOne _ _ => t.held = []
  | .supersedeAll contextId memberId _ =>
    t.iso = .readCommitted ∧ Inviting d₀ i t h contextId memberId ∧ t.pending = []
  | .createInvitation row =>
    t.iso = .readCommitted ∧ Inviting d₀ i t h row.contextId row.memberId ∧ InviterOf reqs i row
  | .createAccount row => Accepting d₀ t h ∧ ∀ m, row.memberId = some m →
      ∃ x, (replay (S := invitations) d₀ h).invitations.find? x.id = some x ∧ x.memberId = m ∧
        (.invitation x.id, .update) ∈ t.held
  | .useInvitation id _ _ => Accepting d₀ t h ∧ (.invitation id, .update) ∈ t.held
  | _ => True

/-- What a statement may ask for. -/
inductive Asks (d₀ : Db) (reqs : List Request) (i : Nat) (t : Open invitations)
    (h : History invitations) : Key × LockMode → Prop where
  | idle {x : Key × LockMode} (hheld : t.held = []) : Asks d₀ reqs i t h x
  | link {contextId : String} {x : AccountInvitation}
    (hi : Inviting d₀ i t h contextId x.memberId)
    (hx : (replay (S := invitations) d₀ h).invitations.find? x.id = some x) :
    Asks d₀ reqs i t h (.invitation x.id, .noKeyUpdate)
  | new {row : AccountInvitation} (hi : Inviting d₀ i t h row.contextId row.memberId)
    (hx : (replay (S := invitations) d₀ h).invitations.find? row.id = none) :
    Asks d₀ reqs i t h (.invitation row.id, .update)
  | invited {row : AccountInvitation} (hi : Inviting d₀ i t h row.contextId row.memberId) :
    Asks d₀ reqs i t h (.member row.memberId, .keyShare)
  | inviter {row : AccountInvitation} (hi : Inviting d₀ i t h row.contextId row.memberId)
    (hby : InviterOf reqs i row) : Asks d₀ reqs i t h (.member row.invitedByMemberId, .keyShare)
  | person {x : AccountInvitation} (ha : Accepting d₀ t h)
    (hx : (replay (S := invitations) d₀ h).invitations.find? x.id = some x)
    (hlock : (.invitation x.id, .update) ∈ t.held) :
    Asks d₀ reqs i t h (.member x.memberId, .keyShare)
  | spent {id : Uuid} (ha : Accepting d₀ t h) (hlock : (.invitation id, .update) ∈ t.held) :
    Asks d₀ reqs i t h (.invitation id, .noKeyUpdate)

theorem About.asks {r : q.Res} {ws : List Write} {x : Key × LockMode}
    (ha : About d₀ reqs i t q h)
    (hx : Sql.exec q (t.view (S := invitations) d₀ h) = .ok (r, ws))
    (hm : x ∈ taken (S := invitations) q (t.view (S := invitations) d₀ h) ws) (hP : OnRows x.1) :
    Asks d₀ reqs i t h x := by
  cases q with
  | lockMember id contextId => exact .idle ha
  | lockInvitation tokenHash now => exact .idle ha
  | supersedeOne id now => exact .idle ha
  | supersedeAll contextId memberId now =>
    obtain ⟨hiso, hi, hp⟩ := ha
    rw [Open.view_readCommitted hiso, hp] at hx hm
    obtain ⟨-, rfl⟩ := Prod.mk.inj (Except.ok.inj hx)
    obtain ⟨w, hw, rfl⟩ := List.mem_map.mp ((List.mem_append.mp hm).resolve_left List.not_mem_nil)
    obtain ⟨y, hy, rfl⟩ := List.mem_map.mp hw
    obtain ⟨hperson, -⟩ := List.mem_filter.mp hy
    obtain ⟨hrow, hof⟩ := List.mem_filter.mp hperson
    obtain ⟨-, rfl⟩ := of_decide_eq_true hof
    exact .link hi (Table.find?_of_mem hrow)
  | createInvitation row =>
    obtain ⟨hiso, hi, hby⟩ := ha
    rw [Open.view_readCommitted hiso] at hx hm
    have hx : insertInvitation row _ = _ := hx
    unfold insertInvitation at hx
    split at hx
    · cases hx
    rename_i hn
    split at hx
    · cases hx
    cases hx
    have hnone : (replay (S := invitations) d₀ h).invitations.find? row.id = none := by
      by_contra hsome
      obtain ⟨y, hy⟩ := Option.ne_none_iff_exists'.mp hsome
      obtain ⟨z, hz⟩ := find?_applyAll_present t.pending hy
      rw [hz] at hn
      exact hn rfl
    change x ∈ [_, _, _] ++ [_] at hm
    simp only [List.cons_append, List.nil_append, List.mem_cons, List.not_mem_nil, or_false] at hm
    rcases hm with rfl | rfl | rfl | rfl
    · exact hP.elim
    · exact .invited hi
    · exact .inviter hi hby
    · exact .new hi hnone
  | createAccount row =>
    obtain ⟨ha, hperson⟩ := ha
    obtain ⟨rfl, -, -⟩ := exec_createAccount hx
    rcases List.mem_append.mp hm with hm | hm
    · rcases List.mem_cons.mp hm with rfl | hm
      · exact hP.elim
      obtain ⟨m, hmem, hm⟩ := List.mem_flatMap.mp hm
      simp only [List.mem_cons, List.not_mem_nil, or_false] at hm
      rcases hm with rfl | rfl
      · exact hP.elim
      · obtain ⟨y, hy, rfl, hlock⟩ := hperson m (Option.mem_toList.mp hmem)
        exact .person ha hy hlock
    · obtain rfl := List.mem_singleton.mp hm
      exact hP.elim
  | useInvitation id now accountId =>
    obtain ⟨ha, hlock⟩ := ha
    obtain ⟨-, rfl⟩ := Prod.mk.inj (Except.ok.inj hx)
    rcases List.mem_append.mp hm with hm | hm
    · obtain rfl := List.mem_singleton.mp hm
      exact hP.elim
    · obtain ⟨w, hw, rfl⟩ := List.mem_map.mp hm
      obtain ⟨y, hy, rfl⟩ := List.mem_map.mp hw
      obtain rfl := Table.find?_key (Option.mem_toList.mp hy)
      exact .spent ha hlock
  | createDevice row =>
    obtain ⟨rfl, -⟩ := exec_createDevice hx
    change x ∈ [_, _] at hm
    simp only [List.mem_cons, List.not_mem_nil, or_false] at hm
    rcases hm with rfl | rfl
    · exact hP.elim
    · exact hP.elim
  | _ =>
    obtain ⟨-, rfl⟩ := Prod.mk.inj (Except.ok.inj hx)
    cases hm

/-- Who asks holds nothing, or invites, or accepts. -/
theorem Asks.role {x : Key × LockMode} (ha : Asks d₀ reqs i t h x) :
    t.held = [] ∨ (∃ contextId memberId, Inviting d₀ i t h contextId memberId) ∨
      Accepting d₀ t h := by
  cases ha with
  | idle hheld => exact .inl hheld
  | link hi _ => exact .inr (.inl ⟨_, _, hi⟩)
  | new hi _ => exact .inr (.inl ⟨_, _, hi⟩)
  | invited hi => exact .inr (.inl ⟨_, _, hi⟩)
  | inviter hi _ => exact .inr (.inl ⟨_, _, hi⟩)
  | person ha _ _ => exact .inr (.inr ha)
  | spent ha _ => exact .inr (.inr ha)

/-! The programs. -/

theorem Inviting.later (hi : Inviting d₀ i t h contextId memberId)
    (hl : Later (S := invitations) (Commits host d₀ reqs) i t.held h h') :
    Inviting d₀ i t h' contextId memberId := by
  obtain ⟨q, hq⟩ := hi.started
  refine ⟨hi.lock, hi.only, ?_, hi.member, ?_, q, hl.pre.subset hq⟩
  · intro y hy k hk
    obtain ⟨n, rfl⟩ := hl.pre
    exact Lawful.row_stays (P := fun x => x.memberId = memberId) hl.lawful (hi.links y hy k hk)
      fun c d x y _ hturn hx => (congrArg Issue.memberId hturn.issue_eq).trans hx
  · intro a ha hctx hm
    exact hi.unnamed a (Later.account_old hl (.inr hi.lock) a ha hm) hctx hm

/-- A program that only reads says nothing. -/
theorem reads {β : Type} {f : q.Res → Tx invitations β} (r : Db → q.Res)
    (hx : ∀ v, Sql.exec q v = .ok (r v, [])) (hk : ∀ v, Sql.locks q v = [])
    (ha : ∀ i t h, About d₀ reqs i t q h) (hf : ∀ a, (f a).Reads (About d₀ reqs)) :
    (Tx.stmt q f : Tx invitations β).Reads (About d₀ reqs) := by
  refine ⟨?_, ha, hf⟩
  intro v a ws hx'
  have hx' : Sql.exec q v = .ok (a, ws) := hx'
  rw [hx] at hx'
  cases hx'
  exact ⟨List.append_eq_nil_iff.mpr ⟨hk v, rfl⟩, rfl⟩

theorem hasPersonalSocio_reads (contextId : String) :
    (hasPersonalSocio contextId).Reads (About d₀ reqs) := by
  refine reads (fun v => v.sociosOf _) (fun _ => rfl) (fun _ => rfl) (fun _ _ _ => trivial) ?_
  intro socios
  change Tx.Reads (S := invitations) _
    (if socios = [] then pure false else query (.accountAmong contextId socios))
  split
  · trivial
  · exact reads (fun v => v.accountAmong _ _) (fun _ => rfl) (fun _ => rfl) (fun _ _ _ => trivial)
      fun _ => trivial

theorem enforceSendLimits_reads (contextId : String) (memberId : Uuid) (now : Instant) :
    (enforceSendLimits contextId memberId now).Reads (About d₀ reqs) :=
  reads (fun v => v.latestOf _ _ _) (fun _ => rfl) (fun _ => rfl) (fun _ _ _ => trivial)
    fun _ => Tx.Reads.ofExcept

theorem enforceNewInvitationLimit_reads (contextId : String) (memberId inviterId : Uuid)
    (now : Instant) :
    (enforceNewInvitationLimit contextId memberId inviterId now).Reads (About d₀ reqs) := by
  refine reads (fun v => (v.invitationsOf _ _).length) (fun _ => rfl) (fun _ => rfl)
    (fun _ _ _ => trivial) ?_
  intro n
  change Tx.Reads (S := invitations) _ (if 0 < n then pure () else _)
  split
  · trivial
  refine reads (fun v => v.invitationsBy _ _ _) (fun _ => rfl) (fun _ => rfl)
    (fun _ _ _ => trivial) ?_
  intro recent
  change Tx.Reads (S := invitations) _ (if recent = [] then pure () else _)
  split
  · trivial
  · exact reads (fun v => v.invitationsOfAll _ _) (fun _ => rfl) (fun _ => rfl)
      (fun _ _ _ => trivial) fun _ => Tx.Reads.require

section
variable {env : Env} {actor : Actor} {rawEmail email memberId : String}

/-- From the row of the person to the end. -/
theorem issueInTx_asserts {β : Type} {f : Unit → Tx invitations β}
    (hby : InviterOf reqs i (newInvitation host env actor memberId email))
    (ht : t.iso = .readCommitted) (hp : t.pending = [])
    (hl : Lawful (Commits host d₀ reqs) h)
    (hi : Inviting d₀ i t h actor.contextId (uuid memberId))
    (hf : ∀ t' h', t'.iso = .readCommitted → Lawful (Commits host d₀ reqs) h' →
      (f ()).Asserts d₀ (Commits host d₀ reqs) (About d₀ reqs) i t' h') :
    (issueInTx host env actor memberId email >>= f).Asserts d₀ (Commits host d₀ reqs)
      (About d₀ reqs) i t h := by
  unfold issueInTx
  simp only [Tx.bind_assoc]
  refine Tx.Asserts.reads_bind ht hl (enforceSendLimits_reads _ _ _) ?_
  intro _ h₁ l₁
  refine Tx.Asserts.reads_bind ht l₁.lawful (enforceNewInvitationLimit_reads _ _ _ _) ?_
  intro _ h₂ l₂
  refine Tx.Asserts.read ht (fun v => v.accounts.rows.any _) (fun _ => rfl) (fun _ => rfl)
    (fun _ => trivial) ?_
  intro h₃ _ l₃
  refine Tx.Asserts.require fun _ => ?_
  have hi₃ := hi.later (l₁.trans (l₂.trans l₃))
  refine Tx.Asserts.send ht (fun h' he => ⟨ht, hi₃.later he.later, hp⟩) ?_
  intro h₄ x ws e₄ hx
  -- the links locked from here on are the person's
  have hi₄ : Inviting d₀ i (t.after (taken (S := invitations)
      (.supersedeAll actor.contextId (uuid memberId) (env.now 0))
      (applyAll (S := invitations) (replay (S := invitations) d₀ h₄) t.pending) ws) ws)
      (h₄ ++ [.exec i (.supersedeAll actor.contextId (uuid memberId) (env.now 0))])
      actor.contextId (uuid memberId) := by
    have hi₄ := hi₃.later (e₄.exec (.supersedeAll actor.contextId (uuid memberId) (env.now 0)))
    obtain ⟨-, rfl⟩ := Prod.mk.inj (Except.ok.inj hx)
    rw [hp]
    refine ⟨List.mem_append_left _ hi₄.lock, ?_, ?_, hi₄.member, hi₄.unnamed, hi₄.started⟩
    · intro y hy k hk
      rcases List.mem_append.mp hy with hy | hy
      · exact hi₄.only y hy k hk
      · obtain ⟨w, hw, rfl⟩ := List.mem_map.mp hy
        obtain ⟨z, -, rfl⟩ := List.mem_map.mp hw
        cases hk
    · intro y hy k hk
      rcases List.mem_append.mp hy with hy | hy
      · exact hi₄.links y hy k hk
      · obtain ⟨w, hw, rfl⟩ := List.mem_map.mp hy
        obtain ⟨z, hz, rfl⟩ := List.mem_map.mp hw
        obtain ⟨hperson, -⟩ := List.mem_filter.mp hz
        obtain ⟨hrow, hof⟩ := List.mem_filter.mp hperson
        obtain ⟨-, hm⟩ := of_decide_eq_true hof
        obtain rfl : z.id = k := Key.invitation.inj hk
        refine ⟨z, ?_, hm⟩
        rw [replay_sent]
        exact Table.find?_of_mem hrow
  refine Tx.Asserts.send ht (fun h' he => ⟨ht, hi₄.later he.later, hby⟩) ?_
  intro h₅ y ws' e₅ hx'
  exact hf _ _ ht (e₅.lawful.exec _ _)

/-- Who may invite somebody else has a login of their own. -/
theorem inviterOf {personal : Bool} {u : Unit}
    (hreq : reqs[i]? = some (.invite env actor memberId rawEmail))
    (hr : ((inviteRestriction actor.memberId.isNone actor.selectedMemberId memberId personal).elim
      (.ok ()) .error : Except Err Unit) = .ok u) :
    InviterOf reqs i (newInvitation host env actor memberId email) := by
  cases hshared : actor.memberId with
  | some a => exact .inr ⟨env, actor, memberId, rawEmail, hreq, by rw [hshared]; rfl, rfl, rfl⟩
  | none =>
    rw [hshared] at hr
    change Option.elim (if true = false then none else if personal = true then _ else _) _ _ = _ at hr
    rw [if_neg Bool.noConfusion] at hr
    split at hr
    · cases hr
    split at hr
    · cases hr
    · rename_i hself
      exact .inl (congrArg uuid (Decidable.not_not.mp hself).symm)

theorem inviteInTx_asserts (hreq : reqs[i]? = some (.invite env actor memberId rawEmail)) :
    (inviteInTx host env actor memberId email).Asserts d₀ (Commits host d₀ reqs) (About d₀ reqs) i
      ⟨.readCommitted, h, [], []⟩ h := by
  refine Tx.Asserts.send rfl (fun _ _ => rfl) ?_
  intro h₁ x ws e₁ hx
  cases hx
  generalize ht : Open.after (S := invitations) ⟨.readCommitted, h, [], []⟩ _ _ = t
  have hiso : t.iso = .readCommitted := by rw [← ht]; rfl
  have hp : t.pending = [] := by rw [← ht]; rfl
  refine Tx.Asserts.read hiso (fun v => v.findMember _ _) (fun _ => rfl) (fun _ => rfl)
    (fun _ => trivial) ?_
  intro h₂ e₂ l₂
  rw [hp]
  refine Tx.Asserts.orThrow ?_
  intro member hmember
  have hfound : ∃ m, d₀.members.find? (uuid memberId) = some m ∧ m.contextId = actor.contextId := by
    have hmember : (replay (S := invitations) d₀ h₂).findMember (uuid memberId) actor.contextId =
        some member := hmember
    unfold Db.findMember at hmember
    rw [replay_members] at hmember
    obtain ⟨hm, hctx⟩ := Option.filter_eq_some_iff.mp hmember
    exact ⟨member, hm, of_decide_eq_true hctx⟩
  -- the row of the person is all that is locked
  have hheld : t.held = [(.member (uuid memberId), .update)] := by
    obtain ⟨m, hm, hctx⟩ := hfound
    have hfind : (replay (S := invitations) d₀ h₁).findMember (uuid memberId) actor.contextId =
        some m := by
      unfold Db.findMember
      rw [replay_members, hm]
      exact Option.filter_eq_some_iff.mpr ⟨rfl, decide_eq_true hctx⟩
    have hkey : m.id = uuid memberId := Table.find?_key hm
    rw [← ht]
    change ((replay (S := invitations) d₀ h₁).findMember _ _).toList.map _ ++ [] = _
    rw [hfind, List.append_nil, ← hkey]
    rfl
  refine Tx.Asserts.require fun _ => ?_
  have hrest : ∀ personal h₃, Later (S := invitations) (Commits host d₀ reqs) i t.held
      (h₁ ++ [.exec i (.lockMember (uuid memberId) actor.contextId)]) h₃ →
      (Tx.ofExcept ((inviteRestriction actor.memberId.isNone actor.selectedMemberId memberId
          personal).elim (.ok ()) .error) >>= fun _ =>
        query (.accountAmong actor.contextId [uuid memberId]) >>= fun account =>
        Tx.require (account = false) (Err.conflict "Este socio ya tiene su cuenta personal.") >>=
          fun _ => issueInTx host env actor memberId email >>= fun _ =>
        query (.findMember (uuid actor.selectedMemberId) actor.contextId) >>= fun inviter =>
        (pure (member.name, inviter.elim "Un socio" (·.name)) :
          Tx invitations (String × String))).Asserts d₀ (Commits host d₀ reqs) (About d₀ reqs) i t
        h₃ := by
    intro personal h₃ l₃
    refine Tx.Asserts.ofExcept ?_
    intro u hu
    refine Tx.Asserts.read hiso (fun v => v.accountAmong _ _) (fun _ => rfl) (fun _ => rfl)
      (fun _ => trivial) ?_
    intro h₄ e₄ l₄
    rw [hp]
    refine Tx.Asserts.require fun hnone => ?_
    refine issueInTx_asserts (inviterOf hreq hu) hiso hp l₄.lawful ?_ ?_
    · refine ⟨?_, ?_, ?_, hfound, ?_, ?_⟩
      · rw [hheld]
        exact List.mem_singleton_self _
      · intro y hy k hk
        rw [hheld] at hy
        obtain rfl := List.mem_singleton.mp hy
        exact (Key.member.inj hk).symm
      · intro y hy k hk
        rw [hheld] at hy
        obtain rfl := List.mem_singleton.mp hy
        cases hk
      · intro a ha hctx hm
        rw [replay_sent] at ha
        have hany : (replay (S := invitations) d₀ h₄).accountAmong actor.contextId
            [uuid memberId] = true := by
          refine List.any_eq_true.mpr ⟨a, ha, decide_eq_true ⟨hctx, ?_⟩⟩
          rw [hm]
          simp
        exact Bool.noConfusion (hany.symm.trans hnone)
      · refine ⟨.lockMember (uuid memberId) actor.contextId, ?_⟩
        refine List.mem_append_left _ ((l₃.pre.trans e₄.pre).subset ?_)
        exact List.mem_append_right _ (List.mem_singleton_self _)
    · intro t' h₅ ht' hl₅
      exact Tx.Asserts.read ht' (fun v => v.findMember _ _) (fun _ => rfl) (fun _ => rfl)
        (fun _ => trivial) fun _ _ _ => trivial
  dsimp only
  split
  · refine Tx.Asserts.reads_bind hiso l₂.lawful (hasPersonalSocio_reads _) ?_
    intro personal h₃ l₃
    exact hrest personal h₃ (l₂.trans l₃)
  · exact hrest false _ l₂

theorem invite_asserts (hreq : reqs[i]? = some (.invite env actor memberId rawEmail)) :
    (invite host env actor memberId rawEmail).Asserts d₀ (Commits host d₀ reqs) (About d₀ reqs) i
      h := by
  refine Call.Asserts.ofExcept ?_
  intro email _
  refine Call.Asserts.transaction_bind (fun h₁ _ => inviteInTx_asserts hreq) ?_
  intro names h₂ _ _
  dsimp only
  split
  · trivial
  · refine ⟨?_, fun _ _ _ _ => trivial⟩
    intro h₃ _
    exact Tx.Asserts.send rfl (fun _ _ => rfl) fun _ _ _ _ _ => trivial

end

section
variable {env : Env} {token name : String} {inv : AccountInvitation}

theorem Accepting.later (ha : Accepting d₀ t h)
    (hl : Later (S := invitations) (Commits host d₀ reqs) i t.held h h') : Accepting d₀ t h' := by
  refine ⟨ha.members, ?_⟩
  intro y hy k hk
  obtain ⟨hmode, x, hx⟩ := ha.links y hy k hk
  obtain ⟨n, rfl⟩ := hl.pre
  obtain ⟨z, hz, -⟩ := Lawful.row_stays (P := fun _ => True) hl.lawful ⟨x, hx, trivial⟩
    fun _ _ _ _ _ _ _ => trivial
  exact ⟨hmode, z, hz⟩

/-- Further locks, none of them on a person for writing or on a link. -/
theorem Accepting.after (ha : Accepting d₀ t h) (ls : Locks Key) (ws : List Write)
    (hm : ∀ y ∈ ls, ∀ k, y.1 = .member k → y.2 = .keyShare)
    (hx : ∀ y ∈ ls, ∀ k, y.1 ≠ .invitation k) :
    Accepting d₀ (t.after (S := invitations) ls ws) h := by
  refine ⟨?_, ?_⟩
  · intro y hy k hk
    rcases List.mem_append.mp hy with hy | hy
    · exact ha.members y hy k hk
    · exact hm y hy k hk
  · intro y hy k hk
    rcases List.mem_append.mp hy with hy | hy
    · exact ha.links y hy k hk
    · exact absurd hk (hx y hy k)

theorem spend_asserts {a : AcceptedInvitation} (ht : t.iso = .readCommitted)
    (ha : Accepting d₀ t h) (hlock : (.invitation inv.id, .update) ∈ t.held)
    (hinv : (replay (S := invitations) d₀ h).invitations.find? inv.id = some inv) :
    (query (.createAccount (acceptedAccount env inv)) >>= fun _ =>
      query (.createDevice (acceptedDevice host env inv name)) >>= fun _ =>
      query (.useInvitation inv.id (env.now 1) (env.serverId 0)) >>= fun _ =>
      (pure (some a) : Tx invitations (Option AcceptedInvitation))).Asserts d₀
      (Commits host d₀ reqs) (About d₀ reqs) i t h := by
  refine Tx.Asserts.send ht ?_ ?_
  · intro h' he
    refine ⟨ha.later he.later, ?_⟩
    intro m hm
    obtain rfl : inv.memberId = m := Option.some.inj hm
    refine ⟨inv, ?_, rfl, hlock⟩
    exact (invitation_locked he.later hlock).trans hinv
  intro h₁ x ws e₁ hx
  obtain ⟨rfl, -, -⟩ := exec_createAccount hx
  have ha₁ := (ha.later (e₁.exec (.createAccount (acceptedAccount env inv)))).after
    (taken (S := invitations) (.createAccount (acceptedAccount env inv))
      (applyAll (S := invitations) (replay (S := invitations) d₀ h₁) t.pending)
      [.insertAccount (acceptedAccount env inv)])
    [.insertAccount (acceptedAccount env inv)] (by
      intro y hy k hk
      change y ∈ [_, _, _] ++ [_] at hy
      simp only [List.cons_append, List.nil_append, List.mem_cons, List.not_mem_nil,
        or_false] at hy
      rcases hy with rfl | rfl | rfl | rfl
      · cases hk
      · cases hk
      · rfl
      · cases hk) (by
      intro y hy k hk
      change y ∈ [_, _, _] ++ [_] at hy
      simp only [List.cons_append, List.nil_append, List.mem_cons, List.not_mem_nil,
        or_false] at hy
      rcases hy with rfl | rfl | rfl | rfl <;> cases hk)
  refine Tx.Asserts.send ht (fun _ _ => trivial) ?_
  intro h₂ y ws e₂ hx
  obtain ⟨rfl, -⟩ := exec_createDevice hx
  have ha₂ := (ha₁.later (e₂.exec (.createDevice (acceptedDevice host env inv name)))).after
    (taken (S := invitations) (.createDevice (acceptedDevice host env inv name))
      (applyAll (S := invitations) (replay (S := invitations) d₀ h₂) (t.after (S := invitations)
        (taken (S := invitations) (.createAccount (acceptedAccount env inv))
          (applyAll (S := invitations) (replay (S := invitations) d₀ h₁) t.pending)
          [.insertAccount (acceptedAccount env inv)])
        [.insertAccount (acceptedAccount env inv)]).pending)
      [.insertDevice (acceptedDevice host env inv name)])
    [.insertDevice (acceptedDevice host env inv name)] (by
      intro y hy k hk
      change y ∈ [_, _] at hy
      simp only [List.mem_cons, List.not_mem_nil, or_false] at hy
      rcases hy with rfl | rfl <;> cases hk) (by
      intro y hy k hk
      change y ∈ [_, _] at hy
      simp only [List.mem_cons, List.not_mem_nil, or_false] at hy
      rcases hy with rfl | rfl <;> cases hk)
  refine Tx.Asserts.send ht ?_ (fun _ _ _ _ _ => trivial)
  intro h₃ e₃
  exact ⟨ha₂.later e₃.later, List.mem_append_left _ (List.mem_append_left _ hlock)⟩

theorem lookup_reads (tokenHash : String) (now : Instant) :
    (lookup tokenHash now).Reads (About d₀ reqs) := by
  refine reads (fun v => v.findInvitation _ _) (fun _ => rfl) (fun _ => rfl) (fun _ _ _ => trivial) ?_
  intro found
  cases found with
  | none => trivial
  | some inv =>
    exact reads (fun v => v.findSocio _ _) (fun _ => rfl) (fun _ => rfl) (fun _ _ _ => trivial)
      fun _ => trivial

theorem acceptInTx_asserts {tokenHash : String} :
    (acceptInTx host env tokenHash).Asserts d₀ (Commits host d₀ reqs) (About d₀ reqs) i
      ⟨.readCommitted, h, [], []⟩ h := by
  refine Tx.Asserts.send rfl (fun _ _ => rfl) ?_
  intro h₁ found ws e₁ hx
  cases hx
  generalize hfound : Db.findInvitation _ _ _ = found
  cases found with
  | none => trivial
  | some inv =>
    have hfound : (replay (S := invitations) d₀ h₁).findInvitation tokenHash (env.now 1) =
        some inv := hfound
    have hinv := Table.find?_of_mem (List.mem_of_find?_eq_some hfound)
    generalize ht : Open.after (S := invitations) ⟨.readCommitted, h, [], []⟩ _ _ = t
    have hiso : t.iso = .readCommitted := by rw [← ht]; rfl
    -- the link is all that is locked
    have hheld : t.held = [(.invitation inv.id, .update)] := by
      rw [← ht]
      change ((replay (S := invitations) d₀ h₁).findInvitation _ _).toList.map _ ++ [] = _
      rw [hfound, List.append_nil]
      rfl
    refine Tx.Asserts.read hiso (fun v => v.findSocio _ _) (fun _ => rfl) (fun _ => rfl)
      (fun _ => trivial) ?_
    intro h₂ _ l₂
    generalize Db.findSocio _ _ _ = socio
    cases socio with
    | none => trivial
    | some member =>
      refine Tx.Asserts.read hiso (fun v => v.accounts.rows.any _) (fun _ => rfl) (fun _ => rfl)
        (fun _ => trivial) ?_
      intro h₃ _ l₃
      refine Tx.Asserts.read hiso (fun v => v.accounts.rows.any _) (fun _ => rfl) (fun _ => rfl)
        (fun _ => trivial) ?_
      intro h₄ _ l₄
      change Tx.Asserts (S := invitations) d₀ _ _ i (if (_ || _) = true then _ else _) _ _
      split
      · trivial
      have hlock : (.invitation inv.id, .update) ∈ t.held := by
        rw [hheld]
        exact List.mem_singleton_self _
      have hinv₄ : (replay (S := invitations) d₀
          (h₄ ++ [.exec i (.accountNamed inv.email)])).invitations.find? inv.id = some inv := by
        refine (invitation_locked (l₂.trans (l₃.trans l₄)) hlock).trans ?_
        rw [replay_sent]
        exact hinv
      refine spend_asserts hiso ⟨?_, ?_⟩ hlock hinv₄
      · intro y hy k hk
        rw [hheld] at hy
        obtain rfl := List.mem_singleton.mp hy
        cases hk
      · intro y hy k hk
        rw [hheld] at hy
        obtain rfl := List.mem_singleton.mp hy
        obtain rfl : inv.id = k := Key.invitation.inj hk
        exact ⟨rfl, inv, hinv₄⟩

theorem accept_asserts : (accept host env token).Asserts d₀ (Commits host d₀ reqs) (About d₀ reqs)
    i h := by
  refine Call.Asserts.transaction_bind ?_ ?_
  · intro h₁ e₁
    have hr := Tx.Asserts.reads_bind (d := d₀) (G := Commits host d₀ reqs) (A := About d₀ reqs)
      (i := i) (t := ⟨.readCommitted, h₁, [], []⟩) (f := Tx.ret) rfl e₁.lawful
      (lookup_reads (hashInvitationToken host token) (env.now 0)) fun _ _ _ => trivial
    rwa [Tx.bind_ret] at hr
  intro live h₁ _ _
  refine Call.Asserts.require fun _ => ?_
  refine Call.Asserts.transaction_bind (fun _ _ => acceptInTx_asserts) ?_
  intro row h₂ _ _
  cases row <;> trivial

end

theorem Request.asserts {r : Request} (hreq : reqs[i]? = some r) :
    (r.call host).Asserts d₀ (Commits host d₀ reqs) (About d₀ reqs) i [] := by
  cases r with
  | invite env actor memberId rawEmail => exact Call.Asserts.map (invite_asserts hreq)
  | accept env token => exact Call.Asserts.map accept_asserts

/-! Circles. -/

/-- Nobody loses a login. -/
theorem Lawful.account_stays {n : History invitations} {a : Account}
    (hl : Lawful (Commits host d₀ reqs) (h ++ n))
    (ha : a ∈ (replay (S := invitations) d₀ h).accounts.rows) :
    a ∈ (replay (S := invitations) d₀ (h ++ n)).accounts.rows := by
  refine hl.keep (S := invitations) d₀ (fun d => a ∈ d.accounts.rows) (List.prefix_append _ _) ha ?_
  intro h₁ c _ _ ih _ ⟨r, _, hw⟩
  rcases hw with hw | he
  · rw [hw]
    exact ih
  generalize c.writes = ws at he ⊢
  cases he with
  | @invited env actor memberId rawEmail email ids _ _ _ _ _ =>
    rw [applyAll_read_eq (S := invitations) Db.accounts (by
      intro w hw d
      rcases List.mem_append.mp hw with hw | hw
      · obtain ⟨k, -, rfl⟩ := List.mem_map.mp hw
        rfl
      · obtain rfl := List.mem_singleton.mp hw
        rfl)]
    exact ih
  | failed => exact ih
  | accepted _ _ _ _ _ _ haccount _ => exact (Table.grows_put haccount).mem ih

section
variable {s : Sys invitations Answer} {j : Nat} {p p' : Proc invitations Answer}
variable {t' : Open invitations}

/-- A request whose statement must wait for one that waits itself: a link and its person. -/
theorem Asks.overlap {x x' y : Key × LockMode} (hr : Reachable host d₀ reqs s)
    (hauth : Authentic d₀ reqs s.hist) (hij : i ≠ j) (hp : s.procs[i]? = some p)
    (hp' : s.procs[j]? = some p') (hheld : p.held = t.held) (hheld' : p'.held = t'.held)
    (ha : Asks d₀ reqs i t s.hist x) (ha' : Asks d₀ reqs j t' s.hist x') (hne : t.held ≠ [])
    (hy : y ∈ p'.held) (hxy : x.1 = y.1) (hconf : x.2.conflicts y.2 = true) :
    Overlap d₀ s := by
  have hapart : Apart t.held t'.held := by
    rw [← hheld, ← hheld']
    exact hr.ok.apart i j p p' hij hp hp'
  -- of two requests that hold one row for writing, one does not
  have hclash : ∀ {k m}, (k, .update) ∈ t.held → (k, m) ∈ t'.held → False := by
    intro k m hk hk'
    have hf := hapart _ hk _ hk' rfl
    rw [LockMode.update_conflicts] at hf
    cases hf
  rw [hheld'] at hy
  obtain ⟨k, m⟩ := y
  have hrole := ha'.role
  cases ha with
  | idle hnil => exact absurd hnil hne
  | @link contextId z hi hz =>
    obtain rfl : Key.invitation z.id = k := hxy
    rcases hrole with hnil | ⟨contextId', memberId', hi'⟩ | ha'
    · rw [hnil] at hy
      cases hy
    · obtain ⟨z', hz', hm⟩ := hi'.links _ hy _ rfl
      cases hz.symm.trans hz'
      rw [← hm] at hi'
      exact (hclash hi.lock hi'.lock).elim
    · obtain ⟨rfl, -⟩ := ha'.links _ hy _ rfl
      refine ⟨j, i, p', p, z, hij.symm, hp', hp, hz, ?_, ?_⟩
      · rw [hheld']
        exact hy
      · rw [hheld]
        exact hi.lock
  | @new row hi hnone =>
    obtain rfl : Key.invitation row.id = k := hxy
    rcases hrole with hnil | ⟨contextId', memberId', hi'⟩ | ha'
    · rw [hnil] at hy
      cases hy
    · obtain ⟨z', hz', -⟩ := hi'.links _ hy _ rfl
      cases hnone.symm.trans hz'
    · obtain ⟨-, z', hz'⟩ := ha'.links _ hy _ rfl
      cases hnone.symm.trans hz'
  | @invited row hi =>
    obtain rfl : Key.member row.memberId = k := hxy
    exact (hclash hi.lock hy).elim
  | @inviter row hi hby =>
    obtain rfl : Key.member row.invitedByMemberId = k := hxy
    rcases hrole with hnil | ⟨contextId', memberId', hi'⟩ | ha'
    · rw [hnil] at hy
      cases hy
    · have hsame := hi'.only _ hy _ rfl
      rcases hby with hself | ⟨env, actor, memberId, rawEmail, hreq, hsome, hctx, hactor⟩
      · rw [← hself] at hi
        exact (hclash hi.lock hy).elim
      · -- the inviter has a login, and who has one is not invited
        obtain ⟨q, hq⟩ := hi.started
        obtain ⟨g, n, hg⟩ := List.append_of_mem hq
        obtain ⟨⟨a, ha, hactx, ham⟩, m', hm', hmctx⟩ :=
          hauth g i q n env actor memberId rawEmail hg hreq hsome
        have hl := hr.lawful
        rw [hg] at hl
        have hnow := Lawful.account_stays hl ha
        rw [← hg] at hnow
        rw [← hactor, hsame] at hm' ham
        obtain ⟨m'', hm'', hctx'⟩ := hi'.member
        cases hm'.symm.trans hm''
        exact absurd ham (hi'.unnamed a hnow (hactx.trans (hmctx.symm.trans hctx')))
    · rw [ha'.members _ hy _ rfl] at hconf
      cases hconf
  | @person z ha hz hlock =>
    obtain rfl : Key.member z.memberId = k := hxy
    rcases hrole with hnil | ⟨contextId', memberId', hi'⟩ | ha'
    · rw [hnil] at hy
      cases hy
    · have hsame := hi'.only _ hy _ rfl
      refine ⟨i, j, p, p', z, hij, hp, hp', hz, ?_, ?_⟩
      · rw [hheld]
        exact hlock
      · rw [hheld', hsame]
        exact hi'.lock
    · rw [ha'.members _ hy _ rfl] at hconf
      cases hconf
  | @spent id ha hlock =>
    obtain rfl : Key.invitation id = k := hxy
    exact (hclash hlock hy).elim

end

/-- In every state of a run in which nobody holds the link of a person whose row somebody
else holds, nobody waits in a circle for a person or a link. -/
theorem no_deadlock_of_not_overlap (host : Host) (d₀ : Db) (reqs : List Request)
    (s : Sys invitations Answer) (hr : Reachable host d₀ reqs s)
    (hauth : Authentic d₀ reqs s.hist) (hno : ¬ Overlap d₀ s) :
    ¬ s.Deadlocked (S := invitations) d₀ OnRows := by
  intro hd
  have hasserts : ∀ (i : Nat) (p : Proc invitations Answer), s.procs[i]? = some p →
      p.Asserts d₀ (Commits host d₀ reqs) (About d₀ reqs) i s.hist := by
    refine Sys.Reach.asserts hr (Q := fun _ _ _ => True) (Sys.initial_ok ?_)
      (Sys.initial_asserts ?_)
    · intro i c hc
      rw [List.getElem?_map] at hc
      obtain ⟨r, hreq, rfl⟩ := Option.map_eq_some_iff.mp hc
      exact Request.safe hreq
    · intro i c hc
      rw [List.getElem?_map] at hc
      obtain ⟨r, hreq, rfl⟩ := Option.map_eq_some_iff.mp hc
      exact Request.asserts hreq
  obtain ⟨a, i, j, l, hai, hij, hjl⟩ := Sys.Deadlocked.waits hd
  obtain ⟨-, p, -, -, -, -, -, y₀, -, -, hp, -, -, -, -, hy₀, -⟩ := hai.asserts hr.lawful hasserts
  obtain ⟨p₁, p', t, q, r, ws, x, y, hne, hp₁, hp', hheld, hA, hx, hxm, hy, hxy, hP, hconf⟩ :=
    hij.asserts hr.lawful hasserts
  obtain ⟨p₂, -, t', q', r', ws', x', -, -, hp₂, -, hheld', hA', hx', hxm', -, -, hP', -⟩ :=
    hjl.asserts hr.lawful hasserts
  cases hp.symm.trans hp₁
  cases hp'.symm.trans hp₂
  refine hno ((hA.asks hx hxm hP).overlap hr hauth hne hp hp' hheld hheld' (hA'.asks hx' hxm' hP')
    ?_ hy hxy hconf)
  rw [← hheld]
  exact List.ne_nil_of_mem hy₀

/-- The requests of Ana are hers. -/
theorem Demo.authentic {d : Db} {reqs : List Request} {s : Sys invitations Answer}
    (hr : Reachable Demo.host d reqs s) (hlogin : Demo.login ∈ d.accounts.rows)
    (hana : d.members.find? ⟨"ana"⟩ = some (Demo.socio "ana"))
    (hreqs : ∀ r ∈ reqs, ∀ env actor memberId rawEmail, r = .invite env actor memberId rawEmail →
      actor = Demo.ana) : Authentic d reqs s.hist := by
  intro g i q n env actor memberId rawEmail hg hreq _
  obtain rfl := hreqs _ (List.mem_of_getElem? hreq) _ _ _ _ rfl
  have hl := hr.lawful
  rw [hg] at hl
  have hkey : uuid Demo.ana.selectedMemberId = ⟨"ana"⟩ := by decide
  rw [hkey]
  exact ⟨⟨Demo.login, Lawful.account_stays (h := []) hl.left hlogin, rfl, rfl⟩, Demo.socio "ana",
    hana, rfl⟩

/-- Luis was invited two minutes ago. -/
def Demo.earlier : AccountInvitation :=
  newInvitation Demo.host (Demo.env 3 0) Demo.ana "luis" "luis@bazar.mx"

def Demo.invited : Db := { Demo.bazar with invitations := ⟨[Demo.earlier], by decide⟩ }

/-- Some request holds the link of a person whose row another one holds. -/
def Demo.overlaps (d : Db) (s : Sys invitations Answer) : Bool :=
  s.procs.zipIdx.any fun a => s.procs.zipIdx.any fun b => a.2 ≠ b.2 &&
    (replay (S := invitations) d s.hist).invitations.rows.any fun x =>
      (.invitation x.id, .update) ∈ a.1.held && (.member x.memberId, .update) ∈ b.1.held

theorem Demo.not_overlap {d : Db} {s : Sys invitations Answer} (h : Demo.overlaps d s = false) :
    ¬ Overlap d s := by
  rintro ⟨i, j, p, p', x, hij, hp, hp', hx, hlink, hperson⟩
  have hyes : Demo.overlaps d s = true := by
    refine List.any_eq_true.mpr ⟨(p, i), List.mem_zipIdx_iff_getElem?.mpr hp, ?_⟩
    refine List.any_eq_true.mpr ⟨(p', j), List.mem_zipIdx_iff_getElem?.mpr hp', ?_⟩
    refine Bool.and_eq_true_iff.mpr ⟨decide_eq_true hij, ?_⟩
    refine List.any_eq_true.mpr ⟨x, Table.mem_of_find? hx, ?_⟩
    exact Bool.and_eq_true_iff.mpr ⟨decide_eq_true hlink, decide_eq_true hperson⟩
  rw [h] at hyes
  cases hyes

def Demo.withEva : Db :=
  { members := ⟨[Demo.socio "ana", Demo.socio "luis", Demo.socio "eva"], by decide⟩
    accounts := Demo.logins, devices := .empty, invitations := ⟨[Demo.earlier], by decide⟩ }

/-- Luis opens his link while Ana invites Eva. -/
def Demo.openedWhileInvited : List Request :=
  [.accept (Demo.env 2 120000) "xxx", .invite (Demo.env 1 120000) Demo.ana "eva" "eva@bazar.mx"]

def Demo.openedWhileInvitedSteps : List Nat := List.replicate 9 0 ++ List.replicate 7 1

/-- Both hold rows, of different people. -/
theorem no_deadlock_of_not_overlap_apart :
    ((Demo.run Demo.withEva Demo.openedWhileInvited Demo.openedWhileInvitedSteps).procs.all
        fun p => ¬ p.held.isEmpty) = true ∧
      ¬ (Demo.run Demo.withEva Demo.openedWhileInvited Demo.openedWhileInvitedSteps).Deadlocked
        (S := invitations) Demo.withEva OnRows := by
  have hr : Reachable Demo.host Demo.withEva Demo.openedWhileInvited
      (Demo.run Demo.withEva Demo.openedWhileInvited Demo.openedWhileInvitedSteps) :=
    Demo.reachable (by decide)
  refine ⟨by decide, no_deadlock_of_not_overlap Demo.host _ _ _ hr
    (Demo.authentic hr (List.mem_singleton_self _) (by decide) ?_) (Demo.not_overlap (by decide))⟩
  intro r hm env actor memberId rawEmail he
  rcases List.mem_cons.mp hm with rfl | hm
  · cases he
  · obtain rfl := List.mem_singleton.mp hm
    cases he
    rfl

/-- Ana sends the invitation again while Luis opens the link he has. -/
def Demo.resentWhileOpened : List Request :=
  [.invite (Demo.env 1 120000) Demo.ana "luis" "luis@bazar.mx", .accept (Demo.env 2 120000) "xxx"]

def Demo.resentWhileOpenedSteps : List Nat := List.replicate 9 1 ++ List.replicate 7 0

/-- The invitation waits for the link, and the acceptance for the person. -/
theorem deadlock_resent_while_opened :
    Reachable Demo.host Demo.invited Demo.resentWhileOpened
        (Demo.run Demo.invited Demo.resentWhileOpened Demo.resentWhileOpenedSteps) ∧
      (Demo.run Demo.invited Demo.resentWhileOpened Demo.resentWhileOpenedSteps).Deadlocked
        (S := invitations) Demo.invited OnRows := by
  refine ⟨Demo.reachable (by decide), 0, ?_⟩
  have hlink : (Demo.run Demo.invited Demo.resentWhileOpened
      Demo.resentWhileOpenedSteps).Waits (S := invitations) Demo.invited OnRows 0 1 := by
    decide
  have hperson : (Demo.run Demo.invited Demo.resentWhileOpened
      Demo.resentWhileOpenedSteps).Waits (S := invitations) Demo.invited OnRows 1 0 := by
    decide
  exact .tail (.single hlink) hperson

end Bazar.Invitations
