import BazarApi.Invitations.Rows

/- An invitation and an acceptance keep the guarantee of `Requests`. The row of the person
   invited is locked from the first statement on, so nobody else invites that person
   meanwhile; the row of a link is locked from its lookup on. -/
namespace Bazar.Invitations

open Txn Team Team.Invitations Registration

/-! The limits of one person. -/

/-- What a decreasing list satisfies up to a bound, it satisfies in a prefix. -/
theorem filter_take_of_pairwise {α : Type} {le : α → α → Prop} {p : α → Bool} {xs : List α} {k n : Nat}
    (hs : xs.Pairwise le) (hp : ∀ x y, le x y → p x = false → p y = false) (hk : k < n)
    (hlen : ((xs.take n).filter p).length ≤ k) : xs.filter p = (xs.take n).filter p := by
  rcases Nat.le_total xs.length n with hle | hle
  · rw [List.take_of_length_le hle]
  -- some element of the prefix fails, and with it all that follow
  obtain ⟨x, hx, hpx⟩ : ∃ x ∈ xs.take n, p x = false := by
    by_contra hno
    push Not at hno
    have hall : (xs.take n).filter p = xs.take n :=
      List.filter_eq_self.mpr fun x hx => by simpa using hno x hx
    rw [hall, List.length_take, Nat.min_eq_left hle] at hlen
    omega
  conv => lhs; rw [← List.take_append_drop n xs, List.filter_append]
  have hdrop : (xs.drop n).filter p = [] := by
    rw [List.filter_eq_nil_iff]
    intro y hy
    have hxy : le x y := by
      have hpair := hs
      rw [← List.take_append_drop n xs, List.pairwise_append] at hpair
      exact hpair.2.2 x hx y hy
    simp [hp x y hxy hpx]
  rw [hdrop, List.append_nil]

/-- An invitation the limits let pass is apart from the others of its person, and within
the day's number. -/
theorem sendRefusal_none {xs : List AccountInvitation} {now : Instant}
    (h : sendRefusal ((xs.insertionSort fun x y => y.createdAt ≤ x.createdAt).take
      (invitationMaxPerDay + 1)) now = none) :
    (∀ x ∈ xs, x.createdAt + invitationMinGapMs ≤ now) ∧
      (xs.filter fun x => now - x.createdAt < dayMs).length < invitationMaxPerDay := by
  have hsorted : (xs.insertionSort fun x y => y.createdAt ≤ x.createdAt).Pairwise
      fun x y => y.createdAt ≤ x.createdAt := by
    have htotal : Std.Total fun x y : AccountInvitation => y.createdAt ≤ x.createdAt :=
      ⟨fun x y => Int.le_total y.createdAt x.createdAt⟩
    have htrans : IsTrans AccountInvitation fun x y => y.createdAt ≤ x.createdAt :=
      ⟨fun x y z hxy hyz => Int.le_trans hyz hxy⟩
    exact List.pairwise_insertionSort _ xs
  have hperm := List.perm_insertionSort (fun x y => y.createdAt ≤ x.createdAt) xs
  generalize (xs.insertionSort fun x y => y.createdAt ≤ x.createdAt) = ys at h hsorted hperm
  unfold sendRefusal at h
  split at h
  · cases h
  rename_i hgap
  split at h
  · cases h
  rename_i hday
  refine ⟨?_, ?_⟩
  · intro x hx
    have hx := hperm.mem_iff.mpr hx
    cases ys with
    | nil => cases hx
    | cons y ys =>
      have hy : ¬ now - y.createdAt < invitationMinGapMs := by
        intro hlt
        exact hgap (decide_eq_true hlt)
      have hle : x.createdAt ≤ y.createdAt := by
        rcases List.mem_cons.mp hx with rfl | hx
        · exact Int.le_refl _
        · exact List.rel_of_pairwise_cons hsorted hx
      have hy : invitationMinGapMs ≤ now - y.createdAt := Int.not_lt.mp hy
      have hsum : x.createdAt + invitationMinGapMs ≤ y.createdAt + (now - y.createdAt) :=
        Int.add_le_add hle hy
      rwa [add_sub_cancel] at hsum
  · rw [← (hperm.filter _).length_eq]
    rw [filter_take_of_pairwise (n := invitationMaxPerDay + 1) (k := invitationMaxPerDay - 1) hsorted
      ?_ (by decide) ?_]
    · exact Nat.not_le.mp hday
    · intro x y hxy hx
      have hx : ¬ now - x.createdAt < dayMs := of_decide_eq_false hx
      refine decide_eq_false ?_
      intro hy
      exact hx (Int.lt_of_le_of_lt (Int.sub_le_sub_left hxy now) hy)
    · have hlt := Nat.not_le.mp hday
      unfold invitationMaxPerDay at hlt ⊢
      omega

theorem issuesOf_eq_map (d : Db) (contextId : String) (memberId : Uuid) :
    d.issuesOf contextId memberId =
      (d.invitationsOf contextId memberId).map AccountInvitation.issue := by
  unfold Db.issuesOf Db.issues Db.invitationsOf
  rw [List.filter_map]
  rfl

theorem mem_issuesOf {d : Db} {contextId : String} {memberId : Uuid} {x : Issue} :
    x ∈ d.issuesOf contextId memberId ↔ x ∈ d.issues ∧ x.isOf contextId memberId := by
  unfold Db.issuesOf
  rw [List.mem_filter, decide_eq_true_eq]

section
variable {host : Host} {d : Db} {reqs : List Request} {i : Nat} {h : History invitations}
variable {r : Request}

theorem commits_quiet (hreq : reqs[i]? = some r) (h : History invitations)
    (c : Commit invitations) (hc : c.pid = i) (hw : c.writes = []) : Commits host d reqs h c :=
  ⟨r, by rw [hc]; exact hreq, .inl hw⟩

/-- The end of a transaction that wrote nothing. -/
theorem quiet_safe {α : Type} {t : Open invitations} {a : α} {Q : α → History invitations → Prop}
    {R : Err → History invitations → Prop} (hreq : reqs[i]? = some r) (hp : t.pending = [])
    (hq : ∀ h', Q a h') :
    (Tx.ret a : Tx invitations α).Safe d (Commits host d reqs) i Q R t h := by
  intro h' _
  exact ⟨commits_quiet hreq _ _ rfl hp, hq _⟩

/-- An invitation stays as the statement found that wrote it. -/
theorem invitation_since {G : History invitations → Commit invitations → Prop}
    {h' : History invitations} {t : Open invitations} {q : Sql} {v : Db} {k : Uuid} {w : Write}
    {ws : List Write}
    (he : Later (S := invitations) G i (t.after (taken (S := invitations) q v ws) ws).held
      (h ++ [.exec i q]) h') (hw : w ∈ ws) (hk : w.key = .invitation k) :
    (replay (S := invitations) d h').invitations.find? k =
      (replay (S := invitations) d h).invitations.find? k := by
  refine he.since_write (S := invitations) d (fun v => v.invitations.find? k) ?_ hw
  intro d w' hne
  refine invitations_apply_ne ?_
  rwa [← hk]

/-! What the statements that write do when they succeed. -/

theorem exec_createInvitation {row : AccountInvitation} {v : Db} {x : Unit} {ws : List Write}
    (hx : insertInvitation row v = .ok (x, ws)) :
    ws = [.insertInvitation row] ∧ v.invitations.find? row.id = none := by
  unfold insertInvitation at hx
  split at hx
  · cases hx
  · rename_i hn
    split at hx
    · cases hx
    · cases hx
      exact ⟨rfl, by simpa using hn⟩

theorem exec_createAccount {row : Account} {v : Db} {x : Unit} {ws : List Write}
    (hx : insertAccount row v = .ok (x, ws)) :
    ws = [.insertAccount row] ∧ v.accounts.find? row.id = none ∧
      (row.memberId.isSome → ∀ a ∈ v.accounts.rows, a.memberId ≠ row.memberId) := by
  unfold insertAccount at hx
  split at hx
  · cases hx
  · rename_i hn
    split at hx
    · cases hx
    · split at hx
      · cases hx
      · rename_i htaken
        cases hx
        refine ⟨rfl, by simpa using hn, ?_⟩
        intro hsome a ha he
        exact htaken ⟨hsome, List.any_eq_true.mpr ⟨a, ha, decide_eq_true he⟩⟩

theorem exec_createDevice {row : Device} {v : Db} {x : Unit} {ws : List Write}
    (hx : insertDevice row v = .ok (x, ws)) :
    ws = [.insertDevice row] ∧ v.devices.find? row.id = none := by
  unfold insertDevice at hx
  split at hx
  · cases hx
  · rename_i hn
    split at hx
    · cases hx
    · cases hx
      exact ⟨rfl, by simpa using hn⟩

/-! Inviting. -/

section
variable {β : Type} {Q : β → History invitations → Prop} {t : Open invitations}

theorem hasPersonalSocio_safe {contextId : String} {f : Bool → Tx invitations β}
    (ht : t.iso = .readCommitted)
    (hs : ∀ b h', Later (Commits host d reqs) i t.held h h' →
      (f b).Safe d (Commits host d reqs) i Q (fun _ _ => True) t h') :
    (hasPersonalSocio contextId >>= f).Safe d (Commits host d reqs) i Q (fun _ _ => True) t h := by
  refine Tx.Safe.read ht (fun v => v.sociosOf _) (fun _ => rfl) (fun _ => rfl) ?_
  intro h₁ _ l₁
  generalize Db.sociosOf _ _ = socios
  by_cases hsocios : socios = []
  · subst hsocios
    exact hs false _ l₁
  · change Tx.Safe (S := invitations) d _ i _ _
      ((if socios = [] then pure false else query (.accountAmong contextId socios)) >>= f) _ _
    rw [if_neg hsocios]
    refine Tx.Safe.read ht (fun v => v.accountAmong _ _) (fun _ => rfl) (fun _ => rfl) ?_
    intro h₂ _ l₂
    exact hs _ _ (l₁.trans l₂)

theorem enforceSendLimits_safe {contextId : String} {memberId : Uuid} {now : Instant}
    {f : Unit → Tx invitations β} (ht : t.iso = .readCommitted) (hp : t.pending = [])
    (hs : ∀ h₁, Later (Commits host d reqs) i t.held h h₁ →
      Spaced ((replay (S := invitations) d h₁).issuesOf contextId memberId) now →
      (f ()).Safe d (Commits host d reqs) i Q (fun _ _ => True) t h₁) :
    (enforceSendLimits contextId memberId now >>= f).Safe d (Commits host d reqs) i Q
      (fun _ _ => True) t h := by
  refine Tx.Safe.read ht (fun v => v.latestOf _ _ _) (fun _ => rfl) (fun _ => rfl) ?_
  intro h₁ e₁ l₁
  rw [hp]
  refine Tx.Safe.ofExcept ?_ (fun _ _ _ _ => trivial)
  intro u hu
  refine hs _ l₁ ?_
  rw [replay_sent]
  generalize hrefusal : sendRefusal _ now = refusal at hu
  cases refusal with
  | some e => cases hu
  | none =>
    obtain ⟨hgap, hday⟩ := sendRefusal_none hrefusal
    refine ⟨?_, ?_⟩
    · intro x hx
      rw [issuesOf_eq_map] at hx
      obtain ⟨y, hy, rfl⟩ := List.mem_map.mp hx
      exact hgap y hy
    · rw [issuesOf_eq_map, List.filter_map, List.length_map]
      exact hday

/-- What is known once the limit of new people let an invitation pass. -/
def MayBeNew (d : Db) (i : Nat) (h : History invitations) (contextId : String)
    (memberId inviterId : Uuid) (since : Instant) : Prop :=
  (∃ x ∈ (replay (S := invitations) d h).issues, x.isOf contextId memberId) ∨
    BelowLimit d i h contextId inviterId since

theorem MayBeNew.later {h' : History invitations} {contextId : String} {memberId inviterId : Uuid}
    {since : Instant} {held : Locks Key} (hm : MayBeNew d i h contextId memberId inviterId since)
    (hl : Later (Commits host d reqs) i held h h') :
    MayBeNew d i h' contextId memberId inviterId since := by
  obtain ⟨n, rfl⟩ := hl.pre
  rcases hm with ⟨x, hx, hof⟩ | ⟨a, a', b, rfl, haa', ha', hlt⟩
  · exact .inl ⟨x, (Lawful.issues_grow hl.lawful).subset hx, hof⟩
  · exact .inr ⟨a, a', b ++ n, by simp, haa', ha'.trans (List.prefix_append _ _), hlt⟩

theorem enforceNewInvitationLimit_safe {contextId : String} {memberId inviterId : Uuid}
    {now : Instant} {f : Unit → Tx invitations β} (ht : t.iso = .readCommitted)
    (hp : t.pending = [])
    (hs : ∀ h₁, Later (Commits host d reqs) i t.held h h₁ →
      MayBeNew d i h₁ contextId memberId inviterId (now - dayMs) →
      (f ()).Safe d (Commits host d reqs) i Q (fun _ _ => True) t h₁) :
    (enforceNewInvitationLimit contextId memberId inviterId now >>= f).Safe d
      (Commits host d reqs) i Q (fun _ _ => True) t h := by
  refine Tx.Safe.read ht (fun v => (v.invitationsOf _ _).length) (fun _ => rfl) (fun _ => rfl) ?_
  intro h₁ e₁ l₁
  rw [hp]
  change Tx.Safe (S := invitations) d _ i _ _ ((if 0 < _ then pure () else _) >>= f) _ _
  split
  · rename_i hpos
    obtain ⟨x, hx⟩ := List.exists_mem_of_length_pos hpos
    refine hs _ l₁ (.inl ⟨x.issue, ?_⟩)
    rw [replay_sent]
    exact mem_issuesOf.mp (by
      rw [issuesOf_eq_map]
      exact List.mem_map_of_mem hx)
  refine Tx.Safe.read ht (fun v => v.invitationsBy _ _ _) (fun _ => rfl) (fun _ => rfl) ?_
  intro h₂ e₂ l₂
  rw [hp]
  change Tx.Safe (S := invitations) d _ i _ _ ((if _ = [] then pure () else _) >>= f) _ _
  split
  · rename_i hnone
    refine hs _ (l₁.trans l₂) (.inr ⟨h₂, h₂, [], rfl, List.prefix_refl _, List.prefix_append _ _, ?_⟩)
    have hnone : (replay (S := invitations) d h₂).invitationsBy contextId inviterId (now - dayMs) =
        [] := hnone
    rw [hnone, List.map_nil]
    have hempty : (replay (S := invitations) d h₂).invitationsOfAll contextId [] = [] := by
      simp [Db.invitationsOfAll]
    rw [hempty]
    exact (by decide : (0 : Nat) < invitationMaxNewPerDay)
  refine Tx.Safe.read ht (fun v => v.invitationsOfAll _ _) (fun _ => rfl) (fun _ => rfl) ?_
  intro h₃ e₃ l₃
  rw [hp]
  refine Tx.Safe.require ?_ (fun _ _ _ => trivial)
  intro hlt
  have hpre : h₂ ++ [.exec i (.invitationsBy contextId inviterId (now - dayMs))] <+: h₃ := e₃.pre
  refine hs _ ((l₁.trans l₂).trans l₃) (.inr ?_)
  obtain ⟨n, rfl⟩ := hpre
  exact ⟨h₂, _, _, (List.append_assoc _ _ _).trans (List.append_assoc _ _ _),
    (List.prefix_append _ _).trans (List.prefix_append _ _), List.prefix_append _ _, hlt⟩

theorem issueInTx_safe {env : Env} {actor : Actor} {memberId email : String} (rawEmail : String)
    {f : Unit → Tx invitations β} (ht : t.iso = .readCommitted) (hp : t.pending = [])
    (hlock : (.member (uuid memberId), .update) ∈ t.held)
    (hs : ∀ t' h₁, t'.iso = .readCommitted →
      (∀ h₂, Later (Commits host d reqs) i t'.held h₁ h₂ →
        Effect host d i h₂ t'.held (.invite env actor memberId rawEmail) t'.pending) →
      (f ()).Safe d (Commits host d reqs) i Q (fun _ _ => True) t' h₁) :
    (issueInTx host env actor memberId email >>= f).Safe d (Commits host d reqs) i Q
      (fun _ _ => True) t h := by
  simp only [issueInTx, query, Tx.bind_assoc]
  refine enforceSendLimits_safe ht hp ?_
  intro h₁ l₁ hspaced
  refine enforceNewInvitationLimit_safe ht hp ?_
  intro h₂ l₂ hmay
  refine Tx.Safe.read ht (fun v => v.accounts.rows.any _) (fun _ => rfl) (fun _ => rfl) ?_
  intro h₃ _ l₃
  refine Tx.Safe.require (fun _ => ?_) (fun _ _ _ => trivial)
  refine Tx.Safe.send ht (fun _ _ _ => trivial) ?_
  intro h₄ x ws₄ e₄ hx₄
  rw [hp] at hx₄
  obtain ⟨-, hws⟩ := Prod.mk.inj (Except.ok.inj hx₄)
  refine Tx.Safe.send ht (fun _ _ _ => trivial) ?_
  intro h₅ y ws₅ e₅ hx₅
  obtain ⟨rfl, hnone⟩ := exec_createInvitation hx₅
  rw [Open.after_pending, hp, List.nil_append] at hnone
  refine hs _ _ ht ?_
  intro h₆ l₆
  have m₅ := (e₅.exec (.createInvitation (newInvitation host env actor memberId email))).trans
    (l₆.weaken (List.subset_append_left _ _))
  have m₄ := (e₄.exec (.supersedeAll actor.contextId (uuid memberId) (env.now 0))).trans
    (m₅.weaken (List.subset_append_left _ _))
  have hissues : ∀ {h₀}, Later (Commits host d reqs) i t.held h₀ h₆ →
      (replay (S := invitations) d h₆).issuesOf actor.contextId (uuid memberId) =
        (replay (S := invitations) d h₀).issuesOf actor.contextId (uuid memberId) :=
    fun l => Later.issuesOf_eq l hlock
  have hmap : ∀ xs : List AccountInvitation, (xs.map fun x => Write.supersede x.id (env.now 0)) =
      (xs.map (·.id)).map fun k => Write.supersede k (env.now 0) := by
    intro xs
    rw [List.map_map]
    rfl
  rw [← hws, hmap, find?_supersedeAll] at hnone
  generalize hheld : Open.held _ = held
  rw [Open.after_pending, Open.after_pending, hp, List.nil_append, ← hws, hmap]
  subst hheld
  refine .invited (List.mem_append_left _ (List.mem_append_left _ hlock)) ?_ ?_
    (hmay.later (l₃.trans m₄)) ?_
  · refine (invitation_since l₆ List.mem_cons_self rfl).trans ?_
    split at hnone
    · exact Option.map_eq_none_iff.mp hnone
    · exact hnone
  · rw [hissues (l₂.trans (l₃.trans m₄))]
    exact hspaced
  · -- a link unspent now was there, and unspent, when the links were replaced
    intro k x hx hof hunspent
    have hx' : x.issue ∈ (replay (S := invitations) d h₆).issuesOf actor.contextId
        (uuid memberId) := by
      rw [issuesOf_eq_map]
      exact List.mem_map_of_mem (List.mem_filter.mpr ⟨Table.mem_of_find? hx, decide_eq_true hof⟩)
    rw [hissues (m₅.weaken (List.subset_append_left _ _)), replay_sent,
      issuesOf_eq_map] at hx'
    obtain ⟨y, hy, hyx⟩ := List.mem_map.mp hx'
    obtain ⟨hmem, hyof⟩ := List.mem_filter.mp hy
    have hid : y.id = k := (congrArg Issue.id hyx).trans (Table.find?_key hx)
    refine List.mem_map.mpr ⟨y, List.mem_filter.mpr ⟨hy, decide_eq_true ?_⟩, hid⟩
    by_contra hspent
    obtain ⟨n, rfl⟩ := m₅.pre
    obtain ⟨z, hz, hzspent⟩ := Lawful.row_stays (P := fun x => ¬ x.unspent) m₅.lawful
      ⟨y, by rw [replay_sent]; exact Table.find?_of_mem hmem, hspent⟩
      fun c d x y _ hturn hno hy => hno (hturn.unspent hy)
    change (replay (S := invitations) d _).invitations.find? y.id = some z at hz
    rw [hid] at hz
    cases hx.symm.trans hz
    exact hzspent hunspent

theorem replay_members (d : Db) (h : History invitations) :
    (replay (S := invitations) d h).members = d.members :=
  replay_read_eq (S := invitations) Db.members (fun _ _ w _ d => by cases w <;> rfl) d

/-- The row of a person is locked when there is one. -/
theorem member_locked {v : Db} {id : Uuid} {contextId : String} (member : Member)
    (hm : v.findMember id contextId = some member) :
    (.member id, .update) ∈ Sql.locks (.lockMember id contextId) v := by
  change _ ∈ (v.findMember id contextId).toList.map fun m => (Key.member m.id, LockMode.update)
  rw [hm]
  obtain rfl := Table.find?_key (Option.filter_eq_some_iff.mp hm).1
  exact List.mem_singleton.mpr rfl

theorem inviteInTx_safe {env : Env} {actor : Actor} {memberId rawEmail email : String}
    (hreq : reqs[i]? = some (.invite env actor memberId rawEmail)) :
    (inviteInTx host env actor memberId email).Safe d (Commits host d reqs) i (fun _ _ => True)
      (fun _ _ => True) ⟨.readCommitted, h, [], []⟩ h := by
  refine Tx.Safe.send rfl (fun _ _ _ => trivial) ?_
  intro h₁ x ws e₁ hx
  cases hx
  refine Tx.Safe.read rfl (fun v => v.findMember _ _) (fun _ => rfl) (fun _ => rfl) ?_
  intro h₂ e₂ _
  refine Tx.Safe.orThrow ?_ (fun _ _ _ => trivial)
  intro member hmember
  -- people do not change here, so the row was there to lock
  have hmember : (replay (S := invitations) d h₂).findMember (uuid memberId) actor.contextId =
      some member := hmember
  have hlock : (.member (uuid memberId), .update) ∈
      Sql.locks (.lockMember (uuid memberId) actor.contextId) (replay (S := invitations) d h₁) := by
    refine member_locked member ?_
    rw [← hmember]
    unfold Db.findMember
    rw [replay_members, replay_members]
  refine Tx.Safe.require (fun _ => ?_) (fun _ _ _ => trivial)
  have hrest : ∀ personal t' h₃, t'.iso = .readCommitted → t'.pending = [] →
      (.member (uuid memberId), .update) ∈ t'.held →
      (Tx.ofExcept ((inviteRestriction actor.memberId.isNone actor.selectedMemberId memberId
          personal).elim (.ok ()) .error) >>= fun _ =>
        query (.accountAmong actor.contextId [uuid memberId]) >>= fun account =>
        Tx.require (account = false) (Err.conflict "Este socio ya tiene su cuenta personal.") >>=
          fun _ => issueInTx host env actor memberId email >>= fun _ =>
        query (.findMember (uuid actor.selectedMemberId) actor.contextId) >>= fun inviter =>
        (pure (member.name, inviter.elim "Un socio" (·.name)) :
          Tx invitations (String × String))).Safe d (Commits host d reqs) i (fun _ _ => True)
        (fun _ _ => True) t' h₃ := by
    intro personal t' h₃ ht hp hheld
    refine Tx.Safe.ofExcept (fun _ _ => ?_) (fun _ _ _ _ => trivial)
    refine Tx.Safe.read ht (fun v => v.accountAmong _ _) (fun _ => rfl) (fun _ => rfl) ?_
    intro h₄ _ _
    refine Tx.Safe.require (fun _ => ?_) (fun _ _ _ => trivial)
    refine issueInTx_safe rawEmail ht hp hheld ?_
    intro t'' h₅ ht'' heffect
    refine Tx.Safe.read ht'' (fun v => v.findMember _ _) (fun _ => rfl) (fun _ => rfl) ?_
    intro h₆ _ l₆ h₇ e₇
    exact ⟨⟨_, hreq, .inr (heffect h₇ (l₆.trans e₇.later))⟩, trivial⟩
  have hheld : ((.member (uuid memberId), .update) : Key × LockMode) ∈
      (Open.after (S := invitations) ⟨.readCommitted, h, [], []⟩
        (taken (S := invitations) (.lockMember (uuid memberId) actor.contextId)
          (applyAll (S := invitations) (replay (S := invitations) d h₁) []) []) []).held :=
    mem_held_of_lock (S := invitations) hlock
  dsimp only
  split
  · refine hasPersonalSocio_safe rfl ?_
    intro b h₃ _
    exact hrest b _ h₃ rfl rfl hheld
  · exact hrest false _ _ rfl rfl hheld

theorem invite_safe {env : Env} {actor : Actor} {memberId rawEmail : String}
    (hreq : reqs[i]? = some (.invite env actor memberId rawEmail)) :
    (invite host env actor memberId rawEmail).Safe d (Commits host d reqs) i (fun _ _ => True)
      h := by
  unfold invite
  cases inviteEmail host rawEmail with
  | error e => exact fun _ _ => trivial
  | ok email =>
    refine ⟨?_, fun _ _ _ _ _ _ _ => trivial⟩
    intro h₁ e₁
    refine (inviteInTx_safe hreq).mono ?_ (fun _ _ _ _ _ => trivial)
    intro names h₂ _
    change Call.Safe (S := invitations) d _ i _ (if env.delivered = true then _ else _) h₂
    split
    · exact fun _ _ => trivial
    refine ⟨?_, fun _ _ _ _ _ _ _ => trivial⟩
    intro h₃ e₃
    refine Tx.Safe.send rfl (fun _ _ _ _ _ => trivial) ?_
    intro h₄ x ws e₄ hx
    have hws : ws = [.supersede (env.serverId 0) (env.now 1)] := by
      simp only [Sql.exec] at hx
      split at hx
      · exact (Prod.mk.inj (Except.ok.inj hx)).2.symm
      · cases hx
    subst hws
    intro h₅ e₅
    exact ⟨⟨_, hreq, .inr .failed⟩, fun _ _ => trivial⟩

/-! Accepting. -/

theorem lookup_safe {tokenHash : String} {now : Instant} (hreq : reqs[i]? = some r)
    {Q : Option String → History invitations → Prop} (hq : ∀ a h', Q a h') :
    (lookup tokenHash now).Safe d (Commits host d reqs) i Q (fun _ _ => True)
      ⟨.readCommitted, h, [], []⟩ h := by
  refine Tx.Safe.read rfl (fun v => v.findInvitation _ _) (fun _ => rfl) (fun _ => rfl) ?_
  intro h₁ _ _
  generalize Db.findInvitation _ _ _ = found
  cases found with
  | none => exact quiet_safe hreq rfl (hq none)
  | some inv =>
    refine Tx.Safe.read rfl (fun v => v.findSocio _ _) (fun _ => rfl) (fun _ => rfl) ?_
    intro h₂ _ _
    exact quiet_safe hreq rfl (hq _)

/-- A link stays as it is while its row is locked. -/
theorem invitation_locked {held : Locks Key} {h' : History invitations} {k : Uuid}
    (hl : Later (Commits host d reqs) i held h h') (hk : (.invitation k, .update) ∈ held) :
    (replay (S := invitations) d h').invitations.find? k =
      (replay (S := invitations) d h).invitations.find? k :=
  Later.read_eq (S := invitations) d (fun v => v.invitations.find? k)
    (fun _ _ hne => invitations_apply_ne hne) hl hk LockMode.noConfusion

/-- The statements that spend a locked link. -/
theorem spend_safe {env : Env} {token name : String} {inv : AccountInvitation}
    {t : Open invitations} {a : AcceptedInvitation} (hreq : reqs[i]? = some (.accept env token))
    (ht : t.iso = .readCommitted) (hp : t.pending = [])
    (hlock : (.invitation inv.id, .update) ∈ t.held)
    (hinv : (replay (S := invitations) d h).invitations.find? inv.id = some inv)
    (hunspent : inv.unspent) (hlive : env.now 1 < inv.expiresAt)
    (htoken : inv.tokenHash = hashInvitationToken host token) :
    (query (.createAccount (acceptedAccount env inv)) >>= fun _ =>
      query (.createDevice (acceptedDevice host env inv name)) >>= fun _ =>
      query (.useInvitation inv.id (env.now 1) (env.serverId 0)) >>= fun _ =>
      (pure (some a) : Tx invitations (Option AcceptedInvitation))).Safe d (Commits host d reqs) i
      (fun _ _ => True) (fun _ _ => True) t h := by
  refine Tx.Safe.send ht (fun _ _ _ => trivial) ?_
  intro h₁ x ws₁ e₁ hx₁
  rw [hp] at hx₁
  obtain ⟨rfl, haccount, hnone⟩ := exec_createAccount hx₁
  refine Tx.Safe.send ht (fun _ _ _ => trivial) ?_
  intro h₂ y ws₂ e₂ hx₂
  obtain ⟨rfl, hdevice⟩ := exec_createDevice hx₂
  refine Tx.Safe.send ht (fun _ _ _ => trivial) ?_
  intro h₃ z ws₃ e₃ hx₃ h₄ e₄
  rw [Open.after_pending, hp] at hdevice
  -- from each statement to the last, and to the commit
  have l₂ := (e₂.exec (.createDevice (acceptedDevice host env inv name))).trans
    (e₃.later.weaken (List.subset_append_left _ _))
  have l₁ := (e₁.exec (.createAccount (acceptedAccount env inv))).trans
    (l₂.weaken (List.subset_append_left _ _))
  have m₃ := (e₃.exec (.useInvitation inv.id (env.now 1) (env.serverId 0))).trans
    (e₄.later.weaken (List.subset_append_left _ _))
  have m₂ := (e₂.exec (.createDevice (acceptedDevice host env inv name))).trans
    (m₃.weaken (List.subset_append_left _ _))
  have m₁ := (e₁.exec (.createAccount (acceptedAccount env inv))).trans
    (m₂.weaken (List.subset_append_left _ _))
  have hws : ws₃ = [.useInvitation inv.id (env.now 1) (env.serverId 0)] := by
    obtain ⟨-, hws⟩ := Prod.mk.inj (Except.ok.inj hx₃)
    rw [← hws, Open.after_pending, Open.after_pending, hp]
    change (((replay (S := invitations) d h₃).invitations.find? inv.id).toList.map _) = _
    rw [invitation_locked l₁ hlock, hinv]
    rfl
  subst hws
  refine ⟨⟨_, hreq, .inr ?_⟩, trivial⟩
  change Effect host d i h₄ _ _ (((t.pending ++ _) ++ _) ++ _)
  rw [hp]
  refine .accepted ((invitation_locked m₁ hlock).trans hinv) hunspent hlive htoken ?_ ?_ ?_ ?_
  · constructor
    · exact List.mem_append_left _ (List.mem_append_left _
        (mem_held_of_lock (S := invitations) (by exact List.mem_cons_of_mem _ List.mem_cons_self)))
    · exact List.mem_append_left _ (List.mem_append_left _
        (mem_held_of_lock (S := invitations)
          (by exact List.mem_cons_of_mem _ (List.mem_cons_of_mem _ List.mem_cons_self))))
  · intro a ha hm
    have hold := Later.account_old m₂ (.inl (mem_held_of_lock (S := invitations)
      (by exact List.mem_cons_of_mem _ List.mem_cons_self))) a ha hm
    rw [replay_sent] at hold
    exact hnone rfl a hold hm
  · refine (m₂.since_write (S := invitations) d
      (fun v => v.accounts.find? (env.serverId 0)) ?_ List.mem_cons_self).trans haccount
    intro d w hne
    exact accounts_apply_ne hne
  · refine (m₃.since_write (S := invitations) d
      (fun v => v.devices.find? (env.serverId 1)) ?_ List.mem_cons_self).trans hdevice
    intro d w hne
    exact devices_apply_ne hne

theorem acceptInTx_safe {env : Env} {token : String} (hreq : reqs[i]? = some (.accept env token)) :
    (acceptInTx host env (hashInvitationToken host token)).Safe d (Commits host d reqs) i
      (fun _ _ => True) (fun _ _ => True) ⟨.readCommitted, h, [], []⟩ h := by
  refine Tx.Safe.send rfl (fun _ _ _ => trivial) ?_
  intro h₁ found ws e₁ hx
  cases hx
  generalize hfound : Db.findInvitation _ _ _ = found
  cases found with
  | none => exact quiet_safe hreq rfl fun _ => trivial
  | some inv =>
    have hfound : (replay (S := invitations) d h₁).findInvitation (hashInvitationToken host token)
        (env.now 1) = some inv := hfound
    have hmatch := List.find?_some hfound
    obtain ⟨htoken, hunspent, hlive⟩ := of_decide_eq_true hmatch
    have hinv := Table.find?_of_mem (List.mem_of_find?_eq_some hfound)
    have hlock : ((.invitation inv.id, .update) : Key × LockMode) ∈
        Sql.locks (.lockInvitation (hashInvitationToken host token) (env.now 1))
          (replay (S := invitations) d h₁) := by
      change _ ∈ ((replay (S := invitations) d h₁).findInvitation _ _).toList.map _
      rw [hfound]
      exact List.mem_singleton.mpr rfl
    have hheld : ((.invitation inv.id, .update) : Key × LockMode) ∈
        (Open.after (S := invitations) ⟨.readCommitted, h, [], []⟩
          (taken (S := invitations) (.lockInvitation (hashInvitationToken host token) (env.now 1))
            (applyAll (S := invitations) (replay (S := invitations) d h₁) []) []) []).held :=
      mem_held_of_lock (S := invitations) hlock
    refine Tx.Safe.read rfl (fun v => v.findSocio _ _) (fun _ => rfl) (fun _ => rfl) ?_
    intro h₂ _ l₂
    generalize Db.findSocio _ _ _ = socio
    cases socio with
    | none => exact quiet_safe hreq rfl fun _ => trivial
    | some member =>
      refine Tx.Safe.read rfl (fun v => v.accounts.rows.any _) (fun _ => rfl) (fun _ => rfl) ?_
      intro h₃ _ l₃
      refine Tx.Safe.read rfl (fun v => v.accounts.rows.any _) (fun _ => rfl) (fun _ => rfl) ?_
      intro h₄ _ l₄
      change Tx.Safe (S := invitations) d _ i _ _ (if (_ || _) = true then _ else _) _ _
      split
      · exact quiet_safe hreq rfl fun _ => trivial
      refine spend_safe hreq rfl rfl hheld ?_ hunspent hlive htoken
      refine (invitation_locked (l₂.trans (l₃.trans l₄)) hheld).trans ?_
      rw [replay_sent]
      exact hinv

theorem accept_safe {env : Env} {token : String} (hreq : reqs[i]? = some (.accept env token)) :
    (accept host env token).Safe d (Commits host d reqs) i (fun _ _ => True) h := by
  refine ⟨?_, fun _ _ _ _ _ _ _ => trivial⟩
  intro h₁ _
  refine (lookup_safe hreq (Q := fun _ _ => True) fun _ _ => trivial).mono ?_
    (fun _ _ _ _ _ => trivial)
  intro live h₂ _
  refine Call.Safe.require (fun _ => ?_) (fun _ _ _ => trivial)
  refine ⟨?_, fun _ _ _ _ _ _ _ => trivial⟩
  intro h₃ _
  refine (acceptInTx_safe hreq).mono ?_ (fun _ _ _ _ _ => trivial)
  intro row h₄ _
  cases row <;> exact fun _ _ => trivial

/-- Every request keeps the guarantee. -/
theorem Request.safe (hreq : reqs[i]? = some r) :
    (r.call host).Safe d (Commits host d reqs) i (fun _ _ => True) [] := by
  cases r with
  | invite env actor memberId rawEmail => exact Call.Safe.map (invite_safe hreq)
  | accept env token => exact Call.Safe.map (accept_safe hreq)

end

end

/-! Runs. -/

/-- A state of a run in which the requests are served from the database `d₀`. -/
def Reachable (host : Host) (d₀ : Db) (reqs : List Request) (s : Sys invitations Answer) : Prop :=
  Sys.Reach (S := invitations) d₀ (Sys.initial (reqs.map (Request.call host))) s

/-- The requests of a run keep their guarantee in each of its states. -/
theorem Reachable.ok {host : Host} {d₀ : Db} {reqs : List Request} {s : Sys invitations Answer}
    (hr : Reachable host d₀ reqs s) :
    s.Ok d₀ (Commits host d₀ reqs) (fun _ _ _ => True) := by
  refine Sys.Reach.ok hr (Sys.initial_ok ?_)
  intro i c hc
  rw [List.getElem?_map] at hc
  obtain ⟨r, hreq, rfl⟩ := Option.map_eq_some_iff.mp hc
  exact Request.safe hreq

/-- Every commit of a run did what its request may do. -/
theorem Reachable.lawful {host : Host} {d₀ : Db} {reqs : List Request}
    {s : Sys invitations Answer} (hr : Reachable host d₀ reqs s) :
    Lawful (Commits host d₀ reqs) s.hist := hr.ok.lawful

/-! Two socios of a business, for concrete runs. -/

namespace Demo

def host : Host :=
  { sha256Hex := id, trimLower := id, trim := id, unaccent := id, expired := fun _ => false }

/-- Identifiers of a request, apart from those of the others. -/
def env (n : Nat) (now : Instant) : Env :=
  { serverId := fun k => ⟨String.ofList (List.replicate (20 * n + k) 'x')⟩, now := fun _ => now
    token := String.ofList (List.replicate n 'x'), delivered := true, deviceToken := "device"
    passwordHash := "hash" }

def socio (name : String) : Member :=
  { id := ⟨name⟩, name, role := .socio, contextId := "bazar", active := true, correo := none }

/-- Ana enters with a login of her own. -/
def login : Account :=
  { id := ⟨"login"⟩, username := "ana@bazar.mx", passwordHash := "hash", contextId := "bazar"
    active := true, memberId := some ⟨"ana"⟩ }

def ana : Actor := { contextId := "bazar", memberId := some ⟨"ana"⟩, selectedMemberId := "ana" }

def logins : Table Account := ⟨[login], by decide⟩

/-- Nobody was invited yet. -/
def bazar : Db :=
  { members := ⟨[socio "ana", socio "luis"], by decide⟩, accounts := logins
    devices := .empty, invitations := .empty }

/-- The state after the requests took the steps of a schedule. -/
def run (d : Db) (reqs : List Request) (steps : List Nat) : Sys invitations Answer :=
  (Sys.initial (reqs.map (Request.call host))).scheduled d steps

theorem reachable {d : Db} {reqs : List Request} {steps : List Nat}
    (h : ((Sys.initial (reqs.map (Request.call host))).schedule (S := invitations) d steps).isSome =
      true) : Reachable host d reqs (run d reqs steps) :=
  Sys.scheduled_reach h

end Demo

end Bazar.Invitations
