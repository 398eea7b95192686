import BazarApi.Invitations.Safe

/- The rules of one person's invitations: apart in time, few a day, one live link, and one
   login at most, made with its device by the link it spends. Each commit that adds an issue
   was made under the lock of its person, so the rules are kept one issue at a time. -/
namespace Bazar.Invitations

open Txn Team Registration

variable {host : Host} {d₀ d : Db} {reqs : List Request} {h : History invitations}
variable {c : Commit invitations} {id : Uuid} {x y : AccountInvitation}

/-- The two invitations are of one person. -/
def AccountInvitation.samePerson (x y : AccountInvitation) : Prop :=
  y.isOf x.contextId x.memberId

/-- The rules of the invitations of each person. -/
structure Orderly (d : Db) : Prop where
  spaced : ∀ x ∈ d.invitations.rows, ∀ y ∈ d.invitations.rows, x.samePerson y → x.id ≠ y.id →
    x.createdAt + invitationMinGapMs ≤ y.createdAt ∨ y.createdAt + invitationMinGapMs ≤ x.createdAt
  daily : ∀ contextId memberId start, ((d.invitationsOf contextId memberId).filter fun x =>
    start ≤ x.createdAt ∧ x.createdAt < start + dayMs).length ≤ invitationMaxPerDay
  one_live : ∀ x ∈ d.invitations.rows, ∀ y ∈ d.invitations.rows, x.samePerson y →
    x.unspent → y.unspent → x = y
  one_account : ∀ a ∈ d.accounts.rows, ∀ b ∈ d.accounts.rows, a.memberId.isSome →
    b.memberId = a.memberId → b = a

/-- The commit accepted the link. -/
def Accepts (reqs : List Request) (c : Commit invitations) (env : Env) (token : String)
    (id : Uuid) : Prop :=
  reqs[c.pid]? = some (.accept env token) ∧
    .useInvitation id (env.now 1) (env.serverId 0) ∈ c.writes

/-- Whether the row written belongs to an acceptance. -/
def Write.accepting : Write → Bool
  | .useInvitation _ _ _ => true
  | .insertAccount _ => true
  | .insertDevice _ => true
  | _ => false

/-- The rules over a run. -/
structure Kept (host : Host) (d₀ : Db) (reqs : List Request) (H : History invitations) : Prop where
  orderly : ∀ g, g <+: H → Orderly (replay (S := invitations) d₀ g)
  live : ∀ g c n env token id, H = g ++ .commit c :: n → Accepts reqs c env token id →
    ∃ x, (replay (S := invitations) d₀ g).invitations.find? id = some x ∧ x.usedAt = none ∧
      x.supersededAt = none ∧ env.now 1 < x.expiresAt ∧
      x.tokenHash = hashInvitationToken host token
  once : ∀ g c m c' n env env' token token' id, H = g ++ .commit c :: (m ++ .commit c' :: n) →
    Accepts reqs c env token id → ¬ Accepts reqs c' env' token' id
  together : ∀ g c n w, H = g ++ .commit c :: n → w ∈ c.writes → w.accepting = true →
    ∃ account device inv now, c.writes = [.insertAccount account, .insertDevice device,
        .useInvitation inv.id now account.id] ∧
      (replay (S := invitations) d₀ g).invitations.find? inv.id = some inv ∧
      account.memberId = some inv.memberId ∧ account.contextId = inv.contextId ∧
      account.username = inv.email ∧ device.contextId = inv.contextId

/-! The rules of the issues. -/

/-- The rules of a list of issues that the rows have in common. -/
structure OrderlyIssues (xs : List Issue) : Prop where
  spaced : ∀ x ∈ xs, ∀ y ∈ xs, y.isOf x.contextId x.memberId → x.id ≠ y.id →
    x.createdAt + invitationMinGapMs ≤ y.createdAt ∨ y.createdAt + invitationMinGapMs ≤ x.createdAt
  daily : ∀ contextId memberId start, (xs.filter fun x => x.isOf contextId memberId).countP
    (fun x => start ≤ x.createdAt ∧ x.createdAt < start + dayMs) ≤ invitationMaxPerDay

theorem orderlyIssues_iff : OrderlyIssues d.issues ↔
    (∀ x ∈ d.invitations.rows, ∀ y ∈ d.invitations.rows, x.samePerson y → x.id ≠ y.id →
      x.createdAt + invitationMinGapMs ≤ y.createdAt ∨
        y.createdAt + invitationMinGapMs ≤ x.createdAt) ∧
    ∀ contextId memberId start, ((d.invitationsOf contextId memberId).filter fun x =>
      start ≤ x.createdAt ∧ x.createdAt < start + dayMs).length ≤ invitationMaxPerDay := by
  have hcount : ∀ contextId memberId start, (d.issuesOf contextId memberId).countP
      (fun x => start ≤ x.createdAt ∧ x.createdAt < start + dayMs) =
      ((d.invitationsOf contextId memberId).filter fun x =>
        start ≤ x.createdAt ∧ x.createdAt < start + dayMs).length := by
    intro contextId memberId start
    rw [issuesOf_eq_map, List.countP_map, List.countP_eq_length_filter]
    rfl
  constructor
  · rintro ⟨hspaced, hdaily⟩
    refine ⟨?_, ?_⟩
    · intro x hx y hy
      exact hspaced x.issue (List.mem_map_of_mem hx) y.issue (List.mem_map_of_mem hy)
    · intro contextId memberId start
      rw [← hcount]
      exact hdaily contextId memberId start
  · rintro ⟨hspaced, hdaily⟩
    refine ⟨?_, ?_⟩
    · intro x hx y hy
      obtain ⟨x', hx', rfl⟩ := List.mem_map.mp hx
      obtain ⟨y', hy', rfl⟩ := List.mem_map.mp hy
      exact hspaced x' hx' y' hy'
    · intro contextId memberId start
      exact (hcount contextId memberId start).trans_le (hdaily contextId memberId start)

/-- One more issue that keeps its limits. -/
theorem OrderlyIssues.add {xs : List Issue} {new : Issue} (hxs : OrderlyIssues xs)
    (hnew : Spaced (xs.filter fun x => x.isOf new.contextId new.memberId) new.createdAt) :
    OrderlyIssues (xs ++ [new]) := by
  have hgap : ∀ x ∈ xs, x.isOf new.contextId new.memberId →
      x.createdAt + invitationMinGapMs ≤ new.createdAt :=
    fun x hx hof => hnew.gap x (List.mem_filter.mpr ⟨hx, decide_eq_true hof⟩)
  refine ⟨?_, ?_⟩
  · intro x hx y hy hof hid
    rcases List.mem_append.mp hx with hold | hlast
    · rcases List.mem_append.mp hy with hold' | hlast'
      · exact hxs.spaced x hold y hold' hof hid
      · obtain rfl := List.mem_singleton.mp hlast'
        exact .inl (hgap x hold ⟨hof.1.symm, hof.2.symm⟩)
    · obtain rfl := List.mem_singleton.mp hlast
      rcases List.mem_append.mp hy with hold' | hlast'
      · exact .inr (hgap y hold' hof)
      · obtain rfl := List.mem_singleton.mp hlast'
        exact absurd rfl hid
  · intro contextId memberId start
    rw [List.filter_append, List.countP_append]
    by_cases hof : new.isOf contextId memberId
    · obtain ⟨rfl, rfl⟩ := hof
      have hone : [new].filter (fun x => x.isOf new.contextId new.memberId) = [new] :=
        List.filter_cons_of_pos (decide_eq_true ⟨rfl, rfl⟩)
      rw [hone, List.countP_singleton]
      split
      · -- the others of the window are less than a day before the new one
        rename_i hin
        obtain ⟨hstart, hend⟩ := of_decide_eq_true hin
        have hday := hnew.day
        rw [← List.countP_eq_length_filter] at hday
        have hmono := List.countP_mono_left
          (l := xs.filter fun x => x.isOf new.contextId new.memberId)
          (p := fun x => decide (start ≤ x.createdAt ∧ x.createdAt < start + dayMs))
          (q := fun x => decide (new.createdAt - x.createdAt < dayMs)) (by
            intro x _ hx
            obtain ⟨hle, -⟩ := of_decide_eq_true hx
            refine decide_eq_true ?_
            have hlt : new.createdAt < x.createdAt + dayMs :=
              Int.lt_of_lt_of_le hend (Int.add_le_add_right hle _)
            exact Int.sub_left_lt_of_lt_add hlt)
        omega
      · exact hxs.daily _ _ start
    · rw [List.filter_cons_of_neg (by simpa using hof), List.filter_nil, List.countP_nil]
      exact hxs.daily contextId memberId start

/-! One commit. -/

theorem Commits.orderlyIssues (hc : Commits host d₀ reqs h c)
    (ho : OrderlyIssues (replay (S := invitations) d₀ h).issues) :
    OrderlyIssues (replay (S := invitations) d₀ (h ++ [.commit c])).issues := by
  have hi := hc.issues
  generalize (replay (S := invitations) d₀ (h ++ [.commit c])).issues = xs at hi ⊢
  cases hi with
  | same => exact ho
  | issued _ _ _ hspaced _ => exact ho.add hspaced

theorem Commits.one_live (hc : Commits host d₀ reqs h c)
    (ho : ∀ x ∈ (replay (S := invitations) d₀ h).invitations.rows,
      ∀ y ∈ (replay (S := invitations) d₀ h).invitations.rows, x.samePerson y → x.unspent →
      y.unspent → x = y) :
    ∀ x ∈ (replay (S := invitations) d₀ (h ++ [.commit c])).invitations.rows,
      ∀ y ∈ (replay (S := invitations) d₀ (h ++ [.commit c])).invitations.rows, x.samePerson y →
      x.unspent → y.unspent → x = y := by
  -- a new link replaces the others of its person
  have hreplaced : ∀ {env actor memberId rawEmail email k z z'},
      reqs[c.pid]? = some (.invite env actor memberId rawEmail) →
      (∀ k x, (replay (S := invitations) d₀ h).invitations.find? k = some x →
        x.isOf actor.contextId (uuid memberId) → x.unspent → .supersede k (env.now 0) ∈ c.writes) →
      (newInvitation host env actor memberId email).samePerson z →
      (replay (S := invitations) d₀ h).invitations.find? k = some z' →
      Turn host reqs (replay (S := invitations) d₀ h) c k (some z') z → ¬ z.unspent := by
    intro env actor memberId rawEmail email k z z' hreq hothers hperson hz' hturn hz
    have hunspent := hturn.unspent hz
    have hof : z'.isOf actor.contextId (uuid memberId) :=
      ⟨(congrArg Issue.contextId hturn.issue_eq).symm.trans hperson.1,
        (congrArg Issue.memberId hturn.issue_eq).symm.trans hperson.2⟩
    have hw := hothers k z' hz' hof hunspent
    cases hturn with
    | stay hno => exact hno _ hw rfl
    | supersede _ _ => cases hz.2
    | use _ _ _ => cases hz.1
  intro x hx y hy hperson hxu hyu
  have hx := Table.find?_of_mem hx
  have hy := Table.find?_of_mem hy
  have htx := hc.turn hx
  have hty := hc.turn hy
  generalize hbx : (replay (S := invitations) d₀ h).invitations.find? (Keyed.key x) = bx at htx
  generalize hby : (replay (S := invitations) d₀ h).invitations.find? (Keyed.key y) = by' at hty
  cases bx with
  | some x' =>
    cases by' with
    | some y' =>
      have hxy : x'.samePerson y' := by
        refine ⟨?_, ?_⟩
        · exact ((congrArg Issue.contextId hty.issue_eq).symm.trans hperson.1).trans
            (congrArg Issue.contextId htx.issue_eq)
        · exact ((congrArg Issue.memberId hty.issue_eq).symm.trans hperson.2).trans
            (congrArg Issue.memberId htx.issue_eq)
      have heq := ho x' (Table.mem_of_find? hbx) y' (Table.mem_of_find? hby) hxy (htx.unspent hxu)
        (hty.unspent hyu)
      have hkey : Keyed.key x = Keyed.key y := by
        rw [← Table.find?_key hbx, ← Table.find?_key hby, heq]
      rw [hkey] at hx
      exact Option.some.inj (hx.symm.trans hy)
    | none =>
      cases hty with
      | issue hreq _ _ hothers =>
        exact absurd hxu (hreplaced hreq hothers ⟨hperson.1.symm, hperson.2.symm⟩ hbx htx)
  | none =>
    cases htx with
    | issue hreq hw hid hothers =>
      cases by' with
      | some y' => exact absurd hyu (hreplaced hreq hothers hperson hby hty)
      | none =>
        cases hty with
        | issue hreq' hw' hid' _ =>
          cases hreq.symm.trans hreq'
          have hkey := hid.symm.trans hid'
          rw [hkey] at hx
          exact Option.some.inj (hx.symm.trans hy)

theorem Commits.one_account (hc : Commits host d₀ reqs h c)
    (ho : ∀ a ∈ (replay (S := invitations) d₀ h).accounts.rows,
      ∀ b ∈ (replay (S := invitations) d₀ h).accounts.rows, a.memberId.isSome →
      b.memberId = a.memberId → b = a) :
    ∀ a ∈ (replay (S := invitations) d₀ (h ++ [.commit c])).accounts.rows,
      ∀ b ∈ (replay (S := invitations) d₀ (h ++ [.commit c])).accounts.rows, a.memberId.isSome →
      b.memberId = a.memberId → b = a := by
  obtain ⟨r, -, hw⟩ := hc
  rw [replay_committed]
  rcases hw with hw | he
  · rw [hw]
    exact ho
  generalize c.writes = ws at he ⊢
  cases he with
  | @invited env actor memberId rawEmail email ids _ _ _ _ _ =>
    rw [applyAll_read_eq (S := invitations) Db.accounts (by
      intro w hw d
      rcases List.mem_append.mp hw with hw | hw
      · obtain ⟨k, -, rfl⟩ := List.mem_map.mp hw
        rfl
      · obtain rfl := List.mem_singleton.mp hw
        rfl)]
    exact ho
  | failed => exact ho
  | @accepted env token name inv _ _ _ _ _ hnone _ _ =>
    intro a ha b hb hsome heq
    have ha : a ∈ ((replay (S := invitations) d₀ h).accounts.put (acceptedAccount env inv)).rows := ha
    have hb : b ∈ ((replay (S := invitations) d₀ h).accounts.put (acceptedAccount env inv)).rows := hb
    rcases Table.mem_put.mp ha with rfl | ⟨ha, -⟩
    · rcases Table.mem_put.mp hb with rfl | ⟨hb, -⟩
      · rfl
      · exact absurd heq (hnone b hb)
    · rcases Table.mem_put.mp hb with rfl | ⟨hb, -⟩
      · exact absurd heq.symm (hnone a ha)
      · exact ho a ha b hb hsome heq

theorem Commits.orderly (hc : Commits host d₀ reqs h c)
    (ho : Orderly (replay (S := invitations) d₀ h)) :
    Orderly (replay (S := invitations) d₀ (h ++ [.commit c])) := by
  obtain ⟨hspaced, hdaily⟩ :=
    orderlyIssues_iff.mp (hc.orderlyIssues (orderlyIssues_iff.mpr ⟨ho.spaced, ho.daily⟩))
  exact ⟨hspaced, hdaily, hc.one_live ho.one_live, hc.one_account ho.one_account⟩

/-- What an acceptance found and left. -/
theorem Commits.accepts {env : Env} {token : String} (hc : Commits host d₀ reqs h c)
    (ha : Accepts reqs c env token id) :
    (∃ x, (replay (S := invitations) d₀ h).invitations.find? id = some x ∧ x.unspent ∧
        env.now 1 < x.expiresAt ∧ x.tokenHash = hashInvitationToken host token) ∧
      ∃ y, (replay (S := invitations) d₀ (h ++ [.commit c])).invitations.find? id = some y ∧
        ¬ y.unspent := by
  obtain ⟨hreq, hmem⟩ := ha
  obtain ⟨r, hreq', hw⟩ := hc
  cases hreq.symm.trans hreq'
  rw [replay_committed]
  rcases hw with hw | he
  · rw [hw] at hmem
    cases hmem
  generalize c.writes = ws at he hmem ⊢
  cases he with
  | @accepted env token name inv hinv hunspent hlive htoken _ _ _ _ =>
    obtain rfl : id = inv.id := by simpa using hmem
    refine ⟨⟨inv, hinv, hunspent, hlive, htoken⟩, used (env.now 1) (env.serverId 0) inv, ?_, ?_⟩
    · refine (Table.find?_modify (used_id _ _) inv.id).trans ?_
      rw [if_pos rfl]
      exact congrArg (Option.map _) hinv
    · rintro ⟨hused, -⟩
      cases hused

/-! Runs. -/

/-- Every run keeps the rules of each person's invitations. -/
theorem invitations_kept (host : Host) (d₀ : Db) (reqs : List Request)
    (s : Sys invitations Answer) (hd : Orderly d₀) (hr : Reachable host d₀ reqs s) :
    Kept host d₀ reqs s.hist := by
  have hl := hr.lawful
  refine ⟨?_, ?_, ?_, ?_⟩
  · intro g hg
    refine Lawful.induct (S := invitations) d₀ Orderly hd ?_ (hl.of_prefix hg)
    intro h₁ c _ ho _ hc
    have h := hc.orderly ho
    rwa [replay_committed] at h
  · intro g c n env token id he ha
    obtain ⟨⟨x, hx, ⟨hused, hsuperseded⟩, hlive, htoken⟩, -⟩ := (hl g c n he).2.accepts ha
    exact ⟨x, hx, hused, hsuperseded, hlive, htoken⟩
  · intro g c m c' n env env' token token' id he ha ha'
    obtain ⟨-, y, hy, hspent⟩ := (hl g c _ he).2.accepts ha
    have he' : s.hist = (g ++ [.commit c] ++ m) ++ .commit c' :: n := by
      rw [he]
      simp
    obtain ⟨⟨x, hx, hunspent, -⟩, -⟩ := (hl _ c' n he').2.accepts ha'
    have hlm : Lawful (Commits host d₀ reqs) (g ++ [.commit c] ++ m) := by
      rw [he'] at hl
      exact hl.left
    obtain ⟨z, hz, hzspent⟩ := Lawful.row_stays (P := fun x => ¬ x.unspent) hlm ⟨y, hy, hspent⟩
      fun c d x y _ hturn hno hy => hno (hturn.unspent hy)
    cases hx.symm.trans hz
    exact hzspent hunspent
  · intro g c n w he hw haccepting
    obtain ⟨r, -, hw' | heffect⟩ := (hl g c n he).2
    · rw [hw'] at hw
      cases hw
    generalize c.writes = ws at heffect hw
    cases heffect with
    | invited _ _ _ _ _ =>
      rcases List.mem_append.mp hw with hw | hw
      · obtain ⟨k, -, rfl⟩ := List.mem_map.mp hw
        cases haccepting
      · obtain rfl := List.mem_singleton.mp hw
        cases haccepting
    | failed =>
      obtain rfl := List.mem_singleton.mp hw
      cases haccepting
    | accepted hinv _ _ _ _ _ _ _ => exact ⟨_, _, _, _, rfl, hinv, rfl, rfl, rfl, rfl⟩

/-- An invitation, and its link opened. -/
def Demo.invitedThenOpened : List Request :=
  [.invite (Demo.env 1 0) Demo.ana "luis" "luis@bazar.mx", .accept (Demo.env 2 60) "x"]

theorem Demo.bazar_orderly : Orderly Demo.bazar := by
  refine ⟨?_, ?_, ?_, ?_⟩
  · intro x hx
    cases hx
  · exact fun _ _ _ => Nat.zero_le _
  · intro x hx
    cases hx
  · intro a ha b hb _ _
    rw [List.mem_singleton.mp ha, List.mem_singleton.mp hb]

theorem invitations_kept_opened :
    Kept Demo.host Demo.bazar Demo.invitedThenOpened
      (Demo.run Demo.bazar Demo.invitedThenOpened
        (List.replicate 12 0 ++ List.replicate 13 1)).hist :=
  invitations_kept Demo.host _ _ _ Demo.bazar_orderly (Demo.reachable (by decide))

end Bazar.Invitations
