import BazarApi.Invitations.Limits

/- How many people a socio invites for the first time in a day. The limit is checked over
   the invitations of many people while only the row of the person invited is locked, so two
   requests of one socio may both pass with the same count. The limit holds in the runs in
   which nobody invites for the first time between the statement that counts for the same
   socio and its commit. -/
namespace Bazar.Invitations

open Txn Team Registration

variable {host : Host} {d₀ d : Db} {reqs : List Request} {h : History invitations}
variable {c : Commit invitations} {contextId : String} {inviterId : Uuid}
variable {xs ys : List Issue} {x y new : Issue} {start since : Instant}

/-! First invitations. -/

/-- The invitation is the first one of its person. -/
def Issue.isFirst (xs : List Issue) (x : Issue) : Prop :=
  ∀ y ∈ xs, y.isOf x.contextId x.memberId → x.createdAt ≤ y.createdAt

instance (xs : List Issue) (x : Issue) : Decidable (x.isFirst xs) := by
  unfold Issue.isFirst
  infer_instance

/-- The invitations by which a socio invited somebody for the first time. -/
def firstsBy (xs : List Issue) (contextId : String) (inviterId : Uuid) : List Issue :=
  xs.filter fun x => x.isFirst xs ∧ x.contextId = contextId ∧ x.invitedByMemberId = inviterId

/-- A socio invites few people for the first time in 24 hours, both ends included. -/
def DailyNew (d : Db) : Prop :=
  ∀ contextId inviterId start, ((firstsBy d.issues contextId inviterId).countP fun x =>
    start ≤ x.createdAt ∧ x.createdAt ≤ start + dayMs) ≤ invitationMaxNewPerDay

/-- The commit, after history `g`, is by this socio the first invitation of somebody. -/
def FirstInvite (d₀ : Db) (g : History invitations) (c : Commit invitations) (contextId : String)
    (inviterId : Uuid) : Prop :=
  ∃ row, .insertInvitation row ∈ c.writes ∧ row.contextId = contextId ∧
    row.invitedByMemberId = inviterId ∧
    ∀ x ∈ (replay (S := invitations) d₀ g).issues, ¬ x.isOf row.contextId row.memberId

/-- No first invitation of a socio commits while another one of the same socio is between
its reading of the socio's recent invitations and its commit. -/
def OneAtATime (d₀ : Db) (H : History invitations) : Prop :=
  ∀ a b n m m' c c' contextId inviterId since,
    H = (a ++ .exec c.pid (.invitationsBy contextId inviterId since) :: b) ++ .commit c :: n →
    FirstInvite d₀ (a ++ .exec c.pid (.invitationsBy contextId inviterId since) :: b) c contextId
      inviterId →
    b = m ++ .commit c' :: m' →
    ¬ FirstInvite d₀ (a ++ .exec c.pid (.invitationsBy contextId inviterId since) :: m) c'
      contextId inviterId

/-! One more issue. -/

/-- One more invitation of somebody leaves the first ones as they are. -/
theorem firstsBy_add_again (hlater : ∀ x ∈ xs, x.isOf new.contextId new.memberId →
      x.createdAt < new.createdAt)
    (hagain : ∃ x ∈ xs, x.isOf new.contextId new.memberId) :
    firstsBy (xs ++ [new]) contextId inviterId = firstsBy xs contextId inviterId := by
  unfold firstsBy
  have hnew : ¬ new.isFirst (xs ++ [new]) := by
    intro hfirst
    obtain ⟨x, hx, hof⟩ := hagain
    exact absurd (hlater x hx hof) (Int.not_lt.mpr (hfirst x (List.mem_append_left _ hx) hof))
  rw [List.filter_append, List.filter_cons_of_neg (by simp [hnew]), List.filter_nil,
    List.append_nil]
  refine List.filter_congr ?_
  intro x hx
  have hiff : x.isFirst (xs ++ [new]) ↔ x.isFirst xs := by
    constructor
    · exact fun hf y hy => hf y (List.mem_append_left _ hy)
    · intro hf y hy hof
      rcases List.mem_append.mp hy with hy | hy
      · exact hf y hy hof
      · obtain rfl := List.mem_singleton.mp hy
        exact Int.le_of_lt (hlater x hx ⟨hof.1.symm, hof.2.symm⟩)
  simp only [hiff]

/-- The first invitation of somebody is one more of its inviter. -/
theorem firstsBy_add_new (hnew : ∀ x ∈ xs, ¬ x.isOf new.contextId new.memberId) :
    firstsBy (xs ++ [new]) contextId inviterId = firstsBy xs contextId inviterId ++
      if new.contextId = contextId ∧ new.invitedByMemberId = inviterId then [new] else [] := by
  unfold firstsBy
  have hfirst : new.isFirst (xs ++ [new]) := by
    intro y hy hof
    rcases List.mem_append.mp hy with hy | hy
    · exact absurd hof (hnew y hy)
    · rw [List.mem_singleton.mp hy]
  have hold : ∀ x ∈ xs, x.isFirst (xs ++ [new]) ↔ x.isFirst xs := by
    intro x hx
    constructor
    · exact fun hf y hy => hf y (List.mem_append_left _ hy)
    · intro hf y hy hof
      rcases List.mem_append.mp hy with hy | hy
      · exact hf y hy hof
      · obtain rfl := List.mem_singleton.mp hy
        exact absurd ⟨hof.1.symm, hof.2.symm⟩ (hnew x hx)
  rw [List.filter_append]
  congr 1
  · refine List.filter_congr ?_
    intro x hx
    simp only [hold x hx]
  · split
    · rename_i hby
      exact List.filter_cons_of_pos (decide_eq_true ⟨hfirst, hby⟩)
    · rename_i hby
      exact List.filter_cons_of_neg fun hx => hby (of_decide_eq_true hx).2

/-! What the limit counted. -/

/-- In a list in the order of creation, who comes before the others of its person is kept. -/
theorem mem_firsts {xs : List AccountInvitation} {x : AccountInvitation}
    (hs : xs.Pairwise fun x y => x.createdAt ≤ y.createdAt) (hx : x ∈ xs)
    (hfirst : ∀ y ∈ xs, y.memberId = x.memberId → y ≠ x → x.createdAt < y.createdAt) :
    x ∈ firsts xs := by
  induction xs with
  | nil => cases hx
  | cons z rest ih =>
    by_cases hz : z = x
    · rw [hz]
      exact List.mem_cons_self
    obtain ⟨hle, hs⟩ := List.pairwise_cons.mp hs
    have hx : x ∈ rest := by
      rcases List.mem_cons.mp hx with rfl | hx
      · exact absurd rfl hz
      · exact hx
    refine List.mem_cons_of_mem _ (List.mem_filter.mpr ⟨?_, decide_eq_true ?_⟩)
    · exact ih hs hx fun y hy => hfirst y (List.mem_cons_of_mem _ hy)
    · intro heq
      exact absurd (hfirst z List.mem_cons_self heq.symm hz) (Int.not_lt.mpr (hle x hx))

/-- The rows of a person, apart in time, are told apart by it. -/
theorem OrderlyIssues.eq_of_createdAt (ho : OrderlyIssues xs) (hx : x ∈ xs) (hy : y ∈ xs)
    (hof : y.isOf x.contextId x.memberId) (he : x.createdAt = y.createdAt) : x.id = y.id := by
  by_contra hne
  have hgap : (0 : Int) < invitationMinGapMs := by decide
  have hx' : x.createdAt < x.createdAt + invitationMinGapMs := Int.lt_add_of_pos_right _ hgap
  rcases ho.spaced x hx y hy hof hne with hle | hle
  · exact absurd (Int.lt_of_lt_of_le hx' hle) (by rw [he]; exact Int.lt_irrefl _)
  · rw [← he] at hle
    exact absurd (Int.lt_of_lt_of_le hx' hle) (Int.lt_irrefl _)

theorem OrderlyIssues.of_prefix (ho : OrderlyIssues ys) (hp : xs <+: ys) : OrderlyIssues xs := by
  refine ⟨fun x hx y hy => ho.spaced x (hp.subset hx) y (hp.subset hy), ?_⟩
  intro contextId memberId start
  exact (hp.sublist.filter _).countP_le.trans (ho.daily contextId memberId start)

theorem issues_ids_nodup (d : Db) : (d.issues.map Issue.id).Nodup := by
  have hn := d.invitations.nodup
  unfold Db.issues
  rw [List.map_map]
  exact hn

theorem mem_issues_id (hx : x ∈ d.issues) (hy : y ∈ d.issues) (he : x.id = y.id) : x = y :=
  List.inj_on_of_nodup_map (issues_ids_nodup d) hx hy he

/-- The people a socio invited for the first time, by what was there at `a`, are among
those the limit counts with the invitations that are there later. -/
theorem count_le_newPeople {a a' : Db} (contextId : String) (inviterId : Uuid) (since : Instant)
    (ho : OrderlyIssues a'.issues) (hp : a.issues <+: a'.issues)
    (hfirst : ∀ x ∈ a.issues, x.isFirst a.issues → x.isFirst a'.issues) :
    ((firstsBy a.issues contextId inviterId).countP fun x => since ≤ x.createdAt) ≤
      newPeople (a'.invitationsOfAll contextId
        ((a.invitationsBy contextId inviterId since).map fun x => x.memberId)) inviterId since := by
  rw [List.countP_eq_length_filter]
  unfold newPeople
  have hmem : ∀ {x : Issue}, x ∈ ((firstsBy a.issues contextId inviterId).filter fun x =>
      since ≤ x.createdAt) → x ∈ a.issues ∧ x.isFirst a'.issues ∧ x.contextId = contextId ∧
        x.invitedByMemberId = inviterId ∧ since ≤ x.createdAt := by
    intro x hx
    obtain ⟨hx, hsince⟩ := List.mem_filter.mp hx
    obtain ⟨hx, hby⟩ := List.mem_filter.mp hx
    obtain ⟨hf, hctx, hinv⟩ := of_decide_eq_true hby
    exact ⟨hx, hfirst x hx hf, hctx, hinv, of_decide_eq_true hsince⟩
  -- each person counted once on the left is counted on the right
  have hnodup : (((firstsBy a.issues contextId inviterId).filter fun x =>
      since ≤ x.createdAt).map Issue.memberId).Nodup := by
    refine List.Nodup.map_on ?_ (((List.Nodup.of_map _ (issues_ids_nodup a)).filter _).filter _)
    intro x hx y hy he
    obtain ⟨hxa, hxf, hxc, -, -⟩ := hmem hx
    obtain ⟨hya, hyf, hyc, -, -⟩ := hmem hy
    refine mem_issues_id hxa hya (ho.eq_of_createdAt (hp.subset hxa) (hp.subset hya)
      ⟨hyc.trans hxc.symm, he.symm⟩ ?_)
    exact Int.le_antisymm (hxf y (hp.subset hya) ⟨hyc.trans hxc.symm, he.symm⟩)
      (hyf x (hp.subset hxa) ⟨hxc.trans hyc.symm, he⟩)
  have hsub : ((firstsBy a.issues contextId inviterId).filter fun x =>
      since ≤ x.createdAt).map Issue.memberId ⊆
        ((firsts (a'.invitationsOfAll contextId
          ((a.invitationsBy contextId inviterId since).map fun x => x.memberId))).filter fun x =>
          x.invitedByMemberId = inviterId ∧ since ≤ x.createdAt).map fun x => x.memberId := by
    intro k hk
    obtain ⟨x, hx, rfl⟩ := List.mem_map.mp hk
    obtain ⟨hxa, hxf, hxc, hxi, hxs⟩ := hmem hx
    obtain ⟨r, hr, hrx⟩ := List.mem_map.mp (hp.subset hxa)
    obtain ⟨o, hoa, hox⟩ := List.mem_map.mp hxa
    subst hrx
    have horder : ((a'.invitations.rows.filter fun x => x.contextId = contextId ∧
        x.memberId ∈ (a.invitationsBy contextId inviterId since).map fun x => x.memberId).insertionSort
          fun x y => x.createdAt ≤ y.createdAt).Pairwise fun x y => x.createdAt ≤ y.createdAt := by
      have htotal : Std.Total fun x y : AccountInvitation => x.createdAt ≤ y.createdAt :=
        ⟨fun x y => Int.le_total x.createdAt y.createdAt⟩
      have htrans : IsTrans AccountInvitation fun x y => x.createdAt ≤ y.createdAt :=
        ⟨fun x y z hxy hyz => Int.le_trans hxy hyz⟩
      exact List.pairwise_insertionSort _ _
    refine List.mem_map.mpr ⟨r, List.mem_filter.mpr ⟨mem_firsts horder ?_ ?_,
      decide_eq_true ⟨hxi, hxs⟩⟩, rfl⟩
    · refine (List.mem_insertionSort _).mpr (List.mem_filter.mpr ⟨hr, decide_eq_true ⟨hxc, ?_⟩⟩)
      refine List.mem_map.mpr ⟨o, List.mem_filter.mpr ⟨hoa, decide_eq_true ?_⟩, ?_⟩
      · exact ⟨(congrArg Issue.contextId hox).trans hxc,
          (congrArg Issue.invitedByMemberId hox).trans hxi,
          hxs.trans_eq (congrArg Issue.createdAt hox).symm⟩
      · exact congrArg Issue.memberId hox
    · intro s hs heq hne
      obtain ⟨hs, hsc⟩ := List.mem_filter.mp ((List.mem_insertionSort _).mp hs)
      obtain ⟨hsc, -⟩ := of_decide_eq_true hsc
      have hof : s.issue.isOf r.issue.contextId r.issue.memberId := ⟨hsc.trans hxc.symm, heq⟩
      refine lt_of_le_of_ne (hxf s.issue (List.mem_map_of_mem hs) hof) ?_
      intro he
      refine hne (Table.eq_of_key hs hr ?_)
      exact (ho.eq_of_createdAt (List.mem_map_of_mem hr) (List.mem_map_of_mem hs) hof he).symm
  have hle := (List.subperm_of_subset hnodup hsub).length_le
  rwa [List.length_map, List.length_map] at hle

/-! One commit. -/

/-- A new invitation is later than the others of its person. -/
theorem Spaced.later {now : Instant} (hs : Spaced (xs.filter fun x => x.isOf contextId inviterId) now)
    (hx : x ∈ xs) (hof : x.isOf contextId inviterId) : x.createdAt < now := by
  have hgap : (0 : Int) < invitationMinGapMs := by decide
  exact Int.lt_of_lt_of_le (Int.lt_add_of_pos_right _ hgap)
    (hs.gap x (List.mem_filter.mpr ⟨hx, decide_eq_true hof⟩))

theorem Commits.first_stays (hc : Commits host d₀ reqs h c)
    (hx : x ∈ (replay (S := invitations) d₀ h).issues)
    (hf : x.isFirst (replay (S := invitations) d₀ h).issues) :
    x.isFirst (replay (S := invitations) d₀ (h ++ [.commit c])).issues := by
  have hi := hc.issues
  generalize (replay (S := invitations) d₀ (h ++ [.commit c])).issues = ys at hi ⊢
  cases hi with
  | same => exact hf
  | issued _ _ _ hspaced _ =>
    intro y hy hof
    rcases List.mem_append.mp hy with hy | hy
    · exact hf y hy hof
    · obtain rfl := List.mem_singleton.mp hy
      exact Int.le_of_lt (hspaced.later hx ⟨hof.1.symm, hof.2.symm⟩)

theorem Lawful.first_stays {n : History invitations} (hl : Lawful (Commits host d₀ reqs) (h ++ n))
    (hx : x ∈ (replay (S := invitations) d₀ h).issues)
    (hf : x.isFirst (replay (S := invitations) d₀ h).issues) :
    x.isFirst (replay (S := invitations) d₀ (h ++ n)).issues := by
  induction n using List.reverseRecOn with
  | nil => rwa [List.append_nil]
  | append_singleton n e ih =>
    rw [← List.append_assoc] at hl ⊢
    have ih := ih hl.left
    cases e with
    | exec j q =>
      rw [replay_sent]
      exact ih
    | commit c =>
      exact (hl (h ++ n) c [] rfl).2.first_stays ((Lawful.issues_grow hl.left).subset hx) ih

theorem Commits.firstsBy_eq (hc : Commits host d₀ reqs h c)
    (hno : ¬ FirstInvite d₀ h c contextId inviterId) :
    firstsBy (replay (S := invitations) d₀ (h ++ [.commit c])).issues contextId inviterId =
      firstsBy (replay (S := invitations) d₀ h).issues contextId inviterId := by
  have hi := hc.issues
  generalize (replay (S := invitations) d₀ (h ++ [.commit c])).issues = ys at hi ⊢
  cases hi with
  | same => rfl
  | @issued env actor memberId rawEmail email hreq hw hlock hspaced hlimit =>
    by_cases hagain : ∃ x ∈ (replay (S := invitations) d₀ h).issues,
        x.isOf actor.contextId (uuid memberId)
    · exact firstsBy_add_again (fun x hx hof => hspaced.later hx hof) hagain
    · push Not at hagain
      rw [firstsBy_add_new hagain, if_neg, List.append_nil]
      rintro ⟨hctx, hby⟩
      exact hno ⟨_, hw, hctx, hby, hagain⟩

/-- What a socio invited for the first time, while the socio invites nobody new. -/
theorem Lawful.firstsBy_eq {n : History invitations} (hl : Lawful (Commits host d₀ reqs) (h ++ n))
    (hno : ∀ m c m', n = m ++ .commit c :: m' → ¬ FirstInvite d₀ (h ++ m) c contextId inviterId) :
    firstsBy (replay (S := invitations) d₀ (h ++ n)).issues contextId inviterId =
      firstsBy (replay (S := invitations) d₀ h).issues contextId inviterId := by
  induction n using List.reverseRecOn with
  | nil => rw [List.append_nil]
  | append_singleton n e ih =>
    rw [← List.append_assoc] at hl ⊢
    have ih := ih hl.left fun m c m' hn => hno m c (m' ++ [e]) (by rw [hn]; simp)
    cases e with
    | exec j q =>
      rw [replay_sent]
      exact ih
    | commit c => exact ((hl (h ++ n) c [] rfl).2.firstsBy_eq (hno n c [] rfl)).trans ih

theorem Commits.dailyNew (hc : Commits host d₀ reqs h c) (hl : Lawful (Commits host d₀ reqs) h)
    (ho : OrderlyIssues (replay (S := invitations) d₀ h).issues)
    (hd : DailyNew (replay (S := invitations) d₀ h))
    (halone : OneAtATime d₀ (h ++ [.commit c])) :
    DailyNew (replay (S := invitations) d₀ (h ++ [.commit c])) := by
  intro contextId inviterId start
  by_cases hfirst : FirstInvite d₀ h c contextId inviterId
  swap
  · rw [hc.firstsBy_eq hfirst]
    exact hd contextId inviterId start
  have hi := hc.issues
  generalize (replay (S := invitations) d₀ (h ++ [.commit c])).issues = ys at hi ⊢
  cases hi with
  | same => exact hd contextId inviterId start
  | @issued env actor memberId rawEmail email hreq hw hlock hspaced hlimit =>
    by_cases hagain : ∃ x ∈ (replay (S := invitations) d₀ h).issues,
        x.isOf actor.contextId (uuid memberId)
    · rw [firstsBy_add_again (fun x hx hof => hspaced.later hx hof) hagain]
      exact hd contextId inviterId start
    · rcases hlimit with hlimit | ⟨a, a', b, he, ha, ha', hbelow⟩
      · exact absurd hlimit hagain
      push Not at hagain
      rw [firstsBy_add_new hagain, List.countP_append]
      split
      swap
      · exact hd contextId inviterId start
      rename_i hby
      obtain ⟨rfl, rfl⟩ : actor.contextId = contextId ∧ uuid actor.selectedMemberId = inviterId := hby
      rw [List.countP_singleton]
      split
      swap
      · exact hd _ _ start
      -- the window begins at most a day before the new invitation
      rename_i hin
      obtain ⟨hstart, hend⟩ := of_decide_eq_true hin
      have hsince : env.now 0 - dayMs ≤ start := Int.sub_right_le_of_le_add hend
      have hmono := List.countP_mono_left
        (l := firstsBy (replay (S := invitations) d₀ h).issues actor.contextId
          (uuid actor.selectedMemberId))
        (p := fun x => decide (start ≤ x.createdAt ∧ x.createdAt ≤ start + dayMs))
        (q := fun x => decide (env.now 0 - dayMs ≤ x.createdAt)) (by
          intro x _ hx
          exact decide_eq_true (Int.le_trans hsince (of_decide_eq_true hx).1))
      have hsame : firstsBy (replay (S := invitations) d₀ h).issues actor.contextId
          (uuid actor.selectedMemberId) =
          firstsBy (replay (S := invitations) d₀ a).issues actor.contextId
            (uuid actor.selectedMemberId) := by
        subst he
        refine Lawful.firstsBy_eq (n := .exec c.pid _ :: b) hl ?_
        intro m c' m' hm
        cases m with
        | nil => cases hm
        | cons e m =>
          obtain ⟨rfl, hb⟩ := List.cons.inj hm
          exact halone a b [] m m' c c' _ _ _ rfl hfirst hb
      have hl' : Lawful (Commits host d₀ reqs) a' := hl.of_prefix ha'
      obtain ⟨k, rfl⟩ := ha
      obtain ⟨k', hk'⟩ := ha'
      have ho' : OrderlyIssues (replay (S := invitations) d₀ (a ++ k)).issues := by
        have hp : (replay (S := invitations) d₀ (a ++ k)).issues <+:
            (replay (S := invitations) d₀ h).issues := by
          rw [← hk'] at hl ⊢
          exact Lawful.issues_grow hl
        exact ho.of_prefix hp
      have hcount := count_le_newPeople actor.contextId (uuid actor.selectedMemberId)
        (env.now 0 - dayMs) ho'
        (Lawful.issues_grow hl') (fun x hx hf => Lawful.first_stays hl' hx hf)
      rw [← hsame] at hcount
      omega

/-! Runs. -/

/-- In every run in which first invitations of one socio do not overlap, each socio invites
at most ten people for the first time in a day. -/
theorem daily_new_of_one_at_a_time (host : Host) (d₀ : Db) (reqs : List Request)
    (s : Sys invitations Answer) (hd : Orderly d₀) (hn : DailyNew d₀)
    (hr : Reachable host d₀ reqs s) (halone : OneAtATime d₀ s.hist) :
    ∀ g, g <+: s.hist → DailyNew (replay (S := invitations) d₀ g) := by
  intro g hg
  have hl := hr.lawful.of_prefix hg
  induction g using List.reverseRecOn with
  | nil => exact hn
  | append_singleton g e ih =>
    have ih := ih ((List.prefix_append g [e]).trans hg) hl.left
    cases e with
    | exec j q =>
      rw [replay_sent]
      exact ih
    | commit c =>
      refine (hl g c [] rfl).2.dailyNew hl.left ?_ ih ?_
      · refine Lawful.induct (S := invitations) d₀ (fun d => OrderlyIssues d.issues)
          (orderlyIssues_iff.mpr ⟨hd.spaced, hd.daily⟩) ?_ hl.left
        intro h₁ c _ ho _ hc
        have h := hc.orderlyIssues ho
        rwa [replay_committed] at h
      · obtain ⟨k, hk⟩ := hg
        intro a b n m m' c c' contextId inviterId since he
        refine halone a b (n ++ k) m m' c c' contextId inviterId since ?_
        rw [← hk, he]
        simp

/-- The requests whose commits add invitations. -/
def issuers (H : History invitations) : List Nat :=
  H.filterMap fun e => match e with
    | .exec _ _ => none
    | .commit c => if c.writes.any fun w => match w with
        | .insertInvitation _ => true
        | _ => false
      then some c.pid else none

/-- After a request counts, only the next invitation may be its own. -/
def inTurn : History invitations → Bool
  | [] => true
  | .exec i (.invitationsBy _ _ _) :: H => i ∉ (issuers H).tail && inTurn H
  | _ :: H => inTurn H

theorem inTurn_append : ∀ {a b : History invitations}, inTurn (a ++ b) = true → inTurn b = true
  | [], _, h => h
  | e :: a, b, h => by
    refine inTurn_append (a := a) ?_
    rw [List.cons_append] at h
    unfold inTurn at h
    split at h
    · contradiction
    · rename_i he
      cases he
      exact (Bool.and_eq_true_iff.mp h).2
    · rename_i he
      cases he
      exact h

theorem oneAtATime_of_inTurn {H : History invitations} (h : inTurn H = true) :
    OneAtATime d₀ H := by
  rintro a b n m m' c c' contextId inviterId since rfl ⟨row, hrow, -⟩ rfl ⟨row', hrow', -⟩
  rw [List.append_assoc] at h
  have hturn := inTurn_append h
  rw [List.cons_append, inTurn, Bool.and_eq_true] at hturn
  refine of_decide_eq_true hturn.1 ?_
  have hissues : ∀ {c : Commit invitations} {row}, .insertInvitation row ∈ c.writes →
      ∀ H, issuers (.commit c :: H) = c.pid :: issuers H := by
    intro c row hrow H
    refine List.filterMap_cons_some (if_pos ?_)
    exact List.any_eq_true.mpr ⟨_, hrow, rfl⟩
  have happ : ∀ H H', issuers (H ++ H') = issuers H ++ issuers H' :=
    fun H H' => List.filterMap_append
  rw [List.append_assoc, happ, List.cons_append, hissues hrow', happ, hissues hrow]
  -- two invitations follow, so that the second is in the tail
  cases issuers m with
  | nil => simp
  | cons j js => simp

/-- Ana invites eleven people. -/
def Demo.people : List String :=
  ["a", "b", "c", "d", "e", "f", "g", "h", "i", "j", "k"]

def Demo.large : Db :=
  { members := ⟨[Demo.socio "ana", Demo.socio "a", Demo.socio "b", Demo.socio "c", Demo.socio "d",
      Demo.socio "e", Demo.socio "f", Demo.socio "g", Demo.socio "h", Demo.socio "i",
      Demo.socio "j", Demo.socio "k"], by decide⟩
    accounts := Demo.logins, devices := .empty, invitations := .empty }

def Demo.invitedAtOnce : List Request :=
  (List.range 11).map fun k =>
    .invite (Demo.env (k + 1) 0) Demo.ana (Demo.people.getD k "") (Demo.people.getD k "" ++ "@bazar.mx")

theorem Demo.large_orderly : Orderly Demo.large := by
  refine ⟨?_, ?_, ?_, ?_⟩
  · intro x hx
    cases hx
  · exact fun _ _ _ => Nat.zero_le _
  · intro x hx
    cases hx
  · intro a ha b hb _ _
    rw [List.mem_singleton.mp ha, List.mem_singleton.mp hb]

def Demo.invitedInTurnSteps : List Nat :=
  List.replicate 12 0 ++ (List.range 9).flatMap fun k => List.replicate 13 (k + 1)

/-- Ten of them in turn. -/
theorem daily_new_of_one_at_a_time_in_turn :
    ((firstsBy (replay (S := invitations) Demo.large (Demo.run Demo.large Demo.invitedAtOnce
        Demo.invitedInTurnSteps).hist).issues "bazar" ⟨"ana"⟩).countP fun x =>
          0 ≤ x.createdAt ∧ x.createdAt ≤ 0 + dayMs) = 10 ∧
      DailyNew (replay (S := invitations) Demo.large (Demo.run Demo.large Demo.invitedAtOnce
        Demo.invitedInTurnSteps).hist) := by
  refine ⟨by decide +kernel, daily_new_of_one_at_a_time Demo.host _ _ _ Demo.large_orderly ?_
    (Demo.reachable (by decide +kernel)) (oneAtATime_of_inTurn (by decide +kernel)) _
    List.prefix_rfl⟩
  exact fun _ _ _ => Nat.zero_le _

/-- The last two at once. -/
def Demo.invitedAtOnceSteps : List Nat :=
  List.replicate 12 0 ++ (List.range 8).flatMap (fun k => List.replicate 13 (k + 1)) ++
    List.replicate 8 9 ++ List.replicate 13 10 ++ List.replicate 5 9

/-- Both counted nine. -/
theorem daily_new_at_once :
    Orderly Demo.large ∧ DailyNew Demo.large ∧
      Reachable Demo.host Demo.large Demo.invitedAtOnce
        (Demo.run Demo.large Demo.invitedAtOnce Demo.invitedAtOnceSteps) ∧
      ¬ DailyNew (replay (S := invitations) Demo.large
        (Demo.run Demo.large Demo.invitedAtOnce Demo.invitedAtOnceSteps).hist) := by
  refine ⟨Demo.large_orderly, ?_, Demo.reachable (by decide +kernel), ?_⟩
  · exact fun _ _ _ => Nat.zero_le _
  · intro hd
    have hcount : ((firstsBy (replay (S := invitations) Demo.large (Demo.run Demo.large
        Demo.invitedAtOnce Demo.invitedAtOnceSteps).hist).issues "bazar" ⟨"ana"⟩).countP fun x =>
          0 ≤ x.createdAt ∧ x.createdAt ≤ 0 + dayMs) = 11 := by decide +kernel
    have hle := hd "bazar" ⟨"ana"⟩ 0
    rw [hcount] at hle
    exact absurd hle (by decide)

end Bazar.Invitations
