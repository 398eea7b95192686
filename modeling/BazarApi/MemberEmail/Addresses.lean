import BazarApi.MemberEmail.Safe

/- A person's address is written once and proven. Only a confirmation writes one, to the
   person of its link and to nobody who has one; a person with an address has no link left
   and is given no other. -/
namespace Bazar.MemberEmail

open Txn Team Registration

variable {host : Host} {d₀ d : Db} {reqs : List Request} {h : History emails}
variable {c : Commit emails} {id : Uuid} {x y : MemberEmailConfirmation}

/-- No two people share an address, and no link is for none. -/
structure Sound (d : Db) : Prop where
  unique : ∀ a ∈ d.members.rows, ∀ b ∈ d.members.rows, a.correo.isSome → b.correo = a.correo → b = a
  links : ∀ x ∈ d.confirmations.rows, x.correo ≠ ""

/-- The commit confirmed the link. -/
def Confirms (reqs : List Request) (c : Commit emails) (env : Env) (token : String) (id : Uuid) :
    Prop :=
  reqs[c.pid]? = some (.confirm env token) ∧ .use id (env.now 0) ∈ c.writes

/-- The rules of the addresses over a run. -/
structure Kept (host : Host) (d₀ : Db) (reqs : List Request) (H : History emails) : Prop where
  once_set : ∀ g n k id m s, H = g ++ n ++ k →
    (replay (S := emails) d₀ g).members.find? id = some m → m.correo = some s →
    ∃ m', (replay (S := emails) d₀ (g ++ n)).members.find? id = some m' ∧ m'.correo = some s
  only : ∀ g c n id, H = g ++ .commit c :: n →
    (replay (S := emails) d₀ (g ++ [.commit c])).members.find? id ≠
      (replay (S := emails) d₀ g).members.find? id →
    ∃ env token x, Confirms reqs c env token x.id ∧
      (replay (S := emails) d₀ g).confirmations.find? x.id = some x ∧ x.memberId = id
  proven : ∀ g c n env token id, H = g ++ .commit c :: n → Confirms reqs c env token id →
    ∃ x m, (replay (S := emails) d₀ g).confirmations.find? id = some x ∧ x.usedAt = none ∧
      x.supersededAt = none ∧ env.now 0 < x.expiresAt ∧
      x.tokenHash = hashSingleUseToken host token ∧
      (replay (S := emails) d₀ g).members.find? x.memberId = some m ∧ m.correo = none ∧
      (replay (S := emails) d₀ (g ++ [.commit c])).members.find? x.memberId =
        some (withCorreo x.correo m)
  once : ∀ g c m c' n env env' token token' id,
    H = g ++ .commit c :: (m ++ .commit c' :: n) → Confirms reqs c env token id →
    ¬ Confirms reqs c' env' token' id
  settled : ∀ g c m n env token x, H = g ++ .commit c :: (m ++ n) →
    Confirms reqs c env token x.id →
    (replay (S := emails) d₀ g).confirmations.find? x.id = some x →
    ∀ y ∈ (replay (S := emails) d₀ (g ++ .commit c :: m)).confirmations.rows,
      y.isOf x.contextId x.memberId → ¬ y.unspent
  unique : ∀ g, g <+: H → ∀ a ∈ (replay (S := emails) d₀ g).members.rows,
    ∀ b ∈ (replay (S := emails) d₀ g).members.rows, a.correo.isSome → b.correo = a.correo → b = a

/-- `member_correo_taken` writes nothing and, for a person without an address, tells whether
somebody else has it. -/
def Probes (v : Db) : Prop :=
  ∀ id correo, ∃ taken, Sql.exec (.memberCorreoTaken id correo) v = .ok (taken, []) ∧
    ∀ m, v.members.find? id = some m → m.correo = none →
      (taken = true ↔ ∃ o ∈ v.members.rows, o.id ≠ id ∧ o.correo = some (lower correo))

theorem probes (v : Db) : Probes v := by
  intro id correo
  change ∃ taken, Except.ok (v.memberCorreoTaken id correo) = .ok (taken, []) ∧ _
  unfold Db.memberCorreoTaken updateCorreo
  cases hm : v.members.find? id with
  | none =>
    refine ⟨false, rfl, ?_⟩
    intro m hm'
    cases hm'
  | some m =>
    cases hcorreo : m.correo with
    | some s =>
      refine ⟨false, ?_, ?_⟩
      · rw [Option.filter_some, hcorreo]
        rfl
      · intro m' hm' hnone
        cases hm'
        rw [hcorreo] at hnone
        cases hnone
    | none =>
      have hfilter : (some m).filter (fun m => m.correo.isNone) = some m := by
        rw [Option.filter_some, hcorreo]
        rfl
      rw [hfilter]
      dsimp only
      by_cases htaken : (v.members.rows.any fun o => o.correo = some (lower correo)) = true
      · rw [if_pos htaken]
        refine ⟨true, rfl, ?_⟩
        intro m' hm' _
        obtain ⟨o, ho, he⟩ := List.any_eq_true.mp htaken
        have he := of_decide_eq_true he
        refine ⟨fun _ => ⟨o, ho, ?_, he⟩, fun _ => rfl⟩
        -- the person has none
        intro hid
        have hfind := Table.find?_of_mem ho
        rw [show Keyed.key o = id from hid, hm] at hfind
        cases hfind
        rw [hcorreo] at he
        cases he
      · rw [if_neg htaken]
        refine ⟨false, rfl, ?_⟩
        intro m' _ _
        constructor
        · intro hf
          cases hf
        · rintro ⟨o, ho, -, he⟩
          exact absurd (List.any_eq_true.mpr ⟨o, ho, decide_eq_true he⟩) htaken

/-! One commit. -/

/-- What a confirmation found and left. -/
theorem Commits.confirms {env : Env} {token : String} (hc : Commits host d₀ reqs h c)
    (hf : Confirms reqs c env token id) :
    ∃ x m, (replay (S := emails) d₀ h).confirmations.find? id = some x ∧ x.unspent ∧
      env.now 0 < x.expiresAt ∧ x.tokenHash = hashSingleUseToken host token ∧
      (replay (S := emails) d₀ h).members.find? x.memberId = some m ∧ m.correo = none ∧
      (∀ k y, (replay (S := emails) d₀ h).confirmations.find? k = some y →
        y.isOf x.contextId x.memberId → y.unspent → ∃ w ∈ c.writes, w.key = .confirmation k) ∧
      (replay (S := emails) d₀ (h ++ [.commit c])).members =
        (replay (S := emails) d₀ h).members.modify x.memberId (withCorreo x.correo) := by
  obtain ⟨hreq, hmem⟩ := hf
  obtain ⟨r, hreq', hw⟩ := hc
  cases hreq.symm.trans hreq'
  rw [replay_committed]
  rcases hw with hw | he
  · rw [hw] at hmem
    cases hmem
  generalize c.writes = ws at he hmem ⊢
  cases he with
  | @confirmed env token x m ids hx hunspent hlive htoken hslot hmember hnone hfree hapart hids =>
    obtain rfl : id = x.id := by simpa using hmem
    refine ⟨x, m, hx, hunspent, hlive, htoken, hmember, hnone, ?_, ?_⟩
    · intro k y hy hof hun
      by_cases hk : k = x.id
      · exact ⟨.use x.id (env.now 0), hmem, by rw [hk]; rfl⟩
      · exact ⟨.supersede k (env.now 0), List.mem_append_right _
          (List.mem_map.mpr ⟨k, hids k y hy hof hun hk, rfl⟩), rfl⟩
    · rw [applyAll_append, members_supersedeAll]
      rfl

theorem Commits.once_set {m : Member} {s : String} (hc : Commits host d₀ reqs h c)
    (hm : (replay (S := emails) d₀ h).members.find? id = some m) (hs : m.correo = some s) :
    ∃ m', (replay (S := emails) d₀ (h ++ [.commit c])).members.find? id = some m' ∧
      m'.correo = some s := by
  have hgives := hc.gives
  generalize (replay (S := emails) d₀ (h ++ [.commit c])).members = t at hgives ⊢
  cases hgives with
  | none => exact ⟨m, hm, hs⟩
  | @gives env token x z _ _ _ _ hmember hnone _ =>
    rw [Table.find?_modify (withCorreo_id _)]
    split
    · rename_i hid
      rw [hid] at hm
      cases hm.symm.trans hmember
      rw [hs] at hnone
      cases hnone
    · exact ⟨m, hm, hs⟩

theorem Lawful.once_set {n : History emails} {m : Member} {s : String}
    (hl : Lawful (Commits host d₀ reqs) (h ++ n))
    (hm : (replay (S := emails) d₀ h).members.find? id = some m) (hs : m.correo = some s) :
    ∃ m', (replay (S := emails) d₀ (h ++ n)).members.find? id = some m' ∧ m'.correo = some s := by
  refine hl.keep (S := emails) d₀ (fun d => ∃ m', d.members.find? id = some m' ∧
    m'.correo = some s) (List.prefix_append _ _) ⟨m, hm, hs⟩ ?_
  intro h₁ c _ _ ⟨m', hm', hs'⟩ _ hc
  have h := hc.once_set hm' hs'
  rwa [replay_committed] at h

theorem Commits.sound (hc : Commits host d₀ reqs h c) (hs : Sound (replay (S := emails) d₀ h)) :
    Sound (replay (S := emails) d₀ (h ++ [.commit c])) := by
  refine ⟨?_, ?_⟩
  · have hgives := hc.gives
    generalize (replay (S := emails) d₀ (h ++ [.commit c])).members = t at hgives ⊢
    cases hgives with
    | none => exact hs.unique
    | @gives env token x z _ _ _ _ hmember hnone hfree =>
      -- nobody had the address just given
      have hrow : ∀ {o}, o ∈ ((replay (S := emails) d₀ h).members.modify x.memberId
          (withCorreo x.correo)).rows → (o = withCorreo x.correo z ∨
            (o ∈ (replay (S := emails) d₀ h).members.rows ∧ o.correo ≠ some x.correo)) := by
        intro o ho
        have ho := Table.find?_of_mem ho
        rw [Table.find?_modify (withCorreo_id _)] at ho
        split at ho
        · rw [hmember] at ho
          exact .inl (Option.some.inj ho).symm
        · exact .inr ⟨Table.mem_of_find? ho, hfree o (Table.mem_of_find? ho)⟩
      intro a ha b hb hsome he
      rcases hrow ha with rfl | ⟨ha, hane⟩
      · rcases hrow hb with rfl | ⟨-, hbne⟩
        · rfl
        · exact absurd he hbne
      · rcases hrow hb with rfl | ⟨hb, -⟩
        · exact absurd he.symm hane
        · exact hs.unique a ha b hb hsome he
  · intro y hy
    have hy := Table.find?_of_mem hy
    have hturn := hc.turn hy
    generalize hb : (replay (S := emails) d₀ h).confirmations.find? (Keyed.key y) = before at hturn
    cases before with
    | some x =>
      have hsame : y.correo = x.correo := congrArg Link.correo hturn.link_eq
      rw [hsame]
      exact hs.links x (Table.mem_of_find? hb)
    | none =>
      cases hturn with
      | issue _ hcorreo _ _ => exact hcorreo

/-- A person with an address is sent no further link. -/
theorem Commits.settled {contextId s : String} {memberId : Uuid} {m : Member}
    (hc : Commits host d₀ reqs h c)
    (hm : (replay (S := emails) d₀ h).members.find? memberId = some m) (hs : m.correo = some s)
    (hne : s ≠ "")
    (hspent : ∀ y ∈ (replay (S := emails) d₀ h).confirmations.rows, y.isOf contextId memberId →
      ¬ y.unspent) :
    ∀ y ∈ (replay (S := emails) d₀ (h ++ [.commit c])).confirmations.rows,
      y.isOf contextId memberId → ¬ y.unspent := by
  intro y hy hof hun
  have hturn := hc.turn (Table.find?_of_mem hy)
  generalize hb : (replay (S := emails) d₀ h).confirmations.find? (Keyed.key y) = before at hturn
  cases before with
  | some x =>
    exact hspent x (Table.mem_of_find? hb) (isOf_of_link_eq hturn.link_eq hof) (hturn.unspent hun)
  | none =>
    cases hturn with
    | issue _ _ _ hunset =>
      obtain ⟨-, rfl⟩ := hof
      exact hne (hunset m hm s hs)

/-! Runs. -/

/-- Every run keeps the addresses write-once and proven. -/
theorem addresses_kept (host : Host) (d₀ : Db) (reqs : List Request) (s : Sys emails Answer)
    (hd : Sound d₀) (hr : Reachable host d₀ reqs s) :
    Kept host d₀ reqs s.hist ∧ ∀ v, Probes v := by
  have hl := hr.lawful
  have hsound : ∀ g, g <+: s.hist → Sound (replay (S := emails) d₀ g) := by
    intro g hg
    refine Lawful.induct (S := emails) d₀ Sound hd ?_ (hl.of_prefix hg)
    intro h₁ c _ ho _ hc
    have h := hc.sound ho
    rwa [replay_committed] at h
  refine ⟨⟨?_, ?_, ?_, ?_, ?_, ?_⟩, probes⟩
  · intro g n k id m s' he hm hs
    have hl' := hl.of_prefix (he ▸ List.prefix_append (g ++ n) k)
    exact Lawful.once_set hl' hm hs
  · intro g c n id he hne
    have hgives := (hl g c n he).2.gives
    generalize (replay (S := emails) d₀ (g ++ [.commit c])).members = t at hgives hne
    cases hgives with
    | none => exact absurd rfl hne
    | @gives env token x m hreq hw _ hx _ _ _ =>
      refine ⟨env, token, x, ⟨hreq, hw⟩, hx, ?_⟩
      by_contra hid
      exact hne (Table.find?_modify_ne (withCorreo_id _) (Ne.symm hid))
  · intro g c n env token id he hf
    obtain ⟨x, m, hx, ⟨hused, hsuperseded⟩, hlive, htoken, hm, hnone, -, hafter⟩ :=
      (hl g c n he).2.confirms hf
    refine ⟨x, m, hx, hused, hsuperseded, hlive, htoken, hm, hnone, ?_⟩
    rw [hafter, Table.find?_modify (withCorreo_id _), if_pos rfl, hm]
    rfl
  · intro g c m c' n env env' token token' id he hf hf'
    have he' : s.hist = (g ++ [.commit c] ++ m) ++ .commit c' :: n := by
      rw [he]
      simp
    have hlm : Lawful (Commits host d₀ reqs) (g ++ [.commit c] ++ m) := by
      rw [he'] at hl
      exact hl.left
    obtain ⟨x, -, hx, hun, -, -, -, -, hspends, -⟩ := (hl g c _ he).2.confirms hf
    obtain ⟨y, hy⟩ := find?_applyAll_present c.writes hx
    have hy : (replay (S := emails) d₀ (g ++ [.commit c])).confirmations.find? id = some y := by
      rw [replay_committed]
      exact hy
    have hspent : ¬ y.unspent := by
      intro hyun
      have hturn := (hl g c _ he).2.turn hy
      rw [hx] at hturn
      cases hturn with
      | stay hno =>
        obtain ⟨w, hw, hkey⟩ := hspends id _ hx ⟨rfl, rfl⟩ hun
        exact hno w hw hkey
      | supersede _ => cases hyun.2
      | use _ _ _ => cases hyun.1
    obtain ⟨z, hz, hzspent⟩ := Lawful.row_stays (P := fun x => ¬ x.unspent) hlm ⟨y, hy, hspent⟩
      fun c d x y hturn hno hy => hno (hturn.unspent hy)
    obtain ⟨z', -, hz', hzun, -⟩ := (hl _ c' n he').2.confirms hf'
    cases hz.symm.trans hz'
    exact hzspent hzun
  · intro g c m n env token x he hf hx
    obtain ⟨x', mem, hx', -, -, -, hm, -, hspends, hafter⟩ := (hl g c _ he).2.confirms hf
    cases hx.symm.trans hx'
    have hne : x.correo ≠ "" := (hsound g (he ▸ List.prefix_append _ _)).links x
      (Table.mem_of_find? hx)
    have hfull : (replay (S := emails) d₀ (g ++ [.commit c])).members.find? x.memberId =
        some (withCorreo x.correo mem) := by
      rw [hafter, Table.find?_modify (withCorreo_id _), if_pos rfl, hm]
      rfl
    have hfirst : ∀ y ∈ (replay (S := emails) d₀ (g ++ [.commit c])).confirmations.rows,
        y.isOf x.contextId x.memberId → ¬ y.unspent := by
      intro y hy hof hun
      have hturn := (hl g c _ he).2.turn (Table.find?_of_mem hy)
      generalize hb : (replay (S := emails) d₀ g).confirmations.find? (Keyed.key y) = before
        at hturn
      cases before with
      | some z =>
        cases hturn with
        | stay hno =>
          obtain ⟨w, hw, hkey⟩ := hspends _ _ hb hof hun
          exact hno w hw hkey
        | supersede _ => cases hun.2
        | use _ _ _ => cases hun.1
      | none =>
        cases hturn with
        | issue hreq _ _ _ => cases hf.1.symm.trans hreq
    -- from there on the person has an address
    have he' : s.hist = (g ++ [.commit c] ++ m) ++ n := by
      rw [he]
      simp
    have hlm : Lawful (Commits host d₀ reqs) (g ++ [.commit c] ++ m) := by
      rw [he'] at hl
      exact hl.left
    have hsplit : g ++ .commit c :: m = g ++ [.commit c] ++ m := by simp
    rw [hsplit]
    clear hsplit he' he
    induction m using List.reverseRecOn with
    | nil =>
      rw [List.append_nil]
      exact hfirst
    | append_singleton m e ih =>
      rw [← List.append_assoc] at hlm ⊢
      have ih := ih hlm.left
      cases e with
      | exec j q =>
        rw [replay_sent]
        exact ih
      | commit c' =>
        obtain ⟨m', hm', hs'⟩ := Lawful.once_set hlm.left hfull rfl
        exact (hlm _ c' [] rfl).2.settled hm' hs' hne ih
  · intro g hg
    exact (hsound g hg).unique

/-- An address written, and its link opened. -/
def Demo.writtenThenOpened : List Request :=
  [.request (Demo.env 1 0) Demo.actor "luis@bazar.mx", .confirm (Demo.env 2 60) "x"]

theorem addresses_kept_opened :
    Kept Demo.host Demo.bazar Demo.writtenThenOpened
        (Demo.run Demo.bazar Demo.writtenThenOpened
          (List.replicate 8 0 ++ List.replicate 7 1)).hist ∧ ∀ v, Probes v := by
  refine addresses_kept Demo.host _ _ _ ⟨?_, ?_⟩ (Demo.reachable (by decide))
  · intro a ha b hb _ _
    rw [List.mem_singleton.mp ha, List.mem_singleton.mp hb]
  · intro x hx
    cases hx

end Bazar.MemberEmail
