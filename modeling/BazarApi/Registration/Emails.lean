import BazarApi.Registration.Safe

/- The verification emails of a request. A resend claims its row on condition that the count
   is the one it read and that the last email is old enough; an email that is not sent rolls
   its row back. So the emails counted are few and apart, only the latest link is stored, and
   a confirmation uses it up. -/
namespace Bazar.Registration

open Txn Team

variable {host : Host} {d₀ d : Db} {reqs : List Request} {h : History registration}
variable {c : Commit registration} {id : Uuid} {token : String} {t : Instant}
variable {o : Option BusinessRegistrationRequest} {x y : BusinessRegistrationRequest}

/-- The commit sent the verification email of a request: this token, at this instant. -/
inductive Sends (host : Host) (reqs : List Request) (c : Commit registration) (id : Uuid) :
    String → Instant → Prop where
  | first {env : Env} {dto : CreateBusinessRegistrationDto}
    (hreq : reqs[c.pid]? = some (.create env dto))
    (hw : .insertRequest (newRequest host env dto (host.trimLower dto.correo)) ∈ c.writes)
    (hid : env.serverId 0 = id) : Sends host reqs c id (env.token 0) (env.now 0)
  | again {r : Request} {env : Env} {n : Nat} (hreq : reqs[c.pid]? = some r)
    (hr : r.resends = some env) (hw : .updateRequest id (reissuedLink host env n) ∈ c.writes) :
    Sends host reqs c id (env.token (2 + n)) (env.now n)

/-- The commit confirmed the request by a link with the token. -/
def Verifies (host : Host) (reqs : List Request) (c : Commit registration) (id : Uuid)
    (token : String) : Prop :=
  ∃ env, reqs[c.pid]? = some (.verifyEmail env token) ∧
    .updateRequest id (verification host env) ∈ c.writes

/-- Emails within their maximum, and one live request of the second version per address. -/
structure Sound (d : Db) : Prop where
  at_most : ∀ id x, d.requests.find? id = some x → x.legalVersion.isSome →
    x.verificationEmailsSent ≤ maxVerificationEmailsPerRequest
  one_live : ∀ id id' x y correo, d.requests.find? id = some x → d.requests.find? id' = some y →
    x.liveFor correo → y.liveFor correo → id = id'

/-- The rules of the verification emails, over a run. -/
structure EmailsKept (host : Host) (d₀ : Db) (reqs : List Request) (H : History registration) :
    Prop where
  sound : ∀ g, g <+: H → Sound (replay (S := registration) d₀ g)
  counted : ∀ g c n id x y, H = g ++ .commit c :: n →
    (replay (S := registration) d₀ g).requests.find? id = some x →
    (replay (S := registration) d₀ (g ++ [.commit c])).requests.find? id = some y →
    (∃ token t, Sends host reqs c id token t ∧ y.lastVerificationEmailAt = some t ∧
      y.verificationEmailsSent = x.verificationEmailsSent + 1) ∨
    (y.lastVerificationEmailAt = x.lastVerificationEmailAt ∧
      y.verificationEmailsSent = x.verificationEmailsSent)
  spaced : ∀ g c m c' n id token token' t t', H = g ++ .commit c :: (m ++ .commit c' :: n) →
    Sends host reqs c id token t → Sends host reqs c' id token' t' →
    (∀ x, .commit x ∈ m → (∀ token t, ¬ Sends host reqs x id token t) ∧
      .deleteRequest id ∉ x.writes) → t + resendWaitMs ≤ t'
  current : ∀ g c n id token, H = g ++ .commit c :: n → Verifies host reqs c id token →
    ∃ x, (replay (S := registration) d₀ g).requests.find? id = some x ∧
      x.status = .pendienteCorreo ∧ x.emailTokenHash = some (hashToken host token)
  latest : ∀ g c m c' n id token token' t, H = g ++ .commit c :: (m ++ .commit c' :: n) →
    Sends host reqs c id token t → Verifies host reqs c' id token' →
    (∀ x, .commit x ∈ m → ∀ token t, ¬ Sends host reqs x id token t) →
    hashToken host token' = hashToken host token
  once : ∀ g c m c' n id token token', H = g ++ .commit c :: (m ++ .commit c' :: n) →
    Verifies host reqs c id token → Verifies host reqs c' id token' →
    ∃ x, .commit x ∈ m ∧ .deleteRequest id ∈ x.writes

/-! One commit. -/

/-- A turn that sends an email, of a request that was there or not. -/
theorem Turn.sent (ht : Turn host reqs d c id o y) (hs : Sends host reqs c id token t) :
    y.lastVerificationEmailAt = some t ∧ y.emailTokenHash = some (hashToken host token) ∧
      ∀ x, o = some x → y.verificationEmailsSent = x.verificationEmailsSent + 1 ∧
        x.lastVerificationEmailAt.all (· ≤ t - resendWaitMs) = true := by
  cases ht with
  | stay hno =>
    cases hs with
    | first _ hw hid => exact absurd (congrArg Key.request hid) (hno _ hw)
    | again _ _ hw => exact absurd rfl (hno _ hw)
  | create hreq hw hid _ _ =>
    cases hs with
    | first hreq' _ _ =>
      cases hreq.symm.trans hreq'
      exact ⟨rfl, rfl, fun x hx => nomatch hx⟩
    | again _ _ hw' =>
      rw [hw] at hw'
      cases List.mem_singleton.mp hw'
  | resend hreq hr hw hdue =>
    cases hs with
    | first _ hw' _ =>
      rw [hw] at hw'
      cases List.mem_singleton.mp hw'
    | again hreq' hr' hw' =>
      cases hreq.symm.trans hreq'
      cases hr.symm.trans hr'
      rw [hw] at hw'
      have hdata := (Write.updateRequest.inj (List.mem_singleton.mp hw')).2
      have hnow := Option.some.inj (Option.some.inj
        (congrArg RequestUpdate.lastVerificationEmailAt hdata))
      have hhash := Option.some.inj (Option.some.inj (congrArg RequestUpdate.emailTokenHash hdata))
      refine ⟨congrArg some hnow.symm, congrArg some hhash.symm, ?_⟩
      intro x hx
      cases hx
      rw [hnow]
      exact ⟨rfl, (of_decide_eq_true hdue).2.2⟩
  | verify hreq _ _ =>
    cases hs with
    | first hreq' _ _ => cases hreq.symm.trans hreq'
    | again hreq' hr _ =>
      cases hreq.symm.trans hreq'
      cases hr
  | approve hreq _ _ =>
    cases hs with
    | first hreq' _ _ => cases hreq.symm.trans hreq'
    | again hreq' hr _ =>
      cases hreq.symm.trans hreq'
      cases hr
  | reject hreq _ =>
    cases hs with
    | first hreq' _ _ => cases hreq.symm.trans hreq'
    | again hreq' hr _ =>
      cases hreq.symm.trans hreq'
      cases hr

/-- A turn that sends no email: a request keeps its link, or has used it up. -/
theorem Turn.unsent (ht : Turn host reqs d c id o y)
    (hno : ∀ token t, ¬ Sends host reqs c id token t) :
    ∃ x, o = some x ∧ y.lastVerificationEmailAt = x.lastVerificationEmailAt ∧
      y.verificationEmailsSent = x.verificationEmailsSent ∧
      (y.emailTokenHash = x.emailTokenHash ∨ y.emailTokenHash = none) := by
  cases ht with
  | stay _ => exact ⟨y, rfl, rfl, rfl, .inl rfl⟩
  | create hreq hw hid _ _ =>
    exact absurd (.first hreq (by rw [hw]; exact List.mem_cons_self) hid) (hno _ _)
  | resend hreq hr hw _ =>
    exact absurd (.again hreq hr (by rw [hw]; exact List.mem_cons_self)) (hno _ _)
  | @verify env token x _ _ _ => exact ⟨x, rfl, rfl, Int.add_zero _, .inr rfl⟩
  | @approve env token x _ _ _ => exact ⟨x, rfl, rfl, Int.add_zero _, .inl rfl⟩
  | @reject env token x _ _ => exact ⟨x, rfl, rfl, Int.add_zero _, .inl rfl⟩

/-- A turn that confirms. -/
theorem Turn.verified (ht : Turn host reqs d c id o y) (hv : Verifies host reqs c id token) :
    ∃ x, o = some x ∧ x.status = .pendienteCorreo ∧
      x.emailTokenHash = some (hashToken host token) ∧ y.status = .pendiente := by
  obtain ⟨env, hreq, hw⟩ := hv
  cases ht with
  | stay hno => exact absurd rfl (hno _ hw)
  | create hreq' _ _ _ _ => cases hreq.symm.trans hreq'
  | resend hreq' hr _ _ =>
    cases hreq.symm.trans hreq'
    cases hr
  | @verify env' token' x hreq' _ hclaim =>
    cases hreq.symm.trans hreq'
    obtain ⟨-, hst, htoken, -⟩ := of_decide_eq_true hclaim
    exact ⟨x, rfl, hst _ rfl, htoken _ rfl, rfl⟩
  | approve hreq' _ _ => cases hreq.symm.trans hreq'
  | reject hreq' _ => cases hreq.symm.trans hreq'

/-- A request that left `pendiente_correo` never goes back. -/
theorem Turn.confirmed_stays (ht : Turn host reqs d c id (some x) y)
    (hx : x.status ≠ .pendienteCorreo) : y.status ≠ .pendienteCorreo := by
  cases ht with
  | stay _ => exact hx
  | resend _ _ _ hdue => exact hx
  | verify _ _ _ => exact Status.noConfusion
  | approve _ _ _ => exact Status.noConfusion
  | reject _ _ => exact Status.noConfusion

theorem Turn.at_most (ht : Turn host reqs d c id o y)
    (hx : ∀ x, o = some x → x.legalVersion.isSome →
      x.verificationEmailsSent ≤ maxVerificationEmailsPerRequest) (hy : y.legalVersion.isSome) :
    y.verificationEmailsSent ≤ maxVerificationEmailsPerRequest := by
  cases ht with
  | stay _ => exact hx _ rfl hy
  | create _ _ _ _ _ => exact (by decide : (1 : Int) ≤ maxVerificationEmailsPerRequest)
  | @resend r env n x _ _ _ hdue =>
    have hlt := (of_decide_eq_true hdue).2.1
    change x.verificationEmailsSent + 1 ≤ _
    omega
  | @verify env token x _ _ _ => exact le_of_eq_of_le (Int.add_zero _) (hx x rfl hy)
  | @approve env token x _ _ _ => exact le_of_eq_of_le (Int.add_zero _) (hx x rfl hy)
  | @reject env token x _ _ => exact le_of_eq_of_le (Int.add_zero _) (hx x rfl hy)

/-- A request that a commit writes, and does not delete, is there after it. -/
theorem Commits.wrote (hc : Commits host d₀ reqs h c) {w : Write} (hw : w ∈ c.writes)
    (hk : w.key = .request id) (hne : w ≠ .deleteRequest id) :
    ∃ y, (replay (S := registration) d₀ (h ++ [.commit c])).requests.find? id = some y := by
  obtain ⟨r, -, hw' | he⟩ := hc
  · rw [hw'] at hw
    cases hw
  rw [replay_committed]
  generalize c.writes = ws at hw he
  cases he with
  | @created env dto _ _ _ =>
    obtain rfl := List.mem_singleton.mp hw
    obtain rfl := Key.request.inj hk
    exact ⟨_, Table.find?_put_self⟩
  | resent _ hrow _ =>
    obtain rfl := List.mem_singleton.mp hw
    obtain rfl := Key.request.inj hk
    exact find?_applyAll_present hrow (by simp)
  | verified hrows =>
    obtain ⟨x, hx, rfl⟩ := List.mem_map.mp hw
    obtain rfl := Key.request.inj hk
    exact find?_applyAll_present (hrows x hx).1 (by simp)
  | @approved env token username read row correo hrow _ _ _ _ =>
    have hread : read.id = id := by
      cases correo <;> simp [newBusiness, founderCorreo] at hw <;>
        rcases hw with rfl | rfl | rfl | rfl | rfl <;> first | exact Key.request.inj hk | cases hk
    rw [hread] at hrow
    refine find?_applyAll_present hrow ?_
    cases correo <;> simp [newBusiness, founderCorreo]
  | rejected _ _ _ _ hrow =>
    obtain rfl := List.mem_singleton.mp hw
    obtain rfl := Key.request.inj hk
    exact find?_applyAll_present hrow (by simp)
  | cleaned _ _ _ =>
    obtain ⟨x, -, rfl⟩ := List.mem_map.mp hw
    obtain rfl := Key.request.inj hk
    exact absurd rfl hne

theorem Commits.sends_to (hc : Commits host d₀ reqs h c) (hs : Sends host reqs c id token t) :
    ∃ y, (replay (S := registration) d₀ (h ++ [.commit c])).requests.find? id = some y := by
  cases hs with
  | first _ hw hid => exact hc.wrote hw (congrArg Key.request hid) Write.noConfusion
  | again _ _ hw => exact hc.wrote hw rfl Write.noConfusion

theorem Commits.verifies (hc : Commits host d₀ reqs h c) (hv : Verifies host reqs c id token) :
    ∃ y, (replay (S := registration) d₀ (h ++ [.commit c])).requests.find? id = some y := by
  obtain ⟨env, -, hw⟩ := hv
  exact hc.wrote hw rfl Write.noConfusion

theorem Commits.sound (hc : Commits host d₀ reqs h c)
    (hs : Sound (replay (S := registration) d₀ h)) :
    Sound (applyAll (S := registration) (replay (S := registration) d₀ h) c.writes) := by
  have hturn : ∀ {k z}, (applyAll (S := registration) (replay (S := registration) d₀ h)
      c.writes).requests.find? k = some z →
      Turn host reqs (replay (S := registration) d₀ h) c k
        ((replay (S := registration) d₀ h).requests.find? k) z := by
    intro k z hz
    refine hc.turn ?_
    rw [replay_committed]
    exact hz
  refine ⟨fun k z hz hlegal => (hturn hz).at_most (hs.at_most k) hlegal, ?_⟩
  intro k k' x y correo hx hy hlx hly
  have hkx := hturn hx
  have hky := hturn hy
  generalize hbx : (replay (S := registration) d₀ h).requests.find? k = bx at hkx
  generalize hby : (replay (S := registration) d₀ h).requests.find? k' = by' at hky
  cases bx with
  | some x' =>
    cases by' with
    | some y' => exact hs.one_live k k' x' y' correo hbx hby (hkx.live hlx) (hky.live hly)
    | none =>
      cases hky with
      | create _ _ _ _ hlive =>
        obtain rfl := hly.1
        exact absurd (hkx.live hlx) (hlive k x' hbx)
  | none =>
    cases hkx with
    | create hreq _ hid _ hlive =>
      obtain rfl := hlx.1
      cases by' with
      | some y' => exact absurd (hky.live hly) (hlive k' y' hby)
      | none =>
        cases hky with
        | create hreq' _ hid' _ _ =>
          cases hreq.symm.trans hreq'
          exact hid.symm.trans hid'

/-! Runs. -/

/-- The verification emails of every run keep their rules. -/
theorem verification_emails_kept (host : Host) (d₀ : Db) (reqs : List Request)
    (s : Sys registration Answer) (hd : Sound d₀) (hr : Reachable host d₀ reqs s) :
    EmailsKept host d₀ reqs s.hist := by
  have hl := hr.lawful
  -- around two commits
  have between : ∀ {g c m c' n}, s.hist = g ++ .commit c :: (m ++ .commit c' :: n) →
      Commits host d₀ reqs g c ∧ Lawful (Commits host d₀ reqs) (g ++ [.commit c] ++ m) ∧
        Commits host d₀ reqs (g ++ [.commit c] ++ m) c' := by
    intro g c m c' n he
    have he' : s.hist = (g ++ [.commit c] ++ m) ++ .commit c' :: n := by
      rw [he]
      simp
    refine ⟨(hl g c _ he).2, ?_, (hl _ c' n he').2⟩
    rw [he'] at hl
    exact hl.left
  refine ⟨?_, ?_, ?_, ?_, ?_, ?_⟩
  · intro g hg
    exact Lawful.induct (S := registration) d₀ Sound hd (fun h₁ c _ hs _ hc => hc.sound hs)
      (hl.of_prefix hg)
  · intro g c n id x y he hx hy
    have hturn := (hl g c n he).2.turn hy
    rw [hx] at hturn
    by_cases hs : ∃ token t, Sends host reqs c id token t
    · obtain ⟨token, t, hs⟩ := hs
      obtain ⟨hlast, -, hsent⟩ := hturn.sent hs
      exact .inl ⟨token, t, hs, hlast, (hsent x rfl).1⟩
    · obtain ⟨x', hx', hlast, hsent, -⟩ := hturn.unsent fun token t h => hs ⟨token, t, h⟩
      cases hx'
      exact .inr ⟨hlast, hsent⟩
  · intro g c m c' n id token token' t t' he hs hs' hm
    obtain ⟨hc, hlm, hc'⟩ := between he
    obtain ⟨y, hy⟩ := hc.sends_to hs
    obtain ⟨x, hx, hlast⟩ := Lawful.row_stays
      (P := fun x => x.lastVerificationEmailAt = some t) hlm ⟨y, hy, ((hc.turn hy).sent hs).1⟩
      (fun x hx => (hm x hx).2) (by
        intro x d z w hxm hturn hz
        obtain ⟨x', hx', hlast, -⟩ := hturn.unsent (hm x hxm).1
        cases hx'
        exact hlast.trans hz)
    obtain ⟨z, hz⟩ := hc'.sends_to hs'
    obtain ⟨-, -, hdue⟩ := (hc'.turn hz).sent hs'
    have hwait := (hdue x hx).2
    rw [hlast] at hwait
    have hwait : t ≤ t' - resendWaitMs := of_decide_eq_true hwait
    exact Int.add_le_of_le_sub_right hwait
  · intro g c n id token he hv
    have hc := (hl g c n he).2
    obtain ⟨y, hy⟩ := hc.verifies hv
    obtain ⟨x, hx, hst, htoken, -⟩ := (hc.turn hy).verified hv
    exact ⟨x, hx, hst, htoken⟩
  · intro g c m c' n id token token' t he hs hv hm
    obtain ⟨hc, hlm, hc'⟩ := between he
    obtain ⟨z, hz⟩ := hc'.verifies hv
    obtain ⟨x, hx, -, htoken, -⟩ := (hc'.turn hz).verified hv
    have hkept := Lawful.row_induct (P := fun x =>
      x.emailTokenHash = some (hashToken host token) ∨ x.emailTokenHash = none) hlm
      (fun y hy => .inl ((hc.turn hy).sent hs).2.1) (by
        intro x d o y hxm hturn ho
        obtain ⟨x', rfl, -, -, hkeep | hnone⟩ := hturn.unsent (hm x hxm)
        · rw [hkeep]
          exact ho x' rfl
        · exact .inr hnone) x hx
    rw [htoken] at hkept
    rcases hkept with hkept | hkept
    · exact Option.some.inj hkept
    · cases hkept
  · intro g c m c' n id token token' he hv hv'
    obtain ⟨hc, hlm, hc'⟩ := between he
    by_contra hno
    push Not at hno
    obtain ⟨y, hy⟩ := hc.verifies hv
    have hconfirmed : y.status ≠ .pendienteCorreo := by
      obtain ⟨-, -, -, -, hst⟩ := (hc.turn hy).verified hv
      rw [hst]
      exact Status.noConfusion
    obtain ⟨x, hx, hst⟩ := Lawful.row_stays
      (P := fun x => x.status ≠ .pendienteCorreo) hlm ⟨y, hy, hconfirmed⟩ hno
      (fun x d z w _ hturn hz => hturn.confirmed_stays hz)
    obtain ⟨z, hz⟩ := hc'.verifies hv'
    obtain ⟨x', hx', hst', -⟩ := (hc'.turn hz).verified hv'
    cases hx.symm.trans hx'
    exact hst hst'

/-- A link sent again, and opened. -/
def Demo.resentThenOpened : List Request :=
  [.resend Demo.today "ana@bazar.mx", .verifyEmail Demo.today ""]

theorem verification_emails_kept_resent :
    EmailsKept Demo.host Demo.old Demo.resentThenOpened
      (Demo.run Demo.old Demo.resentThenOpened
        (List.replicate 4 0 ++ List.replicate 5 1)).hist := by
  refine verification_emails_kept Demo.host _ _ _ ?_ (Demo.reachable (by decide))
  have hrow : ∀ {id x}, Demo.old.requests.find? id = some x → x = Demo.unconfirmed :=
    fun h => List.mem_singleton.mp (Table.mem_of_find? h)
  refine ⟨?_, ?_⟩
  · intro id x hx _
    rw [hrow hx]
    decide
  · intro id id' x y correo hx hy _ _
    rw [← Table.find?_key hx, ← Table.find?_key hy, hrow hx, hrow hy]

end Bazar.Registration
