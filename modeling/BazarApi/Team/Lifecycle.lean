import BazarApi.Team.Safe

/- The life of a device over a run. A device waits for its identifier, works, or is
   revoked; only an activation makes it work, only a reissue makes it wait again. Every
   result is read off the commit at which a property of its row first fails
   (`Device.crossing`). -/
namespace Bazar.Team

open Txn

variable {host : Host} {d₀ : Db} {reqs : List Request} {h n : History team} {c : Commit team}
variable {id : Uuid} {row : Device}

/-- Status and authorization agree. -/
def Device.Valid (x : Device) : Prop :=
  (x.status = .pendienteActivacion ∧ x.authorized = false) ∨
  (x.status = .activo ∧ x.authorized = true) ∨
  (x.status = .revocado ∧ x.authorized = false)

/-! One commit. -/

/-- A device that was not there is one of the two kinds that are created. -/
theorem Commits.born (hc : Commits host d₀ reqs h c)
    (hnone : (replay (S := team) d₀ h).devices.find? id = none)
    (hrow : (replay (S := team) d₀ (h ++ [.commit c])).devices.find? id = some row) :
    c.writes ≠ [] ∧
      ((∃ env actor dto, reqs[c.pid]? = some (.create env actor dto) ∧
        row = Devices.newDevice env actor.account.contextId dto) ∨
      ∃ env token inv name, reqs[c.pid]? = some (.accept env token) ∧
        row = Invitations.acceptedDevice host env inv name) := by
  obtain ⟨r, hreq, hw⟩ := hc
  rw [replay_committed] at hrow
  have updated : ∀ (v : Db) k data, v.devices.find? id = none →
      (v.devices.modify k (DeviceUpdate.apply data)).find? id = none := by
    intro v k data hv
    rw [Table.find?_modify data.apply_id]
    split
    · rename_i hk
      rw [← hk, hv]
      rfl
    · exact hv
  rcases hw with hw | ⟨-, he⟩
  · rw [hw] at hrow
    cases hnone.symm.trans hrow
  · generalize c.writes = ws at he hrow
    have put : ∀ x : Device, ((replay (S := team) d₀ h).devices.put x).find? id = some row → row = x := by
      intro x hx
      rw [Table.find?_put] at hx
      split at hx
      · exact (Option.some.inj hx).symm
      · cases hnone.symm.trans hx
    cases he with
    | created hnew => exact ⟨List.cons_ne_nil _ _, .inl ⟨_, _, _, hreq, put _ hrow⟩⟩
    | activated _ _ _ _ _ => cases (updated _ _ _ hnone).symm.trans hrow
    | revoked _ => cases (updated _ _ _ hnone).symm.trans hrow
    | reissued _ => cases (updated _ _ _ hnone).symm.trans hrow
    | accepted hnew => exact ⟨List.cons_ne_nil _ _, .inr ⟨_, _, _, _, hreq, put _ hrow⟩⟩

/-- An activation found the device waiting and leaves it working. -/
theorem Commits.activated (hc : Commits host d₀ reqs h c) (ha : Activates reqs c id) :
    (∃ row, (replay (S := team) d₀ h).devices.find? id = some row ∧
      row.status = .pendienteActivacion) ∧
    ∃ row, (replay (S := team) d₀ (h ++ [.commit c])).devices.find? id = some row ∧
      row.status = .activo := by
  obtain ⟨⟨env, account, dto, hreq⟩, data, hm⟩ := ha
  obtain ⟨r, hreq', hw⟩ := hc
  cases hreq.symm.trans hreq'
  rw [replay_committed]
  rcases hw with hw | ⟨-, he⟩
  · rw [hw] at hm
    cases hm
  · generalize c.writes = ws at he hm
    cases he with
    | activated hh _ hread hrow hpending =>
      cases List.mem_singleton.mp hm
      refine ⟨⟨_, hrow, hpending⟩, _, find?_updateDevice hrow, ?_⟩
      rw [if_pos rfl]
      rfl

/-- A reissue leaves the device waiting, with the identifier it drew. -/
theorem Commits.reissued (hc : Commits host d₀ reqs h c) (hr : Reissues reqs c id) :
    ∃ env actor text dto row, reqs[c.pid]? = some (.reissue env actor text dto) ∧ c.writes ≠ [] ∧
      (replay (S := team) d₀ (h ++ [.commit c])).devices.find? id = some row ∧
      row.status = .pendienteActivacion ∧ row.identifier = (env.serverId 0).text := by
  obtain ⟨⟨env, actor, text, dto, hreq⟩, data, hm⟩ := hr
  obtain ⟨r, hreq', hw⟩ := hc
  cases hreq.symm.trans hreq'
  rw [replay_committed]
  rcases hw with hw | ⟨-, he⟩
  · rw [hw] at hm
    cases hm
  · refine ⟨env, actor, text, dto, ?_⟩
    generalize c.writes = ws at he hm
    cases he with
    | reissued hrow =>
      cases List.mem_singleton.mp hm
      refine ⟨_, hreq, List.cons_ne_nil _ _, find?_updateDevice hrow, ?_⟩
      rw [if_pos rfl]
      exact ⟨rfl, rfl⟩

/-! Runs. -/

/-- What held of a device and holds no more, some commit in between ended by a move. -/
theorem Device.crossing (P : Device → Prop) (hl : Lawful (Commits host d₀ reqs) (h ++ n))
    (hrow : (replay (S := team) d₀ h).devices.find? id = some row) (hP : P row)
    {last : Device} (hlast : (replay (S := team) d₀ (h ++ n)).devices.find? id = some last)
    (hn : ¬ P last) :
    ∃ g c g' x y, n = g ++ .commit c :: g' ∧
      (replay (S := team) d₀ (h ++ g)).devices.find? id = some x ∧ P x ∧
      (replay (S := team) d₀ (h ++ g ++ [.commit c])).devices.find? id = some y ∧ ¬ P y ∧
      Move host reqs c id x y := by
  obtain ⟨g, c, g', rfl, ⟨x, hx, hPx⟩, hno⟩ :=
    replay_crossing (S := team) (fun v => ∃ x, v.devices.find? id = some x ∧ P x) ⟨row, hrow, hP⟩
      (n := n) (by
        rintro ⟨x, hx, hPx⟩
        cases hlast.symm.trans hx
        exact hn hPx)
  have hc := (hl (h ++ g) c g' (List.append_assoc _ _ _).symm).2
  obtain ⟨y, hy, hm⟩ := Commits.move hc hx
  refine ⟨g, c, g', x, y, rfl, hx, hPx, hy, ?_, hm⟩
  intro hPy
  exact hno ⟨y, hy, hPy⟩

/-- Status and authorization agree on every device, at any time. -/
theorem Lawful.valid (h₀ : ∀ x ∈ d₀.devices.rows, x.Valid)
    (hl : Lawful (Commits host d₀ reqs) h) :
    ∀ x ∈ (replay (S := team) d₀ h).devices.rows, x.Valid := by
  refine Lawful.history_induct (P := fun h => ∀ x ∈ (replay (S := team) d₀ h).devices.rows, x.Valid)
    h₀ ?_ ?_ hl
  · intro h i q ih
    rw [replay_sent]
    exact ih
  · intro h c _ ih _ hc x hx
    have hfind := Table.find?_of_mem hx
    cases hold : (replay (S := team) d₀ h).devices.find? (Keyed.key x) with
    | none =>
      rcases (Commits.born hc hold hfind).2 with ⟨_, _, _, -, rfl⟩ | ⟨_, _, _, _, -, rfl⟩
      · exact .inl ⟨rfl, rfl⟩
      · exact .inr (.inl ⟨rfl, rfl⟩)
    | some y =>
      have hy := ih y (Table.mem_of_find? hold)
      obtain ⟨x', hx', hm⟩ := Commits.move hc hold
      cases hfind.symm.trans hx'
      cases hm with
      | stay => exact hy
      | activate _ _ => exact .inr (.inl ⟨rfl, rfl⟩)
      | revoke _ => exact .inr (.inr ⟨rfl, rfl⟩)
      | reissue _ _ => exact .inl ⟨rfl, rfl⟩

/-- A device that stops being as the migration and every activation leave it waits again
only through a reissue. -/
theorem waits_again (hl : Lawful (Commits host d₀ reqs) (h ++ n))
    (hrow : (replay (S := team) d₀ h).devices.find? id = some row)
    (hst : row.status ≠ .pendienteActivacion) {last : Device}
    (hlast : (replay (S := team) d₀ (h ++ n)).devices.find? id = some last)
    (hpending : last.status = .pendienteActivacion) :
    ∃ g c g', n = g ++ .commit c :: g' ∧ Reissues reqs c id := by
  obtain ⟨g, c, g', x, y, rfl, -, hx, -, hy, hm⟩ :=
    Device.crossing (fun x => x.status ≠ .pendienteActivacion) hl hrow hst hlast (not_not.mpr hpending)
  refine ⟨g, c, g', rfl, ?_⟩
  cases hm with
  | stay => exact absurd hx hy
  | activate _ _ => exact absurd (fun h => by cases h) hy
  | revoke _ => exact absurd (fun h => by cases h) hy
  | reissue hr hu => exact ⟨⟨_, _, _, _, hr⟩, hu⟩

/-- A device that does not work starts to only through an activation. -/
theorem works_again (hl : Lawful (Commits host d₀ reqs) (h ++ n))
    (hrow : (replay (S := team) d₀ h).devices.find? id = some row) (hst : row.status ≠ .activo)
    {last : Device} (hlast : (replay (S := team) d₀ (h ++ n)).devices.find? id = some last)
    (hactive : last.status = .activo) :
    ∃ g c g' x, n = g ++ .commit c :: g' ∧ Activates reqs c id ∧
      (replay (S := team) d₀ (h ++ g)).devices.find? id = some x ∧
      x.status = .pendienteActivacion := by
  obtain ⟨g, c, g', x, y, rfl, hgx, hx, -, hy, hm⟩ :=
    Device.crossing (fun x => x.status ≠ .activo) hl hrow hst hlast (not_not.mpr hactive)
  cases hm with
  | stay => exact absurd hx hy
  | activate ha hp => exact ⟨g, c, g', x, rfl, ha, hgx, hp⟩
  | revoke _ => exact absurd (fun h => by cases h) hy
  | reissue _ _ => exact absurd (fun h => by cases h) hy

/-- Between two activations of a device there is a reissue of it. -/
theorem Lawful.reissued_between {h₁ h₂ h₃ : History team} {c c' : Commit team}
    (hl : Lawful (Commits host d₀ reqs) (h₁ ++ .commit c :: h₂ ++ .commit c' :: h₃))
    (ha : Activates reqs c id) (ha' : Activates reqs c' id) :
    ∃ c'', Event.commit c'' ∈ h₂ ∧ Reissues reqs c'' id := by
  have hc := (hl h₁ c (h₂ ++ .commit c' :: h₃) (by simp)).2
  have hc' := (hl (h₁ ++ .commit c :: h₂) c' h₃ rfl).2
  obtain ⟨-, row, hrow, hst⟩ := hc.activated ha
  obtain ⟨⟨last, hlast, hpending⟩, -⟩ := hc'.activated ha'
  have happ : h₁ ++ .commit c :: h₂ = h₁ ++ [.commit c] ++ h₂ := by simp
  rw [happ] at hlast
  have hl' : Lawful (Commits host d₀ reqs) (h₁ ++ [.commit c] ++ h₂) := by
    rw [← happ]
    exact hl.left
  obtain ⟨g, c'', g', rfl, hr⟩ := waits_again hl' hrow (by rw [hst]; decide) hlast hpending
  exact ⟨c'', by simp, hr⟩

/-- A revoked device works again only after a reissue and then an activation. -/
theorem Lawful.revoked_then_works (hl : Lawful (Commits host d₀ reqs) (h ++ n))
    (hrow : (replay (S := team) d₀ h).devices.find? id = some row) (hst : row.status = .revocado)
    {last : Device} (hlast : (replay (S := team) d₀ (h ++ n)).devices.find? id = some last)
    (hactive : last.status = .activo) :
    ∃ a c b c' e, n = a ++ .commit c :: b ++ .commit c' :: e ∧ Reissues reqs c id ∧
      Activates reqs c' id := by
  obtain ⟨g, c', g', x, rfl, ha, hx, hpending⟩ :=
    works_again hl hrow (by rw [hst]; decide) hlast hactive
  have hl' : Lawful (Commits host d₀ reqs) (h ++ g) :=
    hl.of_prefix ⟨.commit c' :: g', by simp⟩
  obtain ⟨a, c, b, rfl, hr⟩ := waits_again hl' hrow (by rw [hst]; decide) hx hpending
  exact ⟨a, c, b, c', g', rfl, hr, ha⟩

/-- A token hash is lost only by a reissue. -/
theorem Lawful.token_lost (hl : Lawful (Commits host d₀ reqs) (h ++ n))
    (hrow : (replay (S := team) d₀ h).devices.find? id = some row) (htok : row.tokenHash.isSome)
    {last : Device} (hlast : (replay (S := team) d₀ (h ++ n)).devices.find? id = some last)
    (hnone : last.tokenHash = none) :
    ∃ g c g', n = g ++ .commit c :: g' ∧ Reissues reqs c id := by
  obtain ⟨g, c, g', x, y, rfl, -, hx, -, hy, hm⟩ :=
    Device.crossing (fun x => x.tokenHash.isSome) hl hrow htok hlast (by simp [hnone])
  refine ⟨g, c, g', rfl, ?_⟩
  cases hm with
  | stay => exact absurd hx hy
  | activate _ _ => exact absurd rfl hy
  | revoke _ => exact absurd hx hy
  | reissue hr hu => exact ⟨⟨_, _, _, _, hr⟩, hu⟩

/-- Whoever had a token hash once is never again let in without a token. -/
theorem Lawful.token_wanted (hl : Lawful (Commits host d₀ reqs) (h ++ n))
    (hrow : (replay (S := team) d₀ h).devices.find? id = some row) (htok : row.tokenHash.isSome)
    {last : Device} (hlast : (replay (S := team) d₀ (h ++ n)).devices.find? id = some last)
    (hauth : last.authorized = true) : last.tokenHash.isSome := by
  by_contra hno
  obtain ⟨g, c, g', x, y, rfl, -, hx, -, hy, hm⟩ :=
    Device.crossing (fun x => x.tokenHash.isSome ∨ x.authorized = false) hl hrow (.inl htok) hlast
      (by simp [hno, hauth])
  cases hm with
  | stay => exact hy hx
  | activate _ _ => exact hy (.inl rfl)
  | revoke _ => exact hy (.inr rfl)
  | reissue _ _ => exact hy (.inr rfl)

theorem migrate_valid (now : Instant) (o : OldDevice) : (o.migrate now).Valid := by
  unfold OldDevice.migrate
  cases ha : o.authorized with
  | false => exact .inr (.inr ⟨rfl, rfl⟩)
  | true => exact .inr (.inl ⟨rfl, rfl⟩)

theorem Db.findAuthorizedDevice_eq {v : Db} {contextId : String}
    (h : v.findAuthorizedDevice id contextId = some row) :
    v.devices.find? id = some row ∧ row.authorized = true := by
  obtain ⟨h, ha⟩ := Option.filter_eq_some_iff.mp h
  obtain ⟨h, -⟩ := Option.filter_eq_some_iff.mp h
  exact ⟨h, ha⟩

/-- The state machine of a device, from what the migration leaves: status and
authorization agree; each token answered has its activation, and between two activations
lies a reissue; a token hash is lost only by a reissue; and when the guard lets a request
through, a device revoked before was reissued and activated since, and a device that had a
token hash before wanted its token. -/
theorem device_lifecycle (host : Host) (now : Instant) (old : Table OldDevice) (d₀ : Db)
    (hd : d₀.devices = migrateDevices now old) (reqs : List Request) (s : Sys team Answer)
    (hr : Reachable host d₀ reqs s) :
    (∀ h, h <+: s.hist → ∀ x ∈ (replay (S := team) d₀ h).devices.rows, x.Valid) ∧
    (∀ i env account dto id token, reqs[i]? = some (.identify env account dto) →
      s.Answered i (.ok (.identified ⟨id, some token⟩)) →
      ∃ c, Event.commit c ∈ s.hist ∧ c.pid = i ∧ Activates reqs c id) ∧
    (∀ h₁ c h₂ c' h₃ id, s.hist = h₁ ++ .commit c :: h₂ ++ .commit c' :: h₃ →
      Activates reqs c id → Activates reqs c' id →
      ∃ c'', Event.commit c'' ∈ h₂ ∧ Reissues reqs c'' id) ∧
    (∀ h n id x y, h ++ n <+: s.hist →
      (replay (S := team) d₀ h).devices.find? id = some x → x.tokenHash.isSome →
      (replay (S := team) d₀ (h ++ n)).devices.find? id = some y → y.tokenHash = none →
      ∃ c, Event.commit c ∈ n ∧ Reissues reqs c id) ∧
    (∀ i subject headers memberId id, reqs[i]? = some (.canActivate subject headers) →
      s.Answered i (.ok (.selected memberId id)) →
      ∃ h contextId device, h ++ [.exec i (.findAuthorizedDevice id contextId)] <+: s.hist ∧
        (replay (S := team) d₀ h).findAuthorizedDevice id contextId = some device ∧
        ∀ g n x, h = g ++ n → (replay (S := team) d₀ g).devices.find? id = some x →
          (x.status = .revocado → ∃ a c b c' e, n = a ++ .commit c :: b ++ .commit c' :: e ∧
            Reissues reqs c id ∧ Activates reqs c' id) ∧
          (x.tokenHash.isSome → ∃ storedHash token, device.tokenHash = some storedHash ∧
            headers.xDeviceToken = some token ∧
            verifyDeviceToken host token storedHash = true)) := by
  have hl := hr.lawful
  have h₀ : ∀ x ∈ d₀.devices.rows, x.Valid := by
    intro x hx
    rw [hd] at hx
    obtain ⟨o, -, rfl⟩ := List.mem_map.mp hx
    exact migrate_valid now o
  refine ⟨?_, ?_, ?_, ?_, ?_⟩
  · intro h hp
    exact Lawful.valid h₀ (hl.of_prefix hp)
  · intro i env account dto id token hreq ha
    exact hr.answered ha hreq
  · intro h₁ c h₂ c' h₃ id he ha ha'
    exact Lawful.reissued_between (he ▸ hl) ha ha'
  · intro h n id x y hp hx htok hy hnone
    obtain ⟨g, c, g', rfl, hre⟩ := Lawful.token_lost (hl.of_prefix hp) hx htok hy hnone
    exact ⟨c, by simp, hre⟩
  · intro i subject headers memberId id hreq ha
    obtain ⟨h, contextId, device, hp, hdevice, htoken⟩ := hr.answered ha hreq
    refine ⟨h, contextId, device, hp, hdevice, ?_⟩
    rintro g n x rfl hx
    have hl' := hl.of_prefix ((List.prefix_append _ _).trans hp)
    obtain ⟨hlast, hauth⟩ := Db.findAuthorizedDevice_eq hdevice
    refine ⟨?_, ?_⟩
    · intro hst
      have hactive : device.status = .activo := by
        rcases Lawful.valid h₀ hl' device (Table.mem_of_find? hlast) with ⟨-, h⟩ | ⟨h, -⟩ | ⟨-, h⟩
        · cases hauth.symm.trans h
        · exact h
        · cases hauth.symm.trans h
      exact Lawful.revoked_then_works hl' hx hst hlast hactive
    · intro htok
      obtain ⟨storedHash, hs⟩ := Option.isSome_iff_exists.mp
        (Lawful.token_wanted hl' hx htok hlast hauth)
      unfold ContextGuard.tokenAccepted at htoken
      rw [hs] at htoken
      cases ht : headers.xDeviceToken with
      | none =>
        rw [ht] at htoken
        cases htoken
      | some token =>
        rw [ht] at htoken
        exact ⟨storedHash, token, hs, rfl, htoken⟩

/-- The till is revoked, reissued, activated and let in. -/
def Demo.renewal : List Request :=
  [.revoke (env 0) actor "till", .reissue (env 1) actor "till" ⟨none⟩,
    .identify (env 2) account ⟨((env 1).serverId 0).text, "Till"⟩,
    .canActivate (some "account") ⟨some "till", some "secret"⟩]

def Demo.renewalSteps : List Nat :=
  List.replicate 8 0 ++ List.replicate 8 1 ++ List.replicate 4 2 ++ List.replicate 9 3

theorem device_lifecycle_renewal :
    ∃ h contextId device, h ++ [.exec 3 (.findAuthorizedDevice ⟨"till"⟩ contextId)] <+:
        (Demo.run Demo.migrated Demo.renewal Demo.renewalSteps).hist ∧
      (replay (S := team) Demo.migrated h).findAuthorizedDevice ⟨"till"⟩ contextId = some device := by
  have h := (device_lifecycle Demo.host 0 ⟨[Demo.desk, Demo.till], by decide⟩ Demo.migrated rfl
    Demo.renewal (Demo.run Demo.migrated Demo.renewal Demo.renewalSteps)
    (Demo.reachable (by decide))).2.2.2.2 3 _ _ ⟨"member"⟩ ⟨"till"⟩ rfl
    (Sys.answered_of_answer? (by decide))
  obtain ⟨h, contextId, device, hp, hd, -⟩ := h
  exact ⟨h, contextId, device, hp, hd⟩

end Bazar.Team
