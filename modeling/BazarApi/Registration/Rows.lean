import BazarApi.Registration.Requests

/- One request, seen through one commit. A commit that leaves a request alone leaves its row
   as it was; any other is one of five kinds (`Turn`). No turn makes a request hold the slot
   of the live index that did not hold it before. -/
namespace Bazar.Registration

open Txn Team

variable {host : Host} {d₀ d : Db} {reqs : List Request} {h : History registration}
variable {c : Commit registration} {id : Uuid} {x y : BusinessRegistrationRequest}

/-! Reading a request that a write leaves alone. -/

theorem RequestUpdate.apply_id (u : RequestUpdate) (x : BusinessRegistrationRequest) :
    Keyed.key (u.apply x) = Keyed.key x := rfl

theorem requests_apply_ne {w : Write} {k : Uuid} (h : w.key ≠ .request k) :
    (w.apply d).requests.find? k = d.requests.find? k := by
  cases w with
  | insertRequest r =>
    refine Table.find?_put_ne ?_
    rintro rfl
    exact h rfl
  | updateRequest id data =>
    refine Table.find?_modify_ne data.apply_id ?_
    rintro rfl
    exact h rfl
  | deleteRequest id =>
    refine Table.find?_erase_ne ?_
    rintro rfl
    exact h rfl
  | _ => rfl

/-- Several requests written with the same data, which it makes no difference to write twice. -/
theorem find?_updateAll {data : RequestUpdate} (hdata : ∀ x, data.apply (data.apply x) = data.apply x)
    (rows : List BusinessRegistrationRequest) (d : Db) :
    (applyAll (S := registration) d
        (rows.map fun x => Write.updateRequest x.id data)).requests.find? id =
      if id ∈ rows.map (·.id) then (d.requests.find? id).map data.apply else d.requests.find? id := by
  induction rows generalizing d with
  | nil => rfl
  | cons y rows ih =>
    rw [List.map_cons, applyAll_cons, ih]
    change (if _ then ((d.requests.modify y.id data.apply).find? id).map _
      else (d.requests.modify y.id data.apply).find? id) = _
    rw [Table.find?_modify data.apply_id, List.map_cons]
    by_cases hy : id = y.id
    · have htwice : ((d.requests.find? id).map data.apply).map data.apply =
          (d.requests.find? id).map data.apply := by
        cases d.requests.find? id with
        | none => rfl
        | some x => exact congrArg some (hdata x)
      rw [if_pos hy, ← hy, htwice, ite_self, if_pos List.mem_cons_self]
    · simp only [if_false, List.mem_cons, hy, false_or]

theorem find?_deleteAll (rows : List BusinessRegistrationRequest) (d : Db) :
    (applyAll (S := registration) d
        (rows.map fun x => Write.deleteRequest x.id)).requests.find? id =
      if id ∈ rows.map (·.id) then none else d.requests.find? id := by
  induction rows generalizing d with
  | nil => rfl
  | cons y rows ih =>
    rw [List.map_cons, applyAll_cons, ih]
    change (if _ then none else (d.requests.erase y.id).find? id) = _
    rw [List.map_cons]
    by_cases hy : id = y.id
    · rw [hy, Table.find?_erase_self, ite_self, if_pos List.mem_cons_self]
    · simp only [Table.find?_erase_ne hy, List.mem_cons, hy, false_or]

/-! One commit. -/

/-- What was there of a request that a commit leaves as the row given. -/
inductive Turn (host : Host) (reqs : List Request) (d : Db) (c : Commit registration) (id : Uuid) :
    Option BusinessRegistrationRequest → BusinessRegistrationRequest → Prop where
  | stay {x : BusinessRegistrationRequest} (hno : ∀ w ∈ c.writes, w.key ≠ .request id) :
    Turn host reqs d c id (some x) x
  | create {env : Env} {dto : CreateBusinessRegistrationDto}
    (hreq : reqs[c.pid]? = some (.create env dto))
    (hw : c.writes = [.insertRequest (newRequest host env dto (host.trimLower dto.correo))])
    (hid : env.serverId 0 = id)
    (hlock : (.liveCorreo (host.trimLower dto.correo), .update) ∈ c.locks)
    (hlive : ∀ k x, d.requests.find? k = some x → ¬ x.liveFor (host.trimLower dto.correo)) :
    Turn host reqs d c id none (newRequest host env dto (host.trimLower dto.correo))
  | resend {r : Request} {env : Env} {n : Nat} {x : BusinessRegistrationRequest}
    (hreq : reqs[c.pid]? = some r) (hr : r.resends = some env)
    (hw : c.writes = [.updateRequest id (reissuedLink host env n)])
    (hdue : mayResend env n x = true) :
    Turn host reqs d c id (some x) ((reissuedLink host env n).apply x)
  | verify {env : Env} {token : String} {x : BusinessRegistrationRequest}
    (hreq : reqs[c.pid]? = some (.verifyEmail env token))
    (hw : .updateRequest id (verification host env) ∈ c.writes)
    (hclaim : (verifyClaim (hashToken host token) (env.now 0)).holds x = true) :
    Turn host reqs d c id (some x) ((verification host env).apply x)
  | approve {env : Env} {token : String} {x : BusinessRegistrationRequest}
    (hreq : reqs[c.pid]? = some (.approve env token))
    (hw : .updateRequest id (approval env) ∈ c.writes) (hpending : x.status = .pendiente) :
    Turn host reqs d c id (some x) ((approval env).apply x)
  | reject {env : Env} {token : String} {x : BusinessRegistrationRequest}
    (hreq : reqs[c.pid]? = some (.reject env token))
    (hw : .updateRequest id (rejection env) ∈ c.writes) :
    Turn host reqs d c id (some x) ((rejection env).apply x)

/-- A single request written, then rows of other tables. -/
theorem find?_updateFirst {data : RequestUpdate} {ws : List Write}
    (hws : ∀ w ∈ ws, w.key ≠ .request id) :
    (applyAll (S := registration) d (.updateRequest id data :: ws)).requests.find? id =
      (d.requests.find? id).map data.apply := by
  rw [applyAll_cons]
  refine (applyAll_read_eq (S := registration) (fun v => v.requests.find? id) ?_ _).trans ?_
  · intro w hw d
    exact requests_apply_ne (hws w hw)
  · exact (Table.find?_modify data.apply_id id).trans (if_pos rfl)

/-- One commit, seen from one request that is there after it. -/
theorem Commits.turn (hc : Commits host d₀ reqs h c)
    (hx : (replay (S := registration) d₀ (h ++ [.commit c])).requests.find? id = some x) :
    Turn host reqs (replay (S := registration) d₀ h) c id
      ((replay (S := registration) d₀ h).requests.find? id) x := by
  obtain ⟨r, hreq, hw⟩ := hc
  rw [replay_committed] at hx
  by_cases hno : ∀ w ∈ c.writes, w.key ≠ .request id
  · rw [applyAll_read_eq (S := registration) (fun v => v.requests.find? id) fun w hw d =>
      requests_apply_ne (hno w hw)] at hx
    rw [hx]
    exact .stay hno
  push Not at hno
  obtain ⟨w, hmem, hkey⟩ := hno
  -- the row was there, and is as the data makes it
  have updated : ∀ {data : RequestUpdate}
      {P : Option BusinessRegistrationRequest → BusinessRegistrationRequest → Prop},
      ((replay (S := registration) d₀ h).requests.find? id).map data.apply = some x →
      (∀ y, (replay (S := registration) d₀ h).requests.find? id = some y →
        P (some y) (data.apply y)) →
      P ((replay (S := registration) d₀ h).requests.find? id) x := by
    intro data P hmap hP
    obtain ⟨y, hy, rfl⟩ := Option.map_eq_some_iff.mp hmap
    rw [hy]
    exact hP y hy
  rcases hw with hw | he
  · rw [hw] at hmem
    cases hmem
  generalize hws : c.writes = ws at he hx hmem
  cases he with
  | @created env dto hnew hlock hlive =>
    obtain rfl := List.mem_singleton.mp hmem
    obtain rfl : env.serverId 0 = id := Key.request.inj hkey
    change (Table.put _ (newRequest host env dto (host.trimLower dto.correo))).find? _ = _ at hx
    rw [show env.serverId 0 = Keyed.key (newRequest host env dto (host.trimLower dto.correo)) from rfl,
      Table.find?_put_self] at hx
    cases hx
    rw [hnew]
    exact .create hreq hws rfl hlock hlive
  | @resent r env k row hr hrow hdue =>
    obtain rfl := List.mem_singleton.mp hmem
    obtain rfl : row.id = id := Key.request.inj hkey
    rw [find?_updateFirst (by simp)] at hx
    refine updated hx fun y hy => ?_
    cases hrow.symm.trans hy
    exact .resend hreq hr hws hdue
  | @verified env token rows hrows =>
    obtain ⟨row, hrow, rfl⟩ := List.mem_map.mp hmem
    obtain rfl : row.id = id := Key.request.inj hkey
    rw [find?_updateAll (fun x => by simp [RequestUpdate.apply, verification]) rows,
      if_pos (List.mem_map_of_mem hrow)] at hx
    refine updated hx fun y hy => ?_
    obtain ⟨hfind, hholds⟩ := hrows row hrow
    cases hfind.symm.trans hy
    exact .verify hreq (by rw [hws]; exact hmem) hholds
  | @approved env token username read row correo hrow hpending _ _ _ =>
    have hothers : ∀ k, ∀ w ∈ newBusiness host env read username ++ founderCorreo env correo,
        w.key ≠ .request k := by
      intro k w hw
      cases correo <;> simp [newBusiness, founderCorreo] at hw <;>
        rcases hw with rfl | rfl | rfl | rfl <;> exact Key.noConfusion
    rcases List.mem_cons.mp hmem with rfl | hmem
    · obtain rfl : read.id = id := Key.request.inj hkey
      rw [find?_updateFirst (hothers _)] at hx
      refine updated hx fun y hy => ?_
      cases hrow.symm.trans hy
      exact .approve hreq (by rw [hws]; exact List.mem_cons_self) hpending
    · exact absurd hkey (hothers _ w hmem)
  | @rejected env token g g' read row he hfirst hread hpending hrow =>
    obtain rfl := List.mem_singleton.mp hmem
    obtain rfl : read.id = id := Key.request.inj hkey
    rw [find?_updateFirst (by simp)] at hx
    refine updated hx fun y hy => ?_
    exact .reject hreq (by rw [hws]; exact List.mem_cons_self)
  | @cleaned now batchSize take condition g g' rows hcat he hrows =>
    obtain ⟨row, hrow, rfl⟩ := List.mem_map.mp hmem
    obtain rfl : row.id = id := Key.request.inj hkey
    rw [find?_deleteAll, if_pos (List.mem_map_of_mem hrow)] at hx
    cases hx

/-- What every turn of a request in `n` keeps holds of it after `n`. -/
theorem Lawful.row_induct {n : History registration} {P : BusinessRegistrationRequest → Prop}
    (hl : Lawful (Commits host d₀ reqs) (h ++ n))
    (h0 : ∀ x, (replay (S := registration) d₀ h).requests.find? id = some x → P x)
    (hs : ∀ c d o y, .commit c ∈ n → Turn host reqs d c id o y → (∀ x, o = some x → P x) → P y) :
    ∀ x, (replay (S := registration) d₀ (h ++ n)).requests.find? id = some x → P x := by
  induction n using List.reverseRecOn with
  | nil => simpa using h0
  | append_singleton n e ih =>
    rw [← List.append_assoc] at hl ⊢
    have ih := ih hl.left fun c d o y hc => hs c d o y (List.mem_append_left _ hc)
    cases e with
    | exec j q =>
      rw [replay_sent]
      exact ih
    | commit c =>
      intro x hx
      exact hs c _ _ x (by simp) ((hl (h ++ n) c [] rfl).2.turn hx) ih

/-- A request that no write deletes stays there. -/
theorem find?_applyAll_present {ws : List Write} (hx : d.requests.find? id = some x)
    (hno : .deleteRequest id ∉ ws) :
    ∃ y, (applyAll (S := registration) d ws).requests.find? id = some y := by
  induction ws generalizing d x with
  | nil => exact ⟨x, hx⟩
  | cons w ws ih =>
    have hws : .deleteRequest id ∉ ws := fun h => hno (List.mem_cons_of_mem _ h)
    have hw : ∃ y, (Write.apply d w).requests.find? id = some y := by
      by_cases hk : w.key = .request id
      · cases w with
        | insertRequest row =>
          obtain rfl : row.id = id := Key.request.inj hk
          exact ⟨row, Table.find?_put_self⟩
        | updateRequest k data =>
          obtain rfl : k = id := Key.request.inj hk
          refine ⟨data.apply x, (Table.find?_modify data.apply_id k).trans ?_⟩
          rw [if_pos rfl, hx]
          rfl
        | deleteRequest k =>
          obtain rfl : k = id := Key.request.inj hk
          exact absurd List.mem_cons_self hno
        | _ => cases hk
      · exact ⟨x, (requests_apply_ne hk).trans hx⟩
    obtain ⟨y, hy⟩ := hw
    exact ih hy hws

/-- What every turn of a request in `n` keeps holds of it after `n`, while nothing deletes it. -/
theorem Lawful.row_stays {n : History registration} {P : BusinessRegistrationRequest → Prop}
    (hl : Lawful (Commits host d₀ reqs) (h ++ n))
    (h0 : ∃ x, (replay (S := registration) d₀ h).requests.find? id = some x ∧ P x)
    (hno : ∀ c, .commit c ∈ n → .deleteRequest id ∉ c.writes)
    (hs : ∀ c d x y, .commit c ∈ n → Turn host reqs d c id (some x) y → P x → P y) :
    ∃ x, (replay (S := registration) d₀ (h ++ n)).requests.find? id = some x ∧ P x := by
  induction n using List.reverseRecOn with
  | nil => simpa using h0
  | append_singleton n e ih =>
    rw [← List.append_assoc] at hl ⊢
    obtain ⟨x, hx, hp⟩ := ih hl.left (fun c hc => hno c (List.mem_append_left _ hc))
      fun c d x y hc => hs c d x y (List.mem_append_left _ hc)
    cases e with
    | exec j q =>
      rw [replay_sent]
      exact ⟨x, hx, hp⟩
    | commit c =>
      have hc := (hl (h ++ n) c [] rfl).2
      obtain ⟨y, hy⟩ := find?_applyAll_present hx (hno c (by simp))
      have hy : (replay (S := registration) d₀ (h ++ n ++ [.commit c])).requests.find? id = some y := by
        rw [replay_committed]
        exact hy
      have hturn := hc.turn hy
      rw [hx] at hturn
      exact ⟨y, hy, hs c _ x y (by simp) hturn hp⟩

/-- A request that holds the slot of the live index after a commit is new or held it before. -/
theorem Turn.live {correo : String} (ht : Turn host reqs d c id (some x) y)
    (hy : y.liveFor correo) : x.liveFor correo := by
  obtain ⟨hcorreo, hst, hne, hlegal⟩ := hy
  cases ht with
  | stay hno => exact ⟨hcorreo, hst, hne, hlegal⟩
  | resend hreq hr hw hdue => exact ⟨hcorreo, hst, hne, hlegal⟩
  | verify hreq hw hclaim =>
    refine ⟨hcorreo, ?_, hne, hlegal⟩
    rw [(of_decide_eq_true hclaim).2.1 _ rfl]
    exact Status.noConfusion
  | approve hreq hw hpending =>
    refine ⟨hcorreo, ?_, hne, hlegal⟩
    rw [hpending]
    exact Status.noConfusion
  | reject hreq hw => exact absurd rfl hst

/-- While its slot is locked, nobody takes the address. -/
theorem Later.no_live {i : Nat} {held : Locks Key} {h' : History registration} {correo : String}
    (hl : Later (S := registration) (Commits host d₀ reqs) i held h h')
    (hlock : (.liveCorreo correo, .update) ∈ held)
    (hno : ∀ k x, (replay (S := registration) d₀ h).requests.find? k = some x → ¬ x.liveFor correo) :
    ∀ k x, (replay (S := registration) d₀ h').requests.find? k = some x → ¬ x.liveFor correo := by
  refine hl.induct (S := registration) d₀
    (fun d => ∀ k x, d.requests.find? k = some x → ¬ x.liveFor correo) hno ?_
  intro h₁ c _ _ ih _ hapart _ hg k x hx hlive
  have hafter : (replay (S := registration) d₀ (h₁ ++ [.commit c])).requests.find? k = some x := by
    rw [replay_committed]
    exact hx
  have hturn := hg.turn hafter
  generalize hbefore : (replay (S := registration) d₀ h₁).requests.find? k = before at hturn
  cases before with
  | some y => exact ih k y hbefore (hturn.live hlive)
  | none =>
    cases hturn with
    | create hreq hw hid hlock' _ =>
      obtain rfl := hlive.1
      have hf := hapart _ hlock _ hlock' rfl
      cases hf

end Bazar.Registration
