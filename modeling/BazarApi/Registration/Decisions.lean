import BazarApi.Registration.Safe

/- The decision on a request. An approval claims its request on condition that it is still
   pending; a rejection checks that in its lookup only, in an earlier transaction, and then
   writes the request whatever it has become. So an approval that commits in between is
   overwritten: the request ends rejected although its business was created. Without that,
   a decision is final. -/
namespace Bazar.Registration

open Txn Team

variable {host : Host} {d₀ : Db} {reqs : List Request} {h n : History registration}
variable {c : Commit registration} {id : Uuid} {row : BusinessRegistrationRequest}

/-! Who decides, and what a decision creates. -/

/-- The commit wrote a new version of the request. -/
def Updates (c : Commit registration) (id : Uuid) : Prop :=
  ∃ data, Write.updateRequest id data ∈ c.writes

def Approves (reqs : List Request) (c : Commit registration) (id : Uuid) : Prop :=
  (∃ env token, reqs[c.pid]? = some (.approve env token)) ∧ Updates c id

def Rejects (reqs : List Request) (c : Commit registration) (id : Uuid) : Prop :=
  (∃ env token, reqs[c.pid]? = some (.reject env token)) ∧ Updates c id

def Write.updatesRequest (id : Uuid) : Write → Bool
  | .updateRequest k _ => k = id
  | _ => false

def Write.creates : Write → Bool
  | .insertMember _ => true
  | .insertDevice _ => true
  | .insertAccount _ => true
  | _ => false

/-- The rows written along with a new version of the request. -/
def createdWith (id : Uuid) (ws : List Write) : List Write :=
  if ws.any (Write.updatesRequest id) then ws.filter Write.creates else []

/-- What a request has created: the members, devices and accounts inserted by the commits
that wrote it. -/
def createdBy (h : History registration) (id : Uuid) : List Write :=
  h.flatMap fun e => createdWith id e.writes

/-- The business of an approved request: one context, and one member, one device and one
account in it. -/
def Founded (d₀ : Db) (h : History registration) (x : BusinessRegistrationRequest) : Prop :=
  ∃ contextId member device account correo, x.createdContextId = some contextId ∧
    createdBy h x.id = [.insertMember member, .insertDevice device, .insertAccount account] ∧
    member.contextId = contextId ∧ device.contextId = contextId ∧ account.contextId = contextId ∧
    (replay (S := registration) d₀ h).members.find? member.id = some { member with correo } ∧
    (replay (S := registration) d₀ h).devices.find? device.id = some device ∧
    (replay (S := registration) d₀ h).accounts.find? account.id = some account

/-- The request created nothing before the run. -/
def Untouched (d₀ : Db) (id : Uuid) : Prop :=
  ∀ x, d₀.requests.find? id = some x → x.status ≠ .aprobado ∧ x.createdContextId = none

/-- The commit makes a pending request approved, and writes no other one. -/
def Founds (d₀ : Db) (g : History registration) (c : Commit registration) (id : Uuid) : Prop :=
  Updates c id ∧ (∀ k, Updates c k → k = id) ∧
    (∃ x, (replay (S := registration) d₀ g).requests.find? id = some x ∧ x.status = .pendiente) ∧
    ∃ y, (replay (S := registration) d₀ (g ++ [.commit c])).requests.find? id = some y ∧
      y.status = .aprobado

/-- Decisions are final, what a request created agrees with its status, and nothing is created
but by the approval of a request. -/
structure Decided (d₀ : Db) (H : History registration) : Prop where
  approved_stays : ∀ g n id x, g ++ n <+: H →
    (replay (S := registration) d₀ g).requests.find? id = some x → x.status = .aprobado →
    ∃ y, (replay (S := registration) d₀ (g ++ n)).requests.find? id = some y ∧ y.status = .aprobado
  rejected_stays : ∀ g n id x, g ++ n <+: H →
    (replay (S := registration) d₀ g).requests.find? id = some x → x.status = .rechazado →
    ∃ y, (replay (S := registration) d₀ (g ++ n)).requests.find? id = some y ∧ y.status = .rechazado
  created : ∀ g id x, g <+: H → Untouched d₀ id →
    (replay (S := registration) d₀ g).requests.find? id = some x →
    (x.status = .rechazado → x.createdContextId = none ∧ createdBy g id = []) ∧
    (x.status = .aprobado → Founded d₀ g x)
  founds : ∀ g c n w, g ++ .commit c :: n = H → w ∈ c.writes → w.creates = true →
    ∃ id, Founds d₀ g c id

/-- A rejection commits after an approval of the same request that committed since the
rejection's first statement, its lookup. -/
def Overtaken (reqs : List Request) (H : History registration) : Prop :=
  ∃ g e g' c n id, H = g ++ e :: g' ++ .commit c :: n ∧ e.pid = c.pid ∧ (∀ x ∈ g, x.pid ≠ c.pid) ∧
    Rejects reqs c id ∧ ∃ c', Event.commit c' ∈ g' ∧ Approves reqs c' id

/-! One commit. -/

/-- What a commit makes of the row of a request that exists. -/
inductive Move (d₀ : Db) (reqs : List Request) (h : History registration)
    (c : Commit registration) (id : Uuid) (row : BusinessRegistrationRequest) :
    BusinessRegistrationRequest → Prop where
  | keep {row' : BusinessRegistrationRequest}
    (hst : row'.status = row.status ∨ (row.status = .pendienteCorreo ∧ row'.status = .pendiente))
    (hctx : row'.createdContextId = row.createdContextId) (hnew : createdWith id c.writes = []) :
    Move d₀ reqs h c id row row'
  | approve {env : Env} (ha : Approves reqs c id) (hst : row.status = .pendiente)
    (hf : createdBy h id = [] →
      Founded d₀ (h ++ [.commit c]) ((approval env).apply row)) :
    Move d₀ reqs h c id row ((approval env).apply row)
  | reject {env : Env} (hr : Rejects reqs c id) (hnew : createdWith id c.writes = [])
    (hread : ∃ g e g' read, h = g ++ e :: g' ∧ e.pid = c.pid ∧ (∀ x ∈ g, x.pid ≠ c.pid) ∧
      (replay (S := registration) d₀ g).requests.find? id = some read ∧ read.status = .pendiente) :
    Move d₀ reqs h c id row ((rejection env).apply row)

theorem find?_updateRequest {d : Db} {data : RequestUpdate} {k : Uuid}
    (hrow : d.requests.find? id = some row) :
    (d.requests.modify k data.apply).find? id = some (if id = k then data.apply row else row) := by
  rw [Table.find?_modify data.apply_id]
  split
  · rename_i hk
    rw [← hk, hrow]
    rfl
  · exact hrow

theorem find?_updateRequest_none {d : Db} {data : RequestUpdate} {k : Uuid}
    (hnone : d.requests.find? id = none) : (d.requests.modify k data.apply).find? id = none := by
  rw [Table.find?_modify data.apply_id]
  split
  · rename_i hk
    rw [← hk, hnone]
    rfl
  · exact hnone

/-- Several requests written with the same data. -/
theorem find?_updateRequests {d : Db} {data : RequestUpdate} {status : Status}
    (hst : data.status = some status) (hctx : data.createdContextId = none)
    (rows : List BusinessRegistrationRequest) (hrow : d.requests.find? id = some row) :
    ∃ row', (applyAll (S := registration) d
        (rows.map fun x => Write.updateRequest x.id data)).requests.find? id = some row' ∧
      row'.createdContextId = row.createdContextId ∧
      (row'.status = row.status ∨ ((∃ x ∈ rows, x.id = id) ∧ row'.status = status)) := by
  induction rows generalizing d row with
  | nil => exact ⟨row, hrow, rfl, .inl rfl⟩
  | cons x rows ih =>
    have happly : (data.apply row).status = status ∧
        (data.apply row).createdContextId = row.createdContextId := by
      simp only [RequestUpdate.apply, hst, hctx]
      exact ⟨rfl, rfl⟩
    obtain ⟨row', hrow', hctx', hst'⟩ := ih (d := Write.apply d (.updateRequest x.id data))
      (find?_updateRequest hrow)
    refine ⟨row', hrow', ?_, ?_⟩
    · rw [hctx']
      split
      · exact happly.2
      · rfl
    · split at hst'
      · rename_i hk
        refine .inr ⟨⟨x, List.mem_cons_self, hk.symm⟩, ?_⟩
        rcases hst' with hst' | ⟨-, hst'⟩
        · rw [hst', happly.1]
        · exact hst'
      · rcases hst' with hst' | ⟨⟨y, hy, hid⟩, hst'⟩
        · exact .inl hst'
        · exact .inr ⟨⟨y, List.mem_cons_of_mem _ hy, hid⟩, hst'⟩

theorem createdBy_append (h n : History registration) (id : Uuid) :
    createdBy (h ++ n) id = createdBy h id ++ createdBy n id := List.flatMap_append

theorem createdBy_commit (h : History registration) (c : Commit registration) (id : Uuid) :
    createdBy (h ++ [.commit c]) id = createdBy h id ++ createdWith id c.writes := by
  rw [createdBy_append]
  exact congrArg _ (List.append_nil _)

/-- No cleanup among the requests. -/
def KeepsRequests (reqs : List Request) : Prop := ∀ now batchSize, .runBatch now batchSize ∉ reqs

/-- The rows an approval creates with its request. -/
theorem createdWith_approval {env : Env} {read : BusinessRegistrationRequest} {username : String}
    {correo : Option String} (k : Uuid) :
    createdWith k (.updateRequest read.id (approval env) ::
        (newBusiness host env read username ++ founderCorreo env correo)) =
      if read.id = k then newBusiness host env read username else [] := by
  have hcorreo : (founderCorreo env correo).any (Write.updatesRequest k) = false ∧
      (founderCorreo env correo).filter Write.creates = [] := by
    cases correo <;> exact ⟨rfl, rfl⟩
  unfold createdWith
  by_cases hk : read.id = k
  · simp only [hk, newBusiness, List.any_cons, Write.updatesRequest, decide_true, Bool.true_or,
      if_true, List.filter_cons, Write.creates, List.cons_append, List.nil_append, hcorreo.2,
      Bool.false_eq_true, if_false]
  · simp only [hk, newBusiness, List.any_cons, Write.updatesRequest, decide_false, Bool.false_or,
      List.cons_append, List.nil_append, hcorreo.1, Bool.false_eq_true, if_false]

/-- Writes of requests only create nothing. -/
theorem createdWith_eq_nil {ws : List Write} (hw : ∀ w ∈ ws, w.creates = false) (k : Uuid) :
    createdWith k ws = [] := by
  unfold createdWith
  split
  · rw [List.filter_eq_nil_iff]
    intro w hm hc
    rw [hw w hm] at hc
    cases hc
  · rfl

/-- The tables an approval leaves, seen at the rows it wrote. -/
theorem founded_approval {env : Env} {read : BusinessRegistrationRequest} {username : String}
    {correo : Option String} (hid : read.id = id) (hrow : row.id = id)
    (hw : c.writes = .updateRequest read.id (approval env) ::
      (newBusiness host env read username ++ founderCorreo env correo))
    (hnone : createdBy h id = []) :
    Founded d₀ (h ++ [.commit c]) ((approval env).apply row) := by
  subst hid
  have hwith : createdBy (h ++ [.commit c]) read.id = newBusiness host env read username := by
    rw [createdBy_commit, hnone, hw, createdWith_approval, if_pos rfl, List.nil_append]
  refine ⟨_, founder host env read, initialDevice env, initialAccount env username, correo, rfl, ?_,
    rfl, rfl, rfl, ?_, ?_, ?_⟩
  · exact (congrArg _ hrow).trans hwith
  · rw [replay_committed, hw]
    cases correo with
    | none => exact Table.find?_put_self
    | some s =>
      refine (Table.find?_modify (f := fun m : Member => { m with correo := some s })
        (fun _ => rfl) _).trans ?_
      refine (if_pos rfl).trans ?_
      exact congrArg (Option.map _) Table.find?_put_self
  · rw [replay_committed, hw]
    cases correo <;> exact Table.find?_put_self
  · rw [replay_committed, hw]
    cases correo <;> exact Table.find?_put_self

section
variable (hno : KeepsRequests reqs) (hc : Commits host d₀ reqs h c)
include hno hc

/-- One commit, seen from one request. -/
theorem Commits.move (hrow : (replay (S := registration) d₀ h).requests.find? id = some row) :
    ∃ row', (replay (S := registration) d₀ (h ++ [.commit c])).requests.find? id = some row' ∧
      Move d₀ reqs h c id row row' := by
  obtain ⟨r, hreq, hw⟩ := hc
  have hid : row.id = id := Table.find?_key hrow
  rw [replay_committed]
  rcases hw with hw | he
  · rw [hw]
    exact ⟨row, hrow, .keep (.inl rfl) rfl (by rw [hw]; rfl)⟩
  generalize hws : c.writes = ws at he
  have hupdates : ∀ {k data rest}, ws = .updateRequest k data :: rest → Updates c k := by
    rintro k data rest rfl
    exact ⟨data, by rw [hws]; exact List.mem_cons_self⟩
  cases he with
  | @created env dto hnew _ _ =>
    have hne : id ≠ Keyed.key (newRequest host env dto (host.trimLower dto.correo)) := by
      rintro rfl
      cases hnew.symm.trans hrow
    refine ⟨row, (Table.find?_put_ne hne).trans hrow, .keep (.inl rfl) rfl ?_⟩
    rw [hws]
    rfl
  | resent hr hrow' hdue =>
    refine ⟨_, find?_updateRequest hrow, .keep ?_ ?_ ?_⟩
    · split <;> exact .inl rfl
    · split <;> rfl
    · rw [hws]
      exact createdWith_eq_nil (by simp [Write.creates]) _
  | @verified env token rows hrows =>
    obtain ⟨row', hrow', hctx, hst⟩ := find?_updateRequests
      (show (verification host env).status = some .pendiente from rfl) rfl
      rows hrow
    refine ⟨row', hrow', .keep ?_ hctx ?_⟩
    · refine hst.imp_right ?_
      rintro ⟨⟨x, hx, rfl⟩, hpending⟩
      obtain ⟨hfind, hholds⟩ := hrows x hx
      cases hrow.symm.trans hfind
      exact ⟨(of_decide_eq_true hholds).2.1 _ rfl, hpending⟩
    · rw [hws]
      exact createdWith_eq_nil (by simp [Write.creates]) _
  | @approved env token username read row₁ correo hrow₁ hpending _ _ _ =>
    have happly : (applyAll (S := registration) (replay (S := registration) d₀ h)
        (.updateRequest read.id (approval env) ::
          (newBusiness host env read username ++ founderCorreo env correo))).requests.find? id =
        some (if id = read.id then (approval env).apply row else row) := by
      cases correo <;> exact find?_updateRequest hrow
    refine ⟨_, happly, ?_⟩
    split
    · rename_i hk
      subst hk
      cases hrow.symm.trans hrow₁
      exact .approve ⟨⟨_, _, hreq⟩, hupdates rfl⟩ hpending (founded_approval rfl hid hws)
    · rename_i hk
      refine .keep (.inl rfl) rfl ?_
      rw [hws, createdWith_approval, if_neg (Ne.symm hk)]
  | @rejected env token g g' read row₁ he hfirst hread hpending hrow₁ =>
    refine ⟨_, find?_updateRequest hrow, ?_⟩
    have hnew : createdWith id c.writes = [] := by
      rw [hws]
      exact createdWith_eq_nil (by simp [Write.creates]) _
    split
    · rename_i hk
      subst hk
      exact .reject ⟨⟨_, _, hreq⟩, hupdates rfl⟩ hnew ⟨g, _, g', read, he, rfl, hfirst,
        Table.find?_of_mem (List.mem_of_find?_eq_some hread), hpending⟩
    · exact .keep (.inl rfl) rfl hnew
  | cleaned _ _ _ => exact absurd (List.mem_of_getElem? hreq) (hno _ _)

/-- A request that was not there has created nothing, and is a new one if it is there. -/
theorem Commits.born (hnone : (replay (S := registration) d₀ h).requests.find? id = none) :
    createdWith id c.writes = [] ∧
      ∀ x, (replay (S := registration) d₀ (h ++ [.commit c])).requests.find? id = some x →
        x.status = .pendienteCorreo ∧ x.createdContextId = none := by
  obtain ⟨r, hreq, hw⟩ := hc
  rw [replay_committed]
  rcases hw with hw | he
  · rw [hw]
    refine ⟨rfl, ?_⟩
    intro x hx
    cases hnone.symm.trans hx
  generalize c.writes = ws at he
  cases he with
  | @created env dto hnew _ _ =>
    refine ⟨rfl, ?_⟩
    intro x hx
    change (Table.put _ (newRequest host env dto (host.trimLower dto.correo))).find? id = _ at hx
    rw [Table.find?_put] at hx
    split at hx
    · cases hx
      exact ⟨rfl, rfl⟩
    · cases hnone.symm.trans hx
  | resent _ _ _ =>
    refine ⟨createdWith_eq_nil (by simp [Write.creates]) _, ?_⟩
    intro x hx
    cases (find?_updateRequest_none hnone).symm.trans hx
  | @verified env token rows hrows =>
    refine ⟨createdWith_eq_nil (by simp [Write.creates]) _, ?_⟩
    intro x hx
    have hnone' : (applyAll (S := registration) (replay (S := registration) d₀ h) (rows.map fun x =>
        Write.updateRequest x.id (verification host env))).requests.find? id = none := by
      refine (applyAll_read_eq (S := registration) (fun v => v.requests.find? id) ?_ _).trans hnone
      intro w hw d
      obtain ⟨y, hy, rfl⟩ := List.mem_map.mp hw
      refine requests_apply_ne ?_
      intro hk
      cases hk
      cases hnone.symm.trans (hrows y hy).1
    cases hnone'.symm.trans hx
  | @approved env token username read row correo hrow _ _ _ _ =>
    have hne : read.id ≠ id := by
      rintro rfl
      cases hnone.symm.trans hrow
    refine ⟨by rw [createdWith_approval, if_neg hne], ?_⟩
    intro x hx
    have hnone' : (applyAll (S := registration) (replay (S := registration) d₀ h)
        (.updateRequest read.id (approval env) ::
          (newBusiness host env read username ++ founderCorreo env correo))).requests.find? id =
        none := by
      cases correo <;> exact find?_updateRequest_none hnone
    cases hnone'.symm.trans hx
  | rejected _ _ _ _ _ =>
    refine ⟨createdWith_eq_nil (by simp [Write.creates]) _, ?_⟩
    intro x hx
    cases (find?_updateRequest_none hnone).symm.trans hx
  | cleaned _ _ _ => exact absurd (List.mem_of_getElem? hreq) (hno _ _)

omit hno in
/-- Who creates anything approves a pending request. -/
theorem Commits.founds {w : Write} (hm : w ∈ c.writes) (hw : w.creates = true) :
    ∃ id, Founds d₀ h c id := by
  obtain ⟨r, hreq, hnil | he⟩ := hc
  · rw [hnil] at hm
    cases hm
  generalize hws : c.writes = ws at he hm
  cases he with
  | created _ _ _ =>
    cases List.mem_singleton.mp hm
    cases hw
  | resent _ _ _ =>
    cases List.mem_singleton.mp hm
    cases hw
  | verified _ =>
    obtain ⟨x, -, rfl⟩ := List.mem_map.mp hm
    cases hw
  | @approved env token username read row correo hrow hpending _ _ _ =>
    have happly : (applyAll (S := registration) (replay (S := registration) d₀ h)
        (.updateRequest read.id (approval env) ::
          (newBusiness host env read username ++ founderCorreo env correo))).requests.find? read.id =
        some ((approval env).apply row) := by
      have hself : ((replay (S := registration) d₀ h).requests.modify read.id
          (approval env).apply).find? read.id = _ :=
        (find?_updateRequest hrow).trans (congrArg _ (if_pos rfl))
      cases correo <;> exact hself
    refine ⟨read.id, ⟨approval env, by rw [hws]; exact List.mem_cons_self⟩, ?_,
      ⟨row, hrow, hpending⟩, (approval env).apply row, ?_, rfl⟩
    · rintro k ⟨data, hk⟩
      rw [hws] at hk
      rcases List.mem_cons.mp hk with he | hk
      · cases he
        rfl
      · simp [newBusiness, founderCorreo] at hk
    · rw [replay_committed, hws]
      exact happly
  | rejected _ _ _ _ _ =>
    cases List.mem_singleton.mp hm
    cases hw
  | cleaned _ _ _ =>
    obtain ⟨x, -, rfl⟩ := List.mem_map.mp hm
    cases hw

omit hno in
/-- Members, devices and accounts are only written when they are new. -/
theorem Commits.new_rows : ∀ w ∈ c.writes,
    (∀ k, w.key = .member k → (replay (S := registration) d₀ h).members.find? k = none) ∧
    (∀ k, w.key = .device k → (replay (S := registration) d₀ h).devices.find? k = none) ∧
    ∀ k, w.key = .account k → (replay (S := registration) d₀ h).accounts.find? k = none := by
  have hrequest : ∀ {w : Write} {id}, w.key = .request id →
      (∀ k, w.key = .member k → (replay (S := registration) d₀ h).members.find? k = none) ∧
      (∀ k, w.key = .device k → (replay (S := registration) d₀ h).devices.find? k = none) ∧
      ∀ k, w.key = .account k → (replay (S := registration) d₀ h).accounts.find? k = none := by
    intro w id hk
    rw [hk]
    refine ⟨?_, ?_, ?_⟩ <;> intro _ h <;> cases h
  obtain ⟨r, hreq, hw⟩ := hc
  intro w hwm
  rcases hw with hw | he
  · rw [hw] at hwm
    cases hwm
  generalize c.writes = ws at he hwm
  cases he with
  | created _ _ _ =>
    cases List.mem_singleton.mp hwm
    exact hrequest rfl
  | resent _ _ _ =>
    cases List.mem_singleton.mp hwm
    exact hrequest rfl
  | verified _ =>
    obtain ⟨x, -, rfl⟩ := List.mem_map.mp hwm
    exact hrequest rfl
  | approved _ _ hmember hdevice haccount =>
    rcases List.mem_cons.mp hwm with rfl | hwm
    · exact hrequest rfl
    rcases List.mem_append.mp hwm with hwm | hwm
    · simp only [newBusiness, List.mem_cons, List.not_mem_nil, or_false] at hwm
      rcases hwm with rfl | rfl | rfl
      · refine ⟨?_, ?_, ?_⟩ <;> intro k hk <;> cases hk
        exact hmember
      · refine ⟨?_, ?_, ?_⟩ <;> intro k hk <;> cases hk
        exact hdevice
      · refine ⟨?_, ?_, ?_⟩ <;> intro k hk <;> cases hk
        exact haccount
    · obtain ⟨s, -, rfl⟩ := List.mem_map.mp hwm
      refine ⟨?_, ?_, ?_⟩ <;> intro k hk <;> cases hk
      exact hmember
  | rejected _ _ _ _ _ =>
    cases List.mem_singleton.mp hwm
    exact hrequest rfl
  | cleaned _ _ _ =>
    obtain ⟨x, -, rfl⟩ := List.mem_map.mp hwm
    exact hrequest rfl

omit hno in
/-- The business of a request stays as it was founded. -/
theorem Commits.founded {row' : BusinessRegistrationRequest} (hf : Founded d₀ h row)
    (hid : row'.id = row.id) (hctx' : row'.createdContextId = row.createdContextId)
    (hnew : createdWith row.id c.writes = []) : Founded d₀ (h ++ [.commit c]) row' := by
  obtain ⟨contextId, member, device, account, correo, hctx, hby, hm, hd, ha, hmember, hdevice,
    haccount⟩ := hf
  have hnew_rows := hc.new_rows
  refine ⟨contextId, member, device, account, correo, hctx'.trans hctx, ?_, hm, hd, ha, ?_, ?_, ?_⟩
  · rw [hid, createdBy_commit, hby, hnew, List.append_nil]
  all_goals rw [replay_committed]
  · refine (applyAll_read_eq (S := registration) (fun v => v.members.find? member.id) ?_ _).trans
      hmember
    intro w hw d
    refine members_apply_ne fun hk => ?_
    cases hmember.symm.trans ((hnew_rows w hw).1 _ hk)
  · refine (applyAll_read_eq (S := registration) (fun v => v.devices.find? device.id) ?_ _).trans
      hdevice
    intro w hw d
    refine devices_apply_ne fun hk => ?_
    cases hdevice.symm.trans ((hnew_rows w hw).2.1 _ hk)
  · refine (applyAll_read_eq (S := registration) (fun v => v.accounts.find? account.id) ?_ _).trans
      haccount
    intro w hw d
    refine accounts_apply_ne fun hk => ?_
    cases haccount.symm.trans ((hnew_rows w hw).2.2 _ hk)

omit hno in
/-- After an approval commits, its request is approved. -/
theorem Commits.approves (ha : Approves reqs c id) :
    ∃ x, (replay (S := registration) d₀ (h ++ [.commit c])).requests.find? id = some x ∧
      x.status = .aprobado := by
  obtain ⟨⟨env, token, hreq⟩, data, hm⟩ := ha
  obtain ⟨r, hreq', hw⟩ := hc
  cases hreq.symm.trans hreq'
  rw [replay_committed]
  rcases hw with hw | he
  · rw [hw] at hm
    cases hm
  generalize c.writes = ws at he hm
  cases he with
  | resent hr _ _ => cases hr
  | @approved _ _ username read row correo hrow hpending _ _ _ =>
    have hid : id = read.id := by
      rcases List.mem_cons.mp hm with he | hm
      · cases he
        rfl
      · simp [newBusiness, founderCorreo] at hm
    subst hid
    refine ⟨(approval env).apply row, ?_, rfl⟩
    have happly : ((replay (S := registration) d₀ h).requests.modify read.id
        (approval env).apply).find? read.id = some ((approval env).apply row) :=
      (find?_updateRequest hrow).trans (congrArg _ (if_pos rfl))
    cases correo <;> exact happly

omit hno in
/-- After a rejection commits, its request is rejected. -/
theorem Commits.rejects (hr : Rejects reqs c id) :
    ∃ x, (replay (S := registration) d₀ (h ++ [.commit c])).requests.find? id = some x ∧
      x.status = .rechazado := by
  obtain ⟨⟨env, token, hreq⟩, data, hm⟩ := hr
  obtain ⟨r, hreq', hw⟩ := hc
  cases hreq.symm.trans hreq'
  rw [replay_committed]
  rcases hw with hw | he
  · rw [hw] at hm
    cases hm
  generalize c.writes = ws at he hm
  cases he with
  | resent hr _ _ => cases hr
  | rejected _ _ _ _ hrow =>
    cases List.mem_singleton.mp hm
    refine ⟨_, find?_updateRequest hrow, ?_⟩
    rw [if_pos rfl]
    rfl

end

/-! Runs. -/

section
variable (hno : KeepsRequests reqs)
include hno

/-- A request stays in its table. -/
theorem Lawful.request_kept (hl : Lawful (Commits host d₀ reqs) (h ++ n))
    (hrow : (replay (S := registration) d₀ h).requests.find? id = some row) :
    ∃ row', (replay (S := registration) d₀ (h ++ n)).requests.find? id = some row' := by
  refine Lawful.keep (S := registration) d₀ (fun v => ∃ row', v.requests.find? id = some row') hl
    (List.prefix_append _ _) ⟨row, hrow⟩ ?_
  rintro h₁ c - - ⟨row₁, h₁row⟩ - hc
  obtain ⟨row', hrow', -⟩ := hc.move hno h₁row
  rw [replay_committed] at hrow'
  exact ⟨row', hrow'⟩

/-- What held of a request and holds no more, some commit in between ended by a move. -/
theorem crossing (P : BusinessRegistrationRequest → Prop)
    (hl : Lawful (Commits host d₀ reqs) (h ++ n))
    (hrow : (replay (S := registration) d₀ h).requests.find? id = some row) (hP : P row)
    {last : BusinessRegistrationRequest}
    (hlast : (replay (S := registration) d₀ (h ++ n)).requests.find? id = some last)
    (hn : ¬ P last) :
    ∃ g c g' x y, n = g ++ .commit c :: g' ∧
      (replay (S := registration) d₀ (h ++ g)).requests.find? id = some x ∧ P x ∧ ¬ P y ∧
      Move d₀ reqs (h ++ g) c id x y := by
  obtain ⟨g, c, g', rfl, ⟨x, hx, hPx⟩, hend⟩ :=
    replay_crossing (S := registration) (fun v => ∃ x, v.requests.find? id = some x ∧ P x)
      ⟨row, hrow, hP⟩ (n := n) (by
        rintro ⟨x, hx, hPx⟩
        cases hlast.symm.trans hx
        exact hn hPx)
  have hc := (hl (h ++ g) c g' (List.append_assoc _ _ _).symm).2
  obtain ⟨y, hy, hm⟩ := hc.move hno hx
  exact ⟨g, c, g', x, y, rfl, hx, hPx, fun hPy => hend ⟨y, hy, hPy⟩, hm⟩

/-- A request that becomes approved, an approval made so. -/
theorem Lawful.approved_by (hl : Lawful (Commits host d₀ reqs) (h ++ n))
    (hrow : (replay (S := registration) d₀ h).requests.find? id = some row)
    (hst : row.status ≠ .aprobado) {last : BusinessRegistrationRequest}
    (hlast : (replay (S := registration) d₀ (h ++ n)).requests.find? id = some last)
    (happroved : last.status = .aprobado) : ∃ c, Event.commit c ∈ n ∧ Approves reqs c id := by
  obtain ⟨g, c, g', x, y, rfl, -, hx, hy, hm⟩ :=
    crossing hno (fun x => x.status ≠ .aprobado) hl hrow hst hlast (not_not.mpr happroved)
  cases hm with
  | keep hkeep _ _ =>
    rw [not_not] at hy
    rcases hkeep with he | ⟨-, he⟩
    · exact absurd (he.symm.trans hy) hx
    · cases he.symm.trans hy
  | approve ha _ _ => exact ⟨c, by simp, ha⟩
  | reject _ _ _ => exact absurd (fun h => by cases h) hy

/-- A rejection that finds its request approved was overtaken. -/
theorem Move.overtaken {y : BusinessRegistrationRequest} {m : History registration}
    (hl : Lawful (Commits host d₀ reqs) h)
    (hrow : (replay (S := registration) d₀ h).requests.find? id = some row)
    (hst : row.status = .aprobado) (hm : Move d₀ reqs h c id row y) (hy : y.status ≠ .aprobado) :
    Overtaken reqs (h ++ .commit c :: m) := by
  cases hm with
  | keep hkeep _ _ =>
    rcases hkeep with he | ⟨he, -⟩
    · exact absurd (he.trans hst) hy
    · cases he.symm.trans hst
  | approve _ hpending _ => cases hpending.symm.trans hst
  | reject hr _ hread =>
    obtain ⟨g, e, g', read, rfl, hpid, hfirst, hfind, hpending⟩ := hread
    obtain ⟨c', hc', ha⟩ := Lawful.approved_by hno hl hfind (by rw [hpending]; decide) hrow hst
    refine ⟨g, e, g', c, m, id, rfl, hpid, hfirst, hr, c', ?_, ha⟩
    rcases List.mem_cons.mp hc' with he | hc'
    · -- the first statement itself is no approval of anybody
      subst he
      obtain ⟨⟨env, token, hreq⟩, -⟩ := hr
      obtain ⟨⟨env', token', hreq'⟩, -⟩ := ha
      change c'.pid = c.pid at hpid
      rw [hpid, hreq] at hreq'
      cases hreq'
    · exact hc'

theorem Lawful.approved_stays (hl : Lawful (Commits host d₀ reqs) (h ++ n))
    (hov : ¬ Overtaken reqs (h ++ n))
    (hrow : (replay (S := registration) d₀ h).requests.find? id = some row)
    (hst : row.status = .aprobado) :
    ∃ y, (replay (S := registration) d₀ (h ++ n)).requests.find? id = some y ∧
      y.status = .aprobado := by
  obtain ⟨last, hlast⟩ := Lawful.request_kept hno hl hrow
  refine ⟨last, hlast, ?_⟩
  by_contra hne
  obtain ⟨g, c, g', x, y, rfl, hx, hxs, hys, hm⟩ :=
    crossing hno (fun x => x.status = .aprobado) hl hrow hst hlast hne
  rw [← List.append_assoc] at hl hov
  exact hov (hm.overtaken hno hl.left hx hxs hys)

theorem Lawful.rejected_stays (hl : Lawful (Commits host d₀ reqs) (h ++ n))
    (hrow : (replay (S := registration) d₀ h).requests.find? id = some row)
    (hst : row.status = .rechazado) :
    ∃ y, (replay (S := registration) d₀ (h ++ n)).requests.find? id = some y ∧
      y.status = .rechazado := by
  obtain ⟨last, hlast⟩ := Lawful.request_kept hno hl hrow
  refine ⟨last, hlast, ?_⟩
  by_contra hne
  obtain ⟨g, c, g', x, y, -, -, hxs, hys, hm⟩ :=
    crossing hno (fun x => x.status = .rechazado) hl hrow hst hlast hne
  cases hm with
  | keep hkeep _ _ =>
    rcases hkeep with he | ⟨he, -⟩
    · exact hys (he.trans hxs)
    · cases he.symm.trans hxs
  | approve _ hpending _ => cases hpending.symm.trans hxs
  | reject _ _ _ => exact hys rfl

omit hno in
theorem Overtaken.append (ho : Overtaken reqs h) (n : History registration) :
    Overtaken reqs (h ++ n) := by
  obtain ⟨g, e, g', c, m, id, rfl, hrest⟩ := ho
  exact ⟨g, e, g', c, m ++ n, id, by simp, hrest⟩

/-- A request that is not approved has created nothing, an approved one its business. -/
theorem Lawful.consistent (hl : Lawful (Commits host d₀ reqs) h) (hu : Untouched d₀ id)
    (hov : ¬ Overtaken reqs h) :
    ((replay (S := registration) d₀ h).requests.find? id = none → createdBy h id = []) ∧
    ∀ x, (replay (S := registration) d₀ h).requests.find? id = some x →
      (x.status ≠ .aprobado → x.createdContextId = none ∧ createdBy h id = []) ∧
      (x.status = .aprobado → Founded d₀ h x) := by
  revert hov
  refine Lawful.history_induct (P := fun h => ¬ Overtaken reqs h →
    ((replay (S := registration) d₀ h).requests.find? id = none → createdBy h id = []) ∧
    ∀ x, (replay (S := registration) d₀ h).requests.find? id = some x →
      (x.status ≠ .aprobado → x.createdContextId = none ∧ createdBy h id = []) ∧
      (x.status = .aprobado → Founded d₀ h x)) ?_ ?_ ?_ hl
  · intro _
    refine ⟨fun _ => rfl, ?_⟩
    intro x hx
    obtain ⟨hst, hctx⟩ := hu x hx
    exact ⟨fun _ => ⟨hctx, rfl⟩, fun ha => absurd ha hst⟩
  · intro h i q ih hov
    have ih := ih fun ho => hov (ho.append _)
    have hby : ∀ k, createdBy (h ++ [.exec i q]) k = createdBy h k := by
      intro k
      rw [createdBy_append]
      exact List.append_nil _
    unfold Founded at ih ⊢
    simp only [hby, replay_sent]
    exact ih
  · intro h c hl ih _ hc hov
    have ih := ih fun ho => hov (ho.append _)
    cases hold : (replay (S := registration) d₀ h).requests.find? id with
    | none =>
      obtain ⟨hnew, hborn⟩ := hc.born hno hold
      have hby : createdBy (h ++ [.commit c]) id = [] := by
        rw [createdBy_commit, ih.1 hold, hnew]
        rfl
      refine ⟨fun _ => hby, ?_⟩
      intro x hx
      obtain ⟨hst, hctx⟩ := hborn x hx
      exact ⟨fun _ => ⟨hctx, hby⟩, fun ha => by cases hst.symm.trans ha⟩
    | some row =>
      obtain ⟨hundecided, hfounded⟩ := ih.2 row hold
      obtain ⟨row', hrow', hm⟩ := hc.move hno hold
      have hid : row.id = id := Table.find?_key hold
      rw [hrow']
      refine ⟨fun hnone => (by cases hnone), ?_⟩
      rintro x ⟨⟩
      by_cases hst : row.status = .aprobado
      · -- an approved request is only kept
        have hlast : row'.status = .aprobado := by
          by_contra hne
          exact hov (hm.overtaken hno hl.left hold hst hne)
        refine ⟨fun hne => absurd hlast hne, fun _ => ?_⟩
        cases hm with
        | keep _ hctx hnew =>
          exact hc.founded (hfounded hst) ((Table.find?_key hrow').trans hid.symm) hctx
            (by rw [hid]; exact hnew)
        | approve _ hpending _ => cases hpending.symm.trans hst
        | reject _ _ _ => cases hlast
      · obtain ⟨hctx, hnil⟩ := hundecided hst
        cases hm with
        | keep hkeep hctx' hnew =>
          refine ⟨fun _ => ⟨hctx'.trans hctx, ?_⟩, ?_⟩
          · rw [createdBy_commit, hnil, hnew]
            rfl
          · intro ha
            rcases hkeep with he | ⟨-, he⟩
            · exact absurd (he.symm.trans ha) hst
            · cases he.symm.trans ha
        | approve _ _ hf => exact ⟨fun hne => absurd rfl hne, fun _ => hf hnil⟩
        | reject _ hnew _ =>
          refine ⟨fun _ => ⟨hctx, ?_⟩, fun happroved => by cases happroved⟩
          rw [createdBy_commit, hnil, hnew]
          rfl

end

/-- The decision on a request is final, a rejected request has created nothing and an
approved one exactly its business, if and only if no rejection commits after an approval of
its request that committed since the rejection's lookup. -/
theorem decided_iff (host : Host) (d₀ : Db) (reqs : List Request) (s : Sys registration Answer)
    (hno : KeepsRequests reqs) (hr : Reachable host d₀ reqs s) :
    Decided d₀ s.hist ↔ ¬ Overtaken reqs s.hist := by
  have hl := hr.lawful
  constructor
  · rintro hd ⟨g, e, g', c, m, id, he, -, -, hrej, c', hc', happ⟩
    obtain ⟨a, b, rfl⟩ := List.append_of_mem hc'
    have happroved := (hl (g ++ e :: a) c' (b ++ .commit c :: m) (by rw [he]; simp)).2.approves happ
    have hrejected := (hl (g ++ e :: (a ++ .commit c' :: b)) c m he).2.rejects hrej
    obtain ⟨x, hx, hst⟩ := happroved
    obtain ⟨z, hz, hzst⟩ := hrejected
    obtain ⟨y, hy, hyst⟩ := hd.approved_stays (g ++ e :: a ++ [.commit c']) (b ++ [.commit c]) id x
      ⟨m, by rw [he]; simp⟩ hx hst
    have hsame : g ++ e :: a ++ [.commit c'] ++ (b ++ [.commit c]) =
        g ++ e :: (a ++ .commit c' :: b) ++ [.commit c] := by simp
    rw [hsame] at hy
    cases hy.symm.trans hz
    cases hyst.symm.trans hzst
  · intro hov
    have hpre : ∀ {g}, g <+: s.hist → ¬ Overtaken reqs g := by
      rintro g ⟨n, hn⟩ ho
      exact hov (hn ▸ ho.append n)
    refine ⟨?_, ?_, ?_, ?_⟩
    · intro g n id x hp hx hst
      exact Lawful.approved_stays hno (hl.of_prefix hp) (hpre hp) hx hst
    · intro g n id x hp hx hst
      exact Lawful.rejected_stays hno (hl.of_prefix hp) hx hst
    · intro g id x hp hu hx
      obtain ⟨hundecided, hfounded⟩ :=
        (Lawful.consistent hno (hl.of_prefix hp) hu (hpre hp)).2 x hx
      exact ⟨fun hst => hundecided (by rw [hst]; decide), hfounded⟩
    · intro g c n w he hm hw
      exact (hl g c n he.symm).2.founds hm hw

/-- The link is honored once, to approve. -/
def Demo.approved : List Request := [.approve (env 1) "link"]

theorem decided_iff_approved :
    Decided Demo.pending (Demo.run Demo.pending Demo.approved (List.replicate 12 0)).hist := by
  have hno : KeepsRequests Demo.approved := by
    intro now batchSize hm
    cases List.mem_singleton.mp hm
  refine (decided_iff Demo.host Demo.pending Demo.approved _ hno
    (Demo.reachable (by decide))).mpr ?_
  rintro ⟨g, e, g', c, n, id, -, -, -, ⟨⟨env, token, hreq⟩, -⟩, -⟩
  cases List.mem_singleton.mp (List.mem_of_getElem? hreq)

/-- One administrator opens the link to reject, another one approves, then the first goes on. -/
def Demo.overtaken : List Request := [.reject (env 0) "link", .approve (env 1) "link"]

def Demo.overtakenSteps : List Nat := List.replicate 3 0 ++ List.replicate 12 1 ++ List.replicate 3 0

/-- Then the approved request ends rejected, and its business stays. -/
theorem decided_overtaken :
    KeepsRequests Demo.overtaken ∧
      Reachable Demo.host Demo.pending Demo.overtaken
        (Demo.run Demo.pending Demo.overtaken Demo.overtakenSteps) ∧
      ¬ Decided Demo.pending (Demo.run Demo.pending Demo.overtaken Demo.overtakenSteps).hist := by
  have hlast : (lastCommit? (Demo.run Demo.pending Demo.overtaken
      Demo.overtakenSteps).hist).isSome = true := by decide
  obtain ⟨c, hc⟩ := Option.isSome_iff_exists.mp hlast
  have he := eq_of_lastCommit? hc
  have hbefore : ((replay (S := registration) Demo.pending (Demo.run Demo.pending Demo.overtaken
      Demo.overtakenSteps).hist.dropLast).requests.find? ⟨"request"⟩).any
        (·.status = .aprobado) = true := by decide
  have hafter : ((replay (S := registration) Demo.pending (Demo.run Demo.pending Demo.overtaken
      Demo.overtakenSteps).hist).requests.find? ⟨"request"⟩).any
        (·.status = .rechazado) = true := by decide
  refine ⟨?_, Demo.reachable (by decide), ?_⟩
  · intro now batchSize hm
    simp [Demo.overtaken] at hm
  · intro hd
    obtain ⟨x, hx, hst⟩ := (Option.any_eq_true _ _).mp hbefore
    obtain ⟨y, hy, hyst⟩ := hd.approved_stays _ [.commit c] ⟨"request"⟩ x
      ⟨[], (List.append_nil _).trans he.symm⟩ hx (of_decide_eq_true hst)
    rw [← he] at hy
    rw [hy] at hafter
    cases hyst.symm.trans (of_decide_eq_true hafter)

end Bazar.Registration
