import BazarApi.Corrections.Service

/- What a commit of a creation or of a reversal does, said without its program. Records and
   reversals are only ever added, each under an id that is new. -/
namespace Bazar.Corrections

open Txn

inductive Request where
  | create (env : Env) (k : Kind) (actor : Actor) (dto : k.service.Dto)
  | reverse (env : Env) (k : Kind) (actor : Actor) (targetId : String) (dto : ReverseDto k)

inductive Answer where
  | created (created : Bool) (receipt : Receipt)
  | reversed (created : Bool) (receipt : ReversalReceipt)

/-- The program that serves a request. -/
def Request.call (host : Host) : Request → Call corrections Answer
  | .create env k actor dto => do
    let a ← Corrections.create host env k actor dto
    .ret (.created a.1 a.2)
  | .reverse env _ actor targetId dto => do
    let a ← Corrections.reverse host env actor targetId dto
    .ret (.reversed a.1 a.2)

/-- The row of a creation. -/
def createdRow (host : Host) (env : Env) (k : Kind) (actor : Actor) (dto : k.service.Dto) : Record :=
  (newReceipt actor (k.service.normalized host dto) (env.now 0)).row
    (fingerprint host actor "create" (k.service.normalized host dto))

/-- The row of a replacement, in the reversal `id`. -/
def replacementRow (host : Host) (env : Env) (actor : Actor) (id : Uuid) (data : Normalized) :
    Record :=
  (newReceipt actor data (env.now 0)).row (fingerprint host actor ("replacement:" ++ id.text) data)

/-- What a reversal writes. -/
def reversalWrites (host : Host) (env : Env) {k : Kind} (actor : Actor) (targetId : Uuid)
    (dto : ReverseDto k) (original : Receipt) : List Write :=
  let data := dto.normalized host
  data.toList.map (fun data =>
      .insertRecord k (replacementRow host env actor (uuid dto.id) data)) ++
    [.insertReversal k (reversalRow host env actor targetId dto original
      (data.map fun data => newReceipt actor data (env.now 0)))]

/-- The key of the lock of an identity. -/
def identityKey (k : Kind) (contextId : String) (id : Uuid) : Key :=
  .advisory (k.service.identity ++ ":" ++ contextId ++ ":" ++ id.text)

/-- What request `i` writes when it writes anything, after history `h`, under its locks. -/
inductive Effect (host : Host) (d₀ : Db) (h : History corrections) (locks : Locks Key) :
    Request → List Write → Prop where
  | created {env : Env} {k : Kind} {actor : Actor} {dto : k.service.Dto}
    (hnew : ((replay (S := corrections) d₀ h).records k).find? (k.service.normalized host dto).id =
      none)
    (hown : (identityKey k actor.account.contextId (k.service.normalized host dto).id, .update) ∈
      locks) :
    Effect host d₀ h locks (.create env k actor dto)
      [.insertRecord k (createdRow host env k actor dto)]
  | reversed {env : Env} {k : Kind} {actor : Actor} {targetId : String} {dto : ReverseDto k}
    {original : Record}
    (hlock : (.record k (uuid targetId), .update) ∈ locks)
    (horiginal : (replay (S := corrections) d₀ h).findRecord k (uuid targetId)
      actor.account.contextId = some original)
    (hactive : ∀ r ∈ ((replay (S := corrections) d₀ h).reversals k).rows,
      r.data.targetId ≠ uuid targetId)
    (hnew : ((replay (S := corrections) d₀ h).reversals k).find? (uuid dto.id) = none)
    (hfree : ∀ data ∈ dto.normalized host,
      ((replay (S := corrections) d₀ h).records k).find? data.id = none)
    (hown : (identityKey k actor.account.contextId (uuid dto.id), .update) ∈ locks)
    (hnamed : ∀ data ∈ dto.normalized host,
      (identityKey k actor.account.contextId data.id, .update) ∈ locks) :
    Effect host d₀ h locks (.reverse env k actor targetId dto)
      (reversalWrites host env actor (uuid targetId) dto original.creationResponse)

/-- Every commit is of one of the requests, and writes nothing or what that request writes. -/
def Commits (host : Host) (d₀ : Db) (reqs : List Request) (h : History corrections)
    (c : Commit corrections) : Prop :=
  ∃ r, reqs[c.pid]? = some r ∧ (c.writes = [] ∨ Effect host d₀ h c.locks r c.writes)

/-! What is there stays. -/

variable {host : Host} {d₀ d : Db} {reqs : List Request} {h h' : History corrections}
variable {c : Commit corrections} {k k' : Kind} {id : Uuid}

@[simp] theorem records_insertRecord (row : Record) :
    ((Write.insertRecord k row).apply d).records k' =
      if k' = k then (d.records k).put row else d.records k' := by
  change Function.update d.records k _ k' = _
  rw [Function.update_apply]

@[simp] theorem records_insertReversal (row : Reversal) :
    ((Write.insertReversal k row).apply d).records k' = d.records k' := rfl

@[simp] theorem reversals_insertReversal (row : Reversal) :
    ((Write.insertReversal k row).apply d).reversals k' =
      if k' = k then (d.reversals k).put row else d.reversals k' := by
  change Function.update d.reversals k _ k' = _
  rw [Function.update_apply]

@[simp] theorem reversals_insertRecord (row : Record) :
    ((Write.insertRecord k row).apply d).reversals k' = d.reversals k' := rfl

theorem records_apply_ne {w : Write} (hne : w.key ≠ .record k id) :
    ((w.apply d).records k).find? id = (d.records k).find? id := by
  cases w with
  | insertRecord k' row =>
    rw [records_insertRecord]
    split
    · rename_i hk
      subst hk
      refine Table.find?_put_ne ?_
      rintro rfl
      exact hne rfl
    · rfl
  | insertReversal k' row => rfl

theorem reversals_apply_ne {w : Write} (hne : w.key ≠ .reversal k id) :
    ((w.apply d).reversals k).find? id = (d.reversals k).find? id := by
  cases w with
  | insertRecord k' row => rfl
  | insertReversal k' row =>
    rw [reversals_insertReversal]
    split
    · rename_i hk
      subst hk
      refine Table.find?_put_ne ?_
      rintro rfl
      exact hne rfl
    · rfl

/-- Records and reversals only grow. -/
structure Grows (d d' : Db) : Prop where
  records : ∀ k, (d.records k).Grows (d'.records k)
  reversals : ∀ k, (d.reversals k).Grows (d'.reversals k)

theorem Grows.refl (d : Db) : Grows d d := ⟨fun _ => .refl _, fun _ => .refl _⟩

theorem Grows.trans {d d' d'' : Db} (h : Grows d d') (h' : Grows d' d'') : Grows d d'' :=
  ⟨fun k => (h.records k).trans (h'.records k), fun k => (h.reversals k).trans (h'.reversals k)⟩

theorem grows_insertRecord (row : Record) (hnew : (d.records k).find? row.id = none) :
    Grows d ((Write.insertRecord k row).apply d) := by
  refine ⟨?_, fun _ => .refl _⟩
  intro k'
  rw [records_insertRecord]
  split
  · rename_i hk
    subst hk
    exact Table.grows_put hnew
  · exact .refl _

theorem grows_insertReversal {row : Reversal} (hnew : (d.reversals k).find? row.id = none) :
    Grows d ((Write.insertReversal k row).apply d) := by
  refine ⟨fun _ => .refl _, ?_⟩
  intro k'
  rw [reversals_insertReversal]
  split
  · rename_i hk
    subst hk
    exact Table.grows_put hnew
  · exact .refl _

theorem Effect.grows {r : Request} {ws : List Write} {locks : Locks Key}
    (he : Effect host d₀ h locks r ws) :
    Grows (replay (S := corrections) d₀ h)
      (applyAll (S := corrections) (replay (S := corrections) d₀ h) ws) := by
  cases he with
  | created hnew _ => exact grows_insertRecord _ hnew
  | @reversed env k actor targetId dto original _ _ _ hnew hfree _ _ =>
    unfold reversalWrites
    cases hdata : dto.normalized host with
    | none => exact grows_insertReversal hnew
    | some data => exact (grows_insertRecord _ (hfree data hdata)).trans (grows_insertReversal hnew)

theorem Lawful.grows (hl : Lawful (Commits host d₀ reqs) h') (hp : h <+: h') :
    Grows (replay (S := corrections) d₀ h) (replay (S := corrections) d₀ h') := by
  refine hl.keep d₀ (fun v => Grows (replay (S := corrections) d₀ h) v) hp (.refl _) ?_
  intro h₁ c _ _ ih _ hc
  obtain ⟨r, -, hw | he⟩ := hc
  · rw [hw]
    exact ih
  · exact ih.trans he.grows

/-! Rows whose identity is locked. -/

/-- Who inserts a record holds its identity, and so does who inserts a reversal. -/
theorem Effect.owned {r : Request} {ws : List Write} {locks : Locks Key}
    (he : Effect host d₀ h locks r ws) :
    (∀ k row, .insertRecord k row ∈ ws → (identityKey k row.contextId row.id, .update) ∈ locks) ∧
      ∀ k row, .insertReversal k row ∈ ws →
        (identityKey k row.contextId row.id, .update) ∈ locks := by
  cases he with
  | created _ hown =>
    refine ⟨?_, ?_⟩
    · intro k row hw
      cases List.mem_singleton.mp hw
      exact hown
    · intro k row hw
      cases List.mem_singleton.mp hw
  | @reversed env k' actor targetId dto original _ _ _ _ _ hown hnamed =>
    refine ⟨?_, ?_⟩
    · intro k row hw
      rcases List.mem_append.mp hw with hw | hw
      · obtain ⟨data, hdata, he⟩ := List.mem_map.mp hw
        cases he
        exact hnamed data (Option.mem_toList.mp hdata)
      · cases List.mem_singleton.mp hw
    · intro k row hw
      rcases List.mem_append.mp hw with hw | hw
      · obtain ⟨data, -, he⟩ := List.mem_map.mp hw
        cases he
      · cases List.mem_singleton.mp hw
        exact hown

/-- A row that does not meet a condition is not found under it once it is put. -/
theorem find?_put_filter_none {R : Type} [Keyed R Uuid] {t : Table R} {x : R} {p : R → Bool}
    (hnone : (t.find? id).filter p = none) (hx : Keyed.key x = id → p x = false) :
    ((t.put x).find? id).filter p = none := by
  rw [Table.find?_put]
  split
  · rename_i hid
    rw [Option.filter_some, hx hid.symm]
    rfl
  · exact hnone

theorem findRecord_applyAll_none {contextId : String} {ws : List Write}
    (hnone : d.findRecord k id contextId = none)
    (hne : ∀ row, .insertRecord k row ∈ ws → row.id = id → row.contextId ≠ contextId) :
    (applyAll (S := corrections) d ws).findRecord k id contextId = none := by
  refine List.foldlRecOn ws _ (motive := fun v : Db => v.findRecord k id contextId = none) hnone ?_
  intro v hv w hw
  cases w with
  | insertReversal k' row => exact hv
  | insertRecord k' row =>
    change Option.filter _ ((((Write.insertRecord k' row).apply v).records k).find? id) = none
    rw [records_insertRecord]
    split
    · rename_i hk
      subst hk
      exact find?_put_filter_none hv fun hid => decide_eq_false (hne row hw hid)
    · exact hv

theorem findReversal_applyAll_none {contextId : String} {ws : List Write}
    (hnone : d.findReversal k id contextId = none)
    (hne : ∀ row, .insertReversal k row ∈ ws → row.id = id → row.contextId ≠ contextId) :
    (applyAll (S := corrections) d ws).findReversal k id contextId = none := by
  refine List.foldlRecOn ws _ (motive := fun v : Db => v.findReversal k id contextId = none) hnone ?_
  intro v hv w hw
  cases w with
  | insertRecord k' row => exact hv
  | insertReversal k' row =>
    change Option.filter _ ((((Write.insertReversal k' row).apply v).reversals k).find? id) = none
    rw [reversals_insertReversal]
    split
    · rename_i hk
      subst hk
      exact find?_put_filter_none hv fun hid => decide_eq_false (hne row hw hid)
    · exact hv

/-- Nobody stores a record or a reversal under an identity while it is locked. -/
theorem Later.not_stored {i : Nat} {held : Locks Key} {contextId : String}
    (hl : Later (Commits host d₀ reqs) i held h h')
    (hk : (identityKey k contextId id, .update) ∈ held) :
    ((replay (S := corrections) d₀ h).findRecord k id contextId = none →
      (replay (S := corrections) d₀ h').findRecord k id contextId = none) ∧
    ((replay (S := corrections) d₀ h).findReversal k id contextId = none →
      (replay (S := corrections) d₀ h').findReversal k id contextId = none) := by
  have hapart : ∀ {h₁ c}, Apart held c.locks → Commits host d₀ reqs h₁ c →
      (∀ row, .insertRecord k row ∈ c.writes → row.id = id → row.contextId ≠ contextId) ∧
      ∀ row, .insertReversal k row ∈ c.writes → row.id = id → row.contextId ≠ contextId := by
    rintro h₁ c ha ⟨r, -, hnone | he⟩
    · rw [hnone]
      exact ⟨fun _ hw => (nomatch hw), fun _ hw => (nomatch hw)⟩
    · obtain ⟨hrecord, hreversal⟩ := he.owned
      refine ⟨?_, ?_⟩
      · rintro row hw rfl rfl
        exact ha.ne_of_writes hk (hrecord k row hw) LockMode.noConfusion rfl rfl
      · rintro row hw rfl rfl
        exact ha.ne_of_writes hk (hreversal k row hw) LockMode.noConfusion rfl rfl
  refine ⟨fun hnone => ?_, fun hnone => ?_⟩
  · refine hl.induct d₀ (fun v : Db => v.findRecord k id contextId = none) hnone ?_
    intro h₁ c _ _ ih _ ha _ hc
    exact findRecord_applyAll_none ih (hapart ha hc).1
  · refine hl.induct d₀ (fun v : Db => v.findReversal k id contextId = none) hnone ?_
    intro h₁ c _ _ ih _ ha _ hc
    exact findReversal_applyAll_none ih (hapart ha hc).2

/-! The reversal of a record whose row is locked. -/

/-- Somebody who does not hold the record does not reverse it. -/
theorem Commits.target_ne {held : Locks Key} (hc : Commits host d₀ reqs h c)
    (hk : (.record k id, .update) ∈ held) (ha : Txn.Apart held c.locks) {row : Reversal}
    (hw : .insertReversal k row ∈ c.writes) : row.data.targetId ≠ id := by
  obtain ⟨r, -, hnone | he⟩ := hc
  · rw [hnone] at hw
    cases hw
  generalize c.writes = ws at hw he
  cases he with
  | created _ _ => cases List.mem_singleton.mp hw
  | @reversed env k' actor targetId dto original hlock _ _ _ _ _ _ =>
    rcases List.mem_append.mp hw with hw | hw
    · obtain ⟨data, -, he⟩ := List.mem_map.mp hw
      cases he
    · cases List.mem_singleton.mp hw
      intro he
      have he : uuid targetId = id := he
      exact ha.ne_of_writes hk hlock LockMode.noConfusion rfl (by rw [he])

/-- Nobody reverses a record while its row is locked. -/
theorem Later.not_reversed {i : Nat} {held : Locks Key}
    (hl : Later (Commits host d₀ reqs) i held h h') (hk : (.record k id, .update) ∈ held)
    (hno : ∀ r ∈ ((replay (S := corrections) d₀ h).reversals k).rows, r.data.targetId ≠ id) :
    ∀ r ∈ ((replay (S := corrections) d₀ h').reversals k).rows, r.data.targetId ≠ id := by
  refine hl.induct d₀ (fun v => ∀ r ∈ (v.reversals k).rows, r.data.targetId ≠ id) hno ?_
  intro h₁ c _ _ ih _ ha _ hc
  have hne : ∀ row, .insertReversal k row ∈ c.writes → row.data.targetId ≠ id :=
    fun row hw => hc.target_ne hk ha hw
  generalize replay (S := corrections) d₀ h₁ = v at ih
  generalize c.writes = ws at hne
  induction ws generalizing v with
  | nil => exact ih
  | cons w ws ihw =>
    refine ihw (w.apply v) ?_ fun row hw => hne row (List.mem_cons_of_mem _ hw)
    cases w with
    | insertRecord k' row => exact ih
    | insertReversal k' row =>
      rw [reversals_insertReversal]
      split
      · rename_i hkk
        subst hkk
        intro r hr
        rcases Table.mem_put.mp hr with rfl | ⟨hr, -⟩
        · exact hne r List.mem_cons_self
        · exact ih r hr
      · exact ih

end Bazar.Corrections
