import BazarApi.Shop.Requests

/- How the shop's statements move a safety proof forward: which rows a write leaves
   alone, and for each statement the rule its programs use. Nothing here depends on
   what a commit may do, so every rule holds for any guarantee `G`. -/
namespace Bazar.Shop

open Txn

/-! Rows a write leaves alone. -/

theorem ProductUpdate.apply_id (u : ProductUpdate) (p : Product) :
    Keyed.key (u.apply p) = Keyed.key p := rfl

theorem DeudaUpdate.apply_id (u : DeudaUpdate) (x : Deuda) : Keyed.key (u.apply x) = Keyed.key x := rfl

theorem CuotaUpdate.apply_id (u : CuotaUpdate) (c : CuotaPlaneada) :
    Keyed.key (u.apply c) = Keyed.key c := rfl

theorem products_apply_ne {d : Db} {w : Write} {k : Uuid} (h : w.key ≠ (.product, k)) :
    (w.apply d).products.find? k = d.products.find? k := by
  cases w with
  | insert row =>
    cases row with
    | product r =>
      refine Table.find?_put_ne ?_
      rintro rfl
      exact h rfl
    | _ => rfl
  | updateProduct id data =>
    refine Table.find?_modify_ne data.apply_id ?_
    rintro rfl
    exact h rfl
  | _ => rfl

theorem products_apply_congr {d d' : Db} {k : Uuid} (w : Write)
    (h : d.products.find? k = d'.products.find? k) :
    (w.apply d).products.find? k = (w.apply d').products.find? k := by
  cases w with
  | insert row =>
    cases row with
    | product r =>
      simp only [Write.apply, Db.insert, Table.find?_put, h]
    | _ => exact h
  | updateProduct id data =>
    simp only [Write.apply, Table.find?_modify data.apply_id]
    split
    · rename_i hk
      rw [← hk, h]
    · exact h
  | _ => exact h

theorem deudas_apply_ne {d : Db} {w : Write} {k : Uuid} (h : w.key ≠ (.deuda, k)) :
    (w.apply d).deudas.find? k = d.deudas.find? k := by
  cases w with
  | insert row =>
    cases row with
    | deuda r =>
      refine Table.find?_put_ne ?_
      rintro rfl
      exact h rfl
    | _ => rfl
  | updateDeuda id data =>
    refine Table.find?_modify_ne data.apply_id ?_
    rintro rfl
    exact h rfl
  | _ => rfl

/-- Whether a key is taken depends only on writes of that key. -/
theorem has_apply_ne {d : Db} {w : Write} {k : Key} (h : w.key ≠ k) :
    (w.apply d).has k = d.has k := by
  obtain ⟨t, id⟩ := k
  have hne : ∀ id', (t, id') ≠ (t, id) → id ≠ id' := by
    rintro id' hk rfl
    exact hk rfl
  cases w with
  | insert row =>
    cases row <;> cases t <;> first
      | rfl
      | exact congrArg Option.isSome (Table.find?_put_ne (hne _ h))
  | updateProduct id' data =>
    cases t <;> first
      | rfl
      | exact congrArg Option.isSome (Table.find?_modify_ne data.apply_id (hne _ h))
  | updateDeuda id' data =>
    cases t <;> first
      | rfl
      | exact congrArg Option.isSome (Table.find?_modify_ne data.apply_id (hne _ h))
  | updateCuota id' data =>
    cases t <;> first
      | rfl
      | exact congrArg Option.isSome (Table.find?_modify_ne data.apply_id (hne _ h))
  | deleteCuota id' =>
    cases t <;> first
      | rfl
      | exact congrArg Option.isSome (Table.find?_erase_ne (hne _ h))

/-- Writes of other keys leave a key as it was. -/
theorem has_applyAll_ne {d : Db} {ws : List Write} {k : Key} (h : ∀ w ∈ ws, w.key ≠ k) :
    (applyAll (S := shop) d ws).has k = d.has k :=
  applyAll_read_eq (S := shop) (fun v => v.has k) (fun w hw _ => has_apply_ne (h w hw)) d

theorem products_applyAll_ne {d : Db} {ws : List Write} {k : Uuid}
    (h : ∀ w ∈ ws, w.key ≠ (.product, k)) :
    (applyAll (S := shop) d ws).products.find? k = d.products.find? k :=
  applyAll_read_eq (S := shop) (fun v => v.products.find? k)
    (fun w hw _ => products_apply_ne (h w hw)) d

/-- No statement writes the registry of accounts, people and devices. -/
theorem registry_applyAll (d : Db) (ws : List Write) :
    (applyAll (S := shop) d ws).accounts = d.accounts ∧
      (applyAll (S := shop) d ws).members = d.members ∧
      (applyAll (S := shop) d ws).devices = d.devices := by
  have hw : ∀ (w : Write) (v : Db), (w.apply v).accounts = v.accounts ∧
      (w.apply v).members = v.members ∧ (w.apply v).devices = v.devices := by
    intro w v
    cases w with
    | insert row => cases row <;> exact ⟨rfl, rfl, rfl⟩
    | _ => exact ⟨rfl, rfl, rfl⟩
  refine ⟨?_, ?_, ?_⟩
  · exact applyAll_read_eq (S := shop) (fun v => v.accounts) (fun w _ v => (hw w v).1) d
  · exact applyAll_read_eq (S := shop) (fun v => v.members) (fun w _ v => (hw w v).2.1) d
  · exact applyAll_read_eq (S := shop) (fun v => v.devices) (fun w _ v => (hw w v).2.2) d

theorem registry_replay (d : Db) (h : History shop) :
    (replay (S := shop) d h).accounts = d.accounts ∧
      (replay (S := shop) d h).members = d.members ∧
      (replay (S := shop) d h).devices = d.devices := by
  induction h generalizing d with
  | nil => exact ⟨rfl, rfl, rfl⟩
  | cons e h ih =>
    obtain ⟨ha, hm, hv⟩ := ih (applyAll (S := shop) d e.writes)
    obtain ⟨ha', hm', hv'⟩ := registry_applyAll d e.writes
    exact ⟨ha.trans ha', hm.trans hm', hv.trans hv'⟩

/-- The actor's account, person and device are in order. -/
def Authorized (d : Db) (role : Option MemberRole) (actor : Actor) : Prop :=
  ∃ s a m v, actor.selection = some s ∧
    d.findAccount (uuid actor.account.id) actor.account.contextId = some a ∧
    d.findMember (uuid s.memberId) actor.account.contextId role = some m ∧
    d.findDevice (uuid s.deviceId) actor.account.contextId = some v

/-! Rules. -/

section
variable {d : Db} {G : History shop → Commit shop → Prop} {i : Nat} {h h' : History shop}
variable {β : Type} {Q : β → History shop → Prop} {R : Err → History shop → Prop} {t : Open shop}

/-- A key locked in a mode that shuts writers out stays taken or free. -/
theorem Later.has_eq {held : Locks Key} {k : Key} {m : LockMode}
    (he : Later (S := shop) G i held h h') (hk : (k, m) ∈ held) (hm : m ≠ .keyShare) :
    (replay (S := shop) d h').has k = (replay (S := shop) d h).has k :=
  he.read_eq (S := shop) d (fun v => v.has k) (fun _ _ hw => has_apply_ne hw) hk hm

/-- A locked product stays as it is. -/
theorem Later.product_eq {held : Locks Key} {k : Uuid} {m : LockMode}
    (he : Later (S := shop) G i held h h') (hk : ((TableName.product, k), m) ∈ held)
    (hm : m ≠ .keyShare) :
    (replay (S := shop) d h').products.find? k = (replay (S := shop) d h).products.find? k :=
  he.read_eq (S := shop) d (fun v => v.products.find? k) (fun _ _ hw => products_apply_ne hw) hk hm

/-- A locked debt stays as it is. -/
theorem Later.deuda_eq {held : Locks Key} {k : Uuid} {m : LockMode}
    (he : Later (S := shop) G i held h h') (hk : ((TableName.deuda, k), m) ∈ held)
    (hm : m ≠ .keyShare) :
    (replay (S := shop) d h').deudas.find? k = (replay (S := shop) d h).deudas.find? k :=
  he.read_eq (S := shop) d (fun v => v.deudas.find? k) (fun _ _ hw => deudas_apply_ne hw) hk hm

theorem eq_none_of_isSome {α : Type} {o : Option α} (h : o.isSome = false) : o = none := by
  cases o with
  | none => rfl
  | some a => cases h

/-- A key found free and held since is free at the commit. -/
theorem free_later {held : Locks Key} {k : Key} {q : Sql} {ws : List Write}
    (hfree : (applyAll (S := shop) (replay (S := shop) d h) ws).has k = false)
    (hne : ∀ w ∈ ws, w.key ≠ k) (he : Later (S := shop) G i held (h ++ [.exec i q]) h')
    (hk : (k, LockMode.update) ∈ held) : (replay (S := shop) d h').has k = false := by
  rw [Later.has_eq (d := d) he hk (by decide), replay_sent,
    ← has_applyAll_ne hne]
  exact hfree

theorem createRows_singleton (row : Row) (v : Db) :
    createRows [row] v =
      if v.has row.key then .error (.uniqueViolation row.key.1) else .ok [.insert row] := by
  unfold createRows
  split
  · rfl
  · rfl

/-- `create`: a taken key is an error, a free one is held. -/
theorem create_safe {row : Row} {f : Unit → Tx shop β} (ht : t.iso = .readCommitted)
    (hs : ∀ h', Extends G i t.held h h' → Later G i t.held h (h' ++ [.exec i (.create [row])]) →
      (applyAll (S := shop) (replay (S := shop) d h') t.pending).has row.key = false →
      (f ()).Safe d G i Q R (t.after [(row.key, .update)] [.insert row])
        (h' ++ [.exec i (.create [row])]))
    (he : ∀ h', Extends G i t.held h h' → Later G i t.held h (h' ++ [.exec i (.create [row])]) →
      (applyAll (S := shop) (replay (S := shop) d h') t.pending).has row.key = true →
      R (.uniqueViolation row.key.1) (h' ++ [.exec i (.create [row])])) :
    (create row >>= f).Safe d G i Q R t h := by
  rw [create, Tx.query_bind]
  refine Tx.Safe.stmt ht ?_
  intro h' hx hl
  simp only [Sql.exec, createRows_singleton]
  cases hh : (applyAll (S := shop) (replay (S := shop) d h') t.pending).has row.key with
  | true => exact he h' hx hl hh
  | false => exact hs h' hx hl hh

/-! A key that is the transaction's to create. -/

/-- The transaction holds the key and nothing committed has it. -/
def Claimed (d : Db) (k : Key) (t : Open shop) (h : History shop) : Prop :=
  (k, LockMode.update) ∈ t.held ∧ (replay (S := shop) d h).has k = false

theorem Claimed.later {k : Key} (hc : Claimed d k t h) (hl : Later (S := shop) G i t.held h h') :
    Claimed d k t h' :=
  ⟨hc.1, (Later.has_eq (d := d) hl hc.1 (by decide)).trans hc.2⟩

theorem Claimed.after {k : Key} (hc : Claimed d k t h) (ls : Locks Key) (ws : List Write) :
    Claimed d k (t.after ls ws) h :=
  ⟨List.mem_append_left _ hc.1, hc.2⟩

theorem Claimed.held {k : Key} (hc : Claimed d k t h) {t' : Open shop} (hh : t.held ⊆ t'.held) :
    Claimed d k t' h :=
  ⟨hh hc.1, hc.2⟩

/-- `create` of a row no write so far has the key of. -/
theorem create_claims {row : Row} {f : Unit → Tx shop β} (ht : t.iso = .readCommitted)
    (hne : ∀ w ∈ t.pending, w.key ≠ row.key)
    (hs : ∀ h', Later G i t.held h h' →
      Claimed d row.key (t.after [(row.key, .update)] [.insert row]) h' →
      (f ()).Safe d G i Q R (t.after [(row.key, .update)] [.insert row]) h')
    (he : ∀ h', Later G i t.held h h' → R (.uniqueViolation row.key.1) h') :
    (create row >>= f).Safe d G i Q R t h := by
  refine create_safe ht ?_ (fun _ _ hl _ => he _ hl)
  intro h' _ hl hfree
  refine hs _ hl ⟨List.mem_append_right _ (List.mem_singleton.mpr rfl), ?_⟩
  rw [replay_sent, ← has_applyAll_ne hne]
  exact hfree

/-- The rows of one `INSERT` are written in order. -/
theorem createRows_ok {rows : List Row} {v : Db} {ws : List Write}
    (h : createRows rows v = .ok ws) : ws = rows.map .insert := by
  induction rows generalizing v ws with
  | nil =>
    cases h
    rfl
  | cons row rows ih =>
    unfold createRows at h
    split at h
    · cases h
    · cases hr : createRows rows (v.insert row) with
      | error e => rw [hr] at h; cases h
      | ok ws' =>
        rw [hr] at h
        cases h
        rw [ih hr, List.map_cons]

theorem createRows_error {rows : List Row} {v : Db} {e : Err} (h : createRows rows v = .error e) :
    ∃ row ∈ rows, e = .uniqueViolation row.key.1 := by
  induction rows generalizing v with
  | nil => cases h
  | cons row rows ih =>
    unfold createRows at h
    split at h
    · cases h
      exact ⟨row, List.mem_cons_self, rfl⟩
    · cases hr : createRows rows (v.insert row) with
      | error e' =>
        rw [hr] at h
        cases h
        obtain ⟨r, hm, he⟩ := ih hr
        exact ⟨r, List.mem_cons_of_mem _ hm, he⟩
      | ok ws' => rw [hr] at h; cases h

/-- `createMany`: every row, or an error. -/
theorem createMany_safe {rows : List Row} {f : Unit → Tx shop β} (ht : t.iso = .readCommitted)
    (hs : ∀ h' ls, Later G i t.held h h' →
      (f ()).Safe d G i Q R (t.after ls (rows.map .insert)) h')
    (he : ∀ h', Later G i t.held h h' → ∀ row ∈ rows, R (.uniqueViolation row.key.1) h') :
    (createMany rows >>= f).Safe d G i Q R t h := by
  rw [createMany, Tx.query_bind]
  refine Tx.Safe.stmt ht ?_
  intro h' hx hl
  simp only [Sql.exec]
  cases hr : createRows rows (applyAll (S := shop) (replay (S := shop) d h') t.pending) with
  | error e =>
    obtain ⟨row, hm, rfl⟩ := createRows_error hr
    exact he _ hl row hm
  | ok ws =>
    rw [createRows_ok hr]
    exact hs _ _ hl

/-- `update` of a product: the row if it satisfies the condition, held from then on. -/
theorem updateProduct_safe {c : ProductWhere} {data : ProductUpdate} {f : Option Product → Tx shop β}
    (ht : t.iso = .readCommitted)
    (hs : ∀ h' p, Extends G i t.held h h' →
      Later G i t.held h (h' ++ [.exec i (.updateProduct c data)]) →
      (applyAll (S := shop) (replay (S := shop) d h') t.pending).products.find? c.id = some p →
      c.holds p = true →
      (f (some (data.apply p))).Safe d G i Q R
        (t.after [((.product, c.id), .noKeyUpdate)] [.updateProduct c.id data])
        (h' ++ [.exec i (.updateProduct c data)]))
    (hn : ∀ h', Extends G i t.held h h' →
      Later G i t.held h (h' ++ [.exec i (.updateProduct c data)]) →
      ((applyAll (S := shop) (replay (S := shop) d h') t.pending).products.find? c.id).filter
        c.holds = none →
      (f none).Safe d G i Q R t (h' ++ [.exec i (.updateProduct c data)])) :
    (updateProduct c data >>= f).Safe d G i Q R t h := by
  rw [updateProduct, Tx.query_bind]
  refine Tx.Safe.stmt ht ?_
  intro h' hx hl
  simp only [Sql.exec]
  cases hp : ((applyAll (S := shop) (replay (S := shop) d h') t.pending).products.find? c.id).filter
      c.holds with
  | none =>
    simp only [updated, taken, Sql.locks, List.map_nil, List.append_nil]
    rw [Open.after_nil]
    exact hn h' hx hl hp
  | some p =>
    obtain ⟨hp, hc⟩ := Option.filter_eq_some_iff.mp hp
    exact hs h' p hx hl hp hc

/-- `SELECT ... FOR UPDATE` of a product: the row is held if there is one. -/
theorem lockProduct_safe {id : Uuid} {contextId : String} {f : Unit → Tx shop β}
    (ht : t.iso = .readCommitted)
    (hs : ∀ h' p, Extends G i t.held h h' →
      Later G i t.held h (h' ++ [.exec i (.lockProduct id contextId)]) →
      (applyAll (S := shop) (replay (S := shop) d h') t.pending).findProduct id contextId = some p →
      (f ()).Safe d G i Q R (t.after [((.product, id), .update)] [])
        (h' ++ [.exec i (.lockProduct id contextId)]))
    (hn : ∀ h', Extends G i t.held h h' →
      Later G i t.held h (h' ++ [.exec i (.lockProduct id contextId)]) →
      (applyAll (S := shop) (replay (S := shop) d h') t.pending).findProduct id contextId = none →
      (f ()).Safe d G i Q R t (h' ++ [.exec i (.lockProduct id contextId)])) :
    (lockProduct id contextId >>= f).Safe d G i Q R t h := by
  rw [lockProduct, Tx.query_bind]
  refine Tx.Safe.stmt ht ?_
  intro h' hx hl
  simp only [Sql.exec, taken, Sql.locks]
  cases hp : (applyAll (S := shop) (replay (S := shop) d h') t.pending).findProduct id contextId with
  | none =>
    simp only [Option.isSome_none, Bool.false_eq_true, if_false, List.map_nil, List.append_nil]
    rw [Open.after_nil]
    exact hn h' hx hl hp
  | some p => exact hs h' p hx hl hp

/-- The same of a debt. -/
theorem lockDeuda_safe {id : Uuid} {contextId : String} {f : Unit → Tx shop β}
    (ht : t.iso = .readCommitted)
    (hs : ∀ h' x, Extends G i t.held h h' →
      Later G i t.held h (h' ++ [.exec i (.lockDeuda id contextId)]) →
      (applyAll (S := shop) (replay (S := shop) d h') t.pending).findDeuda id contextId = some x →
      (f ()).Safe d G i Q R (t.after [((.deuda, id), .update)] [])
        (h' ++ [.exec i (.lockDeuda id contextId)]))
    (hn : ∀ h', Extends G i t.held h h' →
      Later G i t.held h (h' ++ [.exec i (.lockDeuda id contextId)]) →
      (applyAll (S := shop) (replay (S := shop) d h') t.pending).findDeuda id contextId = none →
      (f ()).Safe d G i Q R t (h' ++ [.exec i (.lockDeuda id contextId)])) :
    (lockDeuda id contextId >>= f).Safe d G i Q R t h := by
  rw [lockDeuda, Tx.query_bind]
  refine Tx.Safe.stmt ht ?_
  intro h' hx hl
  simp only [Sql.exec, taken, Sql.locks]
  cases hp : (applyAll (S := shop) (replay (S := shop) d h') t.pending).findDeuda id contextId with
  | none =>
    simp only [Option.isSome_none, Bool.false_eq_true, if_false, List.map_nil, List.append_nil]
    rw [Open.after_nil]
    exact hn h' hx hl hp
  | some p => exact hs h' p hx hl hp

/-- `update` of a debt by its id: the row if there is one, held from then on. -/
theorem updateDeuda_safe {id : Uuid} {contextId : String} {data : DeudaUpdate}
    {f : Option Deuda → Tx shop β} (ht : t.iso = .readCommitted)
    (hs : ∀ h' x, Later G i t.held h h' →
      (f (some x)).Safe d G i Q R
        (t.after [((.deuda, id), .noKeyUpdate)] [.updateDeuda id data]) h')
    (hn : ∀ h', Later G i t.held h h' → (f none).Safe d G i Q R t h') :
    (updateDeuda id contextId data >>= f).Safe d G i Q R t h := by
  rw [updateDeuda, Tx.query_bind]
  refine Tx.Safe.stmt ht ?_
  intro h' _ hl
  simp only [Sql.exec]
  cases (applyAll (S := shop) (replay (S := shop) d h') t.pending).findDeuda id contextId with
  | none =>
    simp only [updated, taken, Sql.locks, List.map_nil, List.append_nil]
    rw [Open.after_nil]
    exact hn _ hl
  | some x => exact hs _ _ hl

/-- `update` of an installment. -/
theorem updateCuota_safe {id : Uuid} {contextId : String} {data : CuotaUpdate}
    {f : Option CuotaPlaneada → Tx shop β} (ht : t.iso = .readCommitted)
    (hs : ∀ h' x ls, Later G i t.held h h' →
      (f (some x)).Safe d G i Q R (t.after ls [.updateCuota id data]) h')
    (hn : ∀ h', Later G i t.held h h' → (f none).Safe d G i Q R t h') :
    (updateCuota id contextId data >>= f).Safe d G i Q R t h := by
  rw [updateCuota, Tx.query_bind]
  refine Tx.Safe.stmt ht ?_
  intro h' _ hl
  simp only [Sql.exec]
  cases ((applyAll (S := shop) (replay (S := shop) d h') t.pending).cuotasPlaneadas.find? id).filter
      (fun c => c.contextId = contextId) with
  | none =>
    simp only [updated, taken, Sql.locks, List.map_nil, List.append_nil]
    rw [Open.after_nil]
    exact hn _ hl
  | some x => exact hs _ _ _ hl

/-- `delete` of an installment. -/
theorem deleteCuota_safe {id : Uuid} {contextId : String} {f : Option CuotaPlaneada → Tx shop β}
    (ht : t.iso = .readCommitted)
    (hs : ∀ h' x ls, Later G i t.held h h' →
      (f (some x)).Safe d G i Q R (t.after ls [.deleteCuota id]) h')
    (hn : ∀ h', Later G i t.held h h' → (f none).Safe d G i Q R t h') :
    (deleteCuota id contextId >>= f).Safe d G i Q R t h := by
  rw [deleteCuota, Tx.query_bind]
  refine Tx.Safe.stmt ht ?_
  intro h' _ hl
  simp only [Sql.exec]
  cases ((applyAll (S := shop) (replay (S := shop) d h') t.pending).cuotasPlaneadas.find? id).filter
      (fun c => c.contextId = contextId) with
  | none =>
    simp only [updated, taken, Sql.locks, List.map_nil, List.append_nil]
    rw [Open.after_nil]
    exact hn _ hl
  | some x => exact hs _ _ _ hl

/-- The answer of a request that is one transaction. -/
theorem ofExcept_safe {α : Type} {Q : Except Err α → History shop → Prop} {r : Except Err α}
    (hs : ∀ h', Extends G i [] h h' → Q r h') :
    (Call.ofExcept r : Call shop α).Safe d G i Q h := by
  cases r with
  | ok a => exact hs
  | error e => exact hs

/-- A request that is one transaction, when nothing is asked of its answer. -/
theorem transaction_safe {α : Type} {body : Tx shop α}
    (hs : ∀ h', Lawful G h' → h <+: h' → body.Safe d G i (fun _ _ => True) (fun _ _ => True)
      ⟨.readCommitted, h', [], []⟩ h') :
    (Call.transaction .readCommitted body).Safe d G i (fun _ _ => True) h := by
  refine ⟨?_, fun e h' _ _ _ => ofExcept_safe fun _ _ => trivial⟩
  intro h' he
  exact (hs h' he.lawful he.pre).mono (fun _ _ _ => ofExcept_safe fun _ _ => trivial)
    (fun _ _ _ => ofExcept_safe fun _ _ => trivial)

/-- Reading the actor again: it only reads, and refuses one that is not authorized. -/
theorem authorizeAs_safe {role : Option MemberRole} {actor : Actor} {f : Uuid × Uuid → Tx shop β}
    (ht : t.iso = .readCommitted)
    (hs : ∀ h' ids, Later G i t.held h h' → (f ids).Safe d G i Q R t h')
    (hn : ¬ Authorized d role actor → ∀ h', Later G i t.held h h' → R (.forbidden "Forbidden") h') :
    (authorizeAs role actor >>= f).Safe d G i Q R t h := by
  simp only [authorizeAs, Tx.bind_assoc]
  refine Tx.Safe.orThrow ?_ ?_
  · intro selection hsel
    refine Tx.Safe.read ht (fun v => v.findAccount _ _) (fun _ => rfl) (fun _ => rfl) ?_
    intro h₁ _ l₁
    refine Tx.Safe.read ht (fun v => v.findMember _ _ _) (fun _ => rfl) (fun _ => rfl) ?_
    intro h₂ _ l₂
    refine Tx.Safe.read ht (fun v => v.findDevice _ _) (fun _ => rfl) (fun _ => rfl) ?_
    intro h₃ _ l₃
    have l := (l₁.trans l₂).trans l₃
    simp only [Db.findAccount, Db.findMember, Db.findDevice, (registry_applyAll _ _).1,
      (registry_applyAll _ _).2.1, (registry_applyAll _ _).2.2, (registry_replay _ _).1,
      (registry_replay _ _).2.1, (registry_replay _ _).2.2]
    refine Tx.Safe.orThrow ?_ ?_
    · intro ids _
      exact hs _ ids l
    · intro hnone h' he
      refine hn ?_ h' (l.trans he.later)
      rintro ⟨s, a, m, v, hs, ha, hm, hv⟩
      cases hsel.symm.trans hs
      simp only [Db.findAccount, Db.findMember, Db.findDevice] at ha hm hv
      rw [ha, hm, hv] at hnone
      cases hnone
  · intro hnone h' he
    refine hn ?_ h' he.later
    rintro ⟨s, _, _, _, hs, -⟩
    cases hnone.symm.trans hs

end

end Bazar.Shop
