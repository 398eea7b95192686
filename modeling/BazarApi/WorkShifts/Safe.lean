import BazarApi.WorkShifts.Requests

/- Every creation and reversal of a shift keeps the guarantee of its commits (`Request.safe`).
   What a transaction reads before its first write it reads under the locks it then holds
   (`Onward`), so it still holds where it commits. -/
open Json

namespace Bazar.WorkShifts

open Txn
open Finance (utf16 CalendarDate)

section
variable {host : Host} {d₀ : Db} {reqs : List Request} {i : Nat} {h h' : History shifts}
variable {α β : Type} {t t' : Open shifts} {actor : Actor} {contextId : String}

/-- A part that goes on for any answer, and one that may fail. -/
abbrev Anything : α → History shifts → Prop := fun _ _ => True

theorem silent_read {q : Sql} (r : Db → q.Res) (hx : ∀ v, Sql.exec q v = .ok (r v, [])) :
    Silent (S := shifts) q := fun v => ⟨r v, hx v⟩

theorem quiet_commit {r : Request} {b : β} (hreq : reqs[i]? = some r) (hc : t.Clean) :
    (Tx.ret b : Tx shifts β).Safe d₀ (Commits host d₀ reqs) i Anything Anything t h :=
  fun _ _ => ⟨⟨r, hreq, .inl hc.pending⟩, trivial⟩

/-! What goes on under more and more locks. -/

/-- The transaction some time later, with what it had locked and nothing written. -/
structure Onward (host : Host) (d₀ : Db) (reqs : List Request) (i : Nat) (t : Open shifts)
    (h : History shifts) (t' : Open shifts) (h' : History shifts) : Prop where
  clean : t'.Clean
  later : Later (Commits host d₀ reqs) i t.held h h'
  held : t.held ⊆ t'.held

theorem Onward.refl (hc : t.Clean) (hl : Lawful (Commits host d₀ reqs) h) :
    Onward host d₀ reqs i t h t h := ⟨hc, .refl hl _ _, List.Subset.refl _⟩

theorem Onward.trans {t'' : Open shifts} {h'' : History shifts}
    (ho : Onward host d₀ reqs i t h t' h') (ho' : Onward host d₀ reqs i t' h' t'' h'') :
    Onward host d₀ reqs i t h t'' h'' :=
  ⟨ho'.clean, ho.later.trans (ho'.later.weaken ho.held), fun _ hx => ho'.held (ho.held hx)⟩

/-- A statement that writes nothing. -/
theorem silent_onward {q : Sql} {f : q.Res → Tx shifts β} (hc : t.Clean)
    (r : Db → q.Res) (hx : ∀ v, Sql.exec q v = .ok (r v, []))
    (hs : ∀ h' t', Onward host d₀ reqs i t h t' h' →
      t'.held = t.held ++ q.locks (replay (S := shifts) d₀ h') →
      (f (r (replay (S := shifts) d₀ h'))).Safe d₀ (Commits host d₀ reqs) i Anything Anything t' h') :
    (query q >>= f).Safe d₀ (Commits host d₀ reqs) i Anything Anything t h := by
  refine Tx.Safe.silent hc (silent_read r hx) ?_
  intro h₁ t₁ x c₁ l₁ hx₁ hheld
  have hvalue : x = r (replay (S := shifts) d₀ h₁) :=
    (Prod.mk.inj (Except.ok.inj (hx₁.symm.trans (hx _)))).1
  subst hvalue
  refine hs h₁ t₁ ⟨c₁, l₁, ?_⟩ hheld
  rw [hheld]
  exact List.subset_append_left _ _

theorem require_safe {c : Prop} [Decidable c] {e : Err} {f : Unit → Tx shifts β}
    (hs : c → (f ()).Safe d₀ (Commits host d₀ reqs) i Anything Anything t h) :
    (Tx.require c e >>= f).Safe d₀ (Commits host d₀ reqs) i Anything Anything t h :=
  Tx.Safe.require hs fun _ _ _ => trivial

theorem authorize_safe {s : Selection} {f : Unit → Tx shifts β} (hc : t.Clean)
    (hs : ∀ h' t', Onward host d₀ reqs i t h t' h' →
      (f ()).Safe d₀ (Commits host d₀ reqs) i Anything Anything t' h') :
    (authorize actor s >>= f).Safe d₀ (Commits host d₀ reqs) i Anything Anything t h := by
  unfold authorize
  simp only [Tx.bind_assoc]
  refine silent_onward hc _ (fun _ => rfl) ?_
  intro h₁ t₁ o₁ _
  refine silent_onward o₁.clean _ (fun _ => rfl) ?_
  intro h₂ t₂ o₂ _
  exact require_safe fun _ => hs h₂ t₂ (o₁.trans o₂)

theorem lockAll_safe {keys : List JsString} {f : Unit → Tx shifts β} (hc : t.Clean)
    (hl : Lawful (Commits host d₀ reqs) h)
    (hs : ∀ h' t', Onward host d₀ reqs i t h t' h' →
      (∀ key ∈ keys, (Key.advisory key, LockMode.update) ∈ t'.held) →
      (f ()).Safe d₀ (Commits host d₀ reqs) i Anything Anything t' h') :
    (lockAll keys >>= f).Safe d₀ (Commits host d₀ reqs) i Anything Anything t h := by
  induction keys generalizing t h with
  | nil => exact hs h t (.refl hc hl) fun _ hk => absurd hk List.not_mem_nil
  | cons key keys ih =>
    unfold lockAll
    simp only [Tx.bind_assoc]
    refine silent_onward hc _ (fun _ => rfl) ?_
    intro h₁ t₁ o₁ hheld
    refine ih o₁.clean o₁.later.lawful ?_
    intro h₂ t₂ o₂ hkeys
    refine hs h₂ t₂ (o₁.trans o₂) ?_
    intro k hk
    rcases List.mem_cons.mp hk with rfl | hk
    · refine o₂.held ?_
      rw [hheld]
      exact List.mem_append_right _ List.mem_cons_self
    · exact hkeys k hk

theorem lockIdentities_safe {ids : List Uuid} {f : Unit → Tx shifts β} (hc : t.Clean)
    (hl : Lawful (Commits host d₀ reqs) h)
    (hs : ∀ h' t', Onward host d₀ reqs i t h t' h' →
      (∀ id ∈ ids, identityLock contextId id ∈ t'.held) →
      (f ()).Safe d₀ (Commits host d₀ reqs) i Anything Anything t' h') :
    (lockIdentities contextId ids >>= f).Safe d₀ (Commits host d₀ reqs) i Anything Anything t h :=
  lockAll_safe hc hl fun h' t' ho hkeys => hs h' t' ho fun _ hid =>
    hkeys _ (List.mem_map_of_mem (mem_sortedSet.mpr (List.mem_map_of_mem hid)))

theorem lockDays_safe {days : List (Uuid × CalendarDate)} {f : Unit → Tx shifts β} (hc : t.Clean)
    (hl : Lawful (Commits host d₀ reqs) h)
    (hs : ∀ h' t', Onward host d₀ reqs i t h t' h' →
      (∀ day ∈ days, dayLock contextId day ∈ t'.held) →
      (f ()).Safe d₀ (Commits host d₀ reqs) i Anything Anything t' h') :
    (lockDays contextId days >>= f).Safe d₀ (Commits host d₀ reqs) i Anything Anything t h :=
  lockAll_safe hc hl fun h' t' ho hkeys => hs h' t' ho fun _ hday =>
    hkeys _ (List.mem_map_of_mem (mem_sortedSet.mpr (List.mem_map_of_mem hday)))

/-! What was read. -/

theorem noShift_of_none {d : Db} {id : Uuid} (h : d.findShift id contextId = none) :
    NoShift d contextId id := by
  rintro s hs hctx rfl
  have hfound : d.findShift s.data.id contextId = some s :=
    Option.filter_eq_some_iff.mpr ⟨Table.find?_of_mem hs, decide_eq_true hctx⟩
  cases h.symm.trans hfound

theorem noReversal_of_none {d : Db} {id : Uuid} (h : d.findReversal id contextId = none) :
    NoReversal d contextId id := by
  rintro r hr hctx rfl
  have hfound : d.findReversal r.data.id contextId = some r :=
    Option.filter_eq_some_iff.mpr ⟨Table.find?_of_mem hr, decide_eq_true hctx⟩
  cases h.symm.trans hfound

/-- The count under the lock of its day. -/
theorem Later.countActive_eq {held : Locks Key} {memberId : Uuid} {workDate : CalendarDate}
    {excludedId : Option Uuid} (hl : Later (Commits host d₀ reqs) i held h h')
    (hk : dayLock contextId (memberId, workDate) ∈ held) :
    (replay (S := shifts) d₀ h').countActive contextId memberId workDate excludedId =
      (replay (S := shifts) d₀ h).countActive contextId memberId workDate excludedId := by
  unfold Db.countActive
  rw [Later.activeOn_eq hl hk]

/-! Shifts. -/

/-- A shift inserted under the lock of its day, and the rest. -/
theorem insert_safe {dto : CreateWorkShiftDto} {now : Instant} {fp : String}
    {excludedId : Option Uuid} {f : Receipt → Tx shifts β} (hc : t.Clean)
    (hday : dayLock actor.account.contextId (uuid dto.memberId, dto.workDate) ∈ t.held)
    (hs : ∀ h' t', Later (Commits host d₀ reqs) i t.held h h' → t.held ⊆ t'.held →
      t'.iso = .readCommitted → t'.Locked → (replay (S := shifts) d₀ h').shifts.find? (uuid dto.id) =
        none →
      ∀ row, row = shiftRow actor (normalized dto) ((replay (S := shifts) d₀ h').countActive
        actor.account.contextId (uuid dto.memberId) dto.workDate excludedId) now fp →
      t'.pending = [.insertShift row] →
      (f row.creationResponse).Safe d₀ (Commits host d₀ reqs) i Anything Anything t' h') :
    (insert actor dto now fp excludedId >>= f).Safe d₀ (Commits host d₀ reqs) i Anything Anything
      t h := by
  unfold insert
  simp only [Tx.bind_assoc]
  refine silent_onward hc _ (fun _ => rfl) ?_
  intro h₁ t₁ o₁ _
  refine require_safe fun _ => ?_
  refine silent_onward o₁.clean _ (fun _ => rfl) ?_
  intro h₂ t₂ o₂ _
  refine Tx.Safe.writes o₂.clean (fun _ _ _ _ => trivial) ?_
  intro h₃ t₃ u ws l₃ hx hiso hpending hlocked hheld
  change insertShift _ _ = .ok (u, ws) at hx
  unfold insertShift at hx
  split at hx
  · cases hx
  rename_i hnew
  cases hx
  -- Nobody else has come between the count and the insert.
  have hcount : Db.countActive _ actor.account.contextId (uuid dto.memberId) dto.workDate
      excludedId = _ := Later.countActive_eq l₃ (o₂.held (o₁.held hday))
  refine hs h₃ t₃ ((o₁.trans o₂).later.trans (l₃.weaken (o₁.trans o₂).held))
    (fun _ hx => hheld ((o₁.trans o₂).held hx)) hiso hlocked (Option.not_isSome_iff_eq_none.mp hnew)
    _ ?_ hpending
  exact congrArg (fun n => shiftRow actor (normalized dto) n now fp) hcount.symm

theorem createInTx_safe {env : Env} {s : Selection} {dto : CreateWorkShiftDto}
    (hreq : reqs[i]? = some (.create env actor dto)) :
    (createInTx host env actor s dto).Safe d₀ (Commits host d₀ reqs) i Anything Anything
      ⟨.readCommitted, h, [], []⟩ h := by
  unfold createInTx
  refine authorize_safe (Open.Clean.begun h) ?_
  intro h₁ t₁ o₁
  refine lockIdentities_safe o₁.clean o₁.later.lawful ?_
  intro h₂ t₂ o₂ hids
  have hidentity := hids _ List.mem_cons_self
  refine silent_onward o₂.clean _ (fun _ => rfl) ?_
  intro h₃ t₃ o₃ _
  cases (replay (S := shifts) d₀ h₃).findShift (normalized dto).id actor.account.contextId with
  | some row =>
    -- Sent again: nothing is written.
    exact require_safe fun _ => quiet_commit hreq o₃.clean
  | none =>
    refine silent_onward o₃.clean _ (fun _ => rfl) ?_
    intro h₄ t₄ o₄ _
    refine require_safe fun hunused => ?_
    have hfree := noReversal_of_none (Option.isNone_iff_eq_none.mp hunused)
    have hlock := o₄.held (o₃.held hidentity)
    refine lockDays_safe o₄.clean o₄.later.lawful ?_
    intro h₅ t₅ o₅ hdays
    have hday : dayLock actor.account.contextId (uuid dto.memberId, dto.workDate) ∈ t₅.held :=
      hdays _ List.mem_cons_self
    refine insert_safe o₅.clean hday ?_
    intro h₆ t₆ l₆ hheld hiso hlocked hnew row hrow hpending h₇ e₇
    have hlast := l₆.trans (e₇.later.weaken hheld)
    refine ⟨⟨_, hreq, .inr ?_⟩, trivial⟩
    show Effect host d₀ h₇ t₆.held _ t₆.pending
    -- The lock of the day is held to the commit, so the count is that of the commit's state.
    have hcount : Db.countActive _ actor.account.contextId (uuid dto.memberId) dto.workDate none =
        _ := Later.countActive_eq e₇.later (hheld hday)
    have hwrites : t₆.pending = [.insertShift (createdRow host env actor dto
        (replay (S := shifts) d₀ h₇))] := by
      rw [hpending, hrow, ← hcount]
      rfl
    have hid : row.data.id = uuid dto.id := by rw [hrow]; rfl
    have hnew₇ := (hlocked.read_eq (S := shifts) hpending e₇.later d₀
      (fun d => d.shifts.find? (uuid dto.id)) fun _ _ hne => shifts_apply_ne (hid ▸ hne)).trans hnew
    rw [hwrites]
    exact .created hnew₇ (Later.no_reversal (o₅.later.trans (hlast.weaken o₅.held)) hlock hfree)
      (hheld (o₅.held hlock)) (hheld hday)

/-! Reversals. -/

theorem reversals_pending {rows : List WorkShift} {d : Db} :
    (applyAll (S := shifts) d (rows.map .insertShift)).reversals = d.reversals := by
  induction rows generalizing d with
  | nil => rfl
  | cons row rows ih => exact ih

/-- The rows of a replacement count the same under the lock of its day. -/
theorem replacementRow_eq {held : Locks Key} {env : Env} {id workShiftId : Uuid}
    {dto : ReverseWorkShiftDto} {original : WorkShift}
    (hl : Later (Commits host d₀ reqs) i held h h')
    (hdays : ∀ day ∈ correctedDays original dto, dayLock actor.account.contextId day ∈ held) :
    dto.replacement.map (replacementRow host env actor id workShiftId (replay (S := shifts) d₀ h')) =
      dto.replacement.map (replacementRow host env actor id workShiftId
        (replay (S := shifts) d₀ h)) := by
  refine Option.map_congr fun r hr => ?_
  unfold replacementRow
  dsimp only
  refine congrArg (fun n => shiftRow actor (normalized r) n _ _) (Later.countActive_eq hl ?_)
  refine hdays ((normalized r).memberId, (normalized r).workDate) ?_
  unfold correctedDays
  rw [hr]
  exact List.mem_cons_of_mem _ List.mem_cons_self

/-- The reversal inserted, after its replacement if it has one. -/
theorem createReversal_safe {env : Env} {target : String} {dto : ReverseWorkShiftDto}
    {original : WorkShift} (rows : Option WorkShift)
    (hreq : reqs[i]? = some (.reverse env actor target dto)) (ht : t.iso = .readCommitted)
    (hrows : rows = dto.replacement.map (replacementRow host env actor (uuid dto.id) (uuid target)
      (replay (S := shifts) d₀ h)))
    (hp : t.pending = rows.toList.map .insertShift)
    (horiginal : (replay (S := shifts) d₀ h).findShift (uuid target) actor.account.contextId =
      some original)
    (hfree : NoShift (replay (S := shifts) d₀ h) actor.account.contextId (uuid dto.id))
    (hnew : ∀ h', Later (Commits host d₀ reqs) i t.held h h' → ∀ r ∈ dto.replacement,
      (replay (S := shifts) d₀ h').shifts.find? (uuid r.id) = none)
    (hunused : ∀ r ∈ dto.replacement,
      NoReversal (replay (S := shifts) d₀ h) actor.account.contextId (uuid r.id))
    (hdistinct : (identities (uuid target) dto).Nodup)
    (hids : ∀ id ∈ identities (uuid target) dto, identityLock actor.account.contextId id ∈ t.held)
    (hdays : ∀ day ∈ correctedDays original dto, dayLock actor.account.contextId day ∈ t.held) :
    (query (.createReversal (reversalRow host env actor (uuid target) dto original.creationResponse
        (rows.map (·.creationResponse)))) >>= fun _ =>
      (.ret (true, (reversalRow host env actor (uuid target) dto original.creationResponse
        (rows.map (·.creationResponse))).creationResponse) : Tx shifts (Bool × ReversalReceipt))).Safe
      d₀ (Commits host d₀ reqs) i Anything Anything t h := by
  refine Tx.Safe.send ht (fun _ _ _ => trivial) ?_
  intro h₁ u ws e₁ hx
  change insertReversal _ (applyAll (S := shifts) (replay (S := shifts) d₀ h₁) t.pending) =
    .ok (u, ws) at hx
  unfold insertReversal at hx
  rw [hp, reversals_pending] at hx
  split at hx
  · cases hx
  rename_i hnone
  split at hx
  · cases hx
  rename_i hactive
  split at hx
  · cases hx
  split at hx
  · cases hx
  cases hx
  intro h₂ e₂
  have hl₁ := e₁.later
  have hafter := e₂.later.weaken (List.subset_append_left t.held _)
  have hl₂ := (e₁.exec (.createReversal (reversalRow host env actor (uuid target) dto
    original.creationResponse (rows.map (·.creationResponse))))).trans hafter
  have hactive₁ : ∀ r ∈ (replay (S := shifts) d₀ h₁).reversals.rows,
      r.data.workShiftId ≠ uuid target := by
    intro r hr hid
    exact hactive (List.any_eq_true.mpr ⟨r, hr, decide_eq_true hid⟩)
  have horiginal₁ := findShift_grows (Lawful.grows hl₁.lawful hl₁.pre) horiginal
  have htarget : uuid target ∈ identities (uuid target) dto :=
    List.mem_cons_of_mem _ List.mem_cons_self
  refine ⟨⟨_, hreq, .inr ?_⟩, trivial⟩
  show Effect host d₀ h₂ _ _ (t.pending ++ _)
  rw [hp, hrows, ← replacementRow_eq hl₂ hdays]
  refine .reversed (findShift_grows (Lawful.grows hl₂.lawful hl₂.pre) horiginal) ?_ ?_
    (Later.no_shift hl₂ (hids _ List.mem_cons_self) hfree) ?_ hdistinct
    (fun id hid => List.mem_append_left _ (hids id hid))
    fun day hday => List.mem_append_left _ (hdays day hday)
  · refine Later.not_reversed (s := original) hafter (hids _ htarget) ?_ ?_
    · rw [replay_sent]
      exact horiginal₁
    · rw [replay_sent]
      exact hactive₁
  · exact (e₂.later.since_write (S := shifts) d₀ (fun d => d.reversals.find? (uuid dto.id))
      (w := .insertReversal (reversalRow host env actor (uuid target) dto original.creationResponse
        (rows.map (·.creationResponse))))
      (fun _ _ hne => reversals_apply_ne hne) List.mem_cons_self).trans
      (Option.not_isSome_iff_eq_none.mp hnone)
  · intro r hr
    refine ⟨hnew h₂ hl₂ r hr, Later.no_reversal hl₂ (hids _ ?_) (hunused r hr)⟩
    unfold identities replacementWorkShiftId
    rw [hr]
    simp

theorem reverseNew_safe {env : Env} {target : String} {dto : ReverseWorkShiftDto}
    (hreq : reqs[i]? = some (.reverse env actor target dto)) (hc : t.Clean)
    (hdistinct : (identities (uuid target) dto).Nodup)
    (hids : ∀ id ∈ identities (uuid target) dto, identityLock actor.account.contextId id ∈ t.held) :
    (reverseNew host env actor (uuid target) dto).Safe d₀ (Commits host d₀ reqs) i Anything Anything
      t h := by
  unfold reverseNew
  refine silent_onward hc _ (fun _ => rfl) ?_
  intro h₁ t₁ o₁ _
  refine require_safe fun hunused => ?_
  have hfree := noShift_of_none (Option.isNone_iff_eq_none.mp hunused)
  refine silent_onward o₁.clean _ (fun _ => rfl) ?_
  intro h₂ t₂ o₂ _
  refine Tx.Safe.orThrow (fun live hlive => ?_) fun _ _ _ => trivial
  obtain ⟨original, horiginal, rfl⟩ := Option.map_eq_some_iff.mp hlive
  refine require_safe fun _ => ?_
  refine lockDays_safe o₂.clean o₂.later.lawful ?_
  intro h₃ t₃ o₃ hdays
  have hids₁ : ∀ id ∈ identities (uuid target) dto,
      identityLock actor.account.contextId id ∈ t₁.held := fun id hid => o₁.held (hids id hid)
  have hids₃ : ∀ id ∈ identities (uuid target) dto,
      identityLock actor.account.contextId id ∈ t₃.held :=
    fun id hid => o₃.held (o₂.held (hids₁ id hid))
  have hfree₃ := Later.no_shift (o₂.trans o₃).later (hids₁ _ List.mem_cons_self) hfree
  have horiginal₃ := findShift_grows (Lawful.grows o₃.later.lawful o₃.later.pre) horiginal
  cases hreplacement : dto.replacement with
  | none =>
    refine createReversal_safe none hreq o₃.clean.iso (by rw [hreplacement]; rfl)
      o₃.clean.pending horiginal₃ hfree₃ ?_ ?_ hdistinct hids₃ hdays
    · intro h' _ r hr
      rw [hreplacement] at hr
      cases hr
    · intro r hr
      rw [hreplacement] at hr
      cases hr
  | some x =>
    have hmem : uuid x.id ∈ identities (uuid target) dto := by
      unfold identities replacementWorkShiftId
      rw [hreplacement]
      simp
    have hday : dayLock actor.account.contextId (uuid x.memberId, x.workDate) ∈ t₃.held := by
      refine hdays _ ?_
      unfold correctedDays
      rw [hreplacement]
      exact List.mem_cons_of_mem _ List.mem_cons_self
    unfold insertReplacement
    simp only [Tx.bind_assoc]
    refine silent_onward o₃.clean _ (fun _ => rfl) ?_
    intro h₄ t₄ o₄ _
    refine silent_onward o₄.clean _ (fun _ => rfl) ?_
    intro h₅ t₅ o₅ _
    refine require_safe fun hnone => ?_
    have hused := noReversal_of_none (Option.isNone_iff_eq_none.mp hnone.2)
    have o₃₅ := o₄.trans o₅
    refine insert_safe o₅.clean (o₃₅.held hday) ?_
    intro h₆ t₆ l₆ hheld hiso hlocked hnew row hrow hpending
    have hid : row.data.id = uuid x.id := by rw [hrow]; rfl
    have hheld₆ : t₃.held ⊆ t₆.held := fun _ hx => hheld (o₃₅.held hx)
    have hl₆ := o₃₅.later.trans (l₆.weaken o₃₅.held)
    refine createReversal_safe (some row) hreq hiso (by rw [hreplacement, hrow]; rfl) hpending
      (findShift_grows (Lawful.grows hl₆.lawful hl₆.pre) horiginal₃)
      (Later.no_shift hl₆ (hids₃ _ List.mem_cons_self) hfree₃) ?_ ?_ hdistinct
      (fun id hid => hheld₆ (hids₃ id hid)) fun day hday => hheld₆ (hdays day hday)
    · intro h' hl' r hr
      cases hreplacement.symm.trans hr
      exact (hlocked.read_eq (S := shifts) hpending hl' d₀ (fun d => d.shifts.find? (uuid x.id))
        fun _ _ hne => shifts_apply_ne (hid ▸ hne)).trans hnew
    · intro r hr
      cases hreplacement.symm.trans hr
      exact Later.no_reversal l₆ (o₃₅.held (hids₃ _ hmem)) hused

theorem reverseInTx_safe {env : Env} {s : Selection} {target : String} {dto : ReverseWorkShiftDto}
    (hreq : reqs[i]? = some (.reverse env actor target dto))
    (hdistinct : (identities (uuid target) dto).Nodup) :
    (reverseInTx host env actor s (uuid target) dto).Safe d₀ (Commits host d₀ reqs) i Anything
      Anything ⟨.readCommitted, h, [], []⟩ h := by
  unfold reverseInTx
  refine authorize_safe (Open.Clean.begun h) ?_
  intro h₁ t₁ o₁
  refine lockIdentities_safe o₁.clean o₁.later.lawful ?_
  intro h₂ t₂ o₂ hids
  refine silent_onward o₂.clean _ (fun _ => rfl) ?_
  intro h₃ t₃ o₃ _
  cases (replay (S := shifts) d₀ h₃).findReversal (uuid dto.id) actor.account.contextId with
  | some row => exact require_safe fun _ => quiet_commit hreq o₃.clean
  | none => exact reverseNew_safe hreq o₃.clean hdistinct fun id hid => o₃.held (hids id hid)

/-! Requests. -/

theorem settle_safe {body : Tx shifts β}
    (hb : ∀ h', body.Safe d₀ (Commits host d₀ reqs) i Anything Anything
      ⟨.readCommitted, h', [], []⟩ h') :
    (Call.tx .readCommitted body conflict).Safe d₀ (Commits host d₀ reqs) i Anything h := by
  have herror : ∀ e h', (conflict (.error e) : Call shifts β).Safe d₀
      (Commits host d₀ reqs) i Anything h' := by
    intro e h'
    unfold conflict
    split
    · contradiction
    · exact fun _ _ => trivial
    · exact fun _ _ => trivial
  exact ⟨fun h₁ _ => (hb h₁).mono (fun _ _ _ _ _ => trivial) fun e h' _ => herror e h',
    fun e h' _ _ _ => herror e h'⟩

theorem checkReversal_nodup {workShiftId : Uuid} {dto : ReverseWorkShiftDto} {s : Selection}
    (h : checkReversal actor workShiftId dto = .ok s) : (identities workShiftId dto).Nodup := by
  unfold checkReversal at h
  obtain ⟨_, -, h⟩ := ok_of_bind h
  obtain ⟨_, -, h⟩ := ok_of_bind h
  split at h
  · assumption
  · cases h

/-- Every request keeps the guarantee. -/
theorem Request.safe {r : Request} (hreq : reqs[i]? = some r) :
    (r.call host).Safe d₀ (Commits host d₀ reqs) i Anything h := by
  cases r with
  | create env actor dto =>
    refine Call.Safe.map ?_
    unfold WorkShifts.create
    cases checkSelection actor dto.createdByMemberId dto.deviceId with
    | error e => exact fun _ _ => trivial
    | ok s => exact settle_safe fun h' => createInTx_safe hreq
  | reverse env actor target dto =>
    refine Call.Safe.map ?_
    unfold WorkShifts.reverse
    cases hcheck : checkReversal actor (uuid target) dto with
    | error e => exact fun _ _ => trivial
    | ok s => exact settle_safe fun h' => reverseInTx_safe hreq (checkReversal_nodup hcheck)

end

/-- The requests of a run keep their guarantee in each of its states. -/
theorem Reachable.lawful {host : Host} {d₀ : Db} {reqs : List Request} {s : Sys shifts Answer}
    (hr : Reachable host d₀ reqs s) : Lawful (Commits host d₀ reqs) s.hist := by
  have hok : s.Ok (S := shifts) d₀ (Commits host d₀ reqs) fun _ => Anything := by
    refine Sys.Reach.ok hr (Sys.initial_ok ?_)
    intro i c hc
    rw [List.getElem?_map] at hc
    obtain ⟨r, hreq, rfl⟩ := Option.map_eq_some_iff.mp hc
    exact Request.safe hreq
  exact hok.lawful

end Bazar.WorkShifts
