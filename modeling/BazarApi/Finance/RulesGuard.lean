import BazarApi.Finance.Objections

/- `finance_rule_set_guard`, the trigger on every update of "FinanceRuleSet", beside what the
   requests do. No update of a request trips it, and a set comes into force only when every
   active socio has approved it (`finance_rule_set_settle`). What a request does to the tables is
   said once (`Effect`).

   Correspondence (SQL ↔ Lean):
     `finance_rule_set_guard`  ↔ `arrow`, `GuardAllows`
     `finance_rule_set_settle` ↔ `settle`, `settle_guarded` -/
open Json

namespace Bazar.Finance.RuleSets
open Rules

/-! The guard. -/

/-- The transitions that the guard knows. -/
def arrow : Status → Status → Bool
  | .borrador, new => new = .pendiente || new = .descartada
  | .pendiente, new => new = .enRevision || new = .vigente || new = .descartada
  | .enRevision, new => new = .descartada
  | .vigente, new => new = .reemplazada
  | _, _ => false

/-- An update that the guard lets through. -/
structure GuardAllows (old new : RuleSetRow) : Prop where
  id : new.id = old.id
  version : new.version = old.version
  proposedByMemberId : new.proposedByMemberId = old.proposedByMemberId
  proposedByAccountId : new.proposedByAccountId = old.proposedByAccountId
  basedOnId : new.basedOnId = old.basedOnId
  frozen : old.status ≠ .borrador → new.config = old.config ∧ new.configHash = old.configHash ∧
    new.changeSummary = old.changeSummary
  transition : new.status ≠ old.status → arrow old.status new.status = true

theorem GuardAllows.refl (r : RuleSetRow) : GuardAllows r r :=
  ⟨rfl, rfl, rfl, rfl, rfl, fun _ => ⟨rfl, rfl, rfl⟩, fun h => absurd rfl h⟩

/-- Nothing becomes a draft again. -/
theorem GuardAllows.sent {r r' : RuleSetRow} (h : GuardAllows r r') (hr : r.status ≠ .borrador) :
    r'.status ≠ .borrador := by
  intro hr'
  have harrow := h.transition (by rw [hr']; exact hr.symm)
  rw [hr'] at harrow
  cases hs : r.status <;> rw [hs] at harrow <;> cases harrow

/-- A set in review or discarded never waits for answers again, nor comes into force. -/
theorem GuardAllows.closed {r r' : RuleSetRow} (h : GuardAllows r r')
    (hr : r.status = .enRevision ∨ r.status = .descartada) :
    r'.status = .enRevision ∨ r'.status = .descartada := by
  by_cases hsame : r'.status = r.status
  · rwa [hsame]
  · have harrow := h.transition hsame
    cases hr with
    | inl hr =>
      rw [hr] at harrow
      exact Or.inr (of_decide_eq_true harrow)
    | inr hr =>
      rw [hr] at harrow
      cases harrow

/-! What a request does to the sets. -/

/-- There is an active socio, and each has approved a set. -/
structure Unanimous (db : Db) (id : Uuid) : Prop where
  someone : ∃ m ∈ db.members, m.role = .socio ∧ m.active = true
  everyone : ∀ m ∈ db.members, m.role = .socio → m.active = true →
    ∃ a ∈ db.approvals, a.ruleSetId = id ∧ a.memberId = m.id

theorem Unanimous.of_eq {db after : Db} {id : Uuid} (hmembers : after.members = db.members)
    (happrovals : after.approvals = db.approvals) (h : Unanimous db id) : Unanimous after id :=
  ⟨hmembers ▸ h.someone, hmembers ▸ happrovals ▸ h.everyone⟩

/-- A draft more, or updates that the guard lets through and that put in force only sets of which
    something holds. -/
inductive GuardedRows (l : List RuleSetRow) (ready : Uuid → Prop) : List RuleSetRow → Prop where
  | created (r : RuleSetRow) (hstatus : r.status = .borrador)
    (hversion : r.version = (l.map fun s => s.version).foldr max 0 + 1) :
    GuardedRows l ready (l ++ [r])
  | updated (g : RuleSetRow → RuleSetRow) (hg : ∀ r ∈ l, GuardAllows r (g r))
    (hforce : ∀ r ∈ l, (g r).status = .vigente → r.status = .vigente ∨ ready r.id) :
    GuardedRows l ready (l.map g)

/-- A change of the sets and of nothing else. -/
structure Guarded (db after : Db) : Prop where
  rows : GuardedRows db.ruleSets (Unanimous db) after.ruleSets
  members : after.members = db.members
  approvals : after.approvals = db.approvals
  objections : after.objections = db.objections
  links : after.links = db.links

section
variable {l l' : List RuleSetRow} {ready : Uuid → Prop}

theorem GuardedRows.refl : GuardedRows l ready l := by
  have h : GuardedRows l ready (l.map id) :=
    .updated id (fun r _ => .refl r) fun _ _ hr => Or.inl hr
  rwa [List.map_id] at h

theorem GuardedRows.mono {ready' : Uuid → Prop} (h : GuardedRows l ready l')
    (himp : ∀ id, ready id → ready' id) : GuardedRows l ready' l' := by
  cases h with
  | created r hstatus hversion => exact .created r hstatus hversion
  | updated g hg hforce =>
    exact .updated g hg fun r hr hin => (hforce r hr hin).imp_right (himp r.id)

/-- A set before a change is there after it, updated as the guard allows. -/
theorem GuardedRows.old (h : GuardedRows l ready l') {r : RuleSetRow} (hr : r ∈ l) :
    ∃ r' ∈ l', GuardAllows r r' := by
  cases h with
  | created n => exact ⟨r, List.mem_append_left _ hr, .refl r⟩
  | updated g hg => exact ⟨g r, List.mem_map_of_mem hr, hg r hr⟩

/-- What is in force after a change was so before it, or waited and is ready. -/
theorem GuardedRows.inForce (h : GuardedRows l ready l') {r' : RuleSetRow} (hr' : r' ∈ l')
    (hin : r'.status = .vigente) : ∃ r ∈ l, r.id = r'.id ∧
      (r.status = .vigente ∨ r.status = .pendiente ∧ ready r'.id) := by
  cases h with
  | created n hstatus =>
    cases List.mem_append.mp hr' with
    | inl h => exact ⟨r', h, rfl, Or.inl hin⟩
    | inr h =>
      rw [List.mem_singleton.mp h, hstatus] at hin
      cases hin
  | updated g hg hforce =>
    obtain ⟨r, hr, rfl⟩ := List.mem_map.mp hr'
    refine ⟨r, hr, (hg r hr).id.symm, ?_⟩
    rw [(hg r hr).id]
    by_cases hsame : (g r).status = r.status
    · exact Or.inl (hsame ▸ hin)
    · have harrow := (hg r hr).transition hsame
      rw [hin] at harrow
      cases hs : r.status with
      | pendiente =>
        cases hforce r hr hin with
        | inl h =>
          rw [hs] at h
          cases h
        | inr h => exact Or.inr ⟨rfl, h⟩
      | vigente => exact Or.inl rfl
      | borrador => rw [hs] at harrow; cases harrow
      | enRevision => rw [hs] at harrow; cases harrow
      | reemplazada => rw [hs] at harrow; cases harrow
      | descartada => rw [hs] at harrow; cases harrow
      | retirada => rw [hs] at harrow; cases harrow

end

theorem Guarded.refl (db : Db) : Guarded db db := ⟨.refl, rfl, rfl, rfl, rfl⟩

/-- One set updated. -/
theorem Guarded.setRule {db : Db} (horder : Ordered db.ruleSets) {row : RuleSetRow}
    {f : RuleSetRow → RuleSetRow} (hrow : row ∈ db.ruleSets) (hf : GuardAllows row (f row))
    (hforce : (f row).status ≠ .vigente) : Guarded db (db.setRule row.id f) := by
  refine ⟨.updated _ (fun r hr => ?_) (fun r hr hin => ?_), rfl, rfl, rfl, rfl⟩
  · split
    · rename_i hid
      rwa [horder.unique hr hrow hid]
    · exact .refl r
  · split at hin
    · rename_i hid
      rw [horder.unique hr hrow hid] at hin
      exact absurd hin hforce
    · exact Or.inl hin

/-! Versions. -/

/-- The sets are numbered from 1 on in the order of their creation. -/
def Numbered (l : List RuleSetRow) : Prop := (l.map fun r => r.version) = List.range' 1 l.length

theorem foldr_max_le {l : List Nat} {n : Nat} (h : ∀ m ∈ l, m ≤ n) : l.foldr max 0 ≤ n := by
  induction l with
  | nil => exact Nat.zero_le n
  | cons m l ih =>
    rw [List.foldr_cons]
    exact max_le (h m List.mem_cons_self) (ih fun k hk => h k (List.mem_cons_of_mem m hk))

theorem foldr_max_range' (n : Nat) : (List.range' 1 n).foldr max 0 = n := by
  refine le_antisymm (foldr_max_le fun m hm => ?_) ?_
  · have h := List.mem_range'_1.mp hm
    omega
  · cases n with
    | zero => exact Nat.zero_le _
    | succ n => exact le_foldr_max (List.mem_range'_1.mpr ⟨by omega, by omega⟩)

theorem GuardedRows.numbered {l l' : List RuleSetRow} {ready : Uuid → Prop}
    (hl : GuardedRows l ready l') (h : Numbered l) : Numbered l' := by
  unfold Numbered at h ⊢
  cases hl with
  | created r hstatus hversion =>
    rw [h, foldr_max_range'] at hversion
    rw [List.map_append, h, List.length_append, List.map_singleton, hversion,
      List.length_singleton, List.range'_1_concat, Nat.add_comm]
  | updated g hg =>
    rw [List.map_map, List.length_map, ← h]
    exact List.map_congr_left fun r hr => (hg r hr).version

/-! The statements of the requests. -/

section
variable {host : Host} {env : Env} {actor : Socio} {id : Uuid} {db after : Db}

theorem createDraft_guarded {config : FinanceRulesConfig} {hash : String} {basedOnId : Option Uuid}
    (h : createDraft env actor config hash basedOnId db = .ok after) : Guarded db after := by
  unfold createDraft at h
  dsimp only at h
  split at h
  · cases h
  · cases h
    exact ⟨.created _ rfl rfl, rfl, rfl, rfl, rfl⟩

theorem find_status {db : Db} {p : RuleSetRow → Bool} {r : RuleSetRow}
    (h : db.ruleSets.find? p = some r) : r ∈ db.ruleSets ∧ p r = true :=
  ⟨List.mem_of_find?_eq_some h, List.find?_some h⟩

theorem saveDraft_guarded {input : Raw} (horder : Ordered db.ruleSets)
    (h : saveDraft host env actor input db = .ok after) : Guarded db after := by
  unfold saveDraft at h
  split at h
  · cases h
  · dsimp only at h
    split at h
    · rename_i draft hfound
      obtain ⟨hdraft, hstatus⟩ := find_status hfound
      split at h
      · cases h
      · cases h
        exact .setRule horder hdraft ⟨rfl, rfl, rfl, rfl, rfl,
          fun h => absurd (of_decide_eq_true hstatus) h, fun h => absurd rfl h⟩
          (by rw [of_decide_eq_true hstatus]; decide)
    · exact createDraft_guarded h

theorem modify_guarded (h : modify env actor id db = .ok after) : Guarded db after := by
  obtain ⟨row, -, h⟩ := bind_ok h
  obtain ⟨-, h⟩ := guard_ok h
  split at h
  · cases h
  · exact createDraft_guarded h

/-- A draft or an open proposal may be closed. -/
theorem GuardAllows.discarded {r : RuleSetRow} (hr : r.status = .borrador ∨ isOpen r.status = true)
    (discardedAt : Option Instant) (updatedAt : Instant) (closedNote : Option JsString) :
    GuardAllows r { r with status := .descartada, discardedAt := discardedAt,
                           updatedAt := updatedAt, closedNote := closedNote } := by
  refine ⟨rfl, rfl, rfl, rfl, rfl, fun _ => ⟨rfl, rfl, rfl⟩, fun _ => ?_⟩
  cases hs : r.status with
  | borrador => rfl
  | pendiente => rfl
  | enRevision => rfl
  | vigente => simp [hs, isOpen] at hr
  | reemplazada => simp [hs, isOpen] at hr
  | descartada => simp [hs, isOpen] at hr
  | retirada => simp [hs, isOpen] at hr

theorem discard_guarded (horder : Ordered db.ruleSets) (h : discard env actor id db = .ok after) :
    ∃ closed, Guarded db closed ∧
      after = closed.setLinks (fun l => l.ruleSetId = id && l.usedAt.isNone && l.supersededAt.isNone)
        fun l => { l with supersededAt := some env.now } := by
  obtain ⟨row, hrow, h⟩ := bind_ok h
  obtain ⟨hstatus, h⟩ := guard_ok h
  obtain ⟨hmem, rfl⟩ := lockRow_ok hrow
  cases h
  refine ⟨_, .setRule horder hmem (.discarded ?_ _ _ _) (fun h => Status.noConfusion h), rfl⟩
  by_contra hneither
  rw [not_or] at hneither
  exact hstatus hneither

/-- The proposal that `submit` finds waits or is in review. -/
theorem standing_open {standing : Option RuleSetRow} (h : openProposal db = .ok standing) :
    ∀ o, standing = some o → o ∈ db.ruleSets ∧ isOpen o.status = true := by
  rintro o rfl
  unfold openProposal at h
  split at h
  · obtain ⟨row, hrow, h⟩ := bind_ok h
    have hsome := Except.ok.inj h
    split at hsome
    · rename_i hopen
      rw [← Option.some.inj hsome]
      exact ⟨(lockRow_ok hrow).1, hopen⟩
    · cases hsome
  · cases h

/-- What the sending of a draft does to the proposal that it replaces; drafts stay as they are. -/
theorem replace_guarded (env : Env) (horder : Ordered db.ruleSets) {standing : Option RuleSetRow}
    (hopen : ∀ o, standing = some o → o ∈ db.ruleSets ∧ isOpen o.status = true) (row : RuleSetRow) :
    ∃ k : RuleSetRow → RuleSetRow, (replace env standing row db).ruleSets = db.ruleSets.map k ∧
      ∀ r ∈ db.ruleSets, GuardAllows r (k r) ∧ ((k r).status = .vigente → r.status = .vigente) ∧
        (r.status = .borrador → k r = r) := by
  unfold replace
  split
  · rename_i o
    obtain ⟨ho, hoopen⟩ := hopen o rfl
    refine ⟨_, rfl, fun r hr => ⟨?_, ?_, ?_⟩⟩
    · split
      · rename_i hid
        obtain rfl : r = o := horder.unique hr ho hid
        exact .discarded (Or.inr hoopen) _ _ _
      · exact .refl r
    · intro h
      split at h
      · cases h
      · exact h
    · intro hdraft
      refine if_neg fun hid => ?_
      rw [← horder.unique hr ho hid, hdraft] at hoopen
      cases hoopen
  · exact ⟨fun r => r, (List.map_id _).symm, fun r _ => ⟨.refl r, fun h => h, fun _ => rfl⟩⟩

/-- `submit` up to the links: the draft waits for answers. -/
theorem submit_guarded (horder : Ordered db.ruleSets) (h : submit host env actor id db = .ok after) :
    ∃ row ∈ db.ruleSets, row.id = id ∧ row.status = .borrador ∧ ∃ sent, Guarded db sent ∧
      (∃ r ∈ sent.ruleSets, r.id = id ∧ r.status = .pendiente) ∧
      after = issueAll host env id .envio actor.memberId db.activePartners sent := by
  obtain ⟨row, hrow, h⟩ := bind_ok h
  obtain ⟨hdraft, h⟩ := guard_ok h
  obtain ⟨-, h⟩ := guard_ok h
  obtain ⟨-, h⟩ := guard_ok h
  obtain ⟨standing, hstanding, h⟩ := bind_ok h
  obtain ⟨-, h⟩ := guard_ok h
  obtain ⟨changes, -, h⟩ := bind_ok h
  obtain ⟨hrow, hid⟩ := lockRow_ok hrow
  rw [not_not] at hdraft
  obtain ⟨k, hk, hkept⟩ := replace_guarded env horder (standing_open hstanding) row
  have hkrow : k row = row := (hkept row hrow).2.2 hdraft
  refine ⟨row, hrow, hid, hdraft, _, ⟨?_, ?_, ?_, ?_, ?_⟩, ?_, (Except.ok.inj h).symm⟩
  · -- The draft is sent and the other sets are at most closed: no row is updated twice.
    rw [setRule_ruleSets, hk, List.map_map]
    refine .updated _ (fun r hr => ?_) (fun r hr hin => ?_)
    · rw [Function.comp_apply, (hkept r hr).1.id]
      split
      · rename_i hr'
        obtain rfl : r = row := horder.unique hr hrow (hr'.trans hid.symm)
        rw [hkrow]
        exact ⟨rfl, rfl, rfl, rfl, rfl, fun h => absurd hdraft h, fun _ => by rw [hdraft]; rfl⟩
      · exact (hkept r hr).1
    · rw [Function.comp_apply] at hin
      split at hin
      · cases hin
      · exact Or.inl ((hkept r hr).2.1 hin)
  · unfold replace
    split <;> rfl
  · unfold replace
    split <;> rfl
  · unfold replace
    split <;> rfl
  · unfold replace
    split <;> rfl
  · rw [setRule_ruleSets, hk, List.map_map]
    refine ⟨_, List.mem_map_of_mem hrow, ?_⟩
    rw [Function.comp_apply, hkrow, if_pos hid]
    exact ⟨hid, rfl⟩

/-- What `finance_rule_set_settle` has looked at when it activates a proposal. -/
theorem unanimous_of_settled
    (hsocios : ¬(db.members.filter fun m => m.role = .socio && m.active).isEmpty = true)
    (hall : ¬((db.members.filter fun m => m.role = .socio && m.active).any fun m =>
      !db.approvals.any fun a => a.ruleSetId = id && a.memberId = m.id) = true) :
    Unanimous db id := by
  constructor
  · rw [List.isEmpty_iff, ← ne_eq] at hsocios
    obtain ⟨m, hm⟩ := List.exists_mem_of_ne_nil _ hsocios
    obtain ⟨hm, hsocio⟩ := List.mem_filter.mp hm
    rw [Bool.and_eq_true, decide_eq_true_eq] at hsocio
    exact ⟨m, hm, hsocio⟩
  · intro m hm hrole hactive
    by_contra hnone
    refine hall (List.any_eq_true.mpr ⟨m, List.mem_filter.mpr ⟨hm, ?_⟩, ?_⟩)
    · rw [decide_eq_true hrole, hactive]
      rfl
    · rw [Bool.not_eq_true', List.any_eq_false]
      intro a ha hsame
      rw [Bool.and_eq_true, decide_eq_true_eq, decide_eq_true_eq] at hsame
      exact hnone ⟨a, ha, hsame⟩

/-- What activates a proposal meets the guard twice: at the set that it replaces, and at its own
    change from waiting to in force. -/
theorem settle_guarded (env : Env) (horder : Ordered db.ruleSets) (id : Uuid) :
    Guarded db (settle env id db).2 := by
  unfold settle
  split
  · exact .refl db
  · rename_i hpending
    rw [not_not] at hpending
    obtain ⟨p, hp, hpid⟩ := List.any_eq_true.mp hpending
    rw [Bool.and_eq_true, decide_eq_true_eq, decide_eq_true_eq] at hpid
    dsimp only
    split
    · exact .refl db
    · rename_i hsocios
      split
      · exact .refl db
      · rename_i hall
        have hunanimous : Unanimous db id := unanimous_of_settled hsocios hall
        refine ⟨?_, rfl, rfl, rfl, rfl⟩
        rw [setRule_ruleSets]
        dsimp only
        rw [List.map_map]
        refine .updated _ (fun r hr => ?_) (fun r hr hin => ?_)
        · -- The set itself was waiting, so the first update passes it by.
          rw [Function.comp_apply]
          by_cases hid : r.id = id
          · obtain rfl : r = p := horder.unique hr hp (hid.trans hpid.1.symm)
            have hwaits : ¬r.status = .vigente := by
              rw [hpid.2]
              exact fun h => Status.noConfusion h
            rw [if_neg hwaits, if_pos hid]
            exact ⟨rfl, rfl, rfl, rfl, rfl, fun _ => ⟨rfl, rfl, rfl⟩, fun _ => by rw [hpid.2]; rfl⟩
          · split
            · rename_i hforce
              exact ⟨rfl, rfl, rfl, rfl, rfl, fun _ => ⟨rfl, rfl, rfl⟩, fun _ => by rw [hforce]; rfl⟩
            · exact .refl r
        · by_cases hid : r.id = id
          · rw [hid]
            exact Or.inr hunanimous
          · left
            rw [Function.comp_apply] at hin
            split at hin
            · assumption
            · exact hin

end

end Bazar.Finance.RuleSets
