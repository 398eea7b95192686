import Mathlib.Data.Fintype.EquivFin
import BazarApi.Finance.RulesHistory

/- What the overview shows of a history. The draft has the last version, so it is always among
   the sixty latest; the open proposal and the set in force are while fewer than sixty sets came
   after them. -/
open Json

namespace Bazar.Finance.RuleSets
open Rules

/-! The latest sixty. -/

/-- In a list that descends strictly the first ones are those with few before them. -/
theorem mem_take_iff {α : Type} {v : α → Nat} {l : List α} (h : l.Pairwise fun a b => v b < v a)
    {n : Nat} {a : α} : a ∈ l.take n ↔ a ∈ l ∧ (l.filter fun b => v a < v b).length < n := by
  induction l generalizing n with
  | nil => simp
  | cons x l ih =>
    obtain ⟨hx, hl⟩ := List.pairwise_cons.mp h
    cases n with
    | zero => simp
    | succ n =>
      rw [List.take_succ_cons, List.mem_cons, List.mem_cons, ih hl, List.filter_cons]
      by_cases ha : a ∈ l
      · have hlt := hx a ha
        have hne : a ≠ x := by
          rintro rfl
          exact absurd hlt (lt_irrefl _)
        simp only [ha, hne, hlt, decide_true, if_true, List.length_cons, false_or, true_and,
          Nat.add_lt_add_iff_right]
      · by_cases heq : a = x
        · subst heq
          have hnil : (l.filter fun b => v a < v b) = [] := by
            rw [List.filter_eq_nil_iff]
            intro b hb
            have := hx b hb
            rw [decide_eq_true_eq]
            omega
          simp [hnil]
        · simp [ha, heq]

theorem mem_latest {db : Db} (h : Ordered db.ruleSets) {r : RuleSetRow} : r ∈ latest db ↔
    r ∈ db.ruleSets ∧ (db.ruleSets.filter fun s => r.version < s.version).length < 60 := by
  unfold latest
  have hperm := List.mergeSort_perm db.ruleSets fun a b => decide (b.version ≤ a.version)
  have hdesc : (db.ruleSets.mergeSort fun a b => decide (b.version ≤ a.version)).Pairwise
      fun a b => b.version < a.version := by
    have hle := @List.pairwise_mergeSort _ (fun a b : RuleSetRow => decide (b.version ≤ a.version))
      (fun a b c hab hbc => by
        rw [decide_eq_true_eq] at hab hbc ⊢
        omega)
      (fun a b => by
        rw [Bool.or_eq_true, decide_eq_true_eq, decide_eq_true_eq]
        omega) db.ruleSets
    have hne := (hperm.pairwise_iff (R := fun a b => a.version ≠ b.version) fun h => h.symm).mpr
      (h.versions.imp fun h => h.ne)
    refine (hle.and hne).imp ?_
    rintro a b ⟨hab, hne⟩
    rw [decide_eq_true_eq] at hab
    omega
  rw [mem_take_iff hdesc, hperm.mem_iff, (hperm.filter _).length_eq]

/-- What is found among the latest rows, where at most one row of the history qualifies. -/
theorem find_latest {db : Db} (h : Ordered db.ruleSets) {p : Status → Bool}
    (hone : ∀ r ∈ db.ruleSets, ∀ s ∈ db.ruleSets, p r.status → p s.status → r.id = s.id)
    (maskEmail : String → String) {r : RuleSetRow} :
    (((latest db).map (toView maskEmail db)).find? fun v => p v.row.status).map (fun v => v.row) =
      some r ↔ r ∈ latest db ∧ p r.status := by
  have hfind : (((latest db).map (toView maskEmail db)).find? fun v => p v.row.status).map
      (fun v => v.row) = (latest db).find? fun s => p s.status := by
    rw [List.find?_map, Option.map_map]
    exact Option.map_id_fun ▸ rfl
  rw [hfind]
  constructor
  · intro hr
    exact ⟨List.mem_of_find?_eq_some hr, List.find?_some (p := fun s : RuleSetRow => p s.status) hr⟩
  · rintro ⟨hmem, hp⟩
    obtain ⟨s, hs⟩ : ∃ s, ((latest db).find? fun s => p s.status) = some s :=
      Option.isSome_iff_exists.mp (List.find?_isSome.mpr ⟨r, hmem, hp⟩)
    have hsmem := ((mem_latest h).mp (List.mem_of_find?_eq_some hs)).1
    have hrmem := ((mem_latest h).mp hmem).1
    have hps := List.find?_some (p := fun s : RuleSetRow => p s.status) hs
    rw [hs, h.unique hsmem hrmem (hone s hsmem r hrmem hps hp)]

/-! What the overview shows. -/

/-- An overview shows the rows of the tables: the set in force, the open proposal and the draft,
    each exactly when there is one, and the state that they make. -/
structure Shows (db : Db) (o : Overview) : Prop where
  inForce : ∀ r, o.inForce.map (fun v => v.row) = some r ↔ r ∈ db.ruleSets ∧ r.status = .vigente
  proposal : ∀ r, o.proposal.map (fun v => v.row) = some r ↔ r ∈ db.ruleSets ∧ isOpen r.status
  draft : ∀ r, o.draft.map (fun v => v.row) = some r ↔ r ∈ db.ruleSets ∧ r.status = .borrador
  stateOpen : ∀ s, o.state = .open s ↔ ∃ r ∈ db.ruleSets, isOpen r.status ∧ r.status = s
  stateInForce : o.state = .vigente ↔
    (∃ r ∈ db.ruleSets, r.status = .vigente) ∧ ∀ r ∈ db.ruleSets, ¬isOpen r.status
  stateNone : o.state = .sinAprobar ↔
    ∀ r ∈ db.ruleSets, r.status ≠ .vigente ∧ ¬isOpen r.status

/-- The state is that of the sets that are shown. -/
theorem overview_state (maskEmail : String → String) (db : Db) : (overview maskEmail db).state =
    match (overview maskEmail db).proposal with
    | some p => .open p.row.status
    | none => if (overview maskEmail db).inForce.isSome then .vigente else .sinAprobar := rfl

section
variable {maskEmail : String → String} {db : Db}

theorem overview_inForce (h : Ordered db.ruleSets) {r : RuleSetRow} :
    (overview maskEmail db).inForce.map (fun v => v.row) = some r ↔
      r ∈ latest db ∧ r.status = .vigente := by
  have hfind := find_latest h (p := fun s => decide (s = .vigente))
    (fun r hr s hs hrv hsv => h.inForce r hr s hs (of_decide_eq_true hrv) (of_decide_eq_true hsv))
    maskEmail (r := r)
  rw [decide_eq_true_eq] at hfind
  exact hfind

theorem overview_proposal (h : Ordered db.ruleSets) {r : RuleSetRow} :
    (overview maskEmail db).proposal.map (fun v => v.row) = some r ↔
      r ∈ latest db ∧ isOpen r.status :=
  find_latest h h.proposal maskEmail

theorem overview_draft (h : Ordered db.ruleSets) {r : RuleSetRow} :
    (overview maskEmail db).draft.map (fun v => v.row) = some r ↔
      r ∈ latest db ∧ r.status = .borrador := by
  have hone : ∀ r ∈ db.ruleSets, ∀ s ∈ db.ruleSets, decide (r.status = .borrador) →
      decide (s.status = .borrador) → r.id = s.id := by
    intro r hr s hs hrd hsd
    have hrs := h.draft r hr (of_decide_eq_true hrd) s hs
    have hsr := h.draft s hs (of_decide_eq_true hsd) r hr
    have hnodup : (db.ruleSets.map fun r => r.version).Nodup :=
      List.pairwise_map.mpr (h.versions.imp fun h => h.ne)
    rw [List.inj_on_of_nodup_map hnodup hr hs (le_antisymm hsr hrs)]
  have hfind := find_latest h (p := fun s => decide (s = .borrador)) hone maskEmail (r := r)
  rw [decide_eq_true_eq] at hfind
  exact hfind

/-- The draft is the last version. -/
theorem draft_latest (h : Ordered db.ruleSets) {r : RuleSetRow} (hr : r ∈ db.ruleSets)
    (hd : r.status = .borrador) : r ∈ latest db := by
  refine (mem_latest h).mpr ⟨hr, ?_⟩
  have hnil : (db.ruleSets.filter fun s => r.version < s.version) = [] := by
    rw [List.filter_eq_nil_iff]
    intro s hs
    rw [decide_eq_true_eq]
    exact not_lt.mpr (h.draft r hr hd s hs)
  rw [hnil]
  decide

/-- An overview shows the rows exactly where the set in force and the open proposal are among
    the latest. -/
theorem shows_iff (h : Ordered db.ruleSets) : Shows db (overview maskEmail db) ↔
    ∀ r ∈ db.ruleSets, r.status = .vigente ∨ isOpen r.status → r ∈ latest db := by
  constructor
  · rintro hshows r hr (hv | ho)
    · exact ((overview_inForce h).mp ((hshows.inForce r).mpr ⟨hr, hv⟩)).1
    · exact ((overview_proposal h).mp ((hshows.proposal r).mpr ⟨hr, ho⟩)).1
  · intro hlatest
    have hin (r : RuleSetRow) : (overview maskEmail db).inForce.map (fun v => v.row) = some r ↔
        r ∈ db.ruleSets ∧ r.status = .vigente := by
      rw [overview_inForce h]
      exact ⟨fun hr => ⟨((mem_latest h).mp hr.1).1, hr.2⟩,
        fun hr => ⟨hlatest r hr.1 (Or.inl hr.2), hr.2⟩⟩
    have hprop (r : RuleSetRow) : (overview maskEmail db).proposal.map (fun v => v.row) = some r ↔
        r ∈ db.ruleSets ∧ isOpen r.status := by
      rw [overview_proposal h]
      exact ⟨fun hr => ⟨((mem_latest h).mp hr.1).1, hr.2⟩,
        fun hr => ⟨hlatest r hr.1 (Or.inr hr.2), hr.2⟩⟩
    have hforce : (overview maskEmail db).inForce.isSome ↔ ∃ r ∈ db.ruleSets, r.status = .vigente := by
      constructor
      · intro hsome
        obtain ⟨v, hv⟩ := Option.isSome_iff_exists.mp hsome
        obtain ⟨hr, hs⟩ := (hin v.row).mp (by rw [hv, Option.map_some])
        exact ⟨_, hr, hs⟩
      · rintro ⟨r, hr, hs⟩
        obtain ⟨v, hv, -⟩ := Option.map_eq_some_iff.mp ((hin r).mpr ⟨hr, hs⟩)
        rw [hv]
        rfl
    have hdraft (r : RuleSetRow) : (overview maskEmail db).draft.map (fun v => v.row) = some r ↔
        r ∈ db.ruleSets ∧ r.status = .borrador := by
      rw [overview_draft h]
      exact ⟨fun hr => ⟨((mem_latest h).mp hr.1).1, hr.2⟩, fun hr => ⟨draft_latest h hr.1 hr.2, hr.2⟩⟩
    have hstate := overview_state maskEmail db
    cases hp : (overview maskEmail db).proposal with
    | some v =>
      rw [hp] at hstate
      obtain ⟨hmem, hopen⟩ := (hprop v.row).mp (by rw [hp, Option.map_some])
      refine ⟨hin, hprop, hdraft, fun s => ?_, ?_, ?_⟩
      · rw [hstate, State.open.injEq]
        constructor
        · intro hs
          exact ⟨v.row, hmem, hopen, hs⟩
        · rintro ⟨r, hr, hro, hs⟩
          rw [← hs, h.unique hmem hr (h.proposal _ hmem _ hr hopen hro)]
      · rw [hstate]
        exact iff_of_false (fun h => by cases h) fun h => h.2 _ hmem hopen
      · rw [hstate]
        exact iff_of_false (fun h => by cases h) fun h => (h _ hmem).2 hopen
    | none =>
      rw [hp] at hstate
      have hno : ∀ r ∈ db.ruleSets, ¬isOpen r.status := by
        intro r hr ho
        have hsome := (hprop r).mpr ⟨hr, ho⟩
        rw [hp] at hsome
        cases hsome
      refine ⟨hin, hprop, hdraft, fun s => ?_, ?_, ?_⟩
      · refine iff_of_false ?_ ?_
        · intro hs
          rw [hstate] at hs
          dsimp only at hs
          split at hs <;> cases hs
        · rintro ⟨r, hr, ho, -⟩
          exact hno r hr ho
      · rw [hstate]
        dsimp only
        split
        · rename_i hsome
          exact iff_of_true rfl ⟨hforce.mp hsome, hno⟩
        · rename_i hnone
          exact iff_of_false (fun h => by cases h) fun h => hnone (hforce.mpr h.1)
      · rw [hstate]
        dsimp only
        split
        · rename_i hsome
          obtain ⟨r, hr, hs⟩ := hforce.mp hsome
          exact iff_of_false (fun h => by cases h) fun h => (h r hr).1 hs
        · rename_i hnone
          exact iff_of_true rfl fun r hr => ⟨fun hs => hnone (hforce.mpr ⟨r, hr, hs⟩), hno r hr⟩

end

/-- The overview of a history shows its current sets exactly where fewer than sixty sets came
    after the one in force and after the open proposal. -/
theorem overview_shows_iff (host : Host) (maskEmail : String → String)
    (requests : List (Env × Request)) :
    Shows (history host requests) (overview maskEmail (history host requests)) ↔
      ∀ r ∈ (history host requests).ruleSets, r.status = .vigente ∨ isOpen r.status →
        ((history host requests).ruleSets.filter fun s => r.version < s.version).length < 60 := by
  have horder := history_ordered host requests
  rw [shows_iff horder]
  constructor
  · intro h r hr hs
    exact ((mem_latest horder).mp (h r hr hs)).2
  · intro h r hr hs
    exact (mem_latest horder).mpr ⟨hr, h r hr hs⟩

/-! Drafts that are created and discarded push the set in force down. -/

section
variable (host : Host) (env : Env) (actor : Socio) {db : Db}

theorem step_saveDraft {input : Raw} {config : FinanceRulesConfig}
    (hparse : parseRulesConfig input = .ok config) (hno : ∀ s ∈ db.ruleSets, s.status ≠ .borrador)
    (hfresh : ∀ s ∈ db.ruleSets, s.id ≠ env.serverId 0) :
    ∃ c, (step host env db (.saveDraft actor input)).ruleSets = db.ruleSets ++ [c] ∧
      c.id = env.serverId 0 ∧ c.status = .borrador ∧ ∀ s ∈ db.ruleSets, s.version < c.version := by
  have hfind : db.ruleSets.find? (fun r => r.status = .borrador) = none :=
    List.find?_eq_none.mpr fun s hs h => hno s hs (of_decide_eq_true h)
  have hany : ¬(db.ruleSets.any fun r => r.id = env.serverId 0) = true := by
    intro h
    obtain ⟨s, hs, hid⟩ := List.any_eq_true.mp h
    exact hfresh s hs (of_decide_eq_true hid)
  unfold step Request.run saveDraft createDraft
  dsimp only
  rw [hparse]
  dsimp only
  rw [hfind]
  dsimp only
  rw [if_neg hany]
  exact ⟨_, rfl, rfl, rfl, fun s hs => Nat.lt_succ_of_le (le_foldr_max (List.mem_map_of_mem hs))⟩

theorem step_discard {l : List RuleSetRow} {c : RuleSetRow} (hl : db.ruleSets = l ++ [c])
    (hfresh : ∀ s ∈ l, s.id ≠ c.id) (hc : c.status = .borrador) :
    ∃ c', (step host env db (.discard actor c.id)).ruleSets = l ++ [c'] ∧
      c'.version = c.version ∧ c'.status = .descartada := by
  have hfind : db.ruleSets.find? (fun r => r.id = c.id) = some c := by
    rw [hl, List.find?_append, List.find?_eq_none.mpr fun s hs h => hfresh s hs (of_decide_eq_true h)]
    simp
  have hrow : lockRow db c.id = .ok c := by
    unfold lockRow
    rw [hfind]
  have hkept (f : RuleSetRow → RuleSetRow) :
      (l ++ [c]).map (fun r => if r.id = c.id then f r else r) = l ++ [f c] := by
    rw [List.map_append, List.map_singleton, if_pos rfl]
    congr 1
    conv_rhs => rw [← List.map_id l]
    exact List.map_congr_left fun s hs => if_neg (hfresh s hs)
  unfold step Request.run discard
  dsimp only
  rw [hrow]
  simp only [bind, Except.bind, hc, ne_eq, not_true_eq_false, false_and, if_false]
  exact ⟨_, (congrArg (List.map _) hl).trans (hkept _), rfl, rfl⟩

end

/-- A business whose set in force has `n` later ones, and no draft. -/
def Buried (n : Nat) (db : Db) : Prop :=
  (∀ s ∈ db.ruleSets, s.status ≠ .borrador) ∧ ∃ r ∈ db.ruleSets, r.status = .vigente ∧
    (db.ruleSets.filter fun s => r.version < s.version).length = n

theorem exists_fresh (l : List RuleSetRow) : ∃ id : Uuid, ∀ s ∈ l, s.id ≠ id := by
  have hinj : Function.Injective fun n => Uuid.mk (String.ofList (List.replicate n 'a')) := by
    intro n m h
    have hlist := String.ofList_injective (Uuid.mk.inj h)
    simpa using congrArg List.length hlist
  have hinf : Infinite Uuid := Infinite.of_injective _ hinj
  obtain ⟨id, hid⟩ := Infinite.exists_notMem_finset (l.map fun s => s.id).toFinset
  refine ⟨id, fun s hs heq => hid ?_⟩
  rw [List.mem_toFinset, ← heq]
  exact List.mem_map_of_mem hs

theorem buried_succ (host : Host) (actor : Socio) {input : Raw} {config : FinanceRulesConfig}
    (hparse : parseRulesConfig input = .ok config) {n : Nat} {db : Db} (h : Buried n db) :
    ∃ (env : Env) (id : Uuid), Buried (n + 1)
      (step host env (step host env db (.saveDraft actor input)) (.discard actor id)) := by
  obtain ⟨hno, r, hr, hv, hcount⟩ := h
  obtain ⟨id, hid⟩ := exists_fresh db.ruleSets
  let env : Env := ⟨fun _ => id, fun _ => "", 0⟩
  obtain ⟨c, hc, hcid, hcs, hcv⟩ := step_saveDraft host env actor
    hparse hno hid
  change c.id = id at hcid
  obtain ⟨c', hc', hcv', hcs'⟩ := step_discard host env actor hc
    (by rwa [hcid]) hcs
  rw [hcid] at hc'
  refine ⟨env, id, ?_, r, ?_, hv, ?_⟩
  · rw [hc']
    intro s hs
    rcases List.mem_append.mp hs with hs | hs
    · exact hno s hs
    · rw [List.mem_singleton.mp hs, hcs']
      decide
  · rw [hc']
    exact List.mem_append_left _ hr
  · rw [hc', List.filter_append, List.length_append, hcount, List.filter_singleton, hcv']
    simp [hcv r hr]

/-- Every depth is reached. -/
theorem exists_buried (host : Host) (actor : Socio) {input : Raw} {config : FinanceRulesConfig}
    (hparse : parseRulesConfig input = .ok config) {start : List (Env × Request)}
    (hstart : Buried 0 (history host start)) (n : Nat) :
    ∃ requests, Buried n (history host (start ++ requests)) := by
  induction n with
  | zero => exact ⟨[], by rwa [List.append_nil]⟩
  | succ n ih =>
    obtain ⟨requests, h⟩ := ih
    obtain ⟨env, id, h⟩ := buried_succ host actor hparse h
    refine ⟨requests ++ [(env, .saveDraft actor input), (env, .discard actor id)], ?_⟩
    unfold history at h ⊢
    rw [← List.append_assoc, List.foldl_append]
    exact h

namespace Demo

/-- Ana approves what she sent. -/
def approved : List (Env × Request) := sent ++ [(env 3, .respond "enlace" .approve)]

theorem parses : parseRulesConfig (splitShares 50) = .ok (splitSharesConfig 50) := by decide +kernel

theorem approved_rows : (history host approved).ruleSets.map (fun r => (r.version, r.status)) =
    [(1, .vigente)] := by
  decide +kernel

theorem approved_buried : Buried 0 (history host approved) := by
  obtain ⟨r, hr, hrow⟩ := List.map_eq_singleton_iff.mp approved_rows
  obtain ⟨-, hstatus⟩ := Prod.mk.inj hrow
  unfold Buried
  rw [hr]
  refine ⟨?_, r, List.mem_singleton_self r, hstatus, ?_⟩
  · intro s hs
    rw [List.mem_singleton.mp hs, hstatus]
    decide
  · simp

end Demo

/-- After sixty drafts that were discarded, the set in force is not shown. -/
theorem overview_hides_inForce : ¬∀ (host : Host) (maskEmail : String → String)
    (requests : List (Env × Request)),
    Shows (history host requests) (overview maskEmail (history host requests)) := by
  intro h
  obtain ⟨requests, -, r, hr, hv, hcount⟩ :=
    exists_buried Demo.host Demo.ana Demo.parses Demo.approved_buried 60
  have hshows := (shows_iff (history_ordered _ _)).mp (h Demo.host id (Demo.approved ++ requests)) r hr
    (Or.inl hv)
  have hlt := ((mem_latest (history_ordered _ _)).mp hshows).2
  omega

end Bazar.Finance.RuleSets
