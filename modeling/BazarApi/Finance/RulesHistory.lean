import BazarApi.Finance.RuleSets

/- The rule sets of a history. A request creates a draft with the last version when there is none,
   or moves sets to other states, and keeps one draft, one open proposal and one set in force
   (`Ordered`). -/
open Json

namespace Bazar.Finance.RuleSets
open Rules

/-! What a request may do to the sets. -/

/-- A change of rows that keeps identities and opens no second slot. -/
structure Moves (l : List RuleSetRow) (g : RuleSetRow → RuleSetRow) : Prop where
  sameId : ∀ r, (g r).id = r.id
  sameVersion : ∀ r, (g r).version = r.version
  draft : ∀ r ∈ l, (g r).status = .borrador → r.status = .borrador
  proposal : ∀ r ∈ l, ∀ s ∈ l, isOpen (g r).status → isOpen (g s).status →
    isOpen r.status ∧ isOpen s.status ∨ r.id = s.id
  inForce : ∀ r ∈ l, ∀ s ∈ l, (g r).status = .vigente → (g s).status = .vigente →
    r.status = .vigente ∧ s.status = .vigente ∨ r.id = s.id

inductive Change (l : List RuleSetRow) : List RuleSetRow → Prop where
  | created (r : RuleSetRow) (hid : ∀ s ∈ l, s.id ≠ r.id) (hversion : ∀ s ∈ l, s.version < r.version)
    (hstatus : r.status = .borrador) (hno : ∀ s ∈ l, s.status ≠ .borrador) : Change l (l ++ [r])
  | moved (g : RuleSetRow → RuleSetRow) (h : Moves l g) : Change l (l.map g)

/-- The rows of a history: versions grow, the draft is the last one, and each slot is taken at
    most once. -/
structure Ordered (l : List RuleSetRow) : Prop where
  versions : l.Pairwise fun r s => r.version < s.version
  ids : (l.map fun r => r.id).Nodup
  draft : ∀ r ∈ l, r.status = .borrador → ∀ s ∈ l, s.version ≤ r.version
  proposal : ∀ r ∈ l, ∀ s ∈ l, isOpen r.status → isOpen s.status → r.id = s.id
  inForce : ∀ r ∈ l, ∀ s ∈ l, r.status = .vigente → s.status = .vigente → r.id = s.id

theorem Ordered.unique {l : List RuleSetRow} (h : Ordered l) {r s : RuleSetRow} (hr : r ∈ l)
    (hs : s ∈ l) (hid : r.id = s.id) : r = s :=
  List.inj_on_of_nodup_map h.ids hr hs hid

theorem Change.ordered {l l' : List RuleSetRow} (hc : Change l l') (h : Ordered l) : Ordered l' := by
  cases hc with
  | created r hid hversion hstatus hno =>
    have hopen : ¬isOpen r.status := by
      rw [hstatus]
      decide
    have hforce : r.status ≠ .vigente := by
      rw [hstatus]
      decide
    constructor
    · rw [List.pairwise_append]
      refine ⟨h.versions, List.pairwise_singleton _ _, ?_⟩
      intro s hs t ht
      rw [List.mem_singleton.mp ht]
      exact hversion s hs
    · rw [List.map_append, List.nodup_append]
      refine ⟨h.ids, List.nodup_singleton _, ?_⟩
      intro x hx y hy hxy
      obtain ⟨s, hs, rfl⟩ := List.mem_map.mp hx
      rw [List.map_singleton, List.mem_singleton] at hy
      exact hid s hs (hxy.trans hy)
    · intro s hs hdraft t ht
      rcases List.mem_append.mp hs with hs | hs
      · exact absurd hdraft (hno s hs)
      · rw [List.mem_singleton.mp hs]
        rcases List.mem_append.mp ht with ht | ht
        · exact (hversion t ht).le
        · rw [List.mem_singleton.mp ht]
    · intro s hs t ht hso hto
      rcases List.mem_append.mp hs with hs | hs
      · rcases List.mem_append.mp ht with ht | ht
        · exact h.proposal s hs t ht hso hto
        · rw [List.mem_singleton.mp ht] at hto
          exact absurd hto hopen
      · rw [List.mem_singleton.mp hs] at hso
        exact absurd hso hopen
    · intro s hs t ht hsv htv
      rcases List.mem_append.mp hs with hs | hs
      · rcases List.mem_append.mp ht with ht | ht
        · exact h.inForce s hs t ht hsv htv
        · rw [List.mem_singleton.mp ht] at htv
          exact absurd htv hforce
      · rw [List.mem_singleton.mp hs] at hsv
        exact absurd hsv hforce
  | moved g hg =>
    constructor
    · rw [List.pairwise_map]
      refine h.versions.imp ?_
      intro r s hrs
      rw [hg.sameVersion, hg.sameVersion]
      exact hrs
    · rw [List.map_map]
      have hids : (fun r : RuleSetRow => r.id) ∘ g = fun r => r.id := funext hg.sameId
      rw [hids]
      exact h.ids
    · intro s hs hdraft t ht
      obtain ⟨r, hr, rfl⟩ := List.mem_map.mp hs
      obtain ⟨q, hq, rfl⟩ := List.mem_map.mp ht
      rw [hg.sameVersion, hg.sameVersion]
      exact h.draft r hr (hg.draft r hr hdraft) q hq
    · intro s hs t ht hso hto
      obtain ⟨r, hr, rfl⟩ := List.mem_map.mp hs
      obtain ⟨q, hq, rfl⟩ := List.mem_map.mp ht
      rw [hg.sameId, hg.sameId]
      rcases hg.proposal r hr q hq hso hto with ⟨hr', hq'⟩ | heq
      · exact h.proposal r hr q hq hr' hq'
      · exact heq
    · intro s hs t ht hsv htv
      obtain ⟨r, hr, rfl⟩ := List.mem_map.mp hs
      obtain ⟨q, hq, rfl⟩ := List.mem_map.mp ht
      rw [hg.sameId, hg.sameId]
      rcases hg.inForce r hr q hq hsv htv with ⟨hr', hq'⟩ | heq
      · exact h.inForce r hr q hq hr' hq'
      · exact heq

theorem Moves.refl (l : List RuleSetRow) : Moves l id :=
  ⟨fun _ => rfl, fun _ => rfl, fun _ _ h => h, fun _ _ _ _ hr hs => Or.inl ⟨hr, hs⟩,
    fun _ _ _ _ hr hs => Or.inl ⟨hr, hs⟩⟩

theorem Change.refl (l : List RuleSetRow) : Change l l := by
  have h := Change.moved id (Moves.refl l)
  rwa [List.map_id] at h

/-- A change that keeps statuses or closes sets. -/
theorem Moves.of_closed {l : List RuleSetRow} {g : RuleSetRow → RuleSetRow}
    (hid : ∀ r, (g r).id = r.id) (hversion : ∀ r, (g r).version = r.version)
    (hstatus : ∀ r, (g r).status = r.status ∨ (g r).status = .descartada) : Moves l g := by
  have hopen {r} (h : isOpen (g r).status) : isOpen r.status := by
    rcases hstatus r with hr | hr
    · rwa [hr] at h
    · rw [hr] at h
      cases h
  have hforce {r} (h : (g r).status = .vigente) : r.status = .vigente := by
    rcases hstatus r with hr | hr
    · rwa [hr] at h
    · rw [hr] at h
      cases h
  refine ⟨hid, hversion, ?_, fun r _ s _ hr hs => Or.inl ⟨hopen hr, hopen hs⟩,
    fun r _ s _ hr hs => Or.inl ⟨hforce hr, hforce hs⟩⟩
  intro r _ h
  rcases hstatus r with hr | hr
  · rwa [hr] at h
  · rw [hr] at h
    cases h

/-! Statements. -/

section
variable {α β : Type}

theorem bind_ok {x : Except Failure α} {f : α → Except Failure β} {b : β} (h : x >>= f = .ok b) :
    ∃ a, x = .ok a ∧ f a = .ok b := by
  cases x with
  | error e => cases h
  | ok a => exact ⟨a, rfl, h⟩

/-- What a check lets through. -/
theorem guard_ok {c : Prop} [Decidable c] {e : Failure} {k : PUnit → Except Failure β}
    {rest : Except Failure β} {b : β} (h : (if c then throw e >>= k else rest) = .ok b) :
    ¬c ∧ rest = .ok b := by
  split at h
  · cases h
  · rename_i hc
    exact ⟨hc, h⟩

/-- The same of an optional answer. -/
theorem guard_some {c : Prop} [Decidable c] {k : PUnit → Option β} {rest : Option β} {b : β}
    (h : (if c then none >>= k else rest) = some b) : ¬c ∧ rest = some b := by
  split at h
  · cases h
  · rename_i hc
    exact ⟨hc, h⟩

end

@[simp] theorem setRule_ruleSets (db : Db) (id : Uuid) (f : RuleSetRow → RuleSetRow) :
    (db.setRule id f).ruleSets = db.ruleSets.map fun r => if r.id = id then f r else r := rfl

@[simp] theorem setLinks_ruleSets (db : Db) (p : Link → Bool) (f : Link → Link) :
    (db.setLinks p f).ruleSets = db.ruleSets := rfl

@[simp] theorem issueAll_ruleSets (host : Host) (env : Env) (id : Uuid) (kind : LinkKind) (me : Uuid)
    (partners : List Member) (db : Db) :
    (issueAll host env id kind me partners db).ruleSets = db.ruleSets := by
  unfold issueAll
  generalize partners.zipIdx = ps
  induction ps generalizing db with
  | nil => rfl
  | cons p ps ih =>
    rw [List.foldl_cons, ih]
    split
    · rfl
    · rfl

theorem lockRow_ok {db : Db} {id : Uuid} {row : RuleSetRow} (h : lockRow db id = .ok row) :
    row ∈ db.ruleSets ∧ row.id = id := by
  unfold lockRow at h
  split at h
  · rename_i r hr
    cases h
    have hid := List.find?_some hr
    exact ⟨List.mem_of_find?_eq_some hr, by simpa using hid⟩
  · cases h

theorem le_foldr_max {l : List Nat} {n : Nat} (h : n ∈ l) : n ≤ l.foldr max 0 := by
  induction l with
  | nil => cases h
  | cons m l ih =>
    rw [List.foldr_cons]
    rcases List.mem_cons.mp h with rfl | h
    · exact le_max_left _ _
    · exact (ih h).trans (le_max_right _ _)

theorem createDraft_change {env : Env} {actor : Socio} {config : FinanceRulesConfig} {hash : String}
    {basedOnId : Option Uuid} {db after : Db} (hno : ∀ s ∈ db.ruleSets, s.status ≠ .borrador)
    (h : createDraft env actor config hash basedOnId db = .ok after) :
    Change db.ruleSets after.ruleSets := by
  unfold createDraft at h
  dsimp only at h
  split at h
  · cases h
  · rename_i hfresh
    cases h
    refine .created _ ?_ ?_ rfl hno
    · intro s hs heq
      exact hfresh (List.any_eq_true.mpr ⟨s, hs, decide_eq_true heq⟩)
    · intro s hs
      exact Nat.lt_succ_of_le (le_foldr_max (List.mem_map_of_mem hs))

theorem find_status_none {db : Db} {p : RuleSetRow → Bool}
    (h : db.ruleSets.find? p = none) : ∀ s ∈ db.ruleSets, ¬p s :=
  fun s hs => List.find?_eq_none.mp h s hs

section
variable {host : Host} {env : Env} {actor : Socio} {id : Uuid} {db after : Db}

theorem saveDraft_change {input : Raw} (h : saveDraft host env actor input db = .ok after) :
    Change db.ruleSets after.ruleSets := by
  unfold saveDraft at h
  split at h
  · cases h
  · dsimp only at h
    split at h
    · split at h
      · cases h
      · cases h
        refine .moved _ (Moves.of_closed ?_ ?_ ?_)
        · intro r
          split <;> rfl
        · intro r
          split <;> rfl
        · intro r
          left
          split <;> rfl
    · rename_i hnone
      exact createDraft_change (fun s hs hd => find_status_none hnone s hs (decide_eq_true hd)) h

theorem discard_change (h : discard env actor id db = .ok after) :
    Change db.ruleSets after.ruleSets := by
  obtain ⟨row, -, h⟩ := bind_ok h
  obtain ⟨-, h⟩ := guard_ok h
  cases h
  refine .moved _ (Moves.of_closed ?_ ?_ ?_)
  · intro r
    split <;> rfl
  · intro r
    split <;> rfl
  · intro r
    split
    · exact Or.inr rfl
    · exact Or.inl rfl

theorem modify_change (h : modify env actor id db = .ok after) :
    Change db.ruleSets after.ruleSets := by
  obtain ⟨row, -, h⟩ := bind_ok h
  obtain ⟨-, h⟩ := guard_ok h
  split at h
  · cases h
  · rename_i hnone
    exact createDraft_change (fun s hs hd => find_status_none hnone s hs (decide_eq_true hd)) h

/-- What activates a proposal: the one in force is replaced, and the proposal moves. -/
theorem settle_change (env : Env) (id : Uuid) (db : Db) :
    Change db.ruleSets (settle env id db).2.ruleSets := by
  unfold settle
  split
  · exact .refl _
  · rename_i hpending
    rw [not_not] at hpending
    obtain ⟨p, hp, hpid⟩ := List.any_eq_true.mp hpending
    rw [Bool.and_eq_true, decide_eq_true_eq, decide_eq_true_eq] at hpid
    dsimp only
    split
    · exact .refl _
    · split
      · exact .refl _
      · rw [setRule_ruleSets]
        dsimp only
        rw [List.map_map]
        refine .moved _ ?_
        generalize hg : Function.comp _ _ = g
        have hstatus (r : RuleSetRow) : (g r).status = if r.id = id then .vigente
            else if r.status = .vigente then .reemplazada else r.status := by
          rw [← hg, Function.comp_apply]
          split_ifs <;> simp_all
        refine ⟨fun r => ?_, fun r => ?_, fun r hr h => ?_, fun r hr s hs hro hso => ?_,
          fun r hr s hs hrv hsv => Or.inr ?_⟩
        · rw [← hg, Function.comp_apply]
          split_ifs <;> rfl
        · rw [← hg, Function.comp_apply]
          split_ifs <;> rfl
        · rw [hstatus] at h
          split_ifs at h
          exact h
        · have hopen {q : RuleSetRow} (h : isOpen (g q).status) : isOpen q.status := by
            rw [hstatus] at h
            split_ifs at h
            · cases h
            · cases h
            · exact h
          exact Or.inl ⟨hopen hro, hopen hso⟩
        · -- After the replacement only the proposal is in force.
          have hforce {q : RuleSetRow} (h : (g q).status = .vigente) : q.id = id := by
            rw [hstatus] at h
            split_ifs at h
            · assumption
            · exact absurd h (by assumption)
          rw [hforce hrv, hforce hsv]

/-- The open proposal that `submit` finds is the only one. -/
theorem standing_spec (horder : Ordered db.ruleSets) {standing : Option RuleSetRow}
    (h : openProposal db = .ok standing) :
    ∀ s ∈ db.ruleSets, isOpen s.status → ∃ o, standing = some o ∧ o.id = s.id := by
  intro s hs hopen
  unfold openProposal at h
  cases hfound : db.ruleSets.find? fun r => isOpen r.status with
  | none => exact absurd hopen (find_status_none hfound s hs)
  | some f =>
    rw [hfound] at h
    have hf := List.mem_of_find?_eq_some hfound
    have hfopen := List.find?_some hfound
    dsimp only at h hfopen
    unfold openAfterLock at h
    cases hrow : lockRow db f.id with
    | error e =>
      rw [hrow] at h
      cases h
    | ok row =>
      rw [hrow] at h
      obtain ⟨hrow, hid⟩ := lockRow_ok hrow
      rw [horder.unique hrow hf hid] at h
      have hsome : standing = some f := by
        simp only [bind, Except.bind, hfopen, if_true] at h
        exact (Except.ok.inj h).symm
      exact ⟨f, hsome, horder.proposal f hf s hs hfopen hopen⟩

/-- What the sending of a draft does to the proposal that it replaces. -/
theorem replace_ruleSets (env : Env) (db : Db) (standing : Option RuleSetRow) (row : RuleSetRow) :
    ∃ k : RuleSetRow → RuleSetRow, (replace env standing row db).ruleSets = db.ruleSets.map k ∧
      (∀ r, (k r).id = r.id) ∧ (∀ r, (k r).version = r.version) ∧
      (∀ r, (k r).status = r.status ∨ (k r).status = .descartada) ∧
      ∀ r o, standing = some o → o.id = r.id → (k r).status = .descartada := by
  unfold replace
  split
  · rename_i o
    refine ⟨_, rfl, fun r => ?_, fun r => ?_, fun r => ?_, ?_⟩
    · split <;> rfl
    · split <;> rfl
    · split
      · exact Or.inr rfl
      · exact Or.inl rfl
    · intro r o' ho' hid
      cases ho'
      rw [if_pos hid.symm]
  · refine ⟨fun r => r, (List.map_id _).symm, fun _ => rfl, fun _ => rfl, fun _ => Or.inl rfl, ?_⟩
    intro r o ho
    cases ho

theorem submit_change (horder : Ordered db.ruleSets) (h : submit host env actor id db = .ok after) :
    Change db.ruleSets after.ruleSets := by
  obtain ⟨row, hrow, h⟩ := bind_ok h
  obtain ⟨-, h⟩ := guard_ok h
  obtain ⟨-, h⟩ := guard_ok h
  obtain ⟨-, h⟩ := guard_ok h
  obtain ⟨standing, hstanding, h⟩ := bind_ok h
  have hspec := standing_spec horder hstanding
  obtain ⟨-, h⟩ := guard_ok h
  obtain ⟨changes, -, h⟩ := bind_ok h
  obtain ⟨k, hk, hkid, hkversion, hkstatus, hkclosed⟩ :=
    replace_ruleSets env db standing row
  rw [← Except.ok.inj h, issueAll_ruleSets, setRule_ruleSets, hk, List.map_map]
  refine .moved _ ?_
  generalize hg : Function.comp _ k = g
  have hstatus (r : RuleSetRow) :
      (g r).status = if r.id = id then .pendiente else (k r).status := by
    rw [← hg, Function.comp_apply, hkid]
    split <;> rfl
  refine ⟨fun r => ?_, fun r => ?_, fun r hr h => ?_, fun r hr s hs hro hso => Or.inr ?_,
    fun r hr s hs hrv hsv => ?_⟩
  · rw [← hg, Function.comp_apply, ← hkid r]
    split <;> rfl
  · rw [← hg, Function.comp_apply, ← hkversion r]
    split <;> rfl
  · rw [hstatus] at h
    split at h
    · cases h
    · rcases hkstatus r with hr' | hr'
      · rwa [hr'] at h
      · rw [hr'] at h
        cases h
  · -- The draft takes the place of the proposal that was open.
    have honly {q : RuleSetRow} (hq : q ∈ db.ruleSets) (h : isOpen (g q).status) : q.id = id := by
      by_contra hne
      rw [hstatus, if_neg hne] at h
      rcases hkstatus q with hq' | hq'
      · rw [hq'] at h
        obtain ⟨o, ho, hoid⟩ := hspec q hq h
        rw [← hq', hkclosed q o ho hoid] at h
        cases h
      · rw [hq'] at h
        cases h
    rw [honly hr hro, honly hs hso]
  · have hforce {q : RuleSetRow} (h : (g q).status = .vigente) : q.status = .vigente := by
      rw [hstatus] at h
      split at h
      · cases h
      · rcases hkstatus q with hq' | hq'
        · rwa [hq'] at h
        · rw [hq'] at h
          cases h
    exact Or.inl ⟨hforce hrv, hforce hsv⟩

theorem resend_change (h : resend host env actor id db = .ok after) :
    Change db.ruleSets after.ruleSets := by
  obtain ⟨row, -, h⟩ := bind_ok h
  obtain ⟨-, h⟩ := guard_ok h
  obtain ⟨-, h⟩ := guard_ok h
  have hsettle := settle_change env id db
  dsimp only at h
  split at h
  · rw [← Except.ok.inj h]
    exact hsettle
  · rw [← Except.ok.inj h, issueAll_ruleSets]
    exact .refl _

theorem linkRespond_change {tokenHash outcome : String} {reason : Option JsString}
    (horder : Ordered db.ruleSets)
    (h : linkRespond env tokenHash reason db = some (outcome, after)) :
    Change db.ruleSets after.ruleSets := by
  obtain ⟨l, -, h⟩ := Option.bind_eq_some_iff.mp h
  obtain ⟨s, hs, h⟩ := Option.bind_eq_some_iff.mp h
  have hmem := List.mem_of_find?_eq_some hs
  have hid := List.find?_some hs
  rw [decide_eq_true_eq] at hid
  obtain ⟨-, h⟩ := guard_some h
  obtain ⟨-, h⟩ := guard_some h
  dsimp only at h
  split at h
  · cases h
    exact .refl _
  · obtain ⟨hpending, h⟩ := guard_some h
    rw [not_not] at hpending
    split at h
    · obtain ⟨-, h⟩ := guard_some h
      cases h
      exact (settle_change env _ _ : Change (Db.setLinks ⟨db.ruleSets, _, _, _, _⟩ _ _).ruleSets _)
    · obtain ⟨-, h⟩ := guard_some h
      cases h
      rw [setRule_ruleSets]
      refine .moved _ ⟨fun r => ?_, fun r => ?_, fun r hr h => ?_, fun r hr t ht hro hto => ?_,
        fun r hr t ht hrv htv => ?_⟩
      · split <;> rfl
      · split <;> rfl
      · split at h
        · cases h
        · exact h
      · -- The proposal was open before.
        have hopen {q : RuleSetRow} (hq : q ∈ db.ruleSets) (h : isOpen (if q.id = l.ruleSetId then
            { q with status := .enRevision, inReviewAt := some env.now, updatedAt := env.now }
            else q).status) : isOpen q.status := by
          split at h
          · rename_i hqid
            rw [horder.unique hq hmem (hqid.trans hid.symm), hpending]
            rfl
          · exact h
        exact Or.inl ⟨hopen hr hro, hopen ht hto⟩
      · have hforce {q : RuleSetRow} (h : (if q.id = l.ruleSetId then
            { q with status := .enRevision, inReviewAt := some env.now, updatedAt := env.now }
            else q).status = .vigente) : q.status = .vigente := by
          split at h
          · cases h
          · exact h
        exact Or.inl ⟨hforce hrv, hforce htv⟩

theorem respond_change {token : String} {decision : Decision} {outcome : String}
    (horder : Ordered db.ruleSets)
    (h : respond host env token decision db = .ok (outcome, after)) :
    Change db.ruleSets after.ruleSets := by
  obtain ⟨reason, -, h⟩ := bind_ok h
  split at h
  · rename_i answer hanswer
    rw [Except.ok.inj h] at hanswer
    exact linkRespond_change horder hanswer
  · cases h

/-- Every request keeps the history in order. -/
theorem step_change (horder : Ordered db.ruleSets) (request : Request) :
    Change db.ruleSets (step host env db request).ruleSets := by
  unfold step
  cases hrun : request.run host env db with
  | error e => exact .refl _
  | ok after =>
    dsimp only
    cases request with
    | saveDraft actor input => exact saveDraft_change hrun
    | discard actor id => exact discard_change hrun
    | submit actor id => exact submit_change horder hrun
    | modify actor id => exact modify_change hrun
    | resend actor id => exact resend_change hrun
    | respond token decision =>
      unfold Request.run at hrun
      dsimp only at hrun
      cases hr : RuleSets.respond host env token decision db with
      | error e =>
        rw [hr] at hrun
        cases hrun
      | ok answer =>
        rw [hr] at hrun
        cases hrun
        exact respond_change horder (by rw [hr] : _ = Except.ok (answer.1, answer.2))
    | delivered linkId sent =>
      cases hrun
      exact .refl _
    | members team =>
      cases hrun
      exact .refl _

end

theorem ordered_empty : Ordered [] :=
  ⟨List.Pairwise.nil, List.nodup_nil, by simp, by simp, by simp⟩

/-- Every history is in order. -/
theorem history_ordered (host : Host) (requests : List (Env × Request)) :
    Ordered (history host requests).ruleSets := by
  unfold history
  suffices h : ∀ db : Db, Ordered db.ruleSets →
      Ordered (requests.foldl (fun db x => step host x.1 db x.2) db).ruleSets from
    h .empty ordered_empty
  induction requests with
  | nil => exact fun db h => h
  | cons x requests ih => exact fun db h => ih _ ((step_change h x.2).ordered h)

namespace Demo

def host : Host := ⟨⟨fun _ => [], fun _ => []⟩, fun _ => "", id, id⟩

def ana : Socio := ⟨⟨"a"⟩, ⟨"m"⟩⟩

def env (n : Nat) : Env := ⟨fun i => ⟨s!"{n}{i}"⟩, fun _ => "enlace", n⟩

/-- One socio drafts and sends a set. -/
def sent : List (Env × Request) :=
  [(env 0, .members [⟨ana.memberId, "Ana", .socio, true, some "ana@correo.mx", 0⟩]),
    (env 1, .saveDraft ana (splitShares 50)), (env 2, .submit ana ((env 1).serverId 0))]

end Demo

end Bazar.Finance.RuleSets
