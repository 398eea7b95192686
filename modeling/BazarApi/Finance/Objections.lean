import BazarApi.Common.TextSanitize
import BazarApi.Finance.RulesHistory

/- The reason of an objection on its way to the tables (`respond` of
   `finance/finance-rule-links.service.ts`, `finance_rule_link_respond` and the table
   "FinanceRuleObjection"). The service cleans the text and counts code units; the database takes
   its own four blanks from the ends, counts characters, and answers a reason that it refuses as
   it answers a dead link. A reason that the service lets through is never refused
   (`objection_recorded`).

   Correspondence (SQL ↔ Lean):
     `btrim(…, E' \t\r\n')`, `length(…)` ↔ `btrim`, `codePoints`
     `CHECK` of the column "reason"      ↔ `reasonCheck` -/
open Json Utf16

namespace Bazar.Finance.RuleSets
open Rules

/-! The function and the table. -/

def isPad (c : CodeUnit) : Bool :=
  c = unit ' ' || c = unit '\t' || c = unit '\r' || c = unit '\n'

def btrim (s : JsString) : JsString := trimBy isPad s

def reasonCheck (reason : JsString) : Bool :=
  1 ≤ codePoints (btrim reason) && codePoints (btrim reason) ≤ 500

/-- The reason of a row, from the text that the driver encodes. -/
def storedReason (reason : JsString) : JsString := btrim (toWellFormed reason)

/-- The answers past the limit on attempts, with the service's own cleaning. -/
def cleaning (host : Host) : Host := { host with cleanText := TextSanitize.cleanText }

section
variable (host : Host) (env : Env)

/-- `linkRespond` with the reason as it is stored; only the outcome `objetada` writes a row of
    "FinanceRuleObjection", and a check that fails leaves no answer. -/
def linkRespondChecked (tokenHash : String) (reason : Option JsString) (db : Db) :
    Option (String × Db) := do
  let stored := reason.map storedReason
  let answer ← linkRespond env tokenHash stored db
  if answer.1 = "objetada" ∧ ¬stored.all reasonCheck then none
  return answer

def respondChecked (token : String) (decision : Decision) (db : Db) : Except Failure (String × Db) := do
  let reason ← reasonOf (cleaning host) decision
  match linkRespondChecked env (host.hashSingleUseToken token) reason db with
  | some answer => return answer
  | none => throw invalidLink

def Request.runChecked (request : Request) (db : Db) : Except Failure Db :=
  match request with
  | .respond token decision => (respondChecked host env token decision db).map Prod.snd
  | request => request.run host env db

def stepChecked (db : Db) (request : Request) : Db :=
  match request.runChecked host env db with
  | .ok after => after
  | .error _ => db

end

/-- The tables of a new business after some requests. -/
def historyChecked (host : Host) (requests : List (Env × Request)) : Db :=
  requests.foldl (fun db x => stepChecked host x.1 db x.2) .empty

/-! A cleaned reason fits. -/

theorem isSpace_of_isPad {c : CodeUnit} (h : isPad c = true) : Utf16.isSpace c = true := by
  simp only [isPad, Bool.or_eq_true, decide_eq_true_eq] at h
  rcases h with ((rfl | rfl) | rfl) | rfl <;> decide

theorem not_isPad {c : CodeUnit} (h : Utf16.isSpace c = false) : isPad c = false := by
  by_contra hpad
  rw [Bool.not_eq_false] at hpad
  rw [isSpace_of_isPad hpad] at h
  cases h

/-- Nothing is left for the database to trim. -/
theorem storedReason_of_clean {reason : JsString} (h : TextSanitize.Clean reason) :
    storedReason reason = toWellFormed reason := by
  refine trimBy_of_ends (toWellFormed_leading (by decide) ?_) (toWellFormed_trailing (by decide) ?_)
  · intro c hc
    exact not_isPad (h.leading c hc)
  · intro c hc
    exact not_isPad (h.trailing c hc)

theorem btrim_storedReason (reason : JsString) : btrim (storedReason reason) = storedReason reason :=
  trimBy_of_ends trimBy_leading trimBy_trailing

theorem reasonCheck_of_clean {reason : JsString} (h : TextSanitize.Clean reason)
    (hne : reason ≠ []) (hlength : reason.length ≤ maxReasonLength) :
    reasonCheck (storedReason reason) = true := by
  have hstored := toWellFormed_length reason
  have hstored_ne : toWellFormed reason ≠ [] := by
    rw [← List.length_pos_iff, hstored]
    exact List.length_pos_iff.mpr hne
  have hmost := codePoints_le (toWellFormed reason)
  have hleast := codePoints_pos hstored_ne
  unfold maxReasonLength at hlength
  unfold reasonCheck
  rw [btrim_storedReason, storedReason_of_clean h]
  simp only [Bool.and_eq_true, decide_eq_true_eq]
  omega

/-! A set with an objection does not wait for answers again. -/

/-- Past the answers. -/
def Answered (s : Status) : Prop := s ≠ .borrador ∧ s ≠ .pendiente

/-- Sets that are past the answers stay so. -/
def Onward (l l' : List RuleSetRow) : Prop :=
  ∀ r ∈ l, Answered r.status → ∃ r' ∈ l', r'.id = r.id ∧ Answered r'.status

theorem Onward.refl (l : List RuleSetRow) : Onward l l := fun r hr h => ⟨r, hr, rfl, h⟩

theorem Onward.map {l : List RuleSetRow} {g : RuleSetRow → RuleSetRow} (hid : ∀ r, (g r).id = r.id)
    (hg : ∀ r ∈ l, Answered r.status → Answered (g r).status) : Onward l (l.map g) :=
  fun r hr h => ⟨g r, List.mem_map_of_mem hr, hid r, hg r hr h⟩

theorem Onward.map_of_closed {l : List RuleSetRow} {g : RuleSetRow → RuleSetRow}
    (hid : ∀ r, (g r).id = r.id)
    (hg : ∀ r, (g r).status = r.status ∨ Answered (g r).status) : Onward l (l.map g) := by
  refine .map hid fun r _ h => ?_
  rcases hg r with hr | hr
  · rwa [hr]
  · exact hr

/-- Every objection is about a set that is past the answers. -/
def ObjectionsClosed (db : Db) : Prop :=
  ∀ o ∈ db.objections, ∃ r ∈ db.ruleSets, r.id = o.ruleSetId ∧ Answered r.status

/-- A request that records no objection. -/
structure Quiet (db after : Db) : Prop where
  objections : after.objections = db.objections
  onward : Onward db.ruleSets after.ruleSets

theorem Quiet.closed {db after : Db} (hq : Quiet db after) (h : ObjectionsClosed db) :
    ObjectionsClosed after := by
  intro o ho
  rw [hq.objections] at ho
  obtain ⟨r, hr, hid, hanswered⟩ := h o ho
  obtain ⟨r', hr', hid', hanswered'⟩ := hq.onward r hr hanswered
  exact ⟨r', hr', hid'.trans hid, hanswered'⟩

theorem Quiet.refl (db : Db) : Quiet db db := ⟨rfl, .refl _⟩

theorem issueAll_objections (host : Host) (env : Env) (id : Uuid) (kind : LinkKind) (me : Uuid)
    (partners : List Member) (db : Db) :
    (issueAll host env id kind me partners db).objections = db.objections := by
  unfold issueAll
  generalize partners.zipIdx = ps
  induction ps generalizing db with
  | nil => rfl
  | cons p ps ih =>
    rw [List.foldl_cons, ih]
    split
    · rfl
    · rfl

section
variable {host : Host} {env : Env} {actor : Socio} {id : Uuid} {db after : Db}

theorem createDraft_quiet {config : FinanceRulesConfig} {hash : String} {basedOnId : Option Uuid}
    (h : createDraft env actor config hash basedOnId db = .ok after) : Quiet db after := by
  unfold createDraft at h
  dsimp only at h
  split at h
  · cases h
  · cases h
    refine ⟨rfl, ?_⟩
    intro r hr hanswered
    exact ⟨r, List.mem_append_left _ hr, rfl, hanswered⟩

theorem saveDraft_quiet {input : Raw} (h : saveDraft host env actor input db = .ok after) :
    Quiet db after := by
  unfold saveDraft at h
  split at h
  · cases h
  · dsimp only at h
    split at h
    · split at h
      · cases h
      · cases h
        refine ⟨rfl, .map_of_closed ?_ ?_⟩
        · intro r
          split <;> rfl
        · intro r
          left
          split <;> rfl
    · exact createDraft_quiet h

theorem discard_quiet (h : discard env actor id db = .ok after) : Quiet db after := by
  obtain ⟨row, -, h⟩ := bind_ok h
  obtain ⟨-, h⟩ := guard_ok h
  cases h
  refine ⟨rfl, .map_of_closed ?_ ?_⟩
  · intro r
    split <;> rfl
  · intro r
    split
    · exact Or.inr ⟨nofun, nofun⟩
    · exact Or.inl rfl

theorem modify_quiet (h : modify env actor id db = .ok after) : Quiet db after := by
  obtain ⟨row, -, h⟩ := bind_ok h
  obtain ⟨-, h⟩ := guard_ok h
  split at h
  · cases h
  · exact createDraft_quiet h

theorem settle_quiet (env : Env) (id : Uuid) (db : Db) : Quiet db (settle env id db).2 := by
  unfold settle
  split
  · exact .refl db
  · dsimp only
    split
    · exact .refl db
    · split
      · exact .refl db
      · refine ⟨rfl, ?_⟩
        rw [setRule_ruleSets]
        dsimp only
        rw [List.map_map]
        refine .map_of_closed ?_ ?_
        · intro r
          rw [Function.comp_apply]
          split_ifs <;> rfl
        · intro r
          rw [Function.comp_apply]
          split_ifs
          · exact Or.inr ⟨nofun, nofun⟩
          · exact Or.inr ⟨nofun, nofun⟩
          · exact Or.inr ⟨nofun, nofun⟩
          · exact Or.inl rfl

theorem submit_quiet (horder : Ordered db.ruleSets) (h : submit host env actor id db = .ok after) :
    Quiet db after := by
  obtain ⟨row, hrow, h⟩ := bind_ok h
  obtain ⟨hdraft, h⟩ := guard_ok h
  obtain ⟨-, h⟩ := guard_ok h
  obtain ⟨-, h⟩ := guard_ok h
  obtain ⟨standing, -, h⟩ := bind_ok h
  obtain ⟨-, h⟩ := guard_ok h
  obtain ⟨changes, -, h⟩ := bind_ok h
  obtain ⟨hrow, hid⟩ := lockRow_ok hrow
  obtain ⟨k, hk, hkid, -, hkstatus, -⟩ := replace_ruleSets env db standing row
  have hobjections : (replace env standing row db).objections = db.objections := by
    unfold replace
    split <;> rfl
  rw [← Except.ok.inj h]
  refine ⟨(issueAll_objections ..).trans hobjections, ?_⟩
  rw [issueAll_ruleSets, setRule_ruleSets, hk, List.map_map]
  refine .map ?_ ?_
  · intro r
    rw [Function.comp_apply, ← hkid r]
    split <;> rfl
  · intro r hr hanswered
    -- The set that is sent is the draft.
    have hother : ¬(k r).id = id := by
      intro h
      rw [hkid] at h
      rw [horder.unique hr hrow (h.trans hid.symm)] at hanswered
      exact hdraft hanswered.1
    rw [Function.comp_apply, if_neg hother]
    rcases hkstatus r with h | h
    · rwa [h]
    · rw [h]
      exact ⟨nofun, nofun⟩

theorem resend_quiet (h : resend host env actor id db = .ok after) : Quiet db after := by
  obtain ⟨row, -, h⟩ := bind_ok h
  obtain ⟨-, h⟩ := guard_ok h
  obtain ⟨-, h⟩ := guard_ok h
  have hsettle := settle_quiet env id db
  dsimp only at h
  split at h
  · rw [← Except.ok.inj h]
    exact hsettle
  · rw [← Except.ok.inj h]
    refine ⟨issueAll_objections .., ?_⟩
    rw [issueAll_ruleSets]
    exact .refl _

theorem linkRespond_closed {tokenHash outcome : String} {reason : Option JsString}
    (hclosed : ObjectionsClosed db)
    (h : linkRespond env tokenHash reason db = some (outcome, after)) : ObjectionsClosed after := by
  obtain ⟨l, -, h⟩ := Option.bind_eq_some_iff.mp h
  obtain ⟨s, hs, h⟩ := Option.bind_eq_some_iff.mp h
  have hmem := List.mem_of_find?_eq_some hs
  have hid := List.find?_some hs
  rw [decide_eq_true_eq] at hid
  obtain ⟨-, h⟩ := guard_some h
  obtain ⟨-, h⟩ := guard_some h
  dsimp only at h
  split at h
  · cases h
    exact hclosed
  · obtain ⟨-, h⟩ := guard_some h
    split at h
    · obtain ⟨-, h⟩ := guard_some h
      cases h
      exact (settle_quiet env _ _).closed hclosed
    · obtain ⟨-, h⟩ := guard_some h
      cases h
      intro o ho
      rw [setRule_ruleSets]
      rcases List.mem_append.mp ho with ho | ho
      · obtain ⟨r, hr, hrid, hanswered⟩ := hclosed o ho
        refine ⟨_, List.mem_map_of_mem hr, ?_, ?_⟩
        · rw [← hrid]
          split <;> rfl
        · split
          · exact ⟨nofun, nofun⟩
          · exact hanswered
      · rw [List.mem_singleton.mp ho]
        refine ⟨_, List.mem_map_of_mem hmem, ?_, ?_⟩
        · rw [if_pos hid]
          exact hid
        · rw [if_pos hid]
          exact ⟨nofun, nofun⟩

theorem linkRespondChecked_some {tokenHash : String} {reason : Option JsString}
    {answer : String × Db} (h : linkRespondChecked env tokenHash reason db = some answer) :
    linkRespond env tokenHash (reason.map storedReason) db = some answer := by
  obtain ⟨recorded, hrecorded, h⟩ := Option.bind_eq_some_iff.mp h
  obtain ⟨-, h⟩ := guard_some h
  rw [hrecorded]
  exact h

theorem respondChecked_ok {token : String} {decision : Decision} {answer : String × Db}
    (h : respondChecked host env token decision db = .ok answer) :
    ∃ reason, linkRespond env (host.hashSingleUseToken token) reason db = some answer := by
  obtain ⟨reason, -, h⟩ := bind_ok h
  split at h
  · rename_i recorded hrecorded
    cases h
    exact ⟨_, linkRespondChecked_some hrecorded⟩
  · cases h

/-- A request that is not an answer records no objection. -/
theorem run_quiet (horder : Ordered db.ruleSets) {request : Request}
    (hrequest : ∀ token decision, request ≠ .respond token decision)
    (h : request.run host env db = .ok after) : Quiet db after := by
  cases request with
  | saveDraft actor input => exact saveDraft_quiet h
  | discard actor id => exact discard_quiet h
  | submit actor id => exact submit_quiet horder h
  | modify actor id => exact modify_quiet h
  | resend actor id => exact resend_quiet h
  | respond token decision => exact absurd rfl (hrequest token decision)
  | delivered linkId sent =>
    cases h
    exact ⟨rfl, .refl _⟩
  | members team =>
    cases h
    exact ⟨rfl, .refl _⟩

theorem stepChecked_spec (horder : Ordered db.ruleSets) (hclosed : ObjectionsClosed db)
    (request : Request) : Ordered (stepChecked host env db request).ruleSets ∧
      ObjectionsClosed (stepChecked host env db request) := by
  by_cases hrequest : ∃ token decision, request = .respond token decision
  · obtain ⟨token, decision, rfl⟩ := hrequest
    unfold stepChecked Request.runChecked
    dsimp only
    cases hr : respondChecked host env token decision db with
    | error e => exact ⟨horder, hclosed⟩
    | ok answer =>
      obtain ⟨reason, hrespond⟩ := respondChecked_ok hr
      exact ⟨(linkRespond_change horder hrespond).ordered horder, linkRespond_closed hclosed hrespond⟩
  · have hother : ∀ token decision, request ≠ .respond token decision :=
      fun token decision h => hrequest ⟨token, decision, h⟩
    have hsame : stepChecked host env db request = step host env db request := by
      unfold stepChecked step Request.runChecked
      cases request <;> first | rfl | exact absurd rfl (hother _ _)
    have hordered : Ordered (step host env db request).ruleSets :=
      (step_change horder request).ordered horder
    rw [hsame]
    refine ⟨hordered, ?_⟩
    unfold step
    cases hrun : request.run host env db with
    | error e => exact hclosed
    | ok after => exact (run_quiet horder hother hrun).closed hclosed

end

theorem historyChecked_spec (host : Host) (requests : List (Env × Request)) :
    Ordered (historyChecked host requests).ruleSets ∧
      ObjectionsClosed (historyChecked host requests) := by
  unfold historyChecked
  suffices h : ∀ db : Db, Ordered db.ruleSets → ObjectionsClosed db →
      Ordered (requests.foldl (fun db x => stepChecked host x.1 db x.2) db).ruleSets ∧
        ObjectionsClosed (requests.foldl (fun db x => stepChecked host x.1 db x.2) db) from
    h .empty ordered_empty fun o ho => absurd ho List.not_mem_nil
  induction requests with
  | nil => exact fun db horder hclosed => ⟨horder, hclosed⟩
  | cons x requests ih =>
    intro db horder hclosed
    have hstep : Ordered (stepChecked host x.1 db x.2).ruleSets ∧
        ObjectionsClosed (stepChecked host x.1 db x.2) := stepChecked_spec horder hclosed x.2
    exact ih _ hstep.1 hstep.2

/-! A reason that is accepted is recorded. -/

/-- The row of an objection through a link. -/
def objectionOf (env : Env) (l : Link) (reason : JsString) : Objection :=
  { id := env.serverId 0, ruleSetId := l.ruleSetId, memberId := l.memberId, linkId := l.id,
    correo := l.correo, reason := storedReason reason, createdAt := env.now }

/-- The tables after an objection: the row, the link used up, and the proposal in review. -/
def objected (env : Env) (l : Link) (reason : JsString) (db : Db) : Db :=
  let recorded := { db with objections := db.objections ++ [objectionOf env l reason] }
  (recorded.setLinks (fun k => k.id = l.id) fun k => { k with usedAt := some env.now }).setRule
    l.ruleSetId fun r =>
      { r with status := .enRevision, inReviewAt := some env.now, updatedAt := env.now }

/-- A link that a socio can still answer a waiting proposal with. -/
structure Answerable (env : Env) (tokenHash : String) (db : Db) (l : Link) : Prop where
  found : (db.links.find? fun k => k.tokenHash = tokenHash) = some l
  unused : l.usedAt = none
  current : l.supersededAt = none
  unexpired : env.now < l.expiresAt
  socio : ∃ m ∈ db.members, m.id = l.memberId ∧ m.active = true ∧ m.role = .socio
  pending : ∃ s ∈ db.ruleSets, s.id = l.ruleSetId ∧ s.status = .pendiente

section
variable {host : Host} {env : Env} {db : Db} {l : Link} {tokenHash : String}

theorem linkRespond_object (horder : Ordered db.ruleSets) (hclosed : ObjectionsClosed db)
    (hl : Answerable env tokenHash db l) (hfresh : ∀ o ∈ db.objections, o.id ≠ env.serverId 0)
    (reason : JsString) :
    linkRespond env tokenHash (some (storedReason reason)) db =
      some ("objetada", objected env l reason db) := by
  obtain ⟨s, hs, hid, hpending⟩ := hl.pending
  obtain ⟨m, hm, hmid, hactive, hrole⟩ := hl.socio
  have hfound : (db.ruleSets.find? fun st => st.id = l.ruleSetId) = some s := by
    cases hf : db.ruleSets.find? fun st => st.id = l.ruleSetId with
    | none => exact absurd (decide_eq_true hid) (List.find?_eq_none.mp hf s hs)
    | some t =>
      have ht := List.find?_some hf
      rw [decide_eq_true_eq] at ht
      rw [horder.unique (List.mem_of_find?_eq_some hf) hs (ht.trans hid.symm)]
  have hlive : (!(l.usedAt.isNone && l.supersededAt.isNone && decide (env.now < l.expiresAt))) = false := by
    rw [hl.unused, hl.current, decide_eq_true hl.unexpired]
    rfl
  have hsocio : (!(db.members.any fun m => m.id = l.memberId && m.active && m.role = .socio)) = false := by
    rw [Bool.not_eq_false', List.any_eq_true]
    exact ⟨m, hm, by simp [hmid, hactive, hrole]⟩
  -- The proposal still waits, so nobody has objected to it.
  have hfirst : (db.objections.any fun o =>
      o.id = env.serverId 0 || (o.ruleSetId = l.ruleSetId && o.memberId = l.memberId)) = false := by
    rw [List.any_eq_false]
    intro o ho
    have hset : o.ruleSetId ≠ l.ruleSetId := by
      intro h
      obtain ⟨r, hr, hrid, hanswered⟩ := hclosed o ho
      rw [horder.unique hr hs (hrid.trans (h.trans hid.symm))] at hanswered
      exact hanswered.2 hpending
    simp [hfresh o ho, hset]
  unfold linkRespond
  rw [hl.found]
  simp only [Option.bind_eq_bind, Option.bind_some, hfound, hlive, hsocio, hpending, hfirst]
  rfl

/-- What the service lets through is clean, not empty, and not too long. -/
theorem reasonOf_spec {rawReason : Option JsString} {reason : JsString}
    (h : reasonOf (cleaning host) (.object rawReason) = .ok (some reason)) :
    TextSanitize.Clean reason ∧ reason ≠ [] ∧ reason.length ≤ maxReasonLength := by
  unfold reasonOf at h
  dsimp only [cleaning] at h
  split at h
  · cases h
  · rename_i hempty
    split at h
    · cases h
    · rename_i hlong
      cases h
      refine ⟨TextSanitize.cleanText_clean _, ?_, Nat.le_of_not_lt hlong⟩
      intro hnil
      rw [hnil] at hempty
      exact hempty rfl

end

/-- A reason that `respond` lets through, through a link that can be answered, passes the check of
    the table and is recorded, whatever requests came before. -/
theorem objection_recorded :
    (∀ value, TextSanitize.Clean (TextSanitize.cleanText value) ∧
      TextSanitize.cleanText (TextSanitize.cleanText value) = TextSanitize.cleanText value) ∧
    ∀ (host : Host) (requests : List (Env × Request)) (env : Env) (token : String)
      (rawReason : Option JsString) (reason : JsString) (l : Link),
      Answerable env (host.hashSingleUseToken token) (historyChecked host requests) l →
      (∀ o ∈ (historyChecked host requests).objections, o.id ≠ env.serverId 0) →
      reasonOf (cleaning host) (.object rawReason) = .ok (some reason) →
      reasonCheck (storedReason reason) = true ∧
      respondChecked host env token (.object rawReason) (historyChecked host requests) =
        .ok ("objetada", objected env l reason (historyChecked host requests)) := by
  refine ⟨fun value => ⟨TextSanitize.cleanText_clean value, TextSanitize.cleanText_idempotent value⟩, ?_⟩
  intro host requests env token rawReason reason l hl hfresh haccepted
  obtain ⟨hclean, hne, hlength⟩ := reasonOf_spec haccepted
  obtain ⟨horder, hclosed⟩ := historyChecked_spec host requests
  have hcheck := reasonCheck_of_clean hclean hne hlength
  have hrespond := linkRespond_object horder hclosed hl hfresh reason
  have hchecked : linkRespondChecked env (host.hashSingleUseToken token) (some reason)
      (historyChecked host requests) =
        some ("objetada", objected env l reason (historyChecked host requests)) := by
    unfold linkRespondChecked
    dsimp only [Option.map_some, Option.all_some]
    rw [hrespond]
    show (if _ ∧ ¬_ then _ else _) = _
    rw [if_neg fun h => h.2 hcheck]
    rfl
  refine ⟨hcheck, ?_⟩
  unfold respondChecked
  rw [haccepted]
  show (match linkRespondChecked _ _ _ _ with | some answer => _ | none => _) = _
  rw [hchecked]
  rfl

namespace Demo

theorem sent_rows :
    (historyChecked host sent).links.map (fun l =>
      (l.tokenHash, l.ruleSetId, l.memberId,
        l.usedAt.isNone && l.supersededAt.isNone && (env 3).now < l.expiresAt)) =
        [("enlace", ⟨"10"⟩, ana.memberId, true)] ∧
    (historyChecked host sent).ruleSets.map (fun r => (r.id, r.status)) = [(⟨"10"⟩, .pendiente)] ∧
    (historyChecked host sent).members.map (fun m => (m.id, m.active, m.role)) =
      [(ana.memberId, true, .socio)] ∧
    (historyChecked host sent).objections.map (fun o => o.id) = [] := by
  decide +kernel

theorem sent_answerable : ∃ l, Answerable (env 3) "enlace" (historyChecked host sent) l := by
  obtain ⟨hlinks, hsets, hmembers, -⟩ := sent_rows
  obtain ⟨l, hl, hlrow⟩ := List.map_eq_singleton_iff.mp hlinks
  obtain ⟨s, hs, hsrow⟩ := List.map_eq_singleton_iff.mp hsets
  obtain ⟨m, hm, hmrow⟩ := List.map_eq_singleton_iff.mp hmembers
  simp only [Prod.mk.injEq, Bool.and_eq_true, Option.isNone_iff_eq_none, decide_eq_true_eq] at hlrow
  simp only [Prod.mk.injEq] at hsrow hmrow
  obtain ⟨hhash, hset, hmember, ⟨hused, hsuperseded⟩, hexpires⟩ := hlrow
  refine ⟨l, ?_, hused, hsuperseded, hexpires, ⟨m, ?_, ?_, hmrow.2⟩, ⟨s, ?_, ?_, hsrow.2⟩⟩
  · rw [hl]
    simp [hhash]
  · rw [hm]
    exact List.mem_singleton_self m
  · rw [hmrow.1, hmember]
  · rw [hs]
    exact List.mem_singleton_self s
  · rw [hsrow.1, hset]

end Demo

/-- A reason typed with blanks around it, a line break and an invisible unit is recorded clean. -/
theorem objection_recorded_typed :
    ((respondChecked Demo.host (Demo.env 3) "enlace"
      (.object (some (text " No\n me " ++ [unitOf 0x200B] ++ text " parece  ")))
      (historyChecked Demo.host Demo.sent)).map fun answer =>
        (answer.1, answer.2.objections.map fun o => o.reason)).toOption =
      some ("objetada", [text "No me parece"]) := by
  obtain ⟨l, hl⟩ := Demo.sent_answerable
  obtain ⟨-, -, -, hnone⟩ := Demo.sent_rows
  rw [List.map_eq_nil_iff] at hnone
  have hclean : TextSanitize.cleanText (text " No\n me " ++ [unitOf 0x200B] ++ text " parece  ") =
      text "No me parece" := by
    decide
  have haccepted : reasonOf (cleaning Demo.host)
      (.object (some (text " No\n me " ++ [unitOf 0x200B] ++ text " parece  "))) =
        .ok (some (text "No me parece")) := by
    unfold reasonOf
    simp only [cleaning, Option.getD_some, hclean]
    rfl
  obtain ⟨-, hanswer⟩ := objection_recorded.2 Demo.host Demo.sent (Demo.env 3) "enlace" _ _ l
    hl (by simp [hnone]) haccepted
  rw [hanswer]
  show some ("objetada", List.map _ ((historyChecked Demo.host Demo.sent).objections ++ _)) = _
  rw [hnone]
  rfl

end Bazar.Finance.RuleSets
