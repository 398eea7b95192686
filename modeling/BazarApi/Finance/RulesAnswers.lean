import BazarApi.Finance.RulesGuard

/- The answers to the proposals of rules (`finance/finance-rule-links.service.ts`, the tables
   "FinanceRuleLink", "FinanceRuleApproval" and "FinanceRuleObjection"). Each request does one of a
   few things to the tables (`Effect`); from them, what holds of the answers and the links of
   every history (`Answers`), and when a set comes into force.

   Correspondence (TypeScript, SQL ↔ Lean):
     rows of `issue`, unused and not superseded ↔ `Live`
     `UNIQUE ("ruleSetId", "memberId")`         ↔ `Answers.approvedOnce`, `Answers.objectedOnce`
     the checks of `finance_rule_link_respond`  ↔ `Answerable`, `Recorded` -/
open Json

namespace Bazar.Finance.RuleSets
open Rules

/-! Links. -/

/-- A link that was neither used nor replaced. -/
def Live (k : Link) : Prop := k.usedAt = none ∧ k.supersededAt = none

/-- What may become of a link. -/
structure Retires (k k' : Link) : Prop where
  id : k'.id = k.id
  ruleSetId : k'.ruleSetId = k.ruleSetId
  memberId : k'.memberId = k.memberId
  used : k.usedAt.isSome = true → k'.usedAt.isSome = true
  live : Live k' → Live k

theorem Retires.refl (k : Link) : Retires k k := ⟨rfl, rfl, rfl, fun h => h, fun h => h⟩

theorem Retires.superseded (k : Link) (now : Instant) :
    Retires k { k with supersededAt := some now } :=
  ⟨rfl, rfl, rfl, fun h => h, fun h => absurd h.2 (Option.some_ne_none _)⟩

theorem Retires.spent (k : Link) (now : Instant) : Retires k { k with usedAt := some now } :=
  ⟨rfl, rfl, rfl, fun _ => rfl, fun h => absurd h.1 (Option.some_ne_none _)⟩

theorem Retires.ite {k : Link} {f : Link → Link} (hf : Retires k (f k)) (p : Bool) :
    Retires k (if p then f k else k) := by
  split
  · exact hf
  · exact .refl k

/-! What a request does. -/

/-- The row of an approval through a link. -/
def approvalOf (env : Env) (l : Link) (s : RuleSetRow) : Approval :=
  { id := env.serverId 0, ruleSetId := l.ruleSetId, memberId := l.memberId,
    approvedHash := s.configHash, correo := l.correo, linkId := l.id, approvedAt := env.now }

/-- The tables after an approval, before `finance_rule_set_settle`. -/
def approved (env : Env) (l : Link) (s : RuleSetRow) (db : Db) : Db :=
  let recorded := { db with approvals := db.approvals ++ [approvalOf env l s] }
  recorded.setLinks (fun k => k.id = l.id) fun k => { k with usedAt := some env.now }

/-- The hash of the token that a request answers with, and the reason of an objection. -/
def Request.answer (host : Host) : Request → Option (String × Option JsString)
  | .respond token decision => (reasonOf (cleaning host) decision).toOption.map fun reason =>
      (host.hashSingleUseToken token, reason)
  | _ => none

/-- What a request with such an answer does. -/
inductive Effect (host : Host) (env : Env) (db : Db) : Option (String × Option JsString) → Db → Prop
    where
  /-- Only the sets change. -/
  | changed {answer : Option (String × Option JsString)} {after : Db} (h : Guarded db after) :
    Effect host env db answer after
  | retired {answer : Option (String × Option JsString)} {closed : Db} (h : Guarded db closed)
    (p : Link → Bool) (f : Link → Link) (hf : ∀ k, Retires k (f k)) :
    Effect host env db answer (closed.setLinks p f)
  /-- Links to a waiting proposal, for socios who have not approved it. -/
  | issued {answer : Option (String × Option JsString)} {sent : Db} (h : Guarded db sent)
    (id : Uuid) (kind : LinkKind) (me : Uuid) (partners : List Member)
    (hsent : ∃ r ∈ sent.ruleSets, r.id = id ∧ r.status = .pendiente)
    (hwaiting : ∀ p ∈ partners, ∀ a ∈ db.approvals, ¬(a.ruleSetId = id ∧ a.memberId = p.id)) :
    Effect host env db answer (issueAll host env id kind me partners sent)
  | approved {after : Db} {tokenHash : String} {l : Link} {s : RuleSetRow}
    (hl : Answerable env tokenHash db l) (hs : s ∈ db.ruleSets) (hid : s.id = l.ruleSetId)
    (hpending : s.status = .pendiente) (h : Guarded (RuleSets.approved env l s db) after) :
    Effect host env db (some (tokenHash, none)) after
  | objected {tokenHash : String} {l : Link} (reason : JsString)
    (hl : Answerable env tokenHash db l) :
    Effect host env db (some (tokenHash, some reason)) (RuleSets.objected env l reason db)
  | team {answer : Option (String × Option JsString)} (members : List Member) :
    Effect host env db answer { db with members := members }

/-! What holds of the answers. -/

structure Answers (db : Db) : Prop where
  /-- What is approved is the text that the set has. -/
  approval : ∀ a ∈ db.approvals, ∃ r ∈ db.ruleSets, r.id = a.ruleSetId ∧ r.status ≠ .borrador ∧
    r.configHash = a.approvedHash
  objection : ∀ o ∈ db.objections, ∃ r ∈ db.ruleSets, r.id = o.ruleSetId ∧
    (r.status = .enRevision ∨ r.status = .descartada)
  approvedOnce : db.approvals.Pairwise fun a b =>
    ¬(a.ruleSetId = b.ruleSetId ∧ a.memberId = b.memberId)
  /-- Whoever objects is the only one who does. -/
  objectedOnce : db.objections.Pairwise fun o p => o.ruleSetId ≠ p.ruleSetId
  notBoth : ∀ a ∈ db.approvals, ∀ o ∈ db.objections,
    ¬(a.ruleSetId = o.ruleSetId ∧ a.memberId = o.memberId)
  oneLive : db.links.Pairwise fun k l => Live k → Live l →
    ¬(k.ruleSetId = l.ruleSetId ∧ k.memberId = l.memberId)
  /-- Whoever has approved has no link left. -/
  spent : ∀ a ∈ db.approvals, ∀ k ∈ db.links, Live k →
    ¬(k.ruleSetId = a.ruleSetId ∧ k.memberId = a.memberId)
  approvalLink : ∀ a ∈ db.approvals, ∃ k ∈ db.links, k.id = a.linkId ∧
    k.ruleSetId = a.ruleSetId ∧ k.memberId = a.memberId ∧ k.usedAt.isSome = true
  objectionLink : ∀ o ∈ db.objections, ∃ k ∈ db.links, k.id = o.linkId ∧
    k.ruleSetId = o.ruleSetId ∧ k.memberId = o.memberId ∧ k.usedAt.isSome = true

theorem answers_empty : Answers .empty := by
  constructor <;> simp [Db.empty]

section
variable {host : Host} {env : Env} {db after : Db} {a : Option (String × Option JsString)}

/-- The guard keeps what the answers say of the sets. -/
theorem Answers.changed (h : Answers db) (hc : Guarded db after) : Answers after where
  approval := by
    rw [hc.approvals]
    intro a ha
    obtain ⟨r, hr, hid, hsent, hhash⟩ := h.approval a ha
    obtain ⟨r', hr', hg⟩ := hc.rows.old hr
    exact ⟨r', hr', hg.id.trans hid, hg.sent hsent, (hg.frozen hsent).2.1.trans hhash⟩
  objection := by
    rw [hc.objections]
    intro o ho
    obtain ⟨r, hr, hid, hclosed⟩ := h.objection o ho
    obtain ⟨r', hr', hg⟩ := hc.rows.old hr
    exact ⟨r', hr', hg.id.trans hid, hg.closed hclosed⟩
  approvedOnce := hc.approvals ▸ h.approvedOnce
  objectedOnce := hc.objections ▸ h.objectedOnce
  notBoth := by
    rw [hc.approvals, hc.objections]
    exact h.notBoth
  oneLive := hc.links ▸ h.oneLive
  spent := by
    rw [hc.approvals, hc.links]
    exact h.spent
  approvalLink := by
    rw [hc.approvals, hc.links]
    exact h.approvalLink
  objectionLink := by
    rw [hc.objections, hc.links]
    exact h.objectionLink

theorem Answers.retired (h : Answers db) (p : Link → Bool) {f : Link → Link}
    (hf : ∀ k, Retires k (f k)) : Answers (db.setLinks p f) where
  approval := h.approval
  objection := h.objection
  approvedOnce := h.approvedOnce
  objectedOnce := h.objectedOnce
  notBoth := h.notBoth
  oneLive := by
    refine List.pairwise_map.mpr (h.oneLive.imp fun {k l} hkl hk hl => ?_)
    have hk' := (hf k).ite (p k)
    have hl' := (hf l).ite (p l)
    rw [hk'.ruleSetId, hk'.memberId, hl'.ruleSetId, hl'.memberId]
    exact hkl (hk'.live hk) (hl'.live hl)
  spent := by
    intro a ha k' hk' hlive
    obtain ⟨k, hk, rfl⟩ := List.mem_map.mp hk'
    have hret := (hf k).ite (p k)
    rw [hret.ruleSetId, hret.memberId]
    exact h.spent a ha k hk (hret.live hlive)
  approvalLink := by
    intro a ha
    obtain ⟨k, hk, hid, hset, hmember, hused⟩ := h.approvalLink a ha
    have hret := (hf k).ite (p k)
    exact ⟨_, List.mem_map_of_mem hk, hret.id.trans hid, hret.ruleSetId.trans hset,
      hret.memberId.trans hmember, hret.used hused⟩
  objectionLink := by
    intro o ho
    obtain ⟨k, hk, hid, hset, hmember, hused⟩ := h.objectionLink o ho
    have hret := (hf k).ite (p k)
    exact ⟨_, List.mem_map_of_mem hk, hret.id.trans hid, hret.ruleSetId.trans hset,
      hret.memberId.trans hmember, hret.used hused⟩

/-- A new link for a socio who has no other and has not approved. -/
theorem Answers.linked (h : Answers db) {l : Link}
    (hother : ∀ k ∈ db.links, Live k → ¬(k.ruleSetId = l.ruleSetId ∧ k.memberId = l.memberId))
    (hwaiting : ∀ a ∈ db.approvals, ¬(a.ruleSetId = l.ruleSetId ∧ a.memberId = l.memberId)) :
    Answers { db with links := db.links ++ [l] } where
  approval := h.approval
  objection := h.objection
  approvedOnce := h.approvedOnce
  objectedOnce := h.objectedOnce
  notBoth := h.notBoth
  oneLive := by
    refine List.pairwise_append.mpr ⟨h.oneLive, List.pairwise_singleton _ _, fun k hk l' hl' => ?_⟩
    rw [List.mem_singleton.mp hl']
    exact fun hlive _ => hother k hk hlive
  spent := by
    intro a ha k hk hlive
    cases List.mem_append.mp hk with
    | inl hk => exact h.spent a ha k hk hlive
    | inr hk =>
      rw [List.mem_singleton.mp hk]
      exact fun hsame => hwaiting a ha ⟨hsame.1.symm, hsame.2.symm⟩
  approvalLink := by
    intro a ha
    obtain ⟨k, hk, hrest⟩ := h.approvalLink a ha
    exact ⟨k, List.mem_append_left _ hk, hrest⟩
  objectionLink := by
    intro o ho
    obtain ⟨k, hk, hrest⟩ := h.objectionLink o ho
    exact ⟨k, List.mem_append_left _ hk, hrest⟩

theorem Answers.issue (h : Answers db) (n : Nat) (id : Uuid) (partner : Member) (correo : String)
    (kind : LinkKind) (me : Uuid)
    (hwaiting : ∀ a ∈ db.approvals, ¬(a.ruleSetId = id ∧ a.memberId = partner.id)) :
    Answers (issue host env n id partner correo kind me db) := by
  refine (h.retired _ fun k => .superseded k env.now).linked ?_ hwaiting
  -- The links of the socio that were live are replaced by the new one.
  intro k' hk' hlive hsame
  obtain ⟨k, hk, rfl⟩ := List.mem_map.mp hk'
  split at hlive
  · exact absurd hlive.2 (Option.some_ne_none _)
  · rename_i hnot
    rw [if_neg hnot] at hsame
    refine hnot ?_
    dsimp only
    rw [decide_eq_true hsame.1, decide_eq_true hsame.2, hlive.1, hlive.2]
    rfl

theorem Answers.issueAll (h : Answers db) (id : Uuid) (kind : LinkKind) (me : Uuid)
    {partners : List Member}
    (hwaiting : ∀ p ∈ partners, ∀ a ∈ db.approvals, ¬(a.ruleSetId = id ∧ a.memberId = p.id)) :
    Answers (issueAll host env id kind me partners db) := by
  unfold RuleSets.issueAll
  have hps : ∀ p ∈ partners.zipIdx, ∀ a ∈ db.approvals,
      ¬(a.ruleSetId = id ∧ a.memberId = p.1.id) :=
    fun p hp => hwaiting p.1 (List.fst_mem_of_mem_zipIdx hp)
  generalize partners.zipIdx = ps at hps
  clear hwaiting
  induction ps generalizing db with
  | nil => exact h
  | cons p ps ih =>
    rw [List.foldl_cons]
    have hrest := fun q hq => hps q (List.mem_cons_of_mem p hq)
    split
    · exact ih (h.issue _ id p.1 _ kind me (hps p List.mem_cons_self)) hrest
    · exact ih h hrest

/-- Two members of a list in which each is related to those after it. -/
theorem related {α : Type} {R : α → α → Prop} {l : List α} (h : l.Pairwise R) {a b : α}
    (ha : a ∈ l) (hb : b ∈ l) (hne : a ≠ b) : R a b ∨ R b a := by
  have hsymm : Std.Symm fun x y => R x y ∨ R y x := ⟨fun _ _ => Or.symm⟩
  have hor : l.Pairwise fun x y => R x y ∨ R y x := h.imp Or.inl
  exact hor.forall ha hb hne

/-- With a link used up, its socio has no live link to the proposal. -/
theorem Answers.no_live (h : Answers db) {l : Link} (hl : l ∈ db.links) (hlive : Live l)
    (now : Instant) : ∀ k ∈ (db.setLinks (fun k => k.id = l.id)
      fun k => { k with usedAt := some now }).links, Live k →
        ¬(k.ruleSetId = l.ruleSetId ∧ k.memberId = l.memberId) := by
  intro k' hk' hlive' hsame
  obtain ⟨k, hk, rfl⟩ := List.mem_map.mp hk'
  split at hlive'
  · exact absurd hlive'.1 (Option.some_ne_none _)
  · rename_i hnot
    rw [if_neg hnot] at hsame
    have hne : k ≠ l := fun heq => hnot (decide_eq_true (congrArg Link.id heq))
    cases related h.oneLive hk hl hne with
    | inl h => exact h hlive' hlive hsame
    | inr h => exact h hlive hlive' ⟨hsame.1.symm, hsame.2.symm⟩

theorem Answerable.mem {tokenHash : String} {l : Link} (hl : Answerable env tokenHash db l) :
    l ∈ db.links ∧ Live l :=
  ⟨List.mem_of_find?_eq_some hl.found, hl.unused, hl.current⟩

/-- The link that an answer used up. -/
theorem used_link {l : Link} (hl : l ∈ db.links) (now : Instant) :
    ∃ k ∈ (db.setLinks (fun k => k.id = l.id) fun k => { k with usedAt := some now }).links,
      k.id = l.id ∧ k.ruleSetId = l.ruleSetId ∧ k.memberId = l.memberId ∧ k.usedAt.isSome = true := by
  refine ⟨_, List.mem_map_of_mem hl, ?_⟩
  rw [if_pos (decide_eq_true rfl)]
  exact ⟨rfl, rfl, rfl, rfl⟩

theorem Answers.approved (h : Answers db) (horder : Ordered db.ruleSets) {tokenHash : String}
    {l : Link} {s : RuleSetRow} (hl : Answerable env tokenHash db l) (hs : s ∈ db.ruleSets)
    (hid : s.id = l.ruleSetId) (hpending : s.status = .pendiente) :
    Answers (approved env l s db) := by
  obtain ⟨hmem, hlive⟩ := hl.mem
  have hu := h.retired (fun k => k.id = l.id) fun k => .spent k env.now
  -- The socio has a live link, so there is no approval of theirs.
  have hnew (a : Approval) (ha : a ∈ db.approvals) :
      ¬(a.ruleSetId = l.ruleSetId ∧ a.memberId = l.memberId) :=
    fun hsame => h.spent a ha l hmem hlive ⟨hsame.1.symm, hsame.2.symm⟩
  constructor
  case approval =>
    intro a ha
    cases List.mem_append.mp ha with
    | inl ha => exact h.approval a ha
    | inr ha =>
      rw [List.mem_singleton.mp ha]
      exact ⟨s, hs, hid, by rw [hpending]; decide, rfl⟩
  case objection => exact h.objection
  case approvedOnce =>
    refine List.pairwise_append.mpr ⟨h.approvedOnce, List.pairwise_singleton _ _, fun a ha b hb => ?_⟩
    rw [List.mem_singleton.mp hb]
    exact hnew a ha
  case objectedOnce => exact h.objectedOnce
  case notBoth =>
    intro a ha o ho
    cases List.mem_append.mp ha with
    | inl ha => exact h.notBoth a ha o ho
    | inr ha =>
      rw [List.mem_singleton.mp ha]
      rintro ⟨hset, -⟩
      -- A proposal that somebody objected to does not wait.
      obtain ⟨r, hr, hrid, hclosed⟩ := h.objection o ho
      rw [horder.unique hr hs (hrid.trans (hset.symm.trans hid.symm)), hpending] at hclosed
      cases hclosed with
      | inl h => cases h
      | inr h => cases h
  case oneLive => exact hu.oneLive
  case spent =>
    intro a ha k hk hklive
    cases List.mem_append.mp ha with
    | inl ha => exact hu.spent a ha k hk hklive
    | inr ha =>
      rw [List.mem_singleton.mp ha]
      exact h.no_live hmem hlive env.now k hk hklive
  case approvalLink =>
    intro a ha
    cases List.mem_append.mp ha with
    | inl ha => exact hu.approvalLink a ha
    | inr ha =>
      rw [List.mem_singleton.mp ha]
      exact used_link hmem env.now
  case objectionLink => exact hu.objectionLink

/-- The proposal goes to review. -/
theorem objected_guarded (horder : Ordered db.ruleSets) {tokenHash : String} {l : Link}
    (reason : JsString) (hl : Answerable env tokenHash db l) :
    GuardedRows db.ruleSets (Unanimous db) (objected env l reason db).ruleSets := by
  obtain ⟨s, hs, hid, hpending⟩ := hl.pending
  have hguard := Guarded.setRule horder hs (f := fun r =>
    { r with status := .enRevision, inReviewAt := some env.now, updatedAt := env.now })
    ⟨rfl, rfl, rfl, rfl, rfl, fun _ => ⟨rfl, rfl, rfl⟩, fun _ => by rw [hpending]; rfl⟩
    fun h => Status.noConfusion h
  rw [hid] at hguard
  exact hguard.rows

theorem Answers.objected (h : Answers db) (horder : Ordered db.ruleSets) {tokenHash : String}
    {l : Link} (reason : JsString) (hl : Answerable env tokenHash db l) :
    Answers (objected env l reason db) := by
  obtain ⟨hmem, hlive⟩ := hl.mem
  obtain ⟨s, hs, hid, hpending⟩ := hl.pending
  have hrows := objected_guarded horder reason hl
  have hu := h.retired (fun k => k.id = l.id) fun k => .spent k env.now
  constructor
  case approval =>
    intro a ha
    obtain ⟨r, hr, hrid, hsent, hhash⟩ := h.approval a ha
    obtain ⟨r', hr', hg⟩ := hrows.old hr
    exact ⟨r', hr', hg.id.trans hrid, hg.sent hsent, (hg.frozen hsent).2.1.trans hhash⟩
  case objection =>
    intro o ho
    cases List.mem_append.mp ho with
    | inl ho =>
      obtain ⟨r, hr, hrid, hclosed⟩ := h.objection o ho
      obtain ⟨r', hr', hg⟩ := hrows.old hr
      exact ⟨r', hr', hg.id.trans hrid, hg.closed hclosed⟩
    | inr ho =>
      rw [List.mem_singleton.mp ho]
      refine ⟨_, List.mem_map_of_mem hs, ?_⟩
      rw [if_pos hid]
      exact ⟨hid, Or.inl rfl⟩
  case approvedOnce => exact h.approvedOnce
  case objectedOnce =>
    refine List.pairwise_append.mpr ⟨h.objectedOnce, List.pairwise_singleton _ _, fun o ho o' ho' => ?_⟩
    rw [List.mem_singleton.mp ho']
    intro hset
    obtain ⟨r, hr, hrid, hclosed⟩ := h.objection o ho
    rw [horder.unique hr hs (hrid.trans (hset.trans hid.symm)), hpending] at hclosed
    cases hclosed with
    | inl h => cases h
    | inr h => cases h
  case notBoth =>
    intro a ha o ho
    cases List.mem_append.mp ho with
    | inl ho => exact h.notBoth a ha o ho
    | inr ho =>
      -- Whoever has approved has no live link to object with.
      rw [List.mem_singleton.mp ho]
      exact fun hsame => h.spent a ha l hmem hlive ⟨hsame.1.symm, hsame.2.symm⟩
  case oneLive => exact hu.oneLive
  case spent => exact hu.spent
  case approvalLink => exact hu.approvalLink
  case objectionLink =>
    intro o ho
    cases List.mem_append.mp ho with
    | inl ho => exact hu.objectionLink o ho
    | inr ho =>
      rw [List.mem_singleton.mp ho]
      exact used_link hmem env.now

/-- Every effect keeps what holds of the answers. -/
theorem Effect.answers (he : Effect host env db a after) (horder : Ordered db.ruleSets)
    (h : Answers db) : Answers after := by
  cases he with
  | changed hg => exact h.changed hg
  | retired hg p f hf => exact (h.changed hg).retired p hf
  | issued hg id kind me partners hsent hwaiting =>
    refine (h.changed hg).issueAll id kind me ?_
    rw [hg.approvals]
    exact hwaiting
  | approved hl hs hid hpending hg => exact (h.approved horder hl hs hid hpending).changed hg
  | objected reason hl => exact h.objected horder reason hl
  | team members =>
    exact ⟨h.approval, h.objection, h.approvedOnce, h.objectedOnce, h.notBoth, h.oneLive, h.spent,
      h.approvalLink, h.objectionLink⟩

/-! The requests. -/

theorem resend_effect {actor : Socio} {id : Uuid} (horder : Ordered db.ruleSets)
    (h : resend host env actor id db = .ok after) : Effect host env db a after := by
  obtain ⟨row, hrow, h⟩ := bind_ok h
  obtain ⟨-, h⟩ := guard_ok h
  obtain ⟨hpending, h⟩ := guard_ok h
  rw [not_not] at hpending
  obtain ⟨hrow, hid⟩ := lockRow_ok hrow
  dsimp only at h
  split at h
  · rw [← Except.ok.inj h]
    exact .changed (settle_guarded env horder id)
  · rw [← Except.ok.inj h]
    refine .issued (.refl db) id .reenvio actor.memberId _ ⟨row, hrow, hid, hpending⟩ ?_
    intro p hp a ha hsame
    have hwaiting := (List.mem_filter.mp hp).2
    rw [Bool.and_eq_true, Bool.and_eq_true, Bool.not_eq_true', List.any_eq_false] at hwaiting
    refine hwaiting.1.1 a ha ?_
    rw [decide_eq_true hsame.1, decide_eq_true hsame.2]
    rfl

theorem submit_effect {actor : Socio} {id : Uuid} (horder : Ordered db.ruleSets) (h : Answers db)
    (hsubmit : submit host env actor id db = .ok after) : Effect host env db a after := by
  obtain ⟨row, hrow, hid, hdraft, sent, hg, hsent, rfl⟩ := submit_guarded horder hsubmit
  refine .issued hg id .envio actor.memberId _ hsent ?_
  -- Nobody has approved a draft.
  intro p _ a ha hsame
  obtain ⟨r, hr, hrid, hne, -⟩ := h.approval a ha
  rw [horder.unique hr hrow (hrid.trans (hsame.1.trans hid.symm))] at hne
  exact hne hdraft

/-- What an answer through the link of a token does when there is one. -/
inductive Responds (env : Env) (tokenHash : String) (db : Db) : Option JsString → String × Db → Prop
    where
  | inReview {reason : Option JsString} (l : Link) (s : RuleSetRow)
    (hl : (db.links.find? fun k => k.tokenHash = tokenHash) = some l) (hlive : Live l)
    (hs : s ∈ db.ruleSets) (hid : s.id = l.ruleSetId) (hreview : s.status = .enRevision) :
    Responds env tokenHash db reason ("en_revision", db)
  | approves (l : Link) (s : RuleSetRow) (hl : Answerable env tokenHash db l)
    (hs : s ∈ db.ruleSets) (hid : s.id = l.ruleSetId) (hpending : s.status = .pendiente) :
    Responds env tokenHash db none
      (if (settle env l.ruleSetId (approved env l s db)).1 then "vigente" else "aprobada",
        (settle env l.ruleSetId (approved env l s db)).2)
  | objects (l : Link) (reason : JsString) (hl : Answerable env tokenHash db l) :
    Responds env tokenHash db (some reason) ("objetada", objected env l reason db)

theorem linkRespondChecked_responds {tokenHash : String} {reason : Option JsString}
    {answer : String × Db} (h : linkRespondChecked env tokenHash reason db = some answer) :
    Responds env tokenHash db reason answer := by
  have h := linkRespondChecked_some h
  obtain ⟨l, hfound, h⟩ := Option.bind_eq_some_iff.mp h
  obtain ⟨s, hs, h⟩ := Option.bind_eq_some_iff.mp h
  obtain ⟨hs, hid⟩ := find_status hs
  rw [decide_eq_true_eq] at hid
  obtain ⟨hlive, h⟩ := guard_some h
  obtain ⟨hsocio, h⟩ := guard_some h
  rw [Bool.not_eq_true', Bool.not_eq_false, Bool.and_eq_true, Bool.and_eq_true,
    decide_eq_true_eq, Option.isNone_iff_eq_none, Option.isNone_iff_eq_none] at hlive
  dsimp only at h
  split at h
  · rename_i hreview
    cases h
    exact .inReview l s hfound hlive.1 hs hid hreview
  · obtain ⟨hpending, h⟩ := guard_some h
    rw [not_not] at hpending
    have hl : Answerable env tokenHash db l := by
      rw [Bool.not_eq_true', Bool.not_eq_false, List.any_eq_true] at hsocio
      obtain ⟨m, hm, hsocio⟩ := hsocio
      rw [Bool.and_eq_true, Bool.and_eq_true, decide_eq_true_eq, decide_eq_true_eq] at hsocio
      exact ⟨hfound, hlive.1.1, hlive.1.2, hlive.2, ⟨m, hm, hsocio.1.1, hsocio.1.2, hsocio.2⟩,
        ⟨s, hs, hid, hpending⟩⟩
    cases reason with
    | none =>
      obtain ⟨-, h⟩ := guard_some h
      cases h
      exact .approves l s hl hs hid hpending
    | some reason =>
      obtain ⟨-, h⟩ := guard_some h
      cases h
      exact .objects l reason hl

theorem respondChecked_responds {token : String} {decision : Decision} {answer : String × Db}
    (h : respondChecked host env token decision db = .ok answer) :
    ∃ reason, reasonOf (cleaning host) decision = .ok reason ∧
      Responds env (host.hashSingleUseToken token) db reason answer := by
  obtain ⟨reason, hreason, h⟩ := bind_ok h
  split at h
  · rename_i recorded hrecorded
    cases h
    exact ⟨reason, hreason, linkRespondChecked_responds hrecorded⟩
  · cases h

theorem Responds.effect {tokenHash : String} {reason : Option JsString} {answer : String × Db}
    (hr : Responds env tokenHash db reason answer) (horder : Ordered db.ruleSets) :
    Effect host env db (some (tokenHash, reason)) answer.2 := by
  cases hr with
  | inReview l s hl hlive hs hid hreview => exact .changed (.refl db)
  | approves l s hl hs hid hpending =>
    exact .approved hl hs hid hpending
      (@settle_guarded (approved env l s db) env horder l.ruleSetId)
  | objects l reason hl => exact .objected reason hl

theorem run_effect (horder : Ordered db.ruleSets) (h : Answers db) {request : Request}
    (hrun : request.runChecked host env db = .ok after) :
    Effect host env db (request.answer host) after := by
  cases request with
  | saveDraft actor input => exact .changed (saveDraft_guarded horder hrun)
  | discard actor id =>
    obtain ⟨closed, hg, rfl⟩ := discard_guarded horder hrun
    exact .retired hg _ _ fun k => .superseded k env.now
  | submit actor id => exact submit_effect horder h hrun
  | modify actor id => exact .changed (modify_guarded hrun)
  | resend actor id => exact resend_effect horder hrun
  | respond token decision =>
    unfold Request.runChecked at hrun
    dsimp only at hrun
    cases hr : respondChecked host env token decision db with
    | error e =>
      rw [hr] at hrun
      cases hrun
    | ok answer =>
      rw [hr] at hrun
      cases hrun
      obtain ⟨reason, hreason, hresponds⟩ := respondChecked_responds hr
      have heffect : Effect host env db (some (host.hashSingleUseToken token, reason)) answer.2 :=
        hresponds.effect horder
      have hanswer : Request.answer host (.respond token decision) =
          some (host.hashSingleUseToken token, reason) := by
        show Option.map _ (reasonOf (cleaning host) decision).toOption = _
        rw [hreason]
        rfl
      rw [hanswer]
      exact heffect
  | delivered linkId sent =>
    -- A link whose e-mail went out stays live; one whose e-mail did not is retired.
    cases hrun
    refine .retired (.refl db) _ _ fun k => ?_
    cases sent with
    | true => exact ⟨rfl, rfl, rfl, fun h => h, fun h => h⟩
    | false => exact .superseded k env.now
  | members team =>
    cases hrun
    exact .team team

/-- A request that fails changes nothing. -/
theorem step_effect (horder : Ordered db.ruleSets) (h : Answers db) (request : Request) :
    Effect host env db (request.answer host) (stepChecked host env db request) := by
  unfold stepChecked
  cases hrun : request.runChecked host env db with
  | error e => exact .changed (.refl db)
  | ok after => exact run_effect horder h hrun

theorem issueAll_tables (host : Host) (env : Env) (id : Uuid) (kind : LinkKind) (me : Uuid)
    (partners : List Member) (db : Db) :
    (issueAll host env id kind me partners db).members = db.members ∧
      (issueAll host env id kind me partners db).approvals = db.approvals := by
  unfold issueAll
  generalize partners.zipIdx = ps
  induction ps generalizing db with
  | nil => exact ⟨rfl, rfl⟩
  | cons p ps ih =>
    rw [List.foldl_cons]
    split
    · exact ih _
    · exact ih _

theorem Effect.rows (he : Effect host env db a after) (horder : Ordered db.ruleSets) :
    GuardedRows db.ruleSets (Unanimous after) after.ruleSets := by
  cases he with
  | changed hg => exact hg.rows.mono fun id h => h.of_eq hg.members hg.approvals
  | retired hg p f hf => exact hg.rows.mono fun id h => h.of_eq hg.members hg.approvals
  | @issued _ sent hg id kind me partners hsent hwaiting =>
    rw [issueAll_ruleSets]
    obtain ⟨hmembers, happrovals⟩ := issueAll_tables host env id kind me partners sent
    exact hg.rows.mono fun id h =>
      h.of_eq (hmembers.trans hg.members) (happrovals.trans hg.approvals)
  | approved hl hs hid hpending hg => exact hg.rows.mono fun id h => h.of_eq hg.members hg.approvals
  | objected reason hl =>
    exact (objected_guarded horder reason hl).mono fun id h => @Unanimous.of_eq db _ id rfl rfl h
  | team members => exact .refl

/-- What a request may record: one answer at most, that of its own decision, through the link of
its own token, which can still be answered. -/
inductive Recorded (host : Host) (env : Env) (db after : Db) : Request → Prop where
  | nothing {request : Request} (happrovals : after.approvals = db.approvals)
    (hobjections : after.objections = db.objections) : Recorded host env db after request
  | approval (token : String) (l : Link) (s : RuleSetRow)
    (hl : Answerable env (host.hashSingleUseToken token) db l)
    (hs : s ∈ db.ruleSets) (hid : s.id = l.ruleSetId) (hpending : s.status = .pendiente)
    (happrovals : after.approvals = db.approvals ++ [approvalOf env l s])
    (hobjections : after.objections = db.objections) :
    Recorded host env db after (.respond token .approve)
  | objection (token : String) (rawReason : Option JsString) (l : Link) (reason : JsString)
    (hreason : reasonOf (cleaning host) (.object rawReason) = .ok (some reason))
    (hl : Answerable env (host.hashSingleUseToken token) db l)
    (happrovals : after.approvals = db.approvals)
    (hobjections : after.objections = db.objections ++ [objectionOf env l reason]) :
    Recorded host env db after (.respond token (.object rawReason))

/-- An approval gives no reason, and an objection gives one. -/
theorem reasonOf_ok {decision : Decision} {reason : Option JsString}
    (h : reasonOf host decision = .ok reason) :
    (decision = .approve ∧ reason = none) ∨
      ∃ rawReason text, decision = .object rawReason ∧ reason = some text := by
  cases decision with
  | approve =>
    cases h
    exact .inl ⟨rfl, rfl⟩
  | object rawReason =>
    unfold reasonOf at h
    dsimp only at h
    split at h
    · cases h
    · split at h
      · cases h
      · cases h
        exact .inr ⟨rawReason, _, rfl, rfl⟩

theorem answer_some {request : Request} {tokenHash : String} {reason : Option JsString}
    (h : request.answer host = some (tokenHash, reason)) :
    ∃ token decision, request = .respond token decision ∧
      tokenHash = host.hashSingleUseToken token ∧
      reasonOf (cleaning host) decision = .ok reason := by
  cases request with
  | respond token decision =>
    obtain ⟨reason', hreason, he⟩ := Option.map_eq_some_iff.mp h
    cases he
    refine ⟨token, decision, rfl, rfl, ?_⟩
    cases hr : reasonOf (cleaning host) decision with
    | error e =>
      rw [hr] at hreason
      cases hreason
    | ok reason' =>
      rw [hr] at hreason
      cases hreason
      rfl
  | _ => cases h

theorem Effect.recorded {request : Request} (he : Effect host env db (request.answer host) after) :
    Recorded host env db after request := by
  generalize hanswer : request.answer host = answer at he
  cases he with
  | changed hg => exact .nothing hg.approvals hg.objections
  | retired hg p f hf => exact .nothing hg.approvals hg.objections
  | @issued _ sent hg id kind me partners hsent hwaiting =>
    refine .nothing ?_ ?_
    · exact (issueAll_tables host env id kind me partners sent).2.trans hg.approvals
    · exact (issueAll_objections host env id kind me partners sent).trans hg.objections
  | @approved _ tokenHash l s hl hs hid hpending hg =>
    obtain ⟨token, decision, rfl, rfl, hreason⟩ := answer_some hanswer
    rcases reasonOf_ok hreason with ⟨rfl, -⟩ | ⟨_, _, -, hsome⟩
    · exact .approval token l s hl hs hid hpending hg.approvals hg.objections
    · cases hsome
  | @objected tokenHash l reason hl =>
    obtain ⟨token, decision, rfl, rfl, hreason⟩ := answer_some hanswer
    rcases reasonOf_ok hreason with ⟨-, hnone⟩ | ⟨rawReason, text, rfl, hsome⟩
    · cases hnone
    · exact .objection token rawReason l reason hreason hl rfl rfl
  | team members => exact .nothing rfl rfl

end

/-! Every history. -/

theorem historyChecked_concat (host : Host) (requests : List (Env × Request)) (x : Env × Request) :
    historyChecked host (requests ++ [x]) =
      stepChecked host x.1 (historyChecked host requests) x.2 :=
  List.foldl_append

theorem historyChecked_answers (host : Host) (requests : List (Env × Request)) :
    Numbered (historyChecked host requests).ruleSets ∧ Answers (historyChecked host requests) := by
  induction requests using List.reverseRecOn with
  | nil => exact ⟨rfl, answers_empty⟩
  | append_singleton requests x ih =>
    obtain ⟨hnumbered, hanswers⟩ := ih
    have horder := (historyChecked_spec host requests).1
    have heffect : Effect host x.1 (historyChecked host requests) (x.2.answer host)
        (historyChecked host (requests ++ [x])) := by
      rw [historyChecked_concat]
      exact step_effect horder hanswers x.2
    exact ⟨(heffect.rows horder).numbered hnumbered, heffect.answers horder hanswers⟩

/-- What one more request of a history does to its sets. -/
structure Governed (db after : Db) : Prop where
  ordered : Ordered after.ruleSets
  numbered : Numbered after.ruleSets
  kept : ∀ r ∈ db.ruleSets, ∃ r' ∈ after.ruleSets, GuardAllows r r'
  inForce : ∀ r' ∈ after.ruleSets, r'.status = .vigente → ∃ r ∈ db.ruleSets, r.id = r'.id ∧
    (r.status = .vigente ∨ r.status = .pendiente ∧ Unanimous after r'.id)
  /-- The approvals of a set are of the text that it has. -/
  approved : ∀ r' ∈ after.ruleSets, ∀ a ∈ after.approvals, a.ruleSetId = r'.id →
    a.approvedHash = r'.configHash
  unopposed : ∀ r' ∈ after.ruleSets, r'.status = .vigente ∨ r'.status = .reemplazada →
    ∀ o ∈ after.objections, o.ruleSetId ≠ r'.id

/-- No update of a history trips the guard, and a set comes into force only from waiting, with the
    approval of every active socio of exactly its text and no objection. -/
theorem rules_governed (host : Host) (requests : List (Env × Request)) (x : Env × Request) :
    Governed (historyChecked host requests) (historyChecked host (requests ++ [x])) := by
  obtain ⟨-, hanswers⟩ := historyChecked_answers host requests
  have horder := (historyChecked_spec host requests).1
  have heffect : Effect host x.1 (historyChecked host requests) (x.2.answer host)
      (historyChecked host (requests ++ [x])) := by
    rw [historyChecked_concat]
    exact step_effect horder hanswers x.2
  obtain ⟨hnumbered', hanswers'⟩ := historyChecked_answers host (requests ++ [x])
  have horder' := (historyChecked_spec host (requests ++ [x])).1
  have hrows := heffect.rows horder
  refine ⟨horder', hnumbered', fun r hr => hrows.old hr, fun r' hr' hin => hrows.inForce hr' hin,
    ?_, ?_⟩
  · intro r' hr' a ha hset
    obtain ⟨r, hr, hid, -, hhash⟩ := hanswers'.approval a ha
    rw [← hhash, horder'.unique hr hr' (hid.trans hset)]
  · intro r' hr' hin o ho hset
    obtain ⟨r, hr, hid, hclosed⟩ := hanswers'.objection o ho
    rw [horder'.unique hr hr' (hid.trans hset)] at hclosed
    cases hclosed with
    | inl h =>
      rw [h] at hin
      cases hin with
      | inl h => cases h
      | inr h => cases h
    | inr h =>
      rw [h] at hin
      cases hin with
      | inl h => cases h
      | inr h => cases h

/-- Each socio answers a proposal once at most, through the link of the token presented, which is
    theirs and could still be answered, as was decided, and the answer uses the link up; no other
    request records an answer. -/
theorem answers_once (host : Host) (requests : List (Env × Request)) (x : Env × Request) :
    Answers (historyChecked host requests) ∧
      Recorded host x.1 (historyChecked host requests) (historyChecked host (requests ++ [x])) x.2 := by
  obtain ⟨-, hanswers⟩ := historyChecked_answers host requests
  refine ⟨hanswers, ?_⟩
  rw [historyChecked_concat]
  exact (step_effect (historyChecked_spec host requests).1 hanswers x.2).recorded

end Bazar.Finance.RuleSets
