import BazarApi.Registration.Decisions

/- The cleanup of dead requests. `runBatch` selects the requests of a category and deletes
   them by id in a second statement, which looks at nothing else. A request that is confirmed
   or decided in between is deleted with the others. Where that does not happen, every
   request deleted is as dead as when it was selected. -/
namespace Bazar.Registration

open Txn Team

variable {host : Host} {d₀ : Db} {reqs : List Request} {h : History registration}
variable {c : Commit registration} {id : Uuid}

/-- A cleanup selected the request: after `a` it read the requests of the category. -/
structure Selected (d₀ : Db) (reqs : List Request) (c : Commit registration) (id : Uuid)
    (condition : RequestWhere) (a b : History registration) (g : History registration) : Prop where
  cleanup : ∃ now batchSize, reqs[c.pid]? = some (.runBatch now batchSize) ∧
    condition ∈ categories now
  split : ∃ take, g = a ++ .exec c.pid (.findManyRequests condition take) :: b
  matched : ∃ x, (replay (S := registration) d₀ a).requests.find? id = some x ∧
    condition.holds x = true

/-- Every request deleted is still of the category it was selected for, and was neither
confirmed nor approved since. -/
structure DeadOnly (d₀ : Db) (reqs : List Request) (H : History registration) : Prop where
  still : ∀ g c n id, H = g ++ .commit c :: n → .deleteRequest id ∈ c.writes →
    ∃ condition a b x, Selected d₀ reqs c id condition a b g ∧
      (replay (S := registration) d₀ g).requests.find? id = some x ∧ condition.holds x = true
  unconfirmed : ∀ g c n id condition a b, H = g ++ .commit c :: n → .deleteRequest id ∈ c.writes →
    Selected d₀ reqs c id condition a b g → ∀ c', .commit c' ∈ b →
    (∃ env token, reqs[c'.pid]? = some (.verifyEmail env token)) ∨
      (∃ env token, reqs[c'.pid]? = some (.approve env token)) → ¬ Updates c' id

/-- The commit confirms the request, decides on it or brings its id back. -/
def Revives (reqs : List Request) (c : Commit registration) (id : Uuid) : Prop :=
  (((∃ env token, reqs[c.pid]? = some (.verifyEmail env token)) ∨
      (∃ env token, reqs[c.pid]? = some (.approve env token)) ∨
      ∃ env token, reqs[c.pid]? = some (.reject env token)) ∧ Updates c id) ∨
    ∃ row, .insertRequest row ∈ c.writes ∧ row.id = id

/-- A request is confirmed or decided between a cleanup's selection and its deletion. -/
def Revived (d₀ : Db) (reqs : List Request) (H : History registration) : Prop :=
  ∃ g c n id condition a b c', H = g ++ .commit c :: n ∧ .deleteRequest id ∈ c.writes ∧
    Selected d₀ reqs c id condition a b g ∧ .commit c' ∈ b ∧ Revives reqs c' id

/-! One commit. -/

/-- A category looks at what no resend changes. -/
theorem holds_reissued {now : Instant} {condition : RequestWhere} (hcat : condition ∈ categories now)
    (env : Env) (k : Nat) (x : BusinessRegistrationRequest) :
    condition.holds ((reissuedLink host env k).apply x) = condition.holds x := by
  simp only [categories, List.mem_cons, List.not_mem_nil, or_false] at hcat
  rcases hcat with rfl | rfl | rfl <;> simp [RequestWhere.holds, RequestUpdate.apply, reissuedLink]

/-- A turn that does not revive a request leaves it in its category. -/
theorem Turn.still_holds {d : Db} {o : Option BusinessRegistrationRequest}
    {y : BusinessRegistrationRequest} (ht : Turn host reqs d c id o y) {now : Instant}
    {condition : RequestWhere} (hcat : condition ∈ categories now) (hno : ¬ Revives reqs c id)
    (hold : ∀ x, o = some x → condition.holds x = true) : condition.holds y = true := by
  cases ht with
  | stay _ => exact hold y rfl
  | create _ hw hid _ _ =>
    exact absurd (.inr ⟨_, by rw [hw]; exact List.mem_cons_self, hid⟩) hno
  | @resend r env k x _ _ _ _ =>
    rw [holds_reissued hcat]
    exact hold x rfl
  | verify hreq hw _ => exact absurd (.inl ⟨.inl ⟨_, _, hreq⟩, _, hw⟩) hno
  | approve hreq hw _ => exact absurd (.inl ⟨.inr (.inl ⟨_, _, hreq⟩), _, hw⟩) hno
  | reject hreq hw => exact absurd (.inl ⟨.inr (.inr ⟨_, _, hreq⟩), _, hw⟩) hno

/-- A deletion goes back to a selection. -/
theorem Commits.selected (hc : Commits host d₀ reqs h c) (hid : .deleteRequest id ∈ c.writes) :
    ∃ condition a b x, Selected d₀ reqs c id condition a b h ∧
      (replay (S := registration) d₀ h).requests.find? id = some x := by
  obtain ⟨r, hreq, hw⟩ := hc
  rcases hw with hw | he
  · rw [hw] at hid
    cases hid
  generalize c.writes = ws at he hid
  cases he with
  | created _ _ _ => simp at hid
  | resent _ _ _ => simp at hid
  | verified _ => simp at hid
  | @approved env token username read row correo _ _ _ _ _ =>
    cases correo <;> simp [newBusiness, founderCorreo] at hid
  | rejected _ _ _ _ _ => simp at hid
  | @cleaned now batchSize take condition a b rows hcat he hrows =>
    obtain ⟨x, hx, hk⟩ := List.mem_map.mp hid
    cases hk
    obtain ⟨hnow, y, hy, hholds⟩ := hrows x hx
    exact ⟨condition, a, b, x, ⟨⟨now, batchSize, hreq, hcat⟩, ⟨take, he⟩, ⟨y, hy, hholds⟩⟩, hnow⟩

/-- In a run in which no request is confirmed or decided between its selection and its
deletion, cleanups delete dead requests only. -/
theorem dead_only_of_not_revived (host : Host) (d₀ : Db) (reqs : List Request)
    (s : Sys registration Answer) (hr : Reachable host d₀ reqs s)
    (hno : ¬ Revived d₀ reqs s.hist) : DeadOnly d₀ reqs s.hist := by
  have hl := hr.lawful
  refine ⟨?_, ?_⟩
  · intro g c n id he hid
    have hc := (hl g c n he).2
    obtain ⟨condition, a, b, x, hsel, hx⟩ := hc.selected hid
    refine ⟨condition, a, b, x, hsel, hx, ?_⟩
    obtain ⟨now, batchSize, -, hcat⟩ := hsel.cleanup
    obtain ⟨take, hsplit⟩ := hsel.split
    obtain ⟨y, hy, hholds⟩ := hsel.matched
    have hlg : Lawful (Commits host d₀ reqs) g := by
      rw [he] at hl
      exact hl.left
    rw [hsplit] at hlg hx
    refine Lawful.row_induct (P := fun x => condition.holds x = true) hlg ?_ ?_ x hx
    · intro z hz
      cases hy.symm.trans hz
      exact hholds
    · intro c' d o z hc' hturn
      refine hturn.still_holds hcat ?_
      intro hrev
      have hb : Event.commit c' ∈ b := by
        rcases List.mem_cons.mp hc' with h' | h'
        · cases h'
        · exact h'
      exact hno ⟨g, c, n, id, condition, a, b, c', he, hid, hsel, hb, hrev⟩
  · intro g c n id condition a b he hid hsel c' hc' hkind hup
    exact hno ⟨g, c, n, id, condition, a, b, c', he, hid, hsel, hc',
      .inl ⟨hkind.imp_right .inl, hup⟩⟩

/-! Runs. -/

/-- The person asks for the link again between the two statements of the cleanup. -/
def Demo.lateResend : List Request :=
  [.runBatch (8 * day) cleanupBatchSize, .resend Demo.today "ana@bazar.mx"]

def Demo.lateResendSteps : List Nat :=
  List.replicate 3 0 ++ List.replicate 4 1 ++ List.replicate 9 0

/-- The link is renewed and the request, still to be confirmed, is deleted. -/
theorem dead_only_of_not_revived_resent :
    ((Demo.run Demo.old Demo.lateResend Demo.lateResendSteps).hist.any fun e =>
        e.writes.any fun w => match w with
          | .updateRequest _ _ => true
          | _ => false) = true ∧
      DeadOnly Demo.old Demo.lateResend
        (Demo.run Demo.old Demo.lateResend Demo.lateResendSteps).hist := by
  refine ⟨by decide, dead_only_of_not_revived Demo.host _ _ _ (Demo.reachable (by decide)) ?_⟩
  have hreqs : ∀ {i : Nat} {r : Request}, Demo.lateResend[i]? = some r →
      r = .runBatch (8 * day) cleanupBatchSize ∨ r = .resend Demo.today "ana@bazar.mx" := by
    intro i r h
    simpa [Demo.lateResend] using List.mem_of_getElem? h
  have hinsert : ((Demo.run Demo.old Demo.lateResend Demo.lateResendSteps).hist.all
      fun e => e.writes.all fun w => match w with
        | .insertRequest _ => false
        | _ => true) = true := by decide
  rintro ⟨g, c, n, id, condition, a, b, c', he, -, hsel, hb, hrev⟩
  rcases hrev with ⟨⟨env, token, h⟩ | ⟨env, token, h⟩ | ⟨env, token, h⟩, -⟩ | ⟨row, hrow, -⟩
  · rcases hreqs h with h | h <;> cases h
  · rcases hreqs h with h | h <;> cases h
  · rcases hreqs h with h | h <;> cases h
  · obtain ⟨take, hsplit⟩ := hsel.split
    have hmem : Event.commit c' ∈
        (Demo.run Demo.old Demo.lateResend Demo.lateResendSteps).hist := by
      rw [he, hsplit]
      simp [hb]
    have h := List.all_eq_true.mp (List.all_eq_true.mp hinsert _ hmem) _ hrow
    cases h

/-- The person opens the link between the two statements of the cleanup. -/
def Demo.lateConfirmation : List Request :=
  [.runBatch (8 * day) cleanupBatchSize, .verifyEmail Demo.today "email"]

def Demo.lateConfirmationSteps : List Nat :=
  List.replicate 3 0 ++ List.replicate 5 1 ++ List.replicate 3 0

/-- The confirmed request is deleted. -/
theorem dead_only_late_confirmation :
    Reachable Demo.host Demo.old Demo.lateConfirmation
        (Demo.run Demo.old Demo.lateConfirmation Demo.lateConfirmationSteps) ∧
      ¬ DeadOnly Demo.old Demo.lateConfirmation
        (Demo.run Demo.old Demo.lateConfirmation Demo.lateConfirmationSteps).hist := by
  have hlast : ((lastCommit? (Demo.run Demo.old Demo.lateConfirmation
      Demo.lateConfirmationSteps).hist).any fun c =>
        c.writes.any fun w => w = .deleteRequest ⟨"request"⟩) = true := by decide
  obtain ⟨c, hc, hdel⟩ := (Option.any_eq_true _ _).mp hlast
  have he := eq_of_lastCommit? hc
  have hbefore : ((replay (S := registration) Demo.old (Demo.run Demo.old Demo.lateConfirmation
      Demo.lateConfirmationSteps).hist.dropLast).requests.find? ⟨"request"⟩).any (fun x =>
        (categories (8 * day)).any fun condition => condition.holds x) = false := by decide
  refine ⟨Demo.reachable (by decide), ?_⟩
  intro hd
  have hid : Write.deleteRequest ⟨"request"⟩ ∈ c.writes := by
    obtain ⟨w, hw, hk⟩ := List.any_eq_true.mp hdel
    exact of_decide_eq_true hk ▸ hw
  obtain ⟨condition, a, b, x, hsel, hx, hholds⟩ := hd.still _ c [] _ he hid
  obtain ⟨now, batchSize, hreq, hcat⟩ := hsel.cleanup
  have hnow : now = 8 * day := by
    have hmem := List.mem_of_getElem? hreq
    simp only [Demo.lateConfirmation, List.mem_cons, List.not_mem_nil, or_false, reduceCtorEq,
      Request.runBatch.injEq] at hmem
    exact hmem.1
  subst hnow
  rw [hx] at hbefore
  rw [Option.any_some, List.any_eq_false] at hbefore
  exact hbefore condition hcat hholds

end Bazar.Registration
