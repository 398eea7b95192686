import BazarApi.Team.Lifecycle

/- Which identifier activates a device. `identify` looks the identifier up in one
   statement and claims the device in a later one whose condition names the device and
   its status, but not the identifier; a reissue that commits in between leaves the device
   waiting as before, under another identifier. -/
namespace Bazar.Team

open Txn

variable {host : Host} {d₀ : Db} {reqs : List Request} {h n : History team} {c : Commit team}
variable {id : Uuid} {row : Device}

/-- The identifier a request draws for a device. -/
def Request.drawn : Request → Option String
  | .create env _ _ => some (env.serverId 1).text
  | .reissue env _ _ _ => some (env.serverId 0).text
  | .accept env _ => some (env.serverId 2).text
  | _ => none

/-- `createServerId` never draws an identifier twice, nor one that a device already has. -/
structure FreshIdentifiers (d₀ : Db) (reqs : List Request) : Prop where
  apart : ∀ (i j : Nat) r r' s, i ≠ j → reqs[i]? = some r → reqs[j]? = some r' →
    r.drawn = some s → r'.drawn ≠ some s
  unused : ∀ x ∈ d₀.devices.rows, ∀ r ∈ reqs, r.drawn ≠ some x.identifier

/-- The identifier was drawn by a request that wrote in this stretch of history. -/
def DrawnIn (reqs : List Request) (n : History team) (s : String) : Prop :=
  ∃ c r, Event.commit c ∈ n ∧ c.writes ≠ [] ∧ reqs[c.pid]? = some r ∧ r.drawn = some s

theorem DrawnIn.mono {n' : History team} {s : String} (hs : DrawnIn reqs n s) (hn : n ⊆ n') :
    DrawnIn reqs n' s := by
  obtain ⟨c, r, hc, hw, hr, hd⟩ := hs
  exact ⟨c, r, hn hc, hw, hr, hd⟩

/-- A device has its identifier since before, or it was drawn meanwhile. -/
theorem Lawful.identifier_from (hl : Lawful (Commits host d₀ reqs) (h ++ n))
    (hrow : (replay (S := team) d₀ (h ++ n)).devices.find? id = some row) :
    (∃ x, (replay (S := team) d₀ h).devices.find? id = some x ∧ x.identifier = row.identifier) ∨
      DrawnIn reqs n row.identifier := by
  induction n using List.reverseRecOn generalizing row with
  | nil =>
    rw [List.append_nil] at hrow
    exact .inl ⟨row, hrow, rfl⟩
  | append_singleton n e ih =>
    rw [← List.append_assoc] at hl hrow
    have later : ∀ {s}, DrawnIn reqs n s → DrawnIn reqs (n ++ [e]) s :=
      fun hs => hs.mono (List.subset_append_left _ _)
    cases e with
    | exec i q =>
      rw [replay_sent] at hrow
      exact (ih hl.left hrow).imp_right later
    | commit c =>
      have hc := (hl (h ++ n) c [] rfl).2
      have hmem : Event.commit c ∈ n ++ [.commit c] := by simp
      cases hold : (replay (S := team) d₀ (h ++ n)).devices.find? id with
      | none =>
        obtain ⟨hw, hborn⟩ := hc.born hold hrow
        rcases hborn with ⟨env, actor, dto, hreq, rfl⟩ | ⟨env, token, inv, name, hreq, rfl⟩
        · exact .inr ⟨c, _, hmem, hw, hreq, rfl⟩
        · exact .inr ⟨c, _, hmem, hw, hreq, rfl⟩
      | some x =>
        obtain ⟨row', hrow', hm⟩ := hc.move hold
        cases hrow.symm.trans hrow'
        cases hm with
        | stay => exact (ih hl.left hold).imp_right later
        | activate _ _ => exact (ih hl.left hold).imp_right later
        | revoke _ => exact (ih hl.left hold).imp_right later
        | reissue hr hu =>
          obtain ⟨data, hdata⟩ := hu
          exact .inr ⟨c, _, hmem, List.ne_nil_of_mem hdata, hr, rfl⟩

/-- An identifier changes only by a reissue. -/
theorem Lawful.identifier_kept (hl : Lawful (Commits host d₀ reqs) (h ++ n))
    (hrow : (replay (S := team) d₀ h).devices.find? id = some row) {last : Device}
    (hlast : (replay (S := team) d₀ (h ++ n)).devices.find? id = some last)
    (hn : ∀ c, Event.commit c ∈ n → ¬ Reissues reqs c id) : last.identifier = row.identifier := by
  by_contra hne
  obtain ⟨g, c, g', x, y, rfl, -, hx, -, hy, hm⟩ :=
    Device.crossing (fun x => x.identifier = row.identifier) hl hrow rfl hlast hne
  cases hm with
  | stay => exact hy hx
  | activate _ _ => exact hy hx
  | revoke _ => exact hy hx
  | reissue hr hu => exact hn c (by simp) ⟨⟨_, _, _, _, hr⟩, hu⟩

/-- The device has the identifier. -/
def Current (d₀ : Db) (h : History team) (id : Uuid) (identifier : String) : Prop :=
  ∃ row, (replay (S := team) d₀ h).devices.find? id = some row ∧ row.identifier = identifier

/-- A reissue of the device committed since the first statement of request `i`, its lookup. -/
def ReissuedMeanwhile (reqs : List Request) (i : Nat) (id : Uuid) (h : History team) : Prop :=
  ∃ g e g', h = g ++ e :: g' ∧ e.pid = i ∧ (∀ x ∈ g, x.pid ≠ i) ∧
    ∃ c, Event.commit c ∈ g' ∧ Reissues reqs c id

theorem Db.findByIdentifier_eq {v : Db} {contextId identifier name : String} {x : Device}
    (hx : v.findByIdentifier contextId identifier name = some x) :
    v.devices.find? x.id = some x ∧ x.identifier = identifier := by
  refine ⟨Table.find?_of_mem (List.mem_of_find?_eq_some hx), ?_⟩
  have hcond := List.find?_some hx
  exact (of_decide_eq_true hcond).2.1

/-- No identifier is drawn both before and after a moment. -/
theorem FreshIdentifiers.once (hf : FreshIdentifiers d₀ reqs)
    (hl : Lawful (Commits host d₀ reqs) (h ++ n)) {s : String} (hs : DrawnIn reqs h s) :
    ¬ DrawnIn reqs n s := by
  rintro ⟨c, r, hc, hw, hr, hd⟩
  obtain ⟨c₀, r₀, hc₀, hw₀, hr₀, hd₀⟩ := hs
  by_cases hpid : c₀.pid = c.pid
  · -- one request writes once
    obtain ⟨a, b, rfl⟩ := List.append_of_mem hc
    obtain ⟨-, r', -, hquiet⟩ := hl (h ++ a) c b (List.append_assoc _ _ _).symm
    rcases hquiet with hnil | ⟨hquiet, -⟩
    · exact hw hnil
    · exact hw₀ (hquiet c₀ (List.mem_append_left _ hc₀) hpid)
  · exact hf.apart c₀.pid c.pid r₀ r s hpid hr₀ hr hd₀ hd

theorem Lawful.reissued_differs (hf : FreshIdentifiers d₀ reqs)
    (hl : Lawful (Commits host d₀ reqs) (h ++ n)) {read last : Device}
    (hread : (replay (S := team) d₀ h).devices.find? id = some read)
    (hlast : (replay (S := team) d₀ (h ++ n)).devices.find? id = some last)
    (hc : Event.commit c ∈ n) (hr : Reissues reqs c id) : last.identifier ≠ read.identifier := by
  obtain ⟨a, b, rfl⟩ := List.append_of_mem hc
  have happ : h ++ (a ++ .commit c :: b) = h ++ a ++ [.commit c] ++ b := by simp
  -- what the last reissue drew
  have hdrawn : DrawnIn reqs (a ++ .commit c :: b) last.identifier := by
    have hcom := (hl (h ++ a) c b (List.append_assoc _ _ _).symm).2
    obtain ⟨env, actor, text, dto, row, hreq, hw, hrow, -, hid⟩ := hcom.reissued hr
    rw [happ] at hl hlast
    rcases Lawful.identifier_from hl hlast with ⟨x, hx, he⟩ | hb
    · cases hrow.symm.trans hx
      exact ⟨c, _, hc, hw, hreq, congrArg some (hid.symm.trans he)⟩
    · refine hb.mono ?_
      intro e hm
      exact List.mem_append_right _ (List.mem_cons_of_mem _ hm)
  intro he
  have hl' : Lawful (Commits host d₀ reqs) ([] ++ h) := hl.left
  rcases Lawful.identifier_from (h := []) hl' hread with ⟨x, hx, hxe⟩ | hb
  · obtain ⟨c', r, -, -, hreq, hd⟩ := hdrawn
    refine hf.unused x (Table.mem_of_find? hx) r (List.mem_of_getElem? hreq) ?_
    rw [hd, hxe, he]
  · rw [he] at hdrawn
    exact hf.once hl hb hdrawn

/-- A call of `identify` that is answered a token presented the identifier the device had
when its claim committed, provided no reissue of the device committed since its lookup.
When identifiers are never drawn twice, only then. -/
theorem identify_current_iff (host : Host) (d₀ : Db) (reqs : List Request) (s : Sys team Answer)
    (hr : Reachable host d₀ reqs s) (i : Nat) (env : Env) (account : AccountRef)
    (dto : IdentifyDeviceDto) (id : Uuid) (token : String)
    (hreq : reqs[i]? = some (.identify env account dto))
    (ha : s.Answered i (.ok (.identified ⟨id, some token⟩))) :
    ∃ h c n, s.hist = h ++ .commit c :: n ∧ c.pid = i ∧ Activates reqs c id ∧
      (¬ ReissuedMeanwhile reqs i id h → Current d₀ h id dto.identifier) ∧
      (FreshIdentifiers d₀ reqs →
        (Current d₀ h id dto.identifier ↔ ¬ ReissuedMeanwhile reqs i id h)) := by
  obtain ⟨c, hmem, rfl, hact⟩ := hr.answered ha hreq
  obtain ⟨h, n, he⟩ := List.append_of_mem hmem
  have hl : Lawful (Commits host d₀ reqs) h := hr.lawful.of_prefix ⟨_, he.symm⟩
  obtain ⟨-, r, hr', hw⟩ := hr.lawful h c n he
  cases hreq.symm.trans hr'
  obtain ⟨data, hdata⟩ := hact.2
  have hwrote : c.writes ≠ [] := List.ne_nil_of_mem hdata
  rcases hw with hw | ⟨-, heff⟩
  · exact absurd hw hwrote
  generalize hws : c.writes = ws at heff hdata
  cases heff with
  | @activated _ _ _ g g' read row hh hfirst hread hrow hpending =>
    cases List.mem_singleton.mp hdata
    obtain ⟨hread, hid⟩ := Db.findByIdentifier_eq hread
    have hsafe : ¬ ReissuedMeanwhile reqs c.pid read.id h → Current d₀ h read.id dto.identifier := by
      intro hno
      subst hh
      refine ⟨row, hrow, ?_⟩
      rw [← hid]
      refine Lawful.identifier_kept hl hread hrow ?_
      intro c' hc' hre
      have hc' : Event.commit c' ∈ g' := by simpa using hc'
      exact hno ⟨g, _, g', rfl, rfl, hfirst, c', hc', hre⟩
    refine ⟨h, c, n, he, rfl, hact, hsafe, fun hf => ⟨?_, hsafe⟩⟩
    rintro ⟨row', hrow', hcur⟩ ⟨g₂, e, g₂', hh₂, hpid, hfirst₂, c', hc', hre⟩
    obtain ⟨rfl, rfl, rfl⟩ := first_unique hh₂ hh hpid rfl hfirst₂ hfirst
    subst hh
    cases hrow.symm.trans hrow'
    exact Lawful.reissued_differs hf hl hread hrow (List.mem_cons_of_mem _ hc') hre
      (hcur.trans hid.symm)

/-- The till is activated with its identifier, and nobody reissues it. -/
def Demo.activation : List Request := [.identify (env 2) account ⟨"old", "Till"⟩]

theorem identify_current_iff_alone :
    ∃ h c n, (Demo.run Demo.waiting Demo.activation (List.replicate 4 0)).hist =
        h ++ .commit c :: n ∧ c.pid = 0 ∧
      (¬ ReissuedMeanwhile Demo.activation 0 ⟨"till"⟩ h → Current Demo.waiting h ⟨"till"⟩ "old") := by
  obtain ⟨h, c, n, he, hpid, -, hcur, -⟩ := identify_current_iff Demo.host Demo.waiting
    Demo.activation (Demo.run Demo.waiting Demo.activation (List.replicate 4 0))
    (Demo.reachable (by decide)) 0 (Demo.env 2) Demo.account ⟨"old", "Till"⟩ ⟨"till"⟩
    "secret" rfl (Sys.answered_of_answer? (by decide))
  exact ⟨h, c, n, he, hpid, hcur⟩

/-- A socio reissues the till between the lookup and the claim. -/
def Demo.overtaken : List Request :=
  [.identify (env 2) account ⟨"old", "Till"⟩, .reissue (env 1) actor "till" ⟨none⟩]

def Demo.overtakenSteps : List Nat := [0, 0] ++ List.replicate 8 1 ++ [0, 0]

/-- Then the old identifier activates it, after the reissue committed. -/
theorem identify_overtaken :
    Reachable Demo.host Demo.waiting Demo.overtaken
        (Demo.run Demo.waiting Demo.overtaken Demo.overtakenSteps) ∧
      (Demo.run Demo.waiting Demo.overtaken Demo.overtakenSteps).Answered 0
        (.ok (.identified ⟨⟨"till"⟩, some "secret"⟩)) ∧
      ∃ h c, (Demo.run Demo.waiting Demo.overtaken Demo.overtakenSteps).hist = h ++ [.commit c] ∧
        c.pid = 0 ∧ Activates Demo.overtaken c ⟨"till"⟩ ∧
        ¬ Current Demo.waiting h ⟨"till"⟩ "old" := by
  have hcur : ((replay (S := team) Demo.waiting (Demo.run Demo.waiting Demo.overtaken
      Demo.overtakenSteps).hist.dropLast).devices.find? ⟨"till"⟩).all (·.identifier ≠ "old") = true := by
    decide
  refine ⟨Demo.reachable (by decide), Sys.answered_of_answer? (by decide), _,
    (lastCommit? (Demo.run Demo.waiting Demo.overtaken Demo.overtakenSteps).hist).get
      (by decide), eq_of_lastCommit? (Option.some_get _).symm, by decide,
    ⟨⟨_, _, _, rfl⟩, Devices.activation Demo.host (Demo.env 2), by decide⟩, ?_⟩
  rintro ⟨row, hrow, hid⟩
  rw [hrow] at hcur
  exact absurd hid (of_decide_eq_true hcur)

end Bazar.Team
