import BazarApi.Corrections.Chains

/- What a run of creations and reversals keeps, put together. -/
namespace Bazar.Corrections

open Txn

/-! Identities. -/

def Request.contextId : Request → String
  | .create _ _ actor _ => actor.account.contextId
  | .reverse _ _ actor _ _ => actor.account.contextId

/-- The row a request names. -/
def Request.key (host : Host) : Request → Key
  | .create _ k _ dto => .record k (k.service.normalized host dto).id
  | .reverse _ k _ _ dto => .reversal k (uuid dto.id)

def Request.reverses : Request → Bool
  | .create _ _ _ _ => false
  | .reverse _ _ _ _ _ => true

/-- The business and the fingerprint of the row under an id, of any business. -/
def Db.under (d : Db) : Key → Option (String × String)
  | .record k id => ((d.records k).find? id).map fun x => (x.contextId, x.requestFingerprint)
  | .reversal k id => ((d.reversals k).find? id).map fun x => (x.contextId, x.requestFingerprint)
  | _ => none

/-- What a row stored for the request has. -/
def Request.own (host : Host) (r : Request) : String × String := (r.contextId, r.fingerprint host)

/-- Two contents that the hash does not tell apart. -/
def Collide (host : Host) (x y : Json) : Prop := x ≠ y ∧ host.sha256 x = host.sha256 y

/-- What holds in every state of a run. -/
structure Kept (host : Host) (d₀ : Db) (reqs : List Request) (s : Sys corrections Answer) :
    Prop where
  /-- A record is reversed once at most. -/
  once : ∀ k, ∀ r ∈ ((replay (S := corrections) d₀ s.hist).reversals k).rows,
    ∀ r' ∈ ((replay (S := corrections) d₀ s.hist).reversals k).rows,
      r.data.targetId = r'.data.targetId → r = r'
  /-- From a record, those that replace one another: finitely many, no two the same, all records,
  all but the last reversed. -/
  chain : ∀ k id, (((replay (S := corrections) d₀ s.hist).records k).find? id).isSome →
    ∃ ids, Path (replay (S := corrections) d₀ s.hist) k id ids ∧ ids.Nodup ∧
      (∀ x ∈ ids, (((replay (S := corrections) d₀ s.hist).records k).find? x).isSome) ∧
      ∀ x ∈ ids.dropLast, ((replay (S := corrections) d₀ s.hist).reversalOf k x).isSome
  /-- A reversal that names a replacement inserts it. -/
  reversal : ∀ h₁ c h₂, s.hist = h₁ ++ .commit c :: h₂ → ∀ k row,
    .insertReversal k row ∈ c.writes → ∀ id ∈ row.replacementId,
      ∃ x, .insertRecord k x ∈ c.writes ∧ x.id = id
  /-- A record inserted is a replacement exactly when a reversal names it, and that reversal is
  inserted with it. -/
  replacement : ∀ h₁ c h₂ r, s.hist = h₁ ++ .commit c :: h₂ → reqs[c.pid]? = some r → ∀ k x,
    .insertRecord k x ∈ c.writes →
      (r.reverses = true ↔ ∃ row ∈ ((replay (S := corrections) d₀ s.hist).reversals k).rows,
        row.replacementId = some x.id) ∧
      ∀ row ∈ ((replay (S := corrections) d₀ s.hist).reversals k).rows,
        row.replacementId = some x.id → .insertReversal k row ∈ c.writes
  /-- No row ever changes. -/
  grows : ∀ g, g <+: s.hist →
    Grows (replay (S := corrections) d₀ g) (replay (S := corrections) d₀ s.hist)
  /-- A success shows the row stored under its id, made from the same content. -/
  accepted : ∀ i r a, reqs[i]? = some r → s.Answered i (.ok a) →
    r.stored host (replay (S := corrections) d₀ s.hist) = some (r.fingerprint host, a.replayed)
  /-- A request whose row, of the same content, is there before it looks, or before the last thing
  it does, is answered with it, unless who asks may not ask any more or the database fails. -/
  replayed : ∀ g n i r b x, g ++ n = s.hist → reqs[i]? = some r →
    .exec i (r.look host) ∉ g ∨ (∃ e ∈ n, e.pid = i) →
    r.stored host (replay (S := corrections) d₀ g) = some (r.fingerprint host, b) →
    s.Answered i x →
      x = .ok b ∨ ∃ e, x = .error e ∧
        (r.check host = .error e ∨ e = originUnauthorized ∨ e.spontaneous)
  /-- A request for an id that has other content is never accepted, and writes nothing. -/
  refused : ∀ g i r y, g <+: s.hist → reqs[i]? = some r →
    (replay (S := corrections) d₀ g).under (r.key host) = some y → y ≠ r.own host →
      (∀ a, ¬ s.Answered i (.ok a)) ∧
      ∀ h₁ c h₂, s.hist = h₁ ++ .commit c :: h₂ → c.pid = i → c.writes = []
  /-- Two requests accepted for one id have the same content and are shown the same. -/
  same : ∀ i j r r' a a', reqs[i]? = some r → reqs[j]? = some r' → r.key host = r'.key host →
    s.Answered i (.ok a) → s.Answered j (.ok a') →
      a.replayed = a'.replayed ∧
        (r.content host = r'.content host ∨ Collide host (r.content host) (r'.content host))

section
variable {host : Host} {d d' d₀ : Db} {reqs : List Request} {h h' : History corrections}
variable {r r' : Request} {ws : List Write} {locks : Locks Key} {k : Kind} {x : Record}
variable {s : Sys corrections Answer}

theorem Grows.under {key : Key} {y : String × String} (hg : Grows d d')
    (hy : d.under key = some y) : d'.under key = some y := by
  cases key with
  | record k id =>
    obtain ⟨row, hrow, rfl⟩ := Option.map_eq_some_iff.mp hy
    exact Option.map_eq_some_iff.mpr ⟨row, hg.records k id row hrow, rfl⟩
  | reversal k id =>
    obtain ⟨row, hrow, rfl⟩ := Option.map_eq_some_iff.mp hy
    exact Option.map_eq_some_iff.mpr ⟨row, hg.reversals k id row hrow, rfl⟩
  | _ => cases hy

/-- A row stored for a request is the one under its id. -/
theorem Request.under_of_stored {b : String × Answer} (hs : r.stored host d = some b) :
    d.under (r.key host) = some (r.contextId, b.1) := by
  cases r with
  | create env k actor dto =>
    obtain ⟨row, hrow, rfl⟩ := Option.map_eq_some_iff.mp hs
    obtain ⟨hfind, hctx⟩ := Option.filter_eq_some_iff.mp hrow
    refine Option.map_eq_some_iff.mpr ⟨row, hfind, ?_⟩
    rw [of_decide_eq_true hctx]
    rfl
  | reverse env k actor targetId dto =>
    obtain ⟨row, hrow, rfl⟩ := Option.map_eq_some_iff.mp hs
    obtain ⟨hfind, hctx⟩ := Option.filter_eq_some_iff.mp hrow
    refine Option.map_eq_some_iff.mpr ⟨row, hfind, ?_⟩
    rw [of_decide_eq_true hctx]
    rfl

/-- What is stored goes by the id and the business. -/
theorem Request.stored_congr (hk : r.key host = r'.key host) (hc : r.contextId = r'.contextId) :
    r.stored host d = r'.stored host d := by
  cases r with
  | create env k actor dto =>
    cases r' with
    | create env' k' actor' dto' =>
      obtain ⟨rfl, hid⟩ := Key.record.inj hk
      change Option.map _ (Db.findRecord _ _ _ _) = Option.map _ (Db.findRecord _ _ _ _)
      rw [hid, show actor.account.contextId = actor'.account.contextId from hc]
    | reverse env' k' actor' targetId' dto' => cases hk
  | reverse env k actor targetId dto =>
    cases r' with
    | create env' k' actor' dto' => cases hk
    | reverse env' k' actor' targetId' dto' =>
      obtain ⟨rfl, hid⟩ := Key.reversal.inj hk
      change Option.map _ (Db.findReversal _ _ _ _) = Option.map _ (Db.findReversal _ _ _ _)
      rw [hid, show actor.account.contextId = actor'.account.contextId from hc]

/-! What a commit inserts. -/

/-- A record inserted was new, and is there. -/
theorem Effect.record (he : Effect host d₀ h locks r ws) (hx : .insertRecord k x ∈ ws) :
    ((replay (S := corrections) d₀ h).records k).find? x.id = none ∧
      ((applyAll (S := corrections) (replay (S := corrections) d₀ h) ws).records k).find? x.id =
        some x := by
  have hput : ∀ (v : Db), (((Write.insertRecord k x).apply v).records k).find? x.id = some x := by
    intro v
    rw [records_insertRecord, if_pos rfl]
    exact Table.find?_put_self
  cases he with
  | created hnew _ =>
    cases List.mem_singleton.mp hx
    exact ⟨hnew, hput _⟩
  | @reversed env k' actor targetId dto original _ _ _ _ hfree _ _ =>
    unfold reversalWrites at hx ⊢
    cases hdata : dto.normalized host with
    | none =>
      rw [hdata] at hx
      cases List.mem_singleton.mp hx
    | some data =>
      rw [hdata] at hx
      rcases List.mem_cons.mp hx with hx | hx
      · cases hx
        exact ⟨hfree data hdata, hput _⟩
      · cases List.mem_singleton.mp hx

/-- A reversal inserted is of a request that reverses, and its replacement is inserted too. -/
theorem Effect.reversal {row : Reversal} (he : Effect host d₀ h locks r ws)
    (hw : .insertReversal k row ∈ ws) :
    r.reverses = true ∧ ∀ id ∈ row.replacementId, ∃ x, .insertRecord k x ∈ ws ∧ x.id = id := by
  cases he with
  | created hnew _ => cases List.mem_singleton.mp hw
  | @reversed env k' actor targetId dto original _ _ _ _ hfree _ _ =>
    refine ⟨rfl, ?_⟩
    unfold reversalWrites at hw ⊢
    rcases List.mem_append.mp hw with hw | hw
    · obtain ⟨data, -, he⟩ := List.mem_map.mp hw
      cases he
    · cases List.mem_singleton.mp hw
      intro id hid
      obtain ⟨data, hdata, rfl⟩ := Option.map_eq_some_iff.mp hid
      refine ⟨replacementRow host env actor (uuid dto.id) data, ?_, rfl⟩
      exact List.mem_append_left _ (List.mem_map.mpr ⟨data, Option.mem_toList.mpr hdata, rfl⟩)

/-- A reversal inserted is there. -/
theorem Effect.reversal_there {row : Reversal} (he : Effect host d₀ h locks r ws)
    (hw : .insertReversal k row ∈ ws) :
    ((applyAll (S := corrections) (replay (S := corrections) d₀ h) ws).reversals k).find? row.id =
      some row := by
  cases he with
  | created hnew _ => cases List.mem_singleton.mp hw
  | @reversed env k' actor targetId dto original _ _ _ _ hfree _ _ =>
    unfold reversalWrites at hw ⊢
    rw [applyAll_append]
    rcases List.mem_append.mp hw with hw | hw
    · obtain ⟨data, -, he⟩ := List.mem_map.mp hw
      cases he
    · cases List.mem_singleton.mp hw
      change (((Write.insertReversal k _).apply _).reversals k).find? _ = _
      rw [reversals_insertReversal, if_pos rfl]
      exact Table.find?_put_self

/-- A replacement is inserted with the reversal that names it. -/
theorem Effect.replacement (he : Effect host d₀ h locks r ws) (hx : .insertRecord k x ∈ ws)
    (hr : r.reverses = true) :
    ∃ row, .insertReversal k row ∈ ws ∧ row.replacementId = some x.id := by
  cases he with
  | created hnew _ => cases hr
  | @reversed env k' actor targetId dto original _ _ _ _ hfree _ _ =>
    unfold reversalWrites at hx ⊢
    rcases List.mem_append.mp hx with hx | hx
    · obtain ⟨data, hdata, he⟩ := List.mem_map.mp hx
      cases he
      refine ⟨_, List.mem_append_right _ (List.mem_singleton_self _), ?_⟩
      exact Option.map_eq_some_iff.mpr ⟨data, Option.mem_toList.mp hdata, rfl⟩
    · cases List.mem_singleton.mp hx

/-- A reversal that is there and was not was inserted. -/
theorem Effect.inserted {row : Reversal} (he : Effect host d₀ h locks r ws)
    (hno : row ∉ ((replay (S := corrections) d₀ h).reversals k).rows)
    (hrow : row ∈ ((applyAll (S := corrections) (replay (S := corrections) d₀ h) ws).reversals
      k).rows) : .insertReversal k row ∈ ws := by
  cases he with
  | created hnew _ => exact absurd hrow hno
  | @reversed env k' actor targetId dto original _ _ _ _ hfree _ _ =>
    unfold reversalWrites at hrow ⊢
    rw [applyAll_append] at hrow
    change row ∈ (((Write.insertReversal k' _).apply _).reversals k).rows at hrow
    rw [reversals_insertReversal, reversals_pending] at hrow
    split at hrow
    · rename_i hk
      subst hk
      rcases Table.mem_put.mp hrow with rfl | ⟨hrow, -⟩
      · exact List.mem_append_right _ (List.mem_singleton_self _)
      · exact absurd hrow hno
    · exact absurd hrow hno

/-- The row of a request is new, and then it is the request's. -/
theorem Effect.under (he : Effect host d₀ h locks r ws) :
    (replay (S := corrections) d₀ h).under (r.key host) = none ∧
      (applyAll (S := corrections) (replay (S := corrections) d₀ h) ws).under (r.key host) =
        some (r.own host) := by
  cases he with
  | @created env k actor dto hnew _ =>
    refine ⟨congrArg (Option.map _) hnew, ?_⟩
    refine Option.map_eq_some_iff.mpr ⟨createdRow host env k actor dto, ?_, rfl⟩
    change (((Write.insertRecord k (createdRow host env k actor dto)).apply _).records k).find?
      (Keyed.key (createdRow host env k actor dto)) = _
    rw [records_insertRecord, if_pos rfl]
    exact Table.find?_put_self
  | @reversed env k' actor targetId dto original _ _ _ hnew hfree _ _ =>
    refine ⟨congrArg (Option.map _) hnew, ?_⟩
    unfold reversalWrites
    rw [applyAll_append]
    refine Option.map_eq_some_iff.mpr ⟨correctionRow host env actor (uuid targetId) dto
      original.creationResponse, ?_, rfl⟩
    change (((Write.insertReversal k' (correctionRow host env actor (uuid targetId) dto
      original.creationResponse)).apply _).reversals k').find? (Keyed.key (correctionRow host env
        actor (uuid targetId) dto original.creationResponse)) = _
    rw [reversals_insertReversal, if_pos rfl]
    exact Table.find?_put_self

/-! What a run inserts. -/

/-- A commit that writes anything writes what its request writes. -/
theorem Lawful.effect {h₁ h₂ : History corrections} {c : Commit corrections} {w : Write}
    (hl : Lawful (Commits host d₀ reqs) h) (hc : h = h₁ ++ .commit c :: h₂) (hw : w ∈ c.writes) :
    ∃ r, reqs[c.pid]? = some r ∧ Effect host d₀ h₁ c.locks r c.writes := by
  obtain ⟨r, hreq, hnone | he⟩ := (hl h₁ c h₂ hc).2
  · rw [hnone] at hw
    cases hw
  · exact ⟨r, hreq, he⟩

/-- After a commit, and ever since. -/
theorem Lawful.committed {h₁ : History corrections} {c : Commit corrections}
    (hl : Lawful (Commits host d₀ reqs) h) (hp : h₁ ++ [.commit c] <+: h) :
    Grows (applyAll (S := corrections) (replay (S := corrections) d₀ h₁) c.writes)
      (replay (S := corrections) d₀ h) := by
  have hg := Lawful.grows hl hp
  rwa [replay_committed] at hg

/-- One id is inserted by one commit. -/
theorem Lawful.record_once {h₁ h₂ h₁' h₂' : History corrections} {c c' : Commit corrections}
    {x' : Record} (hl : Lawful (Commits host d₀ reqs) h) (hc : h = h₁ ++ .commit c :: h₂)
    (hc' : h = h₁' ++ .commit c' :: h₂') (hx : .insertRecord k x ∈ c.writes)
    (hx' : .insertRecord k x' ∈ c'.writes) (hid : x.id = x'.id) : c = c' := by
  obtain ⟨r, -, he⟩ := Lawful.effect hl hc hx
  obtain ⟨r', -, he'⟩ := Lawful.effect hl hc' hx'
  obtain ⟨hnew, hthere⟩ := he.record hx
  obtain ⟨hnew', hthere'⟩ := he'.record hx'
  have hpre : h₁ <+: h := hc ▸ List.prefix_append _ _
  have hpre' : h₁' <+: h := hc' ▸ List.prefix_append _ _
  rcases split_cases hc hc' with rfl | hlt | hlt
  · have hcons := List.append_cancel_left (hc.symm.trans hc')
    exact Event.commit.inj (List.cons.inj hcons).1
  · have hsome := (Lawful.committed (hl.of_prefix hpre') hlt).records k x.id x hthere
    rw [hid, hnew'] at hsome
    cases hsome
  · have hsome := (Lawful.committed (hl.of_prefix hpre) hlt).records k x'.id x' hthere'
    rw [← hid, hnew] at hsome
    cases hsome

/-- Every reversal was there at first or was inserted. -/
theorem Lawful.reversal_from {row : Reversal} (hl : Lawful (Commits host d₀ reqs) h)
    (hrow : row ∈ ((replay (S := corrections) d₀ h).reversals k).rows) :
    row ∈ (d₀.reversals k).rows ∨
      ∃ h₁ c h₂, h = h₁ ++ .commit c :: h₂ ∧ .insertReversal k row ∈ c.writes := by
  by_cases hno : row ∈ (d₀.reversals k).rows
  · exact .inl hno
  obtain ⟨h₁, c, h₂, rfl, hno₁, hyes⟩ := replay_crossing (S := corrections) (h := []) (n := h)
    (fun v => row ∉ (v.reversals k).rows) hno (fun hn => hn hrow)
  have hyes := not_not.mp hyes
  rw [List.nil_append] at hno₁ hyes
  rw [replay_committed] at hyes
  refine .inr ⟨h₁, c, h₂, rfl, ?_⟩
  obtain ⟨r, -, hnone | he⟩ := (hl h₁ c h₂ rfl).2
  · rw [hnone] at hyes
    exact absurd hyes hno₁
  · exact he.inserted hno₁ hyes

/-- A reversal that names a record inserted is inserted with it. -/
theorem Lawful.reversal_with {h₁ h₂ : History corrections} {c : Commit corrections}
    {row : Reversal} (hl : Lawful (Commits host d₀ reqs) h) (hd : Chained d₀)
    (hc : h = h₁ ++ .commit c :: h₂) (hx : .insertRecord k x ∈ c.writes)
    (hrow : row ∈ ((replay (S := corrections) d₀ h).reversals k).rows)
    (hid : row.replacementId = some x.id) : .insertReversal k row ∈ c.writes := by
  obtain ⟨r, -, he⟩ := Lawful.effect hl hc hx
  rcases Lawful.reversal_from hl hrow with hold | ⟨h₁', c', h₂', hc', hw⟩
  · -- what it names was there at first, so the record was not new
    obtain ⟨y, hy⟩ := Option.isSome_iff_exists.mp (hd.replacements k row hold x.id hid)
    have hpre : h₁ <+: h := hc ▸ List.prefix_append _ _
    have hthere := (Lawful.grows (hl.of_prefix hpre) List.nil_prefix).records k x.id y hy
    rw [(he.record hx).1] at hthere
    cases hthere
  · obtain ⟨r', -, he'⟩ := Lawful.effect hl hc' hw
    obtain ⟨x', hx', hid'⟩ := (he'.reversal hw).2 x.id hid
    rw [Lawful.record_once hl hc hc' hx hx' hid'.symm]
    exact hw

/-! Answers. -/

/-- What is stored for an accepted request is its own. -/
theorem Request.Post.own {i : Nat} {a : Answer} (hp : r.Post host d₀ i h (.ok a)) :
    (replay (S := corrections) d₀ h).under (r.key host) = some (r.own host) :=
  Request.under_of_stored hp.1

/-- A request that looks, or does anything, after its row was there. -/
theorem Request.Post.replayed {g n : History corrections} {i : Nat} {b : Answer}
    {y : Except Err Answer} (hp : r.Post host d₀ i h y) (hl : Lawful (Commits host d₀ reqs) h)
    (hg : g ++ n = h) (hn : .exec i (r.look host) ∉ g ∨ ∃ e ∈ n, e.pid = i)
    (hs : r.stored host (replay (S := corrections) d₀ g) = some (r.fingerprint host, b)) :
    y = .ok b ∨ ∃ e, y = .error e ∧
      (r.check host = .error e ∨ e = originUnauthorized ∨ e.spontaneous) := by
  subst hg
  -- once it looked, it did something with its row stored
  have hseen : ∀ {P}, Looked d₀ i (r.look host) (g ++ n) P → ∃ v, P v ∧
      r.stored host v = some (r.fingerprint host, b) := by
    intro P hlooked
    obtain ⟨e, hm, hpid⟩ : ∃ e ∈ n, e.pid = i := by
      rcases hn with hn | hn
      · exact ⟨_, (List.mem_append.mp hlooked.sent).resolve_left hn, rfl⟩
      · exact hn
    obtain ⟨n₁, n₂, rfl⟩ := List.append_of_mem hm
    have hl₁ : Lawful (Commits host d₀ reqs) (g ++ n₁) := hl.of_prefix ⟨e :: n₂, by simp⟩
    exact ⟨_, hlooked.found (g ++ n₁) e n₂ (by simp) hpid,
      Request.stored_grows (Lawful.grows hl₁ (List.prefix_append _ _)) hs⟩
  cases y with
  | ok a =>
    have hnow := Request.stored_grows (Lawful.grows hl (List.prefix_append _ _)) hs
    have hb : b = a.replayed := congrArg Prod.snd (Option.some.inj (hnow.symm.trans hp.1))
    rcases hp.2 with ha | hlooked
    · exact .inl (by rw [hb, ← ha])
    · obtain ⟨v, hnone, hsome⟩ := hseen hlooked
      cases hsome.symm.trans hnone
  | error e =>
    refine .inr ⟨e, rfl, ?_⟩
    rcases hp with hcheck | horigin | hdb | hlooked
    · exact .inl hcheck
    · exact .inr (.inl horigin)
    · exact .inr (.inr hdb)
    · obtain ⟨v, hun, hsome⟩ := hseen hlooked
      exact absurd rfl (hun _ hsome)

/-- A request whose id has other content writes nothing. -/
theorem Lawful.refused {g h₁ h₂ : History corrections} {c : Commit corrections}
    {y : String × String} (hl : Lawful (Commits host d₀ reqs) h) (hg : g <+: h)
    (hreq : reqs[c.pid]? = some r)
    (hy : (replay (S := corrections) d₀ g).under (r.key host) = some y) (hne : y ≠ r.own host)
    (hc : h = h₁ ++ .commit c :: h₂) : c.writes = [] := by
  obtain ⟨r', hreq', hnone | he⟩ := (hl h₁ c h₂ hc).2
  · exact hnone
  cases hreq.symm.trans hreq'
  exfalso
  obtain ⟨hbefore, hafter⟩ := he.under
  have hpre : h₁ <+: h := hc ▸ List.prefix_append _ _
  have hpre' : h₁ ++ [.commit c] <+: h := by
    rw [hc]
    exact ⟨h₂, by simp⟩
  rcases List.prefix_or_prefix_of_prefix hg hpre' with hle | hle
  · rcases List.prefix_concat_iff.mp hle with rfl | hle
    · rw [replay_committed, hafter] at hy
      exact hne (Option.some.inj hy).symm
    · have hthere := (Lawful.grows (hl.of_prefix hpre) hle).under hy
      rw [hbefore] at hthere
      cases hthere
  · have hthere := (Lawful.committed (hl.of_prefix hg) hle).under hafter
    rw [hy] at hthere
    exact hne (Option.some.inj hthere)

end

/-! Runs. -/

/-- Every run of creations and reversals keeps its records, their chains and its receipts. -/
theorem corrections_kept (host : Host) (d₀ : Db) (reqs : List Request)
    (s : Sys corrections Answer) (hd : Chained d₀) (hr : Reachable host d₀ reqs s) :
    Kept host d₀ reqs s := by
  have hl := hr.ok.lawful
  have hpost : ∀ i r x, reqs[i]? = some r → s.Answered i x → r.Post host d₀ i s.hist x :=
    fun i r x hreq ha => hr.ok.answered ha r hreq
  have hchained := Lawful.chained hl hd
  refine ⟨hchained.once, ?_, ?_, ?_, fun g hg => Lawful.grows hl hg, ?_, ?_, ?_, ?_⟩
  · intro k id hid
    obtain ⟨ids, hp⟩ := hchained.path hid
    exact ⟨ids, hp, hp.nodup hchained, hp.records hchained hid, hp.reversed⟩
  · intro h₁ c h₂ hc k row hw
    obtain ⟨r, -, he⟩ := Lawful.effect hl hc hw
    exact (he.reversal hw).2
  · intro h₁ c h₂ r hc hreq k x hx
    obtain ⟨r', hreq', he⟩ := Lawful.effect hl hc hx
    cases hreq.symm.trans hreq'
    have hwith : ∀ row ∈ ((replay (S := corrections) d₀ s.hist).reversals k).rows,
        row.replacementId = some x.id → .insertReversal k row ∈ c.writes :=
      fun row hrow hid => Lawful.reversal_with hl hd hc hx hrow hid
    refine ⟨⟨?_, ?_⟩, hwith⟩
    · intro hrev
      obtain ⟨row, hw, hid⟩ := he.replacement hx hrev
      have hpre : h₁ ++ [.commit c] <+: s.hist := by
        rw [hc]
        exact ⟨h₂, by simp⟩
      have hthere := (Lawful.committed hl hpre).reversals k row.id row (he.reversal_there hw)
      exact ⟨row, Table.mem_of_find? hthere, hid⟩
    · rintro ⟨row, hrow, hid⟩
      exact (he.reversal (hwith row hrow hid)).1
  · intro i r a hreq ha
    exact (hpost i r _ hreq ha).1
  · intro g n i r b x hg hreq hn hs ha
    exact (hpost i r x hreq ha).replayed hl hg hn hs
  · intro g i r y hg hreq hy hne
    refine ⟨?_, ?_⟩
    · intro a ha
      have hown := (hpost i r _ hreq ha).own
      rw [(Lawful.grows hl hg).under hy] at hown
      exact hne (Option.some.inj hown)
    · rintro h₁ c h₂ hc rfl
      exact Lawful.refused hl hg hreq hy hne hc
  · intro i j r r' a a' hreq hreq' hkey ha ha'
    have hp := hpost i r _ hreq ha
    have hp' := hpost j r' _ hreq' ha'
    have hown := hp.own
    rw [hkey, hp'.own] at hown
    obtain ⟨hctx, hfp⟩ := Prod.mk.inj (Option.some.inj hown)
    have hstored := hp.1
    rw [Request.stored_congr hkey hctx.symm, hp'.1] at hstored
    refine ⟨(congrArg Prod.snd (Option.some.inj hstored)).symm, ?_⟩
    by_cases he : r.content host = r'.content host
    · exact .inl he
    · exact .inr ⟨he, hfp.symm⟩

/-! A contribution made while it is sent again, reversed with a replacement, and the replacement's
id used for another. -/

namespace Demo

/-- The texts of an object, one after the other. -/
def digest : Json → String
  | .obj fields => "|".intercalate (fields.map fun f => match f.2 with | .str s => s | _ => f.1)
  | _ => ""

def host : Host :=
  { sha256 := digest, localeCompare := compare, daysText := fun _ => "", trim := id }

def member : Team.Member :=
  { id := ⟨"a"⟩, name := "Ana", role := .socio, contextId := "c", active := true, correo := none }

def device : Team.Device :=
  { id := ⟨"caja"⟩, name := "caja", identifier := "caja", contextId := "c", authorized := true
    createdAt := 0, status := .activo, tokenHash := none, activatedAt := none, revokedAt := none }

def bazar : Db :=
  { members := ⟨[member], by decide⟩, devices := ⟨[device], by decide⟩
    records := fun _ => ⟨[], by decide⟩, reversals := fun _ => ⟨[], by decide⟩ }

def actor : Actor :=
  { account := { id := "login", contextId := "c" }
    selection := some { memberId := "a", deviceId := "caja" } }

def env : Env := { serverId := fun _ => ⟨""⟩, now := fun _ => 0 }

def contribution (id : String) : CreateContributionDto :=
  { id, memberId := "a", createdByMemberId := "a", deviceId := "caja", amountMinor := 100
    occurredAt := 0, note := none }

def reversal : ReverseDto .contribution :=
  { id := "y", createdByMemberId := "a", deviceId := "caja", occurredAt := 0, reason := "monto"
    replacement := some (contribution "z") }

def corrected : List Request :=
  [.create env .contribution actor (contribution "x"),
    .reverse env .contribution actor "x" reversal,
    .create env .contribution actor (contribution "x"),
    .create env .contribution actor (contribution "z")]

def correctedSteps : List Nat :=
  List.replicate 5 0 ++ List.replicate 3 2 ++ List.replicate 3 0 ++ List.replicate 14 1 ++
    List.replicate 3 2 ++ List.replicate 6 3

/-- The state after the requests took the steps of a schedule. -/
def run (d : Db) (reqs : List Request) (steps : List Nat) : Sys corrections Answer :=
  (Sys.initial (reqs.map (Request.call host))).scheduled d steps

theorem reachable {d : Db} {reqs : List Request} {steps : List Nat}
    (h : ((Sys.initial (reqs.map (Request.call host))).schedule (S := corrections) d steps).isSome =
      true) : Reachable host d reqs (run d reqs steps) :=
  Sys.scheduled_reach h

theorem bazar_chained : Chained bazar :=
  ⟨fun _ _ hr => (nomatch hr), fun _ _ hr => (nomatch hr), fun _ _ hr => (nomatch hr),
    fun _ _ => 0, fun _ _ hr => (nomatch hr)⟩

end Demo

theorem corrections_kept_corrected :
    Kept Demo.host Demo.bazar Demo.corrected
      (Demo.run Demo.bazar Demo.corrected Demo.correctedSteps) :=
  corrections_kept Demo.host _ _ _ Demo.bazar_chained (Demo.reachable (by decide))

end Bazar.Corrections
