import BazarApi.Corrections.Safe

/- Chains of corrections. A record is reversed once at most, and the record that replaces it is
   committed with its reversal and under an id that was new. So the records that replace one
   another form a chain that never comes back to itself (`Chained.path`): some rank grows along
   it. What a request is answered shows the row stored under its id, and a request for other
   content is refused and writes nothing. -/
namespace Bazar.Corrections

open Txn

/-! Chains. -/

/-- The record that replaces a record. -/
def Db.next (d : Db) (k : Kind) (id : Uuid) : Option Uuid :=
  (d.reversalOf k id).bind fun r => r.replacementId

/-- What holds of the corrections of a database. -/
structure Chained (d : Db) : Prop where
  once : ∀ k, ∀ r ∈ (d.reversals k).rows, ∀ r' ∈ (d.reversals k).rows,
    r.data.targetId = r'.data.targetId → r = r'
  targets : ∀ k, ∀ r ∈ (d.reversals k).rows, ((d.records k).find? r.data.targetId).isSome
  replacements : ∀ k, ∀ r ∈ (d.reversals k).rows, ∀ id ∈ r.replacementId,
    ((d.records k).find? id).isSome
  ranked : ∃ rank : Kind → Uuid → Nat, ∀ k, ∀ r ∈ (d.reversals k).rows, ∀ id ∈ r.replacementId,
    rank k r.data.targetId < rank k id

/-- The records from one on, each replaced by the one after it. -/
inductive Path (d : Db) (k : Kind) : Uuid → List Uuid → Prop where
  | last {id : Uuid} (h : d.next k id = none) : Path d k id [id]
  | next {id id' : Uuid} {ids : List Uuid} (h : d.next k id = some id') (hp : Path d k id' ids) :
    Path d k id (id :: ids)

section
variable {d : Db} {k : Kind} {id : Uuid} {ids : List Uuid}

/-- What replaces a record was named by its reversal. -/
theorem next_reversal {id' : Uuid} (hn : d.next k id = some id') :
    ∃ r ∈ (d.reversals k).rows, r.data.targetId = id ∧ r.replacementId = some id' := by
  obtain ⟨r, hr, hid⟩ := Option.bind_eq_some_iff.mp hn
  have hr : (d.reversals k).rows.find? (fun r => r.data.targetId = id) = some r := hr
  have htarget := List.find?_some (p := fun r : Reversal => decide (r.data.targetId = id)) hr
  exact ⟨r, List.mem_of_find?_eq_some hr, of_decide_eq_true htarget, hid⟩

theorem Path.ranked {rank : Uuid → Nat} (hp : Path d k id ids)
    (hr : ∀ r ∈ (d.reversals k).rows, ∀ id ∈ r.replacementId, rank r.data.targetId < rank id) :
    (∀ x ∈ ids, rank id ≤ rank x) ∧ ids.Pairwise fun x y => rank x < rank y := by
  induction hp with
  | last h => simp
  | @next id id' ids h hp ih =>
    obtain ⟨r, hmem, rfl, hid⟩ := next_reversal h
    have hlt := hr r hmem id' hid
    refine ⟨?_, List.pairwise_cons.mpr ⟨fun x hx => hlt.trans_le (ih.1 x hx), ih.2⟩⟩
    intro x hx
    rcases List.mem_cons.mp hx with rfl | hx
    · exact le_refl _
    · exact (hlt.trans_le (ih.1 x hx)).le

/-- A chain never comes back to itself. -/
theorem Path.nodup (hp : Path d k id ids) (hd : Chained d) : ids.Nodup := by
  obtain ⟨rank, hr⟩ := hd.ranked
  refine (hp.ranked (hr k)).2.imp ?_
  rintro x y hxy rfl
  exact lt_irrefl _ hxy

/-- All of a chain are records. -/
theorem Path.records (hp : Path d k id ids) (hd : Chained d)
    (hid : ((d.records k).find? id).isSome) : ∀ x ∈ ids, ((d.records k).find? x).isSome := by
  induction hp with
  | last h =>
    intro x hx
    obtain rfl := List.mem_singleton.mp hx
    exact hid
  | next h hp ih =>
    obtain ⟨r, hmem, -, hid'⟩ := next_reversal h
    intro x hx
    rcases List.mem_cons.mp hx with rfl | hx
    · exact hid
    · exact ih (hd.replacements k r hmem _ hid') x hx

/-- All of a chain but the last are reversed. -/
theorem Path.reversed (hp : Path d k id ids) : ∀ x ∈ ids.dropLast, (d.reversalOf k x).isSome := by
  induction hp with
  | last h => simp
  | @next id id' ids h hp ih =>
    have hne : ids ≠ [] := by
      cases hp <;> exact List.cons_ne_nil _ _
    rw [List.dropLast_cons_of_ne_nil hne]
    intro x hx
    rcases List.mem_cons.mp hx with rfl | hx
    · obtain ⟨r, hr, -⟩ := Option.bind_eq_some_iff.mp h
      rw [hr]
      rfl
    · exact ih x hx

theorem exists_bound {α : Type} (f : α → Nat) (l : List α) : ∃ b, ∀ a ∈ l, f a ≤ b := by
  induction l with
  | nil => exact ⟨0, fun a ha => nomatch ha⟩
  | cons x l ih =>
    obtain ⟨b, hb⟩ := ih
    refine ⟨max (f x) b, ?_⟩
    intro a ha
    rcases List.mem_cons.mp ha with rfl | ha
    · exact le_max_left _ _
    · exact (hb a ha).trans (le_max_right _ _)

/-- From every record there is a chain to its end. -/
theorem Chained.path (hd : Chained d) (hid : ((d.records k).find? id).isSome) :
    ∃ ids, Path d k id ids := by
  obtain ⟨rank, hr⟩ := hd.ranked
  obtain ⟨b, hb⟩ := exists_bound (fun x : Record => rank k x.id) (d.records k).rows
  have hbound : ∀ x, ((d.records k).find? x).isSome → rank k x ≤ b := by
    intro x hx
    obtain ⟨row, hrow⟩ := Option.isSome_iff_exists.mp hx
    have hkey : row.id = x := Table.find?_key hrow
    exact hkey ▸ hb row (Table.mem_of_find? hrow)
  -- by induction on how much higher the rank may grow
  generalize hn : b - rank k id = n
  induction n using Nat.strong_induction_on generalizing id with
  | _ n ih =>
    cases hnext : d.next k id with
    | none => exact ⟨[id], .last hnext⟩
    | some id' =>
      obtain ⟨r, hmem, rfl, hid'⟩ := next_reversal hnext
      have hrecord := hd.replacements k r hmem id' hid'
      have hlt := hr k r hmem id' hid'
      have hle := hbound id' hrecord
      obtain ⟨ids, hp⟩ := ih (b - rank k id') (by omega) hrecord rfl
      exact ⟨_, .next hnext hp⟩

end

/-! Every commit keeps the chains. -/

section
variable {host : Host} {d₀ d : Db} {reqs : List Request} {i : Nat} {h : History corrections}
variable {c : Commit corrections} {k : Kind} {r : Request}

theorem Chained.insertRecord (hd : Chained d) (row : Record)
    (hnew : (d.records k).find? row.id = none) : Chained ((Write.insertRecord k row).apply d) := by
  have hg := grows_insertRecord row hnew
  have hsome : ∀ k' id, ((d.records k').find? id).isSome →
      ((((Write.insertRecord k row).apply d).records k').find? id).isSome := by
    intro k' id hs
    obtain ⟨x, hx⟩ := Option.isSome_iff_exists.mp hs
    rw [hg.records k' id x hx]
    rfl
  exact ⟨hd.once, fun k' r hr => hsome _ _ (hd.targets k' r hr),
    fun k' r hr id hid => hsome _ _ (hd.replacements k' r hr id hid), hd.ranked⟩

/-- A reversal of a record not yet reversed, with a replacement nobody refers to. -/
theorem Chained.insertReversal {row : Reversal} (hd : Chained d)
    (htarget : ((d.records k).find? row.data.targetId).isSome)
    (hactive : ∀ r ∈ (d.reversals k).rows, r.data.targetId ≠ row.data.targetId)
    (hreplacement : ∀ id ∈ row.replacementId, ((d.records k).find? id).isSome ∧
      id ≠ row.data.targetId ∧
      ∀ r ∈ (d.reversals k).rows, r.data.targetId ≠ id ∧ r.replacementId ≠ some id) :
    Chained ((Write.insertReversal k row).apply d) := by
  have hrows : ∀ k', ∀ r ∈ (((Write.insertReversal k row).apply d).reversals k').rows,
      (k' = k ∧ r = row) ∨ r ∈ (d.reversals k').rows := by
    intro k' r hr
    rw [reversals_insertReversal] at hr
    split at hr
    · rename_i hk
      subst hk
      rcases Table.mem_put.mp hr with rfl | ⟨hr, -⟩
      · exact .inl ⟨rfl, rfl⟩
      · exact .inr hr
    · exact .inr hr
  refine ⟨?_, ?_, ?_, ?_⟩
  · intro k' r hr r' hr' he
    rcases hrows k' r hr with ⟨rfl, rfl⟩ | hold
    · rcases hrows k' r' hr' with ⟨-, rfl⟩ | hold'
      · rfl
      · exact absurd he.symm (hactive r' hold')
    · rcases hrows k' r' hr' with ⟨rfl, rfl⟩ | hold'
      · exact absurd he (hactive r hold)
      · exact hd.once k' r hold r' hold' he
  · intro k' r hr
    rcases hrows k' r hr with ⟨rfl, rfl⟩ | hold
    · exact htarget
    · exact hd.targets k' r hold
  · intro k' r hr id hid
    rcases hrows k' r hr with ⟨rfl, rfl⟩ | hold
    · exact (hreplacement id hid).1
    · exact hd.replacements k' r hold id hid
  · -- the replacement ranks just above what it replaces; nothing else refers to it
    obtain ⟨rank, hrank⟩ := hd.ranked
    refine ⟨fun k' x => if k' = k ∧ row.replacementId = some x then rank k row.data.targetId + 1
      else rank k' x, ?_⟩
    intro k' r hr id hid
    dsimp only
    rcases hrows k' r hr with ⟨rfl, rfl⟩ | hold
    · have hne : ¬ (k' = k' ∧ r.replacementId = some r.data.targetId) := by
        rintro ⟨-, he⟩
        exact (hreplacement _ he).2.1 rfl
      rw [if_neg hne, if_pos ⟨rfl, hid⟩]
      exact Nat.lt_succ_self _
    · have hother : ∀ x, x = r.data.targetId ∨ r.replacementId = some x →
          ¬ (k' = k ∧ row.replacementId = some x) := by
        rintro x hx ⟨rfl, he⟩
        obtain ⟨-, -, hfresh⟩ := hreplacement x he
        rcases hx with rfl | hx
        · exact (hfresh r hold).1 rfl
        · exact (hfresh r hold).2 hx
      rw [if_neg (hother _ (.inl rfl)), if_neg (hother id (.inr hid))]
      exact hrank k' r hold id hid

theorem Effect.chained {ws : List Write} {locks : Locks Key} (he : Effect host d₀ h locks r ws)
    (hd : Chained (replay (S := corrections) d₀ h)) :
    Chained (applyAll (S := corrections) (replay (S := corrections) d₀ h) ws) := by
  cases he with
  | created hnew _ => exact hd.insertRecord _ hnew
  | @reversed env k actor targetId dto original _ horiginal hactive _ hfree _ _ =>
    obtain ⟨hfind, -⟩ := Option.filter_eq_some_iff.mp horiginal
    have htarget : (((replay (S := corrections) d₀ h).records k).find? (uuid targetId)).isSome := by
      rw [hfind]
      rfl
    unfold reversalWrites
    cases hdata : dto.normalized host with
    | none =>
      refine hd.insertReversal htarget hactive ?_
      intro id hid
      change id ∈ (dto.normalized host).map _ at hid
      rw [hdata] at hid
      cases hid
    | some data =>
      have hnone := hfree data hdata
      have hg := grows_insertRecord (replacementRow host env actor (uuid dto.id) data) hnone
      have hd' := hd.insertRecord (replacementRow host env actor (uuid dto.id) data) hnone
      refine hd'.insertReversal ?_ hactive ?_
      · exact Option.isSome_iff_exists.mpr ⟨original, hg.records k _ original hfind⟩
      · intro id hid
        change id ∈ (dto.normalized host).map _ at hid
        rw [hdata] at hid
        obtain rfl : data.id = id := Option.some.inj hid
        refine ⟨?_, ?_, ?_⟩
        · rw [records_insertRecord, if_pos rfl]
          have hput := Table.find?_put_self (t := (replay (S := corrections) d₀ h).records k)
            (r := replacementRow host env actor (uuid dto.id) data)
          exact Option.isSome_iff_exists.mpr ⟨_, hput⟩
        · intro he
          have he : data.id = uuid targetId := he
          rw [he, hfind] at hnone
          cases hnone
        · -- what is referred to was there already
          intro r hr
          refine ⟨?_, ?_⟩
          · intro he
            have htargets := hd.targets k r hr
            rw [he, hnone] at htargets
            cases htargets
          · intro he
            have hreplacements := hd.replacements k r hr _ he
            rw [hnone] at hreplacements
            cases hreplacements

theorem Lawful.chained (hl : Lawful (Commits host d₀ reqs) h) (hd : Chained d₀) :
    Chained (replay (S := corrections) d₀ h) := by
  refine hl.induct d₀ Chained hd ?_
  intro h₁ c _ ih _ hc
  obtain ⟨r, -, hw | he⟩ := hc
  · rw [hw]
    exact ih
  · exact he.chained ih

end

end Bazar.Corrections
