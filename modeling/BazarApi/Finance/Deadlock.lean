import BazarApi.Finance.Inserts
import BazarApi.Finance.Simulation
import BazarApi.Txn.LockOrder

/- The lock order of agreements and payments. The rows of the one who asks are only shared.
   Then come the advisory locks, in the order of their texts, the counter of the folios, the
   agreement, its entries in the unique indexes, the participant, the payment and the
   reversals (`Key.rank`); what a foreign key locks again is held already, in a mode that
   covers it. An advisory lock is on its text: the hash of it is taken as the text itself. -/
namespace Bazar.Finance

open Txn

/-- Rows that agreements and payments only share: the account, the person and the device. -/
def Shared : Key → Prop
  | .account _ => True
  | .member _ => True
  | .device _ => True
  | _ => False

instance : DecidablePred Shared := by
  intro k
  unfold Shared
  cases k <;> infer_instance

/-- The order of everything else. -/
def Key.rank : Key → Nat
  | .advisory _ => 0
  | .counter _ _ => 1
  | .agreement _ => 2
  | .folio _ _ => 3
  | .replaces _ _ => 3
  | .participant _ _ => 4
  | .payment _ => 5
  | _ => 6

def Before (k k' : Key) : Prop :=
  k.rank < k'.rank ∨ ∃ s s', k = .advisory s ∧ k' = .advisory s' ∧ s < s'

theorem Before.trans {a b c : Key} (h : Before a b) (h' : Before b c) : Before a c := by
  rcases h with h | ⟨s, s', rfl, rfl, h⟩
  · rcases h' with h' | ⟨u, u', rfl, rfl, -⟩
    · exact .inl (h.trans h')
    · exact .inl h
  · rcases h' with h' | ⟨u, u', he, rfl, h'⟩
    · exact .inl h'
    · cases he
      exact .inr ⟨s, u', rfl, rfl, h.trans h'⟩

theorem Before.irrefl (a : Key) : ¬ Before a a := by
  rintro (h | ⟨s, s', rfl, he, h⟩)
  · exact lt_irrefl _ h
  · cases he
    exact lt_irrefl _ h

/-- A program of agreements and payments that takes its locks in order. -/
abbrev Ordered {β : Type} (Q : β → Locks Key → Prop) (x : Tx finance β) (held : Locks Key) : Prop :=
  x.InOrder (S := finance) Shared Before Q held

/-- The locks that may keep somebody waiting. -/
def kept (ls : Locks Key) : Locks Key := ls.filter fun x => ¬ Shared x.1

/-- Beside shared rows, exactly `core` is held. -/
def Holds (held core : Locks Key) : Prop := core ⊆ held ∧ ∀ y ∈ held, ¬ Shared y.1 → y ∈ core

section
variable {α β γ : Type} {held core : Locks Key} {q : Sql} {v : Db}

theorem mem_kept {ls : Locks Key} {x : Key × LockMode} : x ∈ kept ls ↔ x ∈ ls ∧ ¬ Shared x.1 := by
  unfold kept
  rw [List.mem_filter, decide_eq_true_iff]

theorem Holds.append (hh : Holds held core) (ls : Locks Key) :
    Holds (held ++ ls) (core ++ kept ls) := by
  refine ⟨?_, ?_⟩
  · intro x hx
    rcases List.mem_append.mp hx with hx | hx
    · exact List.mem_append_left _ (hh.1 hx)
    · exact List.mem_append_right _ (mem_kept.mp hx).1
  · intro y hy hn
    rcases List.mem_append.mp hy with hy | hy
    · exact List.mem_append_left _ (hh.2 y hy hn)
    · exact List.mem_append_right _ (mem_kept.mpr ⟨hy, hn⟩)

theorem Holds.ready (hh : Holds held core) {k : Key} {m : LockMode}
    (hr : Ready (S := finance) Shared Before core k m) :
    Ready (S := finance) Shared Before held k m := by
  rcases hr with ⟨m', hm, hc⟩ | hafter
  · exact .inl ⟨m', hh.1 hm, hc⟩
  · exact .inr fun y hy hn => hafter y (hh.2 y hy hn) hn

/-- After everything of a lower rank. -/
theorem ready_of_rank {k : Key} {m : LockMode} (h : ∀ y ∈ core, y.1.rank < k.rank) :
    Ready (S := finance) Shared Before core k m :=
  .inr fun y hy _ => .inl (h y hy)

theorem ready_of_held {k : Key} {m n : LockMode} (h : (k, n) ∈ core) (hc : n.Covers m) :
    Ready (S := finance) Shared Before core k m :=
  .inl ⟨n, h, hc⟩

/-! Statements that keep nobody waiting. -/

/-- It reads, or shares a row that is only shared. -/
def Sql.Mild (q : Sql) : Prop :=
  ∀ v r ws, Sql.exec q v = .ok (r, ws) →
    ∀ x ∈ taken (S := finance) q v ws, Shared x.1 ∧ x.2.writes = false

/-- Every statement of the program does. -/
def Mild : Tx finance β → Prop
  | .ret _ => True
  | .throw _ => True
  | .stmt q f => q.Mild ∧ ∀ r, Mild (f r)

theorem mild_read (r : Db → q.Res) (hx : ∀ v, Sql.exec q v = .ok (r v, []))
    (hk : ∀ v, q.locks v = []) : q.Mild := by
  intro v r' ws he x hm
  rw [hx] at he
  cases he
  change x ∈ q.locks v ++ _ at hm
  rw [hk] at hm
  cases hm

theorem mild_share {R : Type} (o : Db → Option R) (k : R → Key) (hs : ∀ a, Shared (k a))
    (hx : ∀ v r ws, Sql.exec q v = .ok (r, ws) → ws = [])
    (hk : ∀ v, q.locks v = (o v).toList.map fun a => (k a, .share)) : q.Mild := by
  intro v r ws he x hm
  change x ∈ q.locks v ++ _ at hm
  rw [hk, hx v r ws he, List.map_nil, List.append_nil] at hm
  obtain ⟨a, -, rfl⟩ := List.mem_map.mp hm
  exact ⟨hs a, rfl⟩

theorem Mild.bind {x : Tx finance β} {f : β → Tx finance γ} (hx : Mild x) (hf : ∀ b, Mild (f b)) :
    Mild (x >>= f) := by
  induction x with
  | ret b => exact hf b
  | throw e => trivial
  | stmt q k ih => exact ⟨hx.1, fun r => ih r (hx.2 r)⟩

theorem mild_query (hq : q.Mild) : Mild (query q) := ⟨hq, fun _ => trivial⟩

theorem mild_require {c : Prop} [Decidable c] {e : Err} : Mild (Tx.require c e : Tx finance Unit) := by
  unfold Tx.require
  split <;> trivial

theorem mild_orThrow {o : Option β} {e : Err} : Mild (Tx.orThrow o e : Tx finance β) := by
  cases o <;> trivial

theorem mild_ofExcept {x : Except Err β} : Mild (Tx.ofExcept x : Tx finance β) := by
  cases x <;> trivial

theorem holds_nil : Holds [] [] := ⟨List.Subset.refl _, fun _ hy _ => hy⟩

/-- Before another program, it changes nothing of what counts. -/
theorem Mild.ordered_bind {x : Tx finance β} {f : β → Tx finance γ} {Q : γ → Locks Key → Prop}
    (hx : Mild x) (hh : Holds held core)
    (hf : ∀ b held', Holds held' core → Ordered Q (f b) held') : Ordered Q (x >>= f) held := by
  induction x generalizing held with
  | ret b => exact hf b held hh
  | throw e => trivial
  | stmt q k ih =>
    intro v r ws he
    have hm := hx.1 v r ws he
    refine ⟨fun x hx => ⟨fun _ => (hm x hx).2, fun hn => absurd (hm x hx).1 hn⟩, ?_⟩
    refine ih r (hx.2 r) ?_
    have hnone : kept (taken (S := finance) q v ws) = [] := by
      refine List.filter_eq_nil_iff.mpr ?_
      intro x hx
      simpa using (hm x hx).1
    have happend := hh.append (taken (S := finance) q v ws)
    rwa [hnone, List.append_nil] at happend

/-- Alone. -/
theorem Mild.ordered {x : Tx finance β} (hx : Mild x) : Ordered (fun _ _ => True) x held := by
  have hh : Holds held held := ⟨List.Subset.refl _, fun _ hy _ => hy⟩
  have hb := hx.ordered_bind (f := .ret) (Q := fun _ _ => True) hh fun _ _ _ => trivial
  rwa [Tx.bind_ret] at hb

/-! Statements that take locks. -/

/-- What a new row refers to it locks for `KEY SHARE`. -/
theorem originLocks_mild {memberId deviceId : Uuid} {accountId : String} {x : Key × LockMode}
    (hm : x ∈ originLocks memberId accountId deviceId) : Shared x.1 ∧ x.2.writes = false := by
  simp only [originLocks, List.mem_cons, List.not_mem_nil, or_false] at hm
  rcases hm with rfl | rfl | rfl
  · exact ⟨trivial, rfl⟩
  · exact ⟨trivial, rfl⟩
  · exact ⟨trivial, rfl⟩

/-- Shared rows are asked for only to share them. -/
theorem Sql.locks_mild {x : Key × LockMode} (hm : x ∈ q.locks v) (hs : Shared x.1) :
    x.2.writes = false := by
  cases q with
  | lockAccount id contextId memberId =>
    obtain ⟨a, -, rfl⟩ := List.mem_map.mp hm
    rfl
  | lockMember id contextId =>
    obtain ⟨a, -, rfl⟩ := List.mem_map.mp hm
    rfl
  | lockDevice id contextId =>
    obtain ⟨a, -, rfl⟩ := List.mem_map.mp hm
    rfl
  | advisoryLock text =>
    obtain rfl := List.mem_singleton.mp hm
    exact hs.elim
  | createAgreement row =>
    rcases List.mem_append.mp hm with hm | hm
    · obtain ⟨a, -, rfl⟩ := List.mem_map.mp hm
      exact hs.elim
    · exact (originLocks_mild hm).2
  | createParticipants rows =>
    obtain ⟨p, -, hm⟩ := List.mem_flatMap.mp hm
    simp only [List.mem_cons, List.not_mem_nil, or_false] at hm
    rcases hm with rfl | rfl
    · exact hs.elim
    · rfl
  | lockAgreement id contextId =>
    obtain ⟨a, -, rfl⟩ := List.mem_map.mp hm
    exact hs.elim
  | shareAgreement id contextId =>
    obtain ⟨a, -, rfl⟩ := List.mem_map.mp hm
    exact hs.elim
  | createAgreementReversal row =>
    rcases List.mem_cons.mp hm with rfl | hm
    · exact hs.elim
    · exact (originLocks_mild hm).2
  | lockParticipant agreementId memberId contextId =>
    obtain ⟨a, -, rfl⟩ := List.mem_map.mp hm
    exact hs.elim
  | createPayment row =>
    rcases List.mem_append.mp hm with hm | hm
    · simp only [List.mem_cons, List.not_mem_nil, or_false] at hm
      rcases hm with rfl | rfl
      · exact hs.elim
      · exact hs.elim
    · exact (originLocks_mild hm).2
  | lockPayment id contextId =>
    obtain ⟨a, -, rfl⟩ := List.mem_map.mp hm
    exact hs.elim
  | createPaymentReversal row =>
    rcases List.mem_cons.mp hm with rfl | hm
    · exact hs.elim
    · exact (originLocks_mild hm).2
  | _ => cases hm

/-! What the inserts write, in the order of the locks. -/

theorem entries_rank {row : DistributionAgreement} {w : Write} (hw : w ∈ row.entries) :
    w.key.rank = 3 := by
  rcases List.mem_cons.mp hw with rfl | hw
  · rfl
  · obtain ⟨id, -, rfl⟩ := List.mem_map.mp hw
    rfl

theorem not_shared_of_rank {k : Key} (h : k.rank < 6) : ¬ Shared k := by
  intro hs
  cases k with
  | account id => exact absurd h (lt_irrefl 6)
  | member id => exact absurd h (lt_irrefl 6)
  | device id => exact absurd h (lt_irrefl 6)
  | _ => exact hs.elim

/-- Nothing but a record of the books writes a shared row. -/
theorem Sql.writes_mild {r : q.Res} {ws : List Write} (hq : ∀ w, q ≠ .record w)
    (hx : Sql.exec q v = .ok (r, ws)) {w : Write} (hw : w ∈ ws) : ¬ Shared w.key := by
  cases q with
  | record b => exact absurd rfl (hq b)
  | nextNumber contextId year =>
    obtain ⟨y, rfl⟩ := advanceCounter_writes hx
    obtain rfl := List.mem_singleton.mp hw
    exact id
  | createAgreement row =>
    rw [insertAgreement_writes hx] at hw
    rcases List.mem_cons.mp hw with rfl | hw
    · exact id
    · exact not_shared_of_rank (by rw [entries_rank hw]; decide)
  | createParticipants rows =>
    rw [insertParticipants_writes hx] at hw
    obtain ⟨p, -, rfl⟩ := List.mem_map.mp hw
    exact id
  | createAgreementReversal row =>
    rw [insertAgreementReversal_writes hx] at hw
    simp only [List.mem_cons, List.not_mem_nil, or_false] at hw
    rcases hw with rfl | rfl <;> exact id
  | createPayment row =>
    rw [insertPayment_writes hx] at hw
    obtain rfl := List.mem_singleton.mp hw
    exact id
  | createPaymentReversal row =>
    rw [insertPaymentReversal_writes hx] at hw
    simp only [List.mem_cons, List.not_mem_nil, or_false] at hw
    rcases hw with rfl | rfl <;> exact id
  | _ =>
    cases hx
    cases hw

/-- What a statement of an agreement or a payment takes on a shared row it only shares. -/
theorem Sql.shares {r : q.Res} {ws : List Write} (hq : ∀ w, q ≠ .record w)
    (hx : Sql.exec q v = .ok (r, ws)) {x : Key × LockMode}
    (hm : x ∈ taken (S := finance) q v ws) (hs : Shared x.1) : x.2.writes = false := by
  rcases List.mem_append.mp hm with hm | hm
  · exact Sql.locks_mild hm hs
  · obtain ⟨w, hw, rfl⟩ := List.mem_map.mp hm
    exact absurd hs (Sql.writes_mild hq hx hw)

/-- A statement whose locks are ready, before the rest. -/
theorem ordered_query_bind {f : q.Res → Tx finance β} {Q : β → Locks Key → Prop}
    (hh : Holds held core) (hq : ∀ w, q ≠ .record w)
    (hs : ∀ v r ws, Sql.exec q v = .ok (r, ws) →
      (∀ x ∈ kept (taken (S := finance) q v ws),
        Ready (S := finance) Shared Before core x.1 x.2) ∧
      ∀ held', Holds held' (core ++ kept (taken (S := finance) q v ws)) → Ordered Q (f r) held') :
    Ordered Q (query q >>= f) held := by
  intro v r ws hx
  obtain ⟨hready, hf⟩ := hs v r ws hx
  refine ⟨?_, hf _ (hh.append _)⟩
  intro x hm
  exact ⟨fun h => Sql.shares hq hx hm h, fun hn => hh.ready (hready x (mem_kept.mpr ⟨hm, hn⟩))⟩

/-! Programs that keep nobody waiting. -/

theorem authorize_mild {actor : Actor} {sel : Selection} : Mild (authorize actor sel) := by
  refine Mild.bind (mild_query ?_) fun _ => Mild.bind (mild_query ?_) fun _ =>
    Mild.bind (mild_query ?_) fun _ => Mild.bind mild_require fun _ => mild_orThrow
  · refine mild_share (findAccount _ _ _) (fun a => .account a.id) (fun _ => trivial) ?_ fun _ => rfl
    intro v r ws hx
    cases hx
    rfl
  · refine mild_share (findSocio _ _) (fun m => .member m.id) (fun _ => trivial) ?_ fun _ => rfl
    intro v r ws hx
    cases hx
    rfl
  · refine mild_share (findDevice _ _) (fun x => .device x.id) (fun _ => trivial) ?_ fun _ => rfl
    intro v r ws hx
    cases hx
    rfl

/-- A statement that reads, sent. -/
theorem read_mild (r : Db → q.Res) (hx : ∀ v, Sql.exec q v = .ok (r v, []))
    (hk : ∀ v, q.locks v = []) : Mild (query q) := mild_query (mild_read r hx hk)

theorem simulateInTx_mild {host : Host} {contextId : String} {dto : FinanceDistributionSimulationDto} :
    Mild (simulateInTx host contextId dto) := by
  refine Mild.bind ?_ fun _ => Mild.bind mild_require fun _ =>
    Mild.bind (read_mild _ (fun _ => rfl) fun _ => rfl) fun _ =>
    Mild.bind (read_mild _ (fun _ => rfl) fun _ => rfl) fun _ =>
    Mild.bind mild_ofExcept fun _ =>
    Mild.bind (read_mild _ (fun _ => rfl) fun _ => rfl) fun _ => mild_ofExcept
  -- the books
  exact Mild.bind (read_mild _ (fun _ => rfl) fun _ => rfl) fun _ =>
    Mild.bind (read_mild _ (fun _ => rfl) fun _ => rfl) fun _ =>
    Mild.bind (read_mild _ (fun _ => rfl) fun _ => rfl) fun _ =>
    Mild.bind (read_mild _ (fun _ => rfl) fun _ => rfl) fun _ =>
    Mild.bind (read_mild _ (fun _ => rfl) fun _ => rfl) fun _ => mild_ofExcept

theorem loadPaymentSummary_mild {contextId : String} {agreementId : Uuid} :
    Mild (loadPaymentSummary contextId agreementId) :=
  Mild.bind (read_mild _ (fun _ => rfl) fun _ => rfl) fun _ => mild_ofExcept

theorem paymentReceipt_mild {row : LivePayment} : Mild (paymentReceipt row) :=
  Mild.bind loadPaymentSummary_mild fun _ => trivial

theorem replacedAgreement_mild {contextId : String} {newId : Uuid} {replacesId : Option Uuid} :
    Mild (replacedAgreement contextId newId replacesId) := by
  cases replacesId with
  | none => trivial
  | some id =>
    refine Mild.bind ?_ fun _ => trivial
    unfold validateReplacement
    dsimp only
    split
    · exact Mild.bind (x := .ret none) trivial fun _ =>
        Mild.bind mild_orThrow fun _ => Mild.bind mild_require fun _ => trivial
    · exact Mild.bind (read_mild _ (fun _ => rfl) fun _ => rfl) fun _ =>
        Mild.bind mild_orThrow fun _ => Mild.bind mild_require fun _ => trivial

/-! Programs that take locks. -/

variable {host : Host} {env : Env} {actor : Actor} {sel : Selection} {Q : β → Locks Key → Prop}

/-- A row that is locked when it is found is ready to be locked again. -/
theorem ready_append {ls : Locks Key} {k : Key} {m : LockMode} (hls : ∀ x ∈ ls, x = (k, .update))
    (hr : ∀ y ∈ core, y.1.rank < k.rank) :
    Ready (S := finance) Shared Before (core ++ ls) k m := by
  cases ls with
  | nil =>
    rw [List.append_nil]
    exact ready_of_rank hr
  | cons x ls =>
    obtain rfl := hls x List.mem_cons_self
    exact ready_of_held (List.mem_append_right _ List.mem_cons_self) (LockMode.update_covers _)

/-- The first advisory lock. -/
theorem advisory_ordered {text : String} {f : Unit → Tx finance β} (hh : Holds held [])
    (hf : ∀ held', Holds held' [(.advisory text, .update)] → Ordered Q (f ()) held') :
    Ordered Q (query (.advisoryLock text) >>= f) held := by
  refine ordered_query_bind hh (fun w h => by cases h) ?_
  intro v r ws hx
  cases hx
  exact ⟨fun x _ => ready_of_rank (by simp), hf⟩

/-- The locks of an insert of an agreement: agreements, and entries of indexes. -/
theorem createAgreement_rank {row : DistributionAgreement} {u : Unit} {ws : List Write}
    (hx : Sql.exec (.createAgreement row) v = .ok (u, ws)) {x : Key × LockMode}
    (hm : x ∈ kept (taken (S := finance) (.createAgreement row) v ws)) :
    1 < x.1.rank ∧ x.1.rank < 4 := by
  obtain ⟨hm, hn⟩ := mem_kept.mp hm
  rcases List.mem_append.mp hm with hm | hm
  · rcases List.mem_append.mp hm with hm | hm
    · obtain ⟨id, -, rfl⟩ := List.mem_map.mp hm
      change 1 < 2 ∧ 2 < 4
      decide
    · exact absurd (originLocks_mild hm).1 hn
  · rw [insertAgreement_writes hx] at hm
    obtain ⟨w, hw, rfl⟩ := List.mem_map.mp hm
    rcases List.mem_cons.mp hw with rfl | hw
    · change 1 < 2 ∧ 2 < 4
      decide
    · change 1 < w.key.rank ∧ w.key.rank < 4
      rw [entries_rank hw]
      decide

/-- A creation: the counter, the agreement, its entries and its participants. -/
theorem createNew_ordered {dto : CreateDistributionAgreementDto} {memberName text : String}
    {attempt : Nat} (hh : Holds held [(.advisory text, .update)]) :
    Ordered (fun _ _ => True) (createNew host env actor dto memberName attempt) held := by
  refine replacedAgreement_mild.ordered_bind hh ?_
  intro replaces held₁ hh₁
  refine simulateInTx_mild.ordered_bind hh₁ ?_
  intro simulation held₂ hh₂
  refine Tx.InOrder.require fun _ => ?_
  refine (read_mild _ (fun _ => rfl) fun _ => rfl).ordered_bind hh₂ ?_
  intro committed held₃ hh₃
  refine Tx.InOrder.require fun _ => ?_
  refine ordered_query_bind hh₃ (fun w h => by cases h) ?_
  intro v number ws hx
  obtain ⟨year, rfl⟩ := advanceCounter_writes hx
  refine ⟨?_, ?_⟩
  · intro x hm
    obtain rfl := List.mem_singleton.mp hm
    refine ready_of_rank ?_
    intro y hy
    obtain rfl := List.mem_singleton.mp hy
    exact Nat.zero_lt_one
  intro held₄ hh₄
  have hcounter : ∀ y ∈ [((.advisory text, .update) : Key × LockMode)] ++
      kept (taken (S := finance) (.nextNumber actor.account.contextId (folioYear (env.now attempt))) v
        [.putCounter ⟨actor.account.contextId, year, number⟩]), y.1.rank < 2 := by
    intro y hy
    rcases List.mem_append.mp hy with hy | hy
    · obtain rfl := List.mem_singleton.mp hy
      exact Nat.zero_lt_two
    · obtain rfl := List.mem_singleton.mp hy
      exact Nat.lt_succ_self 1
  refine ordered_query_bind hh₄ (fun w h => by cases h) ?_
  intro v₅ u ws₅ hx₅
  refine ⟨fun x hm => ready_of_rank fun y hy =>
    (hcounter y hy).trans_le (createAgreement_rank hx₅ hm).1, ?_⟩
  intro held₅ hh₅
  refine ordered_query_bind hh₅ (fun w h => by cases h) ?_
  intro v₆ u₆ ws₆ hx₆
  refine ⟨?_, fun _ _ => trivial⟩
  rw [insertParticipants_writes hx₆]
  intro x hm
  obtain ⟨hm, hn⟩ := mem_kept.mp hm
  rcases List.mem_append.mp hm with hm | hm
  · -- the agreement is the one just written
    obtain ⟨p, hp, hm⟩ := List.mem_flatMap.mp hm
    obtain ⟨m, -, rfl⟩ := List.mem_map.mp hp
    simp only [List.mem_cons, List.not_mem_nil, or_false] at hm
    rcases hm with rfl | rfl
    · refine ready_of_held (n := .update) (List.mem_append_right _ (mem_kept.mpr ⟨?_, id⟩))
        (LockMode.update_covers _)
      rw [insertAgreement_writes hx₅]
      exact List.mem_append_right _ List.mem_cons_self
    · exact absurd trivial hn
  · obtain ⟨w, hw, rfl⟩ := List.mem_map.mp hm
    obtain ⟨p, -, rfl⟩ := List.mem_map.mp hw
    refine ready_of_rank ?_
    intro y hy
    change y.1.rank < 4
    rcases List.mem_append.mp hy with hy | hy
    · exact (hcounter y hy).trans (by decide)
    · exact (createAgreement_rank hx₅ hy).2

theorem createInTx_ordered {dto : CreateDistributionAgreementDto} {attempt : Nat} :
    Ordered (fun _ _ => True) (createInTx host env actor sel dto attempt) [] := by
  refine authorize_mild.ordered_bind holds_nil ?_
  intro memberName held₁ hh₁
  refine advisory_ordered hh₁ ?_
  intro held₂ hh₂
  refine (read_mild _ (fun _ => rfl) fun _ => rfl).ordered_bind hh₂ ?_
  intro existing held₃ hh₃
  cases existing with
  | some existing => exact Tx.InOrder.require fun _ => trivial
  | none => exact createNew_ordered hh₃

/-- A voiding: the agreement and its reversal. -/
theorem reverseNew_ordered {dto : ReverseDistributionAgreementDto} {id targetId : Uuid}
    (hh : Holds held core) (hcore : ∀ y ∈ core, y.1.rank < 2) :
    Ordered (fun _ _ => True) (reverseNew host env actor dto id targetId) held := by
  refine ordered_query_bind hh (fun w h => by cases h) ?_
  intro v locked ws hx
  cases hx
  have hlocks : ∀ x ∈ kept (taken (S := finance) (.lockAgreement targetId actor.account.contextId) v
      []), x = (.agreement targetId, .update) := by
    intro x hm
    rcases List.mem_append.mp (mem_kept.mp hm).1 with hm | hm
    · obtain ⟨a, ha, rfl⟩ := List.mem_map.mp hm
      obtain ⟨hfind, -⟩ := Option.filter_eq_some_iff.mp (Option.mem_toList.mp ha)
      rw [show a.id = targetId from Table.find?_key hfind]
    · cases hm
  refine ⟨?_, ?_⟩
  · intro x hm
    rw [hlocks x hm]
    exact ready_of_rank hcore
  intro held₁ hh₁
  refine Tx.InOrder.require fun _ => ?_
  refine (read_mild _ (fun _ => rfl) fun _ => rfl).ordered_bind hh₁ ?_
  intro original held₂ hh₂
  refine Tx.InOrder.orThrow fun _ _ => Tx.InOrder.require fun _ => Tx.InOrder.require fun _ => ?_
  refine ordered_query_bind hh₂ (fun w h => by cases h) ?_
  intro v₃ u ws₃ hx₃
  refine ⟨?_, fun _ _ => trivial⟩
  rw [insertAgreementReversal_writes hx₃]
  intro x hm
  obtain ⟨hm, hn⟩ := mem_kept.mp hm
  rcases List.mem_append.mp hm with hm | hm
  · rcases List.mem_cons.mp hm with rfl | hm
    · exact ready_append hlocks hcore
    · exact absurd (originLocks_mild hm).1 hn
  · refine ready_of_rank ?_
    intro y hy
    have hlow : y.1.rank < 6 := by
      rcases List.mem_append.mp hy with hy | hy
      · exact (hcore y hy).trans (by decide)
      · rw [hlocks y hy]
        exact (by decide : 2 < 6)
    simp only [List.map_cons, List.map_nil, List.mem_cons, List.not_mem_nil, or_false] at hm
    rcases hm with rfl | rfl <;> exact hlow

theorem agreementIdentity_lt {contextId : String} {a b : Uuid} (h : a < b) :
    agreementIdentity contextId a < agreementIdentity contextId b := by
  have h : a.text < b.text := h
  unfold agreementIdentity
  rw [String.lt_iff_toList_lt] at h ⊢
  simp only [String.toList_append]
  exact List.append_left_lt h

theorem reverseInTx_ordered {dto : ReverseDistributionAgreementDto} {id targetId : Uuid}
    (hne : id ≠ targetId) :
    Ordered (fun _ _ => True) (reverseInTx host env actor sel dto id targetId) [] := by
  refine authorize_mild.ordered_bind holds_nil ?_
  intro memberName held₁ hh₁
  refine advisory_ordered hh₁ ?_
  intro held₂ hh₂
  -- the second text comes after the first
  refine ordered_query_bind hh₂ (fun w h => by cases h) ?_
  intro v u ws hx
  cases hx
  refine ⟨?_, ?_⟩
  · intro x hm
    obtain rfl := List.mem_singleton.mp hm
    refine .inr fun y hy _ => ?_
    obtain rfl := List.mem_singleton.mp hy
    exact .inr ⟨_, _, rfl, rfl, agreementIdentity_lt (min_lt_max.mpr hne)⟩
  intro held₃ hh₃
  refine (read_mild _ (fun _ => rfl) fun _ => rfl).ordered_bind hh₃ ?_
  intro existing held₄ hh₄
  cases existing with
  | some existing => exact Tx.InOrder.require fun _ => trivial
  | none =>
    refine reverseNew_ordered hh₄ ?_
    intro y hy
    rcases List.mem_append.mp hy with hy | hy <;> obtain rfl := List.mem_singleton.mp hy <;>
      exact Nat.zero_lt_two

/-- The participant's row is the one asked for. -/
theorem lockParticipant_locks {agreementId memberId : Uuid} {contextId : String}
    {x : Key × LockMode}
    (hm : x ∈ kept (taken (S := finance) (.lockParticipant agreementId memberId contextId) v [])) :
    x = (.participant agreementId memberId, .update) := by
  rcases List.mem_append.mp (mem_kept.mp hm).1 with hm | hm
  · obtain ⟨p, hp, rfl⟩ := List.mem_map.mp hm
    obtain ⟨hfind, -⟩ := Option.filter_eq_some_iff.mp (Option.mem_toList.mp hp)
    have hkey : (p.agreementId, p.memberId) = (agreementId, memberId) := Table.find?_key hfind
    obtain ⟨ha, hb⟩ := Prod.mk.inj hkey
    rw [ha, hb]
  · cases hm

theorem lockPayment_locks {id : Uuid} {contextId : String} {x : Key × LockMode}
    (hm : x ∈ kept (taken (S := finance) (.lockPayment id contextId) v [])) :
    x = (.payment id, .update) := by
  rcases List.mem_append.mp (mem_kept.mp hm).1 with hm | hm
  · obtain ⟨p, hp, rfl⟩ := List.mem_map.mp hm
    obtain ⟨hfind, -⟩ := Option.filter_eq_some_iff.mp (Option.mem_toList.mp hp)
    rw [show p.id = id from Table.find?_key hfind]
  · cases hm

/-- A payment: the agreement shared, the participant and the payment. -/
theorem payNew_ordered {agreementId : Uuid} {dto : CreateDistributionPaymentDto}
    {memberName text : String} (hh : Holds held [(.advisory text, .update)]) :
    Ordered (fun _ _ => True) (payNew host env actor agreementId dto memberName) held := by
  refine ordered_query_bind hh (fun w h => by cases h) ?_
  intro v agreement ws hx
  cases hx
  have htext : ∀ y ∈ [((.advisory text, .update) : Key × LockMode)], y.1.rank < 2 := by
    intro y hy
    obtain rfl := List.mem_singleton.mp hy
    exact Nat.zero_lt_two
  cases hfound : v.findAgreement agreementId actor.account.contextId with
  | none =>
    refine ⟨?_, fun _ _ => trivial⟩
    intro x hm
    have hm := (mem_kept.mp hm).1
    change x ∈ (v.findAgreement _ _).toList.map _ ++ [] at hm
    rw [hfound] at hm
    cases hm
  | some a =>
    obtain ⟨hfind, -⟩ := Option.filter_eq_some_iff.mp hfound
    have hkept : kept (taken (S := finance) (.shareAgreement agreementId actor.account.contextId) v
        []) = [(.agreement agreementId, .share)] := by
      change kept ((v.findAgreement _ _).toList.map _ ++ []) = _
      rw [hfound, ← show a.id = agreementId from Table.find?_key hfind]
      rfl
    rw [hkept]
    refine ⟨?_, ?_⟩
    · intro x hm
      obtain rfl := List.mem_singleton.mp hm
      exact ready_of_rank htext
    intro held₁ hh₁
    have hlow : ∀ y ∈ [((.advisory text, .update) : Key × LockMode)] ++
        [(.agreement agreementId, .share)], y.1.rank < 4 := by
      intro y hy
      rcases List.mem_append.mp hy with hy | hy
      · exact (htext y hy).trans (by decide)
      · obtain rfl := List.mem_singleton.mp hy
        exact (by decide : 2 < 4)
    refine (read_mild _ (fun _ => rfl) fun _ => rfl).ordered_bind hh₁ ?_
    intro voided held₂ hh₂
    refine Tx.InOrder.require fun _ => ?_
    refine (read_mild _ (fun _ => rfl) fun _ => rfl).ordered_bind hh₂ ?_
    intro participant held₃ hh₃
    refine Tx.InOrder.orThrow fun participant _ => Tx.InOrder.require fun _ => ?_
    refine ordered_query_bind hh₃ (fun w h => by cases h) ?_
    intro v₄ u ws₄ hx₄
    cases hx₄
    refine ⟨?_, ?_⟩
    · intro x hm
      rw [lockParticipant_locks hm]
      exact ready_of_rank hlow
    intro held₄ hh₄
    refine Tx.InOrder.require fun _ => ?_
    refine (read_mild _ (fun _ => rfl) fun _ => rfl).ordered_bind hh₄ ?_
    intro paid held₅ hh₅
    refine Tx.InOrder.require fun _ => ?_
    refine ordered_query_bind hh₅ (fun w h => by cases h) ?_
    intro v₆ u₆ ws₆ hx₆
    refine ⟨?_, fun _ _ => Mild.ordered (Mild.bind loadPaymentSummary_mild fun _ => trivial)⟩
    rw [insertPayment_writes hx₆]
    intro x hm
    obtain ⟨hm, hn⟩ := mem_kept.mp hm
    rcases List.mem_append.mp hm with hm | hm
    · rcases List.mem_append.mp hm with hm | hm
      · simp only [List.mem_cons, List.not_mem_nil, or_false] at hm
        rcases hm with rfl | rfl
        · exact ready_of_held (n := .share)
            (List.mem_append_left _ (List.mem_append_right _ List.mem_cons_self))
            LockMode.share_covers_keyShare
        · exact ready_append (fun _ => lockParticipant_locks) hlow
      · exact absurd (originLocks_mild hm).1 hn
    · obtain rfl := List.mem_singleton.mp hm
      refine ready_of_rank ?_
      intro y hy
      rcases List.mem_append.mp hy with hy | hy
      · exact (hlow y hy).trans (by exact (by decide : 4 < 5))
      · rw [lockParticipant_locks hy]
        exact (by decide : 4 < 5)

theorem createPaymentInTx_ordered {agreementId : Uuid} {dto : CreateDistributionPaymentDto} :
    Ordered (fun _ _ => True) (createPaymentInTx host env actor sel agreementId dto) [] := by
  refine authorize_mild.ordered_bind holds_nil ?_
  intro memberName held₁ hh₁
  refine advisory_ordered hh₁ ?_
  intro held₂ hh₂
  refine (read_mild _ (fun _ => rfl) fun _ => rfl).ordered_bind hh₂ ?_
  intro existing held₃ hh₃
  cases existing with
  | some existing =>
    exact Tx.InOrder.require fun _ => Mild.ordered (Mild.bind paymentReceipt_mild fun _ => trivial)
  | none => exact payNew_ordered hh₃

/-- A reversal of a payment: the participant, the payment and its reversal. -/
theorem unpayNew_ordered {paymentId : Uuid} {dto : ReverseDistributionPaymentDto}
    {memberName text : String} (hh : Holds held [(.advisory text, .update)]) :
    Ordered (fun _ _ => True) (unpayNew host env actor paymentId dto memberName) held := by
  have htext : ∀ y ∈ [((.advisory text, .update) : Key × LockMode)], y.1.rank < 4 := by
    intro y hy
    obtain rfl := List.mem_singleton.mp hy
    exact (by decide : 0 < 4)
  refine (read_mild _ (fun _ => rfl) fun _ => rfl).ordered_bind hh ?_
  intro target held₁ hh₁
  refine Tx.InOrder.orThrow fun target _ => ?_
  refine ordered_query_bind hh₁ (fun w h => by cases h) ?_
  intro v₂ u₂ ws₂ hx₂
  cases hx₂
  refine ⟨?_, ?_⟩
  · intro x hm
    rw [lockParticipant_locks hm]
    exact ready_of_rank htext
  intro held₂ hh₂
  have hlow : ∀ y ∈ [((.advisory text, .update) : Key × LockMode)] ++
      kept (taken (S := finance) (.lockParticipant target.payment.agreementId
        target.payment.participantMemberId actor.account.contextId) v₂ []), y.1.rank < 5 := by
    intro y hy
    rcases List.mem_append.mp hy with hy | hy
    · exact (htext y hy).trans (by decide)
    · rw [lockParticipant_locks hy]
      exact (by decide : 4 < 5)
  refine ordered_query_bind hh₂ (fun w h => by cases h) ?_
  intro v₃ u₃ ws₃ hx₃
  cases hx₃
  refine ⟨?_, ?_⟩
  · intro x hm
    rw [lockPayment_locks hm]
    exact ready_of_rank hlow
  intro held₃ hh₃
  refine (read_mild _ (fun _ => rfl) fun _ => rfl).ordered_bind hh₃ ?_
  intro already held₄ hh₄
  refine Tx.InOrder.require fun _ => Tx.InOrder.require fun _ => ?_
  refine ordered_query_bind hh₄ (fun w h => by cases h) ?_
  intro v₅ u₅ ws₅ hx₅
  refine ⟨?_, fun _ _ => Mild.ordered (Mild.bind (read_mild _ (fun _ => rfl) fun _ => rfl) fun _ =>
    Mild.bind mild_orThrow fun _ => Mild.bind paymentReceipt_mild fun _ => trivial)⟩
  rw [insertPaymentReversal_writes hx₅]
  intro x hm
  obtain ⟨hm, hn⟩ := mem_kept.mp hm
  rcases List.mem_append.mp hm with hm | hm
  · rcases List.mem_cons.mp hm with rfl | hm
    · exact ready_append (fun _ => lockPayment_locks) hlow
    · exact absurd (originLocks_mild hm).1 hn
  · refine ready_of_rank ?_
    intro y hy
    have hrank : y.1.rank < 6 := by
      rcases List.mem_append.mp hy with hy | hy
      · exact (hlow y hy).trans (by decide)
      · rw [lockPayment_locks hy]
        exact (by decide : 5 < 6)
    simp only [List.map_cons, List.map_nil, List.mem_cons, List.not_mem_nil, or_false] at hm
    rcases hm with rfl | rfl <;> exact hrank

theorem reversePaymentInTx_ordered {paymentId : Uuid} {dto : ReverseDistributionPaymentDto} :
    Ordered (fun _ _ => True) (reversePaymentInTx host env actor sel paymentId dto) [] := by
  refine authorize_mild.ordered_bind holds_nil ?_
  intro memberName held₁ hh₁
  refine advisory_ordered hh₁ ?_
  intro held₂ hh₂
  refine (read_mild _ (fun _ => rfl) fun _ => rfl).ordered_bind hh₂ ?_
  intro existing held₃ hh₃
  cases existing with
  | some existing =>
    exact Tx.InOrder.require fun _ => Mild.ordered (Mild.bind (read_mild _ (fun _ => rfl)
      fun _ => rfl) fun _ => Mild.bind mild_orThrow fun _ => Mild.bind paymentReceipt_mild
      fun _ => trivial)
  | none => exact unpayNew_ordered hh₃

end

/-! Requests. -/

/-- It records the books, people or devices. -/
def Request.Records : Request → Prop
  | .record _ => True
  | _ => False

theorem runWithRetry_inOrder {α : Type} {unit : Nat → Tx finance α}
    (hu : ∀ attempt, Ordered (fun _ _ => True) (unit attempt) []) (attempts attempt : Nat)
    (last : Err) :
    (runWithRetry unit attempts attempt last).InOrder (S := finance) Shared Before := by
  induction attempts generalizing attempt last with
  | zero => trivial
  | succ attempts ih =>
    refine ⟨hu attempt, ?_⟩
    intro r
    cases r with
    | ok a => trivial
    | error e =>
      dsimp only
      split
      · exact ih _ _
      · trivial

/-- A request of one transaction that keeps nobody waiting. -/
theorem mild_transaction {α : Type} {body : Tx finance α} (hb : Mild body) :
    (Call.transaction .readCommitted body).InOrder (S := finance) Shared Before := by
  refine ⟨hb.ordered, ?_⟩
  intro r
  cases r <;> trivial

/-- Every request but a record takes its locks in order. -/
theorem Request.inOrder {host : Host} {r : Request} (hr : ¬ r.Records) :
    (r.call host).InOrder (S := finance) Shared Before := by
  cases r with
  | record writes => exact absurd trivial hr
  | createAgreement env actor dto =>
    exact Call.InOrder.map (Call.InOrder.ofExcept fun _ _ =>
      runWithRetry_inOrder (fun _ => createInTx_ordered) _ _ _)
  | reverseAgreement env actor agreementId dto =>
    refine Call.InOrder.map (Call.InOrder.ofExcept fun _ _ => Call.InOrder.require fun hne => ?_)
    refine ⟨reverseInTx_ordered hne, ?_⟩
    intro r
    cases r <;> trivial
  | findAgreement contextId id =>
    exact Call.InOrder.map (mild_transaction (Mild.bind (read_mild _ (fun _ => rfl) fun _ => rfl)
      fun _ => Mild.bind mild_orThrow fun _ => Mild.bind loadPaymentSummary_mild fun _ => trivial))
  | createPayment env actor agreementId dto =>
    refine Call.InOrder.map (Call.InOrder.ofExcept fun _ _ => ⟨createPaymentInTx_ordered, ?_⟩)
    intro r
    cases r <;> trivial
  | reversePayment env actor paymentId dto =>
    refine Call.InOrder.map (Call.InOrder.ofExcept fun _ _ => ⟨reversePaymentInTx_ordered, ?_⟩)
    intro r
    cases r <;> trivial
  | findPayment contextId id =>
    exact Call.InOrder.map (mild_transaction (Mild.bind (read_mild _ (fun _ => rfl) fun _ => rfl)
      fun _ => Mild.bind mild_orThrow fun _ => trivial))
  | listPayments contextId agreementId =>
    exact Call.InOrder.map (mild_transaction (Mild.bind (read_mild _ (fun _ => rfl) fun _ => rfl)
      fun _ => Mild.bind mild_orThrow fun _ => Mild.bind (read_mild _ (fun _ => rfl) fun _ => rfl)
      fun _ => Mild.bind loadPaymentSummary_mild fun _ => trivial))

/-- Agreements and payments never wait for each other in a circle, whatever they are about. -/
theorem waits_acyclic (host : Host) (d₀ : Db) (reqs : List Request) (s : Sys finance Answer)
    (hreqs : ∀ r ∈ reqs, ¬ r.Records) (hr : Reachable host d₀ reqs s) :
    ¬ s.Deadlocked (S := finance) d₀ fun _ => True := by
  have htrans : ∀ a b c : Key, Before a b → Before b c → Before a c := fun _ _ _ => Before.trans
  have horder : ∀ p ∈ s.procs, p.InOrder (S := finance) Shared Before := by
    refine Sys.Reach.inOrder hr ?_
    intro p hp
    obtain ⟨c, hc, rfl⟩ := List.mem_map.mp hp
    obtain ⟨r, hm, rfl⟩ := List.mem_map.mp hc
    exact Request.inOrder (hreqs r hm)
  exact Sys.no_deadlock_of_order (S := finance) htrans Before.irrefl hr.apart horder

/-! Two reversals that name each other's ids, for a concrete run. -/

namespace Demo

def account : Team.Account :=
  { id := ⟨"login"⟩, username := "a", passwordHash := "", contextId := "c", active := true
    memberId := some ⟨"a"⟩ }

def device : Team.Device :=
  { id := ⟨"caja"⟩, name := "caja", identifier := "caja", contextId := "c", authorized := true
    createdAt := 0, status := .activo, tokenHash := none, activatedAt := none, revokedAt := none }

def office : Db := { db with accounts := ⟨[account], by decide⟩, devices := ⟨[device], by decide⟩ }

def actor : Actor :=
  { account := { id := "login", contextId := "c" }
    selection := some { memberId := "a", deviceId := "caja" } }

def reversal (id : String) : ReverseDistributionAgreementDto :=
  { id, reason := "", occurredAt := 0, createdByMemberId := "a", deviceId := "caja" }

def env : Env := { serverId := fun _ => ⟨""⟩, now := fun _ => 0 }

def crossed : List Request :=
  [.reverseAgreement env actor "y" (reversal "x"), .reverseAgreement env actor "x" (reversal "y")]

def crossedSteps : List Nat := List.replicate 5 0 ++ List.replicate 4 1

/-- The state after the requests took the steps of a schedule. -/
def run (d : Db) (reqs : List Request) (steps : List Nat) : Sys finance Answer :=
  (Sys.initial (reqs.map (Request.call host))).scheduled d steps

theorem reachable {d : Db} {reqs : List Request} {steps : List Nat}
    (h : ((Sys.initial (reqs.map (Request.call host))).schedule (S := finance) d steps).isSome =
      true) : Reachable host d reqs (run d reqs steps) :=
  Sys.scheduled_reach h

end Demo

/-- The second waits for the first, and the first for nobody. -/
theorem waits_acyclic_crossed :
    (Demo.run Demo.office Demo.crossed Demo.crossedSteps).Waits (S := finance) Demo.office
        (fun _ => True) 1 0 ∧
      ¬ (Demo.run Demo.office Demo.crossed Demo.crossedSteps).Deadlocked (S := finance)
        Demo.office fun _ => True := by
  refine ⟨by decide, waits_acyclic Demo.host Demo.office Demo.crossed _ ?_
    (Demo.reachable (by decide))⟩
  intro r hr
  simp only [Demo.crossed, List.mem_cons, List.not_mem_nil, or_false] at hr
  rcases hr with rfl | rfl <;> exact id

end Bazar.Finance
