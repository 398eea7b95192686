import Mathlib.Data.String.Basic
import BazarApi.Sql.Order
import BazarApi.Team.Model

/- The backfill of the migration `one_account_per_person`, which ties the shared login of a
   business to its founding socio. `plan` is what the temporary table holds and `backfill` the
   update that reads it, one row after the other in any order, each under the unique index on
   `Account.memberId`. Which login is tied to whom is `Founds`, stated without sorting; the plan
   is exactly that (`mem_plan_iff`), so no two of its rows share a login, a business or a socio.

   Correspondence (SQL ↔ Lean):
     the lateral subquery on "Member"   ↔ `founder`
     "_one_account_plan"                ↔ `plan`
     the update of "Account"            ↔ `bind`, `backfill`
     "Account_memberId_key"             ↔ `uniqueViolation` -/
namespace Bazar.Team.OneAccount

/-! Tables. -/

structure Account extends Team.Account where
  createdAt : Instant
  deriving DecidableEq, Repr

structure Member extends Team.Member where
  createdAt : Instant
  deriving DecidableEq, Repr

/-- The two tables, with their primary keys. -/
structure Db where
  accounts : List Account
  members : List Member
  accountIds : (accounts.map fun a => a.id).Nodup
  memberIds : (members.map fun m => m.id).Nodup

/-- The members that accounts are tied to. -/
def bound (accounts : List Account) : List Uuid := accounts.filterMap fun a => a.memberId

/-! The plan. -/

/-- `ORDER BY "createdAt", "id"`. -/
def older (createdAt : Instant) (id : Uuid) (createdAt' : Instant) (id' : Uuid) : Bool :=
  createdAt < createdAt' || createdAt = createdAt' && id.text ≤ id'.text

def Account.older (a b : Account) : Bool := OneAccount.older a.createdAt a.id b.createdAt b.id
def Member.older (m o : Member) : Bool := OneAccount.older m.createdAt m.id o.createdAt o.id

structure Plan where
  accountId : Uuid
  contextId : String
  founderId : Uuid
  deriving DecidableEq, Repr

section
variable (accounts : List Account) (members : List Member)

/-- The oldest socio of a business. -/
def founder (contextId : String) : Option Member :=
  Sql.first Member.older (members.filter fun m => m.contextId = contextId && m.role = .socio)

/-- The rows of the query: unbound accounts beside the founder of their business, where the
    founder has no account. -/
def candidates : List (Account × Member) :=
  accounts.filterMap fun a =>
    if a.memberId.isNone then
      (founder members a.contextId).bind fun f =>
        if accounts.any fun o => o.memberId = some f.id then none else some (a, f)
    else none

/-- `ORDER BY a."contextId", a."createdAt", a."id"`. -/
def before (x y : Account × Member) : Bool :=
  x.1.contextId < y.1.contextId || x.1.contextId = y.1.contextId && x.1.older y.1

def plan : List Plan :=
  (Sql.distinctOn (fun x => x.1.contextId) ((candidates accounts members).mergeSort before)).map
    fun x => ⟨x.1.id, x.1.contextId, x.2.id⟩

end

/-! Orders. -/

theorem older_iff {t t' : Instant} {id id' : Uuid} :
    older t id t' id' ↔ t < t' ∨ t = t' ∧ id.text ≤ id'.text := by
  simp [older]

theorem older_total (t t' : Instant) (id id' : Uuid) : older t id t' id' || older t' id' t id := by
  rw [Bool.or_eq_true, older_iff, older_iff]
  rcases lt_trichotomy t t' with h | rfl | h
  · exact .inl (.inl h)
  · rcases le_total id.text id'.text with h | h
    · exact .inl (.inr ⟨rfl, h⟩)
    · exact .inr (.inr ⟨rfl, h⟩)
  · exact .inr (.inl h)

theorem older_trans {t t' t'' : Instant} {id id' id'' : Uuid} (h : older t id t' id')
    (h' : older t' id' t'' id'') : older t id t'' id'' := by
  rw [older_iff] at h h' ⊢
  rcases h with h | ⟨rfl, h⟩
  · rcases h' with h' | ⟨rfl, -⟩
    · exact .inl (lt_trans h h')
    · exact .inl h
  · rcases h' with h' | ⟨rfl, h'⟩
    · exact .inl h'
    · exact .inr ⟨rfl, le_trans h h'⟩

/-- Rows that are as old as each other have one identifier. -/
theorem older_antisymm {t t' : Instant} {id id' : Uuid} (h : older t id t' id')
    (h' : older t' id' t id) : id = id' := by
  rw [older_iff] at h h'
  rcases h with h | ⟨rfl, h⟩
  · rcases h' with h' | ⟨rfl, -⟩
    · exact absurd (lt_trans h h') (lt_irrefl _)
    · exact absurd h (lt_irrefl _)
  · rcases h' with h' | ⟨-, h'⟩
    · exact absurd h' (lt_irrefl _)
    · have := le_antisymm h h'
      cases id
      cases id'
      simpa using this

theorem members_order : Sql.IsOrder Member.older :=
  ⟨fun _ _ => older_total .., fun _ _ _ => older_trans⟩

theorem before_order : Sql.IsOrder before := by
  constructor
  · intro x y
    simp only [before, Bool.or_eq_true, Bool.and_eq_true, decide_eq_true_eq]
    rcases lt_trichotomy x.1.contextId y.1.contextId with h | h | h
    · exact .inl (.inl h)
    · have := older_total x.1.createdAt y.1.createdAt x.1.id y.1.id
      rw [Bool.or_eq_true] at this
      rcases this with hxy | hyx
      · exact .inl (.inr ⟨h, hxy⟩)
      · exact .inr (.inr ⟨h.symm, hyx⟩)
    · exact .inr (.inl h)
  · intro x y z
    simp only [before, Bool.or_eq_true, Bool.and_eq_true, decide_eq_true_eq]
    intro h h'
    rcases h with h | ⟨heq, h⟩
    · rcases h' with h' | ⟨heq', -⟩
      · exact .inl (lt_trans h h')
      · exact .inl (heq' ▸ h)
    · rcases h' with h' | ⟨heq', h'⟩
      · exact .inl (heq ▸ h')
      · exact .inr ⟨heq.trans heq', older_trans h h'⟩

/-! What it is for. -/

/-- The shared login of a business and its founding socio: the oldest unbound account, the
    oldest socio, and a socio without an account. -/
structure Founds (accounts : List Account) (members : List Member) (a : Account) (f : Member) :
    Prop where
  account : a ∈ accounts
  unbound : a.memberId = none
  oldest : ∀ b ∈ accounts, b.contextId = a.contextId → b.memberId = none → a.older b
  member : f ∈ members
  socio : f.role = .socio
  business : f.contextId = a.contextId
  eldest : ∀ m ∈ members, m.contextId = a.contextId → m.role = .socio → f.older m
  free : f.id ∉ bound accounts

instance (accounts : List Account) (members : List Member) (a : Account) (f : Member) :
    Decidable (Founds accounts members a f) :=
  decidable_of_iff (a ∈ accounts ∧ a.memberId = none ∧
      (∀ b ∈ accounts, b.contextId = a.contextId → b.memberId = none → a.older b) ∧
      f ∈ members ∧ f.role = .socio ∧ f.contextId = a.contextId ∧
      (∀ m ∈ members, m.contextId = a.contextId → m.role = .socio → f.older m) ∧
      f.id ∉ bound accounts)
    ⟨fun ⟨h₁, h₂, h₃, h₄, h₅, h₆, h₇, h₈⟩ => ⟨h₁, h₂, h₃, h₄, h₅, h₆, h₇, h₈⟩,
      fun ⟨h₁, h₂, h₃, h₄, h₅, h₆, h₇, h₈⟩ => ⟨h₁, h₂, h₃, h₄, h₅, h₆, h₇, h₈⟩⟩

/-! The plan is what it is for. -/

section
variable {db : Db} {a b : Account} {f m : Member} {p q : Plan}

theorem Db.account_eq (ha : a ∈ db.accounts) (hb : b ∈ db.accounts) (h : a.id = b.id) : a = b :=
  List.inj_on_of_nodup_map db.accountIds ha hb h

theorem Db.member_eq (hf : f ∈ db.members) (hm : m ∈ db.members) (h : f.id = m.id) : f = m :=
  List.inj_on_of_nodup_map db.memberIds hf hm h

theorem founder_iff {contextId : String} : founder db.members contextId = some f ↔
    f ∈ db.members ∧ f.contextId = contextId ∧ f.role = .socio ∧
      ∀ m ∈ db.members, m.contextId = contextId → m.role = .socio → f.older m := by
  unfold founder
  rw [Sql.first_iff members_order]
  · simp only [List.mem_filter, Bool.and_eq_true, decide_eq_true_eq, and_assoc, and_imp]
  · intro x hx y hy h h'
    exact Db.member_eq (List.mem_filter.mp hx).1 (List.mem_filter.mp hy).1 (older_antisymm h h')

theorem mem_candidates_iff : (a, f) ∈ candidates db.accounts db.members ↔
    a ∈ db.accounts ∧ a.memberId = none ∧ founder db.members a.contextId = some f ∧
      f.id ∉ bound db.accounts := by
  have hbound (id : Uuid) : id ∉ bound db.accounts ↔
      ¬ (db.accounts.any fun o => o.memberId = some id) = true := by
    simp [bound]
  simp only [candidates, List.mem_filterMap, Option.isNone_iff_eq_none]
  constructor
  · rintro ⟨x, hx, h⟩
    split at h
    · rename_i hnone
      obtain ⟨g, hg, h⟩ := Option.bind_eq_some_iff.mp h
      split at h
      · cases h
      · rename_i hfree
        simp only [Option.some.injEq, Prod.mk.injEq] at h
        obtain ⟨rfl, rfl⟩ := h
        exact ⟨hx, hnone, hg, (hbound _).mpr hfree⟩
    · cases h
  · rintro ⟨ha, hnone, hf, hfree⟩
    refine ⟨a, ha, ?_⟩
    rw [if_pos hnone, hf, Option.bind_some, if_neg ((hbound _).mp hfree)]

/-- In one business, who comes first is who is older. -/
theorem before_iff {x y : Account × Member} (h : x.1.contextId = y.1.contextId) :
    before x y ↔ x.1.older y.1 := by
  simp [before, h]

/-- What the query keeps: the shared login of each business beside its founding socio. -/
theorem founds_iff : (a, f) ∈ Sql.distinctOn (fun x => x.1.contextId)
      ((candidates db.accounts db.members).mergeSort before) ↔
    Founds db.accounts db.members a f := by
  rw [Sql.mem_distinctOn_iff before_order]
  · constructor
    · rintro ⟨hx, hle⟩
      obtain ⟨ha, hnone, hf, hfree⟩ := mem_candidates_iff.mp hx
      obtain ⟨hmember, hbusiness, hsocio, heldest⟩ := founder_iff.mp hf
      refine ⟨ha, hnone, ?_, hmember, hsocio, hbusiness, heldest, hfree⟩
      intro b hb hk hbnone
      have hother : (b, f) ∈ candidates db.accounts db.members :=
        mem_candidates_iff.mpr ⟨hb, hbnone, hk ▸ hf, hfree⟩
      exact (before_iff hk.symm).mp (hle _ hother hk)
    · intro h
      have hf := founder_iff.mpr ⟨h.member, h.business, h.socio, h.eldest⟩
      refine ⟨mem_candidates_iff.mpr ⟨h.account, h.unbound, hf, h.free⟩, ?_⟩
      rintro ⟨b, g⟩ hb hk
      obtain ⟨hb, hbnone, -, -⟩ := mem_candidates_iff.mp hb
      exact (before_iff hk.symm).mpr (h.oldest b hb hk hbnone)
  · -- Candidates of one business that are as old as each other are the same.
    rintro ⟨b, g⟩ hb ⟨c, k⟩ hc hkey hle hle'
    obtain ⟨hb, -, hg, -⟩ := mem_candidates_iff.mp hb
    obtain ⟨hc, -, hk, -⟩ := mem_candidates_iff.mp hc
    have heq : b = c := Db.account_eq hb hc
      (older_antisymm ((before_iff hkey).mp hle) ((before_iff hkey.symm).mp hle'))
    subst heq
    rw [hg, Option.some.injEq] at hk
    rw [hk]

theorem mem_plan_iff : p ∈ plan db.accounts db.members ↔
    ∃ a f, Founds db.accounts db.members a f ∧ p = ⟨a.id, a.contextId, f.id⟩ := by
  unfold plan
  rw [List.mem_map]
  constructor
  · rintro ⟨⟨a, f⟩, hx, rfl⟩
    exact ⟨a, f, founds_iff.mp hx, rfl⟩
  · rintro ⟨a, f, h, rfl⟩
    exact ⟨(a, f), founds_iff.mpr h, rfl⟩

/-- A business with an unbound account and a founder without one has a login that is tied. -/
theorem exists_founds (ha : a ∈ db.accounts) (hnone : a.memberId = none)
    (hf : founder db.members a.contextId = some f) (hfree : f.id ∉ bound db.accounts) :
    ∃ b, Founds db.accounts db.members b f := by
  have hmem : (a, f) ∈ candidates db.accounts db.members :=
    mem_candidates_iff.mpr ⟨ha, hnone, hf, hfree⟩
  have hsorted : (a, f) ∈ (candidates db.accounts db.members).mergeSort before :=
    List.mem_mergeSort.mpr hmem
  obtain ⟨⟨b, g⟩, hx, hk⟩ :=
    Sql.exists_distinctOn (fun x : Account × Member => x.1.contextId) hsorted
  have h := founds_iff.mp hx
  have hg := founder_iff.mpr ⟨h.member, h.business, h.socio, h.eldest⟩
  rw [show b.contextId = a.contextId from hk, hf, Option.some.injEq] at hg
  rw [← hg] at h
  exact ⟨b, h⟩

/-! No two rows of the plan get in each other's way. -/

/-- One login of a business is tied, to one socio. -/
theorem Founds.unique {g : Member} (h : Founds db.accounts db.members a f)
    (h' : Founds db.accounts db.members b g) (hk : a.contextId = b.contextId) : a = b ∧ f = g := by
  constructor
  · exact Db.account_eq h.account h'.account
      (older_antisymm (h.oldest b h'.account hk.symm h'.unbound)
        (h'.oldest a h.account hk h.unbound))
  · exact Db.member_eq h.member h'.member
      (older_antisymm (h.eldest g h'.member (h'.business.trans hk.symm) h'.socio)
        (h'.eldest f h.member (h.business.trans hk) h.socio))

/-- Rows of the plan that tie one login, or to one socio, are the same row. -/
theorem plan_inj (hp : p ∈ plan db.accounts db.members) (hq : q ∈ plan db.accounts db.members)
    (h : p.accountId = q.accountId ∨ p.founderId = q.founderId) : p = q := by
  obtain ⟨a, f, hf, rfl⟩ := mem_plan_iff.mp hp
  obtain ⟨b, g, hg, rfl⟩ := mem_plan_iff.mp hq
  have hk : a.contextId = b.contextId := by
    rcases h with h | h
    · rw [Db.account_eq hf.account hg.account h]
    · have hfg := Db.member_eq hf.member hg.member h
      rw [← hf.business, ← hg.business, hfg]
  obtain ⟨rfl, rfl⟩ := hf.unique hg hk
  rfl

theorem plan_nodup : (plan db.accounts db.members).Nodup := by
  have h := Sql.distinctOn_nodup (fun x : Account × Member => x.1.contextId)
    ((candidates db.accounts db.members).mergeSort before)
  refine List.Nodup.of_map (fun p => p.contextId) ?_
  rw [plan, List.map_map]
  exact h

/-! The update. -/

inductive Failure where
  | uniqueViolation (index : String)
  deriving DecidableEq, Repr

/-- The rows that a row of the plan updates. -/
def Plan.matches (p : Plan) (a : Account) : Bool := a.id = p.accountId && a.memberId.isNone

/-- The update of one row, refused when the founder has an account by then. -/
def bind (accounts : List Account) (p : Plan) : Except Failure (List Account) :=
  if accounts.any p.matches && accounts.any fun o => o.memberId = some p.founderId then
    .error (.uniqueViolation "Account_memberId_key")
  else .ok (accounts.map fun a => if p.matches a then { a with memberId := some p.founderId } else a)

/-- The update, its rows taken in an order. -/
def backfill (order : List Plan) (accounts : List Account) : Except Failure (List Account) :=
  order.foldlM bind accounts

/-- An account after the update. -/
def tied (ps : List Plan) (a : Account) : Account :=
  match ps.find? fun p => p.matches a with
  | some p => { a with memberId := some p.founderId }
  | none => a

theorem matches_iff : p.matches a ↔ a.id = p.accountId ∧ a.memberId = none := by
  simp [Plan.matches]

/-- An account that was tied is not unbound for the rows after. -/
theorem tied_cons (p : Plan) (rest : List Plan) (a : Account) :
    tied rest (tied [p] a) = tied (p :: rest) a := by
  by_cases h : p.matches a = true
  · have hrest : ∀ q ∈ rest, ¬ q.matches { a with memberId := some p.founderId } = true := by
      intro q _ hq
      cases (matches_iff.mp hq).2
    have hnone : rest.find? (fun q => q.matches { a with memberId := some p.founderId }) = none :=
      List.find?_eq_none.mpr hrest
    simp [tied, h, hnone]
  · simp [tied, h]

/-- The update goes through when the founders are distinct and have no account, and then its
    order does not show. -/
theorem backfill_ok {order : List Plan} {accounts : List Account}
    (hf : (order.map fun p => p.founderId).Nodup)
    (hb : ∀ p ∈ order, p.founderId ∉ bound accounts) :
    backfill order accounts = .ok (accounts.map (tied order)) := by
  induction order generalizing accounts with
  | nil =>
    show Except.ok accounts = _
    rw [show tied [] = id from rfl, List.map_id]
  | cons p rest ih =>
    obtain ⟨hnot, hrest⟩ := List.nodup_cons.mp hf
    have hfree : accounts.any (fun o => o.memberId = some p.founderId) = false := by
      have := hb p List.mem_cons_self
      simpa [bound] using this
    have hbind : bind accounts p = .ok (accounts.map (tied [p])) := by
      unfold bind
      rw [hfree, Bool.and_false, if_neg (by simp)]
      congr 1
      refine List.map_congr_left fun a _ => ?_
      by_cases h : p.matches a = true <;> simp [tied, h]
    have hnext : ∀ q ∈ rest, q.founderId ∉ bound (accounts.map (tied [p])) := by
      intro q hq hmem
      obtain ⟨a', ha', hid⟩ := List.mem_filterMap.mp hmem
      obtain ⟨a, ha, rfl⟩ := List.mem_map.mp ha'
      by_cases h : p.matches a = true
      · simp only [tied, h, List.find?_cons_of_pos, Option.some.injEq] at hid
        exact hnot (List.mem_map.mpr ⟨q, hq, hid.symm⟩)
      · simp only [tied, h, List.find?_nil, Bool.false_eq_true, not_false_eq_true,
          List.find?_cons_of_neg] at hid
        exact hb q (List.mem_cons_of_mem _ hq) (List.mem_filterMap.mpr ⟨a, ha, hid⟩)
    show (bind accounts p >>= fun next => backfill rest next) = _
    rw [hbind]
    show backfill rest (accounts.map (tied [p])) = _
    rw [ih hrest hnext, List.map_map]
    congr 1
    exact List.map_congr_left fun a _ => tied_cons p rest a

variable {order : List Plan}

theorem tied_id (ps : List Plan) (a : Account) : (tied ps a).id = a.id := by
  unfold tied
  split <;> rfl

theorem tied_founds (ho : order.Perm (plan db.accounts db.members))
    (h : Founds db.accounts db.members a f) :
    tied order a = { a with memberId := some f.id } := by
  have hp : (⟨a.id, a.contextId, f.id⟩ : Plan) ∈ order :=
    ho.mem_iff.mpr (mem_plan_iff.mpr ⟨a, f, h, rfl⟩)
  have hmatch : Plan.matches ⟨a.id, a.contextId, f.id⟩ a = true :=
    matches_iff.mpr ⟨rfl, h.unbound⟩
  unfold tied
  cases hfind : order.find? fun p => p.matches a with
  | none => exact absurd hmatch (List.find?_eq_none.mp hfind _ hp)
  | some q =>
    have hq := matches_iff.mp (List.find?_some (p := fun p : Plan => p.matches a) hfind)
    have heq := plan_inj (ho.mem_iff.mp (List.mem_of_find?_eq_some hfind)) (ho.mem_iff.mp hp)
      (.inl hq.1.symm)
    rw [heq]

theorem tied_cases (ho : order.Perm (plan db.accounts db.members)) (ha : a ∈ db.accounts) :
    (∃ f, Founds db.accounts db.members a f ∧ tied order a = { a with memberId := some f.id }) ∨
      (∀ f, ¬ Founds db.accounts db.members a f) ∧ tied order a = a := by
  by_cases h : ∃ f, Founds db.accounts db.members a f
  · obtain ⟨f, hf⟩ := h
    exact .inl ⟨f, hf, tied_founds ho hf⟩
  · have hno : ∀ f, ¬ Founds db.accounts db.members a f := fun f hf => h ⟨f, hf⟩
    refine .inr ⟨hno, ?_⟩
    unfold tied
    cases hfind : order.find? fun p => p.matches a with
    | none => rfl
    | some q =>
      obtain ⟨b, g, hg, rfl⟩ := mem_plan_iff.mp (ho.mem_iff.mp (List.mem_of_find?_eq_some hfind))
      have hid := (matches_iff.mp (List.find?_some (p := fun p : Plan => p.matches a) hfind)).1
      rw [Db.account_eq ha hg.account hid] at hno
      exact absurd hg (hno g)

/-- Distinct accounts have distinct members after the update. -/
theorem bound_nodup (hd : (bound db.accounts).Nodup)
    (ho : order.Perm (plan db.accounts db.members)) :
    (bound (db.accounts.map (tied order))).Nodup := by
  unfold bound at hd ⊢
  rw [List.Nodup, List.pairwise_filterMap] at hd ⊢
  rw [List.pairwise_map]
  have hids := List.pairwise_map.mp db.accountIds
  refine (hd.and hids).imp_of_mem ?_
  rintro a b ha hb ⟨hab, hne⟩ m hm n hn rfl
  rcases tied_cases ho ha with ⟨f, hf, hta⟩ | ⟨-, hta⟩
  · rw [hta, Option.some.injEq] at hm
    rcases tied_cases ho hb with ⟨g, hg, htb⟩ | ⟨-, htb⟩
    · rw [htb, Option.some.injEq] at hn
      have heq := plan_inj (mem_plan_iff.mpr ⟨a, f, hf, rfl⟩) (mem_plan_iff.mpr ⟨b, g, hg, rfl⟩)
        (.inr (hm.trans hn.symm))
      exact hne (congrArg Plan.accountId heq)
    · rw [htb] at hn
      exact hf.free (hm ▸ List.mem_filterMap.mpr ⟨b, hb, hn⟩)
  · rw [hta] at hm
    rcases tied_cases ho hb with ⟨g, hg, htb⟩ | ⟨-, htb⟩
    · rw [htb, Option.some.injEq] at hn
      exact hg.free (hn ▸ List.mem_filterMap.mpr ⟨a, ha, hm⟩)
    · rw [htb] at hn
      exact hab m hm m hn rfl

/-- The tables after the update. -/
def Db.after (db : Db) (order : List Plan) : Db where
  accounts := db.accounts.map (tied order)
  members := db.members
  accountIds := by
    rw [List.map_map]
    have h : (fun a : Account => a.id) ∘ tied order = fun a => a.id := by
      funext a
      exact tied_id order a
    rw [h]
    exact db.accountIds
  memberIds := db.memberIds

/-- There is nothing left to tie. -/
theorem plan_after (ho : order.Perm (plan db.accounts db.members)) :
    plan (db.after order).accounts (db.after order).members = [] := by
  refine List.eq_nil_iff_forall_not_mem.mpr fun p hp => ?_
  obtain ⟨a', f, h, -⟩ := mem_plan_iff.mp hp
  obtain ⟨a, ha, rfl⟩ := List.mem_map.mp h.account
  rcases tied_cases ho ha with ⟨g, -, hta⟩ | ⟨-, hta⟩
  · have := h.unbound
    rw [hta] at this
    cases this
  · rw [hta] at h
    have hfree : f.id ∉ bound db.accounts := by
      intro hmem
      obtain ⟨o, hmo, hid⟩ := List.mem_filterMap.mp hmem
      refine h.free (List.mem_filterMap.mpr ⟨tied order o, List.mem_map_of_mem hmo, ?_⟩)
      rcases tied_cases ho hmo with ⟨g, hg, -⟩ | ⟨-, hto⟩
      · rw [hg.unbound] at hid
        cases hid
      · rw [hto]
        exact hid
    have hf : founder db.members a.contextId = some f :=
      founder_iff.mpr ⟨h.member, h.business, h.socio, h.eldest⟩
    obtain ⟨b, hb⟩ := exists_founds ha h.unbound hf hfree
    refine h.free (List.mem_filterMap.mpr ⟨tied order b, List.mem_map_of_mem hb.account, ?_⟩)
    rw [tied_founds ho hb]

end

/-- The backfill is safe: from tables whose bound accounts have distinct members it goes through
    in any order of its rows and leaves them so; it ties the shared login of a business to its
    founding socio, one of each at most, and changes no other account, a bound one least of all;
    and a second run changes nothing. -/
theorem backfill_safe (db : Db) (hd : (bound db.accounts).Nodup) (order : List Plan)
    (ho : order.Perm (plan db.accounts db.members)) :
    ∃ after : Db, backfill order db.accounts = .ok after.accounts ∧ after.members = db.members ∧
      (bound after.accounts).Nodup ∧
      (∃ tie : Account → Account, after.accounts = db.accounts.map tie ∧
        (∀ a f, Founds db.accounts db.members a f → tie a = { a with memberId := some f.id }) ∧
        (∀ a ∈ db.accounts, (∀ f, ¬ Founds db.accounts db.members a f) → tie a = a) ∧
        ∀ a ∈ db.accounts, a.memberId ≠ none → tie a = a) ∧
      (∀ a f b g, Founds db.accounts db.members a f → Founds db.accounts db.members b g →
        a.contextId = b.contextId → a = b ∧ f = g) ∧
      ∀ order', order'.Perm (plan after.accounts after.members) →
        backfill order' after.accounts = .ok after.accounts := by
  have hok : backfill order db.accounts = .ok (db.accounts.map (tied order)) := by
    apply backfill_ok
    · have hnodup : order.Nodup := ho.nodup_iff.mpr plan_nodup
      refine hnodup.map_on fun p hp q hq h => ?_
      exact plan_inj (ho.mem_iff.mp hp) (ho.mem_iff.mp hq) (.inr h)
    · intro p hp
      obtain ⟨a, f, h, rfl⟩ := mem_plan_iff.mp (ho.mem_iff.mp hp)
      exact h.free
  have hsame : ∀ a ∈ db.accounts, (∀ f, ¬ Founds db.accounts db.members a f) → tied order a = a := by
    intro a ha hno
    rcases tied_cases ho ha with ⟨f, hf, -⟩ | ⟨-, h⟩
    · exact absurd hf (hno f)
    · exact h
  refine ⟨db.after order, hok, rfl, bound_nodup hd ho, ⟨tied order, rfl, ?_, hsame, ?_⟩, ?_, ?_⟩
  · intro a f h
    exact tied_founds ho h
  · intro a ha hbound
    exact hsame a ha fun f h => hbound h.unbound
  · intro a f b g h h' hk
    exact h.unique h' hk
  · intro order' ho'
    rw [plan_after ho, List.perm_nil] at ho'
    rw [ho']
    rfl

/-! Two businesses: in `a` the older of two shared logins is tied; in `b` the founder has one. -/

def Demo.account (id contextId : String) (createdAt : Instant) (memberId : Option Uuid) : Account :=
  ⟨⟨⟨id⟩, id, "", contextId, true, memberId⟩, createdAt⟩

def Demo.socio (id contextId : String) (createdAt : Instant) : Member :=
  ⟨⟨⟨id⟩, id, .socio, contextId, true, none⟩, createdAt⟩

def Demo.db : Db where
  accounts := [Demo.account "2" "a" 5 none, Demo.account "1" "a" 5 none,
    Demo.account "3" "b" 1 none, Demo.account "4" "b" 2 (some ⟨"luz"⟩)]
  members := [Demo.socio "ana" "a" 9, Demo.socio "eva" "a" 3, Demo.socio "luz" "b" 1]
  accountIds := by decide
  memberIds := by decide

theorem Demo.plan_perm :
    [⟨⟨"1"⟩, "a", ⟨"eva"⟩⟩].Perm (plan Demo.db.accounts Demo.db.members) := by
  have hfounds : ∀ a ∈ Demo.db.accounts, ∀ f ∈ Demo.db.members,
      Founds Demo.db.accounts Demo.db.members a f ↔
        a = Demo.account "1" "a" 5 none ∧ f = Demo.socio "eva" "a" 3 := by decide
  refine (List.perm_ext_iff_of_nodup (by decide) plan_nodup).mpr fun p => ?_
  rw [mem_plan_iff, List.mem_singleton]
  constructor
  · rintro rfl
    exact ⟨Demo.account "1" "a" 5 none, Demo.socio "eva" "a" 3,
      (hfounds _ (by decide) _ (by decide)).mpr ⟨rfl, rfl⟩, rfl⟩
  · rintro ⟨a, f, h, rfl⟩
    obtain ⟨rfl, rfl⟩ := (hfounds a h.account f h.member).mp h
    rfl

theorem backfill_safe_demo : ∃ after : Db,
    backfill [⟨⟨"1"⟩, "a", ⟨"eva"⟩⟩] Demo.db.accounts = .ok after.accounts ∧
      bound after.accounts = [⟨"eva"⟩, ⟨"luz"⟩] := by
  obtain ⟨after, hok, -⟩ := backfill_safe Demo.db (by decide) _ Demo.plan_perm
  refine ⟨after, hok, ?_⟩
  have heval : backfill [⟨⟨"1"⟩, "a", ⟨"eva"⟩⟩] Demo.db.accounts =
      .ok [Demo.account "2" "a" 5 none, Demo.account "1" "a" 5 (some ⟨"eva"⟩),
        Demo.account "3" "b" 1 none, Demo.account "4" "b" 2 (some ⟨"luz"⟩)] := by decide
  rw [heval, Except.ok.injEq] at hok
  rw [← hok]
  rfl

end Bazar.Team.OneAccount
