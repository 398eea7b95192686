/- Row locks of a relational database. Every transaction holds a list of pairs
   (row key, mode), released only when it ends. Two transactions may hold locks
   on one row as long as the modes do not conflict; `Apart` says so of two whole
   lists. The four modes and their conflict table are PostgreSQL's row-level
   locks; an advisory lock or the slot of a unique index is a row locked in mode
   `update`. -/
namespace Txn

/-- The strength of a row lock, weakest first. -/
inductive LockMode where
  | keyShare
  | share
  | noKeyUpdate
  | update
  deriving DecidableEq, Repr

namespace LockMode

/-- Whether two transactions cannot hold the modes on one row together. -/
def conflicts : LockMode → LockMode → Bool
  | .keyShare, .update => true
  | .keyShare, _ => false
  | .share, .keyShare => false
  | .share, .share => false
  | .share, _ => true
  | .noKeyUpdate, .keyShare => false
  | .noKeyUpdate, _ => true
  | .update, _ => true

/-- The modes a statement that writes the row takes. -/
def writes : LockMode → Bool
  | .noKeyUpdate => true
  | .update => true
  | _ => false

theorem conflicts_comm (a b : LockMode) : a.conflicts b = b.conflicts a := by
  cases a <;> cases b <;> rfl

/-- A lock on a row as strong as `share` keeps every writer of the row out. -/
theorem conflicts_of_writes {a b : LockMode} (ha : a ≠ .keyShare) (hb : b.writes = true) :
    a.conflicts b = true := by
  cases a <;> cases b <;> simp_all [conflicts, writes]

theorem update_conflicts (a : LockMode) : LockMode.update.conflicts a = true := by
  cases a <;> rfl

end LockMode

/-- Locks held or asked for: row keys with their modes. -/
abbrev Locks (K : Type) := List (K × LockMode)

/-- No lock of `a` conflicts with a lock of `b`. -/
def Apart {K : Type} (a b : Locks K) : Prop :=
  ∀ x ∈ a, ∀ y ∈ b, x.1 = y.1 → x.2.conflicts y.2 = false

section
variable {K : Type} {a a' b : Locks K}

instance [DecidableEq K] (a b : Locks K) : Decidable (Apart a b) :=
  inferInstanceAs (Decidable (∀ x ∈ a, ∀ y ∈ b, x.1 = y.1 → x.2.conflicts y.2 = false))

theorem Apart.symm (h : Apart a b) : Apart b a := by
  intro x hx y hy he
  rw [LockMode.conflicts_comm]
  exact h y hy x hx he.symm

@[simp] theorem apart_nil_left : Apart ([] : Locks K) b := by
  intro x hx
  cases hx

@[simp] theorem apart_nil_right : Apart b ([] : Locks K) := by
  intro x _ y hy
  cases hy

theorem apart_append_left : Apart (a ++ a') b ↔ Apart a b ∧ Apart a' b := by
  constructor
  · intro h
    exact ⟨fun x hx => h x (List.mem_append_left _ hx), fun x hx => h x (List.mem_append_right _ hx)⟩
  · rintro ⟨h, h'⟩ x hx
    rcases List.mem_append.mp hx with hx | hx
    · exact h x hx
    · exact h' x hx

/-- A writer's lock and any lock but the weakest are on different rows. -/
theorem Apart.ne_of_writes (h : Apart a b) {k k' : K} {m m' : LockMode} (hk : (k, m) ∈ a)
    (hk' : (k', m') ∈ b) (hm : m ≠ .keyShare) (hm' : m'.writes = true) : k ≠ k' := by
  intro he
  have hf := h _ hk _ hk' he
  rw [LockMode.conflicts_of_writes hm hm'] at hf
  cases hf

end

end Txn
