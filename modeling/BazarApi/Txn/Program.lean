import BazarApi.Txn.Lock

/- Programs over a relational schema. `Tx` is the body of one transaction: a
   statement is sent, its result chooses the rest. `Call` is what surrounds the
   transactions of one request: it opens a transaction, sees how it settled (the
   value it returned or the error that rolled it back) and goes on. Both are
   plain trees, so a program is a value that the interleaving semantics steps
   through and the logic recurses over. -/
namespace Txn

/-- A relational schema. `exec` gives a statement's result and the row versions
it writes, from the database its transaction sees; `locks` gives the row locks
it takes besides those of its writes (`key`, `mode`). -/
structure Schema where
  Db : Type
  Write : Type
  Key : Type
  Err : Type
  Sql : Type
  Res : Sql → Type
  keyEq : DecidableEq Key
  apply : Db → Write → Db
  key : Write → Key
  mode : Write → LockMode
  mode_writes : ∀ w, (mode w).writes = true
  locks : Sql → Db → Locks Key
  exec : (q : Sql) → Db → Except Err (Res q × List Write)
  /-- Raised under snapshot isolation when a row it must lock was changed since the snapshot. -/
  stale : Sql → Err
  /-- Errors the database may raise by itself: a lost connection, a timeout, a deadlock victim. -/
  spontaneous : Err → Prop

instance (S : Schema) : DecidableEq S.Key := S.keyEq

/-- The body of a transaction. -/
inductive Tx (S : Schema) (α : Type) : Type where
  | ret (a : α)
  | throw (e : S.Err)
  | stmt (q : S.Sql) (k : S.Res q → Tx S α)

namespace Tx
variable {S : Schema} {α β γ : Type}

def bind : Tx S α → (α → Tx S β) → Tx S β
  | .ret a, f => f a
  | .throw e, _ => .throw e
  | .stmt q k, f => .stmt q (fun r => (k r).bind f)

instance : Monad (Tx S) where
  pure := .ret
  bind := bind

/-- Sends one statement. -/
def query (q : S.Sql) : Tx S (S.Res q) := .stmt q .ret

/-- Goes on only when `c` holds: `if (!c) throw e`. -/
def require (c : Prop) [Decidable c] (e : S.Err) : Tx S Unit := if c then .ret () else .throw e

/-- The value found, or the error: `if (!o) throw e`. -/
def orThrow (o : Option α) (e : S.Err) : Tx S α :=
  match o with
  | some a => .ret a
  | none => .throw e

/-- The value of a pure computation that may itself throw. -/
def ofExcept (x : Except S.Err α) : Tx S α :=
  match x with
  | .ok a => .ret a
  | .error e => .throw e

@[simp] theorem ret_bind (a : α) (f : α → Tx S β) : (.ret a : Tx S α) >>= f = f a := rfl
@[simp] theorem pure_bind (a : α) (f : α → Tx S β) : (pure a : Tx S α) >>= f = f a := rfl
@[simp] theorem throw_bind (e : S.Err) (f : α → Tx S β) : (.throw e : Tx S α) >>= f = .throw e := rfl
@[simp] theorem stmt_bind (q : S.Sql) (k : S.Res q → Tx S α) (f : α → Tx S β) :
    .stmt q k >>= f = .stmt q (fun r => k r >>= f) := rfl
@[simp] theorem query_bind (q : S.Sql) (f : S.Res q → Tx S β) : query q >>= f = .stmt q f := rfl

@[simp] theorem bind_assoc (x : Tx S α) (f : α → Tx S β) (g : β → Tx S γ) :
    x >>= f >>= g = x >>= fun a => f a >>= g := by
  induction x with
  | ret a => rfl
  | throw e => rfl
  | stmt q k ih =>
    simp only [stmt_bind]
    exact congrArg _ (funext ih)

theorem bind_ret (x : Tx S α) : x >>= .ret = x := by
  induction x with
  | ret a => rfl
  | throw e => rfl
  | stmt q k ih =>
    simp only [stmt_bind]
    exact congrArg _ (funext ih)

/-- Runs the body alone on a fixed snapshot: its value and its writes. -/
def eval (d : S.Db) (pending : List S.Write) : Tx S α → Except S.Err (α × List S.Write)
  | .ret a => .ok (a, pending)
  | .throw e => .error e
  | .stmt q k =>
    match S.exec q (pending.foldl S.apply d) with
    | .ok (r, ws) => (k r).eval d (pending ++ ws)
    | .error e => .error e

end Tx

/-- What a statement of a transaction sees, beside the transaction's own writes:
every commit so far, or those its snapshot holds. -/
inductive Isolation where
  | readCommitted
  | repeatableRead
  deriving DecidableEq, Repr

/-- One request: its transactions in order, each settled before the rest runs. -/
inductive Call (S : Schema) (α : Type) : Type 1 where
  | ret (a : α)
  | throw (e : S.Err)
  | tx {β : Type} (iso : Isolation) (body : Tx S β) (k : Except S.Err β → Call S α)

namespace Call
variable {S : Schema} {α β : Type}

def bind : Call S α → (α → Call S β) → Call S β
  | .ret a, f => f a
  | .throw e, _ => .throw e
  | .tx iso body k, f => .tx iso body (fun r => (k r).bind f)

instance : Monad (Call S) where
  pure := .ret
  bind := bind

/-- Runs a transaction and yields how it settled, for a `try` around it. -/
def settle (iso : Isolation) (body : Tx S β) : Call S (Except S.Err β) := .tx iso body .ret

/-- The value a transaction settled with; an error goes up. -/
def ofExcept (x : Except S.Err α) : Call S α :=
  match x with
  | .ok a => .ret a
  | .error e => .throw e

/-- Runs a transaction; its error goes up. -/
def transaction (iso : Isolation) (body : Tx S α) : Call S α := .tx iso body ofExcept

def require (c : Prop) [Decidable c] (e : S.Err) : Call S Unit := if c then .ret () else .throw e

@[simp] theorem ret_bind (a : α) (f : α → Call S β) : (.ret a : Call S α) >>= f = f a := rfl
@[simp] theorem pure_bind (a : α) (f : α → Call S β) : (pure a : Call S α) >>= f = f a := rfl
@[simp] theorem throw_bind (e : S.Err) (f : α → Call S β) : (.throw e : Call S α) >>= f = .throw e := rfl
@[simp] theorem settle_bind (iso : Isolation) (body : Tx S α) (f : Except S.Err α → Call S β) :
    settle iso body >>= f = .tx iso body f := rfl
@[simp] theorem transaction_bind (iso : Isolation) (body : Tx S α) (f : α → Call S β) :
    transaction iso body >>= f = .tx iso body (fun r => ofExcept r >>= f) := rfl

theorem bind_assoc {γ : Type} (x : Call S α) (f : α → Call S β) (g : β → Call S γ) :
    x >>= f >>= g = x >>= fun a => f a >>= g := by
  induction x with
  | ret a => rfl
  | throw e => rfl
  | tx iso body k ih => exact congrArg (Call.tx iso body) (funext fun r => ih r)

end Call

end Txn
