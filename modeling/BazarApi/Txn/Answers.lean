import BazarApi.Txn.Program

/- Bodies whose statements may be answered in more than one way, as a query without
   `ORDER BY` may: `answer q x` says that `x` is a possible answer to `q`. `Ends` collects
   what a body can end with, and the lemmas follow the parts of a body. -/
namespace Txn

variable {S : Schema} {α β : Type}

/-- The body can end with `x`, its statements answered as `answer` allows. -/
def Tx.Ends (answer : (q : S.Sql) → Except S.Err (S.Res q) → Prop) :
    Tx S α → Except S.Err α → Prop
  | .ret a, x => x = .ok a
  | .throw e, x => x = .error e
  | .stmt q k, x =>
    (∃ e, answer q (.error e) ∧ x = .error e) ∨ ∃ r, answer q (.ok r) ∧ (k r).Ends answer x

namespace Tx
variable {answer : (q : S.Sql) → Except S.Err (S.Res q) → Prop}

theorem ends_bind {x : Tx S α} {f : α → Tx S β} {y : Except S.Err β} :
    (x >>= f).Ends answer y ↔
      (∃ e, x.Ends answer (.error e) ∧ y = .error e) ∨
      ∃ a, x.Ends answer (.ok a) ∧ (f a).Ends answer y := by
  induction x with
  | ret a =>
    rw [ret_bind]
    constructor
    · intro h
      exact .inr ⟨a, rfl, h⟩
    · rintro (⟨e, he, -⟩ | ⟨b, hb, h⟩)
      · cases he
      · cases hb
        exact h
  | throw e =>
    rw [throw_bind]
    constructor
    · intro h
      exact .inl ⟨e, rfl, h⟩
    · rintro (⟨e', he, h⟩ | ⟨b, hb, -⟩)
      · cases he
        exact h
      · cases hb
  | stmt q k ih =>
    rw [stmt_bind]
    simp only [Ends, ih]
    constructor
    · rintro (⟨e, he, hy⟩ | ⟨r, hr, ⟨e, he, hy⟩ | ⟨a, ha, hy⟩⟩)
      · exact .inl ⟨e, .inl ⟨e, he, rfl⟩, hy⟩
      · exact .inl ⟨e, .inr ⟨r, hr, he⟩, hy⟩
      · exact .inr ⟨a, .inr ⟨r, hr, ha⟩, hy⟩
    · rintro (⟨e, ⟨e', he, hx⟩ | ⟨r, hr, he⟩, hy⟩ | ⟨a, ⟨e, he, hx⟩ | ⟨r, hr, ha⟩, hy⟩)
      · cases hx
        exact .inl ⟨e, he, hy⟩
      · exact .inr ⟨r, hr, .inl ⟨e, he, hy⟩⟩
      · cases hx
      · exact .inr ⟨r, hr, .inr ⟨a, ha, hy⟩⟩

theorem ends_query {q : S.Sql} {x : Except S.Err (S.Res q)} :
    (query q).Ends answer x ↔ answer q x := by
  unfold query
  simp only [Ends]
  constructor
  · rintro (⟨e, he, rfl⟩ | ⟨r, hr, rfl⟩)
    · exact he
    · exact hr
  · intro h
    cases x with
    | error e => exact .inl ⟨e, h, rfl⟩
    | ok r => exact .inr ⟨r, h, rfl⟩

theorem ends_ofExcept {x y : Except S.Err α} : (ofExcept x : Tx S α).Ends answer y ↔ y = x := by
  cases x with
  | ok a => exact Iff.rfl
  | error e => exact Iff.rfl

theorem ends_require {c : Prop} [Decidable c] {e : S.Err} {y : Except S.Err Unit} :
    (require c e : Tx S Unit).Ends answer y ↔ (c ∧ y = .ok ()) ∨ (¬ c ∧ y = .error e) := by
  unfold require
  by_cases h : c
  · rw [if_pos h]
    exact ⟨fun hy => .inl ⟨h, hy⟩, fun hy => hy.elim And.right fun hn => absurd h hn.1⟩
  · rw [if_neg h]
    exact ⟨fun hy => .inr ⟨h, hy⟩, fun hy => hy.elim (fun hc => absurd hc.1 h) And.right⟩

/-- More answers, more ends. -/
theorem Ends.mono {answer' : (q : S.Sql) → Except S.Err (S.Res q) → Prop}
    (ha : ∀ q x, answer q x → answer' q x) {body : Tx S α} {y : Except S.Err α}
    (h : body.Ends answer y) : body.Ends answer' y := by
  induction body with
  | ret a => exact h
  | throw e => exact h
  | stmt q k ih =>
    rcases h with ⟨e, he, hy⟩ | ⟨r, hr, h⟩
    · exact .inl ⟨e, ha _ _ he, hy⟩
    · exact .inr ⟨r, ha _ _ hr, ih r h⟩

/-! Alone. -/

theorem eval_writes {d : S.Db} {body : Tx S α} {ws ws' : List S.Write} {a : α}
    (h : body.eval d ws = .ok (a, ws')) : ws <+: ws' := by
  induction body generalizing ws with
  | ret b =>
    cases h
    exact List.prefix_refl _
  | throw e => cases h
  | stmt q k ih =>
    unfold eval at h
    split at h
    · exact (List.prefix_append _ _).trans (ih _ h)
    · cases h

/-- A body that only reads can end with what it evaluates to. -/
theorem ends_of_eval {d : S.Db} (hd : ∀ q r, S.exec q d = .ok (r, []) → answer q (.ok r))
    {body : Tx S α} {a : α} (h : body.eval d [] = .ok (a, [])) : body.Ends answer (.ok a) := by
  induction body with
  | ret b =>
    cases h
    rfl
  | throw e => cases h
  | stmt q k ih =>
    unfold eval at h
    split at h
    · rename_i r ws hx
      obtain rfl : ws = [] := List.prefix_nil.mp (eval_writes h)
      exact .inr ⟨r, hd q r hx, ih r h⟩
    · cases h

end Tx

/-! What a body sends. -/

/-- Every statement the body may send satisfies `P`. -/
def Tx.All (P : S.Sql → Prop) : Tx S α → Prop
  | .ret _ => True
  | .throw _ => True
  | .stmt q k => P q ∧ ∀ r, (k r).All P

theorem Tx.All.bind {P : S.Sql → Prop} {x : Tx S α} {f : α → Tx S β} (hx : x.All P)
    (hf : ∀ a, (f a).All P) : (x >>= f).All P := by
  induction x with
  | ret a => exact hf a
  | throw e => trivial
  | stmt q k ih => exact ⟨hx.1, fun r => ih r (hx.2 r)⟩

theorem Tx.all_require {P : S.Sql → Prop} {c : Prop} [Decidable c] {e : S.Err} :
    (Tx.require c e : Tx S Unit).All P := by
  unfold Tx.require
  split <;> trivial

theorem Tx.all_ofExcept {P : S.Sql → Prop} {x : Except S.Err α} : (Tx.ofExcept x : Tx S α).All P := by
  cases x <;> trivial

theorem Tx.All.query_bind {P : S.Sql → Prop} {q : S.Sql} {f : S.Res q → Tx S α} (hq : P q)
    (hf : ∀ r, (f r).All P) : (query q >>= f).All P := ⟨hq, hf⟩

/-! What a body avoids. -/

section
variable {answer answer' : (q : S.Sql) → Except S.Err (S.Res q) → Prop} {P : S.Err → Prop}

/-- Statements of a kind, answered as they may be elsewhere: a failure, or an end there. -/
theorem Tx.Ends.of_answers {K : S.Sql → Prop} {body : Tx S α} {x : Except S.Err α}
    (hk : body.All K) (ha : ∀ q r, K q → answer q (.ok r) → answer' q (.ok r))
    (h : body.Ends answer x) :
    (∃ q e, answer q (.error e) ∧ x = .error e) ∨ body.Ends answer' x := by
  induction body with
  | ret a => exact .inr h
  | throw e => exact .inr h
  | stmt q k ih =>
    rcases h with ⟨e, he, hx⟩ | ⟨r, hr, h⟩
    · exact .inl ⟨q, e, he, hx⟩
    · rcases ih r (hk.2 r) h with hfail | hend
      · exact .inl hfail
      · exact .inr (.inr ⟨r, ha q r hk.1 hr, hend⟩)

/-- The body does not end with an error of the kind. -/
def Tx.Avoids (answer : (q : S.Sql) → Except S.Err (S.Res q) → Prop) (P : S.Err → Prop)
    (body : Tx S α) : Prop := ∀ e, body.Ends answer (.error e) → ¬ P e

theorem Tx.Avoids.bind {x : Tx S α} {f : α → Tx S β} (hx : x.Avoids answer P)
    (hf : ∀ a, x.Ends answer (.ok a) → (f a).Avoids answer P) : (x >>= f).Avoids answer P := by
  intro e he
  rcases Tx.ends_bind.mp he with ⟨e', he', hee⟩ | ⟨a, ha, he⟩
  · cases hee
    exact hx e he'
  · exact hf a ha e he

theorem Tx.avoids_query {q : S.Sql} (h : ∀ e, answer q (.error e) → ¬ P e) :
    (query q).Avoids answer P := fun e he => h e (Tx.ends_query.mp he)

theorem Tx.avoids_require {c : Prop} [Decidable c] {e : S.Err} (h : ¬ c → ¬ P e) :
    (Tx.require c e : Tx S Unit).Avoids answer P := by
  intro e' he
  rcases Tx.ends_require.mp he with ⟨-, he⟩ | ⟨hc, he⟩
  · cases he
  · cases he
    exact h hc

theorem Tx.avoids_ret (a : α) : (Tx.ret a : Tx S α).Avoids answer P := fun _ he => nomatch he

theorem Tx.avoids_orThrow {o : Option α} {e : S.Err} (h : ¬ P e) :
    (Tx.orThrow o e : Tx S α).Avoids answer P := by
  intro e' he
  cases o with
  | none =>
    cases he
    exact h
  | some a => cases he

end

end Txn
