import Mathlib.Data.List.Sort
import Mathlib.Data.List.Nodup

/- Pages of a list of rows, newest first: each page holds the rows after a cursor, and the
   cursor of the next page is the key of its last row. Over any linear order of keys. -/
namespace Bazar.Pages

variable {α κ τ : Type} [LinearOrder κ] (key : α → κ) (rows : List α) (limit : Nat)

/-- `orderBy … desc`. -/
def descending : List α := rows.insertionSort fun a b => key b ≤ key a

/-- The rows after a cursor. -/
def after (cursor : Option κ) : List α := rows.filter fun r => cursor.all (key r < ·)

/-- The statement of a page asks for one row more than the page shows. -/
def answered (cursor : Option κ) : List α := (descending key (after key rows cursor)).take (limit + 1)

structure Page (α τ : Type) where
  items : List α
  nextCursor : Option τ
  deriving DecidableEq, Repr

def page (cursor : Option κ) : Page α κ where
  items := (answered key rows limit cursor).take limit
  nextCursor :=
    if (answered key rows limit cursor).length > limit then
      ((answered key rows limit cursor).take limit).getLast?.map key
    else none

/-- The rows a client reads by sending each cursor back, over at most `fuel` pages. -/
def follow (serve : Option τ → Option (Page α τ)) : Nat → Option τ → Option (List α)
  | 0, _ => none
  | fuel + 1, cursor =>
    (serve cursor).bind fun p =>
      match p.nextCursor with
      | none => some p.items
      | some c => (follow serve fuel (some c)).map (p.items ++ ·)

variable {key rows limit}

theorem descending_perm : (descending key rows).Perm rows := List.perm_insertionSort _ _

theorem descending_pairwise : (descending key rows).Pairwise fun a b => key b ≤ key a := by
  have : IsTrans α fun a b => key b ≤ key a := ⟨fun _ _ _ h h' => le_trans h' h⟩
  have : Std.Total fun a b : α => key b ≤ key a := ⟨fun a b => le_total (key b) (key a)⟩
  exact List.pairwise_insertionSort _ _

theorem descending_strict (hn : (rows.map key).Nodup) :
    (descending key rows).Pairwise fun a b => key b < key a := by
  have hd : ((descending key rows).map key).Nodup := (descending_perm.map key).nodup_iff.mpr hn
  refine (descending_pairwise.and (List.pairwise_map.mp hd)).imp ?_
  intro a b h
  exact lt_of_le_of_ne h.1 (Ne.symm h.2)

/-- Rows in strictly descending order are sorted in one way. -/
theorem eq_of_strict (key : α → κ) {xs ys : List α} (hp : xs.Perm ys) (hx : xs.Pairwise fun a b => key b < key a)
    (hy : ys.Pairwise fun a b => key b < key a) : xs = ys :=
  hp.eq_of_pairwise (fun _ _ _ _ h h' => absurd h' (lt_asymm h)) hx hy

/-- The rows after a cursor, sorted, are those of all rows sorted. -/
theorem descending_after (hn : (rows.map key).Nodup) (cursor : Option κ) :
    descending key (after key rows cursor) = after key (descending key rows) cursor := by
  have hs : (after key rows cursor).Sublist rows := List.filter_sublist
  refine eq_of_strict key ?_ (descending_strict (hn.sublist (hs.map key)))
    ((descending_strict hn).sublist List.filter_sublist)
  exact descending_perm.trans (descending_perm.filter _).symm

/-- Where a sorted list is cut, the rows after the key of the last row before the cut are
those behind it. -/
theorem after_last {xs ys : List α} {a : α}
    (hs : (xs ++ a :: ys).Pairwise fun a b => key b < key a) :
    after key (xs ++ a :: ys) (some (key a)) = ys := by
  obtain ⟨-, hy, hxy⟩ := List.pairwise_append.mp hs
  have hxs : xs.filter (fun r => (some (key a)).all (key r < ·)) = [] := by
    refine List.filter_eq_nil_iff.mpr fun x hx => ?_
    simpa using (hxy x hx a List.mem_cons_self).le
  have hys : ys.filter (fun r => (some (key a)).all (key r < ·)) = ys := by
    refine List.filter_eq_self.mpr fun y h => ?_
    simpa using (List.pairwise_cons.mp hy).1 y h
  unfold after
  rw [List.filter_append, hxs, List.filter_cons_of_neg (by simp), hys]
  rfl

theorem after_after (c : κ) {cursor : Option κ} (h : ∀ d ∈ cursor, c ≤ d) (xs : List α) :
    after key (after key xs cursor) (some c) = after key xs (some c) := by
  unfold after
  rw [List.filter_filter]
  refine List.filter_congr fun x _ => ?_
  cases cursor with
  | none => simp
  | some d =>
    have hd := h d rfl
    by_cases hx : key x < c
    · simp [hx, hx.trans_le hd]
    · simp [hx]

/-- What is left behind a row of the rows after a cursor. -/
theorem descending_rest (hn : (rows.map key).Nodup) {cursor : Option κ} {xs ys : List α} {a : α}
    (hS : descending key (after key rows cursor) = xs ++ a :: ys) :
    descending key (after key rows (some (key a))) = ys := by
  have ha : a ∈ after key rows cursor :=
    descending_perm.mem_iff.mp (hS ▸ List.mem_append_right xs List.mem_cons_self)
  have hle : ∀ d ∈ cursor, key a ≤ d := by
    intro d hd
    cases hd
    have hlt : key a < d := by simpa using (List.mem_filter.mp ha).2
    exact hlt.le
  have hstrict : (xs ++ a :: ys).Pairwise fun a b => key b < key a :=
    hS ▸ descending_strict (hn.sublist (List.filter_sublist.map key))
  calc descending key (after key rows (some (key a)))
      = descending key (after key (after key rows cursor) (some (key a))) := by rw [after_after _ hle]
    _ = after key (descending key (after key rows cursor)) (some (key a)) :=
        descending_after (hn.sublist (List.filter_sublist.map key)) _
    _ = ys := by rw [hS, after_last hstrict]

/-- A server whose cursors are texts serves the pages, if each cursor it is sent stands for
the key of a row. -/
def Serves (key : α → κ) (rows : List α) (limit : Nat) (encode : α → τ)
    (serve : Option τ → Option (Page α τ)) : Prop :=
  ∀ last : Option α, (∀ r ∈ last, r ∈ rows) →
    serve (last.map encode) =
      let got := answered key rows limit (last.map key)
      some ⟨got.take limit, if got.length > limit then (got.take limit).getLast?.map encode else none⟩

/-- Following the cursors ends, and reads the rows after the first one in order. -/
theorem follow_eq {encode : α → τ} {serve : Option τ → Option (Page α τ)}
    (hs : Serves key rows limit encode serve) (hn : (rows.map key).Nodup) (hl : 1 ≤ limit) :
    ∀ (fuel : Nat) (last : Option α), (∀ r ∈ last, r ∈ rows) →
      (after key rows (last.map key)).length < fuel →
      follow serve fuel (last.map encode) = some (descending key (after key rows (last.map key))) := by
  intro fuel
  induction fuel with
  | zero => exact fun _ _ h => absurd h (Nat.not_lt_zero _)
  | succ fuel ih =>
    intro last hr hf
    have hserve := hs last hr
    generalize hgot : answered key rows limit (last.map key) = got at hserve
    unfold answered at hgot
    generalize hS : descending key (after key rows (last.map key)) = S at hgot ⊢
    subst hgot
    have hperm : S.Perm (after key rows (last.map key)) := hS ▸ descending_perm
    rw [follow, hserve, Option.bind_some]
    by_cases hmore : (S.take (limit + 1)).length > limit
    · -- the page is full and a row is left
      have hlen : limit < S.length := by
        rw [List.length_take] at hmore
        omega
      obtain ⟨xs, a, hcut⟩ : ∃ xs a, S.take limit = xs ++ [a] := by
        obtain ⟨xs, a, h⟩ := List.eq_nil_or_concat' (S.take limit) |>.resolve_left (by
          intro h
          rw [List.take_eq_nil_iff] at h
          rcases h with h | h
          · omega
          · simp [h] at hlen)
        exact ⟨xs, a, h⟩
      have hsplit : S = xs ++ a :: S.drop limit := by
        calc S = S.take limit ++ S.drop limit := (List.take_append_drop limit S).symm
          _ = xs ++ a :: S.drop limit := by rw [hcut, List.append_assoc, List.singleton_append]
      have ha : a ∈ after key rows (last.map key) :=
        hperm.mem_iff.mp (hsplit ▸ List.mem_append_right xs List.mem_cons_self)
      have hrest : descending key (after key rows (some (key a))) = S.drop limit :=
        descending_rest hn (hS.trans hsplit)
      have htake : (S.take (limit + 1)).take limit = xs ++ [a] := by
        rw [List.take_take, Nat.min_eq_left (Nat.le_succ limit), hcut]
      have hgoes := ih (some a) (fun r h => by
        cases h
        exact (List.mem_filter.mp ha).1) (by
        have := congrArg List.length hrest
        rw [descending_perm.length_eq, List.length_drop] at this
        have := hperm.length_eq
        simp only [Option.map_some]
        omega)
      simp only [Option.map_some] at hgoes
      simp only [if_pos hmore, htake, List.getLast?_append, List.getLast?_singleton, Option.some_or,
        Option.map_some, hgoes, hrest]
      rw [← hcut, List.take_append_drop]
    · -- the last page holds all that is left
      have hlen : S.length ≤ limit := by
        rw [List.length_take] at hmore
        omega
      simp only [if_neg hmore]
      rw [List.take_of_length_le (Nat.le_succ_of_le hlen), List.take_of_length_le hlen]

end Bazar.Pages
