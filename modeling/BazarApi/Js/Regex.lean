import Mathlib.Data.List.TakeDrop
import Mathlib.Data.List.TakeWhile

/- Regular expressions as ECMAScript matches them: by backtracking, leftmost and greedy. A match
   from a place in the text is the first of the ways to match from there (`results`), in the
   order in which backtracking meets them; a match in the text is the one from the first place
   that has any (`exec`). Classes are predicates, so the alphabet and the flags of a pattern are
   the reader's. Of repetitions there are those of a class, `[…]*`; other atoms are not repeated
   here, and so neither is an empty match nor a group. -/

inductive Regex (α : Type) where
  | char (p : α → Bool)
  | star (p : α → Bool)
  | seq (r s : Regex α)
  /-- A capture group. -/
  | group (n : Nat) (r : Regex α)
  /-- `^` and `$` without the flag `m`. -/
  | start
  | stop

namespace Regex
variable {α : Type}

/-- `[…]+`. -/
def plus (p : α → Bool) : Regex α := seq (char p) (star p)

/-- A place in a text, with what the groups captured on the way. -/
structure State (α : Type) where
  pos : Nat
  rest : List α
  groups : Nat → Option (List α)

/-- What a greedy repetition leaves, the longest first. -/
def leave (p : α → Bool) : Nat → List α → List (Nat × List α)
  | pos, [] => [(pos, [])]
  | pos, c :: rest => if p c then leave p (pos + 1) rest ++ [(pos, c :: rest)] else [(pos, c :: rest)]

/-- The ways to match from a place, the preferred first. -/
def results : Regex α → State α → List (State α)
  | char p, st =>
    match st.rest with
    | c :: rest => if p c then [{ st with pos := st.pos + 1, rest := rest }] else []
    | [] => []
  | star p, st => (leave p st.pos st.rest).map fun x => { st with pos := x.1, rest := x.2 }
  | seq r s, st => (results r st).flatMap fun st => results s st
  | group n r, st => (results r st).map fun after =>
      { after with groups := fun k =>
          if k = n then some (st.rest.take (after.pos - st.pos)) else after.groups k }
  | start, st => if st.pos = 0 then [st] else []
  | stop, st => if st.rest.isEmpty then [st] else []

/-- `RegExp.prototype.exec` from a place on: where the match begins and how it ends. -/
def execFrom (r : Regex α) : Nat → List α → Option (Nat × State α)
  | pos, [] => (results r ⟨pos, [], fun _ => none⟩).head?.map fun st => (pos, st)
  | pos, c :: rest =>
    match (results r ⟨pos, c :: rest, fun _ => none⟩).head? with
    | some st => some (pos, st)
    | none => execFrom r (pos + 1) rest

def exec (r : Regex α) (value : List α) : Option (Nat × State α) := execFrom r 0 value

/-- `String.prototype.replace` of a pattern without the flag `g`. -/
def replace (r : Regex α) (replacement value : List α) : List α :=
  match exec r value with
  | some (index, st) => value.take index ++ replacement ++ st.rest
  | none => value

section
variable {p : α → Bool} {pos : Nat} {c : α} {rest : List α} {groups : Nat → Option (List α)}

theorem leave_nil : leave p pos [] = [(pos, [])] := rfl

theorem leave_cons :
    leave p pos (c :: rest) =
      if p c then leave p (pos + 1) rest ++ [(pos, c :: rest)] else [(pos, c :: rest)] := rfl

@[simp] theorem results_char_nil : results (char p) ⟨pos, [], groups⟩ = [] := rfl

@[simp] theorem results_char_cons :
    results (char p) ⟨pos, c :: rest, groups⟩ =
      if p c then [⟨pos + 1, rest, groups⟩] else [] := rfl

@[simp] theorem results_seq (r s : Regex α) (st : State α) :
    results (seq r s) st = (results r st).flatMap (results s) := rfl

@[simp] theorem results_group (n : Nat) (r : Regex α) (st : State α) :
    results (group n r) st = (results r st).map fun after =>
      { after with groups := fun k =>
          if k = n then some (st.rest.take (after.pos - st.pos)) else after.groups k } := rfl

@[simp] theorem results_start (st : State α) :
    results start st = if st.pos = 0 then [st] else [] := rfl

@[simp] theorem results_stop (st : State α) :
    results stop st = if st.rest.isEmpty then [st] else [] := rfl

theorem execFrom_nil (r : Regex α) :
    execFrom r pos [] = (results r ⟨pos, [], fun _ => none⟩).head?.map fun st => (pos, st) := rfl

theorem execFrom_cons (r : Regex α) :
    execFrom r pos (c :: rest) =
      match (results r ⟨pos, c :: rest, fun _ => none⟩).head? with
      | some st => some (pos, st)
      | none => execFrom r (pos + 1) rest := rfl

end

/-! Repetitions. -/

section
variable {p q : α → Bool} {pos : Nat} {rest : List α} {groups : Nat → Option (List α)}

/-- A continuation that fails wherever the class still holds is tried with success after the
    longest repetition only. -/
theorem star_seq (p : α → Bool) (r : Regex α) (st : State α)
    (hr : ∀ st : State α, ∀ c t, st.rest = c :: t → p c = true → results r st = []) :
    results (seq (star p) r) st =
      results r { st with pos := st.pos + (st.rest.takeWhile p).length,
                          rest := st.rest.dropWhile p } := by
  obtain ⟨pos, rest, groups⟩ := st
  show ((leave p pos rest).map _).flatMap _ = _
  induction rest generalizing pos with
  | nil => simp [leave_nil]
  | cons c rest ih =>
    by_cases h : p c = true
    · have hnow : results r ⟨pos, c :: rest, groups⟩ = [] := hr _ c rest rfl h
      have ih := ih (pos + 1)
      rw [leave_cons, if_pos h, List.map_append, List.flatMap_append, ih]
      simp only [List.map_cons, List.map_nil, List.flatMap_cons, List.flatMap_nil, hnow,
        List.takeWhile_cons_of_pos h, List.dropWhile_cons_of_pos h, List.length_cons,
        List.append_nil]
      congr 2
      omega
    · simp [leave_cons, h]

/-- `[…]*$`. -/
theorem star_stop (p : α → Bool) (st : State α) :
    results (seq (star p) stop) st =
      if st.rest.all p then [{ st with pos := st.pos + st.rest.length, rest := [] }] else [] := by
  rw [star_seq]
  · by_cases h : st.rest.all p = true
    · have htake : st.rest.takeWhile p = st.rest := by
        rw [List.takeWhile_eq_self_iff]
        simpa using h
      have hdrop : st.rest.dropWhile p = [] := by
        rw [List.dropWhile_eq_nil_iff]
        simpa using h
      simp [h, htake, hdrop]
    · have hdrop : (st.rest.dropWhile p).isEmpty = false := by
        rw [List.isEmpty_eq_false_iff, ne_eq, List.dropWhile_eq_nil_iff]
        simpa using h
      simp [h, hdrop]
  · intro st c t hrest _
    simp [hrest]

end

/-! Patterns without `^`. -/

/-- The pattern does not look where it is. -/
def Floating (r : Regex α) : Prop :=
  ∀ pos pos' rest groups,
    (results r ⟨pos, rest, groups⟩).map State.rest = (results r ⟨pos', rest, groups⟩).map State.rest

theorem Floating.head? {r : Regex α} (hr : Floating r) (pos pos' : Nat) (rest : List α)
    (groups : Nat → Option (List α)) :
    (results r ⟨pos, rest, groups⟩).head?.map State.rest =
      (results r ⟨pos', rest, groups⟩).head?.map State.rest := by
  rw [← List.head?_map, ← List.head?_map, hr pos pos']

/-- A search that begins later in the count ends later by as much. -/
theorem execFrom_succ {r : Regex α} (hr : Floating r) (pos : Nat) (value : List α) :
    (execFrom r (pos + 1) value).map (fun x => (x.1, x.2.rest)) =
      (execFrom r pos value).map fun x => (x.1 + 1, x.2.rest) := by
  induction value generalizing pos with
  | nil =>
    have h := hr.head? (pos + 1) pos [] fun _ => none
    rw [execFrom_nil, execFrom_nil]
    cases h₁ : (results r ⟨pos + 1, [], fun _ => none⟩).head? <;>
      cases h₂ : (results r ⟨pos, [], fun _ => none⟩).head? <;>
      simp [h₁, h₂] at h ⊢
    exact h
  | cons c rest ih =>
    have h := hr.head? (pos + 1) pos (c :: rest) fun _ => none
    rw [execFrom_cons, execFrom_cons]
    cases h₁ : (results r ⟨pos + 1, c :: rest, fun _ => none⟩).head? <;>
      cases h₂ : (results r ⟨pos, c :: rest, fun _ => none⟩).head? <;>
      simp [h₁, h₂] at h ⊢
    · exact ih (pos + 1)
    · exact h

/-- The replacement stands where the text begins to match, or the first unit stays. -/
theorem replace_cons {r : Regex α} (hr : Floating r) (replacement : List α) (c : α)
    (rest : List α) :
    replace r replacement (c :: rest) =
      match (results r ⟨0, c :: rest, fun _ => none⟩).head? with
      | some st => replacement ++ st.rest
      | none => c :: replace r replacement rest := by
  unfold replace exec
  rw [execFrom_cons]
  cases (results r ⟨0, c :: rest, fun _ => none⟩).head? with
  | some st => rfl
  | none =>
    have h := execFrom_succ hr 0 rest
    simp only [Nat.zero_add] at h ⊢
    cases h₁ : execFrom r 1 rest with
    | none =>
      cases h₂ : execFrom r 0 rest with
      | none => rfl
      | some y => simp [h₁, h₂] at h
    | some x =>
      cases h₂ : execFrom r 0 rest with
      | none => simp [h₁, h₂] at h
      | some y =>
        simp only [h₁, h₂, Option.map_some, Option.some.injEq, Prod.mk.injEq] at h
        simp [h.1, h.2]

theorem replace_nil (r : Regex α) (replacement : List α) :
    replace r replacement [] =
      match (results r ⟨0, [], fun _ => none⟩).head? with
      | some st => replacement ++ st.rest
      | none => [] := by
  unfold replace exec
  rw [execFrom_nil]
  cases (results r ⟨0, [], fun _ => none⟩).head? <;> rfl

/-! Patterns with `^`. -/

theorem exec_start (r : Regex α) (value : List α) :
    exec (seq start r) value =
      (results r ⟨0, value, fun _ => none⟩).head?.map fun st => (0, st) := by
  have hlater (pos : Nat) (rest : List α) : execFrom (seq start r) (pos + 1) rest = none := by
    induction rest generalizing pos with
    | nil => simp [execFrom_nil]
    | cons c rest ih =>
      rw [execFrom_cons, ih]
      simp
  unfold exec
  cases value with
  | nil => simp [execFrom_nil]
  | cons c rest =>
    rw [execFrom_cons, Nat.zero_add]
    simp only [results_seq, results_start, if_true, List.flatMap_cons, List.flatMap_nil, List.append_nil]
    cases (results r ⟨0, c :: rest, fun _ => none⟩).head? with
    | some st => rfl
    | none => exact hlater 0 rest

/-! Sequences. -/

theorem seq_assoc (r s t : Regex α) (st : State α) :
    results (seq (seq r s) t) st = results (seq r (seq s t)) st := by
  show ((results r st).flatMap (results s)).flatMap (results t) =
    (results r st).flatMap fun st => (results s st).flatMap (results t)
  exact List.flatMap_assoc

theorem seq_char (p : α → Bool) (r : Regex α) (pos : Nat) (rest : List α)
    (groups : Nat → Option (List α)) :
    results (seq (char p) r) ⟨pos, rest, groups⟩ =
      match rest with
      | c :: rest => if p c then results r ⟨pos + 1, rest, groups⟩ else []
      | [] => [] := by
  cases rest with
  | nil => rfl
  | cons c rest =>
    show (results (char p) _).flatMap (results r) = _
    by_cases h : p c = true <;> simp [h]

/-- The groups after a capture. -/
def capture (groups : Nat → Option (List α)) (n : Nat) (value : List α) : Nat → Option (List α) :=
  fun k => if k = n then some value else groups k

theorem seq_group_char (n : Nat) (p : α → Bool) (r : Regex α) (pos : Nat) (rest : List α)
    (groups : Nat → Option (List α)) :
    results (seq (group n (char p)) r) ⟨pos, rest, groups⟩ =
      match rest with
      | c :: rest => if p c then results r ⟨pos + 1, rest, capture groups n [c]⟩ else []
      | [] => [] := by
  cases rest with
  | nil => rfl
  | cons c rest =>
    show (results (group n (char p)) _).flatMap (results r) = _
    by_cases h : p c = true
    · simp only [results_char_cons, results_group, h, if_true, List.map_cons, List.map_nil, List.flatMap_cons,
        List.flatMap_nil, List.append_nil, Nat.add_sub_cancel_left, List.take_succ_cons,
        List.take_zero]
      rfl
    · simp [h]

/-- `(…)$`: the group is what was left of the text. -/
theorem group_stop (n : Nat) (r : Regex α) (st : State α) :
    results (seq (group n r) stop) st =
      (results (seq r stop) st).map fun after =>
        { after with groups := capture after.groups n (st.rest.take (after.pos - st.pos)) } := by
  show ((results r st).map _).flatMap (results stop) = ((results r st).flatMap (results stop)).map _
  induction results r st with
  | nil => rfl
  | cons after rest ih =>
    rw [List.map_cons, List.flatMap_cons, List.flatMap_cons, List.map_append, ih]
    congr 1
    by_cases h : after.rest.isEmpty = true
    · simp only [results_stop, h, if_true, List.map_cons, List.map_nil]
      rfl
    · simp [h]

/-! Two shapes of patterns that end with `$`. -/

/-- What is left of a text without its longest end that begins with a unit of `p` and goes on
    with units of `q`. -/
def cutTail (p q : α → Bool) : List α → List α
  | [] => []
  | c :: rest => if p c && rest.all q then [] else c :: cutTail p q rest

/-- A class for each unit of the end of a text. -/
def ending : List (α → Bool) → Regex α
  | [] => stop
  | p :: ps => seq (char p) (ending ps)

def agree : List (α → Bool) → List α → Bool
  | [], [] => true
  | p :: ps, c :: rest => p c && agree ps rest
  | _, _ => false

section
variable {p q : α → Bool} {ps : List (α → Bool)} {c : α} {rest : List α}

theorem cutTail_nil : cutTail p q [] = [] := rfl

theorem cutTail_cons :
    cutTail p q (c :: rest) = if p c && rest.all q then [] else c :: cutTail p q rest := rfl

@[simp] theorem ending_nil : ending ([] : List (α → Bool)) = stop := rfl

@[simp] theorem ending_cons : ending (p :: ps) = seq (char p) (ending ps) := rfl

@[simp] theorem agree_nil : agree ([] : List (α → Bool)) [] = true := rfl

@[simp] theorem agree_none : agree [] (c :: rest) = false := rfl

@[simp] theorem agree_short : agree (p :: ps) [] = false := rfl

@[simp] theorem agree_cons : agree (p :: ps) (c :: rest) = (p c && agree ps rest) := rfl

end

section
variable {p q : α → Bool} {ps : List (α → Bool)}

theorem results_tail (p q : α → Bool) (st : State α) :
    results (seq (char p) (seq (star q) stop)) st =
      match st.rest with
      | c :: rest =>
        if p c && rest.all q then [{ st with pos := st.pos + 1 + rest.length, rest := [] }] else []
      | [] => [] := by
  obtain ⟨pos, rest, groups⟩ := st
  cases rest with
  | nil => rfl
  | cons c rest =>
    show (results (char p) _).flatMap (results (seq (star q) stop)) = _
    by_cases h : p c = true
    · simp only [results_char_cons, h, if_true, List.flatMap_cons, List.flatMap_nil, List.append_nil,
        Bool.true_and]
      exact star_stop q ⟨pos + 1, rest, groups⟩
    · simp [h]

theorem floating_tail (p q : α → Bool) : Floating (seq (char p) (seq (star q) stop)) := by
  intro pos pos' rest groups
  rw [results_tail, results_tail]
  cases rest with
  | nil => rfl
  | cons c rest =>
    dsimp only
    split <;> rfl

/-- `replace(/[p][q]*$/, '')`. -/
theorem replace_tail (p q : α → Bool) (value : List α) :
    replace (seq (char p) (seq (star q) stop)) [] value = cutTail p q value := by
  induction value with
  | nil => rw [replace_nil, results_tail]; rfl
  | cons c rest ih =>
    rw [replace_cons (floating_tail p q), results_tail, ih, cutTail_cons]
    cases h : p c && rest.all q <;> simp [h]

theorem results_ending (ps : List (α → Bool)) (st : State α) :
    results (ending ps) st =
      if agree ps st.rest then [{ st with pos := st.pos + ps.length, rest := [] }] else [] := by
  induction ps generalizing st with
  | nil =>
    obtain ⟨pos, rest, groups⟩ := st
    cases rest <;> simp
  | cons p ps ih =>
    obtain ⟨pos, rest, groups⟩ := st
    cases rest with
    | nil => simp
    | cons c rest =>
      show (results (char p) _).flatMap (results (ending ps)) = _
      by_cases h : p c = true
      · simp only [results_char_cons, h, if_true, List.flatMap_cons, List.flatMap_nil, List.append_nil, ih,
          agree_cons, Bool.true_and, List.length_cons]
        split
        · congr 2
          omega
        · rfl
      · simp [h]

theorem floating_ending (ps : List (α → Bool)) : Floating (ending ps) := by
  intro pos pos' rest groups
  rw [results_ending, results_ending]
  dsimp only
  split <;> rfl

theorem agree_length {rest : List α} (h : agree ps rest = true) : rest.length = ps.length := by
  induction ps generalizing rest with
  | nil => cases rest <;> simp at h ⊢
  | cons p ps ih =>
    cases rest with
    | nil => simp at h
    | cons c rest =>
      rw [agree_cons, Bool.and_eq_true] at h
      simp [ih h.2]

/-- `replace(/…$/, '')` with a class for each unit. -/
theorem replace_ending (ps : List (α → Bool)) (value : List α) :
    replace (ending ps) [] value =
      if agree ps (value.drop (value.length - ps.length)) then
        value.take (value.length - ps.length)
      else value := by
  induction value with
  | nil =>
    rw [replace_nil, results_ending]
    simp only [List.length_nil, Nat.zero_sub, List.drop_nil, List.take_nil]
    cases agree ps [] <;> simp
  | cons c rest ih =>
    rw [replace_cons (floating_ending ps), results_ending, ih]
    dsimp only
    by_cases hlen : ps.length ≤ rest.length
    · -- The end of the text is an end of what follows the first unit.
      have hnot : ¬ agree ps (c :: rest) = true := by
        intro h
        have := agree_length h
        simp at this
        omega
      have hsub : (c :: rest).length - ps.length = rest.length - ps.length + 1 := by
        simp
        omega
      rw [if_neg hnot, hsub, List.drop_succ_cons, List.take_succ_cons]
      dsimp only [List.head?_nil]
      split <;> rfl
    · have hsub : (c :: rest).length - ps.length = 0 := by
        simp
        omega
      have hrest : ¬ agree ps (rest.drop (rest.length - ps.length)) = true := by
        intro h
        have := agree_length h
        simp at this
        omega
      rw [hsub, List.drop_zero, List.take_zero, if_neg hrest]
      cases agree ps (c :: rest) <;> simp

theorem cutTail_append {pre post : List α} {x : α} (hp : p x = false) (hq : q x = false) :
    cutTail p q (pre ++ x :: post) = pre ++ x :: cutTail p q post := by
  induction pre with
  | nil => simp [cutTail_cons, hp]
  | cons c pre ih =>
    have hall : (pre ++ x :: post).all q = false := by simp [hq]
    rw [List.cons_append, cutTail_cons, hall, Bool.and_false, ih]
    rfl

theorem cutTail_of_all {value : List α} (h : value.all q = true) :
    cutTail p q value = value.takeWhile fun c => !p c := by
  induction value with
  | nil => rfl
  | cons c rest ih =>
    rw [List.all_cons, Bool.and_eq_true] at h
    rw [cutTail_cons, h.2, Bool.and_true, ih h.2]
    cases hc : p c <;> simp [hc]

theorem cutTail_concat (p : α → Bool) (value : List α) (x : α) :
    cutTail p p (value ++ [x]) = if p x then cutTail p p value else value ++ [x] := by
  induction value with
  | nil => cases hx : p x <;> simp [cutTail_nil, cutTail_cons, hx]
  | cons c rest ih =>
    rw [List.cons_append, cutTail_cons, List.all_append, ih, cutTail_cons]
    cases hx : p x <;> simp [hx]

end

end Regex
