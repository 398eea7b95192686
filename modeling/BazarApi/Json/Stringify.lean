import BazarApi.Json.Canonical

/- `JSON.stringify` of a tree: the members of an object in the order they stand. The text
   tells the tree (`stringify_unique`), the order of the members included. -/
namespace Json

variable {N : Type}

section
variable (number : N → JsString)

mutual

/-- `JSON.stringify`. -/
def Tree.stringify : Tree N → JsString
  | .null => text "null"
  | .bool b => if b then text "true" else text "false"
  | .num n => number n
  | .str s => quote s
  | .arr xs => unit '[' :: (comma (stringifyAll xs) ++ [unit ']'])
  | .obj fields => unit '\x7b' :: (comma (stringifyFields fields) ++ [unit '\x7d'])

def stringifyAll : List (Tree N) → List JsString
  | [] => []
  | x :: xs => Tree.stringify x :: stringifyAll xs

def stringifyFields : List (JsString × Tree N) → List JsString
  | [] => []
  | (k, x) :: fields => member (k, Tree.stringify x) :: stringifyFields fields

end

theorem stringifyAll_eq (xs : List (Tree N)) : stringifyAll number xs = xs.map (Tree.stringify number) := by
  induction xs with
  | nil => rfl
  | cons x xs ih => rw [stringifyAll, ih, List.map_cons]

/-- A member as it is printed. -/
def field (f : JsString × Tree N) : JsString := member (f.1, Tree.stringify number f.2)

theorem stringifyFields_eq (fields : List (JsString × Tree N)) :
    stringifyFields number fields = fields.map (field number) := by
  induction fields with
  | nil => rfl
  | cons f fields ih =>
    obtain ⟨k, x⟩ := f
    rw [stringifyFields, ih, List.map_cons]
    rfl

end

section
variable {number : N → JsString}

/-- The first unit does not depend on the order of members. -/
theorem stringify_first (hn : NumberLiterals number) (t : Tree N) :
    ∃ c s, Tree.stringify number t = c :: s ∧ kindOf c = t.kind := by
  cases t with
  | null => exact serialize_first hn .null
  | bool b => exact serialize_first hn (.bool b)
  | num n => exact serialize_first hn (.num n)
  | str s => exact serialize_first hn (.str s)
  | arr xs => exact ⟨_, _, rfl, rfl⟩
  | obj fields => exact ⟨_, _, rfl, rfl⟩

/-- A text is read in one way. -/
theorem stringify_unique (hn : NumberLiterals number) (a : Tree N) :
    ∀ b x y, Delim x → Delim y → Tree.stringify number a ++ x = Tree.stringify number b ++ y →
      a = b ∧ x = y := by
  have kind : ∀ {a b : Tree N} {x y : JsString},
      Tree.stringify number a ++ x = Tree.stringify number b ++ y → a.kind = b.kind := by
    intro a b x y h
    obtain ⟨c, s, ha, hc⟩ := stringify_first hn a
    obtain ⟨c', s', hb, hc'⟩ := stringify_first hn b
    rw [ha, hb] at h
    rw [← hc, ← hc', (List.cons.inj h).1]
  induction a using Tree.induct with
  | null =>
    intro b x y hx hy h
    have hkind := kind h
    cases b <;> simp [Tree.kind] at hkind
    exact ⟨rfl, (serialize_unique hn .null .null x y hx hy h).2⟩
  | bool b =>
    intro b' x y hx hy h
    have hkind := kind h
    cases b' <;> simp [Tree.kind] at hkind
    rename_i b'
    obtain ⟨hs, hxy⟩ := serialize_unique hn (.bool b) (.bool b') x y hx hy h
    cases hs
    exact ⟨rfl, hxy⟩
  | num n =>
    intro b x y hx hy h
    have hkind := kind h
    cases b <;> simp [Tree.kind] at hkind
    obtain ⟨rfl, hxy⟩ := number_append_inj hn hx hy h
    exact ⟨rfl, hxy⟩
  | str s =>
    intro b x y _ _ h
    have hkind := kind h
    cases b <;> simp [Tree.kind] at hkind
    obtain ⟨rfl, hxy⟩ := quote_append_inj h
    exact ⟨rfl, hxy⟩
  | arr xs ih =>
    intro b x y _ _ h
    have hkind := kind h
    cases b <;> simp [Tree.kind] at hkind
    rename_i ys
    have nonempty : ∀ zs : List (Tree N), ∀ z ∈ zs,
        ∃ c s, Tree.stringify number z = c :: s ∧ c ≠ unit ']' := by
      intro zs z _
      obtain ⟨c, s, hz, hc⟩ := stringify_first hn z
      refine ⟨c, s, hz, ?_⟩
      rintro rfl
      have hclose : kindOf (unit ']') = 6 := by decide
      rw [hclose] at hc
      cases z <;> cases hc
    simp only [Tree.stringify, stringifyAll_eq, List.cons_append, List.append_assoc, List.nil_append,
      List.cons.injEq, true_and] at h
    obtain ⟨hxs, hxy⟩ := comma_unique (by decide) (nonempty xs) (nonempty ys)
      (fun a ha b _ => ih a ha b) h
    rw [List.forall₂_eq_eq_eq] at hxs
    exact ⟨congrArg Tree.arr hxs, hxy⟩
  | obj fs ih =>
    intro b x y _ _ h
    have hkind := kind h
    cases b <;> simp [Tree.kind] at hkind
    rename_i gs
    have nonempty : ∀ zs : List (JsString × Tree N), ∀ z ∈ zs,
        ∃ c s, field number z = c :: s ∧ c ≠ unit '\x7d' :=
      fun zs z _ => ⟨_, _, rfl, by decide⟩
    simp only [Tree.stringify, stringifyFields_eq, List.cons_append, List.append_assoc,
      List.nil_append, List.cons.injEq, true_and] at h
    obtain ⟨hfs, hxy⟩ := comma_unique (by decide) (nonempty fs) (nonempty gs) (R := Eq)
      (fun f hf g _ x y hx hy he => by
        simp only [field, member, List.append_assoc, List.cons_append] at he
        obtain ⟨hk, he⟩ := quote_append_inj he
        obtain ⟨hv, hxy⟩ := ih f hf g.2 x y hx hy (List.cons.inj he).2
        exact ⟨Prod.ext hk hv, hxy⟩) h
    rw [List.forall₂_eq_eq_eq] at hfs
    exact ⟨congrArg Tree.obj hfs, hxy⟩

/-- Different trees have different texts. -/
theorem stringify_injective (hn : NumberLiterals number) : Function.Injective (Tree.stringify number) := by
  intro a b h
  exact (stringify_unique hn a b [] [] .nil .nil (by rw [h])).1

end

end Json
