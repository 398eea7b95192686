import Mathlib.Data.List.Sort
import Mathlib.Data.List.Forall2
import Mathlib.Data.Nat.Digits.Defs
import Mathlib.Tactic.IntervalCases
import BazarApi.Json.Quote

/- `common/canonical-json.ts`. A JSON tree is printed with the keys of every object
   sorted by code units, and nothing between tokens. The text is read back in one way
   only (`serialize_unique`): each value's first unit tells its kind, a string's literal
   says where it ends, a number's ends where its characters do. So two trees have one
   text exactly when they are the same up to the order of keys.

   `number` is `JSON.stringify` of a finite number, with -0 taken for 0; values that
   JSON cannot hold are no trees. -/
namespace Json

/-- Trees of null, booleans, numbers, strings, arrays and plain objects. -/
inductive Tree (N : Type) where
  | null
  | bool (b : Bool)
  | num (n : N)
  | str (s : JsString)
  | arr (xs : List (Tree N))
  | obj (fields : List (JsString × Tree N))

variable {N : Type}

/-- The keys of every object are distinct, as the properties of an object are. -/
inductive Tree.Plain : Tree N → Prop where
  | null : Plain .null
  | bool (b : Bool) : Plain (.bool b)
  | num (n : N) : Plain (.num n)
  | str (s : JsString) : Plain (.str s)
  | arr {xs : List (Tree N)} (h : ∀ x ∈ xs, Plain x) : Plain (.arr xs)
  | obj {fields : List (JsString × Tree N)} (hk : (fields.map Prod.fst).Nodup)
    (h : ∀ f ∈ fields, Plain f.2) : Plain (.obj fields)

/-- Equal up to the order of object keys, at every depth. -/
inductive Tree.Same : Tree N → Tree N → Prop where
  | null : Same .null .null
  | bool (b : Bool) : Same (.bool b) (.bool b)
  | num (n : N) : Same (.num n) (.num n)
  | str (s : JsString) : Same (.str s) (.str s)
  | arr {xs ys : List (Tree N)} (hl : xs.length = ys.length)
    (h : ∀ p ∈ xs.zip ys, Same p.1 p.2) : Same (.arr xs) (.arr ys)
  | obj {fs fs' gs gs' : List (JsString × Tree N)} (hf : fs.Perm fs') (hg : gs.Perm gs')
    (hk : fs'.map Prod.fst = gs'.map Prod.fst) (h : ∀ p ∈ fs'.zip gs', Same p.1.2 p.2.2) :
    Same (.obj fs) (.obj gs)

/-! Printing. -/

/-- `keys.sort()`, on the members already printed. -/
def sortMembers (ms : List (JsString × JsString)) : List (JsString × JsString) :=
  ms.insertionSort fun a b => a.1 ≤ b.1

/-- One member: its key and the text of its value. -/
def member (m : JsString × JsString) : JsString := quote m.1 ++ unit ':' :: m.2

def comma (ts : List JsString) : JsString := [unit ','].intercalate ts

section
variable (number : N → JsString)

mutual

/-- `serialize`. -/
def serialize : Tree N → JsString
  | .null => text "null"
  | .bool b => if b then text "true" else text "false"
  | .num n => number n
  | .str s => quote s
  | .arr xs => unit '[' :: (comma (serializeAll xs) ++ [unit ']'])
  | .obj fields =>
    unit '{' :: (comma ((sortMembers (serializeFields fields)).map member) ++ [unit '}'])

def serializeAll : List (Tree N) → List JsString
  | [] => []
  | x :: xs => serialize x :: serializeAll xs

def serializeFields : List (JsString × Tree N) → List (JsString × JsString)
  | [] => []
  | (k, x) :: fields => (k, serialize x) :: serializeFields fields

end

/-- `canonicalJson`. -/
def canonicalJson (value : Tree N) : JsString := serialize number value

/-- `canonicalDigest`: SHA-256 of the canonical text. -/
def canonicalDigest (sha256Hex : JsString → String) (value : Tree N) : String :=
  sha256Hex (canonicalJson number value)

theorem serializeAll_eq (xs : List (Tree N)) : serializeAll number xs = xs.map (serialize number) := by
  induction xs with
  | nil => rfl
  | cons x xs ih => rw [serializeAll, ih, List.map_cons]

/-- A member with its value printed. -/
def printed (f : JsString × Tree N) : JsString × JsString := (f.1, serialize number f.2)

theorem serializeFields_eq (fields : List (JsString × Tree N)) :
    serializeFields number fields = fields.map (printed number) := by
  induction fields with
  | nil => rfl
  | cons f fields ih =>
    obtain ⟨k, x⟩ := f
    rw [serializeFields, ih, List.map_cons]
    rfl

end

/-- What may stand in the literal of a number. -/
def IsNumberUnit (c : CodeUnit) : Prop := c ∈ text "-+.eE0123456789"

instance (c : CodeUnit) : Decidable (IsNumberUnit c) := inferInstanceAs (Decidable (_ ∈ _))

/-- `JSON.stringify` on numbers is injective and yields literals: a sign or a digit first,
number units only. -/
structure NumberLiterals (number : N → JsString) : Prop where
  injective : Function.Injective number
  first : ∀ n, ∃ c s, number n = c :: s ∧ c ∈ text "-0123456789"
  units : ∀ n, ∀ c ∈ number n, IsNumberUnit c

/-! Integers. -/

/-- The decimal digits of a number, the first one first. -/
def natLiteral (n : Nat) : JsString :=
  if n = 0 then [hexDigit 0] else ((Nat.digits 10 n).map hexDigit).reverse

/-- `JSON.stringify` of an integer small enough to be printed without an exponent. -/
def intLiteral : Int → JsString
  | .ofNat n => natLiteral n
  | .negSucc n => unit '-' :: natLiteral (n + 1)

theorem hexDigit_mem {d : Nat} (hd : d < 10) : hexDigit d ∈ text "0123456789" := by
  interval_cases d <;> decide

theorem natLiteral_mem (n : Nat) : ∀ c ∈ natLiteral n, c ∈ text "0123456789" := by
  intro c hc
  unfold natLiteral at hc
  split at hc
  · obtain rfl := List.mem_singleton.mp hc
    exact hexDigit_mem (by decide)
  · obtain ⟨d, hd, rfl⟩ := List.mem_map.mp (List.mem_reverse.mp hc)
    exact hexDigit_mem (Nat.digits_lt_base (by decide) hd)

theorem natLiteral_cons (n : Nat) : ∃ c s, natLiteral n = c :: s := by
  cases h : natLiteral n with
  | cons c s => exact ⟨c, s, rfl⟩
  | nil =>
    unfold natLiteral at h
    split at h
    · cases h
    · rename_i hn
      rw [List.reverse_eq_nil_iff, List.map_eq_nil_iff, Nat.digits_eq_nil_iff_eq_zero] at h
      exact absurd h hn

theorem natLiteral_inj {n m : Nat} (h : natLiteral n = natLiteral m) : n = m := by
  have value : ∀ n, Nat.ofDigits 10 ((natLiteral n).map hexValue).reverse = n := by
    intro n
    unfold natLiteral
    split
    · rename_i hn
      rw [hn]
      rfl
    · have hv : ∀ d ∈ Nat.digits 10 n, (hexValue ∘ hexDigit) d = id d := by
        intro d hd
        have := Nat.digits_lt_base (by decide : 1 < 10) hd
        interval_cases d <;> decide
      rw [← List.map_reverse, List.reverse_reverse, List.map_map, List.map_congr_left hv, List.map_id,
        Nat.ofDigits_digits]
  rw [← value n, h, value]

/-- Integers are printed as the numbers of a text must be. -/
theorem intLiteral_literals : NumberLiterals intLiteral where
  injective := by
    have hminus : ∀ {n m : Nat}, natLiteral n ≠ unit '-' :: natLiteral m := by
      intro n m h
      have := natLiteral_mem n (unit '-') (by rw [h]; exact List.mem_cons_self)
      exact absurd this (by decide)
    intro a b h
    cases a with
    | ofNat n =>
      cases b with
      | ofNat m => rw [natLiteral_inj h]
      | negSucc m => exact absurd h hminus
    | negSucc n =>
      cases b with
      | ofNat m => exact absurd h.symm hminus
      | negSucc m => rw [Nat.succ_inj.mp (natLiteral_inj (List.cons.inj h).2)]
  first := by
    intro n
    cases n with
    | ofNat n =>
      obtain ⟨c, s, h⟩ := natLiteral_cons n
      have hc := natLiteral_mem n c (by rw [h]; exact List.mem_cons_self)
      exact ⟨c, s, h, List.mem_cons_of_mem _ hc⟩
    | negSucc n => exact ⟨_, _, rfl, by decide⟩
  units := by
    have digit : ∀ n, ∀ c ∈ natLiteral n, IsNumberUnit c := by
      intro n c hc
      have hmem := natLiteral_mem n c hc
      have hall : (text "0123456789").all (fun c => IsNumberUnit c) = true := by decide
      exact of_decide_eq_true (List.all_eq_true.mp hall c hmem)
    intro n c hc
    cases n with
    | ofNat n => exact digit n c hc
    | negSucc n =>
      rcases List.mem_cons.mp hc with rfl | hc
      · decide
      · exact digit _ c hc

/-! Trees by induction. -/

/-- Induction over a tree: every element, and every value of a member. -/
theorem Tree.induct {P : Tree N → Prop} (null : P .null) (bool : ∀ b, P (.bool b))
    (num : ∀ n, P (.num n)) (str : ∀ s, P (.str s))
    (arr : ∀ xs, (∀ x ∈ xs, P x) → P (.arr xs))
    (obj : ∀ fields : List (JsString × Tree N), (∀ f ∈ fields, P f.2) → P (.obj fields)) :
    ∀ t, P t := by
  intro t
  refine @Tree.rec N P (fun xs => ∀ x ∈ xs, P x) (fun fs => ∀ f ∈ fs, P f.2) (fun f => P f.2)
    null bool num str arr obj ?_ ?_ ?_ ?_ ?_ t
  · intro x hx
    cases hx
  · intro x xs hx hxs y hy
    rcases List.mem_cons.mp hy with rfl | hy
    · exact hx
    · exact hxs y hy
  · intro f hf
    cases hf
  · intro f fs hf hfs g hg
    rcases List.mem_cons.mp hg with rfl | hg
    · exact hf
    · exact hfs g hg
  · intro k x hx
    exact hx

/-! Unique readability. -/

/-- What may follow a value. -/
def Delim (x : JsString) : Prop := ∀ c ∈ x.head?, c ∈ text ",]\x7d"

theorem Delim.nil : Delim [] := by
  intro c hc
  cases hc

theorem Delim.cons {c : CodeUnit} (hc : c ∈ text ",]\x7d") (x : JsString) : Delim (c :: x) := by
  intro c' hc'
  cases hc'
  exact hc

/-- The kind of a tree, which the first unit of its text tells. -/
def Tree.kind : Tree N → Nat
  | .null => 0
  | .bool _ => 1
  | .num _ => 2
  | .str _ => 3
  | .arr _ => 4
  | .obj _ => 5

def kindOf (c : CodeUnit) : Nat :=
  if c = unit 'n' then 0 else if c ∈ text "tf" then 1 else if c ∈ text "-0123456789" then 2
  else if c = unit '"' then 3 else if c = unit '[' then 4 else if c = unit '{' then 5 else 6

section
variable {number : N → JsString}

theorem serialize_first (hn : NumberLiterals number) (t : Tree N) :
    ∃ c s, serialize number t = c :: s ∧ kindOf c = t.kind := by
  cases t with
  | null => exact ⟨unit 'n', text "ull", rfl, rfl⟩
  | bool b =>
    cases b with
    | false => exact ⟨unit 'f', text "alse", rfl, rfl⟩
    | true => exact ⟨unit 't', text "rue", rfl, rfl⟩
  | num n =>
    obtain ⟨c, s, he, hc⟩ := hn.first n
    refine ⟨c, s, he, ?_⟩
    have hkind : (text "-0123456789").all (fun c => kindOf c = 2) = true := by decide
    exact of_decide_eq_true (List.all_eq_true.mp hkind c hc)
  | str s => exact ⟨_, _, rfl, rfl⟩
  | arr xs => exact ⟨_, _, rfl, rfl⟩
  | obj fields => exact ⟨_, _, rfl, rfl⟩

theorem kind_eq (hn : NumberLiterals number) {a b : Tree N} {x y : JsString}
    (h : serialize number a ++ x = serialize number b ++ y) : a.kind = b.kind := by
  obtain ⟨c, s, ha, hc⟩ := serialize_first hn a
  obtain ⟨c', s', hb, hc'⟩ := serialize_first hn b
  rw [ha, hb] at h
  rw [← hc, ← hc', (List.cons.inj h).1]

theorem number_append_inj (hn : NumberLiterals number) {n m : N} {x y : JsString} (hx : Delim x)
    (hy : Delim y) (h : number n ++ x = number m ++ y) : n = m ∧ x = y := by
  have stop : ∀ {z : JsString}, Delim z → z.takeWhile (fun c => decide (IsNumberUnit c)) = [] := by
    intro z hz
    cases z with
    | nil => rfl
    | cons c z =>
      have hno : (text ",]\x7d").all (fun c => ¬ IsNumberUnit c) = true := by decide
      have hc : ¬ IsNumberUnit c := of_decide_eq_true (List.all_eq_true.mp hno c (hz c rfl))
      rw [List.takeWhile_cons, if_neg (by simpa using hc)]
  have whole : ∀ {k : N} {z : JsString}, Delim z →
      (number k ++ z).takeWhile (fun c => decide (IsNumberUnit c)) = number k := by
    intro k z hz
    rw [List.takeWhile_append_of_pos (fun c hc => by simpa using hn.units k c hc), stop hz,
      List.append_nil]
  have he := whole (k := n) hx
  rw [h, whole hy] at he
  rw [← he] at h
  exact ⟨hn.injective he.symm, List.append_cancel_left h⟩

/-- The texts after the first of a list, each with its comma. -/
def commaTail (ts : List JsString) : JsString := ts.flatMap fun t => unit ',' :: t

theorem comma_cons (t : JsString) (ts : List JsString) : comma (t :: ts) = t ++ commaTail ts := by
  induction ts generalizing t with
  | nil => simp [comma, commaTail]
  | cons u ts ih =>
    have hu := ih u
    unfold comma commaTail at *
    rw [List.intercalate_cons_cons, hu]
    simp

theorem delim_tail {close : CodeUnit} (hc : close ∈ text "]\x7d") (ts : List JsString) (x : JsString) :
    Delim (commaTail ts ++ close :: x) := by
  have hclose : (text "]\x7d").all (fun c => c ∈ text ",]\x7d") = true := by decide
  cases ts with
  | nil => exact .cons (of_decide_eq_true (List.all_eq_true.mp hclose _ hc)) x
  | cons t ts => exact .cons (by decide) _

section
variable {α β : Type} {f : α → JsString} {g : β → JsString} {R : α → β → Prop}
variable {close : CodeUnit} {xs : List α} {ys : List β} {x y : JsString}

/-- A list after its first element is read in one way when its elements are. -/
theorem commaTail_unique (hc : close ∈ text "]\x7d")
    (h : ∀ a ∈ xs, ∀ b ∈ ys, ∀ x y, Delim x → Delim y → f a ++ x = g b ++ y → R a b ∧ x = y)
    (he : commaTail (xs.map f) ++ close :: x = commaTail (ys.map g) ++ close :: y) :
    List.Forall₂ R xs ys ∧ x = y := by
  have hclose : (text "]\x7d").all (fun c => c ≠ unit ',') = true := by decide
  have hne : close ≠ unit ',' := of_decide_eq_true (List.all_eq_true.mp hclose _ hc)
  induction xs generalizing ys with
  | nil =>
    cases ys with
    | nil => exact ⟨.nil, (List.cons.inj he).2⟩
    | cons b ys => exact absurd (List.cons.inj he).1 hne
  | cons a xs ih =>
    cases ys with
    | nil => exact absurd (List.cons.inj he).1.symm hne
    | cons b ys =>
      simp only [commaTail, List.map_cons, List.flatMap_cons, List.cons_append,
        List.append_assoc, List.cons.injEq, true_and] at he
      obtain ⟨hab, he⟩ := h a List.mem_cons_self b List.mem_cons_self _ _ (delim_tail hc _ _)
        (delim_tail hc _ _) he
      obtain ⟨hxs, hxy⟩ := ih (fun a ha b hb => h a (List.mem_cons_of_mem _ ha) b
        (List.mem_cons_of_mem _ hb)) he
      exact ⟨.cons hab hxs, hxy⟩

/-- And so is the whole list, when no element looks like its end. -/
theorem comma_unique (hc : close ∈ text "]\x7d")
    (hf : ∀ a ∈ xs, ∃ c s, f a = c :: s ∧ c ≠ close)
    (hg : ∀ b ∈ ys, ∃ c s, g b = c :: s ∧ c ≠ close)
    (h : ∀ a ∈ xs, ∀ b ∈ ys, ∀ x y, Delim x → Delim y → f a ++ x = g b ++ y → R a b ∧ x = y)
    (he : comma (xs.map f) ++ close :: x = comma (ys.map g) ++ close :: y) :
    List.Forall₂ R xs ys ∧ x = y := by
  cases xs with
  | nil =>
    cases ys with
    | nil => exact ⟨.nil, (List.cons.inj he).2⟩
    | cons b ys =>
      obtain ⟨c, s, hb, hne⟩ := hg b List.mem_cons_self
      rw [List.map_cons, comma_cons, hb] at he
      exact absurd (List.cons.inj he).1.symm hne
  | cons a xs =>
    cases ys with
    | nil =>
      obtain ⟨c, s, ha, hne⟩ := hf a List.mem_cons_self
      rw [List.map_cons, comma_cons, ha] at he
      exact absurd (List.cons.inj he).1 hne
    | cons b ys =>
      simp only [List.map_cons, comma_cons, List.append_assoc] at he
      obtain ⟨hab, he⟩ := h a List.mem_cons_self b List.mem_cons_self _ _ (delim_tail hc _ _)
        (delim_tail hc _ _) he
      obtain ⟨hxs, hxy⟩ := commaTail_unique hc (fun a ha b hb => h a (List.mem_cons_of_mem _ ha) b
        (List.mem_cons_of_mem _ hb)) he
      exact ⟨.cons hab hxs, hxy⟩

end

/-- The fields in the order in which they are printed. -/
def sortFields (fields : List (JsString × Tree N)) : List (JsString × Tree N) :=
  fields.insertionSort fun a b => a.1 ≤ b.1

theorem sortMembers_printed (fields : List (JsString × Tree N)) :
    sortMembers (fields.map (printed number)) = (sortFields fields).map (printed number) :=
  (List.map_insertionSort (fun a b : JsString × Tree N => a.1 ≤ b.1)
    (fun a b : JsString × JsString => a.1 ≤ b.1) (printed number) fields fun _ _ _ _ => Iff.rfl).symm

/-- A member is read in one way when its value is. -/
theorem member_unique {f g : JsString × Tree N} {x y : JsString} {R : Prop}
    (h : serialize number f.2 ++ x = serialize number g.2 ++ y → R ∧ x = y)
    (he : member (printed number f) ++ x = member (printed number g) ++ y) :
    (f.1 = g.1 ∧ R) ∧ x = y := by
  simp only [member, printed, List.append_assoc, List.cons_append] at he
  obtain ⟨hk, he⟩ := quote_append_inj he
  obtain ⟨hr, hxy⟩ := h (List.cons.inj he).2
  exact ⟨⟨hk, hr⟩, hxy⟩

/-- A text is read in one way. -/
theorem serialize_unique (hn : NumberLiterals number) (a : Tree N) :
    ∀ b x y, Delim x → Delim y → serialize number a ++ x = serialize number b ++ y →
      a.Same b ∧ x = y := by
  induction a using Tree.induct with
  | null =>
    intro b x y _ _ h
    have hkind := kind_eq hn h
    cases b <;> simp [Tree.kind] at hkind
    exact ⟨.null, List.append_cancel_left h⟩
  | bool b =>
    intro b' x y _ _ h
    have hkind := kind_eq hn h
    cases b' <;> simp [Tree.kind] at hkind
    rename_i b'
    have hne : ∀ {x y : JsString}, text "true" ++ x ≠ text "false" ++ y := by
      intro x y he
      exact absurd (List.cons.inj he).1 (by decide)
    cases b with
    | false =>
      cases b' with
      | false => exact ⟨.bool _, List.append_cancel_left h⟩
      | true => exact absurd h.symm hne
    | true =>
      cases b' with
      | false => exact absurd h hne
      | true => exact ⟨.bool _, List.append_cancel_left h⟩
  | num n =>
    intro b x y hx hy h
    have hkind := kind_eq hn h
    cases b <;> simp [Tree.kind] at hkind
    obtain ⟨rfl, hxy⟩ := number_append_inj hn hx hy h
    exact ⟨.num n, hxy⟩
  | str s =>
    intro b x y _ _ h
    have hkind := kind_eq hn h
    cases b <;> simp [Tree.kind] at hkind
    obtain ⟨rfl, hxy⟩ := quote_append_inj h
    exact ⟨.str s, hxy⟩
  | arr xs ih =>
    intro b x y _ _ h
    have hkind := kind_eq hn h
    cases b <;> simp [Tree.kind] at hkind
    rename_i ys
    have nonempty : ∀ zs : List (Tree N), ∀ z ∈ zs,
        ∃ c s, serialize number z = c :: s ∧ c ≠ unit ']' := by
      intro zs z _
      obtain ⟨c, s, hz, hc⟩ := serialize_first hn z
      refine ⟨c, s, hz, ?_⟩
      rintro rfl
      have hclose : kindOf (unit ']') = 6 := by decide
      rw [hclose] at hc
      cases z <;> cases hc
    simp only [serialize, serializeAll_eq, List.cons_append, List.append_assoc, List.nil_append,
      List.cons.injEq, true_and] at h
    obtain ⟨hxs, hxy⟩ := comma_unique (by decide) (nonempty xs) (nonempty ys)
      (fun a ha b _ => ih a ha b) h
    obtain ⟨hl, hz⟩ := List.forall₂_iff_zip.mp hxs
    exact ⟨.arr hl fun p hp => hz hp, hxy⟩
  | obj fs ih =>
    intro b x y _ _ h
    have hkind := kind_eq hn h
    cases b <;> simp [Tree.kind] at hkind
    rename_i gs
    have nonempty : ∀ zs : List (JsString × Tree N), ∀ z ∈ zs,
        ∃ c s, (member ∘ printed number) z = c :: s ∧ c ≠ unit '}' :=
      fun zs z _ => ⟨_, _, rfl, by decide⟩
    simp only [serialize, serializeFields_eq, sortMembers_printed, List.map_map, List.cons_append,
      List.append_assoc, List.nil_append, List.cons.injEq, true_and] at h
    have hperm : ∀ zs : List (JsString × Tree N), (sortFields zs).Perm zs :=
      fun zs => List.perm_insertionSort _ zs
    obtain ⟨hfs, hxy⟩ := comma_unique (R := fun f g => f.1 = g.1 ∧ f.2.Same g.2)
      (by decide) (nonempty (sortFields fs)) (nonempty (sortFields gs))
      (fun f hf g _ x y hx hy he =>
        member_unique (ih f ((hperm fs).subset hf) g.2 x y hx hy) he) h
    obtain ⟨hl, hz⟩ := List.forall₂_iff_zip.mp hfs
    refine ⟨.obj (hperm fs).symm (hperm gs).symm ?_ fun p hp => (hz hp).2, hxy⟩
    refine List.ext_getElem (by simpa using hl) fun n h₁ h₂ => ?_
    simp only [List.length_map] at h₁ h₂
    have hmem : ((sortFields fs)[n], (sortFields gs)[n]) ∈ (sortFields fs).zip (sortFields gs) := by
      rw [← List.getElem_zip (i := n) (h := by rw [List.length_zip]; omega)]
      exact List.getElem_mem _
    rw [List.getElem_map, List.getElem_map]
    exact (hz hmem).1

/-! The order of keys does not show. -/

/-- Members with distinct keys are printed in one order. -/
theorem sortMembers_eq {ms ms' : List (JsString × JsString)} (hp : ms.Perm ms')
    (hk : (ms.map Prod.fst).Nodup) : sortMembers ms = sortMembers ms' := by
  have hperm : ∀ l : List (JsString × JsString), (sortMembers l).Perm l :=
    fun l => List.perm_insertionSort _ l
  refine List.Perm.eq_of_pairwise ?_
    (List.pairwise_insertionSort _ _) (List.pairwise_insertionSort _ _)
    ((hperm ms).trans (hp.trans (hperm ms').symm))
  intro a b ha hb hab hba
  exact List.inj_on_of_nodup_map hk ((hperm ms).subset ha)
    (hp.symm.subset ((hperm ms').subset hb)) (le_antisymm hab hba)

theorem Tree.Same.refl (a : Tree N) : a.Same a := by
  induction a using Tree.induct with
  | null => exact .null
  | bool b => exact .bool b
  | num n => exact .num n
  | str s => exact .str s
  | arr xs ih =>
    refine .arr rfl ?_
    intro p hp
    rw [List.zip, List.zipWith_self] at hp
    obtain ⟨x, hx, rfl⟩ := List.mem_map.mp hp
    exact ih x hx
  | obj fields ih =>
    refine .obj (.refl _) (.refl _) rfl ?_
    intro p hp
    rw [List.zip, List.zipWith_self] at hp
    obtain ⟨f, hf, rfl⟩ := List.mem_map.mp hp
    exact ih f hf

theorem serialize_same {a b : Tree N} (hs : a.Same b) (ha : a.Plain) :
    serialize number a = serialize number b := by
  induction hs with
  | null => rfl
  | bool b => rfl
  | num n => rfl
  | str s => rfl
  | @arr xs ys hl h ih =>
    cases ha with
    | arr hx =>
      have hmap : xs.map (serialize number) = ys.map (serialize number) := by
        refine List.ext_getElem (by simpa using hl) fun n h₁ h₂ => ?_
        simp only [List.length_map] at h₁ h₂
        have hmem : (xs[n], ys[n]) ∈ xs.zip ys := by
          rw [← List.getElem_zip (i := n) (h := by rw [List.length_zip]; omega)]
          exact List.getElem_mem _
        rw [List.getElem_map, List.getElem_map]
        exact ih _ hmem (hx _ (List.getElem_mem _))
      simp only [serialize, serializeAll_eq, hmap]
  | @obj fs fs' gs gs' hf hg hk h ih =>
    cases ha with
    | obj hnodup hx =>
      have hl : fs'.length = gs'.length := by simpa using congrArg List.length hk
      have hmap : fs'.map (printed number) = gs'.map (printed number) := by
        refine List.ext_getElem (by simpa using hl) fun n h₁ h₂ => ?_
        simp only [List.length_map] at h₁ h₂
        have hmem : (fs'[n], gs'[n]) ∈ fs'.zip gs' := by
          rw [← List.getElem_zip (i := n) (h := by rw [List.length_zip]; omega)]
          exact List.getElem_mem _
        rw [List.getElem_map, List.getElem_map]
        have hfst := congrArg (fun l : List JsString => l[n]?) hk
        have hkey : fs'[n].1 = gs'[n].1 := by simpa [List.getElem?_map, h₁, h₂] using hfst
        exact Prod.ext hkey (ih _ hmem (hx _ (hf.symm.subset (List.getElem_mem _))))
      have keys : ∀ l : List (JsString × Tree N),
          (l.map (printed number)).map Prod.fst = l.map Prod.fst := by
        intro l
        rw [List.map_map]
        rfl
      have hfs := sortMembers_eq (hf.map (printed number)) (by rw [keys]; exact hnodup)
      have hgs := sortMembers_eq (hg.symm.map (printed number)) (by
        rw [keys, ← hk]
        exact (hf.map Prod.fst).nodup_iff.mp hnodup)
      simp only [serialize, serializeFields_eq, hfs, hmap, hgs]

end

/-- Two trees have one canonical text exactly when they are the same up to the order of
keys; so a digest survives every such reordering, and one without collisions detects
everything else. -/
theorem canonicalJson_eq_iff (number : N → JsString) (hn : NumberLiterals number) (a b : Tree N)
    (ha : a.Plain) :
    (canonicalJson number a = canonicalJson number b ↔ a.Same b) ∧
    ∀ sha256Hex : JsString → String,
      (a.Same b → canonicalDigest number sha256Hex a = canonicalDigest number sha256Hex b) ∧
      (Function.Injective sha256Hex →
        canonicalDigest number sha256Hex a = canonicalDigest number sha256Hex b → a.Same b) := by
  have hsame : canonicalJson number a = canonicalJson number b → a.Same b := by
    intro h
    refine (serialize_unique hn a b [] [] .nil .nil ?_).1
    rw [List.append_nil, List.append_nil]
    exact h
  refine ⟨⟨hsame, fun hs => serialize_same hs ha⟩, ?_⟩
  intro sha256Hex
  refine ⟨fun hs => congrArg sha256Hex (serialize_same hs ha), ?_⟩
  intro hinj h
  exact hsame (hinj h)

theorem canonicalJson_eq_iff_reordered :
    let a : Tree Int := .obj [(text "b", .num (-1)), (text "a", .arr [.str (text "\"")])]
    let b : Tree Int := .obj [(text "a", .arr [.str (text "\"")]), (text "b", .num (-1))]
    let c : Tree Int := .obj [(text "a", .arr [.str (text "")]), (text "b", .num (-1))]
    a.Same b ∧ ¬ a.Same c := by
  intro a b c
  have ha : a.Plain := by
    refine .obj (by decide) ?_
    rintro f hf
    rcases List.mem_cons.mp hf with rfl | hf
    · exact .num _
    · obtain rfl := List.mem_singleton.mp hf
      refine .arr fun x hx => ?_
      obtain rfl := List.mem_singleton.mp hx
      exact .str _
  have hb := canonicalJson_eq_iff intLiteral intLiteral_literals a b ha
  have hc := canonicalJson_eq_iff intLiteral intLiteral_literals a c ha
  refine ⟨hb.1.mp (by decide), ?_⟩
  intro h
  exact absurd (hc.1.mpr h) (by decide)

end Json
