import BazarApi.Json.Quote

/- The bytes of a text and their base64url form, as `Buffer` has them: `Buffer.from(text)`,
   `toString('utf8')`, `toString('base64url')` and `Buffer.from(text, 'base64url')`. -/
namespace Bazar.Js

open Json

abbrev Byte := Fin 256

/-! Base64url. -/

/-- The digit of six bits: `A`–`Z`, `a`–`z`, `0`–`9`, `-`, `_`. -/
def digit (x : Fin 64) : CodeUnit :=
  if x.val < 26 then Fin.ofNat _ (65 + x.val) else if x.val < 52 then Fin.ofNat _ (71 + x.val)
  else if x.val < 62 then Fin.ofNat _ (x.val - 4) else if x.val = 62 then unit '-' else unit '_'

/-- The six bits of a digit of either alphabet. -/
def sextet? (c : CodeUnit) : Option (Fin 64) :=
  if 65 ≤ c.val ∧ c.val ≤ 90 then some (Fin.ofNat _ (c.val - 65))
  else if 97 ≤ c.val ∧ c.val ≤ 122 then some (Fin.ofNat _ (c.val - 71))
  else if 48 ≤ c.val ∧ c.val ≤ 57 then some (Fin.ofNat _ (c.val + 4))
  else if c = unit '-' ∨ c = unit '+' then some 62
  else if c = unit '_' ∨ c = unit '/' then some 63 else none

/-- `/^[A-Za-z0-9_-]+$/`. -/
def isBase64url (s : JsString) : Bool :=
  !s.isEmpty && s.all fun c => (sextet? c).isSome && c ≠ unit '+' && c ≠ unit '/'

def sextets : List Byte → List (Fin 64)
  | [] => []
  | [a] => [Fin.ofNat _ (a.val / 4), Fin.ofNat _ (a.val % 4 * 16)]
  | [a, b] => [Fin.ofNat _ (a.val / 4), Fin.ofNat _ (a.val % 4 * 16 + b.val / 16),
      Fin.ofNat _ (b.val % 16 * 4)]
  | a :: b :: c :: s => Fin.ofNat _ (a.val / 4) :: Fin.ofNat _ (a.val % 4 * 16 + b.val / 16) ::
      Fin.ofNat _ (b.val % 16 * 4 + c.val / 64) :: Fin.ofNat _ (c.val % 64) :: sextets s

/-- Bits that fill no byte are dropped. -/
def octets : List (Fin 64) → List Byte
  | p :: q :: r :: t :: s => Fin.ofNat _ (p.val * 4 + q.val / 16) ::
      Fin.ofNat _ (q.val % 16 * 16 + r.val / 4) :: Fin.ofNat _ (r.val % 4 * 64 + t.val) :: octets s
  | [p, q, r] => [Fin.ofNat _ (p.val * 4 + q.val / 16), Fin.ofNat _ (q.val % 16 * 16 + r.val / 4)]
  | [p, q] => [Fin.ofNat _ (p.val * 4 + q.val / 16)]
  | _ => []

/-- `toString('base64url')`. -/
def toBase64url (bs : List Byte) : JsString := (sextets bs).map digit

/-- `Buffer.from(text, 'base64url')`: the text ends at a `=`, other characters are skipped. -/
def fromBase64url (s : JsString) : List Byte :=
  octets ((s.takeWhile (· ≠ unit '=')).filterMap sextet?)

/-! UTF-8. -/

def isContinuation (b : Byte) : Bool := 0x80 ≤ b.val && b.val < 0xC0

/-- `Buffer.from(text)`: half a surrogate pair is written as U+FFFD. -/
def toUtf8 : JsString → List Byte
  | [] => []
  | c :: s =>
    if c.val < 0x80 then Fin.ofNat _ c.val :: toUtf8 s
    else if c.val < 0x800 then
      Fin.ofNat _ (0xC0 + c.val / 0x40) :: Fin.ofNat _ (0x80 + c.val % 0x40) :: toUtf8 s
    else if IsLead c then
      match s with
      | d :: s' =>
        if IsTrail d then
          let n := 0x10000 + (c.val - 0xD800) * 0x400 + (d.val - 0xDC00)
          Fin.ofNat _ (0xF0 + n / 0x40000) :: Fin.ofNat _ (0x80 + n / 0x1000 % 0x40) ::
            Fin.ofNat _ (0x80 + n / 0x40 % 0x40) :: Fin.ofNat _ (0x80 + n % 0x40) :: toUtf8 s'
        else 0xEF :: 0xBF :: 0xBD :: toUtf8 (d :: s')
      | [] => [0xEF, 0xBF, 0xBD]
    else if IsTrail c then 0xEF :: 0xBF :: 0xBD :: toUtf8 s
    else Fin.ofNat _ (0xE0 + c.val / 0x1000) :: Fin.ofNat _ (0x80 + c.val / 0x40 % 0x40) ::
      Fin.ofNat _ (0x80 + c.val % 0x40) :: toUtf8 s

/-- The bytes that may follow the first one of a longer form. -/
def isSecond (a b : Byte) : Bool :=
  if a.val = 0xE0 then 0xA0 ≤ b.val && b.val < 0xC0
  else if a.val = 0xED then 0x80 ≤ b.val && b.val < 0xA0
  else if a.val = 0xF0 then 0x90 ≤ b.val && b.val < 0xC0
  else if a.val = 0xF4 then 0x80 ≤ b.val && b.val < 0x90
  else isContinuation b

/-- `toString('utf8')`: what is not UTF-8 is read as U+FFFD. -/
def ofUtf8 : List Byte → JsString
  | [] => []
  | a :: s =>
    if a.val < 0x80 then Fin.ofNat _ a.val :: ofUtf8 s
    else if 0xC2 ≤ a.val ∧ a.val < 0xF5 then
      match s with
      | [] => [0xFFFD]
      | b :: s₁ =>
        if !isSecond a b then 0xFFFD :: ofUtf8 (b :: s₁)
        else if a.val < 0xE0 then
          Fin.ofNat _ ((a.val - 0xC0) * 0x40 + (b.val - 0x80)) :: ofUtf8 s₁
        else
          match s₁ with
          | [] => [0xFFFD]
          | c :: s₂ =>
            if !isContinuation c then 0xFFFD :: ofUtf8 (c :: s₂)
            else if a.val < 0xF0 then
              Fin.ofNat _ ((a.val - 0xE0) * 0x1000 + (b.val - 0x80) * 0x40 + (c.val - 0x80)) :: ofUtf8 s₂
            else
              match s₂ with
              | [] => [0xFFFD]
              | d :: s₃ =>
                if !isContinuation d then 0xFFFD :: ofUtf8 (d :: s₃)
                else
                  let n := (a.val - 0xF0) * 0x40000 + (b.val - 0x80) * 0x1000 + (c.val - 0x80) * 0x40 +
                    (d.val - 0x80) - 0x10000
                  Fin.ofNat _ (0xD800 + n / 0x400) :: Fin.ofNat _ (0xDC00 + n % 0x400) :: ofUtf8 s₃
    else 0xFFFD :: ofUtf8 s

/-- A text of ASCII characters. -/
def Ascii (s : JsString) : Prop := ∀ c ∈ s, c.val < 0x80

theorem ofUtf8_toUtf8 {s : JsString} (h : Ascii s) : ofUtf8 (toUtf8 s) = s := by
  induction s with
  | nil => rfl
  | cons c s ih =>
    have hc := h c List.mem_cons_self
    have hb : (Fin.ofNat 256 c.val).val = c.val := by
      simp only [Fin.val_ofNat]
      omega
    unfold toUtf8
    rw [if_pos hc]
    unfold ofUtf8
    rw [if_pos (by omega), ih fun d hd => h d (List.mem_cons_of_mem _ hd), hb]
    congr 1
    apply Fin.ext
    simp only [Fin.val_ofNat]
    omega

theorem toUtf8_cons (c : CodeUnit) (s : JsString) : toUtf8 (c :: s) ≠ [] := by
  unfold toUtf8
  split
  · exact List.cons_ne_nil _ _
  · split
    · exact List.cons_ne_nil _ _
    · split
      · split
        · dsimp only
          split <;> exact List.cons_ne_nil _ _
        · exact List.cons_ne_nil _ _
      · split <;> exact List.cons_ne_nil _ _

theorem sextet_digit : ∀ x : Fin 64, sextet? (digit x) = some x := by decide

theorem digit_plain : ∀ x : Fin 64,
    digit x ≠ unit '=' ∧ digit x ≠ unit '+' ∧ digit x ≠ unit '/' := by decide

theorem octets_sextets (bs : List Byte) : octets (sextets bs) = bs := by
  induction bs using sextets.induct with
  | case1 => rfl
  | case2 a =>
    simp only [sextets, octets, List.cons.injEq, and_true]
    apply Fin.ext
    simp only [Fin.val_ofNat]
    omega
  | case3 a b =>
    simp only [sextets, octets, List.cons.injEq, and_true]
    constructor <;> apply Fin.ext <;> simp only [Fin.val_ofNat] <;> omega
  | case4 a b c s ih =>
    simp only [sextets, octets, List.cons.injEq]
    refine ⟨?_, ?_, ?_, ih⟩ <;> apply Fin.ext <;> simp only [Fin.val_ofNat] <;> omega

theorem fromBase64url_toBase64url (bs : List Byte) : fromBase64url (toBase64url bs) = bs := by
  unfold fromBase64url toBase64url
  have hall : ((sextets bs).map digit).takeWhile (· ≠ unit '=') = (sextets bs).map digit := by
    rw [List.takeWhile_map]
    congr 1
    induction sextets bs with
    | nil => rfl
    | cons x xs ih =>
      have hx : ((fun c => decide (c ≠ unit '=')) ∘ digit) x = true := decide_eq_true (digit_plain x).1
      rw [List.takeWhile_cons_of_pos hx, ih]
  rw [hall, List.filterMap_map]
  have hsome : sextet? ∘ digit = some := funext sextet_digit
  rw [hsome, List.filterMap_some, octets_sextets]

theorem isBase64url_toBase64url {bs : List Byte} (h : bs ≠ []) : isBase64url (toBase64url bs) = true := by
  have hne : toBase64url bs ≠ [] := by
    intro he
    refine h ?_
    rw [← fromBase64url_toBase64url bs, he]
    rfl
  unfold isBase64url
  rw [Bool.and_eq_true, List.all_eq_true]
  refine ⟨by simpa using hne, fun c hc => ?_⟩
  obtain ⟨x, -, rfl⟩ := List.mem_map.mp hc
  rw [sextet_digit]
  simpa using (digit_plain x).2

end Bazar.Js
