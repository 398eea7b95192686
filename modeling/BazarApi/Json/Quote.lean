import Mathlib.Algebra.GroupWithZero.Nat
import Mathlib.Data.Fin.Basic
import Mathlib.Data.List.Lex

/- Strings of JavaScript and their JSON literals. A string is a list of UTF-16 code
   units, not always well formed; `quote` is `JSON.stringify` of it, which escapes the
   quotation mark, the backslash, the control characters and the surrogates that stand
   alone. `read` undoes it up to the closing mark, so a literal says where it ends and
   which string it is (`quote_append_inj`). -/
namespace Json

abbrev CodeUnit := Fin 65536

abbrev JsString := List CodeUnit

/-! Instances under names of their own, so that every use of a string finds the same ones. -/

instance units : NeZero 65536 := ⟨by decide⟩

instance codeUnitLawful : LawfulBEq CodeUnit := inferInstance

instance jsStringLawful : LawfulBEq JsString := inferInstance

def unit (c : Char) : CodeUnit := Fin.ofNat 65536 c.toNat

def text (s : String) : JsString := s.toList.map unit

/-- One character beyond the basic plane for each code unit. -/
theorem wideChar_injective : Function.Injective fun c : CodeUnit => Char.ofNat (0x10000 + c.val) := by
  have hchar (c : CodeUnit) : (Char.ofNat (0x10000 + c.val)).toNat = 0x10000 + c.val := by
    have hvalid : (0x10000 + c.val).isValidChar := .inr ⟨by omega, by omega⟩
    rw [Char.ofNat, dif_pos hvalid]
    rfl
  intro c c' hc
  have hv := congrArg Char.toNat hc
  dsimp only at hv
  rw [hchar, hchar] at hv
  exact Fin.ext (by omega)

/-- A lower-case hexadecimal digit. -/
def hexDigit (n : Nat) : CodeUnit := if n < 10 then Fin.ofNat 65536 (48 + n) else Fin.ofNat 65536 (87 + n)

def hexValue (c : CodeUnit) : Nat := if c.val < 58 then c.val - 48 else c.val - 87

/-- `UnicodeEscape`: `\uXXXX`. -/
def unicodeEscape (c : CodeUnit) : JsString :=
  [unit '\\', unit 'u', hexDigit (c.val / 4096), hexDigit (c.val / 256 % 16),
    hexDigit (c.val / 16 % 16), hexDigit (c.val % 16)]

/-- A unit that is no surrogate. -/
def escape (c : CodeUnit) : JsString :=
  if c = unit '"' then [unit '\\', unit '"']
  else if c = unit '\\' then [unit '\\', unit '\\']
  else if c.val = 8 then [unit '\\', unit 'b']
  else if c.val = 9 then [unit '\\', unit 't']
  else if c.val = 10 then [unit '\\', unit 'n']
  else if c.val = 12 then [unit '\\', unit 'f']
  else if c.val = 13 then [unit '\\', unit 'r']
  else if c.val < 32 then unicodeEscape c
  else [c]

def IsLead (c : CodeUnit) : Prop := 0xD800 ≤ c.val ∧ c.val < 0xDC00
def IsTrail (c : CodeUnit) : Prop := 0xDC00 ≤ c.val ∧ c.val < 0xE000

instance (c : CodeUnit) : Decidable (IsLead c) := inferInstanceAs (Decidable (_ ∧ _))
instance (c : CodeUnit) : Decidable (IsTrail c) := inferInstanceAs (Decidable (_ ∧ _))

/-- One unit outside a surrogate pair. -/
def escapeAlone (c : CodeUnit) : JsString :=
  if IsLead c ∨ IsTrail c then unicodeEscape c else escape c

/-- What stands between the quotation marks. -/
def body : JsString → JsString
  | [] => []
  | [c] => escapeAlone c
  | c :: d :: s => if IsLead c ∧ IsTrail d then c :: d :: body s else escapeAlone c ++ body (d :: s)

/-- `JSON.stringify` of a string. -/
def quote (s : JsString) : JsString := unit '"' :: (body s ++ [unit '"'])

/-- What a two-unit escape stands for. -/
def unescape (c : CodeUnit) : CodeUnit :=
  if c = unit 'b' then 8 else if c = unit 't' then 9 else if c = unit 'n' then 10
  else if c = unit 'f' then 12 else if c = unit 'r' then 13 else c

/-- Reads a literal after its opening mark: the string, and what follows it. -/
def read : JsString → Option (JsString × JsString)
  | [] => none
  | c :: s =>
    if c = unit '"' then some ([], s)
    else if c = unit '\\' then
      match s with
      | [] => none
      | d :: s =>
        if d = unit 'u' then
          match s with
          | w :: x :: y :: z :: s =>
            (read s).map fun r => (Fin.ofNat 65536
              (hexValue w * 4096 + hexValue x * 256 + hexValue y * 16 + hexValue z) :: r.1, r.2)
          | _ => none
        else (read s).map fun r => (unescape d :: r.1, r.2)
    else (read s).map fun r => (c :: r.1, r.2)

theorem hexValue_hexDigit : ∀ n < 16, hexValue (hexDigit n) = n := by
  decide

theorem read_end (s : JsString) : read (unit '"' :: s) = some ([], s) := by
  rw [read.eq_def]
  exact if_pos rfl

/-- Each unit is read back. -/
theorem read_unicodeEscape (c : CodeUnit) (s : JsString) :
    read (unicodeEscape c ++ s) = (read s).map fun r => (c :: r.1, r.2) := by
  have hc := c.isLt
  have hsum : c.val / 4096 * 4096 + c.val / 256 % 16 * 256 + c.val / 16 % 16 * 16 + c.val % 16 =
      c.val := by
    omega
  have hback : Fin.ofNat 65536 c.val = c := Fin.ext (Nat.mod_eq_of_lt hc)
  simp only [unicodeEscape, List.cons_append, List.nil_append]
  rw [read.eq_def]
  simp only [if_true]
  rw [if_neg (by decide), hexValue_hexDigit _ (by omega), hexValue_hexDigit _ (by omega),
    hexValue_hexDigit _ (by omega), hexValue_hexDigit _ (by omega), hsum, hback]

theorem read_plain {c : CodeUnit} (hq : c ≠ unit '"') (hb : c ≠ unit '\\') (s : JsString) :
    read (c :: s) = (read s).map fun r => (c :: r.1, r.2) := by
  rw [read.eq_def]
  simp only [if_neg hq, if_neg hb]

theorem read_short {d : CodeUnit} (hd : d ≠ unit 'u') (s : JsString) :
    read (unit '\\' :: d :: s) = (read s).map fun r => (unescape d :: r.1, r.2) := by
  rw [read.eq_def]
  simp only [if_true, if_neg hd]
  exact if_neg (by decide)

theorem read_escape (c : CodeUnit) (s : JsString) :
    read (escape c ++ s) = (read s).map fun r => (c :: r.1, r.2) := by
  have same : ∀ {d : CodeUnit}, unescape d = c → d ≠ unit 'u' →
      read ([unit '\\', d] ++ s) = (read s).map fun r => (c :: r.1, r.2) := by
    intro d hd hu
    simp only [List.cons_append, List.nil_append, read_short hu, hd]
  unfold escape
  split_ifs with h1 h2 h3 h4 h5 h6 h7 h8
  · exact same (by rw [h1]; decide) (by decide)
  · exact same (by rw [h2]; decide) (by decide)
  · exact same (Fin.ext (by rw [h3]; decide)) (by decide)
  · exact same (Fin.ext (by rw [h4]; decide)) (by decide)
  · exact same (Fin.ext (by rw [h5]; decide)) (by decide)
  · exact same (Fin.ext (by rw [h6]; decide)) (by decide)
  · exact same (Fin.ext (by rw [h7]; decide)) (by decide)
  · exact read_unicodeEscape c s
  · exact read_plain h1 h2 s

theorem read_escapeAlone (c : CodeUnit) (s : JsString) :
    read (escapeAlone c ++ s) = (read s).map fun r => (c :: r.1, r.2) := by
  unfold escapeAlone
  split
  · exact read_unicodeEscape c s
  · exact read_escape c s

/-- The surrogates are no delimiters. -/
theorem read_surrogate {c : CodeUnit} (hc : 0xD800 ≤ c.val) (s : JsString) :
    read (c :: s) = (read s).map fun r => (c :: r.1, r.2) := by
  refine read_plain ?_ ?_ s
  · rintro rfl
    exact absurd hc (by decide)
  · rintro rfl
    exact absurd hc (by decide)

/-- A string is read back from its literal, whatever follows. -/
theorem read_body (s rest : JsString) : read (body s ++ unit '"' :: rest) = some (s, rest) := by
  induction s using body.induct with
  | case1 => exact read_end rest
  | case2 c => rw [body, read_escapeAlone, read_end, Option.map_some]
  | case3 c d s hcd ih =>
    rw [body, if_pos hcd, List.cons_append, List.cons_append, read_surrogate hcd.1.1,
      read_surrogate (le_trans (by decide) hcd.2.1), ih]
    rfl
  | case4 c d s hcd ih =>
    rw [body, if_neg hcd, List.append_assoc, read_escapeAlone, ih, Option.map_some]

/-- A literal says where it ends and which string it is. -/
theorem quote_append_inj {s s' x y : JsString} (h : quote s ++ x = quote s' ++ y) :
    s = s' ∧ x = y := by
  simp only [quote, List.cons_append, List.append_assoc, List.cons.injEq, true_and,
    List.nil_append] at h
  have hr := read_body s x
  rw [h, read_body] at hr
  exact ⟨(congrArg Prod.fst (Option.some.inj hr)).symm, (congrArg Prod.snd (Option.some.inj hr)).symm⟩

end Json
