import Mathlib.Data.List.DropRight
import Mathlib.Data.List.Forall2
import BazarApi.Json.Quote

/- Strings as the built-in functions of ECMAScript see them, unit by unit: white space and `trim`,
   what an encoder makes of them, the searches, and the two case conversions. What the conversions
   do beyond ASCII is Unicode's and a parameter here (`CaseMapping`), with what the code relies
   on. -/
namespace Utf16
open Json

def unitOf (n : Nat) : CodeUnit := Fin.ofNat 65536 n

/-- `LineTerminator`, which `.` does not match. -/
def isLineTerminator (c : CodeUnit) : Bool :=
  c.val = 0xA || c.val = 0xD || c.val = 0x2028 || c.val = 0x2029

/-- `WhiteSpace` and `LineTerminator`: what `\s` matches and `trim` takes away. -/
def isSpace (c : CodeUnit) : Bool :=
  c.val = 0x9 || c.val = 0xB || c.val = 0xC || c.val = 0x20 || c.val = 0xA0 || c.val = 0x1680 ||
    0x2000 ≤ c.val && c.val ≤ 0x200A || c.val = 0x202F || c.val = 0x205F || c.val = 0x3000 ||
    c.val = 0xFEFF || isLineTerminator c

/-- A text without the units of a class at its ends. -/
def trimBy (p : CodeUnit → Bool) (s : JsString) : JsString := (s.dropWhile p).rdropWhile p

/-- `String.prototype.trim`. -/
def trim (s : JsString) : JsString := trimBy isSpace s

section
variable {p : CodeUnit → Bool} {s : JsString}

theorem trimBy_within (p : CodeUnit → Bool) (s : JsString) : trimBy p s <:+: s :=
  (List.rdropWhile_prefix _ _).isInfix.trans (List.dropWhile_suffix _).isInfix

theorem trimBy_leading : ∀ c ∈ (trimBy p s).head?, p c = false := by
  intro c hc
  obtain ⟨post, hpost⟩ := List.rdropWhile_prefix p (s.dropWhile p)
  have hhead : (s.dropWhile p).head? = some c := by
    rw [← hpost, List.head?_append, show (List.rdropWhile p (s.dropWhile p)).head? = some c from hc]
    rfl
  have := List.head?_dropWhile_not p s
  rwa [hhead] at this

theorem trimBy_trailing : ∀ c ∈ (trimBy p s).getLast?, p c = false := by
  intro c hc
  obtain ⟨hne, hlast⟩ := List.mem_getLast?_eq_getLast hc
  rw [hlast]
  exact eq_false_of_ne_true (List.rdropWhile_last_not p (s.dropWhile p) hne)

theorem trimBy_of_ends (hleading : ∀ c ∈ s.head?, p c = false)
    (htrailing : ∀ c ∈ s.getLast?, p c = false) : trimBy p s = s := by
  unfold trimBy
  have hs : s.dropWhile p = s := by
    rw [List.dropWhile_eq_self_iff]
    intro hs
    simp [hleading _ (List.head?_eq_getElem? ▸ List.getElem?_eq_getElem hs)]
  rw [hs, List.rdropWhile_eq_self_iff]
  intro hs
  simp [htrailing _ (List.getLast?_eq_getLast_of_ne_nil hs)]

end

/-! Characters. A pair of surrogates is one; a surrogate alone has no encoding. -/

/-- U+FFFD. -/
def replacementCharacter : CodeUnit := unitOf 0xFFFD

def encodable (c : CodeUnit) : CodeUnit := if IsLead c ∨ IsTrail c then replacementCharacter else c

/-- What an encoder writes, as `String.prototype.toWellFormed` gives it. -/
def toWellFormed : JsString → JsString
  | [] => []
  | [c] => [encodable c]
  | c :: d :: s => if IsLead c ∧ IsTrail d then c :: d :: toWellFormed s
      else encodable c :: toWellFormed (d :: s)

/-- The characters of a text. -/
def codePoints : JsString → Nat
  | [] => 0
  | [_] => 1
  | c :: d :: s => if IsLead c ∧ IsTrail d then codePoints s + 1 else codePoints (d :: s) + 1

theorem codePoints_le (s : JsString) : codePoints s ≤ s.length := by
  induction s using codePoints.induct with
  | case1 => exact Nat.le_refl _
  | case2 c => exact Nat.le_refl _
  | case3 c d s h ih =>
    rw [codePoints, if_pos h]
    simp only [List.length_cons]
    omega
  | case4 c d s h ih =>
    rw [codePoints, if_neg h]
    simp only [List.length_cons] at ih ⊢
    omega

theorem codePoints_pos {s : JsString} (h : s ≠ []) : 1 ≤ codePoints s := by
  match s, h with
  | [_], _ => exact Nat.le_refl _
  | c :: d :: s, _ =>
    rw [codePoints]
    split <;> omega

theorem encodable_cases (c : CodeUnit) : encodable c = c ∨ encodable c = replacementCharacter := by
  unfold encodable
  split
  · exact .inr rfl
  · exact .inl rfl

/-- An encoder keeps each unit or puts U+FFFD in its place. -/
theorem toWellFormed_forall₂ (s : JsString) :
    List.Forall₂ (fun c d => d = c ∨ d = replacementCharacter) s (toWellFormed s) := by
  induction s using toWellFormed.induct with
  | case1 => exact .nil
  | case2 c => exact .cons (encodable_cases c) .nil
  | case3 c d s h ih =>
    rw [toWellFormed, if_pos h]
    exact .cons (.inl rfl) (.cons (.inl rfl) ih)
  | case4 c d s h ih =>
    rw [toWellFormed, if_neg h]
    exact .cons (encodable_cases c) ih

theorem toWellFormed_length (s : JsString) : (toWellFormed s).length = s.length :=
  (toWellFormed_forall₂ s).length_eq.symm

section
variable {p : CodeUnit → Bool} {s : JsString}

theorem head_of_forall₂ {t : JsString} (hp : p replacementCharacter = false)
    (hrel : List.Forall₂ (fun c d => d = c ∨ d = replacementCharacter) s t)
    (h : ∀ c ∈ s.head?, p c = false) : ∀ c ∈ t.head?, p c = false := by
  cases hrel with
  | nil => exact h
  | cons hcd hrest =>
    intro e he
    rw [List.head?_cons, Option.mem_some_iff] at he
    rw [← he]
    rcases hcd with rfl | rfl
    · exact h _ rfl
    · exact hp

theorem toWellFormed_leading (hp : p replacementCharacter = false)
    (h : ∀ c ∈ s.head?, p c = false) : ∀ c ∈ (toWellFormed s).head?, p c = false :=
  head_of_forall₂ hp (toWellFormed_forall₂ s) h

theorem toWellFormed_trailing (hp : p replacementCharacter = false)
    (h : ∀ c ∈ s.getLast?, p c = false) : ∀ c ∈ (toWellFormed s).getLast?, p c = false := by
  rw [List.getLast?_eq_head?_reverse] at h ⊢
  exact head_of_forall₂ hp (List.rel_reverse (toWellFormed_forall₂ s)) h

end

/-! Searches. -/

/-- `indexOf` of one unit; none is -1. -/
def indexOf (s : JsString) (c : CodeUnit) : Option Nat := s.findIdx? fun d => d = c

/-- The last of the first `n` units that is `c`. -/
def lastBelow (s : JsString) (c : CodeUnit) : Nat → Option Nat
  | 0 => none
  | n + 1 => if s[n]? = some c then some n else lastBelow s c n

/-- `lastIndexOf` of one unit, from a position on, which is taken into the text. -/
def lastIndexOf (s : JsString) (c : CodeUnit) (position : Int) : Option Nat :=
  lastBelow s c (min (position.toNat + 1) s.length)

/-! Case. -/

def asciiLower (c : CodeUnit) : CodeUnit :=
  if 65 ≤ c.val ∧ c.val ≤ 90 then unitOf (c.val + 32) else c

def asciiUpper (c : CodeUnit) : CodeUnit :=
  if 97 ≤ c.val ∧ c.val ≤ 122 then unitOf (c.val - 32) else c

/-- The conversions of Unicode. Beyond ASCII every character has a character beyond ASCII in its
    lower case, but for the sign of the kelvin, whose lower case is `k`. -/
structure CaseMapping where
  toLowerCase : JsString → JsString
  /-- `toUpperCase` of the text of one unit. -/
  toUpperCase : CodeUnit → JsString
  lower_ascii : ∀ s, (∀ c ∈ s, c.val < 128) → toLowerCase s = s.map asciiLower
  lower_beyond : ∀ s, (∃ c ∈ s, 128 ≤ c.val) →
    (∃ c ∈ toLowerCase s, 128 ≤ c.val) ∨ unit 'k' ∈ toLowerCase s
  upper_ascii : ∀ c, c.val < 128 → toUpperCase c = [asciiUpper c]

/-- The conversions of ASCII alone. -/
instance : Inhabited CaseMapping where
  default := {
    toLowerCase := fun s => s.map asciiLower
    toUpperCase := fun c => [asciiUpper c]
    lower_ascii := fun _ _ => rfl
    lower_beyond := by
      rintro s ⟨c, hc, h⟩
      refine .inl ⟨asciiLower c, List.mem_map_of_mem hc, ?_⟩
      unfold asciiLower
      rw [if_neg (by omega)]
      exact h
    upper_ascii := fun _ _ => rfl }

/-- `Canonicalize` of a unit, for a pattern with the flag `i` and without `u`. -/
def CaseMapping.canonicalize (m : CaseMapping) (c : CodeUnit) : CodeUnit :=
  match m.toUpperCase c with
  | [u] => if 128 ≤ c.val ∧ u.val < 128 then c else u
  | _ => c

variable {m : CaseMapping} {c d : CodeUnit}

theorem asciiUpper_lt (h : c.val < 128) : (asciiUpper c).val < 128 := by
  unfold asciiUpper unitOf
  split
  · simp only [Fin.val_ofNat]
    omega
  · exact h

theorem CaseMapping.canonicalize_ascii (h : c.val < 128) : m.canonicalize c = asciiUpper c := by
  unfold CaseMapping.canonicalize
  rw [m.upper_ascii c h]
  exact if_neg (by omega)

theorem CaseMapping.canonicalize_beyond (h : 128 ≤ c.val) : 128 ≤ (m.canonicalize c).val := by
  unfold CaseMapping.canonicalize
  split
  · split
    · exact h
    · omega
  · exact h

/-- Without regard to case a unit of ASCII is matched by the units of ASCII with its upper case. -/
theorem CaseMapping.canonicalize_eq (hc : c.val < 128) :
    m.canonicalize d = m.canonicalize c ↔ d.val < 128 ∧ asciiUpper d = asciiUpper c := by
  rw [canonicalize_ascii hc]
  constructor
  · intro h
    by_cases hd : d.val < 128
    · rw [canonicalize_ascii hd] at h
      exact ⟨hd, h⟩
    · have hfar := m.canonicalize_beyond (c := d) (by omega)
      have hnear := asciiUpper_lt hc
      rw [h] at hfar
      omega
  · rintro ⟨hd, h⟩
    rw [canonicalize_ascii hd, h]

end Utf16
