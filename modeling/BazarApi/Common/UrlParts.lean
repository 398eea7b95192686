import BazarApi.Js.Regex
import BazarApi.Js.Utf16

/- The cuts of an address (`common/url-parts.ts`), each a scan that takes the place of a regular
   expression, and the expression it takes the place of. The scans are translated with their
   indices; what they return is compared with `Regex.replace`.

   Correspondence (TypeScript ↔ Lean):
     the loops of `stripQueryAndFragment` ↔ `afterLastTerminator`, `firstMark`
     the loop of `trimTrailingSlashes`    ↔ `slashesFrom`
     `value.slice(0, i)`                  ↔ `value.take i` -/
open Json Utf16

namespace Bazar.UrlParts

/-! The scans. -/

/-- `LINE_TERMINATORS`. -/
def lineTerminators : List CodeUnit := [unit '\n', unit '\r', unitOf 0x2028, unitOf 0x2029]

/-- From the `n`-th unit down: the place after the first line terminator met. -/
def afterLastTerminator (value : JsString) : Nat → Nat
  | 0 => 0
  | i + 1 => if (value[i]?).any (· ∈ lineTerminators) then i + 1 else afterLastTerminator value i

def isMark (c : CodeUnit) : Bool := c = unit '?' || c = unit '#'

/-- The first mark from the `i`-th unit on, with `n` units left. -/
def firstMark (value : JsString) : Nat → Nat → Option Nat
  | 0, _ => none
  | n + 1, i => if (value[i]?).any isMark then some i else firstMark value n (i + 1)

def stripQueryAndFragment (value : JsString) : JsString :=
  let start := afterLastTerminator value value.length
  match firstMark value (value.length - start) start with
  | some i => value.take i
  | none => value

/-- Where the slashes begin that end the first `n` units. -/
def slashesFrom (value : JsString) : Nat → Nat
  | 0 => 0
  | n + 1 => if value[n]? = some (unit '/') then slashesFrom value n else n + 1

def trimTrailingSlashes (value : JsString) : JsString := value.take (slashesFrom value value.length)

def apiSuffix : JsString := text "/api/v1"

def stripTrailingApiPrefix (m : CaseMapping) (value : JsString) : JsString :=
  if apiSuffix.length ≤ value.length ∧
      m.toLowerCase (value.drop (value.length - apiSuffix.length)) = apiSuffix then
    value.take (value.length - apiSuffix.length)
  else value

/-! The expressions. -/

/-- `/[?#].*$/`. -/
def queryAndFragment : Regex CodeUnit :=
  .seq (.char isMark) (.seq (.star fun c => !isLineTerminator c) .stop)

def isSlash (c : CodeUnit) : Bool := c = unit '/'

/-- `/\/+$/`. -/
def trailingSlashes : Regex CodeUnit := .seq (.char isSlash) (.seq (.star isSlash) .stop)

/-- A unit of a pattern with the flag `i`. -/
def ignoringCase (m : CaseMapping) (c : CodeUnit) : CodeUnit → Bool :=
  fun d => m.canonicalize d = m.canonicalize c

/-- `/\/api\/v1$/i`. -/
def trailingApiPrefix (m : CaseMapping) : Regex CodeUnit :=
  Regex.ending (apiSuffix.map (ignoringCase m))

/-! Each scan is its expression. -/

theorem mem_lineTerminators {c : CodeUnit} : c ∈ lineTerminators ↔ isLineTerminator c = true := by
  simp only [lineTerminators, isLineTerminator, List.mem_cons, List.not_mem_nil, or_false,
    Bool.or_eq_true, decide_eq_true_eq, Fin.ext_iff, or_assoc]
  exact Iff.rfl

theorem not_terminator_of_mark {c : CodeUnit} (h : isMark c = true) :
    isLineTerminator c = false := by
  simp only [isMark, Bool.or_eq_true, decide_eq_true_eq] at h
  rcases h with rfl | rfl <;> decide

/-- The scan back stops after the last line terminator, or at the beginning. -/
theorem afterLastTerminator_spec (value : JsString) (n : Nat) (hn : n ≤ value.length) :
    ∃ pre post, value.take n = pre ++ post ∧ pre.length = afterLastTerminator value n ∧
      (post.all fun c => !isLineTerminator c) = true ∧
      (pre = [] ∨ ∃ init c, pre = init ++ [c] ∧ isLineTerminator c = true) := by
  induction n with
  | zero => exact ⟨[], [], by simp [afterLastTerminator]⟩
  | succ n ih =>
    have hlt : n < value.length := hn
    have hget : value[n]? = some value[n] := List.getElem?_eq_getElem hlt
    have htake : value.take (n + 1) = value.take n ++ [value[n]] := List.take_succ_eq_append_getElem hlt
    have hany : (value[n]?).any (· ∈ lineTerminators) = isLineTerminator value[n] := by
      rw [hget, Option.any_some, Bool.eq_iff_iff, decide_eq_true_eq]
      exact mem_lineTerminators
    rw [afterLastTerminator, hany]
    by_cases h : isLineTerminator value[n] = true
    · refine ⟨value.take n ++ [value[n]], [], by rw [htake, List.append_nil], ?_, rfl, .inr ⟨_, _, rfl, h⟩⟩
      rw [if_pos h]
      simp
      omega
    · obtain ⟨pre, post, heq, hlength, hall, hpre⟩ := ih (by omega)
      refine ⟨pre, post ++ [value[n]], by rw [htake, heq, List.append_assoc], ?_, ?_, hpre⟩
      · rw [if_neg h, hlength]
      · rw [List.all_append, hall]
        simpa using h

/-- The scan forward cuts at the first mark. -/
theorem firstMark_spec (value : JsString) (n i : Nat) (hn : i + n = value.length) :
    (match firstMark value n i with
      | some j => value.take j
      | none => value) = value.take i ++ (value.drop i).takeWhile fun c => !isMark c := by
  induction n generalizing i with
  | zero =>
    have hi : i = value.length := hn
    subst hi
    simp [firstMark]
  | succ n ih =>
    have hlt : i < value.length := by omega
    have hget : value[i]? = some value[i] := List.getElem?_eq_getElem hlt
    rw [firstMark, hget, List.drop_eq_getElem_cons hlt]
    by_cases h : isMark value[i] = true
    · simp [h]
    · have htake : value.take (i + 1) = value.take i ++ [value[i]] :=
        List.take_succ_eq_append_getElem hlt
      have ih := ih (i + 1) (by omega)
      rw [htake, List.append_assoc] at ih
      simp only [Option.any_some, h, Bool.false_eq_true, if_false]
      rw [ih, List.takeWhile_cons_of_pos (by simpa using h)]
      rfl

theorem stripQueryAndFragment_eq (value : JsString) :
    stripQueryAndFragment value = queryAndFragment.replace [] value := by
  obtain ⟨pre, post, heq, hlength, hall, hpre⟩ :=
    afterLastTerminator_spec value value.length le_rfl
  rw [List.take_length] at heq
  have hcut : Regex.cutTail isMark (fun c => !isLineTerminator c) value =
      pre ++ post.takeWhile fun c => !isMark c := by
    rw [heq, ← Regex.cutTail_of_all hall]
    -- Before the last line terminator no expression ends the text.
    rcases hpre with rfl | ⟨init, c, rfl, hc⟩
    · rfl
    · have hmark : isMark c = false := by
        rw [← Bool.not_eq_true]
        intro hm
        rw [not_terminator_of_mark hm] at hc
        cases hc
      rw [List.append_assoc, List.append_assoc]
      exact Regex.cutTail_append hmark (by simp [hc])
  have hstart : afterLastTerminator value value.length ≤ value.length := by
    rw [← hlength, heq]
    simp
  rw [queryAndFragment, Regex.replace_tail, hcut]
  show (match firstMark value _ _ with | some i => value.take i | none => value) = _
  rw [firstMark_spec _ _ _ (by omega), ← hlength]
  congr 1
  · rw [heq]
    simp
  · rw [heq]
    simp

theorem trimTrailingSlashes_eq (value : JsString) :
    trimTrailingSlashes value = trailingSlashes.replace [] value := by
  have h (n : Nat) (hn : n ≤ value.length) :
      value.take (slashesFrom value n) = Regex.cutTail isSlash isSlash (value.take n) := by
    induction n with
    | zero => rfl
    | succ n ih =>
      have hlt : n < value.length := hn
      have hget : value[n]? = some value[n] := List.getElem?_eq_getElem hlt
      have htake : value.take (n + 1) = value.take n ++ [value[n]] :=
        List.take_succ_eq_append_getElem hlt
      rw [htake, Regex.cutTail_concat, slashesFrom, hget]
      by_cases hslash : value[n] = unit '/'
      · simp only [isSlash, hslash, decide_true, if_true]
        exact ih (by omega)
      · simp only [isSlash, hslash, decide_false, Option.some.injEq, if_false, Bool.false_eq_true]
        exact htake
  rw [trimTrailingSlashes, h _ le_rfl, List.take_length, trailingSlashes, Regex.replace_tail]

/-- The units of ASCII that match a unit of the suffix are those it is the lower case of. -/
theorem upper_eq_iff {c d : CodeUnit} (hc : c ∈ apiSuffix) (hd : d.val < 128) :
    asciiUpper d = asciiUpper c ↔ asciiLower d = c := by
  have hall : (apiSuffix.all fun c => (List.range 128).all fun n =>
      (asciiUpper (unitOf n) = asciiUpper c) = (asciiLower (unitOf n) = c)) = true := by decide
  have hunit : unitOf d.val = d := Fin.ext (Nat.mod_eq_of_lt d.isLt)
  have := List.all_eq_true.mp (List.all_eq_true.mp hall c hc) d.val (List.mem_range.mpr hd)
  rw [hunit] at this
  simpa using this

theorem apiSuffix_ascii : ∀ c ∈ apiSuffix, c.val < 128 := by
  have hall : (apiSuffix.all fun c => c.val < 128) = true := by decide
  simpa using hall

theorem agree_ascii {m : CaseMapping} {cs value : JsString} (hcs : ∀ c ∈ cs, c ∈ apiSuffix)
    (hv : ∀ d ∈ value, d.val < 128) :
    Regex.agree (cs.map (ignoringCase m)) value = true ↔ value.map asciiLower = cs := by
  induction cs generalizing value with
  | nil => cases value <;> simp
  | cons c cs ih =>
    cases value with
    | nil => simp
    | cons d value =>
      have hc : c.val < 128 := apiSuffix_ascii c (hcs c List.mem_cons_self)
      have hd : d.val < 128 := hv d List.mem_cons_self
      have ih := ih (fun x hx => hcs x (List.mem_cons_of_mem _ hx))
        fun x hx => hv x (List.mem_cons_of_mem _ hx)
      simp only [List.map_cons, Regex.agree_cons, Bool.and_eq_true, ih, ignoringCase, decide_eq_true_eq,
        m.canonicalize_eq hc, upper_eq_iff (hcs c List.mem_cons_self) hd, List.cons.injEq]
      tauto

/-- What matches the suffix without regard to case is in ASCII. -/
theorem ascii_of_agree {m : CaseMapping} {cs value : JsString} (hcs : ∀ c ∈ cs, c ∈ apiSuffix)
    (h : Regex.agree (cs.map (ignoringCase m)) value = true) : ∀ d ∈ value, d.val < 128 := by
  induction cs generalizing value with
  | nil => cases value <;> simp at h ⊢
  | cons c cs ih =>
    cases value with
    | nil => simp
    | cons d value =>
      have hc : c.val < 128 := apiSuffix_ascii c (hcs c List.mem_cons_self)
      simp only [List.map_cons, Regex.agree_cons, Bool.and_eq_true, ignoringCase, decide_eq_true_eq,
        m.canonicalize_eq hc] at h
      rw [List.forall_mem_cons]
      exact ⟨h.1.1, ih (fun x hx => hcs x (List.mem_cons_of_mem _ hx)) h.2⟩

theorem agree_iff (m : CaseMapping) (value : JsString) :
    Regex.agree (apiSuffix.map (ignoringCase m)) value = true ↔ m.toLowerCase value = apiSuffix := by
  by_cases hv : ∀ d ∈ value, d.val < 128
  · rw [m.lower_ascii value hv]
    exact agree_ascii (fun _ hc => hc) hv
  · constructor
    · intro h
      exact absurd (ascii_of_agree (fun _ hc => hc) h) hv
    · intro h
      -- The lower case keeps a unit beyond ASCII or gains a `k`; the suffix has neither.
      have hfar : ∃ c ∈ value, 128 ≤ c.val := by
        simpa using hv
      have hno : unit 'k' ∉ apiSuffix := by decide
      have hlower := m.lower_beyond value hfar
      rw [h] at hlower
      rcases hlower with ⟨c, hc, hle⟩ | hk
      · have := apiSuffix_ascii c hc
        omega
      · exact absurd hk hno

theorem stripTrailingApiPrefix_eq (m : CaseMapping) (value : JsString) :
    stripTrailingApiPrefix m value = (trailingApiPrefix m).replace [] value := by
  rw [trailingApiPrefix, Regex.replace_ending, List.length_map]
  simp only [agree_iff]
  unfold stripTrailingApiPrefix
  by_cases h : m.toLowerCase (value.drop (value.length - apiSuffix.length)) = apiSuffix
  · -- A text that ends so is long enough.
    have hlength := Regex.agree_length ((agree_iff m _).mpr h)
    rw [List.length_map, List.length_drop] at hlength
    rw [if_pos ⟨by omega, h⟩, if_pos h]
  · rw [if_neg fun hb => h hb.2, if_neg h]

end Bazar.UrlParts
