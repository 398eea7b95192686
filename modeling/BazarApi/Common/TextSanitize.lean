import Mathlib.Data.List.Chain
import BazarApi.Common.UrlParts

/- What people type, cleaned, and what the logs show of it (`common/text-sanitize.ts`).
   `cleanText` is translated replacement by replacement; `maskEmail` is a scan that takes the
   place of an expression with three groups, and the two agree (`maskEmail_eq`).

   Correspondence (TypeScript ↔ Lean):
     `replace(/[…]+/g, ' ')`, `replace(/ {2,}/g, ' ')` ↔ `replaceRuns`
     `replace(/[…]/g, '')`                             ↔ `removeAll`
     `email.charAt(0)`, `domain.startsWith('.')`        ↔ `email.take 1`, `domain.head?` -/
open Json Utf16

namespace Bazar.TextSanitize

/-! Cleaning. -/

/-- `SPACING_CONTROLS`. -/
def isSpacingControl (c : CodeUnit) : Bool := 0x9 ≤ c.val && c.val ≤ 0xD

/-- `CONTROLS`. -/
def isControl (c : CodeUnit) : Bool := c.val ≤ 0x1F || 0x7F ≤ c.val && c.val ≤ 0x9F

/-- `INVISIBLES`. -/
def isInvisible (c : CodeUnit) : Bool :=
  0x200B ≤ c.val && c.val ≤ 0x200F || 0x202A ≤ c.val && c.val ≤ 0x202E || c.val = 0x2060 ||
    0x2066 ≤ c.val && c.val ≤ 0x2069 || c.val = 0xFEFF

def isBlank (c : CodeUnit) : Bool := c = unit ' '

/-- A run of units, or what stands for it when it has `least` units. -/
def runOf (least : Nat) (replacement run : JsString) : JsString :=
  if least ≤ run.length then replacement else run

/-- Runs of a class with at least so many units are replaced; `run` is the one under way. -/
def replaceRuns (p : CodeUnit → Bool) (least : Nat) (replacement : JsString) :
    JsString → JsString → JsString
  | run, [] => runOf least replacement run
  | run, c :: rest =>
    if p c then replaceRuns p least replacement (run ++ [c]) rest
    else runOf least replacement run ++ c :: replaceRuns p least replacement [] rest

def removeAll (p : CodeUnit → Bool) (s : JsString) : JsString := s.filter fun c => !p c

/-- `cleanText` of a text. -/
def cleanText (value : JsString) : JsString :=
  let spaced := replaceRuns isSpacingControl 1 [unit ' '] [] value
  let visible := removeAll isInvisible (removeAll isControl spaced)
  trim (replaceRuns isBlank 2 [unit ' '] [] visible)

/-! What cleaning leaves. -/

/-- A text without controls, invisible units, double spaces, and white space at its ends. -/
structure Clean (s : JsString) : Prop where
  visible : ∀ c ∈ s, isControl c = false ∧ isInvisible c = false
  single : s.IsChain fun a b => ¬ (a = unit ' ' ∧ b = unit ' ')
  leading : ∀ c ∈ s.head?, isSpace c = false
  trailing : ∀ c ∈ s.getLast?, isSpace c = false

section
variable {p : CodeUnit → Bool} {n : Nat} {replacement run s : JsString} {c : CodeUnit}

theorem mem_runOf (h : c ∈ runOf n replacement run) : c ∈ replacement ∨ c ∈ run := by
  unfold runOf at h
  split at h
  · exact .inl h
  · exact .inr h

theorem mem_replaceRuns (h : c ∈ replaceRuns p n replacement run s) :
    c ∈ replacement ∨ c ∈ run ∨ c ∈ s := by
  induction s generalizing run with
  | nil =>
    rcases mem_runOf h with h | h
    · exact .inl h
    · exact .inr (.inl h)
  | cons d rest ih =>
    rw [replaceRuns] at h
    split at h
    · rcases ih h with h | h | h
      · exact .inl h
      · rw [List.mem_append, List.mem_singleton] at h
        rcases h with h | rfl
        · exact .inr (.inl h)
        · exact .inr (.inr List.mem_cons_self)
      · exact .inr (.inr (List.mem_cons_of_mem _ h))
    · rw [List.mem_append, List.mem_cons] at h
      rcases h with h | rfl | h
      · rcases mem_runOf h with h | h
        · exact .inl h
        · exact .inr (.inl h)
      · exact .inr (.inr List.mem_cons_self)
      · rcases ih h with h | h | h
        · exact .inl h
        · simp at h
        · exact .inr (.inr (List.mem_cons_of_mem _ h))

theorem replaceRuns_of_none (hn : n ≠ 0) (h : ∀ c ∈ s, p c = false) :
    replaceRuns p n replacement [] s = s := by
  have hrun : runOf n replacement [] = [] := if_neg (by simpa using hn)
  induction s with
  | nil => exact hrun
  | cons c rest ih =>
    have hc : ¬ p c = true := by simp [h c List.mem_cons_self]
    rw [replaceRuns, if_neg hc, ih fun c hc => h c (List.mem_cons_of_mem _ hc), hrun]
    rfl

/-- A run of spaces under way leaves one at most. -/
theorem runOf_blank (hrun : ∀ c ∈ run, c = unit ' ') :
    runOf 2 [unit ' '] run = [] ∨ runOf 2 [unit ' '] run = [unit ' '] := by
  unfold runOf
  match run, hrun with
  | [], _ => exact .inl rfl
  | [c], hrun => exact .inr (by rw [hrun c List.mem_cons_self]; rfl)
  | _ :: _ :: _, _ => exact .inr (if_pos (by simp))

theorem replaceRuns_single (hrun : ∀ c ∈ run, c = unit ' ') :
    (replaceRuns isBlank 2 [unit ' '] run s).IsChain fun a b => ¬ (a = unit ' ' ∧ b = unit ' ') := by
  induction s generalizing run with
  | nil =>
    rw [replaceRuns]
    rcases runOf_blank hrun with h | h
    · rw [h]
      exact .nil
    · rw [h]
      exact .singleton _
  | cons c rest ih =>
    rw [replaceRuns]
    split
    case isTrue hc =>
      refine ih ?_
      intro d hd
      rw [List.mem_append, List.mem_singleton] at hd
      rcases hd with hd | rfl
      · exact hrun d hd
      · exact of_decide_eq_true hc
    case isFalse hc =>
      have hc : c ≠ unit ' ' := by simpa [isBlank] using hc
      have hrest : (c :: replaceRuns isBlank 2 [unit ' '] [] rest).IsChain
          fun a b => ¬ (a = unit ' ' ∧ b = unit ' ') := by
        refine (ih (by simp)).cons ?_
        rintro d - ⟨h, -⟩
        exact hc h
      rcases runOf_blank hrun with h | h
      · rw [h]
        exact hrest
      · rw [h]
        refine List.isChain_cons_cons.mpr ⟨?_, hrest⟩
        rintro ⟨-, h⟩
        exact hc h

theorem runOf_single (hrun : ∀ c ∈ run, c = unit ' ')
    (h : (run ++ s).IsChain fun a b => ¬ (a = unit ' ' ∧ b = unit ' ')) :
    runOf 2 [unit ' '] run = run := by
  unfold runOf
  match run, hrun, h with
  | [], _, _ => rfl
  | [_], _, _ => rfl
  | a :: b :: _, hrun, h =>
    refine absurd ⟨?_, ?_⟩ (List.isChain_cons_cons.mp h).1
    · exact hrun a (by simp)
    · exact hrun b (by simp)

theorem replaceRuns_of_single (hrun : ∀ c ∈ run, c = unit ' ')
    (h : (run ++ s).IsChain fun a b => ¬ (a = unit ' ' ∧ b = unit ' ')) :
    replaceRuns isBlank 2 [unit ' '] run s = run ++ s := by
  induction s generalizing run with
  | nil => rw [replaceRuns, runOf_single hrun h, List.append_nil]
  | cons c rest ih =>
    rw [replaceRuns]
    split
    case isTrue hc =>
      rw [List.append_cons] at h
      rw [List.append_cons run c rest]
      refine ih ?_ h
      intro d hd
      rw [List.mem_append, List.mem_singleton] at hd
      rcases hd with hd | rfl
      · exact hrun d hd
      · exact of_decide_eq_true hc
    case isFalse hc =>
      have hrest : rest <:+ run ++ c :: rest := ⟨run ++ [c], by simp⟩
      have ih : replaceRuns isBlank 2 [unit ' '] [] rest = [] ++ rest :=
        ih (by simp) (h.suffix hrest)
      rw [runOf_single hrun h, ih, List.nil_append]

end

theorem cleanText_clean (value : JsString) : Clean (cleanText value) := by
  unfold cleanText
  have hblank : isControl (unit ' ') = false ∧ isInvisible (unit ' ') = false := by decide
  constructor
  · intro c hc
    rcases mem_replaceRuns ((trimBy_within _ _).subset hc) with h | h | h
    · rw [List.mem_singleton.mp h]
      exact hblank
    · simp at h
    · simp only [removeAll, List.mem_filter, Bool.not_eq_true'] at h
      exact ⟨h.1.2, h.2⟩
  · exact List.IsChain.infix (replaceRuns_single (by simp)) (trimBy_within _ _)
  · exact trimBy_leading
  · exact trimBy_trailing

theorem cleanText_of_clean {value : JsString} (h : Clean value) : cleanText value = value := by
  have hspacing (c : CodeUnit) (hc : c ∈ value) : isSpacingControl c = false := by
    have := (h.visible c hc).1
    simp only [isControl, Bool.or_eq_false_iff] at this
    simp [isSpacingControl] at this ⊢
    omega
  have hcontrols : removeAll isControl value = value := by
    refine List.filter_eq_self.mpr ?_
    intro c hc
    rw [(h.visible c hc).1]
    rfl
  have hinvisibles : removeAll isInvisible value = value := by
    refine List.filter_eq_self.mpr ?_
    intro c hc
    rw [(h.visible c hc).2]
    rfl
  have hsingle : replaceRuns isBlank 2 [unit ' '] [] value = [] ++ value :=
    replaceRuns_of_single (by simp) h.single
  unfold cleanText
  dsimp only
  rw [replaceRuns_of_none (by decide) hspacing, hcontrols, hinvisibles, hsingle]
  exact trimBy_of_ends h.leading h.trailing

/-- Cleaning twice is cleaning once. -/
theorem cleanText_idempotent (value : JsString) : cleanText (cleanText value) = cleanText value :=
  cleanText_of_clean (cleanText_clean value)

/-! Masking. -/

def maskEmail (email : JsString) : JsString :=
  if email.any isSpace then text "***"
  else
    match indexOf email (unit '@') with
    | none => text "***"
    | some at_ =>
      if at_ < 1 ∨ lastIndexOf email (unit '@') email.length ≠ some at_ then text "***"
      else
        let domain := email.drop (at_ + 1)
        if domain.head? = some (unit '.') then text "***"
        else
          match lastIndexOf domain (unit '.') (domain.length - 2) with
          | none => text "***"
          | some dot => email.take 1 ++ text "***@" ++ domain.take 1 ++ text "***" ++ domain.drop dot

/-- `[^@\s]` and `[^@\s.]`. -/
def isWord (c : CodeUnit) : Bool := c ≠ unit '@' && !isSpace c
def isFirst (c : CodeUnit) : Bool := isWord c && c ≠ unit '.'

/-- `/(\.[^@\s]+)$/`. -/
def topLevel : Regex CodeUnit :=
  .seq (.group 3 (.seq (.char fun c => c = unit '.') (Regex.plus isWord))) .stop

/-- `/^([^@\s])[^@\s]*@([^@\s.])[^@\s]*(\.[^@\s]+)$/`. -/
def emailPattern : Regex CodeUnit :=
  .seq .start <| .seq (.group 1 (.char isWord)) <| .seq (.star isWord) <|
    .seq (.char fun c => c = unit '@') <| .seq (.group 2 (.char isFirst)) <| .seq (.star isWord)
      topLevel

/-- The three groups with stars between them, where the expression matches. -/
def maskByPattern (email : JsString) : JsString :=
  match emailPattern.exec email with
  | some (_, st) => (st.groups 1).getD [] ++ text "***@" ++ (st.groups 2).getD [] ++ text "***" ++
      (st.groups 3).getD []
  | none => text "***"

/-! The parts of an address. -/

/-- The end of a domain: from the last point that has something after it. -/
def endOf : JsString → Option JsString
  | [] => none
  | c :: rest =>
    match endOf rest with
    | some top => some top
    | none => if c = unit '.' ∧ rest ≠ [] then some (c :: rest) else none

/-- What is shown of an address: its first unit, the first of its domain, and the domain's end. -/
def partsOf : JsString → Option (CodeUnit × CodeUnit × JsString)
  | [] => none
  | c :: rest =>
    if isWord c then
      match rest.dropWhile isWord with
      | a :: d :: domain =>
        if a = unit '@' ∧ isFirst d = true ∧ domain.all isWord = true then
          (endOf domain).map fun top => (c, d, top)
        else none
      | _ => none
    else none

def shown : Option (CodeUnit × CodeUnit × JsString) → JsString
  | some (c, d, top) => [c] ++ text "***@" ++ [d] ++ text "***" ++ top
  | none => text "***"

/-! The expression finds the parts. -/

theorem point_isWord : isWord (unit '.') = true := by decide

theorem at_not_isWord : isWord (unit '@') = false := by decide

theorem topLevel_results (pos : Nat) (rest : JsString) (groups : Nat → Option JsString) :
    (topLevel.results ⟨pos, rest, groups⟩).map Regex.State.groups =
      if rest.head? = some (unit '.') ∧ 2 ≤ rest.length ∧ rest.all isWord = true then
        [Regex.capture groups 3 rest]
      else [] := by
  unfold topLevel Regex.plus
  rw [Regex.group_stop, Regex.seq_assoc, Regex.seq_char]
  cases rest with
  | nil => simp
  | cons c rest =>
    by_cases hc : c = unit '.'
    · subst hc
      dsimp only
      rw [decide_eq_true rfl, if_pos rfl, Regex.seq_assoc, Regex.results_tail]
      cases rest with
      | nil => simp
      | cons d rest =>
        dsimp only
        by_cases h : (isWord d && rest.all isWord) = true
        · have hall : (unit '.' :: d :: rest).all isWord = true := by
            simpa [point_isWord] using h
          rw [if_pos h, if_pos ⟨rfl, by simp, hall⟩]
          simp only [List.map_cons, List.map_nil, List.cons.injEq, and_true]
          congr 1
          refine List.take_of_length_le ?_
          simp
          omega
        · have hall : ¬ (unit '.' :: d :: rest).all isWord = true := by
            simpa [point_isWord] using h
          rw [if_neg h, if_neg fun hb => hall hb.2.2]
          rfl
    · simp [hc]

/-- A greedy class before the end of a domain: the end is from the last point. -/
theorem domain_results (pos : Nat) (rest : JsString) (groups : Nat → Option JsString) :
    ((Regex.seq (.star isWord) topLevel).results ⟨pos, rest, groups⟩).head?.map
        Regex.State.groups =
      if rest.all isWord = true then (endOf rest).map (Regex.capture groups 3) else none := by
  rw [← List.head?_map]
  show ((((Regex.leave isWord pos rest).map fun x => ⟨x.1, x.2, groups⟩).flatMap
    topLevel.results).map Regex.State.groups).head? = _
  induction rest generalizing pos with
  | nil => simp [Regex.leave_nil, topLevel_results, endOf]
  | cons c rest ih =>
    have hlast := topLevel_results pos (c :: rest) groups
    by_cases hc : isWord c = true
    · rw [Regex.leave_cons, if_pos hc, List.map_append, List.flatMap_append, List.map_append,
        List.head?_append, ih, List.all_cons, hc, Bool.true_and, endOf]
      simp only [List.map_cons, List.map_nil, List.flatMap_cons, List.flatMap_nil, List.append_nil,
        hlast, List.all_cons, hc, Bool.true_and]
      by_cases hall : rest.all isWord = true
      · rw [if_pos hall]
        cases hend : endOf rest with
        | some top => simp [hall]
        | none =>
          have hlength : 2 ≤ (c :: rest).length ↔ rest ≠ [] := by
            cases rest <;> simp
          by_cases hpoint : c = unit '.' ∧ rest ≠ []
          · have hshort : 1 ≤ rest.length := List.length_pos_of_ne_nil hpoint.2
            simp [hall, hpoint.1, hpoint.2, hshort]
          · have : ¬ (c = unit '.' ∧ 2 ≤ (c :: rest).length) := by
              rwa [hlength]
            simp only [List.head?_cons, Option.some.injEq, hall, and_true, if_true, if_neg this,
              if_neg hpoint]
            simp
      · simp [hall]
    · have hpoint : c ≠ unit '.' := by
        intro h
        rw [h] at hc
        exact hc point_isWord
      have hall : ¬ (c :: rest).all isWord = true := by simp [hc]
      rw [Regex.leave_cons, if_neg hc, if_neg hall]
      simp only [List.map_cons, List.map_nil, List.flatMap_cons, List.flatMap_nil, List.append_nil,
        hlast, if_neg fun hb : _ ∧ _ ∧ _ => hall hb.2.2]
      rfl

theorem isWord_of_isFirst {c : CodeUnit} (h : isFirst c = true) : isWord c = true ∧ c ≠ unit '.' := by
  simpa [isFirst] using h

theorem emailPattern_groups (email : JsString) :
    (emailPattern.exec email).map (fun x => x.2.groups) =
      (partsOf email).map fun x =>
        Regex.capture (Regex.capture (Regex.capture (fun _ => none) 1 [x.1]) 2 [x.2.1]) 3 x.2.2 := by
  unfold emailPattern
  rw [Regex.exec_start, Option.map_map, Regex.seq_group_char]
  cases email with
  | nil => rfl
  | cons c rest =>
    dsimp only [partsOf]
    by_cases hc : isWord c = true
    · rw [if_pos hc, if_pos hc, Regex.star_seq]
      · cases rest.dropWhile isWord with
        | nil => simp
        | cons a after =>
          rw [Regex.seq_char]
          by_cases ha : a = unit '@'
          · dsimp only
            rw [decide_eq_true ha, if_pos rfl, Regex.seq_group_char]
            cases after with
            | nil => rfl
            | cons d domain =>
              dsimp only
              by_cases hd : isFirst d = true
              · have hdomain := domain_results (0 + 1 + (rest.takeWhile isWord).length + 1 + 1) domain
                  (Regex.capture (Regex.capture (fun _ => none) 1 [c]) 2 [d])
                rw [if_pos hd]
                show Option.map Regex.State.groups _ = _
                rw [hdomain]
                by_cases hall : domain.all isWord = true
                · rw [if_pos hall, if_pos ⟨ha, hd, hall⟩, Option.map_map]
                  rfl
                · rw [if_neg hall, if_neg fun h => hall h.2.2]
                  rfl
              · rw [if_neg hd, if_neg fun h => hd h.2.1]
                rfl
          · dsimp only
            rw [decide_eq_false ha, if_neg Bool.false_ne_true]
            cases after with
            | nil => rfl
            | cons d domain =>
              dsimp only
              rw [if_neg fun h => ha h.1]
              rfl
      · intro st a after hst ha
        obtain ⟨pos, rest, groups⟩ := st
        rw [Regex.seq_char, show rest = a :: after from hst]
        have : a ≠ unit '@' := by
          intro h
          rw [h, at_not_isWord] at ha
          exact Bool.false_ne_true ha
        simp [this]
    · rw [if_neg hc, if_neg hc]
      rfl

theorem maskByPattern_eq (email : JsString) : maskByPattern email = shown (partsOf email) := by
  have h := emailPattern_groups email
  unfold maskByPattern
  cases hexec : emailPattern.exec email with
  | none =>
    rw [hexec, Option.map_none] at h
    rw [Option.map_eq_none_iff.mp h.symm]
    rfl
  | some x =>
    rw [hexec, Option.map_some] at h
    obtain ⟨parts, hparts, hgroups⟩ := Option.map_eq_some_iff.mp h.symm
    rw [hparts]
    dsimp only
    rw [← hgroups]
    rfl

/-! The scan finds them too. -/

theorem lastBelow_cons (c : CodeUnit) (rest : JsString) (d : CodeUnit) (n : Nat) :
    lastBelow (c :: rest) d (n + 1) =
      match lastBelow rest d n with
      | some k => some (k + 1)
      | none => if c = d then some 0 else none := by
  induction n with
  | zero => simp [lastBelow]
  | succ n ih =>
    rw [lastBelow, ih, lastBelow, List.getElem?_cons_succ]
    by_cases h : rest[n]? = some d <;> simp [h]

/-- The last point but for one at the very end begins the end of a domain. -/
theorem lastBelow_point (domain : JsString) :
    (lastBelow domain (unit '.') (domain.length - 1)).map domain.drop = endOf domain := by
  induction domain with
  | nil => rfl
  | cons c rest ih =>
    rw [endOf, ← ih, List.length_cons, Nat.add_sub_cancel]
    cases rest with
    | nil => simp [lastBelow]
    | cons d rest =>
      rw [List.length_cons, lastBelow_cons, Nat.add_sub_cancel]
      cases lastBelow (d :: rest) (unit '.') rest.length with
      | some k => rfl
      | none => by_cases hc : c = unit '.' <;> simp [hc]

theorem lastIndexOf_point {d : CodeUnit} (hd : d ≠ unit '.') (domain : JsString) :
    (lastIndexOf (d :: domain) (unit '.') ((d :: domain).length - 2)).map (d :: domain).drop =
      endOf domain := by
  have hend : endOf (d :: domain) = endOf domain := by
    rw [endOf]
    cases endOf domain <;> simp [hd]
  rw [← hend]
  unfold lastIndexOf
  cases domain with
  | nil => simp [lastBelow, hd, endOf]
  | cons e domain =>
    rw [← lastBelow_point]
    congr 2
    simp only [List.length_cons]
    omega

theorem indexOf_append {before : JsString} {c : CodeUnit} (h : c ∉ before) (after : JsString) :
    indexOf (before ++ c :: after) c = some before.length := by
  unfold indexOf
  induction before with
  | nil => simp [List.findIdx?_cons]
  | cons d before ih =>
    rw [List.mem_cons, not_or] at h
    rw [List.cons_append, List.findIdx?_cons, ih h.2, decide_eq_false (Ne.symm h.1)]
    rfl

theorem lastBelow_none {s : JsString} {c : CodeUnit} (h : c ∉ s) (n : Nat) :
    lastBelow s c n = none := by
  induction n with
  | zero => rfl
  | succ n ih => rw [lastBelow, ih, if_neg fun hn => h (List.mem_of_getElem? hn)]

theorem lastIndexOf_append (before after : JsString) (c : CodeUnit) :
    lastIndexOf (before ++ c :: after) c (before ++ c :: after).length =
      match lastIndexOf after c after.length with
      | some k => some (before.length + 1 + k)
      | none => some before.length := by
  have hall (s : JsString) : lastIndexOf s c s.length = lastBelow s c s.length := by
    unfold lastIndexOf
    congr 1
    omega
  rw [hall, hall]
  induction before with
  | nil =>
    rw [List.nil_append, List.length_cons, lastBelow_cons]
    cases lastBelow after c after.length with
    | none => simp
    | some k => simp [Nat.add_comm]
  | cons d before ih =>
    rw [List.cons_append, List.length_cons, lastBelow_cons, ih]
    cases lastBelow after c after.length with
    | none => rfl
    | some k =>
      dsimp only [List.length_cons]
      congr 1
      omega

theorem lastIndexOf_none {s : JsString} {c : CodeUnit} (h : c ∉ s) (position : Int) :
    lastIndexOf s c position = none :=
  lastBelow_none h _

theorem lastIndexOf_some {s : JsString} {c : CodeUnit} (h : c ∈ s) :
    ∃ k, lastIndexOf s c s.length = some k := by
  obtain ⟨before, after, rfl⟩ := List.append_of_mem h
  rw [lastIndexOf_append]
  cases lastIndexOf after c after.length with
  | none => exact ⟨_, rfl⟩
  | some k => exact ⟨_, rfl⟩

theorem isWord_of_not_isSpace {c : CodeUnit} (h : isSpace c = false) :
    isWord c = true ↔ c ≠ unit '@' := by
  simp [isWord, h]

theorem all_isWord {s : JsString} (hspace : s.any isSpace = false) :
    s.all isWord = true ↔ unit '@' ∉ s := by
  rw [List.any_eq_false] at hspace
  rw [List.all_eq_true]
  constructor
  · intro hall hat
    have := hall _ hat
    rw [at_not_isWord] at this
    exact Bool.false_ne_true this
  · intro hat c hc
    rw [isWord_of_not_isSpace (by simpa using hspace c hc)]
    rintro rfl
    exact hat hc

theorem not_isSpace_of_all {s : JsString} (h : s.all isWord = true) : s.any isSpace = false := by
  rw [List.any_eq_false]
  intro c hc
  have := List.all_eq_true.mp h c hc
  simp only [isWord, Bool.and_eq_true, Bool.not_eq_true'] at this
  simp [this.2]

theorem partsOf_append {c : CodeUnit} {name : JsString} (h : (c :: name).all isWord = true)
    (after : JsString) :
    partsOf (c :: (name ++ unit '@' :: after)) =
      match after with
      | [] => none
      | d :: domain =>
        if isFirst d = true ∧ domain.all isWord = true then
          (endOf domain).map fun top => (c, d, top)
        else none := by
  rw [List.all_cons, Bool.and_eq_true] at h
  have hname (x : CodeUnit) (hx : x ∈ name) : isWord x = true := List.all_eq_true.mp h.2 x hx
  have hdrop : (name ++ unit '@' :: after).dropWhile isWord = unit '@' :: after := by
    rw [List.dropWhile_append_of_pos hname, List.dropWhile_cons_of_neg]
    rw [at_not_isWord]
    exact Bool.false_ne_true
  rw [partsOf, if_pos h.1, hdrop]
  cases after with
  | nil => rfl
  | cons d domain => simp

theorem maskEmail_append {c : CodeUnit} {name after : JsString}
    (hspace : (c :: (name ++ unit '@' :: after)).any isSpace = false)
    (hbefore : unit '@' ∉ c :: name) (hafter : unit '@' ∉ after) :
    maskEmail (c :: (name ++ unit '@' :: after)) =
      match after with
      | [] => text "***"
      | d :: domain =>
        if d = unit '.' then text "***" else shown ((endOf domain).map fun top => (c, d, top)) := by
  have hfirst := indexOf_append hbefore after
  have hlast := lastIndexOf_append (c :: name) after (unit '@')
  rw [lastIndexOf_none hafter] at hlast
  dsimp only at hlast
  rw [List.cons_append] at hfirst hlast
  have hdomain : (c :: (name ++ unit '@' :: after)).drop ((c :: name).length + 1) = after := by
    simp
  unfold maskEmail
  rw [if_neg (by rw [hspace]; exact Bool.false_ne_true), hfirst]
  dsimp only
  rw [hlast, if_neg (by simp), hdomain]
  cases after with
  | nil => rfl
  | cons d domain =>
    dsimp only
    by_cases hd : d = unit '.'
    · simp [hd]
    · have hpoint := lastIndexOf_point hd domain
      rw [if_neg hd, ← hpoint, List.head?_cons, if_neg fun h => hd (Option.some.inj h)]
      cases lastIndexOf (d :: domain) (unit '.') ((d :: domain).length - 2) <;> rfl

theorem partsOf_split {email : JsString} {x : CodeUnit × CodeUnit × JsString}
    (h : partsOf email = some x) :
    ∃ before after, email = before ++ unit '@' :: after ∧ before.all isWord = true ∧
      after.all isWord = true := by
  cases email with
  | nil => simp [partsOf] at h
  | cons c rest =>
    have hrest := List.takeWhile_append_dropWhile (p := isWord) (l := rest)
    rw [partsOf] at h
    split at h
    case isFalse => simp at h
    case isTrue hc =>
      split at h
      case h_2 => simp at h
      case h_1 a d domain hdrop =>
        split at h
        case isFalse => simp at h
        case isTrue hall =>
          obtain ⟨rfl, hd, hdomain⟩ := hall
          refine ⟨c :: rest.takeWhile isWord, d :: domain, ?_, ?_, ?_⟩
          · rw [List.cons_append, ← hdrop, hrest]
          · rw [List.all_cons, hc, Bool.true_and, List.all_takeWhile]
          · rw [List.all_cons, (isWord_of_isFirst hd).1, hdomain]
            rfl

theorem maskEmail_shown (email : JsString) : maskEmail email = shown (partsOf email) := by
  by_cases hspace : email.any isSpace = true
  · have hparts : partsOf email = none := by
      rw [Option.eq_none_iff_forall_ne_some]
      intro x hx
      obtain ⟨before, after, rfl, hbefore, hafter⟩ := partsOf_split hx
      have hat : isSpace (unit '@') = false := by decide
      rw [List.any_append, List.any_cons, not_isSpace_of_all hbefore, not_isSpace_of_all hafter,
        hat] at hspace
      exact Bool.false_ne_true hspace
    rw [hparts]
    exact if_pos hspace
  · rw [Bool.not_eq_true] at hspace
    by_cases hat : unit '@' ∈ email
    · obtain ⟨before, after, rfl, hbefore⟩ := List.eq_append_cons_of_mem hat
      have hfirst := indexOf_append hbefore after
      cases before with
      | nil =>
        have hparts : partsOf (unit '@' :: after) = none := by
          rw [partsOf, at_not_isWord]
          rfl
        rw [List.nil_append] at hspace hfirst ⊢
        rw [hparts]
        unfold maskEmail
        rw [if_neg (by rw [hspace]; exact Bool.false_ne_true), hfirst]
        simp [shown]
      | cons c name =>
        rw [List.cons_append] at hspace hfirst ⊢
        have hspaces : (c :: name).any isSpace = false ∧ after.any isSpace = false := by
          simp only [List.any_cons, List.any_append, Bool.or_eq_false_iff] at hspace ⊢
          exact ⟨⟨hspace.1, hspace.2.1⟩, hspace.2.2.2⟩
        have hname : (c :: name).all isWord = true := (all_isWord hspaces.1).mpr hbefore
        rw [partsOf_append hname]
        by_cases hafter : unit '@' ∈ after
        · -- A second `@`: the last one is another than the first.
          have hlast := lastIndexOf_append (c :: name) after (unit '@')
          rw [List.cons_append] at hlast
          have hmask : maskEmail (c :: (name ++ unit '@' :: after)) = text "***" := by
            unfold maskEmail
            rw [if_neg (by rw [hspace]; exact Bool.false_ne_true), hfirst]
            dsimp only
            refine if_pos (.inr ?_)
            rw [hlast]
            obtain ⟨k, hk⟩ := lastIndexOf_some hafter
            rw [hk]
            dsimp only
            rw [ne_eq, Option.some.injEq]
            omega
          rw [hmask]
          cases after with
          | nil => rfl
          | cons d domain =>
            dsimp only
            rw [if_neg]
            · rfl
            · rintro ⟨hd, hdomain⟩
              refine (all_isWord hspaces.2).mp ?_ hafter
              rw [List.all_cons, (isWord_of_isFirst hd).1, hdomain]
              rfl
        · rw [maskEmail_append hspace hbefore hafter]
          cases after with
          | nil => rfl
          | cons d domain =>
            have hall := (all_isWord hspaces.2).mpr hafter
            rw [List.all_cons, Bool.and_eq_true] at hall
            dsimp only
            by_cases hd : d = unit '.'
            · rw [if_pos hd, if_neg fun h => (isWord_of_isFirst h.1).2 hd]
              rfl
            · have hd' : isFirst d = true := by simp [isFirst, hall.1, hd]
              rw [if_neg hd, if_pos ⟨hd', hall.2⟩]
    · have hindex : indexOf email (unit '@') = none := by
        unfold indexOf
        rw [List.findIdx?_eq_none_iff]
        intro c hc
        refine decide_eq_false ?_
        intro h
        rw [h] at hc
        exact hat hc
      have hparts : partsOf email = none := by
        rw [Option.eq_none_iff_forall_ne_some]
        intro x hx
        obtain ⟨before, after, rfl, -, -⟩ := partsOf_split hx
        simp at hat
      rw [hparts]
      unfold maskEmail
      rw [if_neg (by rw [hspace]; exact Bool.false_ne_true), hindex]
      rfl

/-- The scan masks as the expression did. -/
theorem maskEmail_eq (email : JsString) : maskEmail email = maskByPattern email := by
  rw [maskEmail_shown, maskByPattern_eq]

/-- Each of the scans returns what the expression in its place did, for every text. -/
theorem scans_eq_expressions (m : CaseMapping) (value : JsString) :
    UrlParts.stripQueryAndFragment value = UrlParts.queryAndFragment.replace [] value ∧
    UrlParts.trimTrailingSlashes value = UrlParts.trailingSlashes.replace [] value ∧
    UrlParts.stripTrailingApiPrefix m value = (UrlParts.trailingApiPrefix m).replace [] value ∧
    maskEmail value = maskByPattern value :=
  ⟨UrlParts.stripQueryAndFragment_eq value, UrlParts.trimTrailingSlashes_eq value,
    UrlParts.stripTrailingApiPrefix_eq m value, maskEmail_eq value⟩

end Bazar.TextSanitize
