import BazarApi.Finance.Calendar

/- Dates read back from their text: what `toISOString` prints, and calendar dates. -/
namespace Bazar.Finance

open Txn

/-- A time value of a `Date`. -/
def IsTime (t : Instant) : Prop := -8640000000000000 ≤ t ∧ t ≤ 8640000000000000

instance (t : Instant) : Decidable (IsTime t) := inferInstanceAs (Decidable (_ ∧ _))

/-! Reading. -/

/-- A number of `width` digits. -/
def digits (width : Nat) (cs : List Char) : Option (Nat × List Char) :=
  if (cs.take width).length = width ∧ (cs.take width).all Char.isDigit then
    some (Nat.ofDigitChars 10 (cs.take width) 0, cs.drop width)
  else none

def mark (c : Char) : List Char → Option (List Char)
  | [] => none
  | d :: cs => if d = c then some cs else none

def readYear (cs : List Char) : Option (Int × List Char) :=
  match cs with
  | [] => none
  | c :: cs' =>
    if c = '-' then (digits 6 cs').map fun r => (-(r.1 : Int), r.2)
    else if c = '+' then (digits 6 cs').map fun r => ((r.1 : Int), r.2)
    else (digits 4 cs).map fun r => ((r.1 : Int), r.2)

/-- `YYYY-MM-DDTHH:mm:ss.sssZ`, or the year as a sign and six digits. -/
def readIso (cs : List Char) : Option Instant := do
  let (year, cs) ← readYear cs
  let (month, cs) ← digits 2 (← mark '-' cs)
  let (day, cs) ← digits 2 (← mark '-' cs)
  let (hour, cs) ← digits 2 (← mark 'T' cs)
  let (minute, cs) ← digits 2 (← mark ':' cs)
  let (second, cs) ← digits 2 (← mark ':' cs)
  let (ms, cs) ← digits 3 (← mark '.' cs)
  let cs ← mark 'Z' cs
  if cs.isEmpty then
    some (msPerDay * dayOf year month day +
      ((hour * 3600000 + minute * 60000 + second * 1000 + ms : Nat) : Int))
  else none

/-- What `isCalendarDate` accepts. -/
def CalendarDate.read (cs : List Char) : Option CalendarDate := do
  let (year, cs) ← digits 4 cs
  let (month, cs) ← digits 2 (← mark '-' cs)
  let (day, cs) ← digits 2 (← mark '-' cs)
  if h : (1 ≤ year ∧ year ≤ 9999) ∧ (1 ≤ month ∧ month ≤ 12) ∧
      (1 ≤ day ∧ (day : Int) ≤ daysInMonth (isLeap year) month) ∧ cs = [] then
    some ⟨year, month, day, h.1, h.2.1, h.2.2.1⟩
  else none

/-! What is printed is read back. -/

theorem padStart_toList (width n : Nat) :
    (padStart width n).toList =
      List.replicate (width - (Nat.toDigits 10 n).length) '0' ++ Nat.toDigits 10 n := by
  unfold padStart
  exact String.toList_ofList

theorem padStart_isDigit (width n : Nat) : ∀ c ∈ (padStart width n).toList, c.isDigit = true := by
  intro c hc
  rw [padStart_toList] at hc
  rcases List.mem_append.mp hc with hc | hc
  · rw [(List.mem_replicate.mp hc).2]
    decide
  · exact Nat.isDigit_of_mem_toDigits (by decide) (by decide) hc

theorem padStart_cons (width n : Nat) :
    ∃ c cs, (padStart width n).toList = c :: cs ∧ c.isDigit = true := by
  have hne : (padStart width n).toList ≠ [] := by
    rw [padStart_toList]
    exact List.append_ne_nil_of_right_ne_nil _ Nat.toDigits_ne_nil
  obtain ⟨c, cs, h⟩ := List.exists_cons_of_ne_nil hne
  exact ⟨c, cs, h, padStart_isDigit width n c (h ▸ List.mem_cons_self)⟩

theorem digits_padStart (width n : Nat) (hw : 0 < width) (h : n < 10 ^ width) (rest : List Char) :
    digits width ((padStart width n).toList ++ rest) = some (n, rest) := by
  have hlen : (padStart width n).toList.length = width := by
    have := (Nat.length_toDigits_le_iff (b := 10) (by decide) hw).mpr h
    rw [padStart_toList, List.length_append, List.length_replicate]
    omega
  have htake : ((padStart width n).toList ++ rest).take width = (padStart width n).toList :=
    List.take_left' hlen
  have hdrop : ((padStart width n).toList ++ rest).drop width = rest := List.drop_left' hlen
  have hall : (padStart width n).toList.all Char.isDigit = true := by
    exact List.all_eq_true.mpr (padStart_isDigit width n)
  unfold digits
  rw [htake, hdrop, if_pos ⟨hlen, hall⟩, padStart_toList, Nat.ofDigitChars_append,
    Nat.ofDigitChars_replicate_zero, Nat.mul_zero, Nat.ofDigitChars_ten_toDigits]

theorem mark_cons (c : Char) (cs : List Char) : mark c (c :: cs) = some cs := if_pos rfl

theorem readYear_isoYear {y : Int} (h : -1000000 < y ∧ y < 1000000) (rest : List Char) :
    readYear ((isoYear y).toList ++ rest) = some (y, rest) := by
  unfold isoYear
  by_cases hy : 0 ≤ y ∧ y ≤ 9999
  · rw [if_pos hy]
    have hd := digits_padStart 4 y.toNat (by decide) (by omega) rest
    obtain ⟨c, cs, hcs, hdigit⟩ := padStart_cons 4 y.toNat
    rw [hcs, List.cons_append] at hd ⊢
    unfold readYear
    dsimp only
    rw [if_neg (fun h => by rw [h] at hdigit; cases hdigit),
      if_neg (fun h => by rw [h] at hdigit; cases hdigit), hd]
    simp only [Option.map_some, Int.toNat_of_nonneg hy.1]
  · rw [if_neg hy, String.toList_append, List.append_assoc]
    have hd := digits_padStart 6 y.natAbs (by decide) (by omega) rest
    by_cases hneg : y < 0
    · rw [if_pos hneg]
      rw [show "-".toList = ['-'] from rfl, List.singleton_append]
      unfold readYear
      dsimp only
      rw [if_pos rfl, hd, Option.map_some]
      have hy' : -(y.natAbs : Int) = y := by omega
      rw [hy']
    · rw [if_neg hneg]
      rw [show "+".toList = ['+'] from rfl, List.singleton_append]
      unfold readYear
      dsimp only
      rw [if_neg (by decide), if_pos rfl, hd, Option.map_some]
      have hy' : (y.natAbs : Int) = y := by omega
      rw [hy']

theorem monthFromDay_spec (leap : Bool) :
    ∀ n : Fin 366, 1 ≤ monthFromDay leap n.val ∧ monthFromDay leap n.val ≤ 12 ∧
      daysBeforeMonth leap (monthFromDay leap n.val) ≤ n.val ∧
      n.val < daysBeforeMonth leap (monthFromDay leap n.val) + 32 := by
  cases leap <;> decide +kernel

theorem yearFromDay_range {n : Int} (h : -100000000 ≤ n ∧ n ≤ 100000000) :
    -1000000 < yearFromDay n ∧ yearFromDay n < 1000000 := by
  obtain ⟨h1, h2⟩ := yearFromDay_spec n
  generalize yearFromDay n = y at *
  unfold dayFromYear at h1 h2
  omega

theorem yearOf_range {t : Instant} (h : IsTime t) : -1000000 < yearOf t ∧ yearOf t < 1000000 := by
  have hdiv : ∀ n : Int, -8640000000000000 ≤ n → n ≤ 8640000000000000 →
      -100000000 ≤ n / 86400000 ∧ n / 86400000 ≤ 100000000 := by omega
  exact yearFromDay_range (hdiv t h.1 h.2)

/-- The day of an instant, from its year, month and day of the month. -/
theorem dayOf_self (t : Instant) : dayOf (yearOf t) (monthOf t) (dateOf t) = t / msPerDay := by
  unfold dayOf dateOf dayOfYear
  omega

theorem dateOf_range (t : Instant) : monthOf t < 100 ∧ 0 ≤ dateOf t ∧ dateOf t < 100 := by
  obtain ⟨h1, h2⟩ := yearFromDay_spec (t / msPerDay)
  rw [dayFromYear_succ] at h2
  have hday : 0 ≤ dayOfYear t ∧ dayOfYear t < 366 := by
    unfold dayOfYear yearOf
    split at h2 <;> omega
  obtain ⟨n, hn⟩ := Int.eq_ofNat_of_zero_le hday.1
  have hlt : n < 366 := by omega
  obtain ⟨hm, hm', hbefore, hnext⟩ := monthFromDay_spec (isLeap (yearOf t)) ⟨n, hlt⟩
  have hnonneg := daysBeforeMonth_mono (isLeap (yearOf t)) 1 (by decide)
    (monthFromDay (isLeap (yearOf t)) n) (hm'.trans (by decide)) hm
  have h1' : daysBeforeMonth (isLeap (yearOf t)) 1 = 0 := by cases isLeap (yearOf t) <;> rfl
  unfold dateOf monthOf
  rw [hn]
  simp only at hm hm' hbefore hnext
  omega

/-- The fields of the time of a day, put together again. -/
theorem time_fields (n : Nat) : n / 3600000 * 3600000 + n / 60000 % 60 * 60000 +
    n / 1000 % 60 * 1000 + n % 1000 = n := by
  omega

theorem time_range (t : Instant) : (t % msPerDay).toNat < 86400000 ∧
    (((t % msPerDay).toNat : Nat) : Int) = t % msPerDay := by
  have hmod : ∀ n : Int, (n % 86400000).toNat < 86400000 ∧ ((n % 86400000).toNat : Int) = n % 86400000 := by
    omega
  exact hmod t

theorem isoText_toList (t : Instant) : (isoText t).toList =
    (isoYear (yearOf t)).toList ++ '-' :: ((padStart 2 (monthOf t)).toList ++
      '-' :: ((padStart 2 (dateOf t).toNat).toList ++
      'T' :: ((padStart 2 ((t % msPerDay).toNat / 3600000)).toList ++
      ':' :: ((padStart 2 ((t % msPerDay).toNat / 60000 % 60)).toList ++
      ':' :: ((padStart 2 ((t % msPerDay).toNat / 1000 % 60)).toList ++
      '.' :: ((padStart 3 ((t % msPerDay).toNat % 1000)).toList ++ ['Z'])))))) := by
  have hdash : "-".toList = ['-'] := rfl
  have htee : "T".toList = ['T'] := rfl
  have hcolon : ":".toList = [':'] := rfl
  have hdot : ".".toList = ['.'] := rfl
  have hzed : "Z".toList = ['Z'] := rfl
  unfold isoText
  simp only [String.toList_append, List.append_assoc, hdash, htee, hcolon, hdot, hzed,
    List.cons_append, List.nil_append]

theorem readIso_isoText {t : Instant} (h : IsTime t) : readIso (isoText t).toList = some t := by
  obtain ⟨hmonth, hdate, hdate'⟩ := dateOf_range t
  obtain ⟨hms, hms'⟩ := time_range t
  have h2 : ∀ n rest, n < 100 → digits 2 ((padStart 2 n).toList ++ rest) = some (n, rest) :=
    fun n rest hn => digits_padStart _ n (by decide) (by omega) rest
  have h3 : ∀ n rest, n < 1000 → digits 3 ((padStart 3 n).toList ++ rest) = some (n, rest) :=
    fun n rest hn => digits_padStart _ n (by decide) (by omega) rest
  have hfields := time_fields (t % msPerDay).toNat
  have hday : (((dateOf t).toNat : Nat) : Int) = dateOf t := Int.toNat_of_nonneg hdate
  have hsplit : msPerDay * (t / msPerDay) + t % msPerDay = t := Int.mul_ediv_add_emod t msPerDay
  rw [isoText_toList]
  generalize (t % msPerDay).toNat = ms at *
  have hhour : ms / 3600000 < 100 := by omega
  have hminute : ms / 60000 % 60 < 100 := by omega
  have hsecond : ms / 1000 % 60 < 100 := by omega
  have hmilli : ms % 1000 < 1000 := by omega
  unfold readIso
  rw [readYear_isoYear (yearOf_range h)]
  dsimp only [Option.bind_eq_bind, Option.bind_some]
  rw [mark_cons, Option.bind_some, h2 _ _ hmonth]
  dsimp only [Option.bind_some]
  rw [mark_cons, Option.bind_some, h2 _ _ (by omega)]
  dsimp only [Option.bind_some]
  rw [mark_cons, Option.bind_some, h2 _ _ hhour]
  dsimp only [Option.bind_some]
  rw [mark_cons, Option.bind_some, h2 _ _ hminute]
  dsimp only [Option.bind_some]
  rw [mark_cons, Option.bind_some, h2 _ _ hsecond]
  dsimp only [Option.bind_some]
  rw [mark_cons, Option.bind_some, h3 _ _ hmilli]
  dsimp only [Option.bind_some]
  rw [mark_cons, Option.bind_some, if_pos List.isEmpty_nil, hfields, hday, dayOf_self, hms', hsplit]

theorem CalendarDate.read_text (c : CalendarDate) : CalendarDate.read c.text.toList = some c := by
  have hd := c.day_range
  have hlong : ∀ leap : Bool, ∀ m : Fin 13, daysInMonth leap m.val < 100 := by decide
  have hday : c.day < 100 := by
    have := hlong (isLeap c.year) ⟨c.month, Nat.lt_succ_of_le c.month_range.2⟩
    simp only at this
    omega
  have hy := c.year_range
  have hm := c.month_range
  have hdash : "-".toList = ['-'] := rfl
  have h2 : ∀ n rest, n < 100 → digits 2 ((padStart 2 n).toList ++ rest) = some (n, rest) :=
    fun n rest hn => digits_padStart _ n (by decide) (by omega) rest
  have hend := h2 c.day [] hday
  rw [List.append_nil] at hend
  unfold CalendarDate.read CalendarDate.text
  simp only [String.toList_append, List.append_assoc, hdash, List.cons_append, List.nil_append,
    digits_padStart 4 c.year (by decide) (by omega), Option.bind_eq_bind,
    Option.bind_some, mark_cons, h2 c.month _ (by omega), hend]
  rw [dif_pos ⟨hy, hm, hd, trivial⟩]

end Bazar.Finance
