import BazarApi.Finance.PaymentSummary

/- The summary of an agreement says of the totals what it says of each participant: a status
   that quantifies over the lines is the status of the sums, because nobody is paid less
   than nothing or more than was agreed. -/
namespace Bazar.Finance

/-! Sums of one sign. -/

theorem mapM_eq_ok {ε α β : Type} {f : α → Except ε β} {g : α → β} {l : List α}
    (h : ∀ a ∈ l, f a = .ok (g a)) : l.mapM f = .ok (l.map g) := by
  induction l with
  | nil => rfl
  | cons a l ih =>
    rw [List.mapM_cons, h a List.mem_cons_self, ih fun b hb => h b (List.mem_cons_of_mem _ hb)]
    rfl

theorem sum_map_nonneg {α : Type} {f : α → Int} {l : List α} (h : ∀ a ∈ l, 0 ≤ f a) :
    0 ≤ (l.map f).sum := by
  apply List.sum_nonneg
  intro n hn
  obtain ⟨a, ha, rfl⟩ := List.mem_map.mp hn
  exact h a ha

/-- Amounts that are not negative add up to nothing only if each is nothing. -/
theorem sum_map_eq_zero {α : Type} {f : α → Int} {l : List α} (h : ∀ a ∈ l, 0 ≤ f a) :
    (l.map f).sum = 0 ↔ ∀ a ∈ l, f a = 0 := by
  induction l with
  | nil => simp
  | cons a l ih =>
    have ha := h a List.mem_cons_self
    have hl : ∀ b ∈ l, 0 ≤ f b := fun b hb => h b (List.mem_cons_of_mem _ hb)
    have hsum := sum_map_nonneg hl
    rw [List.map_cons, List.sum_cons, List.forall_mem_cons, ← ih hl]
    omega

theorem sum_map_sub {α : Type} (f g : α → Int) (l : List α) :
    (l.map fun a => f a - g a).sum = (l.map f).sum - (l.map g).sum := by
  induction l with
  | nil => rfl
  | cons a l ih =>
    rw [List.map_cons, List.map_cons, List.map_cons, List.sum_cons, List.sum_cons, List.sum_cons, ih]
    omega

/-! The status of an amount. -/

/-- What `participantPaymentStatus` answers where it does not throw. -/
def statusOf (agreedMinor paidMinor : Int) : ParticipantPaymentStatus :=
  if agreedMinor = 0 then .notDue
  else if paidMinor = 0 then .unpaid
  else if paidMinor = agreedMinor then .paid else .partiallyPaid

theorem participantPaymentStatus_eq {agreed paid : Int} (h : paid ≤ agreed) :
    participantPaymentStatus agreed paid = .ok (statusOf agreed paid) := by
  unfold participantPaymentStatus statusOf
  rw [if_neg (not_lt.mpr h)]
  split
  · rfl
  · split <;> rfl

theorem safePaymentSum_eq {n : Int} (h : 0 ≤ n) (h' : n ≤ maxSafeInteger) : safePaymentSum n = .ok n := by
  refine if_neg ?_
  unfold maxSafeInteger at *
  omega

/-- A line as the summary shows it. -/
def shownLine (line : ParticipantPaymentLine) : ParticipantSummary where
  memberId := line.memberId
  memberName := line.memberName
  agreedMinor := line.agreedMinor
  paidMinor := line.paidMinor
  pendingMinor := line.agreedMinor - line.paidMinor
  status := statusOf line.agreedMinor line.paidMinor

/-- Paid no less than nothing and no more than was agreed. -/
def ParticipantPaymentLine.Within (line : ParticipantPaymentLine) : Prop :=
  0 ≤ line.paidMinor ∧ line.paidMinor ≤ line.agreedMinor

section
variable {lines : List ParticipantPaymentLine} (h : ∀ line ∈ lines, line.Within)
include h

theorem paid_nonneg : ∀ line ∈ lines, 0 ≤ line.paidMinor := fun line hl => (h line hl).1

theorem agreed_nonneg : ∀ line ∈ lines, 0 ≤ line.agreedMinor :=
  fun line hl => (h line hl).1.trans (h line hl).2

theorem pending_nonneg : ∀ line ∈ lines, 0 ≤ line.agreedMinor - line.paidMinor :=
  fun line hl => Int.sub_nonneg_of_le (h line hl).2

/-- Nothing is due to anybody, or the agreed total is positive. -/
theorem due_eq_nil : ((lines.map shownLine).filter fun p => 0 < p.agreedMinor) = [] ↔
    (lines.map (·.agreedMinor)).sum = 0 := by
  rw [sum_map_eq_zero (agreed_nonneg h), List.filter_eq_nil_iff, List.forall_mem_map]
  refine forall₂_congr fun line hl => ?_
  have hn := agreed_nonneg h line hl
  change ¬ decide (0 < line.agreedMinor) = true ↔ _
  rw [decide_eq_true_iff]
  omega

/-- Everybody with something due is fully paid iff the totals are. -/
theorem due_all_paid : (((lines.map shownLine).filter fun p => 0 < p.agreedMinor).all
    fun p => p.status = .paid) = true ↔
      (lines.map (·.paidMinor)).sum = (lines.map (·.agreedMinor)).sum := by
  have hpending := sum_map_eq_zero (pending_nonneg h)
  rw [sum_map_sub] at hpending
  rw [@eq_comm Int, ← Int.sub_eq_zero, hpending, List.all_eq_true]
  constructor
  · intro hall line hl
    obtain ⟨h0, hle⟩ := h line hl
    by_cases hdue : 0 < line.agreedMinor
    · have hp := of_decide_eq_true (hall (shownLine line) (List.mem_filter.mpr
        ⟨List.mem_map_of_mem hl, decide_eq_true hdue⟩))
      simp only [shownLine, statusOf] at hp
      split at hp
      · cases hp
      · split at hp
        · cases hp
        · split at hp
          · omega
          · cases hp
    · omega
  · intro hall p hp
    obtain ⟨hm, hdue⟩ := List.mem_filter.mp hp
    obtain ⟨line, hl, rfl⟩ := List.mem_map.mp hm
    have hdue : 0 < line.agreedMinor := of_decide_eq_true hdue
    have hzero := hall line hl
    refine decide_eq_true ?_
    unfold shownLine statusOf
    rw [if_neg (by omega), if_neg (by omega), if_pos (by omega)]

/-- Nobody with something due is paid anything iff nothing is paid. -/
theorem due_all_unpaid : (((lines.map shownLine).filter fun p => 0 < p.agreedMinor).all
    fun p => p.status = .unpaid) = true ↔ (lines.map (·.paidMinor)).sum = 0 := by
  rw [sum_map_eq_zero (paid_nonneg h), List.all_eq_true]
  constructor
  · intro hall line hl
    obtain ⟨h0, hle⟩ := h line hl
    by_cases hdue : 0 < line.agreedMinor
    · have hp := of_decide_eq_true (hall (shownLine line) (List.mem_filter.mpr
        ⟨List.mem_map_of_mem hl, decide_eq_true hdue⟩))
      simp only [shownLine, statusOf] at hp
      split at hp
      · cases hp
      · split at hp
        · assumption
        · split at hp <;> cases hp
    · omega
  · intro hall p hp
    obtain ⟨hm, hdue⟩ := List.mem_filter.mp hp
    obtain ⟨line, hl, rfl⟩ := List.mem_map.mp hm
    have hdue : 0 < line.agreedMinor := of_decide_eq_true hdue
    refine decide_eq_true ?_
    unfold shownLine statusOf
    rw [if_neg (by omega), if_pos (hall line hl)]

/-- The status over the lines is the status of the totals. -/
theorem summaryStatus_eq : summaryStatus (lines.map shownLine) =
    statusOf (lines.map (·.agreedMinor)).sum (lines.map (·.paidMinor)).sum := by
  unfold summaryStatus statusOf
  simp only [due_eq_nil h, due_all_paid h, due_all_unpaid h]
  split
  · rfl
  · -- the code asks first for fully paid, the status of an amount for unpaid
    split
    · rename_i hz hp
      rw [if_neg (by omega)]
    · rfl

end

/-- Of lines within what was agreed, with a total in the safe range: the summary is built, its
totals are the sums, and its status is the one of an amount agreed and paid in total. -/
theorem payment_summary_of_totals (lines : List ParticipantPaymentLine)
    (h : ∀ line ∈ lines, line.Within) (hs : (lines.map (·.agreedMinor)).sum ≤ maxSafeInteger) :
    ∃ s, buildPaymentSummary lines = .ok s ∧
      s.agreedMinor = (lines.map (·.agreedMinor)).sum ∧ s.paidMinor = (lines.map (·.paidMinor)).sum ∧
      s.pendingMinor = (lines.map fun line => line.agreedMinor - line.paidMinor).sum ∧
      s.pendingMinor = s.agreedMinor - s.paidMinor ∧
      participantPaymentStatus s.agreedMinor s.paidMinor = .ok s.status ∧
      (s.status = .notDue ↔ s.agreedMinor = 0) ∧
      (s.status = .paid ↔ 0 < s.agreedMinor ∧ s.paidMinor = s.agreedMinor) ∧
      (s.status = .unpaid ↔ 0 < s.agreedMinor ∧ s.paidMinor = 0) ∧
      (s.status = .partiallyPaid ↔
        0 < s.agreedMinor ∧ s.paidMinor ≠ s.agreedMinor ∧ s.paidMinor ≠ 0) := by
  have hlines : lines.mapM buildParticipantSummary = .ok (lines.map shownLine) := by
    refine mapM_eq_ok fun line hl => ?_
    unfold buildParticipantSummary
    rw [participantPaymentStatus_eq (h line hl).2]
    rfl
  have hpaid : 0 ≤ (lines.map (·.paidMinor)).sum := sum_map_nonneg (paid_nonneg h)
  have hagreed : 0 ≤ (lines.map (·.agreedMinor)).sum := sum_map_nonneg (agreed_nonneg h)
  have hsub : (lines.map fun line => line.agreedMinor - line.paidMinor).sum =
      (lines.map (·.agreedMinor)).sum - (lines.map (·.paidMinor)).sum := sum_map_sub _ _ _
  have hpending : 0 ≤ (lines.map (·.agreedMinor)).sum - (lines.map (·.paidMinor)).sum :=
    hsub ▸ sum_map_nonneg (pending_nonneg h)
  have hstatus := summaryStatus_eq h
  have hbuild : buildPaymentSummary lines = .ok
      { status := summaryStatus (lines.map shownLine)
        agreedMinor := (lines.map (·.agreedMinor)).sum
        paidMinor := (lines.map (·.paidMinor)).sum
        pendingMinor := (lines.map (·.agreedMinor)).sum - (lines.map (·.paidMinor)).sum
        hasPayments := 0 < (lines.map (·.paymentCount)).sum
        paymentCount := (lines.map (·.paymentCount)).sum
        activePaymentCount := (lines.map (·.activePaymentCount)).sum
        participants := lines.map shownLine } := by
    unfold buildPaymentSummary
    dsimp only
    rw [hlines, safePaymentSum_eq hagreed hs, safePaymentSum_eq hpaid (by omega),
      safePaymentSum_eq hpending (by omega)]
    rfl
  refine ⟨_, hbuild, rfl, rfl, hsub.symm, rfl, ?_⟩
  dsimp only
  rw [hstatus]
  generalize (lines.map (·.agreedMinor)).sum = agreed at *
  generalize (lines.map (·.paidMinor)).sum = paid at *
  refine ⟨participantPaymentStatus_eq (Int.le_of_sub_nonneg hpending), ?_⟩
  unfold statusOf
  split
  · simp only [reduceCtorEq, true_iff, false_iff]
    omega
  · split
    · simp only [reduceCtorEq, true_iff, false_iff]
      omega
    · split
      · simp only [reduceCtorEq, true_iff, false_iff]
        omega
      · simp only [reduceCtorEq, true_iff, false_iff]
        omega

/-- Two participants, one paid in part and one with nothing due. -/
theorem payment_summary_of_totals_partial :
    ∃ s, buildPaymentSummary [⟨⟨"a"⟩, "Ana", 100, 40, 1, 1⟩, ⟨⟨"b"⟩, "Luis", 0, 0, 0, 0⟩] = .ok s ∧
      s.agreedMinor = 100 ∧ s.paidMinor = 40 ∧ (s.status = .notDue ↔ s.agreedMinor = 0) := by
  obtain ⟨s, hs, ha, hp, -, -, -, hn, -⟩ := payment_summary_of_totals
    [⟨⟨"a"⟩, "Ana", 100, 40, 1, 1⟩, ⟨⟨"b"⟩, "Luis", 0, 0, 0, 0⟩]
    (by unfold ParticipantPaymentLine.Within; decide) (by decide)
  exact ⟨s, hs, ha, hp, hn⟩

end Bazar.Finance
