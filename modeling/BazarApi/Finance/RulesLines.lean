import BazarApi.Finance.RulesKeys

/- A line tells the values that it shows. Each value is read off the front of what is left of
   the line: a number or an amount ends at the first space (`cut`), a word is told by its
   beginning (`apart`). -/
open Json

namespace Bazar.Finance.Rules

/-! Texts. -/

/-- The text of an amount: number units, and one text for one amount of the range. -/
structure DecimalTexts (toDecimal : Int → JsString) : Prop where
  injective : ∀ n m, IsMinor n → IsMinor m → toDecimal n = toDecimal m → n = m
  units : ∀ n, IsMinor n → ∀ c ∈ toDecimal n, IsNumberUnit c

/-- What stands before the first `c` is told. -/
theorem cut {c : CodeUnit} {x y s t : JsString} (hx : c ∉ x) (hy : c ∉ y)
    (h : x ++ c :: s = y ++ c :: t) : x = y ∧ s = t := by
  induction x generalizing y with
  | nil =>
    cases y with
    | nil => exact ⟨rfl, (List.cons.inj h).2⟩
    | cons b y => exact absurd (List.cons.inj h).1 (List.ne_of_not_mem_cons hy)
  | cons a x ih =>
    cases y with
    | nil => exact absurd (List.cons.inj h).1.symm (List.ne_of_not_mem_cons hx)
    | cons b y =>
      obtain ⟨rfl, htail⟩ := List.cons.inj h
      obtain ⟨rfl, hst⟩ := ih (fun hc => hx (List.mem_cons_of_mem _ hc))
        (fun hc => hy (List.mem_cons_of_mem _ hc)) htail
      exact ⟨rfl, hst⟩

/-- Texts that go on from two beginnings differ when neither beginning goes on as the other. -/
theorem apart {p q x y : JsString} (h : ¬(p <+: q ∨ q <+: p)) : p ++ x ≠ q ++ y := by
  intro heq
  have hp : p <+: p ++ x := List.prefix_append p x
  have hq : q <+: p ++ x := by
    rw [heq]
    exact List.prefix_append q y
  exact h (List.prefix_or_prefix_of_prefix hp hq)

section
variable {formats : Formats} (hn : NumberLiterals fun q : {q // Admitted q} => formats.number q)
include hn

theorem number_inj {p q : ℚ} (hp : Admitted p) (hq : Admitted q)
    (h : formats.number p = formats.number q) : p = q :=
  congrArg Subtype.val (@hn.injective ⟨p, hp⟩ ⟨q, hq⟩ h)

theorem number_no_space {p : ℚ} (hp : Admitted p) : unit ' ' ∉ formats.number p := by
  intro h
  exact absurd (hn.units ⟨p, hp⟩ _ h) (by decide)

/-- A percentage at the beginning of a text is told. -/
theorem pct_inj {p q : ℚ} (hp : IsPct p) (hq : IsPct q) {s t : JsString}
    (h : pct formats p ++ s = pct formats q ++ t) : p = q ∧ s = t := by
  have htext : text " %" = unit ' ' :: text "%" := by decide
  unfold pct at h
  rw [htext, List.append_assoc, List.append_assoc, List.cons_append, List.cons_append] at h
  obtain ⟨hnumber, hrest⟩ := cut (number_no_space hn (Or.inl hp)) (number_no_space hn (Or.inl hq)) h
  exact ⟨number_inj hn (Or.inl hp) (Or.inl hq) hnumber, List.append_cancel_left hrest⟩

theorem profitBaseLine_inj {a b : ProfitBase}
    (ha : IsPct a.partnerPct ∧ IsPct a.capitalPct ∧ IsPct a.workPct)
    (hb : IsPct b.partnerPct ∧ IsPct b.capitalPct ∧ IsPct b.workPct)
    (h : profitBaseLine formats a = profitBaseLine formats b) : a = b := by
  unfold profitBaseLine at h
  simp only [List.append_assoc, List.append_cancel_left_eq] at h
  obtain ⟨hp, h⟩ := pct_inj hn ha.1 hb.1 h
  obtain ⟨hc, h⟩ := pct_inj hn ha.2.1 hb.2.1 (List.append_cancel_left h)
  obtain ⟨hw, -⟩ := pct_inj hn ha.2.2 hb.2.2 (List.append_cancel_left h)
  obtain ⟨p, c, w⟩ := a
  cases hp
  cases hc
  cases hw
  rfl

end

theorem toDinero_minor {n : Int} (h : IsMinor n) : toDinero n = .ok n := by
  obtain ⟨h0, hmax⟩ := h
  exact assertMinorUnits_ok.mpr ⟨rfl, by omega, hmax⟩

theorem formatCurrency_minor {formats : Formats} {n : Int} (h : IsMinor n) :
    formatCurrency formats n = .ok (text "$" ++ formats.toDecimal n) := by
  unfold formatCurrency
  rw [toDinero_minor h]
  rfl

section
variable {formats : Formats} (hd : DecimalTexts formats.toDecimal)
include hd

theorem decimal_no_space {n : Int} (h : IsMinor n) : unit ' ' ∉ formats.toDecimal n :=
  fun hmem => absurd (hd.units n h _ hmem) (by decide)

/-- An amount before a space is told. -/
theorem decimal_inj {n m : Int} (ha : IsMinor n) (hb : IsMinor m) {w : String} {r : JsString}
    (hw : text w = unit ' ' :: r) {s t : JsString}
    (h : formats.toDecimal n ++ (text w ++ s) = formats.toDecimal m ++ (text w ++ t)) :
    n = m ∧ s = t := by
  rw [hw, List.cons_append, List.cons_append] at h
  obtain ⟨hdecimal, hrest⟩ := cut (decimal_no_space hd ha) (decimal_no_space hd hb) h
  exact ⟨hd.injective n m ha hb hdecimal, List.append_cancel_left hrest⟩

omit hd in
theorem ceiling_some {n : Int} (h : IsMinor n) : ceiling formats (some n) =
    .ok (text " Se deja de reinvertir al llegar a " ++ (text "$" ++ formats.toDecimal n) ++
      text ".") := by
  unfold ceiling
  dsimp only
  rw [formatCurrency_minor h]
  rfl

omit hd in
variable (formats) in
theorem ceiling_ok {u : Option Int} (hu : ∀ n ∈ u.toList, IsMinor n) :
    ∃ l, ceiling formats u = .ok l := by
  cases u with
  | none => exact ⟨[], rfl⟩
  | some n => exact ⟨_, ceiling_some (hu n List.mem_cons_self)⟩

/-- A ceiling is told by the sentence that ends with it. -/
theorem ceiling_inj {u v : Option Int} (hu : ∀ n ∈ u.toList, IsMinor n)
    (hv : ∀ n ∈ v.toList, IsMinor n) (h : ceiling formats u = ceiling formats v) : u = v := by
  have hend : text "." ≠ [] := by decide
  cases u with
  | none =>
    cases v with
    | none => rfl
    | some m =>
      rw [ceiling_some (hv m List.mem_cons_self)] at h
      exact absurd (List.append_eq_nil_iff.mp (Except.ok.inj h).symm).2 hend
  | some n =>
    have hn := hu n List.mem_cons_self
    rw [ceiling_some hn] at h
    cases v with
    | none => exact absurd (List.append_eq_nil_iff.mp (Except.ok.inj h)).2 hend
    | some m =>
      have hm := hv m List.mem_cons_self
      rw [ceiling_some hm] at h
      have hdecimal := List.append_cancel_left (List.append_cancel_left
        (List.append_cancel_right (Except.ok.inj h)))
      rw [hd.injective n m hn hm hdecimal]

end

theorem phaseName_inj {p q : BusinessPhase} {s t : JsString}
    (h : phaseName p ++ s = phaseName q ++ t) : p = q ∧ s = t := by
  by_cases heq : p = q
  · rw [heq] at h
    exact ⟨heq, List.append_cancel_left h⟩
  · refine absurd h (apart ?_)
    cases p <;> cases q <;> first | exact absurd rfl heq | decide

theorem timingName_inj {p q : RecoveryTiming} {s t : JsString}
    (h : timingName p ++ s = timingName q ++ t) : p = q := by
  by_contra heq
  refine apart ?_ h
  cases p <;> cases q <;> first | exact absurd rfl heq | decide

theorem when_inj {p q : WorkOrder} {s t : JsString} (h : when p ++ s = when q ++ t) : p = q := by
  by_contra heq
  refine apart ?_ h
  cases p <;> cases q <;> first | exact absurd rfl heq | decide

section
variable {formats : Formats} (hn : NumberLiterals fun q : {q // Admitted q} => formats.number q)
  (hd : DecimalTexts formats.toDecimal)

theorem reinvestmentLine_of {r : Reinvestment} {l : JsString}
    (h : ceiling formats r.untilAmountMinor = .ok l) : reinvestmentLine formats r =
    .ok (text "Se reinvierte " ++ pct formats r.arranquePct ++ text " en arranque, " ++
      pct formats r.operacionPct ++ text " en operación y " ++ pct formats r.cierrePct ++
      text " en cierre. Hoy: " ++ phaseName r.currentPhase ++ text "." ++ l) := by
  unfold reinvestmentLine
  rw [h]
  rfl

include hn hd

theorem reinvestmentLine_inj {a b : Reinvestment}
    (ha : IsPct a.arranquePct ∧ IsPct a.operacionPct ∧ IsPct a.cierrePct)
    (hb : IsPct b.arranquePct ∧ IsPct b.operacionPct ∧ IsPct b.cierrePct)
    (hua : ∀ n ∈ a.untilAmountMinor.toList, IsMinor n)
    (hub : ∀ n ∈ b.untilAmountMinor.toList, IsMinor n)
    (h : reinvestmentLine formats a = reinvestmentLine formats b) : a = b := by
  obtain ⟨la, hla⟩ := ceiling_ok formats hua
  obtain ⟨lb, hlb⟩ := ceiling_ok formats hub
  rw [reinvestmentLine_of hla, reinvestmentLine_of hlb] at h
  replace h := Except.ok.inj h
  simp only [List.append_assoc, List.append_cancel_left_eq] at h
  obtain ⟨harr, h⟩ := pct_inj hn ha.1 hb.1 h
  obtain ⟨hop, h⟩ := pct_inj hn ha.2.1 hb.2.1 (List.append_cancel_left h)
  obtain ⟨hci, h⟩ := pct_inj hn ha.2.2 hb.2.2 (List.append_cancel_left h)
  obtain ⟨hphase, h⟩ := phaseName_inj (List.append_cancel_left h)
  have hlines : la = lb := List.append_cancel_left h
  have huntil := ceiling_inj hd hua hub (by rw [hla, hlb, hlines])
  obtain ⟨phase, p, o, c, u⟩ := a
  cases harr
  cases hop
  cases hci
  cases hphase
  cases huntil
  rfl

end

/-- How the line on the capital begins. -/
def recoveryStart : RecoveryMode → JsString
  | .ninguna => text "El capital de los socios no se devuelve."
  | .porDiferencia => text "El capital se devuelve por diferencia, "
  | .total => text "Se devuelve todo el capital, "
  | .proporcional => text "El capital se devuelve en proporción, "

theorem recoveryLine_start (c : CapitalRecovery) : ∃ rest,
    recoveryLine c = recoveryStart c.mode ++ rest ∧
      (c.mode ≠ .ninguna → rest = timingName c.timing ++ text ".") := by
  obtain ⟨mode, timing⟩ := c
  cases mode with
  | ninguna => exact ⟨[], (List.append_nil _).symm, fun h => absurd rfl h⟩
  | porDiferencia => exact ⟨_, List.append_assoc _ _ _, fun _ => rfl⟩
  | total => exact ⟨_, List.append_assoc _ _ _, fun _ => rfl⟩
  | proporcional => exact ⟨_, List.append_assoc _ _ _, fun _ => rfl⟩

theorem recoveryStart_inj {p q : RecoveryMode} {s t : JsString}
    (h : recoveryStart p ++ s = recoveryStart q ++ t) : p = q := by
  by_contra heq
  refine apart ?_ h
  cases p <;> cases q <;> first | exact absurd rfl heq | decide

/-- The timing is told where capital is returned. -/
theorem recoveryLine_inj {a b : CapitalRecovery} (h : recoveryLine a = recoveryLine b) :
    a.mode = b.mode ∧ (a.mode ≠ .ninguna → a.timing = b.timing) := by
  obtain ⟨s, hs, hstiming⟩ := recoveryLine_start a
  obtain ⟨t, ht, httiming⟩ := recoveryLine_start b
  rw [hs, ht] at h
  have hmode := recoveryStart_inj h
  refine ⟨hmode, ?_⟩
  intro hne
  rw [hmode] at h
  have hrest := List.append_cancel_left h
  rw [hstiming hne, httiming (hmode ▸ hne)] at hrest
  exact timingName_inj hrest

theorem expensesLine_inj {a b : PartnerExpenseMode} (h : expensesLine a = expensesLine b) :
    a = b := by
  by_contra heq
  refine absurd h ?_
  cases a <;> cases b <;> first | exact absurd rfl heq | decide

theorem loansLine_inj {a b : PartnerLoans} (h : loansLine a = loansLine b) : a = b := by
  obtain ⟨repay⟩ := a
  obtain ⟨repay'⟩ := b
  cases repay <;> cases repay' <;> first | rfl | exact absurd h (by decide)

section
variable {formats : Formats}

/-- What the line on the hours is, by what is paid. -/
theorem hoursLine_unpaid {w : Work} (h : w.payHours = false) :
    hoursLine formats w = .ok (text "Las horas de trabajo no se pagan aparte.") := by
  unfold hoursLine
  rw [h]
  rfl

theorem hoursLine_porHora {w : Work} {rate : Int} (h : w.payHours = true) (hp : w.pay = .porHora rate)
    (hrate : IsMinor rate) : hoursLine formats w =
    .ok (text "Las horas se pagan a " ++ (text "$" ++ formats.toDecimal rate) ++
      text " cada una, " ++ when w.order ++ text " del capital.") := by
  unfold hoursLine
  rw [h, hp]
  dsimp only
  rw [formatCurrency_minor hrate]
  rfl

theorem hoursLine_porcentaje {w : Work} {value : ℚ} (h : w.payHours = true)
    (hp : w.pay = .porcentaje value) : hoursLine formats w =
    .ok (text "Las horas se pagan con " ++ pct formats value ++ text " del reparto, " ++
      when w.order ++ text " del capital.") := by
  unfold hoursLine
  rw [h, hp]
  rfl

variable (formats) in
/-- The line of paid hours begins in one of two ways. -/
theorem hoursLine_paid {w : Work} (h : w.payHours = true) (ha : ∀ n ∈ w.pay.amounts, IsMinor n) :
    ∃ s : JsString, hoursLine formats w = .ok (text "Las horas se pagan " ++ s) := by
  cases hp : w.pay with
  | porHora rate =>
    rw [hp] at ha
    have htext : text "Las horas se pagan a " = text "Las horas se pagan " ++ text "a " := by
      decide
    rw [hoursLine_porHora h hp (ha rate List.mem_cons_self), htext]
    simp only [List.append_assoc]
    exact ⟨_, rfl⟩
  | porcentaje value =>
    have htext : text "Las horas se pagan con " = text "Las horas se pagan " ++ text "con " := by
      decide
    rw [hoursLine_porcentaje h hp, htext]
    simp only [List.append_assoc]
    exact ⟨_, rfl⟩

variable (formats) in
theorem hoursLine_ok {w : Work} (ha : ∀ n ∈ w.pay.amounts, IsMinor n) :
    ∃ l, hoursLine formats w = .ok l := by
  by_cases h : w.payHours = true
  · obtain ⟨s, hs⟩ := hoursLine_paid formats h ha
    exact ⟨_, hs⟩
  · exact ⟨_, hoursLine_unpaid (Bool.not_eq_true _ ▸ h)⟩

theorem hoursLine_payHours {a b : Work} (ha : ∀ n ∈ a.pay.amounts, IsMinor n)
    (hb : ∀ n ∈ b.pay.amounts, IsMinor n) (h : hoursLine formats a = hoursLine formats b) :
    a.payHours = b.payHours := by
  have hapart (s : JsString) :
      text "Las horas se pagan " ++ s ≠ text "Las horas de trabajo no se pagan aparte." := by
    rw [← List.append_nil (text "Las horas de trabajo no se pagan aparte.")]
    exact apart (by decide)
  cases hpa : a.payHours with
  | false =>
    cases hpb : b.payHours with
    | false => rfl
    | true =>
      obtain ⟨s, hs⟩ := hoursLine_paid formats hpb hb
      rw [hoursLine_unpaid hpa, hs] at h
      exact absurd (Except.ok.inj h).symm (hapart s)
  | true =>
    cases hpb : b.payHours with
    | true => rfl
    | false =>
      obtain ⟨s, hs⟩ := hoursLine_paid formats hpa ha
      rw [hoursLine_unpaid hpb, hs] at h
      exact absurd (Except.ok.inj h) (hapart s)

theorem reservesLine_monto {amount : Int} (h : IsMinor amount) :
    reservesLine formats (.monto amount) = .ok (text "Se aparta " ++
      (text "$" ++ formats.toDecimal amount) ++ text " para reservas antes de repartir.") := by
  unfold reservesLine
  dsimp only
  rw [formatCurrency_minor h]
  rfl

variable (formats) in
theorem reservesLine_ok {r : Reserves} (ha : ∀ n ∈ r.amounts, IsMinor n) :
    ∃ l, reservesLine formats r = .ok l := by
  cases r with
  | porcentaje value => exact ⟨_, rfl⟩
  | monto amount => exact ⟨_, reservesLine_monto (ha amount List.mem_cons_self)⟩

end

section
variable {formats : Formats} (hn : NumberLiterals fun q : {q // Admitted q} => formats.number q)
  (hd : DecimalTexts formats.toDecimal)
include hn

/-- No percentage begins with the sign of an amount. -/
theorem pct_ne_currency {p : ℚ} (hp : IsPct p) {s t : JsString} :
    pct formats p ++ s ≠ text "$" ++ t := by
  intro h
  obtain ⟨c, rest, hc, hfirst⟩ := hn.first ⟨p, Or.inl hp⟩
  have hsign : text "$" = [unit '$'] := by decide
  change formats.number p = c :: rest at hc
  unfold pct at h
  rw [hc, hsign] at h
  obtain ⟨rfl, -⟩ := List.cons.inj h
  exact absurd hfirst (by decide)

include hd

theorem reservesLine_inj {a b : Reserves} (ha : ∀ n ∈ a.amounts, IsMinor n)
    (hb : ∀ n ∈ b.amounts, IsMinor n) (hpa : ∀ p ∈ a.percentages, IsPct p)
    (hpb : ∀ p ∈ b.percentages, IsPct p) (h : reservesLine formats a = reservesLine formats b) :
    a = b := by
  cases a with
  | porcentaje p =>
    have hp := hpa p List.mem_cons_self
    cases b with
    | porcentaje q =>
      have hq := hpb q List.mem_cons_self
      have hline := Except.ok.inj h
      simp only [List.append_assoc, List.append_cancel_left_eq] at hline
      rw [(pct_inj hn hp hq hline).1]
    | monto m =>
      have hm := hb m List.mem_cons_self
      rw [reservesLine_monto hm] at h
      have hline := Except.ok.inj h
      simp only [List.append_assoc, List.append_cancel_left_eq] at hline
      exact absurd hline (pct_ne_currency hn hp)
  | monto n =>
    have hminor := ha n List.mem_cons_self
    rw [reservesLine_monto hminor] at h
    cases b with
    | porcentaje q =>
      have hq := hpb q List.mem_cons_self
      have hline := Except.ok.inj h
      simp only [List.append_assoc, List.append_cancel_left_eq] at hline
      exact absurd hline.symm (pct_ne_currency hn hq)
    | monto m =>
      have hm := hb m List.mem_cons_self
      rw [reservesLine_monto hm] at h
      have hline := List.append_cancel_left (List.append_cancel_right (Except.ok.inj h))
      rw [hd.injective n m hminor hm (List.append_cancel_left hline)]

/-- Paid hours are told with their order. -/
theorem hoursLine_inj {a b : Work} (ha : ∀ n ∈ a.pay.amounts, IsMinor n)
    (hb : ∀ n ∈ b.pay.amounts, IsMinor n) (hpa : ∀ p ∈ a.pay.percentages, IsPct p)
    (hpb : ∀ p ∈ b.pay.percentages, IsPct p) (hwa : a.payHours = true) (hwb : b.payHours = true)
    (h : hoursLine formats a = hoursLine formats b) : a.order = b.order ∧ a.pay = b.pay := by
  have hapart (s t : JsString) :
      text "Las horas se pagan a " ++ s ≠ text "Las horas se pagan con " ++ t :=
    apart (by decide)
  cases hva : a.pay with
  | porHora n =>
    rw [hva] at ha
    have hn' := ha n List.mem_cons_self
    rw [hoursLine_porHora hwa hva hn'] at h
    cases hvb : b.pay with
    | porHora m =>
      rw [hvb] at hb
      have hm := hb m List.mem_cons_self
      rw [hoursLine_porHora hwb hvb hm] at h
      have hline := Except.ok.inj h
      simp only [List.append_assoc, List.append_cancel_left_eq] at hline
      have htext : text " cada una, " = unit ' ' :: text "cada una, " := by decide
      obtain ⟨rfl, hrest⟩ := decimal_inj hd hn' hm htext hline
      exact ⟨when_inj hrest, rfl⟩
    | porcentaje q =>
      rw [hoursLine_porcentaje hwb hvb] at h
      have hline := Except.ok.inj h
      simp only [List.append_assoc] at hline
      exact absurd hline (hapart _ _)
  | porcentaje p =>
    rw [hva] at hpa
    have hp := hpa p List.mem_cons_self
    rw [hoursLine_porcentaje hwa hva] at h
    cases hvb : b.pay with
    | porHora m =>
      rw [hvb] at hb
      rw [hoursLine_porHora hwb hvb (hb m List.mem_cons_self)] at h
      have hline := Except.ok.inj h
      simp only [List.append_assoc] at hline
      exact absurd hline.symm (hapart _ _)
    | porcentaje q =>
      rw [hvb] at hpb
      have hq := hpb q List.mem_cons_self
      rw [hoursLine_porcentaje hwb hvb] at h
      have hline := Except.ok.inj h
      simp only [List.append_assoc, List.append_cancel_left_eq] at hline
      obtain ⟨rfl, hrest⟩ := pct_inj hn hp hq hline
      exact ⟨when_inj (List.append_cancel_left hrest), rfl⟩

end

end Bazar.Finance.Rules
