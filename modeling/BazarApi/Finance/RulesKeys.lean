import BazarApi.Finance.RulesSummary

/- The canonical text of a section tells its values: the trees of two configurations that are
   the same up to the order of keys come from equal configurations. The numbers of an accepted
   configuration are percentages and amounts in range (`Admitted`), and only on these is
   printing injective. -/
open Json

namespace Bazar.Finance.Rules

/-! Accepted configurations. -/

def IsMinor (amount : Int) : Prop := 0 ≤ amount ∧ amount ≤ maxMinorUnits

/-- A number that an accepted configuration may have. -/
def Admitted (value : ℚ) : Prop := IsPct value ∨ ∃ amount : Int, IsMinor amount ∧ value = amount

def Pay.amounts : Pay → List Int
  | .porHora rate => [rate]
  | .porcentaje _ => []

def Reserves.amounts : Reserves → List Int
  | .porcentaje _ => []
  | .monto amount => [amount]

def FinanceRulesConfig.amounts (c : FinanceRulesConfig) : List Int :=
  c.reinvestment.untilAmountMinor.toList ++ c.work.pay.amounts ++ c.reserves.amounts

structure FinanceRulesConfig.Valid (c : FinanceRulesConfig) : Prop where
  percentages : ∀ p ∈ c.percentages, IsPct p
  amounts : ∀ n ∈ c.amounts, IsMinor n

theorem FinanceRulesConfig.Says.amounts {Pct : ℚ → Prop} {Total : ℚ → ℚ → ℚ → Prop} {input : Raw}
    {c : FinanceRulesConfig} (h : c.Says Pct Total input) : ∀ n ∈ c.amounts, IsMinor n := by
  obtain ⟨raw, -, h⟩ := h
  obtain ⟨base, reinv, recovery, work, expenses, reserves, loans⟩ := c
  obtain ⟨_, -, hr⟩ := h.reinvestment
  obtain ⟨_, -, hw⟩ := h.work
  obtain ⟨_, -, hp⟩ := hw.pay
  obtain ⟨_, -, hre⟩ := h.reserves
  unfold FinanceRulesConfig.amounts
  rw [List.forall_mem_append, List.forall_mem_append]
  refine ⟨⟨?_, ?_⟩, ?_⟩
  · obtain ⟨phase, a, o, ci, until'⟩ := reinv
    cases until' with
    | none => exact List.forall_mem_nil _
    | some amount => exact List.forall_mem_singleton.mpr hr.untilAmountMinor.2
  · obtain ⟨payHours, order, pay⟩ := work
    cases pay with
    | porHora rate => exact List.forall_mem_singleton.mpr hp.2.2.2
    | porcentaje value => exact List.forall_mem_nil _
  · cases reserves with
    | porcentaje value => exact List.forall_mem_nil _
    | monto amount => exact List.forall_mem_singleton.mpr hre.2.2.2

theorem valid_of_parse {input : Raw} {c : FinanceRulesConfig}
    (h : parseRulesConfig input = .ok c) : c.Valid :=
  ⟨(parseRulesConfig_ok.mp h).percentages, (parseRulesConfig_ok.mp h).amounts⟩

/-! The canonical text of a section tells its values. -/

/-- A table that finds each of its values by the name of the value has no name twice. -/
theorem inj_of_find {α : Type} {list : List α} {name : α → String}
    (hfind : ∀ a, (list.find? fun b => text (name b) = text (name a)) = some a) {a b : α}
    (h : text (name a) = text (name b)) : a = b := by
  have hb := hfind a
  rw [h, hfind b] at hb
  exact (Option.some.inj hb).symm

theorem businessPhase_inj {a b : BusinessPhase} (h : text a.text = text b.text) : a = b :=
  inj_of_find businessPhases_find h

theorem recoveryMode_inj {a b : RecoveryMode} (h : text a.text = text b.text) : a = b :=
  inj_of_find recoveryModes_find h

theorem recoveryTiming_inj {a b : RecoveryTiming} (h : text a.text = text b.text) : a = b :=
  inj_of_find recoveryTimings_find h

theorem workOrder_inj {a b : WorkOrder} (h : text a.text = text b.text) : a = b :=
  inj_of_find workOrders_find h

theorem partnerExpenseMode_inj {a b : PartnerExpenseMode} (h : text a.text = text b.text) :
    a = b :=
  inj_of_find partnerExpenseModes_find h

section
variable {N : Type}

theorem same_num {n m : N} (h : (Json.Tree.num n).Same (.num m)) : n = m := by
  cases h
  rfl

theorem same_str {s t : JsString} (h : (Json.Tree.str s : Json.Tree N).Same (.str t)) : s = t := by
  cases h
  rfl

theorem same_bool {a b : Bool} (h : (Json.Tree.bool a : Json.Tree N).Same (.bool b)) : a = b := by
  cases h
  rfl

theorem same_int {n m : Int} (h : (Json.Tree.num (n : ℚ)).Same (.num (m : ℚ))) : n = m :=
  Int.cast_injective (same_num h)

end

theorem profitBase_same {a b : ProfitBase} (h : a.toJson.Same b.toJson) : a = b := by
  have hvalues := h.values (K := ["partnerPct", "capitalPct", "workPct"].map text) rfl rfl
    (by decide)
  simp only [List.zip_cons_cons, List.forall_mem_cons] at hvalues
  obtain ⟨hp, hc, hw, -⟩ := hvalues
  obtain ⟨p, c, w⟩ := a
  cases same_num hp
  cases same_num hc
  cases same_num hw
  rfl

theorem until_same {a b : Option Int} (h : (untilJson a).Same (untilJson b)) : a = b := by
  cases a with
  | none =>
    cases b with
    | none => rfl
    | some amount => cases h
  | some amount =>
    cases b with
    | none => cases h
    | some amount' => rw [same_int h]

theorem reinvestment_same {a b : Reinvestment} (h : a.toJson.Same b.toJson) : a = b := by
  have hvalues := h.values
    (K := ["currentPhase", "arranquePct", "operacionPct", "cierrePct", "untilAmountMinor"].map text)
    rfl rfl (by decide)
  simp only [List.zip_cons_cons, List.forall_mem_cons] at hvalues
  obtain ⟨hphase, ha, ho, hc, hu, -⟩ := hvalues
  obtain ⟨phase, p, o, c, u⟩ := a
  cases businessPhase_inj (same_str hphase)
  cases same_num ha
  cases same_num ho
  cases same_num hc
  cases until_same hu
  rfl

theorem capitalRecovery_same {a b : CapitalRecovery} (h : a.toJson.Same b.toJson) : a = b := by
  have hvalues := h.values (K := ["mode", "timing"].map text) rfl rfl (by decide)
  simp only [List.zip_cons_cons, List.forall_mem_cons] at hvalues
  obtain ⟨hmode, htiming, -⟩ := hvalues
  obtain ⟨mode, timing⟩ := a
  cases recoveryMode_inj (same_str hmode)
  cases recoveryTiming_inj (same_str htiming)
  rfl

theorem pay_same {a b : Pay} (h : a.toJson.Same b.toJson) : a = b := by
  cases a with
  | porHora rate =>
    cases b with
    | porHora rate' =>
      have hvalues := h.values (K := ["kind", "rateMinorPerHour"].map text) rfl rfl
        (by decide)
      simp only [List.zip_cons_cons, List.forall_mem_cons] at hvalues
      rw [same_int hvalues.2.1]
    | porcentaje value =>
      have hkeys : (["kind", "rateMinorPerHour"].map text).Perm (["kind", "pct"].map text) := h.keys
      exact absurd hkeys (by decide)
  | porcentaje value =>
    cases b with
    | porHora rate =>
      have hkeys : (["kind", "pct"].map text).Perm (["kind", "rateMinorPerHour"].map text) := h.keys
      exact absurd hkeys (by decide)
    | porcentaje value' =>
      have hvalues := h.values (K := ["kind", "pct"].map text) rfl rfl (by decide)
      simp only [List.zip_cons_cons, List.forall_mem_cons] at hvalues
      rw [same_num hvalues.2.1]

theorem work_same {a b : Work} (h : a.toJson.Same b.toJson) : a = b := by
  have hvalues := h.values (K := ["payHours", "order", "pay"].map text) rfl rfl (by decide)
  simp only [List.zip_cons_cons, List.forall_mem_cons] at hvalues
  obtain ⟨hhours, horder, hpay, -⟩ := hvalues
  obtain ⟨payHours, order, pay⟩ := a
  cases same_bool hhours
  cases workOrder_inj (same_str horder)
  cases pay_same hpay
  rfl

theorem reserves_same {a b : Reserves} (h : a.toJson.Same b.toJson) : a = b := by
  cases a with
  | porcentaje value =>
    cases b with
    | porcentaje value' =>
      have hvalues := h.values (K := ["kind", "pct"].map text) rfl rfl (by decide)
      simp only [List.zip_cons_cons, List.forall_mem_cons] at hvalues
      rw [same_num hvalues.2.1]
    | monto amount =>
      have hkeys : (["kind", "pct"].map text).Perm (["kind", "amountMinor"].map text) := h.keys
      exact absurd hkeys (by decide)
  | monto amount =>
    cases b with
    | porcentaje value =>
      have hkeys : (["kind", "amountMinor"].map text).Perm (["kind", "pct"].map text) := h.keys
      exact absurd hkeys (by decide)
    | monto amount' =>
      have hvalues := h.values (K := ["kind", "amountMinor"].map text) rfl rfl (by decide)
      simp only [List.zip_cons_cons, List.forall_mem_cons] at hvalues
      rw [same_int hvalues.2.1]

theorem partnerLoans_same {a b : PartnerLoans} (h : a.toJson.Same b.toJson) : a = b := by
  have hvalues := h.values (K := ["repayBeforeCapital"].map text) rfl rfl (by decide)
  simp only [List.zip_cons_cons, List.forall_mem_cons] at hvalues
  obtain ⟨repay⟩ := a
  cases same_bool hvalues.1
  rfl

theorem config_same {a b : FinanceRulesConfig} (h : a.toJson.Same b.toJson) : a = b := by
  have hvalues := h.values (K := rootKeys.map text) rfl rfl (by decide)
  simp only [List.zip_cons_cons, List.forall_mem_cons] at hvalues
  obtain ⟨-, hbase, hreinv, hrecovery, hwork, hexpenses, hreserves, hloans, -⟩ := hvalues
  obtain ⟨base, reinv, recovery, work, expenses, reserves, loans⟩ := a
  cases profitBase_same hbase
  cases reinvestment_same hreinv
  cases capitalRecovery_same hrecovery
  cases work_same hwork
  cases partnerExpenseMode_inj (same_str hexpenses)
  cases reserves_same hreserves
  cases partnerLoans_same hloans
  rfl

/-! The numbers of an accepted configuration. -/

theorem admitted_int {n : Int} (h : IsMinor n) : Admitted (n : ℚ) := Or.inr ⟨n, h, rfl⟩

theorem Pay.nums {p : Pay} (hp : ∀ q ∈ p.percentages, IsPct q) (ha : ∀ n ∈ p.amounts, IsMinor n) :
    p.toJson.Nums Admitted := by
  cases p with
  | porHora rate =>
    refine .obj ?_
    simp only [List.forall_mem_cons]
    exact ⟨.str _, .num (admitted_int (ha rate List.mem_cons_self)), List.forall_mem_nil _⟩
  | porcentaje value =>
    refine .obj ?_
    simp only [List.forall_mem_cons]
    exact ⟨.str _, .num (Or.inl (hp value List.mem_cons_self)), List.forall_mem_nil _⟩

theorem Reserves.nums {r : Reserves} (hp : ∀ q ∈ r.percentages, IsPct q)
    (ha : ∀ n ∈ r.amounts, IsMinor n) : r.toJson.Nums Admitted := by
  cases r with
  | porcentaje value =>
    refine .obj ?_
    simp only [List.forall_mem_cons]
    exact ⟨.str _, .num (Or.inl (hp value List.mem_cons_self)), List.forall_mem_nil _⟩
  | monto amount =>
    refine .obj ?_
    simp only [List.forall_mem_cons]
    exact ⟨.str _, .num (admitted_int (ha amount List.mem_cons_self)), List.forall_mem_nil _⟩

theorem untilJson_nums {u : Option Int} (h : ∀ n ∈ u.toList, IsMinor n) :
    (untilJson u).Nums Admitted := by
  cases u with
  | none => exact .null
  | some amount => exact .num (admitted_int (h amount List.mem_cons_self))

/-- Every number of an accepted configuration is admitted. -/
theorem FinanceRulesConfig.Valid.nums {c : FinanceRulesConfig} (h : c.Valid) :
    c.toJson.Nums Admitted := by
  obtain ⟨hp, ha⟩ := h
  unfold FinanceRulesConfig.percentages at hp
  unfold FinanceRulesConfig.amounts at ha
  rw [List.forall_mem_append, List.forall_mem_append] at hp ha
  obtain ⟨⟨hpcts, hpay⟩, hreserves⟩ := hp
  obtain ⟨⟨huntil, hrate⟩, hamount⟩ := ha
  simp only [List.forall_mem_cons] at hpcts
  obtain ⟨hpartner, hcapital, hwork, harranque, hoperacion, hcierre, -⟩ := hpcts
  refine .obj ?_
  simp only [List.forall_mem_cons]
  refine ⟨.num (admitted_int (n := 1) ⟨by decide, by decide⟩), .obj ?_, .obj ?_, .obj ?_, .obj ?_,
    .str _, Reserves.nums hreserves hamount, .obj ?_, List.forall_mem_nil _⟩
  · simp only [List.forall_mem_cons]
    exact ⟨.num (Or.inl hpartner), .num (Or.inl hcapital), .num (Or.inl hwork),
      List.forall_mem_nil _⟩
  · simp only [List.forall_mem_cons]
    exact ⟨.str _, .num (Or.inl harranque), .num (Or.inl hoperacion), .num (Or.inl hcierre),
      untilJson_nums huntil, List.forall_mem_nil _⟩
  · simp only [List.forall_mem_cons]
    exact ⟨.str _, .str _, List.forall_mem_nil _⟩
  · simp only [List.forall_mem_cons]
    exact ⟨.bool _, .str _, Pay.nums hpay hrate, List.forall_mem_nil _⟩
  · simp only [List.forall_mem_cons]
    exact ⟨.bool _, List.forall_mem_nil _⟩

end Bazar.Finance.Rules
