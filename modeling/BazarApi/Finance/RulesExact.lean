import Mathlib.Tactic.Linarith
import Mathlib.Tactic.NormNum
import BazarApi.Finance.RulesGrammar

/- Which inputs the parser of the rules takes beyond its grammar. Its test for hundredths has a
   tolerance of a millionth of a hundredth, and it sums the rounded shares, so a percentage a
   hair from a hundredth passes. -/
open Json

namespace Bazar.Finance.Rules

/-! Hundredths. -/

/-- A percentage within the tolerance of one of at most two decimals. -/
def Near (value : ℚ) : Prop :=
  0 ≤ value ∧ value ≤ 100 ∧ ∃ n : Int, |value - n / 100| < 1 / 100000000

/-- Three shares within three tolerances of a whole. -/
def sumsNear100 (a b c : ℚ) : Prop := |a + b + c - 100| < 3 / 100000000

theorem hundredths_near {value : ℚ} {n : Int} (h : |value - n / 100| < 1 / 100000000) :
    hundredths value = n := by
  obtain ⟨hlow, hhigh⟩ := abs_lt.mp h
  unfold hundredths
  rw [Int.floor_eq_iff]
  constructor <;> linarith

theorem isPct_iff_near {value : ℚ} : IsPct value ↔ Near value := by
  constructor
  · rintro ⟨h0, h100, h⟩
    obtain ⟨hlow, hhigh⟩ := abs_lt.mp h
    refine ⟨h0, h100, hundredths value, abs_lt.mpr ⟨?_, ?_⟩⟩ <;> linarith
  · rintro ⟨h0, h100, n, h⟩
    obtain ⟨hlow, hhigh⟩ := abs_lt.mp h
    refine ⟨h0, h100, ?_⟩
    rw [hundredths_near h]
    refine abs_lt.mpr ⟨?_, ?_⟩ <;> linarith

theorem Exact.near {value : ℚ} (h : Exact value) : Near value := by
  obtain ⟨h0, h100, n, rfl⟩ := h
  refine ⟨h0, h100, n, ?_⟩
  rw [sub_self, abs_zero]
  norm_num

/-- The rounded shares make a whole when the shares nearly do. -/
theorem roundsTo100_iff {a b c : ℚ} (ha : Near a) (hb : Near b) (hc : Near c) :
    roundsTo100 a b c ↔ sumsNear100 a b c := by
  obtain ⟨-, -, n, ha⟩ := ha
  obtain ⟨-, -, m, hb⟩ := hb
  obtain ⟨-, -, k, hc⟩ := hc
  unfold roundsTo100 sumsNear100
  rw [hundredths_near ha, hundredths_near hb, hundredths_near hc]
  obtain ⟨ha, ha'⟩ := abs_lt.mp ha
  obtain ⟨hb, hb'⟩ := abs_lt.mp hb
  obtain ⟨hc, hc'⟩ := abs_lt.mp hc
  constructor
  · intro h
    have hq : (n : ℚ) + m + k = 10000 := by exact_mod_cast h
    refine abs_lt.mpr ⟨?_, ?_⟩ <;> linarith
  · intro h
    obtain ⟨hlow, hhigh⟩ := abs_lt.mp h
    -- The sum of the hundredths is an integer less than one from 10000.
    have hlt : (n : ℚ) + m + k < 10001 := by linarith
    have hgt : (9999 : ℚ) < n + m + k := by linarith
    have hlt' : n + m + k < 10001 := by exact_mod_cast hlt
    have hgt' : 9999 < n + m + k := by exact_mod_cast hgt
    omega

/-- Among exact hundredths nearly a whole is a whole. -/
theorem sumsTo100_iff {a b c : ℚ} (ha : Exact a) (hb : Exact b) (hc : Exact c) :
    sumsTo100 a b c ↔ sumsNear100 a b c := by
  constructor
  · intro h
    unfold sumsNear100
    rw [h, sub_self, abs_zero]
    norm_num
  · intro h
    rw [← roundsTo100_iff ha.near hb.near hc.near] at h
    obtain ⟨-, -, n, rfl⟩ := ha
    obtain ⟨-, -, m, rfl⟩ := hb
    obtain ⟨-, -, k, rfl⟩ := hc
    have hexact (i : Int) : hundredths (i / 100) = i := hundredths_near (by rw [sub_self]; norm_num)
    unfold roundsTo100 at h
    rw [hexact, hexact, hexact] at h
    have hq : (n : ℚ) + m + k = 10000 := by exact_mod_cast h
    unfold sumsTo100
    linarith

/-! The percentages of a configuration. -/

def Pay.percentages : Pay → List ℚ
  | .porHora _ => []
  | .porcentaje pct => [pct]

def Reserves.percentages : Reserves → List ℚ
  | .porcentaje pct => [pct]
  | .monto _ => []

def FinanceRulesConfig.percentages (c : FinanceRulesConfig) : List ℚ :=
  [c.profitBase.partnerPct, c.profitBase.capitalPct, c.profitBase.workPct,
    c.reinvestment.arranquePct, c.reinvestment.operacionPct, c.reinvestment.cierrePct] ++
    c.work.pay.percentages ++ c.reserves.percentages

section
variable {Pct Pct' : ℚ → Prop} {Total Total' : ℚ → ℚ → ℚ → Prop}

/-- What an input says keeps its percentages and its total. -/
theorem FinanceRulesConfig.Says.change {input : Raw} {c : FinanceRulesConfig}
    (hpct : ∀ p ∈ c.percentages, Pct p → Pct' p)
    (htotal : Total c.profitBase.partnerPct c.profitBase.capitalPct c.profitBase.workPct →
      Total' c.profitBase.partnerPct c.profitBase.capitalPct c.profitBase.workPct)
    (h : c.Says Pct Total input) : c.Says Pct' Total' input := by
  obtain ⟨raw, hraw, h⟩ := h
  obtain ⟨base, reinv, recovery, work, expenses, reserves, loans⟩ := c
  have hhas {o : Fields} {key : String} {p : ℚ} (hp : Pct p → Pct' p)
      (hkey : HasPct Pct o key p) : HasPct Pct' o key p := ⟨hkey.1, hp hkey.2⟩
  simp only [FinanceRulesConfig.percentages, List.cons_append, List.nil_append, List.mem_cons,
    List.mem_append] at hpct
  refine ⟨raw, hraw, { h with profitBase := ?_, reinvestment := ?_, work := ?_, reserves := ?_ }⟩
  · obtain ⟨o, ho, hb⟩ := h.profitBase
    exact ⟨o, ho, hb.keys, hhas (hpct _ (by simp)) hb.partnerPct,
      hhas (hpct _ (by simp)) hb.capitalPct, hhas (hpct _ (by simp)) hb.workPct, htotal hb.total⟩
  · obtain ⟨o, ho, hr⟩ := h.reinvestment
    exact ⟨o, ho, hr.keys, hr.currentPhase, hhas (hpct _ (by simp)) hr.arranquePct,
      hhas (hpct _ (by simp)) hr.operacionPct, hhas (hpct _ (by simp)) hr.cierrePct,
      hr.untilAmountMinor⟩
  · obtain ⟨o, ho, hw⟩ := h.work
    obtain ⟨payRaw, hpay, hp⟩ := hw.pay
    refine ⟨o, ho, hw.keys, hw.payHours, hw.order, payRaw, hpay, ?_⟩
    obtain ⟨payHours, order, pay⟩ := work
    cases pay with
    | porHora rate => exact hp
    | porcentaje pct => exact ⟨hp.1, hp.2.1, hhas (hpct _ (by simp [Pay.percentages])) hp.2.2⟩
  · obtain ⟨o, ho, hr⟩ := h.reserves
    refine ⟨o, ho, ?_⟩
    cases reserves with
    | porcentaje pct => exact ⟨hr.1, hr.2.1, hhas (hpct _ (by simp [Reserves.percentages])) hr.2.2⟩
    | monto amount => exact hr

theorem FinanceRulesConfig.Says.percentages {input : Raw} {c : FinanceRulesConfig}
    (h : c.Says Pct Total input) : ∀ p ∈ c.percentages, Pct p := by
  obtain ⟨raw, hraw, h⟩ := h
  obtain ⟨base, reinv, recovery, work, expenses, reserves, loans⟩ := c
  obtain ⟨_, -, hb⟩ := h.profitBase
  obtain ⟨_, -, hr⟩ := h.reinvestment
  obtain ⟨_, -, hw⟩ := h.work
  obtain ⟨_, -, hp⟩ := hw.pay
  obtain ⟨_, -, hre⟩ := h.reserves
  have hpay : ∀ p ∈ work.pay.percentages, Pct p := by
    obtain ⟨payHours, order, pay⟩ := work
    cases pay with
    | porHora rate => exact List.forall_mem_nil _
    | porcentaje pct => exact List.forall_mem_singleton.mpr hp.2.2.2
  have hreserves : ∀ p ∈ reserves.percentages, Pct p := by
    cases reserves with
    | porcentaje pct => exact List.forall_mem_singleton.mpr hre.2.2.2
    | monto amount => exact List.forall_mem_nil _
  unfold FinanceRulesConfig.percentages
  rw [List.forall_mem_append, List.forall_mem_append]
  refine ⟨⟨?_, hpay⟩, hreserves⟩
  simp only [List.forall_mem_cons]
  exact ⟨hb.partnerPct.2, hb.capitalPct.2, hb.workPct.2, hr.arranquePct.2, hr.operacionPct.2,
    hr.cierrePct.2, List.forall_mem_nil _⟩

theorem FinanceRulesConfig.Says.total {input : Raw} {c : FinanceRulesConfig}
    (h : c.Says Pct Total input) :
    Total c.profitBase.partnerPct c.profitBase.capitalPct c.profitBase.workPct := by
  obtain ⟨raw, hraw, h⟩ := h
  obtain ⟨_, -, hb⟩ := h.profitBase
  exact hb.total

end

/-! What the parser accepts. -/

/-- The shares are percentages of the configuration. -/
theorem shares_mem (c : FinanceRulesConfig) : c.profitBase.partnerPct ∈ c.percentages ∧
    c.profitBase.capitalPct ∈ c.percentages ∧ c.profitBase.workPct ∈ c.percentages := by
  simp [FinanceRulesConfig.percentages]

/-- The parser takes what the grammar takes up to its tolerance. -/
theorem parseRulesConfig_near {input : Raw} {c : FinanceRulesConfig} :
    parseRulesConfig input = .ok c ↔ c.Says Near sumsNear100 input := by
  rw [parseRulesConfig_ok]
  obtain ⟨hp, hc, hw⟩ := shares_mem c
  constructor
  · intro h
    have hpcts := h.percentages
    exact h.change (fun _ _ => isPct_iff_near.mp) (roundsTo100_iff (isPct_iff_near.mp (hpcts _ hp))
      (isPct_iff_near.mp (hpcts _ hc)) (isPct_iff_near.mp (hpcts _ hw))).mp
  · intro h
    have hpcts := h.percentages
    exact h.change (fun _ _ => isPct_iff_near.mpr)
      (roundsTo100_iff (hpcts _ hp) (hpcts _ hc) (hpcts _ hw)).mpr

/-- The grammar takes what is near and exact. -/
theorem says_exact_iff {input : Raw} {c : FinanceRulesConfig} :
    c.Says Exact sumsTo100 input ↔
      c.Says Near sumsNear100 input ∧ ∀ p ∈ c.percentages, Exact p := by
  obtain ⟨hp, hc, hw⟩ := shares_mem c
  constructor
  · intro h
    have hpcts := h.percentages
    exact ⟨h.change (fun _ _ => Exact.near)
      (sumsTo100_iff (hpcts _ hp) (hpcts _ hc) (hpcts _ hw)).mp, hpcts⟩
  · rintro ⟨h, hpcts⟩
    exact h.change (fun p hmem _ => hpcts p hmem)
      (sumsTo100_iff (hpcts _ hp) (hpcts _ hc) (hpcts _ hw)).mpr

/-- The parser accepts just the grammar at an input: it succeeds exactly on what the grammar
    takes, answers the values of the input, and refuses with a reason. -/
structure AcceptsGrammar (input : Raw) : Prop where
  accepts : (∃ c, parseRulesConfig input = .ok c) ↔ ∃ c, FinanceRulesConfig.Says Exact sumsTo100 input c
  values : ∀ c, parseRulesConfig input = .ok c → c.Says (fun _ => True) (fun _ _ _ => True) input
  reason : ∀ errors, parseRulesConfig input = .error errors → errors ≠ []

/-- The parser accepts just the grammar exactly where no percentage of an otherwise admissible
    input is a hair from a hundredth. -/
theorem parseRulesConfig_acceptsGrammar_iff (input : Raw) : AcceptsGrammar input ↔
    ∀ c : FinanceRulesConfig, c.Says Near sumsNear100 input → ∀ p ∈ c.percentages, Exact p := by
  constructor
  · intro h c hc
    have hok := parseRulesConfig_near.mpr hc
    obtain ⟨c', hc'⟩ := h.accepts.mp ⟨c, hok⟩
    obtain ⟨hnear, hexact⟩ := says_exact_iff.mp hc'
    cases hok.symm.trans (parseRulesConfig_near.mpr hnear)
    exact hexact
  · intro h
    refine ⟨⟨?_, ?_⟩, ?_, fun _ => parseRulesConfig_error⟩
    · rintro ⟨c, hc⟩
      have hnear := parseRulesConfig_near.mp hc
      exact ⟨c, says_exact_iff.mpr ⟨hnear, h c hnear⟩⟩
    · rintro ⟨c, hc⟩
      exact ⟨c, parseRulesConfig_near.mpr (says_exact_iff.mp hc).1⟩
    · intro c hc
      exact (parseRulesConfig_ok.mp hc).change (fun _ _ _ => trivial) (fun _ => trivial)

/-- Rules whose one share is a parameter. -/
def splitShares (partnerPct : ℚ) : Raw :=
  .obj [(text "schemaVersion", .num 1),
    (text "profitBase", .obj [(text "partnerPct", .num partnerPct), (text "capitalPct", .num 30),
      (text "workPct", .num 20)]),
    (text "reinvestment", .obj [(text "currentPhase", .str (text "arranque")),
      (text "arranquePct", .num 50), (text "operacionPct", .num 30), (text "cierrePct", .num 0),
      (text "untilAmountMinor", .null)]),
    (text "capitalRecovery", .obj [(text "mode", .str (text "total")),
      (text "timing", .str (text "durante"))]),
    (text "work", .obj [(text "payHours", .bool false), (text "order", .str (text "antes")),
      (text "pay", .obj [(text "kind", .str (text "porcentaje")), (text "pct", .num 5)])]),
    (text "partnerExpenses", .str (text "reembolsar")),
    (text "reserves", .obj [(text "kind", .str (text "monto")), (text "amountMinor", .num 100000)]),
    (text "partnerLoans", .obj [(text "repayBeforeCapital", .bool true)])]

def splitSharesConfig (partnerPct : ℚ) : FinanceRulesConfig :=
  { profitBase := ⟨partnerPct, 30, 20⟩
    reinvestment := ⟨.arranque, 50, 30, 0, none⟩
    capitalRecovery := ⟨.total, .durante⟩
    work := ⟨false, .antes, .porcentaje 5⟩
    partnerExpenses := .reembolsar
    reserves := .monto 100000
    partnerLoans := ⟨true⟩ }

example : parseRulesConfig (splitShares 50) = .ok (splitSharesConfig 50) := by decide +kernel

/-- The shares 50.000000001, 30 and 20 are accepted. -/
theorem parseRulesConfig_accepts_inexact : ¬AcceptsGrammar (splitShares (50000000001 / 1000000000)) := by
  intro h
  have hok : parseRulesConfig (splitShares (50000000001 / 1000000000)) =
      .ok (splitSharesConfig (50000000001 / 1000000000)) := by decide +kernel
  obtain ⟨c, hc⟩ := h.accepts.mp ⟨_, hok⟩
  obtain ⟨hnear, hexact⟩ := says_exact_iff.mp hc
  cases hok.symm.trans (parseRulesConfig_near.mpr hnear)
  obtain ⟨-, -, n, hn⟩ := hexact _ (shares_mem _).1
  have hq : (50000000001 : ℚ) = n * 10000000 := by
    change (50000000001 / 1000000000 : ℚ) = n / 100 at hn
    linarith
  have hint : (50000000001 : Int) = n * 10000000 := by exact_mod_cast hq
  omega

end Bazar.Finance.Rules
