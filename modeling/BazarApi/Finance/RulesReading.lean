import BazarApi.Finance.RulesLines

/- What socios read is what they approve. The topics that `describeChanges` lists are those
   whose values differ, the hash is that of one configuration, and rules that read the same do
   the same. -/
open Json

namespace Bazar.Finance.Rules

/-! Topics. -/

inductive Topic where
  | profitBase
  | reinvestment
  | capitalRecovery
  | work
  | partnerExpenses
  | reserves
  | partnerLoans

namespace Topic

def all : List Topic :=
  [.profitBase, .reinvestment, .capitalRecovery, .work, .partnerExpenses, .reserves, .partnerLoans]

theorem mem_all (t : Topic) : t ∈ all := by
  cases t <;> simp [all]

def name : Topic → String
  | profitBase => "Reparto de la utilidad"
  | reinvestment => "Reinversión"
  | capitalRecovery => "Devolución del capital"
  | work => "Pago de horas"
  | partnerExpenses => "Gastos de socios"
  | reserves => "Reservas"
  | partnerLoans => "Préstamos de socios"

/-- Two configurations agree on a topic. -/
def Agree (a b : FinanceRulesConfig) : Topic → Prop
  | profitBase => a.profitBase = b.profitBase
  | reinvestment => a.reinvestment = b.reinvestment
  | capitalRecovery => a.capitalRecovery = b.capitalRecovery
  | work => a.work = b.work
  | partnerExpenses => a.partnerExpenses = b.partnerExpenses
  | reserves => a.reserves = b.reserves
  | partnerLoans => a.partnerLoans = b.partnerLoans

instance (a b : FinanceRulesConfig) : DecidablePred (Agree a b) := by
  intro t
  cases t <;> exact inferInstanceAs (Decidable (_ = _))

theorem agree_all {a b : FinanceRulesConfig} : (∀ t, Agree a b t) ↔ a = b := by
  constructor
  · intro h
    obtain ⟨base, reinv, recovery, work, expenses, reserves, loans⟩ := a
    cases h .profitBase
    cases h .reinvestment
    cases h .capitalRecovery
    cases h .work
    cases h .partnerExpenses
    cases h .reserves
    cases h .partnerLoans
    rfl
  · rintro rfl t
    cases t <;> rfl

def key (c : FinanceRulesConfig) : Topic → Raw
  | profitBase => c.profitBase.toJson
  | reinvestment => c.reinvestment.toJson
  | capitalRecovery => c.capitalRecovery.toJson
  | work => c.work.toJson
  | partnerExpenses => c.partnerExpenses.toJson
  | reserves => c.reserves.toJson
  | partnerLoans => c.partnerLoans.toJson

theorem key_nums {c : FinanceRulesConfig} (h : c.toJson.Nums Admitted) (t : Topic) :
    (key c t).Nums Admitted := by
  cases h with
  | obj h =>
    simp only [List.forall_mem_cons] at h
    obtain ⟨-, hbase, hreinv, hrecovery, hwork, hexpenses, hreserves, hloans, -⟩ := h
    cases t with
    | profitBase => exact hbase
    | reinvestment => exact hreinv
    | capitalRecovery => exact hrecovery
    | work => exact hwork
    | partnerExpenses => exact hexpenses
    | reserves => exact hreserves
    | partnerLoans => exact hloans

theorem key_same {a b : FinanceRulesConfig} {t : Topic} (h : (key a t).Same (key b t)) :
    Agree a b t := by
  cases t with
  | profitBase => exact profitBase_same h
  | reinvestment => exact reinvestment_same h
  | capitalRecovery => exact capitalRecovery_same h
  | work => exact work_same h
  | partnerExpenses => exact partnerExpenseMode_inj (same_str h)
  | reserves => exact reserves_same h
  | partnerLoans => exact partnerLoans_same h

theorem key_eq {a b : FinanceRulesConfig} {t : Topic} (h : Agree a b t) : key a t = key b t := by
  cases t with
  | profitBase => exact congrArg ProfitBase.toJson h
  | reinvestment => exact congrArg Reinvestment.toJson h
  | capitalRecovery => exact congrArg CapitalRecovery.toJson h
  | work => exact congrArg Work.toJson h
  | partnerExpenses => exact congrArg PartnerExpenseMode.toJson h
  | reserves => exact congrArg Reserves.toJson h
  | partnerLoans => exact congrArg PartnerLoans.toJson h

/-- The line of a topic, those that may fail given. -/
def line (formats : Formats) (c : FinanceRulesConfig) (reinv hours reserved : JsString) :
    Topic → JsString
  | profitBase => profitBaseLine formats c.profitBase
  | reinvestment => reinv
  | capitalRecovery => recoveryLine c.capitalRecovery
  | work => hours
  | partnerExpenses => expensesLine c.partnerExpenses
  | reserves => reserved
  | partnerLoans => loansLine c.partnerLoans

end Topic

section
variable {formats : Formats}

variable (formats) in
/-- The sections of an accepted configuration, topic by topic. -/
theorem sections_ok {c : FinanceRulesConfig} (h : c.Valid) : ∃ reinv hours reserved,
    reinvestmentLine formats c.reinvestment = .ok reinv ∧ hoursLine formats c.work = .ok hours ∧
    reservesLine formats c.reserves = .ok reserved ∧
    sections formats c = .ok (Topic.all.map fun t =>
      ⟨t.name, t.line formats c reinv hours reserved, t.key c⟩) := by
  have ha := h.amounts
  unfold FinanceRulesConfig.amounts at ha
  rw [List.forall_mem_append, List.forall_mem_append] at ha
  obtain ⟨l, hl⟩ := ceiling_ok formats ha.1.1
  obtain ⟨hours, hhours⟩ := hoursLine_ok formats ha.1.2
  obtain ⟨reserved, hreserved⟩ := reservesLine_ok formats ha.2
  refine ⟨_, hours, reserved, reinvestmentLine_of hl, hhours, hreserved, ?_⟩
  unfold sections
  rw [reinvestmentLine_of hl, hhours, hreserved]
  rfl

/-- The changes between sections given topic by topic are those whose keys differ. -/
theorem changes_topics {new old : Topic → Section} (hname : ∀ t, (new t).topic = t.name)
    {P : Topic → Prop} [DecidablePred P]
    (hkey : ∀ t, canonicalJson formats.number (new t).key =
      canonicalJson formats.number (old t).key ↔ P t) (ts : List Topic) :
    (((ts.map new).zip (ts.map old)).flatMap fun p => changeOf formats p.1 p.2).map
      RuleChange.topic = (ts.filter fun t => ¬P t).map Topic.name := by
  induction ts with
  | nil => rfl
  | cons t ts ih =>
    rw [List.map_cons, List.map_cons, List.zip_cons_cons, List.flatMap_cons, List.map_append, ih,
      List.filter_cons]
    unfold changeOf
    by_cases hP : P t
    · rw [if_pos ((hkey t).mpr hP), if_neg (by simpa using hP)]
      rfl
    · rw [if_neg (mt (hkey t).mp hP), if_pos (by simpa using hP), List.map_cons, List.map_cons,
        hname]
      rfl

end

/-- Two configurations do the same: they agree on every field that has an effect. -/
structure SameEffect (a b : FinanceRulesConfig) : Prop where
  profitBase : a.profitBase = b.profitBase
  reinvestment : a.reinvestment = b.reinvestment
  mode : a.capitalRecovery.mode = b.capitalRecovery.mode
  timing : a.capitalRecovery.mode ≠ .ninguna →
    a.capitalRecovery.timing = b.capitalRecovery.timing
  payHours : a.work.payHours = b.work.payHours
  order : a.work.payHours = true → a.work.order = b.work.order
  pay : a.work.payHours = true → a.work.pay = b.work.pay
  partnerExpenses : a.partnerExpenses = b.partnerExpenses
  reserves : a.reserves = b.reserves
  partnerLoans : a.partnerLoans = b.partnerLoans

section
variable {formats : Formats} {sha256Hex : JsString → String}
  (hn : NumberLiterals fun q : {q // Admitted q} => formats.number q)
  {a b : FinanceRulesConfig} (ha : a.Valid) (hb : b.Valid)
include hn ha hb

theorem key_iff (t : Topic) : canonicalJson formats.number (t.key a) =
    canonicalJson formats.number (t.key b) ↔ t.Agree a b := by
  constructor
  · intro h
    exact Topic.key_same (canonicalJson_same_of hn (Topic.key_nums ha.nums t)
      (Topic.key_nums hb.nums t) h)
  · intro h
    rw [Topic.key_eq h]

theorem configHash_iff (hsha : Function.Injective sha256Hex) :
    configHash formats sha256Hex a = configHash formats sha256Hex b ↔ a = b := by
  constructor
  · intro h
    exact config_same (canonicalJson_same_of hn ha.nums hb.nums (hsha h))
  · intro h
    rw [h]

theorem describeChanges_topics : ∃ changes, describeChanges formats a b = .ok changes ∧
    changes.map RuleChange.topic = (Topic.all.filter fun t => ¬t.Agree a b).map Topic.name := by
  obtain ⟨r, h, s, -, -, -, hold⟩ := sections_ok formats ha
  obtain ⟨r', h', s', -, -, -, hnew⟩ := sections_ok formats hb
  unfold describeChanges
  rw [hold, hnew]
  refine ⟨_, rfl, changes_topics (fun t => rfl) (fun t => ?_) Topic.all⟩
  rw [← key_iff hn ha hb t]
  exact eq_comm

theorem describeRules_sameEffect (hd : DecimalTexts formats.toDecimal)
    (h : describeRules formats a = describeRules formats b) : SameEffect a b := by
  obtain ⟨r, w, s, hr, hw, hs, hsections⟩ := sections_ok formats ha
  obtain ⟨r', w', s', hr', hw', hs', hsections'⟩ := sections_ok formats hb
  unfold describeRules at h
  rw [hsections, hsections'] at h
  have hlines := Except.ok.inj h
  simp only [Topic.all, List.map_cons, List.cons.injEq] at hlines
  obtain ⟨hbase, hreinv, hrecovery, hwork, hexpenses, hreserves, hloans, -⟩ := hlines
  obtain ⟨hpa, haa⟩ := ha
  obtain ⟨hpb, hab⟩ := hb
  unfold FinanceRulesConfig.percentages at hpa hpb
  unfold FinanceRulesConfig.amounts at haa hab
  rw [List.forall_mem_append, List.forall_mem_append] at hpa hpb haa hab
  obtain ⟨⟨hpcta, hpaya⟩, hreservesa⟩ := hpa
  obtain ⟨⟨hpctb, hpayb⟩, hreservesb⟩ := hpb
  simp only [List.forall_mem_cons] at hpcta hpctb
  obtain ⟨h1, h2, h3, h4, h5, h6, -⟩ := hpcta
  obtain ⟨g1, g2, g3, g4, g5, g6, -⟩ := hpctb
  have hhours : hoursLine formats a.work = hoursLine formats b.work := by
    rw [hw, hw']
    exact congrArg Except.ok hwork
  have hpayHours := hoursLine_payHours haa.1.2 hab.1.2 hhours
  have hpaid (hpay : a.work.payHours = true) :=
    hoursLine_inj hn hd haa.1.2 hab.1.2 hpaya hpayb hpay (hpayHours ▸ hpay) hhours
  exact {
    profitBase := profitBaseLine_inj hn ⟨h1, h2, h3⟩ ⟨g1, g2, g3⟩ hbase
    reinvestment := reinvestmentLine_inj hn hd ⟨h4, h5, h6⟩ ⟨g4, g5, g6⟩ haa.1.1 hab.1.1 (by
      rw [hr, hr']
      exact congrArg Except.ok hreinv)
    mode := (recoveryLine_inj hrecovery).1
    timing := (recoveryLine_inj hrecovery).2
    payHours := hpayHours
    order := fun hpay => (hpaid hpay).1
    pay := fun hpay => (hpaid hpay).2
    partnerExpenses := expensesLine_inj hexpenses
    reserves := reservesLine_inj hn hd haa.2 hab.2 hreservesa hreservesb (by
      rw [hs, hs']
      exact congrArg Except.ok hreserves)
    partnerLoans := loansLine_inj hloans }

end

/-- What socios read is what they approve: of two accepted configurations, the changes are
    empty exactly when the hashes are equal and name the topics that differ, and equal rules
    do the same. -/
theorem socios_read_what_they_approve (formats : Formats) (sha256Hex : JsString → String)
    (hn : NumberLiterals fun q : {q // Admitted q} => formats.number q)
    (hd : DecimalTexts formats.toDecimal) (hsha : Function.Injective sha256Hex)
    (inputA inputB : Raw) (a b : FinanceRulesConfig) (ha : parseRulesConfig inputA = .ok a)
    (hb : parseRulesConfig inputB = .ok b) :
    (∃ changes, describeChanges formats a b = .ok changes ∧
      (changes = [] ↔ configHash formats sha256Hex a = configHash formats sha256Hex b) ∧
      changes.map RuleChange.topic = (Topic.all.filter fun t => ¬t.Agree a b).map Topic.name) ∧
    (∃ lines, describeRules formats a = .ok lines) ∧
    (describeRules formats a = describeRules formats b → SameEffect a b) := by
  have hva := valid_of_parse ha
  have hvb := valid_of_parse hb
  refine ⟨?_, ?_, describeRules_sameEffect hn hva hvb hd⟩
  · obtain ⟨changes, hchanges, htopics⟩ := describeChanges_topics hn hva hvb
    refine ⟨changes, hchanges, ?_, htopics⟩
    calc changes = [] ↔ changes.map RuleChange.topic = [] := List.map_eq_nil_iff.symm
      _ ↔ ∀ t, Topic.Agree a b t := by
        rw [htopics, List.map_eq_nil_iff, List.filter_eq_nil_iff]
        simp only [decide_eq_true_eq, not_not, Topic.mem_all, forall_const]
      _ ↔ a = b := Topic.agree_all
      _ ↔ configHash formats sha256Hex a = configHash formats sha256Hex b :=
        (configHash_iff hn hva hvb hsha).symm
  · obtain ⟨r, h, s, -, -, -, hsections⟩ := sections_ok formats hva
    unfold describeRules
    rw [hsections]
    exact ⟨_, rfl⟩

namespace Demo

/-- Integers as they are; other numbers as a numerator, an `e` and a denominator. -/
def number (q : ℚ) : JsString :=
  intLiteral q.num ++ if q.den = 1 then [] else unit 'e' :: natLiteral q.den

/-- Pesos and two digits of cents. -/
def toDecimal (n : Int) : JsString :=
  natLiteral (n.toNat / 100) ++
    unit '.' :: [hexDigit (n.toNat % 100 / 10), hexDigit (n.toNat % 10)]

def digest (s : JsString) : String := String.ofList (s.map fun c => Char.ofNat (0x10000 + c.val))

def formats : Formats := ⟨number, toDecimal⟩

theorem e_notMem (n : Int) : unit 'e' ∉ intLiteral n := by
  have hnat (n : Nat) : unit 'e' ∉ natLiteral n := fun h => absurd (natLiteral_mem n _ h) (by decide)
  cases n with
  | ofNat n => exact hnat n
  | negSucc n => exact List.not_mem_cons_of_ne_of_not_mem (by decide) (hnat _)

theorem number_injective : Function.Injective number := by
  intro p q h
  unfold number at h
  split at h
  · rename_i hp
    split at h
    · rename_i hq
      rw [List.append_nil, List.append_nil] at h
      exact Rat.ext (intLiteral_literals.injective h) (hp.trans hq.symm)
    · rw [List.append_nil] at h
      exact absurd (h ▸ List.mem_append_right _ List.mem_cons_self) (e_notMem p.num)
  · split at h
    · rw [List.append_nil] at h
      exact absurd (h ▸ List.mem_append_right _ List.mem_cons_self) (e_notMem q.num)
    · obtain ⟨hnum, hden⟩ := cut (e_notMem p.num) (e_notMem q.num) h
      exact Rat.ext (intLiteral_literals.injective hnum) (natLiteral_inj hden)

theorem number_literals : NumberLiterals fun q : {q // Admitted q} => number q where
  injective := number_injective.comp Subtype.val_injective
  first q := by
    obtain ⟨c, s, h, hc⟩ := intLiteral_literals.first q.val.num
    refine ⟨c, s ++ if q.val.den = 1 then [] else unit 'e' :: natLiteral q.val.den, ?_, hc⟩
    unfold number
    rw [h, List.cons_append]
  units q c hc := by
    unfold number at hc
    rcases List.mem_append.mp hc with hc | hc
    · exact intLiteral_literals.units q.val.num c hc
    · split at hc
      · cases hc
      · rcases List.mem_cons.mp hc with rfl | hc
        · decide
        · exact intLiteral_literals.units (.ofNat q.val.den) c hc

theorem toDecimal_texts : DecimalTexts toDecimal where
  injective n m hn hm h := by
    have hdot (n : Nat) : unit '.' ∉ natLiteral n :=
      fun h => absurd (natLiteral_mem n _ h) (by decide)
    obtain ⟨hwhole, hcents⟩ := cut (hdot _) (hdot _) h
    have hdigit {d e : Nat} (hd : d < 10) (he : e < 10) (h : hexDigit d = hexDigit e) : d = e := by
      interval_cases d <;> interval_cases e <;> first | rfl | exact absurd h (by decide)
    simp only [List.cons.injEq, and_true] at hcents
    have htens := hdigit (by omega) (by omega) hcents.1
    have hones := hdigit (by omega) (by omega) hcents.2
    have hpesos := natLiteral_inj hwhole
    obtain ⟨hn, -⟩ := hn
    obtain ⟨hm, -⟩ := hm
    omega
  units n hn c hc := by
    have hdigit {d : Nat} (hd : d < 10) : IsNumberUnit (hexDigit d) := by
      interval_cases d <;> decide
    rcases List.mem_append.mp hc with hc | hc
    · exact intLiteral_literals.units (.ofNat _) c hc
    · simp only [List.mem_cons, List.not_mem_nil, or_false] at hc
      rcases hc with rfl | rfl | rfl
      · decide
      · exact hdigit (by omega)
      · exact hdigit (by omega)

theorem digest_injective : Function.Injective digest := fun _ _ h =>
  List.map_injective_iff.mpr wideChar_injective (String.ofList_injective h)

/-- Two configurations that differ in the order of hours that are not paid. -/
def idle (order : WorkOrder) : FinanceRulesConfig :=
  { splitSharesConfig 50 with work := ⟨false, order, .porcentaje 5⟩ }

end Demo

theorem socios_read_what_they_approve_idle :
    ∃ changes, describeChanges Demo.formats (Demo.idle .antes) (Demo.idle .despues) = .ok changes ∧
      changes.map RuleChange.topic = ["Pago de horas"] := by
  obtain ⟨⟨changes, hchanges, -, htopics⟩, -⟩ := socios_read_what_they_approve Demo.formats Demo.digest
    Demo.number_literals Demo.toDecimal_texts Demo.digest_injective (Demo.idle .antes).toJson
    (Demo.idle .despues).toJson (Demo.idle .antes) (Demo.idle .despues) (by decide +kernel)
    (by decide +kernel)
  refine ⟨changes, hchanges, htopics.trans ?_⟩
  decide +kernel

end Bazar.Finance.Rules
