import BazarApi.Finance.RulesConfig

/- The grammar of the rules, and when the parser accepts just that. `Says` reads off an input
   which configuration it states; it has two parameters, which percentages are admissible and
   which three shares make a whole. The grammar takes exact hundredths that sum to 100
   (`Exact`, `sumsTo100`); the parser takes what is within a millionth of a hundredth
   (`IsPct`, `roundsTo100`), so it accepts more (`parseRulesConfig_ok`). -/
open Json

namespace Bazar.Finance.Rules

/-! What an input says. -/

/-- No key but the allowed ones. -/
def KeysIn (raw : Fields) (allowed : List String) : Prop :=
  ∀ f ∈ raw, f.1 ∈ allowed.map text

/-- A key has a percentage, an amount or an object. -/
def HasPct (Pct : ℚ → Prop) (raw : Fields) (key : String) (value : ℚ) : Prop :=
  get raw key = some (.num value) ∧ Pct value

def HasMinor (raw : Fields) (key : String) (value : Int) : Prop :=
  get raw key = some (.num value) ∧ 0 ≤ value ∧ value ≤ maxMinorUnits

def HasText (raw : Fields) (key value : String) : Prop := get raw key = some (.str (text value))

/-- A key has an object of which `P` holds. -/
def HasObject (raw : Fields) (key : String) (P : Fields → Prop) : Prop :=
  ∃ fields, get raw key = some (.obj fields) ∧ P fields

section
variable (Pct : ℚ → Prop) (Total : ℚ → ℚ → ℚ → Prop)

structure ProfitBase.Says (raw : Fields) (b : ProfitBase) : Prop where
  keys : KeysIn raw ["partnerPct", "capitalPct", "workPct"]
  partnerPct : HasPct Pct raw "partnerPct" b.partnerPct
  capitalPct : HasPct Pct raw "capitalPct" b.capitalPct
  workPct : HasPct Pct raw "workPct" b.workPct
  total : Total b.partnerPct b.capitalPct b.workPct

structure Reinvestment.Says (raw : Fields) (r : Reinvestment) : Prop where
  keys : KeysIn raw ["currentPhase", "arranquePct", "operacionPct", "cierrePct", "untilAmountMinor"]
  currentPhase : HasText raw "currentPhase" r.currentPhase.text
  arranquePct : HasPct Pct raw "arranquePct" r.arranquePct
  operacionPct : HasPct Pct raw "operacionPct" r.operacionPct
  cierrePct : HasPct Pct raw "cierrePct" r.cierrePct
  untilAmountMinor : match r.untilAmountMinor with
    | none => get raw "untilAmountMinor" = some .null
    | some amount => HasMinor raw "untilAmountMinor" amount

structure CapitalRecovery.Says (raw : Fields) (c : CapitalRecovery) : Prop where
  keys : KeysIn raw ["mode", "timing"]
  mode : HasText raw "mode" c.mode.text
  timing : HasText raw "timing" c.timing.text

def Pay.Says (raw : Fields) : Pay → Prop
  | .porHora rate => HasText raw "kind" "por_hora" ∧ KeysIn raw ["kind", "rateMinorPerHour"] ∧
    HasMinor raw "rateMinorPerHour" rate
  | .porcentaje pct => HasText raw "kind" "porcentaje" ∧ KeysIn raw ["kind", "pct"] ∧
    HasPct Pct raw "pct" pct

structure Work.Says (raw : Fields) (w : Work) : Prop where
  keys : KeysIn raw ["payHours", "order", "pay"]
  payHours : get raw "payHours" = some (.bool w.payHours)
  order : HasText raw "order" w.order.text
  pay : HasObject raw "pay" fun fields => w.pay.Says Pct fields

def Reserves.Says (raw : Fields) : Reserves → Prop
  | .porcentaje pct => HasText raw "kind" "porcentaje" ∧ KeysIn raw ["kind", "pct"] ∧
    HasPct Pct raw "pct" pct
  | .monto amount => HasText raw "kind" "monto" ∧ KeysIn raw ["kind", "amountMinor"] ∧
    HasMinor raw "amountMinor" amount

structure PartnerLoans.Says (raw : Fields) (l : PartnerLoans) : Prop where
  keys : KeysIn raw ["repayBeforeCapital"]
  repayBeforeCapital : get raw "repayBeforeCapital" = some (.bool l.repayBeforeCapital)

/-- Every field is there with the value of the configuration, and no other key. -/
structure FinanceRulesConfig.SaysFields (raw : Fields) (c : FinanceRulesConfig) : Prop where
  keys : KeysIn raw rootKeys
  schemaVersion : get raw "schemaVersion" = some (.num 1)
  profitBase : HasObject raw "profitBase" fun o => c.profitBase.Says Pct Total o
  reinvestment : HasObject raw "reinvestment" fun o => c.reinvestment.Says Pct o
  capitalRecovery : HasObject raw "capitalRecovery" fun o => c.capitalRecovery.Says o
  work : HasObject raw "work" fun o => c.work.Says Pct o
  partnerExpenses : HasText raw "partnerExpenses" c.partnerExpenses.text
  reserves : HasObject raw "reserves" fun o => c.reserves.Says Pct o
  partnerLoans : HasObject raw "partnerLoans" fun o => c.partnerLoans.Says o

def FinanceRulesConfig.Says (input : Raw) (c : FinanceRulesConfig) : Prop :=
  ∃ raw, input = .obj raw ∧ c.SaysFields Pct Total raw

end

/-- A percentage of at most two decimals. -/
def Exact (value : ℚ) : Prop := 0 ≤ value ∧ value ≤ 100 ∧ ∃ n : Int, value = n / 100

def sumsTo100 (a b c : ℚ) : Prop := a + b + c = 100

/-- The sum that the parser checks. -/
def roundsTo100 (a b c : ℚ) : Prop := hundredths a + hundredths b + hundredths c = 10000

/-! Readers. -/

/-- Read without an error. -/
def Read.Reads {α : Type} (x : Read α) (a : α) : Prop := x.errors = [] ∧ x.value = some a

/-- What was read without an error was read. -/
def Read.Sound {α : Type} (x : Read α) : Prop := x.errors = [] → ∃ a, x.value = some a

section
variable {α β : Type} {x : Read α} {f : α → β}

theorem Read.map_reads {b : β} : (x.map f).Reads b ↔ ∃ a, x.Reads a ∧ f a = b := by
  unfold Read.Reads Read.map
  simp only [Option.map_eq_some_iff, and_assoc, exists_and_left]

theorem Read.map_sound (h : x.Sound) : (x.map f).Sound := by
  intro herrors
  obtain ⟨a, ha⟩ := h herrors
  exact ⟨f a, congrArg (Option.map f) ha⟩

end

section
variable {r : Reader} {key message : String} {α : Type} {read : Raw → Option α}

theorem need_reads {a : α} : (r.need key read message).Reads a ↔
    ∃ raw v, r.raw = some raw ∧ get raw key = some v ∧ read v = some a := by
  unfold Reader.need Read.Reads
  split
  · rename_i b hb
    obtain ⟨raw, hraw, hb⟩ := Option.bind_eq_some_iff.mp hb
    obtain ⟨v, hv, hb⟩ := Option.bind_eq_some_iff.mp hb
    simp only [true_and, Option.some.injEq]
    constructor
    · rintro rfl
      exact ⟨raw, v, hraw, hv, hb⟩
    · rintro ⟨raw', v', hraw', hv', ha⟩
      cases hraw.symm.trans hraw'
      cases hv.symm.trans hv'
      exact Option.some.inj (hb.symm.trans ha)
  · rename_i hnone
    refine iff_of_false (fun h => by cases h.1) ?_
    rintro ⟨raw, v, hraw, hv, ha⟩
    rw [hraw, Option.bind_some, hv, Option.bind_some, ha] at hnone
    cases hnone

theorem need_sound : (r.need key read message).Sound := by
  unfold Reader.need Read.Sound
  split
  · exact fun _ => ⟨_, rfl⟩
  · intro h
    cases h

theorem pct_sound : (r.pct key).Sound := need_sound

theorem minor_sound : (r.minor key).Sound := need_sound

theorem bool_sound : (r.bool key).Sound := need_sound

theorem object_sound : (r.object key).Sound := need_sound

theorem choice_sound {list : List α} {name : α → String} : (r.choice key list name).Sound :=
  need_sound

theorem unknown_eq_nil {raw : Fields} {allowed : List String} (h : r.raw = some raw) :
    r.unknown allowed = [] ↔ KeysIn raw allowed := by
  unfold Reader.unknown KeysIn
  rw [h, Option.getD_some, List.map_eq_nil_iff, List.filter_eq_nil_iff]
  simp only [decide_eq_true_eq, not_not]

end

/-! Values. -/

theorem pctOf_eq {v : Raw} {q : ℚ} : pctOf v = some q ↔ v = .num q ∧ IsPct q := by
  cases v with
  | num n =>
    unfold pctOf
    simp only [Option.ite_none_right_eq_some, Option.some.injEq, Json.Tree.num.injEq]
    constructor
    · rintro ⟨h, rfl⟩
      exact ⟨rfl, h⟩
    · rintro ⟨rfl, h⟩
      exact ⟨h, rfl⟩
  | _ => exact iff_of_false (fun h => by cases h) (fun h => by cases h.1)

theorem minorOf_eq {v : Raw} {n : Int} :
    minorOf v = some n ↔ v = .num n ∧ 0 ≤ n ∧ n ≤ maxMinorUnits := by
  cases v with
  | num q =>
    unfold minorOf
    simp only [Option.ite_none_right_eq_some, Option.some.injEq, Json.Tree.num.injEq]
    constructor
    · rintro ⟨⟨hden, h0, hmax⟩, rfl⟩
      exact ⟨(Rat.den_eq_one_iff q).mp hden |>.symm, h0, hmax⟩
    · rintro ⟨rfl, h0, hmax⟩
      exact ⟨⟨rfl, h0, hmax⟩, rfl⟩
  | _ => exact iff_of_false (fun h => by cases h) (fun h => by cases h.1)

theorem boolOf_eq {v : Raw} {b : Bool} : boolOf v = some b ↔ v = .bool b := by
  cases v with
  | bool b' => simp [boolOf]
  | _ => exact iff_of_false (fun h => by cases h) (fun h => by cases h)

theorem objectOf_eq {v : Raw} {o : Fields} : objectOf v = some o ↔ v = .obj o := by
  cases v with
  | obj o' => simp [objectOf]
  | _ => exact iff_of_false (fun h => by cases h) (fun h => by cases h)

/-- Choices are told by their names. -/
theorem choiceOf_eq {α : Type} {list : List α} {name : α → String}
    (hfind : ∀ a, (list.find? fun b => text (name b) = text (name a)) = some a) {v : Raw} {a : α} :
    choiceOf list name v = some a ↔ v = .str (text (name a)) := by
  cases v with
  | str s =>
    rw [Json.Tree.str.injEq]
    change list.find? (fun b => text (name b) = s) = some a ↔ _
    constructor
    · intro h
      have hs := List.find?_some h
      exact (of_decide_eq_true hs).symm
    · rintro rfl
      exact hfind a
  | _ => exact iff_of_false (fun h => by cases h) (fun h => by cases h)

/-! What the readers of an object read. -/

section
variable {raw : Fields} {path : JsString} {key : String}

theorem pct_reads {q : ℚ} : (Reader.pct ⟨path, some raw⟩ key).Reads q ↔ HasPct IsPct raw key q := by
  unfold Reader.pct HasPct
  rw [need_reads]
  constructor
  · rintro ⟨raw', v, hraw, hv, hq⟩
    cases hraw
    obtain ⟨rfl, hpct⟩ := pctOf_eq.mp hq
    exact ⟨hv, hpct⟩
  · rintro ⟨hv, hpct⟩
    exact ⟨raw, _, rfl, hv, pctOf_eq.mpr ⟨rfl, hpct⟩⟩

theorem minor_reads {n : Int} :
    (Reader.minor ⟨path, some raw⟩ key).Reads n ↔ HasMinor raw key n := by
  unfold Reader.minor HasMinor
  rw [need_reads]
  constructor
  · rintro ⟨raw', v, hraw, hv, hn⟩
    cases hraw
    obtain ⟨rfl, hrange⟩ := minorOf_eq.mp hn
    exact ⟨hv, hrange⟩
  · rintro ⟨hv, hrange⟩
    exact ⟨raw, _, rfl, hv, minorOf_eq.mpr ⟨rfl, hrange⟩⟩

variable (path) in
theorem bool_reads {b : Bool} :
    (Reader.bool ⟨path, some raw⟩ key).Reads b ↔ get raw key = some (.bool b) := by
  unfold Reader.bool
  rw [need_reads]
  constructor
  · rintro ⟨raw', v, hraw, hv, hb⟩
    cases hraw
    rw [hv, boolOf_eq.mp hb]
  · intro h
    exact ⟨raw, _, rfl, h, rfl⟩

theorem object_reads {o : Fields} :
    (Reader.object ⟨path, some raw⟩ key).Reads o ↔ get raw key = some (.obj o) := by
  unfold Reader.object
  rw [need_reads]
  constructor
  · rintro ⟨raw', v, hraw, hv, ho⟩
    cases hraw
    rw [hv, objectOf_eq.mp ho]
  · intro h
    exact ⟨raw, _, rfl, h, rfl⟩

variable (path) in
theorem choice_reads {α : Type} {list : List α} {name : α → String}
    (hfind : ∀ a, (list.find? fun b => text (name b) = text (name a)) = some a) {a : α} :
    (Reader.choice ⟨path, some raw⟩ key list name).Reads a ↔ HasText raw key (name a) := by
  unfold Reader.choice HasText
  rw [need_reads]
  constructor
  · rintro ⟨raw', v, hraw, hv, ha⟩
    cases hraw
    rw [hv, (choiceOf_eq hfind).mp ha]
  · intro h
    exact ⟨raw, _, rfl, h, (choiceOf_eq hfind).mpr rfl⟩

end

theorem businessPhases_find (a : BusinessPhase) :
    (businessPhases.find? fun b => text b.text = text a.text) = some a := by
  cases a <;> decide

theorem recoveryModes_find (a : RecoveryMode) :
    (recoveryModes.find? fun b => text b.text = text a.text) = some a := by
  cases a <;> decide

theorem recoveryTimings_find (a : RecoveryTiming) :
    (recoveryTimings.find? fun b => text b.text = text a.text) = some a := by
  cases a <;> decide

theorem workOrders_find (a : WorkOrder) :
    (workOrders.find? fun b => text b.text = text a.text) = some a := by
  cases a <;> decide

theorem partnerExpenseModes_find (a : PartnerExpenseMode) :
    (partnerExpenseModes.find? fun b => text b.text = text a.text) = some a := by
  cases a <;> decide

/-! The sections. -/

section
variable {raw : Fields} {path : JsString}

/-- An object is read, or there is a complaint. -/
theorem object_cases (path : JsString) (raw : Fields) (key : String) :
    (∃ o, get raw key = some (.obj o) ∧ Reader.object ⟨path, some raw⟩ key = ⟨some o, []⟩) ∨
      (∀ P, ¬HasObject raw key P) ∧ (Reader.object ⟨path, some raw⟩ key).errors ≠ [] := by
  by_cases h : ∃ o, (Reader.object ⟨path, some raw⟩ key).Reads o
  · obtain ⟨o, ho⟩ := h
    refine Or.inl ⟨o, object_reads.mp ho, ?_⟩
    rw [← ho.1, ← ho.2]
  · refine Or.inr ⟨?_, ?_⟩
    · rintro P ⟨o, ho, -⟩
      exact h ⟨o, object_reads.mpr ho⟩
    · intro herrors
      obtain ⟨o, ho⟩ := object_sound herrors
      exact h ⟨o, herrors, ho⟩

theorem hasObject_of {key : String} {o : Fields} (h : get raw key = some (.obj o))
    {P : Fields → Prop} : HasObject raw key P ↔ P o := by
  constructor
  · rintro ⟨o', ho', hP⟩
    cases h.symm.trans ho'
    exact hP
  · intro hP
    exact ⟨o, h, hP⟩

theorem totalErrors_eq_nil {a b c : ℚ} :
    totalErrors (some a) (some b) (some c) = [] ↔ roundsTo100 a b c := by
  unfold totalErrors roundsTo100
  dsimp only
  split
  · rename_i h
    exact iff_of_false (List.cons_ne_nil _ _) h
  · rename_i h
    exact iff_of_true rfl (not_not.mp h)

variable (path) in
theorem profitBase_reads {b : ProfitBase} : (profitBaseOf ⟨path, some raw⟩).Reads b ↔
    HasObject raw "profitBase" fun o => b.Says IsPct roundsTo100 o := by
  unfold Read.Reads profitBaseOf
  dsimp only
  simp only [List.append_eq_nil_iff, Option.bind_eq_bind, Option.bind_eq_some_iff, Option.pure_def,
    Option.some.injEq]
  obtain ⟨o, ho, hread⟩ | ⟨hno, herrors⟩ := object_cases path raw "profitBase"
  · rw [hasObject_of ho, hread]
    constructor
    · rintro ⟨⟨⟨⟨⟨⟨-, hkeys⟩, hp⟩, hc⟩, hw⟩, htotal⟩, p, hpv, c, hcv, w, hwv, rfl⟩
      rw [hpv, hcv, hwv, totalErrors_eq_nil] at htotal
      exact ⟨(unknown_eq_nil rfl).mp hkeys, pct_reads.mp ⟨hp, hpv⟩, pct_reads.mp ⟨hc, hcv⟩,
        pct_reads.mp ⟨hw, hwv⟩, htotal⟩
    · intro h
      obtain ⟨hp, hpv⟩ := pct_reads.mpr h.partnerPct
      obtain ⟨hc, hcv⟩ := pct_reads.mpr h.capitalPct
      obtain ⟨hw, hwv⟩ := pct_reads.mpr h.workPct
      refine ⟨⟨⟨⟨⟨⟨rfl, (unknown_eq_nil rfl).mpr h.keys⟩, hp⟩, hc⟩, hw⟩, ?_⟩,
        _, hpv, _, hcv, _, hwv, rfl⟩
      rw [hpv, hcv, hwv, totalErrors_eq_nil]
      exact h.total
  · exact iff_of_false (fun h => herrors h.1.1.1.1.1.1) (hno _)

theorem profitBase_sound : (profitBaseOf ⟨path, some raw⟩).Sound := by
  unfold Read.Sound profitBaseOf
  dsimp only
  simp only [List.append_eq_nil_iff]
  rintro ⟨⟨⟨⟨⟨-, -⟩, hp⟩, hc⟩, hw⟩, -⟩
  obtain ⟨p, hpv⟩ := pct_sound hp
  obtain ⟨c, hcv⟩ := pct_sound hc
  obtain ⟨w, hwv⟩ := pct_sound hw
  exact ⟨⟨p, c, w⟩, by rw [hpv, hcv, hwv]; rfl⟩

theorem until_reads {o : Fields} {u : Option Int} : (untilOf ⟨path, some o⟩).Reads u ↔
    match u with
    | none => get o "untilAmountMinor" = some .null
    | some amount => HasMinor o "untilAmountMinor" amount := by
  unfold untilOf
  dsimp only
  split
  · rename_i hnull
    cases u with
    | none => exact iff_of_true ⟨rfl, rfl⟩ hnull
    | some amount =>
      refine iff_of_false (fun h => by cases h.2) ?_
      rintro ⟨hamount, -⟩
      cases hnull.symm.trans hamount
  · rename_i hnotnull
    change (Read.map some (Reader.minor ⟨path, some o⟩ "untilAmountMinor")).Reads u ↔ _
    rw [Read.map_reads]
    cases u with
    | none =>
      refine iff_of_false ?_ (fun h => hnotnull h)
      rintro ⟨a, -, ha⟩
      cases ha
    | some amount => simp only [minor_reads, Option.some.injEq, exists_eq_right]

theorem until_sound {r : Reader} : (untilOf r).Sound := by
  unfold untilOf
  split
  · exact fun _ => ⟨_, rfl⟩
  · split
    · exact fun _ => ⟨_, rfl⟩
    · exact Read.map_sound minor_sound

variable (path) in
theorem reinvestment_reads {b : Reinvestment} : (reinvestmentOf ⟨path, some raw⟩).Reads b ↔
    HasObject raw "reinvestment" fun o => b.Says IsPct o := by
  unfold Read.Reads reinvestmentOf
  dsimp only
  simp only [List.append_eq_nil_iff, Option.bind_eq_bind, Option.bind_eq_some_iff, Option.pure_def,
    Option.some.injEq]
  obtain ⟨o, ho, hread⟩ | ⟨hno, herrors⟩ := object_cases path raw "reinvestment"
  · rw [hasObject_of ho, hread]
    constructor
    · rintro ⟨⟨⟨⟨⟨⟨⟨-, hkeys⟩, hphase⟩, ha⟩, hop⟩, hc⟩, hu⟩,
        phase, hphasev, a, hav, op, hopv, c, hcv, u, huv, rfl⟩
      exact ⟨(unknown_eq_nil rfl).mp hkeys, (choice_reads _ businessPhases_find).mp ⟨hphase, hphasev⟩,
        pct_reads.mp ⟨ha, hav⟩, pct_reads.mp ⟨hop, hopv⟩, pct_reads.mp ⟨hc, hcv⟩,
        until_reads.mp ⟨hu, huv⟩⟩
    · intro h
      obtain ⟨hphase, hphasev⟩ := (choice_reads (text "reinvestment")
        businessPhases_find).mpr h.currentPhase
      obtain ⟨ha, hav⟩ := pct_reads.mpr h.arranquePct
      obtain ⟨hop, hopv⟩ := pct_reads.mpr h.operacionPct
      obtain ⟨hc, hcv⟩ := pct_reads.mpr h.cierrePct
      obtain ⟨hu, huv⟩ := until_reads.mpr h.untilAmountMinor
      exact ⟨⟨⟨⟨⟨⟨⟨rfl, (unknown_eq_nil rfl).mpr h.keys⟩, hphase⟩, ha⟩, hop⟩, hc⟩, hu⟩,
        _, hphasev, _, hav, _, hopv, _, hcv, _, huv, rfl⟩
  · exact iff_of_false (fun h => herrors h.1.1.1.1.1.1.1) (hno _)

theorem reinvestment_sound : (reinvestmentOf ⟨path, some raw⟩).Sound := by
  unfold Read.Sound reinvestmentOf
  dsimp only
  simp only [List.append_eq_nil_iff]
  rintro ⟨⟨⟨⟨⟨⟨-, -⟩, hphase⟩, ha⟩, hop⟩, hc⟩, hu⟩
  obtain ⟨phase, hphasev⟩ := choice_sound hphase
  obtain ⟨a, hav⟩ := pct_sound ha
  obtain ⟨op, hopv⟩ := pct_sound hop
  obtain ⟨c, hcv⟩ := pct_sound hc
  obtain ⟨u, huv⟩ := until_sound hu
  exact ⟨⟨phase, a, op, c, u⟩, by rw [hphasev, hav, hopv, hcv, huv]; rfl⟩

variable (path) in
theorem capitalRecovery_reads {b : CapitalRecovery} :
    (capitalRecoveryOf ⟨path, some raw⟩).Reads b ↔
    HasObject raw "capitalRecovery" fun o => b.Says o := by
  unfold Read.Reads capitalRecoveryOf
  dsimp only
  simp only [List.append_eq_nil_iff, Option.bind_eq_bind, Option.bind_eq_some_iff, Option.pure_def,
    Option.some.injEq]
  obtain ⟨o, ho, hread⟩ | ⟨hno, herrors⟩ := object_cases path raw "capitalRecovery"
  · rw [hasObject_of ho, hread]
    constructor
    · rintro ⟨⟨⟨⟨-, hkeys⟩, hm⟩, ht⟩, m, hmv, t, htv, rfl⟩
      exact ⟨(unknown_eq_nil rfl).mp hkeys, (choice_reads _ recoveryModes_find).mp ⟨hm, hmv⟩,
        (choice_reads _ recoveryTimings_find).mp ⟨ht, htv⟩⟩
    · intro h
      obtain ⟨hm, hmv⟩ := (choice_reads (text "capitalRecovery")
        recoveryModes_find).mpr h.mode
      obtain ⟨ht, htv⟩ := (choice_reads (text "capitalRecovery")
        recoveryTimings_find).mpr h.timing
      exact ⟨⟨⟨⟨rfl, (unknown_eq_nil rfl).mpr h.keys⟩, hm⟩, ht⟩, _, hmv, _, htv, rfl⟩
  · exact iff_of_false (fun h => herrors h.1.1.1.1) (hno _)

theorem capitalRecovery_sound : (capitalRecoveryOf ⟨path, some raw⟩).Sound := by
  unfold Read.Sound capitalRecoveryOf
  dsimp only
  simp only [List.append_eq_nil_iff]
  rintro ⟨⟨⟨-, -⟩, hm⟩, ht⟩
  obtain ⟨m, hmv⟩ := choice_sound hm
  obtain ⟨t, htv⟩ := choice_sound ht
  exact ⟨⟨m, t⟩, by rw [hmv, htv]; rfl⟩

theorem kindIs_iff {name : String} : kindIs raw name ↔ HasText raw "kind" name := by
  unfold kindIs HasText
  split
  · rename_i v hv
    rw [hv]
    simp
  · rename_i hno
    exact iff_of_false Bool.false_ne_true (fun h => hno _ h)

theorem HasText.unique {key first second : String} (hfirst : HasText raw key first)
    (hsecond : HasText raw key second) : text first = text second := by
  have h := hfirst.symm.trans hsecond
  rw [Option.some.injEq, Json.Tree.str.injEq] at h
  exact h

section
variable {α : Type} {place first second firstKey secondKey : String}
  {readFirst readSecond : Reader → Read α}

/-- An object is read as one of its two variants, by its kind. -/
theorem variantOf_reads (hne : text first ≠ text second) {a : α} :
    (variantOf place raw first second firstKey secondKey readFirst readSecond).Reads a ↔
      (HasText raw "kind" first ∧ KeysIn raw ["kind", firstKey] ∧
        (readFirst ⟨text place, some raw⟩).Reads a) ∨
      (HasText raw "kind" second ∧ KeysIn raw ["kind", secondKey] ∧
        (readSecond ⟨text place, some raw⟩).Reads a) := by
  unfold variantOf Read.Reads
  dsimp only
  split
  · rename_i hfirst
    have hkind := kindIs_iff.mp hfirst
    simp only [List.append_eq_nil_iff]
    constructor
    · rintro ⟨⟨hkeys, herrors⟩, hvalue⟩
      exact Or.inl ⟨hkind, (unknown_eq_nil rfl).mp hkeys, herrors, hvalue⟩
    · rintro (⟨-, hkeys, herrors, hvalue⟩ | ⟨hother, -⟩)
      · exact ⟨⟨(unknown_eq_nil rfl).mpr hkeys, herrors⟩, hvalue⟩
      · exact absurd (hkind.unique hother) hne
  · rename_i hfirst
    rw [kindIs_iff] at hfirst
    split
    · rename_i hsecond
      have hkind := kindIs_iff.mp hsecond
      simp only [List.append_eq_nil_iff]
      constructor
      · rintro ⟨⟨hkeys, herrors⟩, hvalue⟩
        exact Or.inr ⟨hkind, (unknown_eq_nil rfl).mp hkeys, herrors, hvalue⟩
      · rintro (⟨hother, -⟩ | ⟨-, hkeys, herrors, hvalue⟩)
        · exact absurd hother hfirst
        · exact ⟨⟨(unknown_eq_nil rfl).mpr hkeys, herrors⟩, hvalue⟩
    · rename_i hsecond
      rw [kindIs_iff] at hsecond
      refine iff_of_false (fun h => by cases h.2) ?_
      rintro (⟨hkind, -⟩ | ⟨hkind, -⟩)
      · exact hfirst hkind
      · exact hsecond hkind

theorem variantOf_sound (hfirst : ∀ r, (readFirst r).Sound) (hsecond : ∀ r, (readSecond r).Sound) :
    (variantOf place raw first second firstKey secondKey readFirst readSecond).Sound := by
  unfold variantOf Read.Sound
  dsimp only
  split
  · intro h
    exact hfirst _ (List.append_eq_nil_iff.mp h).2
  · split
    · intro h
      exact hsecond _ (List.append_eq_nil_iff.mp h).2
    · intro h
      cases (List.append_eq_nil_iff.mp h).2

end

theorem pay_reads {p : Pay} : (payOf raw).Reads p ↔ p.Says IsPct raw := by
  unfold payOf
  rw [variantOf_reads (by decide)]
  simp only [Read.map_reads, minor_reads, pct_reads]
  cases p with
  | porHora rate => simp [Pay.Says]
  | porcentaje pct => simp [Pay.Says]

theorem pay_sound : (payOf raw).Sound :=
  variantOf_sound (fun _ => Read.map_sound minor_sound) (fun _ => Read.map_sound pct_sound)

variable (path) in
theorem work_reads {b : Work} : (workOf ⟨path, some raw⟩).Reads b ↔
    HasObject raw "work" fun o => b.Says IsPct o := by
  unfold Read.Reads workOf
  dsimp only
  simp only [List.append_eq_nil_iff, Option.bind_eq_bind, Option.bind_eq_some_iff, Option.pure_def,
    Option.some.injEq]
  obtain ⟨o, ho, hread⟩ | ⟨hno, herrors⟩ := object_cases path raw "work"
  · rw [hasObject_of ho, hread]
    dsimp only
    obtain ⟨p, hp, hpread⟩ | ⟨hnopay, hpay⟩ := object_cases (text "work") o "pay"
    · rw [hpread]
      constructor
      · rintro ⟨⟨⟨⟨⟨⟨-, hkeys⟩, hhours⟩, horder⟩, -⟩, hpay⟩, h, hv, od, hodv, pv, hpv, rfl⟩
        exact ⟨(unknown_eq_nil rfl).mp hkeys, (bool_reads _).mp ⟨hhours, hv⟩,
          (choice_reads _ workOrders_find).mp ⟨horder, hodv⟩, p, hp, pay_reads.mp ⟨hpay, hpv⟩⟩
      · intro h
        obtain ⟨hhours, hv⟩ := (bool_reads (text "work")).mpr h.payHours
        obtain ⟨horder, hodv⟩ := (choice_reads (text "work") workOrders_find).mpr h.order
        obtain ⟨hpay, hpv⟩ := pay_reads.mpr ((hasObject_of hp).mp h.pay)
        exact ⟨⟨⟨⟨⟨⟨rfl, (unknown_eq_nil rfl).mpr h.keys⟩, hhours⟩, horder⟩, rfl⟩, hpay⟩,
          _, hv, _, hodv, _, hpv, rfl⟩
    · exact iff_of_false (fun h => hpay h.1.1.2) (fun h => hnopay _ h.pay)
  · exact iff_of_false (fun h => herrors h.1.1.1.1.1.1) (hno _)

theorem work_sound : (workOf ⟨path, some raw⟩).Sound := by
  unfold Read.Sound workOf
  dsimp only
  simp only [List.append_eq_nil_iff]
  rintro ⟨⟨⟨⟨⟨-, -⟩, hhours⟩, horder⟩, hobject⟩, hpay⟩
  obtain ⟨h, hv⟩ := bool_sound hhours
  obtain ⟨od, hodv⟩ := choice_sound horder
  obtain ⟨p, hp⟩ := object_sound hobject
  rw [hp] at hpay ⊢
  obtain ⟨pv, hpv⟩ := pay_sound hpay
  exact ⟨⟨h, od, pv⟩, by rw [hv, hodv, hpv]; rfl⟩

variable (path) in
theorem reserves_reads {b : Reserves} : (reservesOf ⟨path, some raw⟩).Reads b ↔
    HasObject raw "reserves" fun o => b.Says IsPct o := by
  unfold Read.Reads reservesOf
  dsimp only
  rw [List.append_eq_nil_iff]
  obtain ⟨o, ho, hread⟩ | ⟨hno, herrors⟩ := object_cases path raw "reserves"
  · rw [hasObject_of ho, hread]
    simp only [true_and]
    change (Read.Reads _ b) ↔ _
    rw [variantOf_reads (by decide)]
    simp only [Read.map_reads, minor_reads, pct_reads]
    cases b with
    | porcentaje pct => simp [Reserves.Says]
    | monto amount => simp [Reserves.Says]
  · exact iff_of_false (fun h => herrors h.1.1) (hno _)

theorem reserves_sound : (reservesOf ⟨path, some raw⟩).Sound := by
  unfold Read.Sound reservesOf
  dsimp only
  rw [List.append_eq_nil_iff]
  rintro ⟨hobject, hreserves⟩
  obtain ⟨o, ho⟩ := object_sound hobject
  rw [ho] at hreserves ⊢
  exact variantOf_sound (fun _ => Read.map_sound pct_sound) (fun _ => Read.map_sound minor_sound)
    hreserves

variable (path) in
theorem partnerLoans_reads {b : PartnerLoans} : (partnerLoansOf ⟨path, some raw⟩).Reads b ↔
    HasObject raw "partnerLoans" fun o => b.Says o := by
  unfold Read.Reads partnerLoansOf
  dsimp only
  simp only [List.append_eq_nil_iff, Option.map_eq_some_iff]
  obtain ⟨o, ho, hread⟩ | ⟨hno, herrors⟩ := object_cases path raw "partnerLoans"
  · rw [hasObject_of ho, hread]
    constructor
    · rintro ⟨⟨⟨-, hkeys⟩, hrepay⟩, repay, hv, rfl⟩
      exact ⟨(unknown_eq_nil rfl).mp hkeys, (bool_reads _).mp ⟨hrepay, hv⟩⟩
    · intro h
      obtain ⟨hrepay, hv⟩ := (bool_reads (text "partnerLoans")).mpr h.repayBeforeCapital
      exact ⟨⟨⟨rfl, (unknown_eq_nil rfl).mpr h.keys⟩, hrepay⟩, _, hv, rfl⟩
  · exact iff_of_false (fun h => herrors h.1.1.1) (hno _)

theorem partnerLoans_sound : (partnerLoansOf ⟨path, some raw⟩).Sound := by
  unfold Read.Sound partnerLoansOf
  dsimp only
  simp only [List.append_eq_nil_iff]
  rintro ⟨-, hrepay⟩
  obtain ⟨repay, hv⟩ := bool_sound hrepay
  exact ⟨⟨repay⟩, by rw [hv]; rfl⟩

theorem versionErrors_eq_nil {root : Reader} :
    versionErrors root raw = [] ↔ get raw "schemaVersion" = some (.num 1) := by
  unfold versionErrors
  split
  · rename_i version hversion
    rw [hversion, Option.some.injEq, Json.Tree.num.injEq, ite_eq_left_iff]
    simp
  · rename_i hno
    exact iff_of_false (List.cons_ne_nil _ _) (fun h => hno _ h)

end

/-! The parser. -/

/-- The parser answers a configuration exactly when the input says it, percentages being what
    `isPct` takes and the total being of rounded hundredths. -/
theorem parseRulesConfig_ok {input : Raw} {c : FinanceRulesConfig} :
    parseRulesConfig input = .ok c ↔ c.Says IsPct roundsTo100 input := by
  cases input with
  | obj fields =>
    have hfields : c.Says IsPct roundsTo100 (.obj fields) ↔
        c.SaysFields IsPct roundsTo100 fields := by
      constructor
      · rintro ⟨raw, hraw, h⟩
        cases hraw
        exact h
      · intro h
        exact ⟨fields, rfl, h⟩
    rw [hfields]
    unfold parseRulesConfig
    dsimp only
    constructor
    · intro h
      split at h
      · rename_i herrors
        split at h
        · rename_i config hconfig
          cases h
          simp only [List.append_eq_nil_iff] at herrors
          obtain ⟨⟨⟨⟨⟨⟨⟨⟨hkeys, hversion⟩, hb⟩, hr⟩, hcr⟩, hw⟩, he⟩, hre⟩, hl⟩ := herrors
          simp only [Option.bind_eq_bind, Option.bind_eq_some_iff, Option.pure_def,
            Option.some.injEq] at hconfig
          obtain ⟨b, hbv, r, hrv, cr, hcrv, w, hwv, e, hev, re, hrev, l, hlv, rfl⟩ := hconfig
          exact {
            keys := (unknown_eq_nil rfl).mp hkeys
            schemaVersion := versionErrors_eq_nil.mp hversion
            profitBase := (profitBase_reads _).mp ⟨hb, hbv⟩
            reinvestment := (reinvestment_reads _).mp ⟨hr, hrv⟩
            capitalRecovery := (capitalRecovery_reads _).mp ⟨hcr, hcrv⟩
            work := (work_reads _).mp ⟨hw, hwv⟩
            partnerExpenses := (choice_reads _ partnerExpenseModes_find).mp ⟨he, hev⟩
            reserves := (reserves_reads _).mp ⟨hre, hrev⟩
            partnerLoans := (partnerLoans_reads _).mp ⟨hl, hlv⟩ }
        · cases h
      · cases h
    · intro h
      obtain ⟨hb, hbv⟩ := (profitBase_reads []).mpr h.profitBase
      obtain ⟨hr, hrv⟩ := (reinvestment_reads []).mpr h.reinvestment
      obtain ⟨hcr, hcrv⟩ := (capitalRecovery_reads []).mpr h.capitalRecovery
      obtain ⟨hw, hwv⟩ := (work_reads []).mpr h.work
      obtain ⟨he, hev⟩ := (choice_reads [] partnerExpenseModes_find).mpr h.partnerExpenses
      obtain ⟨hre, hrev⟩ := (reserves_reads []).mpr h.reserves
      obtain ⟨hl, hlv⟩ := (partnerLoans_reads []).mpr h.partnerLoans
      rw [hb, hr, hcr, hw, he, hre, hl, (unknown_eq_nil rfl).mpr h.keys,
        versionErrors_eq_nil.mpr h.schemaVersion, hbv, hrv, hcrv, hwv, hev, hrev, hlv]
      rfl
  | _ =>
    refine iff_of_false (fun h => by cases h) ?_
    rintro ⟨raw, hraw, -⟩
    cases hraw

/-- A refusal has a reason. -/
theorem parseRulesConfig_error {input : Raw} {errors : List JsString}
    (h : parseRulesConfig input = .error errors) : errors ≠ [] := by
  cases input with
  | obj fields =>
    unfold parseRulesConfig at h
    dsimp only at h
    split at h
    · rename_i herrors
      split at h
      · cases h
      · rename_i hnone
        simp only [List.append_eq_nil_iff] at herrors
        obtain ⟨⟨⟨⟨⟨⟨⟨⟨-, -⟩, hb⟩, hr⟩, hcr⟩, hw⟩, he⟩, hre⟩, hl⟩ := herrors
        obtain ⟨b, hbv⟩ := profitBase_sound hb
        obtain ⟨r, hrv⟩ := reinvestment_sound hr
        obtain ⟨cr, hcrv⟩ := capitalRecovery_sound hcr
        obtain ⟨w, hwv⟩ := work_sound hw
        obtain ⟨e, hev⟩ := choice_sound he
        obtain ⟨re, hrev⟩ := reserves_sound hre
        obtain ⟨l, hlv⟩ := partnerLoans_sound hl
        rw [hbv, hrv, hcrv, hwv, hev, hrev, hlv] at hnone
        cases hnone
    · rename_i herrors
      cases h
      exact herrors
  | _ =>
    cases h
    exact List.cons_ne_nil _ _

end Bazar.Finance.Rules
