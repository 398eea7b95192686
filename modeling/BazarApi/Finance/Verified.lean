import BazarApi.Js.Groups
import BazarApi.Finance.Documents

/- The document of record verifies wherever it is shown. It is hashed over the properties that
   never change (`documented_build`); a JSONB column may reorder keys at any depth and the live
   properties are written over it, and neither touches what was hashed
   (`documented_live`). -/
open Json

namespace Bazar.Finance

/-! Values with distinct keys. -/

theorem plain_object {fields : List (String × Value)}
    (hk : (fields.map fun f => utf16 f.1).Nodup) (h : ∀ f ∈ fields, f.2.Plain) :
    (Value.object fields).Plain := by
  refine .obj ?_ ?_
  · rw [List.map_map]
    exact hk
  · intro f hf
    obtain ⟨g, hg, rfl⟩ := List.mem_map.mp hf
    exact h g hg

theorem object_keys (fields : List (String × Value)) :
    (Value.object fields).fields.map Prod.fst = (fields.map Prod.fst).map utf16 := by
  unfold Value.object Json.Tree.fields
  dsimp only
  rw [List.map_map, List.map_map]
  rfl

@[simp] theorem plain_text (s : String) : (Value.text s).Plain := .str _
@[simp] theorem plain_iso (t : Instant) : (Value.iso t).Plain := .str _
@[simp] theorem plain_num (n : Int) : (Tree.num n : Value).Plain := .num n
@[simp] theorem plain_bool (b : Bool) : (Tree.bool b : Value).Plain := .bool b
@[simp] theorem plain_null : (Tree.null : Value).Plain := .null

theorem plain_opt {α : Type} {f : α → Value} (h : ∀ a, (f a).Plain) (o : Option α) :
    (Value.opt f o).Plain := by
  cases o with
  | none => exact .null
  | some a => exact h a

theorem plain_arr {α : Type} {f : α → Value} (h : ∀ a, (f a).Plain) (l : List α) :
    (Tree.arr (l.map f) : Value).Plain := by
  refine .arr ?_
  intro v hv
  obtain ⟨a, -, rfl⟩ := List.mem_map.mp hv
  exact h a

theorem plain_period (p : Period) : (periodValue p).Plain :=
  plain_object (by simp only [List.map_cons, List.map_nil]; decide) (by simp)

theorem plain_financialBase (b : FinancialBase) : b.value.Plain :=
  plain_object (by simp only [List.map_cons, List.map_nil]; decide) (by simp)

theorem plain_rule (r : Rule) : r.value.Plain :=
  plain_object (by simp only [List.map_cons, List.map_nil]; decide) (by simp)

theorem plain_pools (p : Pools) : p.value.Plain :=
  plain_object (by simp only [List.map_cons, List.map_nil]; decide) (by simp)

theorem plain_member (m : SimulatedMember) : m.value.Plain :=
  plain_object (by simp only [List.map_cons, List.map_nil]; decide) (by simp)

theorem plain_totals (t : Totals) : t.value.Plain :=
  plain_object (by simp only [List.map_cons, List.map_nil]; decide) (by simp)

theorem plain_warning (w : Warning) : w.value.Plain :=
  plain_object (by simp only [List.map_cons, List.map_nil]; decide) (by simp)

theorem plain_ref (r : AgreementRef) : r.value.Plain :=
  plain_object (by simp only [List.map_cons, List.map_nil]; decide) (by simp)

theorem plain_origin (o : Origin) : o.value.Plain :=
  plain_object (by simp only [List.map_cons, List.map_nil]; decide) (by simp)

theorem documentContent_plain (x : AgreementDocumentInput) :
    ∀ f ∈ documentContent x, f.2.Plain := by
  simp only [documentContent, List.forall_mem_cons, plain_text, plain_num,
    plain_iso, plain_period, plain_financialBase, plain_rule, plain_pools, plain_totals,
    plain_origin, plain_opt plain_text, plain_opt plain_ref, plain_arr plain_member,
    plain_arr plain_warning, plain_opt fun r : AgreementRef => plain_text r.id.text, true_and]
  nofun

/-- The keys of a document, those that are hashed first. -/
def documentKeys : List String :=
  ["id", "contextId", "folio", "title", "note", "replacesAgreementId", "replacesAgreement",
    "generatedFrom", "algorithmVersion", "notice", "period", "currency", "financialBase", "rule",
    "pools", "participants", "totals", "warnings", "simulationFingerprint", "occurredAt",
    "receivedAt", "createdBy"]

theorem documentContent_keys (x : AgreementDocumentInput) :
    (documentContent x).map Prod.fst = documentKeys := rfl

theorem documentKeys_nodup : ((documentKeys ++ unhashed).map utf16).Nodup := by decide

theorem documentKeys_hashed : ∀ k ∈ documentKeys, utf16 k ∉ unhashed.map utf16 := by decide

/-! The same up to the order of keys. -/

section
variable {N : Type} {fs gs : List (JsString × Json.Tree N)}

/-- The two lists have the same keys in one order, and the same values. -/
def Paired (fs gs : List (JsString × Json.Tree N)) : Prop :=
  List.Forall₂ (fun f g => f.1 = g.1 ∧ f.2.Same g.2) fs gs

theorem paired_of_zip (hk : fs.map Prod.fst = gs.map Prod.fst)
    (h : ∀ p ∈ fs.zip gs, p.1.2.Same p.2.2) : Paired fs gs := by
  induction fs generalizing gs with
  | nil =>
    obtain rfl := List.map_eq_nil_iff.mp hk.symm
    exact .nil
  | cons f fs ih =>
    cases gs with
    | nil => cases hk
    | cons g gs =>
      rw [List.map_cons, List.map_cons, List.cons.injEq] at hk
      refine .cons ⟨hk.1, h (f, g) List.mem_cons_self⟩ (ih hk.2 ?_)
      intro p hp
      exact h p (List.mem_cons_of_mem _ hp)

theorem Paired.filter (p : JsString → Bool) (h : Paired fs gs) :
    Paired (fs.filter fun f => p f.1) (gs.filter fun g => p g.1) := by
  induction h with
  | nil => exact .nil
  | @cons f g fs gs hfg _ ih =>
    rw [List.filter_cons, List.filter_cons, ← hfg.1]
    split
    · exact .cons hfg ih
    · exact ih

theorem Paired.same (h : Paired fs gs) :
    fs.map Prod.fst = gs.map Prod.fst ∧ ∀ p ∈ fs.zip gs, p.1.2.Same p.2.2 := by
  induction h with
  | nil =>
    refine ⟨rfl, ?_⟩
    intro p hp
    cases hp
  | @cons f g fs gs hfg _ ih =>
    refine ⟨by rw [List.map_cons, List.map_cons, hfg.1, ih.1], ?_⟩
    intro p hp
    rcases List.mem_cons.mp hp with rfl | hp
    · exact hfg.2
    · exact ih.2 p hp

theorem Paired.mem (h : Paired fs gs) {f : JsString × Json.Tree N} (hf : f ∈ fs) :
    ∃ v, (f.1, v) ∈ gs ∧ f.2.Same v := by
  induction h with
  | nil => cases hf
  | @cons f' g fs gs hfg _ ih =>
    rcases List.mem_cons.mp hf with rfl | hf
    · refine ⟨g.2, ?_, hfg.2⟩
      rw [hfg.1]
      exact List.mem_cons_self
    · obtain ⟨v, hv, hs⟩ := ih hf
      exact ⟨v, List.mem_cons_of_mem _ hv, hs⟩

end

/-! Documents. -/

section
variable {host : Host} {x : AgreementDocumentInput} {v : Value}

/-- It shows what was hashed for a document, and its fingerprint. -/
structure Documented (host : Host) (x : AgreementDocumentInput) (v : Value) : Prop where
  keys : v.fields.keys.Nodup
  hashed : digest host (.obj (hashedFields v)) = snapshotFingerprint host x
  fingerprint : v.fields.get (utf16 "snapshotFingerprint") =
    some (.str (utf16 (snapshotFingerprint host x)))

theorem Documented.verifies (hd : Documented host x v) :
    verifyAgreementDocument host v = true := by
  unfold verifyAgreementDocument verifyDocument
  rw [hd.fingerprint]
  exact decide_eq_true (congrArg utf16 hd.hashed)

/-- A key the fingerprint leaves out. -/
def Unhashed (key : String) : Prop := key ∈ ["status", "reversal", "replacedBy"]

theorem hashedFields_set {m : Js.Map JsString Value} {key : JsString} {w : Value}
    (hk : key ∈ unhashed.map utf16) :
    (m.set key w).filter (fun f => f.1 ∉ unhashed.map utf16) =
      m.filter fun f => f.1 ∉ unhashed.map utf16 := by
  unfold Js.Map.set
  split
  · induction m with
    | nil => rfl
    | cons f m ih =>
      rw [List.map_cons, List.filter_cons, List.filter_cons]
      have ih' : (List.map (fun e => if e.1 = key then (key, w) else e) m).filter
          (fun f => f.1 ∉ unhashed.map utf16) = m.filter fun f => f.1 ∉ unhashed.map utf16 := by
        by_cases hm : Js.Map.has m key = true
        · exact ih hm
        · refine congrArg _ ?_
          conv => rhs; rw [← List.map_id m]
          refine List.map_congr_left fun e he => if_neg fun hke => hm ?_
          exact List.any_eq_true.mpr ⟨e, he, decide_eq_true hke⟩
      rw [ih']
      by_cases hf : f.1 = key
      · rw [if_pos hf, hf]
        simp only [hk, not_true_eq_false, decide_false, Bool.false_eq_true, if_false]
      · rw [if_neg hf]
  · rw [List.filter_append]
    have hnone : [(key, w)].filter (fun f => f.1 ∉ unhashed.map utf16) = [] := by
      refine List.filter_eq_nil_iff.mpr ?_
      intro f hf
      obtain rfl := List.mem_singleton.mp hf
      simpa using hk
    rw [hnone, List.append_nil]

/-- A live property may be written over. -/
theorem Documented.set {key : String} {w : Value} (hd : Documented host x v)
    (hk : Unhashed key) : Documented host x (.obj (v.fields.set (utf16 key) w)) := by
  have hmem : utf16 key ∈ unhashed.map utf16 ∧ utf16 key ≠ utf16 "snapshotFingerprint" := by
    unfold Unhashed at hk
    simp only [List.mem_cons, List.not_mem_nil, or_false] at hk
    rcases hk with rfl | rfl | rfl <;> decide
  refine ⟨Js.Map.nodup_set hd.keys, ?_, ?_⟩
  · rw [← hd.hashed]
    exact congrArg (fun fs => digest host (.obj fs)) (hashedFields_set hmem.1)
  · show Js.Map.get (Js.Map.set v.fields (utf16 key) w) _ = _
    rw [Js.Map.get_set hd.keys, if_neg hmem.2]
    exact hd.fingerprint

theorem Documented.with {fields : List (String × Value)} (hd : Documented host x v)
    (hk : ∀ f ∈ fields, Unhashed f.1) : Documented host x (v.with fields) := by
  unfold Value.with
  induction fields generalizing v with
  | nil => exact ⟨hd.keys, hd.hashed, hd.fingerprint⟩
  | cons f fields ih =>
    exact ih (hd.set (hk f List.mem_cons_self)) fun g hg => hk g (List.mem_cons_of_mem _ hg)

/-- Any order of keys will do. -/
theorem Documented.same {v' : Value} (hd : Documented host x v) (hp : v.Plain) (hs : v.Same v')
    (hobj : v = .obj v.fields) : Documented host x v' := by
  obtain ⟨hkeys, hhashed, hfingerprint⟩ := hd
  rw [hobj] at hp hs
  generalize hfs : v.fields = fs at hp hs hkeys hfingerprint
  have hhash : hashedFields v = fs.filter fun f => f.1 ∉ unhashed.map utf16 := by
    unfold hashedFields
    rw [hfs]
  cases hs with
  | @obj _ fs' gs gs' hf hg hk h =>
    have hpaired := paired_of_zip hk h
    have hgkeys : (gs.map Prod.fst).Nodup := by
      rw [(hg.map _).nodup_iff, ← hk, ← (hf.map _).nodup_iff]
      exact hkeys
    refine ⟨hgkeys, ?_, ?_⟩
    · have hfilter := (hpaired.filter fun k => k ∉ unhashed.map utf16).same
      have hsame : (Tree.obj (fs.filter fun f => f.1 ∉ unhashed.map utf16)).Same
          (.obj (gs.filter fun f => f.1 ∉ unhashed.map utf16)) :=
        .obj (hf.filter _) (hg.filter _) hfilter.1 hfilter.2
      have hplain : (Tree.obj (fs.filter fun f => f.1 ∉ unhashed.map utf16)).Plain := by
        cases hp with
        | obj hk h =>
          exact .obj (hk.sublist (List.filter_sublist.map _))
            fun f hf => h f (List.mem_filter.mp hf).1
      rw [← hhashed, hhash]
      exact congrArg host.sha256Hex (serialize_same hsame hplain).symm
    · have hmem := hf.subset (Js.Map.mem_of_get hfingerprint)
      obtain ⟨w, hw, hsame⟩ := hpaired.mem hmem
      cases hsame
      exact Js.Map.get_of_mem hgkeys (hg.symm.subset hw)

/-- What the fingerprint leaves out of a new document. -/
def liveContent (host : Host) (x : AgreementDocumentInput) : List (String × Value) :=
  [("snapshotFingerprint", .text (snapshotFingerprint host x)), ("status", .text "active"),
    ("reversal", .null), ("replacedBy", .null)]

theorem build_eq : buildAgreementDocument host x =
    .object (documentContent x ++ liveContent host x) := rfl

theorem hashed_build : hashedFields (buildAgreementDocument host x) =
    (documentContent x).map fun f => (utf16 f.1, f.2) := by
  rw [build_eq]
  unfold hashedFields Value.object Json.Tree.fields
  dsimp only
  rw [List.map_append, List.filter_append]
  have hkept : ((documentContent x).map fun f => (utf16 f.1, f.2)).filter
      (fun f => f.1 ∉ unhashed.map utf16) = (documentContent x).map fun f => (utf16 f.1, f.2) := by
    refine List.filter_eq_self.mpr ?_
    intro f hf
    obtain ⟨g, hg, rfl⟩ := List.mem_map.mp hf
    refine decide_eq_true (documentKeys_hashed g.1 ?_)
    rw [← documentContent_keys x]
    exact List.mem_map_of_mem hg
  have hdropped : ((liveContent host x).map fun f => (utf16 f.1, f.2)).filter
      (fun f => f.1 ∉ unhashed.map utf16) = [] := by
    refine List.filter_eq_nil_iff.mpr ?_
    intro f hf
    obtain ⟨g, hg, rfl⟩ := List.mem_map.mp hf
    have hkey : g.1 ∈ unhashed := List.mem_map_of_mem (f := Prod.fst) hg
    simpa using List.mem_map_of_mem (f := utf16) hkey
  rw [hkept, hdropped, List.append_nil]

theorem build_nodup : (buildAgreementDocument host x).fields.keys.Nodup := by
  unfold Js.Map.keys
  rw [build_eq, object_keys, List.map_append, documentContent_keys]
  exact documentKeys_nodup

theorem build_plain : (buildAgreementDocument host x).Plain := by
  rw [build_eq]
  refine plain_object ?_ ?_
  · have hkeys := @build_nodup host x
    unfold Js.Map.keys at hkeys
    rw [build_eq, object_keys, List.map_map] at hkeys
    exact hkeys
  · intro f hf
    rcases List.mem_append.mp hf with hf | hf
    · exact documentContent_plain x f hf
    · unfold liveContent at hf
      simp only [List.mem_cons, List.not_mem_nil, or_false] at hf
      rcases hf with rfl | rfl | rfl | rfl
      · exact plain_text _
      · exact plain_text _
      · exact .null
      · exact .null

theorem documented_build : Documented host x (buildAgreementDocument host x) where
  keys := build_nodup
  hashed := congrArg (fun fs => digest host (.obj fs)) hashed_build
  fingerprint := by
    refine Js.Map.get_of_mem build_nodup ?_
    exact List.mem_map.mpr ⟨("snapshotFingerprint", .text (snapshotFingerprint host x)),
      List.mem_append_right _ List.mem_cons_self, rfl⟩

/-- The live document of an agreement shows what was hashed when it was created. -/
theorem documented_live (row : LiveAgreement)
    (hrow : row.agreement.creationResponse = buildAgreementDocument host x) :
    Documented host x (liveDocument host row) := by
  unfold liveDocument
  rw [hrow]
  refine Documented.with (documented_build.same build_plain (host.jsonb_same _ build_plain) rfl) ?_
  intro f hf
  simp only [List.mem_cons, List.not_mem_nil, or_false] at hf
  rcases hf with rfl | rfl | rfl <;> simp [Unhashed]

end

end Bazar.Finance
