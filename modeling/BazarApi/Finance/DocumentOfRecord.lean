import BazarApi.Finance.Creations

/- The agreement of record. In every run each receipt of a creation, new or sent again, and
   each document read afterwards shows what was hashed when the agreement was created
   (`documents_verify`). With a hash without collisions nothing else does: two documents with
   one fingerprint agree in all that is hashed, up to the order of keys
   (`document_tamper_evident`). The document of `findOne` verifies without its payment summary
   only, which is added to it and is not left out of the hash (`verify_with_summary`). -/
open Json

namespace Bazar.Finance

open Txn

/-- No two texts have one digest. -/
def Host.CollisionFree (host : Host) : Prop :=
  Function.Injective fun text => utf16 (host.sha256Hex text)

section
variable {N : Type} {number : N → JsString} {host : Host} {v v' : Json.Tree N}
  {fs gs : List (JsString × Json.Tree N)}

theorem verify_iff : verifyDocument number host v = true ↔
    v.fields.get (utf16 "snapshotFingerprint") =
      some (.str (utf16 (canonicalDigest number host.sha256Hex (.obj (hashedFields v))))) := by
  unfold verifyDocument
  split
  · rename_i fingerprint hf
    rw [hf, decide_eq_true_iff]
    constructor
    · rintro rfl
      rfl
    · intro h
      exact (Tree.str.inj (Option.some.inj h)).symm
  · rename_i hnone
    exact ⟨fun h => absurd h Bool.false_ne_true, fun h => absurd h (hnone _)⟩

theorem digest_eq_iff (hn : NumberLiterals number) (hc : host.CollisionFree) {a b : Json.Tree N}
    (ha : a.Plain) :
    utf16 (canonicalDigest number host.sha256Hex a) =
      utf16 (canonicalDigest number host.sha256Hex b) ↔ a.Same b := by
  refine hc.eq_iff.trans ⟨fun h => ?_, fun hs => serialize_same hs ha⟩
  refine (serialize_unique hn a b [] [] .nil .nil ?_).1
  rw [List.append_nil, List.append_nil]
  exact h

/-- Of two documents with one fingerprint, the second verifies when it shows the same. -/
theorem verify_same_iff (hn : NumberLiterals number) (hc : host.CollisionFree)
    (hp : (Tree.obj (hashedFields v)).Plain) (hv : verifyDocument number host v = true)
    (hf : v'.fields.get (utf16 "snapshotFingerprint") =
      v.fields.get (utf16 "snapshotFingerprint")) :
    verifyDocument number host v' = true ↔
      (Tree.obj (hashedFields v)).Same (.obj (hashedFields v')) := by
  rw [verify_iff, hf, verify_iff.mp hv, ← digest_eq_iff hn hc hp]
  exact ⟨fun h => Tree.str.inj (Option.some.inj h), fun h => congrArg (some ∘ Tree.str) h⟩

/-! The same fields. -/

theorem same_keys (hs : (Tree.obj fs).Same (.obj gs)) :
    (fs.map Prod.fst).Perm (gs.map Prod.fst) := by
  cases hs with
  | obj hf hg hk h => exact (hf.map _).trans (hk ▸ (hg.map _).symm)

theorem same_get {k : JsString} {a : Json.Tree N} (hs : (Tree.obj fs).Same (.obj gs))
    (hn : (fs.map Prod.fst).Nodup) (ha : Js.Map.get fs k = some a) :
    ∃ b, Js.Map.get gs k = some b ∧ a.Same b := by
  have hgs : (gs.map Prod.fst).Nodup := (same_keys hs).nodup_iff.mp hn
  cases hs with
  | obj hf hg hk h =>
    obtain ⟨b, hb, hsame⟩ := (paired_of_zip hk h).mem (hf.subset (Js.Map.mem_of_get ha))
    exact ⟨b, Js.Map.get_of_mem hgs (hg.symm.subset hb), hsame⟩

/-- A field that is there takes another value. -/
theorem paired_set {k : JsString} {a w : Json.Tree N} (hn : (fs.map Prod.fst).Nodup)
    (ha : Js.Map.get fs k = some a) (hw : a.Same w) : Paired fs (Js.Map.set fs k w) := by
  have hhas : Js.Map.has fs k = true :=
    List.any_eq_true.mpr ⟨(k, a), Js.Map.mem_of_get ha, decide_eq_true rfl⟩
  unfold Js.Map.set
  rw [if_pos hhas]
  refine List.forall₂_map_right_iff.mpr (List.forall₂_same.mpr ?_)
  intro f hf
  split
  · rename_i hk
    refine ⟨hk, ?_⟩
    have hmine := Js.Map.get_of_mem hn hf
    rw [hk, ha] at hmine
    cases hmine
    exact hw
  · exact ⟨rfl, .refl _⟩

theorem plain_hashed (hp : v.Plain) : (Tree.obj (hashedFields v)).Plain := by
  cases hp with
  | obj hk h =>
    exact .obj (hk.sublist (List.filter_sublist.map _)) fun f hf => h f (List.mem_filter.mp hf).1
  | _ => exact .obj List.nodup_nil fun f hf => absurd hf List.not_mem_nil

theorem plain_keys (hp : v.Plain) : v.fields.keys.Nodup := by
  cases hp with
  | obj hk h => exact hk
  | _ => exact List.nodup_nil

/-- A field that is hashed. -/
theorem get_hashed {k : JsString} {a : Json.Tree N} (hn : v.fields.keys.Nodup)
    (hk : k ∉ unhashed.map utf16) (ha : v.fields.get k = some a) :
    Js.Map.get (hashedFields v) k = some a := by
  refine Js.Map.get_of_mem (hn.sublist (List.filter_sublist.map _)) ?_
  exact List.mem_filter.mpr ⟨Js.Map.mem_of_get ha, decide_eq_true hk⟩

/-- A document in which the value of one hashed field was changed. -/
theorem verify_set_iff {k : JsString} {a w : Json.Tree N} (hn : NumberLiterals number)
    (hc : host.CollisionFree) (hp : v.Plain) (hv : verifyDocument number host v = true)
    (hk : k ∉ unhashed.map utf16) (ha : v.fields.get k = some a) :
    verifyDocument number host (.obj (v.fields.set k w)) = true ↔ a.Same w := by
  have hkeys := plain_keys hp
  have hne : k ≠ utf16 "snapshotFingerprint" := by
    rintro rfl
    exact hk List.mem_cons_self
  have hset : (v.fields.set k w).keys.Nodup := Js.Map.nodup_set hkeys
  have hplain := plain_hashed hp
  refine (verify_same_iff hn hc hplain hv ?_).trans ?_
  · show Js.Map.get (Js.Map.set v.fields k w) _ = _
    rw [Js.Map.get_set hkeys, if_neg hne]
  constructor
  · intro hs
    have hw : Js.Map.get (hashedFields (.obj (v.fields.set k w))) k = some w := by
      refine get_hashed hset hk ?_
      show Js.Map.get (Js.Map.set v.fields k w) k = _
      rw [Js.Map.get_set hkeys, if_pos rfl]
    obtain ⟨b, hb, hsame⟩ := same_get hs (hkeys.sublist (List.filter_sublist.map _))
      (get_hashed hkeys hk ha)
    cases hw.symm.trans hb
    exact hsame
  · intro hw
    have hpaired := ((paired_set hkeys ha hw).filter fun k => k ∉ unhashed.map utf16).same
    exact .obj (.refl _) (.refl _) hpaired.1 hpaired.2

end

/-- The document of `findOne`, as it is answered. -/
theorem verify_with_summary {host : Host} {x : AgreementDocumentInput} {v summary : Value}
    (hc : host.CollisionFree) (hd : Documented host x v) :
    verifyAgreementDocument host (v.with [("paymentSummary", summary)]) = false := by
  rw [Bool.eq_false_iff]
  intro hverified
  have hfields : (v.with [("paymentSummary", summary)]).fields =
    Js.Map.set v.fields (utf16 "paymentSummary") summary := rfl
  have hnew : (v.with [("paymentSummary", summary)]).fields.get (utf16 "paymentSummary") =
      some summary := by
    rw [hfields, Js.Map.get_set hd.keys, if_pos rfl]
  have hsame : (Value.object (documentContent x)).Same
      (.obj (hashedFields (v.with [("paymentSummary", summary)]))) := by
    refine (digest_eq_iff intLiteral_literals hc (plain_object ?_ (documentContent_plain x))).mp ?_
    · have hkeys : ((documentContent x).map Prod.fst).map utf16 = documentKeys.map utf16 := rfl
      rw [List.map_map] at hkeys
      show ((documentContent x).map (utf16 ∘ Prod.fst)).Nodup
      rw [hkeys]
      exact documentKeys_nodup.sublist ((List.sublist_append_left _ _).map _)
    · have hf := verify_iff.mp hverified
      rw [hfields, Js.Map.get_set hd.keys, if_neg (by decide), hd.fingerprint] at hf
      exact Tree.str.inj (Option.some.inj hf)
  -- the summary would be one of the fields of the document
  have hmem : utf16 "paymentSummary" ∈ documentKeys.map utf16 := by
    rw [← documentContent_keys x, ← object_keys]
    refine (same_keys hsame).symm.subset ?_
    have hkept : utf16 "paymentSummary" ∉ unhashed.map utf16 := by decide
    exact List.mem_map_of_mem (f := Prod.fst)
      (List.mem_filter.mpr ⟨Js.Map.mem_of_get hnew, decide_eq_true hkept⟩)
  exact absurd hmem (by decide)

/-- In every state of every run: a receipt of a creation, new or sent again, verifies; what
`findOne` answers is a document that verifies with the payment summary added, and as answered
does not verify, unless two texts have one digest; and every agreement's live document
verifies, whatever was voided, replaced, paid or reversed since. -/
theorem documents_verify (host : Host) (d₀ : Db) (reqs : List Request) (s : Sys finance Answer)
    (h0 : Consistent host d₀) (hr : Reachable host d₀ reqs s) :
    (∀ i r created receipt, reqs[i]? = some r → s.Answered i (.ok (.agreement created receipt)) →
      verifyAgreementDocument host receipt = true) ∧
    (∀ i r v, reqs[i]? = some r → s.Answered i (.ok (.document v)) →
      (∃ document summary, v = Value.with document [("paymentSummary", summary)] ∧
        verifyAgreementDocument host document = true) ∧
      (host.CollisionFree → verifyAgreementDocument host v = false)) ∧
    ∀ a ∈ (replay (S := finance) d₀ s.hist).agreements.rows,
      verifyAgreementDocument host
        (liveDocument host ((replay (S := finance) d₀ s.hist).live a)) = true := by
  have hok := hr.ok h0
  refine ⟨?_, ?_, ?_⟩
  · intro i r created receipt hreq ha
    obtain ⟨x, hd⟩ := hok.answered ha r hreq
    exact hd.verifies
  · intro i r v hreq ha
    obtain ⟨document, summary, rfl, x, hd⟩ := hok.answered ha r hreq
    exact ⟨⟨document, summary, rfl, hd.verifies⟩, fun hc => verify_with_summary hc hd⟩
  · intro a ha
    obtain ⟨x, hx⟩ := (Lawful.consistent hok.lawful h0).recorded a ha
    exact (documented_live (Db.live _ a) hx).verifies

/-- With a hash without collisions, and numbers printed as `JSON.stringify` prints them: of two
documents with one fingerprint, of which one verifies, the other does exactly when all that is
hashed is the same up to the order of keys; and changing the value of one field that is hashed
makes verification fail, whatever the field and the value. -/
theorem document_tamper_evident {N : Type} {number : N → JsString} (hn : NumberLiterals number)
    (host : Host) (v : Json.Tree N) (hc : host.CollisionFree) (hp : v.Plain)
    (hv : verifyDocument number host v = true) :
    (∀ v' : Json.Tree N, v'.fields.get (utf16 "snapshotFingerprint") =
        v.fields.get (utf16 "snapshotFingerprint") →
      (verifyDocument number host v' = true ↔
        (Tree.obj (hashedFields v)).Same (.obj (hashedFields v')))) ∧
    ∀ k a w, k ∉ unhashed.map utf16 → v.fields.get k = some a →
      (verifyDocument number host (.obj (v.fields.set k w)) = true ↔ a.Same w) :=
  ⟨fun _ hf => verify_same_iff hn hc (plain_hashed hp) hv hf,
    fun _ _ _ hk ha => verify_set_iff hn hc hp hv hk ha⟩

/-! A document that is read and asked for again, and one whose title was changed. -/

namespace Demo

def readingSteps : List Nat := List.replicate 19 0 ++ List.replicate 4 1 ++ List.replicate 7 2

/-- A text for a list of code units, in place of its digest: two characters for each. -/
def bytes (s : JsString) : String :=
  String.ofList (s.flatMap fun c => [Char.ofNat (c.val / 256), Char.ofNat (c.val % 256)])

theorem utf16_bytes (s : JsString) : utf16 (bytes s) =
    s.flatMap fun c => [Fin.ofNat 65536 (c.val / 256), Fin.ofNat 65536 (c.val % 256)] := by
  unfold utf16 bytes
  rw [String.toList_ofList, List.flatMap_assoc]
  refine List.flatMap_congr fun c _ => ?_
  have hlow : ∀ n, n < 256 → (Char.ofNat n).toNat = n := by
    intro n hn
    have hvalid : n.isValidChar := .inl (by omega)
    rw [Char.ofNat, dif_pos hvalid]
    rfl
  have hhigh := hlow (c.val / 256) (by omega)
  have hrest := hlow (c.val % 256) (Nat.mod_lt _ (by decide))
  rw [List.flatMap_cons, List.flatMap_cons, List.flatMap_nil, hhigh, hrest, if_pos (by omega),
    if_pos (by omega)]
  unfold unit
  rw [hhigh, hrest]
  rfl

theorem bytes_injective : Function.Injective fun s => utf16 (bytes s) := by
  intro s t h
  dsimp only at h
  rw [utf16_bytes, utf16_bytes] at h
  induction s generalizing t with
  | nil =>
    cases t with
    | nil => rfl
    | cons d t => cases h
  | cons c s ih =>
    cases t with
    | nil => cases h
    | cons d t =>
      rw [List.flatMap_cons, List.flatMap_cons] at h
      obtain ⟨hpair, hrest⟩ := List.append_inj h rfl
      obtain ⟨hhigh, hlow⟩ := List.cons.inj hpair
      have hhigh := congrArg Fin.val hhigh
      have hlow := congrArg Fin.val (List.cons.inj hlow).1
      simp only [Fin.ofNat] at hhigh hlow
      rw [ih hrest, Fin.ext (show c.val = d.val by omega)]

def hashing : Host := { host with sha256Hex := bytes }

/-- Another order of the keys. -/
def reordered : Value → Value
  | .obj fields => .obj fields.reverse
  | v => v

theorem reordered_same (v : Value) (_ : v.Plain) : v.Same (reordered v) := by
  cases v with
  | obj fields =>
    refine .obj (.refl _) (List.reverse_perm _) rfl fun p hp => ?_
    rw [List.zip_eq_zipWith, List.zipWith_self] at hp
    obtain ⟨f, -, rfl⟩ := List.mem_map.mp hp
    exact .refl _
  | _ => exact .refl _

/-- A digest of the first code units, and a column that turns the keys around. -/
def archive : Host :=
  { host with
    sha256Hex := fun s => bytes (s.take 32), jsonb := reordered, jsonb_same := reordered_same }

def simulated : String :=
  match simulationAt archive office "c" dto with
  | .ok s => s.simulationFingerprint
  | .error _ => ""

def confirmed : CreateDistributionAgreementDto :=
  { creation "n" none with simulationFingerprint := simulated }

def reading : List Request :=
  [.createAgreement today actor confirmed, .findAgreement "c" "n",
    .createAgreement today actor confirmed]

/-- The state after the requests were served. -/
def read : Sys finance Answer :=
  (Sys.initial (reading.map (Request.call archive))).scheduled office readingSteps

theorem read_reachable : Reachable archive office reading read :=
  Sys.scheduled_reach (by decide +kernel)

/-- The kind of an answer, and whether it created something. -/
def kind : Except Err Answer → String × Bool
  | .ok (.agreement created _) => ("agreement", created)
  | .ok (.reversal created _) => ("reversal", created)
  | .ok (.document _) => ("document", false)
  | .ok (.payment created _) => ("payment", created)
  | .ok (.paymentView _) => ("paymentView", false)
  | .ok (.payments _ _) => ("payments", false)
  | .ok .recorded => ("recorded", true)
  | .error _ => ("error", false)

theorem read_document : ∃ v, read.answer? 1 = some (.ok (.document v)) := by
  have hkind : (read.answer? 1).map kind = some ("document", false) := by decide +kernel
  obtain ⟨a, ha, hdocument⟩ := Option.map_eq_some_iff.mp hkind
  rcases a with _ | (_ | _ | v | _ | _ | _ | _)
  case ok.document => exact ⟨v, ha⟩
  all_goals simp [kind] at hdocument

theorem read_receipt : ∃ receipt, read.answer? 2 = some (.ok (.agreement false receipt)) := by
  have hkind : (read.answer? 2).map kind = some ("agreement", false) := by decide +kernel
  obtain ⟨a, ha, hreceipt⟩ := Option.map_eq_some_iff.mp hkind
  rcases a with _ | (⟨created, receipt⟩ | _ | _ | _ | _ | _ | _)
  case ok.agreement =>
    obtain rfl : created = false := congrArg Prod.snd hreceipt
    exact ⟨receipt, ha⟩
  all_goals simp [kind] at hreceipt

end Demo

/-- Created, read, and sent again. -/
theorem documents_verify_reading :
    ∃ v receipt, Demo.read.answer? 1 = some (.ok (.document v)) ∧
      Demo.read.answer? 2 = some (.ok (.agreement false receipt)) ∧
      verifyAgreementDocument Demo.archive receipt = true ∧
      ∃ document summary, v = Value.with document [("paymentSummary", summary)] ∧
        verifyAgreementDocument Demo.archive document = true := by
  obtain ⟨hreceipts, hreadings, -⟩ := documents_verify Demo.archive Demo.office Demo.reading
    Demo.read Demo.consistent Demo.read_reachable
  obtain ⟨v, hv⟩ := Demo.read_document
  obtain ⟨receipt, hreceipt⟩ := Demo.read_receipt
  refine ⟨v, receipt, hv, hreceipt, ?_, ?_⟩
  · exact hreceipts 2 _ _ _ rfl (Sys.answered_of_answer? hreceipt)
  · exact (hreadings 1 _ _ rfl (Sys.answered_of_answer? hv)).1

/-- A title is hashed. -/
theorem document_tamper_evident_title : ∃ x : AgreementDocumentInput,
    verifyAgreementDocument Demo.hashing (buildAgreementDocument Demo.hashing x) = true ∧
    verifyAgreementDocument Demo.hashing (.obj ((buildAgreementDocument Demo.hashing x).fields.set
      (utf16 "title") (Value.text "u"))) = false := by
  obtain ⟨s, -, -⟩ := Demo.of_handedOut Demo.handedOut_db
  have hx := @documented_build Demo.hashing (documentInput Demo.hashing Demo.actor
    (Demo.creation "n" none) "a" none s 0 "AC-2026-00001")
  refine ⟨_, hx.verifies, Bool.eq_false_iff.mpr fun h => ?_⟩
  have hsame := ((document_tamper_evident intLiteral_literals Demo.hashing _ Demo.bytes_injective
    build_plain hx.verifies).2 (utf16 "title") (Value.text "t") (Value.text "u") (by decide)
    (Js.Map.get_of_mem build_nodup (List.mem_map.mpr ⟨("title", .text "t"), by
      simp [documentContent, documentInput, Demo.creation, Demo.hashing, Demo.host], rfl⟩))).mp h
  cases hsame

end Bazar.Finance
