import BazarApi.Finance.Lists

/- Following the cursors of a list reads the matching rows, each once, newest first. -/
open Json

namespace Bazar.Finance.Lists

open Txn Bazar.Js Pages

variable {host : Host}

/-! Texts that a literal shows as they are. -/

def Shown (c : Char) : Prop := 0x20 ≤ c.toNat ∧ c.toNat < 0x80 ∧ c ≠ '"' ∧ c ≠ '\\'

instance (c : Char) : Decidable (Shown c) := inferInstanceAs (Decidable (_ ∧ _))

theorem unit_val {c : Char} (h : c.toNat < 0x80) : (unit c).val = c.toNat := by
  unfold unit
  simp only [Fin.val_ofNat]
  omega

theorem clear_text {s : String} (h : ∀ c ∈ s.toList, Shown c) : Clear (text s) := by
  intro u hu
  obtain ⟨c, hc, rfl⟩ := List.mem_map.mp hu
  obtain ⟨h1, h2, h3, h4⟩ := h c hc
  have hv := unit_val h2
  have hne : ∀ d : Char, d.toNat < 0x80 → c ≠ d → unit c ≠ unit d := by
    intro d hd hcd he
    refine hcd (Char.toNat_inj.mp ?_)
    rw [← unit_val h2, ← unit_val hd, he]
  exact ⟨hv ▸ h1, hv ▸ h2, hne '"' (by decide) h3, hne '\\' (by decide) h4⟩

theorem clear_literal {s : String} (h : (s.toList.all fun c => decide (Shown c)) = true) :
    Clear (text s) :=
  clear_text fun c hc => of_decide_eq_true (List.all_eq_true.mp h c hc)

theorem ascii_text {s : String} (h : ∀ c ∈ s.toList, Shown c) : ascii (text s) = some s := by
  have hm : ∀ cs : List Char, (∀ c ∈ cs, Shown c) →
      (cs.map unit).mapM (fun c => if c.val < 0x80 then some (Char.ofNat c.val) else none) = some cs := by
    intro cs hcs
    induction cs with
    | nil => rfl
    | cons c cs ih =>
      have hc := (hcs c List.mem_cons_self).2.1
      rw [List.map_cons, List.mapM_cons, ih fun d hd => hcs d (List.mem_cons_of_mem _ hd), unit_val hc,
        if_pos hc, Char.ofNat_toNat]
      rfl
  unfold ascii text
  rw [hm _ h, Option.map_some, String.ofList_toList]

theorem shown_digit {c : Char} (h : c.isDigit = true) : Shown c := by
  have hrange : 48 ≤ c.toNat ∧ c.toNat ≤ 57 := by
    simp only [Char.isDigit, Bool.and_eq_true, decide_eq_true_eq] at h
    exact ⟨UInt32.le_iff_toNat_le.mp h.1, UInt32.le_iff_toNat_le.mp h.2⟩
  refine ⟨by omega, by omega, ?_, ?_⟩
  · rintro rfl
    revert hrange
    decide
  · rintro rfl
    revert hrange
    decide

theorem shown_isHexChar {c : Char} (h : isHexChar c = true) : Shown c := by
  unfold isHexChar at h
  simp only [Bool.or_eq_true, Bool.and_eq_true, decide_eq_true_eq] at h
  refine ⟨by omega, by omega, ?_, ?_⟩
  · rintro rfl
    revert h
    decide
  · rintro rfl
    revert h
    decide

theorem shown_v7 {s : String} (h : isV7 s = true) : ∀ c ∈ s.toList, Shown c := by
  intro c hc
  unfold isV7 at h
  rw [Bool.and_eq_true, List.all_eq_true] at h
  obtain ⟨i, hi, rfl⟩ := List.mem_iff_getElem.mp hc
  have hp := h.2 (s.toList[i], i) (List.mem_zipIdx_iff_getElem?.mpr (List.getElem?_eq_getElem hi))
  dsimp only at hp
  split at hp
  · rw [of_decide_eq_true hp]
    decide
  · split at hp
    · rw [of_decide_eq_true hp]
      decide
    · split at hp
      · have := of_decide_eq_true hp
        revert this
        generalize s.toList[i] = d
        simp only [List.mem_cons, List.not_mem_nil, or_false]
        rintro (rfl | rfl | rfl | rfl | rfl | rfl) <;> decide
      · exact shown_isHexChar hp

theorem shown_padStart (width n : Nat) : ∀ c ∈ (padStart width n).toList, Shown c :=
  fun c hc => shown_digit (padStart_isDigit width n c hc)

theorem shown_isoText (t : Instant) : ∀ c ∈ (isoText t).toList, Shown c := by
  have hyear : ∀ c ∈ (isoYear (yearOf t)).toList, Shown c := by
    unfold isoYear
    split
    · exact shown_padStart 4 _
    · intro c hc
      rw [String.toList_append] at hc
      rcases List.mem_append.mp hc with hc | hc
      · split at hc
        · rw [List.mem_singleton.mp hc]
          decide
        · rw [List.mem_singleton.mp hc]
          decide
      · exact shown_padStart 6 _ c hc
  rw [isoText_toList]
  simp only [List.forall_mem_append, List.forall_mem_cons]
  exact ⟨hyear, by decide, shown_padStart _ _, by decide, shown_padStart _ _, by decide,
    shown_padStart _ _, by decide, shown_padStart _ _, by decide, shown_padStart _ _, by decide,
    shown_padStart _ _, by decide, fun _ h => (List.not_mem_nil h).elim⟩

theorem shown_date (d : CalendarDate) : ∀ c ∈ d.text.toList, Shown c := by
  have hdash : "-".toList = ['-'] := rfl
  unfold CalendarDate.text
  simp only [String.toList_append, List.forall_mem_append, hdash, List.forall_mem_singleton]
  exact ⟨⟨⟨⟨shown_padStart _ _, by decide⟩, shown_padStart _ _⟩, by decide⟩, shown_padStart _ _⟩

/-! Cursors. -/

theorem ascii_clear {s : JsString} (h : Clear s) : Ascii s := fun c hc => (h c hc).2.1

theorem ascii_quote {s : JsString} (h : Clear s) : Ascii (quote s) := by
  rw [quote_clear h]
  intro c hc
  rcases List.mem_cons.mp hc with rfl | hc
  · decide
  · rcases List.mem_append.mp hc with hc | hc
    · exact ascii_clear h c hc
    · rw [List.mem_singleton.mp hc]
      decide

theorem ascii_stringify {fields : List (JsString × JsString)}
    (h : ∀ f ∈ fields, Clear f.1 ∧ Ascii f.2) : Ascii (stringify fields) := by
  have hmember : ∀ f ∈ fields, Ascii (member f) := by
    intro f hf c hc
    rcases List.mem_append.mp hc with hc | hc
    · exact ascii_quote (h f hf).1 c hc
    · rcases List.mem_cons.mp hc with rfl | hc
      · decide
      · exact (h f hf).2 c hc
  have hcomma : ∀ ts : List JsString, (∀ t ∈ ts, Ascii t) → Ascii (comma ts) := by
    intro ts hts c hc
    cases ts with
    | nil => cases hc
    | cons t ts =>
      rw [comma_cons] at hc
      rcases List.mem_append.mp hc with hc | hc
      · exact hts t List.mem_cons_self c hc
      · obtain ⟨u, hu, hc⟩ := List.mem_flatMap.mp hc
        rcases List.mem_cons.mp hc with rfl | hc
        · decide
        · exact hts u (List.mem_cons_of_mem _ hu) c hc
  intro c hc
  rcases List.mem_cons.mp hc with rfl | hc
  · decide
  · rcases List.mem_append.mp hc with hc | hc
    · refine hcomma _ (fun t ht => ?_) c hc
      obtain ⟨f, hf, rfl⟩ := List.mem_map.mp ht
      exact hmember f hf
    · rw [List.mem_singleton.mp hc]
      decide

/-- The object a cursor was made of is read back. -/
theorem parse_cursor (fields : List (JsString × JsString × Json.Tree JsString)) (hne : fields ≠ [])
    (hk : ∀ f ∈ fields, Clear f.1 ∧ Ascii f.2.1 ∧ ReadsAs f.2.1 f.2.2) :
    parse (ofUtf8 (fromBase64url (toCursor (fields.map fun f => (f.1, f.2.1))))) =
      some (.obj (fields.map fun f => (f.1, f.2.2))) := by
  have hascii : Ascii (stringify (fields.map fun f => (f.1, f.2.1))) := by
    refine ascii_stringify fun g hg => ?_
    obtain ⟨f, hf, rfl⟩ := List.mem_map.mp hg
    exact ⟨(hk f hf).1, (hk f hf).2.1⟩
  unfold toCursor
  rw [fromBase64url_toBase64url, ofUtf8_toUtf8 hascii]
  exact parse_stringify hne fun f hf => ⟨(hk f hf).1, (hk f hf).2.2⟩

theorem newDate_isoText (host : Host) {t : Instant} (h : IsTime t) :
    newDate host (text (isoText t)) = some t := by
  unfold newDate
  have hsame : (some t).filter (fun u => decide (isoText u = isoText t)) = some t :=
    Option.filter_eq_some_iff.mpr ⟨rfl, decide_eq_true rfl⟩
  rw [ascii_text (shown_isoText t), Option.bind_some, readIso_isoText h, hsame]

/-! Pages. -/

section
variable {α τ : Type} [LinearOrder τ] {time : α → τ} {id : α → Uuid}

theorem listPage_eq (rows : List α) (limit : Nat) (cursor : Option (τ × Uuid)) (encode : α → JsString) :
    listPage time id rows limit cursor encode =
      let got := answered (key time id) rows limit (cursor.map toLex)
      ⟨got.take limit, if got.length > limit then (got.take limit).getLast?.map encode else none⟩ := by
  have hfilter : rows.filter (behind time id cursor) = after (key time id) rows (cursor.map toLex) := by
    unfold after
    refine List.filter_congr fun r _ => ?_
    cases cursor with
    | none => rfl
    | some c =>
      simp [behind, key, Prod.Lex.toLex_lt_toLex]
  unfold listPage answered
  rw [hfilter]

/-- A list whose cursors its own query reads back serves the pages. -/
theorem pages_of_list {rows : List α} {limit : Nat} (encode : α → JsString)
    {list : Option JsString → Except Err (Page α JsString)} (hl : 1 ≤ limit)
    (hn : (rows.map id).Nodup) (hnone : list none = .ok (listPage time id rows limit none encode))
    (hsome : ∀ r ∈ rows, list (some (encode r)) =
      .ok (listPage time id rows limit (some (time r, id r)) encode)) :
    ∀ fuel, rows.length < fuel → ∃ out, follow (fun c => (list c).toOption) fuel none = some out ∧
      out.Perm rows ∧ out.Pairwise fun a b => key time id b < key time id a := by
  intro fuel hfuel
  have hkeys : (rows.map (key time id)).Nodup := by
    refine List.Nodup.of_map (fun k : τ ×ₗ Uuid => (ofLex k).2) ?_
    rw [List.map_map]
    exact hn
  have hserves : Serves (key time id) rows limit encode (fun c => (list c).toOption) := by
    intro last hlast
    cases last with
    | none =>
      simp only [Option.map_none, hnone, listPage_eq]
      rfl
    | some r =>
      simp only [Option.map_some, hsome r (hlast r rfl), listPage_eq]
      rfl
  have hafter : after (key time id) rows none = rows := List.filter_eq_self.mpr fun _ _ => rfl
  have hfollow := follow_eq hserves hkeys hl fuel none (fun _ h => by cases h) (by
    rw [Option.map_none, hafter]
    exact hfuel)
  rw [Option.map_none, Option.map_none, hafter] at hfollow
  exact ⟨_, hfollow, descending_perm, descending_strict hkeys⟩

end

theorem isBase64url_toCursor (fields : List (JsString × JsString)) :
    isBase64url (toCursor fields) = true :=
  isBase64url_toBase64url (toUtf8_cons _ _)

theorem toCursor_cons (fields : List (JsString × JsString)) : ∃ c s, toCursor fields = c :: s := by
  have h := isBase64url_toCursor fields
  unfold isBase64url at h
  cases hc : toCursor fields with
  | nil =>
    rw [hc] at h
    cases h
  | cons c s => exact ⟨c, s, rfl⟩

theorem readCursor_toCursor {κ : Type} {decode : JsString → Option κ} (message : String) {k : κ}
    {fields : List (JsString × JsString)} (h : decode (toCursor fields) = some k) :
    readCursor decode message (some (toCursor fields)) = .ok (some k) := by
  obtain ⟨c, s, hc⟩ := toCursor_cons fields
  rw [hc] at h ⊢
  simp only [readCursor, h]
  rfl

/-! The four lists. -/

theorem readsAs_text {s : String} (h : ∀ c ∈ s.toList, Shown c) :
    Ascii (quote (text s)) ∧ ReadsAs (quote (text s)) (.str (text s)) :=
  ⟨ascii_quote (clear_text h), readsAs_quote (clear_text h)⟩

theorem Expenses.decode_encode (hd : host.Documented) (r : Expense) :
    Expenses.decode host (Expenses.encode r) = some (r.occurredAt, r.id) := by
  have hid := shown_v7 r.id_stored.v7
  have hparse := parse_cursor ([(text "occurredAt", quote (text (isoText r.occurredAt)),
    .str (text (isoText r.occurredAt))), (text "id", quote (text r.id.text), .str (text r.id.text))])
    (List.cons_ne_nil _ _) (by
      simp only [List.forall_mem_cons, List.not_mem_nil]
      exact ⟨⟨clear_literal rfl, readsAs_text (shown_isoText _)⟩,
        ⟨clear_literal rfl, readsAs_text hid⟩, fun _ h => h.elim⟩)
  have hget : strOf (.obj [(text "occurredAt", .str (text (isoText r.occurredAt))),
      (text "id", .str (text r.id.text))]) "id" = some (text r.id.text) := rfl
  have hget' : (Tree.obj (N := JsString) [(text "occurredAt", .str (text (isoText r.occurredAt))),
      (text "id", .str (text r.id.text))]).get? (text "occurredAt") =
        some (.str (text (isoText r.occurredAt))) := rfl
  unfold Expenses.decode Expenses.encode
  simp only [List.map_cons, List.map_nil] at hparse
  rw [hparse]
  simp only [Option.bind_eq_bind, Option.bind_some, hget, hget', dateValue, ascii_text hid,
    newDate_isoText host r.occurredAt_time, hd.v7 _ r.id_stored.v7, if_true, r.id_stored.lower]

theorem Expenses.pages (hd : host.Documented) (rows : List Expense) (hn : (rows.map Expense.id).Nodup)
    (contextId : String) (query : ExpenseListDto) (hl : 1 ≤ query.limit)
    (hq : query.since.any (fun a => query.before.any (· ≤ a)) = false) :
    ∀ fuel, (rows.filter (Expenses.matching contextId query)).length < fuel → ∃ out,
      follow (fun c => (Expenses.list host rows contextId { query with cursor := c }).toOption) fuel none =
        some out ∧ out.Perm (rows.filter (Expenses.matching contextId query)) ∧
      out.Pairwise fun a b => key Expense.occurredAt Expense.id b < key Expense.occurredAt Expense.id a := by
  refine pages_of_list Expenses.encode hl (hn.sublist (List.filter_sublist.map _)) ?_ ?_
  · unfold Expenses.list
    simp only [hq]
    rfl
  · intro r _
    have hread := readCursor_toCursor "Invalid cursor" (Expenses.decode_encode hd r)
    unfold Expenses.list
    rw [Expenses.encode, hread, hq]
    rfl

theorem clear_digest (hd : host.Documented) (s : JsString) : Clear (host.sha256Hex s) := by
  intro c hc
  have h := hd.hex s c hc
  unfold isHex isDigit at h
  simp only [Bool.or_eq_true, Bool.and_eq_true, decide_eq_true_eq] at h
  refine ⟨by omega, by omega, ?_, ?_⟩
  · rintro rfl
    revert h
    decide
  · rintro rfl
    revert h
    decide

theorem decodeScoped_encodeScoped (hd : host.Documented) {scope : JsString} (hscope : Clear scope)
    {receivedAt : Instant} (ht : IsTime receivedAt) {id : Uuid} (hid : Stored id) :
    decodeScoped host scope (encodeScoped scope receivedAt id) = some (receivedAt, id) := by
  have hshown := shown_v7 hid.v7
  have hparse := parse_cursor ([(text "version", text "1", .num (text "1")),
    (text "scope", quote scope, .str scope), (text "receivedAt", quote (text (isoText receivedAt)),
    .str (text (isoText receivedAt))), (text "id", quote (text id.text), .str (text id.text))])
    (List.cons_ne_nil _ _) (by
      simp only [List.forall_mem_cons, List.not_mem_nil]
      exact ⟨⟨clear_literal rfl, ascii_clear (clear_literal rfl), readsAs_one⟩,
        ⟨clear_literal rfl, ascii_quote hscope, readsAs_quote hscope⟩,
        ⟨clear_literal rfl, readsAs_text (shown_isoText _)⟩,
        ⟨clear_literal rfl, readsAs_text hshown⟩, fun _ h => h.elim⟩)
  simp only [List.map_cons, List.map_nil] at hparse
  generalize hobj : Json.Tree.obj [(text "version", Json.Tree.num (text "1")), (text "scope", .str scope),
    (text "receivedAt", .str (text (isoText receivedAt))), (text "id", .str (text id.text))] = decoded at hparse
  have hversion : decoded.get? (text "version") = some (.num (text "1")) := by
    rw [← hobj]
    rfl
  have hs : strOf decoded "scope" = some scope := by
    rw [← hobj]
    rfl
  have hr : strOf decoded "receivedAt" = some (text (isoText receivedAt)) := by
    rw [← hobj]
    rfl
  have hi : strOf decoded "id" = some (text id.text) := by
    rw [← hobj]
    rfl
  have hsame : (some receivedAt).filter (fun t => decide (text (isoText t) = text (isoText receivedAt))) =
      some receivedAt := Option.filter_eq_some_iff.mpr ⟨rfl, decide_eq_true rfl⟩
  unfold decodeScoped encodeScoped
  have hraw := fromBase64url_toBase64url (toUtf8 (stringify [(text "version", text "1"),
    (text "scope", quote scope), (text "receivedAt", quote (text (isoText receivedAt))),
    (text "id", quote (text id.text))]))
  have halphabet := isBase64url_toCursor [(text "version", text "1"),
    (text "scope", quote scope), (text "receivedAt", quote (text (isoText receivedAt))),
    (text "id", quote (text id.text))]
  have hagain : toBase64url (fromBase64url (toCursor [(text "version", text "1"),
      (text "scope", quote scope), (text "receivedAt", quote (text (isoText receivedAt))),
      (text "id", quote (text id.text))])) = toCursor [(text "version", text "1"),
      (text "scope", quote scope), (text "receivedAt", quote (text (isoText receivedAt))),
      (text "id", quote (text id.text))] := by
    unfold toCursor
    rw [hraw]
  simp only [halphabet, hagain, hparse, hversion, hs, hr, hi, ascii_text hshown, newDate_isoText host ht,
    hsame, hd.one, hd.v7 _ hid.v7, hid.v7, hid.lower, Option.bind_eq_bind, Option.bind_some]
  simp only [Bool.not_true, Bool.false_eq_true, if_false, ne_eq, not_true_eq_false, if_true, and_self]

theorem WorkShifts.decode_encode (hd : host.Documented) (r : WorkShift) :
    WorkShifts.decode host (WorkShifts.encode r) = some (r.workDate.number, r.id) := by
  have hshown := shown_v7 r.id_stored.v7
  have hparse := parse_cursor ([(text "workDate", quote (text r.workDate.text),
    .str (text r.workDate.text)), (text "id", quote (text r.id.text), .str (text r.id.text))])
    (List.cons_ne_nil _ _) (by
      simp only [List.forall_mem_cons, List.not_mem_nil]
      exact ⟨⟨clear_literal rfl, readsAs_text (shown_date _)⟩,
        ⟨clear_literal rfl, readsAs_text hshown⟩, fun _ h => h.elim⟩)
  simp only [List.map_cons, List.map_nil] at hparse
  generalize hobj : Json.Tree.obj [(text "workDate", Json.Tree.str (text r.workDate.text)),
    (text "id", .str (text r.id.text))] = decoded at hparse
  have hkeys : WorkShifts.keys decoded = text "id,workDate" := by
    rw [← hobj]
    show comma (([text "workDate", text "id"]).dedup.insertionSort (· ≤ ·)) = _
    decide
  have hw : strOf decoded "workDate" = some (text r.workDate.text) := by
    rw [← hobj]
    rfl
  have hi : strOf decoded "id" = some (text r.id.text) := by
    rw [← hobj]
    rfl
  have halphabet := isBase64url_toCursor [(text "workDate", quote (text r.workDate.text)),
    (text "id", quote (text r.id.text))]
  unfold WorkShifts.decode WorkShifts.encode
  simp only [halphabet, hparse, hkeys, hw, hi, ascii_text hshown, ascii_text (shown_date r.workDate),
    CalendarDate.read_text, hd.v7 _ r.id_stored.v7, r.id_stored.lower, Option.bind_eq_bind, Option.bind_some]
  rfl

theorem readCursor_scoped (hd : host.Documented) {scope : JsString} (hscope : Clear scope)
    {receivedAt : Instant} (ht : IsTime receivedAt) {id : Uuid} (hid : Stored id) (message : String) :
    readCursor (decodeScoped host scope) message (some (encodeScoped scope receivedAt id)) =
      .ok (some (receivedAt, id)) :=
  readCursor_toCursor message (decodeScoped_encodeScoped hd hscope ht hid)

theorem Reserves.pages (hd : host.Documented) (rows : List FinanceReserve)
    (hn : (rows.map FinanceReserve.id).Nodup) (contextId : String) (query : FinanceReserveListDto)
    (hl : 1 ≤ query.limit) (hq : checkPeriod query.since query.until' = .ok ()) :
    ∀ fuel, (rows.filter (Reserves.matching contextId query)).length < fuel → ∃ out,
      follow (fun c => (Reserves.list host rows contextId { query with cursor := c }).toOption) fuel none =
        some out ∧ out.Perm (rows.filter (Reserves.matching contextId query)) ∧
      out.Pairwise fun a b =>
        key FinanceReserve.receivedAt FinanceReserve.id b < key FinanceReserve.receivedAt FinanceReserve.id a := by
  refine pages_of_list (Reserves.encode (Reserves.scope host contextId query)) hl
    (hn.sublist (List.filter_sublist.map _)) ?_ ?_
  · unfold Reserves.list
    rw [hq]
    rfl
  · intro r _
    have hscope : ∀ c, Reserves.scope host contextId { query with cursor := c } =
        Reserves.scope host contextId query := fun _ => rfl
    have hclear : Clear (Reserves.scope host contextId query) := clear_digest hd _
    unfold Reserves.list
    rw [hq, hscope]
    dsimp only
    rw [Reserves.encode, readCursor_scoped hd hclear r.receivedAt_time r.id_stored]
    rfl

theorem Agreements.pages (hd : host.Documented) (rows : List DistributionAgreement)
    (hn : (rows.map DistributionAgreement.id).Nodup) (contextId : String)
    (query : DistributionAgreementListDto) (hl : 1 ≤ query.limit)
    (hq : checkPeriod query.since query.until' = .ok ()) :
    ∀ fuel, (rows.filter (Agreements.matching contextId query)).length < fuel → ∃ out,
      follow (fun c => (Agreements.list host rows contextId { query with cursor := c }).toOption) fuel none =
        some out ∧ out.Perm (rows.filter (Agreements.matching contextId query)) ∧
      out.Pairwise fun a b => key DistributionAgreement.receivedAt DistributionAgreement.id b <
        key DistributionAgreement.receivedAt DistributionAgreement.id a := by
  refine pages_of_list (Agreements.encode (Agreements.scope host contextId query)) hl
    (hn.sublist (List.filter_sublist.map _)) ?_ ?_
  · unfold Agreements.list
    rw [hq]
    rfl
  · intro r _
    have hscope : ∀ c, Agreements.scope host contextId { query with cursor := c } =
        Agreements.scope host contextId query := fun _ => rfl
    have hclear : Clear (Agreements.scope host contextId query) := clear_digest hd _
    unfold Agreements.list
    rw [hq, hscope]
    dsimp only
    rw [Agreements.encode, readCursor_scoped hd hclear r.receivedAt_time r.id_stored]
    rfl

theorem WorkShifts.pages (hd : host.Documented) (rows : List WorkShift)
    (hn : (rows.map WorkShift.id).Nodup) (contextId : String) (reader : Option Reader)
    (query : WorkShiftListDto) (hl : 1 ≤ query.limit) {memberId : Option Uuid}
    (hq : WorkShifts.scope reader query = .ok memberId) :
    ∀ fuel, (rows.filter (WorkShifts.matching contextId memberId query)).length < fuel → ∃ out,
      follow (fun c => (WorkShifts.list host rows contextId reader { query with cursor := c }).toOption)
        fuel none = some out ∧ out.Perm (rows.filter (WorkShifts.matching contextId memberId query)) ∧
      out.Pairwise fun a b =>
        key (fun r : WorkShift => r.workDate.number) WorkShift.id b < key (fun r => r.workDate.number) WorkShift.id a := by
  refine pages_of_list WorkShifts.encode hl (hn.sublist (List.filter_sublist.map _)) ?_ ?_
  · have hq' : WorkShifts.scope reader { query with cursor := none } = .ok memberId := hq
    unfold WorkShifts.list
    rw [hq']
    rfl
  · intro r _
    have hq' : WorkShifts.scope reader { query with cursor := some (WorkShifts.encode r) } = .ok memberId := hq
    unfold WorkShifts.list
    rw [hq']
    dsimp only
    rw [WorkShifts.decode_encode hd r]
    rfl

/-- What a client reads from a list: the pages end, and together they are the rows that match,
each once, newest first. -/
def ReadsAll {α τ : Type} [LinearOrder τ] (time : α → τ) (id : α → Uuid) (matching : List α)
    (list : Option JsString → Except Err (Page α JsString)) : Prop :=
  ∀ fuel, matching.length < fuel → ∃ out, follow (fun c => (list c).toOption) fuel none = some out ∧
    out.Perm matching ∧ out.Pairwise fun a b => key time id b < key time id a

/-- Pages lose and repeat no row, in each of the four lists. -/
theorem pages_read_all (host : Host) (hd : host.Documented) (contextId : String) :
    (∀ (rows : List Expense) (query : ExpenseListDto), (rows.map Expense.id).Nodup → 1 ≤ query.limit →
      query.since.any (fun a => query.before.any (· ≤ a)) = false →
      ReadsAll Expense.occurredAt Expense.id (rows.filter (Expenses.matching contextId query))
        fun c => Expenses.list host rows contextId { query with cursor := c }) ∧
    (∀ (rows : List FinanceReserve) (query : FinanceReserveListDto),
      (rows.map FinanceReserve.id).Nodup → 1 ≤ query.limit →
      checkPeriod query.since query.until' = .ok () →
      ReadsAll FinanceReserve.receivedAt FinanceReserve.id (rows.filter (Reserves.matching contextId query))
        fun c => Reserves.list host rows contextId { query with cursor := c }) ∧
    (∀ (rows : List DistributionAgreement) (query : DistributionAgreementListDto),
      (rows.map DistributionAgreement.id).Nodup → 1 ≤ query.limit →
      checkPeriod query.since query.until' = .ok () →
      ReadsAll DistributionAgreement.receivedAt DistributionAgreement.id
        (rows.filter (Agreements.matching contextId query))
        fun c => Agreements.list host rows contextId { query with cursor := c }) ∧
    ∀ (rows : List WorkShift) (reader : Option Reader) (query : WorkShiftListDto)
      (memberId : Option Uuid), (rows.map WorkShift.id).Nodup → 1 ≤ query.limit →
      WorkShifts.scope reader query = .ok memberId →
      ReadsAll (fun r : WorkShift => r.workDate.number) WorkShift.id
        (rows.filter (WorkShifts.matching contextId memberId query))
        fun c => WorkShifts.list host rows contextId reader { query with cursor := c } :=
  ⟨fun rows query hn hl hq => Expenses.pages hd rows hn contextId query hl hq,
    fun rows query hn hl hq => Reserves.pages hd rows hn contextId query hl hq,
    fun rows query hn hl hq => Agreements.pages hd rows hn contextId query hl hq,
    fun rows reader query _ hn hl hq => WorkShifts.pages hd rows hn contextId reader query hl hq⟩

/-! Two rows of one instant, or of one day, a page each. -/

namespace Demo

def node : Host where
  sha256Hex _ := text "e3b0c44298fc1c149afbf4c8996fb92427ae41e4649b934ca495991b7852b855"
  isUUID := isV7
  isOne s := decide (s = text "1")
  otherDates _ := none
  dateOf _ := none

theorem documented : node.Documented where
  hex := fun _ => List.all_eq_true.mp rfl
  one := rfl
  v7 := fun _ h => h

def first : Uuid := ⟨"01890000-0000-7000-8000-000000000001"⟩

def second : Uuid := ⟨"01890000-0000-7000-8000-000000000002"⟩

theorem stored_first : Stored first := ⟨by decide, by decide⟩

theorem stored_second : Stored second := ⟨by decide, by decide⟩

def today : CalendarDate := ⟨2023, 11, 14, by decide, by decide, by decide⟩

def tomorrow : CalendarDate := ⟨2023, 11, 15, by decide, by decide, by decide⟩

def rent : Expense where
  id := first
  contextId := "bazar"
  occurredAt := 1700000000000
  nature := "fixed"
  category := "rent"
  paidByMemberId := ⟨"ana"⟩
  id_stored := stored_first
  occurredAt_time := by decide

def power : Expense := { rent with id := second, category := "power", id_stored := stored_second }

def oneByOne : ExpenseListDto := ⟨none, none, none, none, none, none, 1⟩

def reserve : FinanceReserve where
  id := first
  contextId := "bazar"
  periodFrom := today
  periodTo := tomorrow
  receivedAt := 1700000000000
  reversed := false
  id_stored := stored_first
  receivedAt_time := by decide

def reserves : List FinanceReserve :=
  [reserve, { reserve with id := second, id_stored := stored_second }]

def ofToday : FinanceReserveListDto := ⟨some today, some tomorrow, false, none, 1⟩

theorem ofToday_period : checkPeriod ofToday.since ofToday.until' = .ok () := by
  have hlt : today < tomorrow := by decide
  unfold checkPeriod ofToday
  simp only [hlt, if_true]
  rfl

def agreement : DistributionAgreement where
  id := first
  contextId := "bazar"
  folio := "DIST-2023-000001"
  periodFrom := today
  periodTo := tomorrow
  receivedAt := 1700000000000
  reversed := false
  id_stored := stored_first
  receivedAt_time := by decide

def agreements : List DistributionAgreement :=
  [agreement, { agreement with
    id := second, folio := "DIST-2023-000002", id_stored := stored_second }]

def active : DistributionAgreementListDto := ⟨none, none, false, none, none, 1⟩

def shift : WorkShift where
  id := first
  contextId := "bazar"
  memberId := ⟨"luis"⟩
  workDate := today
  minutes := some 60
  reversed := false
  id_stored := stored_first

def shifts : List WorkShift := [shift, { shift with
  id := second, minutes := none, id_stored := stored_second }]

def own : WorkShiftListDto := ⟨none, none, none, none, none, none, 1⟩

/-- Luis reads his own shifts only. -/
def luis : Option Reader := some ⟨⟨"luis"⟩, true⟩

end Demo

theorem pages_read_all_tied :
    ReadsAll Expense.occurredAt Expense.id
      ([Demo.rent, Demo.power].filter (Expenses.matching "bazar" Demo.oneByOne))
      (fun c => Expenses.list Demo.node [Demo.rent, Demo.power] "bazar"
        { Demo.oneByOne with cursor := c }) ∧
    ReadsAll FinanceReserve.receivedAt FinanceReserve.id
      (Demo.reserves.filter (Reserves.matching "bazar" Demo.ofToday))
      (fun c => Reserves.list Demo.node Demo.reserves "bazar" { Demo.ofToday with cursor := c }) ∧
    ReadsAll DistributionAgreement.receivedAt DistributionAgreement.id
      (Demo.agreements.filter (Agreements.matching "bazar" Demo.active))
      (fun c => Agreements.list Demo.node Demo.agreements "bazar"
        { Demo.active with cursor := c }) ∧
    ReadsAll (fun r : WorkShift => r.workDate.number) WorkShift.id
      (Demo.shifts.filter (WorkShifts.matching "bazar" (some ⟨"luis"⟩) Demo.own))
      fun c => WorkShifts.list Demo.node Demo.shifts "bazar" Demo.luis
        { Demo.own with cursor := c } := by
  have hall := pages_read_all Demo.node Demo.documented "bazar"
  obtain ⟨hexpenses, hreserves, hagreements, hshifts⟩ := hall
  refine ⟨?_, ?_, ?_, ?_⟩
  · exact hexpenses [Demo.rent, Demo.power] Demo.oneByOne (by decide) (by decide) rfl
  · exact hreserves Demo.reserves Demo.ofToday (by decide) (by decide) Demo.ofToday_period
  · exact hagreements Demo.agreements Demo.active (by decide) (by decide) rfl
  · exact hshifts Demo.shifts Demo.luis Demo.own (some ⟨"luis"⟩) (by decide) (by decide) rfl

end Bazar.Finance.Lists
