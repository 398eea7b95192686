import BazarApi.Json.Stringify
import BazarApi.Finance.ListPages
import BazarApi.Shop.SameItems

/- What the fingerprint of a sale request tells (`requestFingerprint` in
   `sales/sales.service.ts`). The content that is hashed names the header, the cash or the
   method and the lines in one order; its JSON text tells the content
   (`Json.stringify_unique`). So two requests have one fingerprint exactly when they ask for
   the same sale.

   Correspondence (TypeScript ↔ Lean):
     `JSON.stringify`                         ↔ `Json.Tree.stringify` of `Json.value`
     `Date.prototype.toISOString`             ↔ `Finance.isoText`
     `new Date(dto.occurredAt).toISOString()` ↔ `Sales.fingerprint`, which may throw
     the decorators of `CreateSaleDto`        ↔ the fields of the DTO, `CreateSaleDto.Valid` -/
open Json

namespace Bazar

open Finance hiding Host

/-! The text that is hashed. -/

/-- Texts of the basic plane are told apart by their code units. -/
theorem utf16_inj {s s' : String} (hs : ∀ c ∈ s.toList, c.toNat < 0x10000)
    (hs' : ∀ c ∈ s'.toList, c.toNat < 0x10000) (h : utf16 s = utf16 s') : s = s' := by
  have basic : ∀ {s : String},
      (∀ c ∈ s.toList, c.toNat < 0x10000) → utf16 s = s.toList.map unit := by
    intro s hs
    unfold utf16
    rw [List.map_eq_flatMap]
    refine List.flatMap_congr fun c hc => ?_
    rw [if_pos (hs c hc)]
  have unit_inj : ∀ {c d : Char}, c.toNat < 0x10000 → d.toNat < 0x10000 →
      unit c = unit d → c = d := by
    intro c d hc hd he
    have hv := congrArg Fin.val he
    simp only [unit, Fin.ofNat, Nat.mod_eq_of_lt hc, Nat.mod_eq_of_lt hd] at hv
    exact Char.toNat_inj.mp hv
  rw [basic hs, basic hs'] at h
  refine String.toList_inj.mp (List.ext_getElem (by simpa using congrArg List.length h) ?_)
  intro n h₁ h₂
  have hn := congrArg (·[n]?) h
  simp only [List.getElem?_map, List.getElem?_eq_getElem h₁, List.getElem?_eq_getElem h₂,
    Option.map_some, Option.some.injEq] at hn
  exact unit_inj (hs _ (List.getElem_mem h₁)) (hs' _ (List.getElem_mem h₂)) hn

mutual

/-- A value as `JSON.stringify` sees it: an instant is its ISO text. -/
def Json.value : Json → Value
  | .null => .null
  | .num n => .num n
  | .str s => Value.text s
  | .iso t => Value.iso t
  | .arr xs => .arr (Json.values xs)
  | .obj fields => .obj (Json.members fields)

def Json.values : List Json → List Value
  | [] => []
  | x :: xs => x.value :: Json.values xs

def Json.members : List (String × Json) → List (JsString × Value)
  | [] => []
  | (k, x) :: fields => (utf16 k, x.value) :: Json.members fields

end

/-- What is handed to the hash. -/
def Json.text (x : Json) : JsString := Tree.stringify intLiteral x.value

theorem Json.values_eq (xs : List Json) : Json.values xs = xs.map Json.value := by
  induction xs with
  | nil => rfl
  | cons x xs ih => rw [Json.values, ih, List.map_cons]

/-- Texts of the characters that identifiers and ISO texts have. -/
theorem text_inj {s s' : String} (hs : ∀ c ∈ s.toList, c.toNat < 0x10000)
    (hs' : ∀ c ∈ s'.toList, c.toNat < 0x10000) (h : Value.text s = Value.text s') : s = s' :=
  utf16_inj hs hs' (Tree.str.inj h)

/-- One ISO text is of one instant. -/
theorem iso_inj {t t' : Instant} (ht : IsTime t) (ht' : IsTime t') (h : Value.iso t = Value.iso t') :
    t = t' := by
  have basic : ∀ t : Instant, ∀ c ∈ (isoText t).toList, c.toNat < 0x10000 :=
    fun t c hc => lt_trans (Lists.shown_isoText t c hc).2.1 (by decide)
  have htext := text_inj (basic t) (basic t') h
  have hread := readIso_isoText ht
  rw [htext, readIso_isoText ht'] at hread
  exact (Option.some.inj hread).symm

/-- An identifier has characters of the basic plane only. -/
theorem isUuidText_basic {s : String} (h : isUuidText s = true) :
    ∀ c ∈ s.toList, c.toNat < 0x10000 := by
  intro c hc
  by_contra hbig
  have hbig : 0x10000 ≤ c.toNat := not_lt.mp hbig
  have above : ∀ d : Char, d.toNat < 0x10000 → ¬ c ≤ d := by
    intro d hd hle
    have : c.toNat ≤ d.toNat := hle
    omega
  have hdigit : c.isDigit = false := by
    rw [Char.isDigit, Bool.and_eq_false_iff]
    exact .inr (decide_eq_false (above '9' (by decide)))
  have hlower : c.toLower = c := by
    unfold Char.toLower
    rw [dif_neg]
    rintro ⟨-, hle⟩
    exact above 'Z' (by decide) hle
  have hmem := of_decide_eq_true h ▸ List.mem_map_of_mem
    (f := fun c : Char => if c.isDigit || ('a' ≤ c.toLower && c.toLower ≤ 'f') then 'h'
      else if c = '-' then c else '?') hc
  have hne : c ≠ '-' := by
    rintro rfl
    exact absurd hbig (by decide)
  rw [hdigit, hlower, decide_eq_false (above 'f' (by decide)), Bool.and_false, Bool.or_false,
    if_neg Bool.false_ne_true, if_neg hne] at hmem
  exact absurd hmem (by decide)

namespace Shop

/-! The order of the lines. -/

/-- The comparator of the lines: by product, then by quantity. -/
def lineCompare (host : Host) (a b : String × Int) : Ordering :=
  (host.localeCompare a.1 b.1).then (compare a.2 b.2)

def lineLe (host : Host) (a b : String × Int) : Prop := lineCompare host a b ≠ .gt

instance (host : Host) : DecidableRel (lineLe host) :=
  fun _ _ => inferInstanceAs (Decidable (_ ≠ _))

section
variable {host : Host}

theorem lineCompare_trans (hc : host.Collates) : Std.TransCmp (lineCompare host) := by
  have := hc.trans
  have hfst : Std.TransCmp fun a b : String × Int => host.localeCompare a.1 b.1 :=
    { eq_swap := Std.OrientedCmp.eq_swap, isLE_trans := Std.TransCmp.isLE_trans }
  have hsnd : Std.TransCmp fun a b : String × Int => compare a.2 b.2 :=
    { eq_swap := Std.OrientedCmp.eq_swap, isLE_trans := Std.TransCmp.isLE_trans }
  exact inferInstanceAs (Std.TransCmp (compareLex _ _))

theorem lineLe_total (hc : host.Collates) (a b : String × Int) :
    lineLe host a b ∨ lineLe host b a := by
  have := lineCompare_trans hc
  unfold lineLe
  have hswap : lineCompare host b a = (lineCompare host a b).swap := Std.OrientedCmp.eq_swap
  rw [hswap]
  cases lineCompare host a b <;> simp

theorem lineLe_trans (hc : host.Collates) (a b c : String × Int) (hab : lineLe host a b)
    (hbc : lineLe host b c) : lineLe host a c := by
  have := lineCompare_trans hc
  unfold lineLe at hab hbc ⊢
  rw [Ne, Ordering.ne_gt_iff_isLE] at hab hbc ⊢
  exact Std.TransCmp.isLE_trans hab hbc

theorem lineLe_antisymm (hc : host.Collates) {a b : String × Int} (ha : isUuidText a.1 = true)
    (hb : isUuidText b.1 = true) (hab : lineLe host a b) (hba : lineLe host b a) : a = b := by
  have := lineCompare_trans hc
  have hswap : lineCompare host b a = (lineCompare host a b).swap := Std.OrientedCmp.eq_swap
  unfold lineLe at hab hba
  rw [hswap] at hba
  have heq : lineCompare host a b = .eq := by
    cases h : lineCompare host a b with
    | lt => exact absurd (by rw [h]; rfl) hba
    | eq => rfl
    | gt => exact absurd h hab
  obtain ⟨h1, h2⟩ := Ordering.then_eq_eq.mp heq
  exact Prod.ext (hc.distinct _ _ ha hb h1) (compare_eq_iff_eq.mp h2)

/-- Sorted, the lines of two requests are the same exactly when they are the same multiset. -/
theorem sorted_iff_perm (hc : host.Collates) {l₁ l₂ : List (String × Int)}
    (h₁ : ∀ a ∈ l₁, isUuidText a.1 = true) :
    l₁.insertionSort (lineLe host) = l₂.insertionSort (lineLe host) ↔ l₁.Perm l₂ := by
  constructor
  · intro h
    exact (List.perm_insertionSort _ l₁).symm.trans (h ▸ List.perm_insertionSort _ l₂)
  · intro h
    refine (Js.insertionSort_eq_iff id (lineLe host) (lineLe_total hc) (lineLe_trans hc) ?_).mpr ?_
    · exact fun a ha b hb => lineLe_antisymm hc (h₁ a ha) (h₁ b hb)
    · intro k
      have hk := h.filter fun a => decide (id a = k)
      have hsame : ∀ l : List (String × Int), l.filter (fun a => decide (id a = k)) =
          List.replicate (l.filter fun a => decide (id a = k)).length k := fun l =>
        List.eq_replicate_of_mem fun b hb => of_decide_eq_true (List.mem_filter.mp hb).2
      rw [hsame l₁, hsame l₂, hk.length_eq]

end

/-! Requests. -/

/-- What the decorators ask for that the fields of the DTO do not say: identifiers are UUIDs,
and an instant is one that a `Date` can be. -/
structure CreateSaleDto.Valid (dto : CreateSaleDto) : Prop where
  memberId : isUuidText dto.memberId = true
  deviceId : isUuidText dto.deviceId = true
  items : ∀ item ∈ dto.items, isUuidText item.productId = true
  occurredAt : ∀ t ∈ dto.occurredAt, IsTime t

/-- A line as it is sent, with the price the client noted. -/
structure SentItem where
  productId : String
  quantity : ItemQuantity
  unitPriceMinor : Option Amount

/-- `({ productId, quantity }) => ({ productId, quantity })`. -/
def SentItem.line (item : SentItem) : CreateSaleItemDto := ⟨item.productId, item.quantity⟩

/-- A request as it is sent. -/
structure SentSale extends CreateSaleDto where
  sent : List SentItem
  lines : items = sent.map SentItem.line

/-- `requestFingerprint`, which makes a `Date` of the text of `occurredAt`. -/
def Sales.fingerprint (host : Host) (sale : SentSale) : Except Err String :=
  match sale.occurredAt with
  | none => .error Sales.invalidTime
  | some occurredAt => .ok (Sales.requestFingerprint host sale.toCreateSaleDto occurredAt)

/-- Two requests ask for the same sale. -/
structure SameSale (a b : SentSale) : Prop where
  memberId : a.memberId = b.memberId
  deviceId : a.deviceId = b.deviceId
  currency : a.currency = b.currency
  occurredAt : ∃ t, a.occurredAt = some t ∧ b.occurredAt = some t
  paymentMethod : resolvePaymentMethod a.paymentMethod = resolvePaymentMethod b.paymentMethod
  cash : isCashPayment a.paymentMethod = true → a.cashReceivedMinor = b.cashReceivedMinor
  items : (a.sent.map fun item => (item.productId, item.quantity.val)).Perm
    (b.sent.map fun item => (item.productId, item.quantity.val))

/-! The content. -/

section
variable {host : Host} {dto dto' : CreateSaleDto} {t t' : Instant}

/-- A line as it is hashed. -/
def lineValue (line : String × Int) : Value :=
  .obj [(utf16 "productId", Value.text line.1), (utf16 "quantity", .num line.2)]

/-- The lines as they are hashed. -/
def linesValue (host : Host) (items : List CreateSaleItemDto) : Value :=
  .arr (((items.map CreateSaleItemDto.wanted).insertionSort (lineLe host)).map lineValue)

/-- The members in front of what depends on the method. -/
def headerValue (dto : CreateSaleDto) : List (JsString × Value) :=
  [(utf16 "memberId", Value.text dto.memberId), (utf16 "deviceId", Value.text dto.deviceId),
    (utf16 "currency", Value.text dto.currency)]

theorem items_value (host : Host) (items : List CreateSaleItemDto) :
    (Json.arr ((items.insertionSort fun a b =>
      (host.localeCompare a.productId b.productId).then (compare a.quantity.val b.quantity.val) ≠
        .gt).map fun item =>
      .obj [("productId", .str item.productId), ("quantity", .num item.quantity.val)])).value =
      linesValue host items := by
  have hsort := List.map_insertionSort
    (fun a b : CreateSaleItemDto => (host.localeCompare a.productId b.productId).then
      (compare a.quantity.val b.quantity.val) ≠ .gt)
    (lineLe host) CreateSaleItemDto.wanted items fun _ _ _ _ => Iff.rfl
  unfold linesValue
  rw [Json.value, Json.values_eq, List.map_map, ← hsort, List.map_map]
  rfl

/-- The content of a sale paid in cash. -/
theorem content_cash {v : Int} (h : isCashPayment dto.paymentMethod = true)
    (hv : dto.cashReceivedMinor = some v) : (Sales.content host dto t).value =
      .obj (headerValue dto ++ [(utf16 "cashReceivedMinor", .num v),
        (utf16 "occurredAt", Value.iso t), (utf16 "items", linesValue host dto.items)]) := by
  unfold Sales.content
  simp only [h, hv, if_true]
  rw [Json.value, ← items_value]
  rfl

/-- The content of a sale paid otherwise. -/
theorem content_other (h : isCashPayment dto.paymentMethod = false) :
    (Sales.content host dto t).value =
      .obj (headerValue dto ++ [(utf16 "occurredAt", Value.iso t),
        (utf16 "items", linesValue host dto.items),
        (utf16 "paymentMethod", Value.text (resolvePaymentMethod dto.paymentMethod).text)]) := by
  unfold Sales.content
  simp only [h, Bool.false_eq_true, if_false]
  rw [Json.value, ← items_value]
  rfl

theorem lineValue_inj {a b : String × Int} (ha : isUuidText a.1 = true) (hb : isUuidText b.1 = true)
    (h : lineValue a = lineValue b) : a = b := by
  simp only [lineValue, Tree.obj.injEq, List.cons.injEq, Prod.mk.injEq, true_and, and_true,
    Tree.num.injEq] at h
  exact Prod.ext (text_inj (isUuidText_basic ha) (isUuidText_basic hb) h.1) h.2

theorem map_lineValue_inj {l l' : List (String × Int)} (hl : ∀ a ∈ l, isUuidText a.1 = true)
    (hl' : ∀ a ∈ l', isUuidText a.1 = true) (h : l.map lineValue = l'.map lineValue) : l = l' := by
  induction l generalizing l' with
  | nil =>
    cases l' with
    | nil => rfl
    | cons b l' => cases h
  | cons a l ih =>
    cases l' with
    | nil => cases h
    | cons b l' =>
      obtain ⟨hab, htail⟩ := List.cons.inj h
      rw [lineValue_inj (hl a List.mem_cons_self) (hl' b List.mem_cons_self) hab,
        ih (fun x hx => hl x (List.mem_cons_of_mem _ hx))
          (fun x hx => hl' x (List.mem_cons_of_mem _ hx)) htail]

theorem linesValue_inj (hc : host.Collates)
    (hd : ∀ item ∈ dto.items, isUuidText item.productId = true)
    (hd' : ∀ item ∈ dto'.items, isUuidText item.productId = true) :
    linesValue host dto.items = linesValue host dto'.items ↔
      (dto.items.map CreateSaleItemDto.wanted).Perm (dto'.items.map CreateSaleItemDto.wanted) := by
  have huuid : ∀ {items : List CreateSaleItemDto},
      (∀ item ∈ items, isUuidText item.productId = true) →
      ∀ a ∈ items.map CreateSaleItemDto.wanted, isUuidText a.1 = true := by
    intro items h a ha
    obtain ⟨item, hi, rfl⟩ := List.mem_map.mp ha
    exact h item hi
  rw [← sorted_iff_perm hc (huuid hd)]
  constructor
  · intro h
    refine map_lineValue_inj ?_ ?_ (Tree.arr.inj h)
    · exact fun a ha => huuid hd a ((List.mem_insertionSort _).mp ha)
    · exact fun a ha => huuid hd' a ((List.mem_insertionSort _).mp ha)
  · intro h
    unfold linesValue
    rw [h]

theorem headerValue_inj (hd : dto.Valid) (hd' : dto'.Valid) :
    headerValue dto = headerValue dto' ↔ dto.memberId = dto'.memberId ∧
      dto.deviceId = dto'.deviceId ∧ dto.currency = dto'.currency := by
  constructor
  · intro h
    simp only [headerValue, List.cons.injEq, Prod.mk.injEq, true_and, and_true] at h
    refine ⟨text_inj (isUuidText_basic hd.memberId) (isUuidText_basic hd'.memberId) h.1,
      text_inj (isUuidText_basic hd.deviceId) (isUuidText_basic hd'.deviceId) h.2.1, ?_⟩
    rw [dto.mxn, dto'.mxn]
  · rintro ⟨hm, hv, hcur⟩
    unfold headerValue
    rw [hm, hv, hcur]

/-- The method, unless it is cash. -/
theorem method_text_inj {m m' : PaymentMethod} (h : Value.text m.text = Value.text m'.text) : m = m' := by
  revert h
  cases m <;> cases m' <;> first | exact fun _ => rfl | exact fun h => absurd (Tree.str.inj h) (by decide)

theorem header_append_inj {xs ys : List (JsString × Value)} :
    Tree.obj (headerValue dto ++ xs) = Tree.obj (headerValue dto' ++ ys) ↔
      headerValue dto = headerValue dto' ∧ xs = ys := by
  rw [Tree.obj.injEq]
  constructor
  · intro h
    exact List.append_inj h rfl
  · rintro ⟨hh, hx⟩
    rw [hh, hx]

theorem cash_key_ne : utf16 "cashReceivedMinor" ≠ utf16 "occurredAt" := by decide

/-- Paid in cash, the amount received is there. -/
theorem CreateSaleDto.received (h : isCashPayment dto.paymentMethod = true) :
    ∃ v, dto.cashReceivedMinor = some v := by
  have hcash := dto.cash
  rw [cashReceivedMatchesMethod, if_pos h] at hcash
  obtain ⟨v, hv, -⟩ := hcash
  exact ⟨v, hv⟩

/-- The content tells the request. -/
theorem content_value_iff (hc : host.Collates) (hd : dto.Valid) (hd' : dto'.Valid) (ht : IsTime t)
    (ht' : IsTime t') : (Sales.content host dto t).value = (Sales.content host dto' t').value ↔
      (dto.memberId = dto'.memberId ∧ dto.deviceId = dto'.deviceId ∧ dto.currency = dto'.currency) ∧
      t = t' ∧ resolvePaymentMethod dto.paymentMethod = resolvePaymentMethod dto'.paymentMethod ∧
      (isCashPayment dto.paymentMethod = true → dto.cashReceivedMinor = dto'.cashReceivedMinor) ∧
      (dto.items.map CreateSaleItemDto.wanted).Perm (dto'.items.map CreateSaleItemDto.wanted) := by
  have htime : Value.iso t = Value.iso t' ↔ t = t' := ⟨iso_inj ht ht', congrArg _⟩
  have cashOf : ∀ {m : Option PaymentMethod}, isCashPayment m = true ↔
      resolvePaymentMethod m = .efectivo := fun {m} => decide_eq_true_iff
  rw [← headerValue_inj hd hd', ← linesValue_inj hc hd.items hd'.items, ← htime]
  cases h : isCashPayment dto.paymentMethod <;> cases h' : isCashPayment dto'.paymentMethod
  · -- neither in cash: the method is in the content
    rw [content_other h, content_other h', header_append_inj]
    simp only [List.cons.injEq, Prod.mk.injEq, true_and, and_true, Bool.false_eq_true,
      false_implies]
    refine and_congr_right' (and_congr_right' ?_)
    rw [and_comm]
    refine and_congr_left' ⟨method_text_inj, fun hm => by rw [hm]⟩
  · obtain ⟨v, hv⟩ := CreateSaleDto.received h'
    rw [content_other h, content_cash h' hv, header_append_inj]
    refine iff_of_false ?_ ?_
    · rintro ⟨-, hx⟩
      exact cash_key_ne (Prod.mk.inj (List.cons.inj hx).1).1.symm
    · rintro ⟨-, -, hm, -⟩
      rw [cashOf.mpr (hm.trans (cashOf.mp h'))] at h
      cases h
  · obtain ⟨v, hv⟩ := CreateSaleDto.received h
    rw [content_cash h hv, content_other h', header_append_inj]
    refine iff_of_false ?_ ?_
    · rintro ⟨-, hx⟩
      exact cash_key_ne (Prod.mk.inj (List.cons.inj hx).1).1
    · rintro ⟨-, -, hm, -⟩
      rw [cashOf.mpr (hm.symm.trans (cashOf.mp h))] at h'
      cases h'
  · -- both in cash: the amount received is
    obtain ⟨v, hv⟩ := CreateSaleDto.received h
    obtain ⟨v', hv'⟩ := CreateSaleDto.received h'
    have hm : resolvePaymentMethod dto.paymentMethod = resolvePaymentMethod dto'.paymentMethod :=
      (cashOf.mp h).trans (cashOf.mp h').symm
    rw [content_cash h hv, content_cash h' hv', header_append_inj, hv, hv']
    simp only [List.cons.injEq, Prod.mk.injEq, true_and, and_true, Tree.num.injEq, hm,
      Option.some.injEq, forall_const]
    refine and_congr_right' ?_
    rw [and_left_comm]

end

/-- Over all pairs of requests that the decorators let through, with any prices and any order
of the lines: both have a fingerprint and it is the same exactly when they have the same
person, device, currency and instant, the same method (none being cash), the same cash
received if it is cash, and the same multiset of lines. The text of a request is hashed
without a collision. -/
theorem fingerprint_iff_same_sale (host : Host) (hc : host.Collates) (hash : JsString → String)
    (hhash : ∀ x : Json, host.sha256 x = hash x.text)
    (hfree : ∀ x y : Json, hash x.text = hash y.text → x.text = y.text) (a b : SentSale)
    (ha : a.Valid) (hb : b.Valid) :
    (∃ f, Sales.fingerprint host a = .ok f ∧ Sales.fingerprint host b = .ok f) ↔ SameSale a b := by
  have hitems : ∀ s : SentSale, (s.items.map CreateSaleItemDto.wanted) =
      s.sent.map fun item => (item.productId, item.quantity.val) := by
    intro s
    rw [s.lines, List.map_map]
    rfl
  have hsame : ∀ {x y : Json}, host.sha256 x = host.sha256 y ↔ x.value = y.value := by
    intro x y
    rw [hhash, hhash]
    constructor
    · intro h
      exact stringify_injective intLiteral_literals (hfree x y h)
    · intro h
      unfold Json.text
      rw [h]
  constructor
  · rintro ⟨f, hfa, hfb⟩
    unfold Sales.fingerprint at hfa hfb
    cases hta : a.occurredAt with
    | none =>
      rw [hta] at hfa
      cases hfa
    | some t =>
      cases htb : b.occurredAt with
      | none =>
        rw [htb] at hfb
        cases hfb
      | some t' =>
        rw [hta] at hfa
        rw [htb] at hfb
        have he : Sales.requestFingerprint host a.toCreateSaleDto t =
            Sales.requestFingerprint host b.toCreateSaleDto t' :=
          Except.ok.inj (hfa.trans hfb.symm)
        obtain ⟨⟨hm, hd, hcur⟩, rfl, hmethod, hcash, hperm⟩ :=
          (content_value_iff hc ha hb (ha.occurredAt t hta) (hb.occurredAt t' htb)).mp (hsame.mp he)
        rw [hitems, hitems] at hperm
        exact ⟨hm, hd, hcur, ⟨t, hta, htb⟩, hmethod, hcash, hperm⟩
  · rintro ⟨hm, hd, hcur, ⟨t, hta, htb⟩, hmethod, hcash, hperm⟩
    have he : Sales.requestFingerprint host a.toCreateSaleDto t =
        Sales.requestFingerprint host b.toCreateSaleDto t := by
      refine hsame.mpr ((content_value_iff hc ha hb (ha.occurredAt t hta)
        (hb.occurredAt t htb)).mpr ⟨⟨hm, hd, hcur⟩, rfl, hmethod, hcash, ?_⟩)
      rw [hitems, hitems]
      exact hperm
    unfold Sales.fingerprint
    rw [hta, htb]
    exact ⟨_, rfl, congrArg Except.ok he.symm⟩

namespace Demo

/-- A text for a list of code units, in place of its digest: one character beyond the basic
plane for each. -/
def wide (s : JsString) : String := String.ofList (s.map fun c => Char.ofNat (0x10000 + c.val))

theorem wide_injective : Function.Injective wide := fun _ _ h =>
  List.map_injective_iff.mpr wideChar_injective (String.ofList_injective h)

/-- A host that hashes the text it is given. -/
def hashing : Host := { collating with sha256 := fun x => wide x.text }

def line (price : Option Amount) (quantity : ItemQuantity) : SentItem := ⟨productId, quantity, price⟩

/-- Two lines of one product, sent in one order. -/
def sentSale (method : Option PaymentMethod) (sent : List SentItem) (hn : sent ≠ [])
    (hs : sent.length ≤ 500) : SentSale where
  id := productId
  memberId := productId
  deviceId := productId
  occurredAt := some 0
  currency := "MXN"
  items := sent.map SentItem.line
  paymentMethod := method
  cashReceivedMinor := if isCashPayment method then some 500 else none
  mxn := rfl
  nonempty := fun h => hn (List.map_eq_nil_iff.mp h)
  size := by rwa [List.length_map]
  cash := by
    unfold cashReceivedMatchesMethod
    split
    · exact ⟨500, rfl, by decide, by decide⟩
    · rfl
  sent := sent
  lines := rfl

theorem productId_uuid : isUuidText productId = true := by decide

theorem sentSale_valid {method : Option PaymentMethod} {sent : List SentItem} (hn : sent ≠ [])
    (hs : sent.length ≤ 500) (hp : ∀ item ∈ sent, item.productId = productId) :
    (sentSale method sent hn hs).Valid where
  memberId := productId_uuid
  deviceId := productId_uuid
  items item hi := by
    obtain ⟨x, hx, rfl⟩ := List.mem_map.mp hi
    change isUuidText x.productId = true
    rw [hp x hx]
    exact productId_uuid
  occurredAt t ht := by
    cases ht
    exact ⟨by decide, by decide⟩

/-- Two lines, with a price and the method named; the same in the other order, without. -/
def named : SentSale :=
  sentSale (some .efectivo) [line (some ⟨90, by decide, by decide⟩) two,
    line none one] (by decide) (by decide)

def unnamed : SentSale :=
  sentSale none [line none one, line none two]
    (by decide) (by decide)

end Demo

theorem fingerprint_iff_same_sale_reordered :
    ∃ f, Sales.fingerprint Demo.hashing Demo.named = .ok f ∧
      Sales.fingerprint Demo.hashing Demo.unnamed = .ok f := by
  have collates : Demo.hashing.Collates :=
    ⟨Demo.collating_collates.trans, Demo.collating_collates.distinct⟩
  refine (fingerprint_iff_same_sale Demo.hashing collates Demo.wide (fun _ => rfl)
    (fun _ _ h => Demo.wide_injective h) Demo.named Demo.unnamed ?_ ?_).mpr ?_
  · exact Demo.sentSale_valid _ _ (by decide)
  · exact Demo.sentSale_valid _ _ (by decide)
  · exact ⟨rfl, rfl, rfl, ⟨0, rfl, rfl⟩, rfl, fun _ => rfl, List.Perm.swap _ _ _⟩

end Shop

end Bazar
