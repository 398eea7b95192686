import BazarApi.Js.StableSort
import BazarApi.Shop.Runs

/- When `sameItems`, which compares the stored lines of a sale with the lines of a request
   that has no stored fingerprint, tells reordered carts from different ones. Both sides
   are sorted by product alone, and the sort is stable: the lines of one product are
   compared in the order they came in.

   Correspondence (TypeScript ↔ Lean):
     `sameItems`                              ↔ `Sales.sameItems` (`Shop.Sales`)
     `{productId, quantity}` of a stored line ↔ `SaleItem.stored`
     `{productId, quantity}` of a `dto` line  ↔ `CreateSaleItemDto.wanted`
     `@IsUUID()`                              ↔ `isUuidText` -/
namespace Bazar

/-- The shape `@IsUUID()` asks for: hexadecimal digits of either case, in five groups. -/
def isUuidText (s : String) : Bool :=
  (s.toList.map fun c =>
      if c.isDigit || ('a' ≤ c.toLower && c.toLower ≤ 'f') then 'h' else if c = '-' then c else '?') =
    "hhhhhhhh-hhhh-hhhh-hhhh-hhhhhhhhhhhh".toList

/-- What the collation of the host is known for: it is a total preorder of the texts, and
tells the texts of two different identifiers apart. -/
structure Host.Collates (host : Host) : Prop where
  trans : Std.TransCmp host.localeCompare
  distinct : ∀ a b, isUuidText a = true → isUuidText b = true →
    host.localeCompare a b = .eq → a = b

section
variable {host : Host}

/-- The order of the comparator of `sameItems`. -/
def Host.le (host : Host) (a b : String) : Prop := host.localeCompare a b ≠ .gt

instance (host : Host) : DecidableRel host.le := fun _ _ => inferInstanceAs (Decidable (_ ≠ _))

theorem Host.Collates.total (hc : host.Collates) (a b : String) : host.le a b ∨ host.le b a := by
  have := hc.trans
  unfold Host.le
  have hswap : host.localeCompare b a = (host.localeCompare a b).swap := Std.OrientedCmp.eq_swap
  rw [hswap]
  cases host.localeCompare a b <;> simp

theorem Host.Collates.le_trans (hc : host.Collates) (a b c : String) (hab : host.le a b)
    (hbc : host.le b c) : host.le a c := by
  have := hc.trans
  unfold Host.le at hab hbc ⊢
  rw [Ne, Ordering.ne_gt_iff_isLE] at hab hbc ⊢
  exact Std.TransCmp.isLE_trans hab hbc

theorem Host.Collates.antisymm (hc : host.Collates) {a b : String} (ha : isUuidText a = true)
    (hb : isUuidText b = true) (hab : host.le a b) (hba : host.le b a) : a = b := by
  have := hc.trans
  refine hc.distinct a b ha hb ?_
  unfold Host.le at hab hba
  have hswap : host.localeCompare b a = (host.localeCompare a b).swap := Std.OrientedCmp.eq_swap
  rw [hswap] at hba
  cases h : host.localeCompare a b with
  | lt => exact absurd (by rw [h]; rfl) hba
  | eq => rfl
  | gt => exact absurd h hab

end

namespace Shop

def SaleItem.stored (item : SaleItem) : String × Int := (item.productId.text, item.quantity)

def CreateSaleItemDto.wanted (item : CreateSaleItemDto) : String × Int :=
  (item.productId, item.quantity.val)

/-- The lines of one product, in the order they come in. -/
def linesOf (productId : String) (pairs : List (String × Int)) : List (String × Int) :=
  pairs.filter (·.1 = productId)

/-- When both sides have the same quantities of every product, they have them in the same
order. -/
def QuantitiesInOrder (stored asked : List (String × Int)) : Prop :=
  (∀ productId, (linesOf productId stored).Perm (linesOf productId asked)) →
    ∀ productId, linesOf productId stored = linesOf productId asked

/-! The comparison. -/

section
variable {host : Host} {existingItems : List SaleItem} {dtoItems : List CreateSaleItemDto}

/-- Two lists of pairs of one length agree place by place exactly when they are equal. -/
theorem all_zip_iff : ∀ {l₁ l₂ : List (String × Int)}, l₁.length = l₂.length →
    (((l₁.zip l₂).all fun x => x.1.1 = x.2.1 ∧ x.1.2 = x.2.2) = true ↔ l₁ = l₂)
  | [], [], _ => by simp
  | a :: l₁, b :: l₂, h => by
    have ih := all_zip_iff (Nat.succ.inj h)
    rw [List.zip_cons_cons, List.all_cons, Bool.and_eq_true, ih, List.cons.injEq,
      decide_eq_true_eq, Prod.ext_iff]

/-- `sameItems` compares the two sorted lists of pairs. -/
theorem Sales.sameItems_iff_sorted :
    Sales.sameItems host existingItems dtoItems = true ↔
      ((existingItems.map SaleItem.stored).insertionSort fun a b => host.le a.1 b.1) =
        (dtoItems.map CreateSaleItemDto.wanted).insertionSort fun a b => host.le a.1 b.1 := by
  have hstored := List.map_insertionSort
    (fun a b : SaleItem => host.localeCompare a.productId.text b.productId.text ≠ .gt)
    (fun a b : String × Int => host.le a.1 b.1) SaleItem.stored existingItems
    fun _ _ _ _ => Iff.rfl
  have hasked := List.map_insertionSort
    (fun a b : CreateSaleItemDto => host.localeCompare a.productId b.productId ≠ .gt)
    (fun a b : String × Int => host.le a.1 b.1) CreateSaleItemDto.wanted dtoItems
    fun _ _ _ _ => Iff.rfl
  rw [← hstored, ← hasked]
  unfold Sales.sameItems
  rw [Bool.decide_and, Bool.and_eq_true, decide_eq_true_eq, Bool.decide_eq_true]
  constructor
  · rintro ⟨hlen, hall⟩
    refine (all_zip_iff (by simpa using hlen)).mp ?_
    rw [List.zip_map, List.all_map]
    exact hall
  · intro he
    have hlen := congrArg List.length he
    have hlen' : existingItems.length = dtoItems.length := by simpa using hlen
    have hall := (all_zip_iff hlen).mpr he
    rw [List.zip_map, List.all_map] at hall
    exact ⟨hlen', hall⟩

/-- `sameItems` holds exactly when each product has the same quantities in the same order. -/
theorem Sales.sameItems_iff (hc : host.Collates)
    (hids : ∀ item ∈ existingItems, isUuidText item.productId.text = true) :
    Sales.sameItems host existingItems dtoItems = true ↔
      ∀ productId, linesOf productId (existingItems.map SaleItem.stored) =
        linesOf productId (dtoItems.map CreateSaleItemDto.wanted) := by
  rw [Sales.sameItems_iff_sorted]
  refine Js.insertionSort_eq_iff Prod.fst host.le hc.total hc.le_trans ?_
  intro a ha b hb
  obtain ⟨x, hx, rfl⟩ := List.mem_map.mp ha
  obtain ⟨y, hy, rfl⟩ := List.mem_map.mp hb
  exact hc.antisymm (hids x hx) (hids y hy)

end

/-- The comparison answers whether the stored lines and the lines asked for are the same
multiset of pairs exactly when the quantities of each product do not come in another
order. -/
theorem sameItems_iff_perm (host : Host) (hc : host.Collates) (existingItems : List SaleItem)
    (dtoItems : List CreateSaleItemDto)
    (hids : ∀ item ∈ existingItems, isUuidText item.productId.text = true) :
    (Sales.sameItems host existingItems dtoItems = true ↔
        (existingItems.map SaleItem.stored).Perm (dtoItems.map CreateSaleItemDto.wanted)) ↔
      QuantitiesInOrder (existingItems.map SaleItem.stored)
        (dtoItems.map CreateSaleItemDto.wanted) := by
  rw [Sales.sameItems_iff hc hids, Js.perm_iff_filter Prod.fst]
  unfold QuantitiesInOrder linesOf
  constructor
  · intro h hperm
    exact h.mpr hperm
  · intro h
    exact ⟨fun he k => by rw [he k], h⟩

namespace Demo

/-- The collation by code units, which tells any two texts apart. -/
def collating : Host := { host with localeCompare := compare }

theorem collating_collates : collating.Collates where
  trans := inferInstanceAs (Std.TransCmp (compare : String → String → Ordering))
  distinct _ _ _ _ h := Std.LawfulEqOrd.eq_of_compare (α := String) h

def productId : String := "018f2c3a-0000-7000-8000-00000000000a"

def stored (quantity : Int) : SaleItem :=
  { id := ⟨"line"⟩, saleId := ⟨"sale"⟩, productId := ⟨productId⟩, contextId := "bazar", quantity
    unitPriceMinor := 100, subtotalMinor := 100 * quantity, unitCostMinor := none, createdAt := 0 }

def asked : List CreateSaleItemDto :=
  [⟨productId, two⟩, ⟨productId, one⟩]

end Demo

theorem sameItems_iff_perm_in_order :
    Sales.sameItems Demo.collating [Demo.stored 2, Demo.stored 1] Demo.asked = true ↔
      ([Demo.stored 2, Demo.stored 1].map SaleItem.stored).Perm
        (Demo.asked.map CreateSaleItemDto.wanted) :=
  (sameItems_iff_perm Demo.collating Demo.collating_collates _ _ (by decide)).mpr
    fun _ _ => rfl

/-- One product in two lines, stored in one order and asked for in the other. -/
theorem sameItems_of_reordered :
    (∀ item ∈ Demo.asked, isUuidText item.productId = true) ∧
      ([Demo.stored 1, Demo.stored 2].map SaleItem.stored).Perm
        (Demo.asked.map CreateSaleItemDto.wanted) ∧
      Sales.sameItems Demo.collating [Demo.stored 1, Demo.stored 2] Demo.asked = false :=
  ⟨by decide, List.Perm.swap _ _ _, by decide⟩

end Shop

end Bazar
