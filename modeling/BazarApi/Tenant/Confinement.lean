import BazarApi.Tenant.Extension

/- What the extension's arguments confine an operation to. A `where` is rewritten after the
   caller's keys, so the active tenant wins there; the data of a row to create is rewritten
   before the caller's keys, so a `contextId` of the caller wins there; the data of an update
   is passed on as it comes, so a `contextId` of the caller moves the rows; and the two
   `AndReturn` operations are not rewritten at all. Rows an operation reaches through relations
   are not followed. -/
namespace Bazar.Tenant

/-- The client, as far as a `where` goes: the tenant of a row, and whether a row passes the
condition a `where` has under one key. -/
structure Client (Row : Type) where
  contextId : Row → String
  passes : Model → String → Value → Row → Prop

/-- A text under a column's name asks for equality. -/
def Client.Documented {Row : Type} (client : Client Row) : Prop :=
  ∀ model s row, client.passes model "contextId" (.str s) row ↔ client.contextId row = s

/-- The keys of a `where` are a conjunction. -/
def Client.selects {Row : Type} (client : Client Row) (model : Model) (condition : Value)
    (row : Row) : Prop :=
  ∀ key ∈ condition.entries.map Prod.fst, client.passes model key (condition.get key) row

/-- The tenant of the row that `data` creates, if the client creates it: an absent or
undefined `contextId` takes the column's default, if it has one. -/
def rowContextId (model : Model) (data : Value) : Option String :=
  match data.get "contextId" with
  | .str s => some s
  | .undefined => model.defaultContextId
  | _ => none

/-- The operation picks existing rows by its `where`. -/
def Operation.selects : Operation → Bool
  | .create => false
  | .createMany => false
  | .createManyAndReturn => false
  | _ => true

/-- The rows an operation creates directly. -/
def created (operation : Operation) (args : Value) : List Value :=
  match operation with
  | .create => [args.get "data"]
  | .createMany => (args.get "data").toRows
  | .createManyAndReturn => (args.get "data").toRows
  | .upsert => [args.get "create"]
  | _ => []

/-- What an operation writes over the rows it picks. -/
def updated (operation : Operation) (args : Value) : List Value :=
  match operation with
  | .update => [args.get "data"]
  | .updateMany => [args.get "data"]
  | .updateManyAndReturn => [args.get "data"]
  | .upsert => [args.get "update"]
  | _ => []

/-- The tenant that `data` moves a row to, if it names one: a text, or a `set` of one. -/
def movedTo (data : Value) : Option String :=
  match data.get "contextId" with
  | .str s => some s
  | .obj fields =>
    match (Value.obj fields).get "set" with
    | .str s => some s
    | _ => none
  | _ => none

/-- Every row picked is of the tenant and stays there, and every row created is of it. -/
structure Confined {Row : Type} (client : Client Row) (contextId : String) (model : Model)
    (operation : Operation) (args : Value) : Prop where
  picked : operation.selects = true → ∀ row, client.selects model (args.get "where") row →
    client.contextId row = contextId
  kept : ∀ data ∈ updated operation args, ∀ s, movedTo data = some s → s = contextId
  inserted : ∀ data ∈ created operation args, ∀ s, rowContextId model data = some s → s = contextId

/-- What the caller must not do: hand an operation that is not rewritten a `where` or a row
of another tenant, or state another tenant in a row to create or in what is written over a
row. -/
structure Harmless {Row : Type} (client : Client Row) (contextId : String) (model : Model)
    (operation : Operation) (args : Value) : Prop where
  update : operation = .updateManyAndReturn → ∀ row,
    client.selects model (args.get "where") row → client.contextId row = contextId
  move : ∀ data ∈ updated operation args, ∀ s, movedTo data = some s → s = contextId
  insert : ∀ data ∈ created operation args,
    operation = .createManyAndReturn ∨ "contextId" ∈ data.entries.map Prod.fst →
    ∀ s, rowContextId model data = some s → s = contextId

/-! Assignments. -/

namespace Value

theorem lookup_append (key : String) (fields more : List (String × Value)) :
    lookup key (fields ++ more) = (lookup key more).or (lookup key fields) := by
  unfold lookup
  rw [List.reverse_append, List.find?_append]
  cases List.find? (fun p => decide (p.1 = key)) more.reverse <;> rfl

theorem lookup_singleton (key key' : String) (v : Value) :
    lookup key [(key', v)] = if key' = key then some v else none := by
  unfold lookup
  by_cases hk : key' = key <;> simp [hk]

theorem lookup_eq_none {key : String} {fields : List (String × Value)} :
    lookup key fields = none ↔ key ∉ fields.map Prod.fst := by
  unfold lookup
  rw [Option.map_eq_none_iff, List.find?_eq_none, List.mem_map]
  constructor
  · rintro h ⟨p, hp, rfl⟩
    exact h p (List.mem_reverse.mpr hp) (decide_eq_true rfl)
  · intro h p hp hk
    exact h ⟨p, List.mem_reverse.mp hp, of_decide_eq_true hk⟩

/-- The key set last has its value, the others keep theirs. -/
theorem get_set (value : Value) (key key' : String) (v : Value) :
    (value.set key' v).get key = if key' = key then v else value.get key := by
  unfold get set
  change (lookup key (value.entries ++ [(key', v)])).getD .undefined = _
  rw [lookup_append, lookup_singleton]
  split <;> rfl

theorem mem_keys_set (value : Value) (key : String) (v : Value) :
    key ∈ (value.set key v).entries.map Prod.fst := by
  unfold set
  simp [entries]

end Value

/-- A row's own keys win over the tenant put before them. -/
theorem get_withContextId (contextId row : Value) :
    (withContextId contextId row).get "contextId" =
      if "contextId" ∈ row.entries.map Prod.fst then row.get "contextId" else contextId := by
  unfold withContextId Value.get
  change (Value.lookup "contextId" ([("contextId", contextId)] ++ row.entries)).getD .undefined = _
  rw [Value.lookup_append, Value.lookup_singleton, if_pos rfl]
  split
  · rename_i hmem
    cases hl : Value.lookup "contextId" row.entries with
    | none => exact absurd hmem (Value.lookup_eq_none.mp hl)
    | some v => rfl
  · rename_i hmem
    rw [Value.lookup_eq_none.mpr hmem]
    rfl

theorem rowContextId_withContextId (model : Model) (contextId : String) (row : Value) :
    rowContextId model (withContextId (.str contextId) row) =
      if "contextId" ∈ row.entries.map Prod.fst then rowContextId model row else some contextId := by
  unfold rowContextId
  rw [get_withContextId]
  by_cases hmem : "contextId" ∈ row.entries.map Prod.fst
  · rw [if_pos hmem, if_pos hmem]
  · rw [if_neg hmem, if_neg hmem]

/-- A `where` with the tenant set last picks rows of the tenant only. -/
theorem Client.Documented.confines {Row : Type} {client : Client Row} (hd : client.Documented)
    {model : Model} {contextId : String} {condition : Value} {row : Row}
    (hs : client.selects model (condition.set "contextId" (.str contextId)) row) :
    client.contextId row = contextId := by
  have hp := hs "contextId" (Value.mem_keys_set _ _ _)
  rw [Value.get_set, if_pos rfl] at hp
  exact (hd model contextId row).mp hp

/-! The rewritten arguments. -/

section
variable {Row : Type} {client : Client Row} {contextId : String} {model : Model}

/-- Rows that were given the tenant are of another one only by stating it. -/
theorem rewritten_rows (rows : List Value) :
    (∀ data ∈ rows.map (withContextId (.str contextId)), ∀ s, rowContextId model data = some s →
      s = contextId) ↔
    ∀ data ∈ rows, "contextId" ∈ data.entries.map Prod.fst → ∀ s, rowContextId model data = some s →
      s = contextId := by
  rw [List.forall_mem_map]
  refine forall₂_congr fun data _ => ?_
  rw [rowContextId_withContextId]
  split
  · rename_i hmem
    exact ⟨fun h _ => h, fun h => h hmem⟩
  · rename_i hmem
    exact ⟨fun _ h => absurd h hmem, fun _ s h => (Option.some.inj h).symm⟩

/-- The rows to create get the tenant, whichever operation creates them. -/
theorem created_injectArgs {operation : Operation} (hop : operation ≠ .createManyAndReturn)
    (args : Value) :
    created operation (injectArgs operation args (.str contextId)) =
      (created operation args.orEmpty).map (withContextId (.str contextId)) := by
  cases operation with
  | create => simp [created, injectArgs, Value.get_set]
  | createMany => simp [created, injectArgs, Value.get_set, Value.toRows]
  | createManyAndReturn => exact absurd rfl hop
  | upsert => simp [created, injectArgs, whereOperations, Value.get_set]
  | _ => rfl

/-- What is written over the rows picked is passed on as it comes. -/
theorem updated_injectArgs (operation : Operation) (args contextId : Value) :
    updated operation (injectArgs operation args contextId) = updated operation args.orEmpty := by
  cases operation with
  | update => simp [updated, injectArgs, whereOperations, Value.get_set]
  | updateMany => simp [updated, injectArgs, whereOperations, Value.get_set]
  | upsert => simp [updated, injectArgs, whereOperations, Value.get_set]
  | _ => rfl

/-- A `where` gets the tenant, whichever listed operation picks rows by it. -/
theorem where_injectArgs {operation : Operation} (hs : operation.selects = true)
    (hop : operation ≠ .updateManyAndReturn) (args : Value) :
    (injectArgs operation args (.str contextId)).get "where" =
      (args.orEmpty.get "where").set "contextId" (.str contextId) := by
  cases operation with
  | create => cases hs
  | createMany => cases hs
  | createManyAndReturn => cases hs
  | updateManyAndReturn => exact absurd rfl hop
  | _ => simp [injectArgs, whereOperations, Value.get_set]

/-- What the rewritten arguments confine, told from the caller's own. -/
theorem confined_injectArgs_iff (hd : client.Documented) (operation : Operation) (args : Value) :
    Confined client contextId model operation (injectArgs operation args (.str contextId)) ↔
      Harmless client contextId model operation args.orEmpty := by
  have hmove : (∀ data ∈ updated operation (injectArgs operation args (.str contextId)), ∀ s,
      movedTo data = some s → s = contextId) ↔
      ∀ data ∈ updated operation args.orEmpty, ∀ s, movedTo data = some s → s = contextId := by
    rw [updated_injectArgs]
  by_cases hcreate : operation = .createManyAndReturn
  · subst hcreate
    constructor
    · intro hc
      exact ⟨nofun, hmove.mp hc.kept, fun data hm _ => hc.inserted data hm⟩
    · intro hh
      exact ⟨nofun, hmove.mpr hh.move, fun data hm => hh.insert data hm (.inl rfl)⟩
  by_cases hupdate : operation = .updateManyAndReturn
  · subst hupdate
    constructor
    · intro hc
      exact ⟨fun _ => hc.picked rfl, hmove.mp hc.kept, nofun⟩
    · intro hh
      exact ⟨fun _ => hh.update rfl, hmove.mpr hh.move, nofun⟩
  have hinsert : (∀ data ∈ created operation (injectArgs operation args (.str contextId)), ∀ s,
      rowContextId model data = some s → s = contextId) ↔
      ∀ data ∈ created operation args.orEmpty, "contextId" ∈ data.entries.map Prod.fst → ∀ s,
        rowContextId model data = some s → s = contextId := by
    rw [created_injectArgs hcreate, rewritten_rows]
  constructor
  · intro hc
    refine ⟨fun h => absurd h hupdate, hmove.mp hc.kept, ?_⟩
    intro data hm hk
    exact hinsert.mp hc.inserted data hm (hk.resolve_left hcreate)
  · intro hh
    refine ⟨?_, hmove.mpr hh.move, hinsert.mpr fun data hm hk => hh.insert data hm (.inr hk)⟩
    intro hs row hsel
    rw [where_injectArgs hs hupdate] at hsel
    exact hd.confines hsel

end

/-! Calls. -/

/-- With an active tenant a call sends its operation once, rewritten for that tenant. -/
theorem allOperations_active {store : Option TenantStore} {contextId : String} {model : Model}
    (hactive : activeContextId store = some contextId) (hm : model ∈ tenantScopedModels)
    (inside : Bool) (operation : Operation) (args : Value) :
    allOperations store inside model operation args =
      .ok ((if inside then [] else [.setConfig contextId]) ++
        [.query model operation (injectArgs operation args (.str contextId))]) := by
  have haccess : ∀ e, resolveTenantAccess store model operation e =
      .ok (.enforce (.str contextId)) := by
    intro e
    unfold resolveTenantAccess
    rw [hactive]
    cases store with
    | none => cases hactive
    | some st => rfl
  have hinside : insideTransaction store model operation args =
      .ok [.query model operation (injectArgs operation args (.str contextId))] := by
    unfold insideTransaction rewriting
    rw [if_neg (not_not.mpr hm), haccess]
    rfl
  unfold allOperations
  split
  · exact hinside
  · unfold rewriting
    rw [if_neg (not_not.mpr hm), haccess]
    change runManagedTransaction store (insideTransaction store model operation args) = _
    unfold runManagedTransaction
    rw [hinside, hactive]
    rfl

/-- A call with an active tenant reaches, keeps and creates rows of that tenant only, exactly
when its arguments are harmless: neither a row to create nor the data of an update states
another tenant, and `createManyAndReturn` and `updateManyAndReturn`, which are not rewritten,
are given rows and a `where` of the tenant. -/
theorem confined_iff {Row : Type} (client : Client Row) (hd : client.Documented)
    (store : Option TenantStore) (contextId : String)
    (hactive : activeContextId store = some contextId) (inside : Bool) (model : Model)
    (hm : model ∈ tenantScopedModels) (operation : Operation) (args : Value) :
    (∀ sent, allOperations store inside model operation args = .ok sent →
      ∀ model' operation' args', .query model' operation' args' ∈ sent →
        Confined client contextId model' operation' args') ↔
    Harmless client contextId model operation args.orEmpty := by
  rw [allOperations_active hactive hm, ← confined_injectArgs_iff hd]
  constructor
  · intro h
    exact h _ rfl _ _ _ (by simp)
  · rintro h sent ⟨⟩ model' operation' args' hq
    have hq : Sent.query model' operation' args' =
        .query model operation (injectArgs operation args (.str contextId)) := by
      rcases List.mem_append.mp hq with hq | hq
      · cases inside
        · cases List.mem_singleton.mp hq
        · cases hq
      · exact List.mem_singleton.mp hq
    cases hq
    exact h

namespace Demo

/-- Rows that are nothing but their tenant, and no condition but the one on it. -/
def client : Client String :=
  { contextId := id
    passes := fun _ key v row => key = "contextId" → ∀ s, v = .str s → row = s }

theorem documented : client.Documented := by
  intro model s row
  constructor
  · intro h
    exact h rfl s rfl
  · rintro rfl - s ⟨⟩
    rfl

def store : Option TenantStore := some ⟨some "bazar"⟩

/-- A caller that renames the products of another business, as if they were its own. -/
def foreignWhere : Value :=
  .obj [("where", .obj [("contextId", .str "other")]),
    ("data", .obj [("name", .str "Mug"), ("contextId", .obj [("set", .str "bazar")])])]

/-- A caller that creates a product of another business. -/
def foreignData : Value := .obj [("data", .obj [("name", .str "Mug"), ("contextId", .str "other")])]

end Demo

theorem confined_iff_where :
    Confined Demo.client "bazar" .Product .updateMany
      (injectArgs .updateMany Demo.foreignWhere (.str "bazar")) := by
  have hmoved : movedTo (Demo.foreignWhere.get "data") = some "bazar" := by decide
  refine (confined_iff Demo.client Demo.documented Demo.store "bazar" (by decide) true .Product
    (by decide) .updateMany Demo.foreignWhere).mpr ⟨nofun, ?_, nofun⟩ _
      (allOperations_active rfl (by decide) true .updateMany Demo.foreignWhere) _ _ _
      (List.mem_singleton.mpr rfl)
  intro data hm s hs
  rw [List.mem_singleton.mp hm] at hs
  exact (Option.some.inj (hmoved.symm.trans hs)).symm

/-- The row is created in the other business. -/
theorem confined_foreign_create :
    activeContextId Demo.store = some "bazar" ∧
      ∃ args, allOperations Demo.store true .Product .create Demo.foreignData =
          .ok [.query .Product .create args] ∧
        rowContextId .Product (args.get "data") = some "other" ∧
        ¬ Confined Demo.client "bazar" .Product .create args := by
  have hrow : rowContextId .Product ((injectArgs .create Demo.foreignData (.str "bazar")).get "data") =
      some "other" := by decide
  refine ⟨by decide, _, allOperations_active rfl (by decide) true .create Demo.foreignData, hrow, ?_⟩
  intro hc
  exact absurd (hc.inserted _ (List.mem_singleton.mpr rfl) _ hrow) (by decide)

end Bazar.Tenant
