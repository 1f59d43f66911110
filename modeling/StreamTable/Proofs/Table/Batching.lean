import Mathlib.Data.List.Forall2
import StreamTable.Proofs.Table.Accounting
import StreamTable.Proofs.Table.KeyedRecords

/-!
# Batches of records with a key

`Table.updateOrAdd` on a batch lets rows wait and merges later records into them; called for each
record alone (`Table.updateOrAddEach`) it always finds the documents in the store.  If the records
have a key, both come to the same documents: those that `Contents.upsertAll` tells
(`updateOrAdd_perm_upsertAll`).

On a batch the store holds the documents that were there from the start, and the waiting rows are
the rows of the contents (`Table.Defers`), until all rows are inserted; called for each record, the
store always holds the documents and the rows (`Table.Holds`).  Either is kept by the handling of a
record.
-/

namespace StreamTable

open Document Operation

namespace Table

variable {σ : Type} {t : Table σ} {c : CompiledCondition} {clauses : List SetClause}
  {field : String} {documents : σ → List Document} {q : Contents} {n : Nat} {w : World σ}

/-- Update or insert for every record of a batch alone. -/
def updateOrAddEach (t : Table σ) (c : CompiledCondition) (clauses : List SetClause) :
    List UpsertRecord → Operation σ Unit
  | [] => return ()
  | r :: rs => do
    let _ ← t.updateOrAdd c clauses [r.values] [r.set] [r.row]
    t.updateOrAddEach c clauses rs

/-- The store holds the contents; so many identifiers were generated before the rows. -/
structure Holds (t : Table σ) (documents : σ → List Document) (q : Contents) (n : Nat)
    (w : World σ) : Prop where
  documents : (documents w.store).Perm (q.documents t.freshIds n)
  issued : w.issued = n + q.rows.length

/-- The store holds the documents of the contents, and the rows wait. -/
structure Defers (documents : σ → List Document) (q : Contents) (n : Nat)
    (pending : List PendingInsert) (w : World σ) : Prop where
  documents : (documents w.store).Perm q.kept
  rows : pending.map (·.values) = q.rows
  issued : w.issued = n

/-! ### Insertion -/

section

variable (faithful : t.backend.Faithful t.id t.container field documents)
  (addressed : Addressed q.kept) (fresh : Fresh t.freshIds n q.kept)

include faithful addressed fresh

/-- A creation adds the row to the documents that are held, under the next fresh address. -/
theorem create_of_holds (holds : t.Holds documents q n w) {v : Values}
    (plain : ∀ u ∈ (q.insert v).rows, hasId u = false) :
    t.Holds documents (q.insert v) n (t.create v w).world := by
  let d := Document.ofValues v (t.freshIds w.issued)
  have inserted : (q.insert v).documents t.freshIds n = q.documents t.freshIds n ++ [d] := by
    rw [Contents.documents_insert, ← holds.issued]
  have next : (q.documents t.freshIds n ++ [d]).Perm (d :: q.documents t.freshIds n) :=
    List.perm_append_singleton _ _
  have all : Addressed ((q.insert v).documents t.freshIds n) :=
    Contents.addressed_documents addressed fresh plain
  rw [inserted] at all
  have hv : hasId v = false := plain v (List.mem_append_right _ List.mem_cons_self)
  obtain ⟨_, issued, created⟩ :=
    t.create_of_faithful faithful hv (all.perm next.symm) holds.documents
  constructor
  · rw [inserted]
    exact created.trans next.symm
  · rw [issued, holds.issued, Contents.insert, List.length_append]
    rfl

/-- The second pass adds the waiting rows to the documents that are held, in their order. -/
theorem insertPending_of_holds (holds : t.Holds documents q n w) (ps : List PendingInsert)
    (plain : ∀ u ∈ q.rows ++ ps.map (·.values), hasId u = false) :
    t.Holds documents ⟨q.kept, q.rows ++ ps.map (·.values)⟩ n (t.insertPending ps w).world := by
  induction ps generalizing q w with
  | nil =>
    rw [List.map_nil, List.append_nil]
    exact holds
  | cons p ps ih =>
    have shift : q.rows ++ (p :: ps).map (·.values) =
        (q.insert p.values).rows ++ ps.map (·.values) := by
      rw [Contents.insert, List.append_assoc]
      rfl
    rw [shift] at plain ⊢
    have created := create_of_holds faithful addressed fresh holds fun u hu =>
      plain u (List.mem_append_left _ hu)
    rw [(t.value_insertPending_cons p ps w).2]
    exact ih (q := q.insert p.values) addressed fresh created plain

end

/-! ### Batches -/

/-- What the handling of a record that means `k` does to the contents. -/
theorem upsertRecord_of_defers {r : UpsertRecord} {k : KeyedRecord}
    (keyed : t.Keyed c field documents) (means : UpsertRecord.Means t.schema clauses field r k)
    (valid : k.Valid field) (hq : q.Valid field) (addressed : Addressed q.kept) (index : Nat)
    {pending : List PendingInsert} (defers : Defers documents q n pending w) :
    let step := t.upsertRecord c clauses index r pending w
    Defers documents (q.upsert field k) n step.value.pending step.world := by
  intro step
  -- A row of the key waits, or else the store is asked for the documents of the key.
  by_cases row : ∃ v ∈ q.rows, v.text? field = some k.key
  · obtain ⟨v, hv, key⟩ := row
    obtain ⟨pending', merged, values⟩ :=
      mergePending?_of_row keyed means hq defers.rows hv key
    have unfolded : step = ⟨⟨some { written := 0 }, pending'⟩, [], w⟩ := by
      simp only [step]
      unfold upsertRecord
      rw [merged]
      rfl
    rw [unfolded, Contents.upsert_of_row hq hv key]
    exact ⟨defers.documents, values, defers.issued⟩
  · have noRow : ∀ v ∈ q.rows, v.text? field ≠ some k.key := fun v hv key => row ⟨v, hv, key⟩
    have unfolded : step = t.updateOrWait c clauses index r pending w := by
      simp only [step]
      unfold upsertRecord
      rw [mergePending?_of_noRow keyed means hq defers.rows noRow]
    obtain ⟨waiting, issued, stored⟩ :=
      updateOrWait_of_means keyed means valid addressed defers.documents index pending
    rw [unfolded, Contents.upsert_of_noRow noRow]
    split at waiting
    · next held =>
      rw [if_pos held] at stored ⊢
      refine ⟨stored, ?_, issued.trans defers.issued⟩
      rw [waiting]
      exact defers.rows
    · next held =>
      rw [if_neg held] at stored ⊢
      refine ⟨stored, ?_, issued.trans defers.issued⟩
      rw [waiting, List.map_append, defers.rows]
      rfl

/-- The first pass as a whole: it brings the documents and the waiting rows to where the records,
taken one after the other, bring the contents, and it hands out no address. -/
theorem upsertAll_of_defers {rs : List UpsertRecord} {ks : List KeyedRecord}
    (keyed : t.Keyed c field documents)
    (means : List.Forall₂ (UpsertRecord.Means t.schema clauses field) rs ks)
    (valid : ∀ k ∈ ks, k.Valid field) (hq : q.Valid field) (addressed : Addressed q.kept)
    (index : Nat) {pending : List PendingInsert} (defers : Defers documents q n pending w) :
    let run := t.upsertAll c clauses index pending rs w
    Defers documents (q.upsertAll field ks) n run.value.2 run.world := by
  induction means generalizing q index pending w with
  | nil => exact defers
  | @cons r k rs ks first means ih =>
    intro run
    obtain ⟨hk, valid⟩ := List.forall_mem_cons.1 valid
    have addressed' := addressed.of_map_id? (Contents.map_id?_upsert (q := q) hk)
    have step := upsertRecord_of_defers keyed first hk hq addressed index defers
    obtain ⟨value, world⟩ := t.value_upsertAll_cons c clauses index pending r rs w
    simp only [run, value, world]
    exact ih valid (hq.upsert hk) addressed' (index + 1) step

/-- The rows wait until all records were handled, and then they are inserted. -/
theorem holds_upsertBatch {rs : List UpsertRecord} {ks : List KeyedRecord}
    (keyed : t.Keyed c field documents)
    (means : List.Forall₂ (UpsertRecord.Means t.schema clauses field) rs ks)
    (valid : ∀ k ∈ ks, k.Valid field) (addressed : Addressed (documents w.store))
    (fresh : Fresh t.freshIds w.issued (documents w.store)) :
    t.Holds documents (Contents.upsertAll field ⟨documents w.store, []⟩ ks) w.issued
      (t.upsertBatch c clauses rs w).world := by
  let start : Contents := ⟨documents w.store, []⟩
  let final : Contents := start.upsertAll field ks
  let run := t.upsertAll c clauses 0 [] rs w
  have defers : Defers documents final w.issued run.value.2 run.world :=
    upsertAll_of_defers keyed means valid (Contents.valid_nil _) addressed 0 ⟨.rfl, rfl, rfl⟩
  have same : final.kept.map id? = (documents w.store).map id? := Contents.map_id?_upsertAll valid
  have plain : ∀ v ∈ run.value.2.map (·.values), hasId v = false := by
    rw [defers.rows]
    exact ((Contents.valid_nil _).upsertAll valid).plain
  -- Up to here no row has an address: the store holds the documents alone.
  have noRows : t.Holds documents ⟨final.kept, []⟩ w.issued run.world := by
    constructor
    · simpa [Contents.documents, numbered] using defers.documents
    · exact defers.issued
  have inserted := insertPending_of_holds (q := ⟨final.kept, []⟩) keyed.faithful
    (addressed.of_map_id? same) (fresh.of_map_id? same) noRows run.value.2 plain
  rw [List.nil_append, defers.rows] at inserted
  exact inserted

/-! ### Single records -/

/-- Records that are given field by field are the same records again. -/
theorem map_upsertRecords (rs : List UpsertRecord) :
    upsertRecords (rs.map (·.values)) (rs.map (·.set)) (rs.map (·.row)) = rs := by
  induction rs with
  | nil => rfl
  | cons r rs ih => exact congrArg (r :: ·) ih

/-- The world after an update or addition is that after its two passes, as the events do not touch
it. -/
theorem world_updateOrAdd (t : Table σ) (c : CompiledCondition) (clauses : List SetClause)
    (rs : List UpsertRecord) (w : World σ) :
    (t.updateOrAdd c clauses (rs.map (·.values)) (rs.map (·.set)) (rs.map (·.row)) w).world =
      (t.upsertBatch c clauses rs w).world := by
  have hs : (rs.map (·.values)).length = (rs.map (·.set)).length := by simp
  have hr : (rs.map (·.values)).length = (rs.map (·.row)).length := by simp
  rw [t.updateOrAdd_of_length c clauses _ _ hs hr, map_upsertRecords]
  rfl

/-- No row waits for a record that comes alone. -/
theorem world_updateOrAdd_singleton (r : UpsertRecord) :
    (t.updateOrAdd c clauses [r.values] [r.set] [r.row] w).world =
      let step := t.updateOrWait c clauses 0 r [] w
      (t.insertPending step.value.pending step.world).world := by
  have noneWaits : t.upsertRecord c clauses 0 r [] = t.updateOrWait c clauses 0 r [] := by
    unfold upsertRecord mergePending?
    cases c.inMemoryFilter <;> rfl
  obtain ⟨value, world⟩ := t.value_upsertAll_cons c clauses 0 [] r [] w
  have batch := t.world_updateOrAdd c clauses [r] w
  refine batch.trans ?_
  show (t.insertPending (t.upsertAll c clauses 0 [] [r] w).value.2
    (t.upsertAll c clauses 0 [] [r] w).world).world = _
  rw [value, world, noneWaits]
  rfl

/-- A single record, updated or added by itself, takes the contents that are held one step further.
-/
theorem holds_updateOrAdd {r : UpsertRecord} {k : KeyedRecord}
    (keyed : t.Keyed c field documents) (means : UpsertRecord.Means t.schema clauses field r k)
    (valid : k.Valid field) (hq : q.Valid field) (addressed : Addressed q.kept)
    (fresh : Fresh t.freshIds n q.kept) (holds : t.Holds documents q n w) :
    t.Holds documents (q.upsert field k) n
      (t.updateOrAdd c clauses [r.values] [r.set] [r.row] w).world := by
  let step := t.updateOrWait c clauses 0 r [] w
  have all : Addressed (q.documents t.freshIds n) :=
    Contents.addressed_documents addressed fresh hq.plain
  obtain ⟨waiting, issued, stored⟩ :=
    updateOrWait_of_means keyed means valid all holds.documents 0 []
  rw [Contents.any_documents keyed.field_ne] at waiting stored
  rw [world_updateOrAdd_singleton]
  have hv := (hq.upsert valid).plain
  unfold Contents.upsert at hv ⊢
  split at waiting
  · next held =>
    rw [if_pos held] at stored ⊢
    simp only [waiting]
    constructor
    · rw [Contents.documents_assign keyed.field_ne _ _ valid]
      exact stored
    · rw [Contents.assign, List.length_map, ← holds.issued]
      exact issued
  · next held =>
    rw [if_neg held] at stored hv ⊢
    -- The row that waits is the only one, and it is inserted at once.
    have unchanged : t.Holds documents q n step.world := ⟨stored, issued.trans holds.issued⟩
    simp only [waiting]
    exact insertPending_of_holds keyed.faithful addressed fresh unchanged [⟨0, k.row⟩] hv

/-- Records that are updated or added one by one take the contents that are held one step further
each. -/
theorem holds_updateOrAddEach {rs : List UpsertRecord} {ks : List KeyedRecord}
    (keyed : t.Keyed c field documents)
    (means : List.Forall₂ (UpsertRecord.Means t.schema clauses field) rs ks)
    (valid : ∀ k ∈ ks, k.Valid field) (hq : q.Valid field) (addressed : Addressed q.kept)
    (fresh : Fresh t.freshIds n q.kept) (holds : t.Holds documents q n w) :
    t.Holds documents (q.upsertAll field ks) n (t.updateOrAddEach c clauses rs w).world := by
  induction means generalizing q w with
  | nil => exact holds
  | @cons r k rs ks first means ih =>
    obtain ⟨hk, valid⟩ := List.forall_mem_cons.1 valid
    have same := Contents.map_id?_upsert (q := q) hk
    have held := holds_updateOrAdd keyed first hk hq addressed fresh holds
    exact ih valid (hq.upsert hk) (addressed.of_map_id? same) (fresh.of_map_id? same) held

/-! ### Batches and single records -/

/-- Every record of a batch means a keyed record. -/
theorem exists_forall₂_means {position : Nat} (nodup : t.schema.names.Nodup)
    (noId : idField ∉ t.schema.names) (there : t.schema[position]? = some ⟨field, .string⟩)
    (accepted : ∀ clause ∈ clauses, ∃ e, t.setClause clause.name e = .ok clause)
    (apart : ∀ clause ∈ clauses, clause.name ≠ field) {rs : List UpsertRecord}
    (bound : ∀ r ∈ rs, t.BindsKey clauses field position r) :
    ∃ ks, List.Forall₂ (UpsertRecord.Means t.schema clauses field) rs ks ∧
      ∀ k ∈ ks, k.Valid field := by
  induction rs with
  | nil => exact ⟨[], .nil, List.forall_mem_nil _⟩
  | cons r rs ih =>
    obtain ⟨hr, bound⟩ := List.forall_mem_cons.1 bound
    obtain ⟨k, first, valid⟩ := exists_means nodup noId there accepted apart hr
    obtain ⟨ks, means, valids⟩ := ih bound
    exact ⟨k :: ks, .cons first means, List.forall_mem_cons.2 ⟨valid, valids⟩⟩

/-- The condition that compares a text field with the attribute of its name looks records up by that
field, in the store as well as among the waiting rows. -/
theorem keyed_of_compile {type : AttributeType}
    (faithful : t.backend.Faithful t.id t.container field documents) (notId : field ≠ idField)
    (compiled : compile t.id .condition (.sameKey field type) = .ok c) :
    t.Keyed { c with inMemoryFilter := some (PendingFilter.same field).admits } field
      documents where
  faithful := faithful
  field_ne := notId
  resolves _ _ bound := resolve_of_sameKey compiled bound
  recognises := rfl
  merges := by
    rw [updateReducer_of_compile compiled]

/-- A batch of records with a key and its records one by one come to the same documents: those that
were there, as the records update them, and one for each row that is inserted.  Only the order of
the documents and the generated addresses can be different. -/
theorem updateOrAdd_perm_upsertAll {position : Nat} {type : AttributeType}
    (nodup : t.schema.names.Nodup) (noId : idField ∉ t.schema.names)
    (there : t.schema[position]? = some ⟨field, .string⟩)
    (compiled : compile t.id .condition (.sameKey field type) = .ok c)
    (accepted : ∀ clause ∈ clauses, ∃ e, t.setClause clause.name e = .ok clause)
    (apart : ∀ clause ∈ clauses, clause.name ≠ field)
    (faithful : t.backend.Faithful t.id t.container field documents)
    {rs : List UpsertRecord} (bound : ∀ r ∈ rs, t.BindsKey clauses field position r)
    {s : σ} (addressed : Addressed (documents s)) {ids ids' : Nat → String} {m n : Nat}
    (fresh : Fresh ids m (documents s)) (fresh' : Fresh ids' n (documents s)) :
    let keyed := { c with inMemoryFilter := some (PendingFilter.same field).admits }
    let named (ids : Nat → String) : Table σ := { t with freshIds := ids }
    let batch := (named ids).updateOrAdd keyed clauses (rs.map (·.values)) (rs.map (·.set))
      (rs.map (·.row)) ⟨s, m⟩
    let each := (named ids').updateOrAddEach keyed clauses rs ⟨s, n⟩
    ∃ ks, List.Forall₂ (UpsertRecord.Means t.schema clauses field) rs ks ∧
      let final := Contents.upsertAll field ⟨documents s, []⟩ ks
      (documents batch.world.store).Perm (final.documents ids m) ∧
        (documents each.world.store).Perm (final.documents ids' n) := by
  intro keyed named batch each
  have notId : field ≠ idField := by
    rintro rfl
    exact noId (List.mem_map_of_mem (List.mem_of_getElem? there))
  obtain ⟨ks, means, valid⟩ := exists_forall₂_means nodup noId there accepted apart bound
  have here (ids : Nat → String) : (named ids).Keyed keyed field documents :=
    keyed_of_compile faithful notId compiled
  -- Both ways end with the contents that the records make of what was stored; only the fresh
  -- addresses depend on the way.
  refine ⟨ks, means, ?_, ?_⟩
  · have held := holds_upsertBatch (w := ⟨s, m⟩) (here ids) means valid addressed fresh
    rw [← world_updateOrAdd] at held
    exact held.documents
  · have start : (named ids').Holds documents ⟨documents s, []⟩ n ⟨s, n⟩ := by
      constructor
      · exact .of_eq (List.append_nil _).symm
      · rfl
    have held :=
      holds_updateOrAddEach (here ids') means valid (Contents.valid_nil _) addressed fresh' start
    exact held.documents

/-- A table of prices by symbol, whose store finds documents by their symbols. -/
def stockTable : Table (List Document) where
  definition := ⟨"Stock", [⟨"symbol", .string⟩, ⟨"price", .int⟩]⟩
  collection := "Stock"
  container := "/dbs/db/colls/Stock"
  backend := listStore "Stock" "symbol"
  freshIds := fun n => .ofList ('n' :: List.replicate n 'n')

/-- A document of `stockTable`. -/
def stockDocument (id symbol : String) (price : Int) : Document :=
  ⟨[("id", .string id), ("price", .int price), ("symbol", .string symbol)]⟩

/-- A record of `stockTable`. -/
def stockRecord (symbol : String) (price : Int32) : UpsertRecord where
  values := [("symbol", .string symbol)]
  set := [("price", .int price)]
  row := [.string symbol, .int price]

/-- What a record of `stockTable` means. -/
def stockKeyed (symbol : String) (price : Int32) : KeyedRecord where
  key := symbol
  assignments := [("price", .int price)]
  row := [("price", .int price), ("symbol", .string symbol)]

/-- A stock record means its symbol as the key, and its price as what is assigned. -/
theorem means_stockRecord {clause : SetClause}
    (hc : stockTable.setClause "price" (.attribute "price" .int) = .ok clause) (symbol : String)
    (price : Int32) :
    UpsertRecord.Means stockTable.schema [clause] "symbol" (stockRecord symbol price)
      (stockKeyed symbol price) := by
  cases hc
  refine ⟨rfl, rfl, ?_⟩
  have order : "price" < "symbol" := by decide
  simp [stockTable, stockRecord, stockKeyed, Table.schema, Schema.bind, Schema.names,
    Members.ofPairs, Members.insert, order]

/-- A stock record binds its key under the name of the field, in the row and in the values of the
condition. -/
theorem bindsKey_stockRecord {clause : SetClause}
    (hc : stockTable.setClause "price" (.attribute "price" .int) = .ok clause) (symbol : String)
    (price : Int32) :
    stockTable.BindsKey [clause] "symbol" 0 (stockRecord symbol price) := by
  cases hc
  exact ⟨⟨symbol, rfl, rfl⟩, rfl, List.forall_mem_singleton.2 ⟨.int price, rfl⟩⟩

/-- The document that is stored at first can be addressed. -/
theorem addressed_stockDocument (symbol : String) (price : Int) :
    Addressed [stockDocument "a" symbol price] where
  isSome := List.forall_mem_singleton.2 rfl
  nodup := List.nodup_singleton _

/-- The addresses that are handed out are runs of one letter of different lengths, and the stored
one is not among them. -/
theorem fresh_stockTable (symbol : String) (price : Int) :
    Fresh stockTable.freshIds 0 [stockDocument "a" symbol price] where
  unused i _ := by
    intro mem
    have same : stockTable.freshIds i = "a" := Option.some.inj (List.mem_singleton.1 mem)
    have chars := congrArg String.toList same
    simp [stockTable] at chars
  injective i j _ _ same := by
    have chars := congrArg String.toList same
    simpa [stockTable] using congrArg List.length chars

/-- One symbol is stored, and another one comes twice: the batch merges its records. -/
theorem updateOrAdd_perm_upsertAll_stock :
    ∃ c clause, compile "Stock" .condition (.sameKey "symbol" .string) = .ok c ∧
      stockTable.setClause "price" (.attribute "price" .int) = .ok clause ∧
      let keyed := { c with inMemoryFilter := some (PendingFilter.same "symbol").admits }
      let rs := [stockRecord "A" 5, stockRecord "B" 1, stockRecord "B" 2, stockRecord "A" 7]
      let start : World (List Document) := ⟨[stockDocument "a" "A" 4], 0⟩
      let batch := stockTable.updateOrAdd keyed [clause] (rs.map (·.values)) (rs.map (·.set))
        (rs.map (·.row)) start
      let each := stockTable.updateOrAddEach keyed [clause] rs start
      batch.world.store.Perm [stockDocument "a" "A" 7, stockDocument "n" "B" 2] ∧
        each.world.store.Perm [stockDocument "a" "A" 7, stockDocument "n" "B" 2] := by
  obtain ⟨c, hc⟩ : ∃ c, compile "Stock" .condition (.sameKey "symbol" .string) = .ok c := ⟨_, rfl⟩
  obtain ⟨clause, hclause⟩ : ∃ clause,
      stockTable.setClause "price" (.attribute "price" .int) = .ok clause := ⟨_, rfl⟩
  have name : clause.name = "price" := by
    cases hclause
    rfl
  let rs := [stockRecord "A" 5, stockRecord "B" 1, stockRecord "B" 2, stockRecord "A" 7]
  have bound : ∀ r ∈ rs, stockTable.BindsKey [clause] "symbol" 0 r := by
    simp [rs, bindsKey_stockRecord hclause]
  have there : stockTable.schema[0]? = some ⟨"symbol", .string⟩ := rfl
  have accepted : ∀ cl ∈ [clause], ∃ e, stockTable.setClause cl.name e = .ok cl :=
    List.forall_mem_singleton.2 ⟨_, name ▸ hclause⟩
  have apart : ∀ cl ∈ [clause], cl.name ≠ "symbol" := by
    refine List.forall_mem_singleton.2 ?_
    rw [name]
    decide
  have faithful := faithful_listStore "Stock" "/dbs/db/colls/Stock" "symbol"
  obtain ⟨ks, means, batch, each⟩ := updateOrAdd_perm_upsertAll (by decide) (by decide) there hc
    accepted apart faithful bound (addressed_stockDocument "A" 4) (fresh_stockTable "A" 4)
    (fresh_stockTable "A" 4)
  let ks' := [stockKeyed "A" 5, stockKeyed "B" 1, stockKeyed "B" 2, stockKeyed "A" 7]
  have expected : List.Forall₂ (UpsertRecord.Means stockTable.schema [clause] "symbol") rs ks' := by
    simp [rs, ks', means_stockRecord hclause]
  obtain rfl : ks = ks' := List.right_unique_forall₂' (fun _ _ _ h h' => h.unique h') means expected
  have final : (Contents.upsertAll "symbol" ⟨[stockDocument "a" "A" 4], []⟩ ks').documents
      stockTable.freshIds 0 = [stockDocument "a" "A" 7, stockDocument "n" "B" 2] := by
    rfl
  exact ⟨c, clause, hc, hclause, final ▸ batch, final ▸ each⟩

end Table

end StreamTable
