import StreamTable.Proofs.Table.OncePerRecord
import StreamTable.Proofs.Table.StoredRows

/-!
# Addresses of created documents

A table generates an address for a document only if its values store nothing or `null` in the field
`id`, and it deletes a document at the text in this field.  So a document that is created for values
has an address exactly if the values store a text, `null` or nothing there
(`Values.FitsAddress`, `Document.isSome_id?_ofValues_iff`); an integer, a float, a truth value, an
array or a record in the field is kept, but it addresses nothing.

`Table.created_addressed` says this of every document that is created for a batch, and that the
deletion of documents with addresses only fails where the store refuses it.
-/

namespace StreamTable

open Operation PendingInsert
open Document (idField ofValues hasId)

/-! ### The address of a new document -/

/-- What the values store in the field `id`, if anything, is a text or `null`. -/
def Values.FitsAddress (values : Values) : Prop :=
  ∀ v, values.get? idField = some v → v.toJson.isNull = true ∨ ∃ s, v.toJson = .string s

namespace Document

variable {values : Values}

/-- A record brings its own address just if it gives the field of addresses a datum other than null.
-/
theorem hasId_eq (values : Values) :
    hasId values = (values.get? idField).elim false fun v => !v.toJson.isNull := by
  rw [hasId, get?_storedFields]
  cases values.get? idField <;> rfl

/-- Where no address is generated, it is the text that the values store, if they store one. -/
theorem id?_ofValues_of_hasId (h : hasId values = true) (fresh : String) :
    (ofValues values fresh).id? = values.text? idField := by
  rw [ofValues, if_pos h, id?, get?, get?_storedFields, Values.text?]
  cases values.get? idField <;> rfl

/-- A new document is addressed by the text that its values store, or else by the generated
identifier. -/
theorem id?_ofValues_of_fits (h : values.FitsAddress) (fresh : String) :
    (ofValues values fresh).id? = some ((values.text? idField).getD fresh) := by
  have present := hasId_eq values
  cases stored : values.get? idField with
  | none =>
    have untold : values.text? idField = none := by rw [Values.text?, stored, Option.bind_none]
    rw [stored, Option.elim_none] at present
    rw [id?_ofValues present, untold, Option.getD_none]
  | some v =>
    have told : values.text? idField = v.toJson.string? := by
      rw [Values.text?, stored, Option.bind_some]
    rw [stored, Option.elim_some] at present
    rcases h v stored with null | ⟨s, text⟩
    · have untold : v.toJson.string? = none := by
        cases hv : v.toJson <;> rw [hv] at null <;> first | rfl | cases null
      rw [null] at present
      rw [id?_ofValues present, told, untold, Option.getD_none]
    · rw [text] at present told
      rw [id?_ofValues_of_hasId present, told]
      rfl

/-- Any other datum in the field `id` stays there and addresses nothing. -/
theorem id?_ofValues_of_not_fits (h : ¬ values.FitsAddress) (fresh : String) :
    (ofValues values fresh).id? = none := by
  unfold Values.FitsAddress at h
  push Not at h
  obtain ⟨v, stored, notNull, notText⟩ := h
  have present : hasId values = true := by
    rw [hasId_eq, stored, Option.elim_some, Bool.eq_false_of_not_eq_true notNull, Bool.not_false]
  rw [id?_ofValues_of_hasId present, Values.text?, stored, Option.bind_some]
  cases hv : v.toJson with
  | string s => exact absurd hv (notText s)
  | _ => rfl

/-- A created document can be addressed just if its record has a text or null in the field of
addresses, or lacks it. -/
theorem isSome_id?_ofValues_iff (values : Values) (fresh : String) :
    (ofValues values fresh).id?.isSome = true ↔ values.FitsAddress := by
  by_cases h : values.FitsAddress
  · rw [id?_ofValues_of_fits h]
    exact iff_of_true rfl h
  · rw [id?_ofValues_of_not_fits h]
    exact iff_of_false Bool.false_ne_true h

end Document

namespace Table

variable {σ : Type} (t : Table σ)

/-- The address of a document that was created for some values. -/
structure Addresses (values : Values) (d : Document) : Prop where
  /-- There is one exactly if the field `id` of the values is stored as a text, as `null` or not at
  all. -/
  isSome_iff : d.id?.isSome = true ↔ values.FitsAddress
  /-- It is the text of the values, or else a generated identifier. -/
  address : values.FitsAddress → ∃ n, d.id? = some ((values.text? idField).getD (t.freshIds n))

/-- The document that is made from a record has the address that the record asks for. -/
theorem addresses_ofValues (values : Values) (n : Nat) :
    t.Addresses values (ofValues values (t.freshIds n)) where
  isSome_iff := Document.isSome_id?_ofValues_iff values _
  address h := ⟨n, Document.id?_ofValues_of_fits h _⟩

/-! ### Documents of a batch -/

/-- One document is created for every row that is as long as the schema. -/
theorem addresses_created_writeBatch (index : Nat) (rows : List Row) (w : World σ) :
    List.Forall₂ (fun row d => ∃ values, t.schema.bind row = .ok values ∧ t.Addresses values d)
      (rows.filter fun row => row.length = t.schema.length)
      (t.writeBatch .add t.addRecord index rows w).trace.created := by
  induction rows generalizing index w with
  | nil => exact .nil
  | cons row rows ih =>
    obtain ⟨w', split⟩ := t.created_writeBatch_cons index row rows w
    rw [split]
    by_cases arity : row.length = t.schema.length
    · have bound : t.schema.bind row = .ok (.ofPairs (t.schema.names.zip row)) := if_pos arity
      obtain ⟨n, created⟩ := created_addRecord bound w
      rw [List.filter_cons_of_pos (by simpa using arity), created]
      exact .cons ⟨_, bound, t.addresses_ofValues _ n⟩ (ih (index + 1) w')
    · obtain ⟨e, run⟩ := t.addRecord_of_length_ne w arity
      rw [List.filter_cons_of_neg (by simpa using arity), run]
      exact ih (index + 1) w'

/-- The documents that are created for waiting records have the addresses that the records ask for.
-/
theorem addresses_of_inserts {ps : List PendingInsert} {creates : Trace}
    (h : t.Inserts ps creates) :
    List.Forall₂ (fun p d => t.Addresses p.values d) ps creates.created := by
  induction h with
  | nil => exact .nil
  | cons here _ ih =>
    obtain ⟨n, answer, rfl⟩ := here
    exact .cons (t.addresses_ofValues _ n) ih

variable (c : CompiledCondition) (clauses : List SetClause)

/-- The documents that a batch of updates or insertions creates are those of the waiting rows. -/
theorem addresses_created_upsertBatch (rs : List UpsertRecord) (w : World σ) :
    List.Forall₂ (fun p d => t.Addresses p.values d) (t.upsertAll c clauses 0 [] rs w).value.2
      (t.upsertBatch c clauses rs w).trace.created := by
  obtain ⟨creates, requests, inserts⟩ := t.requests_upsertBatch c clauses w rs
  -- While the records are handled nothing is created.
  have earlier : Trace.created ((t.handledUpserts c clauses 0 [] rs w).flatMap
      (·.run.trace.requests)) = [] := by
    refine List.filterMap_eq_nil_iff.2 fun a ha => ?_
    obtain ⟨u, mem, here⟩ := List.mem_flatMap.1 ha
    obtain ⟨i, handled⟩ := t.exists_handles_of_mem c clauses w mem
    have kind := handled.isQuery_or_isReplace a here
    cases a with
    | create container d answer => simp [Action.isQuery, Action.isReplace] at kind
    | _ => rfl
  rw [← Trace.created_requests, requests, Trace.created_append, earlier, List.nil_append]
  exact t.addresses_of_inserts inserts

/-! ### Deletion -/

/-- A document with an address is deleted there, and the answer is that of the store. -/
theorem remove_of_id? {d : Document} {id : String} (h : d.id? = some id) (w : World σ) :
    ∃ answer, (t.remove d w).trace = [.delete t.container id answer] ∧
      (t.remove d w).value = answer.mapError .backend := by
  unfold remove
  rw [h]
  exact ⟨_, rfl, rfl⟩

/-- A document without an address is not deleted, and the store is not asked. -/
theorem remove_of_id?_eq_none {d : Document} (h : d.id? = none) (w : World σ) :
    t.remove d w = ⟨.error (.backend .missingId), [], w⟩ := by
  unfold remove
  rw [h]
  rfl

/-- If documents have addresses, their deletion can only fail because the store refuses it. -/
theorem refused_removeEach {ds : List Document} (h : ∀ d ∈ ds, d.id?.isSome = true) (n : Nat)
    (w : World σ) : ∀ e ∈ (writeEach t.remove n ds w).value.failure, ∃ id b,
      .delete t.container id (.error b) ∈ (writeEach t.remove n ds w).trace ∧ e = .backend b := by
  -- A document is only reached when the store granted the deletion of those before it.
  induction ds generalizing n w with
  | nil =>
    intro e he
    cases he
  | cons d ds ih =>
    obtain ⟨here, rest⟩ := List.forall_mem_cons.1 h
    obtain ⟨id, address⟩ := Option.isSome_iff_exists.1 here
    obtain ⟨answer, asked, result⟩ := t.remove_of_id? address w
    intro e he
    unfold writeEach at he ⊢
    rw [value_bind, result] at he
    rw [trace_bind, result, asked]
    cases answer with
    | ok u =>
      obtain ⟨id', b, mem, same⟩ := ih rest (n + 1) (t.remove d w).world e he
      exact ⟨id', b, List.mem_append_right _ mem, same⟩
    | error b =>
      cases he
      exact ⟨id, b, List.mem_append_left _ (List.mem_singleton_self _), rfl⟩

/-- If all documents that were matched can be addressed, a deletion fails only where the store
refuses one. -/
theorem refused_deleteRecord {values : Values} {ds : List Document} {w : World σ}
    (matched : (t.matching c values w).value = .ok ds) (h : ∀ d ∈ ds, d.id?.isSome = true) :
    ∀ e ∈ (t.deleteRecord c values w).value.failure, ∃ id b,
      .delete t.container id (.error b) ∈ (t.deleteRecord c values w).trace ∧ e = .backend b := by
  unfold deleteRecord
  rw [value_bind, trace_bind, matched]
  intro e he
  obtain ⟨id, b, mem, same⟩ := t.refused_removeEach h 0 _ e he
  exact ⟨id, b, List.mem_append_right _ mem, same⟩

/-- Every document that a table creates, for a row that it adds or for a row that waited, has an
address exactly if its values store a text, `null` or nothing in the field `id`: this text, or else
a generated identifier.  Documents with addresses are deleted unless the store refuses it, and a
document without one never is. -/
theorem created_addressed (w : World σ) :
    (∀ rows : List Row,
      List.Forall₂ (fun row d => ∃ values, t.schema.bind row = .ok values ∧ t.Addresses values d)
        (rows.filter fun row => row.length = t.schema.length) (t.add rows w).trace.created) ∧
    (∀ batch setValues rows, batch.length = setValues.length → batch.length = rows.length →
      List.Forall₂ (fun p d => t.Addresses p.values d)
        (t.upsertAll c clauses 0 [] (upsertRecords batch setValues rows) w).value.2
        (t.updateOrAdd c clauses batch setValues rows w).trace.created) ∧
    (∀ values ds, (t.matching c values w).value = .ok ds → (∀ d ∈ ds, d.id?.isSome = true) →
      ∀ e ∈ (t.deleteRecord c values w).value.failure, ∃ id b,
        .delete t.container id (.error b) ∈ (t.deleteRecord c values w).trace ∧ e = .backend b) ∧
    ∀ d : Document, d.id? = none → t.remove d w = ⟨.error (.backend .missingId), [], w⟩ := by
  refine ⟨fun rows => ?_, fun batch setValues rows hs hr => ?_,
    fun values ds => t.refused_deleteRecord c, fun d h => t.remove_of_id?_eq_none h w⟩
  · rw [created_add]
    exact t.addresses_created_writeBatch 0 rows w
  · have batchwise := t.addresses_created_upsertBatch c clauses
      (upsertRecords batch setValues rows) w
    rw [t.updateOrAdd_of_length c clauses batch setValues hs hr, trace_map,
      ← Trace.created_requests, requests_reported, Trace.created_requests]
    exact batchwise

/-- A table with integers in the field `id`, in a store that finds all documents. -/
def accounts : Table (List Document) where
  definition := ⟨"Accounts", [⟨"id", .long⟩]⟩
  collection := "Accounts"
  container := "/dbs/db/colls/Accounts"
  backend := {
    query := fun _ _ ds => (.ok ds, ds)
    create := fun _ d ds => (.ok (), ds ++ [d])
    replace := fun _ _ ds => (.ok (), ds)
    delete := fun _ id ds => (.ok (), ds.filter fun d => d.id? ≠ some id) }
  freshIds := fun n => toString n

/-- The document of a row with the address 5 is created without an address, so it is found but
cannot be deleted. -/
theorem not_addressed_accounts :
    [Value.long 5].length = accounts.schema.length ∧
    let added := accounts.add [[.long 5]] ⟨[], 0⟩
    let deleted := accounts.delete .everyRecord [[]] added.world
    added.trace.created.map Document.id? = [none] ∧
      deleted.value.failures = [⟨0, .backend .missingId⟩] := by
  refine ⟨rfl, rfl, rfl⟩

end Table

end StreamTable
