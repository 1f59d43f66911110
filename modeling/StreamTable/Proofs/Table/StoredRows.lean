import StreamTable.Proofs.Cursor.Queue
import StreamTable.Proofs.Table.Handling
import StreamTable.Proofs.Table.KeyedRecords
import StreamTable.Proofs.Value.Stored

/-!
# Rows that are written and read

The document of a row holds each value in the field of its attribute, whatever identifier was
generated for it (`Schema.project_ofValues`).  So the documents that a table creates for a batch of
rows are read by a cursor as these rows (`Table.rows_add`).
-/

namespace StreamTable

open Document (idField ofValues hasId)

/-- The attribute admits the value: the value is null or of the declared type, it is neither a float
that is not finite nor the JSON datum `null`, and an address is given. -/
structure Attribute.Admits (a : Attribute) (v : Value) : Prop where
  typed : v = .null ∨ v.type? = some a.type
  finite : v.isNonFinite = false
  datum : v ≠ .object .null
  address : a.name = idField → v ≠ .null

/-! ### Documents of rows -/

namespace Document

/-- A field holds its value, unless it is the address and null. -/
theorem get?_ofValues_of_ne {values : Values} {name : String} {v : Value} (fresh : String)
    (h : values.get? name = some v) (address : name = idField → v.toJson.isNull = false) :
    (ofValues values fresh).get? name = some v.toJson := by
  by_cases hn : name = idField
  · subst hn
    have stored : (storedFields values).get? idField = some v.toJson := by
      rw [get?_storedFields, h]
      rfl
    have addressed : hasId values = true := by
      rw [hasId, stored]
      simp [address rfl]
    rw [ofValues, if_pos addressed]
    exact stored
  · rw [get?_ofValues hn, h]
    rfl

end Document

namespace Schema

variable {schema : Schema} {row : Row} {values : Values}

/-- The document of a row is projected to the row. -/
theorem project_ofValues (nodup : schema.names.Nodup)
    (admits : List.Forall₂ Attribute.Admits schema row) (h : schema.bind row = .ok values)
    (fresh : String) : schema.project (ofValues values fresh).fields = row := by
  have arity : row.length = schema.length := admits.length_eq.symm
  refine List.ext_getElem (by rw [project, List.length_map, arity]) fun i _ hi => ?_
  have hs : i < schema.length := arity ▸ hi
  have admitted : schema[i].Admits row[i] := admits.get hs hi
  obtain ⟨values', bound, get⟩ :=
    exists_bind nodup (List.getElem?_eq_getElem hs) arity (List.getElem?_eq_getElem hi)
  obtain rfl : values = values' := Except.ok.inj (h.symm.trans bound)
  -- The generated identifier takes no field of the row: an attribute `id` has a value.
  have field : (ofValues values fresh).fields.get? schema[i].name = some row[i].toJson := by
    refine Document.get?_ofValues_of_ne fresh get fun address => ?_
    rw [Value.isNull_toJson admitted.finite admitted.datum]
    exact Value.isNull_eq_false (admitted.address address)
  simp only [project, List.getElem_map, field]
  exact Value.ofJson_toJson admitted.typed admitted.finite admitted.datum

end Schema

/-! ### Batches of rows -/

/-- The document that is to be created, if one is. -/
def Action.created? : Action → Option Document
  | .create _ d _ => some d
  | _ => none

namespace Trace

/-- The documents that are to be created, in their order. -/
def created (t : Trace) : List Document := t.filterMap Action.created?

/-- The documents created in one trace after another are those of both, in order. -/
@[simp] theorem created_append (s t : Trace) : created (s ++ t) = s.created ++ t.created :=
  List.filterMap_append

/-- Only requests create documents. -/
theorem created_requests (t : Trace) : created t.requests = t.created :=
  t.filterMap_requests fun _ => rfl

end Trace

namespace Cursor

/-- A cursor goes through all documents. -/
theorem rows_ofDocuments (documents : List Document) (schema : Schema) :
    (ofDocuments documents schema).rows = documents.map fun d => schema.project d.fields :=
  rows_eq _

end Cursor

namespace Table

open Operation

variable {σ : Type} {t : Table σ} {row : Row}

/-- To report a failed record creates nothing. -/
theorem created_settle (t : Table σ) (kind : ExecKind) (index : Nat) (p : Progress) (w : World σ) :
    (t.settle kind index p w).trace.created = [] := by
  unfold settle
  split <;> rfl

/-- A creation asks for one document, made from the values under some fresh address. -/
theorem created_create (t : Table σ) (values : Values) (w : World σ) :
    ∃ n, (t.create values w).trace.created = [.ofValues values (t.freshIds n)] := by
  obtain ⟨n, answer, created, _⟩ := t.create_eq values w
  refine ⟨n, ?_⟩
  rw [← Trace.created_requests, created]
  rfl

/-- One document is to be created for a row that has a value for each attribute. -/
theorem created_addRecord {values : Values} (h : t.schema.bind row = .ok values) (w : World σ) :
    ∃ n, (t.addRecord row w).trace.created = [.ofValues values (t.freshIds n)] := by
  obtain ⟨n, created⟩ := t.created_create values w
  refine ⟨n, ?_⟩
  unfold addRecord
  rw [h]
  simp only [trace_bind, Trace.created_append, created]
  cases (t.create values w).value <;> rfl

/-- The documents of a batch are that of its first row and then those of the others. -/
theorem created_writeBatch_cons (t : Table σ) (index : Nat) (row : Row) (rows : List Row)
    (w : World σ) : ∃ w',
      (t.writeBatch .add t.addRecord index (row :: rows) w).trace.created =
        (t.addRecord row w).trace.created ++
          (t.writeBatch .add t.addRecord (index + 1) rows w').trace.created := by
  refine ⟨(t.addRecord row w).world, ?_⟩
  have settled := t.created_settle .add index (t.addRecord row w).value (t.addRecord row w).world
  rw [writeBatch]
  simp only [trace_bind, Trace.created_append, world_settle, settled, List.nil_append]
  exact congrArg (_ ++ ·) (List.append_nil _)

/-- The documents of a batch are projected to its rows. -/
theorem project_created_writeBatch (nodup : t.schema.names.Nodup) {rows : List Row}
    (admits : ∀ row ∈ rows, List.Forall₂ Attribute.Admits t.schema row) (index : Nat)
    (w : World σ) :
    (t.writeBatch .add t.addRecord index rows w).trace.created.map
      (fun d => t.schema.project d.fields) = rows := by
  induction rows generalizing index w with
  | nil => rfl
  | cons row rows ih =>
    obtain ⟨here, rest⟩ := List.forall_mem_cons.1 admits
    have bound : t.schema.bind row = .ok (.ofPairs (t.schema.names.zip row)) :=
      if_pos here.length_eq.symm
    obtain ⟨n, here'⟩ := created_addRecord bound w
    obtain ⟨w', split⟩ := t.created_writeBatch_cons index row rows w
    rw [split, here', List.map_append, List.map_singleton,
      Schema.project_ofValues nodup here bound, ih rest]
    rfl

/-- The events of an addition create nothing. -/
theorem created_add (t : Table σ) (rows : List Row) (w : World σ) :
    (t.add rows w).trace.created = (t.writeBatch .add t.addRecord 0 rows w).trace.created := by
  unfold add reported
  simp only [trace_bind, Trace.created_append]
  exact List.append_nil _

/-- The rows of a batch are read from the documents that are created for it. -/
theorem rows_add (t : Table σ) (nodup : t.schema.names.Nodup) (rows : List Row)
    (admits : ∀ row ∈ rows, List.Forall₂ Attribute.Admits t.schema row) (w : World σ) :
    (Cursor.ofDocuments (t.add rows w).trace.created t.schema).rows = rows := by
  rw [Cursor.rows_ofDocuments, created_add]
  exact project_created_writeBatch nodup admits 0 w

/-- A table with an address of its own, in a store that keeps nothing. -/
def orders : Table Unit where
  definition := ⟨"Orders", [⟨"price", .float⟩, ⟨"id", .string⟩, ⟨"amount", .int⟩, ⟨"note", .object⟩]⟩
  collection := "Orders"
  container := "/dbs/db/colls/Orders"
  backend := {
    query := fun _ _ _ => (.ok [], ())
    create := fun _ _ _ => (.ok (), ())
    replace := fun _ _ _ => (.ok (), ())
    delete := fun _ _ _ => (.ok (), ()) }
  freshIds := fun _ => "fresh"

/-- Rows of `orders`: the price of the first one is the 32-bit float nearest to a tenth. -/
def orderRows : List Row := [
  [.float (.finite ⟨false, 13421773, -27, by decide⟩), .string "a", .int (-2147483648), .null],
  [.null, .string "", .null, .object (.array [.null, .int 18446744073709551615])]]

theorem rows_add_orders :
    orders.schema.names.Nodup ∧
      (∀ row ∈ orderRows, List.Forall₂ Attribute.Admits orders.schema row) ∧
      (Cursor.ofDocuments (orders.add orderRows ⟨(), 0⟩).trace.created orders.schema).rows =
        orderRows := by
  have nodup : orders.schema.names.Nodup := by decide
  have admits : ∀ row ∈ orderRows, List.Forall₂ Attribute.Admits orders.schema row := by
    have admitted {name : String} {t : AttributeType} {v : Value} (typed : v.type? = some t)
        (finite : v.isNonFinite = false) (datum : v ≠ .object .null) :
        Attribute.Admits ⟨name, t⟩ v :=
      ⟨.inr typed, finite, datum, fun _ null => by rw [null] at typed; cases typed⟩
    have absent {name : String} {t : AttributeType} (h : name ≠ idField) :
        Attribute.Admits ⟨name, t⟩ .null :=
      ⟨.inl rfl, rfl, Value.noConfusion, fun address => absurd address h⟩
    refine List.forall_mem_cons.2 ⟨?_, List.forall_mem_singleton.2 ?_⟩
    · exact .cons (admitted rfl rfl Value.noConfusion) (.cons (admitted rfl rfl Value.noConfusion)
        (.cons (admitted rfl rfl Value.noConfusion) (.cons (absent (by decide)) .nil)))
    · exact .cons (absent (by decide)) (.cons (admitted rfl rfl Value.noConfusion)
        (.cons (absent (by decide)) (.cons (admitted rfl rfl (by simp)) .nil)))
  exact ⟨nodup, admits, rows_add orders nodup orderRows admits _⟩

end Table

end StreamTable
