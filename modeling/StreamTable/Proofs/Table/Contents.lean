import Mathlib.Data.List.Nodup
import StreamTable.Proofs.Table.KeyedStore

/-!
# The contents of a table with a key

A `KeyedRecord` updates the documents of its key, or inserts its row if there are none.  `Contents`
tells the documents that a table started with, as they are now, from the rows that were inserted
since, whose addresses are generated; `Contents.upsert` is what a record does to them.  It keeps the
rows and the documents apart by their keys (`Contents.Valid`).

Whether the rows have their addresses yet or not makes no difference: an update of the documents is
an update of the values that they are made of (`Contents.documents_assign`).
-/

namespace StreamTable

open Document

/-- A record that updates the documents of a key or inserts a row. -/
structure KeyedRecord where
  key : String
  assignments : List (String × Value)
  row : Values

namespace KeyedRecord

/-- The row holds the key, and neither the key nor an address is assigned. -/
structure Valid (field : String) (r : KeyedRecord) : Prop where
  row : r.row.get? field = some (.string r.key)
  plain : hasId r.row = false
  field_notMem : field ∉ r.assignments.map (·.1)
  id_notMem : idField ∉ r.assignments.map (·.1)

variable (field : String) (r : KeyedRecord)

/-- Assign to a document if it has the key. -/
def onDocument (d : Document) : Document :=
  if d.text? field = some r.key then Table.assign d r.assignments else d

/-- Assign to the values of a row if it has the key. -/
def onRow (v : Values) : Values :=
  if v.text? field = some r.key then v.insertAll r.assignments else v

variable {field r}

/-- A record never changes the address of a document. -/
theorem id?_onDocument (hr : r.Valid field) (d : Document) :
    (r.onDocument field d).id? = d.id? := by
  unfold onDocument
  split
  · exact Table.id?_assign hr.id_notMem d
  · rfl

/-- A record never changes the key of a document. -/
theorem text?_onDocument (hr : r.Valid field) (d : Document) :
    (r.onDocument field d).text? field = d.text? field := by
  unfold onDocument
  split
  · exact text?_assign hr.field_notMem d
  · rfl

/-- A record never changes the key of a waiting row. -/
theorem get?_onRow (hr : r.Valid field) (v : Values) :
    (r.onRow field v).get? field = v.get? field := by
  unfold onRow
  split
  · exact Members.get?_insertAll_of_notMem hr.field_notMem v
  · rfl

/-- Nor does it change the text of that key. -/
theorem text?_onRow (hr : r.Valid field) (v : Values) :
    (r.onRow field v).text? field = v.text? field := by
  rw [Values.text?, get?_onRow hr, Values.text?]

/-- A waiting row has an address of its own after a record just if it had one before. -/
theorem hasId_onRow (hr : r.Valid field) (v : Values) : hasId (r.onRow field v) = hasId v := by
  unfold onRow
  split
  · exact Table.hasId_insertAll hr.id_notMem v
  · rfl

/-- A row can be assigned to before or after it becomes a document. -/
theorem onDocument_ofValues (hf : field ≠ idField) (hr : r.Valid field) (v : Values)
    (fresh : String) :
    r.onDocument field (.ofValues v fresh) = .ofValues (r.onRow field v) fresh := by
  unfold onDocument onRow
  rw [text?_ofValues hf]
  split
  · exact Table.assign_ofValues hr.id_notMem v fresh
  · rfl

/-- Documents with another key stay as they are. -/
theorem onDocument_of_ne {d : Document} (h : d.text? field ≠ some r.key) :
    r.onDocument field d = d :=
  if_neg h

/-- Waiting rows with another key stay as they are. -/
theorem onRow_of_ne {v : Values} (h : v.text? field ≠ some r.key) : r.onRow field v = v := if_neg h

end KeyedRecord

/-- What a table holds. -/
structure Contents where
  /-- The documents that were there from the start. -/
  kept : List Document
  /-- The values of the rows that were inserted since. -/
  rows : List Values

/-- The addresses from a position on are different and are not used. -/
structure Fresh (ids : Nat → String) (n : Nat) (ds : List Document) : Prop where
  unused : ∀ i, n ≤ i → some (ids i) ∉ ds.map id?
  injective : ∀ i j, n ≤ i → n ≤ j → ids i = ids j → i = j

/-- The documents of rows whose addresses are generated one after the other. -/
def numbered (ids : Nat → String) (n : Nat) : List Values → List Document
  | [] => []
  | v :: vs => .ofValues v (ids n) :: numbered ids (n + 1) vs

/-- Whether addresses are fresh depends only on the addresses of the documents. -/
theorem Fresh.of_map_id? {ids : Nat → String} {n : Nat} {ds es : List Document}
    (h : Fresh ids n ds) (same : es.map id? = ds.map id?) : Fresh ids n es where
  unused := by
    rw [same]
    exact h.unused
  injective := h.injective

/-- Further rows are numbered from where the first ones end. -/
theorem numbered_append (ids : Nat → String) (n : Nat) (vs us : List Values) :
    numbered ids n (vs ++ us) = numbered ids n vs ++ numbered ids (n + vs.length) us := by
  induction vs generalizing n with
  | nil => rfl
  | cons v vs ih =>
    have next : n + (v :: vs).length = n + 1 + vs.length := by
      rw [List.length_cons]
      omega
    rw [List.cons_append, numbered, numbered, ih, next, List.cons_append]

/-- Rows without addresses of their own get the fresh ones in their order. -/
theorem map_id?_numbered (ids : Nat → String) (n : Nat) {vs : List Values}
    (plain : ∀ v ∈ vs, hasId v = false) :
    (numbered ids n vs).map id? = (List.range' n vs.length).map fun i => some (ids i) := by
  induction vs generalizing n with
  | nil => rfl
  | cons v vs ih =>
    obtain ⟨hv, rest⟩ := List.forall_mem_cons.1 plain
    rw [numbered, List.map_cons, id?_ofValues hv, ih _ rest]
    rfl

namespace Contents

variable (field : String) (q : Contents) (r : KeyedRecord)

/-- Some document or row holds the key. -/
def holds (key : String) : Bool :=
  q.kept.any (fun d => d.text? field = some key) || q.rows.any (fun v => v.text? field = some key)

/-- The documents and rows of a key with values assigned to them. -/
def assign : Contents where
  kept := q.kept.map (r.onDocument field)
  rows := q.rows.map (r.onRow field)

/-- One more row. -/
def insert (v : Values) : Contents := ⟨q.kept, q.rows ++ [v]⟩

/-- Update what holds the key of a record, or insert its row. -/
def upsert : Contents :=
  if q.holds field r.key then q.assign field r else q.insert r.row

/-- Update or insert for one record after the other. -/
def upsertAll (ks : List KeyedRecord) : Contents := ks.foldl (·.upsert field ·) q

/-- The documents, with the addresses of the rows. -/
def documents (ids : Nat → String) (n : Nat) : List Document := q.kept ++ numbered ids n q.rows

/-- Every row has a key of its own, which no document has, and no address of its own. -/
structure Valid : Prop where
  keyed : ∀ v ∈ q.rows, ∃ key, v.get? field = some (.string key)
  plain : ∀ v ∈ q.rows, hasId v = false
  nodup : (q.rows.map (Values.text? · field)).Nodup
  apart : ∀ v ∈ q.rows, ∀ d ∈ q.kept, d.text? field ≠ v.text? field

variable {field q r}

/-- Without waiting rows, there is nothing to ask of them. -/
theorem valid_nil (ds : List Document) : Valid field ⟨ds, []⟩ where
  keyed := List.forall_mem_nil _
  plain := List.forall_mem_nil _
  nodup := List.nodup_nil
  apart := List.forall_mem_nil _

/-! ### Updates keep the keys -/

/-- Assignments keep the waiting rows apart, as they leave the keys alone. -/
theorem Valid.assign (hq : q.Valid field) (hr : r.Valid field) :
    (q.assign field r).Valid field where
  keyed v hv := by
    obtain ⟨u, hu, rfl⟩ := List.mem_map.1 hv
    rw [r.get?_onRow hr]
    exact hq.keyed u hu
  plain v hv := by
    obtain ⟨u, hu, rfl⟩ := List.mem_map.1 hv
    rw [r.hasId_onRow hr]
    exact hq.plain u hu
  nodup := by
    have keys : (q.assign field r).rows.map (Values.text? · field) =
        q.rows.map (Values.text? · field) := by
      rw [Contents.assign, List.map_map]
      exact List.map_congr_left fun v _ => r.text?_onRow hr v
    rw [keys]
    exact hq.nodup
  apart v hv d hd := by
    obtain ⟨u, hu, rfl⟩ := List.mem_map.1 hv
    obtain ⟨e, he, rfl⟩ := List.mem_map.1 hd
    rw [r.text?_onRow hr, r.text?_onDocument hr]
    exact hq.apart u hu e he

/-- A new row is added only for a key that no waiting row has, so the rows stay apart. -/
theorem Valid.upsert (hq : q.Valid field) (hr : r.Valid field) :
    (q.upsert field r).Valid field := by
  unfold Contents.upsert
  split
  · exact hq.assign hr
  · next missing =>
    have key : Values.text? r.row field = some r.key := by
      rw [Values.text?, hr.row]
      rfl
    obtain ⟨noDocument, noRow⟩ : (∀ d ∈ q.kept, d.text? field ≠ some r.key) ∧
        ∀ v ∈ q.rows, Values.text? v field ≠ some r.key := by
      simpa [holds] using missing
    constructor
    · exact List.forall_mem_append.2 ⟨hq.keyed, List.forall_mem_singleton.2 ⟨_, hr.row⟩⟩
    · exact List.forall_mem_append.2 ⟨hq.plain, List.forall_mem_singleton.2 hr.plain⟩
    · rw [insert, List.map_append, List.map_singleton, key, List.nodup_append]
      refine ⟨hq.nodup, List.pairwise_singleton _ _, ?_⟩
      rintro a ha b hb rfl
      obtain ⟨v, hv, rfl⟩ := List.mem_map.1 ha
      exact noRow v hv (List.mem_singleton.1 hb)
    · refine List.forall_mem_append.2 ⟨hq.apart, List.forall_mem_singleton.2 fun d hd => ?_⟩
      rw [key]
      exact noDocument d hd

/-- A record leaves the addresses of the documents that were there alone. -/
theorem map_id?_upsert (hr : r.Valid field) :
    (q.upsert field r).kept.map id? = q.kept.map id? := by
  unfold Contents.upsert
  split
  · rw [Contents.assign, List.map_map]
    exact List.map_congr_left fun d _ => r.id?_onDocument hr d
  · rfl

variable {ks : List KeyedRecord}

/-- Any number of records keep the contents valid. -/
theorem Valid.upsertAll (hq : q.Valid field) (hks : ∀ r ∈ ks, r.Valid field) :
    (q.upsertAll field ks).Valid field := by
  induction ks generalizing q with
  | nil => exact hq
  | cons r ks ih =>
    obtain ⟨hr, hks⟩ := List.forall_mem_cons.1 hks
    exact ih (hq.upsert hr) hks

/-- Any number of records leave the addresses alone. -/
theorem map_id?_upsertAll (hks : ∀ r ∈ ks, r.Valid field) :
    (q.upsertAll field ks).kept.map id? = q.kept.map id? := by
  induction ks generalizing q with
  | nil => rfl
  | cons r ks ih =>
    obtain ⟨hr, hks⟩ := List.forall_mem_cons.1 hks
    exact (ih hks).trans (map_id?_upsert hr)

/-! ### Updates of rows and of documents -/

/-- A key that a row holds is no document's. -/
theorem upsert_of_row (hq : q.Valid field) {v : Values} (hv : v ∈ q.rows)
    (key : v.text? field = some r.key) :
    q.upsert field r = ⟨q.kept, (q.assign field r).rows⟩ := by
  have holds : q.holds field r.key = true := by
    rw [Contents.holds, Bool.or_eq_true]
    exact .inr (List.any_eq_true.2 ⟨v, hv, by simpa using key⟩)
  have unchanged : (q.assign field r).kept = q.kept := by
    refine (List.map_congr_left fun d hd => ?_).trans (List.map_id _)
    exact r.onDocument_of_ne (key ▸ hq.apart v hv d hd)
  rw [Contents.upsert, if_pos holds, ← unchanged]

/-- A key that no row holds is looked for among the documents. -/
theorem upsert_of_noRow (noRow : ∀ v ∈ q.rows, v.text? field ≠ some r.key) :
    q.upsert field r =
      if q.kept.any (fun d => d.text? field = some r.key) then ⟨(q.assign field r).kept, q.rows⟩
      else q.insert r.row := by
  have none : q.rows.any (fun v => Values.text? v field = some r.key) = false := by
    simpa using noRow
  have unchanged : (q.assign field r).rows = q.rows := by
    refine (List.map_congr_left fun v hv => ?_).trans (List.map_id _)
    exact r.onRow_of_ne (noRow v hv)
  rw [Contents.upsert, holds, none, Bool.or_false]
  split
  · rw [← unchanged]
  · rfl

/-! ### The documents -/

/-- With the waiting rows written out, all documents still have addresses that differ. -/
theorem addressed_documents {ids : Nat → String} {n : Nat} (addressed : Addressed q.kept)
    (fresh : Fresh ids n q.kept) (plain : ∀ v ∈ q.rows, hasId v = false) :
    Addressed (q.documents ids n) := by
  have generated : (numbered ids n q.rows).map id? =
      (List.range' n q.rows.length).map fun i => some (ids i) := map_id?_numbered ids n plain
  have late (i : Nat) (hi : i ∈ List.range' n q.rows.length) : n ≤ i := (List.mem_range'_1.1 hi).1
  constructor
  · refine List.forall_mem_append.2 ⟨addressed.isSome, fun d hd => ?_⟩
    have mem : d.id? ∈ (numbered ids n q.rows).map id? := List.mem_map_of_mem hd
    rw [generated] at mem
    obtain ⟨i, _, id⟩ := List.mem_map.1 mem
    rw [← id]
    rfl
  · rw [documents, List.map_append, generated, List.nodup_append]
    refine ⟨addressed.nodup, ?_, ?_⟩
    · refine (List.nodup_map_iff_inj_on List.nodup_range').2 fun i hi j hj same => ?_
      exact fresh.injective i j (late i hi) (late j hj) (Option.some.inj same)
    · rintro a ha b hb rfl
      obtain ⟨i, hi, rfl⟩ := List.mem_map.1 hb
      exact fresh.unused i (late i hi) ha

/-- A row that is inserted last becomes the last document, with the next fresh address. -/
theorem documents_insert (ids : Nat → String) (n : Nat) (v : Values) :
    (q.insert v).documents ids n =
      q.documents ids n ++ [.ofValues v (ids (n + q.rows.length))] := by
  rw [documents, insert, numbered_append, documents, List.append_assoc]
  rfl

variable (hf : field ≠ idField) (ids : Nat → String) (n : Nat)

include hf

/-- A row and the document that it becomes have the same key. -/
theorem text?_numbered (vs : List Values) :
    (numbered ids n vs).map (·.text? field) = vs.map (Values.text? · field) := by
  induction vs generalizing n with
  | nil => rfl
  | cons v vs ih => rw [numbered, List.map_cons, List.map_cons, text?_ofValues hf, ih]

/-- The contents hold a key just if a document that is written out has it. -/
theorem any_documents (key : String) :
    (q.documents ids n).any (fun d => d.text? field = some key) = q.holds field key := by
  have rows : (numbered ids n q.rows).any (fun d => d.text? field = some key) =
      q.rows.any fun v => Values.text? v field = some key := by
    have anys := congrArg (List.any · (· = some key)) (text?_numbered hf ids n q.rows)
    rw [List.any_map, List.any_map] at anys
    exact anys
  rw [documents, List.any_append, rows, holds]

/-- To assign to the waiting rows is to assign to the documents that they become. -/
theorem numbered_assign (hr : r.Valid field) (vs : List Values) :
    numbered ids n (vs.map (r.onRow field)) = (numbered ids n vs).map (r.onDocument field) := by
  induction vs generalizing n with
  | nil => rfl
  | cons v vs ih =>
    rw [List.map_cons, numbered, numbered, List.map_cons, ih, r.onDocument_ofValues hf hr]

/-- An update of documents is an update of the values that they are made of. -/
theorem documents_assign (hr : r.Valid field) :
    (q.assign field r).documents ids n = (q.documents ids n).map (r.onDocument field) := by
  rw [documents, documents, List.map_append, ← numbered_assign hf ids n hr]
  rfl

end Contents

end StreamTable
