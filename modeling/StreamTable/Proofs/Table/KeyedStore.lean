import Mathlib.Data.List.Nodup
import StreamTable.Table.Upsert
import StreamTable.Proofs.Condition.Rendering
import StreamTable.Proofs.Document.Assignment

/-!
# Stores that find documents by a key

`Backend.Faithful` is what a table relies on in a store: documents are found by the text that they
hold in one field, every new document is added, and a document replaces the one at its address.
The documents of a store are only known up to their order.  `listStore` is such a store: the query
for a key tells the key (`findQuery_keyFilter_injective`).

From the laws follows what the requests of a table do to the documents: `Table.matching` finds those
of a key, `Table.replaceAll` assigns to all that were found, and `Table.create` adds the document of
a row.
-/

namespace StreamTable

open Operation

/-! ### Keys and addresses -/

/-- The text that a document holds in a field. -/
def Document.text? (d : Document) (name : String) : Option String := (d.get? name).bind Json.string?

/-- The text that values store in a field. -/
def Values.text? (values : Values) (name : String) : Option String :=
  (values.get? name).bind fun v => v.toJson.string?

namespace Document

/-- A document has the text of a field from its record, the field of addresses apart. -/
theorem text?_ofValues {name : String} (h : name ≠ idField) (values : Values) (fresh : String) :
    (ofValues values fresh).text? name = Values.text? values name := by
  rw [text?, get?_ofValues h, Values.text?]
  cases values.get? name <;> rfl

/-- Fields that are not assigned to keep their text. -/
theorem text?_assign {name : String} {assignments : List (String × Value)}
    (h : name ∉ assignments.map (·.1)) (d : Document) :
    (Table.assign d assignments).text? name = d.text? name := by
  rw [text?, Table.get?_assign h, text?]

/-- A record without an address of its own is stored under the fresh one. -/
theorem id?_ofValues {values : Values} (h : hasId values = false) (fresh : String) :
    (ofValues values fresh).id? = some fresh := by
  rw [ofValues, h, id?]
  simp [get?, Json.string?]

/-- All documents have an address of their own. -/
structure Addressed (ds : List Document) : Prop where
  isSome : ∀ d ∈ ds, d.id?.isSome
  nodup : (ds.map id?).Nodup

namespace Addressed

variable {ds es : List Document}

theorem perm (h : Addressed ds) (perm : es.Perm ds) : Addressed es where
  isSome d hd := h.isSome d (perm.mem_iff.1 hd)
  nodup := (perm.map id?).nodup_iff.2 h.nodup

/-- A document is known by its address. -/
theorem eq_of_id?_eq (h : Addressed ds) {d e : Document} (hd : d ∈ ds) (he : e ∈ ds)
    (same : d.id? = e.id?) : d = e :=
  List.inj_on_of_nodup_map h.nodup hd he same

/-- Whether documents are addressed depends on their addresses alone. -/
theorem of_map_id? (h : Addressed ds) (same : es.map id? = ds.map id?) : Addressed es where
  isSome e he := by
    have mem : e.id? ∈ ds.map id? := same ▸ List.mem_map_of_mem he
    obtain ⟨d, hd, hid⟩ := List.mem_map.1 mem
    rw [← hid]
    exact h.isSome d hd
  nodup := same ▸ h.nodup

end Addressed

end Document

open Document

/-! ### Faithful stores -/

/-- The filter for the documents of a key. -/
def keyFilter (table field key : String) : String :=
  "(" ++ (table ++ "." ++ field) ++ " = " ++ Text.Quoted.encode key ++ ")"

/-- The store finds documents by the text in a field, adds them, and replaces them by their
addresses, in a container that holds these documents in any order. -/
structure Backend.Faithful {σ : Type} (b : Backend σ) (table container field : String)
    (documents : σ → List Document) : Prop where
  query (s : σ) (key : String) (h : Addressed (documents s)) : ∃ ds s',
    b.query container (findQuery table (keyFilter table field key)) s = (.ok ds, s') ∧
      ds.Perm ((documents s).filter fun d => d.text? field = some key) ∧
      (documents s').Perm (documents s)
  create (s : σ) (d : Document) (h : Addressed (d :: documents s)) : ∃ s',
    b.create container d s = (.ok (), s') ∧ (documents s').Perm (d :: documents s)
  replace (s : σ) (d : Document) (h : Addressed (documents s))
    (there : d.id? ∈ (documents s).map id?) : ∃ s',
    b.replace container d s = (.ok (), s') ∧
      (documents s').Perm ((documents s).map fun e => if e.id? = d.id? then d else e)

/-! ### A faithful store -/

/-- The query for a key tells the key. -/
theorem findQuery_keyFilter_injective (table field : String) {key key' : String}
    (h : findQuery table (keyFilter table field key) =
      findQuery table (keyFilter table field key')) : key = key' := by
  have text (key : String) : findQuery table (keyFilter table field key) =
      "SELECT * FROM " ++ table ++ (" WHERE " ++ keyFilter table field key) := by
    have notEmpty : (keyFilter table field key).isEmpty = false := by
      simp [keyFilter]
    unfold findQuery SelectQuery.nonEmpty?
    rw [notEmpty]
    rfl
  have texts := (text key).symm.trans (h.trans (text key'))
  have filters : keyFilter table field key = keyFilter table field key' :=
    (String.append_right_inj " WHERE ").1 ((String.append_right_inj _).1 texts)
  have literals : Text.Quoted.encode key = Text.Quoted.encode key' :=
    (String.append_right_inj _).1 ((String.append_left_inj ")").1 filters)
  exact Text.Quoted.encode_injective literals

/-- A store that is the list of its documents and knows the queries for the keys of its
documents. -/
def listStore (table field : String) : Backend (List Document) where
  query _ text ds :=
    (.ok (ds.filter fun d => (d.text? field).any fun key =>
      findQuery table (keyFilter table field key) = text), ds)
  create _ d ds := (.ok (), ds ++ [d])
  replace _ d ds := (.ok (), ds.map fun e => if e.id? = d.id? then d else e)
  delete _ id ds := (.ok (), ds.filter fun d => d.id? ≠ some id)

/-- The store that is a list of documents is faithful, and holds the documents in their order. -/
theorem faithful_listStore (table container field : String) :
    (listStore table field).Faithful table container field id where
  query ds key _ := by
    refine ⟨_, ds, rfl, .of_eq ?_, .rfl⟩
    refine List.filter_congr fun d _ => ?_
    -- The query for the key of a document is the one for `key` only if the keys are the same.
    cases d.text? field with
    | none => rfl
    | some key' =>
      have iff : findQuery table (keyFilter table field key') =
          findQuery table (keyFilter table field key) ↔ key' = key :=
        ⟨findQuery_keyFilter_injective table field, fun same => same ▸ rfl⟩
      simp [iff]
  create ds d _ := ⟨_, rfl, List.perm_append_singleton d ds⟩
  replace ds d _ _ := ⟨_, rfl, .rfl⟩

namespace Table

/-! ### Assignments to some of the documents -/

section

variable {assignments : List (String × Value)} (address : idField ∉ assignments.map (·.1))

/-- Assign to a document if its address is among these. -/
def assignAmong (addresses : List (Option String)) (assignments : List (String × Value))
    (d : Document) : Document :=
  if d.id? ∈ addresses then assign d assignments else d

include address

/-- Assignments leave the address of a document alone, also if it is among those that are assigned
to. -/
theorem id?_assignAmong (addresses : List (Option String)) (d : Document) :
    (assignAmong addresses assignments d).id? = d.id? := by
  unfold assignAmong
  split
  · exact id?_assign address d
  · rfl

/-- Hence the documents keep their addresses when some of them are assigned to. -/
theorem map_id?_assignAmong (addresses : List (Option String)) (ds : List Document) :
    (ds.map (assignAmong addresses assignments)).map id? = ds.map id? := by
  rw [List.map_map]
  exact List.map_congr_left fun d _ => id?_assignAmong address addresses d

/-- One address after the other. -/
theorem assignAmong_cons {a : Option String} {addresses : List (Option String)}
    (apart : a ∉ addresses) (d : Document) :
    assignAmong addresses assignments (assignAmong [a] assignments d) =
      assignAmong (a :: addresses) assignments d := by
  have same := id?_assignAmong address [a] d
  unfold assignAmong at same ⊢
  rw [same]
  by_cases first : d.id? = a
  · simp [first, apart]
  · simp [first]

/-- The document at the address of `d` is `d`, so it is assigned to in its place. -/
theorem map_replace_assign {ds : List Document} (h : Addressed ds) {d : Document} (hd : d ∈ ds) :
    (ds.map fun e => if e.id? = (assign d assignments).id? then assign d assignments else e) =
      ds.map (assignAmong [d.id?] assignments) := by
  refine List.map_congr_left fun e he => ?_
  rw [id?_assign address]
  unfold assignAmong
  by_cases same : e.id? = d.id?
  · rw [if_pos same, if_pos (List.mem_singleton.2 same), h.eq_of_id?_eq he hd same]
  · rw [if_neg same, if_neg (mt List.mem_singleton.1 same)]

end

/-! ### Requests to a faithful store -/

variable {σ : Type} {t : Table σ} {field : String} {documents : σ → List Document}
  (faithful : t.backend.Faithful t.id t.container field documents) {w : World σ}
  {ds : List Document}

include faithful

/-- A condition that is bound to the filter of a key finds the documents of the key. -/
theorem matching_of_faithful {c : CompiledCondition} {values : Values} {key : String}
    (resolved : c.resolve values = .ok (keyFilter t.id field key)) (h : Addressed ds)
    (here : (documents w.store).Perm ds) :
    ∃ found, (t.matching c values w).value = .ok found ∧
      found.Perm (ds.filter fun d => d.text? field = some key) ∧
      (documents (t.matching c values w).world.store).Perm ds ∧
      (t.matching c values w).world.issued = w.issued := by
  obtain ⟨found, s, answer, perm, unchanged⟩ := faithful.query w.store key (h.perm here)
  have asked : t.matching c values w = ⟨.ok found, (t.matching c values w).trace, s, w.issued⟩ := by
    unfold matching andThen filter ask
    rw [resolved]
    simp [bind_apply, reportResolved, emit, request, answer]
  rw [asked]
  exact ⟨found, rfl, perm.trans (here.filter _), unchanged.trans here, rfl⟩

/-- A faithful store replaces the document that has the address, and issues no new one. -/
theorem replace_of_faithful (h : Addressed ds) (here : (documents w.store).Perm ds) {d : Document}
    (there : d.id? ∈ ds.map id?) :
    (t.replace d w).value = .ok () ∧ (t.replace d w).world.issued = w.issued ∧
      (documents (t.replace d w).world.store).Perm
        (ds.map fun e => if e.id? = d.id? then d else e) := by
  have there : d.id? ∈ (documents w.store).map id? := (here.map id?).mem_iff.2 there
  obtain ⟨s, answer, replaced⟩ := faithful.replace w.store d (h.perm here) there
  have asked : t.replace d w = ⟨.ok (), (t.replace d w).trace, s, w.issued⟩ := by
    unfold replace
    simp [bind_apply, request, answer, Except.mapError]
  rw [asked]
  exact ⟨rfl, rfl, replaced.trans (here.map _)⟩

/-- Documents of the store are assigned to, one after the other. -/
theorem replaceEach_of_faithful {assignments : List (String × Value)}
    (address : idField ∉ assignments.map (·.1)) {found : List Document} (written : Nat)
    (mem : ∀ d ∈ found, d ∈ ds) (nodup : (found.map id?).Nodup) (h : Addressed ds)
    (here : (documents w.store).Perm ds) :
    let run := writeEach (fun d => t.replace (assign d assignments)) written found w
    run.value.failure = none ∧ run.world.issued = w.issued ∧
      (documents run.world.store).Perm (ds.map (assignAmong (found.map id?) assignments)) := by
  induction found generalizing ds w written with
  | nil =>
    have unchanged : ds.map (assignAmong [] assignments) = ds :=
      List.map_id'' (fun d => if_neg List.not_mem_nil) ds
    refine ⟨rfl, rfl, ?_⟩
    rw [List.map_nil, unchanged]
    exact here
  | cons d found ih =>
    obtain ⟨apart, nodup⟩ := List.nodup_cons.1 nodup
    obtain ⟨hd, mem⟩ := List.forall_mem_cons.1 mem
    let ds' := ds.map (assignAmong [d.id?] assignments)
    let first := t.replace (assign d assignments) w
    have there : (assign d assignments).id? ∈ ds.map id? := by
      rw [id?_assign address]
      exact List.mem_map_of_mem hd
    obtain ⟨value, issued, replaced⟩ := t.replace_of_faithful faithful h here there
    rw [map_replace_assign address h hd] at replaced
    -- The other documents are as they were, so they are still found.
    have mem' : ∀ e ∈ found, e ∈ ds' := by
      intro e he
      have other : e.id? ∉ [d.id?] := by
        rw [List.mem_singleton]
        intro same
        exact apart (same ▸ List.mem_map_of_mem he)
      exact List.mem_map.2 ⟨e, mem e he, if_neg other⟩
    have h' : Addressed ds' := h.of_map_id? (map_id?_assignAmong address _ ds)
    obtain ⟨failure, issued', rest⟩ := ih (written + 1) mem' nodup h' replaced
    intro run
    have cons : run.value = (writeEach (fun d => t.replace (assign d assignments)) (written + 1)
          found first.world).value ∧
        run.world = (writeEach (fun d => t.replace (assign d assignments)) (written + 1) found
          first.world).world := by
      simp only [run, first, writeEach, value_bind, world_bind, value, and_self]
    rw [cons.1, cons.2]
    refine ⟨failure, issued'.trans issued, rest.trans (.of_eq ?_)⟩
    rw [List.map_map]
    exact List.map_congr_left fun e _ => assignAmong_cons address apart e

/-- All documents of a key are assigned to. -/
theorem replaceAll_of_faithful {clauses : List SetClause} {set : Values}
    {assignments : List (String × Value)}
    (evaluated : SetClause.evaluate clauses set = .ok assignments)
    (address : idField ∉ assignments.map (·.1)) {found : List Document} {key : String}
    (keyed : found.Perm (ds.filter fun d => d.text? field = some key)) (h : Addressed ds)
    (here : (documents w.store).Perm ds) :
    let run := t.replaceAll clauses set found w
    run.value.failure = none ∧ run.world.issued = w.issued ∧
      (documents run.world.store).Perm
        (ds.map fun d => if d.text? field = some key then assign d assignments else d) := by
  have mem : ∀ d ∈ found, d ∈ ds ∧ d.text? field = some key := by
    intro d hd
    have := List.mem_filter.1 (keyed.mem_iff.1 hd)
    simpa using this
  have sublist : ((ds.filter fun d => d.text? field = some key).map id?).Sublist (ds.map id?) :=
    List.filter_sublist.map id?
  have nodup : (found.map id?).Nodup := (keyed.map id?).nodup_iff.2 (h.nodup.sublist sublist)
  obtain ⟨failure, issued, replaced⟩ := t.replaceEach_of_faithful faithful address 0
    (fun d hd => (mem d hd).1) nodup h here
  have unfolded : t.replaceAll clauses set found =
      writeEach (fun d => t.replace (assign d assignments)) 0 found := by
    unfold replaceAll
    rw [evaluated]
  rw [unfolded]
  refine ⟨failure, issued, replaced.trans (.of_eq ?_)⟩
  -- The addresses that were found are those of the documents of the key.
  refine List.map_congr_left fun e he => ?_
  unfold assignAmong
  have iff : e.id? ∈ found.map id? ↔ e.text? field = some key := by
    constructor
    · intro he'
      obtain ⟨d, hd, same⟩ := List.mem_map.1 he'
      rw [← h.eq_of_id?_eq (mem d hd).1 he same]
      exact (mem d hd).2
    · intro holds
      exact List.mem_map_of_mem (keyed.mem_iff.2 (List.mem_filter.2 ⟨he, by simpa using holds⟩))
  simp only [iff]

/-! ### New documents -/

/-- A faithful store adds the document of a record under the next fresh address. -/
theorem create_of_faithful {values : Values} (plain : hasId values = false)
    (h : Addressed (.ofValues values (t.freshIds w.issued) :: ds))
    (here : (documents w.store).Perm ds) :
    (t.create values w).value = .ok () ∧ (t.create values w).world.issued = w.issued + 1 ∧
      (documents (t.create values w).world.store).Perm
        (.ofValues values (t.freshIds w.issued) :: ds) := by
  obtain ⟨s, answer, created⟩ := faithful.create w.store (.ofValues values (t.freshIds w.issued))
    (h.perm (here.cons _))
  have asked : t.create values w = ⟨.ok (), (t.create values w).trace, s, w.issued + 1⟩ := by
    unfold create newDocument
    simp [plain, bind_apply, generate, request, answer, Except.mapError]
  rw [asked]
  exact ⟨rfl, rfl, created.trans (here.cons _)⟩

end Table

end StreamTable
