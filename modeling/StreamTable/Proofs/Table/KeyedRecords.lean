import StreamTable.Session.Hook
import StreamTable.Proofs.Condition.Equality
import StreamTable.Proofs.Table.Contents
import StreamTable.Proofs.Table.Settling

/-!
# Records with a key

A condition that compares an attribute of the table with the attribute of the same name of the
stream becomes the filter for the documents of a key (`resolve_of_sameKey`).  `Table.BindsKey` says
of a record of `Table.updateOrAdd` that its parts fit and agree about the key; then the record means
a `KeyedRecord` (`Table.exists_means`).

`Table.Keyed` collects what the handling of a record rests on.  A record that no waiting row stands
for updates the documents of its key or lets its row wait (`Table.updateOrWait_of_means`); else its
values are put into the only waiting row of its key (`Table.mergePending?_of_row`).
-/

namespace StreamTable

open Document Operation

/-! ### Conditions on a key -/

/-- An attribute of the table is the attribute of the same name of the stream. -/
def Expr.sameKey (name : String) (type : AttributeType) : Expr :=
  .compare .eq (.field name .string) (.attribute name type)

/-- Bound to a key, the condition on the key is the filter for its documents. -/
theorem resolve_of_sameKey {table name : String} {type : AttributeType} {c : CompiledCondition}
    (h : compile table .condition (.sameKey name type) = .ok c) {values : Values} {key : String}
    (bound : values.get? name = some (.string key)) :
    c.resolve values = .ok (keyFilter table name key) := by
  have same : Expr.sameKey name type = .fieldIs name .string name type := rfl
  rw [same] at h
  rw [resolve_of_fieldIs h bound]
  rfl

/-- The compiler knows nothing of rows that wait. -/
theorem updateReducer_of_compile {table : String} {clause : Clause} {e : Expr}
    {c : CompiledCondition} (h : compile table clause e = .ok c) : c.updateReducer = none := by
  rcases compile_cases h with ⟨_, _, rfl⟩ | ⟨f, _, rfl⟩
  · rfl
  · rfl

/-! ### Assignments -/

namespace SetClause

variable {clauses : List SetClause} {set : Values}

/-- Clauses are evaluated one after the other, and the first one that has no value decides the
error. -/
theorem evaluate_cons (clause : SetClause) :
    evaluate (clause :: clauses) set = do
      let v ← clause.value.scalar set
      let assignments ← evaluate clauses set
      return (clause.name, v) :: assignments := by
  simp [evaluate]

/-- What is assigned are the attributes that the clauses name, in their order. -/
theorem map_fst_evaluate {assignments : List (String × Value)}
    (h : evaluate clauses set = .ok assignments) :
    assignments.map (·.1) = clauses.map (·.name) := by
  induction clauses generalizing assignments with
  | nil =>
    cases h
    rfl
  | cons clause clauses ih =>
    rw [evaluate_cons] at h
    obtain ⟨v, _, h⟩ := bind_eq_ok.1 h
    obtain ⟨rest, hrest, h⟩ := bind_eq_ok.1 h
    cases pure_eq_ok.1 h
    rw [List.map_cons, List.map_cons, ih hrest]

/-- Clauses can be evaluated if each of them has a value. -/
theorem exists_evaluate (h : ∀ clause ∈ clauses, ∃ v, clause.value.scalar set = .ok v) :
    ∃ assignments, evaluate clauses set = .ok assignments := by
  induction clauses with
  | nil => exact ⟨[], rfl⟩
  | cons clause clauses ih =>
    obtain ⟨⟨v, hv⟩, rest⟩ := List.forall_mem_cons.1 h
    obtain ⟨assignments, ha⟩ := ih rest
    refine ⟨(clause.name, v) :: assignments, ?_⟩
    rw [evaluate_cons, hv, ha]
    rfl

end SetClause

/-! ### Rows -/

namespace Schema

variable {schema : Schema} {row : Row}

/-- A row of the right length has a value for every name. -/
theorem map_fst_zip_names (arity : row.length = schema.length) :
    (schema.names.zip row).map (·.1) = schema.names := by
  have length : schema.names.length = row.length := by
    rw [arity, names, List.length_map]
  exact List.map_fst_zip (Nat.le_of_eq length)

/-- Where no name is repeated, each name gets the value at its position. -/
theorem exists_bind {position : Nat} {a : Attribute} {v : Value} (nodup : schema.names.Nodup)
    (there : schema[position]? = some a) (arity : row.length = schema.length)
    (value : row[position]? = some v) :
    ∃ values, schema.bind row = .ok values ∧ values.get? a.name = some v := by
  have get : (schema.names.zip row)[position]? = some (a.name, v) := by
    rw [List.getElem?_zip_eq_some, names, List.getElem?_map, there]
    exact ⟨rfl, value⟩
  have nodup' : ((schema.names.zip row).map (·.1)).Nodup := by
    rw [map_fst_zip_names arity]
    exact nodup
  exact ⟨_, if_pos arity, Members.get?_insertAll_of_mem nodup' (List.mem_of_getElem? get) []⟩

/-- A row of a schema without an attribute `id` never has an address. -/
theorem hasId_of_bind (noId : idField ∉ schema.names) {values : Values}
    (h : schema.bind row = .ok values) : hasId values = false := by
  unfold bind at h
  split at h
  · next arity =>
    cases h
    rw [← map_fst_zip_names arity] at noId
    have none : (Members.ofPairs (schema.names.zip row)).get? idField = none :=
      Members.get?_insertAll_of_notMem noId []
    rw [hasId, get?_storedFields, none]
    rfl
  · cases h

end Schema

/-! ### Records -/

/-- What a record of a batch means. -/
structure UpsertRecord.Means (schema : Schema) (clauses : List SetClause) (field : String)
    (r : UpsertRecord) (k : KeyedRecord) : Prop where
  key : r.values.get? field = some (.string k.key)
  assignments : SetClause.evaluate clauses r.set = .ok k.assignments
  row : schema.bind r.row = .ok k.row

/-- A record has at most one meaning. -/
theorem UpsertRecord.Means.unique {schema : Schema} {clauses : List SetClause} {field : String}
    {r : UpsertRecord} {k k' : KeyedRecord} (h : Means schema clauses field r k)
    (h' : Means schema clauses field r k') : k = k' := by
  obtain ⟨key, assignments, row⟩ := k
  have keys := h.key.symm.trans h'.key
  have assigned := h.assignments.symm.trans h'.assignments
  have rows := h.row.symm.trans h'.row
  simp only [Option.some.injEq, Value.string.injEq, Except.ok.injEq] at keys assigned rows
  rw [keys, assigned, rows]

namespace Table

variable {σ : Type} {t : Table σ} {clauses : List SetClause} {field : String}

/-- The values of a record bind the key to the text that stands at its position in the row, the row
has a value for each attribute, and the set clauses are bound. -/
structure BindsKey (t : Table σ) (clauses : List SetClause) (field : String) (position : Nat)
    (r : UpsertRecord) : Prop where
  key : ∃ text, r.values.get? field = some (.string text) ∧ r.row[position]? = some (.string text)
  arity : r.row.length = t.schema.length
  bound : ∀ clause ∈ clauses, ∃ v, clause.value.scalar r.set = .ok v

/-- Set clauses are only made for attributes of the table. -/
theorem mem_names_of_setClause {name : String} {e : Expr} {clause : SetClause}
    (h : t.setClause name e = .ok clause) : name ∈ t.schema.names := by
  unfold setClause at h
  split at h
  · cases h
  · next known =>
    obtain ⟨a, ha⟩ : ∃ a, t.schema.find? (·.name == name) = some a :=
      Option.ne_none_iff_exists'.1 (by simpa [Schema.attribute?] using known)
    have same : a.name = name := by simpa using List.find?_some ha
    rw [← same]
    exact List.mem_map_of_mem (List.mem_of_find?_eq_some ha)

/-- A record whose parts fit and agree about the key means a keyed record, and that is valid:
neither the key nor the address is assigned to. -/
theorem exists_means {position : Nat} (nodup : t.schema.names.Nodup)
    (noId : idField ∉ t.schema.names) (there : t.schema[position]? = some ⟨field, .string⟩)
    (accepted : ∀ clause ∈ clauses, ∃ e, t.setClause clause.name e = .ok clause)
    (apart : ∀ clause ∈ clauses, clause.name ≠ field) {r : UpsertRecord}
    (h : t.BindsKey clauses field position r) :
    ∃ k, UpsertRecord.Means t.schema clauses field r k ∧ k.Valid field := by
  obtain ⟨text, hkey, hrow⟩ := h.key
  obtain ⟨assignments, ha⟩ := SetClause.exists_evaluate h.bound
  obtain ⟨row, hbind, hget⟩ := Schema.exists_bind nodup there h.arity hrow
  have names : assignments.map (·.1) = clauses.map (·.name) := SetClause.map_fst_evaluate ha
  have plain : hasId row = false := Schema.hasId_of_bind noId hbind
  refine ⟨⟨text, assignments, row⟩, ⟨hkey, ha, hbind⟩, hget, plain, ?_, ?_⟩
  · rw [names]
    intro mem
    obtain ⟨clause, hc, same⟩ := List.mem_map.1 mem
    exact apart clause hc same
  · rw [names]
    intro mem
    obtain ⟨clause, hc, same⟩ := List.mem_map.1 mem
    obtain ⟨e, he⟩ := accepted clause hc
    exact noId (same ▸ mem_names_of_setClause he)

end Table

/-! ### Waiting rows -/

namespace PendingInsert

variable {ε : Type} {qualifies : Values → Bool} {merge : Values → Except ε Values}
  {f : Values → Values}

/-- Where only one row qualifies, merging into the first one is merging into all. -/
theorem mergeFirst?_of_only {ps : List PendingInsert}
    (only : ps.Pairwise fun p p' => qualifies p.values = true → qualifies p'.values = false)
    (some : ∃ p ∈ ps, qualifies p.values = true)
    (merged : ∀ p ∈ ps, merge p.values = .ok (f p.values)) :
    ∃ ps', mergeFirst? qualifies merge ps = .some (.ok ps') ∧
      ps'.map (·.values) =
        (ps.map (·.values)).map fun v => if qualifies v then f v else v := by
  induction ps with
  | nil => simp at some
  | cons p ps ih =>
    obtain ⟨first, others⟩ := List.pairwise_cons.1 only
    obtain ⟨here, later⟩ := List.forall_mem_cons.1 merged
    by_cases hp : qualifies p.values = true
    · refine ⟨{ p with values := f p.values } :: ps, ?_, ?_⟩
      · rw [mergeFirst?, if_pos hp, here]
        rfl
      · -- No other row qualifies.
        have unchanged : (ps.map (·.values)).map (fun v => if qualifies v then f v else v) =
            ps.map (·.values) := by
          rw [List.map_map]
          refine List.map_congr_left fun p' hp' => ?_
          show (if qualifies p'.values = true then _ else _) = _
          rw [first p' hp' hp, if_neg Bool.false_ne_true]
        rw [List.map_cons, List.map_cons, List.map_cons, unchanged, if_pos hp]
    · have rest : ∃ p ∈ ps, qualifies p.values = true := by simpa [hp] using some
      obtain ⟨ps', result, values⟩ := ih others rest later
      refine ⟨p :: ps', ?_, ?_⟩
      · rw [mergeFirst?, if_neg hp, result]
        rfl
      · rw [List.map_cons, List.map_cons, List.map_cons, values, if_neg hp]

end PendingInsert

/-- The filter recognises a waiting row just if the row has the key of the record. -/
theorem PendingFilter.admits_same {field key key' : String} {pending incoming : Values}
    (hp : pending.get? field = some (.string key'))
    (hi : incoming.get? field = some (.string key)) :
    (PendingFilter.same field).admits pending incoming =
      decide (Values.text? pending field = some key) := by
  rw [Values.text?, hp]
  show sameValue (pending.get? field) (incoming.get? field) = decide (some key' = some key)
  rw [hp, hi]
  simp [sameValue, Value.same, Bool.beq_eq_decide_eq]

namespace Table

variable {σ : Type} {t : Table σ} {c : CompiledCondition} {clauses : List SetClause}
  {field : String} {documents : σ → List Document} {r : UpsertRecord} {k : KeyedRecord}

/-- Without a reducer the clauses are assigned. -/
theorem merge_of_noReducer (t : Table σ) (noReducer : c.updateReducer = none) (r : UpsertRecord)
    (values : Values) :
    t.merge c clauses r values = (SetClause.evaluate clauses r.set).map values.insertAll := by
  unfold merge
  rw [noReducer]
  cases SetClause.evaluate clauses r.set with
  | error e => rfl
  | ok assignments => rfl

/-- The store, a condition and its in-memory filter go by the texts in one field. -/
structure Keyed (t : Table σ) (c : CompiledCondition) (field : String)
    (documents : σ → List Document) : Prop where
  faithful : t.backend.Faithful t.id t.container field documents
  field_ne : field ≠ idField
  resolves : ∀ values key, values.get? field = some (.string key) →
    c.resolve values = .ok (keyFilter t.id field key)
  recognises : c.inMemoryFilter = some (PendingFilter.same field).admits
  merges : c.updateReducer = none

section

variable (keyed : t.Keyed c field documents) (means : UpsertRecord.Means t.schema clauses field r k)

include keyed means

/-- Without a reducer, to merge a record into a row is to assign its values to the row. -/
theorem merge_of_means (values : Values) :
    t.merge c clauses r values = .ok (values.insertAll k.assignments) := by
  rw [t.merge_of_noReducer keyed.merges, means.assignments]
  rfl

/-- A record whose key no waiting row has is merged into none. -/
theorem mergePending?_of_noRow {q : Contents} (hq : q.Valid field)
    {pending : List PendingInsert} (waiting : pending.map (·.values) = q.rows)
    (noRow : ∀ v ∈ q.rows, v.text? field ≠ some k.key) :
    t.mergePending? c clauses r pending = none := by
  unfold mergePending?
  rw [keyed.recognises]
  refine PendingInsert.mergeFirst?_eq_none fun p hp => ?_
  have mem : p.values ∈ q.rows := waiting ▸ List.mem_map_of_mem hp
  obtain ⟨key, hkey⟩ := hq.keyed p.values mem
  rw [PendingFilter.admits_same hkey means.key]
  exact decide_eq_false (noRow p.values mem)

/-- The values of a record go into the waiting row of its key. -/
theorem mergePending?_of_row {q : Contents} (hq : q.Valid field) {pending : List PendingInsert}
    (waiting : pending.map (·.values) = q.rows) {v : Values} (hv : v ∈ q.rows)
    (key : v.text? field = some k.key) :
    ∃ pending', t.mergePending? c clauses r pending = some (.ok pending') ∧
      pending'.map (·.values) = (q.assign field k).rows := by
  let standsFor : Values → Bool := fun v => (PendingFilter.same field).admits v r.values
  have iff (u : Values) (hu : u ∈ q.rows) : standsFor u = decide (u.text? field = some k.key) := by
    obtain ⟨key, hkey⟩ := hq.keyed u hu
    exact PendingFilter.admits_same hkey means.key
  -- The waiting rows have different keys, so at most one of them stands for the record.
  have only : pending.Pairwise fun p p' =>
      standsFor p.values = true → standsFor p'.values = false := by
    have nodup := hq.nodup
    rw [← waiting, List.map_map, List.nodup_iff_pairwise_ne, List.pairwise_map] at nodup
    refine nodup.imp_of_mem fun {p p'} hp hp' distinct => ?_
    rw [iff _ (waiting ▸ List.mem_map_of_mem hp), iff _ (waiting ▸ List.mem_map_of_mem hp')]
    intro same
    exact decide_eq_false fun same' => distinct ((of_decide_eq_true same).trans same'.symm)
  have some : ∃ p ∈ pending, standsFor p.values = true := by
    obtain ⟨p, hp, rfl⟩ := List.mem_map.1 (waiting ▸ hv : v ∈ pending.map (·.values))
    exact ⟨p, hp, (iff _ hv).trans (decide_eq_true key)⟩
  have merged : ∀ p ∈ pending, t.merge c clauses r p.values =
      .ok (p.values.insertAll k.assignments) := fun p _ => merge_of_means keyed means p.values
  obtain ⟨pending', result, values⟩ :=
    PendingInsert.mergeFirst?_of_only (f := (·.insertAll k.assignments)) only some merged
  refine ⟨pending', ?_, ?_⟩
  · unfold mergePending?
    rw [keyed.recognises]
    exact result
  · rw [values, waiting]
    refine List.map_congr_left fun u hu => ?_
    simp only [iff u hu, decide_eq_true_eq, KeyedRecord.onRow]

/-- A record that no waiting row stands for updates the documents of its key, or its row waits if
there are none. -/
theorem updateOrWait_of_means (valid : k.Valid field) {ds : List Document} {w : World σ}
    (h : Addressed ds) (here : (documents w.store).Perm ds) (index : Nat)
    (pending : List PendingInsert) :
    let step := t.updateOrWait c clauses index r pending w
    let held := ds.any fun d => d.text? field = some k.key
    step.value.pending = (if held then pending else pending ++ [⟨index, k.row⟩]) ∧
      step.world.issued = w.issued ∧
      (documents step.world.store).Perm
        (if held then ds.map (k.onDocument field) else ds) := by
  intro step held
  obtain ⟨found, answer, perm, unchanged, issued⟩ := t.matching_of_faithful keyed.faithful
    (keyed.resolves r.values k.key means.key) h here
  -- The store answers with the documents of the key, so there are some just if the contents hold
  -- the key.
  cases found with
  | nil =>
    have missing : held = false := by
      have empty := List.filter_eq_nil_iff.1 perm.symm.eq_nil
      exact List.any_eq_false.2 empty
    have waits : step.value = ⟨none, pending ++ [⟨index, k.row⟩]⟩ ∧
        step.world = (t.matching c r.values w).world := by
      simp only [step]
      unfold updateOrWait
      simp only [value_bind, world_bind, answer, means.row]
      exact ⟨rfl, rfl⟩
    rw [waits.1, waits.2, missing]
    exact ⟨rfl, issued, unchanged⟩
  | cons d found =>
    have there : held = true := by
      have mem := List.mem_filter.1 (perm.mem_iff.1 List.mem_cons_self)
      exact List.any_eq_true.2 ⟨d, mem⟩
    let run := t.replaceAll clauses r.set (d :: found) (t.matching c r.values w).world
    obtain ⟨_, issued', replaced⟩ := t.replaceAll_of_faithful keyed.faithful means.assignments
      valid.id_notMem perm h unchanged
    have updates : step.value = ⟨run.value, pending⟩ ∧ step.world = run.world := by
      simp only [step]
      unfold updateOrWait
      simp only [value_bind, world_bind, answer]
      exact ⟨rfl, rfl⟩
    rw [updates.1, updates.2, there]
    exact ⟨rfl, issued'.trans issued, replaced⟩

end

end Table

end StreamTable
