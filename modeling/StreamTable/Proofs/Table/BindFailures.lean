import StreamTable.Proofs.Selection.QueryText
import StreamTable.Proofs.Table.Handling

/-!
# Failures to bind

Runtime values may not fit: an attribute that a condition or a selection needs has no value
(`CompiledCondition.Unbound`), a set clause has no single value, or a row is not as long as the
schema.  Where the condition or the selection is unbound, the store is not asked at all
(`Run.FailsUnasked`).  Where a record of a batch fails to be bound for whatever reason, no document
is written for it, and no row that waits is touched (`SparesUnbound`, `Table.SparesUnboundUpserts`).

`Table.bindFailures_change_nothing` puts this together for all operations of a table.
-/

namespace StreamTable

open Operation PendingInsert

/-! ### Conditions and selections without a value -/

/-- An attribute of the stream that the condition needs has no value. -/
def CompiledCondition.Unbound (values : Values) (c : CompiledCondition) : Prop :=
  c.alwaysTrue = false ∧
    ∃ p ∈ c.parameters, ∃ a, p.boundAttribute? = some a ∧ values.get? a = none

/-- A condition is unbound just if it cannot be resolved. -/
theorem CompiledCondition.unbound_iff {values : Values} {c : CompiledCondition} :
    c.Unbound values ↔ ∃ e, c.resolve values = .error e := by
  have bound : c.Bound values ↔
      ¬ ∃ p ∈ c.parameters, ∃ a, p.boundAttribute? = some a ∧ values.get? a = none := by
    unfold Bound
    push Not
    simp only [Option.isSome_iff_ne_none]
  cases always : c.alwaysTrue with
  | true => simp [Unbound, resolve, always]
  | false =>
    -- The first hole without a value, if there is one, decides the error.
    rw [Unbound, ← not_iff_not, not_and_or, ← bound, ← findSome?_unbound?_eq_none,
      resolve_eq always]
    cases c.parameters.findSome? (Parameter.unbound? values) with
    | none => simp
    | some e => simp [always]

/-- A selection with a text has no unbound clause. -/
theorem CompiledSelection.resolve_clauses {s : CompiledSelection} {values : Values}
    {filter text : String} (h : s.resolve values filter = .ok text) :
    ∀ c ∈ s.clauses, ∃ part, c.resolve values = .ok part := by
  have present {clause : Option CompiledCondition} {part? : Option String}
      (h : resolveClause values clause = .ok part?) :
      ∀ c ∈ clause, ∃ part, c.resolve values = .ok part := by
    rintro c rfl
    obtain ⟨part, resolved, _⟩ := map_eq_ok.1 h
    exact ⟨part, resolved⟩
  obtain ⟨_, clauses, _⟩ := bind_eq_ok.1 h
  simp only [resolveClauses, bind_eq_ok] at clauses
  obtain ⟨_, groupBy, select, selected, _, sub, _, having, _, orderBy, _⟩ := clauses
  refine forall_mem_clauses.2
    ⟨⟨select, selected⟩, ?_, present groupBy, present having, present orderBy⟩
  rintro t ht
  rw [ht] at sub
  simp only [resolveSubSelect, bind_eq_ok] at sub
  obtain ⟨inner, hi, join, hj, _⟩ := sub
  exact ⟨⟨inner, hi⟩, ⟨join, hj⟩⟩

/-- One clause that cannot be resolved is enough to refuse the selection. -/
theorem CompiledSelection.exists_resolve_eq_error {s : CompiledSelection} {values : Values}
    (h : ∃ c ∈ s.clauses, c.Unbound values) (filter : String) :
    ∃ e, s.resolve values filter = .error e := by
  obtain ⟨c, mem, unbound⟩ := h
  obtain ⟨e, failed⟩ := CompiledCondition.unbound_iff.1 unbound
  cases resolved : s.resolve values filter with
  | error e => exact ⟨e, rfl⟩
  | ok text =>
    obtain ⟨part, here⟩ := CompiledSelection.resolve_clauses resolved c mem
    rw [failed] at here
    cases here

/-! ### Reading -/

/-- The store was not asked for anything, and the operation failed to be bound. -/
def Run.FailsUnasked {σ α : Type} (run : Run σ (Except TableError α)) : Prop :=
  run.trace.requests = [] ∧ ∃ e, run.value = .error (.bind e)

namespace Table

variable {σ α β : Type} (t : Table σ) {c : CompiledCondition} {values : Values} {w : World σ}

/-- Nothing follows an operation that failed before it asked the store. -/
theorem failsUnasked_andThen {x : Operation σ (Except TableError α)}
    {f : α → Operation σ (Except TableError β)} (h : (x w).FailsUnasked) :
    (andThen x f w).FailsUnasked := by
  obtain ⟨silent, e, failed⟩ := h
  unfold andThen
  constructor
  · rw [trace_bind, Trace.requests_append, silent, failed]
    rfl
  · rw [value_bind, failed]
    exact ⟨e, rfl⟩

/-- The events around an operation are no requests. -/
theorem failsUnasked_reported (kind : ExecKind) (rows : Except TableError α → Nat)
    {x : Operation σ (Except TableError α)} (h : (x w).FailsUnasked) :
    (t.reported kind rows x w).FailsUnasked := by
  obtain ⟨silent, e, failed⟩ := h
  refine ⟨?_, e, failed⟩
  rw [requests_reported, silent]

variable (w)

/-- A filter that cannot be bound fails before the store is asked. -/
theorem failsUnasked_filter (h : c.Unbound values) : (t.filter c values w).FailsUnasked := by
  obtain ⟨e, failed⟩ := CompiledCondition.unbound_iff.1 h
  unfold filter
  rw [failed]
  exact ⟨rfl, e, rfl⟩

/-- A find whose condition cannot be bound does not ask the store. -/
theorem failsUnasked_find (h : c.Unbound values) : (t.find c values w).FailsUnasked := by
  have matching : (t.matching c values w).FailsUnasked :=
    failsUnasked_andThen (t.failsUnasked_filter w h)
  exact t.failsUnasked_reported _ _ (failsUnasked_andThen matching)

/-- The question whether there are documents does not reach the store either, if its condition
cannot be bound. -/
theorem failsUnasked_contains (h : c.Unbound values) : (t.contains c values w).FailsUnasked :=
  t.failsUnasked_reported _ _ (failsUnasked_andThen (t.failsUnasked_filter w h))

/-- A query fails without a request if its condition is unbound, and as well if its selection is. -/
theorem failsUnasked_query {s : CompiledSelection}
    (h : c.Unbound values ∨ ∃ clause ∈ s.clauses, clause.Unbound values) :
    (t.query c s values w).FailsUnasked := by
  apply t.failsUnasked_reported
  by_cases unbound : c.Unbound values
  · exact failsUnasked_andThen (t.failsUnasked_filter w unbound)
  · have selection := h.resolve_left unbound
    cases resolved : c.resolve values with
    | error e => exact absurd (CompiledCondition.unbound_iff.2 ⟨e, resolved⟩) unbound
    | ok f =>
      -- The condition is bound and reported, and then the selection fails.
      obtain ⟨e, failed⟩ := CompiledSelection.exists_resolve_eq_error selection f
      unfold filter
      rw [resolved]
      show Run.FailsUnasked (andThen (t.reportResolved c.size (.ok f)) _ w)
      unfold Run.FailsUnasked andThen
      simp [reportResolved, failed, emit, Trace.requests, Action.isRequest, Action.event?]

end Table

/-! ### Batches -/

/-- An error of binding is not the store's. -/
theorem TableError.not_isRefusal_bind (e : BindError) : ¬ (TableError.bind e).IsRefusal := by
  rintro ⟨b, h⟩
  cases h

/-- What a batch does to the store when records of it cannot be bound, given its records as they
were handled and those that `Unfit` says not to fit. -/
structure SparesUnbound {σ α : Type} (Unfit : α → Prop) (xs : List α)
    (handled : List (α × Run σ Progress)) (trace : Trace) (failures : List RecordFailure) :
    Prop where
  /-- All records are handled. -/
  records : handled.map (·.1) = xs
  /-- The batch makes the requests of its records and no others. -/
  requests : trace.requests = handled.flatMap (·.2.trace.requests)
  /-- A record that does not fit fails, and nothing is asked for it. -/
  unfit : ∀ i x run, handled[i]? = some (x, run) → Unfit x →
    run.trace.requests = [] ∧ ∃ e, ⟨i, .bind e⟩ ∈ failures
  /-- If a record fails to be bound, no document is written for it. -/
  failed : ∀ i e, ⟨i, .bind e⟩ ∈ failures →
    ∃ x run, handled[i]? = some (x, run) ∧ run.trace.ReadOnly

namespace Table

variable {σ α : Type} (t : Table σ) (c : CompiledCondition) (clauses : List SetClause)
  (w : World σ)

/-- A batch spares its unfit records, if each of them alone does nothing, and a record that fails to
bind has only read. -/
theorem sparesUnbound_writeBatch (kind : ExecKind) {write : α → Operation σ Progress}
    {Unfit : α → Prop}
    (unfit : ∀ x w, Unfit x →
      (write x w).trace.requests = [] ∧ ∃ e, (write x w).value.failure = some (.bind e))
    (failed : ∀ x w e, (write x w).value.failure = some (.bind e) → (write x w).trace.ReadOnly)
    (xs : List α) :
    let batch := t.reported kind (·.affected) (t.writeBatch kind write 0 xs)
    SparesUnbound Unfit xs (handled write xs w) (batch w).trace (batch w).value.failures := by
  intro batch
  have failures : (batch w).value.failures =
      RecordFailure.ofRecords (·.2.value.failure) 0 (handled write xs w) :=
    t.failures_writeBatch kind 0 xs w
  refine ⟨map_fst_handled xs w, ?_, fun i x run here hx => ?_, fun i e mem => ?_⟩
  · rw [requests_reported, requests_writeBatch]
  · obtain ⟨w', rfl⟩ := exists_run_handled here
    obtain ⟨silent, e, he⟩ := unfit x w' hx
    rw [failures]
    exact ⟨silent, e, RecordFailure.mem_ofRecords.2 ⟨_, here, he⟩⟩
  · rw [failures] at mem
    obtain ⟨⟨x, run⟩, here, he⟩ := RecordFailure.mem_ofRecords.1 mem
    obtain ⟨w', rfl⟩ := exists_run_handled here
    exact ⟨x, _, here, failed x w' e he⟩

/-! ### Adding, deleting and updating -/

/-- A row of the right length fails only where the store refuses it. -/
theorem isRefusal_addRecord {row : Row} (h : row.length = t.schema.length) :
    ∀ e ∈ (t.addRecord row w).value.failure, e.IsRefusal := by
  have fits : t.schema.bind row = .ok (.ofPairs (t.schema.names.zip row)) := if_pos h
  obtain ⟨_, answer, _, result⟩ := t.create_eq (.ofPairs (t.schema.names.zip row)) w
  unfold addRecord
  rw [fits, value_bind, result]
  intro e he
  cases answer with
  | ok u => cases he
  | error b =>
    cases he
    exact ⟨b, rfl⟩

/-- An addition reports the rows of a wrong length and asks nothing for them. -/
theorem sparesUnbound_add (rows : List Row) :
    SparesUnbound (·.length ≠ t.schema.length) rows (handled t.addRecord rows w)
      (t.add rows w).trace (t.add rows w).value.failures := by
  refine t.sparesUnbound_writeBatch w .add (fun row w h => ?_) (fun row w e he => ?_) rows
  · obtain ⟨e, run⟩ := t.addRecord_of_length_ne w h
    rw [run]
    exact ⟨rfl, e, rfl⟩
  · apply Trace.readOnly_of_requests
    by_cases h : row.length = t.schema.length
    · exact absurd (t.isRefusal_addRecord w h _ he) (TableError.not_isRefusal_bind e)
    · obtain ⟨e, run⟩ := t.addRecord_of_length_ne w h
      rw [run]
      rfl

section

-- The documents of a record are looked up first, and `next` goes on with the answer.
variable {values : Values} {next : Except TableError (List Document) → Operation σ Progress}
  (refused : ∀ e w, next (.error e) w = ⟨.failed e, [], w⟩)

include refused

/-- Whatever follows the look-up, an unbound condition makes the record fail without a request. -/
theorem fails_of_unbound (h : c.Unbound values) :
    ((t.matching c values >>= next) w).trace.requests = [] ∧
      ∃ e, ((t.matching c values >>= next) w).value.failure = some (.bind e) := by
  obtain ⟨e, failed⟩ := CompiledCondition.unbound_iff.1 h
  rcases t.matching_cases c values w with ⟨e, _, run⟩ | ⟨f, _, bound, _⟩
  · rw [bind_apply, run, refused]
    exact ⟨rfl, e, rfl⟩
  · rw [failed] at bound
    cases bound

/-- If nothing is written with the answer where that fails to be bound, nothing is written for the
record. -/
theorem readOnly_of_matching {e : BindError}
    (answered : ∀ ds w, (next (.ok ds) w).value.failure = some (.bind e) →
      (next (.ok ds) w).trace.ReadOnly)
    (h : ((t.matching c values >>= next) w).value.failure = some (.bind e)) :
    ((t.matching c values >>= next) w).trace.ReadOnly := by
  rcases t.matching_cases c values w with ⟨e', _, run⟩ | ⟨f, answer, _, asked, result⟩
  · rw [bind_apply, run, refused]
    exact List.forall_mem_nil _
  · rw [value_bind, result] at h
    unfold Trace.ReadOnly Trace.Only
    rw [trace_bind, Trace.requests_append, asked, result]
    refine List.forall_mem_cons.2 ⟨rfl, ?_⟩
    cases answer with
    | error b =>
      have failed := refused (.backend b) (t.matching c values w).world
      rw [Except.mapError, failed]
      exact List.forall_mem_nil _
    | ok ds => exact answered ds _ h

end

/-- A deletion reports the records that do not bind its condition and asks nothing for them. -/
theorem sparesUnbound_delete (batch : List Values) :
    SparesUnbound c.Unbound batch (handled (t.deleteRecord c) batch w) (t.delete c batch w).trace
      (t.delete c batch w).value.failures := by
  refine t.sparesUnbound_writeBatch w .delete (fun values w h => ?_) (fun values w e he => ?_) batch
  · exact t.fails_of_unbound c w (fun _ _ => rfl) h
  · refine t.readOnly_of_matching c w (fun _ _ => rfl) (fun ds w h => ?_) he
    -- Only the store can keep a document from being removed.
    have refusal := failure_writeEach (fun d w e => t.failure_remove d w) 0 ds w _ h
    exact absurd refusal (TableError.not_isRefusal_bind e)

/-- The assignments are evaluated before anything is replaced, so a record that does not bind them
changes no document. -/
theorem readOnly_replaceAll {set : Values} {ds : List Document} {e : BindError}
    (h : (t.replaceAll clauses set ds w).value.failure = some (.bind e)) :
    (t.replaceAll clauses set ds w).trace.ReadOnly := by
  rcases t.replaceAll_cases clauses set ds w with ⟨e, _, run⟩ | ⟨_, _, _, refusal⟩
  · rw [run]
    exact List.forall_mem_nil _
  · exact absurd (refusal _ h) (TableError.not_isRefusal_bind e)

/-- An update reports the records that do not bind its condition and asks nothing for them; with
batches of one length it is not refused as a whole. -/
theorem sparesUnbound_update {batch setValues : List Values}
    (h : batch.length = setValues.length) :
    ∃ o, (t.update c clauses batch setValues w).value = .ok o ∧
      SparesUnbound (fun x => c.Unbound x.1) (batch.zip setValues)
        (handled (fun x => t.updateRecord c clauses x.1 x.2) (batch.zip setValues) w)
        (t.update c clauses batch setValues w).trace o.failures := by
  rw [t.update_of_length c clauses batch setValues h, value_map, trace_map]
  refine ⟨_, rfl, ?_⟩
  refine t.sparesUnbound_writeBatch w .update (fun x w h => ?_) (fun x w e he => ?_) _
  · exact t.fails_of_unbound c w (fun _ _ => rfl) h
  · exact t.readOnly_of_matching c w (fun _ _ => rfl)
      (fun ds w h => t.readOnly_replaceAll clauses w h) he

/-! ### Updating or inserting -/

/-- A record that fails to be bound has written nothing, and the rows wait as before. -/
theorem Handles.of_failure {t : Table σ} {index : Nat} {r : UpsertRecord}
    {pending : List PendingInsert} {requests : Trace} {step : UpsertStep} {e : BindError}
    (h : t.Handles c clauses index r pending requests step)
    (failed : step.failure? = some (.bind e)) :
    (∀ a ∈ requests, a.isWrite = false) ∧ step.pending = pending ∧ step.progress.isSome := by
  cases h with
  | merged _ _ _ _ => cases failed
  | unmergeable _ _ _ _ => exact ⟨List.forall_mem_nil _, rfl, rfl⟩
  | unbound _ _ => exact ⟨List.forall_mem_nil _, rfl, rfl⟩
  | refused _ _ => cases failed
  | misfits _ _ _ => exact ⟨List.forall_mem_singleton.2 rfl, rfl, rfl⟩
  | waits _ _ _ => cases failed
  | unassigned _ _ _ => exact ⟨List.forall_mem_singleton.2 rfl, rfl, rfl⟩
  | updates _ _ _ refusal => exact absurd (refusal _ failed) (TableError.not_isRefusal_bind e)

/-- Nothing is asked for a record whose condition is unbound; it is merged into a waiting row, or it
fails. -/
theorem Handles.of_unbound {t : Table σ} {index : Nat} {r : UpsertRecord}
    {pending : List PendingInsert} {requests : Trace} {step : UpsertStep}
    (h : t.Handles c clauses index r pending requests step) (unbound : c.Unbound r.values) :
    requests = [] ∧ ((∃ p ∈ pending, c.StandsFor r p.values) ∨
      ∃ e, step = ⟨some (.failed (.bind e)), pending⟩) := by
  obtain ⟨e, failed⟩ := CompiledCondition.unbound_iff.1 unbound
  have contradicts {f : String} {P : Prop} (bound : c.resolve r.values = .ok f) : P := by
    rw [failed] at bound
    cases bound
  have mem {before after : List PendingInsert} {p : PendingInsert}
      (split : pending = before ++ p :: after) : p ∈ pending :=
    split ▸ List.mem_append_cons_self
  -- Where a query was made, the condition was bound.
  cases h with
  | merged split _ here _ => exact ⟨rfl, .inl ⟨_, mem split, here⟩⟩
  | unmergeable split _ here _ => exact ⟨rfl, .inl ⟨_, mem split, here⟩⟩
  | unbound _ _ => exact ⟨rfl, .inr ⟨_, rfl⟩⟩
  | refused _ bound => exact contradicts bound
  | misfits _ bound _ => exact contradicts bound
  | waits _ bound _ => exact contradicts bound
  | unassigned _ bound _ => exact contradicts bound
  | updates _ bound _ _ => exact contradicts bound

/-- What a batch of updates or insertions does when records of it cannot be bound, given its records
as they were handled and the rows that wait after them. -/
structure SparesUnboundUpserts (rs : List UpsertRecord) (handled : List (HandledUpsert σ))
    (waiting : List PendingInsert) (trace : Trace) (failures : List RecordFailure) : Prop where
  /-- All records are handled. -/
  records : handled.map (·.record) = rs
  /-- The batch makes the requests of its records, and it creates the waiting rows. -/
  requests : ∃ creates, trace.requests = handled.flatMap (·.run.trace.requests) ++ creates ∧
    t.Inserts waiting creates
  /-- Nothing is asked for a record whose condition is unbound.  Unless a waiting row stands for it,
  it fails and leaves the waiting rows as they are. -/
  unbound : ∀ i u, handled[i]? = some u → c.Unbound u.record.values →
    u.run.trace.requests = [] ∧ ((∃ p ∈ u.waiting, c.StandsFor u.record p.values) ∨
      u.run.value.pending = u.waiting ∧ ∃ e, ⟨i, .bind e⟩ ∈ failures)
  /-- If a record fails to be bound, no document is written for it, it leaves the waiting rows as
  they are, and no row of its own waits. -/
  failed : ∀ i e, ⟨i, .bind e⟩ ∈ failures → ∃ u, handled[i]? = some u ∧
    u.run.trace.ReadOnly ∧ u.run.value.pending = u.waiting ∧ i ∉ indices waiting

/-- Unless a waiting row stands for it, an update or addition reports a record that does not bind its
condition and asks nothing for it. -/
theorem sparesUnbound_updateOrAdd {batch setValues : List Values} {rows : List Row}
    (hs : batch.length = setValues.length) (hr : batch.length = rows.length) :
    let rs := upsertRecords batch setValues rows
    ∃ o, (t.updateOrAdd c clauses batch setValues rows w).value = .ok o ∧
      t.SparesUnboundUpserts c rs (t.handledUpserts c clauses 0 [] rs w)
        (t.upsertAll c clauses 0 [] rs w).value.2
        (t.updateOrAdd c clauses batch setValues rows w).trace o.failures := by
  intro rs
  rw [t.updateOrAdd_of_length c clauses batch setValues hs hr, value_map, trace_map]
  refine ⟨(t.upsertBatch c clauses rs w).value, rfl, ?_⟩
  have failures {i : Nat} {e : BindError} :=
    t.mem_failures_upsertBatch c clauses w rs (f := ⟨i, .bind e⟩)
      (TableError.not_isRefusal_bind e)
  refine ⟨t.map_record_handledUpserts c clauses 0 [] rs w, ?_, fun i u here hu => ?_,
    fun i e mem => ?_⟩
  · rw [requests_reported]
    exact t.requests_upsertBatch c clauses w rs
  · obtain ⟨silent, outcome⟩ := (t.handles_of_getElem? c clauses w here).of_unbound c clauses hu
    refine ⟨silent, outcome.imp_right fun ⟨e, step⟩ => ?_⟩
    rw [step]
    refine ⟨rfl, e, failures.2 ⟨u, here, ?_⟩⟩
    rw [step]
    rfl
  · obtain ⟨u, here, failed⟩ := failures.1 mem
    obtain ⟨readOnly, kept, settled⟩ :=
      (t.handles_of_getElem? c clauses w here).of_failure c clauses failed
    refine ⟨u, here, readOnly, kept, fun waits => ?_⟩
    -- A record with a waiting row is not settled yet, but one that failed is.
    obtain ⟨u', here', unsettled⟩ := (t.mem_indices_upsertAll c clauses).1 waits
    obtain rfl : u = u' := Option.some.inj (here.symm.trans here')
    rw [unsettled] at settled
    cases settled

/-! ### All operations -/

/-- Where runtime values cannot be bound, nothing changes.  No operation asks the store for anything
if its condition or its selection is unbound; in a batch this holds of each record, and a record
that fails to be bound for any reason writes no document and leaves the waiting rows as they are.  A
batch whose lists are of different lengths fails before anything is asked. -/
theorem bindFailures_change_nothing :
    (∀ values, c.Unbound values →
      (t.find c values w).FailsUnasked ∧ (t.contains c values w).FailsUnasked) ∧
    (∀ s values, (c.Unbound values ∨ ∃ clause ∈ s.clauses, clause.Unbound values) →
      (t.query c s values w).FailsUnasked) ∧
    (∀ rows, SparesUnbound (·.length ≠ t.schema.length) rows (handled t.addRecord rows w)
      (t.add rows w).trace (t.add rows w).value.failures) ∧
    (∀ batch, SparesUnbound c.Unbound batch (handled (t.deleteRecord c) batch w)
      (t.delete c batch w).trace (t.delete c batch w).value.failures) ∧
    (∀ batch setValues,
      let run := t.update c clauses batch setValues w
      (batch.length = setValues.length → ∃ o, run.value = .ok o ∧
        SparesUnbound (fun x => c.Unbound x.1) (batch.zip setValues)
          (handled (fun x => t.updateRecord c clauses x.1 x.2) (batch.zip setValues) w)
          run.trace o.failures) ∧
      (batch.length ≠ setValues.length → ∃ e, run = ⟨.error e, [], w⟩)) ∧
    ∀ batch setValues rows,
      let run := t.updateOrAdd c clauses batch setValues rows w
      let rs := upsertRecords batch setValues rows
      (batch.length = setValues.length → batch.length = rows.length → ∃ o, run.value = .ok o ∧
        t.SparesUnboundUpserts c rs (t.handledUpserts c clauses 0 [] rs w)
          (t.upsertAll c clauses 0 [] rs w).value.2 run.trace o.failures) ∧
      (¬ (batch.length = setValues.length ∧ batch.length = rows.length) →
        ∃ e, run = ⟨.error e, [], w⟩) := by
  refine ⟨fun values h => ⟨t.failsUnasked_find w h, t.failsUnasked_contains w h⟩,
    fun s values h => t.failsUnasked_query w h, t.sparesUnbound_add w, t.sparesUnbound_delete c w,
    fun batch setValues => ⟨t.sparesUnbound_update c clauses w, fun h => ?_⟩,
    fun batch setValues rows => ⟨t.sparesUnbound_updateOrAdd c clauses w, fun h => ?_⟩⟩
  · rw [t.update_of_length_ne c clauses batch setValues h]
    exact ⟨_, rfl⟩
  · obtain ⟨e, refused⟩ := t.updateOrAdd_of_length_ne c clauses batch setValues h
    rw [refused]
    exact ⟨e, rfl⟩

end Table

end StreamTable
