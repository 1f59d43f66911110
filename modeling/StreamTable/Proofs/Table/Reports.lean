import Mathlib.Data.List.Perm.Basic
import StreamTable.Proofs.Table.Calls
import StreamTable.Proofs.Table.Handling

/-!
# What calls report

A compilation reports its success and nothing else, and a batch whose lists are of different lengths
reports nothing.  Every other call reports its start first and its finish last, whatever it returns;
what it reports between them is counted off against the bindings that it tries (`Call.bindings`),
the documents that the store gave it (`Trace.found`) and the records that failed.

`Table.Reports` says so of a trace.  Traces of which it is true can be put one after the other
(`Reports.append`), so it is shown for a binding (`reports_reportResolved`), a query (`reports_ask`)
and a failure (`reports_settle`), and carried over to batches along their recursion.
-/

namespace StreamTable

open Operation PendingInsert

/-! ### Answers to queries and bindings -/

namespace Trace

/-- The documents of an answer to a query. -/
def foundBy : Action → Option (List Document)
  | .query _ _ (.ok documents) => some documents
  | _ => none

@[simp] theorem foundBy_event (e : Event) : foundBy (.event e) = none := rfl

/-- The documents of the queries that the store answered, query by query. -/
def found (s : Trace) : List (List Document) := s.filterMap foundBy

/-- What one trace after another found is what both found, in order. -/
@[simp] theorem found_append (s s' : Trace) : found (s ++ s') = s.found ++ s'.found :=
  List.filterMap_append

/-- Nothing is reported by requests that write, and nothing is found by them. -/
theorem events_found_of_isWrite {s : Trace} (h : ∀ a ∈ s, a.isWrite = true) :
    s.events = [] ∧ s.found = [] := by
  constructor
  · refine List.filterMap_eq_nil_iff.2 fun a ha => ?_
    have write := h a ha
    cases a with
    | event e => cases write
    | _ => rfl
  · refine List.filterMap_eq_nil_iff.2 fun a ha => ?_
    have write := h a ha
    cases a with
    | query container text answer => cases write
    | _ => rfl

end Trace

/-- The operation writes documents. -/
def ExecKind.writes : ExecKind → Bool
  | .add | .delete | .update | .updateOrAdd => true
  | .find | .contains | .query => false

/-- A condition or a selection that is bound: its number of holes and what becomes of it. -/
structure Binding where
  /-- The number of holes. -/
  holes : Nat
  /-- The bound text, or why there is none. -/
  result : Except BindError String

namespace Binding

/-- The numbers of holes of the bindings that succeed. -/
def granted (bs : List Binding) : List Nat := (bs.filter (·.result.isOk)).map (·.holes)

/-- The granted bindings of two lists are those of each. -/
theorem granted_append (bs bs' : List Binding) :
    granted (bs ++ bs') = granted bs ++ granted bs' := by
  simp [granted]

end Binding

/-- The binding of a condition to some values. -/
def CompiledCondition.binding (c : CompiledCondition) (values : Values) : Binding :=
  ⟨c.size, c.resolve values⟩

/-- The binding of a selection to some values, for the filter that its condition is. -/
def CompiledSelection.binding (s : CompiledSelection) (values : Values) (filter : String) :
    Binding :=
  ⟨s.size, s.resolve values filter⟩

namespace Table

variable {σ α β : Type} (t : Table σ)

/-- The bindings of the records that no waiting row stands for; for the others nothing is bound. -/
def boundUpserts (c : CompiledCondition) (clauses : List SetClause) (us : List (HandledUpsert σ)) :
    List Binding :=
  (us.filter fun u => (t.mergePending? c clauses u.record u.waiting).isNone).map fun u =>
    c.binding u.record.values

/-- The bindings that a call tries, in their order. -/
def Call.bindings (w : World σ) : Call → List Binding
  | .find c values | .contains c values => [c.binding values]
  | .query c s values =>
    c.binding values ::
      match c.resolve values with
      | .ok filter => [s.binding values filter]
      | .error _ => []
  | .delete c batch | .update c _ batch _ => batch.map c.binding
  | .updateOrAdd c clauses batch setValues rows =>
    t.boundUpserts c clauses
      (t.handledUpserts c clauses 0 [] (upsertRecords batch setValues rows) w)
  | _ => []

/-- The events of the trace are one for each binding that succeeded, one for each query that the
store answered and one for each record that failed. -/
def Reports (kind : ExecKind) (bs : List Binding) (failures : Nat) (s : Trace) : Prop :=
  s.events.Perm ((Binding.granted bs).map (.resolved t.id ·) ++
    (s.found.map fun documents => .rowsReturned t.id documents.length) ++
    List.replicate failures (.recordFailed kind t.id))

variable {t} {kind : ExecKind} {l m : List Binding} {n n' : Nat} {s s' : Trace}

/-- Requests that write have nothing to report. -/
theorem reports_of_isWrite (h : ∀ a ∈ s, a.isWrite = true) : t.Reports kind [] 0 s := by
  obtain ⟨silent, none⟩ := Trace.events_found_of_isWrite h
  rw [Reports, silent, none]
  exact .nil

/-- Nor has an operation that does nothing. -/
theorem reports_nil : t.Reports kind [] 0 [] := reports_of_isWrite (List.forall_mem_nil _)

/-- Of operations one after the other, the bindings, the answers and the failures are reported
together. -/
theorem Reports.append (h : t.Reports kind l n s) (h' : t.Reports kind m n' s') :
    t.Reports kind (l ++ m) (n + n') (s ++ s') := by
  refine List.perm_iff_count.2 fun e => ?_
  have here := List.perm_iff_count.1 h e
  have there := List.perm_iff_count.1 h' e
  simp only [Trace.events_append, Trace.found_append, Binding.granted_append, List.map_append,
    List.replicate_add, List.count_append] at here there ⊢
  omega

/-! ### Reading -/

/-- One operation after another that may fail: the other reports if it is reached. -/
theorem Reports.andThen {x : Operation σ (Except TableError α)}
    {f : α → Operation σ (Except TableError β)} {w : World σ}
    (first : t.Reports kind l n (x w).trace)
    (second : match (x w).value with
      | .ok a => t.Reports kind m 0 (f a (x w).world).trace
      | .error _ => m = []) :
    t.Reports kind (l ++ m) n (andThen x f w).trace := by
  unfold Table.andThen
  rw [trace_bind]
  revert second
  match (x w).value with
  | .ok a => exact first.append
  | .error e =>
    rintro rfl
    exact first.append reports_nil

/-- A result that is only passed on adds nothing. -/
theorem Reports.andThen_pure {x : Operation σ (Except TableError α)}
    {g : α → Except TableError β} {w : World σ} (h : t.Reports kind l n (x w).trace) :
    t.Reports kind l n (Table.andThen x (fun a => pure (g a)) w).trace := by
  rw [← List.append_nil l]
  refine h.andThen ?_
  split
  · exact reports_nil
  · rfl

variable (t kind)

/-- A binding is reported if it succeeds. -/
theorem reports_reportResolved (b : Binding) (w : World σ) :
    t.Reports kind [b] 0 (t.reportResolved b.holes b.result w).trace := by
  obtain ⟨holes, result⟩ := b
  cases result with
  | error e => exact reports_nil
  | ok text => exact .refl _

/-- An answer is reported with its number of documents, and a refused query is not reported. -/
theorem reports_ask (text : String) (w : World σ) :
    t.Reports kind [] 0 (t.ask text w).trace := by
  rcases t.ask_cases text w with ⟨documents, _, _, trace⟩ | ⟨e, _, _, trace⟩
  · rw [trace]
    exact .refl _
  · rw [trace]
    exact .nil

/-- Looking for documents reports the binding of the condition and what was found. -/
theorem reports_matching (c : CompiledCondition) (values : Values) (w : World σ) :
    t.Reports kind [c.binding values] 0 (t.matching c values w).trace := by
  refine (t.reports_reportResolved kind (c.binding values) w).andThen (m := []) ?_
  split
  · exact t.reports_ask kind _ _
  · rfl

/-- What is done with the documents of a condition is reported after the search for them. -/
theorem reports_matching_bind {α : Type} {next : Except TableError (List Document) → Operation σ α}
    (silent : ∀ r w, t.Reports kind [] 0 (next r w).trace) (c : CompiledCondition)
    (values : Values) (w : World σ) :
    t.Reports kind [c.binding values] 0 ((t.matching c values >>= next) w).trace := by
  rw [trace_bind]
  exact (t.reports_matching kind c values w).append (silent _ _)

/-! ### Writing single documents -/

/-- A creation makes no other request. -/
theorem isWrite_create (values : Values) (w : World σ) :
    ∀ a ∈ (t.create values w).trace, a.isWrite = true := by
  unfold create newDocument
  split
  · exact List.forall_mem_singleton.2 rfl
  · exact List.forall_mem_singleton.2 rfl

/-- A replacement makes no other request. -/
theorem isWrite_replace (d : Document) (w : World σ) :
    ∀ a ∈ (t.replace d w).trace, a.isWrite = true :=
  List.forall_mem_singleton.2 rfl

/-- A removal makes no other request, and none without an address. -/
theorem isWrite_remove (d : Document) (w : World σ) :
    ∀ a ∈ (t.remove d w).trace, a.isWrite = true := by
  unfold remove
  cases d.id? with
  | none => exact List.forall_mem_nil _
  | some id => exact List.forall_mem_singleton.2 rfl

omit t in
/-- Writing document after document makes no other requests, if that is true of each. -/
theorem isWrite_writeEach {write : Document → Operation σ (Except TableError Unit)}
    (h : ∀ d w, ∀ a ∈ (write d w).trace, a.isWrite = true) (n : Nat) (ds : List Document)
    (w : World σ) : ∀ a ∈ (writeEach write n ds w).trace, a.isWrite = true := by
  induction ds generalizing n w with
  | nil => exact List.forall_mem_nil _
  | cons d ds ih =>
    unfold writeEach
    rw [trace_bind]
    refine List.forall_mem_append.2 ⟨h d w, ?_⟩
    -- The documents after one that is not written are not tried.
    cases (write d w).value with
    | ok u => exact ih (n + 1) _
    | error e => exact List.forall_mem_nil _

/-! ### Writing records -/

/-- Adding a row reports nothing by itself. -/
theorem reports_addRecord (row : Row) (w : World σ) :
    t.Reports kind [] 0 (t.addRecord row w).trace := by
  unfold addRecord
  cases t.schema.bind row with
  | error e => exact reports_nil
  | ok values =>
    have created : t.Reports kind [] 0 (t.create values w).trace :=
      reports_of_isWrite (t.isWrite_create values w)
    rw [trace_bind]
    cases (t.create values w).value with
    | ok u => exact created.append reports_nil
    | error e => exact created.append reports_nil

/-- Deleting a record reports its binding and what was found. -/
theorem reports_deleteRecord (c : CompiledCondition) (values : Values) (w : World σ) :
    t.Reports kind [c.binding values] 0 (t.deleteRecord c values w).trace := by
  refine t.reports_matching_bind kind (fun r w => ?_) c values w
  cases r with
  | error e => exact reports_nil
  | ok ds => exact reports_of_isWrite (isWrite_writeEach t.isWrite_remove 0 ds w)

/-- Replacements report nothing by themselves. -/
theorem reports_replaceAll (clauses : List SetClause) (set : Values) (ds : List Document)
    (w : World σ) : t.Reports kind [] 0 (t.replaceAll clauses set ds w).trace := by
  unfold replaceAll
  cases SetClause.evaluate clauses set with
  | error e => exact reports_nil
  | ok assignments =>
    exact reports_of_isWrite (isWrite_writeEach (fun d => t.isWrite_replace _) 0 ds w)

/-- Updating a record reports its binding and what was found. -/
theorem reports_updateRecord (c : CompiledCondition) (clauses : List SetClause)
    (values set : Values) (w : World σ) :
    t.Reports kind [c.binding values] 0 (t.updateRecord c clauses values set w).trace := by
  refine t.reports_matching_bind kind (fun r w => ?_) c values w
  cases r with
  | error e => exact reports_nil
  | ok ds => exact t.reports_replaceAll kind clauses set ds w

/-- A record that failed is reported as such, and one that did not is not. -/
theorem reports_settle (index : Nat) (p : Progress) (w : World σ) :
    t.Reports kind [] (p.outcome index).failures.length (t.settle kind index p w).trace := by
  unfold settle Progress.outcome
  cases p.failure with
  | none => exact reports_nil
  | some e => exact .refl _

/-- A batch reports what its records do, and their failures. -/
theorem reports_writeBatch {write : α → Operation σ Progress} {tries : α → List Binding}
    (h : ∀ x w, t.Reports kind (tries x) 0 (write x w).trace) (index : Nat) (xs : List α)
    (w : World σ) :
    t.Reports kind (xs.flatMap tries)
      (t.writeBatch kind write index xs w).value.failures.length
      (t.writeBatch kind write index xs w).trace := by
  induction xs generalizing index w with
  | nil => exact reports_nil
  | cons x xs ih =>
    have settled := t.reports_settle kind index (write x w).value (write x w).world
    have rest := ih (index + 1) (write x w).world
    have both := ((h x w).append settled).append rest
    rw [(t.run_writeBatch_cons kind index x xs w).1, BatchOutcome.failures_append,
      List.length_append, List.flatMap_cons]
    rw [List.append_nil, Nat.zero_add] at both
    simpa only [writeBatch, trace_bind, world_settle, pure_apply, List.append_nil,
      List.append_assoc] using both

/-! ### Updating or inserting -/

section

variable (c : CompiledCondition) (clauses : List SetClause)

omit kind in
theorem boundUpserts_cons (u : HandledUpsert σ) (us : List (HandledUpsert σ)) :
    t.boundUpserts c clauses (u :: us) =
      t.boundUpserts c clauses [u] ++ t.boundUpserts c clauses us := by
  unfold boundUpserts
  rw [← List.map_append, ← List.filter_append]
  rfl

/-- A record that no waiting row stands for reports its binding and what was found. -/
theorem reports_updateOrWait (index : Nat) (r : UpsertRecord) (pending : List PendingInsert)
    (w : World σ) :
    t.Reports kind [c.binding r.values] 0 (t.updateOrWait c clauses index r pending w).trace := by
  refine t.reports_matching_bind kind (fun found w => ?_) c r.values w
  match found with
  | .error e => exact reports_nil
  | .ok [] => cases t.schema.bind r.row <;> exact reports_nil
  | .ok (d :: ds) => exact (t.reports_replaceAll kind clauses r.set (d :: ds) w).append reports_nil

/-- The condition of a record that is merged into a waiting row is not bound. -/
theorem reports_upsertRecord (index : Nat) (r : UpsertRecord) (pending : List PendingInsert)
    (w : World σ) :
    let run := t.upsertRecord c clauses index r pending w
    t.Reports kind (t.boundUpserts c clauses [⟨r, pending, run⟩]) 0 run.trace := by
  intro run
  show t.Reports kind (t.boundUpserts c clauses [⟨r, pending, run⟩]) 0
    (t.upsertRecord c clauses index r pending w).trace
  unfold boundUpserts upsertRecord
  cases merged : t.mergePending? c clauses r pending with
  | none => simpa [merged] using t.reports_updateOrWait kind c clauses index r pending w
  | some result =>
    cases result with
    | ok pending' => simpa [merged] using reports_nil
    | error e => simpa [merged] using reports_nil

/-- The first pass reports the bindings of the records that no waiting row stood for, and the
records that failed. -/
theorem reports_upsertAll (index : Nat) (pending : List PendingInsert) (rs : List UpsertRecord)
    (w : World σ) :
    t.Reports .updateOrAdd
      (t.boundUpserts c clauses (t.handledUpserts c clauses index pending rs w))
      (t.upsertAll c clauses index pending rs w).value.1.failures.length
      (t.upsertAll c clauses index pending rs w).trace := by
  induction rs generalizing index pending w with
  | nil => exact reports_nil
  | cons r rs ih =>
    let first := t.upsertRecord c clauses index r pending w
    have here := t.reports_upsertRecord .updateOrAdd c clauses index r pending w
    have rest := ih (index + 1) first.value.pending first.world
    rw [(t.value_upsertAll_cons c clauses index pending r rs w).1, handledUpserts,
      boundUpserts_cons, BatchOutcome.failures_append, List.length_append]
    simp only [upsertAll, trace_bind]
    -- A record that waits is not settled yet.
    unfold UpsertStep.outcome
    cases step : (t.upsertRecord c clauses index r pending w).value.progress with
    | none => simpa [first, step] using here.append rest
    | some p =>
      have settled := t.reports_settle .updateOrAdd index p first.world
      simpa [first, step] using (here.append settled).append rest

/-- The second pass reports the rows that were refused. -/
theorem reports_insertPending (ps : List PendingInsert) (w : World σ) :
    t.Reports .updateOrAdd [] (t.insertPending ps w).value.failures.length
      (t.insertPending ps w).trace := by
  induction ps generalizing w with
  | nil => exact reports_nil
  | cons p ps ih =>
    let answer := t.create p.values w
    have created : t.Reports .updateOrAdd [] 0 answer.trace :=
      reports_of_isWrite (t.isWrite_create p.values w)
    have settled := t.reports_settle .updateOrAdd p.index (.ofInsertion answer.value) answer.world
    have both := (created.append settled).append (ih answer.world)
    rw [(t.value_insertPending_cons p ps w).1, BatchOutcome.failures_append, List.length_append]
    simp only [insertPending, trace_bind]
    cases result : (t.create p.values w).value with
    | ok u => simpa [answer, result, Progress.ofInsertion] using both
    | error e => simpa [answer, result, Progress.ofInsertion] using both

/-- Both passes together report the bindings of the first one and the failures of both. -/
theorem reports_upsertBatch (rs : List UpsertRecord) (w : World σ) :
    t.Reports .updateOrAdd (t.boundUpserts c clauses (t.handledUpserts c clauses 0 [] rs w))
      (t.upsertBatch c clauses rs w).value.failures.length
      (t.upsertBatch c clauses rs w).trace := by
  let updated := t.upsertAll c clauses 0 [] rs w
  have inserted := t.reports_insertPending updated.value.2 updated.world
  have both := (t.reports_upsertAll c clauses 0 [] rs w).append inserted
  -- The failures are only put in order in the end.
  have count : (t.upsertBatch c clauses rs w).value.failures.length =
      updated.value.1.failures.length +
        (t.insertPending updated.value.2 updated.world).value.failures.length := by
    refine (List.length_mergeSort _).trans ?_
    exact List.length_append
  rw [count]
  simpa [upsertBatch, updated] using both

end

/-! ### The start and the finish -/

namespace PerformedCall

/-- The call ran on the store.  It reported its start first and its finish last, with the number of
documents that it changed, and between them its bindings, its queries and its failures. -/
structure Ran (p : PerformedCall σ) (kind : ExecKind) : Prop where
  outcome : p.answer.outcome?.isSome = kind.writes
  bracketed : ∃ body, p.run.trace = .event (.started kind p.table.id) ::
      (body ++ [.event (.finished kind p.table.id p.answer.affected)]) ∧
    p.table.Reports kind (p.call.bindings p.table p.before) p.answer.failures.length body

/-- The call reported what it is to report: a compilation its success, a batch whose lists are of
different lengths nothing, and every other call what `Ran` says. -/
def IsReported (p : PerformedCall σ) : Prop :=
  match p.call.kind with
  | .inl kind =>
    p.run.trace = if p.answer.isFailure then [] else [.event (.compiled kind p.table.id)]
  | .inr kind =>
    (p.call.Mismatched → p.answer.isFailure = true ∧ p.run.trace = []) ∧
      (¬ p.call.Mismatched → p.Ran kind)

variable {p : PerformedCall σ} {kind : ExecKind}

/-- A reading operation ran if what is between its events reports its bindings; it has no outcome of
documents. -/
theorem ran_of_read {x : Operation σ (Except TableError α)} {f : α → Answer}
    (reads : kind.writes = false) (rows : ∀ a, (f a).outcome? = none)
    (perform : p.call.perform p.table =
      Answer.ofResult f <$> p.table.reported kind (fun _ => 0) x)
    (reports : p.table.Reports kind (p.call.bindings p.table p.before) 0 (x p.before).trace) :
    p.Ran kind := by
  have answer : p.answer = .ofResult f (x p.before).value := by
    unfold answer run
    rw [perform]
    rfl
  -- A reading operation has no outcome of documents, whether it succeeds or not.
  have none : p.answer.outcome? = none := by
    rw [answer]
    cases (x p.before).value with
    | ok a => exact rows a
    | error e => rfl
  constructor
  · rw [none, reads]
    rfl
  · refine ⟨(x p.before).trace, ?_, ?_⟩
    · unfold Answer.affected
      rw [none]
      unfold run
      rw [perform, trace_map]
      rfl
    · unfold Answer.failures
      rw [none]
      exact reports

/-- A writing operation ran if what is between its events reports its bindings and its failures. -/
theorem ran_of_write (x : Operation σ BatchOutcome) (writes : kind.writes = true)
    (answer : p.answer = .outcome (x p.before).value)
    (trace : p.run.trace = (p.table.reported kind (·.affected) x p.before).trace)
    (reports : p.table.Reports kind (p.call.bindings p.table p.before)
      (x p.before).value.failures.length (x p.before).trace) :
    p.Ran kind := by
  constructor
  · rw [answer, writes]
    rfl
  · refine ⟨(x p.before).trace, ?_, ?_⟩
    · rw [trace, answer]
      rfl
    · rw [answer]
      exact reports

/-- A batch whose lists are of one length runs. -/
theorem ran_of_matched {x : Operation σ BatchOutcome}
    {y : Operation σ (Except TableError BatchOutcome)} (writes : kind.writes = true)
    (perform : p.call.perform p.table = Answer.ofResult .outcome <$> y)
    (matched : y = .ok <$> p.table.reported kind (·.affected) x)
    (reports : p.table.Reports kind (p.call.bindings p.table p.before)
      (x p.before).value.failures.length (x p.before).trace) :
    p.Ran kind := by
  refine ran_of_write x writes ?_ ?_ reports
  · unfold answer run
    rw [perform, matched]
    rfl
  · unfold run
    rw [perform, matched, trace_map, trace_map]

/-- A compilation is reported if it succeeds, and only then. -/
theorem isReported_of_compile {r : Except CompileError α} {f : α → Answer} {kind : CompileKind}
    (compiles : p.call.kind = .inl kind) (success : ∀ a, (f a).isFailure = false)
    (perform : p.call.perform p.table = Answer.ofResult f <$> p.table.reportCompiled kind r) :
    p.IsReported := by
  unfold IsReported answer run
  rw [compiles, perform]
  cases r with
  | ok a =>
    show _ = if (f a).isFailure then [] else _
    rw [success]
    rfl
  | error e => rfl

/-- A call that ran reported what it is to report if its lists are of one length. -/
theorem Ran.isReported (h : p.Ran kind) (runs : p.call.kind = .inr kind)
    (matched : ¬ p.call.Mismatched) : p.IsReported := by
  unfold IsReported
  rw [runs]
  exact ⟨fun mismatched => absurd mismatched matched, fun _ => h⟩

/-- A batch whose lists are of different lengths is refused. -/
theorem isReported_of_refused {e : TableError} {x : Operation σ (Except TableError α)}
    {f : α → Answer} (runs : p.call.kind = .inr kind) (mismatched : p.call.Mismatched)
    (perform : p.call.perform p.table = Answer.ofResult f <$> x) (refused : x = pure (.error e)) :
    p.IsReported := by
  unfold IsReported answer run
  rw [runs, perform, refused]
  exact ⟨fun _ => ⟨rfl, rfl⟩, fun matched => absurd mismatched matched⟩

variable (t : Table σ) (c : CompiledCondition) (clauses : List SetClause) (values : Values)
  (batch setValues : List Values) (rows : List Row) (w : World σ)

theorem ran_find : Ran ⟨t, .find c values, w⟩ .find :=
  ran_of_read rfl (fun _ => rfl) rfl (t.reports_matching .find c values w).andThen_pure

theorem ran_contains : Ran ⟨t, .contains c values, w⟩ .contains := by
  refine ran_of_read rfl (fun _ => rfl) rfl ?_
  refine (t.reports_reportResolved .contains (c.binding values) w).andThen (m := []) ?_
  split
  · exact (t.reports_ask .contains _ _).andThen_pure
  · rfl

theorem ran_query (s : CompiledSelection) : Ran ⟨t, .query c s values, w⟩ .query := by
  refine ran_of_read rfl (fun _ => rfl) rfl ?_
  refine (t.reports_reportResolved .query (c.binding values) w).andThen ?_
  unfold CompiledCondition.binding
  cases c.resolve values with
  | error e => rfl
  | ok f =>
    refine (t.reports_reportResolved .query (s.binding values f) _).andThen (m := []) ?_
    split
    · exact (t.reports_ask .query _ _).andThen_pure
    · rfl

theorem ran_add : Ran ⟨t, .add rows, w⟩ .add := by
  have reports := t.reports_writeBatch .add (t.reports_addRecord .add) 0 rows w
  rw [List.flatMap_eq_nil_iff.2 fun _ _ => rfl] at reports
  exact ran_of_write (t.writeBatch .add t.addRecord 0 rows) rfl rfl (trace_map _ _ _) reports

theorem ran_delete : Ran ⟨t, .delete c batch, w⟩ .delete := by
  have reports := t.reports_writeBatch .delete (t.reports_deleteRecord .delete c) 0 batch w
  rw [← List.map_eq_flatMap] at reports
  exact ran_of_write (t.writeBatch .delete (t.deleteRecord c) 0 batch) rfl rfl (trace_map _ _ _)
    reports

theorem ran_update (matched : batch.length = setValues.length) :
    Ran ⟨t, .update c clauses batch setValues, w⟩ .update := by
  have record (x : Values × Values) (w : World σ) :
      t.Reports .update [c.binding x.1] 0 (t.updateRecord c clauses x.1 x.2 w).trace :=
    t.reports_updateRecord .update c clauses x.1 x.2 w
  have reports := t.reports_writeBatch .update record 0 (batch.zip setValues) w
  have firsts : (batch.zip setValues).flatMap (fun x => [c.binding x.1]) = batch.map c.binding := by
    calc (batch.zip setValues).flatMap (fun x => [c.binding x.1])
        = (batch.zip setValues).map (c.binding ∘ Prod.fst) := List.map_eq_flatMap.symm
      _ = batch.map c.binding := by rw [← List.map_map, List.map_fst_zip (Nat.le_of_eq matched)]
  rw [firsts] at reports
  exact ran_of_matched rfl rfl (t.update_of_length c clauses batch setValues matched) reports

theorem ran_updateOrAdd (matched : batch.length = setValues.length ∧ batch.length = rows.length) :
    Ran ⟨t, .updateOrAdd c clauses batch setValues rows, w⟩ .updateOrAdd := by
  have reports := t.reports_upsertBatch c clauses (upsertRecords batch setValues rows) w
  have runs := t.updateOrAdd_of_length c clauses batch setValues matched.1 matched.2
  exact ran_of_matched rfl rfl runs reports

/-- Every call reports what it is to report. -/
theorem isReported (p : PerformedCall σ) : p.IsReported := by
  obtain ⟨t, call, w⟩ := p
  cases call with
  | compileCondition e => exact isReported_of_compile rfl (fun _ => rfl) rfl
  | compileSetAttribute name e => exact isReported_of_compile rfl (fun _ => rfl) rfl
  | compileSelection s => exact isReported_of_compile rfl (fun _ => rfl) rfl
  | find c values => exact (ran_find t c values w).isReported rfl not_false
  | contains c values => exact (ran_contains t c values w).isReported rfl not_false
  | query c s values => exact (ran_query t c values w s).isReported rfl not_false
  | add rows => exact (ran_add t rows w).isReported rfl not_false
  | delete c batch => exact (ran_delete t c batch w).isReported rfl not_false
  | update c clauses batch setValues =>
    by_cases matched : batch.length = setValues.length
    · exact (ran_update t c clauses batch setValues w matched).isReported rfl
        fun mismatched => mismatched matched
    · exact isReported_of_refused rfl matched rfl (t.update_of_length_ne c clauses _ _ matched)
  | updateOrAdd c clauses batch setValues rows =>
    by_cases matched : batch.length = setValues.length ∧ batch.length = rows.length
    · exact (ran_updateOrAdd t c clauses batch setValues rows w matched).isReported rfl
        fun mismatched => mismatched matched
    · obtain ⟨e, refused⟩ := t.updateOrAdd_of_length_ne c clauses batch setValues matched
      exact isReported_of_refused rfl matched rfl refused

end PerformedCall

/-- Whatever the calls and the stores, the calls are performed one after the other, the events are
those of the calls in their order, and every call reports what it is to report. -/
theorem events_performAll (calls : List (Table σ × Call)) (w : World σ) :
    (performed calls w).map (fun p => (p.table, p.call)) = calls ∧
    (performAll calls w).value = (performed calls w).map (·.answer) ∧
    (performAll calls w).trace.events = (performed calls w).flatMap (·.run.trace.events) ∧
    ∀ p ∈ performed calls w, p.IsReported :=
  ⟨map_performed calls w, value_performAll calls w, events_performed calls w,
    fun p _ => p.isReported⟩

end Table

end StreamTable
