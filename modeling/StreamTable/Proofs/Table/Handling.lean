import Mathlib.Data.List.Forall2
import StreamTable.Proofs.Table.Accounting
import StreamTable.Proofs.Table.Records

/-!
# The handling of a record

What an operation asks of the store for a single record, and how the record ends.

A condition is either not bound, and nothing is asked, or it is one query (`Table.matching_cases`).
Documents that are written one after the other are only written, and a failure among them is one of
the store (`Table.replaceAll_cases`, `Table.failure_writeEach`).

For a record of `Table.updateOrAdd` the relation `Table.Handles` has one case for each way in which
it can end, and `Table.handles_upsertRecord` says that these are all.  The insertions create one
document for each waiting row (`Table.inserts_insertPending`).
-/

namespace StreamTable

open Operation PendingInsert
open Document (ofValues hasId)

/-! ### Requests that write -/

namespace Action

/-- The action is a request to create, replace or delete a document. -/
def isWrite : Action → Bool
  | .create _ _ _ | .replace _ _ _ | .delete _ _ _ => true
  | .event _ | .query _ _ _ => false

/-- The action is a query. -/
def isQuery : Action → Bool
  | .query _ _ _ => true
  | _ => false

/-- The action is a request to replace a document. -/
def isReplace : Action → Bool
  | .replace _ _ _ => true
  | _ => false

end Action

/-- The store is not asked to create, replace or delete a document. -/
def Trace.ReadOnly (t : Trace) : Prop := t.Only (·.isWrite = false)

/-- A trace without requests has only read. -/
theorem Trace.readOnly_of_requests {t : Trace} (h : t.requests = []) : t.ReadOnly := by
  intro a ha
  rw [h] at ha
  cases ha

/-- The error comes from the store. -/
def TableError.IsRefusal (e : TableError) : Prop := ∃ b, e = .backend b

/-- The in-memory filter of the condition recognises the record in the values of a waiting row. -/
def CompiledCondition.StandsFor (c : CompiledCondition) (r : UpsertRecord) (values : Values) :
    Prop :=
  ∃ standsFor ∈ c.inMemoryFilter, standsFor values r.values = true

namespace Table

variable {σ : Type} (t : Table σ)

/-! ### Reading -/

/-- A question is one request, and its answer becomes the result. -/
theorem ask_eq (text : String) (w : World σ) :
    ∃ answer, (t.ask text w).trace.requests = [.query t.container text answer] ∧
      (t.ask text w).value = answer.mapError .backend := by
  rcases t.ask_cases text w with ⟨documents, _, value, trace⟩ | ⟨e, _, value, trace⟩
  · refine ⟨.ok documents, ?_, value⟩
    rw [trace]
    rfl
  · refine ⟨.error e, ?_, value⟩
    rw [trace]
    rfl

/-- Either a condition cannot be bound, or its documents are asked for with one query. -/
theorem matching_cases (c : CompiledCondition) (values : Values) (w : World σ) :
    (∃ e, c.resolve values = .error e ∧ t.matching c values w = ⟨.error (.bind e), [], w⟩) ∨
      ∃ f answer, c.resolve values = .ok f ∧
        (t.matching c values w).trace.requests = [.query t.container (findQuery t.id f) answer] ∧
        (t.matching c values w).value = answer.mapError .backend := by
  unfold matching andThen filter
  cases resolved : c.resolve values with
  | error e => exact .inl ⟨e, rfl, rfl⟩
  | ok f =>
    obtain ⟨answer, asked, result⟩ := t.ask_eq (findQuery t.id f) w
    exact .inr ⟨f, answer, rfl, asked, result⟩

/-! ### Single documents -/

/-- An error that comes out of the store's answer is a refusal. -/
theorem isRefusal_of_mapError {α : Type} {answer : Except BackendError α} {e : TableError}
    (h : answer.mapError .backend = .error e) : e.IsRefusal := by
  cases answer with
  | ok a => cases h
  | error b =>
    cases h
    exact ⟨b, rfl⟩

/-- Values are created as one document; the identifier is one of those that the table generates,
unless the values have an address. -/
theorem create_eq (values : Values) (w : World σ) :
    ∃ n answer, (t.create values w).trace.requests =
        [.create t.container (ofValues values (t.freshIds n)) answer] ∧
      (t.create values w).value = answer.mapError .backend := by
  -- Values with an address take no identifier, so any will do for them.
  have document : (t.newDocument values w).value = ofValues values (t.freshIds w.issued) ∧
      (t.newDocument values w).trace = [] := by
    unfold newDocument
    by_cases h : hasId values = true
    · rw [if_pos h]
      refine ⟨?_, rfl⟩
      show ofValues values "" = _
      unfold ofValues
      rw [if_pos h, if_pos h]
    · rw [if_neg h]
      exact ⟨rfl, rfl⟩
  unfold create
  rw [trace_bind, value_bind, document.1, document.2]
  exact ⟨w.issued, _, rfl, rfl⟩

/-- A row that is not as long as the schema is refused, and nothing is asked for it. -/
theorem addRecord_of_length_ne {row : Row} (w : World σ) (h : row.length ≠ t.schema.length) :
    ∃ e, t.addRecord row w = ⟨.failed (.bind e), [], w⟩ := by
  have misfit : t.schema.bind row = .error (.arityMismatch t.schema.length row.length) := if_neg h
  unfold addRecord
  rw [misfit]
  exact ⟨_, rfl⟩

/-- A replacement fails only where the store refuses it. -/
theorem failure_replace (d : Document) (w : World σ) {e : TableError}
    (h : (t.replace d w).value = .error e) : e.IsRefusal :=
  isRefusal_of_mapError h

/-- A removal fails with an error of the store, also if the document has no address. -/
theorem failure_remove (d : Document) (w : World σ) {e : TableError}
    (h : (t.remove d w).value = .error e) : e.IsRefusal := by
  unfold remove at h
  cases address : d.id? with
  | none =>
    rw [address] at h
    cases h
    exact ⟨.missingId, rfl⟩
  | some id =>
    rw [address] at h
    exact isRefusal_of_mapError h

/-- If every failure to write a document is one of the store, so is that to write many. -/
theorem failure_writeEach {write : Document → Operation σ (Except TableError Unit)}
    (h : ∀ d w e, (write d w).value = .error e → e.IsRefusal) (n : Nat) (ds : List Document)
    (w : World σ) : ∀ e ∈ (writeEach write n ds w).value.failure, e.IsRefusal := by
  -- The first document that is not written ends the recursion with its failure.
  induction ds generalizing n w with
  | nil =>
    intro e he
    cases he
  | cons d ds ih =>
    unfold writeEach
    rw [value_bind]
    cases first : (write d w).value with
    | ok u => exact ih (n + 1) (write d w).world
    | error e =>
      intro e' he'
      cases he'
      exact h d w e first

/-- Either the clauses have no values, or documents are only replaced. -/
theorem replaceAll_cases (clauses : List SetClause) (set : Values) (ds : List Document)
    (w : World σ) :
    (∃ e, SetClause.evaluate clauses set = .error e ∧
      t.replaceAll clauses set ds w = ⟨.failed (.bind e), [], w⟩) ∨
      ∃ assignments, SetClause.evaluate clauses set = .ok assignments ∧
        (t.replaceAll clauses set ds w).trace.Only (·.isReplace = true) ∧
        ∀ e ∈ (t.replaceAll clauses set ds w).value.failure, e.IsRefusal := by
  unfold replaceAll
  cases evaluated : SetClause.evaluate clauses set with
  | error e => exact .inl ⟨e, rfl, rfl⟩
  | ok assignments =>
    have closed := Trace.closed_only (·.isReplace = true)
    have replaced : (writeEach (fun d => t.replace (assign d assignments)) 0 ds).Leaves
        (Trace.Only (·.isReplace = true)) := by
      refine leaves_writeEach closed (fun d => t.leaves_replace fun answer a ha => ?_) 0 ds
      rw [List.mem_singleton.1 ha]
      rfl
    have refusal (d : Document) (w : World σ) (e : TableError)
        (h : (t.replace (assign d assignments) w).value = .error e) : e.IsRefusal :=
      t.failure_replace _ w h
    exact .inr ⟨assignments, rfl, replaced w, failure_writeEach refusal 0 ds w⟩

/-! ### Records that are updated or inserted -/

variable (c : CompiledCondition) (clauses : List SetClause)

/-- Either no waiting row stands for a record, or the record is merged into the first that does. -/
theorem mergePending?_cases (r : UpsertRecord) (pending : List PendingInsert) :
    ((∀ p ∈ pending, ¬ c.StandsFor r p.values) ∧ t.mergePending? c clauses r pending = none) ∨
      ∃ before p after, pending = before ++ p :: after ∧
        (∀ q ∈ before, ¬ c.StandsFor r q.values) ∧ c.StandsFor r p.values ∧
        t.mergePending? c clauses r pending =
          some ((t.merge c clauses r p.values).map fun values =>
            before ++ { p with values } :: after) := by
  unfold mergePending?
  cases recognises : c.inMemoryFilter with
  | none =>
    refine .inl ⟨fun p _ here => ?_, rfl⟩
    obtain ⟨standsFor, given, _⟩ := here
    rw [recognises] at given
    cases given
  | some standsFor =>
    have iff (values : Values) : c.StandsFor r values ↔ standsFor values r.values = true := by
      simp [CompiledCondition.StandsFor, recognises]
    simp only [iff, Bool.not_eq_true]
    exact mergeFirst?_cases (fun values => standsFor values r.values) (t.merge c clauses r) pending

/-- What is asked of the store for a record on the position `index`, how far the record came and
which rows wait then, given the rows that waited before. -/
inductive Handles (index : Nat) (r : UpsertRecord) (pending : List PendingInsert) :
    Trace → UpsertStep → Prop
  /-- It is merged into the first row that stands for it. -/
  | merged {before after : List PendingInsert} {p : PendingInsert} {values : Values}
      (split : pending = before ++ p :: after) (first : ∀ q ∈ before, ¬ c.StandsFor r q.values)
      (here : c.StandsFor r p.values) (merged : t.merge c clauses r p.values = .ok values) :
      Handles index r pending []
        ⟨some { written := 0 }, before ++ { p with values } :: after⟩
  /-- It should be merged into that row, but the values for the clauses or its own row do not
  fit. -/
  | unmergeable {before after : List PendingInsert} {p : PendingInsert} {e : BindError}
      (split : pending = before ++ p :: after) (first : ∀ q ∈ before, ¬ c.StandsFor r q.values)
      (here : c.StandsFor r p.values) (failed : t.merge c clauses r p.values = .error e) :
      Handles index r pending [] ⟨some (.failed (.bind e)), pending⟩
  /-- The condition is not bound. -/
  | unbound {e : BindError} (apart : ∀ p ∈ pending, ¬ c.StandsFor r p.values)
      (failed : c.resolve r.values = .error e) :
      Handles index r pending [] ⟨some (.failed (.bind e)), pending⟩
  /-- The store refuses the query. -/
  | refused {f : String} {e : BackendError} (apart : ∀ p ∈ pending, ¬ c.StandsFor r p.values)
      (bound : c.resolve r.values = .ok f) :
      Handles index r pending [.query t.container (findQuery t.id f) (.error e)]
        ⟨some (.failed (.backend e)), pending⟩
  /-- There are no documents, and the row does not fit. -/
  | misfits {f : String} {e : BindError} (apart : ∀ p ∈ pending, ¬ c.StandsFor r p.values)
      (bound : c.resolve r.values = .ok f) (failed : t.schema.bind r.row = .error e) :
      Handles index r pending [.query t.container (findQuery t.id f) (.ok [])]
        ⟨some (.failed (.bind e)), pending⟩
  /-- There are no documents, and the row waits from now on. -/
  | waits {f : String} {values : Values} (apart : ∀ p ∈ pending, ¬ c.StandsFor r p.values)
      (bound : c.resolve r.values = .ok f) (row : t.schema.bind r.row = .ok values) :
      Handles index r pending [.query t.container (findQuery t.id f) (.ok [])]
        ⟨none, pending ++ [⟨index, values⟩]⟩
  /-- There are documents, and the values for the clauses do not fit. -/
  | unassigned {f : String} {d : Document} {ds : List Document} {e : BindError}
      (apart : ∀ p ∈ pending, ¬ c.StandsFor r p.values) (bound : c.resolve r.values = .ok f)
      (failed : SetClause.evaluate clauses r.set = .error e) :
      Handles index r pending [.query t.container (findQuery t.id f) (.ok (d :: ds))]
        ⟨some (.failed (.bind e)), pending⟩
  /-- There are documents, and they are replaced as far as the store allows. -/
  | updates {f : String} {d : Document} {ds : List Document} {replaced : Trace}
      {progress : Progress} (apart : ∀ p ∈ pending, ¬ c.StandsFor r p.values)
      (bound : c.resolve r.values = .ok f) (only : ∀ a ∈ replaced, a.isReplace = true)
      (refusal : ∀ e ∈ progress.failure, e.IsRefusal) :
      Handles index r pending
        (.query t.container (findQuery t.id f) (.ok (d :: ds)) :: replaced)
        ⟨some progress, pending⟩

variable (index : Nat) {r : UpsertRecord} {pending : List PendingInsert} (w : World σ)

/-- A record that no waiting row stands for is handled: it updates what it finds, waits if it finds
nothing, or fails. -/
theorem handles_updateOrWait (apart : ∀ p ∈ pending, ¬ c.StandsFor r p.values) :
    t.Handles c clauses index r pending
      (t.updateOrWait c clauses index r pending w).trace.requests
      (t.updateOrWait c clauses index r pending w).value := by
  unfold updateOrWait
  rcases t.matching_cases c r.values w with ⟨e, failed, run⟩ | ⟨f, answer, bound, asked, result⟩
  · rw [bind_apply, run]
    exact .unbound apart failed
  · rw [trace_bind, value_bind, Trace.requests_append, asked, result]
    match answer with
    | .error e => exact .refused apart bound
    | .ok [] =>
      cases row : t.schema.bind r.row with
      | error e => exact .misfits apart bound row
      | ok values => exact .waits apart bound row
    | .ok (d :: ds) =>
      -- The documents are replaced in the world that the query leaves behind.
      let next := (t.matching c r.values w).world
      let written := t.replaceAll clauses r.set (d :: ds) next
      show t.Handles c clauses index r pending
        (_ :: Trace.requests (written.trace ++ [])) ⟨some written.value, pending⟩
      rw [List.append_nil]
      rcases t.replaceAll_cases clauses r.set (d :: ds) next with
        ⟨e, failed, run⟩ | ⟨assignments, evaluated, only, refusal⟩
      · have nothing : written = ⟨.failed (.bind e), [], next⟩ := run
        rw [nothing]
        exact .unassigned apart bound failed
      · exact .updates apart bound only refusal

/-- A record is handled in one of these ways. -/
theorem handles_upsertRecord :
    t.Handles c clauses index r pending
      (t.upsertRecord c clauses index r pending w).trace.requests
      (t.upsertRecord c clauses index r pending w).value := by
  unfold upsertRecord
  rcases t.mergePending?_cases c clauses r pending with
    ⟨apart, result⟩ | ⟨before, p, after, split, first, here, result⟩
  · rw [result]
    exact t.handles_updateOrWait c clauses index w apart
  · rw [result]
    cases merged : t.merge c clauses r p.values with
    | ok values => exact .merged split first here merged
    | error e => exact .unmergeable split first here merged

/-! ### Insertions -/

/-- The requests create one document for every waiting row, in the order of the rows. -/
def Inserts (ps : List PendingInsert) (requests : Trace) : Prop :=
  List.Forall₂ (fun p a => ∃ n answer,
    a = .create t.container (ofValues p.values (t.freshIds n)) answer) ps requests

/-- The second pass asks for one creation for each waiting row, in their order. -/
theorem inserts_insertPending (ps : List PendingInsert) (w : World σ) :
    t.Inserts ps (t.insertPending ps w).trace.requests := by
  induction ps generalizing w with
  | nil => exact .nil
  | cons p ps ih =>
    obtain ⟨n, answer, created, _⟩ := t.create_eq p.values w
    have rest := ih (t.create p.values w).world
    -- Whatever the answer is, the next row is inserted.
    have split : (t.insertPending (p :: ps) w).trace.requests =
        (t.create p.values w).trace.requests ++
          (t.insertPending ps (t.create p.values w).world).trace.requests := by
      simp only [insertPending, trace_bind, Trace.requests_append]
      cases (t.create p.values w).value <;> simp [requests_settle]
    rw [split, created]
    exact .cons ⟨n, answer, rfl⟩ rest

/-- If an insertion fails, the store refused it. -/
theorem refusals_insertPending (ps : List PendingInsert) (w : World σ) :
    ∀ f ∈ (t.insertPending ps w).value.failures, f.error.IsRefusal := by
  induction ps generalizing w with
  | nil => exact List.forall_mem_nil _
  | cons p ps ih =>
    obtain ⟨_, answer, _, result⟩ := t.create_eq p.values w
    have rest := ih (t.create p.values w).world
    rw [(t.value_insertPending_cons p ps w).1, BatchOutcome.failures_append, result,
      Progress.failures_outcome]
    cases answer with
    | ok u => exact rest
    | error e => exact List.forall_mem_cons.2 ⟨⟨e, rfl⟩, rest⟩

/-! ### Batches -/

variable {rs : List UpsertRecord}

/-- Each record of the first pass is handled, with the rows that are waiting when its turn comes. -/
theorem handles_of_getElem? {i : Nat} {u : HandledUpsert σ}
    (h : (t.handledUpserts c clauses 0 [] rs w)[i]? = some u) :
    t.Handles c clauses i u.record u.waiting u.run.trace.requests u.run.value := by
  obtain ⟨w', run⟩ := t.exists_run_handledUpserts c clauses h
  rw [Nat.zero_add] at run
  rw [run]
  exact t.handles_upsertRecord c clauses i w'

/-- The same for a record that is not known by its position. -/
theorem exists_handles_of_mem {u : HandledUpsert σ}
    (h : u ∈ t.handledUpserts c clauses 0 [] rs w) :
    ∃ i, t.Handles c clauses i u.record u.waiting u.run.trace.requests u.run.value := by
  obtain ⟨i, here⟩ := List.mem_iff_getElem?.1 h
  exact ⟨i, t.handles_of_getElem? c clauses w here⟩

variable (rs)

/-- A batch makes the requests of its records, and then it inserts the rows that wait. -/
theorem requests_upsertBatch :
    ∃ creates, (t.upsertBatch c clauses rs w).trace.requests =
        (t.handledUpserts c clauses 0 [] rs w).flatMap (·.run.trace.requests) ++ creates ∧
      t.Inserts (t.upsertAll c clauses 0 [] rs w).value.2 creates := by
  let updated := t.upsertAll c clauses 0 [] rs w
  let inserted := t.insertPending updated.value.2 updated.world
  refine ⟨inserted.trace.requests, ?_, t.inserts_insertPending updated.value.2 updated.world⟩
  show (updated.trace ++ (inserted.trace ++ [])).requests = _
  rw [List.append_nil, Trace.requests_append, ← t.requests_upsertAll]

/-- A failure that does not come from the store is the failure of a record when it was handled. -/
theorem mem_failures_upsertBatch {f : RecordFailure} (h : ¬ f.error.IsRefusal) :
    f ∈ (t.upsertBatch c clauses rs w).value.failures ↔
      ∃ u, (t.handledUpserts c clauses 0 [] rs w)[f.index]? = some u ∧
        u.run.value.failure? = some f.error := by
  let updated := t.upsertAll c clauses 0 [] rs w
  let inserted := t.insertPending updated.value.2 updated.world
  -- The failures are sorted, which loses none, and those of the insertions are refusals.
  have sorted : (t.upsertBatch c clauses rs w).value.failures.Perm
      (updated.value.1.failures ++ inserted.value.failures) :=
    List.mergeSort_perm _ _
  have late : f ∉ inserted.value.failures := fun mem =>
    h (t.refusals_insertPending updated.value.2 updated.world f mem)
  rw [sorted.mem_iff, List.mem_append, or_iff_left late]
  simp only [updated]
  rw [failures_upsertAll, RecordFailure.mem_ofRecords]

end Table

end StreamTable
