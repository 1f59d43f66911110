import StreamTable.Proofs.Table.Settling
import StreamTable.Proofs.Table.Traces

/-!
# The records of a batch

A batch is handled record by record.  `Table.handled` lists its records with the runs of the
operation that handles one of them, each run in the world that the one before it leaves behind.
`Table.handledUpserts` does so for `Table.updateOrAdd`, where the rows that wait are passed on as
well.

The requests of a batch are those of its records in their order (`Table.requests_writeBatch`,
`Table.requests_upsertAll`), its failures are those of its records on their positions
(`Table.failures_writeBatch`, `Table.failures_upsertAll`), and the rows that wait in the end are
those of the records that let them wait (`Table.indices_upsertAll`).
-/

namespace StreamTable

open Operation PendingInsert

/-! ### Requests -/

namespace Trace

/-- All requests of the trace have the property. -/
def Only (P : Action → Prop) (t : Trace) : Prop := ∀ a ∈ t.requests, P a

/-- Traces whose requests have the property can be put together, and events are no requests. -/
theorem closed_only (P : Action → Prop) : Closed (Only P) where
  nil := by
    intro a h
    cases h
  event := by
    intro e a h
    cases h
  append := by
    intro s t hs ht a h
    rw [requests_append] at h
    rcases List.mem_append.1 h with h | h
    · exact hs a h
    · exact ht a h

/-- Traces without requests can be put together. -/
theorem closed_silent : Closed (·.requests = []) where
  nil := rfl
  event := fun _ => rfl
  append := by
    intro s t hs ht
    rw [requests_append, hs, ht]
    rfl

end Trace

namespace Table

variable {σ α : Type} (t : Table σ)

/-- To report a failed record asks nothing. -/
theorem requests_settle (kind : ExecKind) (index : Nat) (p : Progress) (w : World σ) :
    (t.settle kind index p w).trace.requests = [] :=
  t.leaves_settle Trace.closed_silent kind index p w

/-- The reports of an operation are no requests. -/
theorem requests_reported (kind : ExecKind) (rows : α → Nat) (x : Operation σ α) (w : World σ) :
    (t.reported kind rows x w).trace.requests = (x w).trace.requests := by
  unfold reported
  simp only [trace_bind, Trace.requests_append]
  exact List.append_nil _

end Table

/-! ### Records that are written -/

theorem BatchOutcome.failures_append (a b : BatchOutcome) :
    (a ++ b).failures = a.failures ++ b.failures := rfl

/-- The failures of records that stand on the positions from `index` on. -/
def RecordFailure.ofRecords {α : Type} (failure? : α → Option TableError) (index : Nat)
    (xs : List α) : List RecordFailure :=
  (xs.zipIdx index).flatMap fun (x, i) => ((failure? x).map fun e => ⟨i, e⟩).toList

/-- A failure is reported on the position of its record, with its error. -/
theorem RecordFailure.mem_ofRecords {α : Type} {failure? : α → Option TableError} {xs : List α}
    {f : RecordFailure} :
    f ∈ RecordFailure.ofRecords failure? 0 xs ↔
      ∃ x, xs[f.index]? = some x ∧ failure? x = some f.error := by
  unfold RecordFailure.ofRecords
  rw [List.mem_flatMap]
  constructor
  · rintro ⟨⟨x, i⟩, here, failed⟩
    obtain ⟨e, he, rfl⟩ := Option.map_eq_some_iff.1 (Option.mem_toList.1 failed)
    exact ⟨x, List.mk_mem_zipIdx_iff_getElem?.1 here, he⟩
  · rintro ⟨x, here, failed⟩
    refine ⟨(x, f.index), List.mk_mem_zipIdx_iff_getElem?.2 here, ?_⟩
    exact Option.mem_toList.2 (Option.map_eq_some_iff.2 ⟨f.error, failed, rfl⟩)

/-- A record fails on its own position. -/
theorem Progress.failures_outcome (p : Progress) (index : Nat) :
    (p.outcome index).failures = (p.failure.map fun e => ⟨index, e⟩).toList := by
  unfold Progress.outcome
  split
  · next h => rw [h]; rfl
  · next h => rw [h]; rfl

namespace Table

variable {σ α : Type}

/-- The records of a batch with the runs that handle them, each in the world that the one before it
leaves behind. -/
def handled (write : α → Operation σ Progress) : List α → World σ → List (α × Run σ Progress)
  | [], _ => []
  | x :: xs, w => (x, write x w) :: handled write xs (write x w).world

variable (t : Table σ) {write : α → Operation σ Progress}

/-- Each record of a batch is handled once, in their order. -/
theorem map_fst_handled (xs : List α) (w : World σ) : (handled write xs w).map (·.1) = xs := by
  induction xs generalizing w with
  | nil => rfl
  | cons x xs ih => exact congrArg (x :: ·) (ih (write x w).world)

/-- A record of a batch is handled in some world. -/
theorem exists_run_handled {xs : List α} {i : Nat} {x : α} {run : Run σ Progress} {w : World σ}
    (h : (handled write xs w)[i]? = some (x, run)) : ∃ w', run = write x w' := by
  induction xs generalizing i w with
  | nil => cases h
  | cons y xs ih =>
    cases i with
    | zero =>
      cases h
      exact ⟨w, rfl⟩
    | succ i => exact ih h

/-- The first record of a batch and the others are written one after the other. -/
theorem run_writeBatch_cons (kind : ExecKind) (index : Nat) (x : α) (xs : List α) (w : World σ) :
    let first := write x w
    let rest := t.writeBatch kind write (index + 1) xs first.world
    (t.writeBatch kind write index (x :: xs) w).value =
        first.value.outcome index ++ rest.value ∧
      (t.writeBatch kind write index (x :: xs) w).trace.requests =
        first.trace.requests ++ rest.trace.requests := by
  intro first rest
  have settled := t.requests_settle kind index first.value first.world
  constructor
  · simp only [writeBatch, value_bind, value_settle, world_settle, pure_apply, first, rest]
  · simp only [writeBatch, trace_bind, Trace.requests_append, world_settle, pure_apply, first, rest]
    rw [settled]
    exact congrArg (_ ++ ·) (List.append_nil _)

/-- A batch makes the requests of its records. -/
theorem requests_writeBatch (kind : ExecKind) (index : Nat) (xs : List α) (w : World σ) :
    (t.writeBatch kind write index xs w).trace.requests =
      (handled write xs w).flatMap fun r => r.2.trace.requests := by
  induction xs generalizing index w with
  | nil => rfl
  | cons x xs ih =>
    rw [(t.run_writeBatch_cons kind index x xs w).2, ih (index + 1), handled, List.flatMap_cons]

/-- A batch fails where its records do. -/
theorem failures_writeBatch (kind : ExecKind) (index : Nat) (xs : List α) (w : World σ) :
    (t.writeBatch kind write index xs w).value.failures =
      RecordFailure.ofRecords (·.2.value.failure) index (handled write xs w) := by
  induction xs generalizing index w with
  | nil => rfl
  | cons x xs ih =>
    rw [(t.run_writeBatch_cons kind index x xs w).1, BatchOutcome.failures_append, ih (index + 1),
      Progress.failures_outcome]
    rfl

end Table

/-! ### Records that are updated or inserted -/

/-- A record of a batch of updates or insertions as it was handled. -/
structure HandledUpsert (σ : Type) where
  /-- The record. -/
  record : UpsertRecord
  /-- The rows that wait when it comes. -/
  waiting : List PendingInsert
  /-- Its run. -/
  run : Run σ UpsertStep

/-- Why the record failed, if it did. -/
def UpsertStep.failure? (s : UpsertStep) : Option TableError := s.progress.bind (·.failure)

/-- A record of the first pass adds at most one failure, its own. -/
theorem UpsertStep.failures_outcome (s : UpsertStep) (index : Nat) :
    (s.outcome index).failures = (s.failure?.map fun e => ⟨index, e⟩).toList := by
  obtain ⟨progress, pending⟩ := s
  cases progress with
  | none => rfl
  | some p => exact p.failures_outcome index

namespace Table

variable {σ : Type} (t : Table σ) (c : CompiledCondition) (clauses : List SetClause)

/-- The records of a batch from a position on as they are handled one after the other, each in the
world and with the rows that the one before it leaves behind. -/
def handledUpserts (index : Nat) (pending : List PendingInsert) :
    List UpsertRecord → World σ → List (HandledUpsert σ)
  | [], _ => []
  | r :: rs, w =>
    let run := t.upsertRecord c clauses index r pending w
    ⟨r, pending, run⟩ :: handledUpserts (index + 1) run.value.pending rs run.world

/-- Each record of the first pass is handled once, in their order. -/
theorem map_record_handledUpserts (index : Nat) (pending : List PendingInsert)
    (rs : List UpsertRecord) (w : World σ) :
    (t.handledUpserts c clauses index pending rs w).map (·.record) = rs := by
  induction rs generalizing index pending w with
  | nil => rfl
  | cons r rs ih => exact congrArg (r :: ·) (ih (index + 1) _ _)

/-- A record of a batch is handled on its own position. -/
theorem exists_run_handledUpserts {rs : List UpsertRecord} {index i : Nat}
    {pending : List PendingInsert} {w : World σ} {u : HandledUpsert σ}
    (h : (t.handledUpserts c clauses index pending rs w)[i]? = some u) :
    ∃ w', u.run = t.upsertRecord c clauses (index + i) u.record u.waiting w' := by
  induction rs generalizing index pending w i with
  | nil => cases h
  | cons r rs ih =>
    cases i with
    | zero =>
      cases h
      exact ⟨w, rfl⟩
    | succ i =>
      obtain ⟨w', run⟩ := ih h
      rw [Nat.add_right_comm, Nat.add_assoc] at run
      exact ⟨w', run⟩

/-- The requests of the first pass are those of its first record and then those of the others, which
go on with the rows and in the world that it leaves. -/
theorem requests_upsertAll_cons (index : Nat) (pending : List PendingInsert) (r : UpsertRecord)
    (rs : List UpsertRecord) (w : World σ) :
    let first := t.upsertRecord c clauses index r pending w
    let rest := t.upsertAll c clauses (index + 1) first.value.pending rs first.world
    (t.upsertAll c clauses index pending (r :: rs) w).trace.requests =
      first.trace.requests ++ rest.trace.requests := by
  intro first rest
  simp only [upsertAll, trace_bind, Trace.requests_append]
  show first.trace.requests ++ _ = _
  -- Only the report of a failure stands between the record and the others.
  cases first.value.progress with
  | none => simp [first, rest]
  | some p => simp [first, rest, requests_settle]

/-- Before the insertions a batch makes the requests of its records. -/
theorem requests_upsertAll (index : Nat) (pending : List PendingInsert) (rs : List UpsertRecord)
    (w : World σ) :
    (t.upsertAll c clauses index pending rs w).trace.requests =
      (t.handledUpserts c clauses index pending rs w).flatMap (·.run.trace.requests) := by
  induction rs generalizing index pending w with
  | nil => rfl
  | cons r rs ih =>
    rw [requests_upsertAll_cons, ih (index + 1), handledUpserts, List.flatMap_cons]

/-- Before the insertions a batch fails where its records do. -/
theorem failures_upsertAll (index : Nat) (pending : List PendingInsert) (rs : List UpsertRecord)
    (w : World σ) :
    (t.upsertAll c clauses index pending rs w).value.1.failures =
      RecordFailure.ofRecords (·.run.value.failure?) index
        (t.handledUpserts c clauses index pending rs w) := by
  induction rs generalizing index pending w with
  | nil => rfl
  | cons r rs ih =>
    rw [(t.value_upsertAll_cons c clauses index pending r rs w).1, BatchOutcome.failures_append,
      ih (index + 1), UpsertStep.failures_outcome]
    rfl

/-- In the end those rows wait that waited before, and those of the records that let them wait. -/
theorem indices_upsertAll (index : Nat) (pending : List PendingInsert) (rs : List UpsertRecord)
    (w : World σ) :
    indices (t.upsertAll c clauses index pending rs w).value.2 =
      indices pending ++ ((t.handledUpserts c clauses index pending rs w).zipIdx index).flatMap
        fun u => u.1.run.value.waiting u.2 := by
  induction rs generalizing index pending w with
  | nil => exact (List.append_nil _).symm
  | cons r rs ih =>
    rw [(t.value_upsertAll_cons c clauses index pending r rs w).1, ih (index + 1),
      indices_upsertRecord, handledUpserts, List.zipIdx_cons, List.flatMap_cons,
      List.append_assoc]

/-- The row of a record waits in the end just if the record left it to wait. -/
theorem mem_indices_upsertAll {rs : List UpsertRecord} {w : World σ} {i : Nat} :
    i ∈ indices (t.upsertAll c clauses 0 [] rs w).value.2 ↔
      ∃ u, (t.handledUpserts c clauses 0 [] rs w)[i]? = some u ∧
        u.run.value.progress = none := by
  rw [indices_upsertAll, show indices [] = [] from rfl, List.nil_append, List.mem_flatMap]
  unfold UpsertStep.waiting
  constructor
  · rintro ⟨⟨u, j⟩, mem, waits⟩
    have here := List.mk_mem_zipIdx_iff_getElem?.1 mem
    split at waits
    · cases waits
    · next unsettled =>
      obtain rfl := List.mem_singleton.1 waits
      exact ⟨u, here, Option.not_isSome_iff_eq_none.1 unsettled⟩
  · rintro ⟨u, here, waits⟩
    refine ⟨(u, i), List.mk_mem_zipIdx_iff_getElem?.2 here, ?_⟩
    rw [waits]
    exact List.mem_singleton_self i

end Table

end StreamTable
