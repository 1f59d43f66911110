import StreamTable.Proofs.Table.Traces

/-!
# Changes of documents

`Trace.changes` counts the changes that a store made: the creates, replaces and deletes that it
granted.  An operation counts its changes (`Operation.Counts`) if its result tells their number,
and it is quiet (`Operation.Quiet`) if there are none.  Every way of writing a record counts its
changes, also when it fails half-way: `counts_addRecord`, `counts_deleteRecord`,
`counts_updateRecord` and, for a record of updates or insertions, `counts_upsertRecord`.
-/

namespace StreamTable

/-- The store granted a change of a document. -/
def Action.isChange : Action → Bool
  | .create _ _ (.ok _) | .replace _ _ (.ok _) | .delete _ _ (.ok _) => true
  | _ => false

namespace Trace

/-- The number of changes that the store granted. -/
def changes (t : Trace) : Nat := t.countP Action.isChange

@[simp] theorem changes_nil : changes [] = 0 := rfl

/-- The changes of one trace after another add up. -/
@[simp] theorem changes_append (s t : Trace) : changes (s ++ t) = s.changes + t.changes :=
  List.countP_append

/-- Traces without changes can be put together, and events change nothing. -/
theorem closed_unchanged : Closed (·.changes = 0) where
  nil := rfl
  event := fun _ => rfl
  append := by
    intro s t hs ht
    rw [changes_append, hs, ht]

end Trace

/-- The number of documents that a record of updates or insertions has changed so far. -/
def UpsertStep.written (s : UpsertStep) : Nat := s.progress.elim 0 (·.written)

/-- The number of changes of a single request. -/
def granted {ε α : Type} : Except ε α → Nat
  | .ok _ => 1
  | .error _ => 0

/-- Another form of the error makes no difference to what was granted. -/
@[simp] theorem granted_mapError {ε ε' α : Type} (f : ε → ε') (r : Except ε α) :
    granted (r.mapError f) = granted r := by
  cases r <;> rfl

namespace Operation

variable {σ α β : Type}

/-- The result of the operation tells how many changes the store granted to it. -/
def Counts (count : α → Nat) (x : Operation σ α) : Prop :=
  ∀ w, (x w).trace.changes = count (x w).value

/-- The store grants no change to the operation. -/
def Quiet (x : Operation σ α) : Prop := x.Counts fun _ => 0

/-- Operations that are known by their traces are quiet if the traces are without changes. -/
theorem quiet_of_leaves {x : Operation σ α} (h : x.Leaves (·.changes = 0)) : x.Quiet := h

/-- A result that counts nothing is right for an operation that does nothing. -/
theorem Counts.pure {count : α → Nat} {a : α} (h : count a = 0) :
    Counts count (Pure.pure a : Operation σ α) := fun _ => h.symm

/-- What comes after a quiet operation counts for both. -/
theorem Quiet.bind {count : β → Nat} {x : Operation σ α} {f : α → Operation σ β} (hx : x.Quiet)
    (hf : ∀ a, (f a).Counts count) : (x >>= f).Counts count := by
  intro w
  rw [trace_bind, Trace.changes_append, hx, hf, Nat.zero_add, value_bind]

/-- What comes after an operation adds its changes. -/
theorem Counts.bind {count : α → Nat} {count' : β → Nat} {x : Operation σ α}
    {f : α → Operation σ β} (hx : x.Counts count)
    (hf : ∀ a w, count' (f a w).value = count a + (f a w).trace.changes) :
    (x >>= f).Counts count' := by
  intro w
  rw [trace_bind, Trace.changes_append, hx, value_bind, hf]

/-- A single request is counted rightly if its answer says what it changed. -/
theorem counts_request {count : α → Nat} {ask : σ → α × σ} {action : α → Action}
    (h : ∀ a, Trace.changes [action a] = count a) : (request ask action).Counts count :=
  fun _ => h _

/-- The count can be read off another form of the result. -/
theorem Counts.map {count : α → Nat} {count' : β → Nat} {x : Operation σ α} {f : α → β}
    (hx : x.Counts count) (hf : ∀ a, count' (f a) = count a) : (f <$> x).Counts count' := by
  intro w
  rw [trace_map, hx, value_map, hf]

end Operation

namespace Table

open Operation

variable {σ α β : Type} (t : Table σ)

/-! ### Reading -/

/-- Looking for documents changes none. -/
theorem quiet_matching (c : CompiledCondition) (values : Values) : (t.matching c values).Quiet := by
  have closed := Trace.closed_unchanged
  have resolved := t.leaves_reportResolved closed c.size (c.resolve values)
  refine quiet_of_leaves (leaves_andThen closed resolved fun w f _ => ?_)
  exact t.leaves_ask closed fun answer => rfl

/-! ### Single documents -/

/-- A creation counts one document if it is granted. -/
theorem counts_create (values : Values) : (t.create values).Counts granted := by
  have document := quiet_of_leaves (t.leaves_newDocument Trace.closed_unchanged values)
  refine document.bind fun d =>
    Counts.map (counts_request fun a => ?_) fun a => granted_mapError _ a
  cases a <;> rfl

/-- A replacement counts one document if it is granted. -/
theorem counts_replace (d : Document) : (t.replace d).Counts granted := by
  refine Counts.map (counts_request fun a => ?_) fun a => granted_mapError _ a
  cases a <;> rfl

/-- A removal counts one document if it is granted, and none if the document has no address. -/
theorem counts_remove (d : Document) : (t.remove d).Counts granted := by
  unfold remove
  split
  · exact Counts.pure rfl
  · refine Counts.map (counts_request fun a => ?_) fun a => granted_mapError _ a
    cases a <;> rfl

/-- Writing goes on after each document that was written, and stops at the first that was not. -/
theorem written_writeEach {write : Document → Operation σ (Except TableError Unit)}
    (h : ∀ d, (write d).Counts granted) (ds : List Document) (n : Nat) (w : World σ) :
    (writeEach write n ds w).value.written = n + (writeEach write n ds w).trace.changes := by
  -- The number of documents written before is an argument of the recursion, so it varies.
  induction ds generalizing n w with
  | nil => rfl
  | cons d ds ih =>
    unfold writeEach
    rw [value_bind, trace_bind, Trace.changes_append, h d w]
    cases (write d w).value with
    | ok u =>
      have hn := ih (n + 1) (write d w).world
      simp only [granted]
      omega
    | error e => simp [granted]

/-- Writing document after document counts those that were granted, up to the first refusal. -/
theorem counts_writeEach {write : Document → Operation σ (Except TableError Unit)}
    (h : ∀ d, (write d).Counts granted) (ds : List Document) :
    (writeEach write 0 ds).Counts (·.written) := by
  intro w
  have written := written_writeEach h ds 0 w
  rw [Nat.zero_add] at written
  exact written.symm

/-! ### Records -/

/-- What adding a row reports as written is what was created. -/
theorem counts_addRecord (row : Row) : (t.addRecord row).Counts (·.written) := by
  unfold addRecord
  split
  · exact Counts.pure rfl
  · refine (t.counts_create _).bind fun r w => ?_
    cases r <;> rfl

/-- What deleting a record reports as written is what was removed. -/
theorem counts_deleteRecord (c : CompiledCondition) (values : Values) :
    (t.deleteRecord c values).Counts (·.written) := by
  refine (t.quiet_matching c values).bind fun r => ?_
  cases r with
  | error e => exact Counts.pure rfl
  | ok documents => exact counts_writeEach t.counts_remove documents

/-- What is reported of replacements is what was replaced. -/
theorem counts_replaceAll (clauses : List SetClause) (set : Values) (documents : List Document) :
    (t.replaceAll clauses set documents).Counts (·.written) := by
  unfold replaceAll
  split
  · exact Counts.pure rfl
  · exact counts_writeEach (fun d => t.counts_replace _) documents

/-- What updating a record reports as written is what was replaced. -/
theorem counts_updateRecord (c : CompiledCondition) (clauses : List SetClause)
    (values set : Values) : (t.updateRecord c clauses values set).Counts (·.written) := by
  refine (t.quiet_matching c values).bind fun r => ?_
  cases r with
  | error e => exact Counts.pure rfl
  | ok documents => exact t.counts_replaceAll clauses set documents

/-- A record that goes to wait has written nothing, and any other has written what was replaced. -/
theorem counts_updateOrWait (c : CompiledCondition) (clauses : List SetClause) (index : Nat)
    (r : UpsertRecord) (pending : List PendingInsert) :
    (t.updateOrWait c clauses index r pending).Counts (·.written) := by
  refine (t.quiet_matching c r.values).bind fun a => ?_
  match a with
  | .error e => exact Counts.pure rfl
  | .ok [] => cases t.schema.bind r.row <;> exact Counts.pure rfl
  | .ok (d :: ds) =>
    exact Counts.map (t.counts_replaceAll clauses r.set (d :: ds)) fun p => rfl

/-- A record of the first pass has written what was replaced; one that is merged into a waiting row
has written nothing. -/
theorem counts_upsertRecord (c : CompiledCondition) (clauses : List SetClause) (index : Nat)
    (r : UpsertRecord) (pending : List PendingInsert) :
    (t.upsertRecord c clauses index r pending).Counts (·.written) := by
  unfold upsertRecord
  split
  · exact Counts.pure rfl
  · exact Counts.pure rfl
  · exact t.counts_updateOrWait c clauses index r pending

/-! ### Batches -/

/-- To settle a record is to report it, which changes no document. -/
theorem quiet_settle (kind : ExecKind) (index : Nat) (p : Progress) :
    (t.settle kind index p).Quiet :=
  quiet_of_leaves (t.leaves_settle Trace.closed_unchanged kind index p)

/-- A batch goes on after each record, whatever became of it. -/
theorem counts_writeBatch (kind : ExecKind) {write : α → Operation σ Progress}
    (h : ∀ x, (write x).Counts (·.written)) (index : Nat) (xs : List α) :
    (t.writeBatch kind write index xs).Counts (·.affected) := by
  induction xs generalizing index with
  | nil => exact Counts.pure rfl
  | cons x xs ih =>
    refine (h x).bind fun p w => ?_
    simp [t.quiet_settle kind index p w, ih (index + 1) w]

/-- The second pass counts the rows that were created. -/
theorem counts_insertPending (ps : List PendingInsert) :
    (t.insertPending ps).Counts (·.affected) := by
  induction ps with
  | nil => exact Counts.pure rfl
  | cons p ps ih =>
    refine (t.counts_create p.values).bind fun r w => ?_
    cases r with
    | ok u =>
      simp [t.quiet_settle .updateOrAdd p.index _ w, ih w, granted]
    | error e =>
      simp [t.quiet_settle .updateOrAdd p.index _ w, ih w, granted, Progress.failed]

/-- The first pass counts the documents that were replaced. -/
theorem counts_upsertAll (c : CompiledCondition) (clauses : List SetClause) (index : Nat)
    (pending : List PendingInsert) (rs : List UpsertRecord) :
    (t.upsertAll c clauses index pending rs).Counts (·.1.affected) := by
  induction rs generalizing index pending with
  | nil => exact Counts.pure rfl
  | cons r rs ih =>
    refine (t.counts_upsertRecord c clauses index r pending).bind fun step w => ?_
    obtain ⟨progress, pending'⟩ := step
    cases progress with
    | none => simp [ih (index + 1) pending' w, UpsertStep.written]
    | some p =>
      simp [t.quiet_settle .updateOrAdd index p w, ih (index + 1) pending' w, UpsertStep.written]

/-- The events of an operation change nothing about its count. -/
theorem counts_reported (kind : ExecKind) {count : α → Nat} {x : Operation σ α}
    (hx : x.Counts count) : (t.reported kind count x).Counts count := by
  have started : (emit (.started kind t.id) : Operation σ Unit).Quiet := fun _ => rfl
  refine started.bind fun _ => hx.bind fun a w => ?_
  rfl

end Table

end StreamTable
