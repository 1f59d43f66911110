import StreamTable.Table.Write

/-!
# Updating or inserting

A record of `Table.updateOrAdd` updates the documents that its condition admits; if there are none,
its row is to be inserted.  The insertions wait until all records of the batch were read.  Meanwhile
a later record that a waiting row stands for, as the condition's in-memory filter tells, is merged
into that row and the store is not asked.
-/

namespace StreamTable

/-- A row that waits for its insertion. -/
structure PendingInsert where
  /-- The position of its record in the batch. -/
  index : Nat
  /-- The values of the row. -/
  values : Values

namespace PendingInsert

/-- Merge something into the first waiting row that qualifies; nothing if none does. -/
def mergeFirst? {ε : Type} (qualifies : Values → Bool) (merge : Values → Except ε Values) :
    List PendingInsert → Option (Except ε (List PendingInsert))
  | [] => none
  | p :: ps =>
    if qualifies p.values then
      some ((merge p.values).map fun values => { p with values } :: ps)
    else (mergeFirst? qualifies merge ps).map fun r => r.map fun ps => p :: ps

end PendingInsert

/-- What a batch of updates consists of. -/
structure UpsertRecord where
  /-- The values for the condition. -/
  values : Values
  /-- The values for the set clauses. -/
  set : Values
  /-- The row to insert. -/
  row : Row

/-- What became of a record: its progress, or nothing if it waits for its insertion, and the rows
that wait after it. -/
structure UpsertStep where
  /-- The progress of the record. -/
  progress : Option Progress
  /-- The waiting rows. -/
  pending : List PendingInsert

namespace Table

variable {σ : Type}

/-- The values of a waiting row with a record merged into them: by the condition's reducer, which
gets the values of the record's row, or else by the set clauses. -/
def merge (t : Table σ) (c : CompiledCondition) (clauses : List SetClause) (r : UpsertRecord)
    (pending : Values) : Except BindError Values :=
  match c.updateReducer with
  | some reduce => do return reduce pending (← t.schema.bind r.row)
  | none => do
    return (← SetClause.evaluate clauses r.set).foldl (fun vs (name, v) => vs.insert name v) pending

/-- Merge a record into the first waiting row that stands for it, if there is one. -/
def mergePending? (t : Table σ) (c : CompiledCondition) (clauses : List SetClause)
    (r : UpsertRecord) (pending : List PendingInsert) :
    Option (Except BindError (List PendingInsert)) := do
  let standsFor ← c.inMemoryFilter
  PendingInsert.mergeFirst? (fun p => standsFor p r.values) (t.merge c clauses r) pending

/-- Update the documents of a record, or let its row wait if there are none. -/
def updateOrWait (t : Table σ) (c : CompiledCondition) (clauses : List SetClause) (index : Nat)
    (r : UpsertRecord) (pending : List PendingInsert) : Operation σ UpsertStep := do
  match ← t.matching c r.values with
  | .error e => return ⟨some (.failed e), pending⟩
  | .ok [] =>
    match t.schema.bind r.row with
    | .error e => return ⟨some (.failed (.bind e)), pending⟩
    | .ok values => return ⟨none, pending ++ [⟨index, values⟩]⟩
  | .ok documents => return ⟨some (← t.replaceAll clauses r.set documents), pending⟩

/-- Handle a record of a batch. -/
def upsertRecord (t : Table σ) (c : CompiledCondition) (clauses : List SetClause) (index : Nat)
    (r : UpsertRecord) (pending : List PendingInsert) : Operation σ UpsertStep :=
  match t.mergePending? c clauses r pending with
  | some (.ok pending') => return ⟨some { written := 0 }, pending'⟩
  | some (.error e) => return ⟨some (.failed (.bind e)), pending⟩
  | none => t.updateOrWait c clauses index r pending

/-- Handle the records of a batch from a position on; a waiting record is not counted yet. -/
def upsertAll (t : Table σ) (c : CompiledCondition) (clauses : List SetClause) (index : Nat)
    (pending : List PendingInsert) :
    List UpsertRecord → Operation σ (BatchOutcome × List PendingInsert)
  | [] => return ({}, pending)
  | r :: rs => do
    let step ← t.upsertRecord c clauses index r pending
    let here ← match step.progress with
      | some p => t.settle .updateOrAdd index p
      | none => pure {}
    let (rest, pending) ← t.upsertAll c clauses (index + 1) step.pending rs
    return (here ++ rest, pending)

/-- Insert the waiting rows. -/
def insertPending (t : Table σ) : List PendingInsert → Operation σ BatchOutcome
  | [] => return {}
  | p :: ps => do
    let progress ← match ← t.create p.values with
      | .ok () => pure { written := 1 }
      | .error e => pure (.failed e)
    let here ← t.settle .updateOrAdd p.index progress
    let rest ← t.insertPending ps
    return here ++ rest

/-- The records of a batch. -/
def upsertRecords (batch setValues : List Values) (rows : List Row) : List UpsertRecord :=
  (batch.zip (setValues.zip rows)).map fun (values, set, row) => ⟨values, set, row⟩

/-- The failures in the order of the batch. -/
def sortFailures (o : BatchOutcome) : BatchOutcome :=
  { o with failures := o.failures.mergeSort fun a b => a.index ≤ b.index }

/-- Update the documents that a condition admits, or insert a row if it admits none, once for every
record of values for the condition, values for the clauses and a row. -/
def updateOrAdd (t : Table σ) (c : CompiledCondition) (clauses : List SetClause)
    (batch setValues : List Values) (rows : List Row) :
    Operation σ (Except TableError BatchOutcome) :=
  match checkLength .setValues batch.length setValues.length,
    checkLength .addRows batch.length rows.length with
  | .error e, _ | .ok (), .error e => return .error e
  | .ok (), .ok () =>
    .ok <$> t.reported .updateOrAdd (·.affected) do
      let (updated, pending) ←
        t.upsertAll c clauses 0 [] (upsertRecords batch setValues rows)
      let inserted ← t.insertPending pending
      return sortFailures (updated ++ inserted)

end Table

end StreamTable
