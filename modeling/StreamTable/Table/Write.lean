import StreamTable.Table.Query

/-!
# Writing a table

Batches of records are written one record after the other, and the failure of a record does not keep
the others from being written.  The `BatchOutcome` tells how many records were completed, how many
documents were changed, and which records failed; a record that fails half-way has changed the
documents up to there.
-/

namespace StreamTable

/-- How far the writing of a record came: the number of documents that it changed, and what stopped
it, if anything did. -/
structure Progress where
  /-- The number of changed documents. -/
  written : Nat
  /-- Why the record failed. -/
  failure : Option TableError := none

/-- A record of a batch that failed. -/
structure RecordFailure where
  /-- The position of the record in the batch. -/
  index : Nat
  /-- Why it failed. -/
  error : TableError

/-- What became of a batch. -/
structure BatchOutcome where
  /-- The number of completed records. -/
  processed : Nat := 0
  /-- The number of documents that were created, replaced or deleted. -/
  affected : Nat := 0
  /-- The records that failed. -/
  failures : List RecordFailure := []

namespace BatchOutcome

/-- No record failed. -/
def isComplete (o : BatchOutcome) : Bool := o.failures.isEmpty

/-- The positions of the records that failed. -/
def failedIndices (o : BatchOutcome) : List Nat := o.failures.map (·.index)

/-- The outcomes of two parts of a batch together. -/
def append (a b : BatchOutcome) : BatchOutcome :=
  { processed := a.processed + b.processed
    affected := a.affected + b.affected
    failures := a.failures ++ b.failures }

instance : Append BatchOutcome := ⟨append⟩

theorem append_def (a b : BatchOutcome) : a ++ b = a.append b := rfl

@[simp] theorem empty_append (o : BatchOutcome) : ({} : BatchOutcome) ++ o = o := by
  simp [append_def, append]

@[simp] theorem processed_append (a b : BatchOutcome) :
    (a ++ b).processed = a.processed + b.processed := rfl

@[simp] theorem affected_append (a b : BatchOutcome) :
    (a ++ b).affected = a.affected + b.affected := rfl

@[simp] theorem failedIndices_append (a b : BatchOutcome) :
    (a ++ b).failedIndices = a.failedIndices ++ b.failedIndices :=
  List.map_append

theorem append_assoc (a b c : BatchOutcome) : a ++ b ++ c = a ++ (b ++ c) := by
  simp [append_def, append, Nat.add_assoc]

end BatchOutcome

namespace Progress

/-- The progress of a record that failed before it changed anything. -/
def failed (e : TableError) : Progress := { written := 0, failure := some e }

/-- What becomes of a batch of one record, whose position is given. -/
def outcome (p : Progress) (index : Nat) : BatchOutcome :=
  match p.failure with
  | none => { processed := 1, affected := p.written }
  | some error => { affected := p.written, failures := [{ index, error }] }

@[simp] theorem affected_outcome (p : Progress) (index : Nat) :
    (p.outcome index).affected = p.written := by
  unfold outcome
  split <;> rfl

end Progress

namespace Table

variable {σ α : Type}

/-- Count the progress of a record, and report it if it failed. -/
def settle (t : Table σ) (kind : ExecKind) (index : Nat) (p : Progress) :
    Operation σ BatchOutcome := do
  if p.failure.isSome then .emit (.recordFailed kind t.id)
  return p.outcome index

@[simp] theorem value_settle (t : Table σ) (kind : ExecKind) (index : Nat) (p : Progress)
    (w : World σ) : (t.settle kind index p w).value = p.outcome index := by
  unfold settle
  split <;> rfl

@[simp] theorem world_settle (t : Table σ) (kind : ExecKind) (index : Nat) (p : Progress)
    (w : World σ) : (t.settle kind index p w).world = w := by
  unfold settle
  split <;> rfl

/-- Write the records of a batch from a position on, one after the other. -/
def writeBatch (t : Table σ) (kind : ExecKind) (write : α → Operation σ Progress) (index : Nat) :
    List α → Operation σ BatchOutcome
  | [] => return {}
  | x :: xs => do
    let here ← t.settle kind index (← write x)
    let rest ← t.writeBatch kind write (index + 1) xs
    return here ++ rest

/-- Write documents in order until one fails; so many were written before. -/
def writeEach (write : Document → Operation σ (Except TableError Unit)) (written : Nat) :
    List Document → Operation σ Progress
  | [] => return { written := written }
  | d :: ds => do
    match ← write d with
    | .ok () => writeEach write (written + 1) ds
    | .error e => return { written, failure := some e }

/-! ### Single documents -/

/-- The document of some values.  An identifier is generated if they do not have one. -/
def newDocument (t : Table σ) (values : Values) : Operation σ Document := do
  if Document.hasId values then return .ofValues values ""
  else return .ofValues values (← .generate t.freshIds)

/-- Add the document of some values. -/
def create (t : Table σ) (values : Values) : Operation σ (Except TableError Unit) := do
  let d ← t.newDocument values
  let answer ← Operation.request (t.backend.create t.container d) (.create t.container d)
  return answer.mapError .backend

/-- Put a document in the place of the one with its address. -/
def replace (t : Table σ) (d : Document) : Operation σ (Except TableError Unit) := do
  let answer ← Operation.request (t.backend.replace t.container d) (.replace t.container d)
  return answer.mapError .backend

/-- Remove a document; it has to have an address. -/
def remove (t : Table σ) (d : Document) : Operation σ (Except TableError Unit) := do
  match d.id? with
  | none => return .error (.backend .missingId)
  | some id =>
    let answer ← Operation.request (t.backend.delete t.container id) (.delete t.container id)
    return answer.mapError .backend

/-! ### Insertion -/

/-- Insert a row. -/
def addRecord (t : Table σ) (row : Row) : Operation σ Progress := do
  match t.schema.bind row with
  | .error e => return .failed (.bind e)
  | .ok values =>
    match ← t.create values with
    | .ok () => return { written := 1 }
    | .error e => return .failed e

/-- Insert rows. -/
def add (t : Table σ) (rows : List Row) : Operation σ BatchOutcome :=
  t.reported .add (·.affected) (t.writeBatch .add t.addRecord 0 rows)

/-! ### Deletion -/

/-- Delete the documents that a condition admits. -/
def deleteRecord (t : Table σ) (c : CompiledCondition) (values : Values) :
    Operation σ Progress := do
  match ← t.matching c values with
  | .error e => return .failed e
  | .ok documents => writeEach t.remove 0 documents

/-- Delete the documents that a condition admits, once for every record of values. -/
def delete (t : Table σ) (c : CompiledCondition) (batch : List Values) : Operation σ BatchOutcome :=
  t.reported .delete (·.affected) (t.writeBatch .delete (t.deleteRecord c) 0 batch)

/-! ### Update -/

/-- Give new values to attributes of a document. -/
def assign (d : Document) (assignments : List (String × Value)) : Document :=
  assignments.foldl (fun d (name, v) => d.set name v) d

/-- Replace documents by themselves with new values of some attributes. -/
def replaceAll (t : Table σ) (clauses : List SetClause) (set : Values) (documents : List Document) :
    Operation σ Progress :=
  match SetClause.evaluate clauses set with
  | .error e => return .failed (.bind e)
  | .ok assignments => writeEach (fun d => t.replace (assign d assignments)) 0 documents

/-- Update the documents that a condition admits. -/
def updateRecord (t : Table σ) (c : CompiledCondition) (clauses : List SetClause)
    (values set : Values) : Operation σ Progress := do
  match ← t.matching c values with
  | .error e => return .failed e
  | .ok documents => t.replaceAll clauses set documents

/-- Refuse a list of a batch that is not as long as the batch. -/
def checkLength (part : BatchPart) (expected found : Nat) : Except TableError Unit :=
  if expected = found then .ok () else .error (.batchLength part expected found)

/-- Update the documents that a condition admits, once for every record of values for the condition
and values for the clauses. -/
def update (t : Table σ) (c : CompiledCondition) (clauses : List SetClause)
    (batch setValues : List Values) : Operation σ (Except TableError BatchOutcome) :=
  match checkLength .setValues batch.length setValues.length with
  | .error e => return .error e
  | .ok () =>
    .ok <$> t.reported .update (·.affected)
      (t.writeBatch .update (fun (values, set) => t.updateRecord c clauses values set) 0
        (batch.zip setValues))

end Table

end StreamTable
