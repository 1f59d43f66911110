import StreamTable.Proofs.Table.Changes
import StreamTable.Proofs.Table.Settling
import Mathlib.Data.List.Perm.Basic

/-!
# Accounting for batches

The outcome of a batch accounts for its records and for the store (`BatchOutcome.Accounts`): every
record is either completed or has failed, the failures are listed once and in the order of the
batch, and the number of affected documents is the number of changes that the store granted, those
of records that failed half-way included.

`Table.batches_account` states this of the four ways to write a batch, for every store.  A record of
`Table.updateOrAdd` may wait until the other records are settled, so its failure can come late; that
the failures are in order again is due to `Table.sortFailures` (`settles_sortFailures`).
-/

namespace StreamTable

/-- The outcome accounts for a batch of so many records and for the actions of its operation. -/
structure BatchOutcome.Accounts (o : BatchOutcome) (records : Nat) (trace : Trace) : Prop where
  /-- Each record is completed or has failed. -/
  total : o.processed + o.failures.length = records
  /-- No record fails twice, and the failures are in the order of the batch. -/
  ascending : o.failedIndices.Pairwise (· < ·)
  /-- Only records of the batch fail. -/
  bounds : ∀ i ∈ o.failedIndices, i < records
  /-- As many records are completed as there are positions without a failure. -/
  completed : o.processed = (List.range records).countP (· ∉ o.failedIndices)
  /-- The affected documents are the changes that the store granted. -/
  affected : o.affected = trace.changes

namespace BatchOutcome

variable {o : BatchOutcome} {waiting : List Nat} {start n : Nat} {trace : Trace}

/-- The positions without a failure are those that are left when the failures are taken away. -/
theorem Settles.completed (h : o.Settles [] 0 n) :
    o.processed = (List.range n).countP (· ∉ o.failedIndices) := by
  have nodup := h.nodup
  have bounds := h.bounds
  have total := h.total
  rw [List.append_nil] at nodup bounds
  rw [List.length_nil] at total
  have failed : ((List.range n).filter (· ∈ o.failedIndices)).Perm o.failedIndices := by
    refine (List.perm_ext_iff_of_nodup (List.nodup_range.filter _) nodup).2 fun i => ?_
    rw [List.mem_filter, List.mem_range, decide_eq_true_iff, and_iff_right_iff_imp]
    intro hi
    have := (bounds i hi).2
    omega
  have count : (List.range n).length = _ :=
    List.length_eq_countP_add_countP (· ∈ o.failedIndices)
  rw [List.countP_eq_length_filter, failed.length_eq, List.length_range] at count
  simp only [decide_eq_true_eq] at count
  omega

/-- A batch that settles all of its records accounts for them, if what it affected is what the store
granted. -/
theorem Settles.accounts (h : o.Settles [] 0 n) (affected : o.affected = trace.changes) :
    o.Accounts n trace where
  total := by
    have total := h.total
    rw [failedIndices, List.length_map] at total
    exact total
  ascending := h.ascending
  bounds := fun i hi => by
    have := (h.bounds i (List.mem_append_left _ hi)).2
    omega
  completed := h.completed
  affected := affected

end BatchOutcome

namespace Table

open Operation PendingInsert

variable {σ α : Type} (t : Table σ)

/-! ### Sorting the failures -/

/-- Sorting moves the failures, but loses and adds none. -/
theorem perm_sortFailures (o : BatchOutcome) :
    (sortFailures o).failedIndices.Perm o.failedIndices :=
  (List.mergeSort_perm _ _).map _

/-- The failures are sorted, and where there are no two failures of a record, strictly so. -/
theorem ascending_sortFailures {o : BatchOutcome} (h : o.failedIndices.Nodup) :
    (sortFailures o).failedIndices.Pairwise (· < ·) := by
  have transitive (a b c : RecordFailure) : decide (a.index ≤ b.index) →
      decide (b.index ≤ c.index) → decide (a.index ≤ c.index) := by
    simpa using Nat.le_trans
  have total (a b : RecordFailure) : decide (a.index ≤ b.index) || decide (b.index ≤ a.index) := by
    simpa using Nat.le_total a.index b.index
  have sorted : (sortFailures o).failedIndices.Pairwise (· ≤ ·) :=
    List.pairwise_map.2
      ((List.pairwise_mergeSort transitive total o.failures).imp of_decide_eq_true)
  have nodup : (sortFailures o).failedIndices.Nodup := (perm_sortFailures o).nodup_iff.2 h
  exact sorted.imp₂ (fun i j le ne => Nat.lt_of_le_of_ne le ne) nodup

/-- When the records that wait are settled as well, none is left. -/
theorem settles_sortFailures {updated inserted : BatchOutcome} {waiting : List Nat} {start n : Nat}
    (h : updated.Settles waiting start n)
    (total : inserted.processed + inserted.failedIndices.length = waiting.length)
    (failed : inserted.failedIndices.Sublist waiting) :
    (sortFailures (updated ++ inserted)).Settles [] start n := by
  have perm := perm_sortFailures (updated ++ inserted)
  have late : (updated ++ inserted).failedIndices.Sublist (updated.failedIndices ++ waiting) := by
    rw [BatchOutcome.failedIndices_append]
    exact failed.append_left _
  constructor
  · have := h.total
    rw [perm.length_eq, BatchOutcome.failedIndices_append, List.length_append]
    show updated.processed + inserted.processed + _ + 0 = _
    omega
  · exact ascending_sortFailures (h.nodup.sublist late)
  · rw [List.append_nil]
    exact perm.nodup_iff.2 (h.nodup.sublist late)
  · rw [List.append_nil]
    intro i hi
    exact h.bounds i (late.subset (perm.mem_iff.1 hi))

/-- Update or insert the records of a batch, whose lists are of one length. -/
def upsertBatch (c : CompiledCondition) (clauses : List SetClause) (rs : List UpsertRecord) :
    Operation σ BatchOutcome := do
  let (updated, pending) ← t.upsertAll c clauses 0 [] rs
  let inserted ← t.insertPending pending
  return sortFailures (updated ++ inserted)

/-- Both passes together settle each record of the batch once: the second one settles those that the
first one left waiting. -/
theorem settles_upsertBatch (c : CompiledCondition) (clauses : List SetClause)
    (rs : List UpsertRecord) (w : World σ) :
    (t.upsertBatch c clauses rs w).value.Settles [] 0 rs.length := by
  let updated := t.upsertAll c clauses 0 [] rs w
  obtain ⟨waiting, positions, settles⟩ := t.settles_upsertAll c clauses 0 [] rs w
  obtain ⟨total, failed⟩ := t.settled_insertPending updated.value.2 updated.world
  have count : updated.value.2.length = waiting.length := by
    have := congrArg List.length positions
    simpa [indices] using this
  rw [count] at total
  rw [positions] at failed
  exact settles_sortFailures settles total failed

/-- What the store grants in either pass is counted as affected, and nothing else is. -/
theorem counts_upsertBatch (c : CompiledCondition) (clauses : List SetClause)
    (rs : List UpsertRecord) : (t.upsertBatch c clauses rs).Counts (·.affected) := by
  refine (t.counts_upsertAll c clauses 0 [] rs).bind fun (updated, pending) w => ?_
  have inserted := t.counts_insertPending pending w
  simp only [value_bind, trace_bind, pure_apply, List.append_nil]
  rw [inserted]
  rfl

/-! ### The four ways to write a batch -/

/-- A batch that is written record by record is accounted for if each record counts its
changes. -/
theorem accounts_writeBatch (kind : ExecKind) {write : α → Operation σ Progress}
    (h : ∀ x, (write x).Counts (·.written)) (xs : List α) (w : World σ) :
    let batch := t.reported kind (·.affected) (t.writeBatch kind write 0 xs)
    (batch w).value.Accounts xs.length (batch w).trace := by
  have counts := t.counts_reported kind (t.counts_writeBatch kind h 0 xs) w
  exact (t.settles_writeBatch kind write 0 xs w).accounts counts.symm

/-- An addition accounts for its rows, whatever the store answers. -/
theorem accounts_add (rows : List Row) (w : World σ) :
    (t.add rows w).value.Accounts rows.length (t.add rows w).trace :=
  t.accounts_writeBatch .add t.counts_addRecord rows w

/-- A deletion accounts for its bindings, whatever the store answers. -/
theorem accounts_delete (c : CompiledCondition) (batch : List Values) (w : World σ) :
    (t.delete c batch w).value.Accounts batch.length (t.delete c batch w).trace :=
  t.accounts_writeBatch .delete (t.counts_deleteRecord c) batch w

variable (c : CompiledCondition) (clauses : List SetClause) (batch setValues : List Values)

theorem checkLength_of_eq (part : BatchPart) {expected found : Nat} (h : expected = found) :
    checkLength part expected found = .ok () :=
  if_pos h

theorem checkLength_of_ne (part : BatchPart) {expected found : Nat} (h : expected ≠ found) :
    checkLength part expected found = .error (.batchLength part expected found) :=
  if_neg h

/-- Updates of a batch whose lists are of one length are written like any batch. -/
theorem update_of_length (h : batch.length = setValues.length) :
    t.update c clauses batch setValues = .ok <$> t.reported .update (·.affected)
      (t.writeBatch .update (fun (values, set) => t.updateRecord c clauses values set) 0
        (batch.zip setValues)) := by
  unfold update
  rw [checkLength_of_eq _ h]

/-- A batch of updates whose lists are of different lengths is refused, and the store is not
asked. -/
theorem update_of_length_ne (h : batch.length ≠ setValues.length) :
    t.update c clauses batch setValues =
      pure (.error (.batchLength .setValues batch.length setValues.length)) := by
  unfold update
  rw [checkLength_of_ne _ h]

/-- An update accounts for its bindings, unless it is refused as a whole because there are more or
fewer values to set; then nothing was done. -/
theorem accounts_update (w : World σ) :
    match (t.update c clauses batch setValues w).value with
    | .ok o => o.Accounts batch.length (t.update c clauses batch setValues w).trace
    | .error _ => batch.length ≠ setValues.length ∧
        (t.update c clauses batch setValues w).trace = [] := by
  by_cases h : batch.length = setValues.length
  · have length : (batch.zip setValues).length = batch.length := by simp [h]
    rw [t.update_of_length c clauses batch setValues h, value_map, trace_map, ← length]
    refine t.accounts_writeBatch .update (fun x => ?_) (batch.zip setValues) w
    exact t.counts_updateRecord c clauses x.1 x.2
  · rw [t.update_of_length_ne c clauses batch setValues h]
    exact ⟨h, rfl⟩

/-- Batches of one length give as many records. -/
theorem length_upsertRecords {rows : List Row} (hs : batch.length = setValues.length)
    (hr : batch.length = rows.length) :
    (upsertRecords batch setValues rows).length = batch.length := by
  simp [upsertRecords, ← hs, ← hr]

/-- With batches of one length, an update or addition is its two passes between the events of the
operation. -/
theorem updateOrAdd_of_length {rows : List Row} (hs : batch.length = setValues.length)
    (hr : batch.length = rows.length) :
    t.updateOrAdd c clauses batch setValues rows = .ok <$> t.reported .updateOrAdd (·.affected)
      (t.upsertBatch c clauses (upsertRecords batch setValues rows)) := by
  unfold updateOrAdd
  rw [checkLength_of_eq _ hs, checkLength_of_eq _ hr]
  rfl

/-- A batch whose lists are of different lengths is refused, and the store is not asked. -/
theorem updateOrAdd_of_length_ne {rows : List Row}
    (h : ¬ (batch.length = setValues.length ∧ batch.length = rows.length)) :
    ∃ e, t.updateOrAdd c clauses batch setValues rows = pure (.error e) := by
  unfold updateOrAdd
  by_cases hs : batch.length = setValues.length
  · rw [checkLength_of_eq _ hs, checkLength_of_ne _ fun hr => h ⟨hs, hr⟩]
    exact ⟨_, rfl⟩
  · rw [checkLength_of_ne _ hs]
    exact ⟨_, rfl⟩

/-- An update or addition accounts for its records, unless it is refused as a whole because the
batches differ in length; then nothing was done. -/
theorem accounts_updateOrAdd (rows : List Row) (w : World σ) :
    match (t.updateOrAdd c clauses batch setValues rows w).value with
    | .ok o => o.Accounts batch.length (t.updateOrAdd c clauses batch setValues rows w).trace
    | .error _ => ¬ (batch.length = setValues.length ∧ batch.length = rows.length) ∧
        (t.updateOrAdd c clauses batch setValues rows w).trace = [] := by
  by_cases h : batch.length = setValues.length ∧ batch.length = rows.length
  · let records := upsertRecords batch setValues rows
    have settles := t.settles_upsertBatch c clauses records w
    rw [length_upsertRecords batch setValues h.1 h.2] at settles
    have counts := t.counts_reported .updateOrAdd (t.counts_upsertBatch c clauses records) w
    rw [t.updateOrAdd_of_length c clauses batch setValues h.1 h.2, value_map, trace_map]
    exact settles.accounts counts.symm
  · obtain ⟨e, refused⟩ := t.updateOrAdd_of_length_ne c clauses batch setValues h
    rw [refused]
    exact ⟨h, rfl⟩

/-- Whatever the store does, each way to write a batch gives an outcome that accounts for the
records and for the changes that the store granted; or else the lists of the batch are of
different lengths, and the store was not asked. -/
theorem batches_account (rows : List Row) (w : World σ) :
    (t.add rows w).value.Accounts rows.length (t.add rows w).trace ∧
    (t.delete c batch w).value.Accounts batch.length (t.delete c batch w).trace ∧
    (match (t.update c clauses batch setValues w).value with
      | .ok o => o.Accounts batch.length (t.update c clauses batch setValues w).trace
      | .error _ => batch.length ≠ setValues.length ∧
          (t.update c clauses batch setValues w).trace = []) ∧
    (match (t.updateOrAdd c clauses batch setValues rows w).value with
      | .ok o => o.Accounts batch.length (t.updateOrAdd c clauses batch setValues rows w).trace
      | .error _ => ¬ (batch.length = setValues.length ∧ batch.length = rows.length) ∧
          (t.updateOrAdd c clauses batch setValues rows w).trace = []) :=
  ⟨t.accounts_add rows w, t.accounts_delete c batch w,
    t.accounts_update c clauses batch setValues w,
    t.accounts_updateOrAdd c clauses batch setValues rows w⟩

end Table

end StreamTable
