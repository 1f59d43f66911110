import StreamTable.Table.Upsert

/-!
# Settled records

`BatchOutcome.Settles` says that an outcome accounts for a run of records: each of them is
completed, has failed or waits for its insertion, and the failures and the waiting records are
different positions of the run.  Outcomes of runs that follow each other settle both
(`Settles.append`), so a batch settles its records because each record settles itself:
`settles_writeBatch`, and `settles_upsertAll` for records that may wait.

A record that is merged into a waiting row leaves the positions of the waiting rows as they are
(`indices_mergeFirst?`), and the insertions settle exactly the records that waited
(`settled_insertPending`).
-/

namespace StreamTable

/-- The outcome accounts for the records on the positions from `start` on, `n` of them; those on the
positions `waiting` are still to be inserted. -/
structure BatchOutcome.Settles (o : BatchOutcome) (waiting : List Nat) (start n : Nat) : Prop where
  /-- Each record is completed, has failed or waits. -/
  total : o.processed + o.failedIndices.length + waiting.length = n
  /-- The failures are in the order of the batch. -/
  ascending : o.failedIndices.Pairwise (· < ·)
  /-- No record fails or waits twice, and none does both. -/
  nodup : (o.failedIndices ++ waiting).Nodup
  /-- The failures and the waiting records are on positions of the run. -/
  bounds : ∀ i ∈ o.failedIndices ++ waiting, start ≤ i ∧ i < start + n

/-- What becomes of a waiting row, given the answer to its insertion. -/
def Progress.ofInsertion : Except TableError Unit → Progress
  | .ok () => { written := 1 }
  | .error e => .failed e

/-- A row that waited fails if its insertion does. -/
theorem Progress.mem_failed_ofInsertion {answer : Except TableError Unit} {i index : Nat} :
    i ∈ ((ofInsertion answer).outcome index).failedIndices ↔
      index = i ∧ ∃ e, answer = .error e := by
  cases answer <;>
    simp [ofInsertion, outcome, failed, BatchOutcome.failedIndices, eq_comm]

/-- A record can only fail on its own position. -/
theorem Progress.failedIndices_outcome (p : Progress) (index : Nat) :
    (p.outcome index).failedIndices.Sublist [index] := by
  unfold Progress.outcome
  split
  · exact List.nil_sublist _
  · exact List.Sublist.refl _

namespace BatchOutcome

/-- No records are settled by nothing. -/
theorem settles_empty (start : Nat) : Settles {} [] start 0 where
  total := rfl
  ascending := .nil
  nodup := .nil
  bounds := by simp [failedIndices]

/-- A record that waits is settled as such. -/
theorem settles_waiting (start : Nat) : Settles {} [start] start 1 where
  total := rfl
  ascending := .nil
  nodup := List.pairwise_singleton _ _
  bounds := by simp [failedIndices]

/-- A record that was handled is settled, whether it failed or not. -/
theorem settles_outcome (p : Progress) (start : Nat) : (p.outcome start).Settles [] start 1 := by
  unfold Progress.outcome
  split
  · exact ⟨rfl, .nil, .nil, by simp [failedIndices]⟩
  · exact ⟨rfl, List.pairwise_singleton _ _, List.pairwise_singleton _ _,
      by simp [failedIndices]⟩

variable {a b : BatchOutcome} {v w : List Nat} {start m n : Nat}

/-- A run and the run after it settle their records together. -/
theorem Settles.append (ha : a.Settles v start m) (hb : b.Settles w (start + m) n) :
    (a ++ b).Settles (v ++ w) start (m + n) := by
  -- The positions of the two runs are apart, so nothing of the one occurs in the other.
  have apart : ∀ i ∈ a.failedIndices ++ v, ∀ j ∈ b.failedIndices ++ w, i < j := by
    intro i hi j hj
    have := (ha.bounds i hi).2
    have := (hb.bounds j hj).1
    omega
  have regroup : List.Perm ((a.failedIndices ++ b.failedIndices) ++ (v ++ w))
      ((a.failedIndices ++ v) ++ (b.failedIndices ++ w)) := by
    rw [List.append_assoc, List.append_assoc]
    exact (List.perm_append_comm_assoc _ _ _).append_left _
  constructor
  · have ta := ha.total
    have tb := hb.total
    simp only [failedIndices_append, List.length_append] at *
    show a.processed + b.processed + _ + _ = _
    omega
  · rw [failedIndices_append]
    refine List.pairwise_append.2 ⟨ha.ascending, hb.ascending, fun i hi j hj => ?_⟩
    exact apart i (List.mem_append_left _ hi) j (List.mem_append_left _ hj)
  · rw [failedIndices_append]
    refine regroup.nodup_iff.2 (List.nodup_append.2 ⟨ha.nodup, hb.nodup, fun i hi j hj => ?_⟩)
    exact Nat.ne_of_lt (apart i hi j hj)
  · rw [failedIndices_append]
    intro i hi
    rcases List.mem_append.1 (regroup.mem_iff.1 hi) with hi | hi
    · have := ha.bounds i hi
      omega
    · have := hb.bounds i hi
      omega

end BatchOutcome

/-! ### Merging into waiting rows -/

namespace PendingInsert

/-- The positions of the records whose rows wait. -/
def indices (ps : List PendingInsert) : List Nat := ps.map (·.index)

variable {ε : Type} {qualifies : Values → Bool} {merge : Values → Except ε Values}

/-- Nothing is merged where no row qualifies. -/
theorem mergeFirst?_eq_none {ps : List PendingInsert}
    (h : ∀ p ∈ ps, qualifies p.values = false) : mergeFirst? qualifies merge ps = none := by
  induction ps with
  | nil => rfl
  | cons p ps ih =>
    obtain ⟨first, rest⟩ := List.forall_mem_cons.1 h
    rw [mergeFirst?, first, if_neg Bool.false_ne_true, ih rest]
    rfl

/-- Only the first row that qualifies is changed, and only its values. -/
theorem mergeFirst?_append {before after : List PendingInsert} {p : PendingInsert}
    (apart : ∀ q ∈ before, qualifies q.values = false) (h : qualifies p.values = true) :
    mergeFirst? qualifies merge (before ++ p :: after) =
      some ((merge p.values).map fun values => before ++ { p with values } :: after) := by
  induction before with
  | nil => exact if_pos h
  | cons q before ih =>
    obtain ⟨first, rest⟩ := List.forall_mem_cons.1 apart
    rw [List.cons_append, mergeFirst?, first, if_neg Bool.false_ne_true, ih rest, Option.map_some]
    cases merge p.values <;> rfl

/-- Either no row qualifies, or the rows fall apart at the first one that does. -/
theorem mergeFirst?_cases (qualifies : Values → Bool) (merge : Values → Except ε Values)
    (ps : List PendingInsert) :
    ((∀ p ∈ ps, qualifies p.values = false) ∧ mergeFirst? qualifies merge ps = none) ∨
      ∃ before p after, ps = before ++ p :: after ∧
        (∀ q ∈ before, qualifies q.values = false) ∧ qualifies p.values = true ∧
        mergeFirst? qualifies merge ps =
          some ((merge p.values).map fun values => before ++ { p with values } :: after) := by
  cases found : ps.find? fun p => qualifies p.values with
  | none =>
    have apart : ∀ p ∈ ps, qualifies p.values = false := fun p hp => by
      simpa using List.find?_eq_none.1 found p hp
    exact .inl ⟨apart, mergeFirst?_eq_none apart⟩
  | some p =>
    obtain ⟨here, before, after, rfl, others⟩ := List.find?_eq_some_iff_append.1 found
    have apart : ∀ q ∈ before, qualifies q.values = false := fun q hq => by simpa using others q hq
    exact .inr ⟨before, p, after, rfl, apart, here, mergeFirst?_append apart here⟩

/-- Something is merged exactly if a row qualifies; the first one that does decides how it ends. -/
theorem mergeFirst?_isOk (ps : List PendingInsert) :
    (mergeFirst? qualifies merge ps).map (·.isOk) =
      (ps.find? fun p => qualifies p.values).map fun p => (merge p.values).isOk := by
  rcases mergeFirst?_cases qualifies merge ps with
    ⟨apart, result⟩ | ⟨before, p, after, rfl, apart, here, result⟩
  · have missing : (ps.find? fun p => qualifies p.values) = none :=
      List.find?_eq_none.2 fun p hp => by simp [apart p hp]
    rw [result, missing]
    rfl
  · have found : ((before ++ p :: after).find? fun p => qualifies p.values) = some p :=
      List.find?_eq_some_iff_append.2 ⟨here, before, after, rfl, fun q hq => by simp [apart q hq]⟩
    rw [result, found]
    cases hm : merge p.values <;> simp [hm, Except.map, Except.isOk, Except.toBool]

/-- Merging changes the values of a row, never its position. -/
theorem indices_mergeFirst? {ps ps' : List PendingInsert}
    (h : mergeFirst? qualifies merge ps = some (.ok ps')) : indices ps' = indices ps := by
  rcases mergeFirst?_cases qualifies merge ps with
    ⟨_, result⟩ | ⟨before, p, after, rfl, _, _, result⟩
  · rw [result] at h
    cases h
  · rw [result] at h
    cases hm : merge p.values with
    | error e => simp [hm, Except.map] at h
    | ok values =>
      rw [hm] at h
      cases h
      simp [indices]

end PendingInsert

open Operation PendingInsert

namespace Table

variable {σ α : Type} (t : Table σ)

/-! ### Batches -/

/-- A batch settles each of its records, and none waits. -/
theorem settles_writeBatch (kind : ExecKind) (write : α → Operation σ Progress) (index : Nat)
    (xs : List α) (w : World σ) :
    (t.writeBatch kind write index xs w).value.Settles [] index xs.length := by
  induction xs generalizing index w with
  | nil => exact BatchOutcome.settles_empty index
  | cons x xs ih =>
    have here := BatchOutcome.settles_outcome (write x w).value index
    have both := here.append (ih (index + 1) (write x w).world)
    simpa [writeBatch, Nat.add_comm] using both

end Table

/-! ### Batches with waiting rows -/

namespace UpsertStep

/-- The position of the record, if it waits. -/
def waiting (s : UpsertStep) (index : Nat) : List Nat :=
  if s.progress.isSome then [] else [index]

/-- What became of the record; nothing yet if it waits. -/
def outcome (s : UpsertStep) (index : Nat) : BatchOutcome :=
  s.progress.elim {} (·.outcome index)

/-- A record of the first pass is settled or waits. -/
theorem settles_outcome (s : UpsertStep) (index : Nat) :
    (s.outcome index).Settles (s.waiting index) index 1 := by
  obtain ⟨progress, pending⟩ := s
  -- A record without progress is one that waits.
  cases progress with
  | none => exact BatchOutcome.settles_waiting index
  | some p => exact BatchOutcome.settles_outcome p index

end UpsertStep

namespace Table

variable {σ : Type} (t : Table σ) (c : CompiledCondition) (clauses : List SetClause)

/-- A record that goes to wait is the last of those that wait. -/
theorem indices_updateOrWait (index : Nat) (r : UpsertRecord) (pending : List PendingInsert)
    (w : World σ) :
    indices (t.updateOrWait c clauses index r pending w).value.pending =
      indices pending ++ (t.updateOrWait c clauses index r pending w).value.waiting index := by
  unfold updateOrWait
  rw [value_bind]
  match (t.matching c r.values w).value with
  | .error e => simp [UpsertStep.waiting]
  | .ok [] => cases t.schema.bind r.row <;> simp [UpsertStep.waiting, indices]
  | .ok (d :: ds) => simp [UpsertStep.waiting]

/-- A record changes nothing about the rows that wait but their values; its own row comes last. -/
theorem indices_upsertRecord (index : Nat) (r : UpsertRecord) (pending : List PendingInsert)
    (w : World σ) :
    indices (t.upsertRecord c clauses index r pending w).value.pending =
      indices pending ++ (t.upsertRecord c clauses index r pending w).value.waiting index := by
  unfold upsertRecord
  cases h : t.mergePending? c clauses r pending with
  | none => exact t.indices_updateOrWait c clauses index r pending w
  | some merged =>
    cases merged with
    | error e => simp [UpsertStep.waiting]
    | ok pending' =>
      obtain ⟨standsFor, _, h⟩ := Option.bind_eq_some_iff.1 h
      simp [indices_mergeFirst? h, UpsertStep.waiting]

/-- The first record of a batch and the others settle one after the other. -/
theorem value_upsertAll_cons (index : Nat) (pending : List PendingInsert) (r : UpsertRecord)
    (rs : List UpsertRecord) (w : World σ) :
    let step := t.upsertRecord c clauses index r pending w
    let rest := t.upsertAll c clauses (index + 1) step.value.pending rs step.world
    (t.upsertAll c clauses index pending (r :: rs) w).value =
        (step.value.outcome index ++ rest.value.1, rest.value.2) ∧
      (t.upsertAll c clauses index pending (r :: rs) w).world = rest.world := by
  intro step rest
  simp only [upsertAll, value_bind, world_bind]
  cases h : (t.upsertRecord c clauses index r pending w).value.progress with
  | none => simp [UpsertStep.outcome, step, rest, h]
  | some p => simp [UpsertStep.outcome, step, rest, h]

/-- Every record is settled or waits, and the rows that wait afterwards are those that waited
before, followed by those of the records that wait. -/
theorem settles_upsertAll (index : Nat) (pending : List PendingInsert) (rs : List UpsertRecord)
    (w : World σ) :
    ∃ waiting, indices (t.upsertAll c clauses index pending rs w).value.2 =
        indices pending ++ waiting ∧
      (t.upsertAll c clauses index pending rs w).value.1.Settles waiting index rs.length := by
  induction rs generalizing index pending w with
  | nil => exact ⟨[], (List.append_nil _).symm, BatchOutcome.settles_empty index⟩
  | cons r rs ih =>
    let step := t.upsertRecord c clauses index r pending w
    obtain ⟨waiting, positions, settles⟩ := ih (index + 1) step.value.pending step.world
    rw [(t.value_upsertAll_cons c clauses index pending r rs w).1]
    refine ⟨step.value.waiting index ++ waiting, ?_, ?_⟩
    · rw [positions, t.indices_upsertRecord, List.append_assoc]
    · have both := (step.value.settles_outcome index).append settles
      rw [Nat.add_comm 1] at both
      exact both

/-! ### Insertion -/

/-- The first waiting row and the others are inserted one after the other. -/
theorem value_insertPending_cons (p : PendingInsert) (ps : List PendingInsert) (w : World σ) :
    let answer := t.create p.values w
    let rest := t.insertPending ps answer.world
    (t.insertPending (p :: ps) w).value =
        (Progress.ofInsertion answer.value).outcome p.index ++ rest.value ∧
      (t.insertPending (p :: ps) w).world = rest.world := by
  intro answer rest
  simp only [insertPending, value_bind, world_bind]
  cases (t.create p.values w).value <;> simp [Progress.ofInsertion, answer, rest]

/-- The insertions settle exactly the records that waited. -/
theorem settled_insertPending (ps : List PendingInsert) (w : World σ) :
    (t.insertPending ps w).value.processed + (t.insertPending ps w).value.failedIndices.length =
        ps.length ∧
      (t.insertPending ps w).value.failedIndices.Sublist (indices ps) := by
  induction ps generalizing w with
  | nil => exact ⟨rfl, .slnil⟩
  | cons p ps ih =>
    let first := Progress.ofInsertion (t.create p.values w).value
    obtain ⟨total, failed⟩ := ih (t.create p.values w).world
    have here : (first.outcome p.index).processed +
        (first.outcome p.index).failedIndices.length = 1 :=
      (BatchOutcome.settles_outcome first p.index).total
    rw [(t.value_insertPending_cons p ps w).1, BatchOutcome.failedIndices_append,
      BatchOutcome.processed_append]
    constructor
    · rw [List.length_append, List.length_cons]
      show (first.outcome p.index).processed + _ +
        ((first.outcome p.index).failedIndices.length + _) = _
      omega
    · exact (first.failedIndices_outcome p.index).append failed

end Table

end StreamTable
