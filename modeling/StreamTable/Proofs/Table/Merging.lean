import StreamTable.Proofs.Table.Accounting

/-!
# Merged records

A record of `Table.updateOrAdd` that is merged into a waiting row (`Table.MergedInto`) is counted as
completed at once and asks nothing of the store.  Whether the row is inserted turns out after the
whole batch.  If the store refuses it (`Table.InsertRefused`), only the record that the row belongs
to fails; the merged ones stay completed, although nothing is left of them
(`Table.failures_of_merged`).

So failures tell of every record that was lost, `Table.ReportsMerged`, just in those runs where
no row with a merged record is refused.  A store that refuses every insertion gives one where they
do not (`Table.not_reportsMerged_refusing`).
-/

namespace StreamTable

open Operation PendingInsert

/-- The waiting row that stands for a record: the first that the in-memory filter recognises. -/
def CompiledCondition.waitingFor? (c : CompiledCondition) (r : UpsertRecord)
    (pending : List PendingInsert) : Option PendingInsert := do
  let standsFor ← c.inMemoryFilter
  pending.find? fun p => standsFor p.values r.values

namespace Table

variable {σ : Type} (t : Table σ) (c : CompiledCondition) (clauses : List SetClause)

/-! ### The step of a merged record -/

/-- A record is merged if a waiting row stands for it and its values can be put into that row. -/
theorem isOk_mergePending? (r : UpsertRecord) (pending : List PendingInsert) :
    (t.mergePending? c clauses r pending).map (·.isOk) =
      (c.waitingFor? r pending).map fun p => (t.merge c clauses r p.values).isOk := by
  unfold mergePending? CompiledCondition.waitingFor?
  cases c.inMemoryFilter with
  | none => rfl
  | some standsFor => exact mergeFirst?_isOk pending

/-- A record that is merged is completed with nothing written, and the store is not asked. -/
theorem upsertRecord_of_merged (index : Nat) {r : UpsertRecord} {pending : List PendingInsert}
    {p : PendingInsert} (hp : c.waitingFor? r pending = some p)
    (hm : (t.merge c clauses r p.values).isOk) (w : World σ) :
    ∃ pending', t.upsertRecord c clauses index r pending w =
      ⟨⟨some { written := 0 }, pending'⟩, [], w⟩ := by
  have merged := t.isOk_mergePending? c clauses r pending
  rw [hp, Option.map_some, hm] at merged
  obtain ⟨result, h, ok⟩ := Option.map_eq_some_iff.1 merged
  cases result with
  | error e => cases ok
  | ok pending' =>
    unfold upsertRecord
    rw [h]
    exact ⟨pending', rfl⟩

/-- The row that stands for a record is one of those that wait. -/
theorem mem_indices_of_waitingFor? {r : UpsertRecord} {pending : List PendingInsert}
    {p : PendingInsert} (h : c.waitingFor? r pending = some p) : p.index ∈ indices pending := by
  obtain ⟨standsFor, _, found⟩ := Option.bind_eq_some_iff.1 h
  exact List.mem_map_of_mem (List.mem_of_find?_eq_some found)

/-! ### Batches in two parts -/

/-- The second part of a batch goes on with the rows that wait after the first. -/
theorem value_upsertAll_append (index : Nat) (pending : List PendingInsert)
    (xs ys : List UpsertRecord) (w : World σ) :
    let first := t.upsertAll c clauses index pending xs w
    let rest := t.upsertAll c clauses (index + xs.length) first.value.2 ys first.world
    (t.upsertAll c clauses index pending (xs ++ ys) w).value =
      (first.value.1 ++ rest.value.1, rest.value.2) := by
  induction xs generalizing index pending w with
  | nil => simp [upsertAll]
  | cons x xs ih =>
    intro first rest
    let step := t.upsertRecord c clauses index x pending w
    have cons := t.value_upsertAll_cons c clauses index pending x xs w
    rw [List.cons_append, (t.value_upsertAll_cons c clauses index pending x (xs ++ ys) w).1,
      ih (index + 1) step.value.pending step.world]
    simp only [rest, first, cons.1, cons.2, List.length_cons, BatchOutcome.append_assoc]
    rw [Nat.add_assoc, Nat.add_comm 1]

/-- What comes of a batch, seen from one of its records. -/
theorem value_upsertAll_at {rs : List UpsertRecord} {j : Nat} {r : UpsertRecord}
    (h : rs[j]? = some r) (w : World σ) :
    let before := t.upsertAll c clauses 0 [] (rs.take j) w
    let step := t.upsertRecord c clauses j r before.value.2 before.world
    let after := t.upsertAll c clauses (j + 1) step.value.pending (rs.drop (j + 1)) step.world
    (t.upsertAll c clauses 0 [] rs w).value =
      (before.value.1 ++ (step.value.outcome j ++ after.value.1), after.value.2) := by
  intro before step after
  obtain ⟨hj, get⟩ := List.getElem?_eq_some_iff.1 h
  have split : rs.take j ++ r :: rs.drop (j + 1) = rs := by
    rw [← get, List.getElem_cons_drop, List.take_append_drop]
  have parts := t.value_upsertAll_append c clauses 0 [] (rs.take j) (r :: rs.drop (j + 1)) w
  have length : (rs.take j).length = j := List.length_take_of_le (Nat.le_of_lt hj)
  simp only [split, length, Nat.zero_add] at parts
  rw [parts, (t.value_upsertAll_cons c clauses j _ r _ _).1]

/-! ### The failures of the insertions -/

/-- An insertion fails if the store refuses it after the insertions before it. -/
theorem mem_failed_insertPending {ps : List PendingInsert} {i : Nat} {w : World σ} :
    i ∈ (t.insertPending ps w).value.failedIndices ↔
      ∃ k p e, ps[k]? = some p ∧ p.index = i ∧
        (t.create p.values (t.insertPending (ps.take k) w).world).value = .error e := by
  induction ps generalizing w with
  | nil => simp [insertPending, BatchOutcome.failedIndices]
  | cons p ps ih =>
    rw [(t.value_insertPending_cons p ps w).1, BatchOutcome.failedIndices_append, List.mem_append,
      ih]
    -- The row on the position `k` of the others is on the position `k + 1` of all.
    constructor
    · rintro (here | ⟨k, q, e, hq, hi, refused⟩)
      · obtain ⟨hi, e, refused⟩ := Progress.mem_failed_ofInsertion.1 here
        exact ⟨0, p, e, rfl, hi, refused⟩
      · refine ⟨k + 1, q, e, hq, hi, ?_⟩
        rw [List.take_succ_cons, (t.value_insertPending_cons p (ps.take k) w).2]
        exact refused
    · rintro ⟨k, q, e, hq, hi, refused⟩
      cases k with
      | zero =>
        cases hq
        exact .inl (Progress.mem_failed_ofInsertion.2 ⟨hi, e, refused⟩)
      | succ k =>
        right
        rw [List.take_succ_cons, (t.value_insertPending_cons p (ps.take k) w).2] at refused
        exact ⟨k, q, e, hq, hi, refused⟩

/-! ### Runs with merged records -/

variable (rs : List UpsertRecord) (w : World σ)

/-- The record on the position `j` is merged into the row that waits for the record on the position
`i`. -/
def MergedInto (i j : Nat) : Prop :=
  ∃ r p, rs[j]? = some r ∧
    c.waitingFor? r (t.upsertAll c clauses 0 [] (rs.take j) w).value.2 = some p ∧ p.index = i ∧
    (t.merge c clauses r p.values).isOk

/-- The store refuses the row of the record on the position `i`, after the rows before it. -/
def InsertRefused (i : Nat) : Prop :=
  let updated := t.upsertAll c clauses 0 [] rs w
  ∃ k p e, updated.value.2[k]? = some p ∧ p.index = i ∧
    (t.create p.values (t.insertPending (updated.value.2.take k) updated.world).world).value =
      .error e

/-- Where a row is refused, the outcome tells of its record and of those that were merged into
it. -/
def ReportsMerged (o : BatchOutcome) : Prop :=
  ∀ i j, t.MergedInto c clauses rs w i j → t.InsertRefused c clauses rs w i →
    i ∈ o.failedIndices ∧ j ∈ o.failedIndices

/-- A batch falls into what comes before a merged record, its completion, and what comes after; the
row that it was merged into waits already when it comes. -/
theorem parts_of_mergedInto {i j : Nat} (h : t.MergedInto c clauses rs w i j) :
    ∃ before after waiting waiting',
      (t.upsertAll c clauses 0 [] rs w).value.1 = before ++ ({ processed := 1 } ++ after) ∧
      indices (t.upsertAll c clauses 0 [] rs w).value.2 = waiting ++ waiting' ∧
      before.Settles waiting 0 j ∧ after.Settles waiting' (j + 1) (rs.length - (j + 1)) ∧
      i ∈ waiting := by
  obtain ⟨r, p, hr, hp, rfl, hm⟩ := h
  have hj : j < rs.length := (List.getElem?_eq_some_iff.1 hr).1
  have value := t.value_upsertAll_at c clauses hr w
  obtain ⟨waiting, first, settles⟩ := t.settles_upsertAll c clauses 0 [] (rs.take j) w
  rw [List.length_take_of_le (Nat.le_of_lt hj)] at settles
  generalize t.upsertAll c clauses 0 [] (rs.take j) w = before at *
  obtain ⟨pending, step⟩ := t.upsertRecord_of_merged c clauses j hp hm before.world
  simp only [step] at value
  obtain ⟨waiting', last, settles'⟩ :=
    t.settles_upsertAll c clauses (j + 1) pending (rs.drop (j + 1)) before.world
  rw [List.length_drop] at settles'
  -- The rows that wait before the record still wait after it, and its own is not among them.
  have kept : indices pending = waiting := by
    have := t.indices_upsertRecord c clauses j r before.value.2 before.world
    rw [step, first] at this
    simpa [indices, UpsertStep.waiting] using this
  have target : p.index ∈ waiting := by
    have := mem_indices_of_waitingFor? c hp
    rw [first] at this
    exact this
  rw [kept] at last
  rw [value]
  exact ⟨before.value.1, _, waiting, waiting', rfl, last, settles, settles', target⟩

/-- The records of a merge are settled in the order of the batch: when all were handled, the first
one still waits, and the second neither waits nor has failed. -/
theorem settled_of_mergedInto {i j : Nat} (h : t.MergedInto c clauses rs w i j) :
    let updated := (t.upsertAll c clauses 0 [] rs w).value
    i < j ∧ j < rs.length ∧ i ∈ indices updated.2 ∧ j ∉ indices updated.2 ∧
      j ∉ updated.1.failedIndices := by
  intro updated
  have bound : j < rs.length := by
    obtain ⟨r, _, hr, _⟩ := h
    exact (List.getElem?_eq_some_iff.1 hr).1
  -- The batch is divided at the merged record: what failed or waits before it is on earlier
  -- positions, and what does so after it on later ones.
  obtain ⟨before, after, waiting, waiting', outcome, positions, settles, settles', hi⟩ :=
    t.parts_of_mergedInto c clauses rs w h
  have earlier (k : Nat) (hk : k ∈ before.failedIndices ++ waiting) : k < j := by
    have := (settles.bounds k hk).2
    omega
  have later (k : Nat) (hk : k ∈ after.failedIndices ++ waiting') : j < k := by
    have := (settles'.bounds k hk).1
    omega
  have failed : updated.1.failedIndices = before.failedIndices ++ after.failedIndices := by
    rw [outcome, BatchOutcome.failedIndices_append, BatchOutcome.failedIndices_append]
    rfl
  refine ⟨earlier i (List.mem_append_right _ hi), bound, ?_, ?_, ?_⟩
  · rw [positions]
    exact List.mem_append_left _ hi
  · rw [positions, List.mem_append]
    rintro (h | h)
    · exact Nat.lt_irrefl j (earlier j (List.mem_append_right _ h))
    · exact Nat.lt_irrefl j (later j (List.mem_append_right _ h))
  · rw [failed, List.mem_append]
    rintro (h | h)
    · exact Nat.lt_irrefl j (earlier j (List.mem_append_left _ h))
    · exact Nat.lt_irrefl j (later j (List.mem_append_left _ h))

/-- A record of a batch fails in the first pass, or its row is refused in the second one. -/
theorem mem_failed_upsertBatch {i : Nat} :
    i ∈ (t.upsertBatch c clauses rs w).value.failedIndices ↔
      i ∈ (t.upsertAll c clauses 0 [] rs w).value.1.failedIndices ∨
        i ∈ (t.insertPending (t.upsertAll c clauses 0 [] rs w).value.2
          (t.upsertAll c clauses 0 [] rs w).world).value.failedIndices := by
  let updated := t.upsertAll c clauses 0 [] rs w
  let inserted := t.insertPending updated.value.2 updated.world
  have perm := perm_sortFailures (updated.value.1 ++ inserted.value)
  rw [BatchOutcome.failedIndices_append] at perm
  exact perm.mem_iff.trans List.mem_append

/-- A merged record never fails; the record it was merged into fails if its row is refused. -/
theorem failures_of_mergedInto {i j : Nat} (h : t.MergedInto c clauses rs w i j) :
    let o := (t.upsertBatch c clauses rs w).value
    i < j ∧ j < rs.length ∧ j ∉ o.failedIndices ∧
      (i ∈ o.failedIndices ↔ t.InsertRefused c clauses rs w i) := by
  intro o
  obtain ⟨lt, bound, waits, counted, fine⟩ := t.settled_of_mergedInto c clauses rs w h
  obtain ⟨waiting, positions, settles⟩ := t.settles_upsertAll c clauses 0 [] rs w
  let updated := t.upsertAll c clauses 0 [] rs w
  have failed := (t.settled_insertPending updated.value.2 updated.world).2
  refine ⟨lt, bound, fun hj => ?_, ?_⟩
  · rcases (t.mem_failed_upsertBatch c clauses rs w).1 hj with hj | hj
    · exact fine hj
    · exact counted (failed.subset hj)
  · -- A record whose row waits has not failed so far, so it is up to the insertion.
    have early : i ∉ updated.value.1.failedIndices := by
      intro hi
      rw [positions] at waits
      exact (List.nodup_append.1 settles.nodup).2.2 i hi i waits rfl
    rw [t.mem_failed_upsertBatch c clauses rs w, or_iff_right early]
    exact t.mem_failed_insertPending

variable (batch setValues : List Values)

/-- Whatever the store does: of the records of a merge the second is completed, and the first fails
exactly if its row is refused.  So the failures tell of every record whose row is refused just if no
such row has a merged record. -/
theorem failures_of_merged (rows : List Row) :
    match (t.updateOrAdd c clauses batch setValues rows w).value with
    | .ok o =>
      let rs := upsertRecords batch setValues rows
      (∀ i j, t.MergedInto c clauses rs w i j → i < j ∧ j < batch.length ∧
        j ∉ o.failedIndices ∧ (i ∈ o.failedIndices ↔ t.InsertRefused c clauses rs w i)) ∧
      o.processed = (List.range batch.length).countP (· ∉ o.failedIndices) ∧
      (t.ReportsMerged c clauses rs w o ↔
        ∀ i j, t.MergedInto c clauses rs w i j → ¬ t.InsertRefused c clauses rs w i)
    | .error _ => ¬ (batch.length = setValues.length ∧ batch.length = rows.length) := by
  have accounts := t.accounts_updateOrAdd c clauses batch setValues rows w
  by_cases h : batch.length = setValues.length ∧ batch.length = rows.length
  · rw [t.updateOrAdd_of_length c clauses batch setValues h.1 h.2, value_map] at accounts ⊢
    let rs := upsertRecords batch setValues rows
    have length : rs.length = batch.length := length_upsertRecords batch setValues h.1 h.2
    have merged (i j : Nat) (h : t.MergedInto c clauses rs w i j) :=
      t.failures_of_mergedInto c clauses rs w h
    rw [length] at merged
    refine ⟨merged, accounts.completed, ?_, ?_⟩
    · -- The merged record would have to be among the failures, where it never is.
      intro reports i j h refused
      exact (merged i j h).2.2.1 (reports i j h refused).2
    · intro none i j h refused
      exact absurd refused (none i j h)
  · obtain ⟨e, refused⟩ := t.updateOrAdd_of_length_ne c clauses batch setValues h
    -- A batch whose lists differ in length is refused as a whole.
    rw [refused]
    exact h

/-- A table whose store has no documents and takes none. -/
def refusing : Table Unit where
  definition := ⟨"T", [⟨"price", .long⟩]⟩
  collection := "T"
  container := "/dbs/db/colls/T"
  backend := {
    query := fun _ _ s => (.ok [], s)
    create := fun _ _ s => (.error (.unavailable "down"), s)
    replace := fun _ _ s => (.error (.unavailable "down"), s)
    delete := fun _ _ s => (.error (.unavailable "down"), s) }
  freshIds := fun n => toString n

/-- The condition that admits every record and recognises it in every waiting row. -/
def mergeAll : CompiledCondition :=
  { CompiledCondition.everyRecord with inMemoryFilter := some fun _ _ => true }

/-- Two records are merged into one row.  When it is refused, one of them stays completed. -/
theorem not_reportsMerged_refusing :
    ∃ o, (refusing.updateOrAdd mergeAll [] [[], []] [[], []] [[.long 1], [.long 2]]
        ⟨(), 0⟩).value = .ok o ∧ o.processed = 1 ∧
      ¬ refusing.ReportsMerged mergeAll []
        (upsertRecords [[], []] [[], []] [[.long 1], [.long 2]]) ⟨(), 0⟩ o := by
  let records := upsertRecords [[], []] [[], []] [[.long 1], [.long 2]]
  have merged : refusing.MergedInto mergeAll [] records ⟨(), 0⟩ 0 1 :=
    ⟨_, _, rfl, rfl, rfl, rfl⟩
  have refused : refusing.InsertRefused mergeAll [] records ⟨(), 0⟩ 0 :=
    ⟨0, _, _, rfl, rfl, rfl⟩
  refine ⟨_, rfl, rfl, fun reports => ?_⟩
  have failed := (perm_sortFailures _).mem_iff.1 (reports 0 1 merged refused).2
  revert failed
  decide

end Table

end StreamTable
