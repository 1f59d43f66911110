import StreamTable.Proofs.Table.KeyedRecords
import StreamTable.Proofs.Table.OncePerRecord

/-!
# Merged rows

A row that waits for its insertion takes the assignments of the records that are merged into it, in
the order of the batch (`CompiledCondition.mergedAssignments`), as long as the condition has no
reducer.  If none of them is to the field `id`, inserting the row in the end comes to the same as
inserting it at once and assigning to its document afterwards: the values are assigned first and
become a document then, or the other way round (`Table.inserts_merged`).

The step is one record, which leaves every row but one as it is (`Table.exists_origin_of_step`);
`Table.exists_origin_of_mem` is the run.
-/

namespace StreamTable

open Document (idField ofValues)
open Operation PendingInsert

/-- Rows that wait in order have different positions. -/
theorem PendingInsert.InOrder.index_ne {position : Nat} {before after : List PendingInsert}
    {p q : PendingInsert} (h : InOrder position (before ++ p :: after))
    (mem : q ∈ before ++ after) : p.index ≠ q.index := by
  have nodup : (indices (before ++ p :: after)).Nodup := h.ascending.imp Nat.ne_of_lt
  rw [indices, List.map_append, List.map_cons, List.nodup_middle, ← List.map_append] at nodup
  intro same
  exact (List.nodup_cons.1 nodup).1 (same ▸ List.mem_map_of_mem mem)

/-! ### The assignments of merged records -/

namespace CompiledCondition

variable (c : CompiledCondition) (clauses : List SetClause)

/-- The assignments that a record makes to the row of the record on the position `i`: those of the
clauses if it is merged into that row, and none otherwise. -/
def assignmentsTo (i : Nat) (r : UpsertRecord) (waiting : List PendingInsert) :
    List (String × Value) :=
  match c.waitingFor? r waiting with
  | none => []
  | some p => if p.index = i then (SetClause.evaluate clauses r.set).toOption.getD [] else []

/-- The assignments that the records of a batch make to the row of the record on the position `i`,
in the order of the batch. -/
def mergedAssignments {σ : Type} (i : Nat) (us : List (HandledUpsert σ)) : List (String × Value) :=
  us.flatMap fun u => c.assignmentsTo clauses i u.record u.waiting

variable {c clauses} {r : UpsertRecord} {pending : List PendingInsert}

/-- If no row stands for the record, none is found. -/
theorem waitingFor?_of_apart (apart : ∀ p ∈ pending, ¬ c.StandsFor r p.values) :
    c.waitingFor? r pending = none := by
  unfold waitingFor?
  cases recognises : c.inMemoryFilter with
  | none => rfl
  | some standsFor =>
    refine List.find?_eq_none.2 fun p mem here => apart p mem ?_
    exact ⟨standsFor, recognises, here⟩

/-- The first row that stands for the record is the one that is found. -/
theorem waitingFor?_of_first {before after : List PendingInsert} {p : PendingInsert}
    (first : ∀ q ∈ before, ¬ c.StandsFor r q.values) (here : c.StandsFor r p.values) :
    c.waitingFor? r (before ++ p :: after) = some p := by
  obtain ⟨standsFor, recognises, stands⟩ := here
  have given : c.inMemoryFilter = some standsFor := recognises
  unfold waitingFor?
  rw [given]
  refine List.find?_eq_some_iff_append.2 ⟨stands, before, after, rfl, fun q mem => ?_⟩
  have other : ¬ standsFor q.values r.values = true := fun stands' =>
    first q mem ⟨standsFor, recognises, stands'⟩
  simpa using other

/-- A record that no row stands for assigns nothing to a waiting row. -/
theorem assignmentsTo_of_apart (apart : ∀ p ∈ pending, ¬ c.StandsFor r p.values) (i : Nat) :
    c.assignmentsTo clauses i r pending = [] := by
  unfold assignmentsTo
  rw [waitingFor?_of_apart apart]

/-- The first row that stands for a record takes its assignments. -/
theorem assignmentsTo_of_first {before after : List PendingInsert} {p : PendingInsert}
    (first : ∀ q ∈ before, ¬ c.StandsFor r q.values) (here : c.StandsFor r p.values) (i : Nat) :
    c.assignmentsTo clauses i r (before ++ p :: after) =
      if p.index = i then (SetClause.evaluate clauses r.set).toOption.getD [] else [] := by
  unfold assignmentsTo
  rw [waitingFor?_of_first first here]

/-- Nothing is assigned to a row that does not wait. -/
theorem assignmentsTo_of_notMem {i : Nat} (absent : i ∉ indices pending) :
    c.assignmentsTo clauses i r pending = [] := by
  unfold assignmentsTo
  cases found : c.waitingFor? r pending with
  | none => rfl
  | some p =>
    have other : p.index ≠ i := fun same =>
      absent (same ▸ Table.mem_indices_of_waitingFor? c found)
    exact if_neg other

/-- Only assignments of the clauses are made. -/
theorem names_assignmentsTo {i : Nat} {name : String} (apart : name ∉ clauses.map (·.name)) :
    name ∉ (c.assignmentsTo clauses i r pending).map (·.1) := by
  unfold assignmentsTo
  cases c.waitingFor? r pending with
  | none => exact List.not_mem_nil
  | some p =>
    show name ∉ List.map _ (if p.index = i then _ else _)
    split
    · cases evaluated : SetClause.evaluate clauses r.set with
      | error e => exact List.not_mem_nil
      | ok assignments =>
        show name ∉ assignments.map (·.1)
        rw [SetClause.map_fst_evaluate evaluated]
        exact apart
    · exact List.not_mem_nil

/-- What no clause sets is not assigned to a waiting row either. -/
theorem names_mergedAssignments {σ : Type} {i : Nat} {name : String}
    (apart : name ∉ clauses.map (·.name)) (us : List (HandledUpsert σ)) :
    name ∉ (c.mergedAssignments clauses i us).map (·.1) := by
  intro mem
  obtain ⟨a, ha, same⟩ := List.mem_map.1 mem
  obtain ⟨u, _, made⟩ := List.mem_flatMap.1 ha
  exact names_assignmentsTo apart (List.mem_map.2 ⟨a, made, same⟩)

end CompiledCondition

open CompiledCondition

namespace Table

variable {σ : Type} (t : Table σ) {c : CompiledCondition} {clauses : List SetClause}

/-! ### The step of a record -/

variable {index : Nat} {r : UpsertRecord} {pending : List PendingInsert}

/-- A row that waits after a record waited before it, up to the assignments of the record, or it is
the row of the record. -/
theorem exists_origin_of_step (noReducer : c.updateReducer = none)
    (order : InOrder index pending) {w : World σ} {p : PendingInsert}
    (mem : p ∈ (t.upsertRecord c clauses index r pending w).value.pending) :
    ∃ values, (⟨p.index, values⟩ ∈ pending ∨
        p.index = index ∧ t.schema.bind r.row = .ok values) ∧
      p.values = values.insertAll (c.assignmentsTo clauses p.index r pending) := by
  have handles : t.Handles c clauses index r pending
      (t.upsertRecord c clauses index r pending w).trace.requests
      (t.upsertRecord c clauses index r pending w).value := t.handles_upsertRecord c clauses index w
  generalize (t.upsertRecord c clauses index r pending w).trace.requests = requests at handles
  generalize (t.upsertRecord c clauses index r pending w).value = step at handles mem
  -- A row that waited before and to which nothing is assigned has its values from the start.
  have kept (mem : p ∈ pending) (none : c.assignmentsTo clauses p.index r pending = []) :
      ∃ values, (⟨p.index, values⟩ ∈ pending ∨
          p.index = index ∧ t.schema.bind r.row = .ok values) ∧
        p.values = values.insertAll (c.assignmentsTo clauses p.index r pending) :=
    ⟨p.values, .inl mem, by rw [none]; rfl⟩
  cases handles with
  | @merged before after q values split first here merged =>
    subst split
    rw [t.merge_of_noReducer noReducer] at merged
    obtain ⟨assignments, evaluated, rfl⟩ := map_eq_ok.1 merged
    rcases List.mem_cons.1 (List.perm_middle.mem_iff.1 mem) with rfl | mem
    · refine ⟨q.values, .inl (List.mem_append_right _ List.mem_cons_self), ?_⟩
      rw [assignmentsTo_of_first first here, evaluated]
      exact congrArg q.values.insertAll (if_pos rfl).symm
    · have other : q.index ≠ p.index := order.index_ne mem
      refine kept (List.perm_middle.mem_iff.2 (List.mem_cons_of_mem _ mem)) ?_
      rw [assignmentsTo_of_first first here, if_neg other]
  | @unmergeable before after q e split first here failed =>
    subst split
    refine kept mem ?_
    rw [t.merge_of_noReducer noReducer] at failed
    rw [assignmentsTo_of_first first here]
    cases evaluated : SetClause.evaluate clauses r.set with
    | ok assignments =>
      rw [evaluated] at failed
      cases failed
    | error e' => exact ite_self _
  | waits apart bound row =>
    have none : c.assignmentsTo clauses p.index r pending = [] :=
      assignmentsTo_of_apart apart p.index
    rcases List.mem_append.1 mem with mem | mem
    · exact kept mem none
    · obtain rfl := List.mem_singleton.1 mem
      refine ⟨_, .inr ⟨rfl, row⟩, ?_⟩
      rw [none]
      rfl
  | unbound apart failed => exact kept mem (assignmentsTo_of_apart apart p.index)
  | refused apart bound => exact kept mem (assignmentsTo_of_apart apart p.index)
  | misfits apart bound failed => exact kept mem (assignmentsTo_of_apart apart p.index)
  | unassigned apart bound failed => exact kept mem (assignmentsTo_of_apart apart p.index)
  | updates apart bound only refusal => exact kept mem (assignmentsTo_of_apart apart p.index)

/-! ### The run of a batch -/

/-- The values with which the row of the record on the position `i` starts to wait: those that it
waited with from the start, or the row of its record. -/
def StartsFrom (index : Nat) (pending : List PendingInsert) (rs : List UpsertRecord) (i : Nat)
    (values : Values) : Prop :=
  ⟨i, values⟩ ∈ pending ∨
    ∃ j r, rs[j]? = some r ∧ i = index + j ∧ t.schema.bind r.row = .ok values

/-- A row that waits after a batch has the values that it started with, and then the assignments of
the records that were merged into it. -/
theorem exists_origin_of_mem (noReducer : c.updateReducer = none) (order : InOrder index pending)
    {rs : List UpsertRecord} {w : World σ} {p : PendingInsert}
    (mem : p ∈ (t.upsertAll c clauses index pending rs w).value.2) :
    ∃ values, t.StartsFrom index pending rs p.index values ∧
      p.values = values.insertAll
        (c.mergedAssignments clauses p.index (t.handledUpserts c clauses index pending rs w)) := by
  induction rs generalizing index pending w with
  | nil => exact ⟨p.values, .inl mem, rfl⟩
  | cons r rs ih =>
    rw [(t.value_upsertAll_cons c clauses index pending r rs w).1] at mem
    let run := t.upsertRecord c clauses index r pending w
    have order' : InOrder (index + 1) run.value.pending :=
      t.inOrder_upsertRecord c clauses order w
    obtain ⟨values, starts, later⟩ := ih order' mem
    -- The record comes first, and the assignments of the others follow.
    have parts : c.mergedAssignments clauses p.index
        (t.handledUpserts c clauses index pending (r :: rs) w) =
          c.assignmentsTo clauses p.index r pending ++ c.mergedAssignments clauses p.index
            (t.handledUpserts c clauses (index + 1) run.value.pending rs run.world) := rfl
    rcases starts with here | ⟨j, r', there, position, bound⟩
    · obtain ⟨values', origin, now⟩ := t.exists_origin_of_step noReducer order here
      have all : p.values = values'.insertAll (c.mergedAssignments clauses p.index
          (t.handledUpserts c clauses index pending (r :: rs) w)) := by
        rw [later, parts, Members.insertAll_append]
        exact congrArg (Members.insertAll · _) now
      rcases origin with waited | ⟨own, bound⟩
      · exact ⟨values', .inl waited, all⟩
      · exact ⟨values', .inr ⟨0, r, rfl, own, bound⟩, all⟩
    · have absent : p.index ∉ indices pending := by
        intro waits
        have before := order.before p.index waits
        omega
      refine ⟨values, .inr ⟨j + 1, r', there, by omega, bound⟩, ?_⟩
      rw [parts, assignmentsTo_of_notMem absent]
      exact later

/-- A waiting row becomes the document that it would have become at first, with the assignments of
the records that were merged into it. -/
theorem exists_origin_document (noReducer : c.updateReducer = none)
    (noId : idField ∉ clauses.map (·.name)) (order : InOrder index pending)
    {rs : List UpsertRecord} {w : World σ} {p : PendingInsert}
    (mem : p ∈ (t.upsertAll c clauses index pending rs w).value.2) :
    ∃ values, t.StartsFrom index pending rs p.index values ∧ ∀ fresh,
      ofValues p.values fresh = assign (ofValues values fresh)
        (c.mergedAssignments clauses p.index (t.handledUpserts c clauses index pending rs w)) := by
  obtain ⟨values, starts, merged⟩ := t.exists_origin_of_mem noReducer order mem
  refine ⟨values, starts, fun fresh => ?_⟩
  rw [merged, assign_ofValues (names_mergedAssignments noId _)]

/-! ### Batches -/

/-- Whatever rows wait and whatever is merged into them: the document of the row in the end is the
document that it would have become at first, with the assignments of the merged records made to it
one after the other.  It has the same identifier, and in a whole batch it is what the store is asked
to create for the record of the row. -/
theorem inserts_merged (noReducer : c.updateReducer = none)
    (noId : idField ∉ clauses.map (·.name)) :
    (∀ index pending, InOrder index pending → ∀ (rs : List UpsertRecord) (w : World σ),
      ∀ p ∈ (t.upsertAll c clauses index pending rs w).value.2,
        ∃ values, t.StartsFrom index pending rs p.index values ∧ ∀ fresh,
          ofValues p.values fresh = assign (ofValues values fresh)
            (c.mergedAssignments clauses p.index
              (t.handledUpserts c clauses index pending rs w))) ∧
    ∀ (batch setValues : List Values) (rows : List Row) (w : World σ),
      batch.length = setValues.length → batch.length = rows.length →
        let records := upsertRecords batch setValues rows
        let handled := t.handledUpserts c clauses 0 [] records w
        ∃ creates, (t.updateOrAdd c clauses batch setValues rows w).trace.requests =
            handled.flatMap (·.run.trace.requests) ++ creates ∧
          List.Forall₂ (fun p a => ∃ r values n answer, records[p.index]? = some r ∧
              t.schema.bind r.row = .ok values ∧
              a = .create t.container (assign (ofValues values (t.freshIds n))
                (c.mergedAssignments clauses p.index handled)) answer)
            (t.upsertAll c clauses 0 [] records w).value.2 creates := by
  refine ⟨fun index pending order rs w p mem =>
    t.exists_origin_document noReducer noId order mem, ?_⟩
  intro batch setValues rows w lengths lengthr records handled
  obtain ⟨creates, all, inserted⟩ := t.requests_upsertBatch c clauses w records
  have order : InOrder 0 [] := ⟨.nil, List.forall_mem_nil _⟩
  -- No row waits before the batch, so every waiting row is that of one of its records.
  have origin (p : PendingInsert) (mem : p ∈ (t.upsertAll c clauses 0 [] records w).value.2) :
      ∃ r values, records[p.index]? = some r ∧ t.schema.bind r.row = .ok values ∧
        ∀ fresh, ofValues p.values fresh =
          assign (ofValues values fresh) (c.mergedAssignments clauses p.index handled) := by
    obtain ⟨values, starts, made⟩ := t.exists_origin_document noReducer noId order mem
    rcases starts with waited | ⟨j, r, there, position, bound⟩
    · cases waited
    · rw [Nat.zero_add] at position
      exact ⟨r, values, position ▸ there, bound, made⟩
  refine ⟨creates, ?_, ?_⟩
  · rw [t.updateOrAdd_of_length c clauses batch setValues lengths lengthr, trace_map,
      requests_reported]
    exact all
  · refine ((List.forall₂_and_left _ _).2 ⟨origin, inserted⟩).imp ?_
    rintro p a ⟨⟨r, values, there, bound, made⟩, n, answer, rfl⟩
    exact ⟨r, values, n, answer, there, bound, by rw [made]⟩

/-- Two records are merged into the row of the first one: its document is that of the row with their
prices. -/
theorem inserts_merged_refusing :
    ∃ clause, refusing.setClause "price" (.attribute "bid" .long) = .ok clause ∧
      mergeAll.updateReducer = none ∧ idField ∉ [clause].map (·.name) ∧
      ∃ n answer, (refusing.updateOrAdd mergeAll [clause] [[], [], []]
          [[], [("bid", .long 2)], [("bid", .long 3)]] [[.long 1], [], []]
          ⟨(), 0⟩).trace.requests =
        [.query refusing.container (findQuery refusing.id "") (.ok []),
          .create refusing.container (assign (ofValues [("price", .long 1)] (refusing.freshIds n))
            [("price", .long 2), ("price", .long 3)]) answer] := by
  obtain ⟨clause, accepted, name⟩ : ∃ clause,
      refusing.setClause "price" (.attribute "bid" .long) = .ok clause ∧
        clause.name = "price" := ⟨_, rfl, rfl⟩
  have noReducer : mergeAll.updateReducer = none := rfl
  have noId : idField ∉ [clause].map (·.name) := by
    rw [List.map_singleton, name]
    decide
  refine ⟨clause, accepted, noReducer, noId, ?_⟩
  obtain ⟨creates, all, inserted⟩ := (refusing.inserts_merged noReducer noId).2 [[], [], []]
    [[], [("bid", .long 2)], [("bid", .long 3)]] [[.long 1], [], []] ⟨(), 0⟩ rfl rfl
  cases accepted
  cases inserted with
  | @cons p a ps as first rest =>
    obtain ⟨r, values, n, answer, there, bound, made⟩ := first
    cases there
    cases bound
    cases rest
    exact ⟨n, answer, all.trans (by rw [made]; rfl)⟩

end Table

end StreamTable
