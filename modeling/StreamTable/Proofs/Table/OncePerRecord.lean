import StreamTable.Proofs.Table.Handling
import StreamTable.Proofs.Table.Merging

/-!
# Every record once

A record of `Table.updateOrAdd` takes effect in one way only: it is merged into the first waiting
row that stands for it, or it replaces the documents that its query returned, or its row waits and
is inserted when all records were handled.  `Table.OncePerRecord` says this of a batch by the
requests of its records, and `Table.updateOrAdd_once` proves it for every store.

The rows wait in the order of their records: a record leaves them in order (`inOrder_upsertRecord`),
and so does a batch (`inOrder_upsertAll`).
-/

namespace StreamTable

open Operation PendingInsert

/-! ### The order of the waiting rows -/

/-- The rows wait in the order of their records, all of which come before the position. -/
structure PendingInsert.InOrder (position : Nat) (ps : List PendingInsert) : Prop where
  ascending : (indices ps).Pairwise (· < ·)
  before : ∀ i ∈ indices ps, i < position

namespace Table

variable {σ : Type} (t : Table σ) (c : CompiledCondition) (clauses : List SetClause)
  {index : Nat} {r : UpsertRecord} {pending : List PendingInsert}

/-- A record that goes to wait comes after all that wait already, so the rows stay in the order of
their records. -/
theorem inOrder_upsertRecord (h : InOrder index pending) (w : World σ) :
    InOrder (index + 1) (t.upsertRecord c clauses index r pending w).value.pending := by
  have positions := t.indices_upsertRecord c clauses index r pending w
  -- The record waits itself, or nothing new waits.
  have own : ∀ i ∈ (t.upsertRecord c clauses index r pending w).value.waiting index,
      i = index := by
    unfold UpsertStep.waiting
    split
    · exact List.forall_mem_nil _
    · exact List.forall_mem_singleton.2 rfl
  have single : ((t.upsertRecord c clauses index r pending w).value.waiting index).Pairwise
      (· < ·) := by
    unfold UpsertStep.waiting
    split
    · exact .nil
    · exact List.pairwise_singleton _ _
  constructor
  · rw [positions]
    refine List.pairwise_append.2 ⟨h.ascending, single, fun i hi j hj => ?_⟩
    rw [own j hj]
    exact h.before i hi
  · rw [positions]
    intro i hi
    rcases List.mem_append.1 hi with hi | hi
    · exact Nat.lt_succ_of_lt (h.before i hi)
    · rw [own i hi]
      exact Nat.lt_succ_self index

/-- After the first pass the rows wait in the order of their records. -/
theorem inOrder_upsertAll (h : InOrder index pending) (rs : List UpsertRecord) (w : World σ) :
    InOrder (index + rs.length) (t.upsertAll c clauses index pending rs w).value.2 := by
  -- Each record goes on with the rows, the position and the world after the one before it.
  induction rs generalizing index pending w with
  | nil => exact h
  | cons r rs ih =>
    have step := t.inOrder_upsertRecord c clauses (r := r) h w
    have rest := ih step (t.upsertRecord c clauses index r pending w).world
    rw [(t.value_upsertAll_cons c clauses index pending r rs w).1, List.length_cons,
      Nat.add_comm rs.length, ← Nat.add_assoc]
    exact rest

/-! ### The handling of a record -/

section

variable {t c clauses} {requests : Trace} {step : UpsertStep}
  (h : t.Handles c clauses index r pending requests step)

include h

/-- Until the insertions a record only makes queries and replacements. -/
theorem Handles.isQuery_or_isReplace :
    ∀ a ∈ requests, a.isQuery = true ∨ a.isReplace = true := by
  cases h with
  | merged _ _ _ _ | unmergeable _ _ _ _ | unbound _ _ => exact List.forall_mem_nil _
  | refused _ _ | misfits _ _ _ | waits _ _ _ | unassigned _ _ _ =>
    exact List.forall_mem_singleton.2 (.inl rfl)
  | updates _ _ only _ =>
    exact List.forall_mem_cons.2 ⟨.inl rfl, fun a ha => .inr (only a ha)⟩

/-- The row of a record waits just if no row stood for the record before, its query had no documents
and the row fits the schema. -/
theorem Handles.progress_eq_none_iff :
    step.progress = none ↔ (∀ p ∈ pending, ¬ c.StandsFor r p.values) ∧
      (∃ f, c.resolve r.values = .ok f ∧
        requests = [.query t.container (findQuery t.id f) (.ok [])]) ∧
      r.row.length = t.schema.length := by
  constructor
  · intro unsettled
    cases h with
    | @waits f values apart bound row =>
      refine ⟨apart, ⟨f, bound, rfl⟩, ?_⟩
      by_contra misfit
      rw [Schema.bind, if_neg misfit] at row
      cases row
    | _ => cases unsettled
  · rintro ⟨_, ⟨f, _, empty⟩, arity⟩
    -- Only the answer matters here, not the text of the query.
    generalize findQuery t.id f = text at empty
    cases h with
    | waits _ _ _ => rfl
    | misfits _ _ failed =>
      rw [Schema.bind, if_pos arity] at failed
      cases failed
    | _ => cases empty

/-- For a record that a waiting row stands for nothing is asked, and only the values of the first
such row can change. -/
theorem Handles.of_standsFor (some : ∃ p ∈ pending, c.StandsFor r p.values) :
    requests = [] ∧ ∃ before p after values, pending = before ++ p :: after ∧
      (∀ q ∈ before, ¬ c.StandsFor r q.values) ∧ c.StandsFor r p.values ∧
      step.pending = before ++ { p with values } :: after := by
  obtain ⟨p, mem, here⟩ := some
  cases h with
  | merged split first here _ => exact ⟨rfl, _, _, _, _, split, first, here, rfl⟩
  | @unmergeable before after p _ split first here _ =>
    exact ⟨rfl, before, p, after, p.values, split, first, here, split⟩
  | unbound apart _ | refused apart _ | misfits apart _ _ | waits apart _ _
  | unassigned apart _ _ | updates apart _ _ _ => exact absurd here (apart p mem)

/-- After a query that returned documents a record only replaces, and the waiting rows stay as they
are. -/
theorem Handles.of_documents {text : String} {d : Document} {ds : List Document} {rest : Trace}
    (answered : requests = .query t.container text (.ok (d :: ds)) :: rest) :
    (∀ a ∈ rest, a.isReplace = true) ∧ step.pending = pending := by
  cases h with
  | unassigned _ _ _ =>
    cases answered
    exact ⟨List.forall_mem_nil _, rfl⟩
  | updates _ _ only _ =>
    cases answered
    exact ⟨only, rfl⟩
  | _ => cases answered

/-- A record that no waiting row stands for makes one query if its condition is bound. -/
theorem Handles.of_bound (apart : ∀ p ∈ pending, ¬ c.StandsFor r p.values) {f : String}
    (bound : c.resolve r.values = .ok f) :
    ∃ answer rest, requests = .query t.container (findQuery t.id f) answer :: rest ∧
      ∀ a ∈ rest, a.isReplace = true := by
  have same {f' : String} (bound' : c.resolve r.values = .ok f') : f' = f :=
    Except.ok.inj (bound'.symm.trans bound)
  cases h with
  | merged split _ here _ | unmergeable split _ here _ =>
    exact absurd here (apart _ (split ▸ List.mem_append_cons_self))
  | unbound _ failed =>
    rw [bound] at failed
    cases failed
  | refused _ bound' | misfits _ bound' _ | waits _ bound' _ | unassigned _ bound' _ =>
    rw [same bound']
    exact ⟨_, [], rfl, List.forall_mem_nil _⟩
  | updates _ bound' only _ =>
    rw [same bound']
    exact ⟨_, _, rfl, only⟩

end

/-! ### Batches -/

/-- Every record of a batch takes effect once, given the records as they were handled and the rows
that wait after them. -/
structure OncePerRecord (rs : List UpsertRecord) (handled : List (HandledUpsert σ))
    (waiting : List PendingInsert) (trace : Trace) : Prop where
  /-- All records are handled. -/
  records : handled.map (·.record) = rs
  /-- First come the requests of the records, then one document is created for each waiting row. -/
  insertedLast : ∃ creates, trace.requests = handled.flatMap (·.run.trace.requests) ++ creates ∧
    t.Inserts waiting creates
  /-- The requests of the records are queries and replacements. -/
  requests : ∀ u ∈ handled, ∀ a ∈ u.run.trace.requests, a.isQuery = true ∨ a.isReplace = true
  /-- The rows wait in the order of their records, at most one for each. -/
  ascending : (indices waiting).Pairwise (· < ·)
  /-- A row waits in the end just if no row stood for its record, the query of the record had no
  documents and the row is as long as the schema. -/
  inserted : ∀ i, i ∈ indices waiting ↔ ∃ u, handled[i]? = some u ∧
    (∀ p ∈ u.waiting, ¬ c.StandsFor u.record p.values) ∧
    (∃ f, c.resolve u.record.values = .ok f ∧
      u.run.trace.requests = [.query t.container (findQuery t.id f) (.ok [])]) ∧
    u.record.row.length = t.schema.length
  /-- For a record that a waiting row stands for nothing is asked, and only the values of the first
  such row can change. -/
  merged : ∀ u ∈ handled, (∃ p ∈ u.waiting, c.StandsFor u.record p.values) →
    u.run.trace.requests = [] ∧ ∃ before p after values, u.waiting = before ++ p :: after ∧
      (∀ q ∈ before, ¬ c.StandsFor u.record q.values) ∧ c.StandsFor u.record p.values ∧
      u.run.value.pending = before ++ { p with values } :: after
  /-- A record whose query returned documents only replaces, and leaves the waiting rows as they
  are. -/
  updated : ∀ u ∈ handled, ∀ text d ds rest,
    u.run.trace.requests = .query t.container text (.ok (d :: ds)) :: rest →
    (∀ a ∈ rest, a.isReplace = true) ∧ u.run.value.pending = u.waiting
  /-- Without an in-memory filter every record whose condition is bound makes one query. -/
  asked : c.inMemoryFilter = none → ∀ u ∈ handled, ∀ f, c.resolve u.record.values = .ok f →
    ∃ answer rest, u.run.trace.requests = .query t.container (findQuery t.id f) answer :: rest ∧
      ∀ a ∈ rest, a.isReplace = true

/-- The two passes treat each record once; only their requests matter for that, so the events around
them can be any. -/
theorem oncePerRecord_upsertBatch (rs : List UpsertRecord) (w : World σ) {trace : Trace}
    (h : trace.requests = (t.upsertBatch c clauses rs w).trace.requests) :
    t.OncePerRecord c rs (t.handledUpserts c clauses 0 [] rs w)
      (t.upsertAll c clauses 0 [] rs w).value.2 trace := by
  constructor
  case records => exact t.map_record_handledUpserts c clauses 0 [] rs w
  case insertedLast =>
    rw [h]
    exact t.requests_upsertBatch c clauses w rs
  case requests =>
    intro u mem
    obtain ⟨i, handled⟩ := t.exists_handles_of_mem c clauses w mem
    exact handled.isQuery_or_isReplace
  case ascending =>
    exact (t.inOrder_upsertAll c clauses ⟨.nil, List.forall_mem_nil _⟩ rs w).ascending
  case inserted =>
    intro i
    rw [mem_indices_upsertAll]
    refine exists_congr fun u => and_congr_right fun here => ?_
    exact (t.handles_of_getElem? c clauses w here).progress_eq_none_iff
  case merged =>
    intro u mem
    obtain ⟨i, handled⟩ := t.exists_handles_of_mem c clauses w mem
    exact handled.of_standsFor
  case updated =>
    intro u mem text d ds rest answered
    obtain ⟨i, handled⟩ := t.exists_handles_of_mem c clauses w mem
    exact handled.of_documents answered
  case asked =>
    intro unfiltered u mem f bound
    obtain ⟨i, handled⟩ := t.exists_handles_of_mem c clauses w mem
    -- Without an in-memory filter no row stands for a record.
    refine handled.of_bound (fun p _ here => ?_) bound
    obtain ⟨standsFor, given, _⟩ := here
    rw [unfiltered] at given
    cases given

/-- Whatever the store and the functions of the host do, every record of a batch takes effect
once. -/
theorem updateOrAdd_once {batch setValues : List Values} {rows : List Row}
    (hs : batch.length = setValues.length) (hr : batch.length = rows.length) (w : World σ) :
    let rs := upsertRecords batch setValues rows
    let run := t.updateOrAdd c clauses batch setValues rows w
    (∃ o, run.value = .ok o) ∧
      t.OncePerRecord c rs (t.handledUpserts c clauses 0 [] rs w)
        (t.upsertAll c clauses 0 [] rs w).value.2 run.trace := by
  intro rs run
  have form : run = (.ok <$> t.reported .updateOrAdd (·.affected) (t.upsertBatch c clauses rs)) w :=
    congrFun (t.updateOrAdd_of_length c clauses batch setValues hs hr) w
  rw [form, value_map, trace_map]
  have requests := t.requests_reported .updateOrAdd (·.affected) (t.upsertBatch c clauses rs) w
  exact ⟨⟨_, rfl⟩, t.oncePerRecord_upsertBatch c clauses rs w requests⟩

/-- Of two records the second is merged into the row of the first, so there is one query and one
insertion. -/
theorem updateOrAdd_once_refusing :
    let rows : List Row := [[.long 1], [.long 2]]
    let rs := upsertRecords [[], []] [[], []] rows
    let handled := refusing.handledUpserts mergeAll [] 0 [] rs ⟨(), 0⟩
    let waiting := (refusing.upsertAll mergeAll [] 0 [] rs ⟨(), 0⟩).value.2
    refusing.OncePerRecord mergeAll rs handled waiting
        (refusing.updateOrAdd mergeAll [] [[], []] [[], []] rows ⟨(), 0⟩).trace ∧
      handled.map (·.run.trace.requests) =
        [[.query "/dbs/db/colls/T" "SELECT * FROM T" (.ok [])], []] ∧
      indices waiting = [0] := by
  intro rows rs handled waiting
  refine ⟨?_, rfl, rfl⟩
  exact (refusing.updateOrAdd_once mergeAll [] (by decide) (by decide) ⟨(), 0⟩).2

end Table

end StreamTable
