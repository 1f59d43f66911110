import StreamTable.Metrics.Report
import StreamTable.Proofs.Metrics.Reconciliation
import StreamTable.Proofs.Table.Replacements
import StreamTable.Proofs.Table.Reports
import StreamTable.Proofs.Table.StoredRows

/-!
# Rows per find

The report gives for a table the quotient of two counters.  The finds are counted when they start,
but the rows are counted wherever the store answers a query, and all operations that take a
condition query the store by the same helper.  So the rows per find are those of the finds and those
of all other operations, divided by the number of the finds
(`Dispatcher.averageRows_countersSince`).

Only where no other operation was given a document is this the average of the finds; a find and a
test for a record on a table with one record give two rows per find
(`Dispatcher.not_averageRows_quotes`).
-/

namespace StreamTable

open Operation

namespace Table

variable {σ : Type}

/-! ### Rows and documents -/

/-- The documents that a query finds are those that it gives. -/
theorem found_ask (t : Table σ) (text : String) (w : World σ) :
    (t.ask text w).trace.found = (t.ask text w).value.toOption.toList := by
  rcases t.ask_cases text w with ⟨documents, _, value, trace⟩ | ⟨e, _, value, trace⟩
  · rw [value, trace]
    rfl
  · rw [value, trace]
    rfl

/-- A find returns as many rows as the store gave documents to it. -/
theorem rowCount_find (t : Table σ) (c : CompiledCondition) (values : Values) (w : World σ) :
    (Answer.ofResult .rows (t.find c values w).value).rowCount =
      ((t.find c values w).trace.found.map List.length).sum := by
  unfold find reported matching Table.filter
  cases c.resolve values with
  | error e => rfl
  | ok f =>
    have found := t.found_ask (findQuery t.id f) w
    simp only [reportResolved, andThen, emit, value_bind, trace_bind, world_bind, pure_apply,
      Trace.found_append]
    rw [found]
    cases (t.ask (findQuery t.id f) w).value with
    | ok documents =>
      show (Cursor.ofDocuments documents t.schema).rows.length = _
      rw [Cursor.rows_ofDocuments, List.length_map]
      rfl
    | error e => rfl

/-! ### What a call adds to the counters of its table -/

namespace PerformedCall

variable (p : PerformedCall σ) {kind : ExecKind}

/-- The call is a find. -/
def isFind : Bool := decide (p.call.kind = .inr .find)

/-- The number of documents that the store gave to the queries of the call. -/
def foundCount : Nat := (p.run.trace.found.map List.length).sum

/-- What the events of the call add to a tally. -/
def adds (k : Tally) : Nat := (p.run.trace.events.map (·.adds k)).sum

variable {p}

/-- The events of a call that ran on the store, in some order. -/
theorem Ran.perm_events (h : p.Ran kind) :
    p.run.trace.events.Perm (.started kind p.table.id ::
      .finished kind p.table.id p.answer.affected ::
        ((Binding.granted (p.call.bindings p.table p.before)).map (.resolved p.table.id ·) ++
          (p.run.trace.found.map fun documents => .rowsReturned p.table.id documents.length) ++
          List.replicate p.answer.failures.length (.recordFailed kind p.table.id))) := by
  obtain ⟨body, trace, reports⟩ := h.bracketed
  have events : p.run.trace.events = .started kind p.table.id ::
      (Trace.events body ++ [.finished kind p.table.id p.answer.affected]) := by
    rw [trace]
    simp [Trace.events, Action.event?]
  have found : p.run.trace.found = Trace.found body := by
    rw [trace]
    simp [Trace.found, List.filterMap_cons]
  rw [events, found]
  exact ((List.perm_append_singleton _ _).trans (reports.cons _)).cons _

/-- A call that did not run on the store reported at most that something was compiled. -/
theorem trace_or_ran (p : PerformedCall σ) :
    (p.isFind = false ∧ (p.run.trace = [] ∨
      ∃ kind, p.run.trace = [.event (.compiled kind p.table.id)])) ∨
      ∃ kind, p.call.kind = .inr kind ∧ p.Ran kind := by
  have reported := p.isReported
  unfold IsReported at reported
  split at reported
  · next kind compiles =>
    have other : p.isFind = false := by simp [isFind, compiles]
    cases failure : p.answer.isFailure with
    | true => exact .inl ⟨other, .inl (by rw [reported, failure]; rfl)⟩
    | false => exact .inl ⟨other, .inr ⟨kind, by rw [reported, failure]; rfl⟩⟩
  · next kind runs =>
    by_cases mismatched : p.call.Mismatched
    · have other : p.isFind = false := by
        refine decide_eq_false fun find => ?_
        -- Only batches have lists of different lengths.
        cases call : p.call with
        | update _ _ _ _ | updateOrAdd _ _ _ _ _ =>
          rw [call] at find
          cases find
        | _ =>
          rw [call] at mismatched
          exact mismatched
      exact .inl ⟨other, .inl (reported.1 mismatched).2⟩
    · exact .inr ⟨kind, runs, reported.2 mismatched⟩

/-- Every event of a call is one of its table. -/
theorem table_of_mem_events (p : PerformedCall σ) {e : Event} (h : e ∈ p.run.trace.events) :
    e.table = p.table.id := by
  obtain ⟨-, silent | ⟨kind, compiled⟩⟩ | ⟨kind, -, ran⟩ := p.trace_or_ran
  · rw [silent] at h
    cases h
  · rw [compiled] at h
    rw [List.mem_singleton.1 h]
    rfl
  · have mem := ran.perm_events.mem_iff.1 h
    simp only [List.mem_cons, List.mem_append, List.mem_map, List.mem_replicate] at mem
    rcases mem with rfl | rfl | (⟨_, _, rfl⟩ | ⟨_, _, rfl⟩) | ⟨_, rfl⟩ <;> rfl

/-- What a call that ran on the store adds to a tally. -/
theorem Ran.adds_eq (h : p.Ran kind) (k : Tally) :
    p.adds k = (Event.started kind p.table.id).adds k +
      ((Event.finished kind p.table.id p.answer.affected).adds k +
        (((Binding.granted (p.call.bindings p.table p.before)).map fun holes =>
          (Event.resolved p.table.id holes).adds k).sum +
        (p.run.trace.found.map fun documents =>
          (Event.rowsReturned p.table.id documents.length).adds k).sum +
        p.answer.failures.length * (Event.recordFailed kind p.table.id).adds k)) := by
  unfold adds
  rw [(h.perm_events.map _).sum_nat]
  simp [Function.comp_def, Nat.add_assoc]

/-- A find is counted, and no other call is counted as one. -/
theorem adds_finds (p : PerformedCall σ) : p.adds .finds = if p.isFind then 1 else 0 := by
  obtain ⟨other, silent | ⟨kind, compiled⟩⟩ | ⟨kind, runs, ran⟩ := p.trace_or_ran
  · rw [other, adds, silent]
    rfl
  · rw [other, adds, compiled]
    rfl
  · rw [ran.adds_eq, isFind, runs]
    cases kind <;> simp [Event.adds]

/-- The documents that the store gave are counted, whatever the call is. -/
theorem adds_rowsReturned (p : PerformedCall σ) : p.adds .rowsReturned = p.foundCount := by
  obtain ⟨other, silent | ⟨kind, compiled⟩⟩ | ⟨kind, runs, ran⟩ := p.trace_or_ran
  · rw [foundCount, adds, silent]
    rfl
  · rw [foundCount, adds, compiled]
    rfl
  · rw [ran.adds_eq, foundCount]
    cases kind <;> simp [Event.adds, List.map_const']

/-- A find returns as many rows as the store gave documents to it. -/
theorem rowCount_of_isFind (p : PerformedCall σ) (find : p.isFind = true) :
    p.answer.rowCount = p.foundCount := by
  obtain ⟨t, call, w⟩ := p
  cases call with
  | find c values =>
    show (Answer.ofResult .rows (t.find c values w).value).rowCount = _
    rw [t.rowCount_find c values w, foundCount]
    exact congrArg (fun s : Trace => (s.found.map List.length).sum)
      (trace_map (Answer.ofResult .rows) (t.find c values) w).symm
  | _ => cases of_decide_eq_true find

end PerformedCall

/-! ### What the calls of a table add together -/

variable (name : String) (k : Tally) (ps : List (PerformedCall σ))

/-- The calls of tables of the name. -/
def callsOf : List (PerformedCall σ) := ps.filter (·.table.id = name)

/-- The number of finds. -/
def finds : Nat := (callsOf name ps).countP (·.isFind)

/-- The number of rows that finds returned. -/
def rowsOfFinds : Nat := (((callsOf name ps).filter (·.isFind)).map (·.answer.rowCount)).sum

/-- The number of documents that the store gave to other operations. -/
def foundByOthers : Nat := (((callsOf name ps).filter (!·.isFind)).map (·.foundCount)).sum

/-- The events of calls add to a tally of a table what those of its own calls do. -/
theorem added_calls :
    Event.added k name (ps.flatMap (·.run.trace.events)) =
      ((callsOf name ps).map (·.adds k)).sum := by
  unfold callsOf
  induction ps with
  | nil => rfl
  | cons p ps ih =>
    rw [List.flatMap_cons, Event.added_append, ih]
    by_cases own : p.table.id = name
    · have all : p.run.trace.events.filter (·.table = name) = p.run.trace.events :=
        List.filter_eq_self.2 fun e he => decide_eq_true ((p.table_of_mem_events he).trans own)
      simp [Event.added, all, own, PerformedCall.adds]
    · have none : p.run.trace.events.filter (·.table = name) = [] :=
        List.filter_eq_nil_iff.2 fun e he => by simp [p.table_of_mem_events he, own]
      simp [Event.added, none, own]

theorem added_finds :
    Event.added .finds name (ps.flatMap (·.run.trace.events)) = finds name ps := by
  rw [added_calls, finds]
  induction callsOf name ps with
  | nil => rfl
  | cons p ps ih =>
    rw [List.map_cons, List.sum_cons, ih, p.adds_finds, List.countP_cons, Nat.add_comm]

/-- The rows that are counted are those of the finds and those of all other operations. -/
theorem added_rowsReturned :
    Event.added .rowsReturned name (ps.flatMap (·.run.trace.events)) =
      rowsOfFinds name ps + foundByOthers name ps := by
  have rows : ((callsOf name ps).filter (·.isFind)).map (·.answer.rowCount) =
      ((callsOf name ps).filter (·.isFind)).map (·.foundCount) :=
    List.map_congr_left fun p hp => p.rowCount_of_isFind (List.mem_filter.1 hp).2
  have counted : (callsOf name ps).map (·.adds .rowsReturned) =
      (callsOf name ps).map (·.foundCount) :=
    List.map_congr_left fun p _ => p.adds_rowsReturned
  have parts := ((List.filter_append_perm (·.isFind) (callsOf name ps)).map
    PerformedCall.foundCount).sum_nat
  rw [added_calls, counted, rowsOfFinds, foundByOthers, rows, ← parts, List.map_append,
    List.sum_append]

end Table

/-! ### The report -/

/-- Sorted members have one member of a name. -/
theorem Members.filter_eq_of_get? {α : Type} {name : String} {v : α} {ms : Members α}
    (sorted : ms.Sorted) (h : ms.get? name = some v) : ms.filter (·.1 = name) = [(name, v)] := by
  induction ms with
  | nil => cases h
  | cons m ms ih =>
    obtain ⟨before, rest⟩ := List.pairwise_cons.1 sorted
    rw [get?] at h
    split at h
    · next same =>
      obtain rfl := Option.some.inj h
      have others : ms.filter (·.1 = name) = [] :=
        List.filter_eq_nil_iff.2 fun m' hm' => by
          simpa [same] using (String.ne_of_lt (before m' hm')).symm
      rw [List.filter_cons_of_pos (by simpa using same.symm), others, same]
    · next other =>
      rw [List.filter_cons_of_neg (by simpa using fun e => other e.symm), ih rest h]

namespace Counters

variable {c : Counters} {name : String}

theorem windowStart_recordAll (es : List Event) : (c.recordAll es).windowStart = c.windowStart := by
  induction es generalizing c with
  | nil => rfl
  | cons e es ih => exact ih

/-- A table with a counter that is not zero has one summary. -/
theorem exists_summary (sorted : c.tables.Sorted) (used : c.table name ≠ {}) :
    c.summaries.filter (·.table = name) = [⟨name, c.table name⟩] := by
  have there : c.tables.get? name = some (c.table name) := by
    unfold table at used ⊢
    cases found : c.tables.get? name with
    | none =>
      rw [found] at used
      exact absurd rfl used
    | some t => rfl
  let summary (m : String × TableCounters) : TableSummary := ⟨m.1, m.2⟩
  have single : (c.tables.map summary).filter (·.table = name) = [⟨name, c.table name⟩] := by
    rw [List.filter_map]
    exact congrArg (List.map summary) (Members.filter_eq_of_get? sorted there)
  -- The summaries are those of the tables in another order.
  have perm : (c.summaries.filter (·.table = name)).Perm [⟨name, c.table name⟩] := by
    rw [← single]
    exact (List.mergeSort_perm _ _).filter _
  exact List.perm_singleton.1 perm

end Counters

namespace Dispatcher

open Table BinaryFloat

variable {σ : Type} {d : Dispatcher}

/-- Without a sink, all events go to the counters. -/
theorem recordAll_of_default (default : d.installed = none) (es : List Event) :
    d.recordAll es = { d with counters := d.counters.recordAll es } := by
  induction es generalizing d with
  | nil => rfl
  | cons e es ih =>
    show (d.record e).recordAll es = _
    rw [record_of_default default]
    exact ih (d := { d with counters := d.counters.record e }) default

/-- The counters after calls of tables since a reset. -/
def countersSince (d : Dispatcher) (now : UInt64) (calls : List (Table σ × Call)) (w : World σ) :
    Counters :=
  ((d.reset now).recordAll (performAll calls w).trace.events).counters

theorem countersSince_eq (default : d.installed = none) (now : UInt64)
    (calls : List (Table σ × Call)) (w : World σ) :
    d.countersSince now calls w = ({ windowStart := now } : Counters).recordAll
      ((performed calls w).flatMap (·.run.trace.events)) := by
  unfold countersSince
  rw [recordAll_of_default (d := d.reset now) default, events_performed]
  rfl

/-- A counter of a table that is not at its greatest value is what the calls of the table add. -/
theorem tally_countersSince (default : d.installed = none) {now : UInt64}
    {calls : List (Table σ × Call)} {w : World σ} {name : String} {k : Tally}
    (unsaturated : (((d.countersSince now calls w).table name).tally k).toNat < Counter.max) :
    (((d.countersSince now calls w).table name).tally k).toNat =
      Event.added k name ((performed calls w).flatMap (·.run.trace.events)) := by
  rw [countersSince_eq default, Counters.tally_recordAll] at unsaturated ⊢
  rw [Counter.toNat_raise_of_lt unsaturated]
  show (TableCounters.tally {} k).toNat + _ = _
  cases k <;> exact Nat.zero_add _

/-- The rows per find of a table with a find, as long as no counter is at its greatest value.  The
numerator are the rows of the finds and the documents that the store gave to other operations, so it
is what it should be just if there are no others. -/
theorem averageRows_countersSince (default : d.installed = none) (now : UInt64)
    (calls : List (Table σ × Call)) (w : World σ) (since : Option UInt64) (name : String)
    (window : since.any (now < ·) = false)
    (unsaturated : (d.countersSince now calls w).Unsaturated)
    (called : 0 < finds name (performed calls w)) :
    ∃ s, ((d.countersSince now calls w).report since).tables.filter (·.table = name) = [s] ∧
      s.counters.findCalls.toNat = finds name (performed calls w) ∧
      s.counters.rowsReturned.toNat =
        rowsOfFinds name (performed calls w) + foundByOthers name (performed calls w) ∧
      s.counters.averageRows =
        (ofInt .double (rowsOfFinds name (performed calls w) +
          foundByOthers name (performed calls w) : Nat)).divide
          (ofInt .double (finds name (performed calls w))) ∧
      (s.counters.rowsReturned.toNat = rowsOfFinds name (performed calls w) ↔
        foundByOthers name (performed calls w) = 0) := by
  let c := d.countersSince now calls w
  -- No counter reached its greatest value, so both are the sums of what was added.
  have findCalls : (c.table name).findCalls.toNat = finds name (performed calls w) :=
    (tally_countersSince default (unsaturated.tableTallies name .finds)).trans
      (added_finds name (performed calls w))
  have rows : (c.table name).rowsReturned.toNat =
      rowsOfFinds name (performed calls w) + foundByOthers name (performed calls w) :=
    (tally_countersSince default (unsaturated.tableTallies name .rowsReturned)).trans
      (added_rowsReturned name (performed calls w))
  have sorted : c.tables.Sorted := by
    show (d.countersSince now calls w).tables.Sorted
    rw [countersSince_eq default]
    exact Counters.sorted_recordAll (c := { windowStart := now }) .nil _
  -- The table was asked at least once, so the report has counters for it, and the quotient is
  -- defined.
  have used : (c.table name).findCalls ≠ 0 := by
    intro zero
    rw [zero] at findCalls
    exact absurd findCalls.symm (Nat.ne_of_gt called)
  have report : c.report since = { counters := some c, tables := c.summaries } := by
    have start : c.windowStart = now := by
      show (d.countersSince now calls w).windowStart = now
      rw [countersSince_eq default, Counters.windowStart_recordAll]
    unfold Counters.report
    rw [start, window]
    rfl
  refine ⟨⟨name, c.table name⟩, ?_, findCalls, rows, ?_, ?_⟩
  · rw [report]
    exact Counters.exists_summary sorted fun unused => used (by rw [unused])
  · show (c.table name).averageRows = _
    unfold TableCounters.averageRows
    rw [if_neg used, rows, findCalls]
  · show (c.table name).rowsReturned.toNat = _ ↔ _
    omega

/-- A find of the quote of IBM, and a test for it. -/
def quoteCalls : List (Table Unit × Call) :=
  [(quotes, .find .everyRecord []), (quotes, .contains .everyRecord [])]

theorem unsaturated_quoteCalls : ((start 5).countersSince 7 quoteCalls ⟨(), 0⟩).Unsaturated :=
  Counters.unsaturated_of_forall (by decide) (by decide) (by decide)

theorem averageRows_countersSince_quotes :
    finds "Quotes" (performed quoteCalls ⟨(), 0⟩) = 1 ∧
      ∃ s, (((start 5).countersSince 7 quoteCalls ⟨(), 0⟩).report (some 7)).tables.filter
          (·.table = "Quotes") = [s] ∧
        s.counters.averageRows = (ofInt .double 2).divide (ofInt .double 1) := by
  obtain ⟨s, summary, -, -, average, -⟩ := averageRows_countersSince (d := start 5) rfl 7 quoteCalls
    ⟨(), 0⟩ (some 7) "Quotes" (by decide) unsaturated_quoteCalls (by decide)
  exact ⟨rfl, s, summary, average⟩

/-- One row is returned by one find, but the report gives two rows per find. -/
theorem not_averageRows_quotes :
    let c := (start 5).countersSince 7 quoteCalls ⟨(), 0⟩
    c.Unsaturated ∧ finds "Quotes" (performed quoteCalls ⟨(), 0⟩) = 1 ∧
      rowsOfFinds "Quotes" (performed quoteCalls ⟨(), 0⟩) = 1 ∧
      ∃ s, (c.report none).tables = [s] ∧ s.table = "Quotes" ∧
        s.counters.rowsReturned.toNat = 2 ∧ s.counters.findCalls.toNat = 1 ∧
        s.counters.averageRows ≠ (ofInt .double 1).divide (ofInt .double 1) := by
  intro c
  let counted : TableCounters :=
    { execCalls := 2, findCalls := 1, resolutions := 2, rowsReturned := 2 }
  have tables : c.tables = [("Quotes", counted)] := by decide
  have summaries : c.summaries = [⟨"Quotes", counted⟩] := by
    rw [Counters.summaries, tables]
    exact List.mergeSort_singleton _
  exact ⟨unsaturated_quoteCalls, rfl, rfl, ⟨"Quotes", counted⟩, summaries, rfl, rfl, rfl, by decide⟩

end Dispatcher

end StreamTable
