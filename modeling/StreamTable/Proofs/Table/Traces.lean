import StreamTable.Table.Upsert

/-!
# Properties of traces

A property of traces is closed (`Trace.Closed`) if events do not matter to it and traces that have
it can be put one after the other.  Then it only has to be shown for the requests of a record:
`Operation.Leaves` says that an operation leaves a trace with the property, and batches do if their
records do (`Table.leaves_writeBatch`, `Table.leaves_upsertAll`, `Table.leaves_insertPending`).

What a question to the store leaves behind is said once, in `Table.ask_cases`.
-/

namespace StreamTable

/-- The property holds where nothing is asked of the store, and of traces put together. -/
structure Trace.Closed (Q : Trace → Prop) : Prop where
  nil : Q []
  event : ∀ e, Q [.event e]
  append : ∀ {s t : Trace}, Q s → Q t → Q (s ++ t)

/-- What events have no part in can be read off the requests. -/
theorem Trace.filterMap_requests {α : Type} {f : Action → Option α}
    (event : ∀ e, f (.event e) = none) (t : Trace) : t.requests.filterMap f = t.filterMap f := by
  rw [requests, List.filterMap_filter]
  congr 1
  funext a
  cases a with
  | event e => exact (event e).symm
  | _ => rfl

namespace Operation

variable {σ α β : Type} {Q Q' : Trace → Prop}

/-- Whatever the world, the trace of the operation has the property. -/
def Leaves (Q : Trace → Prop) (x : Operation σ α) : Prop := ∀ w, Q (x w).trace

/-- A weaker property holds of the same traces. -/
theorem Leaves.imp {x : Operation σ α} (hx : x.Leaves Q) (h : ∀ t, Q t → Q' t) : x.Leaves Q' :=
  fun w => h _ (hx w)

/-- The form of the result makes no difference to the trace. -/
theorem Leaves.map {x : Operation σ α} (hx : x.Leaves Q) (f : α → β) : (f <$> x).Leaves Q := by
  intro w
  rw [trace_map]
  exact hx w

/-- A single request has the property if it has it for every answer. -/
theorem leaves_request {ask : σ → α × σ} {action : α → Action} (h : ∀ a, Q [action a]) :
    (request ask action).Leaves Q :=
  fun _ => h _

variable (closed : Trace.Closed Q)

include closed

theorem Leaves.pure (a : α) : Leaves Q (pure a : Operation σ α) := fun _ => closed.nil

theorem leaves_emit (e : Event) : Leaves Q (emit e : Operation σ Unit) := fun _ => closed.event e

theorem leaves_generate (ids : Nat → String) : Leaves Q (generate ids : Operation σ String) :=
  fun _ => closed.nil

/-- What comes after an operation may rely on its result. -/
theorem Leaves.bind_of {x : Operation σ α} {f : α → Operation σ β} (hx : x.Leaves Q)
    (hf : ∀ w, (f (x w).value).Leaves Q) : (x >>= f).Leaves Q := by
  intro w
  rw [trace_bind]
  exact closed.append (hx w) (hf w _)

/-- One operation after another has the property if both have. -/
theorem Leaves.bind {x : Operation σ α} {f : α → Operation σ β} (hx : x.Leaves Q)
    (hf : ∀ a, (f a).Leaves Q) : (x >>= f).Leaves Q :=
  hx.bind_of closed fun _ => hf _

end Operation

namespace Table

open Operation

variable {σ α β : Type} (t : Table σ) {Q : Trace → Prop} (closed : Trace.Closed Q)

/-! ### Reading -/

/-- A question is one query.  The documents of an answer are given, and their number is reported;
the error of a query that is refused is given as one of the table. -/
theorem ask_cases (text : String) (w : World σ) :
    (∃ documents, (t.backend.query t.container text w.store).1 = .ok documents ∧
      (t.ask text w).value = .ok documents ∧
      (t.ask text w).trace = [.query t.container text (.ok documents),
        .event (.rowsReturned t.id documents.length)]) ∨
    ∃ e, (t.backend.query t.container text w.store).1 = .error e ∧
      (t.ask text w).value = .error (.backend e) ∧
      (t.ask text w).trace = [.query t.container text (.error e)] := by
  let asked := request (t.backend.query t.container text) (.query t.container text) w
  have answer : asked.value = (t.backend.query t.container text w.store).1 := rfl
  have trace : asked.trace = [.query t.container text asked.value] := rfl
  unfold ask
  rw [trace_bind, value_bind, trace, ← answer]
  cases asked.value with
  | ok documents => exact .inl ⟨documents, rfl, rfl, rfl⟩
  | error e => exact .inr ⟨e, rfl, rfl, rfl⟩

include closed

/-- What may follow an operation has to have the property only for the results that it follows. -/
theorem leaves_andThen {x : Operation σ (Except TableError α)}
    {f : α → Operation σ (Except TableError β)} (hx : x.Leaves Q)
    (hf : ∀ w a, (x w).value = .ok a → (f a).Leaves Q) : (andThen x f).Leaves Q := by
  refine hx.bind_of closed fun w => ?_
  cases h : (x w).value with
  | ok a => exact hf w a h
  | error e => exact Leaves.pure closed _

theorem leaves_reportResolved (holes : Nat) (r : Except BindError α) :
    (t.reportResolved holes r).Leaves Q := by
  cases r with
  | ok a => exact (leaves_emit closed _).bind closed fun _ => Leaves.pure closed _
  | error e => exact Leaves.pure closed _

/-- The events around an operation keep the property. -/
theorem leaves_reported (kind : ExecKind) (rows : α → Nat) {x : Operation σ α} (hx : x.Leaves Q) :
    (t.reported kind rows x).Leaves Q :=
  (leaves_emit closed _).bind closed fun _ => hx.bind closed fun _ =>
    (leaves_emit closed _).bind closed fun _ => Leaves.pure closed _

/-- A question has the property if it has it for every answer. -/
theorem leaves_ask {text : String} (h : ∀ answer, Q [.query t.container text answer]) :
    (t.ask text).Leaves Q := by
  intro w
  rcases t.ask_cases text w with ⟨documents, _, _, trace⟩ | ⟨e, _, _, trace⟩
  · rw [trace]
    exact closed.append (h (.ok documents)) (closed.event _)
  · rw [trace]
    exact h (.error e)

/-! ### Single documents -/

theorem leaves_newDocument (values : Values) : (t.newDocument values).Leaves Q := by
  unfold newDocument
  split
  · exact Leaves.pure closed _
  · exact (leaves_generate closed _).bind closed fun _ => Leaves.pure closed _

/-- A creation has the property if every request to create has it. -/
theorem leaves_create (h : ∀ d answer, Q [.create t.container d answer]) (values : Values) :
    (t.create values).Leaves Q :=
  (t.leaves_newDocument closed values).bind closed fun d => (leaves_request (h d)).map _

omit closed in
/-- A replacement has the property if it has it for every answer. -/
theorem leaves_replace {d : Document} (h : ∀ answer, Q [.replace t.container d answer]) :
    (t.replace d).Leaves Q :=
  (leaves_request h).map _

/-- A removal has the property if it has it for every answer; without an address there is no
request. -/
theorem leaves_remove (h : ∀ id answer, Q [.delete t.container id answer]) (d : Document) :
    (t.remove d).Leaves Q := by
  unfold remove
  split
  · exact Leaves.pure closed _
  · exact (leaves_request (h _)).map _

/-- Writing document after document has the property if writing each of them has it. -/
theorem leaves_writeEach {write : Document → Operation σ (Except TableError Unit)}
    (h : ∀ d, (write d).Leaves Q) (n : Nat) (ds : List Document) :
    (writeEach write n ds).Leaves Q := by
  induction ds generalizing n with
  | nil => exact Leaves.pure closed _
  | cons d ds ih =>
    refine (h d).bind closed fun a => ?_
    cases a with
    | ok u => exact ih (n + 1)
    | error e => exact Leaves.pure closed _

/-! ### Batches -/

/-- To settle a record is at most one event. -/
theorem leaves_settle (kind : ExecKind) (index : Nat) (p : Progress) :
    (t.settle kind index p).Leaves Q := by
  unfold settle
  split
  · exact (leaves_emit closed _).bind closed fun _ => Leaves.pure closed _
  · exact (Leaves.pure closed _).bind closed fun _ => Leaves.pure closed _

/-- A batch has the property if handling each of its records has it. -/
theorem leaves_writeBatch (kind : ExecKind) {write : α → Operation σ Progress} {xs : List α}
    (h : ∀ x ∈ xs, (write x).Leaves Q) (index : Nat) :
    (t.writeBatch kind write index xs).Leaves Q := by
  induction xs generalizing index with
  | nil => exact Leaves.pure closed _
  | cons x xs ih =>
    obtain ⟨here, rest⟩ := List.forall_mem_cons.1 h
    exact here.bind closed fun p => (t.leaves_settle closed kind index p).bind closed fun _ =>
      (ih rest (index + 1)).bind closed fun _ => Leaves.pure closed _

/-- Nothing is asked for a record that is merged into a waiting row. -/
theorem leaves_upsertRecord {c : CompiledCondition} {clauses : List SetClause} {index : Nat}
    {r : UpsertRecord} {pending : List PendingInsert}
    (h : (t.updateOrWait c clauses index r pending).Leaves Q) :
    (t.upsertRecord c clauses index r pending).Leaves Q := by
  unfold upsertRecord
  split
  · exact Leaves.pure closed _
  · exact Leaves.pure closed _
  · exact h

/-- The first pass has the property if handling each record has it, whatever rows are waiting. -/
theorem leaves_upsertAll {c : CompiledCondition} {clauses : List SetClause}
    {rs : List UpsertRecord}
    (h : ∀ r ∈ rs, ∀ index pending, (t.upsertRecord c clauses index r pending).Leaves Q)
    (index : Nat) (pending : List PendingInsert) :
    (t.upsertAll c clauses index pending rs).Leaves Q := by
  induction rs generalizing index pending with
  | nil => exact Leaves.pure closed _
  | cons r rs ih =>
    obtain ⟨here, rest⟩ := List.forall_mem_cons.1 h
    refine (here index pending).bind closed fun step => ?_
    have later (pending' : List PendingInsert) := ih rest (index + 1) pending'
    cases step.progress with
    | some p =>
      exact (t.leaves_settle closed _ _ p).bind closed fun _ => (later _).bind closed fun _ =>
        Leaves.pure closed _
    | none =>
      exact (Leaves.pure closed _).bind closed fun _ => (later _).bind closed fun _ =>
        Leaves.pure closed _

/-- The second pass has the property if every request to create has it. -/
theorem leaves_insertPending (h : ∀ d answer, Q [.create t.container d answer])
    (ps : List PendingInsert) : (t.insertPending ps).Leaves Q := by
  induction ps with
  | nil => exact Leaves.pure closed _
  | cons p ps ih =>
    refine (t.leaves_create closed h p.values).bind closed fun a => ?_
    have settled (progress : Progress) :
        ((t.settle .updateOrAdd p.index progress) >>= fun here =>
          t.insertPending ps >>= fun rest => pure (here ++ rest)).Leaves Q :=
      (t.leaves_settle closed _ _ _).bind closed fun _ => ih.bind closed fun _ =>
        Leaves.pure closed _
    cases a with
    | ok u => exact settled _
    | error e => exact settled _

/-- An update has the property if updating each of its records has it; refused as a whole it leaves
no trace. -/
theorem leaves_update {c : CompiledCondition} {clauses : List SetClause}
    {batch setValues : List Values}
    (h : ∀ x ∈ batch.zip setValues, (t.updateRecord c clauses x.1 x.2).Leaves Q) :
    (t.update c clauses batch setValues).Leaves Q := by
  unfold update
  split
  · exact Leaves.pure closed _
  · exact (t.leaves_reported closed _ _ (t.leaves_writeBatch closed _ h _)).map _

/-- An update or addition has the property if handling each record has it and every request to
create has it. -/
theorem leaves_updateOrAdd {c : CompiledCondition} {clauses : List SetClause}
    {batch setValues : List Values} {rows : List Row}
    (h : ∀ r ∈ upsertRecords batch setValues rows, ∀ index pending,
      (t.upsertRecord c clauses index r pending).Leaves Q)
    (created : ∀ d answer, Q [.create t.container d answer]) :
    (t.updateOrAdd c clauses batch setValues rows).Leaves Q := by
  unfold updateOrAdd
  split
  · exact Leaves.pure closed _
  · exact Leaves.pure closed _
  · refine (t.leaves_reported closed _ _ ?_).map _
    exact (t.leaves_upsertAll closed h 0 []).bind closed fun r =>
      (t.leaves_insertPending closed created r.2).bind closed fun _ => Leaves.pure closed _

end Table

end StreamTable
