import StreamTable.Proofs.Condition.Filter
import StreamTable.Proofs.Table.Traces
import StreamTable.Store.Scripted

/-!
# The queries of an operation

`Operation.Asks P` says that every query which an operation sends to the store has a text with the
property `P`.  The operations that take a condition ask for the records that its resolved filter
admits, and for nothing else (`Table.asks_find` to `Table.asks_updateOrAdd`).

So a query without the word `WHERE` is sent only for the constant `true`, whatever values are bound
(`Table.filtered_unless_alwaysTrue`).
-/

namespace StreamTable

/-- The texts of all queries of the trace have the property. -/
def Trace.AsksOnly (P : String → Prop) (t : Trace) : Prop :=
  ∀ container text answer, .query container text answer ∈ t → P text

/-- Traces that ask only for what has the property can be put together, and events ask nothing. -/
theorem Trace.closed_asksOnly (P : String → Prop) : Closed (AsksOnly P) where
  nil := by
    intro container text answer h
    cases h
  event := by
    intro e container text answer h
    cases List.mem_singleton.1 h
  append := by
    intro s t hs ht container text answer h
    rcases List.mem_append.1 h with h | h
    · exact hs container text answer h
    · exact ht container text answer h

/-- A single request asks nothing else than its own query, if it is one. -/
theorem Trace.asksOnly_singleton {P : String → Prop} {action : Action}
    (h : ∀ container text answer, action = .query container text answer → P text) :
    AsksOnly P [action] := by
  intro container text answer mem
  exact h container text answer (List.mem_singleton.1 mem).symm

namespace Operation

variable {σ α : Type} {P : String → Prop}

/-- The texts of all queries of the operation have the property. -/
def Asks (P : String → Prop) (x : Operation σ α) : Prop :=
  ∀ w container text answer, .query container text answer ∈ (x w).trace → P text

/-- An operation asks only for what has the property if its traces do. -/
theorem asks_of_leaves {x : Operation σ α} (h : x.Leaves (Trace.AsksOnly P)) : x.Asks P := h

end Operation

namespace Table

open Operation

variable {σ : Type} (t : Table σ) {P : String → Prop}

/-! ### Reading -/

/-- The filter of an operation is what its condition resolves to. -/
theorem resolve_of_filter {c : CompiledCondition} {values : Values} {w : World σ} {f : String}
    (h : (t.filter c values w).value = .ok f) : c.resolve values = .ok f := by
  unfold filter at h
  cases hc : c.resolve values with
  | ok f' =>
    rw [hc] at h
    exact congrArg Except.ok (Except.ok.inj h)
  | error e =>
    rw [hc] at h
    cases h

/-- A question asks for its own text. -/
theorem asksOnly_ask {text : String} (h : P text) :
    (t.ask text).Leaves (Trace.AsksOnly P) := by
  refine t.leaves_ask (Trace.closed_asksOnly P) fun answer => Trace.asksOnly_singleton ?_
  intro container text' answer' e
  cases e
  exact h

variable {c : CompiledCondition}

/-- Documents are looked for with the query for the filter that the condition resolves to. -/
theorem asksOnly_matching (h : ∀ values f, c.resolve values = .ok f → P (findQuery t.id f))
    (values : Values) : (t.matching c values).Leaves (Trace.AsksOnly P) := by
  have closed := Trace.closed_asksOnly P
  refine leaves_andThen closed (t.leaves_reportResolved closed _ _) fun w f hf => ?_
  exact t.asksOnly_ask (h values f (t.resolve_of_filter hf))

/-- A find makes the query for all documents that the filter lets through. -/
theorem asks_find (h : ∀ values f, c.resolve values = .ok f → P (findQuery t.id f))
    (values : Values) : (t.find c values).Asks P := by
  have closed := Trace.closed_asksOnly P
  refine asks_of_leaves (t.leaves_reported closed _ _ ?_)
  exact leaves_andThen closed (t.asksOnly_matching h values) fun _ _ _ => Leaves.pure closed _

/-- To see whether there are documents, only the first one is asked for. -/
theorem asks_contains (h : ∀ values f, c.resolve values = .ok f → P (firstQuery t.id f))
    (values : Values) : (t.contains c values).Asks P := by
  have closed := Trace.closed_asksOnly P
  refine asks_of_leaves (t.leaves_reported closed _ _ ?_)
  refine leaves_andThen closed (t.leaves_reportResolved closed _ _) fun w f hf => ?_
  have first := t.asksOnly_ask (h values f (t.resolve_of_filter hf))
  exact leaves_andThen closed first fun _ _ _ => Leaves.pure closed _

/-! ### Writing

The store is asked by the reading half of an operation only; single documents are written without
a query. -/

/-- Replacements ask nothing. -/
theorem asksOnly_replaceAll (clauses : List SetClause) (set : Values) (documents : List Document) :
    (t.replaceAll clauses set documents).Leaves (Trace.AsksOnly P) := by
  have closed := Trace.closed_asksOnly P
  unfold replaceAll
  split
  · exact Leaves.pure closed _
  · refine leaves_writeEach closed (fun d => t.leaves_replace fun answer => ?_) _ documents
    exact Trace.asksOnly_singleton fun _ _ _ e => by cases e

/-- A deletion asks for the documents that it is to delete. -/
theorem asks_delete (h : ∀ values f, c.resolve values = .ok f → P (findQuery t.id f))
    (batch : List Values) : (t.delete c batch).Asks P := by
  have closed := Trace.closed_asksOnly P
  refine asks_of_leaves (t.leaves_reported closed _ _ (t.leaves_writeBatch closed _ ?_ _))
  intro values _
  refine (t.asksOnly_matching h values).bind closed fun r => ?_
  cases r with
  | ok documents =>
    refine leaves_writeEach closed (t.leaves_remove closed fun id answer => ?_) _ documents
    exact Trace.asksOnly_singleton fun _ _ _ e => by cases e
  | error e => exact Leaves.pure closed _

/-- An update asks for the documents that it is to replace. -/
theorem asks_update (h : ∀ values f, c.resolve values = .ok f → P (findQuery t.id f))
    (clauses : List SetClause) (batch setValues : List Values) :
    (t.update c clauses batch setValues).Asks P := by
  have closed := Trace.closed_asksOnly P
  refine asks_of_leaves (t.leaves_update closed fun x _ => ?_)
  refine (t.asksOnly_matching h x.1).bind closed fun r => ?_
  cases r with
  | ok documents => exact t.asksOnly_replaceAll clauses x.2 documents
  | error e => exact Leaves.pure closed _

/-- A record that no waiting row stands for asks for the documents that it is to update. -/
theorem asksOnly_updateOrWait (h : ∀ values f, c.resolve values = .ok f → P (findQuery t.id f))
    (clauses : List SetClause) (index : Nat) (r : UpsertRecord) (pending : List PendingInsert) :
    (t.updateOrWait c clauses index r pending).Leaves (Trace.AsksOnly P) := by
  have closed := Trace.closed_asksOnly P
  refine (t.asksOnly_matching h r.values).bind closed fun a => ?_
  match a with
  | .error e => exact Leaves.pure closed _
  | .ok [] => cases t.schema.bind r.row <;> exact Leaves.pure closed _
  | .ok (d :: ds) => exact (t.asksOnly_replaceAll clauses r.set (d :: ds)).map _

/-- An update or addition asks for the documents that its records are to update; to insert the rows
that wait it asks nothing. -/
theorem asks_updateOrAdd (h : ∀ values f, c.resolve values = .ok f → P (findQuery t.id f))
    (clauses : List SetClause) (batch setValues : List Values) (rows : List Row) :
    (t.updateOrAdd c clauses batch setValues rows).Asks P := by
  have closed := Trace.closed_asksOnly P
  refine asks_of_leaves (t.leaves_updateOrAdd closed (fun r _ index pending => ?_) fun d _ => ?_)
  · exact t.leaves_upsertRecord closed (t.asksOnly_updateOrWait h clauses index r pending)
  · exact Trace.asksOnly_singleton fun _ _ _ e => by cases e

/-! ### Filtered queries -/

/-- The query has a filter after the word `WHERE`. -/
def IsFiltered (text : String) : Prop :=
  ∃ f, f ≠ "" ∧ (text = "SELECT * FROM " ++ t.id ++ " WHERE " ++ f ∨
    text = "SELECT TOP 1 * FROM " ++ t.id ++ " WHERE " ++ f)

/-- The query ends with the name of the table. -/
def IsUnfiltered (text : String) : Prop :=
  text = "SELECT * FROM " ++ t.id ∨ text = "SELECT TOP 1 * FROM " ++ t.id

/-- The query has a filter, unless the expression is the constant `true`. -/
def FilteredUnless (e : Expr) (text : String) : Prop :=
  (t.IsUnfiltered text ↔ e = .alwaysTrue) ∧ (t.IsFiltered text ↔ e ≠ .alwaysTrue)

/-- No query is both filtered and unfiltered. -/
theorem not_isUnfiltered {text : String} (h : t.IsFiltered text) : ¬ t.IsUnfiltered text := by
  have longer (s f : String) : s ++ " WHERE " ++ f ≠ s := by
    intro h
    have length := congrArg String.length h
    rw [String.length_append, String.length_append, show " WHERE ".length = 7 from rfl] at length
    omega
  -- A query for all records and one for the first record differ in the eighth character.
  obtain ⟨f, _, rfl | rfl⟩ := h
  · rintro (h | h)
    · exact longer _ f h
    · simpa using congrArg String.toList h
  · rintro (h | h)
    · simpa using congrArg String.toList h
    · exact longer _ f h

/-- The condition that every record meets is to be asked without a filter. -/
theorem filteredUnless_of_isUnfiltered {e : Expr} {text : String} (h : t.IsUnfiltered text)
    (he : e = .alwaysTrue) : t.FilteredUnless e text :=
  ⟨iff_of_true h he, iff_of_false (fun hf => t.not_isUnfiltered hf h) fun hn => hn he⟩

/-- Any other condition is to be asked with one. -/
theorem filteredUnless_of_isFiltered {e : Expr} {text : String} (h : t.IsFiltered text)
    (he : e ≠ .alwaysTrue) : t.FilteredUnless e text :=
  ⟨iff_of_false (t.not_isUnfiltered h) he, iff_of_true h he⟩

/-- Both queries for a filter are filtered just if the filter is not empty. -/
theorem filteredUnless_queries {e : Expr} {f : String} (h : f = "" ↔ e = .alwaysTrue) :
    t.FilteredUnless e (findQuery t.id f) ∧ t.FilteredUnless e (firstQuery t.id f) := by
  by_cases hf : f = ""
  · have absent : SelectQuery.clause " WHERE " (SelectQuery.nonEmpty? f) = "" := by
      rw [hf]
      rfl
    have find : findQuery t.id f = "SELECT * FROM " ++ t.id := by
      unfold findQuery
      rw [absent, String.append_empty]
    have first : firstQuery t.id f = "SELECT TOP 1 * FROM " ++ t.id := by
      unfold firstQuery
      rw [absent, String.append_empty]
    exact ⟨t.filteredUnless_of_isUnfiltered (Or.inl find) (h.1 hf),
      t.filteredUnless_of_isUnfiltered (Or.inr first) (h.1 hf)⟩
  · have present : SelectQuery.clause " WHERE " (SelectQuery.nonEmpty? f) = " WHERE " ++ f := by
      rw [SelectQuery.nonEmpty?, if_neg (by simpa using hf)]
      rfl
    have find : findQuery t.id f = "SELECT * FROM " ++ t.id ++ " WHERE " ++ f := by
      unfold findQuery
      rw [present, ← String.append_assoc]
    have first : firstQuery t.id f = "SELECT TOP 1 * FROM " ++ t.id ++ " WHERE " ++ f := by
      unfold firstQuery
      rw [present, ← String.append_assoc]
    have he : e ≠ .alwaysTrue := fun he => hf (h.2 he)
    exact ⟨t.filteredUnless_of_isFiltered ⟨f, hf, Or.inl find⟩ he,
      t.filteredUnless_of_isFiltered ⟨f, hf, Or.inr first⟩ he⟩

/-- What a table compiles is what the compiler gives for the clause of conditions. -/
theorem compile_of_compileCondition {e : Expr} {w : World σ}
    (h : (t.compileCondition e w).value = .ok c) : compile t.id .condition e = .ok c := by
  unfold compileCondition at h
  cases hc : compile t.id .condition e with
  | error e =>
    rw [hc] at h
    cases h
  | ok c' =>
    rw [hc] at h
    exact congrArg Except.ok (Except.ok.inj h)

/-- A condition resolves to the empty filter just if its expression is the constant `true`; so, with
whatever functions it carries, it never makes an operation ask for more than its filter admits
unless it is that constant. -/
theorem filtered_unless_alwaysTrue {e : Expr} {w : World σ}
    (h : (t.compileCondition e w).value = .ok c) :
    (∀ values text, c.resolve values = .ok text → (text = "" ↔ e = .alwaysTrue)) ∧
    ∀ standsFor reduce,
      let c' := { c with inMemoryFilter := standsFor, updateReducer := reduce }
      (∀ values, (t.find c' values).Asks (t.FilteredUnless e)) ∧
      (∀ values, (t.contains c' values).Asks (t.FilteredUnless e)) ∧
      (∀ batch, (t.delete c' batch).Asks (t.FilteredUnless e)) ∧
      (∀ clauses batch setValues, (t.update c' clauses batch setValues).Asks (t.FilteredUnless e)) ∧
      ∀ clauses batch setValues rows,
        (t.updateOrAdd c' clauses batch setValues rows).Asks (t.FilteredUnless e) := by
  have empty (values : Values) (text : String) (ht : c.resolve values = .ok text) :=
    resolve_eq_empty_iff (t.compile_of_compileCondition h) ht
  refine ⟨empty, fun standsFor reduce => ?_⟩
  intro c'
  -- The functions of the host do not take part in the resolution.
  have queries (values : Values) (f : String) (hf : c'.resolve values = .ok f) :=
    t.filteredUnless_queries (empty values f hf)
  have find (values : Values) (f : String) (hf : c'.resolve values = .ok f) :=
    (queries values f hf).1
  have first (values : Values) (f : String) (hf : c'.resolve values = .ok f) :=
    (queries values f hf).2
  exact ⟨t.asks_find find, t.asks_contains first, t.asks_delete find, t.asks_update find,
    t.asks_updateOrAdd find⟩

/-- A table without attributes whose store follows a script. -/
def scripted : Table ScriptedStore where
  definition := ⟨"T", []⟩
  collection := "T"
  container := "/dbs/db/colls/T"
  backend := ScriptedStore.backend
  freshIds := fun n => toString n

/-- A lone attribute that is bound to the empty text still makes a filter. -/
theorem filtered_unless_alwaysTrue_emptyText :
    ∃ c, (scripted.compileCondition (.attribute "flag" .bool) ⟨{}, 0⟩).value = .ok c ∧
      c.resolve [("flag", .string "")] = .ok "''" ∧
      ("''" = "" ↔ Expr.attribute "flag" .bool = .alwaysTrue) ∧
      (scripted.delete c [[("flag", .string "")]]).Asks
        (scripted.FilteredUnless (.attribute "flag" .bool)) := by
  obtain ⟨c, h, resolved⟩ : ∃ c,
      (scripted.compileCondition (.attribute "flag" .bool) ⟨{}, 0⟩).value = .ok c ∧
        c.resolve [("flag", .string "")] = .ok "''" := ⟨_, rfl, rfl⟩
  obtain ⟨empty, queries⟩ := scripted.filtered_unless_alwaysTrue h
  obtain ⟨_, _, delete, _⟩ := queries c.inMemoryFilter c.updateReducer
  exact ⟨c, h, resolved, empty _ _ resolved, delete _⟩

end Table

end StreamTable
