import Mathlib.Data.List.DropRight
import StreamTable.Proofs.Condition.Equality
import StreamTable.Proofs.Config.ContainerLink
import StreamTable.Proofs.Table.Handling
import StreamTable.Proofs.Table.Merging
import StreamTable.Proofs.Text.Replace

/-!
# The texts of queries

A query for records is a template in which the name of the table and then the filter are put in the
places of two marks (`fillTemplate`).  Whatever the filter is, the texts around it stay as they are:
the name of a table has no character of a mark, the filter is put in last and is not searched again,
and only a query without a filter loses the white space at its end (`fillTemplate_template`).

`Trace.queries` lists the queries of a trace.  The operations that take a condition send the query
for its filter once for every record that binds it, and no other query
(`Table.queries_matching_bind`, `Table.queries_writeBatch`).  `Table.queries_exact` puts this
together.
-/

namespace StreamTable

open Operation

namespace Text

/-- The text without the white space at its end. -/
def trimEnd (s : String) : String := .ofList (s.toList.rdropWhile isBlank)

/-- An identifier has no white space, so nothing of it is trimmed. -/
theorem isBlank_of_isIdentifierChar {c : Char} (h : isIdentifierChar c = true) :
    isBlank c = false := by
  have inside : 0x30 ≤ c.toNat ∧ c.toNat ≤ 0x7A := by
    rcases Bool.or_eq_true_iff.1 h with alphanumeric | underscore
    · rcases Bool.or_eq_true_iff.1 alphanumeric with letter | digit
      · rcases Bool.or_eq_true_iff.1 letter with upper | lower
        · have bounds : c.val ≥ 'A'.val ∧ c.val ≤ 'Z'.val := of_decide_eq_true upper
          exact ⟨Nat.le_trans (by decide) bounds.1, Nat.le_trans bounds.2 (by decide)⟩
        · obtain ⟨above, below⟩ := Bool.and_eq_true_iff.1 lower
          have first : c.val ≥ 'a'.val := of_decide_eq_true above
          have last : c.val ≤ 'z'.val := of_decide_eq_true below
          exact ⟨Nat.le_trans (by decide) first, Nat.le_trans last (by decide)⟩
      · have bounds := Char.isDigit_iff_toNat.1 digit
        exact ⟨bounds.1, Nat.le_trans bounds.2 (by decide)⟩
    · rw [of_decide_eq_true underscore]
      decide
  obtain ⟨low, high⟩ := inside
  -- Every range ends before the digits or begins after the letters.
  have outside : ∀ range ∈ blankRanges, range.2 < 0x30 ∨ 0x7A < range.1 := by decide
  refine List.any_eq_false.2 fun range mem => ?_
  have := outside range mem
  simp only [Bool.and_eq_true, decide_eq_true_eq]
  omega

/-- Nothing but the white space after an identifier is lost. -/
theorem trimEnd_append {name : String} (h : isIdentifier name = true) (s blanks : String)
    (hb : ∀ c ∈ blanks.toList, isBlank c = true) : trimEnd (s ++ name ++ blanks) = s ++ name := by
  have nonempty : s.toList ++ name.toList ≠ [] := by
    simp [toList_ne_nil_of_isIdentifier h]
  have last : ¬ isBlank ((s.toList ++ name.toList).getLast nonempty) = true := by
    rw [List.getLast_append_of_ne_nil _ (toList_ne_nil_of_isIdentifier h),
      isBlank_of_isIdentifierChar (isIdentifierChar_of_mem h (List.getLast_mem _))]
    exact Bool.false_ne_true
  have dropped : ((s.toList ++ name.toList) ++ blanks.toList).rdropWhile isBlank =
      s.toList ++ name.toList := by
    have blank : (blanks.toList.reverse).dropWhile isBlank = [] := by
      simpa [List.dropWhile_eq_nil_iff] using hb
    have kept := List.rdropWhile_eq_self_iff.2 fun _ => last
    rw [List.rdropWhile] at kept ⊢
    rw [List.reverse_append, List.dropWhile_append, blank]
    exact kept
  rw [trimEnd, ← String.toList_inj, String.toList_ofList, String.toList_append,
    String.toList_append, dropped]

end Text

/-! ### Templates of queries -/

/-- Stands for the name of the table in a template. -/
def tableMark : String := "\x7b\x7bTABLE_NAME\x7d\x7d"

/-- Stands for the word `WHERE` and the filter in a template. -/
def conditionMark : String := "\x7b\x7bCONDITION\x7d\x7d"

/-- The template of a query that begins with `head`. -/
def queryTemplate (head : String) : String := head ++ " " ++ tableMark ++ " " ++ conditionMark

/-- Fill a template: first the name of the table, then the filter.  Without a filter the word
`WHERE` is left out, and so is the white space at the end. -/
def fillTemplate (template table filter : String) : String :=
  let named := Text.replaceAll tableMark table template
  if filter.isEmpty then Text.trimEnd (Text.replaceAll conditionMark "" named)
  else Text.replaceAll conditionMark ("WHERE " ++ filter) named

section

open Text (replaceAll replaceAll_divided replaceAll_pattern replaceAll_of_notMem)

variable {head table : String}

/-- Both marks have a brace, so a text without braces holds neither. -/
theorem brace_mem_marks : '\x7b' ∈ tableMark.toList ∧ '\x7b' ∈ conditionMark.toList := by decide

/-- The name of a table has no brace. -/
theorem notMem_brace (h : Text.isIdentifier table = true) : '\x7b' ∉ table.toList := by
  intro brace
  exact absurd (Text.isIdentifierChar_of_mem h brace) (by decide)

/-- The marks have no blank, so the parts of a template between blanks are filled alone. -/
theorem replaceAll_blank {mark : String} (nonempty : mark ≠ "") (blank : ' ' ∉ mark.toList)
    (new s t : String) :
    replaceAll mark new (s ++ " " ++ t) = replaceAll mark new s ++ " " ++ replaceAll mark new t :=
  replaceAll_divided nonempty blank new s t

/-- The name of the table takes the place of its mark and leaves the mark of the filter. -/
theorem replaceAll_tableMark (plain : '\x7b' ∉ head.toList) (table : String) :
    replaceAll tableMark table (queryTemplate head) =
      head ++ " " ++ table ++ " " ++ conditionMark := by
  have other : replaceAll tableMark table conditionMark = conditionMark :=
    (Text.replaceAll_eq_self_iff (by decide)).2 (.inl (by decide))
  rw [queryTemplate, replaceAll_blank (by decide) (by decide),
    replaceAll_blank (by decide) (by decide), replaceAll_of_notMem brace_mem_marks.1 plain,
    replaceAll_pattern (by decide), other]

/-- What is put in for the filter stands at the end, whatever it is. -/
theorem replaceAll_conditionMark (plain : '\x7b' ∉ head.toList)
    (named : Text.isIdentifier table = true) (new : String) :
    replaceAll conditionMark new (head ++ " " ++ table ++ " " ++ conditionMark) =
      head ++ " " ++ table ++ " " ++ new := by
  rw [replaceAll_blank (by decide) (by decide), replaceAll_blank (by decide) (by decide),
    replaceAll_of_notMem brace_mem_marks.2 plain,
    replaceAll_of_notMem brace_mem_marks.2 (notMem_brace named), replaceAll_pattern (by decide)]

/-- A filled template has the name of the table and the filter as they are. -/
theorem fillTemplate_template (plain : '\x7b' ∉ head.toList)
    (named : Text.isIdentifier table = true) (filter : String) :
    fillTemplate (queryTemplate head) table filter =
      head ++ " " ++ table ++ if filter = "" then "" else " WHERE " ++ filter := by
  unfold fillTemplate
  simp only [replaceAll_tableMark plain table, replaceAll_conditionMark plain named]
  by_cases empty : filter = ""
  · have blanks : ∀ c ∈ (" " : String).toList, Text.isBlank c = true := by
      have single : (" " : String).toList = [' '] := rfl
      rw [single, List.forall_mem_singleton]
      decide
    have trimmed := Text.trimEnd_append named (head ++ " ") " " blanks
    rw [if_pos (by simpa using empty), if_pos empty, String.append_empty, String.append_empty]
    exact trimmed
  · have word : " WHERE " = " " ++ "WHERE " := by decide
    rw [if_neg (by simpa using empty), if_neg empty, word]
    simp only [String.append_assoc]

end

/-! ### The queries of a trace -/

/-- The container and the text of a query. -/
def Action.query? : Action → Option (String × String)
  | .query container text _ => some (container, text)
  | _ => none

namespace Trace

/-- The queries of a trace in their order. -/
def queries (t : Trace) : List (String × String) := t.filterMap Action.query?

/-- The queries of one trace after another are those of both, in order. -/
@[simp] theorem queries_append (s t : Trace) : queries (s ++ t) = s.queries ++ t.queries :=
  List.filterMap_append

/-- Only requests are queries. -/
theorem queries_requests (t : Trace) : queries t.requests = t.queries :=
  t.filterMap_requests fun _ => rfl

/-- Traces without queries can be put together. -/
theorem closed_unqueried : Closed (·.queries = []) where
  nil := rfl
  event := fun _ => rfl
  append := by
    intro s t hs ht
    rw [queries_append, hs, ht]
    rfl

end Trace

namespace Table

variable {σ α : Type} (t : Table σ) (c : CompiledCondition) (clauses : List SetClause)

/-- The text of a query for records of the table, given what stands before the star. -/
def selectText (quantity filter : String) : String :=
  "SELECT " ++ quantity ++ "* FROM " ++ t.id ++ if filter = "" then "" else " WHERE " ++ filter

/-- The queries for a record: one if the values bind the condition. -/
def queriesFor (quantity : String) (values : Values) : List (String × String) :=
  match c.resolve values with
  | .ok f => [(t.container, t.selectText quantity f)]
  | .error _ => []

/-- The queries for a record of updates or insertions: none if a waiting row stands for it. -/
def queriesForUpsert (u : HandledUpsert σ) : List (String × String) :=
  if (c.waitingFor? u.record u.waiting).isSome then [] else t.queriesFor c "" u.record.values

/-- A filter comes after the word `WHERE`, and no filter leaves the word out. -/
theorem clause_where (f : String) :
    SelectQuery.clause " WHERE " (SelectQuery.nonEmpty? f) =
      if f = "" then "" else " WHERE " ++ f := by
  by_cases h : f = ""
  · rw [if_pos h, h]
    rfl
  · rw [if_neg h, SelectQuery.nonEmpty?, if_neg (by simpa using h)]
    rfl

/-- The query for all documents of a filter is the filled template. -/
theorem findQuery_eq (f : String) : findQuery t.id f = t.selectText "" f := by
  have head : "SELECT " ++ "" ++ "* FROM " = "SELECT * FROM " := rfl
  unfold findQuery selectText
  rw [clause_where, head]

/-- So is the query for the first one. -/
theorem firstQuery_eq (f : String) : firstQuery t.id f = t.selectText "TOP 1 " f := by
  have head : "SELECT " ++ "TOP 1 " ++ "* FROM " = "SELECT TOP 1 * FROM " := rfl
  unfold firstQuery selectText
  rw [clause_where, head]

/-! ### Reading -/

/-- A question is one query, in the container of the table. -/
theorem queries_ask (text : String) (w : World σ) :
    (t.ask text w).trace.queries = [(t.container, text)] := by
  obtain ⟨answer, asked, _⟩ := t.ask_eq text w
  rw [← Trace.queries_requests, asked]
  rfl

/-- The documents of a condition are asked for with one query if it is bound. -/
theorem queries_matching (values : Values) (w : World σ) :
    (t.matching c values w).trace.queries = t.queriesFor c "" values := by
  unfold queriesFor
  rcases t.matching_cases c values w with ⟨e, failed, run⟩ | ⟨f, answer, bound, asked, _⟩
  · rw [failed, run]
    rfl
  · rw [bound, ← Trace.queries_requests, asked, findQuery_eq]
    rfl

/-- What is done with the documents of a condition makes no further query. -/
theorem queries_matching_bind {next : Except TableError (List Document) → Operation σ α}
    (quiet : ∀ r, (next r).Leaves (·.queries = [])) (values : Values) (w : World σ) :
    ((t.matching c values >>= next) w).trace.queries = t.queriesFor c "" values := by
  rw [trace_bind, Trace.queries_append, queries_matching, quiet, List.append_nil]

/-- The events of an operation are no queries. -/
theorem queries_reported (kind : ExecKind) (rows : α → Nat) (x : Operation σ α) (w : World σ) :
    (t.reported kind rows x w).trace.queries = (x w).trace.queries := by
  rw [← Trace.queries_requests, requests_reported, Trace.queries_requests]

/-- A find makes one query if its condition is bound, and none otherwise. -/
theorem queries_find (values : Values) (w : World σ) :
    (t.find c values w).trace.queries = t.queriesFor c "" values := by
  unfold find
  rw [queries_reported]
  refine t.queries_matching_bind c (fun r => ?_) values w
  cases r <;> exact Leaves.pure Trace.closed_unqueried _

/-- What follows an operation that can fail is only carried out if it did not. -/
theorem queries_andThen {α β : Type} (x : Operation σ (Except TableError α))
    (f : α → Operation σ (Except TableError β)) (w : World σ) :
    (andThen x f w).trace.queries = (x w).trace.queries ++
      match (x w).value with
      | .ok a => (f a (x w).world).trace.queries
      | .error _ => [] := by
  unfold andThen
  rw [trace_bind, Trace.queries_append]
  cases (x w).value <;> rfl

/-- Binding a condition is reported with the number of its holes. -/
theorem filter_of_resolve {values : Values} {f : String} (h : c.resolve values = .ok f)
    (w : World σ) :
    t.filter c values w = ⟨.ok f, [.event (.resolved t.id c.size)], w⟩ := by
  unfold filter
  rw [h]
  rfl

/-- To see whether there are documents takes one query, too, for the first document. -/
theorem queries_contains (values : Values) (w : World σ) :
    (t.contains c values w).trace.queries = t.queriesFor c "TOP 1 " values := by
  unfold contains queriesFor
  rw [queries_reported, queries_andThen]
  cases h : c.resolve values with
  | error e =>
    unfold filter
    rw [h]
    rfl
  | ok f =>
    rw [t.filter_of_resolve c h]
    show (andThen (t.ask (firstQuery t.id f)) _ w).trace.queries = _
    rw [queries_andThen, queries_ask, firstQuery_eq]
    -- The answer is only looked at.
    cases (t.ask (t.selectText "TOP 1 " f) w).value <;> rfl

/-! ### Batches -/

/-- A batch makes the queries of its records. -/
theorem queries_writeBatch (kind : ExecKind) {write : α → Operation σ Progress}
    {queries : α → List (String × String)}
    (record : ∀ x w, (write x w).trace.queries = queries x) (index : Nat) (xs : List α)
    (w : World σ) :
    (t.writeBatch kind write index xs w).trace.queries = xs.flatMap queries := by
  induction xs generalizing index w with
  | nil => rfl
  | cons x xs ih =>
    have parts : (t.writeBatch kind write index (x :: xs) w).trace.requests =
        (write x w).trace.requests ++
          (t.writeBatch kind write (index + 1) xs (write x w).world).trace.requests :=
      (t.run_writeBatch_cons kind index x xs w).2
    rw [← Trace.queries_requests, parts, Trace.queries_append, Trace.queries_requests,
      Trace.queries_requests, record, ih, List.flatMap_cons]

/-- A deletion makes the query of each binding in turn. -/
theorem queries_delete (batch : List Values) (w : World σ) :
    (t.delete c batch w).trace.queries = batch.flatMap (t.queriesFor c "") := by
  unfold delete
  rw [queries_reported]
  refine t.queries_writeBatch .delete (fun values w => ?_) 0 batch w
  refine t.queries_matching_bind c (fun r => ?_) values w
  have closed := Trace.closed_unqueried
  cases r with
  | error e => exact Leaves.pure closed _
  | ok documents => exact leaves_writeEach closed (t.leaves_remove closed fun _ _ => rfl) 0 documents

/-- Replacements make no queries. -/
theorem unqueried_replaceAll (set : Values) (documents : List Document) :
    (t.replaceAll clauses set documents).Leaves (·.queries = []) := by
  have closed := Trace.closed_unqueried
  unfold replaceAll
  split
  · exact Leaves.pure closed _
  · exact leaves_writeEach closed (fun d => t.leaves_replace fun _ => rfl) 0 documents

/-- Updating a record makes the query of its binding, whatever becomes of the replacements. -/
theorem queries_updateRecord (values set : Values) (w : World σ) :
    (t.updateRecord c clauses values set w).trace.queries = t.queriesFor c "" values := by
  refine t.queries_matching_bind c (fun r => ?_) values w
  cases r with
  | error e => exact Leaves.pure Trace.closed_unqueried _
  | ok documents => exact t.unqueried_replaceAll clauses set documents

/-- An update makes the query of each binding in turn. -/
theorem queries_update {batch setValues : List Values} (h : batch.length = setValues.length)
    (w : World σ) :
    (t.update c clauses batch setValues w).trace.queries = batch.flatMap (t.queriesFor c "") := by
  have records := t.queries_writeBatch .update
    (fun x : Values × Values => t.queries_updateRecord c clauses x.1 x.2) 0
    (batch.zip setValues) w
  have first : (batch.zip setValues).map (·.1) = batch := List.map_fst_zip (Nat.le_of_eq h)
  rw [t.update_of_length c clauses batch setValues h, trace_map, queries_reported]
  calc
    _ = (batch.zip setValues).flatMap fun x => t.queriesFor c "" x.1 := records
    _ = ((batch.zip setValues).map (·.1)).flatMap (t.queriesFor c "") := by
      rw [List.flatMap_map]
    _ = batch.flatMap (t.queriesFor c "") := by rw [first]

/-- A record that no waiting row stands for makes the query of its binding. -/
theorem queries_updateOrWait (index : Nat) (r : UpsertRecord) (pending : List PendingInsert)
    (w : World σ) :
    (t.updateOrWait c clauses index r pending w).trace.queries = t.queriesFor c "" r.values := by
  have closed := Trace.closed_unqueried
  refine t.queries_matching_bind c (fun a => ?_) r.values w
  match a with
  | .error e => exact Leaves.pure closed _
  | .ok [] => cases t.schema.bind r.row <;> exact Leaves.pure closed _
  | .ok (d :: ds) => exact (t.unqueried_replaceAll clauses r.set (d :: ds)).map _

/-- A record makes the query of its condition unless a waiting row stands for it. -/
theorem queries_upsertRecord (index : Nat) (r : UpsertRecord) (pending : List PendingInsert)
    (w : World σ) :
    (t.upsertRecord c clauses index r pending w).trace.queries =
      t.queriesForUpsert c ⟨r, pending, t.upsertRecord c clauses index r pending w⟩ := by
  have merged := t.isOk_mergePending? c clauses r pending
  unfold queriesForUpsert upsertRecord
  cases here : t.mergePending? c clauses r pending with
  | none =>
    rw [here] at merged
    have apart : c.waitingFor? r pending = none := by simpa using merged.symm
    rw [apart]
    exact t.queries_updateOrWait c clauses index r pending w
  | some result =>
    rw [here] at merged
    have waiting : (c.waitingFor? r pending).isSome = true := by
      have := congrArg Option.isSome merged
      simpa using this.symm
    rw [if_pos waiting]
    cases result <;> rfl

/-- Each record of the first pass makes its own query, or none if a waiting row stands for it. -/
theorem queries_handledUpserts {index : Nat} {pending : List PendingInsert}
    {rs : List UpsertRecord} {w : World σ} :
    ∀ u ∈ t.handledUpserts c clauses index pending rs w,
      u.run.trace.queries = t.queriesForUpsert c u := by
  induction rs generalizing index pending w with
  | nil => exact List.forall_mem_nil _
  | cons r rs ih =>
    refine List.forall_mem_cons.2 ⟨?_, ih⟩
    exact t.queries_upsertRecord c clauses index r pending w

/-- An update or addition makes the queries of its records in turn; the insertions at the end make
none. -/
theorem queries_updateOrAdd {batch setValues : List Values} {rows : List Row}
    (hs : batch.length = setValues.length) (hr : batch.length = rows.length) (w : World σ) :
    (t.updateOrAdd c clauses batch setValues rows w).trace.queries =
      (t.handledUpserts c clauses 0 [] (upsertRecords batch setValues rows) w).flatMap
        (t.queriesForUpsert c) := by
  let rs := upsertRecords batch setValues rows
  let handled := t.handledUpserts c clauses 0 [] rs w
  let updated := t.upsertAll c clauses 0 [] rs w
  have before : updated.trace.queries = handled.flatMap (t.queriesForUpsert c) := by
    have requests := congrArg Trace.queries (t.requests_upsertAll c clauses 0 [] rs w)
    rw [Trace.queries_requests] at requests
    rw [requests, Trace.queries, List.filterMap_flatMap]
    refine List.flatMap_congr fun u hu => ?_
    show Trace.queries u.run.trace.requests = _
    rw [Trace.queries_requests]
    exact t.queries_handledUpserts c clauses u hu
  -- The insertions come last and ask nothing.
  have after : (t.insertPending updated.value.2 updated.world).trace.queries = [] :=
    t.leaves_insertPending Trace.closed_unqueried (fun _ _ => rfl) _ _
  rw [t.updateOrAdd_of_length c clauses batch setValues hs hr, trace_map, queries_reported]
  show (updated.trace ++ (_ ++ [])).queries = _
  rw [List.append_nil, Trace.queries_append, before, after, List.append_nil]

/-! ### Answers -/

/-- The store answers the query with a document at least. -/
def Finds (text : String) (s : σ) : Prop :=
  ∃ d ds, (t.backend.query t.container text s).1 = .ok (d :: ds)

/-- The answer to a question is that of the store, whose errors become those of the table. -/
theorem value_ask (text : String) (w : World σ) :
    (t.ask text w).value =
      (t.backend.query t.container text w.store).1.mapError .backend := by
  rcases t.ask_cases text w with ⟨documents, answer, value, _⟩ | ⟨e, answer, value, _⟩
  · rw [value, answer]
    rfl
  · rw [value, answer]
    rfl

/-- What follows an operation decides the result, unless the operation fails. -/
theorem value_andThen {α β : Type} (x : Operation σ (Except TableError α))
    (f : α → Operation σ (Except TableError β)) (w : World σ) :
    (andThen x f w).value =
      match (x w).value with
      | .ok a => (f a (x w).world).value
      | .error e => .error e := by
  unfold andThen
  rw [value_bind]
  cases (x w).value <;> rfl

section

variable {c} {values : Values} {f : String} (h : c.resolve values = .ok f) (w : World σ)

include h

/-- There are documents just if the store finds some by the query for the first one. -/
theorem value_contains_iff :
    (t.contains c values w).value = .ok true ↔ t.Finds (t.selectText "TOP 1 " f) w.store := by
  have value : (t.contains c values w).value =
      ((t.ask (t.selectText "TOP 1 " f) w).value.map fun ds => !ds.isEmpty) := by
    rw [← firstQuery_eq]
    show (andThen (t.filter c values) _ w).value = _
    rw [value_andThen, t.filter_of_resolve c h]
    show (andThen (t.ask (firstQuery t.id f)) _ w).value = _
    rw [value_andThen]
    cases (t.ask (firstQuery t.id f) w).value <;> rfl
  rw [value, value_ask, Finds]
  match (t.backend.query t.container (t.selectText "TOP 1 " f) w.store).1 with
  | .error e => simp [Except.mapError, Except.map]
  | .ok [] => simp [Except.mapError, Except.map]
  | .ok (d :: ds) => simp [Except.mapError, Except.map]

/-- A find has a first row just if the store finds some by the query for all. -/
theorem value_find_iff :
    (∃ cursor, (t.find c values w).value = .ok cursor ∧ cursor.hasNext.1 = true) ↔
      t.Finds (t.selectText "" f) w.store := by
  have value : (t.find c values w).value =
      ((t.ask (t.selectText "" f) w).value.map fun ds => .ofDocuments ds t.schema) := by
    have matched : (t.matching c values w).value = (t.ask (t.selectText "" f) w).value := by
      rw [← findQuery_eq, matching, value_andThen, t.filter_of_resolve c h]
    show (andThen (t.matching c values) _ w).value = _
    rw [value_andThen, matched]
    cases (t.ask (t.selectText "" f) w).value <;> rfl
  rw [value, value_ask, Finds]
  match (t.backend.query t.container (t.selectText "" f) w.store).1 with
  | .error e => simp [Except.mapError, Except.map]
  | .ok [] => simp [Except.mapError, Except.map, Cursor.ofDocuments, Cursor.hasNext, Cursor.advance]
  | .ok (d :: ds) =>
    simp [Except.mapError, Except.map, Cursor.ofDocuments, Cursor.hasNext, Cursor.advance]

end

/-! ### All operations -/

/-- A table is connected only if its name is an identifier. -/
theorem isIdentifier_of_connect {t : Table σ} {definition : TableDefinition} {config : StoreConfig}
    {backend : Backend σ} {freshIds : Nat → String}
    (h : connect definition config backend freshIds = .ok t) :
    Text.isIdentifier t.id = true := by
  obtain ⟨u, checked, h⟩ := bind_eq_ok.1 h
  obtain ⟨_, _, h⟩ := bind_eq_ok.1 h
  obtain ⟨collection, _, h⟩ := bind_eq_ok.1 h
  cases pure_eq_ok.1 h
  unfold checkIdentifier at checked
  split at checked
  · assumption
  · cases checked

/-- The queries of a table are exactly those of its conditions.  The templates are filled with the
name of the table and the filter as they are, whatever the filter is.  Every operation that takes a
condition sends the text for the filter once for each record that binds it and nothing else, except
that no query is sent for a record that a waiting row stands for.  So if the store finds a first
record just where it finds any, the table contains a record just where it finds a row. -/
theorem queries_exact {t : Table σ} {definition : TableDefinition} {config : StoreConfig}
    {backend : Backend σ} {freshIds : Nat → String}
    (connected : connect definition config backend freshIds = .ok t) (c : CompiledCondition)
    (w : World σ) :
    (∀ f, fillTemplate (queryTemplate "SELECT * FROM") t.id f = t.selectText "" f ∧
      fillTemplate (queryTemplate "SELECT TOP 1 * FROM") t.id f = t.selectText "TOP 1 " f) ∧
    (∀ values, (t.find c values w).trace.queries = t.queriesFor c "" values ∧
      (t.contains c values w).trace.queries = t.queriesFor c "TOP 1 " values) ∧
    (∀ batch, (t.delete c batch w).trace.queries = batch.flatMap (t.queriesFor c "")) ∧
    (∀ clauses batch setValues, batch.length = setValues.length →
      (t.update c clauses batch setValues w).trace.queries =
        batch.flatMap (t.queriesFor c "")) ∧
    (∀ clauses batch setValues rows, batch.length = setValues.length →
      batch.length = rows.length →
      let rs := upsertRecords batch setValues rows
      let handled := t.handledUpserts c clauses 0 [] rs w
      handled.map (·.record) = rs ∧
        (t.updateOrAdd c clauses batch setValues rows w).trace.queries =
          handled.flatMap (t.queriesForUpsert c)) ∧
    ∀ values f, c.resolve values = .ok f →
      (t.Finds (t.selectText "TOP 1 " f) w.store ↔ t.Finds (t.selectText "" f) w.store) →
      ((t.contains c values w).value = .ok true ↔
        ∃ cursor, (t.find c values w).value = .ok cursor ∧ cursor.hasNext.1 = true) := by
  have named := isIdentifier_of_connect connected
  refine ⟨fun f => ⟨?_, ?_⟩, fun values => ⟨t.queries_find c values w, t.queries_contains c values w⟩,
    fun batch => t.queries_delete c batch w,
    fun clauses batch setValues h => t.queries_update c clauses h w,
    fun clauses batch setValues rows hs hr => ⟨?_, t.queries_updateOrAdd c clauses hs hr w⟩,
    fun values f h agree => ?_⟩
  · have head : "SELECT * FROM" ++ " " = "SELECT " ++ "" ++ "* FROM " := rfl
    rw [fillTemplate_template (by decide) named, head]
    rfl
  · have head : "SELECT TOP 1 * FROM" ++ " " = "SELECT " ++ "TOP 1 " ++ "* FROM " := rfl
    rw [fillTemplate_template (by decide) named, head]
    rfl
  · exact t.map_record_handledUpserts c clauses 0 [] _ w
  · -- Both answers are read off the same store, which is taken to agree on the two queries.
    rw [t.value_contains_iff h, t.value_find_iff h, agree]

/-- A table of notes in a store that has none. -/
def connectNotes : Except TableError (Table Unit) :=
  connect ⟨"Notes", [⟨"text", .string⟩]⟩ (.ofDatabase "db") {
    query := fun _ _ _ => (.ok [], ())
    create := fun _ _ _ => (.ok (), ())
    replace := fun _ _ _ => (.ok (), ())
    delete := fun _ _ _ => (.ok (), ()) } fun n => toString n

/-- A text with both marks and a blank at its end. -/
def soughtText : String := tableMark ++ " " ++ conditionMark ++ " "

/-- The filter for the notes with this text. -/
def soughtFilter : String := "(Notes.text = '" ++ soughtText ++ "')"

/-- The marks in a filter are not filled. -/
theorem queries_exact_marks :
    ∃ t c, connectNotes = .ok t ∧
      compile "Notes" .condition (.fieldIs "text" .string "sought" .string) = .ok c ∧
      c.resolve [("sought", .string soughtText)] = .ok soughtFilter ∧
        fillTemplate (queryTemplate "SELECT * FROM") "Notes" soughtFilter =
          "SELECT * FROM Notes WHERE " ++ soughtFilter ∧
        (t.find c [("sought", .string soughtText)] ⟨(), 0⟩).trace.queries =
          [("/dbs/db/colls/Notes", "SELECT * FROM Notes WHERE " ++ soughtFilter)] := by
  obtain ⟨t, connected, id, container⟩ : ∃ t, connectNotes = .ok t ∧ t.id = "Notes" ∧
      t.container = "/dbs/db/colls/Notes" :=
    ⟨_, rfl, rfl, rfl⟩
  obtain ⟨c, compiled⟩ := exists_compile_fieldIs "Notes" "text" .string "sought" .string
  have quoted : "(" ++ ("Notes" ++ "." ++ "text") ++ " = " ++
      Value.literal (.string soughtText) .string ++ ")" = soughtFilter := by
    decide
  have bound : Members.get? "sought" [("sought", Value.string soughtText)] =
      some (.string soughtText) := if_pos rfl
  have resolved : c.resolve [("sought", .string soughtText)] = .ok soughtFilter := by
    rw [resolve_of_fieldIs compiled bound, quoted]
  have text : t.selectText "" soughtFilter = "SELECT * FROM Notes WHERE " ++ soughtFilter := by
    have given : soughtFilter ≠ "" := by decide
    rw [selectText, id, if_neg given, ← String.append_assoc]
    rfl
  obtain ⟨filled, reads, _⟩ := queries_exact connected c ⟨(), 0⟩
  refine ⟨t, c, connected, compiled, resolved, ?_, ?_⟩
  · rw [← text, ← id]
    exact (filled soughtFilter).1
  · rw [(reads _).1, queriesFor, resolved, ← container, ← text]

end Table

end StreamTable
