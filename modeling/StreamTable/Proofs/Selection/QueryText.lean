import StreamTable.Selection.Resolve
import StreamTable.Proofs.Condition.Rendering

/-!
# The text of a query

`QueryParts` are the lists of texts that a query consists of, and `QueryParts.text` writes them in
the order of the query language: a list without items leaves no trace.

A compiled selection is bound clause by clause.  It has a text exactly if all of its clauses are
bound, and then the text is that of its clauses with all holes filled
(`CompiledSelection.resolve_eq_ok_iff`).
-/

namespace StreamTable

/-- The items of a list behind a keyword, with a text between every two; nothing if there are
none. -/
def listed (keyword separator : String) : List String → String
  | [] => ""
  | x :: xs => keyword ++ separator.intercalate (x :: xs)

/-- What a query consists of. -/
structure QueryParts where
  table : String
  items : List String
  /-- The items of the sub-select, and the equations that join it with the table. -/
  subSelect : Option (List String × List String)
  /-- The condition on the records, empty if there is none. -/
  filter : String
  keys : List String
  having : Option String
  sortKeys : List String
  limit : Option UInt64
  offset : Option UInt64

namespace QueryParts

variable (q : QueryParts)

/-- The filter, if it says anything. -/
def filters : List String := if q.filter = "" then [] else [q.filter]

/-- The equations of the join, if there is one. -/
def equations : List String := q.subSelect.elim [] (·.2)

/-- The sub-select behind the table. -/
def subSelectText : String :=
  match q.subSelect with
  | none => ""
  | some (inner, _) =>
    ", (SELECT " ++ ", ".intercalate inner ++ " FROM " ++ q.table
      ++ listed " WHERE " " AND " q.filters ++ listed " GROUP BY " ", " q.keys ++ ") AS t2"

/-- The page, if a limit or an offset is given. -/
def pageText : String :=
  match q.offset, q.limit with
  | none, none => ""
  | some o, none => " OFFSET " ++ toString o.toNat ++ " LIMIT 2147483647"
  | none, some l => " OFFSET 0 LIMIT " ++ toString l.toNat
  | some o, some l => " OFFSET " ++ toString o.toNat ++ " LIMIT " ++ toString l.toNat

/-- The query. -/
def text : String :=
  "SELECT " ++ ", ".intercalate q.items ++ " FROM " ++ q.table ++ q.subSelectText
    ++ listed " WHERE " " AND " (q.equations ++ q.filters) ++ listed " GROUP BY " ", " q.keys
    ++ q.having.elim "" (" HAVING " ++ ·) ++ listed " ORDER BY " ", " q.sortKeys ++ q.pageText

/-- The texts of a list of keys, if there are any. -/
def joined? (keys : List String) : Option String :=
  if keys = [] then none else some (", ".intercalate keys)

/-- The clauses that the parts are written in. -/
def clauses : SelectQuery where
  table := q.table
  select := ", ".intercalate q.items
  subSelect := q.subSelect.map fun s => (", ".intercalate s.1, " AND ".intercalate s.2)
  filter := q.filter
  groupBy := joined? q.keys
  having := q.having
  orderBy := joined? q.sortKeys
  limit := q.limit
  offset := q.offset

theorem clause_joined? (keyword : String) (keys : List String) :
    SelectQuery.clause keyword (joined? keys) = listed keyword ", " keys := by
  cases keys <;> rfl

theorem clause_nonEmpty?_filter :
    SelectQuery.clause " WHERE " (SelectQuery.nonEmpty? q.filter) =
      listed " WHERE " " AND " q.filters := by
  rw [SelectQuery.nonEmpty?, filters]
  by_cases h : q.filter = ""
  · simp [h, SelectQuery.clause, listed]
  · simp [h, SelectQuery.clause, listed]

/-- The join stands before the filter. -/
theorem clause_predicate? (joins : ∀ s, q.subSelect = some s → s.2 ≠ []) :
    SelectQuery.clause " WHERE " q.clauses.predicate? =
      listed " WHERE " " AND " (q.equations ++ q.filters) := by
  cases hs : q.subSelect with
  | none =>
    have none : q.clauses.predicate? = SelectQuery.nonEmpty? q.filter := by
      rw [SelectQuery.predicate?, clauses, hs]
      cases SelectQuery.nonEmpty? q.filter <;> rfl
    rw [none, clause_nonEmpty?_filter, equations, hs]
    rfl
  | some s =>
    obtain ⟨e, es, he⟩ := List.exists_cons_of_ne_nil (joins s hs)
    -- The filter comes last, behind the comparisons of the join.
    by_cases h : q.filter = ""
    · have filtered : SelectQuery.nonEmpty? q.filter = none := by simp [SelectQuery.nonEmpty?, h]
      rw [SelectQuery.predicate?, clauses, hs, equations, hs, filters, if_pos h, filtered]
      simp [SelectQuery.clause, he, listed]
    · have filtered : SelectQuery.nonEmpty? q.filter = some q.filter := by
        simp [SelectQuery.nonEmpty?, h]
      have both : " AND ".intercalate (e :: es ++ [q.filter]) =
          " AND ".intercalate (e :: es) ++ " AND " ++ q.filter := by
        rw [String.intercalate_append_of_ne_nil (List.cons_ne_nil e es) (List.cons_ne_nil _ _),
          String.intercalate_singleton]
      rw [SelectQuery.predicate?, clauses, hs, equations, hs, filters, if_neg h, filtered]
      simp only [Option.map_some, Option.elim_some, SelectQuery.clause, he]
      rw [← both]
      rfl

theorem pageText_clauses : q.clauses.pageText = q.pageText := by
  have first : " OFFSET " ++ (Nat.repr 0 ++ " LIMIT ") = " OFFSET 0 LIMIT " := by decide
  have last : " LIMIT " ++ Nat.repr 2147483647 = " LIMIT 2147483647" := by decide
  rw [SelectQuery.pageText, pageText, clauses]
  cases q.offset with
  | none =>
    cases q.limit with
    | none => rfl
    | some l => simp [String.append_assoc, ← first]
  | some o =>
    cases q.limit with
    | none => simp [String.append_assoc, SelectQuery.unboundedLimit, last]
    | some l => simp

theorem subSelectText_clauses : q.clauses.subSelectText = q.subSelectText := by
  rw [SelectQuery.subSelectText, subSelectText]
  cases hs : q.subSelect with
  | none => simp [clauses, hs]
  | some s =>
    simp only [clauses, hs, Option.map_some, clause_nonEmpty?_filter, clause_joined?]
    rw [String.append_assoc]
    rfl

/-- The clauses are put together to the text of the parts. -/
theorem text_clauses (joins : ∀ s, q.subSelect = some s → s.2 ≠ []) : q.clauses.text = q.text := by
  have keys : SelectQuery.clause " GROUP BY " q.clauses.groupBy = listed " GROUP BY " ", " q.keys :=
    clause_joined? _ _
  have sortKeys : SelectQuery.clause " ORDER BY " q.clauses.orderBy =
      listed " ORDER BY " ", " q.sortKeys :=
    clause_joined? _ _
  have having : SelectQuery.clause " HAVING " q.clauses.having =
      q.having.elim "" (" HAVING " ++ ·) := by
    rw [clauses]
    cases q.having <;> rfl
  unfold SelectQuery.text
  rw [q.subSelectText_clauses, q.clause_predicate? joins, keys, having, sortKeys,
    q.pageText_clauses]
  rfl

end QueryParts

/-! ### Binding the clauses -/

namespace CompiledSelection

variable {s : CompiledSelection} {values : Values} {filter : String}

/-- The clauses with all holes filled. -/
def filledClauses (s : CompiledSelection) (values : Values) (filter : String) : SelectQuery where
  table := s.table
  select := s.select.filled values
  subSelect := s.subSelect.map fun sub => (sub.inner.filled values, sub.join.filled values)
  filter := filter
  groupBy := s.groupBy.map (·.filled values)
  having := s.having.map (·.filled values)
  orderBy := s.orderBy.map (·.filled values)
  limit := s.limit
  offset := s.offset

theorem resolveClause_eq_ok_iff {clause : Option CompiledCondition} {text? : Option String}
    (plain : ∀ c ∈ clause, c.alwaysTrue = false) :
    resolveClause values clause = .ok text? ↔
      (∀ c ∈ clause, c.Bound values) ∧ clause.map (·.filled values) = text? := by
  cases clause with
  | none => simp [resolveClause]
  | some c =>
    simp [resolveClause, map_eq_ok, CompiledCondition.resolve_eq_ok_iff (plain c rfl), and_assoc]

theorem resolveSubSelect_eq_ok_iff {sub : Option SubSelect} {texts : Option (String × String)}
    (plain : ∀ t ∈ sub, t.inner.alwaysTrue = false ∧ t.join.alwaysTrue = false) :
    resolveSubSelect values sub = .ok texts ↔
      (∀ t ∈ sub, t.inner.Bound values ∧ t.join.Bound values) ∧
        sub.map (fun t => (t.inner.filled values, t.join.filled values)) = texts := by
  cases sub with
  | none => simp [resolveSubSelect]
  | some t =>
    obtain ⟨inner, join⟩ := plain t rfl
    simp [resolveSubSelect, bind_eq_ok, map_eq_ok, CompiledCondition.resolve_eq_ok_iff inner,
      CompiledCondition.resolve_eq_ok_iff join, and_assoc]

theorem forall_mem_clauses {p : CompiledCondition → Prop} :
    (∀ c ∈ s.clauses, p c) ↔
      p s.select ∧ (∀ t ∈ s.subSelect, p t.inner ∧ p t.join) ∧ (∀ c ∈ s.groupBy, p c) ∧
        (∀ c ∈ s.having, p c) ∧ ∀ c ∈ s.orderBy, p c := by
  obtain ⟨table, select, subSelect, groupBy, having, orderBy, limit, offset, output⟩ := s
  cases subSelect <;> cases groupBy <;> cases having <;> cases orderBy <;>
    simp [clauses, and_assoc]

/-- A selection has a text exactly if all of its clauses are bound: the text of the clauses. -/
theorem resolve_eq_ok_iff {text : String} (plain : ∀ c ∈ s.clauses, c.alwaysTrue = false) :
    s.resolve values filter = .ok text ↔
      (∀ c ∈ s.clauses, c.Bound values) ∧ (s.filledClauses values filter).text = text := by
  obtain ⟨select, subSelect, groupBy, having, orderBy⟩ := forall_mem_clauses.1 plain
  rw [forall_mem_clauses, resolve, resolveClauses]
  simp only [bind_eq_ok, pure_eq_ok, resolveClause_eq_ok_iff groupBy,
    CompiledCondition.resolve_eq_ok_iff select, resolveSubSelect_eq_ok_iff subSelect,
    resolveClause_eq_ok_iff having, resolveClause_eq_ok_iff orderBy]
  constructor
  · rintro ⟨_, ⟨_, ⟨hg, rfl⟩, _, ⟨hs, rfl⟩, _, ⟨ht, rfl⟩, _, ⟨hh, rfl⟩, _, ⟨ho, rfl⟩, rfl⟩, rfl⟩
    exact ⟨⟨hs, ht, hg, hh, ho⟩, rfl⟩
  · rintro ⟨⟨hs, ht, hg, hh, ho⟩, rfl⟩
    exact ⟨_, ⟨_, ⟨hg, rfl⟩, _, ⟨hs, rfl⟩, _, ⟨ht, rfl⟩, _, ⟨hh, rfl⟩, _, ⟨ho, rfl⟩, rfl⟩, rfl⟩

end CompiledSelection

end StreamTable
