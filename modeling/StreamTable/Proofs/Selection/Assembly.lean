import StreamTable.Proofs.Selection.Items

/-!
# Selections as query text

`Selection.parts` lists the texts of a selection without compiling it: every column, key and
condition is written by itself from its own expression.

A compiled selection has a text for the runtime values that bind its clauses.  The text is then the
query of these parts (`Selection.text_of_compile`), and every expression that stands in the query
gives the same text when it is compiled and bound by itself.
-/

namespace StreamTable.Selection

variable (s : Selection)

/-- The columns with their output names. -/
def named : List (String × SelectColumn) := s.columns.zipIdx.map fun (c, i) => (c.name i, c)

/-- The texts that a selection on a table consists of. -/
def parts (table : String) (values : Values) (filter : String) : QueryParts :=
  let write := Expr.writtenIn table values .selection
  { table, filter
    items := s.named.map (if s.hasLastValue then selectedText write else plainText write)
    subSelect :=
      if s.hasLastValue then
        some (contributed (projectedText? write) s.named, contributed (matchedText? write) s.named)
      else none
    keys := s.groupBy.map (Expr.writtenIn table values .groupBy)
    having := s.having.map (Expr.writtenIn table values .having)
    sortKeys := s.orderBy.map fun k =>
      k.expr.writtenIn table values .orderBy ++ " " ++ k.order.keyword
    limit := s.limit
    offset := s.offset }

/-- The expressions that stand in the query, each with its clause.  Of the timestamps only the first
one does. -/
def expressions : List (Clause × Expr) :=
  s.columns.map (fun c => (.selection, c.namedBy))
    ++ (s.columns.findSome? (·.timestamp?)).toList.map (.selection, ·)
    ++ s.groupBy.map (.groupBy, ·) ++ s.having.toList.map (.having, ·)
    ++ s.orderBy.map fun k => (.orderBy, k.expr)

variable {s}

/-! ### Output names -/

theorem name_of_outputName {c : SelectColumn} {position : Nat} {name : String}
    (h : c.outputName position = .ok name) : c.name position = name := by
  unfold SelectColumn.outputName at h
  rw [SelectColumn.name]
  cases hr : c.rename with
  | none =>
    rw [hr] at h
    exact Except.ok.inj h
  | some given =>
    rw [hr] at h
    obtain ⟨_, _, h⟩ := bind_eq_ok.1 h
    exact pure_eq_ok.1 h

theorem named_of_withNames {named : List (String × SelectColumn)}
    (h : SelectColumn.withNames 0 s.columns = .ok named) : s.named = named := by
  obtain ⟨length, names⟩ := SelectColumn.withNames_eq_ok h
  refine List.ext_getElem ?_ fun i hi hj => ?_
  · simp [Selection.named, length]
  · have bound : i < s.columns.length := length ▸ hj
    obtain ⟨name, hname, output⟩ := names i _ (List.getElem?_eq_getElem bound)
    obtain ⟨_, here⟩ := List.getElem?_eq_some_iff.1 hname
    rw [here]
    have own := name_of_outputName output
    simp only [Selection.named, List.getElem_map, List.getElem_zipIdx]
    rw [own]

theorem map_snd_named : s.named.map (·.2) = s.columns := by
  rw [named, List.map_map]
  exact List.zipIdx_map_fst 0 s.columns

/-! ### The clauses -/

/-- The columns of a selection are filled to its items. -/
theorem filledTo_of_compileColumns {table : String} (values : Values) (filter : String)
    {named : List (String × SelectColumn)} {x : CompiledColumns}
    (hn : SelectColumn.withNames 0 s.columns = .ok named)
    (h : (if s.hasLastValue then compileLastValue table named else compilePlain table named) =
      .ok x) :
    x.FilledTo table values (s.parts table values filter).items
      (s.parts table values filter).subSelect
      (s.columns.map (·.namedBy) ++ (s.columns.findSome? (·.timestamp?)).toList) := by
  obtain rfl := named_of_withNames hn
  by_cases hs : s.hasLastValue = true
  · rw [if_pos hs] at h
    -- The named columns are those of the selection, so their expressions and timestamps are.
    have filled := filledTo_of_compileLastValue values (any_isLastValue hs hn) h
    have named : s.named.map (·.2.namedBy) = s.columns.map (·.namedBy) := by
      rw [← map_snd_named, List.map_map]
      rfl
    have stamp : s.named.findSome? (·.2.timestamp?) = s.columns.findSome? (·.timestamp?) := by
      rw [← map_snd_named, List.findSome?_map]
      rfl
    rw [named, stamp] at filled
    simpa only [parts, if_pos hs] using filled
  · rw [if_neg hs] at h
    have filled := filledTo_of_compilePlain values h
    -- Without a last value no column has a timestamp, and each is named by its own expression.
    have other : ∀ c ∈ s.columns, c.expr.isLastValue = false := by
      simpa [hasLastValue] using hs
    have own : s.columns.map (·.expr) = s.columns.map (·.namedBy) :=
      List.map_congr_left fun c hc => (SelectColumn.of_isLastValue_eq_false (other c hc)).2.symm
    have named : s.named.map (·.2.expr) = s.columns.map (·.namedBy) := by
      rw [← own, ← map_snd_named, List.map_map]
      rfl
    have stamp : s.columns.findSome? (·.timestamp?) = none :=
      List.findSome?_eq_none_iff.2 fun c hc =>
        (SelectColumn.of_isLastValue_eq_false (other c hc)).1
    rw [named] at filled
    rw [stamp, Option.toList_none, List.append_nil]
    simpa only [parts, if_neg hs] using filled

theorem ite_bind {ε α β : Type} {c : Prop} [Decidable c] {x y : Except ε α}
    {f : α → Except ε β} : (if c then x >>= f else y >>= f) = (if c then x else y) >>= f := by
  split <;> rfl

theorem compile_eq_ok {table : String} {compiled : CompiledSelection}
    (h : s.compile table = .ok compiled) :
    ∃ named x groupBy having orderBy, SelectColumn.withNames 0 s.columns = .ok named ∧
      (if s.hasLastValue then compileLastValue table named else compilePlain table named) = .ok x ∧
      compileKeys (StreamTable.compile table .groupBy) s.groupBy = .ok groupBy ∧
      compileHaving table s.having = .ok having ∧
      compileKeys (compileSortKey table) s.orderBy = .ok orderBy ∧
      (⟨table, x.select, x.subSelect, groupBy, having, orderBy, s.limit, s.offset, x.output⟩ :
        CompiledSelection) = compiled := by
  unfold Selection.compile at h
  simp only [ite_bind, bind_eq_ok] at h
  obtain ⟨_, _, h⟩ := h
  split at h
  · obtain ⟨_, refused, _⟩ := bind_eq_ok.1 h
    exact absurd refused (throw_ne_ok _ _)
  · simp only [bind_eq_ok, pure_eq_ok] at h
    obtain ⟨named, hn, x, hx, g, hg, v, hv, o, ho, rfl⟩ := h
    exact ⟨named, x, g, v, o, hn, hx, hg, hv, ho, rfl⟩

/-- A compiled selection is filled to the clauses of its parts, and if it is bound, so is each of its
expressions by itself. -/
theorem filledClauses_of_compile {table : String} (values : Values) (filter : String)
    {compiled : CompiledSelection} (h : s.compile table = .ok compiled) :
    (∀ c ∈ compiled.clauses, c.alwaysTrue = false) ∧
      (compiled.filledClauses values filter).text = (s.parts table values filter).text ∧
      ((∀ c ∈ compiled.clauses, c.Bound values) →
        ∀ p ∈ s.expressions, p.1 ≠ .condition ∧ p.2.BoundIn table values p.1) := by
  obtain ⟨named, x, groupBy, having, orderBy, hn, hx, hg, hh, ho, rfl⟩ := compile_eq_ok h
  have columns := filledTo_of_compileColumns values filter hn hx
  obtain ⟨plainKeys, keys, boundKeys⟩ := compileKeys_eq_ok values
    (fun e c hc => CompiledCondition.filled_of_compile hc (by decide)) hg
  obtain ⟨plainHaving, condition, boundHaving⟩ := compileHaving_eq_ok values hh
  obtain ⟨plainOrder, order, boundOrder⟩ := compileKeys_eq_ok values
    (fun k c hc => (compileSortKey_eq_ok hc).1) ho
  refine ⟨?_, ?_, fun bound p hp => ?_⟩
  · exact CompiledSelection.forall_mem_clauses.2
      ⟨columns.plain, columns.plain_subSelect, plainKeys, plainHaving, plainOrder⟩
  · rw [← QueryParts.text_clauses _ columns.joins]
    refine congrArg SelectQuery.text ?_
    simp only [CompiledSelection.filledClauses, columns.select, columns.subSelect, keys, condition,
      order]
    rfl
  · obtain ⟨boundSelect, boundSub, boundKey, boundCondition, boundSort⟩ :=
      CompiledSelection.forall_mem_clauses.1 bound
    -- An expression is one of the columns, the timestamp, a key of the groups, the condition on
    -- them or a key of the order.
    have named := columns.bound boundSelect boundSub
    simp only [expressions, List.mem_append, List.mem_map] at hp
    rcases hp with (((⟨c, hc, rfl⟩ | ⟨time, ht, rfl⟩) | ⟨e, he, rfl⟩) | ⟨e, he, rfl⟩) | ⟨k, hk, rfl⟩
    · refine ⟨Clause.noConfusion, named _ (List.mem_append_left _ ?_)⟩
      exact List.mem_map_of_mem hc
    · exact ⟨Clause.noConfusion, named _ (List.mem_append_right _ ht)⟩
    · exact ⟨Clause.noConfusion, boundKeys boundKey e he⟩
    · exact ⟨Clause.noConfusion, boundHaving boundCondition e (Option.mem_toList.1 he)⟩
    · obtain ⟨c, hc, bound⟩ := boundOrder boundSort k hk
      exact ⟨Clause.noConfusion, (compileSortKey_eq_ok hc).2 bound⟩

/-- A compiled selection has a text exactly if its clauses are bound: the query of its parts, whose
expressions have the same texts when each is compiled and bound by itself. -/
theorem text_of_compile {table : String} {compiled : CompiledSelection}
    (h : s.compile table = .ok compiled) (values : Values) (filter : String) :
    ((∃ text, compiled.resolve values filter = .ok text) ↔
        ∀ c ∈ compiled.clauses, c.Bound values) ∧
      ∀ text, compiled.resolve values filter = .ok text →
        text = (s.parts table values filter).text ∧
          ∀ p ∈ s.expressions, ∃ c, StreamTable.compile table p.1 p.2 = .ok c ∧
            c.resolve values = .ok (p.2.writtenIn table values p.1) := by
  obtain ⟨plain, filled, bound⟩ := filledClauses_of_compile values filter h
  constructor
  · simp only [CompiledSelection.resolve_eq_ok_iff plain]
    exact ⟨fun ⟨_, resolved⟩ => resolved.1, fun resolved => ⟨_, resolved, rfl⟩⟩
  · intro text resolved
    obtain ⟨boundAll, rfl⟩ := (CompiledSelection.resolve_eq_ok_iff plain).1 resolved
    refine ⟨filled, fun p hp => ?_⟩
    obtain ⟨clause, own⟩ := bound boundAll p hp
    exact own.resolve clause

/-- Two last values, a key and an aggregate, with all clauses. -/
def rankedQuotes : Selection where
  columns := [
    ⟨.field "symbol" .string, none⟩,
    ⟨.call (some "incrementalAggregator") "last" [.field "price" .double, .field "time" .long],
      none⟩,
    ⟨.call none "sum" [.math .mul (.field "volume" .long) (.attribute "lot" .long)], some "total"⟩,
    ⟨.call (some "incrementalAggregator") "last" [.field "fee" .double, .field "day" .long], none⟩]
  groupBy := [.field "symbol" .string]
  having := some (.compare .gt (.call none "count" []) (.attribute "least" .long))
  orderBy := [⟨.field "price" .double, .descending⟩, ⟨.field "symbol" .string, .ascending⟩]
  offset := some 3

theorem text_of_compile_rankedQuotes :
    ∃ compiled text, rankedQuotes.compile "Stock" = .ok compiled ∧
      compiled.resolve [("lot", .long 100), ("least", .long 2)] "(Stock.symbol = 'AB')" =
        .ok text ∧
      text = "SELECT Stock.symbol AS symbol, Stock.price AS price, MAX(t2.total) AS total, " ++
        "Stock.fee AS fee FROM Stock, (SELECT Stock.symbol AS symbol, MAX(Stock.time) AS time, " ++
        "SUM((Stock.volume * 100)) AS total FROM Stock WHERE (Stock.symbol = 'AB') " ++
        "GROUP BY Stock.symbol) AS t2 WHERE Stock.symbol = t2.symbol AND Stock.time = t2.time " ++
        "AND (Stock.symbol = 'AB') GROUP BY Stock.symbol HAVING (COUNT(1) > 2) " ++
        "ORDER BY Stock.price DESC, Stock.symbol ASC OFFSET 3 LIMIT 2147483647" := by
  obtain ⟨compiled, text, compile, resolved⟩ : ∃ compiled text,
      rankedQuotes.compile "Stock" = .ok compiled ∧
        compiled.resolve [("lot", .long 100), ("least", .long 2)] "(Stock.symbol = 'AB')" =
          .ok text :=
    ⟨_, _, rfl, rfl⟩
  refine ⟨compiled, text, compile, resolved, ?_⟩
  rw [((text_of_compile compile _ _).2 text resolved).1]
  decide +kernel

end StreamTable.Selection
