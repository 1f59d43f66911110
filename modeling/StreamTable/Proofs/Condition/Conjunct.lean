import StreamTable.Proofs.Condition.Structure
import StreamTable.Proofs.Query.Nesting
import StreamTable.Selection.Resolve

/-!
# Conditions as conjuncts

A query adds no parentheses around a filter.  It needs none: whatever the attributes of the stream
are bound to, the parentheses of a resolved condition match, and its operators stand inside of them
(`grouped_of_compile`).  So the filter can be put behind a keyword or the `AND` of a join, and what
stands before and after it is read as it would be without it.

A compiled expression is an operand of the operator above it (`Target.Emits.isOperand`): a literal
without blanks, a path, or a text in parentheses of its own.
-/

namespace StreamTable

open Token

/-! ### Leaves -/

theorem Token.nesting_of_isSilent {t : Token} (h : t.isSilent = true) : t.nesting = 0 := by
  cases t with
  | opening | closing => cases h
  | word _ | comparison _ | text _ | datum _ | mark _ => rfl

theorem Token.Silent.isOperand {s : String} (h : Silent s.toList) (qualified : Bool) :
    IsOperand qualified s := by
  obtain ⟨ts, scanned, silent⟩ := silent_iff.1 h
  refine ⟨ts, scanned, .leaf ?_ ?_ ?_⟩
  · intro t ht
    exact nesting_of_isSilent (silent t ht)
  · rintro t ht rfl
    exact absurd (silent _ ht) (by decide)
  · intro _ t ht
    exact isStructural_of_isSilent (silent t ht)

/-- No keyword has a point. -/
theorem Token.isStructural_word_of_mem {cs : List Char} (h : '.' ∈ cs) :
    (Token.word cs).isStructural = false := by
  have pointless : keywords.all (!·.contains '.') = true := by decide
  rw [← Bool.not_eq_true]
  intro structural
  have none := List.all_eq_true.1 pointless _ (List.contains_iff_mem.1 structural)
  have point : '.' ∈ cs.map Char.toUpper := List.mem_map.2 ⟨'.', h, by decide⟩
  simp [point] at none

namespace Leaf

variable {table : String} (ht : Text.isIdentifier table = true) (clause : Clause)
  (value : String → Value)

include ht

theorem isOperand_path {name : String} (hn : Text.isIdentifier name = true) :
    IsOperand clause.qualifiesFields (clause.fieldPath table name) := by
  refine ⟨_, tokens?_path ht hn clause, .leaf ?_ ?_ ?_⟩
  · exact List.forall_mem_singleton.2 rfl
  · exact List.forall_mem_singleton.2 (by simp)
  · intro qualified
    have notHaving : clause ≠ .having := by simpa [Clause.qualifiesFields] using qualified
    refine List.forall_mem_singleton.2 (isStructural_word_of_mem ?_)
    rw [Clause.fieldPath, if_neg notHaving]
    simp

theorem isOperand_rendered {l : Leaf} (hl : l.isNamed = true) :
    IsOperand clause.qualifiesFields (l.rendered (clause.fieldPath table) value) := by
  cases l with
  | constant v => exact (v.silent_literal _).isOperand _
  | «attribute» name t => exact ((value name).silent_literal t).isOperand _
  | field name t => exact isOperand_path ht clause hl

theorem isOperand_renderedPattern {l : Leaf} (hl : l.isNamed = true) :
    IsOperand clause.qualifiesFields (l.renderedPattern (clause.fieldPath table) value) := by
  cases l with
  | constant v => exact v.silent_textLiteral.isOperand _
  | «attribute» name t => exact (value name).silent_textLiteral.isOperand _
  | field name t => exact isOperand_path ht clause hl

end Leaf

/-! ### Operands -/

namespace Token

variable {before l between r : String}

theorem opens_contains : Opens "CONTAINS(" :=
  ⟨by decide, [.word "CONTAINS".toList], by decide, by decide⟩

theorem opens_aggregate (a : Aggregate) : Opens (a.keyword ++ "(") := by
  refine ⟨by cases a <;> decide, [.word a.keyword.toList], ?_, ?_⟩
  · cases a <;> decide
  · cases a <;> decide

/-- Two texts with a fixed one between them, in parentheses. -/
theorem isOperand_operands (hb : Opens before) (hl : Closed l) (hm : Closed between)
    (hr : Closed r) (middle : between.toList.head?.any isDelimiter = true ∧
      between.toList.getLast?.any isDelimiter = true) (qualified : Bool) :
    IsOperand qualified (before ++ l ++ between ++ r ++ ")") := by
  have left := hl.append hm (.inr middle.1)
  have seam : Seam (l ++ between).toList r.toList := by
    rw [String.toList_append]
    exact .inl (getLast?_append_any _ middle.2)
  have enclosed := (left.append hr seam).isOperand hb qualified
  simpa [String.append_assoc] using enclosed

end Token

/-- A text search for a leaf. -/
theorem Fragment.isOperand_search {table : String} (ht : Text.isIdentifier table = true)
    {clause : Clause} (value : String → Value) {f : Fragment} {p : Leaf}
    (hf : Closed (f.template.filled (Slot.rendered value))) (hp : p.isNamed = true) :
    IsOperand clause.qualifiesFields
      ((f.search (p.parameter table clause)).template.filled (Slot.rendered value)) := by
  have pattern := Leaf.isOperand_renderedPattern ht clause value hp
  rw [filled_search, Slot.rendered_pattern]
  exact isOperand_operands opens_contains hf (closed_of_tokens? (by rfl) (by decide))
    pattern.closed (by decide) _

/-- A fragment is filled to an operand, whatever values it is filled with. -/
theorem Target.Emits.isOperand {c : Target} (ht : Text.isIdentifier c.table = true) {e : Expr}
    {f : Fragment} (h : c.Emits e f) (named : ∀ l ∈ e.leaves, l.isNamed = true)
    (value : String → Value) :
    IsOperand c.clause.qualifiesFields (f.template.filled (Slot.rendered value)) := by
  -- Every constructor but the first puts its own parentheses around its operands.
  induction h with
  | leaf isLeaf =>
    rw [Expr.leaves_of_leaf? isLeaf] at named
    rw [Fragment.filled_leaf, Slot.rendered_leaf]
    exact Leaf.isOperand_rendered ht _ value (named _ (List.mem_singleton_self _))
  | @compare op _ _ _ _ _ _ _ ihl ihr =>
    obtain ⟨hl, hr⟩ := List.forall_mem_append.1 named
    have symbol : Closed (" " ++ op.symbol ++ " ") := by
      cases op <;> exact closed_of_tokens? (by rfl) (by decide)
    rw [Fragment.filled_binary]
    exact isOperand_operands opens_parenthesis (ihl hl).closed symbol (ihr hr).closed
      (by cases op <;> decide) _
  | and _ _ _ ihl ihr | or _ _ _ ihl ihr =>
    obtain ⟨hl, hr⟩ := List.forall_mem_append.1 named
    rw [Fragment.filled_binary]
    exact isOperand_operands opens_parenthesis (ihl hl).closed
      (closed_of_tokens? (by rfl) (by decide)) (ihr hr).closed (by decide) _
  | @math op _ _ _ _ _ _ _ ihl ihr =>
    obtain ⟨hl, hr⟩ := List.forall_mem_append.1 named
    have symbol : Closed (" " ++ op.symbol ++ " ") := by
      cases op <;> exact closed_of_tokens? (by rfl) (by decide)
    rw [Fragment.filled_binary]
    exact isOperand_operands opens_parenthesis (ihl hl).closed symbol (ihr hr).closed
      (by cases op <;> decide) _
  | not _ _ ih =>
    have negated : Closed ("NOT " ++ _) :=
      (closed_of_tokens? (by rfl) (by decide) : Closed "NOT ").append (ih named).closed
        (.inl (by decide))
    have enclosed := negated.isOperand opens_parenthesis c.clause.qualifiesFields
    simpa [← String.append_assoc] using enclosed
  | isNull _ ih =>
    have tested : Closed (_ ++ " IS NULL") :=
      (ih named).closed.append (closed_of_tokens? (by rfl) (by decide)) (.inr (by decide))
    have enclosed := tested.isOperand opens_parenthesis c.clause.qualifiesFields
    simpa [String.append_assoc] using enclosed
  | contains _ isLeaf ih =>
    obtain ⟨hx, hp⟩ := List.forall_mem_append.1 named
    rw [Expr.leaves_of_leaf? isLeaf] at hp
    exact Fragment.isOperand_search ht value (ih hx).closed (hp _ List.mem_cons_self)
  | textSearch _ isLeaf ih =>
    obtain ⟨hx, hp⟩ := List.forall_mem_append.1 named
    rw [Expr.leavesOfAll, Expr.leavesOfAll, List.append_nil, Expr.leaves_of_leaf? isLeaf] at hp
    exact Fragment.isOperand_search ht value (ih hx).closed (hp _ List.mem_cons_self)
  | @aggregate _ a x _ _ _ _ _ _ ih =>
    have argument : ∀ l ∈ x.leaves, l.isNamed = true := by
      simpa [Expr.leaves, Expr.leavesOfAll] using named
    simp only [Template.filled_append, Template.filled_text]
    exact (ih argument).closed.isOperand (opens_aggregate a) _
  | countAll _ _ =>
    have one : Closed "1" := closed_of_tokens? (by rfl) (by decide)
    simp only [Template.filled_append, Template.filled_text]
    exact one.isOperand (opens_aggregate .count) _

/-- With all attributes of the stream bound, a condition resolves to an operand, or to nothing. -/
theorem exists_isOperand_of_compile {table : String} {clause : Clause} {e : Expr}
    {c : CompiledCondition} (h : compile table clause e = .ok c)
    (ht : Text.isIdentifier table = true) (named : ∀ l ∈ e.leaves, l.isNamed = true)
    {values : Values} (bound : ∀ a ∈ e.streamAttributes, (values.get? a).isSome) :
    ∃ text, c.resolve values = .ok text ∧ IsOperand clause.qualifiesFields text := by
  cases hc : c.alwaysTrue with
  | true =>
    have nothing : Silent "".toList := by decide
    exact ⟨"", by rw [CompiledCondition.resolve, if_pos hc], nothing.isOperand _⟩
  | false =>
    obtain ⟨f, hf, rfl⟩ := emits_of_compile h hc
    exact ⟨_, hf.resolve bound, hf.isOperand ht named fun a => (values.get? a).getD .null⟩

/-! ### Filters in a query -/

namespace Token

theorem head?_append_any {p : Char → Bool} {s : String} (h : s.toList.head?.any p = true)
    (t : String) : (s ++ t).toList.head?.any p = true := by
  rw [String.toList_append, List.head?_append]
  cases hs : s.toList.head? with
  | none => simp [hs] at h
  | some c => simpa [hs] using h

/-- The text is empty or begins with a delimiter. -/
def Follows (s : String) : Prop := s = "" ∨ s.toList.head?.any isDelimiter = true

theorem Follows.append {s t : String} (hs : Follows s) (ht : Follows t) : Follows (s ++ t) := by
  obtain rfl | first := hs
  · rwa [String.empty_append]
  · exact .inr (head?_append_any first t)

/-- A text between two others that it cannot run into. -/
theorem tokens?_spliced {before text after : String} {ts us vs : List Token}
    (hb : tokens? before.toList = some us) (ht : tokens? text.toList = some ts)
    (ha : tokens? after.toList = some vs) (last : before.toList.getLast?.any isDelimiter = true)
    (follows : Follows after) :
    tokens? (before ++ text ++ after).toList = some (us ++ ts ++ vs) := by
  have opened := tokens?_append hb ht (.inl last)
  obtain rfl | first := follows
  · have nothing : tokens? "".toList = some [] := by decide
    obtain rfl := Option.some.inj (nothing.symm.trans ha)
    simpa using opened
  · rw [String.toList_append, String.toList_append]
    exact tokens?_append opened ha (.inr first)

end Token

namespace SelectQuery

variable {q : SelectQuery} {p : String × String}

/-- What stands behind the condition on the records. -/
def clausesText (q : SelectQuery) : String :=
  clause " GROUP BY " q.groupBy ++ clause " HAVING " q.having ++ clause " ORDER BY " q.orderBy
    ++ q.pageText

/-- The texts before and after a filter in each place where it stands in a query: behind the
condition of a join, if there is one, and in the sub-select that is joined. -/
def filterPlaces (q : SelectQuery) : List (String × String) :=
  let queried := "SELECT " ++ q.select ++ " FROM " ++ q.table
  match q.subSelect with
  | none => [(queried ++ " WHERE ", q.clausesText)]
  | some (inner, join) =>
    let joined := clause " GROUP BY " q.groupBy ++ ") AS " ++ SubSelect.name ++ " WHERE " ++ join
      ++ " AND "
    let opened := queried ++ ", (SELECT " ++ inner ++ " FROM " ++ q.table ++ " WHERE "
    [(opened, joined ++ q.filter ++ q.clausesText), (opened ++ q.filter ++ joined, q.clausesText)]

theorem text_eq_of_mem_filterPlaces (filtered : q.filter ≠ "") (h : p ∈ q.filterPlaces) :
    q.text = p.1 ++ q.filter ++ p.2 := by
  have present : nonEmpty? q.filter = some q.filter := by simp [nonEmpty?, filtered]
  unfold text
  cases hs : q.subSelect with
  | none =>
    simp only [filterPlaces, hs, List.mem_singleton] at h
    subst h
    simp only [subSelectText, predicate?, hs, present, clause, clausesText, String.append_assoc,
      String.empty_append]
  | some s =>
    simp only [filterPlaces, hs, List.mem_cons, List.not_mem_nil, or_false] at h
    obtain rfl | rfl := h
    · simp only [subSelectText, predicate?, hs, present, clause, clausesText,
        String.append_assoc]
    · simp only [subSelectText, predicate?, hs, present, clause, clausesText,
        String.append_assoc]

theorem follows_clause {keyword : String} (h : keyword.toList.head?.any isDelimiter = true)
    (text? : Option String) : Follows (clause keyword text?) := by
  cases text? with
  | none => exact .inl rfl
  | some s => exact .inr (head?_append_any h s)

theorem follows_clausesText (q : SelectQuery) : Follows q.clausesText := by
  have page : Follows q.pageText := by
    unfold pageText
    split
    · simp only [String.append_assoc]
      exact .inr (head?_append_any (by decide) _)
    · exact .inl rfl
  have keys := follows_clause (by decide : " GROUP BY ".toList.head?.any isDelimiter = true)
    q.groupBy
  have having := follows_clause (by decide : " HAVING ".toList.head?.any isDelimiter = true)
    q.having
  have sortKeys := follows_clause (by decide : " ORDER BY ".toList.head?.any isDelimiter = true)
    q.orderBy
  exact ((keys.append having).append sortKeys).append page

/-- A filter stands behind a blank, and at the end or before a delimiter. -/
theorem delimited_of_mem_filterPlaces (h : p ∈ q.filterPlaces) :
    p.1.toList.getLast?.any isDelimiter = true ∧ Follows p.2 := by
  have ends (s t : String) (last : t.toList.getLast?.any isDelimiter = true) :
      (s ++ t).toList.getLast?.any isDelimiter = true := by
    rw [String.toList_append]
    exact getLast?_append_any _ last
  cases hs : q.subSelect with
  | none =>
    simp only [filterPlaces, hs, List.mem_singleton] at h
    subst h
    exact ⟨ends _ _ (by decide), q.follows_clausesText⟩
  | some s =>
    simp only [filterPlaces, hs, List.mem_cons, List.not_mem_nil, or_false] at h
    obtain rfl | rfl := h
    · refine ⟨ends _ _ (by decide), ?_⟩
      have keys := follows_clause (by decide : " GROUP BY ".toList.head?.any isDelimiter = true)
        q.groupBy
      simp only [String.append_assoc]
      exact keys.append (.inr (head?_append_any (by decide) _))
    · refine ⟨?_, q.follows_clausesText⟩
      simp only [← String.append_assoc]
      exact ends _ _ (by decide)

end SelectQuery

/-! ### Conditions -/

/-- A condition that is bound resolves to one conjunct: its parentheses match, and its operators
stand inside of them.  So wherever a query has it for its filter, the tokens before and after it are
those of the rest of the query, at the depth where they would be without it. -/
theorem grouped_of_compile {table : String} {clause : Clause} {e : Expr} {c : CompiledCondition}
    (h : compile table clause e = .ok c) (ht : Text.isIdentifier table = true)
    (named : ∀ l ∈ e.leaves, l.isNamed = true) {values : Values}
    (bound : ∀ a ∈ e.streamAttributes, (values.get? a).isSome) :
    ∃ text ts, c.resolve values = .ok text ∧ tokens? text.toList = some ts ∧
      Grouped clause.qualifiesFields ts ∧
      ∀ q : SelectQuery, q.filter = text → text ≠ "" → ∀ p ∈ q.filterPlaces,
        q.text = p.1 ++ text ++ p.2 ∧
        ∀ before after, tokens? p.1.toList = some before → tokens? p.2.toList = some after →
          tokens? q.text.toList = some (before ++ ts ++ after) ∧ Nested before ts after := by
  obtain ⟨text, resolved, ts, scanned, operand⟩ := exists_isOperand_of_compile h ht named bound
  refine ⟨text, ts, resolved, scanned, operand.grouped, ?_⟩
  rintro q rfl filtered p place
  obtain ⟨last, follows⟩ := SelectQuery.delimited_of_mem_filterPlaces place
  have whole := SelectQuery.text_eq_of_mem_filterPlaces filtered place
  refine ⟨whole, ?_⟩
  intro before after hb ha
  rw [whole]
  exact ⟨tokens?_spliced hb scanned ha last follows, operand.grouped.nested before after⟩

/-- The prices that a filter leaves, by title. -/
def filteredPrices (filter : String) : SelectQuery where
  table := "Stock"
  select := "Stock.price"
  subSelect := none
  filter := filter
  groupBy := some "Stock.title"
  having := none
  orderBy := none
  limit := none
  offset := none

/-- The values have parentheses and operators of their own. -/
theorem grouped_of_compile_guardedSearch :
    ∃ c text ts before after, compile "Stock" .condition guardedSearch = .ok c ∧
      c.resolve injectingValues = .ok text ∧ tokens? text.toList = some ts ∧ Grouped true ts ∧
      (filteredPrices text).text =
        "SELECT Stock.price FROM Stock WHERE " ++ text ++ " GROUP BY Stock.title" ∧
      tokens? (filteredPrices text).text.toList = some (before ++ ts ++ after) ∧
      Nested before ts after := by
  obtain ⟨c, h⟩ : ∃ c, compile "Stock" .condition guardedSearch = .ok c := ⟨_, rfl⟩
  have bound : ∀ a ∈ guardedSearch.streamAttributes, (injectingValues.get? a).isSome := by decide
  obtain ⟨text, ts, resolved, scanned, grouped, spliced⟩ :=
    grouped_of_compile h (by decide) (by decide) bound
  have filtered : text ≠ "" := fun empty => by
    cases (resolve_eq_empty_iff h resolved).1 empty
  obtain ⟨before, hb⟩ : ∃ ts, tokens? "SELECT Stock.price FROM Stock WHERE ".toList = some ts :=
    ⟨_, rfl⟩
  obtain ⟨after, ha⟩ : ∃ ts, tokens? " GROUP BY Stock.title".toList = some ts := ⟨_, rfl⟩
  have place : ("SELECT Stock.price FROM Stock WHERE ", " GROUP BY Stock.title") ∈
      (filteredPrices text).filterPlaces := List.mem_singleton.2 rfl
  obtain ⟨whole, tokens⟩ := spliced _ rfl filtered _ place
  exact ⟨c, text, ts, before, after, h, resolved, scanned, grouped, whole,
    tokens before after hb ha⟩

end StreamTable
