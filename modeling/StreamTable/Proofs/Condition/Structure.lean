import StreamTable.Proofs.Condition.Filter
import StreamTable.Proofs.Query.Literals

/-!
# Values do not decide how a condition is read

`Expr.outline` lists the structural tokens of a compiled expression by recursion on the expression;
it is not given any values.  Whatever the attributes of the stream are bound to, the resolved text
ends outside of quotes and has exactly these tokens (`outline_of_compile`).

Names are assumed to be identifiers, as tables are checked to have.  Such a path is one word
(`Token.tokens?_path`); literals have no structural tokens at all; and the fixed text around an
operand begins and ends with delimiters, so the outlines of the parts can be put together.
-/

namespace StreamTable

namespace Token

open Scanner

/-! ### Paths -/

theorem scan_word (run : List Char) (ts : List Token) {cs : List Char}
    (h : ∀ c ∈ cs, isWordChar c = true) : scan ⟨.word, run, ts⟩ cs = ⟨.word, run ++ cs, ts⟩ := by
  have continues (run : List Char) (c : Char) (word : isWordChar c = true) :
      step ⟨.word, run, ts⟩ c = ⟨.word, run ++ [c], ts⟩ :=
    if_pos word
  exact scan_of_continues continues h run

theorem tokens?_word {cs : List Char} (hne : cs ≠ []) (h : ∀ c ∈ cs, isWordChar c = true) :
    tokens? cs = some [.word cs] := by
  obtain ⟨c, cs, rfl⟩ := List.exists_cons_of_ne_nil hne
  have first : step (idle []) c = ⟨.word, [c], []⟩ := if_pos (h c List.mem_cons_self)
  have scanned : scan (idle []) (c :: cs) = ⟨.word, c :: cs, []⟩ := by
    show scan (step (idle []) c) cs = _
    rw [first]
    exact scan_word [c] [] fun d hd => h d (List.mem_cons_of_mem _ hd)
  rw [tokens?_eq_some, scanned]
  exact ⟨rfl, rfl⟩

/-- The path to a field is a single word. -/
theorem tokens?_path {table name : String} (ht : Text.isIdentifier table = true)
    (hn : Text.isIdentifier name = true) (clause : Clause) :
    tokens? (clause.fieldPath table name).toList =
      some [.word (clause.fieldPath table name).toList] := by
  have word {s : String} (h : Text.isIdentifier s = true) : ∀ c ∈ s.toList, isWordChar c = true :=
    fun c hc => by simp [isWordChar, Text.isIdentifierChar_of_mem h hc]
  have nonempty := Text.toList_ne_nil_of_isIdentifier hn
  rw [Clause.fieldPath]
  split
  · exact tokens?_word nonempty (word hn)
  · simp only [String.toList_append]
    refine tokens?_word (by simp) fun c hc => ?_
    rcases List.mem_append.1 hc with hc | hc
    · rcases List.mem_append.1 hc with hc | hc
      · exact word ht c hc
      · rw [List.mem_singleton.1 hc]
        decide
    · exact word hn c hc

/-! ### Text around operands -/

theorem getLast?_append_any {p : Char → Bool} (bs : List Char) {cs : List Char}
    (h : cs.getLast?.any p = true) : (bs ++ cs).getLast?.any p = true := by
  rw [List.getLast?_append]
  cases hc : cs.getLast? with
  | none => simp [hc] at h
  | some c => simpa [hc] using h

/-- A text between two fixed ones that delimit it. -/
theorem outline?_enclosed {before s following : String} {ts us vs : List Token}
    (hs : outline? s.toList = some us) (hb : outline? before.toList = some ts)
    (hf : outline? following.toList = some vs)
    (first : before.toList.getLast?.any isDelimiter = true)
    (last : following.toList.head?.any isDelimiter = true) :
    outline? (before ++ s ++ following).toList = some (ts ++ us ++ vs) := by
  rw [String.toList_append, String.toList_append]
  exact outline?_append (outline?_append hb hs (.inl first)) hf (.inr last)

/-- Two texts with a fixed one between them, in parentheses. -/
theorem outline?_operands {before l between r : String} {ts us vs ws : List Token}
    (hl : outline? l.toList = some us) (hr : outline? r.toList = some ws)
    (hb : outline? before.toList = some ts) (hm : outline? between.toList = some vs)
    (first : before.toList.getLast?.any isDelimiter = true)
    (middle : between.toList.head?.any isDelimiter = true ∧
      between.toList.getLast?.any isDelimiter = true) :
    outline? (before ++ l ++ between ++ r ++ ")").toList =
      some (ts ++ us ++ vs ++ ws ++ [.closing]) := by
  have left := outline?_enclosed hl hb hm first middle.1
  refine outline?_enclosed hr left (by decide) ?_ (by decide)
  rw [String.toList_append]
  exact getLast?_append_any _ middle.2

/-- Two texts with a fixed one between them that has no structural token. -/
theorem outline?_juxtaposed {before l between r : String} {ts us ws : List Token}
    (hl : outline? l.toList = some us) (hr : outline? r.toList = some ws)
    (hb : outline? before.toList = some ts) (hm : outline? between.toList = some [])
    (first : before.toList.getLast?.any isDelimiter = true)
    (middle : between.toList.head?.any isDelimiter = true ∧
      between.toList.getLast?.any isDelimiter = true) :
    outline? (before ++ l ++ between ++ r ++ ")").toList =
      some (ts ++ us ++ ws ++ [.closing]) := by
  have both := outline?_operands hl hr hb hm first middle
  rwa [List.append_nil] at both

end Token

namespace Leaf

variable (path : String → String)

/-- The name of the field is an identifier. -/
def isNamed : Leaf → Bool
  | .constant _ | .attribute _ _ => true
  | .field name _ => Text.isIdentifier name

/-- The structural tokens of a leaf: none of a literal, perhaps the path of a field. -/
def outline : Leaf → List Token
  | .constant _ | .attribute _ _ => []
  | .field name _ => [Token.word (path name).toList].filter Token.isStructural

variable {table : String} (ht : Text.isIdentifier table = true) (clause : Clause)
  (value : String → Value)

include ht

theorem outline?_rendered {l : Leaf} (hl : l.isNamed = true) :
    Token.outline? (l.rendered (clause.fieldPath table) value).toList =
      some (l.outline (clause.fieldPath table)) := by
  cases l with
  | constant v => exact v.outline?_literal _
  | «attribute» name t => exact (value name).outline?_literal t
  | field name t =>
    rw [rendered, Token.outline?, Token.tokens?_path ht hl]
    rfl

theorem outline?_renderedPattern {l : Leaf} (hl : l.isNamed = true) :
    Token.outline? (l.renderedPattern (clause.fieldPath table) value).toList =
      some (l.outline (clause.fieldPath table)) := by
  cases l with
  | constant v => exact v.outline?_textLiteral
  | «attribute» name t => exact (value name).outline?_textLiteral
  | field name t =>
    rw [renderedPattern, Token.outline?, Token.tokens?_path ht hl]
    rfl

end Leaf

namespace Expr

variable (path : String → String)

/-- The token of a word of the query language. -/
def wordToken (s : String) : Token := .word s.toList

/-- The structural tokens of a pattern. -/
def patternOutline (pattern : Expr) : List Token := pattern.leaf?.elim [] (Leaf.outline path)

/-- The structural tokens of the query text of an expression, for the paths of the fields.  Of the
calls, only those that compile have a text of interest. -/
def outline : Expr → List Token
  | .constant v => (Leaf.constant v).outline path
  | .attribute name t => (Leaf.attribute name t).outline path
  | .field name t => (Leaf.field name t).outline path
  | .compare op l r =>
    [.opening] ++ l.outline ++ [.comparison op.symbol.toList] ++ r.outline ++ [.closing]
  | .and l r => [.opening] ++ l.outline ++ [wordToken "AND"] ++ r.outline ++ [.closing]
  | .or l r => [.opening] ++ l.outline ++ [wordToken "OR"] ++ r.outline ++ [.closing]
  | .not x => [.opening, wordToken "NOT"] ++ x.outline ++ [.closing]
  | .isNull x => [.opening] ++ x.outline ++ [wordToken "IS", .closing]
  | .contains x pattern =>
    [wordToken "CONTAINS", .opening] ++ x.outline ++ pattern.patternOutline path ++ [.closing]
  | .math _ l r => [.opening] ++ l.outline ++ r.outline ++ [.closing]
  | .call space name args =>
    match space, args with
    | none, [x] => [wordToken (keyword name), .opening] ++ x.outline ++ [.closing]
    | none, [] => [wordToken "COUNT", .opening, .closing]
    | some _, [x, pattern] =>
      [wordToken "CONTAINS", .opening] ++ x.outline ++ pattern.patternOutline path ++ [.closing]
    | _, _ => []
  | .isIn _ _ => []

theorem outline_of_leaf? {e : Expr} {l : Leaf} (h : e.leaf? = some l) :
    e.outline path = l.outline path := by
  cases e <;> cases h <;> rfl

theorem patternOutline_of_leaf? {e : Expr} {l : Leaf} (h : e.leaf? = some l) :
    e.patternOutline path = l.outline path := by
  rw [patternOutline, h]
  rfl

end Expr

open Token

/-- A text search has the outlines of the text and of the pattern. -/
theorem Fragment.outline?_search {table : String} (ht : Text.isIdentifier table = true)
    {clause : Clause} (value : String → Value) {f : Fragment} {us : List Token} {q : Expr}
    {p : Leaf} (hf : outline? (f.template.filled (Slot.rendered value)).toList = some us)
    (isLeaf : q.leaf? = some p) (named : ∀ l ∈ q.leaves, l.isNamed = true) :
    outline? ((f.search (p.parameter table clause)).template.filled
        (Slot.rendered value)).toList =
      some ([Expr.wordToken "CONTAINS", .opening] ++ us ++
        q.patternOutline (clause.fieldPath table) ++ [.closing]) := by
  rw [Expr.leaves_of_leaf? isLeaf] at named
  have pattern := Leaf.outline?_renderedPattern ht clause value (named p List.mem_cons_self)
  rw [filled_search, Slot.rendered_pattern, Expr.patternOutline_of_leaf? _ isLeaf]
  exact outline?_juxtaposed hf pattern (by decide) (by decide) (by decide) (by decide)

/-- A fragment has the outline of its expression, whatever values it is filled with. -/
theorem Target.Emits.outline {c : Target} (ht : Text.isIdentifier c.table = true) {e : Expr}
    {f : Fragment} (h : c.Emits e f) (named : ∀ l ∈ e.leaves, l.isNamed = true)
    (value : String → Value) :
    outline? (f.template.filled (Slot.rendered value)).toList =
      some (e.outline (c.clause.fieldPath c.table)) := by
  -- What stands between the operands is fixed text, whose tokens are computed; the operands are put
  -- between them by the lemmas on texts one after the other.
  induction h with
  | leaf isLeaf =>
    rw [Fragment.filled_leaf, Slot.rendered_leaf, Expr.outline_of_leaf? _ isLeaf]
    rw [Expr.leaves_of_leaf? isLeaf] at named
    exact Leaf.outline?_rendered ht _ value (named _ (List.mem_singleton_self _))
  | @compare op l r f g _ _ _ ihl ihr =>
    obtain ⟨hl, hr⟩ := List.forall_mem_append.1 named
    have symbol : outline? (" " ++ op.symbol ++ " ").toList =
        some [.comparison op.symbol.toList] := by
      cases op <;> decide
    rw [Fragment.filled_binary]
    exact outline?_operands (ihl hl) (ihr hr) (by decide) symbol (by decide)
      (by cases op <;> decide)
  | and _ _ _ ihl ihr =>
    obtain ⟨hl, hr⟩ := List.forall_mem_append.1 named
    rw [Fragment.filled_binary]
    exact outline?_operands (ihl hl) (ihr hr) (by decide) (by decide) (by decide) (by decide)
  | or _ _ _ ihl ihr =>
    obtain ⟨hl, hr⟩ := List.forall_mem_append.1 named
    rw [Fragment.filled_binary]
    exact outline?_operands (ihl hl) (ihr hr) (by decide) (by decide) (by decide) (by decide)
  | not _ _ ih =>
    simp only [Template.filled_append, Template.filled_text]
    exact outline?_enclosed (ih named) (by decide) (by decide) (by decide) (by decide)
  | isNull _ ih =>
    simp only [Template.filled_append, Template.filled_text]
    exact outline?_enclosed (ih named) (by decide) (by decide) (by decide) (by decide)
  | contains _ isLeaf ih =>
    obtain ⟨hx, hp⟩ := List.forall_mem_append.1 named
    exact Fragment.outline?_search ht value (ih hx) isLeaf hp
  | @math op l r f g _ _ _ ihl ihr =>
    obtain ⟨hl, hr⟩ := List.forall_mem_append.1 named
    have symbol : outline? (" " ++ op.symbol ++ " ").toList = some [] := by
      cases op <;> decide
    rw [Fragment.filled_binary]
    exact outline?_juxtaposed (ihl hl) (ihr hr) (by decide) symbol (by decide)
      (by cases op <;> decide)
  | @aggregate name a x f t known _ _ _ ih =>
    have function : outline? (a.keyword ++ "(").toList =
        some [Expr.wordToken (Expr.keyword name), .opening] := by
      rw [Expr.keyword, known]
      cases a <;> decide
    have argument : ∀ l ∈ x.leaves, l.isNamed = true := by
      simpa [Expr.leaves, Expr.leavesOfAll] using named
    simp only [Template.filled_append, Template.filled_text]
    exact outline?_enclosed (ih argument) function (by decide) (by cases a <;> decide) (by decide)
  | countAll known _ => exact (by decide : outline? "COUNT(1)".toList =
      some [Expr.wordToken "COUNT", .opening, .closing])
  | textSearch _ isLeaf ih =>
    obtain ⟨hx, hp⟩ := List.forall_mem_append.1 named
    rw [Expr.leavesOfAll, Expr.leavesOfAll, List.append_nil] at hp
    exact Fragment.outline?_search ht value (ih hx) isLeaf hp

/-! ### Conditions -/

/-- With all attributes of the stream bound, a condition resolves to a text with the outline of its
expression. -/
theorem CompiledCondition.outline?_resolve {table : String} {clause : Clause} {e : Expr}
    {c : CompiledCondition} (h : compile table clause e = .ok c)
    (ht : Text.isIdentifier table = true) (named : ∀ l ∈ e.leaves, l.isNamed = true)
    {values : Values} (bound : ∀ a ∈ e.streamAttributes, (values.get? a).isSome) :
    ∃ text, c.resolve values = .ok text ∧
      outline? text.toList = some (e.outline (clause.fieldPath table)) := by
  cases hc : c.alwaysTrue with
  | true =>
    obtain rfl := eq_alwaysTrue_of_compile h hc
    exact ⟨"", by rw [CompiledCondition.resolve, if_pos hc], rfl⟩
  | false =>
    obtain ⟨f, hf, rfl⟩ := emits_of_compile h hc
    exact ⟨_, hf.resolve bound, hf.outline ht named fun a => (values.get? a).getD .null⟩

/-- Two bindings of the attributes of the stream cannot make a query be read differently: both
resolved texts end outside of quotes, with the structural tokens of the expression. -/
theorem outline_of_compile {table : String} {clause : Clause} {e : Expr}
    {c : CompiledCondition} (h : compile table clause e = .ok c)
    (ht : Text.isIdentifier table = true) (named : ∀ l ∈ e.leaves, l.isNamed = true)
    {values values' : Values} (bound : ∀ a ∈ e.streamAttributes, (values.get? a).isSome)
    (bound' : ∀ a ∈ e.streamAttributes, (values'.get? a).isSome) :
    ∃ text text', c.resolve values = .ok text ∧ c.resolve values' = .ok text' ∧
      outline? text.toList = some (e.outline (clause.fieldPath table)) ∧
      outline? text'.toList = some (e.outline (clause.fieldPath table)) := by
  obtain ⟨text, resolved, outlined⟩ := CompiledCondition.outline?_resolve h ht named bound
  obtain ⟨text', resolved', outlined'⟩ := CompiledCondition.outline?_resolve h ht named bound'
  exact ⟨text, text', resolved, resolved', outlined, outlined'⟩

/-- A text at a placeholder for texts, as a pattern, and at a placeholder for numbers. -/
def guardedSearch : Expr :=
  .or (.compare .eq (.field "title" .string) (.attribute "word" .string))
    (.and (.contains (.field "title" .string) (.attribute "word" .int))
      (.not (.compare .lt (.field "price" .double) (.attribute "limit" .double))))

/-- Texts that would go on with the query if they were not escaped. -/
def injectingValues : Values :=
  [("word", .string "x' OR (1 = 1) OR 'y\\"), ("limit", .string "0) OR \"")]

theorem outline_of_compile_guardedSearch :
    ∃ c text text', compile "Stock" .condition guardedSearch = .ok c ∧
      c.resolve injectingValues = .ok text ∧
      c.resolve [("word", .object (.object [("a\"'", .string "\\")])), ("limit", .null)] =
        .ok text' ∧
      (outline? text.toList).map List.length = some 18 ∧
      outline? text.toList = outline? text'.toList := by
  obtain ⟨c, h⟩ : ∃ c, compile "Stock" .condition guardedSearch = .ok c := ⟨_, rfl⟩
  have bound : ∀ a ∈ guardedSearch.streamAttributes, (injectingValues.get? a).isSome := by decide
  have bound' : ∀ a ∈ guardedSearch.streamAttributes, (Members.get? a
      [("word", Value.object (.object [("a\"'", .string "\\")])), ("limit", .null)]).isSome := by
    decide
  obtain ⟨text, text', resolved, resolved', outlined, outlined'⟩ :=
    outline_of_compile h (by decide) (by decide) bound bound'
  refine ⟨c, text, text', h, resolved, resolved', ?_, outlined.trans outlined'.symm⟩
  rw [outlined]
  decide

end StreamTable
