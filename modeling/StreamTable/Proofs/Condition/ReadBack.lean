import StreamTable.Proofs.Condition.Filter
import StreamTable.Proofs.Expr.Searches

/-!
# Reading conditions back

The template of a compiled condition, that is its texts and the sources of its holes, gives the
expression back, except that it does not tell how a text search was written: `Target.readBack` reads
it (`readBack_of_compile`).  So no two other expressions share a template (`withSearches_eq_iff`).

The reader decides by what comes next.  An operand begins with a hole, an opening parenthesis or the
name of a function, so it cannot be mistaken for the rest of a negation or for the count of all
records (`Target.Emits.opens`).  What follows the first operand in parentheses tells the null test
from the operators, no two of which begin alike (`Infix.read_ofText`).
-/

namespace StreamTable

/-! ### Glyphs -/

/-- What a template is made of, read from left to right. -/
inductive Glyph where
  /-- A character of a text. -/
  | char (c : Char)
  /-- A hole, by the source of its value. -/
  | hole (p : Parameter)

namespace Glyph

/-- The glyphs of a text. -/
def ofText (s : String) : List Glyph := s.toList.map .char

theorem ofText_append (s t : String) : ofText (s ++ t) = ofText s ++ ofText t := by
  rw [ofText, String.toList_append, List.map_append, ofText, ofText]

end Glyph

open Glyph (ofText)

namespace Template

/-- The glyphs of a template; they do not tell which holes are patterns. -/
def glyphs (t : Template Slot) : List Glyph :=
  ofText t.lead ++ t.rest.flatMap fun p => .hole p.1.parameter :: ofText p.2

@[simp] theorem glyphs_text (s : String) : (text s : Template Slot).glyphs = ofText s :=
  List.append_nil _

@[simp] theorem glyphs_hole (slot : Slot) : (hole slot).glyphs = [.hole slot.parameter] := rfl

@[simp] theorem glyphs_append (s t : Template Slot) :
    (s ++ t).glyphs = s.glyphs ++ t.glyphs := by
  obtain ⟨lead, rest⟩ := s
  induction rest generalizing lead with
  | nil => simp [append_def, appendRest, glyphs, Glyph.ofText_append]
  | cons p rest ih =>
    have tail := ih p.2
    simp only [append_def, glyphs] at tail
    simp only [append_def, appendRest, glyphs, List.flatMap_cons, List.cons_append,
      List.append_assoc] at tail ⊢
    rw [tail]

/-- The glyphs are read off the lists of a template: the first text, and then each source with the
text after it. -/
theorem glyphs_eq (t : Template Slot) :
    t.glyphs = ofText t.lead ++
      ((t.holes.map (·.parameter)).zip (t.rest.map (·.2))).flatMap fun p =>
        .hole p.1 :: ofText p.2 := by
  rw [holes, List.map_map, List.zip_map', List.flatMap_map]
  rfl

theorem glyphs_enclosed (t : Template Slot) (before after : String) :
    (text before ++ t ++ text after).glyphs = ofText before ++ t.glyphs ++ ofText after := by
  rw [glyphs_append, glyphs_append, glyphs_text, glyphs_text]

theorem glyphs_binary (f : Fragment) (op : String) (g : Fragment) :
    (f.binary op g).glyphs =
      ofText "(" ++ f.template.glyphs ++ ofText (" " ++ op ++ " ") ++ g.template.glyphs ++
        ofText ")" := by
  rw [Fragment.binary]
  simp only [glyphs_append, glyphs_text]

theorem glyphs_search (f : Fragment) (p : Parameter) :
    (f.search p).template.glyphs =
      ofText "CONTAINS(" ++ f.template.glyphs ++ ofText ", " ++ [.hole p] ++ ofText ")" := by
  rw [Fragment.search]
  simp only [glyphs_append, glyphs_text, glyphs_hole]

/-- The texts and the sources of the holes determine the glyphs. -/
theorem glyphs_congr {s t : Template Slot} (texts : s.texts = t.texts)
    (holes : s.holes.map (·.parameter) = t.holes.map (·.parameter)) : s.glyphs = t.glyphs := by
  obtain ⟨lead, rest⟩ := List.cons.inj texts
  rw [glyphs_eq, glyphs_eq, lead, rest, holes]

end Template

/-! ### Readers -/

namespace Glyph

/-- What is left after some characters. -/
def strip : List Char → List Glyph → Option (List Glyph)
  | [], ss => some ss
  | c :: cs, .char d :: ss => if c = d then strip cs ss else none
  | _ :: _, _ => none

/-- What is left after a text. -/
def after (s : String) (ss : List Glyph) : Option (List Glyph) := strip s.toList ss

theorem after_append (s t : String) (ss : List Glyph) :
    after (s ++ t) (ofText s ++ ss) = after t ss := by
  unfold after ofText
  rw [String.toList_append]
  induction s.toList with
  | nil => rfl
  | cons c cs ih => exact (if_pos rfl).trans ih

@[simp] theorem after_ofText (s : String) (ss : List Glyph) :
    after s (ofText s ++ ss) = some ss := by
  have whole : after (s ++ "") (ofText s ++ ss) = after "" ss := after_append s "" ss
  rwa [String.append_empty] at whole

/-- Nothing is left after a text if the first glyph is another one. -/
theorem after_cons_eq_none {s : String} {c : Char} {cs : List Char} (hs : s.toList = c :: cs)
    {a : Glyph} (ha : a ≠ .char c) (ss : List Glyph) : after s (a :: ss) = none := by
  unfold after
  rw [hs]
  cases a with
  | hole p => rfl
  | char d =>
    have apart : c ≠ d := fun h => ha (congrArg Glyph.char h.symm)
    exact if_neg apart

end Glyph

open Glyph (after)

/-- An operator that is written between two operands. -/
inductive Infix where
  | compare (op : CompareOp)
  | math (op : MathOp)
  | and
  | or

namespace Infix

/-- All operators. -/
def all : List Infix :=
  [.compare .eq, .compare .ne, .compare .lt, .compare .le, .compare .gt, .compare .ge, .math .add,
    .math .sub, .math .mul, .math .div, .math .mod, .and, .or]

/-- The operator in query text. -/
def symbol : Infix → String
  | .compare op => op.symbol
  | .math op => op.symbol
  | .and => LogicOp.and.symbol
  | .or => LogicOp.or.symbol

/-- The operator on two operands. -/
def node : Infix → Expr → Expr → Expr
  | .compare op => .compare op
  | .math op => .math op
  | .and => .and
  | .or => .or

/-- Read an operator between two operands. -/
def read (ss : List Glyph) : Option (Infix × List Glyph) :=
  all.findSome? fun i => (after (" " ++ i.symbol ++ " ") ss).map (i, ·)

/-- No two operators begin alike. -/
theorem read_ofText (i : Infix) (ss : List Glyph) :
    read (ofText (" " ++ i.symbol ++ " ") ++ ss) = some (i, ss) := by
  rcases i with op | op | _ | _
  · cases op <;> rfl
  · cases op <;> rfl
  · rfl
  · rfl

/-- No operator begins like the null test. -/
theorem after_isNull (i : Infix) (ss : List Glyph) :
    after " IS NULL)" (ofText (" " ++ i.symbol ++ " ") ++ ss) = none := by
  rcases i with op | op | _ | _
  · cases op <;> rfl
  · cases op <;> rfl
  · rfl
  · rfl

end Infix

namespace Aggregate

/-- Read the name of a function and the parenthesis after it. -/
def read (ss : List Glyph) : Option (Aggregate × List Glyph) :=
  all.findSome? fun a => (after (a.keyword ++ "(") ss).map (a, ·)

theorem read_ofText (a : Aggregate) (ss : List Glyph) :
    read (ofText (a.keyword ++ "(") ++ ss) = some (a, ss) := by
  cases a <;> rfl

end Aggregate

/-! ### The reader -/

/-- The name of the field that a clause refers to by a path. -/
def Clause.fieldName (clause : Clause) (table path : String) : String :=
  if clause = .having then path else String.ofList (path.toList.drop (table ++ ".").length)

/-- The name of a field can be read off its path. -/
theorem Clause.fieldName_fieldPath (clause : Clause) (table name : String) :
    clause.fieldName table (clause.fieldPath table name) = name := by
  unfold fieldName fieldPath
  split
  · rfl
  · rw [String.toList_append, ← String.length_toList, List.drop_left, String.ofList_toList]

namespace Target

open Template (glyphs_binary glyphs_search glyphs_enclosed)

/-- What reads the glyphs of an expression, and gives what is left after them. -/
abbrev Reader := List Glyph → Option (Expr × List Glyph)

variable (c : Target)

/-- The leaf whose value has the source. -/
def leaf : Parameter → Expr
  | .constant v => .constant v
  | .attribute name t => .attribute name t
  | .field path t => .field (c.clause.fieldName c.table path) t

/-- A leaf can be read off its source. -/
theorem leaf_parameter {e : Expr} {l : Leaf} (h : e.leaf? = some l) :
    c.leaf (l.parameter c.table c.clause) = e := by
  cases e <;> cases h
  · rfl
  · rfl
  · exact congrArg (Expr.field · _) (c.clause.fieldName_fieldPath c.table _)

variable (operand : Reader)

/-- Read the rest of a negation. -/
def readNot : Reader := fun ss => do
  let (x, ss) ← operand ss
  return (.not x, ← after ")" ss)

/-- Read what is in parentheses: a null test, or an operator with two operands. -/
def readOperator : Reader := fun ss => do
  let (l, ss) ← operand ss
  match after " IS NULL)" ss with
  | some ss => return (.isNull l, ss)
  | none =>
    let (i, ss) ← Infix.read ss
    let (r, ss) ← operand ss
    return (i.node l r, ← after ")" ss)

/-- Read the rest of a text search. -/
def readSearch : Reader := fun ss => do
  let (x, ss) ← operand ss
  match ← after ", " ss with
  | .hole p :: ss => return (.contains x (c.leaf p), ← after ")" ss)
  | _ => none

/-- Read the call of an aggregate function. -/
def readAggregate : Reader := fun ss => do
  let (a, ss) ← Aggregate.read ss
  match after "1)" ss with
  | some ss => return (.call none a.name [], ss)
  | none =>
    let (x, ss) ← operand ss
    return (.call none a.name [x], ← after ")" ss)

/-- Read an expression that is not a leaf. -/
def readText : Reader := fun ss =>
  match after "(NOT " ss with
  | some ss => readNot operand ss
  | none =>
    match after "(" ss with
    | some ss => readOperator operand ss
    | none =>
      match after "CONTAINS(" ss with
      | some ss => c.readSearch operand ss
      | none => readAggregate operand ss

/-- Read an expression that is nested at most so deep. -/
def read : Nat → Reader
  | 0, _ => none
  | _ + 1, .hole p :: ss => some (c.leaf p, ss)
  | n + 1, ss => c.readText (read n) ss

/-- The expression of a template; a text that is no expression stands for the constant `true`. -/
def readBack (t : Template Slot) : Expr :=
  match c.read (t.glyphs.length + 1) t.glyphs with
  | some (e, []) => e
  | _ => .alwaysTrue

/-! ### Reading what was emitted -/

/-- The glyphs begin neither like the rest of a negation nor like the count of all records. -/
def Opens (ss : List Glyph) : Prop :=
  ∃ s tail, ss = s :: tail ∧ s ≠ .char 'N' ∧ s ≠ .char '1'

/-- A text opens an operand if it begins neither with `N` nor with `1`. -/
theorem opens_ofText {s : String} {a : Char} {as : List Char} (h : s.toList = a :: as)
    (ha : a ≠ 'N' ∧ a ≠ '1') (ss : List Glyph) : Opens (ofText s ++ ss) := by
  refine ⟨.char a, as.map .char ++ ss, ?_, fun same => ?_, fun same => ?_⟩
  · rw [ofText, h]
    rfl
  · exact ha.1 (Glyph.char.inj same)
  · exact ha.2 (Glyph.char.inj same)

theorem Opens.append {ss : List Glyph} (h : Opens ss) (ss' : List Glyph) :
    Opens (ss ++ ss') := by
  obtain ⟨s, tail, rfl, notN, not1⟩ := h
  exact ⟨s, tail ++ ss', rfl, notN, not1⟩

/-- So what is after a parenthesis is not taken for a negation. -/
theorem Opens.after_not {ss : List Glyph} (h : Opens ss) : after "NOT " ss = none := by
  obtain ⟨s, tail, rfl, notN, _⟩ := h
  exact Glyph.after_cons_eq_none rfl notN tail

/-- And the argument of a count is not taken for that of the count of all records. -/
theorem Opens.after_one {ss : List Glyph} (h : Opens ss) : after "1)" ss = none := by
  obtain ⟨s, tail, rfl, _, not1⟩ := h
  exact Glyph.after_cons_eq_none rfl not1 tail

/-- A reader takes the glyphs for an expression, whatever comes after them. -/
def Reads (operand : Reader) (ss : List Glyph) (e : Expr) : Prop :=
  ∀ rest, operand (ss ++ rest) = some (e, rest)

/-- A reader that goes deep enough takes the glyphs for an expression. -/
def Recovers (ss : List Glyph) (e : Expr) : Prop := ∀ n, ss.length < n → Reads (c.read n) ss e

variable {c} {operand : Reader} {xs ys : List Glyph} {x y : Expr}

theorem reads_not (hx : Reads operand xs x) :
    Reads (c.readText operand) (ofText "(NOT " ++ xs ++ ofText ")") (.not x) := by
  intro rest
  simp [readText, readNot, hx _]

theorem after_opening (h : Opens xs) : after "(NOT " (ofText "(" ++ xs) = none :=
  (Glyph.after_append "(" "NOT " xs).trans h.after_not

theorem reads_isNull (h : Opens xs) (hx : Reads operand xs x) :
    Reads (c.readText operand) (ofText "(" ++ xs ++ ofText " IS NULL)") (.isNull x) := by
  intro rest
  have noNot := after_opening (h.append (ofText " IS NULL)" ++ rest))
  simp [readText, readOperator, hx _, noNot]

/-- An operation is read if its operands are, since its symbol cannot begin an operand or a null
test. -/
theorem reads_infix (i : Infix) (h : Opens xs) (hx : Reads operand xs x)
    (hy : Reads operand ys y) :
    Reads (c.readText operand)
      (ofText "(" ++ xs ++ ofText (" " ++ i.symbol ++ " ") ++ ys ++ ofText ")") (i.node x y) := by
  intro rest
  -- The operand keeps the text from being taken for a negation, the operator from being taken for a
  -- null test.
  have noNot := after_opening
    (h.append (ofText (" " ++ i.symbol ++ " ") ++ (ys ++ (ofText ")" ++ rest))))
  simp [readText, readOperator, hx _, hy _, noNot, i.after_isNull, i.read_ofText]

theorem reads_search (hx : Reads operand xs x) (p : Parameter) :
    Reads (c.readText operand) (ofText "CONTAINS(" ++ xs ++ ofText ", " ++ [.hole p] ++ ofText ")")
      (.contains x (c.leaf p)) := by
  intro rest
  have search (ss : List Glyph) :
      c.readText operand (ofText "CONTAINS(" ++ ss) = c.readSearch operand ss := rfl
  simp [search, readSearch, hx _]

theorem reads_aggregate (a : Aggregate) (h : Opens xs) (hx : Reads operand xs x) :
    Reads (c.readText operand) (ofText (a.keyword ++ "(") ++ xs ++ ofText ")")
      (.call none a.name [x]) := by
  intro rest
  -- The name of the function is not `CONTAINS`, and its argument is not the `1` of a count.
  have aggregate (ss : List Glyph) : c.readText operand (ofText (a.keyword ++ "(") ++ ss) =
      readAggregate operand (ofText (a.keyword ++ "(") ++ ss) := by
    cases a <;> rfl
  have noCount := (h.append (ofText ")" ++ rest)).after_one
  simp [aggregate, readAggregate, a.read_ofText, noCount, hx _]

theorem reads_countAll :
    Reads (c.readText operand) (ofText (Aggregate.count.keyword ++ "(") ++ ofText "1" ++ ofText ")")
      (.call none Aggregate.count.name []) :=
  fun _ => rfl

/-! ### Nested expressions -/

theorem recovers_hole (p : Parameter) : c.Recovers [.hole p] (c.leaf p) := by
  intro n hn rest
  cases n with
  | zero => omega
  | succ n => rfl

/-- What is read from a text is read one level deeper than its parts. -/
theorem recovers_of_readText {ss : List Glyph} {e : Expr}
    (h : ∀ n, ss.length ≤ n → Reads (c.readText (c.read n)) ss e) : c.Recovers ss e := by
  intro n hn rest
  cases n with
  | zero => omega
  | succ n =>
    have text := h n (by omega) rest
    -- A text does not begin with a hole.
    match ss ++ rest, text with
    | [], text => exact text
    | .char a :: _, text => exact text
    | .hole p :: _, text => cases text

/-- What stands between two texts is shorter than the whole. -/
theorem lt_of_enclosed {n : Nat} {s : String} (hs : 0 < (ofText s).length) {tail : List Glyph}
    (h : (ofText s ++ xs ++ tail).length ≤ n) : xs.length < n := by
  rw [List.length_append, List.length_append] at h
  omega

/-- What is put around an operand lets the reader go one step deeper for it. -/
theorem recovers_enclosed {s t : String} {e : Expr} (hs : 0 < (ofText s).length)
    (h : ∀ n, Reads (c.read n) xs x → Reads (c.readText (c.read n)) (ofText s ++ xs ++ ofText t) e)
    (hx : c.Recovers xs x) : c.Recovers (ofText s ++ xs ++ ofText t) e :=
  recovers_of_readText fun n hn => h n (hx n (lt_of_enclosed hs hn))

theorem recovers_infix (i : Infix) (h : Opens xs) (hx : c.Recovers xs x) (hy : c.Recovers ys y) :
    c.Recovers (ofText "(" ++ xs ++ ofText (" " ++ i.symbol ++ " ") ++ ys ++ ofText ")")
      (i.node x y) := by
  refine recovers_of_readText fun n hn => ?_
  have opening : 0 < (ofText "(").length := by decide
  simp only [List.length_append] at hn
  have left : xs.length < n := by omega
  have right : ys.length < n := by omega
  exact reads_infix i h (hx n left) (hy n right)

theorem recovers_search (hx : c.Recovers xs x) {pattern : Expr} {p : Leaf}
    (isLeaf : pattern.leaf? = some p) :
    c.Recovers (ofText "CONTAINS(" ++ xs ++ ofText ", " ++ [.hole (p.parameter c.table c.clause)] ++
      ofText ")") (.contains x pattern.withSearches) := by
  rw [Expr.withSearches_of_leaf? isLeaf, ← c.leaf_parameter isLeaf]
  refine recovers_of_readText fun n hn => ?_
  have opening : 0 < (ofText "CONTAINS(").length := by decide
  simp only [List.length_append] at hn
  have searched : xs.length < n := by omega
  exact reads_search (hx n searched) _

namespace Emits

variable {e : Expr} {f : Fragment}

/-- Every fragment opens an operand: its first glyph is a hole, a parenthesis or a keyword. -/
theorem opens (h : c.Emits e f) : Opens f.template.glyphs := by
  cases h with
  | leaf _ => exact ⟨_, [], rfl, by simp, by simp⟩
  | compare _ _ _ | and _ _ _ | or _ _ _ | math _ _ _ | not _ _ | isNull _ | contains _ _
    | textSearch _ _ =>
    simp only [glyphs_binary, glyphs_search, glyphs_enclosed, List.append_assoc]
    exact opens_ofText rfl (by decide) _
  | @aggregate _ a _ _ _ _ _ _ _ =>
    rw [glyphs_enclosed, List.append_assoc]
    cases a <;> exact opens_ofText rfl (by decide) _
  | countAll _ _ =>
    rw [glyphs_enclosed, List.append_assoc]
    exact opens_ofText rfl (by decide) _

/-- What was emitted for an expression is read back. -/
theorem recovers (h : c.Emits e f) : c.Recovers f.template.glyphs e.withSearches := by
  -- Every part of an expression is shorter than the whole, so the reader goes as deep as it has to.
  induction h with
  | leaf isLeaf =>
    rw [Expr.withSearches_of_leaf? isLeaf, ← c.leaf_parameter isLeaf]
    exact recovers_hole _
  | @compare op l r f g hl _ _ ihl ihr =>
    rw [glyphs_binary]
    exact recovers_infix (.compare op) hl.opens ihl ihr
  | and hl _ _ ihl ihr =>
    rw [glyphs_binary]
    exact recovers_infix .and hl.opens ihl ihr
  | or hl _ _ ihl ihr =>
    rw [glyphs_binary]
    exact recovers_infix .or hl.opens ihl ihr
  | @math op l r f g hl _ _ ihl ihr =>
    rw [glyphs_binary]
    exact recovers_infix (.math op) hl.opens ihl ihr
  | not _ _ ih =>
    rw [glyphs_enclosed]
    exact recovers_enclosed (by decide) (fun n => reads_not) ih
  | isNull hx ih =>
    rw [glyphs_enclosed]
    exact recovers_enclosed (by decide) (fun n => reads_isNull hx.opens) ih
  | contains _ isLeaf ih =>
    rw [glyphs_search]
    exact recovers_search ih isLeaf
  | textSearch _ isLeaf ih =>
    rw [glyphs_search]
    exact recovers_search ih isLeaf
  | @aggregate name a x f t known _ hx _ ih =>
    obtain rfl := Aggregate.ofName?_eq_some.1 known
    have keyword : 0 < (ofText (a.keyword ++ "(")).length := by cases a <;> decide
    rw [glyphs_enclosed]
    exact recovers_enclosed keyword (fun n => reads_aggregate a hx.opens) ih
  | countAll known _ =>
    obtain rfl := Aggregate.ofName?_eq_some.1 known
    exact recovers_of_readText fun n hn => reads_countAll

end Emits

/-- The condition that every record meets is no expression in parentheses and no call. -/
theorem readBack_everyRecord : c.readBack CompiledCondition.everyRecord.template = .alwaysTrue :=
  rfl

/-- The expression of a fragment is read back, with its text searches in the one form that they
share. -/
theorem readBack_of_emits {e : Expr} {f : Fragment} (h : c.Emits e f) :
    c.readBack f.template = e.withSearches := by
  have whole := h.recovers _ (Nat.lt_succ_self _) []
  rw [List.append_nil] at whole
  rw [readBack, whole]

end Target

/-! ### Conditions -/

variable {table : String} {clause : Clause}

/-- The template of a compiled condition gives the expression back, up to the way in which text
searches are written. -/
theorem readBack_of_compile {e : Expr} {c : CompiledCondition}
    (h : compile table clause e = .ok c) :
    Target.readBack ⟨table, clause⟩ c.template = e.withSearches := by
  cases hc : c.alwaysTrue with
  | true =>
    obtain ⟨rfl, rfl⟩ := everyRecord_of_compile h hc
    exact Target.readBack_everyRecord
  | false =>
    obtain ⟨f, hf, rfl⟩ := emits_of_compile h hc
    exact Target.readBack_of_emits hf

/-- The compiler makes no difference between the two ways to write a text search, and between no
other expressions: templates have the same texts and sources of holes just if the expressions are
the same up to that. -/
theorem withSearches_eq_iff (table : String) (clause : Clause) :
    (∀ e, compile table clause e.withSearches = compile table clause e) ∧
    ∀ e e' c c', compile table clause e = .ok c → compile table clause e' = .ok c' →
      (c.template.texts = c'.template.texts ∧ c.parameters = c'.parameters ↔
        e.withSearches = e'.withSearches) := by
  refine ⟨compile_withSearches table clause, fun e e' c c' h h' => ⟨?_, fun same => ?_⟩⟩
  · rintro ⟨texts, parameters⟩
    have glyphs := Template.glyphs_congr texts parameters
    rw [← readBack_of_compile h, ← readBack_of_compile h', Target.readBack, glyphs,
      Target.readBack]
  · have compiled : compile table clause e = compile table clause e' := by
      rw [← compile_withSearches, same, compile_withSearches]
    rw [h, h'] at compiled
    cases compiled
    exact ⟨rfl, rfl⟩

/-- The null test of a negation and the negation of a null test have different templates. -/
theorem withSearches_eq_iff_nullTests :
    ∃ c c',
      compile "Stock" .condition (.isNull (.not (.field "flag" .bool))) = .ok c ∧
      compile "Stock" .condition (.not (.isNull (.field "flag" .bool))) = .ok c' ∧
      ¬ (c.template.texts = c'.template.texts ∧ c.parameters = c'.parameters) := by
  obtain ⟨c, h⟩ : ∃ c,
      compile "Stock" .condition (.isNull (.not (.field "flag" .bool))) = .ok c := ⟨_, rfl⟩
  obtain ⟨c', h'⟩ : ∃ c,
      compile "Stock" .condition (.not (.isNull (.field "flag" .bool))) = .ok c := ⟨_, rfl⟩
  refine ⟨c, c', h, h', fun same => ?_⟩
  cases ((withSearches_eq_iff "Stock" .condition).2 _ _ c c' h h').1 same

end StreamTable
