import StreamTable.Condition.Resolve
import StreamTable.Proofs.Condition.Emission
import StreamTable.Proofs.Template.Segments

/-!
# Patterns by number

A hole of a compiled condition carries with it whether it is a pattern.  A condition can also be
kept as lists (`Numbered`): its texts, the sources of its holes, and the numbers of the holes that
are patterns.  Then an expression is compiled by a walk over it that adds to the lists that are
there already, and before a pattern is visited the number of the holes so far is noted
(`Target.visit`).  To bind the lists, the number of each hole is looked up among those of the
patterns (`Numbered.render`).

Both ways are the same: the walk gives the lists of the condition that is compiled, or its error
(`compileNumbered_eq`), and what is bound is the condition (`CompiledCondition.resolve_eq_render`).
-/

namespace StreamTable

/-! ### Positions of patterns -/

namespace Slot

/-- The positions of the holes that are patterns. -/
def patternPositions (slots : List Slot) : List Nat :=
  slots.zipIdx.filterMap fun (slot, i) => if slot.isPattern then some i else none

@[simp] theorem patternPositions_nil : patternPositions [] = [] := rfl

@[simp] theorem patternPositions_singleton (p : Parameter) (isPattern : Bool) :
    patternPositions [⟨p, isPattern⟩] = if isPattern then [0] else [] := by
  cases isPattern <;> rfl

/-- A position is one of a pattern just if the hole there is a pattern. -/
theorem mem_patternPositions {slots : List Slot} {i : Nat} :
    i ∈ patternPositions slots ↔ ∃ slot, slots[i]? = some slot ∧ slot.isPattern = true := by
  simp [patternPositions, List.mem_filterMap, List.mem_zipIdx_iff_getElem?]

/-- Every position is one of a hole. -/
theorem lt_of_mem_patternPositions {slots : List Slot} {i : Nat}
    (h : i ∈ patternPositions slots) : i < slots.length := by
  obtain ⟨slot, hs, _⟩ := mem_patternPositions.1 h
  exact (List.getElem?_eq_some_iff.1 hs).1

/-- The positions are in strictly ascending order. -/
theorem pairwise_patternPositions (slots : List Slot) :
    (patternPositions slots).Pairwise (· < ·) := by
  -- The holes are numbered in ascending order, and some of the numbers are kept.
  have h : slots.zipIdx.Pairwise fun a b => a.2 < b.2 := by
    rw [← List.pairwise_map (f := Prod.snd) (R := (· < ·)), List.zipIdx_map_snd]
    exact List.pairwise_lt_range'
  unfold patternPositions
  refine List.Pairwise.filterMap _ ?_ h
  intro a b hab i hi j hj
  simp only [Option.ite_none_right_eq_some, Option.some.injEq] at hi hj
  rw [← hi.2, ← hj.2]
  exact hab

/-- The patterns of further holes are counted after all holes before them. -/
theorem patternPositions_append (s t : List Slot) :
    patternPositions (s ++ t) = patternPositions s ++ (patternPositions t).map (s.length + ·) := by
  unfold patternPositions
  rw [List.zipIdx_append, List.filterMap_append, Nat.zero_add,
    List.zipIdx_eq_map_add (l := t) (i := s.length), List.filterMap_map, List.map_filterMap]
  congr 2
  funext p
  cases h : p.1.isPattern <;> simp [h, Nat.add_comm]

end Slot

/-! ### Lists with numbered patterns -/

/-- The texts of a condition, the sources of its holes, and the numbers of those that are
patterns. -/
structure Numbered where
  /-- The texts and the sources of the holes. -/
  segments : Segmented Parameter
  /-- The numbers of the patterns. -/
  ordinals : List Nat

namespace Numbered

/-- Nothing but an empty text. -/
def empty : Numbered := ⟨.empty, []⟩

/-- Fixed text at the end. -/
def pushText (n : Numbered) (s : String) : Numbered := { n with segments := n.segments.pushText s }

/-- A hole at the end. -/
def pushHole (n : Numbered) (p : Parameter) : Numbered :=
  { n with segments := n.segments.pushHole p }

/-- Note that the next hole is a pattern. -/
def notePattern (n : Numbered) : Numbered :=
  { n with ordinals := n.ordinals ++ [n.segments.holes.length] }

end Numbered

namespace Template

/-- The lists of a template. -/
def numbered (t : Template Slot) : Numbered :=
  ⟨(t.map Slot.parameter).segmented, Slot.patternPositions t.holes⟩

theorem length_holes_numbered (t : Template Slot) :
    t.numbered.segments.holes.length = t.holes.length := by
  show (t.map Slot.parameter).holes.length = _
  rw [holes_map, List.length_map]

/-- Fixed text after a template is fixed text after its lists. -/
theorem numbered_append_text (t : Template Slot) (s : String) :
    (t ++ text s).numbered = t.numbered.pushText s := by
  have texts : (t ++ text s).map Slot.parameter = (t.map Slot.parameter).pushText s :=
    map_append _ _ _
  rw [numbered, texts, segmented_pushText, holes_append, holes_text, List.append_nil]
  rfl

/-- A hole after a template is noted if it is a pattern, and then added. -/
theorem numbered_append_hole (t : Template Slot) (slot : Slot) :
    (t ++ hole slot).numbered =
      (if slot.isPattern then t.numbered.notePattern else t.numbered).pushHole
        slot.parameter := by
  obtain ⟨p, isPattern⟩ := slot
  let pattern : Slot := ⟨p, isPattern⟩
  have texts : (t ++ hole pattern).map Slot.parameter = (t.map Slot.parameter).pushHole p :=
    map_append _ _ _
  rw [numbered, texts, segmented_pushHole, holes_append, holes_hole,
    Slot.patternPositions_append, Slot.patternPositions_singleton]
  cases isPattern with
  | false => simp [numbered, Numbered.pushHole]
  | true => simp [numbered, Numbered.notePattern, Numbered.pushHole, ← length_holes_numbered]

end Template

/-! ### The walk over an expression -/

/-- Refuse a type that does not qualify. -/
def checkType (type? : Option AttributeType) (qualifies : AttributeType → Bool)
    (error : AttributeType → CompileError) : Except CompileError Unit :=
  match type? with
  | some t => if qualifies t then .ok () else .error (error t)
  | none => .ok ()

/-- The walk checks a type as the compiler checks the fragment of that type. -/
theorem checkType_eq (f : Fragment) (qualifies : AttributeType → Bool)
    (error : AttributeType → CompileError) :
    checkType f.type? qualifies error = f.expect qualifies error := rfl

/-- Adding to lists, with the type of what was added. -/
abbrev Walk := Numbered → Except CompileError (Option AttributeType × Numbered)

namespace Walk

/-- Two operands around an operator, in parentheses. -/
def binary (left : Walk) (op : String) (right : Walk) (n : Numbered) :
    Except CompileError (Option AttributeType × Option AttributeType × Numbered) := do
  let (s, n) ← left (n.pushText "(")
  let (t, n) ← right (((n.pushText " ").pushText op).pushText " ")
  return (s, t, n.pushText ")")

/-- A text search. -/
def search (text : Walk) (patternIsLeaf : Bool) (pattern : Walk) : Walk := fun n =>
  if patternIsLeaf then do
    let (_, n) ← text (n.pushText "CONTAINS(")
    let (_, n) ← pattern (n.pushText ", ").notePattern
    return (some .bool, n.pushText ")")
  else .error .patternNotLeaf

end Walk

namespace Target

/-- Add what a part of an expression becomes to the lists. -/
def visit (c : Target) : Expr → Walk
  | .constant v => fun n => .ok (v.type?, n.pushHole (.constant v))
  | .attribute name t => fun n => .ok (some t, n.pushHole (.attribute name t))
  | .field name t => fun n => .ok (some t, n.pushHole (.field (c.path name) t))
  | .compare op l r => fun n => do
    let (s, t, n) ← (c.visit l).binary op.symbol (c.visit r) n
    if op.isOrdering then
      checkType s AttributeType.isOrdered (.notOrderable op)
      checkType t AttributeType.isOrdered (.notOrderable op)
    return (some .bool, n)
  | .and l r => fun n => do
    let (s, t, n) ← (c.visit l).binary LogicOp.and.symbol (c.visit r) n
    checkType s (· = .bool) (.notBoolean .and)
    checkType t (· = .bool) (.notBoolean .and)
    return (some .bool, n)
  | .or l r => fun n => do
    let (s, t, n) ← (c.visit l).binary LogicOp.or.symbol (c.visit r) n
    checkType s (· = .bool) (.notBoolean .or)
    checkType t (· = .bool) (.notBoolean .or)
    return (some .bool, n)
  | .not x => fun n => do
    let (t, n) ← c.visit x (n.pushText "(NOT ")
    checkType t (· = .bool) (.notBoolean .not)
    return (some .bool, n.pushText ")")
  | .isNull x => fun n => do
    let (_, n) ← c.visit x (n.pushText "(")
    return (some .bool, n.pushText " IS NULL)")
  | .contains x pattern => (c.visit x).search pattern.isLeaf (c.visit pattern)
  | .math op l r => fun n => do
    let (s, t, n) ← (c.visit l).binary op.symbol (c.visit r) n
    checkType s AttributeType.isNumeric (.notArithmetic op)
    checkType t AttributeType.isNumeric (.notArithmetic op)
    return (AttributeType.wider? s t, n)
  | .call none name args => fun n =>
    match Aggregate.ofName? name with
    | none => .error (.unsupportedFunction name)
    | some a => do
      unless c.clause.allowsAggregates do throw (.aggregateNotAllowed a.name c.clause)
      let n := (n.pushText a.keyword).pushText "("
      let (t, n) ← match args with
        | [x] => c.visit x n
        | args =>
          if a = .count ∧ args.length = 0 then pure (none, n.pushText "1")
          else throw (.arity a.name a.arity args.length)
      return (← a.resultType? t, n.pushText ")")
  | .call (some space) name args =>
    if space = Expr.textSpace ∧ name = "contains" then
      match args with
      | [x, pattern] => (c.visit x).search pattern.isLeaf (c.visit pattern)
      | args => fun _ => .error (.arity (space ++ ":" ++ name) (.exactly 2) args.length)
    else if space = Expr.incrementalSpace ∧ name = "last" then fun _ => .error .lastValueMisplaced
    else fun _ => .error (.unsupportedFunction (space ++ ":" ++ name))
  | .isIn _ _ => fun _ => .error .unsupportedMembership

end Target

namespace Walk

/-- The walk adds what is emitted to the lists of any template. -/
def Adds (w : Walk) (emitted : Except CompileError Fragment) : Prop :=
  ∀ t : Template Slot,
    w t.numbered = (fun f => (f.type?, (t ++ f.template).numbered)) <$> emitted

variable {v w : Walk} {x y : Except CompileError Fragment}

/-- With two operands, the walk goes on after the second one from what the first one added. -/
theorem Adds.binary (hx : v.Adds x) (hy : w.Adds y) (op : String) (t : Template Slot) :
    v.binary op w t.numbered = do
      let f ← x
      let g ← y
      return (f.type?, g.type?, (t ++ f.binary op g).numbered) := by
  simp only [Walk.binary, ← Template.numbered_append_text, hx _, hy _, bind_map_left,
    Fragment.binary, Template.text_append, Template.append_assoc]

/-- A pattern is noted before it is visited, so its number is that of the holes before it. -/
theorem Adds.search (hx : w.Adds x) {pattern : Walk} {p : Parameter} {type? : Option AttributeType}
    (leaf : ∀ n, pattern n = pure (type?, n.pushHole p)) :
    (w.search true pattern).Adds (do return (← x).search p) := by
  intro t
  have noted (u : Template Slot) : u.numbered.notePattern.pushHole p =
      (u ++ Template.hole (⟨p, true⟩ : Slot)).numbered :=
    (u.numbered_append_hole ⟨p, true⟩).symm
  simp only [Walk.search, ← Template.numbered_append_text, hx _, leaf, noted, bind_map_left,
    pure_bind, map_bind, map_pure, if_true, Fragment.search, Template.append_assoc]

end Walk

namespace Target

variable {c : Target}

/-- The walk adds one hole for a leaf, whatever was added before. -/
theorem visit_of_leaf? {e : Expr} {l : Leaf} (h : e.leaf? = some l) (n : Numbered) :
    c.visit e n = .ok (l.type?, n.pushHole (l.parameter c.table c.clause)) := by
  cases e <;> cases h <;> simp [visit, Leaf.parameter, Leaf.type?, path_eq_fieldPath]

/-- A leaf adds its hole. -/
theorem adds_leaf {e : Expr} {l : Leaf} (h : e.leaf? = some l) : (c.visit e).Adds (c.emit e) := by
  intro t
  rw [visit_of_leaf? h, emit_of_leaf? h]
  exact congrArg (fun n => Except.ok (l.type?, n)) (t.numbered_append_hole ⟨_, false⟩).symm

/-- A text search whose pattern is a leaf adds the holes of both. -/
theorem adds_search {x pattern : Expr} {p : Parameter} (hp : c.parameter? pattern = some p)
    (hx : (c.visit x).Adds (c.emit x)) :
    ((c.visit x).search pattern.isLeaf (c.visit pattern)).Adds
      (do return (← c.emit x).search p) := by
  obtain ⟨l, hl, rfl⟩ := parameter?_eq_some hp
  have isLeaf : pattern.isLeaf = true := by cases pattern <;> cases hl <;> rfl
  rw [isLeaf]
  exact hx.search (visit_of_leaf? hl)

/-- A text search with any other pattern is refused. -/
theorem refuses_search {x pattern : Expr} (hp : c.parameter? pattern = none) :
    ((c.visit x).search pattern.isLeaf (c.visit pattern)).Adds (.error .patternNotLeaf) := by
  have isLeaf : pattern.isLeaf = false := by cases pattern <;> first | rfl | cases hp
  intro t
  rw [isLeaf]
  rfl

/-- The walk over an expression adds what the compiler emits for it. -/
theorem adds_visit (e : Expr) : (c.visit e).Adds (c.emit e) := by
  -- The cases are the branches of `emit` in their order.
  induction e using Target.emit.induct (c := c) with
  | case1 v => exact adds_leaf rfl
  | case2 name t => exact adds_leaf rfl
  | case3 name t => exact adds_leaf rfl
  | case4 op l r ihl ihr =>
    intro t
    rw [visit, emit]
    simp only [ihl.binary ihr, bind_assoc, pure_bind, map_bind, checkType_eq]
    by_cases ho : op.isOrdering = true
    · simp only [ho, if_true, map_bind, map_pure]
    · simp only [ho, Bool.false_eq_true, if_false, map_pure]
  | case5 l r ihl ihr | case6 l r ihl ihr =>
    intro t
    rw [visit, emit]
    simp only [ihl.binary ihr, bind_assoc, pure_bind, map_bind, map_pure, checkType_eq]
  | case7 x ih =>
    intro t
    rw [visit, emit]
    simp only [← Template.numbered_append_text, ih _, bind_map_left, map_bind, map_pure,
      checkType_eq, Template.append_assoc]
  | case8 x ih =>
    intro t
    rw [visit, emit]
    simp only [← Template.numbered_append_text, ih _, bind_map_left, map_bind, map_pure,
      Template.append_assoc]
  | case9 x pattern p hp ih =>
    intro t
    simp only [visit, emit, hp]
    exact adds_search hp ih t
  | case10 x pattern hp =>
    intro t
    simp only [visit, emit, hp]
    exact refuses_search hp t
  | case11 op l r ihl ihr =>
    intro t
    rw [visit, emit]
    simp only [ihl.binary ihr, bind_assoc, pure_bind, map_bind, map_pure, checkType_eq]
  | case12 name args hn =>
    intro t
    simp only [visit, emit, hn]
    rfl
  | case13 name a hn x ih =>
    intro t
    simp only [visit, emit, hn, aggregate]
    by_cases allowed : c.clause.allowsAggregates = true
    · simp only [allowed, if_true, ← Template.numbered_append_text, ih _, bind_map_left, map_bind,
        map_pure, Template.text_append, Template.append_assoc]
    · simp only [allowed, Bool.false_eq_true, if_false]
      rfl
  | case14 name a hn args hargs =>
    intro t
    simp only [visit, emit, hn, aggregate]
    by_cases allowed : c.clause.allowsAggregates = true
    · by_cases counts : a = .count ∧ args.length = 0
      · simp only [allowed, counts, and_self, if_true, ← Template.numbered_append_text, pure_bind,
          map_bind, map_pure, Template.text_append, Template.append_assoc]
      · simp only [allowed, counts, if_true, if_false]
        rfl
    · simp only [allowed, Bool.false_eq_true, if_false]
      rfl
  | case15 space name hs x pattern p hp ih =>
    intro t
    simp only [visit, emit, hs, hp, and_self, if_true]
    exact adds_search hp ih t
  | case16 space name hs x pattern hp =>
    intro t
    simp only [visit, emit, hs, hp, and_self, if_true]
    exact refuses_search hp t
  | case17 space name hs args hargs =>
    intro t
    simp only [visit, emit, hs, and_self, if_true]
    rfl
  | case18 space name args hs hl =>
    intro t
    unfold visit emit
    rw [if_neg hs, if_pos hl, if_neg hs, if_pos hl]
    rfl
  | case19 space name args hs hl =>
    intro t
    unfold visit emit
    rw [if_neg hs, if_neg hl, if_neg hs, if_neg hl]
    rfl
  | case20 x table =>
    intro t
    rw [visit, emit]
    rfl

end Target

/-! ### Compiling by the walk -/

/-- Compile an expression by a walk over it: the lists, the type, and whether every record meets the
condition. -/
def compileNumbered (table : String) (clause : Clause) (e : Expr) :
    Except CompileError (Numbered × Option AttributeType × Bool) :=
  if clause = .condition ∧ e.isAlwaysTrue then
    .ok (⟨.ofText CompiledCondition.alwaysTrueText, []⟩, some .bool, true)
  else if clause = .setAttribute ∧ !e.isStreamLeaf then .error .setValueNotLeaf
  else do
    let (type?, n) ← Target.visit ⟨table, clause⟩ e .empty
    return (n, type?, false)

namespace CompiledCondition

/-- The lists of a condition. -/
def numbered (c : CompiledCondition) : Numbered := c.template.numbered

/-- What the walk over an expression gives for the condition. -/
def asNumbered (c : CompiledCondition) : Numbered × Option AttributeType × Bool :=
  (c.numbered, c.resultType, c.alwaysTrue)

end CompiledCondition

/-- The walk over an expression gives the lists of the condition that is compiled, and is refused
with the same error. -/
theorem compileNumbered_eq (table : String) (clause : Clause) (e : Expr) :
    compileNumbered table clause e = (compile table clause e).map CompiledCondition.asNumbered := by
  have walk : (Target.visit ⟨table, clause⟩ e) .empty = _ := Target.adds_visit e .empty
  unfold compileNumbered compile
  rw [walk]
  simp only [bind_map_left, Template.empty_append]
  split
  · rfl
  · split
    · rfl
    · cases Target.emit ⟨table, clause⟩ e <;> rfl

/-! ### Binding lists -/

namespace Numbered

/-- Add a text and what fills the hole after it: a pattern just if the number of the hole is among
those of the patterns. -/
def renderStep (ordinals : List Nat) (values : Values) (out : String)
    (next : (String × Parameter) × Nat) : Except BindError String := do
  return out ++ next.1.1 ++ (← Slot.fill values ⟨next.1.2, ordinals.contains next.2⟩)

/-- Some text, followed by texts and holes that are numbered from some number on: each hole after
the text before it, and then the text behind the last hole. -/
def renderFrom (ordinals : List Nat) (values : Values) (k : Nat) (texts : List String)
    (holes : List Parameter) (out : String) : Except BindError String := do
  let out ← ((texts.zip holes).zipIdx k).foldlM (renderStep ordinals values) out
  return out ++ (texts[holes.length]?).getD ""

/-- The query text of the lists for some runtime values. -/
def render (n : Numbered) (values : Values) : Except BindError String :=
  renderFrom n.ordinals values 0 n.segments.texts n.segments.holes ""

/-- The first hole is passed by filling it and going on with the next number. -/
theorem renderFrom_cons (ordinals : List Nat) (values : Values) (k : Nat) (lead : String)
    (p : Parameter) (texts : List String) (holes : List Parameter) (out : String) :
    renderFrom ordinals values k (lead :: texts) (p :: holes) out =
      Slot.fill values ⟨p, ordinals.contains k⟩ >>= fun filled =>
        renderFrom ordinals values (k + 1) texts holes (out ++ lead ++ filled) := by
  simp only [renderFrom, List.zip_cons_cons, List.zipIdx_cons, List.foldlM_cons, renderStep,
    bind_assoc, pure_bind, List.length_cons, List.getElem?_cons_succ]

/-- If the numbers are those of the holes that are patterns, then the holes are filled as those of
the template. -/
theorem renderFrom_holes (ordinals : List Nat) (values : Values) (k : Nat) (t : Template Slot)
    (out : String)
    (found : ∀ i slot, t.holes[i]? = some slot → ordinals.contains (k + i) = slot.isPattern) :
    renderFrom ordinals values k t.texts (t.holes.map Slot.parameter) out =
      (fun text => out ++ text) <$> t.fill (Slot.fill values) := by
  obtain ⟨lead, rest⟩ := t
  -- A hole is passed by going on behind it, with the next number and what was written so far.
  induction rest generalizing lead k out with
  | nil =>
    have written : out ++ lead = out ++ (lead ++ "") := by rw [String.append_empty]
    exact congrArg Except.ok written
  | cons p rest ih =>
    have first : ordinals.contains k = p.1.isPattern := found 0 p.1 rfl
    have others (out : String) := ih (k + 1) out p.2 fun i slot h => by
      rw [Nat.add_assoc, Nat.add_comm 1]
      exact found (i + 1) slot h
    have step := renderFrom_cons ordinals values k lead p.1.parameter (p.2 :: rest.map (·.2))
      ((rest.map (·.1)).map Slot.parameter) out
    refine step.trans ?_
    rw [first]
    simp only [Template.texts, Template.holes, Template.fill, map_bind, map_pure] at others
    simp only [others, Template.fill, Template.fillRest, bind_assoc, pure_bind, map_bind, map_pure,
      String.append_assoc]

end Numbered

/-- A hole is filled as a pattern just if it is one. -/
theorem Slot.contains_patternPositions {slots : List Slot} {i : Nat} {slot : Slot}
    (h : slots[i]? = some slot) : (patternPositions slots).contains i = slot.isPattern := by
  rw [Bool.eq_iff_iff, List.contains_iff_mem, mem_patternPositions, h]
  simp

namespace CompiledCondition

/-- To bind a condition is to bind its lists. -/
theorem resolve_eq_render (c : CompiledCondition) (values : Values) :
    c.resolve values = if c.alwaysTrue then .ok "" else c.numbered.render values := by
  have found : ∀ i slot, c.template.holes[i]? = some slot →
      c.numbered.ordinals.contains (0 + i) = slot.isPattern := by
    intro i slot h
    rw [Nat.zero_add]
    exact Slot.contains_patternPositions h
  have lists : c.numbered.render values = Numbered.renderFrom c.numbered.ordinals values 0
      c.template.texts (c.template.holes.map Slot.parameter) "" := by
    rw [← Template.texts_map Slot.parameter, ← Template.holes_map]
    rfl
  rw [resolve, lists, Numbered.renderFrom_holes _ values 0 c.template "" found]
  simp only [String.empty_append, id_map']

end CompiledCondition

end StreamTable
