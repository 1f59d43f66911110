import Mathlib.Data.List.Basic
import StreamTable.Proofs.Condition.Emission

/-!
# Calls that are text searches

There are two ways to write a text search: as the node for it, or as a call of the text function
`contains` with two arguments.  `Expr.withSearches` writes them all in the first way.  The compiler
makes no difference between the two, neither in what it emits nor in what it refuses
(`compile_withSearches`).
-/

namespace StreamTable

namespace Expr

/-- A call, or the text search that it stands for. -/
def searchOrCall (space : Option String) (name : String) : List Expr → Expr
  | [x, pattern] =>
    if space = some textSpace ∧ name = "contains" then .contains x pattern
    else .call space name [x, pattern]
  | args => .call space name args

mutual

/-- The expression with a text search in the place of every call of the text function `contains`
with two arguments. -/
def withSearches : Expr → Expr
  | .constant v => .constant v
  | .attribute name t => .attribute name t
  | .field name t => .field name t
  | .compare op l r => .compare op l.withSearches r.withSearches
  | .and l r => .and l.withSearches r.withSearches
  | .or l r => .or l.withSearches r.withSearches
  | .not x => .not x.withSearches
  | .isNull x => .isNull x.withSearches
  | .contains x pattern => .contains x.withSearches pattern.withSearches
  | .math op l r => .math op l.withSearches r.withSearches
  | .call space name args => searchOrCall space name (withSearchesAll args)
  | .isIn x table => .isIn x.withSearches table

/-- The arguments with text searches in the place of calls. -/
def withSearchesAll : List Expr → List Expr
  | [] => []
  | x :: xs => x.withSearches :: withSearchesAll xs

end

theorem searchOrCall_of_other {space : Option String} {name : String}
    (h : ¬ (space = some textSpace ∧ name = "contains")) (args : List Expr) :
    searchOrCall space name args = .call space name args := by
  unfold searchOrCall
  split
  · exact if_neg h
  · rfl

theorem searchOrCall_of_length {args : List Expr} (h : args.length ≠ 2) (space : Option String)
    (name : String) : searchOrCall space name args = .call space name args := by
  unfold searchOrCall
  split
  · exact absurd rfl h
  · rfl

theorem length_withSearchesAll (args : List Expr) :
    (withSearchesAll args).length = args.length := by
  induction args with
  | nil => rfl
  | cons x xs ih => exact congrArg (· + 1) ih

/-- Only leaves become leaves. -/
theorem leaf?_withSearches (e : Expr) : e.withSearches.leaf? = e.leaf? := by
  cases e with
  | call space name args =>
    show (searchOrCall space name (withSearchesAll args)).leaf? = none
    unfold searchOrCall
    split
    · split <;> rfl
    · rfl
  | _ => rfl

theorem withSearches_of_leaf? {e : Expr} {l : Leaf} (h : e.leaf? = some l) :
    e.withSearches = e := by
  cases e <;> cases h <;> rfl

/-- What cannot be told of any expression that is not a leaf is not changed. -/
theorem withSearches_congr {β : Type} {f : Expr → β} {b : β} (h : ∀ e, e.leaf? = none → f e = b)
    (e : Expr) : f e.withSearches = f e := by
  cases he : e.leaf? with
  | some l => rw [withSearches_of_leaf? he]
  | none => rw [h e he, h e.withSearches ((leaf?_withSearches e).trans he)]

theorem isAlwaysTrue_withSearches (e : Expr) : e.withSearches.isAlwaysTrue = e.isAlwaysTrue :=
  withSearches_congr (b := false) (fun e he => by cases e <;> first | rfl | cases he) e

theorem isStreamLeaf_withSearches (e : Expr) : e.withSearches.isStreamLeaf = e.isStreamLeaf :=
  withSearches_congr (b := false) (fun e he => by cases e <;> first | rfl | cases he) e

end Expr

namespace Target

variable {c : Target}

theorem parameter?_withSearches (e : Expr) :
    c.parameter? e.withSearches = c.parameter? e := by
  rw [parameter?_eq, parameter?_eq, Expr.leaf?_withSearches]

/-- What is emitted for a call without a namespace depends on its arguments only if there is just
one. -/
theorem emit_call_none {name : String} {a : Aggregate} (h : Aggregate.ofName? name = some a)
    {args : List Expr} (length : args.length ≠ 1) :
    c.emit (.call none name args) = c.aggregate a args.length none := by
  unfold emit
  rw [h]
  dsimp only
  split
  · exact absurd rfl length
  · rfl

theorem emit_textSpace {args : List Expr} (length : args.length ≠ 2) :
    c.emit (.call (some Expr.textSpace) "contains" args) =
      .error (.arity (Expr.textSpace ++ ":" ++ "contains") (.exactly 2) args.length) := by
  unfold emit
  rw [if_pos ⟨rfl, rfl⟩]
  split
  · exact absurd rfl length
  · rfl

theorem emit_call_of_other {space name : String}
    (h : ¬ (space = Expr.textSpace ∧ name = "contains")) (args args' : List Expr) :
    c.emit (.call (some space) name args) = c.emit (.call (some space) name args') := by
  unfold emit
  rw [if_neg h, if_neg h]

theorem emit_withSearches (e : Expr) : c.emit e.withSearches = c.emit e := by
  -- The cases are the branches of `emit` in their order.
  induction e using Target.emit.induct (c := c) with
  | case1 v => rfl
  | case2 name t => rfl
  | case3 name t => rfl
  | case4 op l r ihl ihr => simp only [Expr.withSearches, emit, ihl, ihr]
  | case5 l r ihl ihr => simp only [Expr.withSearches, emit, ihl, ihr]
  | case6 l r ihl ihr => simp only [Expr.withSearches, emit, ihl, ihr]
  | case7 x ih => simp only [Expr.withSearches, emit, ih]
  | case8 x ih => simp only [Expr.withSearches, emit, ih]
  | case9 x pattern p hp ih =>
    simp only [Expr.withSearches, emit, parameter?_withSearches, hp, ih]
  | case10 x pattern hp => simp only [Expr.withSearches, emit, parameter?_withSearches, hp]
  | case11 op l r ihl ihr => simp only [Expr.withSearches, emit, ihl, ihr]
  | case12 name args hn =>
    rw [Expr.withSearches, Expr.searchOrCall_of_other (by simp)]
    simp only [emit, hn]
  | case13 name a hn x ih =>
    show c.emit (.call none name [x.withSearches]) = _
    simp only [emit, hn, ih]
  | case14 name a hn args hargs =>
    have length : args.length ≠ 1 := by
      intro h
      obtain ⟨x, rfl⟩ := List.length_eq_one_iff.1 h
      exact hargs x rfl
    have length' : (Expr.withSearchesAll args).length ≠ 1 := by
      rw [Expr.length_withSearchesAll]
      exact length
    rw [Expr.withSearches, Expr.searchOrCall_of_other (by simp), emit_call_none hn length,
      emit_call_none hn length', Expr.length_withSearchesAll]
  | case15 space name hs x pattern p hp ih =>
    obtain ⟨rfl, rfl⟩ := hs
    show c.emit (.contains x.withSearches pattern.withSearches) = _
    simp only [emit, parameter?_withSearches, hp, ih, and_self, if_true]
  | case16 space name hs x pattern hp =>
    obtain ⟨rfl, rfl⟩ := hs
    show c.emit (.contains x.withSearches pattern.withSearches) = _
    simp only [emit, parameter?_withSearches, hp, and_self, if_true]
  | case17 space name hs args hargs =>
    obtain ⟨rfl, rfl⟩ := hs
    have length : args.length ≠ 2 := by
      intro h
      obtain ⟨x, y, rfl⟩ := List.length_eq_two.1 h
      exact hargs x y rfl
    have length' : (Expr.withSearchesAll args).length ≠ 2 := by
      rw [Expr.length_withSearchesAll]
      exact length
    rw [Expr.withSearches, Expr.searchOrCall_of_length length', emit_textSpace length,
      emit_textSpace length', Expr.length_withSearchesAll]
  | case18 space name args hs hl =>
    rw [Expr.withSearches, Expr.searchOrCall_of_other (by simpa using hs), emit_call_of_other hs]
  | case19 space name args hs hl =>
    rw [Expr.withSearches, Expr.searchOrCall_of_other (by simpa using hs), emit_call_of_other hs]
  | case20 x table => rfl

end Target

/-- A call of the text function `contains` with two arguments is compiled like the text search. -/
theorem compile_withSearches (table : String) (clause : Clause) (e : Expr) :
    compile table clause e.withSearches = compile table clause e := by
  unfold compile
  rw [Expr.isAlwaysTrue_withSearches, Expr.isStreamLeaf_withSearches, Target.emit_withSearches]

end StreamTable
