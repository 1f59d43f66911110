import StreamTable.Proofs.Query.Tokens

/-!
# Parentheses in query text

`Token.depth` counts the parentheses that are opened and not closed.  `Token.Grouped` says of the
tokens of a text that nothing beside them can take its operators apart: the parentheses match, and
every operator stands inside of them.

A text is grouped if it is an operand, which is a leaf without blanks, or one pair of parentheses,
perhaps behind the name of a function (`Token.Operand.grouped`).
-/

namespace StreamTable.Token

variable {ts us head inner : List Token}

/-! ### Matching parentheses -/

/-- What a token adds to the number of open parentheses. -/
def nesting : Token → Int
  | .opening => 1
  | .closing => -1
  | .word _ | .comparison _ | .text _ | .datum _ | .mark _ => 0

/-- The number of parentheses that are opened and not closed. -/
def depth : List Token → Int
  | [] => 0
  | t :: ts => t.nesting + depth ts

@[simp] theorem depth_nil : depth [] = 0 := rfl

@[simp] theorem depth_cons (t : Token) (ts : List Token) : depth (t :: ts) = t.nesting + depth ts :=
  rfl

@[simp] theorem depth_append (ts us : List Token) : depth (ts ++ us) = depth ts + depth us := by
  induction ts with
  | nil => exact (Int.zero_add _).symm
  | cons t ts ih => rw [List.cons_append, depth_cons, depth_cons, ih, Int.add_assoc]

theorem depth_eq_zero (flat : ∀ t ∈ ts, t.nesting = 0) : depth ts = 0 := by
  induction ts with
  | nil => rfl
  | cons t ts ih =>
    have first := flat t List.mem_cons_self
    have rest := ih fun u hu => flat u (List.mem_cons_of_mem t hu)
    rw [depth_cons, first, rest, Int.add_zero]

/-- Every parenthesis is closed, and none is closed before it is opened. -/
structure Balanced (ts : List Token) : Prop where
  depth_eq : depth ts = 0
  nonneg : ∀ before after, ts = before ++ after → 0 ≤ depth before

theorem balanced_of_flat (flat : ∀ t ∈ ts, t.nesting = 0) : Balanced ts := by
  refine ⟨depth_eq_zero flat, ?_⟩
  rintro before after rfl
  exact Int.le_of_eq (depth_eq_zero fun t ht => flat t (List.mem_append_left after ht)).symm

/-- Balanced tokens stay balanced one after the other. -/
theorem Balanced.append (ht : Balanced ts) (hu : Balanced us) : Balanced (ts ++ us) := by
  refine ⟨by rw [depth_append, ht.depth_eq, hu.depth_eq, Int.add_zero], ?_⟩
  intro before after h
  obtain ⟨rest, rfl, split⟩ | ⟨rest, rfl, _⟩ := List.append_eq_append_iff.1 h
  · have nonneg := hu.nonneg rest after split
    rw [depth_append, ht.depth_eq]
    omega
  · exact ht.nonneg before rest rfl

/-- Inside of parentheses everything is deeper. -/
theorem Balanced.one_le_depth (hi : Balanced inner) {before after : List Token} {t : Token}
    (h : inner ++ [.closing] = before ++ t :: after) : 1 ≤ 1 + depth before := by
  obtain ⟨rest, rfl, split⟩ | ⟨rest, rfl, _⟩ := List.append_eq_append_iff.1 h
  · -- The token is the closing parenthesis.
    obtain ⟨rfl, _⟩ | ⟨_, none⟩ := List.singleton_eq_append_iff.1 split
    · rw [List.append_nil, hi.depth_eq]
      omega
    · cases none
  · have nonneg := hi.nonneg before rest rfl
    omega

/-- Balanced tokens stay balanced in parentheses. -/
theorem Balanced.enclosed (hi : Balanced inner) : Balanced (.opening :: (inner ++ [.closing])) := by
  refine ⟨by simp [hi.depth_eq, nesting], ?_⟩
  intro before after h
  cases before with
  | nil => exact Int.le_refl 0
  | cons t before =>
    obtain ⟨rfl, tail⟩ : .opening = t ∧ inner ++ [.closing] = before ++ after := by simpa using h
    show 0 ≤ 1 + depth before
    cases after with
    | nil =>
      rw [List.append_nil] at tail
      simp [← tail, hi.depth_eq, nesting]
    | cons u after =>
      have deeper := hi.one_le_depth tail
      omega

/-! ### Operators -/

/-- The words that operators are written with. -/
def operatorWords : List (List Char) := ["AND", "OR", "NOT", "IS", "NULL"].map String.toList

/-- The token is an operator, or a part of one.  A mark may be a sign of a number as well, and the
last of the words a literal; the other operators are structural tokens. -/
def isOperator : Token → Bool
  | .comparison _ => true
  | .word cs => operatorWords.contains (cs.map Char.toUpper)
  | .mark c => ['+', '-', '*', '/', '%'].contains c
  | .opening | .closing | .text _ | .datum _ => false

/-- A blank stands directly before or after the place between two lists of tokens. -/
def SetOff (before after : List Token) : Prop :=
  before.getLast? = some (.mark ' ') ∨ after.head? = some (.mark ' ')

/-- Nothing beside the tokens takes their operators apart: the parentheses match, and an operator
that is set off by a blank stands inside of them.  Where no field is known by its bare name, so does
every structural operator. -/
structure Grouped (qualified : Bool) (ts : List Token) : Prop where
  balanced : Balanced ts
  setOff : ∀ before t after, ts = before ++ t :: after → t.isOperator = true →
    SetOff before after → 1 ≤ depth before
  structural : qualified = true → ∀ before t after, ts = before ++ t :: after →
    t.isOperator = true → t.isStructural = true → 1 ≤ depth before

/-- Spliced into other tokens, the tokens change no depth but their own.  What follows stands where
it would without them, none of them closes a parenthesis before them, and their operators are deeper
than the place. -/
structure Nested (before ts after : List Token) : Prop where
  following : ∀ us vs, after = us ++ vs → depth (before ++ ts ++ us) = depth (before ++ us)
  within : ∀ us vs, ts = us ++ vs → depth before ≤ depth (before ++ us)
  operators : ∀ us t vs, ts = us ++ t :: vs → t.isOperator = true → SetOff us vs →
    depth before < depth (before ++ us)

theorem Grouped.nested {qualified : Bool} (h : Grouped qualified ts) (before after : List Token) :
    Nested before ts after := by
  obtain ⟨⟨closed, nonneg⟩, setOff, _⟩ := h
  refine ⟨?_, ?_, ?_⟩
  · intro us _ _
    simp only [depth_append, closed, Int.add_zero]
  · intro us vs split
    have inside := nonneg us vs split
    rw [depth_append]
    omega
  · intro us t vs split operator blank
    have deeper := setOff us t vs split operator blank
    rw [depth_append]
    omega

/-- The tokens of an operand: of a leaf, or of one pair of parentheses, perhaps behind a name. -/
inductive Operand (qualified : Bool) : List Token → Prop where
  | leaf {ts : List Token} (flat : ∀ t ∈ ts, t.nesting = 0) (solid : ∀ t ∈ ts, t ≠ .mark ' ')
      (plain : qualified = true → ∀ t ∈ ts, t.isStructural = false) : Operand qualified ts
  | group {head inner : List Token} (flat : ∀ t ∈ head, t.nesting = 0)
      (name : ∀ t ∈ head, t.isOperator = false) (hi : Balanced inner) :
      Operand qualified (head ++ .opening :: (inner ++ [.closing]))

/-- If a name and one pair of parentheses have an operator, it stands inside of the parentheses. -/
theorem one_le_depth_of_group (flat : ∀ t ∈ head, t.nesting = 0)
    (name : ∀ t ∈ head, t.isOperator = false) (hi : Balanced inner)
    {before after : List Token} {t : Token} (operator : t.isOperator = true)
    (h : head ++ .opening :: (inner ++ [.closing]) = before ++ t :: after) : 1 ≤ depth before := by
  obtain ⟨rest, rfl, split⟩ | ⟨rest, rfl, split⟩ := List.append_eq_append_iff.1 h
  · cases rest with
    | nil =>
      -- The opening parenthesis is no operator.
      obtain ⟨rfl, _⟩ := List.cons.inj split
      cases operator
    | cons u rest =>
      obtain ⟨rfl, tail⟩ : .opening = u ∧ inner ++ [.closing] = rest ++ t :: after := by
        simpa using split
      have deeper := hi.one_le_depth tail
      rw [depth_append, depth_eq_zero flat, depth_cons, nesting, Int.zero_add]
      exact deeper
  · cases rest with
    | nil =>
      obtain ⟨rfl, _⟩ := List.cons.inj split
      cases operator
    | cons u rest =>
      obtain ⟨rfl, _⟩ := List.cons.inj split
      rw [name t (List.mem_append_right before List.mem_cons_self)] at operator
      cases operator

namespace Operand

variable {qualified : Bool}

theorem balanced (h : Operand qualified ts) : Balanced ts := by
  cases h with
  | leaf flat _ _ => exact balanced_of_flat flat
  | group flat _ hi => exact (balanced_of_flat flat).append hi.enclosed

/-- The operators of an operand stand inside of its parentheses. -/
theorem grouped (h : Operand qualified ts) : Grouped qualified ts := by
  refine ⟨h.balanced, ?_, ?_⟩
  · intro before t after split operator setOff
    cases h with
    | leaf flat solid _ =>
      subst split
      -- The blank would be a token of the leaf.
      obtain last | first := setOff
      · have blank := List.mem_of_getLast? last
        exact absurd rfl (solid _ (List.mem_append_left _ blank))
      · have blank := List.mem_cons_of_mem t (List.mem_of_head? first)
        exact absurd rfl (solid _ (List.mem_append_right _ blank))
    | group flat name hi => exact one_le_depth_of_group flat name hi operator split
  · intro qualified before t after split operator structural
    cases h with
    | leaf flat _ plain =>
      subst split
      rw [plain qualified t (List.mem_append_right _ List.mem_cons_self)] at structural
      cases structural
    | group flat name hi => exact one_le_depth_of_group flat name hi operator split

end Operand

/-! ### Texts -/

/-- The text ends outside of quotes, and its parentheses match. -/
def Closed (s : String) : Prop := ∃ ts, tokens? s.toList = some ts ∧ Balanced ts

/-- The text ends outside of quotes and is an operand. -/
def IsOperand (qualified : Bool) (s : String) : Prop :=
  ∃ ts, tokens? s.toList = some ts ∧ Operand qualified ts

theorem IsOperand.closed {qualified : Bool} {s : String} (h : IsOperand qualified s) :
    Closed s := by
  obtain ⟨ts, scanned, operand⟩ := h
  exact ⟨ts, scanned, operand.balanced⟩

theorem closed_of_tokens? {s : String} (scanned : tokens? s.toList = some ts)
    (flat : ∀ t ∈ ts, t.nesting = 0) : Closed s :=
  ⟨ts, scanned, balanced_of_flat flat⟩

/-- Closed texts can be put together where they do not run into one another. -/
theorem Closed.append {s t : String} (hs : Closed s) (ht : Closed t)
    (seam : Seam s.toList t.toList) : Closed (s ++ t) := by
  obtain ⟨ts, left, closed⟩ := hs
  obtain ⟨us, right, closed'⟩ := ht
  refine ⟨ts ++ us, ?_, closed.append closed'⟩
  rw [String.toList_append]
  exact tokens?_append left right seam

/-- The text is an opening parenthesis, perhaps behind a name that is no operator. -/
structure Opens (s : String) : Prop where
  last : s.toList.getLast?.any isDelimiter = true
  tokens : ∃ head : List Token, tokens? s.toList = some (head ++ [.opening]) ∧
    ∀ t ∈ head, t.nesting = 0 ∧ t.isOperator = false

theorem opens_parenthesis : Opens "(" :=
  ⟨by decide, [], by decide, List.forall_mem_nil _⟩

/-- A text in parentheses, perhaps behind a name, is an operand. -/
theorem Closed.isOperand {before s : String} (hs : Closed s) (hb : Opens before)
    (qualified : Bool) : IsOperand qualified (before ++ s ++ ")") := by
  obtain ⟨ts, scanned, closed⟩ := hs
  obtain ⟨last, head, opened, name⟩ := hb
  have inside := tokens?_append opened scanned (.inl last)
  have closing : tokens? [')'] = some [.closing] := by decide
  have whole := tokens?_append inside closing (.inr (by decide))
  refine ⟨head ++ .opening :: (ts ++ [.closing]), ?_, ?_⟩
  · simpa using whole
  · exact .group (fun t ht => (name t ht).1) (fun t ht => (name t ht).2) closed

end StreamTable.Token
