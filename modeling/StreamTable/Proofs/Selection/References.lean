import StreamTable.Selection.Compiled
import StreamTable.Text.Identifier
import StreamTable.Proofs.Condition.Emission

/-!
# References to the sub-select

`SubSelect.RefersTo names text` says that wherever the text goes on with `t2.`, one of the names
follows.  It is read off a property of the points in a text (`PointsInto`), which texts keep when
they are put together: the compiled text of an expression has no point of its own, because the paths
of fields are holes of its template (`Target.Emits.noPoint`).
-/

namespace StreamTable

/-- Every reference to the sub-select in the text is one of the names. -/
def SubSelect.RefersTo (names : List String) (text : String) : Prop :=
  ∀ u v, text.toList = u ++ "t2.".toList ++ v →
    String.ofList (v.takeWhile Text.isIdentifierChar) ∈ names

/-- No identifier begins with these characters. -/
def IsBreak (cs : List Char) : Prop := ∀ c, cs.head? = some c → Text.isIdentifierChar c = false

/-- Every point stands before one of the names. -/
def PointsInto (names : List String) (cs : List Char) : Prop :=
  ∀ u v, cs = u ++ '.' :: v → ∃ n ∈ names, ∃ w, v = n.toList ++ w ∧ IsBreak w

theorem IsBreak.append {cs ds : List Char} (hc : IsBreak cs) (hd : IsBreak ds) :
    IsBreak (cs ++ ds) := by
  cases cs with
  | nil => exact hd
  | cons c cs => exact hc

theorem notMem_of_isIdentifier {s : String} (h : Text.isIdentifier s = true) :
    '.' ∉ s.toList := by
  intro point
  exact absurd (Text.isIdentifierChar_of_mem h point) (by decide)

/-- An identifier is read off a text up to its first break. -/
theorem ofList_takeWhile_of_isIdentifier {n : String} (hn : Text.isIdentifier n = true)
    {cs : List Char} (apart : IsBreak cs) :
    String.ofList ((n.toList ++ cs).takeWhile Text.isIdentifierChar) = n := by
  have stops : cs.takeWhile Text.isIdentifierChar = [] := by
    cases cs with
    | nil => rfl
    | cons c cs => exact List.takeWhile_cons_of_neg (by simp [apart c rfl])
  rw [List.takeWhile_append_of_pos fun c => Text.isIdentifierChar_of_mem hn, stops,
    List.append_nil, String.ofList_toList]

namespace PointsInto

variable {names : List String} {cs ds : List Char}

theorem of_notMem (h : '.' ∉ cs) : PointsInto names cs := by
  rintro u v rfl
  simp at h

/-- A point in two texts is one of the second, or it is one of the first and the second comes after
all that follows it there. -/
theorem point_append_cases {u v : List Char} (h : cs ++ ds = u ++ '.' :: v) :
    (∃ a, ds = a ++ '.' :: v) ∨ ∃ a, cs = u ++ '.' :: a ∧ v = a ++ ds := by
  rcases List.append_eq_append_iff.1 h with ⟨a, _, hds⟩ | ⟨a, hcs, hv⟩
  · exact .inl ⟨a, hds⟩
  · cases a with
    | nil => exact .inl ⟨[], hv.symm⟩
    | cons c a =>
      obtain ⟨rfl, rfl⟩ : '.' = c ∧ v = a ++ ds := by simpa using hv
      exact .inr ⟨a, hcs, rfl⟩

/-- A text that no identifier runs into can stand behind another one. -/
theorem append (hc : PointsInto names cs) (hd : PointsInto names ds) (apart : IsBreak ds) :
    PointsInto names (cs ++ ds) := by
  intro u v h
  rcases point_append_cases h with ⟨a, hds⟩ | ⟨a, hcs, rfl⟩
  · exact hd a v hds
  · obtain ⟨n, hn, w, rfl, hw⟩ := hc u a hcs
    exact ⟨n, hn, w ++ ds, List.append_assoc .., hw.append apart⟩

/-- A text without a point can stand before any other. -/
theorem prepend (hc : '.' ∉ cs) (hd : PointsInto names ds) : PointsInto names (cs ++ ds) := by
  intro u v h
  rcases point_append_cases h with ⟨a, hds⟩ | ⟨a, hcs, rfl⟩
  · exact hd a v hds
  · simp [hcs] at hc

/-- A point with one of the names behind it. -/
theorem cons_point {n : String} (hn : n ∈ names) (hi : Text.isIdentifier n = true)
    (hc : '.' ∉ cs) (apart : IsBreak cs) : PointsInto names ('.' :: (n.toList ++ cs)) := by
  intro u v h
  cases u with
  | nil =>
    obtain rfl : n.toList ++ cs = v := by simpa using h
    exact ⟨n, hn, cs, rfl, apart⟩
  | cons c u =>
    obtain ⟨rfl, tail⟩ : '.' = c ∧ n.toList ++ cs = u ++ '.' :: v := by simpa using h
    have point : '.' ∈ n.toList ++ cs := by
      rw [tail]
      simp
    rcases List.mem_append.1 point with point | point
    · exact absurd point (notMem_of_isIdentifier hi)
    · exact absurd point hc

theorem refersTo {text : String} (h : PointsInto names text.toList)
    (hn : ∀ n ∈ names, Text.isIdentifier n = true) : SubSelect.RefersTo names text := by
  intro u v htext
  have point : text.toList = (u ++ ['t', '2']) ++ '.' :: v := by simpa using htext
  obtain ⟨n, mem, w, rfl, apart⟩ := h _ _ point
  rw [ofList_takeWhile_of_isIdentifier (hn n mem) apart]
  exact mem

/-- Texts with one between every two of them that ends and begins no identifier. -/
theorem join {α : Type} {w : α → String} {separator : String} {ts : List (Template α)}
    (hs : '.' ∉ separator.toList) (apart : ∀ cs, IsBreak (separator.toList ++ cs))
    (h : ∀ t ∈ ts, PointsInto names (t.filled w).toList) :
    PointsInto names ((Template.join separator ts).filled w).toList := by
  induction ts with
  | nil => exact of_notMem (by simp [Template.join, Template.empty])
  | cons t ts ih =>
    obtain ⟨ht, rest⟩ := List.forall_mem_cons.1 h
    cases ts with
    | nil => exact ht
    | cons u ts =>
      rw [Template.join_cons _ _ (List.cons_ne_nil u ts), Template.filled_append,
        Template.filled_append, Template.filled_text, String.append_assoc, String.toList_append,
        String.toList_append]
      exact ht.append ((ih rest).prepend hs) (apart _)

end PointsInto

/-! ### Compiled expressions -/

/-- The fixed text of an expression has no point. -/
theorem Target.Emits.noPoint {c : Target} {e : Expr} {f : Fragment} (h : c.Emits e f) :
    '.' ∉ f.template.shown.toList := by
  rw [Template.shown_eq_filled]
  have mark : '.' ∉ Template.mark.toList := by decide
  induction h with
  | leaf isLeaf =>
    rw [Fragment.filled_leaf]
    exact mark
  | @compare op l r f g _ _ _ ihl ihr =>
    have symbol : '.' ∉ op.symbol.toList := by cases op <;> decide
    simp [ihl, ihr, symbol]
  | and _ _ _ ihl ihr | or _ _ _ ihl ihr => simp [ihl, ihr, LogicOp.symbol]
  | @math op l r f g _ _ _ ihl ihr =>
    have symbol : '.' ∉ op.symbol.toList := by cases op <;> decide
    simp [ihl, ihr, symbol]
  | not _ _ ih | isNull _ ih => simp [ih]
  | contains _ _ ih | textSearch _ _ ih => simp [ih, mark]
  | @aggregate name a x f t known _ _ _ ih =>
    have keyword : '.' ∉ a.keyword.toList := by cases a <;> decide
    simp [ih, keyword]
  | countAll _ _ => decide

theorem noPoint_of_compile {table : String} {clause : Clause} {e : Expr} {c : CompiledCondition}
    (h : compile table clause e = .ok c) : '.' ∉ c.template.shown.toList := by
  rcases compile_cases h with ⟨_, _, rfl⟩ | ⟨f, hf, rfl⟩
  · decide
  · exact hf.noPoint

end StreamTable
