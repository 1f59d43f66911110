/-!
# Identifiers

Names that stand in a query as they are: a letter or an underscore, followed by letters, digits and
underscores, all of them ASCII.
-/

namespace StreamTable.Text

/-- The character may begin an identifier. -/
def isIdentifierHead (c : Char) : Bool := c.isAlpha || c = '_'

/-- The character may stand inside an identifier. -/
def isIdentifierChar (c : Char) : Bool := c.isAlphanum || c = '_'

/-- The text is an identifier. -/
def isIdentifier (s : String) : Bool :=
  match s.toList with
  | [] => false
  | c :: cs => isIdentifierHead c && cs.all isIdentifierChar

theorem isIdentifierChar_of_isIdentifierHead {c : Char} (h : isIdentifierHead c = true) :
    isIdentifierChar c = true := by
  rcases Bool.or_eq_true_iff.1 h with h | h
  · simp [isIdentifierChar, Char.isAlphanum, h]
  · simp [isIdentifierChar, h]

theorem isIdentifierChar_of_mem {s : String} (h : isIdentifier s = true) {c : Char}
    (hc : c ∈ s.toList) : isIdentifierChar c = true := by
  unfold isIdentifier at h
  split at h
  · cases h
  · next d ds hs =>
    obtain ⟨head, tail⟩ := Bool.and_eq_true_iff.1 h
    rw [hs] at hc
    rcases List.mem_cons.1 hc with rfl | hc
    · exact isIdentifierChar_of_isIdentifierHead head
    · exact List.all_eq_true.1 tail c hc

theorem toList_ne_nil_of_isIdentifier {s : String} (h : isIdentifier s = true) :
    s.toList ≠ [] := by
  intro hs
  simp [isIdentifier, hs] at h

end StreamTable.Text
