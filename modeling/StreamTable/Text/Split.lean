/-!
# Cutting texts

`splitAt? separator s` cuts a text at the first occurrence of a separator.  A text that ends with
a part without the separator has this part after its last occurrence (`afterLast_append_cons`).
-/

namespace StreamTable.Text

/-- What stands before and after the first occurrence of a separator, if there is one. -/
def splitAt? (separator : List Char) : List Char → Option (List Char × List Char)
  | [] => if separator.isEmpty then some ([], []) else none
  | c :: cs =>
    if separator.isPrefixOf (c :: cs) then some ([], (c :: cs).drop separator.length)
    else (splitAt? separator cs).map fun (before, after) => (c :: before, after)

/-- What stands after the last occurrence of a character, everything if it does not occur. -/
def afterLast (separator : Char) (cs : List Char) : List Char :=
  (cs.reverse.takeWhile (· ≠ separator)).reverse

/-- What stands between two characters at the ends of a text, if they stand there. -/
def between? (first last : Char) : List Char → Option (List Char)
  | [] => none
  | c :: cs => if c = first ∧ cs.getLast? = some last then some cs.dropLast else none

theorem afterLast_append_cons {separator : Char} {following : List Char}
    (h : separator ∉ following) (before : List Char) :
    afterLast separator (before ++ separator :: following) = following := by
  have reversed : (before ++ separator :: following).reverse =
      following.reverse ++ separator :: before.reverse := by simp
  rw [afterLast, reversed, List.takeWhile_append_of_pos, List.takeWhile_cons_of_neg (by simp),
    List.append_nil, List.reverse_reverse]
  intro c hc
  have apart : c ≠ separator := by
    rintro rfl
    exact h (List.mem_reverse.1 hc)
  simpa using apart

end StreamTable.Text
