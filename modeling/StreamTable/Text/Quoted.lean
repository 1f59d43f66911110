/-!
# Quoted text literals

A text literal of the query language stands between single quotes; a quote or a backslash inside it
is escaped by a backslash.  `encode` writes such a literal and `decode?` reads the body of one.
Main statement: `decode?_encodeBody`, every text is read back from its literal, so different texts
have different literals (`encode_injective`).
-/

namespace StreamTable.Text.Quoted

/-- The characters that are escaped inside a literal. -/
def isSpecial (c : Char) : Bool := c = '\'' || c = '\\'

/-- The characters between the quotes. -/
def encodeBody : List Char → List Char
  | [] => []
  | c :: cs => if isSpecial c then '\\' :: c :: encodeBody cs else c :: encodeBody cs

/-- The literal of a text. -/
def encode (s : String) : String := .ofList ('\'' :: encodeBody s.toList ++ ['\''])

/-- The text between the opening quote and the first quote that is not escaped, and what follows
that quote. -/
def decode? : List Char → Option (List Char × List Char)
  | [] => none
  | '\'' :: cs => some ([], cs)
  | '\\' :: c :: cs => (decode? cs).map fun (text, rest) => (c :: text, rest)
  | c :: cs => (decode? cs).map fun (text, rest) => (c :: text, rest)

/-- The body of a literal reads back as the text, up to exactly the closing quote. -/
theorem decode?_encodeBody (text rest : List Char) :
    decode? (encodeBody text ++ '\'' :: rest) = some (text, rest) := by
  induction text with
  | nil => rfl
  | cons c cs ih =>
    by_cases h : isSpecial c
    · simp [encodeBody, h, decode?, ih]
    · have hq : c ≠ '\'' := by rintro rfl; exact h rfl
      have hb : c ≠ '\\' := by rintro rfl; exact h rfl
      simp [encodeBody, h, decode?, hb, ih]

/-- Different texts have different literals. -/
theorem encode_injective {s t : String} (h : encode s = encode t) : s = t := by
  have bodies : encodeBody s.toList ++ ['\''] = encodeBody t.toList ++ ['\''] :=
    List.tail_eq_of_cons_eq (String.ofList_injective h)
  have decoded := congrArg decode? bodies
  rw [decode?_encodeBody, decode?_encodeBody] at decoded
  exact String.toList_injective (Prod.ext_iff.1 (Option.some.inj decoded)).1

end StreamTable.Text.Quoted
