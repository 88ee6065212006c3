/-!
# Quoted texts of SQL

A text literal stands between single quotes, and a quote inside it is written twice.

* `take?_literal`: reading a literal from the front of any text gives back exactly what was quoted
  and ends at the literal's own last quote, unless one more quote follows at once.
-/

namespace QuerySql.Text.Quoted

/-- The characters with each quote doubled. -/
def encode : List Char → List Char
  | [] => []
  | c :: s => if c = '\'' then '\'' :: '\'' :: encode s else c :: encode s

/-- The text between quotes, with the quotes inside doubled. -/
def literal (s : String) : String :=
  "'" ++ String.ofList (encode s.toList) ++ "'"

/-- Reads the inside of a literal up to the quote that ends it: two quotes are one, a lone quote
ends the literal. Gives what was read and what follows the ending quote. -/
def takeBody? : List Char → Option (List Char × List Char)
  | [] => none
  | '\'' :: '\'' :: s => (takeBody? s).map fun r => ('\'' :: r.1, r.2)
  | c :: s => if c = '\'' then some ([], s) else (takeBody? s).map fun r => (c :: r.1, r.2)

/-- Reads a literal at the front of a text. -/
def take? : List Char → Option (List Char × List Char)
  | c :: s => if c = '\'' then takeBody? s else none
  | [] => none

theorem takeBody?_cons_of_ne {c : Char} (hc : c ≠ '\'') (s : List Char) :
    takeBody? (c :: s) = (takeBody? s).map fun r => (c :: r.1, r.2) := by
  rw [takeBody?.eq_3 _ _ fun _ h _ => hc h, if_neg hc]

theorem takeBody?_quote {rest : List Char} (h : ∀ s, rest ≠ '\'' :: s) :
    takeBody? ('\'' :: rest) = some ([], rest) := by
  rw [takeBody?.eq_3 _ _ fun s _ hs => h s hs, if_pos rfl]

/-- By induction on the text: doubled quotes are read as one, and the last one ends it. -/
theorem takeBody?_encode (s : List Char) {rest : List Char} (h : ∀ t, rest ≠ '\'' :: t) :
    takeBody? (encode s ++ '\'' :: rest) = some (s, rest) := by
  induction s with
  | nil => exact takeBody?_quote h
  | cons c s ih =>
    by_cases hc : c = '\''
    · subst hc
      simp [encode, takeBody?, ih]
    · simp [encode, hc, takeBody?_cons_of_ne hc, ih]

theorem take?_literal (s : String) {rest : List Char} (h : ∀ t, rest ≠ '\'' :: t) :
    take? ((literal s).toList ++ rest) = some (s.toList, rest) := by
  simp [literal, take?, takeBody?_encode _ h]

end QuerySql.Text.Quoted
