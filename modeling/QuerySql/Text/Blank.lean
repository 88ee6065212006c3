/-!
# Blanks

The characters with the Unicode property White_Space, and trimming of them.

* `trim_append_blank`: a blank at the end of a text makes no difference.
-/

namespace QuerySql.Text

/-- The ranges of code points, both ends included, with the property White_Space. -/
def blankRanges : List (Nat × Nat) :=
  [(0x09, 0x0D), (0x20, 0x20), (0x85, 0x85), (0xA0, 0xA0), (0x1680, 0x1680), (0x2000, 0x200A),
   (0x2028, 0x2029), (0x202F, 0x202F), (0x205F, 0x205F), (0x3000, 0x3000)]

/-- Whether the character has the property White_Space. -/
def isBlank (c : Char) : Bool :=
  blankRanges.any fun r => decide (r.1 ≤ c.toNat ∧ c.toNat ≤ r.2)

/-- The text without the blanks it starts with. -/
def trimStart (s : List Char) : List Char := s.dropWhile isBlank

/-- The text without the blanks it ends in. -/
def trimEnd : List Char → List Char
  | [] => []
  | c :: s =>
    match trimEnd s with
    | [] => if isBlank c then [] else [c]
    | s' => c :: s'

/-- The text without the blanks at its ends. -/
def trim (s : List Char) : List Char := trimEnd (trimStart s)

theorem trimStart_blank_cons {c : Char} (h : isBlank c = true) (s : List Char) :
    trimStart (c :: s) = trimStart s := by
  simp [trimStart, h]

theorem trimEnd_append_blank {c : Char} (h : isBlank c = true) (s : List Char) :
    trimEnd (s ++ [c]) = trimEnd s := by
  induction s with
  | nil => simp [trimEnd, h]
  | cons d s ih => simp [trimEnd, ih]

theorem trimStart_eq_nil {s : List Char} (h : ∀ c ∈ s, isBlank c = true) : trimStart s = [] := by
  induction s with
  | nil => rfl
  | cons c s ih =>
    rw [trimStart_blank_cons (h c (by simp))]
    exact ih fun d hd => h d (by simp [hd])

/-- Trimming in front does not reach the end, unless there are blanks only. -/
theorem trimStart_concat (s : List Char) (c : Char) :
    (∀ d ∈ s, isBlank d = true) ∨ trimStart (s ++ [c]) = trimStart s ++ [c] := by
  induction s with
  | nil => exact .inl (by simp)
  | cons d s ih =>
    by_cases hd : isBlank d = true
    · rw [List.cons_append, trimStart_blank_cons hd, trimStart_blank_cons hd]
      exact ih.imp_left fun hs => by simpa [hd] using hs
    · exact .inr (by simp [trimStart, hd])

theorem trim_append_blank {c : Char} (h : isBlank c = true) (s : List Char) :
    trim (s ++ [c]) = trim s := by
  rcases trimStart_concat s c with hs | hs
  · rw [trim, trim, trimStart_eq_nil hs, trimStart_eq_nil]
    simpa [or_imp, forall_and, h] using hs
  · rw [trim, trim, hs, trimEnd_append_blank h]

end QuerySql.Text
