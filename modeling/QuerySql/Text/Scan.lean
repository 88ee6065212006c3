/-!
# Reading texts from the front

A `Scanner` reads the start of a text and leaves the rest, or fails and has read nothing. Sequencing
is that of `StateT (List Char) Option`, and `<|>` tries its second reader on the whole text if the
first one fails.

* `repeated`: reads as long as it succeeds. Every turn takes a character, so there are no more turns
  than characters.
-/

namespace QuerySql.Text

/-- A reader of the start of a text. -/
abbrev Scanner (α : Type) := StateT (List Char) Option α

namespace Scanner

variable {α β : Type}

/-- The next character. -/
def anyChar : Scanner Char := fun s =>
  match s with
  | [] => none
  | c :: s => some (c, s)

/-- The next character, if it is of a class. -/
def one (p : Char → Bool) : Scanner Char := fun s =>
  match s with
  | [] => none
  | c :: s => if p c then some (c, s) else none

/-- The next character, if it is the given one. -/
def char (c : Char) : Scanner Char := one fun d => d == c

/-- The given text. -/
def exactly (w : String) : Scanner Unit := fun s =>
  if w.toList.isPrefixOf s then some ((), s.drop w.length) else none

/-- All characters of a class that follow. -/
def while_ (p : Char → Bool) : Scanner (List Char) := fun s =>
  some (s.takeWhile p, s.dropWhile p)

/-- All characters of a class that follow, of which there is at least one. -/
def some_ (p : Char → Bool) : Scanner (List Char) := do
  let c ← one p
  return c :: (← while_ p)

/-- As many characters of a class as asked for. -/
def times (p : Char → Bool) : Nat → Scanner (List Char)
  | 0 => return []
  | n + 1 => do
    let c ← one p
    return c :: (← times p n)

/-- The end of the text. -/
def finish : Scanner Unit := fun s => if s.isEmpty then some ((), s) else none

/-- What the reader reads, or nothing where it fails. -/
def maybe (p : Scanner α) : Scanner (Option α) := some <$> p <|> pure none

/-- The characters that the reader goes over. -/
def lexeme (p : Scanner α) : Scanner String := fun s =>
  (p s).map fun r => (String.ofList (s.take (s.length - r.2.length)), r.2)

/-- What the reader reads in at most as many turns as the list has members. -/
def turns (p : Scanner α) : List Char → Scanner (List α)
  | [] => return []
  | _ :: limit => (do
      let a ← p
      return a :: (← turns p limit)) <|> pure []

/-- What the reader reads in all turns that succeed. It must take a character a turn. -/
def repeated (p : Scanner α) : Scanner (List α) := fun s => turns p s s

/-- One or more readings with separators between them. -/
def separated (separator : Scanner β) (p : Scanner α) : Scanner (List α) := do
  let a ← p
  return a :: (← repeated (separator *> p))

end Scanner

end QuerySql.Text
