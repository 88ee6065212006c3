import QuerySql.Text.Invisible

/-!
# Outlines of values

An outline is the printed structure of a value: words, quoted texts, applications, records and
lists. It is written on one line, for messages, or over many lines with four columns of indentation
a level, for reading.

* In a quoted text the quote, the backslash and whatever does not show on its own are escaped.
-/

namespace QuerySql.Text

/-- The lower-case hexadecimal digits of a number. -/
def hexDigits (n : Nat) : List Char := Nat.toDigits 16 n

/-- The character as it stands between quotes of the given kind. -/
def escapedChar (quote c : Char) : List Char :=
  if c = '\x00' then ['\\', '0']
  else if c = '\t' then ['\\', 't']
  else if c = '\r' then ['\\', 'r']
  else if c = '\n' then ['\\', 'n']
  else if c = '\\' then ['\\', '\\']
  else if c = quote then ['\\', quote]
  else if isInvisible c then ['\\', 'u', '\x7b'] ++ hexDigits c.toNat ++ ['\x7d']
  else [c]

/-- The text between double quotes, with escapes. -/
def escaped (s : String) : String :=
  "\"" ++ String.ofList (s.toList.flatMap (escapedChar '"')) ++ "\""

/-- The character between single quotes, with escapes. -/
def escapedLetter (c : Char) : String := "'" ++ String.ofList (escapedChar '\'' c) ++ "'"

/-- The printed structure of a value. -/
inductive Outline where
  /-- A name or a number, written as it is. -/
  | word (s : String)
  /-- A text, written between quotes. -/
  | quoted (s : String)
  /-- A name applied to parts. -/
  | apply (name : String) (parts : List Outline)
  /-- A name with labelled parts. -/
  | record (name : String) (fields : List (String × Outline))
  | list (items : List Outline)

namespace Outline

/-- A present or absent part. -/
def option : Option Outline → Outline
  | none => word "None"
  | some o => apply "Some" [o]

/-- A truth value. -/
def bool (b : Bool) : Outline := word (if b then "true" else "false")

mutual
/-- The outline on one line. -/
def line : Outline → String
  | word s => s
  | quoted s => escaped s
  | apply name parts => name ++ "(" ++ ", ".intercalate (lines parts) ++ ")"
  | record name fields => name ++ " \x7b " ++ ", ".intercalate (fieldLines fields) ++ " \x7d"
  | list items => "[" ++ ", ".intercalate (lines items) ++ "]"

/-- Each outline on one line. -/
def lines : List Outline → List String
  | [] => []
  | o :: os => line o :: lines os

/-- Each labelled part on one line. -/
def fieldLines : List (String × Outline) → List String
  | [] => []
  | (label, o) :: rest => (label ++ ": " ++ line o) :: fieldLines rest
end

/-- The start of a line at a depth of nesting. -/
def indent (depth : Nat) : String := String.ofList (List.replicate (4 * depth) ' ')

mutual
/-- The outline over many lines, of which the first is already indented. A list of no parts stays
on one line. -/
def block (depth : Nat) : Outline → String
  | word s => s
  | quoted s => escaped s
  | apply name parts => name ++ "(\n" ++ blocks (depth + 1) parts ++ indent depth ++ ")"
  | record name fields =>
    name ++ " \x7b\n" ++ fieldBlocks (depth + 1) fields ++ indent depth ++ "\x7d"
  | list [] => "[]"
  | list items => "[\n" ++ blocks (depth + 1) items ++ indent depth ++ "]"

/-- Each part on lines of its own, ended by a comma. -/
def blocks (depth : Nat) : List Outline → String
  | [] => ""
  | o :: os => indent depth ++ block depth o ++ ",\n" ++ blocks depth os

/-- Each labelled part on lines of its own, ended by a comma. -/
def fieldBlocks (depth : Nat) : List (String × Outline) → String
  | [] => ""
  | (label, o) :: rest =>
    indent depth ++ label ++ ": " ++ block depth o ++ ",\n" ++ fieldBlocks depth rest
end

end Outline

end QuerySql.Text
