import QuerySql.Text.Scan

/-!
# Quoted texts of documents

The four ways to write a text: on one line or over many lines, and with escapes between double
quotes or as it stands between single ones.

* A line break of either kind reads as a line feed, and one that comes first in a text over many
  lines is dropped.
* Up to two quotes may stand right before the three that end a text over many lines.
-/

namespace QuerySql.Toml

open Text (Scanner)
open Text.Scanner

/-- Blanks within a line. -/
def isBlank (c : Char) : Bool := c == ' ' || c == '\t'

/-- The characters that may stand in a line of text: the tab and all but the control characters of
the ASCII range. -/
def isPlain (c : Char) : Bool := c == '\t' || decide (' ' ≤ c ∧ c ≠ '\x7f')

/-- The end of a line, with a carriage return or without. -/
def newline : Scanner Unit := exactly "\n" <|> exactly "\r\n"

/-- The value of a hexadecimal digit. -/
def hexValue? (c : Char) : Option Nat :=
  if '0' ≤ c ∧ c ≤ '9' then some (c.toNat - '0'.toNat)
  else if 'a' ≤ c ∧ c ≤ 'f' then some (c.toNat - 'a'.toNat + 10)
  else if 'A' ≤ c ∧ c ≤ 'F' then some (c.toNat - 'A'.toNat + 10)
  else none

/-- The number that digits stand for in a base. -/
def numeral (base : Nat) (digits : List Char) : Nat :=
  digits.foldl (fun n c => base * n + (hexValue? c).getD 0) 0

/-- A character by its code point, written in so many hexadecimal digits. -/
def codePoint (width : Nat) : Scanner Char := do
  let digits ← times (fun c => (hexValue? c).isSome) width
  let n := numeral 16 digits
  if n.isValidChar then return Char.ofNat n else failure

/-- A character written with a backslash. -/
def escape : Scanner Char := do
  let _ ← char '\\'
  match ← anyChar with
  | 'b' => return '\x08'
  | 't' => return '\t'
  | 'n' => return '\n'
  | 'f' => return '\x0c'
  | 'r' => return '\r'
  | '"' => return '"'
  | '\\' => return '\\'
  | 'u' => codePoint 4
  | 'U' => codePoint 8
  | _ => failure

/-- A character that stands for itself between quotes. -/
def isUnescaped (quote c : Char) : Bool :=
  isPlain c && c != quote && (quote == '\'' || c != '\\')

/-- A character of a text with the given quote. -/
def character (quote : Char) : Scanner Char :=
  if quote = '"' then one (isUnescaped quote) <|> escape else one (isUnescaped quote)

/-- A text on one line. -/
def lineText (quote : Char) : Scanner String := do
  let _ ← char quote
  let s ← repeated (character quote)
  let _ ← char quote
  return String.ofList s

/-- A backslash at the end of a line takes away all blanks and line breaks up to the next text. -/
def continuation : Scanner Unit := do
  let _ ← char '\\'
  let _ ← while_ isBlank
  newline
  let _ ← repeated (newline <|> (fun _ => ()) <$> one isBlank)

/-- A piece of a text over many lines. -/
def piece (quote : Char) : Scanner (List Char) :=
  (fun c => [c]) <$> character quote
    <|> (fun _ => ['\n']) <$> newline
    <|> (if quote = '"' then (fun _ => []) <$> continuation else failure)

/-- A few quotes within a text over many lines, and the piece after them. -/
def quotesAndPiece (quote : Char) (n : Nat) : Scanner (List Char) := do
  let quotes ← times (fun c => c == quote) n
  return quotes ++ (← piece quote)

/-- The quotes that end a text over many lines; gives those that still belong to the text. -/
def closing (quote : Char) : Scanner (List Char) := do
  let quotes ← some_ fun c => c == quote
  if 3 ≤ quotes.length ∧ quotes.length ≤ 5 then return quotes.drop 3 else failure

/-- A text over many lines. -/
def blockText (quote : Char) : Scanner String := do
  let _ ← times (fun c => c == quote) 3
  let _ ← maybe newline
  let pieces ← repeated (piece quote <|> quotesAndPiece quote 2 <|> quotesAndPiece quote 1)
  return String.ofList (pieces.flatten ++ (← closing quote))

/-- A text in any of its forms. -/
def string : Scanner String :=
  blockText '"' <|> lineText '"' <|> blockText '\'' <|> lineText '\''

end QuerySql.Toml
