import QuerySql.Toml.Number
import QuerySql.Toml.Table

/-!
# Reading documents

A document is a sequence of lines: entries, headers, comments and empty lines. `Line` is what a line
with contents says, `lines?` reads them all, and `build?` follows them to a tree of tables.

* Arrays and inline tables are nested less than `nestingLimit` deep, and a dotted key has less than
  that many parts.
-/

namespace QuerySql.Toml

open Text (Scanner)
open Text.Scanner

/-- Containers are nested less than this deep. -/
def nestingLimit : Nat := 80

/-- Blanks within a line. -/
def blanks : Scanner Unit := do let _ ← while_ isBlank

/-- A comment, up to the end of its line. -/
def comment : Scanner Unit := do
  let _ ← char '#'
  let _ ← while_ isPlain

/-- The rest of a line that has no more contents. -/
def lineRest : Scanner Unit := do
  blanks
  let _ ← maybe comment
  newline <|> finish

/-- Blanks, line breaks and comments between the parts of an array. -/
def gap : Scanner Unit := do
  let _ ← repeated ((fun _ => ()) <$> one isBlank <|> newline <|> (do comment; newline))

/-- The characters of a key that is not quoted. -/
def isKeyChar (c : Char) : Bool := c.isAlphanum || c == '-' || c == '_'

/-- A part of a key. -/
def keyPart : Scanner String :=
  lineText '"' <|> lineText '\'' <|> String.ofList <$> some_ isKeyChar

/-- A key, as the stages before its last part and that part. -/
def key : Scanner (List String × String) := do
  let parts ← separated (char '.') (do blanks; let k ← keyPart; blanks; return k)
  match parts.getLast? with
  | some k => if parts.length < nestingLimit then return (parts.dropLast, k) else failure
  | none => failure

/-- A key and a value of its own. -/
def entry (value : Scanner Item) : Scanner ((List String × String) × Item) := do
  let k ← key
  let _ ← char '='
  blanks
  return (k, ← value)

/-- Values between brackets. -/
def array (value : Scanner Item) : Scanner Item := do
  let _ ← char '['
  let items ← separated (char ',') (do gap; let v ← value; gap; return v) <|> pure []
  if !items.isEmpty then let _ ← maybe (char ',')
  gap
  let _ ← char ']'
  return .array items

/-- Entries between braces, all on one line. -/
def inlineTable (value : Scanner Item) : Scanner Item := do
  let _ ← char '\x7b'
  let entries ← separated (char ',') (do let e ← entry value; blanks; return e) <|> pure []
  blanks
  let _ ← char '\x7d'
  match entries.foldlM (fun es e => insert e.1.2 e.2 e.1.1 true es) [] with
  | some es => return .inlineTable es
  | none => failure

/-- A value in which containers are nested at most so deep. -/
def value : (depth : Nat) → Scanner Item
  | 0 =>
    .string <$> string
      <|> (fun _ => .boolean true) <$> exactly "true"
      <|> (fun _ => .boolean false) <$> exactly "false"
      <|> number
  | depth + 1 => value 0 <|> array (value depth) <|> inlineTable (value depth)

/-- What a line says. -/
inductive Line where
  /-- The table at hand has this entry. -/
  | entry (stages : List String) (key : String) (item : Item)
  /-- The entries of a table follow. -/
  | table (stages : List String) (key : String)
  /-- The entries of one more element of a list of tables follow. -/
  | element (stages : List String) (key : String)

/-- A line with an entry. -/
def entryLine : Scanner Line := do
  let (k, v) ← entry (value (nestingLimit - 1))
  lineRest
  return .entry k.1 k.2 v

/-- A line that starts a table or an element of a list of tables. -/
def headerLine : Scanner Line :=
  (do
    exactly "[["
    let k ← key
    exactly "]]"
    lineRest
    return .element k.1 k.2)
  <|> (do
    exactly "["
    let k ← key
    exactly "]"
    lineRest
    return .table k.1 k.2)

/-- A line, of which an empty one or a comment says nothing. -/
def line : Scanner (Option Line) := do
  let l ← some <$> headerLine <|> some <$> entryLine <|> (fun _ => none) <$> newline
    <|> (do comment; newline <|> finish; return none)
  blanks
  return l

/-- The lines of a document, which may start with a byte order mark. -/
def lines? (s : List Char) : Option (List Line) :=
  let all : Scanner (List Line) := do
    let _ ← maybe (char '\uFEFF')
    blanks
    let ls ← repeated line
    finish
    return ls.filterMap id
  (all s).map fun r => r.1

/-- The tree so far, and the path to the table that entries go to. -/
structure Cursor where
  root : Entries
  path : List String

/-- Follows a line. -/
def Cursor.step (c : Cursor) : Line → Option Cursor
  | .entry stages key item => do
    return { c with root := ← under (insert key item stages true) c.path c.root }
  | .table stages key => do
    return { root := ← under (declareTable key) stages c.root, path := stages ++ [key] }
  | .element stages key => do
    return { root := ← under (declareElement key) stages c.root, path := stages ++ [key] }

/-- The tree of tables that lines declare. -/
def build? (ls : List Line) : Option Entries :=
  (ls.foldlM Cursor.step ⟨[], []⟩).map fun c => c.root

/-- The entries of a document. -/
def ofString? (s : String) : Option Entries := (lines? s.toList).bind build?

end QuerySql.Toml
