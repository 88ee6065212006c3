import QuerySql.Options.Toml
import QuerySql.Provider
import QuerySql.Sql.Outline

/-!
# The command

What the command does, apart from reading the options file: it translates five sample expressions
over one table and lists each with the SQL expression it becomes.

* `Command.run` gives the texts for both output channels and the exit code, from what the options
  file held, if one was named.
-/

namespace QuerySql.Command

/-- What a run of the command leaves behind. -/
structure Outcome where
  code : Nat
  stdout : String
  stderr : String
  deriving DecidableEq

/-! ## Samples -/

/-- The columns of the table that the samples are about. -/
def columns : ColumnLookup := fun source property =>
  let column? : Option Column := match property with
    | "Name" => some { name := "name", ty := .string }
    | "Tags" => some { name := "tags", ty := .array .string }
    | "Year" => some { name := "year", ty := .int, nullable := false }
    | "Data" => some { name := "data", ty := .byteArray }
    | "Born" => some { name := "born", ty := .localDate, nullable := false }
    | "Died" => some { name := "died", ty := .localDate, nullable := false }
    | _ => none
  column?.map fun c => { c with table := source }

/-- A property of the sample table. -/
def sampleProperty (name : String) (ty : Ty) : Expr := .property (some "e") name ty

/-- Whether a text is among those that a parameter holds. -/
def anyTagWanted : Expr :=
  let t : Parameter := ⟨"t", .string⟩
  .call ((Known.sequence .anyWhere).close [.string]) none
    [sampleProperty "Tags" (.array .string),
      .lambdaOf [t] (.call ((Known.sequence .contains).close [.string]) none
        [.queryParam ⟨"wanted", .array .string⟩, .lambdaParam t])]

/-- Whether the name matches one of the patterns that a parameter holds. -/
def anyPatternMatches : Expr :=
  let p : Parameter := ⟨"p", .string⟩
  .call ((Known.sequence .anyWhere).close [.string]) none
    [.queryParam ⟨"patterns", .array .string⟩,
      .lambdaOf [p] (.call ((Known.like false false).close []) none
        [.dbFunctions, sampleProperty "Name" .string, .lambdaParam p])]

/-- The first day of the year in a column. -/
def firstOfYear : Expr :=
  .construct .dateTimeOfDay
    [sampleProperty "Year" .int, .ofValue (.int 1), .ofValue (.int 1)]

/-- Whether a byte string has the byte that a parameter holds. -/
def hasByte : Expr :=
  .call ((Known.sequence .contains).close [.byte]) none
    [sampleProperty "Data" .byteArray, .queryParam ⟨"b", .byte⟩]

/-- The time between two dates. -/
def lifetime : Expr :=
  .ofBinary (.plain .subtract) (sampleProperty "Died" .localDate) (sampleProperty "Born" .localDate)

/-- The samples, each with the text it is shown as. -/
def samples : List (String × Expr) :=
  [("e.Tags.Any(t => wanted.Contains(t))", anyTagWanted),
   ("patterns.Any(p => EF.Functions.Like(e.Name, p))", anyPatternMatches),
   ("new DateTime(e.Year, 1, 1)", firstOfYear),
   ("e.Data.Contains(b)", hasByte),
   ("e.Died - e.Born", lifetime)]

/-! ## Runs -/

/-- A translated expression over many lines. -/
def listing (t : Translator) (e : Expr) : String :=
  match (t.translate e).outcome with
  | .ok s => s.outline.block 0
  | .error _ => "  (not translatable)"

/-- The listing of all samples, with an empty line after each. -/
def listings (t : Translator) : String :=
  String.join (samples.map fun s => s.1 ++ "\n" ++ listing t s.2 ++ "\n\n")

/-- A run that fails with a message. -/
def failed (message : String) : Outcome := ⟨1, "", message ++ "\n"⟩

/-- A run with the given options. -/
def runWith (options : Options) : Outcome :=
  match (Translator.postgres columns options .standard []).outcome with
  | .ok t => ⟨0, listings t, ""⟩
  | .error e => failed e.message

/-- The options file: its path, and its text or why it could not be read. -/
structure File where
  path : String
  text : Except String String

/-- A run, with an options file or without. -/
def run : Option File → Outcome
  | none => runWith {}
  | some file =>
    match file.text with
    | .error why => failed (file.path ++ ": " ++ why)
    | .ok text =>
      match Options.ofToml text with
      | .ok options => runWith options
      | .error e => failed (file.path ++ ": " ++ e.message)

end QuerySql.Command
