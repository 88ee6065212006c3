import QuerySql.Command

/-!
# The command line

Reads the options file that the first argument names, if there is one, and writes what
`Command.run` gives.
-/

open QuerySql

/-- The text of a file, or why it cannot be read. -/
def readText (path : String) : IO (Except String String) := do
  try
    let bytes ← IO.FS.readBinFile path
    match String.fromUTF8? bytes with
    | some text => return .ok text
    | none => return .error "stream did not contain valid UTF-8"
  catch
    | .noFileOrDirectory _ code _ => return .error s!"No such file or directory (os error {code})"
    | .permissionDenied _ code _ => return .error s!"Permission denied (os error {code})"
    | e => return .error (toString e)

/-- Runs the command. -/
def main (args : List String) : IO UInt32 := do
  let file? ← match args.head? with
    | none => pure none
    | some path => do pure (some ⟨path, ← readText path⟩)
  let outcome := Command.run file?
  IO.print outcome.stdout
  IO.eprint outcome.stderr
  return UInt32.ofNat outcome.code
