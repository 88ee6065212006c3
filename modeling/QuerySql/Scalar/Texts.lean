import QuerySql.Scalar

/-!
# Methods over texts

* Positions count from zero in a query and from one in SQL.
* `StartsWith` and `EndsWith` with a constant become a `LIKE` pattern in which the wildcards of the
  constant are escaped; with anything else they compare a prefix or a suffix of the right length.
-/

namespace QuerySql.Scalar.Texts

/-- The character that takes the meaning from a wildcard. -/
def likeEscape : Char := '\\'

/-- A text as a pattern that matches just the text. -/
def escapePattern : List Char → List Char
  | [] => []
  | c :: s =>
    if c = '%' ∨ c = '_' ∨ c = likeEscape then likeEscape :: c :: escapePattern s
    else c :: escapePattern s

/-- Which end of a text is compared. -/
inductive Side where
  | start | finish
  deriving DecidableEq

namespace Side

/-- The function that takes so many characters from the side. -/
def function : Side → String
  | start => "left"
  | finish => "right"

/-- A pattern for texts that have the given text on the side. -/
def pattern (side : Side) (s : String) : String :=
  match side with
  | start => String.ofList (escapePattern s.toList ++ ['%'])
  | finish => String.ofList ('%' :: escapePattern s.toList)

end Side

/-- The position of a text in another, counted from one, and zero if it does not occur. -/
def position (b : Builder) (subject needle : Sql) : Attempt Sql :=
  b.strictCall "strpos" [subject, needle] .int none

/-- Whether the subject has the other text on the given side. -/
def hasOnSide (b : Builder) (side : Side) (subject other : Sql) : Attempt Sql :=
  match other.value? with
  | some (.string s) =>
    pure (b.like subject (b.text (side.pattern s)) (some (b.text (String.singleton likeEscape)))
      false)
  | some _ => .decline
  | none => do
    let length ← b.strictCall "length" [other] .int none
    let part ← b.strictCall side.function [subject, length] .string none
    pure (b.equal part other)

/-- Whether a text is null or one that the given call leaves empty. -/
def isNullOr (b : Builder) (subject trimmed : Sql) : Sql :=
  b.orElse (b.isNull subject) (b.equal trimmed (b.text ""))

/-- A method on a receiver. -/
def onReceiver (b : Builder) (m : TextMethod) (subject : Sql) (args : List Sql) : Attempt Sql :=
  match m, args with
  | .contains, [needle] => do
    let position ← position b subject needle
    pure (b.greaterThan position (b.int 0))
  | .startsWith, [other] => hasOnSide b .start subject other
  | .endsWith, [other] => hasOnSide b .finish subject other
  | .indexOf, [needle] => do
    let position ← position b subject needle
    .ofOption (b.binary? .subtract position (b.int 1) none)
  | .replace, [old, new] => call "replace" [subject, old, new]
  | .toLower, [] => call "lower" [subject]
  | .toUpper, [] => call "upper" [subject]
  | .substringFrom, [start] => call "substr" [subject, b.oneBased start]
  | .substring, [start, length] => call "substr" [subject, b.oneBased start, length]
  | .trim, [] => call "btrim" [subject]
  | .trimStart, [] => call "ltrim" [subject]
  | .trimEnd, [] => call "rtrim" [subject]
  | .padLeft, args | .padLeftWith, args => call "lpad" (subject :: args)
  | .padRight, args | .padRightWith, args => call "rpad" (subject :: args)
  | _, _ => .decline
where
  call (function : String) (args : List Sql) : Attempt Sql :=
    b.strictCall function args .string none

/-- Methods of texts, and the two tests for an empty text. -/
def translator (b : Builder) : ScalarTranslator where
  name := "StringMethodTranslator"
  translate c :=
    match Known.identify? c.method, c.args, c.receiver with
    | some (.text .isNullOrEmpty), [subject], _ => pure (isNullOr b subject subject)
    | some (.text .isNullOrWhiteSpace), [subject], _ => do
      let trimmed ← b.strictCall "btrim" [subject, b.text " \t\n\r"] .string none
      pure (isNullOr b subject trimmed)
    | some (.text m), args, some subject => onReceiver b m subject args
    | _, _, _ => .decline

end QuerySql.Scalar.Texts
