import QuerySql.Scalar

/-!
# The composite translator

One translator for a small surface: a table of single methods, each with its own way of writing the
call. It stands on its own beside the families of the registry and agrees with them on most of what
both know; texts are compared by a pattern that is put together when the query runs, whatever the
text is.
-/

namespace QuerySql.Scalar.Composite

/-- One line of the table: which method it is for, and what a call becomes. -/
structure Entry where
  matchesMethod : Method → Bool
  build : Builder → ScalarCall → Attempt Sql

/-- A call of a function with the arguments as they are, of the type that the method returns. -/
def mathEntry (method function : String) : Entry where
  matchesMethod m := decide (m.owner = .math) && m.name == method
  build b c := b.strictCall function c.args c.method.returnTy none

/-- A method of texts. -/
def textEntry (m : TextMethod) (build : Builder → Sql → List Sql → Attempt Sql) : Entry where
  matchesMethod := Known.recognizes (.text m)
  build b c :=
    match c.receiver with
    | some subject => build b subject c.args
    | none => .decline

/-- A method of texts that is a function of the receiver alone. -/
def receiverEntry (m : TextMethod) (function : String) : Entry :=
  textEntry m fun b subject _ => b.strictCall function [subject] .string none

/-- Conversions of one value, to whatever type. -/
def conversionEntry : Entry where
  matchesMethod m := decide (m.owner = .convert) && "To".toList.isPrefixOf m.name.toList
  build b c :=
    match c.args with
    | [value] => pure (b.cast value c.method.returnTy none)
    | _ => .decline

/-- A part of a text of a given length. -/
def substringEntry : Entry :=
  textEntry .substring fun b subject args =>
    match args with
    | [start, length] => b.strictCall "substr" [subject, b.oneBased start, length] .string none
    | _ => .decline

/-- Whether a text ends in another. -/
def endsWithEntry : Entry :=
  textEntry .endsWith fun b subject args =>
    match args with
    | [other] => do
      let pattern ← .ofOption (b.binary? .add (b.text "%") other none)
      pure (b.like subject pattern none false)
    | _ => .decline

/-- Whether a text starts with another. -/
def startsWithEntry : Entry :=
  textEntry .startsWith fun b subject args =>
    match args with
    | [other] => do
      let pattern ← .ofOption (b.binary? .add other (b.text "%") none)
      pure (b.like subject pattern none false)
    | _ => .decline

/-- Whether a text occurs in another. -/
def containsEntry : Entry :=
  textEntry .contains fun b subject args =>
    match args with
    | [needle] => do
      let position ← b.strictCall "strpos" [subject, needle] .int none
      pure (b.greaterThan position (b.int 0))
    | _ => .decline

/-- The replacement of one text by another. -/
def replaceEntry : Entry :=
  textEntry .replace fun b subject args => b.strictCall "replace" (subject :: args) .string none

/-- Matching with a regular expression. -/
def regexEntry : Entry where
  matchesMethod := Known.recognizes (.regexIsMatch false)
  build b c :=
    match c.args with
    | [subject, pattern] => pure (b.regexMatch subject pattern .none)
    | _ => .decline

/-- The table. -/
def entries : List Entry :=
  [conversionEntry,
   substringEntry,
   mathEntry "Abs" "abs",
   mathEntry "Ceiling" "ceiling",
   mathEntry "Floor" "floor",
   mathEntry "Pow" "power",
   mathEntry "Round" "round",
   mathEntry "Truncate" "trunc",
   endsWithEntry,
   startsWithEntry,
   containsEntry,
   replaceEntry,
   receiverEntry .toLower "lower",
   receiverEntry .toUpper "upper",
   receiverEntry .trim "btrim",
   receiverEntry .trimEnd "rtrim",
   receiverEntry .trimStart "ltrim",
   regexEntry]

/-- The first entry for the method that takes the call. -/
def firstOf (b : Builder) : List Entry → ScalarCall → Attempt Sql
  | [], _ => .decline
  | e :: es, c =>
    if e.matchesMethod c.method then e.build b c <|> firstOf b es c else firstOf b es c

/-- The whole table as one translator. -/
def translator (b : Builder) : ScalarTranslator where
  name := "CompositeMethodCallTranslator"
  translate := firstOf b entries

end QuerySql.Scalar.Composite
