import QuerySql.Scalar

/-!
# Mathematics and generated values

Mathematical methods differ between their overloads only in the numeric type, so they are known by
name and have the type that the method returns. Random numbers and new identifiers are here as well.
-/

namespace QuerySql.Scalar.Numbers

/-- A method that is a function of the same arguments. -/
structure MathFunction where
  method : String
  function : String
  /-- Whether the result is stored as the first argument is. -/
  keepsMapping : Bool

/-- The methods that are functions of the same arguments. -/
def functions : List MathFunction :=
  [⟨"Abs", "abs", true⟩,
   ⟨"Ceiling", "ceiling", true⟩,
   ⟨"Floor", "floor", true⟩,
   ⟨"Pow", "power", false⟩,
   ⟨"Exp", "exp", false⟩,
   ⟨"Log10", "log", false⟩,
   ⟨"Sqrt", "sqrt", false⟩,
   ⟨"Truncate", "trunc", true⟩,
   ⟨"Acos", "acos", false⟩,
   ⟨"Asin", "asin", false⟩,
   ⟨"Atan", "atan", false⟩,
   ⟨"Atan2", "atan2", false⟩,
   ⟨"Cos", "cos", false⟩,
   ⟨"Sin", "sin", false⟩,
   ⟨"Tan", "tan", false⟩]

/-- A call whose result is stored as its first argument is. -/
def keepingCall (b : Builder) (function : String) (args : List Sql) (ty : Ty) : Attempt Sql :=
  b.strictCall function args ty (args.head?.bind Sql.mapping)

/-- Rounding to a number of digits, which only decimal numbers have: any other number is cast to one
and back. -/
def roundTo (b : Builder) (value digits : Sql) (ty : Ty) : Attempt Sql :=
  if ty.stripNullable = .decimal then keepingCall b "round" [value, digits] ty
  else do
    let rounded ← b.strictCall "round" [b.cast value .decimal none, digits] .decimal none
    pure (b.cast rounded ty none)

/-- The larger or the smaller of two numbers. A null is passed over. -/
def extreme (b : Builder) (function : String) (x y : Sql) (ty : Ty) : Attempt Sql :=
  let mapping := x.mapping.or y.mapping
  b.call { name := function, nullable := true, propagates := [false, false] }
    [x.fill mapping, y.fill mapping] ty mapping

/-- A mathematical method by its name. -/
def byName (b : Builder) (method : String) (args : List Sql) (ty : Ty) : Attempt Sql :=
  match functions.find? fun f => f.method == method with
  | some f =>
    if f.keepsMapping then keepingCall b f.function args ty
    else b.strictCall f.function args ty none
  | none =>
    match method, args with
    | "Round", [value] => keepingCall b "round" [value] ty
    | "Round", [value, digits] => roundTo b value digits ty
    | "Log", [value] => b.strictCall "ln" [value] ty none
    | "Log", [value, base] => b.strictCall "log" [base, value] ty none
    | "Sign", [value] => do
      let sign ← keepingCall b "sign" [value] value.ty
      pure (b.cast sign .int none)
    | "Max", [x, y] => extreme b "GREATEST" x y ty
    | "Min", [x, y] => extreme b "LEAST" x y ty
    | _, _ => .decline

/-- Mathematical methods, of double and of single precision. -/
def mathTranslator (b : Builder) : ScalarTranslator where
  name := "MathTranslator"
  translate c :=
    if c.method.owner = .math ∨ c.method.owner = .other "MathF" then
      byName b c.method.name c.args c.method.returnTy
    else .decline

/-- Random numbers from zero up to one. -/
def randomTranslator (b : Builder) : ScalarTranslator where
  name := "RandomTranslator"
  translate c :=
    if Known.identify? c.method = some .random then
      b.call { name := "random", nullable := false, propagates := [] } [] .double none
    else .decline

/-- The function that makes a new identifier: built in from version 13 on, part of an extension
before. -/
def newGuidFunction (atLeast13 : Bool) : String :=
  if atLeast13 then "gen_random_uuid" else "uuid_generate_v4"

/-- New identifiers. -/
def newGuidTranslator (b : Builder) (atLeast13 : Bool) : ScalarTranslator where
  name := "NewGuidTranslator"
  translate c :=
    if Known.identify? c.method = some .newGuid then
      b.call { name := newGuidFunction atLeast13, nullable := false, propagates := [] } [] .guid
        none
    else .decline

end QuerySql.Scalar.Numbers
