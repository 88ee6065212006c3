import QuerySql.Scalar

/-!
# Methods that convert a value

Conversions between basic types, and the text of a value. Both are casts.
-/

namespace QuerySql.Scalar.Casts

/-- The methods that convert to a basic type. -/
def conversions : List String :=
  ["ToBoolean", "ToByte", "ToDecimal", "ToDouble", "ToInt16", "ToInt32", "ToInt64", "ToString"]

/-- The types that can be converted, nullable or not. -/
def isConvertible (t : Ty) : Bool :=
  match t.stripNullable with
  | .bool | .byte | .decimal | .double | .float | .short | .int | .long | .string | .object => true
  | _ => false

/-- Conversions of one value whose declared type can be converted. -/
def conversionTranslator (b : Builder) : ScalarTranslator where
  name := "ConvertTranslator"
  translate c :=
    if c.method.owner = .convert ∧ c.method.name ∈ conversions then
      match c.args with
      | [value] =>
        if c.method.parameterTypes.head?.any isConvertible then
          pure (b.cast value c.method.returnTy none)
        else .decline
      | _ => .decline
    else .decline

/-- The types whose text in SQL is the one a query means. -/
def hasText (t : Ty) : Bool :=
  t.isNumeric ||
    match t with
    | .bool | .char | .guid | .dateTime | .atom .dateTimeOffset | .dateOnly | .timeOnly
    | .timeSpan => true
    | _ => false

/-- The text of a value. That of a null is empty, so a nullable value gets a default. -/
def toText (b : Builder) (value : Sql) : Attempt Sql :=
  if value.ty.stripNullable = .string then pure value
  else if !hasText value.ty.stripNullable then .decline
  else
    let text := b.cast value .string none
    match value.ty with
    | .nullable _ => b.coalesce text (b.text "") none
    | _ => pure text

/-- The text of the receiver, whatever type declares the method. -/
def textTranslator (b : Builder) : ScalarTranslator where
  name := "ObjectToStringTranslator"
  translate c :=
    if c.method.name = "ToString" ∧ c.args.isEmpty then
      match c.receiver with
      | some value => toText b value
      | none => .decline
    else .decline

end QuerySql.Scalar.Casts
