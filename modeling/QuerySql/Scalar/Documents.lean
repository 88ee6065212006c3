import QuerySql.Json.Access
import QuerySql.Scalar

/-!
# Functions over JSON documents

Containment, the existence of keys and the kind of a document. The first argument of each method is
the receiver of database functions.
-/

namespace QuerySql.Scalar.Documents

/-- The operand as JSON. A document, or a path into one, stands as it is; an operand without a
mapping is taken for binary JSON, and any other is cast to it. -/
def asJson (b : Builder) (s : Sql) : Sql :=
  if s.isTraversal || s.mappedBy Mapping.isJson then s
  else
    let binary := b.catalog.ofStore "jsonb"
    if s.mapping.isSome then b.cast s .string binary else s.fill binary

/-- Whether the kind of the operand is asked for with the function for binary JSON: where nothing
is known of the operand, or it is binary, or it is a path into a binary document. -/
def isBinary (s : Sql) : Bool :=
  s.mapping.all Mapping.isBinaryJson ||
    match s with
    | .traversal document _ _ _ _ => Json.isBinary document
    | _ => false

/-- The kind of a document. -/
def typeOf (b : Builder) (s : Sql) : Attempt Sql :=
  b.call
    { name := if isBinary s then "jsonb_typeof" else "json_typeof", nullable := true,
      propagates := [true] }
    [s] .string none

/-- Functions over JSON documents. -/
def translator (b : Builder) : ScalarTranslator where
  name := "JsonDbFunctionsTranslator"
  translate c :=
    match Known.identify? c.method, c.args with
    | some (.json .contains), [_, document, part] =>
      pure (b.postgresPredicate .contains (asJson b document) (asJson b part))
    | some (.json .contained), [_, part, document] =>
      pure (b.postgresPredicate .containedBy (asJson b part) (asJson b document))
    | some (.json .exists), [_, document, key] =>
      pure (b.postgresPredicate .jsonExists (asJson b document) key)
    | some (.json .existAny), [_, document, keys] =>
      pure (b.postgresPredicate .jsonExistsAny (asJson b document) keys)
    | some (.json .existAll), [_, document, keys] =>
      pure (b.postgresPredicate .jsonExistsAll (asJson b document) keys)
    | some (.json .typeof), [_, document] => typeOf b (asJson b document)
    | _, _ => .decline

end QuerySql.Scalar.Documents
