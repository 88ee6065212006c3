import QuerySql.Scalar

/-!
# Pattern matching

Matching with `LIKE` patterns and with regular expressions.

* A `LIKE` pattern has no escape character unless one is given, while PostgreSQL's default is the
  backslash: the empty escape turns that off.
* A regular expression is matched only with options that PostgreSQL can express, and these must be
  constant.
-/

namespace QuerySql.Scalar.Patterns

/-- Matching with `LIKE` and `ILIKE`. The first argument is the receiver of database functions. -/
def likeTranslator (b : Builder) : ScalarTranslator where
  name := "LikeTranslator"
  translate c :=
    match Known.identify? c.method, c.args with
    | some (.like ignoreCase _), [_, subject, pattern, escape] =>
      pure (b.like subject pattern (some escape) ignoreCase)
    | some (.like ignoreCase _), [_, subject, pattern] =>
      pure (b.like subject pattern (some (b.text "")) ignoreCase)
    | _, _ => .decline

/-- A match with the given options, of which the inert ones are dropped. -/
def regexMatch (b : Builder) (subject pattern : Sql) (options : Regex.Options) : Attempt Sql := do
  if options.without .supported ≠ .none then
    Attempt.report (.failed (.regexOptions options.word))
    .decline
  else pure (b.regexMatch subject pattern (options.without .inert))

/-- Matching with regular expressions. -/
def regexTranslator (b : Builder) : ScalarTranslator where
  name := "RegexIsMatchTranslator"
  translate c :=
    match Known.identify? c.method, c.args with
    | some (.regexIsMatch false), [subject, pattern] => regexMatch b subject pattern .none
    | some (.regexIsMatch true), [subject, pattern, options] =>
      match options.value? with
      | some (.regexOptions o) => regexMatch b subject pattern o
      | _ => do
        Attempt.report (.failed .variableRegexOptions)
        .decline
    | _, _ => .decline

end QuerySql.Scalar.Patterns
