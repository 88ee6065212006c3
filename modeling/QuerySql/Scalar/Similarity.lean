import QuerySql.Scalar

/-!
# Similarity of texts

Functions and operators that compare texts by sound or by trigrams. The first argument of each
method is the receiver of database functions.
-/

namespace QuerySql.Scalar.Similarity

/-- The function that compares by sound. -/
def fuzzyFunction : FuzzyMethod → String
  | .soundex => "soundex"
  | .difference => "difference"
  | .levenshtein => "levenshtein"
  | .metaphone => "metaphone"
  | .doubleMetaphone => "dmetaphone"

/-- Comparisons by sound. -/
def fuzzyTranslator (b : Builder) : ScalarTranslator where
  name := "FuzzyStringMatchMethodTranslator"
  translate c :=
    match Known.identify? c.method, c.args with
    | some (.fuzzy m), _ :: args => b.strictCall (fuzzyFunction m) args c.method.returnTy none
    | _, _ => .decline

/-- How a comparison by trigrams is written. -/
inductive TrigramForm where
  | function (name : String)
  | predicate (op : PostgresOp)
  /-- An operator whose result is a number. -/
  | measure (op : PostgresOp)
  deriving DecidableEq

/-- The form of each comparison by trigrams. -/
def trigramForm : TrigramMethod → TrigramForm
  | .show => .function "show_trgm"
  | .similarity => .function "similarity"
  | .wordSimilarity => .function "word_similarity"
  | .strictWordSimilarity => .function "strict_word_similarity"
  | .areSimilar => .predicate .trigramSimilar
  | .areWordSimilar => .predicate .trigramWordSimilar
  | .areStrictWordSimilar => .predicate .trigramStrictWordSimilar
  | .similarityDistance => .measure .trigramDistance

/-- Comparisons by trigrams. -/
def trigramTranslator (b : Builder) : ScalarTranslator where
  name := "TrigramsMethodTranslator"
  translate c :=
    match Known.identify? c.method, c.args with
    | some (.trigram m), _ :: args =>
      match trigramForm m, args with
      | .function name, args => b.strictCall name args c.method.returnTy none
      | .predicate op, [left, right] => pure (b.postgresPredicate op left right)
      | .measure op, [left, right] =>
        pure (b.postgres op left right (some c.method.returnTy) none)
      | _, _ => .decline
    | _, _ => .decline

end QuerySql.Scalar.Similarity
