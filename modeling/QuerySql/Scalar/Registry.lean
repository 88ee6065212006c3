import QuerySql.Options
import QuerySql.Scalar.Arrays
import QuerySql.Scalar.Bytes
import QuerySql.Scalar.Casts
import QuerySql.Scalar.Dates
import QuerySql.Scalar.Documents
import QuerySql.Scalar.LabelTrees
import QuerySql.Scalar.Networks
import QuerySql.Scalar.Numbers
import QuerySql.Scalar.Patterns
import QuerySql.Scalar.Rows
import QuerySql.Scalar.Similarity
import QuerySql.Scalar.Texts

/-!
# The registry of scalar translators

The built-in translators in their fixed order. Translators that a provider adds come after them.
-/

namespace QuerySql.Scalar

/-- The built-in translators. -/
def builtIn (b : Builder) (options : Options) : List ScalarTranslator :=
  [Arrays.translator b options.useRedshift,
   Bytes.translator b,
   Casts.conversionTranslator b,
   Dates.translator b,
   Similarity.fuzzyTranslator b,
   Documents.translator b,
   Patterns.likeTranslator b,
   LabelTrees.translator b,
   Numbers.mathTranslator b,
   Networks.translator b,
   Numbers.newGuidTranslator b (options.isVersionAtLeast 13 0),
   Casts.textTranslator b,
   Numbers.randomTranslator b,
   Patterns.regexTranslator b,
   Rows.translator b,
   Texts.translator b,
   Similarity.trigramTranslator b]

end QuerySql.Scalar
