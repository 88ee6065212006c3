import QuerySql.Operator

/-!
# Operators of SQL

The operators that only SQL has: null checks, the operators that PostgreSQL and its extensions add,
and the comparisons that run over all elements of an array.
-/

namespace QuerySql

/-- A unary operator of SQL. -/
inductive SqlUnaryOp where
  | not | negate | isNull | isNotNull
  deriving DecidableEq

namespace SqlUnaryOp

/-- All unary operators, in their fixed order. -/
def all : List SqlUnaryOp := [.not, .negate, .isNull, .isNotNull]

/-- The name an operator is written with. -/
def name : SqlUnaryOp → String
  | not => "Not"
  | negate => "Negate"
  | isNull => "IsNull"
  | isNotNull => "IsNotNull"

/-- The operator of that name. -/
def ofName? (s : String) : Option SqlUnaryOp := all.find? fun o => o.name == s

/-- The operators that ask whether the operand is null. -/
def isNullCheck : SqlUnaryOp → Bool
  | isNull | isNotNull => true
  | _ => false

end SqlUnaryOp

/-- How an item is compared with the elements of an array: with some of them, or with all. -/
inductive Quantifier where
  | any | all
  deriving DecidableEq

/-- The comparison that a quantifier runs over an array. -/
inductive ElementOp where
  | equal | like | ilike
  deriving DecidableEq

namespace ElementOp

/-- The comparisons that a quantifier can run. Equality with all elements has no use. -/
def allOf : Quantifier → List ElementOp
  | .any => [.equal, .like, .ilike]
  | .all => [.like, .ilike]

/-- The name a comparison is written with. -/
def name : ElementOp → String
  | equal => "Equal"
  | like => "Like"
  | ilike => "ILike"

/-- The comparison in SQL. -/
def symbol : ElementOp → String
  | equal => "="
  | like => "LIKE"
  | ilike => "ILIKE"

/-- The comparison of that name, if the quantifier can run it. -/
def ofName? (q : Quantifier) (s : String) : Option ElementOp :=
  (allOf q).find? fun o => o.name == s

end ElementOp

/-- A binary operator that PostgreSQL or one of its extensions adds. -/
inductive PostgresOp where
  | contains | containedBy | overlaps
  | networkContainedBy | networkContainedByOrEqual | networkContains | networkContainsOrEqual
  | networkContainsOrContainedBy
  | labelMatches | labelMatchesText | labelMatchesAny
  | labelFirstAncestor | labelFirstDescendant | labelFirstMatches | labelFirstMatchesText
  | jsonExists | jsonExistsAny | jsonExistsAll
  | trigramSimilar | trigramWordSimilar | trigramStrictWordSimilar | trigramDistance
  deriving DecidableEq

namespace PostgresOp

/-- All operators, in their fixed order. -/
def all : List PostgresOp :=
  [.contains, .containedBy, .overlaps, .networkContainedBy, .networkContainedByOrEqual,
   .networkContains, .networkContainsOrEqual, .networkContainsOrContainedBy, .labelMatches,
   .labelMatchesText, .labelMatchesAny, .labelFirstAncestor, .labelFirstDescendant,
   .labelFirstMatches, .labelFirstMatchesText, .jsonExists, .jsonExistsAny, .jsonExistsAll,
   .trigramSimilar, .trigramWordSimilar, .trigramStrictWordSimilar, .trigramDistance]

/-- The name an operator is written with. -/
def name : PostgresOp → String
  | contains => "Contains"
  | containedBy => "ContainedBy"
  | overlaps => "Overlaps"
  | networkContainedBy => "NetworkContainedBy"
  | networkContainedByOrEqual => "NetworkContainedByOrEqual"
  | networkContains => "NetworkContains"
  | networkContainsOrEqual => "NetworkContainsOrEqual"
  | networkContainsOrContainedBy => "NetworkContainsOrContainedBy"
  | labelMatches => "LTreeMatches"
  | labelMatchesText => "LTreeMatchesText"
  | labelMatchesAny => "LTreeMatchesAny"
  | labelFirstAncestor => "LTreeFirstAncestor"
  | labelFirstDescendant => "LTreeFirstDescendent"
  | labelFirstMatches => "LTreeFirstMatches"
  | labelFirstMatchesText => "LTreeFirstMatchesText"
  | jsonExists => "JsonExists"
  | jsonExistsAny => "JsonExistsAny"
  | jsonExistsAll => "JsonExistsAll"
  | trigramSimilar => "TrigramAreSimilar"
  | trigramWordSimilar => "TrigramAreWordSimilar"
  | trigramStrictWordSimilar => "TrigramAreStrictWordSimilar"
  | trigramDistance => "TrigramSimilarityDistance"

/-- The operator in SQL. -/
def symbol : PostgresOp → String
  | contains => "@>"
  | containedBy => "<@"
  | overlaps => "&&"
  | networkContainedBy => "<<"
  | networkContainedByOrEqual => "<<="
  | networkContains => ">>"
  | networkContainsOrEqual => ">>="
  | networkContainsOrContainedBy => "&&"
  | labelMatches => "~"
  | labelMatchesText => "@"
  | labelMatchesAny => "?"
  | labelFirstAncestor => "?@>"
  | labelFirstDescendant => "?<@"
  | labelFirstMatches => "?~"
  | labelFirstMatchesText => "?@"
  | jsonExists => "?"
  | jsonExistsAny => "?|"
  | jsonExistsAll => "?&"
  | trigramSimilar => "%"
  | trigramWordSimilar => "<%"
  | trigramStrictWordSimilar => "<<%"
  | trigramDistance => "<->"

/-- The operator of that name. -/
def ofName? (s : String) : Option PostgresOp := all.find? fun o => o.name == s

end PostgresOp

end QuerySql
