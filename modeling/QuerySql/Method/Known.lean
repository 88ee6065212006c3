import QuerySql.Method

/-!
# Methods that are known by signature

The methods that some family of translators recognises by their whole signature, grouped by
family. Methods with many overloads (mathematics, conversions, arithmetic on dates, conversion to
text) are recognised by owner and name and are not among them.

* `Known.declaration` is what is declared: signature, return type, static or not.
* `Known.identify?` finds the known method that a method is, if it is closed by as many types as its
  signature has open parameters.
-/

namespace QuerySql

/-- Methods over any sequence of elements. -/
inductive SequenceMethod where
  | contains | any | anyWhere | allWhere | first | firstOrDefaultWhere | count | elementAt
  | sequenceEqual | append | concat
  deriving DecidableEq

/-- Methods over texts. -/
inductive TextMethod where
  | join | contains | startsWith | endsWith | indexOf | replace | toLower | toUpper
  | substringFrom | substring | trim | trimStart | trimEnd
  | padLeft | padLeftWith | padRight | padRightWith | isNullOrEmpty | isNullOrWhiteSpace
  deriving DecidableEq

/-- Comparisons of rows. -/
inductive RowMethod where
  | greaterThan | greaterThanOrEqual | lessThan | lessThanOrEqual
  deriving DecidableEq

/-- Functions that compare texts by their sound. -/
inductive FuzzyMethod where
  | soundex | difference | levenshtein | metaphone | doubleMetaphone
  deriving DecidableEq

/-- Functions that compare texts by the groups of three characters in them. -/
inductive TrigramMethod where
  | show | similarity | wordSimilarity | strictWordSimilarity
  | areSimilar | areWordSimilar | areStrictWordSimilar | similarityDistance
  deriving DecidableEq

/-- Functions over JSON documents. -/
inductive JsonMethod where
  | contains | contained | exists | existAny | existAll | typeof
  deriving DecidableEq

/-- Methods of label trees. -/
inductive LabelTreeMethod where
  | isAncestorOf | isDescendantOf | matchesQuery | matchesTextQuery
  | subtree | subpathFrom | subpath | index | longestCommonAncestor
  deriving DecidableEq

/-- Functions over network and hardware addresses. -/
inductive NetworkMethod where
  | containedBy | containedByOrEqual | contains | containsOrEqual | containsOrContainedBy
  | abbreviate | broadcast | family | host | hostMask | maskLength | netmask | network
  | setMaskLength | text | sameFamily | merge | truncate | set7BitMac8
  deriving DecidableEq

/-- Methods that reduce a set of geometries. -/
inductive SpatialMethod where
  | combine | convexHull | union | envelope
  deriving DecidableEq

/-- A method that is known by its signature. -/
inductive Known where
  | sequence (m : SequenceMethod)
  | arrayIndexOf
  | text (m : TextMethod)
  | objectEquals
  | like (ignoreCase withEscape : Bool)
  | random
  | row (m : RowMethod)
  | regexIsMatch (withOptions : Bool)
  | newGuid
  | dateOfDateTime
  | fuzzy (m : FuzzyMethod)
  | trigram (m : TrigramMethod)
  | json (m : JsonMethod)
  | labelTree (m : LabelTreeMethod)
  | network (m : NetworkMethod)
  | spatial (m : SpatialMethod)
  deriving DecidableEq

namespace Known

/-- All known methods, family by family. -/
def all : List Known :=
  [.contains, .any, .anyWhere, .allWhere, .first, .firstOrDefaultWhere, .count, .elementAt,
    .sequenceEqual, .append, .concat].map sequence ++
  [arrayIndexOf] ++
  [.join, .contains, .startsWith, .endsWith, .indexOf, .replace, .toLower, .toUpper,
    .substringFrom, .substring, .trim, .trimStart, .trimEnd, .padLeft, .padLeftWith, .padRight,
    .padRightWith, .isNullOrEmpty, .isNullOrWhiteSpace].map text ++
  [objectEquals, like false false, like false true, like true false, like true true, random] ++
  [.greaterThan, .greaterThanOrEqual, .lessThan, .lessThanOrEqual].map row ++
  [regexIsMatch false, regexIsMatch true, newGuid, dateOfDateTime] ++
  [.soundex, .difference, .levenshtein, .metaphone, .doubleMetaphone].map fuzzy ++
  [.show, .similarity, .wordSimilarity, .strictWordSimilarity, .areSimilar, .areWordSimilar,
    .areStrictWordSimilar, .similarityDistance].map trigram ++
  [.contains, .contained, .exists, .existAny, .existAll, .typeof].map json ++
  [.isAncestorOf, .isDescendantOf, .matchesQuery, .matchesTextQuery, .subtree, .subpathFrom,
    .subpath, .index, .longestCommonAncestor].map labelTree ++
  [.containedBy, .containedByOrEqual, .contains, .containsOrEqual, .containsOrContainedBy,
    .abbreviate, .broadcast, .family, .host, .hostMask, .maskLength, .netmask, .network,
    .setMaskLength, .text, .sameFamily, .merge, .truncate, .set7BitMac8].map network ++
  [.combine, .convexHull, .union, .envelope].map spatial

/-- The name a known method is written with. -/
def name : Known → String
  | sequence .contains => "EnumerableContains"
  | sequence .any => "EnumerableAnyWithoutPredicate"
  | sequence .anyWhere => "EnumerableAnyWithPredicate"
  | sequence .allWhere => "EnumerableAll"
  | sequence .first => "EnumerableFirstWithoutPredicate"
  | sequence .firstOrDefaultWhere => "EnumerableFirstOrDefaultWithPredicate"
  | sequence .count => "EnumerableCountWithoutPredicate"
  | sequence .elementAt => "EnumerableElementAt"
  | sequence .sequenceEqual => "EnumerableSequenceEqual"
  | sequence .append => "EnumerableAppend"
  | sequence .concat => "EnumerableConcat"
  | arrayIndexOf => "ArrayIndexOf"
  | text .join => "StringJoin"
  | text .contains => "StringContains"
  | text .startsWith => "StringStartsWith"
  | text .endsWith => "StringEndsWith"
  | text .indexOf => "StringIndexOf"
  | text .replace => "StringReplace"
  | text .toLower => "StringToLower"
  | text .toUpper => "StringToUpper"
  | text .substringFrom => "StringSubstringFrom"
  | text .substring => "StringSubstring"
  | text .trim => "StringTrim"
  | text .trimStart => "StringTrimStart"
  | text .trimEnd => "StringTrimEnd"
  | text .padLeft => "StringPadLeft"
  | text .padLeftWith => "StringPadLeftWith"
  | text .padRight => "StringPadRight"
  | text .padRightWith => "StringPadRightWith"
  | text .isNullOrEmpty => "StringIsNullOrEmpty"
  | text .isNullOrWhiteSpace => "StringIsNullOrWhiteSpace"
  | objectEquals => "ObjectEquals"
  | like false false => "Like"
  | like false true => "LikeWithEscape"
  | like true false => "ILike"
  | like true true => "ILikeWithEscape"
  | random => "Random"
  | row .greaterThan => "RowValueGreaterThan"
  | row .greaterThanOrEqual => "RowValueGreaterThanOrEqual"
  | row .lessThan => "RowValueLessThan"
  | row .lessThanOrEqual => "RowValueLessThanOrEqual"
  | regexIsMatch false => "RegexIsMatch"
  | regexIsMatch true => "RegexIsMatchWithOptions"
  | newGuid => "GuidNewGuid"
  | dateOfDateTime => "DateOnlyFromDateTime"
  | fuzzy .soundex => "FuzzyStringMatchSoundex"
  | fuzzy .difference => "FuzzyStringMatchDifference"
  | fuzzy .levenshtein => "FuzzyStringMatchLevenshtein"
  | fuzzy .metaphone => "FuzzyStringMatchMetaphone"
  | fuzzy .doubleMetaphone => "FuzzyStringMatchDoubleMetaphone"
  | trigram .show => "TrigramsShow"
  | trigram .similarity => "TrigramsSimilarity"
  | trigram .wordSimilarity => "TrigramsWordSimilarity"
  | trigram .strictWordSimilarity => "TrigramsStrictWordSimilarity"
  | trigram .areSimilar => "TrigramsAreSimilar"
  | trigram .areWordSimilar => "TrigramsAreWordSimilar"
  | trigram .areStrictWordSimilar => "TrigramsAreStrictWordSimilar"
  | trigram .similarityDistance => "TrigramsSimilarityDistance"
  | json .contains => "JsonContains"
  | json .contained => "JsonContained"
  | json .exists => "JsonExists"
  | json .existAny => "JsonExistAny"
  | json .existAll => "JsonExistAll"
  | json .typeof => "JsonTypeof"
  | labelTree .isAncestorOf => "LTreeIsAncestorOf"
  | labelTree .isDescendantOf => "LTreeIsDescendantOf"
  | labelTree .matchesQuery => "LTreeMatchesLQuery"
  | labelTree .matchesTextQuery => "LTreeMatchesLTxtQuery"
  | labelTree .subtree => "LTreeSubtree"
  | labelTree .subpathFrom => "LTreeSubpathFrom"
  | labelTree .subpath => "LTreeSubpath"
  | labelTree .index => "LTreeIndex"
  | labelTree .longestCommonAncestor => "LTreeLongestCommonAncestor"
  | network .containedBy => "NetworkContainedBy"
  | network .containedByOrEqual => "NetworkContainedByOrEqual"
  | network .contains => "NetworkContains"
  | network .containsOrEqual => "NetworkContainsOrEqual"
  | network .containsOrContainedBy => "NetworkContainsOrContainedBy"
  | network .abbreviate => "NetworkAbbreviate"
  | network .broadcast => "NetworkBroadcast"
  | network .family => "NetworkFamily"
  | network .host => "NetworkHost"
  | network .hostMask => "NetworkHostMask"
  | network .maskLength => "NetworkMaskLength"
  | network .netmask => "NetworkNetmask"
  | network .network => "NetworkNetwork"
  | network .setMaskLength => "NetworkSetMaskLength"
  | network .text => "NetworkText"
  | network .sameFamily => "NetworkSameFamily"
  | network .merge => "NetworkMerge"
  | network .truncate => "NetworkTruncate"
  | network .set7BitMac8 => "NetworkSet7BitMac8"
  | spatial .combine => "GeometryCombinerCombine"
  | spatial .convexHull => "ConvexHullCreate"
  | spatial .union => "UnaryUnionOpUnion"
  | spatial .envelope => "EnvelopeCombinerCombineAsGeometry"

/-- The known method of that name. -/
def ofName? (s : String) : Option Known := all.find? fun k => k.name == s

/-! ## Declarations -/

/-- A method as it is declared, with its parameters still open. -/
structure Declaration where
  signature : Method.Signature
  returnTy : Ty
  isStatic : Bool
  deriving DecidableEq

namespace Declaration

/-- A static method that is not generic. -/
def static (owner : Method.Owner) (name : String) (parameters : List Ty) (returnTy : Ty) :
    Declaration :=
  ⟨⟨owner, name, parameters, 0⟩, returnTy, true⟩

/-- An instance method that is not generic. -/
def onInstance (owner : Method.Owner) (name : String) (parameters : List Ty) (returnTy : Ty) :
    Declaration :=
  ⟨⟨owner, name, parameters, 0⟩, returnTy, false⟩

/-- A static method with one open parameter. -/
def generic (owner : Method.Owner) (name : String) (parameters : List Ty) (returnTy : Ty) :
    Declaration :=
  ⟨⟨owner, name, parameters, 1⟩, returnTy, true⟩

/-- A database function: its first parameter is the receiver that all of them share. -/
def function (owner : Method.Owner) (name : String) (parameters : List Ty) (returnTy : Ty) :
    Declaration :=
  static owner name (.dbFunctions :: parameters) returnTy

end Declaration

/-- The open parameter of a generic method. -/
abbrev elementTy : Ty := .parameter 0

/-- A sequence of the open parameter. -/
abbrev elements : Ty := .enumerable elementTy

/-- A condition on the open parameter. -/
abbrev condition : Ty := .func [elementTy, .bool]

/-- The declarations over sequences. -/
def declareSequence : SequenceMethod → Declaration
  | .contains => .generic .enumerable "Contains" [elements, elementTy] .bool
  | .any => .generic .enumerable "Any" [elements] .bool
  | .anyWhere => .generic .enumerable "Any" [elements, condition] .bool
  | .allWhere => .generic .enumerable "All" [elements, condition] .bool
  | .first => .generic .enumerable "First" [elements] elementTy
  | .firstOrDefaultWhere => .generic .enumerable "FirstOrDefault" [elements, condition] elementTy
  | .count => .generic .enumerable "Count" [elements] .int
  | .elementAt => .generic .enumerable "ElementAt" [elements, .int] elementTy
  | .sequenceEqual => .generic .enumerable "SequenceEqual" [elements, elements] .bool
  | .append => .generic .enumerable "Append" [elements, elementTy] elements
  | .concat => .generic .enumerable "Concat" [elements, elements] elements

/-- The declarations over texts. -/
def declareText : TextMethod → Declaration
  | .join => .static .string "Join" [.string, .enumerable .string] .string
  | .contains => .onInstance .string "Contains" [.string] .bool
  | .startsWith => .onInstance .string "StartsWith" [.string] .bool
  | .endsWith => .onInstance .string "EndsWith" [.string] .bool
  | .indexOf => .onInstance .string "IndexOf" [.string] .int
  | .replace => .onInstance .string "Replace" [.string, .string] .string
  | .toLower => .onInstance .string "ToLower" [] .string
  | .toUpper => .onInstance .string "ToUpper" [] .string
  | .substringFrom => .onInstance .string "Substring" [.int] .string
  | .substring => .onInstance .string "Substring" [.int, .int] .string
  | .trim => .onInstance .string "Trim" [] .string
  | .trimStart => .onInstance .string "TrimStart" [] .string
  | .trimEnd => .onInstance .string "TrimEnd" [] .string
  | .padLeft => .onInstance .string "PadLeft" [.int] .string
  | .padLeftWith => .onInstance .string "PadLeft" [.int, .char] .string
  | .padRight => .onInstance .string "PadRight" [.int] .string
  | .padRightWith => .onInstance .string "PadRight" [.int, .char] .string
  | .isNullOrEmpty => .static .string "IsNullOrEmpty" [.string] .bool
  | .isNullOrWhiteSpace => .static .string "IsNullOrWhiteSpace" [.string] .bool

/-- The declarations of pattern matching, with one more parameter for an escape character. -/
def declareLike (ignoreCase withEscape : Bool) : Declaration :=
  .function (if ignoreCase then .postgresFunctions else .dbFunctions)
    (if ignoreCase then "ILike" else "Like")
    (if withEscape then [.string, .string, .string] else [.string, .string]) .bool

/-- The declarations of row comparisons. -/
def declareRow (m : RowMethod) : Declaration :=
  let name := match m with
    | .greaterThan => "GreaterThan"
    | .greaterThanOrEqual => "GreaterThanOrEqual"
    | .lessThan => "LessThan"
    | .lessThanOrEqual => "LessThanOrEqual"
  .function .postgresFunctions name [.anyTuple, .anyTuple] .bool

/-- The declarations of comparisons by sound. -/
def declareFuzzy : FuzzyMethod → Declaration
  | .soundex => .function .fuzzyFunctions "FuzzyStringMatchSoundex" [.string] .string
  | .difference => .function .fuzzyFunctions "FuzzyStringMatchDifference" [.string, .string] .int
  | .levenshtein => .function .fuzzyFunctions "FuzzyStringMatchLevenshtein" [.string, .string] .int
  | .metaphone => .function .fuzzyFunctions "FuzzyStringMatchMetaphone" [.string, .int] .string
  | .doubleMetaphone =>
    .function .fuzzyFunctions "FuzzyStringMatchDoubleMetaphone" [.string] .string

/-- The declarations of comparisons by trigrams. -/
def declareTrigram (m : TrigramMethod) : Declaration :=
  match m with
  | .show => .function .trigramFunctions "TrigramsShow" [.string] (.array .string)
  | .similarity => two "TrigramsSimilarity" .double
  | .wordSimilarity => two "TrigramsWordSimilarity" .double
  | .strictWordSimilarity => two "TrigramsStrictWordSimilarity" .double
  | .areSimilar => two "TrigramsAreSimilar" .bool
  | .areWordSimilar => two "TrigramsAreWordSimilar" .bool
  | .areStrictWordSimilar => two "TrigramsAreStrictWordSimilar" .bool
  | .similarityDistance => two "TrigramsSimilarityDistance" .double
where
  two (name : String) (returnTy : Ty) : Declaration :=
    .function .trigramFunctions name [.string, .string] returnTy

/-- The declarations over JSON documents. -/
def declareJson : JsonMethod → Declaration
  | .contains => .function .jsonFunctions "JsonContains" [.object, .object] .bool
  | .contained => .function .jsonFunctions "JsonContained" [.object, .object] .bool
  | .exists => .function .jsonFunctions "JsonExists" [.object, .string] .bool
  | .existAny => .function .jsonFunctions "JsonExistAny" [.object, .array .string] .bool
  | .existAll => .function .jsonFunctions "JsonExistAll" [.object, .array .string] .bool
  | .typeof => .function .jsonFunctions "JsonTypeof" [.object] .string

/-- The declarations over label trees. -/
def declareLabelTree : LabelTreeMethod → Declaration
  | .isAncestorOf => .onInstance .labelTree "IsAncestorOf" [.labelTree] .bool
  | .isDescendantOf => .onInstance .labelTree "IsDescendantOf" [.labelTree] .bool
  | .matchesQuery => .onInstance .labelTree "MatchesLQuery" [.labelQuery] .bool
  | .matchesTextQuery => .onInstance .labelTree "MatchesLTxtQuery" [.labelTextQuery] .bool
  | .subtree => .onInstance .labelTree "Subtree" [.int, .int] .labelTree
  | .subpathFrom => .onInstance .labelTree "Subpath" [.int] .labelTree
  | .subpath => .onInstance .labelTree "Subpath" [.int, .int] .labelTree
  | .index => .onInstance .labelTree "Index" [.labelTree] .int
  | .longestCommonAncestor =>
    .static .labelTree "LongestCommonAncestor" [.array .labelTree] .labelTree

/-- The declarations over network and hardware addresses. -/
def declareNetwork (m : NetworkMethod) : Declaration :=
  match m with
  | .containedBy => two "ContainedBy" .bool
  | .containedByOrEqual => two "ContainedByOrEqual" .bool
  | .contains => two "Contains" .bool
  | .containsOrEqual => two "ContainsOrEqual" .bool
  | .containsOrContainedBy => two "ContainsOrContainedBy" .bool
  | .abbreviate => one "Abbreviate" .string
  | .broadcast => one "Broadcast" .ipAddress
  | .family => one "Family" .int
  | .host => one "Host" .string
  | .hostMask => one "HostMask" .ipAddress
  | .maskLength => one "MaskLength" .int
  | .netmask => one "Netmask" .ipAddress
  | .network => one "Network" .ipAddress
  | .setMaskLength => .function .networkFunctions "SetMaskLength" [.ipAddress, .int] .ipAddress
  | .text => one "Text" .string
  | .sameFamily => two "SameFamily" .bool
  | .merge => two "Merge" .ipAddress
  | .truncate => .function .networkFunctions "Truncate" [.macAddress] .macAddress
  | .set7BitMac8 => .function .networkFunctions "Set7BitMac8" [.macAddress] .macAddress
where
  one (name : String) (returnTy : Ty) : Declaration :=
    .function .networkFunctions name [.ipAddress] returnTy
  two (name : String) (returnTy : Ty) : Declaration :=
    .function .networkFunctions name [.ipAddress, .ipAddress] returnTy

/-- The declarations over sets of geometries. -/
def declareSpatial (m : SpatialMethod) : Declaration :=
  match m with
  | .combine => reduce .geometryCombiner "Combine"
  | .convexHull => reduce .convexHull "Create"
  | .union => reduce .unaryUnion "Union"
  | .envelope => reduce .envelopeCombiner "CombineAsGeometry"
where
  reduce (owner : Method.Owner) (name : String) : Declaration :=
    .static owner name [.enumerable .geometry] .geometry

/-- What is declared. -/
def declaration : Known → Declaration
  | sequence m => declareSequence m
  | arrayIndexOf => .generic .array "IndexOf" [.array elementTy, elementTy] .int
  | text m => declareText m
  | objectEquals => .static .object "Equals" [.object, .object] .bool
  | like ignoreCase withEscape => declareLike ignoreCase withEscape
  | random => .function .dbFunctions "Random" [] .double
  | row m => declareRow m
  | regexIsMatch withOptions =>
    .static .regex "IsMatch"
      (if withOptions then [.string, .string, .regexOptions] else [.string, .string]) .bool
  | newGuid => .static .guid "NewGuid" [] .guid
  | dateOfDateTime => .static .dateOnly "FromDateTime" [.dateTime] .dateOnly
  | fuzzy m => declareFuzzy m
  | trigram m => declareTrigram m
  | json m => declareJson m
  | labelTree m => declareLabelTree m
  | network m => declareNetwork m
  | spatial m => declareSpatial m

/-- The signature of a known method. -/
def signature (k : Known) : Method.Signature := k.declaration.signature

/-! ## Identity -/

/-- The known method with that signature. -/
def ofSignature? (s : Method.Signature) : Option Known := all.find? fun k => k.signature == s

/-- The known method that a method is. A generic one has to be closed. -/
def identify? (m : Method) : Option Known :=
  if m.generics.length = m.signature.arity then ofSignature? m.signature else none

/-- Whether the method is the known one. -/
def recognizes (k : Known) (m : Method) : Bool := decide (identify? m = some k)

/-- The known method, closed by these types. -/
def close (k : Known) (generics : List Ty) : Method :=
  ⟨k.signature, generics, k.declaration.returnTy.substitute generics, k.declaration.isStatic⟩

/-- The known method, closed by these types if they are as many as it needs. -/
def instantiate? (k : Known) (generics : List Ty) : Option Method :=
  if generics.length = k.signature.arity then some (k.close generics) else none

end Known

end QuerySql
