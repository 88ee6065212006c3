import QuerySql.Ty

/-!
# Methods and constructors

A method is identified by the type that owns it, its name and the types of its declared parameters.
A generic method keeps its open parameters in that signature, so all its closed forms share it; a
`Method` adds the types that close it.
-/

namespace QuerySql

namespace Method

/-- The type that declares a method. -/
inductive Owner where
  | object | enumerable | array | list | hashSet | string | math | convert | guid | regex
  | dateTime | dateOnly
  | dbFunctions | postgresFunctions | fuzzyFunctions | trigramFunctions | networkFunctions
  | jsonFunctions
  | labelTree | geometryCombiner | convexHull | unaryUnion | envelopeCombiner
  /-- A type that nothing here knows, by name. -/
  | other (name : String)
  deriving DecidableEq

namespace Owner

/-- The owners with a name of their own, in their fixed order. -/
def known : List Owner :=
  [.object, .enumerable, .array, .list, .hashSet, .string, .math, .convert, .guid, .regex,
   .dateTime, .dateOnly, .dbFunctions, .postgresFunctions, .fuzzyFunctions, .trigramFunctions,
   .networkFunctions, .jsonFunctions, .labelTree, .geometryCombiner, .convexHull, .unaryUnion,
   .envelopeCombiner]

/-- The name an owner is written with. -/
def name : Owner → String
  | object => "Object"
  | enumerable => "Enumerable"
  | array => "Array"
  | list => "List"
  | hashSet => "HashSet"
  | string => "String"
  | math => "Math"
  | convert => "Convert"
  | guid => "Guid"
  | regex => "Regex"
  | dateTime => "DateTime"
  | dateOnly => "DateOnly"
  | dbFunctions => "DbFunctionsExtensions"
  | postgresFunctions => "NpgsqlDbFunctionsExtensions"
  | fuzzyFunctions => "FuzzyStringMatchDbFunctionsExtensions"
  | trigramFunctions => "TrigramsDbFunctionsExtensions"
  | networkFunctions => "NetworkDbFunctionsExtensions"
  | jsonFunctions => "JsonDbFunctionsExtensions"
  | labelTree => "LTree"
  | geometryCombiner => "GeometryCombiner"
  | convexHull => "ConvexHull"
  | unaryUnion => "UnaryUnionOp"
  | envelopeCombiner => "EnvelopeCombiner"
  | other name => name

/-- The known owner of that name. -/
def ofName? (s : String) : Option Owner :=
  known.find? fun o => o.name == s

end Owner

/-- What identifies a method. -/
structure Signature where
  owner : Owner
  name : String
  /-- The declared parameter types, without the receiver of an instance method. -/
  parameters : List Ty
  /-- The number of open parameters. -/
  arity : Nat
  deriving DecidableEq

end Method

/-- A method as a call refers to it. -/
structure Method where
  signature : Method.Signature
  /-- The types that close a generic method. -/
  generics : List Ty
  returnTy : Ty
  isStatic : Bool
  deriving DecidableEq

namespace Method

/-- The name of the method. -/
abbrev name (m : Method) : String := m.signature.name

/-- The type that declares the method. -/
abbrev owner (m : Method) : Owner := m.signature.owner

/-- The declared parameter types, closed. -/
def parameterTypes (m : Method) : List Ty :=
  m.signature.parameters.map (Ty.substitute m.generics)

/-- Whether any types close the method. -/
def isGeneric (m : Method) : Bool := !m.generics.isEmpty

/-- Whether this is a closed form of the generic method with that signature. -/
def isClosedFormOf (m : Method) (definition : Signature) : Bool :=
  decide (0 < definition.arity ∧ m.generics.length = definition.arity ∧ m.signature = definition)

end Method

/-- A constructor: the type it builds and the types of its parameters. -/
structure Constructor where
  ty : Ty
  parameters : List Ty
  deriving DecidableEq

namespace Constructor

/-- A timestamp from year, month and day. -/
def dateTimeOfDay : Constructor := ⟨.dateTime, List.replicate 3 .int⟩

/-- A timestamp from year, month, day, hour, minute and second. -/
def dateTimeOfSecond : Constructor := ⟨.dateTime, List.replicate 6 .int⟩

/-- A timestamp from year, month, day, hour, minute and second, of a given kind. -/
def dateTimeOfKind : Constructor := ⟨.dateTime, List.replicate 6 .int ++ [.dateTimeKind]⟩

/-- A date from year, month and day. -/
def dateOfDay : Constructor := ⟨.dateOnly, List.replicate 3 .int⟩

end Constructor

end QuerySql
