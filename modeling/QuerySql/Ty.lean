/-!
# Types of query expressions

The static types that query expressions carry. A type is an atom, or is built from other types:
nullable and enumeration types, the four collection shapes, tuples and function types. Open
parameters of generic methods are types too, and `Ty.substitute` closes them.

* `Ty.beq_eq_true_iff`: the computed comparison decides equality.
* `Ty.stripNullable` removes one layer of nullability, `Ty.asNullable` adds one unless there is one.
* `Ty.underlying` also looks through an enumeration, to the integer type that represents it.
-/

namespace QuerySql

/-- The types that have no parts. -/
inductive Atom where
  | bool | byte | sbyte | short | ushort | int | uint | long | ulong
  | char | float | double | decimal | string | guid
  | dateTime | dateTimeOffset | dateOnly | timeOnly | timeSpan | dateTimeKind
  | regexOptions | object
  /-- The capability that every tuple type has: what a tuple is viewed as in a row comparison. -/
  | anyTuple
  /-- The receiver that database functions are called on. -/
  | dbFunctions
  | geometry | localDate | period
  | labelTree | labelQuery | labelTextQuery
  | ipAddress | macAddress
  deriving DecidableEq

namespace Atom

/-- All atoms, in their fixed order. -/
def all : List Atom :=
  [.bool, .byte, .sbyte, .short, .ushort, .int, .uint, .long, .ulong, .char, .float, .double,
   .decimal, .string, .guid, .dateTime, .dateTimeOffset, .dateOnly, .timeOnly, .timeSpan,
   .dateTimeKind, .regexOptions, .object, .anyTuple, .dbFunctions, .geometry, .localDate, .period,
   .labelTree, .labelQuery, .labelTextQuery, .ipAddress, .macAddress]

/-- The name an atom is written with. -/
def name : Atom → String
  | bool => "Bool"
  | byte => "Byte"
  | sbyte => "SByte"
  | short => "Short"
  | ushort => "UShort"
  | int => "Int"
  | uint => "UInt"
  | long => "Long"
  | ulong => "ULong"
  | char => "Char"
  | float => "Float"
  | double => "Double"
  | decimal => "Decimal"
  | string => "String"
  | guid => "Guid"
  | dateTime => "DateTime"
  | dateTimeOffset => "DateTimeOffset"
  | dateOnly => "DateOnly"
  | timeOnly => "TimeOnly"
  | timeSpan => "TimeSpan"
  | dateTimeKind => "DateTimeKind"
  | regexOptions => "RegexOptions"
  | object => "Object"
  | anyTuple => "ITuple"
  | dbFunctions => "DbFunctions"
  | geometry => "Geometry"
  | localDate => "LocalDate"
  | period => "Period"
  | labelTree => "LTree"
  | labelQuery => "LQuery"
  | labelTextQuery => "LTxtQuery"
  | ipAddress => "IPAddress"
  | macAddress => "PhysicalAddress"

/-- The atom written as `s`. -/
def ofName? (s : String) : Option Atom :=
  all.find? fun a => a.name == s

/-- The fixed-width integer types. -/
def isInteger : Atom → Bool
  | byte | sbyte | short | ushort | int | uint | long | ulong => true
  | _ => false

/-- The integer types, the binary floating-point types and the decimal type. -/
def isNumeric : Atom → Bool
  | float | double | decimal => true
  | a => a.isInteger

/-- The atoms whose values are never null: numbers, truth values and the other plain values. Texts,
documents and other references may be null. -/
def isPlainValue : Atom → Bool
  | bool | char | guid | dateTime | dateTimeOffset | dateOnly | timeOnly | timeSpan | dateTimeKind
  | localDate | period => true
  | a => a.isNumeric

end Atom

/-- The type of a query expression. -/
inductive Ty where
  | atom (a : Atom)
  | nullable (t : Ty)
  /-- An enumeration, represented by an integer type. -/
  | enum (name : String) (underlying : Ty)
  | array (element : Ty)
  | list (element : Ty)
  | hashSet (element : Ty)
  | enumerable (element : Ty)
  | tuple (components : List Ty)
  /-- A function type: the parameter types, then the result type. -/
  | func (signature : List Ty)
  /-- A user type that is stored as a JSON document. -/
  | document (name : String)
  /-- An open parameter of a generic method, by position. -/
  | parameter (index : Nat)

namespace Ty

@[match_pattern] abbrev bool : Ty := .atom .bool
@[match_pattern] abbrev byte : Ty := .atom .byte
@[match_pattern] abbrev sbyte : Ty := .atom .sbyte
@[match_pattern] abbrev short : Ty := .atom .short
@[match_pattern] abbrev ushort : Ty := .atom .ushort
@[match_pattern] abbrev int : Ty := .atom .int
@[match_pattern] abbrev long : Ty := .atom .long
@[match_pattern] abbrev char : Ty := .atom .char
@[match_pattern] abbrev float : Ty := .atom .float
@[match_pattern] abbrev double : Ty := .atom .double
@[match_pattern] abbrev decimal : Ty := .atom .decimal
@[match_pattern] abbrev string : Ty := .atom .string
@[match_pattern] abbrev guid : Ty := .atom .guid
@[match_pattern] abbrev dateTime : Ty := .atom .dateTime
@[match_pattern] abbrev dateOnly : Ty := .atom .dateOnly
@[match_pattern] abbrev timeOnly : Ty := .atom .timeOnly
@[match_pattern] abbrev timeSpan : Ty := .atom .timeSpan
@[match_pattern] abbrev dateTimeKind : Ty := .atom .dateTimeKind
@[match_pattern] abbrev regexOptions : Ty := .atom .regexOptions
@[match_pattern] abbrev object : Ty := .atom .object
@[match_pattern] abbrev anyTuple : Ty := .atom .anyTuple
@[match_pattern] abbrev dbFunctions : Ty := .atom .dbFunctions
@[match_pattern] abbrev geometry : Ty := .atom .geometry
@[match_pattern] abbrev localDate : Ty := .atom .localDate
@[match_pattern] abbrev period : Ty := .atom .period
@[match_pattern] abbrev labelTree : Ty := .atom .labelTree
@[match_pattern] abbrev labelQuery : Ty := .atom .labelQuery
@[match_pattern] abbrev labelTextQuery : Ty := .atom .labelTextQuery
@[match_pattern] abbrev ipAddress : Ty := .atom .ipAddress
@[match_pattern] abbrev macAddress : Ty := .atom .macAddress

/-- The type of byte strings. -/
abbrev byteArray : Ty := .array .byte

/-! ## Equality -/

mutual
/-- Compares two types part by part. -/
def beq : Ty → Ty → Bool
  | atom a, atom b => decide (a = b)
  | nullable s, nullable t => beq s t
  | enum m s, enum n t => decide (m = n) && beq s t
  | array s, array t => beq s t
  | list s, list t => beq s t
  | hashSet s, hashSet t => beq s t
  | enumerable s, enumerable t => beq s t
  | tuple ss, tuple ts => beqAll ss ts
  | func ss, func ts => beqAll ss ts
  | document m, document n => decide (m = n)
  | parameter i, parameter j => decide (i = j)
  | _, _ => false

/-- Compares two lists of types, member by member. -/
def beqAll : List Ty → List Ty → Bool
  | [], [] => true
  | s :: ss, t :: ts => beq s t && beqAll ss ts
  | _, _ => false
end

mutual
/-- By induction on both types, with their lists of parts. -/
theorem beq_eq_true_iff : ∀ s t : Ty, beq s t = true ↔ s = t
  | atom a, t => by cases t <;> simp [beq]
  | nullable s, t => by cases t <;> simp [beq, beq_eq_true_iff s]
  | enum n s, t => by cases t <;> simp [beq, beq_eq_true_iff s]
  | array s, t => by cases t <;> simp [beq, beq_eq_true_iff s]
  | list s, t => by cases t <;> simp [beq, beq_eq_true_iff s]
  | hashSet s, t => by cases t <;> simp [beq, beq_eq_true_iff s]
  | enumerable s, t => by cases t <;> simp [beq, beq_eq_true_iff s]
  | tuple ss, t => by cases t <;> simp [beq, beqAll_eq_true_iff ss]
  | func ss, t => by cases t <;> simp [beq, beqAll_eq_true_iff ss]
  | document n, t => by cases t <;> simp [beq]
  | parameter i, t => by cases t <;> simp [beq]

theorem beqAll_eq_true_iff : ∀ ss ts : List Ty, beqAll ss ts = true ↔ ss = ts
  | [], ts => by cases ts <;> simp [beqAll]
  | s :: ss, ts => by
    cases ts <;> simp [beqAll, beq_eq_true_iff s, beqAll_eq_true_iff ss]
end

instance : DecidableEq Ty := fun s t => decidable_of_iff _ (beq_eq_true_iff s t)

/-! ## Views -/

/-- A nullable form of the type: the type itself if it is nullable already. -/
def asNullable : Ty → Ty
  | nullable t => nullable t
  | t => nullable t

/-- The type without its outermost layer of nullability. -/
def stripNullable : Ty → Ty
  | nullable t => t
  | t => t

/-- A byte string, whose elements are bytes and not nullable ones. -/
def isByteArray : Ty → Bool
  | array t => decide (t = byte)
  | _ => false

/-- The shapes that are stored as arrays. -/
def isArrayOrList : Ty → Bool
  | array _ | list _ => true
  | _ => false

/-- The shapes that a membership test may run over. -/
def isSequence : Ty → Bool
  | array _ | list _ | hashSet _ => true
  | _ => false

/-- The element type of a collection. -/
def element? : Ty → Option Ty
  | array t | list t | hashSet t | enumerable t => some t
  | _ => none

/-- A tuple, or the capability that all tuples have. -/
def isTuple : Ty → Bool
  | tuple _ | anyTuple => true
  | _ => false

/-- An integer type, nullable or not. -/
def isInteger (t : Ty) : Bool :=
  match t.stripNullable with
  | atom a => a.isInteger
  | _ => false

/-- A numeric type, nullable or not. -/
def isNumeric (t : Ty) : Bool :=
  match t.stripNullable with
  | atom a => a.isNumeric
  | _ => false

/-- The truth values, nullable or not. -/
def isBool (t : Ty) : Bool :=
  decide (t.stripNullable = bool)

/-- The type that represents the values: for an enumeration its integer type, for a nullable type
the type inside. -/
def underlying (t : Ty) : Ty :=
  match t.stripNullable with
  | enum _ u => u
  | u => u

/-- Whether a value of the type can be null. -/
def admitsNull : Ty → Bool
  | nullable _ => true
  | atom a => !a.isPlainValue
  | enum _ _ | tuple _ => false
  | _ => true

/-! ## Substitution -/

mutual
/-- Puts `args` in for the open parameters. A parameter beyond the list stays open. -/
def substitute (args : List Ty) : Ty → Ty
  | parameter i => args[i]?.getD (parameter i)
  | nullable t => nullable (substitute args t)
  | array t => array (substitute args t)
  | list t => list (substitute args t)
  | hashSet t => hashSet (substitute args t)
  | enumerable t => enumerable (substitute args t)
  | tuple ts => tuple (substituteAll args ts)
  | func ts => func (substituteAll args ts)
  | atom a => atom a
  | enum n t => enum n t
  | document n => document n

/-- Puts `args` in for the open parameters of each type. -/
def substituteAll (args : List Ty) : List Ty → List Ty
  | [] => []
  | t :: ts => substitute args t :: substituteAll args ts
end

end Ty

end QuerySql
