import QuerySql.Ty

/-!
# Type mappings

How a type is stored: the name of the store type, as it was configured, and which of the four ways
of storing applies. Arrays carry the mapping of their elements.
-/

namespace QuerySql

/-- How values of a type are stored. -/
inductive Mapping where
  /-- One value in a column of the store type. -/
  | scalar (store : String) (ty : Ty)
  /-- A byte string. -/
  | bytes (store : String) (ty : Ty)
  /-- A native array of elements that are stored in their own way. -/
  | array (store : String) (ty : Ty) (element : Mapping)
  /-- A JSON document, in its binary form or as text. -/
  | json (store : String) (ty : Ty) (binary : Bool)
  deriving DecidableEq

namespace Mapping

/-- The name of the store type, as it was written. -/
def store : Mapping → String
  | scalar s _ | bytes s _ | array s _ _ | json s _ _ => s

/-- The type of the values. -/
def ty : Mapping → Ty
  | scalar _ t | bytes _ t | array _ t _ | json _ t _ => t

/-- The same way of storing for values of another type. -/
def withTy (t : Ty) : Mapping → Mapping
  | scalar s _ => scalar s t
  | bytes s _ => bytes s t
  | array s _ e => array s t e
  | json s _ b => json s t b

/-- The mapping of the elements of a native array. -/
def element? : Mapping → Option Mapping
  | array _ _ e => some e
  | _ => none

/-- Whether values are stored as byte strings. -/
def isBytes : Mapping → Bool
  | bytes _ _ => true
  | _ => false

/-- Whether values are stored as JSON documents. -/
def isJson : Mapping → Bool
  | json _ _ _ => true
  | _ => false

/-- Whether values are stored as JSON documents in binary form. -/
def isBinaryJson : Mapping → Bool
  | json _ _ b => b
  | _ => false

@[simp] theorem store_withTy (t : Ty) (m : Mapping) : (m.withTy t).store = m.store := by
  cases m <;> rfl

@[simp] theorem ty_withTy (t : Ty) (m : Mapping) : (m.withTy t).ty = t := by
  cases m <;> rfl

@[simp] theorem element?_withTy (t : Ty) (m : Mapping) : (m.withTy t).element? = m.element? := by
  cases m <;> rfl

end Mapping

end QuerySql
