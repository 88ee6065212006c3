import QuerySql.Scalar

/-!
# Methods over byte strings

Membership and the first element, for byte strings that are stored as such. A byte string stored in
any other way is an array like any other.
-/

namespace QuerySql.Scalar.Bytes

/-- The byte string of the one byte, for a byte that is not constant: byte zero of a string of one
byte is set. -/
def singletonOf (b : Builder) (byte : Sql) (mapping : Mapping) : Attempt Sql :=
  b.call { name := "set_byte", nullable := true, propagates := [true, true, true] }
    [b.const (.bytes [0]) (some mapping), b.int 0, byte] .byteArray (some mapping)

/-- The byte string that is looked for. A constant byte is written out. -/
def needle (b : Builder) (byte : Sql) (mapping : Mapping) : Attempt Sql :=
  match byte.value? with
  | none => singletonOf b byte mapping
  | some v =>
    match v.toInt? with
    | none => .decline
    | some n =>
      if 0 ≤ n ∧ n < 256 then pure (b.const (.bytes [UInt8.ofNat n.toNat]) (some mapping))
      else .decline

/-- Whether the byte occurs: `position(needle IN bytes) > 0`. -/
def contains (b : Builder) (bytes byte : Sql) (mapping : Mapping) : Attempt Sql := do
  let needle ← needle b byte mapping
  let position ← b.call
    { name := "position", separators := some [some "IN"], nullable := true,
      propagates := [true, true] }
    [needle, bytes] .int none
  pure (b.greaterThan position (b.int 0))

/-- The first byte, as the type that the method returns. -/
def first (b : Builder) (bytes : Sql) (ty : Ty) : Attempt Sql := do
  let byte ← b.call { name := "get_byte", nullable := true, propagates := [true, true] }
    [bytes, b.int 0] .byte none
  pure (b.cast byte ty none)

/-- Methods over byte strings. -/
def translator (b : Builder) : ScalarTranslator where
  name := "ByteArrayMethodTranslator"
  translate c :=
    if !c.method.isGeneric then .decline
    else
      match c.args with
      | [] => .decline
      | bytes :: rest =>
        match bytes.mapping.filter Mapping.isBytes with
        | none => .decline
        | some mapping =>
          match Known.identify? c.method, rest with
          | some (.sequence .contains), [byte] => contains b bytes byte mapping
          | some (.sequence .first), [] => first b bytes c.method.returnTy
          | _, _ => .decline

end QuerySql.Scalar.Bytes
