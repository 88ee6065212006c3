import QuerySql.Proofs.Semantics.Reference

/-!
# Arrays and byte strings on a server

What is asked of a server for conditions on the elements of an array, as its manual has it: how the
array operators compare elements, and how a byte is looked for in a byte string. All of it is about
data without nulls.

* `Server.Same`: two data are equal, as the server compares them.
* `Server.arrays` is a server that does what is asked.
-/

namespace QuerySql

/-- The two data are equal, as the server compares them. -/
def Server.Same (S : Server) (x y : Datum) : Prop := S.binary .equal x y = .truth true

/-- An array of these items, none of which is null. -/
structure Datum.IsArrayOf (x : Datum) (items : List Datum) : Prop where
  eq : x = array items
  present : ∀ y ∈ items, y ≠ null

/-- What is asked of a server for arrays and byte strings. -/
structure Server.ArrayRules (S : Server) : Prop where
  same_symm : ∀ x y, x ≠ .null → y ≠ .null → S.Same x y → S.Same y x
  /-- `x = ANY(items)`: some element equals `x`. -/
  any_equal : ∀ x a items, x ≠ .null → a.IsArrayOf items →
    (S.quantified .any .equal x a = .truth true ↔ ∃ y ∈ items, S.Same x y)
  /-- `a && b`: some element is in both arrays. -/
  overlaps : ∀ a b xs ys, a.IsArrayOf xs → b.IsArrayOf ys →
    (S.postgres .overlaps a b = .truth true ↔ ∃ x ∈ xs, ∃ y ∈ ys, S.Same x y)
  /-- `a <@ b`: each element of the first array is in the second. -/
  containedBy : ∀ a b xs ys, a.IsArrayOf xs → b.IsArrayOf ys →
    (S.postgres .containedBy a b = .truth true ↔ ∀ x ∈ xs, ∃ y ∈ ys, S.Same x y)
  /-- `position(byte IN bytes)`: where the byte is first found, counted from one, and zero if it is
  not found. -/
  position : ∀ (byte : UInt8) (bytes : List UInt8),
    S.call { name := "position", separators := some [some "IN"] }
        [.ofValue (.bytes [byte]), .ofValue (.bytes bytes)] =
      .int (if byte ∈ bytes then bytes.idxOf byte + 1 else 0)
  /-- `set_byte(bytes, i, byte)`: the bytes with another one at a place counted from zero. -/
  setByte : ∀ (bytes : List UInt8) (i : Nat) (byte : UInt8), i < bytes.length →
    S.call { name := "set_byte" }
        [.ofValue (.bytes bytes), .int i, .ofValue (.byte byte)] =
      .ofValue (.bytes (bytes.set i byte))
  greaterThan : ∀ m n, S.binary .greaterThan (.int m) (.int n) = .truth (decide (m > n))

/-! ## A server -/

namespace Server.Reference

/-- Whether the reference server takes the two data for equal. -/
def isSame (x y : Datum) : Bool :=
  match binary .equal x y with
  | .truth b => b
  | _ => false

theorem isSame_eq_true {x y : Datum} :
    isSame x y = true ↔ binary .equal x y = .truth true := by
  unfold isSame
  split
  next b hb => rw [hb, Datum.truth.injEq]
  next hne =>
    refine ⟨nofun, fun h => absurd h (hne true)⟩

/-- The reference server takes equal data for equal and no others. -/
theorem eq_of_isSame {x y : Datum} (h : isSame x y = true) : x = y := by
  rw [isSame_eq_true] at h
  simp only [binary] at h
  split at h
  · cases h
  · split at h
    · cases h
    · unfold onPresent at h
      split at h
      case h_1 m n =>
        simp only [onInts, Datum.truth.injEq, beq_iff_eq] at h
        rw [h]
      case h_7 m n _ _ _ =>
        simp only [onInts, Datum.truth.injEq, beq_iff_eq] at h
        rw [h]
      all_goals cases h

/-- Where an item is first found, counted from one, and zero if it is not found. -/
def position (x : Datum) (items : List Datum) : Nat :=
  if items.any (isSame x) then items.findIdx (isSame x) + 1 else 0

/-- A call of a function, of those on byte strings as well. -/
def arrayCall (form : Function.Form) (args : List Datum) : Datum :=
  match form.name, args with
  | "position", [.array [x], .array items] => .int (position x items)
  | "set_byte", [.array items, .int (.ofNat i), x] => .array (items.set i x)
  | _, _ => call form args

/-- A comparison with some or all elements. -/
def quantified : Quantifier → Datum → Datum → Datum
  | .any, x, .array items => .truth (items.any (isSame x))
  | .all, x, .array items => .truth (items.all (isSame x))
  | _, _, _ => .null

/-- An operator of PostgreSQL, those on arrays by their elements. -/
def arrayOperator : PostgresOp → Datum → Datum → Datum
  | .overlaps, .array xs, .array ys => .truth (xs.any fun x => ys.any (isSame x))
  | .containedBy, .array xs, .array ys => .truth (xs.all fun x => ys.any (isSame x))
  | _, x, y => match? x y none

end Server.Reference

/-- The reference server, with arrays and byte strings. -/
def Server.arrays : Server :=
  { reference with
    call := Reference.arrayCall
    quantified := fun q _ => Reference.quantified q
    postgres := Reference.arrayOperator }

namespace Server.Reference

theorem isSame_bytes (m n : UInt8) :
    isSame (.int m.toNat) (.int n.toNat) = (n == m) := by
  show ((m.toNat : Int) == n.toNat) = _
  rw [Bool.eq_iff_iff, beq_iff_eq, beq_iff_eq, Int.natCast_inj, UInt8.toNat_inj]
  exact eq_comm

theorem position_bytes (byte : UInt8) (bytes : List UInt8) :
    position (.int byte.toNat) (bytes.map fun n => .int n.toNat) =
      if byte ∈ bytes then bytes.idxOf byte + 1 else 0 := by
  have hsame : isSame (.int byte.toNat) ∘ (fun n : UInt8 => .int n.toNat) = (· == byte) :=
    funext fun n => isSame_bytes byte n
  have hany : (bytes.any fun n => n == byte) = true ↔ byte ∈ bytes := by
    simp only [List.any_eq_true, beq_iff_eq, exists_eq_right]
  unfold position
  rw [List.any_map, List.findIdx_map, hsame]
  simp only [hany]
  rfl

end Server.Reference

/-- The server does what is asked for arrays. -/
theorem Server.arrayRules_arrays : arrays.ArrayRules where
  same_symm x y _ _ h := by
    -- Data that are the same to the reference server are equal.
    have hxy : x = y := Reference.eq_of_isSame (Reference.isSame_eq_true.mpr h)
    subst hxy
    exact h
  any_equal x a items _ ha := by
    rw [ha.eq]
    show Datum.truth _ = _ ↔ _
    rw [Datum.truth.injEq, List.any_eq_true]
    simp only [Reference.isSame_eq_true]
    rfl
  overlaps a b xs ys ha hb := by
    rw [ha.eq, hb.eq]
    show Datum.truth _ = _ ↔ _
    rw [Datum.truth.injEq, List.any_eq_true]
    simp only [List.any_eq_true, Reference.isSame_eq_true]
    rfl
  containedBy a b xs ys ha hb := by
    rw [ha.eq, hb.eq]
    show Datum.truth _ = _ ↔ _
    rw [Datum.truth.injEq, List.all_eq_true]
    simp only [List.any_eq_true, Reference.isSame_eq_true]
    rfl
  position byte bytes := by
    show Datum.int (Reference.position (.int byte.toNat) (bytes.map fun n => .int n.toNat)) = _
    rw [Reference.position_bytes]
    split
    · rfl
    · rfl
  setByte bytes i byte _ := by
    show Datum.array ((bytes.map fun n => .int n.toNat).set i (.int byte.toNat)) = _
    rw [← List.map_set]
    rfl
  greaterThan _ _ := rfl

end QuerySql
