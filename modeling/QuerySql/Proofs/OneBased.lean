import QuerySql.Proofs.Holes
import QuerySql.Proofs.Semantics.Building

/-!
# Indices that count from one

An index that counts from zero becomes one that counts from one when one is added to it. The sum is
formed beforehand where it can be: for a constant integer, unless it is the largest one of 64 bits,
so nothing ever wraps around. It is held by the narrowest constant then, whatever the width of the
index was. Everything else is left to the server.

* `Builder.oneBased_adds_one`: what is built, and that the index is one larger in any case.
-/

namespace QuerySql

/-- Integers are added as whole numbers, however large the sum gets. -/
def Server.AddsIntegers (S : Server) : Prop :=
  ∀ m n : Int, S.binary .add (.int m) (.int n) = .int (m + n)

theorem Server.addsIntegers_reference : reference.AddsIntegers := fun _ _ => rfl

namespace Builder

variable (b : Builder) {index : Sql} {n : Int}

/-- What has 32 bits is held by the narrower constant. -/
theorem oneBased_narrow (h : index.Folds n) {k : Int32} (hk : k.toInt = n + 1) :
    b.oneBased index = .const (.int k) .int (b.catalog.ofTy .int) := by
  rw [oneBased_of_folds b h, ← hk, Value.ofInt_toInt]
  rfl

/-- What has not has 64 bits, as there is a next integer. -/
theorem oneBased_wide (h : index.Folds n) (hwide : ∀ k : Int32, k.toInt ≠ n + 1) :
    ∃ k : Int64, k.toInt = n + 1 ∧
      b.oneBased index = .const (.long k) .long (b.catalog.ofTy .long) := by
  have ⟨hmax, v, _, _, _, hv⟩ := h
  have ⟨hl, hu⟩ := Value.bounds_of_toInt? hv
  obtain ⟨k, hk⟩ : ∃ k : Int64, k.toInt = n + 1 := Value.exists_toInt_eq (by omega) (by omega)
  refine ⟨k, hk, ?_⟩
  rw [← hk] at hwide
  rw [oneBased_of_folds b h, ← hk, Value.ofInt_toInt_of_wide hwide]
  rfl

/-- The constant of an integer `n` becomes the constant of `n + 1`, of 32 bits if it has no more and
of 64 bits otherwise, unless `n` is the largest integer of 64 bits. To any other index one is added;
nothing but missing mappings is filled in, and what is mapped stays. So on a server that adds
integers as whole numbers the index is the sum of what it was and one, and an integer one larger if
it was an integer. -/
theorem oneBased_adds_one (b : Builder) (index : Sql) :
    (∀ n, index.Folds n →
      (∀ k : Int32, k.toInt = n + 1 →
        b.oneBased index = .const (.int k) .int (b.catalog.ofTy .int)) ∧
      ((∀ k : Int32, k.toInt ≠ n + 1) → ∃ k : Int64, k.toInt = n + 1 ∧
        b.oneBased index = .const (.long k) .long (b.catalog.ofTy .long))) ∧
    ((∀ n, ¬ index.Folds n) →
      ∃ filled, b.oneBased index =
          .binary .add filled (.const (.int 1) b.intMapping.ty (some b.intMapping)) index.ty
            (some b.intMapping) ∧
        filled.eraseMappings = index.eraseMappings ∧
        ∀ address x, index.at? address = some x → x.mapping.isSome = true →
          filled.at? address = some x) ∧
    ∀ (S : Server) (env : Env), S.AddsIntegers →
      (b.oneBased index).eval S env = S.binary .add (index.eval S env) (.int 1) ∧
      ∀ n, index.eval S env = .int n → (b.oneBased index).eval S env = .int (n + 1) := by
  refine ⟨fun n h => ⟨fun k => oneBased_narrow b h, oneBased_wide b h⟩, fun h => ?_,
    fun S env hS => ?_⟩
  · refine ⟨index.fill (some b.intMapping), oneBased_of_not_folds b h,
      Sql.eraseMappings_fill _ index, fun address x hx hmapped => ?_⟩
    exact Sql.at?_fill hmapped hx _
  · have hsum : (b.oneBased index).eval S env = S.binary .add (index.eval S env) (.int 1) :=
      eval_oneBased_eq b (fun n => hS n 1) index
    refine ⟨hsum, fun n hn => ?_⟩
    rw [hsum, hn, hS]

/-- The largest integers of 8, 32 and 64 bits, of which only the last one is not folded. -/
theorem oneBased_at_limits :
    let b : Builder := ⟨Catalog.standard, .scalar "boolean" .bool, .scalar "integer" .int⟩
    let byte : Sql := .const (.byte 255) .byte none
    let int : Sql := .const (.int Int32.maxValue) .int none
    let long : Sql := .const (.long Int64.maxValue) .long none
    let row : Env := ⟨fun _ => .null, fun _ => .null, fun _ _ _ _ => .null⟩
    (byte.Folds 255 ∧ b.oneBased byte = .const (.int 256) .int (some (.scalar "integer" .int))) ∧
      (int.Folds 2147483647 ∧
        b.oneBased int = .const (.long 2147483648) .long (some (.scalar "bigint" .long))) ∧
      ((∀ n, ¬ long.Folds n) ∧ ∃ filled, b.oneBased long =
        .binary .add filled (.const (.int 1) .int (some (.scalar "integer" .int))) .long
          (some (.scalar "integer" .int)) ∧ filled.eraseMappings = long) ∧
      Server.reference.AddsIntegers ∧
      (b.oneBased long).eval Server.reference row = .int 9223372036854775808 := by
  intro b byte int long row
  have hbyte : byte.Folds 255 := ⟨by decide, _, _, _, rfl, rfl⟩
  have hint : int.Folds 2147483647 := ⟨by decide, _, _, _, rfl, rfl⟩
  -- The largest index cannot be folded, as there is no number above it.
  have hlong : ∀ n, ¬ Sql.Folds (.const (.long Int64.maxValue) .long none) n := by
    rintro n ⟨hmax, v, ty, m, ⟨⟩, ⟨⟩⟩
    exact hmax rfl
  have hwide : ∀ k : Int32, k.toInt ≠ 2147483647 + 1 := by
    intro k
    have := k.toInt_lt
    omega
  obtain ⟨k, hk, hfolded⟩ := ((oneBased_adds_one b int).1 _ hint).2 hwide
  have hvalue : k = 2147483648 := Int64.toInt_inj.mp hk
  obtain ⟨filled, hsum, herased, -⟩ := (oneBased_adds_one b long).2.1 hlong
  have hadds := Server.addsIntegers_reference
  refine ⟨⟨hbyte, ((oneBased_adds_one b byte).1 _ hbyte).1 256 rfl⟩, ⟨hint, hvalue ▸ hfolded⟩,
    ⟨hlong, filled, hsum, herased⟩, hadds, ?_⟩
  exact ((oneBased_adds_one b long).2.2 Server.reference row hadds).2 _ rfl

end Builder

end QuerySql
