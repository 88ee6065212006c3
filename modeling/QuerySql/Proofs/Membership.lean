import QuerySql.Proofs.Families
import QuerySql.Proofs.Semantics.Arrays
import QuerySql.Proofs.Semantics.Building

/-!
# Membership tests

A test whether a sequence contains an item is taken by the translator for arrays or by the one for
byte strings, and by no other. What they make of it is true exactly if the item is an element.

* `Scalar.outcome_contains`: for a byte string it is a search, for any other array a comparison with
  some element.
* `Scalar.Bytes.eval_contains`: the search, with the byte written out or set in a string of one
  byte.
-/

namespace QuerySql

namespace Scalar

variable {b : Builder} {options : Options}

/-! ## Who takes the test -/

section

variable {c : ScalarCall} (hm : Known.identify? c.method = some (.sequence .contains))
  (hreceiver : c.receiver = none)

include hm hreceiver

omit hreceiver in
/-- The translators behind the first two know other families of methods. -/
theorem fails_contains {t : ScalarTranslator} (ht : t ∈ (builtIn b options).drop 2) :
    (t.translate c).Fails := by
  intro s hs
  have hfamily : c.family? = some .bytes ∨ c.family? = some .arrays := by
    rw [ScalarCall.family?_of_known hm]
    cases c.onBytes with
    | true => exact .inl rfl
    | false => exact .inr rfl
  have hmem : t ∈ (Family.all.drop 2).map (Family.translator b options) := ht
  obtain ⟨f, hf, rfl⟩ := List.mem_map.mp hmem
  rw [f.keepsTo options c s hs] at hfamily
  rcases hfamily with h | h
  · cases h
    exact absurd hf (by decide)
  · cases h
    exact absurd hf (by decide)

variable {array item s : Sql} (hargs : c.args = [array, item])

include hargs

/-- The translator for arrays leaves byte strings and documents alone. -/
theorem Arrays.eq_of_contains {useRedshift : Bool}
    (h : ((translator b useRedshift).translate c).outcome = .ok s) :
    array.mappedBy Mapping.isBytes = false ∧ s = b.quantified .any .equal item array := by
  have hjoin : Known.identify? c.method ≠ some (.text .join) := by
    rw [hm]
    exact nofun
  have howner : c.method.owner ≠ .list := by
    rw [Method.owner, (Known.signature_of_identify? hm).1]
    decide
  simp only [translator, hjoin, if_false, onOperand, operand?, hreceiver, hargs, howner] at h
  split at h
  · cases h
  · split at h
    · cases h
    next hbytes =>
      simp only [onSequence, hm] at h
      split at h
      · cases h
      · cases h
        exact ⟨Bool.eq_false_iff.mpr hbytes, rfl⟩

omit hreceiver in
/-- A membership test that the translator for byte strings takes is one on a byte string. -/
theorem Bytes.outcome_of_contains (h : ((translator b).translate c).outcome = .ok s) :
    ∃ m, array.mapping = some m ∧ m.isBytes = true ∧
      (contains b array item m).outcome = .ok s := by
  simp only [translator, hargs, hm] at h
  split at h
  · cases h
  · split at h
    · cases h
    next m hfilter =>
      obtain ⟨hmapping, hbytes⟩ := Option.filter_eq_some_iff.mp hfilter
      exact ⟨m, hmapping, hbytes, h⟩

/-- A membership test is a search in a byte string or a comparison with some element. -/
theorem outcome_contains {added : List ScalarTranslator}
    (hadded : ∀ t ∈ added, (t.translate c).Fails)
    (h : (ScalarTranslator.firstOf (builtIn b options ++ added) c).outcome = .ok s) :
    (array.mappedBy Mapping.isBytes = false ∧ s = b.quantified .any .equal item array) ∨
      ∃ m, array.mapping = some m ∧ m.isBytes = true ∧
        (Bytes.contains b array item m).outcome = .ok s := by
  have hrest : (ScalarTranslator.firstOf ((builtIn b options).drop 2 ++ added) c).Fails := by
    refine ScalarTranslator.fails_firstOf fun t ht => ?_
    rcases List.mem_append.mp ht with ht | ht
    · exact fails_contains hm ht
    · exact hadded t ht
  rcases Attempt.outcome_orElse_eq_ok h with h | h
  · rw [Attempt.outcome_reportFound] at h
    exact .inl (Arrays.eq_of_contains hm hreceiver hargs h)
  · rcases Attempt.outcome_orElse_eq_ok h with h | h
    · rw [Attempt.outcome_reportFound] at h
      exact .inr (Bytes.outcome_of_contains hm hargs h)
    · exact absurd h (hrest s)

end

/-! ## What the test says -/

namespace Bytes

variable {S : Server} {env : Env} (hS : S.ArrayRules) {byte : Sql} {n : UInt8}
  (hbyte : byte.eval S env = .ofValue (.byte n))

include hS hbyte

/-- What is looked for is the one byte, in both forms. -/
theorem eval_needle {mapping : Mapping} {x : Sql} (h : (needle b byte mapping).outcome = .ok x) :
    x.eval S env = .ofValue (.bytes [n]) := by
  unfold needle at h
  split at h
  next =>
    -- No constant: the string of one zero byte, with the byte put in its place.
    have hset := hS.setByte [0] 0 n (by decide)
    unfold singletonOf at h
    cases h
    simp only [Sql.eval, Sql.evalAll_eq_map, List.map_cons, List.map_nil,
      Builder.eval_fillDefault, hbyte]
    exact hset
  next v hv =>
    have heval : byte.eval S env = .ofValue v := by
      cases byte with
      | const w ty m =>
        cases hv
        rw [Sql.eval]
      | _ => cases hv
    split at h
    next => cases h
    next k hk =>
      -- A constant: the byte is its number.
      have hnk : k = n.toNat := by
        rw [hbyte, Datum.ofValue_int hk] at heval
        injection heval with heval
        exact heval.symm
      split at h
      next =>
        cases h
        rw [hnk, Int.toNat_natCast, UInt8.ofNat_toNat]
        rfl
      next => cases h

/-- The search finds the byte exactly if the byte string has it. -/
theorem eval_contains {array s : Sql} {mapping : Mapping} {bytes : List UInt8}
    (harray : array.eval S env = .ofValue (.bytes bytes))
    (h : (contains b array byte mapping).outcome = .ok s) :
    s.eval S env = .truth true ↔ n ∈ bytes := by
  obtain ⟨x, hx, h⟩ := Run.outcome_bind_eq_ok.mp h
  obtain ⟨c, hc, -, -, heval⟩ := b.exists_call
    { name := "position", separators := some [some "IN"], nullable := true,
      propagates := [true, true] }
    [x, array] nofun (fun seps hseps => by cases hseps; rfl) rfl .int none
  rw [Attempt.outcome_bind_ok hc] at h
  cases h
  have hposition : c.eval S env = .int (if n ∈ bytes then bytes.idxOf n + 1 else 0) := by
    rw [heval]
    simp only [List.map_cons, List.map_nil, eval_needle hS hbyte hx, harray]
    exact hS.position n bytes
  have hzero : (b.int 0).eval S env = .int 0 := rfl
  rw [Builder.greaterThan, Builder.eval_binary, hposition, hzero, hS.greaterThan,
    Datum.truth.injEq, decide_eq_true_eq]
  split
  next h => exact ⟨fun _ => h, fun _ => by omega⟩
  next h => exact ⟨fun hpos => absurd hpos (by decide), fun hmem => absurd hmem h⟩

end Bytes

end Scalar

end QuerySql
