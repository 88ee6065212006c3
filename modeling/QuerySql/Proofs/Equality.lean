import QuerySql.Proofs.Steps

/-!
# The spellings of an equation

An equation can be written with an operator, by the static method for it or by an instance method.
The methods always mean the same (`Postgres.run_equals`). The operator means the same as well, apart
from one case: where exactly one side is the constant null, it is a null check, and the methods
compare with the constant.

* `Relational.equation` is what all spellings come to otherwise.
-/

namespace QuerySql

namespace Relational

/-- Both operands, and the equation between them. -/
def equation (r : Relational) (recur : Expr → Attempt Sql) (left right : Expr) : Attempt Sql := do
  let x ← recur left
  let y ← recur right
  pure (r.builder.equal x y)

variable {r : Relational} {recur : Expr → Attempt Sql} {left right : Expr}

/-- The static test for equality is an equation. -/
theorem call_objectEquals {m : Method} (hm : Known.identify? m = some .objectEquals) :
    r.call recur m none [left, right] = r.equation recur left right := by
  simp only [call, receiverOf, Attempt.all, callOn, hm, if_true, equation, bind_assoc, pure_bind]

theorem call_equals {m : Method} (hname : m.name = "Equals")
    (hm : Known.identify? m ≠ some .objectEquals) :
    r.call recur m (some left) [right] = r.equation recur left right := by
  simp only [call, receiverOf, Attempt.all, callOn, hm, hname, if_false, decide_true, equation,
    bind_assoc, pure_bind]

/-- The operator is an equation unless exactly one side is the literal null. -/
theorem binary_equal (h : left.isNullConst = right.isNullConst) :
    r.binary recur (.plain .equal) left right = r.equation recur left right := by
  have hnone : nullCheck? (.plain .equal) left right = none := by
    unfold nullCheck?
    rw [h]
    cases right.isNullConst <;> rfl
  unfold binary
  rw [hnone]
  rfl

/-- Where a comparison is with the constant null, the other operand is checked. -/
theorem binary_of_nullCheck? {op : ExprOp} {check : SqlUnaryOp} {operand : Expr}
    (h : nullCheck? op left right = some (check, operand)) :
    r.binary recur op left right = recur operand >>= fun x => pure (r.builder.unary check x) := by
  unfold binary
  rw [h]

end Relational

/-- A null check is no equation. -/
theorem Builder.isNull_ne_equal (b : Builder) (x y z : Sql) : b.isNull x ≠ b.equal y z := by
  show Sql.unary _ _ _ _ ≠ Sql.binary _ _ _ _ _
  exact nofun

namespace Postgres

variable {p : Postgres} {r : Relational} {left right : Expr} {m : Method}

theorem run_objectEquals (hm : Known.identify? m = some .objectEquals) :
    p.run r (.call m none [left, right]) = r.equation (p.run r) left right := by
  rw [run_call (lambdaCall?_eq_none (fun k hk => ?_) _ _), Relational.call_objectEquals hm]
  rw [hm] at hk
  cases hk

theorem run_equals (hname : m.name = "Equals") (hother : Known.identify? m ≠ some .objectEquals) :
    p.run r (.call m (some left) [right]) = r.equation (p.run r) left right := by
  have hsequence (k : SequenceMethod) : Known.identify? m ≠ some (.sequence k) := by
    intro hk
    have hk := Known.name_of_identify? hk
    rw [hname] at hk
    cases k <;> exact absurd hk (by decide)
  rw [run_call (lambdaCall?_eq_none hsequence _ _), Relational.call_equals hname hother]

theorem exists_run_of_isNullConst (h : left.isNullConst = true) :
    ∃ s, p.run r left = pure s := by
  cases left with
  | const v ty => exact ⟨_, run_const v ty⟩
  | _ => cases h

/-- The operator comes to the same as the methods, unless just one side is the constant null and the
other one can be translated. -/
theorem outcome_equal_iff (ty : Ty) :
    (p.run r (.binary (.plain .equal) left right ty)).outcome =
        (r.equation (p.run r) left right).outcome ↔
      left.isNullConst = right.isNullConst ∨ (p.run r left).Fails ∨ (p.run r right).Fails := by
  rw [run_binary rfl]
  by_cases h : left.isNullConst = right.isNullConst
  · rw [Relational.binary_equal h]
    exact ⟨fun _ => .inl h, fun _ => rfl⟩
  · rw [or_iff_right h]
    cases hr : right.isNullConst with
    | true =>
      have hl : left.isNullConst = false := by rwa [hr, Bool.not_eq_true] at h
      obtain ⟨s, hs⟩ := exists_run_of_isNullConst (p := p) (r := r) hr
      have hcheck : Relational.nullCheck? (.plain .equal) left right = some (.isNull, left) := by
        unfold Relational.nullCheck?
        rw [hl, hr]
        rfl
      rw [Relational.binary_of_nullCheck? hcheck]
      -- One side is tested for null, which is no equation, so they agree only where that side
      -- fails.
      simp only [Relational.equation, hs, pure_bind, Attempt.not_fails_pure, or_false]
      exact Attempt.outcome_map_eq_iff fun x => r.builder.isNull_ne_equal x x s
    | false =>
      have hl : left.isNullConst = true := by rwa [hr, Bool.not_eq_false] at h
      obtain ⟨s, hs⟩ := exists_run_of_isNullConst (p := p) (r := r) hl
      have hcheck : Relational.nullCheck? (.plain .equal) left right = some (.isNull, right) := by
        unfold Relational.nullCheck?
        rw [hl, hr]
        rfl
      rw [Relational.binary_of_nullCheck? hcheck]
      simp only [Relational.equation, hs, pure_bind, Attempt.not_fails_pure, false_or]
      exact Attempt.outcome_map_eq_iff fun y => r.builder.isNull_ne_equal y s y

end Postgres

namespace Translator

/-- The static method for equality and any instance method named like it translate alike, whatever
they are applied to. The operator translates like them exactly if both sides are the constant null
or neither is, or a side cannot be translated. -/
theorem spellings_agree_iff {columns : ColumnLookup} {options : Options} {catalog : Catalog}
    {added : List ScalarTranslator} {t : Translator} {onObjects onReceiver : Method}
    (ht : (postgres columns options catalog added).outcome = .ok t)
    (hobjects : Known.identify? onObjects = some .objectEquals)
    (hname : onReceiver.name = "Equals")
    (hother : Known.identify? onReceiver ≠ some .objectEquals)
    (left right : Expr) (ty : Ty) :
    t.translate (.call onObjects none [left, right]) =
        t.translate (.call onReceiver (some left) [right]) ∧
      ((t.translate (.binary (.plain .equal) left right ty)).outcome =
          (t.translate (.call onObjects none [left, right])).outcome ↔
        left.isNullConst = right.isNullConst ∨ (t.translate left).Fails ∨
          (t.translate right).Fails) := by
  obtain ⟨b, p, -, -, htranslate⟩ := postgres_eq_ok ht
  simp only [htranslate, Postgres.run_objectEquals hobjects, Postgres.run_equals hname hother,
    true_and]
  exact Postgres.outcome_equal_iff ty

/-- An instance method that compares a text with another one. -/
def equalsText : Method := ⟨⟨.string, "Equals", [.string], 0⟩, [], .bool, false⟩

/-- A comparison of a column with a text, in all three spellings. -/
theorem spellings_of_name_equation :
    let columns : ColumnLookup := fun _ name => some { name := name, ty := .string }
    let name : Expr := .property none "name" .string
    let gray : Expr := .ofValue (.string "Gray")
    ∃ t s, (postgres columns {} Catalog.standard []).outcome = .ok t ∧
      (t.translate (.call (Known.close .objectEquals []) none [name, gray])).outcome = .ok s ∧
      (t.translate (.call equalsText (some name) [gray])).outcome = .ok s ∧
      (t.translate (.binary (.plain .equal) name gray .bool)).outcome = .ok s := by
  intro columns name gray
  obtain ⟨t, s, ht, hs, -⟩ := exists_translation (postgres columns {} Catalog.standard [])
    (.call (Known.close .objectEquals []) none [name, gray]) (fun _ => true) (by decide +kernel)
  have hobjects : Known.identify? (Known.close .objectEquals []) = some .objectEquals := by
    decide +kernel
  have hother : Known.identify? equalsText ≠ some .objectEquals := by decide +kernel
  obtain ⟨hmethods, hoperator⟩ := spellings_agree_iff ht hobjects rfl hother name gray .bool
  exact ⟨t, s, ht, hs, hmethods ▸ hs, (hoperator.mpr (.inl rfl)).trans hs⟩

/-- Whether the tree is a null check. -/
def isNullCheck : Sql → Bool
  | .unary .isNull _ _ _ => true
  | _ => false

/-- A comparison of a column with the constant null: the operator is a null check, and the methods
are not. -/
theorem equals_null_is_no_null_check :
    let columns : ColumnLookup := fun _ name => some { name := name, ty := .string }
    let name : Expr := .property none "name" .string
    let null : Expr := .ofValue .null
    ∃ t s s', (postgres columns {} Catalog.standard []).outcome = .ok t ∧
      (t.translate (.binary (.plain .equal) name null .bool)).outcome = .ok s ∧
      isNullCheck s = true ∧
      (t.translate (.call (Known.close .objectEquals []) none [name, null])).outcome = .ok s' ∧
      isNullCheck s' = false := by
  intro columns name null
  obtain ⟨t, s, ht, hs, hcheck⟩ := exists_translation (postgres columns {} Catalog.standard [])
    (.binary (.plain .equal) name null .bool) isNullCheck (by decide +kernel)
  obtain ⟨t', s', ht', hs', hcheck'⟩ := exists_translation
    (postgres columns {} Catalog.standard [])
    (.call (Known.close .objectEquals []) none [name, null]) (fun s => !isNullCheck s)
    (by decide +kernel)
  cases ht.symm.trans ht'
  exact ⟨t, s, s', ht, hs, hcheck, hs', (Bool.not_eq_true' _).mp hcheck'⟩

end Translator

end QuerySql
