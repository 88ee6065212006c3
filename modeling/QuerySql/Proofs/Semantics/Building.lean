import QuerySql.Json.Access
import QuerySql.Proofs.Attempt
import QuerySql.Proofs.Semantics.Source

/-!
# Building within the fragment

What the builder makes of operands of simple types: whether an operator means something for them,
the calls it makes and what these evaluate to, and subscripts.

* `Builder.isMeaningful_eq`: kinds are all that an operator asks of its operands.
* `Builder.exists_call`: a call that is made as it should be is the server's.
* `Builder.oneBased_of_folds`, `Builder.oneBased_of_not_folds`: an index that counts from one.
* `Builder.eval_oneBased`: it is one larger, folded or not.
-/

namespace QuerySql

namespace BinaryOp

/-- The kinds of operands that an operator means something for. -/
def takes (op : BinaryOp) (k l : Kind) : Bool :=
  match op with
  | .andAlso | .orElse => decide (k = .truth) && decide (l = .truth)
  | .and | .or | .exclusiveOr =>
    decide (k = .truth) && decide (l = .truth) || decide (k = .integer) && decide (l = .integer)
  | .add | .subtract | .multiply | .divide | .modulo =>
    !decide (k = .truth) && !decide (l = .truth)
  | _ => true

theorem takes_of_computes {op : BinaryOp} {k l : Kind} (h : op.computes k l = true) :
    op.takes k l = true := by
  cases op <;> cases k <;> cases l <;> first | rfl | cases h

theorem isPredicate_of_computes {op : BinaryOp} {k l : Kind} (h : op.computes k l = true) :
    op.isPredicate = false := by
  cases op <;> cases k <;> cases l <;> first | rfl | cases h

theorem isPredicate_of_isBitwise {op : BinaryOp} (h : op.isBitwise = true) :
    op.isPredicate = false := by
  cases op <;> first | rfl | cases h

theorem isPredicate_of_isComparison {op : BinaryOp} (h : op.isComparison = true) :
    op.isPredicate = true := by
  cases op <;> first | rfl | cases h

theorem takes_of_isBitwise {op : BinaryOp} {k : Kind} (h : op.isBitwise = true)
    (hk : k = .truth ∨ k = .integer) : op.takes k k = true := by
  rcases hk with rfl | rfl <;> cases op <;> first | rfl | cases h

theorem takes_of_isComparison {op : BinaryOp} (h : op.isComparison = true) (k l : Kind) :
    op.takes k l = true := by
  cases op <;> first | rfl | cases h

end BinaryOp

/-- One can be added to the tree beforehand: it is the constant of an integer, and not of the
largest one of 64 bits. -/
def Sql.Folds (s : Sql) (n : Int) : Prop :=
  n ≠ Int64.maxValue.toInt ∧ ∃ v ty m, s = .const v ty m ∧ v.toInt? = some n

namespace Builder

variable (b : Builder) {S : Server} {env : Env}

/-- For simple types it is the kinds that decide whether an operator means something. -/
theorem isMeaningful_eq {op : BinaryOp} {t u : Ty} (ht : t.isSimple = true)
    (hu : u.isSimple = true) : isMeaningful op t u = op.takes t.kind u.kind := by
  unfold isMeaningful BinaryOp.takes
  rw [Ty.isBool_eq ht, Ty.isBool_eq hu, Ty.isInteger_underlying_eq ht,
    Ty.isInteger_underlying_eq hu, Ty.isTuple_eq_false ht, Ty.isTuple_eq_false hu]
  cases op <;> simp only [Bool.not_false, Bool.and_true]

/-- A predicate is a truth value; other operators keep the type of the left operand. -/
theorem ty_binary (op : BinaryOp) (left right : Sql) (m : Option Mapping) :
    (b.binary op left right m).ty = if op.isPredicate then .bool else left.ty := by
  unfold binary
  simp only
  split
  · rfl
  · rfl

/-- A call whose flags, names and separators fit its arguments is made, and is the server's. -/
theorem exists_call (fn : Function) (args : List Sql)
    (hn : ∀ names ∈ fn.argumentNames, names.length = args.length)
    (hs : ∀ seps ∈ fn.separators, seps.length = args.length - 1)
    (hp : fn.propagates.length = args.length) (ty : Ty) (m : Option Mapping) :
    ∃ c, (b.call fn args ty m).outcome = .ok c ∧ c.ty = ty ∧ Json.base? c = none ∧
      ∀ S env, c.eval S env = S.call fn.form (args.map (Sql.eval S env)) := by
  rw [call_eq_pure hn hs hp]
  refine ⟨_, rfl, rfl, rfl, fun S env => ?_⟩
  simp only [Sql.eval, Sql.evalAll_eq_map, List.map_map]
  refine congrArg (S.call fn.form) (List.map_congr_left fun x _ => ?_)
  exact b.eval_fillDefault S env x

theorem exists_strictCall (name : String) (args : List Sql) (ty : Ty) (m : Option Mapping) :
    ∃ c, (b.strictCall name args ty m).outcome = .ok c ∧ c.ty = ty ∧ Json.base? c = none ∧
      ∀ S env, c.eval S env = S.call { name } (args.map (Sql.eval S env)) :=
  b.exists_call { name, nullable := true, propagates := args.map fun _ => true } args nofun nofun
    (List.length_map _) ty m

theorem exists_coalesce (left right : Sql) (m : Option Mapping) :
    ∃ c, (b.coalesce left right m).outcome = .ok c ∧ c.ty = left.ty.stripNullable ∧
      Json.base? c = none ∧
      ∀ S env, c.eval S env =
        S.call { name := "COALESCE" } [left.eval S env, right.eval S env] := by
  let shared := m.or (b.operandMapping left right)
  obtain ⟨c, hc, hty, hbase, heval⟩ := b.exists_call
    { name := "COALESCE", nullable := (right.fill shared).isNullable, propagates := [false, false] }
    [left.fill shared, right.fill shared] nofun nofun rfl (left.fill shared).ty.stripNullable shared
  rw [Sql.ty_fill] at hty
  refine ⟨c, hc, hty, hbase, fun S env => ?_⟩
  rw [heval]
  simp only [List.map_cons, List.map_nil, Sql.eval_fill]
  rfl

/-! ### Indices that count from one -/

/-- Where the index is a constant that is not too large, the sum is a constant. -/
theorem oneBased_of_folds {index : Sql} {n : Int} (h : index.Folds n) :
    b.oneBased index =
      .const (Value.ofInt (n + 1)) (Value.ofInt (n + 1)).ty
        (b.catalog.ofTy (Value.ofInt (n + 1)).ty) := by
  obtain ⟨hmax, v, ty, m, rfl, hv⟩ := h
  have hlt : n < Int64.maxValue.toInt := by
    have := (Value.bounds_of_toInt? hv).2
    omega
  simp only [oneBased, Sql.value?, Option.bind_some, hv, if_pos hlt]
  rfl

theorem addOne_eq (index : Sql) :
    oneBased.addOne b index =
      .binary .add (index.fill (some b.intMapping))
        (.const (.int 1) b.intMapping.ty (some b.intMapping)) index.ty (some b.intMapping) := by
  have hone : b.const (.int 1) (some b.intMapping) =
      .const (.int 1) b.intMapping.ty (some b.intMapping) := rfl
  unfold oneBased.addOne binary operandMapping
  rw [hone]
  cases hm : index.mapping with
  | none => rfl
  | some k =>
    have hfill (k' : Mapping) : index.fill (some k') = index := Sql.fillWith_of_mapping hm
    simp only [Option.some_or, hfill]
    rfl

/-- One is added to any other index. What has no mapping is mapped as an integer then. -/
theorem oneBased_of_not_folds {index : Sql} (h : ∀ n, ¬ index.Folds n) :
    b.oneBased index =
      .binary .add (index.fill (some b.intMapping))
        (.const (.int 1) b.intMapping.ty (some b.intMapping)) index.ty (some b.intMapping) := by
  rw [← addOne_eq]
  unfold oneBased
  split
  next n hn =>
    obtain ⟨v, hv, hvn⟩ := Option.bind_eq_some_iff.mp hn
    cases index with
    | const w ty m =>
      cases hv
      refine if_neg fun hlt => h n ⟨?_, _, ty, m, rfl, hvn⟩
      omega
    | _ => cases hv
  next => rfl

/-- Folded or not, the index is the sum of what it was and one. -/
theorem eval_oneBased_eq (hadd : ∀ n, S.binary .add (.int n) (.int 1) = .int (n + 1))
    (index : Sql) :
    (b.oneBased index).eval S env = S.binary .add (index.eval S env) (.int 1) := by
  by_cases h : ∃ n, index.Folds n
  · obtain ⟨n, hn⟩ := h
    rw [oneBased_of_folds b hn]
    obtain ⟨hmax, v, ty, m, rfl, hv⟩ := hn
    have ⟨hl, hu⟩ := Value.bounds_of_toInt? hv
    rw [Sql.eval, Sql.eval, Datum.ofValue_int hv, hadd, Datum.ofValue_ofInt (by omega) (by omega)]
  · rw [oneBased_of_not_folds b fun n hn => h ⟨n, hn⟩]
    simp only [Sql.eval, Sql.eval_fill]
    rfl

/-- Whether a constant is folded or one is added to it, the index is one larger. -/
theorem eval_oneBased (hS : S.CoreRules) {index : Sql}
    (hi : (index.eval S env).fits .integer = true) :
    (b.oneBased index).eval S env = (index.eval S env).shift 1 := by
  rw [eval_oneBased_eq b fun n => hS.addOne (.int n) rfl]
  exact hS.addOne _ hi

end Builder

namespace Json

/-- Where there is no document, there are no elements to be counted in it. -/
theorem declines_arrayLength (b : Builder) {s : Sql} (h : base? s = none) :
    (arrayLength b s).Declines := by
  cases s with
  | column ref nullable ty m =>
    simp only [base?, ite_eq_right_iff, reduceCtorEq, imp_false] at h
    simp only [arrayLength, if_neg h]
    rfl
  | traversal => cases h
  | _ => rfl

theorem member?_eq_none (b : Builder) {s : Sql} (h : base? s = none) (member : Sql) (ty : Ty) :
    member? b s member ty = none := by
  unfold member?
  rw [h]
  rfl

end Json

end QuerySql
