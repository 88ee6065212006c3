import QuerySql.Expr
import QuerySql.Strategy.Pattern

/-!
# Nodes of query expressions

The nodes of a query expression, and the lambda parameters in it.

* `Expr.Proper`: constructors have as many arguments as parameters, and static methods no receiver.
* `Expr.Exposes p`: the lambda parameter `p` occurs outside of all lambda bodies.
* `Expr.taken?` is the operand that a rewritten call takes out of the body of its lambda. It is a
  node of the call (`within_of_taken?`).
-/

namespace QuerySql

namespace Expr

/-- The trees right below the root. -/
def children : Expr → List Expr
  | const _ _ | lambdaParam _ | queryParam _ | property _ _ _ => []
  | call _ receiver args => receiver.toList ++ args
  | binary _ left right _ => [left, right]
  | unary _ operand _ => [operand]
  | construct _ args => args
  | newArray _ items _ => items
  | lambda _ body _ => [body]

/-- By cases on the node, which counts one more than its parts together. -/
theorem nodes_lt_of_mem_children {c e : Expr} (h : c ∈ e.children) : c.nodes < e.nodes := by
  cases e with
  | const | lambdaParam | queryParam | property => cases h
  | unary op operand ty | lambda params operand ty =>
    cases List.mem_singleton.mp h
    exact Nat.lt_succ_self _
  | binary op left right ty =>
    rcases List.mem_cons.mp h with rfl | h
    · simp only [nodes]
      omega
    · cases List.mem_singleton.mp h
      simp only [nodes]
      omega
  | construct _ items | newArray _ items _ => exact Nat.lt_succ_of_le (nodes_le_nodesAll h)
  | call method receiver args =>
    simp only [nodes]
    rcases List.mem_append.mp h with h | h
    · cases Option.mem_toList.mp h
      simp only [nodesOption]
      omega
    · have := nodes_le_nodesAll h
      omega

/-- A property of all expressions, shown of each from its children. -/
theorem children_induction {motive : Expr → Prop}
    (step : ∀ e, (∀ c ∈ e.children, motive c) → motive e) (e : Expr) : motive e := by
  induction hn : e.nodes using Nat.strongRecOn generalizing e with
  | ind n ih =>
    subst hn
    exact step e fun c hc => ih c.nodes (nodes_lt_of_mem_children hc) c rfl

/-- The first tree is a node of the second one. -/
inductive Within (n : Expr) : Expr → Prop
  | root : Within n n
  | child {c e : Expr} : c ∈ e.children → Within n c → Within n e

theorem Within.trans {m n e : Expr} (h : Within m n) (h' : Within n e) : Within m e := by
  induction h' with
  | root => exact h
  | child hc _ ih => exact .child hc ih

theorem Within.of_mem {c e : Expr} (h : c ∈ e.children) : Within c e := .child h .root

theorem Within.eq_of_leaf {n e : Expr} (hn : Within n e) (he : e.children = []) : n = e := by
  cases hn with
  | root => rfl
  | child hc _ =>
    rw [he] at hc
    cases hc

theorem Within.forall_unary {P : Expr → Prop} {op : ExprUnaryOp} {x : Expr} {ty : Ty}
    (hroot : P (unary op x ty)) (hx : ∀ d, Within d x → P d) :
    ∀ d, Within d (unary op x ty) → P d := by
  intro d hd
  cases hd with
  | root => exact hroot
  | child hc hd =>
    cases List.mem_singleton.mp hc
    exact hx d hd

/-- Whether the node is a lambda. -/
def isLambda : Expr → Bool
  | lambda _ _ _ => true
  | _ => false

/-- A constructor is given as many arguments as it has parameters, and a known method that is static
has no receiver. -/
def ProperNode : Expr → Prop
  | construct c args => args.length = c.parameters.length
  | call m receiver _ =>
    ∀ k, Known.identify? m = some k → k.declaration.isStatic = true → receiver = none
  | _ => True

/-- Every node is proper. -/
def Proper (e : Expr) : Prop := ∀ n, Within n e → n.ProperNode

theorem Proper.root {e : Expr} (h : e.Proper) : e.ProperNode := h e .root

theorem Proper.within {e n : Expr} (h : e.Proper) (hn : Within n e) : n.Proper :=
  fun m hm => h m (hm.trans hn)

theorem Proper.intro {e : Expr} (h : e.ProperNode) (hc : ∀ c ∈ e.children, c.Proper) :
    e.Proper := by
  intro n hn
  cases hn with
  | root => exact h
  | child hmem hn => exact hc _ hmem n hn

/-- The lambda parameter occurs in the tree outside of all lambda bodies. -/
inductive Exposes (p : Parameter) : Expr → Prop
  | here : Exposes p (lambdaParam p)
  | child {c e : Expr} : e.isLambda = false → c ∈ e.children → Exposes p c → Exposes p e

/-- Where a parameter is exposed there is no lambda around it. -/
theorem Exposes.not_lambda {p : Parameter} {e : Expr} (h : Exposes p e) : e.isLambda = false := by
  cases h with
  | here => rfl
  | child hl _ _ => exact hl

end Expr

/-! ## Operands of rewritten calls -/

namespace ArrayPattern

/-- An equation with the parameter has its other side as the operand. -/
theorem operand_of_ofEquation? {p : Parameter} {left right : Expr} {pattern : ArrayPattern}
    (h : ofEquation? p left right = some pattern) :
    pattern.operand = left ∨ pattern.operand = right := by
  unfold ofEquation? at h
  split at h
  · cases h
    exact .inr rfl
  · split at h
    · cases h
      exact .inl rfl
    · cases h

theorem operand_mem_of_ofLike? {p : Parameter} {m : Method} {args : List Expr}
    {pattern : ArrayPattern} (h : ofLike? p m args = some pattern) : pattern.operand ∈ args := by
  unfold ofLike? at h
  split at h
  · split at h
    · cases h
      exact List.mem_cons_of_mem _ List.mem_cons_self
    · cases h
  · cases h

theorem operand_mem_of_ofContains? {p : Parameter} {m : Method} {receiver : Option Expr}
    {args : List Expr} {pattern : ArrayPattern}
    (h : ofContains? p m receiver args = some pattern) :
    pattern.operand ∈ receiver.toList ++ args := by
  unfold ofContains? at h
  split at h
  · split at h
    · cases h
      exact List.mem_append_right _ List.mem_cons_self
    · cases h
  · split at h
    · cases h
      exact List.mem_append_left _ List.mem_cons_self
    · cases h
  · cases h

theorem operand_mem_of_ofEquals? {p : Parameter} {m : Method} {receiver : Option Expr}
    {args : List Expr} {pattern : ArrayPattern}
    (h : ofEquals? p m receiver args = some pattern) :
    pattern.operand ∈ receiver.toList ++ args := by
  unfold ofEquals? at h
  split at h
  next left right =>
    split at h
    · rcases operand_of_ofEquation? h with h | h
      · exact List.mem_append_right _ (h ▸ List.mem_cons_self)
      · exact List.mem_append_right _ (h ▸ List.mem_cons_of_mem _ List.mem_cons_self)
    · cases h
  next left right =>
    split at h
    · rcases operand_of_ofEquation? h with h | h
      · exact List.mem_append_left _ (h ▸ List.mem_cons_self)
      · exact List.mem_append_right _ (h ▸ List.mem_cons_self)
    · cases h
  next => cases h

/-- The operand of a pattern is a part of the body of the lambda. -/
theorem operand_mem_children {q : Quantifier} {p : Parameter} {body : Expr}
    {pattern : ArrayPattern} (h : ofBody? q p body = some pattern) :
    pattern.operand ∈ body.children := by
  unfold ofBody? at h
  split at h
  next left right ty =>
    split at h
    · rcases operand_of_ofEquation? h with h | h
      · exact h ▸ List.mem_cons_self
      · exact h ▸ List.mem_cons_of_mem _ List.mem_cons_self
    · cases h
  next m receiver args =>
    rcases Option.or_eq_some_iff.mp h with h | ⟨-, h⟩
    · exact List.mem_append_right _ (operand_mem_of_ofLike? h)
    rcases Option.or_eq_some_iff.mp h with h | ⟨-, h⟩
    · exact operand_mem_of_ofContains? h
    split at h
    · exact operand_mem_of_ofEquals? h
    · cases h
  next => cases h

/-- Only methods of sequences have patterns. -/
theorem identify?_of_ofCall? {m : Method} {args : List Expr} {q : Quantifier} {array : Expr}
    {p : Parameter} {pattern : ArrayPattern} (h : ofCall? m args = some (q, array, p, pattern)) :
    ∃ k, Known.identify? m = some (.sequence k) := by
  obtain ⟨q', hq, -⟩ := Option.bind_eq_some_iff.mp h
  split at hq
  next hm => exact ⟨_, hm⟩
  next hm => exact ⟨_, hm⟩
  next => cases hq

/-- What is rewritten has an array and a lambda of one parameter, and the operand is a child of the
lambda's body. -/
theorem ofCall?_eq_some {m : Method} {args : List Expr} {q : Quantifier} {array : Expr}
    {p : Parameter} {pattern : ArrayPattern} (h : ofCall? m args = some (q, array, p, pattern)) :
    ∃ body ty, args = [array, .lambda [p] body ty] ∧ pattern.operand ∈ body.children := by
  obtain ⟨q', -, h⟩ := Option.bind_eq_some_iff.mp h
  split at h
  next =>
    obtain ⟨pattern', hb, h⟩ := Option.map_eq_some_iff.mp h
    cases h
    exact ⟨_, _, rfl, operand_mem_children hb⟩
  next => cases h

end ArrayPattern

namespace LabelPattern

/-- The operand that is taken out of the lambda's body. -/
def taken : LabelPattern → Expr
  | anyQuery path _ => path
  | pathsBy _ _ _ _ other => other

/-- Either operand of a test can be the parameter that stands for the elements. -/
theorem operands_of_ofTest? {method : Known} {first : Bool} {array : Expr} {p : Parameter}
    {test : Method} {receiver argument : Expr} {pattern : LabelPattern}
    (h : ofTest? method first array p test receiver argument = some pattern) :
    (pattern.taken = receiver ∧ pattern.operands = (receiver, array)) ∨
      (pattern.taken = argument ∧ pattern.operands = (array, argument)) := by
  unfold ofTest? at h
  split at h
  · split at h
    · cases h
      exact .inl ⟨rfl, rfl⟩
    · split at h
      · obtain ⟨op, -, h⟩ := Option.map_eq_some_iff.mp h
        cases h
        exact .inr ⟨rfl, rfl⟩
      · cases h
  · cases h

theorem identify?_of_ofCall? {m : Method} {args : List Expr} {pattern : LabelPattern}
    (h : ofCall? m args = some pattern) : ∃ k, Known.identify? m = some (.sequence k) := by
  obtain ⟨kind, hk, -⟩ := Option.bind_eq_some_iff.mp h
  split at hk
  next hm => exact ⟨_, hm⟩
  next hm => exact ⟨_, hm⟩
  next => cases hk

/-- What is rewritten has an array and a lambda, and one operator compares the array with a child of
the lambda's body. -/
theorem ofCall?_eq_some {m : Method} {args : List Expr} {pattern : LabelPattern}
    (h : ofCall? m args = some pattern) :
    ∃ array params body ty, args = [array, .lambda params body ty] ∧
      pattern.taken ∈ body.children ∧
      (pattern.operands = (pattern.taken, array) ∨ pattern.operands = (array, pattern.taken)) := by
  obtain ⟨⟨method, first⟩, -, h⟩ := Option.bind_eq_some_iff.mp h
  simp only at h
  split at h
  next =>
    refine ⟨_, _, _, _, rfl, ?_⟩
    rcases operands_of_ofTest? h with ⟨ht, ho⟩ | ⟨ht, ho⟩
    · rw [ht]
      exact ⟨List.mem_cons_self, .inl ho⟩
    · rw [ht]
      exact ⟨List.mem_cons_of_mem _ List.mem_cons_self, .inr ho⟩
  next => cases h

end LabelPattern

namespace Expr

/-- The operand that is taken out of the body of a lambda, for a call that is rewritten. -/
def taken? : Expr → Option Expr
  | call method _ args =>
    if args.head?.any fun a => a.ty.stripNullable.isArrayOrList then
      match ArrayPattern.ofCall? method args with
      | some (_, _, _, pattern) => some pattern.operand
      | none => (LabelPattern.ofCall? method args).map LabelPattern.taken
    else none
  | _ => none

/-- The parts of the body of a lambda are nodes of the call. -/
theorem within_of_mem_body {method : Method} {receiver : Option Expr} {array body d : Expr}
    {params : List Parameter} {ty : Ty} (h : d ∈ body.children) :
    Within d (call method receiver [array, lambda params body ty]) := by
  have hlambda : Within d (lambda params body ty) := .child List.mem_cons_self (.of_mem h)
  refine .child ?_ hlambda
  exact List.mem_append_right _ (List.mem_cons_of_mem _ List.mem_cons_self)

/-- The operand is a node of the call. -/
theorem within_of_taken? {e d : Expr} (h : e.taken? = some d) : Within d e := by
  unfold taken? at h
  split at h
  next method receiver args =>
    split at h
    · split at h
      next q array p pattern hp =>
        cases h
        obtain ⟨body, ty, rfl, hmem⟩ := ArrayPattern.ofCall?_eq_some hp
        exact within_of_mem_body hmem
      next =>
        obtain ⟨pattern, hp, rfl⟩ := Option.map_eq_some_iff.mp h
        obtain ⟨array, params, body, ty, rfl, hmem, -⟩ := LabelPattern.ofCall?_eq_some hp
        exact within_of_mem_body hmem
    · cases h
  next => cases h

end Expr

end QuerySql
