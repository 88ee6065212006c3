import QuerySql.Proofs.Expr.Nodes
import QuerySql.Strategy.Postgres

/-!
# What a step asks for

The PostgreSQL strategy leaves the trees below a node to whoever runs it. `Expr.Asks e d` lists the
trees `d` that it asks for on its way through a node `e`: children, operands without their implicit
conversions, operands that are taken out of the body of a lambda, and three kinds of trees that it
has put together itself.

* `Postgres.strategy_congr`: nothing else is asked for.
* `Expr.Asks.nodes_lt`: each of them has fewer nodes, so a run ends
  (`Postgres.strategy_descends`).
* `Expr.Asks.forall_within`: but for three kinds of nodes, theirs are nodes of `e`.
-/

namespace QuerySql

/-- The PostgreSQL strategy may ask for the second tree when it is given the first one. -/
inductive Expr.Asks : Expr → Expr → Prop
  | child {e c : Expr} : c ∈ e.children → Asks e c
  | left (op : ExprOp) (x y : Expr) (ty : Ty) : Asks (binary op x y ty) x.stripImplicit
  | right (op : ExprOp) (x y : Expr) (ty : Ty) : Asks (binary op x y ty) y.stripImplicit
  | operand {m : Method} {receiver : Option Expr} {args : List Expr} {q : Quantifier}
      {array : Expr} {p : Parameter} {pattern : ArrayPattern} :
      ArrayPattern.ofCall? m args = some (q, array, p, pattern) →
      Asks (call m receiver args) pattern.operand
  /-- The membership test that an equation with some element is turned into. -/
  | membership {m : Method} {receiver : Option Expr} {args : List Expr} {q : Quantifier}
      {array other : Expr} {p : Parameter} :
      ArrayPattern.ofCall? m args = some (q, array, p, .equalTo other) →
      Asks (call m receiver args)
        (call (Known.close (.sequence .contains) [p.ty]) none [array, other])
  | taken {m : Method} {receiver : Option Expr} {args : List Expr} {pattern : LabelPattern} :
      LabelPattern.ofCall? m args = some pattern → Asks (call m receiver args) pattern.taken
  /-- A part of a timestamp, the seconds as a fractional number. -/
  | part {c : Constructor} {args parts : List Expr} {d : Expr} :
      Postgres.timestampParts? args = some parts → d ∈ parts → Asks (construct c args) d
  | zone {c : Constructor} {args parts : List Expr} :
      Postgres.timestampParts? args = some parts →
      Asks (construct c args) (ofValue (.string "UTC"))

namespace Postgres

theorem timestampParts?_eq_some {args parts : List Expr} (h : timestampParts? args = some parts) :
    ∃ year month day hour minute second rest,
      args = year :: month :: day :: hour :: minute :: second :: rest ∧
        parts = [year, month, day, hour, minute, .unary .convert second .double] := by
  unfold timestampParts? at h
  split at h
  next =>
    cases h
    exact ⟨_, _, _, _, _, _, _, rfl, rfl⟩
  next => cases h

/-- The parts of a timestamp are arguments, but for the seconds, which are converted. -/
theorem mem_of_timestampParts? {args parts : List Expr} (h : timestampParts? args = some parts)
    {d : Expr} (hd : d ∈ parts) : d ∈ args ∨ ∃ s ∈ args, d = .unary .convert s .double := by
  obtain ⟨year, month, day, hour, minute, second, rest, rfl, rfl⟩ := timestampParts?_eq_some h
  simp only [List.mem_cons, List.not_mem_nil, or_false] at hd
  rcases hd with rfl | rfl | rfl | rfl | rfl | rfl
  case inr.inr.inr.inr.inr => exact .inr ⟨second, by simp, rfl⟩
  all_goals exact .inl (by simp)

/-- A timestamp has six parts at least, so each argument has others beside it. -/
theorem nodes_of_timestampParts? {args parts : List Expr} (h : timestampParts? args = some parts)
    {s : Expr} (hs : s ∈ args) : s.nodes < Expr.nodesAll args := by
  obtain ⟨year, month, day, hour, minute, second, rest, rfl, -⟩ := timestampParts?_eq_some h
  have hyear := year.nodes_pos
  have hmonth := month.nodes_pos
  rcases List.mem_cons.mp hs with rfl | hs
  · simp only [Expr.nodesAll]
    omega
  · have hrest := Expr.nodes_le_nodesAll hs
    simp only [Expr.nodesAll] at hrest ⊢
    omega

end Postgres

/-- By cases on what is handed back. The membership test has fewer nodes because the lambda goes. -/
theorem Expr.Asks.nodes_lt {e d : Expr} (h : Asks e d) : d.nodes < e.nodes := by
  cases h with
  | child hc => exact nodes_lt_of_mem_children hc
  | left op x y ty =>
    have := x.nodes_stripImplicit
    simp only [nodes]
    omega
  | right op x y ty =>
    have := y.nodes_stripImplicit
    simp only [nodes]
    omega
  | operand hp =>
    obtain ⟨body, ty, rfl, hmem⟩ := ArrayPattern.ofCall?_eq_some hp
    have := nodes_lt_of_mem_children hmem
    simp only [nodes, nodesAll]
    omega
  | membership hp =>
    obtain ⟨body, ty, rfl, hmem⟩ := ArrayPattern.ofCall?_eq_some hp
    have := nodes_lt_of_mem_children hmem
    simp only [ArrayPattern.operand] at this
    simp only [nodes, nodesAll, nodesOption]
    omega
  | taken hp =>
    obtain ⟨array, params, body, ty, rfl, hmem, -⟩ := LabelPattern.ofCall?_eq_some hp
    have := nodes_lt_of_mem_children hmem
    simp only [nodes, nodesAll]
    omega
  | part hp hd =>
    rcases Postgres.mem_of_timestampParts? hp hd with hd | ⟨s, hs, rfl⟩
    · exact nodes_lt_of_mem_children hd
    · have := Postgres.nodes_of_timestampParts? hp hs
      simp only [nodes]
      omega
  -- The name of the zone is a single node, and the arguments are more than one.
  | zone hp =>
    obtain ⟨year, month, day, hour, minute, second, rest, rfl, -⟩ :=
      Postgres.timestampParts?_eq_some hp
    have := year.nodes_pos
    simp only [ofValue, nodes, nodesAll]
    omega

/-- Implicit conversions stand above what is left without them. -/
theorem Expr.within_stripImplicit (e : Expr) : Within e.stripImplicit e := by
  fun_induction stripImplicit e with
  | case1 op x ty h ih => exact .child List.mem_cons_self ih
  | case2 op x ty h => exact .root
  | case3 e h => exact .root

/-- A property of all nodes of a tree is one of the trees that are asked for, if those nodes have it
that are not taken from the tree. -/
theorem Expr.Asks.forall_within {P : Expr → Prop} {e d : Expr} (h : Asks e d)
    (hcontains : ∀ ty args, P (call (Known.close (.sequence .contains) [ty]) none args))
    (hconvert : ∀ s ty, P (unary .convert s ty)) (hconst : ∀ v ty, P (const v ty))
    (he : ∀ n, Within n e → P n) : ∀ n, Within n d → P n := by
  have hpart {c : Expr} (hc : Within c e) : ∀ n, Within n c → P n := fun n hn => he n (hn.trans hc)
  cases h with
  | child hc => exact hpart (.of_mem hc)
  | left op x y ty => exact hpart (.child List.mem_cons_self x.within_stripImplicit)
  | right op x y ty =>
    exact hpart (.child (List.mem_cons_of_mem _ List.mem_cons_self) y.within_stripImplicit)
  | operand hp =>
    obtain ⟨body, ty, rfl, hmem⟩ := ArrayPattern.ofCall?_eq_some hp
    exact hpart (within_of_mem_body hmem)
  -- The membership test is new itself, and its operands are taken from the call.
  | @membership _ _ _ _ array other _ hp =>
    obtain ⟨body, ty, rfl, hmem⟩ := ArrayPattern.ofCall?_eq_some hp
    intro n hn
    cases hn with
    | root => exact hcontains _ _
    | child hc hn =>
      simp only [children, Option.toList_none, List.nil_append, List.mem_cons, List.not_mem_nil,
        or_false] at hc
      rcases hc with rfl | rfl
      · exact hpart (.of_mem (List.mem_append_right _ List.mem_cons_self)) n hn
      · exact hpart (within_of_mem_body hmem) n hn
  | taken hp =>
    obtain ⟨array, params, body, ty, rfl, hmem, -⟩ := LabelPattern.ofCall?_eq_some hp
    exact hpart (within_of_mem_body hmem)
  | part hp hd =>
    rcases Postgres.mem_of_timestampParts? hp hd with hd | ⟨s, hs, rfl⟩
    · exact hpart (.of_mem hd)
    · -- A new conversion around the seconds.
      intro n hn
      cases hn with
      | root => exact hconvert _ _
      | child hc hn =>
        cases List.mem_singleton.mp hc
        exact hpart (.of_mem hs) n hn
  | zone hp =>
    intro n hn
    cases hn.eq_of_leaf rfl
    exact hconst _ _

namespace Postgres

variable {p : Postgres} {f g : Expr → Attempt Sql}

theorem make_congr {args : List Expr} (h : ∀ d ∈ args, f d = g d) (function : String) (ty : Ty)
    (mapping : Option Mapping) :
    p.make f function args ty mapping = p.make g function args ty mapping := by
  simp only [make, Attempt.all_congr h]

/-- A pattern over an array asks for its operands and its membership test, and for nothing else. -/
theorem arrayPattern_congr {m : Method} {receiver : Option Expr} {args : List Expr}
    {q : Quantifier} {array : Expr} {param : Parameter} {pattern : ArrayPattern}
    (hp : ArrayPattern.ofCall? m args = some (q, array, param, pattern))
    (h : ∀ d, Expr.Asks (.call m receiver args) d → f d = g d) :
    p.arrayPattern f q array param pattern = p.arrayPattern g q array param pattern := by
  have hoperand := h _ (.operand hp)
  have harray : f array = g array := by
    obtain ⟨body, ty, rfl, -⟩ := ArrayPattern.ofCall?_eq_some hp
    exact h _ (.child (List.mem_append_right _ List.mem_cons_self))
  cases pattern with
  | likeElement ignoreCase subject | memberOf other =>
    simp only [ArrayPattern.operand] at hoperand
    simp only [arrayPattern, operands, hoperand, harray]
  | equalTo other => exact congrArg (Attempt.report _ >>= ·) (funext fun _ => h _ (.membership hp))

theorem labelPattern_congr {m : Method} {receiver : Option Expr} {args : List Expr}
    {pattern : LabelPattern} (hp : LabelPattern.ofCall? m args = some pattern)
    (h : ∀ d, Expr.Asks (.call m receiver args) d → f d = g d) :
    p.labelPattern f pattern = p.labelPattern g pattern := by
  have htaken := h _ (.taken hp)
  obtain ⟨array, params, body, ty, rfl, -, hoperands⟩ := LabelPattern.ofCall?_eq_some hp
  have harray : f array = g array := h _ (.child (List.mem_append_right _ List.mem_cons_self))
  have hboth : f pattern.operands.1 = g pattern.operands.1 ∧
      f pattern.operands.2 = g pattern.operands.2 := by
    rcases hoperands with ho | ho <;> rw [ho]
    · exact ⟨htaken, harray⟩
    · exact ⟨harray, htaken⟩
  cases pattern <;> simp only [LabelPattern.operands] at hboth <;>
    simp only [labelPattern, hboth.1, hboth.2]

theorem lambdaCall?_congr {m : Method} {receiver : Option Expr} {args : List Expr}
    (h : ∀ d, Expr.Asks (.call m receiver args) d → f d = g d) :
    p.lambdaCall? f m args = p.lambdaCall? g m args := by
  unfold lambdaCall?
  split
  · rfl
  · split
    next hp => rw [arrayPattern_congr hp h]
    next =>
      cases hp : LabelPattern.ofCall? m args with
      | none => rfl
      | some pattern => exact congrArg some (labelPattern_congr hp h)

/-- A constructor asks for its arguments, for the seconds as a fraction and for the name of a zone.
-/
theorem construct_congr {c : Constructor} {args : List Expr}
    (h : ∀ d, Expr.Asks (.construct c args) d → f d = g d) :
    p.construct f c args = p.construct g c args := by
  have hargs : ∀ d ∈ args, f d = g d := fun d hd => h d (.child hd)
  unfold construct
  rw [Attempt.all_congr hargs, make_congr hargs, make_congr hargs]
  cases hp : timestampParts? args with
  | none => cases timestampKind? args <;> rfl
  | some parts =>
    have hparts : ∀ d ∈ parts, f d = g d := fun d hd => h d (.part hp hd)
    have hzone : ∀ d ∈ parts ++ [.ofValue (.string "UTC")], f d = g d := by
      intro d hd
      rcases List.mem_append.mp hd with hd | hd
      · exact hparts d hd
      · rw [List.mem_singleton.mp hd]
        exact h _ (.zone hp)
    have hkind (kind : TimestampKind) :
        p.timestampOfKind f kind parts = p.timestampOfKind g kind parts := by
      unfold timestampOfKind
      rw [make_congr hzone, make_congr hparts]
    simp only [make_congr hparts]
    cases timestampKind? args with
    | none => rfl
    | some kind => simp only [hkind]

/-- What the strategy makes of a node depends on what the strategy behind makes of it and on what is
made of the trees that it asks for. -/
theorem strategy_congr (p : Postgres) {behind behind' : Strategy} {e : Expr}
    (hbehind : behind f e = behind' g e) (h : ∀ d, e.Asks d → f d = g d) :
    p.strategy behind f e = p.strategy behind' g e := by
  cases e with
  | newArray sized items ty =>
    have hitems : ∀ d ∈ items, f d = g d := fun d hd => h d (.child hd)
    simp only [strategy, hbehind, newArray, Attempt.all_congr hitems]
  | construct c args => simp only [strategy, hbehind, construct_congr h]
  | unary op x ty =>
    have hx : f x = g x := h x (.child List.mem_cons_self)
    cases op <;> simp only [strategy, intercept?, arrayLength, hbehind, hx]
  | call method receiver args => simp only [strategy, intercept?, hbehind, lambdaCall?_congr h]
  | binary op x y ty =>
    have hx := h _ (.left op x y ty)
    have hy := h _ (.right op x y ty)
    cases op with
    | plain op => cases op <;> simp only [strategy, intercept?, dateDifference, hbehind, hx, hy]
    | coalesce => simp only [strategy, intercept?, hbehind]
    | arrayIndex => simp only [strategy, intercept?, arrayIndex, hx, hy]
  | _ => simp only [strategy, intercept?, hbehind]

/-- What is handed back is smaller, so it makes no difference what is made of larger trees. -/
theorem strategy_descends (p : Postgres) {behind : Strategy} (hb : behind.Descends) :
    (p.strategy behind).Descends :=
  fun e f g h => p.strategy_congr (hb e f g h) fun d hd => h d hd.nodes_lt

end Postgres

end QuerySql
