import QuerySql.Proofs.Extension
import QuerySql.Proofs.Lambdas

/-!
# Where the two strategies agree

The relational strategy alone knows what to do with accesses to arrays and with the difference of
two dates, and the PostgreSQL strategy does something else with them (`Expr.isRefined`). Apart from
these nodes the PostgreSQL strategy only adds to what the relational one finds: constructors, array
literals and calls with lambdas are all that it takes more of (`Expr.isAdded`).

* `Relational.run`: the relational strategy by itself.
* `Postgres.below_run`: no refined nodes, and whatever the relational strategy finds is found.
* `Postgres.run_eq_relational`: no added nodes either, and the two runs are one, reports included.
* `Translator.extends_relational` says both of the two translators.
-/

namespace QuerySql

/-! ## The nodes that make a difference -/

namespace Expr

/-- Whether the root is a difference between two dates, nullable or not, under whatever implicit
conversions. -/
def subtractsDates : Expr → Bool
  | binary (.plain .subtract) left right _ =>
    Postgres.isLocalDate left.stripImplicit && Postgres.isLocalDate right.stripImplicit
  | _ => false

/-- Whether the root is a node that the two strategies translate each in a way of its own. -/
def isRefined (e : Expr) : Bool := e.accessesArray || e.subtractsDates

/-- Whether the root is a node that the relational strategy has no SQL for. -/
def isAdded : Expr → Bool
  | construct _ _ | newArray _ _ _ | lambda _ _ _ => true
  | _ => false

end Expr

/-! ## The relational strategy by itself -/

namespace Relational

variable {r : Relational}

/-- Translates by the relational strategy alone. -/
def run (r : Relational) (e : Expr) : Attempt Sql := r.strategy.run e

theorem run_eq (r : Relational) (e : Expr) : r.run e = r.strategy r.run e :=
  Strategy.run_eq r.strategy_descends e

/-- Whatever is made of their parts, the relational strategy has no SQL for these nodes. -/
theorem fails_of_isAdded {e : Expr} (h : e.isAdded = true) (recur : Expr → Attempt Sql) :
    (r.strategy recur e).Fails := by
  cases e with
  | construct | newArray | lambda => exact Attempt.fails_decline
  | _ => cases h

/-- The strategy asks for the children of a node only. -/
theorem strategy_congr {f g : Expr → Attempt Sql} {e : Expr} (h : ∀ c ∈ e.children, f c = g c) :
    r.strategy f e = r.strategy g e := by
  cases e with
  | const | queryParam | property | lambdaParam | construct | newArray | lambda => rfl
  | unary op operand ty => simp only [strategy, unary, h operand List.mem_cons_self]
  | binary op left right ty =>
    have hl := h left List.mem_cons_self
    have hr := h right (List.mem_cons_of_mem _ List.mem_cons_self)
    simp only [strategy, binary]
    split
    next check operand hcheck =>
      rcases nullCheck?_operand hcheck with rfl | rfl
      · rw [hl]
      · rw [hr]
    next => rw [hl, hr]
  | call method receiver args =>
    have hargs : Attempt.all f args = Attempt.all g args :=
      Attempt.all_congr fun a ha => h a (List.mem_append_right _ ha)
    have hreceiver : receiverOf f receiver = receiverOf g receiver := by
      cases receiver with
      | none => rfl
      | some e => simp only [receiverOf, h e List.mem_cons_self]
    simp only [strategy, call, hargs, hreceiver]

/-- A tuple that is looked at as any tuple is still the same row. -/
theorem strategy_anyTuple {recur : Expr → Attempt Sql} {x : Expr} (hx : x.ty.isTuple = true) :
    r.strategy recur (.unary .convert x .anyTuple) = recur x := by
  simp only [strategy, unary, Ty.preservesRepresentation_anyTuple hx, if_true]
  exact bind_pure _

end Relational

/-! ## The PostgreSQL strategy in front of it -/

namespace Postgres

variable {p : Postgres} {r : Relational} {recur : Expr → Attempt Sql} {e : Expr}

/-- For any other node the strategy that was there before is asked, unless the node is intercepted.
-/
theorem strategy_eq (h : e.isAdded = false) (behind : Strategy) :
    p.strategy behind recur e = (p.intercept? recur e).getD (behind recur e) := by
  cases e with
  | construct | newArray => cases h
  | _ =>
    simp only [strategy]
    split
    next hx => rw [hx, Option.getD_some]
    next hx => rw [hx, Option.getD_none]

/-- What is taken of the nodes that are not refined: conversions of tuples, and calls. -/
theorem intercept?_eq_some (h : e.isRefined = false) {x : Attempt Sql}
    (hx : p.intercept? recur e = some x) :
    (∃ y, e = .unary .convert y .anyTuple ∧ y.ty.isTuple = true ∧ x = recur y) ∨
      ∃ method receiver args, e = .call method receiver args ∧
        p.lambdaCall? recur method args = some x := by
  unfold intercept? at hx
  split at hx
  next => cases h
  next y ty =>
    split at hx
    next hty =>
      cases hx
      obtain ⟨rfl, hy⟩ := hty
      exact .inl ⟨y, rfl, hy, rfl⟩
    next => cases hx
  next method receiver args => exact .inr ⟨method, receiver, args, rfl, hx⟩
  next left right ty =>
    have hdates : (isLocalDate left.stripImplicit && isLocalDate right.stripImplicit) = false := h
    rw [hdates] at hx
    cases hx
  next => cases h
  next => cases hx

/-- A call that is rewritten has a lambda for an argument. -/
theorem exists_lambda_of_lambdaCall? {method : Method} (receiver : Option Expr) {args : List Expr}
    {x : Attempt Sql} (h : p.lambdaCall? (p.run r) method args = some x) :
    ∃ d ∈ (Expr.call method receiver args).children, d.isAdded = true := by
  obtain ⟨-, array, params, body, ty, -, rfl, -⟩ := fails_lambdaCall? receiver h
  exact ⟨.lambda params body ty,
    List.mem_append_right _ (List.mem_cons_of_mem _ List.mem_cons_self), rfl⟩

/-- By induction on the expression. Where the node is taken, it is a conversion without effect or a
call with a lambda, and of the second kind the relational strategy finds nothing. -/
theorem below_run (p : Postgres) (r : Relational)
    (h : ∀ n, Expr.Within n e → n.isRefined = false) : (r.run e).Below (p.run r e) := by
  induction e using Expr.children_induction with
  | step e ih =>
    have hchild : ∀ c ∈ e.children, (r.run c).Below (p.run r c) :=
      fun c hc => ih c hc fun n hn => h n (.child hc hn)
    rw [Relational.run_eq, run_eq]
    cases hadded : e.isAdded with
    | true => exact (Relational.fails_of_isAdded hadded _).below _
    | false =>
      rw [strategy_eq hadded]
      cases hx : p.intercept? (p.run r) e with
      | none => exact Relational.below_strategy (.refl r) hchild
      | some x =>
        -- What is intercepted though nothing in it is refined: a conversion to any tuple, and calls
        -- with a lambda, which have no SQL without PostgreSQL.
        rcases intercept?_eq_some (h e .root) hx with
          ⟨y, rfl, hy, rfl⟩ | ⟨method, receiver, args, rfl, hcall⟩
        · rw [Relational.strategy_anyTuple hy]
          exact hchild y List.mem_cons_self
        · obtain ⟨d, hd, hlambda⟩ := exists_lambda_of_lambdaCall? receiver hcall
          have hfails : (r.run d).Fails := by
            rw [Relational.run_eq]
            exact Relational.fails_of_isAdded hlambda _
          exact (Relational.fails_call hfails method hd).below _

/-- By the same induction. There are no lambdas, so only conversions without effect are taken. -/
theorem run_eq_relational (p : Postgres) (r : Relational)
    (h : ∀ n, Expr.Within n e → n.isRefined = false)
    (h' : ∀ n, Expr.Within n e → n.isAdded = false) : p.run r e = r.run e := by
  induction e using Expr.children_induction with
  | step e ih =>
    have hchild : ∀ c ∈ e.children, p.run r c = r.run c := fun c hc =>
      ih c hc (fun n hn => h n (.child hc hn)) fun n hn => h' n (.child hc hn)
    rw [Relational.run_eq, run_eq, strategy_eq (h' e .root)]
    cases hx : p.intercept? (p.run r) e with
    | none => exact Relational.strategy_congr hchild
    | some x =>
      rcases intercept?_eq_some (h e .root) hx with
        ⟨y, rfl, hy, rfl⟩ | ⟨method, receiver, args, rfl, hcall⟩
      · exact (hchild y List.mem_cons_self).trans (Relational.strategy_anyTuple hy).symm
      · obtain ⟨d, hd, hlambda⟩ := exists_lambda_of_lambdaCall? receiver hcall
        have hnone := h' d (.of_mem hd)
        rw [hlambda] at hnone
        cases hnone

end Postgres

/-! ## Translators -/

namespace Translator

variable {columns : ColumnLookup} {options : Options} {catalog : Catalog}
  {added : List ScalarTranslator} {t : Translator}

/-- A relational translator is made of a builder, the built-in translators and those that were
added. -/
theorem outcome_relational_eq_ok :
    (relational columns options catalog added).outcome = .ok t ↔
      ∃ b, Builder.ofCatalog catalog = .ok b ∧
        t = ⟨⟨b, Scalar.builtIn b options ++ added, [Aggregate.Spatial.translator b]⟩,
          Relational.strategy ⟨b, Scalar.builtIn b options ++ added, columns⟩⟩ := by
  constructor
  · intro h
    obtain ⟨provider, hprovider, h⟩ := Run.outcome_bind_eq_ok.mp h
    obtain ⟨b, hb, rfl⟩ := Provider.assemble_eq_ok.mp hprovider
    cases h
    exact ⟨b, hb, rfl⟩
  · rintro ⟨b, hb, rfl⟩
    exact Run.outcome_bind_eq_ok.mpr ⟨_, Provider.assemble_eq_ok.mpr ⟨b, hb, rfl⟩, rfl⟩

/-- Beside each translator for PostgreSQL there is the one with the relational strategy alone. An
expression without accesses to arrays and differences of dates that the second one translates, the
first one translates in the same way. If there are no constructors, array literals and lambdas in
it either, then the two translate it in the same way or both do not. -/
theorem extends_relational (ht : (postgres columns options catalog added).outcome = .ok t) :
    ∃ base, (relational columns options catalog added).outcome = .ok base ∧
      ∀ e, (∀ n, Expr.Within n e → n.accessesArray = false ∧ n.subtractsDates = false) →
        (∀ s, (base.translate e).outcome = .ok s → (t.translate e).outcome = .ok s) ∧
        ((∀ n, Expr.Within n e → n.isAdded = false) → t.translate e = base.translate e) := by
  obtain ⟨-, b, p, -, hb, -, rfl⟩ := outcome_postgres_eq_ok.mp ht
  refine ⟨_, outcome_relational_eq_ok.mpr ⟨b, hb, rfl⟩, fun e he => ?_⟩
  have hrefined : ∀ n, Expr.Within n e → n.isRefined = false :=
    fun n hn => (Bool.or_eq_false_iff).mpr (he n hn)
  exact ⟨Postgres.below_run p _ hrefined, Postgres.run_eq_relational p _ hrefined⟩

/-- A comparison of a column with a text is found by the relational strategy alone. -/
theorem relational_name_equation :
    let columns : ColumnLookup := fun _ name => some { name := name, ty := .string }
    let e : Expr := .binary (.plain .equal) (.property none "name" .string)
      (.ofValue (.string "Gray")) .bool
    ∃ t base s, (postgres columns {} Catalog.standard []).outcome = .ok t ∧
      (relational columns {} Catalog.standard []).outcome = .ok base ∧
      (∀ n, Expr.Within n e → n.accessesArray = false ∧ n.subtractsDates = false) ∧
      (∀ n, Expr.Within n e → n.isAdded = false) ∧
      (base.translate e).outcome = .ok s ∧ t.translate e = base.translate e := by
  intro columns e
  have hleaves : ∀ n, Expr.Within n e → n = e ∨ n ∈ e.children := by
    intro n hn
    cases hn with
    | root => exact .inl rfl
    | child hc hn =>
      right
      simp only [e, Expr.children, List.mem_cons, List.not_mem_nil, or_false] at hc ⊢
      rcases hc with rfl | rfl
      · exact .inl (hn.eq_of_leaf rfl)
      · exact .inr (hn.eq_of_leaf rfl)
  have hplain : ∀ n, Expr.Within n e →
      (n.accessesArray = false ∧ n.subtractsDates = false) ∧ n.isAdded = false := by
    intro n hn
    rcases hleaves n hn with rfl | hn
    · exact ⟨⟨rfl, rfl⟩, rfl⟩
    · simp only [e, Expr.children, List.mem_cons, List.not_mem_nil, or_false] at hn
      rcases hn with rfl | rfl
      · exact ⟨⟨rfl, rfl⟩, rfl⟩
      · exact ⟨⟨rfl, rfl⟩, rfl⟩
  obtain ⟨base, s, hbase, hs, -⟩ := exists_translation (relational columns {} Catalog.standard []) e
    (fun _ => true) (by decide +kernel)
  obtain ⟨t, -, ht, -, -⟩ := exists_translation (postgres columns {} Catalog.standard []) e
    (fun _ => true) (by decide +kernel)
  obtain ⟨base', hbase', hextends⟩ := extends_relational ht
  cases hbase.symm.trans hbase'
  obtain ⟨-, hsame⟩ := hextends e fun n hn => (hplain n hn).1
  exact ⟨t, base, s, ht, hbase, fun n hn => (hplain n hn).1, fun n hn => (hplain n hn).2, hs,
    hsame fun n hn => (hplain n hn).2⟩

end Translator

end QuerySql
