import QuerySql.Proofs.Steps

/-!
# Translating more without translating otherwise

`x.Below y` says of two attempts that the second one finds whatever the first one finds. Everything
that attempts are put together with keeps this, and so do the strategies: no part of a translation
is ever chosen because another part could not be translated.

* `Strategy.Below.run`: if a strategy finds more in each step, it finds more in a run.
* `Relational.below_strategy` and `Postgres.below_strategy`: what the scalar translators find more
  of is all that the strategies find more of.
* `Translator.translate_of_fewer`: translators that are added at the end change no translation.
-/

namespace QuerySql

/-! ## Attempts -/

namespace Attempt

variable {α β : Type}

/-- The second attempt finds whatever the first one finds. -/
def Below (x y : Attempt α) : Prop := ∀ a, x.outcome = .ok a → y.outcome = .ok a

theorem Below.refl (x : Attempt α) : x.Below x := fun _ => id

theorem Fails.below {x : Attempt α} (h : x.Fails) (y : Attempt α) : x.Below y :=
  fun a ha => absurd ha (h a)

/-- If both steps find more, so does the whole. -/
theorem below_bind {x y : Attempt α} {f g : α → Attempt β} (h : x.Below y)
    (hfg : ∀ a, (f a).Below (g a)) : (x >>= f).Below (y >>= g) := by
  intro c hc
  obtain ⟨a, ha, hc⟩ := Run.outcome_bind_eq_ok.mp hc
  rw [outcome_bind_ok (h a ha)]
  exact hfg a c hc

/-- What follows the attempts is the same. -/
theorem below_bind_left {x y : Attempt α} (h : x.Below y) (f : α → Attempt β) :
    (x >>= f).Below (y >>= f) :=
  below_bind h fun a => Below.refl (f a)

theorem below_reportDecline {x y : Attempt α} (h : x.Below y) (e e' : Event) :
    (x.reportDecline e).Below (y.reportDecline e') := by
  intro a ha
  rw [outcome_reportDecline] at ha ⊢
  exact h a ha

/-- The alternative is tried in both cases or in none. -/
theorem below_orElse {x x' y y' : Attempt α} (h : x.Below x') (hd : x.Declines → x'.Declines)
    (hy : y.Below y') : (x <|> y).Below (x' <|> y') := by
  intro a ha
  cases hx : x.outcome with
  | ok b =>
    rw [outcome_orElse_of_ok hx] at ha
    rw [outcome_orElse_of_ok (h b hx), ha]
  | error e =>
    cases e with
    | declined =>
      rw [outcome_orElse_of_declines hx] at ha
      rw [outcome_orElse_of_declines (hd hx)]
      exact hy a ha
    | broken f =>
      rw [outcome_orElse_of_broken hx] at ha
      cases ha

theorem below_both {x x' : Attempt α} {y y' : Attempt β} (hx : x.Below x') (hy : y.Below y') :
    (both x y).Below (both x' y') := by
  rintro ⟨a, c⟩ hac
  obtain ⟨ha, hc⟩ := outcome_both_eq_ok hac
  exact outcome_both_ok (hx a ha) (hy c hc)

theorem below_all {f g : β → Attempt α} {xs : List β} (h : ∀ x ∈ xs, (f x).Below (g x)) :
    (all f xs).Below (all g xs) := by
  induction xs with
  | nil => exact Below.refl _
  | cons x xs ih =>
    refine below_bind (h x List.mem_cons_self) fun a => ?_
    exact below_bind_left (ih fun y hy => h y (List.mem_cons_of_mem _ hy)) _

end Attempt

/-! ## Strategies -/

/-- Whatever translates the smaller trees, the second strategy finds what the first one finds. -/
def Strategy.Below (s s' : Strategy) : Prop :=
  ∀ recur recur' : Expr → Attempt Sql, (∀ d, (recur d).Below (recur' d)) →
    ∀ e, (s recur e).Below (s' recur' e)

/-- By induction on the number of nodes: the trees that a run asks for have fewer. -/
theorem Strategy.Below.run {s s' : Strategy} (h : s.Below s') (e : Expr) :
    (s.run e).Below (s'.run e) := by
  induction hn : e.nodes using Nat.strongRecOn generalizing e with
  | ind n ih =>
    subst hn
    rw [Strategy.run, Strategy.run]
    refine h _ _ (fun d => ?_) e
    by_cases hd : d.nodes < e.nodes
    · simp only [hd, dite_true]
      exact ih d.nodes hd d rfl
    · simp only [hd, dite_false]
      exact Attempt.Below.refl _

/-- A call that one of the first translators takes never gets to those behind. -/
theorem ScalarTranslator.below_firstOf_append (ts more : List ScalarTranslator) (c : ScalarCall) :
    (firstOf ts c).Below (firstOf (ts ++ more) c) := by
  induction ts with
  | nil => exact Attempt.fails_decline.below _
  | cons t ts ih => exact Attempt.below_orElse (Attempt.Below.refl _) id ih

/-- The same strategy, but for scalar translators that find more. -/
structure Relational.Below (r r' : Relational) : Prop where
  builder : r'.builder = r.builder
  columns : r'.columns = r.columns
  scalars : ∀ c,
    (ScalarTranslator.firstOf r.scalars c).Below (ScalarTranslator.firstOf r'.scalars c)

theorem Relational.Below.refl (r : Relational) : r.Below r := ⟨rfl, rfl, fun _ => .refl _⟩

/-! ### The relational strategy -/

namespace Relational

variable {r r' : Relational} (h : r.Below r') {recur recur' : Expr → Attempt Sql}

include h

/-- A call that is taken by the scalar translators of the one is taken, with the same result, by
those of the other. -/
theorem below_callOn (c : ScalarCall) : (r.callOn c).Below (r'.callOn c) := by
  unfold callOn
  rw [h.builder]
  split
  · exact Attempt.Below.refl _
  · split
    · exact Attempt.Below.refl _
    · exact Attempt.below_reportDecline (h.scalars c) _ _

theorem below_unary {op : ExprUnaryOp} {x : Expr} (hx : (recur x).Below (recur' x)) (ty : Ty) :
    (r.unary recur op x ty).Below (r'.unary recur' op x ty) := by
  unfold unary
  rw [h.builder]
  exact Attempt.below_bind_left hx _

theorem below_binary {op : ExprOp} {x y : Expr} (hx : (recur x).Below (recur' x))
    (hy : (recur y).Below (recur' y)) :
    (r.binary recur op x y).Below (r'.binary recur' op x y) := by
  unfold binary operator
  rw [h.builder]
  split
  next check operand hcheck =>
    have hoperand : (recur operand).Below (recur' operand) := by
      rcases nullCheck?_operand hcheck with rfl | rfl
      · exact hx
      · exact hy
    exact Attempt.below_bind_left hoperand _
  next => exact Attempt.below_bind hx fun _ => Attempt.below_bind_left hy _

/-- A call is found after its operands. -/
theorem below_call {method : Method} {receiver : Option Expr} {args : List Expr}
    (hc : ∀ c ∈ receiver.toList ++ args, (recur c).Below (recur' c)) :
    (r.call recur method receiver args).Below (r'.call recur' method receiver args) := by
  have hreceiver : (receiverOf recur receiver).Below (receiverOf recur' receiver) := by
    cases receiver with
    | none => exact Attempt.Below.refl _
    | some e => exact Attempt.below_bind_left (hc e List.mem_cons_self) _
  have hargs : (Attempt.all recur args).Below (Attempt.all recur' args) :=
    Attempt.below_all fun c hmem => hc c (List.mem_append_right _ hmem)
  exact Attempt.below_bind hreceiver fun _ => Attempt.below_bind hargs fun _ => below_callOn h _

/-- The strategy asks for the children of a node only, and for all of them that it uses. -/
theorem below_strategy {e : Expr} (hc : ∀ c ∈ e.children, (recur c).Below (recur' c)) :
    (r.strategy recur e).Below (r'.strategy recur' e) := by
  cases e with
  | unary op x ty => exact below_unary h (hc x List.mem_cons_self) ty
  | binary op x y ty =>
    exact below_binary h (hc x List.mem_cons_self)
      (hc y (List.mem_cons_of_mem _ List.mem_cons_self))
  | call method receiver args => exact below_call h hc
  | const | queryParam | property =>
    simp only [strategy, property, h.builder, h.columns]
    exact Attempt.Below.refl _
  | lambdaParam | construct | newArray | lambda => exact Attempt.Below.refl _

end Relational

/-! ### The PostgreSQL strategy -/

namespace Postgres

variable {p : Postgres} {recur recur' : Expr → Attempt Sql}
  (h : ∀ d, (recur d).Below (recur' d))

include h

theorem below_arrayLength (x : Expr) :
    (p.arrayLength recur x).Below (p.arrayLength recur' x) :=
  Attempt.below_bind_left (h x) _

theorem below_arrayIndex (x y : Expr) (ty : Ty) :
    (p.arrayIndex recur x y ty).Below (p.arrayIndex recur' x y ty) :=
  Attempt.below_bind_left (Attempt.below_both (h _) (h _)) _

theorem below_dateDifference (x y : Expr) :
    (p.dateDifference recur x y).Below (p.dateDifference recur' x y) :=
  Attempt.below_bind_left (Attempt.below_both (h x) (h y)) _

theorem below_newArray (items : List Expr) (ty : Ty) :
    (p.newArray recur items ty).Below (p.newArray recur' items ty) :=
  Attempt.below_bind_left (Attempt.below_reportDecline (Attempt.below_all fun x _ => h x) _ _) _

theorem below_operands (x y : Expr) : (operands recur x y).Below (operands recur' x y) :=
  Attempt.below_bind (h x) fun _ => Attempt.below_bind_left (h y) _

/-- The patterns over arrays ask for operands and for membership tests, which are smaller. -/
theorem below_arrayPattern (q : Quantifier) (array : Expr) (param : Parameter)
    (pattern : ArrayPattern) :
    (p.arrayPattern recur q array param pattern).Below
      (p.arrayPattern recur' q array param pattern) := by
  cases pattern with
  | likeElement ignoreCase subject =>
    refine Attempt.below_bind (.refl _) fun _ => ?_
    exact Attempt.below_bind_left (below_operands h subject array) _
  | memberOf other =>
    refine Attempt.below_bind (.refl _) fun _ => ?_
    exact Attempt.below_bind_left (below_operands h array other) _
  | equalTo other =>
    refine Attempt.below_bind (.refl _) fun _ => ?_
    exact h (.call (Known.close (.sequence .contains) [param.ty]) none [array, other])

theorem below_labelPattern (pattern : LabelPattern) :
    (p.labelPattern recur pattern).Below (p.labelPattern recur' pattern) := by
  cases pattern with
  | anyQuery path queries =>
    refine Attempt.below_bind (.refl _) fun _ => ?_
    exact Attempt.below_bind_left (Attempt.below_both (h path) (h queries)) _
  | pathsBy method op first paths other =>
    refine Attempt.below_bind (.refl _) fun _ => ?_
    exact Attempt.below_bind_left (Attempt.below_both (h paths) (h other)) _

/-- Whether a call is rewritten is seen from its shape. -/
theorem below_lambdaCall? (method : Method) (args : List Expr) :
    Option.Rel Attempt.Below (p.lambdaCall? recur method args)
      (p.lambdaCall? recur' method args) := by
  unfold lambdaCall?
  split
  · exact .none
  · split
    next q array param pattern _ => exact .some (below_arrayPattern h q array param pattern)
    next =>
      cases LabelPattern.ofCall? method args with
      | none => exact .none
      | some pattern => exact .some (below_labelPattern h pattern)

theorem below_make (function : String) (args : List Expr) (ty : Ty) (mapping : Option Mapping) :
    (p.make recur function args ty mapping).Below (p.make recur' function args ty mapping) :=
  Attempt.below_bind_left (Attempt.below_all fun x _ => h x) _

theorem below_timestampOfKind (kind : TimestampKind) (parts : List Expr) :
    (p.timestampOfKind recur kind parts).Below (p.timestampOfKind recur' kind parts) := by
  unfold timestampOfKind
  split
  · exact below_make h _ _ _ _
  · exact below_make h _ _ _ _

theorem below_construct (c : Constructor) (args : List Expr) :
    (p.construct recur c args).Below (p.construct recur' c args) := by
  unfold construct
  split
  · exact Attempt.below_bind_left (Attempt.below_all fun x _ => h x) _
  split
  · exact below_make h _ _ _ _
  split
  · exact below_make h _ _ _ _
  split
  · split
    · exact below_make h _ _ _ _
    · exact Attempt.Below.refl _
  split
  · split
    · exact below_timestampOfKind h _ _
    · exact Attempt.Below.refl _
  · exact Attempt.Below.refl _

/-- The two recursions intercept the same nodes, and what is found for one is found for the other.
-/
theorem below_intercept? (e : Expr) :
    Option.Rel Attempt.Below (p.intercept? recur e) (p.intercept? recur' e) := by
  unfold intercept?
  split
  next x ty => exact .some (below_arrayLength h x)
  next x ty =>
    split
    · exact .some (h x)
    · exact .none
  next method receiver args => exact below_lambdaCall? h method args
  next x y ty =>
    split
    · exact .some (below_dateDifference h _ _)
    · exact .none
  next x y ty => exact .some (below_arrayIndex h x y ty)
  next => exact .none

omit h in
/-- What the relational strategy behind finds more of is found, and nothing else changes: of
constructors and array literals it finds nothing in either case. -/
theorem below_strategy (p : Postgres) {r r' : Relational} (hr : r.Below r') :
    (p.strategy r.strategy).Below (p.strategy r'.strategy) := by
  intro recur recur' h e
  have hbehind : (r.strategy recur e).Below (r'.strategy recur' e) :=
    Relational.below_strategy hr fun c _ => h c
  unfold strategy
  split
  next sized items ty =>
    -- The relational strategy declines array literals, so the alternative is tried in both.
    refine Attempt.below_orElse hbehind (fun _ => rfl) ?_
    split
    · exact Attempt.Below.refl _
    · exact below_newArray h items ty
  next c args => exact Attempt.below_orElse hbehind (fun _ => rfl) (below_construct h c args)
  next =>
    have hintercept := below_intercept? (p := p) h e
    generalize p.intercept? recur e = x at hintercept ⊢
    generalize p.intercept? recur' e = x' at hintercept ⊢
    cases hintercept with
    | none => exact hbehind
    | some hx => exact hx

end Postgres

/-! ## Translators -/

namespace Translator

variable {columns : ColumnLookup} {options : Options} {catalog : Catalog}
  {added : List ScalarTranslator} {t : Translator}

/-- Whatever a translator translates, it translates in the same way after more scalar translators
have been added. They may take any call that none of the others takes, and break off in it. -/
theorem translate_of_fewer (ht : (postgres columns options catalog added).outcome = .ok t)
    (more : List ScalarTranslator) :
    ∃ t', (postgres columns options catalog (added ++ more)).outcome = .ok t' ∧
      ∀ e s, (t.translate e).outcome = .ok s → (t'.translate e).outcome = .ok s := by
  obtain ⟨v, b, p, hv, hb, hp, rfl⟩ := outcome_postgres_eq_ok.mp ht
  refine ⟨_, outcome_postgres_eq_ok.mpr ⟨v, b, p, hv, hb, hp, rfl⟩, fun e s => ?_⟩
  have hfewer : Relational.Below ⟨b, Scalar.builtIn b options ++ added, columns⟩
      ⟨b, Scalar.builtIn b options ++ (added ++ more), columns⟩ := by
    refine ⟨rfl, rfl, fun c => ?_⟩
    rw [← List.append_assoc]
    exact ScalarTranslator.below_firstOf_append _ more c
  exact Strategy.Below.run (Postgres.below_strategy p hfewer) e s

/-- A translator that is added for the methods named `ToLower` does not get the method of texts. -/
theorem lower_stays_lower :
    let columns : ColumnLookup := fun _ name => some { name := name, ty := .string }
    let e : Expr :=
      .call (Known.close (.text .toLower) []) (some (.property none "Name" .string)) []
    let shadow := ScalarTranslator.named "ToLower" "my_lower"
    ∃ t t' s, (postgres columns {} Catalog.standard []).outcome = .ok t ∧
      (t.translate e).outcome = .ok s ∧
      (postgres columns {} Catalog.standard [shadow]).outcome = .ok t' ∧
      (t'.translate e).outcome = .ok s ∧ isCallOf "lower" s = true := by
  intro columns e shadow
  obtain ⟨t, s, ht, hs, hcall⟩ := exists_translation (postgres columns {} Catalog.standard []) e
    (isCallOf "lower") (by decide +kernel)
  obtain ⟨t', ht', hmore⟩ := translate_of_fewer ht [shadow]
  exact ⟨t, t', s, ht, hs, ht', hmore e s hs, hcall⟩

end Translator

end QuerySql
