import QuerySql.Proofs.Closure.Translation
import QuerySql.Proofs.Retouch.Scalars

/-!
# Translations, retouched

The strategies look at the details that a retouching changes as little as the scalar translators do.
Where it forgets letter case, the methods of an expression may forget it beforehand: what is found
for the expression, retouched, is what is found for the expression with these methods. The reports
tell the two methods apart, so then the outcomes alone agree.

* `Attempt.Same`: two attempts come to the same, and perhaps leave the same reports.
* `Strategy.RetouchesTo.run`: what holds of a step holds of a run.
* `Postgres.retouch_run`: what a run finds, retouched, is what a run by scalar translators that are
  so related finds for the expression with its letter case changed.
* `Postgres.rename_run`: so two runs whose scalar translators differ in the names of functions only
  find trees that differ in these names only, and leave the same reports.
-/

namespace QuerySql

namespace Attempt

variable {α β γ δ : Type} {quiet : Bool}

/-- The attempts come to the same. Unless reports are disregarded, they are the same attempt. -/
structure Same (quiet : Bool) (x y : Attempt α) : Prop where
  outcome : x.outcome = y.outcome
  eq : quiet = false → x = y

namespace Same

theorem of_eq {x y : Attempt α} (h : x = y) : Same quiet x y := ⟨congrArg Run.outcome h, fun _ => h⟩

theorem refl (x : Attempt α) : Same quiet x x := of_eq rfl

theorem trans {x y z : Attempt α} (h : Same quiet x y) (h' : Same quiet y z) : Same quiet x z :=
  ⟨h.outcome.trans h'.outcome, fun hq => (h.eq hq).trans (h'.eq hq)⟩

theorem report {e e' : Event} (h : quiet = false → e = e') :
    Same quiet (Attempt.report e) (Attempt.report e') :=
  ⟨rfl, fun hq => congrArg Attempt.report (h hq)⟩

theorem reportDecline {x y : Attempt α} {e e' : Event} (h : Same quiet x y)
    (he : quiet = false → e = e') : Same quiet (x.reportDecline e) (y.reportDecline e') where
  outcome := by rw [outcome_reportDecline, outcome_reportDecline, h.outcome]
  eq hq := by rw [h.eq hq, he hq]

theorem bind {x y : Attempt α} {k l : α → Attempt β} (h : Same quiet x y)
    (hk : ∀ a, Same quiet (k a) (l a)) : Same quiet (x >>= k) (y >>= l) where
  outcome := by
    rw [Run.outcome_bind, Run.outcome_bind, h.outcome]
    exact congrArg _ (funext fun a => (hk a).outcome)
  eq hq := by rw [h.eq hq, funext fun a => (hk a).eq hq]

/-- What follows is done with the results as the function has left them. -/
theorem map_andThen {f : α → β} {g : γ → δ} {x : Attempt α} {y : Attempt β} {k : α → Attempt γ}
    {l : β → Attempt δ} (hx : Same quiet (f <$> x) y) (hk : ∀ a, Same quiet (g <$> k a) (l (f a))) :
    Same quiet (g <$> (x >>= k)) (y >>= l) := by
  have hresults : g <$> (x >>= k) = x >>= fun a => g <$> k a := by rw [map_bind]
  have hfound : (f <$> x) >>= l = x >>= fun a => l (f a) := bind_map_left f x l
  refine (of_eq hresults).trans (((refl x).bind hk).trans ?_)
  exact (of_eq hfound.symm).trans (hx.bind fun b => refl (l b))

theorem orElse {x x' y y' : Attempt α} (hx : Same quiet x x') (hy : Same quiet y y') :
    Same quiet (x <|> y) (x' <|> y') where
  outcome := (outcome_orElse_congr_left hx.outcome).trans (outcome_orElse_congr hy.outcome)
  eq hq := by rw [hx.eq hq, hy.eq hq]

theorem both {x x' : Attempt α} {y y' : Attempt β} (hx : Same quiet x x') (hy : Same quiet y y') :
    Same quiet (Attempt.both x y) (Attempt.both x' y') where
  outcome := outcome_both_congr hx.outcome hy.outcome
  eq hq := by rw [hx.eq hq, hy.eq hq]

theorem all {ι : Type} {g h : ι → Attempt α} (hgh : ∀ i, Same quiet (g i) (h i)) (is : List ι) :
    Same quiet (Attempt.all g is) (Attempt.all h is) := by
  induction is with
  | nil => exact refl _
  | cons i is ih => exact (hgh i).bind fun a => ih.bind fun as => refl _

end Same

end Attempt

open Attempt (Same)

variable {σ : Retouch}

namespace Retouch

/-- What the first attempt finds, retouched, is what the second one finds. -/
abbrev Leads (σ : Retouch) (x y : Attempt Sql) : Prop := Same σ.forgetsCase (Sql.retouch σ <$> x) y

theorem Leads.bind {x y : Attempt Sql} {k l : Sql → Attempt Sql} (h : σ.Leads x y)
    (hk : ∀ s, Sql.retouch σ <$> k s = l (s.retouch σ)) : σ.Leads (x >>= k) (y >>= l) :=
  Same.map_andThen h fun s => .of_eq (hk s)

theorem Leads.both {x x' y y' : Attempt Sql} {k l : Sql × Sql → Attempt Sql} (hx : σ.Leads x x')
    (hy : σ.Leads y y')
    (hk : ∀ s t, Sql.retouch σ <$> k (s, t) = l (s.retouch σ, t.retouch σ)) :
    σ.Leads (Attempt.both x y >>= k) (Attempt.both x' y' >>= l) := by
  refine Same.map_andThen (f := Prod.map (Sql.retouch σ) (Sql.retouch σ)) ?_ fun (s, t) =>
    .of_eq (hk s t)
  rw [← Attempt.both_map]
  exact Same.both hx hy

theorem Leads.orElse {x x' y y' : Attempt Sql} (hx : σ.Leads x x') (hy : σ.Leads y y') :
    σ.Leads (x <|> y) (x' <|> y') := by
  unfold Leads
  rw [Attempt.map_orElse]
  exact Same.orElse hx hy

/-- A report changes nothing of what is found after it. -/
theorem Leads.after {e e' : Event} {x y : Attempt Sql} (h : σ.Leads x y)
    (he : σ.forgetsCase = false → e = e') :
    σ.Leads (Attempt.report e >>= fun _ => x) (Attempt.report e' >>= fun _ => y) := by
  refine Same.map_andThen (f := id) ?_ fun _ => h
  rw [id_map]
  exact .report he

/-- What the first function finds for an expression, retouched, is what the second one finds for the
expression with its letter case changed. -/
abbrev LeadsAll (σ : Retouch) (recur recur' : Expr → Attempt Sql) : Prop :=
  ∀ d, σ.Leads (recur d) (recur' (d.recase σ.ignores))

theorem LeadsAll.all {recur recur' : Expr → Attempt Sql} (h : σ.LeadsAll recur recur')
    (es : List Expr) : Same σ.forgetsCase (List.map (Sql.retouch σ) <$> Attempt.all recur es)
      (Attempt.all recur' (es.map (Expr.recase σ.ignores))) := by
  rw [← Attempt.all_map, Attempt.all_comp]
  exact Same.all h es

end Retouch

/-- If the second strategy is given, for the trees that it asks for, what the first one is given,
retouched, then it finds what the first one finds, retouched. -/
def Strategy.RetouchesTo (σ : Retouch) (s s' : Strategy) : Prop :=
  ∀ recur recur' : Expr → Attempt Sql, σ.LeadsAll recur recur' →
    σ.LeadsAll (s recur) (s' recur')

/-- By induction on the number of nodes: the trees that a run asks for have fewer. -/
theorem Strategy.RetouchesTo.run {s s' : Strategy} (h : s.RetouchesTo σ s') :
    σ.LeadsAll s.run s'.run := by
  intro e
  induction hn : e.nodes using Nat.strongRecOn generalizing e with
  | ind n ih =>
    subst hn
    rw [Strategy.run, Strategy.run]
    refine h _ _ (fun d => ?_) e
    simp only [Expr.nodes_recase]
    by_cases hd : d.nodes < e.nodes
    · simp only [hd, dite_true]
      exact ih d.nodes hd d rfl
    · simp only [hd, dite_false]
      exact .refl _

/-! ## The relational strategy -/

/-- The same strategy, but for scalar translators that are so related. -/
structure Relational.RetouchesTo (σ : Retouch) (r r' : Relational) : Prop where
  builder : r'.builder = r.builder
  columns : r'.columns = r.columns
  scalars : ∀ c, σ.Leads (ScalarTranslator.firstOf r.scalars c)
    (ScalarTranslator.firstOf r'.scalars ((c.retouch σ).recase σ.ignores))

/-- The built-in translators, by the options that they depend on. -/
theorem Scalar.leads_builtIn {b : Builder} {o o' : Options}
    (hredshift : o'.useRedshift = o.useRedshift)
    (hposition : o.useRedshift = true ∨ σ.name "array_position" = "array_position")
    (hguid : σ.name (Numbers.newGuidFunction (o.isVersionAtLeast 13 0)) =
      Numbers.newGuidFunction (o'.isVersionAtLeast 13 0)) (c : ScalarCall) :
    σ.Leads (ScalarTranslator.firstOf (builtIn b o) c)
      (ScalarTranslator.firstOf (builtIn b o') ((c.retouch σ).recase σ.ignores)) := by
  rcases σ.spares_or_like c.method with hc | ⟨hcase, ignoreCase, withEscape, hk⟩
  · rw [ScalarCall.recase, Method.recase_eq_self hc, builtIn_eq_map, builtIn_eq_map]
    exact .of_eq (ScalarTranslator.retouch_firstOf
      (retouchesTo_builtIn hredshift hposition hguid) _ c hc)
  · have hk' : Known.identify? (c.method.recase σ.ignores) =
        some (.like (σ.ignores ignoreCase) withEscape) := by
      rw [Known.identify?_recase, hk]
      rfl
    refine ⟨?_, fun hkept => absurd (hkept.symm.trans hcase) Bool.false_ne_true⟩
    -- whoever else may take the calls, all that is found is found by the translator of matches
    have hfound : (ScalarTranslator.firstOf (builtIn b o) c).outcome = _ :=
      outcome_builtIn_of_family (ScalarCall.family?_of_known hk)
    have hfamily' := ScalarCall.family?_of_known (c := (c.retouch σ).recase σ.ignores) hk'
    have hfound' : (ScalarTranslator.firstOf (builtIn b o') _).outcome = _ :=
      outcome_builtIn_of_family hfamily'
    have htranslate := congrArg Run.outcome (Patterns.retouch_like (σ := σ) (b := b) c)
    rw [Attempt.map_eq] at htranslate ⊢
    rw [hfound, hfound']
    exact htranslate

namespace Relational

/-- The strategies of two providers, by the options that they depend on. -/
theorem retouchesTo_builtIn {b : Builder} {columns : ColumnLookup} {o o' : Options}
    (hredshift : o'.useRedshift = o.useRedshift)
    (hposition : o.useRedshift = true ∨ σ.name "array_position" = "array_position")
    (hguid : σ.name (Scalar.Numbers.newGuidFunction (o.isVersionAtLeast 13 0)) =
      Scalar.Numbers.newGuidFunction (o'.isVersionAtLeast 13 0)) :
    RetouchesTo σ ⟨b, Scalar.builtIn b o, columns⟩ ⟨b, Scalar.builtIn b o', columns⟩ :=
  ⟨rfl, rfl, Scalar.leads_builtIn hredshift hposition hguid⟩

variable {r r' : Relational} (h : r.RetouchesTo σ r') {recur recur' : Expr → Attempt Sql}

theorem nullCheck?_recase (f : Bool → Bool) (op : ExprOp) (x y : Expr) :
    nullCheck? op (x.recase f) (y.recase f) =
      (nullCheck? op x y).map fun p => (p.1, p.2.recase f) := by
  unfold nullCheck?
  rw [Expr.isNullConst_recase, Expr.isNullConst_recase]
  cases op with
  | plain op => cases op <;> cases x.isNullConst <;> cases y.isNullConst <;> rfl
  | _ => rfl

include h

theorem retouch_property (source : Option String) (name : String) :
    Sql.retouch σ <$> r.property source name = r'.property source name := by
  unfold property
  rw [h.builder, h.columns]
  split
  · rfl
  · simp

theorem retouch_operator (op : ExprOp) (x y : Sql) :
    Sql.retouch σ <$> r.operator op x y = r'.operator op (x.retouch σ) (y.retouch σ) := by
  unfold operator
  rw [h.builder]
  cases op <;> simp

theorem retouch_callOn (c : ScalarCall) :
    σ.Leads (r.callOn c) (r'.callOn ((c.retouch σ).recase σ.ignores)) := by
  obtain ⟨receiver, method, args⟩ := c
  unfold callOn
  simp only [h.builder, Known.identify?_recase_iff (k := .objectEquals) nofun,
    Method.name_recase "Equals" (by decide)]
  split
  · rcases args with _ | ⟨x, _ | ⟨y, _ | ⟨z, args⟩⟩⟩ <;> exact .of_eq (by simp)
  · -- The report names the method, which is the same if reports are to be kept.
    have hrest : σ.Leads
        ((ScalarTranslator.firstOf r.scalars ⟨receiver, method, args⟩).reportDecline
          (.untakenMethod method))
        ((ScalarTranslator.firstOf r'.scalars
          ((ScalarCall.retouch σ ⟨receiver, method, args⟩).recase σ.ignores)).reportDecline
            (.untakenMethod (method.recase σ.ignores))) := by
      unfold Retouch.Leads
      rw [Attempt.map_reportDecline]
      refine (h.scalars ⟨receiver, method, args⟩).reportDecline fun hq => ?_
      rw [Retouch.ignores_eq_id hq, Method.recase_id]
    cases decide (method.name = "Equals") with
    | false => exact hrest
    | true =>
      rcases receiver with _ | x
      · exact hrest
      rcases args with _ | ⟨y, _ | ⟨z, args⟩⟩
      · exact hrest
      · exact .of_eq (by simp)
      · exact hrest

variable (hrec : σ.LeadsAll recur recur')

include hrec

omit h in
theorem retouch_receiverOf (receiver : Option Expr) :
    Same σ.forgetsCase (Option.map (Sql.retouch σ) <$> receiverOf recur receiver)
      (receiverOf recur' (receiver.map (Expr.recase σ.ignores))) := by
  cases receiver with
  | none => exact .refl _
  | some e => exact Same.map_andThen (hrec e) fun x => .refl _

theorem retouch_unary (op : ExprUnaryOp) (x : Expr) (ty : Ty) :
    σ.Leads (r.unary recur op x ty) (r'.unary recur' op (x.recase σ.ignores) ty) := by
  refine Retouch.Leads.bind (hrec x) fun s => ?_
  rw [h.builder, Expr.ty_recase]
  cases op with
  | not =>
    simp only [Sql.ty_retouch]
    split <;> simp
  | negate => simp
  | convert | convertChecked =>
    simp only
    split <;> simp
  | arrayLength => exact Builder.retouch_call _ (by decide) _ _ _

theorem retouch_binary (op : ExprOp) (x y : Expr) :
    σ.Leads (r.binary recur op x y)
      (r'.binary recur' op (x.recase σ.ignores) (y.recase σ.ignores)) := by
  unfold binary
  rw [nullCheck?_recase]
  cases nullCheck? op x y with
  | some p => exact Retouch.Leads.bind (hrec p.2) fun s => by simp [h.builder]
  | none =>
    refine Same.map_andThen (hrec x) fun s => ?_
    exact Retouch.Leads.bind (hrec y) fun t => retouch_operator h op s t

theorem retouch_call (method : Method) (receiver : Option Expr) (args : List Expr) :
    σ.Leads (r.call recur method receiver args)
      (r'.call recur' (method.recase σ.ignores) (receiver.map (Expr.recase σ.ignores))
        (args.map (Expr.recase σ.ignores))) := by
  refine Same.map_andThen (retouch_receiverOf hrec receiver) fun x => ?_
  exact Same.map_andThen (hrec.all args) fun xs => retouch_callOn h ⟨x, method, xs⟩

omit hrec in
theorem retouchesTo_strategy : r.strategy.RetouchesTo σ r'.strategy := by
  intro recur recur' hrec e
  cases e with
  | const v ty => exact .of_eq (by simp [strategy, h.builder])
  | queryParam p => exact .of_eq (by simp [strategy, h.builder])
  | property source name ty => exact .of_eq (retouch_property h source name)
  | unary op x ty => exact retouch_unary h hrec op x ty
  | binary op x y ty => exact retouch_binary h hrec op x y
  | call method receiver args =>
    simp only [Expr.recase, Expr.recaseOption_eq_map, Expr.recaseAll_eq_map]
    exact retouch_call h hrec method receiver args
  | lambdaParam | construct | newArray | lambda => exact .refl _

end Relational

/-! ## The PostgreSQL strategy -/

namespace Postgres

variable {p : Postgres} {recur recur' : Expr → Attempt Sql} (hrec : σ.LeadsAll recur recur')

theorem isBytes_retouch (ty : Ty) (s : Sql) : isBytes ty (s.retouch σ) = isBytes ty s := by
  rw [isBytes, Sql.mapping_retouch, isBytes]

theorem isLocalDate_recase (f : Bool → Bool) (e : Expr) :
    isLocalDate (e.recase f) = isLocalDate e := by
  rw [isLocalDate, Expr.ty_recase, isLocalDate]

theorem timestampParts?_recase (f : Bool → Bool) (args : List Expr) :
    timestampParts? (args.map (Expr.recase f)) =
      (timestampParts? args).map (List.map (Expr.recase f)) := by
  rcases args with _ | ⟨a, _ | ⟨b, _ | ⟨c, _ | ⟨d, _ | ⟨e, _ | ⟨g, args⟩⟩⟩⟩⟩⟩ <;>
    simp [timestampParts?]

theorem timestampKind?_recase (f : Bool → Bool) (args : List Expr) :
    timestampKind? (args.map (Expr.recase f)) = timestampKind? args := by
  unfold timestampKind?
  rw [List.getElem?_map]
  cases args[6]? with
  | none => rfl
  | some e => cases e <;> simp

include hrec

theorem retouch_arrayLength (x : Expr) :
    σ.Leads (p.arrayLength recur x) (p.arrayLength recur' (x.recase σ.ignores)) := by
  refine Retouch.Leads.bind (hrec x) fun s => ?_
  rw [isBytes_retouch, Expr.ty_recase]
  split <;> simp (disch := decide) [-Builder.strictCall_eq_pure]

theorem retouch_arrayIndex (x y : Expr) (ty : Ty) :
    σ.Leads (p.arrayIndex recur x y ty)
      (p.arrayIndex recur' (x.recase σ.ignores) (y.recase σ.ignores) ty) := by
  unfold arrayIndex
  rw [Expr.stripImplicit_recase, Expr.stripImplicit_recase]
  refine Retouch.Leads.both (hrec _) (hrec _) fun s t => ?_
  simp only [isBytes_retouch, Expr.ty_recase]
  split
  · exact Builder.retouch_strictCall _ (by decide) _ _ _
  · rw [← Json.retouch_member?]
    cases Json.member? p.builder s t ty <;> simp

theorem retouch_dateDifference (x y : Expr) :
    σ.Leads (p.dateDifference recur x y)
      (p.dateDifference recur' (x.recase σ.ignores) (y.recase σ.ignores)) := by
  refine Retouch.Leads.both (hrec x) (hrec y) fun s t => ?_
  refine Attempt.retouch_bind (by simp) fun days => ?_
  exact Builder.retouch_call _ (show "make_interval" ∉ Function.serverBound by decide) _ _ _

theorem retouch_newArray (items : List Expr) (ty : Ty) :
    σ.Leads (p.newArray recur items ty)
      (p.newArray recur' (items.map (Expr.recase σ.ignores)) ty) := by
  refine Same.map_andThen (f := List.map (Sql.retouch σ)) ?_ fun xs => .of_eq (by simp)
  rw [Attempt.map_reportDecline]
  exact (hrec.all items).reportDecline fun _ => rfl

theorem retouch_operands (x y : Expr) {k l : Sql × Sql → Attempt Sql}
    (hk : ∀ s t, Sql.retouch σ <$> k (s, t) = l (s.retouch σ, t.retouch σ)) :
    σ.Leads (operands recur x y >>= k)
      (operands recur' (x.recase σ.ignores) (y.recase σ.ignores) >>= l) := by
  refine Same.map_andThen (f := Prod.map (Sql.retouch σ) (Sql.retouch σ)) ?_ fun (s, t) =>
    .of_eq (hk s t)
  refine Same.map_andThen (hrec x) fun s => ?_
  exact Same.map_andThen (hrec y) fun t => .refl _

theorem retouch_arrayPattern (q : Quantifier) (array : Expr) (param : Parameter)
    (pattern : ArrayPattern) : σ.Leads (p.arrayPattern recur q array param pattern)
      (p.arrayPattern recur' q (array.recase σ.ignores) param (pattern.recase σ.ignores)) := by
  cases pattern with
  | likeElement ignoreCase subject =>
    refine Retouch.Leads.after (retouch_operands hrec subject array fun s t => ?_) fun hq => ?_
    · simp [Retouch.elementOp_pattern]
    · rw [Retouch.ignores_eq_id hq, id]
  | memberOf other =>
    exact Retouch.Leads.after (retouch_operands hrec array other fun s t => by simp) fun _ => rfl
  | equalTo other =>
    refine Retouch.Leads.after ?_ fun _ => rfl
    have hcontains : ((Known.sequence .contains).close [param.ty]).recase σ.ignores =
        (Known.sequence .contains).close [param.ty] :=
      Method.recase_of_not_like fun _ _ => by rw [Known.identify?_contains]; nofun
    have hcall := hrec (.call ((Known.sequence .contains).close [param.ty]) none [array, other])
    simp only [Expr.recase, Expr.recaseOption_eq_map, Expr.recaseAll_eq_map, hcontains] at hcall
    exact hcall

theorem retouch_labelPattern (pattern : LabelPattern) :
    σ.Leads (p.labelPattern recur pattern)
      (p.labelPattern recur' (pattern.recase σ.ignores)) := by
  cases pattern with
  | anyQuery path queries =>
    refine Retouch.Leads.after ?_ fun _ => rfl
    exact Retouch.Leads.both (hrec path) (hrec queries) fun s t => by simp
  | pathsBy method op first paths other =>
    refine Retouch.Leads.after ?_ fun _ => rfl
    exact Retouch.Leads.both (hrec paths) (hrec other) fun s t => by simp

/-- Whether a call is taken does not change, and what is made of it changes as it has to. -/
theorem retouch_lambdaCall? (method : Method) (args : List Expr) {x y : Attempt Sql}
    (hbehind : σ.Leads x y) : σ.Leads ((p.lambdaCall? recur method args).getD x)
      ((p.lambdaCall? recur' (method.recase σ.ignores)
        (args.map (Expr.recase σ.ignores))).getD y) := by
  have hhead : (args.map (Expr.recase σ.ignores)).head?.any
      (fun a => a.ty.stripNullable.isArrayOrList) =
        args.head?.any fun a => a.ty.stripNullable.isArrayOrList := by
    cases args <;> simp
  unfold lambdaCall?
  rw [hhead, ArrayPattern.ofCall?_recase, LabelPattern.ofCall?_recase]
  cases args.head?.any fun a => a.ty.stripNullable.isArrayOrList with
  | false => exact hbehind
  | true =>
    cases ArrayPattern.ofCall? method args with
    | some c => exact retouch_arrayPattern hrec c.1 c.2.1 c.2.2.1 c.2.2.2
    | none =>
      cases LabelPattern.ofCall? method args with
      | some pattern => exact retouch_labelPattern hrec pattern
      | none => exact hbehind

theorem retouch_make {function : String} (h : function ∉ Function.serverBound) (args : List Expr)
    (ty : Ty) (m : Option Mapping) : σ.Leads (p.make recur function args ty m)
      (p.make recur' function (args.map (Expr.recase σ.ignores)) ty m) :=
  Same.map_andThen (hrec.all args) fun xs => .of_eq (Builder.retouch_strictCall _ h xs ty m)

theorem retouch_timestampOfKind (kind : TimestampKind) (parts : List Expr) :
    σ.Leads (p.timestampOfKind recur kind parts)
      (p.timestampOfKind recur' kind (parts.map (Expr.recase σ.ignores))) := by
  have hzone : (parts ++ [Expr.ofValue (.string "UTC")]).map (Expr.recase σ.ignores) =
      parts.map (Expr.recase σ.ignores) ++ [Expr.ofValue (.string "UTC")] := by
    simp [Expr.ofValue]
  cases kind with
  | utc =>
    unfold timestampOfKind
    rw [← hzone]
    exact retouch_make hrec (by decide) _ _ _
  | _ => exact retouch_make hrec (by decide) _ _ _

theorem retouch_construct (c : Constructor) (args : List Expr) :
    σ.Leads (p.construct recur c args)
      (p.construct recur' c (args.map (Expr.recase σ.ignores))) := by
  unfold construct
  rw [timestampParts?_recase, timestampKind?_recase]
  split
  · exact Same.map_andThen (hrec.all args) fun xs => .of_eq (by simp)
  split
  · exact retouch_make hrec (by decide) _ _ _
  split
  · exact retouch_make hrec (by decide) _ _ _
  split
  · cases timestampParts? args with
    | some parts => exact retouch_make hrec (by decide) _ _ _
    | none => exact .refl _
  split
  · cases timestampKind? args with
    | none => exact .refl _
    | some kind =>
      cases timestampParts? args with
      | some parts => exact retouch_timestampOfKind hrec kind parts
      | none => exact .refl _
  · exact .refl _

/-- Whether a node is taken does not change, and what is made of it changes as it has to. -/
theorem retouch_intercept? (e : Expr) {x y : Attempt Sql} (hbehind : σ.Leads x y) :
    σ.Leads ((p.intercept? recur e).getD x)
      ((p.intercept? recur' (e.recase σ.ignores)).getD y) := by
  cases e with
  | unary op operand ty =>
    cases op with
    | arrayLength => exact retouch_arrayLength hrec operand
    | convert =>
      simp only [Expr.recase, intercept?, Expr.ty_recase]
      split
      · exact hrec operand
      · exact hbehind
    | _ => exact hbehind
  | call method receiver args =>
    simp only [Expr.recase, Expr.recaseAll_eq_map, intercept?]
    exact retouch_lambdaCall? hrec method args hbehind
  | binary op left right ty =>
    cases op with
    | plain op =>
      cases op with
      | subtract =>
        simp only [Expr.recase, intercept?, Expr.stripImplicit_recase, isLocalDate_recase]
        split
        · exact retouch_dateDifference hrec _ _
        · exact hbehind
      | _ => exact hbehind
    | arrayIndex => exact retouch_arrayIndex hrec left right ty
    | _ => exact hbehind
  | _ => exact hbehind

omit hrec in
theorem strategy_eq_getD (behind : Strategy) {e : Expr}
    (hnew : ∀ sized items ty, e ≠ .newArray sized items ty)
    (hconstruct : ∀ c args, e ≠ .construct c args) :
    p.strategy behind recur e = (p.intercept? recur e).getD (behind recur e) := by
  unfold strategy
  split
  · exact absurd rfl (hnew _ _ _)
  · exact absurd rfl (hconstruct _ _)
  · cases p.intercept? recur e <;> rfl

omit hrec in
theorem retouchesTo_strategy (p : Postgres) {s s' : Strategy} (h : s.RetouchesTo σ s') :
    (p.strategy s).RetouchesTo σ (p.strategy s') := by
  intro recur recur' hrec e
  have hbehind := h recur recur' hrec e
  cases e with
  | newArray sized items ty =>
    refine Retouch.Leads.orElse hbehind ?_
    rw [Expr.recaseAll_eq_map]
    cases sized with
    | true => exact .refl _
    | false => exact retouch_newArray hrec items ty
  | construct c args =>
    refine Retouch.Leads.orElse hbehind ?_
    rw [Expr.recaseAll_eq_map]
    exact retouch_construct hrec c args
  | _ =>
    rw [strategy_eq_getD s, Expr.recase, strategy_eq_getD s']
    · exact retouch_intercept? hrec _ hbehind
    all_goals nofun

omit hrec in
theorem retouch_run (p : Postgres) {r r' : Relational} (h : r.RetouchesTo σ r') :
    σ.LeadsAll (p.run r) (p.run r') :=
  Strategy.RetouchesTo.run (p.retouchesTo_strategy (Relational.retouchesTo_strategy h))

omit hrec in
theorem rename_run (p : Postgres) {ρ : Renaming} {r r' : Relational}
    (h : r.RetouchesTo (.ofRenaming ρ) r') (e : Expr) :
    Sql.rename ρ <$> p.run r e = p.run r' e := by
  have hnames : Sql.retouch (.ofRenaming ρ) = Sql.rename ρ := funext (Sql.retouch_ofRenaming ρ)
  have hrun := (p.retouch_run h e).eq rfl
  rwa [Retouch.ignores_ofRenaming, Expr.recase_id, hnames] at hrun

end Postgres

end QuerySql
