import QuerySql.Json.Access
import QuerySql.Proofs.Renaming

/-!
# Retouched trees

A `Retouch` gives other names to the functions that not every server has, and may forget whether a
pattern is matched regardless of letter case. `Sql.retouch` does so in every node of a tree. Nothing
that is asked of a tree sees the difference, and nothing is built in another way because of it.

* `Sql.retouch_fillWith`, `Builder.retouch_binary`, …: each way of building a node comes out
  retouched if its operands are.
* `Builder.retouch_call`: so does a call of a function that every server has.
* `Attempt.map_orElse`, `Attempt.both_map`, …: attempts are put together in the same way, whatever
  function is applied to what they find.
-/

namespace QuerySql

/-- A change of details in a tree. -/
structure Retouch extends Renaming where
  /-- Whether every match heeds letter case afterwards. -/
  forgetsCase : Bool

namespace Retouch

/-- The other names alone. -/
def ofRenaming (ρ : Renaming) : Retouch := ⟨ρ, false⟩

/-- What becomes of the flag that letter case is ignored. -/
def ignores (σ : Retouch) (ignoreCase : Bool) : Bool := ignoreCase && !σ.forgetsCase

/-- What becomes of a comparison with the elements of an array. -/
def elementOp (σ : Retouch) : ElementOp → ElementOp
  | .ilike => if σ.forgetsCase then .like else .ilike
  | op => op

variable (σ : Retouch)

@[simp] theorem ignores_false : σ.ignores false = false := rfl

@[simp] theorem elementOp_equal : σ.elementOp .equal = .equal := rfl

theorem ignores_eq_id {σ : Retouch} (h : σ.forgetsCase = false) : σ.ignores = id := by
  funext ignoreCase
  simp [ignores, h]

@[simp] theorem ignores_ofRenaming (ρ : Renaming) : (ofRenaming ρ).ignores = id := ignores_eq_id rfl

@[simp] theorem elementOp_ofRenaming (ρ : Renaming) (op : ElementOp) :
    (ofRenaming ρ).elementOp op = op := by
  cases op <;> rfl

/-- The operator for the elements of an array goes with the letter case of a single match. -/
theorem elementOp_pattern (ignoreCase : Bool) :
    σ.elementOp (if ignoreCase then .ilike else .like) =
      if σ.ignores ignoreCase then .ilike else .like := by
  cases ignoreCase with
  | false => rfl
  | true => cases h : σ.forgetsCase <;> simp [elementOp, ignores, h]

end Retouch

namespace Sql

mutual
/-- The tree with the functions that it calls under their other names, and with letter case heeded
in every match if case is forgotten. Aggregates keep their names. -/
@[simp] def retouch (σ : Retouch) : Sql → Sql
  | const v t m => const v t m
  | param s n t m => param s n t m
  | column r n t m => column r n t m
  | call fn args t m => call (fn.rename σ.toRenaming) (retouchAll σ args) t m
  | aggregate fn args filter order t m =>
    aggregate fn (retouchAll σ args) (retouchOption σ filter) (retouchKeys σ order) t m
  | binary op l r t m => binary op (retouch σ l) (retouch σ r) t m
  | unary op x t m => unary op (retouch σ x) t m
  | cast x t m => cast (retouch σ x) t m
  | like i s p e m => like (σ.ignores i) (retouch σ s) (retouch σ p) (retouchOption σ e) m
  | quantified q op i a m => quantified q (σ.elementOp op) (retouch σ i) (retouch σ a) m
  | subscript a i n t m => subscript (retouch σ a) (retouch σ i) n t m
  | newArray xs t m => newArray (retouchAll σ xs) t m
  | row xs t => row (retouchAll σ xs) t
  | regexMatch o s p m => regexMatch o (retouch σ s) (retouch σ p) m
  | traversal d path asText t m => traversal (retouch σ d) (retouchAll σ path) asText t m
  | postgres op l r t m => postgres op (retouch σ l) (retouch σ r) t m

/-- Each tree of a list, retouched. -/
@[simp] def retouchAll (σ : Retouch) : List Sql → List Sql
  | [] => []
  | s :: ss => retouch σ s :: retouchAll σ ss

/-- A tree that may be absent, retouched. -/
@[simp] def retouchOption (σ : Retouch) : Option Sql → Option Sql
  | none => none
  | some s => some (retouch σ s)

/-- The keys of an order, retouched. -/
@[simp] def retouchKeys (σ : Retouch) : List (OrderKey Sql) → List (OrderKey Sql)
  | [] => []
  | ⟨s, ascending⟩ :: ks => ⟨retouch σ s, ascending⟩ :: retouchKeys σ ks
end

variable {σ : Retouch}

@[simp] theorem retouchAll_eq_map (ss : List Sql) : retouchAll σ ss = ss.map (retouch σ) := by
  induction ss with
  | nil => rfl
  | cons s ss ih => rw [retouchAll, ih, List.map_cons]

@[simp] theorem retouchOption_eq_map (s : Option Sql) :
    retouchOption σ s = s.map (retouch σ) := by
  cases s <;> rfl

theorem retouchKeys_eq_map (ks : List (OrderKey Sql)) :
    retouchKeys σ ks = ks.map fun k => { k with expr := k.expr.retouch σ } := by
  induction ks with
  | nil => rfl
  | cons k ks ih => rw [retouchKeys, ih, List.map_cons]

/-- Where case is kept, the other names are all that changes. -/
theorem retouch_ofRenaming (ρ : Renaming) (s : Sql) : s.retouch (.ofRenaming ρ) = s.rename ρ := by
  induction s using children_induction with
  | h s ih =>
    cases s with
    | aggregate fn args filter order t m =>
      simp only [children, List.mem_append, List.mem_map] at ih
      have hargs : ∀ c ∈ args, c.retouch (.ofRenaming ρ) = c.rename ρ :=
        fun c hc => ih c (.inl (.inl hc))
      have hfilter : ∀ c ∈ filter.toList, c.retouch (.ofRenaming ρ) = c.rename ρ :=
        fun c hc => ih c (.inl (.inr hc))
      have horder : ∀ k ∈ order, k.expr.retouch (.ofRenaming ρ) = k.expr.rename ρ :=
        fun k hk => ih _ (.inr ⟨k, hk, rfl⟩)
      cases filter <;> simp_all [retouchKeys_eq_map, renameKeys_eq_map]
    | like i subject pattern escape m => cases escape <;> simp_all [children]
    | call fn args t m => simp_all [children, Retouch.ofRenaming]
    | _ => simp_all [children]

/-! ## What stays as it was -/

@[simp] theorem ty_retouch (s : Sql) : (s.retouch σ).ty = s.ty := by
  cases s <;> simp only [retouch, ty]

@[simp] theorem mapping_retouch (s : Sql) : (s.retouch σ).mapping = s.mapping := by
  cases s <;> simp only [retouch, mapping]

@[simp] theorem isNullable_retouch (s : Sql) : (s.retouch σ).isNullable = s.isNullable := by
  fun_induction isNullable s <;> simp_all [retouch, isNullable, Function.rename]

@[simp] theorem value?_retouch (s : Sql) : (s.retouch σ).value? = s.value? := by
  cases s <;> simp only [retouch, value?]

@[simp] theorem isTraversal_retouch (s : Sql) : (s.retouch σ).isTraversal = s.isTraversal := by
  cases s <;> simp only [retouch, isTraversal]

@[simp] theorem mappedBy_retouch (p : Mapping → Bool) (s : Sql) :
    (s.retouch σ).mappedBy p = s.mappedBy p := by
  rw [mappedBy, mapping_retouch, mappedBy]

/-- By induction on the tree, along the mappings that are filled in. -/
@[simp] theorem retouch_fillWith (m : Mapping) (s : Sql) :
    (s.fillWith m).retouch σ = (s.retouch σ).fillWith m := by
  induction s using children_induction generalizing m with
  | h s ih =>
    fun_cases Sql.fillWith m s
    case case7 items ty e he =>
      simp only [retouch, fillWith, he, fillAllWith_eq_map, retouchAll_eq_map, List.map_map]
      congr 1
      exact List.map_congr_left fun c hc => ih c hc e
    case case10 op left right ty hp =>
      simp only [retouch, fillWith, hp, ih left List.mem_cons_self,
        ih right (List.mem_cons_of_mem _ List.mem_cons_self), Bool.false_eq_true, if_false]
    case case11 =>
      cases hm : s.mapping with
      | some n => rw [fillWith_of_mapping ((mapping_retouch s).trans hm)]
      | none => cases s <;> grind [retouch, fillWith, mapping]
    all_goals simp_all [retouch, fillWith]

@[simp] theorem retouch_fill (m : Option Mapping) (s : Sql) :
    (s.fill m).retouch σ = (s.retouch σ).fill m := by
  cases m <;> simp [fill]

end Sql

/-! ## Building from retouched operands -/

namespace Builder

variable {σ : Retouch} (b : Builder)

@[simp] theorem retouch_fillDefault (s : Sql) :
    (b.fillDefault s).retouch σ = b.fillDefault (s.retouch σ) := by
  unfold fillDefault
  rw [Sql.mapping_retouch, Sql.ty_retouch]
  split
  · rfl
  · rw [Sql.retouch_fill]

@[simp] theorem operandMapping_retouch (l r : Sql) :
    b.operandMapping (l.retouch σ) (r.retouch σ) = b.operandMapping l r := by
  simp [operandMapping]

@[simp] theorem retouch_typedConst (v : Value) (ty : Ty) (m : Option Mapping) :
    (b.typedConst v ty m).retouch σ = b.typedConst v ty m := by
  simp only [typedConst, Sql.retouch]

@[simp] theorem retouch_const (v : Value) (m : Option Mapping) :
    (b.const v m).retouch σ = b.const v m := retouch_typedConst b v _ m

@[simp] theorem retouch_text (s : String) : (b.text s).retouch σ = b.text s := retouch_const b _ _

@[simp] theorem retouch_int (n : Int) : (b.int n).retouch σ = b.int n := retouch_const b _ _

@[simp] theorem retouch_cast (x : Sql) (ty : Ty) (m : Option Mapping) :
    (b.cast x ty m).retouch σ = b.cast (x.retouch σ) ty m := by
  simp only [cast, Sql.retouch, retouch_fillDefault]

@[simp] theorem retouch_binary (op : BinaryOp) (l r : Sql) (m : Option Mapping) :
    (b.binary op l r m).retouch σ = b.binary op (l.retouch σ) (r.retouch σ) m := by
  unfold binary
  simp only [operandMapping_retouch, Sql.ty_retouch]
  split <;> simp only [Sql.retouch, Sql.retouch_fill]

@[simp] theorem retouch_binary? (op : BinaryOp) (l r : Sql) (m : Option Mapping) :
    (b.binary? op l r m).map (Sql.retouch σ) = b.binary? op (l.retouch σ) (r.retouch σ) m := by
  unfold binary?
  simp only [Sql.ty_retouch]
  split <;> simp

@[simp] theorem retouch_equal (l r : Sql) :
    (b.equal l r).retouch σ = b.equal (l.retouch σ) (r.retouch σ) := retouch_binary b _ l r _

@[simp] theorem retouch_greaterThan (l r : Sql) :
    (b.greaterThan l r).retouch σ = b.greaterThan (l.retouch σ) (r.retouch σ) :=
  retouch_binary b _ l r _

@[simp] theorem retouch_orElse (l r : Sql) :
    (b.orElse l r).retouch σ = b.orElse (l.retouch σ) (r.retouch σ) := retouch_binary b _ l r _

@[simp] theorem retouch_unary (op : SqlUnaryOp) (x : Sql) :
    (b.unary op x).retouch σ = b.unary op (x.retouch σ) := by
  cases op <;> simp [unary]

@[simp] theorem retouch_isNull (x : Sql) : (b.isNull x).retouch σ = b.isNull (x.retouch σ) :=
  retouch_unary b _ x

@[simp] theorem retouch_not (x : Sql) : (b.not x).retouch σ = b.not (x.retouch σ) :=
  retouch_unary b _ x

@[simp] theorem retouch_like (s p : Sql) (e : Option Sql) (i : Bool) :
    (b.like s p e i).retouch σ =
      b.like (s.retouch σ) (p.retouch σ) (e.map (Sql.retouch σ)) (σ.ignores i) := by
  simp [like, Function.comp_def]

@[simp] theorem retouch_regexMatch (s p : Sql) (o : Regex.Options) :
    (b.regexMatch s p o).retouch σ = b.regexMatch (s.retouch σ) (p.retouch σ) o := by
  simp [regexMatch]

@[simp] theorem retouch_postgres (op : PostgresOp) (l r : Sql) (ty : Option Ty)
    (m : Option Mapping) :
    (b.postgres op l r ty m).retouch σ = b.postgres op (l.retouch σ) (r.retouch σ) ty m := by
  cases ty <;> simp [postgres]

@[simp] theorem retouch_postgresPredicate (op : PostgresOp) (l r : Sql) :
    (b.postgresPredicate op l r).retouch σ = b.postgresPredicate op (l.retouch σ) (r.retouch σ) :=
  retouch_postgres b op l r _ _

@[simp] theorem retouch_quantified (q : Quantifier) (op : ElementOp) (i a : Sql) :
    (b.quantified q op i a).retouch σ =
      b.quantified q (σ.elementOp op) (i.retouch σ) (a.retouch σ) := by
  simp [quantified, itemMapping, arrayMapping]

@[simp] theorem retouch_subscript (a i : Sql) (n : Bool) :
    (b.subscript a i n).retouch σ = b.subscript (a.retouch σ) (i.retouch σ) n := by
  simp [subscript]

@[simp] theorem retouch_oneBased (i : Sql) :
    (b.oneBased i).retouch σ = b.oneBased (i.retouch σ) := by
  unfold oneBased
  rw [Sql.value?_retouch]
  split
  · split <;> simp [oneBased.addOne]
  · simp [oneBased.addOne]

@[simp] theorem retouch_newArray (xs : List Sql) (ty : Ty) :
    (b.newArray xs ty).retouch σ = b.newArray (xs.map (Sql.retouch σ)) ty := by
  simp [newArray, Function.comp_def]

@[simp] theorem retouch_row (xs : List Sql) (ty : Ty) :
    (b.row xs ty).retouch σ = b.row (xs.map (Sql.retouch σ)) ty := by
  simp [row, Function.comp_def]

/-- A call is made or refused on the same grounds, with operands that are changed or not. -/
theorem retouch_call_of_name_eq {fn : Function} (h : σ.name fn.name = fn.name) (args : List Sql)
    (ty : Ty) (m : Option Mapping) :
    Sql.retouch σ <$> b.call fn args ty m = b.call fn (args.map (Sql.retouch σ)) ty m := by
  unfold call
  rw [List.length_map]
  split
  · rfl
  split
  · rfl
  split
  · rfl
  · simp [Function.rename_eq h, Function.comp_def]

/-- A call of a function that every server has. -/
@[simp] theorem retouch_call {fn : Function} (h : fn.name ∉ Function.serverBound) (args : List Sql)
    (ty : Ty) (m : Option Mapping) :
    Sql.retouch σ <$> b.call fn args ty m = b.call fn (args.map (Sql.retouch σ)) ty m :=
  retouch_call_of_name_eq b (σ.name_eq fn.name h) args ty m

@[simp] theorem retouch_strictCall {name : String} (h : name ∉ Function.serverBound)
    (args : List Sql) (ty : Ty) (m : Option Mapping) :
    Sql.retouch σ <$> b.strictCall name args ty m =
      b.strictCall name (args.map (Sql.retouch σ)) ty m := by
  unfold strictCall
  rw [retouch_call b h, List.map_map]
  rfl

@[simp] theorem retouch_coalesce (l r : Sql) (m : Option Mapping) :
    Sql.retouch σ <$> b.coalesce l r m = b.coalesce (l.retouch σ) (r.retouch σ) m := by
  unfold coalesce
  simp only
  rw [retouch_call b (show "COALESCE" ∉ Function.serverBound by decide)]
  simp only [operandMapping_retouch, List.map_cons, List.map_nil, ← Sql.retouch_fill,
    Sql.ty_retouch, Sql.isNullable_retouch]

end Builder

/-! ## Attempts under a function -/

namespace Attempt

variable {α β γ δ : Type} (f : α → β)

@[simp] theorem map_decline : f <$> (decline : Attempt α) = decline := rfl

@[simp] theorem map_ofOption (o : Option α) : f <$> ofOption o = ofOption (o.map f) := by
  cases o <;> rfl

/-- What is done to the value of an attempt leaves its reports alone. -/
theorem map_eq (x : Attempt α) : f <$> x = ⟨x.log, x.outcome.map f⟩ := by
  obtain ⟨log, outcome⟩ := x
  cases outcome with
  | error e => rfl
  | ok a => simp [Functor.map, Run.andThen, Run.done, Except.map]

@[simp] theorem map_orElse (x y : Attempt α) : f <$> (x <|> y) = (f <$> x <|> f <$> y) := by
  show f <$> orElse x (fun _ => y) = orElse (f <$> x) fun _ => f <$> y
  obtain ⟨log, outcome⟩ := x
  rcases outcome with (_ | e) | a <;> simp [orElse, map_eq, Except.map]

@[simp] theorem map_reportFound (x : Attempt α) (e : Event) :
    f <$> x.reportFound e = (f <$> x).reportFound e := by
  obtain ⟨log, outcome⟩ := x
  cases outcome <;> simp [reportFound, map_eq, Except.map]

@[simp] theorem map_reportDecline (x : Attempt α) (e : Event) :
    f <$> x.reportDecline e = (f <$> x).reportDecline e := by
  obtain ⟨log, outcome⟩ := x
  rcases outcome with (_ | e) | a <;> simp [reportDecline, map_eq, Except.map]

theorem both_map (g : γ → δ) (x : Attempt α) (y : Attempt γ) :
    both (f <$> x) (g <$> y) = Prod.map f g <$> both x y := by
  obtain ⟨log, outcome⟩ := x
  obtain ⟨log', outcome'⟩ := y
  rcases outcome with (_ | e) | a <;> rcases outcome' with (_ | e') | c <;>
    simp [both, map_eq, Except.map, Except.bind, bind, Run.andThen, Run.done, pure]

theorem all_map {ι : Type} (g : ι → Attempt α) (xs : List ι) :
    all (fun x => f <$> g x) xs = List.map f <$> all g xs := by
  induction xs with
  | nil => simp [all]
  | cons x xs ih => simp [all, ih]

/-- What follows is done with the results as the function has left them. -/
theorem map_bind_eq {f : α → β} {g : γ → δ} {x : Attempt α} {y : Attempt β} {k : α → Attempt γ}
    {l : β → Attempt δ} (hx : f <$> x = y) (hk : ∀ a, g <$> k a = l (f a)) :
    g <$> (x >>= k) = y >>= l := by
  rw [map_bind, ← hx, bind_map_left]
  exact congrArg (x >>= ·) (funext hk)

variable {σ : Retouch}

/-- If the first step and what follows it can be retouched, so can both together. -/
theorem retouch_bind {x y : Attempt Sql} {k l : Sql → Attempt Sql}
    (hx : Sql.retouch σ <$> x = y) (hk : ∀ s, Sql.retouch σ <$> k s = l (s.retouch σ)) :
    Sql.retouch σ <$> (x >>= k) = y >>= l :=
  map_bind_eq hx hk

end Attempt

/-! ## Retouched documents -/

namespace Json

variable {σ : Retouch} (b : Builder)

/-- What a path starts from is looked for in the shape of a tree and in mappings, which are kept. -/
@[simp] theorem base?_retouch (s : Sql) : base? (s.retouch σ) =
    (base? s).map fun p => (p.1.retouch σ, p.2.map (Sql.retouch σ)) := by
  cases s with
  | column r n t m =>
    simp only [Sql.retouch, base?]
    split <;> simp
  | _ => simp [base?]

@[simp] theorem retouch_readAs (d : Sql) (path : List Sql) (ty : Ty) :
    (readAs b d path ty).retouch σ = readAs b (d.retouch σ) (path.map (Sql.retouch σ)) ty := by
  unfold readAs
  simp only
  split
  · simp
  · split <;> simp

@[simp] theorem retouch_member? (s i : Sql) (ty : Ty) :
    (member? b s i ty).map (Sql.retouch σ) = member? b (s.retouch σ) (i.retouch σ) ty := by
  unfold member?
  rw [base?_retouch]
  cases base? s <;> simp

@[simp] theorem isBinary_retouch (s : Sql) : isBinary (s.retouch σ) = isBinary s :=
  Sql.mappedBy_retouch _ s

theorem retouch_measure (d x : Sql) :
    Sql.retouch σ <$> arrayLength.measure b d x =
      arrayLength.measure b (d.retouch σ) (x.retouch σ) := by
  unfold arrayLength.measure
  rw [isBinary_retouch, Builder.retouch_call]
  · rfl
  · split <;> decide

@[simp] theorem retouch_arrayLength (s : Sql) :
    Sql.retouch σ <$> arrayLength b s = arrayLength b (s.retouch σ) := by
  cases s with
  | column r n t m =>
    simp only [arrayLength]
    split <;> simp_all [retouch_measure]
  | traversal => simp [retouch_measure, arrayLength]
  | _ => simp [arrayLength]

end Json

end QuerySql
