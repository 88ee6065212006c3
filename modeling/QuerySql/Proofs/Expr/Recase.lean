import QuerySql.Expr.Conversion
import QuerySql.Proofs.Steps

/-!
# Methods of the other letter case

Two methods match a text with a pattern and heed letter case, and two others match regardless of it.
`Expr.recase f` puts one for the other in every call, as `f` says. Nothing that translating asks of
an expression sees more of that than the flag of a match with the elements of an array.

* `Known.identify?_recase`: what a method is afterwards.
* `Expr.recase_recase`, `Expr.recase_id`: one change after another, and none.
* `ArrayPattern.ofCall?_recase`, `LabelPattern.ofCall?_recase`: a lambda keeps its shape.
-/

namespace QuerySql

variable {f g : Bool → Bool}

/-! ## Methods -/

/-- The method that heeds letter case or does not, as the function says. -/
def Known.recase (f : Bool → Bool) : Known → Known
  | like ignoreCase withEscape => like (f ignoreCase) withEscape
  | k => k

/-- The method, with another signature if it matches patterns. -/
def Method.recase (f : Bool → Bool) (m : Method) : Method :=
  match Known.identify? m with
  | some (.like ignoreCase withEscape) =>
    { m with signature := (Known.like (f ignoreCase) withEscape).signature }
  | _ => m

theorem Method.recase_of_like {m : Method} {ignoreCase withEscape : Bool}
    (h : Known.identify? m = some (.like ignoreCase withEscape)) :
    m.recase f = { m with signature := (Known.like (f ignoreCase) withEscape).signature } := by
  rw [recase, h]

/-- A method that matches no patterns, or whose letter case is kept, is what it was. -/
theorem Method.recase_eq_self {m : Method}
    (h : ∀ ignoreCase withEscape, Known.identify? m = some (.like ignoreCase withEscape) →
      f ignoreCase = ignoreCase) : m.recase f = m := by
  unfold recase
  split
  next hk => rw [h _ _ hk, ← (Known.signature_of_identify? hk).1]
  next => rfl

theorem Method.recase_of_not_like {m : Method}
    (h : ∀ ignoreCase withEscape, Known.identify? m ≠ some (.like ignoreCase withEscape)) :
    m.recase f = m :=
  recase_eq_self fun _ _ hk => absurd hk (h _ _)

theorem Known.arity_like (ignoreCase withEscape : Bool) :
    (like ignoreCase withEscape).signature.arity = 0 := by
  cases ignoreCase <;> cases withEscape <;> rfl

/-- A signature and the number of its type arguments say what the method is. -/
theorem Known.identify?_like {m : Method} (ignoreCase withEscape : Bool)
    (hs : m.signature = (like ignoreCase withEscape).signature) (hg : m.generics.length = 0) :
    identify? m = some (like ignoreCase withEscape) := by
  refine identify?_eq_some_iff.mpr ⟨hs, ?_⟩
  rw [hs, hg, arity_like]

/-- The change of letter case commutes with recognizing methods. -/
theorem Known.identify?_recase (m : Method) :
    identify? (m.recase f) = (identify? m).map (recase f) := by
  by_cases h : ∃ i w, identify? m = some (like i w)
  · obtain ⟨ignoreCase, withEscape, hk⟩ := h
    have hg := (signature_of_identify? hk).2.trans (arity_like _ _)
    rw [Method.recase_of_like hk, hk]
    exact identify?_like (f ignoreCase) withEscape rfl hg
  · rw [Method.recase_of_not_like fun i w hk => h ⟨i, w, hk⟩]
    cases hk : identify? m with
    | none => rfl
    | some k =>
      cases k with
      | like ignoreCase withEscape => exact absurd ⟨_, _, hk⟩ h
      | _ => rfl

/-- Methods that match no patterns are what they were. -/
theorem Known.identify?_recase_iff {m : Method} {k : Known}
    (h : ∀ ignoreCase withEscape, k ≠ like ignoreCase withEscape) :
    identify? (m.recase f) = some k ↔ identify? m = some k := by
  rw [identify?_recase]
  cases identify? m with
  | none => rfl
  | some k' =>
    cases k' with
    | like ignoreCase withEscape =>
      refine iff_of_false ?_ ?_
      · exact fun heq => h _ _ (Option.some.inj heq).symm
      · exact fun heq => h _ _ (Option.some.inj heq).symm
    | _ => rfl

namespace Method

/-- Two changes of letter case are one. -/
theorem recase_recase (m : Method) : (m.recase f).recase g = m.recase (g ∘ f) := by
  by_cases h : ∃ i w, Known.identify? m = some (.like i w)
  · obtain ⟨ignoreCase, withEscape, hk⟩ := h
    have hk' : Known.identify? (m.recase f) = some (.like (f ignoreCase) withEscape) := by
      rw [Known.identify?_recase, hk]
      rfl
    rw [recase_of_like hk', recase_of_like hk, recase_of_like hk]
    rfl
  · have hm : ∀ i w, Known.identify? m ≠ some (.like i w) := fun i w hk => h ⟨i, w, hk⟩
    rw [recase_of_not_like hm, recase_of_not_like hm, recase_of_not_like hm]

theorem recase_id (m : Method) : m.recase id = m := recase_eq_self fun _ _ _ => rfl

@[simp] theorem returnTy_recase (m : Method) : (m.recase f).returnTy = m.returnTy := by
  unfold recase
  split <;> rfl

/-- What the four methods have not in their signatures is had before and after, or not at all. -/
theorem signature_recase {α : Type} (m : Method) (get : Signature → α) {a : α}
    (h : ∀ ignoreCase withEscape, get (Known.like ignoreCase withEscape).signature ≠ a) :
    get (m.recase f).signature = a ↔ get m.signature = a := by
  unfold recase
  split
  next hk =>
    rw [(Known.signature_of_identify? hk).1]
    exact iff_of_false (h _ _) (h _ _)
  next => rfl

/-- No name but those of matches is changed. -/
theorem name_recase {m : Method} (name : String)
    (h : ∀ ignoreCase withEscape, (Known.like ignoreCase withEscape).signature.name ≠ name) :
    (m.recase f).name = name ↔ m.name = name :=
  m.signature_recase Signature.name h

/-- No owner but that of matches is changed. -/
theorem owner_recase {m : Method} (owner : Owner)
    (h : ∀ ignoreCase withEscape, (Known.like ignoreCase withEscape).signature.owner ≠ owner) :
    (m.recase f).owner = owner ↔ m.owner = owner :=
  m.signature_recase Signature.owner h

end Method

/-! ## Expressions -/

namespace Expr

mutual
/-- The expression with every method that matches patterns put for the one that the function says,
in lambdas too. -/
@[simp] def recase (f : Bool → Bool) : Expr → Expr
  | const v t => const v t
  | lambdaParam p => lambdaParam p
  | queryParam p => queryParam p
  | property s n t => property s n t
  | call m receiver args => call (m.recase f) (recaseOption f receiver) (recaseAll f args)
  | binary op l r t => binary op (recase f l) (recase f r) t
  | unary op x t => unary op (recase f x) t
  | construct c args => construct c (recaseAll f args)
  | newArray sized xs t => newArray sized (recaseAll f xs) t
  | lambda ps body t => lambda ps (recase f body) t

/-- An expression that may be absent. -/
@[simp] def recaseOption (f : Bool → Bool) : Option Expr → Option Expr
  | none => none
  | some e => some (recase f e)

/-- Each expression of a list. -/
@[simp] def recaseAll (f : Bool → Bool) : List Expr → List Expr
  | [] => []
  | e :: es => recase f e :: recaseAll f es
end

@[simp] theorem recaseAll_eq_map (es : List Expr) : recaseAll f es = es.map (recase f) := by
  induction es with
  | nil => rfl
  | cons e es ih => rw [recaseAll, ih, List.map_cons]

@[simp] theorem recaseOption_eq_map (e : Option Expr) :
    recaseOption f e = e.map (recase f) := by
  cases e <;> rfl

/-- The letter case of every match exchanged for the other. -/
def exchangeCase (e : Expr) : Expr := e.recase (! ·)

/-- By induction on the expression: two changes of letter case are one at every match. -/
theorem recase_recase (e : Expr) : (e.recase f).recase g = e.recase (g ∘ f) := by
  induction e using children_induction with
  | step e ih =>
    cases e with
    | call m receiver args =>
      cases receiver <;> simp_all [children, Method.recase_recase]
    | _ => simp_all [children]

/-- By induction on the expression: without a change it stays as it is. -/
theorem recase_id (e : Expr) : e.recase id = e := by
  induction e using children_induction with
  | step e ih =>
    have hall (es : List Expr) (hes : ∀ c ∈ es, c.recase id = c) : es.map (recase id) = es :=
      (List.map_congr_left hes).trans (List.map_id es)
    cases e with
    | call m receiver args =>
      have hargs := hall args fun c hc => ih c (List.mem_append_right _ hc)
      cases receiver with
      | none => simp [hargs, Method.recase_id]
      | some x => simp [hargs, Method.recase_id, ih x List.mem_cons_self]
    | construct c args => simp [hall args ih]
    | newArray sized items ty => simp [hall items ih]
    | _ => simp_all [children]

@[simp] theorem ty_recase (e : Expr) : (e.recase f).ty = e.ty := by
  cases e <;> simp [recase, ty]

theorem nodesAll_map {h : Expr → Expr} (es : List Expr)
    (hes : ∀ e ∈ es, (h e).nodes = e.nodes) : nodesAll (es.map h) = nodesAll es := by
  induction es with
  | nil => rfl
  | cons e es ih =>
    rw [List.map_cons, nodesAll, nodesAll, hes e List.mem_cons_self,
      ih fun d hd => hes d (List.mem_cons_of_mem _ hd)]

/-- By induction on the expression: no node comes or goes. -/
@[simp] theorem nodes_recase (e : Expr) : (e.recase f).nodes = e.nodes := by
  induction e using children_induction with
  | step e ih =>
    cases e with
    | call m receiver args =>
      have hargs := nodesAll_map args fun c hc => ih c (List.mem_append_right _ hc)
      cases receiver with
      | none => simp [nodes, nodesOption, hargs]
      | some x => simp [nodes, nodesOption, hargs, ih x List.mem_cons_self]
    | construct c args => simp [nodes, nodesAll_map args ih]
    | newArray sized items ty => simp [nodes, nodesAll_map items ih]
    | _ => simp_all [nodes, children]

@[simp] theorem isNullConst_recase (e : Expr) : (e.recase f).isNullConst = e.isNullConst := by
  cases e <;> simp [recase, isNullConst]

@[simp] theorem isParameter_recase (p : Parameter) (e : Expr) :
    (e.recase f).isParameter p = e.isParameter p := by
  cases e <;> simp [recase, isParameter]

@[simp] theorem stripImplicit_recase (e : Expr) :
    (e.recase f).stripImplicit = e.stripImplicit.recase f := by
  fun_induction stripImplicit e with
  | case3 e he => cases e <;> simp_all [stripImplicit]
  | _ => simp_all [stripImplicit]

end Expr

/-! ## Lambdas over arrays -/

namespace ArrayPattern

/-- The condition, with the letter case that the function says. -/
def recase (f : Bool → Bool) : ArrayPattern → ArrayPattern
  | likeElement ignoreCase subject => likeElement (f ignoreCase) (subject.recase f)
  | memberOf other => memberOf (other.recase f)
  | equalTo other => equalTo (other.recase f)

/-- The two sides of an equation are found whatever the letter case is. -/
theorem ofEquation?_recase (p : Parameter) (left right : Expr) :
    ofEquation? p (left.recase f) (right.recase f) =
      (ofEquation? p left right).map (recase f) := by
  unfold ofEquation?
  rw [Expr.isParameter_recase, Expr.isParameter_recase]
  split
  · rfl
  · split <;> rfl

theorem ofLike?_recase (p : Parameter) (m : Method) (args : List Expr) :
    ofLike? p (m.recase f) (args.map (Expr.recase f)) =
      (ofLike? p m args).map (recase f) := by
  unfold ofLike?
  rw [Known.identify?_recase]
  cases Known.identify? m with
  | none => rfl
  | some k =>
    cases k with
    | like ignoreCase withEscape =>
      cases withEscape with
      | true => rfl
      | false =>
        rcases args with _ | ⟨x, _ | ⟨subject, _ | ⟨pattern, _ | ⟨y, args⟩⟩⟩⟩ <;> try rfl
        simp only [Option.map_some, Known.recase, List.map_cons, List.map_nil,
          Expr.isParameter_recase]
        split <;> rfl
    | _ => rfl

theorem ofContains?_recase (p : Parameter) (m : Method) (receiver : Option Expr)
    (args : List Expr) :
    ofContains? p (m.recase f) (receiver.map (Expr.recase f)) (args.map (Expr.recase f)) =
      (ofContains? p m receiver args).map (recase f) := by
  unfold ofContains?
  rcases receiver with _ | other <;> rcases args with _ | ⟨x, _ | ⟨y, _ | ⟨z, args⟩⟩⟩ <;> try rfl
  · simp only [Option.map_none, List.map_cons, List.map_nil, Expr.isParameter_recase,
      Expr.ty_recase, Known.identify?_recase_iff (k := .sequence .contains) nofun]
    split <;> rfl
  · simp only [Option.map_some, List.map_cons, List.map_nil, Expr.isParameter_recase,
      Method.name_recase "Contains" (by decide),
      Method.owner_recase .list (by decide),
      Method.owner_recase .hashSet (by decide)]
    split <;> rfl

theorem ofEquals?_recase (p : Parameter) (m : Method) (receiver : Option Expr)
    (args : List Expr) :
    ofEquals? p (m.recase f) (receiver.map (Expr.recase f)) (args.map (Expr.recase f)) =
      (ofEquals? p m receiver args).map (recase f) := by
  unfold ofEquals?
  rcases receiver with _ | left <;> rcases args with _ | ⟨x, _ | ⟨y, _ | ⟨z, args⟩⟩⟩ <;> try rfl
  · simp only [Option.map_none, List.map_cons, List.map_nil,
      Known.identify?_recase_iff (k := .objectEquals) nofun]
    split
    · exact ofEquation?_recase p x y
    · rfl
  · simp only [Option.map_some, List.map_cons, List.map_nil,
      Method.name_recase "Equals" (by decide)]
    split
    · exact ofEquation?_recase p left x
    · rfl

/-- A condition is recognized whatever the letter case is. In a match it is part of what is
recognized. -/
theorem ofBody?_recase (q : Quantifier) (p : Parameter) (body : Expr) :
    ofBody? q p (body.recase f) = (ofBody? q p body).map (recase f) := by
  cases body with
  | binary op left right ty =>
    cases op with
    | plain op =>
      cases op with
      | equal =>
        simp only [Expr.recase, ofBody?]
        split
        · exact ofEquation?_recase p left right
        · rfl
      | _ => rfl
    | _ => rfl
  | call m receiver args =>
    simp only [Expr.recase, Expr.recaseOption_eq_map, Expr.recaseAll_eq_map, ofBody?,
      ofLike?_recase, ofContains?_recase, Option.map_or]
    split
    · rw [ofEquals?_recase]
    · rfl
  | _ => rfl

/-- By the shape of the arguments, which the change leaves alone. -/
theorem ofCall?_recase (m : Method) (args : List Expr) :
    ofCall? (m.recase f) (args.map (Expr.recase f)) = (ofCall? m args).map fun c =>
      (c.1, c.2.1.recase f, c.2.2.1, c.2.2.2.recase f) := by
  unfold ofCall?
  rw [Known.identify?_recase]
  rcases Known.identify? m with _ | k
  · rfl
  cases k with
  | sequence k =>
    rcases args with _ | ⟨array, _ | ⟨y, _ | ⟨z, args⟩⟩⟩
    · cases k <;> rfl
    · cases k <;> rfl
    · cases y with
      | lambda params body ty =>
        rcases params with _ | ⟨p, _ | ⟨p', params⟩⟩ <;> try (cases k <;> rfl)
        cases k <;> simp [Known.recase, ofBody?_recase, Function.comp_def]
      | _ => cases k <;> rfl
    · cases k <;> simp [Known.recase]
  | _ => rfl

end ArrayPattern

namespace LabelPattern

/-- The question about the same paths, with the letter case that the function says in them. -/
def recase (f : Bool → Bool) : LabelPattern → LabelPattern
  | anyQuery path queries => anyQuery (path.recase f) (queries.recase f)
  | pathsBy method op first paths other => pathsBy method op first (paths.recase f) (other.recase f)

theorem ofTest?_recase (method : Known) (first : Bool) (array : Expr) (p : Parameter)
    (test : Method) (receiver argument : Expr) :
    ofTest? method first (array.recase f) p (test.recase f) (receiver.recase f)
        (argument.recase f) =
      (ofTest? method first array p test receiver argument).map (recase f) := by
  unfold ofTest?
  rw [Known.identify?_recase]
  rcases Known.identify? test with _ | k
  · rfl
  cases k with
  | labelTree m =>
    simp only [Option.map_some, Known.recase, Expr.isParameter_recase]
    split
    · rfl
    · split
      · cases op? first m <;> rfl
      · rfl
  | _ => rfl

/-- By the shape of the arguments, which the change leaves alone. -/
theorem ofCall?_recase (m : Method) (args : List Expr) :
    ofCall? (m.recase f) (args.map (Expr.recase f)) = (ofCall? m args).map (recase f) := by
  unfold ofCall?
  rw [Known.identify?_recase]
  rcases Known.identify? m with _ | k
  · rfl
  cases k with
  | sequence k =>
    rcases args with _ | ⟨array, _ | ⟨y, _ | ⟨z, args⟩⟩⟩
    · cases k <;> rfl
    · cases k <;> rfl
    · cases y with
      | lambda params body ty =>
        rcases params with _ | ⟨p, params⟩
        · cases k <;> rfl
        cases body with
        | call test receiver testArgs =>
          rcases receiver with _ | receiver
          · cases k <;> rfl
          rcases testArgs with _ | ⟨argument, _ | ⟨x, testArgs⟩⟩ <;> try (cases k <;> rfl)
          cases k <;> simp [Known.recase, ofTest?_recase]
        | _ => cases k <;> rfl
      | _ => cases k <;> rfl
    · cases k <;> simp [Known.recase]
  | _ => rfl

end LabelPattern

end QuerySql
