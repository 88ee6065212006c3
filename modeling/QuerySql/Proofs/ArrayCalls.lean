import QuerySql.Proofs.Membership

/-!
# Methods of arrays, in both spellings

Counting, subscripts and searches are methods of sequences, or of arrays, which are given the array
as their first argument, and methods of lists as well. What is made of a call does not depend on the
spelling.

* `ArraySpelling.outcome_run`: the parts of a call are translated one after the other.
* `ArraySpelling.translate_call`: what the translator for arrays makes of the call.
* `ArraySpelling.build_of_found`: no other built-in translator takes it.
-/

namespace QuerySql

/-- The methods of arrays that lists have as well. -/
inductive ArrayMethod where
  | count | elementAt | indexOf

namespace ArrayMethod

/-- The method of sequences, or of arrays. -/
def known : ArrayMethod → Known
  | count => .sequence .count
  | elementAt => .sequence .elementAt
  | indexOf => .arrayIndexOf

/-- The name of the method of lists. -/
def nameOfLists : ArrayMethod → String
  | count => "get_Count"
  | elementAt => "get_Item"
  | indexOf => "IndexOf"

/-- What a call becomes that returns the given type. -/
def build (b : Builder) (useRedshift : Bool) (ty : Ty) : ArrayMethod → Sql → List Sql → Attempt Sql
  | count, array, [] => Scalar.Arrays.cardinality b array
  | elementAt, array, [index] => Scalar.Arrays.elementAt b array index ty
  | indexOf, array, [item] =>
    if Scalar.Arrays.isJson array then .decline
    else Scalar.Arrays.indexOf b useRedshift array item
  | _, _, _ => .decline

end ArrayMethod

/-- The two ways of calling a method of an array. -/
inductive ArraySpelling where
  /-- A static method, which is given the array as its first argument. -/
  | ofSequences
  /-- A method of the list itself. -/
  | ofLists

namespace ArraySpelling

/-- The method is called so in this spelling. -/
def Names (σ : ArraySpelling) (q : ArrayMethod) (m : Method) : Prop :=
  match σ with
  | ofSequences => Known.identify? m = some q.known
  | ofLists => m.owner = .list ∧ m.name = q.nameOfLists

/-- The call of a method on an array. -/
def expr (σ : ArraySpelling) (m : Method) (array : Expr) (args : List Expr) : Expr :=
  match σ with
  | ofSequences => .call m none (array :: args)
  | ofLists => .call m (some array) args

/-- The call of a method on a translated array. -/
def call (σ : ArraySpelling) (m : Method) (array : Sql) (args : List Sql) : ScalarCall :=
  match σ with
  | ofSequences => ⟨none, m, array :: args⟩
  | ofLists => ⟨some array, m, args⟩

variable {σ : ArraySpelling} {q : ArrayMethod} {m : Method}

theorem Names.identify?_eq_none (h : ofLists.Names q m) : Known.identify? m = none :=
  Known.identify?_of_isNamed (congrArg Method.Owner.isNamed h.1)

@[simp] theorem method_call (array : Sql) (args : List Sql) :
    (σ.call m array args).method = m := by
  cases σ <;> rfl

theorem Names.eq_known (h : σ.Names q m) {k : Known} (hm : Known.identify? m = some k) :
    k = q.known := by
  cases σ with
  | ofSequences => exact Option.some.inj (hm.symm.trans h)
  | ofLists => cases h.identify?_eq_none.symm.trans hm

theorem Names.ne_objectEquals (h : σ.Names q m) : Known.identify? m ≠ some .objectEquals := by
  intro hm
  cases q <;> cases h.eq_known hm

theorem Names.name_ne (h : σ.Names q m) : m.name ≠ "Equals" ∧ m.name ≠ "ToString" := by
  cases σ with
  | ofSequences =>
    rw [Known.name_of_identify? h]
    cases q <;> decide
  | ofLists =>
    rw [h.2]
    cases q <;> decide

/-- None of these methods is given a lambda that is rewritten. -/
theorem Names.lambdaCall?_eq_none (h : σ.Names q m) (p : Postgres) (recur : Expr → Attempt Sql)
    (args : List Expr) : p.lambdaCall? recur m args = none := by
  cases σ with
  | ofSequences =>
    have harray : ArrayPattern.ofCall? m args = none := by
      unfold ArrayPattern.ofCall?
      rw [h]
      cases q <;> rfl
    have hlabels : LabelPattern.ofCall? m args = none := by
      unfold LabelPattern.ofCall?
      rw [h]
      cases q <;> rfl
    unfold Postgres.lambdaCall?
    rw [harray, hlabels]
    split <;> rfl
  | ofLists =>
    refine Postgres.lambdaCall?_eq_none (fun k hk => ?_) recur args
    cases h.identify?_eq_none.symm.trans hk

/-! ## What a call is translated to -/

/-- The array is translated, then the arguments, and the rest is left to the scalar translators. -/
theorem outcome_run {p : Postgres} {r : Relational} (h : σ.Names q m) (array : Expr)
    (args : List Expr) :
    (p.run r (σ.expr m array args)).outcome =
      (p.run r array >>= fun x => Attempt.all (p.run r) args >>= fun xs =>
        ScalarTranslator.firstOf r.scalars (σ.call m x xs)).outcome := by
  have hcall (receiver : Option Sql) (xs : List Sql) : (r.callOn ⟨receiver, m, xs⟩).outcome =
      (ScalarTranslator.firstOf r.scalars ⟨receiver, m, xs⟩).outcome := by
    rw [Relational.callOn_of_name h.ne_objectEquals h.name_ne.1, Attempt.outcome_reportDecline]
  cases σ with
  | ofSequences =>
    rw [expr, Postgres.run_call (h.lambdaCall?_eq_none p _ _)]
    simp only [Relational.call, Relational.receiverOf, Attempt.all, pure_bind, bind_assoc,
      Run.outcome_bind, hcall, call]
  | ofLists =>
    rw [expr, Postgres.run_call (h.lambdaCall?_eq_none p _ _)]
    simp only [Relational.call, Relational.receiverOf, pure_bind, bind_assoc, Run.outcome_bind,
      hcall, call]

end ArraySpelling

/-! ## What the translators make of it -/

namespace ArraySpelling

open Scalar.Arrays (isArray isJson operand? onList onSequence onArray onOperand)

variable {σ : ArraySpelling} {q : ArrayMethod} {m : Method} {b : Builder} {array : Sql}

/-- Either spelling is on the array, with the same other arguments. -/
theorem operand?_call (h : σ.Names q m) (args : List Sql) :
    operand? (σ.call m array args) = some (array, args) := by
  cases σ with
  | ofSequences => rfl
  | ofLists => exact if_pos h.1

theorem onList_eq_build (h : ofLists.Names q m) (useRedshift : Bool) (args : List Sql) :
    onList b useRedshift m array args = q.build b useRedshift m.returnTy array args := by
  unfold onList
  rw [h.2]
  cases q <;> rcases args with _ | ⟨x, _ | ⟨y, args⟩⟩ <;> rfl

/-- With any other number of arguments the call is declined, of documents and of native arrays. -/
theorem onSequence_eq_build (h : ofSequences.Names q m) (useRedshift : Bool) (args : List Sql) :
    onSequence b useRedshift m array args = q.build b useRedshift m.returnTy array args := by
  unfold onSequence
  rw [h]
  cases q with
  | count =>
    rcases args with _ | ⟨x, args⟩
    · rfl
    · exact ite_self _
  | elementAt =>
    rcases args with _ | ⟨x, _ | ⟨y, args⟩⟩
    · exact ite_self _
    · rfl
    · exact ite_self _
  | indexOf =>
    rcases args with _ | ⟨x, _ | ⟨y, args⟩⟩
    · exact ite_self _
    · rfl
    · exact ite_self _

/-- What is neither an array nor a document, and byte strings, the translator leaves alone. -/
theorem translate_call (h : σ.Names q m) (useRedshift : Bool) (args : List Sql) :
    (Scalar.Arrays.translator b useRedshift).translate (σ.call m array args) =
      if !isArray array && !isJson array then .decline
      else if array.mappedBy Mapping.isBytes then .decline
      else q.build b useRedshift m.returnTy array args := by
  have hjoin : Known.identify? m ≠ some (.text .join) := by
    intro hm
    cases q <;> cases h.eq_known hm
  simp only [Scalar.Arrays.translator, method_call, hjoin, if_false, onOperand, operand?_call h]
  cases σ with
  | ofSequences =>
    have howner : m.owner ≠ .list := by
      rw [Method.owner, (Known.signature_of_identify? h).1]
      cases q <;> decide
    simp only [howner, if_false, onSequence_eq_build h]
  | ofLists => simp only [h.1, if_true, onList_eq_build h]

/-- The call is one of arrays, unless it is a static call on a byte string. -/
theorem family?_call (h : σ.Names q m) (args : List Sql) :
    (σ.call m array args).family? = some .arrays ∨
      (σ.call m array args).family? = some .bytes ∧ array.mappedBy Mapping.isBytes = true := by
  cases σ with
  | ofSequences =>
    have hfamily := ScalarCall.family?_of_known (c := ofSequences.call m array args) h
    cases q with
    | count | elementAt =>
      have honBytes :
          (ofSequences.call m array args).onBytes = array.mappedBy Mapping.isBytes := rfl
      rw [hfamily, honBytes]
      cases array.mappedBy Mapping.isBytes with
      | false => exact .inl rfl
      | true => exact .inr ⟨rfl, rfl⟩
    | indexOf => exact .inl hfamily
  | ofLists =>
    have howner : (ofLists.call m array args).method.owner.family? = some .arrays :=
      congrArg Method.Owner.family? h.1
    exact .inl (ScalarCall.family?_of_owner howner fun htext => h.name_ne.2 htext.1)

/-- The translator for byte strings knows none of these methods. -/
theorem bytes_fails (h : σ.Names q m) (args : List Sql) :
    ((Scalar.Bytes.translator b).translate (σ.call m array args)).Fails := by
  intro s hs
  simp only [Scalar.Bytes.translator, method_call] at hs
  split at hs
  · cases hs
  split at hs
  · cases hs
  split at hs
  · cases hs
  split at hs
  next hm _ => cases q <;> cases h.eq_known hm
  next hm _ => cases q <;> cases h.eq_known hm
  next => cases hs

/-- Only an array or a document that is no byte string is taken, and by one translator. -/
theorem build_of_found (h : σ.Names q m) {options : Options} {added : List ScalarTranslator}
    {args : List Sql} (hadded : ∀ t ∈ added, (t.translate (σ.call m array args)).Fails) {s : Sql}
    (hs : (ScalarTranslator.firstOf (Scalar.builtIn b options ++ added)
      (σ.call m array args)).outcome = .ok s) :
    (isArray array || isJson array) = true ∧ array.mappedBy Mapping.isBytes = false ∧
      (q.build b options.useRedshift m.returnTy array args).outcome = .ok s := by
  have hrest := ScalarTranslator.fails_firstOf hadded
  rcases family?_call h args with hfamily | ⟨hfamily, -⟩
  · rw [Scalar.outcome_firstOf_of_family hfamily] at hs
    have hs := (Attempt.outcome_orElse_eq_ok hs).resolve_right (hrest s)
    rw [Scalar.Family.translator, translate_call h] at hs
    split at hs
    · cases hs
    next hkind =>
      split at hs
      · cases hs
      next hbytes =>
        refine ⟨?_, Bool.eq_false_iff.mpr hbytes, hs⟩
        rw [Bool.not_eq_true, ← Bool.not_or, Bool.not_eq_false'] at hkind
        exact hkind
  · rw [Scalar.outcome_firstOf_of_family hfamily] at hs
    exact absurd hs (Attempt.fails_orElse (bytes_fails h args) hrest s)

/-- And it is taken wherever there is something to make of it. -/
theorem found_of_build (h : σ.Names q m) {options : Options} {args : List Sql} {s : Sql}
    (hkind : (isArray array || isJson array) = true)
    (hbytes : array.mappedBy Mapping.isBytes = false)
    (hs : (q.build b options.useRedshift m.returnTy array args).outcome = .ok s)
    (added : List ScalarTranslator) :
    (ScalarTranslator.firstOf (Scalar.builtIn b options ++ added)
      (σ.call m array args)).outcome = .ok s := by
  refine Scalar.outcome_firstOf_builtIn (f := .arrays) ?_ added
  rw [Scalar.Family.translator, translate_call h, ← Bool.not_or, hkind, hbytes]
  exact hs

end ArraySpelling

end QuerySql
