import QuerySql.Proofs.Expr.Recase
import QuerySql.Proofs.Families
import QuerySql.Proofs.Retouch

/-!
# Method calls on retouched operands

No scalar translator looks at the names of the functions in its operands, or at the letter case that
matches in them heed. What it makes of retouched operands is what it makes of the operands,
retouched (`RetouchesTo`). Three functions are not on every server:

* `array_position`, which one method of arrays and lists becomes where the server has it
  (`Arrays.retouch_indexOf`);
* the two functions that make new identifiers, of which the version selects one
  (`Numbers.retouchesTo_newGuid`).

All the other calls are of functions that every server has (`*_not_serverBound`). The methods that
match regardless of letter case make another match of retouched operands, if case is forgotten; that
is what the methods that heed it make of them (`Patterns.retouch_like`).
-/

namespace QuerySql

variable {σ : Retouch} {b : Builder}

/-- The method makes no match of which the letter case is forgotten. -/
def Retouch.Spares (σ : Retouch) (m : Method) : Prop :=
  ∀ ignoreCase withEscape, Known.identify? m = some (.like ignoreCase withEscape) →
    σ.ignores ignoreCase = ignoreCase

/-- Every method is spared but matches whose letter case is forgotten. -/
theorem Retouch.spares_or_like (σ : Retouch) (m : Method) :
    σ.Spares m ∨ σ.forgetsCase = true ∧
      ∃ ignoreCase withEscape, Known.identify? m = some (.like ignoreCase withEscape) := by
  cases hcase : σ.forgetsCase with
  | false => exact .inl fun ignoreCase withEscape _ => by simp [ignores, hcase]
  | true =>
    by_cases hlike : ∃ i w, Known.identify? m = some (.like i w)
    · exact .inr ⟨rfl, hlike⟩
    · exact .inl fun i w hk => absurd ⟨i, w, hk⟩ hlike

/-- The call with its operands retouched. -/
abbrev ScalarCall.retouch (σ : Retouch) (c : ScalarCall) : ScalarCall :=
  ⟨c.receiver.map (Sql.retouch σ), c.method, c.args.map (Sql.retouch σ)⟩

/-- The call of the method with the letter case that the function says. -/
abbrev ScalarCall.recase (f : Bool → Bool) (c : ScalarCall) : ScalarCall :=
  { c with method := c.method.recase f }

/-- What the first translator finds, retouched, is what the second one finds for retouched
operands. -/
structure ScalarTranslator.RetouchesTo (σ : Retouch) (t t' : ScalarTranslator) : Prop where
  name : t'.name = t.name
  translate : ∀ c, σ.Spares c.method →
    Sql.retouch σ <$> t.translate c = t'.translate (c.retouch σ)

/-- By induction on the translators: the same one takes the call before and after. -/
theorem ScalarTranslator.retouch_firstOf {ι : Type} {F G : ι → ScalarTranslator}
    (h : ∀ i, (F i).RetouchesTo σ (G i)) (is : List ι) (c : ScalarCall)
    (hc : σ.Spares c.method) :
    Sql.retouch σ <$> firstOf (is.map F) c = firstOf (is.map G) (c.retouch σ) := by
  induction is with
  | nil => rfl
  | cons i is ih =>
    simp only [List.map_cons, firstOf, Attempt.map_orElse, Attempt.map_reportFound,
      (h i).translate c hc, (h i).name, ih]

namespace Scalar

namespace Arrays

@[simp] theorem isJson_retouch (s : Sql) : isJson (s.retouch σ) = isJson s := by
  simp [isJson]

@[simp] theorem isArray_retouch (s : Sql) : isArray (s.retouch σ) = isArray s := by
  simp [isArray]

@[simp] theorem retouch_cardinality (a : Sql) :
    Sql.retouch σ <$> cardinality b a = cardinality b (a.retouch σ) := by
  simp (disch := decide) [cardinality, -Builder.strictCall_eq_pure]

@[simp] theorem retouch_elementAt (a i : Sql) (ty : Ty) :
    Sql.retouch σ <$> elementAt b a i ty = elementAt b (a.retouch σ) (i.retouch σ) ty := by
  unfold elementAt
  rw [isJson_retouch]
  split <;> simp

@[simp] theorem retouch_contains (a i : Sql) :
    Sql.retouch σ <$> contains b a i = contains b (a.retouch σ) (i.retouch σ) := by
  simp [contains]

@[simp] theorem retouch_join (separator a : Sql) :
    Sql.retouch σ <$> join b separator a = join b (separator.retouch σ) (a.retouch σ) := by
  unfold join
  rw [isArray_retouch, isJson_retouch]
  split
  · rfl
  · simp (disch := decide)

variable {useRedshift : Bool} (h : useRedshift = true ∨ σ.name "array_position" = "array_position")
include h

theorem retouch_indexOf (a i : Sql) :
    Sql.retouch σ <$> indexOf b useRedshift a i =
      indexOf b useRedshift (a.retouch σ) (i.retouch σ) := by
  unfold indexOf
  split
  · rfl
  next hno =>
    have hname := h.resolve_left hno
    refine Attempt.retouch_bind (Builder.retouch_call_of_name_eq b hname _ _ _) fun position => ?_
    exact Attempt.retouch_bind (by simp) fun zeroBased => by simp

theorem retouch_onList (m : Method) (a : Sql) (args : List Sql) :
    Sql.retouch σ <$> onList b useRedshift m a args =
      onList b useRedshift m (a.retouch σ) (args.map (Sql.retouch σ)) := by
  fun_cases onList b useRedshift m a args
  case case3 hn _ => simp [onList, *]
  case case5 hn _ => simp [onList, *, retouch_indexOf h]
  case case7 =>
    unfold onList
    split <;> simp_all [List.map_eq_cons_iff]
  all_goals simp [onList, *]

theorem retouch_onArray (k : Known) (a : Sql) (args : List Sql) :
    Sql.retouch σ <$> onArray b useRedshift k a args =
      onArray b useRedshift k (a.retouch σ) (args.map (Sql.retouch σ)) := by
  fun_cases onArray b useRedshift k a args
  case case1 item => exact retouch_contains a item
  case case2 => exact Attempt.retouch_bind (retouch_cardinality a) fun length => by simp
  case case8 item => exact retouch_indexOf h a item
  case case9 =>
    unfold onArray
    split <;> simp_all [List.map_eq_cons_iff]
  all_goals simp (disch := decide) [onArray, *]

theorem retouch_onSequence (m : Method) (a : Sql) (args : List Sql) :
    Sql.retouch σ <$> onSequence b useRedshift m a args =
      onSequence b useRedshift m (a.retouch σ) (args.map (Sql.retouch σ)) := by
  fun_cases onSequence b useRedshift m a args
  case case1 hk => simp [onSequence, hk]
  case case2 hk => simp [onSequence, hk]
  case case3 index hk => simp [onSequence, hk]
  all_goals
    unfold onSequence
    split <;> simp_all [List.map_eq_cons_iff, retouch_onArray h]

omit h in
theorem operand?_retouch (c : ScalarCall) : operand? (c.retouch σ) =
    (operand? c).map fun p => (p.1.retouch σ, p.2.map (Sql.retouch σ)) := by
  obtain ⟨receiver, method, args⟩ := c
  cases receiver with
  | none => cases args <;> rfl
  | some list =>
    simp only [operand?, Option.map_some]
    split <;> simp [*]

theorem retouch_onOperand (c : ScalarCall) :
    Sql.retouch σ <$> onOperand b useRedshift c = onOperand b useRedshift (c.retouch σ) := by
  unfold onOperand
  rw [operand?_retouch]
  cases operand? c with
  | none => rfl
  | some p =>
    obtain ⟨a, args⟩ := p
    simp only [Option.map_some, isArray_retouch, isJson_retouch, Sql.mappedBy_retouch]
    split
    · rfl
    split
    · rfl
    split
    · exact retouch_onList h _ a args
    · exact retouch_onSequence h _ a args

theorem retouchesTo : (translator b useRedshift).RetouchesTo σ (translator b useRedshift) := by
  refine ⟨rfl, fun c _ => ?_⟩
  simp only [translator]
  split
  · rcases c.args with _ | ⟨x, _ | ⟨y, _ | ⟨z, args⟩⟩⟩ <;> simp
  · exact retouch_onOperand h c

end Arrays

namespace Bytes

theorem retouch_needle (byte : Sql) (mapping : Mapping) :
    Sql.retouch σ <$> needle b byte mapping = needle b (byte.retouch σ) mapping := by
  unfold needle
  rw [Sql.value?_retouch]
  split
  · simp (disch := decide) [singletonOf]
  · split
    · rfl
    · split
      · simp
      · rfl

theorem retouch_contains (bytes byte : Sql) (mapping : Mapping) :
    Sql.retouch σ <$> contains b bytes byte mapping =
      contains b (bytes.retouch σ) (byte.retouch σ) mapping := by
  refine Attempt.retouch_bind (retouch_needle byte mapping) fun needle => ?_
  refine Attempt.retouch_bind ?_ fun position => by simp
  simp (disch := decide)

theorem retouch_first (bytes : Sql) (ty : Ty) :
    Sql.retouch σ <$> first b bytes ty = first b (bytes.retouch σ) ty := by
  refine Attempt.retouch_bind ?_ fun byte => by simp
  simp (disch := decide)

theorem retouchesTo : (translator b).RetouchesTo σ (translator b) := by
  refine ⟨rfl, fun c _ => ?_⟩
  simp only [translator]
  split
  · rfl
  rcases c.args with _ | ⟨bytes, rest⟩
  · rfl
  simp only [List.map_cons, Sql.mapping_retouch]
  split
  · rfl
  split
  next hk => simp [hk, retouch_contains]
  next hk => simp [hk, retouch_first]
  next => split <;> simp_all [List.map_eq_cons_iff]

end Bytes

namespace Casts

theorem retouchesTo_conversion :
    (conversionTranslator b).RetouchesTo σ (conversionTranslator b) := by
  refine ⟨rfl, fun c _ => ?_⟩
  simp only [conversionTranslator]
  split
  · rcases c.args with _ | ⟨x, _ | ⟨y, args⟩⟩
    · rfl
    · simp only [List.map_cons, List.map_nil]
      split <;> simp
    · rfl
  · rfl

theorem retouch_toText (x : Sql) : Sql.retouch σ <$> toText b x = toText b (x.retouch σ) := by
  unfold toText
  rw [Sql.ty_retouch]
  split
  · simp
  split
  · rfl
  simp only
  split <;> simp

theorem retouchesTo_text : (textTranslator b).RetouchesTo σ (textTranslator b) := by
  refine ⟨rfl, fun c _ => ?_⟩
  simp only [textTranslator, List.isEmpty_map]
  split
  · cases c.receiver <;> simp [retouch_toText]
  · rfl

end Casts

namespace Dates

theorem retouch_interval (unit : TimeUnit) (amount : Sql) :
    Sql.retouch σ <$> interval b unit amount = interval b unit (amount.retouch σ) := by
  have hname : "make_interval" ∉ Function.serverBound := by decide
  simp only [interval, countsInSeconds, Sql.ty_retouch]
  split
  · exact Builder.retouch_call b hname _ _ _
  · exact Attempt.retouch_bind (by simp) fun seconds => Builder.retouch_call b hname _ _ _

theorem retouch_addUnits (owner : Method.Owner) (receiver amount : Sql) (unit : TimeUnit) :
    Sql.retouch σ <$> addUnits b owner receiver unit amount =
      addUnits b owner (receiver.retouch σ) unit (amount.retouch σ) := by
  unfold addUnits
  refine Attempt.retouch_bind (retouch_interval unit amount) fun interval => ?_
  refine Attempt.retouch_bind (by simp) fun sum => ?_
  split <;> simp

theorem retouchesTo : (translator b).RetouchesTo σ (translator b) := by
  refine ⟨rfl, fun c _ => ?_⟩
  simp only [translator]
  split
  · rcases c.args with _ | ⟨x, _ | ⟨y, args⟩⟩ <;> simp
  · rcases c.receiver with _ | receiver
    · rfl
    rcases c.args with _ | ⟨amount, _ | ⟨other, args⟩⟩
    · rfl
    · cases units.find? fun u => u.method == c.method.name with
      | none => rfl
      | some unit =>
        simp only [Option.map_some, List.map_cons, List.map_nil]
        split
        · exact retouch_addUnits _ _ _ _
        · rfl
    · rfl

end Dates

namespace Similarity

theorem fuzzyFunction_not_serverBound (m : FuzzyMethod) :
    fuzzyFunction m ∉ Function.serverBound := by
  cases m <;> decide

theorem retouchesTo_fuzzy : (fuzzyTranslator b).RetouchesTo σ (fuzzyTranslator b) := by
  refine ⟨rfl, fun c _ => ?_⟩
  simp only [fuzzyTranslator]
  cases Known.identify? c.method with
  | none => rfl
  | some k =>
    cases k with
    | fuzzy m =>
      cases c.args with
      | nil => rfl
      | cons x args => exact Builder.retouch_strictCall b (fuzzyFunction_not_serverBound m) _ _ _
    | _ => rfl

theorem trigramForm_not_serverBound {m : TrigramMethod} {name : String}
    (h : trigramForm m = .function name) : name ∉ Function.serverBound := by
  cases m <;> cases h <;> decide

theorem retouchesTo_trigram : (trigramTranslator b).RetouchesTo σ (trigramTranslator b) := by
  refine ⟨rfl, fun c _ => ?_⟩
  simp only [trigramTranslator]
  cases Known.identify? c.method with
  | none => rfl
  | some k =>
    cases k with
    | trigram m =>
      rcases c.args with _ | ⟨x, args⟩
      · rfl
      simp only [List.map_cons]
      cases hform : trigramForm m with
      | function name =>
        exact Builder.retouch_strictCall b (trigramForm_not_serverBound hform) _ _ _
      | predicate op | measure op =>
        rcases args with _ | ⟨left, _ | ⟨right, _ | ⟨other, args⟩⟩⟩ <;> simp
    | _ => rfl

end Similarity

namespace Documents

theorem retouch_asJson (s : Sql) : (asJson b s).retouch σ = asJson b (s.retouch σ) := by
  unfold asJson
  rw [Sql.isTraversal_retouch, Sql.mappedBy_retouch, Sql.mapping_retouch]
  split
  · rfl
  simp only
  split <;> simp

theorem isBinary_retouch (s : Sql) : isBinary (s.retouch σ) = isBinary s := by
  cases s <;> simp [isBinary, Sql.mapping]

theorem retouch_typeOf (s : Sql) : Sql.retouch σ <$> typeOf b s = typeOf b (s.retouch σ) := by
  unfold typeOf
  rw [isBinary_retouch, Builder.retouch_call]
  · rfl
  · split <;> decide

theorem retouchesTo : (translator b).RetouchesTo σ (translator b) := by
  refine ⟨rfl, fun c _ => ?_⟩
  simp only [translator]
  cases Known.identify? c.method with
  | none => rfl
  | some k =>
    cases k with
    | json m =>
      cases m <;> rcases c.args with _ | ⟨x, _ | ⟨y, _ | ⟨z, _ | ⟨u, args⟩⟩⟩⟩ <;>
        simp [retouch_asJson, retouch_typeOf]
    | _ => rfl

end Documents

namespace Patterns

/-- Forgetting letter case in a match is matching by the method that has forgotten it. -/
theorem retouch_like (c : ScalarCall) :
    Sql.retouch σ <$> (likeTranslator b).translate c =
      (likeTranslator b).translate ((c.retouch σ).recase σ.ignores) := by
  simp only [likeTranslator, Known.identify?_recase]
  cases Known.identify? c.method with
  | none => rfl
  | some k =>
    cases k with
    | like ignoreCase withEscape =>
      rcases c.args with _ | ⟨x, _ | ⟨y, _ | ⟨z, _ | ⟨u, _ | ⟨v, args⟩⟩⟩⟩⟩ <;>
        simp [Known.recase]
    | _ => rfl

theorem retouchesTo_like : (likeTranslator b).RetouchesTo σ (likeTranslator b) := by
  refine ⟨rfl, fun c hc => ?_⟩
  rw [retouch_like, ScalarCall.recase, Method.recase_eq_self hc]

theorem retouch_regexMatch (subject pattern : Sql) (options : Regex.Options) :
    Sql.retouch σ <$> regexMatch b subject pattern options =
      regexMatch b (subject.retouch σ) (pattern.retouch σ) options := by
  unfold regexMatch
  split
  · rfl
  · simp

theorem retouchesTo_regex : (regexTranslator b).RetouchesTo σ (regexTranslator b) := by
  refine ⟨rfl, fun c _ => ?_⟩
  simp only [regexTranslator]
  cases Known.identify? c.method with
  | none => rfl
  | some k =>
    cases k with
    | regexIsMatch withOptions =>
      cases withOptions <;>
        rcases c.args with _ | ⟨subject, _ | ⟨pattern, _ | ⟨options, _ | ⟨x, args⟩⟩⟩⟩ <;> try rfl
      · exact retouch_regexMatch _ _ _
      · simp only [List.map_cons, List.map_nil, Sql.value?_retouch]
        split
        · exact retouch_regexMatch _ _ _
        · rfl
    | _ => rfl

end Patterns

namespace LabelTrees

theorem retouch_onReceiver (m : LabelTreeMethod) (path : Sql) (args : List Sql) :
    Sql.retouch σ <$> onReceiver b m path args =
      onReceiver b m (path.retouch σ) (args.map (Sql.retouch σ)) := by
  cases m <;> rcases args with _ | ⟨x, _ | ⟨y, _ | ⟨z, args⟩⟩⟩ <;>
    simp (disch := decide) [onReceiver, testOp?, -Builder.strictCall_eq_pure]

theorem retouchesTo : (translator b).RetouchesTo σ (translator b) := by
  refine ⟨rfl, fun c _ => ?_⟩
  simp only [translator]
  split
  next hk => simp (disch := decide) [hk, -Builder.strictCall_eq_pure]
  next hk hreceiver => simp [hk, hreceiver, retouch_onReceiver]
  next => split <;> simp_all

end LabelTrees

namespace Networks

theorem form_not_serverBound {m : NetworkMethod} {name : String} (h : form m = .function name) :
    name ∉ Function.serverBound := by
  cases m <;> cases h <;> decide

theorem resultMapping_retouch (args : List Sql) (ty : Ty) :
    resultMapping (args.map (Sql.retouch σ)) ty = resultMapping args ty := by
  cases args with
  | nil => rfl
  | cons a args =>
    simp only [resultMapping, List.map_cons, List.head?_cons, Option.filter, Sql.ty_retouch]
    split <;> simp

theorem retouchesTo : (translator b).RetouchesTo σ (translator b) := by
  refine ⟨rfl, fun c _ => ?_⟩
  simp only [translator]
  split
  next m hk =>
    rcases c.args with _ | ⟨x, args⟩
    · cases form m <;> rfl
    cases hform : form m with
    | function name =>
      have hname := form_not_serverBound hform
      simp only [List.map_cons, resultMapping_retouch]
      exact Builder.retouch_strictCall b hname _ _ _
    | predicate op => rcases args with _ | ⟨left, _ | ⟨right, _ | ⟨other, args⟩⟩⟩ <;> simp
  next => rfl

end Networks

namespace Numbers

theorem functions_not_serverBound :
    ∀ f ∈ functions, f.function ∉ Function.serverBound := by decide

theorem retouch_keepingCall {function : String} (h : function ∉ Function.serverBound)
    (args : List Sql) (ty : Ty) :
    Sql.retouch σ <$> keepingCall b function args ty =
      keepingCall b function (args.map (Sql.retouch σ)) ty := by
  unfold keepingCall
  rw [Builder.retouch_strictCall b h]
  cases args <;> simp

theorem retouch_roundTo (value digits : Sql) (ty : Ty) :
    Sql.retouch σ <$> roundTo b value digits ty =
      roundTo b (value.retouch σ) (digits.retouch σ) ty := by
  unfold roundTo
  split
  · exact retouch_keepingCall (by decide) _ _
  · refine Attempt.retouch_bind ?_ fun rounded => by simp
    simp (disch := decide) [-Builder.strictCall_eq_pure]

theorem retouch_extreme {function : String} (h : function ∉ Function.serverBound) (x y : Sql)
    (ty : Ty) :
    Sql.retouch σ <$> extreme b function x y ty =
      extreme b function (x.retouch σ) (y.retouch σ) ty := by
  simp only [extreme, Sql.mapping_retouch]
  rw [Builder.retouch_call b h]
  simp

theorem retouch_byName (method : String) (args : List Sql) (ty : Ty) :
    Sql.retouch σ <$> byName b method args ty =
      byName b method (args.map (Sql.retouch σ)) ty := by
  fun_cases byName b method args ty
  case case1 f hkeeps hf =>
    simp only [byName, hf, hkeeps, if_true]
    exact retouch_keepingCall (functions_not_serverBound f (List.mem_of_find?_eq_some hf)) _ _
  case case2 f hkeeps hf =>
    simp only [byName, hf, if_neg hkeeps]
    exact Builder.retouch_strictCall b
      (functions_not_serverBound f (List.mem_of_find?_eq_some hf)) _ _ _
  case case3 value hf => exact retouch_keepingCall (by decide) _ _
  case case4 value digits hf => exact retouch_roundTo _ _ _
  case case5 value hf => exact Builder.retouch_strictCall b (by decide) _ _ _
  case case6 value base hf => exact Builder.retouch_strictCall b (by decide) _ _ _
  case case7 value hf =>
    have hname : "sign" ∉ Function.serverBound := by decide
    refine Attempt.retouch_bind ?_ fun sign => by simp
    rw [Sql.ty_retouch]
    exact retouch_keepingCall hname _ _
  case case8 x y hf => exact retouch_extreme (by decide) _ _ _
  case case9 x y hf => exact retouch_extreme (by decide) _ _ _
  case case10 hf _ _ _ _ _ _ _ =>
    simp only [byName, hf]
    rcases args with _ | ⟨x, _ | ⟨y, _ | ⟨z, args⟩⟩⟩ <;> simp_all

theorem retouchesTo_math : (mathTranslator b).RetouchesTo σ (mathTranslator b) := by
  refine ⟨rfl, fun c _ => ?_⟩
  simp only [mathTranslator]
  split
  · exact retouch_byName _ _ _
  · rfl

theorem retouchesTo_random : (randomTranslator b).RetouchesTo σ (randomTranslator b) := by
  refine ⟨rfl, fun c _ => ?_⟩
  simp only [randomTranslator]
  split
  · exact Builder.retouch_call b (by decide) _ _ _
  · rfl

/-- The one translator that depends on the version calls another function for another version. -/
theorem retouchesTo_newGuid {v v' : Bool} (h : σ.name (newGuidFunction v) = newGuidFunction v') :
    (newGuidTranslator b v).RetouchesTo σ (newGuidTranslator b v') := by
  refine ⟨rfl, fun c _ => ?_⟩
  simp only [newGuidTranslator]
  split
  · simp [Builder.call, Sql.retouch, Function.rename, h]
  · rfl

end Numbers

namespace Rows

theorem retouchesTo : (translator b).RetouchesTo σ (translator b) := by
  refine ⟨rfl, fun c _ => ?_⟩
  simp only [translator]
  cases Known.identify? c.method with
  | none => rfl
  | some k =>
    cases k with
    | row m =>
      rcases c.args with _ | ⟨x, _ | ⟨left, args⟩⟩
      · rfl
      · rfl
      cases left with
      | row xs ty =>
        rcases args with _ | ⟨right, args⟩
        · rfl
        cases right with
        | row ys ty' =>
          cases args with
          | nil =>
            simp only [List.map_cons, List.map_nil, Sql.retouch, Sql.retouchAll_eq_map,
              List.length_map]
            split <;> simp
          | cons y args => rfl
        | _ => rfl
      | _ => rfl
    | _ => rfl

end Rows

namespace Texts

theorem retouch_hasOnSide (side : Side) (subject other : Sql) :
    Sql.retouch σ <$> hasOnSide b side subject other =
      hasOnSide b side (subject.retouch σ) (other.retouch σ) := by
  unfold hasOnSide
  rw [Sql.value?_retouch]
  split
  · simp
  · rfl
  · have hside : side.function ∉ Function.serverBound := by cases side <;> decide
    refine Attempt.retouch_bind (Builder.retouch_strictCall b (by decide) _ _ _) fun length => ?_
    exact Attempt.retouch_bind (Builder.retouch_strictCall b hside _ _ _) fun part => by simp

theorem retouch_isNullOr (subject trimmed : Sql) :
    (isNullOr b subject trimmed).retouch σ =
      isNullOr b (subject.retouch σ) (trimmed.retouch σ) := by
  simp [isNullOr]

theorem retouch_position (subject needle : Sql) :
    Sql.retouch σ <$> position b subject needle =
      position b (subject.retouch σ) (needle.retouch σ) :=
  Builder.retouch_strictCall b (by decide) _ _ _

theorem retouch_textCall {function : String} (h : function ∉ Function.serverBound)
    (args : List Sql) : Sql.retouch σ <$> onReceiver.call b function args =
      onReceiver.call b function (args.map (Sql.retouch σ)) :=
  Builder.retouch_strictCall b h _ _ _

theorem retouch_onReceiver (m : TextMethod) (subject : Sql) (args : List Sql) :
    Sql.retouch σ <$> onReceiver b m subject args =
      onReceiver b m (subject.retouch σ) (args.map (Sql.retouch σ)) := by
  cases m <;> rcases args with _ | ⟨x, _ | ⟨y, _ | ⟨z, args⟩⟩⟩ <;>
    simp (disch := decide) only [onReceiver, retouch_hasOnSide, retouch_textCall, List.map_cons,
      List.map_nil, Builder.retouch_oneBased, Attempt.map_decline]
  · exact Attempt.retouch_bind (retouch_position subject x) fun position => by simp
  · exact Attempt.retouch_bind (retouch_position subject x) fun position => by simp

theorem retouchesTo : (translator b).RetouchesTo σ (translator b) := by
  refine ⟨rfl, fun c _ => ?_⟩
  simp only [translator]
  cases Known.identify? c.method with
  | none => rfl
  | some k =>
    cases k with
    | text m =>
      cases m with
      | isNullOrEmpty =>
        rcases c.args with _ | ⟨x, _ | ⟨y, args⟩⟩ <;> cases c.receiver <;>
          simp [retouch_isNullOr, onReceiver]
      | isNullOrWhiteSpace =>
        have hname : σ.name "btrim" = "btrim" := σ.name_eq _ (by decide)
        rcases c.args with _ | ⟨x, _ | ⟨y, args⟩⟩ <;> cases c.receiver <;>
          simp [retouch_isNullOr, onReceiver, Function.rename, hname]
      | _ =>
        cases c.receiver with
        | none => rfl
        | some subject => exact retouch_onReceiver _ subject c.args
    | _ => rfl

end Texts

/-! ## The registry -/

theorem retouchesTo_builtIn {o o' : Options} (hredshift : o'.useRedshift = o.useRedshift)
    (hposition : o.useRedshift = true ∨ σ.name "array_position" = "array_position")
    (hguid : σ.name (Numbers.newGuidFunction (o.isVersionAtLeast 13 0)) =
      Numbers.newGuidFunction (o'.isVersionAtLeast 13 0)) (f : Family) :
    (f.translator b o).RetouchesTo σ (f.translator b o') := by
  cases f with
  | arrays =>
    simp only [Family.translator, hredshift]
    exact Arrays.retouchesTo hposition
  | bytes => exact Bytes.retouchesTo
  | conversions => exact Casts.retouchesTo_conversion
  | dates => exact Dates.retouchesTo
  | fuzzy => exact Similarity.retouchesTo_fuzzy
  | documents => exact Documents.retouchesTo
  | like => exact Patterns.retouchesTo_like
  | labelTrees => exact LabelTrees.retouchesTo
  | math => exact Numbers.retouchesTo_math
  | networks => exact Networks.retouchesTo
  | newGuid => exact Numbers.retouchesTo_newGuid hguid
  | valueTexts => exact Casts.retouchesTo_text
  | random => exact Numbers.retouchesTo_random
  | regex => exact Patterns.retouchesTo_regex
  | rows => exact Rows.retouchesTo
  | texts => exact Texts.retouchesTo
  | trigrams => exact Similarity.retouchesTo_trigram

end Scalar

end QuerySql
