import QuerySql.Proofs.Closure
import QuerySql.Scalar.Registry

/-!
# What the scalar translators build

A scalar translator builds with the operations of a builder and from the parts of a call. So what
building keeps, it keeps: `ScalarTranslator.Respects` says so of one translator, and
`Scalar.respects_builtIn` proves it of all that are built in. None of them calls `COALESCE` in any
other way than `Builder.coalesce` does, and what is built for native arrays only is built behind a
check of the array (`Scalar.Arrays.base?_of_isJson`, `Scalar.Arrays.isForeign_of_checks`).
-/

namespace QuerySql

/-- The receiver and the arguments satisfy `P`. -/
structure ScalarCall.Over (P : Sql → Prop) (c : ScalarCall) : Prop where
  receiver : ∀ x, c.receiver = some x → P x
  args : ∀ x ∈ c.args, P x

/-- What the translator makes of parts that satisfy `P` satisfies `P`. -/
def ScalarTranslator.Respects (P : Sql → Prop) (t : ScalarTranslator) : Prop :=
  ∀ c : ScalarCall, c.Over P → (t.translate c).Yields P

/-- The first translator that takes a call yields what has the property, if each of them does. -/
theorem ScalarTranslator.yields_firstOf {P : Sql → Prop} {ts : List ScalarTranslator}
    (h : ∀ t ∈ ts, t.Respects P) {c : ScalarCall} (hc : c.Over P) : (firstOf ts c).Yields P := by
  induction ts with
  | nil => exact Attempt.yields_decline
  | cons t ts ih =>
    refine Attempt.yields_orElse (Attempt.yields_reportFound (h t List.mem_cons_self c hc) _) ?_
    exact ih fun t' ht' => h t' (List.mem_cons_of_mem _ ht')

namespace Scalar

variable {b : Builder} {columns : ColumnLookup} {P : Sql → Prop}

section

variable {x y z : Sql}

theorem forall_mem_one (hx : P x) : ∀ s ∈ [x], P s := List.forall_mem_singleton.mpr hx

theorem forall_mem_two (hx : P x) (hy : P y) : ∀ s ∈ [x, y], P s :=
  List.forall_mem_cons.mpr ⟨hx, forall_mem_one hy⟩

theorem forall_mem_three (hx : P x) (hy : P y) (hz : P z) : ∀ s ∈ [x, y, z], P s :=
  List.forall_mem_cons.mpr ⟨hx, forall_mem_two hy hz⟩

end

/-! ## Arrays -/

namespace Arrays

/-- The array that a method is called on, and the other arguments, are parts of the call. -/
theorem operand?_over {c : ScalarCall} {array : Sql} {args : List Sql} (hc : c.Over P)
    (ho : operand? c = some (array, args)) : P array ∧ ∀ x ∈ args, P x := by
  unfold operand? at ho
  split at ho
  next list args' hr =>
    split at ho
    · cases ho
      exact ⟨hc.receiver _ hr, hc.args⟩
    · cases ho
  next array' args' hr hargs =>
    cases ho
    have hall := hc.args
    rw [hargs] at hall
    exact List.forall_mem_cons.mp hall
  next => cases ho

/-- What is no document is neither a column of documents nor a path. -/
theorem base?_of_isJson {array : Sql} (h : isJson array = false) : Json.base? array = none := by
  obtain ⟨hpath, hmapping⟩ := Bool.or_eq_false_iff.mp h
  unfold Json.base?
  split
  · exact if_neg (Bool.eq_false_iff.mp hmapping)
  · cases hpath
  · rfl

/-- What is stored neither as a byte string nor as a document is a native array. -/
theorem isForeign_of_checks {array : Sql} (hbytes : array.mappedBy Mapping.isBytes = false)
    (h : isJson array = false) : array.isForeign = false := by
  obtain ⟨-, hmapping⟩ := Bool.or_eq_false_iff.mp h
  unfold Sql.isForeign Sql.mappedBy at *
  cases hm : array.mapping with
  | none => rfl
  | some m =>
    rw [hm] at hbytes hmapping
    exact Bool.or_eq_false_iff.mpr ⟨hbytes, hmapping⟩

variable (h : b.Closed columns P)

include h

theorem yields_elementAt {array index : Sql} (ty : Ty) (ha : P array) (hi : P index) :
    (elementAt b array index ty).Yields P := by
  unfold elementAt
  split
  · exact Attempt.yields_ofOption fun x hx => h.member? hx ha hi
  next hjson =>
    have hbase := base?_of_isJson (Bool.eq_false_iff.mpr hjson)
    exact Attempt.yields_pure (h.subscript hbase ha (h.oneBased hi))

theorem yields_contains {array item : Sql} (hnative : array.isForeign = false) (ha : P array)
    (hi : P item) : (contains b array item).Yields P :=
  Attempt.yields_pure (h.quantified .any .equal (fun _ => hnative) hi ha)

theorem yields_indexOf (useRedshift : Bool) {array item : Sql} (ha : P array) (hi : P item) :
    (indexOf b useRedshift array item).Yields P := by
  unfold indexOf
  split
  · exact Attempt.yields_decline
  · refine Attempt.yields_bind (P := P) ?_ fun position hp => ?_
    · exact h.yields_call _ _ ⟨nofun, nofun, rfl⟩ (by decide) (forall_mem_two ha hi)
    · refine Attempt.yields_bind (h.yields_binary? _ _ hp (h.const _ _)) fun zeroBased hz => ?_
      exact h.yields_coalesce _ hz (h.const _ _)

theorem yields_join {separator array : Sql} (hs : P separator) (ha : P array) :
    (join b separator array).Yields P := by
  unfold join
  split
  · exact Attempt.yields_decline
  · exact h.yields_call _ _ ⟨nofun, nofun, rfl⟩ (by decide) (forall_mem_three ha hs (h.text ""))

theorem yields_onList (useRedshift : Bool) (m : Method) {array : Sql} {args : List Sql}
    (hbytes : array.mappedBy Mapping.isBytes = false) (ha : P array) (hargs : ∀ x ∈ args, P x) :
    (onList b useRedshift m array args).Yields P := by
  unfold onList
  split
  next => exact yields_elementAt h _ ha (hargs _ List.mem_cons_self)
  next =>
    split
    · exact Attempt.yields_decline
    next hjson =>
      have hnative := isForeign_of_checks hbytes (Bool.eq_false_iff.mpr hjson)
      exact yields_contains h hnative ha (hargs _ List.mem_cons_self)
  next =>
    split
    · exact Attempt.yields_decline
    · exact yields_indexOf h _ ha (hargs _ List.mem_cons_self)
  next => exact h.yields_length ha
  next => exact Attempt.yields_decline

/-- The signature decides: each method of arrays is built from the array and its arguments only. -/
theorem yields_onArray (useRedshift : Bool) (k : Known) {array : Sql} {args : List Sql}
    (hnative : array.isForeign = false) (ha : P array) (hargs : ∀ x ∈ args, P x) :
    (onArray b useRedshift k array args).Yields P := by
  unfold onArray
  split
  next item => exact yields_contains h hnative ha (hargs item List.mem_cons_self)
  next =>
    refine Attempt.yields_bind (h.yields_length ha) fun length hl => ?_
    exact Attempt.yields_pure (h.binary _ _ hl (h.int 0))
  next other =>
    split
    · exact Attempt.yields_pure (h.binary _ _ ha (hargs other List.mem_cons_self))
    · exact Attempt.yields_decline
  next item =>
    exact h.yields_call _ _ ⟨nofun, nofun, rfl⟩ (by decide)
      (forall_mem_two ha (hargs item List.mem_cons_self))
  next other =>
    split
    · exact h.yields_call _ _ ⟨nofun, nofun, rfl⟩ (by decide)
        (forall_mem_two ha (hargs other List.mem_cons_self))
    · exact Attempt.yields_decline
  next item => exact yields_indexOf h _ ha (hargs item List.mem_cons_self)
  next => exact Attempt.yields_decline

/-- A byte string was excluded before, and a document is asked for its elements first. -/
theorem yields_onSequence (useRedshift : Bool) (m : Method) {array : Sql} {args : List Sql}
    (hbytes : array.mappedBy Mapping.isBytes = false) (ha : P array) (hargs : ∀ x ∈ args, P x) :
    (onSequence b useRedshift m array args).Yields P := by
  unfold onSequence
  split
  next => exact Attempt.yields_decline
  next => exact h.yields_length ha
  next index _ => exact yields_elementAt h _ ha (hargs index List.mem_cons_self)
  next =>
    split
    · exact Attempt.yields_decline
    next hjson =>
      have hnative := isForeign_of_checks hbytes (Bool.eq_false_iff.mpr hjson)
      exact yields_onArray h _ _ hnative ha hargs

theorem yields_onOperand (useRedshift : Bool) {c : ScalarCall} (hc : c.Over P) :
    (onOperand b useRedshift c).Yields P := by
  unfold onOperand
  split
  next => exact Attempt.yields_decline
  next array args ho =>
    obtain ⟨ha, hargs⟩ := operand?_over hc ho
    split
    · exact Attempt.yields_decline
    · split
      · exact Attempt.yields_decline
      next hbytes =>
        have hbytes := Bool.eq_false_iff.mpr hbytes
        split
        · exact yields_onList h _ _ hbytes ha hargs
        · exact yields_onSequence h _ _ hbytes ha hargs

/-- The translator for arrays keeps the property, with a position by either server. -/
theorem respects (useRedshift : Bool) : (translator b useRedshift).Respects P := by
  intro c hc
  simp only [translator]
  split
  · split
    next separator array hargs =>
      have hall := hc.args
      rw [hargs] at hall
      exact yields_join h (hall _ List.mem_cons_self)
        (hall _ (List.mem_cons_of_mem _ List.mem_cons_self))
    next => exact Attempt.yields_decline
  · exact yields_onOperand h _ hc

end Arrays

/-! ## Byte strings -/

namespace Bytes

variable (h : b.Closed columns P)

include h

/-- What is looked for is a constant, or the string of a single byte with that byte set. -/
theorem yields_needle {byte : Sql} (mapping : Mapping) (hb : P byte) :
    (needle b byte mapping).Yields P := by
  unfold needle
  split
  · exact h.yields_call _ _ ⟨nofun, nofun, rfl⟩ (by decide)
      (forall_mem_three (h.const _ _) (h.int 0) hb)
  · split
    · exact Attempt.yields_decline
    · split
      · exact Attempt.yields_pure (h.const _ _)
      · exact Attempt.yields_decline

theorem yields_contains {bytes byte : Sql} (mapping : Mapping) (hbs : P bytes) (hb : P byte) :
    (contains b bytes byte mapping).Yields P := by
  refine Attempt.yields_bind (yields_needle h mapping hb) fun needle hn => ?_
  refine Attempt.yields_bind (P := P) ?_ fun position hp => ?_
  · refine h.yields_call _ _ ⟨nofun, fun seps hs => ?_, rfl⟩ (by decide) (forall_mem_two hn hbs)
    cases hs
    rfl
  · exact Attempt.yields_pure (h.binary _ _ hp (h.int 0))

theorem yields_first {bytes : Sql} (ty : Ty) (hbs : P bytes) : (first b bytes ty).Yields P := by
  refine Attempt.yields_bind (P := P) ?_ fun byte hb => ?_
  · exact h.yields_call _ _ ⟨nofun, nofun, rfl⟩ (by decide) (forall_mem_two hbs (h.int 0))
  · exact Attempt.yields_pure (h.castTo hb _ _)

/-- The translator for byte strings keeps the property. -/
theorem respects : (translator b).Respects P := by
  intro c hc
  simp only [translator]
  split
  · exact Attempt.yields_decline
  · split
    next => exact Attempt.yields_decline
    next bytes rest hargs =>
      have hall := hc.args
      rw [hargs] at hall
      obtain ⟨hbs, hrest⟩ := List.forall_mem_cons.mp hall
      split
      · exact Attempt.yields_decline
      · split
        · exact yields_contains h _ hbs (hrest _ List.mem_cons_self)
        · exact yields_first h _ hbs
        · exact Attempt.yields_decline

end Bytes

/-! ## Conversions -/

namespace Casts

variable (h : b.Closed columns P)

include h

/-- A conversion is a cast. -/
theorem respects_conversion : (conversionTranslator b).Respects P := by
  intro c hc
  simp only [conversionTranslator]
  split
  · split
    next value hargs =>
      have hall := hc.args
      rw [hargs] at hall
      split
      · exact Attempt.yields_pure (h.castTo (hall _ List.mem_cons_self) _ _)
      · exact Attempt.yields_decline
    next => exact Attempt.yields_decline
  · exact Attempt.yields_decline

/-- A value as text: a cast, and an empty text for null. -/
theorem yields_toText {value : Sql} (hv : P value) : (toText b value).Yields P := by
  unfold toText
  split
  · exact Attempt.yields_pure hv
  · split
    · exact Attempt.yields_decline
    · simp only
      split
      · exact h.yields_coalesce _ (h.castTo hv _ _) (h.text "")
      · exact Attempt.yields_pure (h.castTo hv _ _)

theorem respects_text : (textTranslator b).Respects P := by
  intro c hc
  simp only [textTranslator]
  split
  · split
    next value hr => exact yields_toText h (hc.receiver _ hr)
    next => exact Attempt.yields_decline
  · exact Attempt.yields_decline

end Casts

/-! ## Dates -/

namespace Dates

variable (h : b.Closed columns P)

include h

theorem yields_interval (unit : TimeUnit) {amount : Sql} (ha : P amount) :
    (interval b unit amount).Yields P := by
  unfold interval
  simp only
  split
  · exact h.yields_makeInterval _ _ ha
  · refine Attempt.yields_bind (h.yields_binary? _ _ ha (h.const _ _)) fun seconds hs => ?_
    exact h.yields_makeInterval _ _ hs

theorem yields_addUnits (owner : Method.Owner) {receiver amount : Sql} (unit : TimeUnit)
    (hr : P receiver) (ha : P amount) : (addUnits b owner receiver unit amount).Yields P := by
  refine Attempt.yields_bind (yields_interval h unit ha) fun interval hi => ?_
  refine Attempt.yields_bind (h.yields_binary? _ _ hr hi) fun sum hs => ?_
  split
  · exact Attempt.yields_pure (h.castTo hs _ _)
  · exact Attempt.yields_pure hs

/-- A date plus an interval keeps the property, in whatever unit it is given. -/
theorem respects : (translator b).Respects P := by
  intro c hc
  have hall := hc.args
  simp only [translator]
  split
  · split
    next value hargs =>
      rw [hargs] at hall
      exact Attempt.yields_pure (h.castTo (hall _ List.mem_cons_self) _ _)
    next => exact Attempt.yields_decline
  · split
    next receiver amount unit hr hargs _ =>
      rw [hargs] at hall
      split
      · exact yields_addUnits h _ unit (hc.receiver _ hr) (hall _ List.mem_cons_self)
      · exact Attempt.yields_decline
    next => exact Attempt.yields_decline

end Dates

/-! ## Sounds and trigrams -/

namespace Similarity

theorem fuzzyFunction_not_reserved (m : FuzzyMethod) : fuzzyFunction m ∉ Function.reserved := by
  cases m <;> decide

/-- No trigram function has a name that is built specially. -/
theorem trigramForm_not_reserved {m : TrigramMethod} {name : String}
    (hm : trigramForm m = .function name) : name ∉ Function.reserved := by
  cases m <;> cases hm <;> decide

variable (h : b.Closed columns P)

include h

theorem respects_fuzzy : (fuzzyTranslator b).Respects P := by
  intro c hc
  have hall := hc.args
  simp only [fuzzyTranslator]
  split
  next m first args _ hargs =>
    rw [hargs] at hall
    exact h.yields_strictCall _ _ (fuzzyFunction_not_reserved m) (List.forall_mem_cons.mp hall).2
  next => exact Attempt.yields_decline

theorem respects_trigram : (trigramTranslator b).Respects P := by
  intro c hc
  have hall := hc.args
  simp only [trigramTranslator]
  split
  next m first args _ hargs =>
    rw [hargs] at hall
    have hrest := (List.forall_mem_cons.mp hall).2
    split
    next name args hm => exact h.yields_strictCall _ _ (trigramForm_not_reserved hm) hrest
    next op left right _ =>
      obtain ⟨hl, hr⟩ := List.forall_mem_cons.mp hrest
      exact Attempt.yields_pure (h.postgres op none none hl (hr _ List.mem_cons_self))
    next op left right _ =>
      obtain ⟨hl, hr⟩ := List.forall_mem_cons.mp hrest
      exact Attempt.yields_pure (h.postgres op _ none hl (hr _ List.mem_cons_self))
    next => exact Attempt.yields_decline
  next => exact Attempt.yields_decline

end Similarity

/-! ## Documents -/

namespace Documents

variable (h : b.Closed columns P)

include h

/-- An operand that is not JSON yet is cast to it or given the mapping. -/
theorem of_asJson {s : Sql} (hs : P s) : P (asJson b s) := by
  unfold asJson
  split
  · exact hs
  · simp only
    split
    · exact h.castTo hs _ _
    · exact h.fill hs _

/-- Functions on documents are operators on the operands as JSON, or the question for their kind. -/
theorem respects : (translator b).Respects P := by
  intro c hc
  have hall := hc.args
  simp only [translator]
  split
  case h_6 first document _ hargs =>
    rw [hargs] at hall
    obtain ⟨-, hrest⟩ := List.forall_mem_cons.mp hall
    refine h.yields_call _ _ ⟨nofun, nofun, rfl⟩ ?_
      (forall_mem_one (of_asJson h (hrest _ List.mem_cons_self)))
    show (if isBinary _ then "jsonb_typeof" else "json_typeof") ∉ _
    split <;> decide
  case h_7 => exact Attempt.yields_decline
  all_goals
    rename_i hargs
    rw [hargs] at hall
    obtain ⟨-, hrest⟩ := List.forall_mem_cons.mp hall
    obtain ⟨hl, hr⟩ := List.forall_mem_cons.mp hrest
    have hr := hr _ List.mem_cons_self
  case h_1 | h_2 =>
    exact Attempt.yields_pure (h.postgres _ none none (of_asJson h hl) (of_asJson h hr))
  case h_3 | h_4 | h_5 => exact Attempt.yields_pure (h.postgres _ none none (of_asJson h hl) hr)

end Documents

/-! ## Patterns -/

namespace Patterns

variable (h : b.Closed columns P)

include h

/-- A match without an escape character gets the empty one, which is a text. -/
theorem respects_like : (likeTranslator b).Respects P := by
  intro c hc
  have hall := hc.args
  simp only [likeTranslator]
  split
  next ignoreCase _ first subject pattern escape _ hargs =>
    rw [hargs] at hall
    obtain ⟨-, hrest⟩ := List.forall_mem_cons.mp hall
    obtain ⟨hs, hrest⟩ := List.forall_mem_cons.mp hrest
    obtain ⟨hp, he⟩ := List.forall_mem_cons.mp hrest
    refine Attempt.yields_pure (h.like ignoreCase hs hp fun e heq => ?_)
    cases heq
    exact he _ List.mem_cons_self
  next ignoreCase _ first subject pattern _ hargs =>
    rw [hargs] at hall
    obtain ⟨-, hrest⟩ := List.forall_mem_cons.mp hall
    obtain ⟨hs, hp⟩ := List.forall_mem_cons.mp hrest
    refine Attempt.yields_pure (h.like ignoreCase hs (hp _ List.mem_cons_self) fun e heq => ?_)
    cases heq
    exact h.text ""
  next => exact Attempt.yields_decline

theorem yields_regexMatch {subject pattern : Sql} (o : Regex.Options) (hs : P subject)
    (hp : P pattern) : (regexMatch b subject pattern o).Yields P := by
  unfold regexMatch
  split
  · exact Attempt.yields_bind (Attempt.yields_report _) fun _ _ => Attempt.yields_decline
  · exact Attempt.yields_pure (h.regexMatch _ hs hp)

theorem respects_regex : (regexTranslator b).Respects P := by
  intro c hc
  have hall := hc.args
  simp only [regexTranslator]
  split
  next subject pattern _ hargs =>
    rw [hargs] at hall
    obtain ⟨hs, hp⟩ := List.forall_mem_cons.mp hall
    exact yields_regexMatch h _ hs (hp _ List.mem_cons_self)
  next subject pattern options _ hargs =>
    rw [hargs] at hall
    obtain ⟨hs, hrest⟩ := List.forall_mem_cons.mp hall
    split
    · exact yields_regexMatch h _ hs (hrest _ List.mem_cons_self)
    · exact Attempt.yields_bind (Attempt.yields_report _) fun _ _ => Attempt.yields_decline
  next => exact Attempt.yields_decline

end Patterns

/-! ## Label trees -/

namespace LabelTrees

variable (h : b.Closed columns P)

include h

theorem yields_onReceiver (m : LabelTreeMethod) {path : Sql} {args : List Sql} (hp : P path)
    (hargs : ∀ x ∈ args, P x) : (onReceiver b m path args).Yields P := by
  have hcons := List.forall_mem_cons.mpr ⟨hp, hargs⟩
  unfold onReceiver
  split
  · exact Attempt.yields_pure (h.postgres _ none none hp (hargs _ List.mem_cons_self))
  all_goals first
    | exact h.yields_strictCall _ _ (by decide) hcons
    | exact Attempt.yields_decline

theorem respects : (translator b).Respects P := by
  intro c hc
  simp only [translator]
  split
  · exact h.yields_strictCall _ _ (by decide) hc.args
  next m path _ _ hr => exact yields_onReceiver h _ (hc.receiver _ hr) hc.args
  · exact Attempt.yields_decline

end LabelTrees

/-! ## Networks -/

namespace Networks

theorem form_not_reserved {m : NetworkMethod} {name : String} (hm : form m = .function name) :
    name ∉ Function.reserved := by
  cases m <;> cases hm <;> decide

theorem respects (h : b.Closed columns P) : (translator b).Respects P := by
  intro c hc
  have hall := hc.args
  simp only [translator]
  split
  · split
    next op first left right _ hargs =>
      rw [hargs] at hall
      obtain ⟨-, hrest⟩ := List.forall_mem_cons.mp hall
      obtain ⟨hl, hr⟩ := List.forall_mem_cons.mp hrest
      exact Attempt.yields_pure (h.postgres op none none hl (hr _ List.mem_cons_self))
    next name first args hm hargs =>
      rw [hargs] at hall
      exact h.yields_strictCall _ _ (form_not_reserved hm) (List.forall_mem_cons.mp hall).2
    next => exact Attempt.yields_decline
  · exact Attempt.yields_decline

end Networks

/-! ## Numbers -/

namespace Numbers

/-- None of the mathematical functions has a name that is built specially. -/
theorem functions_not_reserved : ∀ f ∈ functions, f.function ∉ Function.reserved := by decide

theorem newGuidFunction_not_reserved (atLeast13 : Bool) :
    newGuidFunction atLeast13 ∉ Function.reserved := by
  cases atLeast13 <;> decide

variable (h : b.Closed columns P)

include h

theorem yields_keepingCall {function : String} {args : List Sql} (ty : Ty)
    (hn : function ∉ Function.reserved) (hargs : ∀ x ∈ args, P x) :
    (keepingCall b function args ty).Yields P :=
  h.yields_strictCall _ _ hn hargs

theorem yields_roundTo {value digits : Sql} (ty : Ty) (hv : P value) (hd : P digits) :
    (roundTo b value digits ty).Yields P := by
  unfold roundTo
  split
  · exact yields_keepingCall h _ (by decide) (forall_mem_two hv hd)
  · refine Attempt.yields_bind (P := P) ?_ fun rounded hr => ?_
    · exact h.yields_strictCall _ _ (by decide) (forall_mem_two (h.castTo hv _ _) hd)
    · exact Attempt.yields_pure (h.castTo hr _ _)

theorem yields_extreme {function : String} {x y : Sql} (ty : Ty) (hn : function ∉ Function.reserved)
    (hx : P x) (hy : P y) : (extreme b function x y ty).Yields P :=
  h.yields_call _ _ ⟨nofun, nofun, rfl⟩ hn (forall_mem_two (h.fill hx _) (h.fill hy _))

/-- By cases on the name: a function of the table, or one that is put together in a way of its own.
-/
theorem yields_byName (method : String) {args : List Sql} (ty : Ty) (hargs : ∀ x ∈ args, P x) :
    (byName b method args ty).Yields P := by
  unfold byName
  split
  next f hf =>
    have hn := functions_not_reserved f (List.mem_of_find?_eq_some hf)
    split
    · exact yields_keepingCall h _ hn hargs
    · exact h.yields_strictCall _ _ hn hargs
  next =>
    split
    · exact yields_keepingCall h _ (by decide) hargs
    · exact yields_roundTo h _ (hargs _ List.mem_cons_self)
        (hargs _ (List.mem_cons_of_mem _ List.mem_cons_self))
    · exact h.yields_strictCall _ _ (by decide) hargs
    · obtain ⟨hv, hb⟩ := List.forall_mem_cons.mp hargs
      exact h.yields_strictCall _ _ (by decide)
        (forall_mem_two (hb _ List.mem_cons_self) hv)
    · refine Attempt.yields_bind (yields_keepingCall h _ (by decide) hargs) fun sign hs => ?_
      exact Attempt.yields_pure (h.castTo hs _ _)
    · exact yields_extreme h _ (by decide) (hargs _ List.mem_cons_self)
        (hargs _ (List.mem_cons_of_mem _ List.mem_cons_self))
    · exact yields_extreme h _ (by decide) (hargs _ List.mem_cons_self)
        (hargs _ (List.mem_cons_of_mem _ List.mem_cons_self))
    · exact Attempt.yields_decline

theorem respects_math : (mathTranslator b).Respects P := by
  intro c hc
  simp only [mathTranslator]
  split
  · exact yields_byName h _ _ hc.args
  · exact Attempt.yields_decline

theorem respects_random : (randomTranslator b).Respects P := by
  intro c _
  simp only [randomTranslator]
  split
  · exact h.yields_call _ _ ⟨nofun, nofun, rfl⟩ (by decide) nofun
  · exact Attempt.yields_decline

theorem respects_newGuid (atLeast13 : Bool) : (newGuidTranslator b atLeast13).Respects P := by
  intro c _
  simp only [newGuidTranslator]
  split
  · exact h.yields_call _ _ ⟨nofun, nofun, rfl⟩ (newGuidFunction_not_reserved atLeast13) nofun
  · exact Attempt.yields_decline

end Numbers

/-! ## Rows -/

namespace Rows

theorem respects (h : b.Closed columns P) : (translator b).Respects P := by
  intro c hc
  have hall := hc.args
  simp only [translator]
  split
  next m first left leftTy right rightTy _ hargs =>
    rw [hargs] at hall
    obtain ⟨-, hrest⟩ := List.forall_mem_cons.mp hall
    obtain ⟨hl, hr⟩ := List.forall_mem_cons.mp hrest
    split
    · exact h.yields_binary? _ _ hl (hr _ List.mem_cons_self)
    · exact Attempt.yields_decline
  next => exact Attempt.yields_decline

end Rows

/-! ## Texts -/

namespace Texts

variable (h : b.Closed columns P)

include h

/-- A constant prefix is matched, any other is cut out by its length and compared. -/
theorem yields_hasOnSide (side : Side) {subject other : Sql} (hs : P subject) (ho : P other) :
    (hasOnSide b side subject other).Yields P := by
  unfold hasOnSide
  split
  next => exact Attempt.yields_pure (h.like false hs (h.text _) fun e he => by
      cases he
      exact h.text _)
  next => exact Attempt.yields_decline
  next =>
    refine Attempt.yields_bind (P := P) ?_ fun length hl => ?_
    · exact h.yields_strictCall _ _ (by decide) (forall_mem_one ho)
    refine Attempt.yields_bind (P := P) ?_ fun part hp => ?_
    · refine h.yields_strictCall _ _ ?_ (forall_mem_two hs hl)
      cases side <;> decide
    · exact Attempt.yields_pure (h.binary .equal none hp ho)

theorem of_isNullOr {subject trimmed : Sql} (hs : P subject) (ht : P trimmed) :
    P (isNullOr b subject trimmed) :=
  h.binary .orElse none (h.unary .isNull hs) (h.binary .equal none ht (h.text ""))

theorem yields_textCall {function : String} {args : List Sql} (hn : function ∉ Function.reserved)
    (hargs : ∀ x ∈ args, P x) : (onReceiver.call b function args).Yields P :=
  h.yields_strictCall _ _ hn hargs

/-- By cases on the method: each is a call, a match or a comparison of calls. -/
theorem yields_onReceiver (m : TextMethod) {subject : Sql} {args : List Sql} (hs : P subject)
    (hargs : ∀ x ∈ args, P x) : (onReceiver b m subject args).Yields P := by
  have hcons := List.forall_mem_cons.mpr ⟨hs, hargs⟩
  unfold onReceiver
  split
  case h_1 | h_4 =>
    have hposition : (position b subject _).Yields P :=
      h.yields_strictCall _ _ (by decide) hcons
    refine Attempt.yields_bind hposition fun position hp => ?_
    first
      | exact Attempt.yields_pure (h.binary .greaterThan none hp (h.int 0))
      | exact h.yields_binary? .subtract none hp (h.int 1)
  case h_2 | h_3 => exact yields_hasOnSide h _ hs (hargs _ List.mem_cons_self)
  case h_8 =>
    have hi := h.oneBased (hargs _ List.mem_cons_self)
    exact yields_textCall h (by decide) (forall_mem_two hs hi)
  case h_9 =>
    obtain ⟨hi, hl⟩ := List.forall_mem_cons.mp hargs
    have hall := forall_mem_three hs (h.oneBased hi) (hl _ List.mem_cons_self)
    exact yields_textCall h (by decide) hall
  all_goals first
    | exact yields_textCall h (by decide) hcons
    | exact Attempt.yields_decline

theorem respects : (translator b).Respects P := by
  intro c hc
  have hall := hc.args
  simp only [translator]
  split
  next subject _ hargs =>
    rw [hargs] at hall
    have hs := hall _ List.mem_cons_self
    exact Attempt.yields_pure (of_isNullOr h hs hs)
  next subject _ hargs =>
    rw [hargs] at hall
    have hs := hall _ List.mem_cons_self
    refine Attempt.yields_bind (P := P) ?_ fun trimmed ht => ?_
    · exact h.yields_strictCall _ _ (by decide) (forall_mem_two hs (h.text _))
    · exact Attempt.yields_pure (of_isNullOr h hs ht)
  next hr _ _ => exact yields_onReceiver h _ (hc.receiver _ hr) hall
  next => exact Attempt.yields_decline

end Texts

/-! ## The registry -/

/-- What building keeps, every built-in translator keeps. -/
theorem respects_builtIn (h : b.Closed columns P) (options : Options) :
    ∀ t ∈ builtIn b options, t.Respects P := by
  intro t ht
  simp only [builtIn, List.mem_cons, List.not_mem_nil, or_false] at ht
  rcases ht with rfl | rfl | rfl | rfl | rfl | rfl | rfl | rfl | rfl | rfl | rfl | rfl | rfl | rfl |
    rfl | rfl | rfl
  · exact Arrays.respects h _
  · exact Bytes.respects h
  · exact Casts.respects_conversion h
  · exact Dates.respects h
  · exact Similarity.respects_fuzzy h
  · exact Documents.respects h
  · exact Patterns.respects_like h
  · exact LabelTrees.respects h
  · exact Numbers.respects_math h
  · exact Networks.respects h
  · exact Numbers.respects_newGuid h _
  · exact Casts.respects_text h
  · exact Numbers.respects_random h
  · exact Patterns.respects_regex h
  · exact Rows.respects h
  · exact Texts.respects h
  · exact Similarity.respects_trigram h

end Scalar

end QuerySql
