import Mathlib.Data.List.Basic
import QuerySql.Proofs.Families
import QuerySql.Scalar.Composite

/-!
# The composite translator and the registry

The table of the composite translator is for few methods, and no two of its entries are for the same
one. So a call is what its entry makes of it, and can be compared with what the registry makes of
the call, where one family of methods decides.

* `Scalar.Composite.outcome_of_entry`: the table leaves a call to the entry for its method.
* `Scalar.Composite.agrees_with_registry`: where the two make the same of a call.
* `Scalar.Composite.text_of_value_is_left_out`: a call that only the registry translates.
-/

namespace QuerySql

namespace Scalar

variable {b : Builder} {options : Options} {c : ScalarCall}

namespace Composite

/-! ## The table -/

/-- The entries for a method. -/
def entriesFor (m : Method) (es : List Entry) : List Entry := es.filter fun e => e.matchesMethod m

/-- Entries for other methods are passed over. -/
theorem firstOf_entriesFor (es : List Entry) :
    firstOf b es c = firstOf b (entriesFor c.method es) c := by
  induction es with
  | nil => rfl
  | cons e es ih =>
    cases he : e.matchesMethod c.method with
    | true => simp only [entriesFor, List.filter_cons, he, if_true, firstOf, ih]
    | false =>
      simp only [entriesFor, List.filter_cons, he, Bool.false_eq_true, if_false, firstOf, ih]

/-- A call is what the one entry for its method makes of it. -/
theorem outcome_of_entry {e : Entry} (h : entriesFor c.method entries = [e]) :
    ((translator b).translate c).outcome = (e.build b c).outcome := by
  have hmem : e ∈ entriesFor c.method entries := by
    rw [h]
    exact List.mem_cons_self
  have he : e.matchesMethod c.method = true := (List.mem_filter.mp hmem).2
  change (firstOf b entries c).outcome = _
  rw [firstOf_entriesFor, h, firstOf, if_pos he]
  exact Attempt.outcome_orElse_decline _

section Matches

variable (m : Method)

@[simp] theorem matches_conversion : conversionEntry.matchesMethod m =
    (decide (m.owner = .convert) && "To".toList.isPrefixOf m.name.toList) := rfl

@[simp] theorem matches_math (method function : String) :
    (mathEntry method function).matchesMethod m = (decide (m.owner = .math) && m.name == method) :=
  rfl

@[simp] theorem matches_receiver (k : TextMethod) (function : String) :
    (receiverEntry k function).matchesMethod m = decide (Known.identify? m = some (.text k)) := rfl

@[simp] theorem matches_substring :
    substringEntry.matchesMethod m = decide (Known.identify? m = some (.text .substring)) := rfl

@[simp] theorem matches_endsWith :
    endsWithEntry.matchesMethod m = decide (Known.identify? m = some (.text .endsWith)) := rfl

@[simp] theorem matches_startsWith :
    startsWithEntry.matchesMethod m = decide (Known.identify? m = some (.text .startsWith)) := rfl

@[simp] theorem matches_contains :
    containsEntry.matchesMethod m = decide (Known.identify? m = some (.text .contains)) := rfl

@[simp] theorem matches_replace :
    replaceEntry.matchesMethod m = decide (Known.identify? m = some (.text .replace)) := rfl

@[simp] theorem matches_regex :
    regexEntry.matchesMethod m = decide (Known.identify? m = some (.regexIsMatch false)) := rfl

end Matches

/-- The entry for a method that is known by its signature. -/
def entryOf? : Known → Option Entry
  | .text .substring => some substringEntry
  | .text .endsWith => some endsWithEntry
  | .text .startsWith => some startsWithEntry
  | .text .contains => some containsEntry
  | .text .replace => some replaceEntry
  | .text .toLower => some (receiverEntry .toLower "lower")
  | .text .toUpper => some (receiverEntry .toUpper "upper")
  | .text .trim => some (receiverEntry .trim "btrim")
  | .text .trimEnd => some (receiverEntry .trimEnd "rtrim")
  | .text .trimStart => some (receiverEntry .trimStart "ltrim")
  | .regexIsMatch false => some regexEntry
  | _ => none

/-- The table has one entry for each known method that it is about. -/
theorem entries_of_known {k : Known} {e : Entry} (he : entryOf? k = some e) {m : Method}
    (hk : Known.identify? m = some k) : entriesFor m entries = [e] := by
  have hnamed : m.owner ≠ .convert ∧ m.owner ≠ .math := by
    constructor
    · intro howner
      cases (Known.identify?_of_isNamed (congrArg Method.Owner.isNamed howner)).symm.trans hk
    · intro howner
      cases (Known.identify?_of_isNamed (congrArg Method.Owner.isNamed howner)).symm.trans hk
  unfold entryOf? at he
  split at he <;> cases he <;> simp [entriesFor, entries, hk, hnamed]

/-- The functions for the methods of mathematics in the table. -/
def mathFunctions : List (String × String) :=
  [("Abs", "abs"), ("Ceiling", "ceiling"), ("Floor", "floor"), ("Pow", "power"), ("Round", "round"),
   ("Truncate", "trunc")]

/-- The table has one entry for each mathematical function, under its name. -/
theorem entries_of_math {m : Method} (howner : m.owner = .math) {function : String}
    (h : (m.name, function) ∈ mathFunctions) :
    entriesFor m entries = [mathEntry m.name function] := by
  have hk : Known.identify? m = none :=
    Known.identify?_of_isNamed (congrArg Method.Owner.isNamed howner)
  obtain ⟨name, hname⟩ : ∃ name, m.name = name := ⟨_, rfl⟩
  rw [hname] at h ⊢
  simp only [mathFunctions, List.mem_cons, Prod.mk.injEq, List.not_mem_nil, or_false] at h
  rcases h with ⟨rfl, rfl⟩ | ⟨rfl, rfl⟩ | ⟨rfl, rfl⟩ | ⟨rfl, rfl⟩ | ⟨rfl, rfl⟩ | ⟨rfl, rfl⟩ <;>
    simp [entriesFor, entries, hk, howner, hname]

/-- All conversions have one entry. -/
theorem entries_of_conversion {m : Method} (howner : m.owner = .convert)
    (hname : m.name ∈ Casts.conversions) : entriesFor m entries = [conversionEntry] := by
  have hk : Known.identify? m = none :=
    Known.identify?_of_isNamed (congrArg Method.Owner.isNamed howner)
  have hprefix : List.isPrefixOf ['T', 'o'] m.name.toList = true := by
    have hall : ∀ name ∈ Casts.conversions, List.isPrefixOf ['T', 'o'] name.toList = true := by
      decide
    exact hall _ hname
  simp [entriesFor, entries, hk, howner, hprefix]

/-! ## Agreement -/

/-- The methods that both know by their signatures and translate in the same way. -/
def shared : List Known :=
  [.text .substring, .text .contains, .text .replace, .text .toLower, .text .toUpper, .text .trim,
   .text .trimStart, .text .trimEnd, .regexIsMatch false]

/-- The two do the same where the entry does what the translator of the family does. -/
theorem outcome_eq_of_build {k : Known} {e : Entry} {f : Family} (he : entryOf? k = some e)
    (hk : Known.identify? c.method = some k) (hf : k.family? c.onBytes = some f)
    (h : e.build b c = (f.translator b options).translate c) :
    ((translator b).translate c).outcome =
      (ScalarTranslator.firstOf (builtIn b options) c).outcome := by
  rw [outcome_of_entry (entries_of_known he hk),
    outcome_builtIn_of_family ((ScalarCall.family?_of_known hk).trans hf), h]

/-- Without a receiver both decline a method of texts. -/
theorem outcome_eq_of_receiver {k : TextMethod} {build : Builder → Sql → List Sql → Attempt Sql}
    (he : entryOf? (.text k) = some (textEntry k build))
    (hk : Known.identify? c.method = some (.text k))
    (h : ∀ subject, build b subject c.args = Texts.onReceiver b k subject c.args) :
    ((translator b).translate c).outcome =
      (ScalarTranslator.firstOf (builtIn b options) c).outcome := by
  have hfamily : (Known.text k).family? c.onBytes = some .texts := by
    cases k with
    | join => cases he
    | _ => rfl
  refine outcome_eq_of_build he hk hfamily ?_
  obtain ⟨receiver, m, args⟩ := c
  simp only [textEntry, Family.translator, Texts.translator, hk]
  cases receiver with
  | none =>
    cases k with
    | isNullOrEmpty | isNullOrWhiteSpace => cases he
    | _ => rfl
  | some subject =>
    cases k with
    | isNullOrEmpty | isNullOrWhiteSpace => cases he
    | _ => exact h subject

/-- With the declared number of arguments. -/
theorem outcome_shared {k : Known} (hshared : k ∈ shared)
    (hk : Known.identify? c.method = some k)
    (hargs : c.args.length = c.method.parameterTypes.length) :
    ((translator b).translate c).outcome =
      (ScalarTranslator.firstOf (builtIn b options) c).outcome := by
  -- The call has as many operands as the method has parameters.
  have hlength : c.args.length = k.signature.parameters.length := by
    rw [hargs, Method.parameterTypes, List.length_map, (Known.signature_of_identify? hk).1]
  obtain ⟨receiver, m, args⟩ := c
  simp only [shared, List.mem_cons, List.not_mem_nil, or_false] at hshared
  rcases hshared with rfl | rfl | rfl | rfl | rfl | rfl | rfl | rfl | rfl
  next =>
    obtain ⟨start, length, rfl⟩ := List.length_eq_two.mp hlength
    exact outcome_eq_of_receiver rfl hk fun _ => rfl
  next =>
    obtain ⟨needle, rfl⟩ := List.length_eq_one_iff.mp hlength
    exact outcome_eq_of_receiver rfl hk fun _ => rfl
  next =>
    obtain ⟨old, new, rfl⟩ := List.length_eq_two.mp hlength
    exact outcome_eq_of_receiver rfl hk fun _ => rfl
  iterate 5
    next =>
      cases List.length_eq_zero_iff.mp hlength
      exact outcome_eq_of_receiver rfl hk fun _ => rfl
  next =>
    obtain ⟨subject, pattern, rfl⟩ := List.length_eq_two.mp hlength
    refine outcome_eq_of_build (f := .regex) rfl hk rfl ?_
    simp only [Family.translator, Patterns.regexTranslator, hk]
    rfl

/-- Both translators look a mathematical function up by its name. -/
theorem outcome_math (b : Builder) (options : Options) (howner : c.method.owner = .math)
    {function : String} (h : (c.method.name, function) ∈ mathFunctions) :
    ((translator b).translate c).outcome =
        (b.strictCall function c.args c.method.returnTy none).outcome ∧
      (ScalarTranslator.firstOf (builtIn b options) c).outcome =
        (Numbers.byName b c.method.name c.args c.method.returnTy).outcome := by
  constructor
  · exact outcome_of_entry (entries_of_math howner h)
  · have hname : c.method.name ≠ "ToString" := by
      have hall : ∀ p ∈ mathFunctions, p.1 ≠ "ToString" := by decide
      exact hall _ h
    have hfamily : c.family? = some .math :=
      ScalarCall.family?_of_owner (congrArg Method.Owner.family? howner) fun htext => hname htext.1
    rw [outcome_builtIn_of_family hfamily]
    simp only [Family.translator, Numbers.mathTranslator, howner, true_or, if_true]

/-- A call that keeps the mapping of its first argument is the call with the default mapping where
the two are the same, or there is only the default. -/
theorem outcome_keepingCall_iff {function : String} {args : List Sql} {ty : Ty} :
    (b.strictCall function args ty none).outcome =
        (Numbers.keepingCall b function args ty).outcome ↔
      ∀ x ∈ args.head?, x.mapping = none ∨ x.mapping = b.catalog.ofTy ty := by
  have hmapping (m : Option Mapping) :
      b.mappingOr none ty = b.mappingOr m ty ↔ m = none ∨ m = b.catalog.ofTy ty := by
    cases m with
    | none => exact ⟨fun _ => .inl rfl, fun _ => rfl⟩
    | some m => exact ⟨fun h => .inr h.symm, fun h => (h.resolve_left nofun).symm⟩
  rw [Numbers.keepingCall, Builder.strictCall_eq_pure, Builder.strictCall_eq_pure]
  simp only [Run.outcome_pure, Except.ok.injEq, Sql.call.injEq, true_and, hmapping]
  cases args with
  | nil => exact ⟨fun _ => nofun, fun _ => .inl rfl⟩
  | cons x xs => simp only [List.head?_cons, Option.bind_some, Option.mem_some_iff, forall_eq']

/-- Rounding and the like keep the mapping of their operand in the registry. -/
theorem keepingCall_of_name {name function : String} {args : List Sql} (ty : Ty)
    (h : (name, function) ∈ mathFunctions)
    (hname : name ∈ ["Abs", "Ceiling", "Floor", "Truncate"] ∨ name = "Round" ∧ args.length = 1) :
    Numbers.byName b name args ty = Numbers.keepingCall b function args ty := by
  simp only [mathFunctions, List.mem_cons, Prod.mk.injEq, List.not_mem_nil, or_false] at h
  rcases h with ⟨rfl, rfl⟩ | ⟨rfl, rfl⟩ | ⟨rfl, rfl⟩ | ⟨rfl, rfl⟩ | ⟨rfl, rfl⟩ | ⟨rfl, rfl⟩
  case inr.inr.inr.inl =>
    have hpower : ¬ ("Pow" ∈ ["Abs", "Ceiling", "Floor", "Truncate"] ∨ "Pow" = "Round") := by decide
    exact absurd (hname.imp_right And.left) hpower
  case inr.inr.inr.inr.inl =>
    obtain ⟨-, hargs⟩ := hname.resolve_left (by decide)
    obtain ⟨value, rfl⟩ := List.length_eq_one_iff.mp hargs
    rfl
  all_goals rfl

/-- A power is the same call, with the default mapping, for either translator. -/
theorem outcome_power (howner : c.method.owner = .math) (hname : c.method.name = "Pow") :
    ((translator b).translate c).outcome =
      (ScalarTranslator.firstOf (builtIn b options) c).outcome := by
  have hmem : (c.method.name, "power") ∈ mathFunctions := by
    rw [hname]
    decide
  obtain ⟨hcomposite, hregistry⟩ := outcome_math b options howner hmem
  have hpower : Numbers.byName b "Pow" c.args c.method.returnTy =
      b.strictCall "power" c.args c.method.returnTy none := rfl
  rw [hname, hpower] at hregistry
  exact hcomposite.trans hregistry.symm

/-- The composite translator gives the default mapping where the registry keeps that of the operand,
so they agree if it is the same. -/
theorem outcome_rounding_iff (howner : c.method.owner = .math)
    (hname : c.method.name ∈ ["Abs", "Ceiling", "Floor", "Truncate"] ∨
      c.method.name = "Round" ∧ c.args.length = 1) :
    ((translator b).translate c).outcome =
        (ScalarTranslator.firstOf (builtIn b options) c).outcome ↔
      ∀ x ∈ c.args.head?, x.mapping = none ∨ x.mapping = b.catalog.ofTy c.method.returnTy := by
  obtain ⟨function, hmem⟩ : ∃ function, (c.method.name, function) ∈ mathFunctions := by
    have hround : c.method.name ∈ ["Abs", "Ceiling", "Floor", "Truncate"] ++ ["Round"] := by
      rcases hname with h | ⟨h, -⟩
      · exact List.mem_append_left _ h
      · exact List.mem_append_right _ (List.mem_singleton.mpr h)
    have hall : ∀ name ∈ ["Abs", "Ceiling", "Floor", "Truncate"] ++ ["Round"],
        name ∈ mathFunctions.map Prod.fst := by decide
    obtain ⟨⟨_, function⟩, hmem, rfl⟩ := List.mem_map.mp (hall _ hround)
    exact ⟨function, hmem⟩
  obtain ⟨hcomposite, hregistry⟩ := outcome_math b options howner hmem
  rw [hcomposite, hregistry, keepingCall_of_name _ hmem hname]
  exact outcome_keepingCall_iff

/-- What the registry makes of a conversion. -/
theorem outcome_conversion (howner : c.method.owner = .convert) (htext : ¬ c.AsksText) {s : Sql}
    (hs : (ScalarTranslator.firstOf (builtIn b options) c).outcome = .ok s) :
    ((translator b).translate c).outcome = .ok s := by
  have hfamily : c.family? = some .conversions :=
    ScalarCall.family?_of_owner (congrArg Method.Owner.family? howner) htext
  rw [outcome_builtIn_of_family hfamily] at hs
  simp only [Family.translator, Casts.conversionTranslator] at hs
  split at hs
  next hmethod =>
    rw [outcome_of_entry (entries_of_conversion howner hmethod.2)]
    split at hs
    next value hargs =>
      obtain ⟨receiver, m, args⟩ := c
      cases hargs
      split at hs
      · exact hs
      · cases hs
    next => cases hs
  next => cases hs

/-- Where the composite translator and the registry make the same of a call: of the methods that
both know by their signatures, with the declared number of arguments, of any power, and of absolute
values and roundings just if the default mapping would be taken for the result in any case. What the
registry makes of a conversion the composite translator makes of it as well, apart from a `ToString`
without arguments, which is no conversion of an argument. -/
theorem agrees_with_registry (b : Builder) (options : Options) (c : ScalarCall) :
    let composite := ((translator b).translate c).outcome
    let registry := (ScalarTranslator.firstOf (builtIn b options) c).outcome
    (∀ k ∈ shared, Known.identify? c.method = some k →
      c.args.length = c.method.parameterTypes.length → composite = registry) ∧
    (c.method.owner = .math → c.method.name = "Pow" → composite = registry) ∧
    (c.method.owner = .convert → ¬ c.AsksText → ∀ s, registry = .ok s → composite = .ok s) ∧
    (c.method.owner = .math →
      c.method.name ∈ ["Abs", "Ceiling", "Floor", "Truncate"] ∨
        c.method.name = "Round" ∧ c.args.length = 1 →
      (composite = registry ↔
        ∀ x ∈ c.args.head?, x.mapping = none ∨ x.mapping = b.catalog.ofTy c.method.returnTy)) := by
  exact ⟨fun k => outcome_shared, outcome_power,
    fun howner htext s => outcome_conversion howner htext, outcome_rounding_iff⟩

/-- A number that is read from a text, and one that is rounded. -/
theorem agrees_on_text_and_number :
    let text : Sql := .column ⟨none, "text"⟩ false .string (some (.scalar "text" .string))
    let number : Sql := .column ⟨none, "number"⟩ false .double none
    let toInt : Method := ⟨⟨.convert, "ToInt32", [.string], 0⟩, [], .int, true⟩
    let floor : Method := ⟨⟨.math, "Floor", [.double], 0⟩, [], .double, true⟩
    ∃ b, Builder.ofCatalog Catalog.standard = .ok b ∧
      ∀ c ∈ [(⟨none, toInt, [text]⟩ : ScalarCall), ⟨none, floor, [number]⟩,
          ⟨some text, Known.close (.text .contains) [], [text]⟩],
        ∃ s, (ScalarTranslator.firstOf (builtIn b {}) c).outcome = .ok s ∧
          ((translator b).translate c).outcome = .ok s := by
  intro text number toInt floor
  let b : Builder := ⟨Catalog.standard, .scalar "boolean" .bool, .scalar "integer" .int⟩
  refine ⟨b, rfl, List.forall_mem_cons.mpr ⟨?_, List.forall_mem_cons.mpr
    ⟨?_, List.forall_mem_singleton.mpr ?_⟩⟩⟩
  · obtain ⟨-, -, hconversion, -⟩ := agrees_with_registry b {} ⟨none, toInt, [text]⟩
    have hs : (ScalarTranslator.firstOf (builtIn b {}) ⟨none, toInt, [text]⟩).outcome =
        .ok (b.cast text .int none) := by rfl
    exact ⟨_, hs, hconversion rfl (by decide) _ hs⟩
  · obtain ⟨-, -, -, hrounding⟩ := agrees_with_registry b {} ⟨none, floor, [number]⟩
    have hs : ((translator b).translate ⟨none, floor, [number]⟩).outcome =
        (b.strictCall "floor" [number] .double none).outcome := by rfl
    have hsame := (hrounding rfl (.inl (by decide))).mpr (fun _ hx => by cases hx; exact .inl rfl)
    exact ⟨_, hsame.symm.trans hs, hs⟩
  · obtain ⟨hshared, -⟩ :=
      agrees_with_registry b {} ⟨some text, Known.close (.text .contains) [], [text]⟩
    have hsame := hshared (.text .contains) (by decide) rfl rfl
    obtain ⟨s, hs⟩ : ∃ s, ((translator b).translate
        ⟨some text, Known.close (.text .contains) [], [text]⟩).outcome = .ok s := ⟨_, rfl⟩
    exact ⟨s, hsame.symm.trans hs, hs⟩

/-- The text of a value is asked for under the name of a conversion. The registry knows the method
under any owner, and the composite translator knows conversions of an argument only. -/
theorem text_of_value_is_left_out :
    let number : Sql := .column ⟨none, "number"⟩ false .int (some (.scalar "integer" .int))
    let c : ScalarCall := ⟨some number, ⟨⟨.convert, "ToString", [], 0⟩, [], .string, false⟩, []⟩
    ∃ b s, Builder.ofCatalog Catalog.standard = .ok b ∧
      c.method.owner = .convert ∧ "To".toList.isPrefixOf c.method.name.toList = true ∧
      (ScalarTranslator.firstOf (builtIn b {}) c).outcome = .ok s ∧
      ((translator b).translate c).outcome ≠ .ok s := by
  intro number c
  let b : Builder := ⟨Catalog.standard, .scalar "boolean" .bool, .scalar "integer" .int⟩
  refine ⟨b, b.cast number .string none, rfl, rfl, by decide, rfl, ?_⟩
  have hentry : entriesFor c.method entries = [conversionEntry] :=
    entries_of_conversion rfl (by decide)
  rw [outcome_of_entry hentry]
  exact nofun

end Composite

end Scalar

end QuerySql
