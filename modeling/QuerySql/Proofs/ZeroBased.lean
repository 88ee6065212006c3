import QuerySql.Proofs.ArrayCalls
import QuerySql.Proofs.DocumentPaths
import QuerySql.Proofs.Semantics.Positions

/-!
# Positions count from zero

The methods that take or give a position count from zero in a query, and what is built for them
counts from one. An index is one larger for the server, whether it is a constant that is folded or
not, and a position that the server gives is one smaller for the query. What is not found is zero in
texts, and becomes `-1` by the same subtraction; in arrays it is null, which stays null until it is
replaced.

* `TextMethod.value?`, `ArrayMethod.value?`: what the methods mean.
* `Scalar.Texts.exists_onReceiver`: what is built over texts has this value.
* `ArrayMethod.exists_build`, `ArrayMethod.eval_of_build`: the same over arrays.
* `Translator.positions_count_from_zero`: the same of calls in a query.
-/

namespace QuerySql

/-! ## Texts -/

/-- An index is one larger for the server, as a constant or not. -/
theorem Builder.eval_oneBased_nat (b : Builder) {S : Server} (hS : S.CoreRules) {env : Env}
    {index : Sql} {n : Nat} (hindex : index.eval S env = .int n) :
    (b.oneBased index).eval S env = .int (n + 1 : Nat) := by
  have hfits : (index.eval S env).fits .integer = true := by
    rw [hindex]
    rfl
  rw [eval_oneBased b hS hfits, hindex]
  rfl

/-- The value of a method on a text that takes or gives a position. There is no part of a text that
goes beyond its ends. -/
def TextMethod.value? (whole : String) : TextMethod → List Datum → Option Datum
  | contains, [.text part] => some (.truth (decide (part.toList <:+: whole.toList)))
  | indexOf, [.text part] => some (.ofPosition (positionOf? part.toList whole.toList))
  | substringFrom, [.int (.ofNat start)] =>
    if start ≤ whole.toList.length then some (.text (String.ofList (whole.toList.drop start)))
    else none
  | substring, [.int (.ofNat start), .int (.ofNat length)] =>
    if start + length ≤ whole.toList.length then
      some (.text (String.ofList ((whole.toList.drop start).take length)))
    else none
  | _, _ => none

namespace Scalar.Texts

variable {S : Server} {env : Env} (b : Builder) {subject : Sql} {whole : String}

theorem exists_position (hS : S.PositionRules) {needle : Sql} {part : String}
    (hsubject : subject.eval S env = .text whole) (hneedle : needle.eval S env = .text part) :
    ∃ s, (position b subject needle).outcome = .ok s ∧ s.ty = .int ∧ s.eval S env =
      .int ((positionOf? part.toList whole.toList).elim 0 (· + 1) : Nat) := by
  obtain ⟨s, hs, hty, -, heval⟩ := b.exists_strictCall "strpos" [subject, needle] .int none
  refine ⟨s, hs, hty, ?_⟩
  rw [heval, List.map_cons, List.map_singleton, hsubject, hneedle, hS.strpos]

/-- A text occurs where its position is not zero. -/
theorem exists_contains (hS : S.PositionRules) {needle : Sql} {part : String}
    (hsubject : subject.eval S env = .text whole) (hneedle : needle.eval S env = .text part) :
    ∃ s, (onReceiver b .contains subject [needle]).outcome = .ok s ∧
      s.eval S env = .truth (decide (part.toList <:+: whole.toList)) := by
  obtain ⟨position, hposition, -, heval⟩ := exists_position b hS hsubject hneedle
  refine ⟨b.greaterThan position (b.int 0), ?_, ?_⟩
  · simp only [onReceiver]
    rw [Attempt.outcome_bind_ok hposition]
    rfl
  · have hzero : (b.int 0).eval S env = .int 0 := rfl
    have hfound : 0 < (positionOf? part.toList whole.toList).elim 0 (· + 1) ↔
        part.toList <:+: whole.toList := by
      rw [← positionOf?_isSome]
      cases positionOf? part.toList whole.toList with
      | none => exact ⟨nofun, nofun⟩
      | some n => exact ⟨fun _ => rfl, fun _ => Nat.succ_pos n⟩
    rw [Builder.greaterThan, Builder.eval_binary, heval, hzero, hS.greaterThan_zero]
    exact congrArg Datum.truth (decide_eq_decide.mpr hfound)

/-- Zero, for a text that does not occur, becomes `-1`. -/
theorem exists_indexOf (hS : S.PositionRules) {needle : Sql} {part : String}
    (hsubject : subject.eval S env = .text whole) (hneedle : needle.eval S env = .text part) :
    ∃ s, (onReceiver b .indexOf subject [needle]).outcome = .ok s ∧
      s.eval S env = .ofPosition (positionOf? part.toList whole.toList) := by
  obtain ⟨position, hposition, hty, heval⟩ := exists_position b hS hsubject hneedle
  have hsubtracts : b.binary? .subtract position (b.int 1) none =
      some (b.binary .subtract position (b.int 1) none) := by
    refine if_pos ?_
    rw [hty]
    rfl
  refine ⟨b.binary .subtract position (b.int 1) none, ?_, ?_⟩
  · simp only [onReceiver]
    rw [Attempt.outcome_bind_ok hposition, hsubtracts]
    rfl
  · have hone : (b.int 1).eval S env = .int 1 := rfl
    rw [Builder.eval_binary, heval, hone, hS.subtractOne]
    cases positionOf? part.toList whole.toList with
    | none => rfl
    | some n => exact congrArg Datum.int (Int.add_sub_cancel n 1)

theorem exists_substringFrom (hcore : S.CoreRules) (hS : S.PositionRules) {start : Sql} {n : Nat}
    (hsubject : subject.eval S env = .text whole) (hstart : start.eval S env = .int n) :
    ∃ s, (onReceiver b .substringFrom subject [start]).outcome = .ok s ∧
      s.eval S env = .text (String.ofList (whole.toList.drop n)) := by
  obtain ⟨s, hs, -, -, heval⟩ :=
    b.exists_strictCall "substr" [subject, b.oneBased start] .string none
  refine ⟨s, hs, ?_⟩
  rw [heval, List.map_cons, List.map_singleton, hsubject, Builder.eval_oneBased_nat b hcore hstart,
    hS.substrFrom _ _ (Nat.succ_pos n)]
  rfl

theorem exists_substring (hcore : S.CoreRules) (hS : S.PositionRules) {start length : Sql}
    {n k : Nat} (hsubject : subject.eval S env = .text whole) (hstart : start.eval S env = .int n)
    (hlength : length.eval S env = .int k) :
    ∃ s, (onReceiver b .substring subject [start, length]).outcome = .ok s ∧
      s.eval S env = .text (String.ofList ((whole.toList.drop n).take k)) := by
  obtain ⟨s, hs, -, -, heval⟩ :=
    b.exists_strictCall "substr" [subject, b.oneBased start, length] .string none
  refine ⟨s, hs, ?_⟩
  rw [heval, List.map_cons, List.map_cons, List.map_singleton, hsubject,
    Builder.eval_oneBased_nat b hcore hstart, hlength, hS.substr _ _ _ (Nat.succ_pos n)]
  rfl

/-- The translator leaves a method that takes or gives a position to the receiver. -/
theorem translate_receiver {b : Builder} {m : Method} {k : TextMethod} {args : List Sql}
    (hm : Known.identify? m = some (.text k)) {v : Datum}
    (hv : k.value? whole (args.map (Sql.eval S env)) = some v) :
    (translator b).translate ⟨some subject, m, args⟩ = onReceiver b k subject args := by
  cases k with
  | isNullOrEmpty | isNullOrWhiteSpace => cases hv
  | _ =>
    simp only [translator, hm]

/-- Where a method has a value, so has what is built for it, and it is the same. -/
theorem exists_onReceiver (hcore : S.CoreRules) (hS : S.PositionRules) {m : TextMethod}
    {args : List Sql} {v : Datum} (hsubject : subject.eval S env = .text whole)
    (hv : m.value? whole (args.map (Sql.eval S env)) = some v) :
    ∃ s, (onReceiver b m subject args).outcome = .ok s ∧ s.eval S env = v := by
  generalize hdata : args.map (Sql.eval S env) = data at hv
  -- By the methods that have a value. Positions that are not in the text have none.
  unfold TextMethod.value? at hv
  split at hv
  next part =>
    cases hv
    obtain ⟨needle, rfl, hneedle⟩ := List.map_eq_singleton_iff.mp hdata
    exact exists_contains b hS hsubject hneedle
  next part =>
    cases hv
    obtain ⟨needle, rfl, hneedle⟩ := List.map_eq_singleton_iff.mp hdata
    exact exists_indexOf b hS hsubject hneedle
  next n =>
    obtain ⟨start, rfl, hstart⟩ := List.map_eq_singleton_iff.mp hdata
    split at hv
    · cases hv
      exact exists_substringFrom b hcore hS hsubject hstart
    · cases hv
  next n k =>
    obtain ⟨start, rest, rfl, hstart, hrest⟩ := List.map_eq_cons_iff.mp hdata
    obtain ⟨length, rfl, hlength⟩ := List.map_eq_singleton_iff.mp hrest
    split at hv
    · cases hv
      exact exists_substring b hcore hS hsubject hstart hlength
    · cases hv
  next => cases hv

end Scalar.Texts

/-! ## Arrays -/

/-- The value of a method on an array that takes or gives a position. There is no element outside of
the array, and null is looked for nowhere. -/
def ArrayMethod.value? (S : Server) (items : List Datum) : ArrayMethod → List Datum → Option Datum
  | elementAt, [.int (.ofNat i)] => items[i]?
  | indexOf, [x] => if x.isNull then none else some (.ofPosition (items.findIdx? (S.finds x)))
  | _, _ => none

namespace Scalar.Arrays

variable {S : Server} {env : Env} {b : Builder} {array item index : Sql}

/-- Adding one to the index makes up for counting from one. -/
theorem eval_subscript_oneBased (hcore : S.CoreRules)
    (hindex : (index.eval S env).fits .integer = true) :
    (b.subscript array (b.oneBased index) true).eval S env =
      (array.eval S env).elementAt (index.eval S env) := by
  rw [Builder.eval_subscript, Builder.eval_oneBased b hcore hindex, Datum.elementAt_shift]

/-- The server is asked for a position, and has null for none; one is subtracted, and null is
replaced. -/
theorem eval_indexOf {useRedshift : Bool} {s : Sql}
    (hs : (indexOf b useRedshift array item).outcome = .ok s) :
    s.eval S env = S.call { name := "COALESCE" }
      [S.binary .subtract
        (S.call { name := "array_position" } [array.eval S env, item.eval S env]) (.int 1),
       .int (-1)] := by
  unfold indexOf at hs
  split at hs
  · cases hs
  obtain ⟨position, hposition, hs⟩ := Run.outcome_bind_eq_ok.mp hs
  obtain ⟨zeroBased, hzero, hs⟩ := Run.outcome_bind_eq_ok.mp hs
  obtain ⟨call, hcall, -, -, heval⟩ := b.exists_call
    { name := "array_position", nullable := true, propagates := [true, false] } [array, item]
    nofun nofun rfl .int (some b.intMapping)
  obtain ⟨result, hresult, -, -, heval'⟩ :=
    b.exists_coalesce zeroBased (b.const (.int (-1)) (some b.intMapping)) (some b.intMapping)
  cases hcall.symm.trans hposition
  cases hresult.symm.trans hs
  have hone : (b.const (.int 1) (some b.intMapping)).eval S env = .int 1 := rfl
  have hnone : (b.const (.int (-1)) (some b.intMapping)).eval S env = .int (-1) := rfl
  unfold Builder.binary? at hzero
  split at hzero
  · cases hzero
    rw [heval', Builder.eval_binary, heval, hone, hnone, List.map_cons, List.map_singleton]
    rfl
  · cases hzero

/-- A position in an array is built unless its type cannot be calculated with. -/
theorem exists_indexOf (array item : Sql)
    (hsubtracts : Builder.isMeaningful .subtract .int b.intMapping.ty = true) :
    ∃ s, (indexOf b false array item).outcome = .ok s := by
  obtain ⟨position, hposition, hty, -, -⟩ := b.exists_call
    { name := "array_position", nullable := true, propagates := [true, false] } [array, item]
    nofun nofun rfl .int (some b.intMapping)
  let one := b.const (.int 1) (some b.intMapping)
  have hone : one.ty = b.intMapping.ty := rfl
  have hzero : b.binary? .subtract position one (some b.intMapping) =
      some (b.binary .subtract position one (some b.intMapping)) := by
    refine if_pos ?_
    rw [hty, hone]
    exact hsubtracts
  obtain ⟨s, hs, -⟩ := b.exists_coalesce (b.binary .subtract position one (some b.intMapping))
    (b.const (.int (-1)) (some b.intMapping)) (some b.intMapping)
  refine ⟨s, ?_⟩
  unfold indexOf
  rw [if_neg Bool.false_ne_true, Attempt.outcome_bind_ok hposition]
  simp only [one] at hzero
  rw [hzero]
  exact hs

/-- The position that is found, one less, or `-1` in the place of null. -/
theorem eval_position (hcore : S.CoreRules) (hS : S.PositionRules) (items : List Datum) {x : Datum}
    (hx : x ≠ .null) :
    S.call { name := "COALESCE" }
        [S.binary .subtract (S.call { name := "array_position" } [.array items, x]) (.int 1),
          .int (-1)] =
      .ofPosition (items.findIdx? (S.finds x)) := by
  rw [hS.arrayPosition items x hx, hcore.coalesce]
  cases items.findIdx? (S.finds x) with
  | none =>
    rw [Option.elim_none, hS.subtractOne_null]
    rfl
  | some n =>
    rw [Option.elim_some, hS.subtractOne]
    exact congrArg Datum.int (Int.add_sub_cancel n 1)

end Scalar.Arrays

/-- The tree is a native array: an array that is stored neither as a byte string nor in a
document. -/
structure Sql.IsNativeArray (s : Sql) : Prop where
  isArray : Scalar.Arrays.isArray s = true
  isJson : Scalar.Arrays.isJson s = false
  isBytes : s.mappedBy Mapping.isBytes = false

/-- Positions in arrays can be asked for, and one can be taken from them. -/
def Options.FindsPositions (options : Options) (b : Builder) : Prop :=
  options.useRedshift = false ∧ Builder.isMeaningful .subtract .int b.intMapping.ty = true

namespace ArrayMethod

variable {S : Server} {env : Env} {b : Builder} {options : Options} {q : ArrayMethod} {array : Sql}
  {args : List Sql} {items : List Datum} {v : Datum}
  (hcore : S.CoreRules) (hS : S.PositionRules) (hnative : array.IsNativeArray)
  (harray : array.eval S env = .array items)
  (hv : q.value? S items (args.map (Sql.eval S env)) = some v)

include hnative hv

/-- Where a method has a value, something is built for it. -/
theorem exists_build (hfinds : q = .indexOf → options.FindsPositions b) (ty : Ty) :
    ∃ s, (q.build b options.useRedshift ty array args).outcome = .ok s := by
  generalize hdata : args.map (Sql.eval S env) = data at hv
  unfold ArrayMethod.value? at hv
  split at hv
  next i =>
    obtain ⟨index, rfl, -⟩ := List.map_eq_singleton_iff.mp hdata
    refine ⟨b.subscript array (b.oneBased index) true, ?_⟩
    simp only [build, Scalar.Arrays.elementAt, hnative.isJson]
    rfl
  next x =>
    obtain ⟨item, rfl, -⟩ := List.map_eq_singleton_iff.mp hdata
    obtain ⟨hredshift, hsubtracts⟩ := hfinds rfl
    obtain ⟨s, hs⟩ := Scalar.Arrays.exists_indexOf array item hsubtracts
    refine ⟨s, ?_⟩
    simp only [build, hnative.isJson, hredshift]
    exact hs
  next => cases hv

include hcore hS harray

/-- Whatever is built has this value. -/
theorem eval_of_build {ty : Ty} {s : Sql}
    (hs : (q.build b options.useRedshift ty array args).outcome = .ok s) : s.eval S env = v := by
  generalize hdata : args.map (Sql.eval S env) = data at hv
  unfold ArrayMethod.value? at hv
  split at hv
  next i =>
    obtain ⟨index, rfl, hindex⟩ := List.map_eq_singleton_iff.mp hdata
    simp only [build, Scalar.Arrays.elementAt, hnative.isJson] at hs
    cases hs
    have hfits : (index.eval S env).fits .integer = true := by
      rw [hindex]
      rfl
    rw [Scalar.Arrays.eval_subscript_oneBased hcore hfits, harray, hindex]
    show items[i]?.getD .null = v
    rw [hv]
    rfl
  next x =>
    obtain ⟨item, rfl, hitem⟩ := List.map_eq_singleton_iff.mp hdata
    simp only [build, hnative.isJson] at hs
    split at hv
    · cases hv
    next hx =>
      cases hv
      rw [Scalar.Arrays.eval_indexOf hs, harray, hitem]
      exact Scalar.Arrays.eval_position hcore hS items fun h => hx (Datum.isNull_eq_true.mpr h)
  next => cases hv

end ArrayMethod

/-! ## Translators -/

namespace Translator

/-- The expression is translated, to a tree with the value. -/
def Computes (t : Translator) (S : Server) (env : Env) (e : Expr) (v : Datum) : Prop :=
  ∃ s, (t.translate e).outcome = .ok s ∧ s.eval S env = v

/-- The expression is translated to a native array with these items. -/
def ComputesArray (t : Translator) (S : Server) (env : Env) (e : Expr) (items : List Datum) :
    Prop :=
  ∃ s, (t.translate e).outcome = .ok s ∧ s.IsNativeArray ∧ s.eval S env = .array items

theorem exists_args {t : Translator} {S : Server} {env : Env} {es : List Expr} {data : List Datum}
    (h : List.Forall₂ (t.Computes S env) es data) :
    ∃ args, (Attempt.all t.translate es).outcome = .ok args ∧
      args.map (Sql.eval S env) = data := by
  induction h with
  | nil => exact ⟨[], rfl, rfl⟩
  | cons h _ ih =>
    obtain ⟨s, hs, heval⟩ := h
    obtain ⟨args, hargs, hdata⟩ := ih
    exact ⟨s :: args, Attempt.outcome_all_cons hs hargs, congrArg₂ List.cons heval hdata⟩

/-- Where a method that takes or gives a position has a value, a call of it is translated to a tree
with this value, whatever the operands are. Of these calls only those for the position of an item
may be left alone: by a Redshift server, or where integers are stored as something that one cannot
be taken from. Whatever a call on an array is translated to has the value. -/
theorem positions_count_from_zero {columns : ColumnLookup} {options : Options} {catalog : Catalog}
    {added : List ScalarTranslator} {t : Translator}
    (ht : (postgres columns options catalog added).outcome = .ok t) {S : Server}
    (hcore : S.CoreRules) (hS : S.PositionRules) (env : Env) {es : List Expr} {data : List Datum}
    (hes : List.Forall₂ (t.Computes S env) es data) {m : Method} {v : Datum} :
    (∀ k e whole, Known.identify? m = some (.text k) → t.Computes S env e (.text whole) →
      k.value? whole data = some v → t.Computes S env (.call m (some e) es) v) ∧
    ∀ (σ : ArraySpelling) q a items, σ.Names q m → t.ComputesArray S env a items →
      q.value? S items data = some v →
      ((q = .indexOf → options.FindsPositions t.provider.builder) →
        t.Computes S env (σ.expr m a es) v) ∧
      ((∀ other ∈ added, ∀ c : ScalarCall, c.method = m → (other.translate c).Fails) →
        ∀ s, (t.translate (σ.expr m a es)).outcome = .ok s → s.eval S env = v) := by
  obtain ⟨b, p, -, -, rfl⟩ := of_postgres ht
  let r : Relational := ⟨b, Scalar.builtIn b options ++ added, columns⟩
  obtain ⟨args, hargs, rfl⟩ := exists_args hes
  refine ⟨?_, ?_⟩
  · -- On texts: the operands are computed, and the method has its value on them.
    rintro k e whole hm ⟨subject, he, hsubject⟩ hv
    obtain ⟨s, hs, heval⟩ := Scalar.Texts.exists_onReceiver b hcore hS hsubject hv
    have hreceiver : (Relational.receiverOf (p.run r) (some e)).outcome = .ok (some subject) :=
      Attempt.outcome_bind_ok he _
    have htexts : ((Scalar.Texts.translator b).translate ⟨some subject, m, args⟩).outcome =
        .ok s := by
      rw [Scalar.Texts.translate_receiver hm hv]
      exact hs
    have hcall : (p.run r (.call m (some e) es)).outcome = .ok s :=
      Postgres.outcome_call_of_family rfl hm nofun nofun hreceiver hargs (f := .texts) htexts
    exact ⟨s, hcall, heval⟩
  · rintro σ q a items hm ⟨array, ha, hnative, harray⟩ hv
    have ha : (p.run r a).outcome = .ok array := ha
    have hargs : (Attempt.all (p.run r) es).outcome = .ok args := hargs
    have hcall : (p.run r (σ.expr m a es)).outcome =
        (ScalarTranslator.firstOf (Scalar.builtIn b options ++ added)
          (σ.call m array args)).outcome := by
      rw [ArraySpelling.outcome_run hm, Attempt.outcome_bind_ok ha, Attempt.outcome_bind_ok hargs]
    constructor
    · -- The call is translated where the server finds positions.
      intro hfinds
      obtain ⟨s, hs⟩ := ArrayMethod.exists_build hnative hv hfinds m.returnTy
      have hkind : (Scalar.Arrays.isArray array || Scalar.Arrays.isJson array) = true := by
        rw [hnative.isArray]
        rfl
      refine ⟨s, ?_, ArrayMethod.eval_of_build hcore hS hnative harray hv hs⟩
      exact hcall.trans (ArraySpelling.found_of_build hm hkind hnative.isBytes hs added)
    · -- Whatever it is translated to was built from the array, if the added translators leave it
      -- alone.
      intro hadded s hs
      have hfails : ∀ t ∈ added, (t.translate (σ.call m array args)).Fails :=
        fun t ht => hadded t ht _ (ArraySpelling.method_call array args)
      obtain ⟨-, -, hbuild⟩ := ArraySpelling.build_of_found hm hfails (hcall.symm.trans hs)
      exact ArrayMethod.eval_of_build hcore hS hnative harray hv hbuild

/-- A name and numbers, looked for what is there and what is not. -/
theorem positions_of_name_and_numbers :
    let columns : ColumnLookup := fun _ name =>
      some { name := name, ty := if name = "numbers" then .array .int else .string }
    let row : Env :=
      { param := fun _ => .null
        column := fun ref =>
          if ref.name = "numbers" then .array [.int 5, .int 7] else .text "abcab"
        group := fun _ _ _ _ => .null }
    let name : Expr := .property none "name" .string
    let numbers : Expr := .property none "numbers" (.array .int)
    let one : Expr := .const (.int 1) .int
    Server.positions.CoreRules ∧ Server.positions.PositionRules ∧
    ∃ t, (postgres columns {} Catalog.standard []).outcome = .ok t ∧
      t.Computes Server.positions row
        (.call (Known.close (.text .substringFrom) []) (some name) [one]) (.text "bcab") ∧
      t.Computes Server.positions row
        (.call (Known.close (.text .indexOf) []) (some name) [.const (.string "ca") .string])
        (.int 2) ∧
      t.Computes Server.positions row
        (.call (Known.close (.sequence .elementAt) [.int]) none [numbers, one]) (.int 7) ∧
      t.Computes Server.positions row
        (.call (Known.close .arrayIndexOf [.int]) none [numbers, one]) (.int (-1)) := by
  intro columns row name numbers one
  refine ⟨Server.coreRules_positions, Server.positionRules_positions, ?_⟩
  obtain ⟨t, -, ht, -⟩ := exists_translation (postgres columns {} Catalog.standard []) one
    (fun _ => true) (by decide +kernel)
  have hname : t.Computes Server.positions row name (.text "abcab") :=
    ⟨_, translate_property ht rfl _, rfl⟩
  have hnumbers : t.ComputesArray Server.positions row numbers [.int 5, .int 7] :=
    ⟨_, translate_property ht rfl _, ⟨rfl, rfl, rfl⟩, rfl⟩
  have hone : List.Forall₂ (t.Computes Server.positions row) [one] [.int 1] :=
    .cons ⟨_, (translate_const ht _ _).1, rfl⟩ .nil
  have hpart : List.Forall₂ (t.Computes Server.positions row) [.const (.string "ca") .string]
      [.text "ca"] := .cons ⟨_, (translate_const ht _ _).1, rfl⟩ .nil
  have hfinds : Options.FindsPositions {} t.provider.builder := by
    obtain ⟨b, p, hb, -, rfl⟩ := of_postgres ht
    cases hb
    exact ⟨rfl, rfl⟩
  have helementAt : ArraySpelling.ofSequences.Names .elementAt
      (Known.close (.sequence .elementAt) [.int]) := rfl
  have hindexOf : ArraySpelling.ofSequences.Names .indexOf (Known.close .arrayIndexOf [.int]) := rfl
  have hcore := Server.coreRules_positions
  have hS := Server.positionRules_positions
  refine ⟨t, ht, ?_, ?_, ?_, ?_⟩
  · exact (positions_count_from_zero ht hcore hS row hone).1 _ _ _ rfl hname rfl
  · exact (positions_count_from_zero ht hcore hS row hpart).1 _ _ _ rfl hname rfl
  · exact ((positions_count_from_zero ht hcore hS row hone).2 _ _ _ _ helementAt hnumbers
      rfl).1 nofun
  · exact ((positions_count_from_zero ht hcore hS row hone).2 _ _ _ _ hindexOf hnumbers
      rfl).1 fun _ => hfinds

end Translator

end QuerySql
