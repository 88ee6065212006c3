import QuerySql.Proofs.Requests
import QuerySql.Proofs.Steps

/-!
# Implicit conversions

The conversions that a compiler puts around an operand may be taken off before it is translated.
What this loses are casts: one for every layer that widens a small integer or a character to `int`,
and none for any other layer. Under a cast, a tree without a mapping was given the default one.

* `Ty.widens`: the conversions that widen, `Expr.widenings`: the types that a tree is widened to.
* `Ty.preservesRepresentation_of_implicit`: any other implicit conversion keeps the representation,
  if enumerations are represented by integers.
* `Translator.implicit_conversions_are_casts`: what is lost, and `Translator.unmapped_under_cast`:
  the default mapping.
-/

namespace QuerySql

/-! ## Layers that widen -/

namespace Ty

/-- Whether the conversion widens a small integer or a character to `int`, nullable or not. -/
def widens (source target : Ty) : Bool :=
  decide (target.stripNullable = .int) && source.underlying.isWidenedToInt

/-- If the type, nullable or not, is an enumeration, it is represented by integers. -/
def EnumOfIntegers (t : Ty) : Prop := ∀ name u, t.stripNullable = .enum name u → u.isInteger = true

variable {s t : Ty}

theorem isInt_of_widens (h : s.widens t = true) : t = .int ∨ t = .nullable .int := by
  obtain ⟨hint, -⟩ := Bool.and_eq_true_iff.mp h
  have hint := of_decide_eq_true hint
  cases t with
  | nullable u => exact .inr (congrArg nullable hint)
  | _ => exact .inl hint

theorem underlying_ne_enum (h : t.EnumOfIntegers) (name : String) (u : Ty) :
    t.underlying ≠ .enum name u := by
  intro henum
  unfold underlying at henum
  split at henum
  next hstrip =>
    have hinteger := h _ _ hstrip
    rw [henum] at hinteger
    cases hinteger
  next hplain => exact hplain _ _ henum

/-- What is neither widened nor changed is represented in the same way. -/
theorem preservesRepresentation_of_implicit (himplicit : s.isImplicitConversion t = true)
    (hs : s.EnumOfIntegers) (hw : s.widens t = false) : s.preservesRepresentation t = true := by
  have hsame : s.underlying = t.stripNullable := by
    have himplicit : (decide (s.underlying = t.stripNullable) || s.widens t) = true := himplicit
    rw [hw, Bool.or_false] at himplicit
    exact of_decide_eq_true himplicit
  have hunderlying : t.underlying = t.stripNullable := by
    unfold underlying
    split
    next henum => exact absurd (hsame.trans henum) (underlying_ne_enum hs _ _)
    next => rfl
  simp only [preservesRepresentation, hsame, hunderlying, decide_true, Bool.or_true, Bool.true_or]

/-- A conversion that widens changes how a value is stored, so it is written as a cast. -/
theorem preservesRepresentation_of_widens (h : s.widens t = true) :
    s.preservesRepresentation t = false := by
  obtain ⟨-, hsmall⟩ := Bool.and_eq_true_iff.mp h
  have hne : s.underlying ≠ .int := by
    intro heq
    rw [heq] at hsmall
    cases hsmall
  have hint : t.underlying = .int := by
    rcases isInt_of_widens h with rfl | rfl <;> rfl
  have hobject : t ≠ .object ∧ t ≠ .anyTuple := by
    rcases isInt_of_widens h with rfl | rfl <;> decide
  simp only [preservesRepresentation, hint, hne, hobject, decide_false, Bool.false_and,
    Bool.or_self]

end Ty

namespace Expr

/-- The types that the implicit conversions around the tree widen to, from the outermost in. -/
def widenings : Expr → List Ty
  | unary op operand ty =>
    if op.isConversion && operand.ty.isImplicitConversion ty then
      if operand.ty.widens ty then ty :: widenings operand else widenings operand
    else []
  | _ => []

theorem isInt_of_mem_widenings {e : Expr} {ty : Ty} (h : ty ∈ e.widenings) :
    ty = .int ∨ ty = .nullable .int := by
  fun_induction widenings e with
  | case1 op operand t himplicit hw ih =>
    rcases List.mem_cons.mp h with rfl | h
    · exact Ty.isInt_of_widens hw
    · exact ih h
  | case2 op operand t himplicit hw ih => exact ih h
  | case3 | case4 => cases h

theorem stripImplicit_stripImplicit (e : Expr) :
    e.stripImplicit.stripImplicit = e.stripImplicit := by
  fun_induction stripImplicit e with
  | case1 op operand ty h ih => exact ih
  | case2 op operand ty h => rw [stripImplicit, if_neg h]
  | case3 e h => cases e <;> grind [stripImplicit]

end Expr

/-! ## Casts -/

/-- The tree under a cast to each of the types, the first one outermost. -/
def Sql.casts (c : Catalog) : List Ty → Sql → Sql
  | [], x => x
  | ty :: tys, x => .cast (casts c tys x) ty (c.ofTy ty)

namespace Builder

variable (b : Builder)

/-- A node that was asked for its default mapping once has none left to ask for. -/
theorem fillDefault_cast (x : Sql) (ty : Ty) :
    b.fillDefault (.cast x ty (b.catalog.ofTy ty)) = .cast x ty (b.catalog.ofTy ty) := by
  unfold fillDefault
  split
  next => rfl
  next h =>
    have hnone : b.catalog.ofTy ty = none := Option.not_isSome_iff_eq_none.mp h
    show Sql.fill (b.catalog.ofTy ty) _ = _
    rw [hnone]
    rfl

/-- The tree under casts to the types, with the default mapping if there are any casts. -/
def casts (tys : List Ty) (x : Sql) : Sql :=
  Sql.casts b.catalog tys (if tys = [] then x else b.fillDefault x)

theorem cast_casts (ty : Ty) (tys : List Ty) (x : Sql) :
    b.cast (b.casts tys x) ty none = b.casts (ty :: tys) x := by
  have hfilled : b.fillDefault (b.casts tys x) = Sql.casts b.catalog tys (b.fillDefault x) := by
    cases tys with
    | nil => rfl
    | cons ty' tys => exact b.fillDefault_cast _ ty'
  exact congrArg (Sql.cast · ty (b.catalog.ofTy ty)) hfilled

end Builder

/-! ## Translators -/

/-- By induction on the layers. One that does not widen leaves no trace. -/
theorem Postgres.run_stripImplicit {p : Postgres} {r : Relational} {e : Expr}
    (henum : ∀ d, Expr.Within d e → d.ty.EnumOfIntegers) :
    p.run r e = r.builder.casts e.widenings <$> p.run r e.stripImplicit := by
  fun_induction Expr.stripImplicit e with
  | case1 op operand ty h ih =>
    obtain ⟨hop, himplicit⟩ := Bool.and_eq_true_iff.mp h
    have hoperand : Expr.Within operand (.unary op operand ty) := .child List.mem_cons_self .root
    -- A layer that widens is one more cast, and any other leaves no trace.
    have hlayer : (fun s => if operand.ty.preservesRepresentation ty then s
        else r.builder.cast s ty none) ∘ r.builder.casts operand.widenings =
          r.builder.casts (Expr.unary op operand ty).widenings := by
      funext x
      cases hw : operand.ty.widens ty with
      | true =>
        simp only [Function.comp_apply, Expr.widenings, h, hw, if_true,
          Ty.preservesRepresentation_of_widens hw, Bool.false_eq_true, if_false,
          Builder.cast_casts]
      | false =>
        simp only [Function.comp_apply, Expr.widenings, h, hw, if_true, Bool.false_eq_true,
          if_false, Ty.preservesRepresentation_of_implicit himplicit (henum _ hoperand) hw]
    rw [run_conversion hop, ih fun d hd => henum d (.child List.mem_cons_self hd), ← hlayer,
      comp_map]
  | case2 op operand ty h =>
    have hnone : (Expr.unary op operand ty).widenings = [] := by rw [Expr.widenings, if_neg h]
    rw [hnone]
    exact (id_map _).symm
  | case3 e h =>
    have hnone : e.widenings = [] := by cases e <;> grind [Expr.widenings]
    rw [hnone]
    exact (id_map _).symm

namespace Translator

/-- Where enumerations are represented by integers, the tree without the implicit conversions around
it is part of the tree and has none around it, and of the conversions it is the widening ones that
are translated, each to a cast to `int`, nullable or not. -/
theorem implicit_conversions_are_casts {columns : ColumnLookup} {options : Options}
    {catalog : Catalog} {added : List ScalarTranslator} {t : Translator}
    (ht : (postgres columns options catalog added).outcome = .ok t) {e : Expr}
    (henum : ∀ d, Expr.Within d e → d.ty.EnumOfIntegers) :
    Expr.Within e.stripImplicit e ∧ e.stripImplicit.stripImplicit = e.stripImplicit ∧
      (∀ ty ∈ e.widenings, ty = .int ∨ ty = .nullable .int) ∧
      t.translate e = (fun x => Sql.casts catalog e.widenings
        (if e.widenings = [] then x else t.provider.builder.fillDefault x)) <$>
          t.translate e.stripImplicit := by
  obtain ⟨b, p, hb, -, rfl⟩ := of_postgres ht
  obtain ⟨rfl, -⟩ := Builder.ofCatalog_eq_ok.mp hb
  exact ⟨e.within_stripImplicit, e.stripImplicit_stripImplicit,
    fun ty hty => Expr.isInt_of_mem_widenings hty, Postgres.run_stripImplicit henum⟩

/-- A level, which is an enumeration over a small integer, under three conversions. -/
theorem level_is_cast_once :
    let columns : ColumnLookup := fun _ _ => some { name := "level", ty := .enum "Level" .short }
    let level : Expr := .property none "Level" (.enum "Level" .short)
    let short : Expr := .unary .convert level (.nullable .short)
    let int : Expr := .unary .convert short .int
    ∃ t x, (postgres columns {} Catalog.standard []).outcome = .ok t ∧
      (t.translate level).outcome = .ok x ∧
      (t.translate (.unary .convertChecked int (.nullable .int))).outcome =
        .ok (.cast x .int (Catalog.standard.ofTy .int)) := by
  intro columns level short int
  let e : Expr := .unary .convertChecked int (.nullable .int)
  obtain ⟨t, x, ht, hx, hmapped⟩ := exists_translation (postgres columns {} Catalog.standard [])
    level (fun x => x.mapping.isSome) (by decide +kernel)
  have hlevel : level.ty.EnumOfIntegers := by
    rintro name u ⟨⟩
    rfl
  have henum : ∀ d, Expr.Within d e → d.ty.EnumOfIntegers :=
    Expr.Within.forall_unary nofun <| Expr.Within.forall_unary nofun <|
      Expr.Within.forall_unary nofun fun d hd => (hd.eq_of_leaf rfl) ▸ hlevel
  have hrun := (implicit_conversions_are_casts ht henum).2.2.2
  have hstrip : e.stripImplicit = level := rfl
  have hwidenings : e.widenings = [.int] := rfl
  refine ⟨t, x, ht, hx, ?_⟩
  rw [hrun, hstrip, hwidenings, map_eq_pure_bind, Attempt.outcome_bind_ok hx]
  exact congrArg (fun y => Except.ok (Sql.cast y .int (Catalog.standard.ofTy .int)))
    (if_pos hmapped)

/-- Whether the tree is a cast of something that has a mapping. -/
def isCastOfMapped : Sql → Bool
  | .cast x _ _ => x.mapping.isSome
  | _ => false

/-- A level that is stored in an unknown way has no mapping, and has one under the cast. -/
theorem unmapped_under_cast :
    let columns : ColumnLookup := fun _ _ =>
      some { name := "level", ty := .short, store := some "no_such_type" }
    let level : Expr := .property none "Level" .short
    let e : Expr := .unary .convert level .int
    ∃ t s x, (postgres columns {} Catalog.standard []).outcome = .ok t ∧
      e.stripImplicit = level ∧ e.widenings = [.int] ∧ (t.translate e).outcome = .ok s ∧
      (t.translate level).outcome = .ok x ∧ (∀ d, Expr.Within d e → d.ty.EnumOfIntegers) ∧
      ∀ m, s ≠ .cast x .int m := by
  intro columns level e
  obtain ⟨t, ht, hfound⟩ := exists_translations (postgres columns {} Catalog.standard [])
    [(e, isCastOfMapped), (level, fun x => x.mapping.isNone)] (by decide +kernel)
  obtain ⟨s, hs, hcast⟩ := hfound _ _ (.head _)
  obtain ⟨x, hx, hnone⟩ := hfound _ _ (.tail _ (.head _))
  have hlevel : level.ty.EnumOfIntegers := nofun
  have henum : ∀ d, Expr.Within d e → d.ty.EnumOfIntegers :=
    Expr.Within.forall_unary nofun fun d hd => (hd.eq_of_leaf rfl) ▸ hlevel
  refine ⟨t, s, x, ht, rfl, rfl, hs, hx, henum, ?_⟩
  rintro m rfl
  have hsome : x.mapping.isSome = true := hcast
  rw [Option.isNone_iff_eq_none.mp hnone] at hsome
  cases hsome

end Translator

end QuerySql
