import QuerySql.Proofs.Closure.Translation
import QuerySql.Proofs.Semantics.Reference

/-!
# Which nodes cannot be null

A node that is flagged as never null should not be null where columns, parameters and functions are
as they are flagged. `Translator.not_null_iff_no_gap` says exactly when this is so of a translated
tree: when it has none of three gaps.

* The escape character of a pattern match has no part in the flag of the match.
* A row is never null, but a comparison of rows with a null component may be.
* An operator that gives the first match in an array of label paths is null if nothing matches.

`Server.NullRules` is what is assumed of the server.
-/

namespace QuerySql

/-- The operators that give the first match in an array of label paths. -/
def PostgresOp.isFirstMatch : PostgresOp → Bool
  | labelFirstAncestor | labelFirstDescendant | labelFirstMatches | labelFirstMatchesText => true
  | _ => false

/-- Where a server computes null. Of an operator, a cast or a match on data none of which is null,
only two things can be null: a comparison of rows with a null component, and a search for the first
match. -/
structure Server.NullRules (S : Server) : Prop where
  binary : ∀ op x y, x ≠ .null → y ≠ .null →
    (op.isComparison = true → x.lacksComponent = false ∧ y.lacksComponent = false) →
    S.binary op x y ≠ .null
  unary : ∀ op x, x ≠ .null → S.unary op x ≠ .null
  nullCheck : ∀ op x, op.isNullCheck = true → S.unary op x ≠ .null
  cast : ∀ ty x, x ≠ .null → S.cast ty x ≠ .null
  coalesce : ∀ x y, S.call { name := "COALESCE" } [x, y] = x.orElse y
  like : ∀ ignoreCase x y escape,
    S.like ignoreCase x y escape = .null ↔ x = .null ∨ y = .null ∨ escape = some .null
  regexMatch : ∀ options x y, x ≠ .null → y ≠ .null → S.regexMatch options x y ≠ .null
  postgres : ∀ op x y, op.isFirstMatch = false → x ≠ .null → y ≠ .null → S.postgres op x y ≠ .null

theorem Server.nullRules_reference : Server.reference.NullRules where
  binary _ _ _ hx hy h := Reference.binary_ne_null hx hy h
  unary op x hx := by
    cases op <;> cases x <;> first
      | exact absurd rfl hx
      | exact nofun
  nullCheck op x hop := by
    cases op with
    | isNull | isNotNull => exact nofun
    | not | negate => cases hop
  cast _ _ hx := hx
  coalesce _ _ := rfl
  like _ _ _ _ := Reference.match?_eq_null
  regexMatch _ x y hx hy h := by
    rcases Reference.match?_eq_null.mp h with h | h | h
    · exact hx h
    · exact hy h
    · cases h
  postgres _ x y _ hx hy h := by
    rcases Reference.match?_eq_null.mp h with h | h | h
    · exact hx h
    · exact hy h
    · cases h

namespace Sql

/-- Columns, parameters and functions of the tree that are flagged as never null are not null.
Nothing is asked of `COALESCE`, whose rule is known. -/
structure Honoured (S : Server) (env : Env) (s : Sql) : Prop where
  column : ∀ ref ty m, Within (column ref false ty m) s → env.column ref ≠ .null
  param : ∀ name ty m, Within (param name false ty m) s → env.param ⟨name, ty⟩ ≠ .null
  call : ∀ fn args ty m, Within (call fn args ty m) s → fn.nullable = false →
    fn.name ≠ "COALESCE" → S.call fn.form (args.map (eval S env)) ≠ .null

theorem Honoured.within {S : Server} {env : Env} {n s : Sql} (h : s.Honoured S env)
    (hn : Within n s) : n.Honoured S env where
  column ref ty m hm := h.column ref ty m (hm.trans hn)
  param name ty m hm := h.param name ty m (hm.trans hn)
  call fn args ty m hm := h.call fn args ty m (hm.trans hn)

/-- A node that is flagged as never null by a rule that leaves something out, and is null for the
reason that is left out. -/
inductive Gap (S : Server) (env : Env) : Sql → Prop
  | escape {ignoreCase : Bool} {subject pattern e : Sql} {m : Option Mapping} :
    subject.isNullable = false → pattern.isNullable = false → eval S env e = .null →
    Gap S env (like ignoreCase subject pattern (some e) m)
  | component {op : BinaryOp} {left right : Sql} {ty : Ty} {m : Option Mapping} :
    left.isNullable = false → right.isNullable = false → op.isComparison = true →
    (eval S env left).lacksComponent = true ∨ (eval S env right).lacksComponent = true →
    S.binary op (eval S env left) (eval S env right) = .null →
    Gap S env (binary op left right ty m)
  | noMatch {op : PostgresOp} {left right : Sql} {ty : Ty} {m : Option Mapping} :
    left.isNullable = false → right.isNullable = false → op.isFirstMatch = true →
    S.postgres op (eval S env left) (eval S env right) = .null →
    Gap S env (postgres op left right ty m)

/-- A node with a gap is flagged as never null and is null. -/
theorem Gap.null {S : Server} {env : Env} {n : Sql} (hS : S.NullRules) (h : n.Gap S env) :
    n.isNullable = false ∧ n.eval S env = .null := by
  cases h with
  | escape hs hp he =>
    refine ⟨by simp only [isNullable, hs, hp, Bool.or_self], ?_⟩
    simp only [eval, evalOption, he]
    exact (hS.like _ _ _ _).mpr (.inr (.inr rfl))
  | component hl hr _ _ hnull => exact ⟨by simp only [isNullable, hl, hr, Bool.or_self], hnull⟩
  | noMatch hl hr _ hnull => exact ⟨by simp only [isNullable, hl, hr, Bool.or_self], hnull⟩

/-! ## Flags that are stored -/

/-- What is known of the flags that a node keeps itself: `COALESCE` is flagged as its second
argument is, a subscript always. A translated tree has no aggregates. -/
def Flagged : Sql → Prop
  | call fn args _ _ => fn.name = "COALESCE" →
    ∃ left right : Sql, args = [left, right] ∧ fn = .coalesce right.isNullable
  | aggregate _ _ _ _ _ _ => False
  | subscript _ _ nullable _ _ => nullable = true
  | _ => True

theorem Flagged.fillWith {s : Sql} (h : s.Flagged) (m : Mapping) : (Sql.fillWith m s).Flagged := by
  revert h
  fun_cases Sql.fillWith m s
  all_goals exact id

/-- Every way of building sets the flags by the operands. -/
theorem keeps_flagged (b : Builder) (columns : ColumnLookup) : b.Keeps columns Flagged where
  fillWith m _ h := h.fillWith m
  typedConst _ _ _ := trivial
  param _ _ _ := trivial
  column _ := trivial
  call _ _ _ hn _ := fun h => absurd (List.mem_cons.mpr (.inl h)) hn
  cardinality _ _ := fun h => absurd h (by decide)
  documentLength binary {_} _ _ := fun h => absurd h (by cases binary <;> decide)
  coalesce _ _ _ := fun _ => ⟨_, _, rfl, rfl⟩
  cast _ _ _ := trivial
  binary op {left right} m _ _ := by
    unfold Builder.binary
    simp only
    split
    · trivial
    · trivial
  unary op {x} _ := by cases op <;> trivial
  like _ _ _ _ := trivial
  regexMatch _ _ _ := trivial
  postgres op {left right} ty m _ _ := by cases ty <;> trivial
  quantified _ _ {_ _} _ _ _ := trivial
  subscript _ _ _ := rfl
  newArray _ _ := trivial
  row _ _ := trivial
  textPath _ _ _ := trivial
  jsonPath _ _ _ _ := trivial

/-! ## Flags that are computed -/

/-- By induction on the tree: an operator on operands that are not null is null in a gap only. -/
theorem not_null_of_no_gap {S : Server} {env : Env} (hS : S.NullRules) {s : Sql}
    (hflags : Each Flagged s) (henv : s.Honoured S env) (hgap : ∀ n, Within n s → ¬ n.Gap S env)
    (h : s.isNullable = false) : s.eval S env ≠ .null := by
  induction s using children_induction with
  | h s ih =>
    have ih : ∀ c ∈ s.children, c.isNullable = false → c.eval S env ≠ .null := fun c hc hn =>
      ih c hc (hflags.child hc) (henv.within (.child hc .root))
        (fun n hw => hgap n (.child hc hw)) hn
    have hroot := hgap s .root
    cases s with
    | const v ty m =>
      intro hv
      have hnull := Datum.isNull_ofValue v
      rw [show Datum.ofValue v = .null from hv] at hnull
      rw [show v.isNull = false from h] at hnull
      cases hnull
    | param name nullable ty m =>
      cases h
      exact henv.param name ty m .root
    | column ref nullable ty m =>
      cases h
      exact henv.column ref ty m .root
    | call fn args ty m =>
      have hflag : fn.name = "COALESCE" → _ := hflags.root
      simp only [eval, evalAll_eq_map]
      -- COALESCE is as nullable as its last operand. Any other call has a flag, which the row
      -- honours.
      by_cases hname : fn.name = "COALESCE"
      · obtain ⟨left, right, rfl, rfl⟩ := hflag hname
        have hr := ih right (List.mem_cons_of_mem _ List.mem_cons_self) h
        show S.call { name := "COALESCE" } [left.eval S env, right.eval S env] ≠ .null
        rw [hS.coalesce]
        exact fun hnull => hr (Datum.orElse_eq_null.mp hnull).2
      · exact henv.call fn args ty m .root h hname
    | aggregate => exact hflags.root.elim
    | binary op left right ty m =>
      obtain ⟨hl, hr⟩ := Bool.or_eq_false_iff.mp h
      have hl' := ih left List.mem_cons_self hl
      have hr' := ih right (List.mem_cons_of_mem _ List.mem_cons_self) hr
      -- With operands that are not null, only a comparison of rows can be null, if a component is.
      by_cases hrows : op.isComparison = true ∧
          ((left.eval S env).lacksComponent = true ∨ (right.eval S env).lacksComponent = true)
      · exact fun hnull => hroot (.component hl hr hrows.1 hrows.2 hnull)
      · refine hS.binary op _ _ hl' hr' fun hop => ?_
        constructor
        · exact Bool.eq_false_iff.mpr fun hc => hrows ⟨hop, .inl hc⟩
        · exact Bool.eq_false_iff.mpr fun hc => hrows ⟨hop, .inr hc⟩
    | unary op operand ty m =>
      by_cases hop : op.isNullCheck = true
      · exact hS.nullCheck op _ hop
      · simp only [isNullable, hop, Bool.not_false, Bool.true_and] at h
        exact hS.unary op _ (ih operand List.mem_cons_self h)
    | cast operand ty m => exact hS.cast ty _ (ih operand List.mem_cons_self h)
    | like ignoreCase subject pattern e m =>
      obtain ⟨hs, hp⟩ := Bool.or_eq_false_iff.mp h
      have hs' := ih subject List.mem_cons_self hs
      have hp' := ih pattern (List.mem_cons_of_mem _ List.mem_cons_self) hp
      intro hnull
      -- The flag counts two of the three operands that can make the match null; a null in the third
      -- one is a gap.
      rcases (hS.like _ _ _ _).mp hnull with hnull | hnull | hnull
      · exact hs' hnull
      · exact hp' hnull
      · cases e with
        | none => cases hnull
        | some e => exact hroot (.escape hs hp (Option.some.inj hnull))
    | quantified => cases h
    | subscript array index nullable ty m =>
      rw [show nullable = true from hflags.root] at h
      cases h
    | newArray | row =>
      intro hnull
      cases hnull
    | regexMatch options subject pattern m =>
      obtain ⟨hs, hp⟩ := Bool.or_eq_false_iff.mp h
      exact hS.regexMatch options _ _ (ih subject List.mem_cons_self hs)
        (ih pattern (List.mem_cons_of_mem _ List.mem_cons_self) hp)
    | traversal => cases h
    | postgres op left right ty m =>
      obtain ⟨hl, hr⟩ := Bool.or_eq_false_iff.mp h
      -- An operator for the first match is null where nothing matches.
      by_cases hop : op.isFirstMatch = true
      · exact fun hnull => hroot (.noMatch hl hr hop hnull)
      · exact hS.postgres op _ _ (Bool.eq_false_iff.mpr hop) (ih left List.mem_cons_self hl)
          (ih right (List.mem_cons_of_mem _ List.mem_cons_self) hr)

end Sql

namespace Translator

/-- In a translated tree, nodes that are flagged as never null are not null, exactly if there is no
gap in it. -/
theorem not_null_iff_no_gap {columns : ColumnLookup} {options : Options} {catalog : Catalog}
    {t : Translator} {e : Expr} {s : Sql} {S : Server} {env : Env}
    (ht : (postgres columns options catalog []).outcome = .ok t)
    (hs : (t.translate e).outcome = .ok s) (hS : S.NullRules) (henv : s.Honoured S env) :
    (∀ n : Sql, n.Within s → n.isNullable = false → n.eval S env ≠ .null) ↔
      ∀ n : Sql, n.Within s → ¬ n.Gap S env := by
  constructor
  · intro hsound n hn hgap
    obtain ⟨hflag, hnull⟩ := hgap.null hS
    exact hsound n hn hflag hnull
  · intro hgap n hn hflag
    have hflags := (yields_translate ht (fun b _ => (Sql.keeps_flagged b columns).closed_each)
      nofun e).of_ok hs
    exact Sql.not_null_of_no_gap hS (hflags.within hn) (henv.within hn)
      (fun m hm => hgap m (hm.trans hn)) hflag

/-- Whether the tree puts another column, which is never null, in place of the column of that
name. -/
def isDefaultOf (name : String) : Sql → Bool
  | .call fn [.column _ true _ _, .column right false _ _] _ _ =>
    fn.name == "COALESCE" && !fn.nullable && right.name != name
  | _ => false

/-- The name of a person or else the family name, which is never null. -/
theorem not_null_of_default_name :
    let columns : ColumnLookup := fun _ name =>
      some { name := name, ty := .string, nullable := decide (name = "nick") }
    let nickname := Expr.ofBinary .coalesce (.property none "nick" .string)
      (.property none "family" .string)
    let env : Env :=
      { param := fun _ => .null
        column := fun ref => if ref.name = "nick" then .null else .text "Gray"
        group := fun _ _ _ _ => .null }
    ∃ t s, (postgres columns {} Catalog.standard []).outcome = .ok t ∧
      (t.translate nickname).outcome = .ok s ∧ s.isNullable = false ∧
      s.eval Server.reference env ≠ .null := by
  intro columns nickname env
  obtain ⟨t, s, ht, hs, htest⟩ := exists_translation
    (postgres columns {} Catalog.standard []) nickname (isDefaultOf "nick") (by decide +kernel)
  refine ⟨t, s, ht, hs, ?_⟩
  -- The test is all that is known of the translation: it gives the call and its two columns.
  unfold isDefaultOf at htest
  split at htest
  next fn left ty' m' right ty'' m'' ty m =>
    simp only [Bool.and_eq_true, beq_iff_eq, Bool.not_eq_true', bne_iff_ne, ne_eq] at htest
    obtain ⟨⟨hname, hflag⟩, hright⟩ := htest
    refine ⟨hflag, ?_⟩
    -- The nodes are the call and the columns, which have none below them.
    have hnodes {n : Sql}
        (hn : n.Within (.call fn [.column left true ty' m', .column right false ty'' m''] ty m)) :
        n = .call fn [.column left true ty' m', .column right false ty'' m''] ty m ∨
          n = .column left true ty' m' ∨ n = .column right false ty'' m'' := by
      rcases hn.of_leaves (List.forall_mem_cons.mpr ⟨rfl, List.forall_mem_singleton.mpr rfl⟩)
        with h | h
      · exact .inl h
      · rcases List.mem_cons.mp h with h | h
        · exact .inr (.inl h)
        · exact .inr (.inr (List.mem_singleton.mp h))
    refine (not_null_iff_no_gap ht hs Server.nullRules_reference ?_).mpr ?_ _ .root hflag
    · -- The row honours the flags: the column that is never null is not the one for the nickname.
      constructor
      · intro ref _ _ hn
        rcases hnodes hn with h | h | h <;> cases h
        show (if right.name = "nick" then _ else _) ≠ Datum.null
        rw [if_neg hright]
        intro hnull
        cases hnull
      · intro _ _ _ hn
        rcases hnodes hn with h | h | h <;> cases h
      · intro _ _ _ _ hn _ hne
        rcases hnodes hn with h | h | h <;> cases h
        exact absurd hname hne
    · -- None of the three nodes is one that a gap is about.
      intro n hn hgap
      rcases hnodes hn with rfl | rfl | rfl <;> cases hgap
  next => cases htest

/-- Whether the tree matches two columns that are never null, with the escape character from a
column of that name. -/
def isEscapedBy (name : String) : Sql → Bool
  | .like _ (.column x false _ _) (.column y false _ _) (some (.column z true _ _)) _ =>
    x.name != name && y.name != name && z.name == name
  | _ => false

/-- A match of two columns that are never null, with an escape character from a column that may be
null: the match is flagged as never null and is null. -/
theorem null_of_null_escape :
    let columns : ColumnLookup := fun _ name =>
      some { name := name, ty := .string, nullable := decide (name = "escape") }
    let column (name : String) : Expr := .property none name .string
    let isLike : Expr := .call (Known.close (.like false true) []) none
      [.dbFunctions, column "subject", column "pattern", column "escape"]
    let env : Env :=
      { param := fun _ => .null
        column := fun ref => if ref.name = "escape" then .null else .text "50%"
        group := fun _ _ _ _ => .null }
    ∃ t s, (postgres columns {} Catalog.standard []).outcome = .ok t ∧
      (t.translate isLike).outcome = .ok s ∧ Server.reference.NullRules ∧
      s.Honoured Server.reference env ∧ s.isNullable = false ∧
      s.eval Server.reference env = .null := by
  intro columns column isLike env
  obtain ⟨t, s, ht, hs, htest⟩ := exists_translation
    (postgres columns {} Catalog.standard []) isLike (isEscapedBy "escape") (by decide +kernel)
  refine ⟨t, s, ht, hs, Server.nullRules_reference, ?_⟩
  unfold isEscapedBy at htest
  split at htest
  next ignoreCase x tx mx y ty my z tz mz m =>
    simp only [Bool.and_eq_true, beq_iff_eq, bne_iff_ne, ne_eq] at htest
    obtain ⟨⟨hx, hy⟩, hz⟩ := htest
    have hz : env.column z = .null := if_pos hz
    -- The nodes are the match and its three columns.
    have hnodes {n : Sql} (hn : n.Within (.like ignoreCase (.column x false tx mx)
        (.column y false ty my) (some (.column z true tz mz)) m)) :
        n = .like ignoreCase (.column x false tx mx) (.column y false ty my)
            (some (.column z true tz mz)) m ∨
          n = .column x false tx mx ∨ n = .column y false ty my ∨ n = .column z true tz mz := by
      have hleaves := hn.of_leaves fun c hc => by
        simp only [Sql.children, Option.toList_some, List.mem_cons, List.not_mem_nil,
          or_false] at hc
        rcases hc with rfl | rfl | rfl <;> rfl
      simp only [Sql.children, Option.toList_some, List.mem_cons, List.not_mem_nil,
        or_false] at hleaves
      exact hleaves
    refine ⟨?_, rfl, ?_⟩
    · -- Only the escape character is null in the row, and its column may be.
      constructor
      · intro ref _ _ hn
        rcases hnodes hn with h | h | h | h <;> cases h
        · show (if x.name = "escape" then _ else _) ≠ Datum.null
          rw [if_neg hx]
          intro hnull
          cases hnull
        · show (if y.name = "escape" then _ else _) ≠ Datum.null
          rw [if_neg hy]
          intro hnull
          cases hnull
      · intro _ _ _ hn
        rcases hnodes hn with h | h | h | h <;> cases h
      · intro _ _ _ _ hn _ _
        rcases hnodes hn with h | h | h | h <;> cases h
    · -- A match with a null in any of its operands is null.
      refine (Server.nullRules_reference.like _ _ _ _).mpr (.inr (.inr ?_))
      simp only [Sql.evalOption, Sql.eval, hz]
  next => cases htest

end Translator

end QuerySql
