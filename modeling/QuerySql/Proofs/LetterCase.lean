import QuerySql.Proofs.Retouch.Translation

/-!
# Letter case

Two methods match a text with a pattern, and two more do so regardless of letter case. Exchanging
the ones for the others changes a flag of the matches in a translated tree and nothing else.

* `Postgres.run_forgetCase`: forgetting letter case in a tree is translating an expression that has
  forgotten it.
* `Translator.translate_exchangeCase`: so two expressions that differ in letter case alone are told
  apart by no more than that.
-/

namespace QuerySql

/-- All functions keep their names, and letter case is forgotten. -/
def Retouch.caseless : Retouch where
  name n := n
  name_eq _ _ := rfl
  forgetsCase := true

theorem Retouch.ignores_caseless : caseless.ignores = fun _ => false :=
  funext fun ignoreCase => Bool.and_false ignoreCase

/-- The tree with letter case heeded in every match, also in the matches with the elements of an
array. -/
def Sql.forgetCase (s : Sql) : Sql := s.retouch .caseless

/-- A translation with letter case forgotten is the translation of the tree in which no match
ignores it. -/
theorem Postgres.run_forgetCase (p : Postgres) {b : Builder} {o : Options} {columns : ColumnLookup}
    (e : Expr) :
    (p.run ⟨b, Scalar.builtIn b o, columns⟩ e).outcome.map Sql.forgetCase =
      (p.run ⟨b, Scalar.builtIn b o, columns⟩ (e.recase fun _ => false)).outcome := by
  have hscalars : Relational.RetouchesTo .caseless ⟨b, Scalar.builtIn b o, columns⟩
      ⟨b, Scalar.builtIn b o, columns⟩ := Relational.retouchesTo_builtIn rfl (.inr rfl) rfl
  have hrun := (p.retouch_run hscalars e).outcome
  rwa [Retouch.ignores_caseless, Attempt.map_eq] at hrun

/-! ## Translators -/

namespace Translator

variable {columns : ColumnLookup} {o : Options} {catalog : Catalog} {t : Translator}

/-- Without added translators: if letter case is exchanged in every match of an expression, those in
lambdas included, then nothing is found for either expression, or what is found is the same but for
letter case. -/
theorem translate_exchangeCase (ht : (postgres columns o catalog []).outcome = .ok t) (e : Expr) :
    (t.translate e).outcome.map Sql.forgetCase =
      (t.translate e.exchangeCase).outcome.map Sql.forgetCase := by
  obtain ⟨-, b, p, -, -, -, rfl⟩ := outcome_postgres_eq_ok.mp ht
  have hforgotten : e.exchangeCase.recase (fun _ => false) = e.recase fun _ => false :=
    e.recase_recase
  rw [List.append_nil]
  show (p.run _ e).outcome.map Sql.forgetCase = (p.run _ e.exchangeCase).outcome.map Sql.forgetCase
  rw [p.run_forgetCase, p.run_forgetCase, hforgotten]

/-- Whether the tree is a conjunction of a match with some element of an array and another match. -/
def isBothMatches (op : ElementOp) (ignoreCase : Bool) : Sql → Bool
  | .binary .andAlso (.quantified .any op' _ _ _) (.like ignoreCase' _ _ _ _) _ _ =>
    decide (op' = op) && ignoreCase' == ignoreCase
  | _ => false

/-- A name that is matched with some pattern regardless of letter case, and with another pattern. -/
theorem name_matched_twice :
    let columns : ColumnLookup := fun _ name =>
      some { name := name, ty := if name = "patterns" then .array .string else .string }
    let name : Expr := .property none "name" .string
    let x : Parameter := ⟨"x", .string⟩
    let matchOf (ignoreCase : Bool) (pattern : Expr) : Expr :=
      .call (Known.close (.like ignoreCase false) []) none [.dbFunctions, name, pattern]
    let matchesSome (ignoreCase : Bool) : Expr :=
      .call (Known.close (.sequence .anyWhere) [.string]) none
        [.property none "patterns" (.array .string),
          .lambdaOf [x] (matchOf ignoreCase (.lambdaParam x))]
    let both (first second : Bool) : Expr :=
      .ofBinary (.plain .andAlso) (matchesSome first) (matchOf second (.ofValue (.string "A%")))
    ∃ t s s', (postgres columns {} Catalog.standard []).outcome = .ok t ∧
      (t.translate (both true false)).outcome = .ok s ∧ isBothMatches .ilike false s = true ∧
      (both true false).exchangeCase = both false true ∧
      (t.translate (both false true)).outcome = .ok s' ∧ isBothMatches .like true s' = true ∧
      s.forgetCase = s'.forgetCase := by
  intro columns name x matchOf matchesSome both
  obtain ⟨t, ht, hfound⟩ := exists_translations (postgres columns {} Catalog.standard [])
    [(both true false, isBothMatches .ilike false), (both false true, isBothMatches .like true)]
    (by decide +kernel)
  obtain ⟨s, hs, htest⟩ := hfound _ _ (.head _)
  obtain ⟨s', hs', htest'⟩ := hfound _ _ (.tail _ (.head _))
  -- The two trees are different, but they are the same with letter case forgotten.
  have hexchanged : (both true false).exchangeCase = both false true := rfl
  have hsame := translate_exchangeCase ht (both true false)
  rw [hexchanged, hs, hs'] at hsame
  exact ⟨t, s, s', ht, hs, htest, hexchanged, hs', htest', Except.ok.inj hsame⟩

end Translator

end QuerySql
