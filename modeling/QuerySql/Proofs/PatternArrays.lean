import QuerySql.Proofs.Families
import QuerySql.Proofs.Lambdas
import QuerySql.Proofs.Semantics.Patterns

/-!
# Matching with some or all patterns of an array

A match with a single pattern turns escaping off. A match with some or all patterns of an array
becomes an operator that has no place for an escape clause, so there the backslash escapes. The two
agree on patterns without a backslash and on no others.

* `Builder.eval_like`: what a match with a single pattern means.
* `Postgres.outcome_likeElement`, `Postgres.outcome_like`: what the two forms are translated to.
* `Sql.MatchesEach`: in how far the first form says what the second one says of each pattern.
* `Translator.like_over_patterns`, and `Translator.backslash_over_patterns`, where they differ.
-/

namespace QuerySql

theorem Builder.eval_like (b : Builder) (S : Server) (env : Env) (subject pattern escape : Sql)
    (ignoreCase : Bool) :
    (b.like subject pattern (some escape) ignoreCase).eval S env =
      S.like ignoreCase (subject.eval S env) (pattern.eval S env) (some (escape.eval S env)) := by
  simp only [like, Option.map_some, Sql.eval, Sql.evalOption, Sql.eval_fill]

/-- Without an escape clause. -/
theorem Builder.eval_like_default (b : Builder) (S : Server) (env : Env) (subject pattern : Sql)
    (ignoreCase : Bool) :
    (b.like subject pattern none ignoreCase).eval S env =
      S.like ignoreCase (subject.eval S env) (pattern.eval S env) none := by
  simp only [like, Option.map_none, Sql.eval, Sql.evalOption, Sql.eval_fill]

/-- The method that matches with one pattern is static. -/
theorem ArrayPattern.ofBody?_like {q : Quantifier} {x : Parameter} {like : Method}
    {ignoreCase : Bool} (hlike : Known.identify? like = some (.like ignoreCase false))
    (d e : Expr) :
    ofBody? q x (.call like none [d, e, .lambdaParam x]) = some (.likeElement ignoreCase e) := by
  have hofLike : ofLike? x like [d, e, .lambdaParam x] = some (.likeElement ignoreCase e) := by
    simp only [ofLike?, hlike, Expr.isParameter, decide_true, if_true]
  simp only [ofBody?, hofLike, Option.some_or]

theorem Quantifier.holds_congr {q : Quantifier} {P Q : Datum → Prop} {items : List Datum}
    (h : ∀ y ∈ items, (P y ↔ Q y)) : q.Holds P items ↔ q.Holds Q items := by
  cases q with
  | any => exact exists_congr fun y => and_congr_right (h y)
  | all => exact forall₂_congr h

/-- Some and all are the same of a single item. -/
theorem Quantifier.holds_singleton {q : Quantifier} {P : Datum → Prop} {y : Datum} :
    q.Holds P [y] ↔ P y := by
  cases q with
  | any =>
    constructor
    · rintro ⟨z, hz, h⟩
      cases List.mem_singleton.mp hz
      exact h
    · exact fun h => ⟨y, List.mem_cons_self, h⟩
  | all => exact List.forall_mem_singleton

/-! ## Meaning -/

namespace Server.LikeRules

variable {S : Server} {alike : Char → Char → Bool} (h : S.LikeRules alike) (ignoreCase : Bool)
  (text pattern : String)

include h

/-- Without an escape clause the backslash escapes. -/
theorem like_default :
    S.like ignoreCase (.text text) (.text pattern) none = .truth true ↔
      Like.accepts (Like.comparison alike ignoreCase) (some Like.defaultEscape) pattern text =
        true :=
  h.like ignoreCase text pattern none _ rfl

/-- With an empty escape clause nothing escapes. -/
theorem like_unescaped :
    S.like ignoreCase (.text text) (.text pattern) (some (.text "")) = .truth true ↔
      Like.accepts (Like.comparison alike ignoreCase) none pattern text = true :=
  h.like ignoreCase text pattern (some "") none rfl

theorem quantified_like (q : Quantifier) (patterns : List String) :
    S.quantified q (if ignoreCase then .ilike else .like) (.text text)
        (.array (patterns.map .text)) = .truth true ↔
      q.Holds (fun y => S.like ignoreCase (.text text) y none = .truth true)
        (patterns.map .text) := by
  cases q with
  | any =>
    rw [h.any_like]
    constructor
    · rintro ⟨pattern, hmem, hlike⟩
      exact ⟨_, List.mem_map_of_mem hmem, hlike⟩
    · rintro ⟨y, hy, hlike⟩
      obtain ⟨pattern, hmem, rfl⟩ := List.mem_map.mp hy
      exact ⟨pattern, hmem, hlike⟩
  | all =>
    rw [h.all_like]
    constructor
    · intro hlike y hy
      obtain ⟨pattern, hmem, rfl⟩ := List.mem_map.mp hy
      exact hlike pattern hmem
    · intro hlike pattern hmem
      exact hlike _ (List.mem_map_of_mem hmem)

end Server.LikeRules

/-- The first tree matches with some, or all, patterns of an array, the second one with one pattern.
On patterns without a backslash the first one says what the second one says of each of them, in
rows that differ in the pattern. No other pattern is matched alike by both. -/
structure Sql.MatchesEach (q : Quantifier) (s single subject array pattern : Sql) : Prop where
  of_plain : ∀ (S : Server) (alike : Char → Char → Bool) (env : Env) (row : Datum → Env)
    (text : String) (patterns : List String), S.LikeRules alike →
    subject.eval S env = .text text → array.eval S env = .array (patterns.map .text) →
    (∀ p ∈ patterns, subject.eval S (row (.text p)) = .text text ∧
      pattern.eval S (row (.text p)) = .text p) →
    (∀ p ∈ patterns, Like.defaultEscape ∉ p.toList) →
    (s.eval S env = .truth true ↔
      q.Holds (fun y => single.eval S (row y) = .truth true) (patterns.map .text))
  plain_of : ∀ (S : Server) (alike : Char → Char → Bool) (row : String → Env) (p : String),
    S.LikeRules alike →
    (∀ text, subject.eval S (row text) = .text text ∧ array.eval S (row text) = .array [.text p] ∧
      pattern.eval S (row text) = .text p) →
    (∀ text, s.eval S (row text) = .truth true ↔ single.eval S (row text) = .truth true) →
    Like.defaultEscape ∉ p.toList

/-- What is built for the elements is to be compared with a match that has no escape character. -/
theorem Builder.matchesEach (b : Builder) (q : Quantifier) (ignoreCase : Bool)
    (subject array pattern : Sql) :
    (b.quantified q (if ignoreCase then .ilike else .like) subject array).MatchesEach q
      (b.like subject pattern (some (b.text "")) ignoreCase) subject array pattern := by
  have hempty (S : Server) (env : Env) : (b.text "").eval S env = .text "" := rfl
  constructor
  · intro S alike env row text patterns hS hsubject harray hrow hplain
    rw [eval_quantified, hsubject, harray, hS.quantified_like]
    refine Quantifier.holds_congr fun y hy => ?_
    obtain ⟨p, hp, rfl⟩ := List.mem_map.mp hy
    obtain ⟨hsubject', hpattern⟩ := hrow p hp
    rw [eval_like, hsubject', hpattern, hempty, hS.like_default, hS.like_unescaped,
      Like.accepts_of_not_mem (hplain p hp)]
  · intro S alike row p hS hrow hagree
    refine (Like.accepts_agree_iff rfl (hS.comparison_percent ignoreCase)
      (hS.comparison_refl ignoreCase) p).mp fun text => ?_
    obtain ⟨hsubject, harray, hpattern⟩ := hrow text
    have harray : array.eval S (row text) = .array ([p].map .text) := harray
    have hsame := hagree text
    rw [eval_quantified, eval_like, hsubject, harray, hpattern, hempty, hS.quantified_like,
      List.map_singleton, Quantifier.holds_singleton, hS.like_default, hS.like_unescaped] at hsame
    exact Bool.eq_iff_iff.mpr hsame

/-- What a match with a single pattern is translated to. -/
theorem Scalar.Patterns.translate_like {b : Builder} {like : Method} {ignoreCase : Bool}
    (hlike : Known.identify? like = some (.like ignoreCase false))
    (functions subject pattern : Sql) :
    (likeTranslator b).translate ⟨none, like, [functions, subject, pattern]⟩ =
      pure (b.like subject pattern (some (b.text "")) ignoreCase) := by
  simp only [likeTranslator, hlike]

namespace Postgres

variable {p : Postgres} {r : Relational} {like : Method} {ignoreCase : Bool} {e : Expr}
  (hlike : Known.identify? like = some (.like ignoreCase false))

include hlike

/-- A match with an element becomes a comparison with all of the array. -/
theorem outcome_likeElement {q : Quantifier} {m : Method} {receiver : Option Expr} {a d : Expr}
    {x : Parameter} {fn : Ty} {s : Sql} (hm : Known.identify? m = some q.method)
    (hs : (p.run r (.call m receiver
      [a, .lambda [x] (.call like none [d, e, .lambdaParam x]) fn])).outcome = .ok s) :
    ∃ se sa, (p.run r e).outcome = .ok se ∧ (p.run r a).outcome = .ok sa ∧
      s = p.builder.quantified q (if ignoreCase then .ilike else .like) se sa := by
  obtain ⟨y, hy, hs⟩ := exists_lambdaCall? (List.mem_cons_of_mem _ List.mem_cons_self) hs
  have hcall : ArrayPattern.ofCall? m [a, .lambda [x] (.call like none [d, e, .lambdaParam x]) fn] =
      some (q, a, x, .likeElement ignoreCase e) := by
    rw [ArrayPattern.ofCall?_eq_map hm, ArrayPattern.ofBody?_like hlike]
    rfl
  rcases lambdaCall?_eq_some hy with ⟨q', a', param, pattern, hp, rfl⟩ | ⟨hnone, -⟩
  · cases hcall.symm.trans hp
    obtain ⟨_, -, hs⟩ := Run.outcome_bind_eq_ok.mp hs
    obtain ⟨⟨se, sa⟩, hoperands, hs⟩ := Run.outcome_bind_eq_ok.mp hs
    obtain ⟨_, he, hoperands⟩ := Run.outcome_bind_eq_ok.mp hoperands
    obtain ⟨_, ha, hoperands⟩ := Run.outcome_bind_eq_ok.mp hoperands
    cases hoperands
    cases hs
    exact ⟨se, sa, he, ha, rfl⟩
  · rw [hcall] at hnone
    cases hnone

/-- No other translator takes the call. -/
theorem outcome_like (options : Options) (added : List ScalarTranslator)
    (hscalars : r.scalars = Scalar.builtIn r.builder options ++ added) {pattern : Expr}
    {se sp : Sql} (he : (p.run r e).outcome = .ok se) (hp : (p.run r pattern).outcome = .ok sp) :
    (p.run r (.call like none [.dbFunctions, e, pattern])).outcome =
      .ok (r.builder.like se sp (some (r.builder.text "")) ignoreCase) := by
  obtain ⟨sd, hd⟩ : ∃ sd, (p.run r .dbFunctions).outcome = .ok sd := by
    rw [Expr.dbFunctions, run_const]
    exact ⟨_, rfl⟩
  have hargs : (Attempt.all (p.run r) [.dbFunctions, e, pattern]).outcome = .ok [sd, se, sp] :=
    Attempt.outcome_all_cons hd (Attempt.outcome_all_cons he (Attempt.outcome_all_cons hp rfl))
  let c : ScalarCall := ⟨none, like, [sd, se, sp]⟩
  have htranslate : ((Scalar.Family.like.translator r.builder options).translate c).outcome =
      .ok (r.builder.like se sp (some (r.builder.text "")) ignoreCase) :=
    congrArg Run.outcome (Scalar.Patterns.translate_like hlike sd se sp)
  exact outcome_call_of_family hscalars hlike nofun nofun rfl hargs htranslate

end Postgres

/-! ## Translators -/

namespace Translator

/-- A match with some, or all, patterns of an array says, of patterns without a backslash, what the
match with one pattern says of some, or all, of them. Over a pattern with a backslash the two
differ. -/
theorem like_over_patterns {columns : ColumnLookup} {options : Options} {catalog : Catalog}
    {added : List ScalarTranslator} {t : Translator}
    (ht : (postgres columns options catalog added).outcome = .ok t) {q : Quantifier}
    {m like : Method} {ignoreCase : Bool} (hm : Known.identify? m = some q.method)
    (hlike : Known.identify? like = some (.like ignoreCase false)) {receiver : Option Expr}
    {a e pattern : Expr} {x : Parameter} {fn : Ty} {s sp : Sql}
    (hs : (t.translate (.call m receiver
      [a, .lambda [x] (.call like none [.dbFunctions, e, .lambdaParam x]) fn])).outcome = .ok s)
    (hp : (t.translate pattern).outcome = .ok sp) :
    ∃ se sa single, (t.translate e).outcome = .ok se ∧ (t.translate a).outcome = .ok sa ∧
      (t.translate (.call like none [.dbFunctions, e, pattern])).outcome = .ok single ∧
      s.MatchesEach q single se sa sp := by
  obtain ⟨b, p, -, hpostgres, rfl⟩ := of_postgres ht
  cases Postgres.builder_of_ofBuilder hpostgres
  obtain ⟨se, sa, he, ha, rfl⟩ := Postgres.outcome_likeElement hlike hm hs
  have hsingle := Postgres.outcome_like hlike options added rfl he hp
  exact ⟨se, sa, _, he, ha, hsingle, p.builder.matchesEach q ignoreCase se sa sp⟩

/-! ### A name and patterns for it -/

/-- A name, a pattern, and an array of patterns. -/
def patternColumns : ColumnLookup := fun _ name =>
  some { name := name, ty := if name = "patterns" then .array .string else .string }

/-- The match of the name with a pattern. -/
def nameIsLike (pattern : Expr) : Expr :=
  .call (Known.close (.like false false) []) none
    [.dbFunctions, .property none "name" .string, pattern]

/-- The match of the name with some pattern of the array. -/
def nameIsLikeAny : Expr :=
  .call (Known.close (.sequence .anyWhere) [.string]) none
    [.property none "patterns" (.array .string),
      .lambdaOf [⟨"x", .string⟩] (nameIsLike (.lambdaParam ⟨"x", .string⟩))]

/-- A row with these values. -/
def patternRow (name : String) (patterns : List String) (pattern : Datum) : Env where
  param _ := .null
  column ref :=
    if ref.name = "name" then .text name
    else if ref.name = "patterns" then .array (patterns.map .text)
    else pattern
  group _ _ _ _ := .null

/-- A name that matches the second of two patterns. -/
theorem abc_like_any :
    let patterns := ["b%", "a_c"]
    let row := patternRow "abc" patterns
    ∃ t s single, (postgres patternColumns {} Catalog.standard []).outcome = .ok t ∧
      (t.translate nameIsLikeAny).outcome = .ok s ∧
      (t.translate (nameIsLike (.property none "pattern" .string))).outcome = .ok single ∧
      Server.patterns.LikeRules Server.Reference.isSameLetter ∧
      (∀ p ∈ patterns, Like.defaultEscape ∉ p.toList) ∧
      single.eval Server.patterns (row (.text "a_c")) = .truth true ∧
      s.eval Server.patterns (row .null) = .truth true := by
  intro patterns row
  let name : Expr := .property none "name" .string
  let array : Expr := .property none "patterns" (.array .string)
  let pattern : Expr := .property none "pattern" .string
  obtain ⟨t, ht, hfound⟩ := exists_translations (postgres patternColumns {} Catalog.standard [])
    [(nameIsLikeAny, fun _ => true), (name, isColumnNamed "name"),
      (array, isColumnNamed "patterns"), (pattern, isColumnNamed "pattern"),
      (nameIsLike pattern, fun s => (s.eval Server.patterns (row (.text "a_c"))).isTrue)]
    (by decide +kernel)
  obtain ⟨s, hs, -⟩ := hfound _ _ (.head _)
  obtain ⟨se, he, hecolumn⟩ := hfound _ _ (.tail _ (.head _))
  obtain ⟨sa, ha, hacolumn⟩ := hfound _ _ (.tail _ (.tail _ (.head _)))
  obtain ⟨sp, hp, hpcolumn⟩ := hfound _ _ (.tail _ (.tail _ (.tail _ (.head _))))
  obtain ⟨single, hsingle, htrue⟩ := hfound _ _ (.tail _ (.tail _ (.tail _ (.tail _ (.head _)))))
  obtain ⟨_, _, _, he', ha', hsingle', hmatches⟩ :=
    like_over_patterns ht (q := .any) rfl rfl hs hp
  cases he.symm.trans he'
  cases ha.symm.trans ha'
  cases hsingle.symm.trans hsingle'
  have hplain : ∀ p ∈ patterns, Like.defaultEscape ∉ p.toList := by decide +kernel
  have htrue := Datum.isTrue_eq_true.mp htrue
  refine ⟨t, s, single, ht, hs, hsingle, Server.likeRules_patterns, hplain, htrue, ?_⟩
  -- The columns have the values that the row gives for their names.
  have hname (y : Datum) : se.eval Server.patterns (row y) = .text "abc" := by
    obtain ⟨ref, href, heval⟩ := eval_of_isColumnNamed hecolumn Server.patterns (row y)
    rw [heval]
    exact if_pos href
  have hpattern (y : Datum) : sp.eval Server.patterns (row y) = y := by
    obtain ⟨ref, href, heval⟩ := eval_of_isColumnNamed hpcolumn Server.patterns (row y)
    rw [heval]
    simp only [row, patternRow, href]
    rfl
  have harray : sa.eval Server.patterns (row .null) = .array (patterns.map .text) := by
    obtain ⟨ref, href, heval⟩ := eval_of_isColumnNamed hacolumn Server.patterns (row .null)
    rw [heval]
    simp only [row, patternRow, href]
    rfl
  refine (hmatches.of_plain _ _ _ row "abc" patterns Server.likeRules_patterns (hname _) harray
    (fun p _ => ⟨hname _, hpattern _⟩) hplain).mpr ?_
  exact ⟨.text "a_c", List.mem_cons_of_mem _ List.mem_cons_self, htrue⟩

/-- The name `ab` is like some pattern of an array that has the pattern `a\b` only, which escapes
the `b` there. It is not like this pattern by itself, where the backslash stands for itself. -/
theorem backslash_over_patterns :
    let row := patternRow "ab" ["a\\b"] (.text "a\\b")
    ∃ t s single, (postgres patternColumns {} Catalog.standard []).outcome = .ok t ∧
      (t.translate nameIsLikeAny).outcome = .ok s ∧
      (t.translate (nameIsLike (.property none "pattern" .string))).outcome = .ok single ∧
      Server.patterns.LikeRules Server.Reference.isSameLetter ∧
      s.eval Server.patterns row = .truth true ∧
      single.eval Server.patterns row ≠ .truth true := by
  intro row
  obtain ⟨t, ht, hfound⟩ := exists_translations (postgres patternColumns {} Catalog.standard [])
    [(nameIsLikeAny, fun s => (s.eval Server.patterns row).isTrue),
      (nameIsLike (.property none "pattern" .string),
        fun s => !(s.eval Server.patterns row).isTrue)]
    (by decide +kernel)
  obtain ⟨s, hs, htrue⟩ := hfound _ _ (.head _)
  obtain ⟨single, hsingle, hfalse⟩ := hfound _ _ (.tail _ (.head _))
  refine ⟨t, s, single, ht, hs, hsingle, Server.likeRules_patterns,
    Datum.isTrue_eq_true.mp htrue, fun heq => ?_⟩
  rw [heq] at hfalse
  cases hfalse

end Translator

end QuerySql
