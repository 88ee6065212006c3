import QuerySql.Proofs.Agreement

/-!
# Translation ends

A strategy hands trees back to whoever runs it, and not all of them are parts of the tree that it
was given. All of them have fewer nodes, so the recursion ends by itself: the guard of
`Strategy.run` never closes.

* `Strategy.Requests`: what is made of one tree depends on the answer for another one.
* `Strategy.Descends.unroll_eq`: as many rounds of the recursion as a tree has nodes are enough.
* `Postgres.asks_of_requests`: what is handed back is listed by `Expr.Asks`.
* `Postgres.requests_of_composes`: the trees that are put together on the way are handed back.
-/

namespace QuerySql

theorem Attempt.outcome_all_pure {α β : Type} (a : α) (xs : List β) :
    (all (fun _ => (pure a : Attempt α)) xs).outcome = .ok (xs.map fun _ => a) := by
  induction xs with
  | nil => rfl
  | cons x xs ih => exact outcome_all_cons rfl ih

namespace Strategy

/-- The strategy hands the second tree back when it is given the first one: what it makes of the
first depends on the answer for the second. -/
def Requests (s : Strategy) (e d : Expr) : Prop :=
  ∃ f g : Expr → Attempt Sql, (∀ c, c ≠ d → f c = g c) ∧ s f e ≠ s g e

/-- The recursion down to some depth, without a guard. What is handed back from there has the answer
that `beyond` gives. -/
def unroll (s : Strategy) (beyond : Expr → Attempt Sql) : Nat → Expr → Attempt Sql
  | 0 => beyond
  | depth + 1 => s (unroll s beyond depth)

variable {s : Strategy} {e d : Expr}

/-- A strategy that descends asks for smaller trees only. -/
theorem Descends.nodes_lt (h : s.Descends) (hd : s.Requests e d) : d.nodes < e.nodes := by
  obtain ⟨f, g, hagree, hne⟩ := hd
  refine Decidable.byContradiction fun hle => hne (h e f g fun c hc => hagree c ?_)
  rintro rfl
  exact hle hc

/-- Trees are handed back on behalf of trees that were handed back. -/
theorem Descends.nodes_lt_of_transGen (h : s.Descends) (hd : Relation.TransGen s.Requests e d) :
    d.nodes < e.nodes := by
  induction hd with
  | single hd => exact h.nodes_lt hd
  | tail _ hd ih => exact Nat.lt_trans (h.nodes_lt hd) ih

/-- By induction on the depth: each round leaves trees with fewer nodes, and a tree has one node at
least. So what lies beyond is never asked for. -/
theorem Descends.unroll_eq (h : s.Descends) (beyond : Expr → Attempt Sql) {depth : Nat}
    (hdepth : e.nodes ≤ depth) : s.unroll beyond depth e = s.run e := by
  induction depth generalizing e with
  | zero =>
    have := e.nodes_pos
    omega
  | succ depth ih =>
    rw [run_eq h]
    exact h e _ _ fun c hc => ih (by omega)

/-- A tree is handed back if the strategy finds something where all trees have an answer, and
nothing where this one has none. -/
theorem requests_of_fails {x : Sql} (hall : ¬ (s (fun _ => pure x) e).Fails)
    (hfails : ∀ f : Expr → Attempt Sql, (f d).Fails → (s f e).Fails) : s.Requests e d := by
  classical
  refine ⟨fun _ => pure x, fun c => if c = d then .decline else pure x, fun c hc => ?_,
    fun heq => ?_⟩
  · simp only [hc, if_false]
  · rw [heq] at hall
    refine hall (hfails _ ?_)
    simp only [if_true]
    exact Attempt.fails_decline

end Strategy

/-- The second tree is put together when the first one is translated. It need not be a part of it.
-/
inductive Expr.Composes : Expr → Expr → Prop
  /-- The membership test that an equation with some element is turned into. -/
  | membership {m : Method} {receiver : Option Expr} {args : List Expr} {q : Quantifier}
      {array other : Expr} {x : Parameter} :
      ArrayPattern.ofCall? m args = some (q, array, x, .equalTo other) →
      array.ty.stripNullable.isArrayOrList = true →
      Composes (call m receiver args)
        (call (Known.close (.sequence .contains) [x.ty]) none [array, other])
  /-- The seconds of a timestamp as a fractional number. -/
  | seconds {year month day hour minute second : Expr} {rest : List Expr} :
      Composes (construct .dateTimeOfSecond
          (year :: month :: day :: hour :: minute :: second :: rest))
        (unary .convert second .double)
  /-- The same, where the timestamp is of a given kind. -/
  | secondsOfKind {year month day hour minute second : Expr} {kind : TimestampKind} {ty : Ty}
      {rest : List Expr} :
      Composes (construct .dateTimeOfKind (year :: month :: day :: hour :: minute :: second ::
          const (.dateTimeKind kind) ty :: rest))
        (unary .convert second .double)
  /-- The name of the zone of a timestamp in universal time. -/
  | zone {year month day hour minute second : Expr} {ty : Ty} {rest : List Expr} :
      Composes (construct .dateTimeOfKind (year :: month :: day :: hour :: minute :: second ::
          const (.dateTimeKind .utc) ty :: rest))
        (ofValue (.string "UTC"))

namespace Postgres

variable {p : Postgres} {r : Relational} {e d : Expr}

/-- Nothing is handed back but what is listed. -/
theorem asks_of_requests (h : (p.strategy r.strategy).Requests e d) : e.Asks d := by
  obtain ⟨f, g, hagree, hne⟩ := h
  refine Classical.byContradiction fun hasks => ?_
  have hother : ∀ c, e.Asks c → f c = g c := by
    intro c hc
    refine hagree c ?_
    rintro rfl
    exact hasks hc
  exact hne (p.strategy_congr (Relational.strategy_congr fun c hc => hother c (.child hc)) hother)

theorem requests_membership {behind : Strategy} {m : Method} {receiver : Option Expr}
    {args : List Expr} {q : Quantifier} {array other : Expr} {x : Parameter}
    (hp : ArrayPattern.ofCall? m args = some (q, array, x, .equalTo other))
    (harray : array.ty.stripNullable.isArrayOrList = true) :
    (p.strategy behind).Requests (.call m receiver args)
      (.call (Known.close (.sequence .contains) [x.ty]) none [array, other]) := by
  have hstep (f : Expr → Attempt Sql) : p.strategy behind f (.call m receiver args) =
      p.arrayPattern f q array x (.equalTo other) := by
    obtain ⟨body, ty, rfl, -⟩ := ArrayPattern.ofCall?_eq_some hp
    simp only [strategy, intercept?, lambdaCall?, List.head?_cons, Option.any_some, harray, hp]
  refine Strategy.requests_of_fails (x := .const .null .object none) ?_ fun f hf => ?_
  · rw [hstep]
    exact fun h => h _ rfl
  · rw [hstep]
    exact Attempt.fails_bind_of_forall fun _ => hf

/-- What a function is given for arguments is handed back, whatever tree it is. -/
theorem requests_argument {c : Constructor} {function : String} {args parts : List Expr} {ty : Ty}
    {mapping : Option Mapping}
    (hmake : ∀ f, p.construct f c args = p.make f function parts ty mapping) (hd : d ∈ parts) :
    (p.strategy r.strategy).Requests (.construct c args) d := by
  have hstep (f : Expr → Attempt Sql) :
      (p.strategy r.strategy f (.construct c args)).outcome =
        (p.make f function parts ty mapping).outcome := by
    rw [← hmake]
    exact Attempt.outcome_orElse_of_declines rfl
  let x : Sql := .const .null .object none
  have hmade : ∃ s, (p.make (fun _ => pure x) function parts ty mapping).outcome = .ok s := by
    rw [make, Attempt.outcome_bind_ok (Attempt.outcome_all_pure x parts),
      Builder.strictCall_eq_pure]
    exact ⟨_, rfl⟩
  obtain ⟨s, hs⟩ := hmade
  refine Strategy.requests_of_fails (x := x) (fun h => h s ((hstep _).trans hs)) fun f hf => ?_
  have hfails : (p.make f function parts ty mapping).Fails :=
    Attempt.fails_bind (Attempt.fails_all hd hf) _
  exact hfails.congr (hstep f)

/-- By cases on what is put together: the answer for it decides over the whole. -/
theorem requests_of_composes (h : e.Composes d) : (p.strategy r.strategy).Requests e d := by
  cases h with
  | membership hp harray => exact requests_membership hp harray
  | seconds => exact requests_argument (fun _ => rfl) (by simp)
  | @secondsOfKind year month day hour minute second kind ty rest =>
    cases kind with
    | utc => exact requests_argument (fun _ => rfl) (by simp)
    | _ => exact requests_argument (fun _ => rfl) (by simp)
  | zone => exact requests_argument (fun _ => rfl) (by simp)

end Postgres

namespace Translator

/-- Translation ends on every tree. What the strategy hands back for a tree is one of the trees that
`Expr.Asks` lists. The trees that are put together on the way are among them. All that is handed
back until a tree has been translated has fewer nodes than the tree. So as many rounds of the
recursion as the tree has nodes are a translation, whatever lies beyond. -/
theorem translation_ends {columns : ColumnLookup} {options : Options} {catalog : Catalog}
    {added : List ScalarTranslator} {t : Translator}
    (ht : (postgres columns options catalog added).outcome = .ok t) :
    (∀ e d, t.strategy.Requests e d → e.Asks d) ∧
    (∀ e d, e.Composes d → t.strategy.Requests e d) ∧
    (∀ e d, Relation.TransGen t.strategy.Requests e d → d.nodes < e.nodes) ∧
    ∀ (e : Expr) (beyond : Expr → Attempt Sql) (depth : Nat), e.nodes ≤ depth →
      t.strategy.unroll beyond depth e = t.translate e := by
  obtain ⟨b, p, -, -, rfl⟩ := of_postgres ht
  have hdescends := p.strategy_descends
    (Relational.strategy_descends ⟨b, Scalar.builtIn b options ++ added, columns⟩)
  refine ⟨fun e d hd => Postgres.asks_of_requests hd,
    fun e d hd => Postgres.requests_of_composes hd,
    fun e d hd => hdescends.nodes_lt_of_transGen hd, fun e beyond depth hdepth => ?_⟩
  exact hdescends.unroll_eq beyond hdepth

/-- `new DateTime(2024, 1, 2, 3, 4, 5, Utc)` has eight nodes. The conversion of its seconds and the
name of its zone are no parts of it, and they are smaller. `Ids.Any(id => id == 2)` has six nodes,
and the membership test that it is turned into has three. -/
theorem translation_of_timestamp_ends :
    let columns : ColumnLookup := fun _ name => some { name := name, ty := .array .int }
    let part (n : Int32) : Expr := .ofValue (.int n)
    let timestamp : Expr := .construct .dateTimeOfKind
      [part 2024, part 1, part 2, part 3, part 4, part 5, .ofValue (.dateTimeKind .utc)]
    let seconds : Expr := .unary .convert (part 5) .double
    let zone : Expr := .ofValue (.string "UTC")
    let ids : Expr := .property none "Ids" (.array .int)
    let id : Parameter := ⟨"id", .int⟩
    let anyIsTwo : Expr := .call (Known.close (.sequence .anyWhere) [.int]) none
      [ids, .lambdaOf [id] (.ofBinary (.plain .equal) (.lambdaParam id) (part 2))]
    let membership : Expr := .call (Known.close (.sequence .contains) [.int]) none [ids, part 2]
    ∃ t, (postgres columns {} Catalog.standard []).outcome = .ok t ∧
      t.strategy.Requests timestamp seconds ∧ seconds.nodes < timestamp.nodes ∧
      t.strategy.Requests timestamp zone ∧ zone.nodes < timestamp.nodes ∧
      t.strategy.Requests anyIsTwo membership ∧ membership.nodes < anyIsTwo.nodes ∧
      anyIsTwo.Asks membership ∧
      t.strategy.unroll (fun _ => .decline) 8 timestamp = t.translate timestamp ∧
      t.strategy.unroll (fun _ => .decline) 6 anyIsTwo = t.translate anyIsTwo ∧
      ∃ s, (t.translate anyIsTwo).outcome = .ok s := by
  intro columns part timestamp seconds zone ids id anyIsTwo membership
  obtain ⟨t, s, ht, hs, -⟩ := exists_translation (postgres columns {} Catalog.standard []) anyIsTwo
    (fun _ => true) (by decide +kernel)
  obtain ⟨hasks, hcomposes, hsmaller, hunroll⟩ := translation_ends ht
  -- Three trees that are no part of what they are handed back for.
  have hseconds := hcomposes timestamp seconds .secondsOfKind
  have hzone := hcomposes timestamp zone .zone
  have hmembership : t.strategy.Requests anyIsTwo membership :=
    hcomposes anyIsTwo membership (.membership (q := .any) (x := id) rfl rfl)
  exact ⟨t, ht, hseconds, hsmaller _ _ (.single hseconds), hzone, hsmaller _ _ (.single hzone),
    hmembership, hsmaller _ _ (.single hmembership), hasks _ _ hmembership,
    hunroll timestamp _ 8 (Nat.le_refl 8), hunroll anyIsTwo _ 6 (Nat.le_refl 6), s, hs⟩

end Translator

end QuerySql
