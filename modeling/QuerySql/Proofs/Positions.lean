import QuerySql.Proofs.Agreement
import QuerySql.Proofs.Families

/-!
# Positions of items

A Redshift server cannot say at which position of an array an item is. Where the server is one, the
methods that ask for it (`Method.asksPosition`) are declined by every translator, and nothing else
is changed by that.

* `Scalar.fails_firstOf_of_asksPosition`: no other translator takes such a call in its place.
* `Relational.below_of_redshift`: so what is found for a Redshift server is found for others.
* `Postgres.run_eq_of_no_position`: without such calls the reports are the same as well.
-/

namespace QuerySql

/-- Whether the method gives the position of an item in an array or a list. -/
def Method.asksPosition (m : Method) : Bool :=
  (decide (m.owner = .array) || decide (m.owner = .list)) && m.name == "IndexOf"

/-- Whether the root is a call of such a method. -/
def Expr.asksPosition : Expr → Bool
  | call m _ _ => m.asksPosition
  | _ => false

theorem Method.asksPosition_eq_true {m : Method} :
    m.asksPosition = true ↔ (m.owner = .array ∨ m.owner = .list) ∧ m.name = "IndexOf" := by
  simp [asksPosition]

/-- The method of arrays is the only one of them that is known by its signature. -/
theorem Known.asksPosition_of_identify? {m : Method} {k : Known} (hk : identify? m = some k) :
    m.asksPosition = true ↔ k = .arrayIndexOf := by
  obtain ⟨hsignature, -⟩ := signature_of_identify? hk
  rw [Method.asksPosition_eq_true, Method.owner, Method.name, hsignature]
  constructor
  · rintro ⟨howner, hname⟩
    cases k with
    | arrayIndexOf => rfl
    | sequence m | text m | row m | fuzzy m | trigram m | json m | labelTree m | network m
    | spatial m => cases m <;> rcases howner with h | h <;> cases h
    | like ignoreCase withEscape => cases ignoreCase <;> rcases howner with h | h <;> cases h
    | _ => rcases howner with h | h <;> cases h
  · rintro rfl
    exact ⟨.inl rfl, rfl⟩

namespace Scalar

variable {b : Builder} {c : ScalarCall}

namespace Arrays

/-- Redshift has no function for positions, so a list is not asked for one. -/
theorem onList_position {m : Method} (h : m.name = "IndexOf") (array : Sql) (args : List Sql) :
    onList b true m array args = .decline := by
  rcases args with _ | ⟨item, _ | ⟨x, args⟩⟩
  · simp [onList, h]
  · simp only [onList, h]
    split <;> rfl
  · simp [onList]

theorem onSequence_position {m : Method} (h : Known.identify? m = some .arrayIndexOf) (array : Sql)
    (args : List Sql) : onSequence b true m array args = .decline := by
  unfold onSequence
  rw [h]
  simp only
  split
  · rfl
  · unfold onArray
    split <;> first | rfl | contradiction

/-- A Redshift server is asked for no position. -/
theorem declines_of_asksPosition (h : c.method.asksPosition = true) :
    ((translator b true).translate c).Declines := by
  simp only [translator]
  split
  next hk => cases (Known.asksPosition_of_identify? hk).mp h
  unfold onOperand
  split
  · rfl
  next array args _ =>
  split
  · rfl
  split
  · rfl
  split
  · rw [onList_position (Method.asksPosition_eq_true.mp h).2]
    rfl
  · cases hk : Known.identify? c.method with
    | none =>
      unfold onSequence
      rw [hk]
      rfl
    | some k =>
      cases (Known.asksPosition_of_identify? hk).mp h
      rw [onSequence_position hk]
      rfl

/-- Which server it is matters to the methods that ask for a position only. -/
theorem onList_congr {m : Method} (h : m.name ≠ "IndexOf") (v v' : Bool) (array : Sql)
    (args : List Sql) : onList b v m array args = onList b v' m array args := by
  unfold onList
  split <;> first | rfl | contradiction

theorem onSequence_congr {m : Method} (h : Known.identify? m ≠ some .arrayIndexOf) (v v' : Bool)
    (array : Sql) (args : List Sql) :
    onSequence b v m array args = onSequence b v' m array args := by
  unfold onSequence
  split
  · rfl
  · rfl
  · rfl
  next hk _ _ =>
    split
    · rfl
    · unfold onArray
      split <;> first | rfl | contradiction

/-- For all other calls it makes no difference whether the server is a Redshift server. -/
theorem translate_congr (h : c.method.asksPosition = false) (v v' : Bool) :
    (translator b v).translate c = (translator b v').translate c := by
  have hlist (howner : c.method.owner = .list) : c.method.name ≠ "IndexOf" := by
    intro hname
    have hasks := Method.asksPosition_eq_true.mpr ⟨.inr howner, hname⟩
    rw [h] at hasks
    cases hasks
  have hknown : Known.identify? c.method ≠ some .arrayIndexOf := by
    intro hk
    have hasks := (Known.asksPosition_of_identify? hk).mpr rfl
    rw [h] at hasks
    cases hasks
  simp only [translator, onOperand]
  split
  · rfl
  split
  · rfl
  split
  · rfl
  split
  · rfl
  split
  next howner => exact onList_congr (hlist howner) v v' _ _
  next => exact onSequence_congr hknown v v' _ _

end Arrays

/-- A method that asks for a position belongs to the translator for arrays. -/
theorem family?_of_asksPosition {f : Family} (h : c.method.asksPosition = true)
    (hf : c.family? = some f) : f = .arrays := by
  obtain ⟨howner, hname⟩ := Method.asksPosition_eq_true.mp h
  have htext : ¬ c.AsksText := fun ht =>
    absurd (hname.symm.trans ht.1) (show "IndexOf" ≠ "ToString" by decide)
  unfold ScalarCall.family? at hf
  split at hf
  next k hk =>
    cases (Known.asksPosition_of_identify? hk).mp h
    cases hf
    rfl
  next =>
    rw [if_neg htext] at hf
    rcases howner with ho | ho <;> rw [ho] at hf <;> cases hf
    rfl

/-- No other translator knows the method. -/
theorem fails_firstOf_of_asksPosition {o : Options} (ho : o.useRedshift = true)
    (h : c.method.asksPosition = true) : (ScalarTranslator.firstOf (builtIn b o) c).Fails := by
  rw [builtIn_eq_map]
  refine ScalarTranslator.fails_firstOf fun t ht => ?_
  obtain ⟨f, -, rfl⟩ := List.mem_map.mp ht
  cases f with
  | arrays =>
    simp only [Family.translator, ho]
    exact (Arrays.declines_of_asksPosition h).fails
  | _ =>
    intro s hs
    cases family?_of_asksPosition h (Family.keepsTo o _ c s hs)

/-- The built-in translators agree on a call if the version is on the same side of 13 and no
position is asked for. -/
theorem firstOf_congr {o o' : Options}
    (hversion : o'.isVersionAtLeast 13 0 = o.isVersionAtLeast 13 0)
    (h : c.method.asksPosition = false) :
    ScalarTranslator.firstOf (builtIn b o) c = ScalarTranslator.firstOf (builtIn b o') c := by
  simp only [builtIn, ScalarTranslator.firstOf, hversion,
    Arrays.translate_congr h o.useRedshift o'.useRedshift]
  rfl

end Scalar

/-! ## The strategies -/

namespace Relational

variable {b : Builder} {columns : ColumnLookup} {o o' : Options}

/-- The relational strategy with the built-in translators. -/
def builtIn (b : Builder) (o : Options) (columns : ColumnLookup) : Relational :=
  ⟨b, Scalar.builtIn b o, columns⟩

/-- Where a Redshift server makes a difference nothing is found for it. -/
theorem below_of_redshift (ho : o.useRedshift = true)
    (hversion : o'.isVersionAtLeast 13 0 = o.isVersionAtLeast 13 0) :
    (builtIn b o columns).Below (builtIn b o' columns) := by
  refine ⟨rfl, rfl, fun c => ?_⟩
  cases h : c.method.asksPosition with
  | true => exact (Scalar.fails_firstOf_of_asksPosition ho h).below _
  | false =>
    simp only [builtIn, Scalar.firstOf_congr hversion h]
    exact Attempt.Below.refl _

theorem strategy_eq_of_no_position
    (hversion : o'.isVersionAtLeast 13 0 = o.isVersionAtLeast 13 0) {e : Expr}
    (h : e.asksPosition = false) (recur : Expr → Attempt Sql) :
    (builtIn b o columns).strategy recur e = (builtIn b o' columns).strategy recur e := by
  cases e with
  | call method receiver args =>
    have hscalars (x : Option Sql) (xs : List Sql) :
        ScalarTranslator.firstOf (Scalar.builtIn b o) ⟨x, method, xs⟩ =
          ScalarTranslator.firstOf (Scalar.builtIn b o') ⟨x, method, xs⟩ :=
      Scalar.firstOf_congr hversion h
    simp only [strategy, call, callOn, builtIn, hscalars]
  | _ => rfl

end Relational

/-- By induction on the number of nodes: no tree that is asked for has a call in question. -/
theorem Postgres.run_eq_of_no_position (p : Postgres) {b : Builder} {columns : ColumnLookup}
    {o o' : Options} (hversion : o'.isVersionAtLeast 13 0 = o.isVersionAtLeast 13 0) {e : Expr}
    (h : ∀ n, Expr.Within n e → n.asksPosition = false) :
    p.run (Relational.builtIn b o columns) e = p.run (Relational.builtIn b o' columns) e := by
  induction hn : e.nodes using Nat.strongRecOn generalizing e with
  | ind n ih =>
    subst hn
    have hasked (d : Expr) (hd : e.Asks d) : p.run (Relational.builtIn b o columns) d =
        p.run (Relational.builtIn b o' columns) d := by
      refine ih d.nodes hd.nodes_lt (hd.forall_within ?_ ?_ ?_ h) rfl <;> intros <;> rfl
    rw [run_eq, run_eq]
    refine p.strategy_congr ?_ hasked
    rw [Relational.strategy_congr fun c hc => hasked c (.child hc)]
    exact Relational.strategy_eq_of_no_position hversion (h e .root) _

end QuerySql
