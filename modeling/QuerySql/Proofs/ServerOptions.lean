import QuerySql.Proofs.Positions
import QuerySql.Proofs.Retouch.Translation

/-!
# What the options of a provider change

Without added translators, two translators over the same columns and the same catalog differ as
little as their options say.

* `Translator.translate_under_options`: for a Redshift server less is found, and what is found is
  found in the same way and without the function that gives positions; the version decides about
  the name of one function.
-/

namespace QuerySql

/-! ## Two renamings -/

namespace Renaming

/-- The two functions that make new identifiers change places. -/
def identifiers : Renaming where
  name n :=
    if n = "gen_random_uuid" then "uuid_generate_v4"
    else if n = "uuid_generate_v4" then "gen_random_uuid"
    else n
  name_eq n hn := by
    simp only [Function.serverBound, List.mem_cons, List.not_mem_nil, or_false, not_or] at hn
    rw [if_neg hn.2.1, if_neg hn.2.2]

theorem identifiers_newGuid (v : Bool) :
    identifiers.name (Scalar.Numbers.newGuidFunction v) = Scalar.Numbers.newGuidFunction !v := by
  cases v <;> rfl

/-- The function that gives positions has a name that no function has. -/
def positions : Renaming where
  name n := if n = "array_position" then "" else n
  name_eq n hn := by
    simp only [Function.serverBound, List.mem_cons, not_or] at hn
    rw [if_neg hn.1]

theorem positions_newGuid (v : Bool) :
    positions.name (Scalar.Numbers.newGuidFunction v) = Scalar.Numbers.newGuidFunction v := by
  cases v <;> rfl

end Renaming

/-- A tree that stays as it is without that function does not call it. -/
theorem Sql.asks_no_position {s n : Sql} (h : s.rename .positions = s) (hn : Within n s) :
    Translator.isCallOf "array_position" n = false := by
  have hsame := rename_eq_of_within hn h
  cases n with
  | call fn args ty m =>
    simp only [rename, Function.rename, Sql.call.injEq] at hsame
    refine beq_eq_false_iff_ne.mpr fun hname => ?_
    have hfn : Renaming.positions.name fn.name = fn.name := congrArg Function.name hsame.1
    rw [hname] at hfn
    exact absurd hfn (by decide)
  | _ => rfl

/-- Under the same server, two versions lead to strategies that differ in names of functions only.
-/
theorem Relational.renamesTo_builtIn {ρ : Renaming} {b : Builder} {columns : ColumnLookup}
    {o o' : Options} (hredshift : o'.useRedshift = o.useRedshift)
    (hposition : o.useRedshift = true ∨ ρ.name "array_position" = "array_position")
    (hguid : ρ.name (Scalar.Numbers.newGuidFunction (o.isVersionAtLeast 13 0)) =
      Scalar.Numbers.newGuidFunction (o'.isVersionAtLeast 13 0)) :
    (builtIn b o columns).RetouchesTo (.ofRenaming ρ) (builtIn b o' columns) :=
  retouchesTo_builtIn hredshift hposition hguid

theorem Relational.builtIn_congr {b : Builder} {columns : ColumnLookup} {o o' : Options}
    (hredshift : o'.useRedshift = o.useRedshift)
    (hversion : o'.isVersionAtLeast 13 0 = o.isVersionAtLeast 13 0) :
    builtIn b o' columns = builtIn b o columns := by
  simp only [builtIn, Scalar.builtIn, hredshift, hversion]

/-- For a Redshift server no position is asked for, whatever the function for it is called. -/
theorem Postgres.rename_positions (p : Postgres) {b : Builder} {columns : ColumnLookup}
    {o : Options} (h : o.useRedshift = true) (e : Expr) :
    Sql.rename .positions <$> p.run (Relational.builtIn b o columns) e =
      p.run (Relational.builtIn b o columns) e :=
  p.rename_run (Relational.renamesTo_builtIn rfl (.inl h) (Renaming.positions_newGuid _)) e

/-! ## Versions -/

/-- The version is 13.0 or a later one. Without a version the server counts as the latest. -/
def Version.From13 (v : Option Version) : Prop := ∀ w ∈ v, 13 ≤ w.major

/-- Whether the server counts as 13 or later depends on the version that the options name. -/
theorem Options.isVersionAtLeast_iff {o : Options} {v : Option Version} (hv : o.version = .ok v) :
    o.isVersionAtLeast 13 0 = true ↔ Version.From13 v := by
  unfold isVersionAtLeast Version.From13
  rw [hv]
  cases v with
  | none => simp
  | some w =>
    simp only [Version.isAtLeast, decide_eq_true_eq, Option.mem_some_iff, forall_eq']
    omega

theorem Options.isVersionAtLeast_eq_iff {o o' : Options} {v v' : Option Version}
    (hv : o.version = .ok v) (hv' : o'.version = .ok v') :
    o'.isVersionAtLeast 13 0 = o.isVersionAtLeast 13 0 ↔
      (Version.From13 v ↔ Version.From13 v') := by
  rw [← isVersionAtLeast_iff hv, ← isVersionAtLeast_iff hv', Bool.eq_iff_iff]
  exact Iff.comm

/-! ## Translators -/

namespace Translator

variable {columns : ColumnLookup} {catalog : Catalog} {o o' : Options} {v v' : Option Version}
  {t : Translator}

/-- Without added translators, any two readable versions and any two servers.

* For a Redshift server, and another one of the same version: what is found for the first is found
  for the second, and has no call of the function that gives positions. For expressions without
  calls that ask for a position the two find the same and leave the same reports.
* For two servers of which both are Redshift servers or none is: they find the same if both versions
  are 13.0 or later, or both are earlier, and else the same but for the names of the two functions
  that make new identifiers. -/
theorem translate_under_options (hv : o.version = .ok v) (hv' : o'.version = .ok v')
    (ht : (postgres columns o catalog []).outcome = .ok t) :
    ∃ t', (postgres columns o' catalog []).outcome = .ok t' ∧
      ((Version.From13 v ↔ Version.From13 v') → o.useRedshift = true → ∀ e,
        (∀ s, (t.translate e).outcome = .ok s → (t'.translate e).outcome = .ok s ∧
          ∀ n, Sql.Within n s → isCallOf "array_position" n = false) ∧
        ((∀ n, Expr.Within n e → n.asksPosition = false) → t'.translate e = t.translate e)) ∧
      (o.useRedshift = o'.useRedshift → ∀ e,
        ((Version.From13 v ↔ Version.From13 v') → t'.translate e = t.translate e) ∧
        (¬ (Version.From13 v ↔ Version.From13 v') →
          t'.translate e = Sql.rename .identifiers <$> t.translate e)) := by
  obtain ⟨-, b, p, -, hb, hp, rfl⟩ := outcome_postgres_eq_ok.mp ht
  refine ⟨_, outcome_postgres_eq_ok.mpr ⟨v', b, p, hv', hb, hp, rfl⟩, ?_⟩
  have hversion := Options.isVersionAtLeast_eq_iff hv hv'
  simp only [translate, List.append_nil]
  refine ⟨fun hsides hredshift e => ⟨fun s hs => ⟨?_, fun n hn => ?_⟩, fun h => ?_⟩,
    fun hredshift e => ⟨fun hsides => ?_, fun hsides => ?_⟩⟩
  · have hbelow : (Relational.builtIn b o columns).Below (Relational.builtIn b o' columns) :=
      Relational.below_of_redshift hredshift (hversion.mpr hsides)
    exact Strategy.Below.run (Postgres.below_strategy p hbelow) e s hs
  · have hrun : (p.run (Relational.builtIn b o columns) e).outcome = .ok s := hs
    -- Renaming the function for positions leaves the translation as it is, so it is not called.
    have hrename : (Sql.rename .positions <$> p.run (Relational.builtIn b o columns) e).outcome =
        .ok s := by
      rw [p.rename_positions hredshift, hrun]
    rw [Attempt.map_eq, hrun] at hrename
    exact Sql.asks_no_position (Except.ok.inj hrename) hn
  · exact (p.run_eq_of_no_position (hversion.mpr hsides) h).symm
  · show p.run (Relational.builtIn b o' columns) e = p.run (Relational.builtIn b o columns) e
    rw [Relational.builtIn_congr hredshift.symm (hversion.mpr hsides)]
  · -- The versions are on two sides, so the functions for identifiers are exchanged.
    have hother : o'.isVersionAtLeast 13 0 = !o.isVersionAtLeast 13 0 :=
      Bool.eq_not_of_ne fun h => hsides (hversion.mp h)
    have hguid := Renaming.identifiers_newGuid (o.isVersionAtLeast 13 0)
    rw [← hother] at hguid
    exact (p.rename_run (Relational.renamesTo_builtIn hredshift.symm (.inr rfl) hguid) e).symm

/-- A new identifier, for a Redshift server, for another server, and for one of version 12.9. -/
theorem new_identifier_everywhere :
    let columns : ColumnLookup := fun _ _ => none
    let e : Expr := .call (Known.close .newGuid []) none []
    let o : Options := { useRedshift := true }
    ∃ t t' t'' s, (postgres columns o Catalog.standard []).outcome = .ok t ∧
      (t.translate e).outcome = .ok s ∧ isCallOf "gen_random_uuid" s = true ∧
      (postgres columns {} Catalog.standard []).outcome = .ok t' ∧
      (t'.translate e).outcome = .ok s ∧
      (postgres columns { o with postgresVersion := some "12.9" } Catalog.standard []).outcome =
        .ok t'' ∧
      (t''.translate e).outcome = .ok (s.rename .identifiers) ∧
      isCallOf "uuid_generate_v4" (s.rename .identifiers) = true := by
  intro columns e o
  obtain ⟨t, s, ht, hs, hcall⟩ := exists_translation (postgres columns o Catalog.standard []) e
    (fun s => isCallOf "gen_random_uuid" s && isCallOf "uuid_generate_v4" (s.rename .identifiers))
    (by decide +kernel)
  obtain ⟨hcall, hcall'⟩ := Bool.and_eq_true_iff.mp hcall
  have hv : o.version = .ok none := rfl
  have hplain : Options.version {} = .ok none := rfl
  have hparse : Version.parse? "12.9".toList = some ⟨12, 9⟩ := by decide +kernel
  have hold : Options.version { o with postgresVersion := some "12.9" } = .ok (some ⟨12, 9⟩) := by
    simp only [Options.version, Version.ofString, hparse]
    rfl
  have hsides : ¬ (Version.From13 none ↔ Version.From13 (some ⟨12, 9⟩)) := fun h =>
    absurd (h.mp nofun ⟨12, 9⟩ rfl) (show ¬ 13 ≤ 12 by decide)
  obtain ⟨t', ht', hredshift, -⟩ := translate_under_options hv hplain ht
  obtain ⟨t'', ht'', -, hversion⟩ := translate_under_options hv hold ht
  have hs' := ((hredshift Iff.rfl rfl e).1 s hs).1
  have hs'' := congrArg Run.outcome ((hversion rfl e).2 hsides)
  rw [Attempt.map_eq, hs] at hs''
  exact ⟨t, t', t'', s, ht, hs, hcall, ht', hs', ht'', hs'', hcall'⟩

end Translator

end QuerySql
