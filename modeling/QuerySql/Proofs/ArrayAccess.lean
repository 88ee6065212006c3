import QuerySql.Proofs.ArrayCalls
import QuerySql.Proofs.DocumentPaths
import QuerySql.Proofs.Extension

/-!
# Operators and methods of arrays

Lengths and subscripts of arrays are written with operators and with methods. The strategy takes the
operators and looks at byte strings, documents and native arrays in this order; a scalar translator
takes the methods, and tests what it is given in a way of its own. Whatever a method is translated
to, the operator is translated to as well.

* `Json.elementAt_eq`: a subscript that the method makes is the one that the operator makes.
* `Translator.array_spellings_agree`: both spellings of the methods, and the operators.
-/

namespace QuerySql

/-- A subscript that the method makes: the path into a document is found first by the operator, and
what is no document has no path into it. -/
theorem Scalar.Arrays.eq_of_elementAt {b : Builder} {array index s : Sql} {ty : Ty}
    (h : (elementAt b array index ty).outcome = .ok s) :
    (Json.member? b array index ty).getD (b.subscript array (b.oneBased index) true) = s := by
  unfold elementAt at h
  split at h
  next =>
    cases hmember : Json.member? b array index ty with
    | none =>
      rw [hmember] at h
      cases h
    | some y =>
      rw [hmember] at h
      cases h
      rfl
  next hjson =>
    rw [Json.member?_eq_none b (base?_of_isJson (Bool.eq_false_iff.mpr hjson))]
    cases h
    rfl

namespace Postgres

variable {p : Postgres} {r : Relational} {options : Options} {added : List ScalarTranslator}
  {σ : ArraySpelling} {m : Method} {a : Expr} {x : Sql} {mapping : Mapping}
  (hbuilder : r.builder = p.builder)
  (hscalars : r.scalars = Scalar.builtIn r.builder options ++ added)
  (hadded : ∀ t ∈ added, ∀ c : ScalarCall, ∀ σ : ArraySpelling, ∀ q, σ.Names q c.method →
    (t.translate c).Fails)
  (hx : (p.run r a).outcome = .ok x) (hmapping : x.mapping = some mapping)

theorem run_arrayLength (e : Expr) (ty : Ty) :
    p.run r (.unary .arrayLength e ty) = p.arrayLength (p.run r) e := by
  rw [run_eq]
  rfl

include hbuilder hscalars hadded hx hmapping

/-- What the method counts is no byte string, and then the operator counts as it does. -/
theorem below_count (h : σ.Names .count m) (ty : Ty) :
    (p.run r (σ.expr m a [])).Below (p.run r (.unary .arrayLength a ty)) := by
  intro s hs
  rw [ArraySpelling.outcome_run h, Attempt.outcome_bind_ok hx, hscalars] at hs
  have hfails := fun t ht =>
    hadded t ht (σ.call m x []) σ .count (by rwa [ArraySpelling.method_call])
  obtain ⟨-, hbytes, hbuild⟩ := ArraySpelling.build_of_found h hfails hs
  have hnot : isBytes a.ty x = false := by
    rw [Sql.mappedBy, hmapping] at hbytes
    exact isBytes_of_mapping hmapping hbytes
  rw [hbuilder] at hbuild
  rw [run_arrayLength, arrayLength, Attempt.outcome_bind_ok hx, hnot]
  exact hbuild

/-- A subscript of a document is one that leads into a column, or there is none. -/
theorem below_elementAt (h : σ.Names .elementAt m) {i : Expr} (ha : a.isConversion = false)
    (hi : i.isConversion = false) :
    (p.run r (σ.expr m a [i])).Below (p.run r (.binary .arrayIndex a i m.returnTy)) := by
  intro s hs
  rw [ArraySpelling.outcome_run h, Attempt.outcome_bind_ok hx, hscalars] at hs
  obtain ⟨_, hindices, hs⟩ := Run.outcome_bind_eq_ok.mp hs
  obtain ⟨index, hindex, hindices⟩ := Run.outcome_bind_eq_ok.mp hindices
  cases hindices
  have hfails := fun t ht =>
    hadded t ht (σ.call m x [index]) σ .elementAt (by rwa [ArraySpelling.method_call])
  obtain ⟨-, hbytes, hbuild⟩ := ArraySpelling.build_of_found h hfails hs
  have hnot : isBytes a.ty x = false := by
    rw [Sql.mappedBy, hmapping] at hbytes
    exact isBytes_of_mapping hmapping hbytes
  rw [hbuilder] at hbuild
  rw [run_arrayIndex, arrayIndex, Expr.stripImplicit_eq ha, Expr.stripImplicit_eq hi,
    Attempt.outcome_bind_ok (Attempt.outcome_both_ok hx hindex)]
  simp only [hnot, Bool.false_eq_true, if_false]
  rw [← Scalar.Arrays.eq_of_elementAt hbuild]
  cases Json.member? p.builder x index m.returnTy with
  | none => rfl
  | some y => rfl

end Postgres

namespace Translator

/-- Whatever a count or a subscript in either method spelling is translated to, over an array whose
translation has a mapping, the operator is translated to as well: native arrays, byte strings and
documents alike. So where both spellings are translated, they are translated to the same tree. -/
theorem array_spellings_agree {columns : ColumnLookup} {options : Options} {catalog : Catalog}
    {added : List ScalarTranslator} {t : Translator}
    (ht : (postgres columns options catalog added).outcome = .ok t)
    (hadded : ∀ d ∈ added, ∀ c : ScalarCall, ∀ σ : ArraySpelling, ∀ q, σ.Names q c.method →
      (d.translate c).Fails)
    {a : Expr} {x : Sql} (hx : (t.translate a).outcome = .ok x)
    (hmapping : x.mapping.isSome = true) :
    (∀ (σ : ArraySpelling) (m : Method), σ.Names .count m →
      ∀ s, (t.translate (σ.expr m a [])).outcome = .ok s →
        ∀ ty, (t.translate (.unary .arrayLength a ty)).outcome = .ok s) ∧
    ∀ (σ : ArraySpelling) (m : Method), σ.Names .elementAt m →
      ∀ i : Expr, a.isConversion = false → i.isConversion = false →
        ∀ s, (t.translate (σ.expr m a [i])).outcome = .ok s →
          (t.translate (.binary .arrayIndex a i m.returnTy)).outcome = .ok s := by
  obtain ⟨b, p, -, hp, rfl⟩ := of_postgres ht
  have hbuilder : b = p.builder := (Postgres.builder_of_ofBuilder hp).symm
  obtain ⟨mapping, hmapping⟩ := Option.isSome_iff_exists.mp hmapping
  let r : Relational := ⟨b, Scalar.builtIn b options ++ added, columns⟩
  constructor
  · intro σ m h s hs ty
    exact Postgres.below_count (r := r) hbuilder rfl hadded hx hmapping h ty s hs
  · intro σ m h i ha hi s hs
    exact Postgres.below_elementAt (r := r) hbuilder rfl hadded hx hmapping h ha hi s hs

/-- Native numbers and numbers in a document, counted by lists and found by sequences. -/
theorem numbers_in_both_spellings :
    let columns : ColumnLookup := fun _ name =>
      some { name := name, ty := .array .int,
             store := if name = "document" then some "jsonb" else none }
    let numbers (name : String) : Expr := .property none name (.array .int)
    let i : Expr := .ofValue (.int 2)
    let count : Method := ⟨⟨.list, "get_Count", [], 0⟩, [], .int, false⟩
    let elementAt := Known.close (.sequence .elementAt) [.int]
    ∃ t, (postgres columns {} Catalog.standard []).outcome = .ok t ∧
      ∀ name ∈ ["native", "document"],
        (∃ s, (t.translate (.call count (some (numbers name)) [])).outcome = .ok s ∧
          (t.translate (.unary .arrayLength (numbers name) .int)).outcome = .ok s) ∧
        ∃ s, (t.translate (.call elementAt none [numbers name, i])).outcome = .ok s ∧
          (t.translate (.binary .arrayIndex (numbers name) i .int)).outcome = .ok s := by
  intro columns numbers i count elementAt
  have hcount : ArraySpelling.ofLists.Names .count count := ⟨rfl, rfl⟩
  have helementAt : ArraySpelling.ofSequences.Names .elementAt elementAt := rfl
  obtain ⟨t, ht, hfound⟩ := exists_translations (postgres columns {} Catalog.standard [])
    (["native", "document"].flatMap fun name =>
      [(numbers name, fun s => s.mapping.isSome),
        (.call count (some (numbers name)) [], fun _ => true),
        (.call elementAt none [numbers name, i], fun _ => true)])
    (by decide +kernel)
  refine ⟨t, ht, fun name hname => ?_⟩
  have hfound := fun e test h => hfound e test (List.mem_flatMap_of_mem hname h)
  obtain ⟨x, hx, hmapping⟩ := hfound _ _ (.head _)
  obtain ⟨s, hs, -⟩ := hfound _ _ (.tail _ (.head _))
  obtain ⟨s', hs', -⟩ := hfound _ _ (.tail _ (.tail _ (.head _)))
  obtain ⟨hlength, hindex⟩ := array_spellings_agree ht nofun hx hmapping
  exact ⟨⟨s, hs, hlength _ count hcount s hs .int⟩, s', hs',
    hindex _ elementAt helementAt i rfl rfl s' hs'⟩

end Translator

end QuerySql
