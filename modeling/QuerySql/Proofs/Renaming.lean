import QuerySql.Proofs.Sql.Nodes

/-!
# Functions under other names

Not every server has the functions of `Function.serverBound`. A `Renaming` gives them other names,
and `Sql.rename` puts these names into a tree.

* `Sql.rename_eq_of_within`: where a tree stays as it is, its nodes do.
-/

namespace QuerySql

/-- The functions that not every server has. -/
def Function.serverBound : List String := ["array_position", "gen_random_uuid", "uuid_generate_v4"]

/-- Other names for the functions that not every server has. -/
structure Renaming where
  name : String → String
  /-- All the others keep theirs. -/
  name_eq : ∀ n, n ∉ Function.serverBound → name n = n

/-- The function under its other name. -/
def Function.rename (ρ : Renaming) (fn : Function) : Function := { fn with name := ρ.name fn.name }

/-- A function whose name is kept stays as it is. -/
theorem Function.rename_eq {ρ : Renaming} {fn : Function} (h : ρ.name fn.name = fn.name) :
    fn.rename ρ = fn := by
  rw [rename, h]

namespace Sql

mutual
/-- The tree with the functions that it calls under their other names. Aggregates keep theirs. -/
@[simp] def rename (ρ : Renaming) : Sql → Sql
  | const v t m => const v t m
  | param s n t m => param s n t m
  | column r n t m => column r n t m
  | call fn args t m => call (fn.rename ρ) (renameAll ρ args) t m
  | aggregate fn args filter order t m =>
    aggregate fn (renameAll ρ args) (renameOption ρ filter) (renameKeys ρ order) t m
  | binary op l r t m => binary op (rename ρ l) (rename ρ r) t m
  | unary op x t m => unary op (rename ρ x) t m
  | cast x t m => cast (rename ρ x) t m
  | like i s p e m => like i (rename ρ s) (rename ρ p) (renameOption ρ e) m
  | quantified q op i a m => quantified q op (rename ρ i) (rename ρ a) m
  | subscript a i n t m => subscript (rename ρ a) (rename ρ i) n t m
  | newArray xs t m => newArray (renameAll ρ xs) t m
  | row xs t => row (renameAll ρ xs) t
  | regexMatch o s p m => regexMatch o (rename ρ s) (rename ρ p) m
  | traversal d path asText t m => traversal (rename ρ d) (renameAll ρ path) asText t m
  | postgres op l r t m => postgres op (rename ρ l) (rename ρ r) t m

/-- Each tree of a list under its other names. -/
@[simp] def renameAll (ρ : Renaming) : List Sql → List Sql
  | [] => []
  | s :: ss => rename ρ s :: renameAll ρ ss

/-- A tree that may be absent, under its other names. -/
@[simp] def renameOption (ρ : Renaming) : Option Sql → Option Sql
  | none => none
  | some s => some (rename ρ s)

/-- The keys of an order under their other names. -/
@[simp] def renameKeys (ρ : Renaming) : List (OrderKey Sql) → List (OrderKey Sql)
  | [] => []
  | ⟨s, ascending⟩ :: ks => ⟨rename ρ s, ascending⟩ :: renameKeys ρ ks
end

variable {ρ : Renaming}

@[simp] theorem renameAll_eq_map (ss : List Sql) : renameAll ρ ss = ss.map (rename ρ) := by
  induction ss with
  | nil => rfl
  | cons s ss ih => rw [renameAll, ih, List.map_cons]

@[simp] theorem renameOption_eq_map (s : Option Sql) : renameOption ρ s = s.map (rename ρ) := by
  cases s <;> rfl

theorem renameKeys_eq_map (ks : List (OrderKey Sql)) :
    renameKeys ρ ks = ks.map fun k => { k with expr := k.expr.rename ρ } := by
  induction ks with
  | nil => rfl
  | cons k ks ih => rw [renameKeys, ih, List.map_cons]

/-- Renaming leaves the shape of a tree alone. -/
theorem children_rename (s : Sql) : (s.rename ρ).children = s.children.map (rename ρ) := by
  cases s with
  | aggregate fn args filter order t m =>
    cases filter <;> simp [children, renameKeys_eq_map, Function.comp_def]
  | like i subject pattern escape m => cases escape <;> simp [children]
  | _ => simp [children]

/-- Where a tree stays as it is, all of its nodes do. -/
theorem rename_eq_of_within {s n : Sql} (hn : Within n s) (h : s.rename ρ = s) :
    n.rename ρ = n := by
  induction hn with
  | root => exact h
  | @child c t hc _ ih =>
    have hmap : t.children.map (rename ρ) = t.children.map id := by
      rw [← children_rename, h, List.map_id]
    exact ih (List.map_inj_left.mp hmap c hc)

end Sql

end QuerySql
