import QuerySql.Sql

/-!
# Nodes of SQL trees

The nodes of a tree, and what can be said of each of them.

* `Sql.children` lists the trees right below the root; `n.Within s` says that `n` is a node of `s`.
* `Sql.Each L s`: every node of `s` satisfies `L`. It is `L` of the root and `Each L` of the
  children (`Each.root`, `Each.child`, `Each.intro`).
* `Sql.Each.fillWith`: filling in mappings keeps what holds of each node and survives being filled.
-/

namespace QuerySql

/-- Whether values are stored as byte strings or as JSON documents, and so not as native arrays. -/
def Mapping.isForeign (m : Mapping) : Bool := m.isBytes || m.isJson

namespace Sql

/-- The trees right below the root. -/
def children : Sql → List Sql
  | const _ _ _ | param _ _ _ _ | column _ _ _ _ => []
  | call _ args _ _ => args
  | aggregate _ args filter order _ _ => args ++ filter.toList ++ order.map OrderKey.expr
  | binary _ left right _ _ => [left, right]
  | unary _ operand _ _ => [operand]
  | cast operand _ _ => [operand]
  | like _ subject pattern escape _ => subject :: pattern :: escape.toList
  | quantified _ _ item array _ => [item, array]
  | subscript array index _ _ _ => [array, index]
  | newArray items _ _ => items
  | row items _ => items
  | regexMatch _ subject pattern _ => [subject, pattern]
  | traversal document path _ _ _ => document :: path
  | postgres _ left right _ _ => [left, right]

/-- Whether the values of the tree are stored otherwise than as native arrays. -/
def isForeign (s : Sql) : Bool := s.mappedBy Mapping.isForeign

/-- The first tree is a node of the second one. -/
inductive Within (n : Sql) : Sql → Prop
  | root : Within n n
  | child {c s : Sql} : c ∈ s.children → Within n c → Within n s

/-- Every node of the tree satisfies `L`. -/
def Each (L : Sql → Prop) (s : Sql) : Prop := ∀ n, Within n s → L n

theorem Within.trans {m n s : Sql} (h : Within m n) (h' : Within n s) : Within m s := by
  induction h' with
  | root => exact h
  | child hc _ ih => exact .child hc ih

/-- The nodes of a tree whose children have no children themselves. -/
theorem Within.of_leaves {n s : Sql} (hn : Within n s) (h : ∀ c ∈ s.children, c.children = []) :
    n = s ∨ n ∈ s.children := by
  cases hn with
  | root => exact .inl rfl
  | child hc hn =>
    cases hn with
    | root => exact .inr hc
    | child hd _ =>
      rw [h _ hc] at hd
      cases hd

theorem Each.root {L : Sql → Prop} {s : Sql} (h : Each L s) : L s := h s .root

theorem Each.child {L : Sql → Prop} {s c : Sql} (h : Each L s) (hc : c ∈ s.children) : Each L c :=
  fun n hn => h n (.child hc hn)

theorem Each.within {L : Sql → Prop} {s n : Sql} (h : Each L s) (hn : Within n s) : Each L n :=
  fun m hm => h m (hm.trans hn)

theorem Each.intro {L : Sql → Prop} {s : Sql} (hs : L s) (hc : ∀ c ∈ s.children, Each L c) :
    Each L s := by
  intro n hn
  cases hn with
  | root => exact hs
  | child h hn => exact hc _ h n hn

/-! ## Induction on the children -/

/-- By cases on the node. Lists and options of children are smaller than the node that holds them.
-/
theorem sizeOf_lt_of_mem_children {c s : Sql} (h : c ∈ s.children) : sizeOf c < sizeOf s := by
  cases s <;> simp only [children, List.mem_cons, List.mem_append, List.mem_map,
    Option.mem_toList, List.not_mem_nil, or_false] at h
  case call | newArray | row =>
    have := List.sizeOf_lt_of_mem h
    simp only [call.sizeOf_spec, newArray.sizeOf_spec, row.sizeOf_spec]
    omega
  case unary | cast =>
    subst h
    simp only [unary.sizeOf_spec, cast.sizeOf_spec]
    omega
  case binary | quantified | subscript | regexMatch | postgres =>
    rcases h with rfl | rfl <;>
      simp only [binary.sizeOf_spec, quantified.sizeOf_spec, subscript.sizeOf_spec,
        regexMatch.sizeOf_spec, postgres.sizeOf_spec] <;>
      omega
  case traversal =>
    rcases h with rfl | h
    · simp only [traversal.sizeOf_spec]
      omega
    · have := List.sizeOf_lt_of_mem h
      simp only [traversal.sizeOf_spec]
      omega
  case like =>
    rcases h with rfl | rfl | h
    · simp only [like.sizeOf_spec]
      omega
    · simp only [like.sizeOf_spec]
      omega
    · subst h
      simp only [like.sizeOf_spec, Option.some.sizeOf_spec]
      omega
  case aggregate =>
    rcases h with (h | h) | ⟨k, hk, rfl⟩
    · have := List.sizeOf_lt_of_mem h
      simp only [aggregate.sizeOf_spec]
      omega
    · subst h
      simp only [aggregate.sizeOf_spec, Option.some.sizeOf_spec]
      omega
    · have := List.sizeOf_lt_of_mem hk
      have : sizeOf k.expr < sizeOf k := by
        cases k
        simp only [OrderKey.mk.sizeOf_spec]
        omega
      simp only [aggregate.sizeOf_spec]
      omega

/-- What holds of a tree whenever it holds of its children holds of all trees. -/
theorem children_induction {motive : Sql → Prop}
    (h : ∀ s, (∀ c ∈ s.children, motive c) → motive s) (s : Sql) : motive s :=
  h s fun c _ => children_induction h c
termination_by sizeOf s
decreasing_by exact sizeOf_lt_of_mem_children ‹_›

/-! ## Filling in mappings -/

/-- A child of a filled tree is a child of the tree, filled or as it was. -/
theorem mem_children_fillWith {m : Mapping} {s c : Sql} (h : c ∈ (fillWith m s).children) :
    c ∈ s.children ∨ ∃ d ∈ s.children, ∃ k, c = fillWith k d := by
  revert h
  fun_cases fillWith m s
  case case7 items ty e he =>
    intro h
    simp only [children, fillAllWith_eq_map, List.mem_map] at h
    obtain ⟨d, hd, rfl⟩ := h
    exact .inr ⟨d, hd, e, rfl⟩
  case case10 op left right ty hp =>
    intro h
    simp only [children, List.mem_cons, List.not_mem_nil, or_false] at h
    rcases h with rfl | rfl
    · exact .inr ⟨left, List.mem_cons_self, m, rfl⟩
    · exact .inr ⟨right, List.mem_cons_of_mem _ List.mem_cons_self, m, rfl⟩
  all_goals exact .inl

/-- What holds of each node, and of a node still when it is filled, holds of each node of the filled
tree. -/
theorem Each.fillWith {L : Sql → Prop} (hL : ∀ m s, L s → L (Sql.fillWith m s)) {s : Sql}
    (h : Each L s) (m : Mapping) : Each L (Sql.fillWith m s) := by
  induction s using children_induction generalizing m with
  | h s ih =>
    refine .intro (hL m s h.root) fun c hc => ?_
    rcases mem_children_fillWith hc with hc | ⟨d, hd, k, rfl⟩
    · exact h.child hc
    · exact ih d hd (h.child hd) k

/-- A property of all nodes is kept by filling in if it is kept for each of them. -/
theorem Each.fill {L : Sql → Prop} (hL : ∀ m s, L s → L (Sql.fillWith m s)) {s : Sql}
    (h : Each L s) (m : Option Mapping) : Each L (Sql.fill m s) := by
  cases m with
  | none => exact h
  | some m => exact h.fillWith hL m

/-- Mappings have no part in whether a value can be null. -/
theorem isNullable_fillWith (m : Mapping) (s : Sql) :
    (Sql.fillWith m s).isNullable = s.isNullable := by
  induction s using children_induction generalizing m with
  | h s ih =>
    fun_cases Sql.fillWith m s
    case case10 op left right ty hp =>
      simp only [isNullable, ih left List.mem_cons_self,
        ih right (List.mem_cons_of_mem _ List.mem_cons_self)]
    all_goals rfl

theorem isNullable_fill (m : Option Mapping) (s : Sql) :
    (Sql.fill m s).isNullable = s.isNullable := by
  cases m with
  | none => rfl
  | some m => exact isNullable_fillWith m s

end Sql

end QuerySql
