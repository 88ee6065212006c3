import QuerySql.Proofs.Sql.Nodes

/-!
# Holes

A node without a mapping is a hole. Filling in a mapping goes down from the root through holes only,
and only as far as the operator or the array hands the mapping on. So a tree is filled in once: what
has a mapping stays as it is, with all that is below it, and a second mapping finds nothing to fill.

* `Sql.eraseMappings` makes every node a hole; nothing but mappings tells a filled tree from the
  tree before (`Sql.eraseMappings_fill`).
* `Sql.at?` finds the node at an address, and `Sql.at?_fill` says that mapped nodes stay there.
* `Sql.fill_fills_holes`: all of it together, with the rule that the first mapping wins.
-/

namespace QuerySql

namespace Sql

/-! ## Trees without mappings -/

mutual
/-- The tree with no mapping at any node. -/
def eraseMappings : Sql → Sql
  | const v t _ => const v t none
  | param s n t _ => param s n t none
  | column r n t _ => column r n t none
  | call fn args t _ => call fn (eraseAllMappings args) t none
  | aggregate fn args filter order t _ =>
    aggregate fn (eraseAllMappings args) (eraseOptionMappings filter) (eraseKeyMappings order) t
      none
  | binary op l r t _ => binary op (eraseMappings l) (eraseMappings r) t none
  | unary op x t _ => unary op (eraseMappings x) t none
  | cast x t _ => cast (eraseMappings x) t none
  | like i s p e _ => like i (eraseMappings s) (eraseMappings p) (eraseOptionMappings e) none
  | quantified q op i a _ => quantified q op (eraseMappings i) (eraseMappings a) none
  | subscript a i n t _ => subscript (eraseMappings a) (eraseMappings i) n t none
  | newArray xs t _ => newArray (eraseAllMappings xs) t none
  | row xs t => row (eraseAllMappings xs) t
  | regexMatch o s p _ => regexMatch o (eraseMappings s) (eraseMappings p) none
  | traversal d path asText t _ =>
    traversal (eraseMappings d) (eraseAllMappings path) asText t none
  | postgres op l r t _ => postgres op (eraseMappings l) (eraseMappings r) t none

/-- Each tree of a list, without mappings. -/
def eraseAllMappings : List Sql → List Sql
  | [] => []
  | s :: ss => eraseMappings s :: eraseAllMappings ss

/-- A tree that may be absent, without mappings. -/
def eraseOptionMappings : Option Sql → Option Sql
  | none => none
  | some s => some (eraseMappings s)

/-- The keys of an order, without mappings. -/
def eraseKeyMappings : List (OrderKey Sql) → List (OrderKey Sql)
  | [] => []
  | ⟨s, ascending⟩ :: ks => ⟨eraseMappings s, ascending⟩ :: eraseKeyMappings ks
end

theorem eraseAllMappings_eq_map (ss : List Sql) : eraseAllMappings ss = ss.map eraseMappings := by
  induction ss with
  | nil => rfl
  | cons s ss ih => rw [eraseAllMappings, ih, List.map_cons]

/-- By induction on the tree. What is filled in is a mapping, and mappings are forgotten. -/
theorem eraseMappings_fillWith (m : Mapping) (s : Sql) :
    (s.fillWith m).eraseMappings = s.eraseMappings := by
  induction s using children_induction generalizing m with
  | h s ih =>
    fun_cases fillWith m s
    case case7 items ty e he =>
      simp only [eraseMappings, fillAllWith_eq_map, eraseAllMappings_eq_map, List.map_map]
      congr 1
      exact List.map_congr_left fun c hc => ih c hc e
    case case10 op left right ty hp =>
      have hleft := ih left List.mem_cons_self m
      have hright := ih right (List.mem_cons_of_mem _ List.mem_cons_self) m
      simp only [eraseMappings, hleft, hright]
    all_goals rfl

theorem eraseMappings_fill (m : Option Mapping) (s : Sql) :
    (s.fill m).eraseMappings = s.eraseMappings := by
  cases m with
  | none => rfl
  | some m => exact eraseMappings_fillWith m s

/-! ## Addresses -/

/-- The node at an address: at each step, which of the children the address goes on in. -/
def at? : List Nat → Sql → Option Sql
  | [], s => some s
  | i :: address, s => s.children[i]?.bind (at? address)

/-- A mapping is handed on to all children of a node or to none of them. -/
theorem children_fillWith (m : Mapping) (s : Sql) :
    (s.fillWith m).children = s.children ∨
      ∃ k, (s.fillWith m).children = s.children.map (fillWith k) := by
  fun_cases fillWith m s
  case case7 items ty e he => exact .inr ⟨e, fillAllWith_eq_map e items⟩
  case case10 op left right ty hp => exact .inr ⟨m, rfl⟩
  all_goals exact .inl rfl

theorem fillWith_of_isSome {m : Mapping} {s : Sql} (h : s.mapping.isSome = true) :
    s.fillWith m = s := by
  obtain ⟨n, hn⟩ := Option.isSome_iff_exists.mp h
  exact fillWith_of_mapping hn

/-- By induction on the address. Where it goes on in a child, the child was filled too or is as it
was. -/
theorem at?_fillWith {x : Sql} (hx : x.mapping.isSome = true) {address : List Nat} {s : Sql}
    (h : s.at? address = some x) (m : Mapping) : (s.fillWith m).at? address = some x := by
  induction address generalizing s m with
  | nil =>
    cases h
    exact congrArg some (fillWith_of_isSome hx)
  | cons i address ih =>
    obtain ⟨c, hc, hrest⟩ := Option.bind_eq_some_iff.mp h
    refine Option.bind_eq_some_iff.mpr ?_
    rcases children_fillWith m s with hsame | ⟨k, hfilled⟩
    · exact ⟨c, hsame ▸ hc, hrest⟩
    · refine ⟨c.fillWith k, ?_, ih hrest k⟩
      rw [hfilled, List.getElem?_map, hc]
      rfl

theorem at?_fill {x : Sql} (hx : x.mapping.isSome = true) {address : List Nat} {s : Sql}
    (h : s.at? address = some x) (m : Option Mapping) : (s.fill m).at? address = some x := by
  cases m with
  | none => exact h
  | some m => exact at?_fillWith hx h m

/-! ## The first mapping -/

/-- A tree that was filled has a mapping, or is of a kind that is never filled. -/
theorem isSome_mapping_fillWith (m : Mapping) (s : Sql) :
    (s.fillWith m).mapping.isSome = true ∨ ∀ n, s.fillWith n = s := by
  fun_cases fillWith m s
  case case9 op left right ty hp => exact .inr fun n => by simp only [fillWith, hp, if_true]
  case case11 =>
    cases hs : s.mapping with
    | some k => exact .inl rfl
    | none => exact .inr fun n => by cases s <;> grind [fillWith, mapping]
  all_goals exact .inl rfl

theorem fillWith_fillWith (m n : Mapping) (s : Sql) :
    (s.fillWith m).fillWith n = s.fillWith m := by
  rcases isSome_mapping_fillWith m s with h | h
  · exact fillWith_of_isSome h
  · rw [h, h]

theorem fill_of_isSome {s : Sql} (h : s.mapping.isSome = true) (m : Option Mapping) :
    s.fill m = s := by
  cases m with
  | none => rfl
  | some m => exact fillWith_of_isSome h

/-- Filling in a mapping changes nothing but mappings. A node that had one keeps it, and all that is
below the node stays as it was. A tree that has a mapping is not changed at all, nor is one that
there is no mapping for. Once a mapping was filled in, no other one is. -/
theorem fill_fills_holes (m n : Option Mapping) (k : Mapping) (s : Sql) :
    (s.fill m).eraseMappings = s.eraseMappings ∧
    (∀ address x, s.at? address = some x → x.mapping.isSome = true →
      (s.fill m).at? address = some x) ∧
    (s.mapping.isSome = true → s.fill m = s) ∧
    s.fill none = s ∧
    (s.fill (some k)).fill n = s.fill (some k) := by
  refine ⟨eraseMappings_fill m s, fun address x hx hmapped => at?_fill hmapped hx m,
    fun hmapped => fill_of_isSome hmapped m, rfl, ?_⟩
  cases n with
  | none => rfl
  | some n => exact fillWith_fillWith k n s

/-- In `a + (b - 1)` the column `a` is mapped, and the difference with all that is in it is filled.
The sum is a whole then, and what was `a` stays. -/
theorem fill_sum :
    let int : Mapping := .scalar "integer" .int
    let long : Mapping := .scalar "bigint" .long
    let column (name : String) (m : Option Mapping) : Sql := .column ⟨none, name⟩ false .int m
    let sum (a : Option Mapping) (m : Option Mapping) : Sql :=
      .binary .add (column "a" a) (.binary .subtract (column "b" m) (.const (.int 1) .int m) .int m)
        .int m
    ((sum (some long) none).fill (some int)) = sum (some long) (some int) ∧
      (sum (some long) (some int)).at? [0] = some (column "a" (some long)) ∧
      (sum (some long) (some int)).fill (some long) = sum (some long) (some int) := by
  intro int long column sum
  have hfill : (sum (some long) none).fill (some int) = sum (some long) (some int) := rfl
  obtain ⟨-, hkept, -, -, hfirst⟩ :=
    fill_fills_holes (some int) (some long) int (sum (some long) none)
  refine ⟨hfill, ?_, ?_⟩
  · rw [← hfill]
    exact hkept [0] (column "a" (some long)) rfl rfl
  · rw [← hfill]
    exact hfirst

end Sql

end QuerySql
