import QuerySql.Proofs.Closure.Translation

/-!
# Calls are well shaped

A call carries flags, names and separators beside its arguments, and building it breaks off where
they are not as many as the arguments need. No query gets that far, whatever its methods are applied
to: nothing that is translated breaks off, and every call that comes out of it fits its arguments.

* `Sql.WellShaped` is what building keeps, node by node (`Builder.keeps_of_wellShaped`).
* An aggregate method takes over the trees that describe its set as they are. So a node of the
  result is well shaped or comes from these trees (`ElementSet.Supplies`).
-/

namespace QuerySql

/-- The parts of a call are as many as its arguments need. -/
def Sql.WellShaped : Sql → Prop
  | call fn args _ _ => fn.Fits args.length
  | aggregate fn args _ _ _ _ => fn.propagates.length = args.length
  | _ => True

/-- A mapping has no part in whether a node is well shaped. -/
theorem Sql.WellShaped.fillWith {s : Sql} (h : s.WellShaped) (m : Mapping) :
    (s.fillWith m).WellShaped := by
  revert h
  fun_cases Sql.fillWith m s <;> exact id

/-- Building keeps what holds of every well-shaped node, whatever else it holds of. -/
theorem Builder.keeps_of_wellShaped {b : Builder} {columns : ColumnLookup} {L : Sql → Prop}
    (hfill : ∀ m s, L s → L (s.fillWith m)) (h : ∀ s : Sql, s.WellShaped → L s) :
    b.Keeps columns L where
  fillWith m s := hfill m s
  typedConst _ _ _ := h _ trivial
  param _ _ _ := h _ trivial
  column _ := h _ trivial
  call {fn args} ty m hf _ _ := h (.call fn args ty _) hf
  cardinality _ _ := h _ Function.fits_cardinality
  documentLength binary {_} _ _ := h _ (Function.fits_documentLength binary)
  coalesce {_ right} _ _ _ := h _ (Function.fits_coalesce right.isNullable)
  cast _ _ _ := h _ trivial
  binary op {left right} m _ _ := by
    refine h _ ?_
    unfold Builder.binary
    simp only
    split <;> trivial
  unary op {x} _ := by
    refine h _ ?_
    cases op <;> trivial
  like _ _ _ _ := h _ trivial
  regexMatch _ _ _ := h _ trivial
  postgres op {left right} ty m _ _ := by
    refine h _ ?_
    cases ty <;> trivial
  quantified _ _ {_ _} _ _ _ := h _ trivial
  subscript _ _ _ := h _ trivial
  newArray _ _ := h _ trivial
  row _ _ := h _ trivial
  textPath _ _ _ := h _ trivial
  jsonPath _ _ _ _ := h _ trivial

/-! ## Aggregates -/

namespace ElementSet

/-- The trees that describe the set. -/
def parts (source : ElementSet) : List Sql :=
  source.selector.toList ++ source.filter.toList ++ source.order.map OrderKey.expr

/-- The node is one of those that describe the set, with or without mappings filled in. -/
inductive Supplies (source : ElementSet) : Sql → Prop
  | node {part n : Sql} : part ∈ source.parts → n.Within part → Supplies source n
  | filled {n : Sql} (m : Mapping) : Supplies source n → Supplies source (n.fillWith m)

/-- What comes from well-shaped trees is well shaped. -/
theorem Supplies.wellShaped {source : ElementSet} {n : Sql} (hn : source.Supplies n)
    (h : ∀ part ∈ source.parts, part.Each Sql.WellShaped) : n.WellShaped := by
  induction hn with
  | node hpart hn => exact h _ hpart _ hn
  | filled m _ ih => exact ih.fillWith m

end ElementSet

namespace Aggregate.Spatial

variable {b : Builder} {L : Sql → Prop} {source : ElementSet} {selector : Sql}
  (hfill : ∀ m s, L s → L (s.fillWith m)) (h : ∀ s : Sql, s.WellShaped → L s)
  (hsource : ∀ part ∈ source.parts, part.Each L)

include hfill h hsource

/-- An aggregate has one argument and one flag. -/
theorem yields_reduce (function : String) (hselector : selector.Each L) :
    (reduce b function selector source).Yields (Sql.Each L) := by
  have hclosed : b.Closed (fun _ _ => none) (Sql.Each L) :=
    (Builder.keeps_of_wellShaped hfill h).closed_each
  refine Attempt.yields_pure (.intro (h _ rfl) fun c hc => ?_)
  simp only [Sql.children, List.mem_append] at hc
  rcases hc with (hc | hc) | hc
  · cases List.mem_singleton.mp hc
    exact hclosed.fillDefault hselector
  · exact hsource c (List.mem_append_left _ (List.mem_append_right _ hc))
  · exact hsource c (List.mem_append_right _ hc)

/-- By cases on the reduction. Only the convex hull is a call around an aggregate. -/
theorem yields_onSelector (m : SpatialMethod) (hselector : selector.Each L) :
    (onSelector b m selector source).Yields (Sql.Each L) := by
  have hclosed : b.Closed (fun _ _ => none) (Sql.Each L) :=
    (Builder.keeps_of_wellShaped hfill h).closed_each
  have hreduce (function : String) : (reduce b function selector source).Yields (Sql.Each L) :=
    yields_reduce hfill h hsource function hselector
  cases m with
  | convexHull =>
    refine Attempt.yields_bind (Attempt.yields_report _) fun _ _ => ?_
    refine Attempt.yields_bind (hreduce "ST_Collect") fun collected hcollected => ?_
    exact hclosed.yields_call _ _ ⟨nofun, nofun, rfl⟩ (by decide)
      (Scalar.forall_mem_one hcollected)
  | envelope =>
    refine Attempt.yields_bind (hreduce "ST_Extent") fun extent hextent => ?_
    exact Attempt.yields_pure (hclosed.castTo hextent _ _)
  | union => exact hreduce _
  | combine => exact hreduce _

end Aggregate.Spatial

/-- An aggregate method breaks off nowhere, and everything in its result is well shaped or comes
from the set. -/
theorem Provider.yields_translateAggregate (b : Builder) (scalars : List ScalarTranslator)
    (c : AggregateCall) :
    (translateAggregate ⟨b, scalars, [Aggregate.Spatial.translator b]⟩ c).Yields
      (Sql.Each fun n => n.WellShaped ∨ c.source.Supplies n) := by
  refine Attempt.yields_reportDecline ?_ _
  refine Attempt.yields_orElse (Attempt.yields_reportFound ?_ _) Attempt.yields_decline
  simp only [Aggregate.Spatial.translator]
  split
  next selector m hselector _ =>
    have hsource : ∀ part ∈ c.source.parts,
        part.Each fun n => n.WellShaped ∨ c.source.Supplies n :=
      fun part hpart n hn => .inr (.node hpart hn)
    refine Aggregate.Spatial.yields_onSelector ?_ (fun _ => .inl) hsource m ?_
    · rintro m s (hs | hs)
      · exact .inl (hs.fillWith m)
      · exact .inr (hs.filled m)
    · refine hsource selector (List.mem_append_left _ (List.mem_append_left _ ?_))
      rw [hselector]
      exact List.mem_singleton_self _
  next => exact Attempt.yields_decline

/-! ## Plugins -/

/-- A translator for the methods of one name gives each argument its flag. -/
theorem ScalarTranslator.respects_named (method function : String) :
    (named method function).Respects (Sql.Each Sql.WellShaped) := by
  intro c hc
  simp only [named]
  split
  · refine Attempt.yields_pure (.intro (Function.fits_strict function _ true) fun x hx => ?_)
    rcases List.mem_append.mp hx with hx | hx
    · exact hc.receiver x (Option.mem_toList.mp hx)
    · exact hc.args x hx
  · exact Attempt.yields_decline

namespace Translator

/-- No translation breaks off, of an expression or of an aggregate method, and what it finds is well
shaped, apart from what an aggregate method is given. -/
theorem translate_wellShaped {columns : ColumnLookup} {options : Options} {catalog : Catalog}
    {added : List ScalarTranslator} {t : Translator}
    (ht : (postgres columns options catalog added).outcome = .ok t)
    (hadded : ∀ s ∈ added, s.Respects (Sql.Each Sql.WellShaped)) :
    (∀ e, (t.translate e).Yields (Sql.Each Sql.WellShaped)) ∧
      ∀ c : AggregateCall,
        (t.provider.translateAggregate c).Yields
            (Sql.Each fun n => n.WellShaped ∨ c.source.Supplies n) ∧
          ((∀ part ∈ c.source.parts, part.Each Sql.WellShaped) →
            (t.provider.translateAggregate c).Yields (Sql.Each Sql.WellShaped)) := by
  refine ⟨fun e => ?_, fun c => ?_⟩
  · refine yields_translate ht (fun b _ => ?_) hadded e
    exact (Builder.keeps_of_wellShaped (fun m _ hs => hs.fillWith m) fun _ => id).closed_each
  · obtain ⟨b, p, -, -, rfl⟩ := of_postgres ht
    have hyields := Provider.yields_translateAggregate b (Scalar.builtIn b options ++ added) c
    refine ⟨hyields, fun hsource => hyields.imp fun s hs n hn => ?_⟩
    rcases hs n hn with h | h
    · exact h
    · exact h.wellShaped hsource

/-- A plugin that makes a call of two arguments, a receiver and another one. -/
theorem wellShaped_of_named_call :
    let frobnicate : Method := ⟨⟨.other "Widget", "Frobnicate", [.int], 0⟩, [], .int, false⟩
    let plugin := ScalarTranslator.named "Frobnicate" "frob"
    let e : Expr := .call frobnicate (some (.ofValue (.int 1))) [.ofValue (.int 2)]
    ∃ t s, (postgres (fun _ _ => none) {} Catalog.standard [plugin]).outcome = .ok t ∧
      (t.translate e).outcome = .ok s ∧ s.children.length = 2 ∧ s.Each Sql.WellShaped := by
  intro frobnicate plugin e
  obtain ⟨t, s, ht, hs, hargs⟩ := exists_translation
    (postgres (fun _ _ => none) {} Catalog.standard [plugin]) e
    (fun s => s.children.length == 2) (by decide +kernel)
  have hplugin : ∀ s ∈ [plugin], s.Respects (Sql.Each Sql.WellShaped) :=
    List.forall_mem_singleton.mpr (ScalarTranslator.respects_named "Frobnicate" "frob")
  refine ⟨t, s, ht, hs, beq_iff_eq.mp hargs, ?_⟩
  exact ((translate_wellShaped ht hplugin).1 e).of_ok hs

end Translator

end QuerySql
