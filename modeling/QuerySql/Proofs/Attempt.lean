import QuerySql.Run

/-!
# What attempts lead to

Two ways of saying what an attempt leads to.

* `x.Yields P`: `x` does not break off, and what it finds, if it finds anything, satisfies `P`.
* `x.Fails`: `x` finds nothing, because it declines or because it breaks off. An attempt that does
  not break off fails only by declining (`Yields.declines_iff_fails`).

The `yields_*` and `fails_*` lemmas have one case for each way of putting attempts together. No
report has a part in any of this.
-/

namespace QuerySql

/-- Two steps in a row find what the second one finds after the first has found something. -/
theorem Run.outcome_bind_eq_ok {ε α β : Type} {x : Run ε α} {f : α → Run ε β} {c : β} :
    (x >>= f).outcome = .ok c ↔ ∃ a, x.outcome = .ok a ∧ (f a).outcome = .ok c := by
  rw [outcome_bind]
  cases x.outcome with
  | error e => exact ⟨nofun, nofun⟩
  | ok a =>
    constructor
    · exact fun h => ⟨a, rfl, h⟩
    · rintro ⟨_, ha, h⟩
      cases ha
      exact h

namespace Attempt

variable {α β : Type} {P : α → Prop} {Q : β → Prop}

/-- The attempt does not break off, and what it finds satisfies `P`. -/
def Yields (P : α → Prop) (x : Attempt α) : Prop :=
  match x.outcome with
  | .ok a => P a
  | .error .declined => True
  | .error (.broken _) => False

/-- The attempt finds nothing and does not break off. -/
def Declines (x : Attempt α) : Prop := x.outcome = .error .declined

/-- The attempt finds nothing. -/
def Fails (x : Attempt α) : Prop := ∀ a, x.outcome ≠ .ok a

theorem Yields.of_ok {x : Attempt α} {a : α} (h : x.Yields P) (hx : x.outcome = .ok a) : P a := by
  unfold Yields at h
  rwa [hx] at h

/-- An attempt that does not break off either declines or finds something. -/
theorem Yields.declines_or_ok {x : Attempt α} (h : x.Yields P) :
    x.Declines ∨ ∃ a, x.outcome = .ok a ∧ P a := by
  unfold Yields at h
  unfold Declines
  split at h
  next a ha => exact .inr ⟨a, ha, h⟩
  next hd => exact .inl hd
  next => exact h.elim

/-- What is yielded is a matter of the outcome, not of the reports. -/
theorem Yields.congr {x y : Attempt α} (h : x.Yields P) (hxy : y.outcome = x.outcome) :
    y.Yields P := by
  unfold Yields
  rw [hxy]
  exact h

theorem Yields.imp {Q : α → Prop} {x : Attempt α} (h : x.Yields P) (hPQ : ∀ a, P a → Q a) :
    x.Yields Q := by
  unfold Yields at h ⊢
  split
  next a ha =>
    rw [ha] at h
    exact hPQ a h
  next => trivial
  next f hf => rwa [hf] at h

/-! ## Single attempts -/

theorem yields_pure {a : α} (h : P a) : (pure a : Attempt α).Yields P := h

theorem yields_decline : (decline : Attempt α).Yields P := trivial

theorem yields_report (e : Event) : (report e).Yields fun _ => True := trivial

theorem yields_ofOption {o : Option α} (h : ∀ a, o = some a → P a) : (ofOption o).Yields P := by
  cases o with
  | none => exact yields_decline
  | some a => exact yields_pure (h a rfl)

theorem yields_reportDecline {x : Attempt α} (h : x.Yields P) (e : Event) :
    (x.reportDecline e).Yields P :=
  h.congr (outcome_reportDecline x e)

theorem yields_reportFound {x : Attempt α} (h : x.Yields P) (e : Event) :
    (x.reportFound e).Yields P :=
  h.congr (outcome_reportFound x e)

/-! ## Attempts put together -/

theorem outcome_bind_ok {x : Attempt α} {a : α} (hx : x.outcome = .ok a) (f : α → Attempt β) :
    (x >>= f).outcome = (f a).outcome := by
  rw [Run.outcome_bind, hx]
  rfl

/-- A property of what the first step yields is what the second one may rely on. -/
theorem yields_bind {x : Attempt α} {f : α → Attempt β} (hx : x.Yields P)
    (hf : ∀ a, P a → (f a).Yields Q) : (x >>= f).Yields Q := by
  rcases hx.declines_or_ok with hd | ⟨a, ha, hP⟩
  · unfold Yields
    rw [Run.outcome_bind, hd]
    trivial
  · exact (hf a hP).congr (outcome_bind_ok ha f)

/-- Two functions that differ everywhere are told apart by what they make of a result. -/
theorem outcome_map_eq_iff {x : Attempt α} {f g : α → β} (h : ∀ a, f a ≠ g a) :
    (x >>= fun a => pure (f a)).outcome = (x >>= fun a => pure (g a)).outcome ↔ x.Fails := by
  unfold Fails
  rw [Run.outcome_bind, Run.outcome_bind]
  cases x.outcome with
  | error e => exact ⟨fun _ _ => nofun, fun _ => rfl⟩
  | ok a =>
    constructor
    · intro hfg
      injection hfg with hfg
      exact absurd hfg (h a)
    · exact fun hx => absurd rfl (hx a)

theorem outcome_orElse_of_declines {x y : Attempt α} (hx : x.Declines) :
    (x <|> y).outcome = y.outcome := by
  show (orElse x fun _ => y).outcome = _
  unfold orElse
  rw [hx]

/-- What the first attempt finds is not tried again. -/
theorem outcome_orElse_of_ok {x y : Attempt α} {a : α} (hx : x.outcome = .ok a) :
    (x <|> y).outcome = .ok a := by
  show (orElse x fun _ => y).outcome = _
  unfold orElse
  rw [hx]
  exact hx

/-- A fault is not passed over, as declining is. -/
theorem outcome_orElse_of_broken {x y : Attempt α} {f : Fault}
    (hx : x.outcome = .error (.broken f)) : (x <|> y).outcome = .error (.broken f) := by
  show (orElse x fun _ => y).outcome = _
  unfold orElse
  rw [hx]
  exact hx

/-- What is found was found by one of the two attempts. -/
theorem outcome_orElse_eq_ok {x y : Attempt α} {a : α} (h : (x <|> y).outcome = .ok a) :
    x.outcome = .ok a ∨ y.outcome = .ok a := by
  cases hx : x.outcome with
  | ok a' =>
    rw [outcome_orElse_of_ok hx] at h
    exact .inl h
  | error e =>
    cases e with
    | declined =>
      rw [outcome_orElse_of_declines hx] at h
      exact .inr h
    | broken f =>
      rw [outcome_orElse_of_broken hx] at h
      cases h

theorem outcome_orElse_congr {x y y' : Attempt α} (h : y.outcome = y'.outcome) :
    (x <|> y).outcome = (x <|> y').outcome := by
  cases hx : x.outcome with
  | ok a => rw [outcome_orElse_of_ok hx, outcome_orElse_of_ok hx]
  | error e =>
    cases e with
    | declined => rw [outcome_orElse_of_declines hx, outcome_orElse_of_declines hx, h]
    | broken f => rw [outcome_orElse_of_broken hx, outcome_orElse_of_broken hx]

theorem outcome_orElse_congr_left {x x' y : Attempt α} (h : x.outcome = x'.outcome) :
    (x <|> y).outcome = (x' <|> y).outcome := by
  cases hx : x'.outcome with
  | ok a => rw [outcome_orElse_of_ok hx, outcome_orElse_of_ok (h.trans hx)]
  | error e =>
    cases e with
    | declined => rw [outcome_orElse_of_declines hx, outcome_orElse_of_declines (h.trans hx)]
    | broken f => rw [outcome_orElse_of_broken hx, outcome_orElse_of_broken (h.trans hx)]

theorem outcome_orElse_decline (x : Attempt α) : (x <|> decline).outcome = x.outcome := by
  cases hx : x.outcome with
  | ok a => exact outcome_orElse_of_ok hx
  | error e =>
    cases e with
    | declined => exact outcome_orElse_of_declines hx
    | broken f => exact outcome_orElse_of_broken hx

/-- An attempt that declines may be made before or after another one. -/
theorem outcome_orElse_swap {x : Attempt α} (hx : x.Declines) (y z : Attempt α) :
    (x <|> y <|> z).outcome = (y <|> x <|> z).outcome :=
  (outcome_orElse_of_declines hx).trans
    (outcome_orElse_congr (outcome_orElse_of_declines hx).symm)

/-- Either attempt yields what has the property, so whichever is taken does. -/
theorem yields_orElse {x y : Attempt α} (hx : x.Yields P) (hy : y.Yields P) :
    (x <|> y).Yields P := by
  rcases hx.declines_or_ok with hd | ⟨a, ha, -⟩
  · exact hy.congr (outcome_orElse_of_declines hd)
  · exact hx.congr ((outcome_orElse_of_ok ha).trans ha.symm)

theorem outcome_both_ok {x : Attempt α} {y : Attempt β} {a : α} {c : β} (hx : x.outcome = .ok a)
    (hy : y.outcome = .ok c) : (both x y).outcome = .ok (a, c) := by
  unfold both
  rw [hx]
  simp only
  rw [outcome_bind_ok hx, outcome_bind_ok hy]
  rfl

/-- The second attempt is made even if the first declines, and a fault in it comes out. -/
theorem outcome_both_of_declines {x : Attempt α} {y : Attempt β} (hx : x.Declines) :
    (both x y).outcome = y.outcome.bind fun _ => .error .declined := by
  unfold both
  rw [hx]

theorem outcome_both_congr {x x' : Attempt α} {y y' : Attempt β} (hx : x.outcome = x'.outcome)
    (hy : y.outcome = y'.outcome) : (both x y).outcome = (both x' y').outcome := by
  unfold both
  rw [hx]
  split
  · rw [Run.outcome_bind, Run.outcome_bind, Run.outcome_bind, Run.outcome_bind, hx, hy]
  · rw [hy]
  · rfl

theorem outcome_both_eq_ok {x : Attempt α} {y : Attempt β} {a : α} {c : β}
    (h : (both x y).outcome = .ok (a, c)) : x.outcome = .ok a ∧ y.outcome = .ok c := by
  cases hx : x.outcome with
  | ok a' =>
    cases hy : y.outcome with
    | ok c' =>
      rw [outcome_both_ok hx hy] at h
      cases h
      exact ⟨rfl, rfl⟩
    | error e =>
      unfold both at h
      rw [hx] at h
      simp only at h
      rw [outcome_bind_ok hx, Run.outcome_bind, hy] at h
      cases h
  | error e =>
    cases e with
    | declined =>
      -- The second attempt is made, but nothing comes of it.
      rw [outcome_both_of_declines hx] at h
      cases hy : y.outcome with
      | ok c' =>
        rw [hy] at h
        cases h
      | error e' =>
        rw [hy] at h
        cases h
    | broken f =>
      unfold both at h
      rw [hx] at h
      cases h

theorem yields_both {x : Attempt α} {y : Attempt β} (hx : x.Yields P) (hy : y.Yields Q) :
    (both x y).Yields fun p => P p.1 ∧ Q p.2 := by
  unfold Yields
  rcases hx.declines_or_ok with hd | ⟨a, ha, hP⟩
  · rw [outcome_both_of_declines hd]
    rcases hy.declines_or_ok with he | ⟨c, hc, -⟩
    · rw [he]
      trivial
    · rw [hc]
      trivial
  · rcases hy.declines_or_ok with he | ⟨c, hc, hQ⟩
    · unfold both
      rw [ha]
      simp only
      rw [outcome_bind_ok ha, Run.outcome_bind, he]
      trivial
    · rw [outcome_both_ok ha hc]
      exact ⟨hP, hQ⟩

theorem all_comp {γ : Type} (f : γ → Attempt α) (g : β → γ) (xs : List β) :
    all f (xs.map g) = all (fun x => f (g x)) xs := by
  induction xs with
  | nil => rfl
  | cons x xs ih => rw [List.map_cons, all, all, ih]

theorem outcome_all_cons {f : β → Attempt α} {x : β} {xs : List β} {a : α} {as : List α}
    (hx : (f x).outcome = .ok a) (hxs : (all f xs).outcome = .ok as) :
    (all f (x :: xs)).outcome = .ok (a :: as) := by
  rw [all, outcome_bind_ok hx, outcome_bind_ok hxs]
  rfl

/-- Two operands are translated if each of them is. -/
theorem outcome_all_pair {f : β → Attempt α} {x y : β} {as : List α}
    (h : (all f [x, y]).outcome = .ok as) :
    ∃ a c, as = [a, c] ∧ (f x).outcome = .ok a ∧ (f y).outcome = .ok c := by
  obtain ⟨a, ha, h⟩ := Run.outcome_bind_eq_ok.mp h
  obtain ⟨cs, hcs, h⟩ := Run.outcome_bind_eq_ok.mp h
  obtain ⟨c, hc, hcs⟩ := Run.outcome_bind_eq_ok.mp hcs
  cases hcs
  cases h
  exact ⟨a, c, rfl, ha, hc⟩

/-- Translating a list is a map, on what can be translated. -/
theorem exists_map_of_all {f : β → Attempt α} (other : α) {xs : List β} {as : List α}
    (h : (all f xs).outcome = .ok as) :
    ∃ g : β → α, as = xs.map g ∧ ∀ x ∈ xs, (f x).outcome = .ok (g x) := by
  refine ⟨fun x => (f x).outcome.toOption.getD other, ?_⟩
  induction xs generalizing as with
  | nil =>
    cases h
    exact ⟨rfl, nofun⟩
  | cons x xs ih =>
    obtain ⟨a, ha, h⟩ := Run.outcome_bind_eq_ok.mp h
    obtain ⟨as', has, h⟩ := Run.outcome_bind_eq_ok.mp h
    cases h
    obtain ⟨rfl, hmem⟩ := ih has
    refine ⟨?_, List.forall_mem_cons.mpr ⟨?_, hmem⟩⟩
    · simp only [List.map_cons, ha]
      rfl
    · simp only [ha]
      rfl

/-- By induction on the list, as it is translated from left to right. -/
theorem yields_all {f : β → Attempt α} {xs : List β} (h : ∀ x ∈ xs, (f x).Yields P) :
    (all f xs).Yields fun ys => ∀ y ∈ ys, P y := by
  induction xs with
  | nil => exact yields_pure fun y hy => nomatch hy
  | cons x xs ih =>
    refine yields_bind (h x List.mem_cons_self) fun a ha => ?_
    refine yields_bind (ih fun y hy => h y (List.mem_cons_of_mem _ hy)) fun as has => ?_
    refine yields_pure fun y hy => ?_
    rcases List.mem_cons.mp hy with rfl | hy
    · exact ha
    · exact has y hy

/-! ## Failure -/

theorem Declines.fails {x : Attempt α} (h : x.Declines) : x.Fails := by
  intro a ha
  rw [h] at ha
  cases ha

theorem Declines.reportFound {x : Attempt α} (h : x.Declines) (e : Event) :
    (x.reportFound e).Declines :=
  (outcome_reportFound x e).trans h

/-- An attempt that does not break off fails only by declining. -/
theorem Yields.declines_iff_fails {x : Attempt α} (h : x.Yields P) : x.Declines ↔ x.Fails := by
  refine ⟨Declines.fails, fun hf => ?_⟩
  rcases h.declines_or_ok with hd | ⟨a, ha, -⟩
  · exact hd
  · exact absurd ha (hf a)

theorem fails_decline : (decline : Attempt α).Fails := fun _ => nofun

theorem not_fails_pure (a : α) : ¬ (pure a : Attempt α).Fails := fun h => h a rfl

theorem Fails.congr {x y : Attempt α} (h : x.Fails) (hxy : y.outcome = x.outcome) : y.Fails := by
  intro a ha
  exact h a (hxy ▸ ha)

theorem fails_reportDecline {x : Attempt α} (h : x.Fails) (e : Event) :
    (x.reportDecline e).Fails :=
  h.congr (outcome_reportDecline x e)

/-- Without its first step a chain of steps finds nothing. -/
theorem fails_bind {x : Attempt α} (h : x.Fails) (f : α → Attempt β) : (x >>= f).Fails := by
  intro c hc
  obtain ⟨a, ha, -⟩ := Run.outcome_bind_eq_ok.mp hc
  exact h a ha

/-- Whatever the first attempt finds, the second one fails. -/
theorem fails_bind_of_forall {x : Attempt α} {f : α → Attempt β} (h : ∀ a, (f a).Fails) :
    (x >>= f).Fails := by
  intro c hc
  obtain ⟨a, -, ha⟩ := Run.outcome_bind_eq_ok.mp hc
  exact h a c ha

/-- An alternative fails if both sides do. -/
theorem fails_orElse {x y : Attempt α} (hx : x.Fails) (hy : y.Fails) : (x <|> y).Fails := by
  intro a ha
  rcases outcome_orElse_eq_ok ha with h | h
  · exact hx a h
  · exact hy a h

theorem fails_both {x : Attempt α} {y : Attempt β} (h : x.Fails ∨ y.Fails) :
    (both x y).Fails := by
  unfold both
  split
  next a ha =>
    refine fails_bind_of_forall fun _ => fails_bind ?_ _
    exact h.resolve_left fun hx => hx a ha
  next =>
    intro c hc
    cases hy : y.outcome with
    | ok d =>
      rw [hy] at hc
      cases hc
    | error e =>
      rw [hy] at hc
      cases hc
  next => exact fun _ => nofun

/-- All are needed, so one that fails is enough. -/
theorem fails_all {f : β → Attempt α} {xs : List β} {x : β} (hx : x ∈ xs) (h : (f x).Fails) :
    (all f xs).Fails := by
  induction xs with
  | nil => cases hx
  | cons y ys ih =>
    rcases List.mem_cons.mp hx with rfl | hx
    · exact fails_bind h _
    · exact fails_bind_of_forall fun _ => fails_bind (ih hx) _

end Attempt

end QuerySql
