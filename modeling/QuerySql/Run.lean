import QuerySql.Event
import QuerySql.Fault

/-!
# Runs that report

A run ends in a value or in an error and leaves a list of reports, whichever it was. Setting up a
provider is a run that may end in a `ConfigError`; an attempt to translate is one that may stop
because it declines a shape or because of a fault.

* `Run.outcome_bind`, `Run.outcome_pure`, `Run.outcome_report`: the outcome of a run never depends
  on its reports.
* `Attempt.orElse` tries an alternative only where the first run declined.
-/

namespace QuerySql

/-- A computation that leaves reports and ends in a value or an error. -/
structure Run (ε α : Type) where
  log : List Event
  outcome : Except ε α

namespace Run

variable {ε α β : Type}

/-- The run that does nothing. -/
def done (a : α) : Run ε α := ⟨[], .ok a⟩

/-- The run that fails at once. -/
def fail (e : ε) : Run ε α := ⟨[], .error e⟩

/-- Continues with the value of a run, if it ends in one. -/
def andThen (x : Run ε α) (f : α → Run ε β) : Run ε β :=
  match x.outcome with
  | .ok a =>
    let y := f a
    ⟨x.log ++ y.log, y.outcome⟩
  | .error e => ⟨x.log, .error e⟩

instance : Monad (Run ε) where
  pure := done
  bind := andThen

/-- Leaves one report. -/
def report (e : Event) : Run ε Unit := ⟨[e], .ok ()⟩

/-- The run that ends as given. -/
def ofExcept (x : Except ε α) : Run ε α := ⟨[], x⟩

@[simp] theorem outcome_pure (a : α) : (pure a : Run ε α).outcome = .ok a := rfl

@[simp] theorem outcome_fail (e : ε) : (fail e : Run ε α).outcome = .error e := rfl

@[simp] theorem outcome_report (e : Event) : (report e : Run ε Unit).outcome = .ok () := rfl

@[simp] theorem outcome_ofExcept (x : Except ε α) : (ofExcept x).outcome = x := rfl

@[simp] theorem outcome_bind (x : Run ε α) (f : α → Run ε β) :
    (x >>= f).outcome = x.outcome.bind fun a => (f a).outcome := by
  show (andThen x f).outcome = _
  unfold andThen
  cases x.outcome <;> rfl

theorem id_map_eq (x : Run ε α) : id <$> x = x := by
  cases x with
  | mk log outcome => cases outcome <;> simp [Functor.map, andThen, done]

theorem pure_bind_eq (a : α) (f : α → Run ε β) : pure a >>= f = f a := by
  simp [pure, bind, andThen, done]

theorem bind_assoc_eq {γ : Type} (x : Run ε α) (f : α → Run ε β) (g : β → Run ε γ) :
    x >>= f >>= g = x >>= fun a => f a >>= g := by
  simp only [bind, andThen]
  cases x.outcome with
  | error e => rfl
  | ok a => cases hf : (f a).outcome <;> simp [hf]

instance : LawfulMonad (Run ε) :=
  LawfulMonad.mk' (Run ε) id_map_eq pure_bind_eq bind_assoc_eq

end Run

/-- Why an attempt stops. -/
inductive Stop where
  /-- This way there is no SQL for the shape; something else may be tried. -/
  | declined
  /-- A call was put together wrongly. -/
  | broken (f : Fault)
  deriving DecidableEq

/-- A run that may decline what it is given: an attempt to translate it. -/
abbrev Attempt (α : Type) := Run Stop α

namespace Attempt

variable {α : Type}

/-- Declines. -/
def decline : Attempt α := Run.fail .declined

/-- A call was put together wrongly. -/
def broken (f : Fault) : Attempt α := Run.fail (.broken f)

/-- Leaves one report. -/
def report (e : Event) : Attempt Unit := Run.report e

/-- The value, and where there is none, declines. -/
def ofOption : Option α → Attempt α
  | some a => pure a
  | none => decline

/-- The first attempt, and where it declines, the second. -/
def orElse (x : Attempt α) (y : Unit → Attempt α) : Attempt α :=
  match x.outcome with
  | .error .declined =>
    let z := y ()
    ⟨x.log ++ z.log, z.outcome⟩
  | _ => x

instance : OrElse (Attempt α) := ⟨orElse⟩

/-- Makes both attempts, the second one even where the first declines. Both have to succeed. -/
def both {β : Type} (x : Attempt α) (y : Attempt β) : Attempt (α × β) :=
  match x.outcome with
  | .ok a => x >>= fun _ => y >>= fun c => pure (a, c)
  | .error .declined => ⟨x.log ++ y.log, y.outcome.bind fun _ => .error .declined⟩
  | .error (.broken f) => ⟨x.log, .error (.broken f)⟩

/-- Translates the members of a list, up to the first that is declined. -/
def all {β : Type} (f : β → Attempt α) : List β → Attempt (List α)
  | [] => pure []
  | x :: xs => do
    let a ← f x
    let as ← all f xs
    pure (a :: as)

theorem all_congr {β : Type} {f g : β → Attempt α} {xs : List β} (h : ∀ x ∈ xs, f x = g x) :
    all f xs = all g xs := by
  induction xs with
  | nil => rfl
  | cons x xs ih => rw [all, all, h x (by simp), ih fun y hy => h y (by simp [hy])]

/-- What was found, if anything: all that a caller sees who asks for no reports. -/
def found? (x : Attempt α) : Option α :=
  match x.outcome with
  | .ok a => some a
  | .error _ => none

/-- Leaves a report after an attempt that declined. -/
def reportDecline (x : Attempt α) (e : Event) : Attempt α :=
  match x.outcome with
  | .error .declined => ⟨x.log ++ [e], x.outcome⟩
  | _ => x

/-- Leaves a report after an attempt that succeeded. -/
def reportFound (x : Attempt α) (e : Event) : Attempt α :=
  match x.outcome with
  | .ok _ => ⟨x.log ++ [e], x.outcome⟩
  | _ => x

@[simp] theorem outcome_reportDecline (x : Attempt α) (e : Event) :
    (x.reportDecline e).outcome = x.outcome := by
  unfold reportDecline
  split <;> rfl

@[simp] theorem outcome_reportFound (x : Attempt α) (e : Event) :
    (x.reportFound e).outcome = x.outcome := by
  unfold reportFound
  split <;> rfl

end Attempt

end QuerySql
