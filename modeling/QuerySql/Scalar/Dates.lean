import QuerySql.Scalar

/-!
# Arithmetic on dates

Adding a number of units to a timestamp or a date is the addition of an interval. Intervals take
whole numbers of every unit but the second, so a fractional number of days, hours or minutes is
turned into seconds.
-/

namespace QuerySql.Scalar.Dates

/-- A unit of time that can be added. -/
structure TimeUnit where
  method : String
  /-- The argument of an interval that counts the unit. -/
  argument : String
  /-- The length in seconds, for units that all have the same length. -/
  seconds : Option Nat

/-- The units that can be added. -/
def units : List TimeUnit :=
  [⟨"AddYears", "years", none⟩,
   ⟨"AddMonths", "months", none⟩,
   ⟨"AddDays", "days", some 86400⟩,
   ⟨"AddHours", "hours", some 3600⟩,
   ⟨"AddMinutes", "mins", some 60⟩,
   ⟨"AddSeconds", "secs", some 1⟩]

/-- Whether a number of units has to be turned into seconds: a number that may be fractional, of a
unit of fixed length other than the second. -/
def countsInSeconds (unit : TimeUnit) (amount : Sql) : Option Nat :=
  if unit.argument = "secs" ∨ amount.ty.isInteger then none else unit.seconds

/-- An interval of so many units. -/
def interval (b : Builder) (unit : TimeUnit) (amount : Sql) : Attempt Sql := do
  let make (argument : String) (amount : Sql) : Attempt Sql :=
    b.call { name := "make_interval", argumentNames := some [some argument], nullable := true,
             propagates := [true] }
      [amount] .timeSpan none
  match countsInSeconds unit amount with
  | none => make unit.argument amount
  | some seconds =>
    let factor := b.const (.double (Binary64.ofNat seconds)) none
    let seconds ← .ofOption (b.binary? .multiply amount factor none)
    make "secs" seconds

/-- Whether the unit can be added to values of the owner: parts of a day only to timestamps. -/
def fits (owner : Method.Owner) (unit : TimeUnit) : Bool :=
  owner = .dateTime || owner = .dateOnly && !unit.seconds.any fun s => decide (s < 86400)

/-- The receiver and an interval, added. A date plus an interval is a timestamp and is cast back. -/
def addUnits (b : Builder) (owner : Method.Owner) (receiver : Sql) (unit : TimeUnit)
    (amount : Sql) : Attempt Sql := do
  let interval ← interval b unit amount
  let sum ← .ofOption (b.binary? .add receiver interval receiver.mapping)
  if owner = .dateOnly then pure (b.cast sum .dateOnly none) else pure sum

/-- The date of a timestamp, and the addition of units to timestamps and dates. -/
def translator (b : Builder) : ScalarTranslator where
  name := "DateTimeMethodTranslator"
  translate c :=
    if Known.identify? c.method = some .dateOfDateTime then
      match c.args with
      | [value] => pure (b.cast value .dateOnly none)
      | _ => .decline
    else
      match c.receiver, c.args, units.find? fun u => u.method == c.method.name with
      | some receiver, [amount], some unit =>
        if fits c.method.owner unit then addUnits b c.method.owner receiver unit amount
        else .decline
      | _, _, _ => .decline

end QuerySql.Scalar.Dates
