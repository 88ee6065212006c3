import QuerySql.Event
import QuerySql.Expr
import QuerySql.Method.Known

/-!
# Lambdas over arrays

A method of an array that is given a lambda can be translated only if the lambda has one of a few
shapes. `ArrayPattern` and `LabelPattern` are these shapes; they hold the operands that are taken
out of the lambda's body, which are what has to be translated.
-/

namespace QuerySql

/-- A condition on the elements `x` of an array that SQL can state without a lambda. -/
inductive ArrayPattern where
  /-- `subject` is like `x`. -/
  | likeElement (ignoreCase : Bool) (subject : Expr)
  /-- `other` contains `x`. -/
  | memberOf (other : Expr)
  /-- `x` equals `other`. -/
  | equalTo (other : Expr)

namespace ArrayPattern

/-- The operand that is taken out of the lambda's body. -/
def operand : ArrayPattern → Expr
  | likeElement _ e | memberOf e | equalTo e => e

/-- The operand of an equation with the parameter on one side. -/
def ofEquation? (p : Parameter) (left right : Expr) : Option ArrayPattern :=
  if left.isParameter p then some (equalTo right)
  else if right.isParameter p then some (equalTo left)
  else none

/-- The pattern matching of a subject with the parameter. -/
def ofLike? (p : Parameter) (m : Method) (args : List Expr) : Option ArrayPattern :=
  match Known.identify? m, args with
  | some (.like ignoreCase false), [_, subject, pattern] =>
    if pattern.isParameter p then some (likeElement ignoreCase subject) else none
  | _, _ => none

/-- The test whether another collection contains the parameter: by the method of all sequences, or
by a method of lists or sets. -/
def ofContains? (p : Parameter) (m : Method) (receiver : Option Expr) (args : List Expr) :
    Option ArrayPattern :=
  match receiver, args with
  | none, [other, item] =>
    if Known.identify? m = some (.sequence .contains) ∧ item.isParameter p ∧
        other.ty.stripNullable.isSequence then some (memberOf other)
    else none
  | some other, [item] =>
    if m.name = "Contains" ∧ (m.owner = .list ∨ m.owner = .hashSet) ∧ item.isParameter p then
      some (memberOf other)
    else none
  | _, _ => none

/-- The test whether the parameter equals something, by either method for it. -/
def ofEquals? (p : Parameter) (m : Method) (receiver : Option Expr) (args : List Expr) :
    Option ArrayPattern :=
  match receiver, args with
  | none, [left, right] =>
    if Known.identify? m = some .objectEquals then ofEquation? p left right else none
  | some left, [right] =>
    if m.name = "Equals" then ofEquation? p left right else none
  | _, _ => none

/-- The condition that a lambda's body states of its parameter. An equation is of use only where
some element has to meet it. -/
def ofBody? (q : Quantifier) (p : Parameter) (body : Expr) : Option ArrayPattern :=
  match body with
  | .binary (.plain .equal) left right _ =>
    if q = .any then ofEquation? p left right else none
  | .call m receiver args =>
    (ofLike? p m args).or <| (ofContains? p m receiver args).or <|
      if q = .any then ofEquals? p m receiver args else none
  | _ => none

/-- The array, the quantifier, the parameter and the condition of a call that asks whether some or
all elements of an array meet a condition. -/
def ofCall? (m : Method) (args : List Expr) :
    Option (Quantifier × Expr × Parameter × ArrayPattern) :=
  let quantifier := match Known.identify? m with
    | some (.sequence .anyWhere) => some Quantifier.any
    | some (.sequence .allWhere) => some Quantifier.all
    | _ => none
  quantifier.bind fun q =>
    match args with
    | [array, .lambda [p] body _] => (ofBody? q p body).map fun pattern => (q, array, p, pattern)
    | _ => none

end ArrayPattern

/-- A question about the label paths of an array that one operator answers. -/
inductive LabelPattern where
  /-- Does `path` match some query of `queries`? -/
  | anyQuery (path queries : Expr)
  /-- Which path of `paths` is the first to meet a condition, or is there one at all? The operator
  compares the array with `other`. -/
  | pathsBy (method : Known) (op : PostgresOp) (first : Bool) (paths other : Expr)

namespace LabelPattern

/-- The array and the operand that is compared with it, in the order of the operator. -/
def operands : LabelPattern → Expr × Expr
  | anyQuery path queries => (path, queries)
  | pathsBy _ _ _ paths other => (paths, other)

/-- The operator between an array of label paths and the argument of a test that one of them has to
pass. With `first` it gives the first path that passes. -/
def op? (first : Bool) : LabelTreeMethod → Option PostgresOp
  | .isAncestorOf => some (if first then .labelFirstAncestor else .contains)
  | .isDescendantOf => some (if first then .labelFirstDescendant else .containedBy)
  | .matchesQuery => some (if first then .labelFirstMatches else .labelMatches)
  | .matchesTextQuery => some (if first then .labelFirstMatchesText else .labelMatchesText)
  | _ => none

/-- The question that a lambda's body asks of its parameter. -/
def ofTest? (method : Known) (first : Bool) (array : Expr) (p : Parameter) (test : Method)
    (receiver argument : Expr) : Option LabelPattern :=
  match Known.identify? test with
  | some (.labelTree m) =>
    if !first && m = .matchesQuery && argument.isParameter p then some (anyQuery receiver array)
    else if receiver.isParameter p then
      (op? first m).map fun op => pathsBy method op first array argument
    else none
  | _ => none

/-- The question that a call asks about an array of label paths. Further parameters of the lambda
have no part in it. -/
def ofCall? (m : Method) (args : List Expr) : Option LabelPattern :=
  let kind := match Known.identify? m with
    | some (.sequence .anyWhere) => some (Known.sequence .anyWhere, false)
    | some (.sequence .firstOrDefaultWhere) => some (Known.sequence .firstOrDefaultWhere, true)
    | _ => none
  kind.bind fun (method, first) =>
    match args with
    | [array, .lambda (p :: _) (.call test (some receiver) [argument]) _] =>
      ofTest? method first array p test receiver argument
    | _ => none

end LabelPattern

end QuerySql
