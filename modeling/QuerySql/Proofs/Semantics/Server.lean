import QuerySql.Builder
import QuerySql.Expr
import QuerySql.Proofs.Semantics.Datum
import QuerySql.Proofs.Sql.Nodes

/-!
# The value of a SQL tree

A database server gives a meaning to operators, functions and casts; an environment gives a value to
columns and parameters. `Sql.eval` puts them together. Constants, array literals, rows and
subscripts mean the same on every server.

A mapping says how a value is stored and has no part in what the value is, so filling in mappings
leaves values as they are (`Sql.eval_fillWith`).
-/

namespace QuerySql

/-- A function as SQL writes it: without what is only known of its nulls. -/
structure Function.Form where
  name : String
  argumentNames : Option (List (Option String)) := none
  separators : Option (List (Option String)) := none
  deriving DecidableEq

/-- The function as SQL writes it. -/
def Function.form (fn : Function) : Form := ⟨fn.name, fn.argumentNames, fn.separators⟩

/-- What a database server computes. -/
structure Server where
  binary : BinaryOp → Datum → Datum → Datum
  unary : SqlUnaryOp → Datum → Datum
  cast : Ty → Datum → Datum
  call : Function.Form → List Datum → Datum
  /-- Whether a subject matches a pattern, with an escape character if one is given. -/
  like : Bool → Datum → Datum → Option Datum → Datum
  regexMatch : Regex.Options → Datum → Datum → Datum
  quantified : Quantifier → ElementOp → Datum → Datum → Datum
  /-- What a path leads to in a document, as text or as JSON. -/
  traversal : Bool → Datum → List Datum → Datum
  postgres : PostgresOp → Datum → Datum → Datum

/-- The values that a tree is evaluated with. -/
structure Env where
  param : Parameter → Datum
  column : ColumnRef → Datum
  /-- The value of an aggregate over the current group. -/
  group : Aggregate → List Sql → Option Sql → List (OrderKey Sql) → Datum

namespace Sql

mutual
/-- The value of the tree. A subscript counts from one. -/
@[simp] def eval (S : Server) (env : Env) : Sql → Datum
  | const v _ _ => .ofValue v
  | param name _ ty _ => env.param ⟨name, ty⟩
  | column ref _ _ _ => env.column ref
  | call fn args _ _ => S.call fn.form (evalAll S env args)
  | aggregate fn args filter order _ _ => env.group fn args filter order
  | binary op left right _ _ => S.binary op (eval S env left) (eval S env right)
  | unary op operand _ _ => S.unary op (eval S env operand)
  | cast operand ty _ => S.cast ty (eval S env operand)
  | like ignoreCase subject pattern escape _ =>
    S.like ignoreCase (eval S env subject) (eval S env pattern) (evalOption S env escape)
  | quantified q op item array _ => S.quantified q op (eval S env item) (eval S env array)
  | subscript array index _ _ _ => (eval S env array).elementAt ((eval S env index).shift (-1))
  | newArray items _ _ => .array (evalAll S env items)
  | row items _ => .row (evalAll S env items)
  | regexMatch options subject pattern _ =>
    S.regexMatch options (eval S env subject) (eval S env pattern)
  | traversal document path asText _ _ =>
    S.traversal asText (eval S env document) (evalAll S env path)
  | postgres op left right _ _ => S.postgres op (eval S env left) (eval S env right)

/-- The values of the trees. -/
@[simp] def evalAll (S : Server) (env : Env) : List Sql → List Datum
  | [] => []
  | s :: ss => eval S env s :: evalAll S env ss

/-- The value of the tree, if there is one. -/
@[simp] def evalOption (S : Server) (env : Env) : Option Sql → Option Datum
  | none => none
  | some s => some (eval S env s)
end

variable (S : Server) (env : Env)

theorem evalAll_eq_map (ss : List Sql) : evalAll S env ss = ss.map (eval S env) := by
  induction ss with
  | nil => rfl
  | cons s ss ih => simp only [evalAll, ih, List.map_cons]

/-- By induction on the tree, along the mappings that are filled in. -/
theorem eval_fillWith (m : Mapping) (s : Sql) : eval S env (fillWith m s) = eval S env s := by
  induction s using children_induction generalizing m with
  | h s ih =>
    fun_cases fillWith m s
    case case7 items ty e he =>
      simp only [eval, evalAll_eq_map, fillAllWith_eq_map, List.map_map]
      refine congrArg Datum.array (List.map_congr_left fun x hx => ?_)
      exact ih x hx e
    case case10 op left right ty hp =>
      simp only [eval, ih left List.mem_cons_self,
        ih right (List.mem_cons_of_mem _ List.mem_cons_self)]
    all_goals simp only [eval]

theorem eval_fill (m : Option Mapping) (s : Sql) : eval S env (fill m s) = eval S env s := by
  cases m with
  | none => rfl
  | some m => exact eval_fillWith S env m s

end Sql

namespace Builder

variable (b : Builder) (S : Server) (env : Env)

theorem eval_fillDefault (s : Sql) : (b.fillDefault s).eval S env = s.eval S env := by
  unfold fillDefault
  split
  · rfl
  · exact Sql.eval_fill S env _ s

/-- What is built of two operands has the value of the operator on theirs. -/
theorem eval_binary (op : BinaryOp) (left right : Sql) (m : Option Mapping) :
    (b.binary op left right m).eval S env = S.binary op (left.eval S env) (right.eval S env) := by
  unfold binary
  simp only
  split
  · simp only [Sql.eval, Sql.eval_fill]
  · simp only [Sql.eval, Sql.eval_fill]

theorem eval_unary (op : SqlUnaryOp) (x : Sql) :
    (b.unary op x).eval S env = S.unary op (x.eval S env) := by
  cases op <;> simp only [unary, Sql.eval]

theorem eval_cast (x : Sql) (ty : Ty) (m : Option Mapping) :
    (b.cast x ty m).eval S env = S.cast ty (x.eval S env) := by
  simp only [cast, Sql.eval, eval_fillDefault]

theorem eval_quantified (q : Quantifier) (op : ElementOp) (item array : Sql) :
    (b.quantified q op item array).eval S env =
      S.quantified q op (item.eval S env) (array.eval S env) := by
  simp only [quantified, Sql.eval, Sql.eval_fill]

theorem eval_postgresPredicate (op : PostgresOp) (left right : Sql) :
    (b.postgresPredicate op left right).eval S env =
      S.postgres op (left.eval S env) (right.eval S env) := by
  simp only [postgresPredicate, postgres, Sql.eval, Sql.eval_fill]

theorem eval_subscript (array index : Sql) (nullable : Bool) :
    (b.subscript array index nullable).eval S env =
      (array.eval S env).elementAt ((index.eval S env).shift (-1)) := by
  simp only [subscript, Sql.eval, Sql.eval_fill]

theorem eval_newArray (items : List Sql) (ty : Ty) :
    (b.newArray items ty).eval S env = .array (items.map (Sql.eval S env)) := by
  simp only [newArray, Sql.eval, Sql.evalAll_eq_map, List.map_map]
  refine congrArg Datum.array (List.map_congr_left fun x _ => ?_)
  exact Sql.eval_fill S env _ x

end Builder

end QuerySql
