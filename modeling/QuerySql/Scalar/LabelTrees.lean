import QuerySql.Scalar

/-!
# Methods of label trees

The methods of one label path: its place in the tree, the queries it matches and its parts.
-/

namespace QuerySql.Scalar.LabelTrees

/-- The operator of a test, between a label path and the argument of the test. -/
def testOp? : LabelTreeMethod → Option PostgresOp
  | .isAncestorOf => some .contains
  | .isDescendantOf => some .containedBy
  | .matchesQuery => some .labelMatches
  | .matchesTextQuery => some .labelMatchesText
  | _ => none

/-- A method on a label path. -/
def onReceiver (b : Builder) (m : LabelTreeMethod) (path : Sql) (args : List Sql) : Attempt Sql :=
  match m, testOp? m, args with
  | _, some op, [other] => pure (b.postgresPredicate op path other)
  | .subtree, _, [first, last] => b.strictCall "subltree" [path, first, last] .labelTree none
  | .subpathFrom, _, [offset] => b.strictCall "subpath" [path, offset] .labelTree none
  | .subpath, _, [offset, length] => b.strictCall "subpath" [path, offset, length] .labelTree none
  | .index, _, [other] => b.strictCall "index" [path, other] .int none
  | _, _, _ => .decline

/-- Methods of label paths, and the longest common ancestor of several. -/
def translator (b : Builder) : ScalarTranslator where
  name := "LTreeTranslator"
  translate c :=
    match Known.identify? c.method, c.receiver with
    | some (.labelTree .longestCommonAncestor), _ => b.strictCall "lca" c.args .labelTree none
    | some (.labelTree m), some path => onReceiver b m path c.args
    | _, _ => .decline

end QuerySql.Scalar.LabelTrees
