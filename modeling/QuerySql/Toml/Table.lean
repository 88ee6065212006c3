import QuerySql.Toml

/-!
# Adding to tables

The rules by which keys and headers put entries into a tree of tables. No key is given twice and no
table is declared twice; all operations answer nothing where a rule is broken.

* A dotted key makes the tables on its way and may add to tables that dotted keys made, never to one
  that a header declared.
* A header may lead through any table, and through the last one of a list of tables; tables on its
  way that are not there yet are implied, and can be declared afterwards.
-/

namespace QuerySql.Toml

/-- Sets an entry: in its place if the key is there, else at the end. -/
def put (key : String) (item : Item) : Entries → Entries
  | [] => [(key, item)]
  | e :: es => if e.1 = key then (key, item) :: es else e :: put key item es

/-- Edits the last of some tables. -/
def editLast (edit : Entries → Option Entries) : List Entries → Option (List Entries)
  | [] => none
  | [es] => (edit es).map fun es => [es]
  | es :: e :: rest => (editLast edit (e :: rest)).map fun rest => es :: rest

/-- Adds an entry under a dotted key, given as the stages before its last part. `takes` says whether
the table at hand takes an entry itself: of the tables on the way only those do that dotted keys
made. -/
def insert (key : String) (item : Item) : (stages : List String) → (takes : Bool) → Entries →
    Option Entries
  | [], takes, es => if takes && (es.lookup key).isNone then some (es ++ [(key, item)]) else none
  | k :: stages, _, es =>
    match es.lookup k with
    | none => (insert key item stages true []).map fun sub => put k (.table .dotted sub) es
    | some (.table .declared _) => none
    | some (.table .implied sub) =>
      (insert key item stages false sub).map fun sub => put k (.table .implied sub) es
    | some (.table .dotted sub) =>
      (insert key item stages true sub).map fun sub => put k (.table .dotted sub) es
    | some (.tables ts) =>
      (editLast (insert key item stages false) ts).map fun ts => put k (.tables ts) es
    | some _ => none

/-- Edits the table that the stages of a header lead to. -/
def under (edit : Entries → Option Entries) : (stages : List String) → Entries → Option Entries
  | [], es => edit es
  | k :: stages, es =>
    match es.lookup k with
    | none => (under edit stages []).map fun sub => put k (.table .implied sub) es
    | some (.table o sub) => (under edit stages sub).map fun sub => put k (.table o sub) es
    | some (.tables ts) => (editLast (under edit stages) ts).map fun ts => put k (.tables ts) es
    | some _ => none

/-- Declares a table: a new one, or one that has only been implied so far. -/
def declareTable (key : String) (es : Entries) : Option Entries :=
  match es.lookup key with
  | none => some (put key (.table .declared []) es)
  | some (.table .implied sub) => some (put key (.table .declared sub) es)
  | some _ => none

/-- Declares one more element of a list of tables. -/
def declareElement (key : String) (es : Entries) : Option Entries :=
  match es.lookup key with
  | none => some (put key (.tables [[]]) es)
  | some (.tables ts) => some (put key (.tables (ts ++ [[]])) es)
  | some _ => none

end QuerySql.Toml
