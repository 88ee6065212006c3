import QuerySql.Column
import QuerySql.Json.Access
import QuerySql.Proofs.Attempt
import QuerySql.Proofs.Sql.Nodes

/-!
# Properties that building keeps

A property of SQL trees holds of everything that is translated if every way of building a node keeps
it. `Builder.Keeps` lists these ways, one field each; what follows here are the operations that are
put together from them.

* `Builder.Keeps.closed_each`: a property of single nodes has to be checked at the new node only. If
  building keeps it, it keeps that every node of the tree has it.
* `Builder.Closed` adds what a path into a document is made from, which a property of single nodes
  does not say.
* `Builder.Closed.yields_call`, `Builder.Closed.member`, …: the derived operations.
-/

namespace QuerySql

/-- The parts of a function are as many as a call with `n` arguments needs. -/
structure Function.Fits (fn : Function) (n : Nat) : Prop where
  argumentNames : ∀ names ∈ fn.argumentNames, names.length = n
  separators : ∀ seps ∈ fn.separators, seps.length = n - 1
  propagates : fn.propagates.length = n

/-- Flags that are made from the arguments fit them. -/
theorem Function.fits_strict (name : String) (args : List Sql) (nullable : Bool) :
    Function.Fits { name, nullable, propagates := args.map fun _ => true } args.length :=
  { argumentNames := fun _ h => nomatch h
    separators := fun _ h => nomatch h
    propagates := List.length_map _ }

/-- `COALESCE`, whose second argument decides whether a call can be null. -/
def Function.coalesce (nullable : Bool) : Function :=
  { name := "COALESCE", nullable, propagates := [false, false] }

theorem Function.fits_coalesce (nullable : Bool) : (coalesce nullable).Fits 2 :=
  { argumentNames := fun _ h => nomatch h
    separators := fun _ h => nomatch h
    propagates := rfl }

/-- `cardinality`, which counts the elements of a native array. -/
def Function.cardinality : Function :=
  { name := "cardinality", nullable := true, propagates := [true] }

theorem Function.fits_cardinality : cardinality.Fits 1 :=
  { argumentNames := fun _ h => nomatch h
    separators := fun _ h => nomatch h
    propagates := rfl }

/-- `jsonb_array_length` or `json_array_length`, which counts the elements of a document. -/
def Function.documentLength (binary : Bool) : Function :=
  { name := if binary then "jsonb_array_length" else "json_array_length", nullable := true,
    propagates := [true] }

theorem Function.fits_documentLength (binary : Bool) : (documentLength binary).Fits 1 :=
  { argumentNames := fun _ h => nomatch h
    separators := fun _ h => nomatch h
    propagates := rfl }

/-- The functions that count the elements of a document. -/
def Function.documentLengths : List String := ["json_array_length", "jsonb_array_length"]

/-- The functions that are called in one way only. -/
def Function.reserved : List String := ["COALESCE", "cardinality"] ++ documentLengths

/-- Whether the node is a path into a document that is read as a text. -/
def Sql.isTextPath : Sql → Bool
  | .traversal _ _ asText _ _ => asText
  | _ => false

/-- How the values of a column are stored. -/
def Column.mapping (catalog : Catalog) (c : Column) : Option Mapping :=
  match c.store with
  | some store => catalog.ofTyAs c.ty store
  | none => catalog.ofTy c.ty

/-- Where there is a document, its elements can be counted. -/
theorem Json.exists_arrayLength (b : Builder) {s : Sql} {base : Sql × List Sql}
    (h : base? s = some base) : ∃ x, (arrayLength b s).outcome = .ok x := by
  unfold base? at h
  split at h
  · split at h
    next hm =>
      simp only [arrayLength, if_pos hm, arrayLength.measure]
      exact ⟨_, rfl⟩
    next => cases h
  · simp only [arrayLength, arrayLength.measure]
    exact ⟨_, rfl⟩
  · cases h

namespace Builder

/-- Every way of building a node keeps the property: the node has it if its operands have it. Some
nodes are built for some operands only: no element is taken from a document by a subscript, and no
elements of it are counted by `cardinality`, if it is a column or a path; the elements of a document
are not counted in a text; and an item is equated with the elements of native arrays only. -/
structure Keeps (b : Builder) (columns : ColumnLookup) (P : Sql → Prop) : Prop where
  fillWith (m : Mapping) {s : Sql} : P s → P (s.fillWith m)
  typedConst (v : Value) (ty : Ty) (m : Option Mapping) : P (b.typedConst v ty m)
  param (name : String) (nullable : Bool) (ty : Ty) :
    P (.param name nullable ty (b.catalog.ofTy ty))
  column {source : Option String} {name : String} {c : Column} : columns source name = some c →
    P (.column ⟨c.table.or source, c.name⟩ c.nullable c.ty (c.mapping b.catalog))
  call {fn : Function} {args : List Sql} (ty : Ty) (m : Option Mapping) : fn.Fits args.length →
    fn.name ∉ Function.reserved → (∀ x ∈ args, P x) → P (.call fn args ty (b.mappingOr m ty))
  cardinality {x : Sql} : Json.base? x = none → P x →
    P (.call .cardinality [b.fillDefault x] .int (b.mappingOr none .int))
  documentLength (binary : Bool) {x : Sql} : x.isTextPath = false → P x →
    P (.call (.documentLength binary) [b.fillDefault x] .int (b.mappingOr none .int))
  coalesce {left right : Sql} (m : Option Mapping) : P left → P right →
    P (.call (.coalesce right.isNullable) [left, right] left.ty.stripNullable
      (b.mappingOr m left.ty.stripNullable))
  cast {x : Sql} (ty : Ty) (m : Option Mapping) : P x → P (.cast x ty (b.mappingOr m ty))
  binary (op : BinaryOp) {left right : Sql} (m : Option Mapping) : P left → P right →
    P (b.binary op left right m)
  unary (op : SqlUnaryOp) {x : Sql} : P x → P (b.unary op x)
  like {subject pattern : Sql} {escape : Option Sql} (ignoreCase : Bool) : P subject →
    P pattern → (∀ e, escape = some e → P e) → P (b.like subject pattern escape ignoreCase)
  regexMatch {subject pattern : Sql} (o : Regex.Options) : P subject → P pattern →
    P (b.regexMatch subject pattern o)
  postgres (op : PostgresOp) {left right : Sql} (ty : Option Ty) (m : Option Mapping) :
    P left → P right → P (b.postgres op left right ty m)
  quantified (q : Quantifier) (op : ElementOp) {item array : Sql} :
    (op = .equal → array.isForeign = false) → P item → P array → P (b.quantified q op item array)
  subscript {array index : Sql} : Json.base? array = none → P array → P index →
    P (b.subscript array index true)
  newArray {items : List Sql} (ty : Ty) : (∀ x ∈ items, P x) → P (b.newArray items ty)
  row {items : List Sql} {ty : Ty} : ty.isTuple = true → (∀ x ∈ items, P x) → P (.row items ty)
  textPath {s document : Sql} {front path : List Sql} :
    Json.base? s = some (document, front) → P s → (∀ x ∈ path, P x) →
    P (.traversal document path true .string (b.catalog.ofTy .string))
  jsonPath {s document : Sql} {front path : List Sql} (ty : Ty) :
    Json.base? s = some (document, front) → P s → (∀ x ∈ path, P x) →
    P (.traversal document path false ty document.mapping)

/-- Building keeps the property, and what a path starts from has it if the path has. -/
structure Closed (b : Builder) (columns : ColumnLookup) (P : Sql → Prop) : Prop
    extends Keeps b columns P where
  base {s document : Sql} {front : List Sql} : Json.base? s = some (document, front) → P s →
    P document ∧ ∀ x ∈ front, P x

variable {b : Builder} {columns : ColumnLookup} {P : Sql → Prop}

theorem isNullable_fillDefault (s : Sql) : (b.fillDefault s).isNullable = s.isNullable := by
  unfold fillDefault
  split
  · rfl
  · exact Sql.isNullable_fill _ s

theorem ty_fillDefault (s : Sql) : (b.fillDefault s).ty = s.ty := by
  unfold fillDefault
  split
  · rfl
  · exact Sql.ty_fill _ s

/-! ## Properties of single nodes -/

/-- What a path starts from is a node of the tree: the column itself, or a part of the path. -/
theorem each_of_base? {L : Sql → Prop} {s document : Sql} {front : List Sql}
    (h : Json.base? s = some (document, front)) (hs : Sql.Each L s) :
    Sql.Each L document ∧ ∀ x ∈ front, Sql.Each L x := by
  unfold Json.base? at h
  split at h
  · split at h
    · cases h
      exact ⟨hs, fun _ hx => nomatch hx⟩
    · cases h
  · cases h
    exact ⟨hs.child List.mem_cons_self, fun x hx => hs.child (List.mem_cons_of_mem _ hx)⟩
  · cases h

/-- Filling in mappings keeps a property of all nodes if it keeps it of each. -/
theorem Keeps.each_fill {L : Sql → Prop} (h : Keeps b columns L) {s : Sql} (hs : Sql.Each L s)
    (m : Option Mapping) : Sql.Each L (s.fill m) :=
  hs.fill (fun m _ hs => h.fillWith m hs) m

theorem Keeps.each_fillDefault {L : Sql → Prop} (h : Keeps b columns L) {s : Sql}
    (hs : Sql.Each L s) : Sql.Each L (b.fillDefault s) := by
  unfold fillDefault
  split
  · exact hs
  · exact h.each_fill hs _

/-- A node over two filled operands. -/
theorem Keeps.each_pair {L : Sql → Prop} (h : Keeps b columns L) {s x y : Sql}
    {m n : Option Mapping} (hs : L s) (hc : s.children = [x.fill m, y.fill n])
    (hx : Sql.Each L x) (hy : Sql.Each L y) : Sql.Each L s := by
  refine .intro hs fun c hmem => ?_
  rw [hc] at hmem
  simp only [List.mem_cons, List.not_mem_nil, or_false] at hmem
  rcases hmem with rfl | rfl
  · exact h.each_fill hx m
  · exact h.each_fill hy n

/-- If building keeps a property of single nodes, it keeps that all nodes have it. -/
theorem Keeps.closed_each {L : Sql → Prop} (h : Keeps b columns L) :
    Closed b columns (Sql.Each L) where
  fillWith m _ hs := hs.fillWith (fun m _ hs => h.fillWith m hs) m
  typedConst v ty m := .intro (h.typedConst v ty m) fun _ hc => nomatch hc
  param name nullable ty := .intro (h.param name nullable ty) fun _ hc => nomatch hc
  column hc := .intro (h.column hc) fun _ hc => nomatch hc
  call ty m hf hn hargs := .intro (h.call ty m hf hn fun x hx => (hargs x hx).root) hargs
  cardinality hb hx := .intro (h.cardinality hb hx.root) fun c hc => by
    cases List.mem_singleton.mp hc
    exact h.each_fillDefault hx
  documentLength binary {_} ht hx := .intro (h.documentLength binary ht hx.root) fun c hc => by
    cases List.mem_singleton.mp hc
    exact h.each_fillDefault hx
  coalesce m hl hr := .intro (h.coalesce m hl.root hr.root) fun c hc => by
    simp only [Sql.children, List.mem_cons, List.not_mem_nil, or_false] at hc
    rcases hc with rfl | rfl
    · exact hl
    · exact hr
  cast ty m hx := .intro (h.cast ty m hx.root) fun c hc => by
    cases List.mem_singleton.mp hc
    exact hx
  binary op {left right} m hl hr := by
    have hroot := h.binary op m hl.root hr.root
    refine h.each_pair (m := b.operandMapping left right) (n := b.operandMapping left right)
      hroot ?_ hl hr
    -- Predicates and values differ in their mapping, not in their children.
    unfold Builder.binary
    simp only
    split <;> rfl
  unary op {x} hx := by
    refine .intro (h.unary op hx.root) fun c hc => ?_
    have hchildren : (b.unary op x).children = [x] := by cases op <;> rfl
    rw [hchildren] at hc
    cases List.mem_singleton.mp hc
    exact hx
  like {subject pattern escape} ignoreCase hs hp he := by
    refine .intro (h.like ignoreCase hs.root hp.root fun e h => (he e h).root) fun c hc => ?_
    simp only [Builder.like, Sql.children, List.mem_cons, Option.mem_toList,
      Option.map_eq_some_iff] at hc
    rcases hc with rfl | rfl | ⟨e, hesc, rfl⟩
    · exact h.each_fill hs _
    · exact h.each_fill hp _
    · exact h.each_fill (he e hesc) _
  regexMatch o hs hp := h.each_pair (h.regexMatch o hs.root hp.root) rfl hs hp
  postgres op {left right} ty m hl hr := by
    have hroot := h.postgres op ty m hl.root hr.root
    refine h.each_pair (m := b.operandMapping left right) (n := b.operandMapping left right)
      hroot ?_ hl hr
    cases ty <;> rfl
  quantified q op {item array} hop hi ha := by
    have hroot := h.quantified q op hop hi.root ha.root
    exact h.each_pair hroot rfl hi ha
  subscript hb ha hi := h.each_pair (m := none) (h.subscript hb ha.root hi.root) rfl ha hi
  newArray {items} ty hitems := by
    refine .intro (h.newArray ty fun x hx => (hitems x hx).root) fun c hc => ?_
    obtain ⟨x, hx, rfl⟩ := List.mem_map.mp hc
    exact h.each_fill (hitems x hx) _
  row ht hitems := .intro (h.row ht fun x hx => (hitems x hx).root) hitems
  textPath hb hs hpath := .intro (h.textPath hb hs.root fun x hx => (hpath x hx).root)
    fun c hc => by
    -- What the path starts from was found within the operand, so the property is known of it.
    rcases List.mem_cons.mp hc with rfl | hc
    · exact (each_of_base? hb hs).1
    · exact hpath c hc
  jsonPath ty hb hs hpath :=
    .intro (h.jsonPath ty hb hs.root fun x hx => (hpath x hx).root) fun c hc => by
      rcases List.mem_cons.mp hc with rfl | hc
      · exact (each_of_base? hb hs).1
      · exact hpath c hc
  base hb hs := each_of_base? hb hs

/-- Every way of building keeps what holds of every tree. -/
theorem closed_true : Closed b columns fun _ => True := by
  constructor
  · constructor <;> intros <;> trivial
  · exact fun _ _ => ⟨trivial, fun _ _ => trivial⟩

/-! ## Derived operations -/

namespace Closed

variable (h : Closed b columns P)

include h

theorem fill {s : Sql} (hs : P s) (m : Option Mapping) : P (s.fill m) := by
  cases m with
  | none => exact hs
  | some m => exact h.fillWith m hs

/-- Filling in a default mapping is filling in a mapping. -/
theorem fillDefault {s : Sql} (hs : P s) : P (b.fillDefault s) := by
  unfold Builder.fillDefault
  split
  · exact hs
  · exact h.fill hs _

theorem const (v : Value) (m : Option Mapping) : P (b.const v m) := h.typedConst v _ m

theorem text (s : String) : P (b.text s) := h.const (.string s) none

theorem int (n : Int) : P (b.int n) := h.const (.int (Int32.ofInt n)) none

/-- A call whose flags, names and separators fit is made, and has the property. -/
theorem yields_call {fn : Function} {args : List Sql} (ty : Ty) (m : Option Mapping)
    (hf : fn.Fits args.length) (hn : fn.name ∉ Function.reserved) (hargs : ∀ x ∈ args, P x) :
    (b.call fn args ty m).Yields P := by
  rw [call_eq_pure hf.argumentNames hf.separators hf.propagates]
  refine Attempt.yields_pure (h.call ty m ?_ hn fun x hx => ?_)
  · rw [List.length_map]
    exact hf
  · obtain ⟨y, hy, rfl⟩ := List.mem_map.mp hx
    exact h.fillDefault (hargs y hy)

theorem yields_strictCall {name : String} {args : List Sql} (ty : Ty) (m : Option Mapping)
    (hn : name ∉ Function.reserved) (hargs : ∀ x ∈ args, P x) :
    (b.strictCall name args ty m).Yields P :=
  h.yields_call ty m (Function.fits_strict name args true) hn hargs

/-- An interval of so many units, whose one argument is passed by name. -/
theorem yields_makeInterval (argument : String) {x : Sql} (ty : Ty) (hx : P x) :
    (b.call { name := "make_interval", argumentNames := some [some argument], nullable := true,
              propagates := [true] }
      [x] ty none).Yields P := by
  refine h.yields_call _ _ ⟨fun names hn => ?_, nofun, rfl⟩
    (show "make_interval" ∉ Function.reserved by decide) (List.forall_mem_singleton.mpr hx)
  cases hn
  rfl

theorem yields_coalesce {left right : Sql} (m : Option Mapping) (hl : P left) (hr : P right) :
    (b.coalesce left right m).Yields P := by
  let shared := m.or (b.operandMapping left right)
  have hl' := h.fillDefault (h.fill hl shared)
  have hr' := h.fillDefault (h.fill hr shared)
  have hcall := h.coalesce shared hl' hr'
  rw [isNullable_fillDefault, ty_fillDefault] at hcall
  have hf := Function.fits_coalesce (right.fill shared).isNullable
  show (b.call (.coalesce (right.fill shared).isNullable) [left.fill shared, right.fill shared]
    (left.fill shared).ty.stripNullable shared).Yields P
  rw [call_eq_pure hf.argumentNames hf.separators hf.propagates]
  exact Attempt.yields_pure hcall

theorem castTo {x : Sql} (hx : P x) (ty : Ty) (m : Option Mapping) : P (b.cast x ty m) :=
  Keeps.cast h.toKeeps ty m (h.fillDefault hx)

theorem yields_binary? (op : BinaryOp) {left right : Sql} (m : Option Mapping) (hl : P left)
    (hr : P right) : (Attempt.ofOption (b.binary? op left right m)).Yields P := by
  refine Attempt.yields_ofOption fun s hs => ?_
  unfold Builder.binary? at hs
  split at hs
  · cases hs
    exact h.binary op m hl hr
  · cases hs

/-- An index that counts from one is a constant, or a sum with the one. -/
theorem oneBased {index : Sql} (hi : P index) : P (b.oneBased index) := by
  have hadd : P (oneBased.addOne b index) := h.binary .add _ hi (h.const _ _)
  unfold Builder.oneBased
  split
  · split
    · exact h.typedConst _ _ _
    · exact hadd
  · exact hadd

/-! ### Documents -/

/-- What is read from a path, whatever type it is read as. -/
theorem readAs {s document : Sql} {front path : List Sql} (ty : Ty)
    (hb : Json.base? s = some (document, front)) (hs : P s) (hpath : ∀ x ∈ path, P x) :
    P (Json.readAs b document path ty) := by
  have htext := h.textPath hb hs hpath
  unfold Json.readAs
  simp only
  split
  · exact htext
  · split
    · exact h.jsonPath _ hb hs hpath
    · exact h.castTo htext _ _

/-- An access into a document is a path that is longer by the member. -/
theorem member? {s member x : Sql} {ty : Ty} (hx : Json.member? b s member ty = some x) (hs : P s)
    (hm : P member) : P x := by
  unfold Json.member? at hx
  obtain ⟨⟨document, path⟩, hb, rfl⟩ := Option.map_eq_some_iff.mp hx
  refine h.readAs ty hb hs fun y hy => ?_
  rcases List.mem_append.mp hy with hy | hy
  · exact (h.base hb hs).2 y hy
  · cases List.mem_singleton.mp hy
    exact h.fillDefault hm

/-- The length of a document is asked of a column, or of a path that is read as JSON. -/
theorem yields_measure {document argument : Sql} (ht : argument.isTextPath = false)
    (ha : P argument) : (Json.arrayLength.measure b document argument).Yields P := by
  unfold Json.arrayLength.measure
  exact Attempt.yields_pure (Keeps.documentLength h.toKeeps (Json.isBinary document) ht ha)

/-- What is neither a column of documents nor a path is measured as an array. -/
theorem yields_cardinality {s : Sql} (hb : Json.base? s = none) (hs : P s) :
    (b.strictCall "cardinality" [s] .int none).Yields P := by
  rw [strictCall_eq_pure]
  exact Attempt.yields_pure (Keeps.cardinality h.toKeeps hb hs)

theorem yields_arrayLength {s : Sql} (hs : P s) : (Json.arrayLength b s).Yields P := by
  unfold Json.arrayLength
  split
  · split
    · exact h.yields_measure rfl hs
    · exact Attempt.yields_decline
  · exact h.yields_measure rfl (h.jsonPath _ rfl hs (h.base rfl hs).2)
  · exact Attempt.yields_decline

/-- The length of an array of either kind: the elements of a column or a path are counted by the
function for documents. -/
theorem yields_length {s : Sql} (hs : P s) :
    (Json.arrayLength b s <|> b.strictCall "cardinality" [s] .int none).Yields P := by
  have hlength := h.yields_arrayLength hs
  cases hb : Json.base? s with
  | none => exact Attempt.yields_orElse hlength (h.yields_cardinality hb hs)
  | some base =>
    obtain ⟨x, hx⟩ := Json.exists_arrayLength b hb
    exact hlength.congr ((Attempt.outcome_orElse_of_ok hx).trans hx.symm)

end Closed

end Builder

end QuerySql
