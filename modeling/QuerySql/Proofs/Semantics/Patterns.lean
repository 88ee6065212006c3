import QuerySql.Proofs.Semantics.Arrays

/-!
# Matching with `LIKE` patterns

In a pattern `%` stands for any run of characters and `_` for any one character, and a character
after the escape character stands for itself. Where no escape character is given, it is the
backslash; an empty one turns escaping off. The comparison with the elements of an array has no
place for an escape character.

* `Like.Matches`: what the items of a pattern match. `Like.accepts` decides it for whole patterns.
* `Like.accepts_eq_iff`: a pattern means the same with the backslash for an escape character and
  without any just if there is no backslash in it.
* `Server.LikeRules` is what is asked of a server; `Server.patterns` is a server that does it.
-/

namespace QuerySql

namespace Like

/-- What a place in a pattern stands for. -/
inductive Item where
  | char (c : Char)
  /-- Any one character. -/
  | one
  /-- Any number of characters. -/
  | run
  deriving DecidableEq

/-- What a character stands for that is not escaped. -/
def Item.ofChar (c : Char) : Item :=
  if c = '%' then .run else if c = '_' then .one else .char c

/-- The items of a pattern. A pattern that ends in its escape character has none. -/
def items? (escape : Option Char) : List Char → Option (List Item)
  | [] => some []
  | [c] => if escape = some c then none else some [.ofChar c]
  | c :: d :: cs =>
    if escape = some c then (items? escape cs).map (.char d :: ·)
    else (items? escape (d :: cs)).map (.ofChar c :: ·)

/-- The items match the text, characters being compared as given. -/
inductive Matches (alike : Char → Char → Bool) : List Item → List Char → Prop
  | nil : Matches alike [] []
  | char {p c : Char} {items : List Item} {cs : List Char} : alike p c = true →
    Matches alike items cs → Matches alike (.char p :: items) (c :: cs)
  | one (c : Char) {items : List Item} {cs : List Char} : Matches alike items cs →
    Matches alike (.one :: items) (c :: cs)
  | run (front : List Char) {items : List Item} {cs : List Char} : Matches alike items cs →
    Matches alike (.run :: items) (front ++ cs)

/-- Whether the items match the text. -/
def matchItems (alike : Char → Char → Bool) : List Item → List Char → Bool
  | [], cs => cs.isEmpty
  | .char p :: items, cs =>
    match cs with
    | [] => false
    | c :: cs => alike p c && matchItems alike items cs
  | .one :: items, cs =>
    match cs with
    | [] => false
    | _ :: cs => matchItems alike items cs
  | .run :: items, cs =>
    (List.range (cs.length + 1)).any fun n => matchItems alike items (cs.drop n)

/-- By induction on the pattern. A run is tried at every length, by induction on the text. -/
theorem matchItems_eq_true {alike : Char → Char → Bool} {items : List Item} {cs : List Char} :
    matchItems alike items cs = true ↔ Matches alike items cs := by
  induction items generalizing cs with
  | nil =>
    rw [matchItems, List.isEmpty_iff]
    constructor
    · rintro rfl
      exact .nil
    · intro h
      cases h
      rfl
  | cons item items ih =>
    cases item with
    | char p =>
      cases cs with
      | nil => exact ⟨nofun, nofun⟩
      | cons c cs =>
        rw [matchItems, Bool.and_eq_true, ih]
        constructor
        · exact fun h => .char h.1 h.2
        · intro h
          cases h with
          | char hc h => exact ⟨hc, h⟩
    | one =>
      cases cs with
      | nil => exact ⟨nofun, nofun⟩
      | cons c cs =>
        rw [matchItems, ih]
        constructor
        · exact .one c
        · intro h
          cases h with
          | one _ h => exact h
    | run =>
      rw [matchItems, List.any_eq_true]
      constructor
      · rintro ⟨n, -, h⟩
        rw [← List.take_append_drop n cs]
        exact .run _ (ih.mp h)
      · intro h
        generalize hcs : cs = text at h
        cases h with
        | run front h =>
          -- What the run takes is as long as the front.
          refine ⟨front.length, List.mem_range.mpr ?_, ?_⟩
          · rw [List.length_append]
            omega
          · rw [List.drop_left]
            exact ih.mpr h

/-- Whether the pattern matches the text. -/
def accepts (alike : Char → Char → Bool) (escape : Option Char) (pattern text : String) : Bool :=
  match items? escape pattern.toList with
  | some items => matchItems alike items text.toList
  | none => false

/-! ## The escape character -/

variable {alike : Char → Char → Bool} {items : List Item} {cs : List Char}

/-- A pattern in which nothing is escaped. -/
theorem items?_eq_map {escape : Option Char} (h : ∀ c ∈ cs, escape ≠ some c) :
    items? escape cs = some (cs.map .ofChar) := by
  fun_induction items? escape cs with
  | case1 => rfl
  | case2 c hc => exact absurd hc (h c List.mem_cons_self)
  | case3 => rfl
  | case4 c d cs hc => exact absurd hc (h c List.mem_cons_self)
  | case5 c d cs _ ih =>
    rw [ih fun x hx => h x (List.mem_cons_of_mem _ hx)]
    rfl

/-- The fewest characters that match the item. -/
def Item.shortest : Item → List Char
  | char c => [c]
  | one => ['_']
  | run => []

/-- The shortest text that the items match. -/
def shortest (items : List Item) : List Char := items.flatMap Item.shortest

theorem shortest_cons (item : Item) (items : List Item) :
    shortest (item :: items) = item.shortest ++ shortest items := rfl

theorem Item.length_shortest_char (c : Char) : (char c).shortest.length = 1 := rfl

/-- Only the character for a run can match nothing. -/
theorem Item.eq_percent_of_shortest {c : Char} (h : (ofChar c).shortest.length = 0) : c = '%' := by
  unfold ofChar at h
  split at h
  next hc => exact hc
  next =>
    split at h
    · cases h
    · cases h

/-- Every pattern has a text that it matches: one character for each that must be there. -/
theorem matches_shortest (hrefl : ∀ c, alike c c = true) (items : List Item) :
    Matches alike items (shortest items) := by
  induction items with
  | nil => exact .nil
  | cons item items ih =>
    cases item with
    | char c => exact .char (hrefl c) ih
    | one => exact .one _ ih
    | run => exact .run [] ih

theorem Matches.length_le (h : Matches alike items cs) : (shortest items).length ≤ cs.length := by
  induction h with
  | nil => exact Nat.le_refl 0
  | char _ _ ih | one _ _ ih => exact Nat.succ_le_succ ih
  | run front _ ih =>
    rw [List.length_append]
    exact Nat.le_trans ih (Nat.le_add_left _ _)

/-- In a text that is as short as it can be, all runs are empty. -/
theorem Matches.tail {item : Item} (h : Matches alike (item :: items) (item.shortest ++ cs))
    (hlen : cs.length = (shortest items).length) : Matches alike items cs := by
  cases item with
  | char c =>
    cases h with
    | char _ h => exact h
  | one =>
    cases h with
    | one _ h => exact h
  | run =>
    rw [Item.shortest, List.nil_append] at h
    generalize htext : cs = text at h
    cases h with
    | @run front _ rest h =>
      have hle := h.length_le
      have hfront : front.length = 0 := by
        rw [htext, List.length_append] at hlen
        omega
      rw [List.eq_nil_of_length_eq_zero hfront]
      exact h

/-- What a pattern is without its escape character needs as many characters at least. Where it needs
just as many, an escaped character is a `%`, and the shortest text of the one is none of the other:
it has the escape character where a `%` is wanted. -/
theorem shortest_of_items? {escape : Char} (hescape : Item.ofChar escape = .char escape)
    (hpercent : alike '%' escape = false) (h : items? (some escape) cs = some items) :
    (shortest items).length ≤ (shortest (cs.map .ofChar)).length ∧
      (escape ∈ cs → (shortest items).length = (shortest (cs.map .ofChar)).length →
        ¬ Matches alike items (shortest (cs.map .ofChar))) := by
  fun_induction items? (some escape) cs generalizing items with
  | case1 =>
    cases h
    exact ⟨Nat.le_refl 0, nofun⟩
  | case2 => cases h
  | case3 c hc =>
    cases h
    refine ⟨Nat.le_refl _, fun hmem => ?_⟩
    exact absurd (congrArg some (List.mem_singleton.mp hmem)) hc
  | case4 c d cs hc ih =>
    obtain ⟨rest, hrest, rfl⟩ := Option.map_eq_some_iff.mp h
    cases hc
    obtain ⟨hle, -⟩ := ih hrest
    rw [List.map_cons, List.map_cons, hescape, shortest_cons, shortest_cons, shortest_cons]
    simp only [List.length_append, Item.length_shortest_char]
    -- With the escape character: one character. Without it: two, or one in front of a `%`.
    refine ⟨by omega, fun _ hlen hmatches => ?_⟩
    have hd : d = '%' := Item.eq_percent_of_shortest (by omega)
    subst hd
    cases hmatches with
    | char halike _ =>
      rw [hpercent] at halike
      cases halike
  | case5 c d cs hc ih =>
    obtain ⟨rest, hrest, rfl⟩ := Option.map_eq_some_iff.mp h
    obtain ⟨hle, hne⟩ := ih hrest
    rw [List.map_cons, shortest_cons, shortest_cons]
    simp only [List.length_append]
    refine ⟨by omega, fun hmem hlen hmatches => ?_⟩
    have hmem : escape ∈ d :: cs := by
      rcases List.mem_cons.mp hmem with rfl | hmem
      · exact absurd rfl hc
      · exact hmem
    have hlen : (shortest rest).length = (shortest ((d :: cs).map .ofChar)).length := by omega
    exact hne hmem hlen (hmatches.tail hlen.symm)

/-- A pattern that has its escape character in it matches other texts than without escaping: the
shortest text of the one or of the other tells. -/
theorem exists_matches_ne {escape : Char} (hescape : Item.ofChar escape = .char escape)
    (hpercent : alike '%' escape = false) (hrefl : ∀ c, alike c c = true) (hmem : escape ∈ cs) :
    ∃ text, ¬ ((∃ items, items? (some escape) cs = some items ∧ Matches alike items text) ↔
      Matches alike (cs.map .ofChar) text) := by
  have hplain := matches_shortest hrefl (cs.map .ofChar)
  cases hitems : items? (some escape) cs with
  | none =>
    refine ⟨shortest (cs.map .ofChar), fun h => ?_⟩
    obtain ⟨items, hsome, -⟩ := h.mpr hplain
    cases hsome
  | some items =>
    obtain ⟨hle, hne⟩ := shortest_of_items? hescape hpercent hitems
    by_cases hlen : (shortest items).length = (shortest (cs.map .ofChar)).length
    · refine ⟨shortest (cs.map .ofChar), fun h => ?_⟩
      obtain ⟨_, hsome, hmatches⟩ := h.mpr hplain
      cases hsome
      exact hne hmem hlen hmatches
    · refine ⟨shortest items, fun h => ?_⟩
      have hmatches := h.mp ⟨items, rfl, matches_shortest hrefl items⟩
      have := hmatches.length_le
      omega

/-- A pattern with a dangling escape accepts nothing. -/
theorem accepts_eq_true {escape : Option Char} {pattern text : String} :
    accepts alike escape pattern text = true ↔
      ∃ items, items? escape pattern.toList = some items ∧ Matches alike items text.toList := by
  unfold accepts
  cases items? escape pattern.toList with
  | none => exact ⟨nofun, nofun⟩
  | some items =>
    rw [matchItems_eq_true]
    constructor
    · exact fun h => ⟨items, rfl, h⟩
    · rintro ⟨_, hsome, h⟩
      cases hsome
      exact h

theorem items?_none (cs : List Char) : items? none cs = some (cs.map .ofChar) :=
  items?_eq_map fun _ _ => nofun

/-- A pattern without the escape character reads the same with and without escaping. -/
theorem accepts_of_not_mem {escape : Char} {pattern : String} (h : escape ∉ pattern.toList)
    (text : String) :
    accepts alike (some escape) pattern text = accepts alike none pattern text := by
  have hplain : items? (some escape) pattern.toList = items? none pattern.toList := by
    rw [items?_none]
    refine items?_eq_map fun c hc heq => ?_
    cases heq
    exact h hc
  rw [accepts, accepts, hplain]

/-- A pattern means the same with an escape character and without one just if the escape character
does not occur in it. -/
theorem accepts_agree_iff {escape : Char} (hescape : Item.ofChar escape = .char escape)
    (hpercent : alike '%' escape = false) (hrefl : ∀ c, alike c c = true) (pattern : String) :
    (∀ text, accepts alike (some escape) pattern text = accepts alike none pattern text) ↔
      escape ∉ pattern.toList := by
  constructor
  · intro h hmem
    obtain ⟨text, hne⟩ := exists_matches_ne hescape hpercent hrefl hmem
    refine hne ?_
    have hsame := h (String.ofList text)
    rw [Bool.eq_iff_iff, accepts_eq_true, accepts_eq_true, items?_none,
      String.toList_ofList] at hsame
    simp only [Option.some.injEq, exists_eq_left'] at hsame
    exact hsame
  · exact accepts_of_not_mem

/-- The escape character where none is given. -/
def defaultEscape : Char := '\\'

/-- The escape character that an escape clause gives, if it is a proper one: an empty clause turns
escaping off. -/
def escapeOf? : Option String → Option (Option Char)
  | none => some (some defaultEscape)
  | some clause =>
    match clause.toList with
    | [] => some none
    | [c] => some (some c)
    | _ => none

/-- How characters are compared, where `alike` says which of them differ in their case at most. -/
def comparison (alike : Char → Char → Bool) (ignoreCase : Bool) : Char → Char → Bool :=
  if ignoreCase then alike else (· == ·)

end Like

/-! ## Servers -/

/-- What is asked of a server for `LIKE` and `ILIKE`, of which the second takes characters for the
same that are `alike`. -/
structure Server.LikeRules (S : Server) (alike : Char → Char → Bool) : Prop where
  alike_refl : ∀ c, alike c c = true
  /-- A percent sign has no other case. -/
  alike_percent : ∀ c, alike '%' c = true → c = '%'
  like : ∀ ignoreCase text pattern clause escape, Like.escapeOf? clause = some escape →
    (S.like ignoreCase (.text text) (.text pattern) (clause.map .text) = .truth true ↔
      Like.accepts (Like.comparison alike ignoreCase) escape pattern text = true)
  /-- `text LIKE ANY (patterns)`: the text is like some pattern, without an escape clause. -/
  any_like : ∀ ignoreCase text (patterns : List String),
    (S.quantified .any (if ignoreCase then .ilike else .like) (.text text)
        (.array (patterns.map .text)) = .truth true ↔
      ∃ pattern ∈ patterns, S.like ignoreCase (.text text) (.text pattern) none = .truth true)
  /-- `text LIKE ALL (patterns)`: the text is like each pattern, without an escape clause. -/
  all_like : ∀ ignoreCase text (patterns : List String),
    (S.quantified .all (if ignoreCase then .ilike else .like) (.text text)
        (.array (patterns.map .text)) = .truth true ↔
      ∀ pattern ∈ patterns, S.like ignoreCase (.text text) (.text pattern) none = .truth true)

namespace Server.LikeRules

variable {S : Server} {alike : Char → Char → Bool} (h : S.LikeRules alike)

include h

theorem comparison_refl (ignoreCase : Bool) (c : Char) :
    Like.comparison alike ignoreCase c c = true := by
  cases ignoreCase with
  | false => exact beq_self_eq_true c
  | true => exact h.alike_refl c

theorem comparison_percent (ignoreCase : Bool) :
    Like.comparison alike ignoreCase '%' Like.defaultEscape = false := by
  cases ignoreCase with
  | false => rfl
  | true =>
    refine Bool.eq_false_iff.mpr fun halike => ?_
    exact absurd (h.alike_percent _ halike) (by decide)

end Server.LikeRules

/-! ## A server -/

namespace Server.Reference

/-- Whether the two characters are the same up to the case of a basic letter. -/
def isSameLetter (c d : Char) : Bool := c.toLower == d.toLower

theorem eq_percent_of_isSameLetter {c : Char} (h : isSameLetter '%' c = true) : c = '%' := by
  have hlower : c.toLower = '%' := (beq_iff_eq.mp h).symm
  unfold Char.toLower at hlower
  split at hlower
  next hupper =>
    have hsum : (c.val + ('a'.val - 'A'.val)).toNat = '%'.val.toNat :=
      congrArg (fun d => d.val.toNat) hlower
    have hge : 'A'.val.toNat ≤ c.val.toNat := hupper.1
    have hle : c.val.toNat ≤ 'Z'.val.toNat := hupper.2
    rw [UInt32.toNat_add] at hsum
    have hdistance : ('a'.val - 'A'.val).toNat = 32 := rfl
    have hA : 'A'.val.toNat = 65 := rfl
    have hZ : 'Z'.val.toNat = 90 := rfl
    have hpercent : '%'.val.toNat = 37 := rfl
    omega
  next => exact hlower

/-- The text of an escape clause, if it is one. -/
def clause? : Option Datum → Option (Option Char)
  | none => Like.escapeOf? none
  | some (.text s) => Like.escapeOf? (some s)
  | some _ => none

/-- Matching with a pattern. A match with an improper escape clause has no value. -/
def like (ignoreCase : Bool) (subject pattern : Datum) (clause : Option Datum) : Datum :=
  match subject, pattern, clause? clause with
  | .text text, .text pattern, some escape =>
    .truth (Like.accepts (Like.comparison isSameLetter ignoreCase) escape pattern text)
  | _, _, _ => .null

/-- Whether the text is like the pattern, without an escape clause. -/
def isLike (ignoreCase : Bool) (subject pattern : Datum) : Bool :=
  (like ignoreCase subject pattern none).isTrue

/-- An item compared with the elements of an array, by patterns as well. -/
def patternQuantified (q : Quantifier) (op : ElementOp) (item array : Datum) : Datum :=
  match op, q, array with
  | .equal, q, array => quantified q item array
  | op, .any, .array patterns => .truth (patterns.any (isLike (op = .ilike) item))
  | op, .all, .array patterns => .truth (patterns.all (isLike (op = .ilike) item))
  | _, _, _ => .null

end Server.Reference

/-- The reference server with arrays, and with patterns. -/
def Server.patterns : Server :=
  { arrays with
    like := Reference.like
    quantified := Reference.patternQuantified }

/-- The server does what is asked for patterns. -/
theorem Server.likeRules_patterns : patterns.LikeRules Reference.isSameLetter where
  alike_refl c := beq_self_eq_true c.toLower
  alike_percent _ h := Reference.eq_percent_of_isSameLetter h
  like ignoreCase text pattern clause escape h := by
    have hclause : Reference.clause? (clause.map .text) = some escape := by
      cases clause with
      | none => exact h
      | some s => exact h
    show Reference.like ignoreCase _ _ _ = _ ↔ _
    simp only [Reference.like, hclause, Datum.truth.injEq]
  any_like ignoreCase text items := by
    have heval : patterns.quantified .any (if ignoreCase then .ilike else .like) (.text text)
        (.array (items.map .text)) =
          .truth (items.any fun p => Reference.isLike ignoreCase (.text text) (.text p)) := by
      cases ignoreCase with
      | false => exact congrArg Datum.truth List.any_map
      | true => exact congrArg Datum.truth List.any_map
    rw [heval, Datum.truth.injEq, List.any_eq_true]
    simp only [Reference.isLike, Datum.isTrue_eq_true]
    rfl
  all_like ignoreCase text items := by
    have heval : patterns.quantified .all (if ignoreCase then .ilike else .like) (.text text)
        (.array (items.map .text)) =
          .truth (items.all fun p => Reference.isLike ignoreCase (.text text) (.text p)) := by
      cases ignoreCase with
      | false => exact congrArg Datum.truth List.all_map
      | true => exact congrArg Datum.truth List.all_map
    rw [heval, Datum.truth.injEq, List.all_eq_true]
    simp only [Reference.isLike, Datum.isTrue_eq_true]
    rfl

end QuerySql
