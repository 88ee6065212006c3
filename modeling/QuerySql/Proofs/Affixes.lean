import QuerySql.Proofs.PatternArrays
import QuerySql.Proofs.Semantics.Building
import QuerySql.Proofs.Semantics.Texts

/-!
# Tests for a prefix or a suffix

Whether a text starts, or ends, with another is tested with a `LIKE` pattern where the other one is
a constant, and by cutting off as many characters where it is not. Both ways are exact, whatever
characters the texts consist of.

* `Scalar.Texts.items?_escapePattern_append`: an escaped text stands for its own characters.
* `Scalar.Texts.Side.accepts_pattern`: the pattern matches just the texts that have the constant on
  the side.
* `Scalar.Texts.Side.cut_eq_iff`: so many characters of the side are the other text just then.
* `Scalar.Texts.affix_tests`: what is built for a constant and for anything else.
* `Translator.translate_affix`: the same of calls in a query.
-/

namespace QuerySql

/-! ## Matching -/

namespace Like

variable {items : List Item} {cs text : List Char}

theorem items?_cons {escape : Option Char} {c : Char} (h : escape ≠ some c) (cs : List Char) :
    items? escape (c :: cs) = (items? escape cs).map (.ofChar c :: ·) := by
  cases cs with
  | nil => exact if_neg h
  | cons d cs => exact if_neg h

theorem items?_escaped (escape c : Char) (cs : List Char) :
    items? (some escape) (escape :: c :: cs) = (items? (some escape) cs).map (.char c :: ·) :=
  if_pos rfl

/-- Characters that stand for themselves match just these characters. -/
theorem matches_chars_append :
    Matches (· == ·) (cs.map .char ++ items) text ↔
      ∃ rest, cs ++ rest = text ∧ Matches (· == ·) items rest := by
  induction cs generalizing text with
  | nil =>
    constructor
    · exact fun h => ⟨text, rfl, h⟩
    · rintro ⟨_, rfl, h⟩
      exact h
  | cons c cs ih =>
    constructor
    · intro h
      cases h with
      | char hc htail =>
        obtain ⟨rest, rfl, hrest⟩ := ih.mp htail
        exact ⟨rest, by rw [List.cons_append, beq_iff_eq.mp hc], hrest⟩
    · rintro ⟨rest, rfl, h⟩
      exact .char (beq_self_eq_true c) (ih.mpr ⟨rest, rfl, h⟩)

/-- A run matches any text in front of the rest. -/
theorem matches_run_cons {alike : Char → Char → Bool} :
    Matches alike (.run :: items) text ↔
      ∃ front rest, front ++ rest = text ∧ Matches alike items rest := by
  constructor
  · intro h
    cases h with
    | run front h => exact ⟨front, _, rfl, h⟩
  · rintro ⟨front, rest, rfl, h⟩
    exact .run front h

theorem matches_nil {alike : Char → Char → Bool} : Matches alike [] text ↔ text = [] := by
  constructor
  · intro h
    cases h
    rfl
  · rintro rfl
    exact .nil

end Like

namespace Scalar.Texts

/-! ## Escaping -/

/-- An escaped text stands for its own characters, whatever comes after it. -/
theorem items?_escapePattern_append (cs rest : List Char) :
    Like.items? (some likeEscape) (escapePattern cs ++ rest) =
      (Like.items? (some likeEscape) rest).map (cs.map .char ++ ·) := by
  induction cs with
  | nil => exact Option.map_id'.symm
  | cons c cs ih =>
    unfold escapePattern
    split
    next =>
      rw [List.cons_append, List.cons_append, Like.items?_escaped, ih, Option.map_map]
      rfl
    next hplain =>
      obtain ⟨hpercent, hunderscore, hescape⟩ : c ≠ '%' ∧ c ≠ '_' ∧ c ≠ likeEscape := by
        simpa only [not_or] using hplain
      have hitem : Like.Item.ofChar c = .char c := by
        rw [Like.Item.ofChar, if_neg hpercent, if_neg hunderscore]
      have hne : some likeEscape ≠ some c := fun h => hescape (Option.some.inj h).symm
      rw [List.cons_append, Like.items?_cons hne, ih, Option.map_map, hitem]
      rfl

namespace Side

/-- The method that tests the side. -/
def method : Side → TextMethod
  | start => .startsWith
  | finish => .endsWith

/-- Whether a text has another one on the side. -/
def IsAffix (side : Side) (part whole : String) : Prop :=
  match side with
  | start => part.toList <+: whole.toList
  | finish => part.toList <:+ whole.toList

instance (side : Side) (part whole : String) : Decidable (side.IsAffix part whole) :=
  match side with
  | start => inferInstanceAs (Decidable (part.toList <+: whole.toList))
  | finish => inferInstanceAs (Decidable (part.toList <:+ whole.toList))

/-- What the places of the pattern for a constant stand for. -/
def items (side : Side) (part : String) : List Like.Item :=
  match side with
  | start => part.toList.map .char ++ [.run]
  | finish => .run :: part.toList.map .char

/-- The pattern does not end in its escape character. -/
theorem items?_pattern (side : Side) (part : String) :
    Like.items? (some likeEscape) (side.pattern part).toList = some (side.items part) := by
  cases side with
  | start =>
    rw [pattern, String.toList_ofList, items?_escapePattern_append]
    rfl
  | finish =>
    rw [pattern, String.toList_ofList, Like.items?_cons (by decide),
      ← List.append_nil (escapePattern _), items?_escapePattern_append]
    exact congrArg (fun items => some (Like.Item.run :: items)) (List.append_nil _)

/-- The pattern for a side matches the texts that have the part there. -/
theorem matches_items {side : Side} {part whole : String} :
    Like.Matches (· == ·) (side.items part) whole.toList ↔ side.IsAffix part whole := by
  cases side with
  | start =>
    rw [items, Like.matches_chars_append]
    constructor
    · rintro ⟨rest, h, -⟩
      exact ⟨rest, h⟩
    · rintro ⟨rest, h⟩
      exact ⟨rest, h, Like.matches_run_cons.mpr ⟨rest, [], List.append_nil _, .nil⟩⟩
  | finish =>
    rw [items, Like.matches_run_cons]
    refine exists_congr fun front => ?_
    rw [← List.append_nil (part.toList.map _)]
    simp only [Like.matches_chars_append, Like.matches_nil]
    constructor
    · rintro ⟨rest, h, _, rfl, rfl⟩
      rw [List.append_nil] at h
      exact h
    · exact fun h => ⟨part.toList, h, [], List.append_nil _, rfl⟩

/-- The pattern for a constant matches just the texts that have the constant on the side. -/
theorem accepts_pattern {side : Side} {part whole : String} :
    Like.accepts (· == ·) (some likeEscape) (side.pattern part) whole = true ↔
      side.IsAffix part whole := by
  rw [Like.accepts_eq_true, items?_pattern]
  simp only [Option.some.injEq, exists_eq_left', matches_items]

/-! ## Cutting -/

/-- So many characters of the side. -/
def cut (side : Side) (whole : String) (n : Nat) : String :=
  match side with
  | start => String.ofList (whole.toList.take n)
  | finish => String.ofList (whole.toList.drop (whole.toList.length - n))

theorem call_function {S : Server} (hS : S.TextRules) (side : Side) (whole : String) (n : Nat) :
    S.call { name := side.function } [.text whole, .int n] = .text (side.cut whole n) := by
  cases side with
  | start => exact hS.left whole n
  | finish => exact hS.right whole n

/-- As many characters of the side are the other text just if it is there. -/
theorem cut_eq_iff {side : Side} {part whole : String} :
    side.cut whole part.toList.length = part ↔ side.IsAffix part whole := by
  rw [← String.toList_inj]
  cases side with
  | start =>
    rw [cut, String.toList_ofList, IsAffix, List.prefix_iff_eq_take]
    exact eq_comm
  | finish =>
    rw [cut, String.toList_ofList, IsAffix, List.suffix_iff_eq_drop]
    exact eq_comm

end Side

end Scalar.Texts

/-! ## What is built -/

open Scalar.Texts (Side)

/-- On the server the tree is true just where the subject has the other text on the side. -/
def Sql.TestsAffix (s : Sql) (S : Server) (side : Side) (subject other : Sql) : Prop :=
  ∀ env whole part, subject.eval S env = .text whole → other.eval S env = .text part →
    (s.eval S env = .truth true ↔ side.IsAffix part whole)

namespace Scalar.Texts

variable {b : Builder} {side : Side}

/-- The match with the pattern for a constant. -/
def likeOnSide (b : Builder) (side : Side) (subject : Sql) (part : String) : Sql :=
  b.like subject (b.text (side.pattern part)) (some (b.text (String.singleton likeEscape))) false

/-- The match is a test for the side if the server keeps the rules for matches. -/
theorem testsAffix_likeOnSide {S : Server} {alike : Char → Char → Bool} (hS : S.LikeRules alike)
    (subject : Sql) (part : String) (ty : Ty) (m : Option Mapping) :
    (likeOnSide b side subject part).TestsAffix S side subject (.const (.string part) ty m) := by
  intro env whole part' hsubject hother
  cases hother
  have hpattern : (b.text (side.pattern part)).eval S env = .text (side.pattern part) := rfl
  have hescape : (b.text (String.singleton likeEscape)).eval S env =
    .text (String.singleton likeEscape) := rfl
  rw [likeOnSide, Builder.eval_like, hsubject, hpattern, hescape]
  exact (hS.like false whole _ (some (String.singleton likeEscape)) _ rfl).trans
    Side.accepts_pattern

/-- The other text, compared with as many characters of the side. -/
def comparison (S : Server) (side : Side) (subject other : Datum) : Datum :=
  let length := S.call { name := "length" } [other]
  S.binary .equal (S.call { name := side.function } [subject, length]) other

theorem testsAffix_of_comparison {S : Server} (hS : S.TextRules) {s subject other : Sql}
    (h : ∀ env, s.eval S env = comparison S side (subject.eval S env) (other.eval S env)) :
    s.TestsAffix S side subject other := by
  intro env whole part hsubject hother
  rw [h, hsubject, hother, comparison, hS.length, side.call_function hS, hS.equal,
    Side.cut_eq_iff]

/-- A part that is no constant is compared with what is cut out by its length. -/
theorem exists_comparison (b : Builder) (side : Side) (subject : Sql) {other : Sql}
    (h : other.value? = none) :
    ∃ s, (hasOnSide b side subject other).outcome = .ok s ∧
      ∀ S env, s.eval S env = comparison S side (subject.eval S env) (other.eval S env) := by
  obtain ⟨length, hlength, -, -, heval⟩ := b.exists_strictCall "length" [other] .int none
  obtain ⟨part, hpart, -, -, heval'⟩ :=
    b.exists_strictCall side.function [subject, length] .string none
  refine ⟨b.equal part other, ?_, fun S env => ?_⟩
  · simp only [hasOnSide, h]
    rw [Attempt.outcome_bind_ok hlength, Attempt.outcome_bind_ok hpart]
    rfl
  · rw [Builder.equal, Builder.eval_binary, heval', List.map_cons, List.map_singleton, heval]
    rfl

/-- Both methods are translated by the one function for their side. -/
theorem translate_method {m : Method} (hm : Known.identify? m = some (.text side.method))
    (subject other : Sql) :
    (translator b).translate ⟨some subject, m, [other]⟩ = hasOnSide b side subject other := by
  cases side with
  | start =>
    simp only [translator, hm]
    rfl
  | finish =>
    simp only [translator, hm]
    rfl

/-- `StartsWith` and `EndsWith` are exact, whatever characters the texts consist of. With a constant
they become a `LIKE` whose pattern, which does not end in its escape character, matches just the
texts that have the constant on the side; with anything else, a comparison that is true of the same
texts. This is what the translator for texts makes of a call, and all the translators together. -/
theorem affix_tests {m : Method} (hm : Known.identify? m = some (.text side.method))
    (subject : Sql) :
    (∀ part ty mapping,
      let call : ScalarCall := ⟨some subject, m, [.const (.string part) ty mapping]⟩
      let pattern := side.pattern part
      ∃ s, ((translator b).translate call).outcome = .ok s ∧
        (∀ options added,
          (ScalarTranslator.firstOf (builtIn b options ++ added) call).outcome = .ok s) ∧
        s = b.like subject (b.text pattern) (some (b.text (String.singleton likeEscape))) false ∧
        (Like.items? (some likeEscape) pattern.toList).isSome = true ∧
        ∀ S alike, S.LikeRules alike →
          s.TestsAffix S side subject (.const (.string part) ty mapping)) ∧
    ∀ other, other.value? = none →
      let call : ScalarCall := ⟨some subject, m, [other]⟩
      ∃ s, ((translator b).translate call).outcome = .ok s ∧
        (∀ options added,
          (ScalarTranslator.firstOf (builtIn b options ++ added) call).outcome = .ok s) ∧
        (∀ S env, s.eval S env = comparison S side (subject.eval S env) (other.eval S env)) ∧
        ∀ S : Server, S.TextRules → s.TestsAffix S side subject other := by
  constructor
  · intro part ty mapping call pattern
    have h : ((translator b).translate call).outcome = .ok (likeOnSide b side subject part) := by
      rw [translate_method hm]
      rfl
    refine ⟨_, h,
      fun _ added => outcome_firstOf_builtIn (f := .texts) h added, rfl, ?_, ?_⟩
    · rw [Side.items?_pattern]
      rfl
    · exact fun S alike hS => testsAffix_likeOnSide hS subject part ty mapping
  · intro other hother call
    obtain ⟨s, hs, hcompares⟩ := exists_comparison b side subject hother
    have h : ((translator b).translate call).outcome = .ok s := by
      rw [translate_method hm]
      exact hs
    exact ⟨s, h, fun _ added => outcome_firstOf_builtIn (f := .texts) h added, hcompares,
      fun S hS => testsAffix_of_comparison hS (hcompares S)⟩

/-- Names with wildcards and backslashes in them, which stand for themselves in a constant. -/
theorem affix_of_discount :
    let m := Known.close (.text .startsWith) []
    let name : Sql := .column ⟨none, "name"⟩ false .string none
    let other : Sql := .column ⟨none, "other"⟩ false .string none
    let part := "50%_off\\"
    let row (s : String) : Env := ⟨fun _ => .null,
      fun ref => .text (if ref.name = "name" then s else part), fun _ _ _ _ => .null⟩
    Known.identify? m = some (.text Side.start.method) ∧
      Server.texts.LikeRules Server.Reference.isSameLetter ∧ Server.texts.TextRules ∧
      ∃ b s s', Builder.ofCatalog Catalog.standard = .ok b ∧
        ((translator b).translate ⟨some name, m, [.const (.string part) .string none]⟩).outcome =
          .ok s ∧
        ((translator b).translate ⟨some name, m, [other]⟩).outcome = .ok s' ∧
        ∀ x ∈ [s, s'], x.eval Server.texts (row "50%_off\\ today") = .truth true ∧
          x.eval Server.texts (row "50%-off\\ today") ≠ .truth true := by
  intro m name other part row
  let b : Builder := ⟨Catalog.standard, .scalar "boolean" .bool, .scalar "integer" .int⟩
  have hm : Known.identify? m = some (.text Side.start.method) := rfl
  obtain ⟨hconst, hother⟩ := affix_tests (b := b) hm name
  obtain ⟨s, hs, -, -, -, htests⟩ := hconst part .string none
  obtain ⟨s', hs', -, -, htests'⟩ := hother other rfl
  have hlike := htests _ _ Server.likeRules_texts
  have hcut := htests' _ Server.textRules_texts
  have hyes : Side.start.IsAffix part "50%_off\\ today" := by decide
  have hno : ¬ Side.start.IsAffix part "50%-off\\ today" := by decide
  refine ⟨hm, Server.likeRules_texts, Server.textRules_texts, b, s, s', rfl, hs, hs', ?_⟩
  refine List.forall_mem_cons.mpr ⟨?_, List.forall_mem_singleton.mpr ?_⟩
  · exact ⟨(hlike (row _) _ _ rfl rfl).mpr hyes, fun h => hno ((hlike (row _) _ _ rfl rfl).mp h)⟩
  · exact ⟨(hcut (row _) _ _ rfl rfl).mpr hyes, fun h => hno ((hcut (row _) _ _ rfl rfl).mp h)⟩

end Scalar.Texts

/-! ## Calls in a query -/

/-- A call of one of the two methods in a query becomes the test over the translated texts. -/
theorem Translator.translate_affix {columns : ColumnLookup} {options : Options} {catalog : Catalog}
    {added : List ScalarTranslator} {t : Translator}
    (ht : (postgres columns options catalog added).outcome = .ok t) {side : Side} {m : Method}
    (hm : Known.identify? m = some (.text side.method)) {e a : Expr} {subject other s : Sql}
    (he : (t.translate e).outcome = .ok subject) (ha : (t.translate a).outcome = .ok other)
    (hs : (Scalar.Texts.hasOnSide t.provider.builder side subject other).outcome = .ok s) :
    (t.translate (.call m (some e) [a])).outcome = .ok s := by
  obtain ⟨b, p, -, -, rfl⟩ := of_postgres ht
  let r : Relational := ⟨b, Scalar.builtIn b options ++ added, columns⟩
  have hcall :
      ((Scalar.Texts.translator b).translate ⟨some subject, m, [other]⟩).outcome = .ok s := by
    rw [Scalar.Texts.translate_method hm]
    exact hs
  have hreceiver : (Relational.receiverOf (p.run r) (some e)).outcome = .ok (some subject) :=
    Attempt.outcome_bind_ok he _
  have hargs : (Attempt.all (p.run r) [a]).outcome = .ok [other] :=
    Attempt.outcome_all_cons ha rfl
  exact Postgres.outcome_call_of_family rfl hm nofun nofun hreceiver hargs (f := .texts) hcall

end QuerySql
