import QuerySql.Proofs.Affixes
import QuerySql.Proofs.Composite

/-!
# `StartsWith` and `EndsWith` in the composite translator

The composite translator compares the beginning or the end of a text by a pattern that the server
puts together, and escapes nothing in it. So the comparison is exact for a text in which every
character stands for itself, and for no other text.

* `Like.sample_of_items?`: a text that a pattern matches and that is no longer than the pattern.
* `Scalar.Composite.accepts_unescaped_iff`: which texts may be put in a pattern as they are.
* `Scalar.Composite.unescaped_affix`: what the translator makes of the two methods, and
  `Scalar.Composite.ab_starts_with_wildcard`, where it is not what they mean.
-/

namespace QuerySql

/-! ## Patterns in which nothing is escaped -/

namespace Like

/-- The character stands for itself in a pattern. -/
def IsPlain (c : Char) : Prop := c ≠ '%' ∧ c ≠ '_' ∧ c ≠ defaultEscape

instance (c : Char) : Decidable (IsPlain c) := inferInstanceAs (Decidable (_ ∧ _))

/-- Few characters that match the item, other than the wildcard itself. -/
def Item.sample : Item → List Char
  | char c => [c]
  | one => ['x']
  | run => []

/-- A text that the items match. -/
def sample (items : List Item) : List Char := items.flatMap Item.sample

/-- A pattern matches its own sample. -/
theorem matches_sample (items : List Item) : Matches (· == ·) items (sample items) := by
  induction items with
  | nil => exact .nil
  | cons item items ih =>
    cases item with
    | char c => exact .char (beq_self_eq_true c) ih
    | one => exact .one _ ih
    | run => exact .run [] ih

/-- A character that is not escaped makes the sample no longer, and no other one begins with it
than one that stands for itself. -/
theorem sample_ofChar_cons {c : Char} (hc : c ≠ defaultEscape) {items : List Item} {cs : List Char}
    (hle : (sample items).length ≤ cs.length) (hplain : sample items = cs → ∀ d ∈ cs, IsPlain d) :
    (sample (.ofChar c :: items)).length ≤ (c :: cs).length ∧
      (sample (.ofChar c :: items) = c :: cs → ∀ d ∈ c :: cs, IsPlain d) := by
  unfold Item.ofChar
  split
  next =>
    refine ⟨Nat.le_succ_of_le hle, fun heq => ?_⟩
    have hlength : (sample items).length = (c :: cs).length := congrArg List.length heq
    rw [List.length_cons] at hlength
    omega
  split
  next hunderscore =>
    refine ⟨Nat.succ_le_succ hle, fun heq => ?_⟩
    have hx : 'x' = c := (List.cons.inj heq).1
    rw [hunderscore] at hx
    cases hx
  next hpercent hunderscore =>
    refine ⟨Nat.succ_le_succ hle, fun heq => ?_⟩
    exact List.forall_mem_cons.mpr
      ⟨⟨hpercent, hunderscore, hc⟩, hplain (List.cons.inj heq).2⟩

/-- The items of a text, with a wildcard after it or not, match a text that is as long at most. It
is another one unless all characters stand for themselves. -/
theorem sample_of_items? {tail : List Char} (htail : tail = [] ∨ tail = ['%']) {cs : List Char}
    {items : List Item} (h : items? (some defaultEscape) (cs ++ tail) = some items) :
    (sample items).length ≤ cs.length ∧ (sample items = cs → ∀ c ∈ cs, IsPlain c) := by
  have hnil {items : List Item} (h : items? (some defaultEscape) ([] ++ tail) = some items) :
      sample items = [] := by
    rcases htail with rfl | rfl
    · cases h
      rfl
    · cases h
      rfl
  induction cs using items?.induct (some defaultEscape) generalizing items with
  | case1 =>
    rw [hnil h]
    exact ⟨Nat.le_refl 0, fun _ => nofun⟩
  -- The escape character at the very end escapes the wildcard, if there is one.
  | case2 c hc =>
    cases hc
    rcases htail with rfl | rfl
    · cases h
    · cases h
      exact ⟨Nat.le_refl 1, nofun⟩
  | case3 c hc =>
    have hc' : c ≠ defaultEscape := fun heq => hc (congrArg some heq.symm)
    rw [List.cons_append, items?_cons hc] at h
    obtain ⟨rest, hrest, rfl⟩ := Option.map_eq_some_iff.mp h
    exact sample_ofChar_cons hc' (Nat.le_of_eq (congrArg List.length (hnil hrest))) fun _ => nofun
  | case4 c d cs hc ih =>
    cases hc
    rw [List.cons_append, List.cons_append, items?_escaped] at h
    obtain ⟨rest, hrest, rfl⟩ := Option.map_eq_some_iff.mp h
    -- An escaped character: two characters are read and one is matched, so the sample is shorter.
    obtain ⟨hle, -⟩ := ih hrest
    have hlength : (sample (.char d :: rest)).length = (sample rest).length + 1 := rfl
    refine ⟨?_, fun heq => ?_⟩
    · rw [hlength, List.length_cons, List.length_cons]
      omega
    · rw [heq, List.length_cons, List.length_cons] at hlength
      omega
  | case5 c d cs hc ih =>
    have hc' : c ≠ defaultEscape := fun heq => hc (congrArg some heq.symm)
    rw [List.cons_append, items?_cons hc] at h
    obtain ⟨rest, hrest, rfl⟩ := Option.map_eq_some_iff.mp h
    obtain ⟨hle, hplain⟩ := ih hrest
    exact sample_ofChar_cons hc' hle hplain

end Like

open Scalar.Texts (Side escapePattern likeEscape)

/-- There is nothing to escape in a plain text. -/
theorem Scalar.Texts.escapePattern_of_plain {cs : List Char} (h : ∀ c ∈ cs, Like.IsPlain c) :
    escapePattern cs = cs := by
  induction cs with
  | nil => rfl
  | cons c cs ih =>
    obtain ⟨⟨hpercent, hunderscore, hescape⟩, hcs⟩ := List.forall_mem_cons.mp h
    rw [escapePattern, if_neg (by simp only [not_or]; exact ⟨hpercent, hunderscore, hescape⟩),
      ih hcs]

namespace Scalar.Composite

/-- The pattern for the side, in which nothing is escaped. -/
def unescaped (side : Side) (part : String) : String :=
  match side with
  | .start => part ++ "%"
  | .finish => "%" ++ part

/-- The sample of an unescaped pattern is no longer than the text, and it is the text only if all
characters stand for themselves. -/
theorem sample_of_unescaped {side : Side} {part : String} {items : List Like.Item}
    (h : Like.items? (some Like.defaultEscape) (unescaped side part).toList = some items) :
    (Like.sample items).length ≤ part.toList.length ∧
      (Like.sample items = part.toList → ∀ c ∈ part.toList, Like.IsPlain c) := by
  cases side with
  | start =>
    rw [unescaped, String.toList_append] at h
    exact Like.sample_of_items? (.inr rfl) h
  | finish =>
    rw [unescaped, String.toList_append] at h
    have hcons : "%".toList ++ part.toList = '%' :: part.toList := rfl
    rw [hcons, Like.items?_cons (by decide), ← List.append_nil part.toList] at h
    obtain ⟨rest, hrest, rfl⟩ := Option.map_eq_some_iff.mp h
    have hsample := Like.sample_of_items? (.inl rfl) hrest
    exact hsample

/-- A text that has another one at its start or end, and is no longer than it, is that text. -/
theorem Side.eq_of_isAffix {side : Side} {part whole : String} (h : side.IsAffix part whole)
    (hle : whole.toList.length ≤ part.toList.length) : whole.toList = part.toList := by
  cases side with
  | start => exact (List.IsPrefix.eq_of_length_le h hle).symm
  | finish => exact (List.IsSuffix.eq_of_length_le h hle).symm

/-- Put in a pattern as it is, a text matches just the texts that have it on the side exactly if all
its characters stand for themselves. -/
theorem accepts_unescaped_iff (side : Side) (part : String) :
    (∀ whole, Like.accepts (· == ·) (some Like.defaultEscape) (unescaped side part) whole = true ↔
      side.IsAffix part whole) ↔
    ∀ c ∈ part.toList, Like.IsPlain c := by
  constructor
  · intro h
    cases hitems : Like.items? (some Like.defaultEscape) (unescaped side part).toList with
    | none =>
      -- The pattern ends in its escape character, and the text itself is not matched.
      have hself : side.IsAffix part part := by
        cases side with
        | start => exact List.prefix_refl _
        | finish => exact List.suffix_refl _
      obtain ⟨items, hsome, -⟩ := Like.accepts_eq_true.mp ((h part).mpr hself)
      cases hitems.symm.trans hsome
    | some items =>
      obtain ⟨hle, hplain⟩ := sample_of_unescaped hitems
      have htext : (String.ofList (Like.sample items)).toList = Like.sample items :=
        String.toList_ofList
      have hmatches : Like.Matches (· == ·) items (String.ofList (Like.sample items)).toList := by
        rw [htext]
        exact Like.matches_sample items
      have haffix := (h _).mp (Like.accepts_eq_true.mpr ⟨items, hitems, hmatches⟩)
      rw [← htext] at hle hplain
      exact hplain (Side.eq_of_isAffix haffix hle)
  · intro hplain whole
    have hpattern : unescaped side part = side.pattern part := by
      rw [← String.toList_inj]
      cases side with
      | start =>
        rw [Side.pattern, Texts.escapePattern_of_plain hplain, String.toList_ofList, unescaped,
          String.toList_append]
        rfl
      | finish =>
        rw [Side.pattern, Texts.escapePattern_of_plain hplain, String.toList_ofList, unescaped,
          String.toList_append]
        rfl
    rw [hpattern]
    exact Side.accepts_pattern

/-! ## What the translator builds -/

/-- The match with a pattern that is put together when the query runs. -/
def likeUnescaped (b : Builder) (side : Side) (subject other : Sql) : Sql :=
  let pattern := match side with
    | .start => b.binary .add other (b.text "%") none
    | .finish => b.binary .add (b.text "%") other none
  b.like subject pattern none false

end Scalar.Composite

/-- Adding a text to another one puts the two together. -/
def Server.Concatenates (S : Server) : Prop :=
  ∀ s t, S.binary .add (.text s) (.text t) = .text (s ++ t)

/-- On the server the tree tests a side of the subject for the other text where all characters of
that one stand for themselves. No other text is tested for exactly, in rows that differ in the
subject. -/
structure Sql.TestsPlainAffix (s : Sql) (S : Server) (side : Side) (subject other : Sql) :
    Prop where
  of_plain : ∀ env whole part, subject.eval S env = .text whole → other.eval S env = .text part →
    (∀ c ∈ part.toList, Like.IsPlain c) → (s.eval S env = .truth true ↔ side.IsAffix part whole)
  plain_of : ∀ (row : String → Env) part,
    (∀ whole, subject.eval S (row whole) = .text whole ∧
      other.eval S (row whole) = .text part) →
    (∀ whole, s.eval S (row whole) = .truth true ↔ side.IsAffix part whole) →
    ∀ c ∈ part.toList, Like.IsPlain c

namespace Scalar.Composite

variable {b : Builder} {side : Side} {S : Server} {alike : Char → Char → Bool}

/-- The match that is built is with the text as the pattern, by the rules for escaping that the
server has. -/
theorem eval_likeUnescaped (hS : S.LikeRules alike) (hadd : S.Concatenates) {env : Env}
    {subject other : Sql} {whole part : String} (hsubject : subject.eval S env = .text whole)
    (hother : other.eval S env = .text part) :
    (likeUnescaped b side subject other).eval S env = .truth true ↔
      Like.accepts (· == ·) (some Like.defaultEscape) (unescaped side part) whole = true := by
  have hwildcard : (b.text "%").eval S env = .text "%" := rfl
  have hlike (pattern : Sql) (h : pattern.eval S env = .text (unescaped side part)) :
      (b.like subject pattern none false).eval S env = .truth true ↔
        Like.accepts (· == ·) (some Like.defaultEscape) (unescaped side part) whole = true := by
    rw [Builder.eval_like_default, hsubject, h]
    exact hS.like_default false whole _
  cases side with
  | start =>
    refine hlike _ ?_
    rw [Builder.eval_binary, hother, hwildcard]
    exact hadd part "%"
  | finish =>
    refine hlike _ ?_
    rw [Builder.eval_binary, hother, hwildcard]
    exact hadd "%" part

/-- On a plain text it is the test that it should be. -/
theorem testsPlainAffix_likeUnescaped (hS : S.LikeRules alike) (hadd : S.Concatenates)
    (subject other : Sql) :
    (likeUnescaped b side subject other).TestsPlainAffix S side subject other where
  of_plain env whole part hsubject hother hplain := by
    rw [eval_likeUnescaped hS hadd hsubject hother]
    exact (accepts_unescaped_iff side part).mpr hplain whole
  plain_of row part hrow htests := by
    refine (accepts_unescaped_iff side part).mp fun whole => ?_
    rw [← eval_likeUnescaped (b := b) hS hadd (hrow whole).1 (hrow whole).2]
    exact htests whole

/-- A text and a wildcard can be put together. -/
theorem outcome_affix {m : Method} (hm : Known.identify? m = some (.text side.method))
    (subject : Sql) {other : Sql} (hother : other.ty.stripNullable = .string) :
    ((translator b).translate ⟨some subject, m, [other]⟩).outcome =
      .ok (likeUnescaped b side subject other) := by
  have hbool : other.ty.isBool = false := by
    rw [Ty.isBool, hother]
    rfl
  -- A string is neither a truth value nor a tuple, so it can be added to.
  have htuple : other.ty.isTuple = false := by
    cases hty : other.ty with
    | atom =>
      rw [hty] at hother
      cases hother
      rfl
    | tuple =>
      rw [hty] at hother
      cases hother
    | _ => rfl
  have hwildcard : (b.text "%").ty = .string := rfl
  cases side with
  | start =>
    have hadds : b.binary? .add other (b.text "%") none =
        some (b.binary .add other (b.text "%") none) := by
      refine if_pos ?_
      simp only [Builder.isMeaningful, hwildcard, hbool, htuple]
      rfl
    rw [outcome_of_entry (entries_of_known rfl hm)]
    simp only [startsWithEntry, textEntry, hadds]
    rfl
  | finish =>
    have hadds : b.binary? .add (b.text "%") other none =
        some (b.binary .add (b.text "%") other none) := by
      refine if_pos ?_
      simp only [Builder.isMeaningful, hwildcard, hbool, htuple]
      rfl
    rw [outcome_of_entry (entries_of_known rfl hm)]
    simp only [endsWithEntry, textEntry, hadds]
    rfl

/-- With two texts a call of one of the two methods becomes a `LIKE`. It tests a side of the first
text for the second one where each character of the second one stands for itself in a pattern, and
tests exactly for no other text. -/
theorem unescaped_affix (b : Builder) {m : Method}
    (hm : Known.identify? m = some (.text side.method)) (subject : Sql) {other : Sql}
    (hother : other.ty.stripNullable = .string) :
    ∃ s, ((translator b).translate ⟨some subject, m, [other]⟩).outcome = .ok s ∧
      ∀ S alike, S.LikeRules alike → S.Concatenates → s.TestsPlainAffix S side subject other :=
  ⟨_, outcome_affix hm subject hother,
    fun _ _ hS hadd => testsPlainAffix_likeUnescaped hS hadd subject other⟩

end Scalar.Composite

/-! ## A name and a beginning of it -/

/-- An operator on two data, with texts put together. -/
def Server.Reference.addTexts : BinaryOp → Datum → Datum → Datum
  | .add, .text s, .text t => .text (s ++ t)
  | op, x, y => textBinary op x y

/-- The reference server with patterns and texts, which it can put together. -/
def Server.addedTexts : Server := { texts with binary := Reference.addTexts }

theorem Server.concatenates_addedTexts : addedTexts.Concatenates := fun _ _ => rfl

theorem Server.likeRules_addedTexts : addedTexts.LikeRules Reference.isSameLetter where
  alike_refl := likeRules_texts.alike_refl
  alike_percent := likeRules_texts.alike_percent
  like := likeRules_texts.like
  any_like := likeRules_texts.any_like
  all_like := likeRules_texts.all_like

namespace Scalar.Composite

/-- A row with a name, and what its beginning is compared with. -/
def nameRow (name part : String) : Env where
  param _ := .null
  column ref := .text (if ref.name = "name" then name else part)
  group _ _ _ _ := .null

/-- The test for whether a name starts with another text. -/
def startsWith (part : Sql) : ScalarCall :=
  ⟨some (.column ⟨none, "name"⟩ false .string none), Known.close (.text .startsWith) [], [part]⟩

/-- A beginning without wildcards. -/
theorem abc_starts_with_ab :
    let part : Sql := .column ⟨none, "part"⟩ false .string none
    let row := fun name => nameRow name "ab"
    ∃ b s, Builder.ofCatalog Catalog.standard = .ok b ∧
      ((translator b).translate (startsWith part)).outcome = .ok s ∧
      Server.addedTexts.LikeRules Server.Reference.isSameLetter ∧
      Server.addedTexts.Concatenates ∧
      s.eval Server.addedTexts (row "abc") = .truth true ∧
      s.eval Server.addedTexts (row "acb") ≠ .truth true := by
  intro part row
  let b : Builder := ⟨Catalog.standard, .scalar "boolean" .bool, .scalar "integer" .int⟩
  let name : Sql := .column ⟨none, "name"⟩ false .string none
  have hm : Known.identify? (Known.close (.text .startsWith) []) =
      some (.text Side.start.method) := rfl
  have hty : part.ty.stripNullable = .string := rfl
  obtain ⟨s, hs, htests⟩ := unescaped_affix b hm name hty
  have hplain := (htests _ _ Server.likeRules_addedTexts Server.concatenates_addedTexts).of_plain
  have hpart : ∀ c ∈ ['a', 'b'], Like.IsPlain c :=
    List.forall_mem_cons.mpr ⟨by decide, List.forall_mem_singleton.mpr (by decide)⟩
  have hyes : Side.start.IsAffix "ab" "abc" := by decide
  have hno : ¬ Side.start.IsAffix "ab" "acb" := by decide
  refine ⟨b, s, rfl, hs, Server.likeRules_addedTexts, Server.concatenates_addedTexts, ?_, ?_⟩
  · exact (hplain (row "abc") _ _ rfl rfl hpart).mpr hyes
  · exact fun h => hno ((hplain (row "acb") _ _ rfl rfl hpart).mp h)

/-- The name `ab` is said to start with `a_`, as the underscore is any one character. -/
theorem ab_starts_with_wildcard :
    let part : Sql := .column ⟨none, "part"⟩ false .string none
    ∃ b s, Builder.ofCatalog Catalog.standard = .ok b ∧
      ((translator b).translate (startsWith part)).outcome = .ok s ∧
      Server.addedTexts.LikeRules Server.Reference.isSameLetter ∧
      Server.addedTexts.Concatenates ∧
      s.eval Server.addedTexts (nameRow "ab" "a_") = .truth true ∧
      ¬ Side.start.IsAffix "a_" "ab" := by
  intro part
  let b : Builder := ⟨Catalog.standard, .scalar "boolean" .bool, .scalar "integer" .int⟩
  let name : Sql := .column ⟨none, "name"⟩ false .string none
  have hs : ((translator b).translate (startsWith part)).outcome =
      .ok (likeUnescaped b .start name part) := outcome_affix rfl name rfl
  have hsubject : name.eval Server.addedTexts (nameRow "ab" "a_") = .text "ab" := rfl
  have hpart : part.eval Server.addedTexts (nameRow "ab" "a_") = .text "a_" := rfl
  have haccepts : Like.accepts (· == ·) (some Like.defaultEscape) (unescaped .start "a_") "ab" =
      true := by decide +kernel
  refine ⟨b, _, rfl, hs, Server.likeRules_addedTexts, Server.concatenates_addedTexts, ?_,
    by decide⟩
  exact (eval_likeUnescaped Server.likeRules_addedTexts Server.concatenates_addedTexts hsubject
    hpart).mpr haccepts

end Scalar.Composite

end QuerySql
