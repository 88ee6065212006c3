import Mathlib.Data.Nat.Bitwise
import QuerySql.Proofs.Families

/-!
# Modes of a regular expression

The options of a query ask for a mode of matching, and a match in PostgreSQL has one: by its
operator, which heeds letter case or not, and by the letters that are written in front of the
pattern. A match is translated just if all its options are known, and then it has the mode that was
asked for, but for the dot: where `^` and `$` are to match at line breaks, the dot matches none,
although there is a letter for both.

* `Regex.Flag`: the options that are known, `Regex.Options.mode`: the mode that they ask for.
* `Regex.Mode.ofFlags?` reads the letters in front of a pattern.
* `Regex.Options.without_supported_eq_none_iff`: which options are left to a match.
* `Regex.Options.ofFlags?_embeddedFlags`: the mode that is written.
* `Translator.regex_mode_iff`, and `Translator.dot_at_lines`, where the two modes differ.
-/

namespace QuerySql.Regex

/-! ## Bits -/

/-- The options that a match may carry. -/
inductive Flag where
  | ignoreCase | multiline | compiled | singleline | ignorePatternWhitespace | cultureInvariant
  deriving DecidableEq

namespace Flag

/-- The place of its bit in a word of options. -/
def bit : Flag → Nat
  | ignoreCase => 0
  | multiline => 1
  | compiled => 3
  | singleline => 4
  | ignorePatternWhitespace => 5
  | cultureInvariant => 9

/-- All flags, in the order of their bits. -/
def all : List Flag :=
  [ignoreCase, multiline, compiled, singleline, ignorePatternWhitespace, cultureInvariant]

end Flag

namespace Options

/-- Whether the bit at a place is set. -/
def hasBit (o : Options) (i : Nat) : Bool := o.word.toNat.testBit i

/-- Whether the option is one of them. -/
def has (o : Options) (f : Flag) : Bool := o.hasBit f.bit

/-- Whether no bit is set but those of flags. -/
def OnlyFlags (o : Options) : Prop := ∀ i, o.hasBit i = true → ∃ f : Flag, f.bit = i

theorem hasBit_eq_getLsbD (o : Options) (i : Nat) : o.hasBit i = o.word.toBitVec.getLsbD i := rfl

theorem hasBit_without (a b : Options) (i : Nat) :
    (a.without b).hasBit i = (a.hasBit i && !b.hasBit i) := by
  simp only [hasBit_eq_getLsbD, without, UInt32.toBitVec_and, UInt32.toBitVec_not,
    BitVec.getLsbD_and, BitVec.getLsbD_not]
  by_cases hi : i < 32
  · simp only [hi, decide_true, Bool.true_and]
  · rw [BitVec.getLsbD_of_ge _ _ (by omega), Bool.false_and, Bool.false_and]

theorem eq_none_iff {o : Options} : o = none ↔ ∀ i, o.hasBit i = false := by
  constructor
  · rintro rfl i
    exact Nat.zero_testBit i
  · intro h
    have hzero : o.word.toNat = 0 := Nat.zero_of_testBit_eq_false h
    have hword : o.word = 0 := UInt32.toNat_inj.mp hzero
    exact congrArg mk hword

/-- A set of one option is among others just if its bit is set. -/
theorem contains_eq_hasBit {o b : Options} {i : Nat} (h : b.word.toNat = 2 ^ i) :
    o.contains b = o.hasBit i := by
  have hand : (o.word &&& b.word = b.word) ↔ o.hasBit i = true := by
    rw [← UInt32.toNat_inj, UInt32.toNat_and, h, Nat.and_two_pow, hasBit]
    cases o.word.toNat.testBit i with
    | false =>
      rw [Bool.toNat_false, Nat.zero_mul]
      exact ⟨fun heq => absurd heq (Nat.two_pow_pos i).ne, nofun⟩
    | true => exact ⟨fun _ => rfl, fun _ => Nat.one_mul _⟩
  rw [contains, Bool.eq_iff_iff, decide_eq_true_iff, hand]

/-- The supported options are the flags, and no more. -/
theorem hasBit_supported {i : Nat} : supported.hasBit i = true ↔ ∃ f : Flag, f.bit = i := by
  constructor
  · intro h
    have hi : i < 32 := by
      by_contra hi
      rw [hasBit_eq_getLsbD, BitVec.getLsbD_of_ge _ _ (by omega)] at h
      cases h
    have hbits : ∀ i < 32, supported.hasBit i = true → ∃ f ∈ Flag.all, f.bit = i := by decide
    obtain ⟨f, -, hf⟩ := hbits i hi h
    exact ⟨f, hf⟩
  · rintro ⟨f, rfl⟩
    cases f <;> decide

/-- Nothing is left without the options that a match may carry just if there are no others. -/
theorem without_supported_eq_none_iff {o : Options} : o.without supported = none ↔ o.OnlyFlags := by
  rw [eq_none_iff]
  refine forall_congr' fun i => ?_
  rw [hasBit_without, ← hasBit_supported]
  cases o.hasBit i <;> cases supported.hasBit i <;> decide

/-- Options that change nothing are no others. -/
theorem has_without_inert (o : Options) {f : Flag} (h : inert.hasBit f.bit = false) :
    (o.without inert).has f = o.has f := by
  rw [has, hasBit_without, h, Bool.not_false, Bool.and_true, has]

end Options

/-! ## Modes -/

/-- How a regular expression is matched. -/
structure Mode where
  /-- Letter case makes no difference. -/
  ignoresCase : Bool
  /-- Blanks and comments in the pattern are passed over. -/
  expanded : Bool
  /-- `^` and `$` match at line breaks, and not only at the ends of the text. -/
  anchorsAtLines : Bool
  /-- The dot matches a line break. -/
  dotMatchesBreak : Bool
  deriving DecidableEq

/-- The mode that options ask for. -/
def Options.mode (o : Options) : Mode where
  ignoresCase := o.has .ignoreCase
  expanded := o.has .ignorePatternWhitespace
  anchorsAtLines := o.has .multiline
  dotMatchesBreak := o.has .singleline

namespace Mode

/-- The mode of an operator without letters in front of the pattern. -/
def ofOperator (ignoresCase : Bool) : Mode := ⟨ignoresCase, false, false, true⟩

/-- What a letter in front of the pattern turns the mode into. -/
def withLetter? (mode : Mode) : Char → Option Mode
  | 'n' => some { mode with anchorsAtLines := true, dotMatchesBreak := false }
  | 'p' => some { mode with anchorsAtLines := false, dotMatchesBreak := false }
  | 'w' => some { mode with anchorsAtLines := true, dotMatchesBreak := true }
  | 'x' => some { mode with expanded := true }
  | _ => none

/-- What letters up to a closing parenthesis turn the mode into. -/
def withLetters? (mode : Mode) : List Char → Option Mode
  | [] => none
  | [')'] => some mode
  | c :: s => (mode.withLetter? c).bind fun mode => withLetters? mode s

/-- The mode that an operator has with letters in front of the pattern. -/
def ofFlags? (ignoresCase : Bool) (flags : String) : Option Mode :=
  match flags.toList with
  | '(' :: '?' :: s => withLetters? (ofOperator ignoresCase) s
  | _ => none

end Mode

namespace Options

/-- The mode that is written. Where `^` and `$` match at line breaks, the dot matches none. -/
theorem ofFlags?_embeddedFlags (o : Options) :
    Mode.ofFlags? o.isCaseInsensitive o.embeddedFlags =
      some { o.mode with dotMatchesBreak := o.has .singleline && !o.has .multiline } := by
  have hignoreCase : o.isCaseInsensitive = o.has .ignoreCase := contains_eq_hasBit rfl
  have hmultiline : o.contains multiline = o.has .multiline := contains_eq_hasBit rfl
  have hsingleline : o.contains singleline = o.has .singleline := contains_eq_hasBit rfl
  have hblanks : o.contains ignorePatternWhitespace = o.has .ignorePatternWhitespace :=
    contains_eq_hasBit rfl
  simp only [embeddedFlags, hignoreCase, hmultiline, hsingleline, hblanks, mode]
  generalize o.has .ignoreCase = i
  generalize o.has .multiline = m
  generalize o.has .singleline = s
  generalize o.has .ignorePatternWhitespace = x
  revert i m s x
  decide

end Options

end QuerySql.Regex

namespace QuerySql

/-- The mode of a match with a regular expression. -/
def Sql.regexMode? : Sql → Option Regex.Mode
  | regexMatch o _ _ _ => Regex.Mode.ofFlags? o.isCaseInsensitive o.embeddedFlags
  | _ => none

/-! ## Translators -/

namespace Scalar.Patterns

variable {b : Builder} {subject pattern : Sql} {o : Regex.Options}

/-- A match is built if no option is set but flags, and the inert ones of these are dropped. -/
theorem outcome_regexMatch_eq_ok {s : Sql} :
    (regexMatch b subject pattern o).outcome = .ok s ↔
      o.OnlyFlags ∧ s = b.regexMatch subject pattern (o.without .inert) := by
  unfold regexMatch
  split
  next h => exact ⟨nofun, fun hs => absurd (Regex.Options.without_supported_eq_none_iff.mpr hs.1) h⟩
  next h =>
    have hflags := Regex.Options.without_supported_eq_none_iff.mp (not_not.mp h)
    rw [Run.outcome_pure, Except.ok.injEq, eq_comm]
    exact (and_iff_right hflags).symm

/-- The mode asked for is written, but for the dot where both options that clash are set. -/
theorem regexMode?_regexMatch :
    (b.regexMatch subject pattern (o.without .inert)).regexMode? =
      some { o.mode with dotMatchesBreak := o.has .singleline && !o.has .multiline } := by
  have hkept {f : Regex.Flag} (h : Regex.Options.inert.hasBit f.bit = false) :=
    Regex.Options.has_without_inert o h
  show Regex.Mode.ofFlags? _ _ = _
  rw [Regex.Options.ofFlags?_embeddedFlags]
  simp only [Regex.Options.mode, hkept (f := .ignoreCase) (by decide),
    hkept (f := .multiline) (by decide), hkept (f := .singleline) (by decide),
    hkept (f := .ignorePatternWhitespace) (by decide)]

end Scalar.Patterns

namespace Postgres

variable {p : Postgres} {r : Relational} {options : Options} {added : List ScalarTranslator}
  {m : Method} {o : Regex.Options}

/-- A match with constant options is made of what its operands are translated to, just if no other
options are set than those that a match may carry. -/
theorem outcome_regexIsMatch_eq_ok
    (hscalars : r.scalars = Scalar.builtIn r.builder options ++ added)
    (hm : Known.identify? m = some (.regexIsMatch true))
    (hadded : ∀ t ∈ added, ∀ c : ScalarCall, c.method = m → (t.translate c).Fails)
    (input pattern : Expr) (ty : Ty) (s : Sql) :
    (p.run r (.call m none [input, pattern, .const (.regexOptions o) ty])).outcome = .ok s ↔
      ∃ x y, (p.run r input).outcome = .ok x ∧ (p.run r pattern).outcome = .ok y ∧
        o.OnlyFlags ∧ s = r.builder.regexMatch x y (o.without .inert) := by
  let flags : Sql := r.builder.typedConst (.regexOptions o) ty none
  have hflags : (p.run r (.const (.regexOptions o) ty)).outcome = .ok flags := by
    rw [run_const]
    rfl
  have hlambda : ∀ q, Known.regexIsMatch true ≠ .sequence q := by
    rintro q ⟨⟩
  have hequals : Known.regexIsMatch true ≠ .objectEquals := by
    rintro ⟨⟩
  have htranslate (x y : Sql) :
      ((Scalar.Patterns.regexTranslator r.builder).translate ⟨none, m, [x, y, flags]⟩).outcome =
        (Scalar.Patterns.regexMatch r.builder x y o).outcome := by
    simp only [Scalar.Patterns.regexTranslator, hm]
    rfl
  constructor
  · intro hs
    rw [outcome_call_of_known hm hlambda hequals] at hs
    obtain ⟨x, hx, hs⟩ := Run.outcome_bind_eq_ok.mp hs
    obtain ⟨xs, hxs, hs⟩ := Run.outcome_bind_eq_ok.mp hs
    cases hx
    -- The arguments are translated one by one, and the options to a constant.
    obtain ⟨g, rfl, hg⟩ := Attempt.exists_map_of_all (.const .null .object none) hxs
    have hinput := hg input List.mem_cons_self
    have hpattern := hg pattern (List.mem_cons_of_mem _ List.mem_cons_self)
    have hsame : g (.const (.regexOptions o) ty) = flags :=
      Except.ok.inj ((hg _ (by simp)).symm.trans hflags)
    have hcall : ScalarCall.family? ⟨none, m, [g input, g pattern, flags]⟩ = some .regex :=
      (ScalarCall.family?_of_known (c := ⟨none, m, [g input, g pattern, flags]⟩) hm).trans rfl
    have hfails := ScalarTranslator.fails_firstOf fun t ht =>
      hadded t ht ⟨none, m, [g input, g pattern, flags]⟩ rfl
    rw [List.map_cons, List.map_cons, List.map_singleton, hsame, hscalars,
      Scalar.outcome_firstOf_of_family hcall] at hs
    -- No translator that was added takes the call, so the one for matches did.
    have hfound := (Attempt.outcome_orElse_eq_ok hs).resolve_right (hfails s)
    have hmatch := (htranslate (g input) (g pattern)).symm.trans hfound
    exact ⟨_, _, hinput, hpattern, Scalar.Patterns.outcome_regexMatch_eq_ok.mp hmatch⟩
  · rintro ⟨x, y, hx, hy, honly, rfl⟩
    have hargs : (Attempt.all (p.run r)
        [input, pattern, .const (.regexOptions o) ty]).outcome = .ok [x, y, flags] :=
      Attempt.outcome_all_cons hx
        (Attempt.outcome_all_cons hy (Attempt.outcome_all_cons hflags rfl))
    refine outcome_call_of_family hscalars hm hlambda hequals rfl hargs (f := .regex) ?_
    exact (htranslate x y).trans (Scalar.Patterns.outcome_regexMatch_eq_ok.mpr ⟨honly, rfl⟩)

end Postgres

namespace Translator

variable {columns : ColumnLookup} {options : Options} {catalog : Catalog}
  {added : List ScalarTranslator} {t : Translator} {m : Method}

/-- A match with options is translated just if its operands are and all options are known ones. It
has the mode that the options ask for, and the dot matches a line break as it should, unless `^` and
`$` are to match there too. -/
theorem regex_mode_iff (ht : (postgres columns options catalog added).outcome = .ok t)
    (hm : Known.identify? m = some (.regexIsMatch true))
    (hadded : ∀ s ∈ added, ∀ c : ScalarCall, c.method = m → (s.translate c).Fails)
    (input pattern : Expr) (o : Regex.Options) (ty : Ty) :
    let call : Expr := .call m none [input, pattern, .const (.regexOptions o) ty]
    ((∃ s, (t.translate call).outcome = .ok s) ↔
      (∃ x, (t.translate input).outcome = .ok x) ∧ (∃ y, (t.translate pattern).outcome = .ok y) ∧
        o.OnlyFlags) ∧
      ∀ s, (t.translate call).outcome = .ok s → ∃ mode, s.regexMode? = some mode ∧
        mode.ignoresCase = o.has .ignoreCase ∧
        mode.expanded = o.has .ignorePatternWhitespace ∧
        mode.anchorsAtLines = o.has .multiline ∧
        (mode.dotMatchesBreak = o.has .singleline ↔
          ¬ (o.has .multiline = true ∧ o.has .singleline = true)) := by
  obtain ⟨b, p, -, -, rfl⟩ := of_postgres ht
  let r : Relational := ⟨b, Scalar.builtIn b options ++ added, columns⟩
  have hcall := Postgres.outcome_regexIsMatch_eq_ok (p := p) (r := r) (o := o) rfl hm hadded input
    pattern ty
  refine ⟨⟨?_, ?_⟩, fun s hs => ?_⟩
  · rintro ⟨s, hs⟩
    obtain ⟨x, y, hx, hy, honly, -⟩ := (hcall s).mp hs
    exact ⟨⟨x, hx⟩, ⟨y, hy⟩, honly⟩
  · rintro ⟨⟨x, hx⟩, ⟨y, hy⟩, honly⟩
    exact ⟨_, (hcall _).mpr ⟨x, y, hx, hy, honly, rfl⟩⟩
  · obtain ⟨x, y, -, -, -, rfl⟩ := (hcall s).mp hs
    refine ⟨_, Scalar.Patterns.regexMode?_regexMatch, rfl, rfl, rfl, ?_⟩
    -- The dot is as it should be except where both options are set, which excludes line breaks.
    show (o.has .singleline && !o.has .multiline) = o.has .singleline ↔ _
    cases o.has .multiline <;> cases o.has .singleline <;> decide

/-- A name and a pattern. -/
def patternedColumns : ColumnLookup := fun _ name => some { name := name, ty := .string }

/-- The match of the name with the pattern, under options. -/
def nameMatches (o : Regex.Options) : Expr :=
  .call (Known.close (.regexIsMatch true) []) none
    [.property none "name" .string, .property none "pattern" .string,
      .const (.regexOptions o) .regexOptions]

/-- A compiled pattern with blanks and lines, of either letter case. -/
theorem name_matches_lines :
    ∃ t s, (postgres patternedColumns {} Catalog.standard []).outcome = .ok t ∧
      (t.translate (nameMatches ⟨43⟩)).outcome = .ok s ∧
      s.regexMode? = some ⟨true, true, true, false⟩ := by
  obtain ⟨t, ht, hfound⟩ := exists_translations (postgres patternedColumns {} Catalog.standard [])
    [(.property none "name" .string, fun _ => true),
      (.property none "pattern" .string, fun _ => true)] (by decide +kernel)
  obtain ⟨x, hx, -⟩ := hfound _ _ (.head _)
  obtain ⟨y, hy, -⟩ := hfound _ _ (.tail _ (.head _))
  have honly : Regex.Options.OnlyFlags ⟨43⟩ :=
    Regex.Options.without_supported_eq_none_iff.mp (by decide)
  obtain ⟨htranslated, hmode⟩ := regex_mode_iff ht (m := Known.close (.regexIsMatch true) []) rfl
    nofun (.property none "name" .string) (.property none "pattern" .string) ⟨43⟩ .regexOptions
  obtain ⟨s, hs⟩ := htranslated.mpr ⟨⟨x, hx⟩, ⟨y, hy⟩, honly⟩
  obtain ⟨⟨i, w, l, d⟩, hread, hi, hw, hl, hd⟩ := hmode s hs
  obtain rfl : i = true := hi
  obtain rfl : w = true := hw
  obtain rfl : l = true := hl
  obtain rfl : d = false := hd.mpr nofun
  exact ⟨t, s, ht, hs, hread⟩

/-- With `^` and `$` at line breaks and a dot that is to match them, the dot matches none. -/
theorem dot_at_lines :
    let o : Regex.Options := ⟨18⟩
    ∃ t s, (postgres patternedColumns {} Catalog.standard []).outcome = .ok t ∧
      (t.translate (nameMatches o)).outcome = .ok s ∧ o.OnlyFlags ∧
      o.mode = ⟨false, false, true, true⟩ ∧ s.regexMode? = some ⟨false, false, true, false⟩ := by
  intro o
  obtain ⟨t, s, ht, hs, hmode⟩ := exists_translation
    (postgres patternedColumns {} Catalog.standard []) (nameMatches o)
    (fun s => s.regexMode? == some ⟨false, false, true, false⟩) (by decide +kernel)
  have honly : o.OnlyFlags := Regex.Options.without_supported_eq_none_iff.mp (by decide)
  exact ⟨t, s, ht, hs, honly, by decide, beq_iff_eq.mp hmode⟩

end Translator

end QuerySql
