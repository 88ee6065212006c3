import Mathlib.Data.Prod.Lex
import QuerySql.Options
import QuerySql.Proofs.StoreNames

/-!
# Texts of versions

A version is written as one number, or as two with a point between them, and with blanks around it.
Each number has at least one digit, may have a plus sign in front, and fits into 32 bits.

* `Numeral` and `Version.Written` say what is written, `number32?_eq_some_iff` and
  `Version.parse?_eq_some_iff` that just this is read.
* `Version.written_text`: what a version is written as is one of its texts.
* `Version.ofString_reads`: which texts are read, what is said of the others, that written versions
  are read back, and that versions are compared by their numbers in order.
-/

namespace QuerySql

namespace Text

/-- What trimming takes off a text is blanks at its ends. -/
theorem exists_append_trim_append (s : List Char) :
    ∃ front back, AllBlank front ∧ AllBlank back ∧ s = front ++ trim s ++ back := by
  obtain ⟨back, hback, hend⟩ := exists_trimEnd_append (trimStart s)
  have hfront : AllBlank (s.takeWhile isBlank) := fun c hc => List.mem_takeWhile_imp hc
  refine ⟨_, back, hfront, hback, ?_⟩
  rw [List.append_assoc, trim, ← hend, trimStart, List.takeWhile_append_dropWhile]

/-- A text without blanks is trimmed already. -/
theorem trim_of_plain {s : List Char} (h : ∀ c ∈ s, isBlank c = false) : trim s = s := by
  cases s with
  | nil => rfl
  | cons c s =>
    obtain ⟨back, hback, hend⟩ := exists_trimEnd_append (c :: s)
    have hnil : back = [] := List.eq_nil_iff_forall_not_mem.mpr fun d hd => by
      have hplain := h d (by rw [hend]; exact List.mem_append_right _ hd)
      rw [hback d hd] at hplain
      cases hplain
    rw [hnil, List.append_nil] at hend
    rw [trim, trimStart_cons (h c List.mem_cons_self), ← hend]

theorem trim_append_of_plain {front s back : List Char} (hfront : AllBlank front)
    (hback : AllBlank back) (h : ∀ c ∈ s, isBlank c = false) : trim (front ++ s ++ back) = s := by
  rw [hback.trim_append, trim, hfront.trimStart_append, ← trim, trim_of_plain h]

end Text

/-! ## Numbers -/

/-- Digits, at least one of them, of a value that fits into 32 bits. -/
structure Digits (s : List Char) (n : Nat) : Prop where
  ne_nil : s ≠ []
  isDigit : ∀ c ∈ s, c.isDigit = true
  value : Nat.ofDigitChars 10 s 0 = n
  fits : n < UInt32.size

/-- The text of a number, with a plus sign or without. -/
inductive Numeral : List Char → Nat → Prop
  | plain {s : List Char} {n : Nat} : Digits s n → Numeral s n
  | plus {s : List Char} {n : Nat} : Digits s n → Numeral ('+' :: s) n

theorem digitValue?_eq (c : Char) :
    digitValue? c = if c.isDigit then some (c.toNat - '0'.toNat) else none := by
  have h : ('0' ≤ c ∧ c ≤ '9') ↔ c.isDigit = true := by
    simp [Char.isDigit, Char.le_def]
  simp only [digitValue?, h]

/-- A text is read as a number just if all its characters are digits. -/
theorem digitsValue?_eq (start : Nat) (s : List Char) :
    digitsValue? start s =
      if s.all Char.isDigit then some (Nat.ofDigitChars 10 s start) else none := by
  induction s generalizing start with
  | nil => rfl
  | cons c s ih =>
    rw [digitsValue?, digitValue?_eq, List.all_cons]
    cases hc : c.isDigit with
    | false => rfl
    | true => exact ih _

theorem digitsValue?_eq_some_iff {s : List Char} {n : Nat} :
    digitsValue? 0 s = some n ↔
      (∀ c ∈ s, c.isDigit = true) ∧ Nat.ofDigitChars 10 s 0 = n := by
  rw [digitsValue?_eq, ← List.all_eq_true]
  split <;> simp_all

/-- The digits of a number, after the sign. -/
theorem digits_iff {s : List Char} {n : Nat} :
    (if s.isEmpty then none
      else (digitsValue? 0 s).filter fun n => decide (n < UInt32.size)) = some n ↔ Digits s n := by
  split
  next h =>
    have hnil : s = [] := List.isEmpty_iff.mp h
    exact ⟨nofun, fun hs => absurd hnil hs.ne_nil⟩
  next h =>
    have hne : s ≠ [] := fun hnil => h (List.isEmpty_iff.mpr hnil)
    rw [Option.filter_eq_some_iff, digitsValue?_eq_some_iff, decide_eq_true_iff]
    exact ⟨fun ⟨⟨hdigits, hvalue⟩, hfits⟩ => ⟨hne, hdigits, hvalue, hfits⟩,
      fun hs => ⟨⟨hs.isDigit, hs.value⟩, hs.fits⟩⟩

/-- A part of a version is read if it is a numeral, which has at most 32 bits. -/
theorem number32?_eq_some_iff {s : List Char} {n : Nat} :
    number32? s = some n ↔ Numeral s n := by
  unfold number32?
  simp only
  split
  next s =>
    rw [digits_iff]
    refine ⟨.plus, fun h => ?_⟩
    cases h with
    | plus h => exact h
    | plain h => exact absurd (h.isDigit '+' List.mem_cons_self) (by decide)
  next hsign =>
    rw [digits_iff]
    refine ⟨.plain, fun h => ?_⟩
    cases h with
    | plain h => exact h
    | plus h => exact absurd rfl (hsign _)

/-- The characters of numbers. -/
theorem Numeral.mem {s : List Char} {n : Nat} (h : Numeral s n) {c : Char} (hc : c ∈ s) :
    c = '+' ∨ c.isDigit = true := by
  cases h with
  | plain h => exact .inr (h.isDigit c hc)
  | plus h => exact (List.mem_cons.mp hc).imp_right (h.isDigit c)

theorem Numeral.ne_point {s : List Char} {n : Nat} (h : Numeral s n) : ∀ c ∈ s, c ≠ '.' := by
  rintro c hc rfl
  rcases h.mem hc with h | h
  · cases h
  · cases h

/-- There are no digits among the blanks, so trimming takes none away. -/
theorem Text.isBlank_of_isDigit {c : Char} (h : c.isDigit = true) : isBlank c = false := by
  have hrange : 48 ≤ c.toNat ∧ c.toNat ≤ 57 := by
    simpa [Char.isDigit, UInt32.le_iff_toNat_le] using h
  simp only [isBlank, blankRanges, List.any_cons, List.any_nil, Bool.or_false, Bool.or_eq_false_iff,
    decide_eq_false_iff_not]
  omega

theorem Numeral.isBlank_eq_false {s : List Char} {n : Nat} (h : Numeral s n) :
    ∀ c ∈ s, Text.isBlank c = false := by
  intro c hc
  rcases h.mem hc with rfl | hdigit
  · decide
  · exact Text.isBlank_of_isDigit hdigit

/-- A number is written with its digits. -/
theorem numeral_repr {n : Nat} (h : n < UInt32.size) : Numeral n.repr.toList n := by
  rw [Nat.toList_repr]
  refine .plain ⟨Nat.toDigits_ne_nil, fun c hc => ?_, Nat.ofDigitChars_ten_toDigits, h⟩
  exact Nat.isDigit_of_mem_toDigits (by decide) (by decide) hc

/-! ## Versions -/

namespace Version

/-- The text of a version, without blanks around it. The minor number is zero where it is left
out. -/
inductive Written : List Char → Version → Prop
  | major {s : List Char} {n : Nat} : Numeral s n → Written s ⟨n, 0⟩
  | both {s t : List Char} {m n : Nat} :
    Numeral s m → Numeral t n → Written (s ++ '.' :: t) ⟨m, n⟩

theorem Written.isBlank_eq_false {s : List Char} {v : Version} (h : Written s v) :
    ∀ c ∈ s, Text.isBlank c = false := by
  intro c hc
  cases h with
  | major h => exact h.isBlank_eq_false c hc
  | both hm hn =>
    rcases List.mem_append.mp hc with hc | hc
    · exact hm.isBlank_eq_false c hc
    · rcases List.mem_cons.mp hc with rfl | hc
      · decide
      · exact hn.isBlank_eq_false c hc

/-- Without a point, the text is that of the major number. -/
theorem parse?_of_no_point {s : List Char} (h : ∀ c ∈ Text.trim s, c ≠ '.') :
    parse? s = (number32? (Text.trim s)).map fun major => ⟨major, 0⟩ := by
  have hdrop : (Text.trim s).dropWhile (fun c => c != '.') = [] :=
    List.dropWhile_eq_nil_iff.mpr fun c hc => bne_iff_ne.mpr (h c hc)
  simp only [parse?, hdrop]

/-- The first point ends the major number. -/
theorem parse?_of_point {s front rest : List Char} (h : Text.trim s = front ++ '.' :: rest)
    (hfront : ∀ c ∈ front, c ≠ '.') :
    parse? s =
      (number32? front).bind fun major => (number32? rest).map fun minor => ⟨major, minor⟩ := by
  have hbefore : ∀ c ∈ front, (c != '.') = true := fun c hc => bne_iff_ne.mpr (hfront c hc)
  have htake : (front ++ '.' :: rest).takeWhile (fun c => c != '.') = front := by
    rw [List.takeWhile_append_of_pos hbefore, List.takeWhile_cons_of_neg (by decide),
      List.append_nil]
  have hdrop : (front ++ '.' :: rest).dropWhile (fun c => c != '.') = '.' :: rest := by
    rw [List.dropWhile_append_of_pos hbefore, List.dropWhile_cons_of_neg (by decide)]
  simp only [parse?, h, htake, hdrop]

/-- Just the texts of versions are read, trimmed. -/
theorem parse?_eq_some_iff {s : List Char} {v : Version} :
    parse? s = some v ↔ Written (Text.trim s) v := by
  constructor
  · intro h
    -- The text is split at its first point.
    by_cases hpoint : '.' ∈ Text.trim s
    · obtain ⟨front, rest, htrim, hfront⟩ := List.eq_append_cons_of_mem hpoint
      have hfront : ∀ c ∈ front, c ≠ '.' := fun c hc heq => hfront (heq ▸ hc)
      rw [parse?_of_point htrim hfront] at h
      obtain ⟨m, hm, h⟩ := Option.bind_eq_some_iff.mp h
      obtain ⟨n, hn, rfl⟩ := Option.map_eq_some_iff.mp h
      rw [htrim]
      exact .both (number32?_eq_some_iff.mp hm) (number32?_eq_some_iff.mp hn)
    · rw [parse?_of_no_point fun c hc heq => hpoint (heq ▸ hc)] at h
      obtain ⟨n, hn, rfl⟩ := Option.map_eq_some_iff.mp h
      exact .major (number32?_eq_some_iff.mp hn)
  · intro h
    generalize htrim : Text.trim s = t at h
    cases h with
    | major hn =>
      rw [parse?_of_no_point (htrim ▸ hn.ne_point), htrim, number32?_eq_some_iff.mpr hn]
      rfl
    | both hm hn =>
      rw [parse?_of_point htrim hm.ne_point, number32?_eq_some_iff.mpr hm,
        number32?_eq_some_iff.mpr hn]
      rfl

/-- The text is that of the version, perhaps with blanks around it. -/
def Names (s : List Char) (v : Version) : Prop :=
  ∃ front core back, Text.AllBlank front ∧ Text.AllBlank back ∧ s = front ++ core ++ back ∧
    Written core v

theorem Written.names {s : List Char} {v : Version} (h : Written s v) : Names s v :=
  ⟨[], s, [], nofun, nofun, (List.append_nil s).symm, h⟩

/-- What is read is described by the grammar. -/
theorem parse?_eq_some_iff_names {s : List Char} {v : Version} :
    parse? s = some v ↔ Names s v := by
  rw [parse?_eq_some_iff]
  constructor
  · intro h
    obtain ⟨front, back, hfront, hback, hs⟩ := Text.exists_append_trim_append s
    exact ⟨front, Text.trim s, back, hfront, hback, hs, h⟩
  · rintro ⟨front, core, back, hfront, hback, rfl, h⟩
    rwa [Text.trim_append_of_plain hfront hback h.isBlank_eq_false]

theorem ofString_eq_ok_iff {s : String} {v : Version} :
    ofString s = .ok v ↔ Names s.toList v := by
  rw [← parse?_eq_some_iff_names, ofString]
  split
  next h => rw [h, Except.ok.injEq, Option.some.injEq]
  next h => rw [h]; exact ⟨nofun, nofun⟩

/-- The error holds the text as it was given. -/
theorem ofString_of_not_names {s : String} (h : ∀ v, ¬ Names s.toList v) :
    ofString s = .error (.invalidVersion s) := by
  have hnone : parse? s.toList = none :=
    Option.eq_none_iff_forall_ne_some.mpr fun v hv => h v (parse?_eq_some_iff_names.mp hv)
  simp only [ofString, hnone]

/-- What a version is written as is one of its texts. -/
theorem written_text {major minor : Nat} (hmajor : major < UInt32.size)
    (hminor : minor < UInt32.size) :
    Written (text ⟨major, minor⟩).toList ⟨major, minor⟩ := by
  have htext : (text ⟨major, minor⟩).toList = major.repr.toList ++ '.' :: minor.repr.toList := by
    simp [text, String.toList_append]
  rw [htext]
  exact .both (numeral_repr hmajor) (numeral_repr hminor)

/-- Versions are compared by their first number, and by the second one if the first are equal. -/
theorem isAtLeast_iff {v : Version} {major minor : Nat} :
    v.isAtLeast major minor = true ↔ toLex (major, minor) ≤ toLex (v.major, v.minor) := by
  rw [isAtLeast, decide_eq_true_iff, Prod.Lex.toLex_le_toLex]

/-- Texts of versions are read, with blanks around them, and nothing else is: the error holds the
text untrimmed. What a version of two numbers of 32 bits is written as is read back. A version that
was read is at least another one if its numbers are, in lexicographic order. -/
theorem ofString_reads (s : String) :
    (∀ v, ofString s = .ok v ↔ Names s.toList v) ∧
    ((∀ v, ¬ Names s.toList v) → ofString s = .error (.invalidVersion s)) ∧
    (∀ major minor : UInt32,
      ofString (text ⟨major.toNat, minor.toNat⟩) = .ok ⟨major.toNat, minor.toNat⟩) ∧
    ∀ (useRedshift : Bool) (v : Version) (major minor : Nat), ofString s = .ok v →
      ((⟨useRedshift, some s⟩ : Options).isVersionAtLeast major minor = true ↔
        toLex (major, minor) ≤ toLex (v.major, v.minor)) := by
  refine ⟨fun v => ofString_eq_ok_iff, ofString_of_not_names, fun major minor => ?_,
    fun useRedshift v major minor hv => ?_⟩
  · exact ofString_eq_ok_iff.mpr (written_text major.toNat_lt minor.toNat_lt).names
  · have hversion : (⟨useRedshift, some s⟩ : Options).version = .ok (some v) := by
      simp only [Options.version, hv]
      rfl
    simp only [Options.isVersionAtLeast, hversion]
    exact isAtLeast_iff

/-- `012.+4` between blanks is version 12.4, which comes before 13.0. A second point is not read. -/
theorem ofString_reads_twelve :
    Names "\t012.+4 ".toList ⟨12, 4⟩ ∧
    ofString "\t012.+4 " = .ok ⟨12, 4⟩ ∧
    (⟨false, some "\t012.+4 "⟩ : Options).isVersionAtLeast 12 4 = true ∧
    (⟨false, some "\t012.+4 "⟩ : Options).isVersionAtLeast 13 0 = false ∧
    ofString " 12.4.1" = .error (.invalidVersion " 12.4.1") := by
  obtain ⟨hok, -, -, hcompare⟩ := ofString_reads "\t012.+4 "
  obtain ⟨-, herror, -, -⟩ := ofString_reads " 12.4.1"
  have hnames : Names "\t012.+4 ".toList ⟨12, 4⟩ :=
    parse?_eq_some_iff_names.mp (by decide +kernel)
  have hread := (hok _).mpr hnames
  have hpoints : ∀ v, ¬ Names " 12.4.1".toList v := by
    intro v hv
    have hnone : parse? " 12.4.1".toList = none := by decide +kernel
    cases hnone.symm.trans (parse?_eq_some_iff_names.mpr hv)
  refine ⟨hnames, hread, ?_, ?_, herror hpoints⟩
  · exact (hcompare false _ 12 4 hread).mpr (by decide)
  · exact Bool.eq_false_iff.mpr fun h => absurd ((hcompare false _ 13 0 hread).mp h) (by decide)

end Version

end QuerySql
