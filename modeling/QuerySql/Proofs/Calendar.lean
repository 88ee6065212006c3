import Mathlib.Algebra.Group.Nat.Defs
import Mathlib.Data.List.Basic
import QuerySql.Calendar

/-!
# Written dates and times can be told apart

Two dates with the same text are the same, and so are two times of day or timestamps, but for leap
seconds: behind second 59 they are second 60, behind any other they are written as the next second.

* `Text.append_inj_of_stop`: two texts of characters that do not stop, in front of texts that do,
  are the same if the wholes are.
* `paddedNat_inj`, `length_paddedNat`: padded numbers with the same text are the same, and a number
  that is not too long takes up the width.
* `Date.text_injective`: no two dates have the same text.
* `Time.asShown`: the time with a leap second as the next second, if a clock shows it as that one.
* `Time.text_eq_iff`, `Timestamp.text_eq_iff`: texts are the same if what is shown is.
-/

namespace QuerySql

namespace Text

/-- The text is empty or starts with a character that stops what stands before it. -/
def Stops (p : Char → Bool) (s : List Char) : Prop := ∀ c ∈ s.head?, p c = true

theorem Stops.cons {p : Char → Bool} {c : Char} (h : p c = true) (s : List Char) :
    Stops p (c :: s) := by
  intro d hd
  cases hd
  exact h

/-- By induction on the first text: a character of one text that stands where the other has ended
would both stop and not stop. -/
theorem append_inj_of_stop {p : Char → Bool} {a b r s : List Char} (ha : ∀ c ∈ a, p c = false)
    (hb : ∀ c ∈ b, p c = false) (hr : Stops p r) (hs : Stops p s) (h : a ++ r = b ++ s) :
    a = b ∧ r = s := by
  induction a generalizing b with
  | nil =>
    cases b with
    | nil => exact ⟨rfl, h⟩
    | cons d b =>
      have hstop : p d = true := hr d (by rw [← List.nil_append r, h]; rfl)
      rw [hb d (by simp)] at hstop
      cases hstop
  | cons c a ih =>
    cases b with
    | nil =>
      have hstop : p c = true := hs c (by rw [← List.nil_append s, ← h]; rfl)
      rw [ha c (by simp)] at hstop
      cases hstop
    | cons d b =>
      obtain ⟨rfl, htail⟩ := List.cons.inj h
      have ha' : ∀ c ∈ a, p c = false := fun c hc => ha c (by simp [hc])
      have hb' : ∀ c ∈ b, p c = false := fun c hc => hb c (by simp [hc])
      obtain ⟨rfl, rfl⟩ := ih ha' hb' htail
      exact ⟨rfl, rfl⟩

end Text

/-! ## Padded numbers -/

section Padded

variable {w m n : Nat}

theorem toList_paddedNat (w n : Nat) : (paddedNat w n).toList =
    List.replicate (w - (Nat.toDigits 10 n).length) '0' ++ Nat.toDigits 10 n := by
  simp [paddedNat, String.toList_append, Nat.toList_repr, ← String.length_toList]

theorem ofDigitChars_paddedNat (w n : Nat) :
    Nat.ofDigitChars 10 (paddedNat w n).toList 0 = n := by
  rw [toList_paddedNat, Nat.ofDigitChars_append, Nat.ofDigitChars_replicate_zero, Nat.mul_zero,
    Nat.ofDigitChars_ten_toDigits]

theorem paddedNat_inj : paddedNat w m = paddedNat w n ↔ m = n := by
  constructor
  · intro h
    rw [← ofDigitChars_paddedNat w m, h, ofDigitChars_paddedNat]
  · exact congrArg _

theorem isDigit_of_mem_paddedNat {c : Char} (h : c ∈ (paddedNat w n).toList) :
    c.isDigit = true := by
  rw [toList_paddedNat, List.mem_append] at h
  rcases h with h | h
  · rw [List.eq_of_mem_replicate h]
    rfl
  · exact Nat.isDigit_of_mem_toDigits (by decide) (by decide) h

theorem not_mem_paddedNat {c : Char} (h : c.isDigit = false) : c ∉ (paddedNat w n).toList := by
  intro hc
  rw [isDigit_of_mem_paddedNat hc] at h
  cases h

theorem repr_eq_paddedNat (n : Nat) : Nat.repr n = paddedNat 0 n := by
  simp [paddedNat]

theorem length_paddedNat (hw : 0 < w) (h : n < 10 ^ w) : (paddedNat w n).toList.length = w := by
  have hdigits : (Nat.toDigits 10 n).length ≤ w :=
    (Nat.length_toDigits_le_iff (by decide) hw).mpr h
  rw [toList_paddedNat, List.length_append, List.length_replicate]
  omega

/-- Numbers of a fixed width can be read off the front of a text. -/
theorem paddedNat_append_inj {r s : List Char} (hw : 0 < w) (hm : m < 10 ^ w) (hn : n < 10 ^ w) :
    (paddedNat w m).toList ++ r = (paddedNat w n).toList ++ s ↔ m = n ∧ r = s := by
  have hlength : (paddedNat w m).toList.length = (paddedNat w n).toList.length := by
    rw [length_paddedNat hw hm, length_paddedNat hw hn]
  constructor
  · intro h
    obtain ⟨htexts, htail⟩ := List.append_inj h hlength
    exact ⟨paddedNat_inj.mp (String.toList_inj.mp htexts), htail⟩
  · rintro ⟨rfl, rfl⟩
    rfl

end Padded

/-! ## Dates -/

namespace Date

/-- The sign in front of a year. -/
def yearSign (year : Int) : String := if year < 0 then "-" else if 9999 < year then "+" else ""

theorem yearText_eq (year : Int) :
    yearText year = yearSign year ++ paddedNat (if 9999 < year then 0 else 4) year.natAbs := by
  unfold yearText yearSign
  split
  next hneg => rw [if_neg (by omega)]
  next => split <;> simp [repr_eq_paddedNat]

/-- The sign alone says that a year is before year zero. -/
theorem minus_mem_yearText (year : Int) : '-' ∈ (yearText year).toList ↔ year < 0 := by
  have hdigits {w n : Nat} : '-' ∉ (paddedNat w n).toList := not_mem_paddedNat rfl
  rw [yearText_eq, String.toList_append, List.mem_append, or_iff_left hdigits, yearSign]
  split
  · simpa
  · split <;> simp <;> omega

theorem plus_mem_yearText (year : Int) : '+' ∈ (yearText year).toList ↔ 9999 < year := by
  have hdigits {w n : Nat} : '+' ∉ (paddedNat w n).toList := not_mem_paddedNat rfl
  rw [yearText_eq, String.toList_append, List.mem_append, or_iff_left hdigits, yearSign]
  split
  · simp
    omega
  · split <;> simp <;> omega

/-- No two years are written alike: the signs tell the ranges apart, and then the digits the years.
-/
theorem yearText_injective : Function.Injective yearText := by
  intro y z h
  have hneg : y < 0 ↔ z < 0 := by rw [← minus_mem_yearText, h, minus_mem_yearText]
  have hlong : 9999 < y ↔ 9999 < z := by rw [← plus_mem_yearText, h, plus_mem_yearText]
  have habs : y.natAbs = z.natAbs := by
    simp only [yearText_eq, yearSign, hneg, hlong] at h
    exact paddedNat_inj.mp (String.append_right_inj _ |>.mp h)
  omega

theorem daysInMonth_le (year : Int) (month : Nat) : daysInMonth year month ≤ 31 := by
  unfold daysInMonth
  split <;> try split
  all_goals omega

theorem month_lt (d : Date) : d.month < 13 := by
  have hpos : 0 < daysInMonth d.year d.month := Nat.lt_of_lt_of_le d.day_pos d.day_le
  unfold daysInMonth at hpos
  split at hpos <;> omega

theorem day_lt (d : Date) : d.day < 32 :=
  Nat.lt_succ_of_le (Nat.le_trans d.day_le (daysInMonth_le _ _))

/-- Month and day take up six characters together with the hyphens, so the year is what is left. -/
theorem text_injective : Function.Injective text := by
  intro d e h
  have hmonth (d : Date) : d.month < 10 ^ 2 := Nat.lt_trans d.month_lt (by decide)
  have hday (d : Date) : d.day < 10 ^ 2 := Nat.lt_trans d.day_lt (by decide)
  have hsplit (d : Date) : d.text.toList = (yearText d.year).toList ++
      ('-' :: ((paddedNat 2 d.month).toList ++ '-' :: ((paddedNat 2 d.day).toList ++ []))) := by
    simp [text, String.toList_append]
  have hwidth (d : Date) :
      ('-' :: ((paddedNat 2 d.month).toList ++ '-' :: ((paddedNat 2 d.day).toList ++ []))).length =
        6 := by
    simp only [List.length_cons, List.length_append, List.length_nil,
      length_paddedNat (by decide) (hmonth d), length_paddedNat (by decide) (hday d)]
  have htext := congrArg String.toList h
  rw [hsplit, hsplit] at htext
  -- What follows the year has a fixed width, so the year is cut off from behind.
  obtain ⟨hyears, htail⟩ := List.append_inj' htext (by rw [hwidth, hwidth])
  have hyear := yearText_injective (String.toList_inj.mp hyears)
  obtain ⟨hmonths, htail⟩ := (paddedNat_append_inj (by decide) (hmonth d) (hmonth e)).mp
    (List.cons.inj htail).2
  obtain ⟨hdays, -⟩ := (paddedNat_append_inj (by decide) (hday d) (hday e)).mp
    (List.cons.inj htail).2
  cases d
  cases e
  simp_all

/-- A date is written with digits, hyphens and signs only. -/
theorem not_mem_text {c : Char} (hdigit : c.isDigit = false) (hsign : c ∉ ['-', '+']) (d : Date) :
    c ∉ d.text.toList := by
  obtain ⟨hminus, hplus⟩ : c ≠ '-' ∧ c ≠ '+' := by simpa using hsign
  have hyear : c ∉ (yearSign d.year).toList := by
    unfold yearSign
    split
    · simpa
    · split <;> simp_all
  simp [text, yearText_eq, not_mem_paddedNat hdigit, hyear, hminus]

end Date

/-! ## Times of day -/

namespace Time

/-- If the time falls into a leap second, then that follows second 59. -/
def IsRegular (t : Time) : Prop := t.nanosecond < 1000000000 ∨ t.second = 59

instance (t : Time) : Decidable t.IsRegular := inferInstanceAs (Decidable (_ ∨ _))

/-- What is made of four numbers is regular. -/
theorem isRegular_of_ofParts? {hour minute second nanosecond : Nat} {t : Time}
    (h : ofParts? hour minute second nanosecond = some t) : t.IsRegular := by
  unfold ofParts? at h
  split at h
  next hparts =>
    cases h
    exact hparts.2.2
  next => cases h

/-- The time as a clock shows it, which has no second 60 but at the end of a minute: a leap second
behind any other second is the next second. -/
def asShown (t : Time) : Time :=
  if h : t.second < 59 ∧ 1000000000 ≤ t.nanosecond then
    { t with
      second := t.second + 1
      nanosecond := t.nanosecond - 1000000000
      second_lt := Nat.succ_lt_succ h.1
      nanosecond_lt := Nat.lt_of_le_of_lt (Nat.sub_le _ _) t.nanosecond_lt }
  else t

/-- What is shown is the time of a clock that knows leap seconds after second 59 only. -/
theorem isRegular_asShown (t : Time) : t.asShown.IsRegular := by
  have hnano := t.nanosecond_lt
  have hsecond := t.second_lt
  unfold asShown IsRegular
  split
  · left
    change t.nanosecond - 1000000000 < 1000000000
    omega
  · omega

/-- Nothing but leap seconds in the middle of a minute is shown as something else. -/
theorem asShown_eq_self_iff {t : Time} : t.asShown = t ↔ t.IsRegular := by
  refine ⟨fun h => h ▸ t.isRegular_asShown, fun h => dif_neg ?_⟩
  unfold IsRegular at h
  omega

theorem clockSecond_lt (t : Time) : t.clockSecond < 61 := by
  have hsecond := t.second_lt
  have hnano := t.nanosecond_lt
  unfold clockSecond
  omega

theorem fraction_lt (t : Time) : t.fraction < 10 ^ 9 := Nat.mod_lt _ (by decide)

/-- The fraction that is written is read off the digits and their number. -/
theorem value_fractionText {n : Nat} (hn : n < 10 ^ 9) :
    Nat.ofDigitChars 10 ((fractionText n).toList.drop 1) 0 *
      10 ^ (10 - (fractionText n).toList.length) = n := by
  have hmilli : n / 1000000 < 10 ^ 3 := by omega
  have hmicro : n / 1000 < 10 ^ 6 := by omega
  unfold fractionText
  split
  · simp_all
  split
  · have hlength := length_paddedNat (by decide) hmilli
    rw [String.toList_append, List.length_append, hlength]
    simp [ofDigitChars_paddedNat]
    omega
  split
  · have hlength := length_paddedNat (by decide) hmicro
    rw [String.toList_append, List.length_append, hlength]
    simp [ofDigitChars_paddedNat]
    omega
  · have hlength := length_paddedNat (by decide) hn
    rw [String.toList_append, List.length_append, hlength]
    simp [ofDigitChars_paddedNat]

/-- Different fractions of a second are written differently: the lengths tell the precision. -/
theorem fractionText_inj {m n : Nat} (hm : m < 10 ^ 9) (hn : n < 10 ^ 9)
    (h : fractionText m = fractionText n) : m = n := by
  rw [← value_fractionText hm, h, value_fractionText hn]

theorem not_mem_fractionText {c : Char} (hdigit : c.isDigit = false) (hpoint : c ≠ '.') (n : Nat) :
    c ∉ (fractionText n).toList := by
  unfold fractionText
  split
  · simp
  repeat' split
  all_goals simp [not_mem_paddedNat hdigit, hpoint]

/-- The text has the clock's second and the fraction, and neither is moved with a leap second. -/
theorem text_asShown (t : Time) : t.asShown.text = t.text := by
  have hnano := t.nanosecond_lt
  unfold asShown
  split
  next h =>
    have hclock : t.second + 1 + (t.nanosecond - 1000000000) / 1000000000 =
        t.second + t.nanosecond / 1000000000 := by
      omega
    have hfraction : (t.nanosecond - 1000000000) % 1000000000 = t.nanosecond % 1000000000 := by
      omega
    simp only [text, clockSecond, fraction, hclock, hfraction]
  next => rfl

/-- Of regular times only those in a leap second have second 60 on the clock. -/
theorem second_of_clock {t u : Time} (ht : t.IsRegular) (hu : u.IsRegular)
    (hclock : t.clockSecond = u.clockSecond) (hfraction : t.fraction = u.fraction) :
    t.second = u.second ∧ t.nanosecond = u.nanosecond := by
  have htnano := t.nanosecond_lt
  have hunano := u.nanosecond_lt
  have htsecond := t.second_lt
  have husecond := u.second_lt
  unfold clockSecond at hclock
  unfold fraction at hfraction
  unfold IsRegular at ht hu
  omega

/-- Hour, minute and second take up two characters each, so the fraction is what is left. -/
theorem eq_of_text {t u : Time} (ht : t.IsRegular) (hu : u.IsRegular) (h : t.text = u.text) :
    t = u := by
  have hhour (t : Time) : t.hour < 10 ^ 2 := Nat.lt_trans t.hour_lt (by decide)
  have hminute (t : Time) : t.minute < 10 ^ 2 := Nat.lt_trans t.minute_lt (by decide)
  have hclock (t : Time) : t.clockSecond < 10 ^ 2 := Nat.lt_trans t.clockSecond_lt (by decide)
  have hsplit (t : Time) : t.text.toList = (paddedNat 2 t.hour).toList ++
      (':' :: ((paddedNat 2 t.minute).toList ++
        (':' :: ((paddedNat 2 t.clockSecond).toList ++ (fractionText t.fraction).toList)))) := by
    simp [text, String.toList_append]
  have htext := congrArg String.toList h
  rw [hsplit, hsplit] at htext
  -- the numbers one by one, from the front
  obtain ⟨hhours, htail⟩ := (paddedNat_append_inj (by decide) (hhour t) (hhour u)).mp htext
  obtain ⟨hminutes, htail⟩ := (paddedNat_append_inj (by decide) (hminute t) (hminute u)).mp
    (List.cons.inj htail).2
  obtain ⟨hclocks, htail⟩ := (paddedNat_append_inj (by decide) (hclock t) (hclock u)).mp
    (List.cons.inj htail).2
  have hfraction := fractionText_inj t.fraction_lt u.fraction_lt (String.toList_inj.mp htail)
  obtain ⟨hsecond, hnano⟩ := second_of_clock ht hu hclocks hfraction
  cases t
  cases u
  simp_all

/-- Two times have the same text if a clock shows the same. -/
theorem text_eq_iff {t u : Time} : t.text = u.text ↔ t.asShown = u.asShown := by
  constructor
  · intro h
    refine eq_of_text t.isRegular_asShown u.isRegular_asShown ?_
    rw [text_asShown, text_asShown, h]
  · intro h
    rw [← text_asShown t, h, text_asShown]

/-- A time is written with digits, colons and a point only. -/
theorem not_mem_text {c : Char} (hdigit : c.isDigit = false) (hmark : c ∉ [':', '.']) (t : Time) :
    c ∉ t.text.toList := by
  obtain ⟨hcolon, hpoint⟩ : c ≠ ':' ∧ c ≠ '.' := by simpa using hmark
  simp [text, not_mem_paddedNat hdigit, not_mem_fractionText hdigit hpoint, hcolon]

end Time

/-! ## Timestamps -/

namespace Timestamp

/-- The date, and the time as a clock shows it. -/
def asShown (t : Timestamp) : Timestamp := { t with time := t.time.asShown }

theorem asShown_eq_self_iff {t : Timestamp} : t.asShown = t ↔ t.time.IsRegular := by
  rw [← Time.asShown_eq_self_iff]
  cases t
  simp [asShown]

/-- Two timestamps have the same text if the dates are the same and a clock shows the same. No date
and no time is written with the letter that stands between them. -/
theorem text_eq_iff {t u : Timestamp} : t.text = u.text ↔ t.asShown = u.asShown := by
  have hparts : t.asShown = u.asShown ↔ t.date = u.date ∧ t.time.text = u.time.text := by
    rw [asShown, asShown, mk.injEq, Time.text_eq_iff]
  rw [hparts]
  constructor
  · intro h
    have hsplit (t : Timestamp) :
        t.text.toList = t.date.text.toList ++ 'T' :: t.time.text.toList := by
      simp [text, String.toList_append]
    have hdate (d : Date) : ∀ c ∈ d.text.toList, (c == 'T') = false := by
      intro c hc
      refine beq_false_of_ne ?_
      rintro rfl
      exact d.not_mem_text rfl (by decide) hc
    have htext := congrArg String.toList h
    rw [hsplit, hsplit] at htext
    obtain ⟨hdates, htimes⟩ := Text.append_inj_of_stop (hdate t.date) (hdate u.date)
      (Text.Stops.cons rfl _) (Text.Stops.cons rfl _) htext
    exact ⟨Date.text_injective (String.toList_inj.mp hdates),
      String.toList_inj.mp (List.cons.inj htimes).2⟩
  · rintro ⟨hdate, htime⟩
    rw [text, text, hdate, htime]

/-- A timestamp is written with the characters of a date and of a time, and a `T` between them. -/
theorem not_mem_text {c : Char} (hdigit : c.isDigit = false)
    (hmark : c ∉ ['-', '+', 'T', ':', '.']) (t : Timestamp) : c ∉ t.text.toList := by
  have hdate := t.date.not_mem_text hdigit (by simp_all)
  have htime := t.time.not_mem_text hdigit (by simp_all)
  have hletter : c ≠ 'T' := by simp_all
  simp [text, hdate, htime, hletter]

end Timestamp

end QuerySql
