import QuerySql.Proofs.Spellings

/-!
# How store types are written

A store type is looked up by a text: blanks, a name in any letter case, perhaps facets and a text
behind them, a pair of brackets for each level of arrays, blanks. `StoreName.Layout` is a text with
these parts marked.

* `StoreName.splitFacets?_eq_some`, `splitFacets?_append`, `splitFacets?_plain`: the texts that
  facets can be taken from, and what is left.
* `StoreName.Layout.canonical?_core`: what the parts of a layout are led to.
* `Catalog.nested_of_ofText_layout`: a layout stands for arrays of what its core stands for.
* `StoreName.isPlain_of_known`: names and aliases leave nothing to other parts of a text.
* `Catalog.ofStore_wording`: a name that the catalog knows is looked up however it is written.
-/

namespace QuerySql

/-! ## Blanks and letters -/

namespace Text

/-- The text has nothing but blanks. -/
def AllBlank (s : List Char) : Prop := ∀ c ∈ s, isBlank c = true

instance : DecidablePred AllBlank := fun s => List.decidableBAll _ s

variable {blanks : List Char}

theorem AllBlank.tail {c : Char} (h : AllBlank (c :: blanks)) : AllBlank blanks :=
  fun d hd => h d (List.mem_cons_of_mem c hd)

theorem AllBlank.reverse (h : AllBlank blanks) : AllBlank blanks.reverse :=
  fun c hc => h c (List.mem_reverse.mp hc)

theorem AllBlank.trimStart_append (h : AllBlank blanks) (s : List Char) :
    trimStart (blanks ++ s) = trimStart s := by
  induction blanks with
  | nil => rfl
  | cons c blanks ih =>
    rw [List.cons_append, trimStart_blank_cons (h c List.mem_cons_self), ih h.tail]

theorem AllBlank.trim_append (h : AllBlank blanks) (s : List Char) :
    trim (s ++ blanks) = trim s := by
  induction blanks generalizing s with
  | nil => rw [List.append_nil]
  | cons c blanks ih =>
    rw [List.append_cons, ih h.tail, trim_append_blank (h c List.mem_cons_self)]

/-- What trimming takes off the end of a text is blanks. -/
theorem exists_trimEnd_append (s : List Char) :
    ∃ blanks, AllBlank blanks ∧ s = trimEnd s ++ blanks := by
  induction s with
  | nil => exact ⟨[], by decide, rfl⟩
  | cons c s ih =>
    obtain ⟨blanks, hblanks, hs⟩ := ih
    cases hend : trimEnd s with
    | cons d r =>
      refine ⟨blanks, hblanks, ?_⟩
      rw [trimEnd, hend, List.cons_append, ← hend, ← hs]
    | nil =>
      rw [hend, List.nil_append] at hs
      rw [trimEnd, hend]
      by_cases hc : isBlank c = true
      · refine ⟨c :: blanks, ?_, ?_⟩
        · simpa [AllBlank, hc] using hblanks
        · simp [hc, hs]
      · exact ⟨blanks, hblanks, by simp [hc, hs]⟩

theorem trimEnd_eq_of_length {s : List Char} (h : (trimEnd s).length = s.length) :
    trimEnd s = s := by
  obtain ⟨blanks, -, hs⟩ := exists_trimEnd_append s
  have hlength := congrArg List.length hs
  rw [List.length_append, h] at hlength
  have hnil : blanks = [] := List.length_eq_zero_iff.mp (by omega)
  rw [hnil, List.append_nil] at hs
  exact hs.symm

theorem trim_eq_of_length {s : List Char} (h : (trim s).length = s.length) : trim s = s := by
  have hstart := (List.dropWhile_suffix isBlank (l := s)).length_le
  obtain ⟨blanks, -, hend⟩ := exists_trimEnd_append (trimStart s)
  have hlength := congrArg List.length hend
  rw [List.length_append] at hlength
  have hsame : trimStart s = s := (List.dropWhile_suffix isBlank).eq_of_length (by
    rw [trim, trimStart] at *
    omega)
  rw [trim, hsame] at h ⊢
  exact trimEnd_eq_of_length h

/-- A trimmed text starts with no blank. -/
theorem exists_cons_of_trim {s : List Char} (h : trim s = s) (hne : s ≠ []) :
    ∃ c r, s = c :: r ∧ isBlank c = false := by
  cases hstart : trimStart s with
  | nil =>
    rw [trim, hstart] at h
    exact absurd h.symm hne
  | cons c r =>
    have hc : isBlank c = false := eq_false_of_dropWhile hstart
    rw [trim, hstart, trimEnd_cons hc] at h
    exact ⟨c, trimEnd r, h.symm, hc⟩

theorem trimEnd_of_trim {s : List Char} (h : trim s = s) : trimEnd s = s := by
  rw [← h, trim, trimEnd_trimEnd]

theorem trim_trimEnd {c : Char} (hc : isBlank c = false) (s : List Char) :
    trim (trimEnd (c :: s)) = trimEnd (c :: s) := by
  rw [trimEnd_cons hc, trim, trimStart_cons hc, trimEnd_cons hc, trimEnd_trimEnd]

/-- Lower case changes capital letters only, and makes small letters of them. -/
theorem toLower_eq_or (c : Char) :
    c.toLower = c ∨ (65 ≤ c.toNat ∧ c.toNat ≤ 90 ∧ c.toLower.toNat = c.toNat + 32) := by
  unfold Char.toLower
  split
  next h =>
    have hlow : 65 ≤ c.toNat := h.1
    have hhigh : c.toNat ≤ 90 := h.2
    have hval : c.val.toNat ≤ 90 := hhigh
    have hgap : ('a'.val - 'A'.val).toNat = 32 := rfl
    refine .inr ⟨hlow, hhigh, ?_⟩
    change (c.val + ('a'.val - 'A'.val)).toNat = c.val.toNat + 32
    rw [UInt32.toNat_add, hgap]
    omega
  next => exact .inl rfl

/-- No letter has another character as its lower case. -/
theorem toLower_eq_iff {c d : Char} (hd : d.toNat < 65 ∨ 90 < d.toNat ∧ d.toNat < 97) :
    c.toLower = d ↔ c = d := by
  rcases toLower_eq_or c with h | ⟨hlow, hhigh, h⟩
  · rw [h]
  · have hlower : c.toLower ≠ d := by
      rintro rfl
      omega
    have hself : c ≠ d := by
      rintro rfl
      omega
    exact iff_of_false hlower hself

/-- Lower case makes no blank and takes none away. -/
theorem isBlank_toLower (c : Char) : isBlank c.toLower = isBlank c := by
  rcases toLower_eq_or c with h | ⟨hlow, hhigh, h⟩
  · rw [h]
  · simp only [isBlank, blankRanges, List.any_cons, List.any_nil, h]
    grind

/-- The lower case of a text has blanks where the text has them. -/
theorem trimStart_map_toLower (s : List Char) :
    trimStart (s.map Char.toLower) = (trimStart s).map Char.toLower := by
  rw [trimStart, trimStart, List.dropWhile_map]
  congr 2
  exact funext isBlank_toLower

/-- Trimming and lower case do not depend on the order. -/
theorem trimEnd_map_toLower (s : List Char) :
    trimEnd (s.map Char.toLower) = (trimEnd s).map Char.toLower := by
  induction s with
  | nil => rfl
  | cons c s ih =>
    rw [List.map_cons, trimEnd, trimEnd, ih, isBlank_toLower]
    cases trimEnd s with
    | nil => cases isBlank c <;> rfl
    | cons d r => rfl

theorem trim_map_toLower (s : List Char) :
    trim (s.map Char.toLower) = (trim s).map Char.toLower := by
  rw [trim, trim, trimStart_map_toLower, trimEnd_map_toLower]

end Text

namespace StoreName

/-! ## Splitting -/

/-- Nor does lower case make a bracket that opens facets. -/
theorem isOpening_toLower (c : Char) : isOpening c.toLower = isOpening c := by
  rw [Bool.eq_iff_iff]
  simp only [isOpening, Bool.or_eq_true, beq_iff_eq]
  rw [Text.toLower_eq_iff (.inl (by decide)), Text.toLower_eq_iff (.inr (by decide))]

theorem isOpening_eq_false_of_isBlank {c : Char} (h : Text.isBlank c = true) :
    isOpening c = false := by
  rw [Bool.eq_false_iff]
  intro hc
  simp only [isOpening, Bool.or_eq_true, beq_iff_eq] at hc
  rcases hc with rfl | rfl <;> revert h <;> decide

/-- The text opens neither facets nor brackets. -/
def OpensNothing (s : List Char) : Prop := ∀ c ∈ s, isOpening c = false

instance : DecidablePred OpensNothing := fun s => List.decidableBAll _ s

theorem opensNothing_map_toLower {s : List Char} :
    OpensNothing (s.map Char.toLower) ↔ OpensNothing s := by
  simp [OpensNothing, isOpening_toLower]

section Split

variable {base inside rest : List Char} (hne : base ≠ []) (hbase : OpensNothing base)

include hne hbase

theorem splitFacets?_plain : splitFacets? base = some (base, []) := by
  have hclosed : ∀ c ∈ base, (!isOpening c) = true := fun c hc => by rw [hbase c hc]; rfl
  have htake : base.takeWhile (fun c => !isOpening c) = base :=
    List.takeWhile_eq_self_iff.mpr hclosed
  have hdrop : base.dropWhile (fun c => !isOpening c) = [] := List.dropWhile_eq_nil_iff.mpr hclosed
  simp [splitFacets?, htake, hdrop, hne]

/-- Facets are cut out, as far as the bracket that closes them. -/
theorem splitFacets?_append (hinside : ')' ∉ inside) (hrest : OpensNothing rest) :
    splitFacets? (base ++ '(' :: (inside ++ ')' :: rest)) = some (base, rest) := by
  have hclosed : ∀ c ∈ base, (!isOpening c) = true := fun c hc => by rw [hbase c hc]; rfl
  have hopen : ∀ c ∈ inside, (c != ')') = true := fun c hc =>
    bne_iff_ne.mpr fun heq => hinside (heq ▸ hc)
  have hparen : isOpening '(' = true := rfl
  have hend : rest.any isOpening = false := List.any_eq_false.mpr fun c hc => by simp [hrest c hc]
  simp [splitFacets?, List.takeWhile_append_of_pos hclosed, List.dropWhile_append_of_pos hclosed,
    List.dropWhile_append_of_pos hopen, hne, hparen, hend]

end Split

/-- Where facets are split off, the name stands alone or with one pair of parentheses behind it. -/
theorem splitFacets?_eq_some {s base rest : List Char} (h : splitFacets? s = some (base, rest)) :
    base ≠ [] ∧ OpensNothing base ∧ OpensNothing rest ∧
      (s = base ∧ rest = [] ∨
        ∃ inside, ')' ∉ inside ∧ s = base ++ '(' :: (inside ++ ')' :: rest)) := by
  have hsplit := List.takeWhile_append_dropWhile (p := fun c => !isOpening c) (l := s)
  have hbase := base_of_splitFacets? h
  have hopens : OpensNothing base := fun c hc => by
    rw [hbase] at hc
    have hclosed := List.mem_takeWhile_imp hc
    simpa using hclosed
  rw [← hbase] at hsplit
  unfold splitFacets? at h
  simp only [← hbase] at h
  split at h
  · cases h
  next hne =>
  have hne : base ≠ [] := fun hnil => hne (by rw [hnil]; rfl)
  split at h
  -- No bracket opens.
  next hnil =>
    obtain ⟨-, rfl⟩ := Prod.mk.inj (Option.some.inj h)
    rw [hnil, List.append_nil] at hsplit
    exact ⟨hne, hopens, by simp [OpensNothing], .inl ⟨hsplit.symm, rfl⟩⟩
  -- A parenthesis opens. The facets end where the first one closes, and none opens behind it.
  next inside hparen =>
    split at h
    · cases h
    next c rest' hrest =>
    split at h
    · cases h
    next hend =>
    obtain ⟨-, rfl⟩ := Prod.mk.inj (Option.some.inj h)
    have hclose : c = ')' := by simpa using Text.eq_false_of_dropWhile hrest
    have hinside := List.takeWhile_append_dropWhile (p := fun c => c != ')') (l := inside)
    rw [hrest, hclose] at hinside
    refine ⟨hne, hopens, fun d hd => ?_, .inr ⟨inside.takeWhile fun c => c != ')', ?_, ?_⟩⟩
    · simpa using List.any_eq_false.mp ((Bool.not_eq_true _).mp hend) d hd
    · intro hmem
      have hne := List.mem_takeWhile_imp hmem
      simp at hne
    · rw [hinside, ← hparen, hsplit]
  next => cases h

/-- Lower case neither opens nor closes anything. -/
theorem splitFacets?_map_toLower (s : List Char) :
    splitFacets? (s.map Char.toLower) =
      (splitFacets? s).map (Prod.map (List.map Char.toLower) (List.map Char.toLower)) := by
  have hopening : (fun c => !isOpening c) ∘ Char.toLower = fun c => !isOpening c :=
    funext fun c => congrArg _ (isOpening_toLower c)
  have hclose : (fun c : Char => c != ')') ∘ Char.toLower = fun c => c != ')' := by
    funext c
    have hiff := Text.toLower_eq_iff (c := c) (d := ')') (.inl (by decide))
    rw [Function.comp_apply, Bool.eq_iff_iff, bne_iff_ne, bne_iff_ne, Ne, hiff]
  unfold splitFacets?
  simp only [List.takeWhile_map, List.dropWhile_map, hopening, List.isEmpty_map]
  split
  · rfl
  cases s.dropWhile fun c => !isOpening c with
  | nil => rfl
  | cons c inside =>
    by_cases hc : c = '('
    · subst hc
      have hparen : Char.toLower '(' = '(' := rfl
      simp only [List.map_cons, hparen, List.dropWhile_map, hclose]
      cases inside.dropWhile fun c => c != ')' with
      | nil => rfl
      | cons d rest =>
        have hany : (rest.map Char.toLower).any isOpening = rest.any isOpening := by
          rw [List.any_map]
          exact congrArg _ (funext isOpening_toLower)
        simp only [List.map_cons, hany]
        split <;> rfl
    · have hlower : c.toLower ≠ '(' := mt (Text.toLower_eq_iff (.inl (by decide))).mp hc
      -- What opens is another bracket, so the name is refused either way.
      grind

/-! ## Layouts -/

/-- Facets as they are written, with the blanks before them and the text behind them. -/
structure Facets where
  /-- The blanks between the name and the parenthesis. -/
  blanks : List Char
  /-- The text in parentheses. -/
  inside : List Char
  /-- The text behind the parentheses. -/
  rest : List Char
  blanks_blank : Text.AllBlank blanks
  inside_open : ')' ∉ inside

/-- The written facets, all that stands behind the name. -/
def Facets.text (f : Facets) : List Char := f.blanks ++ '(' :: (f.inside ++ ')' :: f.rest)

/-- The text with pairs of brackets behind it, each after some blanks. The first of the list is the
last in the text. -/
def bracketed (s : List Char) : List (List Char) → List Char
  | [] => s
  | blanks :: more => bracketed s more ++ blanks ++ ['[', ']']

/-- A text that may name a store type, with its parts marked: blanks around it, a name, perhaps
facets, and pairs of brackets with blanks before each of them. -/
structure Layout where
  front : List Char
  name : List Char
  facets? : Option Facets
  suffixes : List (List Char)
  back : List Char
  front_blank : Text.AllBlank front
  suffixes_blank : ∀ blanks ∈ suffixes, Text.AllBlank blanks
  back_blank : Text.AllBlank back

namespace Layout

variable (l : Layout)

/-- What is written behind the facets. -/
def rest : List Char := l.facets?.elim [] Facets.rest

/-- The name and what belongs to it, without brackets and without blanks around it. -/
def core : List Char := l.name ++ l.facets?.elim [] Facets.text

/-- The text itself. -/
def text : List Char := bracketed (l.front ++ l.core) l.suffixes ++ l.back

/-- Nothing in the name or behind the facets is for another part of the text: no parentheses and
brackets, and no blanks where blanks are passed over. -/
structure Regular : Prop where
  name_ne : l.name ≠ []
  name_plain : OpensNothing l.name
  name_trimmed : Text.trim l.name = l.name
  rest_plain : OpensNothing l.rest
  rest_trimmed : Text.trimEnd l.rest = l.rest

variable {l} (h : l.Regular)

include h

/-- The core of a layout is split at its facets, whatever blanks stand in front of them. -/
theorem splitFacets?_core :
    ∃ blanks, Text.AllBlank blanks ∧ splitFacets? l.core = some (l.name ++ blanks, l.rest) := by
  have hrest := h.rest_plain
  rcases hfacets : l.facets? with _ | f <;> rw [rest, hfacets] at hrest <;> rw [core, rest, hfacets]
  · refine ⟨[], by decide, ?_⟩
    simpa using splitFacets?_plain h.name_ne h.name_plain
  · have hbase : OpensNothing (l.name ++ f.blanks) := fun c hc =>
      (List.mem_append.mp hc).elim (h.name_plain c)
        fun hc => isOpening_eq_false_of_isBlank (f.blanks_blank c hc)
    have hne : l.name ++ f.blanks ≠ [] := by simp [h.name_ne]
    refine ⟨f.blanks, f.blanks_blank, ?_⟩
    simpa [Facets.text] using splitFacets?_append hne hbase f.inside_open hrest

theorem trim_core : Text.trim l.core = l.core := by
  obtain ⟨c, r, hname, hc⟩ := Text.exists_cons_of_trim h.name_trimmed h.name_ne
  have hrest := h.rest_trimmed
  rcases hfacets : l.facets? with _ | f <;> rw [rest, hfacets] at hrest <;> rw [core, hfacets]
  · simpa using h.name_trimmed
  · have hclose : Text.isBlank ')' = false := by decide
    have hcore : l.name ++ f.text = c :: (r ++ f.blanks ++ '(' :: f.inside) ++ ')' :: f.rest := by
      simp [hname, Facets.text]
    have hstart : Text.trimStart (l.name ++ f.text) = l.name ++ f.text := by
      rw [hcore, List.cons_append, Text.trimStart_cons hc]
    have hend : Text.trimEnd f.rest = f.rest := hrest
    rw [Option.elim_some, Text.trim, hstart, hcore, Text.trimEnd_append_cons hclose, hend]

/-- What the parts of the text are led to, the name by way of its aliases. -/
theorem canonical?_core : canonical? l.core =
    some (join (resolveAlias (l.name.map Char.toLower)) (l.rest.map Char.toLower)) := by
  obtain ⟨blanks, hblanks, hsplit⟩ := splitFacets?_core h
  simp only [canonical?, trim_core h, splitFacets?_map_toLower, hsplit, Option.map_some,
    Prod.map_apply, Text.trim_map_toLower, hblanks.trim_append, h.name_trimmed,
    Text.trimEnd_map_toLower,
    h.rest_trimmed]

end Layout

end StoreName

/-! ## Mappings of texts -/

namespace Mapping

/-- The same way of storing under another name of the store type. -/
def named (store : String) : Mapping → Mapping
  | scalar _ t => scalar store t
  | bytes _ t => bytes store t
  | array _ t e => array store t e
  | json _ t b => json store t b

@[simp] theorem store_named (s : String) (m : Mapping) : (m.named s).store = s := by
  cases m <;> rfl

/-- The first mapping is that of arrays of arrays, as many levels of them as the number says, with
elements that are mapped by the second in the end. -/
inductive Nested : Nat → Mapping → Mapping → Prop
  | zero {e : Mapping} : Nested 0 e e
  | succ {k : Nat} {store : String} {m e : Mapping} :
    Nested k m e → Nested (k + 1) (array store (.array m.ty) m) e

end Mapping

namespace Catalog

/-- The catalog's mapping of a text, read from the front. -/
def ofText (s : List Char) : Option Mapping := standardOfReversed s.reverse

theorem ofStore_ofList (s : List Char) : standard.ofStore (String.ofList s) = ofText s := by
  simp only [standard, String.toList_ofList, ofText]

/-- A blank at the end of a name is skipped. -/
theorem standardOfReversed_blank_cons {c : Char} (hc : Text.isBlank c = true) (r : List Char) :
    standardOfReversed (c :: r) = standardOfReversed r := by
  have hbracket : c ≠ ']' := by
    rintro rfl
    revert hc
    decide
  rw [standardOfReversed.eq_2 _ _ fun _ heq => absurd heq hbracket, if_pos hc]

theorem standardOfReversed_blanks {blanks : List Char} (h : Text.AllBlank blanks) :
    standardOfReversed blanks = none := by
  induction blanks with
  | nil => rfl
  | cons c blanks ih => rw [standardOfReversed_blank_cons (h c List.mem_cons_self), ih h.tail]

theorem ofText_append_blanks {blanks : List Char} (h : Text.AllBlank blanks) (s : List Char) :
    ofText (s ++ blanks) = ofText s := by
  induction blanks generalizing s with
  | nil => rw [List.append_nil]
  | cons c blanks ih =>
    rw [List.append_cons, ih h.tail, ofText, List.reverse_append, List.reverse_singleton,
      List.singleton_append, standardOfReversed_blank_cons (h c List.mem_cons_self), ofText]

/-- By induction on the text from its end, of which the blanks at its start are read last. -/
theorem standardOfReversed_append_blanks {blanks : List Char} (h : Text.AllBlank blanks)
    (r : List Char) : standardOfReversed (r ++ blanks) = standardOfReversed r := by
  have hopen : ∀ more, blanks ≠ '[' :: more := by
    rintro more rfl
    exact absurd (h '[' List.mem_cons_self) (by decide)
  fun_induction standardOfReversed r with
  | case1 r ih =>
    have htrim : Text.trimStart (']' :: '[' :: r ++ blanks).reverse =
        Text.trimStart (']' :: '[' :: r).reverse := by
      rw [List.reverse_append, h.reverse.trimStart_append]
    rw [List.cons_append, List.cons_append, standardOfReversed, ih]
    exact congrArg (Option.map · _) (funext fun e => by rw [← htrim]; rfl)
  | case2 c r _ hc ih => rw [List.cons_append, standardOfReversed_blank_cons hc, ih]
  | case3 c r hne hc =>
    rw [List.cons_append, standardOfReversed.eq_2, if_neg hc, ← List.cons_append,
      List.reverse_append, h.reverse.trimStart_append]
    rintro more rfl heq
    cases r with
    | nil => exact hopen more heq
    | cons d r => exact hne r rfl (by rw [(List.cons.inj heq).1])
  | case4 => exact standardOfReversed_blanks h

/-- Blanks in front of a name make no difference. -/
theorem ofText_blanks_append {blanks : List Char} (h : Text.AllBlank blanks) (s : List Char) :
    ofText (blanks ++ s) = ofText s := by
  rw [ofText, List.reverse_append, standardOfReversed_append_blanks h.reverse, ofText]

/-- Blanks around a text make no difference. -/
theorem ofText_trim (s : List Char) : ofText (Text.trim s) = ofText s := by
  obtain ⟨blanks, hblanks, hend⟩ := Text.exists_trimEnd_append (Text.trimStart s)
  have hfront : Text.AllBlank (s.takeWhile Text.isBlank) := fun c hc => List.mem_takeWhile_imp hc
  calc ofText (Text.trim s)
    _ = ofText (Text.trim s ++ blanks) := (ofText_append_blanks hblanks _).symm
    _ = ofText (Text.trimStart s) := by rw [Text.trim, ← hend]
    _ = ofText (s.takeWhile Text.isBlank ++ Text.trimStart s) :=
      (ofText_blanks_append hfront _).symm
    _ = ofText s := by rw [Text.trimStart, List.takeWhile_append_dropWhile]

/-- A name in front of brackets is that of the elements. -/
theorem ofText_append_brackets (s : List Char) :
    ofText (s ++ ['[', ']']) = (ofText s).map fun e =>
      .array (String.ofList (Text.trimStart (s ++ ['[', ']']))) (.array e.ty) e := by
  simp [ofText, standardOfReversed]

/-- A name that can be resolved is not that of an array. -/
theorem ofText_of_canonical {s c : List Char} (hc : StoreName.canonical? s = some c) :
    ofText s = standardOfName (Text.trim s) := by
  rcases standardOfReversed_eq s.reverse with ⟨front, hfront⟩ | hname
  · rw [List.reverse_reverse] at hfront
    rw [StoreName.canonical?_brackets hfront] at hc
    cases hc
  · rwa [List.reverse_reverse] at hname

/-- Spellings of one name stand for the same, each under its own text. -/
theorem standardOfName_of_canonical {s c : List Char} (hs : StoreName.canonical? s = some c)
    (hc : StoreName.canonical? c = some c) :
    standardOfName s = (standardOfName c).map (Mapping.named (String.ofList s)) := by
  cases hfind : StoreName.canonicalTypes.find? fun p => p.1.toList == c with
  | none => simp [standardOfName, hs, hc, hfind]
  | some p =>
    simp only [standardOfName, hs, hc, hfind, Option.bind_eq_bind, Option.bind_some]
    split <;> rfl

/-- A mapping keeps the text that it was found by. -/
theorem store_of_standardOfName {s : List Char} {m : Mapping} (h : standardOfName s = some m) :
    m.store = String.ofList s := by
  obtain ⟨c, hc, h⟩ := Option.bind_eq_some_iff.mp h
  obtain ⟨p, hp, h⟩ := Option.bind_eq_some_iff.mp h
  obtain rfl := Option.some.inj h
  split <;> rfl

/-- A mapping keeps the text it was looked up by, without the blanks around it. -/
theorem store_of_standardOfReversed {r : List Char} {m : Mapping}
    (h : standardOfReversed r = some m) : m.store = String.ofList (Text.trim r.reverse) := by
  fun_induction standardOfReversed r with
  | case1 r ih =>
    have hbracket : Text.isBlank ']' = false := by decide
    obtain ⟨e, -, rfl⟩ := Option.map_eq_some_iff.mp h
    rw [List.reverse_cons, Text.trim_concat hbracket]
    rfl
  | case2 c r _ hc ih =>
    rw [List.reverse_cons, Text.trim_append_blank hc]
    exact ih h
  | case3 c r _ hc =>
    rw [List.reverse_cons, Text.trim_concat (by simpa using hc), ← List.reverse_cons]
    exact store_of_standardOfName h
  | case4 => cases h

/-- A mapping keeps the text that it was found by, without the blanks around it. -/
theorem store_of_ofText {s : List Char} {m : Mapping} (h : ofText s = some m) :
    m.store = String.ofList (Text.trim s) := by
  simpa using store_of_standardOfReversed h

/-! ## Texts with their parts marked -/

section Bracketed

variable {s : List Char} {suffixes : List (List Char)}
  (hblank : ∀ blanks ∈ suffixes, Text.AllBlank blanks)

include hblank

/-- An array is known just if its elements are, however often brackets are added. -/
theorem isSome_ofText_bracketed :
    (ofText (StoreName.bracketed s suffixes)).isSome = (ofText s).isSome := by
  induction suffixes with
  | nil => rfl
  | cons blanks more ih =>
    rw [StoreName.bracketed, ofText_append_brackets, Option.isSome_map,
      ofText_append_blanks (hblank blanks List.mem_cons_self)]
    exact ih fun b hb => hblank b (List.mem_cons_of_mem _ hb)

/-- By induction on the pairs of brackets, the last of the text first: each makes arrays of what the
text before it stands for. -/
theorem nested_of_ofText_bracketed {m : Mapping}
    (h : ofText (StoreName.bracketed s suffixes) = some m) :
    ∃ e, ofText s = some e ∧ m.Nested suffixes.length e := by
  induction suffixes generalizing m with
  | nil => exact ⟨m, h, .zero⟩
  | cons blanks more ih =>
    rw [StoreName.bracketed, ofText_append_brackets,
      ofText_append_blanks (hblank blanks List.mem_cons_self)] at h
    obtain ⟨item, hitem, rfl⟩ := Option.map_eq_some_iff.mp h
    obtain ⟨e, he, hnested⟩ := ih (fun b hb => hblank b (List.mem_cons_of_mem _ hb)) hitem
    exact ⟨e, he, .succ hnested⟩

end Bracketed

section Layout

variable {l : StoreName.Layout} (hl : l.Regular)

include hl

/-- What is looked up of a layout is its core. -/
theorem ofText_front_core : ofText (l.front ++ l.core) = standardOfName l.core := by
  rw [ofText_blanks_append l.front_blank,
    ofText_of_canonical (StoreName.Layout.canonical?_core hl), StoreName.Layout.trim_core hl]

theorem isSome_ofText_layout : (ofText l.text).isSome = (standardOfName l.core).isSome := by
  rw [StoreName.Layout.text, ofText_append_blanks l.back_blank,
    isSome_ofText_bracketed l.suffixes_blank, ofText_front_core hl]

/-- A text stands for as many levels of arrays as it has pairs of brackets, over what its name and
facets stand for. -/
theorem nested_of_ofText_layout {m : Mapping} (h : ofText l.text = some m) :
    ∃ e, standardOfName l.core = some e ∧ m.Nested l.suffixes.length e := by
  rw [StoreName.Layout.text, ofText_append_blanks l.back_blank] at h
  obtain ⟨e, he, hnested⟩ := nested_of_ofText_bracketed l.suffixes_blank h
  exact ⟨e, (ofText_front_core hl).symm.trans he, hnested⟩

end Layout

end Catalog

/-! ## The names that the catalog knows -/

namespace StoreName

/-- The names of store types, without aliases. -/
def names : List (List Char) := canonicalTypes.map fun p => p.1.toList

/-- A name as it may be written: what stands before the facets, what stands behind them, and the
canonical name. -/
structure Wording where
  name : String
  zone : String
  canonical : String

/-- The families of time types, with a zone behind the facets. -/
def zonedWordings : List Wording :=
  [⟨"timestamp", " with time zone", "timestamp with time zone"⟩,
   ⟨"timestamp", " without time zone", "timestamp without time zone"⟩,
   ⟨"time", " without time zone", "time without time zone"⟩]

/-- Every canonical name and every alias, with nothing behind the facets, and the families of time
types. -/
def wordings : List Wording :=
  canonicalTypes.map (fun p => ⟨p.1, "", p.1⟩) ++ aliases.map (fun p => ⟨p.1, "", p.2⟩) ++
    zonedWordings

theorem join_nil (base : List Char) : join base [] = base := by
  simp [join]

/-- The text may stand for a name: it is not empty, opens nothing and has no blanks around it. -/
structure IsPlain (s : List Char) : Prop where
  ne_nil : s ≠ []
  opensNothing : OpensNothing s
  trimmed : Text.trim s = s

instance (s : List Char) : Decidable (IsPlain s) :=
  decidable_of_iff (s ≠ [] ∧ OpensNothing s ∧ Text.trim s = s)
    ⟨fun ⟨hne, hopens, htrim⟩ => ⟨hne, hopens, htrim⟩,
      fun h => ⟨h.ne_nil, h.opensNothing, h.trimmed⟩⟩

/-- Names and aliases are plain: they have neither facets nor brackets. -/
theorem isPlain_of_known : ∀ n ∈ names ++ aliases.map fun p => p.1.toList, IsPlain n := by
  decide +kernel

/-- No name of a type has blanks around it, capitals, facets or brackets. -/
theorem isPlain_of_name {n : List Char} (hn : n ∈ names) : IsPlain n :=
  isPlain_of_known n (List.mem_append_left _ hn)

theorem isPlain_of_alias {p : String × String} (hp : p ∈ aliases) : IsPlain p.1.toList :=
  isPlain_of_known _ (List.mem_append_right _ (List.mem_map.mpr ⟨p, hp, rfl⟩))

/-- Names are in lower case, and no name is an alias of another one. -/
theorem unchanged_of_name : ∀ n ∈ names, n.map Char.toLower = n ∧ resolveAlias n = n := by
  decide +kernel

/-- A name of a type is resolved to itself. -/
theorem canonical_of_name {n : List Char} (hn : n ∈ names) : canonical? n = some n := by
  have hplain := isPlain_of_name hn
  obtain ⟨hlower, halias⟩ := unchanged_of_name n hn
  have hsplit := splitFacets?_plain hplain.ne_nil hplain.opensNothing
  simp only [canonical?, hplain.trimmed, hlower, hsplit, Option.map_some, halias]
  exact congrArg some (join_nil n)

/-- What a wording is led to. -/
theorem join_of_wording {w : Wording} (hw : w ∈ wordings) :
    join (resolveAlias w.name.toList) w.zone.toList = w.canonical.toList ∧
      w.canonical.toList ∈ names := by
  have haliases : ∀ p ∈ aliases, resolveAlias p.1.toList = p.2.toList ∧ p.2.toList ∈ names := by
    decide +kernel
  have hzoned : ∀ w ∈ zonedWordings,
      join (resolveAlias w.name.toList) w.zone.toList = w.canonical.toList ∧
        w.canonical.toList ∈ names := by
    decide +kernel
  rw [wordings, List.mem_append, List.mem_append, List.mem_map, List.mem_map] at hw
  rcases hw with (⟨p, hp, rfl⟩ | ⟨p, hp, rfl⟩) | hw
  · have hname : p.1.toList ∈ names := List.mem_map.mpr ⟨p, hp, rfl⟩
    exact ⟨(join_nil _).trans (unchanged_of_name _ hname).2, hname⟩
  · obtain ⟨halias, hname⟩ := haliases p hp
    exact ⟨(join_nil _).trans halias, hname⟩
  · exact hzoned w hw

/-- The text is written with the wording's name and zone, in any letter case. -/
structure Layout.Writes (l : Layout) (w : Wording) : Prop where
  name : l.name.map Char.toLower = w.name.toList
  zone : l.rest.map Char.toLower = w.zone.toList

/-- What stands behind the facets, if anything does, is for no other part of the text either. -/
theorem plain_of_wording {w : Wording} (hw : w ∈ wordings) :
    IsPlain w.name.toList ∧ OpensNothing w.zone.toList ∧
      Text.trimEnd w.zone.toList = w.zone.toList := by
  have hzoned : ∀ w ∈ zonedWordings, w.name ∈ aliases.map Prod.fst ∧ OpensNothing w.zone.toList ∧
      Text.trimEnd w.zone.toList = w.zone.toList := by
    decide
  have hnone : OpensNothing "".toList ∧ Text.trimEnd "".toList = "".toList := by decide
  rw [wordings, List.mem_append, List.mem_append, List.mem_map, List.mem_map] at hw
  rcases hw with (⟨p, hp, rfl⟩ | ⟨p, hp, rfl⟩) | hw
  · exact ⟨isPlain_of_name (List.mem_map.mpr ⟨p, hp, rfl⟩), hnone⟩
  · exact ⟨isPlain_of_alias hp, hnone⟩
  · obtain ⟨hname, hzone⟩ := hzoned w hw
    obtain ⟨p, hp, hpname⟩ := List.mem_map.mp hname
    exact ⟨hpname ▸ isPlain_of_alias hp, hzone⟩

/-- Letter case matters to no part of a text. -/
theorem Layout.regular_of_lower {l : Layout} (hname : IsPlain (l.name.map Char.toLower))
    (hrest : OpensNothing (l.rest.map Char.toLower))
    (hend : Text.trimEnd (l.rest.map Char.toLower) = l.rest.map Char.toLower) : l.Regular := by
  have htrim := hname.trimmed
  rw [Text.trim_map_toLower] at htrim
  rw [Text.trimEnd_map_toLower] at hend
  exact
    { name_ne := by simpa using hname.ne_nil
      name_plain := opensNothing_map_toLower.mp hname.opensNothing
      name_trimmed := Text.trim_eq_of_length (by simpa using congrArg List.length htrim)
      rest_plain := opensNothing_map_toLower.mp hrest
      rest_trimmed := Text.trimEnd_eq_of_length (by simpa using congrArg List.length hend) }

theorem Layout.Writes.regular {l : Layout} {w : Wording} (hw : w ∈ wordings) (h : l.Writes w) :
    l.Regular := by
  obtain ⟨hname, hrest, hend⟩ := plain_of_wording hw
  rw [← h.name] at hname
  rw [← h.zone] at hrest hend
  exact Layout.regular_of_lower hname hrest hend

end StoreName

namespace Catalog

/-- A name is known just if it is resolved to one of the listed names. -/
theorem isSome_standardOfName {s c : List Char} (hc : StoreName.canonical? s = some c) :
    (standardOfName s).isSome ↔ c ∈ StoreName.names := by
  have hsome := congrArg Option.isSome (standardOfName_eq hc)
  rw [Option.isSome_map, Option.isSome_map] at hsome
  simp [hsome, StoreName.names, List.find?_isSome]

/-- However a name is written, in whatever case, with blanks around it, with facets and with
brackets, it is looked up under the trimmed text: as arrays, one level for each pair of brackets, of
what the canonical name stands for. -/
theorem ofStore_wording {l : StoreName.Layout} {w : StoreName.Wording}
    (hw : w ∈ StoreName.wordings) (h : l.Writes w) :
    ∃ canonical m, standard.ofStore w.canonical = some canonical ∧
      standard.ofStore (String.ofList l.text) = some m ∧
      m.store = String.ofList (Text.trim l.text) ∧
      m.Nested l.suffixes.length (canonical.named (String.ofList l.core)) := by
  have hl : l.Regular := h.regular hw
  obtain ⟨hjoin, hmem⟩ := StoreName.join_of_wording hw
  have hself := StoreName.canonical_of_name hmem
  have htrim := (StoreName.isPlain_of_name hmem).trimmed
  obtain ⟨canonical, hname⟩ := Option.isSome_iff_exists.mp ((isSome_standardOfName hself).mpr hmem)
  -- The canonical name is looked up as it is, with nothing to trim or to split off.
  have hcanonical : standard.ofStore w.canonical = some canonical := by
    rw [← String.ofList_toList (s := w.canonical), ofStore_ofList, ofText_of_canonical hself, htrim,
      hname]
  -- Lower case and joining make the canonical name of the core.
  have hcore : standardOfName l.core = some (canonical.named (String.ofList l.core)) := by
    have hled := StoreName.Layout.canonical?_core hl
    rw [h.name, h.zone, hjoin] at hled
    rw [standardOfName_of_canonical hled hself, hname, Option.map_some]
  -- Brackets and blanks around a known core do not make it unknown.
  obtain ⟨m, hm⟩ : ∃ m, ofText l.text = some m := by
    rw [← Option.isSome_iff_exists, isSome_ofText_layout hl, hcore]
    rfl
  -- The elements at the bottom are those of the core.
  obtain ⟨e, he, hnested⟩ := nested_of_ofText_layout hl hm
  obtain rfl := Option.some.inj (hcore.symm.trans he)
  refine ⟨canonical, m, hcanonical, ?_, store_of_ofText hm, hnested⟩
  rw [ofStore_ofList, hm]

/-- The time with a zone in capitals, with blanks and facets, as arrays of arrays. -/
theorem ofStore_stamps :
    ∃ m, standard.ofStore " TIMESTAMP (3) With Time Zone [] [] " = some m ∧
      m.store = "TIMESTAMP (3) With Time Zone [] []" ∧
      m.Nested 2 (.scalar "TIMESTAMP (3) With Time Zone" .dateTime) := by
  let facets : StoreName.Facets :=
    { blanks := [' '], inside := ['3'], rest := " With Time Zone".toList
      blanks_blank := by decide, inside_open := by decide }
  let l : StoreName.Layout :=
    { front := [' '], name := "TIMESTAMP".toList, facets? := some facets
      suffixes := [[' '], [' ']], back := [' ']
      front_blank := by decide, suffixes_blank := by decide, back_blank := by decide }
  have hw : (⟨"timestamp", " with time zone", "timestamp with time zone"⟩ : StoreName.Wording) ∈
      StoreName.wordings := by
    simp [StoreName.wordings, StoreName.zonedWordings]
  have hwrites : l.Writes ⟨"timestamp", " with time zone", "timestamp with time zone"⟩ :=
    ⟨by decide, by decide⟩
  obtain ⟨canonical, m, hcanonical, hm, hstore, hnested⟩ := ofStore_wording hw hwrites
  have hzoned : canonical = .scalar "timestamp with time zone" .dateTime :=
    Option.some.inj (hcanonical.symm.trans rfl)
  have htext : l.text = " TIMESTAMP (3) With Time Zone [] [] ".toList := by decide +kernel
  have htrim : Text.trim l.text = "TIMESTAMP (3) With Time Zone [] []".toList := by decide +kernel
  have hcore : l.core = "TIMESTAMP (3) With Time Zone".toList := by decide +kernel
  rw [htrim, String.ofList_toList] at hstore
  rw [htext, String.ofList_toList] at hm
  rw [hzoned, hcore, String.ofList_toList] at hnested
  exact ⟨m, hm, hstore, hnested⟩

end Catalog

end QuerySql
