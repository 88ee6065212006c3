import QuerySql.Mapping.Catalog
import QuerySql.Mapping.Literal
import Mathlib.Data.List.TakeWhile

/-!
# Spellings of store types

A mapping keeps the spelling of its store type, and its literals are written after that spelling.
The catalog leads many spellings to one canonical name, so literals of one store type may differ.

* `StoreName.splitFacets?_brackets`: no array has a canonical name.
* `StoreName.canonical?_zonedStart`: what starts with the full name of a point in time is led to a
  name of a timestamp.
* `Mapping.literal_eq_iff`: of the spelling, only the cast to money and the zone of a timestamp
  show.
* `Catalog.literal_ofStore_eq_iff`: when two spellings of one store type write the same literals.
-/

namespace QuerySql

/-! ## Trimming -/

namespace Text

theorem eq_false_of_dropWhile {p : Char → Bool} {s r : List Char} {c : Char}
    (h : s.dropWhile p = c :: r) : p c = false := by
  have hhead := List.head?_dropWhile_not p s
  rw [h] at hhead
  exact hhead

section Plain

variable {c : Char} (hc : isBlank c = false) (front s : List Char)

include hc

theorem trimStart_append_cons : trimStart (front ++ c :: s) = trimStart front ++ c :: s := by
  induction front with
  | nil => simp [trimStart, hc]
  | cons d front ih =>
    by_cases hd : isBlank d = true
    · rw [List.cons_append, trimStart_blank_cons hd, trimStart_blank_cons hd, ih]
    · simp [trimStart, hd]

theorem trimEnd_cons : trimEnd (c :: s) = c :: trimEnd s := by
  cases h : trimEnd s <;> simp [trimEnd, h, hc]

theorem trimEnd_append_cons : trimEnd (front ++ c :: s) = front ++ c :: trimEnd s := by
  induction front with
  | nil => exact trimEnd_cons hc s
  | cons d front ih =>
    rw [List.cons_append, trimEnd, ih]
    cases front <;> rfl

/-- A text that ends in no blank is trimmed at its start only. -/
theorem trim_concat : trim (front ++ [c]) = trimStart (front ++ [c]) := by
  rw [trim, trimStart_append_cons hc, trimEnd_append_cons hc]
  rfl

theorem trimStart_cons : trimStart (c :: s) = c :: s := by simp [trimStart, hc]

end Plain

/-- Trimming twice trims no more than trimming once. -/
theorem trimEnd_trimEnd (s : List Char) : trimEnd (trimEnd s) = trimEnd s := by
  induction s with
  | nil => rfl
  | cons c s ih =>
    cases h : trimEnd s with
    | nil => by_cases hc : isBlank c = true <;> simp [trimEnd, h, hc]
    | cons d r =>
      have hcons : trimEnd (c :: s) = c :: d :: r := by rw [trimEnd, h]
      rw [h] at ih
      rw [hcons, trimEnd, ih]

theorem trim_trim (s : List Char) : trim (trim s) = trim s := by
  have hstart : trimStart (trim s) = trim s := by
    cases hs : trimStart s with
    | nil =>
      rw [trim, hs]
      rfl
    | cons c r =>
      have hc : isBlank c = false := eq_false_of_dropWhile hs
      rw [trim, hs, trimEnd_cons hc, trimStart_cons hc]
  rw [trim, hstart, trim, trimEnd_trimEnd]

end Text

/-! ## Canonical names -/

namespace StoreName

/-- What is split off the name is its text up to the first facets. -/
theorem base_of_splitFacets? {s base rest : List Char} (h : splitFacets? s = some (base, rest)) :
    base = s.takeWhile fun c => !isOpening c := by
  grind [splitFacets?]

/-- A character of a text that ends in brackets is one of the two, or the opening one comes later.
-/
theorem mem_of_ends_in_brackets {front rest s : List Char} {c : Char}
    (h : front ++ c :: rest = s ++ ['[', ']']) : c = '[' ∨ c = ']' ∨ '[' ∈ rest := by
  have hreverse : rest.reverse ++ c :: front.reverse = ']' :: '[' :: s.reverse := by
    simpa using congrArg List.reverse h
  rw [← List.mem_reverse]
  generalize rest.reverse = r at hreverse ⊢
  rcases r with _ | ⟨d, _ | ⟨e, r⟩⟩ <;> simp_all

/-- A name that ends in brackets has no facets to be split off, for what follows facets opens
nothing. -/
theorem splitFacets?_brackets (s : List Char) : splitFacets? (s ++ ['[', ']']) = none := by
  have htake := List.takeWhile_append_dropWhile (p := fun c => !isOpening c) (l := s ++ ['[', ']'])
  unfold splitFacets?
  simp only
  split
  · rfl
  split
  next hnil =>
    have hopen := (List.dropWhile_eq_nil_iff.mp hnil) '[' (by simp)
    simp [isOpening] at hopen
  next inside hparen =>
    split
    · rfl
    next c rest hrest =>
      have hclose : c = ')' := by simpa using Text.eq_false_of_dropWhile hrest
      have hinside := List.takeWhile_append_dropWhile (p := fun c => c != ')') (l := inside)
      rw [hparen, ← hinside, hrest, ← List.cons_append, ← List.append_assoc, hclose] at htake
      rcases mem_of_ends_in_brackets htake with hc | hc | hmem
      · cases hc
      · cases hc
      · rw [if_pos (List.any_eq_true.mpr ⟨'[', hmem, rfl⟩)]
  next => rfl

/-- Blanks around a name do not matter for what it is resolved to. -/
theorem canonical?_trim (s : List Char) : canonical? (Text.trim s) = canonical? s := by
  rw [canonical?, canonical?, Text.trim_trim]

/-- A name of an array is not resolved as a whole. -/
theorem canonical?_brackets {s front : List Char} (h : Text.trim s = front ++ ['[', ']']) :
    canonical? s = none := by
  have hlower : (Text.trim s).map Char.toLower = front.map Char.toLower ++ ['[', ']'] := by
    rw [h, List.map_append]
    rfl
  rw [canonical?, hlower, splitFacets?_brackets]
  rfl

theorem canonical?_money {s : List Char} (h : Text.trim s = "money".toList) :
    canonical? s = some "money".toList := by
  rw [canonical?, h]
  rfl

/-- The start of the names under which a timestamp counts as zoned. -/
def zonedStart : List Char := "timestamp with time zone".toList

/-- The name of a zoned timestamp is no alias, whatever follows it. -/
theorem resolveAlias_zonedStart (r : List Char) :
    resolveAlias (zonedStart ++ r) = zonedStart ++ r := by
  have hshort : ∀ p ∈ aliases, zonedStart.isPrefixOf p.1.toList = false := by decide
  have hfind : aliases.find? (fun p => p.1.toList == zonedStart ++ r) = none := by
    rw [List.find?_eq_none]
    intro p hp heq
    have hstart := hshort p hp
    rw [eq_of_beq heq, List.isPrefixOf_iff_prefix.mpr (List.prefix_append _ _)] at hstart
    cases hstart
  rw [resolveAlias, hfind]

theorem trim_zonedStart (r : List Char) :
    Text.trim (zonedStart ++ r) = zonedStart ++ Text.trimEnd r := by
  have hends : zonedStart = 't' :: ("imestamp with time zon".toList ++ ['e']) := by decide
  have hfirst : Text.isBlank 't' = false := by decide
  have hlast : Text.isBlank 'e' = false := by decide
  rw [hends, List.cons_append, List.append_assoc, Text.trim, Text.trimStart_cons hfirst,
    Text.trimEnd_cons hfirst, List.singleton_append, Text.trimEnd_append_cons hlast]
  simp

/-- Whatever follows a name that begins like a zoned timestamp, the whole begins with `timestamp`.
-/
theorem join_zonedStart (more rest : List Char) :
    "timestamp".toList <+: join (zonedStart ++ more) rest := by
  have htimestamp : "timestamp".toList.isPrefixOf (zonedStart ++ more) = true := rfl
  cases rest with
  | nil => exact ⟨" with time zone".toList ++ (more ++ []), rfl⟩
  | cons c rest =>
    rw [join, htimestamp]
    exact ⟨c :: rest, rfl⟩

/-- No alias starts like that, so what the name is led to is a name of a timestamp too. -/
theorem canonical?_zonedStart {s c : List Char} (h : zonedStart <+: Text.trim s)
    (hc : canonical? s = some c) : "timestamp".toList <+: c := by
  obtain ⟨tail, htail⟩ := h
  obtain ⟨⟨base, rest⟩, hsplit, rfl⟩ := Option.map_eq_some_iff.mp hc
  have hlower : (Text.trim s).map Char.toLower = zonedStart ++ tail.map Char.toLower := by
    rw [← htail, List.map_append]
    rfl
  have hclosed : ∀ c ∈ zonedStart, (!isOpening c) = true := List.all_eq_true.mp rfl
  have hbase : base = zonedStart ++ (tail.map Char.toLower).takeWhile fun c => !isOpening c := by
    rw [base_of_splitFacets? hsplit, hlower, List.takeWhile_append_of_pos hclosed]
  simp only [hbase, trim_zonedStart, resolveAlias_zonedStart]
  exact join_zonedStart _ _

end StoreName

/-! ## Literals of two mappings -/

namespace Mapping

variable {m n : Mapping} {v : Value}

/-- The cast to money depends on the store type as it is written. -/
theorem castMoney_eq_iff {s : String} :
    m.castMoney s = n.castMoney s ↔ (m.store = "money" ↔ n.store = "money") := by
  by_cases hm : m.store = "money" <;> by_cases hn : n.store = "money" <;>
    simp [castMoney_eq_append, hm, hn, eq_comm (a := s)]

/-- Nothing but a timestamp is written after the store type, the cast apart. -/
theorem plainLiteral_eq (h : ∀ t, v = .dateTime t → m.isZoned = n.isZoned) :
    m.plainLiteral v = n.plainLiteral v := by
  cases v with
  | dateTime t => simp only [plainLiteral, h t rfl]
  | _ => rfl

/-- Literals of a timestamp that are equal have the same prefix, so both mappings are zoned or
neither is. -/
theorem isZoned_of_literal_eq {t : Timestamp}
    (h : m.literal (.dateTime t) = n.literal (.dateTime t)) : m.isZoned = n.isZoned := by
  have hstart := congrArg (fun s : String => s.toList.take 10) h
  simp only [literal, castMoney_eq_append, plainLiteral] at hstart
  cases hm : m.isZoned <;> cases hn : n.isZoned <;> simp [hm, hn] at hstart ⊢

/-- The printer makes two comparisons with the store type: one for money, one for timestamps. -/
theorem literal_eq_iff (harray : ∀ vs, v ≠ .array vs) :
    m.literal v = n.literal v ↔ v = .null ∨ ((m.store = "money" ↔ n.store = "money") ∧
      ∀ t, v = .dateTime t → m.isZoned = n.isZoned) := by
  by_cases hnull : v = .null
  · subst hnull
    simp [literal]
  constructor
  · intro h
    have hzoned : ∀ t, v = .dateTime t → m.isZoned = n.isZoned := by
      rintro t rfl
      exact isZoned_of_literal_eq h
    rw [literal_eq_castMoney hnull harray, literal_eq_castMoney hnull harray,
      plainLiteral_eq hzoned, castMoney_eq_iff] at h
    exact .inr ⟨h, hzoned⟩
  · rintro (h | ⟨hmoney, hzoned⟩)
    · exact absurd h hnull
    · rw [literal_eq_castMoney hnull harray, literal_eq_castMoney hnull harray,
        plainLiteral_eq hzoned, castMoney_eq_iff]
      exact hmoney

end Mapping

/-! ## Looking up a spelling -/

namespace Catalog

/-- What a name stands for that is no array's. -/
theorem standardOfReversed_eq (r : List Char) :
    (∃ front, Text.trim r.reverse = front ++ ['[', ']']) ∨
      standardOfReversed r = standardOfName (Text.trim r.reverse) := by
  fun_induction standardOfReversed r with
  | case1 r ih =>
    have hbrackets : (']' :: '[' :: r).reverse = r.reverse ++ '[' :: [] ++ [']'] := by simp
    have hplain : Text.isBlank ']' = false := by decide
    have hopen : Text.isBlank '[' = false := by decide
    rw [hbrackets, Text.trim_concat hplain]
    refine .inl ⟨Text.trimStart r.reverse, ?_⟩
    rw [List.append_assoc, List.cons_append, Text.trimStart_append_cons hopen]
    rfl
  | case2 c r _ hc ih =>
    rw [List.reverse_cons, Text.trim_append_blank hc]
    exact ih
  | case3 c r _ hc =>
    right
    rw [List.reverse_cons, Text.trim_concat (by simpa using hc)]
  | case4 => exact .inr rfl

/-- What a name without brackets stands for is decided by what it is resolved to. -/
theorem standardOfName_eq {s c : List Char} (hc : StoreName.canonical? s = some c) :
    (standardOfName s).map (fun m => (m.store, m.ty)) =
      (StoreName.canonicalTypes.find? fun p => p.1.toList == c).map
        fun p => (String.ofList s, p.2) := by
  cases hfind : StoreName.canonicalTypes.find? fun p => p.1.toList == c with
  | none => simp [standardOfName, hc, hfind]
  | some p =>
    simp only [standardOfName, hc, hfind, Option.bind_eq_bind, Option.bind_some, Option.map_some]
    split <;> rfl

variable {a b : String} {c : List Char} {m : Mapping}

/-- Any two spellings of a name are looked up with the same success. -/
theorem ofStore_of_canonical (hc : StoreName.canonical? a.toList = some c) :
    (standard.ofStore a).map (fun m => (m.store, m.ty)) =
      (StoreName.canonicalTypes.find? fun p => p.1.toList == c).map
        fun p => (String.ofList (Text.trim a.toList), p.2) := by
  have hname : standard.ofStore a = standardOfName (Text.trim a.toList) := by
    rcases standardOfReversed_eq a.toList.reverse with ⟨front, hfront⟩ | hname
    · rw [List.reverse_reverse] at hfront
      rw [StoreName.canonical?_brackets hfront] at hc
      cases hc
    · rwa [List.reverse_reverse] at hname
  rw [hname, standardOfName_eq]
  rwa [StoreName.canonical?_trim]

/-- Of the store types there are, two are timestamps. -/
theorem eq_timestamp_of_canonical (hc : StoreName.canonical? a.toList = some c)
    (hm : standard.ofStore a = some m) (hzoned : StoreName.zonedStart <+: Text.trim a.toList) :
    c = "timestamp with time zone".toList ∨ c = "timestamp without time zone".toList := by
  have htwo : ∀ p ∈ StoreName.canonicalTypes, "timestamp".toList.isPrefixOf p.1.toList = true →
      p.1.toList = "timestamp with time zone".toList ∨
        p.1.toList = "timestamp without time zone".toList := by
    decide
  have hstart := StoreName.canonical?_zonedStart hzoned hc
  have hfound := ofStore_of_canonical hc
  rw [hm] at hfound
  obtain ⟨p, hp, -⟩ := Option.map_eq_some_iff.mp hfound.symm
  have hname : p.1.toList = c := by simpa using List.find?_some hp
  rw [← hname] at hstart ⊢
  exact htwo p (List.mem_of_find?_eq_some hp) (List.isPrefixOf_iff_prefix.mpr hstart)

theorem store_eq_money_iff {s : List Char} (hm : m.store = String.ofList s) :
    m.store = "money" ↔ s = "money".toList := by
  rw [hm, ← String.toList_inj, String.toList_ofList]

theorem isZoned_iff {s : List Char} (hm : m.store = String.ofList s) :
    m.isZoned = true ↔ StoreName.zonedStart <+: s := by
  have hstart : m.isZoned = StoreName.zonedStart.isPrefixOf m.store.toList := rfl
  rw [hstart, hm, String.toList_ofList, List.isPrefixOf_iff_prefix]

/-- Two spellings of one store type stand for mappings of the same type, which write a value that is
no array alike, with two exceptions: amounts of money if only one of the two is the plain name, and
timestamps if only one of the two starts with the full name of a point in time. -/
theorem literal_ofStore_eq_iff (ha : StoreName.canonical? a.toList = some c)
    (hb : StoreName.canonical? b.toList = some c) (hm : standard.ofStore a = some m) :
    ∃ n, standard.ofStore b = some n ∧ n.ty = m.ty ∧ ∀ v : Value, (∀ vs, v ≠ .array vs) →
      (m.literal v = n.literal v ↔ v = .null ∨
        ((c = "money".toList →
            (Text.trim a.toList = "money".toList ↔ Text.trim b.toList = "money".toList)) ∧
          (c = "timestamp with time zone".toList ∨ c = "timestamp without time zone".toList →
            ∀ t, v = .dateTime t →
              (StoreName.zonedStart <+: Text.trim a.toList ↔
                StoreName.zonedStart <+: Text.trim b.toList)))) := by
  have hfound := ofStore_of_canonical ha
  rw [hm] at hfound
  obtain ⟨p, hp, hmp⟩ := Option.map_eq_some_iff.mp hfound.symm
  obtain ⟨hstore, hty⟩ := Prod.mk.inj hmp
  have hother := ofStore_of_canonical hb
  rw [hp] at hother
  obtain ⟨n, hn, hnp⟩ := Option.map_eq_some_iff.mp hother
  obtain ⟨hstore', hty'⟩ := Prod.mk.inj hnp
  refine ⟨n, hn, hty'.trans hty, fun v harray => ?_⟩
  -- Only spellings of the two families get to the comparisons that the printer makes.
  have hmoney (h : Text.trim a.toList = "money".toList ∨ Text.trim b.toList = "money".toList) :
      c = "money".toList := by
    rcases h with h | h
    · exact Option.some.inj (ha.symm.trans (StoreName.canonical?_money h))
    · exact Option.some.inj (hb.symm.trans (StoreName.canonical?_money h))
  have hzoned (h : StoreName.zonedStart <+: Text.trim a.toList ∨
      StoreName.zonedStart <+: Text.trim b.toList) :
      c = "timestamp with time zone".toList ∨ c = "timestamp without time zone".toList := by
    rcases h with h | h
    · exact eq_timestamp_of_canonical ha hm h
    · exact eq_timestamp_of_canonical hb hn h
  rw [Mapping.literal_eq_iff harray, store_eq_money_iff hstore.symm, store_eq_money_iff hstore',
    Bool.eq_iff_iff, isZoned_iff hstore.symm, isZoned_iff hstore']
  grind

/-- A blank before the facets of the full name, and blanks around it, are no exception. -/
theorem literal_ofStore_blanks :
    let full := "timestamp with time zone"
    let facets := " timestamp with time zone (3)"
    let m : Mapping := .scalar full .dateTime
    StoreName.canonical? full.toList = some full.toList ∧
      StoreName.canonical? facets.toList = some full.toList ∧ standard.ofStore full = some m ∧
      ∃ n, standard.ofStore facets = some n ∧ n.ty = .dateTime ∧
        ∀ t, m.literal (.dateTime t) = n.literal (.dateTime t) := by
  intro full facets m
  have hfull : StoreName.canonical? full.toList = some full.toList := by decide +kernel
  have hfacets : StoreName.canonical? facets.toList = some full.toList := by decide +kernel
  have hm : standard.ofStore full = some m := by decide +kernel
  obtain ⟨n, hn, hty, hliteral⟩ := literal_ofStore_eq_iff hfull hfacets hm
  have hzoned : StoreName.zonedStart <+: Text.trim full.toList ↔
      StoreName.zonedStart <+: Text.trim facets.toList := by decide +kernel
  refine ⟨hfull, hfacets, hm, n, hn, hty, fun t => ?_⟩
  have hmoney : full.toList ≠ "money".toList := by decide
  have hiff := hliteral (.dateTime t) (by simp)
  exact hiff.mpr (.inr ⟨fun h => absurd h hmoney, fun _ _ _ => hzoned⟩)

/-- Two spellings that lose what their store type asks for: the alias of the type with a zone writes
no zone, and the name in capitals no cast to money. -/
theorem spelling_changes_literal :
    let day : Date := ⟨2020, 1, 2, by decide, by decide⟩
    let noon : Timestamp := ⟨day, 12, 0, 0, 0, by decide, by decide, by decide, by decide⟩
    StoreName.canonical? "timestamptz".toList =
        StoreName.canonical? "timestamp with time zone".toList ∧
      (standard.ofStore "timestamptz").map (Mapping.literal · (.dateTime noon)) =
        some "TIMESTAMP '2020-01-02T12:00:00'" ∧
      (standard.ofStore "timestamp with time zone").map (Mapping.literal · (.dateTime noon)) =
        some "TIMESTAMPTZ '2020-01-02T12:00:00Z'" ∧
      StoreName.canonical? "MONEY".toList = StoreName.canonical? "money".toList ∧
      (standard.ofStore "MONEY").map (Mapping.literal · (.decimal "12.50")) = some "12.50" ∧
      (standard.ofStore "money").map (Mapping.literal · (.decimal "12.50")) =
        some "12.50::money" := by
  decide +kernel

end Catalog

end QuerySql
