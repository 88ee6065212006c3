import QuerySql.Proofs.StoreNames

/-!
# Texts that are glued into names of store types

Facets are taken out of a name, and what stands before and behind them is put together before the
catalog is asked. So facets in the middle of a name are accepted too, and so are two names of times
that contradict each other.

* `StoreName.exists_layout`: every text that is looked up is a layout.
* `StoreName.Complete`: what is written is a name, or a family of times with a zone behind its
  facets.
* `StoreName.Glued`: the text before the facets and the text behind them are no name and no family
  with its zone, but are put together into the name of another type.
* `Catalog.incomplete_iff_glued`: the glued texts are those that are looked up and should not be.
-/

namespace QuerySql

namespace StoreName

/-! ## Every text is a layout -/

/-- The parts of a text that is trimmed and has a canonical name. -/
theorem exists_layout_core {t c : List Char} (ht : Text.trim t = t) (hc : canonical? t = some c) :
    ∃ l : Layout, l.Regular ∧ l.front = [] ∧ l.suffixes = [] ∧ l.back = [] ∧ l.core = t := by
  rw [canonical?, ht, splitFacets?_map_toLower, Option.map_map] at hc
  obtain ⟨⟨base, rest⟩, hsplit, -⟩ := Option.map_eq_some_iff.mp hc
  obtain ⟨hne, hbase, hrest, ⟨rfl, rfl⟩ | ⟨inside, hinside, rfl⟩⟩ := splitFacets?_eq_some hsplit
  · -- Without facets the whole text is the name.
    let l : Layout :=
      { front := [], name := t, facets? := none, suffixes := [], back := []
        front_blank := by decide, suffixes_blank := by simp, back_blank := by decide }
    have hregular : l.Regular :=
      { name_ne := hne, name_plain := hbase, name_trimmed := ht
        rest_plain := hrest, rest_trimmed := rfl }
    exact ⟨l, hregular, rfl, rfl, rfl, List.append_nil t⟩
  · -- With facets the name is what stands in front of them, and the blanks at its end are theirs.
    obtain ⟨blanks, hblanks, hname⟩ := Text.exists_trimEnd_append base
    let f : Facets :=
      { blanks, inside, rest, blanks_blank := hblanks, inside_open := hinside }
    let l : Layout :=
      { front := [], name := Text.trimEnd base, facets? := some f, suffixes := [], back := []
        front_blank := by decide, suffixes_blank := by simp, back_blank := by decide }
    obtain ⟨d, r, hstart, hd⟩ := Text.exists_cons_of_trim ht (by simp)
    obtain ⟨base', rfl⟩ : ∃ base', base = d :: base' := by
      obtain ⟨e, base', rfl⟩ := List.exists_cons_of_ne_nil hne
      exact ⟨base', congrArg (· :: base') (List.cons.inj hstart).1⟩
    -- Blanks at the end of what follows would be at the end of the whole text, which is trimmed.
    have hrestEnd : Text.trimEnd rest = rest := by
      have hparen : Text.isBlank ')' = false := by decide
      have hwhole := Text.trimEnd_of_trim ht
      rw [← List.cons_append, ← List.append_assoc, Text.trimEnd_append_cons hparen] at hwhole
      exact (List.cons.inj (List.append_cancel_left hwhole)).2
    have hregular : l.Regular :=
      { name_ne := by
          change Text.trimEnd (d :: base') ≠ []
          simp [Text.trimEnd_cons hd]
        name_plain := fun c hc => hbase c (by rw [hname]; exact List.mem_append_left _ hc)
        name_trimmed := Text.trim_trimEnd hd base'
        rest_plain := hrest
        rest_trimmed := hrestEnd }
    refine ⟨l, hregular, rfl, rfl, rfl, ?_⟩
    change Text.trimEnd (d :: base') ++ (blanks ++ _) = _
    rw [← List.append_assoc, ← hname]

/-- By induction on the text from its end, as the catalog reads it. -/
theorem exists_layout_reverse {r : List Char} {m : Mapping}
    (h : Catalog.standardOfReversed r = some m) : ∃ l : Layout, l.Regular ∧ l.text = r.reverse := by
  fun_induction Catalog.standardOfReversed r generalizing m with
  -- Brackets at the end: the blanks behind the item are in front of them.
  | case1 r ih =>
    obtain ⟨e, he, -⟩ := Option.map_eq_some_iff.mp h
    obtain ⟨l, hl, htext⟩ := ih he
    let l' : Layout := { l with
      suffixes := l.back :: l.suffixes, back := []
      suffixes_blank := by simpa using ⟨l.back_blank, l.suffixes_blank⟩
      back_blank := by decide }
    refine ⟨l', ⟨hl.name_ne, hl.name_plain, hl.name_trimmed, hl.rest_plain, hl.rest_trimmed⟩, ?_⟩
    have htext' : l'.text = l.text ++ ['[', ']'] := by
      simp [l', Layout.text, Layout.core, bracketed]
    rw [htext', htext]
    simp
  -- A blank at the end.
  | case2 c r _ hc ih =>
    obtain ⟨l, hl, htext⟩ := ih h
    let l' : Layout := { l with
      back := l.back ++ [c]
      back_blank := by
        intro d hd
        rcases List.mem_append.mp hd with hd | hd
        · exact l.back_blank d hd
        · rwa [List.mem_singleton.mp hd] }
    refine ⟨l', ⟨hl.name_ne, hl.name_plain, hl.name_trimmed, hl.rest_plain, hl.rest_trimmed⟩, ?_⟩
    have htext' : l'.text = l.text ++ [c] := by
      simp [l', Layout.text, Layout.core]
    rw [htext', htext, List.reverse_cons]
  -- Neither of them is left at the end, so blanks are in front only and the rest is the core.
  | case3 c r _ hc =>
    obtain ⟨canonical, hcanonical, -⟩ := Option.bind_eq_some_iff.mp h
    have htrim : Text.trimStart (c :: r).reverse = Text.trim (c :: r).reverse := by
      rw [List.reverse_cons, Text.trim_concat (by simpa using hc)]
    rw [htrim] at hcanonical
    obtain ⟨l, hl, hfront, hsuffixes, hback, hcore⟩ :=
      exists_layout_core (Text.trim_trim _) hcanonical
    let l' : Layout := { l with
      front := (c :: r).reverse.takeWhile Text.isBlank
      front_blank := fun d hd => List.mem_takeWhile_imp hd }
    refine ⟨l', ⟨hl.name_ne, hl.name_plain, hl.name_trimmed, hl.rest_plain, hl.rest_trimmed⟩, ?_⟩
    have htext : l'.text = (c :: r).reverse.takeWhile Text.isBlank ++ l.core := by
      simp [l', Layout.text, Layout.core, hsuffixes, hback, bracketed]
    rw [htext, hcore, ← htrim]
    exact List.takeWhile_append_dropWhile
  | case4 => cases h

/-- Every text that the catalog knows can be taken apart into the parts of a name. -/
theorem exists_layout {s : List Char} {m : Mapping} (h : Catalog.ofText s = some m) :
    ∃ l : Layout, l.Regular ∧ l.text = s := by
  simpa using exists_layout_reverse h

/-! ## What is put together -/

/-- The text before the facets and the text behind them are led to a store type. -/
def Joins (name rest : List Char) : Prop := join (resolveAlias name) rest ∈ names

/-- The families of time types, and the zones that may stand behind their facets. -/
def families : List (List Char) :=
  ["timestamp".toList, "timestamptz".toList, "time".toList]

def zones : List (List Char) := [" with time zone".toList, " without time zone".toList]

/-- Two texts, the one before the facets and the one behind them, that are the name of a store type
or an alias with nothing behind it, or a family of time types with its zone. The zone may also be
part of the name. -/
inductive Complete (name rest : List Char) : Prop
  | known (hname : name ∈ names ∨ name ∈ aliases.map fun p => p.1.toList) (hrest : rest = [])
  | zoned (hname : name ∈ families) (hrest : rest ∈ zones)
  | zonedName (family zone : List Char) (hfamily : family ∈ families) (hzone : zone ∈ zones)
      (hname : name = family ++ zone) (hrest : rest = [])

/-- Two texts that are no name with facets, but of which the name of a store type is made: a name
that only starts like a family of time types, with a zone or with the rest of a name behind it, and
any part of a name with the other part behind it. -/
inductive Glued (name rest : List Char) : Prop
  | timestamp (hname : "timestamp".toList <+: name) (hother : name ∉ families)
      (hrest : rest ∈ zones)
  | time (hname : "time".toList <+: name) (hshort : ¬ "timestamp".toList <+: name)
      (hother : name ∉ families) (hrest : rest = " without time zone".toList)
  | stamp (hname : "time".toList <+: name) (hshort : ¬ "timestamp".toList <+: name)
      (hrest : ∃ zone ∈ zones, rest = "stamp".toList ++ zone)
  | parts (hname : ¬ "time".toList <+: name) (hrest : rest ≠ [])
      (hparts : resolveAlias name ++ rest ∈ names)

variable {name rest : List Char}

/-- An alias starts like the name it stands for, as far as times go. -/
theorem prefix_resolveAlias {start : List Char}
    (hstart : start = "timestamp".toList ∨ start = "time".toList) :
    start <+: resolveAlias name ↔ start <+: name := by
  have haliases : ∀ start ∈ ["timestamp".toList, "time".toList], ∀ p ∈ aliases,
      start.isPrefixOf p.2.toList = start.isPrefixOf p.1.toList := by
    decide +kernel
  unfold resolveAlias
  split
  next p hp =>
    have halias : p.1.toList = name := by simpa using List.find?_some hp
    rw [← List.isPrefixOf_iff_prefix, ← List.isPrefixOf_iff_prefix, ← halias,
      haliases start (by simpa using hstart) p (List.mem_of_find?_eq_some hp)]
  next => rfl

/-- The one family of names starts like the other. -/
theorem timestamp_append :
    "timestamp".toList ++ rest = "time".toList ++ ("stamp".toList ++ rest) := by
  have hfamily : "timestamp".toList = "time".toList ++ "stamp".toList := by decide
  rw [hfamily, List.append_assoc]

theorem time_of_timestamp (h : "timestamp".toList <+: name) : "time".toList <+: name := by
  obtain ⟨more, rfl⟩ := h
  exact ⟨_, timestamp_append.symm⟩

theorem join_timestamp (hname : "timestamp".toList <+: name) (hrest : rest ≠ []) :
    join (resolveAlias name) rest = "timestamp".toList ++ rest := by
  have hstart := List.isPrefixOf_iff_prefix.mpr ((prefix_resolveAlias (.inl rfl)).mpr hname)
  simp only [join, hstart, List.isEmpty_eq_false_iff.mpr hrest]
  rfl

theorem join_time (hname : "time".toList <+: name) (hshort : ¬ "timestamp".toList <+: name)
    (hrest : rest ≠ []) : join (resolveAlias name) rest = "time".toList ++ rest := by
  have hstart := List.isPrefixOf_iff_prefix.mpr ((prefix_resolveAlias (.inr rfl)).mpr hname)
  have hlong : "timestamp".toList.isPrefixOf (resolveAlias name) = false := by
    rw [← Bool.not_eq_true, List.isPrefixOf_iff_prefix, prefix_resolveAlias (.inl rfl)]
    exact hshort
  simp only [join, hstart, hlong, List.isEmpty_eq_false_iff.mpr hrest]
  rfl

/-- What follows the facets is put straight behind a name that is not that of a time. -/
theorem join_parts (hname : ¬ "time".toList <+: name) :
    join (resolveAlias name) rest = resolveAlias name ++ rest := by
  have htime : "time".toList.isPrefixOf (resolveAlias name) = false := by
    rw [← Bool.not_eq_true, List.isPrefixOf_iff_prefix, prefix_resolveAlias (.inr rfl)]
    exact hname
  have hlong : "timestamp".toList.isPrefixOf (resolveAlias name) = false := by
    rw [← Bool.not_eq_true, List.isPrefixOf_iff_prefix, prefix_resolveAlias (.inl rfl)]
    exact fun h => hname (time_of_timestamp h)
  simp only [join, htime, hlong, Bool.and_false]
  rfl

/-- The names of times are the zones behind the name of the one family, and one behind the other. -/
theorem names_of_times : names.filter ("time".toList.isPrefixOf ·) =
    zones.map ("timestamp".toList ++ ·) ++ ["time".toList ++ " without time zone".toList] := by
  decide +kernel

/-- The names that begin with `time` are those of times and of timestamps, with a zone. -/
theorem mem_names_of_time {n : List Char} (h : "time".toList <+: n) : n ∈ names ↔
    (∃ zone ∈ zones, n = "timestamp".toList ++ zone) ∨
      n = "time".toList ++ " without time zone".toList := by
  have hstart := List.isPrefixOf_iff_prefix.mpr h
  have hfilter : n ∈ names ↔ n ∈ names.filter ("time".toList.isPrefixOf ·) := by
    simp only [List.mem_filter, hstart, and_true]
  rw [hfilter, names_of_times, List.mem_append, List.mem_map, List.mem_singleton]
  simp only [eq_comm]

theorem timestamp_append_mem : "timestamp".toList ++ rest ∈ names ↔ rest ∈ zones := by
  rw [mem_names_of_time (time_of_timestamp (List.prefix_append _ _))]
  constructor
  · rintro (⟨zone, hzone, heq⟩ | heq)
    · rwa [List.append_cancel_left heq]
    · rw [timestamp_append] at heq
      cases List.append_cancel_left heq
  · exact fun h => .inl ⟨rest, h, rfl⟩

theorem time_append_mem : "time".toList ++ rest ∈ names ↔
    rest = " without time zone".toList ∨ ∃ zone ∈ zones, rest = "stamp".toList ++ zone := by
  rw [mem_names_of_time (List.prefix_append _ _), or_comm]
  simp only [timestamp_append, List.append_cancel_left_eq]

theorem ne_nil_of_zone (h : rest ∈ zones) : rest ≠ [] := by
  rintro rfl
  revert h
  decide

theorem Complete.of_joins_nil (h : Joins name []) : Complete name [] := by
  have hmem : resolveAlias name ∈ names := by rwa [Joins, join_nil] at h
  refine .known ?_ rfl
  unfold resolveAlias at hmem
  split at hmem
  next p hp =>
    have halias : p.1.toList = name := by simpa using List.find?_some hp
    exact .inr (List.mem_map.mpr ⟨p, List.mem_of_find?_eq_some hp, halias⟩)
  next => exact .inl hmem

/-- A store type is made of a name and what is behind its facets, or else of two parts of a name. -/
theorem Joins.complete_or_glued (h : Joins name rest) : Complete name rest ∨ Glued name rest := by
  by_cases hrest : rest = []
  · subst hrest
    exact .inl (.of_joins_nil h)
  by_cases hstamp : "timestamp".toList <+: name
  · rw [Joins, join_timestamp hstamp hrest, timestamp_append_mem] at h
    by_cases hfamily : name ∈ families
    · exact .inl (.zoned hfamily h)
    · exact .inr (.timestamp hstamp hfamily h)
  by_cases htime : "time".toList <+: name
  · rw [Joins, join_time htime hstamp hrest, time_append_mem] at h
    rcases h with h | h
    · by_cases hfamily : name ∈ families
      · exact .inl (.zoned hfamily (by rw [h]; decide))
      · exact .inr (.time htime hstamp hfamily h)
    · exact .inr (.stamp htime hstamp h)
  · rw [Joins, join_parts htime] at h
    exact .inr (.parts htime hrest h)

theorem Glued.rest_ne (h : Glued name rest) : rest ≠ [] := by
  cases h with
  | timestamp _ _ hrest => exact ne_nil_of_zone hrest
  | time _ _ _ hrest =>
    rw [hrest]
    decide
  | stamp _ _ hrest =>
    obtain ⟨zone, -, rfl⟩ := hrest
    simp
  | parts _ hrest _ => exact hrest

/-- A glued text resolves to a name, so the catalog takes it. -/
theorem Glued.joins (h : Glued name rest) : Joins name rest := by
  have hne := h.rest_ne
  cases h with
  | timestamp hname _ hrest =>
    rw [Joins, join_timestamp hname hne]
    exact timestamp_append_mem.mpr hrest
  | time hname hshort _ hrest =>
    rw [Joins, join_time hname hshort hne]
    exact time_append_mem.mpr (.inl hrest)
  | stamp hname hshort hrest =>
    rw [Joins, join_time hname hshort hne]
    exact time_append_mem.mpr (.inr hrest)
  | parts hname _ hparts =>
    rw [Joins, join_parts hname]
    exact hparts

/-- No glued text is a complete name with its zone: the two ways of naming a type exclude each
other. -/
theorem Glued.not_complete (h : Glued name rest) : ¬ Complete name rest := by
  rintro (⟨-, hnil⟩ | ⟨hfamily, hzone⟩ | ⟨-, -, -, -, -, hnil⟩)
  · exact h.rest_ne hnil
  · cases h with
    | timestamp _ hother _ => exact hother hfamily
    | time _ _ hother _ => exact hother hfamily
    | stamp _ _ hrest =>
      have hdiffer : ∀ zone ∈ zones, "stamp".toList ++ zone ∉ zones := by decide
      obtain ⟨zone, hstamp, rfl⟩ := hrest
      exact hdiffer zone hstamp hzone
    | parts hname _ _ =>
      have hfamilies : ∀ family ∈ families, "time".toList.isPrefixOf family = true := by decide
      exact hname (List.isPrefixOf_iff_prefix.mp (hfamilies name hfamily))
  · exact h.rest_ne hnil

end StoreName

/-! ## One text, one core -/

namespace Mapping

theorem Nested.of_array {k : Nat} {store : String} {t : Ty} {m e : Mapping}
    (h : (array store t m).Nested k e) (he : e.element? = none) : ∃ k', m.Nested k' e := by
  generalize hm : array store t m = n at h
  cases h with
  | zero =>
    subst hm
    cases he
  | succ h =>
    obtain ⟨-, -, rfl⟩ := array.inj hm
    exact ⟨_, h⟩

/-- The innermost type of an array and its depth are determined. -/
theorem Nested.eq_of_not_array {m e e' : Mapping} {k k' : Nat} (h : m.Nested k e)
    (h' : m.Nested k' e') (he : e.element? = none) (he' : e'.element? = none) : e = e' := by
  induction h generalizing k' with
  | zero =>
    cases h' with
    | zero => rfl
    | succ => cases he
  | succ _ ih =>
    obtain ⟨k, h'⟩ := h'.of_array he'
    exact ih h' he

end Mapping

namespace Catalog

/-- A name without brackets is not that of an array. -/
theorem element?_of_standardOfName {s : List Char} {m : Mapping} (h : standardOfName s = some m) :
    m.element? = none := by
  obtain ⟨c, hc, h⟩ := Option.bind_eq_some_iff.mp h
  obtain ⟨p, hp, h⟩ := Option.bind_eq_some_iff.mp h
  obtain rfl := Option.some.inj h
  split <;> rfl

variable {l l' : StoreName.Layout}

/-- Whether the catalog knows a text depends on what its name and the text behind the facets join
to. -/
theorem isSome_ofText_iff (hl : l.Regular) : (ofText l.text).isSome ↔
    StoreName.Joins (l.name.map Char.toLower) (l.rest.map Char.toLower) := by
  rw [isSome_ofText_layout hl]
  exact isSome_standardOfName (StoreName.Layout.canonical?_core hl)

/-- The core of a text that is looked up is the name of the innermost elements. -/
theorem core_eq_of_text (hl : l.Regular) (hl' : l'.Regular) (htext : l.text = l'.text)
    (h : (ofText l.text).isSome) : l.core = l'.core := by
  obtain ⟨m, hm⟩ := Option.isSome_iff_exists.mp h
  obtain ⟨e, he, hnested⟩ := nested_of_ofText_layout hl hm
  obtain ⟨e', he', hnested'⟩ := nested_of_ofText_layout hl' (htext ▸ hm)
  obtain rfl := hnested.eq_of_not_array hnested' (element?_of_standardOfName he)
    (element?_of_standardOfName he')
  exact String.ofList_injective
    ((store_of_standardOfName he).symm.trans (store_of_standardOfName he'))

end Catalog

namespace StoreName

/-- What a core is split into depends on its text alone. -/
theorem Layout.parts_eq_of_core {l l' : Layout} (hl : l.Regular) (hl' : l'.Regular)
    (hcore : l.core = l'.core) : l.name = l'.name ∧ l.rest = l'.rest := by
  obtain ⟨blanks, hblanks, hsplit⟩ := splitFacets?_core hl
  obtain ⟨blanks', hblanks', hsplit'⟩ := splitFacets?_core hl'
  rw [hcore, hsplit'] at hsplit
  obtain ⟨hname, hrest⟩ := Prod.mk.inj (Option.some.inj hsplit)
  refine ⟨?_, hrest.symm⟩
  calc l.name = Text.trim (l.name ++ blanks) := by rw [hblanks.trim_append, hl.name_trimmed]
    _ = Text.trim (l'.name ++ blanks') := by rw [hname]
    _ = l'.name := by rw [hblanks'.trim_append, hl'.name_trimmed]

/-- A family of time types is an alias, and with its zone in the name it is plain too. -/
theorem isPlain_of_family {family : List Char} (hfamily : family ∈ families) : IsPlain family := by
  have hfamilies : ∀ family ∈ families, family ∈ aliases.map fun p => p.1.toList := by decide
  exact isPlain_of_known family (List.mem_append_right _ (hfamilies family hfamily))

/-- A complete name has nothing in it that could be taken for facets or brackets. -/
theorem Complete.regular {l : Layout}
    (h : Complete (l.name.map Char.toLower) (l.rest.map Char.toLower)) : l.Regular := by
  have hzones : ∀ rest ∈ [] :: zones, OpensNothing rest ∧ Text.trimEnd rest = rest := by decide
  have hzonedNames : ∀ family ∈ families, ∀ zone ∈ zones, IsPlain (family ++ zone) := by decide
  have hparts : IsPlain (l.name.map Char.toLower) ∧ l.rest.map Char.toLower ∈ [] :: zones := by
    rcases h with ⟨hname, hrest⟩ | ⟨hname, hrest⟩ | ⟨family, zone, hfamily, hzone, hname, hrest⟩
    · exact ⟨isPlain_of_known _ (List.mem_append.mpr hname), List.mem_cons.mpr (.inl hrest)⟩
    · exact ⟨isPlain_of_family hname, List.mem_cons_of_mem _ hrest⟩
    · rw [hname]
      exact ⟨hzonedNames family hfamily zone hzone, List.mem_cons.mpr (.inl hrest)⟩
  obtain ⟨hrest, hend⟩ := hzones _ hparts.2
  exact Layout.regular_of_lower hparts.1 hrest hend

/-- The text is a name, or a family of time types with its zone, in any letter case and with blanks,
facets and brackets where they belong. -/
def IsComplete (s : List Char) : Prop :=
  ∃ l : Layout, l.text = s ∧ Complete (l.name.map Char.toLower) (l.rest.map Char.toLower)

/-- The text is glued into the name of another type. -/
def IsGlued (s : List Char) : Prop :=
  ∃ l : Layout, l.Regular ∧ l.text = s ∧ Glued (l.name.map Char.toLower) (l.rest.map Char.toLower)

/-- The catalog knows every glued text. -/
theorem IsGlued.isSome_ofText {s : List Char} (h : IsGlued s) : (Catalog.ofText s).isSome := by
  obtain ⟨l, hl, rfl, hglued⟩ := h
  exact (Catalog.isSome_ofText_iff hl).mpr hglued.joins

/-- A glued text is no complete name in any other reading of it. -/
theorem IsGlued.not_isComplete {s : List Char} (h : IsGlued s) : ¬ IsComplete s := by
  have hsome := h.isSome_ofText
  obtain ⟨l, hl, rfl, hglued⟩ := h
  rintro ⟨l', htext, hcomplete⟩
  have hl' : l'.Regular := hcomplete.regular
  have hcore := Catalog.core_eq_of_text hl hl' htext.symm hsome
  obtain ⟨hname, hrest⟩ := Layout.parts_eq_of_core hl hl' hcore
  rw [← hname, ← hrest] at hcomplete
  exact hglued.not_complete hcomplete

end StoreName

namespace Catalog

/-- The texts that are looked up although they are no names of store types are the ones that are
glued into a name. -/
theorem incomplete_iff_glued (s : String) :
    (standard.ofStore s).isSome ∧ ¬ StoreName.IsComplete s.toList ↔
      StoreName.IsGlued s.toList := by
  have htext : standard.ofStore s = ofText s.toList := rfl
  rw [htext]
  refine ⟨fun ⟨hsome, hincomplete⟩ => ?_, fun h => ⟨h.isSome_ofText, h.not_isComplete⟩⟩
  obtain ⟨m, hm⟩ := Option.isSome_iff_exists.mp hsome
  obtain ⟨l, hl, hl'⟩ := StoreName.exists_layout hm
  rw [← hl'] at hsome
  rcases ((isSome_ofText_iff hl).mp hsome).complete_or_glued with hcomplete | hglued
  · exact absurd ⟨l, hl', hcomplete⟩ hincomplete
  · exact ⟨l, hl, hl', hglued⟩

/-- A name with facets in the middle of it. -/
theorem facets_inside_name :
    (standard.ofStore "small(3)int").isSome ∧ ¬ StoreName.IsComplete "small(3)int".toList := by
  let facets : StoreName.Facets :=
    { blanks := [], inside := ['3'], rest := "int".toList
      blanks_blank := by decide, inside_open := by decide }
  let l : StoreName.Layout :=
    { front := [], name := "small".toList, facets? := some facets, suffixes := [], back := []
      front_blank := by decide, suffixes_blank := by decide, back_blank := by decide }
  have hl : l.Regular :=
    ⟨by decide, by decide, by decide, by decide, by decide⟩
  have hglued : StoreName.Glued "small".toList "int".toList :=
    .parts (by decide) (by decide) (by decide)
  have hisGlued : StoreName.IsGlued "small(3)int".toList := ⟨l, hl, by decide, hglued⟩
  exact ⟨hisGlued.isSome_ofText, hisGlued.not_isComplete⟩

end Catalog

end QuerySql
