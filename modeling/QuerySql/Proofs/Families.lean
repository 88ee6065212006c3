import QuerySql.Proofs.Steps

/-!
# Families of methods

A call belongs to one family of methods at most, and each built-in translator takes calls of one
family only. So no two of them take the same call, and nothing depends on their order.

* `ScalarCall.family?`: the family is seen from the method, from whether there are arguments, and,
  for methods of sequences, from how the first argument is stored.
* `Scalar.Family.keepsTo`: what each of the translators takes.
* `Scalar.outcome_builtIn_of_family`: a call is left to the translator of its family.
* `Scalar.order_is_free`: no two built-in translators take the same call, in any order.
* `Postgres.outcome_call_of_known`, `Postgres.outcome_call_of_family`: what a whole call becomes.
-/

namespace QuerySql

/-- The families of methods, in the order of their translators. -/
inductive Scalar.Family where
  | arrays | bytes | conversions | dates | fuzzy | documents | like | labelTrees | math | networks
  | newGuid | valueTexts | random | regex | rows | texts | trigrams
  deriving DecidableEq

open Scalar (Family)

/-- The family of a known method. A method of sequences is one of byte strings if the first argument
is one. -/
def Known.family? (bytes : Bool) : Known → Option Family
  | .sequence _ => some (if bytes then .bytes else .arrays)
  | .arrayIndexOf | .text .join => some .arrays
  | .text _ => some .texts
  | .objectEquals | .spatial _ => none
  | .like _ _ => some .like
  | .random => some .random
  | .row _ => some .rows
  | .regexIsMatch _ => some .regex
  | .newGuid => some .newGuid
  | .dateOfDateTime => some .dates
  | .fuzzy _ => some .fuzzy
  | .trigram _ => some .trigrams
  | .json _ => some .documents
  | .labelTree _ => some .labelTrees
  | .network _ => some .networks

/-- The family of the methods that are recognized by their owner and their name. -/
def Method.Owner.family? : Method.Owner → Option Family
  | .list => some .arrays
  | .convert => some .conversions
  | .dateTime | .dateOnly => some .dates
  | .math => some .math
  | .other name => if name = "MathF" then some .math else none
  | _ => none

namespace ScalarCall

/-- Whether the text of a value is asked for. -/
def AsksText (c : ScalarCall) : Prop := c.method.name = "ToString" ∧ c.args.isEmpty = true

instance (c : ScalarCall) : Decidable c.AsksText := inferInstanceAs (Decidable (_ ∧ _))

/-- Whether the first argument is a byte string that is stored as such. -/
def onBytes (c : ScalarCall) : Bool := c.args.head?.any fun a => a.mappedBy Mapping.isBytes

/-- The family that a call belongs to. -/
def family? (c : ScalarCall) : Option Family :=
  match Known.identify? c.method with
  | some k => k.family? c.onBytes
  | none => if c.AsksText then some .valueTexts else c.method.owner.family?

end ScalarCall

/-- The one type whose methods are known in part by their signatures and in part by their names is
that of dates, and all of them are of one family. -/
theorem Known.family?_of_owner {k : Known} {f : Family}
    (h : k.signature.owner.family? = some f) (bytes : Bool) : k.family? bytes = some f := by
  cases k with
  | dateOfDateTime => exact h
  | sequence m | text m | row m | fuzzy m | trigram m | json m | labelTree m | network m
  | spatial m => cases m <;> cases h
  | like ignoreCase withEscape => cases ignoreCase <;> cases h
  | arrayIndexOf | objectEquals | random | regexIsMatch _ | newGuid => cases h

/-- The types whose methods are recognized by their names alone. -/
def Method.Owner.isNamed : Method.Owner → Bool
  | .list | .convert | .math => true
  | _ => false

/-- Methods that are recognized by their names have no entry among the known ones. -/
theorem Known.identify?_of_isNamed {m : Method} (h : m.owner.isNamed = true) :
    identify? m = none := by
  cases hk : identify? m with
  | none => rfl
  | some k =>
    rw [Method.owner, (signature_of_identify? hk).1] at h
    cases k with
    | sequence m | text m | row m | fuzzy m | trigram m | json m | labelTree m | network m
    | spatial m => cases m <;> cases h
    | like ignoreCase withEscape => cases ignoreCase <;> cases h
    | arrayIndexOf | objectEquals | random | regexIsMatch _ | newGuid | dateOfDateTime => cases h

theorem Known.name_ne_toString (k : Known) : k.signature.name ≠ "ToString" := by
  cases k with
  | sequence m | text m | row m | fuzzy m | trigram m | json m | labelTree m | network m
  | spatial m => cases m <;> decide
  | like ignoreCase withEscape => cases ignoreCase <;> exact ne_of_beq_false rfl
  | arrayIndexOf | objectEquals | random | regexIsMatch _ | newGuid | dateOfDateTime =>
    exact ne_of_beq_false rfl

/-- Of the known methods only the static test for equality has the name of an equation. -/
theorem Known.name_ne_equals {k : Known} (h : k ≠ .objectEquals) : k.signature.name ≠ "Equals" := by
  cases k with
  | objectEquals => exact absurd rfl h
  | sequence m | text m | row m | fuzzy m | trigram m | json m | labelTree m | network m
  | spatial m => cases m <;> decide
  | like ignoreCase withEscape => cases ignoreCase <;> exact ne_of_beq_false rfl
  | arrayIndexOf | random | regexIsMatch _ | newGuid | dateOfDateTime => exact ne_of_beq_false rfl

namespace ScalarCall

variable {c : ScalarCall} {f : Family}

theorem family?_of_known {k : Known} (hk : Known.identify? c.method = some k) :
    c.family? = k.family? c.onBytes := by
  unfold family?
  rw [hk]

/-- A call that asks for the text of a value belongs there, whatever its owner is. -/
theorem family?_of_asksText (h : c.AsksText) : c.family? = some .valueTexts := by
  unfold family?
  cases hk : Known.identify? c.method with
  | none => exact if_pos h
  | some k => exact absurd ((Known.name_of_identify? hk).symm.trans h.1) k.name_ne_toString

/-- A call of a method that is recognized by its name belongs to the family of its owner. -/
theorem family?_of_owner (hf : c.method.owner.family? = some f) (h : ¬ c.AsksText) :
    c.family? = some f := by
  cases hk : Known.identify? c.method with
  | none =>
    unfold family?
    rw [hk]
    exact (if_neg h).trans hf
  | some k =>
    rw [family?_of_known hk]
    refine Known.family?_of_owner ?_ _
    rw [← (Known.signature_of_identify? hk).1]
    exact hf

theorem not_asksText_of_cons {x : Sql} {xs : List Sql} (h : c.args = x :: xs) : ¬ c.AsksText := by
  rintro ⟨-, hargs⟩
  rw [h] at hargs
  cases hargs

end ScalarCall

/-- The translator takes calls of the family only. -/
def ScalarTranslator.KeepsTo (t : ScalarTranslator) (f : Family) : Prop :=
  ∀ c s, (t.translate c).outcome = .ok s → c.family? = some f

/-- Translators of which no two take the same call. -/
def ScalarTranslator.Apart (s t : ScalarTranslator) : Prop :=
  ∀ c, (s.translate c).Fails ∨ (t.translate c).Fails

theorem ScalarTranslator.Apart.symm {s t : ScalarTranslator} (h : s.Apart t) : t.Apart s :=
  fun c => (h c).symm

/-- Translators that keep to different families never take the same call. -/
theorem ScalarTranslator.KeepsTo.apart {s t : ScalarTranslator} {f g : Family} (hs : s.KeepsTo f)
    (ht : t.KeepsTo g) (hne : f ≠ g) : s.Apart t := by
  intro c
  by_cases hc : c.family? = some f
  · right
    intro x hx
    exact hne (Option.some.inj (hc.symm.trans (ht c x hx)))
  · left
    intro x hx
    exact hc (hs c x hx)

/-- By induction on the permutation. Where two neighbours change places one of them declines, for
it fails and does not break off. -/
theorem ScalarTranslator.outcome_firstOf_perm {ts us : List ScalarTranslator} (h : ts.Perm us)
    (hapart : us.Pairwise Apart) {c : ScalarCall}
    (hsafe : ∀ t ∈ us, (t.translate c).Yields fun _ => True) (added : List ScalarTranslator) :
    (firstOf (ts ++ added) c).outcome = (firstOf (us ++ added) c).outcome := by
  induction h with
  | nil => rfl
  | cons t _ ih =>
    obtain ⟨-, hapart⟩ := List.pairwise_cons.mp hapart
    have hrest := ih hapart fun u hu => hsafe u (List.mem_cons_of_mem _ hu)
    exact Attempt.outcome_orElse_congr hrest
  | swap t u ts =>
    obtain ⟨htu, -⟩ := List.pairwise_cons.mp hapart
    have ht := hsafe t List.mem_cons_self
    have hu := hsafe u (List.mem_cons_of_mem _ List.mem_cons_self)
    -- One of the two declines the call, so their order does not matter.
    rcases htu u List.mem_cons_self c with h | h
    · have hd : (t.translate c).Declines := ht.declines_iff_fails.mpr h
      exact (Attempt.outcome_orElse_swap (hd.reportFound _) _ _).symm
    · have hd : (u.translate c).Declines := hu.declines_iff_fails.mpr h
      exact Attempt.outcome_orElse_swap (hd.reportFound _) _ _
  | trans _ hvw ih ih' =>
    rw [ih ((hvw.pairwise_iff Apart.symm).mpr hapart) fun t ht => hsafe t (hvw.mem_iff.mp ht),
      ih' hapart hsafe]

theorem ScalarTranslator.outcome_firstOf_append {ts : List ScalarTranslator} {c : ScalarCall}
    (h : ∀ t ∈ ts, (t.translate c).Declines) (us : List ScalarTranslator) :
    (firstOf (ts ++ us) c).outcome = (firstOf us c).outcome := by
  induction ts with
  | nil => rfl
  | cons t ts ih =>
    obtain ⟨ht, hts⟩ := List.forall_mem_cons.mp h
    exact (Attempt.outcome_orElse_of_declines (ht.reportFound _)).trans (ih hts)

theorem ScalarTranslator.fails_firstOf {ts : List ScalarTranslator} {c : ScalarCall}
    (h : ∀ t ∈ ts, (t.translate c).Fails) : (firstOf ts c).Fails := by
  induction ts with
  | nil => exact Attempt.fails_decline
  | cons t ts ih =>
    refine Attempt.fails_orElse ?_ (ih fun t' ht' => h t' (List.mem_cons_of_mem _ ht'))
    exact (h t List.mem_cons_self).congr (Attempt.outcome_reportFound _ _)

namespace Scalar

variable {b : Builder} {c : ScalarCall} {s : Sql}

/-! ## What each translator takes -/

namespace Arrays

/-- A method of sequences that is translated is one of the known ones. -/
theorem known_of_onSequence {useRedshift : Bool} {m : Method} {array : Sql} {args : List Sql}
    (h : (onSequence b useRedshift m array args).outcome = .ok s) :
    ∃ k, Known.identify? m = some k ∧ (k = .arrayIndexOf ∨ ∃ q, k = .sequence q) := by
  unfold onSequence at h
  split at h
  next => cases h
  next hk => exact ⟨_, hk, .inr ⟨_, rfl⟩⟩
  next hk => exact ⟨_, hk, .inr ⟨_, rfl⟩⟩
  next k hk _ _ =>
    refine ⟨k, hk, ?_⟩
    split at h
    · cases h
    · unfold onArray at h
      split at h
      case h_6 => exact .inl rfl
      case h_7 => cases h
      all_goals exact .inr ⟨_, rfl⟩

/-- A method of lists has a name of its own. -/
theorem name_of_onList {useRedshift : Bool} {m : Method} {array : Sql} {args : List Sql}
    (h : (onList b useRedshift m array args).outcome = .ok s) : m.name ≠ "ToString" := by
  intro hname
  unfold onList at h
  rw [hname] at h
  cases h

/-- What a static call works on is its first argument. -/
theorem onBytes_of_operand? {array : Sql} {args : List Sql} (h : operand? c = some (array, args))
    (howner : c.method.owner ≠ .list) : c.onBytes = array.mappedBy Mapping.isBytes := by
  unfold operand? at h
  split at h
  · rw [if_neg howner] at h
    cases h
  next hargs =>
    cases h
    rw [ScalarCall.onBytes, hargs]
    rfl
  · cases h

/-- The translator for arrays takes calls on arrays and lists, those on byte strings left out. -/
theorem keepsTo (useRedshift : Bool) : (translator b useRedshift).KeepsTo .arrays := by
  intro c s h
  simp only [translator] at h
  split at h
  next hk => exact ScalarCall.family?_of_known hk
  next =>
    unfold onOperand at h
    split at h
    · cases h
    next array args hoperand =>
      split at h
      · cases h
      split at h
      · cases h
      next hbytes =>
        split at h
        next howner =>
          refine ScalarCall.family?_of_owner (by rw [howner]; rfl) fun htext => ?_
          exact name_of_onList h htext.1
        next howner =>
          obtain ⟨k, hk, hsequence⟩ := known_of_onSequence h
          rw [ScalarCall.family?_of_known hk, onBytes_of_operand? hoperand howner]
          rcases hsequence with rfl | ⟨q, rfl⟩
          · rfl
          · simp only [Known.family?, hbytes]
            rfl

end Arrays

/-- The translator for byte strings takes calls of sequences on byte strings. -/
theorem Bytes.keepsTo : (translator b).KeepsTo .bytes := by
  intro c s h
  simp only [translator] at h
  split at h
  · cases h
  split at h
  · cases h
  next bytes rest hargs =>
    split at h
    · cases h
    next mapping hmapping =>
      have hbytes : c.onBytes = true := by
        obtain ⟨hm, hmb⟩ := Option.filter_eq_some_iff.mp hmapping
        simp only [ScalarCall.onBytes, hargs, List.head?_cons, Option.any_some, Sql.mappedBy, hm]
        exact hmb
      split at h
      next hk =>
        rw [ScalarCall.family?_of_known hk, hbytes]
        rfl
      next hk =>
        rw [ScalarCall.family?_of_known hk, hbytes]
        rfl
      next => cases h

theorem Casts.conversion_keepsTo : (conversionTranslator b).KeepsTo .conversions := by
  intro c s h
  simp only [conversionTranslator] at h
  split at h
  next howner =>
    split at h
    next value hargs =>
      refine ScalarCall.family?_of_owner ?_ (ScalarCall.not_asksText_of_cons hargs)
      rw [howner.1]
      rfl
    next => cases h
  next => cases h

theorem Casts.text_keepsTo : (textTranslator b).KeepsTo .valueTexts := by
  intro c s h
  simp only [textTranslator] at h
  split at h
  next htext => exact ScalarCall.family?_of_asksText htext
  next => cases h

/-- A unit of time fits the types of dates and times only. -/
theorem Dates.family_of_fits {owner : Method.Owner} {unit : TimeUnit} (h : fits owner unit = true) :
    owner.family? = some .dates := by
  simp only [fits, Bool.or_eq_true, Bool.and_eq_true, decide_eq_true_eq] at h
  rcases h with rfl | ⟨rfl, -⟩
  · rfl
  · rfl

theorem Dates.keepsTo : (translator b).KeepsTo .dates := by
  intro c s h
  simp only [translator] at h
  split at h
  next hk => exact ScalarCall.family?_of_known hk
  next =>
    split at h
    next hargs _ =>
      split at h
      next hfits =>
        exact ScalarCall.family?_of_owner (family_of_fits hfits)
          (ScalarCall.not_asksText_of_cons hargs)
      next => cases h
    next => cases h

theorem Similarity.fuzzy_keepsTo : (fuzzyTranslator b).KeepsTo .fuzzy := by
  intro c s h
  simp only [fuzzyTranslator] at h
  split at h
  next hk _ => exact ScalarCall.family?_of_known hk
  next => cases h

theorem Documents.keepsTo : (translator b).KeepsTo .documents := by
  intro c s h
  simp only [translator] at h
  split at h
  case h_7 => cases h
  all_goals
    next hk _ => exact ScalarCall.family?_of_known hk

theorem Patterns.like_keepsTo : (likeTranslator b).KeepsTo .like := by
  intro c s h
  simp only [likeTranslator] at h
  split at h
  next hk _ => exact ScalarCall.family?_of_known hk
  next hk _ => exact ScalarCall.family?_of_known hk
  next => cases h

theorem LabelTrees.keepsTo : (translator b).KeepsTo .labelTrees := by
  intro c s h
  simp only [translator] at h
  split at h
  next hk => exact ScalarCall.family?_of_known hk
  next hk _ => exact ScalarCall.family?_of_known hk
  next => cases h

/-- The translator for mathematical functions goes by the owner and the name. -/
theorem Numbers.math_keepsTo : (mathTranslator b).KeepsTo .math := by
  intro c s h
  simp only [mathTranslator] at h
  split at h
  next howner =>
    refine ScalarCall.family?_of_owner ?_ ?_
    · rcases howner with h | h
      · rw [h]
        rfl
      · rw [h]
        rfl
    · rintro ⟨hname, hargs⟩
      rw [hname, List.isEmpty_iff.mp hargs] at h
      cases h
  next => cases h

theorem Networks.keepsTo : (translator b).KeepsTo .networks := by
  intro c s h
  simp only [translator] at h
  split at h
  next hk => exact ScalarCall.family?_of_known hk
  next => cases h

theorem Numbers.newGuid_keepsTo (atLeast13 : Bool) :
    (newGuidTranslator b atLeast13).KeepsTo .newGuid := by
  intro c s h
  simp only [newGuidTranslator] at h
  split at h
  next hk => exact ScalarCall.family?_of_known hk
  next => cases h

theorem Numbers.random_keepsTo : (randomTranslator b).KeepsTo .random := by
  intro c s h
  simp only [randomTranslator] at h
  split at h
  next hk => exact ScalarCall.family?_of_known hk
  next => cases h

theorem Patterns.regex_keepsTo : (regexTranslator b).KeepsTo .regex := by
  intro c s h
  simp only [regexTranslator] at h
  split at h
  next hk _ => exact ScalarCall.family?_of_known hk
  next hk _ => exact ScalarCall.family?_of_known hk
  next => cases h

theorem Rows.keepsTo : (translator b).KeepsTo .rows := by
  intro c s h
  simp only [translator] at h
  split at h
  next hk _ => exact ScalarCall.family?_of_known hk
  next => cases h

/-- The joining of texts is left to the translator for arrays. -/
theorem Texts.family_of_onReceiver {m : TextMethod} {subject : Sql} {args : List Sql}
    (h : (onReceiver b m subject args).outcome = .ok s) (bytes : Bool) :
    (Known.text m).family? bytes = some .texts := by
  cases m with
  | join => cases h
  | _ => rfl

theorem Texts.keepsTo : (translator b).KeepsTo .texts := by
  intro c s h
  simp only [translator] at h
  split at h
  next hk _ => exact ScalarCall.family?_of_known hk
  next hk _ => exact ScalarCall.family?_of_known hk
  next hk _ _ _ =>
    rw [ScalarCall.family?_of_known hk]
    exact family_of_onReceiver h _
  next => cases h

theorem Similarity.trigram_keepsTo : (trigramTranslator b).KeepsTo .trigrams := by
  intro c s h
  simp only [trigramTranslator] at h
  split at h
  next hk _ => exact ScalarCall.family?_of_known hk
  next => cases h

/-! ## The registry -/

namespace Family

/-- All families, in the order of their translators. -/
def all : List Family :=
  [.arrays, .bytes, .conversions, .dates, .fuzzy, .documents, .like, .labelTrees, .math, .networks,
   .newGuid, .valueTexts, .random, .regex, .rows, .texts, .trigrams]

theorem mem_all (f : Family) : f ∈ all := by
  cases f <;> decide

/-- The translator of a family. -/
def translator (b : Builder) (options : Options) : Family → ScalarTranslator
  | .arrays => Arrays.translator b options.useRedshift
  | .bytes => Bytes.translator b
  | .conversions => Casts.conversionTranslator b
  | .dates => Dates.translator b
  | .fuzzy => Similarity.fuzzyTranslator b
  | .documents => Documents.translator b
  | .like => Patterns.likeTranslator b
  | .labelTrees => LabelTrees.translator b
  | .math => Numbers.mathTranslator b
  | .networks => Networks.translator b
  | .newGuid => Numbers.newGuidTranslator b (options.isVersionAtLeast 13 0)
  | .valueTexts => Casts.textTranslator b
  | .random => Numbers.randomTranslator b
  | .regex => Patterns.regexTranslator b
  | .rows => Rows.translator b
  | .texts => Texts.translator b
  | .trigrams => Similarity.trigramTranslator b

/-- By cases on the family: each translator takes calls of its own family only. -/
theorem keepsTo (options : Options) (f : Family) : (f.translator b options).KeepsTo f := by
  cases f with
  | arrays => exact Arrays.keepsTo _
  | bytes => exact Bytes.keepsTo
  | conversions => exact Casts.conversion_keepsTo
  | dates => exact Dates.keepsTo
  | fuzzy => exact Similarity.fuzzy_keepsTo
  | documents => exact Documents.keepsTo
  | like => exact Patterns.like_keepsTo
  | labelTrees => exact LabelTrees.keepsTo
  | math => exact Numbers.math_keepsTo
  | networks => exact Networks.keepsTo
  | newGuid => exact Numbers.newGuid_keepsTo _
  | valueTexts => exact Casts.text_keepsTo
  | random => exact Numbers.random_keepsTo
  | regex => exact Patterns.regex_keepsTo
  | rows => exact Rows.keepsTo
  | texts => exact Texts.keepsTo
  | trigrams => exact Similarity.trigram_keepsTo

end Family

/-- The built-in translators are those of the families, in their order. -/
theorem builtIn_eq_map (b : Builder) (options : Options) :
    builtIn b options = Family.all.map (Family.translator b options) := rfl

/-- No two of the built-in translators take the same call. -/
theorem pairwise_apart_builtIn (b : Builder) (options : Options) :
    (builtIn b options).Pairwise ScalarTranslator.Apart := by
  rw [builtIn_eq_map, List.pairwise_map]
  have hne : Family.all.Pairwise (· ≠ ·) := by decide
  exact hne.imp fun h => (Family.keepsTo options _).apart (Family.keepsTo options _) h

theorem yields_builtIn (b : Builder) (options : Options) (c : ScalarCall) :
    ∀ t ∈ builtIn b options, (t.translate c).Yields fun _ => True := by
  intro t ht
  have hclosed : b.Closed (fun _ _ => none) fun _ => True := Builder.closed_true
  exact respects_builtIn hclosed options t ht c ⟨fun _ _ => trivial, fun _ _ => trivial⟩

/-- A translator of another family declines, so what it stands in front of does not matter. -/
theorem declines_of_family {options : Options} {f g : Family} (hc : c.family? = some f)
    (hne : g ≠ f) : ((g.translator b options).translate c).Declines := by
  have hmem : g.translator b options ∈ builtIn b options := List.mem_map_of_mem g.mem_all
  refine (yields_builtIn b options c _ hmem).declines_iff_fails.mpr fun s hs => ?_
  exact hne (Option.some.inj ((g.keepsTo options c s hs).symm.trans hc))

/-- A call of one family is what the translator of the family makes of it, and where that one
declines, what the added translators make of it. -/
theorem outcome_firstOf_of_family {options : Options} {f : Family} (hc : c.family? = some f)
    (added : List ScalarTranslator) :
    (ScalarTranslator.firstOf (builtIn b options ++ added) c).outcome =
      ((f.translator b options).translate c <|> ScalarTranslator.firstOf added c).outcome := by
  obtain ⟨before, after, hsplit⟩ := List.append_of_mem f.mem_all
  have hnodup : (before ++ f :: after).Nodup := by
    rw [← hsplit]
    decide
  obtain ⟨hf, -⟩ := List.nodup_cons.mp (List.perm_middle.nodup_iff.mp hnodup)
  have hothers : ∀ fs ⊆ before ++ after, ∀ t ∈ fs.map (Family.translator b options),
      (t.translate c).Declines := by
    intro fs hfs t ht
    obtain ⟨g, hg, rfl⟩ := List.mem_map.mp ht
    refine declines_of_family hc ?_
    rintro rfl
    exact hf (hfs hg)
  rw [builtIn_eq_map, hsplit, List.map_append, List.append_assoc, List.map_cons, List.cons_append,
    ScalarTranslator.outcome_firstOf_append (hothers before (List.subset_append_left _ _)),
    ScalarTranslator.firstOf, Attempt.outcome_orElse_congr_left (Attempt.outcome_reportFound _ _)]
  exact Attempt.outcome_orElse_congr <|
    ScalarTranslator.outcome_firstOf_append (hothers after (List.subset_append_right _ _)) _

/-- The built-in translators make of a call what the translator of its family makes of it. -/
theorem outcome_builtIn_of_family {options : Options} {f : Family} (hc : c.family? = some f) :
    (ScalarTranslator.firstOf (builtIn b options) c).outcome =
      ((f.translator b options).translate c).outcome := by
  have h : (ScalarTranslator.firstOf (builtIn b options ++ []) c).outcome = _ :=
    outcome_firstOf_of_family hc []
  rw [List.append_nil] at h
  exact h.trans (Attempt.outcome_orElse_decline _)

/-- What the translator of one family makes of a call is made of it by all of them together. -/
theorem outcome_firstOf_builtIn {options : Options} {f : Family}
    (h : ((f.translator b options).translate c).outcome = .ok s) (added : List ScalarTranslator) :
    (ScalarTranslator.firstOf (builtIn b options ++ added) c).outcome = .ok s :=
  (outcome_firstOf_of_family (f.keepsTo options c s h) added).trans (Attempt.outcome_orElse_of_ok h)

/-- No two of the built-in translators take the same call. So whatever order they are registered in,
and whatever translators come after them, the same is made of every call. -/
theorem order_is_free (b : Builder) (options : Options) :
    (builtIn b options).Pairwise (fun s t => ∀ c, (s.translate c).Fails ∨ (t.translate c).Fails) ∧
      ∀ ts, ts.Perm (builtIn b options) → ∀ added c,
        (ScalarTranslator.firstOf (ts ++ added) c).outcome =
          (ScalarTranslator.firstOf (builtIn b options ++ added) c).outcome := by
  refine ⟨pairwise_apart_builtIn b options, fun ts hts added c => ?_⟩
  exact ScalarTranslator.outcome_firstOf_perm hts (pairwise_apart_builtIn b options)
    (yields_builtIn b options c) added

/-- A search in a byte string is found by its own translator also where the one for arrays, which
knows the method as well, comes after it. -/
theorem search_in_reversed_order :
    let mapping : Mapping := .bytes "bytea" .byteArray
    let data : Sql := .column ⟨none, "data"⟩ false .byteArray (some mapping)
    let seven : Sql := .const (.byte 7) .byte none
    let c : ScalarCall := ⟨none, Known.close (.sequence .contains) [.byte], [data, seven]⟩
    ∃ b s, Builder.ofCatalog Catalog.standard = .ok b ∧
      (Bytes.contains b data seven mapping).outcome = .ok s ∧
      (builtIn b {}).reverse.Perm (builtIn b {}) ∧
      (ScalarTranslator.firstOf ((builtIn b {}).reverse ++ []) c).outcome = .ok s := by
  intro mapping data seven c
  let b : Builder := ⟨Catalog.standard, .scalar "boolean" .bool, .scalar "integer" .int⟩
  have hfound : ((Family.bytes.translator b {}).translate c).outcome =
      (Bytes.contains b data seven mapping).outcome := rfl
  obtain ⟨s, hs⟩ : ∃ s, (Bytes.contains b data seven mapping).outcome = .ok s := ⟨_, rfl⟩
  refine ⟨b, s, rfl, hs, List.reverse_perm _, ?_⟩
  rw [(order_is_free b {}).2 _ (List.reverse_perm _) [] c]
  exact outcome_firstOf_builtIn (hfound.trans hs) []

end Scalar

/-! ## Calls in a query -/

namespace Postgres

variable {p : Postgres} {r : Relational} {m : Method} {k : Known}

/-- A call of a known method that is given no lambdas and is no equation is left to the scalar
translators, with what its receiver and its arguments are translated to. -/
theorem outcome_call_of_known (hm : Known.identify? m = some k) (hlambda : ∀ q, k ≠ .sequence q)
    (hequals : k ≠ .objectEquals) (receiver : Option Expr) (args : List Expr) :
    (p.run r (.call m receiver args)).outcome =
      (Relational.receiverOf (p.run r) receiver >>= fun x =>
        Attempt.all (p.run r) args >>= fun xs =>
        ScalarTranslator.firstOf r.scalars ⟨x, m, xs⟩).outcome := by
  have hsequence : ∀ q, Known.identify? m ≠ some (.sequence q) := fun q hq =>
    hlambda q (Option.some.inj (hm.symm.trans hq))
  have hobject : Known.identify? m ≠ some .objectEquals := fun h =>
    hequals (Option.some.inj (hm.symm.trans h))
  have hname : m.name ≠ "Equals" := by
    rw [Known.name_of_identify? hm]
    exact Known.name_ne_equals hequals
  have hcall (x : Option Sql) (xs : List Sql) : (r.callOn ⟨x, m, xs⟩).outcome =
      (ScalarTranslator.firstOf r.scalars ⟨x, m, xs⟩).outcome := by
    rw [Relational.callOn_of_name hobject hname, Attempt.outcome_reportDecline]
  rw [run_call (lambdaCall?_eq_none hsequence _ _)]
  simp only [Relational.call, Run.outcome_bind, hcall]

/-- It is what the translator of one family makes of it. -/
theorem outcome_call_of_family {options : Options} {added : List ScalarTranslator}
    (hscalars : r.scalars = Scalar.builtIn r.builder options ++ added)
    (hm : Known.identify? m = some k) (hlambda : ∀ q, k ≠ .sequence q) (hequals : k ≠ .objectEquals)
    {receiver : Option Expr} {args : List Expr} {x : Option Sql} {xs : List Sql}
    (hreceiver : (Relational.receiverOf (p.run r) receiver).outcome = .ok x)
    (hargs : (Attempt.all (p.run r) args).outcome = .ok xs) {f : Family} {s : Sql}
    (hs : ((f.translator r.builder options).translate ⟨x, m, xs⟩).outcome = .ok s) :
    (p.run r (.call m receiver args)).outcome = .ok s := by
  rw [outcome_call_of_known hm hlambda hequals, Attempt.outcome_bind_ok hreceiver,
    Attempt.outcome_bind_ok hargs, hscalars]
  exact Scalar.outcome_firstOf_builtIn hs added

end Postgres

end QuerySql
