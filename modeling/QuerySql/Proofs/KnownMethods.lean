import QuerySql.Method.Known

/-!
# What identifies a method

A method is known by its whole signature. Of the methods of one owner that share a name each has
another number of parameters, so no two of the known methods are taken for each other, in whatever
order they are looked through. A generic method is known in its closed forms only, and the types
that close it leave nothing open in what it takes and returns.

* `Ty.closedBy`: a type in which so many types leave nothing open (`Ty.isClosed_substitute`).
* `Known.eq_of_overload`: owner, name and number of parameters tell the known methods apart.
* `Known.find?_eq_some_iff`: a signature is found in any list of all known methods.
* `Known.identifies_closed_forms`: all of it together.
-/

namespace QuerySql

/-! ## Open parameters -/

namespace Ty

mutual
/-- Whether each open parameter in the type is one of the first `n`. Nothing is put in behind an
enumeration, so no parameter may be open there. -/
def closedBy : Nat → Ty → Bool
  | n, parameter i => decide (i < n)
  | n, nullable t => closedBy n t
  | n, array t => closedBy n t
  | n, list t => closedBy n t
  | n, hashSet t => closedBy n t
  | n, enumerable t => closedBy n t
  | n, tuple ts => closedAllBy n ts
  | n, func ts => closedAllBy n ts
  | _, enum _ t => closedBy 0 t
  | _, atom _ | _, document _ => true

/-- Whether each open parameter in the types is one of the first `n`. -/
def closedAllBy : Nat → List Ty → Bool
  | _, [] => true
  | n, t :: ts => closedBy n t && closedAllBy n ts
end

/-- Whether no parameter is open in the type, at any depth. -/
abbrev isClosed (t : Ty) : Bool := t.closedBy 0

mutual
/-- Closed arguments for all parameters close a type. -/
theorem isClosed_substitute {args : List Ty} (h : ∀ a ∈ args, a.isClosed = true) :
    ∀ t : Ty, t.closedBy args.length = true → (t.substitute args).isClosed = true
  | parameter i, ht => by
    have hi : i < args.length := by simpa [closedBy] using ht
    simpa [substitute, hi] using h _ (List.getElem_mem hi)
  | nullable t, ht | array t, ht | list t, ht | hashSet t, ht | enumerable t, ht =>
    isClosed_substitute h t ht
  | tuple ts, ht | func ts, ht => isClosed_substituteAll h ts ht
  | enum _ _, ht => ht
  | atom _, _ | document _, _ => rfl

theorem isClosed_substituteAll {args : List Ty} (h : ∀ a ∈ args, a.isClosed = true) :
    ∀ ts : List Ty, closedAllBy args.length ts = true →
      closedAllBy 0 (substituteAll args ts) = true
  | [], _ => rfl
  | t :: ts, hts => by
    simp only [closedAllBy, Bool.and_eq_true] at hts
    simp only [substituteAll, closedAllBy, Bool.and_eq_true]
    exact ⟨isClosed_substitute h t hts.1, isClosed_substituteAll h ts hts.2⟩
end

end Ty

namespace Known

/-! ## Signatures -/

/-- The list of known methods is complete. -/
theorem mem_all (k : Known) : k ∈ all := by
  cases k with
  | sequence m | text m | row m | fuzzy m | trigram m | json m | labelTree m | network m
  | spatial m => cases m <;> decide
  | like ignoreCase withEscape => cases ignoreCase <;> cases withEscape <;> decide
  | regexIsMatch withOptions => cases withOptions <;> decide
  | arrayIndexOf | objectEquals | random | newGuid | dateOfDateTime => decide

/-- What tells methods apart: the owner, the number of parameters and the name. -/
def overload (k : Known) : Method.Owner × Nat × String :=
  (k.signature.owner, k.signature.parameters.length, k.signature.name)

/-- No two known methods have one overload. -/
theorem find?_overload : ∀ k ∈ all, all.find? (fun j => j.overload == k.overload) = some k := by
  decide +kernel

/-- Known methods of one owner that share a name have different numbers of parameters. -/
theorem eq_of_overload {j k : Known} (h : j.overload = k.overload) : j = k := by
  have hj := find?_overload j (mem_all j)
  rw [h, find?_overload k (mem_all k)] at hj
  exact (Option.some.inj hj).symm

/-- No two known methods have one signature. -/
theorem eq_of_signature {j k : Known} (h : j.signature = k.signature) : j = k := by
  refine eq_of_overload ?_
  unfold overload
  rw [h]

/-- A known method is found by its signature in any list of all of them. Neither the order of the
list matters nor whether a method stands there twice. -/
theorem find?_eq_some_iff {ks : List Known} (hks : ∀ k, k ∈ ks) {s : Method.Signature} {k : Known} :
    ks.find? (fun j => j.signature == s) = some k ↔ s = k.signature := by
  have hsound {j : Known} (hj : ks.find? (fun j => j.signature == s) = some j) :
      s = j.signature := by
    have hfound := List.find?_some hj
    exact (beq_iff_eq.mp hfound).symm
  refine ⟨hsound, fun hs => ?_⟩
  obtain ⟨j, hj⟩ : ∃ j, ks.find? (fun j => j.signature == s) = some j := by
    rw [← Option.isSome_iff_exists, List.find?_isSome]
    exact ⟨k, hks k, beq_iff_eq.mpr hs.symm⟩
  rw [hj, eq_of_signature ((hsound hj).symm.trans hs)]

/-- A method is recognized by its signature, if it has as many type arguments as that says. -/
theorem identify?_eq_some_iff {m : Method} {k : Known} :
    identify? m = some k ↔
      m.signature = k.signature ∧ m.generics.length = m.signature.arity := by
  unfold identify? ofSignature?
  by_cases harity : m.generics.length = m.signature.arity
  · simp [harity, find?_eq_some_iff mem_all]
  · simp [harity]

theorem signature_of_identify? {m : Method} {k : Known} (h : identify? m = some k) :
    m.signature = k.signature ∧ m.generics.length = k.signature.arity := by
  obtain ⟨hsignature, harity⟩ := identify?_eq_some_iff.mp h
  exact ⟨hsignature, hsignature ▸ harity⟩

theorem name_of_identify? {m : Method} {k : Known} (h : identify? m = some k) :
    m.name = k.signature.name :=
  congrArg Method.Signature.name (signature_of_identify? h).1

/-! ## Closed forms -/

theorem identify?_close (k : Known) {generics : List Ty}
    (hlength : generics.length = k.signature.arity) : identify? (k.close generics) = some k :=
  identify?_eq_some_iff.mpr ⟨rfl, hlength⟩

theorem instantiate?_eq_some (k : Known) {generics : List Ty}
    (hlength : generics.length = k.signature.arity) :
    k.instantiate? generics = some (k.close generics) :=
  if_pos hlength

/-- A declaration has as many open parameters as its arity says. -/
theorem closedBy_declaration (k : Known) :
    k.declaration.returnTy.closedBy k.signature.arity = true ∧
      ∀ t ∈ k.signature.parameters, t.closedBy k.signature.arity = true := by
  cases k with
  | sequence m | text m | row m | fuzzy m | trigram m | json m | labelTree m | network m
  | spatial m => cases m <;> decide
  | like ignoreCase withEscape => cases ignoreCase <;> cases withEscape <;> decide
  | regexIsMatch withOptions => cases withOptions <;> decide
  | arrayIndexOf | objectEquals | random | newGuid | dateOfDateTime => decide

theorem isClosed_close (k : Known) {generics : List Ty}
    (hlength : generics.length = k.signature.arity) (h : ∀ t ∈ generics, t.isClosed = true) :
    (k.close generics).returnTy.isClosed = true ∧
      ∀ t ∈ (k.close generics).parameterTypes, t.isClosed = true := by
  obtain ⟨hreturn, hparameters⟩ := k.closedBy_declaration
  rw [← hlength] at hreturn hparameters
  refine ⟨Ty.isClosed_substitute h _ hreturn, fun t ht => ?_⟩
  obtain ⟨p, hp, rfl⟩ := List.mem_map.mp ht
  exact Ty.isClosed_substitute h p (hparameters p hp)

theorem isClosedFormOf_iff {m : Method} {k : Known} (hgeneric : 0 < k.signature.arity) :
    m.isClosedFormOf k.signature = true ↔ k.recognizes m = true := by
  simp only [Method.isClosedFormOf, recognizes, decide_eq_true_eq, identify?_eq_some_iff]
  constructor
  · rintro ⟨-, harity, hsignature⟩
    exact ⟨hsignature, hsignature ▸ harity⟩
  · rintro ⟨hsignature, harity⟩
    exact ⟨hgeneric, hsignature ▸ harity, hsignature⟩

/-- A method is the known one whose signature it has, if it is closed by as many types as the
signature has open parameters, and no two known methods share a signature. Closed by so many types,
a known method is made and is known as itself; if nothing is open in these types, nothing is in what
it takes and returns. The closed forms of a generic known method are the methods that are recognized
as this one. -/
theorem identifies_closed_forms :
    (∀ m k, identify? m = some k ↔
      m.signature = k.signature ∧ m.generics.length = m.signature.arity) ∧
    (∀ j k : Known, j.signature = k.signature → j = k) ∧
    (∀ (k : Known) (generics : List Ty), generics.length = k.signature.arity →
      ∃ m, k.instantiate? generics = some m ∧ identify? m = some k ∧
        ((∀ t ∈ generics, t.isClosed = true) →
          m.returnTy.isClosed = true ∧ ∀ t ∈ m.parameterTypes, t.isClosed = true)) ∧
    ∀ (m : Method) (k : Known), 0 < k.signature.arity →
      (m.isClosedFormOf k.signature = true ↔ k.recognizes m = true) := by
  refine ⟨fun m k => identify?_eq_some_iff, fun j k => eq_of_signature,
    fun k generics hlength => ?_, fun m k => isClosedFormOf_iff⟩
  exact ⟨k.close generics, k.instantiate?_eq_some hlength, k.identify?_close hlength,
    k.isClosed_close hlength⟩

/-- The first pair that satisfies a condition. Its method is not known with the parameter open, nor
as the one that has no condition. -/
theorem first_pair_is_identified :
    let pair : Ty := .tuple [.int, .nullable .string]
    let first : Known := .sequence .firstOrDefaultWhere
    (∀ t ∈ [pair], t.isClosed = true) ∧
      ∃ m, first.instantiate? [pair] = some m ∧ m.returnTy = pair ∧
        m.parameterTypes = [.enumerable pair, .func [pair, .bool]] ∧ identify? m = some first ∧
        (m.returnTy.isClosed = true ∧ ∀ t ∈ m.parameterTypes, t.isClosed = true) ∧
        m.isClosedFormOf first.signature = true ∧
        identify? { m with generics := [] } ≠ some first ∧
        first.signature ≠ (sequence .first).signature := by
  intro pair first
  obtain ⟨hknown, hapart, hinstance, hform⟩ := identifies_closed_forms
  have hpair : ∀ t ∈ [pair], t.isClosed = true := by decide
  obtain ⟨m, hm, hidentified, hclosed⟩ := hinstance first [pair] rfl
  cases hm
  refine ⟨hpair, _, rfl, rfl, rfl, hidentified, hclosed hpair, ?_, ?_, ?_⟩
  · exact (hform _ first (by decide)).mpr (decide_eq_true hidentified)
  · rw [Ne, hknown]
    rintro ⟨-, harity⟩
    cases harity
  · exact fun hsignature => absurd (hapart _ _ hsignature) (by decide)

end Known

end QuerySql
