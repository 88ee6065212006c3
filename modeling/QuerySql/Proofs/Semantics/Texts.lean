import QuerySql.Proofs.Semantics.Patterns

/-!
# Texts on a server

What is asked of a server for the functions that measure and cut texts. They count characters.
`Server.texts` is a server that does what is asked here and for patterns.
-/

namespace QuerySql

/-- What is asked of a server for texts. -/
structure Server.TextRules (S : Server) : Prop where
  equal : ∀ s t, (S.binary .equal (.text s) (.text t) = .truth true ↔ s = t)
  /-- `length(text)`: the number of characters. -/
  length : ∀ s : String, S.call { name := "length" } [.text s] = .int s.toList.length
  /-- `left(text, n)`: the first `n` characters, or all of them if there are fewer. -/
  left : ∀ (s : String) (n : Nat),
    S.call { name := "left" } [.text s, .int n] = .text (String.ofList (s.toList.take n))
  /-- `right(text, n)`: the last `n` characters, or all of them if there are fewer. -/
  right : ∀ (s : String) (n : Nat),
    S.call { name := "right" } [.text s, .int n] =
      .text (String.ofList (s.toList.drop (s.toList.length - n)))

/-! ## A server -/

namespace Server.Reference

/-- A call of a function, of those that measure and cut texts as well. -/
def textCall (form : Function.Form) (args : List Datum) : Datum :=
  match form.name, args with
  | "length", [.text s] => .int s.toList.length
  | "left", [.text s, .int (.ofNat n)] => .text (String.ofList (s.toList.take n))
  | "right", [.text s, .int (.ofNat n)] =>
    .text (String.ofList (s.toList.drop (s.toList.length - n)))
  | _, _ => arrayCall form args

/-- An operator on two data, with equations of texts. -/
def textBinary : BinaryOp → Datum → Datum → Datum
  | .equal, .text s, .text t => .truth (s == t)
  | op, x, y => binary op x y

end Server.Reference

/-- The reference server with patterns, and with texts. -/
def Server.texts : Server :=
  { patterns with
    binary := Reference.textBinary
    call := Reference.textCall }

/-- The server does what is asked for texts. -/
theorem Server.textRules_texts : texts.TextRules where
  equal s t := by
    show Datum.truth (s == t) = _ ↔ _
    rw [Datum.truth.injEq, beq_iff_eq]
  length _ := rfl
  left _ _ := rfl
  right _ _ := rfl

/-- It matches patterns like the server that it comes from. -/
theorem Server.likeRules_texts : texts.LikeRules Reference.isSameLetter where
  alike_refl := likeRules_patterns.alike_refl
  alike_percent := likeRules_patterns.alike_percent
  like := likeRules_patterns.like
  any_like := likeRules_patterns.any_like
  all_like := likeRules_patterns.all_like

end QuerySql
