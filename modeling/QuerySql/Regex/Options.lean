/-!
# Options of a regular expression

A word of option bits, as query expressions carry it, and the few options that a match in
PostgreSQL can express.

* `Options.supported` are the options a match may carry; of these the `inert` ones change nothing.
* `Options.embeddedFlags` is what a match writes in front of its pattern.
-/

namespace QuerySql.Regex

/-- A set of options, one bit each. -/
structure Options where
  word : UInt32
  deriving DecidableEq

namespace Options

def none : Options := ⟨0⟩
def ignoreCase : Options := ⟨1⟩
def multiline : Options := ⟨2⟩
def explicitCapture : Options := ⟨4⟩
def compiled : Options := ⟨8⟩
def singleline : Options := ⟨16⟩
def ignorePatternWhitespace : Options := ⟨32⟩
def rightToLeft : Options := ⟨64⟩
def ecmaScript : Options := ⟨256⟩
def cultureInvariant : Options := ⟨512⟩

/-- The options of either set. -/
def union (a b : Options) : Options := ⟨a.word ||| b.word⟩

/-- Whether all options of `b` are among those of `a`. -/
def contains (a b : Options) : Bool := decide (a.word &&& b.word = b.word)

/-- The options of `a` that are not among those of `b`. -/
def without (a b : Options) : Options := ⟨a.word &&& ~~~b.word⟩

instance : Union Options := ⟨union⟩

/-- The options that do not change what matches. -/
def inert : Options := compiled ∪ cultureInvariant

/-- The options that a match can be translated with. -/
def supported : Options :=
  ignoreCase ∪ multiline ∪ singleline ∪ ignorePatternWhitespace ∪ inert

/-- The options written in front of the pattern. Letter n makes line breaks special both for the dot
and for the anchors, letter p for the dot alone, and x allows blanks and comments in the pattern.
Case is left to the operator. -/
def embeddedFlags (o : Options) : String :=
  let lines :=
    if o.contains multiline then "n" else if o.contains singleline then "" else "p"
  let blanks := if o.contains ignorePatternWhitespace then "x" else ""
  "(?" ++ lines ++ blanks ++ ")"

/-- Whether letter case is ignored. -/
def isCaseInsensitive (o : Options) : Bool := o.contains ignoreCase

end Options

end QuerySql.Regex
