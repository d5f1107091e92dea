import LibAmvp.Capabilities.KtsIfc
import LibAmvp.Kat.VectorSet

/-!
# Objects of a registration

Every function that builds the registration of an entry fills the object it is given: the name
of the algorithm, its revision, the prerequisites, and then the parameters of the entry.  A
function fails with a result, or it does something without a defined outcome.
-/

namespace LibAmvp

open Guard

/-! ## Lists and ranges -/

/-- An array of strings. -/
def stringsArray (names : List String) : Json := .arr (names.map .str)

/-- The object of a range of lengths, the largest first. -/
def rangeFromMax (d : Domain) : Json :=
  .obj [("max", .num d.max), ("min", .num d.min), ("increment", .num d.increment)]

/-! ## The head of an object -/

/-- The name and the revision. -/
def setNameAndRevision (capObj : JsonObject) (name : Option String) (cipher : Cipher) :
    Except AmvpResult JsonObject := do
  let obj := jsonObjectSetText capObj "algorithm" name
  let revision ← need (lookupCipherRevision cipher) .invalidArg
  pure (jsonObjectSetText obj "revision" (some revision))

/-- The value of a curve in the enumeration. -/
def EcCurve.toInt : EcCurve → Int
  | p192 => 1
  | p224 => 2
  | p256 => 3
  | p384 => 4
  | p521 => 5
  | b163 => 6
  | b233 => 7
  | b283 => 8
  | b409 => 9
  | b571 => 10
  | k163 => 11
  | k233 => 12
  | k283 => 13
  | k409 => 14
  | k571 => 15

/-- {lit}`amvp_lookup_ec_curve_name`: two algorithms also know the deprecated curves. -/
def lookupEcCurveName (cipher : Cipher) (id : Int) : Option String :=
  let tbl := if cipher = .ecdsaKeyver ∨ cipher = .ecdsaSigver then ecCurveTbl ++ ecCurveDeprTbl
    else ecCurveTbl
  (tbl.find? fun row => row.1.toInt = id).map Prod.snd

/-! ## Ends of a build -/

/-- How building fails. -/
inductive BuildStop where
  | refused (rv : AmvpResult)
  | fault (f : Fault)
deriving DecidableEq

end LibAmvp
