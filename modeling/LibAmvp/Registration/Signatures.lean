import LibAmvp.Kat.Drbg
import LibAmvp.Registration.Objects

/-!
# The registration of generators and signatures

What is registered for DRBG, RSA and ECDSA.  The functions walk through the lists that
the setters of the capability interface have filled.
-/

namespace LibAmvp

open Guard

/-! ## Random bit generators -/

/-- The value of a mode in the enumeration. -/
def DrbgMode.toInt : DrbgMode → Int
  | sha1 => 1
  | sha224 => 2
  | sha256 => 3
  | sha384 => 4
  | sha512 => 5
  | sha512_224 => 6
  | sha512_256 => 7
  | tdes => 8
  | aes128 => 9
  | aes192 => 10
  | aes256 => 11

/-- {lit}`amvp_lookup_drbg_mode_string`. -/
def lookupDrbgModeString (mode : Int) : Option String :=
  (drbgModeTbl.find? fun row => row.1.toInt = mode).map Prod.snd

/-- The array of a length: the range when it has a step, and one of its ends when it has none.
For some lengths a zero is written when both ends are zero. -/
def drbgLengthArray (withZero : Bool) (min step max : Int) : Json :=
  .arr (
    if step ≠ 0 then [rangeFromMax { min, max, increment := step }]
    else if min ≠ 0 then [.num min]
    else if max ≠ 0 then [.num max]
    else if withZero then [.num 0]
    else [])

/-- The object of a group. -/
def drbgGroupObject (cipher : Cipher) (modeStr : String) (g : DrbgCapGroup) : JsonObject :=
  let obj := jsonObjectSetText [] "mode" (some modeStr)
  let obj := if cipher = .ctrdrbg then jsonObjectSetBoolean obj "derFuncEnabled" g.derFuncEnabled
    else obj
  let obj := jsonObjectSetValue obj "entropyInputLen"
    (drbgLengthArray false g.entropyLenMin g.entropyLenStep g.entropyLenMax)
  let obj := jsonObjectSetValue obj "nonceLen"
    (drbgLengthArray true g.nonceLenMin g.nonceLenStep g.nonceLenMax)
  let obj := jsonObjectSetValue obj "persoStringLen"
    (drbgLengthArray true g.persoLenMin g.persoLenStep g.persoLenMax)
  let obj := jsonObjectSetValue obj "additionalInputLen"
    (drbgLengthArray true g.additionalInLenMin g.additionalInLenStep g.additionalInLenMax)
  jsonObjectSetValue obj "returnedBitsLen" (.num g.returnedBitsLen)

/-- The objects of a mode. -/
def drbgModeObjects (cipher : Cipher) (m : DrbgCapMode) : Except AmvpResult (List Json) := do
  let modeStr ← need (lookupDrbgModeString m.mode) .invalidArg
  pure (m.groups.map fun g => .obj (drbgGroupObject cipher modeStr g.group))

/-- {lit}`amvp_build_drbg_register_cap`. -/
def buildDrbgRegisterCap (capObj : JsonObject) (entry : CapsEntry) (cap : DrbgCap) :
    Except AmvpResult JsonObject := do
  let first ← need cap.drbgCapMode.head? .missingArg
  stopIf (first.groups = []) .missingArg
  let obj ← setNameAndRevision capObj (lookupCipherName entry.cipher) entry.cipher
  let obj := lookupPrereqVals obj entry
  let obj := jsonObjectSetValue obj "predResistanceEnabled"
    (.arr [.bool (cap.predResistEnabled ≠ 0)])
  let obj := jsonObjectSetBoolean obj "reseedImplemented" cap.reseedImplemented
  let objects ← cap.drbgCapMode.mapM (drbgModeObjects entry.cipher)
  pure (jsonObjectSetValue obj "capabilities" (.arr objects.flatten))

/-! ## RSA -/

/-- The mode of the public exponent, and the exponent when it is fixed. -/
def setPubExp (obj : JsonObject) (mode : Int) (fixed : Option String) : JsonObject :=
  let obj := jsonObjectSetText obj "pubExpMode"
    (some (if mode = rsaPubExpModeFixed then "fixed" else "random"))
  if mode = rsaPubExpModeFixed then jsonObjectSetString obj "fixedPubExp" fixed else obj

/-- The name of the format of a key. -/
def keyFormatStr (keyFormatCrt : Int) : String := if keyFormatCrt ≠ 0 then "crt" else "standard"

/-- {lit}`is_valid_prime_test`. -/
def isValidPrimeTest (value : String) : Bool := value = "tblC2" ∨ value = "tblC3"

/-- The object of a modulus of the key generation. -/
def rsaPrimesObject (c : RsaModeCaps) : JsonObject :=
  let obj := jsonObjectSetValue [] "modulo" (.num c.modulo)
  let obj := jsonObjectSetValue obj "hashAlg"
    (stringsArray (c.hashAlgs.filter fun name => (lookupHashAlg name).isSome))
  if c.primeTests = [] then obj
  else jsonObjectSetValue obj "primeTest" (stringsArray (c.primeTests.filter isValidPrimeTest))

/-- {lit}`amvp_lookup_rsa_primes`. -/
def lookupRsaPrimes (capObj : JsonObject) (node : RsaKeygenNode) : JsonObject :=
  if node.modeCapabilities = [] then capObj
  else
    jsonObjectSetValue capObj "properties"
      (.arr (node.modeCapabilities.map fun c => .obj (rsaPrimesObject c)))

/-- {lit}`amvp_lookup_rsa_randpq_name`. -/
def lookupRsaRandpqName (value : Int) : Option String := rsaRandPqStr value

/-- {lit}`amvp_build_rsa_keygen_register_cap`. -/
def buildRsaKeygenRegisterCap (capObj : JsonObject) (entry : CapsEntry)
    (nodes : List RsaKeygenNode) : Except AmvpResult JsonObject := do
  let obj ← setNameAndRevision capObj (some "RSA") entry.cipher
  let obj := jsonObjectSetText obj "mode" (some "keyGen")
  let obj := lookupPrereqVals obj entry
  let first ← need nodes.head? .noCap
  let obj := jsonObjectSetBoolean obj "infoGeneratedByServer" first.infoGenByServer
  stopIf (first.pubExpMode = 0) .missingArg
  let obj := setPubExp obj first.pubExpMode first.fixedPubExp
  let obj := jsonObjectSetText obj "keyFormat" (some (keyFormatStr first.keyFormatCrt))
  pure (jsonObjectSetValue obj "capabilities" (.arr (nodes.map fun node =>
    .obj (lookupRsaPrimes (jsonObjectSetText [] "randPQ" (lookupRsaRandpqName node.randPq))
      node))))

/-- The comparison of the name of a signature type with {lit}`pss`: do they differ?  A name
that is missing or shorter leaves the outcome of the comparison before in its place. -/
def differsFromPss (sigTypeStr : Option String) (diff : Bool) : Bool :=
  match sigTypeStr with
  | some str => if str.length < 3 then diff else str.toList.take 3 ≠ "pss".toList
  | none => diff

/-- The objects of the hashes of a modulus, and the outcome of the last comparison. -/
def rsaHashPairs (sigTypeStr : Option String) :
    Bool → List RsaHashPair → Except AmvpResult (List Json × Bool)
  | diff, [] => .ok ([], diff)
  | diff, pair :: rest => do
    let name ← need pair.name .missingArg
    let diff := differsFromPss sigTypeStr diff
    let obj := jsonObjectSetText [] "hashAlg" (some name)
    let obj := if diff then obj else jsonObjectSetValue obj "saltLen" (.num pair.salt)
    let out ← rsaHashPairs sigTypeStr diff rest
    pure (.obj obj :: out.1, out.2)

/-- The objects of the moduli of a signature type. -/
def rsaSigProperties (sigTypeStr : Option String) :
    Bool → List RsaModeCaps → Except AmvpResult (List Json × Bool)
  | diff, [] => .ok ([], diff)
  | diff, c :: rest => do
    let pairs ← rsaHashPairs sigTypeStr diff c.hashPair
    let obj := jsonObjectSetValue [] "modulo" (.num c.modulo)
    let obj := jsonObjectSetValue obj "hashPair" (.arr pairs.1)
    let out ← rsaSigProperties sigTypeStr pairs.2 rest
    pure (.obj obj :: out.1, out.2)

/-- The objects of the signature types. -/
def rsaSigTypes : Bool → List RsaSigNode → Except AmvpResult (List Json)
  | _, [] => .ok []
  | diff, node :: rest => do
    let obj := jsonObjectSetText [] "sigType" node.sigTypeStr
    let properties ← rsaSigProperties node.sigTypeStr diff node.modeCapabilities
    let out ← rsaSigTypes properties.2 rest
    pure (.obj (jsonObjectSetValue obj "properties" (.arr properties.1)) :: out)

/-- {lit}`amvp_build_rsa_sig_register_cap`, with the nodes of the member of the cipher. -/
def buildRsaSigRegisterCap (capObj : JsonObject) (entry : CapsEntry) (nodes : List RsaSigNode) :
    Except AmvpResult JsonObject := do
  let obj ← setNameAndRevision capObj (some "RSA") entry.cipher
  let first ← need nodes.head? .missingArg
  let obj :=
    if entry.cipher = .rsaSiggen then
      lookupPrereqVals (jsonObjectSetText obj "mode" (some "sigGen")) entry
    else
      setPubExp (lookupPrereqVals (jsonObjectSetText obj "mode" (some "sigVer")) entry)
        first.pubExpMode first.fixedPubExp
  let types ← rsaSigTypes true nodes
  pure (jsonObjectSetValue obj "capabilities" (.arr types))

/-! ## ECDSA -/

/-- The flags of a table of hash algorithms that are looked at. -/
def hashFlags (algs : Finset Int) : Finset Int := algs.filter fun i => 0 ≤ i ∧ i < hashAlgMax

/-- The hashes that are set for all curves are added to those of every curve, and stay there. -/
def EcdsaCap.widen (cap : EcdsaCap) : EcdsaCap :=
  { cap with curves := cap.curves.map fun c => { c with algs := c.algs ∪ hashFlags cap.hashAlgs } }

/-- The names of the hashes whose flags are set, which all have to be known.  The loop over
the flags meets them in the order of {lit}`hash_alg_tbl`. -/
def hashAlgNames (algs : Finset Int) : Except AmvpResult (List String) :=
  if ∀ i ∈ hashFlags algs, (lookupHashAlgName i).isSome then
    .ok ((HashAlg.all.filter fun alg => alg.toInt ∈ algs).map HashAlg.name)
  else .error .invalidArg

/-- Look up a curve in the table of the curves that have been dealt with. -/
def isTracked (track : List Int) (curve : Int) : Except BuildStop Bool :=
  if 0 ≤ curve ∧ curve ≤ ecCurveEnd then .ok (curve ∈ track)
  else .error (.fault (.trap .outOfBounds))

/-- The name of a curve. -/
def ecdsaCurveName (cipher : Cipher) (curve : Int) (rv : AmvpResult) : Except BuildStop String :=
  need (lookupEcCurveName cipher curve) (.refused rv)

/-- The names of the curves after a curve that have the same hashes, and the table. -/
def ecdsaSameAlgs (cipher : Cipher) (current : CurveAlgCompat) :
    List Int → List CurveAlgCompat → Except BuildStop (List String × List Int)
  | track, [] => .ok ([], track)
  | track, c :: rest => do
    let skipped ← if current.curve = c.curve then pure true else isTracked track c.curve
    if skipped then ecdsaSameAlgs cipher current track rest
    else if current.algs = c.algs then do
      let name ← ecdsaCurveName cipher c.curve .invalidArg
      let out ← ecdsaSameAlgs cipher current (c.curve :: track) rest
      pure (name :: out.1, out.2)
    else ecdsaSameAlgs cipher current track rest

/-- The object of curves with the same hashes. -/
def ecdsaGroupObject (curves algs : List String) : JsonObject :=
  [("curve", stringsArray curves), ("hashAlg", stringsArray algs)]

/-- The objects of the curves. -/
def ecdsaCapabilities (cipher : Cipher) :
    List Int → List CurveAlgCompat → Except BuildStop (List Json)
  | _, [] => .ok []
  | track, c :: rest => do
    stopIf (c.curve = 0) (.refused .missingArg)
    let skipped ← isTracked track c.curve
    if skipped then ecdsaCapabilities cipher track rest
    else do
      let name ← ecdsaCurveName cipher c.curve .invalidArg
      let algs ← (hashAlgNames c.algs).mapError BuildStop.refused
      let same ← ecdsaSameAlgs cipher c (c.curve :: track) rest
      let out ← ecdsaCapabilities cipher same.2 rest
      pure (.obj (ecdsaGroupObject (name :: same.1) algs) :: out)

/-- The registration of the generation and the verification of keys. -/
def ecdsaKeyObject (obj : JsonObject) (entry : CapsEntry) (mode : String) (cap : EcdsaCap) :
    Except BuildStop JsonObject := do
  let obj := lookupPrereqVals (jsonObjectSetText obj "mode" (some mode)) entry
  stopIf (cap.curves = []) (.refused .missingArg)
  let names ← cap.curves.mapM fun c => ecdsaCurveName entry.cipher c.curve .missingArg
  let obj := jsonObjectSetValue obj "curve" (stringsArray names)
  if entry.cipher = .ecdsaKeygen then
    pure (jsonObjectSetValue obj "secretGenerationMode" (stringsArray cap.secretGenModes))
  else pure obj

/-- The registration of signatures. -/
def ecdsaSigObject (obj : JsonObject) (entry : CapsEntry) (mode : String) (cap : EcdsaCap) :
    Except BuildStop JsonObject := do
  let obj := jsonObjectSetText obj "mode" (some mode)
  let obj := jsonObjectSetBoolean obj "componentTest" (if cap.component = 1 then 1 else 0)
  let obj := lookupPrereqVals obj entry
  stopIf (cap.curves = []) (.refused .missingArg)
  let objects ← ecdsaCapabilities entry.cipher [] cap.curves
  pure (jsonObjectSetValue obj "capabilities" (.arr objects))

/-- {lit}`amvp_build_ecdsa_register_cap`, with the content of the member of the cipher: what it
ends in, and the content it leaves. -/
def buildEcdsaRegisterCap (capObj : JsonObject) (entry : CapsEntry) (cap : EcdsaCap) :
    Except BuildStop JsonObject × EcdsaCap :=
  match setNameAndRevision capObj (some "ECDSA") entry.cipher with
  | .error rv => (.error (.refused rv), cap)
  | .ok obj =>
    match entry.cipher with
    | .ecdsaKeygen => (ecdsaKeyObject obj entry "keyGen" cap, cap)
    | .ecdsaKeyver => (ecdsaKeyObject obj entry "keyVer" cap, cap)
    | .ecdsaSiggen => (ecdsaSigObject obj entry "sigGen" cap.widen, cap.widen)
    | .ecdsaSigver => (ecdsaSigObject obj entry "sigVer" cap.widen, cap.widen)
    | _ => (.error (.refused .mallocFail), cap)

end LibAmvp
