import LibAmvp.Capabilities.KeyAgreement
import LibAmvp.Kat.VectorSet

/-!
# Key agreement over elliptic curves

The handlers of the KAS-ECC tests: the cofactor Diffie-Hellman primitive, the component
tests and the computation of a shared secret.  The algorithm of the test case structure is
set before the loops and is lost when the structure is released after the first test.
-/

namespace LibAmvp

open Guard

def kasEccByteMax : Nat := 512
def kasEccStrMax : Nat := 1024

/-- {lit}`AMVP_KAS_ECC_TEST_TYPE`. -/
inductive KasEccTestType where
  | aft | val
deriving DecidableEq

/-- {lit}`AMVP_KAS_ECC_TC`. -/
structure KasEccTc where
  cipher : Cipher
  testType : KasEccTestType
  mode : KasEccMode
  curve : EcCurve
  md : Option HashAlg := none
  psx : Buffer
  psy : Buffer
  pix : Buffer := ⟨kasEccByteMax, []⟩
  piy : Buffer := ⟨kasEccByteMax, []⟩
  d : Buffer := ⟨kasEccByteMax, []⟩
  z : Buffer := ⟨kasEccByteMax, []⟩
  chash : Buffer := ⟨kasEccByteMax, []⟩
  psxlen : Int
  psylen : Int
  pixlen : Int := 0
  piylen : Int := 0
  dlen : Int := 0
  zlen : Int := 0
  chashlen : Int := 0
deriving DecidableEq

/-- {lit}`read_test_type`. -/
def readKasEccTestType (str : String) : Option KasEccTestType :=
  if str = "AFT" then some .aft else if str = "VAL" then some .val else none

/-! ## Test cases -/

/-- {lit}`amvp_kas_ecc_init_cdh_tc`. -/
def kasEccInitCdhTc (cipher : Cipher) (testType : KasEccTestType) (curve : EcCurve)
    (psx psy : String) : Except AmvpResult KasEccTc := do
  let psxData ← hexstrToBin (some psx) kasEccByteMax
  let psyData ← hexstrToBin (some psy) kasEccByteMax
  pure {
    cipher := cipher
    mode := .cdh
    curve := curve
    testType := testType
    psx := ⟨kasEccByteMax, psxData⟩
    psxlen := psxData.length
    psy := ⟨kasEccByteMax, psyData⟩
    psylen := psyData.length }

/-- What a test of a known result gives in addition. -/
structure KasEccVal where
  pix : Option String := none
  piy : Option String := none
  d : Option String := none
  z : Option String := none

/-- {lit}`amvp_kas_ecc_init_comp_tc`. -/
def kasEccInitCompTc (cipher : Cipher) (testType : KasEccTestType) (curve : EcCurve)
    (hash : Option HashAlg) (psx psy : String) (val : KasEccVal) :
    Except AmvpResult KasEccTc := do
  let psxData ← hexstrToBin (some psx) kasEccByteMax
  let psyData ← hexstrToBin (some psy) kasEccByteMax
  stopIf (testType = .val ∧ (val.pix = none ∨ val.piy = none ∨ val.d = none ∨ val.z = none))
    .missingArg
  let pixData ← onlyIf (testType = .val) (hexstrToBin val.pix kasEccByteMax) []
  let piyData ← onlyIf (testType = .val) (hexstrToBin val.piy kasEccByteMax) []
  let dData ← onlyIf (testType = .val) (hexstrToBin val.d kasEccByteMax) []
  let zData ← onlyIf (testType = .val) (hexstrToBin val.z kasEccByteMax) []
  pure {
    cipher := cipher
    mode := .component
    curve := curve
    md := hash
    testType := testType
    psx := ⟨kasEccByteMax, psxData⟩
    psxlen := psxData.length
    psy := ⟨kasEccByteMax, psyData⟩
    psylen := psyData.length
    pix := ⟨kasEccByteMax, pixData⟩
    pixlen := pixData.length
    piy := ⟨kasEccByteMax, piyData⟩
    piylen := piyData.length
    d := ⟨kasEccByteMax, dData⟩
    dlen := dData.length
    z := ⟨kasEccByteMax, zData⟩
    zlen := zData.length }

/-- {lit}`amvp_kas_ecc_output_cdh_tc`. -/
def kasEccOutputCdhTc (stc : KasEccTc) (tcRsp : JsonObject) : Except AmvpResult JsonObject := do
  let tcRsp ← setHexstr tcRsp "publicIutX" (some stc.pix) stc.pixlen kasEccStrMax
  let tcRsp ← setHexstr tcRsp "publicIutY" (some stc.piy) stc.piylen kasEccStrMax
  setHexstr tcRsp "z" (some stc.z) stc.zlen kasEccStrMax

/-- {lit}`memcmp_s` finds no difference between the result of the module and the expected
one.  It does not compare when the expected one is empty or too long. -/
def KasEccTc.sameHash (stc : KasEccTc) : Bool :=
  0 < stc.zlen ∧ stc.zlen ≤ kasEccByteMax ∧
    stc.chash.read stc.zlen.toNat = stc.z.read stc.zlen.toNat

/-- The two functions {lit}`amvp_kas_ecc_output_comp_tc` and
{lit}`amvp_kas_ecc_output_ssc_tc`, which differ in the name of the shared secret. -/
def kasEccOutputHash (hashName : String) (stc : KasEccTc) (tcRsp : JsonObject) :
    Except AmvpResult JsonObject :=
  match stc.testType with
  | .val => do
    let _ ← binToHexstr (some stc.chash) stc.chashlen kasEccStrMax
    pure (jsonObjectSetBoolean tcRsp "testPassed" stc.sameHash.toInt)
  | .aft => do
    let tcRsp ← setHexstr tcRsp "ephemeralPublicIutX" (some stc.pix) stc.pixlen kasEccStrMax
    let tcRsp ← setHexstr tcRsp "ephemeralPublicIutY" (some stc.piy) stc.piylen kasEccStrMax
    let tcRsp ← setHexstr tcRsp "ephemeralPrivateIut" (some stc.d) stc.dlen kasEccStrMax
    setHexstr tcRsp hashName (some stc.chash) stc.chashlen kasEccStrMax

/-- {lit}`amvp_kas_ecc_output_comp_tc`. -/
def kasEccOutputCompTc (stc : KasEccTc) (tcRsp : JsonObject) : Except AmvpResult JsonObject :=
  kasEccOutputHash "hashZIut" stc tcRsp

/-- {lit}`amvp_kas_ecc_output_ssc_tc`. -/
def kasEccOutputSscTc (stc : KasEccTc) (tcRsp : JsonObject) : Except AmvpResult JsonObject :=
  kasEccOutputHash (if stc.md = none then "Z" else "hashZ") stc tcRsp

/-! ## Groups and tests -/

/-- What the handlers read of a group. -/
structure KasEccGroup where
  tgId : Int
  curve : EcCurve
  hash : Option HashAlg
  testType : KasEccTestType

/-- The part of the three functions that reads a group.  The hash function is read between
the curve and the type of the tests. -/
def readKasEccGroup (curveName : String)
    (readHash : Option JsonObject → Except AmvpResult (Option HashAlg)) (cipher : Cipher)
    (groupobj : Option JsonObject) : Except AmvpResult KasEccGroup := do
  let tgId ← readTgId groupobj .malformedJson
  let curveStr ← need (jsonObjectGetString groupobj curveName) .missingArg
  let curve ← need (lookupEcCurve cipher curveStr) .invalidArg
  let hash ← readHash groupobj
  let testTypeStr ← need (jsonObjectGetString groupobj "testType") .missingArg
  let testType ← need (readKasEccTestType testTypeStr) .invalidArg
  pure ⟨tgId, curve, hash, testType⟩

/-- The hash function of a group, one of a list. -/
def readKasEccHash (name : String) (allowed : List HashAlg) (groupobj : Option JsonObject) :
    Except AmvpResult (Option HashAlg) := do
  let hashStr ← need (jsonObjectGetString groupobj name) .missingArg
  let hash ← need (lookupHashAlg hashStr) .invalidArg
  stopIf (hash ∉ allowed) .invalidArg
  pure (some hash)

/-- The hash functions of {lit}`amvp_kas_ecc_comp`. -/
def kasEccCompHashes : List HashAlg := [.sha224, .sha256, .sha384, .sha512]

/-- The hash functions of {lit}`amvp_kas_ecc_ssc`. -/
def kasEccSscHashes : List HashAlg :=
  [.sha224, .sha256, .sha384, .sha512, .sha512_224, .sha512_256, .sha3_224, .sha3_256, .sha3_384,
    .sha3_512]

/-- The part of {lit}`amvp_kas_ecc_cdh` that reads a test. -/
def readKasEccCdhTest (cipher : Cipher) (group : KasEccGroup) (testobj : Option JsonObject) :
    Except AmvpResult KasEccTc := do
  let psx ← readString testobj "publicServerX" kasEccStrMax
  let psy ← readString testobj "publicServerY" kasEccStrMax
  kasEccInitCdhTc cipher group.testType group.curve psx psy

/-- The expected results of a test, in a group that gives them. -/
def readKasEccVal (readZ : Option JsonObject → Except AmvpResult String) (group : KasEccGroup)
    (testobj : Option JsonObject) : Except AmvpResult KasEccVal :=
  onlyIf (group.testType = .val) (do
    let pix ← readString testobj "ephemeralPublicIutX" kasEccStrMax
    let piy ← readString testobj "ephemeralPublicIutY" kasEccStrMax
    let d ← readString testobj "ephemeralPrivateIut" kasEccStrMax
    let z ← readZ testobj
    pure ⟨some pix, some piy, some d, some z⟩) {}

/-- The part of {lit}`amvp_kas_ecc_comp` and {lit}`amvp_kas_ecc_ssc` that reads a test. -/
def readKasEccCompTest (readZ : Option JsonObject → Except AmvpResult String) (cipher : Cipher)
    (group : KasEccGroup) (testobj : Option JsonObject) : Except AmvpResult KasEccTc := do
  let psx ← readString testobj "ephemeralPublicServerX" kasEccStrMax
  let psy ← readString testobj "ephemeralPublicServerY" kasEccStrMax
  let val ← readKasEccVal readZ group testobj
  kasEccInitCompTc cipher group.testType group.curve group.hash psx psy val

/-- The expected secret of {lit}`amvp_kas_ecc_ssc`: without a hash function it may stand under
another name. -/
def readKasEccSscZ (hashed : Bool) (testobj : Option JsonObject) : Except AmvpResult String := do
  let z ← need ((jsonObjectGetString testobj "hashZ").or
    (if hashed then none else jsonObjectGetString testobj "z")) .missingArg
  stopIf (strnlenS z (kasEccStrMax + 1) > kasEccStrMax) .invalidArg
  pure z

/-- The loops of the three functions.  The variable that keeps its value is the algorithm of
the test case structure. -/
def kasEccLoader (cipher : Cipher)
    (readGroup : Cipher → Option JsonObject → Except AmvpResult KasEccGroup)
    (readTest : Cipher → KasEccGroup → Option JsonObject → Except AmvpResult KasEccTc)
    (outputTc : KasEccTc → JsonObject → Except AmvpResult JsonObject) :
    KatLoader Cipher KasEccGroup KasEccTc where
  start := cipher
  enter cipher groupobj _ := (readGroup cipher groupobj).map (·, cipher)
  load cipher group testobj :=
    (readTest cipher group testobj).map ({ question := · }, .cipherStart)
  finish _ testobj tc := outputTc tc (responseTestInt testobj)
  close group tests := responseGroup "tgId" group.tgId tests
  refused := .cryptoModuleFail

/-- {lit}`amvp_kas_ecc_cdh`. -/
def kasEccCdh : KatLoader Cipher KasEccGroup KasEccTc :=
  kasEccLoader .kasEccCdh (readKasEccGroup "curve" fun _ => .ok none) readKasEccCdhTest
    kasEccOutputCdhTc

/-- {lit}`amvp_kas_ecc_comp`. -/
def kasEccComp : KatLoader Cipher KasEccGroup KasEccTc :=
  kasEccLoader .kasEccComp (readKasEccGroup "curve" (readKasEccHash "hashAlg" kasEccCompHashes))
    (readKasEccCompTest fun testobj => readString testobj "hashZIut" kasEccStrMax)
    kasEccOutputCompTc

/-- Whether the registered capability has a hash function. -/
def KatCtx.kasEccSscHashed (ctx : KatCtx) : Bool :=
  match (ctx.content .kasEccSsc .kasEccCap).bind fun cap => cap.kasEccMode[3]? with
  | some mode => mode.hash ≠ 0
  | none => false

/-- {lit}`amvp_kas_ecc_ssc`. -/
def kasEccSsc (ctx : KatCtx) : KatLoader Cipher KasEccGroup KasEccTc :=
  let hashed := ctx.kasEccSscHashed
  kasEccLoader .cipherStart
    (readKasEccGroup "domainParameterGenerationMode" fun groupobj =>
      onlyIf hashed (readKasEccHash "hashFunctionZ" kasEccSscHashes groupobj) none)
    (readKasEccCompTest (readKasEccSscZ hashed)) kasEccOutputSscTc

/-- The head of {lit}`amvp_kas_ecc_kat_handler`.  Without a mode the algorithm has no tests. -/
def setupKasEcc (ctx : KatCtx) (obj : JsonObject) :
    Except AmvpResult (String × String × KatLoader Cipher KasEccGroup KasEccTc) := do
  let algStr ← need (jsonObjectGetString (some obj) "algorithm") .malformedJson
  let modeStr ← need (jsonObjectGetString (some obj) "mode") .unsupportedOp
  let cipher := lookupCipherWModeIndex algStr (some modeStr)
  stopIf (cipher ≠ some .kasEccCdh ∧ cipher ≠ some .kasEccComp) .invalidArg
  let cipher ← need cipher .invalidArg
  let _ ← need (ctx.caps.locate cipher) .unsupportedOp
  pure (algStr, modeStr, if cipher = .kasEccCdh then kasEccCdh else kasEccComp)

/-- {lit}`amvp_kas_ecc_kat_handler`. -/
def kasEccKatHandler (ctx : KatCtx) : KatHandler KasEccTc :=
  katHandler (setupKasEcc ctx) (fun head => head.2.2.worker)
    (fun head => responseWithMode ctx (head.1, head.2.1))

/-- The head of {lit}`amvp_kas_ecc_ssc_kat_handler`. -/
def setupKasEccSsc (ctx : KatCtx) (obj : JsonObject) : Except AmvpResult String := do
  let algStr ← need (jsonObjectGetString (some obj) "algorithm") .malformedJson
  let _ ← need (ctx.caps.locate .kasEccSsc) .unsupportedOp
  pure algStr

/-- {lit}`amvp_kas_ecc_ssc_kat_handler`. -/
def kasEccSscKatHandler (ctx : KatCtx) : KatHandler KasEccTc :=
  katHandler (setupKasEccSsc ctx) (fun _ => (kasEccSsc ctx).worker) (responseObject ctx.vsId)

end LibAmvp
