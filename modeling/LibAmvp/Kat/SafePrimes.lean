import LibAmvp.Kat.VectorSet

/-!
# Safe primes

The handler of the tests of key pairs over safe-prime groups.  Keys are generated in one
mode and verified in the other.  The number of a group is written under a name of its own.
-/

namespace LibAmvp

open Guard

def safePrimesByteMax : Nat := 2048
def safePrimesStrMax : Nat := 4096

/-- {lit}`AMVP_SAFE_PRIMES_TEST_TYPE`. -/
inductive SafePrimesTestType where
  | aft | val
deriving DecidableEq

/-- {lit}`AMVP_SAFE_PRIMES_MODE`. -/
inductive SafePrimesMode where
  | modp2048 | modp3072 | modp4096 | modp6144 | modp8192
  | ffdhe2048 | ffdhe3072 | ffdhe4096 | ffdhe6144 | ffdhe8192
deriving DecidableEq

/-- {lit}`read_test_type`. -/
def readSafePrimesTestType (str : String) : Option SafePrimesTestType :=
  if str = "AFT" then some .aft else if str = "VAL" then some .val else none

/-- The names that {lit}`amvp_convert_dgm_string` compares with. -/
def dgmTbl : List (SafePrimesMode × String) :=
  [(.modp2048, "MODP-2048"), (.modp3072, "MODP-3072"), (.modp4096, "MODP-4096"),
    (.modp6144, "MODP-6144"), (.modp8192, "MODP-8192"), (.ffdhe2048, "ffdhe2048"),
    (.ffdhe3072, "ffdhe3072"), (.ffdhe4096, "ffdhe4096"), (.ffdhe6144, "ffdhe6144"),
    (.ffdhe8192, "ffdhe8192")]

/-- {lit}`amvp_convert_dgm_string`. -/
def convertDgmString (str : String) : Option SafePrimesMode :=
  (dgmTbl.find? fun row => row.2 = str).map Prod.fst

/-- {lit}`AMVP_SAFE_PRIMES_TC`. -/
structure SafePrimesTc where
  tgId : Int
  tcId : Int
  x : Buffer
  y : Buffer
  xlen : Int
  ylen : Int
  result : Int := 0
  testType : SafePrimesTestType
  cipher : Cipher
  dgm : SafePrimesMode
deriving DecidableEq

/-- {lit}`amvp_safe_primes_init_tc`: keys are decoded when they are to be verified. -/
def safePrimesInitTc (tgId tcId : Int) (algId : Cipher) (dgm : SafePrimesMode)
    (x y : Option String) (testType : SafePrimesTestType) : Except AmvpResult SafePrimesTc := do
  let yData ← onlyIf (algId = .safePrimesKeyver) (hexstrToBin y safePrimesByteMax) []
  let xData ← onlyIf (algId = .safePrimesKeyver) (hexstrToBin x safePrimesByteMax) []
  pure {
    tgId := tgId
    tcId := tcId
    x := ⟨safePrimesByteMax, xData⟩
    y := ⟨safePrimesByteMax, yData⟩
    xlen := xData.length
    ylen := yData.length
    testType := testType
    cipher := algId
    dgm := dgm }

/-- {lit}`amvp_safe_primes_output_tc`. -/
def safePrimesOutputTc (stc : SafePrimesTc) (tcRsp : JsonObject) :
    Except AmvpResult JsonObject :=
  if stc.cipher = .safePrimesKeyver then
    pure (jsonObjectSetBoolean tcRsp "testPassed" stc.result)
  else do
    let tcRsp ← setHexstr tcRsp "x" (some stc.x) stc.xlen safePrimesStrMax
    setHexstr tcRsp "y" (some stc.y) stc.ylen safePrimesStrMax

/-- What the handler reads of a group. -/
structure SafePrimesGroup where
  tgId : Int
  dgm : SafePrimesMode
  testTypeStr : Option String

/-- The part of {lit}`amvp_safe_primes_kat_handler` that reads a group. -/
def readSafePrimesGroup (groupobj : Option JsonObject) : Except AmvpResult SafePrimesGroup := do
  let tgId ← readTgId groupobj .missingArg
  let dgmStr ← need (jsonObjectGetString groupobj "safePrimeGroup") .missingArg
  let dgm ← need (convertDgmString dgmStr) .invalidArg
  pure ⟨tgId, dgm, jsonObjectGetString groupobj "testType"⟩

/-- The part of {lit}`amvp_safe_primes_kat_handler` that reads a test. -/
def readSafePrimesTest (algId : Cipher) (group : SafePrimesGroup) (testobj : Option JsonObject) :
    Except AmvpResult SafePrimesTc := do
  let tcId := toInt (jsonObjectGetNumber testobj "tcId")
  stopIf (tcId = 0) .missingArg
  let testTypeStr ← need group.testTypeStr .missingArg
  let testType ← need (readSafePrimesTestType testTypeStr) .invalidArg
  let x := if algId = .safePrimesKeyver then jsonObjectGetString testobj "x" else none
  stopIf (algId = .safePrimesKeyver ∧ x = none) .missingArg
  let y := if algId = .safePrimesKeyver then jsonObjectGetString testobj "y" else none
  stopIf (algId = .safePrimesKeyver ∧ y = none) .missingArg
  safePrimesInitTc group.tgId tcId algId group.dgm x y testType

/-- The loops of {lit}`amvp_safe_primes_kat_handler` in its two modes; no variable keeps its
value. -/
def safePrimesLoader (algId : Cipher) : KatLoader Unit SafePrimesGroup SafePrimesTc where
  start := ()
  enter _ groupobj _ := (readSafePrimesGroup groupobj).map (·, ())
  load _ group testobj := (readSafePrimesTest algId group testobj).map ({ question := · }, ())
  finish _ testobj tc := safePrimesOutputTc tc (responseTestInt testobj)
  close group tests := responseGroup "tg_id" group.tgId tests
  refused := .cryptoModuleFail

/-- The loops of {lit}`amvp_safe_primes_kat_handler`.  The tests of another algorithm are
passed over. -/
def safePrimesWorker (algId : Cipher) : KatWorker Unit SafePrimesGroup SafePrimesTc :=
  let worker := (safePrimesLoader algId).worker
  if algId = .safePrimesKeygen ∨ algId = .safePrimesKeyver then worker
  else { worker with
    work := fun _ _ _ => pure ([], ())
    close := fun group _ => worker.close group [] }

/-- The head of a vector set whose algorithm and mode name the cipher. -/
def setupByMode (ctx : KatCtx) (obj : JsonObject) :
    Except AmvpResult (String × String × Cipher) := do
  let algStr ← need (jsonObjectGetString (some obj) "algorithm") .malformedJson
  let modeStr ← need (jsonObjectGetString (some obj) "mode") .malformedJson
  let algId ← need (lookupCipherWModeIndex algStr (some modeStr)) .invalidArg
  let _ ← need (ctx.caps.locate algId) .unsupportedOp
  pure (algStr, modeStr, algId)

/-- {lit}`amvp_safe_primes_kat_handler`. -/
def safePrimesKatHandler (ctx : KatCtx) : KatHandler SafePrimesTc :=
  katHandler (setupByMode ctx) (fun head => safePrimesWorker head.2.2)
    (fun head => responseWithMode ctx (head.1, head.2.1))

end LibAmvp
