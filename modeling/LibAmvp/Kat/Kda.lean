import LibAmvp.Capabilities.Kda
import LibAmvp.Kat.Kdf108

/-!
# The key derivation handlers of SP 800-56C

HKDF, OneStep and TwoStep share one function that goes through groups and tests; what
differs is read and stored by functions of their own.  The test case structure lives outside
the loops.  Its cipher is stored once, and clearing the structure after a test clears the
cipher as well; the flag for hybrid secrets is read from the parameters of the test that was
processed last, and the initialization vector of TwoStep stays in its variable.

TwoStep stores the literal of a pattern through a pointer to the structure of OneStep: the
length of the literal lands in the length of the identifier of party V, and the address of
its buffer in the lengths of the ephemeral data of party V and of the algorithm identifier.

Main results:

- Theorem {lit}`kdaHkdf_independentIff`, {lit}`kdaOnestep_independentIff`,
  {lit}`kdaTwostep_aloneIff`: only the first test of a vector set is sure to get the
  test case it would get alone.
-/

namespace LibAmvp

open Guard

def kdaDkmBitMaxLen : Int := 8192
def kdaDkmStrMax : Nat := 2048
def kdaDkmByteMax : Nat := 1024
def kdaFixedByteMax : Nat := 1024
def kdaSaltBitMax : Int := 1344
def kdaSaltStrMax : Nat := 336
def kdaSaltByteMax : Nat := 168
def kdaZStrMax : Nat := 16334
def kdaZByteMax : Nat := 8167
def kdaPatternRegStrLenMax : Nat := 256
def kdaPatternLiteralStrMax : Nat := 64
def kdaPatternLiteralByteMax : Nat := 8

/-! ## Test cases -/

/-- {lit}`AMVP_KDA_TEST_TYPE`. -/
inductive KdaTestType where
  | aft | val
deriving DecidableEq

/-- {lit}`AMVP_KDA_PATTERN_CANDIDATE`. -/
inductive KdaPatternCandidate where
  | literal | uPartyInfo | vPartyInfo | context | algorithmId | label | l | t
deriving DecidableEq

/-- {lit}`AMVP_KDA_ENCODING`, as far as the handlers know it. -/
inductive KdaEncoding where
  | concat
deriving DecidableEq

/-- {lit}`AMVP_KDA_MAC_SALT_METHOD`. -/
inductive KdaMacSaltMethod where
  | default | random
deriving DecidableEq

/-- The fields that the three test case structures share.  The array of the pattern is a list
without the zeros at its end. -/
structure KdaTc where
  cipher : Cipher
  type : KdaTestType
  fixedInfoPattern : List KdaPatternCandidate
  encoding : KdaEncoding
  saltMethod : KdaMacSaltMethod
  tcId : Nat
  l : Int
  salt : Option Buffer := none
  z : Option Buffer := none
  t : Option Buffer := none
  saltLen : Int := 0
  zLen : Int := 0
  tLen : Int := 0
  uPartyIdLen : Int := 0
  uEphemeralLen : Int := 0
  vPartyIdLen : Int := 0
  vEphemeralLen : Int := 0
  algIdLen : Int := 0
  labelLen : Int := 0
  contextLen : Int := 0
  literalLen : Int := 0
  literalCandidate : Option Buffer := none
  algorithmId : Option Buffer := none
  label : Option Buffer := none
  context : Option Buffer := none
  uPartyId : Option Buffer := none
  uEphemeralData : Option Buffer := none
  vPartyId : Option Buffer := none
  vEphemeralData : Option Buffer := none
  providedDkm : Option Buffer := none
  outputDkm : Option Buffer := none
deriving DecidableEq

/-- {lit}`AMVP_KDA_HKDF_TC`. -/
structure KdaHkdfTc extends KdaTc where
  hmacAlg : HashAlg
  usesHybridSecret : Int
deriving DecidableEq

/-- {lit}`AMVP_KDA_ONESTEP_TC`. -/
structure KdaOnestepTc extends KdaTc where
  auxFunction : Cipher
deriving DecidableEq

/-- {lit}`AMVP_KDA_TWOSTEP_TC`. -/
structure KdaTwostepTc extends KdaTc where
  kdfMode : Kdf108Mode
  macFunction : Kdf108MacMode
  counterLocation : Kdf108FixedDataOrder
  usesHybridSecret : Int
  iv : Option Buffer := none
  ivLen : Int := 0
  counterLen : Int
deriving DecidableEq

/-! ## Reading names -/

/-- {lit}`read_test_type`. -/
def readKdaTestType (str : String) : Option KdaTestType :=
  if str = "AFT" then some .aft else if str = "VAL" then some .val else none

/-- {lit}`strncmp_s` with the length of the second string: a proper start is enough. -/
def isStartOf (str : String) (name : String) : Prop :=
  str ≠ "" ∧ str.toList <+: name.toList

instance (str name : String) : Decidable (isStartOf str name) :=
  inferInstanceAs (Decidable (_ ∧ _))

/-- {lit}`read_encoding_type`. -/
def readEncodingType (str : Option String) : Option KdaEncoding :=
  str.bind fun str => if isStartOf str "concatenation" then some .concat else none

/-- {lit}`read_salt_method`. -/
def readSaltMethod (str : Option String) : Option KdaMacSaltMethod :=
  str.bind fun str =>
    if isStartOf str "default" then some .default
    else if isStartOf str "random" then some .random
    else none

/-- {lit}`amvp_lookup_aux_function_alg_tbl`. -/
def lookupAuxFunctionAlgTbl (str : String) : Option Cipher :=
  (auxFunctionTbl.find? fun row => row.2 = str).map Prod.fst

/-! ## Patterns -/

/-- What stands between the brackets of a literal: {lit}`strtok_s` skips closing brackets at
the start. -/
def literalToken (token : List Char) : List Char :=
  (((token.dropWhile (· ≠ '[')).drop 1).dropWhile (· = ']')).takeWhile (· ≠ ']')

/-- {lit}`cmp_pattern_str`: a candidate, and for a literal its bytes. -/
def cmpPatternStr (token : List Char) : Option (KdaPatternCandidate × Option (List UInt8)) :=
  if token = "uPartyInfo".toList then some (.uPartyInfo, none)
  else if token = "vPartyInfo".toList then some (.vPartyInfo, none)
  else if token = "context".toList then some (.context, none)
  else if token = "algorithmId".toList then some (.algorithmId, none)
  else if token = "label".toList then some (.label, none)
  else if token = "l".toList then some (.l, none)
  else if token = "t".toList then some (.t, none)
  else if "literal".toList <+: token ∧ literalToken token ≠ [] ∧
      strnlenS (String.ofList (literalToken token)) (kdaPatternLiteralStrMax + 1) ≤
        kdaPatternLiteralStrMax then
    match hexstrToBin (some (String.ofList (literalToken token))) kdaPatternLiteralByteMax with
    | .ok data => some (.literal, some data)
    | .error _ => none
  else none

/-- The tokens of a pattern. -/
def patternTokens (str : String) : List (List Char) :=
  (str.toList.splitOnP (· == '|')).filter (· ≠ [])

/-- {lit}`read_info_pattern`: the candidates, and the bytes of the literals among them. -/
def readInfoPattern (str : String) : Option (List KdaPatternCandidate × List (List UInt8)) := do
  let len := strnlenS str (kdaPatternRegStrLenMax + 1)
  if kdaPatternRegStrLenMax < len ∨ len < 1 then none
  else if kdaPatternMax < ((patternTokens str).length : Int) then none
  else
    let read ← (patternTokens str).mapM cmpPatternStr
    let candidates := read.map Prod.fst
    if .uPartyInfo ∈ candidates ∧ .vPartyInfo ∈ candidates then
      some (candidates, read.filterMap Prod.snd)
    else none

/-! ## Groups and tests -/

/-- What the handlers read of a group: {lit}`function` names the function that is used, and
{lit}`extra` is what only TwoStep reads. -/
structure KdaGroup (α β : Type) where
  tgId : Int
  testType : KdaTestType
  function : α
  patternStr : String
  encoding : KdaEncoding
  saltMethod : KdaMacSaltMethod
  saltLen : Int
  l : Int
  extra : β
  hybridSecret : Int

/-- What the handlers read of a test. -/
structure KdaTest where
  tcId : Int
  pattern : List KdaPatternCandidate
  literals : List (List UInt8)
  salt : Option String
  z : String
  iv : Option String
  uparty : Option String
  uephemeral : Option String
  vparty : Option String
  vephemeral : Option String
  context : Option String
  algid : Option String
  label : Option String
  t : Option String
  dkm : Option String

/-- What keeps its value from test to test: the cipher in the test case structure, the
parameters of the test before, the initialization vector and the number of literals that
have been allocated. -/
structure KdaVars where
  cipher : Cipher
  paramobj : Option JsonObject := none
  ivStr : Option String := none
  literals : Nat := 0

/-- The part of {lit}`amvp_kda_process` that reads a group. -/
def readKdaGroup {α β : Type} (readFunction : Option JsonObject → Except AmvpResult α)
    (capL : Option Int) (leastL : Int) (readExtra : Option JsonObject → Except AmvpResult β)
    (paramobj groupobj : Option JsonObject) : Except AmvpResult (KdaGroup α β) := do
  let tgId ← readTgId groupobj .malformedJson
  let testTypeStr ← need (jsonObjectGetString groupobj "testType") .malformedJson
  let testType ← need (readKdaTestType testTypeStr) .malformedJson
  let configobj ← need (jsonObjectGetObject groupobj "kdfConfiguration") .malformedJson
  let function ← readFunction (some configobj)
  let patternStr ← need (jsonObjectGetString (some configobj) "fixedInfoPattern") .malformedJson
  let encoding ← need (readEncodingType (jsonObjectGetString (some configobj)
    "fixedInfoEncoding")) .malformedJson
  let saltMethod ← need (readSaltMethod (jsonObjectGetString (some configobj) "saltMethod"))
    .malformedJson
  let saltLen := toInt (jsonObjectGetNumber (some configobj) "saltLen")
  stopIf (saltLen.tmod 8 ≠ 0 ∨ saltLen < 0 ∨ saltLen > kdaSaltBitMax) .malformedJson
  let l := toInt (jsonObjectGetNumber (some configobj) "l")
  let capL ← need capL .unsupportedOp
  stopIf (l ≠ capL ∨ l < leastL ∨ l > kdaDkmBitMaxLen) .malformedJson
  let extra ← readExtra (some configobj)
  let hybridSecret := jsonObjectGetBoolean paramobj "usesHybridSharedSecret"
  pure ⟨tgId, testType, function, patternStr, encoding, saltMethod, saltLen, l, extra,
    hybridSecret⟩

/-- The identifier and the ephemeral data of a party. -/
def readKdaParty (testobj : Option JsonObject) (name : String) :
    Except AmvpResult (Option String × Option String) := do
  let partyobj ← need (jsonObjectGetObject testobj name) .malformedJson
  let partyId ← need (jsonObjectGetString (some partyobj) "partyId") .malformedJson
  pure (some partyId, jsonObjectGetString (some partyobj) "ephemeralData")

/-- A string that a test must have. -/
def readKdaString (obj : Option JsonObject) (name : String) (missing : AmvpResult) :
    Except AmvpResult (Option String) := do
  let str ← need (jsonObjectGetString obj name) missing
  pure (some str)

/-- The part of {lit}`amvp_kda_process` that reads a test. -/
def readKdaTest {α β : Type} (needsSalt : Bool) (needsIv : Bool) (ivStr : Option String)
    (group : KdaGroup α β) (testobj : Option JsonObject) : Except AmvpResult KdaTest := do
  let paramobj := jsonObjectGetObject testobj "kdfParameter"
  let tcId := toInt (jsonObjectGetNumber testobj "tcId")
  let salt := jsonObjectGetString paramobj "salt"
  let (pattern, literals) ← need (readInfoPattern group.patternStr) .malformedJson
  stopIf (needsSalt ∧ salt = none) .malformedJson
  stopIf (needsSalt ∧ (strnlenS (salt.getD "") (kdaSaltStrMax + 1) : Int) ≠ group.saltLen.tdiv 4)
    .malformedJson
  let z ← need (jsonObjectGetString paramobj "z") .malformedJson
  stopIf (strnlenS z (kdaZStrMax + 1) > kdaZStrMax) .tcInvalidData
  let iv ← onlyIf needsIv (readKdaString paramobj "iv" .tcInvalidData) ivStr
  let (uparty, uephemeral) ← onlyIf (.uPartyInfo ∈ pattern)
    (readKdaParty testobj "fixedInfoPartyU") (none, none)
  let (vparty, vephemeral) ← onlyIf (.vPartyInfo ∈ pattern)
    (readKdaParty testobj "fixedInfoPartyV") (none, none)
  let context ← onlyIf (.context ∈ pattern) (readKdaString paramobj "context" .malformedJson) none
  let algid ← onlyIf (.algorithmId ∈ pattern)
    (readKdaString paramobj "algorithmId" .malformedJson) none
  let label ← onlyIf (.label ∈ pattern) (readKdaString paramobj "label" .malformedJson) none
  let t ← onlyIf (.t ∈ pattern) (readKdaString paramobj "t" .malformedJson) none
  let t ← onlyIf (t = none ∧ jsonObjectHasValue paramobj "t" ∧ group.hybridSecret ≠ 0)
    (readKdaString paramobj "t" .malformedJson) t
  let dkm ← onlyIf (group.testType = .val) (readKdaString testobj "dkm" .malformedJson) none
  stopIf (group.testType = .val ∧
    (strnlenS (dkm.getD "") kdaDkmStrMax : Int) ≠ group.l.tdiv 4) .malformedJson
  pure ⟨tcId, pattern, literals, salt, z, iv, uparty, uephemeral, vparty, vephemeral, context,
    algid, label, t, dkm⟩

/-! ## Filling the structures -/

/-- A string decoded into a fresh buffer, with the number of its bytes; nothing without a
string. -/
def decodeGiven (src : Option String) (size : Nat) : Except AmvpResult (Option (Buffer × Int)) :=
  onlyIf (src ≠ none) ((hexstrToBin src size).map fun data => some (⟨size, data⟩, data.length))
    none

/-- A string that has to be there, decoded into a fresh buffer. -/
def decodeNeeded (src : Option String) (size : Nat) : Except AmvpResult (Buffer × Int) :=
  (hexstrToBin src size).map fun data => (⟨size, data⟩, data.length)

/-- The structure as the fields that need no decoding leave it. -/
def KdaTc.begin {α β : Type} (cipher : Cipher) (group : KdaGroup α β) (test : KdaTest) : KdaTc where
  cipher := cipher
  type := group.testType
  fixedInfoPattern := test.pattern
  encoding := group.encoding
  saltMethod := group.saltMethod
  tcId := unsignedOfInt test.tcId
  l := group.l.tdiv 8

/-- The part that the three functions share after the secret: {lit}`t`, the parties, the
algorithm identifier, the label, the context and the keying material. -/
def KdaTc.fillInfo (stc : KdaTc) (test : KdaTest) : Except AmvpResult KdaTc := do
  let t ← decodeGiven test.t kdaZByteMax
  let uparty ← decodeNeeded test.uparty kdaFixedByteMax
  let uephemeral ← decodeGiven test.uephemeral kdaFixedByteMax
  let vparty ← decodeNeeded test.vparty kdaFixedByteMax
  let vephemeral ← decodeGiven test.vephemeral kdaFixedByteMax
  let algid ← decodeGiven test.algid kdaFixedByteMax
  let label ← decodeGiven test.label kdaFixedByteMax
  let context ← decodeGiven test.context kdaFixedByteMax
  let provided ← onlyIf (stc.type = .val) ((decodeNeeded test.dkm kdaDkmByteMax).map some) none
  pure { stc with
    t := t.map Prod.fst
    tLen := (t.map Prod.snd).getD stc.tLen
    uPartyId := some uparty.1
    uPartyIdLen := uparty.2
    uEphemeralData := uephemeral.map Prod.fst
    uEphemeralLen := (uephemeral.map Prod.snd).getD stc.uEphemeralLen
    vPartyId := some vparty.1
    vPartyIdLen := vparty.2
    vEphemeralData := vephemeral.map Prod.fst
    vEphemeralLen := (vephemeral.map Prod.snd).getD stc.vEphemeralLen
    algorithmId := algid.map Prod.fst
    algIdLen := (algid.map Prod.snd).getD stc.algIdLen
    label := label.map Prod.fst
    labelLen := (label.map Prod.snd).getD stc.labelLen
    context := context.map Prod.fst
    contextLen := (context.map Prod.snd).getD stc.contextLen
    outputDkm := some ⟨kdaDkmByteMax, []⟩
    providedDkm := provided.map Prod.fst }

/-- Store a literal in the structures of HKDF and OneStep. -/
def KdaTc.withLiteral (stc : KdaTc) (literals : List (List UInt8)) : KdaTc :=
  match literals.getLast? with
  | none => stc
  | some data =>
    { stc with
      literalLen := data.length
      literalCandidate := some ⟨kdaPatternLiteralByteMax, data⟩ }

/-- Store a literal in the structure of TwoStep, through a pointer to that of OneStep. -/
def KdaTc.withMisplacedLiteral (stc : KdaTc) (literals : List (List UInt8)) (address : Nat) :
    KdaTc :=
  match literals.getLast? with
  | none => stc
  | some data =>
    { stc with
      vPartyIdLen := data.length
      vEphemeralLen := intOfUnsigned (address % 2 ^ 32)
      algIdLen := intOfUnsigned (address / 2 ^ 32) }

/-- {lit}`amvp_kda_hkdf_init_tc`. -/
def kdaHkdfInitTc (cipher : Cipher) (group : KdaGroup HashAlg Unit) (test : KdaTest) :
    Except AmvpResult KdaHkdfTc := do
  let stc := (KdaTc.begin cipher group test).withLiteral test.literals
  let salt ← decodeNeeded test.salt kdaSaltByteMax
  let stc := { stc with salt := some salt.1, saltLen := salt.2 }
  let stc ← onlyIf (salt.2 = group.saltLen.tdiv 8)
    (do
      let z ← decodeNeeded (some test.z) kdaZByteMax
      KdaTc.fillInfo { stc with z := some z.1, zLen := z.2 } test) stc
  pure { stc with hmacAlg := group.function, usesHybridSecret := group.hybridSecret }

/-- {lit}`amvp_kda_onestep_init_tc`.  A salt of another length than the group gives ends the
function early, with success. -/
def kdaOnestepInitTc (cipher : Cipher) (group : KdaGroup Cipher Unit) (test : KdaTest) :
    Except AmvpResult KdaOnestepTc := do
  let stc := (KdaTc.begin cipher group test).withLiteral test.literals
  let salt ← decodeGiven test.salt kdaSaltByteMax
  let stc := { stc with salt := salt.map Prod.fst, saltLen := (salt.map Prod.snd).getD 0 }
  let stc ← onlyIf (salt = none ∨ group.saltLen = 0 ∨ stc.saltLen = group.saltLen.tdiv 8)
    (do
      let z ← decodeNeeded (some test.z) kdaZByteMax
      KdaTc.fillInfo { stc with z := some z.1, zLen := z.2 } test) stc
  pure { stc with auxFunction := group.function }

/-- What only TwoStep reads of a group. -/
structure KdaTwostepExtra where
  kdfMode : Kdf108Mode
  ctrLoc : Kdf108FixedDataOrder
  ctrLen : Int
  ivLen : Int

/-- {lit}`amvp_kda_twostep_init_tc`.  A salt or an initialization vector of another length
than the group gives ends the function early, with success. -/
def kdaTwostepInitTc (cipher : Cipher) (group : KdaGroup Kdf108MacMode KdaTwostepExtra)
    (test : KdaTest) (address : Nat) : Except AmvpResult KdaTwostepTc := do
  let stc := (KdaTc.begin cipher group test).withMisplacedLiteral test.literals address
  let salt ← decodeNeeded test.salt kdaSaltByteMax
  let stc := { stc with salt := some salt.1, saltLen := salt.2 }
  let (stc, iv) ← onlyIf (group.saltLen = 0 ∨ salt.2 = group.saltLen.tdiv 8)
    (do
      let z ← decodeNeeded (some test.z) kdaZByteMax
      let stc := { stc with z := some z.1, zLen := z.2 }
      let iv ← decodeGiven test.iv kdaZByteMax
      let stc ← onlyIf (iv = none ∨ group.extra.ivLen = 0 ∨
          iv.map Prod.snd = some (group.extra.ivLen.tdiv 8))
        (stc.fillInfo test) stc
      pure (stc, iv)) (stc, none)
  pure { stc with
    kdfMode := group.extra.kdfMode
    macFunction := group.function
    counterLocation := group.extra.ctrLoc
    usesHybridSecret := group.hybridSecret
    iv := iv.map Prod.fst
    ivLen := (iv.map Prod.snd).getD 0
    counterLen := group.extra.ctrLen }

/-- {lit}`memcmp_s` on the keying material finds no difference.  Without a buffer there is
nothing to compare. -/
def KdaTc.sameDkm (stc : KdaTc) : Bool :=
  match stc.outputDkm, stc.providedDkm with
  | some output, some provided => output.read kdaDkmByteMax = provided.read kdaDkmByteMax
  | _, _ => false

/-- The three functions that write an answer. -/
def kdaOutputTc (stc : KdaTc) (tcRsp : JsonObject) : Except AmvpResult JsonObject :=
  match stc.type with
  | .val => pure (jsonObjectSetBoolean tcRsp "testPassed" stc.sameDkm.toInt)
  | .aft => do
    let dkm ← binToHexstr stc.outputDkm stc.l kdaDkmStrMax
    pure (jsonObjectSetText tcRsp "dkm" (some dkm))

/-! ## The handlers -/

/-- The loops of {lit}`amvp_kda_process`. -/
def kdaLoader {α β τ : Type} (cipher : Cipher)
    (readGroup : Option JsonObject → Option JsonObject → Except AmvpResult (KdaGroup α β))
    (needsSalt : Bool) (needsIv : β → Bool)
    (initTc : KdaVars → KdaGroup α β → KdaTest → Except AmvpResult τ) (common : τ → KdaTc) :
    KatLoader KdaVars (KdaGroup α β) τ where
  start := { cipher := cipher }
  enter vars groupobj _ := (readGroup vars.paramobj groupobj).map (·, vars)
  load vars group testobj := do
    let test ← readKdaTest needsSalt (needsIv group.extra) vars.ivStr group testobj
    let tc ← initTc vars group test
    pure ({ question := tc }, {
      cipher := .cipherStart
      paramobj := jsonObjectGetObject testobj "kdfParameter"
      ivStr := test.iv
      literals := vars.literals + test.literals.length })
  finish _ testobj tc := kdaOutputTc (common tc) (responseTestInt testobj)
  close group tests := responseGroup "tgId" group.tgId tests
  refused := .cryptoModuleFail

/-- The function that HKDF uses. -/
def readKdaHmacAlg (configobj : Option JsonObject) : Except AmvpResult HashAlg := do
  let algStr ← need (jsonObjectGetString configobj "hmacAlg") .malformedJson
  need (lookupHashAlg algStr) .malformedJson

/-- The function that OneStep uses. -/
def readKdaAuxFunction (configobj : Option JsonObject) : Except AmvpResult Cipher := do
  let algStr ← need (jsonObjectGetString configobj "auxFunction") .malformedJson
  need (lookupAuxFunctionAlgTbl algStr) .malformedJson

/-- The function that TwoStep uses. -/
def readKdaMacMode (configobj : Option JsonObject) : Except AmvpResult Kdf108MacMode := do
  let algStr ← need (jsonObjectGetString configobj "macMode") .tcInvalidData
  need (readMacMode algStr) .tcInvalidData

/-- A mode of TwoStep whose initialization vector has to be empty. -/
def requiresEmptyIv (params : Kdf108Cap) : Kdf108Mode → Bool
  | .counter => params.counterMode.requiresEmptyIv ≠ 0
  | .feedback => params.feedbackMode.requiresEmptyIv ≠ 0
  | .dpi => params.dpiMode.requiresEmptyIv ≠ 0
  | .other _ => true

/-- What only TwoStep reads of a group. -/
def readKdaTwostepExtra (params : Kdf108Cap) (configobj : Option JsonObject) :
    Except AmvpResult KdaTwostepExtra := do
  let kdfModeStr ← need (jsonObjectGetString configobj "kdfMode") .tcInvalidData
  let kdfMode ← need (readMode kdfModeStr) .tcInvalidData
  let ctrLocStr ← need (jsonObjectGetString configobj "counterLocation") .tcInvalidData
  let ctrLoc ← need (readCtrLocation ctrLocStr) .tcInvalidData
  let ctrLen := toInt (jsonObjectGetNumber configobj "counterLen")
  stopIf (ctrLen ≤ 0) .tcInvalidData
  let ivLen := toInt (jsonObjectGetNumber configobj "ivLen")
  stopIf (if requiresEmptyIv params kdfMode then ivLen > 0 else ivLen < 0) .tcInvalidData
  pure ⟨kdfMode, ctrLoc, ctrLen, ivLen⟩

/-- The loops of HKDF. -/
def kdaHkdfLoader (ctx : KatCtx) : KatLoader KdaVars (KdaGroup HashAlg Unit) KdaHkdfTc :=
  kdaLoader .kdaHkdf
    (readKdaGroup readKdaHmacAlg ((ctx.content .kdaHkdf .kdaHkdfCap).map KdaHkdfCap.l) 1
      fun _ => .ok ())
    true (fun _ => false) (fun vars => kdaHkdfInitTc vars.cipher) KdaHkdfTc.toKdaTc

/-- The loops of OneStep. -/
def kdaOnestepLoader (ctx : KatCtx) : KatLoader KdaVars (KdaGroup Cipher Unit) KdaOnestepTc :=
  kdaLoader .kdaOnestep
    (readKdaGroup readKdaAuxFunction ((ctx.content .kdaOnestep .kdaOnestepCap).map
      KdaOnestepCap.l) 0 fun _ => .ok ())
    false (fun _ => false) (fun vars => kdaOnestepInitTc vars.cipher) KdaOnestepTc.toKdaTc

/-- The loops of TwoStep.  The heap gives the address of the buffer of each literal. -/
def kdaTwostepLoader (ctx : KatCtx) (heap : Nat → Nat) :
    KatLoader KdaVars (KdaGroup Kdf108MacMode KdaTwostepExtra) KdaTwostepTc :=
  let cap := ctx.content .kdaTwostep .kdaTwostepCap
  kdaLoader .kdaTwostep
    (readKdaGroup readKdaMacMode (cap.map KdaTwostepCap.l) 0
      (readKdaTwostepExtra ((cap.map KdaTwostepCap.kdfParams).getD {})))
    true (fun extra => extra.ivLen > 0)
    (fun vars group test =>
      kdaTwostepInitTc vars.cipher group test (heap (vars.literals + test.literals.length - 1)))
    KdaTwostepTc.toKdaTc

/-- The head of the three handlers. -/
def kdaSetup (ctx : KatCtx) (cipher : Cipher) (obj : JsonObject) :
    Except AmvpResult (String × String) := do
  let algStr ← need (jsonObjectGetString (some obj) "algorithm") .malformedJson
  let modeStr ← need (jsonObjectGetString (some obj) "mode") .malformedJson
  stopIf (lookupCipherWModeIndex algStr (some modeStr) ≠ some cipher) .malformedJson
  let _ ← need (ctx.caps.locate cipher) .unsupportedOp
  pure (algStr, modeStr)

/-- {lit}`amvp_kda_hkdf_kat_handler`. -/
def kdaHkdfKatHandler (ctx : KatCtx) : KatHandler KdaHkdfTc :=
  katHandler (kdaSetup ctx .kdaHkdf) (fun _ => (kdaHkdfLoader ctx).worker) (responseWithMode ctx)

/-- {lit}`amvp_kda_onestep_kat_handler`. -/
def kdaOnestepKatHandler (ctx : KatCtx) : KatHandler KdaOnestepTc :=
  katHandler (kdaSetup ctx .kdaOnestep) (fun _ => (kdaOnestepLoader ctx).worker)
    (responseWithMode ctx)

/-- {lit}`amvp_kda_twostep_kat_handler`. -/
def kdaTwostepKatHandler (ctx : KatCtx) (heap : Nat → Nat) : KatHandler KdaTwostepTc :=
  katHandler (kdaSetup ctx .kdaTwostep) (fun _ => (kdaTwostepLoader ctx heap).worker)
    (responseWithMode ctx)

/-! ## Independence -/

section Loader

variable {α β τ : Type} {cipher : Cipher}
  {readGroup : Option JsonObject → Option JsonObject → Except AmvpResult (KdaGroup α β)}
  {needsSalt : Bool} {needsIv : β → Bool}
  {initTc initTc' : KdaVars → KdaGroup α β → KdaTest → Except AmvpResult τ}
  {common : τ → KdaTc}

/-- Entering a group of a KDA reads it. -/
theorem kda_enter_ok {vars vars' : KdaVars} {groupobj : Option JsonObject} {n : Nat}
    {group : KdaGroup α β}
    (h : (kdaLoader cipher readGroup needsSalt needsIv initTc common).enter vars groupobj n =
      .ok (group, vars')) : readGroup vars.paramobj groupobj = .ok group ∧ vars' = vars := by
  simp only [kdaLoader, map_eq_ok, Prod.mk.injEq] at h
  obtain ⟨group', hread, rfl, rfl⟩ := h
  exact ⟨hread, rfl⟩

/-- Loading a test of a KDA reads it and then decodes it. -/
theorem kda_load_ok {vars vars' : KdaVars} {group : KdaGroup α β} {testobj : Option JsonObject}
    {tc : τ} {sent : Bool}
    (h : (kdaLoader cipher readGroup needsSalt needsIv initTc common).load vars group testobj =
      .ok (⟨tc, sent⟩, vars')) :
    (∃ test, readKdaTest needsSalt (needsIv group.extra) vars.ivStr group testobj = .ok test ∧
      initTc vars group test = .ok tc) ∧ vars'.cipher = .cipherStart := by
  simp only [kdaLoader, bind_eq_ok, pure_eq_ok, Prod.mk.injEq, Draft.mk.injEq] at h
  obtain ⟨test, htest, tc', htc, ⟨rfl, -⟩, rfl⟩ := h
  exact ⟨⟨test, htest, htc⟩, rfl⟩

/-- The variables before a test: untouched for the first one, without a cipher afterwards. -/
theorem kda_vars {bs : List TestGroup} {groupobj : Option JsonObject} {n : Nat}
    {vars₀ vars₁ vars₂ : KdaVars} {group : KdaGroup α β} {ts : List (Option JsonObject)}
    (hbefore : (kdaLoader cipher readGroup needsSalt needsIv initTc common).carry
      { cipher := cipher } bs = .ok vars₀)
    (henter : (kdaLoader cipher readGroup needsSalt needsIv initTc common).enter vars₀ groupobj n =
      .ok (group, vars₁))
    (hitems : (kdaLoader cipher readGroup needsSalt needsIv initTc common).carryItems group vars₁ ts
      = .ok vars₂) :
    ((∀ b ∈ bs, b.items = []) ∧ ts = [] → vars₂ = { cipher := cipher }) ∧
      (¬((∀ b ∈ bs, b.items = []) ∧ ts = []) → vars₂.cipher = .cipherStart) := by
  exact Loader.before_item (fun h => (kda_enter_ok h).2) (fun h => (kda_load_ok h).2) hbefore
    henter hitems

/-- What a test alone gets. -/
theorem kda_alone_eq_some {groupobj t : Option JsonObject} {tc : τ} :
    (kdaLoader cipher readGroup needsSalt needsIv initTc common).alone groupobj t = some tc ↔
      ∃ group test, readGroup none groupobj = .ok group ∧
        readKdaTest needsSalt (needsIv group.extra) none group t = .ok test ∧
        initTc { cipher := cipher } group test = .ok tc := by
  rw [Loader.alone_eq_some]
  constructor
  · rintro ⟨group, vars, vars', henter, hload⟩
    have hgroup := kda_enter_ok henter
    rw [hgroup.2] at hload
    obtain ⟨⟨test, htest, htc⟩, -⟩ := kda_load_ok hload
    exact ⟨group, test, hgroup.1, htest, htc⟩
  · rintro ⟨group, test, hgroup, htest, htc⟩
    have hload : ∃ vars', (kdaLoader cipher readGroup needsSalt needsIv initTc common).load
        { cipher := cipher } group t = .ok (⟨tc, true⟩, vars') := by
      simp [kdaLoader, htest, htc, ok_bind]
    obtain ⟨vars', hload⟩ := hload
    refine ⟨group, { cipher := cipher }, vars', ?_, hload⟩
    simp only [kdaLoader, hgroup, map_eq_ok, Except.ok.injEq, exists_eq_left']

/-- The first test gets what it would get alone, up to what the functions that fill the
structures differ in; any other test gets a structure without a cipher. -/
theorem kda_aloneIff {setup : JsonObject → Except AmvpResult (String × String)}
    {response : String × String → List JsonObject → JsonObject}
    {condition : List TestGroup → Nat → Nat → Prop} (hcipher : cipher ≠ .cipherStart)
    (hinit : ∀ vars group test tc, initTc' vars group test = .ok tc →
      (common tc).cipher = vars.cipher)
    (hinit' : ∀ vars group test tc, initTc vars group test = .ok tc →
      (common tc).cipher = vars.cipher)
    (hcondition : ∀ bs bs' groupobj ts ts' t group test tc,
      readGroup none groupobj = .ok group →
      readKdaTest needsSalt (needsIv group.extra) none group t = .ok test →
      initTc { cipher := cipher } group test = .ok tc →
      (∀ b ∈ bs, b.items = []) → ts = [] →
      (initTc' { cipher := cipher } group test = .ok tc ↔
        condition (bs ++ ⟨groupobj, ts ++ t :: ts'⟩ :: bs') bs.length ts.length))
    (hfirst : ∀ groups i j, condition groups i j → IsFirstTest groups i j) :
    (katHandler setup
      (fun _ => (kdaLoader cipher readGroup needsSalt needsIv initTc common).worker)
        response).AloneIff
      (katHandler setup
        (fun _ => (kdaLoader cipher readGroup needsSalt needsIv initTc' common).worker) response)
      condition := by
  refine aloneIff_of_alone ?_
  intro _ bs bs' groupobj ts ts' t vars₀ vars₁ vars₂ vars₃ group tc hbefore henter hitems hload
  obtain ⟨hnone, hsome⟩ := kda_vars hbefore henter hitems
  obtain ⟨⟨test, htest, htc⟩, -⟩ := kda_load_ok hload
  by_cases hbs : (∀ b ∈ bs, b.items = []) ∧ ts = []
  · have hvars₂ := hnone hbs
    have hvars₀ : vars₀ = { cipher := cipher } := by
      have hcarry : (kdaLoader cipher readGroup needsSalt needsIv initTc common).carryItems group
          vars₁ [] = .ok vars₁ := rfl
      rw [← (kda_enter_ok henter).2]
      exact (kda_vars hbefore henter hcarry).1 ⟨hbs.1, rfl⟩
    rw [hvars₂] at htest htc
    have hgroup := (kda_enter_ok henter).1
    rw [hvars₀] at hgroup
    rw [← hcondition bs bs' groupobj ts ts' t group test tc hgroup htest htc hbs.1 hbs.2,
      kda_alone_eq_some]
    constructor
    · rintro ⟨group', test', hgroup', htest', htc'⟩
      rw [hgroup, Except.ok.injEq] at hgroup'
      subst hgroup'
      rw [htest, Except.ok.injEq] at htest'
      rwa [htest']
    · intro htc'
      exact ⟨group, test, hgroup, htest, htc'⟩
  · have hno : ¬condition (bs ++ ⟨groupobj, ts ++ t :: ts'⟩ :: bs') bs.length ts.length := by
      intro hcond
      exact hbs (isFirstTest_append.mp (hfirst _ _ _ hcond))
    rw [kda_alone_eq_some, iff_false_right hno]
    rintro ⟨group', test', -, -, htc'⟩
    have hcipher₂ := hinit' _ _ _ _ htc
    rw [hsome hbs, hinit _ _ _ _ htc'] at hcipher₂
    exact hcipher hcipher₂

end Loader

/-- Filling the fixed information in keeps the cipher. -/
theorem KdaTc.fillInfo_cipher {stc stc' : KdaTc} {test : KdaTest}
    (h : stc.fillInfo test = .ok stc') : stc'.cipher = stc.cipher := by
  simp only [KdaTc.fillInfo, bind_eq_ok, pure_eq_ok] at h
  obtain ⟨_, -, _, -, _, -, _, -, _, -, _, -, _, -, _, -, _, -, rfl⟩ := h
  rfl

/-- So does copying the literal. -/
theorem KdaTc.withLiteral_cipher (stc : KdaTc) (literals : List (List UInt8)) :
    (stc.withLiteral literals).cipher = stc.cipher := by
  unfold KdaTc.withLiteral
  split <;> rfl

/-- And misplacing it. -/
theorem KdaTc.withMisplacedLiteral_cipher (stc : KdaTc) (literals : List (List UInt8))
    (address : Nat) : (stc.withMisplacedLiteral literals address).cipher = stc.cipher := by
  unfold KdaTc.withMisplacedLiteral
  split <;> rfl

/-- A test case of HKDF has the cipher of its handler. -/
theorem kdaHkdfInitTc_cipher {cipher : Cipher} {group : KdaGroup HashAlg Unit} {test : KdaTest}
    {tc : KdaHkdfTc} (h : kdaHkdfInitTc cipher group test = .ok tc) : tc.cipher = cipher := by
  simp only [kdaHkdfInitTc, bind_eq_ok, pure_eq_ok] at h
  obtain ⟨salt, -, stc, hstc, rfl⟩ := h
  rcases onlyIf_cases hstc with ⟨-, hfill⟩ | ⟨-, rfl⟩
  · rw [bind_eq_ok] at hfill
    obtain ⟨z, -, hfill⟩ := hfill
    exact (KdaTc.fillInfo_cipher hfill).trans (KdaTc.withLiteral_cipher _ _)
  · exact KdaTc.withLiteral_cipher _ _

/-- So has one of the one-step KDA. -/
theorem kdaOnestepInitTc_cipher {cipher : Cipher} {group : KdaGroup Cipher Unit} {test : KdaTest}
    {tc : KdaOnestepTc} (h : kdaOnestepInitTc cipher group test = .ok tc) : tc.cipher = cipher := by
  simp only [kdaOnestepInitTc, bind_eq_ok, pure_eq_ok] at h
  obtain ⟨salt, -, stc, hstc, rfl⟩ := h
  rcases onlyIf_cases hstc with ⟨-, hfill⟩ | ⟨-, rfl⟩
  · rw [bind_eq_ok] at hfill
    obtain ⟨z, -, hfill⟩ := hfill
    exact (KdaTc.fillInfo_cipher hfill).trans (KdaTc.withLiteral_cipher _ _)
  · exact KdaTc.withLiteral_cipher _ _

/-- And one of the two-step KDA. -/
theorem kdaTwostepInitTc_cipher {cipher : Cipher} {address : Nat}
    {group : KdaGroup Kdf108MacMode KdaTwostepExtra} {test : KdaTest} {tc : KdaTwostepTc}
    (h : kdaTwostepInitTc cipher group test address = .ok tc) : tc.cipher = cipher := by
  simp only [kdaTwostepInitTc, bind_eq_ok, pure_eq_ok] at h
  obtain ⟨salt, -, ⟨stc, iv⟩, hstc, rfl⟩ := h
  rcases onlyIf_cases hstc with ⟨-, hrest⟩ | ⟨-, hrest⟩
  · simp only [bind_eq_ok, pure_eq_ok, Prod.mk.injEq] at hrest
    obtain ⟨z, -, iv', -, stc', hfill, rfl, -⟩ := hrest
    rcases onlyIf_cases hfill with ⟨-, hfill⟩ | ⟨-, rfl⟩
    · exact (KdaTc.fillInfo_cipher hfill).trans (KdaTc.withMisplacedLiteral_cipher _ _ _)
    · exact KdaTc.withMisplacedLiteral_cipher _ _ _
  · cases hrest
    exact KdaTc.withMisplacedLiteral_cipher _ _ _

/-- When a test of HKDF is answered as if it were alone. -/
theorem kdaHkdf_independentIff (ctx : KatCtx) :
    (kdaHkdfKatHandler ctx).IndependentIff IsFirstTest := by
  refine kda_aloneIff (by decide) (fun _ _ _ _ h => kdaHkdfInitTc_cipher h)
    (fun _ _ _ _ h => kdaHkdfInitTc_cipher h) ?_ (fun _ _ _ h => h)
  intro bs bs' groupobj ts ts' t group test tc _ _ htc hbs hts
  exact iff_of_true htc (isFirstTest_append.mpr ⟨hbs, hts⟩)

theorem kdaOnestep_independentIff (ctx : KatCtx) :
    (kdaOnestepKatHandler ctx).IndependentIff IsFirstTest := by
  refine kda_aloneIff (by decide) (fun _ _ _ _ h => kdaOnestepInitTc_cipher h)
    (fun _ _ _ _ h => kdaOnestepInitTc_cipher h) ?_ (fun _ _ _ h => h)
  intro bs bs' groupobj ts ts' t group test tc _ _ htc hbs hts
  exact iff_of_true htc (isFirstTest_append.mpr ⟨hbs, hts⟩)

/-! ### The address of a literal -/

theorem decodeNeeded_length {src : Option String} {size : Nat} {d : Buffer × Int}
    (h : decodeNeeded src size = .ok d) :
    ∃ str, src = some str ∧ d.2 = (((cBytes str).length / 2 : Nat) : Int) := by
  simp only [decodeNeeded, hexstrToBin, map_eq_ok, bind_eq_ok, need_eq_ok, pure_eq_ok] at h
  obtain ⟨data, ⟨str, hstr, -, -, -, -, rfl⟩, rfl⟩ := h
  exact ⟨str, hstr, by rw [hexPairs_length]⟩

theorem decodeGiven_none {size : Nat} {d : Option (Buffer × Int)}
    (h : decodeGiven none size = .ok d) : d = none := by
  rw [decodeGiven, onlyIf_neg (by simp)] at h
  exact (Except.ok.inj h).symm

theorem decodeGiven_some {str : String} {size : Nat} {d : Option (Buffer × Int)}
    (h : decodeGiven (some str) size = .ok d) :
    ∃ buffer, d = some (buffer, (((cBytes str).length / 2 : Nat) : Int)) := by
  rw [decodeGiven, onlyIf_pos (by simp)] at h
  have hneeded : decodeNeeded (some str) size = .ok (d.getD (⟨0, []⟩, 0)) ∧ d ≠ none := by
    simp only [map_eq_ok] at h
    obtain ⟨data, hdata, rfl⟩ := h
    exact ⟨by simp [decodeNeeded, hdata, Except.map], by simp⟩
  obtain ⟨str', hstr, hlength⟩ := decodeNeeded_length hneeded.1
  cases hstr
  cases d with
  | none => exact absurd rfl hneeded.2
  | some d => exact ⟨d.1, by rw [← hlength]; rfl⟩

/-- The lengths that a literal overwrites come through where nothing else is decoded. -/
theorem KdaTc.fillInfo_overwritten {stc stc' : KdaTc} {test : KdaTest}
    (h : stc.fillInfo test = .ok stc') (low high : Int) :
    KdaTc.fillInfo { stc with vEphemeralLen := low, algIdLen := high } test = .ok { stc' with
      vEphemeralLen := if test.vephemeral = none then low else stc'.vEphemeralLen
      algIdLen := if test.algid = none then high else stc'.algIdLen } := by
  simp only [KdaTc.fillInfo, bind_eq_ok, pure_eq_ok] at h ⊢
  obtain ⟨t, ht, uparty, huparty, uephemeral, huephemeral, vparty, hvparty, vephemeral,
    hvephemeral, algid, halgid, label, hlabel, context, hcontext, provided, hprovided, rfl⟩ := h
  refine ⟨t, ht, uparty, huparty, uephemeral, huephemeral, vparty, hvparty, vephemeral,
    hvephemeral, algid, halgid, label, hlabel, context, hcontext, provided, hprovided, ?_⟩
  have hlow : (vephemeral.map Prod.snd).getD low =
      if test.vephemeral = none then low
      else (vephemeral.map Prod.snd).getD stc.vEphemeralLen := by
    cases hgiven : test.vephemeral with
    | none =>
        rw [hgiven] at hvephemeral
        simp [decodeGiven_none hvephemeral]
    | some str =>
        rw [hgiven] at hvephemeral
        obtain ⟨buffer, rfl⟩ := decodeGiven_some hvephemeral
        simp
  have hhigh : (algid.map Prod.snd).getD high =
      if test.algid = none then high else (algid.map Prod.snd).getD stc.algIdLen := by
    cases hgiven : test.algid with
    | none =>
        rw [hgiven] at halgid
        simp [decodeGiven_none halgid]
    | some str =>
        rw [hgiven] at halgid
        obtain ⟨buffer, rfl⟩ := decodeGiven_some halgid
        simp
  rw [hlow, hhigh]

/-- The function that fills the structure of TwoStep returns before the parties. -/
def KdaTest.Stops (test : KdaTest) (group : KdaGroup Kdf108MacMode KdaTwostepExtra) : Prop :=
  ¬(group.saltLen = 0 ∨
      ∀ salt, test.salt = some salt → (((cBytes salt).length / 2 : Nat) : Int) =
        group.saltLen.tdiv 8) ∨
    ¬(group.extra.ivLen = 0 ∨
      ∀ iv, test.iv = some iv → (((cBytes iv).length / 2 : Nat) : Int) =
        group.extra.ivLen.tdiv 8)

/-- The lengths of a TwoStep test case that hold halves of an address. -/
noncomputable def KdaTwostepTc.overwritten (tc : KdaTwostepTc) (lowExposed highExposed : Prop)
    (address : Nat) : KdaTwostepTc :=
  open Classical in
  { tc with
    vEphemeralLen :=
      if lowExposed then intOfUnsigned (address % 2 ^ 32) else tc.vEphemeralLen
    algIdLen := if highExposed then intOfUnsigned (address / 2 ^ 32) else tc.algIdLen }

theorem KdaTwostepTc.overwritten_eq_iff {tc : KdaTwostepTc} {P Q : Prop} {address : Nat}
    (h : tc.overwritten P Q address = tc) {address' : Nat} :
    tc.overwritten P Q address' = tc ↔
      (P → intOfUnsigned (address % 2 ^ 32) = intOfUnsigned (address' % 2 ^ 32)) ∧
      (Q → intOfUnsigned (address / 2 ^ 32) = intOfUnsigned (address' / 2 ^ 32)) := by
  have hlow := congrArg (fun tc => tc.vEphemeralLen) h
  have hhigh := congrArg (fun tc => tc.algIdLen) h
  simp only [overwritten] at hlow hhigh
  constructor
  · intro h'
    have hlow' := congrArg (fun tc => tc.vEphemeralLen) h'
    have hhigh' := congrArg (fun tc => tc.algIdLen) h'
    simp only [overwritten] at hlow' hhigh'
    constructor
    · intro hP
      rw [if_pos hP] at hlow hlow'
      rw [hlow, hlow']
    · intro hQ
      rw [if_pos hQ] at hhigh hhigh'
      rw [hhigh, hhigh']
  · rintro ⟨hP, hQ⟩
    have hsame : tc.overwritten P Q address' = tc.overwritten P Q address := by
      unfold overwritten
      by_cases hp : P <;> by_cases hq : Q <;> simp only [hp, hq, if_true, if_false]
      · rw [hP hp, hQ hq]
      · rw [hP hp]
      · rw [hQ hq]
    rw [hsame, h]

/-- What another address of the literal changes of a TwoStep test case. -/
theorem kdaTwostepInitTc_address {cipher : Cipher} {address : Nat}
    {group : KdaGroup Kdf108MacMode KdaTwostepExtra} {test : KdaTest} {tc : KdaTwostepTc}
    (h : kdaTwostepInitTc cipher group test address = .ok tc) (hliterals : test.literals ≠ [])
    (address' : Nat) :
    kdaTwostepInitTc cipher group test address' = .ok (tc.overwritten
      (test.Stops group ∨ test.vephemeral = none) (test.Stops group ∨ test.algid = none)
      address') := by
  obtain ⟨literal, hlast⟩ : ∃ literal, test.literals.getLast? = some literal :=
    ⟨_, List.getLast?_eq_some_getLast hliterals⟩
  simp only [kdaTwostepInitTc, KdaTc.withMisplacedLiteral, hlast, bind_eq_ok, pure_eq_ok] at h ⊢
  obtain ⟨salt, hsalt, ⟨stc, iv⟩, hstc, rfl⟩ := h
  obtain ⟨saltStr, hsaltStr, hsaltLen⟩ := decodeNeeded_length hsalt
  have hsaltOk : (group.saltLen = 0 ∨ salt.2 = group.saltLen.tdiv 8) ↔ (group.saltLen = 0 ∨
      ∀ salt, test.salt = some salt → (((cBytes salt).length / 2 : Nat) : Int) =
        group.saltLen.tdiv 8) := by
    simp [hsaltStr, hsaltLen]
  rcases onlyIf_cases hstc with ⟨hok, hrest⟩ | ⟨hnot, hrest⟩
  · simp only [bind_eq_ok, pure_eq_ok, Prod.mk.injEq] at hrest
    obtain ⟨z, hz, iv', hiv, stc', hfill, rfl, rfl⟩ := hrest
    have hivOk : (iv' = none ∨ group.extra.ivLen = 0 ∨
        iv'.map Prod.snd = some (group.extra.ivLen.tdiv 8)) ↔ (group.extra.ivLen = 0 ∨
        ∀ iv, test.iv = some iv → (((cBytes iv).length / 2 : Nat) : Int) =
          group.extra.ivLen.tdiv 8) := by
      cases hgiven : test.iv with
      | none =>
          rw [hgiven] at hiv
          simp [decodeGiven_none hiv]
      | some str =>
          rw [hgiven] at hiv
          obtain ⟨buffer, rfl⟩ := decodeGiven_some hiv
          simp
    refine ⟨salt, hsalt, ?_⟩
    rcases onlyIf_cases hfill with ⟨hivok, hfill⟩ | ⟨hivnot, rfl⟩
    · have hgo : ¬test.Stops group := by
        unfold KdaTest.Stops
        rw [not_or, not_not, not_not]
        exact ⟨hsaltOk.mp hok, hivOk.mp hivok⟩
      refine ⟨?filled, (onlyIf_pos hok _ _).trans ?_, ?_⟩
      rotate_left
      · simp only [hz, ok_bind, hiv, onlyIf_pos hivok]
        rw [KdaTc.fillInfo_overwritten hfill (intOfUnsigned (address' % 2 ^ 32))
          (intOfUnsigned (address' / 2 ^ 32))]
        rfl
      · simp [KdaTwostepTc.overwritten, hgo]
    · have hstop : test.Stops group := .inr fun hok' => hivnot (hivOk.mpr hok')
      refine ⟨?stopped, (onlyIf_pos hok _ _).trans ?_, ?_⟩
      rotate_left
      · simp only [hz, ok_bind, hiv, onlyIf_neg hivnot]
        rfl
      · simp [KdaTwostepTc.overwritten, hstop]
  · cases hrest
    have hstop : test.Stops group := .inl fun hok' => hnot (hsaltOk.mpr hok')
    refine ⟨salt, hsalt, _, onlyIf_neg hnot _ _, ?_⟩
    simp [KdaTwostepTc.overwritten, hstop]

/-- TwoStep stops at the initialization vector: it has not the length that the group gives. -/
def twostepStopsAtIv (configobj paramobj : Option JsonObject) : Prop :=
  let ivLen := toInt (jsonObjectGetNumber configobj "ivLen")
  0 < ivLen ∧ ∀ iv, jsonObjectGetString paramobj "iv" = some iv →
    (((cBytes iv).length / 2 : Nat) : Int) ≠ ivLen.tdiv 8

/-- The pattern of a group. -/
def patternOf (groupobj : Option JsonObject) :
    Option (List KdaPatternCandidate × List (List UInt8)) :=
  (jsonObjectGetString (jsonObjectGetObject groupobj "kdfConfiguration") "fixedInfoPattern").bind
    readInfoPattern

/-- The test case holds the lower half of the address of a literal. -/
def exposesLow (groupobj testobj : Option JsonObject) : Prop :=
  twostepStopsAtIv (jsonObjectGetObject groupobj "kdfConfiguration")
      (jsonObjectGetObject testobj "kdfParameter") ∨
    jsonObjectGetString (jsonObjectGetObject testobj "fixedInfoPartyV") "ephemeralData" = none

/-- The test case holds the upper half of the address of a literal. -/
def exposesHigh (groupobj testobj : Option JsonObject) : Prop :=
  twostepStopsAtIv (jsonObjectGetObject groupobj "kdfConfiguration")
      (jsonObjectGetObject testobj "kdfParameter") ∨
    ∀ pattern, patternOf groupobj = some pattern → .algorithmId ∉ pattern.1

/-- Two heaps give the same halves of the address of the last literal, as far as the test
case holds them. -/
def SameLiteralAddress (heap heap' : Nat → Nat) (groupobj testobj : Option JsonObject) : Prop :=
  ∀ pattern, patternOf groupobj = some pattern → pattern.2 ≠ [] →
    let last := pattern.2.length - 1
    (exposesLow groupobj testobj →
      intOfUnsigned (heap last % 2 ^ 32) = intOfUnsigned (heap' last % 2 ^ 32)) ∧
    (exposesHigh groupobj testobj →
      intOfUnsigned (heap last / 2 ^ 32) = intOfUnsigned (heap' last / 2 ^ 32))

/-- What the groups of TwoStep hold of their configuration. -/
theorem readKdaGroup_ok {α β : Type} {readFunction : Option JsonObject → Except AmvpResult α}
    {capL : Option Int} {leastL : Int} {readExtra : Option JsonObject → Except AmvpResult β}
    {paramobj groupobj : Option JsonObject} {group : KdaGroup α β}
    (h : readKdaGroup readFunction capL leastL readExtra paramobj groupobj = .ok group) :
    jsonObjectGetString (jsonObjectGetObject groupobj "kdfConfiguration") "fixedInfoPattern" =
        some group.patternStr ∧
      readExtra (jsonObjectGetObject groupobj "kdfConfiguration") = .ok group.extra ∧
      group.saltLen.tmod 8 = 0 ∧ 0 ≤ group.saltLen := by
  simp only [readKdaGroup, bind_eq_ok, need_eq_ok, stopIf_eq_ok, exists_const, pure_eq_ok] at h
  obtain ⟨tgId, -, testTypeStr, -, testType, -, configobj, hconfig, function, -, patternStr,
    hpattern, encoding, -, saltMethod, -, hsalt, l, -, -, extra, hextra, rfl⟩ := h
  rw [hconfig]
  push Not at hsalt
  exact ⟨hpattern, hextra, hsalt.1, hsalt.2.1⟩

/-- What a test of TwoStep holds of its JSON object. -/
theorem readKdaTest_ok {α β : Type} {needsIv : Bool} {ivStr : Option String}
    {group : KdaGroup α β} {testobj : Option JsonObject} {test : KdaTest}
    (h : readKdaTest true needsIv ivStr group testobj = .ok test) :
    readInfoPattern group.patternStr = some (test.pattern, test.literals) ∧
      (∃ salt, test.salt = some salt ∧
        (strnlenS salt (kdaSaltStrMax + 1) : Int) = group.saltLen.tdiv 4) ∧
      (needsIv = false → test.iv = ivStr) ∧
      (needsIv = true → test.iv =
        jsonObjectGetString (jsonObjectGetObject testobj "kdfParameter") "iv" ∧ test.iv ≠ none) ∧
      test.vephemeral =
        jsonObjectGetString (jsonObjectGetObject testobj "fixedInfoPartyV") "ephemeralData" ∧
      (test.algid = none ↔ .algorithmId ∉ test.pattern) := by
  simp only [readKdaTest, bind_eq_ok, need_eq_ok, stopIf_eq_ok, exists_const, pure_eq_ok] at h
  obtain ⟨⟨pattern, literals⟩, hpattern, hsalt, hsaltLen, z, -, -, iv, hiv, uparty, -, vparty,
    hvparty, context, -, algid, halgid, label, -, t, -, t', -, dkm, -, -, rfl⟩ := h
  refine ⟨hpattern, ?_, ?_, ?_, ?_, ?_⟩
  · cases hgiven : jsonObjectGetString (jsonObjectGetObject testobj "kdfParameter") "salt" with
    | none => exact absurd ⟨trivial, hgiven⟩ hsalt
    | some salt => exact ⟨salt, rfl, by simpa [hgiven] using hsaltLen⟩
  · rintro rfl
    rw [onlyIf_neg (by simp)] at hiv
    exact (Except.ok.inj hiv).symm
  · rintro rfl
    rw [onlyIf_pos rfl] at hiv
    simp only [readKdaString, bind_eq_ok, need_eq_ok, pure_eq_ok] at hiv
    obtain ⟨str, hstr, rfl⟩ := hiv
    exact ⟨hstr.symm, by simp⟩
  · have hmem : .vPartyInfo ∈ pattern := by
      simp only [readInfoPattern, Option.bind_eq_bind] at hpattern
      split_ifs at hpattern
      rw [Option.bind_eq_some_iff] at hpattern
      obtain ⟨read, -, hread⟩ := hpattern
      split_ifs at hread with hparties
      cases hread
      exact hparties.2
    rw [onlyIf_pos hmem] at hvparty
    simp only [readKdaParty, bind_eq_ok, need_eq_ok, pure_eq_ok] at hvparty
    obtain ⟨partyobj, hparty, partyId, -, rfl⟩ := hvparty
    rw [hparty]
  · rcases onlyIf_cases halgid with ⟨hmem, hstr⟩ | ⟨hmem, rfl⟩
    · simp only [readKdaString, bind_eq_ok, need_eq_ok, pure_eq_ok] at hstr
      obtain ⟨str, -, rfl⟩ := hstr
      simp [hmem]
    · simp [hmem]

/-- The length of the vector is read as its member says. -/
theorem readKdaTwostepExtra_ok {params : Kdf108Cap} {configobj : Option JsonObject}
    {extra : KdaTwostepExtra} (h : readKdaTwostepExtra params configobj = .ok extra) :
    extra.ivLen = toInt (jsonObjectGetNumber configobj "ivLen") := by
  simp only [readKdaTwostepExtra, bind_eq_ok, need_eq_ok, pure_eq_ok] at h
  obtain ⟨_, -, _, -, _, -, _, -, -, -, -, -, rfl⟩ := h
  rfl

/-- A salt of the length that was checked decodes to the length that the group gives. -/
theorem salt_length {salt : String} {saltLen : Int}
    (hlength : (strnlenS salt (kdaSaltStrMax + 1) : Int) = saltLen.tdiv 4)
    (hmod : saltLen.tmod 8 = 0) (hpos : 0 ≤ saltLen) :
    (((cBytes salt).length / 2 : Nat) : Int) = saltLen.tdiv 8 := by
  unfold strnlenS kdaSaltStrMax at hlength
  rw [Int.tdiv_eq_ediv_of_nonneg hpos] at hlength ⊢
  rw [Int.tmod_eq_emod_of_nonneg hpos] at hmod
  omega

/-- The test is the first one, and no address of a literal shows that differs. -/
def KdaTwostepOwn (heap heap' : Nat → Nat) (groups : List TestGroup) (i j : Nat) : Prop :=
  IsFirstTest groups i j ∧ SameLiteralAddress heap heap' (groupAt groups i) (testAt groups i j)

/-- When a test of the two-step KDA is answered as if it were alone in another heap. -/
theorem kdaTwostep_aloneIff (ctx : KatCtx) (heap heap' : Nat → Nat) :
    (kdaTwostepKatHandler ctx heap).AloneIff (kdaTwostepKatHandler ctx heap')
      (KdaTwostepOwn heap heap') := by
  unfold kdaTwostepKatHandler kdaTwostepLoader
  refine kda_aloneIff (by decide) (fun _ _ _ _ h => kdaTwostepInitTc_cipher h)
    (fun _ _ _ _ h => kdaTwostepInitTc_cipher h) ?_ (fun _ _ _ h => h.1)
  intro bs bs' groupobj ts ts' t group test tc hgroup htest htc hbs hts
  obtain ⟨hpatternStr, hextra, hmod, hpos⟩ := readKdaGroup_ok hgroup
  obtain ⟨hpattern, ⟨salt, hsalt, hsaltLen⟩, hnoIv, hiv, hvephemeral, halgid⟩ :=
    readKdaTest_ok htest
  have hivLen := readKdaTwostepExtra_ok hextra
  have hpatternOf : patternOf groupobj = some (test.pattern, test.literals) := by
    simp [patternOf, hpatternStr, hpattern]
  have hstops : test.Stops group ↔ twostepStopsAtIv
      (jsonObjectGetObject groupobj "kdfConfiguration")
      (jsonObjectGetObject t "kdfParameter") := by
    have hsaltOk := salt_length hsaltLen hmod hpos
    simp only [KdaTest.Stops, twostepStopsAtIv, ← hivLen, hsalt, Option.some.injEq,
      forall_eq', hsaltOk, or_true, not_true_eq_false, false_or]
    by_cases hneeds : 0 < group.extra.ivLen
    · obtain ⟨hstr, hne⟩ := hiv (by simp [hneeds])
      obtain ⟨iv, hivStr⟩ := Option.ne_none_iff_exists'.mp hne
      rw [← hstr, hivStr]
      simp [hneeds, hneeds.ne']
    · simp [hnoIv (by simpa using hneeds), hneeds]
  have hcondition : KdaTwostepOwn heap heap' (bs ++ ⟨groupobj, ts ++ t :: ts'⟩ :: bs') bs.length
      ts.length ↔ SameLiteralAddress heap heap' groupobj t := by
    unfold KdaTwostepOwn
    rw [groupAt_append, testAt_append]
    exact and_iff_right (isFirstTest_append.mpr ⟨hbs, hts⟩)
  rw [hcondition]
  simp only [SameLiteralAddress, hpatternOf, Option.some.injEq, forall_eq', exposesLow,
    exposesHigh, ← hstops, ← hvephemeral, ← halgid, Nat.zero_add] at htc ⊢
  by_cases hliterals : test.literals = []
  · have hsame : ∀ address address', kdaTwostepInitTc .kdaTwostep group test address =
        kdaTwostepInitTc .kdaTwostep group test address' := by
      intro address address'
      simp only [kdaTwostepInitTc, KdaTc.withMisplacedLiteral, hliterals, List.getLast?_nil]
    exact iff_of_true ((hsame _ _).trans htc) fun hne => absurd hliterals hne
  · have hself := kdaTwostepInitTc_address htc hliterals (heap (test.literals.length - 1))
    rw [htc, Except.ok.injEq] at hself
    rw [kdaTwostepInitTc_address htc hliterals, Except.ok.injEq,
      KdaTwostepTc.overwritten_eq_iff hself.symm]
    simp [hliterals]

end LibAmvp
