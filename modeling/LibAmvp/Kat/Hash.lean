import LibAmvp.Capabilities.Digests
import LibAmvp.Kat.SymCipher

/-!
# Hash functions

The handler of the hash functions.  A Monte Carlo test runs one of three loops, for SHA-1 and
SHA-2, for SHA-3, and for the extendable-output functions, whose loop computes the length of
every digest from the one before.
-/

namespace LibAmvp

open Guard

/-! ## Limits -/

def hashMsgStrMax : Nat := 16384
def hashMsgByteMax : Nat := 8192
def hashMdStrMax : Nat := 128
def hashMdByteMax : Nat := 64
def shakeMsgStrMax : Nat := 32768
def shakeMsgByteMax : Nat := 16384
def hashXofMdStrMax : Nat := 16384
def hashXofMdByteMax : Nat := 8192
def hashMctInner : Nat := 1000
def hashMctOuter : Nat := 100

/-! ## Test cases -/

/-- {lit}`AMVP_HASH_TESTTYPE`. -/
inductive HashTestType where
  | aft | mct | vot
deriving DecidableEq

/-- {lit}`AMVP_HASH_TC`.  The buffers that the handler does not allocate hold zeros. -/
structure HashTc where
  cipher : Cipher
  tcId : Nat
  testType : HashTestType
  msg : Memory
  m1 : Memory := .zero
  m2 : Memory := .zero
  m3 : Memory := .zero
  msgLen : Nat
  xofLen : Nat := 0
  xofBitLen : Nat := 0
  md : Memory := .zero
  mdLen : Nat := 0

/-- What ends the work on a vector set early: an error, or something without a defined
outcome. -/
inductive HashStop where
  | result (rv : AmvpResult)
  | divisionByZero
  /-- A read outside the buffer of the digest. -/
  | outOfBounds
deriving DecidableEq

/-- Put a computation without questions into the work of the handler. -/
def hashExcept {α : Type} (x : Except AmvpResult α) : Dialog HashTc HashStop α :=
  Dialog.ofExcept (x.mapError .result)

/-- {lit}`amvp_hash_init_tc`. -/
def hashInitTc (tcId : Nat) (testType : HashTestType) (msgLen : Nat) (msg : String)
    (xofLen : Nat) (algId : Cipher) : Except AmvpResult HashTc := do
  let data ← hexstrToBin (some msg) (if algId.isShake then shakeMsgByteMax else hashMsgByteMax)
  pure {
    cipher := algId
    tcId := tcId
    testType := testType
    msg := .ofBytes data
    msgLen := (msgLen + 7) / 8
    xofLen := (xofLen + 7) / 8
    xofBitLen := xofLen }

/-! ## The Monte Carlo loops -/

/-- {lit}`amvp_hash_output_mct_tc`. -/
def hashOutputMctTc (stc : HashTc) : Except AmvpResult JsonObject :=
  setMemory [] "md" stc.md stc.mdLen (if stc.cipher.isShake then hashXofMdStrMax else hashMdStrMax)

/-- {lit}`amvp_hash_mct_iterate_tc`. -/
def hashMctIterateTc (stc : HashTc) : HashTc :=
  { stc with
    m1 := stc.m1.copy 0 hashMdByteMax stc.m2 0 stc.mdLen
    m2 := stc.m2.copy 0 hashMdByteMax stc.m3 0 stc.mdLen
    m3 := stc.m3.copy 0 hashMdByteMax stc.md 0 stc.mdLen }

/-- The inner loop of {lit}`amvp_hash_mct_tc`, with the number of calls that are left. -/
def hashMctCalls : Nat → HashTc → Dialog HashTc HashStop HashTc
  | 0, stc => pure stc
  | n + 1, stc => do
    let (code, stc) ← Dialog.ask stc
    if code ≠ 0 then Dialog.fail (.result .cryptoModuleFail)
    else hashMctCalls n (hashMctIterateTc stc)

/-- The outer loop of {lit}`amvp_hash_mct_tc`, with the number of rounds that are left. -/
def hashMctRounds : Nat → HashTc → Dialog HashTc HashStop (List JsonObject)
  | 0, _ => pure []
  | n + 1, stc => do
    let stc ← hashMctCalls hashMctInner stc
    let rTobj ← hashExcept (hashOutputMctTc stc)
    let rTobjs ← hashMctRounds n { stc with
      m1 := stc.m1.copy 0 hashMdByteMax stc.m3 0 stc.msgLen
      m2 := stc.m2.copy 0 hashMdByteMax stc.m3 0 stc.msgLen }
    pure (rTobj :: rTobjs)

/-- {lit}`amvp_hash_mct_tc`. -/
def hashMctTc (stc : HashTc) : Dialog HashTc HashStop (List JsonObject) :=
  hashMctRounds hashMctOuter { stc with
    m1 := stc.m1.copy 0 hashMdByteMax stc.msg 0 stc.msgLen
    m2 := stc.m2.copy 0 hashMdByteMax stc.msg 0 stc.msgLen
    m3 := stc.m3.copy 0 hashMdByteMax stc.msg 0 stc.msgLen }

/-- The last digest becomes the message. -/
def hashSha3Feed (stc : HashTc) : HashTc :=
  { stc with
    msg := (stc.msg.clear hashMsgByteMax).copy 0 hashMsgByteMax stc.md 0 stc.mdLen
    msgLen := stc.mdLen }

/-- The inner loop of {lit}`amvp_hash_sha3_mct` from an index on, with the number of
iterations that are left.  The last one has no digest. -/
def hashSha3Calls : Nat → Nat → HashTc → Dialog HashTc HashStop HashTc
  | 0, _, stc => pure stc
  | n + 1, i, stc =>
    let stc := if i ≠ 0 then hashSha3Feed stc else stc
    if i = hashMctInner then pure stc
    else do
      let (code, stc) ← Dialog.ask { stc with md := stc.md.clear hashMdByteMax }
      if code ≠ 0 then Dialog.fail (.result .cryptoModuleFail)
      else hashSha3Calls n (i + 1) stc

/-- The outer loop of {lit}`amvp_hash_sha3_mct`, with the number of rounds that are left. -/
def hashSha3Rounds : Nat → HashTc → Dialog HashTc HashStop (List JsonObject)
  | 0, _ => pure []
  | n + 1, stc => do
    let stc ← hashSha3Calls (hashMctInner + 1) 0 stc
    let rTobj ← hashExcept (hashOutputMctTc stc)
    let rTobjs ← hashSha3Rounds n stc
    pure (rTobj :: rTobjs)

/-- {lit}`amvp_hash_sha3_mct`. -/
def hashSha3Mct (stc : HashTc) : Dialog HashTc HashStop (List JsonObject) :=
  hashSha3Rounds hashMctOuter stc

/-- The number of bytes of a digest that become the next message. -/
def leftmostBytes : Nat := 16

/-- The front of the last digest becomes the message. -/
def hashShakeFeed (stc : HashTc) : HashTc :=
  { stc with
    msg := (stc.msg.clear shakeMsgByteMax).copy 0 shakeMsgByteMax stc.md 0
      (if stc.mdLen ≤ leftmostBytes then stc.mdLen else leftmostBytes) }

/-- A number of 16 bits, as a host with the low byte first reads it. -/
def load16 (m : Memory) (at_ : Nat) : Nat := (m at_).toNat + 256 * (m (at_ + 1)).toNat

/-- {lit}`SWAP_16`, stored in 16 bits. -/
def swap16 (x : Nat) : Nat := (x >>> 8 ||| x <<< 8) % 2 ^ 16

/-- The last 16 bits of the digest. -/
def rightmostOutBits (stc : HashTc) : Except HashStop Nat :=
  if stc.mdLen < 2 ∨ hashXofMdByteMax < stc.mdLen then .error .outOfBounds
  else .ok (swap16 (load16 stc.md (stc.mdLen - 2)))

/-- The inner loop of {lit}`amvp_hash_shake_mct` from an index on, with the number of
iterations that are left.  The last one has no digest. -/
def hashShakeCalls (minXofBytes range : Nat) : Nat → Nat → HashTc → Dialog HashTc HashStop HashTc
  | 0, _, stc => pure stc
  | n + 1, i, stc =>
    let stc := if i ≠ 0 then hashShakeFeed stc else stc
    if i = hashMctInner then pure stc
    else do
      let (code, stc) ← Dialog.ask { stc with
        msgLen := leftmostBytes
        md := stc.md.clear hashXofMdByteMax }
      if code ≠ 0 then Dialog.fail (.result .cryptoModuleFail)
      else do
        let rightmost ← Dialog.ofExcept (rightmostOutBits stc)
        if range = 0 then Dialog.fail .divisionByZero
        else
          hashShakeCalls minXofBytes range n (i + 1)
            { stc with xofLen := (minXofBytes + rightmost % range) % 2 ^ 32 }

/-- The outer loop of {lit}`amvp_hash_shake_mct`, with the number of rounds that are left. -/
def hashShakeRounds (minXofBytes range : Nat) :
    Nat → HashTc → Dialog HashTc HashStop (List JsonObject)
  | 0, _ => pure []
  | n + 1, stc => do
    let stc ← hashShakeCalls minXofBytes range (hashMctInner + 1) 0 stc
    let rTobj ← hashExcept (hashOutputMctTc stc)
    let rTobjs ← hashShakeRounds minXofBytes range n stc
    pure (rTobj :: rTobjs)

/-- {lit}`amvp_hash_shake_mct`.  The range is a difference of unsigned numbers. -/
def hashShakeMct (stc : HashTc) (minXofBits maxXofBits : Nat) :
    Dialog HashTc HashStop (List JsonObject) :=
  let minXofBytes := minXofBits / 8
  let maxXofBytes := maxXofBits / 8
  let range := (maxXofBytes + (2 ^ 32 - minXofBytes) + 1) % 2 ^ 32
  hashShakeRounds minXofBytes range hashMctOuter
    { stc with xofLen := (maxXofBits / 8 * 8 + 7) / 8 }

/-! ## Groups and tests -/

/-- What the handler of the hash functions reads of a group. -/
structure HashGroup where
  tgId : Int
  testType : HashTestType
  minXofLen : Nat
  maxXofLen : Nat

/-- {lit}`read_test_type` of the hash functions. -/
def readHashTestType : String → Option HashTestType
  | "MCT" => some .mct
  | "AFT" => some .aft
  | "VOT" => some .vot
  | _ => none

/-- The lengths of the digests of a Monte Carlo test: one bound is checked of each. -/
def readXofLens (groupobj : Option JsonObject) : Except AmvpResult (Nat × Nat) := do
  let minXofLen := toUnsigned (jsonObjectGetNumber groupobj "minOutLen")
  stopIf (minXofLen < hashXofMdBitMin) .invalidArg
  let maxXofLen := toUnsigned (jsonObjectGetNumber groupobj "maxOutLen")
  stopIf (maxXofLen > hashXofMdBitMax) .invalidArg
  pure (minXofLen, maxXofLen)

/-- The part of {lit}`amvp_hash_kat_handler` that reads a group. -/
def readHashGroup (algId : Cipher) (groupobj : Option JsonObject) :
    Except AmvpResult HashGroup := do
  let tgId ← readTgId groupobj .malformedJson
  let testTypeStr ← need (jsonObjectGetString groupobj "testType") .missingArg
  let testType ← need (readHashTestType testTypeStr) .invalidArg
  stopIf (testType = .vot ∧ ¬algId.isShake) .invalidArg
  let (minXofLen, maxXofLen) ← onlyIf (testType = .mct ∧ algId.isShake) (readXofLens groupobj) (0, 0)
  pure ⟨tgId, testType, minXofLen, maxXofLen⟩

/-- The length of the digest of a test that asks for one. -/
def readOutLen (testobj : Option JsonObject) : Except AmvpResult Nat := do
  let xofLen := toUnsigned (jsonObjectGetNumber testobj "outLen")
  stopIf (¬(hashXofMdBitMin ≤ xofLen ∧ xofLen ≤ hashXofMdBitMax)) .invalidArg
  pure xofLen

/-- The part of {lit}`amvp_hash_kat_handler` that reads a test. -/
def readHashTest (algId : Cipher) (testType : HashTestType) (testobj : Option JsonObject) :
    Except AmvpResult HashTc := do
  let msg ← need (jsonObjectGetString testobj "msg") .missingArg
  let maxLen := if algId.isShake then shakeMsgStrMax else hashMsgStrMax
  let tmpMsgLen := strnlenS msg (maxLen + 1)
  stopIf (tmpMsgLen > maxLen) .invalidArg
  let xofLen ← onlyIf (testType = .vot) (readOutLen testobj) 0
  hashInitTc (readTcId testobj) testType (tmpMsgLen * 4) msg xofLen algId

/-! ## The handler -/

/-- {lit}`amvp_hash_output_tc`. -/
def hashOutputTc (stc : HashTc) (tcRsp : JsonObject) : Except AmvpResult JsonObject :=
  setMemory tcRsp "md" stc.md stc.mdLen
    (if stc.testType = .vot then hashXofMdStrMax else hashMdStrMax)

/-- The ciphers of {lit}`amvp_hash_sha3_mct`. -/
def isSha3Mct : Cipher → Bool
  | .hashSha3_224 | .hashSha3_256 | .hashSha3_384 | .hashSha3_512 => true
  | _ => false

/-- The Monte Carlo loop of an algorithm. -/
def hashMct (algId : Cipher) (group : HashGroup) (stc : HashTc) :
    Dialog HashTc HashStop (List JsonObject) :=
  if isSha3Mct algId then hashSha3Mct stc
  else if algId.isShake then hashShakeMct stc group.minXofLen group.maxXofLen
  else hashMctTc stc

/-- The part of {lit}`amvp_hash_kat_handler` that processes a test. -/
def hashPlay (algId : Cipher) (group : HashGroup) (testobj : Option JsonObject) (stc : HashTc) :
    Dialog HashTc HashStop JsonObject :=
  if stc.testType = .mct then do
    let results ← hashMct algId group stc
    pure (jsonObjectSetValue (responseTest testobj) "resultsArray" (.arr (results.map .obj)))
  else do
    let (code, stc) ← Dialog.ask stc
    if code ≠ 0 then Dialog.fail (.result .cryptoModuleFail)
    else hashExcept (hashOutputTc stc (responseTest testobj))

/-- The loops of {lit}`amvp_hash_kat_handler`. -/
def hashWorker (algId : Cipher) :
    Worker Unit (Option JsonObject) (Option JsonObject) HashGroup HashTc HashStop JsonObject
      JsonObject where
  start := ()
  enter _ groupobj _ := ((readHashGroup algId groupobj).mapError .result).map (·, ())
  work _ group testobj := do
    let stc ← hashExcept (readHashTest algId group.testType testobj)
    let rTobj ← hashPlay algId group testobj stc
    pure (rTobj, ())
  close group tests := responseGroup "tgId" group.tgId tests

/-- {lit}`amvp_hash_kat_handler`: the response or what has ended the work, and the calls of the
module. -/
def hashKatHandler (ctx : KatCtx) (obj : JsonObject) (module : Partner HashTc) :
    Except HashStop JsonObject × List (Place × HashTc) :=
  match setupByAlgorithm ctx (withoutMember obj "testGroups") with
  | .error rv => (.error (.result rv), [])
  | .ok (algStr, algId) =>
    (((hashWorker algId).result module (testGroups obj)).map (responseObject ctx.vsId algStr),
      (hashWorker algId).asked module (testGroups obj))

end LibAmvp
