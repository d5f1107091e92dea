import LibAmvp.Kat.SymCipher

/-!
# Triple-DES

The handler of the triple-DES ciphers.  The counters and the keying option of a group stay in
variables of the handler until another group sets them.  The Monte Carlo loops keep the first
initialization vector of a round and all texts in static tables, which also outlive a vector
set.
-/

namespace LibAmvp

open Guard

/-! ## The tables of the Monte Carlo loops -/

def desMctInner : Nat := 10000
def desMctOuter : Nat := 400
def tdesKeyBitLen : Nat := 192

/-- The static tables of {lit}`amvp_des.c`, whose rows have 8 bytes, and the array {lit}`nk`,
which holds what lies on the stack. -/
structure DesTables where
  oldIv : Memory := .zero
  ptext : Memory := .zero
  ctext : Memory := .zero
  nk : Memory := .zero

/-- {lit}`shiftin`. -/
def shiftin (dst src : Memory) (nbits : Nat) : Memory :=
  let moveBytes := 3 * 8 - nbits / 8
  let moved : Memory := fun n => if n < moveBytes then dst (n + nbits / 8) else dst n
  let appended := moved.copy moveBytes 32 src 0 ((nbits + 7) / 8)
  if nbits % 8 ≠ 0 then fun n =>
    if n < 3 * 8 then
      appended n <<< UInt8.ofNat (nbits % 8) ||| appended (n + 1) >>> UInt8.ofNat (8 - nbits % 8)
    else appended n
  else appended

/-- The first bytes of a buffer, combined with those of another. -/
def xorBytes (dest src : Memory) (n : Nat) : Memory := fun k =>
  if k < n then dest k ^^^ src k else dest k

/-- {lit}`amvp_des_mct_iterate_tc`. -/
def desMctIterateTc (stc : SymCipherTc) (tables : DesTables) :
    Except AmvpResult (SymCipherTc × DesTables) := do
  let j := stc.mctIndex
  let tables := { tables with
    ctext := tables.ctext.copy (8 * j) 8 stc.ct 0 stc.ctLen
    ptext := tables.ptext.copy (8 * j) 8 stc.pt 0 stc.ptLen }
  stopIf (¬hasSubAlg stc.cipher) .invalidArg
  -- The text that comes before the last one, or the first initialization vector.
  let before (text : Memory) (dest : Memory) (destMax : Nat) : Memory :=
    if j = 0 then dest.copy 0 destMax tables.oldIv 0 8 else dest.copy 0 8 text (8 * (j - 1)) 8
  let returned (dest : Memory) (destMax : Nat) : Memory :=
    if j = 0 then dest.copy 0 destMax tables.oldIv 0 8 else dest.copy 0 8 stc.ivRet 0 8
  match stc.cipher, stc.direction with
  | .tdesCbc, .encrypt | .tdesCfb64, .encrypt =>
    pure ({ stc with
      pt := before tables.ctext stc.pt symPtByteMax
      iv := stc.iv.copy 0 8 tables.ctext (8 * j) 8 }, tables)
  | .tdesCbc, _ =>
    pure ({ stc with
      ct := stc.ct.copy 0 8 tables.ptext (8 * j) 8
      iv := if j = 0 then stc.iv else stc.iv.copy 0 8 tables.ptext (8 * (j - 1)) 8 }, tables)
  | .tdesOfb, .encrypt | .tdesCfb1, .encrypt | .tdesCfb8, .encrypt =>
    pure ({ stc with pt := returned stc.pt symPtByteMax }, tables)
  | .tdesOfb, _ => pure ({ stc with ct := returned stc.ct symCtByteMax }, tables)
  | .tdesCfb64, _ | .tdesCfb1, _ | .tdesCfb8, _ =>
    let ct := xorBytes stc.ct stc.pt 8
    pure ({ stc with ct := ct, iv := stc.iv.copy 0 8 (xorBytes stc.pt ct 8) 0 8 }, tables)
  | .tdesEcb, .encrypt =>
    pure ({ stc with pt := stc.pt.copy 0 symPtByteMax stc.ct 0 stc.ctLen }, tables)
  | .tdesEcb, _ => pure ({ stc with ct := stc.ct.copy 0 symCtByteMax stc.pt 0 stc.ptLen }, tables)
  | _, _ => pure (stc, tables)

/-- Only the first bit of a text with one bit counts. -/
def maskFirst (text : Memory) : Memory := Function.update text 0 (text 0 &&& 0x80)

/-- The three keys of a test case. -/
def setDesKeys (rTobj : JsonObject) (key : Memory) : Except AmvpResult JsonObject := do
  let k1 ← memoryToHexstr key 8 16
  let k2 ← memoryToHexstr (fun n => key (8 + n)) 8 16
  let k3 ← memoryToHexstr (fun n => key (16 + n)) 8 16
  pure (jsonObjectSetText (jsonObjectSetText (jsonObjectSetText rTobj "key1" (some k1)) "key2"
    (some k2)) "key3" (some k3))

/-- {lit}`amvp_des_output_mct_tc`: the values at the start of a round. -/
def desOutputMctTc (stc : SymCipherTc) : Except AmvpResult (JsonObject × SymCipherTc) := do
  let rTobj ← setDesKeys [] stc.key
  let rTobj ← onlyIf (stc.cipher ≠ .tdesEcb) (setMemory rTobj "iv" stc.iv stc.ivLen symIvMax) rTobj
  if stc.direction = .encrypt then
    if stc.cipher = .tdesCfb1 then do
      let stc := { stc with pt := maskFirst stc.pt }
      let rTobj ← setMemory rTobj "pt" stc.pt 1 symPtMax
      pure (rTobj, stc)
    else do
      let rTobj ← setMemory rTobj "pt" stc.pt stc.ptLen symPtMax
      pure (rTobj, stc)
  else do
    let rTobj ← setMemory rTobj "ct" stc.ct (if stc.cipher = .tdesCfb1 then 1 else stc.ctLen)
      symCtMax
    pure (rTobj, stc)

/-- {lit}`odd_parity`. -/
def oddParityTbl : List UInt8 :=
  [1, 1, 2, 2, 4, 4, 7, 7, 8, 8, 11, 11, 13, 13, 14, 14, 16, 16, 19, 19, 21, 21, 22, 22, 25, 25,
    26, 26, 28, 28, 31, 31, 32, 32, 35, 35, 37, 37, 38, 38, 41, 41, 42, 42, 44, 44, 47, 47, 49,
    49, 50, 50, 52, 52, 55, 55, 56, 56, 59, 59, 61, 61, 62, 62, 64, 64, 67, 67, 69, 69, 70, 70,
    73, 73, 74, 74, 76, 76, 79, 79, 81, 81, 82, 82, 84, 84, 87, 87, 88, 88, 91, 91, 93, 93, 94,
    94, 97, 97, 98, 98, 100, 100, 103, 103, 104, 104, 107, 107, 109, 109, 110, 110, 112, 112, 115,
    115, 117, 117, 118, 118, 121, 121, 122, 122, 124, 124, 127, 127, 128, 128, 131, 131, 133, 133,
    134, 134, 137, 137, 138, 138, 140, 140, 143, 143, 145, 145, 146, 146, 148, 148, 151, 151, 152,
    152, 155, 155, 157, 157, 158, 158, 161, 161, 162, 162, 164, 164, 167, 167, 168, 168, 171, 171,
    173, 173, 174, 174, 176, 176, 179, 179, 181, 181, 182, 182, 185, 185, 186, 186, 188, 188, 191,
    191, 193, 193, 194, 194, 196, 196, 199, 199, 200, 200, 203, 203, 205, 205, 206, 206, 208, 208,
    211, 211, 213, 213, 214, 214, 217, 217, 218, 218, 220, 220, 223, 223, 224, 224, 227, 227, 229,
    229, 230, 230, 233, 233, 234, 234, 236, 236, 239, 239, 241, 241, 242, 242, 244, 244, 247, 247,
    248, 248, 251, 251, 253, 253, 254, 254]

/-- {lit}`amvp_des_set_odd_parity`. -/
def desSetOddParity (key : Memory) : Memory := fun n =>
  if n < 24 then oddParityTbl.getD (key n).toNat 0 else key n

/-- The number of bits that a call adds to the key of the next round. -/
def desBitLen : Cipher → Option Nat
  | .tdesCbc | .tdesOfb | .tdesCfb64 | .tdesEcb => some 64
  | .tdesCfb8 => some 8
  | .tdesCfb1 => some 1
  | _ => none

/-- The key of the next round. -/
def desMctKey (stc : SymCipherTc) (nk : Memory) : Memory :=
  let first : Memory := fun n =>
    if n < 8 then stc.key n ^^^ nk (16 + n) else if n < 16 then stc.key n ^^^ nk n else stc.key n
  desSetOddParity fun n =>
    if 16 ≤ n ∧ n < 24 then
      if stc.keyingOption = 1 then first n ^^^ nk (n - 16) else first (n - 16)
    else first n

/-- What the next round starts with. -/
def desMctTurn (stc : SymCipherTc) (tables : DesTables) : SymCipherTc :=
  let stc := { stc with
    key := desMctKey stc tables.nk
    iv := stc.iv.copy 0 symIvByteMax stc.ivRetAfter 0 8 }
  if stc.cipher = .tdesOfb then
    if stc.direction = .encrypt then
      { stc with pt := stc.pt.copy 0 8 (xorBytes tables.ptext stc.ivRet 8) 0 8 }
    else { stc with ct := stc.ct.copy 0 8 (xorBytes tables.ctext stc.ivRet 8) 0 8 }
  else stc

/-- The text at the end of a round, as {lit}`amvp_des_mct_tc` answers it. -/
def desMctText (stc : SymCipherTc) (rTobj : JsonObject) :
    Except AmvpResult (JsonObject × SymCipherTc) :=
  if stc.direction = .encrypt then
    if stc.cipher = .tdesCfb1 then do
      let stc := { stc with ct := maskFirst stc.ct }
      let rTobj ← setMemory rTobj "ct" stc.ct 1 symCtMax
      pure (rTobj, stc)
    else do
      let rTobj ← setMemory rTobj "ct" stc.ct stc.ctLen symCtMax
      pure (rTobj, stc)
  else do
    let rTobj ← setMemory rTobj "pt" stc.pt (if stc.cipher = .tdesCfb1 then 1 else stc.ptLen)
      symCtMax
    pure (rTobj, stc)

/-- The inner loop of {lit}`amvp_des_mct_tc`, with the number of calls that are left. -/
def desMctCalls (bitLen : Nat) : Nat → Nat → SymCipherTc → DesTables →
    Dialog SymCipherTc AmvpResult (SymCipherTc × DesTables)
  | 0, _, stc, tables => pure (stc, tables)
  | n + 1, j, stc, tables => do
    let tables :=
      if j = 0 then { tables with oldIv := tables.oldIv.copy 0 8 stc.iv 0 stc.ivLen } else tables
    let (code, stc) ← Dialog.ask { stc with mctIndex := j }
    if code ≠ 0 then Dialog.fail .cryptoModuleFail
    else do
      let text := if stc.direction = .encrypt then stc.ct else stc.pt
      let (stc, tables) ← Dialog.ofExcept
        (desMctIterateTc stc { tables with nk := shiftin tables.nk text bitLen })
      desMctCalls bitLen n (j + 1) stc tables

/-- The outer loop of {lit}`amvp_des_mct_tc`, with the number of rounds that are left. -/
def desMctRounds (bitLen : Nat) : Nat → SymCipherTc → DesTables →
    Dialog SymCipherTc AmvpResult (List JsonObject × DesTables)
  | 0, _, tables => pure ([], tables)
  | n + 1, stc, tables => do
    let (rTobj, stc) ← Dialog.ofExcept (desOutputMctTc stc)
    let (stc, tables) ← desMctCalls bitLen desMctInner 0 stc tables
    let (rTobj, stc) ← Dialog.ofExcept (desMctText (desMctTurn stc tables) rTobj)
    let (rTobjs, tables) ← desMctRounds bitLen n stc tables
    pure (rTobj :: rTobjs, tables)

/-- {lit}`amvp_des_mct_tc`. -/
def desMctTc (stc : SymCipherTc) (tables : DesTables) :
    Dialog SymCipherTc AmvpResult (List JsonObject × DesTables) := do
  let bitLen ← Dialog.ofExcept (need (desBitLen stc.cipher) .unsupportedOp)
  desMctRounds bitLen desMctOuter stc tables

/-! ## Groups -/

/-- What the triple-DES handler reads of a group. -/
structure DesGroup where
  tgId : Int
  dir : SymCiphDir
  testType : SymCiphTestType

/-- The variables of the triple-DES handler that keep their values from group to group. -/
structure DesVars where
  incrCtr : Nat := 0
  ovrflwCtr : Nat := 0
  keyingOption : Nat := 0
deriving DecidableEq

/-- A name that has to be there and to be understood. -/
def readDesName {α : Type} (read : String → Option α) (obj : Option JsonObject) (name : String) :
    Except AmvpResult α := do
  let str ← need (jsonObjectGetString obj name) .missingArg
  need (read str) .invalidArg

/-- The counters of a group of counter tests. -/
def readDesCounters (vars : DesVars) (groupobj : Option JsonObject) :
    Except AmvpResult DesVars := do
  let incrCtr := unsignedOfInt (jsonObjectGetBoolean groupobj "incrementalCounter")
  let ovrflwCtr := unsignedOfInt (jsonObjectGetBoolean groupobj "overflowCounter")
  stopIf (ovrflwCtr ≠ 0 ∧ ovrflwCtr ≠ 1) .malformedJson
  stopIf (incrCtr ≠ 0 ∧ incrCtr ≠ 1) .malformedJson
  pure { vars with incrCtr := incrCtr, ovrflwCtr := ovrflwCtr }

/-- The keying option of a group that has one. -/
def readDesKeyingOption (vars : DesVars) (groupobj : Option JsonObject) :
    Except AmvpResult DesVars := do
  let keyingOption := toUnsigned (jsonObjectGetNumber groupobj "keyingOption")
  stopIf (keyingOption > 2 ∨ keyingOption < 1) .tcInvalidData
  pure { vars with keyingOption := keyingOption }

/-- The part of {lit}`amvp_des_kat_handler` that reads a group. -/
def readDesGroup (vars : DesVars) (groupobj : Option JsonObject) :
    Except AmvpResult (DesGroup × DesVars) := do
  let tgId ← readTgId groupobj .malformedJson
  let dir ← readDesName readDirection groupobj "direction"
  let testType ← readDesName readTestType groupobj "testType"
  let vars ← onlyIf (testType = .ctr) (readDesCounters vars groupobj) vars
  let vars ← onlyIf (jsonObjectGetValue groupobj "keyingOption" ≠ none)
    (readDesKeyingOption vars groupobj) vars
  pure (⟨tgId, dir, testType⟩, vars)

/-! ## Tests -/

/-- One of the three keys of a test. -/
def readDesKey (testobj : Option JsonObject) (name : String) : Except AmvpResult String := do
  let key ← need (jsonObjectGetString testobj name) .missingArg
  stopIf (strnlenS key (symKeyMaxStr + 1) ≠ 16) .invalidArg
  pure key

/-- A text of a test and its length in bits, which a test of CFB1 may give. -/
def readDesText (algId : Cipher) (testobj : Option JsonObject) (name : String) (strMax : Nat) :
    Except AmvpResult (String × Nat) := do
  let text ← readString testobj name strMax
  let bits := strnlenS text (strMax + 1) * 4
  let given := toUnsigned (jsonObjectGetNumber testobj "payloadLen")
  pure (text, if algId = .tdesCfb1 ∧ given ≠ 0 then given else bits)

/-- The initialization vector of a test. -/
def readDesIv (testobj : Option JsonObject) : Except AmvpResult String := do
  let iv ← need (jsonObjectGetString testobj "iv") .missingArg
  stopIf (strnlenS iv (symIvMax + 1) ≠ 16) .invalidArg
  pure iv

/-- {lit}`amvp_des_init_tc`. -/
def desInitTc (algId : Cipher) (vars : DesVars) (group : DesGroup) (tcId : Nat) (key : String)
    (pt ct : Option (String × Nat)) (iv : Option String) : Except AmvpResult SymCipherTc := do
  let keyBytes ← hexstrToBin (some key) symKeyMaxBytes
  let ptBytes ← decodeMemory (pt.map Prod.fst) symPtByteMax
  let ctBytes ← decodeMemory (ct.map Prod.fst) symCtByteMax
  let ivBytes ← decodeMemory iv symIvByteMax
  let textLen (text : Option (String × Nat)) : Nat :=
    let bits := (text.map Prod.snd).getD 0
    if algId = .tdesCfb1 then bits else (bits + 7) / 8
  pure {
    cipher := algId
    testType := group.testType
    direction := group.dir
    tcId := tcId
    key := .ofBytes keyBytes
    pt := ptBytes
    ct := ctBytes
    iv := ivBytes
    keyLen := tdesKeyBitLen
    ptLen := textLen pt
    ctLen := textLen ct
    ivLen := if iv = none then 0 else 8
    incrCtr := vars.incrCtr
    ovrflwCtr := vars.ovrflwCtr
    keyingOption := vars.keyingOption }

/-- The part of {lit}`amvp_des_kat_handler` that reads a test. -/
def readDesTest (algId : Cipher) (vars : DesVars) (group : DesGroup)
    (testobj : Option JsonObject) : Except AmvpResult SymCipherTc := do
  let key1 ← readDesKey testobj "key1"
  let key2 ← readDesKey testobj "key2"
  let key3 ← readDesKey testobj "key3"
  let pt ← onlyIf (group.dir = .encrypt) ((readDesText algId testobj "pt" symPtMax).map some) none
  let ct ← onlyIf (group.dir ≠ .encrypt) ((readDesText algId testobj "ct" symCtMax).map some) none
  let iv ← onlyIf (algId ≠ .tdesEcb) ((readDesIv testobj).map some) none
  desInitTc algId vars group (readTcId testobj) (key1 ++ key2 ++ key3) pt ct iv

/-! ## Answers -/

/-- {lit}`amvp_des_output_tc`. -/
def desOutputTc (stc : SymCipherTc) (tcRsp : JsonObject) (optRv : Int) :
    Except AmvpResult JsonObject :=
  if stc.direction = .encrypt then
    setMemory tcRsp "ct" stc.ct
      (if stc.cipher = .tdesCfb1 then unsignedBytes stc.ctLen else stc.ctLen) symCtMax
  else if stc.cipher = .tdesKw ∧ optRv ≠ 0 then
    pure (jsonObjectSetBoolean tcRsp "testPassed" 1)
  else
    setMemory tcRsp "pt" stc.pt
      (if stc.cipher = .tdesCfb1 then unsignedBytes stc.ptLen else stc.ptLen) symCtMax

/-! ## The handler -/

/-- The part of {lit}`amvp_des_kat_handler` that processes a test.  All errors of the Monte
Carlo loops are reported as one. -/
def desPlay (testobj : Option JsonObject) (tc : SymCipherTc) (tables : DesTables) :
    Dialog SymCipherTc AmvpResult (JsonObject × DesTables) :=
  if tc.testType = .mct then do
    let (results, tables) ← (desMctTc tc tables).mapError fun _ => .cryptoModuleFail
    let rTobj := jsonObjectSetValue (responseTest testobj) "resultsArray" (.arr (results.map .obj))
    pure (rTobj, tables)
  else do
    let (code, stc) ← Dialog.ask tc
    if code ≠ 0 then Dialog.fail .cryptoModuleFail
    else do
      let rTobj ← Dialog.ofExcept (desOutputTc stc (responseTest testobj) code)
      pure (rTobj, tables)

/-- The loops of {lit}`amvp_des_kat_handler`. -/
def desPlayer (algId : Cipher) : KatPlayer DesVars DesTables DesGroup SymCipherTc where
  start := {}
  enter vars groupobj _ := readDesGroup vars groupobj
  load vars group testobj := (readDesTest algId vars group testobj).map (·, vars)
  play _ := desPlay
  close group tests := responseGroup "tgId" group.tgId tests

/-- {lit}`amvp_des_kat_handler`, with what earlier vector sets have left in the tables. -/
def desKatHandler (ctx : KatCtx) (tables : DesTables) : KatHandler SymCipherTc :=
  katHandler (setupByAlgorithm ctx) (fun head => (desPlayer head.2).worker tables)
    (fun head => responseObject ctx.vsId head.1)

end LibAmvp
