import LibAmvp.Capabilities.Symmetric
import LibAmvp.Kat.SymCipher

/-!
# AES

The handler of the AES ciphers.  Two variables of the handler keep their values from group to
group: whether initialization vectors are read, and the last sequence number.  The Monte Carlo
loops keep keys, initialization vectors and texts in static tables, which also outlive a vector
set.
-/

namespace LibAmvp

open Guard

/-! ## The tables of the Monte Carlo loops -/

def aesMctInner : Nat := 1000
def aesMctOuter : Nat := 100

/-- The static tables of {lit}`amvp_aes.c`.  A row of {lit}`mkey`, {lit}`ptext` and
{lit}`ctext` has 32 bytes, and a row of {lit}`miv` has 16. -/
structure AesTables where
  mkey : Memory := .zero
  miv : Memory := .zero
  ptext : Memory := .zero
  ctext : Memory := .zero

/-- The texts and the first key that {lit}`amvp_aes_mct_iterate_tc` keeps. -/
def aesMctKeep (stc : SymCipherTc) (tables : AesTables) : AesTables :=
  let j := stc.mctIndex
  let tables :=
    if stc.cipher ≠ .aesCfb1 then
      { tables with
        ctext := tables.ctext.copy (32 * j) 32 stc.ct 0 stc.ctLen
        ptext := tables.ptext.copy (32 * j) 32 stc.pt 0 stc.ptLen }
    else
      { tables with
        ctext := Function.update tables.ctext (32 * j) (stc.ct 0)
        ptext := Function.update tables.ptext (32 * j) (stc.pt 0) }
  if j = 0 then { tables with mkey := tables.mkey.copy 0 32 stc.key 0 (stc.keyLen / 8) }
  else tables

/-- {lit}`amvp_aes_mct_iterate_tc`. -/
def aesMctIterateTc (stc : SymCipherTc) (i : Nat) (tables : AesTables) :
    Except AmvpResult (SymCipherTc × AesTables) := do
  let j := stc.mctIndex
  let tables := aesMctKeep stc tables
  stopIf (¬hasSubAlg stc.cipher) .tcInvalidData
  match stc.cipher, stc.direction with
  | .aesEcb, .encrypt =>
    pure ({ stc with pt := stc.pt.copy 0 symPtByteMax tables.ctext (32 * j) stc.ctLen }, tables)
  | .aesEcb, _ =>
    pure ({ stc with ct := stc.ct.copy 0 symCtByteMax tables.ptext (32 * j) stc.ptLen }, tables)
  | .aesCbc, .encrypt | .aesOfb, .encrypt | .aesCfb128, .encrypt =>
    if j = 0 then pure ({ stc with pt := stc.pt.copy 0 symPtByteMax stc.iv 0 stc.ivLen }, tables)
    else
      pure ({ stc with
        pt := stc.pt.copy 0 symPtByteMax tables.ctext (32 * (j - 1)) stc.ctLen
        iv := stc.iv.copy 0 symIvByteMax tables.ctext (32 * j) stc.ctLen }, tables)
  | .aesCbc, _ | .aesOfb, _ | .aesCfb128, _ =>
    if j = 0 then pure ({ stc with ct := stc.ct.copy 0 symCtByteMax stc.iv 0 stc.ivLen }, tables)
    else
      pure ({ stc with
        ct := stc.ct.copy 0 symCtByteMax tables.ptext (32 * (j - 1)) stc.ptLen
        iv := stc.iv.copy 0 symIvByteMax tables.ptext (32 * j) stc.ptLen }, tables)
  | .aesCfb8, .encrypt =>
    if j < 16 then pure ({ stc with pt := stc.pt.copy 0 symPtByteMax stc.iv j stc.ivLen }, tables)
    else
      pure ({ stc with
        pt := stc.pt.copy 0 symPtByteMax tables.ctext (32 * (j - 16)) stc.ctLen }, tables)
  | .aesCfb8, _ =>
    if j < 16 then pure ({ stc with ct := stc.ct.copy 0 symCtByteMax stc.iv j stc.ivLen }, tables)
    else
      pure ({ stc with
        ct := stc.ct.copy 0 symCtByteMax tables.ptext (32 * (j - 16)) stc.ptLen }, tables)
  | .aesCfb1, .encrypt =>
    let bit := if j < 128 then tables.miv.getBit (16 * i) j
      else tables.ctext.getBit (32 * (j - 128)) 0
    let ptext := tables.ptext.setBit (32 * (j + 1)) 0 bit
    pure ({ stc with pt := Function.update stc.pt 0 (ptext (32 * (j + 1))) },
      { tables with ptext := ptext })
  | .aesCfb1, _ =>
    let bit := if j < 128 then tables.miv.getBit (16 * i) j
      else tables.ptext.getBit (32 * (j - 128)) 0
    let ctext := tables.ctext.setBit (32 * (j + 1)) 0 bit
    pure ({ stc with ct := Function.update stc.ct 0 (ctext (32 * (j + 1))) },
      { tables with ctext := ctext })
  | _, _ => pure (stc, tables)

/-- {lit}`amvp_aes_output_mct_tc`: the values at the start of a round. -/
def aesOutputMctTc (stc : SymCipherTc) : Except AmvpResult JsonObject := do
  let rTobj ← setMemory [] "key" stc.key (stc.keyLen / 8) symCtMax
  let rTobj ← onlyIf (stc.cipher ≠ .aesEcb) (setMemory rTobj "iv" stc.iv stc.ivLen symCtMax) rTobj
  if stc.direction = .encrypt then
    setMemory rTobj "pt" stc.pt (if stc.cipher = .aesCfb1 then 1 else stc.ptLen) symPtMax
  else setMemory rTobj "ct" stc.ct (if stc.cipher = .aesCfb1 then 1 else stc.ctLen) symCtMax

/-- The text at the end of a round, as {lit}`amvp_aes_mct_tc` answers it. -/
def aesMctText (stc : SymCipherTc) (rTobj : JsonObject) : Except AmvpResult JsonObject :=
  if stc.direction = .encrypt then
    setMemory rTobj "ct" stc.ct (if stc.cipher = .aesCfb1 then 1 else stc.ctLen) symCtMax
  else setMemory rTobj "pt" stc.pt (if stc.cipher = .aesCfb1 then 1 else stc.ptLen) symPtMax

/-- The last texts of a table, one byte of each. -/
def lastBytes (text : Memory) (n : Nat) (dest : Memory) : Memory := fun k =>
  if k < n then text (32 * (999 - (n - 1 - k))) else dest k

/-- The last texts of a table, one bit of each. -/
def lastBits (text : Memory) (n : Nat) (dest : Memory) (at_ : Nat) : Memory :=
  (List.range n).foldl
    (fun m k => m.setBit at_ k (text.getBit (32 * (999 - (n - 1 - k))) 0)) dest

/-- What is combined with the first key of a round, for the modes on blocks. -/
def lastBlocks (text : Memory) (keyLen : Nat) (dest : Memory) : Memory :=
  match keyLen with
  | 128 => dest.copy 0 68 text (32 * 999) 16
  | 192 => (dest.copy 0 68 text (32 * 998 + 8) 8).copy 8 60 text (32 * 999) 16
  | 256 => (dest.copy 0 68 text (32 * 998) 16).copy 16 52 text (32 * 999) 16
  | _ => dest

/-- What the next round starts with: the texts that are combined with the key, and for the
modes on bytes and bits the initialization vector and the first text. -/
def aesMctTurn (stc : SymCipherTc) (i : Nat) (tables : AesTables) (ciphertext : Memory) :
    SymCipherTc × AesTables × Memory :=
  let encrypts := stc.direction = .encrypt
  let text := if encrypts then tables.ctext else tables.ptext
  if stc.cipher = .aesCfb8 then
    let first := text (32 * 983)
    let stc := { stc with iv := lastBytes text 16 stc.iv }
    let tables :=
      if encrypts then { tables with ptext := Function.update tables.ptext 0 first }
      else { tables with ctext := Function.update tables.ctext 0 first }
    (stc, tables, lastBytes text (stc.keyLen / 8) ciphertext)
  else if stc.cipher = .aesCfb1 then
    let first := text (32 * 871) &&& 0x80
    let miv := lastBits text 128 tables.miv (16 * (i + 1))
    let iv := stc.iv.copy 0 symIvByteMax miv (16 * (i + 1)) stc.ivLen
    if encrypts then
      ({ stc with pt := Function.update stc.pt 0 first, iv := iv },
        { tables with miv := miv, ptext := Function.update tables.ptext 0 first },
        lastBits text stc.keyLen ciphertext 0)
    else
      ({ stc with ct := Function.update stc.ct 0 first, iv := iv },
        { tables with miv := miv, ctext := Function.update tables.ctext 0 first },
        lastBits text stc.keyLen ciphertext 0)
  else (stc, tables, lastBlocks text stc.keyLen ciphertext)

/-- The key of the next round. -/
def aesMctKey (stc : SymCipherTc) (tables : AesTables) (ciphertext : Memory) : SymCipherTc :=
  { stc with
    key := fun n => if n < stc.keyLen / 8 then tables.mkey n ^^^ ciphertext n else stc.key n }

/-- The inner loop of {lit}`amvp_aes_mct_tc`, with the number of calls that are left. -/
def aesMctCalls (i : Nat) : Nat → Nat → SymCipherTc → AesTables →
    Dialog SymCipherTc AmvpResult (SymCipherTc × AesTables)
  | 0, _, stc, tables => pure (stc, tables)
  | n + 1, j, stc, tables => do
    let (code, stc) ← Dialog.ask { stc with mctIndex := j }
    if code ≠ 0 then Dialog.fail .cryptoModuleFail
    else do
      let (stc, tables) ← Dialog.ofExcept (aesMctIterateTc stc i tables)
      aesMctCalls i n (j + 1) stc tables

/-- The outer loop of {lit}`amvp_aes_mct_tc`, with the number of rounds that are left. -/
def aesMctRounds : Nat → Nat → SymCipherTc → AesTables → Memory →
    Dialog SymCipherTc AmvpResult (List JsonObject × AesTables)
  | 0, _, _, tables, _ => pure ([], tables)
  | n + 1, i, stc, tables, ciphertext => do
    let rTobj ← Dialog.ofExcept (aesOutputMctTc stc)
    let (stc, tables) ← aesMctCalls i aesMctInner 0 stc tables
    let rTobj ← Dialog.ofExcept (aesMctText stc rTobj)
    let (stc, tables, ciphertext) := aesMctTurn stc i tables ciphertext
    let (rTobjs, tables) ←
      aesMctRounds n (i + 1) (aesMctKey stc tables ciphertext) tables ciphertext
    pure (rTobj :: rTobjs, tables)

/-- {lit}`amvp_aes_mct_tc`. -/
def aesMctTc (stc : SymCipherTc) (tables : AesTables) :
    Dialog SymCipherTc AmvpResult (List JsonObject × AesTables) :=
  let tables := { tables with miv := tables.miv.copy 0 16 stc.iv 0 stc.ivLen }
  aesMctRounds aesMctOuter 0 stc tables .zero

/-! ## Groups -/

def aesGcmSivIvlen : Nat := 96
def aesXpnIvlen : Nat := 96
def aesGcmSivTaglen : Nat := 128
def aesXpnSaltlen : Nat := 96
def aesCcmIvBitMin : Nat := 56
def aesCcmIvBitMax : Nat := 104
def aesGcmIvBitMin : Nat := 8
def aesGcmIvBitMax : Nat := 1024

/-- {lit}`read_tw_mode`. -/
def readTwMode : String → Option SymCiphTweakMode
  | "hex" => some .hex
  | "number" => some .num
  | _ => none

/-- {lit}`read_ivgen_mode`. -/
def readIvgenMode : String → Option SymCiphIvgenMode
  | "8.2.1" => some .mode821
  | "8.2.2" => some .mode822
  | _ => none

/-- {lit}`read_ivgen_source`. -/
def readIvgenSource : String → Option SymCiphIvgenSrc
  | "internal" => some .int
  | "external" => some .ext
  | _ => none

/-- {lit}`read_salt_source`. -/
def readSaltSource : String → Option SymCiphSaltSrc
  | "internal" => some .int
  | "external" => some .ext
  | _ => none

/-- {lit}`read_kw_mode`. -/
def readKwMode : String → Option SymKwMode
  | "cipher" => some .cipher
  | "inverse" => some .inverse
  | _ => none

/-- A name that has to be there and to be understood. -/
def readName {α : Type} (read : String → Option α) (obj : Option JsonObject) (name : String) :
    Except AmvpResult α := do
  let str ← need (jsonObjectGetString obj name) .tcMissingData
  need (read str) .tcInvalidData

/-- What the AES handler reads of a vector set and of the capability. -/
structure AesHead where
  algStr : String
  algId : Cipher
  conformance : Int
  ivgenSource : SymCiphIvgenSrc

/-- The part of {lit}`amvp_aes_kat_handler` before the groups.  The handler is dispatched for
algorithms whose entries are those of symmetric ciphers. -/
def aesSetup (ctx : KatCtx) (obj : JsonObject) : Except AmvpResult AesHead := do
  let algStr ← need (jsonObjectGetString (some obj) "algorithm") .tcMissingData
  let algId ← need (lookupCipherIndex algStr) .tcInvalidData
  let cap : SymCipherCap ← need (ctx.content algId .symCap) .tcInvalidData
  pure ⟨algStr, algId, cap.conformance, .ofInt cap.ivgenSource⟩

/-- The lengths and the sources that only the authenticated ciphers have. -/
structure AesAead where
  ivlen : Nat
  ivGen : SymCiphIvgenSrc := .na
  ivGenMode : SymCiphIvgenMode := .na
  aadlen : Nat := 0
  taglen : Nat := 0

/-- The initialization vectors of AES-GCM and AES-GMAC. -/
def readAesGcmIv (groupobj : Option JsonObject) (ivlen : Nat) :
    Except AmvpResult (SymCiphIvgenSrc × SymCiphIvgenMode) := do
  stopIf (¬(aesGcmIvBitMin ≤ ivlen ∧ ivlen ≤ aesGcmIvBitMax)) .tcInvalidData
  let ivGen ← readName readIvgenSource groupobj "ivGen"
  let ivGenMode ← onlyIf (ivGen = .int) (readName readIvgenMode groupobj "ivGenMode") .na
  pure (ivGen, ivGenMode)

/-- The ciphers with additional data and a tag. -/
def isAesAead (algId : Cipher) : Bool :=
  algId = .aesGcm || algId = .aesCcm || algId = .aesGmac || algId = .aesGcmSiv || algId = .aesXpn

/-- The part that reads the lengths of a group of an authenticated cipher. -/
def readAesAead (algId : Cipher) (groupobj : Option JsonObject) : Except AmvpResult AesAead := do
  let ivlen := toUnsigned (jsonObjectGetNumber groupobj "ivLen")
  stopIf (ivlen = 0) .tcMissingData
  let (ivGen, ivGenMode) ←
    onlyIf (algId = .aesGcm ∨ algId = .aesGmac) (readAesGcmIv groupobj ivlen) (.na, .na)
  stopIf (algId = .aesCcm ∧ ¬(aesCcmIvBitMin ≤ ivlen ∧ ivlen ≤ aesCcmIvBitMax ∧ ivlen % 8 = 0))
    .tcInvalidData
  stopIf (algId = .aesGcmSiv ∧ ivlen ≠ aesGcmSivIvlen ∨ algId = .aesXpn ∧ ivlen ≠ aesXpnIvlen)
    .tcInvalidData
  let aadlen := toUnsigned (jsonObjectGetNumber groupobj "aadLen")
  stopIf (aadlen > symAadBitMax) .tcInvalidData
  let taglen := toUnsigned (jsonObjectGetNumber groupobj "tagLen")
  stopIf (algId = .aesGcmSiv ∧ taglen ≠ aesGcmSivTaglen) .tcInvalidData
  stopIf (¬(symTagBitMin ≤ taglen ∧ taglen ≤ symTagBitMax)) .tcInvalidData
  pure ⟨ivlen, ivGen, ivGenMode, aadlen, taglen⟩

/-- What the AES handler reads of a group. -/
structure AesGroup where
  tgId : Int
  dir : SymCiphDir
  testType : SymCiphTestType
  incrCtr : Int
  ovrflwCtr : Int
  kwcipher : SymKwMode
  keylen : Nat
  aead : AesAead
  paylen : Nat
  twMode : Option String
  saltSrc : SymCiphSaltSrc
  saltLen : Nat

/-- The counters of a group of counter tests: {lit}`incremental` and {lit}`overflow`. -/
def readAesCounters (groupobj : Option JsonObject) : Except AmvpResult (Int × Int) := do
  let incrCtr := jsonObjectGetBoolean groupobj "incremental"
  let ovrflwCtr := jsonObjectGetBoolean groupobj "overflow"
  stopIf (ovrflwCtr ≠ 0 ∧ ovrflwCtr ≠ 1) .tcInvalidData
  stopIf (incrCtr ≠ 0 ∧ incrCtr ≠ 1) .tcInvalidData
  pure (incrCtr, ovrflwCtr)

/-- The salts of AES-XPN. -/
def readAesSalt (groupobj : Option JsonObject) : Except AmvpResult (SymCiphSaltSrc × Nat) := do
  let saltSrc ← readName readSaltSource groupobj "saltGen"
  let saltLen := toUnsigned (jsonObjectGetNumber groupobj "saltLen")
  stopIf (saltLen ≠ aesXpnSaltlen) .tcInvalidData
  pure (saltSrc, saltLen)

/-- The initialization vectors of a group whose cipher is not an authenticated one. -/
def aesPlainIv (head : AesHead) : AesAead where
  ivlen := if head.algId ≠ .aesEcb ∧ head.algId ≠ .aesKw ∧ head.algId ≠ .aesKwp then 128 else 0
  -- The capability tells where they come from, since the vector set does not.
  ivGen := if head.algId = .aesCtr ∧ head.conformance = conformanceRfc3686 then head.ivgenSource
    else .na

/-- The part of {lit}`amvp_aes_kat_handler` that reads a group. -/
def readAesGroup (head : AesHead) (groupobj : Option JsonObject) : Except AmvpResult AesGroup := do
  let tgId ← readTgId groupobj .tcMissingData
  let dir ← readName readDirection groupobj "direction"
  let testType ← readName readTestType groupobj "testType"
  let (incrCtr, ovrflwCtr) ← onlyIf (testType = .ctr) (readAesCounters groupobj) (-1, -1)
  let kwcipher ← onlyIf (head.algId = .aesKw ∨ head.algId = .tdesKw ∨ head.algId = .aesKwp)
    (readName readKwMode groupobj "kwCipher") .none
  let keylen := toUnsigned (jsonObjectGetNumber groupobj "keyLen")
  stopIf (keylen ≠ 128 ∧ keylen ≠ 192 ∧ keylen ≠ 256) .tcInvalidData
  let aead ← onlyIf (isAesAead head.algId) (readAesAead head.algId groupobj) (aesPlainIv head)
  let paylen := toUnsigned (jsonObjectGetNumber groupobj "payloadLen")
  stopIf (head.algId = .aesGmac ∧ paylen ≠ 0) .tcInvalidData
  stopIf (paylen > symPtBitMax) .tcInvalidData
  let twMode ← onlyIf (head.algId = .aesXts)
    ((need (jsonObjectGetString groupobj "tweakMode") .tcMissingData).map some) none
  let (saltSrc, saltLen) ← onlyIf (head.algId = .aesXpn) (readAesSalt groupobj) (.na, 0)
  pure ⟨tgId, dir, testType, incrCtr, ovrflwCtr, kwcipher, keylen, aead, paylen, twMode, saltSrc,
    saltLen⟩

/-! ## Tests -/

/-- The variables of the AES handler that keep their values from group to group. -/
structure AesVars where
  readIv : Bool := false
  seqNum : Int := 0
deriving DecidableEq

/-- What the AES handler reads of a test. -/
structure AesTest where
  tcId : Nat
  key : Option String
  pt : Option String := none
  ct : Option String := none
  iv : Option String := none
  tag : Option String := none
  aad : Option String := none
  salt : Option String := none
  datalen : Nat := 0
  dataUnitLen : Nat := 0
  tweakMode : SymCiphTweakMode := .unset
  seqNum : Int := 0

/-- A string that has to be there and has at most a number of characters. -/
def readAesString (obj : Option JsonObject) (name : String) (strMax : Nat) :
    Except AmvpResult String := do
  let str ← need (jsonObjectGetString obj name) .tcMissingData
  stopIf (strnlenS str (strMax + 1) > strMax) .tcInvalidData
  pure str

/-- A number of bits of a test, at most the longest text. -/
def readAesBits (obj : Option JsonObject) (name : String) : Except AmvpResult Nat := do
  let bits := toUnsigned (jsonObjectGetNumber obj name)
  stopIf (bits > symPtBitMax) .tcInvalidData
  pure bits

/-- A text of a test: AES-GMAC has none. -/
def readAesText (algId : Cipher) (testobj : Option JsonObject) (name : String) (strMax : Nat) :
    Except AmvpResult (Option String) :=
  if algId = .aesGmac then do
    stopIf (jsonObjectGetString testobj name ≠ none) .tcInvalidData
    pure none
  else (readAesString testobj name strMax).map some

/-- The texts and the tag of a test. -/
def readAesTexts (algId : Cipher) (dir : SymCiphDir) (testobj : Option JsonObject) :
    Except AmvpResult (Option String × Option String × Option String) :=
  if dir = .encrypt then do
    let pt ← readAesText algId testobj "pt" symPtMax
    pure (pt, none, none)
  else do
    let ct ← readAesText algId testobj "ct" symCtMax
    let tag ← onlyIf (algId = .aesGcm ∨ algId = .aesGmac)
      ((readAesString testobj "tag" symTagMax).map some) none
    pure (none, ct, tag)

/-- Whether a test sets the variable {lit}`readIv`. -/
def setsReadIv (algId : Cipher) (ivGen : SymCiphIvgenSrc) (dir : SymCiphDir) : Bool :=
  match algId with
  | .aesCbc | .aesCbcCs1 | .aesCbcCs2 | .aesCbcCs3 | .aesCfb1 | .aesCfb8 | .aesCfb128 | .aesOfb
  | .aesCcm => true
  | .aesCtr => ivGen ≠ .int
  | .aesGcm | .aesGmac | .aesXpn => ¬(ivGen = .int ∧ dir = .encrypt)
  | _ => false

/-- The tweak of a test of AES-XTS: a string that is treated as an initialization vector, or a
sequence number. -/
def readAesTweak (twMode : Option String) (seqNum : Int) (testobj : Option JsonObject) :
    Except AmvpResult (Option String × SymCiphTweakMode × Int) := do
  let tweakMode ← need (twMode.bind readTwMode) .tcInvalidData
  match tweakMode with
  | .hex => do
    let iv ← readAesString testobj "tweakValue" symIvMax
    pure (some iv, .hex, seqNum)
  | .num => do
    let seqNum := toInt (jsonObjectGetNumber testobj "sequenceNumber")
    stopIf (seqNum < 0 ∨ 255 < seqNum) .tcInvalidData
    pure (none, .num, seqNum)
  | _ => .error .tcInvalidData

/-- {lit}`amvp_aes_init_tc`. -/
def aesInitTc (head : AesHead) (group : AesGroup) (test : AesTest) :
    Except AmvpResult SymCipherTc := do
  let key ← (hexstrToBin test.key symKeyMaxBytes).map .ofBytes
  let pt ← decodeMemory test.pt symPtByteMax
  let ct ← decodeMemory test.ct symCtByteMax
  let iv ← decodeMemory test.iv symIvByteMax
  let tag ← decodeMemory test.tag symTagByteMax
  let aad ← decodeMemory test.aad symAadByteMax
  let salt ← decodeMemory test.salt aesXpnSaltlen
  let textLen (text : Option String) (strMax : Nat) : Nat :=
    match text with
    | none => group.paylen / 8
    | some str =>
      if head.algId = .aesCfb1 then test.datalen
      else if head.algId = .aesCcm then group.paylen / 8
      else strnlenS str strMax / 2
  let cs := head.algId = .aesCbcCs1 ∨ head.algId = .aesCbcCs2 ∨ head.algId = .aesCbcCs3
  pure {
    cipher := head.algId
    conformance := head.conformance
    testType := group.testType
    direction := group.dir
    ivgenSource := group.aead.ivGen
    ivgenMode := group.aead.ivGenMode
    saltSource := group.saltSrc
    tcId := test.tcId
    key := key
    pt := pt
    aad := aad
    iv := iv
    ct := ct
    tag := tag
    salt := salt
    kwcipher := group.kwcipher
    twMode := test.tweakMode
    seqNum := unsignedOfInt test.seqNum
    keyLen := group.keylen
    ptLen := textLen test.pt symPtMax
    dataLen := if head.algId = .aesCfb1 ∧ (test.pt ≠ none ∨ test.ct ≠ none) then test.datalen else 0
    aadLen := group.aead.aadlen / 8
    ivLen := match test.iv with
      | some str => if cs then (hexPairs (cBytes str)).length else group.aead.ivlen / 8
      | none => group.aead.ivlen / 8
    ctLen := textLen test.ct symCtMax
    tagLen := group.aead.taglen / 8
    saltLen := group.saltLen / 8
    incrCtr := unsignedOfInt group.incrCtr
    ovrflwCtr := unsignedOfInt group.ovrflwCtr
    dataUnitLen := test.dataUnitLen / 8 }

/-- The part of {lit}`amvp_aes_kat_handler` that reads a test. -/
def readAesTest (head : AesHead) (vars : AesVars) (group : AesGroup)
    (testobj : Option JsonObject) : Except AmvpResult (SymCipherTc × AesVars) := do
  stopIf (¬jsonObjectHasValue testobj "tcId") .tcMissingData
  let key ← readAesString testobj "key" symKeyMaxStr
  let datalen ← onlyIf (head.algId = .aesCfb1) (readAesBits testobj "payloadLen") 0
  let dataUnitLen ← onlyIf (head.algId = .aesXts) (readAesBits testobj "dataUnitLen") 0
  let (pt, ct, tag) ← readAesTexts head.algId group.dir testobj
  let readIv := setsReadIv head.algId group.aead.ivGen group.dir || vars.readIv
  let iv ← onlyIf readIv ((readAesString testobj "iv" symIvMax).map some) none
  let (iv, tweakMode, seqNum) ← onlyIf (head.algId = .aesXts)
    (do
      let tweak ← readAesTweak group.twMode vars.seqNum testobj
      pure (tweak.1 <|> iv, tweak.2)) (iv, .unset, vars.seqNum)
  let aad ← onlyIf (isAesAead head.algId) ((readAesString testobj "aad" symAadMax).map some) none
  let salt := if head.algId = .aesXpn ∧ group.saltSrc = .ext then jsonObjectGetString testobj "salt"
    else none
  let tc ← aesInitTc head group
    ⟨readTcId testobj, some key, pt, ct, iv, tag, aad, salt, datalen, dataUnitLen, tweakMode,
      seqNum⟩
  pure (tc, ⟨readIv, seqNum⟩)

/-! ## Answers -/

/-- The answer of the module is part of the response. -/
def aesReturnsIv (stc : SymCipherTc) : Bool :=
  stc.ivgenSource = .int && (stc.cipher = .aesGcm || stc.cipher = .aesGmac ||
    stc.cipher = .aesXpn || stc.cipher = .aesCtr && stc.conformance = conformanceRfc3686)

/-- The ciphers whose decryption may fail. -/
def aesMayFail : Cipher → Bool
  | .aesGcm | .aesCcm | .aesKw | .aesKwp | .aesGcmSiv | .aesGmac | .aesXpn => true
  | _ => false

/-- The cipher text and the tag of a response. -/
def aesOutputEncrypted (stc : SymCipherTc) (tcRsp : JsonObject) : Except AmvpResult JsonObject := do
  let ct ← memoryToHexstr stc.ct
    (if stc.cipher = .aesCfb1 then unsignedBytes stc.ctLen
      else if stc.cipher = .aesGcm then stc.ptLen else stc.ctLen) symCtMax
  let tcRsp := if stc.cipher ≠ .aesGmac then jsonObjectSetText tcRsp "ct" (some ct) else tcRsp
  onlyIf (stc.cipher = .aesGcm ∨ stc.cipher = .aesGmac ∨ stc.cipher = .aesXpn)
    (setMemory tcRsp "tag" stc.tag stc.tagLen symCtMax) tcRsp

/-- The plain text of a response, and whether the decryption has succeeded. -/
def aesOutputDecrypted (stc : SymCipherTc) (tcRsp : JsonObject) (optRv : Int) :
    Except AmvpResult JsonObject :=
  if aesMayFail stc.cipher ∧ optRv ≠ 0 then pure (jsonObjectSetBoolean tcRsp "testPassed" 0)
  else do
    let tcRsp := if aesMayFail stc.cipher then jsonObjectSetBoolean tcRsp "testPassed" 1 else tcRsp
    let pt ← memoryToHexstr stc.pt
      (if stc.cipher = .aesCfb1 then unsignedBytes stc.ptLen
        else if stc.cipher = .aesGcm then stc.ctLen else stc.ptLen) symPtMax
    pure (if stc.cipher ≠ .aesGmac then jsonObjectSetText tcRsp "pt" (some pt) else tcRsp)

/-- {lit}`amvp_aes_output_tc`. -/
def aesOutputTc (stc : SymCipherTc) (tcRsp : JsonObject) (optRv : Int) :
    Except AmvpResult JsonObject := do
  let tcRsp ← onlyIf (aesReturnsIv stc) (setMemory tcRsp "iv" stc.iv stc.ivLen symCtMax) tcRsp
  let tcRsp ← onlyIf (stc.cipher = .aesXpn ∧ stc.saltSource = .int)
    (setMemory tcRsp "salt" stc.salt stc.saltLen aesXpnSaltlen) tcRsp
  if stc.direction = .encrypt then aesOutputEncrypted stc tcRsp
  else aesOutputDecrypted stc tcRsp optRv

/-! ## The handler -/

/-- The ciphers whose tests go on when the module reports a failure. -/
def aesGoesOn : Cipher → Bool
  | .aesKw | .aesGcm | .aesGcmSiv | .aesCcm | .aesKwp | .aesGmac => true
  | _ => false

/-- The part of {lit}`amvp_aes_kat_handler` that processes a test. -/
def aesPlay (algId : Cipher) (testobj : Option JsonObject) (tc : SymCipherTc)
    (tables : AesTables) : Dialog SymCipherTc AmvpResult (JsonObject × AesTables) :=
  if tc.testType = .mct then do
    let (results, tables) ← aesMctTc tc tables
    let rTobj := jsonObjectSetValue (responseTest testobj) "resultsArray" (.arr (results.map .obj))
    pure (rTobj, tables)
  else do
    let (code, stc) ← Dialog.ask tc
    if code ≠ 0 ∧ ¬aesGoesOn algId then Dialog.fail .cryptoModuleFail
    else do
      let rTobj ← Dialog.ofExcept (aesOutputTc stc (responseTest testobj) code)
      pure (rTobj, tables)

/-- The loops of {lit}`amvp_aes_kat_handler`. -/
def aesPlayer (head : AesHead) : KatPlayer AesVars AesTables AesGroup SymCipherTc where
  start := {}
  enter vars groupobj _ := (readAesGroup head groupobj).map (·, vars)
  load := readAesTest head
  play _ := aesPlay head.algId
  close group tests := responseGroup "tgId" group.tgId tests

/-- {lit}`amvp_aes_kat_handler`, with what earlier vector sets have left in the tables. -/
def aesKatHandler (ctx : KatCtx) (tables : AesTables) : KatHandler SymCipherTc :=
  katHandler (aesSetup ctx) (fun head => (aesPlayer head).worker tables)
    (fun head => responseObject ctx.vsId head.algStr)

end LibAmvp
