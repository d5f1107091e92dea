import LibAmvp.Capabilities.Signatures
import LibAmvp.Kat.VectorSet

/-!
# Random bit generators

The handler of the DRBG tests.  A group gives the lengths in bits, a test the strings.  The
length of the nonce is checked against its limits, except for a CTR_DRBG without derivation
function.

Main results:

- Theorem {lit}`drbg_fits_iff`: when the lengths of a test case stay within its buffers.
-/

namespace LibAmvp

open Guard

def drbByteMax : Nat := 512
def drbStrMax : Nat := 1024
def drbgEntpyInByteMax : Nat := 131072
def drbgEntpyInStrMax : Nat := 262144
def drbgNonceByteMax : Nat := 64
def drbgNonceStrMax : Nat := 128
def drbgPerSoByteMax : Nat := 131072
def drbgPerSoStrMax : Nat := 262144
def drbgAddiInByteMax : Nat := 131072
def drbgAddiInStrMax : Nat := 262144

/-- {lit}`AMVP_DRBG_MODE`. -/
inductive DrbgMode where
  | sha1 | sha224 | sha256 | sha384 | sha512 | sha512_224 | sha512_256
  | tdes | aes128 | aes192 | aes256
deriving DecidableEq

/-- {lit}`drbg_mode_tbl`. -/
def drbgModeTbl : List (DrbgMode × String) :=
  [(.sha1, "SHA-1"), (.sha224, "SHA2-224"), (.sha256, "SHA2-256"), (.sha384, "SHA2-384"),
    (.sha512, "SHA2-512"), (.sha512_224, "SHA2-512/224"), (.sha512_256, "SHA2-512/256"),
    (.tdes, "TDES"), (.aes128, "AES-128"), (.aes192, "AES-192"), (.aes256, "AES-256")]

/-- {lit}`amvp_lookup_drbg_mode_index`. -/
def lookupDrbgModeIndex (mode : String) : Option DrbgMode :=
  (drbgModeTbl.find? fun row => row.2 = mode).map Prod.fst

/-- {lit}`AMVP_BIT2BYTE` of an {lit}`unsigned int`. -/
def bit2byteUnsigned (bits : Nat) : Nat := (bits + 7) % 2 ^ 32 / 8

/-- {lit}`AMVP_DRBG_TC`. -/
structure DrbgTc where
  cipher : Cipher
  mode : DrbgMode
  tcId : Nat
  additionalInput0 : Buffer
  entropyInputPr0 : Buffer
  additionalInput1 : Buffer
  entropyInputPr1 : Buffer
  additionalInput2 : Buffer
  entropyInputPr2 : Buffer
  pr1Len : Nat
  pr2Len : Nat
  persoString : Buffer
  entropy : Buffer
  nonce : Buffer
  drb : Buffer := ⟨drbByteMax, []⟩
  derFuncEnabled : Bool
  predResistEnabled : Bool
  reseed : Bool
  additionalInputLen : Nat
  persoStringLen : Nat
  entropyLen : Nat
  nonceLen : Nat
  drbLen : Nat
deriving DecidableEq

/-- What the handler reads of a group. -/
structure DrbgTestGroup where
  tgId : Int
  mode : DrbgMode
  derFuncEnabled : Bool
  predResistEnabled : Bool
  reseed : Bool
  entropyLen : Nat
  nonceLen : Nat
  persoStringLen : Nat
  drbLen : Nat
  additionalInputLen : Nat

/-- One entry of {lit}`otherInput`. -/
structure DrbgInput where
  additionalInput : String
  entropyInput : String

/-- A boolean that has to be there. -/
def readDrbgBoolean (groupobj : Option JsonObject) (name : String) : Except AmvpResult Bool := do
  let value := jsonObjectGetBoolean groupobj name
  stopIf (value = -1) .missingArg
  pure (value ≠ 0)

/-- The part of {lit}`amvp_drbg_kat_handler` that reads a group. -/
def readDrbgGroup (algId : Cipher) (groupobj : Option JsonObject) :
    Except AmvpResult DrbgTestGroup := do
  let tgId ← readTgId groupobj .malformedJson
  let modeStr ← need (jsonObjectGetString groupobj "mode") .malformedJson
  let mode ← need (lookupDrbgModeIndex modeStr) .unsupportedOp
  let predResistEnabled ← readDrbgBoolean groupobj "predResistance"
  let reseed ← readDrbgBoolean groupobj "reSeed"
  let derFuncEnabled ← onlyIf (algId = .ctrdrbg) (readDrbgBoolean groupobj "derFunc") false
  let entropyLen := toUnsigned (jsonObjectGetNumber groupobj "entropyInputLen")
  stopIf (entropyLen < drbgEntpyInBitMin ∨ drbgEntpyInBitMax < entropyLen) .invalidArg
  let nonceLen := toUnsigned (jsonObjectGetNumber groupobj "nonceLen")
  -- A CTR_DRBG without derivation function takes no nonce, and its length is not looked at.
  stopIf (¬(algId = .ctrdrbg ∧ derFuncEnabled = false) ∧
    (nonceLen < drbgNonceBitMin ∨ drbgNonceBitMax < nonceLen)) .invalidArg
  let persoStringLen := toUnsigned (jsonObjectGetNumber groupobj "persoStringLen")
  stopIf (drbgPerSoBitMax < persoStringLen) .invalidArg
  let drbLen := toUnsigned (jsonObjectGetNumber groupobj "returnedBitsLen")
  stopIf (drbLen = 0 ∨ drbBitMax < drbLen) .invalidArg
  let additionalInputLen := toUnsigned (jsonObjectGetNumber groupobj "additionalInputLen")
  stopIf (drbgAddiInBitMax < additionalInputLen) .invalidArg
  pure { tgId, mode, derFuncEnabled, predResistEnabled, reseed, entropyLen, nonceLen,
         persoStringLen, drbLen, additionalInputLen }

/-- The comparison of {lit}`intendedUse` with a name.  {lit}`strncmp_s` finds no difference
when there is no text or one that is shorter than the name. -/
def hasOtherUse (obj : Option JsonObject) (use : String) : Prop :=
  ∃ str ∈ jsonObjectGetString obj "intendedUse",
    (cBytes use).length ≤ (cBytes str).length ∧ (cBytes str).take (cBytes use).length ≠ cBytes use

instance (obj : Option JsonObject) (use : String) : Decidable (hasOtherUse obj use) := by
  unfold hasOtherUse
  infer_instance

/-- The part of {lit}`amvp_drbg_kat_handler` that reads an entry of {lit}`otherInput`. -/
def readDrbgInput (inputs : List Json) (index : Nat) (use : String) :
    Except AmvpResult DrbgInput := do
  let val ← need inputs[index]? .invalidArg
  let obj := jsonValueGetObject (some val)
  stopIf (hasOtherUse obj use) .invalidArg
  let additionalInput ← readString obj "additionalInput" drbgAddiInStrMax
  let entropyInput ← readString obj "entropyInput" drbgEntpyInStrMax
  pure ⟨additionalInput, entropyInput⟩

/-- The strings of a test. -/
structure DrbgTest where
  persoString : String
  entropy : String
  nonce : String
  reseedInput : Option DrbgInput
  input1 : DrbgInput
  input2 : DrbgInput

/-- The part of {lit}`amvp_drbg_kat_handler` that reads the strings of a test. -/
def readStrings (group : DrbgTestGroup) (testobj : Option JsonObject) :
    Except AmvpResult DrbgTest := do
  let persoString ← readString testobj "persoString" drbgPerSoStrMax
  let entropy ← readString testobj "entropyInput" drbgEntpyInStrMax
  let nonce ← readString testobj "nonce" drbgNonceStrMax
  let inputs ← need (jsonObjectGetArray testobj "otherInput") .missingArg
  stopIf (inputs.length = 0) .invalidArg
  let reseeds : Bool := group.predResistEnabled = false ∧ group.reseed = true
  stopIf (reseeds ∧ inputs.length ≠ 3) .invalidArg
  let reseedInput ← onlyIf reseeds ((readDrbgInput inputs 0 "reSeed").map some) none
  let index := if reseeds then 1 else 0
  stopIf (index = 0 ∧ inputs.length ≠ 2) .invalidArg
  let input1 ← readDrbgInput inputs index "generate"
  let input2 ← readDrbgInput inputs (index + 1) "generate"
  pure ⟨persoString, entropy, nonce, reseedInput, input1, input2⟩

/-- {lit}`amvp_drbg_init_tc`. -/
def drbgInitTc (tcId : Nat) (test : DrbgTest) (group : DrbgTestGroup) (algId : Cipher) :
    Except AmvpResult DrbgTc := do
  let additionalInput0 ← onlyIf (test.reseedInput ≠ none)
    (hexstrToBuffer (test.reseedInput.map DrbgInput.additionalInput) drbgAddiInByteMax)
    ⟨drbgAddiInByteMax, []⟩
  let entropyInputPr0 ← onlyIf (test.reseedInput ≠ none)
    (hexstrToBuffer (test.reseedInput.map DrbgInput.entropyInput) drbgEntpyInByteMax)
    ⟨drbgEntpyInByteMax, []⟩
  let additionalInput1 ← hexstrToBuffer (some test.input1.additionalInput) drbgAddiInByteMax
  let entropyInputPr1 ← hexstrToBuffer (some test.input1.entropyInput) drbgEntpyInByteMax
  let additionalInput2 ← hexstrToBuffer (some test.input2.additionalInput) drbgAddiInByteMax
  let entropyInputPr2 ← hexstrToBuffer (some test.input2.entropyInput) drbgEntpyInByteMax
  let entropy ← hexstrToBuffer (some test.entropy) drbgEntpyInByteMax
  let persoString ← hexstrToBuffer (some test.persoString) drbgPerSoByteMax
  let nonce ← hexstrToBuffer (some test.nonce) drbgNonceByteMax
  pure {
    cipher := algId
    mode := group.mode
    tcId, additionalInput0, entropyInputPr0, additionalInput1, entropyInputPr1,
    additionalInput2, entropyInputPr2, persoString, entropy, nonce
    pr1Len := strnlenS test.input1.entropyInput (drbgEntpyInStrMax + 1) / 2
    pr2Len := strnlenS test.input2.entropyInput (drbgEntpyInStrMax + 1) / 2
    derFuncEnabled := group.derFuncEnabled
    predResistEnabled := group.predResistEnabled
    reseed := group.reseed
    additionalInputLen := bit2byteUnsigned group.additionalInputLen
    persoStringLen := bit2byteUnsigned group.persoStringLen
    entropyLen := bit2byteUnsigned group.entropyLen
    nonceLen := bit2byteUnsigned group.nonceLen
    drbLen := bit2byteUnsigned group.drbLen }

/-- {lit}`amvp_drbg_output_tc`. -/
def drbgOutputTc (stc : DrbgTc) (tcRsp : JsonObject) : Except AmvpResult JsonObject :=
  setHexstr tcRsp "returnedBits" (some stc.drb) (intOfUnsigned stc.drbLen) drbStrMax

/-- The part of {lit}`amvp_drbg_kat_handler` that fills the test case of a test. -/
def readDrbgTest (algId : Cipher) (group : DrbgTestGroup) (testobj : Option JsonObject) :
    Except AmvpResult DrbgTc := do
  let test ← readStrings group testobj
  drbgInitTc (readTcId testobj) test group algId

/-- The loops of {lit}`amvp_drbg_kat_handler`; no variable keeps its value. -/
def drbgLoader (algId : Cipher) : KatLoader Unit DrbgTestGroup DrbgTc where
  start := ()
  enter _ groupobj _ := (readDrbgGroup algId groupobj).map (·, ())
  load _ group testobj := (readDrbgTest algId group testobj).map ({ question := · }, ())
  finish _ testobj tc := drbgOutputTc tc (responseTest testobj)
  close group tests := responseGroup "tgId" group.tgId tests
  refused := .cryptoModuleFail

/-- The head of a vector set for a DRBG. -/
def setupDrbg (ctx : KatCtx) (obj : JsonObject) : Except AmvpResult (String × Cipher) := do
  let algStr ← need (jsonObjectGetString (some obj) "algorithm") .malformedJson
  let algId ← need (lookupCipherIndex algStr) .unsupportedOp
  stopIf (algId ≠ .hashdrbg ∧ algId ≠ .hmacdrbg ∧ algId ≠ .ctrdrbg) .unsupportedOp
  let _ ← need (ctx.caps.locate algId) .unsupportedOp
  pure (algStr, algId)

/-- {lit}`amvp_drbg_kat_handler`. -/
def drbgKatHandler (ctx : KatCtx) : KatHandler DrbgTc :=
  katHandler (setupDrbg ctx) (fun head => (drbgLoader head.2).worker)
    (fun head groups => responseObject ctx.vsId head.1 groups)

/-! ## Lengths and buffers -/

/-- The lengths of a DRBG test case are within its buffers. -/
def DrbgTc.Fits (tc : DrbgTc) : Prop :=
  tc.additionalInputLen ≤ tc.additionalInput0.size ∧
    tc.additionalInputLen ≤ tc.additionalInput1.size ∧
    tc.additionalInputLen ≤ tc.additionalInput2.size ∧
    tc.entropyLen ≤ tc.entropyInputPr0.size ∧ tc.pr1Len ≤ tc.entropyInputPr1.size ∧
    tc.pr2Len ≤ tc.entropyInputPr2.size ∧ tc.persoStringLen ≤ tc.persoString.size ∧
    tc.entropyLen ≤ tc.entropy.size ∧ tc.nonceLen ≤ tc.nonce.size ∧ tc.drbLen ≤ tc.drb.size

/-- The length of the nonce that the group gives is within the limit, or so large that the
conversion to bytes wraps around. -/
def DrbgNonceFits (groups : List TestGroup) (i _j : Nat) : Prop :=
  let nonceLen := toUnsigned (jsonObjectGetNumber (groupAt groups i) "nonceLen")
  nonceLen ≤ drbgNonceBitMax ∨ 2 ^ 32 - 7 ≤ nonceLen

theorem readDrbgGroup_ok {algId : Cipher} {groupobj : Option JsonObject} {group : DrbgTestGroup}
    (h : readDrbgGroup algId groupobj = .ok group) :
    group.nonceLen = toUnsigned (jsonObjectGetNumber groupobj "nonceLen") ∧
      group.entropyLen ≤ drbgEntpyInBitMax ∧ group.persoStringLen ≤ drbgPerSoBitMax ∧
      group.drbLen ≤ drbBitMax ∧ group.additionalInputLen ≤ drbgAddiInBitMax := by
  simp only [readDrbgGroup, bind_eq_ok, stopIf_eq_ok, exists_const, pure_eq_ok] at h
  obtain ⟨_, -, _, -, _, -, _, -, _, -, _, -, hentropy, -, hperso, hdrb, haddi, rfl⟩ := h
  dsimp only
  refine ⟨rfl, ?_, ?_, ?_, ?_⟩ <;> omega

theorem readDrbgInput_ok {inputs : List Json} {index : Nat} {use : String} {input : DrbgInput}
    (h : readDrbgInput inputs index use = .ok input) :
    strnlenS input.entropyInput (drbgEntpyInStrMax + 1) ≤ drbgEntpyInStrMax := by
  simp only [readDrbgInput, bind_eq_ok, stopIf_eq_ok, exists_const, pure_eq_ok] at h
  obtain ⟨_, -, -, _, -, _, hentropy, rfl⟩ := h
  exact (readString_ok hentropy).2

theorem readStrings_ok {group : DrbgTestGroup} {testobj : Option JsonObject} {test : DrbgTest}
    (h : readStrings group testobj = .ok test) :
    strnlenS test.input1.entropyInput (drbgEntpyInStrMax + 1) ≤ drbgEntpyInStrMax ∧
      strnlenS test.input2.entropyInput (drbgEntpyInStrMax + 1) ≤ drbgEntpyInStrMax := by
  simp only [readStrings, bind_eq_ok, stopIf_eq_ok, exists_const, pure_eq_ok] at h
  obtain ⟨_, -, _, -, _, -, _, -, -, -, _, -, -, _, hinput1, _, hinput2, rfl⟩ := h
  exact ⟨readDrbgInput_ok hinput1, readDrbgInput_ok hinput2⟩

/-- The sizes of the buffers of a test case, and where its lengths come from. -/
theorem drbgInitTc_ok {tcId : Nat} {test : DrbgTest} {group : DrbgTestGroup} {algId : Cipher}
    {tc : DrbgTc} (h : drbgInitTc tcId test group algId = .ok tc) :
    tc.Fits ↔
      bit2byteUnsigned group.additionalInputLen ≤ drbgAddiInByteMax ∧
        bit2byteUnsigned group.entropyLen ≤ drbgEntpyInByteMax ∧
        strnlenS test.input1.entropyInput (drbgEntpyInStrMax + 1) / 2 ≤ drbgEntpyInByteMax ∧
        strnlenS test.input2.entropyInput (drbgEntpyInStrMax + 1) / 2 ≤ drbgEntpyInByteMax ∧
        bit2byteUnsigned group.persoStringLen ≤ drbgPerSoByteMax ∧
        bit2byteUnsigned group.nonceLen ≤ drbgNonceByteMax ∧
        bit2byteUnsigned group.drbLen ≤ drbByteMax := by
  simp only [drbgInitTc, bind_eq_ok, pure_eq_ok] at h
  obtain ⟨addi0, haddi0, pr0, hpr0, addi1, haddi1, pr1, hpr1, addi2, haddi2, pr2, hpr2, entropy,
    hentropy, perso, hperso, nonce, hnonce, rfl⟩ := h
  have hfirst : addi0.size = drbgAddiInByteMax := by
    rcases onlyIf_cases haddi0 with ⟨-, hdecode⟩ | ⟨-, rfl⟩
    · exact hexstrToBuffer_size hdecode
    · rfl
  have hfirstPr : pr0.size = drbgEntpyInByteMax := by
    rcases onlyIf_cases hpr0 with ⟨-, hdecode⟩ | ⟨-, rfl⟩
    · exact hexstrToBuffer_size hdecode
    · rfl
  unfold DrbgTc.Fits
  simp only [hfirst, hfirstPr, hexstrToBuffer_size haddi1, hexstrToBuffer_size hpr1,
    hexstrToBuffer_size haddi2, hexstrToBuffer_size hpr2, hexstrToBuffer_size hentropy,
    hexstrToBuffer_size hperso, hexstrToBuffer_size hnonce]
  constructor
  · rintro ⟨haddi, -, -, hpr0, hpr1, hpr2, hperso, -, hnonce, hdrb⟩
    exact ⟨haddi, hpr0, hpr1, hpr2, hperso, hnonce, hdrb⟩
  · rintro ⟨haddi, hpr0, hpr1, hpr2, hperso, hnonce, hdrb⟩
    exact ⟨haddi, haddi, haddi, hpr0, hpr1, hpr2, hperso, hpr0, hnonce, hdrb⟩

theorem drbg_fits_iff (ctx : KatCtx) : (drbgKatHandler ctx).CallsIff DrbgTc.Fits DrbgNonceFits := by
  refine callsIff_of_load ?_
  intro head bs bs' groupobj ts ts' t _ _ _ _ group tc _ henter _ hload
  simp only [drbgLoader, readDrbgTest, map_eq_ok, bind_eq_ok, Prod.mk.injEq] at henter hload
  obtain ⟨group', hgroup, rfl, -⟩ := henter
  obtain ⟨tc', ⟨test, hstrings, hinit⟩, htc, -⟩ := hload
  obtain rfl : tc' = tc := by simpa using htc
  obtain ⟨hnonce, hentropy, hperso, hdrb, haddi⟩ := readDrbgGroup_ok hgroup
  obtain ⟨hpr1, hpr2⟩ := readStrings_ok hstrings
  have hbound : group'.nonceLen < 2 ^ 32 := by
    rw [hnonce]
    exact toUnsigned_lt _
  rw [drbgInitTc_ok hinit]
  unfold DrbgNonceFits
  rw [groupAt_append, ← hnonce]
  unfold bit2byteUnsigned
  unfold drbgEntpyInBitMax at hentropy
  unfold drbgPerSoBitMax at hperso
  unfold drbBitMax at hdrb
  unfold drbgAddiInBitMax at haddi
  unfold drbgEntpyInStrMax at hpr1 hpr2
  unfold drbgAddiInByteMax drbgEntpyInByteMax drbgPerSoByteMax drbgNonceByteMax drbByteMax
    drbgNonceBitMax drbgEntpyInStrMax
  omega

end LibAmvp
