import LibAmvp.Kat.Answers
import LibAmvp.Lib.Memory
import LibAmvp.Lib.Player

/-!
# Symmetric ciphers

What the handlers of AES and of triple-DES share: the test case structure, whose buffers the
crypto module and the Monte Carlo loops change, and the readers of the names that both use.
-/

namespace LibAmvp

open Guard

/-! ## Limits -/

def symKeyMaxStr : Nat := 128
def symKeyMaxBytes : Nat := 64
def symPtBitMax : Nat := 131072
def symPtMax : Nat := 32768
def symPtByteMax : Nat := 16384
def symCtMax : Nat := 32768
def symCtByteMax : Nat := 16384
def symIvMax : Nat := 256
def symIvByteMax : Nat := 128
def symTagBitMin : Nat := 4
def symTagBitMax : Nat := 128
def symTagMax : Nat := 32
def symTagByteMax : Nat := 16
def symAadBitMax : Nat := 65536
def symAadMax : Nat := 16384
def symAadByteMax : Nat := 8192

/-! ## Test cases -/

/-- {lit}`AMVP_SYM_CIPH_DIR`. -/
inductive SymCiphDir where
  | encrypt | decrypt | both
deriving DecidableEq

/-- {lit}`AMVP_SYM_CIPH_TESTTYPE`. -/
inductive SymCiphTestType where
  | none | aft | ctr | mct
deriving DecidableEq

/-- {lit}`AMVP_SYM_CIPH_IVGEN_SRC`.  A capability for which no source was set has another
value. -/
inductive SymCiphIvgenSrc where
  | int | ext | either | na
  | other (raw : Int)
deriving DecidableEq

/-- The source that a capability holds. -/
def SymCiphIvgenSrc.ofInt : Int → SymCiphIvgenSrc
  | 1 => .int
  | 2 => .ext
  | 3 => .either
  | 4 => .na
  | raw => .other raw

/-- {lit}`AMVP_SYM_CIPH_IVGEN_MODE`, with zero where none was set. -/
inductive SymCiphIvgenMode where
  | unset | mode821 | mode822 | na
deriving DecidableEq

/-- {lit}`AMVP_SYM_CIPH_SALT_SRC`, with zero where none was set. -/
inductive SymCiphSaltSrc where
  | unset | int | ext | na
deriving DecidableEq

/-- {lit}`AMVP_SYM_KW_MODE`. -/
inductive SymKwMode where
  | none | cipher | inverse
deriving DecidableEq

/-- {lit}`AMVP_SYM_CIPH_TWEAK_MODE`, with zero where none was read. -/
inductive SymCiphTweakMode where
  | unset | hex | num | none
deriving DecidableEq

/-- {lit}`AMVP_SYM_CIPHER_TC`.  The buffers that a handler does not allocate hold zeros. -/
structure SymCipherTc where
  cipher : Cipher
  conformance : Int := 0
  testType : SymCiphTestType
  direction : SymCiphDir
  ivgenSource : SymCiphIvgenSrc := .other 0
  ivgenMode : SymCiphIvgenMode := .unset
  saltSource : SymCiphSaltSrc := .unset
  tcId : Nat
  key : Memory := .zero
  pt : Memory := .zero
  aad : Memory := .zero
  iv : Memory := .zero
  ct : Memory := .zero
  tag : Memory := .zero
  ivRet : Memory := .zero
  ivRetAfter : Memory := .zero
  salt : Memory := .zero
  kwcipher : SymKwMode := .none
  twMode : SymCiphTweakMode := .unset
  seqNum : Nat := 0
  keyLen : Nat
  ptLen : Nat := 0
  dataLen : Nat := 0
  aadLen : Nat := 0
  ivLen : Nat := 0
  ctLen : Nat := 0
  tagLen : Nat := 0
  saltLen : Nat := 0
  mctIndex : Nat := 0
  incrCtr : Nat := 0
  ovrflwCtr : Nat := 0
  keyingOption : Nat := 0
  dataUnitLen : Nat := 0

instance : Nonempty SymCipherTc :=
  ⟨{ cipher := .cipherStart, testType := .none, direction := .both, tcId := 0, keyLen := 0 }⟩

/-- {lit}`amvp_bin_to_hexstr` on a buffer of a test case. -/
def memoryToHexstr (src : Memory) (srcLen : Nat) (destMax : Nat) : Except AmvpResult String :=
  binToHexstr (some ⟨srcLen, src.read (intOfUnsigned srcLen).toNat⟩) (intOfUnsigned srcLen) destMax

/-- Set a member to the hexadecimal form of a buffer. -/
def setMemory (tcRsp : JsonObject) (name : String) (src : Memory) (srcLen destMax : Nat) :
    Except AmvpResult JsonObject := do
  let hexstr ← memoryToHexstr src srcLen destMax
  pure (jsonObjectSetText tcRsp name (some hexstr))

/-- The buffer that holds the bytes of a string that may be missing. -/
def decodeMemory (src : Option String) (destMax : Nat) : Except AmvpResult Memory :=
  onlyIf (src ≠ none) ((hexstrToBin src destMax).map .ofBytes) .zero

/-! ## Names -/

/-- {lit}`read_direction`. -/
def readDirection : String → Option SymCiphDir
  | "encrypt" => some .encrypt
  | "decrypt" => some .decrypt
  | _ => none

/-- {lit}`read_test_type`. -/
def readTestType : String → Option SymCiphTestType
  | "MCT" => some .mct
  | "AFT" => some .aft
  | "CTR" => some .ctr
  | _ => none

theorem readTestType_eq_mct {str : String} : readTestType str = some .mct ↔ str = "MCT" := by
  unfold readTestType
  split <;> simp_all

/-- A group of Monte Carlo tests. -/
def IsMct (groupobj : Option JsonObject) : Prop :=
  jsonObjectGetString groupobj "testType" = some "MCT"

/-- There are no Monte Carlo tests. -/
def NoMct (bs : List TestGroup) : Prop := ∀ b ∈ bs, IsMct b.head → b.items = []

/-- {lit}`amvp_get_aes_alg` and {lit}`amvp_get_tdes_alg` find an algorithm. -/
def hasSubAlg : Cipher → Bool
  | .cipherStart | .cipherEnd | .other _ => false
  | _ => true

/-- The length, in bytes, of a number of bits in an {lit}`unsigned int`. -/
def unsignedBytes (bits : Nat) : Nat := (bits + 7) % 2 ^ 32 / 8

/-- The work of a handler on groups and tests, with what lies in its static tables. -/
abbrev KatPlayer (σ κ γ τ : Type) :=
  Player σ κ (Option JsonObject) (Option JsonObject) γ τ AmvpResult JsonObject JsonObject

/-! ## Lengths of hexadecimal strings -/

theorem memoryToHexstr_ok {src : Memory} {srcLen destMax : Nat} (h : 2 * srcLen ≤ destMax)
    (hmax : destMax < 2 ^ 31) :
    memoryToHexstr src srcLen destMax = .ok (String.ofList (hexDigits (src.read srcLen))) := by
  have hint : intOfUnsigned srcLen = srcLen := by
    unfold intOfUnsigned
    rw [BitVec.toInt_eq_toNat_of_lt] <;> simp <;> omega
  have hread : Buffer.read ⟨srcLen, src.read srcLen⟩ srcLen = src.read srcLen := by
    simp [Buffer.read]
  unfold memoryToHexstr binToHexstr
  rw [hint, Int.toNat_natCast, need_some, ok_bind, stopIf_neg (by omega), ok_bind, hread]
  rfl

theorem setMemory_ok {tcRsp : JsonObject} {name : String} {src : Memory} {srcLen destMax : Nat}
    (h : 2 * srcLen ≤ destMax) (hmax : destMax < 2 ^ 31) :
    setMemory tcRsp name src srcLen destMax = .ok (jsonObjectSetText tcRsp name
      (some (String.ofList (hexDigits (src.read srcLen))))) := by
  rw [setMemory, memoryToHexstr_ok h hmax]
  rfl

/-- A group of the response shows its tests. -/
theorem responseGroup_inj {key : String} (hkey : key ≠ "tests") {tgId : Int}
    {tests tests' : List JsonObject}
    (h : responseGroup key tgId tests = responseGroup key tgId tests') : tests = tests' := by
  have hobjects := objectsOf_responseGroup key tgId tests hkey
  rw [h, objectsOf_responseGroup key tgId tests' hkey] at hobjects
  exact (List.map_injective_iff.mpr (Option.some_injective _) hobjects).symm

/-! ## Probes

A module that marks one test case shows what the handler reads; in the rounds of a Monte Carlo
test it shows the tables. -/

open Classical in
/-- A module that leaves a test case of its own, and marks one that it is given. -/
noncomputable def symProbe (showing : UInt8 → SymCipherTc) (marked : SymCipherTc) :
    SymCipherTc → Int × SymCipherTc := fun tc =>
  (0, showing (if tc.testType ≠ .mct ∧ tc = marked then 1 else 0))

open Classical in
/-- What becomes of a test with such a module: the rounds of a Monte Carlo test, or a text. -/
noncomputable def symProbed (rounds : SymCipherTc → List JsonObject) (text : UInt8 → String)
    (marked : SymCipherTc) (t : Option JsonObject) (tc : SymCipherTc) : JsonObject :=
  if tc.testType = .mct then
    jsonObjectSetValue (responseTest t) "resultsArray" (.arr ((rounds tc).map .obj))
  else
    jsonObjectSetText (responseTest t) "ct" (some (text (if tc = marked then 1 else 0)))

theorem symProbed_mct (rounds : SymCipherTc → List JsonObject) (text : UInt8 → String)
    (marked : SymCipherTc) (t : Option JsonObject) {tc : SymCipherTc} (h : tc.testType = .mct) :
    symProbed rounds text marked t tc =
      jsonObjectSetValue (responseTest t) "resultsArray" (.arr ((rounds tc).map .obj)) :=
  if_pos h

theorem symProbe_mct (showing : UInt8 → SymCipherTc) (marked : SymCipherTc) {tc : SymCipherTc}
    (h : tc.testType = .mct) : symProbe showing marked tc = (0, showing 0) := by
  simp [symProbe, h]

open Classical in
theorem symProbe_single (showing : UInt8 → SymCipherTc) (marked : SymCipherTc) {tc : SymCipherTc}
    (h : tc.testType ≠ .mct) :
    symProbe showing marked tc = (0, showing (if tc = marked then 1 else 0)) := by
  simp [symProbe, h]

/-- A Monte Carlo test shows its rounds. -/
theorem symProbed_mct_ne {rounds rounds' : SymCipherTc → List JsonObject} (text : UInt8 → String)
    (marked : SymCipherTc) (t : Option JsonObject) {tc : SymCipherTc} (htype : tc.testType = .mct)
    (hrounds : rounds tc ≠ rounds' tc) :
    symProbed rounds text marked t tc ≠ symProbed rounds' text marked t tc := by
  intro hsame
  rw [symProbed_mct _ _ _ _ htype, symProbed_mct _ _ _ _ htype] at hsame
  have hvalue := congrArg (fun obj => jsonObjectGetValue (some obj) "resultsArray") hsame
  simp only [jsonObjectGetValue_set, Option.some.injEq, Json.arr.injEq] at hvalue
  exact hrounds (List.map_injective_iff.mpr (fun _ _ => Json.obj.inj) hvalue)

/-- Another test shows whether it is marked. -/
theorem symProbed_ne (rounds : SymCipherTc → List JsonObject) {text : UInt8 → String}
    (htext : text 0 ≠ text 1) {marked tc : SymCipherTc} (t : Option JsonObject)
    (htype : tc.testType ≠ .mct) (htype' : marked.testType ≠ .mct) (hne : tc ≠ marked) :
    symProbed rounds text marked t tc ≠ symProbed rounds text marked t marked := by
  intro hsame
  simp only [symProbed, if_neg htype, if_neg htype', if_neg hne, if_true] at hsame
  have hvalue := congrArg (fun obj => jsonObjectGetValue (some obj) "ct") hsame
  simp only [jsonObjectSetText, jsonObjectGetValue_set] at hvalue
  exact htext (Json.str.inj (Option.some.inj hvalue))

/-- A handler shows what it reads when the rounds of its Monte Carlo tests show its tables. -/
theorem shows_of_probes {σ κ γ : Type} {l : KatPlayer σ κ γ SymCipherTc}
    {testType : γ → SymCiphTestType} {doomed : γ → Prop} {Ready : γ → SymCipherTc → Prop}
    (hready : ∀ c tc, Ready c tc → tc.testType = testType c) {Show : UInt8 → κ → Prop}
    (hshow : ∀ byte, ∃ k, Show byte k) {rounds : UInt8 → SymCipherTc → List JsonObject}
    (hrounds : ∀ tc, rounds 0 tc ≠ rounds 1 tc) {text : UInt8 → String} (htext : text 0 ≠ text 1)
    {showing : UInt8 → SymCipherTc} (marked : SymCipherTc)
    (hprobes : ∀ byte, l.Probes doomed Ready (symProbe showing marked) (Show byte)
      fun _ t tc => symProbed (rounds byte) text marked t tc) :
    l.Shows (fun c => testType c = .mct) doomed Ready marked := by
  refine ⟨_, _, _, _, _, hshow 0, hshow 1, hprobes 0, hprobes 1, ?_, ?_⟩
  · intro c t tc hmct _ htc
    exact symProbed_mct_ne text marked t ((hready c tc htc).trans hmct) (hrounds tc)
  · intro c t tc hsingle _ hmarked htc hne
    have htype : tc.testType ≠ .mct := fun h => hsingle ((hready c tc htc).symm.trans h)
    have htype' : marked.testType ≠ .mct :=
      fun h => hsingle ((hready c marked hmarked).symm.trans h)
    exact symProbed_ne _ htext t htype htype' hne

end LibAmvp
