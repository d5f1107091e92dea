import LibAmvp.Capabilities.Kdf
import LibAmvp.Kat.VectorSet

/-!
# The SP 800-135 handlers

The handlers of the key derivation functions of IKEv1, ANSI X9.63 and ANSI X9.42.  Each of
them stores the cipher in the test case structure once, before the function that fills the
structure clears it.  The IKEv1 handler keeps the pre-shared key and its length in variables
of the function, which only groups that authenticate with such a key set.

Main results:

- Theorem {lit}`ikev1_independentIff`: the test case of an IKEv1 test is its own exactly
  when no earlier group has left a pre-shared key behind.
- Theorem {lit}`x963_fits_iff`: when the lengths of an X9.63 test case stay within its
  buffers.
-/

namespace LibAmvp

open Guard

/-- The head of a handler for one algorithm and mode. -/
def setupWithMode (ctx : KatCtx) (cipher : Cipher) (missing : AmvpResult) (obj : JsonObject) :
    Except AmvpResult String := do
  let algStr ← need (jsonObjectGetString (some obj) "algorithm") missing
  let modeStr ← need (jsonObjectGetString (some obj) "mode") missing
  stopIf (lookupCipherWModeIndex algStr (some modeStr) ≠ some cipher) .invalidArg
  let _ ← need (ctx.caps.locate cipher) .unsupportedOp
  pure algStr

/-! ## IKEv1 -/

def kdf135Ikev1CookieStrMax : Nat := 32
def kdf135Ikev1CookieByteMax : Nat := 16
def kdf135Ikev1SkeyByteMax : Nat := 64
def kdf135Ikev1SkeyStrMax : Nat := 128
def kdf135Ikev1NonceByteMax : Nat := 256
def kdf135Ikev1NonceStrMax : Nat := 512
def kdf135Ikev1DhSharedSecretByteMax : Nat := 1024
def kdf135Ikev1DhSharedSecretStrMax : Nat := 2048
def kdf135Ikev1PskByteMax : Nat := 1024
def kdf135Ikev1PskStrMax : Nat := 2048

/-- {lit}`AMVP_KDF135_IKEV1_AUTH_METHOD`. -/
inductive Ikev1AuthMethod where
  | dsa | psk | pke
deriving DecidableEq

/-- {lit}`read_auth_method`. -/
def readAuthMethod (str : String) : Option Ikev1AuthMethod :=
  if str = "dsa" then some .dsa
  else if str = "psk" then some .psk
  else if str = "pke" then some .pke
  else none

/-- {lit}`AMVP_KDF135_IKEV1_TC`. -/
structure Ikev1Tc where
  cipher : Cipher := .cipherStart
  tcId : Nat
  hashAlg : HashAlg
  authMethod : Ikev1AuthMethod
  initNonceLen : Int
  respNonceLen : Int
  dhSecretLen : Int
  pskLen : Int
  initNonce : Buffer
  respNonce : Buffer
  initCkey : Buffer
  respCkey : Buffer
  gxy : Buffer
  psk : Option Buffer
  sKeyId : Buffer := ⟨kdf135Ikev1SkeyByteMax, []⟩
  sKeyIdLen : Int := 0
  sKeyIdD : Buffer := ⟨kdf135Ikev1SkeyByteMax, []⟩
  sKeyIdDLen : Int := 0
  sKeyIdA : Buffer := ⟨kdf135Ikev1SkeyByteMax, []⟩
  sKeyIdALen : Int := 0
  sKeyIdE : Buffer := ⟨kdf135Ikev1SkeyByteMax, []⟩
  sKeyIdELen : Int := 0
deriving DecidableEq

/-- {lit}`amvp_kdf135_ikev1_init_tc`. -/
def ikev1InitTc (tcId : Nat) (hashAlg : HashAlg) (authMethod : Ikev1AuthMethod)
    (initNonceLen respNonceLen dhSecretLen pskLen : Int)
    (initNonce respNonce initCkey respCkey gxy : String) (psk : Option String) :
    Except AmvpResult Ikev1Tc := do
  let initNonce ← hexstrToBuffer (some initNonce) kdf135Ikev1NonceByteMax
  let respNonce ← hexstrToBuffer (some respNonce) kdf135Ikev1NonceByteMax
  let initCkey ← hexstrToBuffer (some initCkey) kdf135Ikev1CookieByteMax
  let respCkey ← hexstrToBuffer (some respCkey) kdf135Ikev1CookieByteMax
  let gxy ← hexstrToBuffer (some gxy) kdf135Ikev1DhSharedSecretByteMax
  let psk ← onlyIf (psk ≠ none) ((hexstrToBuffer psk kdf135Ikev1PskByteMax).map some) none
  pure {
    tcId := tcId
    hashAlg := hashAlg
    authMethod := authMethod
    initNonceLen := bit2byte initNonceLen
    respNonceLen := bit2byte respNonceLen
    dhSecretLen := bit2byte dhSecretLen
    pskLen := bit2byte pskLen
    initNonce := initNonce
    respNonce := respNonce
    initCkey := initCkey
    respCkey := respCkey
    gxy := gxy
    psk := psk }

/-- {lit}`amvp_kdf135_ikev1_output_tc`. -/
def ikev1OutputTc (stc : Ikev1Tc) (tcRsp : JsonObject) : Except AmvpResult JsonObject := do
  let sKeyId ← binToHexstr (some stc.sKeyId) stc.sKeyIdLen kdf135Ikev1SkeyStrMax
  let tcRsp := jsonObjectSetText tcRsp "sKeyId" (some sKeyId)
  let sKeyIdD ← binToHexstr (some stc.sKeyIdD) stc.sKeyIdDLen kdf135Ikev1SkeyStrMax
  let tcRsp := jsonObjectSetText tcRsp "sKeyIdD" (some sKeyIdD)
  let sKeyIdA ← binToHexstr (some stc.sKeyIdA) stc.sKeyIdALen kdf135Ikev1SkeyStrMax
  let tcRsp := jsonObjectSetText tcRsp "sKeyIdA" (some sKeyIdA)
  let sKeyIdE ← binToHexstr (some stc.sKeyIdE) stc.sKeyIdELen kdf135Ikev1SkeyStrMax
  pure (jsonObjectSetText tcRsp "sKeyIdE" (some sKeyIdE))

/-- What the handler reads of a group, apart from the length of the pre-shared key. -/
structure Ikev1Group where
  tgId : Int
  hashAlg : HashAlg
  authMethod : Ikev1AuthMethod
  initNonceLen : Nat
  respNonceLen : Nat
  dhSecretLen : Int

/-- The variables that keep their values from group to group and from test to test. -/
structure Ikev1Vars where
  pskLen : Int := 0
  psk : Option String := none

/-- The part of {lit}`amvp_kdf135_ikev1_kat_handler` that reads a group, up to the length of
the pre-shared key. -/
def readIkev1Group (groupobj : Option JsonObject) : Except AmvpResult Ikev1Group := do
  let tgId ← readTgId groupobj .malformedJson
  let hashAlgStr ← need (jsonObjectGetString groupobj "hashAlg") .missingArg
  let hashAlg ← need (lookupHashAlg hashAlgStr) .invalidArg
  stopIf (hashAlg ∉ ikeHashAlgs) .invalidArg
  let authMethodStr ← need (jsonObjectGetString groupobj "authenticationMethod") .missingArg
  let authMethod ← need (readAuthMethod authMethodStr) .invalidArg
  let initNonceLen := toUnsigned (jsonObjectGetNumber groupobj "nInitLength")
  stopIf (¬(kdf135Ikev1InitNonceBitMin ≤ initNonceLen ∧
    initNonceLen ≤ kdf135Ikev1InitNonceBitMax)) .invalidArg
  let respNonceLen := toUnsigned (jsonObjectGetNumber groupobj "nRespLength")
  stopIf (¬(kdf135Ikev1RespNonceBitMin ≤ respNonceLen ∧
    respNonceLen ≤ kdf135Ikev1RespNonceBitMax)) .invalidArg
  let dhSecretLen := toInt (jsonObjectGetNumber groupobj "dhLength")
  stopIf (¬(kdf135Ikev1DhSharedSecretBitMin ≤ dhSecretLen ∧
    dhSecretLen ≤ kdf135Ikev1DhSharedSecretBitMax)) .invalidArg
  pure ⟨tgId, hashAlg, authMethod, initNonceLen, respNonceLen, dhSecretLen⟩

/-- The length of the pre-shared key of a group that authenticates with one. -/
def readIkev1PskLen (groupobj : Option JsonObject) : Except AmvpResult Int := do
  let pskLen := toInt (jsonObjectGetNumber groupobj "preSharedKeyLength")
  stopIf (¬(kdf135Ikev1PskBitMin ≤ pskLen ∧ pskLen ≤ kdf135Ikev1PskBitMax)) .invalidArg
  pure pskLen

/-- The pre-shared key of a test. -/
def readIkev1Psk (testobj : Option JsonObject) : Except AmvpResult (Option String) := do
  let psk ← need (jsonObjectGetString testobj "preSharedKey") .missingArg
  stopIf (strnlenS psk (kdf135Ikev1PskStrMax + 1) > kdf135Ikev1PskStrMax) .invalidArg
  pure (some psk)

/-- The part of {lit}`amvp_kdf135_ikev1_kat_handler` that reads a test. -/
def readIkev1Test (vars : Ikev1Vars) (group : Ikev1Group) (testobj : Option JsonObject) :
    Except AmvpResult (Ikev1Tc × Ikev1Vars) := do
  let tcId := readTcId testobj
  let initNonce ← need (jsonObjectGetString testobj "nInit") .missingArg
  stopIf (strnlenS initNonce (kdf135Ikev1NonceStrMax + 1) ≠ (group.initNonceLen + 7) / 8 * 2)
    .invalidArg
  let respNonce ← need (jsonObjectGetString testobj "nResp") .missingArg
  stopIf (strnlenS respNonce (kdf135Ikev1NonceStrMax + 1) ≠ (group.respNonceLen + 7) / 8 * 2)
    .invalidArg
  let initCkey ← need (jsonObjectGetString testobj "ckyInit") .missingArg
  stopIf (strnlenS initCkey (kdf135Ikev1CookieStrMax + 1) > kdf135Ikev1CookieStrMax) .invalidArg
  let respCkey ← need (jsonObjectGetString testobj "ckyResp") .missingArg
  stopIf (strnlenS respCkey (kdf135Ikev1CookieStrMax + 1) > kdf135Ikev1CookieStrMax) .invalidArg
  let gxy ← need (jsonObjectGetString testobj "gxy") .missingArg
  stopIf (strnlenS gxy (kdf135Ikev1DhSharedSecretStrMax + 1) > kdf135Ikev1DhSharedSecretStrMax)
    .invalidArg
  let psk ← onlyIf (group.authMethod = .psk) (readIkev1Psk testobj) vars.psk
  let tc ← ikev1InitTc tcId group.hashAlg group.authMethod group.initNonceLen
    group.respNonceLen group.dhSecretLen vars.pskLen initNonce respNonce initCkey respCkey gxy psk
  pure (tc, { vars with psk := psk })

/-- The loops of {lit}`amvp_kdf135_ikev1_kat_handler`. -/
def ikev1Loader : KatLoader Ikev1Vars Ikev1Group Ikev1Tc where
  start := {}
  enter vars groupobj _ := do
    let group ← readIkev1Group groupobj
    let pskLen ← onlyIf (group.authMethod = .psk) (readIkev1PskLen groupobj) vars.pskLen
    pure (group, { vars with pskLen := pskLen })
  load vars group testobj :=
    (readIkev1Test vars group testobj).map fun out => ({ question := out.1 }, out.2)
  finish _ testobj tc := ikev1OutputTc tc (responseTest testobj)
  close group tests := responseGroup "tgId" group.tgId tests
  refused := .cryptoModuleFail

/-- {lit}`amvp_kdf135_ikev1_kat_handler`. -/
def ikev1KatHandler (ctx : KatCtx) : KatHandler Ikev1Tc :=
  katHandler (setupWithMode ctx .kdf135Ikev1 .malformedJson) (fun _ => ikev1Loader.worker)
    (responseObject ctx.vsId)

theorem readIkev1Group_ok {groupobj : Option JsonObject} {group : Ikev1Group}
    (h : readIkev1Group groupobj = .ok group) :
    group.authMethod = .psk ↔
      jsonObjectGetString groupobj "authenticationMethod" = some "psk" := by
  simp only [readIkev1Group, bind_eq_ok, need_eq_ok, pure_eq_ok] at h
  obtain ⟨tgId, -, -, -, -, -, -, -, methodStr, hstr, method, hmethod, -, -, -, -, -, -, rfl⟩ := h
  rw [hstr, Option.some.injEq]
  unfold readAuthMethod at hmethod
  split_ifs at hmethod with hdsa hpsk hpke <;> cases hmethod <;> simp_all

theorem readIkev1PskLen_pos {groupobj : Option JsonObject} {pskLen : Int}
    (h : readIkev1PskLen groupobj = .ok pskLen) : 0 < pskLen := by
  simp only [readIkev1PskLen, bind_eq_ok, stopIf_eq_ok, pure_eq_ok, exists_const, not_not] at h
  obtain ⟨⟨hmin, -⟩, rfl⟩ := h
  unfold kdf135Ikev1PskBitMin at hmin
  omega

theorem ikev1_enter_ok {vars vars' : Ikev1Vars} {groupobj : Option JsonObject} {n : Nat}
    {group : Ikev1Group} (h : ikev1Loader.enter vars groupobj n = .ok (group, vars')) :
    readIkev1Group groupobj = .ok group ∧ vars'.psk = vars.psk ∧
      (group.authMethod ≠ .psk → vars'.pskLen = vars.pskLen) ∧
      (group.authMethod = .psk → readIkev1PskLen groupobj = .ok vars'.pskLen) := by
  simp only [ikev1Loader, bind_eq_ok, pure_eq_ok, Prod.mk.injEq] at h
  obtain ⟨group', hread, pskLen, hlen, rfl, rfl⟩ := h
  refine ⟨hread, rfl, ?_, ?_⟩
  · intro hmethod
    rw [onlyIf_neg hmethod] at hlen
    exact (Except.ok.inj hlen).symm
  · intro hmethod
    rwa [onlyIf_pos hmethod] at hlen

/-- A test is read with the pre-shared key in the variable or, when its group authenticates
with one, with its own. -/
theorem readIkev1Test_ok {vars vars' : Ikev1Vars} {group : Ikev1Group}
    {testobj : Option JsonObject} {tc : Ikev1Tc}
    (h : readIkev1Test vars group testobj = .ok (tc, vars')) :
    vars'.pskLen = vars.pskLen ∧ tc.pskLen = bit2byte vars.pskLen ∧
      (group.authMethod ≠ .psk → vars' = vars) ∧
      (group.authMethod = .psk → ∀ vars₁ : Ikev1Vars, vars₁.pskLen = vars.pskLen →
        readIkev1Test vars₁ group testobj = .ok (tc, vars')) := by
  have hfields := h
  simp only [readIkev1Test, ikev1InitTc, bind_eq_ok, stopIf_eq_ok, exists_const, pure_eq_ok,
    Prod.mk.injEq] at hfields
  obtain ⟨initNonce, -, -, respNonce, -, -, initCkey, -, -, respCkey, -, -, gxy, -, -, psk, hpsk,
    tc', ⟨_, -, _, -, _, -, _, -, _, -, _, -, rfl⟩, rfl, rfl⟩ := hfields
  refine ⟨rfl, rfl, ?_, ?_⟩
  · intro hmethod
    rw [onlyIf_neg hmethod] at hpsk
    cases hpsk
    rfl
  · intro hmethod vars₁ hlen
    simp only [readIkev1Test, onlyIf_pos hmethod, hlen] at h ⊢
    exact h

theorem ikev1_load_ok {vars vars' : Ikev1Vars} {group : Ikev1Group}
    {testobj : Option JsonObject} {tc : Ikev1Tc} {sent : Bool}
    (h : ikev1Loader.load vars group testobj = .ok (⟨tc, sent⟩, vars')) :
    readIkev1Test vars group testobj = .ok (tc, vars') := by
  simp only [ikev1Loader, map_eq_ok, Prod.mk.injEq, Draft.mk.injEq] at h
  obtain ⟨⟨tc', vars₁⟩, hread, ⟨rfl, -⟩, rfl⟩ := h
  exact hread

/-- Some group authenticates with a pre-shared key. -/
def hasPskGroup (groups : List TestGroup) : Prop :=
  ∃ b ∈ groups, jsonObjectGetString b.head "authenticationMethod" = some "psk"

/-- The group authenticates with a pre-shared key itself, or no group before it does. -/
def Ikev1OwnPsk (groups : List TestGroup) (i _j : Nat) : Prop :=
  jsonObjectGetString (groupAt groups i) "authenticationMethod" = some "psk" ∨
    ¬hasPskGroup (groups.take i)

/-- The tests of a group keep the length, and without a pre-shared key also the key. -/
theorem ikev1_carryItems {group : Ikev1Group} {vars vars' : Ikev1Vars}
    {ts : List (Option JsonObject)} (h : ikev1Loader.carryItems group vars ts = .ok vars') :
    vars'.pskLen = vars.pskLen ∧ (group.authMethod ≠ .psk → vars' = vars) := by
  refine Loader.carryItems_induction (Q := fun _ vars' => vars'.pskLen = vars.pskLen ∧
    (group.authMethod ≠ .psk → vars' = vars)) ⟨rfl, fun _ => rfl⟩ ?_ h
  intro ts t vars₁ draft vars₂ ⟨hlen, hkeep⟩ hload
  obtain ⟨hlen', -, hkeep', -⟩ := readIkev1Test_ok (ikev1_load_ok hload)
  exact ⟨hlen'.trans hlen, fun hmethod => (hkeep' hmethod).trans (hkeep hmethod)⟩

/-- What the groups before have left of the pre-shared key. -/
theorem ikev1_carry {bs : List TestGroup} {vars : Ikev1Vars}
    (h : ikev1Loader.carry ikev1Loader.start bs = .ok vars) :
    (hasPskGroup bs → 0 < vars.pskLen) ∧ (¬hasPskGroup bs → vars = {}) := by
  refine Loader.carry_induction (P := fun bs vars =>
    (hasPskGroup bs → 0 < vars.pskLen) ∧ (¬hasPskGroup bs → vars = {}))
    ⟨by simp [hasPskGroup], fun _ => rfl⟩ ?_ h
  intro bs b vars₀ group vars₁ vars₂ ⟨hhas, hnot⟩ henter hitems
  obtain ⟨hread, hpsk, hother, hown⟩ := ikev1_enter_ok henter
  obtain ⟨hlen, hkeep⟩ := ikev1_carryItems hitems
  have hmethod := readIkev1Group_ok hread
  have hnext : hasPskGroup (bs ++ [b]) ↔ hasPskGroup bs ∨ group.authMethod = .psk := by
    rw [hmethod]
    simp only [hasPskGroup, List.mem_append, List.mem_singleton, or_and_right, exists_or,
      exists_eq_left]
  rw [hnext, hlen]
  by_cases hauth : group.authMethod = .psk
  · simp [hauth, readIkev1PskLen_pos (hown hauth)]
  · simp only [hauth, or_false, hother hauth]
    refine ⟨hhas, fun hno => ?_⟩
    rw [hkeep hauth]
    have hstart := hnot hno
    cases vars₁
    simp_all

/-- The test case of an IKEv1 test is its own exactly when no earlier group has left a
pre-shared key behind. -/
theorem ikev1_independentIff (ctx : KatCtx) :
    (ikev1KatHandler ctx).IndependentIff Ikev1OwnPsk := by
  refine aloneIff_of_alone ?_
  intro _ bs bs' groupobj ts ts' t vars₀ vars₁ vars₂ vars₃ group tc hbefore henter hitems hload
  obtain ⟨hgroup, hpsk, hother, hown⟩ := ikev1_enter_ok henter
  obtain ⟨hlen, hkeep⟩ := ikev1_carryItems hitems
  have hread := ikev1_load_ok hload
  obtain ⟨-, htcLen, -, hsame⟩ := readIkev1Test_ok hread
  obtain ⟨hhas, hnot⟩ := ikev1_carry hbefore
  unfold Ikev1OwnPsk
  rw [groupAt_append, List.take_left, ← readIkev1Group_ok hgroup]
  by_cases hauth : group.authMethod = .psk
  · have halone : ikev1Loader.alone groupobj t = some tc := by
      have hread' := hsame hauth { pskLen := vars₁.pskLen } hlen.symm
      simp only [Loader.alone, ikev1Loader, hgroup, ok_bind, onlyIf_pos hauth, hown hauth,
        Except.pure, pure, hread', Except.map]
    simp [halone, hauth]
  · have halone : ikev1Loader.alone groupobj t =
        ((readIkev1Test {} group t).map Prod.fst).toOption := by
      simp only [Loader.alone, ikev1Loader, hgroup, ok_bind, onlyIf_neg hauth, Except.pure, pure]
      rcases readIkev1Test {} group t with _ | ⟨tc', vars'⟩ <;> rfl
    rw [halone]
    have hvars : vars₂ = vars₀ := by
      rw [hkeep hauth]
      have hpskLen := hother hauth
      cases vars₁
      cases vars₀
      simp_all
    rw [hvars] at hread htcLen
    by_cases hbs : hasPskGroup bs
    · simp only [hauth, hbs, not_true_eq_false, or_self, iff_false]
      intro hequal
      rcases hother' : readIkev1Test {} group t with _ | ⟨tc', vars'⟩
      · simp [hother', Except.map, Except.toOption] at hequal
      · simp only [hother', Except.map, Except.toOption, Option.some.injEq] at hequal
        have hzero := (readIkev1Test_ok hother').2.1
        have hpos := hhas hbs
        rw [hequal, htcLen] at hzero
        unfold bit2byte at hzero
        dsimp only at hzero
        omega
    · rw [hnot hbs] at hread
      simp [hread, hbs, Except.map, Except.toOption]

/-! ## ANSI X9.63 -/

def kdf135X963KeydataMaxChars : Nat := 1024
def kdf135X963KeydataMaxBytes : Nat := 512
def kdf135X963InputMax : Nat := 128

/-- {lit}`AMVP_KDF135_X963_TC`. -/
structure X963Tc where
  cipher : Cipher := .cipherStart
  tcId : Nat
  hashAlg : HashAlg
  fieldSize : Int
  keyDataLen : Int
  sharedInfoLen : Int
  zLen : Int
  z : Buffer
  sharedInfo : Buffer
  keyData : Buffer := ⟨kdf135X963KeydataMaxBytes, []⟩
deriving DecidableEq

/-- {lit}`amvp_kdf135_x963_init_tc`. -/
def x963InitTc (tcId : Nat) (hashAlg : HashAlg) (fieldSize keyDataLength sharedInfoLength : Int)
    (z sharedInfo : String) : Except AmvpResult X963Tc := do
  let zData ← hexstrToBin (some z) kdf135X963InputMax
  let sharedInfoData ← hexstrToBin (some sharedInfo) kdf135X963InputMax
  pure {
    tcId := tcId
    hashAlg := hashAlg
    fieldSize := fieldSize.tdiv 8
    keyDataLen := keyDataLength.tdiv 8
    sharedInfoLen := sharedInfoLength.tdiv 8
    zLen := zData.length
    z := ⟨kdf135X963InputMax, zData⟩
    sharedInfo := ⟨kdf135X963InputMax, sharedInfoData⟩ }

/-- {lit}`amvp_kdf135_x963_output_tc`: whatever becomes of the conversion, the function
succeeds. -/
def x963OutputTc (stc : X963Tc) (tcRsp : JsonObject) : Except AmvpResult JsonObject :=
  match binToHexstr (some stc.keyData) stc.keyDataLen kdf135X963KeydataMaxChars with
  | .ok keyData => .ok (jsonObjectSetText tcRsp "keyData" (some keyData))
  | .error _ => .ok tcRsp

/-- What the handler reads of a group. -/
structure X963Group where
  tgId : Int
  fieldSize : Int
  keyDataLength : Int
  sharedInfoLen : Int
  hashAlg : HashAlg

/-- The part of {lit}`amvp_kdf135_x963_kat_handler` that reads a group with a number of
tests. -/
def readX963Group (groupobj : Option JsonObject) (tests : Nat) : Except AmvpResult X963Group := do
  let tgId ← readTgId groupobj .malformedJson
  let fieldSize := toInt (jsonObjectGetNumber groupobj "fieldSize")
  stopIf (fieldSize = 0) .missingArg
  let keyDataLength := toInt (jsonObjectGetNumber groupobj "keyDataLength")
  stopIf (keyDataLength = 0) .missingArg
  let sharedInfoLen := toInt (jsonObjectGetNumber groupobj "sharedInfoLength")
  let hashAlgStr ← need (jsonObjectGetString groupobj "hashAlg") .missingArg
  let hashAlg ← need (lookupHashAlg hashAlgStr) .invalidArg
  stopIf (hashAlg ∉ [.sha224, .sha256, .sha384, .sha512]) .invalidArg
  stopIf (tests = 0) .missingArg
  pure ⟨tgId, fieldSize, keyDataLength, sharedInfoLen, hashAlg⟩

/-- The part of {lit}`amvp_kdf135_x963_kat_handler` that reads a test. -/
def readX963Test (group : X963Group) (testobj : Option JsonObject) : Except AmvpResult X963Tc := do
  let tcId := readTcId testobj
  stopIf (tcId = 0) .missingArg
  let z ← need (jsonObjectGetString testobj "z") .invalidArg
  let sharedInfo ← need (jsonObjectGetString testobj "sharedInfo") .invalidArg
  x963InitTc tcId group.hashAlg group.fieldSize group.keyDataLength group.sharedInfoLen z
    sharedInfo

/-- The loops of {lit}`amvp_kdf135_x963_kat_handler`; no variable keeps its value. -/
def x963Loader : KatLoader Unit X963Group X963Tc where
  start := ()
  enter _ groupobj tests := (readX963Group groupobj tests).map (·, ())
  load _ group testobj := (readX963Test group testobj).map ({ question := · }, ())
  finish _ testobj tc := x963OutputTc tc (responseTest testobj)
  close group tests := responseGroup "tgId" group.tgId tests
  refused := .cryptoModuleFail

/-- {lit}`amvp_kdf135_x963_kat_handler`. -/
def x963KatHandler (ctx : KatCtx) : KatHandler X963Tc :=
  katHandler (setupWithMode ctx .kdf135X963 .missingArg) (fun _ => x963Loader.worker)
    (fun algStr groups => jsonObjectSetText (responseObject ctx.vsId algStr groups) "mode"
      (some "ansix9.63")) (some .missingArg)

/-- The lengths of an X9.63 test case are within its buffers. -/
def X963Tc.Fits (tc : X963Tc) : Prop :=
  tc.keyDataLen ≤ tc.keyData.size ∧ tc.sharedInfoLen ≤ tc.sharedInfo.size ∧ tc.zLen ≤ tc.z.size

/-- The lengths that the group gives are within the limits. -/
def X963LengthsFit (groups : List TestGroup) (i _j : Nat) : Prop :=
  (toInt (jsonObjectGetNumber (groupAt groups i) "keyDataLength")).tdiv 8 ≤
      kdf135X963KeydataMaxBytes ∧
    (toInt (jsonObjectGetNumber (groupAt groups i) "sharedInfoLength")).tdiv 8 ≤
      kdf135X963InputMax

theorem readX963Group_ok {groupobj : Option JsonObject} {tests : Nat} {group : X963Group}
    (h : readX963Group groupobj tests = .ok group) :
    group.keyDataLength = toInt (jsonObjectGetNumber groupobj "keyDataLength") ∧
      group.sharedInfoLen = toInt (jsonObjectGetNumber groupobj "sharedInfoLength") := by
  simp only [readX963Group, bind_eq_ok, stopIf_eq_ok, exists_const, pure_eq_ok] at h
  obtain ⟨tgId, -, -, -, _, -, _, -, -, -, rfl⟩ := h
  exact ⟨rfl, rfl⟩

theorem readX963Test_ok {group : X963Group} {testobj : Option JsonObject} {tc : X963Tc}
    (h : readX963Test group testobj = .ok tc) :
    tc.keyDataLen = group.keyDataLength.tdiv 8 ∧ tc.keyData.size = kdf135X963KeydataMaxBytes ∧
      tc.sharedInfoLen = group.sharedInfoLen.tdiv 8 ∧ tc.sharedInfo.size = kdf135X963InputMax ∧
      tc.zLen ≤ kdf135X963InputMax ∧ tc.z.size = kdf135X963InputMax := by
  simp only [readX963Test, x963InitTc, bind_eq_ok, stopIf_eq_ok, exists_const, pure_eq_ok] at h
  obtain ⟨-, z, -, sharedInfo, -, zData, hz, sharedInfoData, -, rfl⟩ := h
  have hlength := hexstrToBin_length_le hz (by decide)
  exact ⟨rfl, rfl, rfl, rfl, Int.ofNat_le.mpr hlength, rfl⟩

theorem x963_load_ok {group : X963Group} {testobj : Option JsonObject} {tc : X963Tc}
    {sent : Bool} (h : x963Loader.load () group testobj = .ok (⟨tc, sent⟩, ())) :
    readX963Test group testobj = .ok tc ∧ sent = true := by
  simp only [x963Loader, map_eq_ok, Prod.mk.injEq, Draft.mk.injEq] at h
  obtain ⟨tc', hread, ⟨rfl, hsent⟩, -⟩ := h
  exact ⟨hread, hsent.symm⟩

theorem x963_fits_iff (ctx : KatCtx) : (x963KatHandler ctx).CallsIff X963Tc.Fits X963LengthsFit := by
  refine callsIff_of_load ?_
  intro _ bs bs' groupobj ts ts' t _ _ _ _ group tc _ henter _ hload
  simp only [x963Loader, map_eq_ok, Prod.mk.injEq] at henter
  obtain ⟨group', hgroup, rfl, -⟩ := henter
  obtain ⟨hkeyData, hsharedInfo⟩ := readX963Group_ok hgroup
  obtain ⟨hkeyLen, hkeySize, hinfoLen, hinfoSize, hzLen, hzSize⟩ :=
    readX963Test_ok (x963_load_ok hload).1
  unfold X963Tc.Fits X963LengthsFit
  rw [groupAt_append, ← hkeyData, ← hsharedInfo, hkeyLen, hkeySize, hinfoLen, hinfoSize, hzSize]
  simp [hzLen]

/-! ## ANSI X9.42 -/

def kdf135X942BitMax : Int := 4096
def kdf135X942StrMax : Nat := 1024
def kdf135X942ByteMax : Nat := 512

/-- {lit}`AMVP_KDF_X942_TYPE`, as far as a group can have it. -/
inductive X942Type where
  | der | concat
deriving DecidableEq

/-- {lit}`AMVP_KDF135_X942_TC`. -/
structure X942Tc where
  cipher : Cipher := .cipherStart
  tcId : Nat
  hashAlg : HashAlg
  type : X942Type
  oid : Buffer
  zz : Buffer
  partyUInfo : Buffer
  partyVInfo : Buffer
  suppPubInfo : Buffer
  suppPrivInfo : Buffer
  dkm : Buffer := ⟨kdf135X942ByteMax, []⟩
  keyLen : Int
  oidLen : Int
  zzLen : Int
  partyULen : Int
  partyVLen : Int
  suppPubLen : Int
  suppPrivLen : Int
  dkmLen : Int := 0
deriving DecidableEq

/-- {lit}`amvp_kdf135_x942_init_tc`. -/
def x942InitTc (tcId : Int) (hashAlg : HashAlg) (type : X942Type) (oid zz : String)
    (keyLen : Int) (partyUInfo partyVInfo suppPubInfo suppPrivInfo : String) :
    Except AmvpResult X942Tc := do
  let oidData ← hexstrToBin (some oid) kdf135X942ByteMax
  let zzData ← hexstrToBin (some zz) kdf135X942ByteMax
  let partyUData ← hexstrToBin (some partyUInfo) kdf135X942ByteMax
  let partyVData ← hexstrToBin (some partyVInfo) kdf135X942ByteMax
  let suppPubData ← hexstrToBin (some suppPubInfo) kdf135X942ByteMax
  let suppPrivData ← hexstrToBin (some suppPrivInfo) kdf135X942ByteMax
  pure {
    tcId := unsignedOfInt tcId
    hashAlg := hashAlg
    type := type
    oid := ⟨kdf135X942ByteMax, oidData⟩
    zz := ⟨kdf135X942ByteMax, zzData⟩
    partyUInfo := ⟨kdf135X942ByteMax, partyUData⟩
    partyVInfo := ⟨kdf135X942ByteMax, partyVData⟩
    suppPubInfo := ⟨kdf135X942ByteMax, suppPubData⟩
    suppPrivInfo := ⟨kdf135X942ByteMax, suppPrivData⟩
    keyLen := keyLen.tdiv 8
    oidLen := oidData.length
    zzLen := zzData.length
    partyULen := partyUData.length
    partyVLen := partyVData.length
    suppPubLen := suppPubData.length
    suppPrivLen := suppPrivData.length }

/-- {lit}`amvp_kdf135_x942_output_tc`. -/
def x942OutputTc (stc : X942Tc) (tcRsp : JsonObject) : Except AmvpResult JsonObject := do
  stopIf (stc.dkmLen ≠ stc.keyLen) .tcInvalidData
  let derivedKey ← binToHexstr (some stc.dkm) stc.dkmLen kdf135X942StrMax
  pure (jsonObjectSetText tcRsp "derivedKey" (some derivedKey))

/-- The comparison of {lit}`kdfType` with the two names.  {lit}`strncmp_s` leaves the outcome
of an earlier comparison in place when the text is shorter than the name: before the first
name that outcome is equality, before the second one it is not. -/
def readX942Type (str : String) : Option X942Type :=
  let chars := cBytes str
  if chars.length < 3 ∨ chars.take 3 = cBytes "DER" then some .der
  else if chars.take 14 = cBytes "concatentation" then some .concat
  else none

/-- What the handler reads of a group. -/
structure X942Group where
  tgId : Int
  kdfType : X942Type
  hashAlg : HashAlg
  oid : String

/-- The part of {lit}`amvp_kdf135_x942_kat_handler` that reads a group with a number of
tests. -/
def readX942Group (groupobj : Option JsonObject) (tests : Nat) : Except AmvpResult X942Group := do
  let tgId ← readTgId groupobj .malformedJson
  let kdfTypeStr ← need (jsonObjectGetString groupobj "kdfType") .missingArg
  let kdfType ← need (readX942Type kdfTypeStr) .invalidArg
  let hashAlgStr ← need (jsonObjectGetString groupobj "hashAlg") .missingArg
  let hashAlg ← need (lookupHashAlg hashAlgStr) .invalidArg
  let oid ← need (jsonObjectGetString groupobj "oid") .missingArg
  stopIf (tests = 0) .missingArg
  pure ⟨tgId, kdfType, hashAlg, oid⟩

/-- The part of {lit}`amvp_kdf135_x942_kat_handler` that reads a test. -/
def readX942Test (group : X942Group) (testobj : Option JsonObject) : Except AmvpResult X942Tc := do
  let tcId := toInt (jsonObjectGetNumber testobj "tcId")
  stopIf (tcId = 0) .missingArg
  let zz ← readString testobj "zz" kdf135X942StrMax
  let keyLen := toInt (jsonObjectGetNumber testobj "keyLen")
  stopIf (keyLen = 0) .missingArg
  stopIf (keyLen < 1 ∨ keyLen > kdf135X942BitMax) .invalidArg
  let partyU ← readString testobj "partyUInfo" kdf135X942StrMax
  let partyV ← readString testobj "partyVInfo" kdf135X942StrMax
  let suppPub ← readString testobj "suppPubInfo" kdf135X942StrMax
  let suppPriv ← readString testobj "suppPrivInfo" kdf135X942StrMax
  x942InitTc tcId group.hashAlg group.kdfType group.oid zz keyLen partyU partyV suppPub suppPriv

/-- The loops of {lit}`amvp_kdf135_x942_kat_handler`; no variable keeps its value. -/
def x942Loader : KatLoader Unit X942Group X942Tc where
  start := ()
  enter _ groupobj tests := (readX942Group groupobj tests).map (·, ())
  load _ group testobj := (readX942Test group testobj).map ({ question := · }, ())
  finish _ testobj tc := x942OutputTc tc (responseTestInt testobj)
  close group tests := responseGroup "tgId" group.tgId tests
  refused := .cryptoModuleFail

/-- {lit}`amvp_kdf135_x942_kat_handler`. -/
def x942KatHandler (ctx : KatCtx) : KatHandler X942Tc :=
  katHandler (setupWithMode ctx .kdf135X942 .missingArg) (fun _ => x942Loader.worker)
    (fun algStr groups => jsonObjectSetText (responseObject ctx.vsId algStr groups) "mode"
      (some "ansix9.42")) (some .missingArg)

end LibAmvp
