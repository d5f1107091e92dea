import LibAmvp.Kat.RsaPrim

/-!
# RSA key generation

The handler of the RSA key generation tests.  Which members of a group and of a test are
read depends on the method for the primes, and what is not read keeps its value from an
earlier group: the prime test, the hash function and the seed.

Main results:

- Theorem {lit}`keygen_independentIff`: the test case of a test is its own exactly when
  nothing that it does not read itself was left behind.
-/

namespace LibAmvp

open Guard

def rsaSeedlenMax : Nat := 64

/-- {lit}`AMVP_RSA_KEYGEN_MODE`. -/
inductive RsaKeygenMode where
  | b32 | b33 | b34 | b35 | b36
deriving DecidableEq

/-- {lit}`AMVP_RSA_TESTTYPE`. -/
inductive RsaTesttype where
  | kat | aft | gdt
deriving DecidableEq

/-- {lit}`AMVP_RSA_PUB_EXP_MODE`. -/
inductive RsaPubExpMode where
  | fixed | random
deriving DecidableEq

/-- {lit}`AMVP_RSA_PRIME_TEST_TYPE`. -/
inductive RsaPrimeTestType where
  | tblc2 | tblc3
deriving DecidableEq

/-- {lit}`read_test_type`. -/
def readRsaTestType (str : String) : Option RsaTesttype :=
  if str = "KAT" then some .kat else if str = "AFT" then some .aft
  else if str = "GDT" then some .gdt else none

/-- {lit}`read_pub_exp_mode`. -/
def readPubExpMode (str : String) : Option RsaPubExpMode :=
  if str = "fixed" then some .fixed else if str = "random" then some .random else none

/-- {lit}`read_prime_test_type`. -/
def readPrimeTestType (str : String) : Option RsaPrimeTestType :=
  if str = "tblC2" then some .tblc2 else if str = "tblC3" then some .tblc3 else none

/-- {lit}`amvp_lookup_rsa_randpq_index`. -/
def lookupRsaRandpqIndex (str : String) : Option RsaKeygenMode :=
  if str = "B.3.2" then some .b32 else if str = "B.3.3" then some .b33
  else if str = "B.3.4" then some .b34 else if str = "B.3.5" then some .b35
  else if str = "B.3.6" then some .b36 else none

/-- The methods that test candidates for primality. -/
def RsaKeygenMode.usesPrimeTest : RsaKeygenMode → Bool
  | .b33 | .b35 | .b36 => true
  | .b32 | .b34 => false

/-- The methods that construct primes with a hash function. -/
def RsaKeygenMode.usesHash : RsaKeygenMode → Bool
  | .b32 | .b34 | .b35 => true
  | .b33 | .b36 => false

/-- {lit}`AMVP_RSA_KEYGEN_TC`. -/
structure RsaKeygenTc where
  tcId : Nat
  hashAlg : Option HashAlg
  testType : Option RsaTesttype
  primeTest : Option RsaPrimeTestType
  primeResult : Option String := none
  randPq : RsaKeygenMode
  pubExpMode : RsaPubExpMode
  keyFormat : RsaPrimKeyformat
  infoGenByServer : Bool
  testDisposition : Int := 0
  modulo : Nat
  e : Bytes := .fresh rsaExpByteMax
  xp1 : Bytes
  xp2 : Bytes
  xp : Bytes
  xq1 : Bytes
  xq2 : Bytes
  xq : Bytes
  n : Bytes := .fresh rsaExpByteMax
  d : Bytes := .fresh rsaExpByteMax
  p : Bytes := .fresh rsaExpByteMax
  q : Bytes := .fresh rsaExpByteMax
  seed : Bytes := {}
  bitlen1 : Int := 0
  bitlen2 : Int := 0
  bitlen3 : Int := 0
  bitlen4 : Int := 0
deriving DecidableEq

/-- The variables of {lit}`amvp_rsa_keygen_kat_handler` that keep their values. -/
structure KeygenVars where
  primeTest : Option RsaPrimeTestType := none
  hashAlg : Option HashAlg := none
  seed : Option String := none

/-- What the handler reads of a group. -/
structure KeygenGroup where
  tgId : Int
  testType : Option RsaTesttype
  infoGenByServer : Bool
  pubExpMode : RsaPubExpMode
  fixedPubExp : Option String
  keyFormat : RsaPrimKeyformat
  randPq : RsaKeygenMode
  modulo : Nat

/-- The auxiliary values for the two primes. -/
structure KeygenX where
  xp : String
  xp1 : String
  xp2 : String
  xq : String
  xq1 : String
  xq2 : String

/-- What the handler reads of a test, the seed apart. -/
structure KeygenTest where
  tcId : Nat
  e : Option String
  bitlens : Int × Int × Int × Int
  x : Option KeygenX

/-! ## Test cases -/

/-- The part of {lit}`amvp_rsa_keygen_init_tc` that decodes the auxiliary values. -/
def keygenDecodeX : Option KeygenX → RsaKeygenTc → Except RsaKeygenTc RsaKeygenTc
  | none, stc => .ok stc
  | some x, stc => do
    let stc ← decodeInto (some x.xp) rsaExpByteMax
      (fun data stc => { stc with xp := .holding rsaExpByteMax data }) stc
    let stc ← decodeInto (some x.xp1) rsaExpByteMax
      (fun data stc => { stc with xp1 := .holding rsaExpByteMax data }) stc
    let stc ← decodeInto (some x.xp2) rsaExpByteMax
      (fun data stc => { stc with xp2 := .holding rsaExpByteMax data }) stc
    let stc ← decodeInto (some x.xq) rsaExpByteMax
      (fun data stc => { stc with xq := .holding rsaExpByteMax data }) stc
    let stc ← decodeInto (some x.xq1) rsaExpByteMax
      (fun data stc => { stc with xq1 := .holding rsaExpByteMax data }) stc
    decodeInto (some x.xq2) rsaExpByteMax
      (fun data stc => { stc with xq2 := .holding rsaExpByteMax data }) stc

/-- The part of {lit}`amvp_rsa_keygen_init_tc` before the seed. -/
def keygenInitKey (primeTest : Option RsaPrimeTestType) (hashAlg : Option HashAlg)
    (group : KeygenGroup) (test : KeygenTest) : Except RsaKeygenTc RsaKeygenTc := do
  let fresh : Bytes :=
    if group.randPq = .b36 ∨ group.infoGenByServer = false then .fresh rsaExpByteMax else {}
  let stc : RsaKeygenTc := {
    testType := group.testType
    infoGenByServer := group.infoGenByServer
    tcId := test.tcId
    randPq := group.randPq
    modulo := group.modulo
    primeTest := primeTest
    hashAlg := hashAlg
    pubExpMode := group.pubExpMode
    keyFormat := group.keyFormat
    xp := fresh
    xp1 := fresh
    xp2 := fresh
    xq := fresh
    xq1 := fresh
    xq2 := fresh }
  let stc ← keygenDecodeX test.x stc
  decodeInto test.e rsaExpByteMax
    (fun data stc => { stc with e := .holding rsaExpByteMax data }) stc

/-- The end of {lit}`amvp_rsa_keygen_init_tc`.  The length of the seed as a text serves as the
size of the buffer for its bytes. -/
def keygenInitSeed (seed : Option String) (group : KeygenGroup) (test : KeygenTest)
    (stc : RsaKeygenTc) : Except RsaKeygenTc RsaKeygenTc :=
  let stc := { stc with seed := .fresh rsaSeedlenMax }
  if group.infoGenByServer then
    let stc := { stc with
      bitlen1 := test.bitlens.1
      bitlen2 := test.bitlens.2.1
      bitlen3 := test.bitlens.2.2.1
      bitlen4 := test.bitlens.2.2.2 }
    match seed with
    | some str => decodeInto (some str) (strnlenS str (rsaSeedlenMax + 1))
        (fun data stc => { stc with seed := .holding rsaSeedlenMax data }) stc
    | none => .ok stc
  else .ok stc

/-- {lit}`amvp_rsa_keygen_init_tc`.  An error leaves the structure half filled. -/
def keygenInitTc (vars : KeygenVars) (group : KeygenGroup) (test : KeygenTest) :
    Except RsaKeygenTc RsaKeygenTc := do
  let stc ← keygenInitKey vars.primeTest vars.hashAlg group test
  keygenInitSeed vars.seed group test stc

/-- The part of {lit}`amvp_rsa_output_tc` for the auxiliary values. -/
def keygenOutputX (stc : RsaKeygenTc) (tcRsp : JsonObject) : Except AmvpResult JsonObject := do
  let tcRsp ← setHexstr tcRsp "xP" stc.xp.data stc.xp.len rsaExpLenMax
  let tcRsp ← setHexstr tcRsp "xP1" stc.xp1.data stc.xp1.len rsaExpLenMax
  let tcRsp ← setHexstr tcRsp "xP2" stc.xp2.data stc.xp2.len rsaExpLenMax
  let tcRsp ← setHexstr tcRsp "xQ" stc.xq.data stc.xq.len rsaExpLenMax
  let tcRsp ← setHexstr tcRsp "xQ1" stc.xq1.data stc.xq1.len rsaExpLenMax
  setHexstr tcRsp "xQ2" stc.xq2.data stc.xq2.len rsaExpLenMax

/-- The part of {lit}`amvp_rsa_output_tc` for the seed and the lengths. -/
def keygenOutputSeed (stc : RsaKeygenTc) (tcRsp : JsonObject) : Except AmvpResult JsonObject := do
  let tcRsp ← setHexstr tcRsp "seed" stc.seed.data stc.seed.len rsaSeedlenMax
  pure (jsonObjectSetValue tcRsp "bitlens"
    (.arr [.num stc.bitlen1, .num stc.bitlen2, .num stc.bitlen3, .num stc.bitlen4]))

/-- {lit}`amvp_rsa_output_tc`. -/
def keygenOutputTc (stc : RsaKeygenTc) (tcRsp : JsonObject) : Except AmvpResult JsonObject :=
  if stc.randPq = .b33 ∧ stc.testType = some .kat then
    pure (jsonObjectSetBoolean tcRsp "testPassed" stc.testDisposition)
  else do
    let tcRsp ← setHexstr tcRsp "p" stc.p.data stc.p.len rsaExpLenMax
    let tcRsp ← setHexstr tcRsp "q" stc.q.data stc.q.len rsaExpLenMax
    let tcRsp ← setHexstr tcRsp "n" stc.n.data stc.n.len rsaExpLenMax
    let tcRsp ← setHexstr tcRsp "d" stc.d.data stc.d.len rsaExpLenMax
    let tcRsp ← setHexstr tcRsp "e" stc.e.data stc.e.len rsaExpLenMax
    let tcRsp ← onlyIf (stc.keyFormat = .crt) (keygenOutputX stc tcRsp) tcRsp
    if stc.infoGenByServer then
      pure (if stc.randPq.usesPrimeTest then
        jsonObjectSetText tcRsp "primeResult" stc.primeResult else tcRsp)
    else onlyIf (stc.randPq ≠ .b33) (keygenOutputSeed stc tcRsp) tcRsp

/-! ## Groups and tests -/

/-- The part of {lit}`amvp_rsa_keygen_kat_handler` that reads a group. -/
def readKeygenGroup (vars : KeygenVars) (groupobj : Option JsonObject) :
    Except AmvpResult (KeygenGroup × KeygenVars) := do
  let tgId ← readTgId groupobj .malformedJson
  let testTypeStr ← need (jsonObjectGetString groupobj "testType") .tcInvalidData
  let infoGenByServer := jsonObjectGetBoolean groupobj "infoGeneratedByServer"
  stopIf (infoGenByServer = -1) .missingArg
  let pubExpModeStr ← need (jsonObjectGetString groupobj "pubExp") .missingArg
  let pubExpMode ← need (readPubExpMode pubExpModeStr) .invalidArg
  let fixedPubExp := jsonObjectGetString groupobj "fixedPubExp"
  stopIf (pubExpMode = .fixed ∧ fixedPubExp = none) .missingArg
  let keyFormatStr ← need (jsonObjectGetString groupobj "keyFormat") .missingArg
  let keyFormat ← need (readKeyFormat keyFormatStr) .invalidArg
  let randPqStr ← need (jsonObjectGetString groupobj "randPQ") .missingArg
  let randPq ← need (lookupRsaRandpqIndex randPqStr) .invalidArg
  let primeTest ← onlyIf randPq.usesPrimeTest (do
    let primeTestStr ← need (jsonObjectGetString groupobj "primeTest") .missingArg
    let primeTest ← need (readPrimeTestType primeTestStr) .invalidArg
    pure (some primeTest)) vars.primeTest
  let modulo := toUnsigned (jsonObjectGetNumber groupobj "modulo")
  stopIf (modulo = 0) .missingArg
  stopIf (modulo ≠ 2048 ∧ modulo ≠ 3072 ∧ modulo ≠ 4096) .invalidArg
  let hashAlg ← onlyIf randPq.usesHash (do
    let hashAlgStr ← need (jsonObjectGetString groupobj "hashAlg") .missingArg
    let hashAlg ← need (lookupHashAlg hashAlgStr) .invalidArg
    pure (some hashAlg)) vars.hashAlg
  pure ({
    tgId := tgId
    testType := readRsaTestType testTypeStr
    infoGenByServer := infoGenByServer ≠ 0
    pubExpMode := pubExpMode
    fixedPubExp := fixedPubExp
    keyFormat := keyFormat
    randPq := randPq
    modulo := modulo }, { vars with primeTest := primeTest, hashAlg := hashAlg })

/-- A test of this group has a seed. -/
def KeygenGroup.readsSeed (group : KeygenGroup) : Bool :=
  group.infoGenByServer && group.randPq.usesHash

/-- The four numbers of a test. -/
def readBitlens (testobj : Option JsonObject) : Except AmvpResult (Int × Int × Int × Int) :=
  match jsonArrayElems (jsonObjectGetArray testobj "bitlens") with
  | [n₁, n₂, n₃, n₄] =>
    .ok (toInt (jsonValueGetNumber (some n₁)), toInt (jsonValueGetNumber (some n₂)),
      toInt (jsonValueGetNumber (some n₃)), toInt (jsonValueGetNumber (some n₄)))
  | _ => .error .invalidArg

/-- The auxiliary values of a test. -/
def readKeygenX (testobj : Option JsonObject) : Except AmvpResult KeygenX := do
  let xp ← need (jsonObjectGetString testobj "xP") .missingArg
  let xp1 ← need (jsonObjectGetString testobj "xP1") .missingArg
  let xp2 ← need (jsonObjectGetString testobj "xP2") .missingArg
  let xq ← need (jsonObjectGetString testobj "xQ") .missingArg
  let xq1 ← need (jsonObjectGetString testobj "xQ1") .missingArg
  let xq2 ← need (jsonObjectGetString testobj "xQ2") .missingArg
  pure ⟨xp, xp1, xp2, xq, xq1, xq2⟩

/-- The part of {lit}`amvp_rsa_keygen_kat_handler` that reads a test, with the seed that is
there afterwards. -/
def readKeygenTest (seed : Option String) (group : KeygenGroup) (testobj : Option JsonObject) :
    Except AmvpResult (KeygenTest × Option String) := do
  let e ← onlyIf (group.pubExpMode = .random)
    ((readString testobj "e" rsaExpLenMax).map some) group.fixedPubExp
  let bitlens ← onlyIf group.infoGenByServer (readBitlens testobj) (0, 0, 0, 0)
  let seed ← onlyIf group.readsSeed ((readString testobj "seed" rsaSeedlenMax).map some) seed
  let x ← onlyIf (group.randPq = .b36) ((readKeygenX testobj).map some) none
  pure (⟨readTcId testobj, e, bitlens, x⟩, seed)

/-- The test case of a test.  One that cannot be decoded is not sent, and the answer is made of
what it holds. -/
def keygenDraft (vars : KeygenVars) (group : KeygenGroup) (test : KeygenTest) :
    Draft RsaKeygenTc :=
  match keygenInitTc vars group test with
  | .ok stc => { question := stc }
  | .error stc => { question := stc, sent := false }

/-- The loops of {lit}`amvp_rsa_keygen_kat_handler`. -/
def keygenLoader : KatLoader KeygenVars KeygenGroup RsaKeygenTc where
  start := {}
  enter vars groupobj _ := readKeygenGroup vars groupobj
  load vars group testobj :=
    (readKeygenTest vars.seed group testobj).map fun (test, seed) =>
      (keygenDraft { vars with seed := seed } group test, { vars with seed := seed })
  finish _ testobj stc := keygenOutputTc stc (responseTest testobj)
  close group tests := responseGroup "tgId" group.tgId tests
  refused := .cryptoModuleFail

/-- {lit}`amvp_rsa_keygen_kat_handler`. -/
def rsaKeygenKatHandler (ctx : KatCtx) : KatHandler RsaKeygenTc :=
  katHandler (setupRsaPrim ctx .rsaKeygen .malformedJson) (fun _ => keygenLoader.worker)
    (responseWithMode ctx)

/-! ## Independence -/

/-- The method of a group has a property. -/
def keygenUses (uses : RsaKeygenMode → Bool) (groupobj : Option JsonObject) : Bool :=
  ((jsonObjectGetString groupobj "randPQ").bind lookupRsaRandpqIndex).any uses

/-- The group reads a prime test itself or no group before has, and the same holds for the
hash function. -/
def KeygenOwn (groups : List TestGroup) (i _j : Nat) : Prop :=
  ∀ uses ∈ [RsaKeygenMode.usesPrimeTest, RsaKeygenMode.usesHash],
    keygenUses uses (groupAt groups i) = true ∨
      ∀ b ∈ groups.take i, keygenUses uses b.head = false

/-- What a group reads, and what it takes over. -/
theorem readKeygenGroup_ok {vars vars' : KeygenVars} {groupobj : Option JsonObject}
    {group : KeygenGroup} (h : readKeygenGroup vars groupobj = .ok (group, vars')) :
    (∀ uses, keygenUses uses groupobj = uses group.randPq) ∧ vars'.seed = vars.seed ∧
      (group.randPq.usesPrimeTest = true → vars'.primeTest.isSome) ∧
      (group.randPq.usesPrimeTest = false → vars'.primeTest = vars.primeTest) ∧
      (group.randPq.usesHash = true → vars'.hashAlg.isSome) ∧
      (group.randPq.usesHash = false → vars'.hashAlg = vars.hashAlg) := by
  simp only [readKeygenGroup, bind_eq_ok, need_eq_ok, stopIf_eq_ok, exists_const, pure_eq_ok,
    Prod.mk.injEq] at h
  obtain ⟨_, -, _, -, -, _, -, _, -, -, _, -, _, -, randPqStr, hrandPqStr, randPq, hrandPq,
    primeTest, hprime, -, -, hashAlg, hhash, rfl, rfl⟩ := h
  refine ⟨fun uses => by simp [keygenUses, hrandPqStr, hrandPq], rfl, ?_, ?_, ?_, ?_⟩
  · intro huses
    rw [onlyIf_pos huses] at hprime
    simp only [bind_eq_ok, pure_eq_ok] at hprime
    obtain ⟨_, -, _, -, rfl⟩ := hprime
    rfl
  · intro huses
    rw [onlyIf_neg (by simp_all)] at hprime
    exact (Except.ok.inj hprime).symm
  · intro huses
    rw [onlyIf_pos huses] at hhash
    simp only [bind_eq_ok, pure_eq_ok] at hhash
    obtain ⟨_, -, _, -, rfl⟩ := hhash
    rfl
  · intro huses
    rw [onlyIf_neg (by simp_all)] at hhash
    exact (Except.ok.inj hhash).symm

/-- The group alone. -/
theorem readKeygenGroup_fresh {vars vars' : KeygenVars} {groupobj : Option JsonObject}
    {group : KeygenGroup} (h : readKeygenGroup vars groupobj = .ok (group, vars')) :
    readKeygenGroup {} groupobj = .ok (group, {
      primeTest := if group.randPq.usesPrimeTest then vars'.primeTest else none
      hashAlg := if group.randPq.usesHash then vars'.hashAlg else none }) := by
  simp only [readKeygenGroup, bind_eq_ok, need_eq_ok, stopIf_eq_ok, exists_const, pure_eq_ok,
    Prod.mk.injEq] at h ⊢
  obtain ⟨tgId, htgId, testTypeStr, htype, hinfo, modeStr, hmodeStr, mode, hmode, hfixed,
    formatStr, hformatStr, format, hformat, randPqStr, hrandPqStr, randPq, hrandPq, primeTest,
    hprime, hmod, hmod', hashAlg, hhash, rfl, rfl⟩ := h
  refine ⟨tgId, htgId, testTypeStr, htype, hinfo, modeStr, hmodeStr, mode, hmode, hfixed,
    formatStr, hformatStr, format, hformat, randPqStr, hrandPqStr, randPq, hrandPq, _, ?_, hmod,
    hmod', _, ?_, rfl, rfl⟩
  · by_cases huses : randPq.usesPrimeTest = true
    · rw [onlyIf_pos huses] at hprime ⊢
      rw [hprime, if_pos huses]
    · rw [onlyIf_neg huses, if_neg huses]
  · by_cases huses : randPq.usesHash = true
    · rw [onlyIf_pos huses] at hhash ⊢
      rw [hhash, if_pos huses]
    · rw [onlyIf_neg huses, if_neg huses]

theorem readKeygenTest_ok {seed seed' : Option String} {group : KeygenGroup}
    {testobj : Option JsonObject} {test : KeygenTest}
    (h : readKeygenTest seed group testobj = .ok (test, seed')) :
    (group.readsSeed = false → seed' = seed) ∧
      ∀ seed₁, readKeygenTest seed₁ group testobj =
        .ok (test, if group.readsSeed then seed' else seed₁) := by
  simp only [readKeygenTest, bind_eq_ok, pure_eq_ok, Prod.mk.injEq] at h ⊢
  obtain ⟨e, he, bitlens, hbitlens, seed₂, hseed, x, hx, rfl, rfl⟩ := h
  by_cases hreads : group.readsSeed = true
  · rw [onlyIf_pos hreads] at hseed
    refine ⟨fun hnot => by simp [hreads] at hnot, fun seed₁ => ?_⟩
    refine ⟨e, he, bitlens, hbitlens, seed₂, ?_, x, hx, rfl, ?_⟩
    · rw [onlyIf_pos hreads, hseed]
    · rw [if_pos hreads]
  · rw [onlyIf_neg hreads] at hseed
    refine ⟨fun _ => (Except.ok.inj hseed).symm, fun seed₁ => ?_⟩
    refine ⟨e, he, bitlens, hbitlens, seed₁, ?_, x, hx, rfl, ?_⟩
    · rw [onlyIf_neg hreads]
    · rw [if_neg hreads]

theorem keygen_load_ok {vars vars' : KeygenVars} {group : KeygenGroup}
    {testobj : Option JsonObject} {draft : Draft RsaKeygenTc}
    (h : keygenLoader.load vars group testobj = .ok (draft, vars')) :
    ∃ test, readKeygenTest vars.seed group testobj = .ok (test, vars'.seed) ∧
      vars' = { vars with seed := vars'.seed } ∧ draft = keygenDraft vars' group test := by
  simp only [keygenLoader, map_eq_ok, Prod.mk.injEq, Prod.exists] at h
  obtain ⟨test, seed, htest, rfl, rfl⟩ := h
  exact ⟨test, htest, rfl, rfl⟩

theorem keygenDraft_sent {vars : KeygenVars} {group : KeygenGroup} {test : KeygenTest}
    {stc : RsaKeygenTc} :
    keygenDraft vars group test = ⟨stc, true⟩ ↔ keygenInitTc vars group test = .ok stc := by
  unfold keygenDraft
  split <;> simp [*]

theorem keygenDecodeX_ok {x : Option KeygenX} {stc stc' : RsaKeygenTc}
    (h : keygenDecodeX x stc = .ok stc') :
    stc'.primeTest = stc.primeTest ∧ stc'.hashAlg = stc.hashAlg := by
  cases x with
  | none =>
      cases h
      exact ⟨rfl, rfl⟩
  | some x =>
      simp only [keygenDecodeX, bind_eq_ok, decodeInto_eq_ok] at h
      obtain ⟨_, ⟨_, -, rfl⟩, _, ⟨_, -, rfl⟩, _, ⟨_, -, rfl⟩, _, ⟨_, -, rfl⟩, _, ⟨_, -, rfl⟩, _, -,
        rfl⟩ := h
      exact ⟨rfl, rfl⟩

theorem keygenInitKey_ok {primeTest : Option RsaPrimeTestType} {hashAlg : Option HashAlg}
    {group : KeygenGroup} {test : KeygenTest} {stc : RsaKeygenTc}
    (h : keygenInitKey primeTest hashAlg group test = .ok stc) :
    stc.primeTest = primeTest ∧ stc.hashAlg = hashAlg := by
  simp only [keygenInitKey, bind_eq_ok, decodeInto_eq_ok] at h
  obtain ⟨stc₁, hx, _, -, rfl⟩ := h
  exact keygenDecodeX_ok hx

theorem keygenInitSeed_ok {seed : Option String} {group : KeygenGroup} {test : KeygenTest}
    {stc stc' : RsaKeygenTc} (h : keygenInitSeed seed group test stc = .ok stc') :
    stc'.primeTest = stc.primeTest ∧ stc'.hashAlg = stc.hashAlg := by
  unfold keygenInitSeed at h
  dsimp only at h
  split at h
  · split at h
    · rw [decodeInto_eq_ok] at h
      obtain ⟨_, -, rfl⟩ := h
      exact ⟨rfl, rfl⟩
    · cases h
      exact ⟨rfl, rfl⟩
  · cases h
    exact ⟨rfl, rfl⟩

/-- The prime test and the hash function show in the test case. -/
theorem keygenInitTc_ok {vars : KeygenVars} {group : KeygenGroup} {test : KeygenTest}
    {stc : RsaKeygenTc} (h : keygenInitTc vars group test = .ok stc) :
    stc.primeTest = vars.primeTest ∧ stc.hashAlg = vars.hashAlg := by
  simp only [keygenInitTc, bind_eq_ok] at h
  obtain ⟨stc₁, hkey, hseed⟩ := h
  rw [(keygenInitSeed_ok hseed).1, (keygenInitSeed_ok hseed).2]
  exact keygenInitKey_ok hkey

/-- Only a group whose data the server has generated makes use of a seed. -/
theorem keygenInitTc_noSeed (vars : KeygenVars) {group : KeygenGroup} (test : KeygenTest)
    (hinfo : group.infoGenByServer = false) (seed : Option String) :
    keygenInitTc { vars with seed := seed } group test = keygenInitTc vars group test := by
  simp [keygenInitTc, keygenInitSeed, hinfo]

/-- What the tests of a group leave behind. -/
theorem keygen_carryItems {group : KeygenGroup} {vars vars' : KeygenVars}
    {ts : List (Option JsonObject)} (h : keygenLoader.carryItems group vars ts = .ok vars') :
    vars' = { vars with seed := vars'.seed } ∧
      (group.readsSeed = false → vars'.seed = vars.seed) := by
  refine Loader.carryItems_induction (Q := fun _ vars' => vars' = { vars with seed := vars'.seed } ∧
    (group.readsSeed = false → vars'.seed = vars.seed)) ⟨rfl, fun _ => rfl⟩ ?_ h
  intro ts t vars₁ draft vars₂ ⟨hvars₁, hseed₁⟩ hload
  obtain ⟨test, htest, hvars₂, -⟩ := keygen_load_ok hload
  constructor
  · rw [hvars₂, hvars₁]
  · intro hreads
    rw [(readKeygenTest_ok htest).1 hreads, hseed₁ hreads]

/-- What groups leave behind. -/
theorem keygen_carry {bs : List TestGroup} {vars : KeygenVars}
    (h : keygenLoader.carry keygenLoader.start bs = .ok vars) :
    (vars.primeTest = none ↔ ∀ b ∈ bs, keygenUses RsaKeygenMode.usesPrimeTest b.head = false) ∧
      (vars.hashAlg = none ↔ ∀ b ∈ bs, keygenUses RsaKeygenMode.usesHash b.head = false) ∧
      (vars.hashAlg = none → vars.seed = none) := by
  refine Loader.carry_induction (P := fun bs vars =>
    (vars.primeTest = none ↔ ∀ b ∈ bs, keygenUses RsaKeygenMode.usesPrimeTest b.head = false) ∧
      (vars.hashAlg = none ↔ ∀ b ∈ bs, keygenUses RsaKeygenMode.usesHash b.head = false) ∧
      (vars.hashAlg = none → vars.seed = none)) (by simp [keygenLoader]) ?_ h
  intro bs b vars₀ group vars₁ vars₂ ⟨hprime, hhash, hseed⟩ henter hitems
  obtain ⟨huses, hseed₁, hprimeSome, hprimeKept, hhashSome, hhashKept⟩ := readKeygenGroup_ok henter
  obtain ⟨hvars₂, hseed₂⟩ := keygen_carryItems hitems
  have hprime₂ : vars₂.primeTest = vars₁.primeTest := by rw [hvars₂]
  have hhash₂ : vars₂.hashAlg = vars₁.hashAlg := by rw [hvars₂]
  rw [hprime₂, hhash₂]
  simp only [List.forall_mem_append, List.forall_mem_singleton, huses]
  refine ⟨?_, ?_, ?_⟩
  · cases hcase : group.randPq.usesPrimeTest with
    | true => simpa using Option.ne_none_iff_isSome.mpr (hprimeSome hcase)
    | false => simpa [hprimeKept hcase] using hprime
  · cases hcase : group.randPq.usesHash with
    | true => simpa using Option.ne_none_iff_isSome.mpr (hhashSome hcase)
    | false => simpa [hhashKept hcase] using hhash
  · intro hnone
    cases hcase : group.randPq.usesHash with
    | true => exact absurd hnone (Option.ne_none_iff_isSome.mpr (hhashSome hcase))
    | false =>
        rw [hseed₂ (by simp [KeygenGroup.readsSeed, hcase]), hseed₁]
        exact hseed (by rw [← hhashKept hcase, hnone])

theorem keygen_independentIff (ctx : KatCtx) :
    (rsaKeygenKatHandler ctx).IndependentIff KeygenOwn := by
  refine aloneIff_of_alone ?_
  intro _ bs bs' groupobj ts ts' t vars₀ vars₁ vars₂ vars₃ group tc hbefore henter hitems hload
  obtain ⟨huses, hseed₁, hprimeSome, hprimeKept, hhashSome, hhashKept⟩ := readKeygenGroup_ok henter
  obtain ⟨hprime₀, hhash₀, hseed₀⟩ := keygen_carry hbefore
  obtain ⟨hvars₂, hseed₂⟩ := keygen_carryItems hitems
  obtain ⟨test, htest, hvars₃, hdraft⟩ := keygen_load_ok hload
  have hinit := keygenDraft_sent.mp hdraft.symm
  obtain ⟨htcPrime, htcHash⟩ := keygenInitTc_ok hinit
  have hprime₃ : vars₃.primeTest = vars₁.primeTest := by rw [hvars₃, hvars₂]
  have hhash₃ : vars₃.hashAlg = vars₁.hashAlg := by rw [hvars₃, hvars₂]
  -- The test alone differs in what its group does not read.
  have halone : keygenLoader.alone groupobj t = some tc ↔ keygenInitTc {
      primeTest := if group.randPq.usesPrimeTest then vars₁.primeTest else none
      hashAlg := if group.randPq.usesHash then vars₁.hashAlg else none
      seed := if group.readsSeed then vars₃.seed else none } group test = .ok tc := by
    rw [Loader.alone_eq_some]
    constructor
    · rintro ⟨group', vars, vars', henter', hload'⟩
      have hfresh := (readKeygenGroup_fresh henter).symm.trans henter'
      simp only [Except.ok.injEq, Prod.mk.injEq] at hfresh
      obtain ⟨rfl, rfl⟩ := hfresh
      obtain ⟨test', htest', hvars', hdraft'⟩ := keygen_load_ok hload'
      have hsame := ((readKeygenTest_ok htest).2 none).symm.trans htest'
      simp only [Except.ok.injEq, Prod.mk.injEq] at hsame
      obtain ⟨rfl, hseed'⟩ := hsame
      rw [hvars', ← hseed'] at hdraft'
      exact keygenDraft_sent.mp hdraft'.symm
    · intro hinit'
      refine ⟨group, _, ?vars', readKeygenGroup_fresh henter, ?_⟩
      rotate_left
      simp only [keygenLoader, (readKeygenTest_ok htest).2 none, Except.map]
      rw [keygenDraft_sent.mpr hinit']
  have hown : KeygenOwn (bs ++ ⟨groupobj, ts ++ t :: ts'⟩ :: bs') bs.length ts.length ↔
      (group.randPq.usesPrimeTest = true ∨ vars₀.primeTest = none) ∧
        (group.randPq.usesHash = true ∨ vars₀.hashAlg = none) := by
    unfold KeygenOwn
    rw [groupAt_append, List.take_left, hprime₀, hhash₀]
    simp [huses]
  rw [halone, hown]
  constructor
  · intro hinit'
    obtain ⟨htcPrime', htcHash'⟩ := keygenInitTc_ok hinit'
    rw [htcPrime', hprime₃] at htcPrime
    rw [htcHash', hhash₃] at htcHash
    dsimp only at htcPrime htcHash
    constructor
    · cases hcase : group.randPq.usesPrimeTest with
      | true => exact .inl rfl
      | false => exact .inr (by simpa [hcase, hprimeKept hcase] using htcPrime.symm)
    · cases hcase : group.randPq.usesHash with
      | true => exact .inl rfl
      | false => exact .inr (by simpa [hcase, hhashKept hcase] using htcHash.symm)
  · rintro ⟨hprime, hhash⟩
    have hprime' : (if group.randPq.usesPrimeTest then vars₁.primeTest else none) =
        vars₃.primeTest := by
      rw [hprime₃]
      cases hcase : group.randPq.usesPrimeTest with
      | true => rfl
      | false =>
          rw [hprimeKept hcase, hprime.resolve_left (by simp [hcase])]
          rfl
    have hhash' : (if group.randPq.usesHash then vars₁.hashAlg else none) = vars₃.hashAlg := by
      rw [hhash₃]
      cases hcase : group.randPq.usesHash with
      | true => rfl
      | false =>
          rw [hhashKept hcase, hhash.resolve_left (by simp [hcase])]
          rfl
    rw [hprime', hhash', ← hinit]
    cases hinfo : group.infoGenByServer with
    | false => exact keygenInitTc_noSeed vars₃ test hinfo _
    | true =>
        -- Without a hash function of its own there was none before, and no seed either.
        have hseed : (if group.readsSeed then vars₃.seed else none) = vars₃.seed := by
          cases hcase : group.randPq.usesHash with
          | true => simp [KeygenGroup.readsSeed, hinfo, hcase]
          | false =>
              have hreads : group.readsSeed = false := by simp [KeygenGroup.readsSeed, hcase]
              have hnone : vars₀.seed = none := hseed₀ (by simpa [hcase] using hhash)
              rw [(readKeygenTest_ok htest).1 hreads, hseed₂ hreads, hseed₁, hnone]
              simp
        rw [hseed]

end LibAmvp
