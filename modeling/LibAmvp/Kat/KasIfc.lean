import LibAmvp.Kat.KasEcc
import LibAmvp.Kat.RsaPrim

/-!
# Key agreement with RSA

The handler of the KAS-IFC shared secret tests.  Which components a test has depends on the
scheme, the role, the kind of the keys and the type of the test.  A component that is not
read, a scheme and a role that are not understood keep the value of an earlier test.

## Main results

- Theorem {lit}`kasIfc_independentIff`: a test case is the one of the test alone exactly when
  nothing was left behind.
-/

namespace LibAmvp

open Guard

def kasIfcByteMax : Nat := 2048
def kasIfcStrMax : Nat := 4096

/-- {lit}`AMVP_KAS_IFC_TEST_TYPE`. -/
inductive KasIfcTestType where
  | aft | val
deriving DecidableEq

/-- {lit}`AMVP_KAS_IFC_KEYGEN`. -/
inductive KasIfcKeygen where
  | rsakpg1Basic | rsakpg1PrimeFactor | rsakpg1Crt | rsakpg2Basic | rsakpg2PrimeFactor | rsakpg2Crt
deriving DecidableEq

/-- The schemes of {lit}`AMVP_KAS_IFC_PARAM`. -/
inductive KasIfcScheme where
  | kas1 | kas2
deriving DecidableEq

/-- {lit}`AMVP_KAS_IFC_ROLES`. -/
inductive KasIfcRole where
  | initiator | responder
deriving DecidableEq

/-- {lit}`read_test_type`. -/
def readKasIfcTestType (str : String) : Option KasIfcTestType :=
  if str = "AFT" then some .aft else if str = "VAL" then some .val else none

/-- {lit}`read_key_gen`. -/
def readKeyGen (str : String) : Option KasIfcKeygen :=
  if str = "rsakpg1-basic" then some .rsakpg1Basic
  else if str = "rsakpg1-crt" then some .rsakpg1Crt
  else if str = "rsakpg1-prime-factor" then some .rsakpg1PrimeFactor
  else if str = "rsakpg2-basic" then some .rsakpg2Basic
  else if str = "rsakpg2-crt" then some .rsakpg2Crt
  else if str = "rsakpg2-prime-factor" then some .rsakpg2PrimeFactor
  else none

/-- The comparisons of {lit}`scheme` with the two names. -/
def readKasIfcScheme (str : String) : Option KasIfcScheme :=
  if str = "KAS1" then some .kas1 else if str = "KAS2" then some .kas2 else none

/-- The comparisons of {lit}`kasRole` with the two names. -/
def readKasIfcRole (str : String) : Option KasIfcRole :=
  if str = "initiator" then some .initiator else if str = "responder" then some .responder
  else none

/-- The kinds of keys with the components of the Chinese remainder theorem. -/
def KasIfcKeygen.isCrt (keyGen : KasIfcKeygen) : Bool :=
  keyGen = .rsakpg1Crt ∨ keyGen = .rsakpg2Crt

/-- What decides which components a test has. -/
structure KasIfcSettings where
  testType : KasIfcTestType
  keyGen : KasIfcKeygen
  scheme : KasIfcScheme
  role : Option KasIfcRole
deriving DecidableEq

namespace KasIfcSettings

variable (s : KasIfcSettings)

/-- The test has a key of the implementation. -/
def readsKey : Bool := s.role = some .responder ∨ s.scheme = .kas2

/-- The test has components of the Chinese remainder theorem. -/
def readsCrt : Bool := s.readsKey && s.keyGen.isCrt

/-- The test has a private exponent. -/
def readsD : Bool := s.readsKey && !s.keyGen.isCrt

/-- The test has a key of the server. -/
def readsServer : Bool := s.role = some .initiator ∨ s.scheme = .kas2

/-- The test has an expected secret. -/
def readsPtZ : Bool := s.testType = .val

/-- The test has an expected cipher text. -/
def readsCtZ : Bool := s.readsPtZ && s.readsServer

/-- The test has an expected common secret of both parties. -/
def readsKas2Z : Bool := s.scheme = .kas2 ∧ s.testType = .val

end KasIfcSettings

/-- The key of the implementation. -/
structure KasIfcKey where
  p : String
  q : String
  n : String
  e : String

/-- The components of the Chinese remainder theorem. -/
structure KasIfcCrt where
  dmp1 : String
  dmq1 : String
  iqmp : String

/-- The key of the server. -/
structure KasIfcServer where
  n : String
  e : String

/-- The variables of {lit}`amvp_kas_ifc_ssc` that keep their values. -/
structure KasIfcVars where
  scheme : KasIfcScheme := .kas1
  role : Option KasIfcRole := none
  key : Option KasIfcKey := none
  crt : Option KasIfcCrt := none
  d : Option String := none
  server : Option KasIfcServer := none
  serverCtZ : Option String := none
  ptZ : Option String := none
  ctZ : Option String := none
  kas2Z : Option String := none

/-- {lit}`AMVP_KAS_IFC_TC`. -/
structure KasIfcTc where
  testType : KasIfcTestType
  keyGen : KasIfcKeygen
  md : Option HashAlg
  scheme : KasIfcScheme
  kasRole : Option KasIfcRole
  serverN : Bytes
  serverE : Bytes
  p : Bytes
  q : Bytes
  d : Bytes
  n : Bytes
  e : Bytes
  dmp1 : Bytes
  dmq1 : Bytes
  iqmp : Bytes
  iutPtZ : Bytes
  iutCtZ : Bytes
  providedPtZ : Bytes
  providedCtZ : Bytes
  serverPtZ : Bytes := .fresh (kasIfcByteMax + 1)
  serverCtZ : Bytes
  providedKas2Z : Bytes
  modulo : Nat
deriving DecidableEq

/-! ## Test cases -/

/-- A buffer that is allocated in any case, and filled when there is a string. -/
def decodeFresh (src : Option String) (size : Nat) : Except AmvpResult Bytes :=
  onlyIf (src ≠ none) (decodeBytes src size) (.fresh size)

/-- What the handler reads of a group. -/
structure KasIfcGroup where
  tgId : Int
  settings : KasIfcSettings
  hashAlg : Option HashAlg
  modulo : Nat

/-- {lit}`amvp_kas_ifc_ssc_init_tc`. -/
def kasIfcSscInitTc (vars : KasIfcVars) (group : KasIfcGroup) : Except AmvpResult KasIfcTc := do
  let settings := group.settings
  let p ← decodeOptional (vars.key.map KasIfcKey.p) kasIfcByteMax
  let q ← decodeOptional (vars.key.map KasIfcKey.q) kasIfcByteMax
  let d ← decodeOptional vars.d kasIfcByteMax
  let n ← decodeOptional (vars.key.map KasIfcKey.n) kasIfcByteMax
  let e ← decodeOptional (vars.key.map KasIfcKey.e) rsaExpLenMax
  let dmp1 ← decodeOptional (vars.crt.map KasIfcCrt.dmp1) kasIfcByteMax
  let dmq1 ← decodeOptional (vars.crt.map KasIfcCrt.dmq1) kasIfcByteMax
  let iqmp ← decodeOptional (vars.crt.map KasIfcCrt.iqmp) kasIfcByteMax
  let serverCtZ ← decodeOptional vars.serverCtZ kasIfcByteMax
  let providedKas2Z ← decodeOptional vars.kas2Z kasIfcByteMax
  let serverN ← decodeOptional (vars.server.map KasIfcServer.n) kasIfcByteMax
  let serverE ← onlyIf (vars.server ≠ none)
    ((hexstrToBin (vars.server.map KasIfcServer.e) rsaExpLenMax).map (.holding kasIfcByteMax)) {}
  let iutCtZ ← decodeFresh vars.ctZ kasIfcByteMax
  let iutPtZ ← decodeFresh vars.ptZ kasIfcByteMax
  let initiates := settings.role = some .initiator
  let providedCtZ ← onlyIf (settings.testType = .val ∧ initiates)
    (decodeBytes vars.ctZ kasIfcByteMax) {}
  let providedPtZ ← onlyIf (settings.testType = .val ∧ ¬initiates)
    (decodeBytes vars.ptZ kasIfcByteMax) {}
  pure {
    testType := settings.testType
    keyGen := settings.keyGen
    md := group.hashAlg
    scheme := settings.scheme
    kasRole := settings.role
    serverN := serverN
    serverE := serverE
    p := p
    q := q
    d := d
    n := n
    e := e
    dmp1 := dmp1
    dmq1 := dmq1
    iqmp := iqmp
    iutPtZ := iutPtZ
    iutCtZ := iutCtZ
    providedPtZ := providedPtZ
    providedCtZ := providedCtZ
    serverCtZ := serverCtZ
    providedKas2Z := providedKas2Z
    modulo := group.modulo }

/-- The first bytes at a pointer. -/
def Bytes.read (b : Bytes) : List UInt8 := (b.data.getD ⟨0, []⟩).read b.len.toNat

/-- The secrets of both parties, the one of the initiator in front. -/
def KasIfcTc.mergedZ (stc : KasIfcTc) : Bytes :=
  let bytes := if stc.kasRole = some .initiator then stc.iutPtZ.read ++ stc.serverPtZ.read
    else stc.serverPtZ.read ++ stc.iutPtZ.read
  { data := some ⟨bytes.length, bytes⟩, len := stc.iutPtZ.len + stc.serverPtZ.len }

/-- The part of {lit}`amvp_kas_ifc_ssc_output_tc` for what the implementation has sent. -/
def kasIfcOutputIut (stc : KasIfcTc) (tcRsp : JsonObject) : Except AmvpResult JsonObject := do
  let tcRsp ← setHexstr tcRsp "iutC" stc.iutCtZ.data stc.iutCtZ.len kasIfcStrMax
  setHexstr tcRsp (if stc.md = none then "iutZ" else "iutHashZ") stc.iutPtZ.data stc.iutPtZ.len
    kasIfcStrMax

/-- {lit}`amvp_kas_ifc_ssc_output_tc`. -/
def kasIfcSscOutputTc (stc : KasIfcTc) (tcRsp : JsonObject) : Except AmvpResult JsonObject := do
  let zName := if stc.md = none then "z" else "hashZ"
  let tcRsp ←
    onlyIf (stc.kasRole = some .initiator ∨ stc.scheme = .kas2) (kasIfcOutputIut stc tcRsp) tcRsp
  let tcRsp ← onlyIf (stc.kasRole = some .initiator)
    (setHexstr tcRsp zName stc.iutPtZ.data stc.iutPtZ.len kasIfcStrMax) tcRsp
  let tcRsp ← onlyIf (stc.kasRole ≠ some .initiator ∧ stc.scheme ≠ .kas2)
    (setHexstr tcRsp zName stc.serverPtZ.data stc.serverPtZ.len kasIfcStrMax) tcRsp
  onlyIf (stc.scheme = .kas2)
    (setHexstr tcRsp "z" stc.mergedZ.data stc.mergedZ.len kasIfcStrMax) tcRsp

/-- {lit}`memcmp`: the difference of the first two bytes that differ. -/
def memcmp : List UInt8 → List UInt8 → Int
  | a :: as, b :: bs => if a = b then memcmp as bs else a.toNat - b.toNat
  | _, _ => 0

/-- {lit}`memcmp_s` on two pointers of the same length; it leaves the earlier outcome in place
when there is nothing to compare. -/
def compareBytes (dest src : Bytes) (diff : Int) : Int :=
  if dest.data = none ∨ src.data = none ∨ src.len = 0 then diff else memcmp dest.read src.read

/-- {lit}`amvp_kas_ifc_ssc_val_output_tc`: the outcomes of the comparisons are added up. -/
def kasIfcSscValOutputTc (stc : KasIfcTc) (tcRsp : JsonObject) : JsonObject :=
  let initiates := stc.kasRole = some .initiator
  let computed := if initiates then stc.iutCtZ else stc.serverPtZ
  let provided := if initiates then stc.providedCtZ else stc.providedPtZ
  let compared := initiates ∨ stc.scheme ≠ .kas2
  let diff := if compared ∧ computed.len = provided.len then compareBytes computed provided 1 else 1
  let rv := if compared then diff else 0
  let merged :=
    if stc.mergedZ.len = stc.providedKas2Z.len then compareBytes stc.mergedZ stc.providedKas2Z diff
    else 1
  let rv := if stc.scheme = .kas2 then rv + merged else rv
  jsonObjectSetBoolean tcRsp "testPassed" (if rv = 0 then 1 else 0)

/-- The answer to a test. -/
def kasIfcOutput (stc : KasIfcTc) (tcRsp : JsonObject) : Except AmvpResult JsonObject :=
  match stc.testType with
  | .val => pure (kasIfcSscValOutputTc stc tcRsp)
  | .aft => kasIfcSscOutputTc stc tcRsp

/-! ## Groups and tests -/

/-- The part of {lit}`amvp_kas_ifc_ssc` that reads a group.  A scheme or a role that is not
understood leaves the one before in place. -/
def readKasIfcGroup (hashed : Bool) (vars : KasIfcVars) (groupobj : Option JsonObject) :
    Except AmvpResult (KasIfcGroup × KasIfcVars) := do
  let tgId ← readTgId groupobj .malformedJson
  let testTypeStr ← need (jsonObjectGetString groupobj "testType") .missingArg
  let testType ← need (readKasIfcTestType testTypeStr) .invalidArg
  let keyGenStr ← need (jsonObjectGetString groupobj "keyGenerationMethod") .missingArg
  let keyGen ← need (readKeyGen keyGenStr) .invalidArg
  let schemeStr ← need (jsonObjectGetString groupobj "scheme") .missingArg
  let scheme := (readKasIfcScheme schemeStr).getD vars.scheme
  let hashAlg ← onlyIf hashed (readKasEccHash "hashFunctionZ" kasEccSscHashes groupobj) none
  let kasRole ← need (jsonObjectGetString groupobj "kasRole") .missingArg
  let role := (readKasIfcRole kasRole).or vars.role
  let _ ← need (jsonObjectGetString groupobj "fixedPubExp") .missingArg
  let modulo := toUnsigned (jsonObjectGetNumber groupobj "modulo")
  stopIf (modulo = 0) .missingArg
  pure (⟨tgId, ⟨testType, keyGen, scheme, role⟩, hashAlg, modulo⟩,
    { vars with scheme := scheme, role := role })

/-- The key of the implementation.  The check of the private exponent looks at the one of the
test before. -/
def readKasIfcKey (d : Option String) (testobj : Option JsonObject) :
    Except AmvpResult KasIfcKey := do
  let p ← readString testobj "iutP" kasIfcStrMax
  let q ← readString testobj "iutQ" kasIfcStrMax
  stopIf (∃ str ∈ d, strnlenS str (kasIfcStrMax + 1) > kasIfcStrMax) .invalidArg
  let n ← readString testobj "iutN" kasIfcStrMax
  let e ← need (jsonObjectGetString testobj "iutE") .missingArg
  stopIf (strnlenS e (kasIfcStrMax + 1) > rsaExpLenMax) .invalidArg
  pure ⟨p, q, n, e⟩

/-- The components of the Chinese remainder theorem. -/
def readKasIfcCrt (testobj : Option JsonObject) : Except AmvpResult KasIfcCrt := do
  let dmp1 ← readString testobj "iutDmp1" kasIfcStrMax
  let dmq1 ← readString testobj "iutDmq1" kasIfcStrMax
  let iqmp ← readString testobj "iutIqmp" kasIfcStrMax
  pure ⟨dmp1, dmq1, iqmp⟩

/-- The key of the server. -/
def readKasIfcServer (testobj : Option JsonObject) : Except AmvpResult KasIfcServer := do
  let n ← readString testobj "serverN" kasIfcStrMax
  let e ← readString testobj "serverE" kasIfcStrMax
  pure ⟨n, e⟩

/-- The name of the expected secret. -/
def KasIfcSettings.ptZName (s : KasIfcSettings) : String :=
  if s.scheme = .kas1 ∧ s.role ≠ some .initiator then "z" else "iutZ"

/-- The part of {lit}`amvp_kas_ifc_ssc` that reads a test.  For scheme KAS2 the key of the
server is read once more, with a smaller limit. -/
def readKasIfcTest (hashed : Bool) (vars : KasIfcVars) (s : KasIfcSettings)
    (testobj : Option JsonObject) : Except AmvpResult KasIfcVars := do
  let key ← onlyIf s.readsKey ((readKasIfcKey vars.d testobj).map some) vars.key
  let crt ← onlyIf s.readsCrt ((readKasIfcCrt testobj).map some) vars.crt
  let d ← onlyIf s.readsD
    ((need (jsonObjectGetString testobj "iutD") .missingArg).map some) vars.d
  let server ← onlyIf s.readsServer ((readKasIfcServer testobj).map some) vars.server
  let serverCtZ ← onlyIf s.readsKey
    ((readString testobj "serverC" kasIfcStrMax).map some) vars.serverCtZ
  stopIf (s.scheme = .kas2 ∧
    server.any fun key => strnlenS key.e (kasIfcStrMax + 1) > rsaExpLenMax) .invalidArg
  let ptZ ← onlyIf s.readsPtZ
    ((need (jsonObjectGetString testobj s.ptZName) .missingArg).map some) vars.ptZ
  let ctZ ← onlyIf s.readsCtZ ((readString testobj "iutC" kasIfcStrMax).map some) vars.ctZ
  let kas2Z ← onlyIf s.readsKas2Z
    ((need (jsonObjectGetString testobj (if hashed then "hashZ" else "z")) .missingArg).map some)
    vars.kas2Z
  pure { vars with key, crt, d, server, serverCtZ, ptZ, ctZ, kas2Z }

/-- The loops of {lit}`amvp_kas_ifc_ssc`. -/
def kasIfcLoader (hashed : Bool) : KatLoader KasIfcVars KasIfcGroup KasIfcTc where
  start := {}
  enter vars groupobj _ := readKasIfcGroup hashed vars groupobj
  load vars group testobj := do
    let vars ← readKasIfcTest hashed vars group.settings testobj
    let stc ← kasIfcSscInitTc vars group
    pure ({ question := stc }, vars)
  finish _ testobj stc := kasIfcOutput stc (responseTestInt testobj)
  close group tests := responseGroup "tgId" group.tgId tests
  refused := .cryptoModuleFail

/-- Whether the registered capability has a hash function. -/
def KatCtx.kasIfcHashed (ctx : KatCtx) : Bool :=
  match ctx.content .kasIfcSsc .kasIfcCap with
  | some cap => cap.hash ≠ 0
  | none => false

/-- The head of {lit}`amvp_kas_ifc_ssc_kat_handler`. -/
def setupKasIfc (ctx : KatCtx) (obj : JsonObject) : Except AmvpResult String := do
  let algStr ← need (jsonObjectGetString (some obj) "algorithm") .malformedJson
  let _ ← need (ctx.caps.locate .kasIfcSsc) .unsupportedOp
  pure algStr

/-- {lit}`amvp_kas_ifc_ssc_kat_handler`. -/
def kasIfcSscKatHandler (ctx : KatCtx) : KatHandler KasIfcTc :=
  katHandler (setupKasIfc ctx) (fun _ => (kasIfcLoader ctx.kasIfcHashed).worker)
    (responseObject ctx.vsId)

/-! ## Independence -/

/-- The scheme that a group names. -/
def kasIfcSchemeOf (groupobj : Option JsonObject) : Option KasIfcScheme :=
  (jsonObjectGetString groupobj "scheme").bind readKasIfcScheme

/-- The role that a group names. -/
def kasIfcRoleOf (groupobj : Option JsonObject) : Option KasIfcRole :=
  (jsonObjectGetString groupobj "kasRole").bind readKasIfcRole

/-- The settings of a group, with a scheme and a role for the case that it names none. -/
def kasIfcSettingsOf (scheme : KasIfcScheme) (role : Option KasIfcRole)
    (groupobj : Option JsonObject) : Option KasIfcSettings := do
  let testType ← (jsonObjectGetString groupobj "testType").bind readKasIfcTestType
  let keyGen ← (jsonObjectGetString groupobj "keyGenerationMethod").bind readKeyGen
  pure ⟨testType, keyGen, (kasIfcSchemeOf groupobj).getD scheme, (kasIfcRoleOf groupobj).or role⟩

/-- The last scheme that was understood. -/
def kasIfcScheme (groups : List TestGroup) : KasIfcScheme :=
  groups.foldl (fun scheme b => (kasIfcSchemeOf b.head).getD scheme) .kas1

/-- The last role that was understood. -/
def kasIfcRole (groups : List TestGroup) : Option KasIfcRole :=
  groups.foldl (fun role b => (kasIfcRoleOf b.head).or role) none

/-- The tests of a group with the settings that are in force after other groups. -/
def kasIfcTestsAfter (before : List TestGroup) (b : TestGroup) :
    List (KasIfcSettings × Option JsonObject) :=
  (kasIfcSettingsOf (kasIfcScheme before) (kasIfcRole before) b.head).toList.flatMap
    fun s => b.items.map (s, ·)

/-- The tests of a vector set with the settings that are in force. -/
def kasIfcTests (groups : List TestGroup) : List (KasIfcSettings × Option JsonObject) :=
  (List.range groups.length).flatMap fun k =>
    groups[k]?.toList.flatMap (kasIfcTestsAfter (groups.take k))

/-- The scheme after a further group is its own, or the one before. -/
theorem kasIfcScheme_concat (bs : List TestGroup) (b : TestGroup) :
    kasIfcScheme (bs ++ [b]) = (kasIfcSchemeOf b.head).getD (kasIfcScheme bs) := by
  simp [kasIfcScheme, List.foldl_append]

/-- The role after a further group is its own, or the one before. -/
theorem kasIfcRole_concat (bs : List TestGroup) (b : TestGroup) :
    kasIfcRole (bs ++ [b]) = (kasIfcRoleOf b.head).or (kasIfcRole bs) := by
  simp [kasIfcRole, List.foldl_append]

/-- The tests after a further group are those before with its own. -/
theorem kasIfcTests_concat (bs : List TestGroup) (b : TestGroup) :
    kasIfcTests (bs ++ [b]) = kasIfcTests bs ++ kasIfcTestsAfter bs b := by
  unfold kasIfcTests
  rw [List.length_append, List.length_singleton, List.range_succ, List.flatMap_append]
  congr 1
  · refine List.flatMap_congr fun k hk => ?_
    have hlt := List.mem_range.mp hk
    rw [List.getElem?_append_left hlt, List.take_append_of_le_length (by omega)]
  · simp

/-- The test with some settings that comes last. -/
def lastKasIfcTest (reads : KasIfcSettings → Bool) (groups : List TestGroup) :
    Option (KasIfcSettings × Option JsonObject) :=
  ((kasIfcTests groups).filter (reads ·.1)).getLast?

open KasIfcSettings in
/-- Nothing was left behind: the scheme and the role are understood, or those in force are the
ones at the start; a component is read, or no test before has read it; an expected secret or
cipher text is read, or the last one that was is empty. -/
def KasIfcOwn (groups : List TestGroup) (i _j : Nat) : Prop :=
  let own := groupAt groups i
  let before := groups.take i
  (kasIfcSchemeOf own ≠ none ∨ kasIfcScheme before = .kas1) ∧
    (kasIfcRoleOf own ≠ none ∨ kasIfcRole before = none) ∧
    ∀ s ∈ kasIfcSettingsOf .kas1 none own,
      (∀ reads ∈ [readsKey, readsCrt, readsD, readsServer, readsKas2Z],
        reads s = true ∨ ∀ test ∈ kasIfcTests before, reads test.1 = false) ∧
      (s.readsPtZ = true ∨ ∀ test ∈ lastKasIfcTest readsPtZ before,
        jsonObjectGetString test.2 test.1.ptZName = some "") ∧
      (s.readsCtZ = true ∨ ∀ test ∈ lastKasIfcTest readsCtZ before,
        jsonObjectGetString test.2 "iutC" = some "")

/-- The settings of a group are its scheme and what its object says. -/
theorem kasIfcSettingsOf_eq_some {scheme : KasIfcScheme} {role : Option KasIfcRole}
    {groupobj : Option JsonObject} {s : KasIfcSettings}
    (h : kasIfcSettingsOf scheme role groupobj = some s) :
    s.scheme = (kasIfcSchemeOf groupobj).getD scheme ∧
      s.role = (kasIfcRoleOf groupobj).or role ∧
      ∀ scheme₁ role₁, kasIfcSettingsOf scheme₁ role₁ groupobj = some { s with
        scheme := (kasIfcSchemeOf groupobj).getD scheme₁
        role := (kasIfcRoleOf groupobj).or role₁ } := by
  simp only [kasIfcSettingsOf, Option.bind_eq_bind, Option.bind_eq_some_iff, Option.pure_def,
    Option.some.injEq] at h ⊢
  obtain ⟨testType, htype, keyGen, hkeyGen, rfl⟩ := h
  exact ⟨rfl, rfl, fun scheme₁ role₁ => ⟨testType, htype, keyGen, hkeyGen, rfl⟩⟩

/-- The group that is read, and the group alone. -/
theorem readKasIfcGroup_ok {hashed : Bool} {vars vars' : KasIfcVars} {groupobj : Option JsonObject}
    {group : KasIfcGroup} (h : readKasIfcGroup hashed vars groupobj = .ok (group, vars')) :
    kasIfcSettingsOf vars.scheme vars.role groupobj = some group.settings ∧
      vars' = { vars with scheme := group.settings.scheme, role := group.settings.role } ∧
      ∀ vars₁ : KasIfcVars, ∃ settings,
        kasIfcSettingsOf vars₁.scheme vars₁.role groupobj = some settings ∧
        readKasIfcGroup hashed vars₁ groupobj = .ok ({ group with settings := settings },
          { vars₁ with scheme := settings.scheme, role := settings.role }) := by
  simp only [readKasIfcGroup, bind_eq_ok, need_eq_ok, stopIf_eq_ok, exists_const, pure_eq_ok,
    Prod.mk.injEq] at h
  obtain ⟨tgId, htgId, typeStr, htypeStr, testType, htype, keyGenStr, hkeyGenStr, keyGen, hkeyGen,
    schemeStr, hscheme, hashAlg, hhash, roleStr, hrole, pubExp, hpubExp, hmodulo, rfl, rfl⟩ := h
  have hsettings : ∀ scheme role, kasIfcSettingsOf scheme role groupobj = some ⟨testType, keyGen,
      (readKasIfcScheme schemeStr).getD scheme, (readKasIfcRole roleStr).or role⟩ := by
    intro scheme role
    simp [kasIfcSettingsOf, kasIfcSchemeOf, kasIfcRoleOf, htypeStr, htype, hkeyGenStr, hkeyGen,
      hscheme, hrole]
  refine ⟨hsettings _ _, rfl, fun vars₁ => ⟨_, hsettings _ _, ?_⟩⟩
  simp only [readKasIfcGroup, bind_eq_ok, need_eq_ok, stopIf_eq_ok, exists_const, pure_eq_ok,
    Prod.mk.injEq]
  exact ⟨tgId, htgId, typeStr, htypeStr, testType, htype, keyGenStr, hkeyGenStr, keyGen, hkeyGen,
    schemeStr, hscheme, hashAlg, hhash, roleStr, hrole, pubExp, hpubExp, hmodulo, rfl, rfl⟩

/-- What a test reads, and what it takes over. -/
structure KasIfcReads (s : KasIfcSettings) (testobj : Option JsonObject)
    (vars vars' : KasIfcVars) : Prop where
  force : vars'.scheme = vars.scheme ∧ vars'.role = vars.role
  key : vars'.key.isSome = (s.readsKey || vars.key.isSome) ∧
    (s.readsKey = false → vars'.key = vars.key)
  crt : vars'.crt.isSome = (s.readsCrt || vars.crt.isSome) ∧
    (s.readsCrt = false → vars'.crt = vars.crt)
  d : vars'.d.isSome = (s.readsD || vars.d.isSome) ∧ (s.readsD = false → vars'.d = vars.d)
  server : vars'.server.isSome = (s.readsServer || vars.server.isSome) ∧
    (s.readsServer = false → vars'.server = vars.server)
  serverCtZ : vars'.serverCtZ.isSome = (s.readsKey || vars.serverCtZ.isSome) ∧
    (s.readsKey = false → vars'.serverCtZ = vars.serverCtZ)
  kas2Z : vars'.kas2Z.isSome = (s.readsKas2Z || vars.kas2Z.isSome) ∧
    (s.readsKas2Z = false → vars'.kas2Z = vars.kas2Z)
  ptZ : (s.readsPtZ = false → vars'.ptZ = vars.ptZ) ∧
    (s.readsPtZ = true → vars'.ptZ = jsonObjectGetString testobj s.ptZName ∧ vars'.ptZ.isSome)
  ctZ : (s.readsCtZ = false → vars'.ctZ = vars.ctZ) ∧
    (s.readsCtZ = true → vars'.ctZ = jsonObjectGetString testobj "iutC" ∧ vars'.ctZ.isSome)

/-- What must be there, with the error forgotten. -/
theorem need_toOption {ε α : Type} (x : Option α) (e : ε) : (need x e).toOption = x := by
  cases x <;> rfl

/-- A text that is read is that of its member. -/
theorem readString_toOption {obj : Option JsonObject} {name : String} {strMax : Nat}
    (h : (readString obj name strMax).toOption.isSome) :
    (readString obj name strMax).toOption = jsonObjectGetString obj name := by
  cases hread : readString obj name strMax with
  | error e => simp [hread, Except.toOption] at h
  | ok str => exact (readString_ok hread).1.symm

/-- A test that is read leaves the variables it sets. -/
theorem readKasIfcTest_ok {hashed : Bool} {vars vars' : KasIfcVars} {s : KasIfcSettings}
    {testobj : Option JsonObject} (h : readKasIfcTest hashed vars s testobj = .ok vars') :
    KasIfcReads s testobj vars vars' := by
  simp only [readKasIfcTest, bind_eq_ok, stopIf_eq_ok, exists_const, pure_eq_ok] at h
  obtain ⟨key, hkey, crt, hcrt, d, hd, server, hserver, serverCtZ, hserverCtZ, -, ptZ, hptZ, ctZ,
    hctZ, kas2Z, hkas2Z, rfl⟩ := h
  obtain ⟨hkeySome, hkeyOld, -⟩ := onlyIf_some_ok hkey
  obtain ⟨hcrtSome, hcrtOld, -⟩ := onlyIf_some_ok hcrt
  obtain ⟨hdSome, hdOld, -⟩ := onlyIf_some_ok hd
  obtain ⟨hserverSome, hserverOld, -⟩ := onlyIf_some_ok hserver
  obtain ⟨hserverCtZSome, hserverCtZOld, -⟩ := onlyIf_some_ok hserverCtZ
  obtain ⟨hptZSome, hptZOld, hptZNew, -⟩ := onlyIf_some_ok hptZ
  obtain ⟨hctZSome, hctZOld, hctZNew, -⟩ := onlyIf_some_ok hctZ
  obtain ⟨hkas2ZSome, hkas2ZOld, -⟩ := onlyIf_some_ok hkas2Z
  refine ⟨⟨rfl, rfl⟩, ⟨hkeySome, hkeyOld⟩, ⟨hcrtSome, hcrtOld⟩, ⟨hdSome, hdOld⟩,
    ⟨hserverSome, hserverOld⟩, ⟨hserverCtZSome, hserverCtZOld⟩, ⟨hkas2ZSome, hkas2ZOld⟩,
    ⟨hptZOld, fun hreads => ?_⟩, ⟨hctZOld, fun hreads => ?_⟩⟩
  · rw [hreads, Bool.true_or] at hptZSome
    exact ⟨by rw [← hptZNew hreads, need_toOption], hptZSome⟩
  · rw [hreads, Bool.true_or] at hctZSome
    refine ⟨?_, hctZSome⟩
    rw [← hctZNew hreads] at hctZSome ⊢
    exact readString_toOption hctZSome

/-- What the test alone reads. -/
theorem readKasIfcTest_fresh {hashed : Bool} {vars vars' : KasIfcVars} {s : KasIfcSettings}
    {testobj : Option JsonObject} (vars₁ : KasIfcVars)
    (h : readKasIfcTest hashed vars s testobj = .ok vars') (hd : vars₁.d = none) :
    readKasIfcTest hashed vars₁ s testobj = .ok { vars₁ with
      key := if s.readsKey then vars'.key else vars₁.key
      crt := if s.readsCrt then vars'.crt else vars₁.crt
      d := if s.readsD then vars'.d else vars₁.d
      server := if s.readsServer then vars'.server else vars₁.server
      serverCtZ := if s.readsKey then vars'.serverCtZ else vars₁.serverCtZ
      ptZ := if s.readsPtZ then vars'.ptZ else vars₁.ptZ
      ctZ := if s.readsCtZ then vars'.ctZ else vars₁.ctZ
      kas2Z := if s.readsKas2Z then vars'.kas2Z else vars₁.kas2Z } := by
  simp only [readKasIfcTest, bind_eq_ok, stopIf_eq_ok, exists_const, pure_eq_ok] at h ⊢
  obtain ⟨key, hkey, crt, hcrt, d, hd', server, hserver, serverCtZ, hserverCtZ, hlimit, ptZ, hptZ,
    ctZ, hctZ, kas2Z, hkas2Z, rfl⟩ := h
  have hkey' : onlyIf s.readsKey ((readKasIfcKey vars₁.d testobj).map some) vars₁.key =
      .ok (if s.readsKey then key else vars₁.key) := by
    rw [hd]
    cases hreads : s.readsKey with
    | false => rfl
    | true =>
        rw [hreads, onlyIf_pos rfl, map_eq_ok] at hkey
        obtain ⟨key', hread, rfl⟩ := hkey
        rw [onlyIf_pos rfl, map_eq_ok]
        refine ⟨key', ?_, rfl⟩
        simp only [readKasIfcKey, bind_eq_ok, stopIf_eq_ok, exists_const] at hread ⊢
        obtain ⟨p, hp, q, hq, -, hrest⟩ := hread
        exact ⟨p, hp, q, hq, by simp, hrest⟩
  refine ⟨_, hkey', _, (onlyIf_some_ok hcrt).2.2.2 _, _, (onlyIf_some_ok hd').2.2.2 _, _,
    (onlyIf_some_ok hserver).2.2.2 _, _, (onlyIf_some_ok hserverCtZ).2.2.2 _, ?_, _,
    (onlyIf_some_ok hptZ).2.2.2 _, _, (onlyIf_some_ok hctZ).2.2.2 _, _,
    (onlyIf_some_ok hkas2Z).2.2.2 _, rfl⟩
  rintro ⟨hscheme, hlong⟩
  have hreads : s.readsServer = true := by simp [KasIfcSettings.readsServer, hscheme]
  rw [if_pos hreads] at hlong
  exact hlimit ⟨hscheme, hlong⟩

/-- Loading a test reads it and then decodes it. -/
theorem kasIfc_load_ok {hashed : Bool} {vars vars' : KasIfcVars} {group : KasIfcGroup}
    {testobj : Option JsonObject} {draft : Draft KasIfcTc} :
    (kasIfcLoader hashed).load vars group testobj = .ok (draft, vars') ↔
      readKasIfcTest hashed vars group.settings testobj = .ok vars' ∧
      ∃ stc, kasIfcSscInitTc vars' group = .ok stc ∧ draft = { question := stc } := by
  simp only [kasIfcLoader, bind_eq_ok, pure_eq_ok, Prod.mk.injEq]
  constructor
  · rintro ⟨vars₁, hread, stc, hinit, rfl, rfl⟩
    exact ⟨hread, stc, hinit, rfl⟩
  · rintro ⟨hread, stc, hinit, rfl⟩
    exact ⟨vars', hread, stc, hinit, rfl, rfl⟩

/-- A relation between tests and variables that every test keeps and that does not look at the
scheme and the role. -/
structure KasIfcKept (R : List (KasIfcSettings × Option JsonObject) → KasIfcVars → Prop) :
    Prop where
  start : R [] {}
  force : ∀ {tests vars} scheme role, R tests vars →
    R tests { vars with scheme := scheme, role := role }
  step : ∀ {tests vars vars' s test}, R tests vars → KasIfcReads s test vars vars' →
    R (tests ++ [(s, test)]) vars'

section Carry

variable {R : List (KasIfcSettings × Option JsonObject) → KasIfcVars → Prop} {hashed : Bool}

/-- What is kept over one test is kept over those of a group. -/
theorem kasIfc_carryItems (hR : KasIfcKept R) {group : KasIfcGroup} {vars vars' : KasIfcVars}
    {tests : List (KasIfcSettings × Option JsonObject)} {ts : List (Option JsonObject)}
    (hvars : R tests vars) (h : (kasIfcLoader hashed).carryItems group vars ts = .ok vars') :
    vars'.scheme = vars.scheme ∧ vars'.role = vars.role ∧
      R (tests ++ ts.map (group.settings, ·)) vars' := by
  refine Loader.carryItems_induction (Q := fun ts vars' => vars'.scheme = vars.scheme ∧
    vars'.role = vars.role ∧ R (tests ++ ts.map (group.settings, ·)) vars')
    ⟨rfl, rfl, by simpa using hvars⟩ ?_ h
  intro ts t vars₁ draft vars₂ ⟨hscheme, hrole, hkept⟩ hload
  have hreads := readKasIfcTest_ok (kasIfc_load_ok.mp hload).1
  refine ⟨hreads.force.1.trans hscheme, hreads.force.2.trans hrole, ?_⟩
  simpa using hR.step hkept hreads

/-- And over all groups, with the scheme and the role of the last. -/
theorem kasIfc_carry (hR : KasIfcKept R) {bs : List TestGroup} {vars : KasIfcVars}
    (h : (kasIfcLoader hashed).carry (kasIfcLoader hashed).start bs = .ok vars) :
    vars.scheme = kasIfcScheme bs ∧ vars.role = kasIfcRole bs ∧ R (kasIfcTests bs) vars := by
  refine Loader.carry_induction (P := fun bs vars => vars.scheme = kasIfcScheme bs ∧
    vars.role = kasIfcRole bs ∧ R (kasIfcTests bs) vars)
    ⟨rfl, rfl, by simpa [kasIfcTests, kasIfcLoader] using hR.start⟩ ?_ h
  intro bs b vars₀ group vars₁ vars₂ ⟨hscheme, hrole, hkept⟩ henter hitems
  obtain ⟨hsettings, rfl, -⟩ := readKasIfcGroup_ok henter
  obtain ⟨hscheme', hrole', hkept'⟩ := kasIfc_carryItems hR (hR.force _ _ hkept) hitems
  have hown : kasIfcTestsAfter bs b = b.items.map (group.settings, ·) := by
    unfold kasIfcTestsAfter
    rw [← hscheme, ← hrole, hsettings]
    simp
  have hforce : group.settings.scheme = (kasIfcSchemeOf b.head).getD vars₀.scheme ∧
      group.settings.role = (kasIfcRoleOf b.head).or vars₀.role :=
    ⟨(kasIfcSettingsOf_eq_some hsettings).1, (kasIfcSettingsOf_eq_some hsettings).2.1⟩
  rw [kasIfcScheme_concat, kasIfcRole_concat, kasIfcTests_concat, hown, hscheme', hrole',
    ← hscheme, ← hrole]
  exact ⟨hforce.1, hforce.2, hkept'⟩

end Carry

/-- What tests leave behind: the components that some test has read, and the last secret and
cipher text. -/
structure KasIfcLeft (tests : List (KasIfcSettings × Option JsonObject)) (vars : KasIfcVars) :
    Prop where
  key : vars.key.isSome ↔ ∃ test ∈ tests, test.1.readsKey
  crt : vars.crt.isSome ↔ ∃ test ∈ tests, test.1.readsCrt
  d : vars.d.isSome ↔ ∃ test ∈ tests, test.1.readsD
  server : vars.server.isSome ↔ ∃ test ∈ tests, test.1.readsServer
  serverCtZ : vars.serverCtZ.isSome ↔ ∃ test ∈ tests, test.1.readsKey
  kas2Z : vars.kas2Z.isSome ↔ ∃ test ∈ tests, test.1.readsKas2Z
  ptZ : vars.ptZ = (tests.filter (·.1.readsPtZ)).getLast?.bind fun test =>
    jsonObjectGetString test.2 test.1.ptZName
  ctZ : vars.ctZ = (tests.filter (·.1.readsCtZ)).getLast?.bind fun test =>
    jsonObjectGetString test.2 "iutC"
  ptZGiven : ∀ test ∈ tests, test.1.readsPtZ →
    (jsonObjectGetString test.2 test.1.ptZName).isSome
  ctZGiven : ∀ test ∈ tests, test.1.readsCtZ → (jsonObjectGetString test.2 "iutC").isSome

/-- One more test fills a slot or leaves it. -/
theorem kasIfc_slot_step {reads : KasIfcSettings → Bool} {old new : Bool}
    {tests : List (KasIfcSettings × Option JsonObject)} {s : KasIfcSettings}
    {test : Option JsonObject} (hold : old ↔ ∃ test ∈ tests, reads test.1)
    (hnew : new = (reads s || old)) : new ↔ ∃ test' ∈ tests ++ [(s, test)], reads test'.1 := by
  rw [hnew, Bool.or_eq_true, hold]
  constructor
  · rintro (hs | ⟨test', hmem, htest'⟩)
    · exact ⟨(s, test), by simp, hs⟩
    · exact ⟨test', by simp [hmem], htest'⟩
  · rintro ⟨test', hmem, htest'⟩
    rcases List.mem_append.mp hmem with hmem | hmem
    · exact .inr ⟨test', hmem, htest'⟩
    · rw [List.mem_singleton.mp hmem] at htest'
      exact .inl htest'

/-- One more test replaces the last value or leaves it. -/
theorem kasIfc_last_step (reads : KasIfcSettings → Bool) {old new : Option String}
    {value : KasIfcSettings × Option JsonObject → Option String}
    {tests : List (KasIfcSettings × Option JsonObject)} {s : KasIfcSettings}
    {test : Option JsonObject}
    (hold : old = (tests.filter (reads ·.1)).getLast?.bind value)
    (hkept : reads s = false → new = old) (hread : reads s = true → new = value (s, test)) :
    new = ((tests ++ [(s, test)]).filter (reads ·.1)).getLast?.bind value := by
  rw [List.filter_append]
  cases hreads : reads s with
  | false => simp [hreads, hkept hreads, hold]
  | true => simp [hreads, hread hreads]

/-- Texts that were given stay so when the next test gives its own. -/
theorem kasIfc_given_step {reads : KasIfcSettings → Bool}
    {value : KasIfcSettings × Option JsonObject → Option String}
    {tests : List (KasIfcSettings × Option JsonObject)} {s : KasIfcSettings}
    {test : Option JsonObject} (hold : ∀ test ∈ tests, reads test.1 → (value test).isSome)
    (hread : reads s → (value (s, test)).isSome) :
    ∀ test' ∈ tests ++ [(s, test)], reads test'.1 → (value test').isSome := by
  intro test' hmem
  rcases List.mem_append.mp hmem with hmem | hmem
  · exact hold test' hmem
  · rw [List.mem_singleton.mp hmem]
    exact hread

/-- How the variables depend on the tests before is kept. -/
theorem kasIfcKept_left : KasIfcKept KasIfcLeft where
  start := by constructor <;> simp
  force _ _ h :=
    ⟨h.key, h.crt, h.d, h.server, h.serverCtZ, h.kas2Z, h.ptZ, h.ctZ, h.ptZGiven, h.ctZGiven⟩
  step h hreads := by
    refine ⟨kasIfc_slot_step h.key hreads.key.1, kasIfc_slot_step h.crt hreads.crt.1,
      kasIfc_slot_step h.d hreads.d.1, kasIfc_slot_step h.server hreads.server.1,
      kasIfc_slot_step h.serverCtZ hreads.serverCtZ.1, kasIfc_slot_step h.kas2Z hreads.kas2Z.1,
      kasIfc_last_step KasIfcSettings.readsPtZ h.ptZ hreads.ptZ.1 fun hr => (hreads.ptZ.2 hr).1,
      kasIfc_last_step KasIfcSettings.readsCtZ h.ctZ hreads.ctZ.1 fun hr => (hreads.ctZ.2 hr).1,
      kasIfc_given_step h.ptZGiven fun hr => ?_, kasIfc_given_step h.ctZGiven fun hr => ?_⟩
    · rw [← (hreads.ptZ.2 hr).1]
      exact (hreads.ptZ.2 hr).2
    · rw [← (hreads.ctZ.2 hr).1]
      exact (hreads.ctZ.2 hr).2

/-- A buffer stays empty exactly when there is no string or an empty one. -/
theorem decodeFresh_eq_fresh {src : Option String} {size : Nat} :
    decodeFresh src size = .ok (.fresh size) ↔ src = none ∨ src = some "" := by
  constructor
  · intro h
    rcases onlyIf_cases h with ⟨hsrc, hdecode⟩ | ⟨hsrc, -⟩
    · obtain ⟨str, rfl⟩ := Option.ne_none_iff_exists'.mp hsrc
      simp only [decodeBytes, map_eq_ok, hexstrToBin, bind_eq_ok, need_eq_ok, stopIf_eq_ok,
        exists_const, pure_eq_ok, Option.some.injEq, exists_eq_left'] at hdecode
      obtain ⟨_, ⟨-, heven, rfl⟩, hbytes⟩ := hdecode
      have hlen := congrArg Bytes.len hbytes
      simp only [Bytes.holding, Bytes.fresh, hexPairs_length] at hlen
      unfold strnlenS hexstrMax at heven
      exact .inr (congrArg some (cBytes_eq_nil (List.length_eq_zero_iff.mp (by omega))))
    · exact .inl (not_not.mp hsrc)
  · rintro (rfl | rfl)
    · rfl
    · rfl

/-- The settings and the components that are there show in the test case. -/
theorem kasIfcSscInitTc_ok {vars : KasIfcVars} {group : KasIfcGroup} {stc : KasIfcTc}
    (h : kasIfcSscInitTc vars group = .ok stc) :
    group.settings = ⟨stc.testType, stc.keyGen, stc.scheme, stc.kasRole⟩ ∧
      stc.p.data.isSome = vars.key.isSome ∧ stc.dmp1.data.isSome = vars.crt.isSome ∧
      stc.d.data.isSome = vars.d.isSome ∧ stc.serverN.data.isSome = vars.server.isSome ∧
      stc.serverCtZ.data.isSome = vars.serverCtZ.isSome ∧
      stc.providedKas2Z.data.isSome = vars.kas2Z.isSome ∧
      decodeFresh vars.ptZ kasIfcByteMax = .ok stc.iutPtZ ∧
      decodeFresh vars.ctZ kasIfcByteMax = .ok stc.iutCtZ := by
  simp only [kasIfcSscInitTc, bind_eq_ok, pure_eq_ok] at h
  obtain ⟨p, hp, _, -, d, hd, _, -, _, -, dmp1, hdmp1, _, -, _, -, serverCtZ, hserverCtZ, kas2Z, hkas2Z,
    serverN, hserverN, _, -, iutCtZ, hctZ, iutPtZ, hptZ, _, -, _, -, rfl⟩ := h
  refine ⟨rfl, ?_, ?_, decodeOptional_isSome hd, ?_, decodeOptional_isSome hserverCtZ,
    decodeOptional_isSome hkas2Z, hptZ, hctZ⟩
  · rw [decodeOptional_isSome hp, Option.isSome_map]
  · rw [decodeOptional_isSome hdmp1, Option.isSome_map]
  · rw [decodeOptional_isSome hserverN, Option.isSome_map]

/-- A secret or cipher text that no test reads matters only through its buffer. -/
theorem kasIfcSscInitTc_congr {vars : KasIfcVars} {group : KasIfcGroup} (scheme : KasIfcScheme)
    (role : Option KasIfcRole) {ptZ ctZ : Option String}
    (hptZ : decodeFresh ptZ kasIfcByteMax = decodeFresh vars.ptZ kasIfcByteMax)
    (hctZ : decodeFresh ctZ kasIfcByteMax = decodeFresh vars.ctZ kasIfcByteMax)
    (hptZRead : group.settings.readsPtZ = true → ptZ = vars.ptZ)
    (hctZRead : group.settings.readsCtZ = true → ctZ = vars.ctZ) :
    kasIfcSscInitTc { vars with scheme := scheme, role := role, ptZ := ptZ, ctZ := ctZ } group =
      kasIfcSscInitTc vars group := by
  have hprovidedCt : onlyIf (group.settings.testType = .val ∧ group.settings.role = some .initiator)
      (decodeBytes ctZ kasIfcByteMax) {} =
      onlyIf (group.settings.testType = .val ∧ group.settings.role = some .initiator)
      (decodeBytes vars.ctZ kasIfcByteMax) {} := by
    by_cases hval : group.settings.testType = .val ∧ group.settings.role = some .initiator
    · rw [hctZRead (by simp [KasIfcSettings.readsCtZ, KasIfcSettings.readsPtZ,
        KasIfcSettings.readsServer, hval.1, hval.2])]
    · rw [onlyIf_neg hval, onlyIf_neg hval]
  have hprovidedPt : onlyIf (group.settings.testType = .val ∧ ¬group.settings.role = some .initiator)
      (decodeBytes ptZ kasIfcByteMax) {} =
      onlyIf (group.settings.testType = .val ∧ ¬group.settings.role = some .initiator)
      (decodeBytes vars.ptZ kasIfcByteMax) {} := by
    by_cases hval : group.settings.testType = .val ∧ ¬group.settings.role = some .initiator
    · rw [hptZRead (by simp [KasIfcSettings.readsPtZ, hval.1])]
    · rw [onlyIf_neg hval, onlyIf_neg hval]
  simp only [kasIfcSscInitTc, hptZ, hctZ, hprovidedCt, hprovidedPt]

/-- A slot is empty exactly when no test before gave it. -/
theorem kasIfc_none_iff {α : Type} {reads : KasIfcSettings → Bool} {content : Option α}
    {tests : List (KasIfcSettings × Option JsonObject)} {ts : List (Option JsonObject)}
    {s : KasIfcSettings} (h : content.isSome ↔ ∃ test ∈ tests ++ ts.map (s, ·), reads test.1)
    (hs : reads s = false) : content = none ↔ ∀ test ∈ tests, reads test.1 = false := by
  rw [← Option.not_isSome_iff_eq_none, h]
  constructor
  · intro hnone test hmem
    exact Bool.eq_false_iff.mpr fun htest =>
      hnone ⟨test, List.mem_append_left _ hmem, htest⟩
  · rintro hnone ⟨test, hmem, htest⟩
    rcases List.mem_append.mp hmem with hmem | hmem
    · simp [hnone test hmem] at htest
    · obtain ⟨_, -, rfl⟩ := List.mem_map.mp hmem
      simp [hs] at htest

/-- Tests of a group that does not read a slot do not change its last value. -/
theorem kasIfc_last_eq {reads : KasIfcSettings → Bool}
    (tests : List (KasIfcSettings × Option JsonObject)) (ts : List (Option JsonObject))
    {s : KasIfcSettings} (hs : reads s = false) :
    ((tests ++ ts.map (s, ·)).filter (reads ·.1)).getLast? =
      (tests.filter (reads ·.1)).getLast? := by
  have hnone : (ts.map (s, ·)).filter (reads ·.1) = [] := by
    simp [List.filter_eq_nil_iff, hs]
  rw [List.filter_append, hnone, List.append_nil]

/-- A value that was left behind is empty or missing exactly when the last test that has read
one has an empty one. -/
theorem kasIfc_empty_iff {reads : KasIfcSettings → Bool}
    {value : KasIfcSettings × Option JsonObject → Option String}
    {tests : List (KasIfcSettings × Option JsonObject)}
    (hgiven : ∀ test ∈ tests, reads test.1 → (value test).isSome) :
    (((tests.filter (reads ·.1)).getLast?.bind value = none ∨
      (tests.filter (reads ·.1)).getLast?.bind value = some "") ↔
        ∀ test ∈ (tests.filter (reads ·.1)).getLast?, value test = some "") := by
  cases hlast : (tests.filter (reads ·.1)).getLast? with
  | none => simp
  | some test =>
      have hmem := List.mem_filter.mp (List.mem_of_getLast? hlast)
      obtain ⟨str, hstr⟩ := Option.isSome_iff_exists.mp (hgiven test hmem.1 hmem.2)
      simp [hstr]

/-- Nothing that the test does not read is there. -/
structure KasIfcClean (s : KasIfcSettings) (vars : KasIfcVars) : Prop where
  key : s.readsKey = true ∨ vars.key = none
  crt : s.readsCrt = true ∨ vars.crt = none
  d : s.readsD = true ∨ vars.d = none
  server : s.readsServer = true ∨ vars.server = none
  serverCtZ : s.readsKey = true ∨ vars.serverCtZ = none
  kas2Z : s.readsKas2Z = true ∨ vars.kas2Z = none
  ptZ : s.readsPtZ = true ∨ vars.ptZ = none ∨ vars.ptZ = some ""
  ctZ : s.readsCtZ = true ∨ vars.ctZ = none ∨ vars.ctZ = some ""

/-- A slot that a test does not read is empty when the test case shows the same as for the test
alone. -/
theorem kasIfc_slot_clean {α : Type} {reads shown : Bool} {alone content : Option α}
    (hkept : reads = false → alone = none) (halone : shown = alone.isSome)
    (hcontent : shown = content.isSome) : reads = true ∨ content = none := by
  cases reads with
  | true => exact .inl rfl
  | false =>
      rw [halone, hkept rfl] at hcontent
      exact .inr (Option.not_isSome_iff_eq_none.mp (by simp [← hcontent]))

/-- A slot that is not read is taken over only when it is empty. -/
theorem kasIfc_slot_eq {α : Type} {reads : Bool} {content : Option α}
    (h : reads = true ∨ content = none) : (if reads then content else none) = content := by
  rcases h with h | h
  · rw [if_pos h]
  · rw [h, ite_self]

/-- The test alone gives the same test case exactly when its settings are the same and nothing
is there that it does not read. -/
theorem kasIfc_alone {hashed : Bool} {group : KasIfcGroup} {vars vars' : KasIfcVars}
    {groupobj t : Option JsonObject} {tc : KasIfcTc} {settings : KasIfcSettings}
    (hread : readKasIfcTest hashed vars group.settings t = .ok vars')
    (hinit : kasIfcSscInitTc vars' group = .ok tc)
    (henter : readKasIfcGroup hashed {} groupobj = .ok ({ group with settings := settings },
      { scheme := settings.scheme, role := settings.role })) :
    (kasIfcLoader hashed).alone groupobj t = some tc ↔
      settings = group.settings ∧ KasIfcClean group.settings vars' := by
  obtain ⟨hsettings, hkey, hcrt, hd, hserver, hserverCtZ, hkas2Z, hptZ, hctZ⟩ :=
    kasIfcSscInitTc_ok hinit
  rw [Loader.alone_eq_some]
  constructor
  · rintro ⟨group₁, vars₁, vars₁', henter₁, hload₁⟩
    have hsame := henter.symm.trans henter₁
    simp only [Except.ok.injEq, Prod.mk.injEq] at hsame
    obtain ⟨rfl, rfl⟩ := hsame
    obtain ⟨hread₁, stc, hinit₁, hdraft⟩ := kasIfc_load_ok.mp hload₁
    obtain rfl := (Draft.mk.inj hdraft).1
    have hreads := readKasIfcTest_ok hread₁
    obtain ⟨hsettings₁, hkey₁, hcrt₁, hd₁, hserver₁, hserverCtZ₁, hkas2Z₁, hptZ₁, hctZ₁⟩ :=
      kasIfcSscInitTc_ok hinit₁
    obtain rfl : settings = group.settings := hsettings₁.trans hsettings.symm
    refine ⟨rfl, kasIfc_slot_clean hreads.key.2 hkey₁ hkey,
      kasIfc_slot_clean hreads.crt.2 hcrt₁ hcrt, kasIfc_slot_clean hreads.d.2 hd₁ hd,
      kasIfc_slot_clean hreads.server.2 hserver₁ hserver,
      kasIfc_slot_clean hreads.serverCtZ.2 hserverCtZ₁ hserverCtZ,
      kasIfc_slot_clean hreads.kas2Z.2 hkas2Z₁ hkas2Z, ?_, ?_⟩
    · cases hcase : group.settings.readsPtZ with
      | true => exact .inl rfl
      | false =>
          rw [hreads.ptZ.1 hcase] at hptZ₁
          rw [← Except.ok.inj hptZ₁] at hptZ
          exact .inr (decodeFresh_eq_fresh.mp hptZ)
    · cases hcase : group.settings.readsCtZ with
      | true => exact .inl rfl
      | false =>
          rw [hreads.ctZ.1 hcase] at hctZ₁
          rw [← Except.ok.inj hctZ₁] at hctZ
          exact .inr (decodeFresh_eq_fresh.mp hctZ)
  · rintro ⟨rfl, hclean⟩
    have hread₁ := readKasIfcTest_fresh
      { scheme := group.settings.scheme, role := group.settings.role } hread rfl
    simp only [kasIfc_slot_eq hclean.key, kasIfc_slot_eq hclean.crt, kasIfc_slot_eq hclean.d,
      kasIfc_slot_eq hclean.server, kasIfc_slot_eq hclean.serverCtZ,
      kasIfc_slot_eq hclean.kas2Z] at hread₁
    have hempty : ∀ {reads : Bool} {src : Option String},
        (reads = true ∨ src = none ∨ src = some "") →
        decodeFresh (if reads then src else none) kasIfcByteMax = decodeFresh src kasIfcByteMax := by
      intro reads src hsrc
      cases reads with
      | true => rfl
      | false => exact (decodeFresh_eq_fresh.mpr (by simpa using hsrc)).symm
    refine ⟨_, _, _, henter, kasIfc_load_ok.mpr ⟨hread₁, tc, ?_, rfl⟩⟩
    rw [← hinit]
    refine kasIfcSscInitTc_congr _ _ (hempty hclean.ptZ) (hempty hclean.ctZ) ?_ ?_
    · exact fun hreads => if_pos hreads
    · exact fun hreads => if_pos hreads

/-- The settings are those of the group alone exactly when the scheme and the role are
understood or those in force are the ones at the start. -/
theorem kasIfcSettingsOf_alone {scheme : KasIfcScheme} {role : Option KasIfcRole}
    {groupobj : Option JsonObject} {s settings : KasIfcSettings}
    (h : kasIfcSettingsOf scheme role groupobj = some s)
    (halone : kasIfcSettingsOf .kas1 none groupobj = some settings) :
    settings = s ↔ (kasIfcSchemeOf groupobj ≠ none ∨ scheme = .kas1) ∧
      (kasIfcRoleOf groupobj ≠ none ∨ role = none) := by
  obtain ⟨hscheme, hrole, hother⟩ := kasIfcSettingsOf_eq_some h
  obtain rfl := Option.some.inj (halone.symm.trans (hother .kas1 none))
  have hscheme' : (kasIfcSchemeOf groupobj).getD .kas1 = s.scheme ↔
      kasIfcSchemeOf groupobj ≠ none ∨ scheme = .kas1 := by
    rw [hscheme]
    cases kasIfcSchemeOf groupobj <;> simp [eq_comm]
  have hrole' : (kasIfcRoleOf groupobj).or none = s.role ↔
      kasIfcRoleOf groupobj ≠ none ∨ role = none := by
    rw [hrole]
    cases kasIfcRoleOf groupobj <;> simp [eq_comm]
  rw [← hscheme', ← hrole']
  cases s
  simp

/-- What the test does not read is not there exactly when no test before the group has left it
behind. -/
theorem kasIfcClean_iff {tests : List (KasIfcSettings × Option JsonObject)}
    {ts : List (Option JsonObject)} {t : Option JsonObject} {s : KasIfcSettings}
    {vars : KasIfcVars} (h : KasIfcLeft (tests ++ (ts ++ [t]).map (s, ·)) vars) :
    KasIfcClean s vars ↔
      (∀ reads ∈ [KasIfcSettings.readsKey, KasIfcSettings.readsCrt, KasIfcSettings.readsD,
        KasIfcSettings.readsServer, KasIfcSettings.readsKas2Z],
        reads s = true ∨ ∀ test ∈ tests, reads test.1 = false) ∧
      (s.readsPtZ = true ∨ ∀ test ∈ (tests.filter (·.1.readsPtZ)).getLast?,
        jsonObjectGetString test.2 test.1.ptZName = some "") ∧
      (s.readsCtZ = true ∨ ∀ test ∈ (tests.filter (·.1.readsCtZ)).getLast?,
        jsonObjectGetString test.2 "iutC" = some "") := by
  have hslot : ∀ {α : Type} {reads : KasIfcSettings → Bool} {content : Option α},
      (content.isSome ↔ ∃ test ∈ tests ++ (ts ++ [t]).map (s, ·), reads test.1) →
      ((reads s = true ∨ content = none) ↔
        (reads s = true ∨ ∀ test ∈ tests, reads test.1 = false)) := by
    intro α reads content hcontent
    cases hreads : reads s with
    | true => simp
    | false => rw [kasIfc_none_iff hcontent hreads]
  have hptZ : (s.readsPtZ = true ∨ vars.ptZ = none ∨ vars.ptZ = some "") ↔
      (s.readsPtZ = true ∨ ∀ test ∈ (tests.filter (·.1.readsPtZ)).getLast?,
        jsonObjectGetString test.2 test.1.ptZName = some "") := by
    cases hreads : s.readsPtZ with
    | true => simp
    | false =>
        rw [h.ptZ, kasIfc_last_eq tests _ hreads, kasIfc_empty_iff fun test hmem =>
          h.ptZGiven test (List.mem_append_left _ hmem)]
  have hctZ : (s.readsCtZ = true ∨ vars.ctZ = none ∨ vars.ctZ = some "") ↔
      (s.readsCtZ = true ∨ ∀ test ∈ (tests.filter (·.1.readsCtZ)).getLast?,
        jsonObjectGetString test.2 "iutC" = some "") := by
    cases hreads : s.readsCtZ with
    | true => simp
    | false =>
        rw [h.ctZ, kasIfc_last_eq tests _ hreads, kasIfc_empty_iff fun test hmem =>
          h.ctZGiven test (List.mem_append_left _ hmem)]
  rw [← hptZ, ← hctZ]
  simp only [List.mem_cons, List.not_mem_nil, or_false, forall_eq_or_imp, forall_eq]
  rw [← hslot h.key, ← hslot h.crt, ← hslot h.d, ← hslot h.server, ← hslot h.kas2Z]
  constructor
  · intro hclean
    exact ⟨⟨hclean.key, hclean.crt, hclean.d, hclean.server, hclean.kas2Z⟩, hclean.ptZ,
      hclean.ctZ⟩
  · rintro ⟨⟨hkey, hcrt, hd, hserver, hkas2Z⟩, hptZ', hctZ'⟩
    have hserverCtZ := (hslot h.serverCtZ).mpr ((hslot h.key).mp hkey)
    exact ⟨hkey, hcrt, hd, hserver, hserverCtZ, hkas2Z, hptZ', hctZ'⟩

/-- When a test of KAS-IFC is answered as if it were alone. -/
theorem kasIfc_independentIff (ctx : KatCtx) :
    (kasIfcSscKatHandler ctx).IndependentIff KasIfcOwn := by
  refine aloneIff_of_alone ?_
  intro head bs bs' groupobj ts ts' t vars₀ vars₁ vars₂ vars₃ group tc hbefore henter hitems hload
  obtain ⟨hscheme, hrole, hleft₀⟩ := kasIfc_carry kasIfcKept_left hbefore
  obtain ⟨hsettings, rfl, hfresh⟩ := readKasIfcGroup_ok henter
  obtain ⟨settings, hsettings₁, henter₁⟩ := hfresh {}
  obtain ⟨hscheme₂, hrole₂, hleft₂⟩ :=
    kasIfc_carryItems kasIfcKept_left (kasIfcKept_left.force _ _ hleft₀) hitems
  obtain ⟨hread, stc, hinit, hdraft⟩ := kasIfc_load_ok.mp hload
  obtain rfl := (Draft.mk.inj hdraft).1
  have hleft₃ := kasIfcKept_left.step hleft₂ (readKasIfcTest_ok hread)
  rw [List.append_assoc, ← List.map_singleton, ← List.map_append] at hleft₃
  refine (kasIfc_alone hread hinit henter₁).trans ?_
  have hforce := kasIfcSettingsOf_alone hsettings hsettings₁
  rw [hscheme, hrole] at hforce
  simp only [KasIfcOwn, lastKasIfcTest, groupAt_append, List.take_left, hsettings₁,
    Option.mem_some_iff, forall_eq']
  rw [kasIfcClean_iff hleft₃]
  refine (and_congr_right fun hsame => ?_).trans ((and_congr_left' hforce).trans and_assoc)
  rw [hsame]

end LibAmvp
