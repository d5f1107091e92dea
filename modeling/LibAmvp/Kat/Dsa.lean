import LibAmvp.Kat.VectorSet

/-!
# DSA

The handler of the DSA tests in its five modes.  The test case structure is zeroed after
every test, but the cipher in it is set only once, before the first group.

## Main results

- Theorem {lit}`dsa_independentIff`: a test case is the one of the test alone exactly when no
  test comes before.
-/

namespace LibAmvp

open Guard

def dsaPqgMax : Nat := 3072
def dsaSeedMax : Nat := 1024
def dsaMaxString : Nat := 3072

/-- {lit}`AMVP_DSA_MODE`. -/
inductive DsaMode where
  | keygen | pqggen | pqgver | siggen | sigver
deriving DecidableEq

/-- {lit}`AMVP_DSA_GEN_PARM`. -/
inductive DsaGenParm where
  | provable | probable | canonical | unverifiable
deriving DecidableEq

/-- The cipher that the handler of a mode is registered under. -/
def DsaMode.cipher : DsaMode → Cipher
  | .keygen => .dsaKeygen
  | .pqggen => .dsaPqggen
  | .pqgver => .dsaPqgver
  | .siggen => .dsaSiggen
  | .sigver => .dsaSigver

/-- The comparisons of {lit}`amvp_dsa_kat_handler`. -/
def readDsaMode (str : String) : Option DsaMode :=
  if str = "pqgGen" then some .pqggen
  else if str = "pqgVer" then some .pqgver
  else if str = "sigGen" then some .siggen
  else if str = "sigVer" then some .sigver
  else if str = "keyGen" then some .keygen
  else none

/-- {lit}`read_gen_g`. -/
def readGenG (str : String) : Option DsaGenParm :=
  if str = "canonical" then some .canonical
  else if str = "unverifiable" then some .unverifiable
  else none

/-- {lit}`read_gen_pq`. -/
def readGenPq (str : String) : Option DsaGenParm :=
  if str = "probable" then some .probable else if str = "provable" then some .provable else none

/-! ## Numbers in strings -/

/-- {lit}`isspace`. -/
def isSpace (ch : UInt8) : Bool := ch = 32 ∨ 9 ≤ ch ∧ ch ≤ 13

/-- {lit}`isxdigit`. -/
def isXdigit (ch : UInt8) : Bool :=
  48 ≤ ch ∧ ch ≤ 57 ∨ 65 ≤ ch ∧ ch ≤ 70 ∨ 97 ≤ ch ∧ ch ≤ 102

/-- The sign in front of a number. -/
def strtolSign : List UInt8 → Int × List UInt8
  | 45 :: rest => (-1, rest)
  | 43 :: rest => (1, rest)
  | str => (1, str)

/-- The mark of a hexadecimal number, which counts only in front of a digit. -/
def strtolMark : List UInt8 → List UInt8
  | 48 :: x :: d :: rest =>
    if (x = 120 ∨ x = 88) ∧ isXdigit d then d :: rest else 48 :: x :: d :: rest
  | str => str

/-- {lit}`strtol` with base 16. -/
def strtol16 (str : String) : Int :=
  let (sign, rest) := strtolSign ((cBytes str).dropWhile isSpace)
  let digits := (strtolMark rest).takeWhile isXdigit
  let value := sign * digits.foldl (fun (n : Nat) ch => 16 * n + (charToInt ch).toNat) 0
  max (-2 ^ 63) (min value (2 ^ 63 - 1))

/-- The conversion of a {lit}`long` to an {lit}`int`. -/
def intOfLong (n : Int) : Int := (BitVec.ofInt 32 n).toInt

/-! ## Test cases -/

/-- {lit}`AMVP_DSA_TC`. -/
structure DsaTc where
  tgId : Int := 0
  tcId : Int := 0
  cipher : Cipher := .cipherStart
  mode : Option DsaMode := none
  sha : Option HashAlg := none
  l : Int := 0
  n : Int := 0
  h : Int := 0
  c : Int := 0
  pqg : Option DsaGenParm := none
  genPq : Option DsaGenParm := none
  index : Int := 0
  result : Int := 0
  counter : Int := 0
  p : Bytes := {}
  q : Bytes := {}
  g : Bytes := {}
  y : Bytes := {}
  x : Bytes := {}
  r : Bytes := {}
  s : Bytes := {}
  seed : Bytes := {}
  msg : Bytes := {}
deriving DecidableEq

/-- {lit}`amvp_dsa_keygen_init_tc`. -/
def dsaKeygenInitTc (stc : DsaTc) (tgId tcId l n : Int) : Except AmvpResult DsaTc := do
  stopIf (l = 0) .invalidArg
  stopIf (n = 0) .invalidArg
  pure { stc with
    l := l
    n := n
    tcId := tcId
    tgId := tgId
    p := .fresh dsaMaxString
    q := .fresh dsaMaxString
    g := .fresh dsaMaxString
    x := .fresh dsaMaxString
    y := .fresh dsaMaxString }

/-- {lit}`amvp_dsa_siggen_init_tc`. -/
def dsaSiggenInitTc (stc : DsaTc) (tgId tcId l n : Int) (sha : HashAlg) (msg : String) :
    Except AmvpResult DsaTc := do
  stopIf (l = 0) .invalidArg
  stopIf (n = 0) .invalidArg
  let msg ← decodeBytes (some msg) dsaPqgMax
  pure { stc with
    tgId := tgId
    tcId := tcId
    l := l
    n := n
    sha := sha
    p := .fresh dsaMaxString
    q := .fresh dsaMaxString
    g := .fresh dsaMaxString
    r := .fresh dsaMaxString
    s := .fresh dsaMaxString
    y := .fresh dsaMaxString
    msg := msg }

/-- {lit}`amvp_dsa_sigver_init_tc`. -/
def dsaSigverInitTc (stc : DsaTc) (l n : Int) (sha : HashAlg) (p q g r s y msg : String) :
    Except AmvpResult DsaTc := do
  stopIf (l = 0) .invalidArg
  stopIf (n = 0) .invalidArg
  let msg ← decodeBytes (some msg) dsaMaxString
  let p ← decodeBytes (some p) dsaMaxString
  let q ← decodeBytes (some q) dsaMaxString
  let g ← decodeBytes (some g) dsaMaxString
  let r ← decodeBytes (some r) dsaMaxString
  let s ← decodeBytes (some s) dsaMaxString
  let y ← decodeBytes (some y) dsaMaxString
  pure { stc with l, n, sha, msg, p, q, g, r, s, y }

/-- A buffer that stays empty when there is no string. -/
def decodeOrFresh (src : Option String) (size : Nat) : Except AmvpResult Bytes :=
  onlyIf (src ≠ none) (decodeBytes src size) (.fresh size)

/-- A number that is −1 when there is no string. -/
def numberGiven (src : Option String) : Int :=
  (src.map fun str => intOfLong (strtol16 str)).getD (-1)

/-- {lit}`amvp_dsa_pqgver_init_tc`. -/
def dsaPqgverInitTc (stc : DsaTc) (l n c : Int) (idx : Option String) (sha : HashAlg)
    (p q : String) (g h seed : Option String) (pqg : DsaGenParm) : Except AmvpResult DsaTc := do
  stopIf (l = 0) .invalidArg
  stopIf (n = 0) .invalidArg
  let seed ← decodeOrFresh seed dsaMaxString
  let p ← decodeBytes (some p) dsaMaxString
  let q ← decodeBytes (some q) dsaMaxString
  let g ← decodeOrFresh g dsaMaxString
  pure { stc with
    l := l
    n := n
    c := c
    pqg := pqg
    sha := sha
    seed := seed
    p := p
    q := q
    g := g
    r := .fresh dsaMaxString
    s := .fresh dsaMaxString
    y := .fresh dsaMaxString
    index := numberGiven idx
    h := numberGiven h }

/-- {lit}`amvp_dsa_pqggen_init_tc`: the generator is made from given primes, the primes from
nothing. -/
def dsaPqggenInitTc (stc : DsaTc) (gpq : DsaGenParm) (idx : Option String) (l n : Int)
    (sha : HashAlg) (p q seed : Option String) : Except AmvpResult DsaTc := do
  stopIf (l = 0) .invalidArg
  stopIf (n = 0) .invalidArg
  let seed ← onlyIf (gpq = .canonical) (decodeBytes seed dsaSeedMax) (.fresh dsaSeedMax)
  let p ← onlyIf (gpq = .canonical ∨ gpq = .unverifiable) (decodeBytes p dsaMaxString)
    (.fresh dsaPqgMax)
  let q ← onlyIf (gpq = .canonical ∨ gpq = .unverifiable) (decodeBytes q dsaMaxString)
    (.fresh dsaPqgMax)
  pure { stc with
    l := l
    n := n
    sha := sha
    p := p
    q := q
    g := .fresh dsaPqgMax
    seed := seed
    genPq := gpq
    pqg := gpq
    index := if gpq = .canonical then numberGiven idx else stc.index }

/-- The part of {lit}`amvp_dsa_output_tc` for generated parameters. -/
def dsaPqggenOutput (stc : DsaTc) (tcRsp : JsonObject) : Except AmvpResult JsonObject :=
  match stc.genPq with
  | some .canonical | some .unverifiable =>
    setHexstr tcRsp "g" stc.g.data stc.g.len dsaPqgMax
  | some .probable | some .provable => do
    let tcRsp ← setHexstr tcRsp "p" stc.p.data stc.p.len dsaPqgMax
    let tcRsp ← setHexstr tcRsp "q" stc.q.data stc.q.len dsaPqgMax
    let tcRsp ← setHexstr tcRsp "domainSeed" stc.seed.data stc.seed.len dsaSeedMax
    pure (jsonObjectSetValue tcRsp "counter" (.num stc.counter))
  | none => .error .invalidArg

/-- {lit}`amvp_dsa_output_tc`. -/
def dsaOutputTc (stc : DsaTc) (tcRsp : JsonObject) : Except AmvpResult JsonObject :=
  match stc.mode with
  | some .pqggen => dsaPqggenOutput stc tcRsp
  | some .siggen => do
    let tcRsp ← setHexstr tcRsp "r" stc.r.data stc.r.len dsaPqgMax
    setHexstr tcRsp "s" stc.s.data stc.s.len dsaPqgMax
  | some .sigver | some .pqgver => pure (jsonObjectSetBoolean tcRsp "testPassed" stc.result)
  | some .keygen => do
    let tcRsp ← setHexstr tcRsp "y" stc.y.data stc.y.len dsaPqgMax
    setHexstr tcRsp "x" stc.x.data stc.x.len dsaPqgMax
  | none => pure tcRsp

/-! ## The handler -/

/-- What the handlers read of a group. -/
structure DsaGroup where
  tgId : Int
  l : Int
  n : Int
  sha : Option HashAlg := none
  gMode : Option String := none
  pqMode : Option String := none
  p : Option String := none
  q : Option String := none
  g : Option String := none

/-- A number that may not be zero. -/
def readNonzero (obj : Option JsonObject) (name : String) (convert : ℚ → Int) :
    Except AmvpResult Int := do
  let n := convert (jsonObjectGetNumber obj name)
  stopIf (n = 0) .missingArg
  pure n

/-- The hash function of a group. -/
def readDsaSha (groupobj : Option JsonObject) : Except AmvpResult HashAlg := do
  let shaStr ← need (jsonObjectGetString groupobj "hashAlg") .missingArg
  need (lookupHashAlg shaStr) .invalidArg

/-- The ways in which the primes or the generator are made.  A group names exactly one. -/
def readDsaGen (groupobj : Option JsonObject) :
    Except AmvpResult (Option String × Option String) := do
  let gMode := jsonObjectGetString groupobj "gMode"
  let pqMode := jsonObjectGetString groupobj "pqMode"
  stopIf (pqMode = none ∧ gMode = none) .missingArg
  stopIf (pqMode ≠ none ∧ gMode ≠ none) .invalidArg
  pure (gMode, pqMode)

/-- The head of {lit}`amvp_dsa_keygen_handler`. -/
def readDsaKeygenGroup (tgId : Int) (groupobj : Option JsonObject) (count : Nat) :
    Except AmvpResult DsaGroup := do
  let l ← readNonzero groupobj "l" toInt
  let n ← readNonzero groupobj "n" toInt
  stopIf (count = 0) .missingArg
  pure { tgId, l, n }

/-- The head of {lit}`amvp_dsa_siggen_handler`. -/
def readDsaSiggenGroup (tgId : Int) (groupobj : Option JsonObject) (count : Nat) :
    Except AmvpResult DsaGroup := do
  let l ← readNonzero groupobj "l" toInt
  let n ← readNonzero groupobj "n" toInt
  let sha ← readDsaSha groupobj
  stopIf (count = 0) .missingArg
  pure { tgId, l, n, sha := some sha }

/-- The head of {lit}`amvp_dsa_sigver_handler`. -/
def readDsaSigverGroup (tgId : Int) (groupobj : Option JsonObject) (count : Nat) :
    Except AmvpResult DsaGroup := do
  let group ← readDsaSiggenGroup tgId groupobj count
  let p ← need (jsonObjectGetString groupobj "p") .missingArg
  let q ← need (jsonObjectGetString groupobj "q") .missingArg
  let g ← need (jsonObjectGetString groupobj "g") .missingArg
  pure { group with p := some p, q := some q, g := some g }

/-- The head of {lit}`amvp_dsa_pqggen_handler`, which keeps the lengths in an
{lit}`unsigned int`. -/
def readDsaPqggenGroup (tgId : Int) (groupobj : Option JsonObject) (count : Nat) :
    Except AmvpResult DsaGroup := do
  let gen ← readDsaGen groupobj
  let l ← readNonzero groupobj "l" (fun q => intOfUnsigned (toUnsigned q))
  let n ← readNonzero groupobj "n" (fun q => intOfUnsigned (toUnsigned q))
  let sha ← readDsaSha groupobj
  stopIf (count = 0) .missingArg
  pure { tgId, l, n, sha := some sha, gMode := gen.1, pqMode := gen.2 }

/-- The head of {lit}`amvp_dsa_pqgver_handler`. -/
def readDsaPqgverGroup (tgId : Int) (groupobj : Option JsonObject) (count : Nat) :
    Except AmvpResult DsaGroup := do
  let l ← readNonzero groupobj "l" toInt
  let n ← readNonzero groupobj "n" toInt
  let sha ← readDsaSha groupobj
  let gen ← readDsaGen groupobj
  stopIf (count = 0) .missingArg
  pure { tgId, l, n, sha := some sha, gMode := gen.1, pqMode := gen.2 }

/-- The part of the handlers that reads a group. -/
def readDsaGroup (mode : DsaMode) (groupobj : Option JsonObject) (count : Nat) :
    Except AmvpResult DsaGroup := do
  let tgId ← readTgId groupobj .malformedJson
  match mode with
  | .keygen => readDsaKeygenGroup tgId groupobj count
  | .pqggen => readDsaPqggenGroup tgId groupobj count
  | .pqgver => readDsaPqgverGroup tgId groupobj count
  | .siggen => readDsaSiggenGroup tgId groupobj count
  | .sigver => readDsaSigverGroup tgId groupobj count

/-- A test of {lit}`amvp_dsa_siggen_handler`. -/
def readDsaSiggenTest (stc : DsaTc) (group : DsaGroup) (tcId : Int)
    (testobj : Option JsonObject) : Except AmvpResult DsaTc := do
  let msg ← need (jsonObjectGetString testobj "message") .missingArg
  let sha ← need group.sha .invalidArg
  dsaSiggenInitTc stc group.tgId tcId group.l group.n sha msg

/-- A test of {lit}`amvp_dsa_sigver_handler`. -/
def readDsaSigverTest (stc : DsaTc) (group : DsaGroup) (testobj : Option JsonObject) :
    Except AmvpResult DsaTc := do
  let sha ← need group.sha .invalidArg
  let p ← need group.p .missingArg
  let q ← need group.q .missingArg
  let g ← need group.g .missingArg
  let msg ← need (jsonObjectGetString testobj "message") .missingArg
  let r ← need (jsonObjectGetString testobj "r") .missingArg
  let s ← need (jsonObjectGetString testobj "s") .missingArg
  let y ← need (jsonObjectGetString testobj "y") .missingArg
  dsaSigverInitTc stc group.l group.n sha p q g r s y msg

/-- A test of {lit}`amvp_dsa_pqggen_handler`. -/
def readDsaPqggenTest (stc : DsaTc) (group : DsaGroup) (testobj : Option JsonObject) :
    Except AmvpResult DsaTc := do
  let sha ← need group.sha .invalidArg
  let gpq ← need ((group.gMode.bind readGenG).or (group.pqMode.bind readGenPq)) .invalidArg
  let seed := if gpq = .canonical then jsonObjectGetString testobj "domainSeed" else none
  stopIf (gpq = .canonical ∧ seed = none) .missingArg
  let idx := if gpq = .canonical then jsonObjectGetString testobj "index" else none
  stopIf (gpq = .canonical ∧ idx = none) .missingArg
  let p := if group.gMode ≠ none then jsonObjectGetString testobj "p" else none
  stopIf (group.gMode ≠ none ∧ p = none) .missingArg
  let q := if group.gMode ≠ none then jsonObjectGetString testobj "q" else none
  stopIf (group.gMode ≠ none ∧ q = none) .missingArg
  dsaPqggenInitTc stc gpq idx group.l group.n sha p q seed

/-- A test of {lit}`amvp_dsa_pqgver_handler`.  Which of the members have to be there depends
on what is verified. -/
def readDsaPqgverTest (stc : DsaTc) (group : DsaGroup) (testobj : Option JsonObject) :
    Except AmvpResult DsaTc := do
  let sha ← need group.sha .invalidArg
  let seed := jsonObjectGetString testobj "domainSeed"
  let c := toInt (jsonObjectGetNumber testobj "counter")
  let idx := jsonObjectGetString testobj "index"
  let p ← need (jsonObjectGetString testobj "p") .missingArg
  let q ← need (jsonObjectGetString testobj "q") .missingArg
  let g := jsonObjectGetString testobj "g"
  let h := jsonObjectGetString testobj "h"
  let gpq ← need ((group.gMode.bind readGenG).or (group.pqMode.bind readGenPq)) .unsupportedOp
  stopIf (gpq = .provable) .unsupportedOp
  stopIf (gpq = .probable ∧ seed = none) .missingArg
  stopIf (gpq = .canonical ∧ (idx = none ∨ g = none)) .missingArg
  stopIf (gpq = .unverifiable ∧ (seed = none ∨ h = none)) .missingArg
  dsaPqgverInitTc stc group.l group.n c idx sha p q g h seed gpq

/-- The part of the handlers that reads a test. -/
def readDsaTest (mode : DsaMode) (stc : DsaTc) (group : DsaGroup) (testobj : Option JsonObject) :
    Except AmvpResult DsaTc := do
  let stc := { stc with mode := mode }
  let tcId ← readNonzero testobj "tcId" toInt
  match mode with
  | .keygen => dsaKeygenInitTc stc group.tgId tcId group.l group.n
  | .pqggen => readDsaPqggenTest stc group testobj
  | .pqgver => readDsaPqgverTest stc group testobj
  | .siggen => readDsaSiggenTest stc group tcId testobj
  | .sigver => readDsaSigverTest stc group testobj

/-- The members of a group that a test of two of the modes sets. -/
def dsaGroupMembers (mode : DsaMode) (stc : DsaTc) : List (GroupMember × Bytes) :=
  match mode with
  | .keygen => [(.p, stc.p), (.q, stc.q), (.g, stc.g)]
  | .siggen => [(.p, stc.p), (.q, stc.q), (.g, stc.g), (.y, stc.y)]
  | .pqggen | .pqgver | .sigver => []

/-- The part of the handlers that answers a test. -/
def dsaAnswer (mode : DsaMode) (testobj : Option JsonObject) (stc : DsaTc) :
    Except AmvpResult TestAnswer := do
  let group ← (dsaGroupMembers mode stc).mapM fun m =>
    (binToHexstr m.2.data m.2.len dsaPqgMax).map (m.1, ·)
  let test ← dsaOutputTc stc (responseTestInt testobj)
  pure { test, group }

/-- The loops of the handlers.  The structure is zeroed after every test, with the cipher that
the handler has put into it at the start. -/
def dsaLoader (mode : DsaMode) : KatLoader DsaTc DsaGroup DsaTc TestAnswer where
  start := { cipher := mode.cipher }
  enter stc groupobj count := (readDsaGroup mode groupobj count).map (·, stc)
  load stc group testobj := (readDsaTest mode stc group testobj).map ({ question := · }, {})
  finish _ testobj stc := dsaAnswer mode testobj stc
  close group answers := responseGroupWith group.tgId answers
  refused := .cryptoModuleFail

/-- The choice of {lit}`amvp_dsa_kat_handler` and the heads of the handlers. -/
def setupDsa (ctx : KatCtx) (obj : JsonObject) : Except AmvpResult (String × DsaMode) := do
  let modeStr ← need (jsonObjectGetString (some obj) "mode") .missingArg
  let mode ← need (readDsaMode modeStr) .invalidArg
  let algStr ← need (jsonObjectGetString (some obj) "algorithm") .malformedJson
  let _ ← need (ctx.caps.locate mode.cipher) .unsupportedOp
  pure (algStr, mode)

/-- {lit}`amvp_dsa_kat_handler`. -/
def dsaKatHandler (ctx : KatCtx) : KatHandler DsaTc :=
  katHandler (setupDsa ctx) (fun head => (dsaLoader head.2).worker)
    (fun head => responseObject ctx.vsId head.1) (some .missingArg)

/-! ## Independence -/

theorem DsaMode.cipher_ne (mode : DsaMode) : mode.cipher ≠ .cipherStart := by
  cases mode <;> decide

/-- The cipher of a test case is the one that was in the structure. -/
theorem readDsaTest_cipher {mode : DsaMode} {stc tc : DsaTc} {group : DsaGroup}
    {testobj : Option JsonObject} (h : readDsaTest mode stc group testobj = .ok tc) :
    tc.cipher = stc.cipher := by
  simp only [readDsaTest, bind_eq_ok] at h
  obtain ⟨tcId, -, h⟩ := h
  cases mode with
  | keygen =>
      simp only [dsaKeygenInitTc, bind_eq_ok, pure_eq_ok] at h
      obtain ⟨_, -, _, -, rfl⟩ := h
      rfl
  | pqggen =>
      simp only [readDsaPqggenTest, dsaPqggenInitTc, bind_eq_ok, pure_eq_ok] at h
      obtain ⟨_, -, _, -, _, -, _, -, _, -, _, -, _, -, _, -, _, -, _, -, _, -, rfl⟩ := h
      rfl
  | pqgver =>
      simp only [readDsaPqgverTest, dsaPqgverInitTc, bind_eq_ok, pure_eq_ok] at h
      obtain ⟨_, -, _, -, _, -, _, -, _, -, _, -, _, -, _, -, _, -, _, -, _, -, _, -, _, -, _, -,
        rfl⟩ := h
      rfl
  | siggen =>
      simp only [readDsaSiggenTest, dsaSiggenInitTc, bind_eq_ok, pure_eq_ok] at h
      obtain ⟨_, -, _, -, _, -, _, -, _, -, rfl⟩ := h
      rfl
  | sigver =>
      simp only [readDsaSigverTest, dsaSigverInitTc, bind_eq_ok, pure_eq_ok] at h
      obtain ⟨_, -, _, -, _, -, _, -, _, -, _, -, _, -, _, -, _, -, _, -, _, -, _, -, _, -, _, -,
        _, -, _, -, _, -, rfl⟩ := h
      rfl

theorem dsa_load_ok {mode : DsaMode} {stc stc' : DsaTc} {group : DsaGroup}
    {testobj : Option JsonObject} {draft : Draft DsaTc} :
    (dsaLoader mode).load stc group testobj = .ok (draft, stc') ↔
      ∃ tc, readDsaTest mode stc group testobj = .ok tc ∧ draft = { question := tc } ∧
        stc' = {} := by
  simp only [dsaLoader, map_eq_ok, Prod.mk.injEq]
  constructor
  · rintro ⟨tc, hread, rfl, rfl⟩
    exact ⟨tc, hread, rfl, rfl⟩
  · rintro ⟨tc, hread, rfl, rfl⟩
    exact ⟨tc, hread, rfl, rfl⟩

theorem dsa_enter_ok {mode : DsaMode} {stc stc' : DsaTc} {groupobj : Option JsonObject}
    {count : Nat} {group : DsaGroup}
    (h : (dsaLoader mode).enter stc groupobj count = .ok (group, stc')) :
    readDsaGroup mode groupobj count = .ok group ∧ stc' = stc := by
  simp only [dsaLoader, map_eq_ok, Prod.mk.injEq] at h
  obtain ⟨group', hread, rfl, rfl⟩ := h
  exact ⟨hread, rfl⟩

/-- A group with tests is read in the same way whatever their number. -/
theorem readDsaGroup_count {mode : DsaMode} {groupobj : Option JsonObject} {count : Nat}
    {group : DsaGroup} (h : readDsaGroup mode groupobj count = .ok group) :
    readDsaGroup mode groupobj 1 = .ok group := by
  simp only [readDsaGroup, bind_eq_ok] at h ⊢
  obtain ⟨tgId, htgId, h⟩ := h
  refine ⟨tgId, htgId, ?_⟩
  cases mode with
  | keygen =>
      simp only [readDsaKeygenGroup, bind_eq_ok, stopIf_eq_ok, exists_const] at h ⊢
      obtain ⟨l, hl, n, hn, -, hrest⟩ := h
      exact ⟨l, hl, n, hn, by decide, hrest⟩
  | pqggen =>
      simp only [readDsaPqggenGroup, bind_eq_ok, stopIf_eq_ok, exists_const] at h ⊢
      obtain ⟨gen, hgen, l, hl, n, hn, sha, hsha, -, hrest⟩ := h
      exact ⟨gen, hgen, l, hl, n, hn, sha, hsha, by decide, hrest⟩
  | pqgver =>
      simp only [readDsaPqgverGroup, bind_eq_ok, stopIf_eq_ok, exists_const] at h ⊢
      obtain ⟨l, hl, n, hn, sha, hsha, gen, hgen, -, hrest⟩ := h
      exact ⟨l, hl, n, hn, sha, hsha, gen, hgen, by decide, hrest⟩
  | siggen =>
      simp only [readDsaSiggenGroup, bind_eq_ok, stopIf_eq_ok, exists_const] at h ⊢
      obtain ⟨l, hl, n, hn, sha, hsha, -, hrest⟩ := h
      exact ⟨l, hl, n, hn, sha, hsha, by decide, hrest⟩
  | sigver =>
      simp only [readDsaSigverGroup, readDsaSiggenGroup, bind_eq_ok, stopIf_eq_ok,
        exists_const] at h ⊢
      obtain ⟨group', ⟨l, hl, n, hn, sha, hsha, -, hgroup⟩, hrest⟩ := h
      exact ⟨group', ⟨l, hl, n, hn, sha, hsha, by decide, hgroup⟩, hrest⟩

theorem dsa_independentIff (ctx : KatCtx) : (dsaKatHandler ctx).IndependentIff IsFirstTest := by
  refine aloneIff_of_alone ?_
  intro head bs bs' groupobj ts ts' t stc₀ stc₁ stc₂ stc₃ group tc hbefore henter hitems hload
  obtain ⟨hstart, hzero⟩ := Loader.before_item (A := fun stc => stc = {})
    (fun h => (dsa_enter_ok h).2)
    (fun h => (dsa_load_ok.mp h).choose_spec.2.2) hbefore henter hitems
  obtain ⟨tc', hread, hdraft, -⟩ := dsa_load_ok.mp hload
  obtain rfl := (Draft.mk.inj hdraft).1
  have hgroup := readDsaGroup_count (dsa_enter_ok henter).1
  rw [isFirstTest_append, Loader.alone_eq_some]
  constructor
  · rintro ⟨group', stc', stc'', henter', hload'⟩
    obtain ⟨-, rfl⟩ := dsa_enter_ok henter'
    obtain ⟨tc', hread', hdraft', -⟩ := dsa_load_ok.mp hload'
    obtain rfl := (Draft.mk.inj hdraft').1
    by_contra hnot
    have hcipher := readDsaTest_cipher hread'
    rw [readDsaTest_cipher hread, hzero hnot] at hcipher
    exact head.2.cipher_ne hcipher.symm
  · intro hfirst
    rw [hstart hfirst] at hread
    exact ⟨group, _, {}, by simp only [dsaLoader, hgroup]; rfl, dsa_load_ok.mpr ⟨_, hread, rfl, rfl⟩⟩

end LibAmvp
