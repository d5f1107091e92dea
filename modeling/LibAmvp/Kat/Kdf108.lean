import LibAmvp.Capabilities.Kdf
import LibAmvp.Kat.VectorSet

/-!
# The SP 800-108 handler

The handler of the key derivation functions of SP 800-108.  The initialization vector lives
in variables of the function; only the tests of groups in feedback mode set them.

Main results:

- Theorem {lit}`kdf108_independentIff`: the test case of a test is its own exactly when no
  test in feedback mode has left its initialization vector behind.
-/

namespace LibAmvp

open Guard

def kdf108KeyoutBitMax : Int := 4096
def kdf108KeyoutByteMax : Int := 512
def kdf108KeyoutStrMax : Nat := 1024
def kdf108KeyinStrMax : Nat := 1024
def kdf108IvStrMax : Nat := 128
def kdf108FixedDataByteMax : Nat := 64
def kdf108FixedDataStrMax : Nat := 128

/-- {lit}`AMVP_KDF108_MAC_MODE_VAL`. -/
inductive Kdf108MacMode where
  | cmacAes128 | cmacAes192 | cmacAes256 | cmacTdes
  | hmacSha1 | hmacSha224 | hmacSha256 | hmacSha384 | hmacSha512 | hmacSha512_224
  | hmacSha512_256 | hmacSha3_224 | hmacSha3_256 | hmacSha3_384 | hmacSha3_512
deriving DecidableEq

/-- {lit}`AMVP_KDF108_FIXED_DATA_ORDER_VAL`. -/
inductive Kdf108FixedDataOrder where
  | none | after | before | middle | beforeIterator
deriving DecidableEq

/-- {lit}`read_mode`. -/
def readMode (str : String) : Option Kdf108Mode :=
  if str = "counter" then some .counter
  else if str = "feedback" then some .feedback
  else if str = "double pipeline iteration" then some .dpi
  else none

/-- {lit}`read_mac_mode`. -/
def readMacMode (str : String) : Option Kdf108MacMode :=
  if str = "HMAC-SHA-1" then some .hmacSha1
  else if str = "HMAC-SHA2-224" then some .hmacSha224
  else if str = "HMAC-SHA2-256" then some .hmacSha256
  else if str = "HMAC-SHA2-384" then some .hmacSha384
  else if str = "HMAC-SHA2-512" then some .hmacSha512
  else if str = "HMAC-SHA2-512/224" then some .hmacSha512_224
  else if str = "HMAC-SHA2-512/256" then some .hmacSha512_256
  else if str = "HMAC-SHA3-224" then some .hmacSha3_224
  else if str = "HMAC-SHA3-256" then some .hmacSha3_256
  else if str = "HMAC-SHA3-384" then some .hmacSha3_384
  else if str = "HMAC-SHA3-512" then some .hmacSha3_512
  else if str = "CMAC-AES128" then some .cmacAes128
  else if str = "CMAC-AES192" then some .cmacAes192
  else if str = "CMAC-AES256" then some .cmacAes256
  else if str = "CMAC-TDES" then some .cmacTdes
  else none

/-- {lit}`read_ctr_location`. -/
def readCtrLocation (str : String) : Option Kdf108FixedDataOrder :=
  if str = "after fixed data" then some .after
  else if str = "before fixed data" then some .before
  else if str = "middle fixed data" then some .middle
  else if str = "none" then some .none
  else if str = "before iterator" then some .beforeIterator
  else none

/-- {lit}`AMVP_KDF108_TC`. -/
structure Kdf108Tc where
  cipher : Cipher := .kdf108
  tcId : Nat
  mode : Kdf108Mode
  macMode : Kdf108MacMode
  counterLocation : Kdf108FixedDataOrder
  keyIn : Buffer
  keyOut : Buffer
  fixedData : Buffer
  iv : Option Buffer
  keyInLen : Int
  keyOutLen : Int
  ivLen : Int := 0
  fixedDataLen : Int := 0
  counterLen : Int
  deferred : Int
deriving DecidableEq

/-- {lit}`amvp_kdf108_init_tc`.  A negative length cannot be allocated. -/
def kdf108InitTc (tcId : Nat) (kdfMode : Kdf108Mode) (macMode : Kdf108MacMode)
    (counterLocation : Kdf108FixedDataOrder) (keyIn : String) (iv : Option String)
    (keyInLen : Nat) (keyOutLen : Int) (ivLen : Nat) (counterLen deferred : Int) :
    Except AmvpResult Kdf108Tc := do
  let keyInData ← hexstrToBin (some keyIn) keyInLen
  let ivBuffer ← onlyIf (iv ≠ none) ((hexstrToBuffer iv ivLen).map some) none
  stopIf (keyOutLen < 0) .mallocFail
  pure {
    tcId := tcId
    mode := kdfMode
    macMode := macMode
    counterLocation := counterLocation
    keyIn := ⟨keyInLen, keyInData⟩
    keyOut := ⟨keyOutLen.toNat, []⟩
    fixedData := ⟨kdf108FixedDataByteMax, []⟩
    iv := ivBuffer
    keyInLen := keyInLen
    keyOutLen := keyOutLen
    counterLen := counterLen
    deferred := deferred }

/-- {lit}`amvp_kdf108_output_tc`. -/
def kdf108OutputTc (stc : Kdf108Tc) (tcRsp : JsonObject) : Except AmvpResult JsonObject := do
  stopIf (stc.keyOutLen > kdf108KeyoutByteMax) .invalidArg
  let keyOut ← binToHexstr (some stc.keyOut) stc.keyOutLen kdf108KeyoutStrMax
  stopIf (stc.fixedDataLen > kdf108FixedDataByteMax) .invalidArg
  let fixedData ← binToHexstr (some stc.fixedData) stc.fixedDataLen kdf108FixedDataStrMax
  pure (jsonObjectSetText (jsonObjectSetText tcRsp "keyOut" (some keyOut)) "fixedData"
    (some fixedData))

/-- What the handler reads of a group. -/
structure Kdf108Group where
  tgId : Int
  kdfMode : Kdf108Mode
  macMode : Kdf108MacMode
  keyOutLen : Int
  ctrLen : Int
  ctrLoc : Kdf108FixedDataOrder

/-- The variables that keep their values from test to test: {lit}`iv_str` and {lit}`iv_len`,
which are set together. -/
abbrev Kdf108Vars := Option (String × Nat)

/-- The variable {lit}`iv_str`. -/
def Kdf108Vars.ivStr (vars : Kdf108Vars) : Option String := vars.map Prod.fst

/-- The variable {lit}`iv_len`. -/
def Kdf108Vars.ivLen (vars : Kdf108Vars) : Nat := (vars.map Prod.snd).getD 0

/-- The part of {lit}`amvp_kdf108_kat_handler` that reads a group. -/
def readKdf108Group (groupobj : Option JsonObject) : Except AmvpResult Kdf108Group := do
  let tgId ← readTgId groupobj .malformedJson
  let kdfModeStr ← need (jsonObjectGetString groupobj "kdfMode") .missingArg
  let kdfMode ← need (readMode kdfModeStr) .invalidArg
  let macModeStr ← need (jsonObjectGetString groupobj "macMode") .missingArg
  let macMode ← need (readMacMode macModeStr) .invalidArg
  let keyOutBitLen := toInt (jsonObjectGetNumber groupobj "keyOutLength")
  stopIf (keyOutBitLen = 0 ∨ keyOutBitLen > kdf108KeyoutBitMax) .invalidArg
  let ctrLen := toInt (jsonObjectGetNumber groupobj "counterLength")
  stopIf (kdfMode = .counter ∧ ctrLen ≠ 8 ∧ ctrLen ≠ 16 ∧ ctrLen ≠ 24 ∧ ctrLen ≠ 32) .invalidArg
  let ctrLocStr ← need (jsonObjectGetString groupobj "counterLocation") .missingArg
  let ctrLoc ← need (readCtrLocation ctrLocStr) .invalidArg
  pure ⟨tgId, kdfMode, macMode, (keyOutBitLen + 7).tdiv 8, ctrLen, ctrLoc⟩

/-- The initialization vector of a test in feedback mode. -/
def readKdf108Iv (testobj : Option JsonObject) : Except AmvpResult Kdf108Vars := do
  let ivStr ← need (jsonObjectGetString testobj "iv") .missingArg
  let ivLen := strnlenS ivStr (kdf108IvStrMax + 1)
  stopIf (ivLen > kdf108IvStrMax) .invalidArg
  pure (some (ivStr, ivLen / 2))

/-- The part of {lit}`amvp_kdf108_kat_handler` that reads a test. -/
def readKdf108Test (vars : Kdf108Vars) (group : Kdf108Group) (testobj : Option JsonObject) :
    Except AmvpResult (Kdf108Tc × Kdf108Vars) := do
  let tcId := readTcId testobj
  let keyInStr ← need (jsonObjectGetString testobj "keyIn") .missingArg
  let keyInLen := strnlenS keyInStr (kdf108KeyinStrMax + 1)
  stopIf (keyInLen > kdf108KeyinStrMax) .invalidArg
  let vars ← onlyIf (group.kdfMode = .feedback) (readKdf108Iv testobj) vars
  let deferred := jsonObjectGetBoolean testobj "deferred"
  stopIf (deferred = -1 ∧ group.ctrLoc = .middle) .missingArg
  let tc ← kdf108InitTc tcId group.kdfMode group.macMode group.ctrLoc keyInStr
    (Kdf108Vars.ivStr vars) (keyInLen / 2) group.keyOutLen (Kdf108Vars.ivLen vars) group.ctrLen
    deferred
  pure (tc, vars)

/-- The loops of {lit}`amvp_kdf108_kat_handler`. -/
def kdf108Loader : KatLoader Kdf108Vars Kdf108Group Kdf108Tc where
  start := none
  enter vars groupobj _ := (readKdf108Group groupobj).map (·, vars)
  load vars group testobj :=
    (readKdf108Test vars group testobj).map fun out => ({ question := out.1 }, out.2)
  finish _ testobj tc := kdf108OutputTc tc (responseTest testobj)
  close group tests := responseGroup "tgId" group.tgId tests
  refused := .cryptoModuleFail

/-- The head of {lit}`amvp_kdf108_kat_handler`. -/
def kdf108Setup (ctx : KatCtx) (obj : JsonObject) : Except AmvpResult String := do
  let algStr ← need (jsonObjectGetString (some obj) "algorithm") .malformedJson
  stopIf (lookupCipherIndex algStr ≠ some .kdf108) .invalidArg
  let _ ← need (ctx.caps.locate .kdf108) .unsupportedOp
  pure algStr

/-- {lit}`amvp_kdf108_kat_handler`. -/
def kdf108KatHandler (ctx : KatCtx) : KatHandler Kdf108Tc :=
  katHandler (kdf108Setup ctx) (fun _ => kdf108Loader.worker) (responseObject ctx.vsId)

/-! ## Independence -/

theorem readKdf108Group_ok {groupobj : Option JsonObject} {group : Kdf108Group}
    (h : readKdf108Group groupobj = .ok group) :
    group.kdfMode = .feedback ↔ jsonObjectGetString groupobj "kdfMode" = some "feedback" := by
  simp only [readKdf108Group, bind_eq_ok, need_eq_ok, pure_eq_ok] at h
  obtain ⟨tgId, -, kdfModeStr, hstr, kdfMode, hmode, -, -, -, -, -, -, -, -, -, -, -, -, rfl⟩ := h
  rw [hstr, Option.some.injEq]
  unfold readMode at hmode
  split_ifs at hmode with hcounter hfeedback hdpi <;> cases hmode <;> simp_all

/-- A test outside feedback mode is read with the variables as they are. -/
theorem readKdf108Test_ok {vars vars' : Kdf108Vars} {group : Kdf108Group}
    {testobj : Option JsonObject} {tc : Kdf108Tc}
    (h : readKdf108Test vars group testobj = .ok (tc, vars')) :
    (group.kdfMode ≠ .feedback → vars' = vars ∧ tc.iv.isSome = vars.isSome) ∧
      (group.kdfMode = .feedback → vars'.isSome ∧
        ∀ vars₁, readKdf108Test vars₁ group testobj = .ok (tc, vars')) := by
  constructor
  · intro hmode
    simp only [readKdf108Test, kdf108InitTc, onlyIf_neg hmode, bind_eq_ok, pure_eq_ok,
      Prod.mk.injEq, Except.ok.injEq] at h
    obtain ⟨keyInStr, -, -, -, vars₁, rfl, -, -, tc', ⟨keyInData, -, ivBuffer, hiv, -, -, rfl⟩,
      rfl, rfl⟩ := h
    refine ⟨rfl, ?_⟩
    dsimp only
    cases vars with
    | none =>
        rw [onlyIf_neg (by simp [Kdf108Vars.ivStr])] at hiv
        cases hiv
        rfl
    | some iv =>
        rw [onlyIf_pos (by simp [Kdf108Vars.ivStr]), map_eq_ok] at hiv
        obtain ⟨buffer, -, rfl⟩ := hiv
        rfl
  · intro hmode
    simp only [readKdf108Test, onlyIf_pos hmode] at h ⊢
    refine ⟨?_, fun _ => h⟩
    simp only [readKdf108Iv, bind_eq_ok, pure_eq_ok, Prod.mk.injEq] at h
    obtain ⟨-, -, -, -, vars₁, ⟨ivStr, -, -, -, rfl⟩, -, -, tc', -, -, rfl⟩ := h
    rfl

/-- Some test in feedback mode was read. -/
def hasFeedbackTest (groups : List TestGroup) : Prop :=
  ∃ b ∈ groups, jsonObjectGetString b.head "kdfMode" = some "feedback" ∧ b.items ≠ []

/-- The group is in feedback mode itself, or no group before it has a test in that mode. -/
def Kdf108OwnIv (groups : List TestGroup) (i _j : Nat) : Prop :=
  jsonObjectGetString (groupAt groups i) "kdfMode" = some "feedback" ∨
    ¬hasFeedbackTest (groups.take i)

theorem kdf108_enter_ok {vars vars' : Kdf108Vars} {groupobj : Option JsonObject} {n : Nat}
    {group : Kdf108Group} (h : kdf108Loader.enter vars groupobj n = .ok (group, vars')) :
    readKdf108Group groupobj = .ok group ∧ vars' = vars := by
  simp only [kdf108Loader, map_eq_ok, Prod.mk.injEq] at h
  obtain ⟨group', hread, rfl, rfl⟩ := h
  exact ⟨hread, rfl⟩

theorem kdf108_load_ok {vars vars' : Kdf108Vars} {group : Kdf108Group}
    {testobj : Option JsonObject} {tc : Kdf108Tc} {sent : Bool}
    (h : kdf108Loader.load vars group testobj = .ok (⟨tc, sent⟩, vars')) :
    readKdf108Test vars group testobj = .ok (tc, vars') := by
  simp only [kdf108Loader, map_eq_ok, Prod.mk.injEq, Draft.mk.injEq] at h
  obtain ⟨⟨tc', vars₁⟩, hread, ⟨rfl, -⟩, rfl⟩ := h
  exact hread

/-- What the tests of a group leave of the initialization vector. -/
theorem kdf108_carryItems {group : Kdf108Group} {vars vars' : Kdf108Vars}
    {ts : List (Option JsonObject)} (h : kdf108Loader.carryItems group vars ts = .ok vars') :
    vars'.isSome ↔ vars.isSome ∨ (group.kdfMode = .feedback ∧ ts ≠ []) := by
  refine Loader.carryItems_induction (Q := fun ts vars' => vars'.isSome ↔
    vars.isSome ∨ (group.kdfMode = .feedback ∧ ts ≠ [])) (by simp) ?_ h
  intro ts t vars₁ draft vars₂ hbefore hload
  obtain ⟨hother, hfeedback⟩ := readKdf108Test_ok (kdf108_load_ok hload)
  by_cases hmode : group.kdfMode = .feedback
  · simp [hmode, (hfeedback hmode).1]
  · rw [(hother hmode).1, hbefore]
    simp [hmode]

theorem kdf108_carry {bs : List TestGroup} {vars : Kdf108Vars}
    (h : kdf108Loader.carry kdf108Loader.start bs = .ok vars) :
    vars.isSome ↔ hasFeedbackTest bs := by
  refine Loader.carry_induction
    (P := fun bs vars => vars.isSome ↔ hasFeedbackTest bs)
    (by simp [kdf108Loader, hasFeedbackTest]) ?_ h
  intro bs b vars₀ group vars₁ vars₂ hbs henter hitems
  obtain ⟨hread, rfl⟩ := kdf108_enter_ok henter
  rw [kdf108_carryItems hitems, hbs, readKdf108Group_ok hread]
  unfold hasFeedbackTest
  constructor
  · rintro (⟨b', hmem, hb'⟩ | hb)
    · exact ⟨b', by simp [hmem], hb'⟩
    · exact ⟨b, by simp, hb⟩
  · rintro ⟨b', hmem, hb'⟩
    rcases List.mem_append.mp hmem with hmem | hmem
    · exact .inl ⟨b', hmem, hb'⟩
    · rw [List.mem_singleton.mp hmem] at hb'
      exact .inr hb'

/-- The test case of a test is its own exactly when no test in feedback mode has left its
initialization vector behind. -/
theorem kdf108_independentIff (ctx : KatCtx) :
    (kdf108KatHandler ctx).IndependentIff Kdf108OwnIv := by
  refine aloneIff_of_alone ?_
  intro _ bs bs' groupobj ts ts' t vars₀ vars₁ vars₂ vars₃ group tc hbefore henter hitems hload
  obtain ⟨hgroup, rfl⟩ := kdf108_enter_ok henter
  have hread := kdf108_load_ok hload
  obtain ⟨hother, hfeedback⟩ := readKdf108Test_ok hread
  have halone : kdf108Loader.alone groupobj t =
      ((readKdf108Test none group t).map Prod.fst).toOption := by
    simp only [Loader.alone, kdf108Loader, hgroup, Except.map]
    rcases readKdf108Test none group t with _ | ⟨tc', vars'⟩ <;> rfl
  unfold Kdf108OwnIv
  rw [halone, groupAt_append, List.take_left, ← readKdf108Group_ok hgroup]
  by_cases hmode : group.kdfMode = .feedback
  · simp [(hfeedback hmode).2 none, hmode, Except.map, Except.toOption]
  · have hvars : vars₂.isSome ↔ hasFeedbackTest bs := by
      rw [kdf108_carryItems hitems, kdf108_carry hbefore]
      simp [hmode]
    simp only [hmode, false_or, ← hvars]
    cases vars₂ with
    | none => simp [hread, Except.map, Except.toOption]
    | some iv =>
        simp only [Option.isSome_some, not_true_eq_false, iff_false]
        intro hsame
        rcases hother' : readKdf108Test none group t with _ | ⟨tc', vars'⟩
        · simp [hother', Except.map, Except.toOption] at hsame
        · simp only [hother', Except.map, Except.toOption, Option.some.injEq] at hsame
          have hwith := (hother hmode).2
          have hwithout := ((readKdf108Test_ok hother').1 hmode).2
          rw [hsame, hwith] at hwithout
          simp at hwithout

end LibAmvp
