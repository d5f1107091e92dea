import LibAmvp.Kat.VectorSet

/-!
# CMAC and HMAC

The handlers of the message authentication codes.  The CMAC handler keeps the direction of
a group in a variable of the function, which a group in direction {lit}`ver` sets and no
group resets.

Main results:

- Theorem {lit}`cmac_independentIff`: the test case of a CMAC test is its own exactly when
  no earlier group has left the direction behind.
- Theorems {lit}`cmac_fits_iff`, {lit}`hmac_fits_iff`: when the lengths of a test case stay
  within its buffers.
-/

namespace LibAmvp

open Guard

/-! ## CMAC -/

def cmacMsglenMaxStr : Nat := 131072
def cmacMaclenBufferMax : Nat := 128
def cmacKeyMax : Nat := 64

/-- {lit}`AMVP_CMAC_TESTTYPE`. -/
inductive CmacTestType where
  | none | aft
deriving DecidableEq

/-- {lit}`AMVP_CMAC_TC`. -/
structure CmacTc where
  cipher : Cipher
  testType : CmacTestType
  verify : Bool
  verDisposition : Int := 0
  tcId : Nat
  msg : Buffer
  msgLen : Nat
  mac : Buffer
  macLen : Nat
  keyLen : Nat
  key : Buffer
  key2 : Buffer
  key3 : Buffer
deriving DecidableEq

/-- {lit}`amvp_cmac_init_tc`. -/
def cmacInitTc (tcId : Nat) (testtype : CmacTestType) (msg : Option String) (msgLen : Nat)
    (key key2 key3 : Option String) (directionVerify : Bool) (mac : Option String)
    (macLen : Nat) (algId : Cipher) : Except AmvpResult CmacTc := do
  stopIf (algId ≠ .cmacTdes ∧ algId ≠ .cmacAes) .invalidArg
  stopIf (msg = none ∨ tcId = 0 ∨ testtype = .none ∨ key = none) .invalidArg
  stopIf (algId = .cmacTdes ∧ (key2 = none ∨ key3 = none)) .invalidArg
  stopIf (directionVerify ∧ (macLen = 0 ∨ mac = none)) .invalidArg
  let macData ← onlyIf directionVerify (hexstrToBin mac cmacMaclenBufferMax) []
  let msgData ← hexstrToBin msg cmacMsglenMaxStr
  let keyData ← hexstrToBin key cmacKeyMax
  let key2Data ← onlyIf (algId = .cmacTdes) (hexstrToBin key2 cmacKeyMax) []
  let key3Data ← onlyIf (algId = .cmacTdes) (hexstrToBin key3 cmacKeyMax) []
  pure {
    cipher := algId
    testType := testtype
    verify := directionVerify
    tcId := tcId
    msg := ⟨cmacMsglenMaxStr, msgData⟩
    msgLen := msgLen
    mac := ⟨cmacMaclenBufferMax, macData⟩
    macLen := if directionVerify then macData.length else macLen
    keyLen := if algId = .cmacAes then keyData.length else 0
    key := ⟨cmacKeyMax, keyData⟩
    key2 := ⟨cmacKeyMax, key2Data⟩
    key3 := ⟨cmacKeyMax, key3Data⟩ }

/-- {lit}`amvp_cmac_output_tc`. -/
def cmacOutputTc (stc : CmacTc) (tcRsp : JsonObject) : Except AmvpResult JsonObject :=
  if stc.verify then pure (jsonObjectSetBoolean tcRsp "testPassed" stc.verDisposition)
  else do
    let mac ← binToHexstr (some stc.mac) (intOfUnsigned stc.macLen) cmacMaclenBufferMax
    pure (jsonObjectSetText tcRsp "mac" (some mac))

/-- What the CMAC handler reads of a group. -/
structure CmacGroup where
  tgId : Int
  testtype : CmacTestType
  ver : Bool
  msglen : Nat
  maclen : Nat

/-- The variable of the CMAC handler that keeps its value from group to group. -/
structure CmacVars where
  verify : Bool := false

/-- The part of {lit}`amvp_cmac_kat_handler` that reads a group. -/
def readCmacGroup (algId : Cipher) (groupobj : Option JsonObject) :
    Except AmvpResult CmacGroup := do
  let tgId ← readTgId groupobj .malformedJson
  stopIf (algId = .cmacAes ∧ toUnsigned (jsonObjectGetNumber groupobj "keyLen") = 0) .missingArg
  let keyingOption := toUnsigned (jsonObjectGetNumber groupobj "keyingOption")
  stopIf (algId = .cmacTdes ∧ (keyingOption ≤ 0 ∨ 3 ≤ keyingOption)) .invalidArg
  let testTypeStr ← need (jsonObjectGetString groupobj "testType") .missingArg
  stopIf (testTypeStr ≠ "AFT") .unsupportedOp
  let direction ← need (jsonObjectGetString groupobj "direction") .malformedJson
  stopIf (direction ≠ "ver" ∧ direction ≠ "gen") .unsupportedOp
  let msglen := toUnsigned (jsonObjectGetNumber groupobj "msgLen" / 8)
  let maclen := toUnsigned (jsonObjectGetNumber groupobj "macLen" / 8)
  stopIf (maclen = 0) .missingArg
  pure ⟨tgId, .aft, direction = "ver", msglen, maclen⟩

/-- The checks of a message against the length that its group gives. -/
def checkCmacMsg (msg : Option String) (msglen : Nat) : Except AmvpResult Unit :=
  match msg with
  | some msg => do
    let jsonMsglen := strnlenS msg (cmacMsglenMaxStr + 1)
    stopIf (jsonMsglen > cmacMsglenMaxStr) .invalidArg
    stopIf (msglen = 0 ∧ 0 < jsonMsglen) .missingArg
  | none => stopIf (msglen ≠ 0) .missingArg

/-- The keys of a test: one for AES, three for triple-DES. -/
def readCmacKeys (algId : Cipher) (testobj : Option JsonObject) :
    Except AmvpResult (Option String × Option String × Option String) :=
  let tooLong (key : String) : Prop := strnlenS key (cmacKeyMax + 1) > cmacKeyMax
  if algId = .cmacAes then do
    let key1 ← need (jsonObjectGetString testobj "key") .missingArg
    stopIf (tooLong key1) .invalidArg
    pure (some key1, none, none)
  else if algId = .cmacTdes then do
    let key1 ← need (jsonObjectGetString testobj "key1") .missingArg
    let key2 ← need (jsonObjectGetString testobj "key2") .missingArg
    let key3 ← need (jsonObjectGetString testobj "key3") .missingArg
    stopIf (tooLong key1 ∨ tooLong key2 ∨ tooLong key3) .invalidArg
    pure (some key1, some key2, some key3)
  else pure (none, none, none)

/-- The part of {lit}`amvp_cmac_kat_handler` that reads a test. -/
def readCmacTest (algId : Cipher) (verify : Bool) (group : CmacGroup)
    (testobj : Option JsonObject) : Except AmvpResult CmacTc := do
  let tcId := readTcId testobj
  let msg := jsonObjectGetString testobj "message"
  checkCmacMsg msg group.msglen
  let (key1, key2, key3) ← readCmacKeys algId testobj
  let mac := if verify then jsonObjectGetString testobj "mac" else none
  stopIf (verify ∧ mac = none) .missingArg
  cmacInitTc tcId group.testtype msg group.msglen key1 key2 key3 verify mac group.maclen algId

/-- The loops of {lit}`amvp_cmac_kat_handler`. -/
def cmacLoader (algId : Cipher) : KatLoader CmacVars CmacGroup CmacTc where
  start := {}
  enter vars groupobj _ := do
    let group ← readCmacGroup algId groupobj
    pure (group, if group.ver then { verify := true } else vars)
  load vars group testobj := do
    let tc ← readCmacTest algId vars.verify group testobj
    pure ({ question := tc }, vars)
  finish _ testobj tc := cmacOutputTc tc (responseTest testobj)
  close group tests := responseGroup "tgId" group.tgId tests
  refused := .cryptoModuleFail

/-- {lit}`amvp_cmac_kat_handler`. -/
def cmacKatHandler (ctx : KatCtx) : KatHandler CmacTc :=
  katHandler (setupByAlgorithm ctx) (fun head => (cmacLoader head.2).worker)
    (fun head => responseObject ctx.vsId head.1)

/-- The fields of a test case that was read. -/
theorem readCmacTest_ok {algId : Cipher} {verify : Bool} {group : CmacGroup}
    {testobj : Option JsonObject} {tc : CmacTc}
    (h : readCmacTest algId verify group testobj = .ok tc) :
    tc.verify = verify ∧ tc.msgLen = group.msglen ∧ tc.msg.size = cmacMsglenMaxStr ∧
      tc.mac.size = cmacMaclenBufferMax ∧ tc.key.size = cmacKeyMax ∧ tc.keyLen ≤ cmacKeyMax ∧
      (verify = false → tc.macLen = group.maclen) ∧
      (verify = true → tc.macLen ≤ cmacMaclenBufferMax) := by
  simp only [readCmacTest, cmacInitTc, bind_eq_ok, exists_unit, pure_eq_ok] at h
  obtain ⟨-, keys, -, -, -, -, -, -, macData, hmac, msgData, -, keyData, hkey, key2Data, -,
    key3Data, -, rfl⟩ := h
  have hkeyLen := hexstrToBin_length_le hkey (by decide)
  refine ⟨rfl, rfl, rfl, rfl, rfl, ?_, ?_, ?_⟩
  · dsimp only
    split <;> omega
  · rintro rfl
    rfl
  · rintro rfl
    exact hexstrToBin_length_le hmac (by decide)

/-- The handler changes its direction for good once a group has direction {lit}`ver`. -/
def hasVerGroup (groups : List TestGroup) : Prop :=
  ∃ b ∈ groups, jsonObjectGetString b.head "direction" = some "ver"

theorem readCmacGroup_ok {algId : Cipher} {groupobj : Option JsonObject} {group : CmacGroup}
    (h : readCmacGroup algId groupobj = .ok group) :
    (group.ver = true ↔ jsonObjectGetString groupobj "direction" = some "ver") ∧
      group.msglen = toUnsigned (jsonObjectGetNumber groupobj "msgLen" / 8) ∧
      group.maclen = toUnsigned (jsonObjectGetNumber groupobj "macLen" / 8) := by
  simp only [readCmacGroup, bind_eq_ok, need_eq_ok, exists_unit, pure_eq_ok] at h
  obtain ⟨tgId, -, -, -, testTypeStr, -, -, direction, hdirection, -, -, rfl⟩ := h
  refine ⟨?_, rfl, rfl⟩
  simp [hdirection]

theorem cmac_enter_ok {algId : Cipher} {vars vars' : CmacVars} {groupobj : Option JsonObject}
    {n : Nat} {group : CmacGroup} (h : (cmacLoader algId).enter vars groupobj n = .ok (group, vars')) :
    readCmacGroup algId groupobj = .ok group ∧ vars'.verify = (group.ver || vars.verify) := by
  simp only [cmacLoader, bind_eq_ok, pure_eq_ok, Prod.mk.injEq] at h
  obtain ⟨group', hread, rfl, rfl⟩ := h
  refine ⟨hread, ?_⟩
  cases group'.ver <;> rfl

theorem cmac_load_ok {algId : Cipher} {vars vars' : CmacVars} {group : CmacGroup}
    {testobj : Option JsonObject} {tc : CmacTc} {sent : Bool}
    (h : (cmacLoader algId).load vars group testobj = .ok (⟨tc, sent⟩, vars')) :
    readCmacTest algId vars.verify group testobj = .ok tc ∧ vars' = vars := by
  simp only [cmacLoader, bind_eq_ok, pure_eq_ok, Prod.mk.injEq, Draft.mk.injEq] at h
  obtain ⟨tc', hread, ⟨rfl, -⟩, rfl⟩ := h
  exact ⟨hread, rfl⟩

/-- What the groups before have left of the direction. -/
theorem cmac_carry {algId : Cipher} {bs : List TestGroup} {vars : CmacVars}
    (h : (cmacLoader algId).carry (cmacLoader algId).start bs = .ok vars) :
    vars.verify = true ↔ hasVerGroup bs := by
  refine Loader.carry_induction (P := fun bs vars => vars.verify = true ↔ hasVerGroup bs)
    (by simp [cmacLoader, hasVerGroup]) ?_ h
  intro bs b s c s₁ s₂ hbs henter hitems
  obtain ⟨hread, hverify⟩ := cmac_enter_ok henter
  have hkeep := Loader.carryItems_eq_of_load (fun _ _ _ _ h => (cmac_load_ok h).2) hitems
  have hver := (readCmacGroup_ok hread).1
  rw [hkeep, hverify, Bool.or_eq_true, hver, hbs]
  unfold hasVerGroup
  constructor
  · rintro (hb | ⟨b', hmem, hb'⟩)
    · exact ⟨b, by simp, hb⟩
    · exact ⟨b', by simp [hmem], hb'⟩
  · rintro ⟨b', hmem, hb'⟩
    rcases List.mem_append.mp hmem with hmem | hmem
    · exact .inr ⟨b', hmem, hb'⟩
    · rw [List.mem_singleton.mp hmem] at hb'
      exact .inl hb'

/-- The direction with which a test is read. -/
theorem cmac_verify {algId : Cipher} {bs : List TestGroup} {groupobj : Option JsonObject}
    {n : Nat} {vars₀ vars₁ vars₂ : CmacVars} {group : CmacGroup} {ts : List (Option JsonObject)}
    (hbefore : (cmacLoader algId).carry (cmacLoader algId).start bs = .ok vars₀)
    (henter : (cmacLoader algId).enter vars₀ groupobj n = .ok (group, vars₁))
    (hitems : (cmacLoader algId).carryItems group vars₁ ts = .ok vars₂) :
    vars₂.verify = true ↔ group.ver = true ∨ hasVerGroup bs := by
  have hkeep := Loader.carryItems_eq_of_load (fun _ _ _ _ h => (cmac_load_ok h).2) hitems
  rw [hkeep, (cmac_enter_ok henter).2, Bool.or_eq_true, cmac_carry hbefore]

/-- The group has direction {lit}`ver` itself, or no group before it has. -/
def CmacOwnDirection (groups : List TestGroup) (i _j : Nat) : Prop :=
  jsonObjectGetString (groupAt groups i) "direction" = some "ver" ∨ ¬hasVerGroup (groups.take i)

/-- The test case of a CMAC test is its own exactly when no earlier group has left the
direction behind. -/
theorem cmac_independentIff (ctx : KatCtx) :
    (cmacKatHandler ctx).IndependentIff CmacOwnDirection := by
  refine aloneIff_of_alone ?_
  intro head bs bs' groupobj ts ts' t vars₀ vars₁ vars₂ vars₃ group tc hbefore henter hitems
    hload
  have hverify := cmac_verify hbefore henter hitems
  have hgroup := (cmac_enter_ok henter).1
  have hver := (readCmacGroup_ok hgroup).1
  obtain ⟨hread, -⟩ := cmac_load_ok hload
  have halone : (cmacLoader head.2).alone groupobj t =
      (readCmacTest head.2 group.ver group t).toOption := by
    simp only [Loader.alone, cmacLoader, hgroup, ok_bind, Except.pure, pure]
    cases group.ver <;> simp only [Bool.false_eq_true, if_false, if_true] <;>
      cases readCmacTest head.2 _ group t <;> rfl
  unfold CmacOwnDirection
  rw [halone, groupAt_append, List.take_left, ← hver]
  by_cases hstale : group.ver = true ∨ ¬hasVerGroup bs
  · have hsame : vars₂.verify = group.ver := by
      rw [Bool.eq_iff_iff, hverify]
      tauto
    rw [hsame] at hread
    simp [hread, hstale, Except.toOption]
  · simp only [hstale, iff_false]
    intro hsame
    push Not at hstale
    have htrue := (readCmacTest_ok hread).1.trans (hverify.mpr (.inr hstale.2))
    cases hother : readCmacTest head.2 group.ver group t with
    | error e => simp [hother, Except.toOption] at hsame
    | ok tc' =>
        simp only [hother, Except.toOption, Option.some.injEq] at hsame
        have hfalse := (readCmacTest_ok hother).1
        rw [hsame, htrue] at hfalse
        exact hstale.1 hfalse.symm

/-- The lengths of a CMAC test case are within its buffers. -/
def CmacTc.Fits (tc : CmacTc) : Prop :=
  tc.msgLen ≤ tc.msg.size ∧ tc.macLen ≤ tc.mac.size ∧ tc.keyLen ≤ tc.key.size

/-- The message length is within the limit, and so is the length of the code when it is
taken from the group. -/
def CmacLengthsFit (groups : List TestGroup) (i _j : Nat) : Prop :=
  toUnsigned (jsonObjectGetNumber (groupAt groups i) "msgLen" / 8) ≤ cmacMsglenMaxStr ∧
    (toUnsigned (jsonObjectGetNumber (groupAt groups i) "macLen" / 8) ≤ cmacMaclenBufferMax ∨
      jsonObjectGetString (groupAt groups i) "direction" = some "ver" ∨
      hasVerGroup (groups.take i))

theorem cmac_fits_iff (ctx : KatCtx) :
    (cmacKatHandler ctx).CallsIff CmacTc.Fits CmacLengthsFit := by
  refine callsIff_of_load ?_
  intro head bs bs' groupobj ts ts' t vars₀ vars₁ vars₂ vars₃ group tc hbefore henter hitems
    hload
  have hverify := cmac_verify hbefore henter hitems
  have hgroup := readCmacGroup_ok (cmac_enter_ok henter).1
  obtain ⟨-, hmsgLen, hmsg, hmac, hkey, hkeyLen, hgen, hver⟩ :=
    readCmacTest_ok (cmac_load_ok hload).1
  unfold CmacTc.Fits CmacLengthsFit
  rw [groupAt_append, List.take_left, ← hgroup.1, ← hgroup.2.1, ← hgroup.2.2, ← hverify, hmsgLen,
    hmsg, hmac, hkey]
  cases hdirection : vars₂.verify with
  | false => simp [hgen hdirection, hkeyLen]
  | true => simp [hver hdirection, hkeyLen]

/-! ## HMAC -/

def hmacMsgMax : Nat := 1024
def hmacMacByteMax : Nat := 64
def hmacMacStrMax : Nat := 128
def hmacKeyByteMax : Nat := 65536
def hmacKeyStrMax : Nat := 131072

/-- {lit}`AMVP_HMAC_TC`. -/
structure HmacTc where
  cipher : Cipher
  tcId : Nat
  msg : Buffer
  msgLen : Nat
  mac : Buffer
  macLen : Nat
  keyLen : Nat
  key : Buffer
deriving DecidableEq

/-- {lit}`amvp_hmac_init_tc`. -/
def hmacInitTc (tcId msgLen : Nat) (msg : String) (macLen keyLen : Nat) (key : String)
    (algId : Cipher) : Except AmvpResult HmacTc := do
  let msgData ← hexstrToBin (some msg) hmacMsgMax
  let keyData ← hexstrToBin (some key) hmacKeyByteMax
  pure {
    cipher := algId
    tcId := tcId
    msg := ⟨hmacMsgMax, msgData⟩
    msgLen := msgLen / 8
    mac := ⟨hmacMacByteMax, []⟩
    macLen := macLen / 8
    keyLen := keyLen / 8
    key := ⟨hmacKeyByteMax, keyData⟩ }

/-- {lit}`amvp_hmac_output_tc`. -/
def hmacOutputTc (stc : HmacTc) (tcRsp : JsonObject) : Except AmvpResult JsonObject := do
  let mac ← binToHexstr (some stc.mac) (intOfUnsigned stc.macLen) hmacMacStrMax
  pure (jsonObjectSetText tcRsp "mac" (some mac))

/-- What the HMAC handler reads of a group. -/
structure HmacGroup where
  tgId : Int
  msglen : Nat
  keylen : Nat
  maclen : Nat

/-- The part of {lit}`amvp_hmac_kat_handler` that reads a group with a number of tests. -/
def readHmacGroup (groupobj : Option JsonObject) (tests : Nat) : Except AmvpResult HmacGroup := do
  let tgId ← readTgId groupobj .malformedJson
  let msglen := toUnsigned (jsonObjectGetNumber groupobj "msgLen")
  stopIf (msglen = 0) .missingArg
  let keylen := toUnsigned (jsonObjectGetNumber groupobj "keyLen")
  stopIf (keylen = 0) .missingArg
  let maclen := toUnsigned (jsonObjectGetNumber groupobj "macLen")
  stopIf (maclen = 0) .missingArg
  stopIf (tests = 0) .missingArg
  pure ⟨tgId, msglen, keylen, maclen⟩

/-- The part of {lit}`amvp_hmac_kat_handler` that reads a test.  The product in the check of
the message is one of 32 bits. -/
def readHmacTest (algId : Cipher) (group : HmacGroup) (testobj : Option JsonObject) :
    Except AmvpResult HmacTc := do
  let tcId := readTcId testobj
  stopIf (tcId = 0) .missingArg
  let msg ← need (jsonObjectGetString testobj "msg") .missingArg
  stopIf (strnlenS msg hmacMsgMax ≠ group.msglen * 2 % 2 ^ 32 / 8) .invalidArg
  let key ← need (jsonObjectGetString testobj "key") .missingArg
  stopIf (strnlenS key hmacKeyStrMax ≠ group.keylen / 4) .invalidArg
  hmacInitTc tcId group.msglen msg group.maclen group.keylen key algId

/-- The loops of {lit}`amvp_hmac_kat_handler`; no variable keeps its value. -/
def hmacLoader (algId : Cipher) : KatLoader Unit HmacGroup HmacTc where
  start := ()
  enter _ groupobj tests := (readHmacGroup groupobj tests).map (·, ())
  load _ group testobj := (readHmacTest algId group testobj).map ({ question := · }, ())
  finish _ testobj tc := hmacOutputTc tc (responseTest testobj)
  close group tests := responseGroup "tgId" group.tgId tests
  refused := .cryptoModuleFail

/-- {lit}`amvp_hmac_kat_handler`. -/
def hmacKatHandler (ctx : KatCtx) : KatHandler HmacTc :=
  katHandler (setupByAlgorithm ctx) (fun head => (hmacLoader head.2).worker)
    (fun head => responseObject ctx.vsId head.1) (some .missingArg)

/-- The lengths of an HMAC test case are within its buffers. -/
def HmacTc.Fits (tc : HmacTc) : Prop :=
  tc.msgLen ≤ tc.msg.size ∧ tc.macLen ≤ tc.mac.size ∧ tc.keyLen ≤ tc.key.size

/-- The message length of the group does not wrap when it is doubled, and the code has at
most the length of the buffer. -/
def HmacLengthsFit (groups : List TestGroup) (i _j : Nat) : Prop :=
  toUnsigned (jsonObjectGetNumber (groupAt groups i) "msgLen") < 2 ^ 31 ∧
    toUnsigned (jsonObjectGetNumber (groupAt groups i) "macLen") / 8 ≤ hmacMacByteMax

theorem readHmacGroup_ok {groupobj : Option JsonObject} {tests : Nat} {group : HmacGroup}
    (h : readHmacGroup groupobj tests = .ok group) :
    group.msglen = toUnsigned (jsonObjectGetNumber groupobj "msgLen") ∧
      group.maclen = toUnsigned (jsonObjectGetNumber groupobj "macLen") := by
  simp only [readHmacGroup, bind_eq_ok, pure_eq_ok] at h
  obtain ⟨tgId, -, -, -, -, -, -, -, -, -, rfl⟩ := h
  exact ⟨rfl, rfl⟩

theorem readHmacTest_ok {algId : Cipher} {group : HmacGroup} {testobj : Option JsonObject}
    {tc : HmacTc} (h : readHmacTest algId group testobj = .ok tc) :
    group.msglen * 2 % 2 ^ 32 / 8 ≤ hmacMsgMax ∧ group.keylen / 4 ≤ hmacKeyStrMax ∧
      tc.msgLen = group.msglen / 8 ∧ tc.msg.size = hmacMsgMax ∧
      tc.macLen = group.maclen / 8 ∧ tc.mac.size = hmacMacByteMax ∧
      tc.keyLen = group.keylen / 8 ∧ tc.key.size = hmacKeyByteMax := by
  simp only [readHmacTest, hmacInitTc, bind_eq_ok, stopIf_eq_ok, exists_const, pure_eq_ok,
    ne_eq, not_not] at h
  obtain ⟨-, msg, -, hmsg, key, -, hkey, msgData, -, keyData, -, rfl⟩ := h
  refine ⟨?_, ?_, rfl, rfl, rfl, rfl, rfl, rfl⟩
  · rw [← hmsg]
    exact Nat.min_le_right _ _
  · rw [← hkey]
    exact Nat.min_le_right _ _

theorem hmac_fits_iff (ctx : KatCtx) :
    (hmacKatHandler ctx).CallsIff HmacTc.Fits HmacLengthsFit := by
  refine callsIff_of_load ?_
  intro head bs bs' groupobj ts ts' t _ _ _ _ group tc _ henter _ hload
  simp only [hmacLoader, map_eq_ok, Prod.mk.injEq] at henter hload
  obtain ⟨group', hgroup, rfl, -⟩ := henter
  obtain ⟨tc', htest, htc, -⟩ := hload
  obtain rfl : tc' = tc := by simpa using htc
  obtain ⟨hmsglen, hmaclen⟩ := readHmacGroup_ok hgroup
  obtain ⟨hmsg, hkey, htest⟩ := readHmacTest_ok htest
  have hbound : group'.msglen < 2 ^ 32 := by
    rw [hmsglen]
    exact toUnsigned_lt _
  unfold HmacTc.Fits HmacLengthsFit
  rw [groupAt_append, ← hmsglen, ← hmaclen]
  simp only [htest]
  unfold hmacMsgMax hmacKeyStrMax hmacKeyByteMax at *
  omega

end LibAmvp
