import LibAmvp.Kat.Aes
import LibAmvp.Lib.Carry

/-!
# Reading the tests of AES

Of the variables {lit}`readIv` and {lit}`seq_num`, which keep their values from group to group, a
test reads the first when it does not set it, and the second when its tweak is a string.

Main results:

- Theorem {lit}`readAesTest_le`: what can be read of a test can be read with less demanding
  variables.
- Theorem {lit}`readAesTest_same_iff`: when is a test read alike with two values of the
  variables?
- Theorem {lit}`aesReady_of_read`: a test case that was read can be shown by a Monte Carlo test.
-/

namespace LibAmvp

open Guard

/-! ## The variables -/

/-- The group takes the sequence number of each test. -/
def setsSeqNum (head : AesHead) (group : AesGroup) : Bool :=
  head.algId = .aesXts && group.twMode.bind readTwMode = some .num

/-- What a test sets {lit}`readIv` to. -/
def aesSetsIv (head : AesHead) (test : AesGroup × Option JsonObject) : Option Bool :=
  if setsReadIv head.algId test.1.aead.ivGen test.1.dir then some true else none

/-- What a test sets {lit}`seq_num` to. -/
def aesSetsSeqNum (head : AesHead) (test : AesGroup × Option JsonObject) : Option Int :=
  if setsSeqNum head test.1 then some (toInt (jsonObjectGetNumber test.2 "sequenceNumber"))
  else none

/-- The variables that a test leaves. -/
def aesLeaves (head : AesHead) (vars : AesVars) (test : AesGroup × Option JsonObject) :
    AesVars where
  readIv := Carry.settle (aesSetsIv head) vars.readIv test
  seqNum := Carry.settle (aesSetsSeqNum head) vars.seqNum test

/-- Whether a vector was read, after one more test. -/
theorem settle_aesSetsIv (head : AesHead) (readIv : Bool) (group : AesGroup)
    (testobj : Option JsonObject) :
    Carry.settle (aesSetsIv head) readIv (group, testobj) =
      (setsReadIv head.algId group.aead.ivGen group.dir || readIv) := by
  unfold Carry.settle aesSetsIv
  cases setsReadIv head.algId group.aead.ivGen group.dir <;> rfl

/-- What was read before remains read. -/
theorem settle_aesSetsIv_mono {head : AesHead} {test : AesGroup × Option JsonObject}
    {readIv readIv' : Bool} (h : readIv = true → readIv' = true) :
    Carry.settle (aesSetsIv head) readIv test = true →
      Carry.settle (aesSetsIv head) readIv' test = true := by
  rw [settle_aesSetsIv, settle_aesSetsIv, Bool.or_eq_true, Bool.or_eq_true]
  exact Or.imp_right h

/-! ## What is read -/

/-- The initialization vector of a test. -/
def aesIvOf (readIv : Bool) (testobj : Option JsonObject) : Except AmvpResult (Option String) :=
  onlyIf readIv ((readAesString testobj "iv" symIvMax).map some) none

/-- The initialization vector, the tweak mode and the sequence number of a test. -/
def aesTweakOf (head : AesHead) (group : AesGroup) (seqNum : Int) (iv : Option String)
    (testobj : Option JsonObject) :
    Except AmvpResult (Option String × SymCiphTweakMode × Int) :=
  onlyIf (head.algId = .aesXts)
    (do
      let tweak ← readAesTweak group.twMode seqNum testobj
      pure (tweak.1 <|> iv, tweak.2)) (iv, .unset, seqNum)

/-- What is read of a test whatever the variables are. -/
structure AesFixed where
  key : String
  datalen : Nat
  dataUnitLen : Nat
  texts : Option String × Option String × Option String
  aad : Option String
deriving DecidableEq

/-- The test is read as these texts and lengths, its initialization vector apart. -/
structure ReadsAesFixed (head : AesHead) (group : AesGroup) (testobj : Option JsonObject)
    (fixed : AesFixed) : Prop where
  tcId : jsonObjectHasValue testobj "tcId" = true
  key : readAesString testobj "key" symKeyMaxStr = .ok fixed.key
  datalen : onlyIf (head.algId = .aesCfb1) (readAesBits testobj "payloadLen") 0 =
    .ok fixed.datalen
  dataUnitLen : onlyIf (head.algId = .aesXts) (readAesBits testobj "dataUnitLen") 0 =
    .ok fixed.dataUnitLen
  texts : readAesTexts head.algId group.dir testobj = .ok fixed.texts
  aad : onlyIf (isAesAead head.algId) ((readAesString testobj "aad" symAadMax).map some) none =
    .ok fixed.aad

/-- The test as {lit}`amvp_aes_init_tc` is given it. -/
def AesFixed.test (fixed : AesFixed) (head : AesHead) (group : AesGroup)
    (testobj : Option JsonObject) (tweak : Option String × SymCiphTweakMode × Int) : AesTest where
  tcId := readTcId testobj
  key := some fixed.key
  pt := fixed.texts.1
  ct := fixed.texts.2.1
  iv := tweak.1
  tag := fixed.texts.2.2
  aad := fixed.aad
  salt := if head.algId = .aesXpn ∧ group.saltSrc = .ext then jsonObjectGetString testobj "salt"
    else none
  datalen := fixed.datalen
  dataUnitLen := fixed.dataUnitLen
  tweakMode := tweak.2.1
  seqNum := tweak.2.2

/-- When a test is read, field by field. -/
theorem readAesTest_eq_ok {head : AesHead} {vars vars' : AesVars} {group : AesGroup}
    {testobj : Option JsonObject} {tc : SymCipherTc} :
    readAesTest head vars group testobj = .ok (tc, vars') ↔
      ∃ fixed iv tweak, ReadsAesFixed head group testobj fixed ∧
        aesIvOf (Carry.settle (aesSetsIv head) vars.readIv (group, testobj)) testobj = .ok iv ∧
        aesTweakOf head group vars.seqNum iv testobj = .ok tweak ∧
        aesInitTc head group (fixed.test head group testobj tweak) = .ok tc ∧
        vars' = ⟨Carry.settle (aesSetsIv head) vars.readIv (group, testobj), tweak.2.2⟩ := by
  rw [settle_aesSetsIv]
  simp only [readAesTest, bind_eq_ok, stopIf_eq_ok, pure_eq_ok, not_not, exists_unit]
  constructor
  · rintro ⟨htcId, key, hkey, datalen, hdatalen, dataUnitLen, hdataUnitLen, ⟨pt, ct, tag⟩, htexts,
      iv, hiv, ⟨iv', tweakMode, seqNum⟩, htweak, aad, haad, tc', htc, hsame⟩
    cases hsame
    exact ⟨⟨key, datalen, dataUnitLen, (pt, ct, tag), aad⟩, iv, (iv', tweakMode, seqNum),
      ⟨htcId, hkey, hdatalen, hdataUnitLen, htexts, haad⟩, hiv, htweak, htc, rfl⟩
  · rintro ⟨⟨key, datalen, dataUnitLen, ⟨pt, ct, tag⟩, aad⟩, iv, ⟨iv', tweakMode, seqNum⟩,
      ⟨htcId, hkey, hdatalen, hdataUnitLen, htexts, haad⟩, hiv, htweak, htc, rfl⟩
    exact ⟨htcId, key, hkey, datalen, hdatalen, dataUnitLen, hdataUnitLen, (pt, ct, tag), htexts,
      iv, hiv, (iv', tweakMode, seqNum), htweak, aad, haad, tc, htc, rfl⟩

/-- The length that {lit}`amvp_aes_init_tc` stores for an initialization vector. -/
def aesIvLen (head : AesHead) (group : AesGroup) (iv : Option String) : Nat :=
  match iv with
  | some str =>
    if head.algId = .aesCbcCs1 ∨ head.algId = .aesCbcCs2 ∨ head.algId = .aesCbcCs3 then
      (hexPairs (cBytes str)).length
    else group.aead.ivlen / 8
  | none => group.aead.ivlen / 8

/-- What a test case takes over from the test that was read. -/
theorem aesInitTc_reads {head : AesHead} {group : AesGroup} {test : AesTest} {tc : SymCipherTc}
    (h : aesInitTc head group test = .ok tc) :
    decodeMemory test.iv symIvByteMax = .ok tc.iv ∧ tc.seqNum = unsignedOfInt test.seqNum ∧
      tc.ivLen = aesIvLen head group test.iv := by
  simp only [aesInitTc, bind_eq_ok, pure_eq_ok] at h
  obtain ⟨key, -, pt, -, ct, -, iv, hiv, tag, -, aad, -, salt, -, rfl⟩ := h
  exact ⟨hiv, rfl, rfl⟩

/-- The test case with another initialization vector and another sequence number. -/
theorem aesInitTc_retweak {head : AesHead} {group : AesGroup} {test : AesTest} {tc : SymCipherTc}
    (h : aesInitTc head group test = .ok tc) {iv : Option String} {m : Memory}
    (hm : decodeMemory iv symIvByteMax = .ok m) (seqNum : Int) :
    aesInitTc head group { test with iv := iv, seqNum := seqNum } =
      .ok { tc with
        iv := m, seqNum := unsignedOfInt seqNum, ivLen := aesIvLen head group iv } := by
  simp only [aesInitTc, bind_eq_ok, pure_eq_ok] at h ⊢
  obtain ⟨key, hkey, pt, hpt, ct, hct, iv', -, tag, htag, aad, haad, salt, hsalt, rfl⟩ := h
  exact ⟨key, hkey, pt, hpt, ct, hct, m, hm, tag, htag, aad, haad, salt, hsalt, rfl⟩

/-- The variables that tests of a vector set can leave. -/
structure AesVars.Reachable (head : AesHead) (vars : AesVars) : Prop where
  readIv : vars.readIv = true → head.algId ≠ .aesXts
  nonneg : 0 ≤ vars.seqNum
  le : vars.seqNum ≤ 255

/-- The variables at the start can be reached. -/
theorem AesVars.reachable_start (head : AesHead) : AesVars.Reachable head {} :=
  ⟨nofun, le_rfl, by decide⟩

/-- The tweak of a test: its own string if it has one, and the sequence number that it sets or
finds. -/
theorem aesTweakOf_cases {head : AesHead} {group : AesGroup} {seqNum : Int} {iv : Option String}
    {testobj : Option JsonObject} {tweak : Option String × SymCiphTweakMode × Int}
    (h : aesTweakOf head group seqNum iv testobj = .ok tweak) :
    ∃ own : Option String, ∃ mode, (head.algId ≠ .aesXts → own = none) ∧
      tweak = (own <|> iv, mode, Carry.settle (aesSetsSeqNum head) seqNum (group, testobj)) ∧
      (setsSeqNum head group = true → 0 ≤ tweak.2.2 ∧ tweak.2.2 ≤ 255) ∧
      ∀ seqNum' iv', aesTweakOf head group seqNum' iv' testobj =
        .ok (own <|> iv', mode, Carry.settle (aesSetsSeqNum head) seqNum' (group, testobj)) := by
  unfold aesTweakOf at h ⊢
  by_cases hxts : head.algId = .aesXts
  · simp only [onlyIf_pos hxts, readAesTweak, bind_eq_ok, need_eq_ok] at h
    obtain ⟨⟨tw, mode', seq⟩, ⟨mode, hmode, htweak⟩, hsame⟩ := h
    cases mode with
    | hex =>
        have hsets : setsSeqNum head group = false := by simp [setsSeqNum, hmode]
        simp only [bind_eq_ok, pure_eq_ok] at htweak hsame
        obtain ⟨str, hstr, hread⟩ := htweak
        cases hread
        refine ⟨some str, .hex, fun hne => absurd hxts hne, ?_, ?_, ?_⟩
        · rw [← hsame]
          simp [Carry.settle, aesSetsSeqNum, hsets]
        · rw [hsets]
          exact fun hfalse => absurd hfalse Bool.false_ne_true
        · intro seqNum' iv'
          simp [onlyIf_pos hxts, readAesTweak, hmode, need_some, hstr, Carry.settle,
            aesSetsSeqNum, hsets, ok_bind]
    | num =>
        have hsets : setsSeqNum head group = true := by simp [setsSeqNum, hmode, hxts]
        simp only [bind_eq_ok, pure_eq_ok, stopIf_eq_ok, exists_unit] at htweak hsame
        obtain ⟨hbounds, hread⟩ := htweak
        cases hread
        refine ⟨none, .num, fun _ => rfl, ?_, ?_, ?_⟩
        · rw [← hsame]
          simp [Carry.settle, aesSetsSeqNum, hsets]
        · intro _
          rw [← hsame]
          dsimp only
          omega
        · intro seqNum' iv'
          simp [onlyIf_pos hxts, readAesTweak, hmode, need_some, stopIf_neg hbounds,
            Carry.settle, aesSetsSeqNum, hsets, ok_bind]
    | unset => cases htweak
    | none => cases htweak
  · have hsets : setsSeqNum head group = false := by simp [setsSeqNum, hxts]
    rw [onlyIf_neg hxts] at h
    cases h
    refine ⟨none, .unset, fun _ => rfl, ?_, ?_, ?_⟩
    · simp [Carry.settle, aesSetsSeqNum, hsets]
    · rw [hsets]
      exact fun hfalse => absurd hfalse Bool.false_ne_true
    · intro seqNum' iv'
      rw [onlyIf_neg hxts]
      simp [Carry.settle, aesSetsSeqNum, hsets]

section Tests

variable {head : AesHead} {vars vars' : AesVars} {group : AesGroup} {testobj : Option JsonObject}
  {tc : SymCipherTc}

/-- A test that is read leaves the variables it sets. -/
theorem readAesTest_leaves (h : readAesTest head vars group testobj = .ok (tc, vars')) :
    vars' = aesLeaves head vars (group, testobj) := by
  obtain ⟨fixed, iv, tweak, -, -, htweak, -, rfl⟩ := readAesTest_eq_ok.mp h
  obtain ⟨own, mode, -, rfl, -, -⟩ := aesTweakOf_cases htweak
  rfl

/-- Variables that can be reached stay so over a test. -/
theorem AesVars.Reachable.step (hvars : vars.Reachable head)
    (h : readAesTest head vars group testobj = .ok (tc, vars')) : vars'.Reachable head := by
  obtain ⟨fixed, iv, tweak, -, -, htweak, -, rfl⟩ := readAesTest_eq_ok.mp h
  obtain ⟨own, mode, -, hsame, hbounds, -⟩ := aesTweakOf_cases htweak
  have hseq : 0 ≤ tweak.2.2 ∧ tweak.2.2 ≤ 255 := by
    by_cases hsets : setsSeqNum head group = true
    · exact hbounds hsets
    · rw [hsame]
      rw [Carry.settle_of_none (by simp [aesSetsSeqNum, hsets])]
      exact ⟨hvars.nonneg, hvars.le⟩
  refine ⟨fun hread hxts => ?_, hseq.1, hseq.2⟩
  rw [settle_aesSetsIv, hxts] at hread
  exact hvars.readIv hread hxts

/-- A text that is missing leaves the memory cleared. -/
theorem decodeMemory_none (destMax : Nat) : decodeMemory none destMax = .ok .zero :=
  onlyIf_neg (by simp) _ _

/-- What can be read of a test can be read with less demanding variables. -/
theorem readAesTest_le (hle : vars.readIv = true → vars'.readIv = true) {out : AesVars}
    (h : readAesTest head vars' group testobj = .ok (tc, out)) :
    ∃ tc' out', readAesTest head vars group testobj = .ok (tc', out') ∧
      (out'.readIv = true → out.readIv = true) := by
  obtain ⟨fixed, iv, tweak, hfixed, hiv, htweak, htc, rfl⟩ := readAesTest_eq_ok.mp h
  obtain ⟨own, mode, -, rfl, -, hagain⟩ := aesTweakOf_cases htweak
  -- The initialization vector is the same, or none is read.
  obtain ⟨iv', hiv', hchoice⟩ : ∃ iv',
      aesIvOf (Carry.settle (aesSetsIv head) vars.readIv (group, testobj)) testobj = .ok iv' ∧
        (iv' = iv ∨ iv' = none) := by
    by_cases hread : Carry.settle (aesSetsIv head) vars.readIv (group, testobj) = true
    · rw [settle_aesSetsIv_mono hle hread] at hiv
      rw [hread]
      exact ⟨iv, hiv, .inl rfl⟩
    · exact ⟨none, onlyIf_neg hread _ _, .inr rfl⟩
  have hdecode : ∃ m, decodeMemory (own <|> iv') symIvByteMax = .ok m := by
    obtain ⟨hsame, -, -⟩ := aesInitTc_reads htc
    cases own with
    | some str => exact ⟨_, hsame⟩
    | none =>
        rcases hchoice with rfl | rfl
        · exact ⟨_, hsame⟩
        · exact ⟨_, decodeMemory_none _⟩
  obtain ⟨m, hm⟩ := hdecode
  have htc' := aesInitTc_retweak htc hm
    (Carry.settle (aesSetsSeqNum head) vars.seqNum (group, testobj))
  exact ⟨_, _, readAesTest_eq_ok.mpr
    ⟨fixed, iv', _, hfixed, hiv', hagain vars.seqNum iv', htc', rfl⟩, settle_aesSetsIv_mono hle⟩



/-- The initialization vector of the test is as one that is not read: zeros. -/
def ZeroIv (testobj : Option JsonObject) : Prop :=
  ∃ str, readAesString testobj "iv" symIvMax = .ok str ∧
    decodeMemory (some str) symIvByteMax = .ok .zero

/-- A test that leaves {lit}`readIv` as it is has an initialization vector of the length of its
group. -/
theorem aesIvLen_eq_of_kept {iv : Option String}
    (h : aesSetsIv head (group, testobj) = none) :
    aesIvLen head group iv = aesIvLen head group none := by
  have hsets : setsReadIv head.algId group.aead.ivGen group.dir = false := by
    simpa [aesSetsIv] using h
  cases iv with
  | none => rfl
  | some str =>
      refine if_neg fun hcs => ?_
      rcases hcs with hcs | hcs | hcs <;> simp [setsReadIv, hcs] at hsets

/-- The test finds the same sequence number and the same need of an initialization vector, or
one of zeros. -/
structure AesReadsAlike (head : AesHead) (vars vars' : AesVars) (group : AesGroup)
    (testobj : Option JsonObject) : Prop where
  readIv : ¬ZeroIv testobj → Carry.settle (aesSetsIv head) vars.readIv (group, testobj) =
    Carry.settle (aesSetsIv head) vars'.readIv (group, testobj)
  seqNum : Carry.settle (aesSetsSeqNum head) vars.seqNum (group, testobj) =
    Carry.settle (aesSetsSeqNum head) vars'.seqNum (group, testobj)

/-- The conversion tells small numbers apart. -/
theorem unsignedOfInt_inj {n m : Int} (hn : 0 ≤ n ∧ n ≤ 255) (hm : 0 ≤ m ∧ m ≤ 255)
    (h : unsignedOfInt n = unsignedOfInt m) : n = m := by
  unfold unsignedOfInt at h
  omega

/-- A test finds a sequence number in its bounds. -/
theorem AesVars.Reachable.settle_seqNum (hvars : vars.Reachable head)
    (h : readAesTest head vars group testobj = .ok (tc, vars')) :
    0 ≤ Carry.settle (aesSetsSeqNum head) vars.seqNum (group, testobj) ∧
      Carry.settle (aesSetsSeqNum head) vars.seqNum (group, testobj) ≤ 255 := by
  have hout := hvars.step h
  rw [readAesTest_leaves h] at hout
  exact ⟨hout.nonneg, hout.le⟩

/-- A test is read alike with more demanding variables exactly when it finds the same
sequence number, and the same need of an initialization vector or one of zeros. -/
theorem readAesTest_same_iff (hvars : vars.Reachable head) {vars₀ out₀ : AesVars}
    (hvars₀ : vars₀.Reachable head) (hle : vars₀.readIv = true → vars.readIv = true)
    (h₀ : readAesTest head vars₀ group testobj = .ok (tc, out₀)) :
    (∃ out, readAesTest head vars group testobj = .ok (tc, out)) ↔
      AesReadsAlike head vars vars₀ group testobj := by
  obtain ⟨fixed, iv₀, tweak₀, hfixed, hiv₀, htweak₀, htc₀, -⟩ := readAesTest_eq_ok.mp h₀
  obtain ⟨own, mode, hown, rfl, -, hagain⟩ := aesTweakOf_cases htweak₀
  obtain ⟨hdecode₀, hseq₀, hlen₀⟩ := aesInitTc_reads htc₀
  -- When the need differs, the test has no tweak of its own, and reads one vector more.
  have hdiffer : Carry.settle (aesSetsIv head) vars.readIv (group, testobj) ≠
      Carry.settle (aesSetsIv head) vars₀.readIv (group, testobj) →
        aesSetsIv head (group, testobj) = none ∧ vars.readIv = true ∧ vars₀.readIv = false ∧
          own = none ∧ iv₀ = none := by
    intro hne
    cases hsets : aesSetsIv head (group, testobj) with
    | some b => exact absurd (by rw [Carry.settle_of_some hsets, Carry.settle_of_some hsets]) hne
    | none =>
        rw [Carry.settle_of_none hsets, Carry.settle_of_none hsets] at hne
        rw [Carry.settle_of_none hsets] at hiv₀
        have hread₀ : vars₀.readIv = false := by
          by_contra hread
          rw [Bool.not_eq_false] at hread
          exact hne ((hle hread).trans hread.symm)
        have hread : vars.readIv = true := by
          rwa [hread₀, ne_eq, Bool.not_eq_false] at hne
        rw [hread₀] at hiv₀
        exact ⟨rfl, hread, hread₀, hown (hvars.readIv hread), (Except.ok.inj hiv₀).symm⟩
  constructor
  · rintro ⟨out, h⟩
    obtain ⟨fixed', iv, tweak, -, hiv, htweak, htc, -⟩ := readAesTest_eq_ok.mp h
    rw [hagain vars.seqNum iv] at htweak
    cases htweak
    obtain ⟨hdecode, hseq, -⟩ := aesInitTc_reads htc
    refine ⟨fun hzero => ?_, ?_⟩
    · by_contra hne
      obtain ⟨hsets, hread, -, rfl, rfl⟩ := hdiffer hne
      rw [Carry.settle_of_none hsets, hread] at hiv
      obtain ⟨str, hstr, rfl⟩ := map_eq_ok.mp hiv
      have hnone : Except.ok Memory.zero = Except.ok tc.iv :=
        (decodeMemory_none symIvByteMax).symm.trans hdecode₀
      refine hzero ⟨str, hstr, ?_⟩
      rw [Except.ok.inj hnone]
      exact hdecode
    · exact unsignedOfInt_inj (hvars.settle_seqNum h) (hvars₀.settle_seqNum h₀)
        (hseq.symm.trans hseq₀)
  · intro halike
    by_cases hsame : Carry.settle (aesSetsIv head) vars.readIv (group, testobj) =
        Carry.settle (aesSetsIv head) vars₀.readIv (group, testobj)
    · refine ⟨_, readAesTest_eq_ok.mpr ⟨fixed, iv₀, _, hfixed, ?_, hagain vars.seqNum iv₀, ?_, rfl⟩⟩
      · rw [hsame]
        exact hiv₀
      · rw [halike.seqNum]
        exact htc₀
    · obtain ⟨hsets, hread, -, rfl, rfl⟩ := hdiffer hsame
      have hzero : ZeroIv testobj := by
        by_contra hzero
        exact hsame (halike.readIv hzero)
      obtain ⟨str, hstr, hm⟩ := hzero
      refine ⟨_, readAesTest_eq_ok.mpr
        ⟨fixed, some str, _, hfixed, ?_, hagain vars.seqNum (some str), ?_, rfl⟩⟩
      · rw [Carry.settle_of_none hsets, hread]
        exact map_eq_ok.mpr ⟨str, hstr, rfl⟩
      · have htc := aesInitTc_retweak htc₀ hm
          (Carry.settle (aesSetsSeqNum head) vars.seqNum (group, testobj))
        have hzero : tc.iv = .zero :=
          Except.ok.inj (hdecode₀.symm.trans (decodeMemory_none symIvByteMax))
        have hseq : unsignedOfInt (Carry.settle (aesSetsSeqNum head) vars.seqNum (group, testobj)) =
            tc.seqNum := by
          rw [halike.seqNum]
          exact hseq₀.symm
        have hlen : aesIvLen head group (some str) = tc.ivLen :=
          (aesIvLen_eq_of_kept hsets).trans hlen₀.symm
        rw [hseq, hlen, ← hzero] at htc
        exact htc

/-! ## Lengths -/

/-- The lengths of a test case let its values be shown at the start of a round. -/
structure AesShowable (stc : SymCipherTc) : Prop where
  key : 2 * (stc.keyLen / 8) ≤ symCtMax
  iv : 2 * stc.ivLen ≤ symCtMax
  pt : 2 * stc.ptLen ≤ symPtMax ∨ stc.cipher = .aesCfb1
  ct : 2 * stc.ctLen ≤ symCtMax ∨ stc.cipher = .aesCfb1

/-- What the groups leave open of a test case. -/
structure AesReady (group : AesGroup) (tc : SymCipherTc) : Prop where
  testType : tc.testType = group.testType
  showable : AesShowable tc

/-- The length of a vector is within its limit. -/
theorem readAesAead_ivlen {algId : Cipher} {groupobj : Option JsonObject} {aead : AesAead}
    (halg : isAesAead algId = true) (h : readAesAead algId groupobj = .ok aead) :
    aead.ivlen ≤ aesGcmIvBitMax := by
  simp only [readAesAead, bind_eq_ok, stopIf_eq_ok, pure_eq_ok, exists_unit] at h
  obtain ⟨-, ⟨ivGen, ivGenMode⟩, hgcm, hccm, hfixed, -, -, -, rfl⟩ := h
  rcases onlyIf_cases hgcm with ⟨-, hiv⟩ | ⟨hnot, -⟩
  · simp only [readAesGcmIv, bind_eq_ok, stopIf_eq_ok, exists_unit, not_not] at hiv
    exact hiv.1.2
  · by_cases hcipher : algId = .aesCcm
    · rw [not_and, not_not] at hccm
      exact (hccm hcipher).2.1.trans (by decide)
    · have hlength : toUnsigned (jsonObjectGetNumber groupobj "ivLen") = 96 := by
        simp only [isAesAead, Bool.or_eq_true, decide_eq_true_eq] at halg
        simp only [aesGcmSivIvlen, aesXpnIvlen] at hfixed
        tauto
      change toUnsigned (jsonObjectGetNumber groupobj "ivLen") ≤ aesGcmIvBitMax
      rw [hlength]
      decide

/-- The lengths that a group of AES gives. -/
structure AesGroup.Bounded (group : AesGroup) : Prop where
  keylen : group.keylen ≤ 256
  ivlen : group.aead.ivlen ≤ aesGcmIvBitMax
  paylen : group.paylen ≤ symPtBitMax

/-- The lengths of a group that was read are within their limits. -/
theorem readAesGroup_bounded {groupobj : Option JsonObject}
    (h : readAesGroup head groupobj = .ok group) : group.Bounded := by
  simp only [readAesGroup, bind_eq_ok, stopIf_eq_ok, pure_eq_ok, exists_unit] at h
  obtain ⟨tgId, -, dir, -, testType, -, ⟨incrCtr, ovrflwCtr⟩, -, kwcipher, -, hkeylen, aead, haead,
    -, hpaylen, twMode, -, ⟨saltSrc, saltLen⟩, -, rfl⟩ := h
  refine ⟨?_, ?_, ?_⟩
  · dsimp only
    omega
  · rcases onlyIf_cases haead with ⟨halg, hread⟩ | ⟨-, rfl⟩
    · exact readAesAead_ivlen halg hread
    · simp only [aesPlainIv]
      split <;> decide
  · dsimp only
    omega

/-- What is decoded fits. -/
theorem decodeMemory_length {str : String} {destMax : Nat} {m : Memory}
    (h : decodeMemory (some str) destMax = .ok m) (hmax : 2 * destMax < hexstrMax) :
    (hexPairs (cBytes str)).length ≤ destMax := by
  rw [decodeMemory, onlyIf_pos (by simp), map_eq_ok] at h
  obtain ⟨data, hdata, -⟩ := h
  have hlength := hexstrToBin_length_le hdata hmax
  simp only [hexstrToBin, bind_eq_ok, need_eq_ok, pure_eq_ok] at hdata
  obtain ⟨str', hstr, -, -, -, -, rfl⟩ := hdata
  rwa [← Option.some.inj hstr] at hlength

/-- So the vector of a test can be shown. -/
theorem AesGroup.Bounded.ivLen {group : AesGroup} (h : group.Bounded) (head : AesHead)
    {iv : Option String} {m : Memory} (hiv : decodeMemory iv symIvByteMax = .ok m) :
    2 * aesIvLen head group iv ≤ symCtMax := by
  have hplain : 2 * (group.aead.ivlen / 8) ≤ symCtMax := by
    have hmax := h.ivlen
    simp only [aesGcmIvBitMax, symCtMax] at hmax ⊢
    omega
  cases iv with
  | none => exact hplain
  | some str =>
      unfold aesIvLen
      simp only
      split
      · have hlength := decodeMemory_length hiv (by decide)
        simp only [symIvByteMax, symCtMax] at hlength ⊢
        omega
      · exact hplain

/-- A test case that was read can be shown at the start of a round. -/
theorem aesReady_of_read {groupobj : Option JsonObject}
    (hgroup : readAesGroup head groupobj = .ok group)
    (h : readAesTest head vars group testobj = .ok (tc, vars')) : AesReady group tc := by
  have hbounded := readAesGroup_bounded hgroup
  obtain ⟨fixed, iv, tweak, -, -, -, htc, -⟩ := readAesTest_eq_ok.mp h
  obtain ⟨hiv, -, hivLen⟩ := aesInitTc_reads htc
  have hivlen := hbounded.ivLen head hiv
  rw [← hivLen] at hivlen
  have hpaylen : 2 * (group.paylen / 8) ≤ 32768 := by
    have hmax := hbounded.paylen
    simp only [symPtBitMax] at hmax
    omega
  have hlength (str : String) : 2 * (strnlenS str 32768 / 2) ≤ 32768 := by
    unfold strnlenS
    omega
  simp only [aesInitTc, bind_eq_ok, pure_eq_ok] at htc
  obtain ⟨key, -, pt, -, ct, -, m, -, tag, -, aad, -, salt, -, rfl⟩ := htc
  refine ⟨rfl, ⟨?_, hivlen, ?_, ?_⟩⟩
  · have hkeylen := hbounded.keylen
    simp only [symCtMax]
    omega
  · rw [or_iff_not_imp_right]
    intro hcipher
    simp only [symPtMax] at hcipher ⊢
    split
    · exact hpaylen
    · rw [if_neg hcipher]
      split
      · exact hpaylen
      · exact hlength _
  · rw [or_iff_not_imp_right]
    intro hcipher
    simp only [symCtMax] at hcipher ⊢
    split
    · exact hpaylen
    · rw [if_neg hcipher]
      split
      · exact hpaylen
      · exact hlength _

end Tests

end LibAmvp
