import LibAmvp.Kat.SymIndependence
import LibAmvp.Lib.Reference

/-!
# Failures of the module

When the module fails on a test of a symmetric cipher, the failure is the answer to the test if
the test is to decrypt with an authenticated cipher or a key wrap, and ends the work otherwise.
Whether the handlers go on is decided by one list of ciphers, and what they answer by another.

Main results:

- Theorem {lit}`failures_answered`: which failures the handlers of AES and triple-DES treat in
  this way, and that a run with no others is the run that is meant.
-/

namespace LibAmvp

open Guard

/-! ## What failures mean -/

/-- The authenticated ciphers and the key wraps. -/
def isAuthenticated : Cipher → Bool
  | .aesGcm | .aesGcmSiv | .aesCcm | .aesGmac | .aesXpn | .aesKw | .aesKwp | .tdesKw => true
  | _ => false

/-- A failure on this test is the answer to it. -/
def FailureIsAnswer (tc : SymCipherTc) : Prop :=
  tc.direction ≠ .encrypt ∧ isAuthenticated tc.cipher

instance (tc : SymCipherTc) : Decidable (FailureIsAnswer tc) :=
  inferInstanceAs (Decidable (_ ∧ _))

/-- What is to become of a test on which the module has failed. -/
def answerFailure {κ : Type} (testobj : Option JsonObject) (tc : SymCipherTc) (tables : κ) :
    Except AmvpResult (JsonObject × κ) :=
  if FailureIsAnswer tc then
    .ok (jsonObjectSetBoolean (responseTest testobj) "testPassed" 0, tables)
  else .error .cryptoModuleFail

/-- The module fails on a test that is not a Monte Carlo test. -/
def FailsOn (p : Partner SymCipherTc) (before : List SymCipherTc) (tc : SymCipherTc) : Prop :=
  tc.testType ≠ .mct ∧ (p before tc).1 ≠ 0

instance (p : Partner SymCipherTc) (before : List SymCipherTc) (tc : SymCipherTc) :
    Decidable (FailsOn p before tc) :=
  inferInstanceAs (Decidable (_ ∧ _))

/-- The work on a test, with failures answered as they are meant to be. -/
def answering {κ : Type}
    (play : SymCipherTc → κ → Dialog SymCipherTc AmvpResult (JsonObject × κ))
    (testobj : Option JsonObject) (tc : SymCipherTc) (tables : κ) :
    Dialog SymCipherTc AmvpResult (JsonObject × κ) := fun p before =>
  if FailsOn p before tc then (answerFailure testobj tc tables, [tc]) else play tc tables p before

/-- A player that answers failures as they are meant to be. -/
def answeringPlayer {σ κ γ : Type} (l : KatPlayer σ κ γ SymCipherTc) :
    KatPlayer σ κ γ SymCipherTc :=
  { l with play := fun c testobj => answering (l.play c testobj) testobj }

/-- {lit}`amvp_aes_kat_handler`, with failures answered as they are meant to be. -/
def aesAnsweringHandler (ctx : KatCtx) (tables : AesTables) : KatHandler SymCipherTc :=
  katHandler (aesSetup ctx) (fun head => (answeringPlayer (aesPlayer head)).worker tables)
    (fun head => responseObject ctx.vsId head.algStr)

/-- {lit}`amvp_des_kat_handler`, with failures answered as they are meant to be. -/
def desAnsweringHandler (ctx : KatCtx) (tables : DesTables) : KatHandler SymCipherTc :=
  katHandler (setupByAlgorithm ctx) (fun head => (answeringPlayer (desPlayer head.2)).worker tables)
    (fun head => responseObject ctx.vsId head.1)

/-! ## Which failures are treated so -/

/-- The handler of AES treats a failure as it is meant to: it goes on after the failures that are
answers only, and the answer holds nothing of what the module has left. -/
def AesFailureAnswered (tc stc : SymCipherTc) : Prop :=
  if FailureIsAnswer tc then
    aesGoesOn tc.cipher ∧ stc.direction ≠ .encrypt ∧ aesMayFail stc.cipher ∧
      ¬aesReturnsIv stc ∧ ¬(stc.cipher = .aesXpn ∧ stc.saltSource = .int)
  else ¬aesGoesOn tc.cipher

instance (tc stc : SymCipherTc) : Decidable (AesFailureAnswered tc stc) := by
  unfold AesFailureAnswered
  infer_instance

/-- The handler of triple-DES treats a failure as it is meant to. -/
def DesFailureAnswered (tc : SymCipherTc) : Prop := ¬FailureIsAnswer tc

/-! ## The output of AES -/

/-- Encoding a text fails only when it does not fit. -/
theorem memoryToHexstr_error {src : Memory} {srcLen destMax : Nat} {e : AmvpResult}
    (h : memoryToHexstr src srcLen destMax = .error e) : e = .convertDataErr := by
  unfold memoryToHexstr binToHexstr at h
  rw [need_some, ok_bind] at h
  unfold stopIf at h
  split at h
  · exact (Except.error.inj h).symm
  · cases h

/-- So does setting it. -/
theorem setMemory_error {tcRsp : JsonObject} {name : String} {src : Memory}
    {srcLen destMax : Nat} {e : AmvpResult}
    (h : setMemory tcRsp name src srcLen destMax = .error e) : e = .convertDataErr := by
  rcases bind_eq_error.mp h with h | ⟨_, _, h⟩
  · exact memoryToHexstr_error h
  · cases h

/-- So does the answer to a plain test. -/
theorem aesOutputTc_error {stc : SymCipherTc} {tcRsp : JsonObject} {optRv : Int} {e : AmvpResult}
    (h : aesOutputTc stc tcRsp optRv = .error e) : e = .convertDataErr := by
  rcases bind_eq_error.mp h with h | ⟨tcRsp₁, -, h⟩
  · exact setMemory_error (onlyIf_eq_error.mp h).2
  rcases bind_eq_error.mp h with h | ⟨tcRsp₂, -, h⟩
  · exact setMemory_error (onlyIf_eq_error.mp h).2
  split at h
  · rcases bind_eq_error.mp h with h | ⟨ct, -, h⟩
    · exact memoryToHexstr_error h
    · exact setMemory_error (onlyIf_eq_error.mp h).2
  · unfold aesOutputDecrypted at h
    split at h
    · cases h
    · rcases bind_eq_error.mp h with h | ⟨pt, -, h⟩
      · exact memoryToHexstr_error h
      · cases h

/-- A text that was set is a member of the answer. -/
theorem setMemory_eq_ok {tcRsp rsp : JsonObject} {name : String} {src : Memory}
    {srcLen destMax : Nat} (h : setMemory tcRsp name src srcLen destMax = .ok rsp) :
    ∃ str, rsp = jsonObjectSetValue tcRsp name (.str str) := by
  obtain ⟨str, -, hset⟩ := bind_eq_ok.mp h
  exact ⟨str, (pure_eq_ok.mp hset).symm⟩

/-- A member that may be set, and the others. -/
theorem onlyIf_setMemory {c : Prop} [Decidable c] {tcRsp rsp : JsonObject} {name : String}
    {src : Memory} {srcLen destMax : Nat}
    (h : onlyIf c (setMemory tcRsp name src srcLen destMax) tcRsp = .ok rsp) :
    (c → jsonObjectGetValue (some rsp) name ≠ none) ∧ ∀ name', name' ≠ name →
      jsonObjectGetValue (some rsp) name' = jsonObjectGetValue (some tcRsp) name' := by
  rcases onlyIf_cases h with ⟨-, hset⟩ | ⟨hc, rfl⟩
  · obtain ⟨str, rfl⟩ := setMemory_eq_ok hset
    exact ⟨fun _ => by simp, fun name' hne => jsonObjectGetValue_set_of_ne _ _ hne⟩
  · exact ⟨fun h => absurd h hc, fun _ _ => rfl⟩

/-- An encryption adds its text and its tag only. -/
theorem aesOutputEncrypted_keeps {stc : SymCipherTc} {tcRsp rsp : JsonObject}
    (h : aesOutputEncrypted stc tcRsp = .ok rsp) {name : String} (hct : name ≠ "ct")
    (htag : name ≠ "tag") :
    jsonObjectGetValue (some rsp) name = jsonObjectGetValue (some tcRsp) name := by
  obtain ⟨ct, -, h⟩ := bind_eq_ok.mp h
  rw [(onlyIf_setMemory h).2 name htag]
  split
  · exact jsonObjectGetValue_set_of_ne _ _ hct
  · rfl

/-- A decryption adds its text or its verdict only. -/
theorem aesOutputDecrypted_keeps {stc : SymCipherTc} {tcRsp rsp : JsonObject} {optRv : Int}
    (h : aesOutputDecrypted stc tcRsp optRv = .ok rsp) {name : String} (hpt : name ≠ "pt")
    (hpassed : name ≠ "testPassed" ∨ ¬aesMayFail stc.cipher) :
    jsonObjectGetValue (some rsp) name = jsonObjectGetValue (some tcRsp) name := by
  have hset : ∀ b, aesMayFail stc.cipher →
      jsonObjectGetValue (some (jsonObjectSetBoolean tcRsp "testPassed" b)) name =
        jsonObjectGetValue (some tcRsp) name := fun b hmay =>
    jsonObjectGetValue_set_of_ne _ _ (hpassed.resolve_right (not_not.mpr hmay))
  unfold aesOutputDecrypted at h
  split at h
  next hfailed =>
    obtain rfl := pure_eq_ok.mp h
    exact hset 0 hfailed.1
  next =>
    obtain ⟨pt, -, h⟩ := bind_eq_ok.mp h
    obtain rfl := pure_eq_ok.mp h
    have hpassed : jsonObjectGetValue (some (if aesMayFail stc.cipher then
        jsonObjectSetBoolean tcRsp "testPassed" 1 else tcRsp)) name =
          jsonObjectGetValue (some tcRsp) name := by
      split
      · exact hset 1 ‹_›
      · rfl
    split
    · exact (jsonObjectGetValue_set_of_ne _ _ hpt).trans hpassed
    · exact hpassed

/-- After a failure, the output is that the test has not passed and nothing else, exactly when
the cipher may fail, and no initialization vector and no salt is due. -/
theorem aesOutputTc_failed_iff {stc : SymCipherTc} {testobj : Option JsonObject} {optRv : Int}
    (hcode : optRv ≠ 0) :
    aesOutputTc stc (responseTest testobj) optRv =
        .ok (jsonObjectSetBoolean (responseTest testobj) "testPassed" 0) ↔
      stc.direction ≠ .encrypt ∧ aesMayFail stc.cipher ∧ ¬aesReturnsIv stc ∧
        ¬(stc.cipher = .aesXpn ∧ stc.saltSource = .int) := by
  constructor
  · intro h
    obtain ⟨rsp₁, h₁, h⟩ := bind_eq_ok.mp h
    obtain ⟨rsp₂, h₂, h⟩ := bind_eq_ok.mp h
    obtain ⟨hiv, hkeep₁⟩ := onlyIf_setMemory h₁
    obtain ⟨hsalt, hkeep₂⟩ := onlyIf_setMemory h₂
    have hshown : ∀ name, name ≠ "iv" → name ≠ "salt" →
        jsonObjectGetValue (some rsp₂) name =
          jsonObjectGetValue (some (responseTest testobj)) name := fun name hiv hsalt =>
      (hkeep₂ name hsalt).trans (hkeep₁ name hiv)
    split at h
    · have hpassed := aesOutputEncrypted_keeps h (show "testPassed" ≠ "ct" by decide) (by decide)
      rw [hshown _ (by decide) (by decide), jsonObjectSetBoolean, jsonObjectGetValue_set] at hpassed
      exact absurd hpassed (by simp [jsonObjectGetValue, responseTest])
    next hdir =>
      have hmay : aesMayFail stc.cipher := by
        by_contra hnot
        have hpassed := aesOutputDecrypted_keeps h (show "testPassed" ≠ "pt" by decide) (.inr hnot)
        rw [hshown _ (by decide) (by decide), jsonObjectSetBoolean, jsonObjectGetValue_set]
          at hpassed
        exact absurd hpassed (by simp [jsonObjectGetValue, responseTest])
      have habsent : ∀ name, name ≠ "testPassed" → name ≠ "tcId" → name ≠ "pt" →
          jsonObjectGetValue (some rsp₂) name = none := by
        intro name hpassed htcId hpt
        rw [← aesOutputDecrypted_keeps h hpt (.inl hpassed), jsonObjectSetBoolean,
          jsonObjectGetValue_set_of_ne _ _ hpassed]
        simp [jsonObjectGetValue, responseTest, htcId.symm]
      refine ⟨hdir, hmay, fun hdue => hiv hdue ?_, fun hdue => hsalt hdue ?_⟩
      · rw [← hkeep₂ "iv" (by decide)]
        exact habsent "iv" (by decide) (by decide) (by decide)
      · exact habsent "salt" (by decide) (by decide) (by decide)
  · rintro ⟨hdir, hmay, hiv, hsalt⟩
    rw [aesOutputTc, onlyIf_neg hiv, ok_bind, onlyIf_neg hsalt, ok_bind, if_neg hdir,
      aesOutputDecrypted, if_pos ⟨hmay, hcode⟩]
    rfl

/-! ## Single tests -/

/-- A test on which the module fails, up to its output. -/
theorem aesPlay_failed {algId : Cipher} {testobj : Option JsonObject} {tc : SymCipherTc}
    {tables : AesTables} {p : Partner SymCipherTc} {before : List SymCipherTc}
    (hfails : FailsOn p before tc) :
    aesPlay algId testobj tc tables p before =
      (if aesGoesOn algId then
        (aesOutputTc (p before tc).2 (responseTest testobj) (p before tc).1).map (·, tables)
      else .error .cryptoModuleFail, [tc]) := by
  rw [aesPlay, Dialog.ite_apply, if_neg hfails.1, Dialog.bind_apply, Dialog.andThen, Dialog.ask]
  dsimp only
  rw [Dialog.ite_apply]
  by_cases hgoes : aesGoesOn algId
  · rw [if_neg fun h => h.2 hgoes, if_pos hgoes, Dialog.bind_apply, Dialog.andThen]
    cases aesOutputTc (p before tc).2 (responseTest testobj) (p before tc).1 <;> rfl
  · rw [if_pos ⟨hfails.2, hgoes⟩, if_neg hgoes]
    rfl

/-- On a failure the handler that answers failures asks once and answers it. -/
theorem answering_failed {κ : Type}
    {play : SymCipherTc → κ → Dialog SymCipherTc AmvpResult (JsonObject × κ)}
    {testobj : Option JsonObject} {tc : SymCipherTc} {tables : κ} {p : Partner SymCipherTc}
    {before : List SymCipherTc} (hfails : FailsOn p before tc) :
    answering play testobj tc tables p before = (answerFailure testobj tc tables, [tc]) :=
  if_pos hfails

/-- Exactly the failures that the handler of AES treats as they are meant to be. -/
theorem aesPlay_answers_iff {testobj : Option JsonObject} {tc : SymCipherTc} {tables : AesTables}
    {p : Partner SymCipherTc} {before : List SymCipherTc} (hfails : FailsOn p before tc) :
    aesPlay tc.cipher testobj tc tables p before =
        answering (aesPlay tc.cipher testobj) testobj tc tables p before ↔
      AesFailureAnswered tc (p before tc).2 := by
  rw [aesPlay_failed hfails, answering_failed hfails, Prod.mk.injEq, and_iff_left rfl,
    answerFailure, AesFailureAnswered]
  by_cases hanswer : FailureIsAnswer tc
  · rw [if_pos hanswer, if_pos hanswer, ← aesOutputTc_failed_iff hfails.2 ]
    by_cases hgoes : aesGoesOn tc.cipher
    · rw [if_pos hgoes, and_iff_right hgoes, map_eq_ok]
      constructor
      · rintro ⟨rsp, hrsp, hpair⟩
        rwa [← (Prod.mk.inj hpair).1]
      · exact fun h => ⟨_, h, rfl⟩
    · rw [if_neg hgoes]
      exact iff_of_false nofun fun h => hgoes h.1
  · rw [if_neg hanswer, if_neg hanswer]
    by_cases hgoes : aesGoesOn tc.cipher
    · rw [if_pos hgoes]
      refine iff_of_false (fun h => ?_) fun h => h hgoes
      cases hout : aesOutputTc (p before tc).2 (responseTest testobj) (p before tc).1 with
      | ok rsp => rw [hout] at h; cases h
      | error e =>
        obtain rfl := aesOutputTc_error hout
        rw [hout] at h
        cases h
    · rw [if_neg hgoes]
      exact iff_of_true rfl hgoes

/-- On a failure the DES handler asks once and ends with an error. -/
theorem desPlay_failed {testobj : Option JsonObject} {tc : SymCipherTc} {tables : DesTables}
    {p : Partner SymCipherTc} {before : List SymCipherTc} (hfails : FailsOn p before tc) :
    desPlay testobj tc tables p before = (.error .cryptoModuleFail, [tc]) := by
  rw [desPlay, Dialog.ite_apply, if_neg hfails.1, Dialog.bind_apply, Dialog.andThen, Dialog.ask]
  dsimp only
  rw [if_pos hfails.2]
  rfl

/-- Exactly the failures that the handler of triple-DES treats as they are meant to be. -/
theorem desPlay_answers_iff {testobj : Option JsonObject} {tc : SymCipherTc} {tables : DesTables}
    {p : Partner SymCipherTc} {before : List SymCipherTc} (hfails : FailsOn p before tc) :
    desPlay testobj tc tables p before = answering (desPlay testobj) testobj tc tables p before ↔
      DesFailureAnswered tc := by
  rw [desPlay_failed hfails, answering_failed hfails, Prod.mk.injEq, and_iff_left rfl,
    answerFailure, DesFailureAnswered]
  by_cases hanswer : FailureIsAnswer tc
  · rw [if_pos hanswer]
    exact iff_of_false nofun (not_not.mpr hanswer)
  · rw [if_neg hanswer]
    exact iff_of_true rfl hanswer

/-! ## Whole runs -/

/-- The property that every call of a run on which the module fails has, with the reply. -/
def FailuresAre (cond : SymCipherTc → SymCipherTc → Prop) (p : Partner SymCipherTc)
    (before : List SymCipherTc) (tc : SymCipherTc) : Prop :=
  FailsOn p before tc → cond tc (p before tc).2

/-- A player whose failures are all treated as they are meant to be does the meant work. -/
theorem follows_answering {σ κ γ : Type} {l : KatPlayer σ κ γ SymCipherTc}
    {cond : SymCipherTc → SymCipherTc → Prop} {p : Partner SymCipherTc}
    (hplay : ∀ s c t tc s' k before, l.load s c t = .ok (tc, s') → FailsOn p before tc →
      cond tc (p before tc).2 → l.play c t tc k p before =
        answering (l.play c t) t tc k p before) (k : κ) :
    (l.worker k).Follows ((answeringPlayer l).worker k) p (FailuresAre cond p) := by
  rintro ⟨s, k⟩ c t before hreplies
  have hload : (answeringPlayer l).load = l.load := rfl
  have hanswering : (answeringPlayer l).play = fun c t => answering (l.play c t) t := rfl
  simp only [Player.worker, Dialog.bind_apply, Dialog.andThen, Dialog.ofExcept, hload,
    hanswering] at hreplies ⊢
  rcases hread : l.load s c t with e | ⟨tc, s'⟩
  · rfl
  · simp only [hread, List.append_nil, List.nil_append] at hreplies ⊢
    have hsame : l.play c t tc k p before = answering (l.play c t) t tc k p before := by
      by_cases hfails : FailsOn p before tc
      · rw [answering_failed hfails] at hreplies
        have hcall : Replies (FailuresAre cond p) before [tc] := by
          rcases hanswer : answerFailure t tc k with _ | _ <;> rw [hanswer] at hreplies <;>
            exact hreplies
        exact hplay s c t tc s' k before hread hfails (replies_singleton hcall hfails)
      · exact (if_neg hfails).symm
    rw [hsame]

/-- A test that is read has the cipher of the handler. -/
theorem readAesTest_cipher {head : AesHead} {vars vars' : AesVars} {group : AesGroup}
    {testobj : Option JsonObject} {tc : SymCipherTc}
    (h : readAesTest head vars group testobj = .ok (tc, vars')) : tc.cipher = head.algId := by
  obtain ⟨fixed, iv, tweak, -, -, -, htc, -⟩ := readAesTest_eq_ok.mp h
  simp only [aesInitTc, bind_eq_ok, pure_eq_ok] at htc
  obtain ⟨key, -, pt, -, ct, -, iv, -, tag, -, aad, -, salt, -, rfl⟩ := htc
  rfl

/-- Two handlers that read alike do the same when the work of their players is the same. -/
theorem katHandler_congr {η σ κ γ : Type} {setup : JsonObject → Except AmvpResult η}
    {l l' : η → KatPlayer σ κ γ SymCipherTc} {k : κ}
    {response : η → List JsonObject → JsonObject} {obj : JsonObject} {p : Partner SymCipherTc}
    {P : List SymCipherTc → SymCipherTc → Prop}
    (hstart : ∀ head, (l head).start = (l' head).start)
    (henter : ∀ head, (l head).enter = (l' head).enter)
    (hclose : ∀ head, (l head).close = (l' head).close)
    (hwork : ∀ head, ((l head).worker k).Follows ((l' head).worker k) p P)
    (hreplies : Replies P []
      ((katHandler setup (fun head => (l' head).worker k) response none obj p).calls.map
        Prod.snd)) :
    katHandler setup (fun head => (l head).worker k) response none obj p =
      katHandler setup (fun head => (l' head).worker k) response none obj p := by
  unfold katHandler at hreplies ⊢
  cases hsetup : setup (withoutMember obj "testGroups") with
  | error e => rfl
  | ok head =>
    rw [hsetup] at hreplies
    obtain ⟨hresult, hasked⟩ := Worker.run_eq_of_replies
      (show ((l head).worker k).start = ((l' head).worker k).start by
        simp only [Player.worker, hstart])
      (show ((l head).worker k).enter = ((l' head).worker k).enter by
        simp only [Player.worker, henter])
      (hclose head) (hwork head) hreplies
    simp only [hresult, hasked]

/-- The failures in the run of a handler. -/
def KatRun.FailuresAre (run : KatRun SymCipherTc) (p : Partner SymCipherTc)
    (cond : SymCipherTc → SymCipherTc → Prop) : Prop :=
  Replies (LibAmvp.FailuresAre cond p) [] (run.calls.map Prod.snd)

/-- Where every failure is treated as meant, the AES handler is the one that answers failures. -/
theorem aesKatHandler_answers {ctx : KatCtx} {tables : AesTables} {obj : JsonObject}
    {p : Partner SymCipherTc}
    (h : (aesAnsweringHandler ctx tables obj p).FailuresAre p AesFailureAnswered) :
    aesKatHandler ctx tables obj p = aesAnsweringHandler ctx tables obj p := by
  refine katHandler_congr (fun _ => rfl) (fun _ => rfl) (fun _ => rfl) (fun head => ?_) h
  refine follows_answering (fun s c t tc s' k before hload hfails hcond => ?_) tables
  have hplay : (aesPlayer head).play c = aesPlay tc.cipher := by
    rw [readAesTest_cipher hload]
    rfl
  rw [hplay]
  exact (aesPlay_answers_iff hfails).mpr hcond

/-- So is the DES handler. -/
theorem desKatHandler_answers {ctx : KatCtx} {tables : DesTables} {obj : JsonObject}
    {p : Partner SymCipherTc}
    (h : (desAnsweringHandler ctx tables obj p).FailuresAre p fun tc _ => DesFailureAnswered tc) :
    desKatHandler ctx tables obj p = desAnsweringHandler ctx tables obj p := by
  refine katHandler_congr (fun _ => rfl) (fun _ => rfl) (fun _ => rfl) (fun head => ?_) h
  exact follows_answering (fun s c t tc s' k before _ hfails hcond =>
    (desPlay_answers_iff hfails).mpr hcond) tables

/-- A test on which the module fails is treated as it is meant to be exactly when the failure is
one of those that the handler treats so, and a run with no other failures is the run that is
meant: the same response or error and the same calls of the module. -/
theorem failures_answered (ctx : KatCtx) (obj : JsonObject) (p : Partner SymCipherTc) :
    (∀ tables, (aesAnsweringHandler ctx tables obj p).FailuresAre p AesFailureAnswered →
      aesKatHandler ctx tables obj p = aesAnsweringHandler ctx tables obj p) ∧
    (∀ tables, (desAnsweringHandler ctx tables obj p).FailuresAre p
        (fun tc _ => DesFailureAnswered tc) →
      desKatHandler ctx tables obj p = desAnsweringHandler ctx tables obj p) ∧
    (∀ testobj tc tables before, FailsOn p before tc →
      (aesPlay tc.cipher testobj tc tables p before =
          answering (aesPlay tc.cipher testobj) testobj tc tables p before ↔
        AesFailureAnswered tc (p before tc).2)) ∧
    ∀ testobj tc tables before, FailsOn p before tc →
      (desPlay testobj tc tables p before =
          answering (desPlay testobj) testobj tc tables p before ↔ DesFailureAnswered tc) :=
  ⟨fun _ => aesKatHandler_answers, fun _ => desKatHandler_answers,
    fun _ _ _ _ => aesPlay_answers_iff, fun _ _ _ _ => desPlay_answers_iff⟩

/-- A module that always fails. -/
def failingModule : Partner SymCipherTc := .memoryless fun tc => (1, tc)

/-- A group of AES-GCM with one test to decrypt. -/
def gcmDecryption : Json :=
  .obj [("tgId", .num 1), ("testType", .str "AFT"), ("direction", .str "decrypt"),
    ("keyLen", .num 128), ("ivLen", .num 96), ("ivGen", .str "external"), ("payloadLen", .num 8),
    ("aadLen", .num 0), ("tagLen", .num 128),
    ("tests", .arr [.obj [("tcId", .num 1), ("key", .str "00112233445566778899AABBCCDDEEFF"),
      ("ct", .str "A5"), ("aad", .str ""), ("iv", .str "000102030405060708090A0B"),
      ("tag", .str "00112233445566778899AABBCCDDEEFF")]])]

/-- A vector set of AES-GCM. -/
def gcmSet (group : Json) : JsonObject := withGroups [("algorithm", .str "AMVP-AES-GCM")] [group]

/-- The statement at a decryption with a tag that does not verify. -/
theorem failures_answered_gcm_decryption :
    aesKatHandler (.registered .sym .aesGcm) {} (gcmSet gcmDecryption) failingModule =
      aesAnsweringHandler (.registered .sym .aesGcm) {} (gcmSet gcmDecryption) failingModule := by
  have hcalls : ∀ tc ∈ (aesAnsweringHandler (.registered .sym .aesGcm) {} (gcmSet gcmDecryption)
      failingModule).calls.map Prod.snd, AesFailureAnswered tc tc := by
    decide +kernel
  exact (failures_answered _ _ _).1 {} (replies_of_forall fun tc htc _ _ => hcalls tc htc)

/-- The cipher text of a failed encryption is sent to the server. -/
theorem gcm_failed_encryption_answered :
    (aesAnsweringHandler (.registered .sym .aesGcm) {} (gcmSet gcmExternal)
        failingModule).result.isOk = false ∧
      (aesKatHandler (.registered .sym .aesGcm) {} (gcmSet gcmExternal) failingModule).groups.map
        (List.map fun group => (objectsOf group "tests").map fun test =>
          jsonObjectGetString test "ct") = some [[some "00"]] := by
  decide +kernel

end LibAmvp
