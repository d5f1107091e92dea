import LibAmvp.Kat.VectorSet

/-!
# RSA primitives

The handlers of the decryption and the signature primitive.  For the decryption primitive a
test holds a list of cipher texts, and the module is called for each of them until it has
counted it as passed or failed.  The signature primitive keeps the key components and the
format of the key in variables of the function.

Main results:

- Theorem {lit}`sigprim_independentIff`: the test case of a signature test is its own exactly
  when no component of another format and no format were left behind.
-/

namespace LibAmvp

open Guard

def rsaExpLenMax : Nat := 1024
def rsaExpByteMax : Nat := 512
def rsaMsglenMax : Nat := 1024

/-- {lit}`AMVP_RSA_PRIM_KEYFORMAT`. -/
inductive RsaPrimKeyformat where
  | standard | crt
deriving DecidableEq

/-- {lit}`AMVP_RSA_PRIM_TC`. -/
structure RsaPrimTc where
  cipher : Bytes := {}
  msg : Bytes := {}
  signature : Bytes := {}
  plaintext : Option Buffer := none
  deferred : Int := 0
  modulo : Int := 0
  fail : Nat := 0
  pass : Nat := 0
  keyFormat : Option RsaPrimKeyformat := none
  n : Bytes := {}
  e : Bytes := {}
  d : Bytes := {}
  p : Bytes := {}
  q : Bytes := {}
  dmp1 : Bytes := {}
  dmq1 : Bytes := {}
  iqmp : Bytes := {}
  pt : Bytes := {}
  disposition : Int := 0
deriving DecidableEq

/-- The head of the two handlers. -/
def setupRsaPrim (ctx : KatCtx) (cipher : Cipher) (missingMode : AmvpResult) (obj : JsonObject) :
    Except AmvpResult (String × String) := do
  let algStr ← need (jsonObjectGetString (some obj) "algorithm") .malformedJson
  let modeStr ← need (jsonObjectGetString (some obj) "mode") missingMode
  stopIf (lookupCipherWModeIndex algStr (some modeStr) ≠ some cipher) .invalidArg
  let _ ← need (ctx.caps.locate cipher) .unsupportedOp
  pure (algStr, modeStr)

/-! ## Decryption primitive -/

/-- {lit}`amvp_rsa_decprim_init_tc`. -/
def decprimInitTc (modulo deferred : Int) (pass fail : Nat) (cipher : String) :
    Except AmvpResult RsaPrimTc := do
  let cipherBytes ← decodeBytes (some cipher) rsaExpByteMax
  pure {
    modulo := modulo
    deferred := deferred
    pass := pass
    fail := fail
    cipher := cipherBytes
    plaintext := some ⟨rsaExpByteMax, []⟩
    e := .fresh rsaExpByteMax
    n := .fresh rsaExpByteMax
    pt := .fresh rsaExpByteMax }

/-- {lit}`amvp_rsa_decprim_output_tc`. -/
def decprimOutputTc (stc : RsaPrimTc) (tcRsp : JsonObject) : Except AmvpResult JsonObject := do
  let tcRsp ← setHexstr tcRsp "e" stc.e.data stc.e.len rsaExpLenMax
  let tcRsp ← setHexstr tcRsp "n" stc.n.data stc.n.len rsaExpLenMax
  let tcRsp := jsonObjectSetBoolean tcRsp "testPassed" stc.disposition
  onlyIf (stc.disposition ≠ 0)
    (setHexstr tcRsp "plainText" stc.pt.data stc.pt.len rsaExpLenMax) tcRsp

/-- How many tests of a group are still to fail and to pass. -/
structure DecprimVars where
  fail : Nat := 0
  pass : Nat := 0

/-- The questions of the decryption primitive.  No error: the loop is still running. -/
abbrev DecprimDialog (α : Type) := Dialog RsaPrimTc (Option AmvpResult) α

/-- Yield what a computation without questions yields. -/
def DecprimDialog.ofExcept {α : Type} (x : Except AmvpResult α) : DecprimDialog α :=
  Dialog.ofExcept (x.mapError some)

/-- The inner loop of {lit}`amvp_rsa_decprim_kat_handler`: the module is called until it has
changed one of the counters. -/
def decprimCall (vars : DecprimVars) : Nat → RsaPrimTc → DecprimDialog RsaPrimTc
  | 0, _ => Dialog.fail none
  | fuel + 1, tc => do
    let (code, tc') ← Dialog.ask tc
    if code ≠ 0 then Dialog.fail (some .cryptoModuleFail)
    else if vars.fail = tc'.fail ∧ vars.pass = tc'.pass then decprimCall vars fuel tc'
    else pure tc'

/-- The part of {lit}`amvp_rsa_decprim_kat_handler` that works on a cipher text.  When it
cannot be decoded, the buffers for the answer are missing. -/
def decprimCipher (fuel : Nat) (deferred : Int) (vars : DecprimVars)
    (ciphobj : Option JsonObject) : DecprimDialog (JsonObject × DecprimVars) := do
  let cipher ← DecprimDialog.ofExcept (readString ciphobj "cipherText" rsaExpByteMax)
  match decprimInitTc 2048 deferred vars.pass vars.fail cipher with
  | .ok tc =>
    let tc ← decprimCall vars fuel tc
    let rsp ← DecprimDialog.ofExcept (decprimOutputTc tc [])
    pure (rsp, ⟨tc.fail, tc.pass⟩)
  | .error _ =>
    let rsp ← DecprimDialog.ofExcept (decprimOutputTc {} [])
    pure (rsp, vars)

/-- The loop of {lit}`amvp_rsa_decprim_kat_handler` over the cipher texts of a test. -/
def decprimCiphers (fuel : Nat) (deferred : Int) :
    DecprimVars → List Json → DecprimDialog (List JsonObject × DecprimVars)
  | vars, [] => pure ([], vars)
  | vars, ciphval :: ciphers => do
    let (rsp, vars) ← decprimCipher fuel deferred vars (jsonValueGetObject (some ciphval))
    let (rsps, vars) ← decprimCiphers fuel deferred vars ciphers
    pure (rsp :: rsps, vars)

/-- The part of {lit}`amvp_rsa_decprim_kat_handler` that reads a group. -/
def readDecprimGroup (groupobj : Option JsonObject) : Except AmvpResult (Int × DecprimVars) := do
  let tgId ← readTgId groupobj .malformedJson
  stopIf (toUnsigned (jsonObjectGetNumber groupobj "modulo") ≠ 2048) .invalidArg
  let total := toUnsigned (jsonObjectGetNumber groupobj "totalTestCases")
  stopIf (total = 0) .invalidArg
  let fail := toUnsigned (jsonObjectGetNumber groupobj "totalFailingCases")
  stopIf (fail = 0) .invalidArg
  pure (tgId, ⟨fail, unsignedOfInt (total - fail)⟩)

/-- The part of {lit}`amvp_rsa_decprim_kat_handler` that works on a test. -/
def decprimTest (fuel : Nat) (vars : DecprimVars) (testobj : Option JsonObject) :
    DecprimDialog (JsonObject × DecprimVars) := do
  let deferred := jsonObjectGetBoolean testobj "deferred"
  DecprimDialog.ofExcept (stopIf (deferred = -1) .missingArg)
  let ciphers := jsonArrayElems (jsonObjectGetArray testobj "resultsArray")
  let (rsps, vars) ← decprimCiphers fuel deferred vars ciphers
  pure (responseTest testobj ++ [("resultsArray", .arr (rsps.map .obj))], vars)

/-- The loops of {lit}`amvp_rsa_decprim_kat_handler`, with a bound on the calls of the module
for one cipher text. -/
def decprimWorker (fuel : Nat) : Worker DecprimVars (Option JsonObject) (Option JsonObject) Int
    RsaPrimTc (Option AmvpResult) JsonObject JsonObject where
  start := {}
  enter _ groupobj _ := (readDecprimGroup groupobj).mapError some
  work vars _ testobj := decprimTest fuel vars testobj
  close tgId tests := responseGroup "tgId" tgId tests

/-- {lit}`amvp_rsa_decprim_kat_handler`, with a bound on the calls of the module for one
cipher text.  No error: it has not returned within that bound. -/
def rsaDecprimKatHandler (ctx : KatCtx) (fuel : Nat) (obj : JsonObject)
    (module : Partner RsaPrimTc) : Except (Option AmvpResult) JsonObject :=
  match setupRsaPrim ctx .rsaDecprim .malformedJson (withoutMember obj "testGroups") with
  | .error e => .error (some e)
  | .ok head => ((decprimWorker fuel).result module (testGroups obj)).map (responseWithMode ctx head)

/-! ## Signature primitive -/

/-- The components of a key in the format of the Chinese remainder theorem. -/
structure SigprimCrt where
  p : String
  q : String
  dmp1 : String
  dmq1 : String
  iqmp : String

/-- The variables of {lit}`amvp_rsa_sigprim_kat_handler` that keep their values. -/
structure SigprimVars where
  keyformat : Option RsaPrimKeyformat := none
  d : Option String := none
  crt : Option SigprimCrt := none

/-- {lit}`amvp_rsa_sigprim_init_tc`. -/
def sigprimInitTc (vars : SigprimVars) (e n msg : String) : Except AmvpResult RsaPrimTc := do
  let eBytes ← decodeBytes (some e) rsaExpByteMax
  let dBytes ← decodeOptional vars.d rsaExpByteMax
  let nBytes ← decodeBytes (some n) rsaExpByteMax
  let pBytes ← decodeOptional (vars.crt.map SigprimCrt.p) rsaExpByteMax
  let qBytes ← decodeOptional (vars.crt.map SigprimCrt.q) rsaExpByteMax
  let dmp1Bytes ← decodeOptional (vars.crt.map SigprimCrt.dmp1) rsaExpByteMax
  let dmq1Bytes ← decodeOptional (vars.crt.map SigprimCrt.dmq1) rsaExpByteMax
  let iqmpBytes ← decodeOptional (vars.crt.map SigprimCrt.iqmp) rsaExpByteMax
  let msgBytes ← decodeBytes (some msg) rsaExpByteMax
  pure {
    e := eBytes
    d := dBytes
    n := nBytes
    p := pBytes
    q := qBytes
    dmp1 := dmp1Bytes
    dmq1 := dmq1Bytes
    iqmp := iqmpBytes
    msg := msgBytes
    modulo := 2048
    keyFormat := vars.keyformat
    signature := .fresh rsaExpByteMax }

/-- {lit}`amvp_rsa_sigprim_output_tc`. -/
def sigprimOutputTc (stc : RsaPrimTc) (tcRsp : JsonObject) : Except AmvpResult JsonObject := do
  let tcRsp ← onlyIf (stc.disposition ≠ 0)
    (setHexstr tcRsp "signature" stc.signature.data stc.signature.len rsaExpLenMax) tcRsp
  pure (jsonObjectSetBoolean tcRsp "testPassed" stc.disposition)

/-- The comparisons of {lit}`keyFormat` with the two names. -/
def readKeyFormat (str : String) : Option RsaPrimKeyformat :=
  if str = "standard" then some .standard else if str = "crt" then some .crt else none

/-- The part of {lit}`amvp_rsa_sigprim_kat_handler` that reads a group.  A format that is not
understood leaves the one before in place. -/
def readSigprimGroup (vars : SigprimVars) (groupobj : Option JsonObject) :
    Except AmvpResult (Int × SigprimVars) := do
  let tgId ← readTgId groupobj .malformedJson
  stopIf (toUnsigned (jsonObjectGetNumber groupobj "modulo") ≠ 2048) .invalidArg
  let keyFormat ← need (jsonObjectGetString groupobj "keyFormat") .missingArg
  pure (tgId, { vars with keyformat := (readKeyFormat keyFormat).or vars.keyformat })

/-- The key components of a test in the format of the Chinese remainder theorem. -/
def readSigprimCrt (testobj : Option JsonObject) : Except AmvpResult SigprimCrt := do
  let p ← need (jsonObjectGetString testobj "p") .missingArg
  let q ← need (jsonObjectGetString testobj "q") .missingArg
  let dmp1 ← need (jsonObjectGetString testobj "dmp1") .missingArg
  let dmq1 ← need (jsonObjectGetString testobj "dmq1") .missingArg
  let iqmp ← need (jsonObjectGetString testobj "iqmp") .missingArg
  stopIf (∃ str ∈ [p, q, dmp1, dmq1, iqmp], strnlenS str (rsaExpLenMax + 1) > rsaExpLenMax)
    .invalidArg
  pure ⟨p, q, dmp1, dmq1, iqmp⟩

/-- The part of {lit}`amvp_rsa_sigprim_kat_handler` that reads the key components of a test.
The check of the length of {lit}`d` has no consequence. -/
def readSigprimKey (vars : SigprimVars) (testobj : Option JsonObject) :
    Except AmvpResult SigprimVars :=
  if vars.keyformat = some .crt then
    (readSigprimCrt testobj).map fun crt => { vars with crt := some crt }
  else
    (need (jsonObjectGetString testobj "d") .missingArg).map fun d => { vars with d := some d }

/-- The test case of a test.  One that cannot be decoded is not sent: the answer is made of
the structure as it was left, without a disposition. -/
def sigprimDraft (vars : SigprimVars) (e n msg : String) : Draft RsaPrimTc :=
  match sigprimInitTc vars e n msg with
  | .ok tc => { question := tc }
  | .error _ => { question := {}, sent := false }

/-- The part of {lit}`amvp_rsa_sigprim_kat_handler` that reads a test. -/
def readSigprimTest (vars : SigprimVars) (testobj : Option JsonObject) :
    Except AmvpResult (Draft RsaPrimTc × SigprimVars) := do
  stopIf (readTcId testobj = 0) .malformedJson
  let e ← need (jsonObjectGetString testobj "e") .missingArg
  let n ← need (jsonObjectGetString testobj "n") .missingArg
  stopIf (strnlenS e (rsaExpLenMax + 1) > rsaExpLenMax ∨
    strnlenS n (rsaExpLenMax + 1) > rsaExpLenMax) .invalidArg
  let vars ← readSigprimKey vars testobj
  let msg ← readString testobj "message" rsaMsglenMax
  pure (sigprimDraft vars e n msg, vars)

/-- The loops of {lit}`amvp_rsa_sigprim_kat_handler`. -/
def sigprimLoader : KatLoader SigprimVars Int RsaPrimTc where
  start := {}
  enter vars groupobj _ := readSigprimGroup vars groupobj
  load vars _ testobj := readSigprimTest vars testobj
  finish _ testobj tc := sigprimOutputTc tc (responseTest testobj)
  close tgId tests := responseGroup "tgId" tgId tests
  refused := .cryptoModuleFail

/-- {lit}`amvp_rsa_sigprim_kat_handler`. -/
def rsaSigprimKatHandler (ctx : KatCtx) : KatHandler RsaPrimTc :=
  katHandler (setupRsaPrim ctx .rsaSigprim .missingArg) (fun _ => sigprimLoader.worker)
    (responseWithMode ctx)

/-! ## Independence of the signature tests -/

/-- The format of the key that a group names. -/
def sigprimFormatOf (groupobj : Option JsonObject) : Option RsaPrimKeyformat :=
  (jsonObjectGetString groupobj "keyFormat").bind readKeyFormat

/-- The last format that was understood. -/
def sigprimFormat (groups : List TestGroup) : Option RsaPrimKeyformat :=
  groups.foldl (fun format b => (sigprimFormatOf b.head).or format) none

/-- Some test was read with, or without, the format of the Chinese remainder theorem. -/
def hasSigprimTest (crt : Bool) (groups : List TestGroup) : Prop :=
  ∃ bs b, bs ++ [b] <+: groups ∧ b.items ≠ [] ∧
    decide (sigprimFormat (bs ++ [b]) = some .crt) = crt

/-- The group names a format that is understood, or no group before does; and no test before
has left key components of the other kind. -/
def SigprimOwnKey (groups : List TestGroup) (i _j : Nat) : Prop :=
  let format := sigprimFormatOf (groupAt groups i)
  (format ≠ none ∨ sigprimFormat (groups.take i) = none) ∧
    ¬hasSigprimTest (!decide (format = some .crt)) (groups.take i)

theorem sigprimFormat_concat (bs : List TestGroup) (b : TestGroup) :
    sigprimFormat (bs ++ [b]) = (sigprimFormatOf b.head).or (sigprimFormat bs) := by
  simp [sigprimFormat, List.foldl_append]

theorem hasSigprimTest_concat (crt : Bool) (bs : List TestGroup) (b : TestGroup) :
    hasSigprimTest crt (bs ++ [b]) ↔ hasSigprimTest crt bs ∨
      b.items ≠ [] ∧ decide (sigprimFormat (bs ++ [b]) = some .crt) = crt := by
  unfold hasSigprimTest
  constructor
  · rintro ⟨bs', b', hprefix, hb'⟩
    rcases List.prefix_concat_iff.mp hprefix with heq | hprefix
    · obtain ⟨rfl, hlast⟩ := List.append_inj' heq rfl
      obtain rfl := List.singleton_inj.mp hlast
      exact .inr hb'
    · exact .inl ⟨bs', b', hprefix, hb'⟩
  · rintro (⟨bs', b', hprefix, hb'⟩ | hb)
    · exact ⟨bs', b', hprefix.trans (List.prefix_append bs [b]), hb'⟩
    · exact ⟨bs, b, List.prefix_rfl, hb⟩

/-- The format and the kinds of components show in the test case. -/
theorem sigprimInitTc_ok {vars : SigprimVars} {e n msg : String} {tc : RsaPrimTc}
    (h : sigprimInitTc vars e n msg = .ok tc) :
    tc.keyFormat = vars.keyformat ∧ tc.d.data.isSome = vars.d.isSome ∧
      tc.p.data.isSome = vars.crt.isSome := by
  simp only [sigprimInitTc, bind_eq_ok, pure_eq_ok] at h
  obtain ⟨_, -, d, hd, _, -, p, hp, _, -, _, -, _, -, _, -, _, -, rfl⟩ := h
  refine ⟨rfl, decodeOptional_isSome hd, ?_⟩
  rw [decodeOptional_isSome hp, Option.isSome_map]

theorem sigprimDraft_sent {vars : SigprimVars} {e n msg : String} {tc : RsaPrimTc} :
    sigprimDraft vars e n msg = ⟨tc, true⟩ ↔ sigprimInitTc vars e n msg = .ok tc := by
  unfold sigprimDraft
  split <;> simp [*]

theorem readSigprimGroup_ok {vars vars' : SigprimVars} {groupobj : Option JsonObject} {tgId : Int}
    (h : readSigprimGroup vars groupobj = .ok (tgId, vars')) :
    vars' = { vars with keyformat := (sigprimFormatOf groupobj).or vars.keyformat } := by
  simp only [readSigprimGroup, bind_eq_ok, need_eq_ok, stopIf_eq_ok, exists_const, pure_eq_ok,
    Prod.mk.injEq] at h
  obtain ⟨_, -, -, keyFormat, hformat, -, rfl⟩ := h
  simp [sigprimFormatOf, hformat]

theorem readSigprimGroup_fresh {vars vars' : SigprimVars} {groupobj : Option JsonObject}
    {tgId : Int} (h : readSigprimGroup vars groupobj = .ok (tgId, vars')) :
    readSigprimGroup {} groupobj = .ok (tgId, { keyformat := sigprimFormatOf groupobj }) := by
  simp only [readSigprimGroup, bind_eq_ok, need_eq_ok, stopIf_eq_ok, exists_const, pure_eq_ok,
    Prod.mk.injEq] at h ⊢
  obtain ⟨tgId', htgId, hmodulo, keyFormat, hformat, rfl, -⟩ := h
  exact ⟨tgId', htgId, hmodulo, keyFormat, hformat, rfl, by simp [sigprimFormatOf, hformat]⟩

/-- The kind of components that the format does not ask for is kept. -/
theorem readSigprimKey_ok {vars vars' : SigprimVars} {testobj : Option JsonObject}
    (h : readSigprimKey vars testobj = .ok vars') :
    vars'.keyformat = vars.keyformat ∧
      (vars.keyformat = some .crt → vars'.d = vars.d ∧ vars'.crt.isSome) ∧
      (vars.keyformat ≠ some .crt → vars'.crt = vars.crt ∧ vars'.d.isSome) := by
  unfold readSigprimKey at h
  split at h
  case isTrue hformat =>
    rw [map_eq_ok] at h
    obtain ⟨crt, -, rfl⟩ := h
    exact ⟨rfl, fun _ => ⟨rfl, rfl⟩, fun hne => absurd hformat hne⟩
  case isFalse hformat =>
    rw [map_eq_ok] at h
    obtain ⟨d, -, rfl⟩ := h
    exact ⟨rfl, fun heq => absurd heq hformat, fun _ => ⟨rfl, rfl⟩⟩

/-- What the test reads itself does not depend on what was left behind. -/
theorem readSigprimKey_fresh {vars vars' : SigprimVars} {testobj : Option JsonObject}
    (h : readSigprimKey vars testobj = .ok vars') :
    readSigprimKey { keyformat := vars.keyformat } testobj = .ok
      { keyformat := vars.keyformat
        d := if vars.keyformat = some .crt then none else vars'.d
        crt := if vars.keyformat = some .crt then vars'.crt else none } := by
  unfold readSigprimKey at h ⊢
  split at h
  case isTrue hformat =>
    rw [map_eq_ok] at h
    obtain ⟨crt, hcrt, rfl⟩ := h
    simp [hformat, hcrt, Except.map]
  case isFalse hformat =>
    rw [map_eq_ok] at h
    obtain ⟨d, hd, rfl⟩ := h
    simp [hformat, hd, Except.map]

theorem readSigprimTest_ok {vars vars' : SigprimVars} {testobj : Option JsonObject}
    {draft : Draft RsaPrimTc} (h : readSigprimTest vars testobj = .ok (draft, vars')) :
    readSigprimKey vars testobj = .ok vars' ∧
      ∃ e n msg, draft = sigprimDraft vars' e n msg ∧
        ∀ vars₁ vars₁', readSigprimKey vars₁ testobj = .ok vars₁' →
          readSigprimTest vars₁ testobj = .ok (sigprimDraft vars₁' e n msg, vars₁') := by
  simp only [readSigprimTest, bind_eq_ok, need_eq_ok, stopIf_eq_ok, exists_const, pure_eq_ok,
    Prod.mk.injEq] at h
  obtain ⟨htcId, e, he, n, hn, hlength, vars₁, hkey, msg, hmsg, rfl, rfl⟩ := h
  refine ⟨hkey, e, n, msg, rfl, fun vars₂ vars₂' hkey' => ?_⟩
  simp only [readSigprimTest, bind_eq_ok, need_eq_ok, stopIf_eq_ok, exists_const, pure_eq_ok]
  exact ⟨htcId, e, he, n, hn, hlength, vars₂', hkey', msg, hmsg, rfl⟩

/-- What the tests of a group leave behind. -/
theorem sigprim_carryItems {tgId : Int} {vars vars' : SigprimVars}
    {ts : List (Option JsonObject)} (h : sigprimLoader.carryItems tgId vars ts = .ok vars') :
    vars'.keyformat = vars.keyformat ∧
      (vars'.d.isSome ↔ vars.d.isSome ∨ vars.keyformat ≠ some .crt ∧ ts ≠ []) ∧
      (vars'.crt.isSome ↔ vars.crt.isSome ∨ vars.keyformat = some .crt ∧ ts ≠ []) := by
  refine Loader.carryItems_induction (Q := fun ts vars' => vars'.keyformat = vars.keyformat ∧
    (vars'.d.isSome ↔ vars.d.isSome ∨ vars.keyformat ≠ some .crt ∧ ts ≠ []) ∧
    (vars'.crt.isSome ↔ vars.crt.isSome ∨ vars.keyformat = some .crt ∧ ts ≠ []))
    (by simp) ?_ h
  intro ts t vars₁ draft vars₂ ⟨hformat, hd, hcrt⟩ hload
  obtain ⟨hformat', hwith, hwithout⟩ := readSigprimKey_ok (readSigprimTest_ok hload).1
  refine ⟨hformat'.trans hformat, ?_⟩
  rw [hformat] at hwith hwithout
  by_cases hcase : vars.keyformat = some .crt
  · obtain ⟨hd', hcrt'⟩ := hwith hcase
    rw [hd', hd]
    simp [hcase, hcrt']
  · obtain ⟨hcrt', hd'⟩ := hwithout hcase
    rw [hcrt', hcrt]
    simp [hcase, hd']

/-- What groups leave behind. -/
theorem sigprim_carry {bs : List TestGroup} {vars : SigprimVars}
    (h : sigprimLoader.carry sigprimLoader.start bs = .ok vars) :
    vars.keyformat = sigprimFormat bs ∧ (vars.d.isSome ↔ hasSigprimTest false bs) ∧
      (vars.crt.isSome ↔ hasSigprimTest true bs) := by
  refine Loader.carry_induction (P := fun bs vars => vars.keyformat = sigprimFormat bs ∧
    (vars.d.isSome ↔ hasSigprimTest false bs) ∧ (vars.crt.isSome ↔ hasSigprimTest true bs))
    (by simp [sigprimLoader, sigprimFormat, hasSigprimTest]) ?_ h
  intro bs b vars₀ tgId vars₁ vars₂ ⟨hformat, hd, hcrt⟩ henter hitems
  have hgroup := readSigprimGroup_ok henter
  obtain ⟨hformat', hd', hcrt'⟩ := sigprim_carryItems hitems
  have hnow : vars₁.keyformat = sigprimFormat (bs ++ [b]) := by
    rw [sigprimFormat_concat, hgroup, hformat]
  rw [hasSigprimTest_concat, hasSigprimTest_concat, hformat', hd', hcrt', hnow, ← hd, ← hcrt,
    hgroup]
  simp [and_comm]

theorem sigprim_independentIff (ctx : KatCtx) :
    (rsaSigprimKatHandler ctx).IndependentIff SigprimOwnKey := by
  refine aloneIff_of_alone ?_
  intro _ bs bs' groupobj ts ts' t vars₀ vars₁ vars₂ vars₃ tgId tc hbefore henter hitems hload
  have hgroup := readSigprimGroup_ok henter
  obtain ⟨hkey, e, n, msg, hdraft, hread⟩ := readSigprimTest_ok hload
  obtain ⟨hformat₀, hd₀, hcrt₀⟩ := sigprim_carry hbefore
  obtain ⟨hformat₂, hd₂, hcrt₂⟩ := sigprim_carryItems hitems
  obtain ⟨hformat₃, hwith, hwithout⟩ := readSigprimKey_ok hkey
  obtain ⟨htcFormat, htcD, htcP⟩ := sigprimInitTc_ok (sigprimDraft_sent.mp hdraft.symm)
  have hnow : vars₂.keyformat = (sigprimFormatOf groupobj).or (sigprimFormat bs) := by
    rw [hformat₂, hgroup, hformat₀]
  unfold SigprimOwnKey
  rw [groupAt_append, List.take_left, Loader.alone_eq_some]
  constructor
  · rintro ⟨tgId', vars', vars'', henter', hload'⟩
    obtain ⟨hkey', e', n', msg', hdraft', -⟩ := readSigprimTest_ok hload'
    obtain ⟨hformat', hwith', hwithout'⟩ := readSigprimKey_ok hkey'
    obtain ⟨htcFormat', htcD', htcP'⟩ := sigprimInitTc_ok (sigprimDraft_sent.mp hdraft'.symm)
    have hsame : (sigprimFormatOf groupobj).or (sigprimFormat bs) = sigprimFormatOf groupobj := by
      rw [← hnow, ← hformat₃, ← htcFormat, htcFormat', hformat', readSigprimGroup_ok henter']
      simp [sigprimLoader]
    rw [hsame] at hnow
    have hfirst : sigprimFormatOf groupobj ≠ none ∨ sigprimFormat bs = none := by
      cases hown : sigprimFormatOf groupobj with
      | none => exact .inr (by simpa [hown] using hsame)
      | some format => exact .inl (by simp)
    have hvars' : vars' = { keyformat := sigprimFormatOf groupobj } := by
      simpa [sigprimLoader] using readSigprimGroup_ok henter'
    refine ⟨hfirst, ?_⟩
    by_cases hcrt : sigprimFormatOf groupobj = some .crt
    · have hleft : vars₀.d.isSome = false := by
        have hd₃ : vars₃.d.isSome = false := by
          rw [← htcD, htcD', (hwith' (by rw [hvars', hcrt])).1, hvars']
          rfl
        rw [(hwith (hnow.trans hcrt)).1] at hd₃
        have hd₁ := hd₂.not.mp (by simp [hd₃])
        simpa [hgroup] using fun h => hd₁ (.inl h)
      simpa [hcrt, ← hd₀] using hleft
    · have hleft : vars₀.crt.isSome = false := by
        have hcrt₃ : vars₃.crt.isSome = false := by
          rw [← htcP, htcP', (hwithout' (by rw [hvars']; exact hcrt)).1, hvars']
          rfl
        rw [(hwithout (by rw [hnow]; exact hcrt)).1] at hcrt₃
        have hcrt₁ := hcrt₂.not.mp (by simp [hcrt₃])
        simpa [hgroup] using fun h => hcrt₁ (.inl h)
      simpa [hcrt, ← hcrt₀] using hleft
  · rintro ⟨hfirst, hleft⟩
    have hsame : (sigprimFormatOf groupobj).or (sigprimFormat bs) = sigprimFormatOf groupobj := by
      rcases hfirst with hown | hnone
      · cases hown' : sigprimFormatOf groupobj with
        | none => exact absurd hown' hown
        | some format => rfl
      · rw [hnone, Option.or_none]
    rw [hsame] at hnow
    have hvars₃ : vars₃ =
        { keyformat := vars₂.keyformat
          d := if vars₂.keyformat = some .crt then none else vars₃.d
          crt := if vars₂.keyformat = some .crt then vars₃.crt else none } := by
      by_cases hcrt : sigprimFormatOf groupobj = some .crt
      · have hnone : vars₃.d = none := by
          rw [(hwith (hnow.trans hcrt)).1, ← Option.not_isSome_iff_eq_none, hd₂, ← hformat₂, hnow,
            hgroup, hd₀]
          simpa [hcrt] using hleft
        rw [hnow, if_pos hcrt, if_pos hcrt, ← hnone, ← hnow, ← hformat₃]
      · have hnone : vars₃.crt = none := by
          rw [(hwithout (by rw [hnow]; exact hcrt)).1, ← Option.not_isSome_iff_eq_none, hcrt₂,
            ← hformat₂, hnow, hgroup, hcrt₀]
          simpa [hcrt] using hleft
        rw [hnow, if_neg hcrt, if_neg hcrt, ← hnone, ← hnow, ← hformat₃]
    have hfresh := readSigprimKey_fresh hkey
    rw [← hvars₃, hnow] at hfresh
    refine ⟨tgId, _, vars₃, readSigprimGroup_fresh henter, ?_⟩
    rw [hdraft]
    exact hread _ _ hfresh

end LibAmvp
