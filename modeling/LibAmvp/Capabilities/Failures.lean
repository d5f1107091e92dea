import LibAmvp.Capabilities.Checking

/-!
# Failed capability calls

A call that fails should leave the context as it was.  Most functions of the interface
check everything before they change anything.  The others locate or create a part of the
content, mark it as used or drop an old value first; for each of them the calls that
leave a trace are those that fail after this change and found nothing there before.

Main results:

- Theorem {lit}`cleanAt_iff_leavesNoTrace`: every call on every context leaves no trace of a
  failure exactly when {lit}`CapCall.LeavesNoTrace` holds.
- Theorem {lit}`failed_call_unchanged_iff`: the same, in terms of the results of the
  interface.
-/

namespace LibAmvp

open Keyed

/-! ## Functions that change something first -/

/-- A call that answers that an argument is invalid must change nothing. -/
theorem not_mayChange_invalidArg : ¬ MayChange .invalidArg := by decide

/-- A call that succeeds may change the state. -/
theorem mayChange_success : MayChange .success := .inl rfl

/-- An answer that depends on a condition. -/
theorem decidesAt_accept {σ : Type} {s : σ} {c : Prop} {f : σ → σ} (hc : c) :
    Op.DecidesAt MayChange (accept f : Setter σ) s c :=
  .store mayChange_success hc

/-- A refusal decides for a condition that fails. -/
theorem decidesAt_refuse {σ : Type} {s : σ} {c : Prop} (hc : ¬ c) :
    Op.DecidesAt MayChange (refuse .invalidArg : Setter σ) s c :=
  .answer not_mayChange_invalidArg hc

/-- A check answers success or that the argument is invalid. -/
theorem passes_cases (c : Prop) [Decidable c] : passes c = .success ∨ passes c = .invalidArg := by
  by_cases hc : c
  · exact .inl (if_pos hc)
  · exact .inr (if_neg hc)

/-- So does the check of a prerequisite against its cipher. -/
theorem validatePrereqVal_cases (cipher : Cipher) (preReq : PrereqAlg) :
    validatePrereqVal cipher preReq = .success ∨
      validatePrereqVal cipher preReq = .invalidArg := by
  cases cipher <;>
    first
    | exact passes_cases _
    | exact .inr rfl

/-- The flag of the prerequisites is set before the check, so a refusal shows unless it was set. -/
theorem cleanAt_addPrereqVal_iff {cipher : Cipher} {preReq : PrereqAlg} {value : String}
    {s : Int × List Prereq} :
    CleanAt (Op.changed (fun s => (1, s.2)) (addPrereqVal cipher preReq value)) s ↔
      validatePrereqVal cipher preReq = .success ∨ s.1 = 1 := by
  have hdecides : Op.DecidesAt MayChange (addPrereqVal cipher preReq value) (1, s.2)
      (validatePrereqVal cipher preReq = .success) := by
    unfold addPrereqVal
    rcases validatePrereqVal_cases cipher preReq with h | h
    · rw [if_pos h]
      exact decidesAt_accept h
    · rw [if_neg (by simp [h]), h]
      exact decidesAt_refuse (by decide)
  refine (Op.cleanAt_changed_iff hdecides).trans ?_
  simp [Prod.ext_iff, eq_comm]

/-! ### Random bit generators -/

/-- The group of a mode is there. -/
def DrbgCap.HasGroup (cap : DrbgCap) (mode group : Int) : Prop :=
  ∃ m, cap.drbgCapMode.find? (fun m => m.mode == mode) = some m ∧
    ∃ g, m.groups.find? (fun g => g.id == group) = some g

/-- Looking a DRBG group up makes none exactly when it is there. -/
theorem DrbgCap.withGroup_id_eq_self_iff {cap : DrbgCap} {mode group : Int} :
    cap.withGroup mode group id = cap ↔ cap.HasGroup mode group := by
  have hmode (m : DrbgCapMode) : m.withGroup group id = m ↔
      ∃ g, m.groups.find? (fun g => g.id == group) = some g := by
    cases m
    simp [DrbgCapMode.withGroup, upsert_eq_self_iff]
  cases cap
  simp [withGroup, HasGroup, upsert_eq_self_iff, hmode]

/-- {lit}`amvp_cap_drbg_set_length` accepts. -/
def drbgLengthAccepted (param : DrbgParm) (max : Int) : Prop :=
  drbgLengthTooLarge param max = false ∧ param ∈ [.entropyLen, .nonceLen, .persoLen, .addInLen]

/-- A refused length of a DRBG group leaves no trace exactly when the group was there. -/
theorem cleanAt_drbgSetLength_iff {mode group : Int} {param : DrbgParm} {min step max : Int}
    {cap : DrbgCap} :
    CleanAt (drbgSetLength mode group param min step max) cap ↔
      drbgLengthAccepted param max ∨ cap.HasGroup mode group := by
  rw [← DrbgCap.withGroup_id_eq_self_iff]
  apply Op.cleanAt_changed_iff
  unfold drbgLengthAccepted
  cases hlarge : drbgLengthTooLarge param max with
  | true => exact decidesAt_refuse (by simp)
  | false =>
      cases param <;>
        first
        | exact decidesAt_accept (by simp)
        | exact decidesAt_refuse (by simp)

/-- {lit}`amvp_cap_drbg_set_parm` accepts. -/
def drbgParmAccepted (cipher : Cipher) (param : DrbgParm) (value : Int) : Prop :=
  cipher.isAlgorithm ∧ validateDrbgParmValue param value = .success ∧ param ≠ .preReqVals

/-- The same for a single parameter of a DRBG group. -/
theorem cleanAt_drbgSetParm_iff {cipher : Cipher} {mode group : Int} {param : DrbgParm}
    {value : Int} {cap : DrbgCap} :
    CleanAt (drbgSetParm cipher mode group param value) cap ↔
      drbgParmAccepted cipher param value ∨ cap.HasGroup mode group := by
  rw [← DrbgCap.withGroup_id_eq_self_iff]
  apply Op.cleanAt_changed_iff
  unfold drbgParmAccepted
  split
  · rename_i hcipher
    exact decidesAt_refuse fun h => hcipher h.1
  · rename_i hcipher
    rw [not_not] at hcipher
    split
    · rename_i hvalid
      exact decidesAt_refuse fun h => hvalid h.2.1
    · rename_i hvalid
      rw [not_not] at hvalid
      cases param with
      | preReqVals => exact decidesAt_refuse (by simp)
      | other raw => cases hvalid
      | _ => exact decidesAt_accept ⟨hcipher, hvalid, by simp⟩

/-! ### Signatures -/

/-- {lit}`amvp_add_dsa_keygen_parm` and its siblings accept. -/
def dsaParmAccepted (mode : Int) (param : DsaParm) (value capMode : Int) : Prop :=
  match param with
  | .ln2048_224 | .ln2048_256 | .ln3072_256 => True
  | .ln1024_160 => mode ≠ dsaModeKeygen ∧ (capMode = dsaModeSigver ∨ capMode = dsaModePqgver)
  | .genpq => mode ≠ dsaModeKeygen ∧ (value = dsaProvable ∨ value = dsaProbable)
  | .geng => mode ≠ dsaModeKeygen ∧ (value = dsaCanonical ∨ value = dsaUnverifiable)
  | .other _ => False

/-- Outside key generation the parameters of a DSA mode are accepted by the predicate. -/
theorem addDsaPqggenParm_decidesAt (param : DsaParm) (value : Int) (m : DsaCapMode) {mode : Int}
    (hmode : mode ≠ dsaModeKeygen) :
    Op.DecidesAt MayChange (addDsaPqggenParm param value) m
      (dsaParmAccepted mode param value m.capMode) := by
  unfold addDsaPqggenParm dsaParmAccepted
  cases param with
  | genpq | geng =>
      simp only
      split
      · exact decidesAt_accept ⟨hmode, .inl ‹_›⟩
      · split
        · exact decidesAt_accept ⟨hmode, .inr ‹_›⟩
        · exact decidesAt_refuse (by tauto)
  | ln1024_160 =>
      apply Op.DecidesAt.inspect
      split
      · exact decidesAt_accept ⟨hmode, ‹_›⟩
      · exact decidesAt_refuse fun h => ‹¬ _› h.2
  | other raw => exact decidesAt_refuse id
  | _ => exact decidesAt_accept trivial

/-- A DSA mode is marked defined before the check, so a refusal shows unless it was. -/
theorem cleanAt_dsaModeSetParm_iff {mode : Int} {param : DsaParm} {value : Int}
    {m : DsaCapMode} :
    CleanAt (dsaModeSetParm mode param value) m ↔
      dsaParmAccepted mode param value m.capMode ∨ m.defined = 1 := by
  have hsame : { m with defined := 1 } = m ↔ m.defined = 1 := by
    cases m
    simp [eq_comm]
  rw [← hsame]
  apply Op.cleanAt_changed_iff
  split
  · rename_i hmode
    unfold addDsaKeygenParm dsaParmAccepted
    cases param <;>
      first
      | exact decidesAt_accept trivial
      | exact decidesAt_refuse (by simp [hmode])
  · exact addDsaPqggenParm_decidesAt param value { m with defined := 1 } ‹_›

/-- The same seen from the DSA capability. -/
theorem cleanAt_dsaSetParm_iff {mode : Int} {param : DsaParm} {value : Int} {cap : DsaCap} :
    CleanAt (dsaSetParm mode param value) cap ↔
      ∀ m, 0 ≤ mode - 1 → cap.dsaCapMode[(mode - 1).toNat]? = some m →
        dsaParmAccepted mode param value m.capMode ∨ m.defined = 1 := by
  refine (Op.cleanAt_zoom_iff (by cases cap; simp)).trans (Op.cleanAt_atIndex_iff.trans ?_)
  simp only [cleanAt_dsaModeSetParm_iff]

/-- The value of a parameter for primes has a name. -/
def rsaPrimeNamed (param : RsaPrimeParam) (value : Int) : Prop :=
  match param with
  | .hashAlg => (lookupHashAlgName value).isSome
  | .test => (lookupRsaPrimeTestName value).isSome
  | .other _ => False

/-- Looking a modulus up makes no node exactly when it is there. -/
theorem RsaKeygenNode.withModulo_id_eq_self_iff {node : RsaKeygenNode} {mod : Int} :
    node.withModulo mod id = node ↔
      ∃ c, node.modeCapabilities.find? (fun c => c.modulo == mod) = some c := by
  cases node
  simp [withModulo, LibAmvp.withModulo, upsert_eq_self_iff]

/-- A refused prime test leaves no trace exactly when the modulus was there. -/
theorem cleanAt_rsaKeygenAddPrime_iff {mod : Int} {param : RsaPrimeParam} {value : Int}
    {node : RsaKeygenNode} :
    CleanAt (rsaKeygenAddPrime mod param value) node ↔
      rsaPrimeNamed param value ∨
        ∃ c, node.modeCapabilities.find? (fun c => c.modulo == mod) = some c := by
  rw [← RsaKeygenNode.withModulo_id_eq_self_iff]
  apply Op.cleanAt_changed_iff
  unfold rsaPrimeNamed
  cases param with
  | hashAlg =>
      cases lookupHashAlgName value with
      | none => exact decidesAt_refuse (by simp)
      | some name => exact decidesAt_accept rfl
  | test =>
      cases lookupRsaPrimeTestName value with
      | none => exact decidesAt_refuse (by simp)
      | some name => exact decidesAt_accept rfl
  | other raw => exact decidesAt_refuse id

/-! ### SP 800-108 -/

/-- Naming a mode changes nothing exactly when it has a name. -/
theorem Kdf108ModeParams.named_eq_self_iff {name : String} {params : Kdf108ModeParams} :
    params.named name = params ↔ params.kdfMode.isSome := by
  obtain ⟨kdfMode, _⟩ := params
  cases kdfMode <;> simp [named]

/-- The last switch of {lit}`amvp_cap_kdf108_set_parm` accepts. -/
def kdf108ParmAccepted (param : Kdf108Parm) (value emptyIvSupport : Int) : Prop :=
  match param with
  | .macMode => (kdf108MacModeStr value).isSome
  | .fixedDataOrder => (kdf108FixedDataOrderStr value).isSome
  | .requiresEmptyIv => emptyIvSupport ≠ 0
  | .counterLen | .supportsEmptyIv | .supportedLen => True
  | _ => False

/-- The parameters of a KBKDF mode are accepted by the predicate. -/
theorem kdf108StoreParm_decidesAt (param : Kdf108Parm) (value : Int)
    (params : Kdf108ModeParams) :
    Op.DecidesAt MayChange (kdf108StoreParm param value) params
      (kdf108ParmAccepted param value params.emptyIvSupport) := by
  unfold kdf108StoreParm kdf108ParmAccepted
  cases param with
  | macMode =>
      cases kdf108MacModeStr value with
      | none => exact decidesAt_refuse (by simp)
      | some name => exact decidesAt_accept rfl
  | fixedDataOrder =>
      cases kdf108FixedDataOrderStr value with
      | none => exact decidesAt_refuse (by simp)
      | some name => exact decidesAt_accept rfl
  | requiresEmptyIv =>
      apply Op.DecidesAt.inspect
      split
      · exact decidesAt_refuse (by simpa using ‹_›)
      · exact decidesAt_accept ‹_›
  | counterLen | supportsEmptyIv | supportedLen => exact decidesAt_accept trivial
  | _ => exact decidesAt_refuse id

/-- A KBKDF mode is named before the check, so a refusal shows unless it had its name. -/
theorem cleanAt_kdf108SetParm_iff {mode : Kdf108Mode} {param : Kdf108Parm} {value : Int}
    {cap : Kdf108Cap} :
    CleanAt (kdf108SetParm mode param value) cap ↔
      (validateKdf108ParamValue param value = .success →
        ∀ params, cap.paramsOf mode = some params →
          kdf108ParmAccepted param value params.emptyIvSupport ∨ params.kdfMode.isSome) := by
  have hmode : ∀ name params,
      CleanAt (Op.changed (Kdf108ModeParams.named name) (kdf108StoreParm param value)) params ↔
        kdf108ParmAccepted param value params.emptyIvSupport ∨ params.kdfMode.isSome := by
    intro name params
    refine (Op.cleanAt_changed_iff
      (kdf108StoreParm_decidesAt param value (params.named name))).trans ?_
    rw [Kdf108ModeParams.named_eq_self_iff]
    rfl
  unfold kdf108SetParm
  split
  · rename_i hvalid
    exact iff_of_true (.answer _) fun h => absurd h hvalid
  · rename_i hvalid
    rw [not_not] at hvalid
    rw [cleanAt_kdf108AtMode_iff hmode]
    simp [hvalid]

/-! ### Key agreement -/

/-- The last switch of {lit}`amvp_cap_kas_ecc_set_scheme` accepts. -/
def kasEccSchemeAccepted (param : KasEccParam) (value : Int) : Prop :=
  match param with
  | .kdf => value ≠ 0 ∧ value ≤ kasEccParmset
  | .role => value = kasEccRoleInitiator ∨ value = kasEccRoleResponder
  | .eb | .ec | .ed | .ee | .none => True
  | _ => False

/-- The scheme is there. -/
def KasEccCapMode.HasScheme (m : KasEccCapMode) (scheme : Int) : Prop :=
  m.scheme.any fun s => s.scheme == scheme

/-- Opening a scheme of KAS-ECC makes none exactly when it is there. -/
theorem KasEccCapMode.openScheme_eq_self_iff {m : KasEccCapMode} {scheme : Int} :
    m.openScheme scheme = m ↔ m.HasScheme scheme := by
  unfold openScheme HasScheme
  split
  · simp_all
  · rename_i hany
    refine iff_of_false (fun h => hany ?_) hany
    rw [← h]
    simp

/-- The parameters of a KAS-ECC scheme are accepted by the predicate. -/
theorem kasEccStoreScheme_decidesAt (scheme : Int) (param : KasEccParam) (option value : Int)
    (m : KasEccCapMode) :
    Op.DecidesAt MayChange (kasEccStoreScheme scheme param option value) m
      (kasEccSchemeAccepted param value) := by
  unfold kasEccStoreScheme kasEccSchemeAccepted
  cases param with
  | kdf =>
      simp only
      split
      · exact decidesAt_refuse (by omega)
      · exact decidesAt_accept (by omega)
  | role =>
      simp only
      split
      · exact decidesAt_refuse (by tauto)
      · exact decidesAt_accept (by tauto)
  | eb | ec | ed | ee | none => exact decidesAt_accept trivial
  | _ => exact decidesAt_refuse id

/-- The modes that the functions for a scheme have. -/
def KasEccMode.hasSchemes : KasEccMode → Bool
  | component | nocomp | none => true
  | _ => false

/-- A refused parameter of a KAS-ECC scheme leaves no trace exactly when the scheme was there. -/
theorem cleanAt_kasEccSetScheme_iff {mode : KasEccMode} {scheme : Int} {param : KasEccParam}
    {option value : Int} {cap : KasEccCap} :
    CleanAt (kasEccSetScheme mode scheme param option value) cap ↔
      (mode.hasSchemes → 0 < scheme ∧ scheme < kasEccSchemesMax →
        ∀ m, 0 ≤ mode.toInt - 1 → cap.kasEccMode[(mode.toInt - 1).toNat]? = some m →
          kasEccSchemeAccepted param value ∨ m.HasScheme scheme) := by
  have hmode (m : KasEccCapMode) : CleanAt (kasEccModeSetScheme scheme param option value) m ↔
      (0 < scheme ∧ scheme < kasEccSchemesMax →
        kasEccSchemeAccepted param value ∨ m.HasScheme scheme) := by
    unfold kasEccModeSetScheme
    split
    · rename_i hscheme
      refine (Op.cleanAt_changed_iff (kasEccStoreScheme_decidesAt ..)).trans ?_
      rw [KasEccCapMode.openScheme_eq_self_iff]
      simp [hscheme]
    · rename_i hscheme
      exact iff_of_true (.answer _) fun h => absurd h hscheme
  have hat : CleanAt (kasEccAtMode mode (kasEccModeSetScheme scheme param option value)) cap ↔
      (0 < scheme ∧ scheme < kasEccSchemesMax →
        ∀ m, 0 ≤ mode.toInt - 1 → cap.kasEccMode[(mode.toInt - 1).toNat]? = some m →
          kasEccSchemeAccepted param value ∨ m.HasScheme scheme) := by
    refine (Op.cleanAt_zoom_iff (by cases cap; simp)).trans (Op.cleanAt_atIndex_iff.trans ?_)
    simp only [hmode]
    exact ⟨fun h hs m hi hm => h m hi hm hs, fun h m hi hm hs => h hs m hi hm⟩
  unfold kasEccSetScheme
  cases mode with
  | component | nocomp | none => simpa [KasEccMode.hasSchemes] using hat
  | _ => exact iff_of_true (.answer _) nofun

/-- The last switch of {lit}`amvp_cap_kas_ffc_set_scheme` accepts. -/
def kasFfcSchemeAccepted (param : KasFfcParam) (value : Int) : Prop :=
  match param with
  | .kdf => value ≠ 0 ∧ value ≤ kasFfcParmset
  | .role => value = kasFfcRoleInitiator ∨ value = kasFfcRoleResponder
  | .fb | .fc | .modp2048 | .modp3072 | .modp4096 | .modp6144 | .modp8192 | .ffdhe2048
  | .ffdhe3072 | .ffdhe4096 | .ffdhe6144 | .ffdhe8192 => True
  | _ => False

/-- The scheme is there. -/
def KasFfcCapMode.HasScheme (m : KasFfcCapMode) (scheme : Int) : Prop :=
  m.scheme.any fun s => s.scheme == scheme

/-- Opening a scheme of KAS-FFC makes none exactly when it is there. -/
theorem KasFfcCapMode.openScheme_eq_self_iff {m : KasFfcCapMode} {scheme : Int} :
    m.openScheme scheme = m ↔ m.HasScheme scheme := by
  unfold openScheme HasScheme
  split
  · simp_all
  · rename_i hany
    refine iff_of_false (fun h => hany ?_) hany
    rw [← h]
    simp

/-- The parameters of a KAS-FFC scheme are accepted by the predicate. -/
theorem kasFfcStoreScheme_decidesAt (scheme : Int) (param : KasFfcParam) (value : Int)
    (m : KasFfcCapMode) :
    Op.DecidesAt MayChange (kasFfcStoreScheme scheme param value) m
      (kasFfcSchemeAccepted param value) := by
  unfold kasFfcStoreScheme kasFfcSchemeAccepted
  cases param with
  | kdf =>
      simp only
      split
      · exact decidesAt_refuse (by omega)
      · exact decidesAt_accept (by omega)
  | role =>
      simp only
      split
      · exact decidesAt_refuse (by tauto)
      · exact decidesAt_accept (by tauto)
  | function | curve | hash | genMeth | other => exact decidesAt_refuse id
  | _ => exact decidesAt_accept trivial

/-- The modes that the functions for a scheme have. -/
def KasFfcMode.hasSchemes : KasFfcMode → Bool
  | component | nocomp | none => true
  | _ => false

/-- A refused parameter of a KAS-FFC scheme leaves no trace exactly when the scheme was there. -/
theorem cleanAt_kasFfcSetScheme_iff {mode : KasFfcMode} {scheme : Int} {param : KasFfcParam}
    {value : Int} {cap : KasFfcCap} :
    CleanAt (kasFfcSetScheme mode scheme param value) cap ↔
      (mode.hasSchemes → 0 < scheme ∧ scheme < kasFfcMaxSchemes →
        ∀ m, 0 ≤ mode.toInt - 1 → cap.kasFfcMode[(mode.toInt - 1).toNat]? = some m →
          kasFfcSchemeAccepted param value ∨ m.HasScheme scheme) := by
  have hmode (m : KasFfcCapMode) : CleanAt (kasFfcModeSetScheme scheme param value) m ↔
      (0 < scheme ∧ scheme < kasFfcMaxSchemes →
        kasFfcSchemeAccepted param value ∨ m.HasScheme scheme) := by
    unfold kasFfcModeSetScheme
    split
    · rename_i hscheme
      refine (Op.cleanAt_changed_iff (kasFfcStoreScheme_decidesAt ..)).trans ?_
      rw [KasFfcCapMode.openScheme_eq_self_iff]
      simp [hscheme]
    · rename_i hscheme
      exact iff_of_true (.answer _) fun h => absurd h hscheme
  have hat : CleanAt (kasFfcAtMode mode (kasFfcModeSetScheme scheme param value)) cap ↔
      (0 < scheme ∧ scheme < kasFfcMaxSchemes →
        ∀ m, 0 ≤ mode.toInt - 1 → cap.kasFfcMode[(mode.toInt - 1).toNat]? = some m →
          kasFfcSchemeAccepted param value ∨ m.HasScheme scheme) := by
    refine (Op.cleanAt_zoom_iff (by cases cap; simp)).trans (Op.cleanAt_atIndex_iff.trans ?_)
    simp only [hmode]
    exact ⟨fun h hs m hi hm => h m hi hm hs, fun h m hi hm hs => h hs m hi hm⟩
  unfold kasFfcSetScheme
  cases mode with
  | component | nocomp | none => simpa [KasFfcMode.hasSchemes] using hat
  | _ => exact iff_of_true (.answer _) nofun

/-! ### Key derivation for key agreement -/

/-- Setting a pattern is clean unless a literal is dropped and its replacement refused. -/
theorem cleanAt_kdaSetPattern_iff {σ : Type} {setLiteral : Option String → σ → σ}
    {addPattern : σ → σ} {admitted : Bool} {value : Int} {text : String} {cap : σ}
    (hadmitted : value = kdaPatternLiteral → admitted = true) :
    CleanAt (kdaSetPattern setLiteral addPattern admitted value text) cap ↔
      (value = kdaPatternLiteral → isLiteral text ∨ setLiteral none cap = cap) := by
  unfold kdaSetPattern
  split
  · rename_i hvalue
    have hdecides : Op.DecidesAt MayChange
        (if text.length > kdaPatternLiteralStrLenMax then refuse .invalidArg
          else if text.length < 1 then refuse .invalidArg
          else
            Op.changed (setLiteral (some (strncpyS kdaPatternLiteralStrLenMax text text.length)))
              (if admitted then accept addPattern else refuse .invalidArg))
        (setLiteral none cap) (isLiteral text) := by
      unfold isLiteral
      split
      · exact decidesAt_refuse (by omega)
      · split
        · exact decidesAt_refuse (by omega)
        · rw [hadmitted hvalue, if_pos rfl]
          exact ⟨_, _, rfl, iff_of_true mayChange_success (by omega), .inl mayChange_success⟩
    refine (Op.cleanAt_changed_iff hdecides).trans ?_
    simp [hvalue]
  · rename_i hvalue
    refine iff_of_true ?_ fun h => absurd h hvalue
    split
    · exact .store mayChange_success _
    · exact .answer _

/-- The revision of a KDA is checked before it is stored. -/
theorem kdaSetRevision_checks {σ : Type} (value : Int) (f : σ → σ) :
    Checks (kdaSetRevision value f) := by
  simp [kdaSetRevision]

/-- An encoding of a KDA is checked before it is appended. -/
theorem kdaAddEncoding_checks {σ : Type} (value : Int) (f : σ → σ) :
    Checks (kdaAddEncoding value f) := by
  simp [kdaAddEncoding]

/-- The output length of a KDA is checked before it is stored. -/
theorem kdaSetL_checks {σ : Type} (value : Int) (f : σ → σ) : Checks (kdaSetL value f) := by
  simp [kdaSetL]

/-- A salt method of a KDA is looked up before it is appended. -/
theorem kdaAddMacSalt_checks {σ : Type} (value : Int) (f : String → σ → σ) :
    Checks (kdaAddMacSalt value f) := by
  simp [kdaAddMacSalt]

/-- A name that was not found is refused before anything is appended. -/
theorem kdaAddName_checks {σ : Type} (name : Option String) (f : String → σ → σ) :
    Checks (kdaAddName name f) := by
  unfold kdaAddName
  cases name <;> simp

/-- The pattern is a literal that is refused. -/
def refusedLiteral (param : KdaParm) (value : Int) (text : String) : Prop :=
  param = .pattern ∧ value = kdaPatternLiteral ∧ ¬ isLiteral text

/-- A literal refused by the one-step KDA leaves no trace exactly when there was no literal before.
-/
theorem cleanAt_kdaOnestepSetParm_iff {param : KdaParm} {value : Int} {text : String}
    {cap : KdaOnestepCap} :
    CleanAt (kdaOnestepSetParm param value text) cap ↔
      (refusedLiteral param value text → cap.literalPatternCandidate = none) := by
  unfold kdaOnestepSetParm refusedLiteral
  cases param with
  | pattern =>
      refine (cleanAt_kdaSetPattern_iff ?_).trans ?_
      · rintro rfl
        rfl
      · cases cap
        simp only [KdaOnestepCap.mk.injEq, true_and, and_true, eq_comm]
        tauto
  | _ =>
      refine iff_of_true ?_ nofun
      first
      | exact kdaSetRevision_checks _ _ cap
      | exact kdaAddEncoding_checks _ _ cap
      | exact kdaSetL_checks _ _ cap
      | exact kdaAddMacSalt_checks _ _ cap
      | exact kdaAddName_checks _ _ cap
      | exact .answer _

/-- The same for HKDF. -/
theorem cleanAt_kdaHkdfSetParm_iff {param : KdaParm} {value : Int} {text : String}
    {cap : KdaHkdfCap} :
    CleanAt (kdaHkdfSetParm param value text) cap ↔
      (refusedLiteral param value text → cap.literalPatternCandidate = none) := by
  unfold kdaHkdfSetParm refusedLiteral
  cases param with
  | pattern =>
      refine (cleanAt_kdaSetPattern_iff ?_).trans ?_
      · rintro rfl
        rfl
      · cases cap
        simp only [KdaHkdfCap.mk.injEq, true_and, and_true, eq_comm]
        tauto
  | useHybridSecret =>
      refine iff_of_true (Op.CleanAt.inspect ?_) nofun
      exact Op.CleanAt.ite (.answer _) (.store mayChange_success _)
  | performMultiexpansionTests => exact iff_of_true (.store mayChange_success _) nofun
  | _ =>
      refine iff_of_true ?_ nofun
      first
      | exact kdaSetRevision_checks _ _ cap
      | exact kdaAddEncoding_checks _ _ cap
      | exact kdaSetL_checks _ _ cap
      | exact kdaAddMacSalt_checks _ _ cap
      | exact kdaAddName_checks _ _ cap
      | exact .answer _

/-- The same for the parameters of the two-step KDA outside its modes. -/
theorem cleanAt_kdaTwostepStoreParm_iff {param : KdaParm} {value : Int} {text : String}
    {cap : KdaTwostepCap} :
    CleanAt (kdaTwostepStoreParm param value text) cap ↔
      (refusedLiteral param value text → cap.literalPatternCandidate = none) := by
  unfold kdaTwostepStoreParm refusedLiteral
  cases param with
  | pattern =>
      refine (cleanAt_kdaSetPattern_iff ?_).trans ?_
      · rintro rfl
        rfl
      · cases cap
        simp only [KdaTwostepCap.mk.injEq, true_and, and_true, eq_comm]
        tauto
  | useHybridSecret =>
      refine iff_of_true (Op.CleanAt.inspect ?_) nofun
      exact Op.CleanAt.ite (.answer _) (.store mayChange_success _)
  | performMultiexpansionTests => exact iff_of_true (.store mayChange_success _) nofun
  | _ =>
      refine iff_of_true ?_ nofun
      first
      | exact kdaSetRevision_checks _ _ cap
      | exact kdaAddEncoding_checks _ _ cap
      | exact kdaSetL_checks _ _ cap
      | exact kdaAddMacSalt_checks _ _ cap
      | exact .answer _

/-- Work on a mode of the two-step variant names the mode first. -/
theorem cleanAt_kdaTwostepAtMode_iff {mode : Kdf108Mode} {op : Setter Kdf108ModeParams}
    {cap : KdaTwostepCap} {c : Kdf108ModeParams → Prop}
    (h : ∀ name params, Op.DecidesAt MayChange op (params.named name) (c params)) :
    CleanAt (kdaTwostepAtMode mode op) cap ↔
      ∀ params, cap.kdfParams.paramsOf mode = some params → c params ∨ params.kdfMode.isSome := by
  refine (Op.cleanAt_zoom_iff (by cases cap; simp)).trans (cleanAt_kdf108AtMode_iff ?_)
  intro name params
  rw [← Kdf108ModeParams.named_eq_self_iff]
  exact Op.cleanAt_changed_iff (h name params)

/-- The part of {lit}`amvp_cap_kda_twostep_set_parm` that is about a mode accepts. -/
def kdaTwostepModeParmAccepted (param : KdaParm) (value emptyIvSupport : Int) : Prop :=
  match param with
  | .macAlg => (kdaTwostepMacStr value).isSome
  | .twostepFixedDataOrder => (kdf108FixedDataOrderStr value).isSome
  | .twostepCounterLen => 1 ≤ value ∧ value ≤ kdf108KeyinBitMax
  | .twostepRequiresEmptyIv => emptyIvSupport ≠ 0
  | .twostepSupportsEmptyIv | .twostepSupportedLen => True
  | _ => False

/-- The parameters of a mode of the two-step KDA are accepted by the predicate. -/
theorem kdaTwostepStoreModeParm_decidesAt (param : KdaParm) (value : Int)
    (params : Kdf108ModeParams) :
    Op.DecidesAt MayChange (kdaTwostepStoreModeParm param value) params
      (kdaTwostepModeParmAccepted param value params.emptyIvSupport) := by
  unfold kdaTwostepStoreModeParm kdaTwostepModeParmAccepted
  cases param with
  | macAlg =>
      cases kdaTwostepMacStr value with
      | none => exact decidesAt_refuse (by simp)
      | some name => exact decidesAt_accept rfl
  | twostepFixedDataOrder =>
      cases kdf108FixedDataOrderStr value with
      | none => exact decidesAt_refuse (by simp)
      | some name => exact decidesAt_accept rfl
  | twostepCounterLen =>
      simp only
      split
      · exact decidesAt_refuse (by omega)
      · exact decidesAt_accept (by omega)
  | twostepRequiresEmptyIv =>
      apply Op.DecidesAt.inspect
      split
      · exact decidesAt_refuse (by simpa using ‹_›)
      · exact decidesAt_accept ‹_›
  | twostepSupportsEmptyIv | twostepSupportedLen => exact decidesAt_accept trivial
  | _ => exact decidesAt_refuse id

/-- A mode of the two-step KDA is named before the check, so a refusal shows unless it had its name.
-/
theorem cleanAt_kdaTwostepSetParm_iff {param : KdaParm} {value : Int} {kdfMode : Kdf108Mode}
    {string : Option String} {cap : KdaTwostepCap} :
    CleanAt (kdaTwostepSetParm param value kdfMode string) cap ↔
      (param.isOfMode → ∀ params, cap.kdfParams.paramsOf kdfMode = some params →
        kdaTwostepModeParmAccepted param value params.emptyIvSupport ∨
          params.kdfMode.isSome) ∧
      (∀ text, string = some text → refusedLiteral param value text →
        cap.literalPatternCandidate = none) := by
  have hnever : ∀ text, param.isOfMode → ¬ refusedLiteral param value text := by
    rintro text hmode ⟨rfl, -⟩
    cases hmode
  unfold kdaTwostepSetParm
  split
  · rename_i hmode
    rw [cleanAt_kdaTwostepAtMode_iff
      (c := fun params => kdaTwostepModeParmAccepted param value params.emptyIvSupport)
      (fun name params => kdaTwostepStoreModeParm_decidesAt param value (params.named name))]
    constructor
    · intro h
      exact ⟨fun _ => h, fun text _ href => absurd href (hnever text hmode)⟩
    · intro h
      exact h.1 hmode
  · rename_i hmode
    split
    · rename_i hmissing
      exact iff_of_true (.answer _)
        ⟨fun h => absurd h hmode, fun text htext => by simp [hmissing.2.2] at htext⟩
    · rename_i hmissing
      rw [cleanAt_kdaTwostepStoreParm_iff]
      cases string with
      | none =>
          refine iff_of_true ?_ ⟨fun h => absurd h hmode, nofun⟩
          rintro ⟨hparam, hvalue, -⟩
          exact absurd ⟨hparam, hvalue, rfl⟩ hmissing
      | some text => simp [hmode]

/-- The same for the lengths of a mode. -/
theorem cleanAt_kdaTwostepSetDomain_iff {param : KdaParm} {min max increment : Int}
    {kdfMode : Kdf108Mode} {cap : KdaTwostepCap} :
    CleanAt (kdaTwostepSetDomain param min max increment kdfMode) cap ↔
      (param = .twostepSupportedLen →
        ∀ params, cap.kdfParams.paramsOf kdfMode = some params →
          increment ≠ 0 ∨ params.kdfMode.isSome) := by
  unfold kdaTwostepSetDomain
  cases param with
  | twostepSupportedLen =>
      refine (cleanAt_kdaTwostepAtMode_iff (c := fun _ => increment ≠ 0) ?_).trans (by simp)
      intro name params
      split
      · exact decidesAt_refuse (by simpa using ‹_›)
      · exact decidesAt_accept ‹_›
  | useHybridSecret =>
      refine iff_of_true (Op.CleanAt.inspect ?_) nofun
      exact Op.CleanAt.ite (.answer _) (kdaSetRange_checks _ _ _ _ _ cap)
  | z => exact iff_of_true (kdaSetRange_checks _ _ _ _ _ cap) nofun
  | _ => exact iff_of_true (.answer _) nofun

/-! ## All calls -/

/-- When a failed call leaves the context as it was: the function changes nothing before its
last check, or the check passes, or what it would have changed is there already. -/
def CapCall.LeavesNoTrace (s : Caps) : CapCall → Prop
  | setPrereq cipher preReqCap value =>
    ∀ text, value = some text → text.isEmpty = false →
      ∀ e, s.locate cipher = some e →
        validatePrereqVal cipher preReqCap = .success ∨ e.hasPrereq = 1
  | drbgSetLength cipher mode group param _ _ max =>
    ∀ cap, s.content cipher .drbgCap = some cap →
      drbgLengthAccepted param max ∨ cap.HasGroup mode group
  | drbgSetParm cipher mode group param value =>
    ∀ cap, s.content cipher .drbgCap = some cap →
      drbgParmAccepted cipher param value ∨ cap.HasGroup mode group
  | dsaSetParm cipher mode param value =>
    ∀ cap, s.content cipher .dsaCap = some cap →
      ∀ m, 0 ≤ mode - 1 → cap.dsaCapMode[(mode - 1).toNat]? = some m →
        dsaParmAccepted mode param value m.capMode ∨ m.defined = 1
  | rsaKeygenSetPrimes mode mod param value =>
    ∀ nodes, s.content .rsaKeygen .rsaKeygenCap = some nodes →
      ∀ node, nodes.find? (fun node => node.randPq == mode) = some node →
        rsaPrimeNamed param value ∨
          ∃ c, node.modeCapabilities.find? (fun c => c.modulo == mod) = some c
  | kdf108SetParm mode param value =>
    ∀ cap, s.content .kdf108 .kdf108Cap = some cap →
      validateKdf108ParamValue param value = .success →
        ∀ params, cap.paramsOf mode = some params →
          kdf108ParmAccepted param value params.emptyIvSupport ∨ params.kdfMode.isSome
  | kasEccSetScheme cipher mode scheme param _ value =>
    cipher.isKasEcc → ∀ cap, s.content cipher .kasEccCap = some cap →
      mode.hasSchemes → 0 < scheme ∧ scheme < kasEccSchemesMax →
        ∀ m, 0 ≤ mode.toInt - 1 → cap.kasEccMode[(mode.toInt - 1).toNat]? = some m →
          kasEccSchemeAccepted param value ∨ m.HasScheme scheme
  | kasFfcSetScheme cipher mode scheme param value =>
    ∀ cap, s.content cipher .kasFfcCap = some cap →
      mode.hasSchemes → 0 < scheme ∧ scheme < kasFfcMaxSchemes →
        ∀ m, 0 ≤ mode.toInt - 1 → cap.kasFfcMode[(mode.toInt - 1).toNat]? = some m →
          kasFfcSchemeAccepted param value ∨ m.HasScheme scheme
  | kdaSetParm cipher param value string =>
    ∀ text, string = some text → refusedLiteral param value text →
      (cipher = .kdaOnestep → ∀ cap, s.content .kdaOnestep .kdaOnestepCap = some cap →
        cap.literalPatternCandidate = none) ∧
      (cipher = .kdaHkdf → ∀ cap, s.content .kdaHkdf .kdaHkdfCap = some cap →
        cap.literalPatternCandidate = none)
  | kdaTwostepSetParm param value kdfMode string =>
    ∀ cap, s.content .kdaTwostep .kdaTwostepCap = some cap →
      (param.isOfMode → ∀ params, cap.kdfParams.paramsOf kdfMode = some params →
        kdaTwostepModeParmAccepted param value params.emptyIvSupport ∨
          params.kdfMode.isSome) ∧
      (∀ text, string = some text → refusedLiteral param value text →
        cap.literalPatternCandidate = none)
  | kdaTwostepSetDomain param _ _ increment kdfMode =>
    ∀ cap, s.content .kdaTwostep .kdaTwostepCap = some cap →
      param = .twostepSupportedLen →
        ∀ params, cap.kdfParams.paramsOf kdfMode = some params →
          increment ≠ 0 ∨ params.kdfMode.isSome
  | _ => True

section AllCalls

variable {s : Caps}

/-- A function that works on a member and leaves {lit}`vs_count` alone. -/
theorem cleanAt_uncounted_member_iff {cipher : Cipher} {m : Member} {op : Setter m.Data}
    {c : m.Data → Prop} (h : ∀ d, CleanAt op d ↔ c d) :
    CleanAt (CapAction.atEntry cipher (.member m (uncounted op))).run s ↔
      ∀ d, s.content cipher m = some d → c d := by
  rw [CapAction.cleanAt_atEntry_member_iff]
  simp only [cleanAt_uncounted_iff, h]

/-- Exactly when a call that adds a prerequisite leaves no trace. -/
theorem cleanAt_capSetPrereq_iff (cipher : Cipher) (preReqCap : PrereqAlg)
    (value : Option String) :
    CleanAt (capSetPrereq cipher preReqCap value).run s ↔
      (CapCall.setPrereq cipher preReqCap value).LeavesNoTrace s := by
  unfold capSetPrereq CapCall.LeavesNoTrace
  cases value with
  | none => exact iff_of_true (.answer _) nofun
  | some text =>
      simp only
      split
      · rename_i hempty
        refine iff_of_true (.answer _) ?_
        rintro _ ⟨⟩ hne
        exact absurd hempty (by rw [hne]; exact Bool.false_ne_true)
      · rename_i hempty
        rw [Bool.not_eq_true] at hempty
        rw [CapAction.cleanAt_atEntry_prereq_iff]
        simp only [cleanAt_addPrereqVal_iff]
        constructor
        · rintro h _ ⟨⟩ _
          exact h
        · intro h
          exact h text rfl hempty

/-- Exactly when a call that sets a parameter of a KDA leaves no trace. -/
theorem cleanAt_capKdaSetParm_iff (cipher : Cipher) (param : KdaParm) (value : Int)
    (string : Option String) :
    CleanAt (capKdaSetParm cipher param value string).run s ↔
      (CapCall.kdaSetParm cipher param value string).LeavesNoTrace s := by
  unfold capKdaSetParm CapCall.LeavesNoTrace
  split
  · rename_i hmissing
    exact iff_of_true (.answer _) fun text htext => by simp [hmissing.2.2] at htext
  · rename_i hmissing
    have hnone : string = none → ¬ refusedLiteral param value (string.getD "") :=
      fun hstring href => hmissing ⟨href.1, href.2.1, hstring⟩
    split
    · refine (cleanAt_uncounted_member_iff fun d => cleanAt_kdaOnestepSetParm_iff).trans ?_
      cases string with
      | none => exact iff_of_true (fun d _ href => absurd href (hnone rfl)) nofun
      | some text => simp; tauto
    · refine (cleanAt_uncounted_member_iff fun d => cleanAt_kdaHkdfSetParm_iff).trans ?_
      cases string with
      | none => exact iff_of_true (fun d _ href => absurd href (hnone rfl)) nofun
      | some text => simp; tauto
    · rename_i honestep hhkdf
      refine iff_of_true ?_ fun _ _ _ => ⟨fun h => absurd h honestep, fun h => absurd h hhkdf⟩
      apply CapAction.checks_atEntry_ite_iff.2
      exact ⟨fun _ => CapAction.checks_atEntry_refuse, fun _ => CapAction.checks_atEntry_refuse⟩

/-- For every call on every context: a failed call leaves the context as it was exactly when
the condition of its function holds. -/
theorem cleanAt_iff_leavesNoTrace (call : CapCall) :
    CleanAt call.exec s ↔ call.LeavesNoTrace s := by
  have hchecks {a : CapAction} (h : a.Checks) : CleanAt a.run s ↔ True := iff_of_true (h s) trivial
  have hmember {cipher : Cipher} {m : Member} {op : Setter m.Data} (h : Checks op) :
      CleanAt (CapAction.atEntry cipher (.member m (uncounted op))).run s ↔ True :=
    hchecks (CapAction.checks_member h.uncounted)
  cases call with
  -- the functions that change something before their last check
  | setPrereq cipher preReqCap value => exact cleanAt_capSetPrereq_iff cipher preReqCap value
  | drbgSetLength => exact cleanAt_uncounted_member_iff fun d => cleanAt_drbgSetLength_iff
  | drbgSetParm => exact cleanAt_uncounted_member_iff fun d => cleanAt_drbgSetParm_iff
  | dsaSetParm => exact cleanAt_uncounted_member_iff fun d => cleanAt_dsaSetParm_iff
  | rsaKeygenSetPrimes =>
      refine cleanAt_uncounted_member_iff fun d => Op.cleanAt_atFirst_iff.trans ?_
      simp only [cleanAt_rsaKeygenAddPrime_iff]
  | kdf108SetParm => exact cleanAt_uncounted_member_iff fun d => cleanAt_kdf108SetParm_iff
  | kasEccSetScheme cipher mode scheme param option value =>
      simp only [CapCall.exec, CapCall.action, capKasEccSetScheme, CapCall.LeavesNoTrace]
      split
      · rename_i hecc
        rw [cleanAt_uncounted_member_iff fun d => cleanAt_kasEccSetScheme_iff]
        simp [hecc]
      · rename_i hecc
        exact iff_of_true (.answer _) fun h => absurd h hecc
  | kasFfcSetScheme => exact cleanAt_uncounted_member_iff fun d => cleanAt_kasFfcSetScheme_iff
  | kdaSetParm cipher param value string => exact cleanAt_capKdaSetParm_iff cipher param value string
  | kdaTwostepSetParm => exact cleanAt_uncounted_member_iff fun d => cleanAt_kdaTwostepSetParm_iff
  | kdaTwostepSetDomain =>
      exact cleanAt_uncounted_member_iff fun d => cleanAt_kdaTwostepSetDomain_iff
  -- the functions that check first
  | symCipherSetDomain =>
      exact hchecks (CapAction.checks_ite_iff.2
        ⟨fun _ => CapAction.checks_member (symCipherSetDomain_checks _ _ _ _ _).uncounted,
          fun _ => CapAction.checks_refuse⟩)
  | symCipherSetParm => exact hchecks (capSymCipherSetParm_checks _ _ _)
  | hashSetParm =>
      exact hchecks (CapAction.checks_ite_iff.2
        ⟨fun _ => CapAction.checks_member (hashSetParm_checks _ _ _).uncounted,
          fun _ => CapAction.checks_refuse⟩)
  | hashSetDomain =>
      exact hchecks (CapAction.checks_ite_iff.2
        ⟨fun _ => CapAction.checks_member (hashSetDomain_checks _ _ _ _ _).uncounted,
          fun _ => CapAction.checks_refuse⟩)
  | hmacSetDomain => exact hmember (hmacSetDomain_checks _ _ _ _)
  | hmacSetParm => exact hchecks (capHmacSetParm_checks _ _ _)
  | cmacSetDomain => exact hmember (cmacSetDomain_checks _ _ _ _)
  | cmacSetParm => exact hmember (cmacSetParm_checks _ _ _)
  | kmacSetParm => exact hmember (kmacSetParm_checks _ _)
  | kmacSetDomain => exact hmember (kmacSetDomain_checks _ _ _ _)
  | rsaKeygenSetMode => exact hmember (claimOr_checks _ _ _ _)
  | rsaKeygenSetParm => exact hchecks (capRsaKeygenSetParm_checks _ _)
  | rsaSigverSetParm => exact hchecks (capRsaSigverSetParm_checks _ _)
  | rsaSigverSetType => exact hmember (claimOr_checks _ _ _ _)
  | rsaSiggenSetType => exact hmember (claimOr_checks _ _ _ _)
  | rsaKeygenSetExponent => exact hmember (setFixedPubExp_checks _ _ _ _ _).atHead
  | rsaSigverSetExponent => exact hmember (setFixedPubExp_checks _ _ _ _ _).atHead
  | rsaSigverSetModParm | rsaSiggenSetModParm =>
      exact hchecks (CapAction.checks_ite_iff.2
        ⟨fun _ => CapAction.checks_refuse,
          fun _ => CapAction.checks_member (rsaSigSetModParm_checks _ _ _ _).uncounted⟩)
  | rsaPrimSetParm => exact hchecks (capRsaPrimSetParm_checks _ _)
  | rsaPrimSetExponent => exact hmember (setFixedPubExp_checks _ _ _ _ _)
  | ecdsaSetParm => exact hchecks (capEcdsaSetParm_checks _ _ _)
  | ecdsaSetCurveHashAlg => exact hchecks (capEcdsaSetCurveHashAlg_checks _ _ _)
  | kdf135SnmpSetParm =>
      exact hchecks (CapAction.checks_ite_iff.2
        ⟨fun _ => CapAction.checks_refuse, fun _ => CapAction.checks_ite_iff.2
          ⟨fun _ => CapAction.checks_refuse, fun _ => CapAction.checks_store⟩⟩)
  | kdf135SnmpSetEngid kcap engid =>
      cases engid with
      | none => exact hchecks CapAction.checks_refuse
      | some id =>
          exact hchecks (CapAction.checks_ite_iff.2
            ⟨fun _ => CapAction.checks_refuse, fun _ => CapAction.checks_store⟩)
  | pbkdfSetDomain => exact hchecks (capPbkdfSetDomain_checks _ _ _ _)
  | pbkdfSetParm => exact hmember (pbkdfSetParm_checks _ _)
  | kdf135SshSetParm => exact hmember (by simp [kdf135SshSetParm])
  | kdf135SrtpSetParm =>
      exact hchecks (CapAction.checks_ite_iff.2
        ⟨fun _ => CapAction.checks_refuse,
          fun _ => CapAction.checks_member (kdf135SrtpSetParm_checks _ _).uncounted⟩)
  | kdf108SetDomain mode param min max increment =>
      refine hchecks (CapAction.checks_atEntry_ite_iff.2
        ⟨fun _ => CapAction.checks_atEntry_refuse, fun _ => CapAction.checks_member ?_⟩)
      exact (kdf108AtMode_checks fun _ => kdf108StoreDomain_checks param min max increment).uncounted
  | kdf135Ikev2SetParm => exact hmember (kdf135Ikev2SetParm_checks _ _)
  | kdf135Ikev2SetLength => exact hmember (kdf135Ikev2SetLength_checks _ _)
  | kdf135Ikev2SetDomain => exact hchecks (capKdf135Ikev2SetDomain_checks _ _ _ _)
  | kdf135Ikev1SetParm => exact hmember (kdf135Ikev1SetParm_checks _ _)
  | kdf135Ikev1SetDomain => exact hchecks (capKdf135Ikev1SetDomain_checks _ _ _ _)
  | kdf135X942SetDomain => exact hmember (kdf135X942SetDomain_checks _ _ _ _)
  | kdf135X942SetParm => exact hmember (kdf135X942SetParm_checks _ _)
  | kdf135X963SetParm => exact hmember (kdf135X963SetParm_checks _ _)
  | kdfTls12SetParm => exact hmember (kdfTls12SetParm_checks _ _)
  | kdfTls13SetParm => exact hmember (kdfTls13SetParm_checks _ _)
  | kasEccSetPrereq =>
      exact hchecks (CapAction.checks_ite_iff.2
        ⟨fun _ => CapAction.checks_member (kasEccAtMode_checks (checks_accept _)).uncounted,
          fun _ => CapAction.checks_refuse⟩)
  | kasEccSetParm =>
      exact hchecks (CapAction.checks_ite_iff.2
        ⟨fun _ => CapAction.checks_member (kasEccSetParm_checks _ _ _ _).uncounted,
          fun _ => CapAction.checks_refuse⟩)
  | kasFfcSetPrereq =>
      exact hchecks (CapAction.checks_ite_iff.2
        ⟨fun _ => CapAction.checks_member (kasFfcAtMode_checks (checks_accept _)).uncounted,
          fun _ => CapAction.checks_refuse⟩)
  | kasFfcSetParm =>
      exact hchecks (CapAction.checks_ite_iff.2
        ⟨fun _ => CapAction.checks_member (kasFfcSetParm_checks _ _ _).uncounted,
          fun _ => CapAction.checks_refuse⟩)
  | kasIfcSetParm => exact hmember (kasIfcSetParm_checks _ _)
  | kasIfcSetExponent => exact hmember (kasIfcSetExponent_checks _ _)
  | ktsIfcSetParm => exact hmember (ktsIfcSetParm_checks _ _)
  | ktsIfcSetSchemeParm =>
      exact hmember (ktsIfcAtScheme_checks (ktsIfcStoreSchemeParm_checks _ _))
  | ktsIfcSetParamString => exact hmember (ktsIfcSetParamString_checks _ _)
  | ktsIfcSetSchemeString => exact hmember (ktsIfcSetSchemeString_checks _ _ _)
  | safePrimesSetParm => exact hchecks (capSafePrimesSetParm_checks _ _ _)
  | kdaSetDomain => exact hchecks (capKdaSetDomain_checks _ _ _ _ _)
  -- the functions that enable an algorithm
  | _ => exact hchecks (enable_checks rfl)

/-- A call that returns neither success nor a failed allocation leaves the capability list
and the count of vector sets as they were exactly when the condition of its function
holds. -/
theorem failed_call_unchanged_iff (s : Caps) (call : CapCall) :
    (∀ rv s', call.exec s = .ok (rv, s') → rv ≠ .success → rv ≠ .mallocFail → s' = s) ↔
      call.LeavesNoTrace s := by
  rw [← cleanAt_iff_leavesNoTrace]
  constructor
  · intro h rv s' hexec
    by_cases hrv : MayChange rv
    · exact .inl hrv
    · exact .inr (h rv s' hexec (fun hs => hrv (.inl hs)) fun hm => hrv (.inr hm))
  · intro h rv s' hexec hsuccess hmalloc
    exact (h rv s' hexec).resolve_left fun hrv => hrv.elim hsuccess hmalloc

/-- A prerequisite that AES-GCM cannot have is refused, and marks the entry all the same. -/
theorem failed_call_leaves_trace :
    ∃ s s', Reached (fun _ _ => True) [(.symCipherEnable .aesGcm (some ⟨1⟩), .success)] s ∧
      (CapCall.setPrereq .aesGcm .sha (some "A1234")).exec s = .ok (.invalidArg, s') ∧
      s.capsList.map CapsEntry.hasPrereq = [0] ∧ s'.capsList.map CapsEntry.hasPrereq = [1] :=
  ⟨_, _, @Reached.call _ [] _ _ (.symCipherEnable .aesGcm (some ⟨1⟩)) _ .start trivial rfl,
    rfl, rfl, rfl⟩

end AllCalls

end LibAmvp
