import LibAmvp.Capabilities.WellTyped

/-!
# Capability functions that check first

Most functions of the capability interface check everything before they change anything,
so that a call that fails leaves the context as it was.

Main results:

- Theorem {lit}`CapAction.checks_member`: a function that works on a member checks first when
  its work does.
- Theorem {lit}`enable_checks`: the functions that enable an algorithm check first.
-/

namespace LibAmvp

open Keyed

/-! ## Functions that check first -/

section Checking

variable {σ : Type} {op : Setter σ} {rv : AmvpResult} {s : Caps} {a b : CapAction}

/-- A setter that never leaves a trace of a failure. -/
abbrev Checks (op : Setter σ) : Prop := Op.Clean MayChange op

/-- A setter that stores whatever it is given has no failure to leave a trace of. -/
@[simp]
theorem checks_accept (f : σ → σ) : Checks (accept f) := Op.clean_store (.inl rfl) f

/-- A setter that checks first does so beside the counter of vector sets too. -/
theorem Checks.uncounted (h : Checks op) : Checks (uncounted op) :=
  fun _ => cleanAt_uncounted_iff.2 (h _)

/-- A function that never leaves a trace of a failure. -/
def CapAction.Checks (a : CapAction) : Prop := ∀ s, CleanAt a.run s

namespace CapAction

/-- A function that always refuses checks first. -/
@[simp]
theorem checks_refuse : (refuse rv).Checks := fun _ => .answer rv

/-- Appending an entry checks for its presence before the list grows. -/
@[simp]
theorem checks_append {type : CapType} {cipher : Cipher} {handler : CryptoHandler} :
    (append type cipher handler).Checks :=
  fun _ => cleanAt_append

/-- A test of the arguments checks first when each of its branches does. -/
@[simp]
theorem checks_ite_iff {c : Prop} [Decidable c] :
    (if c then a else b).Checks ↔ (c → a.Checks) ∧ (¬ c → b.Checks) := by
  split <;> simp [*]

/-- A refusal after the entry has been looked up leaves no trace. -/
@[simp]
theorem checks_atEntry_refuse {cipher : Cipher} : (atEntry cipher (.refuse rv)).Checks :=
  fun _ => cleanAt_atEntry_iff.2 fun _ _ => .answer rv

/-- A test after the lookup checks first when each of its branches does. -/
@[simp]
theorem checks_atEntry_ite_iff {c : Prop} [Decidable c] {cipher : Cipher} {x y : EntryAction} :
    (atEntry cipher (if c then x else y)).Checks ↔
      (c → (atEntry cipher x).Checks) ∧ (¬ c → (atEntry cipher y).Checks) := by
  split <;> simp [*]

/-- A function that works on a member checks first when its work does. -/
theorem checks_member {cipher : Cipher} {m : Member} {op : Setter (m.Data × Int)}
    (h : LibAmvp.Checks op) : (atEntry cipher (.member m op)).Checks :=
  fun _ => cleanAt_atEntry_member_iff.2 fun _ _ => h _

/-- Storing into a member after the lookup cannot fail. -/
theorem checks_store {cipher : Cipher} {m : Member} {f : m.Data → m.Data} :
    (atEntry cipher (.store m f)).Checks :=
  checks_member (checks_accept f).uncounted

/-- A store under a test checks first. -/
theorem checks_guarded_store {c : Prop} [Decidable c] {cipher : Cipher} {m : Member}
    {f : m.Data → m.Data} : (atEntry cipher (if c then .store m f else .refuse rv)).Checks :=
  checks_atEntry_ite_iff.2 ⟨fun _ => checks_store, fun _ => checks_atEntry_refuse⟩

/-- A store after the refusals checks first. -/
theorem checks_refused_or_store {c : Prop} [Decidable c] {cipher : Cipher} {m : Member}
    {f : m.Data → m.Data} : (atEntry cipher (if c then .refuse rv else .store m f)).Checks :=
  checks_atEntry_ite_iff.2 ⟨fun _ => checks_atEntry_refuse, fun _ => checks_store⟩

end CapAction

end Checking

/-! ## Symmetric ciphers, hashes and message authentication -/

/-- The domain of a symmetric cipher is compared with its limits before it is stored. -/
theorem symCipherSetDomain_checks (cipher : Cipher) (parm : SymCiphDomainParm)
    (min max increment : Int) : Checks (symCipherSetDomain cipher parm min max increment) := by
  unfold symCipherSetDomain
  cases parm with
  | other raw => exact Op.clean_answer _
  | _ =>
      apply Op.Clean.inspect
      intro cap
      simp

/-- A single length is appended only after the domain has been found unset. -/
theorem appendUnlessDomain_checks (domain : SymCipherCap → Domain)
    (append : SymCipherCap → SymCipherCap) : Checks (appendUnlessDomain domain append) := by
  apply Op.Clean.inspect
  intro cap
  simp

/-- {lit}`amvp_cap_sym_cipher_set_parm` refuses before it appends or stores. -/
theorem capSymCipherSetParm_checks (cipher : Cipher) (parm : SymCiphParm) (value : Int) :
    (capSymCipherSetParm cipher parm value).Checks := by
  refine CapAction.checks_ite_iff.2 ⟨fun _ => ?_, fun _ => CapAction.checks_refuse⟩
  have hmember {op : Setter SymCipherCap} (h : Checks op) :
      (CapAction.atEntry cipher (.member .symCap (uncounted op))).Checks :=
    CapAction.checks_member h.uncounted
  cases parm with
  | parmCtrIncr | parmCtrOvrflw => exact hmember (by simp)
  | parmIvgenSrc =>
      refine CapAction.checks_atEntry_ite_iff.2
        ⟨fun _ => CapAction.checks_member (checks_accept _), fun _ => by simp⟩
  | parmDulenMatchesPayloadlen =>
      refine CapAction.checks_atEntry_ite_iff.2 ⟨fun _ => by simp, fun _ => ?_⟩
      exact hmember (Op.Clean.inspect fun _ => by simp)
  | ivlen | ptlen | aadlen =>
      refine CapAction.checks_atEntry_ite_iff.2 ⟨fun _ => ?_, fun _ => by simp⟩
      exact hmember (appendUnlessDomain_checks _ _)
  | other raw => simp [symCipherSetParm, symCipherAppendParm]
  | _ => exact CapAction.checks_guarded_store

/-- {lit}`amvp_cap_hash_set_parm` validates the value before it stores it. -/
theorem hashSetParm_checks (cipher : Cipher) (param : HashParm) (value : Int) :
    Checks (hashSetParm cipher param value) := by
  cases param <;> simp [hashSetParm]

/-- {lit}`amvp_cap_hash_set_domain` compares the bounds before it stores the message lengths. -/
theorem hashSetDomain_checks (cipher : Cipher) (parm : HashParm) (min max increment : Int) :
    Checks (hashSetDomain cipher parm min max increment) := by
  cases parm <;> simp [hashSetDomain, hashStoreDomain]

/-- The key lengths of an HMAC are compared with their limits first. -/
theorem hmacSetDomain_checks (parm : HmacParm) (min max increment : Int) :
    Checks (hmacSetDomain parm min max increment) := by
  cases parm <;> simp [hmacSetDomain, storeBoundedDomain]

/-- {lit}`amvp_cap_hmac_set_parm` refuses a value out of range before it appends it. -/
theorem capHmacSetParm_checks (cipher : Cipher) (parm : HmacParm) (value : Int) :
    (capHmacSetParm cipher parm value).Checks := by
  refine CapAction.checks_atEntry_ite_iff.2 ⟨fun _ => by simp, fun _ => ?_⟩
  cases parm <;> first | exact CapAction.checks_store | exact CapAction.checks_atEntry_refuse

/-- The lengths of a CMAC are compared with their limits first. -/
theorem cmacSetDomain_checks (parm : CmacParm) (min max increment : Int) :
    Checks (cmacSetDomain parm min max increment) := by
  cases parm <;> simp [cmacSetDomain, storeBoundedDomain]

/-- A single parameter of a CMAC is validated before it is stored. -/
theorem cmacSetParm_checks (cipher : Cipher) (parm : CmacParm) (value : Int) :
    Checks (cmacSetParm cipher parm value) := by
  cases parm <;> simp [cmacSetParm]

/-- A single parameter of a KMAC is validated before it is stored. -/
theorem kmacSetParm_checks (parm : KmacParm) (value : Int) : Checks (kmacSetParm parm value) := by
  cases parm <;> simp [kmacSetParm]

/-- The lengths of a KMAC are compared with their limits first. -/
theorem kmacSetDomain_checks (parm : KmacParm) (min max increment : Int) :
    Checks (kmacSetDomain parm min max increment) := by
  cases parm <;> simp [kmacSetDomain, validateDomainRange]

/-! ## Signatures -/

/-- A node is claimed after the search has found it vacant, else the call is refused. -/
theorem claimOr_checks {ν : Type} (vacant taken : ν → Bool) (fresh : ν) (set : ν → ν) :
    Checks (claimOr vacant taken fresh set) := by
  apply Op.Clean.inspect
  intro nodes
  cases claimNode vacant taken fresh set nodes <;> simp

/-- The fixed public exponent is checked for mode, presence and length before it is copied. -/
theorem setFixedPubExp_checks {σ : Type} (mode : σ → Int) (fixed : σ → Option String)
    (set : String → σ → σ) (param : RsaParm) (value : Option String) :
    Checks (setFixedPubExp mode fixed set param value) := by
  unfold setFixedPubExp
  cases param with
  | fixedPubExpVal =>
      apply Op.Clean.inspect
      intro cap
      cases fixed cap <;> simp
  | _ => exact Op.clean_answer _

/-- {lit}`amvp_cap_rsa_keygen_set_parm` checks first. -/
theorem capRsaKeygenSetParm_checks (param : RsaParm) (value : Int) :
    (capRsaKeygenSetParm param value).Checks := by
  have hmember {f : RsaKeygenNode → RsaKeygenNode} :
      (CapAction.atEntry .rsaKeygen (.member .rsaKeygenCap (uncounted (storeHead f)))).Checks :=
    CapAction.checks_member (Checks.uncounted (checks_accept f).atHead)
  cases param with
  | pubExpMode => exact hmember
  | infoGenByServer | keyFormatCrt =>
      exact CapAction.checks_atEntry_ite_iff.2 ⟨fun _ => hmember, fun _ => by simp⟩
  | _ => exact CapAction.checks_atEntry_refuse

/-- {lit}`amvp_cap_rsa_sigver_set_parm` checks first. -/
theorem capRsaSigverSetParm_checks (param : RsaParm) (value : Int) :
    (capRsaSigverSetParm param value).Checks := by
  cases param with
  | pubExpMode => exact CapAction.checks_member (Checks.uncounted (checks_accept _).atHead)
  | _ => exact CapAction.checks_atEntry_refuse

/-- The modulus, hash and salt length of a signature type are all checked before the node is
extended. -/
theorem rsaSigSetModParm_checks (sigType mod hashAlg saltLen : Int) :
    Checks (rsaSigSetModParm sigType mod hashAlg saltLen) :=
  (checks_accept _).atFirst

/-- The RSA primitives validate the value before they store it. -/
theorem capRsaPrimSetParm_checks (param : RsaParm) (value : Int) :
    (capRsaPrimSetParm param value).Checks := by
  cases param with
  | pubExpMode => exact CapAction.checks_store
  | keyFormatCrt => exact CapAction.checks_guarded_store
  | _ => exact CapAction.checks_atEntry_refuse

/-- A curve, hash or secret generation mode is validated before it is appended. -/
theorem ecdsaSetParm_checks (cipher : Cipher) (param : EcdsaParm) (value : Int) :
    Checks (ecdsaSetParm cipher param value) := by
  have huncounted (f : EcdsaCap → EcdsaCap) : Checks (uncounted (accept f)) :=
    (checks_accept f).uncounted
  unfold ecdsaSetParm
  cases param with
  | secretGen => cases ecdsaSecretGenStr value <;> simp [huncounted]
  | _ => simp [huncounted]

/-- {lit}`amvp_cap_ecdsa_set_parm` refuses a parameter its mode does not have before it appends. -/
theorem capEcdsaSetParm_checks (cipher : Cipher) (param : EcdsaParm) (value : Int) :
    (capEcdsaSetParm cipher param value).Checks := by
  unfold capEcdsaSetParm
  split <;>
    first
    | exact CapAction.checks_member (ecdsaSetParm_checks _ param value)
    | exact CapAction.checks_atEntry_refuse

/-- A curve with its hash is appended after both were looked up. -/
theorem ecdsaSetCurveHashAlg_checks (curve alg : Int) :
    Checks (ecdsaSetCurveHashAlg curve alg) := by
  apply Op.Clean.zoom (checks_accept _).atFirst
  intro cap curves
  cases cap
  simp

/-- {lit}`amvp_cap_ecdsa_set_curve_hash_alg` checks first. -/
theorem capEcdsaSetCurveHashAlg_checks (cipher : Cipher) (curve alg : Int) :
    (capEcdsaSetCurveHashAlg cipher curve alg).Checks := by
  unfold capEcdsaSetCurveHashAlg
  simp only [CapAction.checks_ite_iff, CapAction.checks_refuse, implies_true, true_and, and_true]
  intro _ _
  split <;>
    first
    | exact CapAction.checks_member (ecdsaSetCurveHashAlg_checks curve alg).uncounted
    | exact CapAction.checks_atEntry_refuse

/-! ## Key derivation -/

/-- Storing between two limits compares with them first. -/
theorem checks_storeBetween {cipher : Cipher} {lower upper min max : Int} {m : Member}
    {f : m.Data → m.Data} :
    (CapAction.atEntry cipher (storeBetween lower upper min max m f)).Checks :=
  CapAction.checks_refused_or_store

/-- The same for a setter inside a member. -/
theorem acceptBetween_checks {σ : Type} (lower upper min max : Int) (f : σ → σ) :
    Checks (acceptBetween lower upper min max f) := by
  simp [acceptBetween]

/-- The four domains of PBKDF are compared with their limits first. -/
theorem capPbkdfSetDomain_checks (param : PbkdfParm) (min max increment : Int) :
    (capPbkdfSetDomain param min max increment).Checks := by
  refine CapAction.checks_atEntry_ite_iff.2 ⟨fun _ => by simp, fun _ => ?_⟩
  cases param <;> first | exact checks_storeBetween | exact CapAction.checks_atEntry_refuse

/-- The hash of PBKDF is looked up before it is appended. -/
theorem pbkdfSetParm_checks (param : PbkdfParm) (value : Int) :
    Checks (pbkdfSetParm param value) := by
  unfold pbkdfSetParm
  cases lookupHashAlgName value <;> simp

/-- A parameter of the SRTP KDF is validated before it is stored. -/
theorem kdf135SrtpSetParm_checks (param : Kdf135SrtpParam) (value : Int) :
    Checks (kdf135SrtpSetParm param value) := by
  cases param <;> simp [kdf135SrtpSetParm]

/-- The parameters of a mode. -/
def Kdf108Cap.paramsOf (cap : Kdf108Cap) : Kdf108Mode → Option Kdf108ModeParams
  | .counter => some cap.counterMode
  | .feedback => some cap.feedbackMode
  | .dpi => some cap.dpiMode
  | .other _ => none

/-- Work on the parameters of a mode is clean exactly where it is clean on them. -/
theorem cleanAt_kdf108AtMode_iff {mode : Kdf108Mode} {op : String → Setter Kdf108ModeParams}
    {cap : Kdf108Cap} {c : Kdf108ModeParams → Prop}
    (h : ∀ name params, CleanAt (op name) params ↔ c params) :
    CleanAt (kdf108AtMode mode op) cap ↔ ∀ params, cap.paramsOf mode = some params → c params := by
  unfold kdf108AtMode
  cases mode with
  | other raw => exact iff_of_true (.answer _) nofun
  | _ =>
      refine (Op.cleanAt_zoom_iff (by cases cap; simp)).trans ((h _ _).trans ?_)
      simp [Kdf108Cap.paramsOf]

/-- Work on a mode of the KBKDF checks first when the work does, whatever the mode's name. -/
theorem kdf108AtMode_checks {mode : Kdf108Mode} {op : String → Setter Kdf108ModeParams}
    (h : ∀ name, Checks (op name)) : Checks (kdf108AtMode mode op) := by
  intro cap
  apply (cleanAt_kdf108AtMode_iff (fun name params => iff_of_true (h name params) trivial)).2
  exact fun params _ => trivial

/-- The lengths of a KBKDF mode are compared with their limits first. -/
theorem kdf108StoreDomain_checks (param : Kdf108Parm) (min max increment : Int) :
    Checks (kdf108StoreDomain param min max increment) := by
  cases param <;> simp [kdf108StoreDomain]

/-- A hash of the IKEv2 KDF is looked up before it is appended. -/
theorem kdf135Ikev2SetParm_checks (param : Kdf135Ikev2Parm) (value : Int) :
    Checks (kdf135Ikev2SetParm param value) := by
  unfold kdf135Ikev2SetParm
  cases nameAmong ikeHashAlgs value <;> simp

/-- A single length of the IKEv2 KDF is compared with its limits first. -/
theorem kdf135Ikev2SetLength_checks (param : Kdf135Ikev2Parm) (value : Int) :
    Checks (kdf135Ikev2SetLength param value) := by
  cases param <;> first | exact acceptBetween_checks _ _ _ _ _ | exact Op.clean_answer _

/-- The domains of the IKEv2 KDF are compared with their limits first. -/
theorem capKdf135Ikev2SetDomain_checks (param : Kdf135Ikev2Parm) (min max increment : Int) :
    (capKdf135Ikev2SetDomain param min max increment).Checks := by
  cases param <;> first | exact checks_storeBetween | exact CapAction.checks_atEntry_refuse

/-- A hash or authentication method of the IKEv1 KDF is validated before it is stored. -/
theorem kdf135Ikev1SetParm_checks (param : Kdf135Ikev1Parm) (value : Int) :
    Checks (kdf135Ikev1SetParm param value) := by
  unfold kdf135Ikev1SetParm
  cases param with
  | hashAlg => cases nameAmong ikeHashAlgs value <;> simp
  | authMethod => cases ikev1AuthMethodStr value <;> simp
  | _ => exact Op.clean_answer _

/-- The domains of the IKEv1 KDF are compared with their limits first. -/
theorem capKdf135Ikev1SetDomain_checks (param : Kdf135Ikev1Parm) (min max increment : Int) :
    (capKdf135Ikev1SetDomain param min max increment).Checks := by
  cases param <;> first | exact checks_storeBetween | exact CapAction.checks_atEntry_refuse

/-- The domains of the X9.42 KDF are compared with their limits first. -/
theorem kdf135X942SetDomain_checks (param : Kdf135X942Parm) (min max increment : Int) :
    Checks (kdf135X942SetDomain param min max increment) := by
  cases param <;> simp [kdf135X942SetDomain]

/-- A parameter of the X9.42 KDF is validated before it is stored. -/
theorem kdf135X942SetParm_checks (param : Kdf135X942Parm) (value : Int) :
    Checks (kdf135X942SetParm param value) := by
  unfold kdf135X942SetParm
  cases param with
  | kdfType => simp
  | hashAlg => cases lookupHashAlgName value <;> simp
  | oid => cases x942OidStr value <;> simp
  | _ => exact Op.clean_answer _

/-- A parameter of the X9.63 KDF is validated before it is stored. -/
theorem kdf135X963SetParm_checks (param : Kdf135X963Parm) (value : Int) :
    Checks (kdf135X963SetParm param value) := by
  unfold kdf135X963SetParm
  cases param with
  | hashAlg => cases nameAmong [.sha224, .sha256, .sha384, .sha512] value <;> simp
  | keyDataLen | sharedInfoLen => exact acceptBetween_checks _ _ _ _ _
  | _ => simp

/-- A hash of the TLS 1.2 KDF is looked up before it is appended. -/
theorem kdfTls12SetParm_checks (param : KdfTls12Parm) (value : Int) :
    Checks (kdfTls12SetParm param value) := by
  unfold kdfTls12SetParm
  cases param with
  | hashAlg => cases nameAmong [.sha256, .sha384, .sha512] value <;> simp
  | _ => exact Op.clean_answer _

/-- A hash or running mode of the TLS 1.3 KDF is validated before it is stored. -/
theorem kdfTls13SetParm_checks (param : KdfTls13Parm) (value : Int) :
    Checks (kdfTls13SetParm param value) := by
  unfold kdfTls13SetParm
  cases param with
  | hmacAlg => cases nameAmong [.sha256, .sha384] value <;> simp
  | _ => simp

/-! ## Key agreement and key transport -/

/-- A hash is stored after the loose test, which lets most values out of range pass. -/
theorem storeLooseHash_checks {σ : Type} (value : Int) (f : σ → σ) :
    Checks (storeLooseHash value f) := by
  simp [storeLooseHash]

/-- Work on a mode of KAS-ECC checks first when the work does. -/
theorem kasEccAtMode_checks {mode : KasEccMode} {op : Setter KasEccCapMode} (h : Checks op) :
    Checks (kasEccAtMode mode op) := by
  apply Op.Clean.zoom h.atIndex
  intro cap modes
  cases cap
  simp

/-- A parameter of a KAS-ECC mode is validated before it is stored. -/
theorem kasEccModeSetParm_checks (cipher : Cipher) (mode : KasEccMode) (param : KasEccParam)
    (value : Int) : Checks (kasEccModeSetParm cipher mode param value) := by
  cases mode <;> cases param <;> simp [kasEccModeSetParm, storeLooseHash_checks]

/-- {lit}`amvp_cap_kas_ecc_set_parm` finds the mode and validates the value before it stores. -/
theorem kasEccSetParm_checks (cipher : Cipher) (mode : KasEccMode) (param : KasEccParam)
    (value : Int) : Checks (kasEccSetParm cipher mode param value) := by
  cases mode <;>
    first
    | exact kasEccAtMode_checks (kasEccModeSetParm_checks _ _ _ _)
    | exact Op.clean_answer _

/-- Work on a mode of KAS-FFC checks first when the work does. -/
theorem kasFfcAtMode_checks {mode : KasFfcMode} {op : Setter KasFfcCapMode} (h : Checks op) :
    Checks (kasFfcAtMode mode op) := by
  apply Op.Clean.zoom h.atIndex
  intro cap modes
  cases cap
  simp

/-- {lit}`amvp_cap_kas_ffc_set_parm` finds the mode and validates the value before it stores. -/
theorem kasFfcSetParm_checks (mode : KasFfcMode) (param : KasFfcParam) (value : Int) :
    Checks (kasFfcSetParm mode param value) := by
  cases mode <;> cases param <;>
    simp [kasFfcSetParm, kasFfcAtMode_checks, storeLooseHash_checks]

/-- A parameter of KAS-IFC is appended or refused, never both. -/
theorem kasIfcSetParm_checks (param : KasIfcParam) (value : Int) :
    Checks (kasIfcSetParm param value) := by
  cases param <;> simp [kasIfcSetParm, storeLooseHash_checks]

/-- The fixed public exponent of KAS-IFC is checked for presence and length before it is copied. -/
theorem kasIfcSetExponent_checks (param : KasIfcParam) (value : Option String) :
    Checks (kasIfcSetExponent param value) := by
  simp [kasIfcSetExponent]

/-- A parameter of KTS-IFC is appended or refused, never both. -/
theorem ktsIfcSetParm_checks (param : KtsIfcParam) (value : Int) :
    Checks (ktsIfcSetParm param value) := by
  cases param <;> simp [ktsIfcSetParm]

/-- Work on the picked scheme checks first when the work does. -/
theorem atPickedScheme_checks {scheme : Int} {op : Setter KtsIfcScheme} (h : Checks op) :
    Checks (atPickedScheme scheme op) := by
  intro schemes rv schemes' hrun
  match schemes with
  | [] =>
      cases hrun
      exact .inr rfl
  | first :: rest =>
      unfold atPickedScheme at hrun
      simp only at hrun
      split at hrun
      · match rest with
        | [] =>
            cases hrun
            exact .inr rfl
        | second :: rest =>
            obtain ⟨⟨rv', second'⟩, hop, hout⟩ := Op.map_eq_ok_iff.1 hrun
            cases hout
            exact (h second rv' second' hop).imp id (fun heq => by rw [heq])
      · obtain ⟨⟨rv', first'⟩, hop, hout⟩ := Op.map_eq_ok_iff.1 hrun
        cases hout
        exact (h first rv' first' hop).imp id (fun heq => by rw [heq])

/-- Work on a scheme of KTS-IFC checks first when the work does. -/
theorem ktsIfcAtScheme_checks {scheme : Int} {op : Setter KtsIfcScheme} (h : Checks op) :
    Checks (ktsIfcAtScheme scheme op) := by
  apply Op.Clean.zoom (atPickedScheme_checks h)
  intro cap schemes
  cases cap
  simp

/-- A parameter of a scheme is validated before it is stored. -/
theorem ktsIfcStoreSchemeParm_checks (param : KtsIfcSchemeParam) (value : Int) :
    Checks (ktsIfcStoreSchemeParm param value) := by
  cases param <;> simp [ktsIfcStoreSchemeParm]

/-- The texts of KTS-IFC are checked for presence and length before they are copied. -/
theorem ktsIfcSetParamString_checks (param : KtsIfcParam) (value : Option String) :
    Checks (ktsIfcSetParamString param value) := by
  cases param <;> simp [ktsIfcSetParamString]

/-- The texts of a scheme are checked for presence and length before they are copied. -/
theorem ktsIfcSetSchemeString_checks (scheme : Int) (param : KtsIfcSchemeParam)
    (value : Option String) : Checks (ktsIfcSetSchemeString scheme param value) := by
  refine Op.clean_ite_iff.2 ⟨fun _ => Op.clean_answer _, fun _ => ktsIfcAtScheme_checks ?_⟩
  cases param <;> simp

/-- A generation method of the safe primes is appended without a check that could fail. -/
theorem safePrimesSetParm_checks (param : SafePrimesParam) (mode : Int) :
    Checks (safePrimesSetParm param mode) := by
  cases param <;> simp [safePrimesSetParm]

/-- {lit}`amvp_cap_safe_primes_set_parm` refuses every other cipher before it appends. -/
theorem capSafePrimesSetParm_checks (cipher : Cipher) (param : SafePrimesParam) (mode : Int) :
    (capSafePrimesSetParm cipher param mode).Checks := by
  unfold capSafePrimesSetParm
  split <;>
    first
    | exact CapAction.checks_member (safePrimesSetParm_checks param mode).uncounted
    | exact CapAction.checks_atEntry_refuse

/-- The functions that enable an algorithm check first. -/
theorem enable_checks {call : CapCall} {cipher : Cipher} (h : call.enables = some cipher) :
    call.action.Checks := by
  have haction := CapCall.enables_action h
  generalize call.action = a at haction
  cases haction with
  | refuse hrv => exact CapAction.checks_refuse
  | append type handler => exact CapAction.checks_append

/-! ## Key derivation for key agreement -/

/-- A range of a KDA is compared with its lower end before it is stored. -/
theorem kdaSetRange_checks {σ : Type} (lower min max increment : Int) (f : σ → σ) :
    Checks (kdaSetRange lower min max increment f) := by
  simp [kdaSetRange]

/-- The domains of the one-step KDA are checked before they are stored. -/
theorem kdaOnestepSetDomain_checks (param : KdaParm) (min max increment : Int) :
    Checks (kdaOnestepSetDomain param min max increment) := by
  cases param <;> simp [kdaOnestepSetDomain, kdaSetRange_checks]

/-- The domains of HKDF are checked before they are stored. -/
theorem kdaHkdfSetDomain_checks (param : KdaParm) (min max increment : Int) :
    Checks (kdaHkdfSetDomain param min max increment) := by
  unfold kdaHkdfSetDomain
  cases param with
  | z => exact kdaSetRange_checks _ _ _ _ _
  | useHybridSecret =>
      apply Op.Clean.inspect
      intro cap
      simp [kdaSetRange_checks]
  | _ => exact Op.clean_answer _

/-- {lit}`amvp_cap_kda_set_domain` checks first, for every cipher it serves. -/
theorem capKdaSetDomain_checks (cipher : Cipher) (param : KdaParm) (min max increment : Int) :
    (capKdaSetDomain cipher param min max increment).Checks := by
  unfold capKdaSetDomain
  split
  · exact CapAction.checks_member (kdaOnestepSetDomain_checks param min max increment).uncounted
  · exact CapAction.checks_member (kdaHkdfSetDomain_checks param min max increment).uncounted
  · simp

end LibAmvp
