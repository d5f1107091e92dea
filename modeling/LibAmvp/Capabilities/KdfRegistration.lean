import LibAmvp.Capabilities.Calls

/-!
# The registration of two key derivation functions

What the library sends to the server for the key derivation functions of SP 800-108 and of
ANSI X9.42, and which capabilities the functions of the capability interface can build for
them.  Every list of a capability was checked when it was filled, so that its entries are
names and lengths that the interface knows.

Main results:

- Theorem {lit}`Kdf108Built.content`: a capability for SP 800-108 is registrable.
- Theorem {lit}`X942Built.content`: a capability for ANSI X9.42 is registrable.
-/

namespace LibAmvp

/-! ## The head of a registration -/

/-- {lit}`amvp_lookup_cipher_name`. -/
def lookupCipherName : Cipher → Option String
  | .aesGcm => some "AMVP-AES-GCM"
  | .aesGcmSiv => some "AMVP-AES-GCM-SIV"
  | .aesCcm => some "AMVP-AES-CCM"
  | .aesEcb => some "AMVP-AES-ECB"
  | .aesCbc => some "AMVP-AES-CBC"
  | .aesCbcCs1 => some "AMVP-AES-CBC-CS1"
  | .aesCbcCs2 => some "AMVP-AES-CBC-CS2"
  | .aesCbcCs3 => some "AMVP-AES-CBC-CS3"
  | .aesCfb1 => some "AMVP-AES-CFB1"
  | .aesCfb8 => some "AMVP-AES-CFB8"
  | .aesCfb128 => some "AMVP-AES-CFB128"
  | .aesOfb => some "AMVP-AES-OFB"
  | .aesCtr => some "AMVP-AES-CTR"
  | .aesXts => some "AMVP-AES-XTS"
  | .aesKw => some "AMVP-AES-KW"
  | .aesKwp => some "AMVP-AES-KWP"
  | .aesGmac => some "AMVP-AES-GMAC"
  | .aesXpn => some "AMVP-AES-XPN"
  | .tdesEcb => some "AMVP-TDES-ECB"
  | .tdesCbc => some "AMVP-TDES-CBC"
  | .tdesCbci => some "AMVP-TDES-CBCI"
  | .tdesOfb => some "AMVP-TDES-OFB"
  | .tdesOfbi => some "AMVP-TDES-OFBI"
  | .tdesCfb1 => some "AMVP-TDES-CFB1"
  | .tdesCfb8 => some "AMVP-TDES-CFB8"
  | .tdesCfb64 => some "AMVP-TDES-CFB64"
  | .tdesCfbp1 => some "AMVP-TDES-CFBP1"
  | .tdesCfbp8 => some "AMVP-TDES-CFBP8"
  | .tdesCfbp64 => some "AMVP-TDES-CFBP64"
  | .tdesCtr => some "AMVP-TDES-CTR"
  | .tdesKw => some "AMVP-TDES-KW"
  | .hashSha1 => some "SHA-1"
  | .hashSha224 => some "SHA2-224"
  | .hashSha256 => some "SHA2-256"
  | .hashSha384 => some "SHA2-384"
  | .hashSha512 => some "SHA2-512"
  | .hashSha512_224 => some "SHA2-512/224"
  | .hashSha512_256 => some "SHA2-512/256"
  | .hashSha3_224 => some "SHA3-224"
  | .hashSha3_256 => some "SHA3-256"
  | .hashSha3_384 => some "SHA3-384"
  | .hashSha3_512 => some "SHA3-512"
  | .hashShake128 => some "SHAKE-128"
  | .hashShake256 => some "SHAKE-256"
  | .hashdrbg => some "hashDRBG"
  | .hmacdrbg => some "hmacDRBG"
  | .ctrdrbg => some "ctrDRBG"
  | .hmacSha1 => some "HMAC-SHA-1"
  | .hmacSha2_224 => some "HMAC-SHA2-224"
  | .hmacSha2_256 => some "HMAC-SHA2-256"
  | .hmacSha2_384 => some "HMAC-SHA2-384"
  | .hmacSha2_512 => some "HMAC-SHA2-512"
  | .hmacSha2_512_224 => some "HMAC-SHA2-512/224"
  | .hmacSha2_512_256 => some "HMAC-SHA2-512/256"
  | .hmacSha3_224 => some "HMAC-SHA3-224"
  | .hmacSha3_256 => some "HMAC-SHA3-256"
  | .hmacSha3_384 => some "HMAC-SHA3-384"
  | .hmacSha3_512 => some "HMAC-SHA3-512"
  | .cmacAes => some "CMAC-AES"
  | .cmacTdes => some "CMAC-TDES"
  | .kmac128 => some "KMAC-128"
  | .kmac256 => some "KMAC-256"
  | .dsaKeygen | .dsaPqggen | .dsaPqgver | .dsaSiggen | .dsaSigver => some "DSA"
  | .rsaKeygen | .rsaSiggen | .rsaSigver | .rsaDecprim | .rsaSigprim => some "RSA"
  | .ecdsaKeygen | .ecdsaKeyver | .ecdsaSiggen | .ecdsaSigver => some "ECDSA"
  | .kdf135Snmp | .kdf135Ssh | .kdf135Srtp | .kdf135Ikev2 | .kdf135Ikev1 | .kdf135X942
  | .kdf135X963 => some "kdf-components"
  | .kdf108 => some "KDF"
  | .pbkdf => some "PBKDF"
  | .kdfTls12 => some "TLS-v1.2"
  | .kdfTls13 => some "TLS-v1.3"
  | .kasEccCdh | .kasEccComp | .kasEccNocomp => some "KAS-ECC"
  | .kasEccSsc => some "KAS-ECC-SSC"
  | .kasFfcComp | .kasFfcNocomp => some "KAS-FFC"
  | .kasFfcSsc => some "KAS-FFC-SSC"
  | .kasIfcSsc => some "KAS-IFC-SSC"
  | .kdaOnestep | .kdaTwostep | .kdaHkdf => some "KDA"
  | .ktsIfc => some "KTS-IFC"
  | .safePrimesKeygen | .safePrimesKeyver => some "safePrimes"
  | .cipherStart | .cipherEnd | .other _ => none

/-- {lit}`amvp_lookup_cipher_revision`. -/
def lookupCipherRevision (cipher : Cipher) : Option String :=
  match cipher with
  | .aesXts | .hashSha3_224 | .hashSha3_256 | .hashSha3_384 | .hashSha3_512 => some "2.0"
  | .rsaKeygen | .rsaSiggen | .rsaSigver => some "FIPS186-4"
  | .kasEccSsc | .kasFfcSsc => some "Sp800-56Ar3"
  | .kasIfcSsc | .ktsIfc => some "Sp800-56Br2"
  | .kdaOnestep | .kdaTwostep | .kdaHkdf => some "Sp800-56Cr2"
  | .kdfTls12 => some "RFC7627"
  | .kdfTls13 => some "RFC8446"
  | cipher => if cipher.isAlgorithm then some "1.0" else none

/-- {lit}`amvp_prereqs_tbl`. -/
def PrereqAlg.name : PrereqAlg → Option String
  | .aes => some "AES"
  | .ccm => some "CCM"
  | .cmac => some "CMAC"
  | .drbg => some "DRBG"
  | .dsa => some "DSA"
  | .ecdsa => some "ECDSA"
  | .hmac => some "HMAC"
  | .kas => some "KAS"
  | .rsa => some "RSA"
  | .rsadp => some "RSADP"
  | .safePrimes => some "safePrimes"
  | .sha => some "SHA"
  | .tdes => some "TDES"
  | .kmac => some "KMAC"
  | .other _ => none

/-- The object of a prerequisite; an unknown one has no members. -/
def prereqObject (prereq : Prereq) : JsonObject :=
  match prereq.alg.name with
  | none => []
  | some name =>
    jsonObjectSetString (jsonObjectSetText [] "algorithm" (some name)) "valValue" prereq.val

/-- {lit}`amvp_lookup_prereqVals`. -/
def lookupPrereqVals (capObj : JsonObject) (entry : CapsEntry) : JsonObject :=
  if entry.hasPrereq = 0 then capObj
  else
    jsonObjectSetValue capObj "prereqVals" (.arr (entry.prereqVals.map fun p => .obj (prereqObject p)))

/-- The object of a range of lengths. -/
def rangeObject (d : Domain) : Json :=
  .obj [("min", .num d.min), ("max", .num d.max), ("increment", .num d.increment)]

/-! ## SP 800-108 -/

/-- {lit}`amvp_build_kdf108_mode_register`. -/
def buildKdf108ModeRegister (modeObj : JsonObject) (params : Kdf108ModeParams) : JsonObject :=
  let obj := jsonObjectSetValue modeObj "macMode" (.arr (params.macMode.map .str))
  let range := if params.supportedLens.increment ≠ 0 then [rangeObject params.supportedLens] else []
  let obj := jsonObjectSetValue obj "supportedLengths"
    (.arr (range ++ params.supportedLens.values.map fun n : Int => .num n))
  let obj := jsonObjectSetValue obj "fixedDataOrder" (.arr (params.dataOrder.map .str))
  let obj := jsonObjectSetValue obj "counterLength" (.arr (params.counterLens.map fun n : Int => .num n))
  let obj := jsonObjectSetBoolean obj "supportsEmptyIv" params.emptyIvSupport
  if params.emptyIvSupport ≠ 0 then
    jsonObjectSetBoolean obj "requiresEmptyIv" params.requiresEmptyIv
  else obj

/-- The object of a mode that has a name, under the name that is registered for it. -/
def kdf108ModeObject (kdfMode : String) (params : Kdf108ModeParams) : List Json :=
  if params.kdfMode.isSome then
    [.obj (buildKdf108ModeRegister (jsonObjectSetText [] "kdfMode" (some kdfMode)) params)]
  else []

/-- {lit}`amvp_build_kdf108_register_cap`. -/
def buildKdf108RegisterCap (capObj : JsonObject) (entry : CapsEntry) (cap : Kdf108Cap) :
    Except AmvpResult JsonObject := do
  let obj := jsonObjectSetText capObj "algorithm" (some "KDF")
  match lookupCipherRevision entry.cipher with
  | none => .error .invalidArg
  | some revision =>
    let obj := jsonObjectSetText obj "revision" (some revision)
    let obj := lookupPrereqVals obj entry
    pure (jsonObjectSetValue obj "capabilities" (.arr (kdf108ModeObject "counter" cap.counterMode ++
      kdf108ModeObject "feedback" cap.feedbackMode ++ kdf108ModeObject "dpi" cap.dpiMode)))

/-! ## ANSI X9.42 -/

/-- The names of the types of the derivation. -/
def x942KdfTypes (type : Int) : Option (List String) :=
  if type = 0 then some ["DER"]
  else if type = 1 then some ["concatenation"]
  else if type = 2 then some ["DER", "concatenation"]
  else none

/-- {lit}`amvp_build_kdf135_x942_register_cap`. -/
def buildKdf135X942RegisterCap (capObj : JsonObject) (entry : CapsEntry) (cap : Kdf135X942Cap) :
    Except AmvpResult JsonObject := do
  let obj := jsonObjectSetText capObj "algorithm" (some "kdf-components")
  match lookupCipherRevision entry.cipher with
  | none => .error .invalidArg
  | some revision =>
    let obj := jsonObjectSetText obj "revision" (some revision)
    let obj := jsonObjectSetText obj "mode" (some "ansix9.42")
    let obj := lookupPrereqVals obj entry
    match x942KdfTypes cap.type with
    | none => .error .invalidArg
    | some types =>
      let obj := jsonObjectSetValue obj "kdfType" (.arr (types.map .str))
      let obj := jsonObjectSetValue obj "keyLen" (.arr [rangeObject cap.keyLen])
      let obj := jsonObjectSetValue obj "otherInfoLen" (.arr [rangeObject cap.otherLen])
      let obj := jsonObjectSetValue obj "suppInfoLen" (.arr [rangeObject cap.suppLen])
      let obj := jsonObjectSetValue obj "zzLen" (.arr [rangeObject cap.zzLen])
      let obj := jsonObjectSetValue obj "hashAlg" (.arr (cap.hashAlgs.map .str))
      pure (if cap.type = 0 ∨ cap.type = 2 then
        jsonObjectSetValue obj "oid" (.arr (cap.oids.map .str)) else obj)

/-! ## What calls build -/

/-- A setter on the content of an entry: what it answers and what it leaves. -/
theorem CapAction.content_of_run {cipher : Cipher} {m : Member} {op : Setter m.Data} {s s' : Caps}
    {rv : AmvpResult} {d : m.Data} (hd : s.content cipher m = some d)
    (h : (CapAction.atEntry cipher (.member m (uncounted op))).run s = .ok (rv, s')) :
    ∃ d', op d = .ok (rv, d') ∧ s'.content cipher m = some d' := by
  rcases run_atEntry_eq_ok h with ⟨hnone, -, -⟩ | ⟨e, e', vsCount, hlocate, hact, rfl⟩
  · simp [Caps.content, hnone] at hd
  obtain ⟨hm, d', hop, he'⟩ := viaMember_eq_ok hact
  dsimp only at hm d' hop he'
  subst hm he'
  have hfound : (Keyed.setFirst (fun e => e.cipher == cipher) { e with cap := d' }
      s.capsList).find? (fun e => e.cipher == cipher) = some { e with cap := d' } := by
    refine Keyed.find?_setFirst hlocate ?_
    simp [Caps.locate_cipher hlocate]
  have hcap : e.cap = d := by simpa [Caps.content, hlocate] using hd
  obtain ⟨d₁, hd₁, hpair⟩ := Op.zoom_eq_ok_iff.mp hop
  cases hpair
  rw [hcap] at hd₁
  refine ⟨d', hd₁, ?_⟩
  simp [Caps.content, Caps.locate, hfound]

/-- A setter on the content of an entry that is there can be carried out. -/
theorem CapAction.run_of_content {cipher : Cipher} {m : Member} {op : Setter m.Data} {s : Caps}
    {rv : AmvpResult} {d d' : m.Data} (hd : s.content cipher m = some d)
    (hop : op d = .ok (rv, d')) :
    ∃ s', (CapAction.atEntry cipher (.member m (uncounted op))).run s = .ok (rv, s') := by
  cases hlocate : s.locate cipher with
  | none => simp [Caps.content, hlocate] at hd
  | some e =>
      by_cases hm : m = e.capType.member
      · subst hm
        have hcap : e.cap = d := by simpa [Caps.content, hlocate] using hd
        simp only [run, hlocate, EntryAction.run, viaMember, uncounted, Op.zoom, dite_true, hcap,
          hop]
        exact ⟨_, rfl⟩
      · simp [Caps.content, hlocate, Ne.symm hm] at hd

/-- Work on the entry of a cipher leaves the other entries alone. -/
theorem CapAction.locate_of_run {cipher other : Cipher} {act : EntryAction} {s s' : Caps}
    {rv : AmvpResult} (h : (CapAction.atEntry cipher act).run s = .ok (rv, s'))
    (hother : other ≠ cipher) : s'.locate other = s.locate other := by
  rcases run_atEntry_eq_ok h with ⟨-, -, rfl⟩ | ⟨e, e', vsCount, hlocate, hact, rfl⟩
  · rfl
  · have hcipher : e.cipher = cipher := Caps.locate_cipher hlocate
    have hcipher' : e'.cipher = e.cipher := congrArg Prod.fst (EntryAction.run_tag hact)
    refine Keyed.find?_setFirst_of_not hlocate ?_ ?_
    · simpa [hcipher] using hother.symm
    · simpa [hcipher', hcipher] using hother.symm

/-- The content of an entry that was just appended. -/
theorem content_of_append {type : CapType} {cipher : Cipher} {handler : CryptoHandler}
    {s s' : Caps} (h : capListAppend type cipher handler s = .ok (.success, s')) :
    s'.content cipher type.member = some type.member.allocate := by
  rcases capListAppend_eq_ok h with ⟨-, hlocate, -, hlist, -⟩ | ⟨hfailed, -⟩
  swap
  · exact absurd rfl hfailed
  have hnew : s'.locate cipher = some (.new type cipher handler) := by
    unfold Caps.locate at hlocate ⊢
    rw [hlist, List.find?_append, hlocate]
    simp [CapsEntry.new]
  simp [Caps.content, hnew, CapsEntry.new]

/-- The parameters of a mode that can be registered: known names, and lengths within the
limits of the interface. -/
structure Kdf108ModeParams.Registrable (params : Kdf108ModeParams) : Prop where
  macMode : ∀ name ∈ params.macMode, ∃ value, kdf108MacModeStr value = some name
  dataOrder : ∀ name ∈ params.dataOrder, ∃ value, kdf108FixedDataOrderStr value = some name
  counterLens : ∀ n ∈ params.counterLens, IsInt n ∧ n ≤ 32 ∧ n % 8 = 0
  values : ∀ n ∈ params.supportedLens.values, 1 ≤ n ∧ n ≤ kdf108KeyinBitMax
  max : params.supportedLens.max ≤ kdf108KeyinBitMax

/-- A capability for SP 800-108 that can be registered. -/
structure Kdf108Cap.Registrable (cap : Kdf108Cap) : Prop where
  counter : cap.counterMode.Registrable
  feedback : cap.feedbackMode.Registrable
  dpi : cap.dpiMode.Registrable

theorem registrable_kdf108ModeParams : Kdf108ModeParams.Registrable {} where
  macMode := by simp
  dataOrder := by simp
  counterLens := by simp
  values := by simp
  max := by decide

theorem kdf108StoreParm_keeps {param : Kdf108Parm} {value : Int} (hint : IsInt value)
    (hvalid : validateKdf108ParamValue param value = .success) :
    Op.Keeps Kdf108ModeParams.Registrable (kdf108StoreParm param value) := by
  unfold kdf108StoreParm
  cases param with
  | macMode =>
      cases hname : kdf108MacModeStr value with
      | none => exact .answer _
      | some name =>
          refine .store fun params h => { h with macMode := ?_ }
          intro name' hname'
          rcases List.mem_append.mp hname' with hold | hnew
          · exact h.macMode name' hold
          · rw [List.mem_singleton.mp hnew]
            exact ⟨value, hname⟩
  | fixedDataOrder =>
      cases hname : kdf108FixedDataOrderStr value with
      | none => exact .answer _
      | some name =>
          refine .store fun params h => { h with dataOrder := ?_ }
          intro name' hname'
          rcases List.mem_append.mp hname' with hold | hnew
          · exact h.dataOrder name' hold
          · rw [List.mem_singleton.mp hnew]
            exact ⟨value, hname⟩
  | counterLen =>
      refine .store fun params h => { h with counterLens := ?_ }
      intro n hn
      rcases List.mem_append.mp hn with hold | hnew
      · exact h.counterLens n hold
      · rw [List.mem_singleton.mp hnew]
        exact ⟨hint, passes_eq_success_iff.mp hvalid⟩
  | supportedLen =>
      refine .store fun params h => { h with values := ?_ }
      intro n hn
      rcases List.mem_append.mp hn with hold | hnew
      · exact h.values n hold
      · rw [List.mem_singleton.mp hnew]
        exact passes_eq_success_iff.mp hvalid
  | supportsEmptyIv => exact .store fun params h => { h with }
  | requiresEmptyIv =>
      refine .inspect fun params => .ite (fun _ => .answer _) fun _ => ?_
      exact .store fun params h => { h with }
  | _ => exact .answer _

theorem kdf108AtMode_keeps {mode : Kdf108Mode} {op : String → Setter Kdf108ModeParams}
    (hop : ∀ name, Op.Keeps Kdf108ModeParams.Registrable (op name)) :
    Op.Keeps Kdf108Cap.Registrable (kdf108AtMode mode op) := by
  unfold kdf108AtMode
  cases mode with
  | counter => exact .zoom (fun _ h => h.counter) (fun _ _ h hm => { h with counter := hm }) (hop _)
  | feedback =>
      exact .zoom (fun _ h => h.feedback) (fun _ _ h hm => { h with feedback := hm }) (hop _)
  | dpi => exact .zoom (fun _ h => h.dpi) (fun _ _ h hm => { h with dpi := hm }) (hop _)
  | other raw => exact .answer _

theorem kdf108SetParm_keeps (mode : Kdf108Mode) (param : Kdf108Parm) {value : Int}
    (hint : IsInt value) : Op.Keeps Kdf108Cap.Registrable (kdf108SetParm mode param value) := by
  refine .ite (fun _ => .answer _) fun hvalid => kdf108AtMode_keeps fun name => ?_
  refine .changed (fun params h => { h with }) ?_
  exact kdf108StoreParm_keeps hint (not_not.mp hvalid)

theorem kdf108StoreDomain_keeps (param : Kdf108Parm) {min max increment : Int}
    (hmax : max ≤ kdf108KeyinBitMax) :
    Op.Keeps Kdf108ModeParams.Registrable (kdf108StoreDomain param min max increment) := by
  unfold kdf108StoreDomain
  cases param with
  | supportedLen => exact .store fun params h => { h with max := hmax }
  | _ => exact .answer _

/-- The contexts in which successful calls of the functions for SP 800-108, from the one that
enables it on, have built its capability, with no other calls between them. -/
inductive Kdf108Built : Caps → Prop
  | enable {s s' : Caps} {handler : Option CryptoHandler}
      (h : (CapCall.kdf108Enable handler).exec s = .ok (.success, s')) : Kdf108Built s'
  | setParm {s s' : Caps} {mode : Kdf108Mode} {param : Kdf108Parm} {value : Int}
      (hs : Kdf108Built s) (hint : IsInt value)
      (h : (CapCall.kdf108SetParm mode param value).exec s = .ok (.success, s')) : Kdf108Built s'
  | setDomain {s s' : Caps} {mode : Kdf108Mode} {param : Kdf108Parm} {min max increment : Int}
      (hs : Kdf108Built s)
      (h : (CapCall.kdf108SetDomain mode param min max increment).exec s = .ok (.success, s')) :
      Kdf108Built s'

/-- A capability for SP 800-108 is registrable. -/
theorem Kdf108Built.content {s : Caps} (h : Kdf108Built s) :
    ∃ cap, s.content .kdf108 .kdf108Cap = some cap ∧ cap.Registrable := by
  induction h with
  | @enable s s' handler h =>
      cases handler with
      | none => cases h
      | some handler =>
          have hnew : Kdf108Cap.Registrable {} :=
            ⟨registrable_kdf108ModeParams, registrable_kdf108ModeParams,
              registrable_kdf108ModeParams⟩
          exact ⟨{}, content_of_append h, hnew⟩
  | @setParm s s' mode param value hs hint h ih =>
      obtain ⟨cap, hcap, hregistrable⟩ := ih
      obtain ⟨cap', hop, hcap'⟩ := CapAction.content_of_run hcap h
      exact ⟨cap', hcap', kdf108SetParm_keeps mode param hint cap _ cap' hregistrable hop⟩
  | @setDomain s s' mode param min max increment hs h ih =>
      obtain ⟨cap, hcap, hregistrable⟩ := ih
      by_cases hlimits : min = 0 ∨ max > kdf108KeyinBitMax
      · simp only [CapCall.exec, CapCall.action, capKdf108SetDomain, if_pos hlimits] at h
        rcases CapAction.run_atEntry_eq_ok h with ⟨-, hrv, -⟩ | ⟨e, e', n, -, hact, -⟩
        · cases hrv
        · cases hact
      · simp only [CapCall.exec, CapCall.action, capKdf108SetDomain, if_neg hlimits] at h
        obtain ⟨cap', hop, hcap'⟩ := CapAction.content_of_run hcap h
        have hmax : max ≤ kdf108KeyinBitMax := by
          rw [not_or] at hlimits
          exact not_lt.mp hlimits.2
        exact ⟨cap', hcap', kdf108AtMode_keeps (fun _ => kdf108StoreDomain_keeps param hmax) cap _
          cap' hregistrable hop⟩

/-- A range of lengths of X9.42 that can be registered. -/
def Domain.WithinX942 (d : Domain) : Prop := 0 ≤ d.min ∧ d.max ≤ 4096

/-- A capability for ANSI X9.42 that can be registered. -/
structure Kdf135X942Cap.Registrable (cap : Kdf135X942Cap) : Prop where
  type : cap.type = 0 ∨ cap.type = 1
  hashAlgs : ∀ name ∈ cap.hashAlgs, ∃ value, lookupHashAlgName value = some name
  keyLen : cap.keyLen.WithinX942
  otherLen : cap.otherLen.WithinX942
  suppLen : cap.suppLen.WithinX942
  zzLen : cap.zzLen.WithinX942

theorem registrable_kdf135X942Cap : Kdf135X942Cap.Registrable {} where
  type := .inl rfl
  hashAlgs := by simp
  keyLen := by constructor <;> decide
  otherLen := by constructor <;> decide
  suppLen := by constructor <;> decide
  zzLen := by constructor <;> decide

theorem kdf135X942SetParm_keeps (param : Kdf135X942Parm) (value : Int) :
    Op.Keeps Kdf135X942Cap.Registrable (kdf135X942SetParm param value) := by
  unfold kdf135X942SetParm
  cases param with
  | kdfType =>
      refine .ite (fun hvalue => ?_) fun _ => .answer _
      exact .store fun cap h => { h with type := hvalue }
  | hashAlg =>
      cases hname : lookupHashAlgName value with
      | none => exact .answer _
      | some name =>
          refine .store fun cap h => { h with hashAlgs := ?_ }
          intro name' hname'
          rcases List.mem_append.mp hname' with hold | hnew
          · exact h.hashAlgs name' hold
          · rw [List.mem_singleton.mp hnew]
            exact ⟨value, hname⟩
  | oid =>
      cases x942OidStr value with
      | none => exact .answer _
      | some name => exact .store fun cap h => { h with }
  | _ => exact .answer _

theorem kdf135X942SetDomain_keeps (param : Kdf135X942Parm) (min max increment : Int) :
    Op.Keeps Kdf135X942Cap.Registrable (kdf135X942SetDomain param min max increment) := by
  refine .ite (fun _ => .answer _) fun hvalid => ?_
  rw [not_not] at hvalid
  cases param with
  | keyLen =>
      have hlimits := passes_eq_success_iff.mp hvalid
      exact .store fun cap h => { h with keyLen := ⟨by dsimp [Domain.withRange]; omega, hlimits.2.1⟩ }
  | zzLen =>
      have hlimits := passes_eq_success_iff.mp hvalid
      exact .store fun cap h => { h with zzLen := ⟨by dsimp [Domain.withRange]; omega, hlimits.2.1⟩ }
  | otherInfoLen =>
      have hlimits := passes_eq_success_iff.mp hvalid
      exact .store fun cap h => { h with otherLen := ⟨hlimits.1, hlimits.2.1⟩ }
  | suppInfoLen =>
      have hlimits := passes_eq_success_iff.mp hvalid
      exact .store fun cap h => { h with suppLen := ⟨hlimits.1, hlimits.2.1⟩ }
  | _ => exact .answer _

/-- The contexts in which successful calls of the functions for ANSI X9.42, from the one that
enables it on, have built its capability, with no other calls between them. -/
inductive X942Built : Caps → Prop
  | enable {s s' : Caps} {handler : Option CryptoHandler}
      (h : (CapCall.kdf135X942Enable handler).exec s = .ok (.success, s')) : X942Built s'
  | setParm {s s' : Caps} {param : Kdf135X942Parm} {value : Int} (hs : X942Built s)
      (h : (CapCall.kdf135X942SetParm param value).exec s = .ok (.success, s')) : X942Built s'
  | setDomain {s s' : Caps} {param : Kdf135X942Parm} {min max increment : Int} (hs : X942Built s)
      (h : (CapCall.kdf135X942SetDomain param min max increment).exec s = .ok (.success, s')) :
      X942Built s'

/-- A capability for ANSI X9.42 is registrable. -/
theorem X942Built.content {s : Caps} (h : X942Built s) :
    ∃ cap, s.content .kdf135X942 .kdf135X942Cap = some cap ∧ cap.Registrable := by
  induction h with
  | @enable s s' handler h =>
      cases handler with
      | none => cases h
      | some handler => exact ⟨{}, content_of_append h, registrable_kdf135X942Cap⟩
  | @setParm s s' param value hs h ih =>
      obtain ⟨cap, hcap, hregistrable⟩ := ih
      obtain ⟨cap', hop, hcap'⟩ := CapAction.content_of_run hcap h
      exact ⟨cap', hcap', kdf135X942SetParm_keeps param value cap _ cap' hregistrable hop⟩
  | @setDomain s s' param min max increment hs h ih =>
      obtain ⟨cap, hcap, hregistrable⟩ := ih
      obtain ⟨cap', hop, hcap'⟩ := CapAction.content_of_run hcap h
      exact ⟨cap', hcap',
        kdf135X942SetDomain_keeps param min max increment cap _ cap' hregistrable hop⟩

end LibAmvp
