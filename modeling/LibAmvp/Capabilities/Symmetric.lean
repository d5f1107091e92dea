import LibAmvp.Capabilities.Entries

/-!
# Prerequisites, ciphers, hashes and message authentication

The functions of the capability interface for prerequisites, symmetric ciphers, hash
functions, HMAC, CMAC and KMAC.
-/

namespace LibAmvp

/-! ## Checks -/

/-- The result of a check. -/
def passes (c : Prop) [Decidable c] : AmvpResult := if c then .success else .invalidArg

theorem passes_eq_success_iff {c : Prop} [Decidable c] : passes c = .success ↔ c := by
  rw [passes]
  split <;> simp [*]

/-- {lit}`is_valid_tf_param`. -/
def isValidTfParam (value : Int) : AmvpResult := passes (value = 0 ∨ value = 1)

/-- The largest value of the C type {lit}`int`. -/
def intMax : Int := 2 ^ 31 - 1

/-- The smallest value of the C type {lit}`int`. -/
def intMin : Int := -2 ^ 31

/-! ## Prerequisites -/

/-- {lit}`amvp_validate_prereq_val`. -/
def validatePrereqVal (cipher : Cipher) (preReq : PrereqAlg) : AmvpResult :=
  match cipher with
  | .aesGcm | .aesGcmSiv | .aesCcm | .aesEcb | .aesCfb1 | .aesCfb8 | .aesCfb128 | .aesCtr
  | .aesOfb | .aesCbc | .aesCbcCs1 | .aesCbcCs2 | .aesCbcCs3 | .aesKw | .aesKwp | .aesXts
  | .aesGmac | .aesXpn => passes (preReq ∈ [.aes, .drbg])
  | .tdesEcb | .tdesCbc | .tdesOfb | .tdesCfb64 | .tdesCfb8 | .tdesCfb1 | .tdesKw =>
    passes (preReq = .tdes)
  | .hashdrbg => passes (preReq = .sha)
  | .hmacdrbg => passes (preReq ∈ [.sha, .hmac])
  | .ctrdrbg => passes (preReq ∈ [.aes, .tdes])
  | .hmacSha1 | .hmacSha2_224 | .hmacSha2_256 | .hmacSha2_384 | .hmacSha2_512
  | .hmacSha2_512_224 | .hmacSha2_512_256 | .hmacSha3_224 | .hmacSha3_256 | .hmacSha3_384
  | .hmacSha3_512 => passes (preReq = .sha)
  | .cmacAes | .cmacTdes => passes (preReq ∈ [.aes, .sha, .tdes])
  | .dsaKeygen | .dsaPqggen | .dsaPqgver | .dsaSiggen | .dsaSigver =>
    passes (preReq ∈ [.sha, .drbg])
  | .rsaKeygen | .rsaSiggen | .rsaSigver | .rsaSigprim | .rsaDecprim
  | .ecdsaKeygen | .ecdsaKeyver | .ecdsaSiggen | .ecdsaSigver => passes (preReq ∈ [.sha, .drbg])
  | .kdf135Snmp | .kdf135Ssh => passes (preReq ∈ [.sha, .hmac, .tdes, .aes])
  | .kdf135Srtp => passes (preReq = .aes)
  | .kdf135Ikev2 | .kdf135Ikev1 => passes (preReq ∈ [.drbg, .sha])
  | .kdf108 => passes (preReq ∈ [.drbg, .hmac, .cmac, .kas])
  | .pbkdf => passes (preReq = .hmac)
  | .kdfTls12 => passes (preReq ∈ [.hmac, .sha])
  | .kdfTls13 => passes (preReq = .hmac)
  | .kasEccComp | .kasEccSsc | .kasEccNocomp =>
    passes (preReq ∈ [.drbg, .hmac, .cmac, .sha, .ccm, .ecdsa])
  | .kasEccCdh => passes (preReq = .ecdsa)
  | .kasFfcComp | .kasFfcNocomp | .kasFfcSsc =>
    passes (preReq ∈ [.drbg, .hmac, .cmac, .sha, .safePrimes, .ccm, .dsa])
  | .ktsIfc => passes (preReq ∈ [.drbg, .hmac, .sha, .rsa, .rsadp])
  | .kasIfcSsc => passes (preReq ∈ [.drbg, .hmac, .sha, .rsa, .rsadp])
  | .kdaOnestep => passes (preReq ∈ [.drbg, .hmac, .kmac, .sha])
  | .kdaTwostep => passes (preReq ∈ [.drbg, .hmac, .sha])
  | .kdaHkdf => passes (preReq ∈ [.drbg, .hmac, .sha])
  | .kdf135X942 => passes (preReq = .sha)
  | .kdf135X963 => passes (preReq = .sha)
  | .safePrimesKeygen | .safePrimesKeyver => passes (preReq ∈ [.drbg, .sha])
  | _ => .invalidArg

/-- {lit}`amvp_add_prereq_val`, on {lit}`has_prereq` and the list. -/
def addPrereqVal (cipher : Cipher) (preReq : PrereqAlg) (value : String) :
    Setter (Int × List Prereq) :=
  if validatePrereqVal cipher preReq = .success then
    accept fun s => (s.1, s.2 ++ [{ alg := preReq, val := some value }])
  else refuse (validatePrereqVal cipher preReq)

/-- {lit}`amvp_cap_set_prereq`. -/
def capSetPrereq (cipher : Cipher) (preReqCap : PrereqAlg) (value : Option String) : CapAction :=
  match value with
  | none => .refuse .invalidArg
  | some value =>
    if value.isEmpty then .refuse .invalidArg
    else
      .atEntry cipher
        (.prereq (Op.changed (fun s => (1, s.2)) (addPrereqVal cipher preReqCap value)))

/-! ## Symmetric ciphers -/

/-- {lit}`AMVP_SYM_CIPH_PARM`. -/
inductive SymCiphParm where
  | keylen | taglen | ivlen | ptlen | tweak | aadlen | kwMode | parmDir | parmKo
  | parmPerformCtr | parmCtrIncr | parmCtrOvrflw | parmIvgenMode | parmIvgenSrc
  | parmSaltSrc | parmConformance | parmDulenMatchesPayloadlen
  | other (raw : Int)
deriving DecidableEq

/-- {lit}`AMVP_SYM_CIPH_DOMAIN_PARM`. -/
inductive SymCiphDomainParm where
  | ivlen | ptlen | aadlen | dulen
  | other (raw : Int)
deriving DecidableEq

def symKwMax : Int := 3
def symCiphDirMax : Int := 4
def symCiphKoMax : Int := 6
def symCiphIvgenSrcEither : Int := 3
def symCiphIvgenSrcMax : Int := 5
def symCiphIvgenModeMax : Int := 4
def symCiphSaltSrcMax : Int := 4
def conformanceRfc3686 : Int := 1
def symCiphTweakHex : Int := 1
def symCiphTweakNone : Int := 3

/-- The ciphers of the symmetric functions. -/
def Cipher.isSym (cipher : Cipher) : Bool := cipher.isAes || cipher.isTdes

/-- {lit}`amvp_validate_sym_cipher_parm_value`. -/
def validateSymCipherParmValue (cipher : Cipher) (parm : SymCiphParm) (value : Int) : AmvpResult :=
  match parm with
  | .keylen =>
    if cipher.isAes then passes (value = 128 ∨ value = 192 ∨ value = 256)
    else if cipher.isTdes then passes (value = 192)
    else .invalidArg
  | .taglen =>
    match cipher with
    | .aesGcm | .aesGmac | .aesCcm | .aesXpn => passes (0 < value ∧ value % 8 = 0 ∧ value ≤ 128)
    | _ => .invalidArg
  | .ivlen =>
    match cipher with
    | .aesGcm | .aesGcmSiv | .aesCcm | .aesGmac | .tdesCbc | .aesOfb | .tdesCfb1 | .tdesOfb
    | .tdesCfb8 | .tdesCfb64 => passes (8 ≤ value ∧ value ≤ 1024)
    | _ => .invalidArg
  | .tweak =>
    passes (cipher = .aesXts ∧ symCiphTweakHex ≤ value ∧ value < symCiphTweakNone)
  | .aadlen =>
    match cipher with
    | .aesGcm | .aesGcmSiv | .aesCcm | .aesEcb | .aesCbc | .aesCfb1 | .aesCfb8 | .aesCfb128
    | .aesOfb | .aesCtr | .aesGmac | .aesXpn => passes (0 ≤ value ∧ value ≤ 65536)
    | _ => .invalidArg
  | .ptlen =>
    match cipher with
    | .aesGmac => .invalidArg
    | _ => passes (0 ≤ value ∧ value ≤ 65536)
  | _ => .invalidArg

/-- The bounds that {lit}`amvp_validate_sym_cipher_domain_value` has for a cipher. -/
def symCipherDomainBounds (cipher : Cipher) (parm : SymCiphDomainParm)
    (min max increment : Int) : AmvpResult :=
  match cipher, parm with
  | .aesGcm, .ivlen => passes (8 ≤ min ∧ max ≤ 1024)
  | .aesGcm, .ptlen => passes (0 ≤ min ∧ max ≤ 65536)
  | .aesGcm, .aadlen => passes (0 ≤ min ∧ max ≤ 65536)
  | .aesGcmSiv, .ptlen => passes (0 ≤ min ∧ max ≤ 65536 ∧ increment = 8)
  | .aesGcmSiv, .aadlen => passes (0 ≤ min ∧ max ≤ 65536 ∧ increment = 8)
  | .aesCcm, .ivlen => passes (56 ≤ min ∧ max ≤ 104 ∧ increment = 8)
  | .aesCcm, .ptlen => passes (0 ≤ min ∧ max ≤ 256 ∧ increment = 8)
  | .aesCcm, .aadlen => passes (0 ≤ min ∧ max ≤ 524288)
  | .aesCbcCs1, .ptlen | .aesCbcCs2, .ptlen | .aesCbcCs3, .ptlen =>
    passes (128 ≤ min ∧ max ≤ 65536)
  | .aesCtr, .ptlen => passes (1 ≤ min ∧ max ≤ 128)
  | .aesXts, .ptlen => passes (128 ≤ min ∧ max ≤ 65536)
  | .aesXts, .dulen => passes (128 ≤ min ∧ max ≤ 65536 ∧ increment % 8 = 0)
  | .aesKw, .ptlen => passes (128 ≤ min ∧ max ≤ 524288 ∧ increment % 8 = 0)
  | .aesKwp, .ptlen => passes (0 ≤ min ∧ max ≤ 524288)
  | .aesGmac, .ivlen => passes (8 ≤ min ∧ max ≤ 1024 ∧ increment % 8 = 0)
  | .aesGmac, .aadlen => passes (0 ≤ min ∧ max ≤ 65536 ∧ increment % 8 = 0)
  | .aesXpn, .ivlen => passes (8 ≤ min ∧ max ≤ 1024)
  | .aesXpn, .ptlen => passes (0 ≤ min ∧ max ≤ 65536)
  | .aesXpn, .aadlen => passes (0 ≤ min ∧ max ≤ 65536)
  | .tdesCtr, .ptlen | .tdesKw, .ptlen => passes (0 ≤ min ∧ max ≤ 65536)
  | _, _ => .invalidArg

/-- {lit}`amvp_validate_sym_cipher_domain_value`. -/
def validateSymCipherDomainValue (cipher : Cipher) (parm : SymCiphDomainParm)
    (min max increment : Int) : AmvpResult :=
  if min > max ∨ min < 0 ∨ increment ≤ 0 then .invalidArg
  else if (max - min) % increment ≠ 0 then .invalidArg
  else symCipherDomainBounds cipher parm min max increment

/-- The work of {lit}`amvp_cap_sym_cipher_set_domain` on the content. -/
def symCipherSetDomain (cipher : Cipher) (parm : SymCiphDomainParm) (min max increment : Int) :
    Setter SymCipherCap :=
  let valid := validateSymCipherDomainValue cipher parm min max increment = .success
  match parm with
  | .ivlen =>
    Op.inspect fun cap =>
      if cap.ivlen ≠ [] then refuse .invalidArg
      else if valid then
        accept fun cap => { cap with ivLen := cap.ivLen.withRange min max increment }
      else refuse .invalidArg
  | .ptlen =>
    Op.inspect fun cap =>
      if cap.ptlen ≠ [] then refuse .invalidArg
      else if valid then
        accept fun cap => { cap with payloadLen := cap.payloadLen.withRange min max increment }
      else refuse .invalidArg
  | .aadlen =>
    Op.inspect fun cap =>
      if cap.aadlen ≠ [] then refuse .invalidArg
      else if valid then
        accept fun cap => { cap with aadLen := cap.aadLen.withRange min max increment }
      else refuse .invalidArg
  | .dulen =>
    Op.inspect fun cap =>
      if cap.dulenMatchesPaylen ≠ 0 then refuse .invalidArg
      else if cipher ≠ .aesXts then refuse .invalidArg
      else if valid then
        accept fun cap => { cap with duLen := cap.duLen.withRange min max increment }
      else refuse .invalidArg
  | .other _ => refuse .invalidArg

/-- {lit}`amvp_cap_sym_cipher_set_domain`. -/
def capSymCipherSetDomain (cipher : Cipher) (parm : SymCiphDomainParm)
    (min max increment : Int) : CapAction :=
  if cipher.isSym then
    .atEntry cipher
      (.member .symCap (uncounted (symCipherSetDomain cipher parm min max increment)))
  else .refuse .invalidArg

/-- Append a length unless {lit}`amvp_is_domain_already_set` holds of its domain. -/
def appendUnlessDomain (domain : SymCipherCap → Domain) (append : SymCipherCap → SymCipherCap) :
    Setter SymCipherCap :=
  Op.inspect fun cap =>
    let sum := (domain cap).min + (domain cap).max + (domain cap).increment
    if sum > intMax then Op.trap .overflow
    else if sum ≠ 0 then refuse .invalidArg
    else accept append

/-- The lengths that {lit}`amvp_cap_sym_cipher_set_parm` appends at its end. -/
def symCipherAppendParm (parm : SymCiphParm) (value : Int) : EntryAction :=
  match parm with
  | .keylen => .store .symCap fun cap => { cap with keylen := cap.keylen ++ [value] }
  | .taglen => .store .symCap fun cap => { cap with taglen := cap.taglen ++ [value] }
  | .ivlen =>
    .member .symCap
      (uncounted (appendUnlessDomain SymCipherCap.ivLen
        fun cap => { cap with ivlen := cap.ivlen ++ [value] }))
  | .ptlen =>
    .member .symCap
      (uncounted (appendUnlessDomain SymCipherCap.payloadLen
        fun cap => { cap with ptlen := cap.ptlen ++ [value] }))
  | .tweak => .store .symCap fun cap => { cap with tweak := cap.tweak ++ [value] }
  | .aadlen =>
    .member .symCap
      (uncounted (appendUnlessDomain SymCipherCap.aadLen
        fun cap => { cap with aadlen := cap.aadlen ++ [value] }))
  | _ => .refuse .invalidArg

/-- The work of {lit}`amvp_cap_sym_cipher_set_parm` on the entry. -/
def symCipherSetParm (cipher : Cipher) (parm : SymCiphParm) (value : Int) : EntryAction :=
  match parm with
  | .kwMode =>
    if value < symKwMax then
      .store .symCap fun cap => { cap with kwMode := intOr cap.kwMode value }
    else .refuse .invalidArg
  | .parmDir =>
    if 0 < value ∧ value < symCiphDirMax then
      .store .symCap fun cap => { cap with direction := value }
    else .refuse .invalidArg
  | .parmKo =>
    if 0 < value ∧ value < symCiphKoMax then
      .store .symCap fun cap => { cap with keyingOption := value }
    else .refuse .invalidArg
  | .parmPerformCtr =>
    if value = 0 ∨ value = 1 then
      .store .symCap fun cap => { cap with performCtrTests := value }
    else .refuse .invalidArg
  | .parmCtrIncr =>
    -- the entry is read for a warning before the value is checked
    .member .symCap (uncounted (
      if value = 0 ∨ value = 1 then accept fun cap => { cap with ctrIncr := value }
      else refuse .invalidArg))
  | .parmCtrOvrflw =>
    .member .symCap (uncounted (
      if value = 0 ∨ value = 1 then accept fun cap => { cap with ctrOvrflw := value }
      else refuse .invalidArg))
  | .parmIvgenSrc =>
    if 0 < value ∧ value < symCiphIvgenSrcMax then
      .member .symCap (accept fun s =>
        ({ s.1 with ivgenSource := value },
          if value = symCiphIvgenSrcEither then s.2 + 1 else s.2))
    else .refuse .invalidArg
  | .parmIvgenMode =>
    if 0 < value ∧ value < symCiphIvgenModeMax then
      .store .symCap fun cap => { cap with ivgenMode := value }
    else .refuse .invalidArg
  | .parmSaltSrc =>
    if cipher = .aesXpn ∧ 0 < value ∧ value < symCiphSaltSrcMax then
      .store .symCap fun cap => { cap with saltSource := value }
    else .refuse .invalidArg
  | .parmConformance =>
    if cipher = .aesCtr ∧ value = conformanceRfc3686 then
      .store .symCap fun cap => { cap with conformance := conformanceRfc3686 }
    else .refuse .invalidArg
  | .parmDulenMatchesPayloadlen =>
    if cipher ≠ .aesXts then .refuse .invalidArg
    else
      .member .symCap (uncounted (Op.inspect fun cap =>
        if cap.duLen.max ≠ 0 ∨ cap.duLen.increment ≠ 0 then refuse .invalidArg
        else if value = 0 ∨ value = 1 then
          accept fun cap => { cap with dulenMatchesPaylen := value }
        else refuse .invalidArg))
  | parm =>
    if validateSymCipherParmValue cipher parm value = .success then
      symCipherAppendParm parm value
    else .refuse .invalidArg

/-- {lit}`amvp_cap_sym_cipher_set_parm`. -/
def capSymCipherSetParm (cipher : Cipher) (parm : SymCiphParm) (value : Int) : CapAction :=
  if cipher.isSym then .atEntry cipher (symCipherSetParm cipher parm value)
  else .refuse .invalidArg

/-- {lit}`amvp_cap_sym_cipher_enable`. -/
def capSymCipherEnable (cipher : Cipher) (handler : Option CryptoHandler) : CapAction :=
  withHandler handler fun handler =>
    if cipher.isSym then .append .sym cipher handler else .refuse .invalidArg

end LibAmvp
