import LibAmvp.Capabilities.Signatures

/-!
# Key derivation

The functions of the capability interface for the key derivation functions of SP 800-135
and SP 800-108, for PBKDF and for TLS.
-/

namespace LibAmvp

/-! ## Enabling -/

/-- The functions that enable the algorithm they are named after. -/
def enableOnly (type : CapType) (cipher : Cipher) (handler : Option CryptoHandler) : CapAction :=
  withHandler handler fun handler => .append type cipher handler

/-- {lit}`amvp_cap_kdf135_snmp_enable`. -/
def capKdf135SnmpEnable := enableOnly .kdf135Snmp .kdf135Snmp

/-- {lit}`amvp_cap_kdf135_ssh_enable`. -/
def capKdf135SshEnable := enableOnly .kdf135Ssh .kdf135Ssh

/-- {lit}`amvp_cap_kdf135_srtp_enable`. -/
def capKdf135SrtpEnable := enableOnly .kdf135Srtp .kdf135Srtp

/-- {lit}`amvp_cap_kdf135_ikev2_enable`. -/
def capKdf135Ikev2Enable := enableOnly .kdf135Ikev2 .kdf135Ikev2

/-- {lit}`amvp_cap_kdf135_ikev1_enable`. -/
def capKdf135Ikev1Enable := enableOnly .kdf135Ikev1 .kdf135Ikev1

/-- {lit}`amvp_cap_kdf135_x942_enable`. -/
def capKdf135X942Enable := enableOnly .kdf135X942 .kdf135X942

/-- {lit}`amvp_cap_kdf135_x963_enable`. -/
def capKdf135X963Enable := enableOnly .kdf135X963 .kdf135X963

/-- {lit}`amvp_cap_kdf108_enable`. -/
def capKdf108Enable := enableOnly .kdf108 .kdf108

/-- {lit}`amvp_cap_pbkdf_enable`. -/
def capPbkdfEnable := enableOnly .pbkdf .pbkdf

/-- {lit}`amvp_cap_kdf_tls12_enable`. -/
def capKdfTls12Enable := enableOnly .kdfTls12 .kdfTls12

/-- {lit}`amvp_cap_kdf_tls13_enable`. -/
def capKdfTls13Enable := enableOnly .kdfTls13 .kdfTls13

/-! ## SNMP -/

/-- {lit}`AMVP_KDF135_SNMP_PARAM`. -/
inductive Kdf135SnmpParam where
  | passLen | engid
  | other (raw : Int)
deriving DecidableEq

def kdf135SnmpPassLenMin : Int := 64
def kdf135SnmpPassLenMax : Int := 8192
def kdf135SnmpEngidMaxStr : Nat := 64

/-- {lit}`amvp_cap_kdf135_snmp_set_parm`. -/
def capKdf135SnmpSetParm (kcap : Cipher) (param : Kdf135SnmpParam) (value : Int) : CapAction :=
  if param ≠ .passLen then .refuse .invalidArg
  else if value < kdf135SnmpPassLenMin ∨ value > kdf135SnmpPassLenMax then .refuse .invalidArg
  else
    .atEntry kcap (.store .kdf135SnmpCap fun cap => { cap with passLens := cap.passLens ++ [value] })

/-- {lit}`amvp_cap_kdf135_snmp_set_engid`. -/
def capKdf135SnmpSetEngid (kcap : Cipher) (engid : Option String) : CapAction :=
  match engid with
  | none => .refuse .invalidArg
  | some engid =>
    if engid.length > kdf135SnmpEngidMaxStr then .refuse .invalidArg
    else
      .atEntry kcap (.store .kdf135SnmpCap fun cap => { cap with engIds := cap.engIds ++ [engid] })

/-! ## PBKDF -/

/-- {lit}`AMVP_PBKDF_PARM`. -/
inductive PbkdfParm where
  | paramMin | iterationCount | keyLen | passwordLen | saltLen | hmacAlg
  | other (raw : Int)
deriving DecidableEq

def pbkdfIterationMin : Int := 1
def pbkdfIterationMax : Int := 10000000
def pbkdfKeyBitMin : Int := 112
def pbkdfKeyBitMax : Int := 4096
def pbkdfPassLenMin : Int := 8
def pbkdfPassLenMax : Int := 128
def pbkdfSaltLenBitMin : Int := 128
def pbkdfSaltLenBitMax : Int := 4096

/-- Change a member when the ends of a range are within bounds. -/
def storeBetween (lower upper min max : Int) (m : Member) (f : m.Data → m.Data) : EntryAction :=
  if min < lower ∨ max > upper then .refuse .invalidArg else .store m f

/-- {lit}`amvp_cap_pbkdf_set_domain`. -/
def capPbkdfSetDomain (param : PbkdfParm) (min max increment : Int) : CapAction :=
  .atEntry .pbkdf (
    if max < min ∨ increment < 1 then .refuse .invalidArg
    else
      match param with
      | .iterationCount =>
        storeBetween pbkdfIterationMin pbkdfIterationMax min max .pbkdfCap fun cap =>
          { cap with
            iterationCountDomain := cap.iterationCountDomain.withRange min max increment }
      | .keyLen =>
        storeBetween pbkdfKeyBitMin pbkdfKeyBitMax min max .pbkdfCap fun cap =>
          { cap with keyLenDomain := cap.keyLenDomain.withRange min max increment }
      | .passwordLen =>
        storeBetween pbkdfPassLenMin pbkdfPassLenMax min max .pbkdfCap fun cap =>
          { cap with passwordLenDomain := cap.passwordLenDomain.withRange min max increment }
      | .saltLen =>
        storeBetween pbkdfSaltLenBitMin pbkdfSaltLenBitMax min max .pbkdfCap fun cap =>
          { cap with saltLenDomain := cap.saltLenDomain.withRange min max increment }
      | _ => .refuse .invalidArg)

/-- Append a name unless {lit}`amvp_is_in_name_list` finds it. -/
def appendNew (names : List String) (name : String) : List String :=
  if name ∈ names then names else names ++ [name]

/-- The work of {lit}`amvp_cap_pbkdf_set_parm` on the content. -/
def pbkdfSetParm (param : PbkdfParm) (value : Int) : Setter PbkdfCap :=
  if param ≠ .hmacAlg then refuse .invalidArg
  else
    match lookupHashAlgName value with
    | none => refuse .invalidArg
    | some name => accept fun cap => { cap with hmacAlgs := appendNew cap.hmacAlgs name }

/-- {lit}`amvp_cap_pbkdf_set_parm`. -/
def capPbkdfSetParm (param : PbkdfParm) (value : Int) : CapAction :=
  .atEntry .pbkdf (.member .pbkdfCap (uncounted (pbkdfSetParm param value)))

/-! ## SSH and SRTP -/

/-- {lit}`AMVP_SSH_METH_MAX`. -/
def sshMethMax : Int := 5

/-- The bits of a hash algorithm are set in a value. -/
def hasHash (value : Int) (alg : HashAlg) : Bool := intAnd value alg.toInt ≠ 0

/-- {lit}`amvp_validate_kdf135_ssh_param_value`. -/
def validateKdf135SshParamValue (method param : Int) : AmvpResult :=
  if method < sshMethMax ∧ method > 0 then
    if [HashAlg.sha3_224, .sha3_256, .sha3_384, .sha3_512].any (hasHash param) then .invalidArg
    else if [HashAlg.sha1, .sha224, .sha256, .sha384, .sha512].any (hasHash param) then .success
    else .invalidArg
  else .invalidArg

/-- The work of {lit}`amvp_cap_kdf135_ssh_set_parm` on the content. -/
def kdf135SshSetParm (method param : Int) : Setter Kdf135SshCap :=
  if validateKdf135SshParamValue method param ≠ .success then refuse .invalidArg
  else
    accept fun cap => { cap with method := insert method cap.method, sha := intOr cap.sha param }

/-- {lit}`amvp_cap_kdf135_ssh_set_parm`. -/
def capKdf135SshSetParm (kcap : Cipher) (method param : Int) : CapAction :=
  .atEntry kcap (.member .kdf135SshCap (uncounted (kdf135SshSetParm method param)))

/-- {lit}`AMVP_KDF135_SRTP_PARAM`. -/
inductive Kdf135SrtpParam where
  | aesKeylen | supportZeroKdr | kdfExponent
  | other (raw : Int)
deriving DecidableEq

/-- {lit}`AMVP_KDF135_SRTP_KDR_MAX`. -/
def kdf135SrtpKdrMax : Int := 24

/-- {lit}`amvp_validate_kdf135_srtp_param_value`. -/
def validateKdf135SrtpParamValue (param : Kdf135SrtpParam) (value : Int) : AmvpResult :=
  match param with
  | .aesKeylen => passes (value = 128 ∨ value = 192 ∨ value = 256)
  | .supportZeroKdr => isValidTfParam value
  | .kdfExponent => passes (1 ≤ value ∧ value ≤ 24)
  | .other _ => .invalidArg

/-- The work of {lit}`amvp_cap_kdf135_srtp_set_parm` on the content. -/
def kdf135SrtpSetParm (param : Kdf135SrtpParam) (value : Int) : Setter Kdf135SrtpCap :=
  if validateKdf135SrtpParamValue param value ≠ .success then refuse .invalidArg
  else
    match param with
    | .aesKeylen =>
      if value ≠ 128 ∧ value ≠ 192 ∧ value ≠ 256 then refuse .invalidArg
      else accept fun cap => { cap with aesKeylens := cap.aesKeylens ++ [value] }
    | .supportZeroKdr =>
      if isValidTfParam value ≠ .success then refuse .invalidArg
      else accept fun cap => { cap with supportsZeroKdr := value }
    | .kdfExponent =>
      if value = 0 ∨ value > kdf135SrtpKdrMax then refuse .invalidArg
      else accept fun cap => { cap with kdrExp := insert value cap.kdrExp }
    | .other _ => refuse .invalidArg

/-- {lit}`amvp_cap_kdf135_srtp_set_parm`. -/
def capKdf135SrtpSetParm (cipher : Cipher) (param : Kdf135SrtpParam) (value : Int) : CapAction :=
  if cipher ≠ .kdf135Srtp then .refuse .invalidArg
  else .atEntry cipher (.member .kdf135SrtpCap (uncounted (kdf135SrtpSetParm param value)))

/-! ## SP 800-108 -/

/-- {lit}`AMVP_KDF108_MODE`. -/
inductive Kdf108Mode where
  | counter | feedback | dpi
  | other (raw : Int)
deriving DecidableEq

/-- {lit}`AMVP_KDF108_PARM`. -/
inductive Kdf108Parm where
  | paramMin | kdfMode | macMode | supportedLen | fixedDataOrder | counterLen
  | supportsEmptyIv | requiresEmptyIv | paramMax
  | other (raw : Int)
deriving DecidableEq

def kdf108MacModeMin : Int := 0
def kdf108MacModeMax : Int := 16
def kdf108FixedDataOrderMin : Int := 0
def kdf108FixedDataOrderMax : Int := 6
def kdf108KeyinBitMax : Int := 4096

/-- {lit}`amvp_validate_kdf108_param_value`; the ends of the enumeration are checked like a
length. -/
def validateKdf108ParamValue (param : Kdf108Parm) (value : Int) : AmvpResult :=
  match param with
  | .macMode => passes (value > kdf108MacModeMin ∧ value < kdf108MacModeMax)
  | .fixedDataOrder => passes (value > kdf108FixedDataOrderMin ∧ value < kdf108FixedDataOrderMax)
  | .counterLen => passes (value ≤ 32 ∧ value % 8 = 0)
  | .supportsEmptyIv | .requiresEmptyIv => isValidTfParam value
  | .paramMin | .paramMax | .supportedLen => passes (1 ≤ value ∧ value ≤ kdf108KeyinBitMax)
  | _ => .invalidArg

/-- The names of the MAC modes that can be registered. -/
def kdf108MacModeStr (value : Int) : Option String :=
  if value = 1 then some "CMAC-AES128"
  else if value = 2 then some "CMAC-AES192"
  else if value = 3 then some "CMAC-AES256"
  else if value = 4 then some "CMAC-TDES"
  else if value = 5 then some "HMAC-SHA-1"
  else if value = 6 then some "HMAC-SHA2-224"
  else if value = 7 then some "HMAC-SHA2-256"
  else if value = 8 then some "HMAC-SHA2-384"
  else if value = 9 then some "HMAC-SHA2-512"
  else none

/-- The names of the orders of fixed data. -/
def kdf108FixedDataOrderStr (value : Int) : Option String :=
  if value = 1 then some "none"
  else if value = 2 then some "after fixed data"
  else if value = 3 then some "before fixed data"
  else if value = 4 then some "middle fixed data"
  else if value = 5 then some "before iterator"
  else none

/-- The last switch of {lit}`amvp_cap_kdf108_set_parm`. -/
def kdf108StoreParm (param : Kdf108Parm) (value : Int) : Setter Kdf108ModeParams :=
  match param with
  | .macMode =>
    match kdf108MacModeStr value with
    | none => refuse .invalidArg
    | some name => accept fun mode => { mode with macMode := mode.macMode ++ [name] }
  | .counterLen => accept fun mode => { mode with counterLens := mode.counterLens ++ [value] }
  | .fixedDataOrder =>
    match kdf108FixedDataOrderStr value with
    | none => refuse .invalidArg
    | some name => accept fun mode => { mode with dataOrder := mode.dataOrder ++ [name] }
  | .supportsEmptyIv => accept fun mode => { mode with emptyIvSupport := value }
  | .requiresEmptyIv =>
    Op.inspect fun mode =>
      if mode.emptyIvSupport = 0 then refuse .invalidArg
      else accept fun mode => { mode with requiresEmptyIv := value }
  | .supportedLen =>
    accept fun mode => { mode with supportedLens := mode.supportedLens.withValue value }
  | _ => refuse .invalidArg

/-- Name a mode that has no name yet. -/
def Kdf108ModeParams.named (name : String) (mode : Kdf108ModeParams) : Kdf108ModeParams :=
  { mode with kdfMode := some (mode.kdfMode.getD name) }

/-- Work on the parameters of a mode; the work is given the name of the mode. -/
def kdf108AtMode (mode : Kdf108Mode) (op : String → Setter Kdf108ModeParams) : Setter Kdf108Cap :=
  match mode with
  | .counter =>
    Op.zoom Kdf108Cap.counterMode (fun m cap => { cap with counterMode := m }) (op "counter")
  | .feedback =>
    Op.zoom Kdf108Cap.feedbackMode (fun m cap => { cap with feedbackMode := m }) (op "feedback")
  | .dpi =>
    Op.zoom Kdf108Cap.dpiMode (fun m cap => { cap with dpiMode := m })
      (op "double pipeline iteration")
  | .other _ => refuse .invalidArg

/-- The work of {lit}`amvp_cap_kdf108_set_parm` on the content. -/
def kdf108SetParm (mode : Kdf108Mode) (param : Kdf108Parm) (value : Int) : Setter Kdf108Cap :=
  if validateKdf108ParamValue param value ≠ .success then refuse .invalidArg
  else
    kdf108AtMode mode fun name =>
      Op.changed (Kdf108ModeParams.named name) (kdf108StoreParm param value)

/-- {lit}`amvp_cap_kdf108_set_parm`. -/
def capKdf108SetParm (mode : Kdf108Mode) (param : Kdf108Parm) (value : Int) : CapAction :=
  .atEntry .kdf108 (.member .kdf108Cap (uncounted (kdf108SetParm mode param value)))

/-- The work of {lit}`amvp_cap_kdf108_set_domain` on a mode. -/
def kdf108StoreDomain (param : Kdf108Parm) (min max increment : Int) : Setter Kdf108ModeParams :=
  match param with
  | .supportedLen =>
    accept fun mode =>
      { mode with supportedLens := mode.supportedLens.withRange min max increment }
  | _ => refuse .invalidArg

/-- {lit}`amvp_cap_kdf108_set_domain`. -/
def capKdf108SetDomain (mode : Kdf108Mode) (param : Kdf108Parm) (min max increment : Int) :
    CapAction :=
  .atEntry .kdf108 (
    if min = 0 ∨ max > kdf108KeyinBitMax then .refuse .invalidArg
    else
      .member .kdf108Cap
        (uncounted (kdf108AtMode mode fun _ => kdf108StoreDomain param min max increment)))

/-! ## IKE -/

/-- {lit}`AMVP_KDF135_IKEV2_PARM`. -/
inductive Kdf135Ikev2Parm where
  | hashAlg | initNonceLen | respondNonceLen | dhSecretLen | keyMaterialLen
  | other (raw : Int)
deriving DecidableEq

/-- {lit}`AMVP_KDF135_IKEV1_PARM`. -/
inductive Kdf135Ikev1Parm where
  | hashAlg | authMethod | initNonceLen | respondNonceLen | dhSecretLen | pskLen
  | other (raw : Int)
deriving DecidableEq

def kdf135Ikev2InitNonceBitMin : Int := 64
def kdf135Ikev2InitNonceBitMax : Int := 2048
def kdf135Ikev2RespNonceBitMin : Int := 64
def kdf135Ikev2RespNonceBitMax : Int := 2048
def kdf135Ikev2DhSharedSecretBitMin : Int := 224
def kdf135Ikev2DhSharedSecretBitMax : Int := 8192
def kdf135Ikev2DkeyMaterialBitMin : Int := 160
def kdf135Ikev2DkeyMaterialBitMax : Int := 16384
def kdf135Ikev1InitNonceBitMin : Int := 64
def kdf135Ikev1InitNonceBitMax : Int := 2048
def kdf135Ikev1RespNonceBitMin : Int := 64
def kdf135Ikev1RespNonceBitMax : Int := 2048
def kdf135Ikev1DhSharedSecretBitMin : Int := 224
def kdf135Ikev1DhSharedSecretBitMax : Int := 8192
def kdf135Ikev1PskBitMin : Int := 8
def kdf135Ikev1PskBitMax : Int := 8192

/-- The name of a hash algorithm, when it is one of those listed. -/
def nameAmong (algs : List HashAlg) (value : Int) : Option String :=
  ((HashAlg.ofInt value).filter (· ∈ algs)).map HashAlg.name

/-- The hash algorithms of both versions of IKE. -/
def ikeHashAlgs : List HashAlg := [.sha1, .sha224, .sha256, .sha384, .sha512]

/-- The work of {lit}`amvp_cap_kdf135_ikev2_set_parm` on the content. -/
def kdf135Ikev2SetParm (param : Kdf135Ikev2Parm) (value : Int) : Setter Kdf135Ikev2Cap :=
  if param ≠ .hashAlg then refuse .invalidArg
  else
    match nameAmong ikeHashAlgs value with
    | none => refuse .invalidArg
    | some name => accept fun cap => { cap with hashAlgs := cap.hashAlgs ++ [name] }

/-- {lit}`amvp_cap_kdf135_ikev2_set_parm`. -/
def capKdf135Ikev2SetParm (param : Kdf135Ikev2Parm) (value : Int) : CapAction :=
  .atEntry .kdf135Ikev2 (.member .kdf135Ikev2Cap (uncounted (kdf135Ikev2SetParm param value)))

/-- Change the content when the ends of a range are within bounds. -/
def acceptBetween {σ : Type} (lower upper min max : Int) (f : σ → σ) : Setter σ :=
  if min < lower ∨ max > upper then refuse .invalidArg else accept f

/-- The work of {lit}`amvp_cap_kdf135_ikev2_set_length` on the content. -/
def kdf135Ikev2SetLength (param : Kdf135Ikev2Parm) (value : Int) : Setter Kdf135Ikev2Cap :=
  match param with
  | .initNonceLen =>
    acceptBetween kdf135Ikev2InitNonceBitMin kdf135Ikev2InitNonceBitMax value value fun cap =>
      { cap with initNonceLenDomain := cap.initNonceLenDomain.withValue value }
  | .respondNonceLen =>
    acceptBetween kdf135Ikev2RespNonceBitMin kdf135Ikev2RespNonceBitMax value value fun cap =>
      { cap with respondNonceLenDomain := cap.respondNonceLenDomain.withValue value }
  | .dhSecretLen =>
    acceptBetween kdf135Ikev2DhSharedSecretBitMin kdf135Ikev2DhSharedSecretBitMax value value
      fun cap => { cap with dhSecretLen := cap.dhSecretLen.withValue value }
  | .keyMaterialLen =>
    acceptBetween kdf135Ikev2DkeyMaterialBitMin kdf135Ikev2DkeyMaterialBitMax value value
      fun cap => { cap with keyMaterialLen := cap.keyMaterialLen.withValue value }
  | _ => refuse .invalidArg

/-- {lit}`amvp_cap_kdf135_ikev2_set_length`. -/
def capKdf135Ikev2SetLength (param : Kdf135Ikev2Parm) (value : Int) : CapAction :=
  .atEntry .kdf135Ikev2 (.member .kdf135Ikev2Cap (uncounted (kdf135Ikev2SetLength param value)))

/-- {lit}`amvp_cap_kdf135_ikev2_set_domain`. -/
def capKdf135Ikev2SetDomain (param : Kdf135Ikev2Parm) (min max increment : Int) : CapAction :=
  .atEntry .kdf135Ikev2 (
    match param with
    | .initNonceLen =>
      storeBetween kdf135Ikev2InitNonceBitMin kdf135Ikev2InitNonceBitMax min max .kdf135Ikev2Cap
        fun cap =>
          { cap with initNonceLenDomain := cap.initNonceLenDomain.withRange min max increment }
    | .respondNonceLen =>
      storeBetween kdf135Ikev2RespNonceBitMin kdf135Ikev2RespNonceBitMax min max .kdf135Ikev2Cap
        fun cap =>
          { cap with
            respondNonceLenDomain := cap.respondNonceLenDomain.withRange min max increment }
    | .dhSecretLen =>
      storeBetween kdf135Ikev2DhSharedSecretBitMin kdf135Ikev2DhSharedSecretBitMax min max
        .kdf135Ikev2Cap fun cap =>
          { cap with dhSecretLen := cap.dhSecretLen.withRange min max increment }
    | .keyMaterialLen =>
      storeBetween kdf135Ikev2DkeyMaterialBitMin kdf135Ikev2DkeyMaterialBitMax min max
        .kdf135Ikev2Cap fun cap =>
          { cap with keyMaterialLen := cap.keyMaterialLen.withRange min max increment }
    | _ => .refuse .invalidArg)

/-- The names of the authentication methods. -/
def ikev1AuthMethodStr (value : Int) : Option String :=
  if value = 1 then some "dsa"
  else if value = 2 then some "psk"
  else if value = 3 then some "pke"
  else none

/-- The work of {lit}`amvp_cap_kdf135_ikev1_set_parm` on the content. -/
def kdf135Ikev1SetParm (param : Kdf135Ikev1Parm) (value : Int) : Setter Kdf135Ikev1Cap :=
  match param with
  | .hashAlg =>
    match nameAmong ikeHashAlgs value with
    | none => refuse .invalidArg
    | some name => accept fun cap => { cap with hashAlgs := cap.hashAlgs ++ [name] }
  | .authMethod =>
    match ikev1AuthMethodStr value with
    | none => refuse .invalidArg
    | some name => accept fun cap => { cap with authMethod := name }
  | _ => refuse .invalidArg

/-- {lit}`amvp_cap_kdf135_ikev1_set_parm`. -/
def capKdf135Ikev1SetParm (param : Kdf135Ikev1Parm) (value : Int) : CapAction :=
  .atEntry .kdf135Ikev1 (.member .kdf135Ikev1Cap (uncounted (kdf135Ikev1SetParm param value)))

/-- {lit}`amvp_cap_kdf135_ikev1_set_domain`. -/
def capKdf135Ikev1SetDomain (param : Kdf135Ikev1Parm) (min max increment : Int) : CapAction :=
  .atEntry .kdf135Ikev1 (
    match param with
    | .initNonceLen =>
      storeBetween kdf135Ikev1InitNonceBitMin kdf135Ikev1InitNonceBitMax min max .kdf135Ikev1Cap
        fun cap =>
          { cap with initNonceLenDomain := cap.initNonceLenDomain.withRange min max increment }
    | .respondNonceLen =>
      storeBetween kdf135Ikev1RespNonceBitMin kdf135Ikev1RespNonceBitMax min max .kdf135Ikev1Cap
        fun cap =>
          { cap with
            respondNonceLenDomain := cap.respondNonceLenDomain.withRange min max increment }
    | .dhSecretLen =>
      storeBetween kdf135Ikev1DhSharedSecretBitMin kdf135Ikev1DhSharedSecretBitMax min max
        .kdf135Ikev1Cap fun cap =>
          { cap with dhSecretLen := cap.dhSecretLen.withRange min max increment }
    | .pskLen =>
      storeBetween kdf135Ikev1PskBitMin kdf135Ikev1PskBitMax min max .kdf135Ikev1Cap fun cap =>
        { cap with pskLen := cap.pskLen.withRange min max increment }
    | _ => .refuse .invalidArg)

/-! ## ANSI X9.42 and X9.63 -/

/-- {lit}`AMVP_KDF135_X942_PARM`. -/
inductive Kdf135X942Parm where
  | kdfType | keyLen | otherInfoLen | suppInfoLen | zzLen | oid | hashAlg
  | other (raw : Int)
deriving DecidableEq

/-- {lit}`AMVP_KDF135_X963_PARM`. -/
inductive Kdf135X963Parm where
  | hashAlg | keyDataLen | fieldSize | sharedInfoLen
  | other (raw : Int)
deriving DecidableEq

/-- {lit}`amvp_validate_kdf135_x942_domain_value`. -/
def validateKdf135X942DomainValue (param : Kdf135X942Parm) (min max inc : Int) : AmvpResult :=
  match param with
  | .keyLen | .zzLen => passes (min ≥ 1 ∧ max ≤ 4096 ∧ inc % 8 = 0)
  | .otherInfoLen | .suppInfoLen => passes (min ≥ 0 ∧ max ≤ 4096 ∧ inc % 8 = 0)
  | _ => .invalidArg

/-- The work of {lit}`amvp_cap_kdf135_x942_set_domain` on the content. -/
def kdf135X942SetDomain (param : Kdf135X942Parm) (min max increment : Int) :
    Setter Kdf135X942Cap :=
  if validateKdf135X942DomainValue param min max increment ≠ .success then refuse .invalidArg
  else
    match param with
    | .keyLen => accept fun cap => { cap with keyLen := cap.keyLen.withRange min max increment }
    | .otherInfoLen =>
      accept fun cap => { cap with otherLen := cap.otherLen.withRange min max increment }
    | .suppInfoLen =>
      accept fun cap => { cap with suppLen := cap.suppLen.withRange min max increment }
    | .zzLen => accept fun cap => { cap with zzLen := cap.zzLen.withRange min max increment }
    | _ => refuse .invalidArg

/-- {lit}`amvp_cap_kdf135_x942_set_domain`. -/
def capKdf135X942SetDomain (param : Kdf135X942Parm) (min max increment : Int) : CapAction :=
  .atEntry .kdf135X942
    (.member .kdf135X942Cap (uncounted (kdf135X942SetDomain param min max increment)))

/-- The names of the object identifiers. -/
def x942OidStr (value : Int) : Option String :=
  if value = 0 then some "TDES"
  else if value = 1 then some "AES-128-KW"
  else if value = 2 then some "AES-192-KW"
  else if value = 3 then some "AES-256-KW"
  else none

/-- The work of {lit}`amvp_cap_kdf135_x942_set_parm` on the content. -/
def kdf135X942SetParm (param : Kdf135X942Parm) (value : Int) : Setter Kdf135X942Cap :=
  match param with
  | .kdfType =>
    if value = 0 ∨ value = 1 then accept fun cap => { cap with type := value }
    else refuse .invalidArg
  | .hashAlg =>
    match lookupHashAlgName value with
    | none => refuse .invalidArg
    | some name => accept fun cap => { cap with hashAlgs := cap.hashAlgs ++ [name] }
  | .oid =>
    match x942OidStr value with
    | none => refuse .invalidArg
    | some name => accept fun cap => { cap with oids := cap.oids ++ [name] }
  | _ => refuse .invalidArg

/-- {lit}`amvp_cap_kdf135_x942_set_parm`. -/
def capKdf135X942SetParm (param : Kdf135X942Parm) (value : Int) : CapAction :=
  .atEntry .kdf135X942 (.member .kdf135X942Cap (uncounted (kdf135X942SetParm param value)))

def kdf135X963KeydataMinBits : Int := 128
def kdf135X963KeydataMaxBits : Int := 4096
def kdf135X963FieldSizes : List Int := [224, 233, 256, 283, 384, 409, 521, 571]
def kdf135X963SharedInfoLenMin : Int := 0
def kdf135X963SharedInfoLenMax : Int := 1024

/-- The work of {lit}`amvp_cap_kdf135_x963_set_parm` on the content. -/
def kdf135X963SetParm (param : Kdf135X963Parm) (value : Int) : Setter Kdf135X963Cap :=
  match param with
  | .hashAlg =>
    match nameAmong [.sha224, .sha256, .sha384, .sha512] value with
    | none => refuse .invalidArg
    | some name => accept fun cap => { cap with hashAlgs := cap.hashAlgs ++ [name] }
  | .keyDataLen =>
    acceptBetween kdf135X963KeydataMinBits kdf135X963KeydataMaxBits value value fun cap =>
      { cap with keyDataLengths := cap.keyDataLengths ++ [value] }
  | .fieldSize =>
    if value ∈ kdf135X963FieldSizes then
      accept fun cap => { cap with fieldSizes := cap.fieldSizes ++ [value] }
    else refuse .invalidArg
  | .sharedInfoLen =>
    acceptBetween kdf135X963SharedInfoLenMin kdf135X963SharedInfoLenMax value value fun cap =>
      { cap with sharedInfoLengths := cap.sharedInfoLengths ++ [value] }
  | .other _ => refuse .invalidArg

/-- {lit}`amvp_cap_kdf135_x963_set_parm`. -/
def capKdf135X963SetParm (param : Kdf135X963Parm) (value : Int) : CapAction :=
  .atEntry .kdf135X963 (.member .kdf135X963Cap (uncounted (kdf135X963SetParm param value)))

/-! ## TLS -/

/-- {lit}`AMVP_KDF_TLS12_PARM`. -/
inductive KdfTls12Parm where
  | paramMin | hashAlg
  | other (raw : Int)
deriving DecidableEq

/-- {lit}`AMVP_KDF_TLS13_PARM`. -/
inductive KdfTls13Parm where
  | paramMin | hmacAlg | runningMode
  | other (raw : Int)
deriving DecidableEq

def kdfTls13RunModeMin : Int := 0
def kdfTls13RunModeMax : Int := 4

/-- The work of {lit}`amvp_cap_kdf_tls12_set_parm` on the content. -/
def kdfTls12SetParm (param : KdfTls12Parm) (value : Int) : Setter KdfTls12Cap :=
  match param with
  | .hashAlg =>
    match nameAmong [.sha256, .sha384, .sha512] value with
    | none => refuse .invalidArg
    | some name => accept fun cap => { cap with hashAlgs := appendNew cap.hashAlgs name }
  | _ => refuse .invalidArg

/-- {lit}`amvp_cap_kdf_tls12_set_parm`. -/
def capKdfTls12SetParm (param : KdfTls12Parm) (value : Int) : CapAction :=
  .atEntry .kdfTls12 (.member .kdfTls12Cap (uncounted (kdfTls12SetParm param value)))

/-- The work of {lit}`amvp_cap_kdf_tls13_set_parm` on the content. -/
def kdfTls13SetParm (param : KdfTls13Parm) (value : Int) : Setter KdfTls13Cap :=
  match param with
  | .hmacAlg =>
    match nameAmong [.sha256, .sha384] value with
    | none => refuse .invalidArg
    | some name => accept fun cap => { cap with hmacAlgs := appendNew cap.hmacAlgs name }
  | .runningMode =>
    if value ≤ kdfTls13RunModeMin ∨ value ≥ kdfTls13RunModeMax then refuse .invalidArg
    else accept fun cap => { cap with runningMode := cap.runningMode ++ [value] }
  | _ => refuse .invalidArg

/-- {lit}`amvp_cap_kdf_tls13_set_parm`. -/
def capKdfTls13SetParm (param : KdfTls13Parm) (value : Int) : CapAction :=
  .atEntry .kdfTls13 (.member .kdfTls13Cap (uncounted (kdfTls13SetParm param value)))

end LibAmvp
