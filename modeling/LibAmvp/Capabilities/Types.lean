import LibAmvp.Capabilities.Ciphers
import LibAmvp.Lib.Op
import LibAmvp.Session.Context

/-!
# Capability entries

What an application has registered is a list of entries.  Each entry keeps the
parameters of its algorithm in a union; the type of the entry says which member of the
union is in use.  In the model the content of an entry has the type of that member, so
that an access through another member has no content to work on.
-/

namespace LibAmvp

/-! ## Contents of the members -/

/-- {lit}`AMVP_JSON_DOMAIN_OBJ`. -/
structure Domain where
  min : Int := 0
  max : Int := 0
  increment : Int := 0
  values : List Int := []
deriving DecidableEq

/-- The range of a domain. -/
def Domain.withRange (d : Domain) (min max increment : Int) : Domain :=
  { d with min := min, max := max, increment := increment }

/-- Append a value to the list of a domain. -/
def Domain.withValue (d : Domain) (value : Int) : Domain :=
  { d with values := d.values ++ [value] }

/-- {lit}`AMVP_PREREQ_ALG`. -/
inductive PrereqAlg where
  | aes | ccm | cmac | drbg | dsa | ecdsa | hmac | kas | rsa | rsadp | safePrimes | sha
  | tdes | kmac
  | other (raw : Int)
deriving DecidableEq

/-- A node of {lit}`AMVP_PREREQ_LIST`. -/
structure Prereq where
  alg : PrereqAlg
  val : Option String
deriving DecidableEq

/-- {lit}`AMVP_SYM_CIPHER_CAP`. -/
structure SymCipherCap where
  conformance : Int := 0
  direction : Int := 0
  keyingOption : Int := 0
  ivgenSource : Int := 0
  ivgenMode : Int := 0
  saltSource : Int := 0
  performCtrTests : Int := 0
  ctrIncr : Int := 0
  ctrOvrflw : Int := 0
  dulenMatchesPaylen : Int := 0
  keylen : List Int := []
  ptlen : List Int := []
  tweak : List Int := []
  ivlen : List Int := []
  aadlen : List Int := []
  taglen : List Int := []
  payloadLen : Domain := {}
  ivLen : Domain := {}
  aadLen : Domain := {}
  tweakLen : Domain := {}
  duLen : Domain := {}
  kwMode : Int := 0

/-- {lit}`AMVP_HASH_CAP`. -/
structure HashCap where
  inBit : Int := 0
  inEmpty : Int := 0
  outBit : Int := 0
  outLen : Domain := {}
  msgLength : Domain := {}

/-- {lit}`AMVP_HMAC_CAP`. -/
structure HmacCap where
  keyLen : Domain := {}
  macLen : Domain := {}

/-- {lit}`AMVP_CMAC_CAP`. -/
structure CmacCap where
  macLen : Domain := {}
  msgLen : Domain := {}
  directionGen : Int := 0
  directionVer : Int := 0
  keyLen : List Int := []
  keyingOption : List Int := []

/-- {lit}`AMVP_KMAC_CAP`. -/
structure KmacCap where
  macLen : Domain := {}
  msgLen : Domain := {}
  keyLen : Domain := {}
  xof : Int := 0
  hexCustomization : Int := 0

/-- {lit}`AMVP_DRBG_CAP_GROUP`. -/
structure DrbgCapGroup where
  derFuncEnabled : Int := 0
  entropyInputLen : Int := 0
  entropyLenMax : Int := 0
  entropyLenMin : Int := 0
  entropyLenStep : Int := 0
  nonceLen : Int := 0
  nonceLenMax : Int := 0
  nonceLenMin : Int := 0
  nonceLenStep : Int := 0
  persoStringLen : Int := 0
  persoLenMax : Int := 0
  persoLenMin : Int := 0
  persoLenStep : Int := 0
  additionalInputLen : Int := 0
  additionalInLenMax : Int := 0
  additionalInLenMin : Int := 0
  additionalInLenStep : Int := 0
  returnedBitsLen : Int := 0
deriving DecidableEq

/-- A node of {lit}`AMVP_DRBG_GROUP_LIST`. -/
structure DrbgGroup where
  id : Int
  group : DrbgCapGroup := {}
deriving DecidableEq

/-- A node of {lit}`AMVP_DRBG_MODE_LIST`. -/
structure DrbgCapMode where
  mode : Int
  groups : List DrbgGroup := []
deriving DecidableEq

/-- {lit}`AMVP_DRBG_CAP`. -/
structure DrbgCap where
  predResistEnabled : Int := 0
  reseedImplemented : Int := 0
  drbgCapMode : List DrbgCapMode := []
deriving DecidableEq

/-- A node of {lit}`AMVP_RSA_HASH_PAIR_LIST`. -/
structure RsaHashPair where
  name : Option String
  salt : Int := 0
deriving DecidableEq

/-- A node of {lit}`AMVP_RSA_MODE_CAPS_LIST`. -/
structure RsaModeCaps where
  modulo : Int
  hashAlgs : List String := []
  hashPair : List RsaHashPair := []
  primeTests : List String := []
deriving DecidableEq

/-- A node of {lit}`AMVP_RSA_KEYGEN_CAP`. -/
structure RsaKeygenNode where
  keyFormatCrt : Int := 0
  pubExpMode : Int := 0
  fixedPubExp : Option String := none
  randPq : Int := 0
  randPqStr : Option String := none
  infoGenByServer : Int := 0
  modeCapabilities : List RsaModeCaps := []
deriving DecidableEq

/-- A node of {lit}`AMVP_RSA_SIG_CAP`. -/
structure RsaSigNode where
  sigTypeStr : Option String := none
  sigType : Int := 0
  pubExpMode : Int := 0
  fixedPubExp : Option String := none
  modeCapabilities : List RsaModeCaps := []
deriving DecidableEq

/-- {lit}`AMVP_RSA_PRIM_CAP`. -/
structure RsaPrimCap where
  primType : Int := 0
  keyFormatCrt : Int := 0
  pubExpMode : Int := 0
  fixedPubExp : Option String := none

/-- A node of {lit}`AMVP_CURVE_ALG_COMPAT_LIST`; {lit}`algs` are the flags that are set. -/
structure CurveAlgCompat where
  curve : Int
  algs : Finset Int := ∅

/-- {lit}`AMVP_ECDSA_CAP`; {lit}`hashAlgs` are the flags that are set. -/
structure EcdsaCap where
  curves : List CurveAlgCompat := []
  secretGenModes : List String := []
  hashAlgs : Finset Int := ∅
  component : Int := 0

/-- A node of {lit}`AMVP_DSA_ATTRS`. -/
structure DsaAttrs where
  modulo : Int
  sha : Int := 0
deriving DecidableEq

/-- {lit}`AMVP_DSA_CAP_MODE`. -/
structure DsaCapMode where
  capMode : Int
  defined : Int := 0
  genPqProb : Int := 0
  genPqProv : Int := 0
  genGUnv : Int := 0
  genGCan : Int := 0
  dsaAttrs : List DsaAttrs := []
deriving DecidableEq

/-- {lit}`AMVP_DSA_CAP`. -/
structure DsaCap where
  dsaCapMode : List DsaCapMode
deriving DecidableEq

/-- {lit}`AMVP_KDF135_SNMP_CAP`. -/
structure Kdf135SnmpCap where
  passLens : List Int := []
  engIds : List String := []

/-- {lit}`AMVP_KDF108_MODE_PARAMS`. -/
structure Kdf108ModeParams where
  kdfMode : Option String := none
  macMode : List String := []
  supportedLens : Domain := {}
  dataOrder : List String := []
  counterLens : List Int := []
  emptyIvSupport : Int := 0
  requiresEmptyIv : Int := 0
deriving DecidableEq

/-- {lit}`AMVP_KDF108_CAP`. -/
structure Kdf108Cap where
  counterMode : Kdf108ModeParams := {}
  feedbackMode : Kdf108ModeParams := {}
  dpiMode : Kdf108ModeParams := {}
deriving DecidableEq

/-- {lit}`AMVP_KDF135_SSH_CAP`. -/
structure Kdf135SshCap where
  method : Finset Int := ∅
  sha : Int := 0

/-- {lit}`AMVP_KDF135_SRTP_CAP`; {lit}`kdrExp` are the exponents whose flag is set. -/
structure Kdf135SrtpCap where
  supportsZeroKdr : Int := 0
  kdrExp : Finset Int := ∅
  aesKeylens : List Int := []

/-- {lit}`AMVP_KDF135_IKEV2_CAP`. -/
structure Kdf135Ikev2Cap where
  hashAlgs : List String := []
  initNonceLenDomain : Domain := {}
  respondNonceLenDomain : Domain := {}
  dhSecretLen : Domain := {}
  keyMaterialLen : Domain := {}

/-- {lit}`AMVP_KDF135_IKEV1_CAP`. -/
structure Kdf135Ikev1Cap where
  hashAlgs : List String := []
  authMethod : String := ""
  initNonceLenDomain : Domain := {}
  respondNonceLenDomain : Domain := {}
  dhSecretLen : Domain := {}
  pskLen : Domain := {}

/-- {lit}`AMVP_KDF135_X942_CAP`. -/
structure Kdf135X942Cap where
  type : Int := 0
  keyLen : Domain := {}
  otherLen : Domain := {}
  suppLen : Domain := {}
  zzLen : Domain := {}
  hashAlgs : List String := []
  oids : List String := []

/-- {lit}`AMVP_KDF135_X963_CAP`. -/
structure Kdf135X963Cap where
  hashAlgs : List String := []
  sharedInfoLengths : List Int := []
  fieldSizes : List Int := []
  keyDataLengths : List Int := []

/-- {lit}`AMVP_PBKDF_CAP`. -/
structure PbkdfCap where
  hmacAlgs : List String := []
  iterationCountDomain : Domain := {}
  keyLenDomain : Domain := {}
  passwordLenDomain : Domain := {}
  saltLenDomain : Domain := {}

/-- {lit}`AMVP_KDF_TLS12_CAP`. -/
structure KdfTls12Cap where
  hashAlgs : List String := []

/-- {lit}`AMVP_KDF_TLS13_CAP`. -/
structure KdfTls13Cap where
  hmacAlgs : List String := []
  runningMode : List Int := []

/-- A node of {lit}`AMVP_KAS_ECC_PSET`. -/
structure KasEccPset where
  set : Int
  curve : Int := 0
  sha : List Int := []
deriving DecidableEq

/-- A node of {lit}`AMVP_KAS_ECC_SCHEME`. -/
structure KasEccScheme where
  scheme : Int
  kdf : Int := 0
  role : List Int := []
  pset : List KasEccPset := []
deriving DecidableEq

/-- {lit}`AMVP_KAS_ECC_CAP_MODE`. -/
structure KasEccCapMode where
  capMode : Int
  prereqVals : List Prereq := []
  curve : List Int := []
  revision : Int := 0
  function : List Int := []
  scheme : List KasEccScheme := []
  hash : Int := 0
deriving DecidableEq

/-- {lit}`AMVP_KAS_ECC_CAP`. -/
structure KasEccCap where
  kasEccMode : List KasEccCapMode
deriving DecidableEq

/-- A node of {lit}`AMVP_KAS_FFC_PSET`. -/
structure KasFfcPset where
  set : Int
  sha : List Int := []
deriving DecidableEq

/-- A node of {lit}`AMVP_KAS_FFC_SCHEME`. -/
structure KasFfcScheme where
  scheme : Int
  kdf : Int := 0
  role : List Int := []
  pset : List KasFfcPset := []
deriving DecidableEq

/-- {lit}`AMVP_KAS_FFC_CAP_MODE`. -/
structure KasFfcCapMode where
  capMode : Int
  prereqVals : List Prereq := []
  function : List Int := []
  genmeth : List Int := []
  hash : Int := 0
  scheme : List KasFfcScheme := []
deriving DecidableEq

/-- {lit}`AMVP_KAS_FFC_CAP`. -/
structure KasFfcCap where
  kasFfcMode : List KasFfcCapMode
deriving DecidableEq

/-- {lit}`AMVP_KAS_IFC_CAP`. -/
structure KasIfcCap where
  hash : Int := 0
  fixedPubExp : Option String := none
  kas1Roles : List Int := []
  kas2Roles : List Int := []
  keygenMethod : List Int := []
  modulo : List Int := []

/-- {lit}`AMVP_KDA_ONESTEP_CAP`. -/
structure KdaOnestepCap where
  revision : Int := 0
  auxFunctions : List String := []
  macSaltMethods : List String := []
  patterns : List Int := []
  literalPatternCandidate : Option String := none
  encodings : List Int := []
  z : Domain := {}
  l : Int := 0

/-- {lit}`AMVP_KDA_TWOSTEP_CAP`. -/
structure KdaTwostepCap where
  revision : Int := 0
  macSaltMethods : List String := []
  patterns : List Int := []
  literalPatternCandidate : Option String := none
  encodings : List Int := []
  z : Domain := {}
  l : Int := 0
  performMultiExpansionTests : Int := 0
  useHybridSharedSecret : Int := 0
  auxSecretLen : Domain := {}
  kdfParams : Kdf108Cap := {}

/-- {lit}`AMVP_KDA_HKDF_CAP`. -/
structure KdaHkdfCap where
  patterns : List Int := []
  revision : Int := 0
  literalPatternCandidate : Option String := none
  encodings : List Int := []
  hmacAlgs : List String := []
  macSaltMethods : List String := []
  z : Domain := {}
  l : Int := 0
  performMultiExpansionTests : Int := 0
  useHybridSharedSecret : Int := 0
  auxSecretLen : Domain := {}

/-- A node of {lit}`AMVP_KTS_IFC_SCHEMES`. -/
structure KtsIfcScheme where
  scheme : Int
  l : Int := 0
  roles : List Int := []
  hash : List Int := []
  nullAssocData : Int := 0
  assocDataPattern : Option String := none
  encodings : Option String := none
deriving DecidableEq

/-- {lit}`AMVP_KTS_IFC_CAP`. -/
structure KtsIfcCap where
  fixedPubExp : Option String := none
  iutId : Option String := none
  functions : List Int := []
  schemes : List KtsIfcScheme := []
  keygenMethod : List Int := []
  modulo : List Int := []

/-- {lit}`AMVP_SAFE_PRIMES_CAP`; without a mode there is no list. -/
structure SafePrimesCap where
  genmeth : Option (List Int) := none

end LibAmvp
