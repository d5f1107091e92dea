import LibAmvp.Capabilities.Digests

/-!
# Random bit generators and signatures

The functions of the capability interface for DRBG, RSA, ECDSA and DSA.  Neither
{lit}`amvp_cap_drbg_enable` nor {lit}`amvp_cap_dsa_enable` looks at the cipher it is given.
-/

namespace LibAmvp

open Keyed

/-! ## Random bit generators -/

/-- {lit}`AMVP_DRBG_PARM`. -/
inductive DrbgParm where
  | derFuncEnabled | predResistEnabled | reseedEnabled | entropyLen | nonceLen | persoLen
  | addInLen | retBitsLen | preReqVals
  | other (raw : Int)
deriving DecidableEq

def drbgEntpyInBitMin : Int := 80
def drbgEntpyInBitMax : Int := 1048576
def drbgNonceBitMin : Int := 40
def drbgNonceBitMax : Int := 512
def drbgPerSoBitMax : Int := 1048576
def drbgAddiInBitMax : Int := 1048576
def drbBitMax : Int := 4096

/-- Locate or create the group of a mode, and change it. -/
def DrbgCapMode.withGroup (group : Int) (f : DrbgCapGroup → DrbgCapGroup) (cap : DrbgCapMode) :
    DrbgCapMode :=
  { cap with
    groups := upsert (fun g => g.id == group) { id := group }
      (fun g => { g with group := f g.group }) cap.groups }

/-- Locate or create a mode and its group, and change the group. -/
def DrbgCap.withGroup (mode group : Int) (f : DrbgCapGroup → DrbgCapGroup) (cap : DrbgCap) :
    DrbgCap :=
  { cap with
    drbgCapMode := upsert (fun m => m.mode == mode) { mode := mode }
      (DrbgCapMode.withGroup group f) cap.drbgCapMode }

/-- {lit}`amvp_add_drbg_length_range`, for the parameters it has. -/
def addDrbgLengthRange (param : DrbgParm) (min step max : Int) :
    Option (DrbgCapGroup → DrbgCapGroup) :=
  match param with
  | .entropyLen =>
    some fun g => { g with entropyLenMin := min, entropyLenStep := step, entropyLenMax := max }
  | .nonceLen =>
    some fun g => { g with nonceLenMin := min, nonceLenStep := step, nonceLenMax := max }
  | .persoLen =>
    some fun g => { g with persoLenMin := min, persoLenStep := step, persoLenMax := max }
  | .addInLen =>
    some fun g =>
      { g with
        additionalInLenMin := min
        additionalInLenStep := step
        additionalInLenMax := max }
  | _ => none

/-- The check of {lit}`amvp_cap_drbg_set_length`. -/
def drbgLengthTooLarge (param : DrbgParm) (max : Int) : Bool :=
  match param with
  | .entropyLen => max > drbgEntpyInBitMax
  | .nonceLen => max > drbgNonceBitMax
  | .persoLen => max > drbgPerSoBitMax
  | .addInLen => max > drbgAddiInBitMax
  | _ => false

/-- The work of {lit}`amvp_cap_drbg_set_length` on the content. -/
def drbgSetLength (mode group : Int) (param : DrbgParm) (min step max : Int) : Setter DrbgCap :=
  Op.changed (DrbgCap.withGroup mode group id) (
    if drbgLengthTooLarge param max then refuse .invalidArg
    else
      match addDrbgLengthRange param min step max with
      | none => refuse .invalidArg
      | some f => accept (DrbgCap.withGroup mode group f))

/-- {lit}`amvp_cap_drbg_set_length`. -/
def capDrbgSetLength (cipher : Cipher) (mode group : Int) (param : DrbgParm)
    (min step max : Int) : CapAction :=
  .atEntry cipher (.member .drbgCap (uncounted (drbgSetLength mode group param min step max)))

/-- {lit}`amvp_validate_drbg_parm_value`. -/
def validateDrbgParmValue (parm : DrbgParm) (value : Int) : AmvpResult :=
  match parm with
  | .derFuncEnabled | .predResistEnabled | .reseedEnabled => isValidTfParam value
  | .entropyLen => passes (drbgEntpyInBitMin ≤ value ∧ value ≤ drbgEntpyInBitMax)
  | .nonceLen => passes (drbgNonceBitMin ≤ value ∧ value ≤ drbgNonceBitMax)
  | .persoLen => passes (value ≤ drbgPerSoBitMax)
  | .addInLen => passes (value ≤ drbgAddiInBitMax)
  | .retBitsLen => passes (value ≤ drbBitMax)
  | .preReqVals => .success
  | .other _ => .invalidArg

/-- The last switch of {lit}`amvp_cap_drbg_set_parm`. -/
def drbgStoreParm (mode group : Int) (param : DrbgParm) (value : Int) : Setter DrbgCap :=
  match param with
  | .derFuncEnabled =>
    accept (DrbgCap.withGroup mode group fun g => { g with derFuncEnabled := value })
  | .predResistEnabled => accept fun cap => { cap with predResistEnabled := value }
  | .reseedEnabled => accept fun cap => { cap with reseedImplemented := value }
  | .entropyLen =>
    accept (DrbgCap.withGroup mode group fun g => { g with entropyInputLen := value })
  | .nonceLen => accept (DrbgCap.withGroup mode group fun g => { g with nonceLen := value })
  | .persoLen =>
    accept (DrbgCap.withGroup mode group fun g => { g with persoStringLen := value })
  | .addInLen =>
    accept (DrbgCap.withGroup mode group fun g => { g with additionalInputLen := value })
  | .retBitsLen =>
    accept (DrbgCap.withGroup mode group fun g => { g with returnedBitsLen := value })
  | _ => refuse .invalidArg

/-- The work of {lit}`amvp_cap_drbg_set_parm` on the content. -/
def drbgSetParm (cipher : Cipher) (mode group : Int) (param : DrbgParm) (value : Int) :
    Setter DrbgCap :=
  Op.changed (DrbgCap.withGroup mode group id) (
    if ¬ cipher.isAlgorithm then refuse .invalidArg
    else if validateDrbgParmValue param value ≠ .success then refuse .invalidArg
    else drbgStoreParm mode group param value)

/-- {lit}`amvp_cap_drbg_set_parm`. -/
def capDrbgSetParm (cipher : Cipher) (mode group : Int) (param : DrbgParm) (value : Int) :
    CapAction :=
  .atEntry cipher (.member .drbgCap (uncounted (drbgSetParm cipher mode group param value)))

/-- {lit}`amvp_cap_drbg_enable`. -/
def capDrbgEnable (cipher : Cipher) (handler : Option CryptoHandler) : CapAction :=
  withHandler handler fun handler => .append .drbg cipher handler

/-! ## RSA -/

/-- {lit}`AMVP_RSA_PARM`. -/
inductive RsaParm where
  | pubExpMode | fixedPubExpVal | keyFormatCrt | randPq | infoGenByServer
  | other (raw : Int)
deriving DecidableEq

/-- {lit}`AMVP_RSA_PRIME_PARAM`. -/
inductive RsaPrimeParam where
  | hashAlg | test
  | other (raw : Int)
deriving DecidableEq

/-- {lit}`AMVP_RSA_PUB_EXP_MODE_FIXED`. -/
def rsaPubExpModeFixed : Int := 1

/-- {lit}`AMVP_CAPABILITY_STR_MAX`. -/
def capabilityStrMax : Nat := 512

/-- Find a vacant node of a list of capabilities, or append one, unless a node on the way
already has the value. -/
def claimNode {ν : Type} (vacant taken : ν → Bool) (fresh : ν) (set : ν → ν) :
    List ν → Option (List ν)
  | [] => some [set fresh]
  | x :: rest =>
    if vacant x then some (set x :: rest)
    else if taken x then none
    else (claimNode vacant taken fresh set rest).map (x :: ·)

/-- Claim a node, or report a duplicate. -/
def claimOr {ν : Type} (vacant taken : ν → Bool) (fresh : ν) (set : ν → ν) : Setter (List ν) :=
  Op.inspect fun nodes =>
    match claimNode vacant taken fresh set nodes with
    | none => refuse .dupCipher
    | some nodes' => accept fun _ => nodes'

/-- The name of a way to generate primes. -/
def rsaRandPqStr (value : Int) : Option String :=
  if value = 1 then some "B.3.2"
  else if value = 2 then some "B.3.3"
  else if value = 3 then some "B.3.4"
  else if value = 4 then some "B.3.5"
  else if value = 5 then some "B.3.6"
  else none

/-- {lit}`amvp_cap_rsa_keygen_set_mode`; a value without a name leaves the name alone. -/
def capRsaKeygenSetMode (value : Int) : CapAction :=
  .atEntry .rsaKeygen (.member .rsaKeygenCap (uncounted (
    claimOr (fun node : RsaKeygenNode => node.randPq < 1 ∨ 5 < node.randPq)
      (fun node => node.randPq = value) {}
      fun node =>
        { node with
          randPq := value
          randPqStr := (rsaRandPqStr value).or node.randPqStr })))

/-- The part of the RSA functions that sets a parameter on the first node. -/
abbrev storeHead {ν : Type} (f : ν → ν) : Setter (List ν) := Op.atHead .nullPointer (accept f)

/-- {lit}`amvp_cap_rsa_keygen_set_parm`. -/
def capRsaKeygenSetParm (param : RsaParm) (value : Int) : CapAction :=
  .atEntry .rsaKeygen (
    match param with
    | .pubExpMode =>
      .member .rsaKeygenCap (uncounted (storeHead fun cap => { cap with pubExpMode := value }))
    | .infoGenByServer =>
      if isValidTfParam value = .success then
        .member .rsaKeygenCap
          (uncounted (storeHead fun cap => { cap with infoGenByServer := value }))
      else .refuse .invalidArg
    | .keyFormatCrt =>
      if isValidTfParam value = .success then
        .member .rsaKeygenCap
          (uncounted (storeHead fun cap => { cap with keyFormatCrt := value }))
      else .refuse .invalidArg
    | _ => .refuse .invalidArg)

/-- {lit}`amvp_cap_rsa_keygen_enable`. -/
def capRsaKeygenEnable (cipher : Cipher) (handler : Option CryptoHandler) : CapAction :=
  withHandler handler fun handler =>
    if cipher ≠ .rsaKeygen then .refuse .invalidArg else .append .rsaKeygen cipher handler

/-- {lit}`amvp_cap_rsa_sigver_set_parm`. -/
def capRsaSigverSetParm (param : RsaParm) (value : Int) : CapAction :=
  .atEntry .rsaSigver (
    match param with
    | .pubExpMode =>
      .member .rsaSigverCap (uncounted (storeHead fun cap => { cap with pubExpMode := value }))
    | _ => .refuse .invalidArg)

/-- The name of a signature type. -/
def rsaSigTypeStr (value : Int) : Option String :=
  if value = 1 then some "ansx9.31"
  else if value = 2 then some "pkcs1v1.5"
  else if value = 3 then some "pss"
  else none

/-- The work of {lit}`amvp_cap_rsa_sigver_set_type` and its sibling on the content. -/
def rsaSigSetType (value : Int) : Setter (List RsaSigNode) :=
  claimOr (fun node => node.sigType = 0) (fun node => node.sigType = value) {}
    fun node =>
      { node with
        sigType := value
        sigTypeStr := (rsaSigTypeStr value).or node.sigTypeStr }

/-- {lit}`amvp_cap_rsa_sigver_set_type`. -/
def capRsaSigverSetType (value : Int) : CapAction :=
  .atEntry .rsaSigver (.member .rsaSigverCap (uncounted (rsaSigSetType value)))

/-- {lit}`amvp_cap_rsa_siggen_set_type`. -/
def capRsaSiggenSetType (value : Int) : CapAction :=
  .atEntry .rsaSiggen (.member .rsaSiggenCap (uncounted (rsaSigSetType value)))

/-- The functions that set a fixed exponent.  They do so once, and only when the mode of
the exponent is fixed; otherwise they accept and change nothing. -/
def setFixedPubExp {σ : Type} (mode : σ → Int) (fixed : σ → Option String)
    (set : String → σ → σ) (param : RsaParm) (value : Option String) : Setter σ :=
  match param with
  | .fixedPubExpVal =>
    Op.inspect fun cap =>
      if mode cap = rsaPubExpModeFixed then
        match fixed cap with
        | none =>
          if (value.getD "").length > capabilityStrMax then refuse .invalidArg
          else accept (set (value.getD ""))
        | some _ => refuse .unsupportedOp
      else accept id
  | _ => refuse .invalidArg

/-- {lit}`amvp_cap_rsa_keygen_set_exponent`. -/
def capRsaKeygenSetExponent (param : RsaParm) (value : Option String) : CapAction :=
  .atEntry .rsaKeygen (.member .rsaKeygenCap (uncounted (Op.atHead .nullPointer (
    setFixedPubExp RsaKeygenNode.pubExpMode RsaKeygenNode.fixedPubExp
      (fun text cap => { cap with fixedPubExp := some text }) param value))))

/-- {lit}`amvp_cap_rsa_sigver_set_exponent`. -/
def capRsaSigverSetExponent (param : RsaParm) (value : Option String) : CapAction :=
  .atEntry .rsaSigver (.member .rsaSigverCap (uncounted (Op.atHead .nullPointer (
    setFixedPubExp RsaSigNode.pubExpMode RsaSigNode.fixedPubExp
      (fun text cap => { cap with fixedPubExp := some text }) param value))))

/-- Locate or create the capabilities of a modulus, and change them. -/
def withModulo (mod : Int) (f : RsaModeCaps → RsaModeCaps) (caps : List RsaModeCaps) :
    List RsaModeCaps :=
  upsert (fun c => c.modulo == mod) { modulo := mod } f caps

/-- {lit}`amvp_lookup_rsa_prime_test_name`. -/
def lookupRsaPrimeTestName (value : Int) : Option String :=
  if value = 1 then some "tblC2" else if value = 2 then some "tblC3" else none

/-- Change the capabilities of a modulus under the node that was found. -/
def RsaKeygenNode.withModulo (mod : Int) (f : RsaModeCaps → RsaModeCaps)
    (node : RsaKeygenNode) : RsaKeygenNode :=
  { node with modeCapabilities := LibAmvp.withModulo mod f node.modeCapabilities }

/-- The end of {lit}`amvp_cap_rsa_keygen_set_primes`, on the node of the mode. -/
def rsaKeygenAddPrime (mod : Int) (param : RsaPrimeParam) (value : Int) : Setter RsaKeygenNode :=
  Op.changed (RsaKeygenNode.withModulo mod id) (
    match param with
    | .hashAlg =>
      match lookupHashAlgName value with
      | none => refuse .invalidArg
      | some name =>
        accept (RsaKeygenNode.withModulo mod fun c => { c with hashAlgs := c.hashAlgs ++ [name] })
    | .test =>
      match lookupRsaPrimeTestName value with
      | none => refuse .invalidArg
      | some name =>
        accept
          (RsaKeygenNode.withModulo mod fun c => { c with primeTests := c.primeTests ++ [name] })
    | .other _ => refuse .invalidArg)

/-- {lit}`amvp_cap_rsa_keygen_set_primes`. -/
def capRsaKeygenSetPrimes (mode mod : Int) (param : RsaPrimeParam) (value : Int) : CapAction :=
  .atEntry .rsaKeygen (.member .rsaKeygenCap (uncounted (
    Op.atFirst (fun node => node.randPq == mode) .noCap (rsaKeygenAddPrime mod param value))))

/-- The end of the functions that set the hash of a modulus.  A hash without a name is
recorded without one. -/
def rsaSigAddHash (mod hashAlg saltLen : Int) : Setter RsaSigNode :=
  accept fun node =>
    { node with
      modeCapabilities := withModulo mod
        (fun c =>
          { c with
            hashPair := c.hashPair ++ [{ name := lookupHashAlgName hashAlg, salt := saltLen }] })
        node.modeCapabilities }

/-- The work of {lit}`amvp_cap_rsa_sigver_set_mod_parm` and its sibling on the content. -/
def rsaSigSetModParm (sigType mod hashAlg saltLen : Int) : Setter (List RsaSigNode) :=
  Op.atFirst (fun node => node.sigType == sigType) .noCap (rsaSigAddHash mod hashAlg saltLen)

/-- {lit}`amvp_cap_rsa_sigver_set_mod_parm`. -/
def capRsaSigverSetModParm (sigType mod hashAlg saltLen : Int) : CapAction :=
  if hashAlg = 0 ∨ mod = 0 then .refuse .invalidArg
  else
    .atEntry .rsaSigver
      (.member .rsaSigverCap (uncounted (rsaSigSetModParm sigType mod hashAlg saltLen)))

/-- {lit}`amvp_cap_rsa_siggen_set_mod_parm`. -/
def capRsaSiggenSetModParm (sigType mod hashAlg saltLen : Int) : CapAction :=
  if hashAlg = 0 ∨ mod = 0 then .refuse .invalidArg
  else
    .atEntry .rsaSiggen
      (.member .rsaSiggenCap (uncounted (rsaSigSetModParm sigType mod hashAlg saltLen)))

/-- {lit}`internal_cap_rsa_sig_enable`. -/
def internalCapRsaSigEnable (cipher : Cipher) (handler : CryptoHandler) : CapAction :=
  match cipher with
  | .rsaSiggen => .append .rsaSiggen cipher handler
  | .rsaSigver => .append .rsaSigver cipher handler
  | .rsaSigprim | .rsaDecprim => .append .rsaPrim cipher handler
  | _ => .refuse .invalidArg

/-- {lit}`amvp_cap_rsa_sig_enable`. -/
def capRsaSigEnable (cipher : Cipher) (handler : Option CryptoHandler) : CapAction :=
  withHandler handler fun handler =>
    match cipher with
    | .rsaSiggen | .rsaSigver => internalCapRsaSigEnable cipher handler
    | _ => .refuse .invalidArg

/-- {lit}`amvp_cap_rsa_prim_enable`. -/
def capRsaPrimEnable (cipher : Cipher) (handler : Option CryptoHandler) : CapAction :=
  withHandler handler fun handler =>
    if cipher ≠ .rsaSigprim ∧ cipher ≠ .rsaDecprim then .refuse .invalidArg
    else .append .rsaPrim cipher handler

/-- {lit}`amvp_cap_rsa_prim_set_parm`. -/
def capRsaPrimSetParm (param : RsaParm) (value : Int) : CapAction :=
  .atEntry .rsaSigprim (
    match param with
    | .pubExpMode => .store .rsaPrimCap fun cap => { cap with pubExpMode := value }
    | .keyFormatCrt =>
      if isValidTfParam value = .success then
        .store .rsaPrimCap fun cap => { cap with keyFormatCrt := value }
      else .refuse .invalidArg
    | _ => .refuse .invalidArg)

/-- {lit}`amvp_cap_rsa_prim_set_exponent`. -/
def capRsaPrimSetExponent (param : RsaParm) (value : Option String) : CapAction :=
  .atEntry .rsaSigprim (.member .rsaPrimCap (uncounted (
    setFixedPubExp RsaPrimCap.pubExpMode RsaPrimCap.fixedPubExp
      (fun text cap => { cap with fixedPubExp := some text }) param value)))

/-! ## ECDSA -/

/-- {lit}`AMVP_ECDSA_PARM`. -/
inductive EcdsaParm where
  | curve | secretGen | hashAlg | componentTest
  | other (raw : Int)
deriving DecidableEq

def ecCurveStart : Int := 0
def ecCurveEnd : Int := 16
def ecdsaComponentModeNo : Int := 0
def ecdsaComponentModeBoth : Int := 2

/-- The name of a way to generate secrets. -/
def ecdsaSecretGenStr (value : Int) : Option String :=
  if value = 1 then some "extra bits"
  else if value = 2 then some "testing candidates"
  else none

/-- The test for a single hash algorithm of the ECDSA functions. -/
def isSingleHashAlg (value : Int) : Bool :=
  ¬ (value ≤ noSha ∨ value ≥ hashAlgMax ∨ intAnd value (value - 1) ≠ 0)

/-- The work of {lit}`amvp_cap_ecdsa_set_parm` on the content and on {lit}`vs_count`. -/
def ecdsaSetParm (cipher : Cipher) (param : EcdsaParm) (value : Int) : Setter (EcdsaCap × Int) :=
  if value = 0 then refuse .missingArg
  else
    match param with
    | .curve =>
      if value ≤ ecCurveStart ∨ value ≥ ecCurveEnd then refuse .invalidArg
      else
        uncounted (accept fun cap => { cap with curves := cap.curves ++ [{ curve := value }] })
    | .secretGen =>
      if cipher ≠ .ecdsaKeygen then refuse .invalidArg
      else
        match ecdsaSecretGenStr value with
        | none => refuse .invalidArg
        | some name =>
          uncounted (accept fun cap => { cap with secretGenModes := cap.secretGenModes ++ [name] })
    | .hashAlg =>
      if cipher ≠ .ecdsaSiggen ∧ cipher ≠ .ecdsaSigver then refuse .invalidArg
      else if isSingleHashAlg value then
        uncounted (accept fun cap => { cap with hashAlgs := insert value cap.hashAlgs })
      else refuse .invalidArg
    | .componentTest =>
      if cipher = .ecdsaSiggen ∨ cipher = .ecdsaSigver then
        if ecdsaComponentModeNo ≤ value ∧ value ≤ ecdsaComponentModeBoth then
          accept fun s =>
            ({ s.1 with component := value },
              if value = ecdsaComponentModeBoth then s.2 + 1 else s.2)
        else refuse .invalidArg
      else refuse .invalidArg
    | .other _ => refuse .invalidArg

/-- {lit}`amvp_cap_ecdsa_set_parm`. -/
def capEcdsaSetParm (cipher : Cipher) (param : EcdsaParm) (value : Int) : CapAction :=
  .atEntry cipher (
    match cipher with
    | .ecdsaKeygen => .member .ecdsaKeygenCap (ecdsaSetParm cipher param value)
    | .ecdsaKeyver => .member .ecdsaKeyverCap (ecdsaSetParm cipher param value)
    | .ecdsaSiggen => .member .ecdsaSiggenCap (ecdsaSetParm cipher param value)
    | .ecdsaSigver => .member .ecdsaSigverCap (ecdsaSetParm cipher param value)
    | _ => .refuse .invalidArg)

/-- The work of {lit}`amvp_cap_ecdsa_set_curve_hash_alg` on the content. -/
def ecdsaSetCurveHashAlg (curve alg : Int) : Setter EcdsaCap :=
  Op.zoom EcdsaCap.curves (fun curves cap => { cap with curves := curves })
    (Op.atFirst (fun c => c.curve == curve) .unsupportedOp
      (accept fun c => { c with algs := insert alg c.algs }))

/-- {lit}`amvp_cap_ecdsa_set_curve_hash_alg`. -/
def capEcdsaSetCurveHashAlg (cipher : Cipher) (curve alg : Int) : CapAction :=
  if curve ≤ ecCurveStart ∨ curve ≥ ecCurveEnd then .refuse .invalidArg
  else if isSingleHashAlg alg then
    .atEntry cipher (
      match cipher with
      | .ecdsaSiggen => .member .ecdsaSiggenCap (uncounted (ecdsaSetCurveHashAlg curve alg))
      | .ecdsaSigver => .member .ecdsaSigverCap (uncounted (ecdsaSetCurveHashAlg curve alg))
      | _ => .refuse .invalidArg)
  else .refuse .invalidArg

/-- {lit}`amvp_cap_ecdsa_enable`. -/
def capEcdsaEnable (cipher : Cipher) (handler : Option CryptoHandler) : CapAction :=
  withHandler handler fun handler =>
    match cipher with
    | .ecdsaKeygen => .append .ecdsaKeygen cipher handler
    | .ecdsaKeyver => .append .ecdsaKeyver cipher handler
    | .ecdsaSiggen => .append .ecdsaSiggen cipher handler
    | .ecdsaSigver => .append .ecdsaSigver cipher handler
    | _ => .refuse .invalidArg

/-! ## DSA -/

/-- {lit}`AMVP_DSA_PARM`. -/
inductive DsaParm where
  | ln1024_160 | ln2048_224 | ln2048_256 | ln3072_256 | genpq | geng
  | other (raw : Int)
deriving DecidableEq

/-- The value of a parameter in the enumeration. -/
def DsaParm.toInt : DsaParm → Int
  | ln1024_160 => 1
  | ln2048_224 => 2
  | ln2048_256 => 3
  | ln3072_256 => 4
  | genpq => 5
  | geng => 6
  | other raw => raw

def dsaModeKeygen : Int := 1
def dsaModePqgver : Int := 3
def dsaModeSigver : Int := 5
def dsaProvable : Int := 1
def dsaProbable : Int := 2
def dsaCanonical : Int := 3
def dsaUnverifiable : Int := 4

/-- {lit}`amvp_dsa_set_modulo`. -/
def dsaSetModulo (param : DsaParm) (value : Int) : Setter DsaCapMode :=
  accept fun mode =>
    { mode with
      dsaAttrs := upsert (fun a => a.modulo == param.toInt) { modulo := param.toInt }
        (fun a => { a with sha := intOr a.sha value }) mode.dsaAttrs }

/-- {lit}`amvp_add_dsa_pqggen_parm`. -/
def addDsaPqggenParm (param : DsaParm) (value : Int) : Setter DsaCapMode :=
  match param with
  | .genpq =>
    if value = dsaProvable then accept fun mode => { mode with genPqProv := 1 }
    else if value = dsaProbable then accept fun mode => { mode with genPqProb := 1 }
    else refuse .invalidArg
  | .geng =>
    if value = dsaCanonical then accept fun mode => { mode with genGCan := 1 }
    else if value = dsaUnverifiable then accept fun mode => { mode with genGUnv := 1 }
    else refuse .invalidArg
  | .ln1024_160 =>
    Op.inspect fun mode =>
      if mode.capMode = dsaModeSigver ∨ mode.capMode = dsaModePqgver then
        dsaSetModulo param value
      else refuse .invalidArg
  | .ln2048_224 | .ln2048_256 | .ln3072_256 => dsaSetModulo param value
  | .other _ => refuse .invalidArg

/-- {lit}`amvp_add_dsa_keygen_parm`. -/
def addDsaKeygenParm (param : DsaParm) (value : Int) : Setter DsaCapMode :=
  match param with
  | .ln2048_224 | .ln2048_256 | .ln3072_256 => dsaSetModulo param value
  | _ => refuse .invalidArg

/-- The work of {lit}`amvp_cap_dsa_set_parm` on a mode. -/
def dsaModeSetParm (mode : Int) (param : DsaParm) (value : Int) : Setter DsaCapMode :=
  Op.changed (fun m => { m with defined := 1 }) (
    if mode = dsaModeKeygen then addDsaKeygenParm param value
    else addDsaPqggenParm param value)

/-- The work of {lit}`amvp_cap_dsa_set_parm` on the content.  The mode is an index that is
used before it is checked. -/
def dsaSetParm (mode : Int) (param : DsaParm) (value : Int) : Setter DsaCap :=
  Op.zoom DsaCap.dsaCapMode (fun modes _ => { dsaCapMode := modes })
    (Op.atIndex .outOfBounds (mode - 1) (dsaModeSetParm mode param value))

/-- {lit}`amvp_cap_dsa_set_parm`. -/
def capDsaSetParm (cipher : Cipher) (mode : Int) (param : DsaParm) (value : Int) : CapAction :=
  .atEntry cipher (.member .dsaCap (uncounted (dsaSetParm mode param value)))

/-- {lit}`amvp_cap_dsa_enable`. -/
def capDsaEnable (cipher : Cipher) (handler : Option CryptoHandler) : CapAction :=
  withHandler handler fun handler => .append .dsa cipher handler

end LibAmvp
