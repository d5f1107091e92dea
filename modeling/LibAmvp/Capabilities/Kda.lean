import LibAmvp.Capabilities.KeyAgreement

/-!
# Key derivation for key agreement

The functions of the capability interface for the one-step, two-step and HKDF variants
of SP 800-56C.  A literal for the fixed info is released before its replacement has been
checked.
-/

namespace LibAmvp

/-- {lit}`AMVP_KDA_PARM`. -/
inductive KdaParm where
  | pattern | revision | encodingType | z | l | macSalt | performMultiexpansionTests | macAlg
  | useHybridSecret | onestepAuxFunction | twostepSupportedLen | twostepFixedDataOrder
  | twostepCounterLen | twostepSupportsEmptyIv | twostepRequiresEmptyIv
  | other (raw : Int)
deriving DecidableEq

def kdaPatternNone : Int := 0
def kdaPatternLiteral : Int := 1
def kdaPatternT : Int := 8
def kdaPatternMax : Int := 9
def kdaEncodingNone : Int := 0
def kdaEncodingMax : Int := 2
def kdaPatternLiteralStrLenMax : Nat := 64
def revisionSp800_56Cr1 : Int := 1

/-- The value of a cipher in the enumeration. -/
def Cipher.toInt : Cipher → Int
  | .other raw => raw
  | cipher => cipher.ctorIdx

/-- {lit}`amvp_aux_function_tbl`. -/
def auxFunctionTbl : List (Cipher × String) :=
  [(.hashSha224, "SHA2-224"), (.hashSha256, "SHA2-256"), (.hashSha384, "SHA2-384"),
    (.hashSha512, "SHA2-512"), (.hashSha512_224, "SHA2-512/224"),
    (.hashSha512_256, "SHA2-512/256"), (.hashSha3_224, "SHA3-224"), (.hashSha3_256, "SHA3-256"),
    (.hashSha3_384, "SHA3-384"), (.hashSha3_512, "SHA3-512"), (.hmacSha2_224, "HMAC-SHA2-224"),
    (.hmacSha2_256, "HMAC-SHA2-256"), (.hmacSha2_384, "HMAC-SHA2-384"),
    (.hmacSha2_512, "HMAC-SHA2-512"), (.hmacSha2_512_224, "HMAC-SHA2-512/224"),
    (.hmacSha2_512_256, "HMAC-SHA2-512/256"), (.hmacSha3_224, "HMAC-SHA3-224"),
    (.hmacSha3_256, "HMAC-SHA3-256"), (.hmacSha3_384, "HMAC-SHA3-384"),
    (.hmacSha3_512, "HMAC-SHA3-512"), (.kmac128, "KMAC-128"), (.kmac256, "KMAC-256")]

/-- {lit}`amvp_lookup_aux_function_alg_str`. -/
def lookupAuxFunctionAlgStr (value : Int) : Option String :=
  (auxFunctionTbl.find? fun row => row.1.toInt == value).map Prod.snd

/-- {lit}`strncpy_s` into a buffer of this size; a text that does not fit is dropped. -/
def strncpyS (dmax : Nat) (s : String) (slen : Nat) : String :=
  if min slen s.length < dmax then String.ofList (s.toList.take slen) else ""

/-! ## Parameters that the variants share -/

/-- The literal is one the functions accept. -/
def isLiteral (text : String) : Prop :=
  1 ≤ text.length ∧ text.length ≤ kdaPatternLiteralStrLenMax

instance (text : String) : Decidable (isLiteral text) := inferInstanceAs (Decidable (_ ∧ _))

/-- Set a pattern candidate.  For a literal the old text goes first, then the new text is
checked, and then the candidate is appended. -/
def kdaSetPattern {σ : Type} (setLiteral : Option String → σ → σ) (addPattern : σ → σ)
    (admitted : Bool) (value : Int) (text : String) : Setter σ :=
  if value = kdaPatternLiteral then
    Op.changed (setLiteral none) (
      if text.length > kdaPatternLiteralStrLenMax then refuse .invalidArg
      else if text.length < 1 then refuse .invalidArg
      else
        Op.changed (setLiteral (some (strncpyS kdaPatternLiteralStrLenMax text text.length))) (
          if admitted then accept addPattern else refuse .invalidArg))
  else if admitted then accept addPattern
  else refuse .invalidArg

/-- The candidates of the enumeration. -/
def isPattern (value : Int) : Bool := kdaPatternNone < value ∧ value < kdaPatternMax

/-- Set the revision. -/
def kdaSetRevision {σ : Type} (value : Int) (f : σ → σ) : Setter σ :=
  if value ≠ revisionSp800_56Cr1 then refuse .invalidArg else accept f

/-- Append an encoding. -/
def kdaAddEncoding {σ : Type} (value : Int) (f : σ → σ) : Setter σ :=
  if value > kdaEncodingNone ∧ value < kdaEncodingMax then accept f else refuse .invalidArg

/-- Set the length of the derived key. -/
def kdaSetL {σ : Type} (value : Int) (f : σ → σ) : Setter σ :=
  if value ≤ 0 then refuse .invalidArg
  else if value % 8 ≠ 0 then refuse .invalidArg
  else accept f

/-- Append a way to choose the salt. -/
def kdaAddMacSalt {σ : Type} (value : Int) (f : String → σ → σ) : Setter σ :=
  if value = 1 then accept (f "default")
  else if value = 2 then accept (f "random")
  else refuse .invalidArg

/-- Append a named algorithm. -/
def kdaAddName {σ : Type} (name : Option String) (f : String → σ → σ) : Setter σ :=
  match name with
  | none => refuse .invalidArg
  | some name => accept (f name)

/-- Set the range of a secret. -/
def kdaSetRange {σ : Type} (lower min max increment : Int) (f : σ → σ) : Setter σ :=
  if min < lower ∨ max > 65536 ∨ increment % 8 ≠ 0 then refuse .invalidArg else accept f

/-! ## One-step and HKDF -/

/-- {lit}`amvp_cap_kda_enable`. -/
def capKdaEnable (cipher : Cipher) (handler : Option CryptoHandler) : CapAction :=
  withHandler handler fun handler =>
    match cipher with
    | .kdaOnestep => .append .kdaOnestep cipher handler
    | .kdaTwostep => .append .kdaTwostep cipher handler
    | .kdaHkdf => .append .kdaHkdf cipher handler
    | _ => .refuse .invalidArg

/-- The one-step branch of {lit}`amvp_cap_kda_set_parm`. -/
def kdaOnestepSetParm (param : KdaParm) (value : Int) (text : String) : Setter KdaOnestepCap :=
  match param with
  | .pattern =>
    kdaSetPattern (fun literal cap => { cap with literalPatternCandidate := literal })
      (fun cap => { cap with patterns := cap.patterns ++ [value] }) (isPattern value) value text
  | .revision => kdaSetRevision value fun cap => { cap with revision := value }
  | .encodingType =>
    kdaAddEncoding value fun cap => { cap with encodings := cap.encodings ++ [value] }
  | .l => kdaSetL value fun cap => { cap with l := value }
  | .macSalt =>
    kdaAddMacSalt value fun name cap => { cap with macSaltMethods := cap.macSaltMethods ++ [name] }
  | .onestepAuxFunction =>
    kdaAddName (lookupAuxFunctionAlgStr value)
      fun name cap => { cap with auxFunctions := cap.auxFunctions ++ [name] }
  | _ => refuse .invalidArg

/-- The HKDF branch of {lit}`amvp_cap_kda_set_parm`. -/
def kdaHkdfSetParm (param : KdaParm) (value : Int) (text : String) : Setter KdaHkdfCap :=
  match param with
  | .pattern =>
    kdaSetPattern (fun literal cap => { cap with literalPatternCandidate := literal })
      (fun cap => { cap with patterns := cap.patterns ++ [value] })
      (value ≠ kdaPatternT && isPattern value) value text
  | .revision => kdaSetRevision value fun cap => { cap with revision := value }
  | .encodingType =>
    kdaAddEncoding value fun cap => { cap with encodings := cap.encodings ++ [value] }
  | .l => kdaSetL value fun cap => { cap with l := value }
  | .macSalt =>
    kdaAddMacSalt value fun name cap => { cap with macSaltMethods := cap.macSaltMethods ++ [name] }
  | .macAlg =>
    kdaAddName (lookupHashAlgName value)
      fun name cap => { cap with hmacAlgs := cap.hmacAlgs ++ [name] }
  | .useHybridSecret =>
    Op.inspect fun cap =>
      if cap.revision ≠ 0 then refuse .invalidArg
      else
        accept fun cap =>
          { cap with
            auxSecretLen := cap.auxSecretLen.withValue value
            useHybridSharedSecret := 1 }
  | .performMultiexpansionTests =>
    accept fun cap => { cap with performMultiExpansionTests := if value > 0 then 1 else 0 }
  | _ => refuse .invalidArg

/-- {lit}`amvp_cap_kda_set_parm`.  For a value that is no cipher the code returns the number
one, which is {lit}`AMVP_MALLOC_FAIL`. -/
def capKdaSetParm (cipher : Cipher) (param : KdaParm) (value : Int) (string : Option String) :
    CapAction :=
  if param = .pattern ∧ value = kdaPatternLiteral ∧ string = none then .refuse .invalidArg
  else
    .atEntry cipher (
      match cipher with
      | .kdaOnestep =>
        .member .kdaOnestepCap (uncounted (kdaOnestepSetParm param value (string.getD "")))
      | .kdaHkdf => .member .kdaHkdfCap (uncounted (kdaHkdfSetParm param value (string.getD "")))
      | cipher => if cipher.isAlgorithm then .refuse .invalidArg else .refuse .mallocFail)

/-- The one-step branch of {lit}`amvp_cap_kda_set_domain`. -/
def kdaOnestepSetDomain (param : KdaParm) (min max increment : Int) : Setter KdaOnestepCap :=
  match param with
  | .z =>
    kdaSetRange 224 min max increment fun cap =>
      { cap with z := cap.z.withRange min max increment }
  | _ => refuse .invalidArg

/-- The HKDF branch of {lit}`amvp_cap_kda_set_domain`. -/
def kdaHkdfSetDomain (param : KdaParm) (min max increment : Int) : Setter KdaHkdfCap :=
  match param with
  | .z =>
    kdaSetRange 224 min max increment fun cap =>
      { cap with z := cap.z.withRange min max increment }
  | .useHybridSecret =>
    Op.inspect fun cap =>
      if cap.revision ≠ 0 then refuse .invalidArg
      else
        kdaSetRange 112 min max increment fun cap =>
          { cap with
            auxSecretLen := cap.auxSecretLen.withRange min max increment
            useHybridSharedSecret := 1 }
  | _ => refuse .invalidArg

/-- {lit}`amvp_cap_kda_set_domain`. -/
def capKdaSetDomain (cipher : Cipher) (param : KdaParm) (min max increment : Int) : CapAction :=
  .atEntry cipher (
    match cipher with
    | .kdaOnestep =>
      .member .kdaOnestepCap (uncounted (kdaOnestepSetDomain param min max increment))
    | .kdaHkdf => .member .kdaHkdfCap (uncounted (kdaHkdfSetDomain param min max increment))
    | cipher => if cipher.isAlgorithm then .refuse .invalidArg else .refuse .mallocFail)

/-! ## Two-step -/

/-- The names of the MAC modes of the two-step variant. -/
def kdaTwostepMacStr (value : Int) : Option String :=
  if value = 1 then some "CMAC-AES128"
  else if value = 2 then some "CMAC-AES192"
  else if value = 3 then some "CMAC-AES256"
  else if value = 5 then some "HMAC-SHA-1"
  else if value = 6 then some "HMAC-SHA2-224"
  else if value = 7 then some "HMAC-SHA2-256"
  else if value = 8 then some "HMAC-SHA2-384"
  else if value = 9 then some "HMAC-SHA2-512"
  else if value = 10 then some "HMAC-SHA2-512/224"
  else if value = 11 then some "HMAC-SHA2-512/256"
  else if value = 12 then some "HMAC-SHA3-224"
  else if value = 13 then some "HMAC-SHA3-256"
  else if value = 14 then some "HMAC-SHA3-384"
  else if value = 15 then some "HMAC-SHA3-512"
  else none

/-- The parameters that {lit}`amvp_cap_kda_twostep_set_parm` keeps for a mode. -/
def KdaParm.isOfMode : KdaParm → Bool
  | twostepSupportedLen | twostepFixedDataOrder | twostepCounterLen | twostepSupportsEmptyIv
  | twostepRequiresEmptyIv | macAlg => true
  | _ => false

/-- The part of the last switch of {lit}`amvp_cap_kda_twostep_set_parm` that is about a
mode. -/
def kdaTwostepStoreModeParm (param : KdaParm) (value : Int) : Setter Kdf108ModeParams :=
  match param with
  | .macAlg =>
    kdaAddName (kdaTwostepMacStr value)
      fun name mode => { mode with macMode := mode.macMode ++ [name] }
  | .twostepFixedDataOrder =>
    kdaAddName (kdf108FixedDataOrderStr value)
      fun name mode => { mode with dataOrder := mode.dataOrder ++ [name] }
  | .twostepCounterLen =>
    if value < 1 ∨ value > kdf108KeyinBitMax then refuse .invalidArg
    else accept fun mode => { mode with counterLens := mode.counterLens ++ [value] }
  | .twostepSupportsEmptyIv => accept fun mode => { mode with emptyIvSupport := value }
  | .twostepRequiresEmptyIv =>
    Op.inspect fun mode =>
      if mode.emptyIvSupport = 0 then refuse .invalidArg
      else accept fun mode => { mode with requiresEmptyIv := value }
  | .twostepSupportedLen =>
    accept fun mode => { mode with supportedLens := mode.supportedLens.withValue value }
  | _ => refuse .invalidArg

/-- The other part of the last switch of {lit}`amvp_cap_kda_twostep_set_parm`. -/
def kdaTwostepStoreParm (param : KdaParm) (value : Int) (text : String) : Setter KdaTwostepCap :=
  match param with
  | .pattern =>
    kdaSetPattern (fun literal cap => { cap with literalPatternCandidate := literal })
      (fun cap => { cap with patterns := cap.patterns ++ [value] }) (isPattern value) value text
  | .revision => kdaSetRevision value fun cap => { cap with revision := value }
  | .encodingType =>
    kdaAddEncoding value fun cap => { cap with encodings := cap.encodings ++ [value] }
  | .l => kdaSetL value fun cap => { cap with l := value }
  | .macSalt =>
    kdaAddMacSalt value fun name cap => { cap with macSaltMethods := cap.macSaltMethods ++ [name] }
  | .useHybridSecret =>
    Op.inspect fun cap =>
      if cap.revision ≠ 0 then refuse .invalidArg
      else
        accept fun cap =>
          { cap with
            auxSecretLen := cap.auxSecretLen.withValue value
            useHybridSharedSecret := 1 }
  | .performMultiexpansionTests =>
    accept fun cap => { cap with performMultiExpansionTests := if value > 0 then 1 else 0 }
  | _ => refuse .invalidArg

/-- Work on the parameters of a mode of the two-step variant. -/
def kdaTwostepAtMode (mode : Kdf108Mode) (op : Setter Kdf108ModeParams) : Setter KdaTwostepCap :=
  Op.zoom KdaTwostepCap.kdfParams (fun params cap => { cap with kdfParams := params })
    (kdf108AtMode mode fun name => Op.changed (Kdf108ModeParams.named name) op)

/-- The work of {lit}`amvp_cap_kda_twostep_set_parm` on the content. -/
def kdaTwostepSetParm (param : KdaParm) (value : Int) (kdfMode : Kdf108Mode)
    (string : Option String) : Setter KdaTwostepCap :=
  if param.isOfMode then kdaTwostepAtMode kdfMode (kdaTwostepStoreModeParm param value)
  else if param = .pattern ∧ value = kdaPatternLiteral ∧ string = none then refuse .invalidArg
  else kdaTwostepStoreParm param value (string.getD "")

/-- {lit}`amvp_cap_kda_twostep_set_parm`. -/
def capKdaTwostepSetParm (param : KdaParm) (value : Int) (kdfMode : Kdf108Mode)
    (string : Option String) : CapAction :=
  .atEntry .kdaTwostep
    (.member .kdaTwostepCap (uncounted (kdaTwostepSetParm param value kdfMode string)))

/-- The work of {lit}`amvp_cap_kda_twostep_set_domain` on the content. -/
def kdaTwostepSetDomain (param : KdaParm) (min max increment : Int) (kdfMode : Kdf108Mode) :
    Setter KdaTwostepCap :=
  match param with
  | .twostepSupportedLen =>
    kdaTwostepAtMode kdfMode (
      if increment = 0 then refuse .invalidArg
      else
        accept fun mode =>
          { mode with supportedLens := mode.supportedLens.withRange min max increment })
  | .z =>
    kdaSetRange 224 min max increment fun cap =>
      { cap with z := cap.z.withRange min max increment }
  | .useHybridSecret =>
    Op.inspect fun cap =>
      if cap.revision ≠ 0 then refuse .invalidArg
      else
        kdaSetRange 112 min max increment fun cap =>
          { cap with
            auxSecretLen := cap.auxSecretLen.withRange min max increment
            useHybridSharedSecret := 1 }
  | _ => refuse .invalidArg

/-- {lit}`amvp_cap_kda_twostep_set_domain`. -/
def capKdaTwostepSetDomain (param : KdaParm) (min max increment : Int) (kdfMode : Kdf108Mode) :
    CapAction :=
  .atEntry .kdaTwostep
    (.member .kdaTwostepCap
      (uncounted (kdaTwostepSetDomain param min max increment kdfMode)))

end LibAmvp
