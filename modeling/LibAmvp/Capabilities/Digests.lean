import LibAmvp.Capabilities.Symmetric

/-!
# Hashes and message authentication

The functions of the capability interface for hash functions, HMAC, CMAC and KMAC.
The functions for hash functions check the family of the cipher; those for message
authentication codes, apart from the ones that enable an algorithm, do not.
-/

namespace LibAmvp

/-! ## Hash functions -/

/-- {lit}`AMVP_HASH_PARM`. -/
inductive HashParm where
  | inBit | inEmpty | outBit | outLength | messageLen
  | other (raw : Int)
deriving DecidableEq

def hashMsgBitMin : Int := 0
def hashMsgBitMax : Int := 65536
def hashXofMdBitMin : Int := 16
def hashXofMdBitMax : Int := 65536

/-- The ciphers of the hash functions. -/
def Cipher.isHash (cipher : Cipher) : Bool := cipher.isSha || cipher.isShake

/-- The ciphers whose hash parameters can be set. -/
def Cipher.isSha3 : Cipher → Bool
  | .hashSha3_224 | .hashSha3_256 | .hashSha3_384 | .hashSha3_512 | .hashShake128
  | .hashShake256 => true
  | _ => false

/-- {lit}`amvp_cap_hash_enable`. -/
def capHashEnable (cipher : Cipher) (handler : Option CryptoHandler) : CapAction :=
  withHandler handler fun handler =>
    if cipher.isHash then .append .hash cipher handler else .refuse .invalidArg

/-- {lit}`amvp_validate_hash_parm_value`. -/
def validateHashParmValue (parm : HashParm) (value : Int) : AmvpResult :=
  match parm with
  | .inBit | .inEmpty | .outBit => isValidTfParam value
  | _ => .invalidArg

/-- The work of {lit}`amvp_cap_hash_set_parm` on the content. -/
def hashSetParm (cipher : Cipher) (param : HashParm) (value : Int) : Setter HashCap :=
  if validateHashParmValue param value ≠ .success then refuse .invalidArg
  else
    match param with
    | .inBit => accept fun cap => { cap with inBit := value }
    | .inEmpty => accept fun cap => { cap with inEmpty := value }
    | .outBit =>
      if cipher.isShake then accept fun cap => { cap with outBit := value }
      else refuse .invalidArg
    | _ => refuse .invalidArg

/-- {lit}`amvp_cap_hash_set_parm`. -/
def capHashSetParm (cipher : Cipher) (param : HashParm) (value : Int) : CapAction :=
  if cipher.isSha3 then
    .atEntry cipher (.member .hashCap (uncounted (hashSetParm cipher param value)))
  else .refuse .invalidArg

/-- The end of {lit}`amvp_cap_hash_set_domain`: the steps of the range, then the change. -/
def hashStoreDomain (min max increment : Int) (store : HashCap → HashCap) : Setter HashCap :=
  if increment ≤ 0 then refuse .invalidArg
  else if min % increment ≠ 0 then refuse .invalidArg
  else if max % increment ≠ 0 then refuse .invalidArg
  else accept store

/-- The work of {lit}`amvp_cap_hash_set_domain` on the content. -/
def hashSetDomain (cipher : Cipher) (parm : HashParm) (min max increment : Int) :
    Setter HashCap :=
  match parm with
  | .messageLen =>
    if cipher = .hashShake128 ∨ cipher = .hashShake256 then refuse .invalidArg
    else if min < hashMsgBitMin ∨ max > hashMsgBitMax then refuse .invalidArg
    else
      hashStoreDomain min max increment fun cap =>
        { cap with msgLength := cap.msgLength.withRange min max increment }
  | .outLength =>
    if cipher ≠ .hashShake128 ∧ cipher ≠ .hashShake256 then refuse .invalidArg
    else if min < hashXofMdBitMin ∨ max > hashXofMdBitMax then refuse .invalidArg
    else if increment + min > intMax then Op.trap .overflow
    else if increment + min > hashXofMdBitMax then refuse .invalidArg
    else
      hashStoreDomain min max increment fun cap =>
        { cap with outLen := cap.outLen.withRange min max increment }
  | _ => refuse .invalidArg

/-- {lit}`amvp_cap_hash_set_domain`. -/
def capHashSetDomain (cipher : Cipher) (parm : HashParm) (min max increment : Int) : CapAction :=
  if cipher.isHash then
    .atEntry cipher (.member .hashCap (uncounted (hashSetDomain cipher parm min max increment)))
  else .refuse .invalidArg

/-! ## HMAC -/

/-- {lit}`AMVP_HMAC_PARM`. -/
inductive HmacParm where
  | keylen | keyblock | maclen
  | other (raw : Int)
deriving DecidableEq

def hmacKeyBitMin : Int := 8
def hmacKeyBitMax : Int := 524288
def hmacMacBitMin : Int := 32
def hmacMacBitMax : Int := 512

/-- The length of the code that an algorithm produces. -/
def hmacMaxVal : Cipher → Int
  | .hmacSha1 => 160
  | .hmacSha2_224 | .hmacSha2_512_224 | .hmacSha3_224 => 224
  | .hmacSha2_256 | .hmacSha2_512_256 | .hmacSha3_256 => 256
  | .hmacSha2_384 | .hmacSha3_384 => 384
  | .hmacSha2_512 | .hmacSha3_512 => 512
  | _ => 0

/-- {lit}`amvp_validate_hmac_parm_value`. -/
def validateHmacParmValue (cipher : Cipher) (parm : HmacParm) (value : Int) : AmvpResult :=
  match parm with
  | .keylen => passes (hmacKeyBitMin ≤ value ∧ value ≤ hmacKeyBitMax ∧ value % 8 = 0)
  | .maclen => passes (hmacMacBitMin ≤ value ∧ value ≤ hmacMaxVal cipher ∧ value % 8 = 0)
  | _ => .invalidArg

/-- {lit}`amvp_cap_hmac_enable`. -/
def capHmacEnable (cipher : Cipher) (handler : Option CryptoHandler) : CapAction :=
  withHandler handler fun handler =>
    if cipher.isHmac then .append .hmac cipher handler else .refuse .invalidArg

/-- A domain with bounds on its ends and a step in whole bytes. -/
def storeBoundedDomain {σ : Type} (lower upper min max increment : Int) (store : σ → σ) :
    Setter σ :=
  if min < lower ∨ max > upper then refuse .invalidArg
  else if increment % 8 ≠ 0 then refuse .invalidArg
  else accept store

/-- The work of {lit}`amvp_cap_hmac_set_domain` on the content. -/
def hmacSetDomain (parm : HmacParm) (min max increment : Int) : Setter HmacCap :=
  match parm with
  | .keylen =>
    storeBoundedDomain hmacKeyBitMin hmacKeyBitMax min max increment fun cap =>
      { cap with keyLen := cap.keyLen.withRange min max increment }
  | .maclen =>
    storeBoundedDomain hmacMacBitMin hmacMacBitMax min max increment fun cap =>
      { cap with macLen := cap.macLen.withRange min max increment }
  | _ => refuse .invalidArg

/-- {lit}`amvp_cap_hmac_set_domain`. -/
def capHmacSetDomain (cipher : Cipher) (parm : HmacParm) (min max increment : Int) : CapAction :=
  .atEntry cipher (.member .hmacCap (uncounted (hmacSetDomain parm min max increment)))

/-- The work of {lit}`amvp_cap_hmac_set_parm` on the entry. -/
def hmacSetParm (cipher : Cipher) (parm : HmacParm) (value : Int) : EntryAction :=
  if validateHmacParmValue cipher parm value ≠ .success then .refuse .invalidArg
  else
    match parm with
    | .keylen => .store .hmacCap fun cap => { cap with keyLen := cap.keyLen.withValue value }
    | .maclen => .store .hmacCap fun cap => { cap with macLen := cap.macLen.withValue value }
    | _ => .refuse .invalidArg

/-- {lit}`amvp_cap_hmac_set_parm`. -/
def capHmacSetParm (cipher : Cipher) (parm : HmacParm) (value : Int) : CapAction :=
  .atEntry cipher (hmacSetParm cipher parm value)

/-! ## CMAC -/

/-- {lit}`AMVP_CMAC_PARM`. -/
inductive CmacParm where
  | maclen | msglen | keylen | keyingOption | directionGen | directionVer
  | other (raw : Int)
deriving DecidableEq

def cmacMaclenMin : Int := 32
def cmacMaclenMax : Int := 128
def cmacMsglenMin : Int := 0
def cmacMsglenMax : Int := 524288

/-- {lit}`amvp_validate_cmac_parm_value`. -/
def validateCmacParmValue (parm : CmacParm) (value : Int) : AmvpResult :=
  match parm with
  | .maclen => passes (cmacMaclenMin ≤ value ∧ value ≤ cmacMaclenMax ∧ value % 8 = 0)
  | .msglen => passes (cmacMsglenMin ≤ value ∧ value ≤ cmacMsglenMax ∧ value % 8 = 0)
  | .keylen => passes (value = 128 ∨ value = 192 ∨ value = 256)
  | .keyingOption => passes (value = 1 ∨ value = 2)
  | .directionGen | .directionVer => isValidTfParam value
  | .other _ => .invalidArg

/-- {lit}`amvp_cap_cmac_enable`. -/
def capCmacEnable (cipher : Cipher) (handler : Option CryptoHandler) : CapAction :=
  withHandler handler fun handler =>
    match cipher with
    | .cmacAes | .cmacTdes => .append .cmac cipher handler
    | _ => .refuse .invalidArg

/-- The work of {lit}`amvp_cap_cmac_set_domain` on the content. -/
def cmacSetDomain (parm : CmacParm) (min max increment : Int) : Setter CmacCap :=
  match parm with
  | .msglen =>
    storeBoundedDomain cmacMsglenMin cmacMsglenMax min max increment fun cap =>
      { cap with msgLen := cap.msgLen.withRange min max increment }
  | .maclen =>
    storeBoundedDomain cmacMaclenMin cmacMaclenMax min max increment fun cap =>
      { cap with macLen := cap.macLen.withRange min max increment }
  | _ => refuse .invalidArg

/-- {lit}`amvp_cap_cmac_set_domain`. -/
def capCmacSetDomain (cipher : Cipher) (parm : CmacParm) (min max increment : Int) : CapAction :=
  .atEntry cipher (.member .cmacCap (uncounted (cmacSetDomain parm min max increment)))

/-- The work of {lit}`amvp_cap_cmac_set_parm` on the content. -/
def cmacSetParm (cipher : Cipher) (parm : CmacParm) (value : Int) : Setter CmacCap :=
  if validateCmacParmValue parm value ≠ .success then refuse .invalidArg
  else
    match parm with
    | .msglen => accept fun cap => { cap with msgLen := cap.msgLen.withValue value }
    | .maclen => accept fun cap => { cap with macLen := cap.macLen.withValue value }
    | .directionGen => accept fun cap => { cap with directionGen := value }
    | .directionVer => accept fun cap => { cap with directionVer := value }
    | .keylen => accept fun cap => { cap with keyLen := cap.keyLen ++ [value] }
    | .keyingOption =>
      if cipher = .cmacTdes then
        accept fun cap => { cap with keyingOption := cap.keyingOption ++ [value] }
      else refuse .invalidArg
    | .other _ => refuse .invalidArg

/-- {lit}`amvp_cap_cmac_set_parm`. -/
def capCmacSetParm (cipher : Cipher) (parm : CmacParm) (value : Int) : CapAction :=
  .atEntry cipher (.member .cmacCap (uncounted (cmacSetParm cipher parm value)))

/-! ## KMAC -/

/-- {lit}`AMVP_KMAC_PARM`. -/
inductive KmacParm where
  | maclen | msglen | keylen | xofSupport | hexCustomSupport
  | other (raw : Int)
deriving DecidableEq

/-- {lit}`amvp_cap_kmac_enable`. -/
def capKmacEnable (cipher : Cipher) (handler : Option CryptoHandler) : CapAction :=
  withHandler handler fun handler =>
    match cipher with
    | .kmac128 | .kmac256 => .append .kmac cipher handler
    | _ => .refuse .invalidArg

/-- The work of {lit}`amvp_cap_kmac_set_parm` on the content. -/
def kmacSetParm (parm : KmacParm) (value : Int) : Setter KmacCap :=
  match parm with
  | .xofSupport =>
    if value = 0 ∨ value = 1 ∨ value = 2 then accept fun cap => { cap with xof := value }
    else refuse .invalidArg
  | .hexCustomSupport =>
    if isValidTfParam value = .success then
      accept fun cap => { cap with hexCustomization := value }
    else refuse .invalidArg
  | _ => refuse .invalidArg

/-- {lit}`amvp_cap_kmac_set_parm`. -/
def capKmacSetParm (cipher : Cipher) (parm : KmacParm) (value : Int) : CapAction :=
  .atEntry cipher (.member .kmacCap (uncounted (kmacSetParm parm value)))

/-- {lit}`validate_domain_range`, before a setter goes on.  The last of its checks divides
by the increment. -/
def validateDomainRange {σ : Type} (min max inc : Int) (op : Setter σ) : Setter σ :=
  if min > max ∨ min < 0 ∨ max < 0 ∨ inc < 0 then refuse .invalidArg
  else if inc = 0 then Op.trap .divisionByZero
  else if (max - min) % inc ≠ 0 then refuse .invalidArg
  else op

/-- The work of {lit}`amvp_cap_kmac_set_domain` on the content. -/
def kmacSetDomain (parm : KmacParm) (min max increment : Int) : Setter KmacCap :=
  validateDomainRange min max increment (
    match parm with
    | .maclen =>
      if max > 65536 ∨ min < 32 ∨ increment ≠ 8 then refuse .invalidArg
      else accept fun cap => { cap with macLen := cap.macLen.withRange min max increment }
    | .msglen =>
      if max > 65536 then refuse .invalidArg
      else accept fun cap => { cap with msgLen := cap.msgLen.withRange min max increment }
    | .keylen =>
      if max > 524288 ∨ min < 128 ∨ increment ≠ 8 then refuse .invalidArg
      else accept fun cap => { cap with keyLen := cap.keyLen.withRange min max increment }
    | _ => refuse .invalidArg)

/-- {lit}`amvp_cap_kmac_set_domain`. -/
def capKmacSetDomain (cipher : Cipher) (parm : KmacParm) (min max increment : Int) : CapAction :=
  .atEntry cipher (.member .kmacCap (uncounted (kmacSetDomain parm min max increment)))

end LibAmvp
