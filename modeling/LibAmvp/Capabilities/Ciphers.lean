import Mathlib.Tactic

/-!
# Ciphers and capability types

The algorithms an application can register, and the types of the capability entries
that describe them.  A value of an enumeration that comes from the application can lie
outside the enumeration: {lit}`other` holds such a value.
-/

namespace LibAmvp

/-- {lit}`AMVP_CIPHER`. -/
inductive Cipher where
  | cipherStart
  | aesGcm | aesGcmSiv | aesCcm | aesEcb | aesCbc | aesCbcCs1 | aesCbcCs2 | aesCbcCs3
  | aesCfb1 | aesCfb8 | aesCfb128 | aesOfb | aesCtr | aesXts | aesKw | aesKwp | aesGmac
  | aesXpn
  | tdesEcb | tdesCbc | tdesCbci | tdesOfb | tdesOfbi | tdesCfb1 | tdesCfb8 | tdesCfb64
  | tdesCfbp1 | tdesCfbp8 | tdesCfbp64 | tdesCtr | tdesKw
  | hashSha1 | hashSha224 | hashSha256 | hashSha384 | hashSha512 | hashSha512_224
  | hashSha512_256 | hashSha3_224 | hashSha3_256 | hashSha3_384 | hashSha3_512
  | hashShake128 | hashShake256
  | hashdrbg | hmacdrbg | ctrdrbg
  | hmacSha1 | hmacSha2_224 | hmacSha2_256 | hmacSha2_384 | hmacSha2_512
  | hmacSha2_512_224 | hmacSha2_512_256 | hmacSha3_224 | hmacSha3_256 | hmacSha3_384
  | hmacSha3_512
  | cmacAes | cmacTdes
  | kmac128 | kmac256
  | dsaKeygen | dsaPqggen | dsaPqgver | dsaSiggen | dsaSigver
  | rsaKeygen | rsaSiggen | rsaSigver | rsaDecprim | rsaSigprim
  | ecdsaKeygen | ecdsaKeyver | ecdsaSiggen | ecdsaSigver
  | kdf135Snmp | kdf135Ssh | kdf135Srtp | kdf135Ikev2 | kdf135Ikev1 | kdf135X942
  | kdf135X963 | kdf108 | pbkdf | kdfTls12 | kdfTls13
  | kasEccCdh | kasEccComp | kasEccNocomp | kasEccSsc
  | kasFfcComp | kasFfcNocomp | kasFfcSsc | kasIfcSsc
  | kdaOnestep | kdaTwostep | kdaHkdf
  | ktsIfc
  | safePrimesKeygen | safePrimesKeyver
  | cipherEnd
  | other (raw : Int)
deriving DecidableEq

/-- {lit}`AMVP_CAP_TYPE`, without the TPM type, for which nothing can be registered. -/
inductive CapType where
  | sym | hash | drbg | hmac | cmac | kmac
  | rsaKeygen | rsaSiggen | rsaSigver | rsaPrim
  | ecdsaKeygen | ecdsaKeyver | ecdsaSiggen | ecdsaSigver
  | dsa
  | kdf135Snmp | kdf135Ssh | kdf135Srtp | kdf135Ikev2 | kdf135Ikev1 | kdf135X942
  | kdf135X963 | kdf108 | pbkdf | kdfTls12 | kdfTls13
  | kasEccCdh | kasEccComp | kasEccNocomp | kasEccSsc
  | kasFfcComp | kasFfcSsc | kasFfcNocomp | kasIfc
  | kdaOnestep | kdaTwostep | kdaHkdf
  | ktsIfc
  | safePrimesKeygen | safePrimesKeyver
deriving DecidableEq

namespace Cipher

/-- The AES ciphers. -/
def isAes : Cipher → Bool
  | aesGcm | aesGcmSiv | aesCcm | aesEcb | aesCbc | aesCbcCs1 | aesCbcCs2 | aesCbcCs3
  | aesCfb1 | aesCfb8 | aesCfb128 | aesOfb | aesCtr | aesXts | aesKw | aesKwp | aesGmac
  | aesXpn => true
  | _ => false

/-- The triple-DES ciphers. -/
def isTdes : Cipher → Bool
  | tdesEcb | tdesCbc | tdesCbci | tdesOfb | tdesOfbi | tdesCfb1 | tdesCfb8 | tdesCfb64
  | tdesCfbp1 | tdesCfbp8 | tdesCfbp64 | tdesCtr | tdesKw => true
  | _ => false

/-- The hash functions with a fixed output length. -/
def isSha : Cipher → Bool
  | hashSha1 | hashSha224 | hashSha256 | hashSha384 | hashSha512 | hashSha512_224
  | hashSha512_256 | hashSha3_224 | hashSha3_256 | hashSha3_384 | hashSha3_512 => true
  | _ => false

/-- The extendable-output functions. -/
def isShake : Cipher → Bool
  | hashShake128 | hashShake256 => true
  | _ => false

/-- The HMAC algorithms. -/
def isHmac : Cipher → Bool
  | hmacSha1 | hmacSha2_224 | hmacSha2_256 | hmacSha2_384 | hmacSha2_512
  | hmacSha2_512_224 | hmacSha2_512_256 | hmacSha3_224 | hmacSha3_256 | hmacSha3_384
  | hmacSha3_512 => true
  | _ => false

/-- The values {lit}`alg_tbl` has a row for. -/
def isAlgorithm : Cipher → Bool
  | cipherStart | cipherEnd | other _ => false
  | _ => true

end Cipher

/-- {lit}`AMVP_HASH_ALG`; the values are flags. -/
inductive HashAlg where
  | sha1 | sha224 | sha256 | sha384 | sha512 | sha512_224 | sha512_256
  | sha3_224 | sha3_256 | sha3_384 | sha3_512
deriving DecidableEq

namespace HashAlg

/-- The value of a hash algorithm in the enumeration. -/
def toInt : HashAlg → Int
  | sha1 => 1
  | sha224 => 2
  | sha256 => 4
  | sha384 => 8
  | sha512 => 16
  | sha512_224 => 32
  | sha512_256 => 64
  | sha3_224 => 128
  | sha3_256 => 256
  | sha3_384 => 512
  | sha3_512 => 1024

/-- The name of a hash algorithm in {lit}`hash_alg_tbl`. -/
def name : HashAlg → String
  | sha1 => "SHA-1"
  | sha224 => "SHA2-224"
  | sha256 => "SHA2-256"
  | sha384 => "SHA2-384"
  | sha512 => "SHA2-512"
  | sha512_224 => "SHA2-512/224"
  | sha512_256 => "SHA2-512/256"
  | sha3_224 => "SHA3-224"
  | sha3_256 => "SHA3-256"
  | sha3_384 => "SHA3-384"
  | sha3_512 => "SHA3-512"

/-- The rows of {lit}`hash_alg_tbl`, in order. -/
def all : List HashAlg :=
  [sha1, sha224, sha256, sha384, sha512, sha512_224, sha512_256, sha3_224, sha3_256,
    sha3_384, sha3_512]

/-- The hash algorithm with this value. -/
def ofInt (value : Int) : Option HashAlg :=
  all.find? fun alg => alg.toInt == value

end HashAlg

/-- {lit}`AMVP_NO_SHA`. -/
def noSha : Int := 0

/-- {lit}`AMVP_HASH_ALG_MAX`. -/
def hashAlgMax : Int := 2048

/-- {lit}`amvp_lookup_hash_alg_name`. -/
def lookupHashAlgName (value : Int) : Option String :=
  (HashAlg.ofInt value).map HashAlg.name

/-- The bitwise disjunction of two values of the C type {lit}`int`. -/
def intOr (a b : Int) : Int := (BitVec.ofInt 32 a ||| BitVec.ofInt 32 b).toInt

/-- The bitwise conjunction of two values of the C type {lit}`int`. -/
def intAnd (a b : Int) : Int := (BitVec.ofInt 32 a &&& BitVec.ofInt 32 b).toInt

end LibAmvp
