import LibAmvp.Capabilities.Kda

/-!
# Calls of the capability interface

A call is a function of the interface together with its arguments.  A run is a sequence of
calls on one context; it ends where a call does something without a defined outcome.
-/

namespace LibAmvp

/-- The functions of the capability interface with their arguments. -/
inductive CapCall where
  -- prerequisites and symmetric ciphers
  | setPrereq (cipher : Cipher) (preReqCap : PrereqAlg) (value : Option String)
  | symCipherSetDomain (cipher : Cipher) (parm : SymCiphDomainParm) (min max increment : Int)
  | symCipherSetParm (cipher : Cipher) (parm : SymCiphParm) (value : Int)
  | symCipherEnable (cipher : Cipher) (handler : Option CryptoHandler)
  -- hashes and message authentication
  | hashEnable (cipher : Cipher) (handler : Option CryptoHandler)
  | hashSetParm (cipher : Cipher) (param : HashParm) (value : Int)
  | hashSetDomain (cipher : Cipher) (parm : HashParm) (min max increment : Int)
  | hmacEnable (cipher : Cipher) (handler : Option CryptoHandler)
  | hmacSetDomain (cipher : Cipher) (parm : HmacParm) (min max increment : Int)
  | hmacSetParm (cipher : Cipher) (parm : HmacParm) (value : Int)
  | cmacEnable (cipher : Cipher) (handler : Option CryptoHandler)
  | cmacSetDomain (cipher : Cipher) (parm : CmacParm) (min max increment : Int)
  | cmacSetParm (cipher : Cipher) (parm : CmacParm) (value : Int)
  | kmacEnable (cipher : Cipher) (handler : Option CryptoHandler)
  | kmacSetParm (cipher : Cipher) (parm : KmacParm) (value : Int)
  | kmacSetDomain (cipher : Cipher) (parm : KmacParm) (min max increment : Int)
  -- random bit generators and signatures
  | drbgSetLength (cipher : Cipher) (mode group : Int) (param : DrbgParm) (min step max : Int)
  | drbgSetParm (cipher : Cipher) (mode group : Int) (param : DrbgParm) (value : Int)
  | drbgEnable (cipher : Cipher) (handler : Option CryptoHandler)
  | rsaKeygenSetMode (value : Int)
  | rsaKeygenSetParm (param : RsaParm) (value : Int)
  | rsaKeygenEnable (cipher : Cipher) (handler : Option CryptoHandler)
  | rsaSigverSetParm (param : RsaParm) (value : Int)
  | rsaSigverSetType (value : Int)
  | rsaSiggenSetType (value : Int)
  | rsaKeygenSetExponent (param : RsaParm) (value : Option String)
  | rsaSigverSetExponent (param : RsaParm) (value : Option String)
  | rsaKeygenSetPrimes (mode mod : Int) (param : RsaPrimeParam) (value : Int)
  | rsaSigverSetModParm (sigType mod hashAlg saltLen : Int)
  | rsaSiggenSetModParm (sigType mod hashAlg saltLen : Int)
  | rsaSigEnable (cipher : Cipher) (handler : Option CryptoHandler)
  | rsaPrimEnable (cipher : Cipher) (handler : Option CryptoHandler)
  | rsaPrimSetParm (param : RsaParm) (value : Int)
  | rsaPrimSetExponent (param : RsaParm) (value : Option String)
  | ecdsaSetParm (cipher : Cipher) (param : EcdsaParm) (value : Int)
  | ecdsaSetCurveHashAlg (cipher : Cipher) (curve alg : Int)
  | ecdsaEnable (cipher : Cipher) (handler : Option CryptoHandler)
  | dsaSetParm (cipher : Cipher) (mode : Int) (param : DsaParm) (value : Int)
  | dsaEnable (cipher : Cipher) (handler : Option CryptoHandler)
  -- key derivation
  | kdf135SnmpEnable (handler : Option CryptoHandler)
  | kdf135SshEnable (handler : Option CryptoHandler)
  | kdf135SrtpEnable (handler : Option CryptoHandler)
  | kdf135Ikev2Enable (handler : Option CryptoHandler)
  | kdf135Ikev1Enable (handler : Option CryptoHandler)
  | kdf135X942Enable (handler : Option CryptoHandler)
  | kdf135X963Enable (handler : Option CryptoHandler)
  | kdf108Enable (handler : Option CryptoHandler)
  | pbkdfEnable (handler : Option CryptoHandler)
  | kdfTls12Enable (handler : Option CryptoHandler)
  | kdfTls13Enable (handler : Option CryptoHandler)
  | kdf135SnmpSetParm (kcap : Cipher) (param : Kdf135SnmpParam) (value : Int)
  | kdf135SnmpSetEngid (kcap : Cipher) (engid : Option String)
  | pbkdfSetDomain (param : PbkdfParm) (min max increment : Int)
  | pbkdfSetParm (param : PbkdfParm) (value : Int)
  | kdf135SshSetParm (kcap : Cipher) (method param : Int)
  | kdf135SrtpSetParm (cipher : Cipher) (param : Kdf135SrtpParam) (value : Int)
  | kdf108SetParm (mode : Kdf108Mode) (param : Kdf108Parm) (value : Int)
  | kdf108SetDomain (mode : Kdf108Mode) (param : Kdf108Parm) (min max increment : Int)
  | kdf135Ikev2SetParm (param : Kdf135Ikev2Parm) (value : Int)
  | kdf135Ikev2SetLength (param : Kdf135Ikev2Parm) (value : Int)
  | kdf135Ikev2SetDomain (param : Kdf135Ikev2Parm) (min max increment : Int)
  | kdf135Ikev1SetParm (param : Kdf135Ikev1Parm) (value : Int)
  | kdf135Ikev1SetDomain (param : Kdf135Ikev1Parm) (min max increment : Int)
  | kdf135X942SetDomain (param : Kdf135X942Parm) (min max increment : Int)
  | kdf135X942SetParm (param : Kdf135X942Parm) (value : Int)
  | kdf135X963SetParm (param : Kdf135X963Parm) (value : Int)
  | kdfTls12SetParm (param : KdfTls12Parm) (value : Int)
  | kdfTls13SetParm (param : KdfTls13Parm) (value : Int)
  -- key agreement and key transport
  | kasEccSetPrereq (cipher : Cipher) (mode : KasEccMode) (preReq : PrereqAlg)
    (value : Option String)
  | kasEccEnable (cipher : Cipher) (handler : Option CryptoHandler)
  | kasEccSetParm (cipher : Cipher) (mode : KasEccMode) (param : KasEccParam) (value : Int)
  | kasEccSetScheme (cipher : Cipher) (mode : KasEccMode) (scheme : Int) (param : KasEccParam)
    (option value : Int)
  | kasFfcSetPrereq (cipher : Cipher) (mode : KasFfcMode) (preReq : PrereqAlg)
    (value : Option String)
  | kasFfcEnable (cipher : Cipher) (handler : Option CryptoHandler)
  | kasFfcSetParm (cipher : Cipher) (mode : KasFfcMode) (param : KasFfcParam) (value : Int)
  | kasFfcSetScheme (cipher : Cipher) (mode : KasFfcMode) (scheme : Int) (param : KasFfcParam)
    (value : Int)
  | kasIfcEnable (cipher : Cipher) (handler : Option CryptoHandler)
  | kasIfcSetParm (cipher : Cipher) (param : KasIfcParam) (value : Int)
  | kasIfcSetExponent (cipher : Cipher) (param : KasIfcParam) (value : Option String)
  | ktsIfcEnable (cipher : Cipher) (handler : Option CryptoHandler)
  | ktsIfcSetParm (cipher : Cipher) (param : KtsIfcParam) (value : Int)
  | ktsIfcSetSchemeParm (cipher : Cipher) (scheme : Int) (param : KtsIfcSchemeParam) (value : Int)
  | ktsIfcSetParamString (cipher : Cipher) (param : KtsIfcParam) (value : Option String)
  | ktsIfcSetSchemeString (cipher : Cipher) (scheme : Int) (param : KtsIfcSchemeParam)
    (value : Option String)
  | safePrimesEnable (cipher : Cipher) (handler : Option CryptoHandler)
  | safePrimesSetParm (cipher : Cipher) (param : SafePrimesParam) (mode : Int)
  -- key derivation for key agreement
  | kdaEnable (cipher : Cipher) (handler : Option CryptoHandler)
  | kdaSetParm (cipher : Cipher) (param : KdaParm) (value : Int) (string : Option String)
  | kdaSetDomain (cipher : Cipher) (param : KdaParm) (min max increment : Int)
  | kdaTwostepSetParm (param : KdaParm) (value : Int) (kdfMode : Kdf108Mode)
    (string : Option String)
  | kdaTwostepSetDomain (param : KdaParm) (min max increment : Int) (kdfMode : Kdf108Mode)

namespace CapCall

/-- What a call does once its arguments have passed. -/
def action : CapCall → CapAction
  | setPrereq cipher preReqCap value => capSetPrereq cipher preReqCap value
  | symCipherSetDomain cipher parm min max increment =>
    capSymCipherSetDomain cipher parm min max increment
  | symCipherSetParm cipher parm value => capSymCipherSetParm cipher parm value
  | symCipherEnable cipher handler => capSymCipherEnable cipher handler
  | hashEnable cipher handler => capHashEnable cipher handler
  | hashSetParm cipher param value => capHashSetParm cipher param value
  | hashSetDomain cipher parm min max increment => capHashSetDomain cipher parm min max increment
  | hmacEnable cipher handler => capHmacEnable cipher handler
  | hmacSetDomain cipher parm min max increment => capHmacSetDomain cipher parm min max increment
  | hmacSetParm cipher parm value => capHmacSetParm cipher parm value
  | cmacEnable cipher handler => capCmacEnable cipher handler
  | cmacSetDomain cipher parm min max increment => capCmacSetDomain cipher parm min max increment
  | cmacSetParm cipher parm value => capCmacSetParm cipher parm value
  | kmacEnable cipher handler => capKmacEnable cipher handler
  | kmacSetParm cipher parm value => capKmacSetParm cipher parm value
  | kmacSetDomain cipher parm min max increment => capKmacSetDomain cipher parm min max increment
  | drbgSetLength cipher mode group param min step max =>
    capDrbgSetLength cipher mode group param min step max
  | drbgSetParm cipher mode group param value => capDrbgSetParm cipher mode group param value
  | drbgEnable cipher handler => capDrbgEnable cipher handler
  | rsaKeygenSetMode value => capRsaKeygenSetMode value
  | rsaKeygenSetParm param value => capRsaKeygenSetParm param value
  | rsaKeygenEnable cipher handler => capRsaKeygenEnable cipher handler
  | rsaSigverSetParm param value => capRsaSigverSetParm param value
  | rsaSigverSetType value => capRsaSigverSetType value
  | rsaSiggenSetType value => capRsaSiggenSetType value
  | rsaKeygenSetExponent param value => capRsaKeygenSetExponent param value
  | rsaSigverSetExponent param value => capRsaSigverSetExponent param value
  | rsaKeygenSetPrimes mode mod param value => capRsaKeygenSetPrimes mode mod param value
  | rsaSigverSetModParm sigType mod hashAlg saltLen =>
    capRsaSigverSetModParm sigType mod hashAlg saltLen
  | rsaSiggenSetModParm sigType mod hashAlg saltLen =>
    capRsaSiggenSetModParm sigType mod hashAlg saltLen
  | rsaSigEnable cipher handler => capRsaSigEnable cipher handler
  | rsaPrimEnable cipher handler => capRsaPrimEnable cipher handler
  | rsaPrimSetParm param value => capRsaPrimSetParm param value
  | rsaPrimSetExponent param value => capRsaPrimSetExponent param value
  | ecdsaSetParm cipher param value => capEcdsaSetParm cipher param value
  | ecdsaSetCurveHashAlg cipher curve alg => capEcdsaSetCurveHashAlg cipher curve alg
  | ecdsaEnable cipher handler => capEcdsaEnable cipher handler
  | dsaSetParm cipher mode param value => capDsaSetParm cipher mode param value
  | dsaEnable cipher handler => capDsaEnable cipher handler
  | kdf135SnmpEnable handler => capKdf135SnmpEnable handler
  | kdf135SshEnable handler => capKdf135SshEnable handler
  | kdf135SrtpEnable handler => capKdf135SrtpEnable handler
  | kdf135Ikev2Enable handler => capKdf135Ikev2Enable handler
  | kdf135Ikev1Enable handler => capKdf135Ikev1Enable handler
  | kdf135X942Enable handler => capKdf135X942Enable handler
  | kdf135X963Enable handler => capKdf135X963Enable handler
  | kdf108Enable handler => capKdf108Enable handler
  | pbkdfEnable handler => capPbkdfEnable handler
  | kdfTls12Enable handler => capKdfTls12Enable handler
  | kdfTls13Enable handler => capKdfTls13Enable handler
  | kdf135SnmpSetParm kcap param value => capKdf135SnmpSetParm kcap param value
  | kdf135SnmpSetEngid kcap engid => capKdf135SnmpSetEngid kcap engid
  | pbkdfSetDomain param min max increment => capPbkdfSetDomain param min max increment
  | pbkdfSetParm param value => capPbkdfSetParm param value
  | kdf135SshSetParm kcap method param => capKdf135SshSetParm kcap method param
  | kdf135SrtpSetParm cipher param value => capKdf135SrtpSetParm cipher param value
  | kdf108SetParm mode param value => capKdf108SetParm mode param value
  | kdf108SetDomain mode param min max increment =>
    capKdf108SetDomain mode param min max increment
  | kdf135Ikev2SetParm param value => capKdf135Ikev2SetParm param value
  | kdf135Ikev2SetLength param value => capKdf135Ikev2SetLength param value
  | kdf135Ikev2SetDomain param min max increment =>
    capKdf135Ikev2SetDomain param min max increment
  | kdf135Ikev1SetParm param value => capKdf135Ikev1SetParm param value
  | kdf135Ikev1SetDomain param min max increment =>
    capKdf135Ikev1SetDomain param min max increment
  | kdf135X942SetDomain param min max increment => capKdf135X942SetDomain param min max increment
  | kdf135X942SetParm param value => capKdf135X942SetParm param value
  | kdf135X963SetParm param value => capKdf135X963SetParm param value
  | kdfTls12SetParm param value => capKdfTls12SetParm param value
  | kdfTls13SetParm param value => capKdfTls13SetParm param value
  | kasEccSetPrereq cipher mode preReq value => capKasEccSetPrereq cipher mode preReq value
  | kasEccEnable cipher handler => capKasEccEnable cipher handler
  | kasEccSetParm cipher mode param value => capKasEccSetParm cipher mode param value
  | kasEccSetScheme cipher mode scheme param option value =>
    capKasEccSetScheme cipher mode scheme param option value
  | kasFfcSetPrereq cipher mode preReq value => capKasFfcSetPrereq cipher mode preReq value
  | kasFfcEnable cipher handler => capKasFfcEnable cipher handler
  | kasFfcSetParm cipher mode param value => capKasFfcSetParm cipher mode param value
  | kasFfcSetScheme cipher mode scheme param value =>
    capKasFfcSetScheme cipher mode scheme param value
  | kasIfcEnable cipher handler => capKasIfcEnable cipher handler
  | kasIfcSetParm cipher param value => capKasIfcSetParm cipher param value
  | kasIfcSetExponent cipher param value => capKasIfcSetExponent cipher param value
  | ktsIfcEnable cipher handler => capKtsIfcEnable cipher handler
  | ktsIfcSetParm cipher param value => capKtsIfcSetParm cipher param value
  | ktsIfcSetSchemeParm cipher scheme param value =>
    capKtsIfcSetSchemeParm cipher scheme param value
  | ktsIfcSetParamString cipher param value => capKtsIfcSetParamString cipher param value
  | ktsIfcSetSchemeString cipher scheme param value =>
    capKtsIfcSetSchemeString cipher scheme param value
  | safePrimesEnable cipher handler => capSafePrimesEnable cipher handler
  | safePrimesSetParm cipher param mode => capSafePrimesSetParm cipher param mode
  | kdaEnable cipher handler => capKdaEnable cipher handler
  | kdaSetParm cipher param value string => capKdaSetParm cipher param value string
  | kdaSetDomain cipher param min max increment => capKdaSetDomain cipher param min max increment
  | kdaTwostepSetParm param value kdfMode string =>
    capKdaTwostepSetParm param value kdfMode string
  | kdaTwostepSetDomain param min max increment kdfMode =>
    capKdaTwostepSetDomain param min max increment kdfMode

/-- A call on a context. -/
def exec (call : CapCall) : Op Fault AmvpResult Caps := call.action.run

end CapCall

/-- The contexts that calls can reach from a new one, with the calls made and their results.
Every call has to meet a condition on the context it is made on. -/
inductive Reached (allowed : Caps → CapCall → Prop) : List (CapCall × AmvpResult) → Caps → Prop
  | start : Reached allowed [] {}
  | call {trace : List (CapCall × AmvpResult)} {s s' : Caps} {call : CapCall} {rv : AmvpResult}
      (hs : Reached allowed trace s) (hallowed : allowed s call)
      (hexec : call.exec s = .ok (rv, s')) : Reached allowed (trace ++ [(call, rv)]) s'

end LibAmvp
