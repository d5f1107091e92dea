import LibAmvp.Capabilities.Kdf

/-!
# Key agreement and key transport

The functions of the capability interface for KAS-ECC, KAS-FFC, KAS-IFC, KTS-IFC and safe
primes.
-/

namespace LibAmvp

open Keyed

/-! ## KAS-ECC -/

/-- {lit}`AMVP_KAS_ECC_MODE`. -/
inductive KasEccMode where
  | component | cdh | nocomp | none | maxModes
  | other (raw : Int)
deriving DecidableEq

/-- The value of a mode in the enumeration. -/
def KasEccMode.toInt : KasEccMode → Int
  | component => 1
  | cdh => 2
  | nocomp => 3
  | none => 4
  | maxModes => 5
  | other raw => raw

/-- {lit}`AMVP_KAS_ECC_PARAM`. -/
inductive KasEccParam where
  | function | revision | curve | role | kdf | eb | ec | ed | ee | hash | none
  | other (raw : Int)
deriving DecidableEq

/-- The value of a parameter in the enumeration. -/
def KasEccParam.toInt : KasEccParam → Int
  | function => 1
  | revision => 2
  | curve => 3
  | role => 4
  | kdf => 5
  | eb => 6
  | ec => 7
  | ed => 8
  | ee => 9
  | hash => 10
  | none => 11
  | other raw => raw

def kasEccMaxFuncs : Int := 7
def kasEccParmset : Int := 4
def kasEccRoleInitiator : Int := 1
def kasEccRoleResponder : Int := 2
def kasEccSchemesMax : Int := 8
def revisionSp800_56Ar3 : Int := 2

/-- The ciphers of the functions for KAS-ECC. -/
def Cipher.isKasEcc : Cipher → Bool
  | .kasEccCdh | .kasEccComp | .kasEccNocomp | .kasEccSsc => true
  | _ => false

/-- Work on the mode of a KAS-ECC capability at an index of its array. -/
def kasEccAtMode (mode : KasEccMode) (op : Setter KasEccCapMode) : Setter KasEccCap :=
  Op.zoom KasEccCap.kasEccMode (fun modes _ => { kasEccMode := modes })
    (Op.atIndex .outOfBounds (mode.toInt - 1) op)

/-- {lit}`amvp_add_kas_ecc_prereq_val`. -/
def addKasEccPrereqVal (preReq : PrereqAlg) (value : Option String) : Setter KasEccCapMode :=
  accept fun mode => { mode with prereqVals := mode.prereqVals ++ [{ alg := preReq, val := value }] }

/-- {lit}`amvp_cap_kas_ecc_set_prereq`.  The mode is an index that is not checked. -/
def capKasEccSetPrereq (cipher : Cipher) (mode : KasEccMode) (preReq : PrereqAlg)
    (value : Option String) : CapAction :=
  if preReq ∈ [.ccm, .cmac, .drbg, .ecdsa, .hmac, .sha] then
    .atEntry cipher
      (.member .kasEccCap (uncounted (kasEccAtMode mode (addKasEccPrereqVal preReq value))))
  else .refuse .invalidArg

/-- {lit}`amvp_cap_kas_ecc_enable`. -/
def capKasEccEnable (cipher : Cipher) (handler : Option CryptoHandler) : CapAction :=
  withHandler handler fun handler =>
    match cipher with
    | .kasEccCdh => .append .kasEccCdh cipher handler
    | .kasEccComp => .append .kasEccComp cipher handler
    | .kasEccNocomp => .append .kasEccNocomp cipher handler
    | .kasEccSsc => .append .kasEccSsc cipher handler
    | _ => .refuse .invalidArg

/-- Store a hash algorithm as the functions for key agreement do: a value outside the
enumeration is refused only when it is zero or a power of two. -/
def storeLooseHash {σ : Type} (value : Int) (f : σ → σ) : Setter σ :=
  if value < noSha ∨ value ≥ hashAlgMax then
    if value = intMin then Op.trap .overflow
    else if intAnd value (value - 1) = 0 then refuse .invalidArg
    else accept f
  else accept f

/-- The work of {lit}`amvp_cap_kas_ecc_set_parm` on a mode. -/
def kasEccModeSetParm (cipher : Cipher) (mode : KasEccMode) (param : KasEccParam) (value : Int) :
    Setter KasEccCapMode :=
  match mode with
  | .cdh | .none =>
    match param with
    | .function =>
      if value = 0 ∨ value > kasEccMaxFuncs then refuse .invalidArg
      else accept fun mode => { mode with function := mode.function ++ [value] }
    | .revision =>
      if cipher = .kasEccCdh then
        if value = revisionSp800_56Ar3 then accept fun mode => { mode with revision := value }
        else refuse .invalidArg
      else refuse .invalidArg
    | .hash => storeLooseHash value fun mode => { mode with hash := value }
    | .curve =>
      if value ≤ ecCurveStart ∨ value ≥ ecCurveEnd then refuse .invalidArg
      else accept fun mode => { mode with curve := mode.curve ++ [value] }
    | .none => if cipher = .kasEccSsc then accept id else refuse .invalidArg
    | _ => refuse .invalidArg
  | .component =>
    match param with
    | .function =>
      if value = 0 ∨ value > kasEccMaxFuncs then refuse .invalidArg
      else accept fun mode => { mode with function := mode.function ++ [value] }
    | _ => refuse .invalidArg
  | _ => refuse .invalidArg

/-- The work of {lit}`amvp_cap_kas_ecc_set_parm` on the content. -/
def kasEccSetParm (cipher : Cipher) (mode : KasEccMode) (param : KasEccParam) (value : Int) :
    Setter KasEccCap :=
  match mode with
  | .cdh | .none | .component => kasEccAtMode mode (kasEccModeSetParm cipher mode param value)
  | _ => refuse .invalidArg

/-- {lit}`amvp_cap_kas_ecc_set_parm`. -/
def capKasEccSetParm (cipher : Cipher) (mode : KasEccMode) (param : KasEccParam) (value : Int) :
    CapAction :=
  if cipher.isKasEcc then
    .atEntry cipher (.member .kasEccCap (uncounted (kasEccSetParm cipher mode param value)))
  else .refuse .invalidArg

/-- The scheme that {lit}`amvp_cap_kas_ecc_set_scheme` works on.  When it is not there, it
takes the place of the whole list. -/
def KasEccCapMode.openScheme (scheme : Int) (mode : KasEccCapMode) : KasEccCapMode :=
  if mode.scheme.any fun s => s.scheme == scheme then mode
  else { mode with scheme := [{ scheme := scheme }] }

/-- Change a scheme of a mode. -/
def KasEccCapMode.withScheme (scheme : Int) (f : KasEccScheme → KasEccScheme)
    (mode : KasEccCapMode) : KasEccCapMode :=
  { mode with scheme := modifyFirst (fun s => s.scheme == scheme) f mode.scheme }

/-- The last switch of {lit}`amvp_cap_kas_ecc_set_scheme`. -/
def kasEccStoreScheme (scheme : Int) (param : KasEccParam) (option value : Int) :
    Setter KasEccCapMode :=
  match param with
  | .kdf =>
    if value = 0 ∨ value > kasEccParmset then refuse .invalidArg
    else accept (KasEccCapMode.withScheme scheme fun s => { s with kdf := value })
  | .role =>
    if value ≠ kasEccRoleInitiator ∧ value ≠ kasEccRoleResponder then refuse .invalidArg
    else accept (KasEccCapMode.withScheme scheme fun s => { s with role := s.role ++ [value] })
  | .eb | .ec | .ed | .ee =>
    accept (KasEccCapMode.withScheme scheme fun s =>
      { s with
        pset := upsert (fun p => p.set == param.toInt) { set := param.toInt, curve := option }
          (fun p => { p with sha := p.sha ++ [value] }) s.pset })
  | .none => accept id
  | _ => refuse .invalidArg

/-- The work of {lit}`amvp_cap_kas_ecc_set_scheme` on a mode. -/
def kasEccModeSetScheme (scheme : Int) (param : KasEccParam) (option value : Int) :
    Setter KasEccCapMode :=
  if 0 < scheme ∧ scheme < kasEccSchemesMax then
    Op.changed (KasEccCapMode.openScheme scheme) (kasEccStoreScheme scheme param option value)
  else refuse .invalidArg

/-- The work of {lit}`amvp_cap_kas_ecc_set_scheme` on the content. -/
def kasEccSetScheme (mode : KasEccMode) (scheme : Int) (param : KasEccParam)
    (option value : Int) : Setter KasEccCap :=
  match mode with
  | .component | .nocomp | .none =>
    kasEccAtMode mode (kasEccModeSetScheme scheme param option value)
  | _ => refuse .invalidArg

/-- {lit}`amvp_cap_kas_ecc_set_scheme`. -/
def capKasEccSetScheme (cipher : Cipher) (mode : KasEccMode) (scheme : Int)
    (param : KasEccParam) (option value : Int) : CapAction :=
  if cipher.isKasEcc then
    .atEntry cipher
      (.member .kasEccCap (uncounted (kasEccSetScheme mode scheme param option value)))
  else .refuse .invalidArg

/-! ## KAS-FFC -/

/-- {lit}`AMVP_KAS_FFC_MODE`. -/
inductive KasFfcMode where
  | component | nocomp | none | maxModes
  | other (raw : Int)
deriving DecidableEq

/-- The value of a mode in the enumeration. -/
def KasFfcMode.toInt : KasFfcMode → Int
  | component => 1
  | nocomp => 2
  | none => 3
  | maxModes => 4
  | other raw => raw

/-- {lit}`AMVP_KAS_FFC_PARAM`. -/
inductive KasFfcParam where
  | function | curve | role | hash | genMeth | kdf | fb | fc
  | modp2048 | modp3072 | modp4096 | modp6144 | modp8192
  | ffdhe2048 | ffdhe3072 | ffdhe4096 | ffdhe6144 | ffdhe8192
  | other (raw : Int)
deriving DecidableEq

/-- The value of a parameter in the enumeration. -/
def KasFfcParam.toInt : KasFfcParam → Int
  | function => 1
  | curve => 2
  | role => 3
  | hash => 4
  | genMeth => 5
  | kdf => 6
  | fb => 7
  | fc => 8
  | modp2048 => 9
  | modp3072 => 10
  | modp4096 => 11
  | modp6144 => 12
  | modp8192 => 13
  | ffdhe2048 => 14
  | ffdhe3072 => 15
  | ffdhe4096 => 16
  | ffdhe6144 => 17
  | ffdhe8192 => 18
  | other raw => raw

def kasFfcMaxFuncs : Int := 6
def kasFfcParmset : Int := 4
def kasFfcRoleInitiator : Int := 1
def kasFfcRoleResponder : Int := 2
def kasFfcMaxSchemes : Int := 8

/-- The ciphers of the functions for KAS-FFC. -/
def Cipher.isKasFfc : Cipher → Bool
  | .kasFfcComp | .kasFfcNocomp | .kasFfcSsc => true
  | _ => false

/-- Work on the mode of a KAS-FFC capability at an index of its array. -/
def kasFfcAtMode (mode : KasFfcMode) (op : Setter KasFfcCapMode) : Setter KasFfcCap :=
  Op.zoom KasFfcCap.kasFfcMode (fun modes _ => { kasFfcMode := modes })
    (Op.atIndex .outOfBounds (mode.toInt - 1) op)

/-- {lit}`amvp_add_kas_ffc_prereq_val`. -/
def addKasFfcPrereqVal (preReq : PrereqAlg) (value : Option String) : Setter KasFfcCapMode :=
  accept fun mode => { mode with prereqVals := mode.prereqVals ++ [{ alg := preReq, val := value }] }

/-- {lit}`amvp_cap_kas_ffc_set_prereq`.  The mode is an index that is not checked. -/
def capKasFfcSetPrereq (cipher : Cipher) (mode : KasFfcMode) (preReq : PrereqAlg)
    (value : Option String) : CapAction :=
  if preReq ∈ [.ccm, .cmac, .drbg, .dsa, .hmac, .sha, .safePrimes] then
    .atEntry cipher
      (.member .kasFfcCap (uncounted (kasFfcAtMode mode (addKasFfcPrereqVal preReq value))))
  else .refuse .invalidArg

/-- {lit}`amvp_cap_kas_ffc_enable`. -/
def capKasFfcEnable (cipher : Cipher) (handler : Option CryptoHandler) : CapAction :=
  withHandler handler fun handler =>
    match cipher with
    | .kasFfcSsc => .append .kasFfcSsc cipher handler
    | .kasFfcComp => .append .kasFfcComp cipher handler
    | .kasFfcNocomp => .append .kasFfcNocomp cipher handler
    | _ => .refuse .invalidArg

/-- The work of {lit}`amvp_cap_kas_ffc_set_parm` on the content. -/
def kasFfcSetParm (mode : KasFfcMode) (param : KasFfcParam) (value : Int) : Setter KasFfcCap :=
  match mode with
  | .component =>
    match param with
    | .function =>
      if value = 0 ∨ value > kasFfcMaxFuncs then refuse .invalidArg
      else
        kasFfcAtMode mode (accept fun mode => { mode with function := mode.function ++ [value] })
    | _ => refuse .invalidArg
  | .none =>
    match param with
    | .genMeth =>
      kasFfcAtMode mode (accept fun mode => { mode with genmeth := mode.genmeth ++ [value] })
    | .hash => kasFfcAtMode mode (storeLooseHash value fun mode => { mode with hash := value })
    | _ => refuse .invalidArg
  | _ => refuse .invalidArg

/-- {lit}`amvp_cap_kas_ffc_set_parm`. -/
def capKasFfcSetParm (cipher : Cipher) (mode : KasFfcMode) (param : KasFfcParam) (value : Int) :
    CapAction :=
  if cipher.isKasFfc then
    .atEntry cipher (.member .kasFfcCap (uncounted (kasFfcSetParm mode param value)))
  else .refuse .invalidArg

/-- The scheme that {lit}`amvp_cap_kas_ffc_set_scheme` works on.  When it is not there, it
takes the place of the whole list. -/
def KasFfcCapMode.openScheme (scheme : Int) (mode : KasFfcCapMode) : KasFfcCapMode :=
  if mode.scheme.any fun s => s.scheme == scheme then mode
  else { mode with scheme := [{ scheme := scheme }] }

/-- Change a scheme of a mode. -/
def KasFfcCapMode.withScheme (scheme : Int) (f : KasFfcScheme → KasFfcScheme)
    (mode : KasFfcCapMode) : KasFfcCapMode :=
  { mode with scheme := modifyFirst (fun s => s.scheme == scheme) f mode.scheme }

/-- The last switch of {lit}`amvp_cap_kas_ffc_set_scheme`. -/
def kasFfcStoreScheme (scheme : Int) (param : KasFfcParam) (value : Int) : Setter KasFfcCapMode :=
  match param with
  | .kdf =>
    if value = 0 ∨ value > kasFfcParmset then refuse .invalidArg
    else accept (KasFfcCapMode.withScheme scheme fun s => { s with kdf := value })
  | .role =>
    if value ≠ kasFfcRoleInitiator ∧ value ≠ kasFfcRoleResponder then refuse .invalidArg
    else accept (KasFfcCapMode.withScheme scheme fun s => { s with role := s.role ++ [value] })
  | .fb | .fc | .modp2048 | .modp3072 | .modp4096 | .modp6144 | .modp8192 | .ffdhe2048
  | .ffdhe3072 | .ffdhe4096 | .ffdhe6144 | .ffdhe8192 =>
    accept (KasFfcCapMode.withScheme scheme fun s =>
      { s with
        pset := upsert (fun p => p.set == param.toInt) { set := param.toInt }
          (fun p => { p with sha := p.sha ++ [value] }) s.pset })
  | _ => refuse .invalidArg

/-- The work of {lit}`amvp_cap_kas_ffc_set_scheme` on a mode. -/
def kasFfcModeSetScheme (scheme : Int) (param : KasFfcParam) (value : Int) :
    Setter KasFfcCapMode :=
  if 0 < scheme ∧ scheme < kasFfcMaxSchemes then
    Op.changed (KasFfcCapMode.openScheme scheme) (kasFfcStoreScheme scheme param value)
  else refuse .invalidArg

/-- The work of {lit}`amvp_cap_kas_ffc_set_scheme` on the content. -/
def kasFfcSetScheme (mode : KasFfcMode) (scheme : Int) (param : KasFfcParam) (value : Int) :
    Setter KasFfcCap :=
  match mode with
  | .component | .nocomp | .none => kasFfcAtMode mode (kasFfcModeSetScheme scheme param value)
  | _ => refuse .invalidArg

/-- {lit}`amvp_cap_kas_ffc_set_scheme`. -/
def capKasFfcSetScheme (cipher : Cipher) (mode : KasFfcMode) (scheme : Int)
    (param : KasFfcParam) (value : Int) : CapAction :=
  .atEntry cipher (.member .kasFfcCap (uncounted (kasFfcSetScheme mode scheme param value)))

/-! ## KAS-IFC -/

/-- {lit}`AMVP_KAS_IFC_PARAM`. -/
inductive KasIfcParam where
  | keygenMethod | modulo | hash | kas1 | kas2 | fixedpubexp
  | other (raw : Int)
deriving DecidableEq

/-- {lit}`amvp_cap_kas_ifc_enable`; {lit}`amvp_cap_list_append` checks the cipher. -/
def capKasIfcEnable (cipher : Cipher) (handler : Option CryptoHandler) : CapAction :=
  withHandler handler fun handler => .append .kasIfc cipher handler

/-- The work of {lit}`amvp_cap_kas_ifc_set_parm` on the content. -/
def kasIfcSetParm (param : KasIfcParam) (value : Int) : Setter KasIfcCap :=
  match param with
  | .kas1 => accept fun cap => { cap with kas1Roles := cap.kas1Roles ++ [value] }
  | .kas2 => accept fun cap => { cap with kas2Roles := cap.kas2Roles ++ [value] }
  | .keygenMethod => accept fun cap => { cap with keygenMethod := cap.keygenMethod ++ [value] }
  | .modulo => accept fun cap => { cap with modulo := cap.modulo ++ [value] }
  | .hash => storeLooseHash value fun cap => { cap with hash := value }
  | _ => refuse .invalidArg

/-- {lit}`amvp_cap_kas_ifc_set_parm`. -/
def capKasIfcSetParm (cipher : Cipher) (param : KasIfcParam) (value : Int) : CapAction :=
  .atEntry cipher (.member .kasIfcCap (uncounted (kasIfcSetParm param value)))

/-- The work of {lit}`amvp_cap_kas_ifc_set_exponent` on the content. -/
def kasIfcSetExponent (param : KasIfcParam) (value : Option String) : Setter KasIfcCap :=
  if (value.getD "").length > capabilityStrMax then refuse .invalidArg
  else if param ≠ .fixedpubexp then refuse .invalidArg
  else accept fun cap => { cap with fixedPubExp := some (value.getD "") }

/-- {lit}`amvp_cap_kas_ifc_set_exponent`. -/
def capKasIfcSetExponent (cipher : Cipher) (param : KasIfcParam) (value : Option String) :
    CapAction :=
  .atEntry cipher (.member .kasIfcCap (uncounted (kasIfcSetExponent param value)))

/-! ## KTS-IFC -/

/-- {lit}`AMVP_KTS_IFC_PARAM`. -/
inductive KtsIfcParam where
  | keygenMethod | scheme | function | modulo | iutId | keypairGen | partialVal | fixedpubexp
  | other (raw : Int)
deriving DecidableEq

/-- {lit}`AMVP_KTS_IFC_SCHEME_PARAM`. -/
inductive KtsIfcSchemeParam where
  | nullAssocData | adPattern | encoding | hash | role | l | macMethods
  | other (raw : Int)
deriving DecidableEq

/-- {lit}`amvp_cap_kts_ifc_enable`; {lit}`amvp_cap_list_append` checks the cipher. -/
def capKtsIfcEnable (cipher : Cipher) (handler : Option CryptoHandler) : CapAction :=
  withHandler handler fun handler => .append .ktsIfc cipher handler

/-- The work of {lit}`amvp_cap_kts_ifc_set_parm` on the content. -/
def ktsIfcSetParm (param : KtsIfcParam) (value : Int) : Setter KtsIfcCap :=
  match param with
  | .keygenMethod => accept fun cap => { cap with keygenMethod := cap.keygenMethod ++ [value] }
  | .function => accept fun cap => { cap with functions := cap.functions ++ [value] }
  | .modulo => accept fun cap => { cap with modulo := cap.modulo ++ [value] }
  | .scheme => accept fun cap => { cap with schemes := cap.schemes ++ [{ scheme := value }] }
  | _ => refuse .invalidArg

/-- {lit}`amvp_cap_kts_ifc_set_parm`. -/
def capKtsIfcSetParm (cipher : Cipher) (param : KtsIfcParam) (value : Int) : CapAction :=
  .atEntry cipher (.member .ktsIfcCap (uncounted (ktsIfcSetParm param value)))

/-- Work on the scheme that the functions for a scheme pick.  Their loop leaves after one
step: the second scheme is picked whenever the first is not the one asked for. -/
def atPickedScheme (scheme : Int) (op : Setter KtsIfcScheme) : Setter (List KtsIfcScheme)
  | [] => .ok (.noCap, [])
  | first :: rest =>
    if first.scheme ≠ scheme then
      match rest with
      | [] => .ok (.noCap, [first])
      | second :: rest => (op second).map fun out => (out.1, first :: out.2 :: rest)
    else (op first).map fun out => (out.1, out.2 :: rest)

/-- Work on the picked scheme of the content. -/
def ktsIfcAtScheme (scheme : Int) (op : Setter KtsIfcScheme) : Setter KtsIfcCap :=
  Op.zoom KtsIfcCap.schemes (fun schemes cap => { cap with schemes := schemes })
    (atPickedScheme scheme op)

/-- The last switch of {lit}`amvp_cap_kts_ifc_set_scheme_parm`. -/
def ktsIfcStoreSchemeParm (param : KtsIfcSchemeParam) (value : Int) : Setter KtsIfcScheme :=
  match param with
  | .nullAssocData => accept fun s => { s with nullAssocData := value }
  | .l => accept fun s => { s with l := value }
  | .role => accept fun s => { s with roles := s.roles ++ [value] }
  | .hash => accept fun s => { s with hash := s.hash ++ [value] }
  | _ => refuse .invalidArg

/-- {lit}`amvp_cap_kts_ifc_set_scheme_parm`. -/
def capKtsIfcSetSchemeParm (cipher : Cipher) (scheme : Int) (param : KtsIfcSchemeParam)
    (value : Int) : CapAction :=
  .atEntry cipher
    (.member .ktsIfcCap (uncounted (ktsIfcAtScheme scheme (ktsIfcStoreSchemeParm param value))))

/-- The work of {lit}`amvp_cap_kts_ifc_set_param_string` on the content. -/
def ktsIfcSetParamString (param : KtsIfcParam) (value : Option String) : Setter KtsIfcCap :=
  if (value.getD "").length > capabilityStrMax then refuse .invalidArg
  else
    match param with
    | .fixedpubexp => accept fun cap => { cap with fixedPubExp := some (value.getD "") }
    | .iutId => accept fun cap => { cap with iutId := some (value.getD "") }
    | _ => refuse .invalidArg

/-- {lit}`amvp_cap_kts_ifc_set_param_string`. -/
def capKtsIfcSetParamString (cipher : Cipher) (param : KtsIfcParam) (value : Option String) :
    CapAction :=
  .atEntry cipher (.member .ktsIfcCap (uncounted (ktsIfcSetParamString param value)))

/-- The work of {lit}`amvp_cap_kts_ifc_set_scheme_string` on the content.  The parameter is
declared as one of the algorithm and compared with those of a scheme. -/
def ktsIfcSetSchemeString (scheme : Int) (param : KtsIfcSchemeParam) (value : Option String) :
    Setter KtsIfcCap :=
  if (value.getD "").length > capabilityStrMax then refuse .invalidArg
  else
    ktsIfcAtScheme scheme (
      match param with
      | .adPattern => accept fun s => { s with assocDataPattern := some (value.getD "") }
      | .encoding => accept fun s => { s with encodings := some (value.getD "") }
      | _ => refuse .invalidArg)

/-- {lit}`amvp_cap_kts_ifc_set_scheme_string`. -/
def capKtsIfcSetSchemeString (cipher : Cipher) (scheme : Int) (param : KtsIfcSchemeParam)
    (value : Option String) : CapAction :=
  .atEntry cipher (.member .ktsIfcCap (uncounted (ktsIfcSetSchemeString scheme param value)))

/-! ## Safe primes -/

/-- {lit}`AMVP_SAFE_PRIMES_PARAM`. -/
inductive SafePrimesParam where
  | genmeth
  | other (raw : Int)
deriving DecidableEq

/-- {lit}`amvp_cap_safe_primes_enable`. -/
def capSafePrimesEnable (cipher : Cipher) (handler : Option CryptoHandler) : CapAction :=
  withHandler handler fun handler =>
    match cipher with
    | .safePrimesKeygen => .append .safePrimesKeygen cipher handler
    | .safePrimesKeyver => .append .safePrimesKeyver cipher handler
    | _ => .refuse .noCap

/-- The work of {lit}`amvp_cap_safe_primes_set_parm` on the content. -/
def safePrimesSetParm (param : SafePrimesParam) (mode : Int) : Setter SafePrimesCap :=
  match param with
  | .genmeth => accept fun cap => { cap with genmeth := some (cap.genmeth.getD [] ++ [mode]) }
  | .other _ => accept fun cap => { cap with genmeth := some (cap.genmeth.getD []) }

/-- {lit}`amvp_cap_safe_primes_set_parm`. -/
def capSafePrimesSetParm (cipher : Cipher) (param : SafePrimesParam) (mode : Int) : CapAction :=
  .atEntry cipher (
    match cipher with
    | .safePrimesKeygen =>
      .member .safePrimesKeygenCap (uncounted (safePrimesSetParm param mode))
    | .safePrimesKeyver =>
      .member .safePrimesKeyverCap (uncounted (safePrimesSetParm param mode))
    | _ => .refuse .noCap)

end LibAmvp
