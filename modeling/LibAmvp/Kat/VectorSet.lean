import LibAmvp.Capabilities.Entries
import LibAmvp.Lib.Dialog
import LibAmvp.Lib.Guard

/-!
# Vector sets and their handlers

What the handlers of known-answer tests share: the conversions between C strings and
bytes, the table of algorithms, the groups of a vector set and the response.  A handler
goes through the groups and tests of a vector set; for a test it fills a test case
structure, calls the crypto module with it and makes an answer of what the module has
left in the structure.  The module is a partner: what it does may depend on every call
before.

Main results:

- Theorem {lit}`testGroups_onlyTest`: a vector set cut down to one test.
- Theorem {lit}`aloneIff_of_alone`: a call of the module is the one of the test alone
  exactly when the variables that earlier tests have left make no difference.
-/

namespace LibAmvp

open Guard

/-! ## Conversions -/

/-- The conversion of a {lit}`double` to an {lit}`unsigned int`, by way of 64 bits. -/
def toUnsigned (q : ℚ) : Nat :=
  let n := q.num.tdiv q.den
  if -2 ^ 63 ≤ n ∧ n < 2 ^ 63 then (n % 2 ^ 32).toNat else 0

/-- What is read without a sign is below two to the 32nd. -/
theorem toUnsigned_lt (q : ℚ) : toUnsigned q < 2 ^ 32 := by
  unfold toUnsigned
  dsimp only
  split <;> omega

/-- The conversion of an {lit}`unsigned int` to an {lit}`int`. -/
def intOfUnsigned (n : Nat) : Int := (BitVec.ofNat 32 n).toInt

/-- The conversion of an {lit}`int` to an {lit}`unsigned int`. -/
def unsignedOfInt (n : Int) : Nat := (n % 2 ^ 32).toNat

/-- {lit}`AMVP_BIT2BYTE`. -/
def bit2byte (n : Int) : Int := (n + 7) / 8

/-- {lit}`strnlen_s`. -/
def strnlenS (s : String) (max : Nat) : Nat := min (cBytes s).length max

/-- A buffer that was allocated with zeros, and the bytes written to its front. -/
structure Buffer where
  size : Nat
  data : List UInt8 := []
deriving DecidableEq

/-- The first bytes of a buffer. -/
def Buffer.read (b : Buffer) (n : Nat) : List UInt8 :=
  (b.data ++ List.replicate (n - b.data.length) 0).take n

/-- {lit}`AMVP_HEXSTR_MAX`. -/
def hexstrMax : Nat := 262144

/-- {lit}`amvp_char_to_int`. -/
def charToInt (ch : UInt8) : UInt8 :=
  if 48 ≤ ch ∧ ch ≤ 57 then ch - 48
  else if 65 ≤ ch ∧ ch ≤ 70 then ch - 55
  else if 97 ≤ ch ∧ ch ≤ 102 then ch - 87
  else 0

/-- The loop of {lit}`amvp_hexstr_to_bin` over the characters. -/
def hexPairs : List UInt8 → List UInt8
  | a :: b :: rest => (charToInt a * 16 + charToInt b) :: hexPairs rest
  | _ => []

/-- {lit}`amvp_hexstr_to_bin`: the bytes stored at the destination. -/
def hexstrToBin (src : Option String) (destMax : Nat) : Except AmvpResult (List UInt8) := do
  let src ← need src .invalidArg
  let srcLen := strnlenS src hexstrMax
  stopIf (srcLen > 2 * destMax) .dataTooLarge
  stopIf (srcLen % 2 = 1) .unsupportedOp
  pure (hexPairs (cBytes src))

/-- A fresh buffer that holds the bytes of a hexadecimal string. -/
def hexstrToBuffer (src : Option String) (size : Nat) : Except AmvpResult Buffer := do
  let data ← hexstrToBin src size
  pure { size := size, data := data }

/-- A digit of {lit}`amvp_bin_to_hexstr`. -/
def hexChar (n : UInt8) : Char :=
  "0123456789ABCDEF".toList.getD n.toNat '0'

/-- The loop of {lit}`amvp_bin_to_hexstr`. -/
def hexDigits (bytes : List UInt8) : List Char :=
  bytes.flatMap fun b => [hexChar (b / 16), hexChar (b % 16)]

/-- {lit}`amvp_bin_to_hexstr`; a negative length converts nothing. -/
def binToHexstr (src : Option Buffer) (srcLen : Int) (destMax : Nat) :
    Except AmvpResult String := do
  let src ← need src .convertDataErr
  stopIf (2 * srcLen > destMax) .convertDataErr
  pure (String.ofList (hexDigits (src.read srcLen.toNat)))

/-- A pointer of a test case structure and its length. -/
structure Bytes where
  data : Option Buffer := none
  len : Int := 0
deriving DecidableEq

/-- A fresh buffer for the module to fill. -/
def Bytes.fresh (size : Nat) : Bytes := { data := some ⟨size, []⟩ }

/-- A fresh buffer with bytes at its front. -/
def Bytes.holding (size : Nat) (data : List UInt8) : Bytes :=
  { data := some ⟨size, data⟩, len := data.length }

/-- A fresh buffer that holds the bytes of a string. -/
def decodeBytes (src : Option String) (size : Nat) : Except AmvpResult Bytes :=
  (hexstrToBin src size).map (.holding size)

/-- The bytes of a string that may be missing. -/
def decodeOptional (src : Option String) (size : Nat) : Except AmvpResult Bytes :=
  onlyIf (src ≠ none) (decodeBytes src size) {}

/-- Decode a string into a field of a structure.  When that fails, the structure is left as
it was before. -/
def decodeInto {τ : Type} (src : Option String) (destMax : Nat) (set : List UInt8 → τ → τ)
    (stc : τ) : Except τ τ :=
  match hexstrToBin src destMax with
  | .ok data => .ok (set data stc)
  | .error _ => .error stc

/-- Decoding into a field succeeds exactly when the text can be decoded. -/
theorem decodeInto_eq_ok {τ : Type} {src : Option String} {destMax : Nat}
    {set : List UInt8 → τ → τ} {stc stc' : τ} :
    decodeInto src destMax set stc = .ok stc' ↔
      ∃ data, hexstrToBin src destMax = .ok data ∧ set data stc = stc' := by
  unfold decodeInto
  cases hexstrToBin src destMax <;> simp

/-- Whether a pointer was set depends on the string only. -/
theorem decodeOptional_isSome {src : Option String} {size : Nat} {b : Bytes}
    (h : decodeOptional src size = .ok b) : b.data.isSome = src.isSome := by
  rcases onlyIf_cases h with ⟨hsrc, hdecode⟩ | ⟨hsrc, rfl⟩
  · rw [decodeBytes, map_eq_ok] at hdecode
    obtain ⟨data, -, rfl⟩ := hdecode
    exact (Option.isSome_iff_ne_none.mpr hsrc).symm
  · rw [not_not.mp hsrc]
    rfl

/-- The buffer keeps its size. -/
theorem hexstrToBuffer_size {src : Option String} {size : Nat} {b : Buffer}
    (h : hexstrToBuffer src size = .ok b) : b.size = size := by
  simp only [hexstrToBuffer, bind_eq_ok, pure_eq_ok] at h
  obtain ⟨data, -, rfl⟩ := h
  rfl

/-- Two digits make one byte. -/
theorem hexPairs_length (bytes : List UInt8) : (hexPairs bytes).length = bytes.length / 2 := by
  induction bytes using hexPairs.induct with
  | case1 a b rest ih =>
      simp only [hexPairs, List.length_cons, ih]
      omega
  | case2 bytes h =>
      match bytes, h with
      | [], _ => rfl
      | [_], _ => simp [hexPairs]
      | a :: b :: rest, h => exact absurd rfl (h a b rest)

/-- What is decoded fits into a buffer that is smaller than the longest string. -/
theorem hexstrToBin_length_le {src : Option String} {destMax : Nat} {data : List UInt8}
    (h : hexstrToBin src destMax = .ok data) (hmax : 2 * destMax < hexstrMax) :
    data.length ≤ destMax := by
  simp only [hexstrToBin, bind_eq_ok, need_eq_ok, stopIf_eq_ok, pure_eq_ok, exists_const] at h
  obtain ⟨src, -, hlength, -, rfl⟩ := h
  rw [hexPairs_length]
  unfold strnlenS at hlength
  omega

/-! ## Algorithms -/

/-- What the handlers read of a row of {lit}`alg_tbl`. -/
structure AlgRow where
  cipher : Cipher
  name : String
  mode : Option String

/-- {lit}`alg_tbl`. -/
def algTbl : List AlgRow :=
  [⟨.aesGcm, "AMVP-AES-GCM", none⟩, ⟨.aesGcmSiv, "AMVP-AES-GCM-SIV", none⟩,
    ⟨.aesCcm, "AMVP-AES-CCM", none⟩, ⟨.aesEcb, "AMVP-AES-ECB", none⟩,
    ⟨.aesCbc, "AMVP-AES-CBC", none⟩, ⟨.aesCbcCs1, "AMVP-AES-CBC-CS1", none⟩,
    ⟨.aesCbcCs2, "AMVP-AES-CBC-CS2", none⟩, ⟨.aesCbcCs3, "AMVP-AES-CBC-CS3", none⟩,
    ⟨.aesCfb1, "AMVP-AES-CFB1", none⟩, ⟨.aesCfb8, "AMVP-AES-CFB8", none⟩,
    ⟨.aesCfb128, "AMVP-AES-CFB128", none⟩, ⟨.aesOfb, "AMVP-AES-OFB", none⟩,
    ⟨.aesCtr, "AMVP-AES-CTR", none⟩, ⟨.aesXts, "AMVP-AES-XTS", none⟩,
    ⟨.aesKw, "AMVP-AES-KW", none⟩, ⟨.aesKwp, "AMVP-AES-KWP", none⟩,
    ⟨.aesGmac, "AMVP-AES-GMAC", none⟩, ⟨.aesXpn, "AMVP-AES-XPN", none⟩,
    ⟨.tdesEcb, "AMVP-TDES-ECB", none⟩, ⟨.tdesCbc, "AMVP-TDES-CBC", none⟩,
    ⟨.tdesCbci, "AMVP-TDES-CBCI", none⟩, ⟨.tdesOfb, "AMVP-TDES-OFB", none⟩,
    ⟨.tdesOfbi, "AMVP-TDES-OFBI", none⟩, ⟨.tdesCfb1, "AMVP-TDES-CFB1", none⟩,
    ⟨.tdesCfb8, "AMVP-TDES-CFB8", none⟩, ⟨.tdesCfb64, "AMVP-TDES-CFB64", none⟩,
    ⟨.tdesCfbp1, "AMVP-TDES-CFBP1", none⟩, ⟨.tdesCfbp8, "AMVP-TDES-CFBP8", none⟩,
    ⟨.tdesCfbp64, "AMVP-TDES-CFBP64", none⟩, ⟨.tdesCtr, "AMVP-TDES-CTR", none⟩,
    ⟨.tdesKw, "AMVP-TDES-KW", none⟩, ⟨.hashSha1, "SHA-1", none⟩, ⟨.hashSha224, "SHA2-224", none⟩,
    ⟨.hashSha256, "SHA2-256", none⟩, ⟨.hashSha384, "SHA2-384", none⟩,
    ⟨.hashSha512, "SHA2-512", none⟩, ⟨.hashSha512_224, "SHA2-512/224", none⟩,
    ⟨.hashSha512_256, "SHA2-512/256", none⟩, ⟨.hashSha3_224, "SHA3-224", none⟩,
    ⟨.hashSha3_256, "SHA3-256", none⟩, ⟨.hashSha3_384, "SHA3-384", none⟩,
    ⟨.hashSha3_512, "SHA3-512", none⟩, ⟨.hashShake128, "SHAKE-128", none⟩,
    ⟨.hashShake256, "SHAKE-256", none⟩, ⟨.hashdrbg, "hashDRBG", none⟩,
    ⟨.hmacdrbg, "hmacDRBG", none⟩, ⟨.ctrdrbg, "ctrDRBG", none⟩, ⟨.hmacSha1, "HMAC-SHA-1", none⟩,
    ⟨.hmacSha2_224, "HMAC-SHA2-224", none⟩, ⟨.hmacSha2_256, "HMAC-SHA2-256", none⟩,
    ⟨.hmacSha2_384, "HMAC-SHA2-384", none⟩, ⟨.hmacSha2_512, "HMAC-SHA2-512", none⟩,
    ⟨.hmacSha2_512_224, "HMAC-SHA2-512/224", none⟩,
    ⟨.hmacSha2_512_256, "HMAC-SHA2-512/256", none⟩, ⟨.hmacSha3_224, "HMAC-SHA3-224", none⟩,
    ⟨.hmacSha3_256, "HMAC-SHA3-256", none⟩, ⟨.hmacSha3_384, "HMAC-SHA3-384", none⟩,
    ⟨.hmacSha3_512, "HMAC-SHA3-512", none⟩, ⟨.cmacAes, "CMAC-AES", none⟩,
    ⟨.cmacTdes, "CMAC-TDES", none⟩, ⟨.kmac128, "KMAC-128", none⟩, ⟨.kmac256, "KMAC-256", none⟩,
    ⟨.dsaKeygen, "DSA", some "keyGen"⟩, ⟨.dsaPqggen, "DSA", some "pqgGen"⟩,
    ⟨.dsaPqgver, "DSA", some "pqgVer"⟩, ⟨.dsaSiggen, "DSA", some "sigGen"⟩,
    ⟨.dsaSigver, "DSA", some "sigVer"⟩, ⟨.rsaKeygen, "RSA", some "keyGen"⟩,
    ⟨.rsaSiggen, "RSA", some "sigGen"⟩, ⟨.rsaSigver, "RSA", some "sigVer"⟩,
    ⟨.rsaDecprim, "RSA", some "decryptionPrimitive"⟩,
    ⟨.rsaSigprim, "RSA", some "signaturePrimitive"⟩, ⟨.ecdsaKeygen, "ECDSA", some "keyGen"⟩,
    ⟨.ecdsaKeyver, "ECDSA", some "keyVer"⟩, ⟨.ecdsaSiggen, "ECDSA", some "sigGen"⟩,
    ⟨.ecdsaSigver, "ECDSA", some "sigVer"⟩, ⟨.kdf135Snmp, "kdf-components", some "snmp"⟩,
    ⟨.kdf135Ssh, "kdf-components", some "ssh"⟩, ⟨.kdf135Srtp, "kdf-components", some "srtp"⟩,
    ⟨.kdf135Ikev2, "kdf-components", some "ikev2"⟩,
    ⟨.kdf135Ikev1, "kdf-components", some "ikev1"⟩,
    ⟨.kdf135X942, "kdf-components", some "ansix9.42"⟩,
    ⟨.kdf135X963, "kdf-components", some "ansix9.63"⟩, ⟨.kdf108, "KDF", none⟩,
    ⟨.pbkdf, "PBKDF", none⟩, ⟨.kdfTls12, "TLS-v1.2", some "KDF"⟩,
    ⟨.kdfTls13, "TLS-v1.3", some "KDF"⟩, ⟨.kasEccCdh, "KAS-ECC", some "CDH-Component"⟩,
    ⟨.kasEccComp, "KAS-ECC", some "Component"⟩, ⟨.kasEccNocomp, "KAS-ECC", some ""⟩,
    ⟨.kasEccSsc, "KAS-ECC-SSC", some "Component"⟩, ⟨.kasFfcComp, "KAS-FFC", some "Component"⟩,
    ⟨.kasFfcNocomp, "KAS-FFC", some ""⟩, ⟨.kasFfcSsc, "KAS-FFC-SSC", some "Component"⟩,
    ⟨.kasIfcSsc, "KAS-IFC-SSC", some ""⟩, ⟨.kdaOnestep, "KDA", some "OneStep"⟩,
    ⟨.kdaTwostep, "KDA", some "TwoStep"⟩, ⟨.kdaHkdf, "KDA", some "HKDF"⟩,
    ⟨.ktsIfc, "KTS-IFC", some ""⟩, ⟨.safePrimesKeygen, "safePrimes", some "keyGen"⟩,
    ⟨.safePrimesKeyver, "safePrimes", some "keyVer"⟩]

/-- {lit}`amvp_lookup_cipher_index`. -/
def lookupCipherIndex (algorithm : String) : Option Cipher :=
  (algTbl.find? fun row => row.name = algorithm).map AlgRow.cipher

/-- {lit}`amvp_lookup_cipher_w_mode_index`. -/
def lookupCipherWModeIndex (algorithm : String) (mode : Option String) : Option Cipher :=
  mode.bind fun mode =>
    (algTbl.find? fun row => row.name = algorithm ∧ row.mode = some mode).map AlgRow.cipher

/-- {lit}`amvp_lookup_hash_alg`. -/
def lookupHashAlg (name : String) : Option HashAlg :=
  HashAlg.all.find? fun alg => alg.name = name

/-- {lit}`AMVP_EC_CURVE`. -/
inductive EcCurve where
  | p192 | p224 | p256 | p384 | p521
  | b163 | b233 | b283 | b409 | b571
  | k163 | k233 | k283 | k409 | k571
deriving DecidableEq

/-- {lit}`ec_curve_tbl`. -/
def ecCurveTbl : List (EcCurve × String) :=
  [(.p224, "P-224"), (.p256, "P-256"), (.p384, "P-384"), (.p521, "P-521"), (.b233, "B-233"),
    (.b283, "B-283"), (.b409, "B-409"), (.b571, "B-571"), (.k233, "K-233"), (.k283, "K-283"),
    (.k409, "K-409"), (.k571, "K-571")]

/-- {lit}`ec_curve_depr_tbl`. -/
def ecCurveDeprTbl : List (EcCurve × String) :=
  [(.p192, "P-192"), (.b163, "B-163"), (.k163, "K-163")]

/-- {lit}`amvp_lookup_ec_curve`: two algorithms also know the deprecated curves. -/
def lookupEcCurve (cipher : Cipher) (name : String) : Option EcCurve :=
  let tbl := if cipher = .ecdsaKeyver ∨ cipher = .ecdsaSigver then ecCurveTbl ++ ecCurveDeprTbl
    else ecCurveTbl
  (tbl.find? fun row => row.2 = name).map Prod.fst

/-! ## Members with a limit -/

/-- A string that has to be there and has at most a number of characters. -/
def readString (obj : Option JsonObject) (name : String) (strMax : Nat) :
    Except AmvpResult String := do
  let str ← need (jsonObjectGetString obj name) .missingArg
  stopIf (strnlenS str (strMax + 1) > strMax) .invalidArg
  pure str

/-- A text that is read is that of its member and within the limit. -/
theorem readString_ok {obj : Option JsonObject} {name str : String} {strMax : Nat}
    (h : readString obj name strMax = .ok str) :
    jsonObjectGetString obj name = some str ∧ strnlenS str (strMax + 1) ≤ strMax := by
  simp only [readString, bind_eq_ok, need_eq_ok, stopIf_eq_ok, exists_const, pure_eq_ok] at h
  obtain ⟨str', hstr, hlength, rfl⟩ := h
  exact ⟨hstr, by omega⟩

/-! ## The groups of a vector set -/

/-- The members of an object other than one name. -/
def withoutMember (obj : JsonObject) (name : String) : JsonObject :=
  obj.filter fun m => m.1 ≠ name

/-- Leaving a member out keeps the others. -/
theorem jsonObjectGetValue_withoutMember (obj : JsonObject) {name name' : String}
    (h : name ≠ name') :
    jsonObjectGetValue (some (withoutMember obj name')) name =
      jsonObjectGetValue (some obj) name := by
  have hboth : (fun m : String × Json => decide (decide (m.1 ≠ name') = true ∧ (m.1 == name) = true)) =
      fun m => m.1 == name := by
    funext m
    by_cases hm : m.1 = name
    · simp [hm, h]
    · simp [hm]
  simp only [jsonObjectGetValue, withoutMember, Option.bind_some, List.find?_filter, hboth]

/-- The other members are kept when one is set. -/
theorem withoutMember_set (obj : JsonObject) (name : String) (value : Json) :
    withoutMember (jsonObjectSetValue obj name value) name = withoutMember obj name := by
  have hmap : ∀ ms : JsonObject, withoutMember
      (ms.map fun m => if m.1 == name then (name, value) else m) name = withoutMember ms name := by
    intro ms
    induction ms with
    | nil => rfl
    | cons m ms ih =>
        by_cases hm : m.1 = name
        · simpa [withoutMember, hm] using ih
        · simpa [withoutMember, hm] using ih
  unfold jsonObjectSetValue
  split
  · exact hmap obj
  · simp [withoutMember, List.filter_append]

/-- A group of a vector set.  Its head is read without the tests. -/
abbrev TestGroup := Batch (Option JsonObject) (Option JsonObject)

/-- A group of the array {lit}`testGroups`. -/
def readTestGroup (groupval : Json) : TestGroup where
  head := (jsonValueGetObject (some groupval)).map (withoutMember · "tests")
  items := (jsonArrayElems (jsonObjectGetArray (jsonValueGetObject (some groupval)) "tests")).map
    fun testval => jsonValueGetObject (some testval)

/-- The groups of a vector set. -/
def testGroups (obj : JsonObject) : List TestGroup :=
  (jsonArrayElems (jsonObjectGetArray (some obj) "testGroups")).map readTestGroup

/-- The object of a group. -/
def groupAt (groups : List TestGroup) (i : Nat) : Option JsonObject :=
  groups[i]?.bind Batch.head

/-- The object of a test. -/
def testAt (groups : List TestGroup) (i j : Nat) : Option JsonObject :=
  (groups[i]?.bind fun b => b.items[j]?).join

/-- The group between two parts. -/
@[simp]
theorem groupAt_append (bs bs' : List TestGroup) (b : TestGroup) :
    groupAt (bs ++ b :: bs') bs.length = b.head := by
  simp [groupAt]

/-- The test between two parts of its group. -/
@[simp]
theorem testAt_append (bs bs' : List TestGroup) (head : Option JsonObject)
    (ts ts' : List (Option JsonObject)) (t : Option JsonObject) :
    testAt (bs ++ ⟨head, ts ++ t :: ts'⟩ :: bs') bs.length ts.length = t := by
  simp [testAt]

/-- No test comes before this one. -/
def IsFirstTest (groups : List TestGroup) (i j : Nat) : Prop :=
  (∀ b ∈ groups.take i, b.items = []) ∧ j = 0

/-- A test is the first of all when there is none before it. -/
theorem isFirstTest_append {bs bs' : List TestGroup} {groupobj t : Option JsonObject}
    {ts ts' : List (Option JsonObject)} :
    IsFirstTest (bs ++ ⟨groupobj, ts ++ t :: ts'⟩ :: bs') bs.length ts.length ↔
      (∀ b ∈ bs, b.items = []) ∧ ts = [] := by
  unfold IsFirstTest
  rw [List.take_left, List.length_eq_zero_iff]

/-- A group with one of its tests. -/
def onlyTestOfGroup (groupval : Json) (j : Nat) : Json :=
  match groupval with
  | .obj group =>
    let tests := jsonArrayElems (jsonObjectGetArray (some group) "tests")
    .obj (jsonObjectSetValue group "tests" (.arr tests[j]?.toList))
  | other => other

/-- The vector set that holds only the group with number {lit}`i` with only its test with
number {lit}`j`. -/
def onlyTest (obj : JsonObject) (i j : Nat) : JsonObject :=
  let groups := jsonArrayElems (jsonObjectGetArray (some obj) "testGroups")
  jsonObjectSetValue obj "testGroups" (.arr (groups[i]?.toList.map (onlyTestOfGroup · j)))

/-- The groups of a set whose groups were replaced. -/
theorem testGroups_set (obj : JsonObject) (groups : List Json) :
    testGroups (jsonObjectSetValue obj "testGroups" (.arr groups)) =
      groups.map readTestGroup := by
  unfold testGroups jsonObjectGetArray
  rw [jsonObjectGetValue_set]
  rfl

/-- The group that is left with one of its tests. -/
theorem readTestGroup_onlyTest {groupval : Json} {head : Option JsonObject}
    {ts ts' : List (Option JsonObject)} {t : Option JsonObject}
    (h : readTestGroup groupval = ⟨head, ts ++ t :: ts'⟩) :
    readTestGroup (onlyTestOfGroup groupval ts.length) = ⟨head, [t]⟩ := by
  cases groupval with
  | obj group =>
      unfold readTestGroup at h
      rw [Batch.mk.injEq] at h
      have ht := congrArg (fun l => l[ts.length]?) h.2
      simp only [List.getElem?_map, List.getElem?_append_right (Nat.le_refl _), Nat.sub_self,
        List.getElem?_cons_zero, jsonValueGetObject] at ht
      rw [Option.map_eq_some_iff] at ht
      obtain ⟨test, htest, rfl⟩ := ht
      simp only [readTestGroup, onlyTestOfGroup, jsonValueGetObject, htest]
      rw [Batch.mk.injEq]
      constructor
      · rw [← h.1]
        simp [jsonValueGetObject, withoutMember_set]
      · simp [jsonObjectGetArray, jsonValueGetArray, jsonArrayElems]
  | null | bool | num | str | arr =>
      unfold readTestGroup at h
      rw [Batch.mk.injEq] at h
      have hlength := congrArg List.length h.2
      simp [jsonValueGetObject, jsonObjectGetArray, jsonObjectGetValue, jsonValueGetArray,
        jsonArrayElems] at hlength

/-- A vector set cut down to one test. -/
theorem testGroups_onlyTest {obj : JsonObject} {bs bs' : List TestGroup}
    {head : Option JsonObject} {ts ts' : List (Option JsonObject)} {t : Option JsonObject}
    (h : testGroups obj = bs ++ ⟨head, ts ++ t :: ts'⟩ :: bs') :
    testGroups (onlyTest obj bs.length ts.length) = [⟨head, [t]⟩] := by
  have hgroup := congrArg (fun l => l[bs.length]?) h
  unfold testGroups at hgroup
  simp only [List.getElem?_map, List.getElem?_append_right (Nat.le_refl _), Nat.sub_self,
    List.getElem?_cons_zero] at hgroup
  rw [Option.map_eq_some_iff] at hgroup
  obtain ⟨groupval, hval, hread⟩ := hgroup
  simp only [onlyTest, hval]
  rw [testGroups_set]
  simp only [Option.toList_some, List.map_cons, List.map_nil]
  rw [readTestGroup_onlyTest hread]

/-! ## Responses -/

/-- Set a member to the hexadecimal form of bytes. -/
def setHexstr (tcRsp : JsonObject) (name : String) (src : Option Buffer) (srcLen : Int)
    (strMax : Nat) : Except AmvpResult JsonObject := do
  let hexstr ← binToHexstr src srcLen strMax
  pure (jsonObjectSetText tcRsp name (some hexstr))

/-- A group of the response: its number and the objects of its tests. -/
def responseGroup (key : String) (tgId : Int) (tests : List JsonObject) : JsonObject :=
  [(key, .num tgId), ("tests", .arr (tests.map .obj))]

/-- The object of a response that {lit}`amvp_setup_json_rsp_group` opens, with its groups. -/
def responseObject (vsId : Int) (algorithm : String) (groups : List JsonObject) : JsonObject :=
  [("vsId", .num vsId), ("algorithm", .str algorithm), ("testGroups", .arr (groups.map .obj))]

/-- The objects of an array of an object. -/
def objectsOf (obj : Option JsonObject) (name : String) : List (Option JsonObject) :=
  (jsonArrayElems (jsonObjectGetArray obj name)).map fun val => jsonValueGetObject (some val)

/-- The objects of an array of objects. -/
theorem objectsOf_obj (rsps : List JsonObject) (rsp : JsonObject) (name : String)
    (h : jsonObjectGetValue (some rsp) name = some (.arr (rsps.map .obj))) :
    objectsOf (some rsp) name = rsps.map some := by
  unfold objectsOf jsonObjectGetArray
  rw [h]
  simp [jsonValueGetArray, jsonArrayElems, jsonValueGetObject]

/-- What a handler makes of a vector set with a crypto module: the response or an error, and
the calls of the module, each with the numbers of its group and of its test. -/
structure KatRun (τ : Type) where
  result : Except AmvpResult JsonObject
  calls : List (Place × τ)

/-- A handler of known-answer tests. -/
abbrev KatHandler (τ : Type) := JsonObject → Partner τ → KatRun τ

/-- The work of a handler on groups and tests. -/
abbrev KatWorker (σ γ τ : Type) (ω : Type := JsonObject) :=
  Worker σ (Option JsonObject) (Option JsonObject) γ τ AmvpResult ω JsonObject

/-- The work of a handler that calls the module once for a test. -/
abbrev KatLoader (σ γ τ : Type) (ω : Type := JsonObject) :=
  Loader σ (Option JsonObject) (Option JsonObject) γ τ AmvpResult ω JsonObject

/-- The members that handlers set in the group of a test: parameters and public keys. -/
inductive GroupMember where
  | p | q | g | y | e | n | qx | qy

def GroupMember.name : GroupMember → String
  | .p => "p"
  | .q => "q"
  | .g => "g"
  | .y => "y"
  | .e => "e"
  | .n => "n"
  | .qx => "qx"
  | .qy => "qy"

/-- The answer to a test of a handler that also sets members of the group. -/
structure TestAnswer where
  test : JsonObject
  group : List (GroupMember × String) := []

/-- Set the members of a group that a test has an answer for. -/
def setGroupMembers (obj : JsonObject) (members : List (GroupMember × String)) : JsonObject :=
  members.foldl (fun obj m => jsonObjectSetText obj m.1.name (some m.2)) obj

/-- A group of the response with the members that its tests have set. -/
def responseGroupWith (tgId : Int) (answers : List TestAnswer) : JsonObject :=
  answers.foldl (fun obj answer => setGroupMembers obj answer.group)
    (responseGroup "tgId" tgId (answers.map TestAnswer.test))

/-- What the handlers use of {lit}`AMVP_CTX`. -/
structure KatCtx where
  vsId : Int
  caps : Caps

/-- The content of an entry through a member of the union. -/
def CapsEntry.through (e : CapsEntry) (m : Member) : Option m.Data :=
  if h : e.capType.member = m then some (h ▸ e.cap) else none

/-- The entry of a cipher through the member of its union. -/
def KatCtx.content (ctx : KatCtx) (cipher : Cipher) (m : Member) : Option m.Data :=
  (ctx.caps.locate cipher).bind (·.through m)

/-- The cipher of a vector set whose algorithm alone names it. -/
def setupByAlgorithm (ctx : KatCtx) (obj : JsonObject) : Except AmvpResult (String × Cipher) := do
  let algStr ← need (jsonObjectGetString (some obj) "algorithm") .malformedJson
  let algId ← need (lookupCipherIndex algStr) .unsupportedOp
  let _ ← need (ctx.caps.locate algId) .unsupportedOp
  pure (algStr, algId)

/-- The number of a group. -/
def readTgId (groupobj : Option JsonObject) (missing : AmvpResult) : Except AmvpResult Int := do
  let tgId := toInt (jsonObjectGetNumber groupobj "tgId")
  stopIf (tgId = 0) missing
  pure tgId

/-- The number of a test. -/
def readTcId (testobj : Option JsonObject) : Nat :=
  toUnsigned (jsonObjectGetNumber testobj "tcId")

/-- The object of a test in the response, before its answers are set. -/
def responseTest (testobj : Option JsonObject) : JsonObject :=
  [("tcId", .num (readTcId testobj))]

/-- The object of a test in the response of a handler that keeps the number of the test in an
{lit}`int`. -/
def responseTestInt (testobj : Option JsonObject) : JsonObject :=
  [("tcId", .num (toInt (jsonObjectGetNumber testobj "tcId")))]

/-- The response of a handler that also sets the mode. -/
def responseWithMode (ctx : KatCtx) (head : String × String) (groups : List JsonObject) :
    JsonObject :=
  jsonObjectSetText (responseObject ctx.vsId head.1 groups) "mode" (some head.2)

/-- A handler that reads the head of the vector set and then works on its groups.  Some
handlers refuse a vector set without groups, with an error of their own. -/
def katHandler {κ σ γ τ ω : Type} (setup : JsonObject → Except AmvpResult κ)
    (worker : κ → KatWorker σ γ τ ω) (response : κ → List JsonObject → JsonObject)
    (noGroups : Option AmvpResult := none) : KatHandler τ := fun obj module =>
  match setup (withoutMember obj "testGroups") with
  | .error e => ⟨.error e, []⟩
  | .ok head =>
    match noGroups, jsonObjectGetArray (some obj) "testGroups" with
    | some e, none => ⟨.error e, []⟩
    | _, _ =>
      ⟨((worker head).result module (testGroups obj)).map (response head),
        (worker head).asked module (testGroups obj)⟩

section Calls

variable {κ σ γ τ ω : Type} {setup : JsonObject → Except AmvpResult κ}
  {loader : κ → KatLoader σ γ τ ω} {response : κ → List JsonObject → JsonObject}
  {noGroups : Option AmvpResult} {obj : JsonObject} {module : Partner τ}

/-- Every call of the module was made with a test case that the loader has built. -/
theorem asks_of_mem_calls {i j : Nat} {tc : τ}
    (h : ((i, j), tc) ∈
      (katHandler setup (fun k => (loader k).worker) response noGroups obj
        module).calls) :
    ∃ head, setup (withoutMember obj "testGroups") = .ok head ∧
      (loader head).Asks (testGroups obj) i j tc := by
  unfold katHandler at h
  cases hsetup : setup (withoutMember obj "testGroups") with
  | error e => simp [hsetup] at h
  | ok head =>
      simp only [hsetup] at h
      split at h
      · simp at h
      · exact ⟨head, rfl, Loader.asks_of_mem_asked h⟩

/-- The calls of the module when a vector set is cut down to one test. -/
theorem calls_onlyTest {head : κ} {bs bs' : List TestGroup} {group : Option JsonObject}
    {ts ts' : List (Option JsonObject)} {t : Option JsonObject}
    (hsetup : setup (withoutMember obj "testGroups") = .ok head)
    (hgroups : testGroups obj = bs ++ ⟨group, ts ++ t :: ts'⟩ :: bs') :
    (katHandler setup (fun k => (loader k).worker) response noGroups
      (onlyTest obj bs.length ts.length) module).calls =
        ((loader head).alone group t).toList.map ((0, 0), ·) := by
  have hkeep : withoutMember (onlyTest obj bs.length ts.length) "testGroups" =
      withoutMember obj "testGroups" := withoutMember_set _ _ _
  have hgiven : ∃ elems,
      jsonObjectGetArray (some (onlyTest obj bs.length ts.length)) "testGroups" = some elems := by
    simp [onlyTest, jsonObjectGetArray, jsonValueGetArray]
  obtain ⟨elems, hgiven⟩ := hgiven
  simp only [katHandler, hkeep, hsetup, hgiven, testGroups_onlyTest hgroups]
  exact Loader.asked_single group t

end Calls

/-- Where the module was called, there is a test case. -/
theorem exists_call {τ : Type} (calls : List (Place × τ)) (place : Place)
    (h : place ∈ calls.map Prod.fst) : ∃ tc, (place, tc) ∈ calls := by
  obtain ⟨⟨place', tc⟩, hmem, rfl⟩ := List.mem_map.mp h
  exact ⟨tc, hmem⟩

/-- A computation that succeeds has a result. -/
theorem exists_ok {ε α : Type} {x : Except ε α} (h : x.isOk = true) : ∃ a, x = .ok a := by
  cases x with
  | error e => simp [Except.isOk, Except.toBool] at h
  | ok a => exact ⟨a, rfl⟩

/-- A context in which one algorithm is registered. -/
def KatCtx.registered (type : CapType) (cipher : Cipher) : KatCtx where
  vsId := 1
  caps := { capsList := [.new type cipher ⟨0⟩], vsCount := 1 }

/-- A module that succeeds and leaves the test case as it is. -/
def idleModule {τ : Type} : Partner τ := .memoryless fun tc => (0, tc)

/-- A property that the test cases of the module have exactly under a condition on the
vector set and the numbers of the group and of the test. -/
def KatHandler.CallsIff {τ : Type} (handler : KatHandler τ) (P : τ → Prop)
    (condition : List TestGroup → Nat → Nat → Prop) : Prop :=
  ∀ (obj : JsonObject) (module : Partner τ) (i j : Nat) (tc : τ),
    ((i, j), tc) ∈ (handler obj module).calls → (P tc ↔ condition (testGroups obj) i j)

/-- It is enough to look at the test cases that the loader builds. -/
theorem callsIff_of_load {κ σ γ τ ω : Type} {setup : JsonObject → Except AmvpResult κ}
    {loader : κ → KatLoader σ γ τ ω} {response : κ → List JsonObject → JsonObject}
    {noGroups : Option AmvpResult} {P : τ → Prop} {condition : List TestGroup → Nat → Nat → Prop}
    (h : ∀ head bs bs' group ts ts' t s₀ s₁ s₂ s₃ c tc,
      (loader head).carry (loader head).start bs = .ok s₀ →
      (loader head).enter s₀ group (ts ++ t :: ts').length = .ok (c, s₁) →
      (loader head).carryItems c s₁ ts = .ok s₂ →
      (loader head).load s₂ c t = .ok (⟨tc, true⟩, s₃) →
      (P tc ↔ condition (bs ++ ⟨group, ts ++ t :: ts'⟩ :: bs') bs.length ts.length)) :
    (katHandler setup (fun k => (loader k).worker) response noGroups).CallsIff P condition := by
  intro obj module i j tc hmem
  obtain ⟨head, -, hasks⟩ := asks_of_mem_calls hmem
  generalize testGroups obj = groups at hasks
  cases hasks with
  | intro hbefore henter hitems hload =>
      exact h _ _ _ _ _ _ _ _ _ _ _ _ _ hbefore henter hitems hload

/-- A test case that reaches the module is the one that the test alone would give exactly
under a condition on the vector set and the numbers of the group and of the test.  The test
alone is given to a handler of its own, which may differ in what lies outside the program. -/
def KatHandler.AloneIff {τ : Type} (handler alone : KatHandler τ)
    (condition : List TestGroup → Nat → Nat → Prop) : Prop :=
  ∀ (obj : JsonObject) (module : Partner τ) (i j : Nat) (tc : τ),
    ((i, j), tc) ∈ (handler obj module).calls →
      ((alone (onlyTest obj i j) module).calls = [((0, 0), tc)] ↔
        condition (testGroups obj) i j)

/-- A test case that reaches the module is the one that the test alone would give exactly
under a condition. -/
abbrev KatHandler.IndependentIff {τ : Type} (handler : KatHandler τ)
    (condition : List TestGroup → Nat → Nat → Prop) : Prop :=
  handler.AloneIff handler condition

/-- It is enough to compare the test case with the one that the loader builds for the test
alone. -/
theorem aloneIff_of_alone {κ σ γ τ ω : Type} {setup : JsonObject → Except AmvpResult κ}
    {loader loader' : κ → KatLoader σ γ τ ω} {response : κ → List JsonObject → JsonObject}
    {noGroups : Option AmvpResult} {condition : List TestGroup → Nat → Nat → Prop}
    (h : ∀ head bs bs' group ts ts' t s₀ s₁ s₂ s₃ c tc,
      (loader head).carry (loader head).start bs = .ok s₀ →
      (loader head).enter s₀ group (ts ++ t :: ts').length = .ok (c, s₁) →
      (loader head).carryItems c s₁ ts = .ok s₂ →
      (loader head).load s₂ c t = .ok (⟨tc, true⟩, s₃) →
      ((loader' head).alone group t = some tc ↔
        condition (bs ++ ⟨group, ts ++ t :: ts'⟩ :: bs') bs.length ts.length)) :
    (katHandler setup (fun k => (loader k).worker) response noGroups).AloneIff
      (katHandler setup (fun k => (loader' k).worker) response noGroups) condition := by
  intro obj module i j tc hmem
  obtain ⟨head, hsetup, hasks⟩ := asks_of_mem_calls hmem
  generalize hgroups : testGroups obj = groups at hasks
  cases hasks with
  | intro hbefore henter hitems hload =>
      rw [calls_onlyTest hsetup hgroups, ← h _ _ _ _ _ _ _ _ _ _ _ _ _ hbefore henter hitems hload]
      cases (loader' head).alone _ _ <;> simp

end LibAmvp
