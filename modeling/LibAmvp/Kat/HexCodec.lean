import LibAmvp.Kat.KdfRegistered
import LibAmvp.Lib.NulString

/-!
# The hexadecimal codec

The two functions that convert between bytes and hexadecimal digits, with the arithmetic of
their type {lit}`int`, which wraps, and with the terminators that they write and look for.  The
encoder counts the bytes; the decoder checks a length that it cuts at {lit}`AMVP_HEXSTR_MAX`
and then goes on to the terminator.

Main results:

- Theorems {lit}`hexstrToBin_eq_codec` and {lit}`binToHexstr_eq_codec`: the conversions of the
  handlers are those of the codec.
- Theorem {lit}`hex_codec_iff`: the codec is a round trip both ways, and the decoder stays within
  its bound exactly when the string is not one that the check cuts.
-/

namespace LibAmvp

open Guard

/-! ## The functions -/

/-- The digits that {lit}`amvp_bin_to_hexstr` writes. -/
def hexDigitBytes (bytes : List UInt8) : List UInt8 := (hexDigits bytes).map Char.toUInt8

/-- {lit}`amvp_bin_to_hexstr` on lengths of 32 bits: the characters that it writes, with the
terminator. -/
def binToHexstr32 (src : Option Buffer) (srcLen destMax : Int32) :
    Except AmvpResult (List UInt8) := do
  let src ← need src .convertDataErr
  stopIf (srcLen * 2 > destMax) .convertDataErr
  pure (hexDigitBytes (src.read srcLen.toInt.toNat) ++ [0])

/-- {lit}`amvp_hexstr_to_bin` on lengths of 32 bits: the bytes that it writes, and the length
it reports. -/
def hexstrToBin32 (src : Option NulString) (destMax : Int32) :
    Except AmvpResult (List UInt8 × Int32) := do
  let src ← need src .invalidArg
  let srcLen : Int32 := .ofNat (NulString.strnlenS (some src) hexstrMax)
  stopIf (srcLen > 2 * destMax) .dataTooLarge
  stopIf (srcLen.toInt % 2 = 1) .unsupportedOp
  let data := hexPairs src.chars
  pure (data, .ofNat data.length)

/-- The upper case of a hexadecimal digit. -/
def upperDigit (ch : UInt8) : UInt8 := if 97 ≤ ch ∧ ch ≤ 102 then ch - 32 else ch

/-! ## Digits -/

/-- The digit of half a byte. -/
def hexDigitByte (n : UInt8) : UInt8 := (hexChar n).toUInt8

/-- No byte has no digits. -/
@[simp]
theorem hexDigitBytes_nil : hexDigitBytes [] = [] := rfl

/-- The digits of a byte are those of its halves, the high one first. -/
theorem hexDigitBytes_cons (byte : UInt8) (rest : List UInt8) :
    hexDigitBytes (byte :: rest) =
      hexDigitByte (byte / 16) :: hexDigitByte (byte % 16) :: hexDigitBytes rest := rfl

/-- A byte has two digits. -/
theorem length_hexDigitBytes (bytes : List UInt8) :
    (hexDigitBytes bytes).length = 2 * bytes.length := by
  induction bytes with
  | nil => rfl
  | cons byte rest ih =>
      rw [hexDigitBytes_cons, List.length_cons, List.length_cons, ih, List.length_cons]
      omega

/-- A digit is read as the half it was made from. -/
theorem charToInt_hexDigitByte {n : UInt8} (h : n < 16) : charToInt (hexDigitByte n) = n := by
  have hall : ∀ k : Fin 16, charToInt (hexDigitByte (.ofNat k)) = .ofNat k := by decide
  have hn : n = .ofNat n.toNat := by simp
  rw [hn]
  exact hall ⟨n.toNat, h⟩

/-- No digit is a terminator. -/
theorem hexDigitByte_ne_zero {n : UInt8} (h : n < 16) : hexDigitByte n ≠ 0 := by
  have hall : ∀ k : Fin 16, hexDigitByte (.ofNat k) ≠ 0 := by decide
  have hn : n = .ofNat n.toNat := by simp
  rw [hn]
  exact hall ⟨n.toNat, h⟩

/-- The halves of a byte are below sixteen. -/
theorem halves_lt (byte : UInt8) : byte / 16 < 16 ∧ byte % 16 < 16 := by
  have hbyte := byte.toNat_lt
  constructor
  · rw [UInt8.lt_iff_toNat_lt, UInt8.toNat_div]
    simp only [UInt8.reduceToNat]
    omega
  · rw [UInt8.lt_iff_toNat_lt, UInt8.toNat_mod]
    simp only [UInt8.reduceToNat]
    omega

/-- A byte is put together from its halves. -/
theorem halves_eq (byte : UInt8) : byte / 16 * 16 + byte % 16 = byte := by
  have hbyte := byte.toNat_lt
  rw [← UInt8.toNat_inj, UInt8.toNat_add, UInt8.toNat_mul, UInt8.toNat_div, UInt8.toNat_mod]
  simp only [UInt8.reduceToNat]
  omega

/-- So there is no terminator among the digits. -/
theorem zero_notMem_hexDigitBytes (bytes : List UInt8) : 0 ∉ hexDigitBytes bytes := by
  induction bytes with
  | nil => simp
  | cons byte rest ih =>
      have hhalves := halves_lt byte
      rw [hexDigitBytes_cons, List.mem_cons, List.mem_cons, not_or, not_or]
      exact ⟨(hexDigitByte_ne_zero hhalves.1).symm, (hexDigitByte_ne_zero hhalves.2).symm, ih⟩

/-- The decoder undoes the encoder. -/
theorem hexPairs_hexDigitBytes (bytes : List UInt8) : hexPairs (hexDigitBytes bytes) = bytes := by
  induction bytes with
  | nil => rfl
  | cons byte rest ih =>
      have hhalves := halves_lt byte
      rw [hexDigitBytes_cons, hexPairs, charToInt_hexDigitByte hhalves.1,
        charToInt_hexDigitByte hhalves.2, halves_eq, ih]

/-- A digit has a value below sixteen, and that value has the digit in upper case. -/
theorem hexDigitByte_charToInt {ch : UInt8} (h : IsHexDigit ch) :
    charToInt ch < 16 ∧ hexDigitByte (charToInt ch) = upperDigit ch := by
  have hall : ∀ k : Fin 256, (48 ≤ UInt8.ofNat k ∧ UInt8.ofNat k ≤ 57 ∨
      65 ≤ UInt8.ofNat k ∧ UInt8.ofNat k ≤ 70 ∨ 97 ≤ UInt8.ofNat k ∧ UInt8.ofNat k ≤ 102) →
      charToInt (.ofNat k) < 16 ∧
        hexDigitByte (charToInt (.ofNat k)) = upperDigit (.ofNat k) := by
    decide +kernel
  have hn : ch = .ofNat ch.toNat := by simp
  rw [hn] at h ⊢
  exact hall ⟨ch.toNat, ch.toNat_lt⟩ h

/-- The halves of a byte that was put together. -/
theorem halves_of_digits {a b : UInt8} (ha : a < 16) (hb : b < 16) :
    (a * 16 + b) / 16 = a ∧ (a * 16 + b) % 16 = b := by
  rw [UInt8.lt_iff_toNat_lt] at ha hb
  simp only [UInt8.reduceToNat] at ha hb
  constructor
  · rw [← UInt8.toNat_inj, UInt8.toNat_div, UInt8.toNat_add, UInt8.toNat_mul]
    simp only [UInt8.reduceToNat]
    omega
  · rw [← UInt8.toNat_inj, UInt8.toNat_mod, UInt8.toNat_add, UInt8.toNat_mul]
    simp only [UInt8.reduceToNat]
    omega

/-- The encoder undoes the decoder but for the case of the digits. -/
theorem hexDigitBytes_hexPairs {chars : List UInt8} (hhex : ∀ ch ∈ chars, IsHexDigit ch)
    (heven : chars.length % 2 = 0) : hexDigitBytes (hexPairs chars) = chars.map upperDigit := by
  induction chars using hexPairs.induct with
  | case1 a b rest ih =>
      have ha := hexDigitByte_charToInt (hhex a (by simp))
      have hb := hexDigitByte_charToInt (hhex b (by simp))
      have hhalves := halves_of_digits ha.1 hb.1
      have hrest : rest.length % 2 = 0 := by
        rw [List.length_cons, List.length_cons] at heven
        omega
      rw [hexPairs, hexDigitBytes_cons, hhalves.1, hhalves.2, ha.2, hb.2,
        ih (fun ch hch => hhex ch (by simp [hch])) hrest, List.map_cons, List.map_cons]
  | case2 chars h =>
      rcases chars with _ | ⟨a, _ | ⟨b, rest⟩⟩
      · rfl
      · simp at heven
      · exact absurd rfl (h a b rest)

/-! ## Lengths of 32 bits -/

/-- Guards with equivalent conditions are the same. -/
theorem stopIf_congr {c c' : Prop} [Decidable c] [Decidable c'] {e : AmvpResult} (h : c ↔ c') :
    stopIf c e = stopIf c' e := by
  unfold stopIf
  exact if_congr h rfl rfl

/-- Doubling an {lit}`int` wraps around. -/
theorem toInt32_double (n : Int32) : (n * 2).toInt = (n.toInt * 2).bmod (2 ^ 32) := by
  rw [Int32.toInt_mul]
  rfl

/-- It does not for small numbers. -/
theorem toInt32_mul_two {n : Int32} (h : -2 ^ 30 ≤ n.toInt) (h' : n.toInt < 2 ^ 30) :
    (n * 2).toInt = 2 * n.toInt := by
  rw [toInt32_double, Int.bmod_eq_of_le (by omega) (by omega), Int.mul_comm]

/-- Doubling a length from two to the thirty on makes it negative. -/
theorem toInt32_mul_two_of_le {n : Int32} (h : 2 ^ 30 ≤ n.toInt) : (n * 2).toInt < 0 := by
  have hn := n.toInt_lt
  rw [toInt32_double, Int.bmod_def]
  omega

/-- A small number is its own {lit}`int`. -/
theorem toInt32_ofNat {n : Nat} (h : n < 2 ^ 31) : (Int32.ofNat n).toInt = n :=
  Int32.toInt_ofNat_of_lt h

/-! ## The codec -/

/-- When the encoding succeeds, and what it writes. -/
theorem binToHexstr32_eq_ok {src : Buffer} {srcLen destMax : Int32} {chars : List UInt8} :
    binToHexstr32 (some src) srcLen destMax = .ok chars ↔ (srcLen * 2).toInt ≤ destMax.toInt ∧
      chars = hexDigitBytes (src.read srcLen.toInt.toNat) ++ [0] := by
  simp only [binToHexstr32, need_some, ok_bind, bind_eq_ok, stopIf_eq_ok, exists_const,
    pure_eq_ok, gt_iff_lt, Int32.not_lt, Int32.le_iff_toInt_le]
  exact and_congr_right fun _ => eq_comm

/-- When the decoding succeeds, and what it writes. -/
theorem hexstrToBin32_eq_ok {src : NulString} {destMax : Int32} (hdest : 0 ≤ destMax.toInt)
    {out : List UInt8 × Int32} :
    hexstrToBin32 (some src) destMax = .ok out ↔ destMax.toInt < 2 ^ 30 ∧
      (min src.chars.length hexstrMax : Int) ≤ 2 * destMax.toInt ∧
      min src.chars.length hexstrMax % 2 = 0 ∧
      out = (hexPairs src.chars, .ofNat (hexPairs src.chars).length) := by
  have hlength : (Int32.ofNat (min src.chars.length hexstrMax)).toInt =
      (min src.chars.length hexstrMax : Nat) :=
    toInt32_ofNat (lt_of_le_of_lt (min_le_right _ _) (by decide))
  have hcomm : 2 * destMax = destMax * 2 := Int32.mul_comm 2 destMax
  simp only [hexstrToBin32, need_some, ok_bind, bind_eq_ok, stopIf_eq_ok, exists_const,
    pure_eq_ok, gt_iff_lt, Int32.not_lt, Int32.le_iff_toInt_le, NulString.strnlenS_some, hlength,
    hcomm]
  rcases lt_or_ge destMax.toInt (2 ^ 30) with hsmall | hlarge
  · rw [toInt32_mul_two (by omega) hsmall, eq_comm (b := out)]
    constructor
    · rintro ⟨hfits, heven, rfl⟩
      exact ⟨hsmall, by omega, by omega, rfl⟩
    · rintro ⟨-, hfits, heven, rfl⟩
      exact ⟨by omega, by omega, rfl⟩
  · have hneg := toInt32_mul_two_of_le hlarge
    exact iff_of_false (by rintro ⟨hfits, -⟩; omega) (by rintro ⟨hsmall, -⟩; omega)

/-- The bytes of a string of digits. -/
theorem cBytes_hexDigits (bytes : List UInt8) :
    cBytes (String.ofList (hexDigits bytes)) = hexDigitBytes bytes := by
  have hall : ∀ k : Fin 16, (hexChar (.ofNat k)).val.toUInt8 = hexDigitByte (.ofNat k) := by decide
  have hdigit {n : UInt8} (h : n < 16) : (hexChar n).val.toUInt8 = hexDigitByte n := by
    have hn : n = .ofNat n.toNat := by simp
    rw [hn]
    exact hall ⟨n.toNat, h⟩
  unfold cBytes
  rw [String.toList_ofList]
  induction bytes with
  | nil => rfl
  | cons byte rest ih =>
      have hhalves := halves_lt byte
      rw [hexDigitBytes_cons, ← ih]
      change (hexChar (byte / 16)).val.toUInt8 :: (hexChar (byte % 16)).val.toUInt8 :: _ = _
      rw [hdigit hhalves.1, hdigit hhalves.2]
      rfl

/-- What the handlers decode is what the codec decodes. -/
theorem hexstrToBin_eq_codec {str : String} (hstr : 0 ∉ cBytes str) {destMax : Nat}
    (hdest : destMax < 2 ^ 30) :
    hexstrToBin (some str) destMax =
      (hexstrToBin32 (some (.ofBytes (cBytes str))) (.ofNat destMax)).map Prod.fst := by
  have hmax : (2 * Int32.ofNat destMax).toInt = 2 * (destMax : Int) := by
    rw [Int32.mul_comm, toInt32_mul_two (by rw [toInt32_ofNat (by omega)]; omega)
      (by rw [toInt32_ofNat (by omega)]; omega), toInt32_ofNat (by omega)]
  have hlength : (Int32.ofNat (min (cBytes str).length hexstrMax)).toInt =
      (min (cBytes str).length hexstrMax : Nat) :=
    toInt32_ofNat (lt_of_le_of_lt (min_le_right _ _) (by decide))
  have hlarge : Int32.ofNat (min (cBytes str).length hexstrMax) > 2 * Int32.ofNat destMax ↔
      strnlenS str hexstrMax > 2 * destMax := by
    rw [gt_iff_lt, Int32.lt_iff_toInt_lt, hlength, hmax]
    unfold strnlenS
    omega
  have hodd : (Int32.ofNat (min (cBytes str).length hexstrMax)).toInt % 2 = 1 ↔
      strnlenS str hexstrMax % 2 = 1 := by
    rw [hlength]
    unfold strnlenS
    omega
  simp only [hexstrToBin, hexstrToBin32, need_some, ok_bind, NulString.strnlenS_some,
    NulString.ofBytes_chars hstr]
  rw [stopIf_congr hlarge, stopIf_congr hodd]
  unfold stopIf
  split
  · rfl
  · rw [ok_bind, ok_bind]
    split <;> rfl

/-- What the handlers encode is what the codec encodes. -/
theorem binToHexstr_eq_codec (src : Option Buffer) {srcLen : Int} (hlo : -2 ^ 30 ≤ srcLen)
    (hhi : srcLen < 2 ^ 30) {destMax : Nat} (hdest : destMax < 2 ^ 31) :
    binToHexstr32 src (.ofInt srcLen) (.ofNat destMax) =
      (binToHexstr src srcLen destMax).map fun str => cBytes str ++ [0] := by
  have hlen : (Int32.ofInt srcLen).toInt = srcLen := Int32.toInt_ofInt_of_le (by omega) (by omega)
  have hdouble : (Int32.ofInt srcLen * 2).toInt = 2 * srcLen := by
    rw [toInt32_mul_two (by rw [hlen]; exact hlo) (by rw [hlen]; exact hhi), hlen]
  simp only [binToHexstr, binToHexstr32, gt_iff_lt, Int32.lt_iff_toInt_lt, hdouble,
    toInt32_ofNat hdest, hlen]
  cases src with
  | none => rfl
  | some src =>
      simp only [need_some, ok_bind]
      by_cases hlarge : (destMax : Int) < 2 * srcLen
      · rw [stopIf, if_pos hlarge]
        rfl
      · rw [stopIf_neg hlarge, ok_bind, ok_bind, ← cBytes_hexDigits]
        rfl

/-- Capacities that admit a number of bytes, and whose doubles are still numbers of 32 bits. -/
def CodecAdmits (bytes : Nat) (strMax destMax : Int32) : Prop :=
  2 * (bytes : Int) ≤ strMax.toInt ∧ (bytes : Int) ≤ destMax.toInt ∧ destMax.toInt < 2 ^ 30

/-- The decoder, as far as its bound is concerned, does not meet a string that its check
cuts. -/
def DecodesWithin (src : NulString) (destMax : Int32) : Prop :=
  destMax.toInt < hexstrMax / 2 ∨ 2 ^ 30 ≤ destMax.toInt ∨
    (src.chars.length / 2 : Int) ≤ destMax.toInt

/-- Bytes that were written out are read back. -/
theorem decode_encode (bytes : List UInt8) {strMax destMax : Int32}
    (h : CodecAdmits bytes.length strMax destMax) :
    ∃ str : NulString,
      binToHexstr32 (some ⟨bytes.length, bytes⟩) (.ofNat bytes.length) strMax =
        .ok (str.chars ++ [0]) ∧
      hexstrToBin32 (some str) destMax = .ok (bytes, .ofNat bytes.length) ∧
      (Int32.ofNat bytes.length).toInt = bytes.length := by
  obtain ⟨hstr, hfits, hsmall⟩ := h
  have hlen : (Int32.ofNat bytes.length).toInt = bytes.length := toInt32_ofNat (by omega)
  have hdouble : (Int32.ofNat bytes.length * 2).toInt = 2 * (bytes.length : Int) := by
    rw [toInt32_mul_two (by omega) (by omega), hlen]
  have hread : Buffer.read ⟨bytes.length, bytes⟩ bytes.length = bytes := by
    simp [Buffer.read]
  refine ⟨⟨hexDigitBytes bytes, zero_notMem_hexDigitBytes bytes⟩, ?_, ?_, hlen⟩
  · refine binToHexstr32_eq_ok.mpr ⟨by omega, ?_⟩
    rw [hlen, Int.toNat_natCast, hread]
  · refine (hexstrToBin32_eq_ok (by omega)).mpr ⟨hsmall, ?_, ?_, ?_⟩
    · rw [length_hexDigitBytes]
      omega
    · rw [length_hexDigitBytes]
      unfold hexstrMax
      omega
    · rw [hexPairs_hexDigitBytes]

/-- Digits that were read are written out in upper case. -/
theorem encode_decode {str : NulString} (hhex : ∀ ch ∈ str.chars, IsHexDigit ch)
    (heven : str.chars.length % 2 = 0) {strMax destMax : Int32}
    (h : CodecAdmits (str.chars.length / 2) strMax destMax) :
    ∃ bytes, hexstrToBin32 (some str) destMax = .ok (bytes, .ofNat bytes.length) ∧
      binToHexstr32 (some ⟨destMax.toInt.toNat, bytes⟩) (.ofNat bytes.length) strMax =
        .ok (str.chars.map upperDigit ++ [0]) := by
  obtain ⟨hstr, hfits, hsmall⟩ := h
  have hlength := hexPairs_length str.chars
  have hlen : (Int32.ofNat (hexPairs str.chars).length).toInt = (hexPairs str.chars).length :=
    toInt32_ofNat (by omega)
  have hdouble : (Int32.ofNat (hexPairs str.chars).length * 2).toInt =
      2 * ((hexPairs str.chars).length : Int) := by
    rw [toInt32_mul_two (by omega) (by omega), hlen]
  have hread (size : Nat) : Buffer.read ⟨size, hexPairs str.chars⟩ (hexPairs str.chars).length =
      hexPairs str.chars := by
    simp [Buffer.read]
  refine ⟨hexPairs str.chars, ?_, ?_⟩
  · refine (hexstrToBin32_eq_ok (by omega)).mpr ⟨hsmall, by omega, ?_, rfl⟩
    unfold hexstrMax
    omega
  · refine binToHexstr32_eq_ok.mpr ⟨by omega, ?_⟩
    rw [hlen, Int.toNat_natCast, hread, hexDigitBytes_hexPairs hhex heven]

/-- When the decoder stays within its bound. -/
theorem decode_within_iff (src : NulString) {destMax : Int32} (hdest : 0 ≤ destMax.toInt) :
    (∀ out, hexstrToBin32 (some src) destMax = .ok out → (out.1.length : Int) ≤ destMax.toInt) ↔
      DecodesWithin src destMax := by
  have hlength := hexPairs_length src.chars
  unfold DecodesWithin
  constructor
  · intro hwithin
    by_contra hnot
    unfold hexstrMax at hnot
    have hcut : min src.chars.length hexstrMax = hexstrMax :=
      min_eq_right (by unfold hexstrMax; omega)
    have hok : hexstrToBin32 (some src) destMax =
        .ok (hexPairs src.chars, .ofNat (hexPairs src.chars).length) :=
      (hexstrToBin32_eq_ok hdest).mpr
      ⟨by omega, by unfold hexstrMax; omega, by rw [hcut]; rfl, rfl⟩
    have hout := hwithin _ hok
    dsimp only at hout
    omega
  · intro hcond out hok
    obtain ⟨hsmall, hfits, heven, rfl⟩ := (hexstrToBin32_eq_ok hdest).mp hok
    dsimp only
    unfold hexstrMax at hcond hfits
    omega

/-- The codec is a round trip for all bytes, and for all strings of digits but for their case.
The decoder writes no more bytes than it may exactly when its destination is smaller than half
of {lit}`AMVP_HEXSTR_MAX` or has room for the whole string, or when its size is too large to be
doubled. -/
theorem hex_codec_iff (bytes : List UInt8) (str src : NulString) (strMax destMax : Int32)
    (hdest : 0 ≤ destMax.toInt) :
    (CodecAdmits bytes.length strMax destMax → ∃ str : NulString,
      binToHexstr32 (some ⟨bytes.length, bytes⟩) (.ofNat bytes.length) strMax =
        .ok (str.chars ++ [0]) ∧
      hexstrToBin32 (some str) destMax = .ok (bytes, .ofNat bytes.length) ∧
      (Int32.ofNat bytes.length).toInt = bytes.length) ∧
    ((∀ ch ∈ str.chars, IsHexDigit ch) → str.chars.length % 2 = 0 →
      CodecAdmits (str.chars.length / 2) strMax destMax →
      ∃ bytes, hexstrToBin32 (some str) destMax = .ok (bytes, .ofNat bytes.length) ∧
        binToHexstr32 (some ⟨destMax.toInt.toNat, bytes⟩) (.ofNat bytes.length) strMax =
          .ok (str.chars.map upperDigit ++ [0])) ∧
    ((∀ out, hexstrToBin32 (some src) destMax = .ok out →
      (out.1.length : Int) ≤ destMax.toInt) ↔ DecodesWithin src destMax) :=
  ⟨decode_encode bytes, fun hhex heven => encode_decode hhex heven,
    decode_within_iff src hdest⟩

/-- Two characters more than the longest string. -/
def overlongZeros : NulString :=
  ⟨List.replicate (hexstrMax + 2) 48, fun h => by simp [List.mem_replicate] at h⟩

/-- The decoder writes one byte more than it may when the string is longer than the longest
one. -/
theorem decoder_leaves_bound :
    ∃ out, hexstrToBin32 (some overlongZeros) 131072 = .ok out ∧
      ¬(out.1.length : Int) ≤ (131072 : Int32).toInt := by
  have hdest : (131072 : Int32).toInt = 131072 := rfl
  have hlength : overlongZeros.chars.length = hexstrMax + 2 := List.length_replicate
  have hok : hexstrToBin32 (some overlongZeros) 131072 =
      .ok (hexPairs overlongZeros.chars, .ofNat (hexPairs overlongZeros.chars).length) :=
    (hexstrToBin32_eq_ok (by rw [hdest]; norm_num)).mpr
      ⟨by rw [hdest]; norm_num, by rw [hdest, hlength]; norm_num [hexstrMax],
        by rw [hlength]; norm_num [hexstrMax], rfl⟩
  refine ⟨_, hok, ?_⟩
  dsimp only
  rw [hexPairs_length, hlength, hdest]
  norm_num [hexstrMax]

/-- The digits {lit}`aB`. -/
def mixedDigits : NulString := ⟨[97, 66], by decide⟩

/-- Both statements at a byte whose digits are given in mixed case. -/
theorem hex_codec_mixed :
    (∃ str : NulString, binToHexstr32 (some ⟨1, [171]⟩) 1 2 = .ok (str.chars ++ [0]) ∧
      hexstrToBin32 (some str) 1 = .ok ([171], 1) ∧ (1 : Int32).toInt = 1) ∧
    (∃ bytes, hexstrToBin32 (some mixedDigits) 1 = .ok (bytes, .ofNat bytes.length) ∧
      binToHexstr32 (some ⟨1, bytes⟩) (.ofNat bytes.length) 2 = .ok [65, 66, 0]) ∧
    ∀ out, hexstrToBin32 (some mixedDigits) 1 = .ok out → (out.1.length : Int) ≤ 1 := by
  have h := hex_codec_iff [171] mixedDigits mixedDigits 2 1 (by decide)
  refine ⟨h.1 ?_, h.2.1 ?_ (by decide) ?_, h.2.2.mpr (Or.inl (by decide))⟩
  · exact ⟨by decide, by decide, by decide⟩
  · unfold IsHexDigit
    decide +kernel
  · exact ⟨by decide, by decide, by decide⟩

end LibAmvp
