import LibAmvp.Kat.HexCodec

/-!
# The encoding of responses

The functions that write the answer of an IKEv2 or an SRTP test.  They allocate a string,
convert one field of the test case structure after another into it, and set a member of the
answer to each.  The number of bytes that is converted is what the server has sent or what the
module has left in the structure; the number of characters that is checked and the number that
was allocated are two further ones.

Main results:

- Theorem {lit}`staysInside_iff`: when one conversion stays inside its string.
- Theorem {lit}`responses_safe_iff`: when all conversions of an answer do, and when none is
  accepted only because twice its length wraps.
-/

namespace LibAmvp

open Guard

/-! ## Fields -/

/-- A field of an answer: the member it is written to, the bytes, the most characters that are
accepted, and the characters that were allocated for them. -/
structure AnswerField where
  member : String
  src : Option Buffer
  len : Int32
  strMax : Int32
  room : Nat

/-- The conversion of a field: the characters that are written. -/
def AnswerField.write (f : AnswerField) : Except AmvpResult (List UInt8) :=
  binToHexstr32 f.src f.len f.strMax

/-- The conversion of a field writes only to the string that was allocated, or is refused. -/
def AnswerField.StaysInside (f : AnswerField) : Prop :=
  ∀ chars, f.write = .ok chars → chars.length ≤ f.room

/-- The text in front of the first terminator. -/
def textOf (chars : List UInt8) : String :=
  String.ofList ((chars.takeWhile (· ≠ 0)).map Char.ofUInt8)

/-- Convert one field after another until a conversion is refused: the conversions that were
made, and the answer. -/
def outputFields : List AnswerField → JsonObject → List AnswerField × Except AmvpResult JsonObject
  | [], tcRsp => ([], .ok tcRsp)
  | f :: rest, tcRsp =>
    match f.write with
    | .error rv => ([f], .error rv)
    | .ok chars =>
      let out := outputFields rest (jsonObjectSetText tcRsp f.member (some (textOf chars)))
      (f :: out.1, out.2)

/-! ## IKEv2 -/

def kdf135Ikev2SkeySeedStrMax : Int32 := 128
def kdf135Ikev2DkeyMaterialStrMax : Int32 := 4096

/-- What the answer is made of in {lit}`AMVP_KDF135_IKEV2_TC`. -/
structure Ikev2Tc where
  keyingMaterialLen : Int32
  sKeySeed : Option Buffer
  sKeySeedRekey : Option Buffer
  derivedKeyingMaterial : Option Buffer
  derivedKeyingMaterialChild : Option Buffer
  derivedKeyingMaterialChildDh : Option Buffer
  keyOutLen : Int32

/-- A seed: the string has one more character for the terminator. -/
def ikev2SeedField (stc : Ikev2Tc) (member : String) (src : Option Buffer) : AnswerField :=
  ⟨member, src, stc.keyOutLen, kdf135Ikev2SkeySeedStrMax,
    kdf135Ikev2SkeySeedStrMax.toInt.toNat + 1⟩

/-- Keying material: the string has no character for the terminator. -/
def ikev2MaterialField (stc : Ikev2Tc) (member : String) (src : Option Buffer) : AnswerField :=
  ⟨member, src, stc.keyingMaterialLen, kdf135Ikev2DkeyMaterialStrMax,
    kdf135Ikev2DkeyMaterialStrMax.toInt.toNat⟩

/-- {lit}`amvp_kdf135_ikev2_output_tc`. -/
def ikev2OutputTc (stc : Ikev2Tc) : JsonObject → List AnswerField × Except AmvpResult JsonObject :=
  outputFields [
    ikev2SeedField stc "sKeySeed" stc.sKeySeed,
    ikev2SeedField stc "sKeySeedReKey" stc.sKeySeedRekey,
    ikev2MaterialField stc "derivedKeyingMaterial" stc.derivedKeyingMaterial,
    ikev2MaterialField stc "derivedKeyingMaterialChild" stc.derivedKeyingMaterialChild,
    ikev2MaterialField stc "derivedKeyingMaterialDh" stc.derivedKeyingMaterialChildDh]

/-! ## SRTP -/

def kdf135SrtpOutputMax : Int32 := 64

/-- What the answer is made of in {lit}`AMVP_KDF135_SRTP_TC`. -/
structure SrtpTc where
  aesKeylen : Int32
  srtpKe : Option Buffer
  srtpKa : Option Buffer
  srtpKs : Option Buffer
  srtcpKe : Option Buffer
  srtcpKa : Option Buffer
  srtcpKs : Option Buffer

/-- A key, whose length is given in bits. -/
def srtpField (member : String) (src : Option Buffer) (bits : Int32) : AnswerField :=
  ⟨member, src, bits / 8, kdf135SrtpOutputMax, kdf135SrtpOutputMax.toInt.toNat + 1⟩

/-- {lit}`amvp_kdf135_srtp_output_tc`. -/
def srtpOutputTc (stc : SrtpTc) : JsonObject → List AnswerField × Except AmvpResult JsonObject :=
  outputFields [
    srtpField "srtpKe" stc.srtpKe stc.aesKeylen,
    srtpField "srtpKa" stc.srtpKa 160,
    srtpField "srtpKs" stc.srtpKs 112,
    srtpField "srtcpKe" stc.srtcpKe stc.aesKeylen,
    srtpField "srtcpKa" stc.srtcpKa 160,
    srtpField "srtcpKs" stc.srtcpKs 112]

/-! ## Conversions inside their strings -/

theorem AnswerField.write_eq_ok {f : AnswerField} {chars : List UInt8} :
    f.write = .ok chars ↔ ∃ src, f.src = some src ∧ (f.len * 2).toInt ≤ f.strMax.toInt ∧
      chars = hexDigitBytes (src.read f.len.toInt.toNat) ++ [0] := by
  unfold AnswerField.write
  cases hsrc : f.src with
  | none => exact iff_of_false (by rintro ⟨⟩) (by rintro ⟨src, ⟨⟩, -⟩)
  | some src =>
      rw [binToHexstr32_eq_ok]
      constructor
      · rintro ⟨hfits, hchars⟩
        exact ⟨src, rfl, hfits, hchars⟩
      · rintro ⟨src', ⟨rfl⟩, hfits, hchars⟩
        exact ⟨hfits, hchars⟩

theorem Buffer.length_read (b : Buffer) (n : Nat) : (b.read n).length = n := by
  unfold Buffer.read
  rw [List.length_take, List.length_append, List.length_replicate]
  omega

/-- A conversion is accepted: there are bytes, and twice their number does not exceed the
bound, as far as 32 bits show it. -/
def AnswerField.Accepted (f : AnswerField) : Prop :=
  f.src ≠ none ∧ (f.len * 2).toInt ≤ f.strMax.toInt

theorem AnswerField.write_isOk (f : AnswerField) : (∃ chars, f.write = .ok chars) ↔ f.Accepted := by
  unfold AnswerField.Accepted
  simp only [AnswerField.write_eq_ok, Option.ne_none_iff_exists']
  constructor
  · rintro ⟨chars, src, hsrc, hfits, -⟩
    exact ⟨⟨src, hsrc⟩, hfits⟩
  · rintro ⟨⟨src, hsrc⟩, hfits⟩
    exact ⟨_, src, hsrc, hfits, rfl⟩

/-- A conversion stays inside when, in case it is accepted, there is room for two digits for
each byte and for the terminator. -/
theorem staysInside_iff (f : AnswerField) :
    f.StaysInside ↔ (f.Accepted → 2 * f.len.toInt.toNat + 1 ≤ f.room) := by
  have hlength (src : Buffer) :
      (hexDigitBytes (src.read f.len.toInt.toNat) ++ [0]).length = 2 * f.len.toInt.toNat + 1 := by
    rw [List.length_append, length_hexDigitBytes, Buffer.length_read]
    rfl
  unfold AnswerField.StaysInside
  constructor
  · intro h haccepted
    obtain ⟨chars, hchars⟩ := f.write_isOk.mpr haccepted
    obtain ⟨src, -, -, rfl⟩ := AnswerField.write_eq_ok.mp hchars
    rw [← hlength src]
    exact h _ hchars
  · intro h chars hchars
    have haccepted := f.write_isOk.mp ⟨chars, hchars⟩
    obtain ⟨src, -, -, rfl⟩ := AnswerField.write_eq_ok.mp hchars
    rw [hlength src]
    exact h haccepted

/-- A conversion is safe: it stays inside its string, and its length is not accepted because its
double does not fit into 32 bits. -/
def AnswerField.Safe (f : AnswerField) : Prop :=
  f.StaysInside ∧ (f.Accepted → (f.len * 2).toInt = 2 * f.len.toInt)

/-- Doubling a length below minus two to the thirty makes it positive. -/
theorem toInt32_mul_two_of_lt {n : Int32} (h : n.toInt < -2 ^ 30) :
    (n * 2).toInt = 2 * n.toInt + 2 ^ 32 := by
  have hn := n.le_toInt
  rw [toInt32_double, Int.bmod_def]
  omega

/-- A length is accepted although its double wraps. -/
theorem accepted_wrapping_iff {f : AnswerField} (hmax : 0 ≤ f.strMax.toInt) :
    (f.Accepted → (f.len * 2).toInt = 2 * f.len.toInt) ↔
      (f.src ≠ none → f.strMax.toInt < 2 * f.len.toInt + 2 ^ 32 ∧ f.len.toInt < 2 ^ 30) := by
  unfold AnswerField.Accepted
  have hstr := f.strMax.toInt_lt
  rcases lt_or_ge f.len.toInt (-2 ^ 30) with hneg | hge
  · rw [toInt32_mul_two_of_lt hneg]
    constructor
    · intro h hsrc
      by_contra hnot
      have heq := h ⟨hsrc, by omega⟩
      omega
    · rintro h ⟨hsrc, hfits⟩
      have hlimits := h hsrc
      omega
  · rcases lt_or_ge f.len.toInt (2 ^ 30) with hlt | hlarge
    · rw [toInt32_mul_two hge hlt]
      exact iff_of_true (fun _ => rfl) fun _ => ⟨by omega, hlt⟩
    · have hwraps := toInt32_mul_two_of_le hlarge
      constructor
      · intro h hsrc
        have heq := h ⟨hsrc, by omega⟩
        omega
      · rintro h ⟨hsrc, hfits⟩
        have hlimits := h hsrc
        omega

/-- A string that has a character for the terminator is left only by a length whose double
wraps. -/
theorem safe_of_room {f : AnswerField} (hmax : 0 ≤ f.strMax.toInt)
    (hroom : f.room = f.strMax.toInt.toNat + 1) :
    f.Safe ↔
      (f.src ≠ none → f.strMax.toInt < 2 * f.len.toInt + 2 ^ 32 ∧ f.len.toInt < 2 ^ 30) := by
  unfold AnswerField.Safe
  rw [staysInside_iff, and_iff_right_of_imp, accepted_wrapping_iff hmax]
  rintro hexact ⟨hsrc, hfits⟩
  rw [hexact ⟨hsrc, hfits⟩] at hfits
  omega

/-- A string without a character for the terminator is left also by the length that fills
it. -/
theorem safe_of_no_room {f : AnswerField} (hmax : 0 < f.strMax.toInt)
    (hroom : f.room = f.strMax.toInt.toNat) :
    f.Safe ↔
      (f.src ≠ none → f.strMax.toInt < 2 * f.len.toInt + 2 ^ 32 ∧ f.len.toInt < 2 ^ 30 ∧
        2 * f.len.toInt ≠ f.strMax.toInt) := by
  unfold AnswerField.Safe
  rw [staysInside_iff, accepted_wrapping_iff hmax.le]
  have hstr := f.strMax.toInt_lt
  constructor
  · rintro ⟨hinside, hexact⟩ hsrc
    obtain ⟨hlo, hhi⟩ := hexact hsrc
    refine ⟨hlo, hhi, fun hfull => ?_⟩
    have hle := hinside ⟨hsrc, by rw [toInt32_mul_two (by omega) hhi]; omega⟩
    omega
  · intro h
    refine ⟨?_, fun hsrc => ⟨(h hsrc).1, (h hsrc).2.1⟩⟩
    rintro ⟨hsrc, hfits⟩
    obtain ⟨hlo, hhi, hfull⟩ := h hsrc
    rcases lt_or_ge f.len.toInt 0 with hneg | hpos
    · omega
    · rw [toInt32_mul_two (by omega) hhi] at hfits
      omega

/-! ## Answers -/

instance (f : AnswerField) : Decidable f.Accepted := inferInstanceAs (Decidable (_ ∧ _))

/-- The conversions that are made: those in front of the first that is refused, and this
one. -/
def conversions : List AnswerField → List AnswerField
  | [] => []
  | f :: rest => f :: if f.Accepted then conversions rest else []

theorem outputFields_conversions (fields : List AnswerField) (tcRsp : JsonObject) :
    (outputFields fields tcRsp).1 = conversions fields := by
  induction fields generalizing tcRsp with
  | nil => rfl
  | cons f rest ih =>
      rw [outputFields, conversions]
      cases hwrite : f.write with
      | error rv =>
          rw [if_neg fun haccepted => ?_]
          obtain ⟨chars, hchars⟩ := f.write_isOk.mpr haccepted
          rw [hwrite] at hchars
          cases hchars
      | ok chars => rw [if_pos (f.write_isOk.mp ⟨chars, hwrite⟩), ← ih]

theorem forall_mem_conversions {p : AnswerField → Prop} {f : AnswerField}
    {rest : List AnswerField} :
    (∀ g ∈ conversions (f :: rest), p g) ↔ p f ∧ (f.Accepted → ∀ g ∈ conversions rest, p g) := by
  rw [conversions, List.forall_mem_cons]
  by_cases haccepted : f.Accepted
  · rw [if_pos haccepted]
    exact and_congr_right fun _ => ⟨fun h _ => h, fun h => h haccepted⟩
  · rw [if_neg haccepted]
    exact and_congr_right fun _ => ⟨fun _ h => absurd h haccepted, fun _ g hg => by cases hg⟩

/-- The lengths of an IKEv2 answer can be encoded: the length of the seeds, if there are any,
does not wrap when it is doubled, and when the seeds are accepted, neither does the length of
the keying material, which does not fill its string either. -/
def Ikev2Encodes (stc : Ikev2Tc) : Prop :=
  (stc.sKeySeed ≠ none → -2 ^ 31 + 64 < stc.keyOutLen.toInt ∧ stc.keyOutLen.toInt < 2 ^ 30) ∧
    (stc.sKeySeed ≠ none → stc.sKeySeedRekey ≠ none → stc.derivedKeyingMaterial ≠ none →
      -2 ^ 30 ≤ stc.keyOutLen.toInt → stc.keyOutLen.toInt ≤ 64 →
      -2 ^ 31 + 2048 < stc.keyingMaterialLen.toInt ∧ stc.keyingMaterialLen.toInt < 2 ^ 30 ∧
        stc.keyingMaterialLen.toInt ≠ 2048)

theorem ikev2SeedField_safe (stc : Ikev2Tc) (member : String) (src : Option Buffer) :
    (ikev2SeedField stc member src).Safe ↔
      (src ≠ none → -2 ^ 31 + 64 < stc.keyOutLen.toInt ∧ stc.keyOutLen.toInt < 2 ^ 30) := by
  rw [safe_of_room (by change 0 ≤ kdf135Ikev2SkeySeedStrMax.toInt; decide) rfl]
  have hmax : kdf135Ikev2SkeySeedStrMax.toInt = 128 := rfl
  unfold ikev2SeedField
  rw [hmax]
  refine imp_congr_right fun _ => and_congr_left fun _ => ?_
  dsimp only
  omega

theorem ikev2MaterialField_safe (stc : Ikev2Tc) (member : String) (src : Option Buffer) :
    (ikev2MaterialField stc member src).Safe ↔
      (src ≠ none → -2 ^ 31 + 2048 < stc.keyingMaterialLen.toInt ∧
        stc.keyingMaterialLen.toInt < 2 ^ 30 ∧ stc.keyingMaterialLen.toInt ≠ 2048) := by
  rw [safe_of_no_room (by change 0 < kdf135Ikev2DkeyMaterialStrMax.toInt; decide) rfl]
  have hmax : kdf135Ikev2DkeyMaterialStrMax.toInt = 4096 := rfl
  unfold ikev2MaterialField
  rw [hmax]
  refine imp_congr_right fun _ => ?_
  dsimp only
  omega

/-- A seed is accepted when it has at most 64 bytes and its length does not wrap. -/
theorem ikev2SeedField_accepted (stc : Ikev2Tc) (member : String) {src : Option Buffer}
    (hlo : -2 ^ 31 + 64 < stc.keyOutLen.toInt) (hhi : stc.keyOutLen.toInt < 2 ^ 30) :
    (ikev2SeedField stc member src).Accepted ↔
      src ≠ none ∧ -2 ^ 30 ≤ stc.keyOutLen.toInt ∧ stc.keyOutLen.toInt ≤ 64 := by
  have hmax : kdf135Ikev2SkeySeedStrMax.toInt = 128 := rfl
  unfold AnswerField.Accepted ikev2SeedField
  dsimp only
  rw [hmax]
  refine and_congr_right fun _ => ?_
  rcases lt_or_ge stc.keyOutLen.toInt (-2 ^ 30) with hneg | hge
  · rw [toInt32_mul_two_of_lt hneg]
    omega
  · rw [toInt32_mul_two hge hhi]
    omega

/-- When the conversions of an IKEv2 answer are safe. -/
theorem ikev2_safe_iff (stc : Ikev2Tc) (tcRsp : JsonObject) :
    (∀ f ∈ (ikev2OutputTc stc tcRsp).1, f.Safe) ↔ Ikev2Encodes stc := by
  unfold ikev2OutputTc
  rw [outputFields_conversions]
  simp only [forall_mem_conversions, ikev2SeedField_safe, ikev2MaterialField_safe]
  unfold Ikev2Encodes
  constructor
  · rintro ⟨hseed, hrest⟩
    refine ⟨hseed, fun hsrc hrekey hmaterial hlo hfits => ?_⟩
    have haccepted (member : String) {src : Option Buffer} (h : src ≠ none) :
        (ikev2SeedField stc member src).Accepted :=
      (ikev2SeedField_accepted stc member (hseed hsrc).1 (hseed hsrc).2).mpr ⟨h, hlo, hfits⟩
    exact ((hrest (haccepted _ hsrc)).2 (haccepted _ hrekey)).1 hmaterial
  · rintro ⟨hseed, hmaterial⟩
    refine ⟨hseed, fun hfirst => ?_⟩
    have hlimits := hseed hfirst.1
    obtain ⟨hsrc, hlo, hfits⟩ := (ikev2SeedField_accepted stc _ hlimits.1 hlimits.2).mp hfirst
    refine ⟨fun _ => hlimits, fun hsecond => ?_⟩
    have hlen (hdkm : stc.derivedKeyingMaterial ≠ none) := hmaterial hsrc hsecond.1 hdkm hlo
      hfits
    refine ⟨hlen, fun hthird => ⟨fun _ => hlen hthird.1, fun _ => ⟨fun _ => hlen hthird.1, ?_⟩⟩⟩
    rintro - g hg
    cases hg

theorem srtpField_safe (member : String) (src : Option Buffer) (bits : Int32) :
    (srtpField member src bits).Safe := by
  refine (safe_of_room (by change 0 ≤ kdf135SrtpOutputMax.toInt; decide) rfl).mpr fun _ => ?_
  have hlo := bits.le_toInt
  have hhi := bits.toInt_lt
  have hdiv : (bits / 8).toInt = bits.toInt.tdiv 8 :=
    Int32.toInt_div_of_ne_right bits 8 (by decide)
  have hmax : kdf135SrtpOutputMax.toInt = 64 := rfl
  change kdf135SrtpOutputMax.toInt < 2 * (bits / 8).toInt + 2 ^ 32 ∧ (bits / 8).toInt < 2 ^ 30
  rw [hdiv, hmax, Int.tdiv_eq_ediv]
  have hsign : Int.sign 8 = 1 := rfl
  split <;> omega

/-- The conversions of an SRTP answer are safe. -/
theorem srtp_safe (stc : SrtpTc) (tcRsp : JsonObject) :
    ∀ f ∈ (srtpOutputTc stc tcRsp).1, f.Safe := by
  unfold srtpOutputTc
  rw [outputFields_conversions]
  simp only [forall_mem_conversions, srtpField_safe, true_and]
  intro _ _ _ _ _ _ g hg
  cases hg

/-- For all lengths of 32 bits the conversions of an IKEv2 answer are safe exactly when its
lengths can be encoded, and those of an SRTP answer are so always. -/
theorem responses_safe_iff (ikev2 : Ikev2Tc) (srtp : SrtpTc) (tcRsp : JsonObject) :
    ((∀ f ∈ (ikev2OutputTc ikev2 tcRsp).1, f.Safe) ↔ Ikev2Encodes ikev2) ∧
      ∀ f ∈ (srtpOutputTc srtp tcRsp).1, f.Safe :=
  ⟨ikev2_safe_iff ikev2 tcRsp, srtp_safe srtp tcRsp⟩

/-- A test case with the most keying material that the handler admits, and a seed of 64
bytes. -/
def ikev2MostMaterial : Ikev2Tc :=
  { keyingMaterialLen := .ofInt (bit2byte kdf135Ikev2DkeyMaterialBitMax)
    sKeySeed := some ⟨64, []⟩
    sKeySeedRekey := some ⟨64, []⟩
    derivedKeyingMaterial := some ⟨2048, []⟩
    derivedKeyingMaterialChild := some ⟨2048, []⟩
    derivedKeyingMaterialChildDh := some ⟨2048, []⟩
    keyOutLen := 64 }

/-- The terminator of the longest keying material is written behind its string. -/
theorem ikev2_leaves_string :
    ∃ f ∈ (ikev2OutputTc ikev2MostMaterial []).1, ¬f.StaysInside := by
  refine ⟨ikev2MaterialField ikev2MostMaterial "derivedKeyingMaterial" (some ⟨2048, []⟩), ?_, ?_⟩
  · unfold ikev2OutputTc
    rw [outputFields_conversions]
    refine List.mem_cons_of_mem _ ?_
    rw [if_pos ⟨by decide, by decide⟩]
    refine List.mem_cons_of_mem _ ?_
    rw [if_pos ⟨by decide, by decide⟩]
    exact List.mem_cons_self
  · rw [staysInside_iff]
    intro h
    have hle := h ⟨by decide, by decide⟩
    exact absurd hle (by decide)

end LibAmvp
