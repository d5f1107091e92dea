import LibAmvp.Parson.Strings

/-!
# Strings that parson takes over

A string that is set through the interface of parson has to be UTF-8.  The check goes from
sequence to sequence, and a sequence may be read past the end that is given.

Main results:

- Theorem {lit}`verifyUtf8Sequence_eq_some_iff`: a sequence is verified exactly when it is the
  encoding of a character.
- Theorem {lit}`jsonValueInitString_eq_some_iff`: a string is taken over exactly when it is the
  encoding of some characters and not too long.
-/

namespace LibAmvp.Parson

open JsonTree

/-! ## The check -/

/-- {lit}`IS_CONT`. -/
def isCont (b : UInt8) : Prop := b &&& 0xc0 = 0x80

instance : DecidablePred isCont := fun b => inferInstanceAs (Decidable (b &&& 0xc0 = 0x80))

/-- {lit}`num_bytes_in_utf8_sequence`. -/
def numBytesInUtf8Sequence (c : UInt8) : Nat :=
  if c = 0xc0 ∨ c = 0xc1 ∨ 0xf4 < c ∨ isCont c then 0
  else if c &&& 0x80 = 0 then 1
  else if c &&& 0xe0 = 0xc0 then 2
  else if c &&& 0xf0 = 0xe0 then 3
  else if c &&& 0xf8 = 0xf0 then 4
  else 0

/-- The low bits of a byte of a sequence. -/
def lowBits (mask b : UInt8) : UInt32 := (b &&& mask).toUInt32

/-- The number that {lit}`verify_utf8_sequence` puts together, from a sequence of a length. -/
def sequenceCodePoint (s : List UInt8) (len : Nat) : Option UInt32 :=
  let string (i : Nat) := deref (s.drop i)
  if len = 1 then some (string 0).toUInt32
  else if len = 2 ∧ isCont (string 1) then
    some (lowBits 0x1f (string 0) <<< 6 ||| lowBits 0x3f (string 1))
  else if len = 3 ∧ isCont (string 1) ∧ isCont (string 2) then
    let cp := lowBits 0x0f (string 0) <<< 6 ||| lowBits 0x3f (string 1)
    some (cp <<< 6 ||| lowBits 0x3f (string 2))
  else if len = 4 ∧ isCont (string 1) ∧ isCont (string 2) ∧ isCont (string 3) then
    let cp := lowBits 0x07 (string 0) <<< 6 ||| lowBits 0x3f (string 1)
    let cp := cp <<< 6 ||| lowBits 0x3f (string 2)
    some (cp <<< 6 ||| lowBits 0x3f (string 3))
  else none

/-- {lit}`verify_utf8_sequence`: the length of a sequence that is right. -/
def verifyUtf8Sequence (s : List UInt8) : Option Nat :=
  let len := numBytesInUtf8Sequence (deref s)
  match sequenceCodePoint s len with
  | none => none
  | some cp =>
    -- overlong encodings
    if cp < 0x80 ∧ 1 < len ∨ cp < 0x800 ∧ 2 < len ∨ cp < 0x10000 ∧ 3 < len then none
    else if 0x10ffff < cp then none
    -- surrogate halves
    else if 0xd800 ≤ cp ∧ cp ≤ 0xdfff then none
    else some len

/-- A sequence that is verified is not empty. -/
theorem verifyUtf8Sequence_pos {s : List UInt8} {len : Nat} (h : verifyUtf8Sequence s = some len) :
    0 < len := by
  apply Nat.pos_of_ne_zero
  rintro rfl
  rw [verifyUtf8Sequence] at h
  by_cases hlen : numBytesInUtf8Sequence (deref s) = 0
  · simp [hlen, sequenceCodePoint] at h
  · split at h
    · cases h
    · split_ifs at h
      exact hlen (Option.some.inj h)

/-- The loop of {lit}`is_valid_utf8`, with how far the end is. -/
def validLoop (left : Nat) (s : List UInt8) : Bool :=
  if _hleft : left = 0 then true
  else
    match _h : verifyUtf8Sequence s with
    | none => false
    | some len => validLoop (left - len) (s.drop len)
termination_by left
decreasing_by
  have hpos := verifyUtf8Sequence_pos _h
  omega

/-- The same loop by recursion over a number of rounds, by which it can be evaluated. -/
def validRounds : Nat → Nat → List UInt8 → Bool
  | 0, _, _ => true
  | rounds + 1, left, s =>
    if left = 0 then true
    else
      match verifyUtf8Sequence s with
      | none => false
      | some len => validRounds rounds (left - len) (s.drop len)

/-- Every round of the loop takes a byte at least. -/
theorem validRounds_eq {rounds left : Nat} {s : List UInt8} (h : left ≤ rounds) :
    validRounds rounds left s = validLoop left s := by
  induction rounds generalizing left s with
  | zero =>
    rw [Nat.le_zero.mp h, validLoop]
    rfl
  | succ rounds ih =>
    rw [validRounds, validLoop]
    by_cases hleft : left = 0
    · rw [if_pos hleft, dif_pos hleft]
    · rw [if_neg hleft, dif_neg hleft]
      cases hseq : verifyUtf8Sequence s with
      | none => rfl
      | some len =>
        have hpos := verifyUtf8Sequence_pos hseq
        exact ih (by omega)

/-- {lit}`is_valid_utf8`. -/
def isValidUtf8 (string : List UInt8) (stringLen : Nat) : Bool := validLoop stringLen string

/-- {lit}`json_value_init_string`: the value of a string that is valid and not too long. -/
def jsonValueInitString {ν : Type} (string : NulString) : Option (JsonTree ν) :=
  let len := NulString.strnlenS (some string) (stringValueMax + 1)
  if stringValueMax < len then none
  else if isValidUtf8 string.chars len then some (.str (string.chars.take len))
  else none

/-! ## Sequences -/

/-- Bits that are pushed below others. -/
theorem pushBits_toNat {a b : UInt32} (ha : a.toNat < 2 ^ 26) (hb : b.toNat < 2 ^ 6) :
    (a <<< 6 ||| b).toNat = a.toNat * 64 + b.toNat := by
  have hshift : (a <<< 6).toNat = a.toNat <<< 6 := by
    rw [UInt32.toNat_shiftLeft, show (6 : UInt32).toNat % 32 = 6 from rfl, Nat.mod_eq_of_lt]
    rw [Nat.shiftLeft_eq]
    omega
  rw [UInt32.toNat_or, hshift, ← Nat.shiftLeft_add_eq_or_of_lt hb, Nat.shiftLeft_eq]

/-- The low bits are no larger than the mask. -/
theorem lowBits_toNat_le (mask b : UInt8) : (lowBits mask b).toNat ≤ mask.toNat := by
  rw [lowBits, UInt8.toNat_toUInt32, UInt8.toNat_and]
  exact Nat.and_le_right

/-- A property of a byte that holds of all 256 of them. -/
theorem forall_byte {p : UInt8 → Prop} (h : ∀ k : Fin 256, p (UInt8.ofNat k)) (b : UInt8) :
    p b := by
  simpa using h ⟨b.toNat, b.toNat_lt⟩

/-- The length of a sequence by its first byte, for the first bytes that are told apart by their
high bits. -/
theorem numBytesInUtf8Sequence_eq (b : UInt8) :
    (b &&& 0x80 = 0 → numBytesInUtf8Sequence b = 1) ∧
    (b &&& 0xe0 = 0xc0 → numBytesInUtf8Sequence b = if b = 0xc0 ∨ b = 0xc1 then 0 else 2) ∧
    (b &&& 0xf0 = 0xe0 → numBytesInUtf8Sequence b = 3) ∧
    (b &&& 0xf8 = 0xf0 → numBytesInUtf8Sequence b = if 0xf4 < b then 0 else 4) ∧
    (¬b &&& 0x80 = 0 → ¬b &&& 0xe0 = 0xc0 → ¬b &&& 0xf0 = 0xe0 → ¬b &&& 0xf8 = 0xf0 →
      numBytesInUtf8Sequence b = 0) := by
  revert b
  apply forall_byte
  decide +kernel

/-- What is asked of the number that was put together. -/
theorem verifyUtf8Sequence_isSome_iff {s : List UInt8} :
    (verifyUtf8Sequence s).isSome ↔
      ∃ cp, sequenceCodePoint s (numBytesInUtf8Sequence (deref s)) = some cp ∧
        ¬(cp.toNat < 0x80 ∧ 1 < numBytesInUtf8Sequence (deref s) ∨
          cp.toNat < 0x800 ∧ 2 < numBytesInUtf8Sequence (deref s) ∨
          cp.toNat < 0x10000 ∧ 3 < numBytesInUtf8Sequence (deref s)) ∧
        cp.toNat ≤ 0x10ffff ∧ ¬(0xd800 ≤ cp.toNat ∧ cp.toNat ≤ 0xdfff) := by
  rw [verifyUtf8Sequence]
  cases hcp : sequenceCodePoint s (numBytesInUtf8Sequence (deref s)) with
  | none => simp
  | some cp =>
    simp only [Option.some.injEq, exists_eq_left']
    simp only [UInt32.lt_iff_toNat_lt, UInt32.le_iff_toNat_le]
    change (if cp.toNat < 0x80 ∧ _ ∨ cp.toNat < 0x800 ∧ _ ∨ cp.toNat < 0x10000 ∧ _ then none
      else if 0x10ffff < cp.toNat then none
      else if 0xd800 ≤ cp.toNat ∧ cp.toNat ≤ 0xdfff then none else _).isSome = true ↔ _
    split_ifs with hover hbig hhalf
    · simp [hover]
    · simp only [Option.isSome_none, Bool.false_eq_true, false_iff]
      omega
    · simp only [Option.isSome_none, Bool.false_eq_true, false_iff]
      omega
    · simp only [Option.isSome_some, true_iff]
      exact ⟨hover, Nat.not_lt.mp hbig, hhalf⟩

open ByteArray.utf8DecodeChar?

/-- A byte is not refused exactly when it continues a sequence. -/
theorem isInvalidContinuationByte_eq_false {b : UInt8} :
    isInvalidContinuationByte b = false ↔ isCont b := by
  simp [isInvalidContinuationByte, isCont]

section Sequences

variable {b x y z : UInt8} {t : List UInt8}

/-- A first byte without a length is refused. -/
theorem verifyUtf8Sequence_none (h : numBytesInUtf8Sequence (deref t) = 0) :
    verifyUtf8Sequence t = none := by
  simp [verifyUtf8Sequence, h, sequenceCodePoint]

/-- A byte below 128 is a sequence. -/
theorem verifyUtf8Sequence_one (h : numBytesInUtf8Sequence b = 1) (hb : b &&& 0x80 = 0) :
    (verifyUtf8Sequence (b :: t)).isSome := by
  have hlow : b.toNat < 0x80 :=
    forall_byte (p := fun b => b &&& 0x80 = 0 → b.toNat < 0x80) (by decide +kernel) b hb
  have hfirst : deref (b :: t) = b := rfl
  rw [verifyUtf8Sequence_isSome_iff, hfirst, h]
  refine ⟨b.toUInt32, rfl, ?_⟩
  rw [UInt8.toNat_toUInt32]
  omega

/-- When two bytes are a sequence. -/
theorem verifyUtf8Sequence_two (h : numBytesInUtf8Sequence b = 2) :
    (verifyUtf8Sequence (b :: x :: t)).isSome ↔ verify₂ b x := by
  have hfirst : deref (b :: x :: t) = b := rfl
  have hpoint : sequenceCodePoint (b :: x :: t) 2 = if isCont x then
      some (lowBits 0x1f b <<< 6 ||| lowBits 0x3f x) else none := by
    simp [sequenceCodePoint, deref]
  rw [verifyUtf8Sequence_isSome_iff, hfirst, h, hpoint, verify₂]
  by_cases hcont : isCont x
  · have hb : (lowBits 0x1f b).toNat ≤ 31 := lowBits_toNat_le 0x1f b
    have hx : (lowBits 0x3f x).toNat ≤ 63 := lowBits_toNat_le 0x3f x
    have hnat := pushBits_toNat (a := lowBits 0x1f b) (b := lowBits 0x3f x) (by omega) (by omega)
    have hcore : assemble₂Unchecked b x = lowBits 0x1f b <<< 6 ||| lowBits 0x3f x := rfl
    rw [isInvalidContinuationByte_eq_false.mpr hcont, hcore]
    simp only [hcont, if_true, Option.some.injEq, exists_eq_left', Bool.false_eq_true, if_false,
      decide_eq_true_eq, UInt32.le_iff_toNat_le]
    change _ ↔ 0x80 ≤ _
    omega
  · have hinvalid : isInvalidContinuationByte x = true := by
      simpa using mt isInvalidContinuationByte_eq_false.mp hcont
    simp [hcont, hinvalid]

/-- When three bytes are a sequence. -/
theorem verifyUtf8Sequence_three (h : numBytesInUtf8Sequence b = 3) :
    (verifyUtf8Sequence (b :: x :: y :: t)).isSome ↔ verify₃ b x y := by
  have hfirst : deref (b :: x :: y :: t) = b := rfl
  have hpoint : sequenceCodePoint (b :: x :: y :: t) 3 = if isCont x ∧ isCont y then
      some ((lowBits 0x0f b <<< 6 ||| lowBits 0x3f x) <<< 6 ||| lowBits 0x3f y) else none := by
    simp [sequenceCodePoint, deref]
  rw [verifyUtf8Sequence_isSome_iff, hfirst, h, hpoint, verify₃]
  by_cases hcont : isCont x ∧ isCont y
  · have hb : (lowBits 0x0f b).toNat ≤ 15 := lowBits_toNat_le 0x0f b
    have hx : (lowBits 0x3f x).toNat ≤ 63 := lowBits_toNat_le 0x3f x
    have hy : (lowBits 0x3f y).toNat ≤ 63 := lowBits_toNat_le 0x3f y
    have hnat := pushBits_toNat (a := lowBits 0x0f b) (b := lowBits 0x3f x) (by omega) (by omega)
    have hnat' := pushBits_toNat (a := lowBits 0x0f b <<< 6 ||| lowBits 0x3f x)
      (b := lowBits 0x3f y) (by omega) (by omega)
    have hcore : assemble₃Unchecked b x y =
        (lowBits 0x0f b <<< 6 ||| lowBits 0x3f x) <<< 6 ||| lowBits 0x3f y := by
      rw [UInt32.shiftLeft_or, ← UInt32.shiftLeft_add_of_toNat_lt (by decide)]
      rfl
    rw [isInvalidContinuationByte_eq_false.mpr hcont.1,
      isInvalidContinuationByte_eq_false.mpr hcont.2, hcore]
    simp only [hcont, and_self, if_true, Option.some.injEq, exists_eq_left', Bool.or_self,
      Bool.false_eq_true, if_false, decide_eq_true_eq, UInt32.le_iff_toNat_le,
      UInt32.lt_iff_toNat_lt]
    change _ ↔ 0x800 ≤ _ ∧ (_ < 0xd800 ∨ 0xdfff < _)
    omega
  · have hinvalid : (isInvalidContinuationByte x || isInvalidContinuationByte y) = true := by
      by_contra hvalid
      rw [Bool.not_eq_true, Bool.or_eq_false_iff, isInvalidContinuationByte_eq_false,
        isInvalidContinuationByte_eq_false] at hvalid
      exact hcont hvalid
    simp [hcont, hinvalid]

/-- The code point of four bytes, as it is put together. -/
theorem assemble₄Unchecked_eq (b x y z : UInt8) :
    assemble₄Unchecked b x y z =
      ((lowBits 0x07 b <<< 6 ||| lowBits 0x3f x) <<< 6 ||| lowBits 0x3f y) <<< 6 |||
        lowBits 0x3f z := by
  have h12 (v : UInt32) : v <<< 12 = v <<< 6 <<< 6 :=
    UInt32.shiftLeft_add_of_toNat_lt (b := 6) (c := 6) (by decide)
  have h18 (v : UInt32) : v <<< 18 = v <<< 6 <<< 6 <<< 6 := by
    rw [← h12, ← UInt32.shiftLeft_add_of_toNat_lt (by decide)]
    rfl
  calc
    assemble₄Unchecked b x y z =
        lowBits 0x07 b <<< 6 <<< 6 <<< 6 ||| lowBits 0x3f x <<< 6 <<< 6 ||| lowBits 0x3f y <<< 6 |||
          lowBits 0x3f z := by
      rw [← h18, ← h12]
      rfl
    _ = ((lowBits 0x07 b <<< 6 ||| lowBits 0x3f x) <<< 6 ||| lowBits 0x3f y) <<< 6 |||
          lowBits 0x3f z := by
      rw [UInt32.shiftLeft_or, UInt32.shiftLeft_or, UInt32.shiftLeft_or]

/-- The same as a number. -/
theorem assemble₄Unchecked_toNat (b x y z : UInt8) :
    (assemble₄Unchecked b x y z).toNat =
      (((lowBits 0x07 b).toNat * 64 + (lowBits 0x3f x).toNat) * 64 + (lowBits 0x3f y).toNat) * 64 +
        (lowBits 0x3f z).toNat := by
  have hb : (lowBits 0x07 b).toNat ≤ 7 := lowBits_toNat_le 0x07 b
  have hx : (lowBits 0x3f x).toNat ≤ 63 := lowBits_toNat_le 0x3f x
  have hy : (lowBits 0x3f y).toNat ≤ 63 := lowBits_toNat_le 0x3f y
  have hz : (lowBits 0x3f z).toNat ≤ 63 := lowBits_toNat_le 0x3f z
  have htwo := pushBits_toNat (a := lowBits 0x07 b) (b := lowBits 0x3f x) (by omega) (by omega)
  have hthree := pushBits_toNat (a := lowBits 0x07 b <<< 6 ||| lowBits 0x3f x)
    (b := lowBits 0x3f y) (by omega) (by omega)
  rw [assemble₄Unchecked_eq, pushBits_toNat (by omega) (by omega), hthree, htwo]

/-- When four bytes are a sequence. -/
theorem verifyUtf8Sequence_four (h : numBytesInUtf8Sequence b = 4) :
    (verifyUtf8Sequence (b :: x :: y :: z :: t)).isSome ↔ verify₄ b x y z := by
  have hfirst : deref (b :: x :: y :: z :: t) = b := rfl
  have hpoint : sequenceCodePoint (b :: x :: y :: z :: t) 4 =
      if isCont x ∧ isCont y ∧ isCont z then
        some (((lowBits 0x07 b <<< 6 ||| lowBits 0x3f x) <<< 6 ||| lowBits 0x3f y) <<< 6 |||
          lowBits 0x3f z)
      else none := by
    simp [sequenceCodePoint, deref]
  rw [verifyUtf8Sequence_isSome_iff, hfirst, h, hpoint, verify₄]
  by_cases hcont : isCont x ∧ isCont y ∧ isCont z
  · rw [isInvalidContinuationByte_eq_false.mpr hcont.1,
      isInvalidContinuationByte_eq_false.mpr hcont.2.1,
      isInvalidContinuationByte_eq_false.mpr hcont.2.2, ← assemble₄Unchecked_eq]
    simp only [hcont, and_self, if_true, Option.some.injEq, exists_eq_left', Bool.or_self,
      Bool.false_eq_true, if_false, decide_eq_true_eq, UInt32.le_iff_toNat_le]
    change _ ↔ 0x10000 ≤ _ ∧ _ ≤ 0x10ffff
    omega
  · have hinvalid : (isInvalidContinuationByte x || isInvalidContinuationByte y ||
        isInvalidContinuationByte z) = true := by
      by_contra hvalid
      rw [Bool.not_eq_true, Bool.or_eq_false_iff, Bool.or_eq_false_iff,
        isInvalidContinuationByte_eq_false, isInvalidContinuationByte_eq_false,
        isInvalidContinuationByte_eq_false] at hvalid
      exact hcont ⟨hvalid.1.1, hvalid.1.2, hvalid.2⟩
    simp [hcont, hinvalid]

/-- A sequence that is cut short is not verified: what follows is the terminator. -/
theorem sequenceCodePoint_short {len : Nat} (h : t.length < len) (hpos : t ≠ []) :
    sequenceCodePoint t len = none := by
  have hend {i : Nat} (hi : t.length ≤ i) : ¬isCont (deref (t.drop i)) := by
    rw [List.drop_eq_nil_of_le hi]
    decide
  have hlength : 0 < t.length := List.length_pos_iff.mpr hpos
  have hone : len ≠ 1 := by omega
  have htwo : ¬(len = 2 ∧ isCont (deref (t.drop 1))) := fun hlen => hend (by omega) hlen.2
  have hthree : ¬(len = 3 ∧ isCont (deref (t.drop 1)) ∧ isCont (deref (t.drop 2))) :=
    fun hlen => hend (by omega) hlen.2.2
  have hfour : ¬(len = 4 ∧ isCont (deref (t.drop 1)) ∧ isCont (deref (t.drop 2)) ∧
      isCont (deref (t.drop 3))) := fun hlen => hend (by omega) hlen.2.2.2
  rw [sequenceCodePoint]
  simp only [if_neg hone, if_neg htwo, if_neg hthree, if_neg hfour]

/-- A text that ends inside a sequence is refused. -/
theorem verifyUtf8Sequence_short (hpos : t ≠ [])
    (h : t.length < numBytesInUtf8Sequence (deref t)) : ¬(verifyUtf8Sequence t).isSome := by
  rw [verifyUtf8Sequence_isSome_iff, sequenceCodePoint_short h hpos]
  simp

end Sequences

/-- The first byte of a sequence, by its high bits. -/
theorem parseFirstByte_eq (b : UInt8) :
    (parseFirstByte b = .done → b &&& 0x80 = 0) ∧
    (parseFirstByte b = .oneMore → b &&& 0xe0 = 0xc0) ∧
    (parseFirstByte b = .twoMore → b &&& 0xf0 = 0xe0) ∧
    (parseFirstByte b = .threeMore → b &&& 0xf8 = 0xf0) ∧
    (parseFirstByte b = .invalid → numBytesInUtf8Sequence b = 0) := by
  have hother := (numBytesInUtf8Sequence_eq b).2.2.2.2
  simp only [parseFirstByte, beq_iff_eq]
  split_ifs with hone htwo hthree hfour
  · simp [hone]
  · simp [htwo]
  · simp [hthree]
  · simp [hfour]
  · simpa using hother hone htwo hthree hfour

/-- An overlong sequence of two bytes. -/
theorem verify₂_overlong {b : UInt8} (h : b = 0xc0 ∨ b = 0xc1) (x : UInt8) : ¬verify₂ b x := by
  revert x
  rcases h with rfl | rfl
  · apply forall_byte
    decide +kernel
  · apply forall_byte
    decide +kernel

/-- A sequence of four bytes beyond the last character. -/
theorem verify₄_beyond {b : UInt8} (hb : b &&& 0xf8 = 0xf0) (h : 0xf4 < b) (x y z : UInt8) :
    ¬verify₄ b x y z := by
  have hlow : 5 ≤ (lowBits 0x07 b).toNat :=
    forall_byte (p := fun b => b &&& 0xf8 = 0xf0 → 0xf4 < b → 5 ≤ (lowBits 0x07 b).toNat)
      (by decide +kernel) b hb h
  have hnat := assemble₄Unchecked_toNat b x y z
  rw [verify₄]
  split
  · simp
  · simp only [decide_eq_true_eq, UInt32.le_iff_toNat_le]
    change ¬(_ ∧ _ ≤ 0x10ffff)
    omega

/-- The check of a sequence agrees with that of the library of characters. -/
theorem verifyUtf8Sequence_isSome {s : List UInt8} (hs : s ≠ []) :
    (verifyUtf8Sequence s).isSome ↔ s.toByteArray.validateUTF8At 0 := by
  cases s with
  | nil => exact absurd rfl hs
  | cons b t =>
    rcases numBytesInUtf8Sequence_eq b with ⟨hone, htwo, hthree, hfour, hother⟩
    have hfirst : deref (b :: t) = b := rfl
    unfold ByteArray.validateUTF8At
    rw [dif_pos (by simp [List.size_toByteArray])]
    simp only [List.getElem_toByteArray, List.getElem_cons_zero, List.size_toByteArray]
    split
    all_goals
      rename_i hparse
      rw [List.getElem_toByteArray, List.getElem_cons_zero] at hparse
    · rw [verifyUtf8Sequence_none (t := b :: t) ((parseFirstByte_eq b).2.2.2.2 hparse)]
      simp
    · have hbits := (parseFirstByte_eq b).1 hparse
      exact iff_of_true (verifyUtf8Sequence_one (hone hbits) hbits) rfl
    · have hlen := htwo ((parseFirstByte_eq b).2.1 hparse)
      by_cases hover : b = 0xc0 ∨ b = 0xc1
      · rw [if_pos hover] at hlen
        rw [verifyUtf8Sequence_none (t := b :: t) hlen]
        cases t with
        | nil => simp
        | cons x t => simpa using verify₂_overlong hover x
      · rw [if_neg hover] at hlen
        have hshort (t : List UInt8) (ht : t.length < 1) := verifyUtf8Sequence_short
          (List.cons_ne_nil b t) (hlen.symm ▸ Nat.succ_lt_succ ht)
        cases t with
        | nil => simpa using hshort [] Nat.one_pos
        | cons x t => simpa using verifyUtf8Sequence_two hlen
    · have hlen := hthree ((parseFirstByte_eq b).2.2.1 hparse)
      have hshort (t : List UInt8) (ht : t.length < 2) := verifyUtf8Sequence_short
        (List.cons_ne_nil b t) (hlen.symm ▸ Nat.succ_lt_succ ht)
      rcases t with _ | ⟨x, _ | ⟨y, t⟩⟩
      · simpa using hshort [] Nat.two_pos
      · simpa using hshort [x] (Nat.lt_succ_self 1)
      · simpa using verifyUtf8Sequence_three hlen
    · have hbits := (parseFirstByte_eq b).2.2.2.1 hparse
      have hlen := hfour hbits
      by_cases hbig : 0xf4 < b
      · rw [if_pos hbig] at hlen
        rw [verifyUtf8Sequence_none (t := b :: t) hlen]
        rcases t with _ | ⟨x, _ | ⟨y, _ | ⟨z, t⟩⟩⟩
        · simp
        · simp
        · simp
        · simpa using verify₄_beyond hbits hbig x y z
      · rw [if_neg hbig] at hlen
        have hshort (t : List UInt8) (ht : t.length < 3) := verifyUtf8Sequence_short
          (List.cons_ne_nil b t) (hlen.symm ▸ Nat.succ_lt_succ ht)
        rcases t with _ | ⟨x, _ | ⟨y, _ | ⟨z, t⟩⟩⟩
        · simpa using hshort [] (Nat.succ_pos 2)
        · simpa using hshort [x] (Nat.succ_lt_succ Nat.two_pos)
        · simpa using hshort [x, y] (Nat.lt_succ_self 2)
        · simpa using verifyUtf8Sequence_four hlen

/-! ## Whole strings -/

/-- The length that is found for the encoding of a character is its length. -/
theorem numBytesInUtf8Sequence_encode (c : Char) (rest : List UInt8) :
    numBytesInUtf8Sequence (deref (String.utf8EncodeChar c ++ rest)) = 0 ∨
      numBytesInUtf8Sequence (deref (String.utf8EncodeChar c ++ rest)) = c.utf8Size := by
  have htwo : ∀ b : UInt8, numBytesInUtf8Sequence (b &&& 0x1f ||| 0xc0) = 0 ∨
      numBytesInUtf8Sequence (b &&& 0x1f ||| 0xc0) = 2 := by
    apply forall_byte
    decide +kernel
  have hthree : ∀ b : UInt8, numBytesInUtf8Sequence (b &&& 0x0f ||| 0xe0) = 3 := by
    apply forall_byte
    decide +kernel
  have hfour : ∀ b : UInt8, numBytesInUtf8Sequence (b &&& 0x07 ||| 0xf0) = 0 ∨
      numBytesInUtf8Sequence (b &&& 0x07 ||| 0xf0) = 4 := by
    apply forall_byte
    decide +kernel
  rcases Char.utf8Size_eq c with h | h | h | h
  · have hone : ∀ b : UInt8, b.toNat < 0x80 → numBytesInUtf8Sequence b = 1 := by
      apply forall_byte
      decide +kernel
    have hlow : c.val.toNat ≤ 0x7f := UInt32.le_iff_toNat_le.mp (Char.utf8Size_eq_one_iff.mp h)
    rw [String.utf8EncodeChar_eq_singleton h, h]
    refine Or.inr (hone c.val.toUInt8 ?_)
    rw [UInt32.toNat_toUInt8]
    omega
  · rw [String.utf8EncodeChar_eq_cons_cons h, h]
    exact htwo _
  · rw [String.utf8EncodeChar_eq_cons_cons_cons h, h]
    exact Or.inr (hthree _)
  · rw [String.utf8EncodeChar_eq_cons_cons_cons_cons h, h]
    exact hfour _

/-- The length that is answered is that of the first byte. -/
theorem length_of_verifyUtf8Sequence {s : List UInt8} {len : Nat}
    (h : verifyUtf8Sequence s = some len) : len = numBytesInUtf8Sequence (deref s) := by
  rw [verifyUtf8Sequence] at h
  split at h
  · cases h
  · split_ifs at h
    exact (Option.some.inj h).symm

/-- A sequence is verified exactly when it is the encoding of a character. -/
theorem verifyUtf8Sequence_eq_some_iff {s : List UInt8} (hs : s ≠ []) {len : Nat} :
    verifyUtf8Sequence s = some len ↔
      ∃ c rest, s = String.utf8EncodeChar c ++ rest ∧ len = c.utf8Size := by
  have hlength {c : Char} {rest : List UInt8} {len : Nat} (hc : s = String.utf8EncodeChar c ++ rest)
      (h : verifyUtf8Sequence s = some len) : len = c.utf8Size := by
    have hpos := verifyUtf8Sequence_pos h
    rw [length_of_verifyUtf8Sequence h, hc] at hpos ⊢
    exact (numBytesInUtf8Sequence_encode c rest).resolve_left hpos.ne'
  have hdecoded := verifyUtf8Sequence_isSome hs
  rw [ByteArray.validateUTF8At_eq_isSome_utf8DecodeChar?] at hdecoded
  constructor
  · intro h
    rcases Option.isSome_iff_exists.mp (hdecoded.mp (by rw [h]; rfl)) with ⟨c, hc⟩
    have hdata := congrArg (fun b => b.data.toList) (ByteArray.eq_of_utf8DecodeChar?_eq_some hc)
    simp only [ByteArray.data_append, Array.toList_append, List.data_toByteArray] at hdata
    exact ⟨c, _, hdata, hlength hdata h⟩
  · rintro ⟨c, rest, hc, rfl⟩
    have hchar : s.toByteArray.utf8DecodeChar? 0 = some c := by
      rw [hc, List.toByteArray_append]
      exact ByteArray.utf8DecodeChar?_utf8EncodeChar_append
    rcases Option.isSome_iff_exists.mp (hdecoded.mpr (by rw [hchar]; rfl)) with ⟨len, h⟩
    rw [h, hlength hc h]

/-- A whole string is valid exactly when it is the encoding of some characters. -/
theorem isValidUtf8_iff (s : List UInt8) :
    isValidUtf8 s s.length ↔ ∃ chars : List Char, s = chars.flatMap String.utf8EncodeChar := by
  rw [isValidUtf8]
  induction hn : s.length using Nat.strong_induction_on generalizing s with
  | _ n ih =>
    rw [validLoop]
    by_cases hleft : n = 0
    · rw [dif_pos hleft]
      refine iff_of_true rfl ⟨[], ?_⟩
      rw [List.flatMap_nil]
      exact List.length_eq_zero_iff.mp (hn.trans hleft)
    · have hs : s ≠ [] := by
        rintro rfl
        exact hleft hn.symm
      rw [dif_neg hleft]
      have hcut (c : Char) (rest : List UInt8) (hc : s = String.utf8EncodeChar c ++ rest) :
          s.drop c.utf8Size = rest ∧ rest.length = n - c.utf8Size ∧ n - c.utf8Size < n := by
        have hsize := String.length_utf8EncodeChar c
        have hpos := Char.utf8Size_pos c
        have hlen : n = c.utf8Size + rest.length := by
          rw [← hn, hc, List.length_append, hsize]
        refine ⟨?_, by omega, by omega⟩
        rw [hc, ← hsize, List.drop_left]
      split
      · rename_i hnone
        refine iff_of_false (by simp) ?_
        rintro ⟨_ | ⟨c, chars⟩, hchars⟩
        · exact hs hchars
        · rw [List.flatMap_cons] at hchars
          rw [(verifyUtf8Sequence_eq_some_iff hs).mpr ⟨c, _, hchars, rfl⟩] at hnone
          cases hnone
      · rename_i len hsome
        rcases (verifyUtf8Sequence_eq_some_iff hs).mp hsome with ⟨c, rest, hc, rfl⟩
        rcases hcut c rest hc with ⟨hdrop, hrest, hlt⟩
        rw [hdrop, ih _ hlt rest hrest]
        constructor
        · rintro ⟨chars, rfl⟩
          exact ⟨c :: chars, by rw [hc, List.flatMap_cons]⟩
        · rintro ⟨_ | ⟨d, chars⟩, hchars⟩
          · exact absurd hchars hs
          · rw [List.flatMap_cons] at hchars
            -- both characters have the length that was found, so the rests are the same
            have hsize := (verifyUtf8Sequence_eq_some_iff hs).mpr ⟨d, _, hchars, rfl⟩
            rw [hsome] at hsize
            refine ⟨chars, ?_⟩
            rw [← hdrop, Option.some.inj hsize]
            exact (hcut d _ hchars).1

/-- No character is encoded with this byte. -/
theorem ff_notMem_utf8EncodeChar (c : Char) : 0xff ∉ String.utf8EncodeChar c := by
  have hfirst₂ : ∀ b : UInt8, b &&& 0x1f ||| 0xc0 ≠ 0xff := forall_byte (by decide +kernel)
  have hfirst₃ : ∀ b : UInt8, b &&& 0x0f ||| 0xe0 ≠ 0xff := forall_byte (by decide +kernel)
  have hfirst₄ : ∀ b : UInt8, b &&& 0x07 ||| 0xf0 ≠ 0xff := forall_byte (by decide +kernel)
  have hcont : ∀ b : UInt8, b &&& 0x3f ||| 0x80 ≠ 0xff := forall_byte (by decide +kernel)
  intro h
  rcases Char.utf8Size_eq c with hsize | hsize | hsize | hsize
  · have hlow : c.val.toNat ≤ 0x7f := UInt32.le_iff_toNat_le.mp (Char.utf8Size_eq_one_iff.mp hsize)
    rw [String.utf8EncodeChar_eq_singleton hsize, List.mem_singleton] at h
    have hval := congrArg UInt8.toNat h
    rw [UInt32.toNat_toUInt8, Nat.mod_eq_of_lt (by omega)] at hval
    have hff : (0xff : UInt8).toNat = 255 := rfl
    omega
  · rw [String.utf8EncodeChar_eq_cons_cons hsize] at h
    simp only [List.mem_cons, List.not_mem_nil, or_false] at h
    rcases h with h | h
    · exact hfirst₂ _ h.symm
    · exact hcont _ h.symm
  · rw [String.utf8EncodeChar_eq_cons_cons_cons hsize] at h
    simp only [List.mem_cons, List.not_mem_nil, or_false] at h
    rcases h with h | h | h
    · exact hfirst₃ _ h.symm
    · exact hcont _ h.symm
    · exact hcont _ h.symm
  · rw [String.utf8EncodeChar_eq_cons_cons_cons_cons hsize] at h
    simp only [List.mem_cons, List.not_mem_nil, or_false] at h
    rcases h with h | h | h | h
    · exact hfirst₄ _ h.symm
    · exact hcont _ h.symm
    · exact hcont _ h.symm
    · exact hcont _ h.symm

/-- A string value is made exactly of texts that are UTF-8 and not too long. -/
theorem jsonValueInitString_eq_some_iff {ν : Type} (string : NulString) (v : JsonTree ν) :
    jsonValueInitString string = some v ↔
      v = .str string.chars ∧ string.chars.length ≤ stringValueMax ∧
        ∃ chars : List Char, string.chars = chars.flatMap String.utf8EncodeChar := by
  rw [jsonValueInitString, NulString.strnlenS_some]
  by_cases hlong : stringValueMax < string.chars.length
  · rw [if_pos (by omega)]
    refine iff_of_false (by simp) ?_
    rintro ⟨-, hle, -⟩
    omega
  · rw [if_neg (by omega), min_eq_left (by omega), List.take_length, ← isValidUtf8_iff]
    constructor
    · intro h
      split at h
      · rename_i hvalid
        exact ⟨(Option.some.inj h).symm, Nat.not_lt.mp hlong, hvalid⟩
      · cases h
    · rintro ⟨rfl, -, hvalid⟩
      rw [if_pos hvalid]

end LibAmvp.Parson
