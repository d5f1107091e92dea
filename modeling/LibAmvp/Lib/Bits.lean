import Mathlib.Tactic

/-!
# Bits of bytes

The bits of a list of bytes, the most significant bit of each byte first, and the bytes that are
packed from a list of bits.

Main results:

- Theorem {lit}`Bits.packBits_bitsOf`: packing the bits of bytes gives the bytes.
- Theorem {lit}`Bits.rightmost_bitsOf`: the last bits of bytes are the bits of the last bytes.
-/

namespace Bits

/-- The bits of a byte. -/
def byteBits (byte : UInt8) : List Bool := (List.range 8).map fun i => byte.toNat.testBit (7 - i)

/-- The byte with these bits. -/
def byteOf (bits : List Bool) : UInt8 := UInt8.ofNat (bits.foldl (fun n b => 2 * n + b.toNat) 0)

/-- The bits of bytes. -/
def bitsOf (data : List UInt8) : List Bool := data.flatMap byteBits

/-- The bytes of bits; bits that fill no byte are left out. -/
def packBits (bits : List Bool) : List UInt8 :=
  (List.range (bits.length / 8)).map fun k => byteOf ((bits.drop (8 * k)).take 8)

/-- The last elements of a list. -/
def rightmost {α : Type} (n : Nat) (l : List α) : List α := l.drop (l.length - n)

/-- The first bit of bytes. -/
def topBit (data : List UInt8) : Bool := (bitsOf data).headD false

/-- The byte whose first bit is set or not, and no other one. -/
def bitByte (bit : Bool) : UInt8 := if bit then 0x80 else 0

/-! ## Lists of bits -/

/-- A byte has eight bits. -/
@[simp]
theorem length_byteBits (byte : UInt8) : (byteBits byte).length = 8 := by
  simp [byteBits]

/-- No bytes have no bits. -/
@[simp]
theorem bitsOf_nil : bitsOf [] = [] :=
  rfl

/-- The bits of the first byte stand before the others. -/
@[simp]
theorem bitsOf_cons (byte : UInt8) (data : List UInt8) :
    bitsOf (byte :: data) = byteBits byte ++ bitsOf data :=
  List.flatMap_cons

/-- The bits of two parts, one after the other. -/
@[simp]
theorem bitsOf_append (data data' : List UInt8) :
    bitsOf (data ++ data') = bitsOf data ++ bitsOf data' :=
  List.flatMap_append

/-- Each byte has eight bits. -/
@[simp]
theorem length_bitsOf (data : List UInt8) : (bitsOf data).length = 8 * data.length := by
  induction data with
  | nil => rfl
  | cons byte data ih => rw [bitsOf_cons, List.length_append, ih, length_byteBits,
      List.length_cons, Nat.mul_succ, Nat.add_comm]

/-- A byte is put together from its bits. -/
theorem byteOf_byteBits (byte : UInt8) : byteOf (byteBits byte) = byte := by
  have hall : ∀ n : Fin 256, byteOf (byteBits (UInt8.ofNat n)) = UInt8.ofNat n := by decide +kernel
  simpa using hall ⟨byte.toNat, byte.toNat_lt⟩

/-- Eight bits make one byte. -/
@[simp]
theorem length_packBits (bits : List Bool) : (packBits bits).length = bits.length / 8 := by
  simp [packBits]

/-- The bits of a byte in front are packed into it. -/
theorem packBits_byteBits_append (byte : UInt8) (bits : List Bool) :
    packBits (byteBits byte ++ bits) = byte :: packBits bits := by
  have hlen : (byteBits byte ++ bits).length / 8 = bits.length / 8 + 1 := by simp
  have hrest : ∀ k, (byteBits byte ++ bits).drop (8 * (k + 1)) = bits.drop (8 * k) := fun k => by
    rw [Nat.mul_succ, Nat.add_comm, ← List.drop_drop, List.drop_left' (length_byteBits byte)]
  rw [packBits, hlen, List.range_succ_eq_map, List.map_cons, List.map_map, Nat.mul_zero,
    List.drop_zero, List.take_left' (length_byteBits byte), byteOf_byteBits]
  simp only [Function.comp_def, Nat.succ_eq_add_one, hrest]
  rfl

/-- Packing the bits of bytes gives the bytes. -/
@[simp]
theorem packBits_bitsOf (data : List UInt8) : packBits (bitsOf data) = data := by
  induction data with
  | nil => rfl
  | cons byte data ih => rw [bitsOf_cons, packBits_byteBits_append, ih]

/-- Dropping bits of whole bytes drops the bytes. -/
theorem drop_bitsOf (n : Nat) (data : List UInt8) :
    (bitsOf data).drop (8 * n) = bitsOf (data.drop n) := by
  induction n generalizing data with
  | zero => rfl
  | succ n ih =>
      cases data with
      | nil => simp
      | cons byte data =>
          rw [bitsOf_cons, List.drop_succ_cons, ← ih, Nat.mul_succ, Nat.add_comm, ← List.drop_drop,
            List.drop_left' (length_byteBits byte)]

/-- The last bits of bytes are the bits of the last bytes. -/
theorem rightmost_bitsOf (n : Nat) (data : List UInt8) :
    rightmost (8 * n) (bitsOf data) = bitsOf (rightmost n data) := by
  calc
    rightmost (8 * n) (bitsOf data) = (bitsOf data).drop (8 * data.length - 8 * n) := by
      rw [rightmost, length_bitsOf]
    _ = (bitsOf data).drop (8 * (data.length - n)) := by rw [Nat.mul_sub]
    _ = bitsOf (rightmost n data) := drop_bitsOf _ _

/-- The rightmost part has its length. -/
@[simp]
theorem length_rightmost {α : Type} {n : Nat} {l : List α} (h : n ≤ l.length) :
    (rightmost n l).length = n := by
  rw [rightmost, List.length_drop]
  omega

/-- What lies far enough before does not change the last elements. -/
theorem rightmost_append {α : Type} {n : Nat} (l l' : List α) (h : n ≤ l'.length) :
    rightmost n (l ++ l') = rightmost n l' := by
  have hsplit : (l ++ l').length - n = l.length + (l'.length - n) := by
    rw [List.length_append]
    omega
  calc
    rightmost n (l ++ l') = (l ++ l').drop (l.length + (l'.length - n)) := by
      rw [rightmost, hsplit]
    _ = l'.drop (l'.length - n) := List.drop_length_add_append _

/-- Taking the last elements of a longer end changes nothing. -/
theorem rightmost_rightmost_append {α : Type} {n : Nat} (l l' : List α) :
    rightmost n (rightmost n l ++ l') = rightmost n (l ++ l') := by
  have hsplit : l = l.take (l.length - n) ++ rightmost n l := (List.take_append_drop _ _).symm
  by_cases hn : n ≤ l.length
  · conv_rhs => rw [hsplit, List.append_assoc]
    refine (rightmost_append _ (rightmost n l ++ l') ?_).symm
    rw [List.length_append, length_rightmost hn]
    omega
  · have hall : rightmost n l = l := by
      rw [rightmost, Nat.sub_eq_zero_of_le (by omega), List.drop_zero]
    rw [hall]

/-- A bit in a byte of its own stands first. -/
theorem bitsOf_bitByte (bit : Bool) : bitsOf [bitByte bit] = bit :: List.replicate 7 false := by
  cases bit <;> rfl

/-- It is the top bit. -/
@[simp]
theorem topBit_bitByte (bit : Bool) : topBit [bitByte bit] = bit := by
  rw [topBit, bitsOf_bitByte]
  rfl

/-- The top bit is that of the first byte. -/
theorem topBit_cons (byte : UInt8) (data : List UInt8) :
    topBit (byte :: data) = byte.toNat.testBit 7 := by
  rw [topBit, bitsOf_cons]
  rfl

/-- Masking a byte keeps its top bit. -/
theorem and_top_eq (byte : UInt8) : byte &&& 0x80 = bitByte (byte.toNat.testBit 7) := by
  have hall : ∀ n : Fin 256,
      UInt8.ofNat n &&& 0x80 = bitByte ((UInt8.ofNat n).toNat.testBit 7) := by decide +kernel
  simpa using hall ⟨byte.toNat, byte.toNat_lt⟩

end Bits
