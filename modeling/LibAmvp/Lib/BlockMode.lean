import LibAmvp.Lib.Bits

/-!
# Modes of block ciphers

The modes of operation as machines: an operation takes one segment of text and the register of
the mode to a segment and the next register.  A segment is a block, a byte, or a bit, which is
the first bit of a byte with no other bits.

Main results:

- Theorem {lit}`BlockCipher.length_operate`: an operation yields a segment.
- Theorem {lit}`BlockCipher.mask_operate`: where segments are bits, it yields a bit.
-/

open Bits

/-- A block cipher, as its two functions for every key. -/
structure BlockCipher where
  size : Nat
  encrypt : List UInt8 → List UInt8 → List UInt8
  decrypt : List UInt8 → List UInt8 → List UInt8
  length_encrypt : ∀ key block, (encrypt key block).length = size
  length_decrypt : ∀ key block, (decrypt key block).length = size

/-- The modes of operation; {lit}`cfb` has segments that are blocks. -/
inductive BlockMode where
  | ecb | cbc | ofb | cfb | cfb8 | cfb1
deriving DecidableEq

/-- The exclusive or of bytes. -/
def xorBlocks (a b : List UInt8) : List UInt8 := List.zipWith (· ^^^ ·) a b

theorem length_xorBlocks {a b : List UInt8} (h : a.length = b.length) :
    (xorBlocks a b).length = a.length := by
  simp [xorBlocks, h]

namespace BlockMode

variable (mode : BlockMode) (size : Nat)

/-- The bytes that hold a segment. -/
def segmentBytes : Nat :=
  match mode with
  | cfb8 | cfb1 => 1
  | _ => size

/-- The bits of a segment. -/
def segmentBits : Nat :=
  match mode with
  | cfb1 => 1
  | cfb8 => 8
  | _ => 8 * size

/-- The segment that bytes hold: in the mode on bits only the first bit counts. -/
def mask (data : List UInt8) : List UInt8 :=
  match mode with
  | cfb1 => [bitByte (topBit data)]
  | _ => data

/-- The bits of a list of segments. -/
def stream (segments : List (List UInt8)) : List Bool :=
  segments.flatMap fun segment => (bitsOf segment).take (mode.segmentBits size)

@[simp]
theorem mask_mask (data : List UInt8) : mode.mask (mode.mask data) = mode.mask data := by
  cases mode with
  | cfb1 => simp [mask]
  | _ => rfl

theorem stream_append (segments segments' : List (List UInt8)) :
    mode.stream size (segments ++ segments') =
      mode.stream size segments ++ mode.stream size segments' :=
  List.flatMap_append

theorem segmentBits_le : mode.segmentBits size ≤ 8 * mode.segmentBytes size := by
  cases mode <;> simp [segmentBits, segmentBytes]

theorem length_stream {segments : List (List UInt8)}
    (hlen : ∀ segment ∈ segments, segment.length = mode.segmentBytes size) :
    (mode.stream size segments).length = segments.length * mode.segmentBits size := by
  induction segments with
  | nil => simp [stream]
  | cons segment rest ih =>
      rw [List.forall_mem_cons] at hlen
      have hone : ((bitsOf segment).take (mode.segmentBits size)).length =
          mode.segmentBits size := by
        rw [List.length_take, length_bitsOf, hlen.1]
        exact Nat.min_eq_left (mode.segmentBits_le size)
      rw [stream, List.flatMap_cons, List.length_append, hone, ← stream, ih hlen.2,
        List.length_cons, Nat.succ_mul, Nat.add_comm]

/-- In the modes on blocks and bytes, the stream is that of all bytes. -/
theorem stream_eq_bitsOf (hmode : mode ≠ cfb1) {segments : List (List UInt8)}
    (hlen : ∀ segment ∈ segments, segment.length = mode.segmentBytes size) :
    mode.stream size segments = bitsOf segments.flatten := by
  induction segments with
  | nil => rfl
  | cons segment rest ih =>
      rw [List.forall_mem_cons] at hlen
      have htake : (bitsOf segment).take (mode.segmentBits size) = bitsOf segment := by
        refine List.take_of_length_le ?_
        rw [length_bitsOf, hlen.1]
        cases mode <;> simp [segmentBits, segmentBytes] at hmode ⊢
      rw [List.flatten_cons, bitsOf_append, ← ih hlen.2, ← htake]
      simp [stream]

end BlockMode

namespace BlockCipher

variable (C : BlockCipher)

/-- Move a register on by a segment. -/
def shiftReg (mode : BlockMode) (reg segment : List UInt8) : List UInt8 :=
  match mode with
  | .cfb1 => packBits ((bitsOf reg).drop 1 ++ [topBit segment])
  | .cfb8 => reg.drop 1 ++ segment
  | _ => segment

/-- An operation of a mode with a key: the segment it yields, and the next register. -/
def operate (mode : BlockMode) (encrypts : Bool) (key reg segment : List UInt8) :
    List UInt8 × List UInt8 :=
  match mode with
  | .ecb => (if encrypts then C.encrypt key segment else C.decrypt key segment, reg)
  | .cbc =>
    if encrypts then
      let out := C.encrypt key (xorBlocks segment reg)
      (out, out)
    else (xorBlocks (C.decrypt key segment) reg, segment)
  | .ofb =>
    let pad := C.encrypt key reg
    (xorBlocks segment pad, pad)
  | .cfb | .cfb8 | .cfb1 =>
    let pad := C.encrypt key reg
    let out := mode.mask (xorBlocks segment (pad.take (mode.segmentBytes C.size)))
    (out, shiftReg mode reg (if encrypts then out else segment))

variable {C} {mode : BlockMode} {encrypts : Bool} {key reg segment : List UInt8}

theorem length_shiftReg (hpos : 0 < C.size) (hreg : reg.length = C.size)
    (hsegment : segment.length = mode.segmentBytes C.size) :
    (shiftReg mode reg segment).length = C.size := by
  cases mode with
  | cfb1 => simp [shiftReg, hreg]; omega
  | cfb8 => simp [shiftReg, hreg, hsegment, BlockMode.segmentBytes]; omega
  | _ => exact hsegment

theorem length_mask (h : segment.length = mode.segmentBytes C.size) :
    (mode.mask segment).length = mode.segmentBytes C.size := by
  cases mode with
  | cfb1 => rfl
  | _ => exact h

/-- An operation yields a segment, and a register of the length of a block. -/
theorem length_operate (hpos : 0 < C.size) (hreg : reg.length = C.size)
    (hsegment : segment.length = mode.segmentBytes C.size) :
    (C.operate mode encrypts key reg segment).1.length = mode.segmentBytes C.size ∧
      (C.operate mode encrypts key reg segment).2.length = C.size := by
  have hstream : ∀ mode : BlockMode, segment.length = mode.segmentBytes C.size →
      (mode.mask (xorBlocks segment ((C.encrypt key reg).take (mode.segmentBytes C.size)))).length =
        mode.segmentBytes C.size := by
    intro mode hsegment
    refine length_mask ?_
    rw [length_xorBlocks, hsegment]
    rw [hsegment, List.length_take, C.length_encrypt, Nat.min_eq_left]
    cases mode <;> simp only [BlockMode.segmentBytes] <;> omega
  have hfeedback : ∀ mode : BlockMode, segment.length = mode.segmentBytes C.size →
      (shiftReg mode reg (if encrypts then
        mode.mask (xorBlocks segment ((C.encrypt key reg).take (mode.segmentBytes C.size)))
        else segment)).length = C.size := by
    intro mode hsegment
    refine length_shiftReg hpos hreg ?_
    split
    · exact hstream mode hsegment
    · exact hsegment
  cases mode with
  | ecb =>
      refine ⟨?_, hreg⟩
      cases encrypts
      · exact C.length_decrypt key segment
      · exact C.length_encrypt key segment
  | cbc =>
      cases encrypts
      · refine ⟨?_, hsegment⟩
        exact (length_xorBlocks ((C.length_decrypt key segment).trans hreg.symm)).trans
          (C.length_decrypt key segment)
      · exact ⟨C.length_encrypt key _, C.length_encrypt key _⟩
  | ofb =>
      refine ⟨?_, C.length_encrypt key reg⟩
      exact (length_xorBlocks (hsegment.trans (C.length_encrypt key reg).symm)).trans hsegment
  | cfb => exact ⟨hstream .cfb hsegment, hfeedback .cfb hsegment⟩
  | cfb8 => exact ⟨hstream .cfb8 hsegment, hfeedback .cfb8 hsegment⟩
  | cfb1 => exact ⟨hstream .cfb1 hsegment, hfeedback .cfb1 hsegment⟩

/-- Where segments are bits, an operation yields a bit. -/
theorem mask_operate :
    mode.mask (C.operate mode encrypts key reg segment).1 =
      (C.operate mode encrypts key reg segment).1 := by
  cases mode with
  | cfb1 => exact BlockMode.mask_mask .cfb1 _
  | _ => rfl

end BlockCipher
