import LibAmvp.Lib.Bits

/-!
# Memory

Bytes at addresses: buffers that a program allocates with zeros and writes to, and tables of
rows that lie one after the other.
-/

/-- The bytes of a buffer or of a table. -/
abbrev Memory := Nat → UInt8

namespace Memory

open Bits

/-- A buffer of zeros. -/
def zero : Memory := fun _ => 0

/-- Bytes at the front of a buffer of zeros. -/
def ofBytes (data : List UInt8) : Memory := fun n => data.getD n 0

/-- The first bytes of a buffer. -/
def read (m : Memory) (n : Nat) : List UInt8 := (List.range n).map m

/-- Bytes of a buffer from a place on. -/
def slice (m : Memory) (at_ n : Nat) : List UInt8 := (List.range n).map fun k => m (at_ + k)

/-- Copy bytes when they fit; otherwise nothing is copied. -/
def copy (dest : Memory) (at_ destMax : Nat) (src : Memory) (from_ n : Nat) : Memory :=
  if n > destMax then dest
  else fun k => if at_ ≤ k ∧ k < at_ + n then src (from_ + (k - at_)) else dest k

/-- Set the first bytes of a buffer to zero. -/
def clear (m : Memory) (n : Nat) : Memory := fun k => if k < n then 0 else m k

/-- A bit of a buffer, counted from the most significant bit of its first byte. -/
def getBit (m : Memory) (at_ b : Nat) : Bool := (m (at_ + b / 8)).toNat.testBit (7 - b % 8)

/-- Set a bit of a byte. -/
def setBitOf (byte : UInt8) (i : Nat) (v : Bool) : UInt8 :=
  let mask := (1 : UInt8) <<< UInt8.ofNat i
  if v then byte ||| mask else byte &&& ~~~mask

/-- Set a bit of a buffer. -/
def setBit (m : Memory) (at_ b : Nat) (v : Bool) : Memory :=
  Function.update m (at_ + b / 8) (setBitOf (m (at_ + b / 8)) (7 - b % 8) v)

/-- As many bytes are read as were asked for. -/
@[simp]
theorem read_length (m : Memory) (n : Nat) : (m.read n).length = n := by
  simp [read]

/-- Each of them is the byte at its place. -/
theorem read_getElem? (m : Memory) {n i : Nat} (h : i < n) : (m.read n)[i]? = some (m i) := by
  simp [read, h]

/-- Memories that agree in front are read alike. -/
theorem read_eq_of_lt {m m' : Memory} {n : Nat} (h : ∀ k < n, m k = m' k) : m.read n = m'.read n :=
  List.map_congr_left fun k hk => h k (List.mem_range.mp hk)

/-- Bytes that were put to the front. -/
theorem read_ofBytes {data : List UInt8} {n : Nat} (h : data.length = n) :
    (ofBytes data).read n = data := by
  refine List.ext_getElem (by rw [read_length, h]) fun k _ hk => ?_
  simp [read, ofBytes, hk]

/-- The front of what was read is read with fewer bytes. -/
theorem take_read (m : Memory) {n k : Nat} (h : k ≤ n) : (m.read n).take k = m.read k := by
  rw [read, ← List.map_take, List.take_range, Nat.min_eq_left h]
  rfl

/-- Bytes that were copied to the front of a buffer. -/
theorem read_copy (dest src : Memory) {destMax n : Nat} (h : n ≤ destMax) :
    (dest.copy 0 destMax src 0 n).read n = src.read n := by
  refine read_eq_of_lt fun k hk => ?_
  rw [copy, if_neg (by omega)]
  simp [hk]

/-- The same with a default. -/
theorem read_getD (m : Memory) {n i : Nat} (h : i < n) (d : UInt8) : (m.read n).getD i d = m i := by
  rw [List.getD_eq_getElem?_getD, read_getElem? m h, Option.getD_some]

/-- Reading further appends what follows. -/
theorem read_add (m : Memory) (n k : Nat) :
    m.read (n + k) = m.read n ++ (List.range k).map fun i => m (n + i) := by
  simp [read, List.range_add, List.map_map, Function.comp_def]

/-- Bytes that were copied to the front of a cleared buffer have zeros behind them. -/
theorem read_copy_clear (m src : Memory) {destMax n k : Nat} (h : n + k ≤ destMax) :
    ((m.clear destMax).copy 0 destMax src 0 n).read (n + k) = src.read n ++ List.replicate k 0 := by
  rw [read_add, read_copy _ src (by omega)]
  congr 1
  refine List.eq_replicate_iff.mpr ⟨by simp, fun byte hbyte => ?_⟩
  obtain ⟨i, hi, rfl⟩ := List.mem_map.mp hbyte
  have hi := List.mem_range.mp hi
  rw [copy, if_neg (by omega), if_neg (by omega), clear, if_pos (by omega)]

/-- Copying nothing changes nothing. -/
@[simp]
theorem copy_nothing (dest src : Memory) (at_ destMax from_ : Nat) :
    copy dest at_ destMax src from_ 0 = dest := by
  funext k
  unfold copy
  rw [if_neg (Nat.not_lt_zero destMax)]
  exact if_neg (by omega)

/-! ## Slices -/

/-- A slice has the length that was asked for. -/
@[simp]
theorem length_slice (m : Memory) (at_ n : Nat) : (m.slice at_ n).length = n := by
  simp [slice]

/-- A slice at the front is what is read. -/
theorem slice_zero (m : Memory) (n : Nat) : m.slice 0 n = m.read n := by
  simp [slice, read]

/-- Memories that agree at two places have the same slices there. -/
theorem slice_congr {m m' : Memory} {at_ at' n : Nat}
    (h : ∀ k < n, m (at_ + k) = m' (at' + k)) : m.slice at_ n = m'.slice at' n :=
  List.map_congr_left fun k hk => h k (List.mem_range.mp hk)

/-- A copy that fits changes its own places and no other. -/
theorem copy_apply {destMax n : Nat} (h : n ≤ destMax) (dest src : Memory) (at_ from_ k : Nat) :
    dest.copy at_ destMax src from_ n k =
      if at_ ≤ k ∧ k < at_ + n then src (from_ + (k - at_)) else dest k := by
  rw [copy, if_neg (by omega)]

/-- Bytes that were copied. -/
theorem slice_copy {destMax n : Nat} (h : n ≤ destMax) (dest src : Memory) (at_ from_ : Nat) :
    (dest.copy at_ destMax src from_ n).slice at_ n = src.slice from_ n := by
  refine slice_congr fun k hk => ?_
  rw [copy_apply h, if_pos (by omega), Nat.add_sub_cancel_left]

/-- The first bytes of those that were copied to the front. -/
theorem read_copy_of_le {destMax n k : Nat} (h : n ≤ destMax) (hk : k ≤ n) (dest src : Memory)
    (from_ : Nat) : (dest.copy 0 destMax src from_ n).read k = src.slice from_ k := by
  rw [← slice_zero]
  refine slice_congr fun b hb => ?_
  rw [copy_apply h, if_pos (by omega), Nat.sub_zero, Nat.zero_add]

/-- Bytes that lie beside those that were copied. -/
theorem slice_copy_of_disjoint (dest src : Memory) {destMax n from_ at_ at' n' : Nat}
    (h : at' + n' ≤ at_ ∨ at_ + n ≤ at') :
    (dest.copy at_ destMax src from_ n).slice at' n' = dest.slice at' n' := by
  refine slice_congr fun k hk => ?_
  unfold copy
  split
  · rfl
  · exact if_neg (by omega)

/-- The bits of a slice are those of the memory. -/
theorem bitsOf_slice (m : Memory) (at_ n : Nat) :
    bitsOf (m.slice at_ n) = (List.range (8 * n)).map (m.getBit at_) := by
  induction n with
  | zero => rfl
  | succ n ih =>
      have hbyte : byteBits (m (at_ + n)) = (List.range 8).map fun i => m.getBit at_ (8 * n + i) := by
        refine List.map_congr_left fun i hi => ?_
        have hi := List.mem_range.mp hi
        rw [getBit, show (8 * n + i) / 8 = n by omega, show (8 * n + i) % 8 = i by omega]
      rw [slice, List.range_succ, List.map_append, bitsOf_append, ← slice, ih, Nat.mul_succ,
        List.range_add, List.map_append, List.map_map]
      simp [hbyte, Function.comp_def]

/-- The top bit of a slice is the first bit there. -/
theorem topBit_slice (m : Memory) (at_ : Nat) : topBit (m.slice at_ 1) = m.getBit at_ 0 :=
  topBit_cons (m at_) []

/-! ## Bits -/

/-- Setting a bit of a byte leaves the other bits. -/
theorem testBit_setBitOf (byte : UInt8) {i j : Nat} (hi : i < 8) (hj : j < 8) (v : Bool) :
    (setBitOf byte i v).toNat.testBit j = if j = i then v else byte.toNat.testBit j := by
  have hmask : ∀ i j : Fin 8,
      ((1 : UInt8) <<< UInt8.ofNat i).toNat.testBit j = decide (j = i) := by decide
  have hnot : ∀ i j : Fin 8,
      (~~~((1 : UInt8) <<< UInt8.ofNat i)).toNat.testBit j = !decide (j = i) := by decide
  have hmask := hmask ⟨i, hi⟩ ⟨j, hj⟩
  have hnot := hnot ⟨i, hi⟩ ⟨j, hj⟩
  simp only [Fin.mk.injEq] at hmask hnot
  cases v with
  | true =>
      rw [setBitOf, if_pos rfl, UInt8.toNat_or, Nat.testBit_or, hmask]
      by_cases h : j = i <;> simp [h]
  | false =>
      rw [setBitOf, if_neg (by decide), UInt8.toNat_and, Nat.testBit_and, hnot]
      by_cases h : j = i <;> simp [h]

/-- Setting a bit changes that bit and no other. -/
theorem getBit_setBit (m : Memory) (at_ b b' : Nat) (v : Bool) :
    (m.setBit at_ b v).getBit at_ b' = if b' = b then v else m.getBit at_ b' := by
  unfold getBit setBit
  by_cases hbyte : b' / 8 = b / 8
  · rw [hbyte, Function.update_self, testBit_setBitOf _ (by omega) (by omega)]
    by_cases hb : b' = b
    · simp [hb]
    · rw [if_neg (by omega), if_neg hb]
  · rw [Function.update_of_ne (by omega), if_neg (by rintro rfl; exact hbyte rfl)]

/-- Bits that were set one after the other. -/
theorem getBit_setBits (bit : Nat → Bool) (at_ n : Nat) (m : Memory) (b : Nat) :
    ((List.range n).foldl (fun m k => m.setBit at_ k (bit k)) m).getBit at_ b =
      if b < n then bit b else m.getBit at_ b := by
  induction n with
  | zero => rfl
  | succ n ih =>
      rw [List.range_succ, List.foldl_append]
      simp only [List.foldl_cons, List.foldl_nil, getBit_setBit, ih]
      by_cases hb : b = n
      · simp [hb]
      · rw [if_neg hb]
        split <;> split <;> first | rfl | omega

end Memory
