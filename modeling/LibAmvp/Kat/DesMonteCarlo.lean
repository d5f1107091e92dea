import LibAmvp.Kat.Des
import LibAmvp.Kat.SymModule

/-!
# Monte Carlo tests of triple-DES

The Monte Carlo loops of triple-DES against the procedure of the standard, for all modes and both
directions.  The procedure takes its texts from the register of the mode, or from the last
operation, and its keys from the last 192 bits of the results.

Main results:

- Theorem {lit}`read_shiftin`: shifting in a segment keeps the last 192 bits.
- Theorem {lit}`DesDone.feed`: what is fed back is the next text of the procedure.
- Theorem {lit}`DesAt.turn`: the next round starts where the round ends.
- Theorem {lit}`desMctTc_standard`: the loops report the rounds of the procedure.
-/

namespace LibAmvp

open Bits

/-! ## The procedure -/

/-- What a round starts from. -/
structure DesRound where
  keyingOption : Nat
  key : List UInt8
  iv : List UInt8
  text : List UInt8

/-- The register and the text before an operation, and the results so far. -/
structure DesProgress where
  reg : List UInt8
  text : List UInt8
  results : List (List UInt8) := []

/-- The byte whose last bit is set so that the number of its bits that are set is odd. -/
def oddParity (byte : UInt8) : UInt8 :=
  if (byteBits (byte &&& 0xFE)).count true % 2 = 1 then byte &&& 0xFE else byte ||| 1

/-- The key of the next round: the three keys are combined with the last, the middle and the first
of three blocks, and the third one is the first one again where there are two keys only. -/
def desNextKey (keyingOption : Nat) (key nk : List UInt8) : List UInt8 :=
  let k1 := (xorBlocks (key.take 8) (nk.drop 16)).map oddParity
  let k2 := (xorBlocks ((key.drop 8).take 8) ((nk.drop 8).take 8)).map oddParity
  let k3 := if keyingOption = 1 then (xorBlocks (key.drop 16) (nk.take 8)).map oddParity else k1
  k1 ++ k2 ++ k3

section Procedure

variable (C : BlockCipher) (mode : BlockMode) (encrypts : Bool)

/-- The text after an operation, from the register before it, its text and its result. -/
def desNextText (reg text result : List UInt8) : List UInt8 :=
  match mode with
  | .ecb => result
  | .cbc => if encrypts then reg else result
  | .ofb => reg
  | .cfb | .cfb8 | .cfb1 =>
    if encrypts then mode.mask (reg.take (mode.segmentBytes C.size)) else xorBlocks text result

namespace DesRound

variable (round : DesRound)

/-- An operation. -/
def operation (st : DesProgress) : DesProgress :=
  let (result, reg) := C.operate mode encrypts round.key st.reg st.text
  { reg := reg
    text := desNextText C mode encrypts st.reg st.text result
    results := st.results ++ [result] }

/-- What a number of operations lead to. -/
def operations (n : Nat) : DesProgress :=
  (round.operation C mode encrypts)^[n] { reg := round.iv, text := round.text }

/-- The last 192 bits of the results, in bytes. -/
def lastBytes : List UInt8 :=
  packBits (rightmost 192 (mode.stream C.size (round.operations C mode encrypts 10000).results))

/-- The next round. -/
def next : DesRound where
  keyingOption := round.keyingOption
  key := desNextKey round.keyingOption round.key (round.lastBytes C mode encrypts)
  iv := (round.operations C mode encrypts 10000).reg
  text :=
    if mode = .ofb then xorBlocks round.text (round.operations C mode encrypts 9999).reg
    else (round.operations C mode encrypts 10000).text

/-- The keys of a round, and its initialization vector. -/
def values : JsonObject :=
  let obj := jsonObjectSetText [] "key1" (hexString (round.key.take 8))
  let obj := jsonObjectSetText obj "key2" (hexString ((round.key.drop 8).take 8))
  let obj := jsonObjectSetText obj "key3" (hexString (round.key.drop 16))
  if mode = .ecb then obj else jsonObjectSetText obj "iv" (hexString round.iv)

/-- What is reported at the start of a round. -/
def request : JsonObject :=
  jsonObjectSetText (round.values mode) (if encrypts then "pt" else "ct") (hexString round.text)

/-- What is reported of a round. -/
def entry : JsonObject :=
  jsonObjectSetText (round.request mode encrypts) (if encrypts then "ct" else "pt")
    (hexString ((round.operations C mode encrypts 10000).results.getD 9999 []))

/-- The rounds of a test. -/
def entries (n : Nat) : List JsonObject :=
  (List.range n).map fun i => ((next C mode encrypts)^[i] round).entry C mode encrypts

end DesRound

end Procedure

/-! ## Triple-DES tests -/

/-- The modes that have Monte Carlo tests. -/
def desMode : Cipher → Option BlockMode
  | .tdesEcb => some .ecb
  | .tdesCbc => some .cbc
  | .tdesOfb => some .ofb
  | .tdesCfb64 => some .cfb
  | .tdesCfb8 => some .cfb8
  | .tdesCfb1 => some .cfb1
  | _ => none

/-- A Monte Carlo test of a mode, whose texts have one segment. -/
structure IsDesMct (mode : BlockMode) (tc : SymCipherTc) : Prop where
  mct : tc.testType = .mct
  cipher : desMode tc.cipher = some mode
  keyLen : tc.keyLen = tdesKeyBitLen
  ivLen : mode ≠ .ecb → tc.ivLen = 8
  inputLen : tc.inputLen = mode.segmentBytes 8

instance (mode : BlockMode) : DecidablePred (IsDesMct mode) := fun tc =>
  decidable_of_iff (tc.testType = .mct ∧ desMode tc.cipher = some mode ∧
    tc.keyLen = tdesKeyBitLen ∧ (mode ≠ .ecb → tc.ivLen = 8) ∧
    tc.inputLen = mode.segmentBytes 8)
    ⟨fun h => ⟨h.1, h.2.1, h.2.2.1, h.2.2.2.1, h.2.2.2.2⟩,
      fun h => ⟨h.mct, h.cipher, h.keyLen, h.ivLen, h.inputLen⟩⟩

/-- A module that implements a mode and reports its register, where the mode has one. -/
def desModule (C : BlockCipher) (mode : BlockMode) : SymModule where
  cipher := C
  mode := mode
  IsTest := IsDesMct mode
  decIsTest := inferInstance
  Reports := mode ≠ .ecb

/-! ## Parity -/

/-- The bits of a byte that are set are odd in number. -/
theorem oddParity_odd (byte : UInt8) : (byteBits (oddParity byte)).count true % 2 = 1 := by
  have hall : ∀ n : Fin 256, (byteBits (oddParity (UInt8.ofNat n))).count true % 2 = 1 := by
    decide +kernel
  simpa using hall ⟨byte.toNat, byte.toNat_lt⟩

/-- The table of the source holds, for every byte, the byte with its parity bit set to odd. -/
theorem oddParityTbl_eq (byte : UInt8) : oddParityTbl.getD byte.toNat 0 = oddParity byte := by
  have hall : ∀ n : Fin 256,
      oddParityTbl.getD (UInt8.ofNat n).toNat 0 = oddParity (UInt8.ofNat n) := by decide +kernel
  simpa using hall ⟨byte.toNat, byte.toNat_lt⟩

/-! ## Shifting in -/

/-- Shifting the top bit of the next byte in moves every bit up by one. -/
theorem testBit_shift (x y : UInt8) {k : Nat} (hk : k < 8) :
    (x <<< 1 ||| y >>> 7).toNat.testBit k =
      if k = 0 then y.toNat.testBit 7 else x.toNat.testBit (k - 1) := by
  have hlow : (y >>> 7).toNat.testBit k = y.toNat.testBit (7 + k) := by
    rw [UInt8.toNat_shiftRight, Nat.testBit_shiftRight]
    rfl
  have hhigh : (x <<< 1).toNat.testBit k = (decide (1 ≤ k) && x.toNat.testBit (k - 1)) := by
    rw [UInt8.toNat_shiftLeft, Nat.testBit_mod_two_pow, Nat.testBit_shiftLeft]
    simp [hk]
  rw [UInt8.toNat_or, Nat.testBit_or, hlow, hhigh]
  split
  · rename_i hzero
    subst hzero
    simp
  · rename_i hpos
    have hout : y.toNat.testBit (7 + k) = false :=
      Nat.testBit_lt_two_pow (Nat.lt_of_lt_of_le y.toNat_lt
        (Nat.pow_le_pow_right (by decide) (by omega)))
    rw [hout, Bool.or_false, decide_eq_true (by omega), Bool.true_and]

/-- Shifting whole bytes into the window keeps its last 24 bytes. -/
theorem read_shiftin_bytes (dst src : Memory) {n : Nat} (hn : n ≤ 24) :
    (shiftin dst src (8 * n)).read 24 = rightmost 24 (dst.read 24 ++ src.read n) := by
  have hbytes : 8 * n / 8 = n := by omega
  have hcopied : (8 * n + 7) / 8 = n := by omega
  rw [shiftin, hbytes, hcopied, if_neg (by omega), rightmost, List.length_append,
    Memory.read_length, Memory.read_length, Nat.add_sub_cancel_left,
    List.drop_append_of_le_length (by rw [Memory.read_length]; omega)]
  refine List.ext_getElem (by simp; omega) fun k hk _ => ?_
  have hk : k < 24 := by rwa [Memory.read_length] at hk
  rw [List.getElem_append]
  simp only [Memory.read, List.getElem_map, List.getElem_range, List.getElem_drop,
    List.length_drop, List.length_map, List.length_range]
  rw [Memory.copy_apply (by omega)]
  split
  · rw [dif_neg (by omega)]
    congr 1
    omega
  · rw [dif_pos (by omega), if_pos (by omega), Nat.add_comm]

/-- Shifting one bit into the window moves every bit down and puts the new one last. -/
theorem getBit_shiftin_bit (dst src : Memory) {b : Nat} (hb : b < 192) :
    (shiftin dst src 1).getBit 0 b =
      if b = 191 then src.getBit 0 0 else dst.getBit 0 (b + 1) := by
  have happend : ∀ n, n ≤ 24 →
      (Memory.copy (fun n => if n < 24 then dst n else dst n) 24 32 src 0 1) n =
        if n = 24 then src 0 else dst n := by
    intro n hn
    rw [Memory.copy_apply (by decide)]
    by_cases hlast : n = 24
    · simp [hlast]
    · rw [if_neg (by omega), if_neg hlast]
      simp
  have hshift : shiftin dst src 1 (b / 8) =
      dst (b / 8) <<< 1 ||| (if b / 8 + 1 = 24 then src 0 else dst (b / 8 + 1)) >>> 7 := by
    have h := happend (b / 8) (by omega)
    rw [if_neg (by omega)] at h
    have h' := happend (b / 8 + 1) (by omega)
    rw [← h, ← h']
    exact if_pos (show b / 8 < 24 by omega)
  rw [Memory.getBit, Nat.zero_add, hshift, testBit_shift _ _ (by omega)]
  by_cases hlast : b % 8 = 7
  · rw [if_pos (by omega)]
    by_cases hend : b = 191
    · rw [if_pos (by omega), if_pos hend]
      rfl
    · rw [if_neg (by omega), if_neg hend, Memory.getBit, Nat.zero_add,
        show (b + 1) / 8 = b / 8 + 1 by omega, show (b + 1) % 8 = 0 by omega]
  · rw [if_neg (by omega), if_neg (by omega), Memory.getBit, Nat.zero_add,
      show (b + 1) / 8 = b / 8 by omega, show 7 - (b + 1) % 8 = 7 - b % 8 - 1 by omega]

/-- The bits of a text that was read are the bits of the memory it was read from. -/
theorem bitsOf_read (m : Memory) (n : Nat) :
    bitsOf (m.read n) = (List.range (8 * n)).map (m.getBit 0) := by
  rw [← Memory.slice_zero, Memory.bitsOf_slice]

/-- Shifting in a segment keeps the last 192 bits. -/
theorem read_shiftin (mode : BlockMode) (dst src : Memory) :
    bitsOf ((shiftin dst src (mode.segmentBits 8)).read 24) =
      rightmost 192 (bitsOf (dst.read 24) ++
        (bitsOf (src.read (mode.segmentBytes 8))).take (mode.segmentBits 8)) := by
  have hbytes : ∀ n ≤ 24, mode.segmentBits 8 = 8 * n → mode.segmentBytes 8 = n →
      bitsOf ((shiftin dst src (mode.segmentBits 8)).read 24) =
        rightmost 192 (bitsOf (dst.read 24) ++
          (bitsOf (src.read (mode.segmentBytes 8))).take (mode.segmentBits 8)) := by
    intro n hn hbits hlen
    rw [hbits, hlen, read_shiftin_bytes dst src hn, ← rightmost_bitsOf, bitsOf_append,
      List.take_of_length_le (by rw [length_bitsOf, Memory.read_length])]
  cases mode with
  | cfb1 =>
      have hone : (bitsOf (src.read 1)).take 1 = [src.getBit 0 0] := rfl
      have hlen : (bitsOf (dst.read 24) ++ [src.getBit 0 0]).length - 192 = 1 := by simp
      refine Eq.trans ?_ (congrArg (fun l => rightmost 192 (bitsOf (dst.read 24) ++ l)) hone.symm)
      rw [rightmost, hlen, bitsOf_read, bitsOf_read]
      refine List.ext_getElem (by simp) fun b hb _ => ?_
      have hb : b < 192 := by simpa using hb
      simp only [List.getElem_map, List.getElem_range, List.getElem_drop, List.getElem_append,
        List.length_map, List.length_range]
      rw [show BlockMode.segmentBits .cfb1 8 = 1 from rfl, getBit_shiftin_bit dst src hb]
      by_cases hend : b = 191
      · rw [if_pos hend, dif_neg (by omega)]
        simp [hend]
      · rw [if_neg hend, dif_pos (by omega), Nat.add_comm]
  | cfb8 => exact hbytes 1 (by decide) rfl rfl
  | ecb => exact hbytes 8 (by decide) rfl rfl
  | cbc => exact hbytes 8 (by decide) rfl rfl
  | ofb => exact hbytes 8 (by decide) rfl rfl
  | cfb => exact hbytes 8 (by decide) rfl rfl

/-! ## The loops without a direction -/

namespace DesTables

variable (encrypts : Bool) (tables : DesTables)

/-- The table of the texts that are encrypted or decrypted. -/
def input : Memory := if encrypts then tables.ptext else tables.ctext

/-- The table of the texts that they become. -/
def output : Memory := if encrypts then tables.ctext else tables.ptext

end DesTables

/-- The tables after {lit}`amvp_des_mct_iterate_tc`. -/
def desMctKeep (stc : SymCipherTc) (tables : DesTables) : DesTables :=
  { tables with
    ctext := tables.ctext.copy (8 * stc.mctIndex) 8 stc.ct 0 stc.ctLen
    ptext := tables.ptext.copy (8 * stc.mctIndex) 8 stc.pt 0 stc.ptLen }

/-- The text that {lit}`amvp_des_mct_iterate_tc` feeds back. -/
def desMctFeed (mode : BlockMode) (stc : SymCipherTc) (tables : DesTables) : Memory :=
  let j := stc.mctIndex
  let results := tables.output stc.encrypts
  let first (next : Memory) : Memory :=
    if j = 0 then stc.input.copy 0 symPtByteMax tables.oldIv 0 8 else next
  let before := first (stc.input.copy 0 8 results (8 * (j - 1)) 8)
  let returned := first (stc.input.copy 0 8 stc.ivRet 0 8)
  let combined := xorBytes stc.input stc.output 8
  match mode with
  | .ecb => stc.input.copy 0 symPtByteMax stc.output 0 stc.outputLen
  | .cbc => if stc.encrypts then before else stc.input.copy 0 8 results (8 * j) 8
  | .ofb => returned
  | .cfb => if stc.encrypts then before else combined
  | .cfb8 | .cfb1 => if stc.encrypts then returned else combined

/-- One turn of the inner loop keeps the texts it needs and feeds the next input, up to the
initialization vector. -/
theorem desMctIterateTc_eq {mode : BlockMode} {stc : SymCipherTc}
    (hcipher : desMode stc.cipher = some mode) (tables : DesTables) :
    ∃ iv, desMctIterateTc stc tables =
      .ok ({ stc.withInput (desMctFeed mode stc (desMctKeep stc tables)) with iv := iv },
        desMctKeep stc tables) := by
  cases stc with
  | mk cipher conformance testType direction =>
      cases cipher <;> cases hcipher <;> cases direction <;> exact ⟨_, rfl⟩

/-! ## What the tables hold -/

/-- The kept inputs gain the current one in its place. -/
theorem input_desMctKeep (stc : SymCipherTc) (tables : DesTables) :
    (desMctKeep stc tables).input stc.encrypts =
      (tables.input stc.encrypts).copy (8 * stc.mctIndex) 8 stc.input 0 stc.inputLen := by
  unfold desMctKeep DesTables.input SymCipherTc.input SymCipherTc.inputLen
  cases stc.encrypts <;> rfl

/-- The kept outputs gain the current one in its place. -/
theorem output_desMctKeep (stc : SymCipherTc) (tables : DesTables) :
    (desMctKeep stc tables).output stc.encrypts =
      (tables.output stc.encrypts).copy (8 * stc.mctIndex) 8 stc.output 0 stc.outputLen := by
  unfold desMctKeep DesTables.output SymCipherTc.output SymCipherTc.outputLen
  cases stc.encrypts <;> rfl

/-- The cipher is the one with feedback of one bit exactly when its mode is. -/
theorem desMode_eq_cfb1 {cipher : Cipher} {mode : BlockMode} (h : desMode cipher = some mode) :
    cipher = .tdesCfb1 ↔ mode = .cfb1 := by
  cases cipher <;> cases h <;> simp

/-- The cipher is the one without chaining exactly when its mode is. -/
theorem desMode_eq_ecb {cipher : Cipher} {mode : BlockMode} (h : desMode cipher = some mode) :
    cipher = .tdesEcb ↔ mode = .ecb := by
  cases cipher <;> cases h <;> simp

/-- The number of bits a cipher works on at a time is the segment of its mode. -/
theorem desBitLen_eq {cipher : Cipher} {mode : BlockMode} (h : desMode cipher = some mode) :
    desBitLen cipher = some (mode.segmentBits 8) := by
  cases cipher <;> cases h <;> rfl

/-- The exclusive or in place is the exclusive or of the two texts. -/
theorem read_xorBytes (dest src : Memory) {n k : Nat} (h : k ≤ n) :
    (xorBytes dest src n).read k = xorBlocks (dest.read k) (src.read k) := by
  calc
    (xorBytes dest src n).read k = (List.range k).map fun i => dest i ^^^ src i :=
      List.map_congr_left fun i hi => if_pos (Nat.lt_of_lt_of_le (List.mem_range.mp hi) h)
    _ = xorBlocks (dest.read k) (src.read k) := by
      rw [xorBlocks, Memory.read, Memory.read, List.zipWith_map, List.zipWith_self]

/-! ## An operation -/

section Operation

variable (C : BlockCipher) (mode : BlockMode) (encrypts : Bool) (round : DesRound)

/-- A test case and the tables before an operation of a round that starts with the bits
{lit}`start` in {lit}`nk`. -/
structure DesAt (start : List Bool) (j : Nat) (stc : SymCipherTc) (tables : DesTables) :
    Prop where
  tc : IsDesMct mode stc
  dir : stc.encrypts = encrypts
  option : stc.keyingOption = round.keyingOption
  key : stc.key.read 24 = round.key
  iv : mode ≠ .ecb → (if j = 0 then stc.iv else tables.oldIv).read 8 = round.iv
  text : mode.mask (stc.input.read (mode.segmentBytes 8)) =
    (round.operations C mode encrypts j).text
  whole : encrypts = false →
    stc.input.read (mode.segmentBytes 8) = (round.operations C mode encrypts j).text
  row : mode = .cbc ∨ mode = .cfb → encrypts → 0 < j →
    (tables.output encrypts).slice (8 * (j - 1)) 8 = (round.operations C mode encrypts j).reg
  first : mode = .ofb → 0 < j → (tables.input encrypts).slice 0 8 = round.text
  nk : bitsOf (tables.nk.read 24) =
    rightmost 192 (start ++ mode.stream 8 (round.operations C mode encrypts j).results)
  segments : ∀ segment ∈ (round.operations C mode encrypts j).results,
    segment.length = mode.segmentBytes 8
  output : 0 < j → stc.output.read (mode.segmentBytes 8) =
      (round.operations C mode encrypts j).results.getD (j - 1) [] ∧
    (mode ≠ .cfb1 → stc.outputLen = mode.segmentBytes 8)
  registers : mode ≠ .ecb → 0 < j →
    stc.ivRet.read 8 = (round.operations C mode encrypts (j - 1)).reg ∧
      stc.ivRetAfter.read 8 = (round.operations C mode encrypts j).reg

/-- The result of an operation. -/
def DesRound.result (j : Nat) : List UInt8 :=
  (C.operate mode encrypts round.key (round.operations C mode encrypts j).reg
    (round.operations C mode encrypts j).text).1

/-- The operations of a round, one more at the end. -/
theorem operations_succ (j : Nat) : round.operations C mode encrypts (j + 1) =
    round.operation C mode encrypts (round.operations C mode encrypts j) :=
  Function.iterate_succ_apply' _ _ _

/-- Each operation adds its result at the end. -/
theorem results_succ (j : Nat) : (round.operations C mode encrypts (j + 1)).results =
    (round.operations C mode encrypts j).results ++ [round.result C mode encrypts j] := by
  rw [operations_succ]
  rfl

/-- The text of the next operation, as SP 800-20 states it. -/
theorem text_succ (j : Nat) : (round.operations C mode encrypts (j + 1)).text =
    desNextText C mode encrypts (round.operations C mode encrypts j).reg
      (round.operations C mode encrypts j).text (round.result C mode encrypts j) := by
  rw [operations_succ]
  rfl

/-- The register of the next operation is what the cipher leaves. -/
theorem reg_succ (j : Nat) : (round.operations C mode encrypts (j + 1)).reg =
    (C.operate mode encrypts round.key (round.operations C mode encrypts j).reg
      (round.operations C mode encrypts j).text).2 := by
  rw [operations_succ]
  rfl

/-- There is one result for each operation. -/
theorem length_results (j : Nat) :
    (round.operations C mode encrypts j).results.length = j := by
  induction j with
  | zero => rfl
  | succ j ih => rw [results_succ, List.length_append, ih, List.length_singleton]

/-- The last result is that of the last operation. -/
theorem results_getD (j : Nat) : (round.operations C mode encrypts (j + 1)).results.getD j [] =
    round.result C mode encrypts j := by
  rw [results_succ, List.getD_eq_getElem?_getD, List.getElem?_append_right
    (by rw [length_results]), length_results, Nat.sub_self]
  rfl

/-- A test case and the tables after an operation, when its texts are in the tables. -/
structure DesDone (start : List Bool) (j : Nat) (stc : SymCipherTc) (tables : DesTables) :
    Prop where
  tc : IsDesMct mode stc
  dir : stc.encrypts = encrypts
  index : stc.mctIndex = j
  option : stc.keyingOption = round.keyingOption
  key : stc.key.read 24 = round.key
  iv : mode ≠ .ecb → tables.oldIv.read 8 = round.iv
  text : mode.mask (stc.input.read (mode.segmentBytes 8)) =
    (round.operations C mode encrypts j).text
  whole : encrypts = false →
    stc.input.read (mode.segmentBytes 8) = (round.operations C mode encrypts j).text
  row : mode = .cbc ∨ mode = .cfb → encrypts → 0 < j →
    (tables.output encrypts).slice (8 * (j - 1)) 8 = (round.operations C mode encrypts j).reg
  last : mode = .cbc ∨ mode = .cfb →
    (tables.output encrypts).slice (8 * j) 8 = round.result C mode encrypts j
  first : mode = .ofb → (tables.input encrypts).slice 0 8 = round.text
  nk : bitsOf (tables.nk.read 24) =
    rightmost 192 (start ++ mode.stream 8 (round.operations C mode encrypts (j + 1)).results)
  segments : ∀ segment ∈ (round.operations C mode encrypts (j + 1)).results,
    segment.length = mode.segmentBytes 8
  output : stc.output.read (mode.segmentBytes 8) = round.result C mode encrypts j
  outputLen : mode ≠ .cfb1 → stc.outputLen = mode.segmentBytes 8
  registers : mode ≠ .ecb →
    stc.ivRet.read 8 = (round.operations C mode encrypts j).reg ∧
      stc.ivRetAfter.read 8 = (round.operations C mode encrypts (j + 1)).reg

variable {C mode encrypts round} {start : List Bool} {j : Nat} {stc : SymCipherTc}
  {tables : DesTables}

/-- What is fed back of the registers: the initialization vector first. -/
theorem DesDone.read_first (h : DesDone C mode encrypts round start j stc tables)
    (hmode : mode ≠ .ecb) {next : Memory}
    (hnext : 0 < j → next.read 8 = (round.operations C mode encrypts j).reg) {n : Nat}
    (hn : n ≤ 8) :
    (if stc.mctIndex = 0 then stc.input.copy 0 symPtByteMax tables.oldIv 0 8 else next).read n =
      ((round.operations C mode encrypts j).reg).take n := by
  obtain rfl := h.index
  split
  · rename_i hzero
    rw [hzero] at hnext ⊢
    rw [Memory.read_copy_of_le (by decide) hn, Memory.slice_zero, ← Memory.take_read _ hn,
      h.iv hmode]
    rfl
  · rename_i hpos
    rw [← Memory.take_read _ hn, hnext (by omega)]

/-- What is read back after an operation is the register it started from. -/
theorem DesDone.read_returned (h : DesDone C mode encrypts round start j stc tables)
    (hmode : mode ≠ .ecb) {n : Nat} (hn : n ≤ 8) :
    (if stc.mctIndex = 0 then stc.input.copy 0 symPtByteMax tables.oldIv 0 8
      else stc.input.copy 0 8 stc.ivRet 0 8).read n =
      ((round.operations C mode encrypts j).reg).take n := by
  refine h.read_first hmode (fun _ => ?_) hn
  rw [Memory.read_copy_of_le (by decide) (Nat.le_refl 8), Memory.slice_zero]
  exact (h.registers hmode).1

/-- When a block is enciphered with chaining, the text before it is the register. -/
theorem DesDone.read_before (h : DesDone C mode encrypts round start j stc tables)
    (hmode : mode = .cbc ∨ mode = .cfb) (hdir : encrypts) :
    (if stc.mctIndex = 0 then stc.input.copy 0 symPtByteMax tables.oldIv 0 8
      else stc.input.copy 0 8 (tables.output stc.encrypts) (8 * (stc.mctIndex - 1)) 8).read 8 =
      (round.operations C mode encrypts j).reg := by
  have hecb : mode ≠ .ecb := by rcases hmode with rfl | rfl <;> decide
  have hlen : (round.operations C mode encrypts j).reg.length = 8 := by
    rw [← (h.registers hecb).1, Memory.read_length]
  refine (h.read_first hecb (fun hpos => ?_) (Nat.le_refl 8)).trans
    (List.take_of_length_le (Nat.le_of_eq hlen))
  rw [Memory.read_copy_of_le (by decide) (Nat.le_refl 8), h.dir, h.index]
  exact h.row hmode hdir hpos

/-- The exclusive or of masked texts is masked. -/
theorem mask_xorBlocks {text result : List UInt8} (htext : mode.mask text = text)
    (hresult : mode.mask result = result) :
    mode.mask (xorBlocks text result) = xorBlocks text result := by
  cases mode with
  | cfb1 =>
      rw [← htext, ← hresult]
      simp only [BlockMode.mask]
      cases topBit text <;> cases topBit result <;> rfl
  | _ => rfl

/-- What is fed back is the next text of the procedure. -/
theorem DesDone.feed (hsize : C.size = 8) (h : DesDone C mode encrypts round start j stc tables) :
    mode.mask ((desMctFeed mode stc tables).read (mode.segmentBytes 8)) =
        (round.operations C mode encrypts (j + 1)).text ∧
      (encrypts = false → (desMctFeed mode stc tables).read (mode.segmentBytes 8) =
        (round.operations C mode encrypts (j + 1)).text) := by
  have hwhole : ∀ {data : List UInt8}, (desMctFeed mode stc tables).read (mode.segmentBytes 8) =
      data → mode.mask data = data → mode.mask ((desMctFeed mode stc tables).read
        (mode.segmentBytes 8)) = data ∧
      (encrypts = false → (desMctFeed mode stc tables).read (mode.segmentBytes 8) = data) :=
    fun hread hmask => ⟨(congrArg mode.mask hread).trans hmask, fun _ => hread⟩
  have hresult : mode.mask (round.result C mode encrypts j) = round.result C mode encrypts j :=
    BlockCipher.mask_operate
  have htext : mode.mask (round.operations C mode encrypts j).text =
      (round.operations C mode encrypts j).text := by rw [← h.text, BlockMode.mask_mask]
  have hcombined (hdir : encrypts = false) :
      (xorBytes stc.input stc.output 8).read (mode.segmentBytes 8) =
        xorBlocks (round.operations C mode encrypts j).text (round.result C mode encrypts j) := by
    rw [read_xorBytes _ _ (by cases mode <;> simp [BlockMode.segmentBytes]), h.output,
      h.whole hdir]
  have hreg (hmode : mode ≠ .ecb) : (round.operations C mode encrypts j).reg.length = 8 := by
    rw [← (h.registers hmode).1, Memory.read_length]
  rw [text_succ]
  have hdir := h.dir
  cases mode with
  | ecb =>
      refine hwhole ?_ rfl
      refine (congrArg (fun n => Memory.read (Memory.copy _ 0 _ _ 0 n) 8)
        (h.outputLen (by decide))).trans ?_
      exact (Memory.read_copy _ _ (by decide)).trans h.output
  | cbc =>
      refine hwhole ?_ rfl
      cases encrypts with
      | false =>
          have hfeed : desMctFeed .cbc stc tables = stc.input.copy 0 8
              (tables.output stc.encrypts) (8 * stc.mctIndex) 8 := by
            rw [desMctFeed, hdir]
            rfl
          rw [hfeed, hdir, h.index]
          exact (Memory.read_copy_of_le (by decide) (Nat.le_refl 8) _ _ _).trans (h.last (.inl rfl))
      | true =>
          refine (congrArg (Memory.read · 8) (if_pos hdir)).trans ?_
          exact h.read_before (.inl rfl) rfl
  | ofb =>
      refine hwhole ((h.read_returned (by decide) (Nat.le_refl 8)).trans ?_) rfl
      exact List.take_of_length_le (Nat.le_of_eq (hreg (by decide)))
  | cfb =>
      refine hwhole ?_ rfl
      cases encrypts with
      | false =>
          refine (congrArg (Memory.read · 8) (if_neg (by simp [hdir]))).trans ?_
          exact hcombined rfl
      | true =>
          refine (congrArg (Memory.read · 8) (if_pos hdir)).trans ?_
          refine (h.read_before (.inr rfl) rfl).trans ?_
          exact (List.take_of_length_le
            (Nat.le_of_eq ((hreg (by decide)).trans hsize.symm))).symm
  | cfb8 =>
      refine hwhole ?_ rfl
      cases encrypts with
      | false =>
          refine (congrArg (Memory.read · 1) (if_neg (by simp [hdir]))).trans ?_
          exact hcombined rfl
      | true =>
          refine (congrArg (Memory.read · 1) (if_pos hdir)).trans ?_
          exact h.read_returned (by decide) (by decide)
  | cfb1 =>
      cases encrypts with
      | false =>
          refine hwhole ?_ (mask_xorBlocks htext hresult)
          refine (congrArg (Memory.read · 1) (if_neg (by simp [hdir]))).trans ?_
          exact hcombined rfl
      | true =>
          have hread : (desMctFeed .cfb1 stc tables).read 1 =
              (round.operations C .cfb1 true j).reg.take 1 :=
            (congrArg (Memory.read · 1) (if_pos hdir)).trans
              (h.read_returned (by decide) (by decide))
          exact ⟨congrArg _ hread, fun hdec => by cases hdec⟩

/-- The stream of result bits grows by the segment of the last result. -/
theorem stream_results_succ (j : Nat) :
    mode.stream 8 (round.operations C mode encrypts (j + 1)).results =
      mode.stream 8 (round.operations C mode encrypts j).results ++
        (bitsOf (round.result C mode encrypts j)).take (mode.segmentBits 8) := by
  rw [results_succ, BlockMode.stream_append]
  simp [BlockMode.stream]

/-- The texts of an operation are put in the tables, and its result into {lit}`nk`. -/
theorem DesAt.done (h : DesAt C mode encrypts round start stc.mctIndex stc tables)
    {text ivRet ivRetAfter : Memory} {len : Nat}
    (htext : text.read (mode.segmentBytes 8) = round.result C mode encrypts stc.mctIndex)
    (hlen : mode ≠ .cfb1 → len = mode.segmentBytes 8)
    (hregisters : mode ≠ .ecb →
      ivRet.read 8 = (round.operations C mode encrypts stc.mctIndex).reg ∧
        ivRetAfter.read 8 = (round.operations C mode encrypts (stc.mctIndex + 1)).reg)
    (holdIv : mode ≠ .ecb → tables.oldIv.read 8 = round.iv) :
    DesDone C mode encrypts round start stc.mctIndex
      { stc.withOutput text len with ivRet := ivRet, ivRetAfter := ivRetAfter }
      (desMctKeep { stc.withOutput text len with ivRet := ivRet, ivRetAfter := ivRetAfter }
        { tables with nk := shiftin tables.nk text (mode.segmentBits 8) }) := by
  obtain rfl := h.dir
  have hsame := SymCipherTc.input_withOutput stc text len
  have hlength := SymCipherTc.inputLen_withOutput stc text len
  have hinput : (desMctKeep (stc.withOutput text len) tables).input stc.encrypts =
      (tables.input stc.encrypts).copy (8 * stc.mctIndex) 8 stc.input 0 stc.inputLen := by
    refine (input_desMctKeep (stc.withOutput text len) tables).trans ?_
    rw [hsame, hlength]
    rfl
  have houtput : (desMctKeep (stc.withOutput text len) tables).output stc.encrypts =
      (tables.output stc.encrypts).copy (8 * stc.mctIndex) 8 text 0 len := by
    refine (output_desMctKeep (stc.withOutput text len) tables).trans ?_
    rw [SymCipherTc.output_withOutput, SymCipherTc.outputLen_withOutput]
    rfl
  refine ⟨⟨h.tc.mct, h.tc.cipher, h.tc.keyLen, h.tc.ivLen, hlength.trans h.tc.inputLen⟩, rfl, rfl,
    h.option, h.key, holdIv, ?_, ?_, ?_, ?_, ?_, ?_, ?_, (congrArg (Memory.read · _)
      (SymCipherTc.output_withOutput stc text len)).trans htext,
    fun hmode => (SymCipherTc.outputLen_withOutput stc text len).trans (hlen hmode), hregisters⟩
  · exact (congrArg (fun m => mode.mask (Memory.read m _)) hsame).trans h.text
  · exact fun hdir => (congrArg (Memory.read · _) hsame).trans (h.whole hdir)
  · intro hmode hdir hpos
    refine (congrArg (Memory.slice · _ _) houtput).trans ?_
    exact (Memory.slice_copy_of_disjoint _ _ (by omega)).trans (h.row hmode hdir hpos)
  · intro hmode
    have hseg : mode.segmentBytes 8 = 8 := by rcases hmode with rfl | rfl <;> rfl
    have hlen : len = 8 := (hlen (by rcases hmode with rfl | rfl <;> decide)).trans hseg
    refine (congrArg (Memory.slice · _ _) houtput).trans ?_
    rw [hlen]
    rw [hseg] at htext
    exact (Memory.slice_copy (Nat.le_refl 8) _ _ _ _).trans
      ((Memory.slice_zero _ _).trans htext)
  · rintro rfl
    refine (congrArg (Memory.slice · _ _) hinput).trans ?_
    rw [h.tc.inputLen]
    by_cases hzero : stc.mctIndex = 0
    · rw [hzero]
      refine (Memory.slice_copy (Nat.le_refl 8) _ _ _ _).trans ?_
      refine (Memory.slice_zero _ _).trans (h.text.trans ?_)
      rw [hzero]
      rfl
    · exact (Memory.slice_copy_of_disjoint _ _ (by omega)).trans (h.first rfl (by omega))
  · refine (read_shiftin mode tables.nk text).trans ?_
    rw [h.nk, htext, rightmost_rightmost_append, stream_results_succ, List.append_assoc]
  · intro segment hsegment
    rw [results_succ] at hsegment
    rcases List.mem_append.mp hsegment with hsegment | hsegment
    · exact h.segments segment hsegment
    · rw [List.mem_singleton.mp hsegment, ← htext, Memory.read_length]

/-- The next operation takes what is fed back. -/
theorem DesDone.next (hsize : C.size = 8) (h : DesDone C mode encrypts round start j stc tables)
    (iv : Memory) :
    DesAt C mode encrypts round start (j + 1)
      { stc.withInput (desMctFeed mode stc tables) with iv := iv } tables := by
  obtain ⟨htext, hwhole⟩ := h.feed hsize
  have hinput := SymCipherTc.input_withInput stc (desMctFeed mode stc tables)
  have houtput := SymCipherTc.output_withInput stc (desMctFeed mode stc tables)
  refine ⟨⟨h.tc.mct, h.tc.cipher, h.tc.keyLen, h.tc.ivLen, h.tc.inputLen⟩, h.dir, h.option, h.key,
    fun hmode => (congrArg (Memory.read · 8) (if_neg (Nat.succ_ne_zero j))).trans (h.iv hmode),
    (congrArg (fun m => mode.mask (Memory.read m _)) hinput).trans htext,
    fun hdir => (congrArg (Memory.read · _) hinput).trans (hwhole hdir), ?_,
    fun hmode _ => h.first hmode, h.nk, h.segments, fun _ => ⟨?_, h.outputLen⟩,
    fun hmode _ => h.registers hmode⟩
  · intro hmode hdir _
    refine (h.last hmode).trans ?_
    rw [reg_succ]
    subst hdir
    rcases hmode with rfl | rfl <;> rfl
  · exact ((congrArg (Memory.read · _) houtput).trans h.output).trans
      (results_getD C mode encrypts round j).symm

/-! ## A round -/

variable {p : Partner SymCipherTc}

/-- The state between two operations does not speak of the index. -/
theorem DesAt.withIndex (h : DesAt C mode encrypts round start j stc tables) (index : Nat) :
    DesAt C mode encrypts round start j { stc with mctIndex := index } tables :=
  ⟨⟨h.tc.mct, h.tc.cipher, h.tc.keyLen, h.tc.ivLen, h.tc.inputLen⟩, h.dir, h.option, h.key,
    h.iv, h.text, h.whole, h.row, h.first, h.nk, h.segments, h.output, h.registers⟩

/-- What a module keeps before an operation; in ECB its register says nothing. -/
def DesKept (C : BlockCipher) (mode : BlockMode) (encrypts : Bool) (round : DesRound) (j : Nat)
    (st : Option ModuleState) : Prop :=
  ∃ reg, st = some ⟨round.key, reg⟩ ∧
    (mode ≠ .ecb → reg = (round.operations C mode encrypts j).reg)

/-- The module does the operation of the procedure. -/
theorem DesAt.operate (hsize : C.size = 8)
    (h : DesAt C mode encrypts round start stc.mctIndex stc tables) {st : Option ModuleState}
    (hst : 0 < stc.mctIndex → DesKept C mode encrypts round stc.mctIndex st) :
    ∃ st', (desModule C mode).start st stc = some st' ∧
      ((desModule C mode).operate st' stc).1 = round.result C mode encrypts stc.mctIndex ∧
      (mode ≠ .ecb → st'.reg = (round.operations C mode encrypts stc.mctIndex).reg) ∧
      DesKept C mode encrypts round (stc.mctIndex + 1)
        (some ((desModule C mode).operate st' stc).2) := by
  have hstart : DesKept C mode encrypts round stc.mctIndex ((desModule C mode).start st stc) := by
    rw [SymModule.start]
    split
    · rename_i hzero
      refine ⟨stc.iv.read C.size, ?_, fun hmode => ?_⟩
      · rw [h.tc.keyLen]
        exact congrArg (fun key => some (ModuleState.mk key _)) h.key
      · rw [hsize, hzero]
        have hiv := h.iv hmode
        rwa [if_pos hzero] at hiv
    · exact hst (by omega)
  obtain ⟨reg, hstart, hreg⟩ := hstart
  have hoperate : (desModule C mode).operate ⟨round.key, reg⟩ stc =
      ((C.operate mode encrypts round.key reg
          (round.operations C mode encrypts stc.mctIndex).text).1,
        ⟨round.key, (C.operate mode encrypts round.key reg
          (round.operations C mode encrypts stc.mctIndex).text).2⟩) := by
    have htext : mode.mask (stc.input.read (mode.segmentBytes C.size)) = _ := hsize ▸ h.text
    rw [SymModule.operate, h.dir]
    dsimp only [desModule, SymModule.segmentBytes]
    rw [htext]
  refine ⟨_, hstart, ?_, hreg, _, congrArg (fun result => some result.2) hoperate, fun hmode => ?_⟩
  · rw [hoperate]
    by_cases hmode : mode = .ecb
    · subst hmode
      rfl
    · rw [hreg hmode]
      rfl
  · rw [hreg hmode, reg_succ]

/-- The tables before the question of an operation. -/
def keepOldIv (j : Nat) (stc : SymCipherTc) (tables : DesTables) : DesTables :=
  if j = 0 then { tables with oldIv := tables.oldIv.copy 0 8 stc.iv 0 stc.ivLen } else tables

/-- Nor of the kept initialization vector. -/
theorem DesAt.keepOldIv (h : DesAt C mode encrypts round start j stc tables) :
    DesAt C mode encrypts round start j stc (keepOldIv j stc tables) := by
  rw [LibAmvp.keepOldIv]
  split
  · rename_i hzero
    subst hzero
    exact ⟨h.tc, h.dir, h.option, h.key, h.iv, h.text, h.whole, h.row, h.first, h.nk, h.segments,
      h.output, h.registers⟩
  · exact h

/-- Keeping it puts the round's own vector there. -/
theorem DesAt.read_oldIv (h : DesAt C mode encrypts round start j stc tables)
    (hmode : mode ≠ .ecb) : (LibAmvp.keepOldIv j stc tables).oldIv.read 8 = round.iv := by
  have hiv := h.iv hmode
  rw [LibAmvp.keepOldIv]
  split
  · rename_i hzero
    rw [if_pos hzero] at hiv
    rw [h.tc.ivLen hmode]
    exact (Memory.read_copy _ _ (Nat.le_refl 8)).trans hiv
  · rename_i hpos
    rwa [if_neg hpos] at hiv

/-- The text that a module stores is the result in either direction. -/
theorem result_withOutput (stc : SymCipherTc) (text : Memory) (len : Nat) :
    (if (stc.withOutput text len).direction = .encrypt then (stc.withOutput text len).ct
      else (stc.withOutput text len).pt) = text := by
  unfold SymCipherTc.withOutput SymCipherTc.encrypts
  by_cases hdir : stc.direction = .encrypt <;> simp [hdir]

/-- What {lit}`amvp_des_mct_iterate_tc` makes of a result is the start of the next operation. -/
theorem DesAt.iterate (hsize : C.size = 8)
    (h : DesAt C mode encrypts round start stc.mctIndex stc tables)
    {text ivRet ivRetAfter : Memory} {len : Nat}
    (htext : text.read (mode.segmentBytes 8) = round.result C mode encrypts stc.mctIndex)
    (hlen : mode ≠ .cfb1 → len = mode.segmentBytes 8)
    (hregisters : mode ≠ .ecb →
      ivRet.read 8 = (round.operations C mode encrypts stc.mctIndex).reg ∧
        ivRetAfter.read 8 = (round.operations C mode encrypts (stc.mctIndex + 1)).reg)
    (holdIv : mode ≠ .ecb → tables.oldIv.read 8 = round.iv) :
    ∃ end_, desMctIterateTc
        { stc.withOutput text len with ivRet := ivRet, ivRetAfter := ivRetAfter }
        { tables with
          nk := shiftin tables.nk (if (stc.withOutput text len).direction = .encrypt then
            (stc.withOutput text len).ct else (stc.withOutput text len).pt)
              (mode.segmentBits 8) } = .ok end_ ∧
      DesAt C mode encrypts round start (stc.mctIndex + 1) end_.1 end_.2 := by
  rw [result_withOutput]
  have hdone := h.done htext hlen hregisters holdIv
  obtain ⟨iv, hiterate⟩ := desMctIterateTc_eq hdone.tc.cipher
    { tables with nk := shiftin tables.nk text (mode.segmentBits 8) }
  exact ⟨_, hiterate, hdone.next hsize iv⟩

/-- The inner loop computes the operations of the round, by induction on those left. -/
theorem runs_desMctCalls (hsize : C.size = 8) (hp : (desModule C mode).Implements p) (n : Nat) :
    ∀ (j : Nat) (stc : SymCipherTc) (tables : DesTables) (st : Option ModuleState),
      DesAt C mode encrypts round start j stc tables →
      (0 < j → DesKept C mode encrypts round j st) →
      ((desModule C mode).setting p).Runs st (desMctCalls (mode.segmentBits 8) n j stc tables)
        fun end_ _ => DesAt C mode encrypts round start (j + n) end_.1 end_.2 := by
  induction n with
  | zero => exact fun j stc tables st h _ => Setting.runs_pure h
  | succ n ih =>
    intro j stc tables st h hst
    rw [desMctCalls]
    have hat : DesAt C mode encrypts round start ({ stc with mctIndex := j } : SymCipherTc).mctIndex
        { stc with mctIndex := j } tables := h.withIndex j
    refine Setting.runs_ask_bind trivial fun before hbefore => ?_
    subst hbefore
    obtain ⟨st', hstart, hresult, hreg, hkept⟩ := hat.operate hsize hst
    obtain ⟨text, len, ivRet, ivRetAfter, hreply, htext, hlen, hreports⟩ :=
      hp before _ _ hat.tc hstart
    rw [show ((desModule C mode).setting p).partner before _ = _ from hreply]
    refine Setting.runs_ite (fun hcode => absurd rfl hcode) fun _ => ?_
    have hseg : (desModule C mode).segmentBytes = mode.segmentBytes 8 :=
      congrArg mode.segmentBytes hsize
    rw [hseg, hresult] at htext
    rw [hseg] at hlen
    have hregisters : mode ≠ .ecb → ivRet.read 8 = (round.operations C mode encrypts j).reg ∧
        ivRetAfter.read 8 = (round.operations C mode encrypts (j + 1)).reg := by
      intro hmode
      obtain ⟨hbefore, hafter⟩ := hreports hmode
      obtain ⟨_, hsome, hnext⟩ := hkept
      rw [show (desModule C mode).cipher.size = 8 from hsize] at hbefore hafter
      refine ⟨hbefore.trans (hreg hmode), hafter.trans ?_⟩
      rw [Option.some.inj hsome]
      exact hnext hmode
    obtain ⟨end_, hiterate, hnext⟩ :=
      hat.keepOldIv.iterate hsize htext hlen hregisters h.read_oldIv
    refine Setting.runs_ofExcept_bind (fun b hb => ?_) fun e he => ?_
    · obtain rfl := Except.ok.inj (hiterate.symm.trans hb)
      rw [← Nat.add_assoc, Nat.add_right_comm]
      refine ih (j + 1) _ _ _ hnext fun _ => ?_
      refine (congrArg (DesKept C mode encrypts round (j + 1)) ?_).mpr hkept
      exact ((desModule C mode).state_append hat.tc).trans (congrArg (Option.map _) hstart)
    · cases hiterate.symm.trans he

/-! ### The next round -/

/-- A test case at the start of a round. -/
structure DesStart (mode : BlockMode) (encrypts : Bool) (round : DesRound) (stc : SymCipherTc) :
    Prop where
  tc : IsDesMct mode stc
  dir : stc.encrypts = encrypts
  option : stc.keyingOption = round.keyingOption
  key : stc.key.read 24 = round.key
  iv : mode ≠ .ecb → stc.iv.read 8 = round.iv
  text : mode.mask (stc.input.read (mode.segmentBytes 8)) = round.text
  whole : encrypts = false → stc.input.read (mode.segmentBytes 8) = round.text

/-- A test case that starts a round is in the state before its first operation. -/
theorem DesStart.before (h : DesStart mode encrypts round stc) (tables : DesTables) :
    DesAt C mode encrypts round (bitsOf (tables.nk.read 24)) 0 stc tables := by
  refine ⟨h.tc, h.dir, h.option, h.key, h.iv, h.text, h.whole,
    fun _ _ hpos => absurd hpos (Nat.lt_irrefl 0), fun _ hpos => absurd hpos (Nat.lt_irrefl 0), ?_,
    fun _ hsegment => absurd hsegment List.not_mem_nil, fun hpos => absurd hpos (Nat.lt_irrefl 0),
    fun _ hpos => absurd hpos (Nat.lt_irrefl 0)⟩
  rw [show (round.operations C mode encrypts 0).results = [] from rfl, BlockMode.stream,
    List.flatMap_nil, List.append_nil, rightmost, length_bitsOf, Memory.read_length]
  rfl

/-- Clearing the low seven bits is the mask of feedback by one bit. -/
theorem read_maskFirst (text : Memory) :
    (maskFirst text).read 1 = BlockMode.mask .cfb1 (text.read 1) := by
  refine Eq.trans (congrArg (fun byte => [byte]) (Function.update_self _ _ _)) ?_
  rw [and_top_eq, BlockMode.mask, ← topBit_cons (text 0) []]
  rfl

/-- A part of a text that was read is a slice of the memory. -/
theorem take_drop_read (m : Memory) {at_ n total : Nat} (h : at_ + n ≤ total) :
    ((m.read total).drop at_).take n = m.slice at_ n := by
  refine List.ext_getElem (by simp; omega) fun k _ _ => ?_
  simp [Memory.read, Memory.slice]

/-- The end of a text that was read is a slice of the memory. -/
theorem drop_read (m : Memory) (at_ n : Nat) : (m.read (at_ + n)).drop at_ = m.slice at_ n := by
  refine List.ext_getElem (by simp) fun k _ _ => ?_
  simp [Memory.read, Memory.slice]

/-- The parts of a key. -/
theorem read_keys (m : Memory) : m.read 24 = m.slice 0 8 ++ m.slice 8 8 ++ m.slice 16 8 := rfl

/-- The three keys of an answer are the three parts of the key bytes. -/
theorem setDesKeys_parts (rTobj : JsonObject) (key : Memory) :
    setDesKeys rTobj key =
      .ok (jsonObjectSetText (jsonObjectSetText (jsonObjectSetText rTobj "key1"
        (hexString ((key.read 24).take 8))) "key2" (hexString (((key.read 24).drop 8).take 8)))
        "key3" (hexString ((key.read 24).drop 16))) := by
  rw [Memory.take_read key (by decide : 8 ≤ 24), take_drop_read key (by decide : 8 + 8 ≤ 24),
    drop_read key 16 8]
  rw [setDesKeys, memoryToHexstr_ok (by decide) (by decide), Guard.ok_bind,
    memoryToHexstr_ok (by decide) (by decide), Guard.ok_bind,
    memoryToHexstr_ok (by decide) (by decide)]
  rfl

/-- A text of a round is shown as far as its segment goes. -/
theorem setDesText_ok {rTobj : JsonObject} {name : String} {text : Memory} {destMax : Nat}
    (hmax : 16 ≤ destMax ∧ destMax < 2 ^ 31) (mode : BlockMode) :
    setMemory rTobj name text (mode.segmentBytes 8) destMax =
      .ok (jsonObjectSetText rTobj name (hexString (text.read (mode.segmentBytes 8)))) := by
  refine setMemory_ok (Nat.le_trans ?_ hmax.1) hmax.2
  cases mode <;> decide

/-- The number of bytes an answer shows is that of the mode's segment. -/
theorem shownLen_eq {cipher : Cipher} (hcipher : desMode cipher = some mode) {len : Nat}
    (hlen : mode ≠ .cfb1 → len = mode.segmentBytes 8) :
    (if cipher = .tdesCfb1 then 1 else len) = mode.segmentBytes 8 := by
  by_cases hmode : mode = .cfb1
  · rw [if_pos ((desMode_eq_cfb1 hcipher).mpr hmode), hmode]
    rfl
  · rw [if_neg (mt (desMode_eq_cfb1 hcipher).mp hmode), hlen hmode]

/-- The direction of a test case is that of its round. -/
theorem direction_of (hdir : stc.encrypts = encrypts) :
    stc.direction = .encrypt ↔ encrypts = true := by
  rw [← hdir, SymCipherTc.encrypts, decide_eq_true_iff]

/-- A text that is encrypted, or becomes so, is shown; in CFB1 only its first bit counts. -/
theorem maskedText_ok {cipher : Cipher} (hcipher : desMode cipher = some mode) {len : Nat}
    (hlen : mode ≠ .cfb1 → len = mode.segmentBytes 8) (rTobj : JsonObject) (name : String)
    (text : Memory) {destMax : Nat} (hmax : 16 ≤ destMax ∧ destMax < 2 ^ 31)
    (keep : Memory → SymCipherTc) :
    ∃ text', text'.read (mode.segmentBytes 8) = mode.mask (text.read (mode.segmentBytes 8)) ∧
      (if cipher = .tdesCfb1 then do
        let rTobj ← setMemory rTobj name (maskFirst text) 1 destMax
        pure (rTobj, keep (maskFirst text))
      else do
        let rTobj ← setMemory rTobj name text len destMax
        pure (rTobj, keep text)) =
        .ok (jsonObjectSetText rTobj name
          (hexString (mode.mask (text.read (mode.segmentBytes 8)))), keep text') := by
  by_cases hmode : mode = .cfb1
  · subst hmode
    refine ⟨maskFirst text, read_maskFirst text, ?_⟩
    have hshown : setMemory rTobj name (maskFirst text) 1 destMax =
        .ok (jsonObjectSetText rTobj name (hexString ((maskFirst text).read 1))) :=
      setDesText_ok hmax .cfb1
    rw [read_maskFirst] at hshown
    rw [if_pos ((desMode_eq_cfb1 hcipher).mpr rfl), hshown]
    rfl
  · have hmask : mode.mask (text.read (mode.segmentBytes 8)) = text.read (mode.segmentBytes 8) := by
      cases mode with
      | cfb1 => exact absurd rfl hmode
      | _ => rfl
    refine ⟨text, hmask.symm, ?_⟩
    rw [if_neg (mt (desMode_eq_cfb1 hcipher).mp hmode), hlen hmode, setDesText_ok hmax, hmask]
    rfl

/-- A test case with the round's text as its input still starts the round. -/
theorem DesStart.withInput (h : DesStart mode encrypts round stc) {text : Memory}
    (htext : mode.mask (text.read (mode.segmentBytes 8)) = round.text)
    (hwhole : encrypts = false → text.read (mode.segmentBytes 8) = round.text) :
    DesStart mode encrypts round (stc.withInput text) := by
  have hinput := SymCipherTc.input_withInput stc text
  exact ⟨⟨h.tc.mct, h.tc.cipher, h.tc.keyLen, h.tc.ivLen, h.tc.inputLen⟩, h.dir, h.option, h.key,
    h.iv, hinput.symm ▸ htext, hinput.symm ▸ hwhole⟩

/-- The input of an encryption is the plain text. -/
theorem withInput_of_encrypts (hdir : stc.encrypts = true) (text : Memory) :
    stc.withInput text = { stc with pt := text } := by
  rw [SymCipherTc.withInput, hdir]
  rfl

/-- The start of a round is reported; in CFB1 only the first bit of a plaintext counts from then
on. -/
theorem DesStart.output (h : DesStart mode encrypts round stc) :
    ∃ stc', desOutputMctTc stc = .ok (round.request mode encrypts, stc') ∧
      DesStart mode encrypts round stc' := by
  have hiv (rTobj : JsonObject) :
      Guard.onlyIf (stc.cipher ≠ .tdesEcb) (setMemory rTobj "iv" stc.iv stc.ivLen symIvMax) rTobj =
        .ok (if mode = .ecb then rTobj
          else jsonObjectSetText rTobj "iv" (hexString round.iv)) := by
    by_cases hmode : mode = .ecb
    · rw [Guard.onlyIf_neg (not_not.mpr ((desMode_eq_ecb h.tc.cipher).mpr hmode)), if_pos hmode]
    · rw [Guard.onlyIf_pos (mt (desMode_eq_ecb h.tc.cipher).mp hmode), h.tc.ivLen hmode,
        setMemory_ok (by decide) (by decide), h.iv hmode, if_neg hmode]
      rfl
  rw [desOutputMctTc, setDesKeys_parts, Guard.ok_bind, hiv, Guard.ok_bind, h.key, ← DesRound.values]
  cases encrypts with
  | true =>
      have hinput : stc.input = stc.pt := if_pos h.dir
      have hlen : stc.ptLen = mode.segmentBytes 8 := (if_pos h.dir).symm.trans h.tc.inputLen
      have htext : mode.mask (stc.pt.read (mode.segmentBytes 8)) = round.text := hinput ▸ h.text
      obtain ⟨text, hread, hshown⟩ := maskedText_ok h.tc.cipher (fun _ => hlen)
        (round.values mode) "pt" stc.pt (by decide : 16 ≤ symPtMax ∧ _)
        fun text => { stc with pt := text }
      rw [htext] at hread hshown
      rw [if_pos ((direction_of h.dir).mpr rfl)]
      refine ⟨_, hshown, ?_⟩
      rw [← withInput_of_encrypts h.dir]
      refine h.withInput ?_ fun hdec => by cases hdec
      rw [hread, ← htext, BlockMode.mask_mask]
  | false =>
      have hinput : stc.input = stc.ct := if_neg (by simp [h.dir])
      have hlen : stc.ctLen = mode.segmentBytes 8 :=
        (if_neg (by simp [h.dir])).symm.trans h.tc.inputLen
      refine ⟨stc, ?_, h⟩
      rw [if_neg (mt (direction_of h.dir).mp (by decide)),
        shownLen_eq h.tc.cipher fun _ => hlen, setDesText_ok (by decide), ← hinput, h.whole rfl]
      rfl

/-- The next key is computed byte by byte, with odd parity. -/
theorem map_xorBlocks_slice (m m' : Memory) (at_ at' n : Nat) :
    (xorBlocks (m.slice at_ n) (m'.slice at' n)).map oddParity =
      (List.range n).map fun k => oddParity (m (at_ + k) ^^^ m' (at' + k)) := by
  have hblocks : xorBlocks (m.slice at_ n) (m'.slice at' n) =
      (List.range n).map fun k => m (at_ + k) ^^^ m' (at' + k) := by
    rw [xorBlocks, Memory.slice, Memory.slice, List.zipWith_map, List.zipWith_self]
  calc
    (xorBlocks (m.slice at_ n) (m'.slice at' n)).map oddParity =
        ((List.range n).map fun k => m (at_ + k) ^^^ m' (at' + k)).map oddParity := by
      rw [hblocks]
    _ = (List.range n).map fun k => oddParity (m (at_ + k) ^^^ m' (at' + k)) := List.map_map

/-- The next key combines the keys with the last 192 bits. -/
theorem read_desMctKey (stc : SymCipherTc) (nk : Memory) :
    (desMctKey stc nk).read 24 =
      desNextKey stc.keyingOption (stc.key.read 24) (nk.read 24) := by
  have hfirst : (desMctKey stc nk).slice 0 8 =
      (xorBlocks (stc.key.slice 0 8) (nk.slice 16 8)).map oddParity := by
    rw [map_xorBlocks_slice]
    refine List.map_congr_left fun k hk => ?_
    have hk := List.mem_range.mp hk
    rw [← oddParityTbl_eq, desMctKey, desSetOddParity]
    simp only [Nat.zero_add]
    rw [if_pos (by omega), if_neg (by omega), if_pos hk]
  have hsecond : (desMctKey stc nk).slice 8 8 =
      (xorBlocks (stc.key.slice 8 8) (nk.slice 8 8)).map oddParity := by
    rw [map_xorBlocks_slice]
    refine List.map_congr_left fun k hk => ?_
    have hk := List.mem_range.mp hk
    rw [← oddParityTbl_eq, desMctKey, desSetOddParity]
    simp only
    rw [if_pos (by omega), if_neg (by omega), if_neg (by omega), if_pos (by omega)]
  have hthird : (desMctKey stc nk).slice 16 8 =
      if stc.keyingOption = 1 then (xorBlocks (stc.key.slice 16 8) (nk.slice 0 8)).map oddParity
      else (xorBlocks (stc.key.slice 0 8) (nk.slice 16 8)).map oddParity := by
    rw [map_xorBlocks_slice, map_xorBlocks_slice]
    split <;> rename_i hoption
    · refine List.map_congr_left fun k hk => ?_
      have hk := List.mem_range.mp hk
      rw [← oddParityTbl_eq, desMctKey, desSetOddParity]
      simp only [Nat.zero_add]
      rw [if_pos (by omega), if_pos (by omega), if_pos hoption, if_neg (by omega),
        if_neg (by omega), Nat.add_sub_cancel_left]
    · refine List.map_congr_left fun k hk => ?_
      have hk := List.mem_range.mp hk
      rw [← oddParityTbl_eq, desMctKey, desSetOddParity]
      simp only [Nat.zero_add]
      rw [if_pos (by omega), if_pos (by omega), if_neg hoption, Nat.add_sub_cancel_left,
        if_pos hk]
  have htake (m : Memory) : (m.read 24).take 8 = m.slice 0 8 := by
    rw [Memory.take_read m (by decide), Memory.slice_zero]
  have hmiddle (m : Memory) : ((m.read 24).drop 8).take 8 = m.slice 8 8 :=
    take_drop_read m (by decide)
  rw [desNextKey, htake, hmiddle, drop_read _ 16 8, htake, hmiddle, drop_read _ 16 8, read_keys,
    hfirst, hsecond, hthird]

/-- After a round the bytes of {lit}`nk` are the last ones of the results. -/
theorem DesAt.read_nk (hsize : C.size = 8) {n : Nat} (hn : n = 10000)
    (h : DesAt C mode encrypts round start n stc tables) :
    tables.nk.read 24 = round.lastBytes C mode encrypts := by
  have hbits : 1 ≤ mode.segmentBits 8 := by cases mode <;> decide
  have hlen : 192 ≤ (mode.stream 8 (round.operations C mode encrypts n).results).length := by
    rw [BlockMode.length_stream _ _ h.segments, length_results]
    exact Nat.le_trans (by omega) (Nat.le_mul_of_pos_right n hbits)
  rw [← packBits_bitsOf (tables.nk.read 24), h.nk, rightmost_append _ _ hlen, DesRound.lastBytes,
    hsize, hn]

/-- The turn from one round to the next sets key, vector and input, and nothing else. -/
theorem desMctTurn_eq (h : desMode stc.cipher = some mode) (tables : DesTables) :
    desMctTurn stc tables =
      { stc.withInput (if mode = .ofb then
          stc.input.copy 0 8 (xorBytes (tables.input stc.encrypts) stc.ivRet 8) 0 8
          else stc.input) with
        key := desMctKey stc tables.nk
        iv := stc.iv.copy 0 symIvByteMax stc.ivRetAfter 0 8 } := by
  cases stc with
  | mk cipher conformance testType direction =>
      cases cipher <;> cases h <;> cases direction <;> rfl

/-- It leaves the output as it was. -/
theorem output_desMctTurn (h : desMode stc.cipher = some mode) (tables : DesTables) :
    (desMctTurn stc tables).output = stc.output ∧
      (desMctTurn stc tables).outputLen = stc.outputLen := by
  rw [desMctTurn_eq h]
  exact ⟨SymCipherTc.output_withInput stc _, rfl⟩

/-- The next round, where the number of operations is not to be computed with. -/
theorem next_eq {n : Nat} (hn : n = 10000) : round.next C mode encrypts =
    { keyingOption := round.keyingOption
      key := desNextKey round.keyingOption round.key (round.lastBytes C mode encrypts)
      iv := (round.operations C mode encrypts n).reg
      text := if mode = .ofb then
          xorBlocks round.text (round.operations C mode encrypts (n - 1)).reg
        else (round.operations C mode encrypts n).text } := by
  subst hn
  rfl

/-- The next round starts where the round ends. -/
theorem DesAt.turn (hsize : C.size = 8) {n : Nat} (hn : n = 10000)
    (h : DesAt C mode encrypts round start n stc tables) :
    DesStart mode encrypts (round.next C mode encrypts) (desMctTurn stc tables) := by
  have hpos : 0 < n := by omega
  have hkey : (desMctKey stc tables.nk).read 24 =
      desNextKey round.keyingOption round.key (round.lastBytes C mode encrypts) := by
    rw [read_desMctKey, h.key, h.option, h.read_nk hsize hn]
  have hiv (hmode : mode ≠ .ecb) : (stc.iv.copy 0 symIvByteMax stc.ivRetAfter 0 8).read 8 =
      (round.operations C mode encrypts n).reg :=
    (Memory.read_copy _ _ (by decide)).trans (h.registers hmode hpos).2
  have hinput := SymCipherTc.input_withInput stc
  rw [desMctTurn_eq h.tc.cipher, next_eq hn]
  by_cases hmode : mode = .ofb
  · subst hmode
    have htext :
        (stc.input.copy 0 8 (xorBytes (tables.input stc.encrypts) stc.ivRet 8) 0 8).read 8 =
          xorBlocks round.text (round.operations C .ofb encrypts (n - 1)).reg := by
      rw [Memory.read_copy _ _ (Nat.le_refl 8), read_xorBytes _ _ (Nat.le_refl 8),
        (h.registers (by decide) hpos).1, h.dir, ← Memory.slice_zero, h.first rfl hpos]
    rw [if_pos rfl, if_pos rfl]
    exact ⟨⟨h.tc.mct, h.tc.cipher, h.tc.keyLen, h.tc.ivLen, h.tc.inputLen⟩, h.dir, h.option, hkey,
      hiv, (congrArg (Memory.read · 8) (hinput _)).trans htext,
      fun _ => (congrArg (Memory.read · 8) (hinput _)).trans htext⟩
  · rw [if_neg hmode, if_neg hmode]
    exact ⟨⟨h.tc.mct, h.tc.cipher, h.tc.keyLen, h.tc.ivLen, h.tc.inputLen⟩, h.dir, h.option, hkey,
      hiv, (congrArg (fun m => mode.mask (Memory.read m _)) (hinput _)).trans h.text,
      fun hdir => (congrArg (Memory.read · _) (hinput _)).trans (h.whole hdir)⟩

/-- The result of the last operation is reported, and the next round starts as it did. -/
theorem desMctText_ok (hcipher : desMode stc.cipher = some mode) (hdir : stc.encrypts = encrypts)
    (hlen : mode ≠ .cfb1 → stc.outputLen = mode.segmentBytes 8)
    (hmask : mode.mask (stc.output.read (mode.segmentBytes 8)) =
      stc.output.read (mode.segmentBytes 8)) (rTobj : JsonObject) :
    ∃ stc', desMctText stc rTobj = .ok (jsonObjectSetText rTobj
        (if encrypts then "ct" else "pt") (hexString (stc.output.read (mode.segmentBytes 8))),
          stc') ∧
      (DesStart mode encrypts round stc → DesStart mode encrypts round stc') := by
  unfold desMctText
  cases encrypts with
  | true =>
      have houtput : stc.output = stc.ct := if_pos hdir
      have houtputLen : stc.outputLen = stc.ctLen := if_pos hdir
      have hinput (text : Memory) : ({ stc with ct := text } : SymCipherTc).input = stc.input :=
        (if_pos hdir).trans (if_pos hdir).symm
      have hinputLen (text : Memory) :
          ({ stc with ct := text } : SymCipherTc).inputLen = stc.inputLen := rfl
      rw [houtput] at hmask
      rw [houtputLen] at hlen
      obtain ⟨text, -, hshown⟩ := maskedText_ok hcipher hlen rTobj "ct" stc.ct
        (by decide : 16 ≤ symCtMax ∧ _) fun text => { stc with ct := text }
      rw [hmask] at hshown
      rw [if_pos ((direction_of hdir).mpr rfl), houtput]
      exact ⟨_, hshown, fun h => ⟨⟨h.tc.mct, h.tc.cipher, h.tc.keyLen, h.tc.ivLen,
        (hinputLen text).trans h.tc.inputLen⟩, h.dir, h.option, h.key, h.iv,
        (hinput text).symm ▸ h.text, (hinput text).symm ▸ h.whole⟩⟩
  | false =>
      have houtput : stc.output = stc.pt := if_neg (by simp [hdir])
      have houtputLen : stc.outputLen = stc.ptLen := if_neg (by simp [hdir])
      rw [houtputLen] at hlen
      rw [if_neg (mt (direction_of hdir).mp (by decide)), shownLen_eq hcipher hlen,
        setDesText_ok (by decide), houtput]
      exact ⟨stc, rfl, id⟩

/-! ## The test -/

/-- The answers of a run, the first one apart. -/
theorem desEntries_succ (n : Nat) : round.entries C mode encrypts (n + 1) =
    round.entry C mode encrypts :: (round.next C mode encrypts).entries C mode encrypts n := by
  rw [DesRound.entries, List.range_succ_eq_map, List.map_cons, List.map_map]
  rfl

/-- The answer of a round is its request with the last result. -/
theorem entry_eq {n : Nat} (hn : n = 10000) : round.entry C mode encrypts =
    jsonObjectSetText (round.request mode encrypts) (if encrypts then "ct" else "pt")
      (hexString ((round.operations C mode encrypts n).results.getD (n - 1) [])) := by
  subst hn
  rfl

/-- Every result is masked. -/
theorem mask_result {n : Nat} (hn : 0 < n) :
    mode.mask ((round.operations C mode encrypts n).results.getD (n - 1) []) =
      (round.operations C mode encrypts n).results.getD (n - 1) [] := by
  obtain ⟨j, rfl⟩ := Nat.exists_eq_add_of_lt hn
  rw [Nat.zero_add, Nat.add_sub_cancel, results_getD]
  exact BlockCipher.mask_operate

/-- The outer loop answers the rounds of the standard, by induction on those left. -/
theorem runs_desMctRounds (hsize : C.size = 8) (hp : (desModule C mode).Implements p) (n : Nat) :
    ∀ (round : DesRound) (stc : SymCipherTc) (tables : DesTables) (st : Option ModuleState),
      DesStart mode encrypts round stc →
      ((desModule C mode).setting p).Runs st (desMctRounds (mode.segmentBits 8) n stc tables)
        fun result _ => result.1 = round.entries C mode encrypts n := by
  induction n with
  | zero => exact fun round stc tables st h => Setting.runs_pure rfl
  | succ n ih =>
    intro round stc tables st h
    obtain ⟨stc', hrequest, h⟩ := h.output
    rw [desMctRounds, hrequest]
    refine Setting.runs_ofExcept_bind (fun b hb => ?_) fun _ he => by cases he
    obtain rfl := Except.ok.inj hb
    obtain ⟨inner, hinner⟩ : ∃ inner, inner = desMctInner := ⟨_, rfl⟩
    rw [← hinner]
    refine (runs_desMctCalls hsize hp inner 0 stc' tables st (h.before tables)
      fun hpos => absurd hpos (Nat.lt_irrefl 0)).bind fun ⟨stc', tables'⟩ st' hend => ?_
    rw [Nat.zero_add] at hend
    have hpos : 0 < inner := by rw [hinner]; decide
    have hnext := hend.turn hsize hinner
    obtain ⟨hout, houtLen⟩ := hend.output hpos
    obtain ⟨hsame, hsameLen⟩ := output_desMctTurn hend.tc.cipher tables'
    obtain ⟨stc'', htext, hstart⟩ := desMctText_ok hnext.tc.cipher hnext.dir
      (hsameLen.symm ▸ houtLen) (by rw [hsame, hout, mask_result hpos])
      (round.request mode encrypts)
    dsimp only
    rw [htext]
    refine Setting.runs_ofExcept_bind (fun b hb => ?_) fun _ he => by cases he
    obtain rfl := Except.ok.inj hb
    refine (ih _ stc'' tables' st' (hstart hnext)).bind
      fun ⟨results, tables''⟩ _ hresults => Setting.runs_pure ?_
    rw [desEntries_succ, ← hresults, entry_eq hinner, hsame, hout]

end Operation

/-- Every byte of the next key has odd parity. -/
theorem oddParity_of_mem (keyingOption : Nat) (key nk : List UInt8) {byte : UInt8}
    (h : byte ∈ desNextKey keyingOption key nk) : (byteBits byte).count true % 2 = 1 := by
  have hall : ∀ data : List UInt8, byte ∈ data.map oddParity →
      (byteBits byte).count true % 2 = 1 := by
    intro data hmem
    obtain ⟨_, _, rfl⟩ := List.mem_map.mp hmem
    exact oddParity_odd _
  rw [desNextKey] at h
  rcases List.mem_append.mp h with h | h
  · exact (List.mem_append.mp h).elim (hall _) (hall _)
  · split at h
    · exact hall _ h
    · exact hall _ h

/-- The loops report the rounds of the procedure, which starts from the keys, the initialization
vector and the text of the test, whatever {lit}`nk` holds; after the operations of a round it holds
the last 192 bits of the results, and all bytes of the next key have odd parity. -/
theorem desMctTc_standard (C : BlockCipher) (hsize : C.size = 8) (mode : BlockMode)
    {p : Partner SymCipherTc} (hp : (desModule C mode).Implements p) (before : List SymCipherTc)
    (stc : SymCipherTc) (tables : DesTables) (htc : IsDesMct mode stc)
    (hsegment : stc.encrypts = false → mode.mask (stc.input.read (mode.segmentBytes 8)) =
      stc.input.read (mode.segmentBytes 8)) :
    let round : DesRound := ⟨stc.keyingOption, stc.key.read 24, stc.iv.read 8,
      mode.mask (stc.input.read (mode.segmentBytes 8))⟩
    (∃ tables', (desMctTc stc tables p before).1 =
      .ok (round.entries C mode stc.encrypts 400, tables')) ∧
    (∃ stc' tables', (desMctCalls (mode.segmentBits 8) desMctInner 0 stc tables p before).1 =
      .ok (stc', tables') ∧ tables'.nk.read 24 = round.lastBytes C mode stc.encrypts) ∧
    ∀ byte ∈ (round.next C mode stc.encrypts).key, (byteBits byte).count true % 2 = 1 := by
  intro round
  have hstart : DesStart mode stc.encrypts round stc :=
    ⟨htc, rfl, rfl, rfl, fun _ => rfl, rfl, fun hdir => (hsegment hdir).symm⟩
  refine ⟨?_, ?_, fun byte hbyte => oddParity_of_mem _ _ _ hbyte⟩
  · have hruns : ((desModule C mode).setting p).Runs
        (((desModule C mode).setting p).state before) (desMctTc stc tables)
        fun result _ => result.1 = round.entries C mode stc.encrypts 400 := by
      rw [desMctTc, desBitLen_eq htc.cipher]
      refine Setting.runs_ofExcept_bind (fun bitLen hb => ?_) fun _ he => by cases he
      obtain rfl := Except.ok.inj hb
      exact runs_desMctRounds hsize hp 400 round stc tables _ hstart
    obtain ⟨⟨results, tables'⟩, _, hrun, hresults⟩ := hruns.ok (fun _ => id) rfl
    refine ⟨tables', (congrArg Prod.fst hrun).trans ?_⟩
    rw [← hresults]
  · obtain ⟨inner, hinner⟩ : ∃ inner, inner = desMctInner := ⟨_, rfl⟩
    obtain ⟨⟨stc', tables'⟩, _, hrun, hend⟩ := (runs_desMctCalls hsize hp inner 0 stc tables
      (((desModule C mode).setting p).state before) (hstart.before tables)
      fun hpos => absurd hpos (Nat.lt_irrefl 0)).ok (fun _ => id) rfl
    rw [Nat.zero_add] at hend
    rw [← hinner]
    exact ⟨stc', tables', congrArg Prod.fst hrun, hend.read_nk hsize hinner⟩

/-- A test with two keys that encrypts bits. -/
def tdesCfb1Tc : SymCipherTc where
  cipher := .tdesCfb1
  testType := .mct
  direction := .encrypt
  tcId := 1
  pt := .ofBytes [0x80]
  keyLen := 192
  ivLen := 8
  ptLen := 1
  keyingOption := 2

/-- The statement at feedback by one bit, for a module whose cipher is the exclusive or. -/
theorem desMctTc_standard_cfb1 :
    let round : DesRound := ⟨2, Memory.zero.read 24, Memory.zero.read 8, [0x80]⟩
    (∃ tables', (desMctTc tdesCfb1Tc {} (desModule (xorCipher 8) .cfb1).reference []).1 =
      .ok (round.entries (xorCipher 8) .cfb1 true 400, tables')) ∧
    (∃ stc' tables', (desMctCalls 1 desMctInner 0 tdesCfb1Tc {}
        (desModule (xorCipher 8) .cfb1).reference []).1 = .ok (stc', tables') ∧
      tables'.nk.read 24 = round.lastBytes (xorCipher 8) .cfb1 true) ∧
    ∀ byte ∈ (round.next (xorCipher 8) .cfb1 true).key, (byteBits byte).count true % 2 = 1 :=
  desMctTc_standard (xorCipher 8) rfl .cfb1 (SymModule.reference_implements (by decide)) []
    tdesCfb1Tc {} ⟨rfl, rfl, rfl, fun _ => rfl, rfl⟩ fun _ => rfl

end LibAmvp
