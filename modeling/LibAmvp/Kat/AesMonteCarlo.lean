import LibAmvp.Kat.Aes
import LibAmvp.Kat.SymModule

/-!
# Monte Carlo tests of AES

The Monte Carlo loops of AES against the procedure of the standard, for all modes and both
directions.  The procedure takes its texts from the initialization vector first and then from its
own results, which lie in the rows of the static tables.

Main results:

- Theorem {lit}`AesDone.fed`: what is fed back is the next text of the procedure.
- Theorem {lit}`AesAt.goOn`: the next round starts as the procedure does.
- Theorem {lit}`aesMctTc_standard`: the loops report the rounds of the procedure.
-/

namespace LibAmvp

open Bits

/-! ## The procedure -/

/-- What a round starts from. -/
structure AesRound where
  key : List UInt8
  iv : List UInt8
  text : List UInt8

/-- The segments of an initialization vector that are texts of a round. -/
def ivSegments (mode : BlockMode) (iv : List UInt8) : List (List UInt8) :=
  match mode with
  | .ecb => []
  | .cfb8 => iv.map fun byte => [byte]
  | .cfb1 => (bitsOf iv).map fun bit => [bitByte bit]
  | _ => [iv]

namespace AesRound

variable (C : BlockCipher) (mode : BlockMode) (encrypts : Bool) (round : AesRound)

/-- The text of an operation, after the results of the ones before.  After the first one these
are the segments of the initialization vector, if there are any, and then the results: the last
one in ECB, the last but one with blocks, and the one 16 or 128 operations before that with bytes
and bits. -/
def textOf (results : List (List UInt8)) : Nat → List UInt8
  | 0 => round.text
  | j + 1 => (ivSegments mode round.iv ++ results).getD j []

/-- The register and the results after a number of operations. -/
def operations : Nat → List UInt8 × List (List UInt8)
  | 0 => (round.iv, [])
  | j + 1 =>
    let (reg, results) := operations j
    let (result, reg) := C.operate mode encrypts round.key reg (round.textOf mode results j)
    (reg, results ++ [result])

/-- The results of a round. -/
def results : List (List UInt8) := (round.operations C mode encrypts 1000).2

/-- The last bits of the results of a round, in bytes. -/
def lastBytes (n : Nat) : List UInt8 :=
  packBits (rightmost (8 * n) (mode.stream C.size (round.results C mode encrypts)))

/-- The next round. -/
def next : AesRound where
  key := xorBlocks round.key (round.lastBytes C mode encrypts round.key.length)
  iv := if mode = .ecb then round.iv else round.lastBytes C mode encrypts C.size
  text := round.textOf mode (round.results C mode encrypts) 1000

/-- What is reported at the start of a round. -/
def request : JsonObject :=
  let obj := jsonObjectSetText [] "key" (hexString round.key)
  let obj := if mode = .ecb then obj else jsonObjectSetText obj "iv" (hexString round.iv)
  jsonObjectSetText obj (if encrypts then "pt" else "ct") (hexString round.text)

/-- What is reported of a round. -/
def entry : JsonObject :=
  jsonObjectSetText (round.request mode encrypts) (if encrypts then "ct" else "pt")
    (hexString ((round.results C mode encrypts).getD 999 []))

/-- The rounds of a test. -/
def entries (n : Nat) : List JsonObject :=
  (List.range n).map fun i => ((next C mode encrypts)^[i] round).entry C mode encrypts

end AesRound

/-! ## AES tests -/

/-- The modes that have Monte Carlo tests. -/
def aesMode : Cipher → Option BlockMode
  | .aesEcb => some .ecb
  | .aesCbc => some .cbc
  | .aesOfb => some .ofb
  | .aesCfb128 => some .cfb
  | .aesCfb8 => some .cfb8
  | .aesCfb1 => some .cfb1
  | _ => none

/-- A Monte Carlo test of a mode, whose texts have one segment. -/
structure IsAesMct (mode : BlockMode) (tc : SymCipherTc) : Prop where
  mct : tc.testType = .mct
  cipher : aesMode tc.cipher = some mode
  keyLen : tc.keyLen = 128 ∨ tc.keyLen = 192 ∨ tc.keyLen = 256
  ivLen : mode ≠ .ecb → tc.ivLen = 16
  inputLen : tc.inputLen = mode.segmentBytes 16

instance (mode : BlockMode) : DecidablePred (IsAesMct mode) := fun tc =>
  decidable_of_iff (tc.testType = .mct ∧ aesMode tc.cipher = some mode ∧
    (tc.keyLen = 128 ∨ tc.keyLen = 192 ∨ tc.keyLen = 256) ∧ (mode ≠ .ecb → tc.ivLen = 16) ∧
    tc.inputLen = mode.segmentBytes 16)
    ⟨fun h => ⟨h.1, h.2.1, h.2.2.1, h.2.2.2.1, h.2.2.2.2⟩,
      fun h => ⟨h.mct, h.cipher, h.keyLen, h.ivLen, h.inputLen⟩⟩

/-- A module that implements a mode. -/
def aesModule (C : BlockCipher) (mode : BlockMode) : SymModule where
  cipher := C
  mode := mode
  IsTest := IsAesMct mode
  decIsTest := inferInstance
  Reports := False

/-! ## The loops without a direction -/

namespace AesTables

variable (encrypts : Bool) (tables : AesTables)

/-- The table of the texts that are encrypted or decrypted. -/
def input : Memory := if encrypts then tables.ptext else tables.ctext

/-- The table of the texts that they become. -/
def output : Memory := if encrypts then tables.ctext else tables.ptext

def withInput (text : Memory) : AesTables :=
  { tables with
    ptext := if encrypts then text else tables.ptext
    ctext := if encrypts then tables.ctext else text }

/-- Setting the input of a direction leaves its outputs alone. -/
@[simp]
theorem output_withInput (text : Memory) :
    (tables.withInput encrypts text).output encrypts = tables.output encrypts := by
  cases encrypts <;> rfl

end AesTables

/-- How {lit}`amvp_aes_mct_iterate_tc` changes a test case. -/
def aesMctFeed (mode : BlockMode) (stc : SymCipherTc) (i : Nat) (tables : AesTables) :
    SymCipherTc × AesTables :=
  let j := stc.mctIndex
  let text := tables.output stc.encrypts
  let feed (src : Memory) (from_ n : Nat) :=
    stc.withInput (stc.input.copy 0 symPtByteMax src from_ n)
  match mode with
  | .ecb => (feed text (32 * j) stc.outputLen, tables)
  | .cbc | .ofb | .cfb =>
    if j = 0 then (feed stc.iv 0 stc.ivLen, tables)
    else
      ({ feed text (32 * (j - 1)) stc.outputLen with
        iv := stc.iv.copy 0 symIvByteMax text (32 * j) stc.outputLen }, tables)
  | .cfb8 =>
    if j < 16 then (feed stc.iv j stc.ivLen, tables)
    else (feed text (32 * (j - 16)) stc.outputLen, tables)
  | .cfb1 =>
    let bit := if j < 128 then tables.miv.getBit (16 * i) j else text.getBit (32 * (j - 128)) 0
    let rows := (tables.input stc.encrypts).setBit (32 * (j + 1)) 0 bit
    (stc.withInput (Function.update stc.input 0 (rows (32 * (j + 1)))),
      tables.withInput stc.encrypts rows)

/-- One turn of the inner loop keeps the texts it needs and feeds the next input. -/
theorem aesMctIterateTc_eq {mode : BlockMode} {stc : SymCipherTc}
    (hcipher : aesMode stc.cipher = some mode) (i : Nat) (tables : AesTables) :
    aesMctIterateTc stc i tables = .ok (aesMctFeed mode stc i (aesMctKeep stc tables)) := by
  cases stc with
  | mk cipher conformance testType direction =>
      cases cipher <;> cases hcipher <;> cases direction <;>
        first | rfl | exact (apply_ite Except.ok _ _ _).symm

/-! ## What the tables hold -/

/-- A segment of a row of the results. -/
def AesTables.row (tables : AesTables) (mode : BlockMode) (encrypts : Bool) (k : Nat) :
    List UInt8 :=
  (tables.output encrypts).slice (32 * k) (mode.segmentBytes 16)

/-- The kept outputs gain the current one in its row, a single byte in feedback of one bit. -/
theorem output_aesMctKeep (stc : SymCipherTc) (tables : AesTables) :
    (aesMctKeep stc tables).output stc.encrypts =
      if stc.cipher ≠ .aesCfb1 then
        (tables.output stc.encrypts).copy (32 * stc.mctIndex) 32 stc.output 0 stc.outputLen
      else Function.update (tables.output stc.encrypts) (32 * stc.mctIndex) (stc.output 0) := by
  unfold aesMctKeep AesTables.output SymCipherTc.output SymCipherTc.outputLen
  cases stc.encrypts <;> by_cases hcipher : stc.cipher = .aesCfb1 <;>
    by_cases hj : stc.mctIndex = 0 <;> simp [hcipher, hj]

/-- Keeping leaves the initialization vector alone. -/
@[simp]
theorem miv_aesMctKeep (stc : SymCipherTc) (tables : AesTables) :
    (aesMctKeep stc tables).miv = tables.miv := by
  unfold aesMctKeep
  by_cases hcipher : stc.cipher = .aesCfb1 <;> by_cases hj : stc.mctIndex = 0 <;>
    simp [hcipher, hj]

/-- The key is kept at the first turn only. -/
theorem mkey_aesMctKeep (stc : SymCipherTc) (tables : AesTables) :
    (aesMctKeep stc tables).mkey =
      if stc.mctIndex = 0 then tables.mkey.copy 0 32 stc.key 0 (stc.keyLen / 8)
      else tables.mkey := by
  unfold aesMctKeep
  by_cases hcipher : stc.cipher = .aesCfb1 <;> by_cases hj : stc.mctIndex = 0 <;>
    simp [hcipher, hj]

/-- The cipher is the one with feedback of one bit exactly when its mode is. -/
theorem aesMode_eq_cfb1 {cipher : Cipher} {mode : BlockMode} (h : aesMode cipher = some mode) :
    cipher = .aesCfb1 ↔ mode = .cfb1 := by
  cases cipher <;> cases h <;> simp

/-- A segment has between one and sixteen bytes. -/
theorem segmentBytes_le (mode : BlockMode) :
    0 < mode.segmentBytes 16 ∧ mode.segmentBytes 16 ≤ 16 := by
  cases mode <;> simp [BlockMode.segmentBytes]

/-- The result of an operation is kept in its row. -/
theorem row_aesMctKeep {mode : BlockMode} {stc : SymCipherTc}
    (hcipher : aesMode stc.cipher = some mode)
    (hlen : mode ≠ .cfb1 → stc.outputLen = mode.segmentBytes 16) (tables : AesTables) (k : Nat) :
    (aesMctKeep stc tables).row mode stc.encrypts k =
      if k = stc.mctIndex then stc.output.read (mode.segmentBytes 16)
      else tables.row mode stc.encrypts k := by
  have hseg := (segmentBytes_le mode).2
  rw [AesTables.row, output_aesMctKeep]
  by_cases hmode : mode = .cfb1
  · rw [if_neg (not_not.mpr ((aesMode_eq_cfb1 hcipher).mpr hmode)), hmode]
    split
    · rename_i hk
      subst hk
      simp [Memory.slice, Memory.read, BlockMode.segmentBytes]
    · rename_i hk
      refine Memory.slice_congr fun b hb => Function.update_of_ne ?_ _ _
      have hb : b < 1 := hb
      omega
  · rw [if_pos (mt (aesMode_eq_cfb1 hcipher).mp hmode), hlen hmode]
    split
    · rename_i hk
      subst hk
      rw [Memory.slice_copy (by omega), Memory.slice_zero]
    · exact Memory.slice_copy_of_disjoint _ _ (by omega)

/-! ## An operation -/

/-- The modes whose texts are blocks that are chained. -/
def isChained (mode : BlockMode) : Bool := mode = .cbc || mode = .ofb || mode = .cfb

section Operation

variable (C : BlockCipher) (mode : BlockMode) (encrypts : Bool) (round : AesRound) (i : Nat)

/-- A test case and the tables before an operation: the text is the next one of the procedure,
and the rows hold the results so far. -/
structure AesAt (j : Nat) (stc : SymCipherTc) (tables : AesTables) : Prop where
  tc : IsAesMct mode stc
  dir : stc.encrypts = encrypts
  key : stc.key.read (stc.keyLen / 8) = round.key
  iv : stc.iv.read 16 =
    if isChained mode ∧ 2 ≤ j then (round.operations C mode encrypts j).2.getD (j - 1) []
    else round.iv
  text : mode.mask (stc.input.read (mode.segmentBytes 16)) =
    round.textOf mode (round.operations C mode encrypts j).2 j
  rows : ∀ k < j, tables.row mode encrypts k = (round.operations C mode encrypts j).2.getD k []
  output : 0 < j → stc.output.read (mode.segmentBytes 16) =
      (round.operations C mode encrypts j).2.getD (j - 1) [] ∧
    (mode ≠ .cfb1 → stc.outputLen = mode.segmentBytes 16)
  mkey : 0 < j → tables.mkey.read (stc.keyLen / 8) = round.key
  miv : mode = .cfb1 → tables.miv.slice (16 * i) 16 = round.iv

/-- There is one result for each operation. -/
theorem length_operations (j : Nat) : (round.operations C mode encrypts j).2.length = j := by
  induction j with
  | zero => rfl
  | succ j ih => rw [AesRound.operations, List.length_append, ih, List.length_singleton]

/-- The results before an operation are those after it without the last one. -/
theorem operations_succ_getD (j k : Nat) :
    (round.operations C mode encrypts (j + 1)).2.getD k [] =
      if k = j then (C.operate mode encrypts round.key (round.operations C mode encrypts j).1
        (round.textOf mode (round.operations C mode encrypts j).2 j)).1
      else (round.operations C mode encrypts j).2.getD k [] := by
  rw [AesRound.operations]
  dsimp only
  have hlen := length_operations C mode encrypts round j
  rw [List.getD_eq_getElem?_getD, List.getD_eq_getElem?_getD, List.getElem?_append, hlen]
  rcases Nat.lt_trichotomy k j with hk | rfl | hk
  · rw [if_pos hk, if_neg (by omega)]
  · simp
  · rw [if_neg (by omega), if_neg (by omega), List.getElem?_eq_none (by simp; omega),
      List.getElem?_eq_none (by omega)]

/-- Every result is a segment. -/
theorem mask_results {j k : Nat} (h : k < j) :
    mode.mask ((round.operations C mode encrypts j).2.getD k []) =
      (round.operations C mode encrypts j).2.getD k [] := by
  induction j with
  | zero => omega
  | succ j ih =>
      rw [operations_succ_getD]
      split
      · exact BlockCipher.mask_operate
      · exact ih (by omega)

variable {C mode encrypts round i}

/-- A test case and the tables after an operation, when its result is in the tables. -/
structure AesDone (C : BlockCipher) (mode : BlockMode) (encrypts : Bool) (round : AesRound)
    (i j : Nat) (stc : SymCipherTc) (tables : AesTables) : Prop where
  tc : IsAesMct mode stc
  dir : stc.encrypts = encrypts
  index : stc.mctIndex = j
  key : stc.key.read (stc.keyLen / 8) = round.key
  iv : isChained mode = false ∨ j = 0 → stc.iv.read 16 = round.iv
  rows : ∀ k ≤ j,
    tables.row mode encrypts k = (round.operations C mode encrypts (j + 1)).2.getD k []
  output : stc.output.read (mode.segmentBytes 16) =
    (round.operations C mode encrypts (j + 1)).2.getD j []
  outputLen : mode ≠ .cfb1 → stc.outputLen = mode.segmentBytes 16
  mkey : tables.mkey.read (stc.keyLen / 8) = round.key
  miv : mode = .cfb1 → tables.miv.slice (16 * i) 16 = round.iv

/-- The state before an operation does not speak of the index. -/
theorem AesAt.withIndex {j : Nat} {stc : SymCipherTc} {tables : AesTables}
    (h : AesAt C mode encrypts round i j stc tables) (index : Nat) :
    AesAt C mode encrypts round i j { stc with mctIndex := index } tables :=
  ⟨⟨h.tc.mct, h.tc.cipher, h.tc.keyLen, h.tc.ivLen, h.tc.inputLen⟩, h.dir, h.key, h.iv, h.text,
    h.rows, h.output, h.mkey, h.miv⟩

/-- An operation that leaves the result of the standard takes the state before it to the one after.
-/
theorem AesAt.done {stc : SymCipherTc} {tables : AesTables}
    (h : AesAt C mode encrypts round i stc.mctIndex stc tables) {text : Memory} {len : Nat}
    (htext : text.read (mode.segmentBytes 16) =
      (C.operate mode encrypts round.key (round.operations C mode encrypts stc.mctIndex).1
        (round.textOf mode (round.operations C mode encrypts stc.mctIndex).2 stc.mctIndex)).1)
    (hlen : mode ≠ .cfb1 → len = mode.segmentBytes 16) :
    AesDone C mode encrypts round i stc.mctIndex (stc.withOutput text len)
      (aesMctKeep (stc.withOutput text len) tables) := by
  obtain rfl := h.dir
  have hoperation := operations_succ_getD C mode stc.encrypts round stc.mctIndex
  have hrow := row_aesMctKeep (show aesMode (stc.withOutput text len).cipher = _ from h.tc.cipher)
    (by simpa using hlen) tables
  have hmkey := mkey_aesMctKeep (stc.withOutput text len) tables
  rw [← htext] at hoperation
  refine ⟨⟨h.tc.mct, h.tc.cipher, h.tc.keyLen, h.tc.ivLen, ?_⟩, rfl, rfl, h.key, ?_, ?_, ?_,
    by simpa using hlen, ?_, by simpa using h.miv⟩
  · exact (SymCipherTc.inputLen_withOutput stc text len).trans h.tc.inputLen
  · intro hchained
    refine h.iv.trans (if_neg ?_)
    rintro ⟨hmode, hj⟩
    rcases hchained with hchained | hzero
    · rw [hmode] at hchained
      cases hchained
    · have hzero : stc.mctIndex = 0 := hzero
      omega
  · intro k hk
    rw [hoperation]
    refine (hrow k).trans ?_
    rw [SymCipherTc.output_withOutput]
    by_cases hlast : k = stc.mctIndex
    · exact (if_pos hlast).trans (if_pos hlast).symm
    · rw [if_neg hlast]
      exact (if_neg hlast).trans (h.rows k (by omega))
  · rw [SymCipherTc.output_withOutput, hoperation, if_pos rfl]
  · rw [hmkey]
    have hfits : stc.keyLen / 8 ≤ 32 := by
      rcases h.tc.keyLen with hlen | hlen | hlen <;> rw [hlen] <;> decide
    split
    · exact (Memory.read_copy _ _ hfits).trans h.key
    · rename_i hindex
      exact h.mkey (Nat.pos_of_ne_zero hindex)

/-- The test case and the tables before an operation, from the text and the initialization
vector that were fed back. -/
theorem AesDone.at_of_text {j : Nat} {stc : SymCipherTc} {tables tables' : AesTables}
    (h : AesDone C mode encrypts round i j stc tables) {text iv : Memory}
    (houtput : tables'.output encrypts = tables.output encrypts)
    (hmkey : tables'.mkey = tables.mkey) (hmiv : tables'.miv = tables.miv)
    (htext : mode.mask (text.read (mode.segmentBytes 16)) =
      round.textOf mode (round.operations C mode encrypts (j + 1)).2 (j + 1))
    (hiv : iv.read 16 =
      if isChained mode ∧ 2 ≤ j + 1 then (round.operations C mode encrypts (j + 1)).2.getD j []
      else round.iv) :
    AesAt C mode encrypts round i (j + 1) { stc.withInput text with iv := iv } tables' := by
  have hinput : ({ stc.withInput text with iv := iv } : SymCipherTc).input = text :=
    SymCipherTc.input_withInput stc text
  have hsame : ({ stc.withInput text with iv := iv } : SymCipherTc).output = stc.output :=
    SymCipherTc.output_withInput stc text
  refine ⟨⟨h.tc.mct, h.tc.cipher, h.tc.keyLen, h.tc.ivLen, h.tc.inputLen⟩, h.dir, h.key, hiv,
    hinput.symm ▸ htext, ?_, fun _ => ⟨hsame.symm ▸ h.output, h.outputLen⟩, fun _ => hmkey ▸ h.mkey,
    hmiv ▸ h.miv⟩
  intro k hk
  rw [AesTables.row, houtput]
  exact h.rows k (by omega)

/-- The text of the next operation is a segment of the vector or an earlier result. -/
theorem textOf_succ (results : List (List UInt8)) (j : Nat) :
    round.textOf mode results (j + 1) =
      if j < (ivSegments mode round.iv).length then (ivSegments mode round.iv).getD j []
      else results.getD (j - (ivSegments mode round.iv).length) [] := by
  rw [AesRound.textOf, List.getD_eq_getElem?_getD, List.getElem?_append]
  split <;> simp

/-- The modes on blocks feed back the initialization vector first and then the results but one. -/
theorem AesDone.fed_chained {j : Nat} {stc : SymCipherTc} {tables : AesTables}
    (h : AesDone C mode encrypts round i j stc tables)
    (hchained : isChained mode) :
    AesAt C mode encrypts round i (j + 1) (aesMctFeed mode stc i tables).1
      (aesMctFeed mode stc i tables).2 := by
  obtain rfl := h.dir
  obtain rfl := h.index
  have hmode : mode = .cbc ∨ mode = .ofb ∨ mode = .cfb := by
    revert hchained
    cases mode <;> simp [isChained]
  have hfeed : aesMctFeed mode stc i tables =
      if stc.mctIndex = 0 then
        (stc.withInput (stc.input.copy 0 symPtByteMax stc.iv 0 stc.ivLen), tables)
      else
        ({ stc.withInput (stc.input.copy 0 symPtByteMax (tables.output stc.encrypts)
            (32 * (stc.mctIndex - 1)) stc.outputLen) with
          iv := stc.iv.copy 0 symIvByteMax (tables.output stc.encrypts) (32 * stc.mctIndex)
            stc.outputLen }, tables) := by
    rcases hmode with rfl | rfl | rfl <;> rfl
  have hbytes : mode.segmentBytes 16 = 16 := by
    rcases hmode with rfl | rfl | rfl <;> rfl
  have hsegments : ivSegments mode round.iv = [round.iv] := by
    rcases hmode with rfl | rfl | rfl <;> rfl
  have hmask : ∀ data, mode.mask data = data := by
    rcases hmode with rfl | rfl | rfl <;> exact fun _ => rfl
  have hecb : mode ≠ .ecb := by
    rcases hmode with rfl | rfl | rfl <;> decide
  have hout : stc.outputLen = 16 := hbytes ▸ h.outputLen (by
    rcases hmode with rfl | rfl | rfl <;> decide)
  have hrow : ∀ k ≤ stc.mctIndex, (tables.output stc.encrypts).slice (32 * k) 16 =
      (round.operations C mode stc.encrypts (stc.mctIndex + 1)).2.getD k [] := hbytes ▸ h.rows
  rw [hfeed]
  split
  · rename_i hzero
    have hiv := h.iv (.inr hzero)
    refine h.at_of_text rfl rfl rfl ?_ (hiv.trans (if_neg (by omega)).symm)
    rw [hmask, textOf_succ, hsegments, if_pos (by simp [hzero]), h.tc.ivLen hecb, hbytes,
      Memory.read_copy_of_le (by decide) (Nat.le_refl _), Memory.slice_zero, hiv, hzero]
    rfl
  · rename_i hpos
    refine h.at_of_text rfl rfl rfl ?_ ?_
    · rw [hmask, textOf_succ, hsegments, if_neg (by simp [hpos]), hout, hbytes,
        Memory.read_copy_of_le (by decide) (Nat.le_refl _)]
      exact hrow _ (by omega)
    · rw [if_pos ⟨hchained, by omega⟩, hout, Memory.read_copy_of_le (by decide) (Nat.le_refl _)]
      exact hrow _ (Nat.le_refl _)

/-- What is fed back is the text of the next operation. -/
theorem AesDone.fed {j : Nat} {stc : SymCipherTc} {tables : AesTables}
    (h : AesDone C mode encrypts round i j stc tables) (hiv : round.iv.length = 16) :
    AesAt C mode encrypts round i (j + 1) (aesMctFeed mode stc i tables).1
      (aesMctFeed mode stc i tables).2 := by
  cases mode with
  | cbc => exact h.fed_chained rfl
  | ofb => exact h.fed_chained rfl
  | cfb => exact h.fed_chained rfl
  | ecb =>
      obtain rfl := h.dir
      obtain rfl := h.index
      have hsame := h.iv (.inl rfl)
      refine h.at_of_text rfl rfl rfl ?_ (hsame.trans (if_neg (by simp [isChained])).symm)
      rw [show stc.outputLen = 16 from h.outputLen (by decide)]
      exact (Memory.read_copy_of_le (by decide) (Nat.le_refl _) _ _ _).trans
        (h.rows _ (Nat.le_refl _))
  | cfb8 =>
      obtain rfl := h.dir
      obtain rfl := h.index
      have hsame := h.iv (.inl rfl)
      have hlength : (ivSegments .cfb8 round.iv).length = 16 := by
        rw [ivSegments, List.length_map, hiv]
      rw [aesMctFeed]
      dsimp only
      split
      · rename_i hfirst
        refine h.at_of_text rfl rfl rfl ?_ (hsame.trans (if_neg (by simp [isChained])).symm)
        rw [textOf_succ, hlength, if_pos hfirst, h.tc.ivLen (by decide)]
        refine (Memory.read_copy_of_le (by decide) (by decide) _ _ _).trans ?_
        simp [ivSegments, ← hsame, Memory.slice, Memory.read, BlockMode.segmentBytes,
          List.getD_eq_getElem?_getD, hfirst]
      · rename_i hlater
        refine h.at_of_text rfl rfl rfl ?_ (hsame.trans (if_neg (by simp [isChained])).symm)
        rw [textOf_succ, hlength, if_neg hlater,
          show stc.outputLen = 1 from h.outputLen (by decide)]
        exact (Memory.read_copy_of_le (by decide) (by decide) _ _ _).trans
          (h.rows _ (by omega))
  | cfb1 =>
      obtain rfl := h.dir
      obtain rfl := h.index
      have hsame := h.iv (.inl rfl)
      have hlength : (ivSegments .cfb1 round.iv).length = 128 := by
        rw [ivSegments, List.length_map, length_bitsOf, hiv]
      rw [aesMctFeed]
      dsimp only
      generalize hbit : (if stc.mctIndex < 128 then tables.miv.getBit (16 * i) stc.mctIndex
        else (tables.output stc.encrypts).getBit (32 * (stc.mctIndex - 128)) 0) = bit
      refine h.at_of_text (AesTables.output_withInput _ _ _) rfl rfl ?_
        (hsame.trans (if_neg (by simp [isChained])).symm)
      have hfed : topBit (Memory.read (Function.update stc.input 0
          ((tables.input stc.encrypts).setBit (32 * (stc.mctIndex + 1)) 0 bit
            (32 * (stc.mctIndex + 1)))) 1) = bit := by
        refine (topBit_cons _ []).trans ?_
        rw [Function.update_self]
        exact (Memory.getBit_setBit _ _ 0 0 bit).trans (if_pos rfl)
      rw [textOf_succ, hlength]
      refine (congrArg (fun bit => [bitByte bit]) hfed).trans ?_
      subst hbit
      split
      · rename_i hfirst
        simp [ivSegments, ← h.miv rfl, Memory.bitsOf_slice, List.getD_eq_getElem?_getD, hfirst]
      · have hrow := h.rows (stc.mctIndex - 128) (by omega)
        have hmask := mask_results C .cfb1 stc.encrypts round
          (show stc.mctIndex - 128 < stc.mctIndex + 1 by omega)
        rw [← hrow] at hmask ⊢
        rw [← Memory.topBit_slice]
        exact hmask

/-! ## A round -/

variable {p : Partner SymCipherTc}

/-- The state after an operation does not speak of the registers. -/
theorem AesDone.withRegisters {j : Nat} {stc : SymCipherTc} {tables : AesTables}
    (h : AesDone C mode encrypts round i j stc tables) (ivRet ivRetAfter : Memory) :
    AesDone C mode encrypts round i j { stc with ivRet := ivRet, ivRetAfter := ivRetAfter }
      tables :=
  ⟨⟨h.tc.mct, h.tc.cipher, h.tc.keyLen, h.tc.ivLen, h.tc.inputLen⟩, h.dir, h.index, h.key, h.iv,
    h.rows, h.output, h.outputLen, h.mkey, h.miv⟩

/-- The module does the operation of the procedure. -/
theorem AesAt.operate (hsize : C.size = 16) {stc : SymCipherTc} {tables : AesTables}
    (h : AesAt C mode encrypts round i stc.mctIndex stc tables) {st : Option ModuleState}
    (hst : 0 < stc.mctIndex →
      st = some ⟨round.key, (round.operations C mode encrypts stc.mctIndex).1⟩) :
    (aesModule C mode).start st stc =
        some ⟨round.key, (round.operations C mode encrypts stc.mctIndex).1⟩ ∧
      (aesModule C mode).operate ⟨round.key, (round.operations C mode encrypts stc.mctIndex).1⟩
          stc =
        ((C.operate mode encrypts round.key (round.operations C mode encrypts stc.mctIndex).1
          (round.textOf mode (round.operations C mode encrypts stc.mctIndex).2 stc.mctIndex)).1,
        ⟨round.key, (round.operations C mode encrypts (stc.mctIndex + 1)).1⟩) := by
  constructor
  · rw [SymModule.start]
    split
    · rename_i hzero
      have hiv : stc.iv.read C.size = round.iv := hsize ▸ h.iv.trans (if_neg (by omega))
      rw [h.key, hzero]
      exact congrArg (fun iv => some (ModuleState.mk round.key iv)) hiv
    · exact hst (by omega)
  · have htext : mode.mask (stc.input.read (mode.segmentBytes C.size)) =
        round.textOf mode (round.operations C mode encrypts stc.mctIndex).2 stc.mctIndex :=
      hsize ▸ h.text
    rw [SymModule.operate, h.dir]
    dsimp only [aesModule, SymModule.segmentBytes]
    rw [htext]
    rfl

/-- The inner loop computes the operations of the round, by induction on those left. -/
theorem runs_aesMctCalls (hsize : C.size = 16) (hp : (aesModule C mode).Implements p)
    (hiv : round.iv.length = 16) (n : Nat) :
    ∀ (j : Nat) (stc : SymCipherTc) (tables : AesTables) (st : Option ModuleState),
      AesAt C mode encrypts round i j stc tables →
      (0 < j → st = some ⟨round.key, (round.operations C mode encrypts j).1⟩) →
      ((aesModule C mode).setting p).Runs st (aesMctCalls i n j stc tables) fun end_ _ =>
        AesAt C mode encrypts round i (j + n) end_.1 end_.2 := by
  induction n with
  | zero => exact fun j stc tables st h _ => Setting.runs_pure h
  | succ n ih =>
    intro j stc tables st h hst
    rw [aesMctCalls]
    have hat : AesAt C mode encrypts round i ({ stc with mctIndex := j } : SymCipherTc).mctIndex
        { stc with mctIndex := j } tables := h.withIndex j
    refine Setting.runs_ask_bind trivial fun before hbefore => ?_
    subst hbefore
    obtain ⟨hstart, hoperate⟩ := hat.operate hsize hst
    obtain ⟨text, len, ivRet, ivRetAfter, hreply, htext, hlen, -⟩ := hp before _ _ hat.tc hstart
    rw [show ((aesModule C mode).setting p).partner before _ = _ from hreply]
    refine Setting.runs_ite (fun hcode => absurd rfl hcode) fun _ => ?_
    rw [hoperate] at htext
    have hseg : (aesModule C mode).segmentBytes = mode.segmentBytes 16 :=
      congrArg mode.segmentBytes hsize
    rw [hseg] at htext hlen
    have hdone := (hat.done htext hlen).withRegisters ivRet ivRetAfter
    rw [aesMctIterateTc_eq hdone.tc.cipher]
    refine Setting.runs_ofExcept_bind (fun b hb => ?_) fun _ he => by cases he
    obtain rfl := Except.ok.inj hb
    rw [← Nat.add_assoc, Nat.add_right_comm]
    refine ih (j + 1) _ _ _ (hdone.fed hiv) fun _ => ?_
    refine ((aesModule C mode).state_append hat.tc).trans ?_
    refine (congrArg (Option.map _) hstart).trans ?_
    exact congrArg (fun result => some result.2) hoperate

/-! ### What is reported -/

/-- A key has 32 bytes at most. -/
theorem keyLen_le {stc : SymCipherTc} (h : IsAesMct mode stc) : stc.keyLen / 8 ≤ 32 := by
  rcases h.keyLen with hlen | hlen | hlen <;> rw [hlen] <;> decide

/-- A text of a round is shown as far as its segment goes. -/
theorem setText_ok {stc : SymCipherTc} {rTobj : JsonObject} {name : String} {text : Memory}
    {len destMax : Nat} {data : List UInt8} (hcipher : aesMode stc.cipher = some mode)
    (hlen : mode ≠ .cfb1 → len = mode.segmentBytes 16)
    (htext : text.read (mode.segmentBytes 16) = data) (hmax : 32 ≤ destMax ∧ destMax < 2 ^ 31) :
    setMemory rTobj name text (if stc.cipher = .aesCfb1 then 1 else len) destMax =
      .ok (jsonObjectSetText rTobj name (hexString data)) := by
  have hseg := (segmentBytes_le mode).2
  have hsame : (if stc.cipher = .aesCfb1 then 1 else len) = mode.segmentBytes 16 := by
    by_cases hmode : mode = .cfb1
    · rw [if_pos ((aesMode_eq_cfb1 hcipher).mpr hmode), hmode]
      rfl
    · rw [if_neg (mt (aesMode_eq_cfb1 hcipher).mp hmode), hlen hmode]
  rw [hsame, setMemory_ok (by omega) hmax.2, htext]
  rfl

/-- The answer of a round starts with the request of the standard. -/
theorem aesOutputMctTc_request {stc : SymCipherTc} (h : IsAesMct mode stc)
    (hkey : stc.key.read (stc.keyLen / 8) = round.key) (hiv : stc.iv.read 16 = round.iv)
    (htext : stc.input.read (mode.segmentBytes 16) = round.text) :
    aesOutputMctTc stc = .ok (round.request mode stc.encrypts) := by
  have hkeyLen := keyLen_le h
  have hecb : stc.cipher = .aesEcb ↔ mode = .ecb := by
    have hcipher := h.cipher
    revert hcipher
    cases stc.cipher <;> simp [aesMode] <;> rintro rfl <;> simp
  have htext (rTobj : JsonObject) :
      (if stc.direction = .encrypt then
        setMemory rTobj "pt" stc.pt (if stc.cipher = .aesCfb1 then 1 else stc.ptLen) symPtMax
      else setMemory rTobj "ct" stc.ct (if stc.cipher = .aesCfb1 then 1 else stc.ctLen) symCtMax) =
        .ok (jsonObjectSetText rTobj (if stc.encrypts then "pt" else "ct")
          (hexString round.text)) := by
    rw [← setText_ok h.cipher (fun _ => h.inputLen) htext (by decide : 32 ≤ symPtMax ∧ _)]
    unfold SymCipherTc.input SymCipherTc.inputLen SymCipherTc.encrypts
    by_cases hdir : stc.direction = .encrypt <;> simp [hdir, symPtMax, symCtMax]
  rw [aesOutputMctTc, setMemory_ok (by unfold symCtMax; omega) (by decide), Guard.ok_bind, hkey]
  by_cases hmode : mode = .ecb
  · rw [Guard.onlyIf_neg (not_not.mpr (hecb.mpr hmode)), Guard.ok_bind, htext, AesRound.request,
      if_pos hmode]
    rfl
  · rw [Guard.onlyIf_pos (mt hecb.mp hmode), h.ivLen hmode, setMemory_ok (by decide) (by decide),
      Guard.ok_bind, htext, AesRound.request, if_neg hmode, hiv]
    rfl

/-- The text of an answer is the output in hexadecimal digits. -/
theorem aesMctText_ok {stc : SymCipherTc} {rTobj : JsonObject} {out : List UInt8}
    (hcipher : aesMode stc.cipher = some mode)
    (hlen : mode ≠ .cfb1 → stc.outputLen = mode.segmentBytes 16)
    (hout : stc.output.read (mode.segmentBytes 16) = out) :
    aesMctText stc rTobj =
      .ok (jsonObjectSetText rTobj (if stc.encrypts then "ct" else "pt") (hexString out)) := by
  rw [← setText_ok hcipher hlen hout (by decide : 32 ≤ symPtMax ∧ _)]
  unfold aesMctText SymCipherTc.output SymCipherTc.outputLen SymCipherTc.encrypts
  by_cases hdir : stc.direction = .encrypt <;> simp [hdir, symPtMax, symCtMax]

/-! ### The last results -/

/-- The rows of the results, one after the other. -/
theorem flatten_rows (f : Nat → Nat → UInt8) {w : Nat} (hw : 0 < w) (n : Nat) :
    ((List.range n).map fun k => (List.range w).map (f k)).flatten =
      (List.range (n * w)).map fun q => f (q / w) (q % w) := by
  induction n with
  | zero => simp
  | succ n ih =>
      rw [List.range_succ, List.map_append, List.flatten_append, ih, Nat.succ_mul, List.range_add,
        List.map_append, List.map_map]
      simp only [List.map_cons, List.map_nil, List.flatten_cons, List.flatten_nil, List.append_nil,
        List.append_cancel_left_eq]
      refine List.map_congr_left fun b hb => ?_
      have hb := List.mem_range.mp hb
      rw [Function.comp_apply, Nat.mul_comm n w, Nat.mul_add_div hw, Nat.div_eq_of_lt hb,
        Nat.add_zero, Nat.mul_add_mod, Nat.mod_eq_of_lt hb]

/-- The rightmost part of a table. -/
theorem rightmost_map_range {α : Type} (f : Nat → α) {n m : Nat} (h : n ≤ m) :
    rightmost n ((List.range m).map f) = (List.range n).map fun k => f (m - n + k) := by
  have hsplit : m = (m - n) + n := by omega
  rw [rightmost, List.length_map, List.length_range]
  conv_lhs => rw [hsplit, List.range_add, List.map_append, ← hsplit]
  rw [List.drop_left' (by simp), List.map_map]
  rfl

/-- The rows of a table hold the results. -/
def HoldsResults (C : BlockCipher) (mode : BlockMode) (encrypts : Bool) (round : AesRound)
    (text : Memory) : Prop :=
  ∀ k < 1000, text.slice (32 * k) (mode.segmentBytes 16) =
    (round.results C mode encrypts).getD k []

/-- The results of a round are the rows of the table. -/
theorem HoldsResults.results_eq {text : Memory} (h : HoldsResults C mode encrypts round text) :
    round.results C mode encrypts =
      (List.range 1000).map fun k => text.slice (32 * k) (mode.segmentBytes 16) := by
  refine List.ext_getElem ?_ fun k hk _ => ?_
  · rw [List.length_map, List.length_range]
    exact length_operations C mode encrypts round 1000
  · have hk : k < 1000 := (length_operations C mode encrypts round 1000) ▸ hk
    rw [List.getElem_map, List.getElem_range, h k hk, List.getD_eq_getElem?_getD,
      List.getElem?_eq_getElem, Option.getD_some]

/-- The last bytes of the results, in the modes on bytes and blocks. -/
theorem HoldsResults.lastBytes_eq {text : Memory} (h : HoldsResults C mode encrypts round text)
    (hsize : C.size = 16) (hmode : mode ≠ .cfb1) {n : Nat} (hn : n ≤ 1000) :
    round.lastBytes C mode encrypts n = (List.range n).map fun k =>
      text (32 * ((1000 * mode.segmentBytes 16 - n + k) / mode.segmentBytes 16) +
        (1000 * mode.segmentBytes 16 - n + k) % mode.segmentBytes 16) := by
  have hpos := (segmentBytes_le mode).1
  have hle : 1000 ≤ 1000 * mode.segmentBytes 16 := Nat.le_mul_of_pos_right _ hpos
  have hlengths : ∀ segment ∈ round.results C mode encrypts,
      segment.length = mode.segmentBytes C.size := by
    rw [h.results_eq, hsize]
    intro segment hsegment
    obtain ⟨k, -, rfl⟩ := List.mem_map.mp hsegment
    exact Memory.length_slice _ _ _
  rw [AesRound.lastBytes, BlockMode.stream_eq_bitsOf mode C.size hmode hlengths, rightmost_bitsOf,
    packBits_bitsOf, h.results_eq]
  refine (congrArg (rightmost n) (flatten_rows (fun k b => text (32 * k + b)) hpos 1000)).trans ?_
  exact rightmost_map_range _ (hn.trans hle)

/-- The last bits of the results, in the mode on bits. -/
theorem HoldsResults.lastBits_eq {text : Memory} (h : HoldsResults C .cfb1 encrypts round text)
    {n : Nat} (hn : 8 * n ≤ 1000) :
    round.lastBytes C .cfb1 encrypts n = packBits ((List.range (8 * n)).map fun k =>
      text.getBit (32 * (1000 - 8 * n + k)) 0) := by
  have hstream : BlockMode.stream .cfb1 C.size (round.results C .cfb1 encrypts) =
      (List.range 1000).map fun k => text.getBit (32 * k) 0 := by
    rw [h.results_eq, BlockMode.stream, List.flatMap_map, List.map_eq_flatMap]
    refine List.flatMap_congr fun k _ => ?_
    rw [Memory.bitsOf_slice]
    rfl
  rw [AesRound.lastBytes, hstream, rightmost_map_range _ hn]

/-! ### The next round -/

/-- How {lit}`amvp_aes_mct_tc` goes on to the next round. -/
def aesMctGoOn (mode : BlockMode) (stc : SymCipherTc) (i : Nat) (tables : AesTables)
    (ciphertext : Memory) : SymCipherTc × AesTables × Memory :=
  let text := tables.output stc.encrypts
  let keep (first : UInt8) :=
    tables.withInput stc.encrypts (Function.update (tables.input stc.encrypts) 0 first)
  match mode with
  | .cfb8 =>
    ({ stc with iv := lastBytes text 16 stc.iv }, keep (text (32 * 983)),
      lastBytes text (stc.keyLen / 8) ciphertext)
  | .cfb1 =>
    let first := text (32 * 871) &&& 0x80
    let miv := lastBits text 128 tables.miv (16 * (i + 1))
    ({ stc.withInput (Function.update stc.input 0 first) with
        iv := stc.iv.copy 0 symIvByteMax miv (16 * (i + 1)) stc.ivLen },
      { keep first with miv := miv }, lastBits text stc.keyLen ciphertext 0)
  | _ => (stc, tables, lastBlocks text stc.keyLen ciphertext)

/-- The turn from one round to the next, with the mode instead of the cipher. -/
theorem aesMctTurn_eq {stc : SymCipherTc} (hcipher : aesMode stc.cipher = some mode) (i : Nat)
    (tables : AesTables) (ciphertext : Memory) :
    aesMctTurn stc i tables ciphertext = aesMctGoOn mode stc i tables ciphertext := by
  cases stc with
  | mk cipher conformance testType direction =>
      cases cipher <;> cases hcipher <;> cases direction <;> rfl

/-- A test case and the tables at the start of a round. -/
structure AesStart (mode : BlockMode) (encrypts : Bool) (round : AesRound) (i : Nat)
    (stc : SymCipherTc) (tables : AesTables) : Prop where
  tc : IsAesMct mode stc
  dir : stc.encrypts = encrypts
  key : stc.key.read (stc.keyLen / 8) = round.key
  iv : stc.iv.read 16 = round.iv
  text : stc.input.read (mode.segmentBytes 16) = round.text
  segment : mode.mask round.text = round.text
  miv : mode = .cfb1 → tables.miv.slice (16 * i) 16 = round.iv

/-- A test case that starts a round is in the state before its first operation. -/
theorem AesStart.before {stc : SymCipherTc} {tables : AesTables}
    (h : AesStart mode encrypts round i stc tables) :
    AesAt C mode encrypts round i 0 stc tables :=
  ⟨h.tc, h.dir, h.key, h.iv.trans (if_neg (by omega)).symm,
    (congrArg mode.mask h.text).trans h.segment, fun k hk => absurd hk (Nat.not_lt_zero k),
    fun hpos => absurd hpos (Nat.lt_irrefl 0), fun hpos => absurd hpos (Nat.lt_irrefl 0), h.miv⟩

/-- The next key is the exclusive or of the round's key and the text for it. -/
theorem read_aesMctKey (stc : SymCipherTc) (tables : AesTables) (ciphertext : Memory) :
    (aesMctKey stc tables ciphertext).key.read (stc.keyLen / 8) =
      xorBlocks (tables.mkey.read (stc.keyLen / 8)) (ciphertext.read (stc.keyLen / 8)) := by
  calc
    (aesMctKey stc tables ciphertext).key.read (stc.keyLen / 8) =
        (List.range (stc.keyLen / 8)).map fun k => tables.mkey k ^^^ ciphertext k :=
      List.map_congr_left fun k hk => if_pos (List.mem_range.mp hk)
    _ = xorBlocks (tables.mkey.read (stc.keyLen / 8)) (ciphertext.read (stc.keyLen / 8)) := by
      rw [xorBlocks, Memory.read, Memory.read, List.zipWith_map, List.zipWith_self]

/-- After a thousand operations the table holds the results of the round. -/
theorem AesAt.holdsResults {stc : SymCipherTc} {tables : AesTables}
    (h : AesAt C mode encrypts round i 1000 stc tables) :
    HoldsResults C mode encrypts round (tables.output stc.encrypts) := fun k hk =>
  h.dir ▸ h.rows k hk

/-- The last blocks of a table. -/
theorem read_lastBlocks (text : Memory) {keyLen : Nat}
    (hlen : keyLen = 128 ∨ keyLen = 192 ∨ keyLen = 256) (dest : Memory) :
    (lastBlocks text keyLen dest).read (keyLen / 8) = (List.range (keyLen / 8)).map fun k =>
      text (32 * ((16000 - keyLen / 8 + k) / 16) + (16000 - keyLen / 8 + k) % 16) := by
  refine List.map_congr_left fun k hk => ?_
  have hk := List.mem_range.mp hk
  rcases hlen with rfl | rfl | rfl
  · rw [lastBlocks, Memory.copy_apply (by decide), if_pos (by omega)]
    congr 1
    omega
  · rw [lastBlocks, Memory.copy_apply (by decide)]
    split
    · congr 1
      omega
    · rw [Memory.copy_apply (by decide), if_pos (by omega)]
      congr 1
      omega
  · rw [lastBlocks, Memory.copy_apply (by decide)]
    split
    · congr 1
      omega
    · rw [Memory.copy_apply (by decide), if_pos (by omega)]
      congr 1
      omega

/-- The last bits that were copied are those of the last rows. -/
theorem slice_lastBits (text dest : Memory) {n : Nat} (hn : 8 * n ≤ 1000) (at_ : Nat) :
    (lastBits text (8 * n) dest at_).slice at_ n =
      packBits ((List.range (8 * n)).map fun k => text.getBit (32 * (1000 - 8 * n + k)) 0) := by
  rw [← packBits_bitsOf (Memory.slice _ _ _), Memory.bitsOf_slice]
  congr 1
  refine List.map_congr_left fun k hk => ?_
  have hk := List.mem_range.mp hk
  rw [lastBits, Memory.getBit_setBits, if_pos hk]
  congr 1
  omega

/-- The key of a round has the length of the test case. -/
theorem AesAt.length_key {j : Nat} {stc : SymCipherTc} {tables : AesTables}
    (h : AesAt C mode encrypts round i j stc tables) : round.key.length = stc.keyLen / 8 := by
  rw [← h.key, Memory.read_length]

/-- The key of the next round. -/
theorem AesAt.next_key {stc : SymCipherTc} {tables : AesTables}
    (h : AesAt C mode encrypts round i 1000 stc tables) {ciphertext : Memory}
    (hlast : ciphertext.read (stc.keyLen / 8) =
      round.lastBytes C mode encrypts (stc.keyLen / 8)) :
    xorBlocks (tables.mkey.read (stc.keyLen / 8)) (ciphertext.read (stc.keyLen / 8)) =
      (round.next C mode encrypts).key := by
  rw [h.mkey (by omega), hlast, AesRound.next, h.length_key]

/-- In the modes on blocks the next round starts where the round ends. -/
theorem AesAt.goOn_blocks (hsize : C.size = 16) {stc : SymCipherTc} {tables : AesTables}
    (h : AesAt C mode encrypts round i 1000 stc tables) (hblocks : mode.segmentBytes 16 = 16)
    (hmask : ∀ data, mode.mask data = data) (hecb : mode = .ecb ∨ isChained mode)
    (ciphertext : Memory) :
    AesStart mode encrypts (round.next C mode encrypts) (i + 1)
      (aesMctKey stc tables (lastBlocks (tables.output stc.encrypts) stc.keyLen ciphertext))
      tables := by
  have hbits : mode ≠ .cfb1 := by
    rintro rfl
    cases hblocks
  have hrows := h.holdsResults
  have hlast : ∀ n ≤ 1000, round.lastBytes C mode encrypts n = (List.range n).map fun k =>
      tables.output stc.encrypts
        (32 * ((16000 - n + k) / 16) + (16000 - n + k) % 16) := by
    intro n hn
    rw [hrows.lastBytes_eq hsize hbits hn, hblocks]
  refine ⟨⟨h.tc.mct, h.tc.cipher, h.tc.keyLen, h.tc.ivLen, h.tc.inputLen⟩, h.dir, ?_, ?_,
    (hmask _).symm.trans h.text, hmask _, fun hcfb1 => absurd hcfb1 hbits⟩
  · have hkeyLen := keyLen_le h.tc
    refine (read_aesMctKey _ _ _).trans (h.next_key ?_)
    rw [hlast _ (by omega)]
    exact read_lastBlocks _ h.tc.keyLen _
  · rw [AesRound.next]
    rcases hecb with hecb | hchained
    · rw [if_pos hecb]
      refine h.iv.trans (if_neg ?_)
      rw [hecb]
      simp [isChained]
    · have hne : mode ≠ .ecb := by
        rintro rfl
        cases hchained
      rw [if_neg hne, hsize, hlast 16 (by decide)]
      refine h.iv.trans ((if_pos ⟨hchained, by decide⟩).trans ?_)
      refine (hrows 999 (by decide)).symm.trans ?_
      rw [hblocks]
      dsimp only
      refine List.map_congr_left fun k hk => ?_
      have hk := List.mem_range.mp hk
      congr 1
      omega

/-- The next round starts where the round ends. -/
theorem AesAt.goOn (hsize : C.size = 16) (hiv : round.iv.length = 16) {stc : SymCipherTc}
    {tables : AesTables} (h : AesAt C mode encrypts round i 1000 stc tables)
    (ciphertext : Memory) :
    AesStart mode encrypts (round.next C mode encrypts) (i + 1)
      (aesMctKey (aesMctGoOn mode stc i tables ciphertext).1
        (aesMctGoOn mode stc i tables ciphertext).2.1
        (aesMctGoOn mode stc i tables ciphertext).2.2)
      (aesMctGoOn mode stc i tables ciphertext).2.1 := by
  have hkeyLen := keyLen_le h.tc
  have hrows := h.holdsResults
  cases mode with
  | ecb => exact h.goOn_blocks hsize rfl (fun _ => rfl) (.inl rfl) ciphertext
  | cbc => exact h.goOn_blocks hsize rfl (fun _ => rfl) (.inr rfl) ciphertext
  | ofb => exact h.goOn_blocks hsize rfl (fun _ => rfl) (.inr rfl) ciphertext
  | cfb => exact h.goOn_blocks hsize rfl (fun _ => rfl) (.inr rfl) ciphertext
  | cfb8 =>
      have hlast : ∀ n ≤ 1000, ∀ dest : Memory,
          (lastBytes (tables.output stc.encrypts) n dest).read n =
            round.lastBytes C .cfb8 encrypts n := by
        intro n hn dest
        rw [hrows.lastBytes_eq hsize (by decide) hn]
        refine List.map_congr_left fun k hk => ?_
        have hk := List.mem_range.mp hk
        rw [lastBytes, if_pos hk]
        simp only [BlockMode.segmentBytes, Nat.mul_one, Nat.div_one, Nat.mod_one, Nat.add_zero]
        congr 1
        omega
      refine ⟨⟨h.tc.mct, h.tc.cipher, h.tc.keyLen, h.tc.ivLen, h.tc.inputLen⟩, h.dir, ?_, ?_,
        h.text, rfl, by simp⟩
      · exact (read_aesMctKey _ _ _).trans (h.next_key (hlast _ (by omega) _))
      · refine (hlast 16 (by decide) _).trans ?_
        simp [AesRound.next, hsize]
  | cfb1 =>
      have hlast : ∀ n, 8 * n ≤ 1000 → ∀ (dest : Memory) (at_ : Nat),
          (lastBits (tables.output stc.encrypts) (8 * n) dest at_).slice at_ n =
            round.lastBytes C .cfb1 encrypts n := fun n hn dest at_ => by
        rw [hrows.lastBits_eq hn, slice_lastBits _ _ hn]
      have hbytes : stc.keyLen = 8 * (stc.keyLen / 8) := by
        rcases h.tc.keyLen with hlen | hlen | hlen <;> rw [hlen]
      have hnextIv : (lastBits (tables.output stc.encrypts) 128 tables.miv (16 * (i + 1))).slice
          (16 * (i + 1)) 16 = (round.next C .cfb1 encrypts).iv := by
        refine (hlast 16 (by decide) tables.miv _).trans ?_
        simp [AesRound.next, hsize]
      have htext : (round.next C .cfb1 encrypts).text =
          (round.operations C .cfb1 encrypts 1000).2.getD 871 [] := by
        have hlength : (ivSegments .cfb1 round.iv).length = 128 := by
          rw [ivSegments, List.length_map, length_bitsOf, hiv]
        refine (textOf_succ _ 999).trans ?_
        rw [hlength]
        rfl
      have hmask := mask_results C .cfb1 encrypts round (show 871 < 1000 by decide)
      refine ⟨⟨h.tc.mct, h.tc.cipher, h.tc.keyLen, h.tc.ivLen, h.tc.inputLen⟩, h.dir, ?_, ?_, ?_,
        htext ▸ hmask, fun _ => hnextIv⟩
      · refine (read_aesMctKey _ _ _).trans (h.next_key ?_)
        refine (Memory.slice_zero _ _).symm.trans ?_
        refine (congrArg (fun n => Memory.slice (lastBits _ n _ _) _ _) hbytes).trans ?_
        exact hlast _ (by omega) ciphertext 0
      · refine Eq.trans ?_ hnextIv
        refine (congrArg (fun n => Memory.read (Memory.copy _ 0 _ _ _ n) 16)
          (h.tc.ivLen (by decide))).trans ?_
        exact Memory.read_copy_of_le (by decide) (Nat.le_refl 16) _ _ _
      · rw [htext, ← hmask]
        refine (congrArg (Memory.read · 1) (SymCipherTc.input_withInput stc _)).trans ?_
        refine Eq.trans ?_ (congrArg (fun row => [bitByte (topBit row)]) (hrows 871 (by decide)))
        refine Eq.trans ?_ (congrArg (fun bit => [bitByte bit]) (Memory.topBit_slice _ _).symm)
        exact congrArg (fun byte => [byte]) (and_top_eq _)

/-! ## The test -/

/-- The answers of a run, the first one apart. -/
theorem entries_succ (n : Nat) : round.entries C mode encrypts (n + 1) =
    round.entry C mode encrypts :: (round.next C mode encrypts).entries C mode encrypts n := by
  rw [AesRound.entries, List.range_succ_eq_map, List.map_cons, List.map_map]
  rfl

/-- The outer loop answers the rounds of the standard, by induction on those left. -/
theorem runs_aesMctRounds (hsize : C.size = 16) (hp : (aesModule C mode).Implements p) (n : Nat) :
    ∀ (i : Nat) (round : AesRound) (stc : SymCipherTc) (tables : AesTables) (ciphertext : Memory)
      (st : Option ModuleState), AesStart mode encrypts round i stc tables →
      ((aesModule C mode).setting p).Runs st (aesMctRounds n i stc tables ciphertext)
        fun result _ => result.1 = round.entries C mode encrypts n := by
  induction n with
  | zero => exact fun i round stc tables ciphertext st h => Setting.runs_pure rfl
  | succ n ih =>
    intro i round stc tables ciphertext st h
    have hiv : round.iv.length = 16 := by rw [← h.iv, Memory.read_length]
    rw [aesMctRounds, aesOutputMctTc_request h.tc h.key h.iv h.text]
    refine Setting.runs_ofExcept_bind (fun rTobj hrTobj => ?_) fun _ he => by cases he
    obtain rfl := Except.ok.inj hrTobj
    refine (runs_aesMctCalls hsize hp hiv aesMctInner 0 stc tables st h.before
      fun hpos => absurd hpos (Nat.lt_irrefl 0)).bind fun ⟨stc', tables'⟩ st' hend => ?_
    rw [Nat.zero_add] at hend
    have hend : AesAt C mode encrypts round i 1000 stc' tables' := hend
    obtain ⟨hout, houtLen⟩ := hend.output (by decide)
    dsimp only
    rw [aesMctText_ok hend.tc.cipher houtLen hout]
    refine Setting.runs_ofExcept_bind (fun rTobj hrTobj => ?_) fun _ he => by cases he
    obtain rfl := Except.ok.inj hrTobj
    rw [aesMctTurn_eq hend.tc.cipher]
    refine (ih (i + 1) _ _ _ _ st' (hend.goOn hsize hiv ciphertext)).bind
      fun ⟨results, tables''⟩ _ hresults => Setting.runs_pure ?_
    rw [entries_succ, ← hresults, hend.dir, h.dir]
    rfl

end Operation

/-- The loops report the rounds of the procedure, which starts from the key, the initialization
vector and the text of the test. -/
theorem aesMctTc_standard (C : BlockCipher) (hsize : C.size = 16) (mode : BlockMode)
    {p : Partner SymCipherTc} (hp : (aesModule C mode).Implements p) (before : List SymCipherTc)
    (stc : SymCipherTc) (tables : AesTables) (htc : IsAesMct mode stc)
    (hsegment : mode.mask (stc.input.read (mode.segmentBytes 16)) =
      stc.input.read (mode.segmentBytes 16)) :
    ∃ tables', (aesMctTc stc tables p before).1 =
      .ok (AesRound.entries C mode stc.encrypts
        ⟨stc.key.read (stc.keyLen / 8), stc.iv.read 16,
          stc.input.read (mode.segmentBytes 16)⟩ 100, tables') := by
  have hstart : AesStart mode stc.encrypts
      ⟨stc.key.read (stc.keyLen / 8), stc.iv.read 16, stc.input.read (mode.segmentBytes 16)⟩ 0 stc
      { tables with miv := tables.miv.copy 0 16 stc.iv 0 stc.ivLen } := by
    refine ⟨htc, rfl, rfl, rfl, rfl, hsegment, fun hmode => ?_⟩
    rw [Nat.mul_zero, htc.ivLen (by rw [hmode]; decide), Memory.slice_copy (by decide),
      Memory.slice_zero]
  obtain ⟨⟨results, tables'⟩, _, hrun, hresults⟩ :=
    (runs_aesMctRounds hsize hp 100 0 _ stc _ .zero (((aesModule C mode).setting p).state before)
      hstart).ok (fun _ => id) rfl
  refine ⟨tables', (congrArg Prod.fst hrun).trans ?_⟩
  rw [← hresults]

/-- A test that decrypts bits with a key of 192 bits. -/
def cfb1Tc : SymCipherTc where
  cipher := .aesCfb1
  testType := .mct
  direction := .decrypt
  tcId := 1
  ct := .ofBytes [0x80]
  keyLen := 192
  ivLen := 16
  ctLen := 1

/-- The statement at decryption with feedback of one bit and a key of 192 bits. -/
theorem aesMctTc_standard_cfb1 : ∃ tables',
    (aesMctTc cfb1Tc {} (aesModule (xorCipher 16) .cfb1).reference []).1 =
      .ok (AesRound.entries (xorCipher 16) .cfb1 false
        ⟨Memory.zero.read 24, Memory.zero.read 16, [0x80]⟩ 100, tables') :=
  aesMctTc_standard (xorCipher 16) rfl .cfb1 (SymModule.reference_implements (by decide)) [] cfb1Tc
    {} ⟨rfl, rfl, .inr (.inl rfl), fun _ => rfl, rfl⟩ rfl

end LibAmvp
