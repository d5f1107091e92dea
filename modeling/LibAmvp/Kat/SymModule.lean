import LibAmvp.Kat.SymCipher
import LibAmvp.Lib.BlockMode
import LibAmvp.Lib.Machine

/-!
# Modules of symmetric ciphers

What a crypto module does in a Monte Carlo test: one operation of a mode for every question,
over any block cipher.  It keeps the key and the register of the mode between the questions.

Main results:

- Theorem {lit}`SymModule.reference_implements`: for every block cipher there is a module.
-/

namespace LibAmvp

open Bits

/-- The hexadecimal form of bytes. -/
def hexString (data : List UInt8) : Option String := some (String.ofList (hexDigits data))

/-! ## Test cases without a direction -/

namespace SymCipherTc

variable (tc : SymCipherTc) (text : Memory) (len : Nat)

/-- Whether the crypto module encrypts. -/
def encrypts : Bool := tc.direction = .encrypt

/-- The text that is encrypted or decrypted. -/
def input : Memory := if tc.encrypts then tc.pt else tc.ct

def inputLen : Nat := if tc.encrypts then tc.ptLen else tc.ctLen

/-- The text that it becomes. -/
def output : Memory := if tc.encrypts then tc.ct else tc.pt

def outputLen : Nat := if tc.encrypts then tc.ctLen else tc.ptLen

def withInput : SymCipherTc :=
  { tc with
    pt := if tc.encrypts then text else tc.pt
    ct := if tc.encrypts then tc.ct else text }

def withOutput : SymCipherTc :=
  { tc with
    pt := if tc.encrypts then tc.pt else text
    ptLen := if tc.encrypts then tc.ptLen else len
    ct := if tc.encrypts then text else tc.ct
    ctLen := if tc.encrypts then len else tc.ctLen }

/-- Setting the input keeps the direction. -/
@[simp]
theorem encrypts_withInput : (tc.withInput text).encrypts = tc.encrypts :=
  rfl

/-- So does setting the output. -/
@[simp]
theorem encrypts_withOutput : (tc.withOutput text len).encrypts = tc.encrypts :=
  rfl

/-- The input is the one that was set. -/
@[simp]
theorem input_withInput : (tc.withInput text).input = text := by
  rw [input, encrypts_withInput]
  cases h : tc.encrypts <;> simp [withInput, h]

/-- Setting the input keeps the output. -/
@[simp]
theorem output_withInput : (tc.withInput text).output = tc.output := by
  rw [output, encrypts_withInput]
  cases h : tc.encrypts <;> simp [output, withInput, h]

/-- Setting the output keeps the input. -/
@[simp]
theorem input_withOutput : (tc.withOutput text len).input = tc.input := by
  rw [input, encrypts_withOutput]
  cases h : tc.encrypts <;> simp [input, withOutput, h]

/-- And its length. -/
@[simp]
theorem inputLen_withOutput : (tc.withOutput text len).inputLen = tc.inputLen := by
  rw [inputLen, encrypts_withOutput]
  cases h : tc.encrypts <;> simp [inputLen, withOutput, h]

/-- The output is the one that was set. -/
@[simp]
theorem output_withOutput : (tc.withOutput text len).output = text := by
  rw [output, encrypts_withOutput]
  cases h : tc.encrypts <;> simp [withOutput, h]

/-- So is its length. -/
@[simp]
theorem outputLen_withOutput : (tc.withOutput text len).outputLen = len := by
  rw [outputLen, encrypts_withOutput]
  cases h : tc.encrypts <;> simp [withOutput, h]

end SymCipherTc

/-! ## Modules -/

/-- What a module keeps between the operations of a round. -/
structure ModuleState where
  key : List UInt8
  reg : List UInt8

/-- A mode over a block cipher, for some test cases. -/
structure SymModule where
  cipher : BlockCipher
  mode : BlockMode
  IsTest : SymCipherTc → Prop
  decIsTest : DecidablePred IsTest
  /-- Whether the registers before and after an operation are reported. -/
  Reports : Prop

namespace SymModule

variable (M : SymModule)

instance : DecidablePred M.IsTest := M.decIsTest

/-- The bytes of a segment. -/
def segmentBytes : Nat := M.mode.segmentBytes M.cipher.size

/-- What a module starts an operation with: the key and the initialization vector when the index
is zero, and what it has kept otherwise. -/
def start (st : Option ModuleState) (tc : SymCipherTc) : Option ModuleState :=
  if tc.mctIndex = 0 then some ⟨tc.key.read (tc.keyLen / 8), tc.iv.read M.cipher.size⟩ else st

/-- The segment that an operation yields, and what is kept after it. -/
def operate (st : ModuleState) (tc : SymCipherTc) : List UInt8 × ModuleState :=
  let (out, reg) := M.cipher.operate M.mode tc.encrypts st.key st.reg
    (M.mode.mask (tc.input.read M.segmentBytes))
  (out, ⟨st.key, reg⟩)

/-- What a module keeps after a number of questions, where these are tests. -/
def state (before : List SymCipherTc) : Option ModuleState :=
  before.foldl
    (fun st tc => if M.IsTest tc then (M.start st tc).map fun st => (M.operate st tc).2 else none)
    none

/-- A module does the operations: it writes the segment and its length, and the registers where
they are reported. -/
def Implements (p : Partner SymCipherTc) : Prop :=
  ∀ before tc st, M.IsTest tc → M.start (M.state before) tc = some st →
    ∃ text len ivRet ivRetAfter,
      p before tc = (0, { tc.withOutput text len with ivRet := ivRet, ivRetAfter := ivRetAfter }) ∧
      text.read M.segmentBytes = (M.operate st tc).1 ∧
      (M.mode ≠ .cfb1 → len = M.segmentBytes) ∧
      (M.Reports → ivRet.read M.cipher.size = st.reg ∧
        ivRetAfter.read M.cipher.size = (M.operate st tc).2.reg)

/-- The state after one more test. -/
theorem state_append {before : List SymCipherTc} {tc : SymCipherTc} (htc : M.IsTest tc) :
    M.state (before ++ [tc]) =
      (M.start (M.state before) tc).map fun st => (M.operate st tc).2 := by
  rw [state, List.foldl_append, List.foldl_cons, List.foldl_nil, if_pos htc]
  rfl

/-- A module with what it keeps. -/
def setting (p : Partner SymCipherTc) : Setting SymCipherTc AmvpResult (Option ModuleState) where
  partner := p
  state := M.state

/-! ### A module for every block cipher -/

/-- The module that does what the operations yield. -/
def reference : Partner SymCipherTc := fun before tc =>
  match M.start (M.state before) tc with
  | none => (1, tc)
  | some st =>
    (0, { tc.withOutput (.ofBytes (M.operate st tc).1) M.segmentBytes with
      ivRet := .ofBytes st.reg
      ivRetAfter := .ofBytes (M.operate st tc).2.reg })

variable {M}

/-- The register keeps the size of a block, and the output has that of a segment. -/
theorem length_reg (hpos : 0 < M.cipher.size) {st : ModuleState}
    (hst : st.reg.length = M.cipher.size) (tc : SymCipherTc) :
    (M.operate st tc).1.length = M.segmentBytes ∧
      (M.operate st tc).2.reg.length = M.cipher.size :=
  BlockCipher.length_operate hpos hst (BlockCipher.length_mask (Memory.read_length _ _))

/-- The register a test starts with has the size of a block. -/
theorem length_start {st : Option ModuleState}
    (hst : ∀ s, st = some s → s.reg.length = M.cipher.size) {tc : SymCipherTc} {s : ModuleState}
    (h : M.start st tc = some s) : s.reg.length = M.cipher.size := by
  unfold start at h
  split at h
  · cases h
    exact Memory.read_length _ _
  · exact hst s h

/-- The register has the length of a block. -/
theorem length_state (hpos : 0 < M.cipher.size) (before : List SymCipherTc) {s : ModuleState}
    (h : M.state before = some s) : s.reg.length = M.cipher.size := by
  induction before using List.reverseRecOn generalizing s with
  | nil => cases h
  | append_singleton before tc ih =>
      by_cases htc : M.IsTest tc
      · rw [M.state_append htc] at h
        obtain ⟨s₀, hs₀, rfl⟩ := Option.map_eq_some_iff.mp h
        exact (length_reg hpos (length_start (fun _ => ih) hs₀) tc).2
      · rw [state, List.foldl_append, List.foldl_cons, List.foldl_nil, if_neg htc] at h
        cases h

/-- The reference module implements its cipher. -/
theorem reference_implements (hpos : 0 < M.cipher.size) : M.Implements M.reference := by
  intro before tc st _ hstart
  have hreg := length_start (fun _ => length_state hpos before) hstart
  obtain ⟨hout, hafter⟩ := length_reg hpos hreg tc
  refine ⟨.ofBytes (M.operate st tc).1, M.segmentBytes, .ofBytes st.reg,
    .ofBytes (M.operate st tc).2.reg, by rw [reference, hstart], ?_, fun _ => rfl, fun _ => ⟨?_, ?_⟩⟩
  · exact Memory.read_ofBytes hout
  · exact Memory.read_ofBytes hreg
  · exact Memory.read_ofBytes hafter

end SymModule

/-- A block cipher that combines the block with the key. -/
def xorCipher (size : Nat) : BlockCipher where
  size := size
  encrypt key block := (List.range size).map fun k => block.getD k 0 ^^^ key.getD k 0
  decrypt key block := (List.range size).map fun k => block.getD k 0 ^^^ key.getD k 0
  length_encrypt _ _ := by simp
  length_decrypt _ _ := by simp

end LibAmvp
