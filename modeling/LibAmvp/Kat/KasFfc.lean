import LibAmvp.Capabilities.KeyAgreement
import LibAmvp.Kat.VectorSet

/-!
# KAS-FFC

What the handlers of the key agreement over finite fields make of a test: the test case
structure, and the answer from what the module has left in it.  The component test and the
shared secret test fill the structure by one function.
-/

namespace LibAmvp

open Guard

def kasFfcByteMax : Nat := 2048
def kasFfcStrMax : Nat := 4096

/-- {lit}`AMVP_KAS_FFC_TEST_TYPE`. -/
inductive KasFfcTestType where
  | aft | val
deriving DecidableEq

/-- {lit}`AMVP_KAS_FFC_TC`. -/
structure KasFfcTc where
  testType : KasFfcTestType
  md : Option HashAlg
  dgm : KasFfcParam
  p : Bytes := {}
  q : Bytes := {}
  g : Bytes := {}
  eps : Bytes
  epri : Bytes := .fresh kasFfcByteMax
  epui : Bytes := .fresh kasFfcByteMax
  z : Bytes := .fresh kasFfcByteMax
  chash : Bytes := .fresh kasFfcByteMax
  piut : Bytes := .fresh kasFfcByteMax
deriving DecidableEq

/-- The strings of a test and of its group. -/
structure KasFfcTest where
  p : Option String := none
  q : Option String := none
  g : Option String := none
  eps : Option String := none
  epri : Option String := none
  epui : Option String := none
  z : Option String := none

/-- {lit}`amvp_kas_ffc_init_comp_tc`. -/
def kasFfcInitCompTc (hashAlg : Option HashAlg) (dgm : KasFfcParam) (test : KasFfcTest)
    (testType : KasFfcTestType) : Except AmvpResult KasFfcTc := do
  let given := dgm = .fb ∨ dgm = .fc
  let p ← onlyIf given (decodeBytes test.p kasFfcByteMax) {}
  let q ← onlyIf given (decodeBytes test.q kasFfcByteMax) {}
  let g ← onlyIf given (decodeBytes test.g kasFfcByteMax) {}
  let eps ← decodeBytes test.eps kasFfcByteMax
  let z ← onlyIf (testType = .val) (decodeBytes test.z kasFfcByteMax) (.fresh kasFfcByteMax)
  let epri ← onlyIf (testType = .val) (decodeBytes test.epri kasFfcByteMax) (.fresh kasFfcByteMax)
  let epui ← onlyIf (testType = .val) (decodeBytes test.epui kasFfcByteMax) (.fresh kasFfcByteMax)
  pure { testType, md := hashAlg, dgm, p, q, g, eps, epri, epui, z }

/-- {lit}`memcmp_s` finds no difference between the result of the module and the expected
one.  It does not compare when one is missing, or when the expected one is empty or too
long. -/
def KasFfcTc.sameHash (stc : KasFfcTc) : Bool :=
  stc.chash.data ≠ none ∧ stc.z.data ≠ none ∧ 0 < stc.z.len ∧ stc.z.len ≤ kasFfcByteMax ∧
    (stc.chash.data.getD ⟨0, []⟩).read stc.z.len.toNat =
      (stc.z.data.getD ⟨0, []⟩).read stc.z.len.toNat

/-- The two functions {lit}`amvp_kas_ffc_output_comp_tc` and
{lit}`amvp_kas_ffc_output_ssc_tc`, which differ in the name of the shared secret. -/
def kasFfcOutputHash (hashName : String) (stc : KasFfcTc) (tcRsp : JsonObject) :
    Except AmvpResult JsonObject :=
  match stc.testType with
  | .val => pure (jsonObjectSetBoolean tcRsp "testPassed" stc.sameHash.toInt)
  | .aft => do
    let tcRsp ← setHexstr tcRsp "ephemeralPublicIut" stc.piut.data stc.piut.len kasFfcStrMax
    setHexstr tcRsp hashName stc.chash.data stc.chash.len kasFfcStrMax

/-- {lit}`amvp_kas_ffc_output_comp_tc`. -/
def kasFfcOutputCompTc (stc : KasFfcTc) (tcRsp : JsonObject) : Except AmvpResult JsonObject :=
  kasFfcOutputHash "hashZIut" stc tcRsp

/-- {lit}`amvp_kas_ffc_output_ssc_tc`. -/
def kasFfcOutputSscTc (stc : KasFfcTc) (tcRsp : JsonObject) : Except AmvpResult JsonObject :=
  kasFfcOutputHash (if stc.md = none then "Z" else "hashZ") stc tcRsp

/-- What the module is compared with is what the server has sent. -/
theorem kasFfcInitCompTc_z {hashAlg : Option HashAlg} {dgm : KasFfcParam} {test : KasFfcTest}
    {stc : KasFfcTc} (h : kasFfcInitCompTc hashAlg dgm test .val = .ok stc) :
    stc.testType = .val ∧ ∃ data, hexstrToBin test.z kasFfcByteMax = .ok data ∧
      stc.z = .holding kasFfcByteMax data := by
  simp only [kasFfcInitCompTc, bind_eq_ok, pure_eq_ok, onlyIf_pos] at h
  obtain ⟨p, -, q, -, g, -, eps, -, z, hz, epri, -, epui, -, rfl⟩ := h
  rw [decodeBytes, map_eq_ok] at hz
  obtain ⟨data, hdata, rfl⟩ := hz
  exact ⟨rfl, data, hdata, rfl⟩

end LibAmvp
