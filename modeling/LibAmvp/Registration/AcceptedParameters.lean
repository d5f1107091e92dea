import LibAmvp.Registration.DrbgGroups
import LibAmvp.Registration.RsaModes
import LibAmvp.Registration.RsaSigTypes

/-!
# Accepted parameters

The parameters of RSA and of random bit generators that were accepted are registered, when every
call meets its condition.

Main results:

- Theorem {lit}`accepted_parameters_registered`: what was set is registered.
- Theorem {lit}`unnamed_hash_not_registered`: a hash that is accepted and stops the registration.
-/

namespace LibAmvp

/-- Everything that accepted calls set is registered, for the generation of keys, for signatures
and for random bit generators. -/
theorem accepted_parameters_registered {sig drbg : Cipher}
    (hsig : sig = .rsaSiggen ∨ sig = .rsaSigver)
    (hdrbg : drbg = .hashdrbg ∨ drbg = .hmacdrbg ∨ drbg = .ctrdrbg)
    (keygenCalls : List RsaKeygenCall) (keygenNodes : List RsaKeygenNode)
    (sigCalls : List (RsaSigCall sig)) (sigNodes : List RsaSigNode)
    (drbgCalls : List DrbgCall) (drbgCap : DrbgCap) :
    (AcceptedRun RsaKeygenCall.setter RsaKeygenCall.Meets [{}] keygenCalls keygenNodes →
      KeygenRegistered keygenCalls keygenNodes) ∧
    (AcceptedRun RsaSigCall.setter RsaSigCall.Meets [{}] sigCalls sigNodes →
      SigRegistered sigCalls sigNodes) ∧
    (AcceptedRun (DrbgCall.setter drbg) (fun cap c => c.Meets drbg cap) {} drbgCalls drbgCap →
      DrbgRegistered drbg drbgCalls drbgCap) :=
  ⟨rsaKeygen_registered, rsaSig_registered hsig, drbg_registered hdrbg⟩

/-! ### Runs -/

/-- A mode with a hash of one modulus, and a fixed exponent. -/
def fixedExponentCalls : List RsaKeygenCall :=
  [.setParm .pubExpMode 1, .setExponent .fixedPubExpVal (some "010001"), .setMode 5,
    .setPrimes 5 2048 .hashAlg 4]

def fixedExponentNode : RsaKeygenNode where
  pubExpMode := 1
  fixedPubExp := some "010001"
  randPq := 5
  randPqStr := some "B.3.6"
  modeCapabilities := [{ modulo := 2048, hashAlgs := ["SHA2-256"] }]

/-- A type with a salted hash of one modulus. -/
def saltedCalls : List (RsaSigCall .rsaSiggen) := [.setType 3, .setModParm 3 2048 4 32]

def saltedNode : RsaSigNode where
  sigTypeStr := some "pss"
  sigType := 3
  modeCapabilities := [{ modulo := 2048, hashPair := [⟨some "SHA2-256", 32⟩] }]

/-- A range for the entropy and a number for the nonce. -/
def rangeCalls : List DrbgCall :=
  [.setLength 11 0 .entropyLen 256 64 512, .setLength 11 0 .nonceLen 128 0 128]

def rangeCap : DrbgCap where
  drbgCapMode := [{
    mode := 11
    groups := [{
      id := 0
      group := {
        entropyLenMin := 256
        entropyLenStep := 64
        entropyLenMax := 512
        nonceLenMin := 128
        nonceLenMax := 128 } }] }]

theorem accepted_parameters_registered_runs :
    KeygenRegistered fixedExponentCalls [fixedExponentNode] ∧
      SigRegistered saltedCalls [saltedNode] ∧ DrbgRegistered .ctrdrbg rangeCalls rangeCap := by
  obtain ⟨hkeygen, hsig, hdrbg⟩ := accepted_parameters_registered (Or.inl rfl)
    (Or.inr (Or.inr rfl)) fixedExponentCalls [fixedExponentNode] saltedCalls [saltedNode]
    rangeCalls rangeCap
  refine ⟨hkeygen ?_, hsig ?_, hdrbg ?_⟩
  · have hmode : AcceptedRun RsaKeygenCall.setter RsaKeygenCall.Meets [{}]
        [.setParm .pubExpMode 1] [{ pubExpMode := 1 }] :=
      .call .start (RsaKeygenCall.setParm .pubExpMode 1) (fun _ _ => Or.inr rfl) rfl
    have hexponent : AcceptedRun RsaKeygenCall.setter RsaKeygenCall.Meets [{}]
        [.setParm .pubExpMode 1, .setExponent .fixedPubExpVal (some "010001")]
        [{ pubExpMode := 1, fixedPubExp := some "010001" }] :=
      .call hmode (RsaKeygenCall.setExponent .fixedPubExpVal (some "010001"))
        ⟨fun first hfirst => by cases hfirst; rfl, isText_of_ascii (by decide) (by decide)⟩ rfl
    have hnamed := hexponent.call (RsaKeygenCall.setMode 5) rfl rfl
    have hmodeNamed : (5 : Int) ≠ 0 := by decide
    exact hnamed.call (RsaKeygenCall.setPrimes 5 2048 .hashAlg 4) hmodeNamed rfl
  · have htype : AcceptedRun RsaSigCall.setter RsaSigCall.Meets [{}]
        [(.setType 3 : RsaSigCall .rsaSiggen)] [{ sigType := 3, sigTypeStr := some "pss" }] :=
      .call .start (RsaSigCall.setType 3) rfl rfl
    exact htype.call (RsaSigCall.setModParm 3 2048 4 32) ⟨by decide, rfl, Or.inl rfl⟩ rfl
  · have hentropy : AcceptedRun (DrbgCall.setter .ctrdrbg) (fun cap c => c.Meets .ctrdrbg cap) {}
        [.setLength 11 0 .entropyLen 256 64 512] _ :=
      .call .start (DrbgCall.setLength 11 0 .entropyLen 256 64 512) ⟨rfl, Or.inl (by decide)⟩ rfl
    exact hentropy.call (DrbgCall.setLength 11 0 .nonceLen 128 0 128)
      ⟨rfl, Or.inr ⟨rfl, fun h => by cases h⟩⟩ rfl

/-- A hash with a value that has no name. -/
def unnamedHashCalls : List (RsaSigCall .rsaSiggen) := [.setType 2, .setModParm 2 2048 3 0]

def unnamedHashNode : RsaSigNode where
  sigTypeStr := some "pkcs1v1.5"
  sigType := 2
  modeCapabilities := [{ modulo := 2048, hashPair := [⟨none, 0⟩] }]

/-- The hash is accepted, and nothing is registered. -/
theorem unnamed_hash_not_registered :
    AcceptedRun RsaSigCall.setter (fun _ _ => True) [{}] unnamedHashCalls [unnamedHashNode] ∧
      buildRsaSigRegisterCap [] (.new .rsaSiggen .rsaSiggen ⟨0⟩) [unnamedHashNode] =
        .error .missingArg ∧
      ¬SigRegistered unnamedHashCalls [unnamedHashNode] := by
  have hbuild : buildRsaSigRegisterCap [] (.new .rsaSiggen .rsaSiggen ⟨0⟩) [unnamedHashNode] =
      .error .missingArg := rfl
  refine ⟨.call (.call .start (RsaSigCall.setType 2) trivial rfl)
    (RsaSigCall.setModParm 2 2048 3 0) trivial rfl, hbuild, fun h => ?_⟩
  obtain ⟨obj, hobj, -⟩ := h.2 [] (.new .rsaSiggen .rsaSiggen ⟨0⟩) rfl (by decide)
  rw [hbuild] at hobj
  cases hobj

end LibAmvp
