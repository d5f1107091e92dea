import LibAmvp.Kat.Drbg
import LibAmvp.Kat.Kdf135
import LibAmvp.Kat.Mac

/-!
# Lengths told to the module

The handlers take most lengths of a test case from the numbers of the group and the sizes
of the buffers from fixed limits.  When does a module that keeps to the lengths stay inside
the buffers?

Main results:

- Theorem {lit}`lengths_fit_iff`: the exact condition for each handler.
- Theorem {lit}`hmac_mac_overruns`: an HMAC group may ask for a code that is longer than the
  buffer for it.
-/

namespace LibAmvp

/-- The lengths of a test case that reaches the module are within its buffers exactly when

- for HMAC, the length of the message is below half the range of its type, and the code is
  at most as long as its buffer;
- for CMAC, the message is at most as long as its buffer, and so is the code unless it is
  verified;
- for a DRBG, the nonce is at most as long as its buffer, or its length wraps around;
- for X9.63, the key data and the shared information are at most as long as their buffers. -/
theorem lengths_fit_iff (ctx : KatCtx) :
    (hmacKatHandler ctx).CallsIff HmacTc.Fits HmacLengthsFit ∧
      (cmacKatHandler ctx).CallsIff CmacTc.Fits CmacLengthsFit ∧
      (drbgKatHandler ctx).CallsIff DrbgTc.Fits DrbgNonceFits ∧
      (x963KatHandler ctx).CallsIff X963Tc.Fits X963LengthsFit :=
  ⟨hmac_fits_iff ctx, cmac_fits_iff ctx, drbg_fits_iff ctx, x963_fits_iff ctx⟩

/-- An HMAC vector set with one test and a code of a length in bits. -/
def hmacWithMacLen (macLen : Nat) : JsonObject :=
  [("algorithm", .str "HMAC-SHA2-256"), ("testGroups", .arr [.obj [("tgId", .num 1),
    ("testType", .str "AFT"), ("msgLen", .num 8), ("keyLen", .num 8), ("macLen", .num macLen),
    ("tests", .arr [.obj [("tcId", .num 1), ("msg", .str "C0"), ("key", .str "0F")]])]])]

theorem lengths_fit_iff_hmac :
    ∃ tc, ((0, 0), tc) ∈ (hmacKatHandler (.registered .hmac .hmacSha2_256) (hmacWithMacLen 256)
      idleModule).calls ∧ tc.Fits := by
  obtain ⟨tc, hmem⟩ := exists_call
    (hmacKatHandler (.registered .hmac .hmacSha2_256) (hmacWithMacLen 256) idleModule).calls (0, 0)
    (by decide +kernel)
  refine ⟨tc, hmem, ((lengths_fit_iff (.registered .hmac .hmacSha2_256)).1 _ _ _ _ _ hmem).mpr ?_⟩
  unfold HmacLengthsFit
  decide +kernel

/-- The module is told to write 128 bytes to the buffer of 64 bytes for the code. -/
theorem hmac_mac_overruns :
    ∃ tc, ((0, 0), tc) ∈ (hmacKatHandler (.registered .hmac .hmacSha2_256) (hmacWithMacLen 1024)
      idleModule).calls ∧ tc.mac.size = 64 ∧ tc.macLen = 128 := by
  refine ⟨⟨.hmacSha2_256, 1, ⟨1024, [0xC0]⟩, 1, ⟨64, []⟩, 128, 1, ⟨65536, [0x0F]⟩⟩, ?_, rfl, rfl⟩
  decide +kernel

end LibAmvp
