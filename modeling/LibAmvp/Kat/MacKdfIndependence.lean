import LibAmvp.Kat.Kda
import LibAmvp.Kat.Kdf135
import LibAmvp.Kat.Mac

/-!
# Independence of the tests of MACs and key derivation functions

When does a test of CMAC, SP 800-108, SP 800-56C or IKEv1 reach the crypto module with the
test case that it would have alone?

Main results:

- Theorem {lit}`mac_kdf_independent_iff`: the exact condition for each handler.
- Theorem {lit}`cmac_direction_leaks`: a group in direction {lit}`ver` turns the tests of a
  later group in direction {lit}`gen` into tests of verification.
-/

namespace LibAmvp

/-- A test reaches the module with the test case that it would have alone exactly when

- for CMAC, its group or no group before has direction {lit}`ver`;
- for SP 800-108, its group is in feedback mode, or no test before is;
- for HKDF and OneStep, it is the first test;
- for TwoStep, it is the first test and no differing address of a literal shows;
- for IKEv1, its group authenticates with a pre-shared key, or no group before does. -/
theorem mac_kdf_independent_iff (ctx : KatCtx) (heap heap' : Nat → Nat) :
    (cmacKatHandler ctx).IndependentIff CmacOwnDirection ∧
      (kdf108KatHandler ctx).IndependentIff Kdf108OwnIv ∧
      (kdaHkdfKatHandler ctx).IndependentIff IsFirstTest ∧
      (kdaOnestepKatHandler ctx).IndependentIff IsFirstTest ∧
      (kdaTwostepKatHandler ctx heap).AloneIff (kdaTwostepKatHandler ctx heap')
        (KdaTwostepOwn heap heap') ∧
      (ikev1KatHandler ctx).IndependentIff Ikev1OwnPsk :=
  ⟨cmac_independentIff ctx, kdf108_independentIff ctx, kdaHkdf_independentIff ctx,
    kdaOnestep_independentIff ctx, kdaTwostep_aloneIff ctx heap heap', ikev1_independentIff ctx⟩

/-- A CMAC group with one test. -/
def cmacGroup (id : Nat) (direction : String) : Json :=
  .obj [("tgId", .num id), ("testType", .str "AFT"), ("direction", .str direction),
    ("keyLen", .num 128), ("msgLen", .num 8), ("macLen", .num 32),
    ("tests", .arr [.obj [("tcId", .num id), ("message", .str "C0"), ("key", .str "0F"),
      ("mac", .str "0123ABCD")]])]

/-- A CMAC vector set with a group to verify and a group to generate. -/
def cmacVerThenGen : JsonObject :=
  [("algorithm", .str "CMAC-AES"), ("testGroups", .arr [cmacGroup 1 "ver", cmacGroup 2 "gen"])]

theorem mac_kdf_independent_iff_first_group :
    ∃ tc, ((0, 0), tc) ∈
        (cmacKatHandler (.registered .cmac .cmacAes) cmacVerThenGen idleModule).calls ∧
      (cmacKatHandler (.registered .cmac .cmacAes) (onlyTest cmacVerThenGen 0 0)
        idleModule).calls = [((0, 0), tc)] := by
  obtain ⟨tc, hmem⟩ := exists_call
    (cmacKatHandler (.registered .cmac .cmacAes) cmacVerThenGen idleModule).calls (0, 0)
    (by decide +kernel)
  refine ⟨tc, hmem, ((mac_kdf_independent_iff (.registered .cmac .cmacAes) id id).1
    cmacVerThenGen idleModule 0 0 tc hmem).mpr (.inl ?_)⟩
  decide +kernel

/-- The test of the second group reaches the module, but not with its own test case. -/
theorem cmac_direction_leaks :
    ∃ tc, ((1, 0), tc) ∈
        (cmacKatHandler (.registered .cmac .cmacAes) cmacVerThenGen idleModule).calls ∧
      (cmacKatHandler (.registered .cmac .cmacAes) (onlyTest cmacVerThenGen 1 0)
        idleModule).calls ≠ [((0, 0), tc)] := by
  obtain ⟨tc, hmem⟩ := exists_call
    (cmacKatHandler (.registered .cmac .cmacAes) cmacVerThenGen idleModule).calls (1, 0)
    (by decide +kernel)
  refine ⟨tc, hmem, fun halone => ?_⟩
  rcases (cmac_independentIff _ _ _ _ _ _ hmem).mp halone with hver | hnone
  · revert hver
    decide +kernel
  · refine hnone ⟨_, List.mem_cons_self, ?_⟩
    decide +kernel

end LibAmvp
