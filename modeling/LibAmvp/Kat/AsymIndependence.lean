import LibAmvp.Kat.Dsa
import LibAmvp.Kat.KasIfc
import LibAmvp.Kat.RsaKeygen

/-!
# Independence of the tests of asymmetric algorithms

When does a test of RSA key generation, of the RSA signature primitive, of KAS-IFC or of DSA
reach the crypto module with the test case that it would have alone?

Main results:

- Theorem {lit}`asym_independent_iff`: the exact condition for each handler.
- Theorem {lit}`sigprim_exponent_leaks`: a group with a private exponent leaves it behind for
  the tests of a later group whose keys have the components of the Chinese remainder theorem.
-/

namespace LibAmvp

/-- A test reaches the module with the test case that it would have alone exactly when

- for RSA key generation, its group reads a prime test and a hash function, or no group before
  has read the one that it does not;
- for the RSA signature primitive, the format of its key is understood or none was before, and
  no test before has left key components of the other kind;
- for KAS-IFC, its scheme and role are understood or those in force are the ones at the start,
  and no test before its group has left a component that it does not read;
- for DSA, it is the first test. -/
theorem asym_independent_iff (ctx : KatCtx) :
    (rsaKeygenKatHandler ctx).IndependentIff KeygenOwn ∧
      (rsaSigprimKatHandler ctx).IndependentIff SigprimOwnKey ∧
      (kasIfcSscKatHandler ctx).IndependentIff KasIfcOwn ∧
      (dsaKatHandler ctx).IndependentIff IsFirstTest :=
  ⟨keygen_independentIff ctx, sigprim_independentIff ctx, kasIfc_independentIff ctx,
    dsa_independentIff ctx⟩

/-- A group of the RSA signature primitive with one test. -/
def sigprimGroup (id : Nat) (format : String) : Json :=
  .obj [("tgId", .num id), ("modulo", .num 2048), ("keyFormat", .str format),
    ("tests", .arr [.obj [("tcId", .num id), ("e", .str "03"), ("n", .str "0C55"),
      ("d", .str "0215"), ("p", .str "37"), ("q", .str "39"), ("dmp1", .str "25"),
      ("dmq1", .str "26"), ("iqmp", .str "1B"), ("message", .str "1234")]])]

/-- A group whose keys have an exponent, then one whose keys have the components of the Chinese
remainder theorem. -/
def sigprimStandardThenCrt : JsonObject :=
  [("algorithm", .str "RSA"), ("mode", .str "signaturePrimitive"),
    ("testGroups", .arr [sigprimGroup 1 "standard", sigprimGroup 2 "crt"])]

theorem asym_independent_iff_first_group :
    ∃ tc, ((0, 0), tc) ∈ (rsaSigprimKatHandler (.registered .rsaPrim .rsaSigprim)
        sigprimStandardThenCrt idleModule).calls ∧
      (rsaSigprimKatHandler (.registered .rsaPrim .rsaSigprim)
        (onlyTest sigprimStandardThenCrt 0 0) idleModule).calls = [((0, 0), tc)] := by
  obtain ⟨tc, hmem⟩ := exists_call (rsaSigprimKatHandler (.registered .rsaPrim .rsaSigprim)
    sigprimStandardThenCrt idleModule).calls (0, 0) (by decide +kernel)
  refine ⟨tc, hmem, ((asym_independent_iff (.registered .rsaPrim .rsaSigprim)).2.1
    sigprimStandardThenCrt idleModule 0 0 tc hmem).mpr ⟨.inl (by decide +kernel), ?_⟩⟩
  rintro ⟨bs, b, hprefix, -, -⟩
  simp at hprefix

/-- The test of the second group reaches the module, but not with its own test case. -/
theorem sigprim_exponent_leaks :
    ∃ tc, ((1, 0), tc) ∈ (rsaSigprimKatHandler (.registered .rsaPrim .rsaSigprim)
        sigprimStandardThenCrt idleModule).calls ∧
      (rsaSigprimKatHandler (.registered .rsaPrim .rsaSigprim)
        (onlyTest sigprimStandardThenCrt 1 0) idleModule).calls ≠ [((0, 0), tc)] := by
  obtain ⟨tc, hmem⟩ := exists_call (rsaSigprimKatHandler (.registered .rsaPrim .rsaSigprim)
    sigprimStandardThenCrt idleModule).calls (1, 0) (by decide +kernel)
  refine ⟨tc, hmem, fun halone => ?_⟩
  have hown := ((sigprim_independentIff _ _ _ _ _ _ hmem).mp halone).2
  refine hown ⟨[], _, List.prefix_refl _, ?_, ?_⟩
  · decide +kernel
  · decide +kernel

end LibAmvp
