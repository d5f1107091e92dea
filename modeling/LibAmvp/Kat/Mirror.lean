import LibAmvp.Kat.Drbg
import LibAmvp.Kat.KasEcc
import LibAmvp.Kat.RsaPrim
import LibAmvp.Kat.SafePrimes

/-!
# Responses that mirror their requests

A response should have one group for every group of the request and one test for every
test, in order and under the same numbers.

Main results:

- Theorem {lit}`mirrors_iff`: the KAS-ECC, DRBG and RSA primitive handlers mirror every
  request; the safe primes handler only one without groups.
- Theorem {lit}`safePrimes_tgId_missing`: a safe primes response whose group has no number.
-/

namespace LibAmvp

open Guard

/-! ## Mirrored numbers -/

/-- A positive number of type {lit}`int`. -/
def IsId (value : Option Json) : Prop :=
  ∃ n : Nat, 0 < n ∧ n < 2 ^ 31 ∧ value = some (.num n)

/-- The groups and tests of a vector set carry numbers. -/
def Numbered (obj : JsonObject) : Prop :=
  ∀ group ∈ objectsOf (some obj) "testGroups",
    IsId (jsonObjectGetValue group "tgId") ∧
      ∀ test ∈ objectsOf group "tests", IsId (jsonObjectGetValue test "tcId")

/-- A test of the response has the number of the test. -/
def MirrorsTest (test rsp : Option JsonObject) : Prop :=
  jsonObjectGetValue rsp "tcId" = jsonObjectGetValue test "tcId"

/-- A group of the response has the number of the group and one test for each test. -/
def MirrorsGroup (group rsp : Option JsonObject) : Prop :=
  jsonObjectGetValue rsp "tgId" = jsonObjectGetValue group "tgId" ∧
    List.Forall₂ MirrorsTest (objectsOf group "tests") (objectsOf rsp "tests")

/-- A response has one group for each group of the request. -/
def Mirrors (obj rsp : JsonObject) : Prop :=
  List.Forall₂ MirrorsGroup (objectsOf (some obj) "testGroups")
    (objectsOf (some rsp) "testGroups")

/-- A number below two to the 31st is read as itself. -/
theorem toInt_natCast {n : Nat} (h : n < 2 ^ 31) : toInt (n : ℚ) = n := by
  unfold toInt
  simp only [Rat.num_natCast, Rat.den_natCast, Nat.cast_one, Int.tdiv_one]
  rw [if_pos (by omega)]

/-- So is one below two to the 32nd, without a sign. -/
theorem toUnsigned_natCast {n : Nat} (h : n < 2 ^ 32) : toUnsigned (n : ℚ) = n := by
  unfold toUnsigned
  simp only [Rat.num_natCast, Rat.den_natCast, Nat.cast_one, Int.tdiv_one]
  rw [if_pos (by omega)]
  omega

/-- A test is answered under its number, whichever type the handler keeps the number in. -/
def KeepsId (test : Option JsonObject) (rsp : JsonObject) : Prop :=
  IsId (jsonObjectGetValue test "tcId") →
    jsonObjectGetValue (some rsp) "tcId" = jsonObjectGetValue test "tcId"

/-- The start of an answer keeps the number of its test. -/
theorem keepsId_responseTest (test : Option JsonObject) : KeepsId test (responseTest test) := by
  rintro ⟨n, -, hn, hvalue⟩
  simp only [responseTest, readTcId, jsonObjectGetNumber, hvalue, jsonValueGetNumber]
  rw [toUnsigned_natCast (by omega)]
  rfl

/-- So does the start that reads it as an {lit}`int`. -/
theorem keepsId_responseTestInt (test : Option JsonObject) :
    KeepsId test (responseTestInt test) := by
  rintro ⟨n, -, hn, hvalue⟩
  simp only [responseTestInt, jsonObjectGetNumber, hvalue, jsonValueGetNumber]
  rw [toInt_natCast hn]
  rfl

/-- Answers under other names leave the number alone. -/
theorem KeepsId.set {test : Option JsonObject} {rsp : JsonObject} (h : KeepsId test rsp)
    {name : String} (hname : "tcId" ≠ name) (value : Json) :
    KeepsId test (jsonObjectSetValue rsp name value) := by
  intro hid
  rw [jsonObjectGetValue_set_of_ne rsp value hname]
  exact h hid

/-- Setting another member keeps the number. -/
theorem KeepsId.setHexstr {test : Option JsonObject} {rsp rsp' : JsonObject}
    (h : KeepsId test rsp) {name : String} (hname : "tcId" ≠ name) {src : Option Buffer}
    {srcLen : Int} {strMax : Nat} (hset : setHexstr rsp name src srcLen strMax = .ok rsp') :
    KeepsId test rsp' := by
  simp only [LibAmvp.setHexstr, bind_eq_ok, pure_eq_ok] at hset
  obtain ⟨hexstr, -, rfl⟩ := hset
  exact h.set hname _

section Worker

variable {σ γ τ ε : Type} {p : Partner τ}
  {w : Worker σ (Option JsonObject) (Option JsonObject) γ τ ε JsonObject JsonObject}

/-- What a worker has to keep to. -/
structure Reports (w : Worker σ (Option JsonObject) (Option JsonObject) γ τ ε JsonObject JsonObject)
    (p : Partner τ) : Prop where
  close : ∀ {s head n c s'} tests, w.enter s head n = .ok (c, s') →
    w.close c tests = responseGroup "tgId" (toInt (jsonObjectGetNumber head "tgId")) tests
  work : ∀ {c test rsp}, w.Answers p c test rsp → KeepsId test rsp

/-- A group that is closed mirrors its object when its number is one and its tests have numbers. -/
theorem mirrorsGroup_of_closes (hw : Reports w p) {groupval : Json} {rsp : JsonObject}
    (hid : IsId (jsonObjectGetValue (jsonValueGetObject (some groupval)) "tgId"))
    (htests : ∀ test ∈ objectsOf (jsonValueGetObject (some groupval)) "tests",
      IsId (jsonObjectGetValue test "tcId"))
    (h : w.Closes p (readTestGroup groupval) rsp) :
    MirrorsGroup (jsonValueGetObject (some groupval)) (some rsp) := by
  obtain ⟨s, c, s', answers, henter, hanswers, rfl⟩ := h
  obtain ⟨n, -, hn, hvalue⟩ := hid
  have hhead : jsonObjectGetValue (readTestGroup groupval).head "tgId" = some (.num n) := by
    rw [← hvalue]
    cases groupval with
    | obj group => exact jsonObjectGetValue_withoutMember group (by decide)
    | null | bool | num | str | arr => rfl
  rw [hw.close answers henter]
  constructor
  · rw [hvalue, jsonObjectGetNumber, hhead, jsonValueGetNumber, toInt_natCast hn]
    rfl
  · rw [objectsOf_obj answers _ "tests" rfl, List.forall₂_map_right_iff]
    exact ((List.forall₂_and_left _ _).mpr ⟨htests, hanswers⟩).imp
      fun test rsp h => hw.work h.2 h.1

/-- A worker that keeps to it mirrors the request. -/
theorem mirrors_of_result (hw : Reports w p) {obj rsp : JsonObject} {rsps : List JsonObject}
    (hnumbered : Numbered obj) (h : w.result p (testGroups obj) = .ok rsps)
    (hrsp : jsonObjectGetValue (some rsp) "testGroups" = some (.arr (rsps.map .obj))) :
    Mirrors obj rsp := by
  have hcloses := Worker.result_ok h
  unfold testGroups at hcloses
  rw [List.forall₂_map_left_iff] at hcloses
  unfold Mirrors
  rw [objectsOf_obj rsps rsp "testGroups" hrsp, List.forall₂_map_right_iff]
  unfold objectsOf
  rw [List.forall₂_map_left_iff]
  have hids : ∀ groupval ∈ jsonArrayElems (jsonObjectGetArray (some obj) "testGroups"),
      IsId (jsonObjectGetValue (jsonValueGetObject (some groupval)) "tgId") ∧
        ∀ test ∈ objectsOf (jsonValueGetObject (some groupval)) "tests",
          IsId (jsonObjectGetValue test "tcId") := fun groupval hmem =>
    hnumbered _ (List.mem_map_of_mem hmem)
  exact ((List.forall₂_and_left _ _).mpr ⟨hids, hcloses⟩).imp
    fun groupval rsp h => mirrorsGroup_of_closes hw h.1.1 h.1.2 h.2

end Worker

/-- What a loader answers comes from its last step. -/
theorem reports_of_loader {σ γ τ : Type} {p : Partner τ} {l : KatLoader σ γ τ}
    (hclose : ∀ {s head n c s'} tests, l.enter s head n = .ok (c, s') →
      l.close c tests = responseGroup "tgId" (toInt (jsonObjectGetNumber head "tgId")) tests)
    (hfinish : ∀ {c test tc rsp}, l.finish c test tc = .ok rsp → KeepsId test rsp) :
    Reports l.worker p where
  close tests henter := hclose tests henter
  work := by
    rintro c test rsp ⟨s, before, s', asked, hwork⟩
    obtain ⟨draft, q, -, hfinish', -⟩ := Loader.work_ok hwork
    exact hfinish hfinish'

/-- A response with a mode has the groups that were put into it. -/
theorem responseWithMode_testGroups (ctx : KatCtx) (head : String × String)
    (rsps : List JsonObject) :
    jsonObjectGetValue (some (responseWithMode ctx head rsps)) "testGroups" =
      some (.arr (rsps.map .obj)) := by
  unfold responseWithMode jsonObjectSetText
  rw [jsonObjectGetValue_set_of_ne _ _ (by decide)]
  rfl

/-- Every successful response of a handler mirrors the request. -/
def KatHandler.MirrorsAll {τ : Type} (handler : KatHandler τ) : Prop :=
  ∀ (obj : JsonObject) (module : Partner τ) (rsp : JsonObject), Numbered obj →
    (handler obj module).result = .ok rsp → Mirrors obj rsp

/-- A handler whose worker reports every test mirrors every vector set it answers. -/
theorem mirrorsAll_of_reports {κ σ γ τ : Type} {setup : JsonObject → Except AmvpResult κ}
    {worker : κ → KatWorker σ γ τ} {response : κ → List JsonObject → JsonObject}
    {noGroups : Option AmvpResult}
    (hworker : ∀ {obj head} p, setup obj = .ok head → Reports (worker head) p)
    (hresponse : ∀ head rsps, jsonObjectGetValue (some (response head rsps)) "testGroups" =
      some (.arr (rsps.map .obj))) :
    (katHandler setup worker response noGroups).MirrorsAll := by
  intro obj module rsp hnumbered h
  unfold katHandler at h
  cases hsetup : setup (withoutMember obj "testGroups") with
  | error e => simp [hsetup] at h
  | ok head =>
      simp only [hsetup] at h
      split at h
      · simp at h
      · simp only [map_eq_ok] at h
        obtain ⟨rsps, hresult, rfl⟩ := h
        exact mirrors_of_result (hworker module hsetup) hnumbered hresult (hresponse head rsps)

/-! ## The handlers -/

/-- The number of a group is read as its member says. -/
theorem readTgId_ok {groupobj : Option JsonObject} {missing : AmvpResult} {tgId : Int}
    (h : readTgId groupobj missing = .ok tgId) :
    toInt (jsonObjectGetNumber groupobj "tgId") = tgId := by
  simp only [readTgId, bind_eq_ok, stopIf_eq_ok, exists_const, pure_eq_ok] at h
  exact h.2

/-- The DRBG handler mirrors every vector set. -/
theorem drbg_mirrorsAll (ctx : KatCtx) : (drbgKatHandler ctx).MirrorsAll := by
  refine mirrorsAll_of_reports (fun {_ head} p _ => reports_of_loader ?_ ?_) fun _ _ => rfl
  · intro _ groupobj _ _ _ tests henter
    simp only [drbgLoader, readDrbgGroup, map_eq_ok, bind_eq_ok, stopIf_eq_ok, exists_const,
      pure_eq_ok, Prod.mk.injEq] at henter ⊢
    obtain ⟨_, ⟨tgId, htgId, _, -, _, -, _, -, _, -, _, -, -, -, -, -, -, rfl⟩, rfl, -⟩ := henter
    rw [readTgId_ok htgId]
  · intro _ test tc rsp hfinish
    exact (keepsId_responseTest test).setHexstr (by decide) hfinish

/-- So does the one of the signature primitive. -/
theorem sigprim_mirrorsAll (ctx : KatCtx) : (rsaSigprimKatHandler ctx).MirrorsAll := by
  refine mirrorsAll_of_reports (fun p _ => reports_of_loader ?_ ?_) (responseWithMode_testGroups ctx)
  · intro _ groupobj _ _ _ tests henter
    simp only [sigprimLoader, readSigprimGroup, bind_eq_ok, pure_eq_ok, Prod.mk.injEq]
      at henter ⊢
    obtain ⟨tgId, htgId, -, -, _, -, rfl, -⟩ := henter
    rw [readTgId_ok htgId]
  · intro _ test tc rsp hfinish
    simp only [sigprimLoader, sigprimOutputTc, bind_eq_ok, pure_eq_ok] at hfinish
    obtain ⟨rsp', hsignature, rfl⟩ := hfinish
    refine KeepsId.set ?_ (by decide) _
    rcases onlyIf_cases hsignature with ⟨-, hset⟩ | ⟨-, rfl⟩
    · exact (keepsId_responseTest test).setHexstr (by decide) hset
    · exact keepsId_responseTest test

/-- The worker of KAS-ECC reports every test. -/
theorem reports_kasEcc {cipher : Cipher} {p : Partner KasEccTc} {curveName : String}
    {readHash : Option JsonObject → Except AmvpResult (Option HashAlg)}
    {readTest : Cipher → KasEccGroup → Option JsonObject → Except AmvpResult KasEccTc}
    {outputTc : KasEccTc → JsonObject → Except AmvpResult JsonObject}
    (hfinish : ∀ {tc test rsp}, outputTc tc (responseTestInt test) = .ok rsp → KeepsId test rsp) :
    Reports (kasEccLoader cipher (readKasEccGroup curveName readHash) readTest outputTc).worker
      p := by
  refine reports_of_loader ?_ hfinish
  intro _ groupobj _ _ _ tests henter
  simp only [kasEccLoader, readKasEccGroup, map_eq_ok, bind_eq_ok, pure_eq_ok, Prod.mk.injEq]
    at henter ⊢
  obtain ⟨_, ⟨tgId, htgId, _, -, _, -, _, -, _, -, _, -, rfl⟩, rfl, -⟩ := henter
  rw [readTgId_ok htgId]

/-- The hash of KAS-ECC keeps the number of the test. -/
theorem keepsId_kasEccOutputHash {hashName : String} (hname : "tcId" ≠ hashName)
    {tc : KasEccTc} {test : Option JsonObject} {rsp : JsonObject}
    (h : kasEccOutputHash hashName tc (responseTestInt test) = .ok rsp) : KeepsId test rsp := by
  unfold kasEccOutputHash at h
  cases htype : tc.testType with
  | val =>
      simp only [htype, bind_eq_ok, pure_eq_ok] at h
      obtain ⟨_, -, rfl⟩ := h
      exact (keepsId_responseTestInt test).set (by decide) _
  | aft =>
      simp only [htype, bind_eq_ok] at h
      obtain ⟨_, hx, _, hy, _, hd, hz⟩ := h
      exact ((((keepsId_responseTestInt test).setHexstr (by decide) hx).setHexstr (by decide)
        hy).setHexstr (by decide) hd).setHexstr hname hz

/-- The handler of KAS-ECC mirrors every vector set. -/
theorem kasEcc_mirrorsAll (ctx : KatCtx) : (kasEccKatHandler ctx).MirrorsAll := by
  refine mirrorsAll_of_reports (fun {obj head} p hsetup => ?_)
    fun head => responseWithMode_testGroups ctx (head.1, head.2.1)
  simp only [setupKasEcc, bind_eq_ok, pure_eq_ok] at hsetup
  obtain ⟨_, -, _, -, _, -, cipher, -, _, -, rfl⟩ := hsetup
  dsimp only
  split
  · refine reports_kasEcc fun {tc test rsp} hfinish => ?_
    simp only [kasEccOutputCdhTc, bind_eq_ok] at hfinish
    obtain ⟨_, hx, _, hy, hz⟩ := hfinish
    exact (((keepsId_responseTestInt test).setHexstr (by decide) hx).setHexstr (by decide)
      hy).setHexstr (by decide) hz
  · exact reports_kasEcc fun hfinish => keepsId_kasEccOutputHash (by decide) hfinish

/-- So does that of its shared secret. -/
theorem kasEccSsc_mirrorsAll (ctx : KatCtx) : (kasEccSscKatHandler ctx).MirrorsAll := by
  refine mirrorsAll_of_reports (fun p _ => reports_kasEcc fun {tc _ _} hfinish => ?_)
    fun _ _ => rfl
  refine keepsId_kasEccOutputHash ?_ hfinish
  split <;> decide

/-- The decryption primitive mirrors the request however often the module was called. -/
theorem decprim_mirrors {ctx : KatCtx} {fuel : Nat} {obj : JsonObject} {module : Partner RsaPrimTc}
    {rsp : JsonObject} (hnumbered : Numbered obj)
    (h : rsaDecprimKatHandler ctx fuel obj module = .ok rsp) : Mirrors obj rsp := by
  have hreports : Reports (decprimWorker fuel) module := by
    constructor
    · intro _ groupobj _ _ _ tests henter
      simp only [decprimWorker, readDecprimGroup, mapError_eq_ok, bind_eq_ok, pure_eq_ok,
        Prod.mk.injEq] at henter ⊢
      obtain ⟨tgId, htgId, -, -, -, -, -, -, rfl, -⟩ := henter
      rw [readTgId_ok htgId]
    · rintro _ test rsp ⟨vars, before, vars', asked, hwork⟩
      obtain ⟨_, _, _, -, hwork, -⟩ := Dialog.bind_ok hwork
      obtain ⟨⟨rsps, vars''⟩, _, _, -, hwork, -⟩ := Dialog.bind_ok hwork
      cases hwork
      exact keepsId_responseTest test
  unfold rsaDecprimKatHandler at h
  split at h
  · simp at h
  · rw [map_eq_ok] at h
    obtain ⟨rsps, hresult, rfl⟩ := h
    exact mirrors_of_result hreports hnumbered hresult (responseWithMode_testGroups ctx _ rsps)

/-- The groups of a safe primes response have no number under the name of the request. -/
theorem safePrimes_close {algId : Cipher} {p : Partner SafePrimesTc} {b : TestGroup}
    {rsp : JsonObject} (h : (safePrimesWorker algId).Closes p b rsp) :
    jsonObjectGetValue (some rsp) "tgId" = none := by
  obtain ⟨_, group, _, tests, -, -, rfl⟩ := h
  unfold safePrimesWorker
  dsimp only
  split <;> rfl

/-- The handler of the safe primes mirrors a vector set exactly when it has no groups. -/
theorem safePrimes_mirrors_iff {ctx : KatCtx} {obj : JsonObject} {module : Partner SafePrimesTc}
    {rsp : JsonObject} (hnumbered : Numbered obj)
    (h : (safePrimesKatHandler ctx obj module).result = .ok rsp) :
    Mirrors obj rsp ↔ objectsOf (some obj) "testGroups" = [] := by
  unfold safePrimesKatHandler katHandler at h
  split at h
  · simp at h
  · simp only [map_eq_ok] at h
    obtain ⟨rsps, hresult, rfl⟩ := h
    have hcloses := Worker.result_ok hresult
    unfold testGroups at hcloses
    rw [List.forall₂_map_left_iff] at hcloses
    unfold Mirrors
    rw [objectsOf_obj rsps _ "testGroups" (responseWithMode_testGroups ctx _ rsps)]
    unfold objectsOf
    cases hgroups : jsonArrayElems (jsonObjectGetArray (some obj) "testGroups") with
    | nil =>
        rw [hgroups, List.forall₂_nil_left_iff] at hcloses
        simp [hcloses]
    | cons groupval groupvals =>
        rw [hgroups] at hcloses
        cases hcloses with
        | cons hclose _ =>
            simp only [List.map_cons, List.forall₂_cons, List.cons_ne_nil, iff_false]
            rintro ⟨⟨hid, -⟩, -⟩
            obtain ⟨n, -, -, hvalue⟩ := (hnumbered (jsonValueGetObject (some groupval)) (by
              unfold objectsOf
              rw [hgroups]
              exact List.mem_map_of_mem List.mem_cons_self)).1
            rw [safePrimes_close hclose, hvalue] at hid
            cases hid

/-- A successful response to a request with numbers has its groups and tests in order and under
the same numbers, for the KAS-ECC handlers, the DRBG handler and the handlers of the RSA
primitives; for the safe primes handler exactly when the request has no groups. -/
theorem mirrors_iff (ctx : KatCtx) :
    (∀ obj module rsp, Numbered obj → (safePrimesKatHandler ctx obj module).result = .ok rsp →
      (Mirrors obj rsp ↔ objectsOf (some obj) "testGroups" = [])) ∧
      (kasEccKatHandler ctx).MirrorsAll ∧ (kasEccSscKatHandler ctx).MirrorsAll ∧
      (drbgKatHandler ctx).MirrorsAll ∧ (rsaSigprimKatHandler ctx).MirrorsAll ∧
      (∀ fuel obj module rsp, Numbered obj → rsaDecprimKatHandler ctx fuel obj module = .ok rsp →
        Mirrors obj rsp) :=
  ⟨fun _ _ _ hnumbered h => safePrimes_mirrors_iff hnumbered h, kasEcc_mirrorsAll ctx,
    kasEccSsc_mirrorsAll ctx, drbg_mirrorsAll ctx, sigprim_mirrorsAll ctx,
    fun _ _ _ _ hnumbered h => decprim_mirrors hnumbered h⟩

/-- A vector set with one group and one test. -/
def oneTest (algorithm mode : String) (group test : JsonObject) : JsonObject :=
  [("algorithm", .str algorithm), ("mode", .str mode), ("testGroups", .arr
    [.obj ([("tgId", .num 7), ("testType", .str "AFT")] ++ group ++
      [("tests", .arr [.obj ([("tcId", .num 3)] ++ test)])])])]

/-- A vector set of the cofactor Diffie-Hellman primitive. -/
def kasEccCdhVectorSet : JsonObject :=
  oneTest "KAS-ECC" "CDH-Component" [("curve", .str "P-256")]
    [("publicServerX", .str "01"), ("publicServerY", .str "02")]

/-- A vector set of safe primes. -/
def safePrimesVectorSet : JsonObject :=
  oneTest "safePrimes" "keyGen" [("safePrimeGroup", .str "ffdhe2048")] []

/-- The numbers stand in front, so that they are found first. -/
theorem numbered_oneTest (algorithm mode : String) (group test : JsonObject)
    (hgroup : jsonObjectGetValue (some group) "tests" = none) :
    Numbered (oneTest algorithm mode group test) := by
  have htests : jsonObjectGetArray (some ([("tgId", .num 7), ("testType", .str "AFT")] ++ group ++
      [("tests", .arr [.obj ([("tcId", .num 3)] ++ test)])])) "tests" =
        some [.obj ([("tcId", .num 3)] ++ test)] := by
    have hnone : group.find? (fun m => m.1 == "tests") = none := by
      simpa [jsonObjectGetValue] using hgroup
    simp [jsonObjectGetArray, jsonObjectGetValue, List.find?_append, hnone, jsonValueGetArray]
  intro g hg
  obtain rfl : g = some ([("tgId", .num 7), ("testType", .str "AFT")] ++ group ++
      [("tests", .arr [.obj ([("tcId", .num 3)] ++ test)])]) := by
    simpa [objectsOf, oneTest, jsonObjectGetArray, jsonObjectGetValue, jsonValueGetArray,
      jsonArrayElems, jsonValueGetObject] using hg
  refine ⟨⟨7, by decide, by decide, rfl⟩, fun t ht => ?_⟩
  unfold objectsOf at ht
  rw [htests] at ht
  obtain rfl : t = some ([("tcId", .num 3)] ++ test) := by
    simpa [jsonArrayElems, jsonValueGetObject] using ht
  exact ⟨3, by decide, by decide, rfl⟩

/-- The statement at a vector set of KAS-ECC-CDH. -/
theorem mirrors_iff_kasEccCdh :
    ∃ rsp, (kasEccKatHandler (.registered .kasEccCdh .kasEccCdh) kasEccCdhVectorSet
      idleModule).result = .ok rsp ∧ Mirrors kasEccCdhVectorSet rsp := by
  obtain ⟨rsp, hrsp⟩ := exists_ok (x := (kasEccKatHandler (.registered .kasEccCdh .kasEccCdh)
    kasEccCdhVectorSet idleModule).result) (by decide +kernel)
  exact ⟨rsp, hrsp, (mirrors_iff _).2.1 _ _ _ (numbered_oneTest _ _ _ _ rfl) hrsp⟩

/-- The response to a generated key pair has no number of the group. -/
theorem safePrimes_tgId_missing :
    ∃ rsp, Numbered safePrimesVectorSet ∧
      (safePrimesKatHandler (.registered .safePrimesKeygen .safePrimesKeygen) safePrimesVectorSet
        idleModule).result = .ok rsp ∧ ¬Mirrors safePrimesVectorSet rsp := by
  have hnumbered : Numbered safePrimesVectorSet := numbered_oneTest _ _ _ _ rfl
  obtain ⟨rsp, hrsp⟩ := exists_ok (x := (safePrimesKatHandler
    (.registered .safePrimesKeygen .safePrimesKeygen) safePrimesVectorSet idleModule).result)
    (by decide +kernel)
  refine ⟨rsp, hnumbered, hrsp, ?_⟩
  rw [safePrimes_mirrors_iff hnumbered hrsp]
  exact List.cons_ne_nil _ _

end LibAmvp
