import LibAmvp.Kat.AesIndependence
import LibAmvp.Kat.DesIndependence

/-!
# Independence of the groups of symmetric ciphers

A vector set is divided into two parts.  When does the handler of AES or of triple-DES process
the parts in a row as it would process each of them alone, whatever a crypto module without a
memory answers and whatever earlier vector sets have left in the static tables?

Main results:

- Theorem {lit}`sym_groupsApart_iff`: the exact condition for both handlers.
- Theorem {lit}`gcm_readIv_leaks`: after a group of AES-GCM that is given its initialization
  vectors, a group that leaves them to the module fails.
-/

namespace LibAmvp

open Guard

/-- A vector set with these groups. -/
def withGroups (obj : JsonObject) (groups : List Json) : JsonObject :=
  jsonObjectSetValue obj "testGroups" (.arr groups)

/-- The groups of the response, if there is one. -/
def KatRun.groups {τ : Type} (run : KatRun τ) : Option (List (Option JsonObject)) :=
  run.result.toOption.map fun rsp => objectsOf (some rsp) "testGroups"

/-- With every module without a memory, the groups in a row are processed as the two parts are
alone: they succeed when both parts do, and the groups of the response are those of the parts.
What earlier vector sets have left may differ each time. -/
def GroupsApart {κ τ : Type} (handler : κ → KatHandler τ) (obj : JsonObject)
    (groups groups' : List Json) : Prop :=
  ∀ (f : τ → Int × τ) (k k₁ k₂ : κ), Player.Parted
    (handler k (withGroups obj (groups ++ groups')) (.memoryless f)).groups
    (handler k₁ (withGroups obj groups) (.memoryless f)).groups
    (handler k₂ (withGroups obj groups') (.memoryless f)).groups

/-- Two parts are put together alike whatever form their elements have. -/
theorem parted_map_iff {ϱ ϱ' : Type} {g : ϱ → ϱ'} (hg : Function.Injective g)
    (whole first second : Option (List ϱ)) :
    Player.Parted (whole.map (List.map g)) (first.map (List.map g)) (second.map (List.map g)) ↔
      Player.Parted whole first second := by
  have hparts : (first.map (List.map g)).bind (fun rs => (second.map (List.map g)).map (rs ++ ·)) =
      (first.bind fun rs => second.map (rs ++ ·)).map (List.map g) := by
    cases first with
    | none => rfl
    | some rs =>
        cases second with
        | none => rfl
        | some rs' => exact congrArg some List.map_append.symm
  unfold Player.Parted
  rw [hparts]
  exact (Option.map_injective (List.map_injective_iff.mpr hg)).eq_iff

section Handlers

variable {η κ σ γ τ : Type} {setup : JsonObject → Except AmvpResult η}
  {player : η → KatPlayer σ κ γ τ} {response : η → List JsonObject → JsonObject}

/-- The groups of the response are those that the player has answered. -/
theorem groups_katHandler
    (hresponse : ∀ head rs, objectsOf (some (response head rs)) "testGroups" = rs.map some)
    (obj : JsonObject) (groups : List Json) (k : κ) (module : Partner τ) :
    (katHandler setup (fun head => (player head).worker k) response none (withGroups obj groups)
      module).groups =
        (setup (withoutMember obj "testGroups")).toOption.bind fun head =>
          (((player head).worker k).result module (groups.map readTestGroup)).toOption.map
            (List.map some) := by
  have hkeep : withoutMember (withGroups obj groups) "testGroups" =
      withoutMember obj "testGroups" := withoutMember_set _ _ _
  have hgroups : testGroups (withGroups obj groups) = groups.map readTestGroup :=
    testGroups_set obj groups
  unfold katHandler KatRun.groups
  rw [hkeep]
  cases setup (withoutMember obj "testGroups") with
  | error e => rfl
  | ok head =>
      simp only [hgroups, Player.toOption_map, Option.map_map, Player.toOption_ok,
        Option.bind_some]
      congr 1
      funext rs
      exact hresponse head rs

/-- It is enough to look at the work of the player. -/
theorem groupsApart_iff
    (hresponse : ∀ head rs, objectsOf (some (response head rs)) "testGroups" = rs.map some)
    (obj : JsonObject) (groups groups' : List Json) :
    GroupsApart (fun k => katHandler setup (fun head => (player head).worker k) response) obj
        groups groups' ↔
      ∀ head, setup (withoutMember obj "testGroups") = .ok head → ∀ f k k₁ k₂, Player.Parted
        (((player head).worker k).result (.memoryless f)
          (groups.map readTestGroup ++ groups'.map readTestGroup)).toOption
        (((player head).worker k₁).result (.memoryless f) (groups.map readTestGroup)).toOption
        (((player head).worker k₂).result (.memoryless f)
          (groups'.map readTestGroup)).toOption := by
  unfold GroupsApart
  simp only [groups_katHandler hresponse, List.map_append]
  cases setup (withoutMember obj "testGroups") with
  | error e => exact iff_of_true (fun _ _ _ _ => rfl) nofun
  | ok head =>
      simp only [Player.toOption_ok, Option.bind_some, parted_map_iff (Option.some_injective _)]
      exact ⟨fun h head' hsame => Except.ok.inj hsame ▸ h, fun h => h head rfl⟩

end Handlers

/-- The parts of a vector set are processed in a row as each would be alone exactly when, if
both can be read,

- for AES, no group feels another: there are no Monte Carlo tests, and the tests of the second
  part do not meet another {lit}`readIv` or another sequence number than they would alone, or do
  not mind;
- for triple-DES, the cipher has no Monte Carlo tests and there are some, or no group feels
  another: there are no Monte Carlo tests, and the tests of the second part do not meet other
  counters or another keying option than they would alone. -/
theorem sym_groupsApart_iff (ctx : KatCtx) (obj : JsonObject) (groups groups' : List Json) :
    (GroupsApart (aesKatHandler ctx) obj groups groups' ↔
      ∀ head, aesSetup ctx (withoutMember obj "testGroups") = .ok head →
        (aesPlayer head).Readable (groups.map readTestGroup) →
        (aesPlayer head).Readable (groups'.map readTestGroup) →
          AesApart head (groups.map readTestGroup) (groups'.map readTestGroup)) ∧
    (GroupsApart (desKatHandler ctx) obj groups groups' ↔
      ∀ head, setupByAlgorithm ctx (withoutMember obj "testGroups") = .ok head →
        (desPlayer head.2).Readable (groups.map readTestGroup) →
        (desPlayer head.2).Readable (groups'.map readTestGroup) →
          desBitLen head.2 = none ∧
              ¬(NoMct (groups.map readTestGroup) ∧ NoMct (groups'.map readTestGroup)) ∨
            DesApart (groups.map readTestGroup) (groups'.map readTestGroup)) := by
  constructor
  · refine (groupsApart_iff (fun head rs => objectsOf_responseObject _ _ _) obj groups
      groups').trans ?_
    simp only [aes_parted_iff]
  · refine (groupsApart_iff (fun head rs => objectsOf_responseObject _ _ _) obj groups
      groups').trans ?_
    simp only [des_parted_iff]

/-- A group of AES-GCM with one test. -/
def gcmGroup (id : Nat) (ivGen : String) (iv : JsonObject) : Json :=
  .obj [("tgId", .num id), ("testType", .str "AFT"), ("direction", .str "encrypt"),
    ("keyLen", .num 128), ("ivLen", .num 96), ("ivGen", .str ivGen), ("ivGenMode", .str "8.2.1"),
    ("payloadLen", .num 8), ("aadLen", .num 0), ("tagLen", .num 128),
    ("tests", .arr [.obj ([("tcId", .num id), ("key", .str "00112233445566778899AABBCCDDEEFF"),
      ("pt", .str "A5"), ("aad", .str "")] ++ iv)])]

/-- A group that is given its initialization vector. -/
def gcmExternal : Json := gcmGroup 1 "external" [("iv", .str "000102030405060708090A0B")]

/-- A group whose initialization vector the module generates. -/
def gcmInternal : Json := gcmGroup 2 "internal" []

/-- Each group succeeds alone, and the second one fails after the first. -/
theorem gcm_readIv_leaks :
    ¬GroupsApart (aesKatHandler (.registered .sym .aesGcm))
      [("algorithm", .str "AMVP-AES-GCM")] [gcmExternal] [gcmInternal] := by
  intro hapart
  have hparts := congrArg Option.isSome (hapart (fun tc => (0, tc)) {} {} {})
  revert hparts
  decide +kernel

end LibAmvp
