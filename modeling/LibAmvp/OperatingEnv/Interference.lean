import LibAmvp.OperatingEnv.Loading

/-!
# Loads in one process

The ids of all contexts come from counters of the process, and a module finds its
vendor by comparing an id of one counter with ids of another.  What a file describes is
first stated without ids: the tables that it fills when the vendor of a module is the
one at the same position.  A load gives these tables exactly when the two counters
agree, as far as the file has modules, and no id that is drawn is zero.

Main results:

- Theorem {lit}`loadSteps_follows`: a load with room for its ids gives the described
  tables.
- Theorem {lit}`ingest_sameUpToIds_iff`: after any earlier loads into other contexts, a
  load into a fresh context is the same as in a new process exactly when there is room.
-/

namespace LibAmvp

open IdTable

/-! ## What a file describes -/

/-- The tables without their ids. -/
def OperatingEnv.withoutIds (env : OperatingEnv) : OperatingEnv where
  vendors := env.vendors.map erase
  modules := env.modules.map erase
  dependencies := env.dependencies.map erase
  oes := env.oes.map erase
  metadataLoaded := env.metadataLoaded

/-- A vendor without an id. -/
def plainVendor (obj : JsonObject) : Prog OperatingEnv AmvpResult := fun env =>
  match jsonObjectGetString (some obj) "name" with
  | none => (.invalidArg, env)
  | some name =>
    if env.vendors.length = libamvpVendorsMax then (.unsupportedOp, env)
    else
      let r := newVendor obj name { id := 0 }
      (r.1, { env with vendors := env.vendors ++ [r.2] })

/-- The vendor at the position of the next module. -/
def plainModuleVendor (env : OperatingEnv) : Option Nat :=
  if env.modules.length < env.vendors.length then some env.modules.length else none

/-- A module without an id; its vendor is the one at the same position. -/
def plainModule (obj : JsonObject) : Prog OperatingEnv AmvpResult := fun env =>
  match jsonObjectGetString (some obj) "name" with
  | none => (.invalidArg, env)
  | some name =>
    if env.modules.length = libamvpModulesMax then (.unsupportedOp, env)
    else
      let r := newModule obj name (plainModuleVendor env) { id := 0 }
      (r.1, { env with modules := env.modules ++ [r.2] })

/-- A dependency without an id, linked to the newest operating environment. -/
def plainDependency (elem : Json) : Prog OperatingEnv AmvpResult := fun env =>
  let dep := dependencyOf (jsonValueGetObject (some elem))
  if (dep.type.isNone && dep.name.isNone && dep.description.isNone) = true then (.jsonErr, env)
  else if env.dependencies.length = libamvpDependenciesMax then (.invalidArg, env)
  else
    let r := fillDependency dep { id := 0 }
    let created := { env with dependencies := env.dependencies ++ [r.2] }
    if r.1 ≠ .success then (r.1, created)
    else (.success, { created with oes := created.oes.modifyLast fun oe =>
      { oe with dependencies := oe.dependencies ++ [env.dependencies.length] } })

/-- An operating environment without an id. -/
def plainOe (obj : JsonObject) : Prog OperatingEnv AmvpResult := fun env =>
  match jsonObjectGetString (some obj) "name" with
  | none => (.invalidArg, env)
  | some name =>
    if env.oes.length = libamvpOesMax then (.unsupportedOp, env)
    else
      let r := Oe.copyName (some name) { id := 0 }
      let created := { env with oes := env.oes ++ [r.2] }
      if r.1 ≠ .success then (r.1, created)
      else
        match jsonObjectGetArray (some obj) "dependencies" with
        | none => (.jsonErr, created)
        | some [] => (.jsonErr, created)
        | some elems => forEach plainDependency elems created

/-- An element of an array, which has to be an object. -/
def plainElement (plain : JsonObject → Prog OperatingEnv AmvpResult) (elem : Json) :
    Prog OperatingEnv AmvpResult := fun env =>
  match jsonValueGetObject (some elem) with
  | none => (.jsonErr, env)
  | some obj => plain obj env

/-- The vendors of a file. -/
def plainVendors (obj : JsonObject) : Prog OperatingEnv AmvpResult :=
  match jsonObjectGetArray (some obj) "vendors" with
  | none => return .jsonErr
  | some [] => return .malformedJson
  | some elems => forEach (plainElement plainVendor) elems

/-- The modules of a file. -/
def plainModules (obj : JsonObject) : Prog OperatingEnv AmvpResult :=
  match jsonObjectGetArray (some obj) "modules" with
  | none => return .jsonErr
  | some elems => forEach (plainElement plainModule) elems

/-- The operating environments of a file. -/
def plainOes (obj : JsonObject) : Prog OperatingEnv AmvpResult :=
  match jsonObjectGetArray (some obj) "operating_environments" with
  | none => return .jsonErr
  | some elems => forEach (plainElement plainOe) elems

/-- The tables that a file describes. -/
def plainLoad (obj : JsonObject) : Prog OperatingEnv AmvpResult :=
  andThen (plainVendors obj) <| andThen (plainModules obj) <| andThen (plainOes obj) <| do
    Prog.update fun env => { env with metadataLoaded := true }
    return .success

/-! ## Growth -/

/-- The tables are no longer than their capacities. -/
structure Within (env : OperatingEnv) : Prop where
  vendors : env.vendors.length ≤ libamvpVendorsMax
  modules : env.modules.length ≤ libamvpModulesMax
  dependencies : env.dependencies.length ≤ libamvpDependenciesMax
  oes : env.oes.length ≤ libamvpOesMax

/-- Tables never lose entries, and stay within their capacities. -/
def idFrame : Frame OperatingEnv where
  rel a b := (a.vendors.length ≤ b.vendors.length ∧ a.modules.length ≤ b.modules.length ∧
    a.dependencies.length ≤ b.dependencies.length ∧ a.oes.length ≤ b.oes.length) ∧
    (Within a → Within b)
  refl _ := ⟨⟨le_rfl, le_rfl, le_rfl, le_rfl⟩, id⟩
  trans := by
    rintro a b c ⟨⟨hv, hm, hd, ho⟩, hw⟩ ⟨⟨hv', hm', hd', ho'⟩, hw'⟩
    exact ⟨⟨hv.trans hv', hm.trans hm', hd.trans hd', ho.trans ho'⟩, hw' ∘ hw⟩

/-- One more entry in a table that is not full. -/
theorem length_concat_le {α : Type} {l : List α} {max : Nat} (hle : l.length ≤ max)
    (hfull : l.length ≠ max) (x : α) : (l ++ [x]).length ≤ max := by
  rw [List.length_append, List.length_singleton]
  omega

/-- Adding a vendor stays within the capacity of its table. -/
theorem idFrame_plainVendor (obj : JsonObject) : idFrame.Keeps (plainVendor obj) := by
  intro env
  rw [plainVendor]
  split
  · exact idFrame.refl env
  · split_ifs with hfull
    · exact idFrame.refl env
    · exact ⟨⟨by simp, le_rfl, le_rfl, le_rfl⟩, fun h => { h with
        vendors := length_concat_le h.vendors hfull _ }⟩

/-- So does adding a module. -/
theorem idFrame_plainModule (obj : JsonObject) : idFrame.Keeps (plainModule obj) := by
  intro env
  rw [plainModule]
  split
  · exact idFrame.refl env
  · split_ifs with hfull
    · exact idFrame.refl env
    · exact ⟨⟨le_rfl, by simp, le_rfl, le_rfl⟩, fun h => { h with
        modules := length_concat_le h.modules hfull _ }⟩

/-- And adding a dependency. -/
theorem idFrame_plainDependency (elem : Json) : idFrame.Keeps (plainDependency elem) := by
  intro env
  rw [plainDependency]
  dsimp only
  split_ifs with hnothing hfull hrv
  · exact idFrame.refl env
  · exact idFrame.refl env
  · exact ⟨⟨le_rfl, le_rfl, by simp, le_rfl⟩, fun h => { h with
      dependencies := length_concat_le h.dependencies hfull _ }⟩
  · exact ⟨⟨le_rfl, le_rfl, by simp, by simp [length_modifyLast]⟩, fun h => { h with
      dependencies := length_concat_le h.dependencies hfull _
      oes := by simpa [length_modifyLast] using h.oes }⟩

/-- And adding an environment. -/
theorem idFrame_plainOe (obj : JsonObject) : idFrame.Keeps (plainOe obj) := by
  intro env
  rw [plainOe]
  split
  · exact idFrame.refl env
  · dsimp only
    by_cases hfull : env.oes.length = libamvpOesMax
    · rw [if_pos hfull]
      exact idFrame.refl env
    rw [if_neg hfull]
    have hcreated : ∀ oe : Oe, idFrame.rel env { env with oes := env.oes ++ [oe] } :=
      fun _ => ⟨⟨le_rfl, le_rfl, le_rfl, by simp⟩, fun h => { h with
        oes := length_concat_le h.oes hfull _ }⟩
    split_ifs
    · exact hcreated _
    · split
      · exact hcreated _
      · exact hcreated _
      · exact idFrame.trans (hcreated _) (keeps_forEach idFrame_plainDependency _ _)

/-- And a step made with an element of an array. -/
theorem idFrame_plainElement {plain : JsonObject → Prog OperatingEnv AmvpResult}
    (hplain : ∀ obj, idFrame.Keeps (plain obj)) (elem : Json) :
    idFrame.Keeps (plainElement plain elem) := by
  intro env
  rw [plainElement]
  split
  · exact idFrame.refl env
  · exact hplain _ env

/-- The vendors of a file stay within the capacity. -/
theorem idFrame_plainVendors (obj : JsonObject) : idFrame.Keeps (plainVendors obj) := by
  rw [plainVendors]
  split
  · exact .pure _
  · exact .pure _
  · exact keeps_forEach (idFrame_plainElement idFrame_plainVendor) _

/-- So do its modules. -/
theorem idFrame_plainModules (obj : JsonObject) : idFrame.Keeps (plainModules obj) := by
  rw [plainModules]
  split
  · exact .pure _
  · exact keeps_forEach (idFrame_plainElement idFrame_plainModule) _

/-- And its environments. -/
theorem idFrame_plainOes (obj : JsonObject) : idFrame.Keeps (plainOes obj) := by
  rw [plainOes]
  split
  · exact .pure _
  · exact keeps_forEach (idFrame_plainElement idFrame_plainOe) _

/-- And a load as a whole. -/
theorem idFrame_plainLoad (obj : JsonObject) : idFrame.Keeps (plainLoad obj) :=
  keeps_andThen (idFrame_plainVendors obj) <| keeps_andThen (idFrame_plainModules obj) <|
    keeps_andThen (idFrame_plainOes obj) fun _ =>
      ⟨⟨le_rfl, le_rfl, le_rfl, le_rfl⟩, fun h => { h with }⟩

/-! ## Room for ids -/

/-- Counters from which the ids of these tables can be drawn: those of vendors and modules
agree when there is a module, and no id is zero. -/
structure Room (k : OeCounters) (env : OperatingEnv) : Prop where
  aligned : env.modules ≠ [] → k.vendorId = k.moduleId
  vendors : ∀ i < env.vendors.length, k.vendorId + UInt32.ofNat i ≠ 0
  modules : ∀ i < env.modules.length, k.moduleId + UInt32.ofNat i ≠ 0
  dependencies : ∀ i < env.dependencies.length, k.dependencyId + UInt32.ofNat i ≠ 0
  oes : ∀ i < env.oes.length, k.oeId + UInt32.ofNat i ≠ 0

/-- Room for later tables is room for earlier ones. -/
theorem Room.mono {k : OeCounters} {a b : OperatingEnv} (h : Room k b) (hab : idFrame.rel a b) :
    Room k a where
  aligned hne := h.aligned (List.ne_nil_of_length_pos
    ((List.length_pos_of_ne_nil hne).trans_le hab.1.2.1))
  vendors i hi := h.vendors i (hi.trans_le hab.1.1)
  modules i hi := h.modules i (hi.trans_le hab.1.2.1)
  dependencies i hi := h.dependencies i (hi.trans_le hab.1.2.2.1)
  oes i hi := h.oes i (hi.trans_le hab.1.2.2.2)

/-- A new process has room for all tables within their capacities. -/
theorem Within.room {env : OperatingEnv} (h : Within env) : Room {} env := by
  have hone : ∀ {n max : Nat}, n ≤ max → max < 2 ^ 32 - 1 →
      ∀ i < n, (1 : UInt32) + UInt32.ofNat i ≠ 0 := by
    intro n max hn hmax i hi hzero
    have htoNat := congrArg UInt32.toNat hzero
    rw [UInt32.toNat_add, UInt32.toNat_ofNat_of_lt' (by simp only [UInt32.size]; omega)] at htoNat
    simp at htoNat
    omega
  exact ⟨fun _ => rfl, hone h.vendors (by decide), hone h.modules (by decide),
    hone h.dependencies (by decide), hone h.oes (by decide)⟩

/-! ## Steps with room -/

/-- From a state of a load with this property, and with room for the outcome, the program
does to the tables what the other does without ids. -/
def Follows (k : OeCounters) (I : OeState → Prop) (m : Prog OeState AmvpResult)
    (p : Prog OperatingEnv AmvpResult) : Prop :=
  ∀ s, Ready k s → I s → Room k (p s.env.withoutIds).2 →
    ((m s).1, (m s).2.env.withoutIds) = p s.env.withoutIds

/-- The load goes on after a success, with another property. -/
def Continues (k : OeCounters) (I J : OeState → Prop) (m : Prog OeState AmvpResult) : Prop :=
  ∀ s, Ready k s → I s → Sound k (m s) ∧ ((m s).1 = .success → J (m s).2)

section Follows

variable {k : OeCounters} {I J : OeState → Prop}

/-- Programs that follow one another in sequence follow the sequence without ids. -/
theorem Follows.andThen {m n : Prog OeState AmvpResult} {p q : Prog OperatingEnv AmvpResult}
    (hm : Follows k I m p) (hcontinues : Continues k I J m) (hn : Follows k J n q)
    (hq : idFrame.Keeps q) : Follows k I (LibAmvp.andThen m n) (LibAmvp.andThen p q) := by
  intro s hs hI hroom
  obtain ⟨⟨rv, s₁⟩, hrun⟩ : ∃ r, m s = r := ⟨_, rfl⟩
  obtain ⟨⟨rv', env₁⟩, hplain⟩ : ∃ r, p s.env.withoutIds = r := ⟨_, rfl⟩
  have hfirst := hm s hs hI
  obtain ⟨hsound, hJ⟩ := hcontinues s hs hI
  rw [hrun] at hfirst hsound hJ
  rw [hplain] at hfirst
  by_cases hrv : rv' = .success
  · subst hrv
    rw [andThen_of_success hplain] at hroom ⊢
    obtain ⟨rfl, rfl⟩ := Prod.mk.inj (hfirst (hroom.mono (hq env₁)))
    rw [andThen_of_success hrun]
    exact hn s₁ (hsound.2 rfl) (hJ rfl) hroom
  · rw [andThen_of_failure hplain hrv] at hroom ⊢
    obtain ⟨rfl, rfl⟩ := Prod.mk.inj (hfirst hroom)
    rw [andThen_of_failure hrun hrv]

/-- A loop follows a loop whose body it follows. -/
theorem Follows.forEach {α : Type} {f : α → Prog OeState AmvpResult}
    {g : α → Prog OperatingEnv AmvpResult} (hf : ∀ x, Follows k I (f x) (g x))
    (hcontinues : ∀ x, Continues k I I (f x)) (hg : ∀ x, idFrame.Keeps (g x)) (xs : List α) :
    Follows k I (LibAmvp.forEach f xs) (LibAmvp.forEach g xs) := by
  induction xs with
  | nil => exact fun _ _ _ _ => rfl
  | cons x xs ih => exact (hf x).andThen (hcontinues x) ih (keeps_forEach hg xs)

/-- A step made with an element follows when the step does for objects. -/
theorem Follows.element {step : JsonObject → OeState → AmvpResult × OeState}
    {plain : JsonObject → Prog OperatingEnv AmvpResult}
    (hstep : ∀ obj, Follows k I (step obj) (plain obj)) (elem : Json) :
    Follows k I (stepElement step elem) (plainElement plain elem) := by
  intro s hs hI hroom
  rw [plainElement] at hroom ⊢
  rw [stepElement]
  cases hobj : jsonValueGetObject (some elem) with
  | none => rfl
  | some obj =>
      rw [hobj] at hroom
      exact hstep obj s hs hI hroom

/-- And goes on as the step does. -/
theorem Continues.element {step : JsonObject → OeState → AmvpResult × OeState}
    (hstep : ∀ obj, Continues k I J (step obj)) (elem : Json) :
    Continues k I J (stepElement step elem) := by
  intro s hs hI
  rw [stepElement]
  cases jsonValueGetObject (some elem) with
  | none => exact ⟨sound_of_refused hs (by decide) rfl, fun hsuccess => by cases hsuccess⟩
  | some obj => exact hstep obj s hs hI

/-! ## Vendors and modules -/

/-- The step for a vendor does to the tables what it does without ids. -/
theorem vendorStep_follows (obj : JsonObject) : Follows k I (vendorStep obj) (plainVendor obj) := by
  intro s hs _ hroom
  rw [plainVendor] at hroom ⊢
  rw [vendorStep]
  cases hname : jsonObjectGetString (some obj) "name" with
  | none => rfl
  | some name =>
      rw [hname] at hroom
      dsimp only at hroom ⊢
      have hlength : s.env.withoutIds.vendors.length = s.env.vendors.length := List.length_map _
      by_cases hfull : s.env.vendors.length = libamvpVendorsMax
      · rw [if_pos hfull, if_pos (hlength.trans hfull)]
      have hplain : s.env.withoutIds.vendors.length ≠ libamvpVendorsMax := by rwa [hlength]
      rw [if_neg hplain] at hroom ⊢
      have hid : s.counters.vendorId ≠ 0 := by
        rw [hs.vendorId]
        exact hroom.vendors s.env.vendors.length (by simp [hlength])
      have hfill : newVendor obj name { id := 0 } = _ :=
        blind_newVendor obj name 0 { id := s.counters.vendorId }
      rw [if_neg hfull, if_neg hid, hfill]
      simp [OperatingEnv.withoutIds, erase]

/-- With equal counters the vendor of a module is the one at its position. -/
theorem Ready.findVendor_moduleId {s : OeState} (h : Ready k s) (haligned : k.vendorId = k.moduleId) :
    findVendor s.env s.counters.moduleId = plainModuleVendor s.env := by
  have hvendors := h.tabled.vendorsMax
  have hmodules := h.tabled.modulesMax
  simp only [libamvpVendorsMax, libamvpModulesMax] at hvendors hmodules
  apply Option.ext
  intro i
  rw [findVendor, h.tabled.vendors.findEntry_eq_some_iff (by omega), h.moduleId, ← haligned,
    plainModuleVendor]
  constructor
  · rintro ⟨hi, hsame⟩
    obtain rfl := add_ofNat_inj (by omega) (by omega) hsame
    rw [if_pos hi]
  · intro hi
    split_ifs at hi with hlt
    obtain rfl := Option.some.inj hi
    exact ⟨hlt, rfl⟩

/-- So does the step for a module. -/
theorem moduleStep_follows (obj : JsonObject) : Follows k I (moduleStep obj) (plainModule obj) := by
  intro s hs _ hroom
  rw [plainModule] at hroom ⊢
  rw [moduleStep]
  cases hname : jsonObjectGetString (some obj) "name" with
  | none => rfl
  | some name =>
      rw [hname] at hroom
      dsimp only at hroom ⊢
      have hlength : s.env.withoutIds.modules.length = s.env.modules.length := List.length_map _
      by_cases hfull : s.env.modules.length = libamvpModulesMax
      · rw [if_pos hfull, if_pos (hlength.trans hfull)]
      have hplain : s.env.withoutIds.modules.length ≠ libamvpModulesMax := by rwa [hlength]
      rw [if_neg hplain] at hroom ⊢
      have hid : s.counters.moduleId ≠ 0 := by
        rw [hs.moduleId]
        exact hroom.modules s.env.modules.length (by simp [hlength])
      have hvendor : plainModuleVendor s.env.withoutIds =
          findVendor s.env s.counters.moduleId := by
        rw [hs.findVendor_moduleId (hroom.aligned (by simp))]
        simp [plainModuleVendor, OperatingEnv.withoutIds]
      have hfill : newModule obj name (findVendor s.env s.counters.moduleId) { id := 0 } = _ :=
        blind_newModule obj name _ 0 { id := s.counters.moduleId }
      rw [if_neg hfull, if_neg hid, hvendor, hfill]
      simp [OperatingEnv.withoutIds, erase]

/-! ## Dependencies and operating environments -/

/-- Changing the last entry commutes with a map that respects the change. -/
theorem map_modifyLast {α β : Type} {f : α → β} {g : α → α} {g' : β → β}
    (h : ∀ x, f (g x) = g' (f x)) (l : List α) :
    (l.modifyLast g).map f = (l.map f).modifyLast g' := by
  induction l using List.reverseRecOn with
  | nil => rfl
  | append_singleton l x _ => simp [List.modifyLast_concat, h]

/-- So does the step for a dependency. -/
theorem dependencyStep_follows (elem : Json) :
    Follows k I (dependencyStep elem) (plainDependency elem) := by
  intro s hs _ hroom
  rw [plainDependency] at hroom ⊢
  rw [dependencyStep]
  dsimp only at hroom ⊢
  by_cases hnothing : ((dependencyOf (jsonValueGetObject (some elem))).type.isNone &&
      (dependencyOf (jsonValueGetObject (some elem))).name.isNone &&
      (dependencyOf (jsonValueGetObject (some elem))).description.isNone) = true
  · rw [if_pos hnothing, if_pos hnothing]
  rw [if_neg hnothing] at hroom ⊢
  rw [if_neg hnothing]
  have hlength : s.env.withoutIds.dependencies.length = s.env.dependencies.length :=
    List.length_map _
  by_cases hfull : s.env.dependencies.length = libamvpDependenciesMax
  · rw [if_pos hfull, if_pos (hlength.trans hfull)]
  have hplain : s.env.withoutIds.dependencies.length ≠ libamvpDependenciesMax := by rwa [hlength]
  rw [if_neg hplain] at hroom ⊢
  have hid : s.counters.dependencyId ≠ 0 := by
    rw [hs.dependencyId]
    refine hroom.dependencies s.env.dependencies.length ?_
    split_ifs <;> simp [hlength]
  have hfill : fillDependency (dependencyOf (jsonValueGetObject (some elem))) { id := 0 } = _ :=
    blind_fillDependency _ 0 { id := s.counters.dependencyId }
  rw [if_neg hfull, if_neg hid, hfill]
  dsimp only
  split_ifs
  · simp [OperatingEnv.withoutIds, erase]
  · have hlinks : (s.env.oes.modifyLast fun oe => { oe with
          dependencies := oe.dependencies ++ [s.env.dependencies.length] }).map erase =
        (s.env.oes.map erase).modifyLast fun oe => { oe with
          dependencies := oe.dependencies ++ [s.env.dependencies.length] } := by
      refine map_modifyLast ?_ s.env.oes
      exact fun _ => rfl
    simp only [OperatingEnv.withoutIds, hlinks, List.map_append, List.length_map]
    rfl

/-- During the dependencies there is a newest operating environment. -/
theorem dependencyStep_continues (elem : Json) :
    Continues k (fun s => s.env.oes ≠ []) (fun s => s.env.oes ≠ []) (dependencyStep elem) := by
  intro s hs hne
  obtain ⟨before, oe, hoes⟩ := List.eq_nil_or_concat s.env.oes |>.resolve_left hne
  rw [List.concat_eq_append] at hoes
  obtain ⟨hsound, hnext⟩ := dependencyStep_sound hs hoes elem
  refine ⟨hsound, fun hsuccess => ?_⟩
  obtain ⟨oe', -, hoes'⟩ := hnext hsuccess
  simp [hoes']

/-- And the step for an environment. -/
theorem oeStep_follows (obj : JsonObject) : Follows k I (oeStep obj) (plainOe obj) := by
  intro s hs _ hroom
  rw [plainOe] at hroom ⊢
  rw [oeStep]
  cases hname : jsonObjectGetString (some obj) "name" with
  | none => rfl
  | some name =>
      rw [hname] at hroom
      dsimp only at hroom ⊢
      have hlength : s.env.withoutIds.oes.length = s.env.oes.length := List.length_map _
      by_cases hfull : s.env.oes.length = libamvpOesMax
      · rw [if_pos hfull, if_pos (hlength.trans hfull)]
      have hplain : s.env.withoutIds.oes.length ≠ libamvpOesMax := by rwa [hlength]
      rw [if_neg hplain] at hroom ⊢
      obtain ⟨⟨rv, oe⟩, hcopy⟩ : ∃ r, Oe.copyName (some name) { id := s.counters.oeId } = r :=
        ⟨_, rfl⟩
      have hfill : Oe.copyName (some name) { id := 0 } = _ :=
        blind_oeCopyName (some name) 0 { id := s.counters.oeId }
      rw [hcopy] at hfill
      rw [hfill] at hroom ⊢
      have hcreated : { s.env.withoutIds with oes := s.env.withoutIds.oes ++ [Entry.withId 0 oe] } =
          ({ s.env with oes := s.env.oes ++ [oe] } : OperatingEnv).withoutIds := by
        simp [OperatingEnv.withoutIds, erase]
      dsimp only at hroom ⊢
      rw [hcreated] at hroom ⊢
      have hid : s.counters.oeId ≠ 0 := by
        rw [hs.oeId]
        refine Room.oes (hroom.mono ?_) s.env.oes.length
          (show _ < (({ s.env with oes := s.env.oes ++ [oe] } : OperatingEnv).withoutIds).oes.length
            by simp [OperatingEnv.withoutIds])
        split_ifs
        · exact idFrame.refl _
        · split
          · exact idFrame.refl _
          · exact idFrame.refl _
          · exact keeps_forEach idFrame_plainDependency _ _
      obtain ⟨-, hready⟩ := createdOe hs hfull hid hcopy
      rw [if_neg hfull, if_neg hid, hcopy]
      dsimp only
      by_cases hrv : rv = .success
      · rw [if_neg (not_not.mpr hrv)] at hroom ⊢
        rw [if_neg (not_not.mpr hrv)]
        cases harray : jsonObjectGetArray (some obj) "dependencies" with
        | none => rfl
        | some elems =>
            rw [harray] at hroom
            cases elems with
            | nil => rfl
            | cons elem elems =>
                exact Follows.forEach dependencyStep_follows dependencyStep_continues
                  idFrame_plainDependency (elem :: elems) _ hready (by simp) hroom
      · rw [if_pos hrv, if_pos hrv]

/-! ## Whole loads -/

/-- The vendors of a file are loaded as without ids. -/
theorem vendorSteps_follows (obj : JsonObject) :
    Follows k (fun s => s.env.modules = []) (vendorSteps obj) (plainVendors obj) := by
  rw [vendorSteps, plainVendors]
  cases jsonObjectGetArray (some obj) "vendors" with
  | none => exact fun _ _ _ _ => rfl
  | some elems =>
      cases elems with
      | nil => exact fun _ _ _ _ => rfl
      | cons elem elems =>
          refine Follows.forEach (Follows.element vendorStep_follows) (Continues.element ?_)
            (idFrame_plainElement idFrame_plainVendor) (elem :: elems)
          exact fun obj s hs hI => ⟨vendorStep_sound hs hI obj, fun _ =>
            (vendorStep_modules obj s).trans hI⟩

/-- So are its modules. -/
theorem moduleSteps_follows (obj : JsonObject) :
    Follows k (fun s => s.env.vendors ≠ []) (moduleSteps obj) (plainModules obj) := by
  rw [moduleSteps, plainModules]
  cases jsonObjectGetArray (some obj) "modules" with
  | none => exact fun _ _ _ _ => rfl
  | some elems =>
      refine Follows.forEach (Follows.element moduleStep_follows) (Continues.element ?_)
        (idFrame_plainElement idFrame_plainModule) elems
      exact fun obj s hs hI => ⟨moduleStep_sound hs hI obj, fun _ => by
        rw [moduleStep_vendors]
        exact hI⟩

/-- And its environments. -/
theorem oeSteps_follows (obj : JsonObject) :
    Follows k (fun _ => True) (oeSteps obj) (plainOes obj) := by
  rw [oeSteps, plainOes]
  cases jsonObjectGetArray (some obj) "operating_environments" with
  | none => exact fun _ _ _ _ => rfl
  | some elems =>
      refine Follows.forEach (Follows.element oeStep_follows) (Continues.element ?_)
        (idFrame_plainElement idFrame_plainOe) elems
      exact fun obj s hs _ => ⟨oeStep_sound hs obj, fun _ => trivial⟩

/-- A load with room for its ids gives the described tables. -/
theorem loadSteps_follows (obj : JsonObject) :
    Follows k (fun s => s.env.modules = []) (loadSteps obj) (plainLoad obj) := by
  have hmark : idFrame.Keeps (do
      Prog.update fun env => { env with metadataLoaded := true }
      return .success : Prog OperatingEnv AmvpResult) :=
    fun _ => ⟨⟨le_rfl, le_rfl, le_rfl, le_rfl⟩, fun h => { h with }⟩
  refine (vendorSteps_follows obj).andThen (J := fun s => s.env.vendors ≠ [])
    (fun s hs hI => (parseVendors_eq hs hI obj).2) ?_
    (keeps_andThen (idFrame_plainModules obj) (keeps_andThen (idFrame_plainOes obj) hmark))
  refine (moduleSteps_follows obj).andThen (J := fun _ => True)
    (fun s hs hI => ⟨(parseModules_eq hs hI obj).2, fun _ => trivial⟩) ?_
    (keeps_andThen (idFrame_plainOes obj) hmark)
  refine (oeSteps_follows obj).andThen (J := fun _ => True)
    (fun s hs _ => ⟨(parseOes_eq hs obj).2, fun _ => trivial⟩) ?_ hmark
  exact fun _ _ _ _ => rfl

/-- With room for the outcome, a load from empty tables is the load without ids. -/
theorem loadMetadata_of_room {obj : JsonObject} (hroom : Room k (plainLoad obj {}).2) :
    ((loadMetadata obj ⟨k, {}⟩).1, (loadMetadata obj ⟨k, {}⟩).2.env.withoutIds) =
      plainLoad obj {} := by
  rw [(loadMetadata_eq k obj).1]
  exact loadSteps_follows obj ⟨k, {}⟩ (ready_start k) rfl hroom

/-- In a new process there is always room. -/
theorem loadMetadata_new_process (obj : JsonObject) :
    ((loadMetadata obj ⟨{}, {}⟩).1, (loadMetadata obj ⟨{}, {}⟩).2.env.withoutIds) =
      plainLoad obj {} := by
  have hempty : Within {} := ⟨Nat.zero_le _, Nat.zero_le _, Nat.zero_le _, Nat.zero_le _⟩
  exact loadMetadata_of_room ((idFrame_plainLoad obj {}).2 hempty).room

/-- Tables of a load that are those of a new process up to ids had room for their ids. -/
theorem Tabled.room {env env₀ : OperatingEnv} (h : Tabled k env) (h₀ : Tabled {} env₀)
    (hsame : env.withoutIds = env₀.withoutIds) : Room k env₀.withoutIds := by
  have hmax := h.vendorsMax
  have hmax₀ := h₀.vendorsMax
  simp only [libamvpVendorsMax] at hmax hmax₀
  rw [← hsame]
  refine ⟨fun hne => ?_, fun i hi => ?_, fun i hi => ?_, fun i hi => ?_, fun i hi => ?_⟩
  · -- the first module has the first vendor in a new process, so it has it here
    have hmodules : env.modules.map erase = env₀.modules.map erase :=
      congrArg OperatingEnv.modules hsame
    obtain ⟨m, ms, hm⟩ : ∃ m ms, env.modules = m :: ms :=
      List.exists_cons_of_ne_nil fun hnil => hne (by simp [OperatingEnv.withoutIds, hnil])
    obtain ⟨m₀, ms₀, hm₀⟩ : ∃ m₀ ms₀, env₀.modules = m₀ :: ms₀ :=
      List.exists_cons_of_ne_nil fun hnil => by simp [hm, hnil] at hmodules
    have hvendor : m.vendor = m₀.vendor := by
      rw [hm, hm₀, List.map_cons, List.map_cons] at hmodules
      show (erase m).vendor = (erase m₀).vendor
      exact congrArg Module.vendor (List.cons.inj hmodules).1
    have hfirst : m₀.vendor = some 0 := by
      rw [h₀.moduleVendor 0 m₀ (by simp [hm₀]), findVendor,
        h₀.vendors.findEntry_eq_some_iff (by omega)]
      exact ⟨List.length_pos_of_ne_nil (h₀.modulesLater (by simp [hm₀])), rfl⟩
    have hfound := (h.moduleVendor 0 m (by simp [hm])).symm.trans (hvendor.trans hfirst)
    rw [findVendor, h.vendors.findEntry_eq_some_iff (by omega)] at hfound
    simpa using hfound.2.symm
  · exact h.vendors.base_ne_zero (by simpa [OperatingEnv.withoutIds] using hi)
  · exact h.modules.base_ne_zero (by simpa [OperatingEnv.withoutIds] using hi)
  · exact h.dependencies.base_ne_zero (by simpa [OperatingEnv.withoutIds] using hi)
  · exact h.oes.base_ne_zero (by simpa [OperatingEnv.withoutIds] using hi)

end Follows

/-! ## Loads into several contexts -/

/-- A process: its counters, and its contexts. -/
structure Process where
  counters : OeCounters := {}
  contexts : Nat → OperatingEnv := fun _ => {}

/-- A call of {lit}`amvp_oe_ingest_metadata`. -/
structure Ingest where
  ctx : Nat
  files : String → Option Json
  file : Option String

/-- One load into one of the contexts. -/
def Process.ingest (p : Process) (call : Ingest) : AmvpResult × Process :=
  let r := oeIngestMetadata call.files call.file ⟨p.counters, p.contexts call.ctx⟩
  (r.1, ⟨r.2.counters, Function.update p.contexts call.ctx r.2.env⟩)

/-- Loads, one after the other, successful or not. -/
def Process.run (p : Process) (calls : List Ingest) : Process :=
  calls.foldl (fun p call => (p.ingest call).2) p

/-- The object of the file of a call, or why the call is refused. -/
def Ingest.object (call : Ingest) : Except AmvpResult JsonObject :=
  match call.file with
  | none => .error .missingArg
  | some file =>
    if amvpJsonFilenameMax < file.length then .error .invalidArg
    else
      match jsonValueGetObject (call.files file) with
      | none => .error .jsonErr
      | some obj => .ok obj

/-- The tables that the file of a call describes; a call that is refused describes none. -/
def Ingest.described (call : Ingest) : OperatingEnv :=
  match call.object with
  | .error _ => {}
  | .ok obj => (plainLoad obj {}).2

/-- One result, and one context up to ids. -/
def SameUpToIds (ctx : Nat) (r r' : AmvpResult × Process) : Prop :=
  r.1 = r'.1 ∧ (r.2.contexts ctx).withoutIds = (r'.2.contexts ctx).withoutIds

/-- Loads into other contexts leave a context alone. -/
theorem Process.run_contexts {ctx : Nat} (p : Process) {calls : List Ingest}
    (h : ∀ call ∈ calls, call.ctx ≠ ctx) : (p.run calls).contexts ctx = p.contexts ctx := by
  induction calls generalizing p with
  | nil => rfl
  | cons call calls ih =>
      have hcall : call.ctx ≠ ctx := h call (by simp)
      refine (ih (p.ingest call).2 fun c hc => h c (by simp [hc])).trans ?_
      exact Function.update_of_ne hcall.symm _ _

/-- For empty tables there is always room. -/
theorem room_empty (k : OeCounters) : Room k {} :=
  ⟨fun h => absurd rfl h, by simp, by simp, by simp, by simp⟩

/-- What an ingest does: nothing without a file that can be read, else a load. -/
theorem Ingest.oeIngestMetadata_eq (call : Ingest) (s : OeState) :
    oeIngestMetadata call.files call.file s =
      match call.object with
      | .error rv => (rv, s)
      | .ok obj => loadMetadata obj s := by
  rw [Ingest.object]
  cases call.file with
  | none => rfl
  | some file =>
      rw [oeIngestMetadata, Prog.ite_apply]
      dsimp only
      split_ifs
      · rfl
      · cases call.files file with
        | none => rfl
        | some val =>
            dsimp only
            cases jsonValueGetObject (some val) <;> rfl

/-- Loads into a fresh context, with the counters of a history and of a new process. -/
theorem ingestMetadata_sameUpToIds_iff (k : OeCounters) (call : Ingest) :
    ((oeIngestMetadata call.files call.file ⟨k, {}⟩).1 =
        (oeIngestMetadata call.files call.file ⟨{}, {}⟩).1 ∧
      (oeIngestMetadata call.files call.file ⟨k, {}⟩).2.env.withoutIds =
        (oeIngestMetadata call.files call.file ⟨{}, {}⟩).2.env.withoutIds) ↔
    Room k call.described := by
  rw [call.oeIngestMetadata_eq, call.oeIngestMetadata_eq, Ingest.described]
  cases call.object with
  | error rv => exact iff_of_true ⟨rfl, rfl⟩ (room_empty k)
  | ok obj =>
      have hnew := loadMetadata_new_process obj
      constructor
      · rintro ⟨-, hsame⟩
        have htabled := (loadMetadata_eq k obj).2
        have htabled₀ := (loadMetadata_eq {} obj).2
        rw [← (loadMetadata_eq _ obj).1] at htabled htabled₀
        dsimp only
        rw [← hnew]
        exact htabled.room htabled₀ hsame
      · intro hroom
        exact Prod.mk.inj ((loadMetadata_of_room hroom).trans hnew.symm)

/-- After any earlier loads into other contexts, a load into a fresh context is the same as
in a new process, up to ids, exactly when the process has room for the ids of the tables
that the file describes. -/
theorem ingest_sameUpToIds_iff (history : List Ingest) (call : Ingest)
    (hother : ∀ earlier ∈ history, earlier.ctx ≠ call.ctx) :
    SameUpToIds call.ctx ((Process.run {} history).ingest call) (Process.ingest {} call) ↔
      Room (Process.run {} history).counters call.described := by
  have hfresh : (Process.run {} history).contexts call.ctx = {} := Process.run_contexts {} hother
  rw [SameUpToIds, Process.ingest, Process.ingest, hfresh]
  simp only [Function.update_self]
  exact ingestMetadata_sameUpToIds_iff _ call

/-! ## One module too many -/

/-- A metadata object with these vendors and modules. -/
def metadataWith (vendors modules : List String) : JsonObject :=
  [("vendors", .arr (vendors.map fun name => .obj [("name", .str name),
      ("address", .obj [("street1", .str "1 Main Street")]),
      ("contacts", .arr [.obj [("fullName", .str "Contact")]])])),
    ("modules", .arr (modules.map fun name => .obj [("name", .str name),
      ("type", .str "Software")])),
    ("operating_environments", .arr [])]

/-- A load of these vendors and modules. -/
def ingestOf (ctx : Nat) (vendors modules : List String) : Ingest where
  ctx := ctx
  files := fun _ => some (.obj (metadataWith vendors modules))
  file := some "meta.json"

/-- After a file with as many vendors as modules nothing changes. -/
theorem ingest_sameUpToIds_after_pair :
    SameUpToIds 0 ((Process.run {} [ingestOf 1 ["A", "B"] ["M", "N"]]).ingest
      (ingestOf 0 ["C"] ["O"])) (Process.ingest {} (ingestOf 0 ["C"] ["O"])) :=
  (ingest_sameUpToIds_iff [ingestOf 1 ["A", "B"] ["M", "N"]] (ingestOf 0 ["C"] ["O"])
    (by simp [ingestOf])).mpr
      ⟨fun _ => rfl, by decide, by decide, by decide, by decide⟩

/-- After a file with two vendors and one module, a file with one of each is refused that a
new process accepts. -/
theorem ingest_refused_after_other :
    ((Process.run {} [ingestOf 1 ["A", "B"] ["M"]]).ingest (ingestOf 0 ["C"] ["O"])).1 =
        .invalidArg ∧
      (Process.ingest {} (ingestOf 0 ["C"] ["O"])).1 = .success ∧
      ¬ SameUpToIds 0 ((Process.run {} [ingestOf 1 ["A", "B"] ["M"]]).ingest
        (ingestOf 0 ["C"] ["O"])) (Process.ingest {} (ingestOf 0 ["C"] ["O"])) := by
  have hafter : ((Process.run {} [ingestOf 1 ["A", "B"] ["M"]]).ingest
      (ingestOf 0 ["C"] ["O"])).1 = .invalidArg := rfl
  have hnew : (Process.ingest {} (ingestOf 0 ["C"] ["O"])).1 = .success := rfl
  refine ⟨hafter, hnew, fun hsame => ?_⟩
  have hcodes := hsame.1
  rw [hafter, hnew] at hcodes
  cases hcodes

end LibAmvp
