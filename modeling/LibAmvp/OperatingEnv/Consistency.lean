import LibAmvp.Lib.Steps
import LibAmvp.OperatingEnv.Tables

/-!
# The tables stay consistent

Entries enter the tables through calls that name an id, and texts and links are added
to them through further calls.  A validation picks one module and one operating
environment.  A call is *exact* when the tables are consistent after it, and it has
either done what it is for and reported success, or changed nothing and reported a
failure.

Main results:

- Theorem {lit}`exact_iff`: the calls that are not exact.
- Theorem {lit}`calls_exact_iff`: over whole runs of calls.
-/

namespace LibAmvp

open IdTable Steps

/-! ## The state -/

/-- The operating environment of a context and the two pointers of {lit}`ctx->fips`, which
are positions in its tables. -/
structure FipsState where
  env : OperatingEnv := {}
  module : Option Nat := none
  oe : Option Nat := none
deriving DecidableEq

/-- {lit}`find_module`. -/
def findModule (env : OperatingEnv) (id : UInt32) : Option Nat := findEntry id env.modules

/-- Ids are non-zero and distinct in each table, no table exceeds its capacity, and every
module has a vendor and a name. -/
structure OperatingEnv.Consistent (env : OperatingEnv) : Prop where
  vendors : Sound libamvpVendorsMax env.vendors
  modules : Sound libamvpModulesMax env.modules
  dependencies : Sound libamvpDependenciesMax env.dependencies
  oes : Sound libamvpOesMax env.oes
  links : ∀ oe ∈ env.oes, oe.dependencies.length ≤ libamvpDependenciesMax
  complete : ∀ m ∈ env.modules, m.vendor.isSome ∧ m.name.isSome

/-- A context whose tables are consistent. -/
structure ConsistentState where
  state : FipsState
  consistent : state.env.Consistent

/-! ## The calls -/

/-- Run a program on the operating environment of a context. -/
def onOpEnv (m : Prog OperatingEnv AmvpResult) : Prog FipsState AmvpResult :=
  .zoom (·.env) (fun s env => { s with env }) m

/-- Set the module for the validation. -/
def setFipsModule (moduleId : UInt32) : Prog FipsState AmvpResult := fun s =>
  if moduleId = 0 then (.success, s)
  else
    match findModule s.env moduleId with
    | none => (.invalidArg, s)
    | some m => (.success, { s with module := some m })

/-- Set the operating environment for the validation. -/
def setFipsOe (oeId : UInt32) : Prog FipsState AmvpResult := fun s =>
  if oeId = 0 then (.success, s)
  else
    match findOe s.env oeId with
    | none => (.invalidArg, s)
    | some oe => (.success, { s with oe := some oe })

/-- {lit}`amvp_oe_set_fips_validation_metadata`. -/
def oeSetFipsValidationMetadata (moduleId oeId : UInt32) : Prog FipsState AmvpResult := do
  let s ← Prog.read
  if !s.env.metadataLoaded then
    return .invalidArg
  else if moduleId = 0 ∧ oeId = 0 then
    return .invalidArg
  else
    andThen (setFipsModule moduleId) (setFipsOe oeId)

/-- The calls that change the tables or pick from them. -/
inductive OeCall where
  | dependencyNew (id : UInt32)
  | oeNew (id : UInt32) (name : Option String)
  | oeSetDependency (oeId dependencyId : UInt32)
  | vendorNew (id : UInt32) (name : Option String)
  | moduleNew (id : UInt32) (name : Option String)
  | moduleSetTypeVersionDesc (id : UInt32) (type version description : Option String)
  | setFipsValidationMetadata (moduleId oeId : UInt32)

namespace OeCall

/-- Perform a call. -/
def run : OeCall → Prog FipsState AmvpResult
  | dependencyNew id => onOpEnv (oeDependencyNew id)
  | oeNew id name => onOpEnv (oeOeNew id name)
  | oeSetDependency oeId dependencyId => onOpEnv (oeOeSetDependency oeId dependencyId)
  | vendorNew id name => onOpEnv (oeVendorNew id name)
  | moduleNew id name => onOpEnv (oeModuleNew id name)
  | moduleSetTypeVersionDesc id type version description =>
      onOpEnv (oeModuleSetTypeVersionDesc id type version description)
  | setFipsValidationMetadata moduleId oeId => oeSetFipsValidationMetadata moduleId oeId

/-- The state after a call. -/
def step (call : OeCall) (s : FipsState) : Option FipsState := some (call.run s).2

/-- What a call is for: the entry it adds, or the fields it sets in the entry with its id. -/
def intended (call : OeCall) (s : FipsState) : FipsState :=
  match call with
  | dependencyNew id =>
      { s with env.dependencies := s.env.dependencies ++ [{ id := id }] }
  | oeNew id name => { s with env.oes := s.env.oes ++ [{ id := id, name := name }] }
  | oeSetDependency oeId dependencyId =>
      { s with env.oes := s.env.oes.map fun oe =>
          if oe.id = oeId then
            { oe with dependencies :=
                oe.dependencies ++ (findDependency s.env dependencyId).toList }
          else oe }
  | vendorNew id name => { s with env.vendors := s.env.vendors ++ [{ id := id, name := name }] }
  | moduleNew id name =>
      { s with env.modules := s.env.modules ++
          [{ id := id, name := name, vendor := findVendor s.env id }] }
  | moduleSetTypeVersionDesc id type version description =>
      { s with env.modules := s.env.modules.map fun m =>
          if m.id = id then
            { m with
              type := type.or m.type
              version := version.or m.version
              description := description.or m.description }
          else m }
  | setFipsValidationMetadata moduleId oeId =>
      { s with
        module := (findModule s.env moduleId).or s.module
        oe := (findOe s.env oeId).or s.oe }

/-- The call leaves the tables consistent; it reports success for having done what it is
for, and a failure for having changed nothing. -/
structure Exact (call : OeCall) (s : FipsState) : Prop where
  consistent : (call.run s).2.env.Consistent
  success : (call.run s).1 = .success → (call.run s).2 = call.intended s
  failure : (call.run s).1 ≠ .success → (call.run s).2 = s

end OeCall

/-! ## The calls that are not exact -/

/-- A text that fits in a field. -/
def usable (value : Option String) : Bool := value.any (stringFits · amvpOeStrMax)

/-- A text that is given, but does not fit in a field. -/
def tooLong (value : Option String) : Bool := value.any fun s => !stringFits s amvpOeStrMax

/-- A text is given, and it is not the one the field holds. -/
def alters (value old : Option String) : Bool := value.isSome && value != old

/-- Some of the texts for a module are copied before one is found to be too long. -/
def HalfWritten (m : Module) (type version description : Option String) : Prop :=
  tooLong type = false ∧
    ((alters type m.type = true ∧ (tooLong version = true ∨ tooLong description = true)) ∨
      (alters version m.version = true ∧ tooLong version = false ∧ tooLong description = true))

/-- The calls that go wrong: a new entry in a full table of dependencies, an entry that is
counted before its name or its vendor is refused, and texts or a module that are set
before a later argument is refused. -/
def OeCall.GoesWrong (call : OeCall) (s : FipsState) : Prop :=
  match call with
  | dependencyNew _ => s.env.dependencies.length = libamvpDependenciesMax
  | oeNew id name => Admits libamvpOesMax s.env.oes id ∧ tooLong name = true
  | oeSetDependency _ _ => False
  | vendorNew id name => Admits libamvpVendorsMax s.env.vendors id ∧ usable name = false
  | moduleNew id name =>
      Admits libamvpModulesMax s.env.modules id ∧
        (findVendor s.env id = none ∨ usable name = false)
  | moduleSetTypeVersionDesc id type version description =>
      ∃ m ∈ s.env.modules, id ≠ 0 ∧ m.id = id ∧ HalfWritten m type version description
  | setFipsValidationMetadata moduleId oeId =>
      s.env.metadataLoaded = true ∧ oeId ≠ 0 ∧ findOe s.env oeId = none ∧
        ∃ m, findModule s.env moduleId = some m ∧ s.module ≠ some m

/-! ## Copying texts -/

section Texts

variable {value old : Option String}

/-- A text that can be used is copied. -/
theorem copyOeString_of_usable (h : usable value = true) (old : Option String) :
    copyOeString value old = (.success, value) := by
  cases value with
  | none => cases h
  | some s =>
      have hs : stringFits s amvpOeStrMax = true := h
      simp [copyOeString, hs]

/-- One that cannot is refused, and the old text stays. -/
theorem copyOeString_of_not_usable (h : usable value = false) (old : Option String) :
    ∃ rv, rv ≠ .success ∧ copyOeString value old = (rv, old) := by
  cases value with
  | none => exact ⟨.missingArg, by decide, rfl⟩
  | some s =>
      have hs : stringFits s amvpOeStrMax = false := h
      exact ⟨.invalidArg, by decide, by simp [copyOeString, hs]⟩

/-- A text that may be missing is refused only when it is too long. -/
theorem copyGiven_eq (value old : Option String) :
    copyGiven value old =
      if tooLong value then (.invalidArg, old) else (.success, value.or old) := by
  cases value with
  | none => rfl
  | some s =>
      cases hs : stringFits s amvpOeStrMax <;> simp [copyGiven, copyOeString, tooLong, hs]

/-- A text that is there can be used unless it is too long. -/
theorem usable_eq_not_tooLong {s : String} : usable (some s) = !tooLong (some s) := by
  simp [usable, tooLong]

/-- A text is altered when another one is given. -/
theorem or_ne_iff : value.or old ≠ old ↔ alters value old = true := by
  cases value <;> simp [alters]

/-- The texts of a module are copied one after the other, up to the first that is too long. -/
theorem fillModuleTexts_eq (type version description : Option String) (m : Module) :
    fillModuleTexts type version description m =
      if tooLong type then (.invalidArg, m)
      else if tooLong version then (.invalidArg, { m with type := type.or m.type })
      else if tooLong description then
        (.invalidArg, { m with type := type.or m.type, version := version.or m.version })
      else
        (.success, { m with
          type := type.or m.type
          version := version.or m.version
          description := description.or m.description }) := by
  simp only [fillModuleTexts, andThen_apply, Prog.zoom, copyGiven_eq]
  cases tooLong type
  · cases tooLong version
    · cases tooLong description <;> simp
    · simp
  · simp

/-- Texts that are refused leave the module as it was, unless it is half written. -/
theorem fillModuleTexts_failed {type version description : Option String} {m : Module}
    (h : (fillModuleTexts type version description m).1 ≠ .success) :
    (fillModuleTexts type version description m).2 ≠ m ↔
      HalfWritten m type version description := by
  obtain ⟨id, name, mtype, mversion, mdescription, vendor⟩ := m
  rw [fillModuleTexts_eq] at h ⊢
  cases htype : tooLong type
  · cases hversion : tooLong version
    · cases hdescription : tooLong description
      · simp [htype, hversion, hdescription] at h
      · simp [HalfWritten, htype, hversion, hdescription, ← or_ne_iff, imp_iff_not_or]
    · simp [HalfWritten, htype, hversion, ← or_ne_iff]
  · simp [HalfWritten, htype]

/-- A module is written in part only by a call that fails. -/
theorem HalfWritten.not_success {type version description : Option String} {m : Module}
    (h : HalfWritten m type version description) :
    (fillModuleTexts type version description m).1 ≠ .success := by
  rw [fillModuleTexts_eq]
  obtain ⟨htype, ⟨-, hversion | hdescription⟩ | ⟨-, hversion, hdescription⟩⟩ := h
  · simp [htype, hversion]
  · cases tooLong version <;> simp [htype, hdescription]
  · simp [htype, hversion, hdescription]

/-- A call that succeeds copies all of them. -/
theorem fillModuleTexts_of_success {type version description : Option String} {m : Module}
    (h : (fillModuleTexts type version description m).1 = .success) :
    fillModuleTexts type version description m =
      (.success, { m with
        type := type.or m.type
        version := version.or m.version
        description := description.or m.description }) := by
  rw [fillModuleTexts_eq] at h ⊢
  cases htype : tooLong type <;> cases hversion : tooLong version <;>
    cases hdescription : tooLong description <;> simp_all

end Texts

/-! ## New entries -/

section NewEntries

variable {σ τ : Type} [Entry τ] {max : Nat} {table : List τ} {id : UInt32}

/-- The checks of a call that adds an entry. -/
theorem checks_of_admits (h : Admits max table id) (full : AmvpResult)
    (m : Prog σ AmvpResult) (s : σ) :
    (if table.length = max then return full
      else if id = 0 then return .invalidArg
      else if table.any fun x => Entry.ident x == id then return .invalidArg
      else m : Prog σ AmvpResult) s = m s := by
  have hany : table.any (fun x => Entry.ident x == id) = false := by
    rw [List.any_eq_false]
    intro x hx
    simpa using h.fresh x hx
  rw [if_neg h.room, if_neg h.nonzero, hany]
  rfl

/-- An identifier that the table does not admit is refused before anything is done. -/
theorem checks_of_not_admits (h : ¬ Admits max table id) {full : AmvpResult}
    (hfull : table.length = max → full ≠ .success) (m : Prog σ AmvpResult) (s : σ) :
    ∃ rv, rv ≠ .success ∧
      (if table.length = max then return full
        else if id = 0 then return .invalidArg
        else if table.any fun x => Entry.ident x == id then return .invalidArg
        else m : Prog σ AmvpResult) s = (rv, s) := by
  by_cases hroom : table.length = max
  · exact ⟨full, hfull hroom, by rw [if_pos hroom]; rfl⟩
  by_cases hid : id = 0
  · exact ⟨.invalidArg, by decide, by rw [if_neg hroom, if_pos hid]; rfl⟩
  have hany : table.any (fun x => Entry.ident x == id) = true := by
    rw [List.any_eq_true]
    by_contra hnone
    refine h ⟨hroom, hid, fun x hx hsame => hnone ⟨x, hx, by simpa using hsame⟩⟩
  exact ⟨.invalidArg, by decide, by rw [if_neg hroom, if_neg hid, if_pos hany]; rfl⟩

end NewEntries

/-! ## Each call -/

namespace OeCall

variable {call : OeCall} {s : FipsState}

/-- A call that is refused outright is exact. -/
theorem exact_of_refused (hs : s.env.Consistent)
    (h : ∃ rv, rv ≠ .success ∧ call.run s = (rv, s)) : Exact call s := by
  obtain ⟨rv, hrv, hrun⟩ := h
  constructor
  · rwa [hrun]
  · intro hsuccess
    rw [hrun] at hsuccess
    exact absurd hsuccess hrv
  · intro _
    rw [hrun]

/-- A call that has done what it is for is exact. -/
theorem exact_of_done {s' : FipsState} (h : call.run s = (.success, s'))
    (hdone : s' = call.intended s) (hs' : s'.env.Consistent) : Exact call s := by
  constructor
  · rwa [h]
  · intro _
    rwa [h]
  · intro hfailure
    rw [h] at hfailure
    exact absurd rfl hfailure

/-- A call that fails after a change is not exact. -/
theorem not_exact_of_changed {rv : AmvpResult} {s' : FipsState} (h : call.run s = (rv, s'))
    (hrv : rv ≠ .success) (hs' : s' ≠ s) : ¬ Exact call s := by
  intro hexact
  have hsame := hexact.failure (by rw [h]; exact hrv)
  rw [h] at hsame
  exact hs' hsame

/-- An entry that is counted before the call fails is a change. -/
theorem not_exact_of_counted {τ : Type} (table : OperatingEnv → List τ) {entry : τ}
    {rv : AmvpResult} {s' : FipsState} (h : call.run s = (rv, s')) (hrv : rv ≠ .success)
    (hcounted : table s'.env = table s.env ++ [entry]) : ¬ Exact call s := by
  apply not_exact_of_changed h hrv
  intro hsame
  have hlength := congrArg List.length hcounted
  rw [hsame, List.length_append, List.length_singleton] at hlength
  omega

/-- A call on the tables leaves the counters alone. -/
theorem run_onOpEnv {m : Prog OperatingEnv AmvpResult} {rv : AmvpResult} {env : OperatingEnv}
    (h : m s.env = (rv, env)) : onOpEnv m s = (rv, { s with env }) := by
  rw [onOpEnv, Prog.zoom, h]

/-- A refusal of the tables is a refusal of the call. -/
theorem refused_onOpEnv {m : Prog OperatingEnv AmvpResult}
    (h : ∃ rv, rv ≠ .success ∧ m s.env = (rv, s.env)) :
    ∃ rv, rv ≠ .success ∧ onOpEnv m s = (rv, s) := by
  obtain ⟨rv, hrv, hm⟩ := h
  exact ⟨rv, hrv, run_onOpEnv hm⟩

/-- When a call that makes a dependency is exact. -/
theorem dependencyNew_exact_iff (hs : s.env.Consistent) (id : UInt32) :
    Exact (dependencyNew id) s ↔ ¬ GoesWrong (dependencyNew id) s := by
  by_cases hfull : s.env.dependencies.length = libamvpDependenciesMax
  · have hrun : oeDependencyNew id s.env = (.success, s.env) := by
      rw [oeDependencyNew, Prog.read_bind_apply, if_pos hfull]
      rfl
    refine iff_of_false (fun hexact => ?_) (fun h => h hfull)
    have hdone := hexact.success (by rw [run, run_onOpEnv hrun])
    rw [run, run_onOpEnv hrun] at hdone
    have hlength := congrArg (fun s => s.env.dependencies.length) hdone
    simp [intended] at hlength
  · refine iff_of_true ?_ hfull
    by_cases hadmits : Admits libamvpDependenciesMax s.env.dependencies id
    · have hrun : oeDependencyNew id s.env = (.success, { s.env with
          dependencies := s.env.dependencies ++ [{ id := id }] }) :=
        checks_of_admits hadmits .success _ s.env
      refine exact_of_done (run_onOpEnv hrun) rfl ?_
      exact { hs with dependencies := hs.dependencies.append hadmits }
    · exact exact_of_refused hs
        (refused_onOpEnv (checks_of_not_admits hadmits (fun h => absurd h hfull) _ s.env))

/-- When a call that makes an environment is exact. -/
theorem oeNew_exact_iff (hs : s.env.Consistent) (id : UInt32) (name : Option String) :
    Exact (oeNew id name) s ↔ ¬ GoesWrong (oeNew id name) s := by
  cases name with
  | none =>
      refine iff_of_true (exact_of_refused hs (refused_onOpEnv ?_)) (by simp [GoesWrong, tooLong])
      rw [oeOeNew, Prog.read_bind_apply]
      by_cases hroom : s.env.oes.length = libamvpOesMax
      · exact ⟨.unsupportedOp, by decide, by rw [if_pos hroom]; rfl⟩
      · by_cases hid : id = 0
        · exact ⟨.invalidArg, by decide, by rw [if_neg hroom, if_pos hid]; rfl⟩
        · exact ⟨.missingArg, by decide, by rw [if_neg hroom, if_neg hid]; rfl⟩
  | some n =>
      by_cases hadmits : Admits libamvpOesMax s.env.oes id
      · have hrun : oeOeNew id (some n) s.env =
            onOes (appendEntry { id := id } (Oe.copyName (some n))) s.env :=
          checks_of_admits hadmits .unsupportedOp _ s.env
        cases hlong : tooLong (some n)
        · have hcopy := copyOeString_of_usable
            (by rw [usable_eq_not_tooLong, hlong]; rfl : usable (some n) = true) none
          simp only [onOes, Prog.zoom, appendEntry, Oe.copyName, hcopy] at hrun
          refine iff_of_true (exact_of_done (run_onOpEnv hrun) rfl ?_) (by simp [GoesWrong, hlong])
          refine { hs with oes := hs.oes.append hadmits, links := fun oe hoe => ?_ }
          rcases List.mem_append.mp hoe with hoe | hoe
          · exact hs.links oe hoe
          · simp [List.mem_singleton.mp hoe]
        · obtain ⟨rv, hrv, hcopy⟩ := copyOeString_of_not_usable
            (by rw [usable_eq_not_tooLong, hlong]; rfl : usable (some n) = false) none
          simp only [onOes, Prog.zoom, appendEntry, Oe.copyName, hcopy] at hrun
          have hcounted : ¬ Exact (oeNew id (some n)) s :=
            not_exact_of_counted (·.oes) (run_onOpEnv hrun) hrv rfl
          exact iff_of_false hcounted fun h => h ⟨hadmits, hlong⟩
      · refine iff_of_true (exact_of_refused hs (refused_onOpEnv ?_)) (fun h => hadmits h.1)
        exact checks_of_not_admits hadmits (fun _ => by decide) _ s.env

/-- When a call that makes a vendor is exact. -/
theorem vendorNew_exact_iff (hs : s.env.Consistent) (id : UInt32) (name : Option String) :
    Exact (vendorNew id name) s ↔ ¬ GoesWrong (vendorNew id name) s := by
  by_cases hadmits : Admits libamvpVendorsMax s.env.vendors id
  · have hrun : oeVendorNew id name s.env =
        onVendors (appendEntry { id := id } (Vendor.copyName name)) s.env :=
      checks_of_admits hadmits .unsupportedOp _ s.env
    cases husable : usable name
    · obtain ⟨rv, hrv, hcopy⟩ := copyOeString_of_not_usable husable none
      simp only [onVendors, Prog.zoom, appendEntry, Vendor.copyName, hcopy] at hrun
      have hcounted : ¬ Exact (vendorNew id name) s :=
        not_exact_of_counted (·.vendors) (run_onOpEnv hrun) hrv rfl
      exact iff_of_false hcounted fun h => h ⟨hadmits, husable⟩
    · have hcopy := copyOeString_of_usable husable none
      simp only [onVendors, Prog.zoom, appendEntry, Vendor.copyName, hcopy] at hrun
      refine iff_of_true (exact_of_done (run_onOpEnv hrun) rfl ?_) (by simp [GoesWrong, husable])
      exact { hs with vendors := hs.vendors.append hadmits }
  · refine iff_of_true (exact_of_refused hs (refused_onOpEnv ?_)) (fun h => hadmits h.1)
    exact checks_of_not_admits hadmits (fun _ => by decide) _ s.env

/-- Filling a new module succeeds with a vendor and a usable name. -/
theorem fillModule_of_usable {id : UInt32} {v : Nat} {name : Option String}
    (h : usable name = true) :
    fillModule (some v) name { id := id } =
      (.success, { id := id, name := name, vendor := some v }) := by
  simp [fillModule, Prog.zoom, copyOeString_of_usable h]

/-- A module without a vendor or a name that can be used is refused. -/
theorem fillModule_failed {id : UInt32} {vendor : Option Nat} {name : Option String}
    (h : vendor = none ∨ usable name = false) :
    ∃ rv m, rv ≠ .success ∧ fillModule vendor name { id := id } = (rv, m) := by
  cases vendor with
  | none => exact ⟨.invalidArg, _, by decide, rfl⟩
  | some v =>
      obtain ⟨rv, hrv, hcopy⟩ := copyOeString_of_not_usable (h.resolve_left (by simp)) none
      refine ⟨rv, { id := id, vendor := some v }, hrv, ?_⟩
      simp only [fillModule, Prog.update_bind_apply, Prog.zoom, hcopy]

/-- When a call that makes a module is exact. -/
theorem moduleNew_exact_iff (hs : s.env.Consistent) (id : UInt32) (name : Option String) :
    Exact (moduleNew id name) s ↔ ¬ GoesWrong (moduleNew id name) s := by
  by_cases hadmits : Admits libamvpModulesMax s.env.modules id
  · have hrun : oeModuleNew id name s.env =
        onModules (appendEntry { id := id } (fillModule (findVendor s.env id) name)) s.env :=
      checks_of_admits hadmits .unsupportedOp _ s.env
    by_cases hwrong : findVendor s.env id = none ∨ usable name = false
    · obtain ⟨rv, m, hrv, hfill⟩ := @fillModule_failed id _ _ hwrong
      simp only [onModules, Prog.zoom, appendEntry_of_eq hfill] at hrun
      have hcounted : ¬ Exact (moduleNew id name) s :=
        not_exact_of_counted (·.modules) (run_onOpEnv hrun) hrv rfl
      exact iff_of_false hcounted fun h => h ⟨hadmits, hwrong⟩
    · refine iff_of_true ?_ (fun h => hwrong h.2)
      obtain ⟨v, hv⟩ := Option.ne_none_iff_exists'.mp fun h => hwrong (.inl h)
      have husable : usable name = true := by
        simpa using fun h => hwrong (.inr h)
      rw [hv] at hrun
      simp only [onModules, Prog.zoom, appendEntry_of_eq (fillModule_of_usable husable)] at hrun
      refine exact_of_done (run_onOpEnv hrun) (by simp only [intended, hv]) ?_
      refine { hs with modules := hs.modules.append hadmits, complete := fun m hm => ?_ }
      rcases List.mem_append.mp hm with hm | hm
      · exact hs.complete m hm
      · rw [List.mem_singleton.mp hm]
        refine ⟨rfl, ?_⟩
        cases name with
        | none => cases husable
        | some n => rfl
  · refine iff_of_true (exact_of_refused hs (refused_onOpEnv ?_)) (fun h => hadmits h.1)
    exact checks_of_not_admits hadmits (fun _ => by decide) _ s.env

/-- Adding a dependency to an environment is always exact. -/
theorem oeSetDependency_exact (hs : s.env.Consistent) (oeId dependencyId : UInt32) :
    Exact (oeSetDependency oeId dependencyId) s := by
  have hrefused (h : oeOeSetDependency oeId dependencyId s.env = (.invalidArg, s.env)) :
      Exact (oeSetDependency oeId dependencyId) s :=
    exact_of_refused hs (refused_onOpEnv ⟨_, by decide, h⟩)
  cases hdep : findDependency s.env dependencyId with
  | none =>
      refine hrefused ?_
      rw [oeOeSetDependency, Prog.read_bind_apply, hdep]
      cases findOe s.env oeId <;> rfl
  | some dep =>
      rcases atEntry_eq oeId AmvpResult.invalidArg (Oe.addDependency dep) s.env.oes with
        ⟨hnone, -⟩ | ⟨i, hi, hsome, hid, hat⟩
      · refine hrefused ?_
        rw [oeOeSetDependency, Prog.read_bind_apply, findOe, hnone]
        rfl
      · have hrun : oeOeSetDependency oeId dependencyId s.env =
            atOe oeId (Oe.addDependency dep) s.env := by
          rw [oeOeSetDependency, Prog.read_bind_apply, hdep, findOe, hsome]
        simp only [atOe, onOes, Prog.zoom, hat, Oe.addDependency] at hrun
        by_cases hroom : s.env.oes[i].dependencies.length = libamvpDependenciesMax
        · simp only [hroom, if_true, List.set_getElem_self] at hrun
          exact exact_of_refused hs (refused_onOpEnv ⟨_, by decide, hrun⟩)
        · simp only [hroom, if_false] at hrun
          have hset := hs.oes.set_eq_map
            (fun oe => { oe with dependencies := oe.dependencies ++ [dep] }) hi
          refine exact_of_done (run_onOpEnv hrun) ?_ ?_
          · simp only [intended, hdep, hset, hid]
            rfl
          · refine { hs with oes := hs.oes.set hi rfl, links := fun oe hoe => ?_ }
            rcases List.mem_or_eq_of_mem_set hoe with hoe | rfl
            · exact hs.links oe hoe
            · have hlinks := hs.links _ (List.getElem_mem hi)
              simp only [List.length_append, List.length_singleton]
              omega

/-- When a call that sets the texts of a module is exact. -/
theorem moduleSetTypeVersionDesc_exact_iff (hs : s.env.Consistent) (id : UInt32)
    (type version description : Option String) :
    Exact (moduleSetTypeVersionDesc id type version description) s ↔
      ¬ GoesWrong (moduleSetTypeVersionDesc id type version description) s := by
  by_cases hgiven : (type.isNone && version.isNone && description.isNone) = true
  · have hrun : oeModuleSetTypeVersionDesc id type version description s.env =
        (.invalidArg, s.env) := by
      rw [oeModuleSetTypeVersionDesc, if_pos hgiven]
      rfl
    refine iff_of_true (exact_of_refused hs (refused_onOpEnv ⟨_, by decide, hrun⟩)) ?_
    rintro ⟨m, -, -, -, hhalf⟩
    simp only [Bool.and_eq_true, Option.isNone_iff_eq_none] at hgiven
    simp [HalfWritten, alters, hgiven] at hhalf
  have hrun : oeModuleSetTypeVersionDesc id type version description s.env =
      atModule id (fillModuleTexts type version description) s.env := by
    rw [oeModuleSetTypeVersionDesc, if_neg hgiven]
  rcases atEntry_eq id AmvpResult.invalidArg (fillModuleTexts type version description)
    s.env.modules with ⟨hnone, hat⟩ | ⟨i, hi, hsome, hid, hat⟩
  · simp only [atModule, onModules, Prog.zoom, hat] at hrun
    refine iff_of_true (exact_of_refused hs (refused_onOpEnv ⟨_, by decide, hrun⟩)) ?_
    rintro ⟨m, hm, hzero, hid, -⟩
    exact findEntry_ne_none hm hzero hid hnone
  simp only [atModule, onModules, Prog.zoom, hat] at hrun
  have hzero : id ≠ 0 := hid ▸ hs.modules.nonzero _ (List.getElem_mem hi)
  have hwrong : GoesWrong (moduleSetTypeVersionDesc id type version description) s ↔
      HalfWritten s.env.modules[i] type version description := by
    constructor
    · rintro ⟨m, hm, -, hmid, hhalf⟩
      rwa [List.inj_on_of_nodup_map hs.modules.distinct (List.getElem_mem hi) hm
        (hid.trans hmid.symm)]
    · intro hhalf
      exact ⟨_, List.getElem_mem hi, hzero, hid, hhalf⟩
  rw [hwrong]
  by_cases hsuccess : (fillModuleTexts type version description s.env.modules[i]).1 = .success
  · rw [fillModuleTexts_of_success hsuccess] at hrun
    refine iff_of_true ?_ fun hhalf => hhalf.not_success hsuccess
    have hset := hs.modules.set_eq_map (fun m => { m with
      type := type.or m.type
      version := version.or m.version
      description := description.or m.description }) hi
    refine exact_of_done (run_onOpEnv hrun) ?_ ?_
    · simp only [intended, hset, hid]
      rfl
    · refine { hs with modules := hs.modules.set hi rfl, complete := fun m hm => ?_ }
      rcases List.mem_or_eq_of_mem_set hm with hm | rfl
      · exact hs.complete m hm
      · exact hs.complete s.env.modules[i] (List.getElem_mem hi)
  · rw [← fillModuleTexts_failed hsuccess, not_not]
    by_cases hsame :
        (fillModuleTexts type version description s.env.modules[i]).2 = s.env.modules[i]
    · simp only [hsame, List.set_getElem_self] at hrun
      exact iff_of_true (exact_of_refused hs (refused_onOpEnv ⟨_, hsuccess, hrun⟩)) hsame
    · refine iff_of_false (not_exact_of_changed (run_onOpEnv hrun) hsuccess fun h => hsame ?_) hsame
      have hmodule := congrArg (fun s => s.env.modules[i]?) h
      simpa [hi] using hmodule

/-- The module of the validation is set, unless there is none with the id. -/
theorem setFipsModule_cases (moduleId : UInt32) (s : FipsState) :
    (moduleId ≠ 0 ∧ findModule s.env moduleId = none ∧
      setFipsModule moduleId s = (.invalidArg, s)) ∨
    setFipsModule moduleId s =
      (.success, { s with module := (findModule s.env moduleId).or s.module }) := by
  by_cases hzero : moduleId = 0
  · refine Or.inr ?_
    simp [setFipsModule, hzero, findModule, findEntry]
  · cases hfind : findModule s.env moduleId with
    | none => exact Or.inl ⟨hzero, rfl, by simp [setFipsModule, hzero, hfind]⟩
    | some m => exact Or.inr (by simp [setFipsModule, hzero, hfind])

/-- The operating environment of the validation is set, unless there is none with the id. -/
theorem setFipsOe_cases (oeId : UInt32) (s : FipsState) :
    (oeId ≠ 0 ∧ findOe s.env oeId = none ∧ setFipsOe oeId s = (.invalidArg, s)) ∨
    ((oeId ≠ 0 → findOe s.env oeId ≠ none) ∧
      setFipsOe oeId s = (.success, { s with oe := (findOe s.env oeId).or s.oe })) := by
  by_cases hzero : oeId = 0
  · refine Or.inr ⟨fun h => absurd hzero h, ?_⟩
    simp [setFipsOe, hzero, findOe, findEntry]
  · cases hfind : findOe s.env oeId with
    | none => exact Or.inl ⟨hzero, rfl, by simp [setFipsOe, hzero, hfind]⟩
    | some oe => exact Or.inr ⟨by simp, by simp [setFipsOe, hzero, hfind]⟩

/-- When a call that picks the module and environment to validate is exact. -/
theorem setFipsValidationMetadata_exact_iff (hs : s.env.Consistent) (moduleId oeId : UInt32) :
    Exact (setFipsValidationMetadata moduleId oeId) s ↔
      ¬ GoesWrong (setFipsValidationMetadata moduleId oeId) s := by
  cases hloaded : s.env.metadataLoaded with
  | false =>
      have hrun : (setFipsValidationMetadata moduleId oeId).run s = (.invalidArg, s) := by
        rw [run, oeSetFipsValidationMetadata, Prog.read_bind_apply, hloaded]
        rfl
      exact iff_of_true (exact_of_refused hs ⟨_, by decide, hrun⟩) (by simp [GoesWrong, hloaded])
  | true =>
      by_cases hzero : moduleId = 0 ∧ oeId = 0
      · have hrun : (setFipsValidationMetadata moduleId oeId).run s = (.invalidArg, s) := by
          rw [run, oeSetFipsValidationMetadata, Prog.read_bind_apply, hloaded, if_pos hzero]
          rfl
        exact iff_of_true (exact_of_refused hs ⟨_, by decide, hrun⟩)
          (by simp [GoesWrong, hzero])
      have hrun : (setFipsValidationMetadata moduleId oeId).run s =
          andThen (setFipsModule moduleId) (setFipsOe oeId) s := by
        rw [run, oeSetFipsValidationMetadata, Prog.read_bind_apply, hloaded, if_neg hzero]
        rfl
      rw [andThen_apply] at hrun
      rcases setFipsModule_cases moduleId s with ⟨-, hnone, hmodule⟩ | hmodule
      · simp only [hmodule, reduceCtorEq, if_false] at hrun
        exact iff_of_true (exact_of_refused hs ⟨_, by decide, hrun⟩) (by simp [GoesWrong, hnone])
      rw [hmodule, if_pos rfl] at hrun
      rcases setFipsOe_cases oeId { s with module := (findModule s.env moduleId).or s.module } with
        ⟨hoeId, hnone, hoe⟩ | ⟨hfound, hoe⟩
      · rw [hoe] at hrun
        cases hfind : findModule s.env moduleId with
        | none =>
            rw [hfind] at hrun
            exact iff_of_true (exact_of_refused hs ⟨_, by decide, hrun⟩)
              (by simp [GoesWrong, hfind])
        | some m =>
            rw [hfind] at hrun
            have hwrong : GoesWrong (setFipsValidationMetadata moduleId oeId) s ↔
                s.module ≠ some m := by
              simp [GoesWrong, hloaded, hoeId, show findOe s.env oeId = none from hnone, hfind]
            rw [hwrong, not_not]
            by_cases hsame : s.module = some m
            · have hstate : { s with module := (some m).or s.module } = s := by
                rw [Option.some_or, ← hsame]
              rw [hstate] at hrun
              exact iff_of_true (exact_of_refused hs ⟨_, by decide, hrun⟩) hsame
            · refine iff_of_false (not_exact_of_changed hrun (by decide) fun h => hsame ?_) hsame
              exact (congrArg FipsState.module h).symm
      · rw [hoe] at hrun
        exact iff_of_true (exact_of_done hrun rfl hs) fun h => hfound h.2.1 h.2.2.1

/-- The calls that are not exact. -/
theorem exact_iff (hs : s.env.Consistent) : Exact call s ↔ ¬ GoesWrong call s := by
  cases call with
  | dependencyNew id => exact dependencyNew_exact_iff hs id
  | oeNew id name => exact oeNew_exact_iff hs id name
  | oeSetDependency oeId dependencyId =>
      exact iff_of_true (oeSetDependency_exact hs oeId dependencyId) not_false
  | vendorNew id name => exact vendorNew_exact_iff hs id name
  | moduleNew id name => exact moduleNew_exact_iff hs id name
  | moduleSetTypeVersionDesc id type version description =>
      exact moduleSetTypeVersionDesc_exact_iff hs id type version description
  | setFipsValidationMetadata moduleId oeId =>
      exact setFipsValidationMetadata_exact_iff hs moduleId oeId

end OeCall

/-! ## Whole runs -/

/-- Every call of a run is exact exactly when none of them goes wrong. -/
theorem calls_exact_iff (start : ConsistentState) (calls : List OeCall) :
    EveryStep OeCall.step OeCall.Exact start.state calls ↔
      EveryStep OeCall.step (fun call s => ¬ call.GoesWrong s) start.state calls := by
  refine everyStep_iff (fun s => s.env.Consistent) (fun call s hs => OeCall.exact_iff hs)
    (fun call s s' hs hright hstep => ?_) start.consistent calls
  obtain rfl : (call.run s).2 = s' := Option.some.inj hstep
  exact ((OeCall.exact_iff hs).mpr hright).consistent

/-- A module without a vendor is refused after it was counted. -/
theorem calls_not_exact :
    ¬ EveryStep OeCall.step OeCall.Exact {} [.moduleNew 1 (some "module")] := by
  rintro ⟨hexact, -⟩
  have hsame := hexact.failure (by decide)
  revert hsame
  decide

end LibAmvp
