import Mathlib.Data.List.ModifyLast
import LibAmvp.OperatingEnv.Metadata

/-!
# What one step of a load does

While a load is under way the tables of its context are numbered by the counters of
the process.  In such a state every step either refuses, or appends one entry that is
filled by a program which does not see the entry's id.  One equation for each parse
function says so; everything about whole loads follows from these equations.

Main results:

- Theorems {lit}`parseVendor_eq`, {lit}`parseModule_eq`, {lit}`parseOe_eq` and
  {lit}`parseOeDependency_eq`: the step equations.
-/

namespace LibAmvp

open IdTable

/-! ## Composing programs on entries -/

section Compose

variable {σ τ : Type}

/-- After a success the second program runs. -/
theorem andThen_of_success {m n : Prog σ AmvpResult} {s s₁ : σ} (h : m s = (.success, s₁)) :
    andThen m n s = n s₁ := by
  rw [andThen, Prog.bind_of_eq h, if_neg (by simp)]

/-- A failure is handed on and the second program does not run. -/
theorem andThen_of_failure {m n : Prog σ AmvpResult} {s s₁ : σ} {rv : AmvpResult}
    (h : m s = (rv, s₁)) (hrv : rv ≠ .success) : andThen m n s = (rv, s₁) := by
  rw [andThen, Prog.bind_of_eq h, if_pos hrv]
  rfl

/-- What both programs keep, their sequence keeps. -/
theorem keeps_andThen {F : Frame σ} {m n : Prog σ AmvpResult} (hm : F.Keeps m) (hn : F.Keeps n) :
    F.Keeps (andThen m n) :=
  hm.bind fun _ => .ite (.pure _) hn

/-- What every turn of a loop keeps, the loop keeps. -/
theorem keeps_forEach {α : Type} {F : Frame σ} {f : α → Prog σ AmvpResult}
    (hf : ∀ x, F.Keeps (f x)) (xs : List α) : F.Keeps (forEach f xs) := by
  induction xs with
  | nil => exact .pure _
  | cons x xs ih => exact keeps_andThen (hf x) ih

/-- Only what the first program does at the given state matters. -/
theorem andThen_congr {m m' n : Prog σ AmvpResult} {s : σ} (h : m s = m' s) :
    andThen m n s = andThen m' n s := by
  rw [andThen, andThen, Prog.bind_apply, Prog.bind_apply, h]

/-- Work on a part of the state may be composed there. -/
theorem zoom_andThen {get : σ → τ} {set : σ → τ → σ} (hget : ∀ s x, get (set s x) = x)
    (hset : ∀ s x y, set (set s x) y = set s y) (m n : Prog τ AmvpResult) :
    andThen (Prog.zoom get set m) (Prog.zoom get set n) = Prog.zoom get set (andThen m n) := by
  funext s
  obtain ⟨⟨rv, t⟩, hm⟩ : ∃ p, m (get s) = p := ⟨_, rfl⟩
  have hzoom : Prog.zoom get set m s = (rv, set s t) := by rw [Prog.zoom, hm]
  by_cases hrv : rv = .success
  · subst hrv
    rw [andThen_of_success hzoom, Prog.zoom, Prog.zoom, andThen_of_success hm, hget, hset]
  · rw [andThen_of_failure hzoom hrv, Prog.zoom, andThen_of_failure hm hrv]

/-- A program on the tables leaves the counters alone. -/
theorem onEnv_apply {α : Type} (m : Prog OperatingEnv α) (s : OeState) :
    onEnv m s = ((m s.env).1, { s with env := (m s.env).2 }) :=
  rfl

/-- Programs on the tables are sequenced there or outside with the same result. -/
theorem onEnv_andThen (m n : Prog OperatingEnv AmvpResult) :
    andThen (onEnv m) (onEnv n) = onEnv (andThen m n) := by
  apply zoom_andThen
  · exact fun _ _ => rfl
  · exact fun _ _ _ => rfl

/-- A program on the vendors leaves the other tables alone. -/
theorem onVendors_apply (m : Prog (List Vendor) AmvpResult) (env : OperatingEnv) :
    onVendors m env = ((m env.vendors).1, { env with vendors := (m env.vendors).2 }) :=
  rfl

/-- A program on the modules leaves the other tables alone. -/
theorem onModules_apply (m : Prog (List Module) AmvpResult) (env : OperatingEnv) :
    onModules m env = ((m env.modules).1, { env with modules := (m env.modules).2 }) :=
  rfl

/-- Programs on the vendors are sequenced there or outside with the same result. -/
theorem onVendors_andThen (m n : Prog (List Vendor) AmvpResult) :
    andThen (onVendors m) (onVendors n) = onVendors (andThen m n) := by
  apply zoom_andThen
  · exact fun _ _ => rfl
  · exact fun _ _ _ => rfl

/-- Programs on the modules are sequenced there or outside with the same result. -/
theorem onModules_andThen (m n : Prog (List Module) AmvpResult) :
    andThen (onModules m) (onModules n) = onModules (andThen m n) := by
  apply zoom_andThen
  · exact fun _ _ => rfl
  · exact fun _ _ _ => rfl

variable [Entry τ]

/-- A sequence of programs that do not look at the entry does not look at it. -/
theorem blind_andThen {m n : Prog τ AmvpResult} (hm : Blind m) (hn : Blind n) :
    Blind (andThen m n) :=
  hm.bind fun _ => .ite (.pure _) hn

/-- Filling a new entry, and then going on with it through its id. -/
theorem andThen_appendEntry_atEntry (x : τ) {table : List τ} {m : Prog τ AmvpResult}
    (hm : Blind m) (hzero : Entry.ident x ≠ 0)
    (hfresh : ∀ y ∈ table, Entry.ident y ≠ Entry.ident x) (n : Prog τ AmvpResult)
    (missing : AmvpResult) :
    andThen (appendEntry x m) (atEntry (Entry.ident x) missing n) table =
      appendEntry x (andThen m n) table := by
  obtain ⟨⟨rv, y⟩, hrun⟩ : ∃ p, m x = p := ⟨_, rfl⟩
  have happend : appendEntry x m table = (rv, table ++ [y]) := by rw [appendEntry, hrun]
  have hid : Entry.ident y = Entry.ident x := by
    have hsame := hm.ident_eq x
    rwa [hrun] at hsame
  by_cases hrv : rv = .success
  · subst hrv
    rw [andThen_of_success happend, ← hid, atEntry_append_of_fresh (by rwa [hid])
      (by rwa [hid]), appendEntry, appendEntry, andThen_of_success hrun]
  · rw [andThen_of_failure happend hrv, appendEntry, andThen_of_failure hrun hrv]

end Compose

/-! ## Filling entries -/

/-- Everything that is copied into a new vendor. -/
def newVendor (obj : JsonObject) (name : String) : Prog Vendor AmvpResult :=
  andThen (Vendor.copyName (some name)) (fillVendor obj)

/-- Everything that is copied into a new module. -/
def newModule (obj : JsonObject) (name : String) (vendor : Option Nat) :
    Prog Module AmvpResult :=
  let text := jsonObjectGetString (some obj)
  andThen (fillModule vendor (some name)) <|
    if (text "type").isNone && (text "version").isNone && (text "description").isNone then
      return .invalidArg
    else
      fillModuleTexts (text "type") (text "version") (text "description")

/-- A field of a dependency that is set when there is a string for it. -/
def givenField (field : DependencyField) (value : Option String) : Prog Dependency AmvpResult :=
  if value.isNone then return .success else Dependency.setField field value

/-- Everything that is copied into a new dependency. -/
def fillDependency (dep : Dependency) : Prog Dependency AmvpResult :=
  andThen (givenField .type dep.type) <|
  andThen (givenField .name dep.name) <|
  andThen (givenField .desc dep.description) <|
  andThen (givenField .man dep.manufacturer) <|
  andThen (givenField .version dep.version) <|
  andThen (givenField .family dep.family) <|
  givenField .series dep.series

/-- Filling a vendor in does not look at what it holds. -/
theorem blind_fillVendor (obj : JsonObject) : Blind (fillVendor obj) := by
  refine blind_andThen (.zoom (fun _ _ => rfl) (fun _ _ _ => rfl) _) ?_
  refine blind_andThen (.zoom (fun _ _ => rfl) (fun _ _ _ => rfl) _) ?_
  refine blind_andThen (.zoom (fun _ _ => rfl) (fun _ _ _ => rfl) _) (blind_andThen ?_ ?_)
  · rw [parseVendorAddress]
    split
    · exact .pure _
    · exact .zoom (fun _ _ => rfl) (fun _ _ _ => rfl) _
  · exact .zoom (fun _ _ => rfl) (fun _ _ _ => rfl) _

/-- Copying a vendor's name does not look at what it holds. -/
theorem blind_vendorCopyName (name : Option String) : Blind (Vendor.copyName name) :=
  .zoom (fun _ _ => rfl) (fun _ _ _ => rfl) _

/-- Nor does making a vendor from an object of the file. -/
theorem blind_newVendor (obj : JsonObject) (name : String) : Blind (newVendor obj name) :=
  blind_andThen (blind_vendorCopyName _) (blind_fillVendor obj)

/-- Copying an environment's name does not look at what it holds. -/
theorem blind_oeCopyName (name : Option String) : Blind (Oe.copyName name) :=
  .zoom (fun _ _ => rfl) (fun _ _ _ => rfl) _

/-- Filling a module in does not look at what it holds. -/
theorem blind_fillModule (vendor : Option Nat) (name : Option String) :
    Blind (fillModule vendor name) := by
  cases vendor with
  | none => exact .pure _
  | some v => exact .bind (fun _ _ => rfl) fun _ => .zoom (fun _ _ => rfl) (fun _ _ _ => rfl) _

/-- Copying a module's texts does not look at what it holds. -/
theorem blind_fillModuleTexts (type version description : Option String) :
    Blind (fillModuleTexts type version description) :=
  blind_andThen (.zoom (fun _ _ => rfl) (fun _ _ _ => rfl) _) <|
    blind_andThen (.zoom (fun _ _ => rfl) (fun _ _ _ => rfl) _)
      (.zoom (fun _ _ => rfl) (fun _ _ _ => rfl) _)

/-- Nor does making a module from an object of the file. -/
theorem blind_newModule (obj : JsonObject) (name : String) (vendor : Option Nat) :
    Blind (newModule obj name vendor) :=
  blind_andThen (blind_fillModule _ _) (.ite (.pure _) (blind_fillModuleTexts _ _ _))

/-- A new module points to the vendor it was given. -/
theorem newModule_vendor (obj : JsonObject) (name : String) (vendor : Option Nat) (id : UInt32) :
    (newModule obj name vendor { id := id }).2.vendor = vendor := by
  have htexts : ∀ type version description,
      (Frame.same Module.vendor).Keeps (fillModuleTexts type version description) :=
    fun _ _ _ => keeps_andThen (fun _ => rfl) (keeps_andThen (fun _ => rfl) fun _ => rfl)
  cases vendor with
  | none => rfl
  | some v =>
      -- the pointer is set first, and what follows copies strings only
      have hname : ((Frame.same Module.vendor).Keeps fun m : Module =>
          Prog.zoom (·.name) (fun (m : Module) x => { m with name := x })
            (copyOeString (some name)) m) := fun _ => rfl
      exact (keeps_andThen hname (.ite (.pure _) (htexts _ _ _))) { id := id, vendor := some v }

/-- Setting a field of a dependency, when it is given, does not look at what it holds. -/
theorem blind_givenField (field : DependencyField) (value : Option String) :
    Blind (givenField field value) := by
  refine .ite (.pure _) ?_
  cases field
  all_goals
    rw [Dependency.setField]
    exact .zoom (fun _ _ => rfl) (fun _ _ _ => rfl) _

/-- Filling a dependency in does not look at what it holds. -/
theorem blind_fillDependency (dep : Dependency) : Blind (fillDependency dep) :=
  blind_andThen (blind_givenField _ _) <| blind_andThen (blind_givenField _ _) <|
    blind_andThen (blind_givenField _ _) <| blind_andThen (blind_givenField _ _) <|
    blind_andThen (blind_givenField _ _) <| blind_andThen (blind_givenField _ _) (blind_givenField _ _)

/-! ## States of a load -/

/-- The tables of a context whose load started with these counters. -/
structure Tabled (base : OeCounters) (env : OperatingEnv) : Prop where
  vendors : IdTable.Numbered base.vendorId env.vendors
  modules : IdTable.Numbered base.moduleId env.modules
  dependencies : IdTable.Numbered base.dependencyId env.dependencies
  oes : IdTable.Numbered base.oeId env.oes
  vendorsMax : env.vendors.length ≤ libamvpVendorsMax
  modulesMax : env.modules.length ≤ libamvpModulesMax
  dependenciesMax : env.dependencies.length ≤ libamvpDependenciesMax
  oesMax : env.oes.length ≤ libamvpOesMax
  /-- The vendor of a module is the one with the id of the module. -/
  moduleVendor : ∀ i m, env.modules[i]? = some m →
    m.vendor = findVendor env (base.moduleId + UInt32.ofNat i)
  /-- Modules are only loaded after at least one vendor. -/
  modulesLater : env.modules ≠ [] → env.vendors ≠ []
  /-- An operating environment has no more links than there are dependencies. -/
  links : ∀ oe ∈ env.oes, oe.dependencies.length ≤ env.dependencies.length

/-- A load is under way: the counters have advanced with the tables. -/
structure Ready (base : OeCounters) (s : OeState) : Prop where
  tabled : Tabled base s.env
  vendorId : s.counters.vendorId = base.vendorId + UInt32.ofNat s.env.vendors.length
  moduleId : s.counters.moduleId = base.moduleId + UInt32.ofNat s.env.modules.length
  dependencyId :
    s.counters.dependencyId = base.dependencyId + UInt32.ofNat s.env.dependencies.length
  oeId : s.counters.oeId = base.oeId + UInt32.ofNat s.env.oes.length

/-- A load starts with empty tables. -/
theorem ready_start (base : OeCounters) : Ready base ⟨base, {}⟩ where
  tabled :=
    { vendors := numbered_nil
      modules := numbered_nil
      dependencies := numbered_nil
      oes := numbered_nil
      vendorsMax := Nat.zero_le _
      modulesMax := Nat.zero_le _
      dependenciesMax := Nat.zero_le _
      oesMax := Nat.zero_le _
      moduleVendor := by simp
      modulesLater := fun h => absurd rfl h
      links := by simp }
  vendorId := by simp
  moduleId := by simp
  dependencyId := by simp
  oeId := by simp

/-! ## Vendors and modules -/

/-- What {lit}`amvp_oe_metadata_parse_vendor` comes down to during a load. -/
def vendorStep (obj : JsonObject) (s : OeState) : AmvpResult × OeState :=
  let drawn := { s with counters := { s.counters with vendorId := s.counters.vendorId + 1 } }
  match jsonObjectGetString (some obj) "name" with
  | none => (.invalidArg, drawn)
  | some name =>
    if s.env.vendors.length = libamvpVendorsMax then (.unsupportedOp, drawn)
    else if s.counters.vendorId = 0 then (.invalidArg, drawn)
    else
      let r := newVendor obj name { id := s.counters.vendorId }
      (r.1, { drawn with env := { s.env with vendors := s.env.vendors ++ [r.2] } })

/-- What {lit}`amvp_oe_metadata_parse_module` comes down to during a load. -/
def moduleStep (obj : JsonObject) (s : OeState) : AmvpResult × OeState :=
  let drawn := { s with counters := { s.counters with moduleId := s.counters.moduleId + 1 } }
  match jsonObjectGetString (some obj) "name" with
  | none => (.invalidArg, drawn)
  | some name =>
    if s.env.modules.length = libamvpModulesMax then (.unsupportedOp, drawn)
    else if s.counters.moduleId = 0 then (.invalidArg, drawn)
    else
      let r := newModule obj name (findVendor s.env s.counters.moduleId)
        { id := s.counters.moduleId }
      (r.1, { drawn with env := { s.env with modules := s.env.modules ++ [r.2] } })

/-- The outcome of a step: the tables stay in order, and the load goes on after a
success. -/
def Sound (base : OeCounters) (r : AmvpResult × OeState) : Prop :=
  Tabled base r.2.env ∧ (r.1 = .success → Ready base r.2)

section Steps

variable {base : OeCounters} {s : OeState}

/-- A refusal that leaves the tables alone is sound. -/
theorem sound_of_refused {rv : AmvpResult} {s' : OeState} (h : Ready base s)
    (hrv : rv ≠ .success) (henv : s'.env = s.env) : Sound base (rv, s') :=
  ⟨by rw [henv]; exact h.tabled, fun hsuccess => absurd hsuccess hrv⟩

/-- No entry has an identifier that is fresh. -/
theorem any_ident_eq_false {τ : Type} [Entry τ] {table : List τ} {id : UInt32}
    (hfresh : ∀ y ∈ table, Entry.ident y ≠ id) :
    (table.any fun y => Entry.ident y == id) = false := by
  rw [List.any_eq_false]
  intro y hy
  simpa using hfresh y hy

/-- Creating a vendor and filling it, when the id is new. -/
theorem andThen_oeVendorNew {env : OperatingEnv} {id : UInt32}
    (hfresh : ∀ y ∈ env.vendors, Entry.ident y ≠ id) (name : String) (obj : JsonObject) :
    andThen (oeVendorNew id (some name)) (atVendor id (fillVendor obj)) env =
      if env.vendors.length = libamvpVendorsMax then (.unsupportedOp, env)
      else if id = 0 then (.invalidArg, env)
      else ((newVendor obj name { id := id }).1,
        { env with vendors := env.vendors ++ [(newVendor obj name { id := id }).2] }) := by
  have hread : oeVendorNew id (some name) env = _ := Prog.read_bind_apply _ _
  by_cases hfull : env.vendors.length = libamvpVendorsMax
  · rw [if_pos hfull] at hread
    rw [andThen_of_failure hread (by decide), if_pos hfull]
  rw [if_neg hfull] at hread ⊢
  by_cases hzero : id = 0
  · rw [if_pos hzero] at hread
    rw [andThen_of_failure hread (by decide), if_pos hzero]
  rw [if_neg hzero] at hread ⊢
  have hnone : ¬ (env.vendors.any fun v => v.id == id) = true := by
    rw [show (env.vendors.any fun v => v.id == id) = false from any_ident_eq_false hfresh]
    decide
  rw [if_neg hnone] at hread
  have hfill : andThen (appendEntry { id := id } (Vendor.copyName (some name)))
      (atEntry id .invalidArg (fillVendor obj)) env.vendors =
      appendEntry { id := id } (newVendor obj name) env.vendors :=
    andThen_appendEntry_atEntry { id := id } (blind_vendorCopyName (some name)) hzero hfresh
      (fillVendor obj) .invalidArg
  rw [andThen_congr hread, atVendor, onVendors_andThen, onVendors_apply, hfill]
  rfl

/-- In a ready state the code's vendor parser is the abstract step. -/
theorem parseVendor_eq (h : Ready base s) (obj : JsonObject) :
    parseVendor obj s = vendorStep obj s := by
  have hmax := h.tabled.vendorsMax
  have hfresh : ∀ y ∈ s.env.vendors, Entry.ident y ≠ s.counters.vendorId := by
    rw [h.vendorId]
    exact h.tabled.vendors.fresh (by simp only [libamvpVendorsMax] at hmax; omega)
  rw [parseVendor, vendorStep, Prog.bind_apply]
  cases jsonObjectGetString (some obj) "name" with
  | none => rfl
  | some name =>
      have hstep := andThen_oeVendorNew hfresh name obj
      dsimp only
      rw [onEnv_andThen, onEnv_apply]
      dsimp only [drawVendorId]
      rw [hstep]
      split_ifs <;> rfl

/-- Creating a module and filling it, when the id is new. -/
theorem andThen_oeModuleNew {env : OperatingEnv} {id : UInt32}
    (hfresh : ∀ y ∈ env.modules, Entry.ident y ≠ id) (name : String) (obj : JsonObject) :
    andThen (oeModuleNew id (some name))
        (oeModuleSetTypeVersionDesc id (jsonObjectGetString (some obj) "type")
          (jsonObjectGetString (some obj) "version")
          (jsonObjectGetString (some obj) "description")) env =
      if env.modules.length = libamvpModulesMax then (.unsupportedOp, env)
      else if id = 0 then (.invalidArg, env)
      else ((newModule obj name (findVendor env id) { id := id }).1, { env with
        modules := env.modules ++ [(newModule obj name (findVendor env id) { id := id }).2] }) := by
  have hread : oeModuleNew id (some name) env = _ := Prog.read_bind_apply _ _
  by_cases hfull : env.modules.length = libamvpModulesMax
  · rw [if_pos hfull] at hread
    rw [andThen_of_failure hread (by decide), if_pos hfull]
  rw [if_neg hfull] at hread ⊢
  by_cases hzero : id = 0
  · rw [if_pos hzero] at hread
    rw [andThen_of_failure hread (by decide), if_pos hzero]
  rw [if_neg hzero] at hread ⊢
  have hnone : ¬ (env.modules.any fun m => m.id == id) = true := by
    rw [show (env.modules.any fun m => m.id == id) = false from any_ident_eq_false hfresh]
    decide
  rw [if_neg hnone] at hread
  rw [andThen_congr hread, oeModuleSetTypeVersionDesc, newModule]
  by_cases hnothing : ((jsonObjectGetString (some obj) "type").isNone &&
      (jsonObjectGetString (some obj) "version").isNone &&
      (jsonObjectGetString (some obj) "description").isNone) = true
  · -- without a type, a version and a description the module stays as it was created
    rw [if_pos hnothing, if_pos hnothing]
    obtain ⟨⟨rv, m⟩, hm⟩ :
      ∃ p, fillModule (findVendor env id) (some name) { id := id } = p := ⟨_, rfl⟩
    have happend : onModules (appendEntry { id := id } (fillModule (findVendor env id)
        (some name))) env = (rv, { env with modules := env.modules ++ [m] }) := by
      rw [onModules_apply, appendEntry, hm]
    by_cases hrv : rv = .success
    · subst hrv
      rw [andThen_of_success happend, andThen_of_success hm]
      rfl
    · rw [andThen_of_failure happend hrv, andThen_of_failure hm hrv]
  · rw [if_neg hnothing, if_neg hnothing]
    have hfill : andThen (appendEntry { id := id } (fillModule (findVendor env id) (some name)))
        (atEntry id .invalidArg (fillModuleTexts (jsonObjectGetString (some obj) "type")
          (jsonObjectGetString (some obj) "version")
          (jsonObjectGetString (some obj) "description"))) env.modules =
        appendEntry { id := id } (andThen (fillModule (findVendor env id) (some name))
          (fillModuleTexts (jsonObjectGetString (some obj) "type")
            (jsonObjectGetString (some obj) "version")
            (jsonObjectGetString (some obj) "description"))) env.modules :=
      andThen_appendEntry_atEntry { id := id } (blind_fillModule _ _) hzero hfresh _ .invalidArg
    rw [atModule, onModules_andThen, onModules_apply, hfill]
    rfl

/-- In a ready state the code's module parser is the abstract step. -/
theorem parseModule_eq (h : Ready base s) (obj : JsonObject) :
    parseModule obj s = moduleStep obj s := by
  have hmax := h.tabled.modulesMax
  have hfresh : ∀ y ∈ s.env.modules, Entry.ident y ≠ s.counters.moduleId := by
    rw [h.moduleId]
    exact h.tabled.modules.fresh (by simp only [libamvpModulesMax] at hmax; omega)
  rw [parseModule, moduleStep, Prog.bind_apply]
  cases jsonObjectGetString (some obj) "name" with
  | none => rfl
  | some name =>
      have hstep := andThen_oeModuleNew hfresh name obj
      dsimp only
      rw [onEnv_andThen, onEnv_apply]
      dsimp only [drawModuleId]
      rw [hstep]
      split_ifs <;> rfl

/-! ## The steps keep the tables in order -/

/-- The step for a vendor is sound while there are no modules. -/
theorem vendorStep_sound (h : Ready base s) (hmodules : s.env.modules = []) (obj : JsonObject) :
    Sound base (vendorStep obj s) := by
  rw [vendorStep]
  cases jsonObjectGetString (some obj) "name" with
  | none => exact sound_of_refused h (by decide) rfl
  | some name =>
      dsimp only
      by_cases hfull : s.env.vendors.length = libamvpVendorsMax
      · rw [if_pos hfull]
        exact sound_of_refused h (by decide) rfl
      rw [if_neg hfull]
      by_cases hzero : s.counters.vendorId = 0
      · rw [if_pos hzero]
        exact sound_of_refused h (by decide) rfl
      rw [if_neg hzero]
      have hid : (newVendor obj name { id := s.counters.vendorId }).2.id = s.counters.vendorId :=
        (blind_newVendor obj name).ident_eq _
      have hmax := h.tabled.vendorsMax
      have htabled : Tabled base { s.env with vendors := s.env.vendors ++
          [(newVendor obj name { id := s.counters.vendorId }).2] } :=
        { h.tabled with
          vendors := h.tabled.vendors.append (hid.trans h.vendorId)
            (by rw [show Entry.ident _ = _ from hid]; exact hzero)
          vendorsMax := by
            simp only [List.length_append, List.length_singleton]
            omega
          moduleVendor := by simp [hmodules]
          modulesLater := fun hne => absurd hmodules hne }
      refine ⟨htabled, fun _ => { h with tabled := htabled, vendorId := ?_ }⟩
      simp only [List.length_append, List.length_singleton, h.vendorId, add_ofNat_succ]

/-- The step for a module is sound once there is a vendor. -/
theorem moduleStep_sound (h : Ready base s) (hvendors : s.env.vendors ≠ []) (obj : JsonObject) :
    Sound base (moduleStep obj s) := by
  rw [moduleStep]
  cases jsonObjectGetString (some obj) "name" with
  | none => exact sound_of_refused h (by decide) rfl
  | some name =>
      dsimp only
      by_cases hfull : s.env.modules.length = libamvpModulesMax
      · rw [if_pos hfull]
        exact sound_of_refused h (by decide) rfl
      rw [if_neg hfull]
      by_cases hzero : s.counters.moduleId = 0
      · rw [if_pos hzero]
        exact sound_of_refused h (by decide) rfl
      rw [if_neg hzero]
      have hid : (newModule obj name (findVendor s.env s.counters.moduleId)
          { id := s.counters.moduleId }).2.id = s.counters.moduleId :=
        (blind_newModule obj name _).ident_eq _
      have hvendor : (newModule obj name (findVendor s.env s.counters.moduleId)
          { id := s.counters.moduleId }).2.vendor = findVendor s.env s.counters.moduleId :=
        newModule_vendor obj name _ _
      have hmax := h.tabled.modulesMax
      have htabled : Tabled base { s.env with modules := s.env.modules ++
          [(newModule obj name (findVendor s.env s.counters.moduleId)
            { id := s.counters.moduleId }).2] } :=
        { h.tabled with
          modules := h.tabled.modules.append (hid.trans h.moduleId)
            (by rw [show Entry.ident _ = _ from hid]; exact hzero)
          modulesMax := by
            simp only [List.length_append, List.length_singleton]
            omega
          moduleVendor := by
            intro i m hm
            rcases Nat.lt_or_ge i s.env.modules.length with hlt | hge
            · rw [List.getElem?_append_left hlt] at hm
              exact h.tabled.moduleVendor i m hm
            · obtain rfl : i = s.env.modules.length := by
                have := (List.getElem?_eq_some_iff.mp hm).1
                simp only [List.length_append, List.length_singleton] at this
                omega
              rw [List.getElem?_concat_length] at hm
              rw [← Option.some.inj hm, hvendor, h.moduleId]
              rfl
          modulesLater := fun _ => hvendors }
      refine ⟨htabled, fun _ => { h with tabled := htabled, moduleId := ?_ }⟩
      simp only [List.length_append, List.length_singleton, h.moduleId, add_ofNat_succ]

/-! ## Dependencies -/

/-- What one dependency comes down to during a load: no entry is shared, and a new one is
linked to the newest operating environment. -/
def dependencyStep (elem : Json) : Prog OeState AmvpResult := fun s =>
  let dep := dependencyOf (jsonValueGetObject (some elem))
  if (dep.type.isNone && dep.name.isNone && dep.description.isNone) = true then (.jsonErr, s)
  else if s.env.dependencies.length = libamvpDependenciesMax then (.invalidArg, s)
  else if s.counters.dependencyId = 0 then (.invalidArg, s)
  else
    let r := fillDependency dep { id := s.counters.dependencyId }
    let created := { s.env with dependencies := s.env.dependencies ++ [r.2] }
    if r.1 ≠ .success then (r.1, { s with env := created })
    else (.success,
      { counters := { s.counters with dependencyId := s.counters.dependencyId + 1 }
        env := { created with oes := created.oes.modifyLast fun oe =>
          { oe with dependencies := oe.dependencies ++ [s.env.dependencies.length] } } })

/-- The program on the tables does to the newest dependency what the program on entries
does. -/
def Fills (id : UInt32) (p : Prog OperatingEnv AmvpResult) (m : Prog Dependency AmvpResult) :
    Prop :=
  ∀ (env : OperatingEnv) (table : List Dependency) (x : Dependency),
    Entry.ident x = id → (∀ y ∈ table, Entry.ident y ≠ id) →
    p { env with dependencies := table ++ [x] } =
      ((m x).1, { env with dependencies := table ++ [(m x).2] })

/-- Two programs that each fill the entry under an identifier do so in sequence. -/
theorem Fills.andThen {id : UInt32} {p q : Prog OperatingEnv AmvpResult}
    {m n : Prog Dependency AmvpResult} (hp : Fills id p m) (hm : Blind m) (hq : Fills id q n) :
    Fills id (LibAmvp.andThen p q) (LibAmvp.andThen m n) := by
  intro env table x hid hfresh
  obtain ⟨⟨rv, y⟩, hrun⟩ : ∃ r, m x = r := ⟨_, rfl⟩
  have hfirst := hp env table x hid hfresh
  have hy : Entry.ident y = id := by
    have hsame := hm.ident_eq x
    rw [hrun] at hsame
    exact hsame.trans hid
  rw [hrun] at hfirst
  by_cases hrv : rv = .success
  · subst hrv
    rw [andThen_of_success hfirst, andThen_of_success hrun]
    exact hq env table y hy hfresh
  · rw [andThen_of_failure hfirst hrv, andThen_of_failure hrun hrv]

/-- Setting a field by identifier fills that entry, for identifiers other than zero. -/
theorem fills_setGiven {id : UInt32} (hzero : id ≠ 0) (field : DependencyField)
    (value : Option String) : Fills id (setGiven field id value) (givenField field value) := by
  intro env table x hid hfresh
  rw [setGiven, givenField]
  by_cases hnone : value.isNone = true
  · rw [if_pos hnone, if_pos hnone]
    rfl
  · rw [if_neg hnone, if_neg hnone, oeDependencySetField, atDependency, onDependencies, Prog.zoom]
    subst hid
    rw [atEntry_append_of_fresh hzero hfresh]
    rfl

/-- Setting the fields of a dependency by identifier fills that entry. -/
theorem fills_setDependency {id : UInt32} (hzero : id ≠ 0) (dep : Dependency) :
    Fills id (setDependency id dep) (fillDependency dep) :=
  (fills_setGiven hzero _ _).andThen (blind_givenField _ _) <|
    (fills_setGiven hzero _ _).andThen (blind_givenField _ _) <|
    (fills_setGiven hzero _ _).andThen (blind_givenField _ _) <|
    (fills_setGiven hzero _ _).andThen (blind_givenField _ _) <|
    (fills_setGiven hzero _ _).andThen (blind_givenField _ _) <|
    (fills_setGiven hzero _ _).andThen (blind_givenField _ _) (fills_setGiven hzero _ _)

/-- A match returns the id of the object that was looked for, which has none. -/
theorem matchDependency_dependencyOf (env : OperatingEnv) (obj : Option JsonObject) :
    matchDependency env (dependencyOf obj) = 0 := by
  rw [matchDependency]
  split <;> rfl

/-- What making a dependency does in a ready state, its two refusals included. -/
theorem newDependency_eq (h : Ready base s) (dep : Dependency) :
    newDependency dep s =
      if s.env.dependencies.length = libamvpDependenciesMax then (.invalidArg, s)
      else if s.counters.dependencyId = 0 then (.invalidArg, s)
      else
        let r := fillDependency dep { id := s.counters.dependencyId }
        let created := { s.env with dependencies := s.env.dependencies ++ [r.2] }
        if r.1 ≠ .success then (r.1, { s with env := created })
        else (.success,
          { counters := { s.counters with dependencyId := s.counters.dependencyId + 1 }
            env := created }) := by
  have hmax := h.tabled.dependenciesMax
  have hfresh : ∀ y ∈ s.env.dependencies, Entry.ident y ≠ s.counters.dependencyId := by
    rw [h.dependencyId]
    exact h.tabled.dependencies.fresh (by simp only [libamvpDependenciesMax] at hmax; omega)
  have hread : oeDependencyNew s.counters.dependencyId s.env = _ := Prog.read_bind_apply _ _
  rw [newDependency, Prog.read_bind_apply]
  dsimp only
  by_cases hfull : s.env.dependencies.length = libamvpDependenciesMax
  · -- the full table is reported as a success, but the entry is not found then
    rw [if_pos hfull] at hread
    have hnew : onEnv (oeDependencyNew s.counters.dependencyId) s = (.success, s) := by
      rw [onEnv_apply, hread]
      rfl
    rw [andThen_of_success hnew, Prog.read_bind_apply, findDependency, findEntry_eq_none hfresh,
      if_pos hfull]
    rfl
  rw [if_neg hfull] at hread ⊢
  by_cases hzero : s.counters.dependencyId = 0
  · rw [if_pos hzero] at hread
    have hnew : onEnv (oeDependencyNew s.counters.dependencyId) s = (.invalidArg, s) := by
      rw [onEnv_apply, hread]
      rfl
    rw [andThen_of_failure hnew (by decide), if_pos hzero]
  rw [if_neg hzero] at hread ⊢
  have hnone : ¬ (s.env.dependencies.any fun d => d.id == s.counters.dependencyId) = true := by
    rw [show (s.env.dependencies.any fun d => d.id == s.counters.dependencyId) = false from
      any_ident_eq_false hfresh]
    decide
  rw [if_neg hnone] at hread
  have hnew : onEnv (oeDependencyNew s.counters.dependencyId) s = (.success, { s with
      env := { s.env with
        dependencies := s.env.dependencies ++ [{ id := s.counters.dependencyId }] } }) := by
    rw [onEnv_apply, hread]
    rfl
  have hfound : findEntry s.counters.dependencyId
      (s.env.dependencies ++ [({ id := s.counters.dependencyId } : Dependency)]) =
      some s.env.dependencies.length :=
    @findEntry_append_of_fresh Dependency _ _ { id := s.counters.dependencyId } hzero hfresh
  have hfill := fills_setDependency hzero dep s.env s.env.dependencies
    { id := s.counters.dependencyId } rfl hfresh
  have hset : onEnv (setDependency s.counters.dependencyId dep) { s with
      env := { s.env with
        dependencies := s.env.dependencies ++ [{ id := s.counters.dependencyId }] } } =
      ((fillDependency dep { id := s.counters.dependencyId }).1, { s with
        env := { s.env with dependencies := s.env.dependencies ++
          [(fillDependency dep { id := s.counters.dependencyId }).2] } }) := by
    rw [onEnv_apply, hfill]
  rw [andThen_of_success hnew, Prog.read_bind_apply, findDependency, hfound]
  obtain ⟨⟨rv, d⟩, hd⟩ : ∃ r, fillDependency dep { id := s.counters.dependencyId } = r := ⟨_, rfl⟩
  rw [hd] at hset ⊢
  dsimp only
  by_cases hrv : rv = .success
  · subst hrv
    rw [if_neg (by simp), if_neg (by simp), andThen_of_success hset]
    rfl
  · rw [if_neg (by simp), if_pos hrv, andThen_of_failure hset hrv]

/-- Linking a dependency to the newest operating environment. -/
theorem linkDependency_eq (s : OeState) (depId : UInt32) {before : List Oe} {oe : Oe} {k : Nat}
    (hoes : s.env.oes = before ++ [oe]) (hzero : oe.id ≠ 0)
    (hfresh : ∀ y ∈ before, Entry.ident y ≠ oe.id)
    (hdep : findDependency s.env depId = some k)
    (hroom : oe.dependencies.length ≠ libamvpDependenciesMax) :
    linkDependency oe.id depId s = (.success, { s with env := { s.env with
      oes := before ++ [{ oe with dependencies := oe.dependencies ++ [k] }] } }) := by
  have hoe : findOe s.env oe.id = some before.length := by
    rw [findOe, hoes]
    exact findEntry_append_of_fresh hzero hfresh
  have hset : oeOeSetDependency oe.id depId s.env = (.success, { s.env with
      oes := before ++ [{ oe with dependencies := oe.dependencies ++ [k] }] }) := by
    have hadd : Oe.addDependency k oe =
        (.success, { oe with dependencies := oe.dependencies ++ [k] }) := if_neg hroom
    have hentry := atEntry_append_of_fresh hzero hfresh .invalidArg (Oe.addDependency k)
    rw [← hoes, appendEntry_of_eq hadd] at hentry
    rw [oeOeSetDependency, Prog.read_bind_apply, hoe, hdep]
    show ((atEntry oe.id AmvpResult.invalidArg (Oe.addDependency k) s.env.oes).1, { s.env with
      oes := (atEntry oe.id AmvpResult.invalidArg (Oe.addDependency k) s.env.oes).2 }) = _
    rw [show oe.id = Entry.ident oe from rfl, hentry]
    rfl
  rw [linkDependency, Prog.bind_apply, onEnv_apply, hset]
  rfl

/-- The newest operating environment of a load under way. -/
theorem Ready.newestOe (h : Ready base s) {before : List Oe} {oe : Oe}
    (hoes : s.env.oes = before ++ [oe]) :
    oe.id ≠ 0 ∧ (∀ y ∈ before, Entry.ident y ≠ oe.id) ∧
      oe.dependencies.length ≤ s.env.dependencies.length := by
  have hnumbered := h.tabled.oes
  have hmax := h.tabled.oesMax
  rw [hoes] at hnumbered hmax
  simp only [libamvpOesMax, List.length_append, List.length_singleton] at hmax
  obtain ⟨hid, hzero⟩ := hnumbered before.length oe (by simp)
  refine ⟨hzero, ?_, h.tabled.links oe (by simp [hoes])⟩
  have hbefore : IdTable.Numbered base.oeId before := by
    intro i y hy
    have hi := (List.getElem?_eq_some_iff.mp hy).1
    exact hnumbered i y (by rw [List.getElem?_append_left hi]; exact hy)
  intro y hy
  rw [show oe.id = _ from hid]
  exact hbefore.fresh (by omega) y hy

/-- For the environment just made, the code's dependency parser is the abstract step. -/
theorem parseOeDependency_eq (h : Ready base s) {before : List Oe} {oe : Oe}
    (hoes : s.env.oes = before ++ [oe]) (elem : Json) :
    parseOeDependency oe.id elem s = dependencyStep elem s := by
  obtain ⟨hzero, hfresh, hlinks⟩ := h.newestOe hoes
  have hmax := h.tabled.dependenciesMax
  have hnew := newDependency_eq h (dependencyOf (jsonValueGetObject (some elem)))
  rw [parseOeDependency, dependencyStep]
  dsimp only
  by_cases hnothing : ((dependencyOf (jsonValueGetObject (some elem))).type.isNone &&
      (dependencyOf (jsonValueGetObject (some elem))).name.isNone &&
      (dependencyOf (jsonValueGetObject (some elem))).description.isNone) = true
  · rw [if_pos hnothing, if_pos hnothing]
    rfl
  rw [if_neg hnothing, if_neg hnothing, Prog.read_bind_apply, matchDependency_dependencyOf,
    if_pos rfl]
  by_cases hfull : s.env.dependencies.length = libamvpDependenciesMax
  · rw [if_pos hfull] at hnew ⊢
    rw [andThen_of_failure hnew (by decide)]
  rw [if_neg hfull] at hnew ⊢
  by_cases hid : s.counters.dependencyId = 0
  · rw [if_pos hid] at hnew ⊢
    rw [andThen_of_failure hnew (by decide)]
  rw [if_neg hid] at hnew ⊢
  obtain ⟨⟨rv, d⟩, hd⟩ : ∃ r, fillDependency (dependencyOf (jsonValueGetObject (some elem)))
    { id := s.counters.dependencyId } = r := ⟨_, rfl⟩
  have hdid : d.id = s.counters.dependencyId := by
    have hsame := (blind_fillDependency (dependencyOf (jsonValueGetObject (some elem)))).ident_eq
      { id := s.counters.dependencyId }
    rw [hd] at hsame
    exact hsame
  have hdfresh : ∀ y ∈ s.env.dependencies, Entry.ident y ≠ d.id := by
    rw [hdid, h.dependencyId]
    exact h.tabled.dependencies.fresh (by simp only [libamvpDependenciesMax] at hmax; omega)
  rw [hd] at hnew ⊢
  dsimp only at hnew ⊢
  by_cases hrv : rv = .success
  · subst hrv
    rw [if_neg (by simp)] at hnew ⊢
    have hfound : findEntry s.counters.dependencyId (s.env.dependencies ++ [d]) =
        some s.env.dependencies.length := by
      rw [← hdid]
      exact findEntry_append_of_fresh (by rw [show Entry.ident d = _ from hdid]; exact hid) hdfresh
    have hlink := linkDependency_eq ⟨{ s.counters with dependencyId := s.counters.dependencyId + 1 },
      { s.env with dependencies := s.env.dependencies ++ [d] }⟩ s.counters.dependencyId hoes hzero
      hfresh hfound (by omega)
    rw [andThen_of_success hnew, hlink, hoes, List.modifyLast_concat]
  · rw [if_pos hrv] at hnew ⊢
    rw [andThen_of_failure hnew hrv]

/-- The outcome of a dependency: refused, or one new entry, which is linked when it was
filled. -/
theorem dependencyStep_sound (h : Ready base s) {before : List Oe} {oe : Oe}
    (hoes : s.env.oes = before ++ [oe]) (elem : Json) :
    Sound base (dependencyStep elem s) ∧ ((dependencyStep elem s).1 = .success →
      ∃ oe' : Oe, oe'.id = oe.id ∧ (dependencyStep elem s).2.env.oes = before ++ [oe']) := by
  obtain ⟨-, -, hlinks⟩ := h.newestOe hoes
  rw [dependencyStep]
  dsimp only
  by_cases hnothing : ((dependencyOf (jsonValueGetObject (some elem))).type.isNone &&
      (dependencyOf (jsonValueGetObject (some elem))).name.isNone &&
      (dependencyOf (jsonValueGetObject (some elem))).description.isNone) = true
  · rw [if_pos hnothing]
    exact ⟨sound_of_refused h (by decide) rfl, fun h => by cases h⟩
  rw [if_neg hnothing]
  by_cases hfull : s.env.dependencies.length = libamvpDependenciesMax
  · rw [if_pos hfull]
    exact ⟨sound_of_refused h (by decide) rfl, fun h => by cases h⟩
  rw [if_neg hfull]
  by_cases hzero : s.counters.dependencyId = 0
  · rw [if_pos hzero]
    exact ⟨sound_of_refused h (by decide) rfl, fun h => by cases h⟩
  rw [if_neg hzero]
  obtain ⟨⟨rv, d⟩, hd⟩ : ∃ r, fillDependency (dependencyOf (jsonValueGetObject (some elem)))
    { id := s.counters.dependencyId } = r := ⟨_, rfl⟩
  have hdid : d.id = s.counters.dependencyId := by
    have hsame := (blind_fillDependency (dependencyOf (jsonValueGetObject (some elem)))).ident_eq
      { id := s.counters.dependencyId }
    rw [hd] at hsame
    exact hsame
  rw [hd]
  dsimp only
  have hmax := h.tabled.dependenciesMax
  have htabled : Tabled base { s.env with dependencies := s.env.dependencies ++ [d] } :=
    { h.tabled with
      dependencies := h.tabled.dependencies.append (hdid.trans h.dependencyId)
        (by rw [show Entry.ident d = _ from hdid]; exact hzero)
      dependenciesMax := by
        simp only [List.length_append, List.length_singleton]
        omega
      links := by
        intro x hx
        have hle := h.tabled.links x hx
        simp only [List.length_append, List.length_singleton]
        omega }
  by_cases hrv : rv = .success
  · subst hrv
    rw [if_neg (by simp), hoes, List.modifyLast_concat]
    have hlinked : Tabled base { s.env with
        dependencies := s.env.dependencies ++ [d]
        oes := before ++ [{ oe with
          dependencies := oe.dependencies ++ [s.env.dependencies.length] }] } :=
      { htabled with
        oes := by
          have hnumbered := h.tabled.oes
          rw [hoes] at hnumbered
          exact hnumbered.replace_last rfl
        oesMax := by
          have hoesMax := h.tabled.oesMax
          rw [hoes] at hoesMax
          simpa using hoesMax
        links := by
          intro x hx
          rcases List.mem_append.mp hx with hx | hx
          · exact htabled.links x (by simp [hoes, hx])
          · obtain rfl := List.mem_singleton.mp hx
            simp only [List.length_append, List.length_singleton]
            omega }
    refine ⟨⟨hlinked, fun _ => { h with
      tabled := hlinked
      dependencyId := ?_
      oeId := ?_ }⟩, fun _ => ⟨{ oe with
        dependencies := oe.dependencies ++ [s.env.dependencies.length] }, rfl, rfl⟩⟩
    · simp only [List.length_append, List.length_singleton, h.dependencyId, add_ofNat_succ]
    · rw [h.oeId, hoes]
      simp
  · rw [if_pos hrv]
    exact ⟨⟨htabled, fun hsuccess => absurd hsuccess hrv⟩, fun hsuccess => absurd hsuccess hrv⟩

/-- The loop over the dependencies of the newest operating environment. -/
theorem forEach_parseOeDependency_eq (h : Ready base s) {before : List Oe} {oe : Oe}
    (hoes : s.env.oes = before ++ [oe]) (elems : List Json) :
    forEach (parseOeDependency oe.id) elems s = forEach dependencyStep elems s ∧
      Sound base (forEach dependencyStep elems s) := by
  induction elems generalizing s oe with
  | nil => exact ⟨rfl, h.tabled, fun _ => h⟩
  | cons elem elems ih =>
      obtain ⟨hsound, hnext⟩ := dependencyStep_sound h hoes elem
      rw [forEach, forEach, andThen_congr (parseOeDependency_eq h hoes elem)]
      obtain ⟨⟨rv, s₁⟩, hrun⟩ : ∃ r, dependencyStep elem s = r := ⟨_, rfl⟩
      rw [hrun] at hsound hnext
      by_cases hrv : rv = .success
      · subst hrv
        obtain ⟨oe', hid, hoes'⟩ := hnext rfl
        rw [andThen_of_success hrun, andThen_of_success hrun, ← hid]
        exact ih (hsound.2 rfl) hoes'
      · rw [andThen_of_failure hrun hrv, andThen_of_failure hrun hrv]
        exact ⟨rfl, hsound⟩

/-! ## Operating environments -/

/-- What {lit}`amvp_oe_metadata_parse_oe` comes down to during a load. -/
def oeStep (obj : JsonObject) (s : OeState) : AmvpResult × OeState :=
  let drawn := { s with counters := { s.counters with oeId := s.counters.oeId + 1 } }
  match jsonObjectGetString (some obj) "name" with
  | none => (.invalidArg, drawn)
  | some name =>
    if s.env.oes.length = libamvpOesMax then (.unsupportedOp, drawn)
    else if s.counters.oeId = 0 then (.invalidArg, drawn)
    else
      let r := Oe.copyName (some name) { id := s.counters.oeId }
      let created := { drawn with env := { s.env with oes := s.env.oes ++ [r.2] } }
      if r.1 ≠ .success then (r.1, created)
      else
        match jsonObjectGetArray (some obj) "dependencies" with
        | none => (.jsonErr, created)
        | some [] => (.jsonErr, created)
        | some elems => forEach dependencyStep elems created

/-- What making an environment under a fresh identifier does, its refusals included. -/
theorem oeOeNew_eq {env : OperatingEnv} {id : UInt32}
    (hfresh : ∀ y ∈ env.oes, Entry.ident y ≠ id) (name : String) :
    oeOeNew id (some name) env =
      if env.oes.length = libamvpOesMax then (.unsupportedOp, env)
      else if id = 0 then (.invalidArg, env)
      else ((Oe.copyName (some name) { id := id }).1,
        { env with oes := env.oes ++ [(Oe.copyName (some name) { id := id }).2] }) := by
  have hread : oeOeNew id (some name) env = _ := Prog.read_bind_apply _ _
  by_cases hfull : env.oes.length = libamvpOesMax
  · rw [if_pos hfull] at hread ⊢
    exact hread
  rw [if_neg hfull] at hread ⊢
  by_cases hzero : id = 0
  · rw [if_pos hzero] at hread ⊢
    exact hread
  have hnone : ¬ (env.oes.any fun oe => oe.id == id) = true := by
    rw [show (env.oes.any fun oe => oe.id == id) = false from any_ident_eq_false hfresh]
    decide
  rw [if_neg hzero] at hread ⊢
  rw [if_neg (by simp), if_neg hnone] at hread
  exact hread

/-- The operating environment that a step creates. -/
theorem createdOe (h : Ready base s) {name : String} {rv : AmvpResult} {oe : Oe}
    (hfull : s.env.oes.length ≠ libamvpOesMax) (hzero : s.counters.oeId ≠ 0)
    (hname : Oe.copyName (some name) { id := s.counters.oeId } = (rv, oe)) :
    oe.id = s.counters.oeId ∧
    Ready base ⟨{ s.counters with oeId := s.counters.oeId + 1 },
      { s.env with oes := s.env.oes ++ [oe] }⟩ := by
  have hid : oe.id = s.counters.oeId := by
    have hsame := (blind_oeCopyName (some name)).ident_eq { id := s.counters.oeId }
    rw [hname] at hsame
    exact hsame
  have hlinks : oe.dependencies = [] := by
    have hkeeps : (Frame.same Oe.dependencies).Keeps (Oe.copyName (some name)) := fun _ => rfl
    have hsame := hkeeps { id := s.counters.oeId }
    rw [hname] at hsame
    exact hsame
  have hmax := h.tabled.oesMax
  have htabled : Tabled base { s.env with oes := s.env.oes ++ [oe] } :=
    { h.tabled with
      oes := h.tabled.oes.append (hid.trans h.oeId)
        (by rw [show Entry.ident oe = _ from hid]; exact hzero)
      oesMax := by
        simp only [List.length_append, List.length_singleton]
        omega
      links := by
        intro x hx
        rcases List.mem_append.mp hx with hx | hx
        · exact h.tabled.links x hx
        · obtain rfl := List.mem_singleton.mp hx
          simp [hlinks] }
  refine ⟨hid, { h with tabled := htabled, oeId := ?_ }⟩
  simp only [List.length_append, List.length_singleton, h.oeId, add_ofNat_succ]

/-- In a ready state the code's environment parser is the abstract step. -/
theorem parseOe_eq (h : Ready base s) (obj : JsonObject) : parseOe obj s = oeStep obj s := by
  have hmax := h.tabled.oesMax
  have hfresh : ∀ y ∈ s.env.oes, Entry.ident y ≠ s.counters.oeId := by
    rw [h.oeId]
    exact h.tabled.oes.fresh (by simp only [libamvpOesMax] at hmax; omega)
  rw [parseOe, oeStep, Prog.bind_apply]
  cases jsonObjectGetString (some obj) "name" with
  | none => rfl
  | some name =>
      have hnew : onEnv (oeOeNew s.counters.oeId (some name))
          { s with counters := { s.counters with oeId := s.counters.oeId + 1 } } = _ :=
        onEnv_apply _ _
      rw [oeOeNew_eq hfresh name] at hnew
      dsimp only [drawOeId]
      by_cases hfull : s.env.oes.length = libamvpOesMax
      · rw [if_pos hfull] at hnew ⊢
        rw [andThen_of_failure hnew (by simp)]
      rw [if_neg hfull] at hnew ⊢
      by_cases hzero : s.counters.oeId = 0
      · rw [if_pos hzero] at hnew ⊢
        rw [andThen_of_failure hnew (by simp)]
      rw [if_neg hzero] at hnew ⊢
      obtain ⟨⟨rv, oe⟩, hname⟩ : ∃ r, Oe.copyName (some name) { id := s.counters.oeId } = r :=
        ⟨_, rfl⟩
      rw [hname] at hnew ⊢
      dsimp only at hnew ⊢
      by_cases hrv : rv = .success
      · subst hrv
        rw [if_neg (by simp), andThen_of_success hnew, parseOeDependencies]
        obtain ⟨hid, hready⟩ := createdOe h hfull hzero hname
        cases harray : jsonObjectGetArray (some obj) "dependencies" with
        | none => rfl
        | some elems =>
            cases elems with
            | nil => rfl
            | cons elem elems =>
                have hloop := forEach_parseOeDependency_eq hready rfl (elem :: elems)
                rw [hid] at hloop
                exact hloop.1
      · rw [if_pos hrv, andThen_of_failure hnew hrv]

/-- The step for an environment is sound. -/
theorem oeStep_sound (h : Ready base s) (obj : JsonObject) : Sound base (oeStep obj s) := by
  rw [oeStep]
  cases jsonObjectGetString (some obj) "name" with
  | none => exact sound_of_refused h (by decide) rfl
  | some name =>
      dsimp only
      by_cases hfull : s.env.oes.length = libamvpOesMax
      · rw [if_pos hfull]
        exact sound_of_refused h (by decide) rfl
      rw [if_neg hfull]
      by_cases hzero : s.counters.oeId = 0
      · rw [if_pos hzero]
        exact sound_of_refused h (by decide) rfl
      rw [if_neg hzero]
      obtain ⟨⟨rv, oe⟩, hname⟩ : ∃ r, Oe.copyName (some name) { id := s.counters.oeId } = r :=
        ⟨_, rfl⟩
      obtain ⟨-, hready⟩ := createdOe h hfull hzero hname
      rw [hname]
      dsimp only
      by_cases hrv : rv = .success
      · rw [if_neg (not_not.mpr hrv)]
        cases harray : jsonObjectGetArray (some obj) "dependencies" with
        | none => exact ⟨hready.tabled, fun hsuccess => by cases hsuccess⟩
        | some elems =>
            cases elems with
            | nil => exact ⟨hready.tabled, fun hsuccess => by cases hsuccess⟩
            | cons elem elems =>
                exact (forEach_parseOeDependency_eq hready rfl (elem :: elems)).2
      · rw [if_pos hrv]
        exact ⟨hready.tabled, fun hsuccess => absurd hsuccess hrv⟩

/-! ## Whole loads -/

/-- A step for an element of an array, which has to be an object. -/
def stepElement (step : JsonObject → OeState → AmvpResult × OeState) (elem : Json) :
    Prog OeState AmvpResult := fun s =>
  match jsonValueGetObject (some elem) with
  | none => (.jsonErr, s)
  | some obj => step obj s

/-- The steps of {lit}`amvp_oe_metadata_parse_vendors`. -/
def vendorSteps (obj : JsonObject) : Prog OeState AmvpResult :=
  match jsonObjectGetArray (some obj) "vendors" with
  | none => return .jsonErr
  | some [] => return .malformedJson
  | some elems => forEach (stepElement vendorStep) elems

/-- The steps of {lit}`amvp_oe_metadata_parse_modules`. -/
def moduleSteps (obj : JsonObject) : Prog OeState AmvpResult :=
  match jsonObjectGetArray (some obj) "modules" with
  | none => return .jsonErr
  | some elems => forEach (stepElement moduleStep) elems

/-- The steps of {lit}`amvp_oe_metadata_parse_oes`. -/
def oeSteps (obj : JsonObject) : Prog OeState AmvpResult :=
  match jsonObjectGetArray (some obj) "operating_environments" with
  | none => return .jsonErr
  | some elems => forEach (stepElement oeStep) elems

/-- Note that metadata was loaded. -/
def markLoaded : Prog OeState AmvpResult :=
  onEnv do
    Prog.update fun env => { env with metadataLoaded := true }
    return .success

/-- The steps of a load. -/
def loadSteps (obj : JsonObject) : Prog OeState AmvpResult :=
  andThen (vendorSteps obj) <| andThen (moduleSteps obj) <| andThen (oeSteps obj) markLoaded

/-- A loop whose steps follow an equation while an invariant of the load holds, follows
the equation itself. -/
theorem forEach_eq {I : OeState → Prop} {parse : JsonObject → Prog OeState AmvpResult}
    {step : JsonObject → OeState → AmvpResult × OeState}
    (heq : ∀ obj s, Ready base s → I s → parse obj s = step obj s)
    (hstep : ∀ obj s, Ready base s → I s →
      Sound base (step obj s) ∧ ((step obj s).1 = .success → I (step obj s).2))
    (elems : List Json) (h : Ready base s) (hI : I s) :
    forEach (parseElement parse) elems s = forEach (stepElement step) elems s ∧
      Sound base (forEach (stepElement step) elems s) ∧
      ((forEach (stepElement step) elems s).1 = .success →
        I (forEach (stepElement step) elems s).2) := by
  induction elems generalizing s with
  | nil => exact ⟨rfl, ⟨h.tabled, fun _ => h⟩, fun _ => hI⟩
  | cons elem elems ih =>
      have hsame : parseElement parse elem s = stepElement step elem s := by
        rw [parseElement, stepElement]
        cases jsonValueGetObject (some elem) with
        | none => rfl
        | some obj => exact heq obj s h hI
      have hsound : Sound base (stepElement step elem s) ∧
          ((stepElement step elem s).1 = .success → I (stepElement step elem s).2) := by
        rw [stepElement]
        cases jsonValueGetObject (some elem) with
        | none => exact ⟨sound_of_refused h (by decide) rfl, fun hsuccess => by cases hsuccess⟩
        | some obj => exact hstep obj s h hI
      rw [forEach, forEach, andThen_congr hsame]
      obtain ⟨⟨rv, s₁⟩, hrun⟩ : ∃ r, stepElement step elem s = r := ⟨_, rfl⟩
      rw [hrun] at hsound
      by_cases hrv : rv = .success
      · subst hrv
        rw [andThen_of_success hrun, andThen_of_success hrun]
        exact ih (hsound.1.2 rfl) (hsound.2 rfl)
      · rw [andThen_of_failure hrun hrv, andThen_of_failure hrun hrv]
        exact ⟨rfl, hsound.1, fun hsuccess => absurd hsuccess hrv⟩

/-- An append to the table of vendors leaves that of modules alone. -/
theorem vendorStep_modules (obj : JsonObject) (s : OeState) :
    (vendorStep obj s).2.env.modules = s.env.modules := by
  rw [vendorStep]
  split
  · rfl
  · split_ifs <;> rfl

/-- The step for a module leaves the vendors alone. -/
theorem moduleStep_vendors (obj : JsonObject) (s : OeState) :
    (moduleStep obj s).2.env.vendors = s.env.vendors := by
  rw [moduleStep]
  split
  · rfl
  · split_ifs <;> rfl

/-- Tables never lose entries. -/
def tableFrame : Frame OeState where
  rel a b := a.env.vendors.length ≤ b.env.vendors.length ∧
    a.env.modules.length ≤ b.env.modules.length ∧
    a.env.dependencies.length ≤ b.env.dependencies.length ∧
    a.env.oes.length ≤ b.env.oes.length
  refl _ := ⟨le_rfl, le_rfl, le_rfl, le_rfl⟩
  trans := by
    rintro a b c ⟨hv, hm, hd, ho⟩ ⟨hv', hm', hd', ho'⟩
    exact ⟨hv.trans hv', hm.trans hm', hd.trans hd', ho.trans ho'⟩

/-- The step for a vendor makes no table shorter. -/
theorem tableFrame_vendorStep (obj : JsonObject) : tableFrame.Keeps (vendorStep obj) := by
  intro s
  rw [vendorStep]
  split
  · exact tableFrame.refl s
  · split_ifs
    · exact tableFrame.refl s
    · exact tableFrame.refl s
    · exact ⟨by simp, le_rfl, le_rfl, le_rfl⟩

/-- Changing the last entry keeps the length. -/
theorem length_modifyLast {α : Type} (f : α → α) (l : List α) :
    (l.modifyLast f).length = l.length := by
  induction l using List.reverseRecOn with
  | nil => rfl
  | append_singleton l x _ => simp [List.modifyLast_concat]

/-- A step made with an element of an array makes no table shorter when it does so for objects. -/
theorem tableFrame_stepElement {step : JsonObject → OeState → AmvpResult × OeState}
    (hstep : ∀ obj, tableFrame.Keeps (step obj)) (elem : Json) :
    tableFrame.Keeps (stepElement step elem) := by
  intro s
  rw [stepElement]
  split
  · exact tableFrame.refl s
  · exact hstep _ s

/-- A vendor that was loaded is at the end of the table. -/
theorem vendorStep_success {obj : JsonObject} {s s' : OeState}
    (h : vendorStep obj s = (.success, s')) :
    ∃ name v, jsonObjectGetString (some obj) "name" = some name ∧
      newVendor obj name { id := s.counters.vendorId } = (.success, v) ∧
      s' = ⟨{ s.counters with vendorId := s.counters.vendorId + 1 },
        { s.env with vendors := s.env.vendors ++ [v] }⟩ := by
  rw [vendorStep] at h
  cases hname : jsonObjectGetString (some obj) "name" with
  | none =>
      rw [hname] at h
      cases (Prod.mk.inj h).1
  | some name =>
      rw [hname] at h
      dsimp only at h
      split_ifs at h
      · cases (Prod.mk.inj h).1
      · cases (Prod.mk.inj h).1
      · obtain ⟨hrv, rfl⟩ := Prod.mk.inj h
        exact ⟨name, _, rfl, Prod.ext hrv rfl, rfl⟩

/-- A module that was loaded is at the end of the table. -/
theorem moduleStep_success {obj : JsonObject} {s s' : OeState}
    (h : moduleStep obj s = (.success, s')) :
    ∃ name m, jsonObjectGetString (some obj) "name" = some name ∧
      newModule obj name (findVendor s.env s.counters.moduleId) { id := s.counters.moduleId } =
        (.success, m) ∧
      s' = ⟨{ s.counters with moduleId := s.counters.moduleId + 1 },
        { s.env with modules := s.env.modules ++ [m] }⟩ := by
  rw [moduleStep] at h
  cases hname : jsonObjectGetString (some obj) "name" with
  | none =>
      rw [hname] at h
      cases (Prod.mk.inj h).1
  | some name =>
      rw [hname] at h
      dsimp only at h
      split_ifs at h
      · cases (Prod.mk.inj h).1
      · cases (Prod.mk.inj h).1
      · obtain ⟨hrv, rfl⟩ := Prod.mk.inj h
        exact ⟨name, _, rfl, Prod.ext hrv rfl, rfl⟩

/-- A dependency that was loaded is at the end of the table, and linked. -/
theorem dependencyStep_success {elem : Json} {s s' : OeState}
    (h : dependencyStep elem s = (.success, s')) :
    ∃ d, fillDependency (dependencyOf (jsonValueGetObject (some elem)))
        { id := s.counters.dependencyId } = (.success, d) ∧
      s' = ⟨{ s.counters with dependencyId := s.counters.dependencyId + 1 },
        { s.env with
          dependencies := s.env.dependencies ++ [d]
          oes := s.env.oes.modifyLast fun oe =>
            { oe with dependencies := oe.dependencies ++ [s.env.dependencies.length] } }⟩ := by
  rw [dependencyStep] at h
  dsimp only at h
  split_ifs at h with hnothing hfull hzero hrv
  · cases (Prod.mk.inj h).1
  · cases (Prod.mk.inj h).1
  · cases (Prod.mk.inj h).1
  · exact absurd (Prod.mk.inj h).1 hrv
  · obtain ⟨-, rfl⟩ := Prod.mk.inj h
    exact ⟨_, Prod.ext (not_not.mp hrv) rfl, rfl⟩

/-- An operating environment that was loaded was created, and its dependencies loaded. -/
theorem oeStep_success {obj : JsonObject} {s s' : OeState} (h : oeStep obj s = (.success, s')) :
    ∃ name oe elems, jsonObjectGetString (some obj) "name" = some name ∧
      Oe.copyName (some name) { id := s.counters.oeId } = (.success, oe) ∧
      jsonObjectGetArray (some obj) "dependencies" = some elems ∧
      forEach dependencyStep elems ⟨{ s.counters with oeId := s.counters.oeId + 1 },
        { s.env with oes := s.env.oes ++ [oe] }⟩ = (.success, s') := by
  rw [oeStep] at h
  cases hname : jsonObjectGetString (some obj) "name" with
  | none =>
      rw [hname] at h
      cases (Prod.mk.inj h).1
  | some name =>
      rw [hname] at h
      dsimp only at h
      split_ifs at h with hfull hzero hrv
      · cases (Prod.mk.inj h).1
      · cases (Prod.mk.inj h).1
      · exact absurd (Prod.mk.inj h).1 hrv
      · cases harray : jsonObjectGetArray (some obj) "dependencies" with
        | none =>
            rw [harray] at h
            cases (Prod.mk.inj h).1
        | some elems =>
            rw [harray] at h
            cases elems with
            | nil => cases (Prod.mk.inj h).1
            | cons elem elems => exact ⟨name, _, _, rfl, Prod.ext (not_not.mp hrv) rfl, rfl, h⟩

/-- The vendors are loaded before the modules, and at least one of them. -/
theorem parseVendors_eq (h : Ready base s) (hmodules : s.env.modules = []) (obj : JsonObject) :
    parseVendors obj s = vendorSteps obj s ∧ Sound base (vendorSteps obj s) ∧
      ((vendorSteps obj s).1 = .success → (vendorSteps obj s).2.env.vendors ≠ []) := by
  have hrefused : ∀ rv : AmvpResult, rv ≠ .success → Sound base (rv, s) :=
    fun rv hrv => sound_of_refused h hrv rfl
  rw [parseVendors, vendorSteps]
  cases jsonObjectGetArray (some obj) "vendors" with
  | none => exact ⟨rfl, hrefused _ (by decide), fun hsuccess => by cases hsuccess⟩
  | some elems =>
      cases elems with
      | nil => exact ⟨rfl, hrefused _ (by decide), fun hsuccess => by cases hsuccess⟩
      | cons elem elems =>
          obtain ⟨heq, hsound, -⟩ := forEach_eq (I := fun s => s.env.modules = [])
            (fun obj s hs _ => parseVendor_eq hs obj)
            (fun obj s hs hI => ⟨vendorStep_sound hs hI obj, fun _ =>
              (vendorStep_modules obj s).trans hI⟩) (elem :: elems) h hmodules
          refine ⟨heq, hsound, fun hsuccess => ?_⟩
          obtain ⟨s₁, hfirst, hrest⟩ := andThen_success_iff.mp (Prod.ext hsuccess rfl)
          have hne : s₁.env.vendors ≠ [] := by
            rw [stepElement] at hfirst
            split at hfirst
            · cases hfirst
            · obtain ⟨name, v, -, -, rfl⟩ := vendorStep_success hfirst
              simp
          have hgrow := keeps_forEach (tableFrame_stepElement tableFrame_vendorStep) elems s₁
          rw [hrest] at hgrow
          exact List.ne_nil_of_length_pos ((List.length_pos_of_ne_nil hne).trans_le hgrow.1)

/-- Parsing the modules is the abstract steps, and they are sound. -/
theorem parseModules_eq (h : Ready base s) (hvendors : s.env.vendors ≠ []) (obj : JsonObject) :
    parseModules obj s = moduleSteps obj s ∧ Sound base (moduleSteps obj s) := by
  rw [parseModules, moduleSteps]
  cases jsonObjectGetArray (some obj) "modules" with
  | none => exact ⟨rfl, sound_of_refused h (by decide) rfl⟩
  | some elems =>
      obtain ⟨heq, hsound, -⟩ := forEach_eq (I := fun s => s.env.vendors ≠ [])
        (fun obj s hs _ => parseModule_eq hs obj)
        (fun obj s hs hI => ⟨moduleStep_sound hs hI obj, fun _ => by
          rw [moduleStep_vendors]
          exact hI⟩) elems h hvendors
      exact ⟨heq, hsound⟩

/-- Parsing the environments is the abstract steps, and they are sound. -/
theorem parseOes_eq (h : Ready base s) (obj : JsonObject) :
    parseOes obj s = oeSteps obj s ∧ Sound base (oeSteps obj s) := by
  rw [parseOes, oeSteps]
  cases jsonObjectGetArray (some obj) "operating_environments" with
  | none => exact ⟨rfl, sound_of_refused h (by decide) rfl⟩
  | some elems =>
      obtain ⟨heq, hsound, -⟩ := forEach_eq (I := fun _ => True)
        (fun obj s hs _ => parseOe_eq hs obj)
        (fun obj s hs _ => ⟨oeStep_sound hs obj, fun _ => trivial⟩) elems h trivial
      exact ⟨heq, hsound⟩

/-- A load into a fresh context goes through the steps, and its tables stay in order. -/
theorem loadMetadata_eq (base : OeCounters) (obj : JsonObject) :
    loadMetadata obj ⟨base, {}⟩ = loadSteps obj ⟨base, {}⟩ ∧
      Tabled base (loadSteps obj ⟨base, {}⟩).2.env := by
  obtain ⟨hvendors, hsound, hne⟩ := parseVendors_eq (ready_start base) rfl obj
  rw [loadMetadata, loadSteps, andThen_congr hvendors]
  obtain ⟨⟨rv, s₁⟩, hrun⟩ : ∃ r, vendorSteps obj ⟨base, {}⟩ = r := ⟨_, rfl⟩
  rw [hrun] at hsound hne
  by_cases hrv : rv = .success
  swap
  · rw [andThen_of_failure hrun hrv, andThen_of_failure hrun hrv]
    exact ⟨rfl, hsound.1⟩
  subst hrv
  rw [andThen_of_success hrun, andThen_of_success hrun]
  obtain ⟨hmodules, hsound⟩ := parseModules_eq (hsound.2 rfl) (hne rfl) obj
  rw [andThen_congr hmodules]
  obtain ⟨⟨rv, s₂⟩, hrun⟩ : ∃ r, moduleSteps obj s₁ = r := ⟨_, rfl⟩
  rw [hrun] at hsound
  by_cases hrv : rv = .success
  swap
  · rw [andThen_of_failure hrun hrv, andThen_of_failure hrun hrv]
    exact ⟨rfl, hsound.1⟩
  subst hrv
  rw [andThen_of_success hrun, andThen_of_success hrun]
  obtain ⟨hoes, hsound⟩ := parseOes_eq (hsound.2 rfl) obj
  rw [andThen_congr hoes]
  refine ⟨rfl, ?_⟩
  obtain ⟨⟨rv, s₃⟩, hrun⟩ : ∃ r, oeSteps obj s₂ = r := ⟨_, rfl⟩
  rw [hrun] at hsound
  by_cases hrv : rv = .success
  · subst hrv
    rw [andThen_of_success hrun]
    exact { hsound.1 with }
  · rw [andThen_of_failure hrun hrv]
    exact hsound.1

end Steps

end LibAmvp
