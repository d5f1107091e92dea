import LibAmvp.Lib.IdTable
import LibAmvp.Session.Context

/-!
# The tables of the operating environment

Vendors, modules, dependencies and operating environments of a FIPS validation are
kept in tables of fixed capacity.  The entries are found by ids that come from
counters of the whole process.  A pointer from one table into another is a position
in that table.
-/

namespace LibAmvp

open IdTable

/-! ## Capacities -/

def amvpOeStrMax : Nat := 256
def libamvpPersonsMax : Nat := 8
def libamvpVendorsMax : Nat := 8
def libamvpModulesMax : Nat := 32
def libamvpDependenciesMax : Nat := 64
def libamvpOesMax : Nat := 8

/-! ## Entries -/

/-- {lit}`AMVP_VENDOR_ADDRESS`. -/
structure VendorAddress where
  street1 : Option String := none
  street2 : Option String := none
  street3 : Option String := none
  locality : Option String := none
  region : Option String := none
  country : Option String := none
  postalCode : Option String := none
deriving DecidableEq

/-- A node of {lit}`AMVP_OE_PHONE_LIST`. -/
structure OePhone where
  number : Option String := none
  type : Option String := none
deriving DecidableEq

/-- {lit}`AMVP_PERSON`. -/
structure Person where
  fullName : Option String := none
  phoneNumbers : List OePhone := []
  emails : List (Option String) := []
deriving DecidableEq

/-- {lit}`AMVP_VENDOR`. -/
structure Vendor where
  id : UInt32
  name : Option String := none
  website : Option String := none
  phoneNumbers : List OePhone := []
  emails : List (Option String) := []
  address : VendorAddress := {}
  persons : List Person := []
deriving DecidableEq

/-- {lit}`AMVP_MODULE`; the vendor is a position in the table of vendors. -/
structure Module where
  id : UInt32
  name : Option String := none
  type : Option String := none
  version : Option String := none
  description : Option String := none
  vendor : Option Nat := none
deriving DecidableEq

/-- {lit}`AMVP_DEPENDENCY`. -/
structure Dependency where
  id : UInt32
  name : Option String := none
  type : Option String := none
  description : Option String := none
  series : Option String := none
  family : Option String := none
  version : Option String := none
  manufacturer : Option String := none
deriving DecidableEq

/-- {lit}`AMVP_OE`; the dependencies are positions in the table of dependencies. -/
structure Oe where
  id : UInt32
  name : Option String := none
  dependencies : List Nat := []
deriving DecidableEq

instance : Entry Vendor where
  ident v := v.id
  withId id v := { v with id := id }
  ident_withId _ _ := rfl
  withId_ident _ := rfl
  withId_withId _ _ _ := rfl

instance : Entry Module where
  ident m := m.id
  withId id m := { m with id := id }
  ident_withId _ _ := rfl
  withId_ident _ := rfl
  withId_withId _ _ _ := rfl

instance : Entry Dependency where
  ident d := d.id
  withId id d := { d with id := id }
  ident_withId _ _ := rfl
  withId_ident _ := rfl
  withId_withId _ _ _ := rfl

instance : Entry Oe where
  ident oe := oe.id
  withId id oe := { oe with id := id }
  ident_withId _ _ := rfl
  withId_ident _ := rfl
  withId_withId _ _ _ := rfl

/-- {lit}`AMVP_OPERATING_ENV` of a context, and its mark that metadata was loaded. -/
structure OperatingEnv where
  vendors : List Vendor := []
  modules : List Module := []
  dependencies : List Dependency := []
  oes : List Oe := []
  metadataLoaded : Bool := false
deriving DecidableEq

/-- The counters of the process from which ids are drawn. -/
structure OeCounters where
  dependencyId : UInt32 := 1
  vendorId : UInt32 := 1
  moduleId : UInt32 := 1
  oeId : UInt32 := 1
deriving DecidableEq

/-- What loading metadata works on: the counters of the process and one context. -/
structure OeState where
  counters : OeCounters
  env : OperatingEnv
deriving DecidableEq

/-! ## Results -/

section Results

variable {σ : Type}

/-- Go on unless the first part failed. -/
def andThen (m n : Prog σ AmvpResult) : Prog σ AmvpResult := do
  let rv ← m
  if rv ≠ .success then
    return rv
  else
    n

/-- A loop over the elements of an array, up to the first failure. -/
def forEach {α : Type} (f : α → Prog σ AmvpResult) : List α → Prog σ AmvpResult
  | [] => return .success
  | x :: xs => andThen (f x) (forEach f xs)

theorem andThen_success_iff {m n : Prog σ AmvpResult} {s s' : σ} :
    andThen m n s = (.success, s') ↔ ∃ s₁, m s = (.success, s₁) ∧ n s₁ = (.success, s') := by
  obtain ⟨⟨rv, s₁⟩, hm⟩ : ∃ p, m s = p := ⟨_, rfl⟩
  rw [andThen, Prog.bind_of_eq hm, hm]
  by_cases hrv : rv = .success
  · subst hrv
    simp
  · rw [if_pos hrv]
    simp [hrv]

theorem andThen_apply (m n : Prog σ AmvpResult) (s : σ) :
    andThen m n s = if (m s).1 = .success then n (m s).2 else m s := by
  by_cases hrv : (m s).1 = .success
  · simp [andThen, Prog.bind_apply, hrv]
  · rw [if_neg hrv, andThen, Prog.bind_apply, if_pos hrv]
    rfl

end Results

/-! ## Strings -/

/-- {lit}`string_fits`. -/
def stringFits (s : String) (maxAllowed : Nat) : Bool := s.length ≤ maxAllowed

/-- {lit}`copy_oe_string`. -/
def copyOeString (src : Option String) : Prog (Option String) AmvpResult :=
  match src with
  | none => return .missingArg
  | some s =>
    if stringFits s amvpOeStrMax then do
      Prog.update fun _ => some s
      return .success
    else
      return .invalidArg

/-- A copy that is left out when there is no string. -/
def copyGiven (src : Option String) : Prog (Option String) AmvpResult :=
  if src.isNone then return .success else copyOeString src

/-! ## Working on a table -/

/-- Work on the table of vendors. -/
def onVendors (m : Prog (List Vendor) AmvpResult) : Prog OperatingEnv AmvpResult :=
  .zoom (·.vendors) (fun env l => { env with vendors := l }) m

/-- Work on the table of modules. -/
def onModules (m : Prog (List Module) AmvpResult) : Prog OperatingEnv AmvpResult :=
  .zoom (·.modules) (fun env l => { env with modules := l }) m

/-- Work on the table of dependencies. -/
def onDependencies (m : Prog (List Dependency) AmvpResult) : Prog OperatingEnv AmvpResult :=
  .zoom (·.dependencies) (fun env l => { env with dependencies := l }) m

/-- Work on the table of operating environments. -/
def onOes (m : Prog (List Oe) AmvpResult) : Prog OperatingEnv AmvpResult :=
  .zoom (·.oes) (fun env l => { env with oes := l }) m

/-! ## Finding entries -/

/-- {lit}`find_dependency`. -/
def findDependency (env : OperatingEnv) (id : UInt32) : Option Nat :=
  findEntry id env.dependencies

/-- {lit}`find_oe`. -/
def findOe (env : OperatingEnv) (id : UInt32) : Option Nat := findEntry id env.oes

/-- {lit}`find_vendor`. -/
def findVendor (env : OperatingEnv) (id : UInt32) : Option Nat :=
  findEntry id env.vendors

/-- Work on the entry that {lit}`find_dependency` finds. -/
def atDependency (id : UInt32) (m : Prog Dependency AmvpResult) :
    Prog OperatingEnv AmvpResult :=
  onDependencies (atEntry id .invalidArg m)

/-- Work on the entry that {lit}`find_oe` finds. -/
def atOe (id : UInt32) (m : Prog Oe AmvpResult) : Prog OperatingEnv AmvpResult :=
  onOes (atEntry id .invalidArg m)

/-- Work on the entry that {lit}`find_vendor` finds. -/
def atVendor (id : UInt32) (m : Prog Vendor AmvpResult) : Prog OperatingEnv AmvpResult :=
  onVendors (atEntry id .invalidArg m)

/-- Work on the entry that {lit}`find_module` finds. -/
def atModule (id : UInt32) (m : Prog Module AmvpResult) : Prog OperatingEnv AmvpResult :=
  onModules (atEntry id .invalidArg m)

/-! ## Dependencies -/

/-- {lit}`amvp_oe_dependency_new`.  A full table is reported as a success. -/
def oeDependencyNew (id : UInt32) : Prog OperatingEnv AmvpResult := do
  let env ← Prog.read
  if env.dependencies.length = libamvpDependenciesMax then
    return .success
  else if id = 0 then
    return .invalidArg
  else if env.dependencies.any fun dep => dep.id == id then
    return .invalidArg
  else
    Prog.update fun env => { env with dependencies := env.dependencies ++ [{ id := id }] }
    return .success

/-- {lit}`DEPENDENCY_FIELD`. -/
inductive DependencyField where
  | type
  | name
  | desc
  | man
  | version
  | family
  | series
deriving DecidableEq

/-- Copy a string into a field of a dependency. -/
def Dependency.setField (field : DependencyField) (value : Option String) :
    Prog Dependency AmvpResult :=
  match field with
  | .type => .zoom (·.type) (fun d x => { d with type := x }) (copyOeString value)
  | .name => .zoom (·.name) (fun d x => { d with name := x }) (copyOeString value)
  | .desc => .zoom (·.description) (fun d x => { d with description := x }) (copyOeString value)
  | .series => .zoom (·.series) (fun d x => { d with series := x }) (copyOeString value)
  | .family => .zoom (·.family) (fun d x => { d with family := x }) (copyOeString value)
  | .version => .zoom (·.version) (fun d x => { d with version := x }) (copyOeString value)
  | .man => .zoom (·.manufacturer) (fun d x => { d with manufacturer := x }) (copyOeString value)

/-- {lit}`amvp_oe_dependency_set_field`. -/
def oeDependencySetField (field : DependencyField) (depId : UInt32) (value : Option String) :
    Prog OperatingEnv AmvpResult :=
  atDependency depId (Dependency.setField field value)

/-- {lit}`compare_dependencies`: the names are asked for, but not compared. -/
def compareDependencies (a b : Dependency) : Bool :=
  if a.name.isNone || b.name.isNone then false
  else a.type == b.type && a.description == b.description && a.series == b.series &&
    a.family == b.family && a.version == b.version && a.manufacturer == b.manufacturer

/-- {lit}`match_dependency`: what is returned for a match is the id of the argument. -/
def matchDependency (env : OperatingEnv) (dep : Dependency) : UInt32 :=
  if env.dependencies.any (compareDependencies dep) then dep.id else 0

/-! ## Operating environments -/

/-- Copy the name of an operating environment. -/
def Oe.copyName (name : Option String) : Prog Oe AmvpResult :=
  .zoom (·.name) (fun oe x => { oe with name := x }) (copyOeString name)

/-- {lit}`amvp_oe_oe_new`. -/
def oeOeNew (id : UInt32) (name : Option String) : Prog OperatingEnv AmvpResult := do
  let env ← Prog.read
  if env.oes.length = libamvpOesMax then
    return .unsupportedOp
  else if id = 0 then
    return .invalidArg
  else if name.isNone then
    return .missingArg
  else if env.oes.any fun oe => oe.id == id then
    return .invalidArg
  else
    onOes (appendEntry { id := id } (Oe.copyName name))

/-- Add a link to a dependency, when there is room for it. -/
def Oe.addDependency (dep : Nat) : Prog Oe AmvpResult := fun oe =>
  if oe.dependencies.length = libamvpDependenciesMax then (.unsupportedOp, oe)
  else (.success, { oe with dependencies := oe.dependencies ++ [dep] })

/-- {lit}`amvp_oe_oe_set_dependency`. -/
def oeOeSetDependency (oeId dependencyId : UInt32) : Prog OperatingEnv AmvpResult := do
  let env ← Prog.read
  match findOe env oeId, findDependency env dependencyId with
  | some _, some dep => atOe oeId (Oe.addDependency dep)
  | _, _ => return .invalidArg

/-! ## Vendors -/

/-- Copy the name of a vendor. -/
def Vendor.copyName (name : Option String) : Prog Vendor AmvpResult :=
  .zoom (·.name) (fun v x => { v with name := x }) (copyOeString name)

/-- {lit}`amvp_oe_vendor_new`. -/
def oeVendorNew (id : UInt32) (name : Option String) : Prog OperatingEnv AmvpResult := do
  let env ← Prog.read
  if env.vendors.length = libamvpVendorsMax then
    return .unsupportedOp
  else if id = 0 then
    return .invalidArg
  else if env.vendors.any fun vendor => vendor.id == id then
    return .invalidArg
  else
    onVendors (appendEntry { id := id } (Vendor.copyName name))

/-- {lit}`amvp_oe_vendor_add_address`, on the address of the vendor. -/
def oeVendorAddAddress (a : VendorAddress) : Prog VendorAddress AmvpResult :=
  if a = {} then
    return .invalidArg
  else
    andThen (.zoom (·.street1) (fun b x => { b with street1 := x }) (copyGiven a.street1)) <|
    andThen (.zoom (·.street2) (fun b x => { b with street2 := x }) (copyGiven a.street2)) <|
    andThen (.zoom (·.street3) (fun b x => { b with street3 := x }) (copyGiven a.street3)) <|
    andThen (.zoom (·.locality) (fun b x => { b with locality := x }) (copyGiven a.locality)) <|
    andThen (.zoom (·.region) (fun b x => { b with region := x }) (copyGiven a.region)) <|
    andThen (.zoom (·.country) (fun b x => { b with country := x }) (copyGiven a.country)) <|
    .zoom (·.postalCode) (fun b x => { b with postalCode := x }) (copyGiven a.postalCode)

/-! ## Modules -/

/-- Copy the vendor pointer and the name into a new module. -/
def fillModule (vendor : Option Nat) (name : Option String) : Prog Module AmvpResult :=
  match vendor with
  | none => return .invalidArg
  | some v => do
    Prog.update fun m => { m with vendor := some v }
    .zoom (·.name) (fun (m : Module) x => { m with name := x }) (copyOeString name)

/-- {lit}`amvp_oe_module_new`: the vendor of a module is the one with the id of the
module. -/
def oeModuleNew (id : UInt32) (name : Option String) : Prog OperatingEnv AmvpResult := do
  let env ← Prog.read
  if env.modules.length = libamvpModulesMax then
    return .unsupportedOp
  else if id = 0 then
    return .invalidArg
  else if env.modules.any fun m => m.id == id then
    return .invalidArg
  else
    onModules (appendEntry { id := id } (fillModule (findVendor env id) name))

/-- Copy the type, version and description of a module, as far as they are given. -/
def fillModuleTexts (type version description : Option String) : Prog Module AmvpResult :=
  andThen (.zoom (·.type) (fun m x => { m with type := x }) (copyGiven type)) <|
  andThen (.zoom (·.version) (fun m x => { m with version := x }) (copyGiven version)) <|
  .zoom (·.description) (fun m x => { m with description := x }) (copyGiven description)

/-- {lit}`amvp_oe_module_set_type_version_desc`. -/
def oeModuleSetTypeVersionDesc (id : UInt32) (type version description : Option String) :
    Prog OperatingEnv AmvpResult :=
  if type.isNone && version.isNone && description.isNone then
    return .invalidArg
  else
    atModule id (fillModuleTexts type version description)

end LibAmvp
