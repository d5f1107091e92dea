import LibAmvp.OperatingEnv.Loading

/-!
# What a successful load leaves in the tables

A load that reports success has copied every object of the metadata, in order and with
all its strings.  Dependencies are looked for among those already loaded, but the id
that is returned for a match is that of the object looked for, which has none, so
every dependency gets an entry of its own.

Main results:

- Theorem {lit}`ingestMetadata_faithful_iff`: after a successful load the tables hold the
  metadata with shared dependencies exactly when no two dependencies are equal.
-/

namespace LibAmvp

open IdTable

/-! ## The metadata itself -/

/-- The elements of an array, as objects. -/
def members (obj : Option JsonObject) (key : String) : List (Option JsonObject) :=
  (jsonArrayElems (jsonObjectGetArray obj key)).map fun elem => jsonValueGetObject (some elem)

/-- The e-mail addresses of an object. -/
def emailsOf (obj : Option JsonObject) : List (Option String) :=
  (jsonArrayElems (jsonObjectGetArray obj "emails")).map fun elem => jsonValueGetString (some elem)

/-- A phone number. -/
def phoneOf (obj : Option JsonObject) : OePhone where
  number := jsonObjectGetString obj "number"
  type := jsonObjectGetString obj "type"

/-- A contact. -/
def personOf (obj : Option JsonObject) : Person where
  fullName := jsonObjectGetString obj "fullName"
  phoneNumbers := (members obj "phoneNumbers").map phoneOf
  emails := emailsOf obj

/-- An address. -/
def addressOf (obj : Option JsonObject) : VendorAddress where
  street1 := jsonObjectGetString obj "street1"
  street2 := jsonObjectGetString obj "street2"
  street3 := jsonObjectGetString obj "street3"
  locality := jsonObjectGetString obj "locality"
  region := jsonObjectGetString obj "region"
  country := jsonObjectGetString obj "country"
  postalCode := jsonObjectGetString obj "postalCode"

/-- A vendor, without an id. -/
def vendorOf (obj : Option JsonObject) : Vendor where
  id := 0
  name := jsonObjectGetString obj "name"
  website := jsonObjectGetString obj "website"
  phoneNumbers := (members obj "phoneNumbers").map phoneOf
  emails := emailsOf obj
  address := addressOf (jsonObjectGetObject obj "address")
  persons := (members obj "contacts").map personOf

/-- A module, without an id and a vendor. -/
def moduleOf (obj : Option JsonObject) : Module where
  id := 0
  name := jsonObjectGetString obj "name"
  type := jsonObjectGetString obj "type"
  version := jsonObjectGetString obj "version"
  description := jsonObjectGetString obj "description"

/-- The dependencies of an operating environment. -/
def dependenciesOf (obj : Option JsonObject) : List Dependency :=
  (members obj "dependencies").map dependencyOf

/-- All dependencies of the metadata, in order. -/
def allDependencies (obj : JsonObject) : List Dependency :=
  (members (some obj) "operating_environments").flatMap dependenciesOf

/-- The tables hold the metadata, and equal dependencies share one entry. -/
structure MetadataFaithful (obj : JsonObject) (env : OperatingEnv) : Prop where
  vendors : env.vendors.map erase = (members (some obj) "vendors").map vendorOf
  modules : (env.modules.map fun m => { erase m with vendor := none }) =
    (members (some obj) "modules").map moduleOf
  oes : (env.oes.map fun oe => (oe.name, oe.dependencies.map fun i =>
      (env.dependencies[i]?).map erase)) =
    (members (some obj) "operating_environments").map fun o =>
      (jsonObjectGetString o "name", (dependenciesOf o).map some)
  shared : ∀ (i j : Nat) d, (allDependencies obj)[i]? = some d → (allDependencies obj)[j]? = some d →
    (env.oes.flatMap Oe.dependencies)[i]? = (env.oes.flatMap Oe.dependencies)[j]?
  unique : (env.dependencies.map erase).Nodup

/-! ## Copies that succeed -/

section Copies

variable {σ τ : Type}

/-- A program on a part succeeds exactly when it does there. -/
theorem zoom_success_iff {get : σ → τ} {set : σ → τ → σ} {m : Prog τ AmvpResult} {s s' : σ} :
    Prog.zoom get set m s = (.success, s') ↔ ∃ t, m (get s) = (.success, t) ∧ s' = set s t := by
  constructor
  · intro h
    obtain ⟨hrv, hs⟩ := Prod.mk.inj h
    exact ⟨_, Prod.ext hrv rfl, hs.symm⟩
  · rintro ⟨t, ht, rfl⟩
    rw [Prog.zoom, ht]

/-- A text that is copied is the source. -/
theorem copyOeString_success {src d d' : Option String}
    (h : copyOeString src d = (.success, d')) : d' = src := by
  cases src with
  | none => cases (Prod.mk.inj h).1
  | some s =>
      rw [copyOeString, Prog.ite_apply] at h
      split_ifs at h
      · exact (Prod.mk.inj h).2.symm
      · cases (Prod.mk.inj h).1

/-- So is one that may be missing. -/
theorem copyGiven_success {src d : Option String} (h : copyGiven src none = (.success, d)) :
    d = src := by
  rw [copyGiven, Prog.ite_apply] at h
  split_ifs at h with hnone
  · rw [Option.isNone_iff_eq_none.mp hnone]
    exact (Prod.mk.inj h).2.symm
  · exact copyOeString_success h

/-- A loop that appends one entry for each element. -/
theorem forEach_append_success {f : Json → Prog (List τ) AmvpResult} {g : Json → τ}
    (hf : ∀ elem l l', f elem l = (.success, l') → l' = l ++ [g elem]) {elems : List Json}
    {l l' : List τ} (h : forEach f elems l = (.success, l')) : l' = l ++ elems.map g := by
  induction elems generalizing l with
  | nil =>
      rw [← (Prod.mk.inj h).2]
      simp
  | cons elem elems ih =>
      obtain ⟨l₁, hfirst, hrest⟩ := andThen_success_iff.mp h
      rw [ih hrest, hf elem l l₁ hfirst]
      simp

/-- An entry that was filled in is appended. -/
theorem appendEntry_success {x : τ} {m : Prog τ AmvpResult} {l l' : List τ}
    (h : appendEntry x m l = (.success, l')) : ∃ y, m x = (.success, y) ∧ l' = l ++ [y] := by
  obtain ⟨hrv, hl⟩ := Prod.mk.inj h
  exact ⟨_, Prod.ext hrv rfl, hl.symm⟩

end Copies

/-! ## Parts of a vendor -/

/-- The e-mails that are loaded are those of the object. -/
theorem parseEmails_success {obj : JsonObject} {l : List (Option String)}
    (h : parseEmails obj [] = (.success, l)) : l = emailsOf (some obj) := by
  have hrun : parseEmails obj [] =
      forEach parseEmail (jsonArrayElems (jsonObjectGetArray (some obj) "emails")) [] := rfl
  rw [hrun] at h
  refine forEach_append_success (g := fun elem => jsonValueGetString (some elem)) ?_ h
  intro elem l l' hstep
  rw [parseEmail] at hstep
  cases hemail : jsonValueGetString (some elem) with
  | none =>
      rw [hemail] at hstep
      cases (Prod.mk.inj hstep).1
  | some email =>
      rw [hemail] at hstep
      obtain ⟨y, hy, rfl⟩ := appendEntry_success hstep
      rw [copyOeString_success hy]

/-- A phone number has its two texts. -/
theorem fillPhone_success {number type : String} {p : OePhone}
    (h : fillPhone number type {} = (.success, p)) : p = ⟨some number, some type⟩ := by
  obtain ⟨p₁, hnumber, htype⟩ := andThen_success_iff.mp h
  obtain ⟨x, hx, rfl⟩ := zoom_success_iff.mp hnumber
  obtain ⟨y, hy, rfl⟩ := zoom_success_iff.mp htype
  rw [copyOeString_success hx, copyOeString_success hy]

/-- The phone numbers that are loaded are those of the object. -/
theorem parsePhoneNumbers_success {obj : JsonObject} {l : List OePhone}
    (h : parsePhoneNumbers obj [] = (.success, l)) :
    l = (members (some obj) "phoneNumbers").map phoneOf := by
  have hrun : parsePhoneNumbers obj [] =
      forEach parsePhoneNumber (jsonArrayElems (jsonObjectGetArray (some obj) "phoneNumbers")) [] :=
    rfl
  rw [hrun] at h
  rw [members, List.map_map]
  refine forEach_append_success ?_ h
  intro elem l l' hstep
  rw [parsePhoneNumber] at hstep
  cases hobj : jsonValueGetObject (some elem) with
  | none =>
      rw [hobj] at hstep
      cases (Prod.mk.inj hstep).1
  | some phone =>
      rw [hobj] at hstep
      dsimp only at hstep
      cases hnumber : jsonObjectGetString (some phone) "number" with
      | none =>
          rw [hnumber] at hstep
          cases (Prod.mk.inj hstep).1
      | some number =>
          cases htype : jsonObjectGetString (some phone) "type" with
          | none =>
              rw [hnumber, htype] at hstep
              cases (Prod.mk.inj hstep).1
          | some type =>
              rw [hnumber, htype] at hstep
              obtain ⟨y, hy, rfl⟩ := appendEntry_success hstep
              rw [fillPhone_success hy]
              simp [phoneOf, hobj, hnumber, htype]

/-- A person that is loaded is that of its object. -/
theorem fillPerson_success {contact : JsonObject} {p : Person}
    (h : fillPerson contact {} = (.success, p)) : p = personOf (some contact) := by
  rw [fillPerson] at h
  cases hname : jsonObjectGetString (some contact) "fullName" with
  | none =>
      rw [hname] at h
      cases (Prod.mk.inj h).1
  | some name =>
      rw [hname] at h
      obtain ⟨p₁, hfirst, h⟩ := andThen_success_iff.mp h
      obtain ⟨p₂, hemails, hphones⟩ := andThen_success_iff.mp h
      obtain ⟨x, hx, rfl⟩ := zoom_success_iff.mp hfirst
      obtain ⟨y, hy, rfl⟩ := zoom_success_iff.mp hemails
      obtain ⟨z, hz, rfl⟩ := zoom_success_iff.mp hphones
      rw [copyOeString_success hx, parseEmails_success hy, parsePhoneNumbers_success hz, ← hname]
      rfl

/-- The persons of a vendor that are loaded are those of the object. -/
theorem parseVendorContacts_success {obj : JsonObject} {v v' : Vendor} (hv : v.persons = [])
    (h : parseVendorContacts obj v = (.success, v')) :
    v' = { v with persons := (members (some obj) "contacts").map personOf } := by
  obtain ⟨l, hl, rfl⟩ := zoom_success_iff.mp h
  rw [hv, Prog.read_bind_apply] at hl
  rw [if_neg (by simp), Prog.ite_apply, Prog.ite_apply] at hl
  split_ifs at hl
  · cases (Prod.mk.inj hl).1
  · cases (Prod.mk.inj hl).1
  · congr 1
    rw [members, List.map_map]
    refine forEach_append_success ?_ hl
    intro elem l l' hstep
    rw [parseContact] at hstep
    cases hobj : jsonValueGetObject (some elem) with
    | none =>
        rw [hobj] at hstep
        cases (Prod.mk.inj hstep).1
    | some contact =>
        rw [hobj] at hstep
        obtain ⟨y, hy, rfl⟩ := appendEntry_success hstep
        rw [fillPerson_success hy]
        simp [hobj]

/-- An address that is copied is the source. -/
theorem oeVendorAddAddress_success {a b : VendorAddress}
    (h : oeVendorAddAddress a {} = (.success, b)) : b = a := by
  rw [oeVendorAddAddress, Prog.ite_apply] at h
  split_ifs at h
  · cases (Prod.mk.inj h).1
  · obtain ⟨b₁, h₁, h⟩ := andThen_success_iff.mp h
    obtain ⟨b₂, h₂, h⟩ := andThen_success_iff.mp h
    obtain ⟨b₃, h₃, h⟩ := andThen_success_iff.mp h
    obtain ⟨b₄, h₄, h⟩ := andThen_success_iff.mp h
    obtain ⟨b₅, h₅, h⟩ := andThen_success_iff.mp h
    obtain ⟨b₆, h₆, h₇⟩ := andThen_success_iff.mp h
    obtain ⟨x₁, hx₁, rfl⟩ := zoom_success_iff.mp h₁
    obtain ⟨x₂, hx₂, rfl⟩ := zoom_success_iff.mp h₂
    obtain ⟨x₃, hx₃, rfl⟩ := zoom_success_iff.mp h₃
    obtain ⟨x₄, hx₄, rfl⟩ := zoom_success_iff.mp h₄
    obtain ⟨x₅, hx₅, rfl⟩ := zoom_success_iff.mp h₅
    obtain ⟨x₆, hx₆, rfl⟩ := zoom_success_iff.mp h₆
    obtain ⟨x₇, hx₇, rfl⟩ := zoom_success_iff.mp h₇
    rw [copyGiven_success hx₁, copyGiven_success hx₂, copyGiven_success hx₃,
      copyGiven_success hx₄, copyGiven_success hx₅, copyGiven_success hx₆, copyGiven_success hx₇]

/-- The address of a vendor is that of the object. -/
theorem parseVendorAddress_success {obj : JsonObject} {v v' : Vendor} (hv : v.address = {})
    (h : parseVendorAddress obj v = (.success, v')) :
    v' = { v with address := addressOf (jsonObjectGetObject (some obj) "address") } := by
  rw [parseVendorAddress] at h
  cases haddress : jsonObjectGetObject (some obj) "address" with
  | none =>
      rw [haddress] at h
      cases (Prod.mk.inj h).1
  | some a =>
      rw [haddress] at h
      obtain ⟨x, hx, rfl⟩ := zoom_success_iff.mp h
      rw [hv] at hx
      rw [oeVendorAddAddress_success hx]
      rfl

/-- A new vendor that was filled is the vendor of the metadata. -/
theorem newVendor_success {obj : JsonObject} {name : String} {id : UInt32} {v : Vendor}
    (hname : jsonObjectGetString (some obj) "name" = some name)
    (h : newVendor obj name { id := id } = (.success, v)) :
    v = { vendorOf (some obj) with id := id } := by
  obtain ⟨v₁, h₁, h⟩ := andThen_success_iff.mp h
  obtain ⟨v₂, h₂, h⟩ := andThen_success_iff.mp h
  obtain ⟨v₃, h₃, h⟩ := andThen_success_iff.mp h
  obtain ⟨v₄, h₄, h⟩ := andThen_success_iff.mp h
  obtain ⟨v₅, h₅, h₆⟩ := andThen_success_iff.mp h
  obtain ⟨x₁, hx₁, rfl⟩ := zoom_success_iff.mp h₁
  obtain ⟨x₂, hx₂, rfl⟩ := zoom_success_iff.mp h₂
  obtain ⟨x₃, hx₃, rfl⟩ := zoom_success_iff.mp h₃
  obtain ⟨x₄, hx₄, rfl⟩ := zoom_success_iff.mp h₄
  rw [parseVendorContacts_success (by rw [parseVendorAddress_success rfl h₅]) h₆,
    parseVendorAddress_success rfl h₅, copyOeString_success hx₁, copyGiven_success hx₂,
    parseEmails_success hx₃, parsePhoneNumbers_success hx₄, ← hname]
  rfl

/-! ## Modules and dependencies -/

/-- The texts of a module are those that were given. -/
theorem fillModuleTexts_success {type version description : Option String} {m m' : Module}
    (htype : m.type = none) (hversion : m.version = none) (hdescription : m.description = none)
    (h : fillModuleTexts type version description m = (.success, m')) :
    m' = { m with type := type, version := version, description := description } := by
  obtain ⟨m₁, h₁, h⟩ := andThen_success_iff.mp h
  obtain ⟨m₂, h₂, h₃⟩ := andThen_success_iff.mp h
  obtain ⟨x₁, hx₁, rfl⟩ := zoom_success_iff.mp h₁
  obtain ⟨x₂, hx₂, rfl⟩ := zoom_success_iff.mp h₂
  obtain ⟨x₃, hx₃, rfl⟩ := zoom_success_iff.mp h₃
  rw [htype] at hx₁
  rw [hversion] at hx₂
  rw [hdescription] at hx₃
  rw [copyGiven_success hx₁, copyGiven_success hx₂, copyGiven_success hx₃]

/-- A new module that was filled is the module of the metadata. -/
theorem newModule_success {obj : JsonObject} {name : String} {vendor : Option Nat} {id : UInt32}
    {m : Module} (hname : jsonObjectGetString (some obj) "name" = some name)
    (h : newModule obj name vendor { id := id } = (.success, m)) :
    m = { moduleOf (some obj) with id := id, vendor := vendor } := by
  obtain ⟨m₁, hfill, htexts⟩ := andThen_success_iff.mp h
  rw [Prog.ite_apply] at htexts
  cases vendor with
  | none => cases (Prod.mk.inj hfill).1
  | some v =>
      obtain ⟨x, hx, rfl⟩ := zoom_success_iff.mp
        (show Prog.zoom (·.name) (fun (m : Module) x => { m with name := x })
          (copyOeString (some name)) { id := id, vendor := some v } = (.success, m₁) from hfill)
      split_ifs at htexts
      · cases (Prod.mk.inj htexts).1
      · rw [fillModuleTexts_success rfl rfl rfl htexts, copyOeString_success hx, ← hname]
        rfl

/-- The value of a field of a dependency. -/
def Dependency.field (d : Dependency) : DependencyField → Option String
  | .type => d.type
  | .name => d.name
  | .desc => d.description
  | .man => d.manufacturer
  | .version => d.version
  | .family => d.family
  | .series => d.series

/-- Replace a field of a dependency. -/
def Dependency.withField (d : Dependency) (value : Option String) : DependencyField → Dependency
  | .type => { d with type := value }
  | .name => { d with name := value }
  | .desc => { d with description := value }
  | .man => { d with manufacturer := value }
  | .version => { d with version := value }
  | .family => { d with family := value }
  | .series => { d with series := value }

/-- Filling an empty field sets it, and leaves the others alone. -/
theorem givenField_success {field : DependencyField} {value : Option String} {d d' : Dependency}
    (hempty : d.field field = none) (h : givenField field value d = (.success, d')) :
    d' = d.withField value field := by
  rw [givenField, Prog.ite_apply] at h
  split_ifs at h with hnone
  · obtain rfl : d = d' := (Prod.mk.inj h).2
    rw [Option.isNone_iff_eq_none.mp hnone, ← hempty]
    cases field <;> rfl
  · cases field
    all_goals
      rw [Dependency.setField] at h
      obtain ⟨x, hx, rfl⟩ := zoom_success_iff.mp h
      rw [copyOeString_success hx]
      rfl

/-- A new dependency that was filled is the dependency of the metadata. -/
theorem fillDependency_success {dep d : Dependency} {id : UInt32}
    (h : fillDependency dep { id := id } = (.success, d)) : d = { dep with id := id } := by
  obtain ⟨d₁, h₁, h⟩ := andThen_success_iff.mp h
  obtain ⟨d₂, h₂, h⟩ := andThen_success_iff.mp h
  obtain ⟨d₃, h₃, h⟩ := andThen_success_iff.mp h
  obtain ⟨d₄, h₄, h⟩ := andThen_success_iff.mp h
  obtain ⟨d₅, h₅, h⟩ := andThen_success_iff.mp h
  obtain ⟨d₆, h₆, h₇⟩ := andThen_success_iff.mp h
  obtain rfl := givenField_success rfl h₁
  obtain rfl := givenField_success rfl h₂
  obtain rfl := givenField_success rfl h₃
  obtain rfl := givenField_success rfl h₄
  obtain rfl := givenField_success rfl h₅
  obtain rfl := givenField_success rfl h₆
  obtain rfl := givenField_success rfl h₇
  rfl

/-! ## The loops -/

/-- A step made with an element succeeds on its object. -/
theorem stepElement_success {step : JsonObject → OeState → AmvpResult × OeState} {elem : Json}
    {s s' : OeState} (h : stepElement step elem s = (.success, s')) :
    ∃ obj, jsonValueGetObject (some elem) = some obj ∧ step obj s = (.success, s') := by
  rw [stepElement] at h
  cases hobj : jsonValueGetObject (some elem) with
  | none =>
      rw [hobj] at h
      cases (Prod.mk.inj h).1
  | some obj =>
      rw [hobj] at h
      exact ⟨obj, rfl, h⟩

/-- The vendors that were loaded. -/
theorem vendorSteps_success {elems : List Json} {s s' : OeState}
    (h : forEach (stepElement vendorStep) elems s = (.success, s')) :
    s'.env.vendors.map erase = s.env.vendors.map erase ++
        elems.map (fun elem => vendorOf (jsonValueGetObject (some elem))) ∧
      s'.env.modules = s.env.modules ∧ s'.env.dependencies = s.env.dependencies ∧
      s'.env.oes = s.env.oes := by
  induction elems generalizing s with
  | nil =>
      obtain rfl : s = s' := (Prod.mk.inj h).2
      simp
  | cons elem elems ih =>
      obtain ⟨s₁, hfirst, hrest⟩ := andThen_success_iff.mp h
      obtain ⟨obj, hobj, hstep⟩ := stepElement_success hfirst
      obtain ⟨name, v, hname, hv, rfl⟩ := vendorStep_success hstep
      obtain ⟨hvendors, hframe⟩ := ih hrest
      refine ⟨?_, hframe⟩
      rw [hvendors, newVendor_success hname hv]
      simp only [List.map_append, List.map_cons, List.map_nil, List.append_assoc,
        List.singleton_append, hobj]
      rfl

/-- The modules that were loaded. -/
theorem moduleSteps_success {elems : List Json} {s s' : OeState}
    (h : forEach (stepElement moduleStep) elems s = (.success, s')) :
    (s'.env.modules.map fun m => { erase m with vendor := none }) =
        (s.env.modules.map fun m => { erase m with vendor := none }) ++
        elems.map (fun elem => moduleOf (jsonValueGetObject (some elem))) ∧
      s'.env.vendors = s.env.vendors ∧ s'.env.dependencies = s.env.dependencies ∧
      s'.env.oes = s.env.oes := by
  induction elems generalizing s with
  | nil =>
      obtain rfl : s = s' := (Prod.mk.inj h).2
      simp
  | cons elem elems ih =>
      obtain ⟨s₁, hfirst, hrest⟩ := andThen_success_iff.mp h
      obtain ⟨obj, hobj, hstep⟩ := stepElement_success hfirst
      obtain ⟨name, m, hname, hm, rfl⟩ := moduleStep_success hstep
      obtain ⟨hmodules, hframe⟩ := ih hrest
      refine ⟨?_, hframe⟩
      rw [hmodules, newModule_success hname hm]
      simp only [List.map_append, List.map_cons, List.map_nil, List.append_assoc,
        List.singleton_append, hobj]
      rfl

/-- The dependencies of one operating environment get consecutive entries. -/
theorem dependencySteps_success {elems : List Json} {s s' : OeState} {before : List Oe} {oe : Oe}
    (hoes : s.env.oes = before ++ [oe]) (h : forEach dependencyStep elems s = (.success, s')) :
    s'.env.dependencies.map erase = s.env.dependencies.map erase ++
        elems.map (fun elem => dependencyOf (jsonValueGetObject (some elem))) ∧
      s'.env.oes = before ++ [{ oe with
        dependencies := oe.dependencies ++
          List.range' s.env.dependencies.length elems.length }] ∧
      s'.env.vendors = s.env.vendors ∧ s'.env.modules = s.env.modules := by
  induction elems generalizing s oe with
  | nil =>
      obtain rfl : s = s' := (Prod.mk.inj h).2
      simp [hoes]
  | cons elem elems ih =>
      obtain ⟨s₁, hfirst, hrest⟩ := andThen_success_iff.mp h
      obtain ⟨d, hd, rfl⟩ := dependencyStep_success hfirst
      have hlinked : (s.env.oes.modifyLast fun oe => { oe with
            dependencies := oe.dependencies ++ [s.env.dependencies.length] }) =
          before ++ [{ oe with
            dependencies := oe.dependencies ++ [s.env.dependencies.length] }] := by
        rw [hoes, List.modifyLast_concat]
      obtain ⟨hdeps, hlinks, hframe⟩ := ih hlinked hrest
      refine ⟨?_, ?_, hframe⟩
      · rw [hdeps, fillDependency_success hd]
        simp only [List.map_append, List.map_cons, List.map_nil, List.append_assoc,
          List.singleton_append]
        rfl
      · rw [hlinks, List.length_cons, List.range'_succ]
        simp

/-- Names and links of operating environments whose dependencies have consecutive
entries. -/
def linksFrom (n : Nat) : List (Option JsonObject) → List (Option String × List Nat)
  | [] => []
  | o :: os => (jsonObjectGetString o "name", List.range' n (dependenciesOf o).length) ::
      linksFrom (n + (dependenciesOf o).length) os

/-- The operating environments that were loaded. -/
theorem oeSteps_success {elems : List Json} {s s' : OeState}
    (h : forEach (stepElement oeStep) elems s = (.success, s')) :
    s'.env.dependencies.map erase = s.env.dependencies.map erase ++
        elems.flatMap (fun elem => dependenciesOf (jsonValueGetObject (some elem))) ∧
      (s'.env.oes.map fun oe => (oe.name, oe.dependencies)) =
        (s.env.oes.map fun oe => (oe.name, oe.dependencies)) ++
        linksFrom s.env.dependencies.length
          (elems.map fun elem => jsonValueGetObject (some elem)) ∧
      s'.env.vendors = s.env.vendors ∧ s'.env.modules = s.env.modules := by
  induction elems generalizing s with
  | nil =>
      obtain rfl : s = s' := (Prod.mk.inj h).2
      simp [linksFrom]
  | cons elem elems ih =>
      obtain ⟨s₁, hfirst, hrest⟩ := andThen_success_iff.mp h
      obtain ⟨obj, hobj, hstep⟩ := stepElement_success hfirst
      obtain ⟨name, oe, deps, hname, hoe, harray, hloop⟩ := oeStep_success hstep
      obtain ⟨x, hx, rfl⟩ := zoom_success_iff.mp hoe
      obtain rfl := copyOeString_success hx
      obtain ⟨hdeps, hlinks, hvendors, hmodules⟩ := dependencySteps_success rfl hloop
      obtain ⟨hdeps', hlinks', hvendors', hmodules'⟩ := ih hrest
      have hof : dependenciesOf (some obj) =
          deps.map fun elem => dependencyOf (jsonValueGetObject (some elem)) := by
        rw [dependenciesOf, members, harray, List.map_map]
        rfl
      have hlength : s₁.env.dependencies.length =
          s.env.dependencies.length + (dependenciesOf (some obj)).length := by
        simpa [hof] using congrArg List.length hdeps
      refine ⟨?_, ?_, hvendors'.trans hvendors, hmodules'.trans hmodules⟩
      · rw [hdeps', hdeps, List.flatMap_cons, hobj, hof, List.append_assoc]
      · rw [hlinks', hlinks, hlength]
        simp only [List.map_append, List.map_cons, List.map_nil, List.nil_append,
          List.append_assoc, List.singleton_append, linksFrom, hobj, hname]
        rw [hof, List.length_map]

/-! ## Reading the links back -/

/-- The entries at the places of the middle part of a list. -/
theorem map_getElem?_range' {α : Type} (before l after : List α) :
    (List.range' before.length l.length).map (fun i => (before ++ (l ++ after))[i]?) =
      l.map some := by
  induction l generalizing before with
  | nil => rfl
  | cons x l ih =>
      have hrest := ih (before ++ [x])
      rw [List.length_append, List.length_singleton] at hrest
      rw [List.length_cons, List.range'_succ, List.map_cons, List.map_cons]
      congr 1
      · simp
      · simpa using hrest

/-- Consecutive links lead to the dependencies of each operating environment. -/
theorem linksFrom_deref (before : List Dependency) (os : List (Option JsonObject)) :
    ((linksFrom before.length os).map fun p => (p.1, p.2.map fun i =>
        (before ++ os.flatMap dependenciesOf)[i]?)) =
      os.map fun o => (jsonObjectGetString o "name", (dependenciesOf o).map some) := by
  induction os generalizing before with
  | nil => rfl
  | cons o os ih =>
      have hrest := ih (before ++ dependenciesOf o)
      rw [List.length_append, List.append_assoc] at hrest
      rw [linksFrom, List.map_cons, List.map_cons, List.flatMap_cons, map_getElem?_range', hrest]

/-! ## The result -/

/-- What a successful load leaves: one entry for each object, in order. -/
theorem loadSteps_success {obj : JsonObject} {base : OeCounters} {s' : OeState}
    (h : loadSteps obj ⟨base, {}⟩ = (.success, s')) :
    s'.env.vendors.map erase = (members (some obj) "vendors").map vendorOf ∧
      (s'.env.modules.map fun m => { erase m with vendor := none }) =
        (members (some obj) "modules").map moduleOf ∧
      s'.env.dependencies.map erase = allDependencies obj ∧
      (s'.env.oes.map fun oe => (oe.name, oe.dependencies)) =
        linksFrom 0 (members (some obj) "operating_environments") := by
  obtain ⟨s₁, hvendors, h⟩ := andThen_success_iff.mp h
  obtain ⟨s₂, hmodules, h⟩ := andThen_success_iff.mp h
  obtain ⟨s₃, hoes, hmark⟩ := andThen_success_iff.mp h
  obtain ⟨-, rfl⟩ := Prod.mk.inj hmark
  have hvendors' : s₁.env.vendors.map erase = (members (some obj) "vendors").map vendorOf ∧
      s₁.env.modules = [] ∧ s₁.env.dependencies = [] ∧ s₁.env.oes = [] := by
    rw [vendorSteps] at hvendors
    rw [members, List.map_map]
    cases harray : jsonObjectGetArray (some obj) "vendors" with
    | none =>
        rw [harray] at hvendors
        cases (Prod.mk.inj hvendors).1
    | some elems =>
        rw [harray] at hvendors
        cases elems with
        | nil => cases (Prod.mk.inj hvendors).1
        | cons elem elems => exact vendorSteps_success hvendors
  have hmodules' : (s₂.env.modules.map fun m => { erase m with vendor := none }) =
        (members (some obj) "modules").map moduleOf ∧
      s₂.env.vendors = s₁.env.vendors ∧ s₂.env.dependencies = [] ∧ s₂.env.oes = [] := by
    rw [moduleSteps] at hmodules
    rw [members, List.map_map]
    cases harray : jsonObjectGetArray (some obj) "modules" with
    | none =>
        rw [harray] at hmodules
        cases (Prod.mk.inj hmodules).1
    | some elems =>
        rw [harray] at hmodules
        have hloaded := moduleSteps_success hmodules
        rw [hvendors'.2.1, hvendors'.2.2.1, hvendors'.2.2.2] at hloaded
        exact hloaded
  have hoes' : s₃.env.dependencies.map erase = allDependencies obj ∧
      (s₃.env.oes.map fun oe => (oe.name, oe.dependencies)) =
        linksFrom 0 (members (some obj) "operating_environments") ∧
      s₃.env.vendors = s₂.env.vendors ∧ s₃.env.modules = s₂.env.modules := by
    rw [oeSteps] at hoes
    rw [allDependencies, members, List.flatMap_map]
    cases harray : jsonObjectGetArray (some obj) "operating_environments" with
    | none =>
        rw [harray] at hoes
        cases (Prod.mk.inj hoes).1
    | some elems =>
        rw [harray] at hoes
        have hloaded := oeSteps_success hoes
        rw [hmodules'.2.2.1, hmodules'.2.2.2] at hloaded
        exact hloaded
  obtain ⟨hdeps, hlinks, hv, hm⟩ := hoes'
  refine ⟨?_, ?_, hdeps, hlinks⟩
  · show s₃.env.vendors.map erase = _
    rw [hv, hmodules'.2.1, hvendors'.1]
  · show (s₃.env.modules.map fun m => { erase m with vendor := none }) = _
    rw [hm, hmodules'.1]

/-- An ingest that succeeds has loaded its file. -/
theorem ingestMetadata_success {files : String → Option Json} {file : Option String}
    {obj : JsonObject} (hfile : file.bind files = some (.obj obj)) {s s' : OeState}
    (h : oeIngestMetadata files file s = (.success, s')) : loadMetadata obj s = (.success, s') := by
  cases file with
  | none => cases hfile
  | some file =>
      rw [oeIngestMetadata, Prog.ite_apply] at h
      split_ifs at h
      · cases (Prod.mk.inj h).1
      · rw [show files file = _ from hfile] at h
        exact h

/-- After a successful load into a fresh context the tables hold the metadata with shared
dependencies exactly when there is nothing to share. -/
theorem ingestMetadata_faithful_iff (files : String → Option Json) (file : Option String)
    (obj : JsonObject) (hfile : file.bind files = some (.obj obj)) (counters : OeCounters)
    (s' : OeState) (h : oeIngestMetadata files file ⟨counters, {}⟩ = (.success, s')) :
    MetadataFaithful obj s'.env ↔ (allDependencies obj).Nodup := by
  have hload := ingestMetadata_success hfile h
  rw [(loadMetadata_eq counters obj).1] at hload
  obtain ⟨hvendors, hmodules, hdeps, hlinks⟩ := loadSteps_success hload
  constructor
  · intro hfaithful
    rw [← hdeps]
    exact hfaithful.unique
  · intro hnodup
    refine ⟨hvendors, hmodules, ?_, fun i j d hi hj => ?_, by rwa [hdeps]⟩
    · have hderef := linksFrom_deref [] (members (some obj) "operating_environments")
      rw [List.length_nil, ← hlinks, List.nil_append, ← allDependencies, ← hdeps,
        List.map_map] at hderef
      simp only [List.getElem?_map] at hderef
      exact hderef
    · -- two positions with one dependency are one position
      have hlt := (List.getElem?_eq_some_iff.mp hi).1
      obtain rfl := (List.getElem?_inj hlt hnodup).mp (hi.trans hj.symm)
      rfl

/-! ## Two environments on one operating system -/

/-- A metadata object with these operating environments. -/
def sampleMetadata (oes : List Json) : JsonObject :=
  [("vendors", .arr [.obj [("name", .str "Vendor"), ("website", .str "vendor.example"),
      ("emails", .arr [.str "a@vendor.example"]),
      ("phoneNumbers", .arr [.obj [("number", .str "555-0100"), ("type", .str "voice")]]),
      ("address", .obj [("street1", .str "1 Main Street")]),
      ("contacts", .arr [.obj [("fullName", .str "Contact")]])]]),
    ("modules", .arr [.obj [("name", .str "Module"), ("type", .str "Software"),
      ("version", .str "1.0")]]),
    ("operating_environments", .arr oes)]

/-- An operating environment on an operating system. -/
def sampleOe (name os : String) : Json :=
  .obj [("name", .str name), ("dependencies", .arr [.obj [("type", .str "software"),
    ("name", .str os)]])]

/-- One metadata file, under any name. -/
def sampleFiles (oes : List Json) : String → Option Json :=
  fun _ => some (.obj (sampleMetadata oes))

/-- Two environments on two operating systems. -/
def distinctOes : List Json := [sampleOe "A" "Linux", sampleOe "B" "BSD"]

/-- Two environments on one operating system. -/
def equalOes : List Json := [sampleOe "A" "Linux", sampleOe "B" "Linux"]

/-- A load of two environments on two operating systems. -/
theorem ingestMetadata_faithful_two_systems :
    MetadataFaithful (sampleMetadata distinctOes)
      (oeIngestMetadata (sampleFiles distinctOes) (some "meta.json") ⟨{}, {}⟩).2.env :=
  (ingestMetadata_faithful_iff (sampleFiles distinctOes) (some "meta.json") _ rfl {} _ rfl).mpr
    (by decide)

/-- The load of two environments on one operating system succeeds, and leaves two entries
for the system. -/
theorem ingestMetadata_not_shared :
    (oeIngestMetadata (sampleFiles equalOes) (some "meta.json") ⟨{}, {}⟩).1 = .success ∧
      ¬ MetadataFaithful (sampleMetadata equalOes)
        (oeIngestMetadata (sampleFiles equalOes) (some "meta.json") ⟨{}, {}⟩).2.env := by
  refine ⟨rfl, fun hfaithful => ?_⟩
  have hentries : (oeIngestMetadata (sampleFiles equalOes) (some "meta.json")
      ⟨{}, {}⟩).2.env.dependencies.map erase =
        [⟨0, some "Linux", some "software", none, none, none, none, none⟩,
          ⟨0, some "Linux", some "software", none, none, none, none, none⟩] := rfl
  have hunique := hfaithful.unique
  rw [hentries] at hunique
  simp at hunique

end LibAmvp
