import LibAmvp.OperatingEnv.Tables

/-!
# Loading metadata

The metadata of a FIPS validation is read from a JSON file into the tables of a
context.  Loading stops at the first error and keeps what was loaded so far.  The
counters of vendors, modules and operating environments advance with every attempt,
that of dependencies with every success.
-/

namespace LibAmvp

open IdTable

/-! ## Parts of a vendor -/

/-- {lit}`amvp_oe_metadata_parse_vendor_address`. -/
def parseVendorAddress (obj : JsonObject) : Prog Vendor AmvpResult :=
  match jsonObjectGetObject (some obj) "address" with
  | none => return .missingArg
  | some a =>
    let text := jsonObjectGetString (some a)
    .zoom (·.address) (fun v x => { v with address := x }) (oeVendorAddAddress
      { street1 := text "street1"
        street2 := text "street2"
        street3 := text "street3"
        locality := text "locality"
        region := text "region"
        country := text "country"
        postalCode := text "postalCode" })

/-- One e-mail address. -/
def parseEmail (elem : Json) : Prog (List (Option String)) AmvpResult :=
  match jsonValueGetString (some elem) with
  | none => return .jsonErr
  | some email => appendEntry none (copyOeString (some email))

/-- {lit}`amvp_oe_metadata_parse_emails`. -/
def parseEmails (obj : JsonObject) : Prog (List (Option String)) AmvpResult := do
  if (← Prog.read) ≠ [] then
    return .invalidArg
  else
    forEach parseEmail (jsonArrayElems (jsonObjectGetArray (some obj) "emails"))

/-- Copy the strings of a phone number. -/
def fillPhone (number type : String) : Prog OePhone AmvpResult :=
  andThen (.zoom (·.number) (fun p x => { p with number := x }) (copyOeString (some number)))
    (.zoom (·.type) (fun p x => { p with type := x }) (copyOeString (some type)))

/-- One phone number. -/
def parsePhoneNumber (elem : Json) : Prog (List OePhone) AmvpResult :=
  match jsonValueGetObject (some elem) with
  | none => return .jsonErr
  | some phone =>
    match jsonObjectGetString (some phone) "number", jsonObjectGetString (some phone) "type" with
    | some number, some type => appendEntry {} (fillPhone number type)
    | _, _ => return .jsonErr

/-- {lit}`amvp_oe_metadata_parse_phone_numbers`. -/
def parsePhoneNumbers (obj : JsonObject) : Prog (List OePhone) AmvpResult := do
  if (← Prog.read) ≠ [] then
    return .invalidArg
  else
    forEach parsePhoneNumber (jsonArrayElems (jsonObjectGetArray (some obj) "phoneNumbers"))

/-- Copy the data of a contact. -/
def fillPerson (contact : JsonObject) : Prog Person AmvpResult :=
  match jsonObjectGetString (some contact) "fullName" with
  | none => return .jsonErr
  | some name =>
    andThen (.zoom (·.fullName) (fun p x => { p with fullName := x })
      (copyOeString (some name))) <|
    andThen (.zoom (·.emails) (fun p x => { p with emails := x }) (parseEmails contact)) <|
    .zoom (·.phoneNumbers) (fun p x => { p with phoneNumbers := x }) (parsePhoneNumbers contact)

/-- One contact. -/
def parseContact (elem : Json) : Prog (List Person) AmvpResult :=
  match jsonValueGetObject (some elem) with
  | none => return .jsonErr
  | some contact => appendEntry {} (fillPerson contact)

/-- {lit}`amvp_oe_metadata_parse_vendor_contacts`. -/
def parseVendorContacts (obj : JsonObject) : Prog Vendor AmvpResult :=
  .zoom (·.persons) (fun v x => { v with persons := x }) do
    let contacts := jsonArrayElems (jsonObjectGetArray (some obj) "contacts")
    if (← Prog.read) ≠ [] then
      return .invalidArg
    else if libamvpPersonsMax < contacts.length then
      return .jsonErr
    else if contacts.length = 0 then
      return .jsonErr
    else
      forEach parseContact contacts

/-- Everything of a vendor but its name. -/
def fillVendor (obj : JsonObject) : Prog Vendor AmvpResult :=
  andThen (.zoom (·.website) (fun v x => { v with website := x })
    (copyGiven (jsonObjectGetString (some obj) "website"))) <|
  andThen (.zoom (·.emails) (fun v x => { v with emails := x }) (parseEmails obj)) <|
  andThen (.zoom (·.phoneNumbers) (fun v x => { v with phoneNumbers := x })
    (parsePhoneNumbers obj)) <|
  andThen (parseVendorAddress obj) (parseVendorContacts obj)

/-! ## Drawing ids -/

/-- Work on the tables of the context. -/
def onEnv {α : Type} (m : Prog OperatingEnv α) : Prog OeState α :=
  .zoom (·.env) (fun s env => { s with env := env }) m

/-- Draw an id for a vendor. -/
def drawVendorId : Prog OeState UInt32 := fun s =>
  (s.counters.vendorId, { s with
    counters := { s.counters with vendorId := s.counters.vendorId + 1 } })

/-- Draw an id for a module. -/
def drawModuleId : Prog OeState UInt32 := fun s =>
  (s.counters.moduleId, { s with
    counters := { s.counters with moduleId := s.counters.moduleId + 1 } })

/-- Draw an id for an operating environment. -/
def drawOeId : Prog OeState UInt32 := fun s =>
  (s.counters.oeId, { s with counters := { s.counters with oeId := s.counters.oeId + 1 } })

/-! ## Vendors and modules -/

/-- {lit}`amvp_oe_metadata_parse_vendor`. -/
def parseVendor (obj : JsonObject) : Prog OeState AmvpResult := do
  let id ← drawVendorId
  match jsonObjectGetString (some obj) "name" with
  | none => return .invalidArg
  | some name =>
    andThen (onEnv (oeVendorNew id (some name))) (onEnv (atVendor id (fillVendor obj)))

/-- An element of an array that has to be an object. -/
def parseElement (parse : JsonObject → Prog OeState AmvpResult) (elem : Json) :
    Prog OeState AmvpResult :=
  match jsonValueGetObject (some elem) with
  | none => return .jsonErr
  | some obj => parse obj

/-- {lit}`amvp_oe_metadata_parse_vendors`. -/
def parseVendors (obj : JsonObject) : Prog OeState AmvpResult :=
  match jsonObjectGetArray (some obj) "vendors" with
  | none => return .jsonErr
  | some [] => return .malformedJson
  | some elems => forEach (parseElement parseVendor) elems

/-- {lit}`amvp_oe_metadata_parse_module`. -/
def parseModule (obj : JsonObject) : Prog OeState AmvpResult := do
  let id ← drawModuleId
  match jsonObjectGetString (some obj) "name" with
  | none => return .invalidArg
  | some name =>
    andThen (onEnv (oeModuleNew id (some name)))
      (onEnv (oeModuleSetTypeVersionDesc id (jsonObjectGetString (some obj) "type")
        (jsonObjectGetString (some obj) "version")
        (jsonObjectGetString (some obj) "description")))

/-- {lit}`amvp_oe_metadata_parse_modules`. -/
def parseModules (obj : JsonObject) : Prog OeState AmvpResult :=
  match jsonObjectGetArray (some obj) "modules" with
  | none => return .jsonErr
  | some elems => forEach (parseElement parseModule) elems

/-! ## Dependencies and operating environments -/

/-- The strings of a dependency object, without an id. -/
def dependencyOf (obj : Option JsonObject) : Dependency where
  id := 0
  name := jsonObjectGetString obj "name"
  type := jsonObjectGetString obj "type"
  description := jsonObjectGetString obj "description"
  series := jsonObjectGetString obj "series"
  family := jsonObjectGetString obj "family"
  version := jsonObjectGetString obj "version"
  manufacturer := jsonObjectGetString obj "manufacturer"

/-- Set a field of a dependency when there is a string for it. -/
def setGiven (field : DependencyField) (id : UInt32) (value : Option String) :
    Prog OperatingEnv AmvpResult :=
  if value.isNone then return .success else oeDependencySetField field id value

/-- Copy the strings of a dependency into the new entry. -/
def setDependency (id : UInt32) (dep : Dependency) : Prog OperatingEnv AmvpResult :=
  andThen (setGiven .type id dep.type) <|
  andThen (setGiven .name id dep.name) <|
  andThen (setGiven .desc id dep.description) <|
  andThen (setGiven .man id dep.manufacturer) <|
  andThen (setGiven .version id dep.version) <|
  andThen (setGiven .family id dep.family) <|
  setGiven .series id dep.series

/-- Make a new entry for a dependency.  The counter advances when everything was
copied. -/
def newDependency (dep : Dependency) : Prog OeState AmvpResult := do
  let s ← Prog.read
  let id := s.counters.dependencyId
  andThen (onEnv (oeDependencyNew id)) <| do
    let s ← Prog.read
    if (findDependency s.env id).isNone then
      return .invalidArg
    else
      andThen (onEnv (setDependency id dep)) <| do
        Prog.update fun s => { s with
          counters := { s.counters with dependencyId := s.counters.dependencyId + 1 } }
        return .success

/-- Link a dependency to an operating environment; a failure is ignored. -/
def linkDependency (oeId depId : UInt32) : Prog OeState AmvpResult := do
  let _ ← onEnv (oeOeSetDependency oeId depId)
  return .success

/-- One dependency of an operating environment: look for an equal one, or make a new
entry, and link it. -/
def parseOeDependency (oeId : UInt32) (elem : Json) : Prog OeState AmvpResult := do
  let dep := dependencyOf (jsonValueGetObject (some elem))
  if dep.type.isNone && dep.name.isNone && dep.description.isNone then
    return .jsonErr
  else
    let s ← Prog.read
    let depId := matchDependency s.env dep
    if depId = 0 then
      andThen (newDependency dep) (linkDependency oeId s.counters.dependencyId)
    else
      linkDependency oeId depId

/-- {lit}`amvp_oe_metadata_parse_oe_dependencies`. -/
def parseOeDependencies (obj : JsonObject) (oeId : UInt32) : Prog OeState AmvpResult :=
  match jsonObjectGetArray (some obj) "dependencies" with
  | none => return .jsonErr
  | some [] => return .jsonErr
  | some elems => forEach (parseOeDependency oeId) elems

/-- {lit}`amvp_oe_metadata_parse_oe`. -/
def parseOe (obj : JsonObject) : Prog OeState AmvpResult := do
  let id ← drawOeId
  match jsonObjectGetString (some obj) "name" with
  | none => return .invalidArg
  | some name => andThen (onEnv (oeOeNew id (some name))) (parseOeDependencies obj id)

/-- {lit}`amvp_oe_metadata_parse_oes`. -/
def parseOes (obj : JsonObject) : Prog OeState AmvpResult :=
  match jsonObjectGetArray (some obj) "operating_environments" with
  | none => return .jsonErr
  | some elems => forEach (parseElement parseOe) elems

/-! ## The file -/

/-- Load the tables from the object of a metadata file. -/
def loadMetadata (obj : JsonObject) : Prog OeState AmvpResult :=
  andThen (parseVendors obj) <| andThen (parseModules obj) <| andThen (parseOes obj) <|
    onEnv do
      Prog.update fun env => { env with metadataLoaded := true }
      return .success

/-- {lit}`amvp_oe_ingest_metadata`, with what {lit}`json_parse_file` makes of a file. -/
def oeIngestMetadata (files : String → Option Json) (metadataFile : Option String) :
    Prog OeState AmvpResult :=
  match metadataFile with
  | none => return .missingArg
  | some file =>
    if amvpJsonFilenameMax < file.length then
      return .invalidArg
    else
      match files file with
      | none => return .jsonErr
      | some val =>
        match jsonValueGetObject (some val) with
        | none => return .jsonErr
        | some obj => loadMetadata obj

end LibAmvp
