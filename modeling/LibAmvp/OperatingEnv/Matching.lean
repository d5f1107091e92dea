import LibAmvp.Lib.Paging
import LibAmvp.Lib.Search
import LibAmvp.OperatingEnv.Tables
import LibAmvp.Parson

/-!
# Matching records against a page of the server

Before a validation the records of the operating environment are looked up on the
server.  A page of results is searched for an entry that equals the record, and the
URL of that entry is adopted.  The pages of dependencies and of modules are searched
here.

The scratch record for the entries of a page of dependencies is not cleared as a whole
from one entry to the next, and the contacts of a module are read at the position of
the module on the page.

Main results:

- Theorem {lit}`matchDependenciesPage_iff`: when the search for a dependency is exact.
- Theorem {lit}`matchModulesPage_iff`: when the search for a module is exact.
-/

namespace LibAmvp

open Paging Search

/-! ## Pages -/

/-- What matching a page ends with: an error, the URL that was adopted, or the endpoint of
the next page. -/
abbrev PageVerdict := Verdict AmvpResult String String

/-- What searching the entries of a page ends with, unless it goes through all of them. -/
abbrev Hit := Option (Except AmvpResult String)

/-- Copy the URL of the entry that was found. -/
def takeUrl (entry : JsonObject) : Except AmvpResult String :=
  match jsonObjectGetString (some entry) "url" with
  | none => .error .jsonErr
  | some url => .ok (strcpyS (amvpAttrUrlMax + 1) url)

/-- Copy the endpoint of the next page, which is given under a key of the links. -/
def followLinks (key : String) (obj : JsonObject) : PageVerdict :=
  match jsonObjectGetObject (some obj) "links" with
  | none => .failed .jsonErr
  | some links =>
    .next ((jsonObjectGetString (some links) key).map (strcpyS (amvpAttrUrlMax + 1)))

/-- Search the entries of a page and, when none of them ends the search, go to the links. -/
def matchPage (scan : List Json → Hit) (key : String) (curlBuf : Option Json) : PageVerdict :=
  match getObjFromRsp curlBuf with
  | none => .failed .jsonErr
  | some obj =>
    .ofEntries (scan (jsonArrayElems (jsonObjectGetArray (some obj) "data"))) (followLinks key obj)

/-- A page of results: each of its entries is an object with a URL. -/
structure ResultPage where
  body : Json
  obj : JsonObject
  entries : List JsonObject
  carried : getObjFromRsp (some body) = some obj
  data : jsonArrayElems (jsonObjectGetArray (some obj) "data") = entries.map .obj
  urls : ∀ entry ∈ entries, (jsonObjectGetString (some entry) "url").isSome

/-- The URL of an entry. -/
def entryUrl (entry : JsonObject) : String :=
  (jsonObjectGetString (some entry) "url").getD ""

/-- The URL of an entry, as far as it fits. -/
def copiedUrl (entry : JsonObject) : String := strcpyS (amvpAttrUrlMax + 1) (entryUrl entry)

theorem takeUrl_eq {entry : JsonObject}
    (h : (jsonObjectGetString (some entry) "url").isSome) :
    takeUrl entry = .ok (copiedUrl entry) := by
  obtain ⟨url, hurl⟩ := Option.isSome_iff_exists.mp h
  simp [takeUrl, copiedUrl, entryUrl, hurl]

theorem adopted_followLinks (key : String) (obj : JsonObject) :
    (followLinks key obj).adopted = none := by
  rw [followLinks]
  split <;> rfl

/-- What is adopted from a page is what its entries yield. -/
theorem adopted_matchPage (scan : List Json → Hit) (key : String) (page : ResultPage) :
    (matchPage scan key (some page.body)).adopted =
      (scan (page.entries.map .obj)).bind Except.toOption := by
  rw [matchPage, page.carried]
  simp only [page.data]
  match scan (page.entries.map .obj) with
  | none => exact adopted_followLinks key page.obj
  | some (.error rv) => rfl
  | some (.ok url) => rfl

/-! ## Dependencies -/

/-- Copy the fields an entry has into the scratch record. -/
def readDependency (tmp : Dependency) (entry : JsonObject) : Dependency :=
  { tmp with
    type := (jsonObjectGetString (some entry) "type").or tmp.type
    name := (jsonObjectGetString (some entry) "name").or tmp.name
    description := (jsonObjectGetString (some entry) "description").or tmp.description
    series := (jsonObjectGetString (some entry) "series").or tmp.series
    family := (jsonObjectGetString (some entry) "family").or tmp.family
    version := (jsonObjectGetString (some entry) "version").or tmp.version
    manufacturer := (jsonObjectGetString (some entry) "manufacturer").or tmp.manufacturer }

/-- Release the scratch record after an entry that is not the one. -/
def releaseDependency (tmp : Dependency) : Dependency :=
  { tmp with type := none, name := none, description := none }

/-- The loop of {lit}`match_dependencies_page` over the entries. -/
def scanDependencies (dep : Dependency) : Dependency → List Json → Hit
  | _, [] => none
  | tmp, elem :: rest =>
    match jsonValueGetObject (some elem) with
    | none => some (.error .jsonErr)
    | some entry =>
      let tmp := readDependency tmp entry
      if compareDependencies dep tmp then some (takeUrl entry)
      else scanDependencies dep (releaseDependency tmp) rest

/-- {lit}`match_dependencies_page`. -/
def matchDependenciesPage (dep : Dependency) (curlBuf : Option Json) : PageVerdict :=
  matchPage (scanDependencies dep { id := 0 }) "next" curlBuf

/-- The entry has the same name, and agrees on each of the other fields. -/
def Dependency.sameAs (dep : Dependency) (entry : JsonObject) : Bool :=
  dep.name.isSome && dep.name == jsonObjectGetString (some entry) "name" &&
    dep.type == jsonObjectGetString (some entry) "type" &&
    dep.description == jsonObjectGetString (some entry) "description" &&
    dep.series == jsonObjectGetString (some entry) "series" &&
    dep.family == jsonObjectGetString (some entry) "family" &&
    dep.version == jsonObjectGetString (some entry) "version" &&
    dep.manufacturer == jsonObjectGetString (some entry) "manufacturer"

/-- The text that the last of these entries with a field of this name gives for it. -/
def lastGiven (entries : List Json) (name : String) : Option String :=
  entries.reverse.findSome? fun elem => jsonObjectGetString (jsonValueGetObject (some elem)) name

/-- The entry at a position of the data passes for the dependency: both have a name, whatever it
is, type and description are the same, and each of the other fields is the one that the entry
gives or, where it gives none, that the nearest entry before it gives. -/
def Dependency.passes (dep : Dependency) (data : List Json) (i : Nat) (entry : JsonObject) :
    Bool :=
  dep.name.isSome && (jsonObjectGetString (some entry) "name").isSome &&
    dep.type == jsonObjectGetString (some entry) "type" &&
    dep.description == jsonObjectGetString (some entry) "description" &&
    dep.series == lastGiven (data.take (i + 1)) "series" &&
    dep.family == lastGiven (data.take (i + 1)) "family" &&
    dep.version == lastGiven (data.take (i + 1)) "version" &&
    dep.manufacturer == lastGiven (data.take (i + 1)) "manufacturer"

/-- What the scratch record holds after these entries. -/
def leftFields (data : List Json) : Dependency where
  id := 0
  series := lastGiven data "series"
  family := lastGiven data "family"
  version := lastGiven data "version"
  manufacturer := lastGiven data "manufacturer"

theorem lastGiven_append (data : List Json) (entry : JsonObject) (name : String) :
    lastGiven (data ++ [.obj entry]) name =
      (jsonObjectGetString (some entry) name).or (lastGiven data name) := by
  rw [lastGiven, List.reverse_append, List.reverse_singleton, List.singleton_append,
    List.findSome?_cons]
  simp only [jsonValueGetObject, lastGiven]
  cases jsonObjectGetString (some entry) name <;> rfl

theorem releaseDependency_leftFields (data : List Json) (entry : JsonObject) :
    releaseDependency (readDependency (leftFields data) entry) =
      leftFields (data ++ [.obj entry]) := by
  simp only [releaseDependency, readDependency, leftFields, lastGiven_append]

/-- The comparison accepts the scratch record of an entry when the entry passes. -/
theorem compareDependencies_eq (dep : Dependency) (data : List Json) (entry : JsonObject)
    (rest : List Json) :
    compareDependencies dep (readDependency (leftFields data) entry) =
      dep.passes (data ++ .obj entry :: rest) data.length entry := by
  have htake : (data ++ .obj entry :: rest).take (data.length + 1) = data ++ [.obj entry] := by
    simp [List.take_append]
  rw [Dependency.passes, htake]
  simp only [lastGiven_append, compareDependencies, readDependency, leftFields, Option.or_none,
    Bool.if_false_left, Bool.not_or, Option.not_isNone, Bool.and_assoc, Bool.decide_eq_true]

/-- The loop goes on behind an entry that does not pass, and ends with one that does. -/
theorem scanDependencies_cons (dep : Dependency) (data : List Json) (entry : JsonObject)
    (rest : List Json) :
    scanDependencies dep (leftFields data) (.obj entry :: rest) =
      if dep.passes (data ++ .obj entry :: rest) data.length entry then some (takeUrl entry)
      else scanDependencies dep (leftFields (data ++ [.obj entry])) rest := by
  rw [scanDependencies]
  simp only [jsonValueGetObject, compareDependencies_eq dep data entry rest,
    releaseDependency_leftFields]

/-- The loop takes the first entry that passes at its position. -/
theorem scanDependencies_eq (dep : Dependency) (data : List Json) (entries : List JsonObject)
    (hurls : ∀ entry ∈ entries, (jsonObjectGetString (some entry) "url").isSome) :
    (scanDependencies dep (leftFields data) (entries.map .obj)).bind Except.toOption =
      ((entries.zipIdx data.length).find? fun e =>
        dep.passes (data ++ entries.map .obj) e.2 e.1).map fun e => copiedUrl e.1 := by
  induction entries generalizing data with
  | nil => rfl
  | cons entry rest ih =>
      have hrest := ih (data ++ [.obj entry]) fun e he => hurls e (List.mem_cons_of_mem _ he)
      rw [List.length_append, List.length_singleton, List.append_assoc,
        List.singleton_append] at hrest
      rw [List.map_cons, scanDependencies_cons, List.zipIdx_cons, List.find?_cons]
      cases dep.passes (data ++ .obj entry :: rest.map .obj) data.length entry with
      | true => simp [takeUrl_eq (hurls entry (by simp)), Except.toOption]
      | false => simpa using hrest

/-- Matching a page of dependencies is exact exactly when, at the first entry that is the
dependency or passes for it, it is the dependency and passes. -/
theorem matchDependenciesPage_iff (dep : Dependency) (page : ResultPage) :
    (matchDependenciesPage dep (some page.body)).adopted =
        (page.entries.find? dep.sameAs).map entryUrl ↔
      Agree (fun e => dep.passes (page.entries.map .obj) e.2 e.1) (fun e => dep.sameAs e.1)
        (fun e => copiedUrl e.1) (fun e => entryUrl e.1) page.entries.zipIdx := by
  have hscan := scanDependencies_eq dep [] page.entries page.urls
  rw [List.length_nil, List.nil_append] at hscan
  rw [matchDependenciesPage, adopted_matchPage, ← find_map_eq_iff, ← hscan, ← find_map_zipIdx]
  rfl

/-- A page with these entries and no further page. -/
def lastPage (entries : List JsonObject)
    (urls : ∀ entry ∈ entries, (jsonObjectGetString (some entry) "url").isSome) : ResultPage where
  body := .arr [.obj [("data", .arr (entries.map .obj)), ("links", .obj [])]]
  obj := [("data", .arr (entries.map .obj)), ("links", .obj [])]
  entries := entries
  carried := rfl
  data := rfl
  urls := urls

/-- A dependency of another name is adopted, and one that leaves out a field is passed over
when an earlier entry had the field. -/
theorem matchDependenciesPage_not_exact :
    (let page := lastPage [[("url", .str "/dependencies/1"), ("name", .str "Windows")]] (by decide)
     let dep : Dependency := { id := 1, name := some "Linux" }
     (matchDependenciesPage dep (some page.body)).adopted ≠
       (page.entries.find? dep.sameAs).map entryUrl) ∧
    (let page := lastPage
       [[("url", .str "/dependencies/1"), ("name", .str "Linux"), ("series", .str "6")],
        [("url", .str "/dependencies/2"), ("name", .str "Linux")]] (by decide)
     let dep : Dependency := { id := 1, name := some "Linux" }
     (matchDependenciesPage dep (some page.body)).adopted ≠
       (page.entries.find? dep.sameAs).map entryUrl) := by
  constructor <;> decide

/-! ## Modules -/

/-- The URLs of a vendor, of its address and of its persons. -/
structure VendorUrls where
  url : Option String := none
  address : Option String := none
  persons : List (Option String) := []
deriving DecidableEq

/-- The loop of {lit}`compare_modules` over the persons of the first vendor. -/
def comparePersons : List (Option String) → List (Option String) → Bool
  | [], _ => true
  | some a :: rest, some b :: rest' => a == b && comparePersons rest rest'
  | _ :: _, _ => false

/-- {lit}`compare_modules`: the vendors are given through their URLs. -/
def compareModules (a : Module) (va : VendorUrls) (b : Module) (vb : VendorUrls) : Bool :=
  if a.type.isNone || a.name.isNone || a.description.isNone || a.version.isNone ||
      va.url.isNone || va.address.isNone then false
  else if b.type.isNone || b.name.isNone || b.description.isNone || b.version.isNone ||
      vb.url.isNone || vb.address.isNone then false
  else a.type == b.type && a.name == b.name && a.version == b.version &&
    a.description == b.description && va.url == vb.url && va.address == vb.address &&
    comparePersons va.persons vb.persons

/-- The scratch module for an entry. -/
def readModule (entry : JsonObject) : Module where
  id := 0
  type := jsonObjectGetString (some entry) "type"
  name := jsonObjectGetString (some entry) "name"
  version := jsonObjectGetString (some entry) "version"
  description := jsonObjectGetString (some entry) "description"

/-- The scratch vendor for the entry at a position of the page: the URL of every person is
read at that position of the contacts. -/
def readVendorUrls (i : Nat) (entry : JsonObject) (contacts : List Json) : VendorUrls where
  url := jsonObjectGetString (some entry) "vendorUrl"
  address := jsonObjectGetString (some entry) "addressUrl"
  persons := contacts.map fun _ => jsonArrayGetString (some contacts) i

/-- The loop of {lit}`match_modules_page` over the entries. -/
def scanModules (module : Module) (vendor : VendorUrls) : Nat → List Json → Hit
  | _, [] => none
  | i, elem :: rest =>
    match jsonValueGetObject (some elem) with
    | none => some (.error .jsonErr)
    | some entry =>
      match jsonObjectGetArray (some entry) "contactUrls" with
      | none => some (.error .jsonErr)
      | some contacts =>
        if contacts.length ≠ vendor.persons.length ∨ libamvpPersonsMax < contacts.length then
          scanModules module vendor (i + 1) rest
        else if compareModules module vendor (readModule entry)
            (readVendorUrls i entry contacts) then
          some (takeUrl entry)
        else
          scanModules module vendor (i + 1) rest

/-- {lit}`match_modules_page`. -/
def matchModulesPage (module : Module) (vendor : VendorUrls) (curlBuf : Option Json) :
    PageVerdict :=
  matchPage (scanModules module vendor 0) "nextPage" curlBuf

/-- A vendor all of whose parts were found on the server. -/
structure VerifiedVendor where
  url : String
  address : String
  persons : List String
  count : persons.length ≤ libamvpPersonsMax

/-- The URLs of a verified vendor. -/
def VerifiedVendor.urls (vendor : VerifiedVendor) : VendorUrls where
  url := some vendor.url
  address := some vendor.address
  persons := vendor.persons.map some

@[simp]
theorem VerifiedVendor.length_urls (vendor : VerifiedVendor) :
    vendor.urls.persons.length = vendor.persons.length := by
  simp [VerifiedVendor.urls]

/-- A page of modules: the contacts of each entry are an array of strings. -/
structure ModulePage extends ResultPage where
  contacts : ∀ entry ∈ entries, ∃ urls : List String,
    jsonObjectGetArray (some entry) "contactUrls" = some (urls.map .str)

/-- The contacts of an entry. -/
def contactUrls (entry : JsonObject) : List (Option String) :=
  (jsonArrayElems (jsonObjectGetArray (some entry) "contactUrls")).map fun elem =>
    jsonValueGetString (some elem)

/-- The texts and URLs of the entry, its contacts aside, are those of the module. -/
def Module.sameTexts (module : Module) (vendor : VerifiedVendor) (entry : JsonObject) : Bool :=
  let other := readModule entry
  module.type.isSome && module.name.isSome && module.version.isSome &&
    module.description.isSome && module.type == other.type && module.name == other.name &&
    module.version == other.version && module.description == other.description &&
    jsonObjectGetString (some entry) "vendorUrl" == some vendor.url &&
    jsonObjectGetString (some entry) "addressUrl" == some vendor.address

/-- The entry is the module, with the persons of its vendor as its contacts. -/
def Module.sameAs (module : Module) (vendor : VerifiedVendor) (entry : JsonObject) : Bool :=
  module.sameTexts vendor entry && contactUrls entry == vendor.persons.map some

/-- The entry at a position of the page passes for the module: its texts are the same, it has
as many contacts as there are persons, and its contact at that position is the URL of each
person. -/
def Module.passes (module : Module) (vendor : VerifiedVendor) (i : Nat) (entry : JsonObject) :
    Bool :=
  module.sameTexts vendor entry && (contactUrls entry).length == vendor.persons.length &&
    vendor.persons.all fun person => (contactUrls entry)[i]?.join == some person

theorem comparePersons_eq (persons : List String) (c : Option String) {n : Nat}
    (hn : n = persons.length) :
    comparePersons (persons.map some) (List.replicate n c) =
      persons.all fun person => c == some person := by
  subst hn
  induction persons with
  | nil => rfl
  | cons person rest ih =>
      cases c with
      | none => rfl
      | some c =>
          rw [List.map_cons, List.length_cons, List.replicate_succ, comparePersons, ih,
            List.all_cons, Bool.beq_comm]
          rfl

/-- The comparison accepts records that are complete and the same. -/
theorem compareModules_iff (a b : Module) (va vb : VendorUrls) :
    compareModules a va b vb = true ↔
      (a.type.isSome ∧ a.name.isSome ∧ a.version.isSome ∧ a.description.isSome ∧
        va.url.isSome ∧ va.address.isSome) ∧
      (a.type = b.type ∧ a.name = b.name ∧ a.version = b.version ∧
        a.description = b.description ∧ va.url = vb.url ∧ va.address = vb.address) ∧
      comparePersons va.persons vb.persons = true := by
  simp only [compareModules, Bool.if_false_left, Bool.and_eq_true, Bool.not_eq_true',
    Bool.or_eq_true, not_or, Bool.not_eq_true, Option.isNone_eq_false_iff, beq_iff_eq,
    decide_eq_false_iff_not]
  constructor
  · rintro ⟨⟨⟨⟨⟨⟨htype, hname⟩, hdescription⟩, hversion⟩, hurl⟩, haddress⟩, -,
      ⟨⟨⟨⟨⟨htype', hname'⟩, hversion'⟩, hdescription'⟩, hurl'⟩, haddress'⟩, hpersons⟩
    exact ⟨⟨htype, hname, hversion, hdescription, hurl, haddress⟩,
      ⟨htype', hname', hversion', hdescription', hurl', haddress'⟩, hpersons⟩
  · rintro ⟨⟨htype, hname, hversion, hdescription, hurl, haddress⟩,
      ⟨htype', hname', hversion', hdescription', hurl', haddress'⟩, hpersons⟩
    refine ⟨⟨⟨⟨⟨⟨htype, hname⟩, hdescription⟩, hversion⟩, hurl⟩, haddress⟩, ?_,
      ⟨⟨⟨⟨⟨htype', hname'⟩, hversion'⟩, hdescription'⟩, hurl'⟩, haddress'⟩, hpersons⟩
    rw [← htype', ← hname', ← hversion', ← hdescription', ← hurl', ← haddress']
    exact ⟨⟨⟨⟨⟨htype, hname⟩, hdescription⟩, hversion⟩, hurl⟩, haddress⟩

/-- The comparison accepts the scratch records of an entry when the entry passes. -/
theorem compareModules_eq (module : Module) (vendor : VerifiedVendor) (i : Nat)
    (entry : JsonObject) {contacts : List Json}
    (hcontacts : jsonObjectGetArray (some entry) "contactUrls" = some contacts)
    (hlength : contacts.length = vendor.persons.length) :
    compareModules module vendor.urls (readModule entry) (readVendorUrls i entry contacts) =
      module.passes vendor i entry := by
  have hurls : contactUrls entry = contacts.map fun elem => jsonValueGetString (some elem) := by
    rw [contactUrls, hcontacts]
    rfl
  have hat : (contactUrls entry)[i]?.join = jsonArrayGetString (some contacts) i := by
    rw [hurls, List.getElem?_map, jsonArrayGetString, jsonArrayGetValue, Option.bind_some]
    cases contacts[i]? <;> rfl
  have hpersons : (readVendorUrls i entry contacts).persons =
      List.replicate contacts.length (jsonArrayGetString (some contacts) i) := by
    rw [readVendorUrls, List.map_const']
  have hall : comparePersons vendor.urls.persons (readVendorUrls i entry contacts).persons =
      vendor.persons.all fun person => (contactUrls entry)[i]?.join == some person := by
    rw [hpersons, hat]
    exact comparePersons_eq vendor.persons _ hlength
  have hcount : ((contactUrls entry).length == vendor.persons.length) = true := by
    simp [hurls, hlength]
  rw [Bool.eq_iff_iff, compareModules_iff, hall, Module.passes, hcount, Module.sameTexts]
  simp only [VerifiedVendor.urls, readVendorUrls, Bool.and_eq_true, beq_iff_eq,
    Option.isSome_some, and_true, eq_comm (a := some vendor.url),
    eq_comm (a := some vendor.address)]
  tauto

/-- The loop goes on behind an entry that does not pass, and ends with one that does. -/
theorem scanModules_cons (module : Module) (vendor : VerifiedVendor) (i : Nat)
    (entry : JsonObject) (rest : List Json) {contacts : List Json}
    (hcontacts : jsonObjectGetArray (some entry) "contactUrls" = some contacts) :
    scanModules module vendor.urls i (.obj entry :: rest) =
      if module.passes vendor i entry then some (takeUrl entry)
      else scanModules module vendor.urls (i + 1) rest := by
  have hcount := vendor.count
  rw [scanModules]
  simp only [jsonValueGetObject, hcontacts, VerifiedVendor.length_urls]
  by_cases hsame : contacts.length = vendor.persons.length
  · rw [if_neg (by omega), compareModules_eq module vendor i entry hcontacts hsame]
  · have hpasses : module.passes vendor i entry = false := by
      simp [Module.passes, contactUrls, hcontacts, jsonArrayElems, hsame]
    rw [if_pos (Or.inl hsame), hpasses]
    rfl

/-- The loop takes the first entry that passes at its position. -/
theorem scanModules_eq (module : Module) (vendor : VerifiedVendor) (i : Nat)
    (entries : List JsonObject)
    (hurls : ∀ entry ∈ entries, (jsonObjectGetString (some entry) "url").isSome)
    (hcontacts : ∀ entry ∈ entries, ∃ urls : List String,
      jsonObjectGetArray (some entry) "contactUrls" = some (urls.map .str)) :
    (scanModules module vendor.urls i (entries.map .obj)).bind Except.toOption =
      ((entries.zipIdx i).find? fun e => module.passes vendor e.2 e.1).map
        fun e => copiedUrl e.1 := by
  induction entries generalizing i with
  | nil => rfl
  | cons entry rest ih =>
      have hrest := ih (i + 1) (fun e he => hurls e (List.mem_cons_of_mem _ he))
        fun e he => hcontacts e (List.mem_cons_of_mem _ he)
      obtain ⟨urls, hentry⟩ := hcontacts entry (by simp)
      rw [List.map_cons, scanModules_cons module vendor i entry _ hentry, List.zipIdx_cons,
        List.find?_cons]
      cases module.passes vendor i entry with
      | true => simp [takeUrl_eq (hurls entry (by simp)), Except.toOption]
      | false => simpa using hrest

/-- Matching a page of modules is exact exactly when, at the first entry that is the module
or passes for it, it is the module and passes. -/
theorem matchModulesPage_iff (module : Module) (vendor : VerifiedVendor) (page : ModulePage) :
    (matchModulesPage module vendor.urls (some page.body)).adopted =
        (page.entries.find? (module.sameAs vendor)).map entryUrl ↔
      Agree (fun e => module.passes vendor e.2 e.1) (fun e => module.sameAs vendor e.1)
        (fun e => copiedUrl e.1) (fun e => entryUrl e.1) page.entries.zipIdx := by
  rw [matchModulesPage, adopted_matchPage,
    scanModules_eq module vendor 0 _ page.urls page.contacts, ← find_map_eq_iff,
    ← find_map_zipIdx]

/-- A vendor with two persons. -/
def twoPersons : VerifiedVendor where
  url := "/vendors/1"
  address := "/vendors/1/addresses/1"
  persons := ["/persons/1", "/persons/2"]
  count := by decide

/-- The page whose only entry is the module of a vendor with two persons. -/
def twoContacts : ModulePage where
  toResultPage := lastPage
    [[("url", .str "/modules/1"), ("type", .str "software"), ("name", .str "libamvp"),
      ("version", .str "1"), ("description", .str "library"),
      ("vendorUrl", .str "/vendors/1"), ("addressUrl", .str "/vendors/1/addresses/1"),
      ("contactUrls", .arr [.str "/persons/1", .str "/persons/2"])]] (by decide)
  contacts := by
    intro entry hentry
    rw [List.mem_singleton.mp hentry]
    exact ⟨["/persons/1", "/persons/2"], rfl⟩

/-- A module whose vendor has two persons is passed over. -/
theorem matchModulesPage_not_exact :
    let m : Module :=
      { id := 1, type := some "software", name := some "libamvp", version := some "1",
        description := some "library" }
    (matchModulesPage m twoPersons.urls (some twoContacts.body)).adopted ≠
      (twoContacts.entries.find? (m.sameAs twoPersons)).map entryUrl := by
  decide

end LibAmvp
