import LibAmvp.Capabilities.KdfRegistration
import LibAmvp.Lib.Guard

/-!
# The schemes of KTS-IFC

The functions that set up the schemes of KTS-IFC, and the registration that is built from them.
The search for a scheme leaves its loop after one step, so that it knows the first two entries
only, and the registration has room for one scheme.

Main results:

- Theorem {lit}`KtsIfcCall.lands_iff`: when does a call work on the scheme it names?
- Theorem {lit}`registers_iff`: when does the registration describe every scheme?
- Theorem {lit}`ktsIfc_schemes_iff`: both, and what follows for a number of calls.
-/

namespace LibAmvp

open Keyed

/-! ## The registration -/

/-- The names of the values of a list, which all have to be known. -/
def namesArray (name : Int → Option String) (values : List Int) : Except AmvpResult Json :=
  match values.mapM name with
  | some names => .ok (.arr (names.map .str))
  | none => .error .invalidArg

/-- The names of {lit}`AMVP_KTS_IFC_KEYGEN`. -/
def ktsIfcKeygenName (value : Int) : Option String :=
  if value = 1 then some "rsakpg1-basic"
  else if value = 2 then some "rsakpg1-prime-factor"
  else if value = 3 then some "rsakpg1-crt"
  else if value = 4 then some "rsakpg2-basic"
  else if value = 5 then some "rsakpg2-prime-factor"
  else if value = 6 then some "rsakpg2-crt"
  else none

/-- The names of {lit}`AMVP_KTS_IFC_KEYPAIR_GEN` and {lit}`AMVP_KTS_IFC_PARTIAL_VAL`. -/
def ktsIfcFunctionName (value : Int) : Option String :=
  if value = 6 then some "keyPairGen"
  else if value = 7 then some "partialVal"
  else none

/-- The names of {lit}`AMVP_KTS_IFC_ROLES`. -/
def ktsIfcRoleName (value : Int) : Option String :=
  if value = 1 then some "initiator"
  else if value = 2 then some "responder"
  else none

/-- A list of names that is only there when it is not empty. -/
def setNames (obj : JsonObject) (key : String) (name : Int → Option String) (values : List Int) :
    Except AmvpResult JsonObject :=
  if values = [] then pure obj
  else do
    let names ← namesArray name values
    pure (jsonObjectSetValue obj key names)

/-- The object under {lit}`ktsMethod`. -/
def ktsIfcMethodObject (s : KtsIfcScheme) : Except AmvpResult JsonObject := do
  let obj ← setNames [] "hashAlgs" lookupHashAlgName s.hash
  let obj := jsonObjectSetBoolean obj "supportsNullAssociatedData" s.nullAssocData
  let obj := jsonObjectSetString obj "associatedDataPattern" s.assocDataPattern
  pure (jsonObjectSetValue obj "encoding" (.arr (jsonArrayOfStrings s.encodings.toList)))

/-- The description of a scheme. -/
def ktsIfcSchemeObject (s : KtsIfcScheme) : Except AmvpResult JsonObject := do
  let obj := jsonObjectSetValue [] "l" (.num s.l)
  let obj ← setNames obj "kasRole" ktsIfcRoleName s.roles
  let method ← ktsIfcMethodObject s
  pure (jsonObjectSetValue obj "ktsMethod" (.obj method))

/-- The loop over the schemes.  Each description goes under the same name. -/
def addKtsIfcSchemes (schObj : JsonObject) : List KtsIfcScheme → Except AmvpResult JsonObject
  | [] => pure schObj
  | s :: rest => do
    let guts ← ktsIfcSchemeObject s
    addKtsIfcSchemes (jsonObjectSetValue schObj "KTS-OAEP-basic" (.obj guts)) rest

/-- The name, the revision and the prerequisites, which are only there when there is a
prerequisite. -/
def ktsIfcHead (capObj : JsonObject) (entry : CapsEntry) : Except AmvpResult JsonObject :=
  if entry.prereqVals = [] then pure capObj
  else
    let obj := jsonObjectSetText capObj "algorithm" (lookupCipherName entry.cipher)
    match lookupCipherRevision entry.cipher with
    | none => .error .invalidArg
    | some revision =>
      pure (lookupPrereqVals (jsonObjectSetText obj "revision" (some revision)) entry)

/-- {lit}`amvp_build_kts_ifc_register_cap`. -/
def buildKtsIfcRegisterCap (capObj : JsonObject) (entry : CapsEntry) (cap : KtsIfcCap) :
    Except AmvpResult JsonObject := do
  let obj ← ktsIfcHead capObj entry
  let obj := jsonObjectSetString obj "fixedPubExp" cap.fixedPubExp
  let obj := jsonObjectSetString obj "iutId" cap.iutId
  let obj := jsonObjectSetValue obj "modulo" (.arr (cap.modulo.map fun n : Int => .num n))
  let methods ← namesArray ktsIfcKeygenName cap.keygenMethod
  let obj := jsonObjectSetValue obj "keyGenerationMethods" methods
  let functions ← namesArray ktsIfcFunctionName cap.functions
  let obj := jsonObjectSetValue obj "function" functions
  if cap.schemes = [] then .error .noCap
  else do
    let schObj ← addKtsIfcSchemes [] cap.schemes
    pure (jsonObjectSetValue obj "scheme" (.obj schObj))

/-! ## What a registration has to say -/

/-- An object, and the one under {lit}`ktsMethod`, describe a scheme: its roles, its hash
functions and its other data. -/
structure KtsIfcScheme.Describes (s : KtsIfcScheme) (guts method : JsonObject) : Prop where
  l : jsonObjectGetValue (some guts) "l" = some (.num s.l)
  roles : s.roles.mapM ktsIfcRoleName =
    some (jsonStrings (jsonObjectGetArray (some guts) "kasRole"))
  ktsMethod : jsonObjectGetObject (some guts) "ktsMethod" = some method
  hash : s.hash.mapM lookupHashAlgName =
    some (jsonStrings (jsonObjectGetArray (some method) "hashAlgs"))
  nullAssocData : jsonObjectGetValue (some method) "supportsNullAssociatedData" =
    some (.bool (s.nullAssocData ≠ 0))
  pattern : jsonObjectGetString (some method) "associatedDataPattern" = s.assocDataPattern
  encoding : jsonObjectGetArray (some method) "encoding" = some (s.encodings.toList.map .str)

/-- A value describes a scheme. -/
def KtsIfcScheme.DescribedBy (s : KtsIfcScheme) (v : Json) : Prop :=
  ∃ guts method, v = .obj guts ∧ s.Describes guts method

/-- An object has one description for each scheme, in their order. -/
def KtsIfcCap.RegisteredBy (cap : KtsIfcCap) (obj : JsonObject) : Prop :=
  ∃ descriptions, jsonObjectGetObject (some obj) "scheme" = some descriptions ∧
    List.Forall₂ KtsIfcScheme.DescribedBy cap.schemes (descriptions.map Prod.snd)

/-- The strings of a scheme are taken over by parson. -/
def KtsIfcScheme.Writable (s : KtsIfcScheme) : Prop :=
  (∀ pattern ∈ s.assocDataPattern, IsText pattern) ∧ ∀ encoding ∈ s.encodings, IsText encoding

/-- Every value of a scheme has a name. -/
def KtsIfcScheme.Known (s : KtsIfcScheme) : Prop :=
  (∀ role ∈ s.roles, (ktsIfcRoleName role).isSome) ∧
    ∀ hash ∈ s.hash, (lookupHashAlgName hash).isSome

/-- Every value of a capability has a name. -/
structure KtsIfcCap.Known (cap : KtsIfcCap) : Prop where
  keygenMethod : ∀ method ∈ cap.keygenMethod, (ktsIfcKeygenName method).isSome
  functions : ∀ function ∈ cap.functions, (ktsIfcFunctionName function).isSome
  schemes : ∀ s ∈ cap.schemes, s.Known

/-! ## What the builder registers -/

theorem mapM_isSome_iff {α β : Type} {f : α → Option β} {l : List α} :
    (∃ names, l.mapM f = some names) ↔ ∀ x ∈ l, (f x).isSome := by
  induction l with
  | nil => simp
  | cons x rest ih =>
      cases hx : f x with
      | none => simp [List.mapM_cons, hx]
      | some y =>
          rw [List.forall_mem_cons, ← ih]
          cases hrest : rest.mapM f <;> simp [List.mapM_cons, hx, hrest]

theorem namesArray_eq_ok {name : Int → Option String} {values : List Int} {v : Json} :
    namesArray name values = .ok v ↔
      ∃ names, values.mapM name = some names ∧ v = .arr (names.map .str) := by
  unfold namesArray
  cases values.mapM name <;> simp [eq_comm]

/-- A list of names that was set, and the members beside it. -/
theorem setNames_eq_ok {obj obj' : JsonObject} {key : String} {name : Int → Option String}
    {values : List Int} (h : setNames obj key name values = .ok obj')
    (hkey : jsonObjectGetValue (some obj) key = none) :
    values.mapM name = some (jsonStrings (jsonObjectGetArray (some obj') key)) ∧
      ∀ other ≠ key, jsonObjectGetValue (some obj') other = jsonObjectGetValue (some obj) other := by
  unfold setNames at h
  split at h
  · rename_i hvalues
    cases h
    refine ⟨?_, fun _ _ => rfl⟩
    simp [hvalues, jsonObjectGetArray, hkey, jsonValueGetArray, jsonStrings, jsonArrayElems]
  · obtain ⟨names, hnames, hobj⟩ := Guard.bind_eq_ok.mp h
    obtain ⟨strings, hstrings, rfl⟩ := namesArray_eq_ok.mp hnames
    cases hobj
    refine ⟨?_, fun other hother => jsonObjectGetValue_set_of_ne obj _ hother⟩
    simp [hstrings, jsonObjectGetArray, jsonValueGetArray]

theorem setNames_isOk_iff {obj : JsonObject} {key : String} {name : Int → Option String}
    {values : List Int} :
    (∃ obj', setNames obj key name values = .ok obj') ↔ ∀ v ∈ values, (name v).isSome := by
  rw [← mapM_isSome_iff]
  unfold setNames
  split
  · rename_i hvalues
    simp [hvalues, pure, Except.pure]
  · unfold namesArray
    cases values.mapM name <;> simp [bind, Except.bind, pure, Except.pure]

/-- What the builder puts under {lit}`ktsMethod`. -/
theorem ktsIfcMethodObject_eq_ok {s : KtsIfcScheme} {method : JsonObject}
    (h : ktsIfcMethodObject s = .ok method) :
    s.hash.mapM lookupHashAlgName =
        some (jsonStrings (jsonObjectGetArray (some method) "hashAlgs")) ∧
      jsonObjectGetValue (some method) "supportsNullAssociatedData" =
        some (.bool (s.nullAssocData ≠ 0)) ∧
      jsonObjectGetString (some method) "associatedDataPattern" = takenOver s.assocDataPattern ∧
      jsonObjectGetArray (some method) "encoding" =
        some (jsonArrayOfStrings s.encodings.toList) := by
  obtain ⟨algs, halgs, h⟩ := Guard.bind_eq_ok.mp h
  cases h
  obtain ⟨hhash, hnone⟩ := setNames_eq_ok halgs rfl
  refine ⟨?_, ?_, ?_, ?_⟩
  · rw [hhash, jsonObjectGetArray, jsonObjectGetArray,
      jsonObjectGetValue_set_of_ne _ _ (by decide),
      jsonObjectGetValue_setString_of_ne _ _ (by decide), jsonObjectSetBoolean,
      jsonObjectGetValue_set_of_ne _ _ (by decide)]
  · rw [jsonObjectGetValue_set_of_ne _ _ (by decide),
      jsonObjectGetValue_setString_of_ne _ _ (by decide), jsonObjectSetBoolean,
      jsonObjectGetValue_set]
  · rw [jsonObjectGetString, jsonObjectGetValue_set_of_ne _ _ (by decide)]
    refine jsonObjectGetString_setString ?_ s.assocDataPattern
    rw [jsonObjectSetBoolean, jsonObjectGetValue_set_of_ne _ _ (by decide), hnone _ (by decide)]
    rfl
  · rw [jsonObjectGetArray, jsonObjectGetValue_set]
    rfl

/-- The builder describes a scheme when its strings are taken over. -/
theorem ktsIfcSchemeObject_describes_iff {s : KtsIfcScheme} {guts : JsonObject}
    (h : ktsIfcSchemeObject s = .ok guts) : s.DescribedBy (.obj guts) ↔ s.Writable := by
  obtain ⟨obj, hobj, h⟩ := Guard.bind_eq_ok.mp h
  obtain ⟨method, hmethod, h⟩ := Guard.bind_eq_ok.mp h
  cases h
  obtain ⟨hroles, hrest⟩ := setNames_eq_ok hobj (by simp [jsonObjectSetValue, jsonObjectGetValue])
  obtain ⟨hhash, hnull, hpattern, hencoding⟩ := ktsIfcMethodObject_eq_ok hmethod
  have hmethodGet : jsonObjectGetObject (some (jsonObjectSetValue obj "ktsMethod" (.obj method)))
      "ktsMethod" = some method := by
    rw [jsonObjectGetObject, jsonObjectGetValue_set]
    rfl
  constructor
  · rintro ⟨_, method', hguts, hdescribes⟩
    obtain rfl := Json.obj.inj hguts
    obtain rfl : method = method' :=
      Option.some.inj (hmethodGet.symm.trans hdescribes.ktsMethod)
    constructor
    · exact takenOver_eq_self_iff.mp (hpattern.symm.trans hdescribes.pattern)
    · have hstrings := Option.some.inj (hencoding.symm.trans hdescribes.encoding)
      simpa using jsonArrayOfStrings_eq_iff.mp hstrings
  · rintro ⟨hpatternText, hencodingText⟩
    rw [takenOver_eq_self_iff.mpr hpatternText] at hpattern
    rw [jsonArrayOfStrings_eq_iff.mpr (by simpa using hencodingText)] at hencoding
    refine ⟨_, method, rfl, ?_, ?_, hmethodGet, hhash, hnull, hpattern, hencoding⟩
    · rw [jsonObjectGetValue_set_of_ne _ _ (by decide), hrest _ (by decide),
        jsonObjectGetValue_set]
    · rw [hroles, jsonObjectGetArray, jsonObjectGetArray,
        jsonObjectGetValue_set_of_ne _ _ (by decide)]

theorem ktsIfcSchemeObject_isOk_iff {s : KtsIfcScheme} :
    (∃ guts, ktsIfcSchemeObject s = .ok guts) ↔ s.Known := by
  constructor
  · rintro ⟨guts, h⟩
    obtain ⟨obj, hobj, h⟩ := Guard.bind_eq_ok.mp h
    obtain ⟨method, hmethod, -⟩ := Guard.bind_eq_ok.mp h
    obtain ⟨algs, halgs, -⟩ := Guard.bind_eq_ok.mp hmethod
    exact ⟨setNames_isOk_iff.mp ⟨obj, hobj⟩, setNames_isOk_iff.mp ⟨algs, halgs⟩⟩
  · rintro ⟨hroles, hhash⟩
    obtain ⟨obj, hobj⟩ := setNames_isOk_iff.mpr hroles
    obtain ⟨algs, halgs⟩ := setNames_isOk_iff.mpr hhash
    exact ⟨_, Guard.bind_eq_ok.mpr ⟨obj, hobj, Guard.bind_eq_ok.mpr
      ⟨_, Guard.bind_eq_ok.mpr ⟨algs, halgs, rfl⟩, rfl⟩⟩⟩

/-- The loop over the schemes leaves the description of the last one. -/
theorem addKtsIfcSchemes_cons {s : KtsIfcScheme} {rest : List KtsIfcScheme} {v : Json}
    {schObj : JsonObject}
    (h : addKtsIfcSchemes [("KTS-OAEP-basic", v)] (s :: rest) = .ok schObj) :
    ∃ w, schObj = [("KTS-OAEP-basic", w)] := by
  induction rest generalizing s v with
  | nil =>
      obtain ⟨guts, -, h⟩ := Guard.bind_eq_ok.mp h
      cases h
      exact ⟨.obj guts, by simp [jsonObjectSetValue]⟩
  | cons s' rest ih =>
      obtain ⟨guts, -, h⟩ := Guard.bind_eq_ok.mp h
      exact ih (by simpa [jsonObjectSetValue] using h)

theorem addKtsIfcSchemes_isOk_iff {schemes : List KtsIfcScheme} (schObj : JsonObject) :
    (∃ out, addKtsIfcSchemes schObj schemes = .ok out) ↔ ∀ s ∈ schemes, s.Known := by
  induction schemes generalizing schObj with
  | nil => simp [addKtsIfcSchemes, pure, Except.pure]
  | cons s rest ih =>
      rw [List.forall_mem_cons, ← ktsIfcSchemeObject_isOk_iff]
      constructor
      · rintro ⟨out, h⟩
        obtain ⟨guts, hguts, h⟩ := Guard.bind_eq_ok.mp h
        exact ⟨⟨guts, hguts⟩, (ih _).mp ⟨out, h⟩⟩
      · rintro ⟨⟨guts, hguts⟩, hrest⟩
        obtain ⟨out, hout⟩ := (ih _).mpr hrest
        exact ⟨out, Guard.bind_eq_ok.mpr ⟨guts, hguts, hout⟩⟩

/-- What a successful registration has gone through. -/
theorem buildKtsIfcRegisterCap_eq_ok {capObj obj : JsonObject} {entry : CapsEntry} {cap : KtsIfcCap}
    (h : buildKtsIfcRegisterCap capObj entry cap = .ok obj) :
    cap.Known ∧ cap.schemes ≠ [] ∧ ∃ schObj, addKtsIfcSchemes [] cap.schemes = .ok schObj ∧
      jsonObjectGetObject (some obj) "scheme" = some schObj := by
  obtain ⟨head, -, h⟩ := Guard.bind_eq_ok.mp h
  obtain ⟨methods, hmethods, h⟩ := Guard.bind_eq_ok.mp h
  obtain ⟨functions, hfunctions, h⟩ := Guard.bind_eq_ok.mp h
  obtain ⟨methodNames, hmethodNames, -⟩ := namesArray_eq_ok.mp hmethods
  obtain ⟨functionNames, hfunctionNames, -⟩ := namesArray_eq_ok.mp hfunctions
  split at h
  · cases h
  · rename_i hschemes
    obtain ⟨schObj, hschObj, h⟩ := Guard.bind_eq_ok.mp h
    cases h
    refine ⟨⟨mapM_isSome_iff.mp ⟨methodNames, hmethodNames⟩,
      mapM_isSome_iff.mp ⟨functionNames, hfunctionNames⟩,
      (addKtsIfcSchemes_isOk_iff []).mp ⟨schObj, hschObj⟩⟩, hschemes, schObj, hschObj, ?_⟩
    simp [jsonObjectGetObject, jsonValueGetObject]

/-- A capability with known values and a scheme is registered. -/
theorem buildKtsIfcRegisterCap_isOk (capObj : JsonObject) {entry : CapsEntry}
    {cap : KtsIfcCap} (hcipher : entry.cipher = .ktsIfc) (hknown : cap.Known)
    (hschemes : cap.schemes ≠ []) :
    ∃ obj, buildKtsIfcRegisterCap capObj entry cap = .ok obj := by
  have hhead : ∃ head, ktsIfcHead capObj entry = .ok head := by
    unfold ktsIfcHead
    rw [hcipher]
    split
    · exact ⟨_, rfl⟩
    · exact ⟨_, rfl⟩
  obtain ⟨head, hhead⟩ := hhead
  obtain ⟨methodNames, hmethods⟩ := mapM_isSome_iff.mpr hknown.keygenMethod
  obtain ⟨functionNames, hfunctions⟩ := mapM_isSome_iff.mpr hknown.functions
  obtain ⟨schObj, hschObj⟩ := (addKtsIfcSchemes_isOk_iff []).mpr hknown.schemes
  have hmethods := namesArray_eq_ok.mpr ⟨methodNames, hmethods, rfl⟩
  have hfunctions := namesArray_eq_ok.mpr ⟨functionNames, hfunctions, rfl⟩
  simp only [buildKtsIfcRegisterCap, hhead, hmethods, hfunctions, hschObj, Guard.ok_bind,
    if_neg hschemes]
  exact ⟨_, rfl⟩

/-- A registration of one scheme describes it when its strings are taken over. -/
theorem registeredBy_one_iff {capObj obj : JsonObject} {entry : CapsEntry} {cap : KtsIfcCap}
    {s : KtsIfcScheme} (hschemes : cap.schemes = [s])
    (h : buildKtsIfcRegisterCap capObj entry cap = .ok obj) :
    cap.RegisteredBy obj ↔ s.Writable := by
  obtain ⟨-, -, schObj, hschObj, hget⟩ := buildKtsIfcRegisterCap_eq_ok h
  rw [hschemes] at hschObj
  obtain ⟨guts, hguts, hrest⟩ := Guard.bind_eq_ok.mp hschObj
  cases hrest
  rw [← ktsIfcSchemeObject_describes_iff hguts, KtsIfcCap.RegisteredBy, hschemes]
  constructor
  · rintro ⟨descriptions, hdescriptions, hall⟩
    cases hget.symm.trans hdescriptions
    exact (List.forall₂_cons.mp hall).1
  · exact fun hdescribed => ⟨_, hget, .cons hdescribed .nil⟩

/-- A registration of several schemes has only one description. -/
theorem not_registeredBy {capObj obj : JsonObject} {entry : CapsEntry} {cap : KtsIfcCap}
    (hlength : 1 < cap.schemes.length) (h : buildKtsIfcRegisterCap capObj entry cap = .ok obj) :
    ¬cap.RegisteredBy obj := by
  obtain ⟨-, -, schObj, hschObj, hget⟩ := buildKtsIfcRegisterCap_eq_ok h
  rintro ⟨descriptions, hdescriptions, hall⟩
  obtain rfl : schObj = descriptions := Option.some.inj (hget.symm.trans hdescriptions)
  have hone : schObj.length = 1 := by
    cases hschemes : cap.schemes with
    | nil => simp [hschemes] at hlength
    | cons s rest =>
        rw [hschemes] at hschObj
        obtain ⟨guts, -, hrest⟩ := Guard.bind_eq_ok.mp hschObj
        cases rest with
        | nil =>
            cases hrest
            rfl
        | cons s' rest =>
            obtain ⟨w, rfl⟩ := addKtsIfcSchemes_cons (by simpa [jsonObjectSetValue] using hrest)
            rfl
  have hlengths := hall.length_eq
  rw [List.length_map, hone] at hlengths
  omega

/-- Every scheme is described just when there is at most one, whose strings are taken over, or
the registration fails. -/
theorem registers_iff {entry : CapsEntry} (hcipher : entry.cipher = .ktsIfc) (cap : KtsIfcCap) :
    (∀ obj, buildKtsIfcRegisterCap [] entry cap = .ok obj → cap.RegisteredBy obj) ↔
      (cap.schemes.length ≤ 1 ∧ ∀ s ∈ cap.schemes, s.Writable) ∨ ¬ cap.Known := by
  constructor
  · intro h
    by_contra hnot
    obtain ⟨hlong, hknown⟩ := not_or.mp hnot
    rw [not_not] at hknown
    refine hlong ?_
    cases hschemes : cap.schemes with
    | nil => simp
    | cons s rest =>
        obtain ⟨obj, hobj⟩ := buildKtsIfcRegisterCap_isOk [] hcipher hknown (by simp [hschemes])
        cases rest with
        | nil => simpa using (registeredBy_one_iff hschemes hobj).mp (h obj hobj)
        | cons s' rest => exact absurd (h obj hobj) (not_registeredBy (by simp [hschemes]) hobj)
  · rintro hcases obj hobj
    obtain ⟨hknown, hne, -⟩ := buildKtsIfcRegisterCap_eq_ok hobj
    obtain ⟨hlength, hwritable⟩ := hcases.resolve_right (not_not.mpr hknown)
    obtain ⟨s, hschemes⟩ : ∃ s, cap.schemes = [s] :=
      List.length_eq_one_iff.mp (by have := List.length_pos_of_ne_nil hne; omega)
    exact (registeredBy_one_iff hschemes hobj).mpr (hwritable s (by simp [hschemes]))

/-! ## What a call for a scheme does -/

/-- The schemes that are registered for a cipher. -/
def Caps.ktsIfcSchemes (s : Caps) (cipher : Cipher) : List KtsIfcScheme :=
  ((s.content cipher .ktsIfcCap).map KtsIfcCap.schemes).getD []

/-- A list of schemes where an entry for one of them may have changed. -/
def ChangedAt (scheme : Int) (l l' : List KtsIfcScheme) : Prop :=
  List.Forall₂ (fun e e' => e'.scheme = e.scheme ∧ (e.scheme ≠ scheme → e' = e)) l l'

/-- A call has changed an entry for its scheme at most, and says that there is no capability
just when the scheme has no entry. -/
structure LandsOn (cipher : Cipher) (scheme : Int) (s : Caps) (rv : AmvpResult) (s' : Caps) :
    Prop where
  noCap : rv = .noCap ↔ ∀ e ∈ s.ktsIfcSchemes cipher, e.scheme ≠ scheme
  schemes : ChangedAt scheme (s.ktsIfcSchemes cipher) (s'.ktsIfcSchemes cipher)
  rest : (s'.content cipher .ktsIfcCap).map (fun cap => { cap with schemes := [] }) =
    (s.content cipher .ktsIfcCap).map (fun cap => { cap with schemes := [] })
  others : ∀ other ≠ cipher, s'.locate other = s.locate other

/-- The search finds the scheme, or nothing where there is none, or it does no harm. -/
def Findable (scheme : Int) (harmless : KtsIfcScheme → Prop) (l : List KtsIfcScheme) : Prop :=
  l.length ≤ 1 ∨ (∃ e ∈ l.take 2, e.scheme = scheme) ∨
    (∃ e ∈ l, e.scheme = scheme) ∧ ∃ second, l[1]? = some second ∧ harmless second

/-- The parameter of a scheme has the value already, or is none that can be set. -/
def KtsIfcSchemeParam.HasValue (param : KtsIfcSchemeParam) (value : Int) (e : KtsIfcScheme) :
    Prop :=
  match param with
  | .nullAssocData => e.nullAssocData = value
  | .l => e.l = value
  | .role | .hash => False
  | _ => True

/-- The same for a parameter that is a string. -/
def KtsIfcSchemeParam.HasString (param : KtsIfcSchemeParam) (value : Option String)
    (e : KtsIfcScheme) : Prop :=
  match param with
  | .adPattern => e.assocDataPattern = some (value.getD "")
  | .encoding => e.encodings = some (value.getD "")
  | _ => True

/-- The calls that set up KTS-IFC. -/
inductive KtsIfcCall where
  | setParm (param : KtsIfcParam) (value : Int)
  | setSchemeParm (scheme : Int) (param : KtsIfcSchemeParam) (value : Int)
  | setSchemeString (scheme : Int) (param : KtsIfcSchemeParam) (value : Option String)

namespace KtsIfcCall

/-- The call for a cipher. -/
def call (cipher : Cipher) : KtsIfcCall → CapCall
  | setParm param value => .ktsIfcSetParm cipher param value
  | setSchemeParm scheme param value => .ktsIfcSetSchemeParm cipher scheme param value
  | setSchemeString scheme param value => .ktsIfcSetSchemeString cipher scheme param value

/-- A call for a scheme lands on the scheme it names. -/
def Lands (cipher : Cipher) (s : Caps) (rv : AmvpResult) (s' : Caps) : KtsIfcCall → Prop
  | setParm _ _ => True
  | setSchemeParm scheme _ _ | setSchemeString scheme _ _ => LandsOn cipher scheme s rv s'

/-- The condition for that on the schemes the call meets. -/
def Meets (l : List KtsIfcScheme) : KtsIfcCall → Prop
  | setParm _ _ => True
  | setSchemeParm scheme param value => Findable scheme (param.HasValue value) l
  | setSchemeString scheme param value =>
    if (value.getD "").length > capabilityStrMax then ∃ e ∈ l, e.scheme = scheme
    else Findable scheme (param.HasString value) l

end KtsIfcCall

theorem changedAt_refl (scheme : Int) (l : List KtsIfcScheme) : ChangedAt scheme l l :=
  List.forall₂_same.mpr fun _ _ => ⟨rfl, fun _ => rfl⟩

/-- The search, and an operation on the entry it picks. -/
theorem atPickedScheme_lands_iff {scheme : Int} {op : Setter KtsIfcScheme}
    {f : KtsIfcScheme → KtsIfcScheme} {result : KtsIfcScheme → AmvpResult}
    (hop : ∀ e, op e = .ok (result e, f e)) (hresult : ∀ e, result e ≠ .noCap)
    (hf : ∀ e, (f e).scheme = e.scheme) (l : List KtsIfcScheme) :
    ∃ rv l', atPickedScheme scheme op l = .ok (rv, l') ∧
      (((rv = .noCap ↔ ∀ e ∈ l, e.scheme ≠ scheme) ∧ ChangedAt scheme l l') ↔
        Findable scheme (fun e => f e = e) l) := by
  match l with
  | [] => exact ⟨.noCap, [], rfl, iff_of_true ⟨by simp, .nil⟩ (.inl (by simp))⟩
  | first :: rest =>
      by_cases hfirst : first.scheme = scheme
      · refine ⟨result first, f first :: rest, ?_, iff_of_true ⟨?_, ?_⟩ ?_⟩
        · simp [atPickedScheme, hfirst, hop, Except.map]
        · simp [hresult, hfirst]
        · exact .cons ⟨hf first, fun hne => absurd hfirst hne⟩ (changedAt_refl scheme rest)
        · exact .inr (.inl ⟨first, by simp, hfirst⟩)
      match rest with
      | [] =>
          refine ⟨.noCap, [first], by simp [atPickedScheme, hfirst], iff_of_true ⟨?_, ?_⟩ ?_⟩
          · simp [hfirst]
          · exact changedAt_refl scheme [first]
          · exact .inl (by simp)
      | second :: rest =>
          refine ⟨result second, first :: f second :: rest, ?_, ?_⟩
          · simp [atPickedScheme, hfirst, hop, Except.map]
          have hchanged : ChangedAt scheme (first :: second :: rest) (first :: f second :: rest) ↔
              (second.scheme ≠ scheme → f second = second) := by
            constructor
            · rintro (_ | ⟨-, _ | ⟨hsecond, -⟩⟩)
              exact hsecond.2
            · intro h
              exact .cons ⟨rfl, fun _ => rfl⟩ (.cons ⟨hf second, h⟩ (changedAt_refl scheme rest))
          rw [hchanged, Findable]
          by_cases hsecond : second.scheme = scheme
          · simp [hresult, hsecond]
          · simp [hresult, hsecond, hfirst]

/-- A call that has its arguments accepted, on the content of an entry. -/
theorem ktsIfcAtScheme_lands_iff {cipher : Cipher} {s : Caps} {cap : KtsIfcCap}
    (hcap : s.content cipher .ktsIfcCap = some cap) {scheme : Int} {op : Setter KtsIfcScheme}
    {f : KtsIfcScheme → KtsIfcScheme} {result : KtsIfcScheme → AmvpResult}
    (hop : ∀ e, op e = .ok (result e, f e)) (hresult : ∀ e, result e ≠ .noCap)
    (hf : ∀ e, (f e).scheme = e.scheme) :
    (∀ rv s', (CapAction.atEntry cipher (.member .ktsIfcCap
        (uncounted (ktsIfcAtScheme scheme op)))).run s = .ok (rv, s') →
      LandsOn cipher scheme s rv s') ↔ Findable scheme (fun e => f e = e) cap.schemes := by
  obtain ⟨rv, l', hpick, hiff⟩ := atPickedScheme_lands_iff hop hresult hf cap.schemes
  have hset : ktsIfcAtScheme scheme op cap = .ok (rv, { cap with schemes := l' }) :=
    Op.zoom_eq_ok_iff.mpr ⟨l', hpick, rfl⟩
  obtain ⟨s', hrun⟩ := CapAction.run_of_content hcap hset
  obtain ⟨cap', hset', hcap'⟩ := CapAction.content_of_run hcap hrun
  cases hset.symm.trans hset'
  have hschemes : s.ktsIfcSchemes cipher = cap.schemes := by simp [Caps.ktsIfcSchemes, hcap]
  have hschemes' : s'.ktsIfcSchemes cipher = l' := by simp [Caps.ktsIfcSchemes, hcap']
  rw [← hiff, ← hschemes]
  constructor
  · intro h
    have hlands := h rv s' hrun
    exact ⟨hlands.noCap, hschemes' ▸ hlands.schemes⟩
  · rintro ⟨hnoCap, hchanged⟩ rv₁ s₁ hrun₁
    cases hrun.symm.trans hrun₁
    exact ⟨hnoCap, hschemes' ▸ hchanged, by simp [hcap, hcap'],
      fun other hother => CapAction.locate_of_run hrun hother⟩

/-- What the switch over the parameters of a scheme stores. -/
theorem ktsIfcStoreSchemeParm_eq (param : KtsIfcSchemeParam) (value : Int) :
    ∃ (result : KtsIfcScheme → AmvpResult) (f : KtsIfcScheme → KtsIfcScheme),
      (∀ e, ktsIfcStoreSchemeParm param value e = .ok (result e, f e)) ∧
      (∀ e, result e ≠ .noCap) ∧ (∀ e, (f e).scheme = e.scheme) ∧
      ∀ e, f e = e ↔ param.HasValue value e := by
  have hsuccess : AmvpResult.success ≠ .noCap := by decide
  have hinvalid : AmvpResult.invalidArg ≠ .noCap := by decide
  cases param with
  | nullAssocData =>
      refine ⟨fun _ => .success, fun e => { e with nullAssocData := value }, fun _ => rfl,
        fun _ => hsuccess, fun _ => rfl, fun e => ?_⟩
      obtain ⟨scheme, l, roles, hash, nullAssocData, pattern, encodings⟩ := e
      simp [KtsIfcSchemeParam.HasValue, eq_comm]
  | l =>
      refine ⟨fun _ => .success, fun e => { e with l := value }, fun _ => rfl,
        fun _ => hsuccess, fun _ => rfl, fun e => ?_⟩
      obtain ⟨scheme, l, roles, hash, nullAssocData, pattern, encodings⟩ := e
      simp [KtsIfcSchemeParam.HasValue, eq_comm]
  | role =>
      refine ⟨fun _ => .success, fun e => { e with roles := e.roles ++ [value] }, fun _ => rfl,
        fun _ => hsuccess, fun _ => rfl, fun e => ?_⟩
      obtain ⟨scheme, l, roles, hash, nullAssocData, pattern, encodings⟩ := e
      simp [KtsIfcSchemeParam.HasValue]
  | hash =>
      refine ⟨fun _ => .success, fun e => { e with hash := e.hash ++ [value] }, fun _ => rfl,
        fun _ => hsuccess, fun _ => rfl, fun e => ?_⟩
      obtain ⟨scheme, l, roles, hash, nullAssocData, pattern, encodings⟩ := e
      simp [KtsIfcSchemeParam.HasValue]
  | adPattern | encoding | macMethods | other raw =>
      exact ⟨fun _ => .invalidArg, id, fun _ => rfl, fun _ => hinvalid, fun _ => rfl,
        fun _ => iff_of_true rfl trivial⟩

/-- What the switch over the strings of a scheme stores. -/
theorem ktsIfcStoreSchemeString_eq (param : KtsIfcSchemeParam) (value : Option String) :
    ∃ (op : Setter KtsIfcScheme) (result : KtsIfcScheme → AmvpResult)
      (f : KtsIfcScheme → KtsIfcScheme),
      (∀ scheme, ¬ (value.getD "").length > capabilityStrMax →
        ktsIfcSetSchemeString scheme param value = ktsIfcAtScheme scheme op) ∧
      (∀ e, op e = .ok (result e, f e)) ∧
      (∀ e, result e ≠ .noCap) ∧ (∀ e, (f e).scheme = e.scheme) ∧
      ∀ e, f e = e ↔ param.HasString value e := by
  have hsuccess : AmvpResult.success ≠ .noCap := by decide
  have hinvalid : AmvpResult.invalidArg ≠ .noCap := by decide
  cases param with
  | adPattern =>
      refine ⟨_, fun _ => .success, fun e => { e with assocDataPattern := some (value.getD "") },
        fun scheme hlength => if_neg hlength, fun _ => rfl, fun _ => hsuccess, fun _ => rfl,
        fun e => ?_⟩
      obtain ⟨scheme, l, roles, hash, nullAssocData, pattern, encodings⟩ := e
      simp [KtsIfcSchemeParam.HasString, eq_comm]
  | encoding =>
      refine ⟨_, fun _ => .success, fun e => { e with encodings := some (value.getD "") },
        fun scheme hlength => if_neg hlength, fun _ => rfl, fun _ => hsuccess, fun _ => rfl,
        fun e => ?_⟩
      obtain ⟨scheme, l, roles, hash, nullAssocData, pattern, encodings⟩ := e
      simp [KtsIfcSchemeParam.HasString, eq_comm]
  | nullAssocData | hash | role | l | macMethods | other raw =>
      exact ⟨_, fun _ => .invalidArg, id, fun scheme hlength => if_neg hlength, fun _ => rfl,
        fun _ => hinvalid, fun _ => rfl, fun _ => iff_of_true rfl trivial⟩

/-- A string that is too long is refused before the search, whatever the schemes are. -/
theorem ktsIfc_tooLong_lands_iff {cipher : Cipher} {s : Caps} {cap : KtsIfcCap}
    (hcap : s.content cipher .ktsIfcCap = some cap) (scheme : Int) :
    (∀ rv s', (CapAction.atEntry cipher (.member .ktsIfcCap
        (uncounted (refuse .invalidArg)))).run s = .ok (rv, s') →
      LandsOn cipher scheme s rv s') ↔ ∃ e ∈ cap.schemes, e.scheme = scheme := by
  have hrefuse : (refuse .invalidArg : Setter KtsIfcCap) cap = .ok (.invalidArg, cap) := rfl
  obtain ⟨s', hrun⟩ := CapAction.run_of_content hcap hrefuse
  obtain ⟨cap', hset', hcap'⟩ := CapAction.content_of_run hcap hrun
  cases hset'
  have hschemes : s.ktsIfcSchemes cipher = cap.schemes := by simp [Caps.ktsIfcSchemes, hcap]
  have hschemes' : s'.ktsIfcSchemes cipher = cap.schemes := by simp [Caps.ktsIfcSchemes, hcap']
  constructor
  · intro h
    have hnoCap := (h _ s' hrun).noCap
    rw [hschemes] at hnoCap
    simpa using hnoCap
  · rintro ⟨e, he, hscheme⟩ rv₁ s₁ hrun₁
    cases hrun.symm.trans hrun₁
    refine ⟨?_, ?_, by rw [hcap, hcap'],
      fun other hother => CapAction.locate_of_run hrun hother⟩
    · rw [hschemes]
      exact iff_of_false (by decide) fun hall => hall e he hscheme
    · rw [hschemes, hschemes']
      exact changedAt_refl scheme cap.schemes

/-- When does a call work on the scheme it names? -/
theorem KtsIfcCall.lands_iff {cipher : Cipher} {s : Caps} {cap : KtsIfcCap}
    (hcap : s.content cipher .ktsIfcCap = some cap) (c : KtsIfcCall) :
    (∀ rv s', (c.call cipher).exec s = .ok (rv, s') → c.Lands cipher s rv s') ↔
      c.Meets cap.schemes := by
  cases c with
  | setParm param value => exact iff_of_true (fun _ _ _ => trivial) trivial
  | setSchemeParm scheme param value =>
      obtain ⟨result, f, hop, hresult, hf, hsame⟩ := ktsIfcStoreSchemeParm_eq param value
      refine (ktsIfcAtScheme_lands_iff hcap hop hresult hf).trans ?_
      simp only [hsame]
      rfl
  | setSchemeString scheme param value =>
      rw [Meets]
      split
      · rename_i hlength
        have hop : ktsIfcSetSchemeString scheme param value = refuse .invalidArg := if_pos hlength
        simp only [CapCall.exec, CapCall.action, call, capKtsIfcSetSchemeString, hop]
        exact ktsIfc_tooLong_lands_iff hcap scheme
      · rename_i hlength
        obtain ⟨op, result, f, hset, hop, hresult, hf, hsame⟩ :=
          ktsIfcStoreSchemeString_eq param value
        simp only [CapCall.exec, CapCall.action, call, capKtsIfcSetSchemeString,
          hset scheme hlength]
        refine (ktsIfcAtScheme_lands_iff hcap hop hresult hf).trans ?_
        simp only [hsame]

/-! ## Sequences of calls -/

/-- A call, with the state it meets, its result and the state it leaves. -/
structure KtsIfcStep where
  before : Caps
  call : KtsIfcCall
  result : AmvpResult
  after : Caps

/-- The steps of a number of calls for a cipher. -/
inductive KtsIfcRun (cipher : Cipher) (s₀ : Caps) : List KtsIfcStep → Caps → Prop
  | start : KtsIfcRun cipher s₀ [] s₀
  | call {steps : List KtsIfcStep} {s s' : Caps} {c : KtsIfcCall} {rv : AmvpResult}
      (hrun : KtsIfcRun cipher s₀ steps s) (hexec : (c.call cipher).exec s = .ok (rv, s')) :
      KtsIfcRun cipher s₀ (steps ++ [⟨s, c, rv, s'⟩]) s'

/-- A call keeps the entry. -/
theorem KtsIfcCall.content_of_exec {cipher : Cipher} {s s' : Caps} {cap : KtsIfcCap}
    {rv : AmvpResult} (hcap : s.content cipher .ktsIfcCap = some cap) (c : KtsIfcCall)
    (h : (c.call cipher).exec s = .ok (rv, s')) :
    ∃ cap', s'.content cipher .ktsIfcCap = some cap' := by
  cases c with
  | setParm param value =>
      obtain ⟨cap', -, hcap'⟩ := CapAction.content_of_run hcap h
      exact ⟨cap', hcap'⟩
  | setSchemeParm scheme param value =>
      obtain ⟨cap', -, hcap'⟩ := CapAction.content_of_run hcap h
      exact ⟨cap', hcap'⟩
  | setSchemeString scheme param value =>
      obtain ⟨cap', -, hcap'⟩ := CapAction.content_of_run hcap h
      exact ⟨cap', hcap'⟩

theorem KtsIfcRun.content {cipher : Cipher} {s₀ s : Caps} {cap₀ : KtsIfcCap}
    {steps : List KtsIfcStep} (hcap₀ : s₀.content cipher .ktsIfcCap = some cap₀)
    (h : KtsIfcRun cipher s₀ steps s) : ∃ cap, s.content cipher .ktsIfcCap = some cap := by
  induction h with
  | start => exact ⟨cap₀, hcap₀⟩
  | call hrun hexec ih =>
      obtain ⟨cap, hcap⟩ := ih
      exact KtsIfcCall.content_of_exec hcap _ hexec

/-- When every call meets the condition, every call lands on the scheme it names. -/
theorem KtsIfcRun.lands {cipher : Cipher} {s₀ s : Caps} {cap₀ : KtsIfcCap}
    {steps : List KtsIfcStep} (hcap₀ : s₀.content cipher .ktsIfcCap = some cap₀)
    (h : KtsIfcRun cipher s₀ steps s)
    (hmeets : ∀ step ∈ steps, step.call.Meets (step.before.ktsIfcSchemes cipher)) :
    ∀ step ∈ steps, step.call.Lands cipher step.before step.result step.after := by
  induction h with
  | start => simp
  | @call steps s s' c rv hrun hexec ih =>
      intro step hstep
      rcases List.mem_append.mp hstep with hstep | hstep
      · exact ih (fun step hstep => hmeets step (List.mem_append_left _ hstep)) step hstep
      · obtain rfl := List.mem_singleton.mp hstep
        obtain ⟨cap, hcap⟩ := hrun.content hcap₀
        have hlast := hmeets ⟨s, c, rv, s'⟩ (by simp)
        simp only [Caps.ktsIfcSchemes, hcap, Option.map_some, Option.getD_some] at hlast
        exact (c.lands_iff hcap).mpr hlast rv s' hexec

/-- A call works on the scheme it names just when the search can find it, a registration
describes every scheme just when there is at most one and its strings are UTF-8, and calls that
all meet the condition all work on the schemes they name. -/
theorem ktsIfc_schemes_iff (cipher : Cipher) (s : Caps) (cap : KtsIfcCap) :
    (s.content cipher .ktsIfcCap = some cap → ∀ c : KtsIfcCall,
      (∀ rv s', (c.call cipher).exec s = .ok (rv, s') → c.Lands cipher s rv s') ↔
        c.Meets cap.schemes) ∧
    (∀ entry : CapsEntry, entry.cipher = .ktsIfc →
      ((∀ obj, buildKtsIfcRegisterCap [] entry cap = .ok obj → cap.RegisteredBy obj) ↔
        (cap.schemes.length ≤ 1 ∧ ∀ s ∈ cap.schemes, s.Writable) ∨ ¬ cap.Known)) ∧
    (s.content cipher .ktsIfcCap = some cap →
      ∀ (steps : List KtsIfcStep) (s' : Caps), KtsIfcRun cipher s steps s' →
      (∀ step ∈ steps, step.call.Meets (step.before.ktsIfcSchemes cipher)) →
      ∀ step ∈ steps, step.call.Lands cipher step.before step.result step.after) :=
  ⟨fun hcap c => c.lands_iff hcap, fun _ hcipher => registers_iff hcipher cap,
    fun hcap _ _ hrun hmeets => hrun.lands hcap hmeets⟩

/-- With one scheme, its role and its pattern are stored with it and registered. -/
theorem ktsIfc_schemes_iff_one_scheme :
    ∃ s s' s'' obj, (CapCall.ktsIfcEnable .ktsIfc (some ⟨0⟩)).exec {} = .ok (.success, s) ∧
      (CapCall.ktsIfcSetParm .ktsIfc .scheme 1).exec s = .ok (.success, s') ∧
      (CapCall.ktsIfcSetSchemeParm .ktsIfc 1 .role 1).exec s' = .ok (.success, s'') ∧
      LandsOn .ktsIfc 1 s' .success s'' ∧
      buildKtsIfcRegisterCap [] (.new .ktsIfc .ktsIfc ⟨0⟩)
        { schemes := [{ scheme := 1, roles := [1], assocDataPattern := some "l||uPartyInfo" }] } =
          .ok obj ∧
      KtsIfcCap.RegisteredBy
        { schemes := [{ scheme := 1, roles := [1], assocDataPattern := some "l||uPartyInfo" }] }
        obj := by
  refine ⟨_, _, _, _, rfl, rfl, rfl, ?_, rfl, ?_⟩
  · exact ((ktsIfc_schemes_iff .ktsIfc _ _).1 rfl (.setSchemeParm 1 .role 1)).mpr
      (.inl (by decide)) _ _ rfl
  · refine ((ktsIfc_schemes_iff .ktsIfc {} _).2.1 (.new .ktsIfc .ktsIfc ⟨0⟩) rfl).mpr
      (.inl ⟨by decide, ?_⟩) _ rfl
    intro s hs
    obtain rfl := List.mem_singleton.mp hs
    refine ⟨fun pattern hpattern => ?_, nofun⟩
    obtain rfl := Option.some.inj hpattern
    exact isText_of_ascii (by decide) (by decide)

/-- With three schemes, a value for the third goes to the second, a registration of two
schemes describes one, and a pattern that is not UTF-8 is set and not registered. -/
theorem ktsIfc_call_misses :
    (∃ s₀ s₁ s₂ s₃ s₄, (CapCall.ktsIfcEnable .ktsIfc (some ⟨0⟩)).exec {} = .ok (.success, s₀) ∧
      (CapCall.ktsIfcSetParm .ktsIfc .scheme 1).exec s₀ = .ok (.success, s₁) ∧
      (CapCall.ktsIfcSetParm .ktsIfc .scheme 2).exec s₁ = .ok (.success, s₂) ∧
      (CapCall.ktsIfcSetParm .ktsIfc .scheme 3).exec s₂ = .ok (.success, s₃) ∧
      (CapCall.ktsIfcSetSchemeParm .ktsIfc 3 .l 512).exec s₃ = .ok (.success, s₄) ∧
      s₄.ktsIfcSchemes .ktsIfc = [{ scheme := 1 }, { scheme := 2, l := 512 }, { scheme := 3 }]) ∧
    (∃ obj, buildKtsIfcRegisterCap [] (.new .ktsIfc .ktsIfc ⟨0⟩)
        { schemes := [{ scheme := 1, l := 512 }, { scheme := 2, l := 1024 }] } = .ok obj ∧
      ¬ KtsIfcCap.RegisteredBy
        { schemes := [{ scheme := 1, l := 512 }, { scheme := 2, l := 1024 }] } obj) ∧
    ∃ s₀ s₁ s₂ obj, (CapCall.ktsIfcEnable .ktsIfc (some ⟨0⟩)).exec {} = .ok (.success, s₀) ∧
      (CapCall.ktsIfcSetParm .ktsIfc .scheme 1).exec s₀ = .ok (.success, s₁) ∧
      (CapCall.ktsIfcSetSchemeString .ktsIfc 1 .adPattern (some "\u00ff")).exec s₁ =
        .ok (.success, s₂) ∧
      s₂.ktsIfcSchemes .ktsIfc = [{ scheme := 1, assocDataPattern := some "\u00ff" }] ∧
      buildKtsIfcRegisterCap [] (.new .ktsIfc .ktsIfc ⟨0⟩)
        { schemes := [{ scheme := 1, assocDataPattern := some "\u00ff" }] } = .ok obj ∧
      ¬ KtsIfcCap.RegisteredBy
        { schemes := [{ scheme := 1, assocDataPattern := some "\u00ff" }] } obj := by
  have hbuilt : ∃ obj, buildKtsIfcRegisterCap [] (.new .ktsIfc .ktsIfc ⟨0⟩)
      { schemes := [{ scheme := 1, assocDataPattern := some "\u00ff" }] } = .ok obj := ⟨_, rfl⟩
  obtain ⟨obj, hobj⟩ := hbuilt
  refine ⟨⟨_, _, _, _, _, rfl, rfl, rfl, rfl, rfl, rfl⟩, ⟨_, rfl, ?_⟩,
    ⟨_, _, _, obj, rfl, rfl, rfl, rfl, hobj, ?_⟩⟩
  · rintro ⟨descriptions, hdescriptions, hall⟩
    cases hdescriptions
    simpa [jsonObjectSetValue] using hall.length_eq
  · intro hregistered
    have hwritable := (registeredBy_one_iff rfl hobj).mp hregistered
    exact not_isText_of_mem (by decide) (hwritable.1 _ rfl)

end LibAmvp
