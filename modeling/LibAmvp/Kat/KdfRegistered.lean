import LibAmvp.Capabilities.KdfRegistration
import LibAmvp.Kat.Kdf108
import LibAmvp.Kat.Kdf135

/-!
# Vector sets within a registration

The library registers names and lengths for a key derivation function, and a server draws its
vector sets from them.  The names are written out three times: where a capability is built,
where it is registered, and where a vector set is read.  This module compares them: a vector
set that stays within the registration is processed when every test reaches the module with
the values that were registered.

Main results:

- Theorem {lit}`kdfs_process_iff`: which vector sets within a registration the handlers of
  SP 800-108 and of ANSI X9.42 process.
-/

namespace LibAmvp

open Guard

/-! ## Lists and ranges of a registration -/

/-- A string is in a list of the registration. -/
def ListsString (spec : JsonObject) (name str : String) : Prop :=
  .str str ∈ jsonArrayElems (jsonObjectGetArray (some spec) name)

/-- A number is one of a range of the registration. -/
def InRange (range : JsonObject) (q : ℚ) : Prop :=
  jsonObjectGetNumber (some range) "min" ≤ q ∧ q ≤ jsonObjectGetNumber (some range) "max" ∧
    ∃ k : Int, q = jsonObjectGetNumber (some range) "min" +
      k * jsonObjectGetNumber (some range) "increment"

/-- A number is in a list of the registration, or in one of its ranges. -/
def ListsNumber (spec : JsonObject) (name : String) (q : ℚ) : Prop :=
  ∃ elem ∈ jsonArrayElems (jsonObjectGetArray (some spec) name),
    elem = .num q ∨ ∃ range, elem = .obj range ∧ InRange range q

/-- A string of an object that a list of the registration has. -/
def StringWithin (spec : JsonObject) (list : String) (obj : Option JsonObject) (name : String) :
    Prop :=
  ∃ str, jsonObjectGetString obj name = some str ∧ ListsString spec list str

/-- A number of an object that a list of the registration has. -/
def NumberWithin (spec : JsonObject) (list : String) (obj : Option JsonObject) (name : String) :
    Prop :=
  ∃ q, jsonObjectGetValue obj name = some (.num q) ∧ ListsNumber spec list q

/-- A number of a domain. -/
def Domain.Has (d : Domain) (n : Int) : Prop :=
  d.min ≤ n ∧ n ≤ d.max ∧ ∃ k : Int, n = d.min + k * d.increment

/-- The numbers of the object of a range. -/
theorem inRange_rangeObject {d : Domain} {range : JsonObject} (h : rangeObject d = .obj range)
    {q : ℚ} : InRange range q ↔ ∃ n : Int, q = n ∧ d.Has n := by
  cases h
  have hmin : jsonObjectGetNumber (some [("min", .num d.min), ("max", .num d.max),
      ("increment", .num d.increment)]) "min" = d.min := rfl
  have hmax : jsonObjectGetNumber (some [("min", .num d.min), ("max", .num d.max),
      ("increment", .num d.increment)]) "max" = d.max := rfl
  have hincrement : jsonObjectGetNumber (some [("min", .num d.min), ("max", .num d.max),
      ("increment", .num d.increment)]) "increment" = d.increment := rfl
  unfold InRange Domain.Has
  rw [hmin, hmax, hincrement]
  constructor
  · rintro ⟨hlow, hhigh, k, rfl⟩
    refine ⟨d.min + k * d.increment, by push_cast; rfl, ?_, ?_, k, rfl⟩
    · exact_mod_cast hlow
    · exact_mod_cast hhigh
  · rintro ⟨n, rfl, hlow, hhigh, k, hk⟩
    refine ⟨by exact_mod_cast hlow, by exact_mod_cast hhigh, k, ?_⟩
    rw [hk]
    push_cast
    rfl

/-- An array of texts lists a text exactly when it is one of them. -/
theorem listsString_iff {spec : JsonObject} {name str : String} {names : List String}
    (h : jsonObjectGetValue (some spec) name = some (.arr (names.map .str))) :
    ListsString spec name str ↔ str ∈ names := by
  simp [ListsString, jsonObjectGetArray, h, jsonValueGetArray, jsonArrayElems]

/-- An array of numbers lists a number exactly when it is one of them. -/
theorem listsNumber_values_iff {spec : JsonObject} {name : String} {values : List Int} {q : ℚ}
    (h : jsonObjectGetValue (some spec) name = some (.arr (values.map fun n : Int => .num n))) :
    ListsNumber spec name q ↔ ∃ n : Int, n ∈ values ∧ q = n := by
  simp only [ListsNumber, jsonObjectGetArray, h, jsonValueGetArray, jsonArrayElems,
    Option.getD_some, List.mem_map]
  constructor
  · rintro ⟨_, ⟨n, hn, rfl⟩, hnum | ⟨range, hobj, -⟩⟩
    · cases hnum
      exact ⟨n, hn, rfl⟩
    · cases hobj
  · rintro ⟨n, hn, rfl⟩
    exact ⟨_, ⟨n, hn, rfl⟩, .inl rfl⟩

/-- An array with one range lists a number exactly when the range has it. -/
theorem listsNumber_range_iff {spec : JsonObject} {name : String} {d : Domain} {q : ℚ}
    (h : jsonObjectGetValue (some spec) name = some (.arr [rangeObject d])) :
    ListsNumber spec name q ↔ ∃ n : Int, q = n ∧ d.Has n := by
  simp only [ListsNumber, jsonObjectGetArray, h, jsonValueGetArray, jsonArrayElems,
    Option.getD_some, List.mem_singleton, exists_eq_left]
  constructor
  · rintro (hnum | ⟨range, hobj, hrange⟩)
    · cases hnum
    · exact (inRange_rangeObject hobj).mp hrange
  · intro hn
    exact .inr ⟨_, rfl, (inRange_rangeObject rfl).mpr hn⟩

/-! ## Fields -/

/-- The characters of hexadecimal numbers. -/
def IsHexDigit (ch : UInt8) : Prop :=
  48 ≤ ch ∧ ch ≤ 57 ∨ 65 ≤ ch ∧ ch ≤ 70 ∨ 97 ≤ ch ∧ ch ≤ 102

/-- A string of bytes in hexadecimal form. -/
def IsHexString (str : String) : Prop :=
  (∀ ch ∈ cBytes str, IsHexDigit ch) ∧ (cBytes str).length % 2 = 0

/-- The bytes of a string in hexadecimal form. -/
def hexBytes (str : String) : List UInt8 := hexPairs (cBytes str)

/-- A member with bytes in hexadecimal form. -/
def HexField (obj : Option JsonObject) (name : String) (str : String) : Prop :=
  jsonObjectGetString obj name = some str ∧ IsHexString str

/-- A buffer and a length hold the bytes of a string. -/
def Holds (b : Buffer) (len : Int) (str : String) : Prop :=
  len = (hexBytes str).length ∧ b.read len.toNat = hexBytes str

/-- Two digits make one byte. -/
theorem hexBytes_length {str : String} (h : IsHexString str) :
    2 * (hexBytes str).length = (cBytes str).length := by
  have heven := h.2
  unfold hexBytes
  rw [hexPairs_length]
  omega

/-- A string that fits is decoded. -/
theorem hexstrToBin_hex {str : String} (h : IsHexString str) {destMax : Nat}
    (hfits : (cBytes str).length ≤ 2 * destMax) (hmax : 2 * destMax < hexstrMax) :
    hexstrToBin (some str) destMax = .ok (hexBytes str) := by
  have heven := h.2
  have hlength : strnlenS str hexstrMax = (cBytes str).length := by
    unfold strnlenS
    omega
  simp only [hexstrToBin, need, ok_bind, hlength]
  rw [stopIf_neg (by omega), ok_bind, stopIf_neg (by omega), ok_bind]
  rfl

/-- A buffer of decoded digits holds the text they are from. -/
theorem holds_hexBytes (size : Nat) (str : String) :
    Holds ⟨size, hexBytes str⟩ (hexBytes str).length str := by
  refine ⟨rfl, ?_⟩
  simp [Buffer.read]

/-! ## SP 800-108 -/

/-- The values of {lit}`AMVP_KDF108_MAC_MODE_VAL`. -/
def Kdf108MacMode.value : Kdf108MacMode → Int
  | .cmacAes128 => 1
  | .cmacAes192 => 2
  | .cmacAes256 => 3
  | .cmacTdes => 4
  | .hmacSha1 => 5
  | .hmacSha224 => 6
  | .hmacSha256 => 7
  | .hmacSha384 => 8
  | .hmacSha512 => 9
  | .hmacSha512_224 => 10
  | .hmacSha512_256 => 11
  | .hmacSha3_224 => 12
  | .hmacSha3_256 => 13
  | .hmacSha3_384 => 14
  | .hmacSha3_512 => 15

/-- The values of {lit}`AMVP_KDF108_FIXED_DATA_ORDER_VAL`. -/
def Kdf108FixedDataOrder.value : Kdf108FixedDataOrder → Int
  | .none => 1
  | .after => 2
  | .before => 3
  | .middle => 4
  | .beforeIterator => 5

/-- The name that is registered for a mode. -/
def Kdf108Mode.registeredName : Kdf108Mode → Option String
  | .counter => some "counter"
  | .feedback => some "feedback"
  | .dpi => some "dpi"
  | .other _ => none

/-- A group within the registration: its mode is registered, with these values. -/
structure Kdf108GroupWithin (reg : JsonObject) (group : Option JsonObject) : Prop where
  numbered : toInt (jsonObjectGetNumber group "tgId") ≠ 0
  within : ∃ spec, .obj spec ∈ jsonArrayElems (jsonObjectGetArray (some reg) "capabilities") ∧
    (∃ kdfMode, jsonObjectGetString group "kdfMode" = some kdfMode ∧
      jsonObjectGetString (some spec) "kdfMode" = some kdfMode) ∧
    StringWithin spec "macMode" group "macMode" ∧
    NumberWithin spec "supportedLengths" group "keyOutLength" ∧
    NumberWithin spec "counterLength" group "counterLength" ∧
    StringWithin spec "fixedDataOrder" group "counterLocation"

/-- A test with the fields that its group calls for. -/
structure Kdf108TestFormed (group test : Option JsonObject) : Prop where
  keyIn : ∃ str, HexField test "keyIn" str
  iv : jsonObjectGetString group "kdfMode" = some "feedback" → ∃ str, HexField test "iv" str
  deferred : jsonObjectGetString group "counterLocation" = some "middle fixed data" →
    jsonObjectGetBoolean test "deferred" ≠ -1

/-- A vector set within the registration. -/
structure Kdf108Within (reg obj : JsonObject) : Prop where
  algorithm : jsonObjectGetString (some obj) "algorithm" =
    jsonObjectGetString (some reg) "algorithm"
  groups : ∀ b ∈ testGroups obj, Kdf108GroupWithin reg b.head
  tests : ∀ b ∈ testGroups obj, ∀ t ∈ b.items, Kdf108TestFormed b.head t

/-- A test case has the values whose names the group carries, and the fields of the test with
their lengths. -/
structure Kdf108Delivered (group test : Option JsonObject) (tc : Kdf108Tc) : Prop where
  tcId : tc.tcId = readTcId test
  mode : tc.mode.registeredName = jsonObjectGetString group "kdfMode"
  macMode : kdf108MacModeStr tc.macMode.value = jsonObjectGetString group "macMode"
  counterLocation : kdf108FixedDataOrderStr tc.counterLocation.value =
    jsonObjectGetString group "counterLocation"
  keyOutLen : ∃ bits : Nat, jsonObjectGetNumber group "keyOutLength" = bits ∧
    tc.keyOutLen = ((bits + 7) / 8 : Nat)
  counterLen : jsonObjectGetNumber group "counterLength" = tc.counterLen
  keyIn : ∀ str, HexField test "keyIn" str → Holds tc.keyIn tc.keyInLen str
  iv : jsonObjectGetString group "kdfMode" = some "feedback" → ∀ str, HexField test "iv" str →
    ∃ buffer, tc.iv = some buffer ∧ Holds buffer tc.ivLen str
  deferred : tc.deferred = jsonObjectGetBoolean test "deferred"

/-- A module that derives keys of the length it is asked for, with fixed data that fit. -/
def Kdf108Serves (module : Partner Kdf108Tc) : Prop :=
  ∀ before tc, (module before tc).1 = 0 ∧ (module before tc).2.keyOutLen = tc.keyOutLen ∧
    (module before tc).2.fixedDataLen ≤ kdf108FixedDataByteMax

/-- The handler raises no error, and every test reaches the module with its values. -/
def Kdf108Processes (ctx : KatCtx) (obj : JsonObject) : Prop :=
  ∀ module, Kdf108Serves module →
    (∃ rsp, (kdf108KatHandler ctx obj module).result = .ok rsp) ∧
      Loader.AskedAbout Kdf108Delivered (Loader.placed 0 (testGroups obj))
        (kdf108KatHandler ctx obj module).calls

/-- A group in counter mode with a counter, or in feedback mode without initialization
vectors, for keys that are not empty from keys that are not too long. -/
def Kdf108Processable (b : TestGroup) : Prop :=
  (jsonObjectGetNumber b.head "keyOutLength" ≠ 0 ∧
      (b.items ≠ [] → 0 < jsonObjectGetNumber b.head "keyOutLength")) ∧
    (jsonObjectGetString b.head "kdfMode" = some "counter" ∧
        0 < jsonObjectGetNumber b.head "counterLength" ∨
      jsonObjectGetString b.head "kdfMode" = some "feedback" ∧
        ∀ t ∈ b.items, jsonObjectGetString t "iv" = some "") ∧
    ∀ t ∈ b.items, ∀ str, jsonObjectGetString t "keyIn" = some str →
      (cBytes str).length ≤ kdf108KeyinStrMax

/-- What is registered for the capability of a context. -/
def Kdf108Registered (caps : Caps) (reg : JsonObject) : Prop :=
  ∃ entry cap, caps.locate .kdf108 = some entry ∧ caps.content .kdf108 .kdf108Cap = some cap ∧
    buildKdf108RegisterCap [] entry cap = .ok reg

/-- The prerequisites do not touch the other members. -/
theorem jsonObjectGetValue_lookupPrereqVals {obj : JsonObject} {entry : CapsEntry} {name : String}
    (h : name ≠ "prereqVals") :
    jsonObjectGetValue (some (lookupPrereqVals obj entry)) name =
      jsonObjectGetValue (some obj) name := by
  unfold lookupPrereqVals
  split
  · rfl
  · exact jsonObjectGetValue_set_of_ne obj _ h

/-! ### The names -/

/-- Every MAC mode that can be registered is read as the one it was registered for. -/
theorem readMacMode_registered {name : String} (h : ∃ value, kdf108MacModeStr value = some name) :
    ∃ m, readMacMode name = some m ∧ kdf108MacModeStr m.value = some name := by
  obtain ⟨value, hvalue⟩ := h
  unfold kdf108MacModeStr at hvalue
  repeat' split at hvalue
  all_goals cases hvalue
  · exact ⟨.cmacAes128, rfl, rfl⟩
  · exact ⟨.cmacAes192, rfl, rfl⟩
  · exact ⟨.cmacAes256, rfl, rfl⟩
  · exact ⟨.cmacTdes, rfl, rfl⟩
  · exact ⟨.hmacSha1, rfl, rfl⟩
  · exact ⟨.hmacSha224, rfl, rfl⟩
  · exact ⟨.hmacSha256, rfl, rfl⟩
  · exact ⟨.hmacSha384, rfl, rfl⟩
  · exact ⟨.hmacSha512, rfl, rfl⟩

/-- Every order of fixed data is read as the one it was registered for. -/
theorem readCtrLocation_registered {name : String}
    (h : ∃ value, kdf108FixedDataOrderStr value = some name) :
    ∃ loc, readCtrLocation name = some loc ∧ kdf108FixedDataOrderStr loc.value = some name ∧
      (loc = .middle ↔ name = "middle fixed data") := by
  obtain ⟨value, hvalue⟩ := h
  unfold kdf108FixedDataOrderStr at hvalue
  split_ifs at hvalue <;> cases hvalue
  · exact ⟨.none, rfl, rfl, by decide⟩
  · exact ⟨.after, rfl, rfl, by decide⟩
  · exact ⟨.before, rfl, rfl, by decide⟩
  · exact ⟨.middle, rfl, rfl, by decide⟩
  · exact ⟨.beforeIterator, rfl, rfl, by decide⟩

/-! ### The object of a mode -/

section ModeObject

variable (kdfMode : String) (params : Kdf108ModeParams)

/-- The members of the object of a mode. -/
theorem buildKdf108ModeRegister_members :
    let spec := some (buildKdf108ModeRegister (jsonObjectSetText [] "kdfMode" (some kdfMode)) params)
    jsonObjectGetValue spec "kdfMode" = some (.str kdfMode) ∧
    jsonObjectGetValue spec "macMode" = some (.arr (params.macMode.map .str)) ∧
    jsonObjectGetValue spec "supportedLengths" = some (.arr
      ((if params.supportedLens.increment ≠ 0 then [rangeObject params.supportedLens] else []) ++
        params.supportedLens.values.map fun n : Int => .num n)) ∧
    jsonObjectGetValue spec "fixedDataOrder" = some (.arr (params.dataOrder.map .str)) ∧
    jsonObjectGetValue spec "counterLength" =
      some (.arr (params.counterLens.map fun n : Int => .num n)) := by
  have hflag : ∀ name obj, name ≠ "requiresEmptyIv" →
      jsonObjectGetValue (some (if params.emptyIvSupport ≠ 0 then
        jsonObjectSetBoolean obj "requiresEmptyIv" params.requiresEmptyIv else obj)) name =
      jsonObjectGetValue (some obj) name := by
    intro name obj hname
    split
    · exact jsonObjectGetValue_set_of_ne obj _ hname
    · rfl
  simp only [buildKdf108ModeRegister]
  refine ⟨?_, ?_, ?_, ?_, ?_⟩ <;> rw [hflag _ _ (by decide)] <;>
    simp [jsonObjectSetBoolean, jsonObjectSetText, jsonObjectGetValue_set_of_ne]

end ModeObject

/-- What is registered for the lengths of the keys. -/
theorem listsNumber_supportedLengths {kdfMode : String} {params : Kdf108ModeParams} {q : ℚ}
    (hparams : params.Registrable)
    (h : ListsNumber (buildKdf108ModeRegister (jsonObjectSetText [] "kdfMode" (some kdfMode))
      params) "supportedLengths" q) : ∃ n : Int, q = n ∧ n ≤ kdf108KeyinBitMax := by
  obtain ⟨-, -, hlengths, -, -⟩ := buildKdf108ModeRegister_members kdfMode params
  simp only [ListsNumber, jsonObjectGetArray, hlengths, jsonValueGetArray, jsonArrayElems,
    Option.getD_some, List.mem_append] at h
  obtain ⟨elem, hrange | hvalue, hnum⟩ := h
  · split at hrange
    · rw [List.mem_singleton.mp hrange] at hnum
      rcases hnum with hnum | ⟨range, hobj, hin⟩
      · cases hnum
      · obtain ⟨n, rfl, -, hhigh, -⟩ := (inRange_rangeObject hobj).mp hin
        exact ⟨n, rfl, hhigh.trans hparams.max⟩
    · simp at hrange
  · obtain ⟨n, hn, rfl⟩ := List.mem_map.mp hvalue
    rcases hnum with hnum | ⟨range, hobj, -⟩
    · cases hnum
      exact ⟨n, rfl, (hparams.values n hn).2⟩
    · cases hobj

/-- The objects of a registration are those of its modes. -/
theorem kdf108Spec_of_registered {caps : Caps} {reg spec : JsonObject} (hbuilt : Kdf108Built caps)
    (hreg : Kdf108Registered caps reg)
    (hspec : .obj spec ∈ jsonArrayElems (jsonObjectGetArray (some reg) "capabilities")) :
    ∃ kdfMode params, (kdfMode = "counter" ∨ kdfMode = "feedback" ∨ kdfMode = "dpi") ∧
      params.Registrable ∧
      spec = buildKdf108ModeRegister (jsonObjectSetText [] "kdfMode" (some kdfMode)) params := by
  obtain ⟨entry, cap, -, hcap, hbuild⟩ := hreg
  obtain ⟨cap', hcap', hregistrable⟩ := hbuilt.content
  rw [hcap] at hcap'
  cases hcap'
  unfold buildKdf108RegisterCap at hbuild
  cases hrevision : lookupCipherRevision entry.cipher with
  | none =>
      rw [hrevision] at hbuild
      cases hbuild
  | some revision =>
      rw [hrevision] at hbuild
      cases hbuild
      simp only [jsonObjectGetArray, jsonObjectGetValue_set, jsonValueGetArray, jsonArrayElems,
        Option.getD_some, List.mem_append] at hspec
      have hmode : ∀ {name params}, .obj spec ∈ kdf108ModeObject name params →
          spec = buildKdf108ModeRegister (jsonObjectSetText [] "kdfMode" (some name)) params := by
        intro name params hmem
        unfold kdf108ModeObject at hmem
        split at hmem
        · exact Json.obj.inj (List.mem_singleton.mp hmem)
        · simp at hmem
      rcases hspec with (hspec | hspec) | hspec
      · exact ⟨"counter", cap.counterMode, .inl rfl, hregistrable.counter, hmode hspec⟩
      · exact ⟨"feedback", cap.feedbackMode, .inr (.inl rfl), hregistrable.feedback, hmode hspec⟩
      · exact ⟨"dpi", cap.dpiMode, .inr (.inr rfl), hregistrable.dpi, hmode hspec⟩

/-! ### The values of a group -/

/-- What the values of a group within a registration are. -/
structure Kdf108Values (group : Option JsonObject) : Prop where
  numbered : toInt (jsonObjectGetNumber group "tgId") ≠ 0
  mode : ∃ name, jsonObjectGetString group "kdfMode" = some name ∧
    (name = "counter" ∨ name = "feedback" ∨ name = "dpi")
  macMode : ∃ name m, jsonObjectGetString group "macMode" = some name ∧
    readMacMode name = some m ∧ kdf108MacModeStr m.value = some name
  keyOut : ∃ n : Int, jsonObjectGetNumber group "keyOutLength" = n ∧ n ≤ kdf108KeyinBitMax
  counter : ∃ n : Int, jsonObjectGetNumber group "counterLength" = n ∧ IsInt n ∧ n ≤ 32 ∧
    n % 8 = 0
  location : ∃ name loc, jsonObjectGetString group "counterLocation" = some name ∧
    readCtrLocation name = some loc ∧ kdf108FixedDataOrderStr loc.value = some name ∧
    (loc = .middle ↔ name = "middle fixed data")

/-- A group within the registration has values that the setters let in. -/
theorem Kdf108GroupWithin.values {caps : Caps} {reg : JsonObject} {group : Option JsonObject}
    (hbuilt : Kdf108Built caps) (hreg : Kdf108Registered caps reg)
    (h : Kdf108GroupWithin reg group) : Kdf108Values group := by
  obtain ⟨spec, hspec, ⟨kdfMode, hmode, hspecMode⟩, hmac, hlength, hcounter, hlocation⟩ := h.within
  obtain ⟨kdfMode', params, hname, hparams, rfl⟩ := kdf108Spec_of_registered hbuilt hreg hspec
  obtain ⟨hmode', hmac', -, hlocation', hcounter'⟩ := buildKdf108ModeRegister_members kdfMode' params
  have heq : kdfMode' = kdfMode := by
    simpa [jsonObjectGetString, hmode', jsonValueGetString] using hspecMode
  subst heq
  refine ⟨h.numbered, ⟨kdfMode', hmode, hname⟩, ?_, ?_, ?_, ?_⟩
  · obtain ⟨name, hstr, hlisted⟩ := hmac
    obtain ⟨m, hread, hvalue⟩ :=
      readMacMode_registered (hparams.macMode name ((listsString_iff hmac').mp hlisted))
    exact ⟨name, m, hstr, hread, hvalue⟩
  · obtain ⟨q, hq, hlisted⟩ := hlength
    obtain ⟨n, rfl, hn⟩ := listsNumber_supportedLengths hparams hlisted
    exact ⟨n, by simp [jsonObjectGetNumber, hq, jsonValueGetNumber], hn⟩
  · obtain ⟨q, hq, hlisted⟩ := hcounter
    obtain ⟨n, hn, rfl⟩ := (listsNumber_values_iff hcounter').mp hlisted
    exact ⟨n, by simp [jsonObjectGetNumber, hq, jsonValueGetNumber], hparams.counterLens n hn⟩
  · obtain ⟨name, hstr, hlisted⟩ := hlocation
    obtain ⟨loc, hread, hvalue, hmiddle⟩ :=
      readCtrLocation_registered (hparams.dataOrder name ((listsString_iff hlocation').mp hlisted))
    exact ⟨name, loc, hstr, hread, hvalue, hmiddle⟩

/-- A group that was read as it was registered. -/
structure Kdf108GroupRead (group : Option JsonObject) (read : Kdf108Group) : Prop where
  mode : read.kdfMode.registeredName = jsonObjectGetString group "kdfMode"
  macMode : kdf108MacModeStr read.macMode.value = jsonObjectGetString group "macMode"
  location : kdf108FixedDataOrderStr read.ctrLoc.value = jsonObjectGetString group "counterLocation"
  middle : read.ctrLoc = .middle →
    jsonObjectGetString group "counterLocation" = some "middle fixed data"
  keyOutLen : 0 < jsonObjectGetNumber group "keyOutLength" →
    ∃ bits : Nat, jsonObjectGetNumber group "keyOutLength" = bits ∧
      read.keyOutLen = ((bits + 7) / 8 : Nat) ∧ bits ≤ 4096
  counterLen : jsonObjectGetNumber group "counterLength" = read.ctrLen

/-- A group that can be processed is read as it was registered. -/
theorem readKdf108Group_of_processable {b : TestGroup} (hvalues : Kdf108Values b.head)
    (hb : Kdf108Processable b) :
    ∃ read, readKdf108Group b.head = .ok read ∧ Kdf108GroupRead b.head read := by
  obtain ⟨macName, m, hmacName, hmac, hmacValue⟩ := hvalues.macMode
  obtain ⟨bits, hbits, hbitsMax⟩ := hvalues.keyOut
  obtain ⟨counter, hcounter, hint, hcounterMax, hcounterMod⟩ := hvalues.counter
  obtain ⟨locName, loc, hlocName, hloc, hlocValue, hmiddle⟩ := hvalues.location
  obtain ⟨hpositive, hmode, -⟩ := hb
  unfold kdf108KeyinBitMax at hbitsMax
  have hbitsNe : bits ≠ 0 := by
    rw [hbits] at hpositive
    exact_mod_cast hpositive.1
  have hcounterInt : toInt (counter : ℚ) = counter := toInt_intCast hint.1 hint.2
  have hkdfMode : ∃ name kdfMode, jsonObjectGetString b.head "kdfMode" = some name ∧
      readMode name = some kdfMode ∧ kdfMode.registeredName = some name ∧
      (kdfMode = .counter → 0 < counter) := by
    rcases hmode with ⟨hname, hcount⟩ | ⟨hname, -⟩
    · rw [hcounter] at hcount
      exact ⟨"counter", .counter, hname, rfl, rfl, fun _ => by exact_mod_cast hcount⟩
    · exact ⟨"feedback", .feedback, hname, rfl, rfl, nofun⟩
  obtain ⟨name, kdfMode, hname, hread, hregistered, hcount⟩ := hkdfMode
  refine ⟨⟨toInt (jsonObjectGetNumber b.head "tgId"), kdfMode, m, (toInt (bits : ℚ) + 7).tdiv 8,
    counter, loc⟩, ?_, ?_⟩
  · have hlimit : ¬(toInt (bits : ℚ) = 0 ∨ toInt (bits : ℚ) > kdf108KeyoutBitMax) := by
      unfold kdf108KeyoutBitMax
      rcases toInt_intCast_cases bits with h | h <;> omega
    have hlength : ¬(kdfMode = .counter ∧ counter ≠ 8 ∧ counter ≠ 16 ∧ counter ≠ 24 ∧
        counter ≠ 32) := by
      rintro ⟨hmode, hlengths⟩
      have hpos := hcount hmode
      omega
    simp only [readKdf108Group, readTgId, hname, hmacName, hlocName, need_some, hread, hmac, hloc,
      hbits, hcounter, hcounterInt, ok_bind, stopIf_neg hvalues.numbered, stopIf_neg hlimit,
      stopIf_neg hlength]
    rfl
  · refine ⟨by rw [hname, hregistered], by rw [hmacName, hmacValue], by rw [hlocName, hlocValue],
      ?_, ?_, hcounter⟩
    · intro hmid
      rw [hlocName, hmiddle.mp hmid]
    · intro hpos
      rw [hbits] at hpos ⊢
      have hbitsPos : 0 < bits := by exact_mod_cast hpos
      have hbitsInt : toInt (bits : ℚ) = bits := toInt_intCast (by omega) (by omega)
      have hbytes : (bits + 7).tdiv 8 = (bits + 7) / 8 := Int.tdiv_eq_ediv_of_nonneg (by omega)
      refine ⟨bits.toNat, ?_, ?_, by omega⟩
      · have hcast : ((bits.toNat : Int) : ℚ) = bits := by rw [Int.toNat_of_nonneg hbitsPos.le]
        exact_mod_cast hcast.symm
      · dsimp only
        rw [hbitsInt, hbytes]
        omega

/-! ### The tests of a group -/

/-- The variables while no initialization vector but the empty one was read. -/
def NoIv (vars : Kdf108Vars) : Prop := vars = none ∨ vars = some ("", 0)

/-- What is decoded of an initialization vector that is missing or empty. -/
theorem noIv_decoded {vars : Kdf108Vars} (h : NoIv vars) :
    onlyIf (Kdf108Vars.ivStr vars ≠ none)
      ((hexstrToBuffer (Kdf108Vars.ivStr vars) (Kdf108Vars.ivLen vars)).map some) none =
      (.ok (vars.map fun _ => ⟨0, []⟩) : Except AmvpResult (Option Buffer)) := by
  rcases h with rfl | rfl
  · rfl
  · rfl

/-- A test in feedback mode sets the variables, any other leaves them as they are. -/
theorem readKdf108Iv_of_processable {b : TestGroup} {read : Kdf108Group}
    (hmode : jsonObjectGetString b.head "kdfMode" = some "counter" ∧
        0 < jsonObjectGetNumber b.head "counterLength" ∨
      jsonObjectGetString b.head "kdfMode" = some "feedback" ∧
        ∀ t ∈ b.items, jsonObjectGetString t "iv" = some "")
    (hread : Kdf108GroupRead b.head read) {t : Option JsonObject} (ht : t ∈ b.items)
    {vars : Kdf108Vars} (hvars : NoIv vars) :
    ∃ vars', onlyIf (read.kdfMode = .feedback) (readKdf108Iv t) vars = .ok vars' ∧
      NoIv vars' ∧ (read.kdfMode = .feedback →
        vars' = some ("", 0) ∧ jsonObjectGetString t "iv" = some "") := by
  by_cases hfeedback : read.kdfMode = .feedback
  · have hempty : jsonObjectGetString t "iv" = some "" := by
      have hname := hread.mode
      rw [hfeedback] at hname
      rcases hmode with ⟨hcounter, -⟩ | ⟨-, hempty⟩
      · rw [hcounter] at hname
        exact absurd hname (by decide)
      · exact hempty t ht
    refine ⟨some ("", 0), ?_, .inr rfl, fun _ => ⟨rfl, hempty⟩⟩
    rw [onlyIf_pos hfeedback, readKdf108Iv, hempty]
    rfl
  · exact ⟨vars, onlyIf_neg hfeedback _ _, hvars, fun h => absurd h hfeedback⟩

/-- A test of a group that can be processed reaches the module with its values. -/
theorem readKdf108Test_of_processable {b : TestGroup} {read : Kdf108Group}
    (hb : Kdf108Processable b) (hread : Kdf108GroupRead b.head read) {t : Option JsonObject}
    (ht : t ∈ b.items) (hformed : Kdf108TestFormed b.head t) {vars : Kdf108Vars}
    (hvars : NoIv vars) :
    ∃ tc vars', readKdf108Test vars read t = .ok (tc, vars') ∧ NoIv vars' ∧
      Kdf108Delivered b.head t tc ∧ tc.keyOutLen ≤ kdf108KeyoutByteMax := by
  obtain ⟨keyIn, hkeyIn, hhex⟩ := hformed.keyIn
  obtain ⟨hpositive, hmode, hlengths⟩ := hb
  have hlength := hlengths t ht keyIn hkeyIn
  have hbytes := hexBytes_length hhex
  unfold kdf108KeyinStrMax at hlength
  have hstrnlen : strnlenS keyIn (kdf108KeyinStrMax + 1) = (cBytes keyIn).length := by
    unfold strnlenS kdf108KeyinStrMax
    omega
  have hhalf : (cBytes keyIn).length / 2 = (hexBytes keyIn).length := by omega
  have hshort : ¬(cBytes keyIn).length > kdf108KeyinStrMax := by
    unfold kdf108KeyinStrMax
    omega
  have hdecoded : hexstrToBin (some keyIn) (hexBytes keyIn).length = .ok (hexBytes keyIn) := by
    refine hexstrToBin_hex hhex (by omega) ?_
    unfold hexstrMax
    omega
  have hdeferred : ¬(jsonObjectGetBoolean t "deferred" = -1 ∧ read.ctrLoc = .middle) := by
    rintro ⟨hmissing, hmiddle⟩
    exact hformed.deferred (hread.middle hmiddle) hmissing
  have hitems : b.items ≠ [] := List.ne_nil_of_mem ht
  obtain ⟨bits, hbits, hkeyOut, hbitsMax⟩ := hread.keyOutLen (hpositive.2 hitems)
  have hsize : ¬read.keyOutLen < 0 := by omega
  have hlimit : read.keyOutLen ≤ kdf108KeyoutByteMax := by
    unfold kdf108KeyoutByteMax
    omega
  obtain ⟨vars', hvars', hnoIv, hset⟩ := readKdf108Iv_of_processable hmode hread ht hvars
  refine ⟨{
      tcId := readTcId t
      mode := read.kdfMode
      macMode := read.macMode
      counterLocation := read.ctrLoc
      keyIn := ⟨(hexBytes keyIn).length, hexBytes keyIn⟩
      keyOut := ⟨read.keyOutLen.toNat, []⟩
      fixedData := ⟨kdf108FixedDataByteMax, []⟩
      iv := vars'.map fun _ => ⟨0, []⟩
      keyInLen := (hexBytes keyIn).length
      keyOutLen := read.keyOutLen
      counterLen := read.ctrLen
      deferred := jsonObjectGetBoolean t "deferred" }, vars', ?_, hnoIv, ?_, hlimit⟩
  · simp only [readKdf108Test, hkeyIn, need_some, ok_bind, hstrnlen, stopIf_neg hshort, hvars',
      stopIf_neg hdeferred, kdf108InitTc, hhalf, hdecoded, noIv_decoded hnoIv, stopIf_neg hsize]
    rfl
  · refine ⟨rfl, hread.mode, hread.macMode, hread.location,
      ⟨bits, hbits, hkeyOut⟩, hread.counterLen, ?_, ?_, rfl⟩
    · rintro str ⟨hstr, -⟩
      rw [hkeyIn] at hstr
      cases hstr
      exact holds_hexBytes _ _
    · rintro hfeedback str ⟨hstr, -⟩
      have hread' : read.kdfMode = .feedback := by
        have hname := hread.mode
        rw [hfeedback] at hname
        cases hmode' : read.kdfMode with
        | feedback => rfl
        | counter | dpi | other => simp [hmode', Kdf108Mode.registeredName] at hname
      obtain ⟨rfl, hempty⟩ := hset hread'
      rw [hempty] at hstr
      cases hstr
      exact ⟨⟨0, []⟩, rfl, rfl, rfl⟩

/-! ### What the handler does not raise -/

/-- The mode and the lengths of a group that was read. -/
theorem values_of_readKdf108Group {group : Option JsonObject} {read : Kdf108Group}
    (hvalues : Kdf108Values group) (h : readKdf108Group group = .ok read) :
    jsonObjectGetNumber group "keyOutLength" ≠ 0 ∧
      (jsonObjectGetString group "kdfMode" = some "counter" ∧
          0 < jsonObjectGetNumber group "counterLength" ∨
        jsonObjectGetString group "kdfMode" = some "feedback") := by
  obtain ⟨bits, hbits, -⟩ := hvalues.keyOut
  obtain ⟨counter, hcounter, hint, -⟩ := hvalues.counter
  obtain ⟨name, hname, hnames⟩ := hvalues.mode
  simp only [readKdf108Group, bind_eq_ok, need_eq_ok, stopIf_eq_ok, exists_const, pure_eq_ok,
    hname, Option.some.injEq, exists_eq_left'] at h
  obtain ⟨tgId, -, kdfMode, hmode, -, -, -, -, hlimit, hlength, -⟩ := h
  constructor
  · intro hzero
    rw [hzero] at hlimit
    exact hlimit (.inl rfl)
  · rw [hname]
    rcases hnames with rfl | rfl | rfl
    · cases hmode
      refine .inl ⟨rfl, ?_⟩
      rw [hcounter, toInt_intCast hint.1 hint.2] at hlength
      rw [hcounter]
      have hpos : 0 < counter := by
        by_contra hneg
        exact hlength ⟨rfl, by omega, by omega, by omega, by omega⟩
      exact_mod_cast hpos
    · exact .inr rfl
    · cases hmode

/-- The length of the key of a test that was read, and the length that the module is given for
the initialization vector. -/
theorem lengths_of_readKdf108Test {vars vars' : Kdf108Vars} {group : Kdf108Group}
    {testobj : Option JsonObject} {tc : Kdf108Tc}
    (h : readKdf108Test vars group testobj = .ok (tc, vars')) :
    (∀ str, jsonObjectGetString testobj "keyIn" = some str →
      (cBytes str).length ≤ kdf108KeyinStrMax) ∧ tc.ivLen = 0 := by
  simp only [readKdf108Test, kdf108InitTc, bind_eq_ok, need_eq_ok, stopIf_eq_ok, exists_const,
    pure_eq_ok, Prod.mk.injEq] at h
  obtain ⟨keyIn, hkeyIn, hlength, -, -, -, tc', ⟨-, -, -, -, -, rfl⟩, rfl, -⟩ := h
  refine ⟨fun str hstr => ?_, rfl⟩
  rw [hkeyIn] at hstr
  cases hstr
  unfold strnlenS at hlength
  omega

/-! ### Vector sets -/

/-- The algorithm is registered under the name that its handler looks for. -/
theorem kdf108Registered_algorithm {caps : Caps} {reg : JsonObject}
    (h : Kdf108Registered caps reg) : jsonObjectGetString (some reg) "algorithm" = some "KDF" := by
  obtain ⟨entry, cap, -, -, hbuild⟩ := h
  unfold buildKdf108RegisterCap at hbuild
  cases hrevision : lookupCipherRevision entry.cipher with
  | none =>
      rw [hrevision] at hbuild
      cases hbuild
  | some revision =>
      rw [hrevision] at hbuild
      cases hbuild
      rw [jsonObjectGetString, jsonObjectGetValue_set_of_ne _ _ (by decide),
        jsonObjectGetValue_lookupPrereqVals (by decide)]
      simp [jsonObjectSetText, jsonObjectGetValue_set_of_ne, jsonValueGetString]

/-- A vector set within the registration is worked on. -/
theorem kdf108KatHandler_eq {ctx : KatCtx} {reg obj : JsonObject}
    (hreg : Kdf108Registered ctx.caps reg) (hwithin : Kdf108Within reg obj)
    (module : Partner Kdf108Tc) :
    kdf108KatHandler ctx obj module =
      ⟨(kdf108Loader.worker.result module (testGroups obj)).map (responseObject ctx.vsId "KDF"),
        kdf108Loader.worker.asked module (testGroups obj)⟩ := by
  have halgorithm := hwithin.algorithm
  rw [kdf108Registered_algorithm hreg] at halgorithm
  obtain ⟨entry, cap, hlocate, -⟩ := hreg
  have hsetup : kdf108Setup ctx (withoutMember obj "testGroups") = .ok "KDF" := by
    have hhead : jsonObjectGetString (some (withoutMember obj "testGroups")) "algorithm" =
        some "KDF" := by
      rw [jsonObjectGetString, jsonObjectGetValue_withoutMember obj (by decide)]
      exact halgorithm
    have hcipher : ¬lookupCipherIndex "KDF" ≠ some .kdf108 := by decide
    simp only [kdf108Setup, hhead, need_some, ok_bind, stopIf_neg hcipher, hlocate]
    rfl
  simp only [kdf108KatHandler, katHandler, hsetup]

/-- An answer within the limits can be written down. -/
theorem kdf108OutputTc_ok {tc : Kdf108Tc} (hkeyOut : tc.keyOutLen ≤ kdf108KeyoutByteMax)
    (hfixed : tc.fixedDataLen ≤ kdf108FixedDataByteMax) (tcRsp : JsonObject) :
    ∃ rsp, kdf108OutputTc tc tcRsp = .ok rsp := by
  unfold kdf108KeyoutByteMax at hkeyOut
  unfold kdf108FixedDataByteMax at hfixed
  have hkeyOutLimit : ¬tc.keyOutLen > kdf108KeyoutByteMax := by
    unfold kdf108KeyoutByteMax
    omega
  have hfixedLimit : ¬tc.fixedDataLen > kdf108FixedDataByteMax := by
    unfold kdf108FixedDataByteMax
    omega
  have hkeyOutStr : ¬2 * tc.keyOutLen > kdf108KeyoutStrMax := by
    unfold kdf108KeyoutStrMax
    omega
  have hfixedStr : ¬2 * tc.fixedDataLen > kdf108FixedDataStrMax := by
    unfold kdf108FixedDataStrMax
    omega
  simp only [kdf108OutputTc, binToHexstr, need_some, ok_bind, stopIf_neg hkeyOutLimit,
    stopIf_neg hfixedLimit, stopIf_neg hkeyOutStr, stopIf_neg hfixedStr]
  exact ⟨_, rfl⟩

/-- A module that leaves the lengths alone and reports no fixed data. -/
def kdf108PlainModule : Partner Kdf108Tc := .memoryless fun tc => (0, { tc with fixedDataLen := 0 })

/-- The plain module serves every question of the KBKDF. -/
theorem serves_kdf108PlainModule : Kdf108Serves kdf108PlainModule :=
  fun _ _ => ⟨rfl, rfl, by simp [kdf108PlainModule, Partner.memoryless]⟩

/-- Which vector sets within the registration the handler processes. -/
theorem kdf108_processes_iff {ctx : KatCtx} {reg obj : JsonObject} (hbuilt : Kdf108Built ctx.caps)
    (hreg : Kdf108Registered ctx.caps reg) (hwithin : Kdf108Within reg obj) :
    Kdf108Processes ctx obj ↔ ∀ b ∈ testGroups obj, Kdf108Processable b := by
  constructor
  · intro hprocesses b hb
    obtain ⟨⟨rsp, hrsp⟩, hasked⟩ := hprocesses kdf108PlainModule serves_kdf108PlainModule
    rw [kdf108KatHandler_eq hreg hwithin] at hrsp hasked
    obtain ⟨rs, hrs, -⟩ := map_eq_ok.mp hrsp
    obtain ⟨s, group, s', henter, hloads⟩ := Loader.loaded_of_result hrs hb
    have hvalues := (hwithin.groups b hb).values hbuilt hreg
    obtain ⟨hnonzero, hmode⟩ := values_of_readKdf108Group hvalues (kdf108_enter_ok henter).1
    -- Every test was loaded, and its test case has its values.
    have htest : ∀ t ∈ b.items, ∃ tc, Kdf108Delivered b.head t tc ∧ tc.ivLen = 0 := by
      intro t ht
      obtain ⟨place, hplace⟩ := Loader.exists_placed 0 hb ht
      obtain ⟨⟨⟨i, j⟩, tc⟩, hcall, -, hdelivered⟩ := Loader.exists_of_forall₂ hasked hplace
      refine ⟨tc, hdelivered, ?_⟩
      have hasks := Loader.asks_of_mem_asked hcall
      generalize testGroups obj = groups at hasks
      cases hasks with
      | intro _ _ _ hload => exact (lengths_of_readKdf108Test (kdf108_load_ok hload)).2
    refine ⟨⟨hnonzero, fun hitems => ?_⟩, ?_, fun t ht => ?_⟩
    · obtain ⟨t, ht⟩ := List.exists_mem_of_ne_nil _ hitems
      obtain ⟨tc, hdelivered, -⟩ := htest t ht
      obtain ⟨bits, hbits, -⟩ := hdelivered.keyOutLen
      rw [hbits] at hnonzero ⊢
      exact lt_of_le_of_ne (by positivity) hnonzero.symm
    · refine hmode.imp_right fun hfeedback => ⟨hfeedback, fun t ht => ?_⟩
      obtain ⟨tc, hdelivered, hivLen⟩ := htest t ht
      obtain ⟨str, hstr⟩ := ((hwithin.tests b hb) t ht).iv hfeedback
      obtain ⟨buffer, -, hlength, -⟩ := hdelivered.iv hfeedback str hstr
      have hbytes := hexBytes_length hstr.2
      have hnone : cBytes str = [] := List.length_eq_zero_iff.mp (by omega)
      rw [hstr.1, cBytes_eq_nil hnone]
    · obtain ⟨s₁, ⟨tc, sent⟩, s₂, hload⟩ := hloads t ht
      exact (lengths_of_readKdf108Test (kdf108_load_ok hload)).1
  · intro hall module hserves
    rw [kdf108KatHandler_eq hreg hwithin]
    have hserved : kdf108Loader.Served module fun head t tc =>
        Kdf108Delivered head t tc ∧ tc.keyOutLen ≤ kdf108KeyoutByteMax := by
      rintro head group t before tc ⟨-, hlimit⟩
      obtain ⟨hcode, hkeyOut, hfixed⟩ := hserves before tc
      rw [← hkeyOut] at hlimit
      exact ⟨hcode, kdf108OutputTc_ok hlimit hfixed _⟩
    have henter : ∀ b ∈ testGroups obj, ∀ vars, NoIv vars → ∃ group vars',
        kdf108Loader.enter vars b.head b.items.length = .ok (group, vars') ∧ NoIv vars' ∧
          ∀ t ∈ b.items, kdf108Loader.Loads NoIv (fun head t tc =>
            Kdf108Delivered head t tc ∧ tc.keyOutLen ≤ kdf108KeyoutByteMax) b.head group t := by
      intro b hb vars hvars
      have hvalues := (hwithin.groups b hb).values hbuilt hreg
      obtain ⟨group, hgroup, hread⟩ := readKdf108Group_of_processable hvalues (hall b hb)
      refine ⟨group, vars, by simp [kdf108Loader, hgroup, Except.map], hvars, ?_⟩
      intro t ht vars₁ hvars₁
      obtain ⟨tc, vars', htest, hvars', hdelivered, hlimit⟩ := readKdf108Test_of_processable
        (hall b hb) hread ht (hwithin.tests b hb t ht) hvars₁
      refine ⟨tc, vars', ?_, hvars', hdelivered, hlimit⟩
      simp [kdf108Loader, htest, Except.map]
    obtain ⟨⟨rs, hrs⟩, hasked⟩ := Loader.result_served hserved (.inl rfl) henter
    exact ⟨⟨_, by rw [hrs]; rfl⟩, hasked.imp fun _ _ _ h => h.1⟩

/-! ## ANSI X9.42 -/

/-- The name that is registered for a type of the derivation. -/
def X942Type.registeredName : X942Type → String
  | .der => "DER"
  | .concat => "concatenation"

/-- A field whose length, in bits, a list of the registration has. -/
def FieldWithin (reg : JsonObject) (list : String) (obj : Option JsonObject) (name : String) :
    Prop :=
  ∃ str, HexField obj name str ∧ ListsNumber reg list (4 * (cBytes str).length : Nat)

/-- A group within the registration. -/
structure X942GroupWithin (reg : JsonObject) (group : Option JsonObject) : Prop where
  numbered : toInt (jsonObjectGetNumber group "tgId") ≠ 0
  kdfType : StringWithin reg "kdfType" group "kdfType"
  hashAlg : StringWithin reg "hashAlg" group "hashAlg"
  oid : jsonObjectGetString group "kdfType" = some "DER" → ∃ str, HexField group "oid" str

/-- A test with fields of the lengths that are registered. -/
structure X942TestFormed (reg : JsonObject) (test : Option JsonObject) : Prop where
  numbered : toInt (jsonObjectGetNumber test "tcId") ≠ 0
  keyLen : NumberWithin reg "keyLen" test "keyLen"
  zz : FieldWithin reg "zzLen" test "zz"
  partyUInfo : FieldWithin reg "otherInfoLen" test "partyUInfo"
  partyVInfo : FieldWithin reg "otherInfoLen" test "partyVInfo"
  suppPubInfo : FieldWithin reg "suppInfoLen" test "suppPubInfo"
  suppPrivInfo : FieldWithin reg "suppInfoLen" test "suppPrivInfo"

/-- A vector set within the registration. -/
structure X942Within (reg obj : JsonObject) : Prop where
  algorithm : jsonObjectGetString (some obj) "algorithm" =
    jsonObjectGetString (some reg) "algorithm"
  mode : jsonObjectGetString (some obj) "mode" = jsonObjectGetString (some reg) "mode"
  given : jsonObjectGetArray (some obj) "testGroups" ≠ none
  groups : ∀ b ∈ testGroups obj, X942GroupWithin reg b.head
  tests : ∀ b ∈ testGroups obj, ∀ t ∈ b.items, X942TestFormed reg t

/-- A test case has the values whose names the group carries, and the fields of the group and
of the test with their lengths. -/
structure X942Delivered (group test : Option JsonObject) (tc : X942Tc) : Prop where
  tcId : tc.tcId = unsignedOfInt (toInt (jsonObjectGetNumber test "tcId"))
  type : some tc.type.registeredName = jsonObjectGetString group "kdfType"
  hashAlg : some tc.hashAlg.name = jsonObjectGetString group "hashAlg"
  keyLen : 8 * tc.keyLen = jsonObjectGetNumber test "keyLen"
  oid : ∀ str, HexField group "oid" str → Holds tc.oid tc.oidLen str
  zz : ∀ str, HexField test "zz" str → Holds tc.zz tc.zzLen str
  partyUInfo : ∀ str, HexField test "partyUInfo" str → Holds tc.partyUInfo tc.partyULen str
  partyVInfo : ∀ str, HexField test "partyVInfo" str → Holds tc.partyVInfo tc.partyVLen str
  suppPubInfo : ∀ str, HexField test "suppPubInfo" str → Holds tc.suppPubInfo tc.suppPubLen str
  suppPrivInfo : ∀ str, HexField test "suppPrivInfo" str →
    Holds tc.suppPrivInfo tc.suppPrivLen str

/-- A module that derives keys of the length it is asked for. -/
def X942Serves (module : Partner X942Tc) : Prop :=
  ∀ before tc, (module before tc).1 = 0 ∧ (module before tc).2.keyLen = tc.keyLen ∧
    (module before tc).2.dkmLen = tc.keyLen

/-- The handler raises no error, and every test reaches the module with its values. -/
def X942Processes (ctx : KatCtx) (obj : JsonObject) : Prop :=
  ∀ module, X942Serves module →
    (∃ rsp, (x942KatHandler ctx obj module).result = .ok rsp) ∧
      Loader.AskedAbout X942Delivered (Loader.placed 0 (testGroups obj))
        (x942KatHandler ctx obj module).calls

/-- A group with tests that derives keys of whole bytes by DER encoding, with an object
identifier that is not too long. -/
def X942Processable (b : TestGroup) : Prop :=
  b.items ≠ [] ∧ jsonObjectGetString b.head "kdfType" = some "DER" ∧
    (∀ str, jsonObjectGetString b.head "oid" = some str → (cBytes str).length ≤ kdf135X942StrMax) ∧
    ∀ t ∈ b.items, ∃ bytes : Nat, 0 < bytes ∧ jsonObjectGetNumber t "keyLen" = (8 * bytes : Nat)

/-- What is registered for the capability of a context. -/
def X942Registered (caps : Caps) (reg : JsonObject) : Prop :=
  ∃ entry cap, caps.locate .kdf135X942 = some entry ∧
    caps.content .kdf135X942 .kdf135X942Cap = some cap ∧
    buildKdf135X942RegisterCap [] entry cap = .ok reg

/-! ### What is registered -/

/-- The members of a registration that its capability fixes. -/
structure X942Members (cap : Kdf135X942Cap) (types : List String) (reg : JsonObject) : Prop where
  algorithm : jsonObjectGetValue (some reg) "algorithm" = some (.str "kdf-components")
  mode : jsonObjectGetValue (some reg) "mode" = some (.str "ansix9.42")
  kdfType : jsonObjectGetValue (some reg) "kdfType" = some (.arr (types.map .str))
  keyLen : jsonObjectGetValue (some reg) "keyLen" = some (.arr [rangeObject cap.keyLen])
  otherLen : jsonObjectGetValue (some reg) "otherInfoLen" = some (.arr [rangeObject cap.otherLen])
  suppLen : jsonObjectGetValue (some reg) "suppInfoLen" = some (.arr [rangeObject cap.suppLen])
  zzLen : jsonObjectGetValue (some reg) "zzLen" = some (.arr [rangeObject cap.zzLen])
  hashAlgs : jsonObjectGetValue (some reg) "hashAlg" = some (.arr (cap.hashAlgs.map .str))

/-- What the registration of the X9.42 KDF contains. -/
theorem buildKdf135X942RegisterCap_members {entry : CapsEntry} {cap : Kdf135X942Cap}
    {types : List String} {reg : JsonObject} (htypes : x942KdfTypes cap.type = some types)
    (hbuild : buildKdf135X942RegisterCap [] entry cap = .ok reg) : X942Members cap types reg := by
  have hoid : ∀ name obj, name ≠ "oid" →
      jsonObjectGetValue (some (if cap.type = 0 ∨ cap.type = 2 then
        jsonObjectSetValue obj "oid" (.arr (cap.oids.map .str)) else obj)) name =
      jsonObjectGetValue (some obj) name := by
    intro name obj hname
    split
    · exact jsonObjectGetValue_set_of_ne obj _ hname
    · rfl
  unfold buildKdf135X942RegisterCap at hbuild
  cases hrevision : lookupCipherRevision entry.cipher with
  | none =>
      rw [hrevision] at hbuild
      cases hbuild
  | some revision =>
      simp only [hrevision, htypes] at hbuild
      cases hbuild
      constructor <;> rw [hoid _ _ (by decide)] <;>
        simp [jsonObjectSetText, jsonObjectGetValue_set_of_ne,
          jsonObjectGetValue_lookupPrereqVals]

/-- What is registered for a capability that calls have built. -/
theorem x942Registered_members {caps : Caps} {reg : JsonObject} (hbuilt : X942Built caps)
    (hreg : X942Registered caps reg) :
    ∃ cap types, cap.Registrable ∧ (types = ["DER"] ∨ types = ["concatenation"]) ∧
      X942Members cap types reg := by
  obtain ⟨entry, cap, -, hcap, hbuild⟩ := hreg
  obtain ⟨cap', hcap', hregistrable⟩ := hbuilt.content
  rw [hcap] at hcap'
  cases hcap'
  rcases hregistrable.type with htype | htype
  · have htypes : x942KdfTypes cap.type = some ["DER"] := by
      rw [htype]
      rfl
    exact ⟨cap, _, hregistrable, .inl rfl, buildKdf135X942RegisterCap_members htypes hbuild⟩
  · have htypes : x942KdfTypes cap.type = some ["concatenation"] := by
      rw [htype]
      rfl
    exact ⟨cap, _, hregistrable, .inr rfl, buildKdf135X942RegisterCap_members htypes hbuild⟩

/-- The name of a registered hash is found in the handler's table. -/
theorem lookupHashAlg_registered {name : String} (h : ∃ value, lookupHashAlgName value = some name) :
    ∃ alg, lookupHashAlg name = some alg ∧ alg.name = name := by
  obtain ⟨value, hvalue⟩ := h
  obtain ⟨alg, -, rfl⟩ := Option.map_eq_some_iff.mp hvalue
  exact ⟨alg, by cases alg <;> rfl, rfl⟩

/-- A field with a length of a range is not too long to be read. -/
theorem FieldWithin.read {reg : JsonObject} {list : String} {obj : Option JsonObject}
    {name : String} {d : Domain} (h : FieldWithin reg list obj name)
    (hlist : jsonObjectGetValue (some reg) list = some (.arr [rangeObject d]))
    (hd : d.WithinX942) :
    ∃ str, HexField obj name str ∧ readString obj name kdf135X942StrMax = .ok str ∧
      hexstrToBin (some str) kdf135X942ByteMax = .ok (hexBytes str) := by
  obtain ⟨str, hstr, hlisted⟩ := h
  obtain ⟨n, hn, -, hhigh, -⟩ := (listsNumber_range_iff hlist).mp hlisted
  have hlength : (4 * (cBytes str).length : Nat) = n := by exact_mod_cast hn
  have hmax := hd.2
  refine ⟨str, hstr, ?_, ?_⟩
  · have hshort : ¬strnlenS str (kdf135X942StrMax + 1) > kdf135X942StrMax := by
      unfold strnlenS kdf135X942StrMax
      omega
    simp only [readString, hstr.1, need_some, ok_bind, stopIf_neg hshort]
    rfl
  · refine hexstrToBin_hex hstr.2 ?_ ?_
    · unfold kdf135X942ByteMax
      omega
    · unfold kdf135X942ByteMax hexstrMax
      omega

/-- What the fields of a test are, read and decoded. -/
theorem HexField.holds {obj : Option JsonObject} {name str str' : String} (h : HexField obj name str)
    (h' : HexField obj name str') :
    Holds ⟨kdf135X942ByteMax, hexBytes str⟩ (hexBytes str).length str' := by
  have heq : str' = str := by
    rw [← Option.some.injEq, ← h.1, ← h'.1]
  rw [heq]
  exact holds_hexBytes _ _

/-- A group that can be processed is read as it was registered. -/
theorem readX942Group_of_processable {caps : Caps} {reg : JsonObject} (hbuilt : X942Built caps)
    (hreg : X942Registered caps reg) {b : TestGroup} (hwithin : X942GroupWithin reg b.head)
    (hb : X942Processable b) :
    ∃ alg oid, readX942Group b.head b.items.length =
        .ok ⟨toInt (jsonObjectGetNumber b.head "tgId"), .der, alg, oid⟩ ∧
      some alg.name = jsonObjectGetString b.head "hashAlg" ∧ HexField b.head "oid" oid := by
  obtain ⟨cap, types, hcap, -, hmembers⟩ := x942Registered_members hbuilt hreg
  obtain ⟨hitems, htype, -, -⟩ := hb
  obtain ⟨name, hname, hlisted⟩ := hwithin.hashAlg
  obtain ⟨alg, halg, halgName⟩ :=
    lookupHashAlg_registered (hcap.hashAlgs name ((listsString_iff hmembers.hashAlgs).mp hlisted))
  obtain ⟨oid, hoid⟩ := hwithin.oid htype
  have hder : readX942Type "DER" = some .der := by decide
  have hsome : ¬b.items.length = 0 := by rwa [List.length_eq_zero_iff]
  refine ⟨alg, oid, ?_, by rw [hname, halgName], hoid⟩
  simp only [readX942Group, readTgId, stopIf_neg hwithin.numbered, htype, hname, hoid.1, need_some,
    ok_bind, hder, halg, stopIf_neg hsome]
  rfl

/-- A test of a group that can be processed reaches the module with its values. -/
theorem readX942Test_of_processable {caps : Caps} {reg : JsonObject} (hbuilt : X942Built caps)
    (hreg : X942Registered caps reg) {b : TestGroup} (hb : X942Processable b) {alg : HashAlg}
    {oid : String} (halg : some alg.name = jsonObjectGetString b.head "hashAlg")
    (hoid : HexField b.head "oid" oid) (tgId : Int) {t : Option JsonObject} (ht : t ∈ b.items)
    (hformed : X942TestFormed reg t) :
    ∃ tc, readX942Test ⟨tgId, .der, alg, oid⟩ t = .ok tc ∧ X942Delivered b.head t tc ∧
      tc.keyLen ≤ kdf135X942ByteMax := by
  obtain ⟨cap, types, hcap, -, hmembers⟩ := x942Registered_members hbuilt hreg
  obtain ⟨-, htype, hoidLength, hbytes⟩ := hb
  obtain ⟨bytes, hpos, hnumber⟩ := hbytes t ht
  obtain ⟨zz, hzzField, hzzRead, hzzBin⟩ := hformed.zz.read hmembers.zzLen hcap.zzLen
  obtain ⟨partyU, huField, huRead, huBin⟩ := hformed.partyUInfo.read hmembers.otherLen hcap.otherLen
  obtain ⟨partyV, hvField, hvRead, hvBin⟩ := hformed.partyVInfo.read hmembers.otherLen hcap.otherLen
  obtain ⟨suppPub, hpubField, hpubRead, hpubBin⟩ :=
    hformed.suppPubInfo.read hmembers.suppLen hcap.suppLen
  obtain ⟨suppPriv, hprivField, hprivRead, hprivBin⟩ :=
    hformed.suppPrivInfo.read hmembers.suppLen hcap.suppLen
  have hoidBin : hexstrToBin (some oid) kdf135X942ByteMax = .ok (hexBytes oid) := by
    have hlength := hoidLength oid hoid.1
    unfold kdf135X942StrMax at hlength
    refine hexstrToBin_hex hoid.2 ?_ ?_
    · unfold kdf135X942ByteMax
      omega
    · unfold kdf135X942ByteMax hexstrMax
      omega
  have hmax : 8 * bytes ≤ 4096 := by
    obtain ⟨q, hq, hlisted⟩ := hformed.keyLen
    obtain ⟨n, rfl, -, hhigh, -⟩ := (listsNumber_range_iff hmembers.keyLen).mp hlisted
    have hn : (n : ℚ) = (8 * bytes : Nat) := by
      rw [← hnumber]
      simp [jsonObjectGetNumber, hq, jsonValueGetNumber]
    have hn' : n = (8 * bytes : Nat) := by exact_mod_cast hn
    have hlimit := hcap.keyLen.2
    omega
  have hbits : toInt (jsonObjectGetNumber t "keyLen") = 8 * bytes := by
    have hcast : ((8 * bytes : Nat) : ℚ) = ((8 * bytes : Int) : ℚ) := by push_cast; rfl
    rw [hnumber, hcast]
    exact toInt_intCast (by omega) (by omega)
  have hdiv : (8 * (bytes : Int)).tdiv 8 = bytes := Int.mul_tdiv_cancel_left _ (by decide)
  have hzero : ¬(8 * (bytes : Int) = 0) := by omega
  have hrange : ¬(8 * (bytes : Int) < 1 ∨ 8 * (bytes : Int) > kdf135X942BitMax) := by
    unfold kdf135X942BitMax
    omega
  refine ⟨{
      tcId := unsignedOfInt (toInt (jsonObjectGetNumber t "tcId"))
      hashAlg := alg
      type := .der
      oid := ⟨kdf135X942ByteMax, hexBytes oid⟩
      zz := ⟨kdf135X942ByteMax, hexBytes zz⟩
      partyUInfo := ⟨kdf135X942ByteMax, hexBytes partyU⟩
      partyVInfo := ⟨kdf135X942ByteMax, hexBytes partyV⟩
      suppPubInfo := ⟨kdf135X942ByteMax, hexBytes suppPub⟩
      suppPrivInfo := ⟨kdf135X942ByteMax, hexBytes suppPriv⟩
      keyLen := bytes
      oidLen := (hexBytes oid).length
      zzLen := (hexBytes zz).length
      partyULen := (hexBytes partyU).length
      partyVLen := (hexBytes partyV).length
      suppPubLen := (hexBytes suppPub).length
      suppPrivLen := (hexBytes suppPriv).length }, ?_, ?_, ?_⟩
  · simp only [readX942Test, stopIf_neg hformed.numbered, ok_bind, hzzRead, hbits,
      stopIf_neg hzero, stopIf_neg hrange, huRead, hvRead, hpubRead, hprivRead, x942InitTc, hoidBin,
      hzzBin, huBin, hvBin, hpubBin, hprivBin, hdiv]
    rfl
  · refine ⟨rfl, htype.symm, halg, ?_, fun _ h => hoid.holds h, fun _ h => hzzField.holds h,
      fun _ h => huField.holds h, fun _ h => hvField.holds h, fun _ h => hpubField.holds h,
      fun _ h => hprivField.holds h⟩
    rw [hnumber]
    push_cast
    rfl
  · unfold kdf135X942ByteMax
    dsimp only
    omega

/-- Entering a group of the X9.42 handler reads it. -/
theorem x942_enter_ok {vars vars' : Unit} {groupobj : Option JsonObject} {n : Nat}
    {group : X942Group} (h : x942Loader.enter vars groupobj n = .ok (group, vars')) :
    readX942Group groupobj n = .ok group := by
  simp only [x942Loader, map_eq_ok, Prod.mk.injEq] at h
  obtain ⟨group', hread, rfl, -⟩ := h
  exact hread

/-- Loading a test of the X9.42 handler reads it. -/
theorem x942_load_ok {vars vars' : Unit} {group : X942Group} {testobj : Option JsonObject}
    {draft : Draft X942Tc} (h : x942Loader.load vars group testobj = .ok (draft, vars')) :
    readX942Test group testobj = .ok draft.question := by
  simp only [x942Loader, map_eq_ok, Prod.mk.injEq] at h
  obtain ⟨tc, hread, rfl, -⟩ := h
  exact hread

/-- A group within the registration that was read has tests and derives by DER encoding. -/
theorem values_of_readX942Group {caps : Caps} {reg : JsonObject} (hbuilt : X942Built caps)
    (hreg : X942Registered caps reg) {groupobj : Option JsonObject} {n : Nat} {group : X942Group}
    (hwithin : X942GroupWithin reg groupobj) (h : readX942Group groupobj n = .ok group) :
    n ≠ 0 ∧ jsonObjectGetString groupobj "kdfType" = some "DER" ∧
      jsonObjectGetString groupobj "oid" = some group.oid := by
  obtain ⟨cap, types, -, hnames, hmembers⟩ := x942Registered_members hbuilt hreg
  obtain ⟨name, hname, hlisted⟩ := hwithin.kdfType
  have hmem := (listsString_iff hmembers.kdfType).mp hlisted
  simp only [readX942Group, bind_eq_ok, need_eq_ok, stopIf_eq_ok, exists_const, pure_eq_ok, hname,
    Option.some.injEq, exists_eq_left'] at h
  obtain ⟨tgId, -, kdfType, htype, -, -, -, -, oid, hoid, hsome, rfl⟩ := h
  refine ⟨hsome, ?_, hoid⟩
  rcases hnames with rfl | rfl
  · rw [hname, List.mem_singleton.mp hmem]
  · have hnone : readX942Type "concatenation" = none := by decide
    rw [List.mem_singleton.mp hmem, hnone] at htype
    cases htype

/-- The length of the key of a test that was read, and of the object identifier. -/
theorem lengths_of_readX942Test {group : X942Group} {testobj : Option JsonObject} {tc : X942Tc}
    (h : readX942Test group testobj = .ok tc) :
    1 ≤ toInt (jsonObjectGetNumber testobj "keyLen") ∧
      (cBytes group.oid).length ≤ kdf135X942StrMax := by
  simp only [readX942Test, x942InitTc, bind_eq_ok, stopIf_eq_ok, exists_const] at h
  obtain ⟨-, zz, -, -, hrange, -, -, -, -, -, -, -, -, oidData, hoid, -⟩ := h
  refine ⟨by omega, ?_⟩
  simp only [hexstrToBin, bind_eq_ok, need_eq_ok, Option.some.injEq, exists_eq_left',
    stopIf_eq_ok, exists_const] at hoid
  have hlength := hoid.1
  unfold strnlenS hexstrMax kdf135X942ByteMax at hlength
  unfold kdf135X942StrMax
  omega

/-- A vector set within the registration is worked on. -/
theorem x942KatHandler_eq {ctx : KatCtx} {reg obj : JsonObject} (hbuilt : X942Built ctx.caps)
    (hreg : X942Registered ctx.caps reg) (hwithin : X942Within reg obj)
    (module : Partner X942Tc) :
    ∃ response, x942KatHandler ctx obj module =
      ⟨(x942Loader.worker.result module (testGroups obj)).map response,
        x942Loader.worker.asked module (testGroups obj)⟩ := by
  obtain ⟨cap, types, -, -, hmembers⟩ := x942Registered_members hbuilt hreg
  obtain ⟨entry, cap', hlocate, -⟩ := hreg
  have hhead : ∀ {name str}, name ≠ "testGroups" →
      jsonObjectGetString (some obj) name = jsonObjectGetString (some reg) name →
      jsonObjectGetValue (some reg) name = some (.str str) →
      jsonObjectGetString (some (withoutMember obj "testGroups")) name = some str := by
    intro name str hname hsame hmember
    have hstr : jsonObjectGetString (some reg) name = some str := by
      rw [jsonObjectGetString, hmember]
      rfl
    rw [jsonObjectGetString, jsonObjectGetValue_withoutMember obj hname]
    exact hsame.trans hstr
  have hsetup : setupWithMode ctx .kdf135X942 .missingArg (withoutMember obj "testGroups") =
      .ok "kdf-components" := by
    have hcipher : ¬lookupCipherWModeIndex "kdf-components" (some "ansix9.42") ≠
        some .kdf135X942 := by decide
    simp only [setupWithMode, hhead (by decide) hwithin.algorithm hmembers.algorithm,
      hhead (by decide) hwithin.mode hmembers.mode, need_some, ok_bind, stopIf_neg hcipher, hlocate]
    rfl
  obtain ⟨groups, hgroups⟩ := Option.ne_none_iff_exists'.mp hwithin.given
  simp only [x942KatHandler, katHandler, hsetup, hgroups]
  exact ⟨_, rfl⟩

/-- A module that derives a key of the length it is asked for. -/
def x942PlainModule : Partner X942Tc := .memoryless fun tc => (0, { tc with dkmLen := tc.keyLen })

/-- The plain module serves every question of the X9.42 KDF. -/
theorem serves_x942PlainModule : X942Serves x942PlainModule := fun _ _ => ⟨rfl, rfl, rfl⟩

/-- An answer within the limits can be written down. -/
theorem x942OutputTc_ok {tc : X942Tc} (hdkm : tc.dkmLen = tc.keyLen)
    (hlimit : tc.keyLen ≤ kdf135X942ByteMax) (tcRsp : JsonObject) :
    ∃ rsp, x942OutputTc tc tcRsp = .ok rsp := by
  have hsame : ¬tc.dkmLen ≠ tc.keyLen := not_not.mpr hdkm
  have hstr : ¬2 * tc.dkmLen > kdf135X942StrMax := by
    unfold kdf135X942ByteMax at hlimit
    unfold kdf135X942StrMax
    omega
  simp only [x942OutputTc, binToHexstr, need_some, ok_bind, stopIf_neg hsame, stopIf_neg hstr]
  exact ⟨_, rfl⟩

/-- Which vector sets within the registration the handler processes. -/
theorem x942_processes_iff {ctx : KatCtx} {reg obj : JsonObject} (hbuilt : X942Built ctx.caps)
    (hreg : X942Registered ctx.caps reg) (hwithin : X942Within reg obj) :
    X942Processes ctx obj ↔ ∀ b ∈ testGroups obj, X942Processable b := by
  constructor
  · intro hprocesses b hb
    obtain ⟨⟨rsp, hrsp⟩, hasked⟩ := hprocesses x942PlainModule serves_x942PlainModule
    obtain ⟨response, hrun⟩ := x942KatHandler_eq hbuilt hreg hwithin x942PlainModule
    rw [hrun] at hrsp hasked
    obtain ⟨rs, hrs, -⟩ := map_eq_ok.mp hrsp
    obtain ⟨s, group, s', henter, hloads⟩ := Loader.loaded_of_result hrs hb
    obtain ⟨hsome, htype, hoid⟩ :=
      values_of_readX942Group hbuilt hreg (hwithin.groups b hb) (x942_enter_ok henter)
    have hitems : b.items ≠ [] := fun hnil => hsome (by rw [hnil]; rfl)
    have hlengths : ∀ t ∈ b.items, 1 ≤ toInt (jsonObjectGetNumber t "keyLen") ∧
        (cBytes group.oid).length ≤ kdf135X942StrMax := by
      intro t ht
      obtain ⟨s₁, draft, s₂, hload⟩ := hloads t ht
      exact lengths_of_readX942Test (x942_load_ok hload)
    refine ⟨hitems, htype, fun str hstr => ?_, fun t ht => ?_⟩
    · obtain ⟨t, ht⟩ := List.exists_mem_of_ne_nil _ hitems
      rw [hoid] at hstr
      cases hstr
      exact (hlengths t ht).2
    · obtain ⟨place, hplace⟩ := Loader.exists_placed 0 hb ht
      obtain ⟨call, -, -, hdelivered⟩ := Loader.exists_of_forall₂ hasked hplace
      have hkeyLen := hdelivered.keyLen
      have hpositive := (hlengths t ht).1
      have hcast : jsonObjectGetNumber t "keyLen" = ((8 * call.2.keyLen : Int) : ℚ) := by
        rw [← hkeyLen]
        push_cast
        rfl
      rw [hcast] at hpositive
      have hpos : 0 < call.2.keyLen := by
        rcases toInt_intCast_cases (8 * call.2.keyLen) with h | h <;> omega
      refine ⟨call.2.keyLen.toNat, by omega, ?_⟩
      rw [hcast]
      have hnat : ((8 * call.2.keyLen.toNat : Nat) : Int) = 8 * call.2.keyLen := by omega
      rw [← hnat]
      push_cast
      rfl
  · intro hall module hserves
    obtain ⟨response, hrun⟩ := x942KatHandler_eq hbuilt hreg hwithin module
    rw [hrun]
    have hserved : x942Loader.Served module fun head t tc =>
        X942Delivered head t tc ∧ tc.keyLen ≤ kdf135X942ByteMax := by
      rintro head group t before tc ⟨-, hlimit⟩
      obtain ⟨hcode, hkeyLen, hdkm⟩ := hserves before tc
      refine ⟨hcode, x942OutputTc_ok ?_ ?_ _⟩
      · rw [hdkm, hkeyLen]
      · rwa [hkeyLen]
    have henter : ∀ b ∈ testGroups obj, ∀ s : Unit, True → ∃ group s',
        x942Loader.enter s b.head b.items.length = .ok (group, s') ∧ True ∧
          ∀ t ∈ b.items, x942Loader.Loads (fun _ => True) (fun head t tc =>
            X942Delivered head t tc ∧ tc.keyLen ≤ kdf135X942ByteMax) b.head group t := by
      intro b hb s _
      obtain ⟨alg, oid, hgroup, halg, hoid⟩ :=
        readX942Group_of_processable hbuilt hreg (hwithin.groups b hb) (hall b hb)
      have hentered : x942Loader.enter s b.head b.items.length =
          .ok (⟨toInt (jsonObjectGetNumber b.head "tgId"), .der, alg, oid⟩, ()) := by
        simp only [x942Loader, hgroup, Except.map]
      refine ⟨_, (), hentered, trivial, ?_⟩
      intro t ht s₁ _
      obtain ⟨tc, htest, hdelivered, hlimit⟩ := readX942Test_of_processable hbuilt hreg (hall b hb)
        halg hoid (toInt (jsonObjectGetNumber b.head "tgId")) ht (hwithin.tests b hb t ht)
      refine ⟨tc, (), ?_, trivial, hdelivered, hlimit⟩
      simp only [x942Loader, htest, Except.map]
    obtain ⟨⟨rs, hrs⟩, hasked⟩ := Loader.result_served hserved trivial henter
    exact ⟨⟨_, by rw [hrs]; rfl⟩, hasked.imp fun _ _ _ h => h.1⟩

/-- Which vector sets within their registrations the two handlers process. -/
theorem kdfs_process_iff (ctx : KatCtx) (reg obj : JsonObject) :
    (Kdf108Built ctx.caps → Kdf108Registered ctx.caps reg → Kdf108Within reg obj →
      (Kdf108Processes ctx obj ↔ ∀ b ∈ testGroups obj, Kdf108Processable b)) ∧
    (X942Built ctx.caps → X942Registered ctx.caps reg → X942Within reg obj →
      (X942Processes ctx obj ↔ ∀ b ∈ testGroups obj, X942Processable b)) :=
  ⟨kdf108_processes_iff, x942_processes_iff⟩

/-! ## Four vector sets -/

/-- A context with this capability for SP 800-108. -/
def kdf108Caps (cap : Kdf108Cap) : Caps where
  capsList := [{ cipher := .kdf108, capType := .kdf108, cap := cap, cryptoHandler := ⟨0⟩ }]
  vsCount := 1

/-- A mode with one value of each kind. -/
def oneValue (kdfMode : String) : Kdf108ModeParams where
  kdfMode := some kdfMode
  macMode := ["HMAC-SHA-1"]
  supportedLens := { values := [128] }
  dataOrder := ["none"]
  counterLens := [8]

/-- What is registered for a capability without prerequisites. -/
def kdf108Reg (cap : Kdf108Cap) : JsonObject :=
  [("algorithm", .str "KDF"), ("revision", .str "1.0"),
    ("capabilities", .arr (kdf108ModeObject "counter" cap.counterMode ++
      kdf108ModeObject "feedback" cap.feedbackMode ++ kdf108ModeObject "dpi" cap.dpiMode))]

/-- The example's registration is what the builder makes. -/
theorem registered_kdf108Reg (cap : Kdf108Cap) :
    Kdf108Registered (kdf108Caps cap) (kdf108Reg cap) :=
  ⟨_, cap, rfl, rfl, rfl⟩

/-- A vector set with one test in this mode. -/
def kdf108VectorSet (kdfMode : String) : JsonObject :=
  [("algorithm", .str "KDF"), ("testGroups", .arr [.obj [("tgId", .num 1), ("kdfMode", .str kdfMode),
    ("macMode", .str "HMAC-SHA-1"), ("keyOutLength", .num (128 : Int)),
    ("counterLength", .num (8 : Int)), ("counterLocation", .str "none"),
    ("tests", .arr [.obj [("tcId", .num 1), ("keyIn", .str "00")]])]])]

/-- The head of its group. -/
def kdf108GroupHead (kdfMode : String) : JsonObject :=
  [("tgId", .num 1), ("kdfMode", .str kdfMode), ("macMode", .str "HMAC-SHA-1"),
    ("keyOutLength", .num (128 : Int)), ("counterLength", .num (8 : Int)),
    ("counterLocation", .str "none")]

/-- The example's vector set has one group with one test. -/
theorem testGroups_kdf108VectorSet (kdfMode : String) :
    testGroups (kdf108VectorSet kdfMode) =
      [⟨some (kdf108GroupHead kdfMode), [some [("tcId", .num 1), ("keyIn", .str "00")]]⟩] :=
  rfl

/-- Two digits are a text of digits. -/
theorem isHexString_zero : IsHexString "00" := by
  have hbytes : cBytes "00" = [48, 48] := by decide
  rw [IsHexString, hbytes]
  exact ⟨by simp [IsHexDigit], rfl⟩

/-- So is the empty text. -/
theorem isHexString_empty : IsHexString "" := ⟨nofun, rfl⟩

/-- The vector set is within a registration of its mode. -/
theorem within_kdf108VectorSet {kdfMode name : String} {reg : JsonObject}
    (hmode : kdfMode ≠ "feedback")
    (halgorithm : jsonObjectGetString (some reg) "algorithm" = some "KDF")
    (hspec : .obj (buildKdf108ModeRegister (jsonObjectSetText [] "kdfMode" (some kdfMode))
      (oneValue name)) ∈ jsonArrayElems (jsonObjectGetArray (some reg) "capabilities")) :
    Kdf108Within reg (kdf108VectorSet kdfMode) := by
  obtain ⟨hkdfMode, hmac, hlengths, hlocation, hcounter⟩ :=
    buildKdf108ModeRegister_members kdfMode (oneValue name)
  refine ⟨halgorithm.symm, ?_, ?_⟩
  · rw [testGroups_kdf108VectorSet, List.forall_mem_singleton]
    have hnumbered : toInt (1 : ℚ) ≠ 0 := by decide
    refine ⟨hnumbered, _, hspec, ⟨kdfMode, rfl, ?_⟩, ?_, ?_, ?_, ?_⟩
    · rw [jsonObjectGetString, hkdfMode]
      rfl
    · exact ⟨"HMAC-SHA-1", rfl, (listsString_iff hmac).mpr (by simp [oneValue])⟩
    · exact ⟨(128 : Int), rfl, (listsNumber_values_iff hlengths).mpr ⟨128, by simp [oneValue], rfl⟩⟩
    · exact ⟨(8 : Int), rfl, (listsNumber_values_iff hcounter).mpr ⟨8, by simp [oneValue], rfl⟩⟩
    · exact ⟨"none", rfl, (listsString_iff hlocation).mpr (by simp [oneValue])⟩
  · rw [testGroups_kdf108VectorSet, List.forall_mem_singleton, List.forall_mem_singleton]
    refine ⟨⟨"00", rfl, isHexString_zero⟩, fun hfeedback => ?_, fun hmiddle => ?_⟩
    · exact absurd (Option.some.inj hfeedback) hmode
    · exact absurd (Option.some.inj hmiddle) (by decide)

/-- Four calls that register one value of each kind for a mode. -/
theorem kdf108Built_of_calls (mode : Kdf108Mode) {s s₁ s₂ s₃ s₄ : Caps} (hs : Kdf108Built s)
    (hmac : (CapCall.kdf108SetParm mode .macMode 5).exec s = .ok (.success, s₁))
    (hlength : (CapCall.kdf108SetParm mode .supportedLen 128).exec s₁ = .ok (.success, s₂))
    (horder : (CapCall.kdf108SetParm mode .fixedDataOrder 1).exec s₂ = .ok (.success, s₃))
    (hcounter : (CapCall.kdf108SetParm mode .counterLen 8).exec s₃ = .ok (.success, s₄)) :
    Kdf108Built s₄ := by
  have h₁ := Kdf108Built.setParm hs (by decide) hmac
  have h₂ := Kdf108Built.setParm h₁ (by decide) hlength
  have h₃ := Kdf108Built.setParm h₂ (by decide) horder
  exact .setParm h₃ (by decide) hcounter

/-- A capability with one value of each kind for two modes. -/
def twoModes : Kdf108Cap where
  counterMode := oneValue "counter"
  dpiMode := oneValue "double pipeline iteration"

/-- The example's two modes are built by calls that succeed. -/
theorem kdf108Built_twoModes : Kdf108Built (kdf108Caps twoModes) := by
  have hnew : (CapCall.kdf108Enable (some ⟨0⟩)).exec {} = .ok (.success, kdf108Caps {}) := rfl
  have hcounter : Kdf108Built (kdf108Caps { counterMode := oneValue "counter" }) :=
    kdf108Built_of_calls .counter (.enable hnew) rfl rfl rfl rfl
  exact kdf108Built_of_calls .dpi hcounter rfl rfl rfl rfl

/-- A context with this capability for ANSI X9.42. -/
def x942Caps (cap : Kdf135X942Cap) : Caps where
  capsList := [{ cipher := .kdf135X942, capType := .kdf135X942, cap := cap, cryptoHandler := ⟨0⟩ }]
  vsCount := 1

/-- A capability with one value of each kind for a type of the derivation. -/
def oneType (type : Int) : Kdf135X942Cap where
  type := type
  keyLen := { min := 128, max := 128, increment := 8 }
  zzLen := { min := 8, max := 8, increment := 8 }
  hashAlgs := ["SHA-1"]

/-- Four calls that register one value of each kind for a type. -/
theorem x942Built_of_calls (type : Int) {s s₁ s₂ s₃ s₄ : Caps} (hs : X942Built s)
    (hhash : (CapCall.kdf135X942SetParm .hashAlg 1).exec s = .ok (.success, s₁))
    (hkey : (CapCall.kdf135X942SetDomain .keyLen 128 128 8).exec s₁ = .ok (.success, s₂))
    (hzz : (CapCall.kdf135X942SetDomain .zzLen 8 8 8).exec s₂ = .ok (.success, s₃))
    (htype : (CapCall.kdf135X942SetParm .kdfType type).exec s₃ = .ok (.success, s₄)) :
    X942Built s₄ := by
  have h₁ := X942Built.setParm hs hhash
  have h₂ := X942Built.setDomain h₁ hkey
  have h₃ := X942Built.setDomain h₂ hzz
  exact .setParm h₃ htype

/-- The X9.42 capability is built once it is enabled. -/
theorem x942Built_new : X942Built (x942Caps {}) := by
  have hnew : (CapCall.kdf135X942Enable (some ⟨0⟩)).exec {} = .ok (.success, x942Caps {}) := rfl
  exact .enable hnew

/-- It is built with the first type of derivation. -/
theorem x942Built_der : X942Built (x942Caps (oneType 0)) :=
  x942Built_of_calls 0 x942Built_new rfl rfl rfl rfl

/-- And with the second. -/
theorem x942Built_concat : X942Built (x942Caps (oneType 1)) :=
  x942Built_of_calls 1 x942Built_new rfl rfl rfl rfl

/-- A vector set with one test of this type. -/
def x942VectorSet (kdfType : String) : JsonObject :=
  [("algorithm", .str "kdf-components"), ("mode", .str "ansix9.42"),
    ("testGroups", .arr [.obj [("tgId", .num 1), ("kdfType", .str kdfType),
      ("hashAlg", .str "SHA-1"), ("oid", .str "00"),
      ("tests", .arr [.obj [("tcId", .num 1), ("zz", .str "00"), ("keyLen", .num (128 : Int)),
        ("partyUInfo", .str ""), ("partyVInfo", .str ""), ("suppPubInfo", .str ""),
        ("suppPrivInfo", .str "")]])]])]

/-- The example's vector set has one group with one test. -/
theorem testGroups_x942VectorSet (kdfType : String) :
    testGroups (x942VectorSet kdfType) =
      [⟨some [("tgId", .num 1), ("kdfType", .str kdfType), ("hashAlg", .str "SHA-1"),
          ("oid", .str "00")],
        [some [("tcId", .num 1), ("zz", .str "00"), ("keyLen", .num (128 : Int)),
          ("partyUInfo", .str ""), ("partyVInfo", .str ""), ("suppPubInfo", .str ""),
          ("suppPrivInfo", .str "")]]⟩] :=
  rfl

/-- The vector set is within a registration of its type. -/
theorem within_x942VectorSet {type : Int} {kdfType : String} {reg : JsonObject}
    (hmembers : X942Members (oneType type) [kdfType] reg) :
    X942Within reg (x942VectorSet kdfType) := by
  have hstring : ∀ {name str}, jsonObjectGetValue (some reg) name = some (.str str) →
      jsonObjectGetString (some reg) name = some str := by
    intro name str hmember
    rw [jsonObjectGetString, hmember]
    rfl
  have hnumbered : toInt (1 : ℚ) ≠ 0 := by decide
  have hzero : Domain.Has {} 0 := ⟨le_refl _, le_refl _, 0, rfl⟩
  have hempty : ∀ {list obj name}, jsonObjectGetValue (some reg) list = some (.arr [rangeObject {}]) →
      jsonObjectGetString obj name = some "" → FieldWithin reg list obj name := by
    intro list obj name hlist hstr
    refine ⟨"", ⟨hstr, isHexString_empty⟩, (listsNumber_range_iff hlist).mpr ⟨0, rfl, hzero⟩⟩
  refine ⟨(hstring hmembers.algorithm).symm, (hstring hmembers.mode).symm, (by rintro ⟨⟩), ?_, ?_⟩
  · rw [testGroups_x942VectorSet, List.forall_mem_singleton]
    refine ⟨hnumbered, ⟨kdfType, rfl, ?_⟩, ⟨"SHA-1", rfl, ?_⟩, fun _ => ⟨"00", rfl, isHexString_zero⟩⟩
    · exact (listsString_iff hmembers.kdfType).mpr (List.mem_singleton_self _)
    · exact (listsString_iff hmembers.hashAlgs).mpr (List.mem_singleton_self _)
  · rw [testGroups_x942VectorSet, List.forall_mem_singleton, List.forall_mem_singleton]
    refine ⟨hnumbered, ⟨(128 : Int), rfl, ?_⟩, ⟨"00", ⟨rfl, isHexString_zero⟩, ?_⟩,
      hempty hmembers.otherLen rfl, hempty hmembers.otherLen rfl, hempty hmembers.suppLen rfl,
      hempty hmembers.suppLen rfl⟩
    · exact (listsNumber_range_iff hmembers.keyLen).mpr
        ⟨128, rfl, le_refl _, le_refl _, 0, rfl⟩
    · exact (listsNumber_range_iff hmembers.zzLen).mpr
        ⟨8, rfl, le_refl _, le_refl _, 0, rfl⟩

/-- What is registered for a context with one type. -/
theorem registered_x942Caps {type : Int} {types : List String}
    (htypes : x942KdfTypes type = some types) :
    ∃ reg, X942Registered (x942Caps (oneType type)) reg ∧ X942Members (oneType type) types reg := by
  obtain ⟨reg, hbuild⟩ : ∃ reg, buildKdf135X942RegisterCap []
      { cipher := .kdf135X942, capType := .kdf135X942, cap := oneType type, cryptoHandler := ⟨0⟩ }
      (oneType type) = .ok reg := by
    have htype : x942KdfTypes (oneType type).type = some types := htypes
    simp only [buildKdf135X942RegisterCap, lookupCipherRevision, htype]
    exact ⟨_, rfl⟩
  exact ⟨reg, ⟨_, _, rfl, rfl, hbuild⟩, buildKdf135X942RegisterCap_members htypes hbuild⟩

/-- The vector set in this mode is within what is registered for the two modes. -/
theorem within_twoModes {kdfMode name : String} (hmode : kdfMode ≠ "feedback")
    (hspec : .obj (buildKdf108ModeRegister (jsonObjectSetText [] "kdfMode" (some kdfMode))
      (oneValue name)) ∈
        jsonArrayElems (jsonObjectGetArray (some (kdf108Reg twoModes)) "capabilities")) :
    Kdf108Within (kdf108Reg twoModes) (kdf108VectorSet kdfMode) :=
  within_kdf108VectorSet hmode rfl hspec

/-- A vector set in counter mode and one with DER encoding are processed. -/
theorem kdfs_process_two :
    Kdf108Processes ⟨1, kdf108Caps twoModes⟩ (kdf108VectorSet "counter") ∧
      X942Processes ⟨1, x942Caps (oneType 0)⟩ (x942VectorSet "DER") := by
  constructor
  · have hwithin := within_twoModes (by decide : "counter" ≠ "feedback") List.mem_cons_self
    refine ((kdfs_process_iff ⟨1, kdf108Caps twoModes⟩ _ _).1 kdf108Built_twoModes
      (registered_kdf108Reg twoModes) hwithin).mpr ?_
    rw [testGroups_kdf108VectorSet, List.forall_mem_singleton]
    refine ⟨⟨by decide, fun _ => by decide⟩, .inl ⟨rfl, by decide⟩, ?_⟩
    rw [List.forall_mem_singleton]
    rintro _ ⟨⟩
    decide
  · obtain ⟨reg, hreg, hmembers⟩ := registered_x942Caps (rfl : x942KdfTypes 0 = some ["DER"])
    refine ((kdfs_process_iff ⟨1, x942Caps (oneType 0)⟩ _ _).2 x942Built_der hreg
      (within_x942VectorSet hmembers)).mpr ?_
    rw [testGroups_x942VectorSet, List.forall_mem_singleton]
    refine ⟨nofun, rfl, ?_, ?_⟩
    · rintro _ ⟨⟩
      decide
    · rw [List.forall_mem_singleton]
      exact ⟨16, by decide, rfl⟩

/-- Vector sets in double pipeline iteration mode, or with concatenation, are within what is
registered and not processed. -/
theorem kdfs_not_process_registered :
    (Kdf108Built (kdf108Caps twoModes) ∧
      Kdf108Registered (kdf108Caps twoModes) (kdf108Reg twoModes) ∧
      Kdf108Within (kdf108Reg twoModes) (kdf108VectorSet "dpi") ∧
      ¬Kdf108Processes ⟨1, kdf108Caps twoModes⟩ (kdf108VectorSet "dpi")) ∧
    ∃ reg, X942Built (x942Caps (oneType 1)) ∧ X942Registered (x942Caps (oneType 1)) reg ∧
      X942Within reg (x942VectorSet "concatenation") ∧
      ¬X942Processes ⟨1, x942Caps (oneType 1)⟩ (x942VectorSet "concatenation") := by
  constructor
  · have hwithin := within_twoModes (by decide : "dpi" ≠ "feedback")
      (List.mem_cons_of_mem _ List.mem_cons_self)
    refine ⟨kdf108Built_twoModes, registered_kdf108Reg twoModes, hwithin, ?_⟩
    rw [kdf108_processes_iff kdf108Built_twoModes (registered_kdf108Reg twoModes) hwithin,
      testGroups_kdf108VectorSet, List.forall_mem_singleton]
    rintro ⟨-, ⟨hcounter, -⟩ | ⟨hfeedback, -⟩, -⟩
    · exact absurd (Option.some.inj hcounter) (by decide)
    · exact absurd (Option.some.inj hfeedback) (by decide)
  · obtain ⟨reg, hreg, hmembers⟩ :=
      registered_x942Caps (rfl : x942KdfTypes 1 = some ["concatenation"])
    have hwithin := within_x942VectorSet hmembers
    refine ⟨reg, x942Built_concat, hreg, hwithin, ?_⟩
    rw [x942_processes_iff x942Built_concat hreg hwithin, testGroups_x942VectorSet,
      List.forall_mem_singleton]
    rintro ⟨-, hder, -⟩
    exact absurd (Option.some.inj hder) (by decide)

end LibAmvp
