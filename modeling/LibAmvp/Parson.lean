import LibAmvp.Lib.Json
import LibAmvp.Parson.Parser
import LibAmvp.Parson.Utf8

/-!
# The JSON accessors of the library

The library reads every server body and every file through parson's accessors.
Each accessor accepts a missing value and answers with a default, so a lookup
chain over a body of the wrong shape ends in {lit}`none`, zero or minus one
instead of an error.  The definitions below keep that behaviour: a JSON pointer
of the source is an {lit}`Option`.

A string is a C string throughout, and each of its characters is one {lit}`char`.
What parson parses it takes as it is, but a string that is set has to be UTF-8.

Main results:

- Theorem {lit}`isText_iff`: the strings that can be set are the encodings of characters.
- Theorem {lit}`jsonObjectGetString_setString`: a string that was set is found again when it
  is one of these.
-/

namespace LibAmvp

/-! ## C strings -/

/-- The bytes of a C string. -/
def cBytes (s : String) : List UInt8 := s.toList.map fun c => c.val.toUInt8

/-- A text has as many bytes as characters. -/
@[simp]
theorem length_cBytes (s : String) : (cBytes s).length = s.length := by
  rw [cBytes, List.length_map, String.length_toList]

/-- Only the empty text has no bytes. -/
theorem cBytes_eq_nil {str : String} (h : cBytes str = []) : str = "" :=
  String.toList_eq_nil_iff.mp (List.map_eq_nil_iff.mp h)

/-- Every character is a {lit}`char`, and none is the terminator. -/
def IsCString (s : String) : Prop := ∀ c ∈ s.toList, c ≠ '\x00' ∧ c.val < 256

instance : DecidablePred IsCString := fun s =>
  decidable_of_iff (s.toList.all fun c => c ≠ '\x00' ∧ c.val < 256) (by simp [IsCString])

/-- The character that is a byte. -/
theorem ofNat_toUInt8 {c : Char} (h : c.val < 256) : Char.ofNat c.val.toUInt8.toNat = c := by
  have hlt : c.val.toNat < 2 ^ 8 := UInt32.lt_iff_toNat_lt.mp h
  rw [UInt32.toNat_toUInt8, Nat.mod_eq_of_lt hlt]
  exact Char.ofNat_toNat c

/-- A C string has no terminator inside. -/
theorem zero_notMem_cBytes {s : String} (h : IsCString s) : 0 ∉ cBytes s := by
  intro hmem
  obtain ⟨c, hc, hzero⟩ := List.mem_map.mp hmem
  have hchar := ofNat_toUInt8 (h c hc).2
  rw [hzero] at hchar
  exact (h c hc).1 hchar.symm

/-- The characters are told by the bytes. -/
theorem toList_eq_map_cBytes {s : String} (h : IsCString s) :
    s.toList = (cBytes s).map fun b => Char.ofNat b.toNat := by
  rw [cBytes, List.map_map]
  exact (List.map_id s.toList).symm.trans
    (List.map_congr_left fun c hc => (ofNat_toUInt8 (h c hc).2).symm)

/-- C strings are told apart by their bytes. -/
theorem cBytes_inj {s t : String} (hs : IsCString s) (ht : IsCString t) :
    cBytes s = cBytes t ↔ s = t := by
  refine ⟨fun h => String.toList_inj.mp ?_, congrArg cBytes⟩
  rw [toList_eq_map_cBytes hs, toList_eq_map_cBytes ht, h]

/-- What {lit}`json_value_init_string` takes over: a string that is UTF-8 and not too long. -/
def IsText (s : String) : Prop :=
  s.length ≤ Parson.stringValueMax ∧ Parson.isValidUtf8 (cBytes s) s.length

instance : DecidablePred IsText := fun s =>
  decidable_of_iff (s.length ≤ Parson.stringValueMax ∧
      Parson.validRounds s.length s.length (cBytes s) = true)
    (by rw [IsText, Parson.isValidUtf8, Parson.validRounds_eq le_rfl])

/-- The strings that can be set are the encodings of characters. -/
theorem isText_iff {s : String} :
    IsText s ↔ s.length ≤ Parson.stringValueMax ∧
      ∃ chars : List Char, cBytes s = chars.flatMap String.utf8EncodeChar := by
  rw [IsText, ← length_cBytes s, Parson.isValidUtf8_iff]

/-- A string of ASCII characters can be set. -/
theorem isText_of_ascii {s : String} (hlength : s.length ≤ Parson.stringValueMax)
    (hascii : s.toList.all fun c => c.val ≤ 0x7f) : IsText s := by
  refine isText_iff.mpr ⟨hlength, s.toList, ?_⟩
  have hall : ∀ c ∈ s.toList, c.utf8Size = 1 := fun c hc =>
    Char.utf8Size_eq_one_iff.mpr (of_decide_eq_true (List.all_eq_true.mp hascii c hc))
  rw [cBytes]
  generalize s.toList = l at hall
  induction l with
  | nil => rfl
  | cons c l ih =>
      obtain ⟨hc, hrest⟩ := List.forall_mem_cons.mp hall
      rw [List.map_cons, List.flatMap_cons, String.utf8EncodeChar_eq_singleton hc, ih hrest]
      rfl

/-- A string with a byte that no character is encoded with cannot be set. -/
theorem not_isText_of_mem {s : String} (h : 0xff ∈ cBytes s) : ¬IsText s := by
  intro htext
  obtain ⟨-, chars, hchars⟩ := isText_iff.mp htext
  rw [hchars] at h
  obtain ⟨c, -, hc⟩ := List.mem_flatMap.mp h
  exact Parson.ff_notMem_utf8EncodeChar c hc

/-! ## Accessors -/

/-- The members of a JSON object. -/
abbrev JsonObject := List (String × Json)

/-- {lit}`json_value_get_array`. -/
def jsonValueGetArray : Option Json → Option (List Json)
  | some (.arr elems) => some elems
  | _ => none

/-- {lit}`json_value_get_object`. -/
def jsonValueGetObject : Option Json → Option JsonObject
  | some (.obj members) => some members
  | _ => none

/-- {lit}`json_value_get_string`. -/
def jsonValueGetString : Option Json → Option String
  | some (.str s) => some s
  | _ => none

/-- {lit}`json_value_get_number`: zero when the value is no number. -/
def jsonValueGetNumber : Option Json → ℚ
  | some (.num q) => q
  | _ => 0

/-- {lit}`json_value_get_boolean`: minus one when the value is no boolean. -/
def jsonValueGetBoolean : Option Json → Int
  | some (.bool true) => 1
  | some (.bool false) => 0
  | _ => -1

/-- {lit}`json_object_get_value`. -/
def jsonObjectGetValue (obj : Option JsonObject) (name : String) : Option Json :=
  obj.bind fun members => (members.find? fun m => m.1 == name).map Prod.snd

/-- {lit}`json_object_get_string`. -/
def jsonObjectGetString (obj : Option JsonObject) (name : String) : Option String :=
  jsonValueGetString (jsonObjectGetValue obj name)

/-- {lit}`json_object_get_number`. -/
def jsonObjectGetNumber (obj : Option JsonObject) (name : String) : ℚ :=
  jsonValueGetNumber (jsonObjectGetValue obj name)

/-- {lit}`json_object_get_object`. -/
def jsonObjectGetObject (obj : Option JsonObject) (name : String) : Option JsonObject :=
  jsonValueGetObject (jsonObjectGetValue obj name)

/-- {lit}`json_object_get_array`. -/
def jsonObjectGetArray (obj : Option JsonObject) (name : String) : Option (List Json) :=
  jsonValueGetArray (jsonObjectGetValue obj name)

/-- {lit}`json_object_get_boolean`. -/
def jsonObjectGetBoolean (obj : Option JsonObject) (name : String) : Int :=
  jsonValueGetBoolean (jsonObjectGetValue obj name)

/-- {lit}`json_object_has_value`. -/
def jsonObjectHasValue (obj : Option JsonObject) (name : String) : Bool :=
  (jsonObjectGetValue obj name).isSome

/-- {lit}`json_array_get_value`. -/
def jsonArrayGetValue (arr : Option (List Json)) (index : Nat) : Option Json :=
  arr.bind fun elems => elems[index]?

/-- {lit}`json_array_get_object`. -/
def jsonArrayGetObject (arr : Option (List Json)) (index : Nat) : Option JsonObject :=
  jsonValueGetObject (jsonArrayGetValue arr index)

/-- {lit}`json_array_get_string`. -/
def jsonArrayGetString (arr : Option (List Json)) (index : Nat) : Option String :=
  jsonValueGetString (jsonArrayGetValue arr index)

/-- The elements a loop up to {lit}`json_array_get_count` visits. -/
def jsonArrayElems (arr : Option (List Json)) : List Json := arr.getD []

/-- The strings of an array; a missing array has none. -/
def jsonStrings (arr : Option (List Json)) : List String :=
  (jsonArrayElems arr).filterMap fun e => jsonValueGetString (some e)

/-- The texts of an array of texts. -/
@[simp]
theorem jsonStrings_map_str (names : List String) :
    jsonStrings (some (names.map .str)) = names := by
  simp [jsonStrings, jsonArrayElems, List.filterMap_map, jsonValueGetString]

/-- {lit}`json_array_get_count`. -/
def jsonArrayGetCount (arr : Option (List Json)) : Nat := (jsonArrayElems arr).length

/-- {lit}`json_object_set_value`: replace a member, or append a new one. -/
def jsonObjectSetValue (members : JsonObject) (name : String) (value : Json) : JsonObject :=
  if members.any fun m => m.1 == name then
    members.map fun m => if m.1 == name then (name, value) else m
  else members ++ [(name, value)]

/-- A member that was set is found again. -/
@[simp]
theorem jsonObjectGetValue_set (members : JsonObject) (name : String) (value : Json) :
    jsonObjectGetValue (some (jsonObjectSetValue members name value)) name = some value := by
  by_cases hmem : members.any fun m => m.1 == name
  · rw [jsonObjectSetValue, if_pos hmem]
    induction members with
    | nil => simp at hmem
    | cons m members ih =>
        by_cases hm : m.1 = name
        · simp [jsonObjectGetValue, hm]
        · have hrest : members.any fun m => m.1 == name := by simpa [hm] using hmem
          simpa [jsonObjectGetValue, hm] using ih hrest
  · rw [jsonObjectSetValue, if_neg hmem]
    have hnone : members.find? (fun m => m.1 == name) = none := by
      rw [List.find?_eq_none]
      intro m hm
      simp only [List.any_eq_true, not_exists, not_and] at hmem
      exact hmem m hm
    simp [jsonObjectGetValue, List.find?_append, hnone]

/-- The other members are found as before when one is set. -/
theorem jsonObjectGetValue_set_of_ne (obj : JsonObject) {name name' : String} (value : Json)
    (h : name ≠ name') :
    jsonObjectGetValue (some (jsonObjectSetValue obj name' value)) name =
      jsonObjectGetValue (some obj) name := by
  have hmap : ∀ members : JsonObject,
      (members.map fun m => if m.1 == name' then (name', value) else m).find?
        (fun m => m.1 == name) = members.find? fun m => m.1 == name := by
    intro members
    induction members with
    | nil => rfl
    | cons m members ih =>
        rw [List.map_cons, List.find?_cons, List.find?_cons, ih]
        by_cases hm : m.1 = name'
        · have hother : (name' == name) = false := beq_false_of_ne h.symm
          simp [hm, hother]
        · simp [hm]
  unfold jsonObjectSetValue
  split
  · simp only [jsonObjectGetValue, Option.bind_some, hmap]
  · simp [jsonObjectGetValue, List.find?_append, h.symm]

/-- {lit}`json_object_set_string` with a text that is UTF-8 as it stands, such as a literal of the
source, a name of one of its tables or hexadecimal digits: a missing text sets nothing. -/
def jsonObjectSetText (members : JsonObject) (name : String) : Option String → JsonObject
  | some s => jsonObjectSetValue members name (.str s)
  | none => members

/-- Setting a text leaves the other members. -/
theorem jsonObjectGetValue_setText_of_ne (obj : JsonObject) {name name' : String}
    (value : Option String) (h : name ≠ name') :
    jsonObjectGetValue (some (jsonObjectSetText obj name' value)) name =
      jsonObjectGetValue (some obj) name := by
  cases value with
  | none => rfl
  | some s => exact jsonObjectGetValue_set_of_ne obj _ h

/-- A text that was set is found again, and none is found when none was set. -/
theorem jsonObjectGetString_setText {obj : JsonObject} {name : String}
    (hnone : jsonObjectGetValue (some obj) name = none) (value : Option String) :
    jsonObjectGetString (some (jsonObjectSetText obj name value)) name = value := by
  cases value with
  | none => simp [jsonObjectSetText, jsonObjectGetString, hnone, jsonValueGetString]
  | some s => simp [jsonObjectSetText, jsonObjectGetString, jsonValueGetString]

/-- What is taken over of a string that may be missing. -/
def takenOver (value : Option String) : Option String := value.filter fun s => IsText s

/-- A text is taken over whole exactly when it is UTF-8 or missing. -/
theorem takenOver_eq_self_iff {value : Option String} :
    takenOver value = value ↔ ∀ s ∈ value, IsText s := by
  cases value with
  | none => simp [takenOver]
  | some s => simp [takenOver, Option.filter_some]

/-- A text that is there is taken over exactly when it is UTF-8. -/
theorem takenOver_eq_some_iff {s : String} : takenOver (some s) = some s ↔ IsText s := by
  simp [takenOver_eq_self_iff]

/-- What is taken over can be set. -/
theorem isText_of_takenOver {value : Option String} {s : String} (h : takenOver value = some s) :
    IsText s := by
  obtain ⟨-, htext⟩ := Option.filter_eq_some_iff.mp h
  exact of_decide_eq_true htext

/-- {lit}`json_object_set_string`: a missing string sets nothing, and neither does one that is
not taken over. -/
def jsonObjectSetString (members : JsonObject) (name : String) (value : Option String) :
    JsonObject :=
  jsonObjectSetText members name (takenOver value)

/-- Setting a string leaves the other members, refused or not. -/
theorem jsonObjectGetValue_setString_of_ne (obj : JsonObject) {name name' : String}
    (value : Option String) (h : name ≠ name') :
    jsonObjectGetValue (some (jsonObjectSetString obj name' value)) name =
      jsonObjectGetValue (some obj) name :=
  jsonObjectGetValue_setText_of_ne obj _ h

/-- A string that was set is found again when it is taken over. -/
theorem jsonObjectGetString_setString {obj : JsonObject} {name : String}
    (hnone : jsonObjectGetValue (some obj) name = none) (value : Option String) :
    jsonObjectGetString (some (jsonObjectSetString obj name value)) name = takenOver value :=
  jsonObjectGetString_setText hnone _

/-- An array after {lit}`json_array_append_string` of some strings: those that are not taken over
are left out. -/
def jsonArrayOfStrings (strings : List String) : List Json :=
  (strings.filter fun s => IsText s).map .str

/-- An array has all texts exactly when all are UTF-8. -/
theorem jsonArrayOfStrings_eq_iff {strings : List String} :
    jsonArrayOfStrings strings = strings.map .str ↔ ∀ s ∈ strings, IsText s := by
  rw [jsonArrayOfStrings, (List.map_injective_iff.mpr fun _ _ h => Json.str.inj h).eq_iff,
    List.filter_eq_self]
  simp

/-- What is in such an array is UTF-8. -/
theorem isText_of_mem_jsonArrayOfStrings {strings : List String} {s : String}
    (h : .str s ∈ jsonArrayOfStrings strings) : IsText s := by
  obtain ⟨s', hs', heq⟩ := List.mem_map.mp h
  obtain rfl := Json.str.inj heq
  exact of_decide_eq_true (List.mem_filter.mp hs').2

/-- Set a number of strings in an object. -/
def setStrings (obj : JsonObject) (fields : List (String × Option String)) : JsonObject :=
  fields.foldl (fun obj field => jsonObjectSetString obj field.1 field.2) obj

/-- Setting several strings leaves the other members. -/
theorem jsonObjectGetValue_setStrings {obj : JsonObject} {key : String}
    {fields : List (String × Option String)} (h : key ∉ fields.map Prod.fst) :
    jsonObjectGetValue (some (setStrings obj fields)) key = jsonObjectGetValue (some obj) key := by
  induction fields generalizing obj with
  | nil => rfl
  | cons field rest ih =>
      obtain ⟨hne, hrest⟩ := not_or.mp (mt List.mem_cons.mpr h)
      exact (ih hrest).trans (jsonObjectGetValue_setString_of_ne obj field.2 hne)

/-- Strings that were set under different keys are found again when they are taken over. -/
theorem jsonObjectGetString_setStrings {obj : JsonObject} {key : String} {value : Option String}
    (fields : List (String × Option String)) (hnodup : (fields.map Prod.fst).Nodup)
    (hnone : ∀ key ∈ fields.map Prod.fst, jsonObjectGetValue (some obj) key = none)
    (hmem : (key, value) ∈ fields) :
    jsonObjectGetString (some (setStrings obj fields)) key = takenOver value := by
  induction fields generalizing obj with
  | nil => cases hmem
  | cons field rest ih =>
      obtain ⟨hfirst, hnodup⟩ := List.nodup_cons.mp hnodup
      rw [List.map_cons, List.forall_mem_cons] at hnone
      rcases List.mem_cons.mp hmem with rfl | hmem
      · rw [jsonObjectGetString]
        exact (congrArg jsonValueGetString (jsonObjectGetValue_setStrings hfirst)).trans
          (jsonObjectGetString_setString hnone.1 value)
      · refine ih hnodup (fun other hother => ?_) hmem
        have hne : other ≠ field.1 := fun heq => hfirst (heq ▸ hother)
        rw [jsonObjectGetValue_setString_of_ne obj field.2 hne, hnone.2 other hother]

/-- {lit}`json_object_set_boolean`: any non-zero number is true. -/
def jsonObjectSetBoolean (members : JsonObject) (name : String) (b : Int) : JsonObject :=
  jsonObjectSetValue members name (.bool (b ≠ 0))

/-! ## What is parsed -/

/-- The names of members that parson keeps apart: C strings that are not too long, and one that is
not empty comes once. -/
def NamesApart (members : JsonObject) : Prop :=
  (∀ m ∈ members, 0 ∉ cBytes m.1 ∧ m.1.length ≤ Parson.stringNameMax) ∧
    ((members.map fun m => cBytes m.1).filter fun name => name ≠ []).Nodup

instance : DecidablePred NamesApart := fun _ => inferInstanceAs (Decidable (_ ∧ _))

mutual

/-- Is a value parsable by {lit}`parse_value`?  The first argument is the room that is left for
nesting. -/
def parsable : Nat → Json → Bool
  | 0, _ => false
  | room + 1, .arr elems => parsableElems room elems
  | room + 1, .obj members => decide (NamesApart members) && parsableMembers room members
  | _ + 1, _ => true

/-- Are the elements of an array parsable? -/
def parsableElems (room : Nat) : List Json → Bool
  | [] => true
  | v :: elems => parsable room v && parsableElems room elems

/-- Are the values of the members of an object parsable? -/
def parsableMembers (room : Nat) : List (String × Json) → Bool
  | [] => true
  | m :: members => parsable room m.2 && parsableMembers room members

end

/-- {lit}`json_parse_string` on the lexemes of a text. -/
def jsonParseText (text : Json.Text) : Option Json :=
  (Json.parse text).filter (parsable (Parson.maxNesting + 1))

/-- A value of the C type {lit}`int`. -/
def IsInt (value : Int) : Prop := -2 ^ 31 ≤ value ∧ value < 2 ^ 31

instance (value : Int) : Decidable (IsInt value) := inferInstanceAs (Decidable (_ ∧ _))

/-- The conversion of a {lit}`double` to an {lit}`int`: rounding towards zero, and
the least value when the number has no {lit}`int` image. -/
def toInt (q : ℚ) : Int :=
  let n := q.num.tdiv q.den
  if -2 ^ 31 ≤ n ∧ n < 2 ^ 31 then n else -2 ^ 31

/-- A number within the range of {lit}`int` is read as itself. -/
theorem toInt_intCast {n : Int} (hlow : -2 ^ 31 ≤ n) (hhigh : n < 2 ^ 31) : toInt (n : ℚ) = n := by
  unfold toInt
  rw [Rat.num_intCast, Rat.den_intCast]
  have hdiv : n.tdiv (1 : Nat) = n := Int.tdiv_one n
  dsimp only
  rw [hdiv, if_pos ⟨hlow, hhigh⟩]

/-- An integer that is out of the range of an {lit}`int` becomes the least one. -/
theorem toInt_intCast_cases (n : Int) :
    toInt (n : ℚ) = n ∨ toInt (n : ℚ) = -2 ^ 31 ∧ (n < -2 ^ 31 ∨ 2 ^ 31 ≤ n) := by
  by_cases hn : -2 ^ 31 ≤ n ∧ n < 2 ^ 31
  · exact .inl (toInt_intCast hn.1 hn.2)
  · refine .inr ⟨?_, by omega⟩
    unfold toInt
    rw [Rat.num_intCast, Rat.den_intCast]
    have hdiv : n.tdiv (1 : Nat) = n := Int.tdiv_one n
    dsimp only
    rw [hdiv, if_neg hn]

/-- What is read as an {lit}`int` is within its range. -/
theorem toInt_bounds (q : ℚ) : -2 ^ 31 ≤ toInt q ∧ toInt q < 2 ^ 31 := by
  unfold toInt
  dsimp only
  split
  · assumption
  · omega

/-- {lit}`amvp_get_obj_from_rsp`: the object a server body carries, in element 0. -/
def getObjFromRsp (val : Option Json) : Option JsonObject :=
  jsonArrayGetObject (jsonValueGetArray val) 0

end LibAmvp
