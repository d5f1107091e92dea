import LibAmvp.Parson
import LibAmvp.Parson.Objects
import LibAmvp.Parson.Utf8

/-!
# The accessors of the library, byte by byte

The rest of the library reads and builds values whose strings are texts.  Here these values are
taken to the bytes that parson holds, and the accessors on texts are shown to be those of parson.

Main results:

- Theorem {lit}`jsonObjectGetValue_embed`: a lookup under a text is one under its bytes.
- Theorem {lit}`setValues_embed`: an object that is built from texts is the one parson builds.
- Theorem {lit}`parsable_iff`: a value of texts is accepted when parson accepts its bytes.
-/

namespace LibAmvp.Parson

open JsonTree

variable {ν : Type}

/-! ## Texts and bytes -/

/-- The bytes of a text, up to a terminator. -/
def nameOf (s : String) : NulString := NulString.ofBytes (cBytes s)

/-- A text that can be the name of a member: it is not empty, a C string, and stored in full. -/
def Plain (s : String) : Prop := s ≠ "" ∧ IsCString s ∧ s.length ≤ stringNameMax

section Embed

variable (number : ℚ → ν)

mutual

/-- A value with the bytes of its strings. -/
def embed : Json → JsonTree ν
  | .null => .null
  | .bool b => .bool b
  | .num q => .num (number q)
  | .str s => .str (cBytes s)
  | .arr elems => .arr (embedElems elems)
  | .obj members => .obj (embedMembers members)

/-- The elements of an array, with the bytes of their strings. -/
def embedElems : List Json → List (JsonTree ν)
  | [] => []
  | v :: elems => embed v :: embedElems elems

/-- The members of an object, with the bytes of their strings. -/
def embedMembers : List (String × Json) → Members ν
  | [] => []
  | m :: members => (nameOf m.1, embed m.2) :: embedMembers members

end

end Embed

theorem nameOf_chars {s : String} (h : IsCString s) : (nameOf s).chars = cBytes s :=
  NulString.ofBytes_chars (zero_notMem_cBytes h)

/-- C strings are told apart by their bytes. -/
theorem nameOf_inj {s t : String} (hs : IsCString s) (ht : IsCString t) :
    nameOf s = nameOf t ↔ s = t := by
  rw [← cBytes_inj hs ht, ← nameOf_chars hs, ← nameOf_chars ht]
  exact ⟨congrArg NulString.chars, NulString.ext⟩

theorem visible_nameOf {s : String} (hne : s ≠ "") (hs : IsCString s) : Visible (nameOf s) := by
  intro hnil
  rw [nameOf_chars hs] at hnil
  exact hne (cBytes_eq_nil hnil)

/-! ## Accessors -/

section Accessors

variable (number : ℚ → ν)

theorem embedMembers_eq (members : JsonObject) :
    embedMembers number members = members.map fun m => (nameOf m.1, embed number m.2) := by
  induction members with
  | nil => rfl
  | cons m members ih => rw [embedMembers, ih, List.map_cons]

/-- A lookup under a text is one under its bytes. -/
theorem jsonObjectGetValue_embed {members : JsonObject}
    (hmembers : ∀ m ∈ members, IsCString m.1) {name : String} (hne : name ≠ "")
    (hnul : IsCString name) :
    jsonObjectGetValue (embedMembers number members) (nameOf name) =
      (LibAmvp.jsonObjectGetValue (some members) name).map (embed number) := by
  rw [jsonObjectGetValue_eq, if_pos (visible_nameOf hne hnul)]
  induction members with
  | nil => rfl
  | cons m members ih =>
    rcases List.forall_mem_cons.mp hmembers with ⟨hm, hrest⟩
    have hsame := nameOf_inj hm hnul
    rw [embedMembers, Directory.lookup_cons, ih hrest]
    by_cases hname : m.1 = name
    · simp [LibAmvp.jsonObjectGetValue, hname]
    · simp [LibAmvp.jsonObjectGetValue, hname, mt hsame.mp hname]

/-- The object on texts is a directory too, when no name comes twice. -/
theorem jsonObjectSetValue_eq_put {members : JsonObject} (hnodup : (members.map Prod.fst).Nodup)
    (name : String) (value : Json) :
    LibAmvp.jsonObjectSetValue members name value = Directory.put members name value := by
  induction members with
  | nil => rfl
  | cons m members ih =>
    rw [List.map_cons, List.nodup_cons] at hnodup
    rw [Directory.put_cons, ← ih hnodup.2, LibAmvp.jsonObjectSetValue, LibAmvp.jsonObjectSetValue]
    by_cases hm : m.1 = name
    · have hrest : (members.map fun m => if m.1 = name then (name, value) else m) = members := by
        refine (List.map_congr_left fun e he => ?_).trans (List.map_id members)
        have hother : e.1 ≠ name := fun heq => hnodup.1 (hm ▸ heq ▸ List.mem_map_of_mem he)
        rw [if_neg hother, id]
      simp [hm, hrest]
    · rw [if_neg hm, List.any_cons, List.map_cons]
      simp only [beq_eq_false_iff_ne.mpr hm, Bool.false_or, Bool.false_eq_true, if_false]
      split <;> rfl

/-- Entries are put under names that are told apart by a function. -/
theorem put_embedMembers {members : JsonObject} (hmembers : ∀ m ∈ members, IsCString m.1)
    {name : String} (hname : IsCString name) (value : Json) :
    Directory.put (embedMembers number members) (nameOf name) (embed number value) =
      embedMembers number (Directory.put members name value) := by
  induction members with
  | nil => rfl
  | cons m members ih =>
    rcases List.forall_mem_cons.mp hmembers with ⟨hm, hrest⟩
    rw [embedMembers, Directory.put_cons, Directory.put_cons, ih hrest]
    by_cases heq : m.1 = name
    · rw [if_pos (congrArg nameOf heq), if_pos heq, embedMembers]
    · rw [if_neg (mt (nameOf_inj hm hname).mp heq), if_neg heq, embedMembers]

/-- Setting a member under a text is setting it under its bytes, when no name comes twice. -/
theorem jsonObjectSetValue_embed {members : JsonObject}
    (hmembers : ∀ m ∈ members, IsCString m.1) (hnodup : (members.map Prod.fst).Nodup)
    {name : String} (hname : Plain name) (value : Json) :
    jsonObjectSetValue (embedMembers number members) (nameOf name) (embed number value) =
      some (embedMembers number (LibAmvp.jsonObjectSetValue members name value)) := by
  rcases hname with ⟨hne, hnul, hlength⟩
  rw [← length_cBytes, ← nameOf_chars hnul] at hlength
  rw [jsonObjectSetValue_fits hlength, if_pos (visible_nameOf hne hnul),
    put_embedMembers number hmembers hnul, jsonObjectSetValue_eq_put hnodup]

/-- Set some members of an object, one after the other. -/
def setValues (members : JsonObject) (fields : List (String × Json)) : JsonObject :=
  fields.foldl (fun members field => LibAmvp.jsonObjectSetValue members field.1 field.2) members

/-- What the setters need to know of the names that are there. -/
def PlainNames (members : JsonObject) : Prop :=
  (∀ m ∈ members, IsCString m.1) ∧ (members.map Prod.fst).Nodup

theorem plainNames_set {members : JsonObject} (h : PlainNames members) {name : String}
    (hname : IsCString name) (value : Json) :
    PlainNames (LibAmvp.jsonObjectSetValue members name value) := by
  rw [jsonObjectSetValue_eq_put h.2]
  refine ⟨fun m hm => ?_, ?_⟩
  · rcases Directory.mem_put hm with rfl | hm
    · exact hname
    · exact h.1 m hm
  · have hapart : Directory.Apart (fun _ => True) members := by simpa [Directory.Apart] using h.2
    simpa [Directory.Apart] using hapart.put name value

/-- An object that is built from texts is the one that parson builds from their bytes, and its
members are found there. -/
theorem setValues_embed {members : JsonObject} (h : PlainNames members)
    {fields : List (String × Json)} (hfields : ∀ field ∈ fields, Plain field.1) :
    fields.foldlM (fun members field =>
        jsonObjectSetValue members (nameOf field.1) (embed number field.2))
      (embedMembers number members) = some (embedMembers number (setValues members fields)) ∧
    ∀ name, Plain name →
      jsonObjectGetValue (embedMembers number (setValues members fields)) (nameOf name) =
        (LibAmvp.jsonObjectGetValue (some (setValues members fields)) name).map (embed number) := by
  induction fields generalizing members with
  | nil => exact ⟨rfl, fun name hname => jsonObjectGetValue_embed number h.1 hname.1 hname.2.1⟩
  | cons field fields ih =>
    rcases List.forall_mem_cons.mp hfields with ⟨hfield, hrest⟩
    rcases ih (plainNames_set h hfield.2.1 field.2) hrest with ⟨hrun, hget⟩
    refine ⟨?_, hget⟩
    rw [List.foldlM_cons, jsonObjectSetValue_embed number h.1 h.2 hfield]
    exact hrun

/-! ## What is accepted -/

mutual

/-- The names in a value are C strings. -/
def CStringNames : Json → Prop
  | .arr elems => CStringNamesElems elems
  | .obj members => CStringNamesMembers members
  | _ => True

/-- The names in the elements of an array are C strings. -/
def CStringNamesElems : List Json → Prop
  | [] => True
  | v :: elems => CStringNames v ∧ CStringNamesElems elems

/-- The names of the members of an object, and those in their values, are C strings. -/
def CStringNamesMembers : List (String × Json) → Prop
  | [] => True
  | m :: members => IsCString m.1 ∧ CStringNames m.2 ∧ CStringNamesMembers members

end

theorem isCString_of_names {members : List (String × Json)} (h : CStringNamesMembers members) :
    ∀ m ∈ members, IsCString m.1 := by
  induction members with
  | nil => simp
  | cons m members ih => exact List.forall_mem_cons.mpr ⟨h.1, ih h.2.2⟩

/-- Names are kept apart as C strings when parson keeps them apart. -/
theorem namesApart_iff {members : List (String × Json)} (h : ∀ m ∈ members, IsCString m.1) :
    NamesApart members ↔ UniqueNames (embedMembers number members) := by
  rw [embedMembers_eq, UniqueNames, NamesApart]
  refine and_congr ?_ ?_
  · rw [List.forall_mem_map]
    refine forall₂_congr fun m hm => ?_
    rw [nameOf_chars (h m hm), length_cBytes]
    exact and_iff_right (zero_notMem_cBytes (h m hm))
  · have hchars : (members.map fun m => cBytes m.1).filter (fun name => name ≠ []) =
        ((names (members.map fun m => (nameOf m.1, embed number m.2))).filter
          fun name => name.chars ≠ []).map NulString.chars := by
      rw [names, List.map_map, List.filter_map, List.filter_map, List.map_map]
      have hsame : ∀ m ∈ members, cBytes m.1 = (nameOf m.1).chars :=
        fun m hm => (nameOf_chars (h m hm)).symm
      rw [List.filter_congr fun m hm => by rw [Function.comp_apply, hsame m hm]]
      refine List.map_congr_left fun m hm => ?_
      exact hsame m (List.mem_of_mem_filter hm)
    rw [hchars, List.nodup_map_iff fun _ _ => NulString.ext]

section Parsable

variable {fmt : NumberFormat ν}

mutual

/-- Of the values whose names are C strings those are accepted which parson has room for and
whose names it keeps apart. -/
theorem parsable_iff (hnumber : ∀ q, fmt.isInvalid (number q) = false) :
    ∀ (room : Nat) (v : Json), CStringNames v →
    (parsable room v ↔ fmt.Fits room (embed number v))
  | 0, v, _ => by
      rw [parsable]
      exact iff_of_false (by simp) fun hfits => Nat.not_lt_zero _ hfits.1
  | room + 1, .null, _ => iff_of_true rfl (fits_leaf rfl trivial)
  | room + 1, .bool _, _ => iff_of_true rfl (fits_leaf rfl trivial)
  | room + 1, .num q, _ => iff_of_true rfl (fits_leaf rfl (hnumber q))
  | room + 1, .str _, _ => iff_of_true rfl (fits_leaf rfl trivial)
  | room + 1, .arr elems, h => by
      rw [parsable, embed, fits_arr]
      exact parsableElems_iff hnumber room elems h
  | room + 1, .obj members, h => by
      rw [parsable, embed, fits_obj, Bool.and_eq_true, decide_eq_true_eq, and_comm]
      exact and_congr (parsableMembers_iff hnumber room members h)
        (namesApart_iff number (isCString_of_names h))

theorem parsableElems_iff (hnumber : ∀ q, fmt.isInvalid (number q) = false) :
    ∀ (room : Nat) (elems : List Json), CStringNamesElems elems →
    (parsableElems room elems ↔ ∀ v ∈ embedElems number elems, fmt.Fits room v)
  | _, [], _ => iff_of_true rfl (by simp [embedElems])
  | room, v :: elems, h => by
      rw [parsableElems, embedElems, List.forall_mem_cons, Bool.and_eq_true]
      exact and_congr (parsable_iff hnumber room v h.1) (parsableElems_iff hnumber room elems h.2)

theorem parsableMembers_iff (hnumber : ∀ q, fmt.isInvalid (number q) = false) :
    ∀ (room : Nat) (members : List (String × Json)), CStringNamesMembers members →
    (parsableMembers room members ↔ ∀ m ∈ embedMembers number members, fmt.Fits room m.2)
  | _, [], _ => iff_of_true rfl (by simp [embedMembers])
  | room, m :: members, h => by
      rw [parsableMembers, embedMembers, List.forall_mem_cons, Bool.and_eq_true]
      exact and_congr (parsable_iff hnumber room m.2 h.2.1)
        (parsableMembers_iff hnumber room members h.2.2)

end

end Parsable

end Accessors

theorem plainNames_nil : PlainNames [] := ⟨by simp, List.nodup_nil⟩

/-- The fields of an answer, of which one is set again. -/
def answerFields : List (String × Json) :=
  [("tcId", .num 11), ("md", .str "0A1B"), ("groups", .arr [.obj [("tgId", .num 1)]]),
    ("tcId", .num 12)]

theorem plain_answerFields : ∀ field ∈ answerFields, Plain field.1 := by
  have hplain : Plain "tcId" ∧ Plain "md" ∧ Plain "groups" :=
    ⟨⟨by decide, by decide, by decide⟩, ⟨by decide, by decide, by decide⟩,
      ⟨by decide, by decide, by decide⟩⟩
  intro field hfield
  simp only [answerFields, List.mem_cons, List.not_mem_nil, or_false] at hfield
  rcases hfield with rfl | rfl | rfl | rfl
  · exact hplain.1
  · exact hplain.2.1
  · exact hplain.2.2
  · exact hplain.1

theorem setValues_embed_answer :
    jsonObjectGetValue (embedMembers id (setValues [] answerFields)) (nameOf "tcId") =
      some (.num 12) ∧
    jsonObjectGetValue (embedMembers id (setValues [] answerFields)) (nameOf "md") =
      some (.str (cBytes "0A1B")) ∧
    jsonObjectGetValue (embedMembers id (setValues [] answerFields)) (nameOf "testPassed") =
      none := by
  have hget := (setValues_embed id plainNames_nil plain_answerFields).2
  refine ⟨?_, ?_, ?_⟩
  · exact (hget "tcId" ⟨by decide, by decide, by decide⟩).trans rfl
  · exact (hget "md" ⟨by decide, by decide, by decide⟩).trans rfl
  · exact (hget "testPassed" ⟨by decide, by decide, by decide⟩).trans rfl

end LibAmvp.Parson
