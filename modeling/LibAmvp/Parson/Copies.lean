import LibAmvp.Parson.Objects
import LibAmvp.Parson.RoundTrip

/-!
# Deep copies

{lit}`json_value_deep_copy` copies a value part by part.  The members of an object are looked up
by their names, and copied into a new object under these names.  Allocations succeed.

Main results:

- Theorem {lit}`jsonValueDeepCopy_eq_some_iff`: a sound value is copied exactly when no member of
  an object in it has an empty name, and the copy is the value.
-/

namespace LibAmvp.Parson

open JsonTree

variable {ν : Type}

theorem mem_of_lookup {members : Members ν} {name : NulString} {value : JsonTree ν}
    (h : jsonObjectGetValue members name = some value) : ∃ m ∈ members, m.2 = value := by
  rw [jsonObjectGetValue, jsonObjectGetnValue] at h
  rcases Option.map_eq_some_iff.mp h with ⟨m, hm, hvalue⟩
  exact ⟨m, List.mem_of_find?_eq_some hm, hvalue⟩

/-- What is looked up in an object is smaller than the object. -/
theorem sizeOf_lookup_lt {members : Members ν} {name : NulString} {value : JsonTree ν}
    (h : jsonObjectGetValue members name = some value) :
    sizeOf value < sizeOf (JsonTree.obj members) := by
  rcases mem_of_lookup h with ⟨m, hm, rfl⟩
  have hlt := List.sizeOf_lt_of_mem hm
  rcases m with ⟨name, value⟩
  simp only [Prod.mk.sizeOf_spec] at hlt
  simp only [JsonTree.obj.sizeOf_spec]
  omega

/-- {lit}`json_value_deep_copy`. -/
def jsonValueDeepCopy (fmt : NumberFormat ν) : JsonTree ν → Option (JsonTree ν)
  | .arr items => (items.mapM fun v => jsonValueDeepCopy fmt v).map .arr
  | .obj members =>
    (members.foldlM (fun (copy : Members ν) (m : NulString × JsonTree ν) =>
      match _h : jsonObjectGetValue members m.1 with
      | none => none
      | some value =>
        (jsonValueDeepCopy fmt value).bind fun value => jsonObjectAdd copy m.1 value) []).map .obj
  | .bool b => some (.bool b)
  | .num x => jsonValueInitNumber fmt x
  | .str chars => some (.str chars)
  | .null => some .null
termination_by v => sizeOf v
decreasing_by
  · have hlt := List.sizeOf_lt_of_mem ‹_ ∈ items›
    simp only [JsonTree.arr.sizeOf_spec]
    omega
  · exact sizeOf_lookup_lt _h

/-- The copy of a member: its value is looked up, copied and added under the name. -/
def copyMember (fmt : NumberFormat ν) (members copy : Members ν) (m : NulString × JsonTree ν) :
    Option (Members ν) :=
  (jsonObjectGetValue members m.1).bind fun value =>
    (jsonValueDeepCopy fmt value).bind fun value => jsonObjectAdd copy m.1 value

theorem jsonValueDeepCopy_obj (fmt : NumberFormat ν) (members : Members ν) :
    jsonValueDeepCopy fmt (.obj members) =
      (members.foldlM (copyMember fmt members) []).map .obj := by
  have hstep : (fun (copy : Members ν) (m : NulString × JsonTree ν) =>
      match _h : jsonObjectGetValue members m.1 with
      | none => none
      | some value =>
        (jsonValueDeepCopy fmt value).bind fun value => jsonObjectAdd copy m.1 value) =
      copyMember fmt members := by
    funext copy m
    rw [copyMember]
    split
    · rename_i hnone
      rw [hnone, Option.bind_none]
    · rename_i value hvalue
      rw [hvalue, Option.bind_some]
  rw [jsonValueDeepCopy, hstep]

/-- The names that a copy looks for: no member of an object has an empty one. -/
def Titled : JsonTree ν → Prop
  | .obj members => ∀ m ∈ members, Visible m.1
  | _ => True

/-- The members from some place on are copied behind the copies of those before them. -/
theorem foldlM_copyMember {fmt : NumberFormat ν} {members : Members ν} (h : UniqueNames members)
    (hcopy : ∀ m ∈ members, ∀ w, jsonValueDeepCopy fmt m.2 = some w ↔
      w = m.2 ∧ Everywhere Titled m.2)
    (front rest out : Members ν) (hmembers : members = front ++ rest) :
    rest.foldlM (copyMember fmt members) front = some out ↔
      out = members ∧ ∀ m ∈ rest, Visible m.1 ∧ Everywhere Titled m.2 := by
  induction rest generalizing front with
  | nil =>
    rw [List.append_nil] at hmembers
    rw [List.foldlM_nil, hmembers]
    simp [eq_comm]
  | cons m rest ih =>
    have hm : m ∈ members := by
      rw [hmembers]
      exact List.mem_append_right front List.mem_cons_self
    rw [List.foldlM_cons, Option.bind_eq_bind, copyMember, jsonObjectGetValue_eq]
    by_cases hvisible : Visible m.1
    · have hlookup : Directory.lookup members m.1 = some m.2 :=
        (Directory.lookup_eq_some_iff (uniqueNames_iff.mp h).2 hvisible).mpr hm
      rw [if_pos hvisible, hlookup, Option.bind_some]
      by_cases htitled : Everywhere Titled m.2
      · have hadd : jsonObjectAdd front m.1 m.2 = some (front ++ [m]) := by
          refine (jsonObjectAdd_eq_some_iff (h.1 m hm)).mpr ⟨rfl, fun _ hmem => ?_⟩
          have hmoved := (Directory.apart_of_perm List.perm_middle).mp
            (hmembers ▸ (uniqueNames_iff.mp h).2)
          have hnew := (Directory.apart_cons.mp hmoved).2 hvisible
          rw [List.map_append] at hnew
          exact hnew (List.mem_append_left _ hmem)
        rw [(hcopy m hm m.2).mpr ⟨rfl, htitled⟩, Option.bind_some, hadd, Option.bind_some,
          ih (front ++ [m]) (by rw [hmembers, List.append_assoc, List.singleton_append]),
          List.forall_mem_cons]
        simp [hvisible, htitled]
      · have hnone : jsonValueDeepCopy fmt m.2 = none := by
          rw [Option.eq_none_iff_forall_ne_some]
          intro w hw
          exact htitled ((hcopy m hm w).mp hw).2
        rw [hnone, Option.bind_none, Option.bind_none]
        simp [htitled]
    · rw [if_neg hvisible, Option.bind_none, Option.bind_none]
      simp [hvisible]

/-- Items that are copied one by one. -/
theorem mapM_eq_some_iff {f : JsonTree ν → Option (JsonTree ν)} {p : JsonTree ν → Prop}
    {items : List (JsonTree ν)} (h : ∀ v ∈ items, ∀ w, f v = some w ↔ w = v ∧ p v)
    (copies : List (JsonTree ν)) :
    items.mapM f = some copies ↔ copies = items ∧ ∀ v ∈ items, p v := by
  induction items generalizing copies with
  | nil => simp [eq_comm]
  | cons v items ih =>
    rcases List.forall_mem_cons.mp h with ⟨hv, hrest⟩
    rw [List.mapM_cons, Option.bind_eq_bind, Option.bind_eq_some_iff, List.forall_mem_cons]
    simp only [Option.bind_eq_bind, Option.bind_eq_some_iff, hv, ih hrest]
    constructor
    · rintro ⟨w, ⟨rfl, hp⟩, ws, ⟨rfl, hps⟩, hcons⟩
      exact ⟨(Option.some.inj hcons).symm, hp, hps⟩
    · rintro ⟨rfl, hp, hps⟩
      exact ⟨v, ⟨rfl, hp⟩, items, ⟨rfl, hps⟩, rfl⟩

/-- A sound value is copied exactly when no member of an object in it has an empty name, and the
copy is the value. -/
theorem jsonValueDeepCopy_eq_some_iff {fmt : NumberFormat ν} {v : JsonTree ν}
    (h : Everywhere fmt.Sound v) (w : JsonTree ν) :
    jsonValueDeepCopy fmt v = some w ↔ w = v ∧ Everywhere Titled v := by
  induction v using JsonTree.induction generalizing w with
  | null => simp [jsonValueDeepCopy, Everywhere, Titled, eq_comm]
  | bool b => simp [jsonValueDeepCopy, Everywhere, Titled, eq_comm]
  | num x =>
    have hvalid : fmt.isInvalid x = false := h
    simp [jsonValueDeepCopy, jsonValueInitNumber, hvalid, Everywhere, Titled, eq_comm]
  | str chars => simp [jsonValueDeepCopy, Everywhere, Titled, eq_comm]
  | arr items ih =>
    rw [Everywhere, itemsEverywhere_iff] at h
    rw [jsonValueDeepCopy, Option.map_eq_some_iff, Everywhere, itemsEverywhere_iff]
    simp only [mapM_eq_some_iff fun v hv w => ih v hv (h.2 v hv) w]
    constructor
    · rintro ⟨copies, ⟨rfl, htitled⟩, rfl⟩
      exact ⟨rfl, trivial, htitled⟩
    · rintro ⟨rfl, -, htitled⟩
      exact ⟨items, ⟨rfl, htitled⟩, rfl⟩
  | obj members ih =>
    rw [Everywhere, membersEverywhere_iff] at h
    have hrun (out : Members ν) :=
      foldlM_copyMember h.1 (fun m hm w => ih m hm (h.2 m hm) w) [] members out rfl
    rw [jsonValueDeepCopy_obj, Option.map_eq_some_iff, Everywhere, membersEverywhere_iff]
    simp only [hrun, Titled]
    constructor
    · rintro ⟨out, ⟨rfl, hparts⟩, rfl⟩
      exact ⟨rfl, fun m hm => (hparts m hm).1, fun m hm => (hparts m hm).2⟩
    · rintro ⟨rfl, hvisible, htitled⟩
      exact ⟨members, ⟨rfl, fun m hm => ⟨hvisible m hm, htitled m hm⟩⟩, rfl⟩

/-- An object with a number and an array, which holds an object with a member of this name. -/
def nestedObject (name : NulString) : JsonTree Nat :=
  .obj [(NulString.ofBytes [0x61], .num 4711),
    (NulString.ofBytes [0x62], .arr [.str [0x78], .obj [(name, .null)]])]

/-- The object is copied, and is not when the name is empty. -/
theorem jsonValueDeepCopy_nested :
    jsonValueDeepCopy NumberFormat.decimal (nestedObject (NulString.ofBytes [0x63])) =
        some (nestedObject (NulString.ofBytes [0x63])) ∧
      jsonValueDeepCopy NumberFormat.decimal (nestedObject NulString.empty) = none := by
  have hsound (name : NulString) (hname : name.chars.length ≤ stringNameMax) :
      Everywhere NumberFormat.decimal.Sound (nestedObject name) := by
    have houter : UniqueNames [(NulString.ofBytes [0x61], (.num 4711 : JsonTree Nat)),
        (NulString.ofBytes [0x62], .arr [.str [0x78], .obj [(name, .null)]])] := by
      refine ⟨fun m hm => ?_, ?_⟩
      · rcases List.mem_pair.mp hm with rfl | rfl
        · change (NulString.ofBytes [0x61]).chars.length ≤ stringNameMax
          decide
        · change (NulString.ofBytes [0x62]).chars.length ≤ stringNameMax
          decide
      · change ([NulString.ofBytes [0x61], NulString.ofBytes [0x62]].filter
          fun name => name.chars ≠ []).Nodup
        decide
    have hinner : UniqueNames [(name, (.null : JsonTree Nat))] :=
      ⟨fun m hm => by rw [List.mem_singleton.mp hm]; exact hname,
        (List.nodup_singleton name).filter _⟩
    exact ⟨houter, rfl, ⟨trivial, trivial, ⟨hinner, trivial, trivial⟩, trivial⟩, trivial⟩
  have hvisible : Visible (NulString.ofBytes [0x63]) := by decide
  constructor
  · refine (jsonValueDeepCopy_eq_some_iff (hsound _ (by decide)) _).mpr
      ⟨rfl, fun m hm => ?_, trivial, ⟨trivial, trivial, ⟨fun m hm => ?_, trivial, trivial⟩,
        trivial⟩, trivial⟩
    · rcases List.mem_pair.mp hm with rfl | rfl <;> decide
    · rw [List.mem_singleton.mp hm]
      exact hvisible
  · refine Option.eq_none_iff_forall_ne_some.mpr fun w hw => ?_
    obtain ⟨-, -, -, ⟨-, -, ⟨htitled, -⟩, -⟩, -⟩ :=
      (jsonValueDeepCopy_eq_some_iff (hsound _ (by decide)) w).mp hw
    exact absurd (htitled _ List.mem_cons_self) (by decide)

end LibAmvp.Parson
