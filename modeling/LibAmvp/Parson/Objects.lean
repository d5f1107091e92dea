import LibAmvp.Lib.Directory
import LibAmvp.Parson.Parser

/-!
# The objects of parson

An object of parson is a directory of its members.  No comparison is made over no characters, so
that an empty name is hidden, and a new member is stored under no more of its name than
{lit}`STRING_NAME_MAX` characters.  The values that are set belong to no other value.

Main results:

- Theorem {lit}`jsonObjectSetValue_apart_iff`: when does a new member keep the names apart?
- Theorem {lit}`runObject_lookups`: over whole runs, the lookups in an object are those in a
  partial map from names to values.
-/

namespace LibAmvp.Parson

open JsonTree

variable {ν : Type}

/-! ## Operations -/

/-- {lit}`json_object_get_value`. -/
def jsonObjectGetValue (members : Members ν) (name : NulString) : Option (JsonTree ν) :=
  jsonObjectGetnValue members name (NulString.strnlenS (some name) stringNameMax)

/-- {lit}`json_object_set_value`.  A value that is found is overwritten where the name is met
first. -/
def jsonObjectSetValue (members : Members ν) (name : NulString) (value : JsonTree ν) :
    Option (Members ν) :=
  if (jsonObjectGetValue members name).isSome then
    match members.findIdx? fun m => m.1 = name with
    | some i => some (members.set i (name, value))
    | none => jsonObjectAdd members name value
  else jsonObjectAdd members name value

/-- {lit}`json_object_remove_internal`: the last member replaces the one that is removed. -/
def jsonObjectRemoveInternal (members : Members ν) (name : NulString) : Option (Members ν) :=
  if (jsonObjectGetValue members name).isNone then none
  else do
    let i ← members.findIdx? fun m => m.1 = name
    let last ← members.getLast?
    some (if i ≠ members.length - 1 then (members.set i last).dropLast else members.dropLast)

/-! ## An object is a directory -/

/-- A name that is compared at all. -/
def Visible (name : NulString) : Prop := name.chars ≠ []

instance : DecidablePred Visible := fun name => inferInstanceAs (Decidable (name.chars ≠ []))

theorem jsonObjectGetValue_eq (members : Members ν) (name : NulString) :
    jsonObjectGetValue members name =
      if Visible name then Directory.lookup members name else none := by
  have hsame (m : NulString × JsonTree ν) :
      (NulString.strnlenS (some m.1) stringNameMax = NulString.strnlenS (some name) stringNameMax ∧
        NulString.strnlenS (some name) stringNameMax ≠ 0 ∧ name = m.1) ↔
        Visible name ∧ m.1 = name := by
    rw [NulString.strnlenS_some, NulString.strnlenS_some, Visible, ne_eq, Nat.min_eq_zero_iff,
      List.length_eq_zero_iff]
    constructor
    · rintro ⟨-, hne, rfl⟩
      exact ⟨fun h => hne (Or.inl h), rfl⟩
    · rintro ⟨hne, rfl⟩
      exact ⟨rfl, not_or.mpr ⟨hne, by decide⟩, rfl⟩
  simp only [jsonObjectGetValue, jsonObjectGetnValue, hsame]
  by_cases hname : Visible name
  · simp only [hname, true_and, if_pos, Directory.lookup]
  · simp [hname]

theorem jsonObjectAdd_eq (members : Members ν) (name : NulString) (value : JsonTree ν) :
    jsonObjectAdd members name value =
      if (jsonObjectGetValue members name).isSome then none
      else some (members ++ [(name.take stringNameMax, value)]) := by
  have htake : name.take (NulString.strnlenS (some name) stringNameMax) =
      name.take stringNameMax := by
    apply NulString.ext
    rw [NulString.take_chars, NulString.take_chars, NulString.strnlenS_some, List.take_eq_take_iff]
    omega
  rw [jsonObjectAdd, jsonObjectAddn, htake, jsonObjectGetValue]

theorem uniqueNames_iff {members : Members ν} :
    UniqueNames members ↔
      (∀ m ∈ members, m.1.chars.length ≤ stringNameMax) ∧ Directory.Apart Visible members :=
  Iff.rfl

/-- A name that is found, and where. -/
theorem jsonObjectGetValue_isSome_iff {members : Members ν} {name : NulString} :
    (jsonObjectGetValue members name).isSome ↔ Visible name ∧ name ∈ names members := by
  rw [jsonObjectGetValue_eq]
  by_cases hname : Visible name
  · rw [if_pos hname, Directory.lookup_isSome_iff, names]
    simp [hname]
  · simp [hname]

/-- What setting a member does to the directory. -/
theorem jsonObjectSetValue_eq (members : Members ν) (name : NulString) (value : JsonTree ν) :
    jsonObjectSetValue members name value = some (
      if Visible name ∧ name ∈ names members then Directory.put members name value
      else members ++ [(name.take stringNameMax, value)]) := by
  rw [jsonObjectSetValue, jsonObjectAdd_eq]
  by_cases hfound : Visible name ∧ name ∈ names members
  · rw [if_pos (jsonObjectGetValue_isSome_iff.mpr hfound), if_pos hfound, Directory.put]
    cases hplace : Directory.place members name with
    | none => exact absurd hfound.2 (Directory.place_eq_none_iff.mp hplace)
    | some i =>
      rw [show members.findIdx? (fun m => m.1 = name) = some i from hplace]
  · have hnone := mt jsonObjectGetValue_isSome_iff.mp hfound
    rw [if_neg hnone, if_neg hnone, if_neg hfound]

/-- What removing a member does to the directory. -/
theorem jsonObjectRemoveInternal_eq (members : Members ν) (name : NulString) :
    jsonObjectRemoveInternal members name =
      if Visible name then (Directory.place members name).map (Directory.takeOut members)
      else none := by
  by_cases hfound : (jsonObjectGetValue members name).isSome
  · rcases jsonObjectGetValue_isSome_iff.mp hfound with ⟨hname, hmem⟩
    rw [jsonObjectRemoveInternal, if_neg (by simpa using Option.isSome_iff_ne_none.mp hfound),
      if_pos hname]
    cases hplace : Directory.place members name with
    | none => exact absurd hmem (Directory.place_eq_none_iff.mp hplace)
    | some i =>
      rw [show members.findIdx? (fun m => m.1 = name) = some i from hplace]
      cases hlast : members.getLast? with
      | none =>
        rw [List.getLast?_eq_none_iff.mp hlast] at hmem
        exact absurd hmem List.not_mem_nil
      | some last =>
        rw [Option.map_some, Directory.takeOut, hlast]
        rfl
  · have hnone : ¬(Visible name ∧ name ∈ names members) :=
      mt jsonObjectGetValue_isSome_iff.mpr hfound
    rw [jsonObjectRemoveInternal, if_pos (by simpa using hfound)]
    by_cases hname : Visible name
    · rw [if_pos hname, Directory.place_eq_none_iff.mpr fun h => hnone ⟨hname, h⟩, Option.map_none]
    · rw [if_neg hname]

/-! ## Runs -/

/-- A call that changes an object. -/
inductive ObjectCall (ν : Type) where
  | set (name : NulString) (value : JsonTree ν)
  | remove (name : NulString)
  | clear

/-- A call that is made on an object: the object afterwards, and whether the call succeeds.
A call that fails leaves the object as it was. -/
def callObject (members : Members ν) : ObjectCall ν → Members ν × Bool
  | .set name value =>
    match jsonObjectSetValue members name value with
    | some members => (members, true)
    | none => (members, false)
  | .remove name =>
    match jsonObjectRemoveInternal members name with
    | some members => (members, true)
    | none => (members, false)
  | .clear => ([], true)

/-- A run of calls: the object at the end, and which calls succeed. -/
def runObject (members : Members ν) : List (ObjectCall ν) → Members ν × List Bool
  | [] => (members, [])
  | call :: calls =>
    let r := callObject members call
    let rest := runObject r.1 calls
    (rest.1, r.2 :: rest.2)

/-- What an object is for: a value for some names. -/
abbrev NameMap (ν : Type) := NulString → Option (JsonTree ν)

/-- What a call is for: a value is set under a name, or removed.  A call that removes nothing
fails. -/
def callMap (map : NameMap ν) : ObjectCall ν → NameMap ν × Bool
  | .set name value => (if Visible name then Function.update map name (some value) else map, true)
  | .remove name => (Function.update map name none, (map name).isSome)
  | .clear => (fun _ => none, true)

/-- A run of calls on a map. -/
def runMap (map : NameMap ν) : List (ObjectCall ν) → NameMap ν × List Bool
  | [] => (map, [])
  | call :: calls =>
    let r := callMap map call
    let rest := runMap r.1 calls
    (rest.1, r.2 :: rest.2)

/-- A call whose name parson stores in full. -/
def ObjectCall.Fits : ObjectCall ν → Prop
  | .set name _ => name.chars.length ≤ stringNameMax
  | _ => True

/-- The value a call brings has a property. -/
def ObjectCall.Brings (p : JsonTree ν → Prop) : ObjectCall ν → Prop
  | .set _ value => p value
  | _ => True

/-- Setting a member under a name that is stored in full. -/
theorem jsonObjectSetValue_fits {name : NulString} (hname : name.chars.length ≤ stringNameMax)
    (members : Members ν) (value : JsonTree ν) :
    jsonObjectSetValue members name value = some (
      if Visible name then Directory.put members name value else members ++ [(name, value)]) := by
  rw [jsonObjectSetValue_eq, NulString.take_of_length_le hname]
  by_cases hvisible : Visible name
  · rw [if_pos hvisible]
    by_cases hmem : name ∈ names members
    · rw [if_pos ⟨hvisible, hmem⟩]
    · rw [if_neg fun h => hmem h.2, Directory.put, Directory.place_eq_none_iff.mpr hmem]
  · rw [if_neg hvisible, if_neg fun h => hvisible h.1]

section Calls

variable {members : Members ν} (h : UniqueNames members) (name : NulString)

include h

theorem callObject_set_refines (hname : name.chars.length ≤ stringNameMax) (value : JsonTree ν) :
    UniqueNames (callObject members (.set name value)).1 ∧
      jsonObjectGetValue (callObject members (.set name value)).1 =
        (callMap (jsonObjectGetValue members) (.set name value)).1 ∧
      (callObject members (.set name value)).2 = true := by
  rw [callObject, jsonObjectSetValue_fits hname]
  dsimp only [callMap]
  rw [uniqueNames_iff] at h ⊢
  by_cases hvisible : Visible name
  · simp only [if_pos hvisible]
    refine ⟨⟨fun m hm => ?_, h.2.put name value⟩, ?_, trivial⟩
    · rcases Directory.mem_put hm with rfl | hm
      · exact hname
      · exact h.1 m hm
    · funext k
      rw [jsonObjectGetValue_eq, Directory.lookup_put, Function.update_apply, jsonObjectGetValue_eq]
      by_cases hk : name = k
      · subst hk
        rw [if_pos hvisible, if_pos rfl, if_pos rfl]
      · rw [if_neg hk, if_neg (Ne.symm hk)]
  · simp only [if_neg hvisible]
    refine ⟨⟨fun m hm => ?_, h.2.append_hidden hvisible value⟩, ?_, trivial⟩
    · rcases List.mem_append.mp hm with hm | hm
      · exact h.1 m hm
      · rw [List.mem_singleton.mp hm]
        exact hname
    · funext k
      rw [jsonObjectGetValue_eq, jsonObjectGetValue_eq]
      by_cases hk : Visible k
      · have hne : name ≠ k := fun heq => hvisible (heq ▸ hk)
        rw [if_pos hk, if_pos hk, Directory.lookup_middle hne, List.append_nil]
      · rw [if_neg hk, if_neg hk]

theorem callObject_remove_refines :
    UniqueNames (callObject members (.remove name)).1 ∧
      jsonObjectGetValue (callObject members (.remove name)).1 =
        (callMap (jsonObjectGetValue members) (.remove name)).1 ∧
      (callObject members (.remove name)).2 = (jsonObjectGetValue members name).isSome := by
  rw [callObject, jsonObjectRemoveInternal_eq]
  dsimp only [callMap]
  by_cases hfound : (jsonObjectGetValue members name).isSome
  · rcases jsonObjectGetValue_isSome_iff.mp hfound with ⟨hvisible, hmem⟩
    rw [if_pos hvisible]
    cases hplace : Directory.place members name with
    | none => exact absurd hmem (Directory.place_eq_none_iff.mp hplace)
    | some i =>
      rw [uniqueNames_iff] at h ⊢
      refine ⟨⟨fun m hm => ?_, h.2.takeOut hplace⟩, ?_, hfound.symm⟩
      · exact h.1 m (Directory.mem_takeOut hplace hm)
      · funext k
        show jsonObjectGetValue (Directory.takeOut members i) k = _
        rw [jsonObjectGetValue_eq, Function.update_apply, jsonObjectGetValue_eq]
        by_cases hk : Visible k
        · rw [if_pos hk, if_pos hk, Directory.lookup_takeOut h.2 hplace hvisible hk]
          by_cases hnk : name = k
          · rw [if_pos hnk, if_pos hnk.symm]
          · rw [if_neg hnk, if_neg (Ne.symm hnk)]
        · rw [if_neg hk, if_neg hk, ite_self]
  · have hnone : (if Visible name then
        (Directory.place members name).map (Directory.takeOut members) else none) = none := by
      by_cases hvisible : Visible name
      · have hnot := fun hmem => hfound (jsonObjectGetValue_isSome_iff.mpr ⟨hvisible, hmem⟩)
        rw [if_pos hvisible, Directory.place_eq_none_iff.mpr hnot, Option.map_none]
      · rw [if_neg hvisible]
    rw [hnone]
    refine ⟨h, ?_, by simpa using hfound⟩
    have hget := Option.not_isSome_iff_eq_none.mp hfound
    exact (Function.update_eq_self_iff.mpr hget.symm).symm

end Calls

/-- One call keeps the names apart, and does to the lookups what it is for. -/
theorem callObject_refines {members : Members ν} (h : UniqueNames members) {call : ObjectCall ν}
    (hcall : call.Fits) :
    UniqueNames (callObject members call).1 ∧
      jsonObjectGetValue (callObject members call).1 =
        (callMap (jsonObjectGetValue members) call).1 ∧
      (callObject members call).2 = (callMap (jsonObjectGetValue members) call).2 := by
  cases call with
  | set name value => exact callObject_set_refines h name hcall value
  | remove name => exact callObject_remove_refines h name
  | clear =>
    refine ⟨⟨by simp [callObject], List.nodup_nil⟩, ?_, rfl⟩
    funext name
    rw [jsonObjectGetValue_eq]
    exact ite_self _

/-- The values of an object were there or were brought. -/
theorem callObject_brings {p : JsonTree ν → Prop} {members : Members ν}
    (h : ∀ m ∈ members, p m.2) {call : ObjectCall ν} (hcall : call.Fits) (hbrings : call.Brings p) :
    ∀ m ∈ (callObject members call).1, p m.2 := by
  intro m hm
  cases call with
  | set name value =>
    rw [callObject, jsonObjectSetValue_fits hcall] at hm
    dsimp only at hm
    split at hm
    · rcases Directory.mem_put hm with rfl | hm
      · exact hbrings
      · exact h m hm
    · rcases List.mem_append.mp hm with hm | hm
      · exact h m hm
      · rw [List.mem_singleton.mp hm]
        exact hbrings
  | remove name =>
    rw [callObject, jsonObjectRemoveInternal_eq] at hm
    split at hm
    · rename_i removed hremoved
      split at hremoved
      · rcases Option.map_eq_some_iff.mp hremoved with ⟨i, hplace, rfl⟩
        exact h m (Directory.mem_takeOut hplace hm)
      · cases hremoved
    · exact h m hm
  | clear => cases hm

/-- A run keeps the names apart, and does to the lookups what it is for. -/
theorem runObject_lookups {members : Members ν} (h : UniqueNames members)
    {calls : List (ObjectCall ν)} (hcalls : ∀ call ∈ calls, call.Fits) :
    UniqueNames (runObject members calls).1 ∧
      jsonObjectGetValue (runObject members calls).1 =
        (runMap (jsonObjectGetValue members) calls).1 ∧
      (runObject members calls).2 = (runMap (jsonObjectGetValue members) calls).2 := by
  induction calls generalizing members with
  | nil => exact ⟨h, rfl, rfl⟩
  | cons call calls ih =>
    rcases List.forall_mem_cons.mp hcalls with ⟨hcall, hrest⟩
    rcases callObject_refines h hcall with ⟨hunique, hmap, hstatus⟩
    rcases ih hunique hrest with ⟨hunique', hmap', hstatus'⟩
    rw [hmap] at hmap' hstatus'
    refine ⟨hunique', hmap', ?_⟩
    show (callObject members call).2 :: _ = (callMap (jsonObjectGetValue members) call).2 :: _
    rw [hstatus, hstatus']

/-- The values at the end of a run were there at its start or were brought. -/
theorem runObject_brings {p : JsonTree ν → Prop} {members : Members ν}
    (h : ∀ m ∈ members, p m.2) {calls : List (ObjectCall ν)}
    (hcalls : ∀ call ∈ calls, call.Fits ∧ call.Brings p) :
    ∀ m ∈ (runObject members calls).1, p m.2 := by
  induction calls generalizing members with
  | nil => exact h
  | cons call calls ih =>
    rcases List.forall_mem_cons.mp hcalls with ⟨hcall, hrest⟩
    exact ih (callObject_brings h hcall.1 hcall.2) hrest

/-- A new member keeps the names apart exactly when its name is stored in full, or what is stored
of it was not there. -/
theorem jsonObjectSetValue_apart_iff {members : Members ν} (h : UniqueNames members)
    (name : NulString) (value : JsonTree ν) :
    (∀ members' ∈ jsonObjectSetValue members name value, UniqueNames members') ↔
      name.chars.length ≤ stringNameMax ∨ name.take stringNameMax ∉ names members := by
  by_cases hfits : name.chars.length ≤ stringNameMax
  · refine iff_of_true ?_ (Or.inl hfits)
    rintro members' hset
    have hcall := (callObject_set_refines h name hfits value).1
    rw [callObject, Option.mem_def.mp hset] at hcall
    exact hcall
  · have hnew : name ∉ names members := by
      intro hmem
      rcases List.mem_map.mp hmem with ⟨m, hm, rfl⟩
      exact hfits (h.1 m hm)
    have hlength : (name.take stringNameMax).chars.length = stringNameMax := by
      rw [NulString.take_chars, List.length_take]
      omega
    have hvisible : Visible (name.take stringNameMax) := by
      intro hnil
      rw [hnil] at hlength
      cases hlength
    rw [jsonObjectSetValue_eq, if_neg fun hmem => hnew hmem.2, or_iff_right hfits]
    simp only [Option.mem_def, Option.some.injEq, forall_eq']
    rw [uniqueNames_iff] at h ⊢
    rw [Directory.apart_of_perm (List.perm_append_singleton _ members), Directory.apart_cons]
    constructor
    · rintro ⟨-, -, hapart⟩
      exact hapart hvisible
    · intro hapart
      refine ⟨fun m hm => ?_, h.2, fun _ => hapart⟩
      rcases List.mem_append.mp hm with hm | hm
      · exact h.1 m hm
      · rw [List.mem_singleton.mp hm]
        exact hlength.le

end LibAmvp.Parson
