import LibAmvp.Parson.Accessors
import LibAmvp.Parson.RoundTrip

/-!
# Objects that are built, sent and read

An object is built by calls, serialized, and parsed by its reader, who looks members up.  The
messages of the library are objects that are built from fields under names of its own.

Main results:

- Theorem {lit}`runObject_refines`: over whole runs of calls, a sound object stays sound and is a
  partial map from names to values.
- Theorem {lit}`sentObject_lookups`: the reader of an object finds what the calls have set.
- Theorem {lit}`sentFields_lookups`: the reader of a message finds what its fields have set.
-/

namespace LibAmvp.Parson

open JsonTree

variable {ν : Type} {fmt : NumberFormat ν}

/-! ## Objects -/

/-- Over any run of calls with sound values and with names that are stored in full, a sound object
stays sound, and it is a partial map from names to values. -/
theorem runObject_refines {members : Members ν} (h : Everywhere fmt.Sound (.obj members))
    {calls : List (ObjectCall ν)}
    (hcalls : ∀ call ∈ calls, call.Fits ∧ call.Brings (Everywhere fmt.Sound)) :
    Everywhere fmt.Sound (.obj (runObject members calls).1) ∧
      jsonObjectGetValue (runObject members calls).1 =
        (runMap (jsonObjectGetValue members) calls).1 ∧
      (runObject members calls).2 = (runMap (jsonObjectGetValue members) calls).2 := by
  rw [Everywhere, membersEverywhere_iff] at h ⊢
  rcases runObject_lookups h.1 fun call hcall => (hcalls call hcall).1 with
    ⟨hunique, hmap, hstatus⟩
  exact ⟨⟨hunique, runObject_brings h.2 hcalls⟩, hmap, hstatus⟩

/-- A name of one letter. -/
def letterName (c : UInt8) : NulString := NulString.ofBytes [c]

theorem length_letterName_le (c : UInt8) : (letterName c).chars.length ≤ stringNameMax :=
  (List.takeWhile_sublist _).length_le.trans (by simp [stringNameMax])

theorem runObject_refines_three :
    (runObject [] [.set (letterName 0x61) (.num 4711), .set (letterName 0x62) .null,
      .remove (letterName 0x61)] : Members Nat × List Bool).2 = [true, true, true] := by
  have hsound : Everywhere NumberFormat.decimal.Sound (.obj []) :=
    ⟨⟨by simp, List.nodup_nil⟩, trivial⟩
  refine (runObject_refines hsound ?_).2.2.trans (by decide)
  intro call hcall
  simp only [List.mem_cons, List.not_mem_nil, or_false] at hcall
  rcases hcall with rfl | rfl | rfl
  · exact ⟨length_letterName_le _, rfl⟩
  · exact ⟨length_letterName_le _, trivial⟩
  · exact ⟨trivial, trivial⟩

/-- The reader of an object with sound parts, under names that are kept apart, has the object. -/
theorem sentObject_eq (hfmt : fmt.Lawful) (escapeSlashes isPretty : Bool) {members : Members ν}
    (hunique : UniqueNames members)
    (hparts : ∀ m ∈ members, Everywhere fmt.Sound m.2 ∧ m.2.height < maxNesting) :
    ∃ s, jsonSerializeToString fmt escapeSlashes isPretty (.obj members) = some s ∧
      ∀ m, jsonParseString fmt (NulString.ofBytes ((s.log.apply m).read s.bufSize)) =
        some (.obj members) := by
  have hsound : Everywhere fmt.Sound (.obj members) := by
    rw [Everywhere, membersEverywhere_iff]
    exact ⟨hunique, fun m hm => (hparts m hm).1⟩
  have hheight : (JsonTree.obj members).height ≤ maxNesting :=
    Nat.le_of_lt_succ (membersHeight_lt_iff.mpr fun m hm => (hparts m hm).2)
  rcases jsonSerializeToString_eq fmt escapeSlashes isPretty (.obj members) with
    ⟨s, hs, -, hread⟩
  refine ⟨s, hs, fun m => ?_⟩
  rw [hread]
  exact jsonParseString_text hfmt escapeSlashes isPretty hheight hsound

/-- A new object that is built by calls is serialized and parsed; the lookups of its reader find
what the calls have set. -/
theorem sentObject_lookups (hfmt : fmt.Lawful) (escapeSlashes isPretty : Bool)
    {calls : List (ObjectCall ν)}
    (hcalls : ∀ call ∈ calls, call.Fits ∧
      call.Brings fun v => Everywhere fmt.Sound v ∧ v.height < maxNesting) :
    ∃ s, jsonSerializeToString fmt escapeSlashes isPretty (.obj (runObject [] calls).1) = some s ∧
      ∀ m, ∃ members,
        jsonParseString fmt (NulString.ofBytes ((s.log.apply m).read s.bufSize)) =
          some (.obj members) ∧
        ∀ name, jsonObjectGetValue members name = (runMap (fun _ => none) calls).1 name := by
  have hempty : jsonObjectGetValue ([] : Members ν) = fun _ => none := rfl
  have hunique : UniqueNames ([] : Members ν) := ⟨by simp, List.nodup_nil⟩
  rcases runObject_lookups hunique fun call hcall => (hcalls call hcall).1 with
    ⟨hunique', hmap, -⟩
  have hparts : ∀ m ∈ (runObject [] calls).1,
      Everywhere fmt.Sound m.2 ∧ m.2.height < maxNesting :=
    runObject_brings (by simp) hcalls
  rcases sentObject_eq hfmt escapeSlashes isPretty hunique' hparts with ⟨s, hs, hread⟩
  refine ⟨s, hs, fun m => ⟨(runObject [] calls).1, hread m, fun name => ?_⟩⟩
  rw [hmap, hempty]

/-- Calls that set a member twice, set one to an array, and remove another one. -/
def fiveCalls : List (ObjectCall Nat) :=
  [.set (letterName 0x61) (.num 4711), .set (letterName 0x62) (.arr [.null, .bool true]),
    .set (letterName 0x61) (.str [0x78]), .set (letterName 0x63) .null, .remove (letterName 0x63)]

theorem sentObject_lookups_five :
    ∃ s, jsonSerializeToString NumberFormat.decimal true true
        (.obj (runObject [] fiveCalls).1) = some s ∧
      ∀ m, ∃ members,
        jsonParseString NumberFormat.decimal
          (NulString.ofBytes ((s.log.apply m).read s.bufSize)) = some (.obj members) ∧
        jsonObjectGetValue members (letterName 0x61) = some (.str [0x78]) ∧
        jsonObjectGetValue members (letterName 0x62) = some (.arr [.null, .bool true]) ∧
        jsonObjectGetValue members (letterName 0x63) = none := by
  have hcalls : ∀ call ∈ fiveCalls, call.Fits ∧ call.Brings fun v =>
      Everywhere NumberFormat.decimal.Sound v ∧ v.height < maxNesting := by
    intro call hcall
    simp only [fiveCalls, List.mem_cons, List.not_mem_nil, or_false] at hcall
    rcases hcall with rfl | rfl | rfl | rfl | rfl
    · exact ⟨length_letterName_le _, rfl, by decide⟩
    · exact ⟨length_letterName_le _, ⟨trivial, trivial, trivial, trivial⟩, by decide⟩
    · exact ⟨length_letterName_le _, trivial, by decide⟩
    · exact ⟨length_letterName_le _, trivial, by decide⟩
    · exact ⟨trivial, trivial⟩
  rcases sentObject_lookups decimal_lawful true true hcalls with ⟨s, hs, hread⟩
  refine ⟨s, hs, fun m => ?_⟩
  rcases hread m with ⟨members, hparse, hget⟩
  exact ⟨members, hparse, hget _, hget _, hget _⟩

/-! ## Messages -/

section Messages

variable (number : ℚ → ν)

/-- What every field has, every member has that is set from them; the names stay plain. -/
theorem setValues_members {members : JsonObject} {p : String × Json → Prop}
    (h : PlainNames members) (hmembers : ∀ m ∈ members, p m) {fields : List (String × Json)}
    (hfields : ∀ field ∈ fields, Plain field.1 ∧ p field) :
    PlainNames (setValues members fields) ∧ ∀ m ∈ setValues members fields, p m := by
  induction fields generalizing members with
  | nil => exact ⟨h, hmembers⟩
  | cons field fields ih =>
    rcases List.forall_mem_cons.mp hfields with ⟨⟨hplain, hfield⟩, hrest⟩
    have hset : ∀ m ∈ LibAmvp.jsonObjectSetValue members field.1 field.2, p m := by
      intro m hm
      rw [jsonObjectSetValue_eq_put h.2] at hm
      rcases Directory.mem_put hm with rfl | hm
      · exact hfield
      · exact hmembers m hm
    exact ih (plainNames_set h hplain.2.1 field.2) hset hrest

/-- Plain names are kept apart by their bytes. -/
theorem uniqueNames_embedMembers {members : JsonObject} (h : PlainNames members)
    (hplain : ∀ m ∈ members, Plain m.1) : UniqueNames (embedMembers number members) := by
  rw [embedMembers_eq]
  constructor
  · intro e he
    rcases List.mem_map.mp he with ⟨m, hm, rfl⟩
    have hlength := (hplain m hm).2.2
    rwa [← length_cBytes, ← nameOf_chars (hplain m hm).2.1] at hlength
  · have hnames : (names (members.map fun m => (nameOf m.1, embed number m.2))) =
        (members.map Prod.fst).map nameOf := by
      simp [names, Function.comp_def]
    rw [hnames]
    refine (h.2.map_on ?_).filter _
    intro s hs t ht hsame
    rcases List.mem_map.mp hs with ⟨a, ha, rfl⟩
    rcases List.mem_map.mp ht with ⟨b, hb, rfl⟩
    exact (nameOf_inj (h.1 a ha) (h.1 b hb)).mp hsame

/-- A message that is built from fields under plain names is serialized and parsed; its reader
finds under every plain name what the fields have set there. -/
theorem sentFields_lookups (hfmt : fmt.Lawful) (escapeSlashes isPretty : Bool)
    {fields : List (String × Json)}
    (hfields : ∀ field ∈ fields, Plain field.1 ∧ Everywhere fmt.Sound (embed number field.2) ∧
      (embed number field.2).height < maxNesting) :
    ∃ s, jsonSerializeToString fmt escapeSlashes isPretty
        (embed number (.obj (setValues [] fields))) = some s ∧
      ∀ m, ∃ members,
        jsonParseString fmt (NulString.ofBytes ((s.log.apply m).read s.bufSize)) =
          some (.obj members) ∧
        ∀ name, Plain name → jsonObjectGetValue members (nameOf name) =
          (LibAmvp.jsonObjectGetValue (some (setValues [] fields)) name).map (embed number) := by
  rcases setValues_members (p := fun m => Plain m.1 ∧ Everywhere fmt.Sound (embed number m.2) ∧
      (embed number m.2).height < maxNesting) plainNames_nil (by simp)
      fun field hfield => ⟨(hfields field hfield).1, hfields field hfield⟩ with
    ⟨hnames, hparts⟩
  have hembedded : ∀ m ∈ embedMembers number (setValues [] fields),
      Everywhere fmt.Sound m.2 ∧ m.2.height < maxNesting := by
    rw [embedMembers_eq]
    intro e he
    rcases List.mem_map.mp he with ⟨m, hm, rfl⟩
    exact (hparts m hm).2
  have hunique : UniqueNames (embedMembers number (setValues [] fields)) :=
    uniqueNames_embedMembers number hnames fun m hm => (hparts m hm).1
  rcases sentObject_eq hfmt escapeSlashes isPretty hunique hembedded with ⟨s, hs, hread⟩
  rw [embed]
  refine ⟨s, hs, fun m => ⟨embedMembers number (setValues [] fields), hread m, ?_⟩⟩
  intro name hname
  exact jsonObjectGetValue_embed number hnames.1 hname.1 hname.2.1

end Messages

theorem sentFields_lookups_answer :
    ∃ s, jsonSerializeToString NumberFormat.decimal true true
        (embed (fun q => q.num.toNat) (.obj (setValues [] answerFields))) = some s ∧
      ∀ m, ∃ members,
        jsonParseString NumberFormat.decimal
          (NulString.ofBytes ((s.log.apply m).read s.bufSize)) = some (.obj members) ∧
        jsonObjectGetValue members (nameOf "tcId") = some (.num 12) ∧
        jsonObjectGetValue members (nameOf "md") = some (.str (cBytes "0A1B")) ∧
        jsonObjectGetValue members (nameOf "groups") =
          some (.arr [.obj [(nameOf "tgId", .num 1)]]) ∧
        jsonObjectGetValue members (nameOf "testPassed") = none := by
  have hfields : ∀ field ∈ answerFields, Plain field.1 ∧
      Everywhere NumberFormat.decimal.Sound (embed (fun q => q.num.toNat) field.2) ∧
      (embed (fun q => q.num.toNat) field.2).height < maxNesting := by
    intro field hfield
    refine ⟨plain_answerFields field hfield, ?_⟩
    simp only [answerFields, List.mem_cons, List.not_mem_nil, or_false] at hfield
    rcases hfield with rfl | rfl | rfl | rfl
    · exact ⟨rfl, by decide⟩
    · exact ⟨trivial, by decide⟩
    · exact ⟨⟨trivial, ⟨⟨by decide, by decide⟩, rfl, trivial⟩, trivial⟩, by decide⟩
    · exact ⟨rfl, by decide⟩
  rcases sentFields_lookups (fun q => q.num.toNat) decimal_lawful true true hfields with
    ⟨s, hs, hread⟩
  refine ⟨s, hs, fun m => ?_⟩
  rcases hread m with ⟨members, hparse, hget⟩
  refine ⟨members, hparse, ?_, ?_, ?_, ?_⟩
  · exact (hget "tcId" ⟨by decide, by decide, by decide⟩).trans rfl
  · exact (hget "md" ⟨by decide, by decide, by decide⟩).trans rfl
  · exact (hget "groups" ⟨by decide, by decide, by decide⟩).trans rfl
  · exact (hget "testPassed" ⟨by decide, by decide, by decide⟩).trans rfl

end LibAmvp.Parson
