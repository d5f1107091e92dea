import LibAmvp.Kat.Drbg
import LibAmvp.Kat.Kda
import LibAmvp.Kat.KdfRegistered
import LibAmvp.Lib.NulString

/-!
# Text parameters

Some parameters of a vector set are names.  A handler compares the text it was sent with them
by {lit}`strncmp_s`, which compares as many characters as it is told to, and which leaves the
variable for its outcome alone when there are not so many.  For {lit}`kdfType` and
{lit}`intendedUse` that variable belongs to the whole handler and keeps its value from group to
group and from test to test.

Main results:

- Theorems {lit}`readX942Type_eq_compare`, {lit}`readEncodingType_eq_compare`,
  {lit}`readSaltMethod_eq_compare` and {lit}`hasOtherUse_iff_compare`: what the handlers read.
- Theorem {lit}`text_parameters_iff`: which texts are matched exactly.
-/

namespace LibAmvp

open Guard

/-- The C string of a text. -/
def cString (str : String) : NulString := .ofBytes (cBytes str)

/-- The value of the name that a text is. -/
def namedValue {α : Type} (names : List (NulString × α)) (str : Option NulString) : Option α :=
  str.bind fun str => (names.find? fun row => row.1 = str).map Prod.snd

/-! ## The comparisons -/

/-- The comparison of {lit}`kdfType` in {lit}`amvp_kdf135_x942_kat_handler`, with its variable
for the outcome. -/
def compareKdfType (diff : Bool) (str : Option NulString) :
    Except AmvpResult (X942Type × Bool) := do
  let str ← need str .missingArg
  let diff := NulString.strncmpS (some str) 14 (some (cString "DER")) 3 diff
  if diff = false then pure (.der, diff)
  else
    let diff := NulString.strncmpS (some str) 14 (some (cString "concatentation")) 14 diff
    if diff = false then pure (.concat, diff) else .error .invalidArg

/-- The variable after the groups of a vector set that the handler has gone through. -/
def compareKdfTypes (groups : List (Option NulString)) : Except AmvpResult Bool :=
  groups.foldlM (fun diff str => (compareKdfType diff str).map Prod.snd) false

/-- The comparison of a name of which the text may be a part: {lit}`strnlen_s` sees sixteen
characters of the text. -/
def compareFront (name : NulString) (str : NulString) (diff : Bool) : Bool :=
  NulString.strncmpS (some name) name.chars.length (some str) (NulString.strnlenS (some str) 16)
    diff

/-- {lit}`read_encoding_type`. -/
def compareEncoding (str : Option NulString) : Option KdaEncoding :=
  str.bind fun str =>
    if compareFront (cString "concatenation") str true = false then some .concat else none

/-- {lit}`read_salt_method`. -/
def compareSaltMethod (str : Option NulString) : Option KdaMacSaltMethod :=
  str.bind fun str =>
    let diff := compareFront (cString "default") str true
    if diff = false then some .default
    else if compareFront (cString "random") str diff = false then some .random
    else none

/-- A comparison of {lit}`intendedUse` in {lit}`amvp_drbg_kat_handler`, with its variable for the
outcome. -/
def compareUse (diff : Bool) (use : NulString) (intUse : Option NulString) :
    Except AmvpResult Bool := do
  let diff := NulString.strncmpS intUse use.chars.length (some use) use.chars.length diff
  stopIf (diff = true) .invalidArg
  pure diff

/-- The uses of the entries of {lit}`otherInput`, in their order. -/
def otherInputUses (predResistEnabled reseed : Bool) : List NulString :=
  if predResistEnabled = false ∧ reseed = true then
    [cString "reSeed", cString "generate", cString "generate"]
  else [cString "generate", cString "generate"]

/-- The variable after the entries that the handler has gone through, each with the use that it
should have. -/
def compareUses (entries : List (NulString × Option NulString)) : Except AmvpResult Bool :=
  entries.foldlM (fun diff entry => compareUse diff entry.1 entry.2) false

/-! ## The variable of a handler -/

/-- What every step of a run that does not fail establishes holds at its end. -/
theorem foldlM_keeps {α β ε : Type} {step : β → α → Except ε β} {p : β → Prop}
    (hstep : ∀ b a b', step b a = .ok b' → p b') {as : List α} {b b' : β} (hb : p b)
    (h : as.foldlM step b = .ok b') : p b' := by
  induction as generalizing b with
  | nil => exact Except.ok.inj h ▸ hb
  | cons a as ih =>
      rw [List.foldlM_cons, bind_eq_ok] at h
      obtain ⟨b₁, hb₁, hrest⟩ := h
      exact ih (hstep b a b₁ hb₁) hrest

/-- A handler that has gone on has found no difference. -/
theorem compareKdfType_goes_on {diff diff' : Bool} {str : Option NulString} {type : X942Type}
    (h : compareKdfType diff str = .ok (type, diff')) : diff' = false := by
  unfold compareKdfType at h
  rw [bind_eq_ok] at h
  obtain ⟨s, -, h⟩ := h
  dsimp only at h
  split_ifs at h with hder hconcat
  · cases h
    exact hder
  · cases h
    exact hconcat

theorem compareUse_goes_on {diff diff' : Bool} {use : NulString} {intUse : Option NulString}
    (h : compareUse diff use intUse = .ok diff') : diff' = false := by
  simp only [compareUse, bind_eq_ok, stopIf_eq_ok, exists_const, pure_eq_ok] at h
  rw [← h.2]
  exact Bool.eq_false_of_not_eq_true h.1

theorem compareKdfTypes_goes_on {groups : List (Option NulString)} {diff : Bool}
    (h : compareKdfTypes groups = .ok diff) : diff = false := by
  refine foldlM_keeps (p := (· = false)) (fun b str b' hstep => ?_) rfl h
  obtain ⟨out, hout, rfl⟩ := map_eq_ok.mp hstep
  exact compareKdfType_goes_on hout

theorem compareUses_goes_on {entries : List (NulString × Option NulString)} {diff : Bool}
    (h : compareUses entries = .ok diff) : diff = false :=
  foldlM_keeps (p := (· = false)) (fun _ _ _ hstep => compareUse_goes_on hstep) rfl h

/-! ## What the handlers match -/

theorem cString_chars {str : String} (h : 0 ∉ cBytes str) : (cString str).chars = cBytes str :=
  NulString.ofBytes_chars h

/-- A text without difference to an earlier one: it is shorter than {lit}`DER`, or it starts with
one of the two names that are compared. -/
theorem compareKdfType_false (s : NulString) :
    ((compareKdfType false (some s)).toOption.map Prod.fst) =
      if s.chars.length < 3 ∨ (cString "DER").chars <+: s.chars then some .der
      else if (cString "concatentation").chars <+: s.chars then some .concat
      else none := by
  have hder : NulString.strncmpS (some s) 14 (some (cString "DER")) 3 false =
      if s.chars.length < 3 then false else decide (¬(cString "DER").chars <+: s.chars) :=
    NulString.strncmpS_whole (by decide) (by decide) (by decide) (by decide) false
  have hconcat : NulString.strncmpS (some s) 14 (some (cString "concatentation")) 14 true =
      if s.chars.length < 14 then true
      else decide (¬(cString "concatentation").chars <+: s.chars) :=
    NulString.strncmpS_whole (by decide) (by decide) (by decide) (by decide) true
  unfold compareKdfType
  rw [need_some, ok_bind]
  dsimp only
  rw [hder]
  by_cases hmatch : s.chars.length < 3 ∨ (cString "DER").chars <+: s.chars
  · rw [if_pos hmatch, if_pos]
    · rfl
    · rcases hmatch with hshort | hstart
      · exact if_pos hshort
      · rw [decide_eq_false (not_not.mpr hstart), ite_self]
  · obtain ⟨hlong, hother⟩ := not_or.mp hmatch
    rw [if_neg hmatch, if_neg hlong, decide_eq_true hother, if_neg (by decide), hconcat]
    by_cases hstart : (cString "concatentation").chars <+: s.chars
    · have hlength : 14 ≤ s.chars.length := hstart.length_le
      rw [if_pos hstart, if_pos]
      · rfl
      · rw [if_neg (by omega), decide_eq_false (not_not.mpr hstart)]
    · rw [if_neg hstart, decide_eq_true hstart, ite_self, if_neg (by decide)]
      rfl

/-- A text is matched with a name that it is a start of, when it is not empty. -/
theorem compareFront_true {name : NulString} (hname : name.chars.length < 16) (str : NulString) :
    compareFront name str true = false ↔ str.chars ≠ [] ∧ str.chars <+: name.chars := by
  unfold compareFront
  rw [NulString.strncmpS_front hname (by decide)]
  by_cases hrefused : str.chars.length = 0 ∨ name.chars.length < str.chars.length
  · rw [if_pos hrefused]
    refine iff_of_false (by decide) ?_
    rintro ⟨hsome, hstart⟩
    have hlength := hstart.length_le
    have hpos := List.length_pos_iff.mpr hsome
    omega
  · obtain ⟨hsome, -⟩ := not_or.mp hrefused
    rw [if_neg hrefused, decide_eq_false_iff_not, not_not,
      and_iff_right (fun h => hsome (List.length_eq_zero_iff.mpr h))]

/-- A use is let through when it is missing, shorter than the name, or starts with it. -/
theorem compareUse_false {use : NulString} (hpos : use.chars ≠ [])
    (hmax : use.chars.length ≤ NulString.rsizeMaxStr) (intUse : Option NulString) :
    (compareUse false use intUse).isOk = true ↔
      ∀ s ∈ intUse, s.chars.length < use.chars.length ∨ use.chars <+: s.chars := by
  have hisOk (diff : Bool) : (do
      stopIf (diff = true) AmvpResult.invalidArg
      pure diff : Except AmvpResult Bool).isOk = true ↔ diff = false := by
    cases diff <;> decide
  unfold compareUse
  dsimp only
  rw [hisOk]
  cases intUse with
  | none => exact iff_of_true rfl (by simp)
  | some s =>
      rw [NulString.strncmpS_whole rfl (List.length_pos_iff.mpr hpos) le_rfl hmax]
      simp only [Option.mem_some_iff, forall_eq']
      by_cases hshort : s.chars.length < use.chars.length
      · rw [if_pos hshort]
        exact iff_of_true rfl (Or.inl hshort)
      · rw [if_neg hshort, or_iff_right hshort, decide_eq_false_iff_not, not_not]

/-! ## The texts of the handlers -/

/-- A name starts with a text when its bytes start with those of the text. -/
theorem isStartOf_iff {str name : String} (hname : IsCString name) (hstr : IsCString str) :
    isStartOf str name ↔
      (cString str).chars ≠ [] ∧ (cString str).chars <+: (cString name).chars := by
  rw [cString_chars (zero_notMem_cBytes hstr), cString_chars (zero_notMem_cBytes hname)]
  unfold isStartOf
  refine and_congr (not_congr ⟨?_, cBytes_eq_nil⟩) ⟨fun h => h.map _, fun h => ?_⟩
  · rintro rfl
    rfl
  · rw [toList_eq_map_cBytes hstr, toList_eq_map_cBytes hname]
    exact h.map _

/-- The handler's reading of {lit}`fixedInfoEncoding`. -/
theorem readEncodingType_eq_compare {str : Option String} (h : ∀ s ∈ str, IsCString s) :
    readEncodingType str = compareEncoding (str.map cString) := by
  cases str with
  | none => rfl
  | some s =>
      have hiff : isStartOf s "concatenation" ↔
          compareFront (cString "concatenation") (cString s) true = false :=
        (isStartOf_iff (by decide) (h s rfl)).trans
          (compareFront_true (by decide) (cString s)).symm
      exact if_congr hiff rfl rfl

/-- The handler's reading of {lit}`saltMethod`. -/
theorem readSaltMethod_eq_compare {str : Option String} (h : ∀ s ∈ str, IsCString s) :
    readSaltMethod str = compareSaltMethod (str.map cString) := by
  cases str with
  | none => rfl
  | some s =>
      have hdefault : isStartOf s "default" ↔
          compareFront (cString "default") (cString s) true = false :=
        (isStartOf_iff (by decide) (h s rfl)).trans
          (compareFront_true (by decide) (cString s)).symm
      have hrandom : isStartOf s "random" ↔
          compareFront (cString "random") (cString s) true = false :=
        (isStartOf_iff (by decide) (h s rfl)).trans
          (compareFront_true (by decide) (cString s)).symm
      change (if isStartOf s "default" then some KdaMacSaltMethod.default
        else if isStartOf s "random" then some .random else none) =
        if compareFront (cString "default") (cString s) true = false then some .default
        else if compareFront (cString "random") (cString s)
          (compareFront (cString "default") (cString s) true) = false then some .random
        else none
      by_cases hmatch : compareFront (cString "default") (cString s) true = false
      · rw [if_pos hmatch, if_pos (hdefault.mpr hmatch)]
      · rw [if_neg hmatch, if_neg (mt hdefault.mp hmatch), Bool.eq_true_of_not_eq_false hmatch]
        exact if_congr hrandom rfl rfl

/-- The handler's reading of {lit}`kdfType`, after groups that it has gone through. -/
theorem readX942Type_eq_compare {str : String} (h : 0 ∉ cBytes str) :
    readX942Type str = (compareKdfType false (some (cString str))).toOption.map Prod.fst := by
  rw [compareKdfType_false, cString_chars h]
  unfold readX942Type
  dsimp only
  refine if_congr (or_congr_right ?_) rfl (if_congr ?_ rfl rfl)
  · rw [eq_comm, List.prefix_iff_eq_take]
    rfl
  · rw [eq_comm, List.prefix_iff_eq_take]
    rfl

/-- The handler's check of {lit}`intendedUse`, after entries that it has gone through. -/
theorem hasOtherUse_iff_compare {obj : Option JsonObject} {use : String}
    (huse : use ∈ ["reSeed", "generate"])
    (h : ∀ s ∈ jsonObjectGetString obj "intendedUse", 0 ∉ cBytes s) :
    hasOtherUse obj use ↔ (compareUse false (cString use)
      ((jsonObjectGetString obj "intendedUse").map cString)).isOk = false := by
  have hnul : 0 ∉ cBytes use ∧ cBytes use ≠ [] ∧ (cBytes use).length ≤ NulString.rsizeMaxStr := by
    rcases List.mem_cons.mp huse with rfl | huse
    · decide
    · rw [List.mem_singleton.mp huse]
      decide
  have hchars := cString_chars hnul.1
  rw [← Bool.not_eq_true, compareUse_false (by rw [hchars]; exact hnul.2.1)
    (by rw [hchars]; exact hnul.2.2)]
  unfold hasOtherUse
  cases hget : jsonObjectGetString obj "intendedUse" with
  | none => simp
  | some s =>
      simp only [Option.mem_some_iff, exists_eq_left', Option.map_some, forall_eq', not_or, not_lt,
        hchars, cString_chars (h s hget)]
      refine and_congr_right fun _ => not_congr ?_
      rw [eq_comm, List.prefix_iff_eq_take]

/-- The {lit}`intendedUse` of an entry of {lit}`otherInput`. -/
def intendedUse (elem : Json) : Option NulString :=
  (jsonObjectGetString (jsonValueGetObject (some elem)) "intendedUse").map cString

/-- The comparison goes on behind an entry that the handler has read. -/
theorem compareUse_readDrbgInput {inputs : List Json} {index : Nat} {use : String}
    {input : DrbgInput} {elem : Json} (h : readDrbgInput inputs index use = .ok input)
    (helem : inputs[index]? = some elem) (huse : use ∈ ["reSeed", "generate"])
    (hnul : ∀ s ∈ jsonObjectGetString (jsonValueGetObject (some elem)) "intendedUse",
      0 ∉ cBytes s) :
    compareUse false (cString use) (intendedUse elem) = .ok false := by
  simp only [readDrbgInput, helem, bind_eq_ok, stopIf_eq_ok, exists_const, need_eq_ok,
    Option.some.injEq, exists_eq_left'] at h
  obtain ⟨hno, -⟩ := h
  have hcompare := hasOtherUse_iff_compare huse hnul
  rw [hcompare, Bool.not_eq_false] at hno
  change compareUse false (cString use) (Option.map cString _) = _
  cases hrun : compareUse false (cString use) (Option.map cString _) with
  | error rc =>
      rw [hrun] at hno
      cases hno
  | ok diff => rw [compareUse_goes_on hrun]

/-- The handler has compared the uses of all entries of a test that it has read. -/
theorem compareUses_readStrings {group : DrbgTestGroup} {testobj : Option JsonObject}
    {test : DrbgTest} {inputs : List Json} (h : readStrings group testobj = .ok test)
    (hinputs : jsonObjectGetArray testobj "otherInput" = some inputs)
    (hnul : ∀ elem ∈ inputs, ∀ s ∈ jsonObjectGetString (jsonValueGetObject (some elem))
      "intendedUse", 0 ∉ cBytes s) :
    compareUses ((otherInputUses group.predResistEnabled group.reseed).zip
      (inputs.map intendedUse)) = .ok false := by
  simp only [readStrings, hinputs, bind_eq_ok, stopIf_eq_ok, exists_const, need_eq_ok,
    Option.some.injEq, exists_eq_left'] at h
  obtain ⟨_, -, _, -, _, -, -, hthree, reseedInput, hreseed, htwo, _, hinput1, _, hinput2, -⟩ := h
  by_cases hreseeds : group.predResistEnabled = false ∧ group.reseed = true
  · simp only [hreseeds, and_self, decide_true, true_and, ne_eq, Decidable.not_not, ↓reduceIte]
      at hthree hinput1 hinput2 hreseed
    obtain ⟨first, second, third, rfl⟩ := List.length_eq_three.mp hthree
    obtain ⟨_, hinput0, -⟩ := map_eq_ok.mp (onlyIf_pos trivial _ _ ▸ hreseed)
    have hfirst := compareUse_readDrbgInput hinput0 rfl (by simp) (hnul first (by simp))
    have hsecond := compareUse_readDrbgInput hinput1 rfl (by simp) (hnul second (by simp))
    have hthird := compareUse_readDrbgInput hinput2 rfl (by simp) (hnul third (by simp))
    rw [otherInputUses, if_pos hreseeds]
    simp only [compareUses, List.map_cons, List.zip_cons_cons, List.foldlM_cons, hfirst,
      hsecond, hthird, ok_bind]
    rfl
  · simp only [hreseeds, decide_false, Bool.false_eq_true, ↓reduceIte, true_and, ne_eq,
      Decidable.not_not] at htwo hinput1 hinput2
    obtain ⟨first, second, rfl⟩ := List.length_eq_two.mp htwo
    have hfirst := compareUse_readDrbgInput hinput1 rfl (by simp) (hnul first (by simp))
    have hsecond := compareUse_readDrbgInput hinput2 rfl (by simp) (hnul second (by simp))
    rw [otherInputUses, if_neg hreseeds]
    simp only [compareUses, List.map_cons, List.zip_cons_cons, List.foldlM_cons, hfirst,
      hsecond, ok_bind]
    rfl

/-! ## Exact matches -/

/-- The names of {lit}`kdfType`, as they are registered. -/
def kdfTypeNames : List (NulString × X942Type) :=
  [X942Type.der, .concat].map fun type => (cString type.registeredName, type)

/-- The name of {lit}`fixedInfoEncoding`. -/
def encodingNames : List (NulString × KdaEncoding) := [(cString "concatenation", .concat)]

/-- The names of {lit}`saltMethod`. -/
def saltMethodNames : List (NulString × KdaMacSaltMethod) :=
  [(cString "default", .default), (cString "random", .random)]

/-- A {lit}`kdfType` that is matched exactly: none, {lit}`DER`, or a text that is not shorter, that
starts with neither of the names that are compared and is not the other name that is
registered. -/
def KdfTypeExact (str : Option NulString) : Prop :=
  ∀ s ∈ str, s = cString "DER" ∨ 3 ≤ s.chars.length ∧ ¬(cString "DER").chars <+: s.chars ∧
    ¬(cString "concatentation").chars <+: s.chars ∧ s ≠ cString "concatenation"

/-- A text that is matched exactly with names that it may be a part of: when it is the start of
one, it is empty or the whole name. -/
def FrontExact {α : Type} (names : List (NulString × α)) (str : Option NulString) : Prop :=
  ∀ s ∈ str, ∀ row ∈ names, s.chars <+: row.1.chars → s.chars = [] ∨ s = row.1

/-- An {lit}`intendedUse` that is matched exactly: it is there, it is not shorter than the name,
and it is the name if it starts with it. -/
def UseExact (use : NulString) (str : Option NulString) : Prop :=
  ∃ s ∈ str, use.chars.length ≤ s.chars.length ∧ (use.chars <+: s.chars → s = use)

theorem namedValue_one {α : Type} (name s : NulString) (value : α) :
    namedValue [(name, value)] (some s) = if s = name then some value else none := by
  unfold namedValue
  rw [Option.bind_some, List.find?_cons]
  by_cases h : s = name
  · simp [h]
  · simp [h, Ne.symm h]

theorem namedValue_two {α : Type} (name name' s : NulString) (value value' : α) :
    namedValue [(name, value), (name', value')] (some s) =
      if s = name then some value else if s = name' then some value' else none := by
  rw [← namedValue_one]
  unfold namedValue
  rw [Option.bind_some, Option.bind_some, List.find?_cons]
  by_cases h : s = name
  · simp [h]
  · simp [h, Ne.symm h]

/-- A {lit}`kdfType` after groups that the handler has gone through. -/
theorem kdfType_exact_iff (str : Option NulString) :
    (compareKdfType false str).toOption.map Prod.fst = namedValue kdfTypeNames str ↔
      KdfTypeExact str := by
  unfold KdfTypeExact
  cases str with
  | none => exact iff_of_true rfl (by simp)
  | some s =>
      have hnames : namedValue kdfTypeNames (some s) = if s = cString "DER" then some .der
          else if s = cString "concatenation" then some .concat else none :=
        namedValue_two _ _ s _ _
      rw [compareKdfType_false, hnames]
      simp only [Option.mem_some_iff, forall_eq']
      by_cases hder : s = cString "DER"
      · rw [if_pos hder, if_pos (Or.inr (hder ▸ List.prefix_refl _))]
        exact iff_of_true rfl (Or.inl hder)
      · rw [if_neg hder, or_iff_right hder]
        by_cases hconcat : s = cString "concatenation"
        · rw [if_pos hconcat]
          subst hconcat
          exact iff_of_false (by decide) (by simp)
        · rw [if_neg hconcat]
          split_ifs with hmatch hstart
          · refine iff_of_false (by simp) ?_
            rintro ⟨hlong, hother, -⟩
            rcases hmatch with hshort | hstart
            · omega
            · exact hother hstart
          · exact iff_of_false (by simp) fun h => h.2.2.1 hstart
          · obtain ⟨hlong, hother⟩ := not_or.mp hmatch
            exact iff_of_true rfl ⟨by omega, hother, hstart, hconcat⟩

/-- A {lit}`fixedInfoEncoding`. -/
theorem encoding_exact_iff (str : Option NulString) :
    compareEncoding str = namedValue encodingNames str ↔ FrontExact encodingNames str := by
  unfold FrontExact
  cases str with
  | none => exact iff_of_true rfl (by simp)
  | some s =>
      have hcode : compareEncoding (some s) = if s.chars ≠ [] ∧
          s.chars <+: (cString "concatenation").chars then some .concat else none :=
        if_congr (compareFront_true (by decide) s) rfl rfl
      rw [hcode]
      unfold encodingNames
      rw [namedValue_one]
      simp only [Option.mem_some_iff, forall_eq', List.mem_singleton, forall_eq]
      by_cases hname : s = cString "concatenation"
      · rw [if_pos hname, if_pos ⟨by rw [hname]; decide, hname ▸ List.prefix_refl _⟩]
        exact iff_of_true rfl fun _ => Or.inr hname
      · rw [if_neg hname]
        split_ifs with hmatch
        · exact iff_of_false (by simp) fun h => (h hmatch.2).elim hmatch.1 hname
        · exact iff_of_true rfl fun hstart => Or.inl (by_contra fun hsome => hmatch ⟨hsome, hstart⟩)

theorem compareSaltMethod_some (s : NulString) :
    compareSaltMethod (some s) =
      if s.chars ≠ [] ∧ s.chars <+: (cString "default").chars then some .default
      else if s.chars ≠ [] ∧ s.chars <+: (cString "random").chars then some .random
      else none := by
  have hdefaultLength : (cString "default").chars.length < 16 := by decide
  have hrandomLength : (cString "random").chars.length < 16 := by decide
  have hdefault := compareFront_true hdefaultLength s
  have hrandom := compareFront_true hrandomLength s
  change (if compareFront (cString "default") s true = false then some KdaMacSaltMethod.default
    else if compareFront (cString "random") s (compareFront (cString "default") s true) = false
      then some .random else none) = _
  by_cases hmatch : compareFront (cString "default") s true = false
  · rw [if_pos hmatch, if_pos (hdefault.mp hmatch)]
  · rw [if_neg hmatch, if_neg (mt hdefault.mpr hmatch), Bool.eq_true_of_not_eq_false hmatch]
    exact if_congr hrandom rfl rfl

/-- A {lit}`saltMethod`. -/
theorem saltMethod_exact_iff (str : Option NulString) :
    compareSaltMethod str = namedValue saltMethodNames str ↔ FrontExact saltMethodNames str := by
  unfold FrontExact
  cases str with
  | none => exact iff_of_true rfl (by simp)
  | some s =>
      rw [compareSaltMethod_some]
      unfold saltMethodNames
      rw [namedValue_two]
      simp only [Option.mem_some_iff, forall_eq', List.forall_mem_cons]
      by_cases hdefault : s = cString "default"
      · rw [if_pos hdefault]
        subst hdefault
        exact iff_of_true (by decide) (by decide)
      · by_cases hrandom : s = cString "random"
        · rw [if_neg hdefault, if_pos hrandom]
          subst hrandom
          exact iff_of_true (by decide) (by decide)
        · rw [if_neg hdefault, if_neg hrandom]
          split_ifs with hstart hstart'
          · exact iff_of_false (by simp) fun h => (h.1 hstart.2).elim hstart.1 hdefault
          · exact iff_of_false (by simp) fun h => (h.2.1 hstart'.2).elim hstart'.1 hrandom
          · refine iff_of_true rfl ⟨fun h => Or.inl ?_, fun h => Or.inl ?_, by simp⟩
            · exact by_contra fun hsome => hstart ⟨hsome, h⟩
            · exact by_contra fun hsome => hstart' ⟨hsome, h⟩

/-- An {lit}`intendedUse` after entries that the handler has gone through. -/
theorem use_exact_iff {use : NulString} (hpos : use.chars ≠ [])
    (hmax : use.chars.length ≤ NulString.rsizeMaxStr) (str : Option NulString) :
    ((compareUse false use str).isOk = true ↔ str = some use) ↔ UseExact use str := by
  rw [compareUse_false hpos hmax]
  unfold UseExact
  cases str with
  | none => simp
  | some s =>
      simp only [Option.mem_some_iff, forall_eq', Option.some_inj, exists_eq_left']
      by_cases hname : s = use
      · subst hname
        exact iff_of_true (iff_of_true (Or.inr (List.prefix_refl _)) rfl) ⟨le_rfl, fun _ => rfl⟩
      · rw [iff_false_right hname, not_or, not_lt]
        exact and_congr_right fun _ => ⟨fun h hstart => absurd hstart h, fun h hstart =>
          hname (h hstart)⟩

theorem otherInputUses_mem {predResistEnabled reseed : Bool} {use : NulString}
    (h : use ∈ otherInputUses predResistEnabled reseed) :
    use = cString "reSeed" ∨ use = cString "generate" := by
  unfold otherInputUses at h
  split_ifs at h
  · simpa using h
  · exact Or.inr (by simpa using h)

/-- After all groups and tests that a handler has gone through, a text is matched exactly when
it is an exact {lit}`kdfType`, {lit}`fixedInfoEncoding`, {lit}`saltMethod` or
{lit}`intendedUse`. -/
theorem text_parameters_iff (str : Option NulString) (groups : List (Option NulString))
    (entries : List (NulString × Option NulString)) (diff diff' : Bool)
    (hgroups : compareKdfTypes groups = .ok diff) (hentries : compareUses entries = .ok diff')
    (predResistEnabled reseed : Bool) :
    ((compareKdfType diff str).toOption.map Prod.fst = namedValue kdfTypeNames str ↔
        KdfTypeExact str) ∧
      (compareEncoding str = namedValue encodingNames str ↔ FrontExact encodingNames str) ∧
      (compareSaltMethod str = namedValue saltMethodNames str ↔
        FrontExact saltMethodNames str) ∧
      ∀ use ∈ otherInputUses predResistEnabled reseed,
        ((compareUse diff' use str).isOk = true ↔ str = some use) ↔ UseExact use str := by
  obtain rfl := compareKdfTypes_goes_on hgroups
  obtain rfl := compareUses_goes_on hentries
  refine ⟨kdfType_exact_iff str, encoding_exact_iff str, saltMethod_exact_iff str, ?_⟩
  intro use huse
  rcases otherInputUses_mem huse with rfl | rfl
  · exact use_exact_iff (by decide) (by decide) str
  · exact use_exact_iff (by decide) (by decide) str

/-- A single character is taken for {lit}`DER`. -/
theorem short_kdfType_matched :
    (compareKdfType false (some (cString "D"))).toOption.map Prod.fst ≠
      namedValue kdfTypeNames (some (cString "D")) := by
  decide

theorem text_parameters_der :
    ((compareKdfType false (some (cString "DER"))).toOption.map Prod.fst =
        namedValue kdfTypeNames (some (cString "DER")) ↔ KdfTypeExact (some (cString "DER"))) ∧
      (compareEncoding (some (cString "DER")) = namedValue encodingNames (some (cString "DER")) ↔
        FrontExact encodingNames (some (cString "DER"))) ∧
      (compareSaltMethod (some (cString "DER")) =
        namedValue saltMethodNames (some (cString "DER")) ↔
        FrontExact saltMethodNames (some (cString "DER"))) ∧
      ∀ use ∈ otherInputUses false true,
        ((compareUse false use (some (cString "DER"))).isOk = true ↔
          some (cString "DER") = some use) ↔ UseExact use (some (cString "DER")) :=
  text_parameters_iff (some (cString "DER")) [some (cString "DER")]
    [(cString "generate", some (cString "generate"))] false false (by decide) (by decide)
    false true

end LibAmvp
