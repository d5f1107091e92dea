import LibAmvp.Session.RequestFile
import LibAmvp.Session.Run

/-!
# The session info file

A session leaves a file by which it can be resumed later.  Its name is made of the ID of the
session and of two variables of the environment, and is written into a buffer of a fixed
size.  Every validation of the session rewrites the file.

Main results:

- Theorem {lit}`sessionInfoFilename_complete_iff`: when the name of the file is complete.
- Theorem {lit}`sessionFile_roundTrip_iff`: the file restores what was written, also after any
  number of validations, just when the URL and the token are UTF-8.
-/

namespace LibAmvp

/-! ## The name of the file -/

/-- The part of a session URL behind the first {lit}`testSessions/`. -/
def IsSessionId (url id : String) : Prop :=
  ∃ before : List Char, url.toList = before ++ ("testSessions/".toList ++ id.toList) ∧
    ∀ before' after, url.toList = before' ++ ("testSessions/".toList ++ after) →
      before.length ≤ before'.length

/-- The complete name of the file of a session. -/
def completeFilename (path namePrefix : Option String) (id : String) : String :=
  let file := namePrefix.getD amvpSaveDefaultPrefix ++ "_" ++ id ++ ".json"
  match path with
  | none => file
  | some dir => dir ++ "/" ++ file

/-- The name fits into what {lit}`snprintf` is allowed to write. -/
def FitsFilename (name : String) : Prop := name.length < amvpJsonFilenameMax

instance (name : String) : Decidable (FitsFilename name) :=
  inferInstanceAs (Decidable (_ < _))

/-- The characters of the path, the prefix and the ID. -/
def nameLength (path namePrefix : Option String) (id : String) : Nat :=
  (path.getD "").length + (namePrefix.getD "").length + id.length

/-- The name of the file, with the defaults exactly when the name would not fit otherwise. -/
def wantedFilename (path namePrefix : Option String) (id : String) : String :=
  if FitsFilename (completeFilename path namePrefix id) then completeFilename path namePrefix id
  else completeFilename none none id

/-- The name that is opened is the complete one of the session in the URL. -/
def OpensCompleteName (out : Outside) (url : String) : Prop :=
  ∃ id, IsSessionId url id ∧
    sessionInfoFilename out url = wantedFilename out.sessionSavePath out.sessionSavePrefix id

/-- The URL names a session, and the name that the library decides for fits: the complete
one when path, prefix and ID together have at most 122 characters, else the default. -/
def ChosenNameFits (out : Outside) (url : String) : Prop :=
  ∃ id, IsSessionId url id ∧
    if nameLength out.sessionSavePath out.sessionSavePrefix id ≤ amvpJsonFilenameMax - 6 then
      FitsFilename (completeFilename out.sessionSavePath out.sessionSavePrefix id)
    else FitsFilename (completeFilename none none id)

/-- The scan of the library stops at the first marker. -/
theorem sessionId_eq (out : Outside) (url id before : List Char)
    (hurl : url = before ++ ("testSessions/".toList ++ id))
    (hfirst : ∀ before' after, url = before' ++ ("testSessions/".toList ++ after) →
      before.length ≤ before'.length) :
    sessionId out url = String.ofList id := by
  induction before generalizing url with
  | nil =>
      subst hurl
      rfl
  | cons c before ih =>
      subst hurl
      have hnot : ("testSessions/".toList).isPrefixOf
          (c :: (before ++ ("testSessions/".toList ++ id))) = false := by
        rw [Bool.eq_false_iff]
        intro hprefix
        obtain ⟨after, hafter⟩ := List.isPrefixOf_iff_prefix.mp hprefix
        have hle := hfirst [] after hafter.symm
        simp at hle
      rw [List.cons_append, sessionId, if_neg (by rw [hnot]; decide)]
      refine ih _ rfl fun before' after hafter => ?_
      have hle := hfirst (c :: before') after (by simp only [List.cons_append, hafter])
      simpa using hle

theorem IsSessionId.eq (out : Outside) {url id : String} (h : IsSessionId url id) :
    sessionId out url.toList = id := by
  obtain ⟨before, hurl, hfirst⟩ := h
  rw [sessionId_eq out url.toList id.toList before hurl hfirst, String.ofList_toList]

/-- A name that fits is written as it is, and one that does not fit is cut. -/
theorem snprintf_filename_eq_iff (name : String) :
    snprintf amvpJsonFilenameMax name = name ↔ FitsFilename name := by
  unfold snprintf FitsFilename
  rw [← String.toList_inj, String.toList_ofList, List.take_eq_self_iff, String.length_toList]
  have hmax : amvpJsonFilenameMax = 128 := rfl
  omega

/-- The name is the one of the chosen parts, cut to the size of the buffer. -/
theorem sessionInfoFilename_eq (out : Outside) (url : String) :
    sessionInfoFilename out url = snprintf amvpJsonFilenameMax
      (if nameLength out.sessionSavePath out.sessionSavePrefix (sessionId out url.toList) ≤
          amvpJsonFilenameMax - 6 then
        completeFilename out.sessionSavePath out.sessionSavePrefix (sessionId out url.toList)
      else completeFilename none none (sessionId out url.toList)) := by
  have hmax : amvpJsonFilenameMax = 128 := rfl
  by_cases hlong : amvpJsonFilenameMax - 6 <
      min (out.sessionSavePath.getD "").length (amvpJsonFilenameMax + 1) +
        min (out.sessionSavePrefix.getD "").length (amvpJsonFilenameMax + 1) +
        min (sessionId out url.toList).length (amvpJsonFilenameMax + 1)
  · have hnot : ¬nameLength out.sessionSavePath out.sessionSavePrefix
        (sessionId out url.toList) ≤ amvpJsonFilenameMax - 6 := by
      unfold nameLength
      omega
    rw [if_neg hnot]
    simp only [sessionInfoFilename, completeFilename, Option.getD_some, if_pos hlong]
  · have hle : nameLength out.sessionSavePath out.sessionSavePrefix
        (sessionId out url.toList) ≤ amvpJsonFilenameMax - 6 := by
      unfold nameLength
      omega
    rw [if_pos hle]
    simp only [sessionInfoFilename, Option.getD_some, if_neg hlong]
    cases out.sessionSavePath <;> rfl

theorem completeFilename_toList (path namePrefix : Option String) (id : String) :
    (completeFilename path namePrefix id).toList =
      (path.elim [] fun dir => dir.toList ++ ['/']) ++
        ((namePrefix.getD amvpSaveDefaultPrefix).toList ++ ['_'] ++
          (id.toList ++ ".json".toList)) := by
  cases path <;> simp [completeFilename]

theorem completeFilename_length (path namePrefix : Option String) (id : String) :
    (completeFilename path namePrefix id).length =
      (path.elim 0 fun dir => dir.length + 1) +
        ((namePrefix.getD amvpSaveDefaultPrefix).length + id.length + 6) := by
  rw [← String.length_toList, completeFilename_toList]
  cases path <;> simp [String.length_toList] <;> omega

theorem amvpSaveDefaultPrefix_length : amvpSaveDefaultPrefix.length = 11 := by
  decide

/-- When path, prefix and ID are too long for the library, the complete name does not fit. -/
theorem not_fitsFilename_of_long {path namePrefix : Option String} {id : String}
    (h : ¬nameLength path namePrefix id ≤ amvpJsonFilenameMax - 6) :
    ¬FitsFilename (completeFilename path namePrefix id) := by
  have hmax : amvpJsonFilenameMax = 128 := rfl
  have hdefault := amvpSaveDefaultPrefix_length
  unfold nameLength at h
  unfold FitsFilename
  rw [completeFilename_length]
  cases path <;> cases namePrefix <;> simp at h ⊢ <;> omega

/-! A name that was cut is not the default name either.  Both end in the ID and the
extension; were they equal, the one would be the other shifted to the right. -/

theorem extension_getElem? (id : List Char) (k : Nat) :
    (id ++ ".json".toList)[id.length + k]? = ".json".toList[k]? := by
  rw [List.getElem?_append_right (by omega)]
  congr 1
  omega

theorem cut_ne_of_shift {id front : List Char} {k : Nat} (hid : id.length = 110)
    (hfront : front.length = 12 + k) (hk : 1 ≤ k) (hk' : k ≤ 2) :
    (front ++ (id ++ ".json".toList)).take 127 ≠
      "testSession_".toList ++ (id ++ ".json".toList) := by
  intro heq
  have hdot : ((front ++ (id ++ ".json".toList)).take 127)[122 + k]? = some '.' := by
    rw [List.getElem?_take_of_lt (by omega), List.getElem?_append_right (by omega),
      show 122 + k - front.length = id.length + 0 by omega, extension_getElem?]
    rfl
  have hother : ("testSession_".toList ++ (id ++ ".json".toList))[122 + k]? =
      ".json".toList[k]? := by
    rw [List.getElem?_append_right (by simp; omega),
      show 122 + k - "testSession_".toList.length = id.length + k by simp; omega,
      extension_getElem?]
  rw [heq, hother] at hdot
  obtain rfl | rfl : k = 1 ∨ k = 2 := by omega
  · cases hdot
  · cases hdot

/-- The path is as long as the default prefix with its separator: the ID would repeat the
default prefix to its end. -/
theorem cut_ne_of_period {id : List Char} (hid : id.length = 110) :
    ("/testSession_".toList ++ (id ++ ".json".toList)).take 115 ≠ id ++ ".json".toList := by
  intro heq
  have hperiod : ∀ i, i < 102 →
      (id ++ ".json".toList)[13 + i]? = (id ++ ".json".toList)[i]? := by
    intro i hi
    have hat := congrArg (fun l => l[13 + i]?) heq
    rw [List.getElem?_take_of_lt (by omega), List.getElem?_append_right (by simp)] at hat
    rw [← hat]
    congr 1
    simp
  have hstart := congrArg (fun l => l[6]?) heq
  rw [List.getElem?_take_of_lt (by omega), List.getElem?_append_left (by simp)] at hstart
  have hdot : (id ++ ".json".toList)[110]? = some '.' := by
    have hext := extension_getElem? id 0
    rwa [hid] at hext
  rw [hperiod 97 (by omega), hperiod 84 (by omega), hperiod 71 (by omega), hperiod 58 (by omega),
    hperiod 45 (by omega), hperiod 32 (by omega), hperiod 19 (by omega), hperiod 6 (by omega),
    ← hstart] at hdot
  cases hdot

/-- A complete name that does not fit is not cut to the default name. -/
theorem snprintf_ne_default {path namePrefix : Option String} {id : String}
    (hle : nameLength path namePrefix id ≤ amvpJsonFilenameMax - 6)
    (hlong : ¬FitsFilename (completeFilename path namePrefix id)) :
    snprintf amvpJsonFilenameMax (completeFilename path namePrefix id) ≠
      completeFilename none none id := by
  intro heq
  have hmax : amvpJsonFilenameMax = 128 := rfl
  have hdefault := amvpSaveDefaultPrefix_length
  have hchars := congrArg String.toList heq
  unfold snprintf at hchars
  rw [String.toList_ofList, hmax] at hchars
  unfold FitsFilename at hlong
  -- the cut name has 127 characters, so that the ID has 110
  have hlength := congrArg List.length hchars
  rw [List.length_take, String.length_toList, String.length_toList] at hlength
  rw [completeFilename_length] at hlong hlength
  rw [completeFilename_length none none] at hlength
  simp only [Option.elim_none, Option.getD_none] at hlength
  have hid : id.toList.length = 110 := by
    rw [String.length_toList]
    omega
  rw [completeFilename_toList, completeFilename_toList none none] at hchars
  rw [String.length_toList] at hid
  unfold nameLength at hle
  cases path with
  | none =>
      cases namePrefix with
      | none => simp at hlong; omega
      | some q =>
          simp only [Option.elim_none, Option.getD_some, Option.getD_none] at hlong hle hchars
          refine cut_ne_of_shift (k := 1) (by rw [String.length_toList]; exact hid) ?_ le_rfl
            (by omega) hchars
          simp [String.length_toList] at hle ⊢
          omega
  | some dir =>
      cases namePrefix with
      | some q =>
          simp only [Option.elim_some, Option.elim_none, Option.getD_some, Option.getD_none]
            at hlong hle hchars
          rw [← List.append_assoc] at hchars
          refine cut_ne_of_shift (k := dir.length + q.length - 10) (by rw [String.length_toList, hid])
            ?_ (by omega) (by omega) hchars
          simp [String.length_toList]
          omega
      | none =>
          simp only [Option.elim_some, Option.elim_none, Option.getD_none, List.nil_append]
            at hlong hle hchars
          have hdir : dir.length ≤ 12 := by
            simp at hle
            omega
          -- the separator behind the path is no character of the default prefix
          have hslash : (dir.toList ++ ['/'] ++ ((amvpSaveDefaultPrefix.toList ++ ['_']) ++
              (id.toList ++ ".json".toList)))[dir.length]? = some '/' := by
            rw [List.append_assoc, List.getElem?_append_right (by rw [String.length_toList]),
              String.length_toList, Nat.sub_self]
            rfl
          have hat := congrArg (fun l => l[dir.length]?) hchars
          rw [List.getElem?_take_of_lt (by omega), hslash] at hat
          have hdefaultChars : amvpSaveDefaultPrefix.toList ++ ['_'] = "testSession_".toList := by
            decide
          rw [hdefaultChars] at hat hchars
          by_cases hshort : dir.length < 12
          · have hnone : ∀ k < 12, "testSession_".toList[k]? ≠ some '/' := by decide
            rw [List.getElem?_append_left (by simpa using hshort)] at hat
            exact hnone _ hshort hat.symm
          · have hdropped := congrArg (List.drop 12) hchars
            rw [List.drop_take, List.append_assoc, List.drop_append_of_le_length
              (by rw [String.length_toList]; omega)] at hdropped
            refine cut_ne_of_period (by rw [String.length_toList, hid]) ?_
            rw [List.drop_eq_nil_of_le (by rw [String.length_toList]; omega)] at hdropped
            exact hdropped

/-- The name of a session is the wanted one exactly when the name that the library decides
for fits. -/
theorem sessionInfoFilename_eq_wanted_iff (out : Outside) {url id : String}
    (hid : IsSessionId url id) :
    sessionInfoFilename out url = wantedFilename out.sessionSavePath out.sessionSavePrefix id ↔
      if nameLength out.sessionSavePath out.sessionSavePrefix id ≤ amvpJsonFilenameMax - 6 then
        FitsFilename (completeFilename out.sessionSavePath out.sessionSavePrefix id)
      else FitsFilename (completeFilename none none id) := by
  rw [sessionInfoFilename_eq, hid.eq out]
  unfold wantedFilename
  by_cases hle : nameLength out.sessionSavePath out.sessionSavePrefix id ≤ amvpJsonFilenameMax - 6
  · rw [if_pos hle, if_pos hle]
    by_cases hfits : FitsFilename (completeFilename out.sessionSavePath out.sessionSavePrefix id)
    · rw [if_pos hfits, snprintf_filename_eq_iff]
    · rw [if_neg hfits]
      exact iff_of_false (snprintf_ne_default hle hfits) hfits
  · rw [if_neg hle, if_neg hle, if_neg (not_fitsFilename_of_long hle), snprintf_filename_eq_iff]

/-- The name that is opened is the complete one exactly when the URL names a session and the
name that the library decides for fits. -/
theorem sessionInfoFilename_complete_iff (out : Outside) (url : String) :
    OpensCompleteName out url ↔ ChosenNameFits out url := by
  constructor
  · rintro ⟨id, hid, heq⟩
    exact ⟨id, hid, (sessionInfoFilename_eq_wanted_iff out hid).mp heq⟩
  · rintro ⟨id, hid, hfits⟩
    exact ⟨id, hid, (sessionInfoFilename_eq_wanted_iff out hid).mpr hfits⟩

/-- An environment with a path of 118 characters and no prefix. -/
def longPathOutside : Outside :=
  { Outside.plain fun _ _ => ⟨0, none⟩ with
    sessionSavePath := some (String.ofList (List.replicate 118 'd')) }

/-- The path and the ID have 122 characters together, which the library accepts, but the
default prefix is not counted and the name is cut. -/
theorem sessionInfoFilename_cut :
    ¬OpensCompleteName longPathOutside "/amv/v1/testSessions/1234" := by
  rintro ⟨id, hid, heq⟩
  have hlength : id.length = 4 := by
    rw [← hid.eq longPathOutside]
    decide +kernel
  have hmax : amvpJsonFilenameMax = 128 := rfl
  have hdefault := amvpSaveDefaultPrefix_length
  have hpath : longPathOutside.sessionSavePath =
      some (String.ofList (List.replicate 118 'd')) := rfl
  have hprefix : longPathOutside.sessionSavePrefix = none := rfl
  have hpathLength : (String.ofList (List.replicate 118 'd')).length = 118 := by
    rw [String.length_ofList, List.length_replicate]
  rw [sessionInfoFilename_eq_wanted_iff longPathOutside hid, hpath, hprefix] at heq
  generalize String.ofList (List.replicate 118 'd') = path at hpathLength heq
  have hle : nameLength (some path) none id ≤ amvpJsonFilenameMax - 6 := by
    simp [nameLength, hlength, hmax, hpathLength]
  rw [if_pos hle, FitsFilename, completeFilename_length] at heq
  simp [hlength, hmax, hdefault, hpathLength] at heq

/-! ## The contents of the file -/

/-- The members of a session info file by which a session is restored, with the registration and
the URL of the validation request where there are some. -/
def sessionMembers (url jwt : String) (sample : Bool) (registration : Option Json)
    (validation : Option String) : JsonObject :=
  [("url", .str url), ("jwt", .str jwt), ("isSample", .bool sample)] ++
    (registration.map fun reg => ("registration", reg)).toList ++
    (validation.map fun requestUrl => ("validationRequestUrl", Json.str requestUrl)).toList

/-- A file with an array of one object that restores a session. -/
def RestoringText (url jwt : String) (sample : Bool) (registration : Option Json)
    (text : Option Json.Text) : Prop :=
  ∃ validation, text = some (.lbrack ::
    (Json.obj (sessionMembers url jwt sample registration validation)).tokens ++ [.rbrack])

/-- What is parsed from a file with an array of one object. -/
theorem jsonParseFile_of_text {f : String} {w : World} {ts : JsonObject}
    (h : w.files f = some (.lbrack :: (Json.obj ts).tokens ++ [.rbrack])) :
    jsonParseFile (some f) w =
      (some (.arr [.obj ts])).filter (parsable (Parson.maxNesting + 1)) := by
  have hparse := parse_assembled (.obj ts) []
  rw [List.flatMap_nil, List.append_nil] at hparse
  unfold jsonParseFile jsonParseText
  rw [Option.bind_some, h, Option.bind_some, hparse]
  rfl

/-- The names of the members that a session info file can have. -/
def sessionNames : List String := ["url", "jwt", "isSample", "registration", "validationRequestUrl"]

/-- The names of the members are apart, whatever the values are. -/
theorem namesApart_sessionMembers (url jwt : String) (sample : Bool) (registration : Option Json)
    (validation : Option String) :
    NamesApart (sessionMembers url jwt sample registration validation) := by
  have hsub : ((sessionMembers url jwt sample registration validation).map Prod.fst).Sublist
      sessionNames := by
    cases registration <;> cases validation <;> simp [sessionMembers, sessionNames]
  have hstored : sessionNames.all fun name =>
      decide (0 ∉ cBytes name) && decide (name.length ≤ Parson.stringNameMax) := by decide
  have hnodup : ((sessionNames.map cBytes).filter fun name => name ≠ []).Nodup := by decide
  constructor
  · intro m hm
    have hname := List.all_eq_true.mp hstored m.1 (hsub.subset (List.mem_map_of_mem hm))
    simpa using hname
  · have hbytes := (hsub.map cBytes).filter fun name => name ≠ []
    rw [List.map_map] at hbytes
    exact hnodup.sublist hbytes

/-- The file is parsed when the registration is. -/
theorem parsable_sessionMembers {url jwt : String} {sample : Bool} {registration : Option Json}
    (hregistration : ∀ reg ∈ registration, parsable (Parson.maxNesting - 1) reg)
    (validation : Option String) :
    parsable (Parson.maxNesting + 1)
      (.arr [.obj (sessionMembers url jwt sample registration validation)]) := by
  have hroom : Parson.maxNesting = Parson.maxNesting - 1 + 1 := rfl
  have hnames := namesApart_sessionMembers url jwt sample registration validation
  have hstr : ∀ s, parsable (Parson.maxNesting - 1) (.str s) = true := fun _ => rfl
  have hbool : ∀ b, parsable (Parson.maxNesting - 1) (.bool b) = true := fun _ => rfl
  have hmembers : parsableMembers (Parson.maxNesting - 1)
      (sessionMembers url jwt sample registration validation) := by
    cases registration with
    | none => cases validation <;> simp [sessionMembers, parsableMembers, hstr, hbool]
    | some reg =>
        have hreg := hregistration reg rfl
        cases validation <;> simp [sessionMembers, parsableMembers, hstr, hbool, hreg]
  rw [parsable, parsableElems, parsableElems, Bool.and_true, hroom, parsable, hmembers,
    Bool.and_true]
  exact decide_eq_true hnames

/-- Noting the URL of a validation request changes that member only. -/
theorem setString_sessionMembers (url jwt : String) (sample : Bool) (registration : Option Json)
    (validation : Option String) (requestUrl : String) :
    ∃ validation', jsonObjectSetString (sessionMembers url jwt sample registration validation)
        "validationRequestUrl" (some requestUrl) =
      sessionMembers url jwt sample registration validation' := by
  unfold jsonObjectSetString
  cases takenOver (some requestUrl) with
  | none => exact ⟨validation, rfl⟩
  | some taken =>
      refine ⟨some taken, ?_⟩
      cases registration <;> cases validation <;> rfl

/-- The contents that are written restore the session when its strings are taken over. -/
theorem sessionInfo_eq {ctx : Ctx} {url jwt : String} (hurl : ctx.sessionUrl = some url)
    (hjwt : ctx.jwtToken = some jwt) (hurlText : IsText url) (hjwtText : IsText jwt) :
    sessionInfo ctx =
      .obj (sessionMembers url jwt (ctx.isSample ≠ 0) ctx.registration none) := by
  unfold sessionInfo jsonObjectSetString
  rw [hurl, hjwt, takenOver_eq_some_iff.mpr hurlText, takenOver_eq_some_iff.mpr hjwtText]
  cases ctx.registration <;> rfl

/-- Whatever is written, its URL and its token are what is taken over of those of the session. -/
theorem exists_sessionInfo (ctx : Ctx) :
    ∃ ts, sessionInfo ctx = .obj ts ∧
      jsonObjectGetString (some ts) "url" = takenOver ctx.sessionUrl ∧
      jsonObjectGetString (some ts) "jwt" = takenOver ctx.jwtToken := by
  have hnone : jsonObjectGetValue (some (jsonObjectSetString [] "url" ctx.sessionUrl)) "jwt" =
      none := jsonObjectGetValue_setString_of_ne [] ctx.sessionUrl (by decide)
  have hjwt := jsonObjectGetString_setString hnone ctx.jwtToken
  have hurl : jsonObjectGetString (some (jsonObjectSetString [] "url" ctx.sessionUrl)) "url" =
      takenOver ctx.sessionUrl := jsonObjectGetString_setString rfl ctx.sessionUrl
  unfold jsonObjectGetString at hjwt hurl ⊢
  refine ⟨_, rfl, ?_, ?_⟩
  · cases ctx.registration with
    | none =>
        rw [jsonObjectSetBoolean, jsonObjectGetValue_set_of_ne _ _ (by decide),
          jsonObjectGetValue_setString_of_ne _ _ (by decide), hurl]
    | some reg =>
        rw [jsonObjectGetValue_set_of_ne _ _ (by decide), jsonObjectSetBoolean,
          jsonObjectGetValue_set_of_ne _ _ (by decide),
          jsonObjectGetValue_setString_of_ne _ _ (by decide), hurl]
  · cases ctx.registration with
    | none => rw [jsonObjectSetBoolean, jsonObjectGetValue_set_of_ne _ _ (by decide), hjwt]
    | some reg =>
        rw [jsonObjectGetValue_set_of_ne _ _ (by decide), jsonObjectSetBoolean,
          jsonObjectGetValue_set_of_ne _ _ (by decide), hjwt]

section Files

variable {out : Outside}

/-- The world with a file that holds an array of one value. -/
def World.holding (w : World) (f : String) (value : Json) : World :=
  { w with files := Function.update w.files f (some (.lbrack :: value.tokens ++ [.rbrack])) }

/-- Starting an array and closing it leaves a file with one value. -/
theorem written_and_closed {value : Json} {f : String} {w w' : World}
    (hwrite : jsonSerializeToFilePrettyW out (some value) (some f) w = (.success, w')) :
    jsonSerializeToFilePrettyA out none (some f) w' = (.success, w.holding f value) := by
  have hwritable : out.writable f = true := by
    by_contra hnot
    simp only [jsonSerializeToFilePrettyW, Prog.ite_apply, if_neg hnot] at hwrite
    cases hwrite
  obtain ⟨f', hf', rfl⟩ := jsonSerializeToFilePrettyW_success hwrite
  obtain rfl := Option.some.inj hf'
  simp only [jsonSerializeToFilePrettyA, Prog.ite_apply, if_pos hwritable, Prog.update_bind_apply,
    Function.update_self, Function.update_idem, Option.getD_some, World.holding]
  rfl

/-- A write that fails changes nothing. -/
theorem jsonSerializeToFilePrettyW_failed {value : Json} {f : String} {w w' : World}
    {rv : AmvpResult}
    (h : jsonSerializeToFilePrettyW out (some value) (some f) w = (rv, w')) (hrv : rv ≠ .success) :
    w' = w := by
  simp only [jsonSerializeToFilePrettyW, Prog.ite_apply] at h
  split_ifs at h
  · cases h
    exact absurd rfl hrv
  · cases h
    rfl

/-- What a session info file that was written holds, and where. -/
theorem writeSessionInfo_success {w w' : World} (h : writeSessionInfo out w = (.success, w')) :
    ∃ f, w'.ctx.sessionFilePath = some f ∧ f.length ≤ amvpJsonFilenameMax ∧
      w'.files f = some (.lbrack :: (sessionInfo w.ctx).tokens ++ [.rbrack]) := by
  obtain ⟨ts, hts, -⟩ := exists_sessionInfo w.ctx
  rw [writeSessionInfo, getCtx_bind, hts] at h
  have hlength : (sessionInfoFilename out (w.ctx.sessionUrl.getD "")).length ≤
      amvpJsonFilenameMax := by
    rw [sessionInfoFilename_eq, ← String.length_toList, snprintf, String.toList_ofList,
      List.length_take]
    omega
  generalize sessionInfoFilename out (w.ctx.sessionUrl.getD "") = f at h hlength
  obtain ⟨⟨rv, w₁⟩, hwrite⟩ : ∃ r, jsonSerializeToFilePrettyW out (some (.obj ts)) (some f) w = r :=
    ⟨_, rfl⟩
  rw [Prog.bind_of_eq hwrite] at h
  by_cases hrv : rv = .success
  · subst hrv
    rw [if_neg (not_not.mpr rfl), Prog.bind_of_eq (written_and_closed hwrite)] at h
    cases h
    rw [hts]
    exact ⟨f, rfl, hlength, Function.update_self _ _ _⟩
  · rw [if_pos hrv] at h
    exact absurd (congrArg Prod.fst h) hrv

section Restoring

variable {url jwt : String} {sample : Bool} {registration : Option Json}
  (hregistration : ∀ reg ∈ registration, parsable (Parson.maxNesting - 1) reg)

include hregistration

/-- What is parsed from a file that restores a session. -/
theorem jsonParseFile_sessionMembers {w : World} {f : String} {validation : Option String}
    (htext : w.files f = some (.lbrack ::
      (Json.obj (sessionMembers url jwt sample registration validation)).tokens ++ [.rbrack])) :
    jsonParseFile (some f) w =
      some (.arr [.obj (sessionMembers url jwt sample registration validation)]) := by
  rw [jsonParseFile_of_text htext, Option.filter_some,
    if_pos (parsable_sessionMembers hregistration validation)]

/-- A validation keeps what the session info file restores. -/
theorem restoringText_parseValidation {w : World} {f : String}
    (hpath : w.ctx.sessionFilePath = some f)
    (h : RestoringText url jwt sample registration (w.files f)) :
    RestoringText url jwt sample registration ((parseValidation out w).2.files f) := by
  obtain ⟨validation, htext⟩ := h
  have hold : RestoringText url jwt sample registration (w.files f) := ⟨validation, htext⟩
  have hfile := jsonParseFile_sessionMembers hregistration htext
  rw [parseValidation, Prog.read_bind_apply, hpath, hfile]
  cases jsonObjectGetString (getObjFromRsp w.ctx.curlBuf) "url" with
  | none => exact hold
  | some requestUrl =>
      dsimp only
      by_cases hstatus : (jsonObjectGetString (getObjFromRsp w.ctx.curlBuf) "status").isNone
      · rw [if_pos hstatus]
        exact hold
      rw [if_neg hstatus]
      obtain ⟨validation', hset⟩ :=
        setString_sessionMembers url jwt sample registration validation requestUrl
      have hnew : withValidationUrl
          (some (.arr [.obj (sessionMembers url jwt sample registration validation)])) requestUrl =
          some (.obj (sessionMembers url jwt sample registration validation')) := by
        rw [← hset]
        rfl
      rw [hnew]
      dsimp only
      obtain ⟨⟨rv, w₁⟩, hwrite⟩ : ∃ r, jsonSerializeToFilePrettyW out
        (some (.obj (sessionMembers url jwt sample registration validation'))) (some f) w = r :=
          ⟨_, rfl⟩
      rw [Prog.bind_of_eq hwrite]
      by_cases hrv : rv = .success
      · subst hrv
        rw [if_neg (not_not.mpr rfl), Prog.bind_of_eq (written_and_closed hwrite)]
        exact ⟨validation', Function.update_self _ _ _⟩
      · rw [if_pos hrv, jsonSerializeToFilePrettyW_failed hwrite hrv]
        exact hold

/-- What a session info file restores. -/
theorem parseSessionInfoFile_of_restoringText {w : World} {f : String}
    (hname : f.length ≤ amvpJsonFilenameMax) (hurl : url.length ≤ amvpAttrUrlMax)
    (hjwt : jwt.length ≤ amvpJwtTokenMax)
    (h : RestoringText url jwt sample registration (w.files f)) :
    (parseSessionInfoFile (some f) w).1 = .success ∧
      (parseSessionInfoFile (some f) w).2.ctx = { w.ctx with
        sessionUrl := some url, jwtToken := some jwt, isSample := if sample then 1 else 0 } := by
  obtain ⟨validation, htext⟩ := h
  have hobj : getObjFromRsp (jsonParseFile (some f) w) =
      some (sessionMembers url jwt sample registration validation) := by
    rw [jsonParseFile_sessionMembers hregistration htext]
    rfl
  have hurl' : jsonObjectGetString
      (some (sessionMembers url jwt sample registration validation)) "url" = some url := rfl
  have hjwt' : jsonObjectGetString
      (some (sessionMembers url jwt sample registration validation)) "jwt" = some jwt := rfl
  have hsample : jsonObjectGetBoolean
      (some (sessionMembers url jwt sample registration validation)) "isSample" =
        if sample then 1 else 0 := by
    cases sample <;> rfl
  have hgiven : jsonObjectHasValue
      (some (sessionMembers url jwt sample registration validation)) "isSample" = true := rfl
  have hcopyUrl : strcpyS (amvpAttrUrlMax + 1) url = url := by
    rw [strcpyS, if_pos (by omega)]
  have hcopyJwt : strcpyS (amvpJwtTokenMax + 1) jwt = jwt := by
    rw [strcpyS, if_pos (by omega)]
  rw [parseSessionInfoFile, Prog.read_bind_apply]
  simp only [if_neg (not_lt.mpr hname), hobj, hurl', hjwt', setSessionUrl, readTokenAndSample,
    Prog.bind_apply, modifyCtx_apply, mark_apply, hgiven, hsample, hcopyUrl, hcopyJwt]
  exact ⟨rfl, rfl⟩

end Restoring

/-- Validations that find a file with the first text in their session info file leave the
second one there, in any worlds and with any servers between. -/
inductive Validated (f : String) (text : Option Json.Text) : Option Json.Text → Prop
  | none : Validated f text text
  | next {out : Outside} {w : World} (hbefore : Validated f text (w.files f))
      (hpath : w.ctx.sessionFilePath = some f) :
      Validated f text ((parseValidation out w).2.files f)

theorem restoringText_validated {f url jwt : String} {sample : Bool} {registration : Option Json}
    (hregistration : ∀ reg ∈ registration, parsable (Parson.maxNesting - 1) reg)
    {text text' : Option Json.Text} (h : Validated f text text')
    (hstart : RestoringText url jwt sample registration text) :
    RestoringText url jwt sample registration text' := by
  induction h with
  | none => exact hstart
  | next hbefore hpath ih => exact restoringText_parseValidation hregistration hpath ih

/-- A session can be read from its file only if its strings were taken over. -/
theorem takenOver_of_parseSessionInfoFile {w : World} {ctx : Ctx} {f : String}
    (htext : w.files f = some (.lbrack :: (sessionInfo ctx).tokens ++ [.rbrack]))
    (h : (parseSessionInfoFile (some f) w).1 = .success) :
    (takenOver ctx.sessionUrl).isSome ∧ (takenOver ctx.jwtToken).isSome := by
  obtain ⟨ts, hts, hurl, hjwt⟩ := exists_sessionInfo ctx
  rw [hts] at htext
  rw [parseSessionInfoFile, Prog.read_bind_apply] at h
  dsimp only at h
  split_ifs at h
  rw [jsonParseFile_of_text htext, Option.filter_some] at h
  split_ifs at h
  · have hobj : getObjFromRsp (some (.arr [.obj ts])) = some ts := rfl
    rw [hobj] at h
    dsimp only at h
    rw [hurl, hjwt] at h
    cases hu : takenOver ctx.sessionUrl with
    | none => rw [hu] at h; cases h
    | some url =>
        cases hj : takenOver ctx.jwtToken with
        | none => rw [hu, hj] at h; cases h
        | some jwt => exact ⟨rfl, rfl⟩
  · cases h

/-- After a session info file was written, and after any number of validations, the file
restores the session that was written, its URL, its token and whether it is a sample, just when
the URL and the token are UTF-8.  The registration is one that can be parsed again. -/
theorem sessionFile_roundTrip_iff {w w₁ : World} {url jwt : String}
    (hurl : w.ctx.sessionUrl = some url) (hurlLength : url.length ≤ amvpAttrUrlMax)
    (hjwt : w.ctx.jwtToken = some jwt) (hjwtLength : jwt.length ≤ amvpJwtTokenMax)
    (hregistration : ∀ reg ∈ w.ctx.registration, parsable (Parson.maxNesting - 1) reg)
    (hwrite : writeSessionInfo out w = (.success, w₁)) :
    ∃ f, w₁.ctx.sessionFilePath = some f ∧
      ((∀ w₂ : World, Validated f (w₁.files f) (w₂.files f) →
        (parseSessionInfoFile (some f) w₂).1 = .success ∧
        (parseSessionInfoFile (some f) w₂).2.ctx = { w₂.ctx with
          sessionUrl := some url, jwtToken := some jwt,
          isSample := if w.ctx.isSample ≠ 0 then 1 else 0 }) ↔
        IsText url ∧ IsText jwt) := by
  obtain ⟨f, hpath, hname, htext⟩ := writeSessionInfo_success hwrite
  refine ⟨f, hpath, ?_, ?_⟩
  · intro hrestores
    obtain ⟨hurlTaken, hjwtTaken⟩ :=
      takenOver_of_parseSessionInfoFile htext (hrestores w₁ .none).1
    rw [hurl] at hurlTaken
    rw [hjwt] at hjwtTaken
    have htaken : ∀ s, (takenOver (some s)).isSome → IsText s := by
      intro s hs
      obtain ⟨s', hs'⟩ := Option.isSome_iff_exists.mp hs
      obtain rfl := Option.some.inj (Option.filter_eq_some_iff.mp hs').1
      exact isText_of_takenOver hs'
    exact ⟨htaken url hurlTaken, htaken jwt hjwtTaken⟩
  · rintro ⟨hurlText, hjwtText⟩ w₂ hvalidated
    rw [sessionInfo_eq hurl hjwt hurlText hjwtText] at htext
    have hrestoring := restoringText_validated hregistration hvalidated ⟨none, htext⟩
    have hrestored := parseSessionInfoFile_of_restoringText hregistration hname hurlLength
      hjwtLength hrestoring
    simpa using hrestored

end Files

/-- A sample session that was registered. -/
def registeredWorld (url : String) : World :=
  { World.start with
    ctx := { World.start.ctx with
      sessionUrl := some url, jwtToken := some "token", isSample := 1 } }

/-- The state in which a validation of this session is answered. -/
def answeredWorld : World :=
  let w := (writeSessionInfo (.plain fun _ _ => ⟨0, none⟩)
    (registeredWorld "/amv/v1/testSessions/1")).2
  { w with ctx := { w.ctx with
    curlBuf := some (.arr [.obj [("url", .str "/amv/v1/requests/1"), ("status", .str "new")]]) } }

/-- One validation, and a fresh context that reads the file. -/
theorem sessionFile_roundTrip_one_validation :
    let w₂ : World := { World.start with
      files := (parseValidation (.plain fun _ _ => ⟨0, none⟩) answeredWorld).2.files }
    (parseSessionInfoFile (some "testSession_1.json") w₂).1 = .success ∧
      (parseSessionInfoFile (some "testSession_1.json") w₂).2.ctx = { World.start.ctx with
        sessionUrl := some "/amv/v1/testSessions/1", jwtToken := some "token", isSample := 1 } := by
  intro w₂
  have hwrite : writeSessionInfo (.plain fun _ _ => ⟨0, none⟩)
      (registeredWorld "/amv/v1/testSessions/1") = (.success, (writeSessionInfo
        (.plain fun _ _ => ⟨0, none⟩) (registeredWorld "/amv/v1/testSessions/1")).2) := rfl
  obtain ⟨f, hpath, hrestores⟩ :=
    sessionFile_roundTrip_iff rfl (by decide) rfl (by decide) (fun _ h => by cases h) hwrite
  obtain rfl : "testSession_1.json" = f := Option.some.inj hpath
  have hpath' : answeredWorld.ctx.sessionFilePath = some "testSession_1.json" := hpath
  have hone : Validated "testSession_1.json" (answeredWorld.files "testSession_1.json")
      ((parseValidation (.plain fun _ _ => ⟨0, none⟩) answeredWorld).2.files
        "testSession_1.json") := .next .none hpath'
  have htexts : IsText "/amv/v1/testSessions/1" ∧ IsText "token" :=
    ⟨isText_of_ascii (by decide) (by decide), isText_of_ascii (by decide) (by decide)⟩
  exact hrestores.mpr htexts w₂ hone

/-- A session whose URL is not UTF-8 is written with success, and cannot be read back. -/
theorem sessionFile_not_restored :
    ∃ w₁, writeSessionInfo (.plain fun _ _ => ⟨0, none⟩)
        (registeredWorld "/amv/v1/testSessions/1\u00ff") = (.success, w₁) ∧
      ∃ f, w₁.ctx.sessionFilePath = some f ∧
        (parseSessionInfoFile (some f) { World.start with files := w₁.files }).1 ≠ .success := by
  have hwrite : writeSessionInfo (.plain fun _ _ => ⟨0, none⟩)
      (registeredWorld "/amv/v1/testSessions/1\u00ff") = (.success, (writeSessionInfo
        (.plain fun _ _ => ⟨0, none⟩) (registeredWorld "/amv/v1/testSessions/1\u00ff")).2) := rfl
  obtain ⟨f, hpath, -, htext⟩ := writeSessionInfo_success hwrite
  refine ⟨_, hwrite, f, hpath, fun hread => ?_⟩
  obtain ⟨hurl, -⟩ := takenOver_of_parseSessionInfoFile
    (w := { World.start with files := (writeSessionInfo (.plain fun _ _ => ⟨0, none⟩)
      (registeredWorld "/amv/v1/testSessions/1\u00ff")).2.files }) htext hread
  obtain ⟨s, hs⟩ := Option.isSome_iff_exists.mp hurl
  obtain rfl := Option.some.inj (Option.filter_eq_some_iff.mp hs).1
  exact not_isText_of_mem (by decide) (isText_of_takenOver hs)

end LibAmvp
