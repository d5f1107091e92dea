import LibAmvp.Session.Transport

/-!
# Parsing a protocol error

A protocol error has a category, a description and a list of errors, each with a code and
messages.  The parser keeps two counters and a pointer to the end of the list it builds.
The second counter is not set from the number of messages, it is also the index of the
message that is read, the test after copying a message is inverted, and the pointer is never
set.

Main results:

- Theorem {lit}`parseProtocolError_lossless_iff`: which protocol errors are parsed without a
  loss.
-/

namespace LibAmvp

/-! ## The parser -/

/-- {lit}`AMVP_ERR_DESC_STR_MAX`. -/
def amvpErrDescStrMax : Nat := 256

/-- {lit}`AMVP_ERR_MAX_OBJECT_COUNT`. -/
def amvpErrMaxObjectCount : Nat := 100

/-- {lit}`AMVP_ERR_MAX_DESC_STRINGS`. -/
def amvpErrMaxDescStrings : Nat := 20

/-- {lit}`AMVP_PROTOCOL_ERR_CAT_MAX`. -/
def amvpProtocolErrCatMax : Int := 5

/-- {lit}`AMVP_PROTOCOL_ERR_LIST`: one error. -/
structure ProtocolErrEntry where
  code : Int
  desc : List String
deriving DecidableEq

/-- {lit}`AMVP_PROTOCOL_ERR`. -/
structure ProtocolErr where
  category : Int
  categoryDesc : String
  errors : List ProtocolErrEntry
deriving DecidableEq

/-- How the parser stops without a protocol error: it returns NULL, or it uses a NULL pointer
and its behaviour is undefined. -/
inductive Stop where
  | null
  | undefined
deriving DecidableEq

/-- {lit}`json_object_has_value_of_type` for a number. -/
def jsonObjectHasNumber (obj : Option JsonObject) (name : String) : Bool :=
  match jsonObjectGetValue obj name with
  | some (.num _) => true
  | _ => false

/-- The loop over the messages of an error, with the number of its remaining rounds.  It reads
the message at {lit}`count2`. -/
def readDesc (messages : List Json) (count2 : Nat) : Nat → List String → Except Stop (List String)
  | 0, desc => .ok desc
  | _ + 1, desc =>
    if amvpErrMaxDescStrings ≤ desc.length then .ok desc
    else
      match jsonArrayGetString (some messages) count2 with
      -- the length of NULL is 0, so NULL is copied
      | none => .error .undefined
      | some tmp =>
        if tmp ≠ "" then .error .null
        else
          -- the copy is not NULL, which is taken for a failure
          .error .null

/-- The loop over the errors: the counter of the messages is kept from one error to the next,
and the pointer to the end of the list is NULL. -/
def readErrors : List Json → Nat → List ProtocolErrEntry → Except Stop (List ProtocolErrEntry)
  | [], _, errors => .ok errors
  | entry :: entries, count2, errors =>
    match jsonValueGetObject (some entry) with
    | none => .error .null
    | some obj =>
      if ¬jsonObjectHasNumber (some obj) "code" then .error .null
      else
        let code := toInt (jsonObjectGetNumber (some obj) "code")
        match jsonObjectGetArray (some obj) "messages" with
        | none => .error .null
        | some messages =>
          let count2 := if messages.length < amvpErrMaxDescStrings then count2
            else amvpErrMaxDescStrings
          match readDesc messages count2 count2 [] with
          | .error stop => .error stop
          | .ok desc =>
            if errors = [] then readErrors entries count2 [⟨code, desc⟩]
            else .error .undefined

/-- {lit}`amvp_parse_protocol_error`. -/
def parseProtocolError (buf : Option Json) : Except Stop ProtocolErr :=
  match jsonArrayGetObject (jsonValueGetArray buf) 1 with
  | none => .error .null
  | some obj =>
    if ¬jsonObjectHasNumber (some obj) "category" then .error .null
    else
      let category := toInt (jsonObjectGetNumber (some obj) "category")
      if category < 0 ∨ amvpProtocolErrCatMax ≤ category then .error .null
      else
        match jsonObjectGetString (some obj) "description" with
        | none => .error .null
        | some tmp =>
          if amvpErrDescStrMax < tmp.length then .error .null
          else
            match jsonObjectGetArray (some obj) "errors" with
            | none => .error .null
            | some arr =>
              if arr.length = 0 ∨ amvpErrMaxObjectCount ≤ arr.length then .error .null
              else
                match readErrors arr 0 [] with
                | .error stop => .error stop
                | .ok errors => .ok ⟨category, tmp, errors⟩

/-- {lit}`amvp_check_for_protocol_error`. -/
def checkForProtocolError (err : Option ProtocolErr) (cat code : Int) : Int :=
  match err with
  | none => -1
  | some err =>
    if cat < 0 ∨ amvpProtocolErrCatMax ≤ cat then -1
    else if err.category ≠ cat then 0
    else if err.errors.any fun entry => entry.code = code then 1
    else 0

/-! ## Well-formed protocol errors -/

/-- An error object with this code and these messages. -/
def IsError (entry : Json) (error : ℚ × List String) : Prop :=
  ∃ obj, jsonValueGetObject (some entry) = some obj ∧
    jsonObjectGetValue (some obj) "code" = some (.num error.1) ∧
    jsonObjectGetValue (some obj) "messages" = some (.arr (error.2.map .str)) ∧
    ∀ message ∈ error.2, message.length ≤ amvpErrDescStrMax

/-- A body that is a protocol error of this category, with this description and these
errors. -/
structure IsProtocolError (buf : Option Json) (cat : Int) (desc : String)
    (errors : List (ℚ × List String)) : Prop where
  accepted : isProtocolErrorMessage buf = true
  category : jsonObjectGetValue (jsonArrayGetObject (jsonValueGetArray buf) 1) "category" =
    some (.num cat)
  inRange : 0 ≤ cat ∧ cat < amvpProtocolErrCatMax
  description : jsonObjectGetValue (jsonArrayGetObject (jsonValueGetArray buf) 1) "description" =
    some (.str desc)
  descLength : desc.length ≤ amvpErrDescStrMax
  entries : ∃ arr, jsonObjectGetValue (jsonArrayGetObject (jsonValueGetArray buf) 1) "errors" =
    some (.arr arr) ∧ List.Forall₂ IsError arr errors
  count : 1 ≤ errors.length ∧ errors.length < amvpErrMaxObjectCount

/-- Nothing of the errors is lost: their codes are kept in order, each with its first
messages, and the check finds exactly these codes in this category. -/
def Lossless (buf : Option Json) (cat : Int) (errors : List (ℚ × List String)) : Prop :=
  ∃ err, parseProtocolError buf = .ok err ∧
    (err.errors.map fun entry => ((entry.code : ℚ), entry.desc)) =
      (errors.map fun error => (error.1, error.2.take amvpErrMaxDescStrings)) ∧
    ∀ cat' code : Int, checkForProtocolError (some err) cat' code = 1 ↔
      cat' = cat ∧ ∃ error ∈ errors, error.1 = code

/-! ## One error -/

theorem readDesc_zero (messages : List Json) (count2 : Nat) (desc : List String) :
    readDesc messages count2 0 desc = .ok desc := by
  rw [readDesc]

/-- A loop over messages that starts does not end with a list. -/
theorem readDesc_succ (messages : List Json) (count2 rounds : Nat) :
    ∃ stop, readDesc messages count2 (rounds + 1) [] = .error stop := by
  rw [readDesc, if_neg (by simp [amvpErrMaxDescStrings])]
  cases jsonArrayGetString (some messages) count2 with
  | none => exact ⟨.undefined, rfl⟩
  | some tmp =>
      refine ⟨.null, ?_⟩
      dsimp only
      rw [ite_self]

/-- One step of the loop over the errors. -/
theorem readErrors_cons {entry : Json} {error : ℚ × List String} (h : IsError entry error)
    (entries : List Json) (count2 : Nat) (errors : List ProtocolErrEntry) :
    readErrors (entry :: entries) count2 errors =
      let count2 := if error.2.length < amvpErrMaxDescStrings then count2
        else amvpErrMaxDescStrings
      match readDesc (error.2.map .str) count2 count2 [] with
      | .error stop => .error stop
      | .ok desc =>
        if errors = [] then readErrors entries count2 [⟨toInt error.1, desc⟩]
        else .error .undefined := by
  obtain ⟨obj, hobj, hcode, hmessages, -⟩ := h
  have hnumber : jsonObjectHasNumber (some obj) "code" = true := by
    unfold jsonObjectHasNumber
    rw [hcode]
  have hvalue : jsonObjectGetNumber (some obj) "code" = error.1 := by
    unfold jsonObjectGetNumber
    rw [hcode]
    rfl
  have harray : jsonObjectGetArray (some obj) "messages" = some (error.2.map .str) := by
    unfold jsonObjectGetArray
    rw [hmessages]
    rfl
  rw [readErrors, hobj]
  dsimp only
  rw [if_neg (not_not.mpr hnumber), harray, hvalue]
  dsimp only
  rw [List.length_map]

/-- A first error with few messages is kept without them. -/
theorem readErrors_few {entry : Json} {error : ℚ × List String} (h : IsError entry error)
    (hfew : error.2.length < amvpErrMaxDescStrings) (entries : List Json) :
    readErrors (entry :: entries) 0 [] = readErrors entries 0 [⟨toInt error.1, []⟩] := by
  rw [readErrors_cons h]
  dsimp only
  rw [if_pos hfew, readDesc_zero]
  rfl

/-- An error with many messages ends the parsing. -/
theorem readErrors_many {entry : Json} {error : ℚ × List String} (h : IsError entry error)
    (hmany : amvpErrMaxDescStrings ≤ error.2.length) (entries : List Json) (count2 : Nat)
    (errors : List ProtocolErrEntry) :
    ∃ stop, readErrors (entry :: entries) count2 errors = .error stop := by
  obtain ⟨stop, hstop⟩ := readDesc_succ (error.2.map .str) amvpErrMaxDescStrings 19
  refine ⟨stop, ?_⟩
  rw [readErrors_cons h]
  dsimp only
  rw [if_neg (not_lt.mpr hmany)]
  change readDesc (error.2.map .str) amvpErrMaxDescStrings amvpErrMaxDescStrings [] = _ at hstop
  rw [hstop]

/-- A second error ends the parsing. -/
theorem readErrors_second {entry : Json} {error : ℚ × List String} (h : IsError entry error)
    (entries : List Json) (first : ProtocolErrEntry) :
    ∃ stop, readErrors (entry :: entries) 0 [first] = .error stop := by
  by_cases hfew : error.2.length < amvpErrMaxDescStrings
  · refine ⟨.undefined, ?_⟩
    rw [readErrors_cons h]
    dsimp only
    rw [if_pos hfew, readDesc_zero]
    rfl
  · exact readErrors_many h (not_lt.mp hfew) entries 0 [first]

/-- The loop over the errors ends with a list only for one error with few messages. -/
theorem readErrors_ok {arr : List Json} {errors : List (ℚ × List String)}
    (h : List.Forall₂ IsError arr errors) (hne : errors ≠ []) {read : List ProtocolErrEntry}
    (hread : readErrors arr 0 [] = .ok read) :
    ∃ error, errors = [error] ∧ read = [⟨toInt error.1, []⟩] := by
  cases h with
  | nil => exact absurd rfl hne
  | @cons entry error entries errors hentry hentries =>
      by_cases hfew : error.2.length < amvpErrMaxDescStrings
      swap
      · obtain ⟨stop, hstop⟩ := readErrors_many hentry (not_lt.mp hfew) entries 0 []
        rw [hstop] at hread
        cases hread
      rw [readErrors_few hentry hfew] at hread
      cases hentries with
      | nil =>
          rw [readErrors] at hread
          exact ⟨error, rfl, (Except.ok.inj hread).symm⟩
      | @cons entry' error' entries' errors' hentry' hentries' =>
          obtain ⟨stop, hstop⟩ := readErrors_second hentry' entries' ⟨toInt error.1, []⟩
          rw [hstop] at hread
          cases hread

/-! ## The whole message -/

/-- A well-formed protocol error is parsed as far as its errors are. -/
theorem parseProtocolError_eq {buf : Option Json} {cat : Int} {desc : String}
    {errors : List (ℚ × List String)} (h : IsProtocolError buf cat desc errors) :
    ∃ arr, List.Forall₂ IsError arr errors ∧
      parseProtocolError buf =
        match readErrors arr 0 [] with
        | .error stop => .error stop
        | .ok read => .ok ⟨cat, desc, read⟩ := by
  obtain ⟨arr, harr, hentries⟩ := h.entries
  refine ⟨arr, hentries, ?_⟩
  have hlength : arr.length = errors.length := hentries.length_eq
  have hcat : toInt (cat : ℚ) = cat := by
    have hrange := h.inRange
    unfold amvpProtocolErrCatMax at hrange
    exact toInt_intCast (by omega) (by omega)
  unfold parseProtocolError
  have hcategory := h.category
  have hdescription := h.description
  cases hobj : jsonArrayGetObject (jsonValueGetArray buf) 1 with
  | none =>
      rw [hobj] at hcategory
      cases hcategory
  | some obj =>
      rw [hobj] at hcategory hdescription harr
      have hnumber : jsonObjectHasNumber (some obj) "category" = true := by
        unfold jsonObjectHasNumber
        rw [hcategory]
      have hvalue : jsonObjectGetNumber (some obj) "category" = cat := by
        unfold jsonObjectGetNumber
        rw [hcategory]
        rfl
      have hstring : jsonObjectGetString (some obj) "description" = some desc := by
        unfold jsonObjectGetString
        rw [hdescription]
        rfl
      have harray : jsonObjectGetArray (some obj) "errors" = some arr := by
        unfold jsonObjectGetArray
        rw [harr]
        rfl
      have hcount := h.count
      dsimp only
      rw [if_neg (not_not.mpr hnumber), hvalue, hcat, if_neg, hstring]
      · dsimp only
        rw [if_neg (not_lt.mpr h.descLength), harray]
        dsimp only
        rw [if_neg (by omega)]
      · have hrange := h.inRange
        omega

/-- The check of a stored error in the range of the categories. -/
theorem checkForProtocolError_eq_one_iff {err : ProtocolErr}
    (hrange : 0 ≤ err.category ∧ err.category < amvpProtocolErrCatMax) (cat code : Int) :
    checkForProtocolError (some err) cat code = 1 ↔
      cat = err.category ∧ ∃ entry ∈ err.errors, entry.code = code := by
  unfold checkForProtocolError
  dsimp only
  by_cases hcat : err.category = cat
  swap
  · have hother : ¬(cat = err.category ∧ ∃ entry ∈ err.errors, entry.code = code) :=
      fun h => hcat h.1.symm
    refine iff_of_false ?_ hother
    rw [if_pos hcat]
    split_ifs <;> simp
  subst hcat
  rw [if_neg (by omega), if_neg (not_not.mpr rfl)]
  by_cases hfound : (err.errors.any fun entry => entry.code = code) = true
  · rw [if_pos hfound]
    simpa using hfound
  · rw [if_neg hfound]
    simpa using hfound

/-- A well-formed protocol error is parsed without a loss if and only if it has a single
error, without messages, whose code is an {lit}`int`. -/
theorem parseProtocolError_lossless_iff (buf : Option Json) (cat : Int) (desc : String)
    (errors : List (ℚ × List String)) (h : IsProtocolError buf cat desc errors) :
    Lossless buf cat errors ↔
      ∃ code : Int, -2 ^ 31 ≤ code ∧ code < 2 ^ 31 ∧ errors = [((code : ℚ), [])] := by
  obtain ⟨arr, hentries, hparse⟩ := parseProtocolError_eq h
  have hne : errors ≠ [] := by
    have hcount := h.count
    intro hnil
    simp [hnil] at hcount
  constructor
  · rintro ⟨err, hok, hkept, -⟩
    rw [hparse] at hok
    cases hread : readErrors arr 0 [] with
    | error stop =>
        rw [hread] at hok
        cases hok
    | ok read =>
        rw [hread] at hok
        obtain ⟨error, rfl, rfl⟩ := readErrors_ok hentries hne hread
        obtain rfl := Except.ok.inj hok
        have hpair : (((toInt error.1 : Int) : ℚ), []) =
            (error.1, error.2.take amvpErrMaxDescStrings) := List.head_eq_of_cons_eq hkept
        have hcode : ((toInt error.1 : Int) : ℚ) = error.1 := congrArg Prod.fst hpair
        have hmessages : error.2 = [] := by
          have htake : [] = error.2.take amvpErrMaxDescStrings := congrArg Prod.snd hpair
          have hlength := congrArg List.length htake
          rw [List.length_take, List.length_nil] at hlength
          unfold amvpErrMaxDescStrings at hlength
          exact List.length_eq_zero_iff.mp (by omega)
        refine ⟨toInt error.1, (toInt_bounds error.1).1, (toInt_bounds error.1).2, ?_⟩
        rw [hcode, ← hmessages]
  · rintro ⟨code, hlow, hhigh, rfl⟩
    cases hentries with
    | @cons entry error entries errors hentry hnone =>
        cases hnone
        rw [readErrors_few hentry (by simp [amvpErrMaxDescStrings]), readErrors,
          toInt_intCast hlow hhigh] at hparse
        refine ⟨_, hparse, by simp, fun cat' code' => ?_⟩
        rw [checkForProtocolError_eq_one_iff h.inRange]
        simp

/-! ## Two bodies -/

/-- A body with these errors. -/
def errorBody (errors : List Json) : Option Json :=
  some (.arr [.obj [("amvVersion", .str "0.1")], .obj [("category", .num 1),
    ("description", .str "authentication"), ("errors", .arr errors)]])

/-- An expired token, without a message. -/
theorem parseProtocolError_lossless_one :
    Lossless (errorBody [.obj [("code", .num 3), ("messages", .arr [])]]) 1 [(3, [])] := by
  have hbody : IsProtocolError (errorBody [.obj [("code", .num 3), ("messages", .arr [])]]) 1
      "authentication" [(3, [])] := by
    refine ⟨rfl, rfl, by decide, rfl, by decide, ⟨_, rfl, .cons ?_ .nil⟩, by decide⟩
    exact ⟨_, rfl, rfl, rfl, by simp⟩
  rw [parseProtocolError_lossless_iff _ _ _ _ hbody]
  exact ⟨3, by norm_num, by norm_num, by norm_num⟩

/-- A message of a single error is lost. -/
theorem parseProtocolError_drops_message :
    IsProtocolError (errorBody [.obj [("code", .num 3), ("messages", .arr [.str "JWT expired"])]])
      1 "authentication" [(3, ["JWT expired"])] ∧
    parseProtocolError (errorBody [.obj [("code", .num 3),
      ("messages", .arr [.str "JWT expired"])]]) = .ok ⟨1, "authentication", [⟨3, []⟩]⟩ ∧
    ¬Lossless (errorBody [.obj [("code", .num 3), ("messages", .arr [.str "JWT expired"])]])
      1 [(3, ["JWT expired"])] := by
  have hparse : parseProtocolError (errorBody [.obj [("code", .num 3),
      ("messages", .arr [.str "JWT expired"])]]) = .ok ⟨1, "authentication", [⟨3, []⟩]⟩ := rfl
  refine ⟨⟨rfl, rfl, by decide, rfl, by decide, ⟨_, rfl, .cons ?_ .nil⟩, by decide⟩, hparse, ?_⟩
  · exact ⟨_, rfl, rfl, rfl, by decide⟩
  · rintro ⟨err, hok, hkept, -⟩
    rw [hparse] at hok
    obtain rfl := Except.ok.inj hok
    simp [amvpErrMaxDescStrings] at hkept

end LibAmvp
