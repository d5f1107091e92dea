import LibAmvp.OperatingEnv.Tables
import LibAmvp.Parson

/-!
# Comparing e-mail addresses and phone numbers

The e-mail addresses and the phone numbers of a vendor or of a person are linked lists,
and are compared with arrays of the server position by position.  A text that is
missing on either side is never found to differ.

The loop that counts the e-mail addresses steps to the second node of the list over and
over, so it ends for a list of one node only.

Main results:

- Theorem {lit}`countEmails_of_two`: counting two or more e-mail addresses never ends.
- Theorem {lit}`compareLists_iff`: when the two comparisons are exact.
-/

namespace LibAmvp

/-- What {lit}`strcmp_s` reports: the difference stays zero when a string is missing. -/
def sameText : Option String → Option String → Bool
  | some a, some b => a == b
  | _, _ => true

/-! ## E-mail addresses -/

/-- The counting loop of {lit}`compare_emails`: every step goes to the successor of the first
node.  The fuel bounds the number of steps. -/
def countEmails (emailList : List (Option String)) :
    Nat → List (Option String) → Nat → Option Nat
  | _, [], n => some n
  | 0, _ :: _, _ => none
  | fuel + 1, _ :: _, n => countEmails emailList fuel emailList.tail (n + 1)

/-- The comparing loop of {lit}`compare_emails`. -/
def emailsEqual (candidates : List Json) : List (Option String) → Nat → Bool
  | [], _ => true
  | email :: rest, i =>
    if sameText email (jsonArrayGetString (some candidates) i) then
      emailsEqual candidates rest (i + 1)
    else
      false

/-- {lit}`compare_emails`: the result and the flag for a match. -/
def compareEmails (fuel : Nat) (emailList : List (Option String))
    (candidates : Option (List Json)) (isMatch : Bool) : Option (AmvpResult × Bool) :=
  match candidates with
  | none => some (.invalidArg, isMatch)
  | some candidates =>
    if emailList = [] then some (.invalidArg, isMatch)
    else do
      let n ← countEmails emailList fuel emailList 0
      if n ≠ candidates.length then
        return (.success, false)
      else
        return (.success, emailsEqual candidates emailList 0)

/-- The array holds the strings of the list, in the same order. -/
def SameEmails (emailList : List (Option String)) (candidates : List Json) : Prop :=
  ∃ texts : List String, emailList = texts.map some ∧ candidates = texts.map .str

/-- The comparison ends, and reports a match exactly for the same e-mail addresses. -/
def EmailsExact (emailList : List (Option String)) (candidates : List Json) (isMatch : Bool) :
    Prop :=
  ∃ fuel result, compareEmails fuel emailList (some candidates) isMatch = some (.success, result) ∧
    (result = true ↔ SameEmails emailList candidates)

/-- The loop never comes to the end of a list with a second node. -/
theorem countEmails_of_two {first second : Option String} {rest : List (Option String)}
    (fuel n : Nat) (node : Option String) (nodes : List (Option String)) :
    countEmails (first :: second :: rest) fuel (node :: nodes) n = none := by
  induction fuel generalizing n node nodes with
  | zero => rfl
  | succ fuel ih => exact ih (n + 1) second rest

theorem compareEmails_of_two {first second : Option String} {rest : List (Option String)}
    (fuel : Nat) (candidates : List Json) (isMatch : Bool) :
    compareEmails fuel (first :: second :: rest) (some candidates) isMatch = none := by
  rw [compareEmails, if_neg (by simp), countEmails_of_two]
  rfl

theorem compareEmails_of_one (fuel : Nat) (email : Option String) (candidates : List Json)
    (isMatch : Bool) :
    compareEmails (fuel + 1) [email] (some candidates) isMatch =
      some (.success, decide (candidates.length = 1) &&
        sameText email (jsonArrayGetString (some candidates) 0)) := by
  rw [compareEmails, if_neg (by simp)]
  simp only [countEmails, List.tail_cons, emailsEqual]
  by_cases hlength : candidates.length = 1
  · simp [hlength]
  · have hne : 1 ≠ candidates.length := fun h => hlength h.symm
    simp [hlength, hne]

theorem emailsExact_one_iff (email : Option String) (candidates : List Json) (isMatch : Bool) :
    EmailsExact [email] candidates isMatch ↔
      ((candidates.length = 1 ∧ sameText email (jsonArrayGetString (some candidates) 0) = true) ↔
        SameEmails [email] candidates) := by
  constructor
  · rintro ⟨fuel, result, hrun, hresult⟩
    cases fuel with
    | zero => cases hrun
    | succ fuel =>
        rw [compareEmails_of_one] at hrun
        obtain rfl := (Prod.mk.inj (Option.some.inj hrun)).2
        simpa using hresult
  · intro h
    exact ⟨1, _, compareEmails_of_one 0 email candidates isMatch, by simpa using h⟩

/-- A list of one address is the same as an array of one string that equals it. -/
theorem sameEmails_one_iff (email : Option String) (elem : Json) :
    SameEmails [email] [elem] ↔ ∃ text, email = some text ∧ elem = .str text := by
  constructor
  · rintro ⟨texts, hemail, helem⟩
    match texts, hemail, helem with
    | [text], hemail, helem => exact ⟨text, by simpa using hemail, by simpa using helem⟩
  · rintro ⟨text, rfl, rfl⟩
    exact ⟨[text], rfl, rfl⟩

/-- Comparing e-mail addresses is exact for a list of one address, unless the array has one
element as well and it, or the address, is no string. -/
theorem emailsExact_iff (email : Option String) (rest : List (Option String))
    (candidates : List Json) (isMatch : Bool) :
    EmailsExact (email :: rest) candidates isMatch ↔
      rest = [] ∧ ∀ elem, candidates = [elem] →
        email.isSome ∧ (jsonValueGetString (some elem)).isSome := by
  match rest, candidates with
  | second :: rest, candidates =>
      refine iff_of_false ?_ (by simp)
      rintro ⟨fuel, result, hrun, -⟩
      rw [compareEmails_of_two] at hrun
      cases hrun
  | [], [] =>
      refine iff_of_true ((emailsExact_one_iff email [] isMatch).mpr (iff_of_false (by simp) ?_))
        (by simp)
      rintro ⟨texts, hemail, helem⟩
      rw [List.nil_eq, List.map_eq_nil_iff] at helem
      simp [helem] at hemail
  | [], first :: second :: more =>
      refine iff_of_true ((emailsExact_one_iff email _ isMatch).mpr (iff_of_false (by simp) ?_))
        (by simp)
      rintro ⟨texts, hemail, helem⟩
      have hone := congrArg List.length hemail
      have htwo := congrArg List.length helem
      simp only [List.length_map, List.length_cons, List.length_nil] at hone htwo
      omega
  | [], [elem] =>
      rw [emailsExact_one_iff, sameEmails_one_iff]
      cases email with
      | none => simp [sameText]
      | some text =>
          cases elem with
          | str s =>
              simpa [sameText, jsonArrayGetString, jsonArrayGetValue, jsonValueGetString]
                using eq_comm
          | _ => simp [sameText, jsonArrayGetString, jsonArrayGetValue, jsonValueGetString]

/-! ## Phone numbers -/

/-- The comparing loop of {lit}`compare_phone_numbers`. -/
def phonesEqual (candidates : List Json) (isMatch : Bool) :
    List OePhone → Nat → AmvpResult × Bool
  | [], _ => (.success, true)
  | phone :: rest, i =>
    match jsonArrayGetObject (some candidates) i with
    | none => (.jsonErr, isMatch)
    | some obj =>
      if !sameText phone.number (jsonObjectGetString (some obj) "number") then (.success, false)
      else if !sameText phone.type (jsonObjectGetString (some obj) "type") then (.success, false)
      else phonesEqual candidates isMatch rest (i + 1)

/-- {lit}`compare_phone_numbers`: the result and the flag for a match. -/
def comparePhoneNumbers (phoneList : List OePhone) (candidates : Option (List Json))
    (isMatch : Bool) : AmvpResult × Bool :=
  match candidates with
  | none => (.invalidArg, isMatch)
  | some candidates =>
    if phoneList = [] ∧ candidates.length = 0 then (.success, true)
    else if phoneList = [] then (.invalidArg, isMatch)
    else if phoneList.length ≠ candidates.length then (.success, false)
    else phonesEqual candidates isMatch phoneList 0

/-- The phone number an object of the server describes. -/
def candidatePhone (obj : JsonObject) : OePhone where
  number := jsonObjectGetString (some obj) "number"
  type := jsonObjectGetString (some obj) "type"

/-- The comparison succeeds, and reports a match exactly for the same phone numbers. -/
def PhonesExact (phoneList : List OePhone) (candidates : List JsonObject) (isMatch : Bool) :
    Prop :=
  ∃ result, comparePhoneNumbers phoneList (some (candidates.map .obj)) isMatch =
      (.success, result) ∧
    (result = true ↔ phoneList = candidates.map candidatePhone)

/-- No text of the one phone number is found to differ from that of the other. -/
def OePhone.passes (a b : OePhone) : Bool := sameText a.number b.number && sameText a.type b.type

/-- Two phone numbers have the same of their two texts. -/
def OePhone.sameParts (a b : OePhone) : Bool :=
  a.number.isSome == b.number.isSome && a.type.isSome == b.type.isSome

theorem sameText_iff {a b : Option String} : a = b ↔ sameText a b = true ∧ a.isSome = b.isSome := by
  cases a <;> cases b <;> simp [sameText]

theorem OePhone.eq_iff (a b : OePhone) : a = b ↔ a.passes b = true ∧ a.sameParts b = true := by
  calc
    a = b ↔ a.number = b.number ∧ a.type = b.type := by rw [OePhone.mk.injEq]
    _ ↔ a.passes b = true ∧ a.sameParts b = true := by
      rw [sameText_iff, sameText_iff, passes, sameParts]
      simp only [Bool.and_eq_true, beq_iff_eq]
      tauto

/-- Every phone number of the list passes for the one at its position. -/
def phonesPass (phoneList : List OePhone) (candidates : List JsonObject) : Bool :=
  (phoneList.zip (candidates.map candidatePhone)).all fun p => p.1.passes p.2

theorem jsonArrayGetObject_append (before : List JsonObject) (obj : JsonObject)
    (rest : List JsonObject) :
    jsonArrayGetObject (some ((before ++ obj :: rest).map .obj)) before.length = some obj := by
  simp [jsonArrayGetObject, jsonArrayGetValue, jsonValueGetObject]

/-- The loop reports a match when the phone numbers from its position on pass. -/
theorem phonesEqual_eq (before candidates : List JsonObject) (isMatch : Bool)
    (phoneList : List OePhone) (hlength : phoneList.length = candidates.length) :
    phonesEqual ((before ++ candidates).map .obj) isMatch phoneList before.length =
      (.success, phonesPass phoneList candidates) := by
  induction phoneList generalizing before candidates with
  | nil => rfl
  | cons phone phoneList ih =>
      obtain _ | ⟨obj, rest⟩ := candidates
      · cases hlength
      have hrest := ih (before ++ [obj]) rest (by simpa using hlength)
      rw [List.append_assoc, List.singleton_append, List.length_append,
        List.length_singleton] at hrest
      rw [phonesEqual, jsonArrayGetObject_append, hrest]
      simp only [phonesPass, List.map_cons, List.zip_cons_cons, List.all_cons, OePhone.passes,
        candidatePhone]
      cases sameText phone.number (jsonObjectGetString (some obj) "number") <;>
        cases sameText phone.type (jsonObjectGetString (some obj) "type") <;> rfl

/-- At every position the same texts are given. -/
def SameParts (phoneList : List OePhone) (candidates : List JsonObject) : Prop :=
  ∀ p ∈ phoneList.zip (candidates.map candidatePhone), p.1.sameParts p.2 = true

/-- Phone numbers are the same when they pass and the same texts are given. -/
theorem phones_eq_iff {phoneList : List OePhone} {candidates : List JsonObject}
    (hlength : phoneList.length = candidates.length) :
    phoneList = candidates.map candidatePhone ↔
      phonesPass phoneList candidates = true ∧ SameParts phoneList candidates := by
  induction phoneList generalizing candidates with
  | nil =>
      obtain rfl := List.length_eq_zero_iff.mp hlength.symm
      simp [phonesPass, SameParts]
  | cons phone phoneList ih =>
      obtain _ | ⟨obj, rest⟩ := candidates
      · cases hlength
      rw [List.map_cons, List.cons.injEq, ih (by simpa using hlength), OePhone.eq_iff]
      simp only [phonesPass, SameParts, List.map_cons, List.zip_cons_cons, List.all_cons,
        Bool.and_eq_true, List.forall_mem_cons]
      tauto

theorem phonesExact_of_run {phoneList : List OePhone} {candidates : List JsonObject}
    {isMatch result : Bool}
    (hrun : comparePhoneNumbers phoneList (some (candidates.map .obj)) isMatch =
      (.success, result)) :
    PhonesExact phoneList candidates isMatch ↔
      (result = true ↔ phoneList = candidates.map candidatePhone) := by
  constructor
  · rintro ⟨result', hrun', hresult⟩
    rw [hrun] at hrun'
    obtain rfl := (Prod.mk.inj hrun').2
    exact hresult
  · intro hresult
    exact ⟨result, hrun, hresult⟩

/-- Comparing phone numbers is exact, unless the list alone is empty, or all positions pass
though at one of them a text is given on one side only. -/
theorem phonesExact_iff (phoneList : List OePhone) (candidates : List JsonObject)
    (isMatch : Bool) :
    PhonesExact phoneList candidates isMatch ↔
      (phoneList = [] → candidates = []) ∧
        (phoneList.length = candidates.length → phonesPass phoneList candidates = true →
          SameParts phoneList candidates) := by
  match phoneList, candidates with
  | [], [] =>
      have hrun : comparePhoneNumbers [] (some []) isMatch = (.success, true) := rfl
      rw [phonesExact_of_run hrun]
      simp [SameParts]
  | [], obj :: rest =>
      refine iff_of_false ?_ (by simp)
      rintro ⟨result, hrun, -⟩
      cases hrun
  | phone :: phoneList, candidates =>
      by_cases hlength : (phone :: phoneList).length = candidates.length
      · have hrun : comparePhoneNumbers (phone :: phoneList) (some (candidates.map .obj)) isMatch =
            (.success, phonesPass (phone :: phoneList) candidates) := by
          rw [comparePhoneNumbers, if_neg (by simp), if_neg (by simp),
            if_neg (by simpa using hlength)]
          exact phonesEqual_eq [] candidates isMatch _ hlength
        rw [phonesExact_of_run hrun, phones_eq_iff hlength]
        simp only [reduceCtorEq, false_imp_iff, true_and, hlength, true_imp_iff]
        exact ⟨fun h hpass => (h.mp hpass).2, fun h => ⟨fun hpass => ⟨hpass, h hpass⟩, And.left⟩⟩
      · have hrun : comparePhoneNumbers (phone :: phoneList) (some (candidates.map .obj)) isMatch =
            (.success, false) := by
          rw [comparePhoneNumbers, if_neg (by simp), if_neg (by simp),
            if_pos (by simpa using hlength)]
        rw [phonesExact_of_run hrun]
        refine iff_of_true (iff_of_false (by simp) fun hsame => hlength ?_)
          ⟨by simp, fun h => absurd h hlength⟩
        simpa using congrArg List.length hsame

/-- When the comparisons of e-mail addresses and of phone numbers are exact. -/
theorem compareLists_iff (email : Option String) (emails : List (Option String))
    (candidateEmails : List Json) (phoneList : List OePhone) (candidatePhones : List JsonObject)
    (isMatch : Bool) :
    (EmailsExact (email :: emails) candidateEmails isMatch ↔
      emails = [] ∧ ∀ elem, candidateEmails = [elem] →
        email.isSome ∧ (jsonValueGetString (some elem)).isSome) ∧
    (PhonesExact phoneList candidatePhones isMatch ↔
      (phoneList = [] → candidatePhones = []) ∧
        (phoneList.length = candidatePhones.length →
          phonesPass phoneList candidatePhones = true → SameParts phoneList candidatePhones)) :=
  ⟨emailsExact_iff email emails candidateEmails isMatch,
    phonesExact_iff phoneList candidatePhones isMatch⟩

/-- Comparing two e-mail addresses with an array of them does not end, and a vendor without
phone numbers cannot be compared with one that has any. -/
theorem compareLists_not_exact :
    ¬ EmailsExact [some "a@vendor.example", some "b@vendor.example"]
        [.str "a@vendor.example", .str "b@vendor.example"] true ∧
      ¬ PhonesExact [] [[("number", .str "555-0100"), ("type", .str "voice")]] true := by
  constructor
  · rintro ⟨fuel, result, hrun, -⟩
    rw [compareEmails_of_two] at hrun
    cases hrun
  · rintro ⟨result, hrun, -⟩
    cases hrun

end LibAmvp
