import LibAmvp.Lib.Steps
import LibAmvp.Lib.Storage
import LibAmvp.Session.Context
import LibAmvp.Session.UserAgent

/-!
# Configuration calls

Before a session runs, the application names the server, the files and the mode
of the session.  Each of these calls checks its arguments, releases the string the
context had, asks for storage and copies the new one.  The string fields of the
context are pointers here, so that a field may outlive its storage; a second release
of the same storage is undefined and ends the run.  The allocator may refuse any
request.

Main results:

- Theorem {lit}`Careful.perform`: a failed call leaves the context as it was, except for
  one that replaces the name of the registration file by too long a name.
- Theorem {lit}`failedCalls_keep_iff`: over whole runs.
-/

namespace LibAmvp

open Storage Steps

def amvpSessionParamsStrLenMax : Nat := 256

/-! ## The configured part of the context -/

/-- The string fields of {lit}`AMVP_CTX` that configuration calls set. -/
inductive TextField where
  | serverName
  | pathSegment
  | apiContext
  | cacertsFile
  | tlsCert
  | tlsKey
  | httpUserAgent
  | jsonFilename
  | vectorReqFile
  | getString
  | saveFilename
  | putFilename
  | modCertReqFile
  | postFilename
  | postResourcesFilename
  | deleteString
deriving DecidableEq

/-- The numeric fields of {lit}`AMVP_CTX` that configuration calls set. -/
inductive IntField where
  | serverPort
  | useJson
  | isSample
  | vectorReq
  | get
  | put
  | modCertReq
  | post
  | postResources
  | delete
deriving DecidableEq

/-- The configured fields of a context, and how often storage was asked for. -/
structure Config where
  store : Storage TextField String
  int : IntField → Int
  asked : Nat

namespace Config

/-- A context as {lit}`amvp_create_test_session` leaves it. -/
def fresh : Config := ⟨.empty, fun _ => 0, 0⟩

/-- Set a numeric field. -/
def setInt (f : IntField) (n : Int) (c : Config) : Config :=
  { c with int := Function.update c.int f n }

/-- Setting a number leaves the memory alone. -/
@[simp]
theorem setInt_store (f : IntField) (n : Int) (c : Config) : (c.setInt f n).store = c.store :=
  rfl

end Config

/-! ## The calls -/

section Calls

variable (grants : Nat → Bool) (collected : Collected)

/-- Release the string of a field, ask for storage and copy the new string.  The answer
is whether the storage was granted. -/
def replaceText (f : TextField) (text : String) (c : Config) : Option (Bool × Config) :=
  (c.store.replace (grants c.asked) f text).map fun store =>
    (grants c.asked, { c with store, asked := c.asked + 1 })

/-- The result of a call that ends with an allocation. -/
def allocResult (granted : Bool) : AmvpResult := if granted then .success else .mallocFail

/-- The setters that check for a missing string and one that is too long, and then replace
the string of a field. -/
def setText (f : TextField) (max : Nat) (missing : AmvpResult) (arg : Option String)
    (c : Config) : Option (AmvpResult × Config) :=
  match arg with
  | none => some (missing, c)
  | some text =>
    if max < text.length then some (.invalidArg, c)
    else (replaceText grants f text c).map fun (granted, c) => (allocResult granted, c)

/-- The setters that also raise a flag. -/
def markAs (f : TextField) (flag : IntField) (max : Nat) (arg : Option String) (c : Config) :
    Option (AmvpResult × Config) :=
  (setText grants f max .missingArg arg c).map fun (rv, c) =>
    (rv, if rv = .success then c.setInt flag 1 else c)

/-- The effect of {lit}`amvp_http_user_agent_handler` on a context without a user agent: one
block for the user agent and six to work in. -/
def addUserAgent (c : Config) : Option Config :=
  if grants c.asked then
    let scratch := (List.range 6).all fun i => grants (c.asked + 1 + i)
    match if scratch then httpUserAgentHandler collected else .ok [] with
    | .error _ => none
    | .ok agent => some { c with
        store := c.store.alloc .httpUserAgent (String.ofList agent), asked := c.asked + 7 }
  else
    some { c with asked := c.asked + 1 }

/-- {lit}`amvp_set_server`. -/
def setServer (serverName : Option String) (port : Int) (c : Config) :
    Option (AmvpResult × Config) :=
  match serverName with
  | none => some (.invalidArg, c)
  | some name =>
    if port < 1 then some (.invalidArg, c)
    else if amvpSessionParamsStrLenMax < name.length then some (.invalidArg, c)
    else do
      let (granted, c) ← replaceText grants .serverName name c
      if granted then
        let c := c.setInt .serverPort port
        if c.store.slot .httpUserAgent = none then
          return (.success, ← addUserAgent grants collected c)
        else
          return (.success, c)
      else
        return (.mallocFail, c)

/-- {lit}`amvp_set_path_segment`. -/
def setPathSegment := setText grants .pathSegment amvpSessionParamsStrLenMax .invalidArg

/-- {lit}`amvp_set_api_context`. -/
def setApiContext := setText grants .apiContext amvpSessionParamsStrLenMax .invalidArg

/-- {lit}`amvp_set_cacerts`. -/
def setCacerts := setText grants .cacertsFile amvpSessionParamsStrLenMax .missingArg

/-- {lit}`amvp_set_certkey`. -/
def setCertkey (certFile keyFile : Option String) (c : Config) :
    Option (AmvpResult × Config) :=
  match certFile, keyFile with
  | some cert, some key =>
    if amvpSessionParamsStrLenMax < cert.length ∨ amvpSessionParamsStrLenMax < key.length then
      some (.invalidArg, c)
    else do
      let (granted, c) ← replaceText grants .tlsCert cert c
      if granted then
        let (granted, c) ← replaceText grants .tlsKey key c
        if granted then
          return (.success, c)
        else
          let store ← c.store.free .tlsCert
          return (.mallocFail, { c with store := store.point .tlsCert none })
      else
        return (.mallocFail, c)
  | _, _ => some (.missingArg, c)

/-- {lit}`amvp_mark_as_sample`. -/
def markAsSample (c : Config) : Option (AmvpResult × Config) :=
  some (.success, c.setInt .isSample 1)

/-- {lit}`amvp_mark_as_request_only`. -/
def markAsRequestOnly := markAs grants .vectorReqFile .vectorReq amvpSessionParamsStrLenMax

/-- {lit}`amvp_mark_as_get_only`. -/
def markAsGetOnly := markAs grants .getString .get amvpRequestStrLenMax

/-- {lit}`amvp_mark_as_put_after_test`. -/
def markAsPutAfterTest := markAs grants .putFilename .put amvpSessionParamsStrLenMax

/-- {lit}`amvp_mark_as_cert_req`. -/
def markAsCertReq := markAs grants .modCertReqFile .modCertReq amvpSessionParamsStrLenMax

/-- {lit}`amvp_mark_as_post_only`. -/
def markAsPostOnly := markAs grants .postFilename .post amvpSessionParamsStrLenMax

/-- {lit}`amvp_mark_as_post_resources`. -/
def markAsPostResources :=
  markAs grants .postResourcesFilename .postResources amvpSessionParamsStrLenMax

/-- {lit}`amvp_set_get_save_file`. -/
def setGetSaveFile (filename : Option String) (c : Config) : Option (AmvpResult × Config) :=
  match filename with
  | none => some (.missingArg, c)
  | some filename =>
    if c.int .get = 0 then some (.unsupportedOp, c)
    else if amvpJsonFilenameMax < filename.length ∨ filename.length = 0 then
      some (.invalidArg, c)
    else
      (replaceText grants .saveFilename filename c).map fun (granted, c) =>
        (allocResult granted, c)

/-- {lit}`amvp_mark_as_delete_only`.  The string of an earlier call is not released. -/
def markAsDeleteOnly (requestUrl : Option String) (c : Config) :
    Option (AmvpResult × Config) :=
  match requestUrl with
  | none => some (.missingArg, c)
  | some url =>
    if amvpRequestStrLenMax < url.length ∨ url.length = 0 then some (.invalidArg, c)
    else
      let granted := grants c.asked
      let store := if granted then c.store.alloc .deleteString url
        else c.store.point .deleteString none
      let c := { c with store, asked := c.asked + 1 }
      some (allocResult granted, if granted then c.setInt .delete 1 else c)

/-- {lit}`amvp_set_json_filename`.  The old name is released before the new one is checked. -/
def setJsonFilename (jsonFilename : Option String) (c : Config) :
    Option (AmvpResult × Config) :=
  match jsonFilename with
  | none => some (.missingArg, c)
  | some name =>
    if c.int .vectorReq = 0 then some (.unsupportedOp, c)
    else do
      let store ← c.store.free .jsonFilename
      if amvpJsonFilenameMax < name.length then
        return (.invalidArg, { c with store })
      else
        let granted := grants c.asked
        let store := if granted then store.alloc .jsonFilename name
          else store.point .jsonFilename none
        let c := { c with store, asked := c.asked + 1 }
        return (allocResult granted, if granted then c.setInt .useJson 1 else c)

/-- A configuration call with its arguments. -/
inductive ConfigCall where
  | setServer (serverName : Option String) (port : Int)
  | setPathSegment (pathSegment : Option String)
  | setApiContext (apiContext : Option String)
  | setCacerts (caFile : Option String)
  | setCertkey (certFile keyFile : Option String)
  | setJsonFilename (jsonFilename : Option String)
  | setGetSaveFile (filename : Option String)
  | markAsSample
  | markAsRequestOnly (filename : Option String)
  | markAsGetOnly (string : Option String)
  | markAsPutAfterTest (filename : Option String)
  | markAsCertReq (filename : Option String)
  | markAsPostOnly (filename : Option String)
  | markAsPostResources (filename : Option String)
  | markAsDeleteOnly (requestUrl : Option String)
deriving DecidableEq

/-- What a configuration call returns and makes of the context; nothing when it runs into
undefined behaviour. -/
def ConfigCall.perform : ConfigCall → Config → Option (AmvpResult × Config)
  | .setServer name port => LibAmvp.setServer grants collected name port
  | .setPathSegment arg => LibAmvp.setPathSegment grants arg
  | .setApiContext arg => LibAmvp.setApiContext grants arg
  | .setCacerts arg => LibAmvp.setCacerts grants arg
  | .setCertkey cert key => LibAmvp.setCertkey grants cert key
  | .setJsonFilename arg => LibAmvp.setJsonFilename grants arg
  | .setGetSaveFile arg => LibAmvp.setGetSaveFile grants arg
  | .markAsSample => LibAmvp.markAsSample
  | .markAsRequestOnly arg => LibAmvp.markAsRequestOnly grants arg
  | .markAsGetOnly arg => LibAmvp.markAsGetOnly grants arg
  | .markAsPutAfterTest arg => LibAmvp.markAsPutAfterTest grants arg
  | .markAsCertReq arg => LibAmvp.markAsCertReq grants arg
  | .markAsPostOnly arg => LibAmvp.markAsPostOnly grants arg
  | .markAsPostResources arg => LibAmvp.markAsPostResources grants arg
  | .markAsDeleteOnly arg => LibAmvp.markAsDeleteOnly grants arg

/-- The context after a call. -/
def ConfigCall.step (call : ConfigCall) (c : Config) : Option Config :=
  (call.perform grants collected c).map Prod.snd

end Calls

/-! ## Failed calls -/

/-- Every field holds the same value as before, and every string field a live one. -/
def Config.KeepsAll (c c' : Config) : Prop :=
  c'.int = c.int ∧ c'.store.slot = c.store.slot ∧
    ∀ f a, c.store.slot f = some a → ∃ text, c.store.live a = some text ∧
      c'.store.live a = some text

/-- A call that returns neither success nor an allocation failure leaves all fields alone. -/
def FailureKeeps (grants : Nat → Bool) (collected : Collected) (call : ConfigCall)
    (c : Config) : Prop :=
  ∀ rv c', call.perform grants collected c = some (rv, c') → rv ≠ .success → rv ≠ .mallocFail →
    c.KeepsAll c'

/-- The call replaces the name of the registration file by too long a name. -/
def ReplacesByOverlong (call : ConfigCall) (c : Config) : Prop :=
  ∃ name, call = .setJsonFilename (some name) ∧ c.int .vectorReq ≠ 0 ∧
    c.store.slot .jsonFilename ≠ none ∧ amvpJsonFilenameMax < name.length

/-- The context is owned after the call, and as before it when the call failed. -/
structure CarefulEnd (c : Config) (rv : AmvpResult) (c' : Config) : Prop where
  owned : c'.store.Owned
  unchanged : rv ≠ .success → rv ≠ .mallocFail → c' = c

/-- A call that keeps the context owned, and changes nothing when it fails. -/
def Careful (x : Config → Option (AmvpResult × Config)) : Prop :=
  ∀ c rv c', c.store.Owned → x c = some (rv, c') → CarefulEnd c rv c'

section Failures

variable {grants : Nat → Bool} {collected : Collected}

/-- A call that returns at once. -/
theorem CarefulEnd.refused {c : Config} {rv rv' : AmvpResult} {c' : Config}
    (hc : c.store.Owned) (h : some (rv, c) = some (rv', c')) : CarefulEnd c rv' c' := by
  injection h with h
  injection h with _ h
  subst h
  exact ⟨hc, fun _ _ => rfl⟩

/-- Replacing a text keeps every allocation owned once. -/
theorem replaceText_owned {f : TextField} {text : String} {c c' : Config} {granted : Bool}
    (hc : c.store.Owned) (h : replaceText grants f text c = some (granted, c')) :
    c'.store.Owned := by
  obtain ⟨store, hreplace, howned⟩ := hc.replace (grants c.asked) f text
  rw [replaceText, hreplace] at h
  injection h with h
  injection h with _ h
  subst h
  exact howned

/-- An allocation succeeds or fails, nothing else. -/
theorem allocResult_ne {granted : Bool} (hsuccess : allocResult granted ≠ .success)
    (hmalloc : allocResult granted ≠ .mallocFail) : False := by
  cases granted with
  | true => exact hsuccess rfl
  | false => exact hmalloc rfl

/-- Setting a text is careful. -/
theorem careful_setText (f : TextField) (max : Nat) (missing : AmvpResult)
    (arg : Option String) : Careful (setText grants f max missing arg) := by
  intro c rv c' hc h
  cases arg with
  | none => exact .refused hc h
  | some text =>
      rw [setText] at h
      split at h
      · exact .refused hc h
      · obtain ⟨⟨granted, d⟩, hreplace, heq⟩ := Option.map_eq_some_iff.mp h
        injection heq with hrv hd
        subst hrv hd
        exact ⟨replaceText_owned hc hreplace, fun hs hm => (allocResult_ne hs hm).elim⟩

/-- So is marking the context with a file. -/
theorem careful_markAs (f : TextField) (flag : IntField) (max : Nat) (arg : Option String) :
    Careful (markAs grants f flag max arg) := by
  intro c rv c' hc h
  obtain ⟨⟨rv, d⟩, hset, heq⟩ := Option.map_eq_some_iff.mp h
  injection heq with hrv hd
  subst hrv hd
  obtain ⟨howned, hkeep⟩ := careful_setText f max .missingArg arg c rv d hc hset
  constructor
  · split
    · exact howned
    · exact howned
  · intro hs hm
    rw [if_neg hs]
    exact hkeep hs hm

/-- Adding the user agent keeps every allocation owned once. -/
theorem addUserAgent_owned {c c' : Config} (hc : c.store.Owned)
    (h : addUserAgent grants collected c = some c') : c'.store.Owned := by
  rw [addUserAgent] at h
  split at h
  · dsimp only at h
    split at h
    · cases h
    · injection h with h
      subst h
      exact hc.allocate true _ _
  · injection h with h
    subst h
    exact hc

/-- Setting the server is careful. -/
theorem careful_setServer (name : Option String) (port : Int) :
    Careful (setServer grants collected name port) := by
  intro c rv c' hc h
  cases name with
  | none => exact .refused hc h
  | some name =>
      rw [setServer] at h
      split at h
      · exact .refused hc h
      · split at h
        · exact .refused hc h
        · obtain ⟨⟨granted, d⟩, hreplace, h⟩ := Option.bind_eq_some_iff.mp h
          have hd := replaceText_owned hc hreplace
          cases granted with
          | false =>
              injection h with h
              injection h with hrv hd'
              subst hrv hd'
              exact ⟨hd, fun _ hm => (hm rfl).elim⟩
          | true =>
              simp only [if_true] at h
              split at h
              · obtain ⟨e, hagent, h⟩ := Option.bind_eq_some_iff.mp h
                injection h with h
                injection h with hrv he
                subst hrv he
                have hport : (d.setInt .serverPort port).store.Owned := hd
                exact ⟨addUserAgent_owned hport hagent, fun hs => (hs rfl).elim⟩
              · injection h with h
                injection h with hrv he
                subst hrv he
                exact ⟨hd, fun hs => (hs rfl).elim⟩

/-- So is setting certificate and key. -/
theorem careful_setCertkey (cert key : Option String) : Careful (setCertkey grants cert key) := by
  intro c rv c' hc h
  rw [setCertkey.eq_def] at h
  split at h
  · split at h
    · exact .refused hc h
    · obtain ⟨⟨granted, d⟩, hreplace, h⟩ := Option.bind_eq_some_iff.mp h
      have hd := replaceText_owned hc hreplace
      cases granted with
      | false =>
          injection h with h
          injection h with hrv hd'
          subst hrv hd'
          exact ⟨hd, fun _ hm => (hm rfl).elim⟩
      | true =>
          obtain ⟨⟨granted, e⟩, hreplace', h⟩ := Option.bind_eq_some_iff.mp h
          have he := replaceText_owned hd hreplace'
          cases granted with
          | true =>
              injection h with h
              injection h with hrv he'
              subst hrv he'
              exact ⟨he, fun hs => (hs rfl).elim⟩
          | false =>
              -- the certificate goes with the key
              obtain ⟨store, hfree, h⟩ := Option.bind_eq_some_iff.mp h
              obtain ⟨store', hfree', hslot, -, hother⟩ := he.free .tlsCert
              rw [hfree] at hfree'
              injection hfree' with hstore
              subst hstore
              injection h with h
              injection h with hrv hd'
              subst hrv hd'
              exact ⟨owned_of_others he hslot hother false "", fun _ hm => (hm rfl).elim⟩
  · exact .refused hc h

/-- And setting the file for a GET. -/
theorem careful_setGetSaveFile (arg : Option String) : Careful (setGetSaveFile grants arg) := by
  intro c rv c' hc h
  cases arg with
  | none => exact .refused hc h
  | some name =>
      rw [setGetSaveFile] at h
      split at h
      · exact .refused hc h
      · split at h
        · exact .refused hc h
        · obtain ⟨⟨granted, d⟩, hreplace, heq⟩ := Option.map_eq_some_iff.mp h
          injection heq with hrv hd
          subst hrv hd
          exact ⟨replaceText_owned hc hreplace, fun hs hm => (allocResult_ne hs hm).elim⟩

/-- And marking the context for a DELETE. -/
theorem careful_markAsDeleteOnly (arg : Option String) :
    Careful (markAsDeleteOnly grants arg) := by
  intro c rv c' hc h
  cases arg with
  | none => exact .refused hc h
  | some url =>
      rw [markAsDeleteOnly] at h
      split at h
      · exact .refused hc h
      · injection h with h
        injection h with hrv hd
        subst hrv hd
        refine ⟨?_, fun hs hm => (allocResult_ne hs hm).elim⟩
        have howned := hc.allocate (grants c.asked) .deleteString url
        cases hgrant : grants c.asked with
        | true => simpa [hgrant] using howned
        | false => simpa [hgrant] using howned

/-- Setting the file of the registration is, unless an overlong name replaces one. -/
theorem setJsonFilename_careful {name : String} {c c' : Config} {rv : AmvpResult}
    (hc : c.store.Owned)
    (hcond : ¬ ReplacesByOverlong (.setJsonFilename (some name)) c)
    (h : setJsonFilename grants (some name) c = some (rv, c')) : CarefulEnd c rv c' := by
  rw [setJsonFilename] at h
  split at h
  · exact .refused hc h
  · next hreq =>
    obtain ⟨store, hfree, h⟩ := Option.bind_eq_some_iff.mp h
    obtain ⟨store', hfree', hslot, -, hother⟩ := hc.free .jsonFilename
    rw [hfree] at hfree'
    injection hfree' with hstore
    subst hstore
    split at h
    · next hlong =>
      -- there was no name to release
      have hnone : c.store.slot .jsonFilename = none := by
        by_contra hset
        exact hcond ⟨name, rfl, hreq, hset, hlong⟩
      have hsame : store = c.store := by
        simpa [Storage.free, hnone] using hfree.symm
      subst hsame
      exact .refused hc h
    · have howned := owned_of_others hc hslot hother (grants c.asked) name
      injection h with h
      injection h with hrv hd
      subst hrv hd
      refine ⟨?_, fun hs hm => (allocResult_ne hs hm).elim⟩
      cases hgrant : grants c.asked with
      | true => simpa [hgrant] using howned
      | false => simpa [hgrant] using howned

/-- Every call but one that replaces the registration file by too long a name is careful. -/
theorem carefulEnd_perform {call : ConfigCall} {c c' : Config} {rv : AmvpResult}
    (hc : c.store.Owned) (hcond : ¬ ReplacesByOverlong call c)
    (h : call.perform grants collected c = some (rv, c')) : CarefulEnd c rv c' := by
  cases call with
  | setServer name port => exact careful_setServer name port c rv c' hc h
  | setPathSegment arg => exact careful_setText _ _ _ arg c rv c' hc h
  | setApiContext arg => exact careful_setText _ _ _ arg c rv c' hc h
  | setCacerts arg => exact careful_setText _ _ _ arg c rv c' hc h
  | setCertkey cert key => exact careful_setCertkey cert key c rv c' hc h
  | setJsonFilename arg =>
      cases arg with
      | none => exact .refused hc h
      | some name => exact setJsonFilename_careful hc hcond h
  | setGetSaveFile arg => exact careful_setGetSaveFile arg c rv c' hc h
  | markAsSample =>
      injection h with h
      injection h with hrv hd
      subst hrv hd
      exact ⟨hc, fun hs => (hs rfl).elim⟩
  | markAsRequestOnly arg => exact careful_markAs _ _ _ arg c rv c' hc h
  | markAsGetOnly arg => exact careful_markAs _ _ _ arg c rv c' hc h
  | markAsPutAfterTest arg => exact careful_markAs _ _ _ arg c rv c' hc h
  | markAsCertReq arg => exact careful_markAs _ _ _ arg c rv c' hc h
  | markAsPostOnly arg => exact careful_markAs _ _ _ arg c rv c' hc h
  | markAsPostResources arg => exact careful_markAs _ _ _ arg c rv c' hc h
  | markAsDeleteOnly arg => exact careful_markAsDeleteOnly arg c rv c' hc h

/-- A configuration keeps all that it has. -/
theorem keepsAll_self {c : Config} (hc : c.store.Owned) : c.KeepsAll c := by
  refine ⟨rfl, rfl, ?_⟩
  intro f a ha
  obtain ⟨text, htext⟩ := Option.isSome_iff_exists.mp (hc.alive f a ha)
  exact ⟨text, htext, htext⟩

/-- Replacing the registration file by too long a name leaves its field dangling. -/
theorem not_failureKeeps {call : ConfigCall} {c : Config} (hc : c.store.Owned)
    (h : ReplacesByOverlong call c) : ¬ FailureKeeps grants collected call c := by
  obtain ⟨name, rfl, hreq, hset, hlong⟩ := h
  obtain ⟨a, ha⟩ := Option.ne_none_iff_exists'.mp hset
  obtain ⟨store, hfree, hslot, hdead, -⟩ := hc.free .jsonFilename
  have hperform : (ConfigCall.setJsonFilename (some name)).perform grants collected c =
      some (.invalidArg, { c with store }) := by
    rw [ConfigCall.perform, setJsonFilename, if_neg hreq, hfree, Option.bind_eq_bind,
      Option.bind_some, if_pos hlong]
    rfl
  intro hkeeps
  obtain ⟨-, -, hlive⟩ := hkeeps _ _ hperform (by decide) (by decide)
  obtain ⟨text, -, htext⟩ := hlive .jsonFilename a ha
  rw [hdead a ha] at htext
  cases htext

/-- A call that fails keeps the configuration exactly when it is no such replacement. -/
theorem failureKeeps_iff {call : ConfigCall} {c : Config} (hc : c.store.Owned) :
    FailureKeeps grants collected call c ↔ ¬ ReplacesByOverlong call c := by
  constructor
  · intro hkeeps hover
    exact not_failureKeeps hc hover hkeeps
  · intro hcond rv c' h hs hm
    rw [(carefulEnd_perform hc hcond h).unchanged hs hm]
    exact keepsAll_self hc

/-- A call that is no such replacement keeps every allocation owned once. -/
theorem owned_step {call : ConfigCall} {c c' : Config} (hc : c.store.Owned)
    (hcond : ¬ ReplacesByOverlong call c) (h : call.step grants collected c = some c') :
    c'.store.Owned := by
  obtain ⟨⟨rv, d⟩, hperform, rfl⟩ := Option.map_eq_some_iff.mp h
  exact (carefulEnd_perform hc hcond hperform).owned

/-- In a run of configuration calls, the failed ones leave every field holding the same
live value exactly when none replaces the registration file by too long a name. -/
theorem failedCalls_keep_iff (grants : Nat → Bool) (collected : Collected)
    (calls : List ConfigCall) :
    EveryStep (ConfigCall.step grants collected) (FailureKeeps grants collected) .fresh calls ↔
      EveryStep (ConfigCall.step grants collected) (fun call c => ¬ ReplacesByOverlong call c)
        .fresh calls := by
  have hfresh : Config.fresh.store.Owned := owned_empty
  exact everyStep_iff (fun c => c.store.Owned) (fun call c hc => failureKeeps_iff hc)
    (fun call c c' hc hcond hstep => owned_step hc hcond hstep) hfresh calls

/-- A second registration file, with a name of 129 characters. -/
theorem failedCalls_not_keep :
    ¬ EveryStep (ConfigCall.step (fun _ => true) (Platform.named "Linux").collect)
      (FailureKeeps (fun _ => true) (Platform.named "Linux").collect) .fresh
      [.markAsRequestOnly (some "req.json"), .setJsonFilename (some "reg.json"),
        .setJsonFilename (some (String.ofList (List.replicate 129 'a')))] := by
  rintro ⟨-, h⟩
  have hlong : amvpJsonFilenameMax < (String.ofList (List.replicate 129 'a')).length := by
    rw [String.length_ofList, List.length_replicate]
    decide
  have hfirst : ¬ ReplacesByOverlong (.markAsRequestOnly (some "req.json")) Config.fresh := by
    rintro ⟨name, hname, -⟩
    cases hname
  have hsecond : ∀ c, ¬ ReplacesByOverlong (.setJsonFilename (some "reg.json")) c := by
    rintro c ⟨name, hname, -, -, hname'⟩
    cases hname
    exact absurd hname' (by decide)
  have howned := @owned_step (fun _ => true) (Platform.named "Linux").collect _ _ _
    owned_empty hfirst rfl
  have howned' := @owned_step (fun _ => true) (Platform.named "Linux").collect _ _ _
    howned (hsecond _) rfl
  obtain ⟨-, h⟩ := h _ rfl
  obtain ⟨h, -⟩ := h _ rfl
  exact not_failureKeeps howned' ⟨_, rfl, by decide, by decide, hlong⟩ h

end Failures

end LibAmvp
