import LibAmvp.Session.Offline
import LibAmvp.Session.RegistrationReply
import LibAmvp.Session.Replies

/-!
# What the offline passes report

The pass that runs the vectors of a request file and the pass that uploads a response file
both end in one result.  The first looks for a response where there is none and then returns
the result of the handler; the second overwrites the results of the submissions and of the
check by those of the steps that follow.

Main results:

- Theorem {lit}`runVectorsFromFile_honest_iff`: when a success of the run means a complete
  response file.
- Theorem {lit}`uploadVectorsFromFile_honest_iff`: for which files and which replies a success of
  the upload means that all responses were submitted and the check succeeded.
-/

namespace LibAmvp

section Run

variable (out : Outside)

/-! ## The response file -/

/-- The elements of a request file or a response file. -/
def fileElems (filename : String) (w : World) : List Json :=
  jsonArrayElems (jsonValueGetArray (jsonParseFile (some filename) w))

/-- The vector set objects of a request file. -/
def requestSets (elems : List Json) : List JsonObject :=
  (elems.drop 1).filterMap fun elem => jsonValueGetObject (some elem)

/-- The text of a response file for this request: the header, the response to every set in
order, and the closing bracket. -/
def ResponseFileComplete (elems : List Json) (text : Option Json.Text) : Prop :=
  ∃ t header responses, text = some t ∧ elems[0]? = some header ∧
    Json.parse t = some (.arr (header :: responses)) ∧
    responses.map some = (requestSets elems).map fun set => handlerResponse out (.arr [.obj set])

/-- A run that succeeds leaves a complete response file. -/
def RunHonest (reqFilename rspFilename : Option String) (w : World) : Prop :=
  (runVectorsFromFile out reqFilename rspFilename w).1 = .success →
    ∃ req rsp, reqFilename = some req ∧ rspFilename = some rsp ∧
      ResponseFileComplete out (fileElems req w)
        ((runVectorsFromFile out reqFilename rspFilename w).2.files rsp)

/-! ## The result of the run -/

/-- The result of processing a vector set object. -/
def dispatchResult (obj : JsonObject) : AmvpResult :=
  match jsonObjectGetString (some obj) "algorithm" with
  | none => .jsonErr
  | some alg =>
    match out.katHandler alg (jsonObjectGetString (some obj) "mode") with
    | none => .unsupportedOp
    | some handler =>
      match handler obj with
      | .response _ => .success
      | .failure rv _ => rv

/-- The URLs in the header of a request file. -/
def headerUrls (key : String) (header : JsonObject) : List String × Bool :=
  urlPrefix (jsonArrayElems (jsonObjectGetArray (some header) key))

/-- The first set of the request file is processed, without a success. -/
def FirstSetFails (elems : List Json) (w : World) : Prop :=
  ∃ header set, jsonArrayGetObject (some elems) 0 = some header ∧
    jsonObjectGetString (some header) "url" ≠ none ∧
    jsonObjectGetString (some header) "jwt" ≠ none ∧
    (headerUrls "vectorSetUrls" header).2 = true ∧
    w.ctx.vsidUrlList ++ (headerUrls "vectorSetUrls" header).1 ≠ [] ∧
    jsonArrayGetObject (some elems) 1 = some set ∧ dispatchResult out set ≠ .success

/-- The run returns an error. -/
def RunFails (reqFilename rspFilename : Option String) (w : World) : Prop :=
  ∀ req rsp, reqFilename = some req → rspFilename = some rsp →
    amvpJsonFilenameMax < req.length ∨ FirstSetFails out (fileElems req w) w

variable {out}

/-- Processing a set writes no file, and leaves no second response where there was none. -/
theorem dispatchVectorSet_result (obj : JsonObject) (w : World)
    (hresp : jsonArrayGetValue (jsonValueGetArray w.ctx.katResp) 1 = none) :
    (dispatchVectorSet out (some obj) w).1 = dispatchResult out obj ∧
      (dispatchVectorSet out (some obj) w).2.files = w.files ∧
      jsonArrayGetValue (jsonValueGetArray
        (dispatchVectorSet out (some obj) w).2.ctx.katResp) 1 = none := by
  unfold dispatchResult
  rw [dispatchVectorSet, modifyCtx_bind]
  cases jsonObjectGetString (some obj) "algorithm" with
  | none => exact ⟨rfl, rfl, hresp⟩
  | some alg =>
      dsimp only
      cases out.katHandler alg (jsonObjectGetString (some obj) "mode") with
      | none => exact ⟨rfl, rfl, hresp⟩
      | some handler =>
          dsimp only [Option.getD_some]
          cases handler obj with
          | response r => exact ⟨rfl, rfl, rfl⟩
          | failure rv installed =>
              cases installed with
              | true => exact ⟨rfl, rfl, rfl⟩
              | false => exact ⟨rfl, rfl, hresp⟩

/-- The loop ends at its first set, with the result of its handler. -/
theorem runVectorSets_result (header : Option Json) (rspFilename : String) (set : JsonObject)
    (sets : List Json) (url : String) (urls : List String) (n : Nat) (w : World)
    (hresp : jsonArrayGetValue (jsonValueGetArray w.ctx.katResp) 1 = none) :
    (runVectorSets out header rspFilename (.obj set :: sets) (url :: urls) n w).1 =
        dispatchResult out set ∧
      (runVectorSets out header rspFilename (.obj set :: sets) (url :: urls) n w).2.files =
        w.files := by
  obtain ⟨hrv, hfiles, hnone⟩ := @dispatchVectorSet_result out set w hresp
  obtain ⟨⟨rv, w₁⟩, hdispatch⟩ : ∃ p, dispatchVectorSet out (some set) w = p := ⟨_, rfl⟩
  rw [hdispatch] at hrv hfiles hnone
  rw [runVectorSets, Prog.bind_of_eq hdispatch]
  by_cases hsuccess : rv = .success
  · rw [if_neg (not_not.mpr hsuccess), getCtx_bind]
    dsimp only at hnone
    rw [hnone]
    exact ⟨hsuccess.symm.trans hrv, hfiles⟩
  · rw [if_pos hsuccess]
    exact ⟨hrv, hfiles⟩

/-- The element at a position is an object. -/
theorem drop_one_of_getObject {elems : List Json} {set : JsonObject}
    (h : jsonArrayGetObject (some elems) 1 = some set) :
    ∃ sets, elems.drop 1 = .obj set :: sets := by
  match elems with
  | [] => simp [jsonArrayGetObject, jsonArrayGetValue, jsonValueGetObject] at h
  | [e] => simp [jsonArrayGetObject, jsonArrayGetValue, jsonValueGetObject] at h
  | e :: .obj members :: sets =>
      obtain rfl : members = set := Option.some.inj h
      exact ⟨sets, rfl⟩
  | e :: .null :: sets | e :: .bool _ :: sets | e :: .num _ :: sets
  | e :: .str _ :: sets | e :: .arr _ :: sets =>
      simp [jsonArrayGetObject, jsonArrayGetValue, jsonValueGetObject] at h

/-- A request file with a good header is run without writing a file, and the result is an
error only if the first set fails. -/
theorem runVectorFile_result (elems : List Json) (header : JsonObject) (rspFilename : String)
    (w : World) (hresp : jsonArrayGetValue (jsonValueGetArray w.ctx.katResp) 1 = none) :
    (runVectorFile out elems header rspFilename w).2.files = w.files ∧
      ((runVectorFile out elems header rspFilename w).1 ≠ .success ↔
        ∃ set, (headerUrls "vectorSetUrls" header).2 = true ∧
          w.ctx.vsidUrlList ++ (headerUrls "vectorSetUrls" header).1 ≠ [] ∧
          jsonArrayGetObject (some elems) 1 = some set ∧ dispatchResult out set ≠ .success) := by
  unfold runVectorFile headerUrls
  obtain ⟨⟨urls, complete⟩, hurls⟩ : ∃ p, urlPrefix
      (jsonArrayElems (jsonObjectGetArray (some header) "vectorSetUrls")) = p := ⟨_, rfl⟩
  rw [hurls]
  dsimp only
  rw [appendVsidUrls, modifyCtx_bind, getCtx_bind, Prog.ite_apply, Prog.ite_apply]
  dsimp only
  cases complete with
  | false => simp
  | true =>
      rw [if_neg (by simp)]
      cases hset : jsonArrayGetObject (some elems) 1 with
      | none => simp
      | some set =>
          obtain ⟨sets, hdrop⟩ := drop_one_of_getObject hset
          cases hlist : w.ctx.vsidUrlList ++ urls with
          | nil => simp
          | cons url rest =>
              rw [if_neg (by simp), hdrop]
              have hrun := @runVectorSets_result out elems[0]? rspFilename set sets url rest 1
                { w with ctx := { w.ctx with vsidUrlList := url :: rest } } hresp
              rw [hrun.1, hrun.2]
              simp

/-- The run writes no file, and it returns an error if and only if its arguments are refused or
the first set fails. -/
theorem runVectorsFromFile_result (reqFilename rspFilename : Option String) (w : World)
    (hresp : jsonArrayGetValue (jsonValueGetArray w.ctx.katResp) 1 = none) :
    (runVectorsFromFile out reqFilename rspFilename w).2.files = w.files ∧
      ((runVectorsFromFile out reqFilename rspFilename w).1 ≠ .success ↔
        RunFails out reqFilename rspFilename w) := by
  unfold RunFails
  rw [runVectorsFromFile, Prog.read_bind_apply]
  cases reqFilename with
  | none => simp
  | some req =>
      cases rspFilename with
      | none => simp
      | some rsp =>
          dsimp only
          by_cases hname : amvpJsonFilenameMax < req.length
          · rw [if_pos hname]
            simp [hname]
          rw [if_neg hname]
          have hfails : (∀ req' rsp', some req = some req' → some rsp = some rsp' →
              amvpJsonFilenameMax < req'.length ∨ FirstSetFails out (fileElems req' w) w) ↔
              FirstSetFails out (fileElems req w) w := by
            constructor
            · intro h
              exact (h req rsp rfl rfl).resolve_left hname
            · rintro h _ _ ⟨⟩ ⟨⟩
              exact .inr h
          rw [hfails]
          unfold FirstSetFails fileElems
          generalize jsonArrayElems (jsonValueGetArray (jsonParseFile (some req) w)) = elems
          cases hheader : jsonArrayGetObject (some elems) 0 with
          | none => simp
          | some header =>
              dsimp only
              cases hurl : jsonObjectGetString (some header) "url" with
              | none => simp [hurl]
              | some url =>
                  dsimp only
                  rw [Prog.bind_apply]
                  cases hjwt : jsonObjectGetString (some header) "jwt" with
                  | none =>
                      refine ⟨rfl, fun h => absurd rfl h, ?_⟩
                      rintro ⟨header', set, hheader', -, hjwt', -⟩
                      obtain rfl := Option.some.inj hheader'
                      exact absurd hjwt hjwt'
                  | some jwt =>
                      dsimp only
                      rw [Prog.bind_apply]
                      have hrun := @runVectorFile_result out elems header rsp
                        (readTokenAndSample header jwt (setSessionUrl url w).2).2 hresp
                      refine ⟨hrun.1, hrun.2.trans ⟨?_, ?_⟩⟩
                      · rintro ⟨set, hcomplete, hlist, hset, hfail⟩
                        exact ⟨header, set, rfl, by simp [hurl], by simp [hjwt], hcomplete, hlist,
                          hset, hfail⟩
                      · rintro ⟨header', set, hheader', -, -, hcomplete, hlist, hset, hfail⟩
                        obtain rfl := Option.some.inj hheader'
                        exact ⟨set, hcomplete, hlist, hset, hfail⟩

/-- A success of the run means a complete response file if and only if the run returns an
error, or the response file was complete before: the run never writes it. -/
theorem runVectorsFromFile_honest_iff (reqFilename rspFilename : Option String) (w : World)
    (hresp : jsonArrayGetValue (jsonValueGetArray w.ctx.katResp) 1 = none) :
    RunHonest out reqFilename rspFilename w ↔
      RunFails out reqFilename rspFilename w ∨
      ∃ req rsp, reqFilename = some req ∧ rspFilename = some rsp ∧
        ResponseFileComplete out (fileElems req w) (w.files rsp) := by
  obtain ⟨hfiles, hfails⟩ := @runVectorsFromFile_result out reqFilename rspFilename w hresp
  unfold RunHonest
  rw [hfiles, ← hfails]
  exact imp_iff_not_or

end Run

/-! ## A set whose response is not written -/

/-- A request file with one set. -/
def requestWorld : World :=
  { World.start with
    files := fun f => if f = "req.json" then some (Json.tokens (.arr [
      .obj [("url", .str "/testSessions/1"), ("jwt", .str "token"),
        ("vectorSetUrls", .arr [.str "/vs/1"])],
      lostSet])) else none }

/-- Without a handler for its only set the run returns an error. -/
theorem runVectorsFromFile_honest_unsupported :
    RunHonest (.plain fun _ _ => ⟨0, none⟩) (some "req.json") (some "rsp.json") requestWorld := by
  rw [runVectorsFromFile_honest_iff _ _ _ rfl]
  refine .inl fun req rsp hreq _ => .inr ?_
  obtain rfl := Option.some.inj hreq
  exact ⟨_, _, rfl, by decide, by decide, rfl, by decide, rfl, by decide⟩

/-- The handler of the only set answers, the run succeeds, and there is no response file. -/
theorem runVectorsFromFile_not_written :
    (runVectorsFromFile answeringOutside (some "req.json") (some "rsp.json") requestWorld).1 =
      .success ∧
    ¬RunHonest answeringOutside (some "req.json") (some "rsp.json") requestWorld := by
  have hsuccess : (runVectorsFromFile answeringOutside (some "req.json") (some "rsp.json")
      requestWorld).1 = .success := rfl
  refine ⟨hsuccess, fun hhonest => ?_⟩
  obtain ⟨req, rsp, -, hrsp, t, header, responses, htext, -⟩ := hhonest hsuccess
  obtain rfl := Option.some.inj hrsp
  have hfiles := (@runVectorsFromFile_result answeringOutside (some "req.json") (some "rsp.json")
    requestWorld rfl).1
  rw [hfiles] at htext
  cases htext

/-! ## The course of an upload -/

section Upload

variable (out : Outside)

/-- One submission of an upload: the URL, the element of the file that was sent, and the
result. -/
structure Submission where
  url : String
  response : Option Json
  rv : AmvpResult

/-- The results of the steps of an upload from the submissions on. -/
structure UploadSteps where
  submissions : List Submission
  check : AmvpResult
  certificate : AmvpResult
  validation : AmvpResult

/-- {lit}`uploadResponses` with its submissions. -/
def uploadSubmissions (elems : List Json) : List String → Nat → Session (List Submission)
  | [], _ => return []
  | url :: urls, n => do
    let vsId := toInt (jsonObjectGetNumber (jsonArrayGetObject (some elems) n) "vsId")
    modifyCtx fun ctx => { ctx with vsId := vsId, katResp := some (singleton elems[n]?) }
    let rv ← submitVectorResponses out url
    modifyCtx fun ctx => { ctx with katResp := none }
    let rest ← uploadSubmissions elems urls (n + 1)
    return ⟨url, elems[n]?, rv⟩ :: rest

/-- The steps of an upload from the submissions on, in order.  The validation is the last of
them, and counts as a success when it is not reached. -/
def uploadSteps (elems : List Json) (urls : List String) (fipsValidation : Bool) :
    Session UploadSteps := do
  let submissions ← uploadSubmissions out elems urls 1
  let check ← checkTestResults out
  let certificate ← certReq out
  if certificate ≠ .success then
    return ⟨submissions, check, certificate, .success⟩
  else
    let validation ← validateStep out fipsValidation
    return ⟨submissions, check, certificate, validation⟩

variable {out}

theorem uploadResponses_eq_submissions (elems : List Json) (urls : List String) (n : Nat)
    (w : World) :
    uploadResponses out elems urls n w = ((), (uploadSubmissions out elems urls n w).2) := by
  induction urls generalizing n w with
  | nil => rfl
  | cons url urls ih =>
      rw [uploadResponses, uploadSubmissions]
      exact ih (n + 1) _

/-- The submissions go to the URLs in order, each with the element at its position. -/
theorem uploadSubmissions_sent (elems : List Json) (urls : List String) (n : Nat) (w : World) :
    ((uploadSubmissions out elems urls n w).1.map fun s => (s.url, s.response)) =
      (urls.zipIdx n).map fun x => (x.1, elems[x.2]?) := by
  induction urls generalizing n w with
  | nil => rfl
  | cons url urls ih =>
      rw [uploadSubmissions, List.zipIdx_cons, List.map_cons]
      exact congrArg (List.cons _) (ih (n + 1) _)

/-- From the submissions on, the result of an upload is that of its last steps. -/
theorem finishUpload_eq_steps (elems : List Json) (urls : List String) (fipsValidation : Bool)
    (w : World) :
    (do uploadResponses out elems urls 1; finishUpload out fipsValidation : Session AmvpResult) w =
      let r := uploadSteps out elems urls fipsValidation w
      (if r.1.certificate ≠ .success then r.1.certificate else r.1.validation, r.2) := by
  obtain ⟨⟨submissions, w₁⟩, hsubmit⟩ : ∃ p, uploadSubmissions out elems urls 1 w = p := ⟨_, rfl⟩
  have hresponses : uploadResponses out elems urls 1 w = ((), w₁) := by
    rw [uploadResponses_eq_submissions, hsubmit]
  obtain ⟨⟨check, w₂⟩, hcheck⟩ : ∃ p, checkTestResults out w₁ = p := ⟨_, rfl⟩
  obtain ⟨⟨certificate, w₃⟩, hcert⟩ : ∃ p, certReq out w₂ = p := ⟨_, rfl⟩
  rw [Prog.bind_of_eq hresponses, finishUpload, uploadSteps, Prog.bind_of_eq hsubmit,
    Prog.bind_of_eq hcheck, Prog.bind_of_eq hcheck, Prog.bind_of_eq hcert, Prog.bind_of_eq hcert]
  by_cases hcertificate : certificate = .success
  · rw [if_neg (not_not.mpr hcertificate), if_neg (not_not.mpr hcertificate), Prog.bind_apply,
      Prog.pure_apply]
    dsimp only
    rw [if_neg (not_not.mpr hcertificate)]
  · rw [if_pos hcertificate, if_pos hcertificate, Prog.pure_apply, Prog.pure_apply]
    dsimp only
    rw [if_pos hcertificate]

/-! ## How far an upload gets -/

/-- The response file has a header with these identifiers and a list of strings. -/
structure UploadReads (rspFilename : Option String) (w : World) (rsp : String)
    (header : JsonObject) (url jwt : String) : Prop where
  name : rspFilename = some rsp
  short : rsp.length ≤ amvpJsonFilenameMax
  hasHeader : jsonArrayGetObject (some (fileElems rsp w)) 0 = some header
  hasUrl : jsonObjectGetString (some header) "url" = some url
  hasJwt : jsonObjectGetString (some header) "jwt" = some jwt
  strings : (headerUrls "ieSetsId" header).2 = true

/-- The URLs an upload walks through: those of the context and those of the header. -/
def uploadUrls (header : JsonObject) (w : World) : List String :=
  w.ctx.vsidUrlList ++ (headerUrls "ieSetsId" header).1

/-- The state once the header was read. -/
def uploadRead (header : JsonObject) (url jwt : String) (w : World) : World :=
  (appendVsidUrls (headerUrls "ieSetsId" header).1
    (readTokenAndSample header jwt (setSessionUrl url w).2).2).2

variable (out)

/-- The state in front of the submissions. -/
def uploadReady (header : JsonObject) (url jwt : String) (fipsValidation : Bool) (w : World) :
    World :=
  (modifyCtx (fun ctx => { ctx with doValidation := fipsValidation })
    (metadataStep out fipsValidation (uploadRead header url jwt w)).2).2

/-- The upload comes to the submissions. -/
def UploadReaches (rspFilename : Option String) (fipsValidation : Bool) (w : World)
    (rsp : String) (header : JsonObject) (url jwt : String) : Prop :=
  UploadReads rspFilename w rsp header url jwt ∧ uploadUrls header w ≠ [] ∧
    (metadataStep out fipsValidation (uploadRead header url jwt w)).1 = .success

/-- The steps of an upload that comes to the submissions. -/
def stepsOf (fipsValidation : Bool) (w : World) (rsp : String) (header : JsonObject)
    (url jwt : String) : UploadSteps :=
  (uploadSteps out (fileElems rsp w) (uploadUrls header w) fipsValidation
    (uploadReady out header url jwt fipsValidation w)).1

variable {out}

/-- What is read from a file is unique. -/
theorem UploadReads.unique {rspFilename : Option String} {w : World} {rsp rsp' : String}
    {header header' : JsonObject} {url url' jwt jwt' : String}
    (h : UploadReads rspFilename w rsp header url jwt)
    (h' : UploadReads rspFilename w rsp' header' url' jwt') :
    rsp = rsp' ∧ header = header' ∧ url = url' ∧ jwt = jwt' := by
  obtain rfl : rsp = rsp' := Option.some.inj (h.name.symm.trans h'.name)
  obtain rfl : header = header' := Option.some.inj (h.hasHeader.symm.trans h'.hasHeader)
  exact ⟨rfl, rfl, Option.some.inj (h.hasUrl.symm.trans h'.hasUrl),
    Option.some.inj (h.hasJwt.symm.trans h'.hasJwt)⟩

/-- The upload of a file with a list of strings, from the list on. -/
theorem uploadResponseFile_result {header : JsonObject}
    (hstrings : (headerUrls "ieSetsId" header).2 = true) (elems : List Json)
    (fipsValidation : Bool) (w : World) :
    (uploadResponseFile out elems header fipsValidation w).1 =
      let read := (appendVsidUrls (headerUrls "ieSetsId" header).1 w).2
      let checked := metadataStep out fipsValidation read
      let steps := (uploadSteps out elems (uploadUrls header w) fipsValidation
        (modifyCtx (fun ctx => { ctx with doValidation := fipsValidation }) checked.2).2).1
      if uploadUrls header w = [] then .success
      else if checked.1 ≠ .success then checked.1
      else if steps.certificate ≠ .success then steps.certificate
      else steps.validation := by
  unfold headerUrls at hstrings
  unfold uploadResponseFile uploadUrls headerUrls
  obtain ⟨⟨urls, complete⟩, hurls⟩ : ∃ p, urlPrefix
      (jsonArrayElems (jsonObjectGetArray (some header) "ieSetsId")) = p := ⟨_, rfl⟩
  rw [hurls] at hstrings ⊢
  dsimp only at hstrings ⊢
  rw [Prog.bind_apply, getCtx_bind, if_neg (by simp [hstrings]), Prog.ite_apply]
  have hlist : (appendVsidUrls urls w).2.ctx.vsidUrlList = w.ctx.vsidUrlList ++ urls := rfl
  rw [hlist]
  by_cases hnone : w.ctx.vsidUrlList ++ urls = []
  · rw [if_pos hnone, if_pos hnone]
    rfl
  rw [if_neg hnone, if_neg hnone, Prog.bind_apply, Prog.ite_apply]
  by_cases hmeta : (metadataStep out fipsValidation (appendVsidUrls urls w).2).1 = .success
  · rw [if_neg (not_not.mpr hmeta), if_neg (not_not.mpr hmeta), Prog.bind_apply,
      finishUpload_eq_steps]
  · rw [if_pos hmeta, if_pos hmeta]
    rfl

/-- A file whose header is read is uploaded from there. -/
theorem uploadVectorsFromFile_of_reads {rspFilename : Option String} {fipsValidation : Bool}
    {w : World} {rsp : String} {header : JsonObject} {url jwt : String}
    (h : UploadReads rspFilename w rsp header url jwt) :
    (uploadVectorsFromFile out rspFilename fipsValidation w).1 =
      if uploadUrls header w = [] then .success
      else if (metadataStep out fipsValidation (uploadRead header url jwt w)).1 ≠ .success then
        (metadataStep out fipsValidation (uploadRead header url jwt w)).1
      else if (stepsOf out fipsValidation w rsp header url jwt).certificate ≠ .success then
        (stepsOf out fipsValidation w rsp header url jwt).certificate
      else (stepsOf out fipsValidation w rsp header url jwt).validation := by
  have hheader := h.hasHeader
  unfold fileElems at hheader
  rw [h.name, uploadVectorsFromFile, Prog.read_bind_apply]
  dsimp only
  rw [if_neg (not_lt.mpr h.short), hheader]
  dsimp only
  rw [h.hasUrl]
  dsimp only
  rw [Prog.bind_apply, h.hasJwt]
  dsimp only
  rw [Prog.bind_apply]
  have hlist : uploadUrls header (readTokenAndSample header jwt (setSessionUrl url w).2).2 =
      uploadUrls header w := rfl
  rw [uploadResponseFile_result h.strings, hlist]
  unfold stepsOf uploadReady uploadRead fileElems
  rfl

/-- Any other file is an error. -/
theorem uploadVectorsFromFile_of_not_reads {rspFilename : Option String} {fipsValidation : Bool}
    {w : World} (h : ∀ rsp header url jwt, ¬UploadReads rspFilename w rsp header url jwt) :
    (uploadVectorsFromFile out rspFilename fipsValidation w).1 ≠ .success := by
  rw [uploadVectorsFromFile, Prog.read_bind_apply]
  cases rspFilename with
  | none => simp
  | some rsp =>
      dsimp only
      by_cases hname : amvpJsonFilenameMax < rsp.length
      · rw [if_pos hname]
        simp
      rw [if_neg hname]
      cases hheader : jsonArrayGetObject (some (fileElems rsp w)) 0 with
      | none =>
          unfold fileElems at hheader
          rw [hheader]
          simp
      | some header =>
          have hheader' := hheader
          unfold fileElems at hheader'
          rw [hheader']
          dsimp only
          cases hurl : jsonObjectGetString (some header) "url" with
          | none => simp
          | some url =>
              dsimp only
              rw [Prog.bind_apply]
              cases hjwt : jsonObjectGetString (some header) "jwt" with
              | none => exact fun hbad => by cases hbad
              | some jwt =>
                  dsimp only
                  rw [Prog.bind_apply]
                  cases hstrings : (headerUrls "ieSetsId" header).2 with
                  | true =>
                      exact absurd ⟨rfl, not_lt.mp hname, hheader, hurl, hjwt, hstrings⟩
                        (h rsp header url jwt)
                  | false =>
                      unfold headerUrls at hstrings
                      unfold uploadResponseFile
                      obtain ⟨⟨urls, complete⟩, hurls⟩ : ∃ p, urlPrefix
                          (jsonArrayElems (jsonObjectGetArray (some header) "ieSetsId")) = p :=
                        ⟨_, rfl⟩
                      rw [hurls] at hstrings ⊢
                      dsimp only at hstrings ⊢
                      rw [Prog.bind_apply, getCtx_bind, if_pos hstrings]
                      simp

/-! ## What a success of an upload should mean -/

/-- The URLs in the header of a response file. -/
def ieSetsIds (header : JsonObject) : List Json :=
  jsonArrayElems (jsonObjectGetArray (some header) "ieSetsId")

/-- Every URL of the header had its response object submitted successfully, and the check
succeeded. -/
structure Uploaded (header : JsonObject) (elems : List Json) (steps : UploadSteps) : Prop where
  urls : steps.submissions.map (fun s => Json.str s.url) = ieSetsIds header
  responses : ∀ k s, steps.submissions[k]? = some s →
    ∃ obj, elems[k + 1]? = some (.obj obj) ∧ s.response = some (.obj obj)
  accepted : ∀ s ∈ steps.submissions, s.rv = .success
  checked : steps.check = .success

variable (out)

/-- An upload that succeeds came to the submissions and has uploaded everything. -/
def UploadHonest (rspFilename : Option String) (fipsValidation : Bool) (w : World) : Prop :=
  (uploadVectorsFromFile out rspFilename fipsValidation w).1 = .success →
    ∃ rsp header url jwt, UploadReaches out rspFilename fipsValidation w rsp header url jwt ∧
      Uploaded header (fileElems rsp w) (stepsOf out fipsValidation w rsp header url jwt)

variable {out}

theorem urlPrefix_length {urls : List Json} (h : (urlPrefix urls).2 = true) :
    (urlPrefix urls).1.length = urls.length := by
  induction urls with
  | nil => rfl
  | cons url urls ih =>
      cases url with
      | str s =>
          rw [urlPrefix] at h ⊢
          simp [ih h]
      | null | bool | num | arr | obj => simp [urlPrefix] at h

theorem stepsOf_submissions (fipsValidation : Bool) (w : World) (rsp : String)
    (header : JsonObject) (url jwt : String) :
    (stepsOf out fipsValidation w rsp header url jwt).submissions =
      (uploadSubmissions out (fileElems rsp w) (uploadUrls header w) 1
        (uploadReady out header url jwt fipsValidation w)).1 := by
  unfold stepsOf uploadSteps
  rw [Prog.bind_apply, Prog.bind_apply, Prog.bind_apply, Prog.ite_apply]
  split <;> rfl

theorem stepsOf_sent (fipsValidation : Bool) (w : World) (rsp : String) (header : JsonObject)
    (url jwt : String) :
    ((stepsOf out fipsValidation w rsp header url jwt).submissions.map
      fun s => (s.url, s.response)) =
      ((uploadUrls header w).zipIdx 1).map fun x => (x.1, (fileElems rsp w)[x.2]?) := by
  rw [stepsOf_submissions, uploadSubmissions_sent]

theorem stepsOf_urls (fipsValidation : Bool) (w : World) (rsp : String) (header : JsonObject)
    (url jwt : String) :
    ((stepsOf out fipsValidation w rsp header url jwt).submissions.map fun s => s.url) =
      uploadUrls header w := by
  have hsent := congrArg (List.map Prod.fst) (@stepsOf_sent out fipsValidation w rsp header url jwt)
  rw [List.map_map, List.map_map] at hsent
  exact hsent.trans (List.zipIdx_map_fst 1 (uploadUrls header w))

theorem stepsOf_response {fipsValidation : Bool} {w : World} {rsp : String} {header : JsonObject}
    {url jwt : String} {k : Nat} {s : Submission}
    (h : (stepsOf out fipsValidation w rsp header url jwt).submissions[k]? = some s) :
    s.response = (fileElems rsp w)[k + 1]? := by
  have hsent := @stepsOf_sent out fipsValidation w rsp header url jwt
  have hat := congrArg (fun l => l[k]?) hsent
  rw [List.getElem?_map, List.getElem?_map, h, List.getElem?_zipIdx] at hat
  cases hurl : (uploadUrls header w)[k]? with
  | none =>
      rw [hurl] at hat
      cases hat
  | some u =>
      rw [hurl] at hat
      have hpair := Option.some.inj hat
      have hresponse := congrArg Prod.snd hpair
      dsimp only at hresponse
      rw [hresponse, Nat.add_comm]

theorem jsonArrayGetObject_ne_none_iff (elems : List Json) (n : Nat) :
    jsonArrayGetObject (some elems) n ≠ none ↔ ∃ obj, elems[n]? = some (.obj obj) := by
  unfold jsonArrayGetObject jsonArrayGetValue
  rw [Option.bind_some]
  cases elems[n]? with
  | none => simp [jsonValueGetObject]
  | some e => cases e <;> simp [jsonValueGetObject]

/-- The submissions go to the URLs of the header if and only if the context had none and each
of them fits. -/
theorem stepsOf_urls_iff {fipsValidation : Bool} {w : World} {rsp : String} {header : JsonObject}
    {url jwt : String} (hstrings : (headerUrls "ieSetsId" header).2 = true) :
    ((stepsOf out fipsValidation w rsp header url jwt).submissions.map fun s => Json.str s.url) =
        ieSetsIds header ↔
      w.ctx.vsidUrlList = [] ∧ ∀ u ∈ ieSetsIds header, FitsUrl u := by
  have hmap : ((stepsOf out fipsValidation w rsp header url jwt).submissions.map
      fun s => Json.str s.url) = (uploadUrls header w).map Json.str := by
    rw [← @stepsOf_urls out fipsValidation w rsp header url jwt, List.map_map]
    rfl
  have hlength : (headerUrls "ieSetsId" header).1.length = (ieSetsIds header).length :=
    urlPrefix_length hstrings
  have hfits := urlPrefix_eq_iff (ieSetsIds header)
  change (headerUrls "ieSetsId" header).1.map Json.str = ieSetsIds header ↔ _ at hfits
  rw [hmap]
  unfold uploadUrls
  constructor
  · intro hurls
    have hcount := congrArg List.length hurls
    rw [List.length_map, List.length_append] at hcount
    have hnone : w.ctx.vsidUrlList = [] := List.length_eq_zero_iff.mp (by omega)
    rw [hnone, List.nil_append] at hurls
    exact ⟨hnone, hfits.mp hurls⟩
  · rintro ⟨hnone, hall⟩
    rw [hnone, List.nil_append]
    exact hfits.mpr hall

/-- When everything is uploaded, in terms of the file, the context and the results. -/
theorem uploaded_iff {fipsValidation : Bool} {w : World} {rsp : String} {header : JsonObject}
    {url jwt : String} (hstrings : (headerUrls "ieSetsId" header).2 = true) :
    Uploaded header (fileElems rsp w) (stepsOf out fipsValidation w rsp header url jwt) ↔
      (w.ctx.vsidUrlList = [] ∧ ∀ u ∈ ieSetsIds header, FitsUrl u) ∧
      (∀ k < (ieSetsIds header).length,
        jsonArrayGetObject (some (fileElems rsp w)) (k + 1) ≠ none) ∧
      (∀ s ∈ (stepsOf out fipsValidation w rsp header url jwt).submissions, s.rv = .success) ∧
      (stepsOf out fipsValidation w rsp header url jwt).check = .success := by
  have hurls := @stepsOf_urls_iff out fipsValidation w rsp header url jwt hstrings
  -- the positions of the header and of the submissions are the same
  have hcount : ((stepsOf out fipsValidation w rsp header url jwt).submissions.map
      fun s => Json.str s.url) = ieSetsIds header →
      (stepsOf out fipsValidation w rsp header url jwt).submissions.length =
        (ieSetsIds header).length := by
    intro heq
    rw [← heq, List.length_map]
  constructor
  · intro h
    refine ⟨hurls.mp h.urls, fun k hk => ?_, h.accepted, h.checked⟩
    rw [← hcount h.urls] at hk
    obtain ⟨obj, hobj, -⟩ := h.responses k _ (List.getElem?_eq_getElem hk)
    exact (jsonArrayGetObject_ne_none_iff _ _).mpr ⟨obj, hobj⟩
  · rintro ⟨hfits, hobjects, haccepted, hchecked⟩
    have heq := hurls.mpr hfits
    refine ⟨heq, fun k s hs => ?_, haccepted, hchecked⟩
    have hk : k < (ieSetsIds header).length := by
      rw [← hcount heq]
      exact (List.getElem?_eq_some_iff.mp hs).1
    obtain ⟨obj, hobj⟩ := (jsonArrayGetObject_ne_none_iff _ _).mp (hobjects k hk)
    exact ⟨obj, hobj, (stepsOf_response hs).trans hobj⟩

/-- When an upload succeeds whose file can be read. -/
theorem uploadVectorsFromFile_success_iff {rspFilename : Option String} {fipsValidation : Bool}
    {w : World} {rsp : String} {header : JsonObject} {url jwt : String}
    (h : UploadReads rspFilename w rsp header url jwt) :
    (uploadVectorsFromFile out rspFilename fipsValidation w).1 = .success ↔
      uploadUrls header w = [] ∨
      UploadReaches out rspFilename fipsValidation w rsp header url jwt ∧
        (stepsOf out fipsValidation w rsp header url jwt).certificate = .success ∧
        (stepsOf out fipsValidation w rsp header url jwt).validation = .success := by
  rw [uploadVectorsFromFile_of_reads h]
  by_cases hnone : uploadUrls header w = []
  · rw [if_pos hnone]
    exact iff_of_true rfl (.inl hnone)
  rw [if_neg hnone]
  by_cases hmeta : (metadataStep out fipsValidation (uploadRead header url jwt w)).1 = .success
  swap
  · rw [if_pos hmeta]
    refine iff_of_false hmeta ?_
    rintro (hempty | ⟨hreaches, -⟩)
    · exact hnone hempty
    · exact hmeta hreaches.2.2
  rw [if_neg (not_not.mpr hmeta)]
  have hreaches : UploadReaches out rspFilename fipsValidation w rsp header url jwt :=
    ⟨h, hnone, hmeta⟩
  by_cases hcert : (stepsOf out fipsValidation w rsp header url jwt).certificate = .success
  · rw [if_neg (not_not.mpr hcert)]
    simp only [hnone, hreaches, hcert, true_and, false_or]
  · rw [if_pos hcert]
    simp only [hnone, hcert, false_and, and_false, or_false]

/-! ## What the server has to reply -/

variable (out)

/-- The events of each submission of an upload: its requests and the replies to them. -/
def submissionReplies (elems : List Json) : List String → Nat → World → List (List Event)
  | [], _, _ => []
  | url :: urls, n, w =>
    let vsId := toInt (jsonObjectGetNumber (jsonArrayGetObject (some elems) n) "vsId")
    let ready := { w with ctx := { w.ctx with vsId := vsId, katResp := some (singleton elems[n]?) } }
    let sent := (submitVectorResponses out url ready).2
    EventLog.since ready.log sent.log ::
      submissionReplies elems urls (n + 1) { sent with ctx := { sent.ctx with katResp := none } }

/-- The file has a response for each of the URLs of its header, all of which fit, the context had
no URL before, and the server takes every response. -/
structure UploadAnswered (fipsValidation : Bool) (w : World) (rsp : String) (header : JsonObject)
    (url jwt : String) : Prop where
  fresh : w.ctx.vsidUrlList = []
  nonempty : ieSetsIds header ≠ []
  fit : ∀ u ∈ ieSetsIds header, FitsUrl u
  responses : ∀ k < (ieSetsIds header).length,
    jsonArrayGetObject (some (fileElems rsp w)) (k + 1) ≠ none
  taken : ∀ evs ∈ submissionReplies out (fileElems rsp w) (uploadUrls header w) 1
    (uploadReady out header url jwt fipsValidation w), Answered evs

/-- The state after the submissions. -/
def uploadSent (fipsValidation : Bool) (w : World) (rsp : String) (header : JsonObject)
    (url jwt : String) : World :=
  (uploadResponses out (fileElems rsp w) (uploadUrls header w) 1
    (uploadReady out header url jwt fipsValidation w)).2

/-- The file is read, its responses are taken, and the check that follows is complete. -/
def UploadConfirmed (rspFilename : Option String) (fipsValidation : Bool) (w : World) : Prop :=
  ∃ rsp header url jwt, UploadReads rspFilename w rsp header url jwt ∧
    UploadAnswered out fipsValidation w rsp header url jwt ∧
    CheckComplete out (uploadSent out fipsValidation w rsp header url jwt)

/-- The documents of a session are sent, and the answer has an object. -/
def DocsArrive (w : World) : Prop :=
  Answered (EventLog.since w.log (retrieveDocs out w.ctx.sessionUrl w).2.log) ∧
    getObjFromRsp (retrieveDocs out w.ctx.sessionUrl w).2.ctx.curlBuf ≠ none

/-- The answer to a validation has a status and the URL of the request, and when the session info
file can be given that URL, it is written. -/
def ValidationNoted (w : World) : Prop :=
  ∃ url, jsonObjectGetString (getObjFromRsp w.ctx.curlBuf) "url" = some url ∧
    jsonObjectGetString (getObjFromRsp w.ctx.curlBuf) "status" ≠ none ∧
    ∀ ts, withValidationUrl (jsonParseFile w.ctx.sessionFilePath w) url = some ts →
      ∃ file, w.ctx.sessionFilePath = some file ∧ out.writable file = true

/-- A validation is taken by the server, and noted. -/
def ValidationTaken (validation : Option Json) (w : World) : Prop :=
  Answered (EventLog.since w.log (transportPutValidation out validation w).2.log) ∧
    ValidationNoted out (transportPutValidation out validation w).2

/-- The certificate request is taken: the documents arrive, and where one was asked for, its
validation is taken. -/
def CertReqTaken (w : World) : Prop :=
  DocsArrive out w ∧
    ((retrieveDocs out w.ctx.sessionUrl w).2.ctx.modCertReq = true →
      ValidationTaken out (some certValidation) (retrieveDocs out w.ctx.sessionUrl w).2)

/-- The validation of a session is taken, when it is wanted and the session is marked as passed. -/
def ValidateStepTaken (fipsValidation : Bool) (w : World) : Prop :=
  fipsValidation = true → w.ctx.sessionPassed = true →
    (out.buildValidation w.ctx).1 = .success ∧ ValidationTaken out (out.buildValidation w.ctx).2 w

/-- The file is read, and one of the requests after the check is not taken. -/
def UploadRefused (rspFilename : Option String) (fipsValidation : Bool) (w : World) : Prop :=
  ∃ rsp header url jwt, UploadReads rspFilename w rsp header url jwt ∧
    uploadUrls header w ≠ [] ∧
    let checked := (checkTestResults out (uploadSent out fipsValidation w rsp header url jwt)).2
    ¬(CertReqTaken out checked ∧ ValidateStepTaken out fipsValidation (certReq out checked).2)

variable {out}

/-- A submission succeeds just when its last reply is a good one. -/
theorem submitVectorResponses_success_iff (url : String) (w : World) :
    (submitVectorResponses out url w).1 = .success ↔
      Answered (EventLog.since w.log (submitVectorResponses out url w).2.log) := by
  rw [submitVectorResponses, getCtx_bind, mark_bind]
  obtain ⟨evs, hlog, hanswered⟩ := @sendTo_success_iff out (amvpAttrUrlMax - 1) .vectorResponses
    (by simp) .postVsResp (by decide) (some url) "/results" none
    { w with log := w.log ++ [.submit url w.ctx.katResp] }
  rw [hlog, hanswered, List.append_assoc, EventLog.since_append]
  rfl

/-- Which submissions succeed is decided by the replies to each. -/
theorem uploadSubmissions_success_iff (elems : List Json) (urls : List String) (n : Nat)
    (w : World) :
    (∀ s ∈ (uploadSubmissions out elems urls n w).1, s.rv = .success) ↔
      ∀ evs ∈ submissionReplies out elems urls n w, Answered evs := by
  induction urls generalizing n w with
  | nil => exact iff_of_true (by simp [uploadSubmissions]) (by simp [submissionReplies])
  | cons url urls ih =>
      rw [submissionReplies, List.forall_mem_cons, ← submitVectorResponses_success_iff, ← ih]
      exact List.forall_mem_cons

/-- A validation is sent successfully just when the last reply to it is a good one. -/
theorem transportPutValidation_success_iff (validation : Option Json) (w : World) :
    (transportPutValidation out validation w).1 = .success ↔
      Answered (EventLog.since w.log (transportPutValidation out validation w).2.log) := by
  rw [transportPutValidation, Prog.ite_apply]
  by_cases hnone : validation = none
  · rw [if_pos hnone]
    refine iff_of_false (by rintro ⟨⟩) fun h => h.ne_nil ?_
    rw [Prog.pure_apply, EventLog.since_self]
    rfl
  · rw [if_neg hnone, getCtx_bind]
    obtain ⟨evs, hlog, hanswered⟩ := @sendTo_success_iff out (amvpAttrUrlMax - 1) .putValidation
      (by simp) .putValidation (by decide) w.ctx.sessionUrl "" validation w
    rw [hlog, hanswered, EventLog.since_append]

/-- When the answer to a validation is read successfully. -/
theorem parseValidation_success_iff (w : World) :
    (parseValidation out w).1 = .success ↔ ValidationNoted out w := by
  unfold ValidationNoted
  rw [parseValidation, Prog.read_bind_apply]
  cases hurl : jsonObjectGetString (getObjFromRsp w.ctx.curlBuf) "url" with
  | none => simp
  | some url =>
      dsimp only
      cases hstatus : jsonObjectGetString (getObjFromRsp w.ctx.curlBuf) "status" with
      | none => simp
      | some status =>
          rw [if_neg (by simp)]
          cases hts : withValidationUrl (jsonParseFile w.ctx.sessionFilePath w) url with
          | none => simp [hts]
          | some ts =>
              dsimp only
              rw [Prog.bind_apply]
              cases hpath : w.ctx.sessionFilePath with
              | none =>
                  refine iff_of_false (by rintro ⟨⟩) ?_
                  rintro ⟨_, ⟨⟩, -, hwrites⟩
                  obtain ⟨_, hbad, -⟩ := hwrites ts (hpath ▸ hts)
                  cases hbad
              | some file =>
                  rw [jsonSerializeToFilePrettyW, Prog.ite_apply]
                  by_cases hwritable : out.writable file = true
                  · rw [if_pos hwritable]
                    exact iff_of_true rfl ⟨url, rfl, by simp, fun _ _ => ⟨file, rfl, hwritable⟩⟩
                  · rw [if_neg hwritable]
                    refine iff_of_false (by rintro ⟨⟩) ?_
                    rintro ⟨_, ⟨⟩, -, hwrites⟩
                    obtain ⟨_, ⟨⟩, hbad⟩ := hwrites ts (hpath ▸ hts)
                    exact hwritable hbad

/-- A validation succeeds when it is sent and its answer is read. -/
theorem putAndParse_success_iff (validation : Option Json) (w : World) :
    ((do
      let rv ← transportPutValidation out validation
      if rv ≠ .success then return rv else parseValidation out : Session AmvpResult) w).1 =
      .success ↔ ValidationTaken out validation w := by
  rw [Prog.bind_apply, Prog.ite_apply, ValidationTaken, ← transportPutValidation_success_iff]
  by_cases hput : (transportPutValidation out validation w).1 = .success
  · rw [if_neg (not_not.mpr hput), parseValidation_success_iff, and_iff_right hput]
  · rw [if_pos hput]
    exact iff_of_false hput fun h => hput h.1

/-- When a certificate request succeeds. -/
theorem certReq_success_iff (w : World) :
    (certReq out w).1 = .success ↔ CertReqTaken out w := by
  obtain ⟨evs, hlog, hanswered⟩ := @sendTo_success_iff out (amvpAttrUrlMax - 1) .docs (by simp)
    .getDocs (by decide) w.ctx.sessionUrl "/docs" none w
  have hdocs : (retrieveDocs out w.ctx.sessionUrl w).1 = .success ↔
      Answered (EventLog.since w.log (retrieveDocs out w.ctx.sessionUrl w).2.log) := by
    rw [retrieveDocs, hlog, hanswered, EventLog.since_append]
  rw [certReq, getCtx_bind, CertReqTaken, DocsArrive, ← hdocs, Prog.bind_apply, Prog.ite_apply]
  generalize retrieveDocs out w.ctx.sessionUrl w = r
  obtain ⟨rv, w₁⟩ := r
  dsimp only
  by_cases hrv : rv = .success
  swap
  · rw [if_pos hrv]
    exact iff_of_false hrv fun h => hrv h.1.1
  rw [if_neg (not_not.mpr hrv), getCtx_bind, Prog.ite_apply, Prog.ite_apply, Prog.ite_apply]
  by_cases hobj : getObjFromRsp w₁.ctx.curlBuf = none
  · refine iff_of_false ?_ fun h => h.1.2 hobj
    split_ifs <;> rintro ⟨⟩
  rw [if_neg fun hnone => hobj (by rw [hnone]; rfl), if_neg hobj, and_iff_right ⟨hrv, hobj⟩]
  by_cases hmod : w₁.ctx.modCertReq = true
  · rw [if_pos hmod, putAndParse_success_iff, forall_prop_of_true hmod]
  · rw [if_neg hmod]
    exact iff_of_true hrv fun hbad => absurd hbad hmod

/-- When the validation of a session succeeds. -/
theorem validateStep_success_iff (fipsValidation : Bool) (w : World) :
    (validateStep out fipsValidation w).1 = .success ↔ ValidateStepTaken out fipsValidation w := by
  unfold ValidateStepTaken
  cases fipsValidation with
  | false => exact iff_of_true rfl (by rintro ⟨⟩)
  | true =>
      rw [validateStep, if_pos rfl, validateTestSession, getCtx_bind, Prog.ite_apply]
      cases hpassed : w.ctx.sessionPassed with
      | false => exact iff_of_true rfl (by rintro - ⟨⟩)
      | true =>
          rw [if_neg (by decide)]
          dsimp only
          rw [Prog.ite_apply]
          by_cases hbuilt : (out.buildValidation w.ctx).1 = .success
          · rw [if_neg (not_not.mpr hbuilt), putAndParse_success_iff]
            simp only [true_implies, hbuilt, true_and]
          · rw [if_pos hbuilt]
            exact iff_of_false hbuilt fun h => hbuilt (h rfl rfl).1

theorem stepsOf_check (fipsValidation : Bool) (w : World) (rsp : String) (header : JsonObject)
    (url jwt : String) :
    (stepsOf out fipsValidation w rsp header url jwt).check =
      (checkTestResults out (uploadSent out fipsValidation w rsp header url jwt)).1 := by
  unfold stepsOf uploadSteps uploadSent
  rw [Prog.bind_apply, Prog.bind_apply, Prog.bind_apply, Prog.ite_apply,
    uploadResponses_eq_submissions]
  split <;> rfl

/-- The header of a file that is read lists strings only, so that it has none just when there is
no URL. -/
theorem ieSetsIds_eq_nil_iff {header : JsonObject} (hstrings : (headerUrls "ieSetsId" header).2) :
    ieSetsIds header = [] ↔ (headerUrls "ieSetsId" header).1 = [] := by
  have hlength : (headerUrls "ieSetsId" header).1.length = (ieSetsIds header).length :=
    urlPrefix_length hstrings
  rw [← List.length_eq_zero_iff, ← List.length_eq_zero_iff, hlength]

/-- Everything is uploaded just when the responses are taken and the check succeeds. -/
theorem uploaded_iff_answered {fipsValidation : Bool} {w : World} {rsp : String}
    {header : JsonObject} {url jwt : String} (hstrings : (headerUrls "ieSetsId" header).2 = true)
    (hsome : uploadUrls header w ≠ []) :
    Uploaded header (fileElems rsp w) (stepsOf out fipsValidation w rsp header url jwt) ↔
      UploadAnswered out fipsValidation w rsp header url jwt ∧
        (checkTestResults out (uploadSent out fipsValidation w rsp header url jwt)).1 =
          .success := by
  rw [uploaded_iff hstrings, stepsOf_submissions, uploadSubmissions_success_iff, stepsOf_check]
  constructor
  · rintro ⟨⟨hfresh, hfit⟩, hresponses, htaken, hcheck⟩
    refine ⟨⟨hfresh, fun hnone => hsome ?_, hfit, hresponses, htaken⟩, hcheck⟩
    rw [uploadUrls, hfresh, (ieSetsIds_eq_nil_iff hstrings).mp hnone]
    rfl
  · rintro ⟨⟨hfresh, -, hfit, hresponses, htaken⟩, hcheck⟩
    exact ⟨⟨hfresh, hfit⟩, hresponses, htaken, hcheck⟩

variable (out)

/-- The upload ends before it submits anything: the file is not read, or the metadata is not
verified. -/
def UploadStops (rspFilename : Option String) (fipsValidation : Bool) (w : World) : Prop :=
  ∀ rsp header url jwt, UploadReads rspFilename w rsp header url jwt →
    uploadUrls header w ≠ [] ∧
      (metadataStep out fipsValidation (uploadRead header url jwt w)).1 ≠ .success

/-- The steps after the check succeed just when their requests are taken. -/
theorem stepsOf_closed_iff (fipsValidation : Bool) (w : World) (rsp : String)
    (header : JsonObject) (url jwt : String) :
    (stepsOf out fipsValidation w rsp header url jwt).certificate = .success ∧
        (stepsOf out fipsValidation w rsp header url jwt).validation = .success ↔
      let checked := (checkTestResults out (uploadSent out fipsValidation w rsp header url jwt)).2
      CertReqTaken out checked ∧ ValidateStepTaken out fipsValidation (certReq out checked).2 := by
  dsimp only
  rw [← certReq_success_iff, ← validateStep_success_iff]
  unfold stepsOf uploadSteps uploadSent
  rw [uploadResponses_eq_submissions, Prog.bind_apply, Prog.bind_apply, Prog.bind_apply,
    Prog.ite_apply]
  split
  · next hcert => exact iff_of_false (fun h => hcert h.1) fun h => hcert h.1
  · next hcert => exact Iff.rfl

/-- A success of an upload means that everything was uploaded just when the file is not read or
not verified, when the server takes a response for each of its URLs and the check is complete, or
when a request after the check is not taken. -/
theorem uploadVectorsFromFile_honest_iff (rspFilename : Option String) (fipsValidation : Bool)
    (w : World) :
    UploadHonest out rspFilename fipsValidation w ↔
      UploadStops out rspFilename fipsValidation w ∨
      UploadConfirmed out rspFilename fipsValidation w ∨
      UploadRefused out rspFilename fipsValidation w := by
  by_cases hreads : ∃ rsp header url jwt, UploadReads rspFilename w rsp header url jwt
  swap
  · -- a file that is not read is an error
    have hnot : ∀ rsp header url jwt, ¬UploadReads rspFilename w rsp header url jwt :=
      fun rsp header url jwt h => hreads ⟨rsp, header, url, jwt, h⟩
    refine iff_of_true (fun hsuccess => ?_) (.inl fun rsp header url jwt h => ?_)
    · exact absurd hsuccess (uploadVectorsFromFile_of_not_reads hnot)
    · exact absurd h (hnot rsp header url jwt)
  obtain ⟨rsp, header, url, jwt, hreads⟩ := hreads
  have honly : ∀ P : String → JsonObject → String → String → Prop,
      (∃ rsp' header' url' jwt', UploadReads rspFilename w rsp' header' url' jwt' ∧
        P rsp' header' url' jwt') ↔ P rsp header url jwt := by
    intro P
    constructor
    · rintro ⟨_, _, _, _, hreads', hP⟩
      obtain ⟨rfl, rfl, rfl, rfl⟩ := hreads.unique hreads'
      exact hP
    · exact fun hP => ⟨rsp, header, url, jwt, hreads, hP⟩
  have hstops : UploadStops out rspFilename fipsValidation w ↔
      uploadUrls header w ≠ [] ∧
        (metadataStep out fipsValidation (uploadRead header url jwt w)).1 ≠ .success := by
    constructor
    · exact fun h => h rsp header url jwt hreads
    · intro h _ _ _ _ hreads'
      obtain ⟨rfl, rfl, rfl, rfl⟩ := hreads.unique hreads'
      exact h
  have huploaded : (∃ rsp' header' url' jwt',
      UploadReaches out rspFilename fipsValidation w rsp' header' url' jwt' ∧
        Uploaded header' (fileElems rsp' w) (stepsOf out fipsValidation w rsp' header' url' jwt')) ↔
      (uploadUrls header w ≠ [] ∧
        (metadataStep out fipsValidation (uploadRead header url jwt w)).1 = .success) ∧
        Uploaded header (fileElems rsp w) (stepsOf out fipsValidation w rsp header url jwt) := by
    simp only [UploadReaches, and_assoc, honly]
  have hconfirmed : UploadConfirmed out rspFilename fipsValidation w ↔
      UploadAnswered out fipsValidation w rsp header url jwt ∧
        CheckComplete out (uploadSent out fipsValidation w rsp header url jwt) := honly _
  have hrefused : UploadRefused out rspFilename fipsValidation w ↔ uploadUrls header w ≠ [] ∧ _ :=
    honly _
  unfold UploadHonest
  rw [uploadVectorsFromFile_success_iff hreads, huploaded, hstops, hconfirmed, hrefused,
    stepsOf_closed_iff]
  by_cases hnone : uploadUrls header w = []
  · -- without URLs there is nothing to upload
    refine iff_of_false (fun h => (h (.inl hnone)).1.1 hnone) ?_
    rintro (h | h | h)
    · exact h.1 hnone
    · exact h.1.nonempty
        ((ieSetsIds_eq_nil_iff hreads.strings).mpr (List.append_eq_nil_iff.mp hnone).2)
    · exact h.1 hnone
  by_cases hmeta : (metadataStep out fipsValidation (uploadRead header url jwt w)).1 = .success
  swap
  · refine iff_of_true ?_ (.inl ⟨hnone, hmeta⟩)
    rintro (hbad | hbad)
    · exact absurd hbad hnone
    · exact absurd hbad.1.2.2 hmeta
  -- the upload comes to its last steps
  have hreaches : UploadReaches out rspFilename fipsValidation w rsp header url jwt :=
    ⟨hreads, hnone, hmeta⟩
  rw [uploaded_iff_answered hreads.strings hnone, checkTestResults_success_iff]
  simp only [hnone, hmeta, hreaches, ne_eq, not_true_eq_false, not_false_eq_true, true_and,
    false_or, and_false]
  rw [imp_iff_or_not]

end Upload

/-! ## Uploads of one response -/

/-- A server that answers every request with a passed session. -/
def acceptingServer : List Event → Request → Reply := fun _ _ =>
  ⟨200, some (.arr [.obj [("passed", .bool true), ("results", .arr [])]])⟩

/-- A server that accepts no responses, but answers otherwise. -/
def refusingServer : List Event → Request → Reply := fun _ req =>
  match req.api with
  | .vectorResponses _ => ⟨400, none⟩
  | _ => ⟨200, some (.arr [.obj [("passed", .bool false), ("results", .arr [])]])⟩

/-- A response file with one response. -/
def responseWorld : World :=
  { World.start with
    files := fun f => if f = "rsp.json" then some (Json.tokens (.arr [
      .obj [("url", .str "/testSessions/1"), ("jwt", .str "token"),
        ("ieSetsId", .arr [.str "/vs/1"])],
      .obj [("vsId", .num 1)]])) else none }

theorem uploadVectorsFromFile_honest_accepted :
    UploadHonest (.plain acceptingServer) (some "rsp.json") false responseWorld := by
  refine (uploadVectorsFromFile_honest_iff (.plain acceptingServer) (some "rsp.json") false
    responseWorld).mpr (.inr (.inl ⟨"rsp.json", [("url", .str "/testSessions/1"), ("jwt", .str "token"),
      ("ieSetsId", .arr [.str "/vs/1"])], "/testSessions/1", "token",
      ⟨rfl, by decide, rfl, rfl, rfl, rfl⟩, ⟨rfl, nofun, ?_, ?_, ?_⟩, ?_⟩))
  · exact List.forall_mem_singleton.mpr ⟨_, rfl, by decide⟩
  · rintro k hk
    obtain rfl : k = 0 := Nat.lt_one_iff.mp hk
    nofun
  · exact List.forall_mem_singleton.mpr ⟨_, rfl, rfl⟩
  · exact ⟨[], _, _, .last rfl, _, rfl, ⟨_, rfl, rfl⟩, .inr ⟨allKnown_nil, .inl rfl⟩⟩

/-- The response is not accepted, and the upload succeeds. -/
theorem uploadVectorsFromFile_masks_refusal :
    (uploadVectorsFromFile (.plain refusingServer) (some "rsp.json") false responseWorld).1 =
      .success ∧
    ¬UploadHonest (.plain refusingServer) (some "rsp.json") false responseWorld := by
  have hsuccess : (uploadVectorsFromFile (.plain refusingServer) (some "rsp.json") false
      responseWorld).1 = .success := by
    rfl
  refine ⟨hsuccess, fun hhonest => ?_⟩
  obtain ⟨rsp, header, url, jwt, hreaches, hall⟩ := hhonest hsuccess
  have hreads : UploadReads (some "rsp.json") responseWorld "rsp.json"
      [("url", .str "/testSessions/1"), ("jwt", .str "token"), ("ieSetsId", .arr [.str "/vs/1"])]
      "/testSessions/1" "token" := ⟨rfl, by decide, rfl, rfl, rfl, rfl⟩
  obtain ⟨rfl, rfl, rfl, rfl⟩ := hreads.unique hreaches.1
  have hsubmissions : (stepsOf (.plain refusingServer) false responseWorld "rsp.json"
      [("url", .str "/testSessions/1"), ("jwt", .str "token"), ("ieSetsId", .arr [.str "/vs/1"])]
      "/testSessions/1" "token").submissions =
      [⟨"/vs/1", some (.obj [("vsId", .num 1)]), .unsupportedOp⟩] := by
    rfl
  have haccepted := hall.accepted
  rw [hsubmissions] at haccepted
  exact absurd (haccepted _ (List.mem_singleton.mpr rfl)) (by decide)

end LibAmvp
