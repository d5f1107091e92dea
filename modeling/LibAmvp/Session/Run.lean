import LibAmvp.Session.Registration

/-!
# A run of the library

The state machine of {lit}`amvp_run`: login, one of the single requests, or a whole
session with its stages.  The stages share one result variable, and the log keeps
the result each stage returned.  Resuming a session and uploading saved responses
go through the later stages of a session again.
-/

namespace LibAmvp

section Run

variable (out : Outside)

/-- Run a stage and note its result. -/
def stage (s : Stage) (m : Session AmvpResult) : Session AmvpResult := do
  let rv ← m
  mark (.stage s rv)
  return rv

/-! ## Single requests -/

/-- The array of one value that is sent; a missing value is not appended. -/
def singleton (value : Option Json) : Json := .arr value.toList

/-- {lit}`amvp_post_data`: POST the second element of a file to the path in its first. -/
def postData (filename : Option String) : Session AmvpResult := do
  let w ← Prog.read
  match filename with
  | none => return .missingArg
  | some f =>
    if amvpJsonFilenameMax < f.length then
      return .invalidArg
    else
      match jsonParseFile (some f) w with
      | none => return .malformedJson
      | some val =>
        let data := jsonValueGetArray (some val)
        match jsonObjectGetString (jsonArrayGetObject data 0) "url" with
        | none => return .success
        | some path => transportPost out (some path) (some (singleton (jsonArrayGetValue data 1)))

/-- POST the first element of an array of the resource file. -/
def postResource (endpoint : String) (resources : List Json) : Session AmvpResult :=
  stage (.postResource endpoint) (transportPost out (some endpoint) resources[0]?)

/-- The object in a resource file. -/
def resourceObject (filename : Option String) (w : World) : Except AmvpResult JsonObject :=
  match filename with
  | none => .error .missingArg
  | some f =>
    if amvpJsonFilenameMax < f.length then .error .invalidArg
    else
      match jsonValueGetObject (jsonParseFile (some f) w) with
      | none => .error .jsonErr
      | some obj => .ok obj

/-- {lit}`amvp_post_resources`: POST a lab, a vendor and a module.  Only a missing array
stops the series, and the result is that of the last POST. -/
def postResources (filename : Option String) : Session AmvpResult := do
  let w ← Prog.read
  match resourceObject filename w with
  | .error rv => return rv
  | .ok obj =>
    match jsonObjectGetArray (some obj) "lab" with
    | none => return .jsonErr
    | some labs =>
      let _ ← postResource out "/amv/v1/labs" labs
      match jsonObjectGetArray (some obj) "vendor" with
      | none => return .jsonErr
      | some vendors =>
        let _ ← postResource out "/amv/v1/vendors" vendors
        match jsonObjectGetArray (some obj) "module" with
        | none => return .jsonErr
        | some modules => postResource out "/amv/v1/modules" modules

/-- {lit}`amvp_put_data_from_ctx`. -/
def putDataFromCtx : Session AmvpResult := do
  let w ← Prog.read
  if amvpJsonFilenameMax < (w.ctx.putFilename.getD "").length then
    return .invalidArg
  else
    match jsonParseFile w.ctx.putFilename w with
    | none => return .malformedJson
    | some val =>
      let data := singleton (jsonArrayGetValue (jsonValueGetArray (some val)) 0)
      let rv ← transportPut out w.ctx.sessionUrl (some data)
      if rv ≠ .success then
        return rv
      else
        parseValidation out

/-- Save the reply to a GET or a DELETE, when a file is named and the reply parses; the
result of the file operations then replaces that of the request. -/
def saveReply (rv : AmvpResult) : Session AmvpResult := do
  let ctx ← getCtx
  match ctx.saveFilename, ctx.curlBuf with
  | some f, some val =>
    let rv ← jsonSerializeToFilePrettyW out (some val) (some f)
    if rv ≠ .success then
      return rv
    else
      jsonSerializeToFilePrettyA out none (some f)
  | _, _ => return rv

/-! ## The session -/

/-- The login, unless the environment turns it off. -/
def loginStage : Session AmvpResult :=
  if out.noLogin then return .success else stage .login (login out false)

/-- Verify the metadata when the session is to be validated. -/
def metadataStage (fipsValidation : Bool) : Session AmvpResult :=
  if fipsValidation then stage .verifyMetadata (verifyFipsValidationMetadata out)
  else return .success

/-- The session info file is written unless data is to be put; a failure is ignored. -/
def sessionInfoStep : Session Unit := do
  if (← getCtx).put then
    return ()
  else
    let _ ← writeSessionInfo out
    return ()

/-- Ask for the validation of the session when it is wanted. -/
def validateStage (fipsValidation : Bool) : Session AmvpResult :=
  if fipsValidation then stage .validate (validateTestSession out) else return .success

/-- What follows the label {lit}`check`. -/
def runCheck (fipsValidation : Bool) : Session AmvpResult := do
  let ctx ← getCtx
  if ctx.vectorReq then
    return .success
  else
    let rv ← stage .checkResults (checkTestResults out)
    if rv ≠ .success then
      return rv
    else
      let ctx ← getCtx
      if ctx.modCertReq then
        stage .certReq (certReq out)
      else
        let rv ← validateStage out fipsValidation
        if rv ≠ .success then
          return rv
        else
          let ctx ← getCtx
          if ctx.put then
            stage .putData (putDataFromCtx out)
          else
            return rv

/-- An algorithm session from its registration on. -/
def runSession (fipsValidation : Bool) : Session AmvpResult := do
  let rv ← metadataStage out fipsValidation
  if rv ≠ .success then
    return .unsupportedOp
  else
    modifyCtx fun ctx => { ctx with doValidation := fipsValidation }
    let rv ← stage .register (register out)
    if rv ≠ .success then
      return rv
    else
      sessionInfoStep out
      let rv ← stage .processTests (processTests out)
      if rv ≠ .success then
        return rv
      else
        runCheck out fipsValidation

/-- What follows the login. -/
def runRequest (fipsValidation : Bool) : Session AmvpResult := do
  let ctx ← getCtx
  if ctx.get then
    let rv ← stage .getRequest (transportGet out ctx.getString)
    saveReply out rv
  else if ctx.post then
    stage .postData (postData out ctx.postFilename)
  else if ctx.postResources then
    postResources out ctx.postResourcesFilename
  else if ctx.modCertReq then
    let _ ← stage .modCertReq (modCertReq out)
    runCheck out fipsValidation
  else if ctx.delete then
    let rv ← stage .deleteRequest (transportDelete out ctx.deleteString)
    saveReply out rv
  else
    runSession out fipsValidation

/-- {lit}`amvp_run`. -/
def run (fipsValidation : Bool) : Session AmvpResult := do
  let rv ← loginStage out
  if rv ≠ .success then
    return rv
  else
    runRequest out fipsValidation

/-! ## Resuming and uploading -/

/-- The loop of {lit}`amvp_resume_test_session` over the results: which sets still have to be
processed. -/
def resumeScan (vectorReq : Bool) : List Json → List String → AmvpResult × List String
  | [], urls => (.success, urls)
  | entry :: entries, urls =>
    let current := jsonValueGetObject (some entry)
    match jsonObjectGetString current "status", jsonObjectGetString current "vectorSetUrl" with
    | some status, some vsidUrl =>
      let url := strcpyS (amvpAttrUrlMax + 1) vsidUrl
      if vectorReq then resumeScan vectorReq entries (urls ++ [url])
      else if status = "expired" then (.invalidArg, urls)
      else if status = "unreceived" then resumeScan vectorReq entries (urls ++ [url])
      else resumeScan vectorReq entries urls
    | _, _ => (.jsonErr, urls)

/-- The validation at the end of a resumed or uploaded session, when it is wanted. -/
def validateStep (fipsValidation : Bool) : Session AmvpResult :=
  if fipsValidation then validateTestSession out else return .success

/-- Process the sets of a resumed session and check its results. -/
def resumeTests (fipsValidation : Bool) : Session AmvpResult := do
  let rv ← processTests out
  if rv ≠ .success then
    return rv
  else
    let ctx ← getCtx
    if ctx.vectorReq then
      return .success
    else
      let rv ← checkTestResults out
      if rv ≠ .success then
        return rv
      else
        let rv ← validateStep out fipsValidation
        if rv ≠ .success then
          return rv
        else
          let ctx ← getCtx
          if ctx.put then
            putDataFromCtx out
          else
            return rv

/-- The metadata check of a resumed or uploaded session. -/
def metadataStep (fipsValidation : Bool) : Session AmvpResult :=
  if fipsValidation then verifyFipsValidationMetadata out else return .success

/-- What follows the results reply of a resumed session. -/
def resumeResults (obj : JsonObject) (fipsValidation : Bool) : Session AmvpResult := do
  let rv ← metadataStep out fipsValidation
  if rv ≠ .success then
    return .unsupportedOp
  else
    modifyCtx fun ctx => { ctx with doValidation := fipsValidation }
    match jsonObjectGetArray (some obj) "results" with
    | none => return .jsonErr
    | some results =>
      let ctx ← getCtx
      let (rv, urls) := resumeScan ctx.vectorReq results []
      appendVsidUrls urls
      if rv ≠ .success then
        return rv
      else
        let ctx ← getCtx
        if ctx.vsidUrlList = [] then
          return .success
        else
          resumeTests out fipsValidation

/-- {lit}`amvp_resume_test_session`. -/
def resumeTestSession (filename : Option String) (fipsValidation : Bool) :
    Session AmvpResult := do
  let rv ← parseSessionInfoFile filename
  if rv ≠ .success then
    return rv
  else
    let rv ← refresh out
    if rv ≠ .success then
      return rv
    else
      let ctx ← getCtx
      let rv ← retrieveVectorSetResult out ctx.sessionUrl
      if rv ≠ .success then
        return rv
      else
        match getObjFromRsp (← getCtx).curlBuf with
        | none => return .jsonErr
        | some obj => resumeResults out obj fipsValidation

end Run

/-! ## Quiet requests -/

variable {out : Outside}

/-- A validation is read inside every frame that ignores the files. -/
theorem keeps_parseValidation {F : Frame World}
    (hstart : ∀ value filename, F.Keeps (jsonSerializeToFilePrettyW out value filename))
    (hmore : ∀ value filename, F.Keeps (jsonSerializeToFilePrettyA out value filename)) :
    F.Keeps (parseValidation out) := by
  refine .bind .read fun w => ?_
  dsimp only
  split
  · exact .pure _
  · refine .ite (.pure _) ?_
    split
    · exact .pure _
    · refine .bind (hstart _ _) fun rv => .ite (.pure _) ?_
      exact .bind (hmore _ _) fun _ => .pure _

theorem quietFrame_parseValidation : quietFrame.Keeps (parseValidation out) :=
  keeps_parseValidation quietFrame_jsonSerializeToFilePrettyW quietFrame_jsonSerializeToFilePrettyA

/-- The queries of the metadata are within a frame that admits what a GET leaves behind. -/
theorem frameOf_askQueries {γ : Type} {keep : Ctx → γ} {P : Event → Prop}
    (hkeep : ∀ ctx jwt buf, keep { ctx with jwtToken := jwt, curlBuf := buf } = keep ctx)
    (hP : ∀ p e, NetEvent (.get p) e → P e) (q : Queries) :
    (frameOf keep P).Keeps (askQueries out q) := by
  induction q with
  | done rv => exact .pure _
  | ask url next ih =>
      exact .bind (frameOf_sendTo hkeep _ hP _ _ _ _) fun rv =>
        .bind frameOf_getCtx fun ctx => ih _ _

theorem quietFrame_verifyFipsValidationMetadata :
    quietFrame.Keeps (verifyFipsValidationMetadata out) :=
  .bind frameOf_getCtx fun _ =>
    frameOf_askQueries (fun _ _ _ => rfl) (fun _ _ => NetEvent.quiet (by simp)) _

theorem quietFrame_postData (filename : Option String) :
    quietFrame.Keeps (postData out filename) := by
  refine .bind .read fun w => ?_
  split
  · exact .pure _
  · refine .ite (.pure _) ?_
    split
    · exact .pure _
    · dsimp only
      split
      · exact .pure _
      · exact quietFrame_sendTo _ _ _ _ _ (by simp)

theorem quietFrame_putDataFromCtx : quietFrame.Keeps (putDataFromCtx out) := by
  refine .bind .read fun w => .ite (.pure _) ?_
  split
  · exact .pure _
  · refine .bind (quietFrame_sendTo _ _ _ _ _ (by simp)) fun rv => .ite (.pure _) ?_
    exact quietFrame_parseValidation

theorem quietFrame_saveReply (rv : AmvpResult) : quietFrame.Keeps (saveReply out rv) := by
  refine .bind frameOf_getCtx fun ctx => ?_
  split
  · exact .bind (quietFrame_jsonSerializeToFilePrettyW _ _) fun rv =>
      .ite (.pure _) (quietFrame_jsonSerializeToFilePrettyA _ _)
  · exact .pure _

/-! ## Stages that send a validation or end the polling -/

theorem workFrame_checkTestResults : workFrame.Keeps (checkTestResults out) := by
  intro w
  obtain ⟨w₁, hquiet, ⟨rv, h⟩ | ⟨-, h⟩⟩ := getResultTestSession_cases out w.ctx.sessionUrl w
  all_goals
    rw [checkTestResults, getCtx_bind, h]
  · exact workFrame_of_quiet hquiet
  · exact workFrame.trans (workFrame_of_quiet hquiet) ⟨rfl, [], by simp, by simp⟩

theorem workFrame_transportPutValidation (validation : Option Json) :
    workFrame.Keeps (transportPutValidation out validation) :=
  .ite (.pure _) (.bind frameOf_getCtx fun _ => workFrame_sendTo _ _ _ _ _ _)

theorem workFrame_validateTestSession : workFrame.Keeps (validateTestSession out) := by
  refine .bind frameOf_getCtx fun ctx => .ite (.pure _) (.ite (.pure _) ?_)
  exact .bind (workFrame_transportPutValidation _) fun rv =>
    .ite (.pure _) (work_of_quiet quietFrame_parseValidation)

theorem workFrame_certReq : workFrame.Keeps (certReq out) := by
  refine .bind frameOf_getCtx fun ctx => .bind (workFrame_sendTo _ _ _ _ _ _) fun rv => ?_
  refine .ite (.pure _) (.bind frameOf_getCtx fun ctx => ?_)
  refine .ite (.pure _) (.ite (.pure _) (.ite ?_ (.pure _)))
  exact .bind (workFrame_transportPutValidation _) fun rv =>
    .ite (.pure _) (work_of_quiet quietFrame_parseValidation)

end LibAmvp
