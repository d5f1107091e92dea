import LibAmvp.Session.Results

/-!
# Registration, certificate requests and session files

The parts of a run that open a session: the registration of an algorithm session,
the certificate request of a module session, and the file by which a session is
resumed later.  All three assign the session URL, which is marked in the log.
-/

namespace LibAmvp

/-- {lit}`AMVP_CAP_MAX`, which the preprocessor reads as {lit}`AMVP_CIPHER_END - 1 * 2`. -/
def amvpCapMax : Nat := 100

/-- {lit}`AMVP_SAVE_DEFAULT_PREFIX`. -/
def amvpSaveDefaultPrefix : String := "testSession"

/-- The URLs at the head of an array, up to the first element that is no string, and
whether that was the whole array.  {lit}`amvp_append_vsid_url` copies each into a buffer. -/
def urlPrefix : List Json → List String × Bool
  | [] => ([], true)
  | .str url :: elems =>
    (strcpyS (amvpAttrUrlMax + 1) url :: (urlPrefix elems).1, (urlPrefix elems).2)
  | _ :: _ => ([], false)

/-- Append URLs to {lit}`ctx->vsid_url_list`. -/
def appendVsidUrls (urls : List String) : Session Unit :=
  modifyCtx fun ctx => { ctx with vsidUrlList := ctx.vsidUrlList ++ urls }

/-- Assign {lit}`ctx->session_url`. -/
def setSessionUrl (url : String) : Session Unit := do
  modifyCtx fun ctx => { ctx with sessionUrl := some (strcpyS (amvpAttrUrlMax + 1) url) }
  mark (.sessionUrl (strcpyS (amvpAttrUrlMax + 1) url))

section Register

variable (out : Outside)

/-- Read the reply that opens a session, with its URLs under the given key.  The token
is copied into the buffer of the old one, when there is one. -/
def parseSessionRegister (urlsKey : String) : Session AmvpResult := do
  let ctx ← getCtx
  let obj := getObjFromRsp ctx.curlBuf
  if ctx.curlBuf = none then
    return .jsonErr
  else
    match jsonObjectGetString obj "url" with
    | none => return .jsonErr
    | some url =>
      setSessionUrl url
      match jsonObjectGetString obj "accessToken" with
      | none => return .jsonErr
      | some token =>
        if amvpJwtTokenMax < token.length then
          return .jwtInvalid
        else
          modifyCtx fun ctx => { ctx with jwtToken := ctx.jwtToken.map fun _ => token }
          appendVsidUrls (urlPrefix (jsonArrayElems (jsonObjectGetArray obj urlsKey))).1
          return .success

/-- {lit}`amvp_parse_test_session_register`. -/
def parseTestSessionRegister : Session AmvpResult := parseSessionRegister "vectorSetUrls"

/-- {lit}`amvp_parse_mod_cert_req`. -/
def parseModCertReq : Session AmvpResult := parseSessionRegister "crUrls"

/-- The check that a registration file holds an array of one to {lit}`AMVP_CAP_MAX`
elements. -/
def registrationFile (filename : Option String) (w : World) : Option Json :=
  match jsonParseFile filename w with
  | some (.arr elems) =>
    if elems.length < 1 ∨ amvpCapMax < elems.length then none else some (.arr elems)
  | _ => none

/-- The registration of {lit}`amvp_register`: read from a file, or built from the
capabilities. -/
def buildRegistration : Session (AmvpResult × Option Json) := do
  let w ← Prog.read
  if w.ctx.useJson then
    match registrationFile w.ctx.jsonFilename w with
    | none => return (.jsonErr, none)
    | some reg => return (.success, some reg)
  else
    return out.buildRegistrationJson w.ctx

/-- {lit}`amvp_build_full_registration`. -/
def buildFullRegistration (ctx : Ctx) : Json :=
  let obj := jsonObjectSetBoolean [] "isSample" ctx.isSample
  .arr [.obj (match ctx.registration with
    | none => obj
    | some reg => jsonObjectSetValue obj "algorithms" reg)]

/-- {lit}`amvp_register`. -/
def register : Session AmvpResult := do
  let (rv, reg) ← buildRegistration out
  if rv ≠ .success then
    return rv
  else
    modifyCtx fun ctx => { ctx with registration := reg }
    let rv ← sendTestSessionRegistration out (some (buildFullRegistration (← getCtx)))
    if rv ≠ .success then
      return rv
    else
      parseTestSessionRegister

/-- {lit}`amvp_mod_cert_req`: send the request, then process every TE URL of the reply. -/
def modCertReq : Session AmvpResult := do
  let w ← Prog.read
  match registrationFile w.ctx.modCertReqFile w with
  | none => return .jsonErr
  | some reg =>
    modifyCtx fun ctx => { ctx with registration := some reg }
    let rv ← transportPost out (some "/amv/v1/certRequest") (some reg)
    if rv ≠ .success then
      return rv
    else
      let rv ← parseModCertReq
      if rv ≠ .success then
        return rv
      else
        processAmvpTes out

/-! ## Session info files -/

/-- The session ID in a session URL: what follows {lit}`testSessions/`.  Without that part
the pointer runs past the end of the URL. -/
def sessionId (url : List Char) : String :=
  match url with
  | [] => out.strayText
  | c :: rest =>
    if "testSessions/".toList.isPrefixOf (c :: rest) then
      String.ofList ((c :: rest).drop "testSessions/".length)
    else sessionId rest

/-- The name of the session info file. -/
def sessionInfoFilename (url : String) : String :=
  let id := sessionId out url.toList
  let pathLen (s : Option String) := min (s.getD "").length (amvpJsonFilenameMax + 1)
  let tooLong := amvpJsonFilenameMax - 6 <
    pathLen out.sessionSavePath + pathLen out.sessionSavePrefix + pathLen (some id)
  let path := if tooLong then none else out.sessionSavePath
  let pre := if tooLong then none else out.sessionSavePrefix
  let file := pre.getD amvpSaveDefaultPrefix ++ "_" ++ id ++ ".json"
  snprintf amvpJsonFilenameMax (match path with
    | none => file
    | some dir => dir ++ "/" ++ file)

/-- The contents of the session info file. -/
def sessionInfo (ctx : Ctx) : Json :=
  let ts := jsonObjectSetString [] "url" ctx.sessionUrl
  let ts := jsonObjectSetString ts "jwt" ctx.jwtToken
  let ts := jsonObjectSetBoolean ts "isSample" ctx.isSample
  .obj (match ctx.registration with
    | none => ts
    | some reg => jsonObjectSetValue ts "registration" reg)

/-- {lit}`amvp_write_session_info`. -/
def writeSessionInfo : Session AmvpResult := do
  let ctx ← getCtx
  let filename := sessionInfoFilename out (ctx.sessionUrl.getD "")
  let rv ← jsonSerializeToFilePrettyW out (some (sessionInfo ctx)) (some filename)
  if rv ≠ .success then
    return rv
  else
    let rv ← jsonSerializeToFilePrettyA out none (some filename)
    if rv ≠ .success then
      return rv
    else
      modifyCtx fun ctx => { ctx with sessionFilePath := some filename }
      return .success

/-- Read the token and the sample mark of a session file. -/
def readTokenAndSample (obj : JsonObject) (jwt : String) : Session Unit := do
  modifyCtx fun ctx => { ctx with jwtToken := some (strcpyS (amvpJwtTokenMax + 1) jwt) }
  modifyCtx fun ctx => { ctx with
    isSample := if jsonObjectHasValue (some obj) "isSample"
      then jsonObjectGetBoolean (some obj) "isSample" else ctx.isSample }

/-- {lit}`amvp_parse_session_info_file`. -/
def parseSessionInfoFile (filename : Option String) : Session AmvpResult := do
  let w ← Prog.read
  match filename with
  | none => return .missingArg
  | some f =>
    if amvpJsonFilenameMax < f.length then
      return .invalidArg
    else
      match getObjFromRsp (jsonParseFile (some f) w) with
      | none => return .malformedJson
      | some obj =>
        match jsonObjectGetString (some obj) "url" with
        | none => return .malformedJson
        | some url =>
          setSessionUrl url
          match jsonObjectGetString (some obj) "jwt" with
          | none => return .malformedJson
          | some jwt =>
            readTokenAndSample obj jwt
            return .success

end Register

/-! ## What opening a session can change -/

variable {out : Outside}

theorem openFrame_setSessionUrl (url : String) : openFrame.Keeps (setSessionUrl url) :=
  .bind (frameOf_modifyCtx fun _ => rfl) fun _ => frameOf_mark trivial

theorem openFrame_parseSessionRegister (urlsKey : String) :
    openFrame.Keeps (parseSessionRegister urlsKey) := by
  refine .bind frameOf_getCtx fun ctx => .ite (.pure _) ?_
  split
  · exact .pure _
  · refine .bind (openFrame_setSessionUrl _) fun _ => ?_
    split
    · exact .pure _
    · refine .ite (.pure _) (.bind (frameOf_modifyCtx fun _ => rfl) fun _ => ?_)
      exact .bind (frameOf_modifyCtx fun _ => rfl) fun _ => .pure _

theorem quietFrame_buildRegistration : quietFrame.Keeps (buildRegistration out) := by
  refine .bind .read fun w => .ite ?_ (.pure _)
  split
  · exact .pure _
  · exact .pure _

theorem quietFrame_sendTestSessionRegistration (reg : Option Json) :
    quietFrame.Keeps (sendTestSessionRegistration out reg) := by
  refine .bind frameOf_getCtx fun ctx => .ite (.pure _) ?_
  split
  · exact .pure _
  · intro w
    exact frameOf_of_netFrame (fun _ _ _ => rfl) (fun _ => NetEvent.quiet (by simp))
      (netFrame_networkAction _ _ _ _ w)

theorem openFrame_register : openFrame.Keeps (register out) := by
  refine .bind (open_of_quiet quietFrame_buildRegistration) fun p => .ite (.pure _) ?_
  refine .bind (frameOf_modifyCtx fun _ => rfl) fun _ => .bind frameOf_getCtx fun ctx => ?_
  refine .bind (open_of_quiet (quietFrame_sendTestSessionRegistration _)) fun rv => .ite (.pure _) ?_
  exact openFrame_parseSessionRegister _

theorem openFrame_modCertReq : openFrame.Keeps (modCertReq out) := by
  refine .bind .read fun w => ?_
  split
  · exact .pure _
  · refine .bind (frameOf_modifyCtx fun _ => rfl) fun _ => .bind ?_ fun rv => .ite (.pure _) ?_
    · exact open_of_quiet (quietFrame_sendTo _ _ _ _ _ (by simp))
    · exact .bind (openFrame_parseSessionRegister _) fun rv =>
        .ite (.pure _) (open_of_quiet quietFrame_processAmvpTes)

theorem quietFrame_writeSessionInfo : quietFrame.Keeps (writeSessionInfo out) := by
  refine .bind frameOf_getCtx fun ctx =>
    .bind (quietFrame_jsonSerializeToFilePrettyW _ _) fun rv => .ite (.pure _) ?_
  refine .bind (quietFrame_jsonSerializeToFilePrettyA _ _) fun rv => .ite (.pure _) ?_
  exact .bind (frameOf_modifyCtx fun _ => rfl) fun _ => .pure _

theorem quietFrame_readTokenAndSample (obj : JsonObject) (jwt : String) :
    quietFrame.Keeps (readTokenAndSample obj jwt) :=
  .bind (frameOf_modifyCtx fun _ => rfl) fun _ => frameOf_modifyCtx fun _ => rfl

/-- Reading the session info file is within a frame that admits the session URL. -/
theorem frameOf_parseSessionInfoFile {γ : Type} {keep : Ctx → γ} {P : Event → Prop}
    (hurl : ∀ url, (frameOf keep P).Keeps (setSessionUrl url))
    (hread : ∀ obj jwt, (frameOf keep P).Keeps (readTokenAndSample obj jwt))
    (filename : Option String) : (frameOf keep P).Keeps (parseSessionInfoFile filename) := by
  refine .bind .read fun w => ?_
  split
  · exact .pure _
  · refine .ite (.pure _) ?_
    split
    · exact .pure _
    · split
      · exact .pure _
      · refine .bind (hurl _) fun _ => ?_
        split
        · exact .pure _
        · exact .bind (hread _ _) fun _ => .pure _

theorem openFrame_parseSessionInfoFile (filename : Option String) :
    openFrame.Keeps (parseSessionInfoFile filename) :=
  frameOf_parseSessionInfoFile openFrame_setSessionUrl
    (fun _ _ => open_of_quiet (quietFrame_readTokenAndSample _ _)) filename

end LibAmvp
