import LibAmvp.Session.Context

/-!
# Transport: HTTP exchanges, network actions and the JWT refresh

Every request of the library goes through {lit}`amvp_network_action`.  It sends one
request, repeats a rejected vector set response as a PUT, and answers an expired
JWT by a refresh followed by one repetition.  A refresh is itself a login, and a
login is itself a network action, so the functions are mutually recursive.  The
embedding makes the depth of that recursion explicit: {lit}`networkActionDepth` takes
the number of nested activations it may use and returns {lit}`none` when it needs more.
-/

namespace LibAmvp

/-! ## Reading replies -/

/-- {lit}`amvp_is_protocol_error_message`. -/
def isProtocolErrorMessage (buf : Option Json) : Bool :=
  let arr := jsonValueGetArray buf
  let version := jsonArrayGetObject arr 0
  let error := jsonArrayGetObject arr 1
  jsonArrayGetCount arr == 2 && jsonObjectHasValue version "amvVersion" &&
    jsonObjectHasValue error "category" && jsonObjectHasValue error "description" &&
    (jsonObjectGetArray error "errors").isSome

/-- {lit}`strstr_s` as a test: does the second string occur in the first? -/
def strstrS (s sub : String) : Bool := decide (sub.toList <:+: s.toList)

/-- {lit}`inspect_http_code`: the result a status code and the received body stand for. -/
def inspectHttpCode (code : Int) (curlBuf : Option Json) : AmvpResult :=
  if code = 200 then .success
  else if isProtocolErrorMessage curlBuf then .protocolRspErr
  else if code = 400 then .unsupportedOp
  else if code = 401 then
    match jsonObjectGetString (jsonArrayGetObject (jsonValueGetArray curlBuf) 1) "error" with
    | none => .transportFail
    | some err =>
      if strstrS err "JWT expired" then .jwtExpired
      else if strstrS err "JWT signature does not match" then .jwtInvalid
      else .transportFail
  else .transportFail

/-! ## HTTP exchanges -/

section Network

variable (out : Outside)

/-- Send one request; the reply's body lands in the receive buffer and its status
code is returned. -/
def curlHttp (req : Request) : Session Int := do
  let w ← Prog.read
  let reply := out.server w.log req
  mark (.http req reply)
  modifyCtx fun ctx => { ctx with curlBuf := reply.body }
  return reply.code

/-- {lit}`amvp_curl_http_get`. -/
def curlHttpGet (api : Api) (action : NetAction) (url : String) : Session Int :=
  curlHttp out ⟨api, action, .get, url, none⟩

/-- {lit}`amvp_curl_http_post`. -/
def curlHttpPost (api : Api) (action : NetAction) (url : String) (data : Option Json) :
    Session Int :=
  curlHttp out ⟨api, action, .post, url, data⟩

/-- {lit}`amvp_curl_http_put`. -/
def curlHttpPut (api : Api) (action : NetAction) (url : String) (data : Option Json) :
    Session Int :=
  curlHttp out ⟨api, action, .put, url, data⟩

/-- {lit}`amvp_curl_http_delete`. -/
def curlHttpDelete (api : Api) (action : NetAction) (url : String) : Session Int :=
  curlHttp out ⟨api, action, .delete, url, none⟩

/-- The POST of a vector set response, repeated as a PUT when the server rejects it
with code 400 because a response was uploaded before. -/
def postVsResp (api : Api) (action : NetAction) (url : String) (resp : Option Json) :
    Session Int := do
  let rc ← curlHttpPost out api action url resp
  let ctx ← getCtx
  if inspectHttpCode rc ctx.curlBuf = .unsupportedOp then
    curlHttpPut out api action url resp
  else
    return rc

/-- The first {lit}`switch` of {lit}`execute_network_action`.  There {lit}`resp` is the
serialization of {lit}`ctx->kat_resp`. -/
def firstAttempt (api : Api) (action : NetAction) (url : String) (data resp : Option Json) :
    Session Int :=
  match action with
  | .get | .getVs | .getDocs | .getVsResult | .getVsSample => curlHttpGet out api action url
  | .post | .postLogin | .postReg => curlHttpPost out api action url data
  | .put | .putValidation => curlHttpPut out api action url data
  | .postVsResp => postVsResp out api action url resp
  | .delete => curlHttpDelete out api action url

/-- The second {lit}`switch` of {lit}`execute_network_action`, entered after a refresh with
the status code {lit}`rc` of the first attempt.  The DELETE branch sends its request
but keeps the old code, and a login is not repeated. -/
def secondAttempt (api : Api) (action : NetAction) (url : String) (data resp : Option Json)
    (rc : Int) : Session Int :=
  match action with
  | .get | .getVs | .getDocs | .getVsResult | .getVsSample => curlHttpGet out api action url
  | .post | .postReg => curlHttpPost out api action url data
  | .put | .putValidation => curlHttpPut out api action url data
  | .postVsResp => postVsResp out api action url resp
  | .delete => do
    let _ ← curlHttpDelete out api action url
    return rc
  | .postLogin => return rc

/-- {lit}`execute_network_action`, over the refresh it calls. -/
def executeNetworkAction (refresh : Session (Option AmvpResult)) (api : Api)
    (action : NetAction) (url : String) (data : Option Json) :
    Session (Option AmvpResult) := do
  let resp := (← getCtx).katResp
  if action = .postVsResp ∧ resp = none then
    return some .jsonErr
  else
    let rc ← firstAttempt out api action url data resp
    let result := inspectHttpCode rc (← getCtx).curlBuf
    if result = .jwtExpired ∧ action ≠ .postLogin then
      match ← refresh with
      | none => return none
      | some rv =>
        mark (.refreshed rv)
        if rv ≠ .success then
          return some rv
        else
          let rc ← secondAttempt out api action url data resp rc
          return some (inspectHttpCode rc (← getCtx).curlBuf)
    else
      return some result

/-- The action {lit}`amvp_network_action` hands on. -/
def genericAction : NetAction → NetAction
  | .get | .getVs | .getDocs | .getVsResult | .getVsSample => .get
  | .post | .postReg => .post
  | .postLogin => .postLogin
  | .postVsResp => .postVsResp
  | .put | .putValidation => .put
  | .delete => .delete

/-- Does {lit}`amvp_network_action` insist on data for this action? -/
def checkData : NetAction → Bool
  | .post | .postReg | .postLogin | .put | .putValidation => true
  | _ => false

/-! ## Login -/

/-- {lit}`sanity_check_ctx`. -/
def sanityCheckCtx (ctx : Ctx) : AmvpResult :=
  if ctx.serverPort = 0 ∨ ctx.serverName = none then .missingArg else .success

/-- The part of every URL in front of the path. -/
def serverBase (ctx : Ctx) : String :=
  "https://" ++ ctx.serverName.getD "" ++ ":" ++ toString ctx.serverPort

/-- {lit}`amvp_build_login`: the login message, with a one-time password when the
application supplies one and the old token when this is a refresh. -/
def buildLogin (refresh : Bool) : Session (Except AmvpResult Json) := do
  let w ← Prog.read
  let token := out.totp w.log
  if w.ctx.totpCb ∧ token = none then
    return .error .totpFail
  else if w.ctx.totpCb ∧ amvpTotpTokenMax < (token.getD "").length then
    return .error .totpFail
  else
    let pw : JsonObject := if w.ctx.totpCb then jsonObjectSetString [] "password" token else []
    let pw := if refresh then jsonObjectSetString pw "accessToken" w.ctx.jwtToken else pw
    return .ok (.arr (if w.ctx.totpCb ∨ refresh then [.obj pw] else []))

/-- {lit}`amvp_parse_login`. -/
def parseLogin : Session AmvpResult := do
  let ctx ← getCtx
  if ctx.curlBuf = none then
    return .jsonErr
  else
    match jsonObjectGetString (getObjFromRsp ctx.curlBuf) "accessToken" with
    | none => return .jwtMissing
    | some jwt =>
      if amvpJwtTokenMax < jwt.length then
        return .jwtInvalid
      else
        modifyCtx fun ctx => { ctx with jwtToken := some jwt }
        return .success

/-- {lit}`amvp_send_with_path_seg`, over the network action it calls. -/
def sendWithPathSeg (net : Api → NetAction → String → Option Json → Session (Option AmvpResult))
    (api : Api) (action : NetAction) (uri : String) (data : Option Json) :
    Session (Option AmvpResult) := do
  let ctx ← getCtx
  if sanityCheckCtx ctx ≠ .success then
    return some (sanityCheckCtx ctx)
  else
    match ctx.pathSegment with
    | none => return some .missingArg
    | some pathSegment =>
      net api action
        (snprintf (amvpAttrUrlMax - 1) (serverBase ctx ++ pathSegment ++ uri)) data

/-- {lit}`amvp_login`, over the network action it calls. -/
def loginWith (net : Api → NetAction → String → Option Json → Session (Option AmvpResult))
    (refresh : Bool) : Session (Option AmvpResult) := do
  match ← buildLogin out refresh with
  | .error rv => return some rv
  | .ok login =>
    match ← sendWithPathSeg net .login .postLogin "login" (some login) with
    | none => return none
    | some rv =>
      if rv ≠ .success then
        return some rv
      else
        return some (← parseLogin)

/-! ## Network actions -/

/-- {lit}`amvp_network_action` with at most {lit}`depth` nested activations. -/
def networkActionDepth :
    Nat → Api → NetAction → String → Option Json → Session (Option AmvpResult)
  | 0, _, _, _, _ => return none
  | depth + 1, api, action, url, data => do
    -- a login drops the old token
    modifyCtx fun ctx =>
      { ctx with jwtToken := if action = .postLogin then none else ctx.jwtToken }
    if checkData action ∧ data = none then
      return some .noData
    else
      executeNetworkAction out (loginWith out (networkActionDepth depth) true) api
        (genericAction action) url data

end Network

end LibAmvp
