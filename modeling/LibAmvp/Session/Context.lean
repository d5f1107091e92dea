import LibAmvp.Parson
import LibAmvp.Lib.Prog

/-!
# Session context and outside world

The part of the library context that a test session reads and writes, the
server and application the library talks to, and the log of what was exchanged.
The server is adversarial: its reply to a request is an arbitrary function of
everything logged so far, so every sequence of replies is covered.  Besides the
HTTP exchanges the log carries marks for the points the properties of a session
speak about, such as the assignment of a session URL or the result of a stage.
-/

namespace LibAmvp

/-- {lit}`AMVP_RESULT`. -/
inductive AmvpResult where
  | success
  | mallocFail
  | noCtx
  | transportFail
  | protocolRspErr
  | noData
  | unsupportedOp
  | cleanupFail
  | katDownloadRetry
  | retryOperation
  | invalidArg
  | missingArg
  | cryptoModuleFail
  | noCap
  | malformedJson
  | jsonErr
  | tcMissingData
  | tcInvalidData
  | dataTooLarge
  | convertDataErr
  | dupCipher
  | totpFail
  | ctxNotEmpty
  | jwtMissing
  | jwtExpired
  | jwtInvalid
  | internalErr
deriving DecidableEq, Repr

/-! ## Limits -/

def amvpRetryTimeMin : Int := 5
def amvpRetryTimeMax : Int := 300
def amvpMaxWaitTime : Nat := 7200
def amvpRetryTime : Int := 30
def amvpRetryModifierMax : Int := 10
def amvpJwtTokenMax : Nat := 2048
def amvpAttrUrlMax : Nat := 2083
def amvpRequestStrLenMax : Nat := 128
def amvpJsonFilenameMax : Nat := 128
def amvpTotpTokenMax : Nat := 128
def amvpStringListMaxLen : Nat := 256

/-! ## Context -/

/-- The session fields of {lit}`AMVP_CTX`.  The receive buffer {lit}`curlBuf` holds what
{lit}`json_parse_string` makes of its text. -/
structure Ctx where
  logVerbose : Bool
  serverName : Option String
  serverPort : Int
  pathSegment : Option String
  vsidUrlList : List String
  sessionUrl : Option String
  sessionPassed : Bool
  sessionFilePath : Option String
  jsonFilename : Option String
  useJson : Bool
  isSample : Int
  vectorReqFile : Option String
  vectorReq : Bool
  get : Bool
  getString : Option String
  post : Bool
  postFilename : Option String
  put : Bool
  putFilename : Option String
  delete : Bool
  deleteString : Option String
  saveFilename : Option String
  modCertReq : Bool
  modCertReqFile : Option String
  postResources : Bool
  postResourcesFilename : Option String
  doValidation : Bool
  jwtToken : Option String
  registration : Option Json
  totpCb : Bool
  vsId : Int
  katResp : Option Json
  curlBuf : Option Json

/-- A context as {lit}`amvp_create_test_session` leaves it. -/
def Ctx.fresh : Ctx where
  logVerbose := false
  serverName := none
  serverPort := 0
  pathSegment := none
  vsidUrlList := []
  sessionUrl := none
  sessionPassed := false
  sessionFilePath := none
  jsonFilename := none
  useJson := false
  isSample := 0
  vectorReqFile := none
  vectorReq := false
  get := false
  getString := none
  post := false
  postFilename := none
  put := false
  putFilename := none
  delete := false
  deleteString := none
  saveFilename := none
  modCertReq := false
  modCertReqFile := none
  postResources := false
  postResourcesFilename := none
  doValidation := false
  jwtToken := none
  registration := none
  totpCb := false
  vsId := 0
  katResp := none
  curlBuf := none

/-! ## Exchanges and marks -/

/-- The transport function a request comes from, with the path it was given. -/
inductive Api where
  | login
  | testSessionRegistration
  | vectorResponses (vsidUrl : String)
  | post (uri : String)
  | vectorSet (vsidUrl : String)
  | docs (url : String)
  | vectorSetResult (apiUrl : String)
  | put (endpoint : String)
  | putValidation (sessionUrl : String)
  | delete (endpoint : String)
  | get (url : String)
deriving DecidableEq

/-- {lit}`AMVP_NET_ACTION`. -/
inductive NetAction where
  | get
  | getVs
  | getDocs
  | getVsResult
  | getVsSample
  | post
  | postLogin
  | postReg
  | postVsResp
  | put
  | putValidation
  | delete
deriving DecidableEq

/-- The HTTP method of a request. -/
inductive Method where
  | get
  | post
  | put
  | delete
deriving DecidableEq

/-- One HTTP request, with the action it is sent for. -/
structure Request where
  api : Api
  action : NetAction
  method : Method
  url : String
  data : Option Json

/-- One HTTP reply: the status code and the parsed body.  A request that gets no
reply is one with code 0 and no body. -/
structure Reply where
  code : Int
  body : Option Json

/-- The stages {lit}`amvp_run` goes through. -/
inductive Stage where
  | login
  | getRequest
  | postData
  | postResource (endpoint : String)
  | modCertReq
  | deleteRequest
  | verifyMetadata
  | register
  | processTests
  | checkResults
  | certReq
  | validate
  | putData
deriving DecidableEq

/-- What happens during a session. -/
inductive Event where
  /-- A request was sent and answered. -/
  | http (req : Request) (reply : Reply)
  /-- A refresh of the JWT ended with this result. -/
  | refreshed (rv : AmvpResult)
  /-- {lit}`ctx->session_url` was assigned. -/
  | sessionUrl (url : String)
  /-- {lit}`amvp_submit_vector_responses` was called with this {lit}`ctx->kat_resp`. -/
  | submit (vsidUrl : String) (katResp : Option Json)
  /-- The body of the set at this URL was accepted, no retry being asked for. -/
  | retrieved (vsidUrl : String) (body : Json)
  /-- A stage of {lit}`amvp_run` returned. -/
  | stage (stage : Stage) (rv : AmvpResult)

/-- The state a session works on: its context, what happened so far, and the
lexed text of the files. -/
structure World where
  ctx : Ctx
  log : List Event
  files : String → Option Json.Text

/-- The adaptive series of GET requests by which the FIPS metadata is verified
against the server; each answer decides the next question. -/
inductive Queries where
  | done (rv : AmvpResult)
  | ask (url : String) (next : AmvpResult → Option Json → Queries)

/-- What an algorithm handler makes of a vector set object. -/
inductive KatOutcome where
  /-- The handler succeeded with this response object. -/
  | response (r : Json)
  /-- The handler failed, after or before it had installed its response array. -/
  | failure (rv : AmvpResult) (installed : Bool)

/-- What a session meets outside its own logic: the server, the application's
callback, the process environment and file system, and the parts of the library
that build messages or process vectors without touching the session. -/
structure Outside where
  server : List Event → Request → Reply
  totp : List Event → Option String
  noLogin : Bool
  sessionSavePath : Option String
  sessionSavePrefix : Option String
  /-- What lies behind the terminator of a string that is read past its end. -/
  strayText : String
  writable : String → Bool
  katHandler : String → Option String → Option (JsonObject → KatOutcome)
  buildRegistrationJson : Ctx → AmvpResult × Option Json
  buildValidation : Ctx → AmvpResult × Option Json
  metadataQueries : Ctx → Queries

/-- A program of the session layer. -/
abbrev Session (α : Type) := Prog World α

/-- Read a field of the context. -/
def getCtx : Session Ctx := do
  return (← Prog.read).ctx

/-- Change the context. -/
def modifyCtx (f : Ctx → Ctx) : Session Unit :=
  Prog.update fun w => { w with ctx := f w.ctx }

/-- Append a mark to the log. -/
def mark (e : Event) : Session Unit :=
  Prog.update fun w => { w with log := w.log ++ [e] }

@[simp]
theorem getCtx_apply (w : World) : getCtx w = (w.ctx, w) :=
  rfl

@[simp]
theorem modifyCtx_apply (f : Ctx → Ctx) (w : World) :
    modifyCtx f w = ((), { w with ctx := f w.ctx }) :=
  rfl

@[simp]
theorem mark_apply (e : Event) (w : World) :
    mark e w = ((), { w with log := w.log ++ [e] }) :=
  rfl

@[simp]
theorem getCtx_bind {α : Type} (f : Ctx → Session α) (w : World) :
    (getCtx >>= f) w = f w.ctx w :=
  rfl

@[simp]
theorem modifyCtx_bind {α : Type} (f : Ctx → Ctx) (g : Unit → Session α) (w : World) :
    (modifyCtx f >>= g) w = g () { w with ctx := f w.ctx } :=
  rfl

@[simp]
theorem mark_bind {α : Type} (e : Event) (g : Unit → Session α) (w : World) :
    (mark e >>= g) w = g () { w with log := w.log ++ [e] } :=
  rfl

/-- {lit}`snprintf(dest, n, ...)`: at most {lit}`n - 1` characters are kept. -/
def snprintf (n : Nat) (s : String) : String := String.ofList (s.toList.take (n - 1))

/-- {lit}`strcpy_s` into a zeroed buffer of {lit}`dmax` bytes: a string that does not
fit is not copied at all. -/
def strcpyS (dmax : Nat) (s : String) : String := if s.length < dmax then s else ""

/-- A string survives a bounded copy exactly when it fits. -/
theorem strcpyS_eq_self_iff (limit : Nat) (s : String) :
    strcpyS (limit + 1) s = s ↔ s.length ≤ limit := by
  unfold strcpyS
  split
  · next h => exact ⟨fun _ => by omega, fun _ => rfl⟩
  · next h =>
      constructor
      · intro hempty
        rw [← hempty]
        exact Nat.zero_le limit
      · intro hle
        omega

end LibAmvp
