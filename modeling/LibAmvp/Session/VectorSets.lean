import LibAmvp.Session.Requests

/-!
# Vector sets: download, processing and the request file

The two loops over the URLs of a session: vector sets of an algorithm session and
evidence sets of a certificate request.  Each downloads a set, waits as long as the
server asks for, and either processes it and submits the response, or saves it to
the request file.  That file is a JSON array assembled textually by one write,
several appends and a closing append.

Main definitions:

- Definitions {lit}`processVsid` and {lit}`processTeid`: the two members of one family, which
  differ in the element of a body they save, in the header key, and in the handler.
- Definition {lit}`processTests` and {lit}`processAmvpTes`: the loops over all URLs.
-/

namespace LibAmvp

/-! ## Waiting -/

/-- {lit}`amvp_retry_handler`: the next period and the time waited so far, or
{lit}`none` when the maximum was reached before.  The sum of the unsigned time and the
signed period wraps. -/
def retryHandler (period : Int) (waited : Nat) (modifier : Int) : Option (Int × Nat) :=
  if amvpMaxWaitTime ≤ waited then none
  else
    let period := if amvpMaxWaitTime < ((waited : Int) + period) % 2 ^ 32 then
      (amvpMaxWaitTime : Int) - waited else period
    let period := if period ≤ amvpRetryTimeMin ∨ amvpRetryTimeMax < period then
      amvpRetryTimeMax else period
    let modifier := if modifier < 1 ∨ amvpRetryModifierMax < modifier then 1 else modifier
    let period := if amvpRetryTimeMax < period * modifier then
      amvpRetryTimeMax else period * modifier
    some (period, waited + period.toNat)

/-- The time left before a waiting loop gives up. -/
def timeLeft (waited : Nat) : Nat := amvpMaxWaitTime - waited

/-- Every wait brings a loop closer to giving up. -/
theorem retryHandler_timeLeft {period period' modifier : Int} {waited waited' : Nat}
    (h : retryHandler period waited modifier = some (period', waited')) :
    timeLeft waited' < timeLeft waited := by
  unfold retryHandler at h
  split at h
  · cases h
  · extract_lets p₁ p₂ m p₃ at h
    obtain ⟨-, rfl⟩ := Prod.mk.inj (Option.some.inj h)
    have hmin : amvpRetryTimeMin = 5 := rfl
    have hmax : amvpRetryTimeMax = 300 := rfl
    have hp₂ : 0 < p₂ := by
      simp only [p₂]
      split <;> omega
    have hm : 1 ≤ m := by
      simp only [m]
      split <;> omega
    have hp₃ : 0 < p₃ := by
      simp only [p₃]
      split
      · omega
      · positivity
    simp only [timeLeft]
    omega

/-! ## The request file -/

section Files

variable (out : Outside)

/-- The text an append adds for a value, or for the closing call. -/
def appendTokens : Option Json → Json.Text
  | some v => .comma :: v.tokens
  | none => [.rbrack]

/-- {lit}`amvp_json_serialize_to_file_pretty_a`: append a value, or the closing bracket
when there is none. -/
def jsonSerializeToFilePrettyA (value : Option Json) (filename : Option String) :
    Session AmvpResult :=
  match filename with
  | none => return .invalidArg
  | some f => do
    if out.writable f then
      Prog.update fun w => { w with
        files := Function.update w.files f (some ((w.files f).getD [] ++ appendTokens value)) }
      return .success
    else
      return .jsonErr

/-- {lit}`amvp_json_serialize_to_file_pretty_w`: start the array with its first element. -/
def jsonSerializeToFilePrettyW (value : Option Json) (filename : Option String) :
    Session AmvpResult :=
  match value, filename with
  | none, _ => return .jsonErr
  | some _, none => return .invalidArg
  | some v, some f => do
    if out.writable f then
      Prog.update fun w => { w with
        files := Function.update w.files f (some (.lbrack :: v.tokens)) }
      return .success
    else
      return .jsonErr

/-- {lit}`json_parse_file`. -/
def jsonParseFile (filename : Option String) (w : World) : Option Json :=
  filename.bind fun f => (w.files f).bind jsonParseText

/-! ## Handlers -/

/-- {lit}`amvp_dispatch_vector_set`: look up the handler of the algorithm and run it.  A
handler installs its response array in {lit}`ctx->kat_resp` and appends its one response
object when it succeeds. -/
def dispatchVectorSet (obj : Option JsonObject) : Session AmvpResult := do
  modifyCtx fun ctx => { ctx with vsId := toInt (jsonObjectGetNumber obj "vsId") }
  match jsonObjectGetString obj "algorithm" with
  | none => return .jsonErr
  | some alg =>
    match out.katHandler alg (jsonObjectGetString obj "mode") with
    | none => return .unsupportedOp
    | some handler =>
      match handler (obj.getD []) with
      | .response r =>
        modifyCtx fun ctx => { ctx with katResp := some (.arr [r]) }
        return .success
      | .failure rv installed =>
        modifyCtx fun ctx =>
          { ctx with katResp := if installed then some (.arr []) else ctx.katResp }
        return rv

end Files

/-- {lit}`amvp_evidence_tbl`. -/
def evidenceTbl : List (String × String) :=
  [("TE02.20.01", "/acvp/v1/validations/41763"),
    ("TE02.20.02", "none"),
    ("TE11.16.01", "Version X.Y.Z of the module meets the assertion"),
    ("TE04.11.01", "<BASE64(table of services.pdf) compliant with SP800-140Br>"),
    ("TE04.11.02", "/wwwin.cisco.com/cryptomod/log_te041102_04172023.txt"),
    ("TE10.10.01",
      "Degraded mode not supported, no algorithms can be used...goes directly into SP."),
    ("TE10.10.02", "/wwwin.cisco.com/cryptomod/log_te041102_04172023.txt"),
    ("TE11.08.01", "/wwwin.cisco.com/cryptomod/FSM.pdf"),
    ("TE11.08.02", "See TE11.08.01")]

/-- {lit}`amvp_locate_auto_entry`. -/
def locateAutoEntry (evidence : String) : Option String :=
  (evidenceTbl.find? fun e => e.1 == evidence).map Prod.snd

/-- The evidence entries of one test group: test cases that are not automated are
skipped, and a test case that is no string is an error. -/
def evidenceEntries : List Json → Except AmvpResult (List Json)
  | [] => .ok []
  | .str evidence :: tests =>
    match evidenceEntries tests with
    | .error rv => .error rv
    | .ok entries =>
      match locateAutoEntry evidence with
      | none => .ok entries
      | some ev => .ok (.obj [(evidence, .str ev)] :: entries)
  | _ :: _ => .error .missingArg

attribute [grind =] evidenceEntries

/-- The response group for one test group of an evidence set. -/
def evidenceGroup (group : Json) : Except AmvpResult Json :=
  let groupobj := jsonValueGetObject (some group)
  let teId := toInt (jsonObjectGetNumber groupobj "teId")
  if teId = 0 then .error .malformedJson
  else
    match jsonObjectGetArray groupobj "autoTE" with
    | none => .error .missingArg
    | some [] => .error .missingArg
    | some tests =>
      match evidenceEntries tests with
      | .error rv => .error rv
      | .ok entries => .ok (.obj [("teId", .num teId), ("evidence", .arr entries)])

/-- The response groups of an evidence set, up to the first error. -/
def evidenceGroups : List Json → Except AmvpResult (List Json)
  | [] => .ok []
  | group :: groups =>
    match evidenceGroup group with
    | .error rv => .error rv
    | .ok r =>
      match evidenceGroups groups with
      | .error rv => .error rv
      | .ok rs => .ok (r :: rs)

attribute [grind =] evidenceGroups

/-- {lit}`amvp_dispatch_ie_set`: answer every automated test case of an evidence set.  The
response array is installed before the set is read. -/
def dispatchIeSet (obj : Option JsonObject) : Session AmvpResult := do
  let ieId := toInt (jsonObjectGetNumber obj "ievSetsId")
  modifyCtx fun ctx => { ctx with vsId := ieId, katResp := some (.arr []) }
  match jsonObjectGetArray obj "teGroups" with
  | none => return .missingArg
  | some groups =>
    match evidenceGroups groups with
    | .error rv => return rv
    | .ok rs =>
      modifyCtx fun ctx => { ctx with
        katResp := some (.arr [.obj [("ieId", .num ieId), ("teGroups", .arr rs)]]) }
      return .success

/-! ## One set -/

/-- What distinguishes the two kinds of sets: the element of a body that is saved, the
header key of the URLs, and the processing of a set. -/
structure SetKind where
  element : Nat
  urlsKey : String
  dispatch : Option JsonObject → Session AmvpResult

/-- The header of a request file: the identifiers of the session and all URLs. -/
def requestHeader (ctx : Ctx) (urlsKey : String) : JsonObject :=
  let ts := jsonObjectSetString [] "jwt" ctx.jwtToken
  let ts := jsonObjectSetString ts "url" ctx.sessionUrl
  let ts := jsonObjectSetBoolean ts "isSample" ctx.isSample
  jsonObjectSetValue ts urlsKey (.arr (jsonArrayOfStrings ctx.vsidUrlList))

section Sets

variable (out : Outside)

/-- The header is written in front of the first set. -/
def startRequestFile (kind : SetKind) (count : Nat) : Session AmvpResult := do
  let ctx ← getCtx
  if count = 0 then
    jsonSerializeToFilePrettyW out (some (.obj (requestHeader ctx kind.urlsKey)))
      ctx.vectorReqFile
  else
    return .success

/-- Save a retrieved body to the request file. -/
def saveSet (kind : SetKind) (val : Json) (count : Nat) : Session AmvpResult := do
  let rv ← startRequestFile out kind count
  if rv ≠ .success then
    return rv
  else
    jsonSerializeToFilePrettyA out
      (jsonArrayGetValue (jsonValueGetArray (some val)) kind.element) (← getCtx).vectorReqFile

/-- A set was received: save it, or process it and submit the response. -/
def acceptSet (kind : SetKind) (vsidUrl : String) (count : Nat) (val : Json) :
    Session AmvpResult := do
  mark (.retrieved vsidUrl val)
  if (← getCtx).vectorReq then
    saveSet out kind val count
  else
    let rv ← kind.dispatch (getObjFromRsp (some val))
    if rv ≠ .success then
      return rv
    else
      submitVectorResponses out vsidUrl

/-- One round of the download loop: either wait, or finish with a result. -/
def processSetRound (kind : SetKind) (vsidUrl : String) (count : Nat) (waited : Nat) :
    Session (Nat ⊕ AmvpResult) := do
  let rv ← retrieveVectorSet out vsidUrl
  if rv ≠ .success then
    return .inr rv
  else
    match (← getCtx).curlBuf with
    | none => return .inr .jsonErr
    | some val =>
      let retryPeriod := toInt (jsonObjectGetNumber (getObjFromRsp (some val)) "retry")
      if retryPeriod ≠ 0 then
        match retryHandler retryPeriod waited 1 with
        | none => return .inr .transportFail
        | some (_, waited) => return .inl waited
      else
        return .inr (← acceptSet out kind vsidUrl count val)

/-- The reply to a request for the set at this URL was the last to arrive. -/
def Received (vsidUrl : String) (val : Json) (w w' : World) : Prop :=
  w'.ctx.curlBuf = some val ∧ ∃ req reply, .http req reply ∈ EventLog.since w.log w'.log ∧
    req.api = .vectorSet vsidUrl ∧ reply.body = some val

/-- Every way a round of the download loop can end: a failed download, a wait, or an
accepted set. -/
theorem processSetRound_cases (kind : SetKind) (vsidUrl : String) (count waited : Nat)
    (w : World) :
    ∃ w₁, (netFrame (.vectorSet vsidUrl)).rel w w₁ ∧
      ((∃ rv, rv ≠ .success ∧ processSetRound out kind vsidUrl count waited w = (.inr rv, w₁)) ∨
      (∃ waited', timeLeft waited' < timeLeft waited ∧
        processSetRound out kind vsidUrl count waited w = (.inl waited', w₁)) ∨
      (∃ val, Received vsidUrl val w w₁ ∧ processSetRound out kind vsidUrl count waited w =
        (.inr (acceptSet out kind vsidUrl count val w₁).1,
          (acceptSet out kind vsidUrl count val w₁).2))) := by
  obtain ⟨⟨rv, w₁⟩, hget⟩ : ∃ p, retrieveVectorSet out vsidUrl w = p := ⟨_, rfl⟩
  have hframe : (netFrame (.vectorSet vsidUrl)).rel w w₁ := by
    have hkeeps := @netFrame_sendTo out (amvpAttrUrlMax - 1) .vectorSet .getVs vsidUrl
      "" none w
    rw [show sendTo out _ _ _ _ _ _ w = _ from hget] at hkeeps
    exact hkeeps
  refine ⟨w₁, hframe, ?_⟩
  rw [processSetRound, Prog.bind_of_eq hget]
  by_cases hrv : rv = .success
  · rw [if_neg (not_not.mpr hrv), getCtx_bind]
    cases hbuf : w₁.ctx.curlBuf with
    | none => exact .inl ⟨.jsonErr, by decide, rfl⟩
    | some val =>
        dsimp only
        by_cases hretry : toInt (jsonObjectGetNumber (getObjFromRsp (some val)) "retry") = 0
        · subst hrv
          obtain ⟨p, req, reply, hp, hmem, hapi, hbody⟩ := sendTo_success_own hget
          obtain rfl := Option.some.inj hp
          rw [if_neg (not_not.mpr hretry)]
          exact .inr (.inr ⟨val, ⟨hbuf, req, reply, hmem, hapi, hbody.trans hbuf⟩, rfl⟩)
        · rw [if_pos hretry]
          cases hwait : retryHandler
            (toInt (jsonObjectGetNumber (getObjFromRsp (some val)) "retry")) waited 1 with
          | none => exact .inl ⟨.transportFail, by decide, rfl⟩
          | some next => exact .inr (.inl ⟨next.2, retryHandler_timeLeft hwait, rfl⟩)
  · rw [if_pos hrv]
    exact .inl ⟨rv, hrv, rfl⟩

theorem processSetRound_decreases (kind : SetKind) (vsidUrl : String) (count : Nat) :
    Prog.Decreases timeLeft (processSetRound out kind vsidUrl count) := by
  intro waited w waited' h
  obtain ⟨w₁, -, ⟨rv, -, hround⟩ | ⟨next, hlt, hround⟩ | ⟨val, -, hround⟩⟩ :=
    processSetRound_cases out kind vsidUrl count waited w
  · simp [hround] at h
  · obtain rfl : next = waited' := by simpa [hround] using h
    exact hlt
  · simp [hround] at h

/-- The download loop for one URL. -/
def processSet (kind : SetKind) (vsidUrl : String) (count : Nat) : Session AmvpResult :=
  Prog.loop timeLeft (processSetRound out kind vsidUrl count)
    (processSetRound_decreases out kind vsidUrl count) 0

/-- Every way the download loop can end: without a set, or with an accepted one. -/
theorem processSet_cases (kind : SetKind) (vsidUrl : String) (count : Nat) (w : World) :
    ∃ w₁, (netFrame (.vectorSet vsidUrl)).rel w w₁ ∧
      ((∃ rv, rv ≠ .success ∧ processSet out kind vsidUrl count w = (rv, w₁)) ∨
      (∃ val, Received vsidUrl val w w₁ ∧
        processSet out kind vsidUrl count w = acceptSet out kind vsidUrl count val w₁)) := by
  let motive : Nat → World → AmvpResult × World → Prop := fun _ w r =>
    ∃ w₁, (netFrame (.vectorSet vsidUrl)).rel w w₁ ∧
      ((∃ rv, rv ≠ .success ∧ r = (rv, w₁)) ∨
      (∃ val, Received vsidUrl val w w₁ ∧ r = acceptSet out kind vsidUrl count val w₁))
  refine Prog.loop_induction (processSetRound_decreases out kind vsidUrl count)
    (motive := motive) ?_ ?_ 0 w
  · intro waited w rv h
    obtain ⟨w₁, hframe, ⟨rv', hrv, hround⟩ | ⟨next, -, hround⟩ | ⟨val, hbuf, hround⟩⟩ :=
      processSetRound_cases out kind vsidUrl count waited w
    · obtain rfl : rv' = rv := by simpa [hround] using h
      exact ⟨w₁, hframe, .inl ⟨rv', hrv, by rw [hround]⟩⟩
    · simp [hround] at h
    · obtain rfl : (acceptSet out kind vsidUrl count val w₁).1 = rv := by simpa [hround] using h
      exact ⟨w₁, hframe, .inr ⟨val, hbuf, by rw [hround]⟩⟩
  · intro waited w waited' r h hrest
    obtain ⟨w₁, hframe, ⟨rv, -, hround⟩ | ⟨next, -, hround⟩ | ⟨val, -, hround⟩⟩ :=
      processSetRound_cases out kind vsidUrl count waited w
    · simp [hround] at h
    · rw [hround] at hrest
      obtain ⟨w₂, hframe', hend⟩ := hrest
      refine ⟨w₂, (netFrame _).trans hframe hframe', hend.imp_right ?_⟩
      -- the reply of a later round is in the log of all rounds
      rintro ⟨val, ⟨hbuf, req, reply, hmem, hown⟩, hend⟩
      obtain ⟨-, -, evs, hlog, -⟩ := hframe
      obtain ⟨-, -, evs', hlog', -⟩ := hframe'
      rw [hlog', EventLog.since_append] at hmem
      refine ⟨val, ⟨hbuf, req, reply, ?_, hown⟩, hend⟩
      rw [hlog', hlog, List.append_assoc, EventLog.since_append]
      exact List.mem_append_right evs hmem
    · simp [hround] at h

/-- The vector sets of an algorithm session. -/
def vsidKind : SetKind := ⟨1, "vectorSetUrls", dispatchVectorSet out⟩

/-- The evidence sets of a certificate request. -/
def teidKind : SetKind := ⟨0, "ieSetsId", dispatchIeSet⟩

/-- {lit}`amvp_process_vsid`. -/
def processVsid (vsidUrl : String) (count : Nat) : Session AmvpResult :=
  processSet out (vsidKind out) vsidUrl count

/-- {lit}`amvp_process_teid`. -/
def processTeid (vsidUrl : String) (count : Nat) : Session AmvpResult :=
  processSet out teidKind vsidUrl count

/-! ## All sets -/

/-- The loop over the URLs, up to the first failure. -/
def processUrls (process : String → Nat → Session AmvpResult) :
    List String → Nat → Session AmvpResult
  | [], _ => return .success
  | url :: urls, count => do
    let rv ← process url count
    if rv ≠ .success then
      return rv
    else
      processUrls process urls (count + 1)

/-- All URLs of the context, and the closing bracket of the request file. -/
def processAll (process : String → Nat → Session AmvpResult) : Session AmvpResult := do
  let ctx ← getCtx
  if ctx.vsidUrlList = [] then
    return .missingArg
  else
    let rv ← processUrls process ctx.vsidUrlList 0
    if rv ≠ .success then
      return rv
    else
      let ctx ← getCtx
      if ctx.vectorReq then
        jsonSerializeToFilePrettyA out none ctx.vectorReqFile
      else
        return rv

/-- {lit}`amvp_process_tests`. -/
def processTests : Session AmvpResult := processAll out (processVsid out)

/-- {lit}`amvp_process_amvp_tes`. -/
def processAmvpTes : Session AmvpResult := processAll out (processTeid out)

end Sets

end LibAmvp
