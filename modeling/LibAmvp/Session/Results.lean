import LibAmvp.Session.Frames

/-!
# Results, validation and certificate requests

Once all responses are submitted the library polls the results of the session.  The
polling loop is the only place that marks a session as passed, and the validation
is the only reader of that mark.  The certificate request downloads the documents
of a session and sends a validation of its own.

Main results:

- Theorem {lit}`getResultTestSession_cases`: the polling loop is quiet, except that it may
  mark the session as passed after a reply that is complete and passed.
-/

namespace LibAmvp

/-! ## Lists of strings -/

/-- {lit}`strnlen_s(s, AMVP_STRING_LIST_MAX_LEN)` characters of a string. -/
def listWord (s : String) : List Char := s.toList.take amvpStringListMaxLen

/-- {lit}`amvp_append_str_list`: the string is copied up to the maximal length. -/
def appendStrList (list : List String) (s : String) : List String :=
  list ++ [String.ofList (listWord s)]

/-- {lit}`amvp_lookup_str_list`: an entry matches when the shorter of the two strings is
not empty and is the beginning of the other. -/
def lookupStrList (list : List String) (s : String) : Bool :=
  list.any fun entry =>
    let n := min (listWord entry).length (listWord s).length
    decide (n ≠ 0) && decide ((listWord entry).take n = (listWord s).take n)

section Results

variable (out : Outside)

/-! ## Polling the results -/

/-- The first loop of {lit}`amvp_get_result_test_session` over the results of a reply: the
carried result, the number of completed sets and the failed sets looked up so far.
An error leaves the function with the carried result. -/
def scanResults : List Json → AmvpResult → Nat → List String →
    Session (Except AmvpResult (AmvpResult × Nat × List String))
  | [], rv, completed, failedVs => return .ok (rv, completed, failedVs)
  | entry :: entries, rv, completed, failedVs => do
    let current := jsonValueGetObject (some entry)
    match jsonObjectGetString current "status" with
    | none => return .error rv
    | some status =>
      if status = "expired" ∨ status = "unreceived" then
        return .error rv
      else if status = "incomplete" then
        scanResults entries rv completed failedVs
      else if status = "fail" then
        match jsonObjectGetString current "vectorSetUrl" with
        | none => return .ok (rv, completed, failedVs)
        | some vsUrl =>
          if lookupStrList failedVs vsUrl then
            scanResults entries rv (completed + 1) failedVs
          else
            let rv ← retrieveVectorSet out (snprintf (amvpRequestStrLenMax + 1) vsUrl)
            let obj := getObjFromRsp (← getCtx).curlBuf
            -- the set counts as completed once its algorithm is known
            let named := rv = .success ∧ jsonObjectGetString obj "algorithm" ≠ none
            scanResults entries rv (if named then completed + 1 else completed)
              (appendStrList failedVs vsUrl)
      else
        scanResults entries rv (completed + 1) failedVs

/-- The second loop of {lit}`amvp_get_result_test_session`: a verbose log shows the details
of every failed set. -/
def reportFailed : List Json → AmvpResult → Session AmvpResult
  | [], rv => return rv
  | entry :: entries, rv => do
    let current := jsonValueGetObject (some entry)
    match jsonObjectGetString current "status" with
    | none => return rv
    | some status =>
      if (status = "fail" ∨ status = "error") ∧ (← getCtx).logVerbose then
        let rv ← retrieveVectorSetResult out (jsonObjectGetString current "vectorSetUrl")
        if rv ≠ .success then
          return rv
        else
          reportFailed entries rv
      else
        reportFailed entries rv

/-- The variables of the polling loop. -/
structure Polling where
  failedVs : List String
  waited : Nat
  interval : Int

/-- What a complete reply leads to: the session has passed, or its failures are
reported. -/
def finishResults (obj : JsonObject) (rv : AmvpResult) : Session AmvpResult :=
  if jsonObjectGetBoolean (some obj) "passed" = 1 then do
    modifyCtx fun ctx => { ctx with sessionPassed := true }
    return .success
  else
    reportFailed out (jsonArrayElems (jsonObjectGetArray (some obj) "results")) rv

/-- One round of the polling loop. -/
def resultRound (sessionUrl : Option String) (p : Polling) : Session (Polling ⊕ AmvpResult) := do
  let rv ← retrieveVectorSetResult out sessionUrl
  if rv ≠ .success then
    return .inr rv
  else
    match getObjFromRsp (← getCtx).curlBuf with
    | none => return .inr .jsonErr
    | some obj =>
      let results := jsonArrayElems (jsonObjectGetArray (some obj) "results")
      match ← scanResults out results .success 0 p.failedVs with
      | .error rv => return .inr rv
      | .ok (rv, completed, failedVs) =>
        if results.length ≤ completed then
          return .inr (← finishResults out obj rv)
        else
          match retryHandler p.interval p.waited 1 with
          | none => return .inr .transportFail
          | some (interval, waited) => return .inl ⟨failedVs, waited, interval⟩

/-! ## What a scan establishes -/

/-- The set of this result entry is complete. -/
def Completed (entry : Json) : Prop :=
  ∃ status, jsonObjectGetString (jsonValueGetObject (some entry)) "status" = some status ∧
    status ≠ "expired" ∧ status ≠ "unreceived" ∧ status ≠ "incomplete"

/-- A results reply in which all sets are complete and the session has passed. -/
def PassedBody (body : Option Json) : Prop :=
  ∃ obj, getObjFromRsp body = some obj ∧ jsonObjectGetBoolean (some obj) "passed" = 1 ∧
    ∀ entry ∈ jsonArrayElems (jsonObjectGetArray (some obj) "results"), Completed entry

variable {out}

theorem quietFrame_retrieveVectorSet (vsidUrl : String) :
    quietFrame.Keeps (retrieveVectorSet out vsidUrl) :=
  quietFrame_sendTo _ _ _ _ _ (by simp)

theorem quietFrame_retrieveVectorSetResult (apiUrl : Option String) :
    quietFrame.Keeps (retrieveVectorSetResult out apiUrl) :=
  quietFrame_sendTo _ _ _ _ _ (by simp)

/-- A scan is inside every frame that its lookups keep. -/
theorem keeps_scanResults {F : Frame World}
    (hget : ∀ url, F.Keeps (retrieveVectorSet out url)) (entries : List Json) (rv : AmvpResult)
    (completed : Nat) (failedVs : List String) :
    F.Keeps (scanResults out entries rv completed failedVs) := by
  induction entries generalizing rv completed failedVs with
  | nil => exact .pure _
  | cons entry entries ih =>
      rw [scanResults]
      dsimp only
      split
      · exact .pure _
      · refine .ite (.pure _) (.ite (ih _ _ _) (.ite ?_ (ih _ _ _)))
        split
        · exact .pure _
        · refine .ite (ih _ _ _) ?_
          exact .bind (hget _) fun rv => .bind (fun w => F.refl w) fun ctx => ih _ _ _

theorem quietFrame_scanResults (entries : List Json) (rv : AmvpResult) (completed : Nat)
    (failedVs : List String) :
    quietFrame.Keeps (scanResults out entries rv completed failedVs) :=
  keeps_scanResults quietFrame_retrieveVectorSet entries rv completed failedVs

/-- A report is inside every frame that its requests keep. -/
theorem keeps_reportFailed {F : Frame World}
    (hget : ∀ url, F.Keeps (retrieveVectorSetResult out url)) (entries : List Json)
    (rv : AmvpResult) : F.Keeps (reportFailed out entries rv) := by
  induction entries generalizing rv with
  | nil => exact .pure _
  | cons entry entries ih =>
      rw [reportFailed]
      split
      · exact .pure _
      · refine .bind (fun w => F.refl w) fun ctx => .ite ?_ (ih _)
        exact .bind (hget _) fun rv => .ite (.pure _) (ih _)

theorem quietFrame_reportFailed (entries : List Json) (rv : AmvpResult) :
    quietFrame.Keeps (reportFailed out entries rv) :=
  keeps_reportFailed quietFrame_retrieveVectorSetResult entries rv

/-- A scan counts every entry at most once, and it only counts completed sets. -/
theorem scanResults_completed {entries : List Json} {rv rv' : AmvpResult}
    {completed completed' : Nat} {failedVs failedVs' : List String} {w w' : World}
    (h : scanResults out entries rv completed failedVs w =
      (.ok (rv', completed', failedVs'), w')) :
    completed' ≤ completed + entries.length ∧
      (completed + entries.length ≤ completed' → ∀ entry ∈ entries, Completed entry) := by
  induction entries generalizing rv completed failedVs w with
  | nil =>
      obtain ⟨h, -⟩ := Prod.mk.inj h
      obtain ⟨-, rfl, -⟩ : rv = rv' ∧ completed = completed' ∧ failedVs = failedVs' := by
        simpa using h
      simp
  | cons entry entries ih =>
      rw [scanResults] at h
      dsimp only at h
      cases hstatus : jsonObjectGetString (jsonValueGetObject (some entry)) "status" with
      | none =>
          rw [hstatus] at h
          cases (Prod.mk.inj h).1
      | some status =>
          rw [hstatus] at h
          dsimp only at h
          by_cases hgone : status = "expired" ∨ status = "unreceived"
          · rw [if_pos hgone] at h
            cases (Prod.mk.inj h).1
          rw [if_neg hgone] at h
          by_cases hincomplete : status = "incomplete"
          · rw [if_pos hincomplete] at h
            have hrest := (ih h).1
            simp only [List.length_cons]
            omega
          rw [if_neg hincomplete] at h
          have hcompleted : Completed entry :=
            ⟨status, hstatus, fun h => hgone (.inl h), fun h => hgone (.inr h), hincomplete⟩
          have hcount : ∀ {rv₁ n failed₁ w₁}, n ≤ completed + 1 →
              scanResults out entries rv₁ n failed₁ w₁ = (.ok (rv', completed', failedVs'), w') →
              completed' ≤ completed + (entry :: entries).length ∧
                (completed + (entry :: entries).length ≤ completed' →
                  ∀ e ∈ entry :: entries, Completed e) := by
            intro rv₁ n failed₁ w₁ hn hscan
            obtain ⟨hle, hall⟩ := ih hscan
            simp only [List.length_cons]
            refine ⟨by omega, fun hlen e he => ?_⟩
            rcases List.mem_cons.mp he with rfl | he
            · exact hcompleted
            · exact hall (by omega) e he
          by_cases hfail : status = "fail"
          · rw [if_pos hfail] at h
            cases hurl : jsonObjectGetString (jsonValueGetObject (some entry))
              "vectorSetUrl" with
            | none =>
                rw [hurl] at h
                obtain ⟨h, -⟩ := Prod.mk.inj h
                obtain ⟨-, rfl, -⟩ :
                    rv = rv' ∧ completed = completed' ∧ failedVs = failedVs' := by
                  simpa using h
                simp
            | some vsUrl =>
                rw [hurl] at h
                dsimp only at h
                by_cases hknown : lookupStrList failedVs vsUrl
                · rw [if_pos hknown] at h
                  exact hcount le_rfl h
                · rw [if_neg hknown, Prog.bind_apply, getCtx_bind] at h
                  refine hcount ?_ h
                  split <;> omega
          · rw [if_neg hfail] at h
            exact hcount le_rfl h

/-! ## The polling loop -/

variable (out)

/-- A results reply of this session came in that is complete and passed. -/
def PassedReply (sessionUrl : Option String) (evs : List Event) : Prop :=
  ∃ url req reply, sessionUrl = some url ∧ .http req reply ∈ evs ∧
    req.api = .vectorSetResult url ∧ PassedBody reply.body

/-- Every way a round of the polling loop can end: quietly, with a wait, or by marking
the session as passed. -/
theorem resultRound_cases (sessionUrl : Option String) (p : Polling) (w : World) :
    ∃ w₁, quietFrame.rel w w₁ ∧
      ((∃ rv, resultRound out sessionUrl p w = (.inr rv, w₁)) ∨
      (∃ p', timeLeft p'.waited < timeLeft p.waited ∧
        resultRound out sessionUrl p w = (.inl p', w₁)) ∨
      (PassedReply sessionUrl (EventLog.since w.log w₁.log) ∧
        resultRound out sessionUrl p w =
          (.inr .success, { w₁ with ctx := { w₁.ctx with sessionPassed := true } }))) := by
  obtain ⟨⟨rv, w₁⟩, hget⟩ : ∃ q, retrieveVectorSetResult out sessionUrl w = q := ⟨_, rfl⟩
  have hquiet : quietFrame.rel w w₁ := by
    have hkeeps := @quietFrame_retrieveVectorSetResult out sessionUrl w
    rw [hget] at hkeeps
    exact hkeeps
  rw [resultRound, Prog.bind_of_eq hget]
  by_cases hrv : rv = .success
  swap
  · rw [if_pos hrv]
    exact ⟨w₁, hquiet, .inl ⟨rv, rfl⟩⟩
  subst hrv
  rw [if_neg (by simp), getCtx_bind]
  cases hobj : getObjFromRsp w₁.ctx.curlBuf with
  | none => exact ⟨w₁, hquiet, .inl ⟨.jsonErr, rfl⟩⟩
  | some obj =>
      dsimp only
      obtain ⟨⟨res, w₂⟩, hscan⟩ : ∃ q, scanResults out
        (jsonArrayElems (jsonObjectGetArray (some obj) "results")) .success 0 p.failedVs w₁ = q :=
        ⟨_, rfl⟩
      have hkeeps := @quietFrame_scanResults out
        (jsonArrayElems (jsonObjectGetArray (some obj) "results")) .success 0 p.failedVs w₁
      rw [hscan] at hkeeps
      have hquiet₂ : quietFrame.rel w w₂ := quietFrame.trans hquiet hkeeps
      rw [Prog.bind_of_eq hscan]
      cases res with
      | error rv => exact ⟨w₂, hquiet₂, .inl ⟨rv, rfl⟩⟩
      | ok res =>
          obtain ⟨rv, completed, failedVs⟩ := res
          dsimp only
          by_cases hdone : (jsonArrayElems (jsonObjectGetArray (some obj) "results")).length ≤
              completed
          · rw [if_pos hdone]
            by_cases hpassed : jsonObjectGetBoolean (some obj) "passed" = 1
            · refine ⟨w₂, hquiet₂, .inr (.inr ⟨?_, ?_⟩)⟩
              · obtain ⟨url, req, reply, hurl, hmem, hapi, hbody⟩ := sendTo_success_own hget
                obtain ⟨-, evs, hlog, -⟩ := hquiet
                obtain ⟨-, evs', hlog', -⟩ := hkeeps
                refine ⟨url, req, reply, hurl, ?_, hapi, obj, by rw [hbody, hobj], hpassed,
                  (scanResults_completed hscan).2 (by simpa using hdone)⟩
                rw [hlog, EventLog.since_append] at hmem
                dsimp only at hlog'
                simp [hlog', hlog, hmem]
              · rw [finishResults, if_pos hpassed]
                rfl
            · have hreport := @quietFrame_reportFailed out
                (jsonArrayElems (jsonObjectGetArray (some obj) "results")) rv w₂
              refine ⟨_, quietFrame.trans hquiet₂ hreport, .inl ⟨(reportFailed out
                (jsonArrayElems (jsonObjectGetArray (some obj) "results")) rv w₂).1, ?_⟩⟩
              rw [finishResults, if_neg hpassed]
              rfl
          · rw [if_neg hdone]
            cases hwait : retryHandler p.interval p.waited 1 with
            | none => exact ⟨w₂, hquiet₂, .inl ⟨.transportFail, rfl⟩⟩
            | some next =>
                exact ⟨w₂, hquiet₂, .inr (.inl ⟨⟨failedVs, next.2, next.1⟩,
                  retryHandler_timeLeft hwait, rfl⟩)⟩

theorem resultRound_decreases (sessionUrl : Option String) :
    Prog.Decreases (fun p => timeLeft p.waited) (resultRound out sessionUrl) := by
  intro p w p' h
  obtain ⟨w₁, -, ⟨rv, hround⟩ | ⟨next, hlt, hround⟩ | ⟨-, hround⟩⟩ :=
    resultRound_cases out sessionUrl p w
  · simp [hround] at h
  · obtain rfl : next = p' := by simpa [hround] using h
    exact hlt
  · simp [hround] at h

/-- {lit}`amvp_get_result_test_session`. -/
def getResultTestSession (sessionUrl : Option String) : Session AmvpResult :=
  Prog.loop (fun p : Polling => timeLeft p.waited) (resultRound out sessionUrl)
    (resultRound_decreases out sessionUrl) ⟨[], 0, amvpRetryTime⟩

/-- The polling loop is quiet, except that it may mark the session as passed after a
reply that is complete and passed. -/
theorem getResultTestSession_cases (sessionUrl : Option String) (w : World) :
    ∃ w₁, quietFrame.rel w w₁ ∧
      ((∃ rv, getResultTestSession out sessionUrl w = (rv, w₁)) ∨
      (PassedReply sessionUrl (EventLog.since w.log w₁.log) ∧
        getResultTestSession out sessionUrl w =
          (.success, { w₁ with ctx := { w₁.ctx with sessionPassed := true } }))) := by
  let motive : Polling → World → AmvpResult × World → Prop := fun _ w r =>
    ∃ w₁, quietFrame.rel w w₁ ∧
      ((∃ rv, r = (rv, w₁)) ∨
      (PassedReply sessionUrl (EventLog.since w.log w₁.log) ∧
        r = (.success, { w₁ with ctx := { w₁.ctx with sessionPassed := true } })))
  refine Prog.loop_induction (resultRound_decreases out sessionUrl) (motive := motive) ?_ ?_ _ w
  · intro p w rv h
    obtain ⟨w₁, hquiet, ⟨rv', hround⟩ | ⟨next, -, hround⟩ | ⟨hpassed, hround⟩⟩ :=
      resultRound_cases out sessionUrl p w
    · exact ⟨w₁, hquiet, .inl ⟨rv, by rw [hround]⟩⟩
    · simp [hround] at h
    · obtain rfl : AmvpResult.success = rv := by simpa [hround] using h
      exact ⟨w₁, hquiet, .inr ⟨hpassed, by rw [hround]⟩⟩
  · intro p w p' r h hrest
    obtain ⟨w₁, hquiet, ⟨rv', hround⟩ | ⟨next, -, hround⟩ | ⟨hpassed, hround⟩⟩ :=
      resultRound_cases out sessionUrl p w
    · simp [hround] at h
    · rw [hround] at hrest
      obtain ⟨w₂, hquiet₂, hend⟩ := hrest
      refine ⟨w₂, quietFrame.trans hquiet hquiet₂, ?_⟩
      rcases hend with hend | ⟨⟨url, req, reply, hurl, hmem, hapi, hbody⟩, hend⟩
      · exact .inl hend
      · refine .inr ⟨⟨url, req, reply, hurl, ?_, hapi, hbody⟩, hend⟩
        obtain ⟨-, evs, hlog, -⟩ := hquiet
        obtain ⟨-, evs', hlog', -⟩ := hquiet₂
        rw [hlog', EventLog.since_append] at hmem
        simp [hlog', hlog, hmem]
    · simp [hround] at h

/-- {lit}`amvp_check_test_results`. -/
def checkTestResults : Session AmvpResult := do
  getResultTestSession out (← getCtx).sessionUrl

/-! ## Validation -/

/-- The session info file, with the URL of the validation request added to it. -/
def withValidationUrl (file : Option Json) (url : String) : Option Json :=
  match jsonArrayGetObject (jsonValueGetArray file) 0 with
  | none => none
  | some ts =>
    if (jsonObjectGetString (some ts) "url").isNone then none
    else some (.obj (jsonObjectSetString ts "validationRequestUrl" (some url)))

/-- {lit}`amvp_parse_validation`: read the reply to a validation and note its request URL in
the session info file, when there is one. -/
def parseValidation : Session AmvpResult := do
  let w ← Prog.read
  let obj := getObjFromRsp w.ctx.curlBuf
  match jsonObjectGetString obj "url" with
  | none => return .jsonErr
  | some url =>
    if (jsonObjectGetString obj "status").isNone then
      return .jsonErr
    else
      match withValidationUrl (jsonParseFile w.ctx.sessionFilePath w) url with
      | none => return .success
      | some ts =>
        let rv ← jsonSerializeToFilePrettyW out (some ts) w.ctx.sessionFilePath
        if rv ≠ .success then
          return rv
        else
          let _ ← jsonSerializeToFilePrettyA out none w.ctx.sessionFilePath
          return .success

/-- {lit}`amvp_validate_test_session`: only a passed session is sent for validation, and
leaving it out is no error. -/
def validateTestSession : Session AmvpResult := do
  let ctx ← getCtx
  if ctx.sessionPassed = false then
    return .success
  else
    let (rv, validation) := out.buildValidation ctx
    if rv ≠ .success then
      return rv
    else
      let rv ← transportPutValidation out validation
      if rv ≠ .success then
        return rv
      else
        parseValidation out

/-- The validation {lit}`amvp_cert_req` sends. -/
def certValidation : Json :=
  .arr [.obj [("implementationUrls",
    .arr [.str "/acvp/v1/1234", .str "/esv/v1/5678", .str "amv/v1/13780"])]]

/-- {lit}`amvp_cert_req`: download the documents and, for a certificate request, send the
validation without looking at the outcome of the session. -/
def certReq : Session AmvpResult := do
  let rv ← retrieveDocs out (← getCtx).sessionUrl
  if rv ≠ .success then
    return rv
  else
    let ctx ← getCtx
    if ctx.curlBuf = none then
      return .jsonErr
    else if getObjFromRsp ctx.curlBuf = none then
      return .malformedJson
    else if ctx.modCertReq then
      let rv ← transportPutValidation out (some certValidation)
      if rv ≠ .success then
        return rv
      else
        parseValidation out
    else
      return rv

/-! ## Metadata -/

/-- Ask the server the questions of the metadata verification. -/
def askQueries : Queries → Session AmvpResult
  | .done rv => return rv
  | .ask url next => do
    let rv ← transportGet out (some url)
    askQueries (next rv (← getCtx).curlBuf)

/-- {lit}`amvp_verify_fips_validation_metadata`. -/
def verifyFipsValidationMetadata : Session AmvpResult := do
  askQueries out (out.metadataQueries (← getCtx))

end Results

end LibAmvp
