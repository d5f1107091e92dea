import LibAmvp.Session.Offline

/-!
# Resuming a session

A session that is resumed asks for its results first and then processes the sets that the
server has not received an answer to.  When the sets are only saved to a file, all of them
are taken.  The event log tells which sets were asked for, received and submitted.

Main results:

- Theorem {lit}`processUrls_events`: the log of the sets at a list of URLs, one after the other
  and up to the first that fails.
- Theorem {lit}`SetsEvents.urls`: which sets such a log shows as received and submitted.
- Theorem {lit}`resumeTestSession_unfinished`: what is processed, and when nothing is.
-/

namespace LibAmvp

open EventLog

section Resume

variable (out : Outside)

/-! ## The two halves of a resumed session -/

/-- The part of {lit}`amvp_resume_test_session` in front of the loop over the results. -/
def resumeUpToResults (filename : Option String) (fipsValidation : Bool) :
    Session (Except AmvpResult (List Json)) := do
  let rv ← parseSessionInfoFile filename
  if rv ≠ .success then
    return .error rv
  else
    let rv ← refresh out
    if rv ≠ .success then
      return .error rv
    else
      let ctx ← getCtx
      let rv ← retrieveVectorSetResult out ctx.sessionUrl
      if rv ≠ .success then
        return .error rv
      else
        match getObjFromRsp (← getCtx).curlBuf with
        | none => return .error .jsonErr
        | some obj =>
          let rv ← metadataStep out fipsValidation
          if rv ≠ .success then
            return .error .unsupportedOp
          else
            modifyCtx fun ctx => { ctx with doValidation := fipsValidation }
            match jsonObjectGetArray (some obj) "results" with
            | none => return .error .jsonErr
            | some results => return .ok results

/-- The part of {lit}`amvp_resume_test_session` from the loop over the results on. -/
def resumeFromResults (results : List Json) (fipsValidation : Bool) : Session AmvpResult := do
  let ctx ← getCtx
  let (rv, urls) := resumeScan ctx.vectorReq results []
  appendVsidUrls urls
  if rv ≠ .success then
    return rv
  else
    let ctx ← getCtx
    if ctx.vsidUrlList = [] then
      return .success
    else
      resumeTests out fipsValidation

/-- A session that reaches the loop over the results goes on from there. -/
theorem resumeTestSession_of_reached {filename : Option String} {fipsValidation : Bool}
    {w w' : World} {results : List Json}
    (h : resumeUpToResults out filename fipsValidation w = (.ok results, w')) :
    resumeTestSession out filename fipsValidation w =
      resumeFromResults out results fipsValidation w' := by
  unfold resumeUpToResults at h
  unfold resumeTestSession
  obtain ⟨⟨rv, w₁⟩, hfile⟩ : ∃ r, parseSessionInfoFile filename w = r := ⟨_, rfl⟩
  rw [Prog.bind_of_eq hfile] at h ⊢
  by_cases hrv : rv = .success
  swap
  · rw [if_pos hrv] at h
    cases h
  rw [if_neg (not_not.mpr hrv)] at h ⊢
  obtain ⟨⟨rv₂, w₂⟩, hrefresh⟩ : ∃ r, refresh out w₁ = r := ⟨_, rfl⟩
  rw [Prog.bind_of_eq hrefresh] at h ⊢
  by_cases hrv₂ : rv₂ = .success
  swap
  · rw [if_pos hrv₂] at h
    cases h
  rw [if_neg (not_not.mpr hrv₂), getCtx_bind] at h ⊢
  obtain ⟨⟨rv₃, w₃⟩, hget⟩ : ∃ r, retrieveVectorSetResult out w₂.ctx.sessionUrl w₂ = r := ⟨_, rfl⟩
  rw [Prog.bind_of_eq hget] at h ⊢
  by_cases hrv₃ : rv₃ = .success
  swap
  · rw [if_pos hrv₃] at h
    cases h
  rw [if_neg (not_not.mpr hrv₃), getCtx_bind] at h ⊢
  cases hobj : getObjFromRsp w₃.ctx.curlBuf with
  | none =>
      rw [hobj] at h
      cases h
  | some obj =>
      rw [hobj] at h
      dsimp only at h ⊢
      unfold resumeResults
      obtain ⟨⟨rv₄, w₄⟩, hmeta⟩ : ∃ r, metadataStep out fipsValidation w₃ = r := ⟨_, rfl⟩
      rw [Prog.bind_of_eq hmeta] at h ⊢
      by_cases hrv₄ : rv₄ = .success
      swap
      · rw [if_pos hrv₄] at h
        cases h
      rw [if_neg (not_not.mpr hrv₄), modifyCtx_bind] at h ⊢
      cases hresults : jsonObjectGetArray (some obj) "results" with
      | none =>
          rw [hresults] at h
          cases h
      | some results' =>
          rw [hresults] at h
          cases h
          rfl

/-! ## What is left alone before the results -/

/-- An event that neither retrieves a vector set, nor submits or validates anything. -/
def Event.Idle : Event → Prop
  | .http req _ => ∀ url, req.api ≠ .vectorSet url ∧ req.api ≠ .vectorResponses url ∧
      req.api ≠ .putValidation url
  | .submit _ _ => False
  | .retrieved _ _ => False
  | _ => True

/-- The frame of the parts that keep the list of URLs and work on no set. -/
def idleFrame : Frame World := frameOf (fun ctx => ctx.vsidUrlList) Event.Idle

variable {out}

/-- The traffic of other requests is idle. -/
theorem NetEvent.idle {api : Api}
    (hapi : ∀ url, api ≠ .vectorSet url ∧ api ≠ .vectorResponses url ∧ api ≠ .putValidation url)
    {e : Event} (h : NetEvent api e) : e.Idle := by
  cases e with
  | http req reply =>
      intro url
      rcases h with h | h
      · rw [h]
        exact hapi url
      · rw [h]
        simp
  | refreshed rv => trivial
  | _ => exact h.elim

/-- A request that is no set, response or validation keeps the list of URLs. -/
theorem idleFrame_sendTo (limit : Nat) {api : String → Api} (action : NetAction)
    (path : Option String) (tail : String) (data : Option Json)
    (hapi : ∀ p url, api p ≠ .vectorSet url ∧ api p ≠ .vectorResponses url ∧
      api p ≠ .putValidation url) :
    idleFrame.Keeps (sendTo out limit api action path tail data) :=
  frameOf_sendTo (fun _ _ _ => rfl) limit (fun p _ => NetEvent.idle (hapi p)) action path tail data

/-- So does setting the session URL. -/
theorem idleFrame_setSessionUrl (url : String) : idleFrame.Keeps (setSessionUrl url) :=
  .bind (frameOf_modifyCtx fun _ => rfl) fun _ => frameOf_mark trivial

/-- And reading the token. -/
theorem idleFrame_readTokenAndSample (obj : JsonObject) (jwt : String) :
    idleFrame.Keeps (readTokenAndSample obj jwt) :=
  .bind (frameOf_modifyCtx fun _ => rfl) fun _ => frameOf_modifyCtx fun _ => rfl

/-- And reading the session file. -/
theorem idleFrame_parseSessionInfoFile (filename : Option String) :
    idleFrame.Keeps (parseSessionInfoFile filename) :=
  frameOf_parseSessionInfoFile idleFrame_setSessionUrl idleFrame_readTokenAndSample filename

/-- No set is worked on before the results are reached, and the list of URLs is still the
old one. -/
theorem idleFrame_resumeUpToResults (filename : Option String) (fipsValidation : Bool) :
    idleFrame.Keeps (resumeUpToResults out filename fipsValidation) := by
  refine .bind (idleFrame_parseSessionInfoFile filename) fun rv => .ite (.pure _) ?_
  have hrefresh : idleFrame.Keeps (refresh out) := fun w =>
    frameOf_of_netFrame (fun _ _ _ => rfl) (fun _ => NetEvent.idle (by simp))
      (netFrame_login .login true w)
  refine .bind hrefresh fun rv => .ite (.pure _) ?_
  refine .bind frameOf_getCtx fun ctx => .bind (idleFrame_sendTo _ _ _ _ _ (by simp)) fun rv =>
    .ite (.pure _) ?_
  refine .bind frameOf_getCtx fun ctx => ?_
  split
  · exact .pure _
  · have hmeta : idleFrame.Keeps (metadataStep out fipsValidation) := by
      refine .ite (.bind frameOf_getCtx fun _ => ?_) (.pure _)
      exact frameOf_askQueries (fun _ _ _ => rfl) (fun _ _ => NetEvent.idle (by simp)) _
    refine .bind hmeta fun rv => .ite (.pure _) (.bind (frameOf_modifyCtx fun _ => rfl) fun _ => ?_)
    split
    · exact .pure _
    · exact .pure _

/-! ## The loop over the results -/

/-- The status of a result. -/
def statusOf (entry : Json) : Option String :=
  jsonObjectGetString (jsonValueGetObject (some entry)) "status"

/-- The URL of a result. -/
def setUrlOf (entry : Json) : Option String :=
  jsonObjectGetString (jsonValueGetObject (some entry)) "vectorSetUrl"

/-- The result has a status and a URL. -/
def WellFormedResult (entry : Json) : Prop := statusOf entry ≠ none ∧ setUrlOf entry ≠ none

instance (entry : Json) : Decidable (WellFormedResult entry) :=
  inferInstanceAs (Decidable (_ ∧ _))

/-- The URL of a result as {lit}`amvp_append_vsid_url` stores it. -/
def storedUrl (entry : Json) : String := strcpyS (amvpAttrUrlMax + 1) ((setUrlOf entry).getD "")

/-- The results whose sets have not been answered. -/
def unreceived (results : List Json) : List Json :=
  results.filter fun entry => decide (statusOf entry = some "unreceived")

/-- An entry is kept when its set was not received. -/
theorem unreceived_cons (entry : Json) (results : List Json) :
    unreceived (entry :: results) =
      if statusOf entry = some "unreceived" then entry :: unreceived results
      else unreceived results := by
  unfold unreceived
  rw [List.filter_cons]
  by_cases h : statusOf entry = some "unreceived"
  · simp [h]
  · simp [h]

/-- One step of the loop at a result with a status and a URL. -/
theorem resumeScan_cons {vectorReq : Bool} {entry : Json} {status url : String}
    (hstatus : statusOf entry = some status) (hurl : setUrlOf entry = some url)
    (entries : List Json) (urls : List String) :
    resumeScan vectorReq (entry :: entries) urls =
      if vectorReq then resumeScan vectorReq entries (urls ++ [storedUrl entry])
      else if status = "expired" then (.invalidArg, urls)
      else if status = "unreceived" then resumeScan vectorReq entries (urls ++ [storedUrl entry])
      else resumeScan vectorReq entries urls := by
  unfold statusOf at hstatus
  have hstored : storedUrl entry = strcpyS (amvpAttrUrlMax + 1) url := by
    unfold storedUrl
    rw [hurl]
    rfl
  unfold setUrlOf at hurl
  rw [hstored, resumeScan, hstatus, hurl]

/-- One step of the loop at any other result. -/
theorem resumeScan_malformed {entry : Json} (h : ¬WellFormedResult entry) (vectorReq : Bool)
    (entries : List Json) (urls : List String) :
    resumeScan vectorReq (entry :: entries) urls = (.jsonErr, urls) := by
  rw [resumeScan]
  dsimp only
  split
  · next status url hstatus hurl =>
      refine absurd ⟨?_, ?_⟩ h
      · simp [statusOf, hstatus]
      · simp [setUrlOf, hurl]
  · rfl

/-- When the sets are only saved, all of them are taken. -/
theorem resumeScan_vectorReq {results : List Json} (h : ∀ entry ∈ results, WellFormedResult entry)
    (urls : List String) :
    resumeScan true results urls = (.success, urls ++ results.map storedUrl) := by
  induction results generalizing urls with
  | nil => simp [resumeScan]
  | cons entry results ih =>
      have hentry : WellFormedResult entry := h entry (by simp)
      have hrest : ∀ e ∈ results, WellFormedResult e := fun e he => h e (by simp [he])
      obtain ⟨status, hstatus⟩ := Option.ne_none_iff_exists'.mp hentry.1
      obtain ⟨url, hurl⟩ := Option.ne_none_iff_exists'.mp hentry.2
      rw [resumeScan_cons hstatus hurl, if_pos rfl, ih hrest]
      simp

/-- Otherwise the unreceived ones are taken, in order. -/
theorem resumeScan_unreceived {results : List Json}
    (h : ∀ entry ∈ results, WellFormedResult entry ∧ statusOf entry ≠ some "expired")
    (urls : List String) :
    resumeScan false results urls = (.success, urls ++ (unreceived results).map storedUrl) := by
  induction results generalizing urls with
  | nil => simp [resumeScan, unreceived]
  | cons entry results ih =>
      have hentry := h entry (by simp)
      have hrest : ∀ e ∈ results, WellFormedResult e ∧ statusOf e ≠ some "expired" :=
        fun e he => h e (by simp [he])
      obtain ⟨status, hstatus⟩ := Option.ne_none_iff_exists'.mp hentry.1.1
      obtain ⟨url, hurl⟩ := Option.ne_none_iff_exists'.mp hentry.1.2
      have hexpired : status ≠ "expired" := by
        intro heq
        apply hentry.2
        rw [hstatus, heq]
      rw [resumeScan_cons hstatus hurl, if_neg (by simp), if_neg hexpired, unreceived_cons, hstatus]
      by_cases hunreceived : status = "unreceived"
      · rw [if_pos hunreceived, ih hrest, if_pos (by rw [hunreceived])]
        simp
      · rw [if_neg hunreceived, ih hrest, if_neg (by simpa using hunreceived)]

/-- The loop fails at the first malformed or expired result, wherever it stands. -/
theorem resumeScan_fails {results : List Json}
    (h : ∃ entry ∈ results, ¬WellFormedResult entry ∨ statusOf entry = some "expired")
    (urls : List String) : (resumeScan false results urls).1 ≠ .success := by
  induction results generalizing urls with
  | nil => simp at h
  | cons entry results ih =>
      by_cases hentry : WellFormedResult entry
      swap
      · rw [resumeScan_malformed hentry]
        simp
      obtain ⟨status, hstatus⟩ := Option.ne_none_iff_exists'.mp hentry.1
      obtain ⟨url, hurl⟩ := Option.ne_none_iff_exists'.mp hentry.2
      rw [resumeScan_cons hstatus hurl, if_neg (by simp)]
      by_cases hexpired : status = "expired"
      · rw [if_pos hexpired]
        simp
      have hrest : ∃ e ∈ results, ¬WellFormedResult e ∨ statusOf e = some "expired" := by
        obtain ⟨e, he, hbad⟩ := h
        rcases List.mem_cons.mp he with rfl | he
        · rcases hbad with hbad | hbad
          · exact absurd hentry hbad
          · rw [hstatus] at hbad
            exact absurd (Option.some.inj hbad) hexpired
        · exact ⟨e, he, hbad⟩
      rw [if_neg hexpired]
      split
      · exact ih hrest _
      · exact ih hrest _

/-! ## What the log shows of the sets -/

variable (out)

/-- The log of one set: it is asked for until its body arrives, and the body is then saved, or
answered by its handler and the response submitted.  The result is that of the last of these
steps. -/
inductive SetEvents (vectorReq : Bool) (url : String) : List Event → AmvpResult → Prop
  | unavailable {asked : List Event} {rv : AmvpResult}
      (hasked : ∀ e ∈ asked, NetEvent (.vectorSet url) e) (hrv : rv ≠ .success) :
      SetEvents vectorReq url asked rv
  | saved {asked : List Event} {req : Request} {reply : Reply} {body : Json} {rv : AmvpResult}
      (hreq : vectorReq = true) (hasked : ∀ e ∈ asked, NetEvent (.vectorSet url) e)
      (hreply : .http req reply ∈ asked ∧ req.api = .vectorSet url ∧ reply.body = some body) :
      SetEvents vectorReq url (asked ++ [.retrieved url body]) rv
  | unanswered {asked : List Event} {req : Request} {reply : Reply} {body : Json}
      {rv : AmvpResult} (hreq : vectorReq = false)
      (hasked : ∀ e ∈ asked, NetEvent (.vectorSet url) e)
      (hreply : .http req reply ∈ asked ∧ req.api = .vectorSet url ∧ reply.body = some body)
      (hnone : handlerResponse out body = none) (hrv : rv ≠ .success) :
      SetEvents vectorReq url (asked ++ [.retrieved url body]) rv
  | submitted {asked posted : List Event} {req : Request} {reply : Reply} {body : Json}
      {katResp : Option Json} {rv : AmvpResult} (hreq : vectorReq = false)
      (hasked : ∀ e ∈ asked, NetEvent (.vectorSet url) e)
      (hreply : .http req reply ∈ asked ∧ req.api = .vectorSet url ∧ reply.body = some body)
      (hresponse : ∀ r, handlerResponse out body = some r → katResp = some (.arr [r]))
      (hposted : ∀ e ∈ posted, NetEvent (.vectorResponses url) e) :
      SetEvents vectorReq url (asked ++ .retrieved url body :: .submit url katResp :: posted) rv

/-- The log of the sets at a list of URLs: one after the other, up to the first that fails. -/
inductive SetsEvents (vectorReq : Bool) : List String → List Event → AmvpResult → Prop
  | none : SetsEvents vectorReq [] [] .success
  | failed {url : String} {urls : List String} {evs : List Event} {rv : AmvpResult}
      (hset : SetEvents out vectorReq url evs rv) (hrv : rv ≠ .success) :
      SetsEvents vectorReq (url :: urls) evs rv
  | next {url : String} {urls : List String} {evs evs' : List Event} {rv : AmvpResult}
      (hset : SetEvents out vectorReq url evs .success)
      (hrest : SetsEvents vectorReq urls evs' rv) :
      SetsEvents vectorReq (url :: urls) (evs ++ evs') rv

variable {out}

/-- The frame of the parts that log nothing. -/
def logFrame : Frame World := Frame.same World.log

/-- Processing a set logs nothing. -/
theorem logFrame_dispatchVectorSet (obj : Option JsonObject) :
    logFrame.Keeps (dispatchVectorSet out obj) :=
  keeps_dispatchVectorSet (fun _ _ => rfl) (fun _ _ => rfl) obj

/-- Writing a file logs nothing. -/
theorem logFrame_jsonSerializeToFilePrettyW (value : Option Json) (filename : Option String) :
    logFrame.Keeps (jsonSerializeToFilePrettyW out value filename) := by
  cases value with
  | none => exact .pure _
  | some v =>
      cases filename with
      | none => exact .pure _
      | some f => exact .ite (.bind (fun _ => rfl) fun _ => .pure _) (.pure _)

/-- Nor does appending to one. -/
theorem logFrame_jsonSerializeToFilePrettyA (value : Option Json) (filename : Option String) :
    logFrame.Keeps (jsonSerializeToFilePrettyA out value filename) := by
  cases filename with
  | none => exact .pure _
  | some f => exact .ite (.bind (fun _ => rfl) fun _ => .pure _) (.pure _)

/-- Nor does saving a set. -/
theorem logFrame_saveSet (kind : SetKind) (val : Json) (count : Nat) :
    logFrame.Keeps (saveSet out kind val count) :=
  keeps_saveSet logFrame_jsonSerializeToFilePrettyW logFrame_jsonSerializeToFilePrettyA kind val
    count

/-- A submission logs itself and the requests that it makes. -/
theorem submitVectorResponses_log (url : String) (w : World) :
    ∃ posted, (submitVectorResponses out url w).2.log =
        w.log ++ .submit url w.ctx.katResp :: posted ∧
      ∀ e ∈ posted, NetEvent (.vectorResponses url) e := by
  rw [submitVectorResponses, getCtx_bind, mark_bind]
  obtain ⟨-, -, posted, hlog, hposted⟩ := @netFrame_sendTo out (amvpAttrUrlMax - 1)
    .vectorResponses .postVsResp url "/results" none
    { w with log := w.log ++ [.submit url w.ctx.katResp] }
  exact ⟨posted, by rw [hlog, List.append_assoc]; rfl, hposted⟩

/-- One set is worked on. -/
theorem processVsid_events (url : String) (count : Nat) (w : World) :
    ∃ evs, (processVsid out url count w).2.log = w.log ++ evs ∧
      SetEvents out w.ctx.vectorReq url evs (processVsid out url count w).1 := by
  obtain ⟨w₁, ⟨hctx, -, asked, hlog, hasked⟩, ⟨rv, hrv, hend⟩ |
      ⟨body, ⟨-, req, reply, hmem, hown⟩, hend⟩⟩ :=
    processSet_cases out (vsidKind out) url count w
  · rw [processVsid, hend]
    exact ⟨asked, hlog, .unavailable hasked hrv⟩
  rw [hlog, since_append] at hmem
  have hreply := And.intro hmem hown
  have hreq : w₁.ctx.vectorReq = w.ctx.vectorReq := by rw [hctx]
  rw [processVsid, hend, acceptSet, mark_bind, getCtx_bind, hreq, Prog.ite_apply]
  by_cases hvectorReq : w.ctx.vectorReq = true
  · rw [if_pos hvectorReq]
    have hsaved := @logFrame_saveSet out (vsidKind out) body count
      { w₁ with log := w₁.log ++ [.retrieved url body] }
    refine ⟨asked ++ [.retrieved url body], ?_, .saved hvectorReq hasked hreply⟩
    rw [hsaved, hlog, List.append_assoc]
  rw [if_neg hvectorReq]
  replace hvectorReq : w.ctx.vectorReq = false := by simpa using hvectorReq
  have hlogged := @logFrame_dispatchVectorSet out (getObjFromRsp (some body))
    { w₁ with log := w₁.log ++ [.retrieved url body] }
  have hresponse : ∀ r, handlerResponse out body = some r → _ := fun r hr =>
    dispatchVectorSet_response hr { w₁ with log := w₁.log ++ [.retrieved url body] }
  obtain ⟨⟨rv, w₂⟩, hdispatch⟩ : ∃ p, dispatchVectorSet out (getObjFromRsp (some body))
    { w₁ with log := w₁.log ++ [.retrieved url body] } = p := ⟨_, rfl⟩
  rw [hdispatch] at hlogged hresponse
  change (vsidKind out).dispatch _ _ = _ at hdispatch
  rw [Prog.bind_of_eq hdispatch, Prog.ite_apply]
  by_cases hrv : rv = .success
  · rw [if_neg (not_not.mpr hrv)]
    obtain ⟨posted, hsubmit, hposted⟩ := @submitVectorResponses_log out url w₂
    refine ⟨asked ++ .retrieved url body :: .submit url w₂.ctx.katResp :: posted, ?_,
      .submitted hvectorReq hasked hreply (fun r hr => (hresponse r hr).2) hposted⟩
    rw [hsubmit, hlogged, hlog]
    simp
  · rw [if_pos hrv]
    have hnone : handlerResponse out body = none := by
      rw [Option.eq_none_iff_forall_not_mem]
      exact fun r hr => hrv (hresponse r hr).1
    refine ⟨asked ++ [.retrieved url body], ?_,
      .unanswered hvectorReq hasked hreply hnone hrv⟩
    change w₂.log = _
    rw [hlogged, hlog, List.append_assoc]

/-- The sets at a list of URLs are worked on, one after the other. -/
theorem processUrls_events (urls : List String) (count : Nat) (w : World) :
    ∃ evs, (processUrls (processVsid out) urls count w).2.log = w.log ++ evs ∧
      SetsEvents out w.ctx.vectorReq urls evs
        (processUrls (processVsid out) urls count w).1 := by
  induction urls generalizing count w with
  | nil => exact ⟨[], (List.append_nil _).symm, .none⟩
  | cons url urls ih =>
      obtain ⟨evs, hlog, hset⟩ := @processVsid_events out url count w
      have hkept := (@quietFrame_processSet out (vsidKind out) quietFrame_dispatchVectorSet url
        count w).1
      obtain ⟨⟨rv, w₁⟩, hprocess⟩ : ∃ p, processVsid out url count w = p := ⟨_, rfl⟩
      rw [hprocess] at hlog hset
      change Ctx.standing (processVsid out url count w).2.ctx = _ at hkept
      rw [hprocess] at hkept
      have hreq : w₁.ctx.vectorReq = w.ctx.vectorReq :=
        congrArg (fun standing => standing.1.vectorReq) hkept
      rw [processUrls, Prog.bind_of_eq hprocess, Prog.ite_apply]
      by_cases hrv : rv = .success
      · subst hrv
        rw [if_neg (by simp)]
        obtain ⟨evs', hlog', hrest⟩ := ih (count + 1) w₁
        rw [hreq] at hrest
        exact ⟨evs ++ evs', by rw [hlog', hlog, List.append_assoc], .next hset hrest⟩
      · rw [if_pos hrv]
        exact ⟨evs, hlog, .failed hset hrv⟩

/-- The sets that a log shows as received. -/
def receivedUrls (evs : List Event) : List String := (accepted evs).map Prod.fst

/-- The sets that a log shows as submitted. -/
def submittedUrls (evs : List Event) : List String := (submissions evs).map Prod.fst

/-- The traffic of a request contains no submission that was accepted. -/
theorem submittedUrls_of_netEvent {api : Api} {evs : List Event} (h : ∀ e ∈ evs, NetEvent api e) :
    submittedUrls evs = [] := by
  rw [submittedUrls, submissions, List.map_eq_nil_iff, List.filterMap_eq_nil_iff]
  intro e he
  cases e with
  | submit url katResp => exact absurd (h _ he) (by simp [NetEvent])
  | _ => rfl

/-- Nor does it contain a set that was accepted. -/
theorem receivedUrls_of_netEvent {api : Api} {evs : List Event} (h : ∀ e ∈ evs, NetEvent api e) :
    receivedUrls evs = [] := by
  rw [receivedUrls, accepted_of_netEvent h]
  rfl

/-- The sets of two parts of a log, one after the other. -/
@[simp]
theorem receivedUrls_append (evs evs' : List Event) :
    receivedUrls (evs ++ evs') = receivedUrls evs ++ receivedUrls evs' := by
  simp [receivedUrls]

/-- The submissions of two parts of a log, one after the other. -/
@[simp]
theorem submittedUrls_append (evs evs' : List Event) :
    submittedUrls (evs ++ evs') = submittedUrls evs ++ submittedUrls evs' := by
  simp [submittedUrls, submissions]

/-- The sets of a log, its first event apart. -/
theorem receivedUrls_cons (e : Event) (evs : List Event) :
    receivedUrls (e :: evs) = receivedUrls [e] ++ receivedUrls evs :=
  receivedUrls_append [e] evs

/-- The submissions of a log, its first event apart. -/
theorem submittedUrls_cons (e : Event) (evs : List Event) :
    submittedUrls (e :: evs) = submittedUrls [e] ++ submittedUrls evs :=
  submittedUrls_append [e] evs

/-- The sets that are submitted: those that are not only saved. -/
def toSubmit (vectorReq : Bool) (urls : List String) : List String := if vectorReq then [] else urls

/-- A set is received and submitted at most once, and exactly once when it succeeds. -/
theorem SetEvents.urls {vectorReq : Bool} {url : String} {evs : List Event} {rv : AmvpResult}
    (h : SetEvents out vectorReq url evs rv) :
    (receivedUrls evs <+: [url] ∧ submittedUrls evs <+: toSubmit vectorReq [url]) ∧
      (rv = .success → receivedUrls evs = [url] ∧ submittedUrls evs = toSubmit vectorReq [url]) := by
  cases h with
  | unavailable hasked hrv =>
      rw [receivedUrls_of_netEvent hasked, submittedUrls_of_netEvent hasked]
      exact ⟨⟨List.nil_prefix, List.nil_prefix⟩, fun h => absurd h hrv⟩
  | saved hreq hasked hreply =>
      rw [receivedUrls_append, submittedUrls_append, receivedUrls_of_netEvent hasked,
        submittedUrls_of_netEvent hasked, hreq]
      exact ⟨⟨List.prefix_rfl, List.nil_prefix⟩, fun _ => ⟨rfl, rfl⟩⟩
  | unanswered hreq hasked hreply hnone hrv =>
      rw [receivedUrls_append, submittedUrls_append, receivedUrls_of_netEvent hasked,
        submittedUrls_of_netEvent hasked]
      exact ⟨⟨List.prefix_rfl, List.nil_prefix⟩, fun h => absurd h hrv⟩
  | submitted hreq hasked hreply hresponse hposted =>
      rw [receivedUrls_append, submittedUrls_append, receivedUrls_cons, submittedUrls_cons,
        receivedUrls_cons (.submit _ _), submittedUrls_cons (.submit _ _),
        receivedUrls_of_netEvent hasked, submittedUrls_of_netEvent hasked,
        receivedUrls_of_netEvent hposted, submittedUrls_of_netEvent hposted, hreq]
      exact ⟨⟨List.prefix_rfl, List.prefix_rfl⟩, fun _ => ⟨rfl, rfl⟩⟩

/-- The sets are received and submitted in the order of the list, and all of them are when the
last result is a success. -/
theorem SetsEvents.urls {vectorReq : Bool} {urls : List String} {evs : List Event}
    {rv : AmvpResult} (h : SetsEvents out vectorReq urls evs rv) :
    (receivedUrls evs <+: urls ∧ submittedUrls evs <+: toSubmit vectorReq urls) ∧
      (rv = .success → receivedUrls evs = urls ∧ submittedUrls evs = toSubmit vectorReq urls) := by
  have hcons : ∀ url urls, toSubmit vectorReq (url :: urls) =
      toSubmit vectorReq [url] ++ toSubmit vectorReq urls := by
    intro url urls
    cases vectorReq <;> rfl
  induction h with
  | none =>
      have hnone : toSubmit vectorReq [] = [] := by cases vectorReq <;> rfl
      rw [hnone]
      exact ⟨⟨List.prefix_rfl, List.prefix_rfl⟩, fun _ => ⟨rfl, rfl⟩⟩
  | @failed url urls _ _ hset hrv =>
      obtain ⟨⟨hreceived, hsubmitted⟩, -⟩ := hset.urls
      rw [hcons url urls]
      refine ⟨⟨hreceived.trans ?_, hsubmitted.trans ?_⟩, fun h => absurd h hrv⟩
      · exact List.prefix_append [_] _
      · exact List.prefix_append _ _
  | @next url urls _ _ _ hset hrest ih =>
      obtain ⟨hreceived, hsubmitted⟩ := hset.urls.2 rfl
      obtain ⟨⟨hreceived', hsubmitted'⟩, hall⟩ := ih
      rw [receivedUrls_append, submittedUrls_append, hreceived, hsubmitted, hcons url urls]
      refine ⟨⟨?_, ?_⟩, fun hrv => ?_⟩
      · exact (List.prefix_append_right_inj [_]).mpr hreceived'
      · exact (List.prefix_append_right_inj _).mpr hsubmitted'
      · rw [(hall hrv).1, (hall hrv).2]
        exact ⟨rfl, rfl⟩

/-! ## After the sets -/

/-- An event that works on no set: nothing is accepted and nothing submitted. -/
def Event.LeavesSets : Event → Prop
  | .http req _ => ∀ url, req.api ≠ .vectorResponses url
  | .submit _ _ => False
  | .retrieved _ _ => False
  | _ => True

/-- The frame of the parts that work on no set. -/
def afterFrame : Frame World := frameOf (fun _ => ()) Event.LeavesSets

/-- The traffic of a request that submits nothing works on no set. -/
theorem NetEvent.leavesSets {api : Api} (hapi : ∀ url, api ≠ .vectorResponses url) {e : Event}
    (h : NetEvent api e) : e.LeavesSets := by
  cases e with
  | http req reply =>
      intro url
      rcases h with h | h
      · rw [h]
        exact hapi url
      · rw [h]
        simp
  | refreshed rv => trivial
  | _ => exact h.elim

/-- Nor does the request. -/
theorem afterFrame_sendTo (limit : Nat) {api : String → Api} (action : NetAction)
    (path : Option String) (tail : String) (data : Option Json)
    (hapi : ∀ p url, api p ≠ .vectorResponses url) :
    afterFrame.Keeps (sendTo out limit api action path tail data) :=
  frameOf_sendTo (fun _ _ _ => rfl) limit (fun p _ => NetEvent.leavesSets (hapi p)) action path
    tail data

/-- What logs nothing works on no set. -/
theorem afterFrame_of_logFrame {α : Type} {m : Session α} (h : logFrame.Keeps m) :
    afterFrame.Keeps m :=
  fun w => ⟨rfl, [], by rw [List.append_nil]; exact h w, by simp⟩

/-- The results check looks sets up, but works on none. -/
theorem afterFrame_checkTestResults : afterFrame.Keeps (checkTestResults out) := by
  have hresult : ∀ url, afterFrame.Keeps (retrieveVectorSetResult out url) := fun url =>
    afterFrame_sendTo _ _ _ _ _ (by simp)
  refine .bind frameOf_getCtx fun ctx => .loop _ (fun p => ?_) _
  refine .bind (hresult _) fun rv => .ite (.pure _) (.bind frameOf_getCtx fun ctx => ?_)
  split
  · exact .pure _
  · refine .bind (keeps_scanResults (fun url => afterFrame_sendTo _ _ _ _ _ (by simp)) _ _ _ _)
      fun res => ?_
    split
    · exact .pure _
    · refine .ite (.bind ?_ fun rv => .pure _) ?_
      · exact .ite (.bind (frameOf_modifyCtx fun _ => rfl) fun _ => .pure _)
          (keeps_reportFailed hresult _ _)
      · split
        · exact .pure _
        · exact .pure _

/-- Nor does reading the reply of a validation. -/
theorem afterFrame_parseValidation : afterFrame.Keeps (parseValidation out) :=
  keeps_parseValidation
    (fun value filename => afterFrame_of_logFrame
      (logFrame_jsonSerializeToFilePrettyW value filename))
    (fun value filename => afterFrame_of_logFrame
      (logFrame_jsonSerializeToFilePrettyA value filename))

/-- Nor does the step of the validation. -/
theorem afterFrame_validateStep (fipsValidation : Bool) :
    afterFrame.Keeps (validateStep out fipsValidation) := by
  refine .ite (.bind frameOf_getCtx fun ctx => .ite (.pure _) (.ite (.pure _) ?_)) (.pure _)
  have hput : afterFrame.Keeps (transportPutValidation out (out.buildValidation ctx).2) :=
    .ite (.pure _) (.bind frameOf_getCtx fun _ => afterFrame_sendTo _ _ _ _ _ (by simp))
  exact .bind hput fun rv => .ite (.pure _) afterFrame_parseValidation

/-- Nor does the step that puts the prepared data. -/
theorem afterFrame_putDataFromCtx : afterFrame.Keeps (putDataFromCtx out) := by
  refine .bind .read fun w => .ite (.pure _) ?_
  split
  · exact .pure _
  · exact .bind (afterFrame_sendTo _ _ _ _ _ (by simp)) fun rv =>
      .ite (.pure _) afterFrame_parseValidation

/-! ## A resumed session -/

variable (out)

/-- A run that starts in a state works on the sets at these URLs, one after the other and up to
the first that fails, and on no other set.  If one fails, the run ends with its result. -/
structure WorksOn (urls : List String) (w : World) (r : AmvpResult × World)
    (evs after : List Event) (rv : AmvpResult) : Prop where
  log : r.2.log = w.log ++ evs ++ after
  sets : SetsEvents out w.ctx.vectorReq urls evs rv
  failed : rv ≠ .success → r.1 = rv ∧ after = []
  complete : rv = .success →
    receivedUrls evs = urls ∧ submittedUrls evs = toSubmit w.ctx.vectorReq urls
  leaves : ∀ e ∈ after, e.LeavesSets

variable {out}

/-- The sets of the context are worked on. -/
theorem processTests_events {w : World} (hsome : w.ctx.vsidUrlList ≠ []) :
    ∃ evs rv, (processTests out w).2.log = w.log ++ evs ∧
      SetsEvents out w.ctx.vectorReq w.ctx.vsidUrlList evs rv ∧
      (rv ≠ .success → (processTests out w).1 = rv) := by
  obtain ⟨evs, hlog, hsets⟩ := @processUrls_events out w.ctx.vsidUrlList 0 w
  obtain ⟨⟨rv, w₁⟩, hprocess⟩ : ∃ p, processUrls (processVsid out) w.ctx.vsidUrlList 0 w = p :=
    ⟨_, rfl⟩
  rw [hprocess] at hlog hsets
  refine ⟨evs, rv, ?_, hsets, ?_⟩
  all_goals rw [processTests, processAll, getCtx_bind, if_neg hsome, Prog.bind_of_eq hprocess]
  · by_cases hrv : rv = .success
    · -- at most the closing bracket is written
      have hclose : logFrame.Keeps (do
          let ctx ← getCtx
          if ctx.vectorReq then jsonSerializeToFilePrettyA out none ctx.vectorReqFile
          else return rv : Session AmvpResult) := by
        refine .bind (fun _ => rfl) fun ctx => .ite ?_ (.pure _)
        exact logFrame_jsonSerializeToFilePrettyA _ _
      rw [if_neg (not_not.mpr hrv), ← hlog]
      exact hclose w₁
    · rw [if_pos hrv]
      exact hlog
  · intro hrv
    rw [if_pos hrv]
    rfl

/-- What is left to do once the sets are done works on no set. -/
theorem resumeTests_events (fipsValidation : Bool) {w : World}
    (hsome : w.ctx.vsidUrlList ≠ []) :
    ∃ evs after rv,
      WorksOn out w.ctx.vsidUrlList w (resumeTests out fipsValidation w) evs after rv := by
  obtain ⟨evs, rv, hlog, hsets, hfailed⟩ := @processTests_events out w hsome
  obtain ⟨⟨rv', w₁⟩, hprocess⟩ : ∃ p, processTests out w = p := ⟨_, rfl⟩
  rw [hprocess] at hlog hfailed
  rw [resumeTests, Prog.bind_of_eq hprocess, Prog.ite_apply]
  by_cases hrv' : rv' = .success
  · have hrv : rv = .success := by
      by_contra hrv
      exact hrv ((hfailed hrv).symm.trans hrv')
    rw [if_neg (not_not.mpr hrv')]
    have hafter : afterFrame.Keeps (do
        let ctx ← getCtx
        if ctx.vectorReq then return .success
        else
          let rv ← checkTestResults out
          if rv ≠ .success then return rv
          else
            let rv ← validateStep out fipsValidation
            if rv ≠ .success then return rv
            else
              let ctx ← getCtx
              if ctx.put then putDataFromCtx out else return rv : Session AmvpResult) := by
      refine .bind frameOf_getCtx fun ctx => .ite (.pure _) ?_
      refine .bind afterFrame_checkTestResults fun rv => .ite (.pure _) ?_
      refine .bind (afterFrame_validateStep fipsValidation) fun rv => .ite (.pure _) ?_
      exact .bind frameOf_getCtx fun ctx => .ite afterFrame_putDataFromCtx (.pure _)
    obtain ⟨-, after, hlog', hleaves⟩ := hafter w₁
    refine ⟨evs, after, rv, ?_, hsets, fun h => absurd hrv h, hsets.urls.2, hleaves⟩
    rw [hlog', hlog]
  · rw [if_pos hrv']
    refine ⟨evs, [], rv, ?_, hsets, fun hrv => ⟨hfailed hrv, rfl⟩, hsets.urls.2, by simp⟩
    rw [List.append_nil]
    exact hlog

/-- Without a set to receive the resumed session does nothing. -/
theorem resumeFromResults_none {results : List Json} {fipsValidation : Bool} {w : World}
    (hempty : w.ctx.vsidUrlList = [])
    (hscan : resumeScan w.ctx.vectorReq results [] = (.success, [])) :
    resumeFromResults out results fipsValidation w = (.success, w) := by
  have hkept : { w with ctx := { w.ctx with vsidUrlList := w.ctx.vsidUrlList ++ [] } } = w := by
    rw [List.append_nil]
  unfold resumeFromResults
  rw [getCtx_bind, hscan]
  dsimp only
  rw [appendVsidUrls, modifyCtx_bind, if_neg (by simp), getCtx_bind, hkept, if_pos hempty]
  rfl

/-- Otherwise it works on exactly the sets of the scan, in their order. -/
theorem resumeFromResults_some {results : List Json} {fipsValidation : Bool} {w : World}
    {urls : List String} (hempty : w.ctx.vsidUrlList = []) (hsome : urls ≠ [])
    (hscan : resumeScan w.ctx.vectorReq results [] = (.success, urls)) :
    ∃ evs after rv,
      WorksOn out urls w (resumeFromResults out results fipsValidation w) evs after rv := by
  unfold resumeFromResults
  rw [getCtx_bind, hscan]
  dsimp only
  rw [appendVsidUrls, modifyCtx_bind, if_neg (by simp), getCtx_bind, hempty, List.nil_append,
    if_neg hsome]
  obtain ⟨evs, after, rv, h⟩ := @resumeTests_events out fipsValidation
    { w with ctx := { w.ctx with vsidUrlList := urls } } hsome
  exact ⟨evs, after, rv, h.log, h.sets, h.failed, h.complete, h.leaves⟩

/-- When the scan fails the call fails too, and no set is worked on. -/
theorem resumeFromResults_fails {results : List Json} {fipsValidation : Bool} {w : World}
    (hscan : (resumeScan w.ctx.vectorReq results []).1 ≠ .success) :
    (resumeFromResults out results fipsValidation w).1 ≠ .success ∧
      (resumeFromResults out results fipsValidation w).2.log = w.log := by
  unfold resumeFromResults
  rw [getCtx_bind]
  dsimp only
  rw [appendVsidUrls, modifyCtx_bind, if_pos hscan]
  exact ⟨hscan, rfl⟩

/-- A resumed session works on the unfinished sets.  Without {lit}`ctx->vector_req`, a
malformed or expired result anywhere in the reply is an error and no set is worked on;
otherwise the sets are those of the unreceived results, in order, and without any the session
ends at once.  With {lit}`ctx->vector_req` the sets of all results are taken. -/
theorem resumeTestSession_unfinished (filename : Option String) (fipsValidation : Bool)
    (w w' : World) (results : List Json) (hempty : w.ctx.vsidUrlList = [])
    (hreached : resumeUpToResults out filename fipsValidation w = (.ok results, w')) :
    (w'.ctx.vectorReq = false →
      ((∃ entry ∈ results, ¬WellFormedResult entry ∨ statusOf entry = some "expired") →
        (resumeTestSession out filename fipsValidation w).1 ≠ .success ∧
        ∃ evs, (resumeTestSession out filename fipsValidation w).2.log = w.log ++ evs ∧
          ∀ e ∈ evs, e.Idle) ∧
      ((∀ entry ∈ results, WellFormedResult entry ∧ statusOf entry ≠ some "expired") →
        (unreceived results = [] →
          resumeTestSession out filename fipsValidation w = (.success, w')) ∧
        (unreceived results ≠ [] → ∃ evs after rv, WorksOn out ((unreceived results).map storedUrl)
          w' (resumeTestSession out filename fipsValidation w) evs after rv))) ∧
    (w'.ctx.vectorReq = true → (∀ entry ∈ results, WellFormedResult entry) → results ≠ [] →
      ∃ evs after rv, WorksOn out (results.map storedUrl) w'
        (resumeTestSession out filename fipsValidation w) evs after rv) ∧
    ∃ evs, w'.log = w.log ++ evs ∧ ∀ e ∈ evs, e.Idle := by
  have hidle : idleFrame.rel w w' := by
    have hkeeps := @idleFrame_resumeUpToResults out filename fipsValidation w
    rw [hreached] at hkeeps
    exact hkeeps
  have hkept : w'.ctx.vsidUrlList = [] := hidle.1.trans hempty
  rw [resumeTestSession_of_reached out hreached]
  refine ⟨fun hreq => ⟨fun hbad => ?_, fun hgood => ?_⟩, fun hreq hgood hsome => ?_, hidle.2⟩
  · have hscan : (resumeScan w'.ctx.vectorReq results []).1 ≠ .success := by
      rw [hreq]
      exact resumeScan_fails hbad []
    have hfails := @resumeFromResults_fails out results fipsValidation w' hscan
    refine ⟨hfails.1, ?_⟩
    rw [hfails.2]
    exact hidle.2
  · have hscan := resumeScan_unreceived hgood []
    rw [List.nil_append] at hscan
    refine ⟨fun hnone => ?_, fun hsome => ?_⟩
    · rw [hnone] at hscan
      exact resumeFromResults_none hkept (by rw [hreq]; exact hscan)
    · refine resumeFromResults_some hkept ?_ (by rw [hreq]; exact hscan)
      simpa using hsome
  · refine resumeFromResults_some hkept ?_ (by rw [hreq]; exact resumeScan_vectorReq hgood [])
    simpa using hsome

end Resume

/-! ## One finished and one unfinished set -/

/-- A server with one set answered and one unreceived. -/
def halfAnswered : List Event → Request → Reply := fun _ req =>
  match req.api with
  | .login => ⟨200, some (.arr [.obj [("accessToken", .str "token")]])⟩
  | .vectorSetResult _ => ⟨200, some (.arr [.obj [("results", .arr [
      .obj [("vectorSetUrl", .str "/vs/1"), ("status", .str "pass")],
      .obj [("vectorSetUrl", .str "/vs/2"), ("status", .str "unreceived")]])]])⟩
  | _ => ⟨0, none⟩

/-- A context that knows its server, with the file of a session. -/
def resumableWorld : World :=
  { World.start with
    files := fun _ => some (Json.tokens
      (.arr [.obj [("url", .str "/testSessions/1"), ("jwt", .str "token")]])) }

/-- Only the unreceived set is worked on. -/
theorem resumeTestSession_unfinished_second :
    ∃ evs after rv, WorksOn (.plain halfAnswered) ["/vs/2"]
      (resumeUpToResults (.plain halfAnswered) (some "session.json") false resumableWorld).2
      (resumeTestSession (.plain halfAnswered) (some "session.json") false resumableWorld)
      evs after rv := by
  have hreached : resumeUpToResults (.plain halfAnswered) (some "session.json") false resumableWorld =
      (.ok [.obj [("vectorSetUrl", .str "/vs/1"), ("status", .str "pass")],
        .obj [("vectorSetUrl", .str "/vs/2"), ("status", .str "unreceived")]],
        (resumeUpToResults (.plain halfAnswered) (some "session.json") false resumableWorld).2) := rfl
  have hgood := (resumeTestSession_unfinished _ _ _ _ _ rfl hreached).1 rfl
  exact (hgood.2 (by decide)).2 (by decide)

end LibAmvp
