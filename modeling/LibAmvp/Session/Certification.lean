import LibAmvp.Session.Offline

/-!
# No certification without a pass

A validation is sent by {lit}`amvp_validate_test_session`, which asks the mark of a passed
session, and by {lit}`amvp_cert_req`, which asks nothing.  The mark is never taken back, so
it may stem from an earlier session of the context.

Main results:

- Theorem {lit}`certification_guarded`: over every sequence of calls that neither reach the
  unguarded request nor start a validated session with the mark of an earlier one,
  every validation follows a passed results reply for its session URL.
-/

namespace LibAmvp

open EventLog

/-! ## Grants and validations -/

instance (entry : Json) : Decidable (Completed entry) :=
  decidable_of_iff (((jsonObjectGetString (jsonValueGetObject (some entry)) "status").any
    fun status => status ≠ "expired" ∧ status ≠ "unreceived" ∧ status ≠ "incomplete") = true)
    (by simp [Completed, Option.any_eq_true])

instance (body : Option Json) : Decidable (PassedBody body) :=
  decidable_of_iff (((getObjFromRsp body).any fun obj =>
    jsonObjectGetBoolean (some obj) "passed" = 1 ∧
      ∀ entry ∈ jsonArrayElems (jsonObjectGetArray (some obj) "results"), Completed entry) = true)
    (by simp [PassedBody, Option.any_eq_true])

/-- The session URL for which this event is a complete and passed results reply. -/
def passedFor : Event → Option String
  | .http req reply =>
    match req.api with
    | .vectorSetResult url => if PassedBody reply.body then some url else none
    | _ => none
  | _ => none

/-- The session URL to which this event sends a validation. -/
def validationOf : Event → Option String
  | .http req _ =>
    match req.api with
    | .putValidation url => some url
    | _ => none
  | _ => none

/-- A session URL was assigned. -/
def AssignsUrl : Event → Prop
  | .sessionUrl _ => True
  | _ => False

/-- Every validation of the log follows a passed results reply for its session URL, with
no session URL assigned in between. -/
def Certified (log : List Event) : Prop := Guarded passedFor validationOf AssignsUrl log

/-- A passed results reply for this session URL is in the log, later than the last
assignment of a session URL. -/
def Passed (url : String) (log : List Event) : Prop := Armed passedFor AssignsUrl url log

/-- The events of opening validate nothing. -/
theorem validationOf_eq_none {e : Event} (h : e.Opening) : validationOf e = none := by
  cases e with
  | http req reply =>
      rw [validationOf]
      split
      · next url hapi => exact absurd hapi (h url)
      · rfl
  | _ => rfl

/-- A quiet event assigns no session URL. -/
theorem Event.Quiet.not_assignsUrl {e : Event} (h : e.Quiet) : ¬ AssignsUrl e := by
  cases e with
  | sessionUrl url => exact h.elim
  | _ => exact id

/-- A session that a reply reports as passed stays so over quiet events. -/
theorem Passed.of_reply {url : String} {log evs : List Event}
    (hreply : PassedReply (some url) evs) (hquiet : ∀ e ∈ evs, e.Quiet) :
    Passed url (log ++ evs) := by
  obtain ⟨url', req, reply, hurl, hmem, hapi, hbody⟩ := hreply
  obtain rfl := Option.some.inj hurl
  obtain ⟨earlier, later, rfl⟩ := List.append_of_mem hmem
  have hgrant : passedFor (.http req reply) = some url := by
    simp [passedFor, hapi, hbody]
  refine ⟨log ++ earlier, _, later, by simp, hgrant, fun e he => ?_⟩
  exact (hquiet e (by simp [he])).not_assignsUrl

/-! ## Calls -/

/-- A call of the application that works on a session. -/
inductive Call where
  | run (fipsValidation : Bool)
  | resume (filename : Option String) (fipsValidation : Bool)
  | upload (rspFilename : Option String) (fipsValidation : Bool)

namespace Call

/-- What the call does. -/
def exec (out : Outside) : Call → Session AmvpResult
  | .run fipsValidation => LibAmvp.run out fipsValidation
  | .resume filename fipsValidation => resumeTestSession out filename fipsValidation
  | .upload rspFilename fipsValidation => uploadVectorsFromFile out rspFilename fipsValidation

/-- The call leads to {lit}`amvp_validate_test_session`. -/
def validates (ctx : Ctx) : Call → Bool
  | .run fipsValidation => fipsValidation && !ctx.get && !ctx.post && !ctx.postResources &&
      !ctx.modCertReq && !ctx.delete && !ctx.vectorReq
  | .resume _ fipsValidation => fipsValidation && !ctx.vectorReq
  | .upload _ fipsValidation => fipsValidation

/-- The call leads to the validation of {lit}`amvp_cert_req`, which is not guarded. -/
def certifies (ctx : Ctx) : Call → Bool
  | .run _ => ctx.modCertReq && !ctx.get && !ctx.post && !ctx.postResources && !ctx.vectorReq
  | .resume _ _ => false
  | .upload _ _ => ctx.modCertReq

/-- The condition under which a call is safe: it does not lead to the unguarded
validation, and it does not lead to the guarded one with the mark of an earlier
session. -/
def Safe (call : Call) (ctx : Ctx) : Prop :=
  call.certifies ctx = false ∧ (call.validates ctx = true → ctx.sessionPassed = false)

end Call

/-- The worlds a context gets to from a fresh one, by calls that meet a condition.
Between calls the application may change its settings and the files. -/
inductive Reachable (allowed : Call → Ctx → Prop) : World → Prop where
  | start {w : World} (hlog : w.log = []) (hpassed : w.ctx.sessionPassed = false) :
      Reachable allowed w
  | configure {w : World} (ctx : Ctx) (files : String → Option Json.Text)
      (hw : Reachable allowed w) (hurl : ctx.sessionUrl = w.ctx.sessionUrl)
      (hpassed : ctx.sessionPassed = w.ctx.sessionPassed) :
      Reachable allowed { w with ctx := ctx, files := files }
  | call {w : World} (out : Outside) (call : Call) (hw : Reachable allowed w)
      (hcall : allowed call w.ctx) : Reachable allowed (call.exec out w).2

/-! ## Assertions along a call -/

section Gate

variable (settings : Ctx) (gated : Prop)

/-- While a session is opened: when the gate is used, the session has not passed yet. -/
def Opened (w : World) : Prop :=
  Certified w.log ∧ w.ctx.settings = settings ∧ (gated → w.ctx.sessionPassed = false)

/-- From the polling on: when the gate is used, the mark belongs to this session. -/
def Polled (w : World) : Prop :=
  Certified w.log ∧ w.ctx.settings = settings ∧
    (gated → w.ctx.sessionPassed = true → ∃ url, w.ctx.sessionUrl = some url ∧ Passed url w.log)

variable {settings gated} {out : Outside} {α β : Type}

/-- Before the polling the mark is not set, so the state is good for what follows it. -/
theorem Opened.polled {w : World} (h : Opened settings gated w) : Polled settings gated w := by
  obtain ⟨hcert, hsettings, hpassed⟩ := h
  refine ⟨hcert, hsettings, fun hgated hmark => ?_⟩
  rw [hpassed hgated] at hmark
  cases hmark

/-- The parts that open a session keep that state. -/
theorem Opened.open {w w' : World} (hframe : openFrame.rel w w') (h : Opened settings gated w) :
    Opened settings gated w' := by
  obtain ⟨hkeep, evs, hlog, hevs⟩ := hframe
  obtain ⟨hsettings, hpassed⟩ := Prod.mk.inj hkeep
  obtain ⟨hcert, hsettings', hpassed'⟩ := h
  refine ⟨?_, hsettings.trans hsettings', fun hgated => hpassed.trans (hpassed' hgated)⟩
  rw [hlog]
  exact hcert.append fun e he => validationOf_eq_none (hevs e he)

/-- Quiet parts keep the state after the polling. -/
theorem Polled.quiet {w w' : World} (hframe : quietFrame.rel w w')
    (h : Polled settings gated w) : Polled settings gated w' := by
  obtain ⟨hkeep, evs, hlog, hevs⟩ := hframe
  obtain ⟨hsettings, hurl, hpassed⟩ : w'.ctx.settings = w.ctx.settings ∧
      w'.ctx.sessionUrl = w.ctx.sessionUrl ∧ w'.ctx.sessionPassed = w.ctx.sessionPassed := by
    simpa [Ctx.standing] using hkeep
  obtain ⟨hcert, hsettings', hmark⟩ := h
  refine ⟨?_, hsettings.trans hsettings', fun hgated hmarked => ?_⟩
  · rw [hlog]
    exact hcert.append fun e he => validationOf_eq_none (hevs e he).opening
  · obtain ⟨url, hurl', harmed⟩ := hmark hgated (hpassed.symm.trans hmarked)
    refine ⟨url, hurl.trans hurl', ?_⟩
    rw [hlog]
    exact harmed.append fun e he => (hevs e he).not_assignsUrl

/-- Parts that open a session keep the first assertion. -/
theorem opened_of_open {m : Session α} (hm : openFrame.Keeps m) :
    Triple (Opened settings gated) m (Opened settings gated) :=
  .of_keeps hm fun _ _ => Opened.open

/-- Quiet parts keep the state before the polling. -/
theorem opened_of_quiet {m : Session α} (hm : quietFrame.Keeps m) :
    Triple (Opened settings gated) m (Opened settings gated) :=
  opened_of_open (open_of_quiet hm)

/-- Quiet parts keep the second assertion. -/
theorem polled_of_quiet {m : Session α} (hm : quietFrame.Keeps m) :
    Triple (Polled settings gated) m (Polled settings gated) :=
  .of_keeps hm fun _ _ => Polled.quiet

/-- Noting the result of a stage changes neither assertion. -/
theorem opened_stage {m : Session AmvpResult} (s : Stage)
    (hm : Triple (Opened settings gated) m (Opened settings gated)) :
    Triple (Opened settings gated) (stage s m) (Opened settings gated) := by
  intro w hw
  obtain ⟨hcert, hrest⟩ := hm w hw
  exact ⟨hcert.append_act (fun key hact => nomatch hact), hrest⟩

/-- A stage keeps the state after the polling when its work does. -/
theorem polled_stage {m : Session AmvpResult} (s : Stage)
    (hm : Triple (Polled settings gated) m (Polled settings gated)) :
    Triple (Polled settings gated) (stage s m) (Polled settings gated) := by
  intro w hw
  obtain ⟨hcert, hsettings, hmark⟩ := hm w hw
  refine ⟨hcert.append_act (fun key hact => nomatch hact), hsettings, fun hgated hpassed => ?_⟩
  obtain ⟨url, hurl, harmed⟩ := hmark hgated hpassed
  refine ⟨url, hurl, ?_⟩
  show Passed url ((m w).2.log ++ [.stage s (m w).1])
  exact harmed.append (by simp [AssignsUrl])

/-- The context that is read has the settings of the call. -/
theorem opened_getCtx {f : Ctx → Session β} {Q : World → Prop}
    (hf : ∀ ctx : Ctx, ctx.settings = settings → Triple (Opened settings gated) (f ctx) Q) :
    Triple (Opened settings gated) (getCtx >>= f) Q :=
  fun w hw => hf w.ctx hw.2.1 w hw

/-- Reading the context hands on that its settings are those of the call. -/
theorem polled_getCtx {f : Ctx → Session β} {Q : World → Prop}
    (hf : ∀ ctx : Ctx, ctx.settings = settings → Triple (Polled settings gated) (f ctx) Q) :
    Triple (Polled settings gated) (getCtx >>= f) Q :=
  fun w hw => hf w.ctx hw.2.1 w hw

/-! ## Polling and validating -/

/-- The polling marks a session only after a passed reply for its own URL. -/
theorem polled_checkTestResults :
    Triple (Polled settings gated) (checkTestResults out) (Polled settings gated) := by
  intro w hw
  rw [checkTestResults, getCtx_bind]
  obtain ⟨w₁, hquiet, ⟨rv, h⟩ | ⟨hreply, h⟩⟩ := getResultTestSession_cases out w.ctx.sessionUrl w
  · rw [h]
    exact hw.quiet hquiet
  · rw [h]
    obtain ⟨hcert, hsettings, -⟩ := hw.quiet hquiet
    refine ⟨hcert, hsettings, fun _ _ => ?_⟩
    obtain ⟨hkeep, evs, hlog, hevs⟩ := hquiet
    obtain ⟨url, req, reply, hurl, hmem, hapi, hbody⟩ := hreply
    refine ⟨url, ?_, ?_⟩
    · rw [← hurl]
      exact congrArg (fun x => x.2.1) hkeep
    · rw [hlog, since_append] at hmem
      rw [hlog]
      exact .of_reply ⟨url, req, reply, rfl, hmem, hapi, hbody⟩ hevs

/-- A validation may be sent when the session has passed. -/
theorem polled_transportPutValidation (validation : Option Json) (hgated : gated) :
    Triple (fun w => Polled settings gated w ∧ w.ctx.sessionPassed = true)
      (transportPutValidation out validation) (Polled settings gated) := by
  rintro w ⟨hw, hpassed⟩
  rw [transportPutValidation, Prog.ite_apply]
  split
  · exact hw
  · obtain ⟨hcert, hsettings, hmark⟩ := hw
    obtain ⟨url, hurl, harmed⟩ := hmark hgated hpassed
    rw [getCtx_bind, hurl]
    obtain ⟨hctx, -, evs, hlog, hevs⟩ := @netFrame_sendTo out (amvpAttrUrlMax - 1)
      .putValidation .putValidation url "" validation w
    have hreset : ∀ e ∈ evs, ¬ AssignsUrl e := by
      intro e he
      have hnet := hevs e he
      cases e with
      | sessionUrl _ => exact hnet.elim
      | _ => exact id
    have hact : ∀ e ∈ evs, ∀ key, validationOf e = some key → key = url := by
      intro e he key hkey
      have hnet := hevs e he
      cases e with
      | http req reply =>
          rcases hnet with hapi | hapi
          · simpa [validationOf, hapi, eq_comm] using hkey
          · simp [validationOf, hapi] at hkey
      | _ => cases hkey
    refine ⟨?_, ?_, fun _ _ => ⟨url, ?_, ?_⟩⟩
    · rw [hlog]
      refine hcert.append_armed hreset fun e he key hkey => ?_
      rw [hact e he key hkey]
      exact harmed
    · rw [hctx]
      exact hsettings
    · rw [hctx]
      exact hurl
    · rw [hlog]
      exact harmed.append hreset

/-- The validation certifies only what has passed, when it goes through the gate. -/
theorem polled_validateTestSession (hgated : gated) :
    Triple (Polled settings gated) (validateTestSession out) (Polled settings gated) := by
  intro w hw
  rw [validateTestSession, getCtx_bind, Prog.ite_apply]
  by_cases hpassed : w.ctx.sessionPassed = false
  · rw [if_pos hpassed]
    exact hw
  · rw [if_neg hpassed]
    have hmarked : w.ctx.sessionPassed = true := by simpa using hpassed
    refine Triple.ite (P := fun w => Polled settings gated w ∧ w.ctx.sessionPassed = true)
      (fun _ => .pure (fun _ h => h.1) _) (fun _ => ?_) w ⟨hw, hmarked⟩
    refine .bind (polled_transportPutValidation _ hgated) fun rv => .ite (fun _ => ?_) fun _ => ?_
    · exact .pure (fun _ h => h) _
    · exact polled_of_quiet quietFrame_parseValidation

/-- Without a certificate request only the documents are downloaded. -/
theorem polled_certReq (hcert : settings.modCertReq = false) :
    Triple (Polled settings gated) (certReq out) (Polled settings gated) := by
  have hdone : ∀ rv : AmvpResult, Triple (Polled settings gated)
      (pure rv : Session AmvpResult) (Polled settings gated) := fun rv => .pure (fun _ h => h) rv
  refine polled_getCtx fun ctx _ => .bind (polled_of_quiet ?_) fun rv => ?_
  · exact quietFrame_sendTo _ _ _ _ _ (by simp)
  · refine .ite (fun _ => hdone _) fun _ => polled_getCtx fun ctx hctx => ?_
    refine .ite (fun _ => hdone _) fun _ => .ite (fun _ => hdone _) fun _ => ?_
    refine .ite (fun hreq => ?_) fun _ => hdone _
    have hsame : ctx.modCertReq = settings.modCertReq := by rw [← hctx]; rfl
    rw [hsame, hcert] at hreq
    cases hreq

/-! ## The parts of a call -/

/-- A part that keeps the first assertion, followed by parts that need the second only. -/
theorem opened_return (rv : AmvpResult) :
    Triple (Opened settings gated) (pure rv : Session AmvpResult) (Polled settings gated) :=
  .pure (fun _ h => h.polled) rv

/-- A result keeps the state. -/
theorem polled_return (rv : AmvpResult) :
    Triple (Polled settings gated) (pure rv : Session AmvpResult) (Polled settings gated) :=
  .pure (fun _ h => h) rv

/-- What is proved from the state after the polling holds from the one before it. -/
theorem opened_of_polled {m : Session α} {Q : World → Prop}
    (hm : Triple (Polled settings gated) m Q) : Triple (Opened settings gated) m Q :=
  fun w hw => hm w hw.polled

/-- The stage of the validation keeps the state. -/
theorem polled_validateStage {fipsValidation : Bool} (hgated : fipsValidation = true → gated) :
    Triple (Polled settings gated) (validateStage out fipsValidation) (Polled settings gated) :=
  .ite (fun hfips => polled_stage _ (polled_validateTestSession (hgated hfips)))
    fun _ => polled_return _

/-- So does the step that the settings may leave out. -/
theorem polled_validateStep {fipsValidation : Bool} (hgated : fipsValidation = true → gated) :
    Triple (Polled settings gated) (validateStep out fipsValidation) (Polled settings gated) :=
  .ite (fun hfips => polled_validateTestSession (hgated hfips)) fun _ => polled_return _

/-- Checking the results and then validating keeps the state. -/
theorem polled_runCheck {fipsValidation : Bool}
    (hcert : settings.vectorReq = false → settings.modCertReq = false)
    (hgated : settings.vectorReq = false → fipsValidation = true → gated) :
    Triple (Polled settings gated) (runCheck out fipsValidation) (Polled settings gated) := by
  refine polled_getCtx fun ctx hctx => .ite (fun _ => polled_return _) fun hreq => ?_
  have hoff : settings.vectorReq = false := by
    rw [← hctx]
    exact Bool.eq_false_iff.mpr hreq
  refine .bind (polled_stage _ polled_checkTestResults) fun rv => ?_
  refine .ite (fun _ => polled_return _) fun _ => polled_getCtx fun ctx _ => ?_
  refine .ite (fun _ => polled_stage _ (polled_certReq (hcert hoff))) fun _ => ?_
  refine .bind (polled_validateStage (hgated hoff)) fun rv => ?_
  refine .ite (fun _ => polled_return _) fun _ => polled_getCtx fun ctx _ => ?_
  exact .ite (fun _ => polled_stage _ (polled_of_quiet quietFrame_putDataFromCtx))
    fun _ => polled_return _

/-- Writing the session file is quiet. -/
theorem quietFrame_sessionInfoStep : quietFrame.Keeps (sessionInfoStep out) :=
  .bind frameOf_getCtx fun _ => .ite (.pure _)
    (.bind quietFrame_writeSessionInfo fun _ => .pure _)

/-- From the login on a run leaves the state after the polling. -/
theorem opened_runSession {fipsValidation : Bool}
    (hcert : settings.vectorReq = false → settings.modCertReq = false)
    (hgated : settings.vectorReq = false → fipsValidation = true → gated) :
    Triple (Opened settings gated) (runSession out fipsValidation) (Polled settings gated) := by
  have hmetadata : Triple (Opened settings gated) (metadataStage out fipsValidation)
      (Opened settings gated) :=
    .ite (fun _ => opened_stage _ (opened_of_quiet quietFrame_verifyFipsValidationMetadata))
      fun _ => .pure (fun _ h => h) _
  refine .bind hmetadata fun rv => .ite (fun _ => opened_return _) fun _ => ?_
  refine .bind (opened_of_quiet (frameOf_modifyCtx fun _ => rfl)) fun _ => ?_
  refine .bind (opened_stage _ (opened_of_open openFrame_register)) fun rv => ?_
  refine .ite (fun _ => opened_return _) fun _ => ?_
  refine .bind (opened_of_quiet quietFrame_sessionInfoStep) fun _ => ?_
  refine .bind (opened_stage _ (opened_of_quiet quietFrame_processTests)) fun rv => ?_
  exact .ite (fun _ => opened_return _) fun _ => opened_of_polled (polled_runCheck hcert hgated)

/-- Posting a resource is quiet. -/
theorem quietFrame_transportPost (uri : Option String) (data : Option Json) :
    quietFrame.Keeps (transportPost out uri data) :=
  quietFrame_sendTo _ _ _ _ _ (by simp)

/-- Posting resources leaves the state after the polling. -/
theorem opened_postResources (filename : Option String) :
    Triple (Opened settings gated) (postResources out filename) (Polled settings gated) := by
  have hpost : ∀ endpoint resources, Triple (Opened settings gated)
      (postResource out endpoint resources) (Opened settings gated) :=
    fun _ _ => opened_stage _ (opened_of_quiet (quietFrame_transportPost _ _))
  refine .bind (opened_of_quiet .read) fun w => ?_
  split
  · exact opened_return _
  · split
    · exact opened_return _
    · refine .bind (hpost _ _) fun _ => ?_
      split
      · exact opened_return _
      · refine .bind (hpost _ _) fun _ => ?_
        split
        · exact opened_return _
        · exact (hpost _ _).weaken fun _ h => h.polled

/-- So does saving the reply of a quiet request. -/
theorem opened_saving {m : Session AmvpResult} (hm : quietFrame.Keeps m) (s : Stage) :
    Triple (Opened settings gated) (stage s m >>= saveReply out) (Polled settings gated) :=
  .bind (opened_stage s (opened_of_quiet hm)) fun rv =>
    opened_of_polled (polled_of_quiet (quietFrame_saveReply rv))

/-- A run with its requests leaves the state after the polling. -/
theorem opened_runRequest {fipsValidation : Bool}
    (hcert : (Call.run fipsValidation).certifies settings = false)
    (hgated : (Call.run fipsValidation).validates settings = true → gated) :
    Triple (Opened settings gated) (runRequest out fipsValidation) (Polled settings gated) := by
  refine opened_getCtx fun ctx hctx => ?_
  subst hctx
  refine .ite (fun _ => ?_) fun hget => .ite (fun _ => ?_) fun hpost => .ite (fun _ => ?_)
    fun hresources => .ite (fun hreq => ?_) fun hreq => .ite (fun _ => ?_) fun hdelete => ?_
  · exact opened_saving (quietFrame_sendTo _ _ _ _ _ (by simp)) _
  · exact opened_of_polled (polled_stage _ (polled_of_quiet (quietFrame_postData _)))
  · exact opened_postResources _
  · refine .bind (opened_stage _ (opened_of_open openFrame_modCertReq)) fun _ => ?_
    have hvector : ctx.vectorReq = true := by
      simpa [Call.certifies, Ctx.settings, hget, hpost, hresources, hreq] using hcert
    refine opened_of_polled (polled_runCheck (fun hoff => ?_) fun hoff => ?_)
    all_goals
      rw [show ctx.settings.vectorReq = ctx.vectorReq from rfl, hvector] at hoff
      cases hoff
  · exact opened_saving (quietFrame_sendTo _ _ _ _ _ (by simp)) _
  · refine opened_runSession (fun _ => ?_) fun hoff hfips => hgated ?_
    · exact Bool.eq_false_iff.mpr hreq
    · simp [Call.validates, Ctx.settings, hget, hpost, hresources, hreq, hdelete, hfips,
        show ctx.vectorReq = false from hoff]

/-- So does a whole run. -/
theorem opened_run {fipsValidation : Bool}
    (hcert : (Call.run fipsValidation).certifies settings = false)
    (hgated : (Call.run fipsValidation).validates settings = true → gated) :
    Triple (Opened settings gated) (run out fipsValidation) (Polled settings gated) := by
  have hlogin : Triple (Opened settings gated) (loginStage out) (Opened settings gated) :=
    .ite (fun _ => .pure (fun _ h => h) _)
      fun _ => opened_stage _ (opened_of_quiet (quietFrame_login _))
  exact .bind hlogin fun rv => .ite (fun _ => opened_return _)
    fun _ => opened_runRequest hcert hgated

/-- Verifying the metadata is quiet. -/
theorem quietFrame_metadataStep (fipsValidation : Bool) :
    quietFrame.Keeps (metadataStep out fipsValidation) :=
  .ite quietFrame_verifyFipsValidationMetadata (.pure _)

/-- Resuming the tests leaves the state after the polling. -/
theorem opened_resumeTests {fipsValidation : Bool}
    (hgated : settings.vectorReq = false → fipsValidation = true → gated) :
    Triple (Opened settings gated) (resumeTests out fipsValidation) (Polled settings gated) := by
  refine .bind (opened_of_quiet quietFrame_processTests) fun rv => ?_
  refine .ite (fun _ => opened_return _) fun _ => opened_getCtx fun ctx hctx => ?_
  refine .ite (fun _ => opened_return _) fun hreq => opened_of_polled ?_
  have hoff : settings.vectorReq = false := by
    rw [← hctx]
    exact Bool.eq_false_iff.mpr hreq
  refine .bind polled_checkTestResults fun rv => .ite (fun _ => polled_return _) fun _ => ?_
  refine .bind (polled_validateStep (hgated hoff)) fun rv => ?_
  refine .ite (fun _ => polled_return _) fun _ => polled_getCtx fun ctx _ => ?_
  exact .ite (fun _ => polled_of_quiet quietFrame_putDataFromCtx) fun _ => polled_return _

/-- So does resuming from the results the server reports. -/
theorem opened_resumeResults (obj : JsonObject) {fipsValidation : Bool}
    (hgated : settings.vectorReq = false → fipsValidation = true → gated) :
    Triple (Opened settings gated) (resumeResults out obj fipsValidation)
      (Polled settings gated) := by
  refine .bind (opened_of_quiet (quietFrame_metadataStep _)) fun rv => ?_
  refine .ite (fun _ => opened_return _) fun _ => ?_
  refine .bind (opened_of_quiet (frameOf_modifyCtx fun _ => rfl)) fun _ => ?_
  split
  · exact opened_return _
  · refine opened_getCtx fun ctx _ => ?_
    refine .bind (opened_of_quiet (frameOf_modifyCtx fun _ => rfl)) fun _ => ?_
    refine .ite (fun _ => opened_return _) fun _ => opened_getCtx fun ctx _ => ?_
    exact .ite (fun _ => opened_return _) fun _ => opened_resumeTests hgated

/-- And so does a resumed session as a whole. -/
theorem opened_resumeTestSession (filename : Option String) {fipsValidation : Bool}
    (hgated : settings.vectorReq = false → fipsValidation = true → gated) :
    Triple (Opened settings gated) (resumeTestSession out filename fipsValidation)
      (Polled settings gated) := by
  refine .bind (opened_of_open (openFrame_parseSessionInfoFile _)) fun rv => ?_
  refine .ite (fun _ => opened_return _) fun _ => ?_
  refine .bind (opened_of_quiet (quietFrame_login _)) fun rv => ?_
  refine .ite (fun _ => opened_return _) fun _ => opened_getCtx fun ctx _ => ?_
  refine .bind (opened_of_quiet (quietFrame_retrieveVectorSetResult _)) fun rv => ?_
  refine .ite (fun _ => opened_return _) fun _ => opened_getCtx fun ctx _ => ?_
  split
  · exact opened_return _
  · exact opened_resumeResults _ hgated

/-- Uploading the responses is quiet. -/
theorem quietFrame_uploadResponses (elems : List Json) (urls : List String) (n : Nat) :
    quietFrame.Keeps (uploadResponses out elems urls n) := by
  induction urls generalizing n with
  | nil => exact .pure _
  | cons url urls ih =>
      refine .bind (frameOf_modifyCtx fun _ => rfl) fun _ => ?_
      refine .bind (quietFrame_submitVectorResponses url) fun _ => ?_
      exact .bind (frameOf_modifyCtx fun _ => rfl) fun _ => ih (n + 1)

/-- The end of an upload keeps the state after the polling. -/
theorem polled_finishUpload {fipsValidation : Bool} (hcert : settings.modCertReq = false)
    (hgated : fipsValidation = true → gated) :
    Triple (Polled settings gated) (finishUpload out fipsValidation) (Polled settings gated) := by
  refine .bind polled_checkTestResults fun _ => .bind (polled_certReq hcert) fun rv => ?_
  exact .ite (fun _ => polled_return _) fun _ => polled_validateStep hgated

/-- The upload of a response file leaves the state after the polling. -/
theorem opened_uploadResponseFile (elems : List Json) (obj : JsonObject) {fipsValidation : Bool}
    (hcert : settings.modCertReq = false) (hgated : fipsValidation = true → gated) :
    Triple (Opened settings gated) (uploadResponseFile out elems obj fipsValidation)
      (Polled settings gated) := by
  refine .bind (opened_of_quiet (frameOf_modifyCtx fun _ => rfl)) fun _ => ?_
  refine opened_getCtx fun ctx _ => .ite (fun _ => opened_return _) fun _ => ?_
  refine .ite (fun _ => opened_return _) fun _ => ?_
  refine .bind (opened_of_quiet (quietFrame_metadataStep _)) fun rv => ?_
  refine .ite (fun _ => opened_return _) fun _ => ?_
  refine .bind (opened_of_quiet (frameOf_modifyCtx fun _ => rfl)) fun _ => ?_
  refine .bind (opened_of_quiet (quietFrame_uploadResponses _ _ _)) fun _ => ?_
  exact opened_of_polled (polled_finishUpload hcert hgated)

/-- So does an upload from a file as a whole. -/
theorem opened_uploadVectorsFromFile (rspFilename : Option String) {fipsValidation : Bool}
    (hcert : settings.modCertReq = false) (hgated : fipsValidation = true → gated) :
    Triple (Opened settings gated) (uploadVectorsFromFile out rspFilename fipsValidation)
      (Polled settings gated) := by
  refine .bind (opened_of_quiet .read) fun w => ?_
  split
  · exact opened_return _
  · refine .ite (fun _ => opened_return _) fun _ => ?_
    dsimp only
    split
    · exact opened_return _
    · split
      · exact opened_return _
      · refine .bind (opened_of_open (openFrame_setSessionUrl _)) fun _ => ?_
        split
        · exact opened_return _
        · refine .bind (opened_of_quiet (quietFrame_readTokenAndSample _ _)) fun _ => ?_
          exact opened_uploadResponseFile _ _ hcert hgated

end Gate

/-! ## Every sequence of calls -/

/-- A safe call keeps the log certified. -/
theorem Call.Safe.certified {call : Call} {w : World} (hsafe : call.Safe w.ctx)
    (hw : Certified w.log) (out : Outside) : Certified (call.exec out w).2.log := by
  obtain ⟨hcert, hpassed⟩ := hsafe
  have hopened : Opened w.ctx.settings (call.validates w.ctx = true) w := ⟨hw, rfl, hpassed⟩
  have hpolled : Polled w.ctx.settings (call.validates w.ctx = true) (call.exec out w).2 := by
    cases call with
    | run fipsValidation =>
        have hcert' : (Call.run fipsValidation).certifies w.ctx.settings = false := hcert
        exact opened_run hcert' (fun h => h) w hopened
    | resume filename fipsValidation =>
        refine opened_resumeTestSession filename (fun hoff hfips => ?_) w hopened
        simp [validates, hfips, show w.ctx.vectorReq = false from hoff]
    | upload rspFilename fipsValidation =>
        have hcert' : w.ctx.settings.modCertReq = false := hcert
        exact opened_uploadVectorsFromFile rspFilename hcert' (fun hfips => hfips) w hopened
  exact hpolled.1

/-- Over every sequence of safe calls, every validation follows a passed results reply
for its session URL that came in after that URL was assigned. -/
theorem certification_guarded (w : World) (hw : Reachable Call.Safe w) : Certified w.log := by
  induction hw with
  | start hlog hpassed =>
      rw [hlog]
      exact Guarded.nil
  | configure ctx files hw hurl hpassed ih => exact ih
  | call out call hw hsafe ih => exact hsafe.certified ih out

/-! ## One session and two sessions -/

/-- The URL of a session that is registered, the first or a later one. -/
def nextSession (log : List Event) : String :=
  if log.any fun e => e matches .sessionUrl _ then "/testSessions/2" else "/testSessions/1"

/-- A server whose first session passes and whose later sessions do not. -/
def firstSessionPasses : List Event → Request → Reply := fun log req =>
  match req.api with
  | .testSessionRegistration => ⟨200, some (.arr [.obj [("url", .str (nextSession log)),
      ("accessToken", .str "token"), ("vectorSetUrls", .arr [.str "/vs/1"])]])⟩
  | .vectorSetResult url => ⟨200, some (.arr [.obj [("passed", .bool (url = "/testSessions/1")),
      ("results", .arr [])]])⟩
  | .putValidation _ => ⟨200, some (.arr [.obj [("url", .str "/requests/1"),
      ("status", .str "initial")]])⟩
  | _ => ⟨200, some (.arr [.obj [("algorithm", .str "SHA2-256")]])⟩

/-- An outside with that server, without a login. -/
def certifyingOutside : Outside :=
  { answeringOutside with server := firstSessionPasses, noLogin := true }

/-- The world after one run with a validation. -/
def oneRun : World := ((Call.run true).exec certifyingOutside World.start).2

/-- The world after two runs with a validation. -/
def twoRuns : World := ((Call.run true).exec certifyingOutside oneRun).2

/-- A run from a fresh context is safe, and it does send a validation. -/
theorem certification_guarded_oneRun :
    oneRun.log.filterMap validationOf = ["/testSessions/1"] ∧ Certified oneRun.log :=
  ⟨by decide +kernel, certification_guarded oneRun
    (.call certifyingOutside (.run true) (.start rfl rfl) ⟨rfl, fun _ => rfl⟩)⟩

/-- The second session does not pass, and it is sent for validation on the mark of the
first. -/
theorem certification_not_guarded :
    Reachable (fun _ _ => True) twoRuns ∧ ¬ Certified twoRuns.log := by
  refine ⟨.call certifyingOutside (.run true) (.call certifyingOutside (.run true)
    (.start rfl rfl) trivial) trivial, fun hcert => ?_⟩
  have hsent : ∃ e ∈ twoRuns.log, validationOf e = some "/testSessions/2" := by decide +kernel
  have hnone : ¬ ∃ g ∈ twoRuns.log, passedFor g = some "/testSessions/2" := by decide +kernel
  obtain ⟨e, hmem, hact⟩ := hsent
  obtain ⟨g, hg, hgrant⟩ := hcert.exists_grant hmem hact
  exact hnone ⟨g, hg, hgrant⟩

end LibAmvp
