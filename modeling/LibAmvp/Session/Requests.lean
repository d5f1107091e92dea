import LibAmvp.Session.NetworkAction

/-!
# The requests of the library

One function of the transport layer stands for each kind of request.  They check
the context, build the URL and hand over to the network action.  A request leaves
the files alone, touches the receive buffer and the token of the context only, and
logs exchanges of its own kind and of the login of a refresh.

Main results:

- Theorem {lit}`netFrame_networkAction`: what a network action can change.
- Theorem {lit}`networkAction_success_own`: a successful request has received the body in
  the receive buffer for its own URL.
-/

namespace LibAmvp

open EventLog

/-! ## What a request can change -/

/-- An event of a request of this kind. -/
def NetEvent (api : Api) : Event → Prop
  | .http req _ => req.api = api ∨ req.api = .login
  | .refreshed _ => True
  | _ => False

/-- What a request of this kind can change. -/
def netFrame (api : Api) : Frame World where
  rel a b :=
    b.ctx = { a.ctx with jwtToken := b.ctx.jwtToken, curlBuf := b.ctx.curlBuf } ∧
    b.files = a.files ∧
    ∃ evs, b.log = a.log ++ evs ∧ ∀ e ∈ evs, NetEvent api e
  refl a := ⟨rfl, rfl, [], by simp, by simp⟩
  trans := by
    rintro a b c ⟨hctx, hfiles, evs, hlog, hevs⟩ ⟨hctx', hfiles', evs', hlog', hevs'⟩
    refine ⟨by rw [hctx', hctx], hfiles'.trans hfiles, evs ++ evs', by simp [hlog', hlog], ?_⟩
    intro e he
    rcases List.mem_append.mp he with he | he
    · exact hevs e he
    · exact hevs' e he

section Network

variable {out : Outside}

theorem Attempt.netFrame {api : Api} {action : NetAction} {url : String} {w w' : World}
    {rc : Int} (h : Attempt api action url w rc w') : (netFrame api).rel w w' := by
  obtain ⟨earlier, req, reply, -, hown, -, rfl⟩ := h
  refine ⟨rfl, rfl, _, rfl, ?_⟩
  intro e he
  obtain ⟨x, hx, rfl⟩ := List.mem_map.mp he
  exact .inl (hown x hx).1

theorem netFrame_login (api : Api) (refresh : Bool) : (netFrame api).Keeps (login out refresh) := by
  intro w
  rcases login_cases out refresh w with ⟨rv, h⟩ | ⟨url, data, rv, jwt, h⟩
  · rw [h]
    exact (netFrame api).refl w
  · rw [h]
    refine ⟨rfl, rfl, _, rfl, ?_⟩
    intro e he
    rw [List.mem_singleton] at he
    subst he
    exact .inr rfl

theorem netFrame_marked_refreshed (api : Api) (w : World) (rv : AmvpResult) :
    (netFrame api).rel w (w.marked (.refreshed rv)) := by
  refine ⟨rfl, rfl, [.refreshed rv], rfl, ?_⟩
  intro e he
  rw [List.mem_singleton] at he
  subst he
  trivial

theorem NetworkRun.netFrame {api : Api} {action : NetAction} {url : String} {w w' : World}
    {rv : AmvpResult} (h : NetworkRun out api action url w rv w') :
    (netFrame api).rel w w' := by
  have hclear : (LibAmvp.netFrame api).rel w (w.clearJwt action) :=
    ⟨rfl, rfl, [], by simp, by simp⟩
  have hlogin : ∀ {w₁ w₂ rv}, refresh out w₁ = (rv, w₂) →
      (LibAmvp.netFrame api).rel w₁ (w₂.marked (.refreshed rv)) := by
    intro w₁ w₂ rv hrefresh
    have hkeeps := @netFrame_login out api true w₁
    rw [show login out true w₁ = (rv, w₂) from hrefresh] at hkeeps
    exact (LibAmvp.netFrame api).trans hkeeps (netFrame_marked_refreshed api w₂ rv)
  cases h with
  | refused => exact hclear
  | answered hfirst => exact (LibAmvp.netFrame api).trans hclear hfirst.netFrame
  | refreshFailed hfirst _ hrefresh =>
      exact (LibAmvp.netFrame api).trans hfirst.netFrame (hlogin hrefresh)
  | repeated hfirst _ _ hrefresh hsecond | repeatedDelete hfirst _ _ hrefresh hsecond =>
      exact (LibAmvp.netFrame api).trans hfirst.netFrame
        ((LibAmvp.netFrame api).trans (hlogin hrefresh) hsecond.netFrame)

/-- What a network action can change. -/
theorem netFrame_networkAction (api : Api) (action : NetAction) (url : String)
    (data : Option Json) : (netFrame api).Keeps (networkAction out api action url data) :=
  fun w => (networkAction_cases out api action url data w).netFrame

/-- A successful request has received the body in the receive buffer for its own kind. -/
theorem networkAction_success_own {api : Api} {action : NetAction} {url : String}
    {data : Option Json} {w w' : World}
    (h : networkAction out api action url data w = (.success, w')) :
    ∃ req reply, .http req reply ∈ since w.log w'.log ∧ req.api = api ∧
      reply.body = w'.ctx.curlBuf := by
  have hrun := networkAction_cases out api action url data w
  rw [h] at hrun
  dsimp only at hrun
  generalize hrv : AmvpResult.success = rv at hrun
  cases hrun with
  | refused hrefused => exact absurd hrv.symm hrefused
  | answered hfirst =>
      obtain ⟨earlier, req, reply, hlog, hapi, -, -, hbody⟩ := hfirst.last_own
      rw [World.clearJwt_log] at hlog
      refine ⟨req, reply, ?_, hapi, hbody.symm⟩
      simp [hlog, httpEvents]
  | refreshFailed _ _ _ hfail => exact absurd hrv.symm hfail
  | repeated hfirst _ _ hrefresh hsecond | repeatedDelete hfirst _ _ hrefresh hsecond =>
      obtain ⟨xs, hlog, -⟩ := hfirst.log_eq
      obtain ⟨ys, hlog', -⟩ := refresh_log_eq hrefresh
      obtain ⟨earlier, req, reply, hlog'', hapi, -, -, hbody⟩ := hsecond.last_own
      rw [World.marked_log, hlog', hlog] at hlog''
      refine ⟨req, reply, ?_, hapi, hbody.symm⟩
      simp [hlog'', httpEvents]

/-! ## The transport functions -/

variable (out)

/-- The common body of the transport functions: check the context and the path, build
the URL in a buffer of {lit}`limit` bytes, and act. -/
def sendTo (limit : Nat) (api : String → Api) (action : NetAction) (path : Option String)
    (tail : String) (data : Option Json) : Session AmvpResult := do
  let ctx ← getCtx
  if sanityCheckCtx ctx ≠ .success then
    return sanityCheckCtx ctx
  else
    match path with
    | none => return .missingArg
    | some path =>
      networkAction out (api path) action (snprintf limit (serverBase ctx ++ path ++ tail)) data

/-- {lit}`amvp_send_test_session_registration`. -/
def sendTestSessionRegistration (reg : Option Json) : Session AmvpResult := do
  let ctx ← getCtx
  if sanityCheckCtx ctx ≠ .success then
    return sanityCheckCtx ctx
  else
    match ctx.pathSegment with
    | none => return .missingArg
    | some pathSegment =>
      networkAction out .testSessionRegistration .postReg
        (snprintf (amvpAttrUrlMax - 1) (serverBase ctx ++ pathSegment ++ "testSessions")) reg

/-- {lit}`amvp_submit_vector_responses`; the call is marked in the log. -/
def submitVectorResponses (vsidUrl : String) : Session AmvpResult := do
  mark (.submit vsidUrl (← getCtx).katResp)
  sendTo out (amvpAttrUrlMax - 1) .vectorResponses .postVsResp (some vsidUrl) "/results" none

/-- {lit}`amvp_transport_post`. -/
def transportPost (uri : Option String) (data : Option Json) : Session AmvpResult :=
  sendTo out (amvpAttrUrlMax - 1) .post .post uri "" data

/-- {lit}`amvp_retrieve_vector_set`. -/
def retrieveVectorSet (vsidUrl : String) : Session AmvpResult :=
  sendTo out (amvpAttrUrlMax - 1) .vectorSet .getVs (some vsidUrl) "" none

/-- {lit}`amvp_retrieve_docs`. -/
def retrieveDocs (vsidUrl : Option String) : Session AmvpResult :=
  sendTo out (amvpAttrUrlMax - 1) .docs .getDocs vsidUrl "/docs" none

/-- {lit}`amvp_retrieve_vector_set_result`. -/
def retrieveVectorSetResult (apiUrl : Option String) : Session AmvpResult :=
  sendTo out (amvpAttrUrlMax - 1) .vectorSetResult .getVsResult apiUrl "/results" none

/-- {lit}`amvp_transport_put`. -/
def transportPut (endpoint : Option String) (data : Option Json) : Session AmvpResult :=
  sendTo out (amvpAttrUrlMax - 1) .put .putValidation endpoint "" data

/-- {lit}`amvp_transport_put_validation`: the PUT goes to {lit}`ctx->session_url`. -/
def transportPutValidation (validation : Option Json) : Session AmvpResult := do
  if validation = none then
    return .invalidArg
  else
    sendTo out (amvpAttrUrlMax - 1) .putValidation .putValidation (← getCtx).sessionUrl ""
      validation

/-- {lit}`amvp_transport_delete`. -/
def transportDelete (endpoint : Option String) : Session AmvpResult :=
  sendTo out (amvpAttrUrlMax - 1) .delete .delete endpoint "" none

/-- {lit}`amvp_transport_get` without parameters. -/
def transportGet (url : Option String) : Session AmvpResult :=
  sendTo out amvpAttrUrlMax .get .get url "" none

variable {out}

/-- A transport function refuses its arguments, or runs the network action for the
path it was given. -/
theorem sendTo_cases (limit : Nat) (api : String → Api) (action : NetAction)
    (path : Option String) (tail : String) (data : Option Json) (w : World) :
    (∃ rv, rv ≠ .success ∧ sendTo out limit api action path tail data w = (rv, w)) ∨
    (∃ p url, path = some p ∧
      sendTo out limit api action path tail data w = networkAction out (api p) action url data w) := by
  simp only [sendTo, getCtx_bind, Prog.ite_apply]
  by_cases hsanity : sanityCheckCtx w.ctx = .success
  · rw [if_neg (not_not.mpr hsanity)]
    cases path with
    | none => exact .inl ⟨.missingArg, by decide, rfl⟩
    | some p => exact .inr ⟨p, _, rfl, rfl⟩
  · rw [if_pos hsanity]
    exact .inl ⟨_, hsanity, rfl⟩

/-- A transport function changes what a request of its kind can change. -/
theorem netFrame_sendTo (limit : Nat) (api : String → Api) (action : NetAction)
    (path : String) (tail : String) (data : Option Json) :
    (netFrame (api path)).Keeps (sendTo out limit api action (some path) tail data) := by
  intro w
  rcases @sendTo_cases out limit api action (some path) tail data w with
    ⟨rv, -, h⟩ | ⟨p, url, hp, h⟩
  · rw [h]
    exact (netFrame (api path)).refl w
  · obtain rfl : path = p := Option.some.inj hp
    rw [h]
    exact netFrame_networkAction (api path) action url data w

/-- A successful transport function has received the body in the receive buffer. -/
theorem sendTo_success_own {limit : Nat} {api : String → Api} {action : NetAction}
    {path : Option String} {tail : String} {data : Option Json} {w w' : World}
    (h : sendTo out limit api action path tail data w = (.success, w')) :
    ∃ p req reply, path = some p ∧ .http req reply ∈ since w.log w'.log ∧ req.api = api p ∧
      reply.body = w'.ctx.curlBuf := by
  rcases @sendTo_cases out limit api action path tail data w with
    ⟨rv, hrv, hrefused⟩ | ⟨p, url, hp, hsent⟩
  · rw [hrefused] at h
    exact absurd (Prod.mk.inj h).1 hrv
  · rw [hsent] at h
    obtain ⟨req, reply, hmem, hapi, hbody⟩ := networkAction_success_own h
    exact ⟨p, req, reply, hp, hmem, hapi, hbody⟩

end Network

end LibAmvp
