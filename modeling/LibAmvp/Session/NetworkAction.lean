import LibAmvp.Session.Transport
import LibAmvp.Lib.EventLog

/-!
# Network actions: bounded recursion and the returned result

The recursion from a network action through the refresh back to a network action
stops at the login, which is never refreshed.  So two nested activations are
always enough, and the functions of the transport layer are total.

Main results:

- Theorem {lit}`networkAction_bounded`: a network action ends after at most five
  requests, at most one of them a login, and a login sends exactly one request.
- Theorem {lit}`networkAction_faithful_iff`: the returned result is that of the last
  reply exactly when a repeated DELETE is answered as the expired one was.
- Theorem {lit}`networkAction_cases`: every way a network action can run.
-/

namespace LibAmvp

open EventLog

/-! ## Exchanges -/

/-- The state after a reply was received. -/
def World.receive (w : World) (req : Request) (reply : Reply) : World :=
  { w with
    ctx := { w.ctx with curlBuf := reply.body }
    log := w.log ++ [.http req reply] }

/-- A reply is logged with its request. -/
@[simp]
theorem World.receive_log (w : World) (req : Request) (reply : Reply) :
    (w.receive req reply).log = w.log ++ [.http req reply] :=
  rfl

/-- Its body becomes the buffer of the context. -/
@[simp]
theorem World.receive_ctx (w : World) (req : Request) (reply : Reply) :
    (w.receive req reply).ctx = { w.ctx with curlBuf := reply.body } :=
  rfl

/-- The files stay as they are. -/
@[simp]
theorem World.receive_files (w : World) (req : Request) (reply : Reply) :
    (w.receive req reply).files = w.files :=
  rfl

/-- The state after a mark was appended to the log. -/
def World.marked (w : World) (e : Event) : World := { w with log := w.log ++ [e] }

/-- A mark is logged. -/
@[simp]
theorem World.marked_log (w : World) (e : Event) : (w.marked e).log = w.log ++ [e] :=
  rfl

/-- It leaves the context alone. -/
@[simp]
theorem World.marked_ctx (w : World) (e : Event) : (w.marked e).ctx = w.ctx :=
  rfl

/-- And the files. -/
@[simp]
theorem World.marked_files (w : World) (e : Event) : (w.marked e).files = w.files :=
  rfl

/-- The requests and replies of a log, in order. -/
def exchanges (evs : List Event) : List (Request × Reply) :=
  evs.filterMap fun
    | .http req reply => some (req, reply)
    | _ => none

/-- The exchanges of two parts of a log, one after the other. -/
@[simp]
theorem exchanges_append (evs evs' : List Event) :
    exchanges (evs ++ evs') = exchanges evs ++ exchanges evs' := by
  simp [exchanges]

/-- A reply is an exchange. -/
@[simp]
theorem exchanges_http (req : Request) (reply : Reply) (evs : List Event) :
    exchanges (.http req reply :: evs) = (req, reply) :: exchanges evs :=
  rfl

/-- The outcome of a refresh is none. -/
@[simp]
theorem exchanges_refreshed (rv : AmvpResult) (evs : List Event) :
    exchanges (.refreshed rv :: evs) = exchanges evs :=
  rfl

/-- Nothing has been exchanged at the start. -/
@[simp]
theorem exchanges_nil : exchanges [] = [] :=
  rfl

/-- The log entries of a list of exchanges. -/
def httpEvents (xs : List (Request × Reply)) : List Event :=
  xs.map fun x => .http x.1 x.2

/-- The exchanges of a log made of them. -/
@[simp]
theorem exchanges_httpEvents (xs : List (Request × Reply)) : exchanges (httpEvents xs) = xs := by
  induction xs with
  | nil => rfl
  | cons x xs ih => simpa [httpEvents] using ih

section Network

variable (out : Outside)

/-- Sending a request logs it with the server's reply. -/
@[simp]
theorem curlHttp_apply (req : Request) (w : World) :
    curlHttp out req w =
      ((out.server w.log req).code, w.receive req (out.server w.log req)) :=
  rfl

/-- What goes on after a request sees the server's reply. -/
@[simp]
theorem curlHttp_bind {α : Type} (req : Request) (f : Int → Session α) (w : World) :
    (curlHttp out req >>= f) w =
      f (out.server w.log req).code (w.receive req (out.server w.log req)) :=
  rfl

/-- An attempt at a URL: one or two exchanges, of which the last one decides the
status code and the receive buffer. -/
def Attempt (api : Api) (action : NetAction) (url : String) (w : World) (rc : Int)
    (w' : World) : Prop :=
  ∃ (earlier : List (Request × Reply)) (req : Request) (reply : Reply),
    earlier.length ≤ 1 ∧
    (∀ x ∈ earlier ++ [(req, reply)],
      x.1.api = api ∧ x.1.action = action ∧ x.1.url = url) ∧
    rc = reply.code ∧
    w' = { w with
      ctx := { w.ctx with curlBuf := reply.body }
      log := w.log ++ httpEvents (earlier ++ [(req, reply)]) }

/-- One request is an attempt. -/
theorem attempt_curlHttp (req : Request) (w : World) :
    Attempt req.api req.action req.url w (curlHttp out req w).1 (curlHttp out req w).2 := by
  refine ⟨[], req, out.server w.log req, by simp, ?_, rfl, rfl⟩
  intro x hx
  obtain rfl : x = (req, out.server w.log req) := by simpa using hx
  exact ⟨rfl, rfl, rfl⟩

/-- A response POST with its fallback PUT is an attempt. -/
theorem attempt_postVsResp (api : Api) (action : NetAction) (url : String)
    (resp : Option Json) (w : World) :
    Attempt api action url w (postVsResp out api action url resp w).1
      (postVsResp out api action url resp w).2 := by
  simp only [postVsResp, curlHttpPost, curlHttpPut, curlHttp_bind, getCtx_bind, Prog.ite_apply]
  split
  · refine ⟨[(⟨api, action, .post, url, resp⟩,
      out.server w.log ⟨api, action, .post, url, resp⟩)], ⟨api, action, .put, url, resp⟩, _,
      by simp, ?_, rfl, ?_⟩
    · intro x hx
      rcases List.mem_append.mp hx with hx | hx
      all_goals
        rw [List.mem_singleton] at hx
        subst hx
        exact ⟨rfl, rfl, rfl⟩
    · simp [World.receive, httpEvents]
  · exact attempt_curlHttp out ⟨api, action, .post, url, resp⟩ w

/-- The first {lit}`switch` makes an attempt. -/
theorem attempt_firstAttempt (api : Api) (action : NetAction) (url : String)
    (data resp : Option Json) (w : World) :
    Attempt api action url w (firstAttempt out api action url data resp w).1
      (firstAttempt out api action url data resp w).2 := by
  cases action with
  | postVsResp => exact attempt_postVsResp out api .postVsResp url resp w
  | get => exact attempt_curlHttp out ⟨api, .get, .get, url, none⟩ w
  | getVs => exact attempt_curlHttp out ⟨api, .getVs, .get, url, none⟩ w
  | getDocs => exact attempt_curlHttp out ⟨api, .getDocs, .get, url, none⟩ w
  | getVsResult => exact attempt_curlHttp out ⟨api, .getVsResult, .get, url, none⟩ w
  | getVsSample => exact attempt_curlHttp out ⟨api, .getVsSample, .get, url, none⟩ w
  | post => exact attempt_curlHttp out ⟨api, .post, .post, url, data⟩ w
  | postLogin => exact attempt_curlHttp out ⟨api, .postLogin, .post, url, data⟩ w
  | postReg => exact attempt_curlHttp out ⟨api, .postReg, .post, url, data⟩ w
  | put => exact attempt_curlHttp out ⟨api, .put, .put, url, data⟩ w
  | putValidation => exact attempt_curlHttp out ⟨api, .putValidation, .put, url, data⟩ w
  | delete => exact attempt_curlHttp out ⟨api, .delete, .delete, url, none⟩ w

/-- Apart from DELETE, the retry does what the first attempt did. -/
theorem secondAttempt_eq_firstAttempt {action : NetAction} (hdelete : action ≠ .delete)
    (hlogin : action ≠ .postLogin) (api : Api) (url : String) (data resp : Option Json)
    (rc : Int) :
    secondAttempt out api action url data resp rc =
      firstAttempt out api action url data resp := by
  cases action <;> first | rfl | contradiction

/-! ## The login at the bottom of the recursion -/

/-- The request a login action sends. -/
def loginRequest (api : Api) (url : String) (data : Json) : Request :=
  ⟨api, .postLogin, .post, url, some data⟩

/-- The state in which a login action sends its request. -/
def World.withoutJwt (w : World) : World := { w with ctx := { w.ctx with jwtToken := none } }

/-- A login action sends one request and never refreshes, at any depth. -/
theorem networkActionDepth_login (depth : Nat) (api : Api) (url : String) (data : Json)
    (w : World) :
    networkActionDepth out (depth + 1) api .postLogin url (some data) w =
      let reply := out.server w.log (loginRequest api url data)
      (some (inspectHttpCode reply.code reply.body),
        w.withoutJwt.receive (loginRequest api url data) reply) := by
  simp [networkActionDepth, checkData, genericAction, executeNetworkAction, firstAttempt,
    curlHttpPost, loginRequest, World.withoutJwt]

/-- A login depends on the network action only at login actions with data. -/
theorem loginWith_congr
    {net net' : Api → NetAction → String → Option Json → Session (Option AmvpResult)}
    (hnet : ∀ api url data, net api .postLogin url (some data) =
      net' api .postLogin url (some data)) (refresh : Bool) :
    loginWith out net refresh = loginWith out net' refresh := by
  simp only [loginWith, sendWithPathSeg, hnet]

/-- The depth left for a login does not matter once there is some. -/
theorem loginWith_depth (depth : Nat) (refresh : Bool) :
    loginWith out (networkActionDepth out (depth + 1)) refresh =
      loginWith out (networkActionDepth out 1) refresh := by
  apply loginWith_congr
  intro api url data
  funext w
  rw [networkActionDepth_login out depth, networkActionDepth_login out 0]

/-- Building the login message changes nothing. -/
theorem buildLogin_world (refresh : Bool) (w : World) : (buildLogin out refresh w).2 = w := by
  simp only [buildLogin, Prog.read_bind_apply, Prog.ite_apply, Prog.pure_apply]
  split
  · rfl
  · split <;> rfl

/-- States that differ in the token at most. -/
def tokenFrame : Frame World where
  rel a b := b = { a with ctx := { a.ctx with jwtToken := b.ctx.jwtToken } }
  refl _ := rfl
  trans := by
    rintro a b c hab hbc
    rw [hbc, hab]

/-- Reading the login reply changes the token at most. -/
theorem tokenFrame_parseLogin : tokenFrame.Keeps parseLogin := by
  refine .bind (fun w => tokenFrame.refl w) fun ctx => .ite (.pure _) ?_
  split
  · exact .pure _
  · exact .ite (.pure _) (.bind (fun w => rfl) fun _ => .pure _)

/-- A path is refused without a request, or handed to the network action. -/
theorem sendWithPathSeg_cases
    (net : Api → NetAction → String → Option Json → Session (Option AmvpResult))
    (api : Api) (action : NetAction) (uri : String) (data : Option Json) (w : World) :
    (∃ rv, rv ≠ .success ∧ sendWithPathSeg net api action uri data w = (some rv, w)) ∨
    (∃ url, sendWithPathSeg net api action uri data w = net api action url data w) := by
  simp only [sendWithPathSeg, getCtx_bind, Prog.ite_apply]
  by_cases hsanity : sanityCheckCtx w.ctx = .success
  · rw [if_neg (not_not.mpr hsanity)]
    cases w.ctx.pathSegment with
    | none => exact .inl ⟨.missingArg, by decide, rfl⟩
    | some pathSegment => exact .inr ⟨_, rfl⟩
  · rw [if_pos hsanity]
    exact .inl ⟨_, hsanity, rfl⟩

/-- Every way a login can run: it fails before it sends, or it exchanges one
login request. -/
theorem loginWith_cases (refresh : Bool) (w : World) :
    (∃ rv, loginWith out (networkActionDepth out 1) refresh w = (some rv, w)) ∨
    (∃ url data rv jwt,
      let req := loginRequest .login url data
      let reply := out.server w.log req
      loginWith out (networkActionDepth out 1) refresh w =
        (some rv, { w with
          ctx := { w.ctx with jwtToken := jwt, curlBuf := reply.body }
          log := w.log ++ [.http req reply] })) := by
  rw [loginWith, Prog.bind_apply, buildLogin_world]
  cases hbuild : (buildLogin out refresh w).1 with
  | error rv => exact .inl ⟨rv, rfl⟩
  | ok login =>
      dsimp only
      rcases sendWithPathSeg_cases (networkActionDepth out 1) .login .postLogin "login"
        (some login) w with ⟨rv, hrv, hsend⟩ | ⟨url, hsend⟩
      · rw [Prog.bind_of_eq hsend]
        exact .inl ⟨rv, by simp [hrv]⟩
      · right
        rw [networkActionDepth_login] at hsend
        rw [Prog.bind_of_eq hsend]
        refine ⟨url, login, ?_⟩
        simp only [Prog.ite_apply]
        split
        · exact ⟨_, none, rfl⟩
        · exact ⟨_, _, congrArg _ (tokenFrame_parseLogin _)⟩

/-- A login that may not refresh ends. -/
theorem loginWith_isSome (refresh : Bool) (w : World) :
    (loginWith out (networkActionDepth out 1) refresh w).1.isSome := by
  rcases loginWith_cases out refresh w with ⟨rv, h⟩ | ⟨url, data, rv, jwt, h⟩
  · rw [h]
    rfl
  · rw [h]
    rfl

/-- {lit}`amvp_login`. -/
def login (refresh : Bool) : Session AmvpResult :=
  Prog.total (loginWith out (networkActionDepth out 1) refresh) (loginWith_isSome out refresh)

/-- {lit}`amvp_refresh`. -/
def refresh : Session AmvpResult := login out true

/-- A login ends without a request, or after one login request. -/
theorem login_cases (refresh : Bool) (w : World) :
    (∃ rv, login out refresh w = (rv, w)) ∨
    (∃ url data rv jwt,
      let req := loginRequest .login url data
      let reply := out.server w.log req
      login out refresh w =
        (rv, { w with
          ctx := { w.ctx with jwtToken := jwt, curlBuf := reply.body }
          log := w.log ++ [.http req reply] })) := by
  rcases loginWith_cases out refresh w with ⟨rv, h⟩ | ⟨url, data, rv, jwt, h⟩
  · exact .inl ⟨rv, Prog.total_apply h⟩
  · exact .inr ⟨url, data, rv, jwt, Prog.total_apply h⟩

/-! ## Every run of a network action -/

/-- The state in which {lit}`execute_network_action` starts. -/
def World.clearJwt (w : World) (action : NetAction) : World :=
  { w with
    ctx := { w.ctx with jwtToken := if action = .postLogin then none else w.ctx.jwtToken } }

/-- Clearing the token logs nothing. -/
@[simp]
theorem World.clearJwt_log (w : World) (action : NetAction) :
    (w.clearJwt action).log = w.log :=
  rfl

/-- Only a login clears it. -/
theorem World.clearJwt_of_ne {action : NetAction} (w : World) (h : action ≠ .postLogin) :
    w.clearJwt action = w := by
  rw [World.clearJwt, if_neg h]

/-- Every way a network action can run, from its start to the result and the
state it ends in. -/
inductive NetworkRun (api : Api) (action : NetAction) (url : String) (w : World) :
    AmvpResult → World → Prop
  /-- The arguments are refused. -/
  | refused {rv : AmvpResult} (hrv : rv ≠ .success)
      (hdata : checkData action = true ∨ action = .postVsResp) :
      NetworkRun api action url w rv (w.clearJwt action)
  /-- The first attempt decides. -/
  | answered {rc : Int} {w₁ : World}
      (hfirst : Attempt api (genericAction action) url (w.clearJwt action) rc w₁)
      (hfinal : inspectHttpCode rc w₁.ctx.curlBuf ≠ .jwtExpired ∨ action = .postLogin) :
      NetworkRun api action url w (inspectHttpCode rc w₁.ctx.curlBuf) w₁
  /-- The token has expired and the refresh fails. -/
  | refreshFailed {rc : Int} {w₁ w₂ : World} {rv : AmvpResult}
      (hfirst : Attempt api (genericAction action) url w rc w₁)
      (hlogin : action ≠ .postLogin) (hrefresh : refresh out w₁ = (rv, w₂))
      (hrv : rv ≠ .success) (hexpired : inspectHttpCode rc w₁.ctx.curlBuf = .jwtExpired) :
      NetworkRun api action url w rv (w₂.marked (.refreshed rv))
  /-- The token has expired and the request is repeated after a refresh. -/
  | repeated {rc rc' : Int} {w₁ w₂ w₃ : World}
      (hfirst : Attempt api (genericAction action) url w rc w₁)
      (hlogin : action ≠ .postLogin) (hdelete : action ≠ .delete)
      (hrefresh : refresh out w₁ = (.success, w₂))
      (hsecond : Attempt api (genericAction action) url
        (w₂.marked (.refreshed .success)) rc' w₃) :
      NetworkRun api action url w (inspectHttpCode rc' w₃.ctx.curlBuf) w₃
  /-- The token has expired and a DELETE is repeated after a refresh: the old status
  code stands beside the new body. -/
  | repeatedDelete {rc rc' : Int} {w₁ w₂ w₃ : World}
      (hfirst : Attempt api .delete url w rc w₁) (hdelete : action = .delete)
      (hexpired : inspectHttpCode rc w₁.ctx.curlBuf = .jwtExpired)
      (hrefresh : refresh out w₁ = (.success, w₂))
      (hsecond : Attempt api .delete url (w₂.marked (.refreshed .success)) rc' w₃) :
      NetworkRun api action url w (inspectHttpCode rc w₃.ctx.curlBuf) w₃

/-- With some depth left, the refresh of an activation is {lit}`refresh`. -/
theorem loginWith_eq_refresh (depth : Nat) (w : World) :
    loginWith out (networkActionDepth out (depth + 1)) true w =
      (some (refresh out w).1, (refresh out w).2) := by
  rw [loginWith_depth]
  exact Prog.eq_total _ (loginWith_isSome out true) w

/-- An action ends when its refresh does: with its own requests, and with those of one login at
most. -/
theorem executeNetworkAction_run (depth : Nat) (api : Api) (action : NetAction) (url : String)
    (data : Option Json) (w : World) :
    ∃ rv w', executeNetworkAction out (loginWith out (networkActionDepth out (depth + 1)) true)
        api (genericAction action) url data (w.clearJwt action) = (some rv, w') ∧
      NetworkRun out api action url w rv w' := by
  rw [executeNetworkAction, getCtx_bind, Prog.ite_apply]
  split_ifs with hresp
  · have haction : action = .postVsResp := by
      cases action <;> simp_all [genericAction]
    exact ⟨_, _, rfl, .refused (by decide) (.inr haction)⟩
  · have hfirst := attempt_firstAttempt out api (genericAction action) url data
      (w.clearJwt action).ctx.katResp (w.clearJwt action)
    obtain ⟨⟨rc, w₁⟩, hrun⟩ : ∃ p, firstAttempt out api (genericAction action) url data
      (w.clearJwt action).ctx.katResp (w.clearJwt action) = p := ⟨_, rfl⟩
    rw [hrun] at hfirst
    rw [Prog.bind_of_eq hrun, getCtx_bind]
    dsimp only at hfirst ⊢
    rw [Prog.ite_apply]
    split_ifs with hexpired
    · obtain ⟨hexpired, hlogin⟩ := hexpired
      have hlogin : action ≠ .postLogin := by
        rintro rfl
        exact hlogin rfl
      rw [w.clearJwt_of_ne hlogin] at hfirst ⊢
      obtain ⟨⟨rv, w₂⟩, hrefresh⟩ : ∃ p, refresh out w₁ = p := ⟨_, rfl⟩
      have hnested := loginWith_eq_refresh out depth w₁
      rw [hrefresh] at hnested
      rw [Prog.bind_of_eq hnested]
      dsimp only
      rw [mark_bind, Prog.ite_apply]
      split_ifs with hrv
      · exact ⟨_, _, rfl, .refreshFailed hfirst hlogin hrefresh hrv hexpired⟩
      · obtain rfl : rv = .success := not_not.mp hrv
        by_cases hdelete : action = .delete
        · subst hdelete
          exact ⟨_, _, rfl, .repeatedDelete hfirst rfl hexpired hrefresh
            (attempt_curlHttp out ⟨api, .delete, .delete, url, none⟩ _)⟩
        · rw [secondAttempt_eq_firstAttempt out (by cases action <;> simp_all [genericAction])
            (by cases action <;> simp_all [genericAction])]
          exact ⟨_, _, rfl, .repeated hfirst hlogin hdelete hrefresh
            (attempt_firstAttempt out api (genericAction action) url data _ _)⟩
    · refine ⟨_, _, rfl, .answered hfirst ?_⟩
      by_cases hlogin : action = .postLogin
      · exact .inr hlogin
      · refine .inl fun hcode => hexpired ⟨hcode, ?_⟩
        cases action <;> simp_all [genericAction]

/-- Two activations are enough for every network action, and it runs in one of the
ways of {lit}`NetworkRun`. -/
theorem networkActionDepth_run (depth : Nat) (api : Api) (action : NetAction) (url : String)
    (data : Option Json) (w : World) :
    ∃ rv w', networkActionDepth out (depth + 2) api action url data w = (some rv, w') ∧
      NetworkRun out api action url w rv w' := by
  rw [networkActionDepth, modifyCtx_bind, Prog.ite_apply]
  by_cases hdata : checkData action ∧ data = none
  · rw [if_pos hdata]
    exact ⟨_, _, rfl, .refused (by decide) (.inl hdata.1)⟩
  · rw [if_neg hdata]
    exact executeNetworkAction_run out depth api action url data w

/-- Depth two is enough for every action. -/
theorem networkActionDepth_isSome (depth : Nat) (api : Api) (action : NetAction) (url : String)
    (data : Option Json) (w : World) :
    (networkActionDepth out (depth + 2) api action url data w).1.isSome := by
  obtain ⟨rv, w', hrun, -⟩ := networkActionDepth_run out depth api action url data w
  rw [hrun]
  rfl

/-- More depth changes nothing. -/
theorem networkActionDepth_stable (depth : Nat) (api : Api) (action : NetAction) (url : String)
    (data : Option Json) :
    networkActionDepth out (depth + 2) api action url data =
      networkActionDepth out 2 api action url data := by
  rw [networkActionDepth, networkActionDepth, loginWith_depth]

/-- {lit}`amvp_network_action`. -/
def networkAction (api : Api) (action : NetAction) (url : String) (data : Option Json) :
    Session AmvpResult :=
  Prog.total (networkActionDepth out 2 api action url data)
    (networkActionDepth_isSome out 0 api action url data)

/-- Every way a network action can run. -/
theorem networkAction_cases (api : Api) (action : NetAction) (url : String)
    (data : Option Json) (w : World) :
    NetworkRun out api action url w (networkAction out api action url data w).1
      (networkAction out api action url data w).2 := by
  obtain ⟨rv, w', hrun, hcases⟩ := networkActionDepth_run out 0 api action url data w
  have htotal : networkAction out api action url data w = (rv, w') := Prog.total_apply hrun
  rw [htotal]
  exact hcases

/-- At every depth that is enough, the activation is {lit}`networkAction`. -/
theorem networkActionDepth_eq (depth : Nat) (api : Api) (action : NetAction) (url : String)
    (data : Option Json) (w : World) :
    networkActionDepth out (depth + 2) api action url data w =
      (some (networkAction out api action url data w).1,
        (networkAction out api action url data w).2) := by
  rw [networkActionDepth_stable]
  exact Prog.eq_total _ (networkActionDepth_isSome out 0 api action url data) w

/-! ## The number of requests -/

variable {out}

/-- An attempt logs one or two exchanges of its own action. -/
theorem Attempt.log_eq {api : Api} {action : NetAction} {url : String} {w w' : World} {rc : Int}
    (h : Attempt api action url w rc w') :
    ∃ xs, w'.log = w.log ++ httpEvents xs ∧ xs.length ≤ 2 ∧ ∀ x ∈ xs, x.1.action = action := by
  obtain ⟨earlier, req, reply, hearlier, hown, -, rfl⟩ := h
  exact ⟨earlier ++ [(req, reply)], rfl, by simp; omega, fun x hx => (hown x hx).2.1⟩

/-- A refresh logs at most one exchange. -/
theorem refresh_log_eq {w w' : World} {rv : AmvpResult} (h : refresh out w = (rv, w')) :
    ∃ xs, w'.log = w.log ++ httpEvents xs ∧ xs.length ≤ 1 := by
  rcases login_cases out true w with ⟨rv', hlogin⟩ | ⟨url, data, rv', jwt, hlogin⟩
  · obtain ⟨rfl, rfl⟩ := Prod.mk.inj (h.symm.trans hlogin)
    exact ⟨[], by simp [httpEvents], by simp⟩
  · obtain ⟨rfl, rfl⟩ := Prod.mk.inj (h.symm.trans hlogin)
    exact ⟨[(loginRequest .login url data, _)], rfl, by simp⟩

/-- The number of login requests among some exchanges. -/
def loginCount (xs : List (Request × Reply)) : Nat :=
  (xs.filter fun x => x.1.action = .postLogin).length

/-- The logins of two parts, together. -/
@[simp]
theorem loginCount_append (xs ys : List (Request × Reply)) :
    loginCount (xs ++ ys) = loginCount xs + loginCount ys := by
  simp [loginCount]

/-- There are no more logins than requests. -/
theorem loginCount_le_length (xs : List (Request × Reply)) : loginCount xs ≤ xs.length :=
  List.length_filter_le _ xs

/-- Requests of another action are no logins. -/
theorem loginCount_eq_zero {xs : List (Request × Reply)} (action : NetAction)
    (hxs : ∀ x ∈ xs, x.1.action = genericAction action) (hlogin : action ≠ .postLogin) :
    loginCount xs = 0 := by
  rw [loginCount, List.length_eq_zero_iff, List.filter_eq_nil_iff]
  intro x hx
  rw [hxs x hx]
  cases action <;> simp_all [genericAction]

/-- An action other than a login needs at most five requests and one login. -/
theorem NetworkRun.sent_le {api : Api} {action : NetAction} {url : String} {w w' : World}
    {rv : AmvpResult} (hlogin : action ≠ .postLogin)
    (h : NetworkRun out api action url w rv w') :
    (exchanges (since w.log w'.log)).length ≤ 5 ∧
      loginCount (exchanges (since w.log w'.log)) ≤ 1 := by
  cases h with
  | refused => simp [loginCount]
  | answered hfirst =>
      obtain ⟨xs, hlog, hlength, hown⟩ := hfirst.log_eq
      have hzero := loginCount_eq_zero action hown hlogin
      rw [World.clearJwt_log] at hlog
      simp only [hlog, since_append, exchanges_httpEvents]
      omega
  | refreshFailed hfirst _ hrefresh =>
      obtain ⟨xs, hlog, hlength, hown⟩ := hfirst.log_eq
      obtain ⟨ys, hlog', hlength'⟩ := refresh_log_eq hrefresh
      have hzero := loginCount_eq_zero action hown hlogin
      have hone := loginCount_le_length ys
      simp only [World.marked_log, hlog', hlog, List.append_assoc, since_append,
        exchanges_append, exchanges_httpEvents, exchanges_refreshed, exchanges_nil,
        List.append_nil, List.length_append, loginCount_append]
      omega
  | repeated hfirst _ _ hrefresh hsecond | repeatedDelete hfirst _ _ hrefresh hsecond =>
      obtain ⟨xs, hlog, hlength, hown⟩ := hfirst.log_eq
      obtain ⟨ys, hlog', hlength'⟩ := refresh_log_eq hrefresh
      obtain ⟨zs, hlog'', hlength'', hown'⟩ := hsecond.log_eq
      have hzero := loginCount_eq_zero action (by simpa [*, genericAction] using hown) hlogin
      have hzero' := loginCount_eq_zero action (by simpa [*, genericAction] using hown') hlogin
      have hone := loginCount_le_length ys
      simp only [World.marked_log] at hlog''
      simp only [hlog'', hlog', hlog, List.append_assoc, since_append, exchanges_append,
        exchanges_httpEvents, exchanges_refreshed, List.cons_append,
        List.nil_append, List.length_append, loginCount_append]
      omega

variable (out)

/-- A login action without data sends nothing. -/
theorem networkActionDepth_login_none (depth : Nat) (api : Api) (url : String) (w : World) :
    networkActionDepth out (depth + 1) api .postLogin url none w =
      (some .noData, w.withoutJwt) := by
  simp [networkActionDepth, checkData, World.withoutJwt]

/-- A login action needs one activation only. -/
theorem networkActionDepth_login_eq (depth : Nat) (api : Api) (url : String)
    (data : Option Json) (w : World) :
    networkActionDepth out (depth + 1) api .postLogin url data w =
      (some (networkAction out api .postLogin url data w).1,
        (networkAction out api .postLogin url data w).2) := by
  rw [← networkActionDepth_eq out 0]
  cases data with
  | none => rw [networkActionDepth_login_none, networkActionDepth_login_none]
  | some data => rw [networkActionDepth_login, networkActionDepth_login]

/-- A network action ends after at most two nested activations and five requests,
at most one of them a login; a login action that is given data sends exactly one
request and never refreshes. -/
theorem networkAction_bounded (api : Api) (action : NetAction) (url : String)
    (data : Option Json) (w : World) :
    let w' := (networkAction out api action url data w).2
    let sent := exchanges (since w.log w'.log)
    (∀ depth, networkActionDepth out (depth + 2) api action url data w =
      (some (networkAction out api action url data w).1, w')) ∧
    sent.length ≤ 5 ∧ loginCount sent ≤ 1 ∧
    (action = .postLogin →
      (∀ depth, networkActionDepth out (depth + 1) api action url data w =
        (some (networkAction out api action url data w).1, w')) ∧
      (∀ rv, .refreshed rv ∉ since w.log w'.log) ∧
      sent.length = if data = none then 0 else 1) := by
  intro w' sent
  refine ⟨fun depth => networkActionDepth_eq out depth api action url data w, ?_⟩
  by_cases hlogin : action = .postLogin
  · subst hlogin
    have hdepth := fun depth => networkActionDepth_login_eq out depth api url data w
    cases data with
    | none =>
        have hw' : w' = w.withoutJwt := by
          have hrun := (hdepth 0).symm.trans (networkActionDepth_login_none out 0 api url w)
          exact (Prod.mk.inj hrun).2
        have hnew : since w.log w'.log = [] := by simp [hw', World.withoutJwt]
        simp [sent, hnew, loginCount, hdepth, w']
    | some data =>
        have hw' : w' = w.withoutJwt.receive (loginRequest api url data)
            (out.server w.log (loginRequest api url data)) := by
          have hrun := (hdepth 0).symm.trans (networkActionDepth_login out 0 api url data w)
          exact (Prod.mk.inj hrun).2
        have hnew : since w.log w'.log = [.http (loginRequest api url data)
            (out.server w.log (loginRequest api url data))] := by
          simp [hw', World.withoutJwt]
        simp [sent, hnew, loginCount, hdepth, w', loginRequest]
  · have hbound := (networkAction_cases out api action url data w).sent_le hlogin
    exact ⟨hbound.1, hbound.2, fun h => absurd h hlogin⟩

/-! ## The returned result -/

/-- The result of a run with these events is the error of a failed refresh, and
otherwise that of the last reply received for the URL. -/
def LastReplyDecides (url : String) (rv : AmvpResult) (evs : List Event) : Prop :=
  (∀ e, .refreshed e ∈ evs → e ≠ .success → rv = e) ∧
  ((∀ e, .refreshed e ∈ evs → e = .success) →
    ∀ x ∈ ((exchanges evs).filter fun x => x.1.url = url).getLast?,
      rv = inspectHttpCode x.2.code x.2.body)

/-- The network action returns the error of a failed refresh, and otherwise the
result of the last reply received for its own URL. -/
def ResultOfLastReply (api : Api) (action : NetAction) (url : String) (data : Option Json)
    (w : World) : Prop :=
  LastReplyDecides url (networkAction out api action url data w).1
    (since w.log (networkAction out api action url data w).2.log)

variable {out}

/-- Where nothing was exchanged, no reply decides. -/
theorem lastReplyDecides_nil (url : String) (rv : AmvpResult) : LastReplyDecides url rv [] := by
  simp [LastReplyDecides]

/-- A failed refresh decides. -/
theorem lastReplyDecides_of_failed {url : String} {rv : AmvpResult}
    (xs : List (Request × Reply)) {ys : List (Request × Reply)} (hrv : rv ≠ .success) :
    LastReplyDecides url rv (httpEvents xs ++ (httpEvents ys ++ [.refreshed rv])) := by
  refine ⟨?_, fun hall => absurd (hall rv (by simp)) hrv⟩
  intro e hmem _
  have he : e = rv := by simpa [httpEvents] using hmem
  exact he.symm

/-- When no refresh failed and the run ends with an own exchange, its reply decides. -/
theorem lastReplyDecides_iff_own {url : String} {rv : AmvpResult} {evs : List Event}
    (earlier : List (Request × Reply)) {req : Request} (reply : Reply)
    (hrefreshed : ∀ e, .refreshed e ∈ evs → e = .success)
    (hown : exchanges evs = earlier ++ [(req, reply)]) (hurl : req.url = url) :
    LastReplyDecides url rv evs ↔ rv = inspectHttpCode reply.code reply.body := by
  have hlast : ((exchanges evs).filter fun x => x.1.url = url).getLast? = some (req, reply) := by
    simp [hown, List.filter_append, hurl]
  rw [LastReplyDecides, hlast]
  constructor
  · intro h
    exact h.2 hrefreshed (req, reply) rfl
  · intro h
    refine ⟨fun e hmem he => absurd (hrefreshed e hmem) he, ?_⟩
    rintro _ x hx
    obtain rfl : (req, reply) = x := by simpa using hx
    exact h

/-- No refresh is logged among exchanges. -/
@[simp]
theorem refreshed_notMem_httpEvents (rv : AmvpResult) (xs : List (Request × Reply)) :
    .refreshed rv ∉ httpEvents xs := by
  simp [httpEvents]

/-- An attempt ends with an exchange of its own URL that fills the receive buffer. -/
theorem Attempt.last_own {api : Api} {action : NetAction} {url : String} {w w' : World}
    {rc : Int} (h : Attempt api action url w rc w') :
    ∃ earlier req reply, w'.log = w.log ++ httpEvents (earlier ++ [(req, reply)]) ∧
      req.api = api ∧ req.url = url ∧ rc = reply.code ∧ w'.ctx.curlBuf = reply.body := by
  obtain ⟨earlier, req, reply, -, hown, rfl, rfl⟩ := h
  obtain ⟨hapi, -, hurl⟩ := hown (req, reply) (by simp)
  exact ⟨earlier, req, reply, rfl, hapi, hurl, rfl, rfl⟩

/-- Every run that does not repeat a DELETE returns the result of its last reply. -/
theorem resultOfLastReply_of_ne_delete {api : Api} {action : NetAction} {url : String}
    {data : Option Json} {w : World} (hdelete : action ≠ .delete) :
    ResultOfLastReply out api action url data w := by
  have hrun := networkAction_cases out api action url data w
  obtain ⟨⟨rv, w'⟩, heq⟩ : ∃ p, networkAction out api action url data w = p := ⟨_, rfl⟩
  rw [ResultOfLastReply, heq]
  rw [heq] at hrun
  dsimp only at hrun ⊢
  cases hrun with
  | refused => simpa using lastReplyDecides_nil url rv
  | answered hfirst =>
      obtain ⟨earlier, req, reply, hlog, -, hurl, rfl, hbody⟩ := hfirst.last_own
      rw [World.clearJwt_log] at hlog
      rw [hlog, since_append, lastReplyDecides_iff_own _ _ (by simp) (exchanges_httpEvents _) hurl,
        hbody]
  | refreshFailed hfirst _ hrefresh hrv =>
      obtain ⟨xs, hlog, -⟩ := hfirst.log_eq
      obtain ⟨ys, hlog', -⟩ := refresh_log_eq hrefresh
      rw [World.marked_log, hlog', hlog, List.append_assoc, List.append_assoc, since_append]
      exact lastReplyDecides_of_failed xs hrv
  | repeated hfirst _ _ hrefresh hsecond =>
      obtain ⟨xs, hlog, -⟩ := hfirst.log_eq
      obtain ⟨ys, hlog', -⟩ := refresh_log_eq hrefresh
      obtain ⟨earlier, req, reply, hlog'', -, hurl, rfl, hbody⟩ := hsecond.last_own
      rw [World.marked_log, hlog', hlog] at hlog''
      simp only [List.append_assoc] at hlog''
      rw [hlog'', since_append, lastReplyDecides_iff_own (xs ++ (ys ++ earlier))
        reply (by simp) (by simp) hurl, hbody]
  | repeatedDelete _ h => exact absurd h hdelete

variable (out)

/-- The request of a DELETE action. -/
def deleteRequest (api : Api) (url : String) : Request := ⟨api, .delete, .delete, url, none⟩

/-- Whenever a DELETE is repeated after a refresh, its new reply means, beside the old
status code 401, what it means beside its own. -/
def RepeatedDeleteAgrees (api : Api) (url : String) (w : World) : Prop :=
  let req := deleteRequest api url
  let first := out.server w.log req
  let refreshed := refresh out (w.receive req first)
  let retry := out.server (refreshed.2.log ++ [.refreshed .success]) req
  inspectHttpCode first.code first.body = .jwtExpired → refreshed.1 = .success →
    inspectHttpCode 401 retry.body = inspectHttpCode retry.code retry.body

/-- Only the status code 401 stands for an expired token. -/
theorem code_of_jwtExpired {code : Int} {body : Option Json}
    (h : inspectHttpCode code body = .jwtExpired) : code = 401 := by
  by_contra hcode
  simp only [inspectHttpCode, if_neg hcode] at h
  split_ifs at h

/-- A DELETE whose first reply does not say that the token has expired. -/
theorem networkAction_delete (api : Api) (url : String) (data : Option Json) (w : World)
    (h : inspectHttpCode (out.server w.log (deleteRequest api url)).code
      (out.server w.log (deleteRequest api url)).body ≠ .jwtExpired) :
    networkAction out api .delete url data w =
      (inspectHttpCode (out.server w.log (deleteRequest api url)).code
        (out.server w.log (deleteRequest api url)).body,
        w.receive (deleteRequest api url) (out.server w.log (deleteRequest api url))) := by
  apply Prog.total_apply
  rw [networkActionDepth, modifyCtx_bind, if_neg (by simp [checkData]), executeNetworkAction,
    getCtx_bind, if_neg (by simp [genericAction])]
  simp only [genericAction, firstAttempt, curlHttpDelete, curlHttp_bind, getCtx_bind]
  rw [Prog.ite_apply, if_neg (fun hexpired => h hexpired.1)]
  rfl

/-- A DELETE whose first reply says that the token has expired. -/
theorem networkAction_delete_expired (api : Api) (url : String) (data : Option Json)
    (w : World) {w₂ : World} {rv : AmvpResult}
    (h : inspectHttpCode (out.server w.log (deleteRequest api url)).code
      (out.server w.log (deleteRequest api url)).body = .jwtExpired)
    (hrefresh : refresh out (w.receive (deleteRequest api url)
      (out.server w.log (deleteRequest api url))) = (rv, w₂)) :
    (rv ≠ .success →
      networkAction out api .delete url data w = (rv, w₂.marked (.refreshed rv))) ∧
    (rv = .success →
      networkAction out api .delete url data w =
        let retry := out.server (w₂.log ++ [.refreshed .success]) (deleteRequest api url)
        (inspectHttpCode 401 retry.body,
          (w₂.marked (.refreshed .success)).receive (deleteRequest api url) retry)) := by
  have hcode := code_of_jwtExpired h
  have hnested := loginWith_eq_refresh out 0
    (w.receive (deleteRequest api url) (out.server w.log (deleteRequest api url)))
  rw [hrefresh] at hnested
  -- both runs share everything up to the result of the refresh
  have hprefix : networkActionDepth out 2 api .delete url data w =
      if rv ≠ .success then (some rv, w₂.marked (.refreshed rv))
      else
        let retry := out.server (w₂.log ++ [.refreshed rv]) (deleteRequest api url)
        (some (inspectHttpCode 401 retry.body),
          (w₂.marked (.refreshed rv)).receive (deleteRequest api url) retry) := by
    rw [networkActionDepth, modifyCtx_bind, if_neg (by simp [checkData]), executeNetworkAction,
      getCtx_bind, if_neg (by simp [genericAction])]
    simp only [genericAction, firstAttempt, curlHttpDelete, curlHttp_bind, getCtx_bind]
    rw [Prog.ite_apply, if_pos ⟨h, by decide⟩]
    refine (Prog.bind_of_eq hnested _).trans ?_
    dsimp only
    rw [mark_bind, Prog.ite_apply, ← hcode]
    rfl
  constructor
  · intro hrv
    rw [if_pos hrv] at hprefix
    exact Prog.total_apply hprefix
  · rintro rfl
    rw [if_neg (by simp)] at hprefix
    exact Prog.total_apply hprefix

/-- A DELETE returns the result of its last reply exactly when a repeated one agrees. -/
theorem resultOfLastReply_delete_iff (api : Api) (url : String) (data : Option Json)
    (w : World) :
    ResultOfLastReply out api .delete url data w ↔ RepeatedDeleteAgrees out api url w := by
  obtain ⟨req, hreq⟩ : ∃ req, deleteRequest api url = req := ⟨_, rfl⟩
  have hurl : req.url = url := by
    rw [← hreq]
    rfl
  obtain ⟨first, hfirst⟩ : ∃ first, out.server w.log req = first := ⟨_, rfl⟩
  rw [ResultOfLastReply, RepeatedDeleteAgrees, hreq, hfirst]
  by_cases hexpired : inspectHttpCode first.code first.body = .jwtExpired
  · obtain ⟨⟨rv, w₂⟩, hrefresh⟩ : ∃ p, refresh out (w.receive req first) = p := ⟨_, rfl⟩
    obtain ⟨xs, hlog, -⟩ := refresh_log_eq hrefresh
    rw [World.receive_log, List.append_assoc] at hlog
    have hrefresh' : refresh out (w.receive (deleteRequest api url)
        (out.server w.log (deleteRequest api url))) = (rv, w₂) := by
      rw [hreq, hfirst]
      exact hrefresh
    have hrun := networkAction_delete_expired out api url data w
      (by rw [hreq, hfirst]; exact hexpired) hrefresh'
    rw [hreq] at hrun
    by_cases hrv : rv = .success
    · subst hrv
      rw [hrun.2 rfl, hrefresh]
      obtain ⟨retry, hretry⟩ :
        ∃ retry, out.server (w₂.log ++ [.refreshed .success]) req = retry := ⟨_, rfl⟩
      dsimp only
      rw [hretry, World.receive_log, World.marked_log, hlog]
      simp only [List.append_assoc]
      rw [since_append, lastReplyDecides_iff_own ((req, first) :: xs)
        retry (by simp) (by simp) hurl]
      exact ⟨fun h _ _ => h, fun h => h hexpired trivial⟩
    · rw [hrun.1 hrv, hrefresh]
      dsimp only
      rw [World.marked_log, hlog]
      simp only [List.append_assoc]
      rw [since_append]
      exact iff_of_true (lastReplyDecides_of_failed [(req, first)] hrv)
        fun _ h => absurd h hrv
  · have hrun := networkAction_delete out api url data w
      (by rw [hreq, hfirst]; exact hexpired)
    rw [hreq, hfirst] at hrun
    rw [hrun]
    dsimp only
    rw [World.receive_log, since_append,
      lastReplyDecides_iff_own [] first (by simp) (by simp) hurl]
    exact iff_of_true rfl fun h => absurd h hexpired

/-- The returned result is that of the last reply for the own URL, or the error of a
failed refresh, exactly when every repeated DELETE agrees with the expired one. -/
theorem networkAction_faithful_iff (api : Api) (action : NetAction) (url : String)
    (data : Option Json) (w : World) :
    ResultOfLastReply out api action url data w ↔
      (action = .delete → RepeatedDeleteAgrees out api url w) := by
  by_cases hdelete : action = .delete
  · subst hdelete
    rw [resultOfLastReply_delete_iff]
    exact ⟨fun h _ => h, fun h => h rfl⟩
  · exact iff_of_true (resultOfLastReply_of_ne_delete hdelete) fun h => absurd h hdelete

end Network

/-- A server that lets the token expire once and then accepts the DELETE. -/
def expireOnce : List Event → Request → Reply
  | [], _ => ⟨401, some (.arr [.obj [], .obj [("error", .str "JWT expired")]])⟩
  | _, ⟨_, .postLogin, _, _, _⟩ => ⟨200, some (.arr [.obj [("accessToken", .str "jwt")]])⟩
  | _, _ => ⟨200, none⟩

/-- An application without a one-time password callback, before the given server. -/
def Outside.plain (server : List Event → Request → Reply) : Outside where
  server := server
  totp := fun _ => none
  noLogin := false
  sessionSavePath := none
  sessionSavePrefix := none
  strayText := ""
  writable := fun _ => true
  katHandler := fun _ _ => none
  buildRegistrationJson := fun _ => (.success, some (.arr []))
  buildValidation := fun _ => (.success, some (.arr []))
  metadataQueries := fun _ => .done .success

/-- A fresh session that knows its server and the path there. -/
def World.start : World where
  ctx :=
    { Ctx.fresh with
      serverName := some "localhost", serverPort := 443, pathSegment := some "/amvp/v1/" }
  log := []
  files := fun _ => none

/-- The DELETE is repeated and accepted with code 200, but the transport failure that
the old code 401 stands for is returned. -/
theorem networkAction_delete_not_faithful :
    ¬ ResultOfLastReply (.plain expireOnce) (.delete "/x") .delete "https://localhost/x" none
      World.start := by
  rw [resultOfLastReply_delete_iff]
  intro h
  exact absurd (h rfl rfl) (by decide)

end LibAmvp
