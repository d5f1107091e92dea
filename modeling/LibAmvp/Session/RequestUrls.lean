import LibAmvp.Session.Registration

/-!
# The URLs of requests

Nine functions of the transport layer print a URL into a buffer of fixed size and hand
it to the network action: the server and its port, a path from the application or
from a reply, and the suffix that selects the resource.  None of them looks at the
length {lit}`snprintf` reports.

Main results:

- Theorem {lit}`UrlBuilder.perform_eq`: each function hands one URL to the network action, or
  refuses its arguments.
- Theorem {lit}`handedUrl_complete_iff`: the URL is complete exactly when it fits.
-/

namespace LibAmvp

section Builders

variable (out : Outside)

/-- {lit}`amvp_retrieve_expected_result`; its buffer is one byte longer. -/
def retrieveExpectedResult (apiUrl : Option String) : Session AmvpResult :=
  sendTo out amvpAttrUrlMax .vectorSetResult .getVsSample apiUrl "/expected" none

/-- {lit}`amvp_send_with_path_seg`, with the network action as it runs. -/
def sendWithPathSegment (api : Api) (action : NetAction) (uri : String) (data : Option Json) :
    Session AmvpResult := do
  sendTo out (amvpAttrUrlMax - 1) (fun _ => api) action (← getCtx).pathSegment uri data

/-- A call of one of the functions that build a URL. -/
inductive UrlBuilder where
  | submitVectorResponses (vsidUrl : String)
  | retrieveVectorSet (vsidUrl : String)
  | retrieveVectorSetResult (apiUrl : Option String)
  | retrieveExpectedResult (apiUrl : Option String)
  | retrieveDocs (vsidUrl : Option String)
  | transportPost (uri : Option String) (data : Option Json)
  | transportPut (endpoint : Option String) (data : Option Json)
  | transportDelete (endpoint : Option String)
  | sendWithPathSeg (api : Api) (action : NetAction) (uri : String) (data : Option Json)

namespace UrlBuilder

/-- The call itself. -/
def perform : UrlBuilder → Session AmvpResult
  | .submitVectorResponses vsidUrl => LibAmvp.submitVectorResponses out vsidUrl
  | .retrieveVectorSet vsidUrl => LibAmvp.retrieveVectorSet out vsidUrl
  | .retrieveVectorSetResult apiUrl => LibAmvp.retrieveVectorSetResult out apiUrl
  | .retrieveExpectedResult apiUrl => LibAmvp.retrieveExpectedResult out apiUrl
  | .retrieveDocs vsidUrl => LibAmvp.retrieveDocs out vsidUrl
  | .transportPost uri data => LibAmvp.transportPost out uri data
  | .transportPut endpoint data => LibAmvp.transportPut out endpoint data
  | .transportDelete endpoint => LibAmvp.transportDelete out endpoint
  | .sendWithPathSeg api action uri data => sendWithPathSegment out api action uri data

/-- The kind of request a path stands for. -/
def api : UrlBuilder → String → Api
  | .submitVectorResponses _ => .vectorResponses
  | .retrieveVectorSet _ => .vectorSet
  | .retrieveVectorSetResult _ | .retrieveExpectedResult _ => .vectorSetResult
  | .retrieveDocs _ => .docs
  | .transportPost _ _ => .post
  | .transportPut _ _ => .put
  | .transportDelete _ => .delete
  | .sendWithPathSeg api _ _ _ => fun _ => api

/-- The action asked of the network. -/
def action : UrlBuilder → NetAction
  | .submitVectorResponses _ => .postVsResp
  | .retrieveVectorSet _ => .getVs
  | .retrieveVectorSetResult _ => .getVsResult
  | .retrieveExpectedResult _ => .getVsSample
  | .retrieveDocs _ => .getDocs
  | .transportPost _ _ => .post
  | .transportPut _ _ => .putValidation
  | .transportDelete _ => .delete
  | .sendWithPathSeg _ action _ _ => action

/-- The data that goes along. -/
def data : UrlBuilder → Option Json
  | .transportPost _ data | .transportPut _ data | .sendWithPathSeg _ _ _ data => data
  | _ => none

/-- The path given: by the caller, or by the path segment of the context. -/
def path (ctx : Ctx) : UrlBuilder → Option String
  | .submitVectorResponses vsidUrl | .retrieveVectorSet vsidUrl => some vsidUrl
  | .retrieveVectorSetResult url | .retrieveExpectedResult url | .retrieveDocs url
  | .transportPost url _ | .transportPut url _ | .transportDelete url => url
  | .sendWithPathSeg _ _ _ _ => ctx.pathSegment

/-- What follows the path. -/
def suffix : UrlBuilder → String
  | .submitVectorResponses _ | .retrieveVectorSetResult _ => "/results"
  | .retrieveExpectedResult _ => "/expected"
  | .retrieveDocs _ => "/docs"
  | .sendWithPathSeg _ _ uri _ => uri
  | _ => ""

/-- The size given to {lit}`snprintf`. -/
def limit : UrlBuilder → Nat
  | .retrieveExpectedResult _ => amvpAttrUrlMax
  | _ => amvpAttrUrlMax - 1

/-- The server is set and a path is given. -/
def Sendable (b : UrlBuilder) (ctx : Ctx) : Prop :=
  sanityCheckCtx ctx = .success ∧ (b.path ctx).isSome

instance (b : UrlBuilder) (ctx : Ctx) : Decidable (b.Sendable ctx) :=
  inferInstanceAs (Decidable (_ ∧ _))

/-- The URL of the resource that is meant. -/
def completeUrl (b : UrlBuilder) (ctx : Ctx) : String :=
  serverBase ctx ++ (b.path ctx).getD "" ++ b.suffix

/-- The URL handed to the network action. -/
def handedUrl (b : UrlBuilder) (ctx : Ctx) : Option String :=
  if b.Sendable ctx then some (snprintf b.limit (b.completeUrl ctx)) else none

/-- The log of a call before it acts: a submission is marked. -/
def entered (b : UrlBuilder) (w : World) : World :=
  match b with
  | .submitVectorResponses vsidUrl =>
    { w with log := w.log ++ [.submit vsidUrl w.ctx.katResp] }
  | _ => w

end UrlBuilder

variable {out}

theorem sendTo_handed (limit : Nat) (api : String → Api) (action : NetAction)
    (path : Option String) (tail : String) (data : Option Json) (w : World) :
    sendTo out limit api action path tail data w =
      if sanityCheckCtx w.ctx = .success ∧ path.isSome then
        networkAction out (api (path.getD "")) action
          (snprintf limit (serverBase w.ctx ++ path.getD "" ++ tail)) data w
      else
        (if sanityCheckCtx w.ctx = .success then .missingArg else sanityCheckCtx w.ctx, w) := by
  simp only [sendTo, getCtx_bind, Prog.ite_apply]
  by_cases hsanity : sanityCheckCtx w.ctx = .success
  · cases path with
    | none => simp [hsanity]
    | some path => simp [hsanity]
  · simp [hsanity]

/-- Each function hands one URL to the network action, or refuses its arguments. -/
theorem UrlBuilder.perform_eq (b : UrlBuilder) (w : World) :
    (∃ url, b.handedUrl w.ctx = some url ∧
      b.perform out w = networkAction out (b.api ((b.path w.ctx).getD "")) b.action url b.data
        (b.entered w)) ∨
    (b.handedUrl w.ctx = none ∧ ∃ rv, rv ≠ .success ∧ b.perform out w = (rv, b.entered w)) := by
  have hctx : (b.entered w).ctx = w.ctx := by
    cases b <;> rfl
  have hsend : b.perform out w = sendTo out b.limit b.api b.action (b.path w.ctx) b.suffix b.data
      (b.entered w) := by
    cases b <;> rfl
  rw [hsend, sendTo_handed, hctx]
  by_cases hsendable : b.Sendable w.ctx
  · left
    exact ⟨_, if_pos hsendable, if_pos hsendable⟩
  · right
    refine ⟨if_neg hsendable, _, ?_, if_neg hsendable⟩
    split
    · decide
    · assumption

theorem snprintf_eq_iff (n : Nat) (s : String) :
    LibAmvp.snprintf n s = s ↔ s.length ≤ n - 1 := by
  calc
    LibAmvp.snprintf n s = s ↔ s.toList.take (n - 1) = s.toList := by
      rw [LibAmvp.snprintf, ← String.toList_inj, String.toList_ofList]
    _ ↔ s.length ≤ n - 1 := by rw [List.take_eq_self_iff, String.length_toList]

/-- Every request goes to the complete URL of the resource that is meant exactly when that
URL fits into the buffer. -/
theorem handedUrl_complete_iff (b : UrlBuilder) (ctx : Ctx) :
    (∀ url, b.handedUrl ctx = some url → url = b.completeUrl ctx) ↔
      (b.Sendable ctx → (b.completeUrl ctx).length ≤ b.limit - 1) := by
  rw [← snprintf_eq_iff]
  by_cases hsendable : b.Sendable ctx
  · rw [UrlBuilder.handedUrl, if_pos hsendable]
    simp [hsendable]
  · rw [UrlBuilder.handedUrl, if_neg hsendable]
    simp [hsendable]

/-- A URL of 2083 characters, the longest the reply parsers keep. -/
def longestUrl : String := String.ofList (List.replicate amvpAttrUrlMax 'a')

theorem length_longestUrl : longestUrl.length = amvpAttrUrlMax := by
  rw [longestUrl, String.length_ofList, List.length_replicate]

/-- The parser of the registration keeps a set URL of 2083 characters, and the request for
its results is sent without the suffix. -/
theorem handedUrl_not_complete :
    (urlPrefix [.str longestUrl]).1 = [longestUrl] ∧
    ∃ url, (UrlBuilder.retrieveVectorSetResult (some longestUrl)).handedUrl
        { Ctx.fresh with serverName := some "localhost", serverPort := 443 } = some url ∧
      url ≠ (UrlBuilder.retrieveVectorSetResult (some longestUrl)).completeUrl
        { Ctx.fresh with serverName := some "localhost", serverPort := 443 } := by
  constructor
  · simp [urlPrefix, strcpyS, length_longestUrl]
  · refine ⟨_, if_pos ⟨by decide, rfl⟩, ?_⟩
    rw [ne_eq, snprintf_eq_iff, UrlBuilder.completeUrl, String.length_append,
      String.length_append, UrlBuilder.path, Option.getD_some, length_longestUrl]
    have hlimit : (UrlBuilder.retrieveVectorSetResult (some longestUrl)).limit = 2082 := rfl
    have hmax : amvpAttrUrlMax = 2083 := rfl
    have hsuffix : (UrlBuilder.retrieveVectorSetResult (some longestUrl)).suffix.length = 8 := by
      decide
    omega

end Builders

end LibAmvp
