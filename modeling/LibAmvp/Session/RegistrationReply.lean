import LibAmvp.Session.Registration

/-!
# The reply that opens a session

The server answers a registration, and likewise a certificate request, with the URL of the
session, a token and the URLs of the sets.  The library copies them into buffers of a fixed
size, the token into the buffer that the login has left, and stops at the first set URL
that is no string.  None of this changes the result.

Main results:

- Theorem {lit}`registrationReply_takenOver_iff`: when a reply that is accepted is taken
  over as it is.
-/

namespace LibAmvp

/-- The URLs of the sets in the reply that is being read. -/
def replyUrls (urlsKey : String) (w : World) : List Json :=
  jsonArrayElems (jsonObjectGetArray (getObjFromRsp w.ctx.curlBuf) urlsKey)

/-- The session URL and the token are those of the reply, and the list of URLs has grown by
the URLs of the reply. -/
def TakenOver (urlsKey : String) (w w' : World) : Prop :=
  w'.ctx.sessionUrl = jsonObjectGetString (getObjFromRsp w.ctx.curlBuf) "url" ∧
    w'.ctx.jwtToken = jsonObjectGetString (getObjFromRsp w.ctx.curlBuf) "accessToken" ∧
    w'.ctx.vsidUrlList.map Json.str = w.ctx.vsidUrlList.map Json.str ++ replyUrls urlsKey w

/-- A string of the length of a URL buffer at most. -/
def FitsUrl (url : Json) : Prop := ∃ s, url = .str s ∧ s.length ≤ amvpAttrUrlMax

/-- A reply with a session URL and a token of proper length finds a token in the context,
its session URL fits, and its set URLs are strings that fit. -/
def RoomForReply (urlsKey : String) (w : World) : Prop :=
  ∀ url token, jsonObjectGetString (getObjFromRsp w.ctx.curlBuf) "url" = some url →
    jsonObjectGetString (getObjFromRsp w.ctx.curlBuf) "accessToken" = some token →
    token.length ≤ amvpJwtTokenMax →
    w.ctx.jwtToken ≠ none ∧ url.length ≤ amvpAttrUrlMax ∧
      ∀ setUrl ∈ replyUrls urlsKey w, FitsUrl setUrl

/-! ## The URLs of the vector sets -/

/-- The URLs at the head of an array are the array exactly when all of them fit. -/
theorem urlPrefix_eq_iff (urls : List Json) :
    (urlPrefix urls).1.map Json.str = urls ↔ ∀ url ∈ urls, FitsUrl url := by
  induction urls with
  | nil => simp [urlPrefix]
  | cons url urls ih =>
      rw [List.forall_mem_cons]
      cases url with
      | str s =>
          have hfits : FitsUrl (.str s) ↔ strcpyS (amvpAttrUrlMax + 1) s = s := by
            rw [strcpyS_eq_self_iff]
            simp [FitsUrl]
          rw [hfits, ← ih]
          simp [urlPrefix]
      | null | bool | num | arr | obj => simp [urlPrefix, FitsUrl]

/-! ## Reading the reply -/

/-- What an accepted reply leaves in the context. -/
theorem parseSessionRegister_success {urlsKey : String} {w w' : World}
    (h : parseSessionRegister urlsKey w = (.success, w')) :
    ∃ url token, jsonObjectGetString (getObjFromRsp w.ctx.curlBuf) "url" = some url ∧
      jsonObjectGetString (getObjFromRsp w.ctx.curlBuf) "accessToken" = some token ∧
      token.length ≤ amvpJwtTokenMax ∧
      w'.ctx.sessionUrl = some (strcpyS (amvpAttrUrlMax + 1) url) ∧
      w'.ctx.jwtToken = w.ctx.jwtToken.map (fun _ => token) ∧
      w'.ctx.vsidUrlList = w.ctx.vsidUrlList ++ (urlPrefix (replyUrls urlsKey w)).1 := by
  rw [parseSessionRegister, getCtx_bind] at h
  by_cases hbuf : w.ctx.curlBuf = none
  · rw [if_pos hbuf] at h
    cases h
  rw [if_neg hbuf] at h
  cases hurl : jsonObjectGetString (getObjFromRsp w.ctx.curlBuf) "url" with
  | none =>
      rw [hurl] at h
      cases h
  | some url =>
      cases htoken : jsonObjectGetString (getObjFromRsp w.ctx.curlBuf) "accessToken" with
      | none =>
          rw [hurl, htoken] at h
          cases h
      | some token =>
          rw [hurl, htoken] at h
          dsimp only [setSessionUrl, Prog.bind_apply] at h
          by_cases hlong : amvpJwtTokenMax < token.length
          · rw [if_pos hlong] at h
            cases h
          · rw [if_neg hlong] at h
            cases h
            exact ⟨url, token, rfl, rfl, not_lt.mp hlong, rfl, rfl, rfl⟩

/-- A reply with a session URL and a token of proper length is accepted. -/
theorem parseSessionRegister_accepts (urlsKey : String) {w : World} {url token : String}
    (hurl : jsonObjectGetString (getObjFromRsp w.ctx.curlBuf) "url" = some url)
    (htoken : jsonObjectGetString (getObjFromRsp w.ctx.curlBuf) "accessToken" = some token)
    (hlength : token.length ≤ amvpJwtTokenMax) :
    (parseSessionRegister urlsKey w).1 = .success := by
  have hbuf : w.ctx.curlBuf ≠ none := by
    intro hnone
    rw [hnone] at hurl
    cases hurl
  rw [parseSessionRegister, getCtx_bind]
  rw [if_neg hbuf, hurl, htoken]
  dsimp only [setSessionUrl, Prog.bind_apply]
  rw [if_neg (not_lt.mpr hlength)]
  rfl

/-- An accepted reply is taken over as it is exactly when there is room for it. -/
theorem parseSessionRegister_takenOver_iff (urlsKey : String) (w : World) :
    ((parseSessionRegister urlsKey w).1 = .success →
      TakenOver urlsKey w (parseSessionRegister urlsKey w).2) ↔ RoomForReply urlsKey w := by
  obtain ⟨⟨rv, w'⟩, hrun⟩ : ∃ r, parseSessionRegister urlsKey w = r := ⟨_, rfl⟩
  rw [hrun]
  dsimp only
  constructor
  · intro htaken url token hurl htoken hlength
    have haccepted := parseSessionRegister_accepts urlsKey hurl htoken hlength
    rw [hrun] at haccepted
    obtain rfl : rv = .success := haccepted
    obtain ⟨hsession, hjwt, hlist⟩ := htaken rfl
    obtain ⟨url', token', hurl', htoken', -, hsession', hjwt', hlist'⟩ :=
      parseSessionRegister_success hrun
    obtain rfl : url = url' := Option.some.inj (hurl.symm.trans hurl')
    rw [hsession', hurl, Option.some.injEq, strcpyS_eq_self_iff] at hsession
    rw [hlist', List.map_append, List.append_cancel_left_eq, urlPrefix_eq_iff] at hlist
    refine ⟨?_, hsession, hlist⟩
    intro hnone
    rw [hjwt', hnone, htoken] at hjwt
    cases hjwt
  · rintro hroom rfl
    obtain ⟨url, token, hurl, htoken, hlength, hsession, hjwt, hlist⟩ :=
      parseSessionRegister_success hrun
    obtain ⟨hold, hfits, hurls⟩ := hroom url token hurl htoken hlength
    refine ⟨?_, ?_, ?_⟩
    · rw [hsession, hurl, (strcpyS_eq_self_iff _ _).mpr hfits]
    · obtain ⟨old, hold⟩ := Option.ne_none_iff_exists'.mp hold
      rw [hjwt, hold, htoken]
      rfl
    · rw [hlist, List.map_append, (urlPrefix_eq_iff _).mpr hurls]

/-- Both functions that read the reply which opens a session take an accepted reply over as
it is exactly when there is room for it. -/
theorem registrationReply_takenOver_iff (w : World) :
    (((parseTestSessionRegister w).1 = .success →
      TakenOver "vectorSetUrls" w (parseTestSessionRegister w).2) ↔
        RoomForReply "vectorSetUrls" w) ∧
    (((parseModCertReq w).1 = .success → TakenOver "crUrls" w (parseModCertReq w).2) ↔
        RoomForReply "crUrls" w) :=
  ⟨parseSessionRegister_takenOver_iff "vectorSetUrls" w,
    parseSessionRegister_takenOver_iff "crUrls" w⟩

/-- The state in which a registration is answered when the login was skipped. -/
def unloggedWorld : World :=
  { World.start with
    ctx := { World.start.ctx with
      curlBuf := some (.arr [.obj [("url", .str "/amv/v1/testSessions/1"),
        ("accessToken", .str "token"), ("vectorSetUrls", .arr [.str "/vs/1"])]]) } }

/-- Without an old token the token of the reply is dropped. -/
theorem registrationReply_token_dropped :
    (parseTestSessionRegister unloggedWorld).1 = .success ∧
      (parseTestSessionRegister unloggedWorld).2.ctx.jwtToken = none ∧
      ¬TakenOver "vectorSetUrls" unloggedWorld (parseTestSessionRegister unloggedWorld).2 := by
  refine ⟨rfl, rfl, ?_⟩
  rintro ⟨-, hjwt, -⟩
  cases hjwt

end LibAmvp
