import LibAmvp.Session.Resume

/-!
# The results check and unfinished sets

A resumed session takes an expired set for an error and an unreceived one for work that is
left.  The polling loop of the results check leaves at such a set as well, but with the
result of the last request, which is a success in general.

Main results:

- Theorem {lit}`checkTestResults_honest`: the check is honest when no such set is in the last
  reply, and it is not when one is reached.
-/

namespace LibAmvp

section Check

variable (out : Outside)

/-! ## The reply of a round -/

/-- The results reply that a round of the polling loop receives. -/
def resultsReply (sessionUrl : Option String) (w : World) : Option JsonObject :=
  if (retrieveVectorSetResult out sessionUrl w).1 = .success then
    getObjFromRsp (retrieveVectorSetResult out sessionUrl w).2.ctx.curlBuf
  else none

/-- The results of a reply. -/
def resultsOf (obj : JsonObject) : List Json :=
  jsonArrayElems (jsonObjectGetArray (some obj) "results")

/-- The result has no status, or its set expired or was not received. -/
def Gone (entry : Json) : Prop :=
  statusOf entry = none ∨ statusOf entry = some "expired" ∨ statusOf entry = some "unreceived"

/-- A result with no failing one in front of it is gone. -/
def GoneBeforeFail (entries : List Json) : Prop :=
  ∃ before entry after, entries = before ++ entry :: after ∧ Gone entry ∧
    ∀ e ∈ before, statusOf e ≠ some "fail"

/-- What the server replies when a failing set is looked up. -/
def setReply (url : String) (w : World) : Option JsonObject :=
  let r := retrieveVectorSet out (snprintf (amvpRequestStrLenMax + 1) url) w
  if r.1 = .success then getObjFromRsp r.2.ctx.curlBuf else none

/-- A results check that succeeds has seen all sets completed. -/
def HonestRound (sessionUrl : Option String) (w : World) (rv : AmvpResult) : Prop :=
  rv = .success → ∃ obj, resultsReply out sessionUrl w = some obj ∧
    ∀ entry ∈ resultsOf obj, Completed entry

variable {out}

theorem Gone.not_completed {entry : Json} (h : Gone entry) : ¬Completed entry := by
  rintro ⟨status, hstatus, hexpired, hunreceived, -⟩
  unfold Gone statusOf at h
  rw [hstatus] at h
  rcases h with h | h | h
  · cases h
  · exact hexpired (Option.some.inj h)
  · exact hunreceived (Option.some.inj h)

/-! ## The scan of a reply -/

/-- The scan leaves at a set that is gone, with the result it carries. -/
theorem scanResults_gone {entry : Json} (h : Gone entry) (entries : List Json) (rv : AmvpResult)
    (completed : Nat) (failedVs : List String) (w : World) :
    scanResults out (entry :: entries) rv completed failedVs w = (.error rv, w) := by
  unfold Gone statusOf at h
  rw [scanResults]
  dsimp only
  rcases h with h | h | h
  · rw [h]
    rfl
  · rw [h]
    dsimp only
    rw [if_pos (Or.inl rfl)]
    rfl
  · rw [h]
    dsimp only
    rw [if_pos (Or.inr rfl)]
    rfl

/-- What a set is to the scan. -/
theorem gone_or_status (entry : Json) :
    Gone entry ∨ statusOf entry = some "incomplete" ∨
      (Completed entry ∧ statusOf entry ≠ some "fail") ∨ statusOf entry = some "fail" := by
  by_cases hgone : Gone entry
  · exact .inl hgone
  by_cases hincomplete : statusOf entry = some "incomplete"
  · exact .inr (.inl hincomplete)
  by_cases hfail : statusOf entry = some "fail"
  · exact .inr (.inr (.inr hfail))
  refine .inr (.inr (.inl ⟨?_, hfail⟩))
  unfold Gone at hgone
  cases hstatus : statusOf entry with
  | none => exact absurd (.inl hstatus) hgone
  | some status =>
      rw [hstatus] at hgone hincomplete
      refine ⟨status, hstatus, ?_, ?_, fun heq => hincomplete (congrArg some heq)⟩
      · exact fun heq => hgone (.inr (.inl (congrArg some heq)))
      · exact fun heq => hgone (.inr (.inr (congrArg some heq)))

/-- A set that failed is a completed one. -/
theorem completed_of_fail {entry : Json} (h : statusOf entry = some "fail") : Completed entry :=
  ⟨"fail", h, by decide, by decide, by decide⟩

/-- The scan does not count an incomplete set. -/
theorem scanResults_incomplete {entry : Json} (h : statusOf entry = some "incomplete")
    (entries : List Json) (rv : AmvpResult) (completed : Nat) (failedVs : List String) :
    scanResults out (entry :: entries) rv completed failedVs =
      scanResults out entries rv completed failedVs := by
  unfold statusOf at h
  rw [scanResults]
  dsimp only
  rw [h]
  rfl

/-- The scan counts a set that is completed and has not failed. -/
theorem scanResults_unfailing {entry : Json} (hcompleted : Completed entry)
    (hfail : statusOf entry ≠ some "fail") (entries : List Json) (rv : AmvpResult)
    (completed : Nat) (failedVs : List String) :
    scanResults out (entry :: entries) rv completed failedVs =
      scanResults out entries rv (completed + 1) failedVs := by
  obtain ⟨status, hstatus, hexpired, hunreceived, hincomplete⟩ := hcompleted
  unfold statusOf at hfail
  rw [hstatus] at hfail
  rw [scanResults]
  dsimp only
  rw [hstatus]
  dsimp only
  rw [if_neg (not_or.mpr ⟨hexpired, hunreceived⟩), if_neg hincomplete,
    if_neg fun heq => hfail (congrArg some heq)]

/-- The scan ends at a set that failed and has no URL. -/
theorem scanResults_unnamed {entry : Json} (hfail : statusOf entry = some "fail")
    (hurl : setUrlOf entry = none) (entries : List Json) (rv : AmvpResult) (completed : Nat)
    (failedVs : List String) (w : World) :
    scanResults out (entry :: entries) rv completed failedVs w =
      (.ok (rv, completed, failedVs), w) := by
  unfold statusOf at hfail
  unfold setUrlOf at hurl
  rw [scanResults]
  dsimp only
  rw [hfail, hurl]
  rfl

/-- The scan counts a set that failed and has been looked up. -/
theorem scanResults_known {entry : Json} {url : String} {failedVs : List String}
    (hfail : statusOf entry = some "fail") (hurl : setUrlOf entry = some url)
    (hknown : lookupStrList failedVs url = true) (entries : List Json) (rv : AmvpResult)
    (completed : Nat) :
    scanResults out (entry :: entries) rv completed failedVs =
      scanResults out entries rv (completed + 1) failedVs := by
  unfold statusOf at hfail
  unfold setUrlOf at hurl
  rw [scanResults]
  dsimp only
  rw [hfail, hurl]
  dsimp only
  rw [if_neg (by decide), if_neg (by decide), if_pos rfl, if_pos hknown]

/-- Any other set that failed is looked up, and counted when the reply has its algorithm. -/
theorem scanResults_looksUp {entry : Json} {url : String} {failedVs : List String}
    (hfail : statusOf entry = some "fail") (hurl : setUrlOf entry = some url)
    (hnew : lookupStrList failedVs url = false) (entries : List Json) (rv : AmvpResult)
    (completed : Nat) (w : World) :
    scanResults out (entry :: entries) rv completed failedVs w =
      let r := retrieveVectorSet out (snprintf (amvpRequestStrLenMax + 1) url) w
      scanResults out entries r.1
        (if jsonObjectGetString (setReply out url w) "algorithm" ≠ none then completed + 1
          else completed) (appendStrList failedVs url) r.2 := by
  unfold statusOf at hfail
  unfold setUrlOf at hurl
  rw [scanResults]
  dsimp only
  rw [hfail, hurl]
  dsimp only
  obtain ⟨⟨rv₁, w₁⟩, hget⟩ : ∃ r, retrieveVectorSet out
    (snprintf (amvpRequestStrLenMax + 1) url) w = r := ⟨_, rfl⟩
  rw [if_neg (by decide), if_neg (by decide), if_pos rfl, if_neg (by simp [hnew]),
    Prog.bind_of_eq hget, getCtx_bind, setReply, hget]
  dsimp only
  by_cases hrv : rv₁ = .success
  · rw [if_pos hrv]
    simp only [hrv, true_and]
  · have hnone : jsonObjectGetString none "algorithm" = none := rfl
    rw [if_neg hrv, if_neg fun hboth => hrv hboth.1, if_neg (not_not.mpr hnone)]

/-- The scan passes over any other set that has not failed. -/
theorem scanResults_passed {entry : Json} (hgone : ¬Gone entry)
    (hfail : statusOf entry ≠ some "fail") (entries : List Json) (rv : AmvpResult)
    (completed : Nat) (failedVs : List String) :
    ∃ n, scanResults out (entry :: entries) rv completed failedVs =
      scanResults out entries rv n failedVs := by
  rcases gone_or_status entry with hbad | hincomplete | ⟨hcompleted, -⟩ | hbad
  · exact absurd hbad hgone
  · exact ⟨completed, scanResults_incomplete hincomplete entries rv completed failedVs⟩
  · exact ⟨completed + 1, scanResults_unfailing hcompleted hfail entries rv completed failedVs⟩
  · exact absurd hbad hfail

/-- A scan that meets a set that is gone before a failing one leaves with the result it
started with. -/
theorem scanResults_goneBeforeFail {entries : List Json} (h : GoneBeforeFail entries)
    (rv : AmvpResult) (completed : Nat) (failedVs : List String) (w : World) :
    scanResults out entries rv completed failedVs w = (.error rv, w) := by
  obtain ⟨before, entry, after, rfl, hgone, hbefore⟩ := h
  induction before generalizing completed with
  | nil => exact scanResults_gone hgone after rv completed failedVs w
  | cons e before ih =>
      rw [List.cons_append]
      by_cases he : Gone e
      · exact scanResults_gone he _ rv completed failedVs w
      · obtain ⟨n, hpassed⟩ := @scanResults_passed out e he (hbefore e (by simp))
          (before ++ entry :: after) rv completed failedVs
        rw [hpassed]
        exact ih n fun b hb => hbefore b (by simp [hb])

/-- A scan leaves with an error only at a set that is gone. -/
theorem scanResults_error {entries : List Json} {rv rv' : AmvpResult} {completed : Nat}
    {failedVs : List String} {w w' : World}
    (h : scanResults out entries rv completed failedVs w = (.error rv', w')) :
    ∃ entry ∈ entries, Gone entry := by
  induction entries generalizing rv completed failedVs w with
  | nil =>
      rw [scanResults] at h
      cases (Prod.mk.inj h).1
  | cons entry entries ih =>
      by_cases hgone : Gone entry
      · exact ⟨entry, by simp, hgone⟩
      have hrest : ∀ {rv₁ n failed₁ w₁},
          scanResults out entries rv₁ n failed₁ w₁ = (.error rv', w') →
            ∃ e ∈ entry :: entries, Gone e := by
        intro rv₁ n failed₁ w₁ hscan
        obtain ⟨e, he, hg⟩ := ih hscan
        exact ⟨e, List.mem_cons_of_mem entry he, hg⟩
      by_cases hfail : statusOf entry = some "fail"
      swap
      · obtain ⟨n, hpassed⟩ := @scanResults_passed out entry hgone hfail entries rv completed failedVs
        rw [hpassed] at h
        exact hrest h
      cases hurl : setUrlOf entry with
      | none =>
          rw [scanResults_unnamed hfail hurl] at h
          cases (Prod.mk.inj h).1
      | some url =>
          cases hlooked : lookupStrList failedVs url with
          | true =>
              rw [scanResults_known hfail hurl hlooked] at h
              exact hrest h
          | false =>
              rw [scanResults_looksUp hfail hurl hlooked] at h
              exact hrest h

/-! ## The last round of the check -/

/-- A round that ends with a success has seen all sets completed, unless one is gone. -/
theorem resultRound_honest {sessionUrl : Option String} {p : Polling} {w w' : World}
    {rv : AmvpResult} (h : resultRound out sessionUrl p w = (.inr rv, w'))
    (hkept : ∀ obj, resultsReply out sessionUrl w = some obj →
      ∀ entry ∈ resultsOf obj, ¬Gone entry) : HonestRound out sessionUrl w rv := by
  intro hsuccess
  rw [hsuccess] at h
  obtain ⟨⟨rv₁, w₁⟩, hget⟩ : ∃ q, retrieveVectorSetResult out sessionUrl w = q := ⟨_, rfl⟩
  rw [resultRound, Prog.bind_of_eq hget] at h
  by_cases hrv : rv₁ = .success
  swap
  · rw [if_pos hrv] at h
    exact absurd (Sum.inr.inj (Prod.mk.inj h).1) hrv
  subst hrv
  rw [if_neg (by simp), getCtx_bind] at h
  cases hobj : getObjFromRsp w₁.ctx.curlBuf with
  | none =>
      rw [hobj] at h
      cases (Prod.mk.inj h).1
  | some obj =>
      have hreply : resultsReply out sessionUrl w = some obj := by
        unfold resultsReply
        rw [hget, if_pos rfl, hobj]
      rw [hobj] at h
      dsimp only at h
      obtain ⟨⟨res, w₂⟩, hscan⟩ : ∃ q, scanResults out
        (jsonArrayElems (jsonObjectGetArray (some obj) "results")) .success 0 p.failedVs w₁ = q :=
        ⟨_, rfl⟩
      rw [Prog.bind_of_eq hscan] at h
      cases res with
      | error rv' =>
          obtain ⟨entry, hentry, hgone⟩ := scanResults_error hscan
          exact absurd hgone (hkept obj hreply entry hentry)
      | ok res =>
          obtain ⟨rv', completed, failedVs⟩ := res
          refine ⟨obj, hreply, (scanResults_completed hscan).2 ?_⟩
          dsimp only at h
          -- a round that is not complete does not end with a success
          by_contra hmore
          rw [if_neg (by omega)] at h
          cases hwait : retryHandler p.interval p.waited 1 with
          | none =>
              rw [hwait] at h
              cases (Prod.mk.inj h).1
          | some next =>
              rw [hwait] at h
              cases (Prod.mk.inj h).1

/-- A round that meets a set that is gone before a failing one ends with a success. -/
theorem resultRound_of_goneBeforeFail {sessionUrl : Option String} {w : World}
    {obj : JsonObject} (hreply : resultsReply out sessionUrl w = some obj)
    (hgone : GoneBeforeFail (resultsOf obj)) (p : Polling) :
    (resultRound out sessionUrl p w).1 = .inr .success := by
  obtain ⟨⟨rv₁, w₁⟩, hget⟩ : ∃ q, retrieveVectorSetResult out sessionUrl w = q := ⟨_, rfl⟩
  unfold resultsReply at hreply
  rw [hget] at hreply
  by_cases hrv : rv₁ = .success
  swap
  · rw [if_neg hrv] at hreply
    cases hreply
  rw [if_pos hrv] at hreply
  have hscan := @scanResults_goneBeforeFail out _ hgone .success 0 p.failedVs w₁
  unfold resultsOf at hscan
  rw [resultRound, Prog.bind_of_eq hget, if_neg (not_not.mpr hrv), getCtx_bind]
  dsimp only at hreply
  rw [hreply]
  dsimp only
  rw [Prog.bind_of_eq hscan]
  rfl

variable (out)

/-- In every run of the results check, a success means that the last results reply shows all
sets completed, when no result of that reply is gone; a result that is gone before any
failing one makes the check succeed on unfinished sets. -/
theorem checkTestResults_honest (w : World) :
    ∃ earlier p last,
      Prog.Trace (resultRound out w.ctx.sessionUrl) ⟨[], 0, amvpRetryTime⟩ w
        (earlier ++ [(p, last)]) (checkTestResults out w) ∧
      ((∀ obj, resultsReply out w.ctx.sessionUrl last = some obj →
          ∀ entry ∈ resultsOf obj, ¬Gone entry) →
        HonestRound out w.ctx.sessionUrl last (checkTestResults out w).1) ∧
      ((∃ obj, resultsReply out w.ctx.sessionUrl last = some obj ∧
          GoneBeforeFail (resultsOf obj)) →
        ¬HonestRound out w.ctx.sessionUrl last (checkTestResults out w).1) := by
  obtain ⟨starts, htrace⟩ := Prog.exists_trace (resultRound_decreases out w.ctx.sessionUrl)
    ⟨[], 0, amvpRetryTime⟩ w
  change Prog.Trace (resultRound out w.ctx.sessionUrl) _ w starts (checkTestResults out w) at htrace
  obtain ⟨earlier, p, last, rfl, hlast⟩ := htrace.exists_last
  refine ⟨earlier, p, last, htrace, fun hkept => resultRound_honest hlast hkept, ?_⟩
  rintro ⟨obj, hreply, hgone⟩ hhonest
  have hround := resultRound_of_goneBeforeFail hreply hgone p
  rw [hlast] at hround
  obtain ⟨obj', hreply', hcompleted⟩ := hhonest (Sum.inr.inj hround)
  obtain rfl : obj = obj' := Option.some.inj (hreply.symm.trans hreply')
  obtain ⟨before, entry, after, hsplit, hentry, -⟩ := hgone
  exact hentry.not_completed (hcompleted entry (by rw [hsplit]; simp))

end Check

/-! ## An expired set -/

/-- A server whose only set expired. -/
def expiredServer : List Event → Request → Reply := fun _ _ =>
  ⟨200, some (.arr [.obj [("results", .arr [
    .obj [("vectorSetUrl", .str "/vs/1"), ("status", .str "expired")]])]])⟩

/-- A session that was registered, with its token. -/
def checkedWorld : World :=
  { World.start with
    ctx := { World.start.ctx with sessionUrl := some "/testSessions/1", jwtToken := some "token" } }

/-- The check of the session succeeds in its first round. -/
theorem checkTestResults_expired_success :
    Prog.Trace (resultRound (.plain expiredServer) checkedWorld.ctx.sessionUrl)
        ⟨[], 0, amvpRetryTime⟩ checkedWorld [(⟨[], 0, amvpRetryTime⟩, checkedWorld)]
        (checkTestResults (.plain expiredServer) checkedWorld) ∧
      ¬HonestRound (.plain expiredServer) checkedWorld.ctx.sessionUrl checkedWorld
        (checkTestResults (.plain expiredServer) checkedWorld).1 := by
  have hreply : resultsReply (.plain expiredServer) checkedWorld.ctx.sessionUrl checkedWorld =
      some [("results", .arr [.obj [("vectorSetUrl", .str "/vs/1"), ("status", .str "expired")]])] :=
    rfl
  have hgone : Gone (.obj [("vectorSetUrl", .str "/vs/1"), ("status", .str "expired")]) :=
    .inr (.inl rfl)
  have hround : (resultRound (.plain expiredServer) checkedWorld.ctx.sessionUrl
      ⟨[], 0, amvpRetryTime⟩ checkedWorld).1 = .inr .success :=
    resultRound_of_goneBeforeFail hreply ⟨[], _, [], rfl, hgone, by simp⟩ _
  have hrun : checkTestResults (.plain expiredServer) checkedWorld =
      (.success, (resultRound (.plain expiredServer) checkedWorld.ctx.sessionUrl
        ⟨[], 0, amvpRetryTime⟩ checkedWorld).2) := by
    rw [checkTestResults, getCtx_bind, getResultTestSession, Prog.loop_eq, hround]
  rw [hrun]
  refine ⟨.last hround, fun hhonest => ?_⟩
  obtain ⟨obj, hobj, hcompleted⟩ := hhonest rfl
  rw [hreply] at hobj
  obtain rfl := Option.some.inj hobj
  exact hgone.not_completed (hcompleted _ (List.mem_singleton.mpr rfl))

end LibAmvp
