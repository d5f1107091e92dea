import LibAmvp.Session.ResultsCheck

/-!
# What the replies decide

Whether a request succeeds is decided by the server alone: by the last reply that is none to a
login.  The steps of a session that make several requests are followed here from one such reply
to the next.

Main results:

- Theorem {lit}`sendTo_success_iff`: a request succeeds when its last reply is a good one.
- Theorem {lit}`checkTestResults_success_iff`: a results check succeeds just when the replies of its
  last round are complete and end with a good one.
-/

namespace LibAmvp

open EventLog

/-! ## Replies -/

/-- The replies to all requests but the logins. -/
def ownReplies (evs : List Event) : List Reply :=
  ((exchanges evs).filter fun x => x.1.api ≠ .login).map Prod.snd

/-- The last of the replies has the status code 200. -/
def Answered (evs : List Event) : Prop := ∃ reply ∈ (ownReplies evs).getLast?, reply.code = 200

@[simp]
theorem ownReplies_append (evs evs' : List Event) :
    ownReplies (evs ++ evs') = ownReplies evs ++ ownReplies evs' := by
  simp [ownReplies]

/-- Replies that came later decide. -/
theorem answered_append_iff {evs evs' : List Event} :
    Answered (evs ++ evs') ↔
      if ownReplies evs' = [] then Answered evs else Answered evs' := by
  unfold Answered
  rw [ownReplies_append]
  split
  · next hnil => rw [hnil, List.append_nil]
  · next hnil => rw [List.getLast?_append_of_ne_nil _ hnil]

/-- After a good reply, only a later one matters. -/
theorem Answered.append_iff {evs : List Event} (h : Answered evs) (evs' : List Event) :
    Answered (evs ++ evs') ↔ ownReplies evs' = [] ∨ Answered evs' := by
  rw [answered_append_iff]
  by_cases hnone : ownReplies evs' = []
  · simp [hnone, h]
  · simp [hnone]

theorem Answered.ne_nil {evs : List Event} (h : Answered evs) : ownReplies evs ≠ [] := by
  obtain ⟨reply, hlast, -⟩ := h
  intro hnil
  rw [hnil] at hlast
  cases hlast

/-- Only the status code 200 stands for a success. -/
theorem inspectHttpCode_success_iff (code : Int) (curlBuf : Option Json) :
    inspectHttpCode code curlBuf = .success ↔ code = 200 := by
  unfold inspectHttpCode
  constructor
  · intro h
    by_contra hcode
    rw [if_neg hcode] at h
    split_ifs at h
    all_goals split at h <;> try cases h
    split_ifs at h
  · intro hcode
    rw [if_pos hcode]

/-! ## One request -/

section Requests

variable {out : Outside}

/-- The replies to a login count for nothing. -/
theorem ownReplies_of_login {evs : List Event} (h : ∀ e ∈ evs, NetEvent .login e) :
    ownReplies evs = [] := by
  rw [ownReplies, List.map_eq_nil_iff, List.filter_eq_nil_iff]
  rintro ⟨req, reply⟩ hmem
  obtain ⟨e, he, hex⟩ := List.mem_filterMap.mp hmem
  have hlogin := h e he
  cases e with
  | http req' reply' =>
      obtain ⟨rfl, rfl⟩ := Prod.mk.inj (Option.some.inj hex)
      simpa [NetEvent] using hlogin
  | _ => cases hex

theorem ownReplies_refresh {w w' : World} {rv : AmvpResult} (h : refresh out w = (rv, w')) :
    ∃ evs, w'.log = w.log ++ evs ∧ ownReplies evs = [] := by
  obtain ⟨-, -, evs, hlog, hevs⟩ := @netFrame_login out .login true w
  rw [show login out true w = (rv, w') from h] at hlog
  exact ⟨evs, hlog, ownReplies_of_login hevs⟩

/-- The last reply to an attempt has its status code. -/
theorem Attempt.answered_iff {api : Api} {action : NetAction} {url : String} {w w' : World}
    {rc : Int} (h : Attempt api action url w rc w') (hapi : api ≠ .login) :
    ∃ evs, w'.log = w.log ++ evs ∧ ownReplies evs ≠ [] ∧ (Answered evs ↔ rc = 200) := by
  obtain ⟨earlier, req, reply, -, hown, rfl, rfl⟩ := h
  have hreplies : ownReplies (httpEvents (earlier ++ [(req, reply)])) =
      (earlier ++ [(req, reply)]).map Prod.snd := by
    rw [ownReplies, exchanges_httpEvents, List.filter_eq_self.mpr]
    intro x hx
    rw [(hown x hx).1]
    exact decide_eq_true hapi
  refine ⟨_, rfl, ?_, ?_⟩
  · rw [hreplies]
    simp
  · rw [Answered, hreplies]
    simp

/-- A request that needs no data is answered, and every request but a DELETE succeeds just when
its last reply is a good one. -/
theorem networkAction_answered {api : Api} {action : NetAction} {url : String}
    {data : Option Json} {w : World} (hapi : api ≠ .login) (haction : action ≠ .delete) :
    ∃ evs, (networkAction out api action url data w).2.log = w.log ++ evs ∧
      ((networkAction out api action url data w).1 = .success ↔ Answered evs) ∧
      (checkData action = false → action ≠ .postVsResp → ownReplies evs ≠ []) := by
  have hrun := networkAction_cases out api action url data w
  generalize networkAction out api action url data w = r at hrun
  obtain ⟨rv, w'⟩ := r
  dsimp only at hrun ⊢
  cases hrun with
  | refused hrv hdata =>
      refine ⟨[], by rw [World.clearJwt_log, List.append_nil],
        iff_of_false hrv fun h => h.ne_nil rfl, fun hnot hresp => ?_⟩
      rcases hdata with hdata | hdata
      · rw [hnot] at hdata
        cases hdata
      · exact absurd hdata hresp
  | answered hfirst =>
      obtain ⟨evs, hlog, hsome, hcode⟩ := hfirst.answered_iff hapi
      rw [World.clearJwt_log] at hlog
      exact ⟨evs, hlog, by rw [inspectHttpCode_success_iff, hcode], fun _ _ => hsome⟩
  | refreshFailed hfirst _ hrefresh hrv hexpired =>
      obtain ⟨evs, hlog, hsome, hcode⟩ := hfirst.answered_iff hapi
      obtain ⟨evs', hlog', hnone⟩ := ownReplies_refresh hrefresh
      have hreplies : ownReplies (evs' ++ [.refreshed rv]) = [] := by
        rw [ownReplies_append, hnone]
        rfl
      refine ⟨evs ++ (evs' ++ [.refreshed rv]), ?_, iff_of_false hrv fun h => ?_, fun _ _ => ?_⟩
      · rw [World.marked_log, hlog', hlog, List.append_assoc, List.append_assoc]
      · rw [answered_append_iff, if_pos hreplies, hcode] at h
        rw [(inspectHttpCode_success_iff _ _).mpr h] at hexpired
        cases hexpired
      · rw [ownReplies_append, hreplies, List.append_nil]
        exact hsome
  | repeated hfirst _ _ hrefresh hsecond =>
      obtain ⟨evs, hlog, -, -⟩ := hfirst.answered_iff hapi
      obtain ⟨evs', hlog', -⟩ := ownReplies_refresh hrefresh
      obtain ⟨evs'', hlog'', hsome, hcode⟩ := hsecond.answered_iff hapi
      refine ⟨evs ++ evs' ++ [.refreshed .success] ++ evs'', ?_, ?_, fun _ _ => ?_⟩
      · rw [hlog'', World.marked_log, hlog', hlog]
        simp only [List.append_assoc]
      · rw [answered_append_iff, if_neg hsome, inspectHttpCode_success_iff, hcode]
      · rw [ownReplies_append]
        exact List.append_ne_nil_of_right_ne_nil _ hsome
  | repeatedDelete _ hdelete => exact absurd hdelete haction

/-- A request succeeds just when its last reply is a good one. -/
theorem sendTo_success_iff {limit : Nat} {api : String → Api} (hapi : ∀ p, api p ≠ .login)
    {action : NetAction} (haction : action ≠ .delete) (path : Option String) (tail : String)
    (data : Option Json) (w : World) :
    ∃ evs, (sendTo out limit api action path tail data w).2.log = w.log ++ evs ∧
      ((sendTo out limit api action path tail data w).1 = .success ↔ Answered evs) := by
  rcases @sendTo_cases out limit api action path tail data w with ⟨rv, hrv, h⟩ | ⟨p, url, -, h⟩
  · rw [h]
    exact ⟨[], by rw [List.append_nil], iff_of_false hrv fun h => h.ne_nil rfl⟩
  · rw [h]
    obtain ⟨evs, hlog, hanswered, -⟩ := @networkAction_answered out (api p) action url data w
      (hapi p) haction
    exact ⟨evs, hlog, hanswered⟩

/-- A request of a context that names a server is answered. -/
theorem sendTo_answered {limit : Nat} {api : String → Api} (hapi : ∀ p, api p ≠ .login)
    {action : NetAction} (haction : action ≠ .delete) (hresp : action ≠ .postVsResp)
    (hdata : checkData action = false) (path : String) (tail : String) (data : Option Json)
    {w : World} (hsane : sanityCheckCtx w.ctx = .success) :
    ∃ evs, (sendTo out limit api action (some path) tail data w).2.log = w.log ++ evs ∧
      ((sendTo out limit api action (some path) tail data w).1 = .success ↔ Answered evs) ∧
      ownReplies evs ≠ [] ∧
      sanityCheckCtx (sendTo out limit api action (some path) tail data w).2.ctx = .success := by
  have hkept := (@netFrame_sendTo out limit api action path tail data w).1
  have hsend : sendTo out limit api action (some path) tail data w =
      networkAction out (api path) action
        (snprintf limit (serverBase w.ctx ++ path ++ tail)) data w := by
    rw [sendTo, getCtx_bind, if_neg (not_not.mpr hsane)]
  obtain ⟨evs, hlog, hanswered, hsome⟩ := @networkAction_answered out (api path) action
    (snprintf limit (serverBase w.ctx ++ path ++ tail)) data w (hapi path) haction
  rw [hsend] at hkept ⊢
  refine ⟨evs, hlog, hanswered, hsome hdata hresp, ?_⟩
  rw [hkept]
  exact hsane

/-- A request that succeeds has a context that names a server, and a path. -/
theorem sendTo_success_sane {limit : Nat} {api : String → Api} {action : NetAction}
    {path : Option String} {tail : String} {data : Option Json} {w w' : World}
    (h : sendTo out limit api action path tail data w = (.success, w')) :
    sanityCheckCtx w.ctx = .success ∧ ∃ p, path = some p := by
  rw [sendTo, getCtx_bind, Prog.ite_apply] at h
  by_cases hsane : sanityCheckCtx w.ctx = .success
  · rw [if_neg (not_not.mpr hsane)] at h
    cases path with
    | none => cases (Prod.mk.inj h).1
    | some p => exact ⟨hsane, p, rfl⟩
  · rw [if_pos hsane] at h
    exact absurd (Prod.mk.inj h).1 hsane

end Requests

/-! ## Several requests -/

/-- A result that was carried over some replies: it is the old one when there were none, and
otherwise it is a success just when the last of them is a good one. -/
def Carries (rv rv' : AmvpResult) (evs : List Event) : Prop :=
  (ownReplies evs = [] → rv' = rv) ∧ (ownReplies evs ≠ [] → (rv' = .success ↔ Answered evs))

theorem carries_nil (rv : AmvpResult) : Carries rv rv [] := ⟨fun _ => rfl, fun h => absurd rfl h⟩

/-- From a success on, the result is one when nothing was asked for or the last reply is good. -/
theorem Carries.success_iff {rv : AmvpResult} {evs : List Event} (h : Carries .success rv evs) :
    rv = .success ↔ ownReplies evs = [] ∨ Answered evs := by
  by_cases hnone : ownReplies evs = []
  · simp [hnone, h.1 hnone]
  · simp [hnone, h.2 hnone]

theorem Carries.trans {rv rv' rv'' : AmvpResult} {evs evs' : List Event} (h : Carries rv rv' evs)
    (h' : Carries rv' rv'' evs') : Carries rv rv'' (evs ++ evs') := by
  unfold Carries
  rw [ownReplies_append, answered_append_iff]
  by_cases hlater : ownReplies evs' = []
  · rw [if_pos hlater, hlater, List.append_nil, h'.1 hlater]
    exact h
  · rw [if_neg hlater]
    exact ⟨fun hnone => absurd (List.append_eq_nil_iff.mp hnone).2 hlater, fun _ => h'.2 hlater⟩

/-- Whatever came before, an answer decides. -/
theorem carries_of_answered (rv : AmvpResult) {rv' : AmvpResult} {evs : List Event}
    (hsome : ownReplies evs ≠ []) (h : rv' = .success ↔ Answered evs) : Carries rv rv' evs :=
  ⟨fun hnone => absurd hnone hsome, fun _ => h⟩

section Check

/-! ## The results of a reply -/

/-- A set that failed has its URL in the results. -/
def NamesFailure (entry : Json) : Prop := statusOf entry = some "fail" → setUrlOf entry ≠ none

/-- One of the sets is gone, and each that failed before it has its URL. -/
def StopsAtGone (entries : List Json) : Prop :=
  ∃ before entry after, entries = before ++ entry :: after ∧ Gone entry ∧
    ∀ e ∈ before, NamesFailure e

variable (out : Outside)

/-- The failing sets that are looked up, each with the state in which it is asked for: those
that have not been looked up before. -/
def lookups : List Json → List String → World → List (String × World)
  | [], _, _ => []
  | entry :: entries, looked, w =>
    match if statusOf entry = some "fail" then setUrlOf entry else none with
    | none => lookups entries looked w
    | some url =>
      if lookupStrList looked url then lookups entries looked w
      else (url, w) :: lookups entries (appendStrList looked url)
        (retrieveVectorSet out (snprintf (amvpRequestStrLenMax + 1) url) w).2

/-- Every set of a reply counts as complete: it is completed, has its URL when it failed, and is
then sent with its algorithm unless it has been looked up before. -/
structure AllKnown (entries : List Json) (looked : List String) (w : World) : Prop where
  completed : ∀ entry ∈ entries, Completed entry
  named : ∀ entry ∈ entries, NamesFailure entry
  sent : ∀ x ∈ lookups out entries looked w,
    jsonObjectGetString (setReply out x.1 x.2) "algorithm" ≠ none

variable {out}

/-- A set with another status names every failure. -/
theorem namesFailure_of_ne {entry : Json} (h : statusOf entry ≠ some "fail") :
    NamesFailure entry := fun hfail => absurd hfail h

/-! ## The scan of a reply -/

/-- The result that a scan carries. -/
def carriedResult : Except AmvpResult (AmvpResult × Nat × List String) → AmvpResult
  | .error rv => rv
  | .ok (rv, _, _) => rv

/-- A scan of a context that names a server: its result is that of the last set it looked up, and
a scan that counts every set has looked up none in vain. -/
structure ScanCarries (entries : List Json) (rv : AmvpResult) (completed : Nat) (w : World)
    (r : Except AmvpResult (AmvpResult × Nat × List String) × World) (evs : List Event) : Prop where
  log : r.2.log = w.log ++ evs
  sane : sanityCheckCtx r.2.ctx = .success
  carries : Carries rv (carriedResult r.1) evs
  counted : ∀ rv' completed' failedVs', r.1 = .ok (rv', completed', failedVs') →
    completed + entries.length ≤ completed' → rv = .success → rv' = .success

/-- A set for which nothing is asked leaves the scan to the rest. -/
theorem ScanCarries.passed {entry : Json} {entries : List Json} {rv : AmvpResult}
    {completed n : Nat} {w : World}
    {r : Except AmvpResult (AmvpResult × Nat × List String) × World} {evs : List Event}
    (h : ScanCarries entries rv n w r evs) (hn : n ≤ completed + 1) :
    ScanCarries (entry :: entries) rv completed w r evs where
  log := h.log
  sane := h.sane
  carries := h.carries
  counted rv' completed' failedVs' hr hle := by
    rw [List.length_cons] at hle
    exact h.counted rv' completed' failedVs' hr (by omega)

theorem scanResults_carries {entries : List Json} {rv : AmvpResult} {completed : Nat}
    {failedVs : List String} {w : World} (hsane : sanityCheckCtx w.ctx = .success) :
    ∃ evs, ScanCarries entries rv completed w (scanResults out entries rv completed failedVs w)
      evs := by
  induction entries generalizing rv completed failedVs w with
  | nil =>
      refine ⟨[], (List.append_nil _).symm, hsane, carries_nil rv, ?_⟩
      rintro rv' completed' failedVs' ⟨⟩ - rfl
      rfl
  | cons entry entries ih =>
      rcases gone_or_status entry with hgone | hincomplete | ⟨hcompleted, hfail⟩ | hfail
      · rw [scanResults_gone hgone]
        exact ⟨[], (List.append_nil _).symm, hsane, carries_nil rv, by rintro _ _ _ ⟨⟩⟩
      · rw [scanResults_incomplete hincomplete]
        obtain ⟨evs, hrest⟩ := @ih rv completed failedVs w hsane
        exact ⟨evs, hrest.passed (Nat.le_succ _)⟩
      · rw [scanResults_unfailing hcompleted hfail]
        obtain ⟨evs, hrest⟩ := @ih rv (completed + 1) failedVs w hsane
        exact ⟨evs, hrest.passed le_rfl⟩
      cases hurl : setUrlOf entry with
      | none =>
          rw [scanResults_unnamed hfail hurl]
          refine ⟨[], (List.append_nil _).symm, hsane, carries_nil rv, ?_⟩
          rintro rv' completed' failedVs' ⟨⟩ - rfl
          rfl
      | some url =>
          cases hlooked : lookupStrList failedVs url with
          | true =>
              rw [scanResults_known hfail hurl hlooked]
              obtain ⟨evs, hrest⟩ := @ih rv (completed + 1) failedVs w hsane
              exact ⟨evs, hrest.passed le_rfl⟩
          | false =>
              rw [scanResults_looksUp hfail hurl hlooked]
              obtain ⟨evs, hlog, hanswered, hsome, hsane'⟩ := @sendTo_answered out
                (amvpAttrUrlMax - 1) .vectorSet (by simp) .getVs (by decide) (by decide) rfl
                (snprintf (amvpRequestStrLenMax + 1) url) "" none w hsane
              obtain ⟨⟨rv₁, w₁⟩, hget⟩ : ∃ r, retrieveVectorSet out
                (snprintf (amvpRequestStrLenMax + 1) url) w = r := ⟨_, rfl⟩
              rw [setReply, hget]
              rw [retrieveVectorSet] at hget
              rw [hget] at hlog hanswered hsane'
              dsimp only
              generalize hn : (if jsonObjectGetString
                (if rv₁ = .success then getObjFromRsp w₁.ctx.curlBuf else none) "algorithm" ≠ none
                then completed + 1 else completed) = n
              obtain ⟨evs', hrest⟩ := @ih rv₁ n (appendStrList failedVs url) w₁ hsane'
              refine ⟨evs ++ evs', ?_, hrest.sane,
                (carries_of_answered rv hsome hanswered).trans hrest.carries, ?_⟩
              · rw [hrest.log, hlog, List.append_assoc]
              · intro rv' completed' failedVs' hr hle hrv
                have hbound := (scanResults_completed (Prod.ext hr rfl)).1
                rw [List.length_cons] at hle
                -- a set that was looked up in vain is not counted
                have hsuccess : rv₁ = .success := by
                  by_contra hfailed
                  have hnone : jsonObjectGetString none "algorithm" = none := rfl
                  rw [if_neg hfailed, if_neg (not_not.mpr hnone)] at hn
                  omega
                have hcount : n ≤ completed + 1 := by
                  split_ifs at hn <;> omega
                exact hrest.counted rv' completed' failedVs' hr (by omega) hsuccess

/-! ## What the scan makes of a reply -/

variable (out)

/-- A scan leaves with an error just when it stops at a set that is gone, and it counts every set
just when all of them are known. -/
structure ScanOutcome (entries : List Json) (completed : Nat) (looked : List String) (w : World)
    (r : Except AmvpResult (AmvpResult × Nat × List String)) : Prop where
  stops : (∃ rv, r = .error rv) ↔ StopsAtGone entries
  counts : (∃ rv n failedVs, r = .ok (rv, n, failedVs) ∧ completed + entries.length ≤ n) ↔
    AllKnown out entries looked w

variable {out}

theorem stopsAtGone_cons {entry : Json} {entries : List Json} :
    StopsAtGone (entry :: entries) ↔ Gone entry ∨ NamesFailure entry ∧ StopsAtGone entries := by
  constructor
  · rintro ⟨before, e, after, heq, hgone, hbefore⟩
    cases before with
    | nil =>
        obtain ⟨rfl, -⟩ := List.cons.inj heq
        exact .inl hgone
    | cons b before =>
        obtain ⟨rfl, rfl⟩ := List.cons.inj heq
        obtain ⟨hb, hrest⟩ := List.forall_mem_cons.mp hbefore
        exact .inr ⟨hb, before, e, after, rfl, hgone, hrest⟩
  · rintro (hgone | ⟨hnames, before, e, after, rfl, hgone, hbefore⟩)
    · exact ⟨[], entry, entries, rfl, hgone, by simp⟩
    · exact ⟨entry :: before, e, after, rfl, hgone, List.forall_mem_cons.mpr ⟨hnames, hbefore⟩⟩

/-- A set that failed is not gone. -/
theorem not_gone_of_completed {entry : Json} (h : Completed entry) : ¬Gone entry :=
  fun hgone => hgone.not_completed h

/-- A set that is counted leaves the outcome to the rest. -/
theorem ScanOutcome.counted {entry : Json} {entries : List Json} {completed : Nat}
    {looked looked₁ : List String} {w w₁ : World}
    {r : Except AmvpResult (AmvpResult × Nat × List String)}
    (h : ScanOutcome out entries (completed + 1) looked₁ w₁ r) (hgone : ¬Gone entry)
    (hnames : NamesFailure entry)
    (hknown : AllKnown out (entry :: entries) looked w ↔ AllKnown out entries looked₁ w₁) :
    ScanOutcome out (entry :: entries) completed looked w r where
  stops := by
    rw [h.stops, stopsAtGone_cons, or_iff_right hgone, and_iff_right hnames]
  counts := by
    rw [hknown, ← h.counts, List.length_cons, Nat.add_right_comm, Nat.add_assoc]

/-- A set that is not counted keeps the scan from counting all. -/
theorem ScanOutcome.skipped {entry : Json} {entries : List Json} {completed : Nat}
    {looked looked₁ : List String} {w w₁ : World}
    {r : Except AmvpResult (AmvpResult × Nat × List String)}
    (h : ScanOutcome out entries completed looked₁ w₁ r) (hgone : ¬Gone entry)
    (hnames : NamesFailure entry) (hunknown : ¬AllKnown out (entry :: entries) looked w)
    (hbound : ∀ rv n failedVs, r = .ok (rv, n, failedVs) → n ≤ completed + entries.length) :
    ScanOutcome out (entry :: entries) completed looked w r where
  stops := by
    rw [h.stops, stopsAtGone_cons, or_iff_right hgone, and_iff_right hnames]
  counts := by
    refine iff_of_false ?_ hunknown
    rintro ⟨rv, n, failedVs, hr, hle⟩
    have hn := hbound rv n failedVs hr
    rw [List.length_cons] at hle
    omega

theorem allKnown_nil {looked : List String} {w : World} : AllKnown out [] looked w :=
  ⟨by simp, by simp, by simp [lookups]⟩

/-- The sets that are known, the first one apart, when it is not looked up. -/
theorem allKnown_cons_of_passed {entry : Json} (hcompleted : Completed entry)
    (hnames : NamesFailure entry) {entries : List Json} {looked : List String} {w : World}
    (hpassed : ∀ url, statusOf entry = some "fail" → setUrlOf entry = some url →
      lookupStrList looked url = true) :
    AllKnown out (entry :: entries) looked w ↔ AllKnown out entries looked w := by
  have hlookups : lookups out (entry :: entries) looked w = lookups out entries looked w := by
    rw [lookups]
    split
    · rfl
    · next url hurl =>
      split_ifs at hurl with hfail
      rw [if_pos (hpassed url hfail hurl)]
  constructor
  · intro h
    exact ⟨(List.forall_mem_cons.mp h.completed).2, (List.forall_mem_cons.mp h.named).2,
      hlookups ▸ h.sent⟩
  · intro h
    exact ⟨List.forall_mem_cons.mpr ⟨hcompleted, h.completed⟩,
      List.forall_mem_cons.mpr ⟨hnames, h.named⟩, hlookups ▸ h.sent⟩

/-- The sets that are known, the first one apart, when it is looked up. -/
theorem allKnown_cons_of_lookup {entry : Json} {url : String}
    (hfail : statusOf entry = some "fail") (hurl : setUrlOf entry = some url)
    {entries : List Json} {looked : List String} {w : World}
    (hnew : lookupStrList looked url = false) :
    AllKnown out (entry :: entries) looked w ↔
      jsonObjectGetString (setReply out url w) "algorithm" ≠ none ∧
        AllKnown out entries (appendStrList looked url)
          (retrieveVectorSet out (snprintf (amvpRequestStrLenMax + 1) url) w).2 := by
  have hnames : NamesFailure entry := fun _ hnone => by cases hurl.symm.trans hnone
  have hlookups : lookups out (entry :: entries) looked w =
      (url, w) :: lookups out entries (appendStrList looked url)
        (retrieveVectorSet out (snprintf (amvpRequestStrLenMax + 1) url) w).2 := by
    rw [lookups, if_pos hfail, hurl]
    dsimp only
    rw [if_neg (by simp [hnew])]
  constructor
  · intro h
    have hsent := h.sent
    rw [hlookups, List.forall_mem_cons] at hsent
    exact ⟨hsent.1, (List.forall_mem_cons.mp h.completed).2, (List.forall_mem_cons.mp h.named).2,
      hsent.2⟩
  · rintro ⟨hfirst, h⟩
    refine ⟨List.forall_mem_cons.mpr ⟨completed_of_fail hfail, h.completed⟩,
      List.forall_mem_cons.mpr ⟨hnames, h.named⟩, ?_⟩
    rw [hlookups, List.forall_mem_cons]
    exact ⟨hfirst, h.sent⟩

/-- What a scan makes of the results. -/
theorem scanResults_outcome {entries : List Json} {rv : AmvpResult} {completed : Nat}
    {failedVs : List String} {w : World} :
    ScanOutcome out entries completed failedVs w
      (scanResults out entries rv completed failedVs w).1 := by
  induction entries generalizing rv completed failedVs w with
  | nil =>
      have hrun : scanResults out [] rv completed failedVs w =
        (.ok (rv, completed, failedVs), w) := rfl
      rw [hrun]
      refine ⟨iff_of_false ?_ ?_, iff_of_true ⟨rv, completed, failedVs, rfl, le_rfl⟩ allKnown_nil⟩
      · rintro ⟨_, ⟨⟩⟩
      · rintro ⟨before, entry, after, heq, -⟩
        exact absurd heq (by simp)
  | cons entry entries ih =>
      have hbound : ∀ {rv n failed₁ w₁} rv' n' failed',
          (scanResults out entries rv n failed₁ w₁).1 = .ok (rv', n', failed') →
            n' ≤ n + entries.length :=
        fun _ _ _ h => (scanResults_completed (Prod.ext h rfl)).1
      rcases gone_or_status entry with hgone | hincomplete | ⟨hcompleted, hfail⟩ | hfail
      · rw [scanResults_gone hgone]
        refine ⟨iff_of_true ⟨rv, rfl⟩ (stopsAtGone_cons.mpr (.inl hgone)), iff_of_false ?_ ?_⟩
        · rintro ⟨_, _, _, ⟨⟩, -⟩
        · exact fun h => hgone.not_completed (h.completed entry List.mem_cons_self)
      · rw [scanResults_incomplete hincomplete]
        refine ih.skipped ?_ ?_ ?_ hbound
        · rintro (hnone | hexpired | hunreceived)
          · cases hincomplete.symm.trans hnone
          · exact absurd (hincomplete.symm.trans hexpired) (by decide)
          · exact absurd (hincomplete.symm.trans hunreceived) (by decide)
        · exact namesFailure_of_ne (by rw [hincomplete]; decide)
        · intro h
          obtain ⟨status, hstatus, -, -, hne⟩ := h.completed entry List.mem_cons_self
          exact hne (Option.some.inj (hstatus.symm.trans hincomplete))
      · rw [scanResults_unfailing hcompleted hfail]
        exact ih.counted (not_gone_of_completed hcompleted) (namesFailure_of_ne hfail)
          (allKnown_cons_of_passed hcompleted (namesFailure_of_ne hfail)
            fun _ hfailed => absurd hfailed hfail)
      have hgone := not_gone_of_completed (completed_of_fail hfail)
      cases hurl : setUrlOf entry with
      | none =>
          rw [scanResults_unnamed hfail hurl]
          refine ⟨iff_of_false ?_ fun hstops => ?_, iff_of_false ?_ fun h => ?_⟩
          · rintro ⟨_, ⟨⟩⟩
          · rcases stopsAtGone_cons.mp hstops with hbad | ⟨hnames, -⟩
            · exact hgone hbad
            · exact hnames hfail hurl
          · rintro ⟨_, _, _, ⟨⟩, hle⟩
            rw [List.length_cons] at hle
            omega
          · exact h.named entry List.mem_cons_self hfail hurl
      | some url =>
          have hnames : NamesFailure entry := fun _ hnone => by cases hurl.symm.trans hnone
          cases hlooked : lookupStrList failedVs url with
          | true =>
              rw [scanResults_known hfail hurl hlooked]
              refine ih.counted hgone hnames
                (allKnown_cons_of_passed (completed_of_fail hfail) hnames fun u _ hu => ?_)
              obtain rfl := Option.some.inj (hurl.symm.trans hu)
              exact hlooked
          | false =>
              rw [scanResults_looksUp hfail hurl hlooked]
              dsimp only
              have hknown := @allKnown_cons_of_lookup out entry url hfail hurl entries failedVs w
                hlooked
              by_cases hsent : jsonObjectGetString (setReply out url w) "algorithm" ≠ none
              · rw [if_pos hsent]
                exact ih.counted hgone hnames (hknown.trans (and_iff_right hsent))
              · rw [if_neg hsent]
                exact ih.skipped hgone hnames (fun h => hsent (hknown.mp h).1) hbound

/-- A set whose details are asked for has its URL in the results. -/
def NamesProblem (entry : Json) : Prop :=
  statusOf entry = some "fail" ∨ statusOf entry = some "error" → setUrlOf entry ≠ none

/-- The report of the failed sets: it ends at the first set whose details are not sent, and needs
the URLs of the sets whose details it asks for. -/
theorem reportFailed_carries {entries : List Json} {rv : AmvpResult} {w : World}
    (hsane : sanityCheckCtx w.ctx = .success) (hrv : rv = .success)
    (hstatuses : ∀ entry ∈ entries, statusOf entry ≠ none) :
    ∃ evs, (reportFailed out entries rv w).2.log = w.log ++ evs ∧
      ((reportFailed out entries rv w).1 = .success ↔
        (ownReplies evs = [] ∨ Answered evs) ∧
          (w.ctx.logVerbose = true → ∀ entry ∈ entries, NamesProblem entry)) := by
  induction entries generalizing rv w with
  | nil =>
      exact ⟨[], (List.append_nil _).symm, iff_of_true hrv ⟨.inl rfl, by simp⟩⟩
  | cons entry entries ih =>
      obtain ⟨hstatus', hrest⟩ := List.forall_mem_cons.mp hstatuses
      rw [reportFailed]
      cases hstatus : jsonObjectGetString (jsonValueGetObject (some entry)) "status" with
      | none => exact absurd hstatus hstatus'
      | some status =>
          have hof : statusOf entry = some status := hstatus
          dsimp only
          rw [getCtx_bind, Prog.ite_apply]
          by_cases hasks : (status = "fail" ∨ status = "error") ∧ w.ctx.logVerbose = true
          swap
          · rw [if_neg hasks]
            obtain ⟨evs, hlog, hsuccess⟩ := ih hsane hrv hrest
            refine ⟨evs, hlog, hsuccess.trans (and_congr_right fun _ => forall_congr' fun hv => ?_)⟩
            rw [List.forall_mem_cons, and_iff_right]
            intro hproblem
            rw [hof, Option.some_inj, Option.some_inj] at hproblem
            exact absurd ⟨hproblem, hv⟩ hasks
          rw [if_pos hasks]
          have hproblem : statusOf entry = some "fail" ∨ statusOf entry = some "error" := by
            rw [hof]
            exact hasks.1.imp (congrArg some) (congrArg some)
          cases hurl : jsonObjectGetString (jsonValueGetObject (some entry)) "vectorSetUrl" with
          | none =>
              have hmissing : retrieveVectorSetResult out none w = (.missingArg, w) := by
                rw [retrieveVectorSetResult, sendTo, getCtx_bind, if_neg (not_not.mpr hsane)]
                rfl
              rw [Prog.bind_of_eq hmissing, if_pos (by decide)]
              refine ⟨[], (List.append_nil _).symm, iff_of_false (by rintro ⟨⟩) fun h => ?_⟩
              exact h.2 hasks.2 entry List.mem_cons_self hproblem hurl
          | some url =>
              have hnames : NamesProblem entry := fun _ hnone => by cases hurl.symm.trans hnone
              obtain ⟨evs, hlog, hanswered, hsome, hsane'⟩ := @sendTo_answered out
                (amvpAttrUrlMax - 1) .vectorSetResult (by simp) .getVsResult (by decide) (by decide)
                rfl url "/results" none w hsane
              have hkept := (@netFrame_sendTo out (amvpAttrUrlMax - 1) .vectorSetResult .getVsResult
                url "/results" none w).1
              obtain ⟨⟨rv₁, w₁⟩, hget⟩ : ∃ r, retrieveVectorSetResult out (some url) w = r :=
                ⟨_, rfl⟩
              rw [Prog.bind_of_eq hget]
              rw [retrieveVectorSetResult] at hget
              rw [hget] at hlog hanswered hsane' hkept
              dsimp only at hlog hanswered hsane' hkept
              by_cases hrv₁ : rv₁ = .success
              · rw [if_neg (not_not.mpr hrv₁)]
                obtain ⟨evs', hlog', hsuccess⟩ := ih hsane' hrv₁ hrest
                refine ⟨evs ++ evs', by rw [hlog', hlog, List.append_assoc], ?_⟩
                have hlast : ownReplies (evs ++ evs') = [] ∨ Answered (evs ++ evs') ↔
                    ownReplies evs' = [] ∨ Answered evs' := by
                  rw [(hanswered.mp hrv₁).append_iff, ownReplies_append, List.append_eq_nil_iff]
                  exact or_iff_right_of_imp fun hnone => .inl hnone.2
                rw [hsuccess, hlast, hkept, List.forall_mem_cons, and_iff_right hnames]
              · rw [if_pos hrv₁]
                refine ⟨evs, hlog, iff_of_false hrv₁ fun h => hrv₁ ?_⟩
                exact hanswered.mpr (h.1.resolve_left hsome)

/-! ## The results check -/

variable (out)

/-- The replies of a round make it the last one, and a success: the results arrive and the last
reply of all is a good one; the results stop at a set that is gone, or all sets are known, and
where the session has not passed, a verbose log finds the URLs of those with problems. -/
def RoundComplete (sessionUrl : Option String) (p : Polling) (w w' : World) : Prop :=
  ∃ obj, resultsReply out sessionUrl w = some obj ∧ Answered (since w.log w'.log) ∧
    (StopsAtGone (resultsOf obj) ∨
      AllKnown out (resultsOf obj) p.failedVs (retrieveVectorSetResult out sessionUrl w).2 ∧
        (jsonObjectGetBoolean (some obj) "passed" = 1 ∨
          (w.ctx.logVerbose = true → ∀ entry ∈ resultsOf obj, NamesProblem entry)))

/-- The last round of the check ends with a success. -/
def CheckComplete (w : World) : Prop :=
  ∃ earlier p last, Prog.Trace (resultRound out w.ctx.sessionUrl) ⟨[], 0, amvpRetryTime⟩ w
      (earlier ++ [(p, last)]) (checkTestResults out w) ∧
    RoundComplete out w.ctx.sessionUrl p last (checkTestResults out w).2

variable {out}

/-- The last round of the check. -/
theorem resultRound_success_iff {sessionUrl : Option String} {p : Polling} {w w' : World}
    {rv : AmvpResult} (h : resultRound out sessionUrl p w = (.inr rv, w')) :
    rv = .success ↔ RoundComplete out sessionUrl p w w' := by
  obtain ⟨⟨rv₀, w₀⟩, hget⟩ : ∃ r, retrieveVectorSetResult out sessionUrl w = r := ⟨_, rfl⟩
  rw [resultRound, Prog.bind_of_eq hget] at h
  have hreply : resultsReply out sessionUrl w =
      if rv₀ = .success then getObjFromRsp w₀.ctx.curlBuf else none := by
    rw [resultsReply, hget]
  unfold RoundComplete
  rw [hreply, hget]
  by_cases hrv₀ : rv₀ = .success
  swap
  · rw [if_pos hrv₀] at h
    obtain ⟨hrv, -⟩ := Prod.mk.inj h
    obtain rfl := Sum.inr.inj hrv
    refine iff_of_false hrv₀ ?_
    rintro ⟨obj, hobj, -⟩
    rw [if_neg hrv₀] at hobj
    cases hobj
  rw [if_neg (not_not.mpr hrv₀), getCtx_bind] at h
  rw [if_pos hrv₀]
  subst hrv₀
  obtain ⟨hsane, url, rfl⟩ := sendTo_success_sane hget
  obtain ⟨evs, hlog, hanswered, -, hsane₀⟩ := @sendTo_answered out
    (amvpAttrUrlMax - 1) .vectorSetResult (by simp) .getVsResult (by decide) (by decide)
    rfl url "/results" none w hsane
  have hkept := (@netFrame_sendTo out (amvpAttrUrlMax - 1) .vectorSetResult .getVsResult
    url "/results" none w).1
  rw [retrieveVectorSetResult] at hget
  rw [hget] at hlog hanswered hsane₀ hkept
  have hfirst : Answered evs := hanswered.mp rfl
  cases hobj : getObjFromRsp w₀.ctx.curlBuf with
  | none =>
      rw [hobj] at h
      cases (Prod.mk.inj h).1
      exact iff_of_false (by rintro ⟨⟩) (by rintro ⟨_, ⟨⟩, -⟩)
  | some obj =>
      rw [hobj] at h
      dsimp only at h
      change _ = (Sum.inr rv, w') at h
      obtain ⟨evs', hscan⟩ := @scanResults_carries out (resultsOf obj) .success 0 p.failedVs w₀
        hsane₀
      have houtcome := @scanResults_outcome out (resultsOf obj) .success 0 p.failedVs w₀
      obtain ⟨⟨res, w₁⟩, hrun⟩ : ∃ r, scanResults out (resultsOf obj) .success 0 p.failedVs w₀ =
        r := ⟨_, rfl⟩
      have hrun' := hrun
      unfold resultsOf at hrun'
      rw [Prog.bind_of_eq hrun'] at h
      rw [hrun] at hscan houtcome
      have hscanLog := hscan.log
      dsimp only at hscanLog hlog houtcome
      have hcarries := hscan.carries.success_iff
      have hobjects : ∀ Q : JsonObject → Prop, (∃ o, some obj = some o ∧ Q o) ↔ Q obj := by
        simp
      rw [hobjects]
      cases res with
      | error rv₁ =>
          obtain ⟨hrv, rfl⟩ := Prod.mk.inj h
          obtain rfl := Sum.inr.inj hrv
          have hstops := houtcome.stops.mp ⟨_, rfl⟩
          rw [hscanLog, hlog, List.append_assoc, since_append, hfirst.append_iff, ← hcarries]
          exact ⟨fun hsuccess => ⟨hsuccess, .inl hstops⟩, fun hround => hround.1⟩
      | ok res =>
          obtain ⟨rv₁, completed, failedVs⟩ := res
          dsimp only at h
          have hgoes : ¬StopsAtGone (resultsOf obj) := fun hstops => by
            obtain ⟨_, hbad⟩ := houtcome.stops.mpr hstops
            cases hbad
          rw [or_iff_right hgoes]
          by_cases hdone : (resultsOf obj).length ≤ completed
          swap
          · -- a round that waits ends only when the waiting time is used up
            have hunknown : ¬AllKnown out (resultsOf obj) p.failedVs w₀ := fun hknown => by
              obtain ⟨_, _, _, ⟨⟩, hle⟩ := houtcome.counts.mpr hknown
              omega
            unfold resultsOf at hdone
            rw [if_neg hdone] at h
            cases hwait : retryHandler p.interval p.waited 1 with
            | none =>
                rw [hwait] at h
                obtain ⟨hrv, -⟩ := Prod.mk.inj h
                obtain rfl := Sum.inr.inj hrv
                exact iff_of_false (by rintro ⟨⟩) fun hround => hunknown hround.2.1
            | some next =>
                rw [hwait] at h
                cases (Prod.mk.inj h).1
          have hknown := houtcome.counts.mp ⟨rv₁, completed, failedVs, rfl, by omega⟩
          have hrv₁ := hscan.counted rv₁ completed failedVs rfl (by omega) rfl
          have hscanned := hcarries.mp hrv₁
          have hdone' := hdone
          unfold resultsOf at hdone'
          rw [if_pos hdone'] at h
          rw [and_iff_right hknown]
          by_cases hpassed : jsonObjectGetBoolean (some obj) "passed" = 1
          · rw [finishResults, if_pos hpassed] at h
            obtain ⟨hrv, rfl⟩ := Prod.mk.inj h
            obtain rfl := Sum.inr.inj hrv
            refine iff_of_true rfl ⟨?_, .inl hpassed⟩
            change Answered (since w.log w₁.log)
            rw [hscanLog, hlog, List.append_assoc, since_append, hfirst.append_iff]
            exact hscanned
          · rw [finishResults, if_neg hpassed] at h
            rw [or_iff_right hpassed]
            have hstatuses : ∀ entry ∈ resultsOf obj, statusOf entry ≠ none :=
              fun entry hentry hnone => by
                obtain ⟨status, hstatus, -⟩ := hknown.completed entry hentry
                cases hnone.symm.trans hstatus
            obtain ⟨evs'', hreportLog, hsuccess⟩ := @reportFailed_carries out (resultsOf obj) rv₁ w₁
              hscan.sane hrv₁ hstatuses
            obtain ⟨⟨rv₂, w₂⟩, hreport⟩ : ∃ r, reportFailed out (resultsOf obj) rv₁ w₁ = r :=
              ⟨_, rfl⟩
            have hreport' := hreport
            unfold resultsOf at hreport'
            rw [Prog.bind_of_eq hreport'] at h
            rw [hreport] at hreportLog hsuccess
            obtain ⟨hrv, rfl⟩ := Prod.mk.inj h
            obtain rfl := Sum.inr.inj hrv
            have hbefore : Answered (evs ++ evs') := (hfirst.append_iff evs').mpr hscanned
            have hquiet := @quietFrame_scanResults out (resultsOf obj) .success 0 p.failedVs w₀
            rw [hrun] at hquiet
            have hverbose : w₁.ctx.logVerbose = w.ctx.logVerbose := by
              have hsame : w₁.ctx.logVerbose = w₀.ctx.logVerbose :=
                congrArg (fun standing => standing.1.logVerbose) hquiet.1
              rw [hsame]
              dsimp only at hkept
              rw [hkept]
            dsimp only at hreportLog hsuccess
            rw [hreportLog, hscanLog, hlog, List.append_assoc, List.append_assoc, since_append,
              ← List.append_assoc, hbefore.append_iff, hsuccess, hverbose]

variable (out)

/-- A results check succeeds just when its last round does. -/
theorem checkTestResults_success_iff (w : World) :
    (checkTestResults out w).1 = .success ↔ CheckComplete out w := by
  obtain ⟨starts, htrace⟩ := Prog.exists_trace (resultRound_decreases out w.ctx.sessionUrl)
    ⟨[], 0, amvpRetryTime⟩ w
  change Prog.Trace (resultRound out w.ctx.sessionUrl) _ w starts (checkTestResults out w)
    at htrace
  constructor
  · intro hsuccess
    obtain ⟨earlier, p, last, rfl, hlast⟩ := htrace.exists_last
    exact ⟨earlier, p, last, htrace, (resultRound_success_iff hlast).mp hsuccess⟩
  · rintro ⟨earlier, p, last, htrace', hround⟩
    obtain ⟨earlier', p', last', hstarts, hlast⟩ := htrace'.exists_last
    obtain ⟨rfl, hpair⟩ := List.append_inj' hstarts rfl
    obtain ⟨rfl, rfl⟩ := Prod.mk.inj (List.singleton_inj.mp hpair)
    exact (resultRound_success_iff hlast).mpr hround

end Check

end LibAmvp
