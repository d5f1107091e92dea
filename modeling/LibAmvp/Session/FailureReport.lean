import LibAmvp.Session.ResultsCheck

/-!
# The report of the failing algorithms

While it polls the results, the library retrieves every failing vector set once and notes
its algorithm and its mode in two lists, which it prints in parallel.  Whether a URL, an
algorithm or a mode is known is looked up by the shorter of two strings, the algorithm and
the mode are looked up in their own lists, and the variable for the mode is kept from one
set to the next.

Main results:

- Theorem {lit}`getResultTestSession_eq_listing`: the polling loop with the lists of the report
  is the polling loop.
- Theorem {lit}`failureReport_exact_iff`: when the report is exact.
-/

namespace LibAmvp

/-! ## The lists of the report -/

/-- The lists that {lit}`amvp_get_result_test_session` keeps, and its variable for the mode. -/
structure FailureLists where
  failedVs : List String
  failedAlg : List String
  failedMode : List String
  mode : Option String

/-- No failure is known. -/
def FailureLists.empty : FailureLists := ⟨[], [], [], none⟩

/-- {lit}`amvp_list_failing_algorithms`: the algorithms and the modes in parallel. -/
def FailureLists.pairs (l : FailureLists) : List (String × String) := l.failedAlg.zip l.failedMode

/-- {lit}`amvp_lookup_str_list` for a pointer that may be NULL. -/
def lookupStrList? (list : List String) : Option String → Bool
  | none => false
  | some s => lookupStrList list s

section Report

variable (freed : String → String)

/-- What the variable for the mode reads as, once the mode of the current set was assigned to
it.  The mode of an earlier set is in memory that was freed, and {lit}`freed` is what is found
there. -/
def modeRead (held own : Option String) : Option String :=
  match own with
  | some m => some m
  | none => held.map freed

/-- Note a failing set with this algorithm and mode. -/
def FailureLists.note (l : FailureLists) (alg : String) (own : Option String) : FailureLists :=
  let read := modeRead freed l.mode own
  if lookupStrList l.failedAlg alg ∧ lookupStrList? l.failedMode read then
    { l with mode := own.or l.mode }
  else
    { l with
      mode := own.or l.mode
      failedAlg := appendStrList l.failedAlg alg
      failedMode := appendStrList l.failedMode (read.getD "") }

/-- Noting an algorithm leaves the failed sets alone. -/
@[simp]
theorem note_failedVs (l : FailureLists) (alg : String) (own : Option String) :
    (l.note freed alg own).failedVs = l.failedVs := by
  unfold FailureLists.note
  dsimp only
  split <;> rfl

/-- Its own mode replaces the one that is held. -/
@[simp]
theorem note_mode (l : FailureLists) (alg : String) (own : Option String) :
    (l.note freed alg own).mode = own.or l.mode := by
  unfold FailureLists.note
  dsimp only
  split <;> rfl

variable (out : Outside)

/-- The first loop of {lit}`amvp_get_result_test_session` over the results of a reply, with the
lists of the report. -/
def scanListing : List Json → AmvpResult → Nat → FailureLists →
    Session (Except AmvpResult (AmvpResult × Nat × FailureLists))
  | [], rv, completed, l => return .ok (rv, completed, l)
  | entry :: entries, rv, completed, l => do
    let current := jsonValueGetObject (some entry)
    match jsonObjectGetString current "status" with
    | none => return .error rv
    | some status =>
      if status = "expired" ∨ status = "unreceived" then
        return .error rv
      else if status = "incomplete" then
        scanListing entries rv completed l
      else if status = "fail" then
        match jsonObjectGetString current "vectorSetUrl" with
        | none => return .ok (rv, completed, l)
        | some vsUrl =>
          if lookupStrList l.failedVs vsUrl then
            scanListing entries rv (completed + 1) l
          else
            let rv ← retrieveVectorSet out (snprintf (amvpRequestStrLenMax + 1) vsUrl)
            let obj := getObjFromRsp (← getCtx).curlBuf
            let l := { l with failedVs := appendStrList l.failedVs vsUrl }
            match jsonObjectGetString obj "algorithm" with
            | none => scanListing entries rv completed l
            | some alg =>
              if rv = .success then
                scanListing entries rv (completed + 1)
                  (l.note freed alg (jsonObjectGetString obj "mode"))
              else
                scanListing entries rv completed l
      else
        scanListing entries rv (completed + 1) l

/-- The variables of the polling loop, with the lists of the report. -/
structure ListingPolling where
  lists : FailureLists
  waited : Nat
  interval : Int

/-- The variables without the report. -/
def ListingPolling.forget (p : ListingPolling) : Polling := ⟨p.lists.failedVs, p.waited, p.interval⟩

/-- One round of the polling loop, with the report at its end. -/
def listingRound (sessionUrl : Option String) (p : ListingPolling) :
    Session (ListingPolling ⊕ (AmvpResult × Option (List (String × String)))) := do
  let rv ← retrieveVectorSetResult out sessionUrl
  if rv ≠ .success then
    return .inr (rv, none)
  else
    match getObjFromRsp (← getCtx).curlBuf with
    | none => return .inr (.jsonErr, none)
    | some obj =>
      let results := jsonArrayElems (jsonObjectGetArray (some obj) "results")
      match ← scanListing freed out results .success 0 p.lists with
      | .error rv => return .inr (rv, none)
      | .ok (rv, completed, lists) =>
        if results.length ≤ completed then
          let rv ← finishResults out obj rv
          return .inr (rv,
            if jsonObjectGetBoolean (some obj) "passed" = 1 then none else some lists.pairs)
        else
          match retryHandler p.interval p.waited 1 with
          | none => return .inr (.transportFail, none)
          | some (interval, waited) => return .inl ⟨lists, waited, interval⟩

/-! ## The loop with the report is the loop -/

variable {out}

/-- The scan of the session model is the listing with the lists forgotten. -/
theorem scanResults_eq_listing (entries : List Json) (rv : AmvpResult) (completed : Nat)
    (l : FailureLists) (w : World) :
    scanResults out entries rv completed l.failedVs w =
      ((scanListing freed out entries rv completed l w).1.map fun x => (x.1, x.2.1, x.2.2.failedVs),
        (scanListing freed out entries rv completed l w).2) := by
  induction entries generalizing rv completed l w with
  | nil => rfl
  | cons entry entries ih =>
      rw [scanResults, scanListing]
      dsimp only
      cases jsonObjectGetString (jsonValueGetObject (some entry)) "status" with
      | none => rfl
      | some status =>
          dsimp only
          by_cases hgone : status = "expired" ∨ status = "unreceived"
          · rw [if_pos hgone, if_pos hgone]
            rfl
          rw [if_neg hgone, if_neg hgone]
          by_cases hincomplete : status = "incomplete"
          · rw [if_pos hincomplete, if_pos hincomplete]
            exact ih _ _ _ _
          rw [if_neg hincomplete, if_neg hincomplete]
          by_cases hfail : status = "fail"
          swap
          · rw [if_neg hfail, if_neg hfail]
            exact ih _ _ _ _
          rw [if_pos hfail, if_pos hfail]
          cases jsonObjectGetString (jsonValueGetObject (some entry)) "vectorSetUrl" with
          | none => rfl
          | some vsUrl =>
              dsimp only
              by_cases hknown : lookupStrList l.failedVs vsUrl
              · rw [if_pos hknown, if_pos hknown]
                exact ih _ _ _ _
              obtain ⟨⟨rv₁, w₁⟩, hget⟩ : ∃ q,
                  retrieveVectorSet out (snprintf (amvpRequestStrLenMax + 1) vsUrl) w = q := ⟨_, rfl⟩
              rw [if_neg hknown, if_neg hknown, Prog.bind_of_eq hget, Prog.bind_of_eq hget,
                getCtx_bind, getCtx_bind]
              cases jsonObjectGetString (getObjFromRsp w₁.ctx.curlBuf) "algorithm" with
              | none =>
                  rw [if_neg (by simp)]
                  exact ih _ _ { l with failedVs := appendStrList l.failedVs vsUrl } _
              | some alg =>
                  dsimp only
                  by_cases hrv : rv₁ = .success
                  · rw [if_pos ⟨hrv, by simp⟩, if_pos hrv, ← ih, note_failedVs]
                  · rw [if_neg fun h => hrv h.1, if_neg hrv]
                    exact ih _ _ { l with failedVs := appendStrList l.failedVs vsUrl } _

/-- So is a round of polling. -/
theorem resultRound_eq_listing (sessionUrl : Option String) (p : ListingPolling) (w : World) :
    resultRound out sessionUrl p.forget w =
      (Sum.map ListingPolling.forget Prod.fst (listingRound freed out sessionUrl p w).1,
        (listingRound freed out sessionUrl p w).2) := by
  obtain ⟨⟨rv₁, w₁⟩, hget⟩ : ∃ q, retrieveVectorSetResult out sessionUrl w = q := ⟨_, rfl⟩
  rw [resultRound, listingRound, Prog.bind_of_eq hget, Prog.bind_of_eq hget]
  by_cases hrv : rv₁ = .success
  swap
  · rw [if_pos hrv, if_pos hrv]
    rfl
  rw [if_neg (not_not.mpr hrv), if_neg (not_not.mpr hrv), getCtx_bind, getCtx_bind]
  cases getObjFromRsp w₁.ctx.curlBuf with
  | none => rfl
  | some obj =>
      dsimp only
      obtain ⟨⟨res, w₂⟩, hscan⟩ : ∃ q, scanListing freed out
        (jsonArrayElems (jsonObjectGetArray (some obj) "results")) .success 0 p.lists w₁ = q :=
        ⟨_, rfl⟩
      have hscan' := @scanResults_eq_listing freed out
        (jsonArrayElems (jsonObjectGetArray (some obj) "results")) .success 0 p.lists w₁
      rw [hscan] at hscan'
      rw [Prog.bind_of_eq hscan, Prog.bind_of_eq (m := scanResults _ _ _ _ p.forget.failedVs) hscan']
      cases res with
      | error rv => rfl
      | ok res =>
          obtain ⟨rv, completed, lists⟩ := res
          dsimp only [Except.map]
          by_cases hdone : (jsonArrayElems (jsonObjectGetArray (some obj) "results")).length ≤
              completed
          · rw [if_pos hdone, if_pos hdone]
            rfl
          · rw [if_neg hdone, if_neg hdone]
            have hinterval : p.forget.interval = p.interval := rfl
            have hwaited : p.forget.waited = p.waited := rfl
            rw [hinterval, hwaited]
            cases retryHandler p.interval p.waited 1 with
            | none => rfl
            | some next => rfl

/-- A round of polling takes time from what is left. -/
theorem listingRound_decreases (sessionUrl : Option String) :
    Prog.Decreases (fun p => timeLeft p.waited) (listingRound freed out sessionUrl) := by
  intro p w p' h
  apply resultRound_decreases out sessionUrl p.forget w p'.forget
  rw [resultRound_eq_listing freed, h]
  rfl

variable (out)

/-- {lit}`amvp_get_result_test_session` with the report at its end. -/
def getResultListing (sessionUrl : Option String) :
    Session (AmvpResult × Option (List (String × String))) :=
  Prog.loop (fun p : ListingPolling => timeLeft p.waited) (listingRound freed out sessionUrl)
    (listingRound_decreases freed sessionUrl) ⟨.empty, 0, amvpRetryTime⟩

/-- The polling loop with the lists of the report is the polling loop. -/
theorem getResultTestSession_eq_listing (sessionUrl : Option String) (w : World) :
    getResultTestSession out sessionUrl w =
      ((getResultListing freed out sessionUrl w).1.1, (getResultListing freed out sessionUrl w).2) :=
  Prog.loop_map (resultRound_decreases out sessionUrl) (listingRound_decreases freed sessionUrl)
    (resultRound_eq_listing freed sessionUrl) ⟨.empty, 0, amvpRetryTime⟩ w

/-! ## The report as a function of the failing sets -/

variable (sets : String → String × Option String)

/-- One failing URL, when {lit}`sets` tells the algorithm and the mode of the set at a URL. -/
def FailureLists.noteUrl (l : FailureLists) (url : String) : FailureLists :=
  if lookupStrList l.failedVs url then l
  else FailureLists.note freed { l with failedVs := appendStrList l.failedVs url }
    (sets url).1 (sets url).2

/-- The lists after these failing URLs. -/
def listed (urls : List String) : FailureLists :=
  urls.foldl (FailureLists.noteUrl freed sets) .empty

/-- The algorithm and the mode of a set as the report should show them. -/
def pairOf (set : String × Option String) : String × String := (set.1, set.2.getD "")

/-- The report has the pair of every failing set, each once, and no other. -/
def ExactReport (urls : List String) (report : List (String × String)) : Prop :=
  report.Nodup ∧ ∀ pair, pair ∈ report ↔ ∃ url ∈ urls, pairOf (sets url) = pair

/-- The failing URLs whose sets are retrieved. -/
def fetched (urls : List String) : List String :=
  urls.foldl (fun known url => if lookupStrList known url then known else known ++ [url]) []

/-- The last mode among the sets that are retrieved. -/
def heldMode (urls : List String) : Option String :=
  ((fetched urls).filterMap fun url => (sets url).2).getLast?

/-- The failing set adds nothing to the report: its URL is taken for one that was retrieved,
or its algorithm for one of the earlier algorithms and the mode for one of the earlier
modes. -/
def PassedOver (earlier : List String) (url : String) : Prop :=
  lookupStrList (fetched earlier) url ∨
    (lookupStrList (earlier.map fun v => (pairOf (sets v)).1) (sets url).1 ∧
      lookupStrList? (earlier.map fun v => (pairOf (sets v)).2)
        (modeRead freed (heldMode sets earlier) (sets url).2))

/-- What the report shows for a set that is added to it. -/
def addedPair (earlier : List String) (url : String) : String × String :=
  (String.ofList (listWord (sets url).1),
    String.ofList (listWord ((modeRead freed (heldMode sets earlier) (sets url).2).getD "")))

/-- The set is passed over if and only if its pair occurred before, and it is added under its
own pair. -/
def NotedRightly (earlier : List String) (url : String) : Prop :=
  (PassedOver freed sets earlier url ↔ ∃ v ∈ earlier, pairOf (sets v) = pairOf (sets url)) ∧
    (¬PassedOver freed sets earlier url → addedPair freed sets earlier url = pairOf (sets url))

variable {sets}

/-- A word that was cut to the length of an entry is not cut again. -/
theorem listWord_ofList_listWord (s : String) :
    listWord (String.ofList (listWord s)) = listWord s := by
  unfold listWord
  rw [String.toList_ofList, List.take_take, min_self]

/-- Only the first characters of the entries of a list count. -/
theorem lookupStrList_congr {list list' : List String} (s : String)
    (h : ∀ word, (∃ e ∈ list, listWord e = word) ↔ ∃ e ∈ list', listWord e = word) :
    lookupStrList list s = lookupStrList list' s := by
  have himp : ∀ {l l' : List String}, (∀ word, (∃ e ∈ l, listWord e = word) →
      ∃ e ∈ l', listWord e = word) → lookupStrList l s = true → lookupStrList l' s = true := by
    intro l l' hsub hfound
    obtain ⟨e, he, hmatch⟩ := List.any_eq_true.mp hfound
    obtain ⟨e', he', hword⟩ := hsub (listWord e) ⟨e, he, rfl⟩
    apply List.any_eq_true.mpr
    refine ⟨e', he', ?_⟩
    rw [hword]
    exact hmatch
  rw [Bool.eq_iff_iff]
  exact ⟨himp fun word => (h word).mp, himp fun word => (h word).mpr⟩

/-- The lookup depends on the words of the list only. -/
theorem lookupStrList?_congr {list list' : List String} (s : Option String)
    (h : ∀ word, (∃ e ∈ list, listWord e = word) ↔ ∃ e ∈ list', listWord e = word) :
    lookupStrList? list s = lookupStrList? list' s := by
  cases s with
  | none => rfl
  | some s => exact lookupStrList_congr s h

/-- A further URL is fetched unless it was. -/
theorem fetched_snoc (urls : List String) (url : String) :
    fetched (urls ++ [url]) =
      if lookupStrList (fetched urls) url then fetched urls else fetched urls ++ [url] := by
  unfold fetched
  rw [List.foldl_append]
  rfl

/-- A further URL is noted after those before. -/
theorem listed_snoc (urls : List String) (url : String) :
    listed freed sets (urls ++ [url]) = (listed freed sets urls).noteUrl freed sets url := by
  unfold listed
  rw [List.foldl_append]
  rfl

/-- A list of words as they are stored answers lookups as the list does. -/
theorem lookupStrList_stored (list : List String) (s : String) :
    lookupStrList (list.map fun e => String.ofList (listWord e)) s = lookupStrList list s := by
  apply lookupStrList_congr
  intro word
  simp [listWord_ofList_listWord]

/-- The failed sets that are listed are the URLs that were fetched. -/
theorem listed_failedVs (urls : List String) :
    (listed freed sets urls).failedVs =
      (fetched urls).map fun url => String.ofList (listWord url) := by
  induction urls using List.reverseRecOn with
  | nil => rfl
  | append_singleton urls url ih =>
      rw [listed_snoc, fetched_snoc]
      unfold FailureLists.noteUrl
      rw [ih, lookupStrList_stored]
      by_cases hknown : lookupStrList (fetched urls) url
      · rw [if_pos hknown, if_pos hknown, ih]
      · rw [if_neg hknown, if_neg hknown, note_failedVs, List.map_append]
        rfl

/-- The mode that is held after the URLs. -/
theorem listed_mode (urls : List String) :
    (listed freed sets urls).mode = heldMode sets urls := by
  induction urls using List.reverseRecOn with
  | nil => rfl
  | append_singleton urls url ih =>
      unfold heldMode
      rw [listed_snoc, fetched_snoc]
      unfold FailureLists.noteUrl
      rw [listed_failedVs, lookupStrList_stored]
      by_cases hknown : lookupStrList (fetched urls) url
      · rw [if_pos hknown, if_pos hknown, ih]
        rfl
      · rw [if_neg hknown, if_neg hknown, note_mode, List.filterMap_append]
        dsimp only
        rw [ih]
        unfold heldMode
        cases hmode : (sets url).2 with
        | none => simp [hmode]
        | some m => simp [hmode]

/-- There is a mode for every algorithm. -/
theorem listed_lengths (urls : List String) :
    (listed freed sets urls).failedAlg.length = (listed freed sets urls).failedMode.length := by
  induction urls using List.reverseRecOn with
  | nil => rfl
  | append_singleton urls url ih =>
      rw [listed_snoc]
      unfold FailureLists.noteUrl FailureLists.note
      dsimp only
      split
      · exact ih
      · split
        · exact ih
        · simp [appendStrList, ih]

/-- What is read of the pairs of an exact report is read of the failing sets. -/
theorem ExactReport.mem_map_iff {β : Type} {urls : List String} {report : List (String × String)}
    (h : ExactReport sets urls report) (f : String × String → β) (x : β) :
    x ∈ report.map f ↔ x ∈ urls.map fun v => f (pairOf (sets v)) := by
  simp only [List.mem_map]
  constructor
  · rintro ⟨pair, hpair, rfl⟩
    obtain ⟨url, hurl, rfl⟩ := (h.2 pair).mp hpair
    exact ⟨url, hurl, rfl⟩
  · rintro ⟨url, hurl, rfl⟩
    exact ⟨pairOf (sets url), (h.2 _).mpr ⟨url, hurl, rfl⟩, rfl⟩

/-- The algorithms of an exact report are those of the failing sets. -/
theorem lookup_failedAlg {urls : List String}
    (h : ExactReport sets urls (listed freed sets urls).pairs) (s : String) :
    lookupStrList (listed freed sets urls).failedAlg s =
      lookupStrList (urls.map fun v => (pairOf (sets v)).1) s := by
  have hfst : (listed freed sets urls).pairs.map Prod.fst = (listed freed sets urls).failedAlg :=
    List.map_fst_zip (listed_lengths freed urls).le
  rw [← hfst]
  apply lookupStrList_congr
  intro word
  have hpairs := h.mem_map_iff (fun pair => listWord pair.1) word
  simpa only [List.mem_map, exists_exists_and_eq_and] using hpairs

/-- The modes of an exact report are those of the failing sets. -/
theorem lookup_failedMode {urls : List String}
    (h : ExactReport sets urls (listed freed sets urls).pairs) (s : Option String) :
    lookupStrList? (listed freed sets urls).failedMode s =
      lookupStrList? (urls.map fun v => (pairOf (sets v)).2) s := by
  have hsnd : (listed freed sets urls).pairs.map Prod.snd = (listed freed sets urls).failedMode :=
    List.map_snd_zip (listed_lengths freed urls).ge
  rw [← hsnd]
  apply lookupStrList?_congr
  intro word
  have hpairs := h.mem_map_iff (fun pair => listWord pair.2) word
  simpa only [List.mem_map, exists_exists_and_eq_and] using hpairs

/-- What one more failing set does to a report that is exact so far. -/
theorem pairs_listed_snoc {urls : List String} (url : String)
    (h : ExactReport sets urls (listed freed sets urls).pairs) :
    (PassedOver freed sets urls url ∧
      (listed freed sets (urls ++ [url])).pairs = (listed freed sets urls).pairs) ∨
    (¬PassedOver freed sets urls url ∧
      (listed freed sets (urls ++ [url])).pairs =
        (listed freed sets urls).pairs ++ [addedPair freed sets urls url]) := by
  rw [listed_snoc]
  unfold PassedOver FailureLists.noteUrl FailureLists.note
  rw [listed_failedVs, lookupStrList_stored]
  by_cases hknown : lookupStrList (fetched urls) url
  · rw [if_pos hknown]
    exact .inl ⟨.inl hknown, rfl⟩
  rw [if_neg hknown]
  dsimp only
  rw [listed_mode, lookup_failedAlg freed h, lookup_failedMode freed h]
  by_cases hpair : lookupStrList (urls.map fun v => (pairOf (sets v)).1) (sets url).1 ∧
      lookupStrList? (urls.map fun v => (pairOf (sets v)).2)
        (modeRead freed (heldMode sets urls) (sets url).2)
  · rw [if_pos hpair]
    exact .inl ⟨.inr hpair, rfl⟩
  · rw [if_neg hpair]
    refine .inr ⟨not_or.mpr ⟨hknown, hpair⟩, ?_⟩
    exact List.zip_append (listed_lengths freed urls)

/-- A report that is exact so far stays exact if and only if the next set is noted
rightly. -/
theorem exactReport_snoc_iff {urls : List String} (url : String)
    (h : ExactReport sets urls (listed freed sets urls).pairs) :
    ExactReport sets (urls ++ [url]) (listed freed sets (urls ++ [url])).pairs ↔
      NotedRightly freed sets urls url := by
  unfold NotedRightly
  rcases pairs_listed_snoc freed url h with ⟨hpassed, hpairs⟩ | ⟨hadded, hpairs⟩
  · rw [hpairs]
    constructor
    · intro hexact
      have hmem : pairOf (sets url) ∈ (listed freed sets urls).pairs :=
        (hexact.2 _).mpr ⟨url, by simp, rfl⟩
      exact ⟨⟨fun _ => (h.2 _).mp hmem, fun _ => hpassed⟩, fun hnot => absurd hpassed hnot⟩
    · intro hright
      have hbefore := hright.1.mp hpassed
      refine ⟨h.1, fun pair => ?_⟩
      rw [h.2]
      constructor
      · rintro ⟨v, hv, rfl⟩
        exact ⟨v, by simp [hv], rfl⟩
      · rintro ⟨v, hv, rfl⟩
        rcases List.mem_append.mp hv with hv | hv
        · exact ⟨v, hv, rfl⟩
        · rw [List.mem_singleton.mp hv]
          exact hbefore
  · rw [hpairs]
    constructor
    · intro hexact
      have hfresh : addedPair freed sets urls url ∉ (listed freed sets urls).pairs := by
        have hnodup := List.nodup_append.mp hexact.1
        intro hmem
        exact hnodup.2.2 _ hmem _ (List.mem_singleton.mpr rfl) rfl
      have hown : addedPair freed sets urls url = pairOf (sets url) := by
        obtain ⟨v, hv, hpair⟩ := (hexact.2 (addedPair freed sets urls url)).mp (by simp)
        rcases List.mem_append.mp hv with hv | hv
        · exact absurd ((h.2 _).mpr ⟨v, hv, hpair⟩) hfresh
        · rw [← hpair, List.mem_singleton.mp hv]
      refine ⟨⟨fun hpassed => absurd hpassed hadded, fun hbefore => ?_⟩, fun _ => hown⟩
      rw [hown] at hfresh
      exact absurd ((h.2 _).mpr hbefore) hfresh
    · intro hright
      have hfresh : pairOf (sets url) ∉ (listed freed sets urls).pairs := by
        intro hmem
        exact hadded (hright.1.mpr ((h.2 _).mp hmem))
      rw [hright.2 hadded]
      refine ⟨List.nodup_append.mpr ⟨h.1, List.nodup_singleton _, ?_⟩, fun pair => ?_⟩
      · intro a ha b hb heq
        rw [List.mem_singleton.mp hb] at heq
        exact hfresh (heq ▸ ha)
      · rw [List.mem_append, h.2, List.mem_singleton]
        constructor
        · rintro (⟨v, hv, rfl⟩ | rfl)
          · exact ⟨v, by simp [hv], rfl⟩
          · exact ⟨url, by simp, rfl⟩
        · rintro ⟨v, hv, rfl⟩
          rcases List.mem_append.mp hv with hv | hv
          · exact .inl ⟨v, hv, rfl⟩
          · rw [List.mem_singleton.mp hv]
            exact .inr rfl

/-- The report is exact after every one of the failing sets if and only if each of them is
noted rightly. -/
theorem exactReport_iff_notedRightly (urls : List String) :
    (∀ earlier later, urls = earlier ++ later →
      ExactReport sets earlier (listed freed sets earlier).pairs) ↔
    ∀ earlier url later, urls = earlier ++ url :: later →
      NotedRightly freed sets earlier url := by
  constructor
  · intro hexact earlier url later hsplit
    have hbefore := hexact earlier (url :: later) hsplit
    have hafter := hexact (earlier ++ [url]) later (by simp [hsplit])
    exact (exactReport_snoc_iff freed url hbefore).mp hafter
  · intro hright earlier
    induction earlier using List.reverseRecOn with
    | nil =>
        intro later hsplit
        exact ⟨List.nodup_nil, fun pair => by simp [listed, FailureLists.pairs, FailureLists.empty]⟩
    | append_singleton earlier url ih =>
        intro later hsplit
        have hbefore := ih (url :: later) (by simp [hsplit])
        exact (exactReport_snoc_iff freed url hbefore).mpr
          (hright earlier url later (by simp [hsplit]))

/-! ## The report of a run -/

/-- The URLs of the failing sets of a reply, up to the first that has none. -/
def failingUrls : List Json → List String
  | [] => []
  | entry :: entries =>
    if statusOf entry = some "fail" then
      match setUrlOf entry with
      | none => []
      | some url => url :: failingUrls entries
    else failingUrls entries

/-- The URLs of the failing sets in the reply that this round of the polling loop
receives. -/
def failingAt (sessionUrl : Option String) (w : World) : List String :=
  match resultsReply out sessionUrl w with
  | none => []
  | some obj => failingUrls (resultsOf obj)

variable (sets)

/-- From here on, the set at the URL can be retrieved and has this algorithm and mode. -/
def Serves (w : World) (url : String) : Prop :=
  ∀ w₁, quietFrame.rel w w₁ → ∃ w₂ obj,
    retrieveVectorSet out (snprintf (amvpRequestStrLenMax + 1) url) w₁ = (.success, w₂) ∧
    getObjFromRsp w₂.ctx.curlBuf = some obj ∧
    jsonObjectGetString (some obj) "algorithm" = some (sets url).1 ∧
    jsonObjectGetString (some obj) "mode" = (sets url).2

variable {sets} {out}

/-- A set that did not fail is not among the failing ones. -/
theorem failingUrls_skip {entry : Json} (h : statusOf entry ≠ some "fail") (entries : List Json) :
    failingUrls (entry :: entries) = failingUrls entries := by
  rw [failingUrls, if_neg h]

/-- A scan notes the failing sets of a reply in order. -/
theorem scanListing_lists {w : World} {entries : List Json}
    (hserves : ∀ url ∈ failingUrls entries, Serves out sets w url) {rv rv' : AmvpResult}
    {completed completed' : Nat} {l l' : FailureLists} {w₁ w' : World}
    (hquiet : quietFrame.rel w w₁)
    (h : scanListing freed out entries rv completed l w₁ = (.ok (rv', completed', l'), w')) :
    l' = (failingUrls entries).foldl (FailureLists.noteUrl freed sets) l := by
  induction entries generalizing rv completed l w₁ with
  | nil =>
      have hlists := congrArg Prod.fst h
      exact (congrArg (fun x => x.2.2) (Except.ok.inj hlists)).symm
  | cons entry entries ih =>
      rw [scanListing] at h
      dsimp only at h
      cases hstatus : jsonObjectGetString (jsonValueGetObject (some entry)) "status" with
      | none =>
          rw [hstatus] at h
          cases (Prod.mk.inj h).1
      | some status =>
          rw [hstatus] at h
          dsimp only at h
          by_cases hgone : status = "expired" ∨ status = "unreceived"
          · rw [if_pos hgone] at h
            cases (Prod.mk.inj h).1
          rw [if_neg hgone] at h
          by_cases hfail : status = "fail"
          swap
          · have hskip : statusOf entry ≠ some "fail" := by
              unfold statusOf
              rw [hstatus]
              simpa using hfail
            rw [failingUrls_skip hskip] at hserves ⊢
            by_cases hincomplete : status = "incomplete"
            · rw [if_pos hincomplete] at h
              exact ih hserves hquiet h
            · rw [if_neg hincomplete, if_neg hfail] at h
              exact ih hserves hquiet h
          have hfailing : statusOf entry = some "fail" := by
            unfold statusOf
            rw [hstatus, hfail]
          rw [if_neg (by simp [hfail]), if_pos hfail] at h
          rw [failingUrls, if_pos hfailing] at hserves ⊢
          unfold setUrlOf at hserves ⊢
          cases hurl : jsonObjectGetString (jsonValueGetObject (some entry)) "vectorSetUrl" with
          | none =>
              rw [hurl] at h
              have hlists := congrArg Prod.fst h
              exact (congrArg (fun x => x.2.2) (Except.ok.inj hlists)).symm
          | some url =>
              rw [hurl] at h hserves
              dsimp only at h hserves ⊢
              have hrest : ∀ v ∈ failingUrls entries, Serves out sets w v :=
                fun v hv => hserves v (by simp [hv])
              rw [List.foldl_cons]
              unfold FailureLists.noteUrl
              by_cases hknown : lookupStrList l.failedVs url
              · rw [if_pos hknown] at h ⊢
                exact ih hrest hquiet h
              obtain ⟨w₂, obj, hget, hobj, halg, hmode⟩ := hserves url (by simp) w₁ hquiet
              have hquiet₂ : quietFrame.rel w₁ w₂ := by
                have hkeeps := @quietFrame_retrieveVectorSet out
                  (snprintf (amvpRequestStrLenMax + 1) url) w₁
                rw [hget] at hkeeps
                exact hkeeps
              rw [if_neg hknown, Prog.bind_of_eq hget, getCtx_bind, hobj, halg] at h
              dsimp only at h
              rw [if_pos rfl, hmode] at h
              rw [if_neg hknown]
              exact ih hrest (quietFrame.trans hquiet hquiet₂) h

/-- A round notes the failing sets of its reply. -/
theorem listingRound_listed {w w₁ : World} {sessionUrl : Option String}
    (hserves : ∀ url ∈ failingAt out sessionUrl w₁, Serves out sets w url)
    (hquiet : quietFrame.rel w w₁) (p : ListingPolling) :
    (∀ p', (listingRound freed out sessionUrl p w₁).1 = .inl p' →
      p'.lists = (failingAt out sessionUrl w₁).foldl (FailureLists.noteUrl freed sets) p.lists) ∧
    ∀ rv report, (listingRound freed out sessionUrl p w₁).1 = .inr (rv, some report) →
      report =
        ((failingAt out sessionUrl w₁).foldl (FailureLists.noteUrl freed sets) p.lists).pairs := by
  unfold failingAt resultsReply at hserves ⊢
  obtain ⟨⟨rv₂, w₂⟩, hget⟩ : ∃ q, retrieveVectorSetResult out sessionUrl w₁ = q := ⟨_, rfl⟩
  rw [listingRound, Prog.bind_of_eq hget]
  rw [hget] at hserves ⊢
  by_cases hrv : rv₂ = .success
  swap
  · rw [if_pos hrv]
    simp
  rw [if_neg (not_not.mpr hrv), getCtx_bind]
  rw [if_pos hrv] at hserves ⊢
  cases hobj : getObjFromRsp w₂.ctx.curlBuf with
  | none => simp
  | some obj =>
      rw [hobj] at hserves
      dsimp only at hserves ⊢
      have hquiet₂ : quietFrame.rel w w₂ := by
        have hkeeps := @quietFrame_retrieveVectorSetResult out sessionUrl w₁
        rw [hget] at hkeeps
        exact quietFrame.trans hquiet hkeeps
      unfold resultsOf at hserves ⊢
      obtain ⟨⟨res, w₃⟩, hscan⟩ : ∃ q, scanListing freed out
        (jsonArrayElems (jsonObjectGetArray (some obj) "results")) .success 0 p.lists w₂ = q :=
        ⟨_, rfl⟩
      rw [Prog.bind_of_eq hscan]
      cases res with
      | error rv => simp
      | ok res =>
          obtain ⟨rv, completed, lists⟩ := res
          have hlists := scanListing_lists freed hserves hquiet₂ hscan
          dsimp only
          split
          · refine ⟨fun p' hp' => by simp [Prog.bind_apply] at hp', fun rv' report hreport => ?_⟩
            rw [Prog.bind_apply, Prog.pure_apply] at hreport
            have hpairs := congrArg Prod.snd (Sum.inr.inj hreport)
            dsimp only at hpairs
            split at hpairs
            · cases hpairs
            · rw [← hlists]
              exact (Option.some.inj hpairs).symm
          · cases retryHandler p.interval p.waited 1 with
            | none => simp
            | some next =>
                refine ⟨fun p' hp' => ?_, by simp⟩
                obtain rfl := Sum.inl.inj hp'
                exact hlists

/-- A round that asks for another one is quiet. -/
theorem quiet_of_listingRound_inl {sessionUrl : Option String} {p p' : ListingPolling} {w : World}
    (h : (listingRound freed out sessionUrl p w).1 = .inl p') :
    quietFrame.rel w (listingRound freed out sessionUrl p w).2 := by
  have heq := @resultRound_eq_listing freed out sessionUrl p w
  rw [h] at heq
  obtain ⟨w₁, hquiet, ⟨rv, hround⟩ | ⟨next, -, hround⟩ | ⟨-, hround⟩⟩ :=
    resultRound_cases out sessionUrl p.forget w
  · rw [heq] at hround
    cases (Prod.mk.inj hround).1
  · rw [heq] at hround
    rw [(Prod.mk.inj hround).2]
    exact hquiet
  · rw [heq] at hround
    cases (Prod.mk.inj hround).1

/-- The report of a run lists the failing sets of all its replies in order. -/
theorem report_eq_listed {w w₁ : World} {sessionUrl : Option String} {p : ListingPolling}
    {starts : List (ListingPolling × World)}
    {r : (AmvpResult × Option (List (String × String))) × World}
    (htrace : Prog.Trace (listingRound freed out sessionUrl) p w₁ starts r)
    (hquiet : quietFrame.rel w w₁)
    (hserves : ∀ url ∈ starts.flatMap fun x => failingAt out sessionUrl x.2,
      Serves out sets w url) {report : List (String × String)} (hreport : r.1.2 = some report) :
    report = ((starts.flatMap fun x => failingAt out sessionUrl x.2).foldl
      (FailureLists.noteUrl freed sets) p.lists).pairs := by
  induction htrace with
  | @last p w₁ a hbody =>
      obtain ⟨rv, reported⟩ := a
      dsimp only at hreport
      rw [hreport] at hbody
      simp only [List.flatMap_cons, List.flatMap_nil, List.append_nil] at hserves ⊢
      exact (listingRound_listed freed hserves hquiet p).2 rv report hbody
  | @next p p' w₁ starts r hbody hrest ih =>
      rw [List.flatMap_cons] at hserves
      have hlists := (listingRound_listed freed
        (fun url hurl => hserves url (List.mem_append_left _ hurl)) hquiet p).1 p' hbody
      have hquiet' := quietFrame.trans hquiet (quiet_of_listingRound_inl freed hbody)
      rw [List.flatMap_cons, List.foldl_append, ← hlists]
      exact ih hquiet' (fun url hurl => hserves url (List.mem_append_right _ hurl)) hreport

/-- The report of the polling loop, over all its rounds, is the list of the failing sets as
the code notes them.  It is exact after every one of them if and only if each is noted
rightly; in particular the whole report is then exact. -/
theorem failureReport_exact_iff (sessionUrl : Option String) (w : World)
    (starts : List (ListingPolling × World)) (report : List (String × String))
    (htrace : Prog.Trace (listingRound freed out sessionUrl) ⟨.empty, 0, amvpRetryTime⟩ w starts
      (getResultListing freed out sessionUrl w))
    (hreport : (getResultListing freed out sessionUrl w).1.2 = some report)
    (hserves : ∀ url ∈ starts.flatMap fun x => failingAt out sessionUrl x.2,
      Serves out sets w url) :
    let urls := starts.flatMap fun x => failingAt out sessionUrl x.2
    report = (listed freed sets urls).pairs ∧
      ((∀ earlier later, urls = earlier ++ later →
          ExactReport sets earlier (listed freed sets earlier).pairs) ↔
        ∀ earlier url later, urls = earlier ++ url :: later →
          NotedRightly freed sets earlier url) ∧
      ((∀ earlier url later, urls = earlier ++ url :: later →
          NotedRightly freed sets earlier url) → ExactReport sets urls report) := by
  intro urls
  have hlisted : report = (listed freed sets urls).pairs :=
    report_eq_listed freed htrace (quietFrame.refl w) hserves hreport
  have hiff := @exactReport_iff_notedRightly freed sets urls
  refine ⟨hlisted, hiff, fun hright => ?_⟩
  rw [hlisted]
  exact hiff.mpr hright urls [] (List.append_nil urls).symm

end Report

/-! ## Failing sets without a mode -/

/-- A server with failing sets at these URLs, all of one algorithm without a mode. -/
def failingServer (urls : List String) : List Event → Request → Reply := fun _ req =>
  match req.api with
  | .vectorSetResult _ => ⟨200, some (.arr [.obj [("passed", .bool false), ("results",
      .arr (urls.map fun url => .obj [("vectorSetUrl", .str url), ("status", .str "fail")]))]])⟩
  | _ => ⟨200, some (.arr [.obj [("algorithm", .str "ACVP-AES-GCM")]])⟩

/-- The sets of that server. -/
def gcmSets : String → String × Option String := fun _ => ("ACVP-AES-GCM", none)

/-- The server of the example serves every set. -/
theorem serves_failingServer (urls : List String) (url : String) :
    Serves (.plain (failingServer urls)) gcmSets checkedWorld url := by
  intro w₁ hquiet
  have hsettings : w₁.ctx.settings = checkedWorld.ctx.settings := congrArg Prod.fst hquiet.1
  have hname : w₁.ctx.serverName = some "localhost" := congrArg Ctx.serverName hsettings
  have hport : w₁.ctx.serverPort = 443 := congrArg Ctx.serverPort hsettings
  have hsanity : sanityCheckCtx w₁.ctx = .success := by
    unfold sanityCheckCtx
    rw [hname, hport]
    rfl
  unfold retrieveVectorSet sendTo
  rw [getCtx_bind, if_neg (not_not.mpr hsanity)]
  exact ⟨_, _, rfl, rfl, rfl, rfl⟩

/-- The loop that polls that server ends in its first round. -/
theorem getResultListing_failingServer (urls : List String) (rv : AmvpResult)
    (report : Option (List (String × String)))
    (hround : (listingRound id (.plain (failingServer urls)) checkedWorld.ctx.sessionUrl
      ⟨.empty, 0, amvpRetryTime⟩ checkedWorld).1 = .inr (rv, report)) :
    (getResultListing id (.plain (failingServer urls)) checkedWorld.ctx.sessionUrl
        checkedWorld).1.2 = report ∧
      Prog.Trace (listingRound id (.plain (failingServer urls)) checkedWorld.ctx.sessionUrl)
        ⟨.empty, 0, amvpRetryTime⟩ checkedWorld [(⟨.empty, 0, amvpRetryTime⟩, checkedWorld)]
        (getResultListing id (.plain (failingServer urls)) checkedWorld.ctx.sessionUrl
          checkedWorld) := by
  have hrun : getResultListing id (.plain (failingServer urls)) checkedWorld.ctx.sessionUrl
      checkedWorld = ((rv, report), (listingRound id (.plain (failingServer urls))
        checkedWorld.ctx.sessionUrl ⟨.empty, 0, amvpRetryTime⟩ checkedWorld).2) := by
    rw [getResultListing, Prog.loop_eq, hround]
  rw [hrun]
  exact ⟨rfl, .last hround⟩

/-- One failing set is reported exactly. -/
theorem failureReport_exact_one :
    (getResultListing id (.plain (failingServer ["/vs/1"])) checkedWorld.ctx.sessionUrl
        checkedWorld).1.2 = some [("ACVP-AES-GCM", "")] ∧
      ExactReport gcmSets ["/vs/1"] [("ACVP-AES-GCM", "")] := by
  obtain ⟨hreport, htrace⟩ := getResultListing_failingServer ["/vs/1"] .success
    (some [("ACVP-AES-GCM", "")]) rfl
  have hurls : ([((⟨.empty, 0, amvpRetryTime⟩ : ListingPolling), checkedWorld)].flatMap fun x =>
      failingAt (.plain (failingServer ["/vs/1"])) checkedWorld.ctx.sessionUrl x.2) =
      ["/vs/1"] := rfl
  have hexact := failureReport_exact_iff id _ _ _ _ htrace hreport
    fun url _ => serves_failingServer ["/vs/1"] url
  rw [hurls] at hexact
  refine ⟨hreport, hexact.2.2 ?_⟩
  intro earlier url later hsplit
  have hfirst : earlier = [] := by
    cases earlier with
    | nil => rfl
    | cons e earlier => simp at hsplit
  subst hfirst
  refine ⟨⟨fun hpassed => ?_, fun hbefore => by simp at hbefore⟩, fun _ => ?_⟩
  · rcases hpassed with h | ⟨h, -⟩
    · cases h
    · cases h
  · rw [← (List.cons.inj hsplit).1]
    decide

/-- Two failing sets of one algorithm without a mode are reported twice. -/
theorem failureReport_doubled :
    (∀ url, Serves (.plain (failingServer ["/vs/1", "/vs/2"])) gcmSets checkedWorld url) ∧
    failingAt (.plain (failingServer ["/vs/1", "/vs/2"])) checkedWorld.ctx.sessionUrl
      checkedWorld = ["/vs/1", "/vs/2"] ∧
    (getResultListing id (.plain (failingServer ["/vs/1", "/vs/2"])) checkedWorld.ctx.sessionUrl
      checkedWorld).1.2 = some [("ACVP-AES-GCM", ""), ("ACVP-AES-GCM", "")] ∧
    ¬ExactReport gcmSets ["/vs/1", "/vs/2"] [("ACVP-AES-GCM", ""), ("ACVP-AES-GCM", "")] := by
  have hrun := getResultListing_failingServer ["/vs/1", "/vs/2"] .success
    (some [("ACVP-AES-GCM", ""), ("ACVP-AES-GCM", "")]) rfl
  refine ⟨serves_failingServer _, rfl, hrun.1, ?_⟩
  rintro ⟨hnodup, -⟩
  simp at hnodup

end LibAmvp
