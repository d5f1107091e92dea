import LibAmvp.Session.Run
import LibAmvp.Session.RequestFile

/-!
# Offline processing: request file, response file, upload

A session can be processed in three passes: the first saves the sets to a request
file, the second runs them and writes a response file, the third uploads the
responses.  Each pass reads and writes its own layout of the file.

Main results:

- Theorem {lit}`runVectorsFromFile_writes_nothing`: the second pass never writes the
  response file, because it looks for a response in element 1 of an array of one
  element.
- Theorem {lit}`offline_not_roundTrip`: the three passes never submit the responses.
-/

namespace LibAmvp

open EventLog

section Offline

variable (out : Outside)

/-! ## Running the vectors of a request file -/

/-- The header of the response file, the first time only. -/
def startResponseFile (header : Option Json) (rspFilename : String) (n : Nat) :
    Session AmvpResult :=
  if n = 1 then jsonSerializeToFilePrettyW out header (some rspFilename) else return .success

/-- The loop of {lit}`amvp_run_vectors_from_file` over the sets of the request file, beside
the URLs of the context.  It ends at the first element that is no object, or when
the URLs run out. -/
def runVectorSets (header : Option Json) (rspFilename : String) :
    List Json → List String → Nat → Session AmvpResult
  | .obj obj :: sets, _ :: urls, n => do
    let rv ← dispatchVectorSet out (some obj)
    if rv ≠ .success then
      return rv
    else
      match jsonArrayGetValue (jsonValueGetArray (← getCtx).katResp) 1 with
      | none => return .success
      | some katVal =>
        let rv ← startResponseFile out header rspFilename n
        if rv ≠ .success then
          return rv
        else
          let rv ← jsonSerializeToFilePrettyA out (some katVal) (some rspFilename)
          if rv ≠ .success then
            return rv
          else
            runVectorSets header rspFilename sets urls (n + 1)
  | .obj _ :: _, [], _ => return .success
  | _, _, _ => jsonSerializeToFilePrettyA out none (some rspFilename)

/-- Read the URLs and run the sets of a request file. -/
def runVectorFile (elems : List Json) (obj : JsonObject) (rspFilename : String) :
    Session AmvpResult := do
  let (urls, complete) := urlPrefix (jsonArrayElems (jsonObjectGetArray (some obj) "vectorSetUrls"))
  appendVsidUrls urls
  let ctx ← getCtx
  if complete = false then
    return .success
  else if (jsonArrayGetObject (some elems) 1).isNone ∨ ctx.vsidUrlList = [] then
    return .success
  else
    runVectorSets out elems[0]? rspFilename (elems.drop 1) ctx.vsidUrlList 1

/-- {lit}`amvp_run_vectors_from_file`.  Identifiers that are missing end the function without
an error. -/
def runVectorsFromFile (reqFilename rspFilename : Option String) : Session AmvpResult := do
  let w ← Prog.read
  match reqFilename, rspFilename with
  | some req, some rsp =>
    if amvpJsonFilenameMax < req.length then
      return .invalidArg
    else
      let elems := jsonArrayElems (jsonValueGetArray (jsonParseFile (some req) w))
      match jsonArrayGetObject (some elems) 0 with
      | none => return .success
      | some obj =>
        match jsonObjectGetString (some obj) "url" with
        | none => return .success
        | some url =>
          setSessionUrl url
          match jsonObjectGetString (some obj) "jwt" with
          | none => return .success
          | some jwt =>
            readTokenAndSample obj jwt
            runVectorFile out elems obj rsp
  | _, _ => return .missingArg

/-! ## Uploading a response file -/

/-- The loop of {lit}`amvp_upload_vectors_from_file`: every URL gets the element at its
position; a submission that fails is skipped. -/
def uploadResponses (elems : List Json) : List String → Nat → Session Unit
  | [], _ => return ()
  | url :: urls, n => do
    let vsId := toInt (jsonObjectGetNumber (jsonArrayGetObject (some elems) n) "vsId")
    modifyCtx fun ctx => { ctx with vsId := vsId, katResp := some (singleton elems[n]?) }
    let _ ← submitVectorResponses out url
    modifyCtx fun ctx => { ctx with katResp := none }
    uploadResponses elems urls (n + 1)

/-- What follows the submissions of an upload. -/
def finishUpload (fipsValidation : Bool) : Session AmvpResult := do
  let _ ← checkTestResults out
  let rv ← certReq out
  if rv ≠ .success then
    return rv
  else
    validateStep out fipsValidation

/-- Read the URLs and submit the responses of a response file. -/
def uploadResponseFile (elems : List Json) (obj : JsonObject) (fipsValidation : Bool) :
    Session AmvpResult := do
  let (urls, complete) := urlPrefix (jsonArrayElems (jsonObjectGetArray (some obj) "ieSetsId"))
  appendVsidUrls urls
  let ctx ← getCtx
  if complete = false then
    return .malformedJson
  else if ctx.vsidUrlList = [] then
    return .success
  else
    let rv ← metadataStep out fipsValidation
    if rv ≠ .success then
      return rv
    else
      modifyCtx fun ctx => { ctx with doValidation := fipsValidation }
      uploadResponses out elems ctx.vsidUrlList 1
      finishUpload out fipsValidation

/-- {lit}`amvp_upload_vectors_from_file`. -/
def uploadVectorsFromFile (rspFilename : Option String) (fipsValidation : Bool) :
    Session AmvpResult := do
  let w ← Prog.read
  match rspFilename with
  | none => return .missingArg
  | some rsp =>
    if amvpJsonFilenameMax < rsp.length then
      return .invalidArg
    else
      let elems := jsonArrayElems (jsonValueGetArray (jsonParseFile (some rsp) w))
      match jsonArrayGetObject (some elems) 0 with
      | none => return .malformedJson
      | some obj =>
        match jsonObjectGetString (some obj) "url" with
        | none => return .malformedJson
        | some url =>
          setSessionUrl url
          match jsonObjectGetString (some obj) "jwt" with
          | none => return .malformedJson
          | some jwt =>
            readTokenAndSample obj jwt
            uploadResponseFile out elems obj fipsValidation

end Offline

/-! ## The second pass writes nothing -/

variable {out : Outside}

/-- The frame of the parts that write no file. -/
def filesFrame : Frame World := Frame.same World.files

/-- Every handler that is called succeeds with a response. -/
def Outside.HandlersSucceed (out : Outside) : Prop :=
  ∀ alg mode handler obj, out.katHandler alg mode = some handler → ∃ r, handler obj = .response r

/-- A set is processed without writing a file, and a success leaves one response. -/
theorem dispatchVectorSet_spec (hhandlers : out.HandlersSucceed) (obj : Option JsonObject)
    (w : World) :
    (dispatchVectorSet out obj w).2.files = w.files ∧
      ((dispatchVectorSet out obj w).1 = .success →
        ∃ r, (dispatchVectorSet out obj w).2.ctx.katResp = some (.arr [r])) := by
  rw [dispatchVectorSet, modifyCtx_bind]
  cases jsonObjectGetString obj "algorithm" with
  | none => exact ⟨rfl, fun h => by cases h⟩
  | some alg =>
      dsimp only
      cases hhandler : out.katHandler alg (jsonObjectGetString obj "mode") with
      | none => exact ⟨rfl, fun h => by cases h⟩
      | some handler =>
          obtain ⟨r, hr⟩ := hhandlers _ _ _ (obj.getD []) hhandler
          dsimp only
          rw [hr]
          exact ⟨rfl, fun _ => ⟨r, rfl⟩⟩

/-- The loop ends at its first set: the one response of a handler is element 0 of its
array, and element 1 is looked for. -/
theorem runVectorSets_files (hhandlers : out.HandlersSucceed) (header : Option Json)
    (rspFilename : String) (obj : JsonObject) (sets : List Json) (urls : List String) (n : Nat)
    (w : World) :
    (runVectorSets out header rspFilename (.obj obj :: sets) urls n w).2.files = w.files := by
  cases urls with
  | nil => rfl
  | cons url urls =>
      obtain ⟨hfiles, hresp⟩ := dispatchVectorSet_spec hhandlers (some obj) w
      obtain ⟨⟨rv, w₁⟩, hdispatch⟩ : ∃ p, dispatchVectorSet out (some obj) w = p := ⟨_, rfl⟩
      rw [hdispatch] at hfiles hresp
      rw [runVectorSets, Prog.bind_of_eq hdispatch]
      by_cases hrv : rv = .success
      · obtain ⟨r, hr⟩ := hresp hrv
        dsimp only at hr
        rw [if_neg (not_not.mpr hrv), getCtx_bind, hr]
        exact hfiles
      · rw [if_pos hrv]
        exact hfiles

/-- Running the vectors of a file writes no file. -/
theorem filesFrame_runVectorFile (hhandlers : out.HandlersSucceed) (elems : List Json)
    (obj : JsonObject) (rspFilename : String) :
    filesFrame.Keeps (runVectorFile out elems obj rspFilename) := by
  refine .bind (fun _ => rfl) fun _ => .bind (fun _ => rfl) fun ctx => ?_
  refine .ite (.pure _) ?_
  split
  · exact .pure _
  · next hset =>
    -- the guard in front of the loop has found an object behind the header
    obtain ⟨hset, -⟩ := not_or.mp hset
    match elems with
    | [] => simp [jsonArrayGetObject, jsonArrayGetValue, jsonValueGetObject] at hset
    | [e] => simp [jsonArrayGetObject, jsonArrayGetValue, jsonValueGetObject] at hset
    | header :: .obj members :: sets =>
        exact fun w => runVectorSets_files hhandlers _ _ members sets _ 1 w
    | header :: .null :: sets | header :: .bool _ :: sets | header :: .num _ :: sets
    | header :: .str _ :: sets | header :: .arr _ :: sets =>
        simp [jsonArrayGetObject, jsonArrayGetValue, jsonValueGetObject] at hset

/-- The second pass never writes the response file. -/
theorem runVectorsFromFile_writes_nothing (hhandlers : out.HandlersSucceed)
    (reqFilename rspFilename : Option String) :
    filesFrame.Keeps (runVectorsFromFile out reqFilename rspFilename) := by
  refine .bind .read fun w => ?_
  split
  · refine .ite (.pure _) ?_
    dsimp only
    split
    · exact .pure _
    · split
      · exact .pure _
      · refine .bind (fun _ => rfl) fun _ => ?_
        split
        · exact .pure _
        · exact .bind (fun _ => rfl) fun _ => filesFrame_runVectorFile hhandlers _ _ _
  · exact .pure _

/-! ## The first pass writes the request file only -/

/-- The frame of the parts that write the request file only. -/
def requestFileFrame : Frame World where
  rel a b := b.ctx.vectorReqFile = a.ctx.vectorReqFile ∧
    ∀ f, a.ctx.vectorReqFile ≠ some f → b.files f = a.files f
  refl _ := ⟨rfl, fun _ _ => rfl⟩
  trans := by
    rintro a b c ⟨hreq, hfiles⟩ ⟨hreq', hfiles'⟩
    refine ⟨hreq'.trans hreq, fun f hf => ?_⟩
    rw [hfiles' f (by rwa [hreq]), hfiles f hf]

/-- A request to the server leaves the request file alone. -/
theorem requestFileFrame_of_netFrame {api : Api} {w w' : World} (h : (netFrame api).rel w w') :
    requestFileFrame.rel w w' := by
  obtain ⟨hctx, hfiles, -⟩ := h
  exact ⟨by rw [hctx], fun f _ => by rw [hfiles]⟩

/-- Changing the file that is named leaves the others alone. -/
theorem requestFileFrame_update {w : World} {f : String} (hreq : w.ctx.vectorReqFile = some f)
    (text : Option Json.Text) :
    requestFileFrame.rel w { w with files := Function.update w.files f text } := by
  refine ⟨rfl, fun g hg => Function.update_of_ne ?_ _ _⟩
  rintro rfl
  exact hg hreq

/-- Appending to the request file touches no other. -/
theorem requestFileFrame_jsonSerializeToFilePrettyA (value : Option Json) (w : World) :
    requestFileFrame.rel w
      (jsonSerializeToFilePrettyA out value w.ctx.vectorReqFile w).2 := by
  cases hreq : w.ctx.vectorReqFile with
  | none => exact requestFileFrame.refl w
  | some f =>
      rw [jsonSerializeToFilePrettyA, Prog.ite_apply]
      by_cases hwrite : out.writable f = true
      · rw [if_pos hwrite]
        exact requestFileFrame_update hreq _
      · rw [if_neg hwrite]
        exact requestFileFrame.refl w

/-- Starting the request file touches no other. -/
theorem requestFileFrame_startRequestFile (kind : SetKind) (count : Nat) :
    requestFileFrame.Keeps (startRequestFile out kind count) := by
  intro w
  rw [startRequestFile, getCtx_bind, Prog.ite_apply]
  split
  · cases hreq : w.ctx.vectorReqFile with
    | none => exact requestFileFrame.refl w
    | some f =>
        rw [jsonSerializeToFilePrettyW, Prog.ite_apply]
        by_cases hwrite : out.writable f = true
        · rw [if_pos hwrite]
          exact requestFileFrame_update hreq _
        · rw [if_neg hwrite]
          exact requestFileFrame.refl w
  · exact requestFileFrame.refl w

/-- Nor does processing a set. -/
theorem requestFileFrame_dispatchVectorSet (obj : Option JsonObject) :
    requestFileFrame.Keeps (dispatchVectorSet out obj) := by
  have hmodify : ∀ f : Ctx → Ctx, (∀ ctx, (f ctx).vectorReqFile = ctx.vectorReqFile) →
      requestFileFrame.Keeps (modifyCtx f) := fun f hf w => ⟨hf w.ctx, fun _ _ => rfl⟩
  exact keeps_dispatchVectorSet (fun _ => hmodify _ fun _ => rfl) (fun _ => hmodify _ fun _ => rfl)
    obj

/-- Nor does reading the context. -/
theorem requestFileFrame_getCtx : requestFileFrame.Keeps getCtx :=
  fun w => requestFileFrame.refl w

/-- Nor does logging an event. -/
theorem requestFileFrame_mark (e : Event) : requestFileFrame.Keeps (mark e) :=
  fun _ => ⟨rfl, fun _ _ => rfl⟩

/-- Nor does accepting a set. -/
theorem requestFileFrame_acceptSet (vsidUrl : String) (count : Nat) (val : Json) :
    requestFileFrame.Keeps (acceptSet out (vsidKind out) vsidUrl count val) := by
  refine .bind (requestFileFrame_mark _) fun _ => .bind requestFileFrame_getCtx fun ctx => ?_
  refine .ite ?_ ?_
  · refine .bind (requestFileFrame_startRequestFile _ _) fun rv => .ite (.pure _) fun w => ?_
    rw [getCtx_bind]
    exact requestFileFrame_jsonSerializeToFilePrettyA _ w
  · refine .bind (requestFileFrame_dispatchVectorSet _) fun rv => .ite (.pure _) ?_
    refine .bind requestFileFrame_getCtx fun ctx => .bind (requestFileFrame_mark _) fun _ w => ?_
    exact requestFileFrame_of_netFrame (netFrame_sendTo _ _ _ _ _ _ w)

/-- Nor does polling for one. -/
theorem requestFileFrame_processVsid (vsidUrl : String) (count : Nat) :
    requestFileFrame.Keeps (processVsid out vsidUrl count) := by
  intro w
  obtain ⟨w₁, hnet, ⟨rv, -, h⟩ | ⟨val, -, h⟩⟩ :=
    processSet_cases out (vsidKind out) vsidUrl count w
  · rw [processVsid, h]
    exact requestFileFrame_of_netFrame hnet
  · rw [processVsid, h]
    exact requestFileFrame.trans (requestFileFrame_of_netFrame hnet)
      (requestFileFrame_acceptSet vsidUrl count val w₁)

/-- The first pass writes no file but the request file. -/
theorem requestFileFrame_processTests : requestFileFrame.Keeps (processTests out) := by
  have hurls : ∀ urls count, requestFileFrame.Keeps (processUrls (processVsid out) urls count) := by
    intro urls
    induction urls with
    | nil => exact fun _ => .pure _
    | cons url urls ih =>
        exact fun count => .bind (requestFileFrame_processVsid url count) fun rv =>
          .ite (.pure _) (ih (count + 1))
  refine .bind requestFileFrame_getCtx fun ctx => .ite (.pure _) ?_
  refine .bind (hurls _ _) fun rv => .ite (.pure _) fun w => ?_
  rw [getCtx_bind, Prog.ite_apply]
  split
  · exact requestFileFrame_jsonSerializeToFilePrettyA none w
  · exact requestFileFrame.refl w

/-! ## The round trip -/

/-- The submissions of a log, each with the response array of the call. -/
def submissions (evs : List Event) : List (String × Option Json) :=
  evs.filterMap fun
    | .submit url katResp => some (url, katResp)
    | _ => none

/-- The response a handler produces for the set of a body, in the element that is
processed online. -/
def handlerResponse (out : Outside) (body : Json) : Option Json :=
  let obj := getObjFromRsp (some body)
  match (jsonObjectGetString obj "algorithm").bind fun alg =>
      out.katHandler alg (jsonObjectGetString obj "mode") with
  | none => none
  | some handler =>
    match handler (obj.getD []) with
    | .response r => some r
    | .failure _ _ => none

/-- Online processing of a set whose handler has a response leaves that response. -/
theorem dispatchVectorSet_response {body r : Json} (h : handlerResponse out body = some r)
    (w : World) :
    (dispatchVectorSet out (getObjFromRsp (some body)) w).1 = .success ∧
      (dispatchVectorSet out (getObjFromRsp (some body)) w).2.ctx.katResp = some (.arr [r]) := by
  rw [handlerResponse] at h
  rw [dispatchVectorSet, modifyCtx_bind]
  cases halg : jsonObjectGetString (getObjFromRsp (some body)) "algorithm" with
  | none => simp [halg] at h
  | some alg =>
      dsimp only
      cases hhandler : out.katHandler alg
          (jsonObjectGetString (getObjFromRsp (some body)) "mode") with
      | none => simp [halg, hhandler] at h
      | some handler =>
          cases hrun : handler ((getObjFromRsp (some body)).getD []) with
          | response r' =>
              obtain rfl : r' = r := by simpa [halg, hhandler, hrun] using h
              exact ⟨by simp [hrun], by simp [hrun]⟩
          | failure rv installed => simp [halg, hhandler, hrun] at h

/-- The three passes of a session that is processed offline.  Each has its own outside;
the second and the third start with the context of the pass before or with another
one. -/
structure OfflineRun where
  first : Outside
  second : Outside
  third : Outside
  secondCtx : Ctx → Ctx
  thirdCtx : Ctx → Ctx
  rspFilename : String
  fipsValidation : Bool

namespace OfflineRun

variable (run : OfflineRun) (w : World)

/-- After {lit}`amvp_process_tests`. -/
def saved : World := (processTests run.first w).2

/-- After {lit}`amvp_run_vectors_from_file`. -/
def processed : World :=
  (runVectorsFromFile run.second w.ctx.vectorReqFile (some run.rspFilename)
    { run.saved w with ctx := run.secondCtx (run.saved w).ctx }).2

/-- After {lit}`amvp_upload_vectors_from_file`. -/
def uploaded : World :=
  (uploadVectorsFromFile run.third (some run.rspFilename) run.fipsValidation
    { run.processed w with ctx := run.thirdCtx (run.processed w).ctx }).2

/-- The last pass submits, for every URL in order, the response the handler produced for
the set retrieved from it. -/
def Submits : Prop :=
  ∃ bodies, bodies.length = w.ctx.vsidUrlList.length ∧
    accepted (since w.log (run.saved w).log) = w.ctx.vsidUrlList.zip bodies ∧
    submissions (since (run.processed w).log (run.uploaded w).log) =
      w.ctx.vsidUrlList.zip
        (bodies.map fun body => (handlerResponse run.second body).map fun r => .arr [r])

/-- The round trip, whatever a file under the name of the response file held before. -/
def RoundTrip : Prop :=
  ∀ old, run.Submits { w with files := Function.update w.files run.rspFilename old }

end OfflineRun

/-- Nothing is uploaded from a response file that is not there. -/
theorem uploadVectorsFromFile_of_missing (rsp : String) (fipsValidation : Bool) {w : World}
    (hmissing : w.files rsp = none) :
    (uploadVectorsFromFile out (some rsp) fipsValidation w).2 = w := by
  rw [uploadVectorsFromFile, Prog.read_bind_apply]
  dsimp only
  rw [Prog.ite_apply]
  split
  · rfl
  · simp [jsonParseFile, hmissing, jsonArrayElems, jsonValueGetArray, jsonArrayGetObject,
      jsonArrayGetValue, jsonValueGetObject]

namespace OfflineRun

variable {run : OfflineRun} {w : World}

/-- The first two passes leave the response file as it was. -/
theorem processed_files (hhandlers : run.second.HandlersSucceed)
    (hrsp : w.ctx.vectorReqFile ≠ some run.rspFilename) :
    (run.processed w).files run.rspFilename = w.files run.rspFilename := by
  have hfirst := (@requestFileFrame_processTests run.first w).2 run.rspFilename hrsp
  have hsecond : (run.processed w).files = (run.saved w).files :=
    runVectorsFromFile_writes_nothing hhandlers w.ctx.vectorReqFile (some run.rspFilename)
      { run.saved w with ctx := run.secondCtx (run.saved w).ctx }
  rw [hsecond]
  exact hfirst

/-- Without a response file nothing is submitted. -/
theorem not_submits (hurls : w.ctx.vsidUrlList ≠ []) (hhandlers : run.second.HandlersSucceed)
    (hrsp : w.ctx.vectorReqFile ≠ some run.rspFilename)
    (hmissing : w.files run.rspFilename = none) : ¬ run.Submits w := by
  rintro ⟨bodies, hlength, -, hsubmit⟩
  have hmissing' := (processed_files hhandlers hrsp).trans hmissing
  have hsame : run.uploaded w =
      { run.processed w with ctx := run.thirdCtx (run.processed w).ctx } :=
    uploadVectorsFromFile_of_missing run.rspFilename run.fipsValidation hmissing'
  have hlog : (run.uploaded w).log = (run.processed w).log := by
    rw [hsame]
  rw [hlog, since_self] at hsubmit
  have hcount := congrArg List.length hsubmit
  have hnil : w.ctx.vsidUrlList.length = 0 := by
    simpa [submissions, hlength] using hcount.symm
  exact hurls (List.length_eq_zero_iff.mp hnil)

/-- So no run is a round trip. -/
theorem not_roundTrip (hurls : w.ctx.vsidUrlList ≠ []) (hhandlers : run.second.HandlersSucceed)
    (hrsp : w.ctx.vectorReqFile ≠ some run.rspFilename) : ¬ run.RoundTrip w := by
  intro htrip
  have hnot : ¬ run.Submits
      { w with files := Function.update w.files run.rspFilename none } :=
    not_submits hurls hhandlers hrsp (Function.update_self _ _ _)
  exact hnot (htrip none)

end OfflineRun

/-- The three passes never make the round trip: whichever URLs a session has, whatever
the server sends and the handlers answer, the response file stays as it was and the
responses are not submitted. -/
theorem offline_not_roundTrip (run : OfflineRun) (w : World) (hurls : w.ctx.vsidUrlList ≠ [])
    (hhandlers : run.second.HandlersSucceed)
    (hrsp : w.ctx.vectorReqFile ≠ some run.rspFilename) :
    (run.processed w).files run.rspFilename = w.files run.rspFilename ∧ ¬ run.RoundTrip w :=
  ⟨OfflineRun.processed_files hhandlers hrsp, OfflineRun.not_roundTrip hurls hhandlers hrsp⟩

/-! ## One set that is lost -/

/-- The set of the example: both elements of a body carry it. -/
def lostSet : Json := .obj [("vsId", .num 1), ("algorithm", .str "SHA2-256")]

/-- An outside whose bodies carry the set and whose handlers answer. -/
def answeringOutside : Outside :=
  { Outside.plain fun _ _ => ⟨200, some (.arr [lostSet, lostSet])⟩ with
    katHandler := fun _ _ => some fun _ => .response (.obj [("vsId", .num 1)]) }

/-- Three passes in three processes with fresh contexts. -/
def lostRun : OfflineRun where
  first := answeringOutside
  second := answeringOutside
  third := answeringOutside
  secondCtx := fun _ => World.start.ctx
  thirdCtx := fun _ => World.start.ctx
  rspFilename := "rsp.json"
  fipsValidation := false

/-- A context that saves one set, with the token of a login. -/
def lostWorld : World :=
  { savingWorld "/vs/1" with ctx := { (savingWorld "/vs/1").ctx with jwtToken := some "token" } }

/-- The handlers of the example succeed. -/
theorem answeringOutside_handlersSucceed : answeringOutside.HandlersSucceed := by
  intro alg mode handler obj h
  obtain rfl := Option.some.inj h
  exact ⟨_, rfl⟩

/-- The passes on one set, whose request file is well formed. -/
theorem offline_not_roundTrip_one_set :
    (lostRun.processed lostWorld).files "rsp.json" = none ∧ ¬ lostRun.RoundTrip lostWorld :=
  offline_not_roundTrip lostRun lostWorld (by decide) answeringOutside_handlersSucceed (by decide)

/-- The set is retrieved and saved well, its handler succeeds, the second pass reports
success, and the third submits nothing. -/
theorem offline_responses_lost :
    (∃ w', processTests lostRun.first lostWorld = (.success, w') ∧
      accepted (since lostWorld.log w'.log) = [("/vs/1", .arr [lostSet, lostSet])] ∧
      RequestFileWellFormed "vectorSetUrls" lostWorld w' ∧
      (runVectorsFromFile lostRun.second (some "req.json") (some "rsp.json")
        { w' with ctx := World.start.ctx }).1 = .success) ∧
    lostRun.second.HandlersSucceed ∧ ¬ lostRun.RoundTrip lostWorld := by
  have hrun : processTests lostRun.first lostWorld =
      (.success, (processTests lostRun.first lostWorld).2) := rfl
  have hacc : accepted (since lostWorld.log (processTests lostRun.first lostWorld).2.log) =
      [("/vs/1", .arr [lostSet, lostSet])] := rfl
  refine ⟨⟨_, hrun, hacc, ?_, rfl⟩, answeringOutside_handlersSucceed,
    OfflineRun.not_roundTrip (by decide) answeringOutside_handlersSucceed (by decide)⟩
  refine (processAll_wellFormed_iff (vsidKind lostRun.first) rfl hrun).mpr ⟨by decide, ?_⟩
  rw [hacc]
  intro x hx
  obtain rfl := List.mem_singleton.mp hx
  exact ⟨lostSet, rfl, rfl⟩

end LibAmvp
