import LibAmvp.Session.Run

/-!
# The result of a run and the results of its stages

A run that reports success should have seen every stage succeed.  Most of the state
machine keeps this: a stage that fails ends the run with its error.  Three places
overwrite the shared result: saving the reply to a GET or a DELETE, the series of
resource POSTs, and the jump to the results check after a certificate request.

Main results:

- Theorem {lit}`run_faithful_iff`: the run reports success only if all its stages did,
  exactly when none of the overwriting places hides a failure.
-/

namespace LibAmvp

open EventLog

/-! ## The stages of a run -/

/-- The stages that ended in these events, with their results. -/
def stagesOf (evs : List Event) : List (Stage × AmvpResult) :=
  evs.filterMap fun
    | .stage s rv => some (s, rv)
    | _ => none

/-- The stages of two parts of a log, one after the other. -/
@[simp]
theorem stagesOf_append (evs evs' : List Event) :
    stagesOf (evs ++ evs') = stagesOf evs ++ stagesOf evs' := by
  simp [stagesOf]

/-- Inside a stage no stage ends. -/
theorem stagesOf_of_work {evs : List Event} (h : ∀ e ∈ evs, e.Work) : stagesOf evs = [] := by
  rw [stagesOf, List.filterMap_eq_nil_iff]
  intro e he
  cases e with
  | stage s rv => exact (h _ he).elim
  | _ => rfl

/-- Between the two states exactly these stages ended. -/
def Staged (w : World) (xs : List (Stage × AmvpResult)) (w' : World) : Prop :=
  ∃ evs, w'.log = w.log ++ evs ∧ stagesOf evs = xs

/-- The stages of two parts, one after the other. -/
theorem Staged.trans {w₁ w₂ w₃ : World} {xs ys : List (Stage × AmvpResult)}
    (h : Staged w₁ xs w₂) (h' : Staged w₂ ys w₃) : Staged w₁ (xs ++ ys) w₃ := by
  obtain ⟨evs, hlog, rfl⟩ := h
  obtain ⟨evs', hlog', rfl⟩ := h'
  exact ⟨evs ++ evs', by simp [hlog', hlog], by simp⟩

/-- A part of a stage ends no stage. -/
theorem Staged.of_work {w w' : World} (h : workFrame.rel w w') : Staged w [] w' := by
  obtain ⟨-, evs, hlog, hevs⟩ := h
  exact ⟨evs, hlog, stagesOf_of_work hevs⟩

/-- The stages that ended are those of the log. -/
theorem Staged.eq {w w' : World} {xs : List (Stage × AmvpResult)} (h : Staged w xs w') :
    stagesOf (since w.log w'.log) = xs := by
  obtain ⟨evs, hlog, rfl⟩ := h
  rw [hlog, since_append]

/-- A stage whose work is inside the frame ends exactly once. -/
theorem staged_stage {m : Session AmvpResult} (hm : workFrame.Keeps m) (s : Stage) (w : World) :
    Staged w [(s, (stage s m w).1)] (stage s m w).2 := by
  have hwork := Staged.of_work (hm w)
  have hmark : Staged (m w).2 [(s, (m w).1)] (stage s m w).2 :=
    ⟨[.stage s (m w).1], rfl, rfl⟩
  exact hwork.trans hmark

/-- From this state, the program reports success only if every stage it executed
returned success. -/
def FaithfulAt (m : Session AmvpResult) (w : World) : Prop :=
  (m w).1 = .success →
    ∀ x ∈ stagesOf (since w.log (m w).2.log), x.2 = .success

/-- A program whose log only grows. -/
def Grows {α : Type} (m : Session α) (w : World) : Prop :=
  ∃ xs, Staged w xs (m w).2

/-! ## Rules -/

section Rules

variable {α : Type} {m : Session α} {f : α → Session AmvpResult} {w w₁ : World} {a : α}
  {xs : List (Stage × AmvpResult)}

/-- After stages that all succeeded, the rest decides. -/
theorem faithfulAt_bind_iff (hm : m w = (a, w₁)) (hxs : Staged w xs w₁)
    (hsuccess : ∀ x ∈ xs, x.2 = .success) (hf : Grows (f a) w₁) :
    FaithfulAt (m >>= f) w ↔ FaithfulAt (f a) w₁ := by
  obtain ⟨ys, hys⟩ := hf
  rw [FaithfulAt, FaithfulAt, Prog.bind_of_eq hm, (hxs.trans hys).eq, hys.eq]
  refine imp_congr_right fun _ => ?_
  rw [List.forall_mem_append]
  exact and_iff_right hsuccess

/-- After a stage that failed, the rest must not report success. -/
theorem faithfulAt_bind_iff_of_failure (hm : m w = (a, w₁)) (hxs : Staged w xs w₁)
    (hfailure : ∃ x ∈ xs, x.2 ≠ .success) (hf : Grows (f a) w₁) :
    FaithfulAt (m >>= f) w ↔ (f a w₁).1 ≠ .success := by
  obtain ⟨ys, hys⟩ := hf
  obtain ⟨x, hx, hne⟩ := hfailure
  rw [FaithfulAt, Prog.bind_of_eq hm, (hxs.trans hys).eq]
  constructor
  · intro h hsuccess
    exact hne (h hsuccess x (List.mem_append_left _ hx))
  · intro h hsuccess
    exact absurd hsuccess h

end Rules

/-- A program that is faithful from every state, and whose log only grows. -/
def Faithful (m : Session AmvpResult) : Prop := ∀ w, Grows m w ∧ FaithfulAt m w

/-- A part without stages is faithful. -/
theorem Faithful.of_work {m : Session AmvpResult} (hm : workFrame.Keeps m) : Faithful m := by
  intro w
  have hstaged := Staged.of_work (hm w)
  exact ⟨⟨_, hstaged⟩, fun _ => by rw [hstaged.eq]; simp⟩

/-- A single stage reports its own result. -/
theorem Faithful.stage {m : Session AmvpResult} (hm : workFrame.Keeps m) (s : Stage) :
    Faithful (stage s m) := by
  intro w
  have hstaged := staged_stage hm s w
  refine ⟨⟨_, hstaged⟩, fun hsuccess => ?_⟩
  rw [hstaged.eq]
  simpa using hsuccess

/-- So does a result without a stage. -/
theorem Faithful.pure (rv : AmvpResult) : Faithful (Pure.pure rv) :=
  .of_work (.pure rv)

/-- Work that ends no stage may come first. -/
theorem Faithful.bind_work {α : Type} {m : Session α} {f : α → Session AmvpResult}
    (hm : workFrame.Keeps m) (hf : ∀ a, Faithful (f a)) : Faithful (m >>= f) := by
  intro w
  obtain ⟨⟨a, w₁⟩, hrun⟩ : ∃ p, m w = p := ⟨_, rfl⟩
  have hstaged := Staged.of_work (hm w)
  rw [hrun] at hstaged
  obtain ⟨⟨ys, hys⟩, hfaithful⟩ := hf a w₁
  refine ⟨⟨[] ++ ys, ?_⟩, (faithfulAt_bind_iff hrun hstaged (by simp) ⟨ys, hys⟩).mpr hfaithful⟩
  rw [Prog.bind_of_eq hrun]
  exact hstaged.trans hys

/-- A program that stops with an error when its first part fails. -/
theorem Faithful.andThen {m : Session AmvpResult} {n : AmvpResult → Session AmvpResult}
    (err : AmvpResult → AmvpResult) (herr : ∀ rv, rv ≠ .success → err rv ≠ .success)
    (hm : Faithful m) (hn : Faithful (n .success)) :
    Faithful (m >>= fun rv => if rv ≠ .success then Pure.pure (err rv) else n rv) := by
  intro w
  obtain ⟨⟨rv, w₁⟩, hrun⟩ : ∃ p, m w = p := ⟨_, rfl⟩
  obtain ⟨⟨xs, hxs⟩, hfaithful⟩ := hm w
  rw [FaithfulAt, hxs.eq] at hfaithful
  rw [hrun] at hxs hfaithful
  by_cases hrv : rv = .success
  · subst hrv
    have hrest : Grows (if AmvpResult.success ≠ .success then Pure.pure (err .success)
          else n .success) w₁ ∧
        FaithfulAt (if AmvpResult.success ≠ .success then Pure.pure (err .success)
          else n .success) w₁ := by
      rw [if_neg (by simp)]
      exact hn w₁
    obtain ⟨⟨ys, hys⟩, hfaithful'⟩ := hrest
    refine ⟨⟨xs ++ ys, ?_⟩, (faithfulAt_bind_iff
      (f := fun rv => if rv ≠ .success then Pure.pure (err rv) else n rv) hrun hxs
      (hfaithful rfl) ⟨ys, hys⟩).mpr hfaithful'⟩
    rw [Prog.bind_of_eq hrun]
    exact hxs.trans hys
  · have hend : (m >>= fun rv => if rv ≠ .success then Pure.pure (err rv) else n rv) w =
        (err rv, w₁) := by
      rw [Prog.bind_of_eq hrun, if_pos hrv]
      rfl
    refine ⟨⟨xs, ?_⟩, fun hsuccess => ?_⟩
    · rw [hend]
      exact hxs
    · rw [hend] at hsuccess
      exact absurd hsuccess (herr rv hrv)

/-- A test of two faithful parts is faithful. -/
theorem Faithful.ite {c : Prop} [Decidable c] {m n : Session AmvpResult} (hm : Faithful m)
    (hn : Faithful n) : Faithful (if c then m else n) := by
  split
  · exact hm
  · exact hn

/-! ## The faithful part of the state machine -/

variable (out : Outside)

/-- The login reports its own result. -/
theorem faithful_loginStage : Faithful (loginStage out) :=
  .ite (.pure _) (.stage (work_of_quiet (quietFrame_login false)) .login)

/-- So does the validation. -/
theorem faithful_validateStage (fipsValidation : Bool) :
    Faithful (validateStage out fipsValidation) :=
  .ite (.stage workFrame_validateTestSession .validate) (.pure _)

/-- Checking the results and then validating reports the first failure. -/
theorem faithful_runCheck (fipsValidation : Bool) : Faithful (runCheck out fipsValidation) := by
  refine .bind_work frameOf_getCtx fun ctx => .ite (.pure _) ?_
  refine .andThen (fun rv => rv) (fun _ h => h) (.stage workFrame_checkTestResults .checkResults) ?_
  refine .bind_work frameOf_getCtx fun ctx => .ite (.stage workFrame_certReq .certReq) ?_
  refine .andThen (fun rv => rv) (fun _ h => h) (faithful_validateStage out fipsValidation) ?_
  refine .bind_work frameOf_getCtx fun ctx => .ite ?_ (.pure _)
  exact .stage (work_of_quiet quietFrame_putDataFromCtx) .putData

/-- Writing the session file is part of a stage. -/
theorem workFrame_sessionInfoStep : workFrame.Keeps (sessionInfoStep out) :=
  .bind frameOf_getCtx fun _ =>
    .ite (.pure _) (.bind (work_of_quiet quietFrame_writeSessionInfo) fun _ => .pure _)

/-- A session from the login on reports the first failure. -/
theorem faithful_runSession (fipsValidation : Bool) :
    Faithful (runSession out fipsValidation) := by
  refine .andThen (fun _ => .unsupportedOp) (by simp) ?_ ?_
  · exact .ite (.stage (work_of_quiet quietFrame_verifyFipsValidationMetadata) .verifyMetadata)
      (.pure _)
  · refine .bind_work (frameOf_modifyCtx fun _ => rfl) fun _ => ?_
    refine .andThen (fun rv => rv) (fun _ h => h)
      (.stage (work_of_open openFrame_register) .register) ?_
    refine .bind_work (workFrame_sessionInfoStep out) fun _ => ?_
    exact .andThen (fun rv => rv) (fun _ h => h)
      (.stage (work_of_quiet quietFrame_processTests) .processTests)
      (faithful_runCheck out fipsValidation)

/-! ## Places that overwrite a result -/

/-- The request fails, but its reply (or an older one) is saved to a file, and the result
of the file operations takes its place. -/
def HiddenBySaving (s : Stage) (m : Session AmvpResult) (w : World) : Prop :=
  (stage s m w).1 ≠ .success ∧
  ∃ f val, (stage s m w).2.ctx.saveFilename = some f ∧
    (stage s m w).2.ctx.curlBuf = some val ∧ out.writable f = true

/-- The POST of the lab or of the vendor fails, but that of the module succeeds. -/
def HiddenByLastPost (filename : Option String) (w : World) : Prop :=
  ∃ obj labs vendors modules, resourceObject filename w = .ok obj ∧
    jsonObjectGetArray (some obj) "lab" = some labs ∧
    jsonObjectGetArray (some obj) "vendor" = some vendors ∧
    jsonObjectGetArray (some obj) "module" = some modules ∧
    let lab := postResource out "/amv/v1/labs" labs w
    let vendor := postResource out "/amv/v1/vendors" vendors lab.2
    let module := postResource out "/amv/v1/modules" modules vendor.2
    (lab.1 ≠ .success ∨ vendor.1 ≠ .success) ∧ module.1 = .success

/-- The certificate request or the processing of a TE URL fails, but what follows the
label {lit}`check` reports success. -/
def HiddenByCheck (fipsValidation : Bool) (w : World) : Prop :=
  (stage .modCertReq (modCertReq out) w).1 ≠ .success ∧
  (runCheck out fipsValidation (stage .modCertReq (modCertReq out) w).2).1 = .success

/-- A failure of the request that follows the login is overwritten. -/
def RequestHides (fipsValidation : Bool) (w : World) : Prop :=
  if w.ctx.get then
    HiddenBySaving out .getRequest (transportGet out w.ctx.getString) w
  else if w.ctx.post then False
  else if w.ctx.postResources then HiddenByLastPost out w.ctx.postResourcesFilename w
  else if w.ctx.modCertReq then HiddenByCheck out fipsValidation w
  else if w.ctx.delete then
    HiddenBySaving out .deleteRequest (transportDelete out w.ctx.deleteString) w
  else False

/-- A run that hides a failure: the login succeeds, or is turned off, and a failure of the
request that follows is overwritten. -/
def RunHides (fipsValidation : Bool) (w : World) : Prop :=
  (loginStage out w).1 = .success ∧ RequestHides out fipsValidation (loginStage out w).2

/-- Saving the reply turns a failure into a success exactly when the file can be written. -/
theorem saveReply_success_iff {rv : AmvpResult} (hrv : rv ≠ .success) (w : World) :
    (saveReply out rv w).1 = .success ↔
      ∃ f val, w.ctx.saveFilename = some f ∧ w.ctx.curlBuf = some val ∧
        out.writable f = true := by
  rw [saveReply, getCtx_bind]
  cases hf : w.ctx.saveFilename with
  | none => simp [hrv]
  | some f =>
      cases hbuf : w.ctx.curlBuf with
      | none => simp [hrv]
      | some val =>
          by_cases hwritable : out.writable f = true
          · simp [jsonSerializeToFilePrettyW, jsonSerializeToFilePrettyA, hwritable,
              Prog.bind_apply]
          · simp [jsonSerializeToFilePrettyW, hwritable]

/-- A request whose reply is saved is faithful exactly when saving hides no failure. -/
theorem faithfulAt_saving_iff {m : Session AmvpResult} (hm : workFrame.Keeps m) (s : Stage)
    (w : World) :
    FaithfulAt (stage s m >>= saveReply out) w ↔ ¬ HiddenBySaving out s m w := by
  have hstaged := staged_stage hm s w
  have hgrows : ∀ rv w, Grows (saveReply out rv) w := fun rv w =>
    (Faithful.of_work (work_of_quiet (quietFrame_saveReply rv)) w).1
  by_cases hrv : (stage s m w).1 = .success
  · rw [faithfulAt_bind_iff (f := saveReply out) (Prod.eta _).symm hstaged (by simpa using hrv)
      (hgrows _ _)]
    exact iff_of_true (Faithful.of_work (work_of_quiet (quietFrame_saveReply _)) _).2
      fun h => h.1 hrv
  · rw [faithfulAt_bind_iff_of_failure (f := saveReply out) (Prod.eta _).symm hstaged
      (by simpa using hrv) (hgrows _ _)]
    refine not_congr ((saveReply_success_iff out hrv _).trans ?_)
    exact (and_iff_right hrv).symm

/-- A certificate request is faithful exactly when the results check hides no failure. -/
theorem faithfulAt_modCertReq_iff (fipsValidation : Bool) (w : World) :
    FaithfulAt (stage .modCertReq (modCertReq out) >>= fun _ => runCheck out fipsValidation) w ↔
      ¬ HiddenByCheck out fipsValidation w := by
  have hstaged := staged_stage (work_of_open (@openFrame_modCertReq out)) .modCertReq w
  have hcheck := faithful_runCheck out fipsValidation
  by_cases hrv : (stage .modCertReq (modCertReq out) w).1 = .success
  · rw [faithfulAt_bind_iff (f := fun _ => runCheck out fipsValidation) (Prod.eta _).symm hstaged
      (by simpa using hrv) (hcheck _).1]
    exact iff_of_true (hcheck _).2 fun h => h.1 hrv
  · rw [faithfulAt_bind_iff_of_failure (f := fun _ => runCheck out fipsValidation)
      (Prod.eta _).symm hstaged (by simpa using hrv) (hcheck _).1, HiddenByCheck]
    simp [hrv]

/-- Posting a resource is one stage. -/
theorem staged_postResource (endpoint : String) (resources : List Json) (w : World) :
    Staged w [(.postResource endpoint, (postResource out endpoint resources w).1)]
      (postResource out endpoint resources w).2 :=
  staged_stage (workFrame_sendTo _ _ _ _ _ _) (.postResource endpoint) w

/-- The three POSTs of a complete resource file, one after the other. -/
theorem postResources_eq {filename : Option String} {w : World} {obj : JsonObject}
    {labs vendors modules : List Json} (hobj : resourceObject filename w = .ok obj)
    (hlab : jsonObjectGetArray (some obj) "lab" = some labs)
    (hvendor : jsonObjectGetArray (some obj) "vendor" = some vendors)
    (hmodule : jsonObjectGetArray (some obj) "module" = some modules) :
    postResources out filename w =
      postResource out "/amv/v1/modules" modules
        (postResource out "/amv/v1/vendors" vendors
          (postResource out "/amv/v1/labs" labs w).2).2 := by
  simp [postResources, hobj, hlab, hvendor, hmodule, Prog.bind_apply]

/-- A resource file that cannot be used is a failure. -/
theorem resourceObject_error {filename : Option String} {w : World} {rv : AmvpResult}
    (h : resourceObject filename w = .error rv) : rv ≠ .success := by
  unfold resourceObject at h
  split at h
  · cases h
    decide
  · split at h
    · cases h
      decide
    · split at h
      · cases h
        decide
      · cases h

/-- A resource file that is not complete is an error. -/
theorem postResources_error {filename : Option String} {w : World}
    (h : ∀ obj labs vendors modules, resourceObject filename w = .ok obj →
      jsonObjectGetArray (some obj) "lab" = some labs →
      jsonObjectGetArray (some obj) "vendor" = some vendors →
      jsonObjectGetArray (some obj) "module" ≠ some modules) :
    (postResources out filename w).1 ≠ .success := by
  rw [postResources, Prog.read_bind_apply]
  cases hobj : resourceObject filename w with
  | error rv => simpa using resourceObject_error hobj
  | ok obj =>
      cases hlab : jsonObjectGetArray (some obj) "lab" with
      | none => simp [hlab]
      | some labs =>
          cases hvendor : jsonObjectGetArray (some obj) "vendor" with
          | none => simp [hlab, hvendor, Prog.bind_apply]
          | some vendors =>
              cases hmodule : jsonObjectGetArray (some obj) "module" with
              | none => simp [hlab, hvendor, hmodule, Prog.bind_apply]
              | some modules => exact absurd hmodule (h obj labs vendors modules hobj hlab hvendor)

/-- The series of POSTs is faithful exactly when the last one hides no failure. -/
theorem faithfulAt_postResources_iff (filename : Option String) (w : World) :
    FaithfulAt (postResources out filename) w ↔ ¬ HiddenByLastPost out filename w := by
  by_cases hfile : ∃ obj labs vendors modules, resourceObject filename w = .ok obj ∧
    jsonObjectGetArray (some obj) "lab" = some labs ∧
    jsonObjectGetArray (some obj) "vendor" = some vendors ∧
    jsonObjectGetArray (some obj) "module" = some modules
  · obtain ⟨obj, labs, vendors, modules, hobj, hlab, hvendor, hmodule⟩ := hfile
    have hstaged := ((staged_postResource out "/amv/v1/labs" labs w).trans
      (staged_postResource out "/amv/v1/vendors" vendors _)).trans
      (staged_postResource out "/amv/v1/modules" modules _)
    have hhidden : HiddenByLastPost out filename w ↔
        ((postResource out "/amv/v1/labs" labs w).1 ≠ .success ∨
          (postResource out "/amv/v1/vendors" vendors
            (postResource out "/amv/v1/labs" labs w).2).1 ≠ .success) ∧
        (postResources out filename w).1 = .success := by
      rw [postResources_eq out hobj hlab hvendor hmodule]
      constructor
      · rintro ⟨obj', labs', vendors', modules', hobj', hlab', hvendor', hmodule', h⟩
        obtain rfl : obj = obj' := Except.ok.inj (hobj.symm.trans hobj')
        obtain rfl : labs = labs' := Option.some.inj (hlab.symm.trans hlab')
        obtain rfl : vendors = vendors' := Option.some.inj (hvendor.symm.trans hvendor')
        obtain rfl : modules = modules' := Option.some.inj (hmodule.symm.trans hmodule')
        exact h
      · intro h
        exact ⟨obj, labs, vendors, modules, hobj, hlab, hvendor, hmodule, h⟩
    rw [hhidden, FaithfulAt, postResources_eq out hobj hlab hvendor hmodule, hstaged.eq]
    simp only [List.cons_append, List.nil_append, List.forall_mem_cons, List.not_mem_nil,
      false_implies, implies_true, and_true]
    constructor
    · rintro hfaithful ⟨hfailed, hlast⟩
      obtain ⟨hlabs, hvendors, -⟩ := hfaithful hlast
      exact hfailed.elim (· hlabs) (· hvendors)
    · intro hnot hlast
      refine ⟨?_, ?_, hlast⟩
      · by_contra hlabs
        exact hnot ⟨.inl hlabs, hlast⟩
      · by_contra hvendors
        exact hnot ⟨.inr hvendors, hlast⟩
  · have herror : (postResources out filename w).1 ≠ .success :=
      postResources_error out fun obj labs vendors modules hobj hlab hvendor hmodule =>
        hfile ⟨obj, labs, vendors, modules, hobj, hlab, hvendor, hmodule⟩
    refine iff_of_true (fun hsuccess => absurd hsuccess herror) ?_
    rintro ⟨obj, labs, vendors, modules, hobj, hlab, hvendor, hmodule, -⟩
    exact hfile ⟨obj, labs, vendors, modules, hobj, hlab, hvendor, hmodule⟩

/-- What follows the login is faithful exactly when it hides no failure. -/
theorem faithfulAt_runRequest_iff (fipsValidation : Bool) (w : World) :
    FaithfulAt (runRequest out fipsValidation) w ↔ ¬ RequestHides out fipsValidation w := by
  have hread : FaithfulAt (runRequest out fipsValidation) w ↔ FaithfulAt
      (if w.ctx.get then
        stage .getRequest (transportGet out w.ctx.getString) >>= saveReply out
      else if w.ctx.post then stage .postData (postData out w.ctx.postFilename)
      else if w.ctx.postResources then postResources out w.ctx.postResourcesFilename
      else if w.ctx.modCertReq then
        stage .modCertReq (modCertReq out) >>= fun _ => runCheck out fipsValidation
      else if w.ctx.delete then
        stage .deleteRequest (transportDelete out w.ctx.deleteString) >>= saveReply out
      else runSession out fipsValidation) w := Iff.rfl
  rw [hread, RequestHides]
  split_ifs
  · exact faithfulAt_saving_iff out (workFrame_sendTo _ _ _ _ _ _) .getRequest w
  · exact iff_of_true (Faithful.stage (work_of_quiet (quietFrame_postData _)) .postData w).2 id
  · exact faithfulAt_postResources_iff out _ w
  · exact faithfulAt_modCertReq_iff out fipsValidation w
  · exact faithfulAt_saving_iff out (workFrame_sendTo _ _ _ _ _ _) .deleteRequest w
  · exact iff_of_true (faithful_runSession out fipsValidation w).2 id

/-- The frame of all programs that only append to the log. -/
def growFrame : Frame World := frameOf (fun _ => ()) fun _ => True

/-- A part that lets the log grow does so from every state. -/
theorem grows_of_keeps {α : Type} {m : Session α} (hm : growFrame.Keeps m) (w : World) :
    Grows m w := by
  obtain ⟨-, evs, hlog, -⟩ := hm w
  exact ⟨_, evs, hlog, rfl⟩

/-- A faithful part lets the log grow. -/
theorem growFrame_of_faithful {m : Session AmvpResult} (hm : Faithful m) :
    growFrame.Keeps m := by
  intro w
  obtain ⟨⟨-, evs, hlog, -⟩, -⟩ := hm w
  exact ⟨rfl, evs, hlog, fun _ _ => trivial⟩

/-- So does posting resources. -/
theorem growFrame_postResources (filename : Option String) :
    growFrame.Keeps (postResources out filename) := by
  have hpost : ∀ endpoint resources, growFrame.Keeps (postResource out endpoint resources) :=
    fun endpoint resources =>
      growFrame_of_faithful (.stage (workFrame_sendTo _ _ _ _ _ _) (.postResource endpoint))
  refine .bind .read fun w => ?_
  split
  · exact .pure _
  · split
    · exact .pure _
    · refine .bind (hpost _ _) fun _ => ?_
      split
      · exact .pure _
      · refine .bind (hpost _ _) fun _ => ?_
        split
        · exact .pure _
        · exact hpost _ _

/-- So does a run with its requests. -/
theorem growFrame_runRequest (fipsValidation : Bool) :
    growFrame.Keeps (runRequest out fipsValidation) := by
  have hsave : ∀ rv, growFrame.Keeps (saveReply out rv) := fun rv =>
    growFrame_of_faithful (.of_work (work_of_quiet (quietFrame_saveReply rv)))
  refine .bind frameOf_getCtx fun ctx => .ite ?_ (.ite ?_ (.ite ?_ (.ite ?_ (.ite ?_ ?_))))
  · exact .bind (growFrame_of_faithful (.stage (workFrame_sendTo _ _ _ _ _ _) .getRequest)) hsave
  · exact growFrame_of_faithful (.stage (work_of_quiet (quietFrame_postData _)) .postData)
  · exact growFrame_postResources out _
  · exact .bind (growFrame_of_faithful (.stage (work_of_open openFrame_modCertReq) .modCertReq))
      fun _ => growFrame_of_faithful (faithful_runCheck out fipsValidation)
  · exact .bind (growFrame_of_faithful (.stage (workFrame_sendTo _ _ _ _ _ _) .deleteRequest))
      hsave
  · exact growFrame_of_faithful (faithful_runSession out fipsValidation)

/-- The run reports success only if every stage it executed returned success, exactly
when none of the overwriting places hides a failure. -/
theorem run_faithful_iff (fipsValidation : Bool) (w : World) :
    FaithfulAt (run out fipsValidation) w ↔ ¬ RunHides out fipsValidation w := by
  obtain ⟨⟨rv, w₁⟩, hrun⟩ : ∃ p, loginStage out w = p := ⟨_, rfl⟩
  obtain ⟨⟨xs, hxs⟩, hlogin⟩ := faithful_loginStage out w
  rw [FaithfulAt, hxs.eq] at hlogin
  rw [RunHides, hrun]
  rw [hrun] at hxs hlogin
  by_cases hrv : rv = .success
  · subst hrv
    have hrest := faithfulAt_bind_iff
      (f := fun rv => if rv ≠ .success then pure rv else runRequest out fipsValidation) hrun hxs
      (hlogin rfl) (by rw [if_neg (by simp)]; exact grows_of_keeps (growFrame_runRequest out _) _)
    rw [if_neg (by simp), faithfulAt_runRequest_iff] at hrest
    simpa [run] using hrest
  · refine iff_of_true (fun hsuccess => ?_) fun h => hrv h.1
    rw [run, Prog.bind_of_eq hrun, if_pos hrv] at hsuccess
    exact absurd hsuccess hrv

/-! ## A failed certificate request -/

/-- A server that lets a client log in and rejects everything else. -/
def loginOnlyServer : List Event → Request → Reply
  | _, ⟨_, .postLogin, _, _, _⟩ => ⟨200, some (.arr [.obj [("accessToken", .str "jwt")]])⟩
  | _, _ => ⟨500, none⟩

/-- A context that requests a certificate and saves the evidence sets to a file. -/
def certRequestWorld : World :=
  { World.start with
    ctx := { World.start.ctx with
      modCertReq := true
      modCertReqFile := some "cert.json"
      vectorReq := true
      vectorReqFile := some "req.json" }
    files := fun f => if f = "cert.json" then some (Json.tokens (.arr [.obj []])) else none }

/-- The certificate request is rejected, and the run reports success. -/
theorem run_not_faithful : ¬ FaithfulAt (run (.plain loginOnlyServer) false) certRequestWorld := by
  intro h
  have hfailed : (Stage.modCertReq, AmvpResult.transportFail) ∈ stagesOf (since
      certRequestWorld.log (run (.plain loginOnlyServer) false certRequestWorld).2.log) := by
    decide
  exact absurd (h rfl _ hfailed) (by decide)

end LibAmvp
