import LibAmvp.Session.VectorSets

/-!
# What the parts of a session leave alone

Most parts of a session are *quiet*: they keep the application's settings, the
session URL and the mark of a passed session, they send no validation and assign no
session URL.  The others are at least *work* inside a stage: they keep the settings
and do not end a stage.  Frame facts follow the text of the functions.

Main results:

- Theorem {lit}`quietFrame_sendTo`: every request other than a validation is quiet.
- Theorem {lit}`quietFrame_processTests`: processing the sets of a session is quiet.
-/

namespace LibAmvp

/-! ## Observations and events -/

/-- The settings of the application: the context without the fields a session
writes. -/
def Ctx.settings (ctx : Ctx) : Ctx :=
  { ctx with
    vsidUrlList := []
    sessionUrl := none
    sessionPassed := false
    sessionFilePath := none
    isSample := 0
    doValidation := false
    jwtToken := none
    registration := none
    vsId := 0
    katResp := none
    curlBuf := none }

/-- The settings together with the session and its outcome. -/
def Ctx.standing (ctx : Ctx) : Ctx × Option String × Bool :=
  (ctx.settings, ctx.sessionUrl, ctx.sessionPassed)

/-- An event that is neither a validation, nor a new session URL, nor the end of a
stage. -/
def Event.Quiet : Event → Prop
  | .http req _ => ∀ url, req.api ≠ .putValidation url
  | .sessionUrl _ => False
  | .stage _ _ => False
  | _ => True

/-- An event that is neither a validation nor the end of a stage. -/
def Event.Opening : Event → Prop
  | .http req _ => ∀ url, req.api ≠ .putValidation url
  | .stage _ _ => False
  | _ => True

/-- An event that is not the end of a stage. -/
def Event.Work : Event → Prop
  | .stage _ _ => False
  | _ => True

/-- A quiet event does not end a stage. -/
theorem Event.Quiet.work {e : Event} (h : e.Quiet) : e.Work := by
  cases e <;> trivial

/-- A quiet event may occur while a session is opened. -/
theorem Event.Quiet.opening {e : Event} (h : e.Quiet) : e.Opening := by
  cases e <;> trivial

/-- An event of opening does not end a stage. -/
theorem Event.Opening.work {e : Event} (h : e.Opening) : e.Work := by
  cases e <;> trivial

/-- The frame that keeps an observation of the context and logs events of one kind. -/
def frameOf {γ : Type} (keep : Ctx → γ) (P : Event → Prop) : Frame World where
  rel a b := keep b.ctx = keep a.ctx ∧ ∃ evs, b.log = a.log ++ evs ∧ ∀ e ∈ evs, P e
  refl a := ⟨rfl, [], by simp, by simp⟩
  trans := by
    rintro a b c ⟨hkeep, evs, hlog, hevs⟩ ⟨hkeep', evs', hlog', hevs'⟩
    refine ⟨hkeep'.trans hkeep, evs ++ evs', by simp [hlog', hlog], ?_⟩
    intro e he
    rcases List.mem_append.mp he with he | he
    · exact hevs e he
    · exact hevs' e he

/-- Quiet parts of a session. -/
def quietFrame : Frame World := frameOf Ctx.standing Event.Quiet

/-- Parts that open a session: they may also assign the session URL. -/
def openFrame : Frame World :=
  frameOf (fun ctx => (ctx.settings, ctx.sessionPassed)) Event.Opening

/-- Parts of a session inside a stage. -/
def workFrame : Frame World := frameOf Ctx.settings Event.Work

/-- What a quiet part may do, a part of a stage may do. -/
theorem workFrame_of_quiet {w w' : World} (h : quietFrame.rel w w') : workFrame.rel w w' := by
  obtain ⟨hkeep, evs, hlog, hevs⟩ := h
  exact ⟨congrArg Prod.fst hkeep, evs, hlog, fun e he => (hevs e he).work⟩

/-- A quiet part is a part of a stage. -/
theorem work_of_quiet {α : Type} {m : Session α} (h : quietFrame.Keeps m) :
    workFrame.Keeps m :=
  fun w => workFrame_of_quiet (h w)

/-- A quiet part is one that may open a session. -/
theorem open_of_quiet {α : Type} {m : Session α} (h : quietFrame.Keeps m) :
    openFrame.Keeps m := by
  intro w
  obtain ⟨hkeep, evs, hlog, hevs⟩ := h w
  obtain ⟨hsettings, -, hpassed⟩ : (m w).2.ctx.settings = w.ctx.settings ∧
      (m w).2.ctx.sessionUrl = w.ctx.sessionUrl ∧
      (m w).2.ctx.sessionPassed = w.ctx.sessionPassed := by
    simpa [Ctx.standing] using hkeep
  exact ⟨Prod.ext hsettings hpassed, evs, hlog, fun e he => (hevs e he).opening⟩

/-- A part that opens a session is a part of a stage. -/
theorem work_of_open {α : Type} {m : Session α} (h : openFrame.Keeps m) :
    workFrame.Keeps m := by
  intro w
  obtain ⟨hkeep, evs, hlog, hevs⟩ := h w
  exact ⟨congrArg Prod.fst hkeep, evs, hlog, fun e he => (hevs e he).work⟩

/-! ## Primitive steps -/

section Primitive

variable {γ α : Type} {keep : Ctx → γ} {P : Event → Prop}

/-- Reading the context keeps every frame. -/
theorem frameOf_getCtx : (frameOf keep P).Keeps getCtx :=
  fun w => (frameOf keep P).refl w

/-- A change of the context keeps a frame that does not look at what is changed. -/
theorem frameOf_modifyCtx {f : Ctx → Ctx} (hf : ∀ ctx, keep (f ctx) = keep ctx) :
    (frameOf keep P).Keeps (modifyCtx f) :=
  fun w => ⟨hf w.ctx, [], by simp, by simp⟩

/-- Logging an event of the kind keeps the frame. -/
theorem frameOf_mark {e : Event} (he : P e) : (frameOf keep P).Keeps (mark e) :=
  fun _ => ⟨rfl, [e], rfl, by simpa using he⟩

/-- Writing files keeps every frame. -/
theorem frameOf_files (f : World → String → Option Json.Text) :
    (frameOf keep P).Keeps (Prog.update fun w => { w with files := f w }) :=
  fun _ => ⟨rfl, [], by simp, by simp⟩

/-- A request is inside a frame that ignores the receive buffer and the token. -/
theorem frameOf_of_netFrame {api : Api} {w w' : World}
    (hkeep : ∀ ctx jwt buf, keep { ctx with jwtToken := jwt, curlBuf := buf } = keep ctx)
    (hP : ∀ e, NetEvent api e → P e) (h : (netFrame api).rel w w') :
    (frameOf keep P).rel w w' := by
  obtain ⟨hctx, -, evs, hlog, hevs⟩ := h
  refine ⟨?_, evs, hlog, fun e he => hP e (hevs e he)⟩
  rw [hctx]
  exact hkeep _ _ _

end Primitive

/-! ## Requests -/

/-- The traffic of a request other than the validation is quiet. -/
theorem NetEvent.quiet {api : Api} (hapi : ∀ url, api ≠ .putValidation url) {e : Event}
    (h : NetEvent api e) : e.Quiet := by
  cases e with
  | http req reply =>
      intro url
      rcases h with h | h
      · rw [h]
        exact hapi url
      · rw [h]
        simp
  | refreshed rv => trivial
  | _ => exact h.elim

/-- The traffic of every request is part of a stage. -/
theorem NetEvent.work {api : Api} {e : Event} (h : NetEvent api e) : e.Work := by
  cases e <;> trivial

variable {out : Outside}

/-- The login is quiet. -/
theorem quietFrame_login (refresh : Bool) : quietFrame.Keeps (login out refresh) :=
  fun w => frameOf_of_netFrame (fun _ _ _ => rfl) (fun _ => NetEvent.quiet (by simp))
    (netFrame_login .login refresh w)

/-- A request whose events a frame admits. -/
theorem frameOf_sendTo {γ : Type} {keep : Ctx → γ} {P : Event → Prop}
    (hkeep : ∀ ctx jwt buf, keep { ctx with jwtToken := jwt, curlBuf := buf } = keep ctx)
    (limit : Nat) {api : String → Api} (hP : ∀ p e, NetEvent (api p) e → P e)
    (action : NetAction) (path : Option String) (tail : String) (data : Option Json) :
    (frameOf keep P).Keeps (sendTo out limit api action path tail data) := by
  intro w
  cases path with
  | none =>
      rcases @sendTo_cases out limit api action none tail data w with
        ⟨rv, -, h⟩ | ⟨p, url, hp, -⟩
      · rw [h]
        exact (frameOf keep P).refl w
      · cases hp
  | some p =>
      have hnet := @netFrame_sendTo out limit api action p tail data w
      exact frameOf_of_netFrame hkeep (hP p) hnet

/-- Every request other than a validation is quiet. -/
theorem quietFrame_sendTo (limit : Nat) {api : String → Api} (action : NetAction)
    (path : Option String) (tail : String) (data : Option Json)
    (hapi : ∀ p url, api p ≠ .putValidation url) :
    quietFrame.Keeps (sendTo out limit api action path tail data) :=
  frameOf_sendTo (fun _ _ _ => rfl) limit (fun p _ => NetEvent.quiet (hapi p)) action path tail data

/-- Every request is work inside a stage. -/
theorem workFrame_sendTo (limit : Nat) (api : String → Api) (action : NetAction)
    (path : Option String) (tail : String) (data : Option Json) :
    workFrame.Keeps (sendTo out limit api action path tail data) :=
  frameOf_sendTo (fun _ _ _ => rfl) limit (fun _ _ => NetEvent.work) action path tail data

/-- Submitting the responses of a set is quiet. -/
theorem quietFrame_submitVectorResponses (vsidUrl : String) :
    quietFrame.Keeps (submitVectorResponses out vsidUrl) :=
  .bind frameOf_getCtx fun _ => .bind (frameOf_mark trivial) fun _ =>
    quietFrame_sendTo _ _ _ _ _ (by simp)

/-! ## Files -/

/-- Appending to a file is quiet. -/
theorem quietFrame_jsonSerializeToFilePrettyA (value : Option Json) (filename : Option String) :
    quietFrame.Keeps (jsonSerializeToFilePrettyA out value filename) := by
  cases filename with
  | none => exact .pure _
  | some f => exact .ite (.bind (frameOf_files _) fun _ => .pure _) (.pure _)

/-- Writing a file is quiet. -/
theorem quietFrame_jsonSerializeToFilePrettyW (value : Option Json) (filename : Option String) :
    quietFrame.Keeps (jsonSerializeToFilePrettyW out value filename) := by
  cases value with
  | none => exact .pure _
  | some v =>
      cases filename with
      | none => exact .pure _
      | some f => exact .ite (.bind (frameOf_files _) fun _ => .pure _) (.pure _)

/-! ## Vector sets -/

/-- A handler is inside every frame that ignores the number of the set and the responses. -/
theorem keeps_dispatchVectorSet {F : Frame World}
    (hvsId : ∀ n, F.Keeps (modifyCtx fun ctx => { ctx with vsId := n }))
    (hkatResp : ∀ g : Ctx → Option Json,
      F.Keeps (modifyCtx fun ctx => { ctx with katResp := g ctx }))
    (obj : Option JsonObject) : F.Keeps (dispatchVectorSet out obj) := by
  refine .bind (hvsId _) fun _ => ?_
  split
  · exact .pure _
  · split
    · exact .pure _
    · split
      · exact .bind (hkatResp fun _ => _) fun _ => .pure _
      · exact .bind (hkatResp _) fun _ => .pure _

/-- Processing a set is quiet. -/
theorem quietFrame_dispatchVectorSet (obj : Option JsonObject) :
    quietFrame.Keeps (dispatchVectorSet out obj) :=
  keeps_dispatchVectorSet (fun _ => frameOf_modifyCtx fun _ => rfl)
    (fun _ => frameOf_modifyCtx fun _ => rfl) obj

/-- Processing a set of evidence is quiet. -/
theorem quietFrame_dispatchIeSet (obj : Option JsonObject) :
    quietFrame.Keeps (dispatchIeSet obj) := by
  refine .bind (frameOf_modifyCtx fun _ => rfl) fun _ => ?_
  split
  · exact .pure _
  · split
    · exact .pure _
    · exact .bind (frameOf_modifyCtx fun _ => rfl) fun _ => .pure _

/-- A set is saved inside every frame that ignores the files. -/
theorem keeps_saveSet {F : Frame World}
    (hstart : ∀ value filename, F.Keeps (jsonSerializeToFilePrettyW out value filename))
    (hmore : ∀ value filename, F.Keeps (jsonSerializeToFilePrettyA out value filename))
    (kind : SetKind) (val : Json) (count : Nat) : F.Keeps (saveSet out kind val count) := by
  have hctx : F.Keeps getCtx := fun w => F.refl w
  refine .bind (.bind hctx fun _ => .ite (hstart _ _) (.pure _)) fun rv => .ite (.pure _) ?_
  exact .bind hctx fun ctx => hmore _ _

/-- Saving a set is quiet. -/
theorem quietFrame_saveSet (kind : SetKind) (val : Json) (count : Nat) :
    quietFrame.Keeps (saveSet out kind val count) :=
  keeps_saveSet quietFrame_jsonSerializeToFilePrettyW quietFrame_jsonSerializeToFilePrettyA kind
    val count

/-- Accepting a set is quiet when its processing is. -/
theorem quietFrame_acceptSet {kind : SetKind} (hkind : ∀ obj, quietFrame.Keeps (kind.dispatch obj))
    (vsidUrl : String) (count : Nat) (val : Json) :
    quietFrame.Keeps (acceptSet out kind vsidUrl count val) := by
  refine .bind (frameOf_mark trivial) fun _ => .bind frameOf_getCtx fun ctx => .ite ?_ ?_
  · exact quietFrame_saveSet kind val count
  · exact .bind (hkind _) fun rv => .ite (.pure _) (quietFrame_submitVectorResponses vsidUrl)

/-- So is polling for a set and accepting it. -/
theorem quietFrame_processSet (kind : SetKind)
    (hkind : ∀ obj, quietFrame.Keeps (kind.dispatch obj)) (vsidUrl : String) (count : Nat) :
    quietFrame.Keeps (processSet out kind vsidUrl count) := by
  intro w
  obtain ⟨w₁, hnet, ⟨rv, -, h⟩ | ⟨val, -, h⟩⟩ := processSet_cases out kind vsidUrl count w
  all_goals
    have hquiet : quietFrame.rel w w₁ :=
      frameOf_of_netFrame (fun _ _ _ => rfl) (fun _ => NetEvent.quiet (by simp)) hnet
    rw [h]
  · exact hquiet
  · exact quietFrame.trans hquiet (quietFrame_acceptSet hkind vsidUrl count val w₁)

/-- A loop over sets is quiet when its body is, by induction on the sets. -/
theorem quietFrame_processUrls {process : String → Nat → Session AmvpResult}
    (hprocess : ∀ url count, quietFrame.Keeps (process url count)) (urls : List String)
    (count : Nat) : quietFrame.Keeps (processUrls process urls count) := by
  induction urls generalizing count with
  | nil => exact .pure _
  | cons url urls ih =>
      exact .bind (hprocess url count) fun rv => .ite (.pure _) (ih (count + 1))

/-- So is the loop over all sets of the session. -/
theorem quietFrame_processAll {process : String → Nat → Session AmvpResult}
    (hprocess : ∀ url count, quietFrame.Keeps (process url count)) :
    quietFrame.Keeps (processAll out process) := by
  refine .bind frameOf_getCtx fun ctx => .ite (.pure _) ?_
  refine .bind (quietFrame_processUrls hprocess _ _) fun rv => .ite (.pure _) ?_
  exact .bind frameOf_getCtx fun ctx =>
    .ite (quietFrame_jsonSerializeToFilePrettyA _ _) (.pure _)

/-- Processing the vector sets of a session is quiet. -/
theorem quietFrame_processTests : quietFrame.Keeps (processTests out) :=
  quietFrame_processAll fun url count =>
    quietFrame_processSet (vsidKind out) quietFrame_dispatchVectorSet url count

/-- Processing the evidence sets of a certificate request is quiet. -/
theorem quietFrame_processAmvpTes : quietFrame.Keeps (processAmvpTes out) :=
  quietFrame_processAll fun url count =>
    quietFrame_processSet teidKind quietFrame_dispatchIeSet url count

end LibAmvp
