import LibAmvp.Session.VectorSets

/-!
# The request file is one JSON array

In the mode that saves the sets for offline processing, the request file is built
from a header, one append for each URL and a closing append.  An element that a
body does not have is appended like the closing call, so the array ends early, and
a body's saved element need not be the element that is processed online.  A URL that is
not UTF-8 is left out of the header.

Main results:

- Theorem {lit}`requestFile_wellFormed_iff`: after a successful run the file holds the
  header and the retrieved sets exactly when every URL is UTF-8 and every accepted body
  carries its set in the element that is saved.
-/

namespace LibAmvp

open EventLog

/-! ## Bodies and elements -/

/-- An element of a body. -/
def bodyElement (index : Nat) (body : Json) : Option Json :=
  jsonArrayGetValue (jsonValueGetArray (some body)) index

/-- The accepted bodies of a log, each with its URL. -/
def accepted (evs : List Event) : List (String × Json) :=
  evs.filterMap fun
    | .retrieved url body => some (url, body)
    | _ => none

@[simp]
theorem accepted_append (evs evs' : List Event) :
    accepted (evs ++ evs') = accepted evs ++ accepted evs' := by
  simp [accepted]

@[simp]
theorem accepted_retrieved (url : String) (body : Json) :
    accepted [.retrieved url body] = [(url, body)] :=
  rfl

theorem accepted_of_netEvent {api : Api} {evs : List Event} (h : ∀ e ∈ evs, NetEvent api e) :
    accepted evs = [] := by
  rw [accepted, List.filterMap_eq_nil_iff]
  intro e he
  cases e with
  | retrieved url body => exact absurd (h _ he) (by simp [NetEvent])
  | _ => rfl

/-! ## The text that is assembled -/

/-- The elements that end up in the array: those before the first missing one. -/
def writtenElems : List (Option Json) → List Json
  | [] => []
  | none :: _ => []
  | some v :: els => v :: writtenElems els

theorem appendTokens_flatMap (els : List (Option Json)) :
    ∃ rest, els.flatMap appendTokens ++ [.rbrack] =
      Json.moreElemTokens (writtenElems els) ++ .rbrack :: rest := by
  induction els with
  | nil => exact ⟨[], by simp [writtenElems, Json.moreElemTokens]⟩
  | cons el els ih =>
      cases el with
      | none => exact ⟨els.flatMap appendTokens ++ [.rbrack],
          by simp [writtenElems, Json.moreElemTokens, appendTokens]⟩
      | some v =>
          obtain ⟨rest, hrest⟩ := ih
          refine ⟨rest, ?_⟩
          simp only [List.flatMap_cons, List.append_assoc, hrest]
          simp [writtenElems, Json.moreElemTokens, appendTokens]

/-- The assembled text parses to the header and the elements before the first missing
one. -/
theorem parse_assembled (header : Json) (els : List (Option Json)) :
    Json.parse (.lbrack :: header.tokens ++ els.flatMap appendTokens ++ [.rbrack]) =
      some (.arr (header :: writtenElems els)) := by
  obtain ⟨rest, hrest⟩ := appendTokens_flatMap els
  have htext : .lbrack :: header.tokens ++ els.flatMap appendTokens ++ [.rbrack] =
      Json.tokens (.arr (header :: writtenElems els)) ++ rest := by
    rw [List.append_assoc, hrest]
    simp [Json.tokens, Json.elemTokens]
  rw [htext, Json.parse_tokens_append]

theorem writtenElems_map_some (els : List (Option Json))
    (h : (writtenElems els).length = els.length) : (writtenElems els).map some = els := by
  induction els with
  | nil => rfl
  | cons el els ih =>
      cases el with
      | none => simp [writtenElems] at h
      | some v => simp_all [writtenElems]

theorem exists_map_some (els : List (Option Json)) (h : ∀ el ∈ els, el.isSome) :
    ∃ vs : List Json, vs.map some = els := by
  induction els with
  | nil => exact ⟨[], rfl⟩
  | cons el els ih =>
      obtain ⟨vs, hvs⟩ := ih fun el hel => h el (List.mem_cons_of_mem _ hel)
      obtain ⟨v, rfl⟩ := Option.isSome_iff_exists.mp (h el List.mem_cons_self)
      exact ⟨v :: vs, by simp [hvs]⟩

theorem writtenElems_of_map_some (vs : List Json) : writtenElems (vs.map some) = vs := by
  induction vs with
  | nil => rfl
  | cons v vs ih => simp [writtenElems, ih]

/-! ## Saving one set -/

section Sets

variable {out : Outside}

/-- A successful append. -/
theorem jsonSerializeToFilePrettyA_success {value : Option Json} {filename : Option String}
    {w w' : World} (h : jsonSerializeToFilePrettyA out value filename w = (.success, w')) :
    ∃ f, filename = some f ∧ w' = { w with
      files := Function.update w.files f (some ((w.files f).getD [] ++ appendTokens value)) } := by
  cases filename with
  | none => cases (Prod.mk.inj h).1
  | some f =>
      simp only [jsonSerializeToFilePrettyA, Prog.ite_apply] at h
      split_ifs at h
      · exact ⟨f, rfl, (Prod.mk.inj h).2.symm⟩
      · cases (Prod.mk.inj h).1

/-- A successful write. -/
theorem jsonSerializeToFilePrettyW_success {value : Json} {filename : Option String}
    {w w' : World} (h : jsonSerializeToFilePrettyW out (some value) filename w = (.success, w')) :
    ∃ f, filename = some f ∧ w' = { w with
      files := Function.update w.files f (some (.lbrack :: value.tokens)) } := by
  cases filename with
  | none => cases (Prod.mk.inj h).1
  | some f =>
      simp only [jsonSerializeToFilePrettyW, Prog.ite_apply] at h
      split_ifs at h
      · exact ⟨f, rfl, (Prod.mk.inj h).2.symm⟩
      · cases (Prod.mk.inj h).1

/-- Saving a set appends its element, after the header when it is the first. -/
theorem saveSet_success {kind : SetKind} {val : Json} {count : Nat} {w w' : World}
    (h : saveSet out kind val count w = (.success, w')) :
    ∃ f, w.ctx.vectorReqFile = some f ∧ w'.ctx = w.ctx ∧ w'.log = w.log ∧
      w'.files f = some ((if count = 0 then
        .lbrack :: (Json.obj (requestHeader w.ctx kind.urlsKey)).tokens
        else (w.files f).getD []) ++ appendTokens (bodyElement kind.element val)) := by
  obtain ⟨⟨rv, w₁⟩, hstart⟩ : ∃ p, startRequestFile out kind count w = p := ⟨_, rfl⟩
  rw [saveSet, Prog.bind_of_eq hstart] at h
  rw [startRequestFile, getCtx_bind] at hstart
  by_cases hrv : rv = .success
  · subst hrv
    rw [if_neg (by simp), getCtx_bind] at h
    obtain ⟨f, hf, rfl⟩ := jsonSerializeToFilePrettyA_success h
    by_cases hcount : count = 0
    · rw [if_pos hcount] at hstart
      obtain ⟨f', hf', rfl⟩ := jsonSerializeToFilePrettyW_success hstart
      obtain rfl : f' = f := Option.some.inj (hf'.symm.trans hf)
      exact ⟨f', hf, rfl, rfl, by simp [bodyElement, hcount]⟩
    · rw [if_neg hcount] at hstart
      obtain rfl := (Prod.mk.inj hstart).2
      exact ⟨f, hf, rfl, rfl, by simp [bodyElement, hcount]⟩
  · rw [if_pos hrv] at h
    exact absurd (Prod.mk.inj h).1 hrv

/-- What saving sets leaves of the context. -/
def SameButReceived (c c' : Ctx) : Prop :=
  c' = { c with jwtToken := c'.jwtToken, curlBuf := c'.curlBuf }

theorem SameButReceived.trans {a b c : Ctx} (hab : SameButReceived a b)
    (hbc : SameButReceived b c) : SameButReceived a c := by
  rw [SameButReceived, hbc, hab]

/-- A download that succeeds in saving mode accepts one body and saves its element. -/
theorem processSet_saved {kind : SetKind} {vsidUrl : String} {count : Nat} {w w' : World}
    (hreq : w.ctx.vectorReq = true)
    (h : processSet out kind vsidUrl count w = (.success, w')) :
    ∃ body evs ctx f, w'.log = w.log ++ evs ∧ accepted evs = [(vsidUrl, body)] ∧
      SameButReceived w.ctx w'.ctx ∧ SameButReceived w.ctx ctx ∧
      w.ctx.vectorReqFile = some f ∧
      w'.files f = some ((if count = 0 then
        .lbrack :: (Json.obj (requestHeader ctx kind.urlsKey)).tokens
        else (w.files f).getD []) ++ appendTokens (bodyElement kind.element body)) := by
  obtain ⟨w₁, ⟨hctx, hfiles, evs, hlog, hevs⟩, ⟨rv, hrv, hend⟩ | ⟨body, -, hend⟩⟩ :=
    processSet_cases out kind vsidUrl count w
  · rw [hend] at h
    exact absurd (Prod.mk.inj h).1 hrv
  · rw [hend, acceptSet, mark_bind, getCtx_bind] at h
    have hreq' : w₁.ctx.vectorReq = true := by
      rw [hctx]
      exact hreq
    rw [if_pos hreq'] at h
    obtain ⟨f, hf, hctx', hlog', hfile⟩ := saveSet_success h
    refine ⟨body, evs ++ [.retrieved vsidUrl body], w₁.ctx, f, ?_, ?_, ?_, hctx, ?_, ?_⟩
    · rw [hlog', hlog, List.append_assoc]
    · simp [accepted_of_netEvent hevs]
    · rw [hctx']
      exact hctx
    · rw [hctx] at hf
      exact hf
    · rw [← hfiles]
      exact hfile

/-- The loop over the URLs in saving mode, after the header was written. -/
theorem processUrls_saved {kind : SetKind} {urls : List String} {count : Nat} {w w' : World}
    {f : String} (hreq : w.ctx.vectorReq = true) (hf : w.ctx.vectorReqFile = some f)
    (hcount : count ≠ 0)
    (h : processUrls (processSet out kind) urls count w = (.success, w')) :
    ∃ bodies evs, w'.log = w.log ++ evs ∧ accepted evs = urls.zip bodies ∧
      bodies.length = urls.length ∧ SameButReceived w.ctx w'.ctx ∧
      (w'.files f).getD [] = (w.files f).getD [] ++
        (bodies.map (bodyElement kind.element)).flatMap appendTokens := by
  induction urls generalizing count w with
  | nil =>
      obtain rfl := (Prod.mk.inj h).2
      exact ⟨[], [], by simp, rfl, rfl, rfl, by simp⟩
  | cons url urls ih =>
      obtain ⟨⟨rv, w₁⟩, hset⟩ : ∃ p, processSet out kind url count w = p := ⟨_, rfl⟩
      rw [processUrls, Prog.bind_of_eq hset] at h
      by_cases hrv : rv = .success
      · subst hrv
        rw [if_neg (by simp)] at h
        obtain ⟨body, evs, ctx, f', hlog, hacc, hctx, -, hf', hfile⟩ := processSet_saved hreq hset
        obtain rfl : f = f' := Option.some.inj (hf.symm.trans hf')
        obtain ⟨bodies, evs', hlog', hacc', hlength, hctx', hfile'⟩ :=
          ih (by rw [hctx]; exact hreq) (by rw [hctx]; exact hf) (Nat.succ_ne_zero _) h
        refine ⟨body :: bodies, evs ++ evs', ?_, ?_, ?_, hctx.trans hctx', ?_⟩
        · rw [hlog', hlog, List.append_assoc]
        · simp [hacc, hacc']
        · simp [hlength]
        · rw [hfile', hfile, if_neg hcount]
          simp
      · rw [if_pos hrv] at h
        exact absurd (Prod.mk.inj h).1 hrv

theorem requestHeader_urls (ctx : Ctx) (urlsKey : String) :
    jsonObjectGetArray (some (requestHeader ctx urlsKey)) urlsKey =
      some (jsonArrayOfStrings ctx.vsidUrlList) := by
  simp [requestHeader, jsonObjectGetArray, jsonValueGetArray]

/-- A successful run in saving mode: the request file is the assembled text of a header
with those URLs that are taken over and one element for each accepted body. -/
theorem processAll_saved {kind : SetKind} {w w' : World} (hreq : w.ctx.vectorReq = true)
    (h : processAll out (processSet out kind) w = (.success, w')) :
    ∃ bodies header f, accepted (since w.log w'.log) = w.ctx.vsidUrlList.zip bodies ∧
      bodies.length = w.ctx.vsidUrlList.length ∧ w.ctx.vectorReqFile = some f ∧
      jsonObjectGetArray (some header) kind.urlsKey =
        some (jsonArrayOfStrings w.ctx.vsidUrlList) ∧
      w'.files f = some (.lbrack :: (Json.obj header).tokens ++
        (bodies.map (bodyElement kind.element)).flatMap appendTokens ++ [.rbrack]) := by
  rw [processAll, getCtx_bind] at h
  cases hurls : w.ctx.vsidUrlList with
  | nil =>
      rw [if_pos hurls] at h
      cases (Prod.mk.inj h).1
  | cons url urls =>
      rw [if_neg (by simp [hurls]), hurls] at h
      obtain ⟨⟨rv, w₁⟩, hset⟩ : ∃ p, processSet out kind url 0 w = p := ⟨_, rfl⟩
      obtain ⟨⟨rv', w₂⟩, hrest⟩ : ∃ p, processUrls (processSet out kind) (url :: urls) 0 w = p :=
        ⟨_, rfl⟩
      rw [Prog.bind_of_eq hrest] at h
      by_cases hrv' : rv' = .success
      · subst hrv'
        rw [processUrls, Prog.bind_of_eq hset] at hrest
        by_cases hrv : rv = .success
        · subst hrv
          rw [if_neg (by simp)] at hrest
          obtain ⟨body, evs, ctx, f, hlog, hacc, hctx, hctx', hf, hfile⟩ :=
            processSet_saved hreq hset
          obtain ⟨bodies, evs', hlog', hacc', hlength, hctx'', hfile'⟩ :=
            processUrls_saved (by rw [hctx]; exact hreq) (by rw [hctx]; exact hf)
              (Nat.succ_ne_zero 0) hrest
          have hctx₂ := hctx.trans hctx''
          have hreq₂ : w₂.ctx.vectorReq = true := by
            rw [hctx₂]
            exact hreq
          rw [if_neg (by simp), getCtx_bind, if_pos hreq₂] at h
          obtain ⟨f', hf', rfl⟩ := jsonSerializeToFilePrettyA_success h
          obtain rfl : f = f' := by
            rw [hctx₂] at hf'
            exact Option.some.inj (hf.symm.trans hf')
          refine ⟨body :: bodies, requestHeader ctx kind.urlsKey, f, ?_, ?_, hf, ?_, ?_⟩
          · simp [hlog', hlog, List.append_assoc, hacc, hacc']
          · simp [hlength]
          · rw [requestHeader_urls, hctx', hurls]
          · simp [hfile', hfile, appendTokens]
        · rw [if_pos hrv] at hrest
          exact absurd (Prod.mk.inj hrest).1 hrv
      · rw [if_pos hrv'] at h
        exact absurd (Prod.mk.inj h).1 hrv'

/-! ## Well-formedness -/

/-- The request file of a run parses as one array: a header object whose URL array is the
list of URLs, followed by the set retrieved for each URL.  The set of a body is the
element that is processed online. -/
def RequestFileWellFormed (urlsKey : String) (w w' : World) : Prop :=
  ∃ f text header sets, w.ctx.vectorReqFile = some f ∧ w'.files f = some text ∧
    Json.parse text = some (.arr (.obj header :: sets)) ∧
    jsonObjectGetArray (some header) urlsKey = some (w.ctx.vsidUrlList.map .str) ∧
    (accepted (since w.log w'.log)).map Prod.fst = w.ctx.vsidUrlList ∧
    sets.map some = (accepted (since w.log w'.log)).map fun x => bodyElement 0 x.2

/-- The element that is saved is there, and it is the set. -/
def SavesSet (index : Nat) (body : Json) : Prop :=
  ∃ v, bodyElement 0 body = some v ∧ bodyElement index body = some v

/-- The request file of either kind is well formed exactly when every URL is UTF-8 and every
accepted body carries its set in the element that is saved. -/
theorem processAll_wellFormed_iff (kind : SetKind) {w w' : World}
    (hreq : w.ctx.vectorReq = true)
    (h : processAll out (processSet out kind) w = (.success, w')) :
    RequestFileWellFormed kind.urlsKey w w' ↔
      (∀ url ∈ w.ctx.vsidUrlList, IsText url) ∧
        ∀ x ∈ accepted (since w.log w'.log), SavesSet kind.element x.2 := by
  obtain ⟨bodies, header, f, hacc, hlength, hf, hurls, hfile⟩ := processAll_saved hreq h
  have hfst : (accepted (since w.log w'.log)).map Prod.fst = w.ctx.vsidUrlList := by
    rw [hacc, List.map_fst_zip (by omega)]
  have hsnd : (accepted (since w.log w'.log)).map Prod.snd = bodies := by
    rw [hacc, List.map_snd_zip (by omega)]
  have hset : ((accepted (since w.log w'.log)).map fun x => bodyElement 0 x.2) =
      bodies.map (bodyElement 0) := by
    rw [← hsnd, List.map_map]
    rfl
  have hall : (∀ x ∈ accepted (since w.log w'.log), SavesSet kind.element x.2) ↔
      ∀ b ∈ bodies, SavesSet kind.element b := by
    rw [← hsnd, List.forall_mem_map]
  rw [hall]
  constructor
  · rintro ⟨f', text, header', sets, hf', htext, hparse, hurls', -, hsets⟩
    obtain rfl : f = f' := Option.some.inj (hf.symm.trans hf')
    obtain rfl := Option.some.inj (hfile.symm.trans htext)
    rw [parse_assembled] at hparse
    obtain ⟨rfl, rfl⟩ : header = header' ∧
        writtenElems (bodies.map (bodyElement kind.element)) = sets := by
      simpa using hparse
    refine ⟨jsonArrayOfStrings_eq_iff.mp (Option.some.inj (hurls.symm.trans hurls')), ?_⟩
    rw [hset] at hsets
    have hcount := congrArg List.length hsets
    simp only [List.length_map] at hcount
    have hels := writtenElems_map_some (bodies.map (bodyElement kind.element)) (by simpa using hcount)
    rw [hels] at hsets
    intro b hb
    have hsame : bodyElement kind.element b = bodyElement 0 b :=
      (List.map_inj_left.mp hsets) b hb
    have hsome : bodyElement kind.element b ∈ bodies.map (bodyElement kind.element) :=
      List.mem_map_of_mem hb
    rw [← hels] at hsome
    obtain ⟨v, -, hv⟩ := List.mem_map.mp hsome
    exact ⟨v, hsame ▸ hv.symm, hv.symm⟩
  · rintro ⟨htexts, hsaves⟩
    have hsame : bodies.map (bodyElement kind.element) = bodies.map (bodyElement 0) := by
      rw [List.map_inj_left]
      intro b hb
      obtain ⟨v, hzero, hsaved⟩ := hsaves b hb
      rw [hzero, hsaved]
    have hsome : ∀ el ∈ bodies.map (bodyElement 0), el.isSome := by
      intro el hel
      obtain ⟨b, hb, rfl⟩ := List.mem_map.mp hel
      obtain ⟨v, hzero, -⟩ := hsaves b hb
      simp [hzero]
    obtain ⟨sets, hsets⟩ := exists_map_some _ hsome
    rw [jsonArrayOfStrings_eq_iff.mpr htexts] at hurls
    refine ⟨f, _, header, sets, hf, hfile, ?_, hurls, hfst, ?_⟩
    · rw [parse_assembled, hsame, ← hsets, writtenElems_of_map_some]
    · rw [hset, hsets]

variable (out)

/-- A successful run in saving mode leaves a well-formed request file exactly when every URL
is UTF-8 and every accepted body carries its set in the element that is saved: element 1 for
the vector sets of an algorithm session, element 0 for the evidence sets of a certificate
request. -/
theorem requestFile_wellFormed_iff (w : World) (hreq : w.ctx.vectorReq = true) :
    (∀ w', processTests out w = (.success, w') →
      (RequestFileWellFormed "vectorSetUrls" w w' ↔
        (∀ url ∈ w.ctx.vsidUrlList, IsText url) ∧
          ∀ x ∈ accepted (since w.log w'.log), SavesSet 1 x.2)) ∧
    (∀ w', processAmvpTes out w = (.success, w') →
      (RequestFileWellFormed "ieSetsId" w w' ↔
        (∀ url ∈ w.ctx.vsidUrlList, IsText url) ∧
          ∀ x ∈ accepted (since w.log w'.log), SavesSet 0 x.2)) :=
  ⟨fun _ h => processAll_wellFormed_iff (vsidKind out) hreq h,
    fun _ h => processAll_wellFormed_iff teidKind hreq h⟩

end Sets

/-! ## Bodies with and without the saved element -/

/-- A server that answers every request with a body of one element, as the online
processing expects it. -/
def oneElementServer : List Event → Request → Reply := fun _ _ =>
  ⟨200, some (.arr [.obj [("algorithm", .str "ACVP-AES-GCM"), ("vsId", .num 1)]])⟩

/-- A context that saves the sets of one URL. -/
def savingWorld (url : String) : World :=
  { World.start with
    ctx := { World.start.ctx with
      vectorReq := true
      vectorReqFile := some "req.json"
      vsidUrlList := [url]
      sessionUrl := some "/session/1" } }

/-- A server whose bodies carry the set twice. -/
def twoElementServer : List Event → Request → Reply := fun _ _ =>
  ⟨200, some (.arr [.obj [("vsId", .num 1)], .obj [("vsId", .num 1)]])⟩

/-- Bodies that carry the set in both elements give a well-formed file. -/
theorem requestFile_wellFormed_of_two_elements :
    ∃ w', processTests (.plain twoElementServer) (savingWorld "/vs/1") = (.success, w') ∧
      RequestFileWellFormed "vectorSetUrls" (savingWorld "/vs/1") w' := by
  have hrun : processTests (.plain twoElementServer) (savingWorld "/vs/1") =
      (.success, (processTests (.plain twoElementServer) (savingWorld "/vs/1")).2) := rfl
  have hacc : accepted (since (savingWorld "/vs/1").log
      (processTests (.plain twoElementServer) (savingWorld "/vs/1")).2.log) =
      [("/vs/1", .arr [.obj [("vsId", .num 1)], .obj [("vsId", .num 1)]])] := rfl
  refine ⟨_, hrun, ((requestFile_wellFormed_iff (.plain twoElementServer) (savingWorld "/vs/1")
    rfl).1 _ hrun).mpr ⟨?_, ?_⟩⟩
  · exact List.forall_mem_singleton.mpr (isText_of_ascii (by decide) (by decide))
  · rw [hacc]
    simp [SavesSet, bodyElement, jsonArrayGetValue, jsonValueGetArray]

/-- The run reports success although the request file holds the header only, or a header
without the URL. -/
theorem requestFile_not_wellFormed :
    (∃ w', processTests (.plain oneElementServer) (savingWorld "/vs/1") = (.success, w') ∧
      ¬RequestFileWellFormed "vectorSetUrls" (savingWorld "/vs/1") w') ∧
    ∃ w', processTests (.plain twoElementServer) (savingWorld "/vs/\u00ff") = (.success, w') ∧
      ¬RequestFileWellFormed "vectorSetUrls" (savingWorld "/vs/\u00ff") w' := by
  constructor
  · have hrun : processTests (.plain oneElementServer) (savingWorld "/vs/1") =
        (.success, (processTests (.plain oneElementServer) (savingWorld "/vs/1")).2) := rfl
    refine ⟨_, hrun, fun hwf => ?_⟩
    obtain ⟨-, hsaves⟩ := (processAll_wellFormed_iff (vsidKind (.plain oneElementServer)) rfl
      hrun).mp hwf
    have hacc : accepted (since (savingWorld "/vs/1").log
        (processTests (.plain oneElementServer) (savingWorld "/vs/1")).2.log) =
        [("/vs/1", .arr [.obj [("algorithm", .str "ACVP-AES-GCM"), ("vsId", .num 1)]])] := rfl
    rw [hacc] at hsaves
    obtain ⟨v, -, hsaved⟩ := hsaves _ List.mem_cons_self
    cases hsaved
  · have hrun : processTests (.plain twoElementServer) (savingWorld "/vs/\u00ff") =
        (.success, (processTests (.plain twoElementServer) (savingWorld "/vs/\u00ff")).2) := rfl
    refine ⟨_, hrun, fun hwf => ?_⟩
    obtain ⟨htexts, -⟩ := (processAll_wellFormed_iff (vsidKind (.plain twoElementServer)) rfl
      hrun).mp hwf
    exact not_isText_of_mem (by decide) (htexts "/vs/\u00ff" (by decide))

end LibAmvp
