import LibAmvp.Kat.Des
import LibAmvp.Lib.Carry

/-!
# Independence of the groups of triple-DES

What the groups of a triple-DES vector set have in common are the counters, the keying option and
the tables of the Monte Carlo loops.  When does a part of the groups fare as it would alone,
whatever the crypto module answers?

Main results:

- Theorem {lit}`des_observable`: the handler shows what it reads, and Monte Carlo tests show the
  tables.
- Theorem {lit}`des_parted_iff`: when do groups fare in a row as they would apart?
-/

namespace LibAmvp

open Guard Dialog

/-! ## The handler and the module -/

section Steady

variable (f : SymCipherTc → Int × SymCipherTc)

/-- The inner loop of the Monte Carlo test asks one question after another. -/
theorem steady_desMctCalls (bitLen n j : Nat) (stc : SymCipherTc) (tables : DesTables) :
    Steady f (desMctCalls bitLen n j stc tables) := by
  induction n generalizing j stc tables with
  | zero => exact steady_pure _
  | succ n ih =>
      apply Steady.bind (steady_ask _)
      rintro ⟨code, stc⟩
      apply steady_ite (steady_fail _)
      apply Steady.bind (steady_ofExcept _)
      rintro ⟨stc, tables⟩
      exact ih (j + 1) stc tables

/-- So does the outer loop. -/
theorem steady_desMctRounds (bitLen n : Nat) (stc : SymCipherTc) (tables : DesTables) :
    Steady f (desMctRounds bitLen n stc tables) := by
  induction n generalizing stc tables with
  | zero => exact steady_pure _
  | succ n ih =>
      apply Steady.bind (steady_ofExcept _)
      rintro ⟨rTobj, stc⟩
      apply Steady.bind (steady_desMctCalls f bitLen _ 0 stc tables)
      rintro ⟨stc, tables⟩
      apply Steady.bind (steady_ofExcept _)
      rintro ⟨rTobj, stc⟩
      apply Steady.bind (ih stc tables)
      rintro ⟨rTobjs, tables⟩
      exact steady_pure _

/-- And the Monte Carlo test as a whole. -/
theorem steady_desMctTc (stc : SymCipherTc) (tables : DesTables) :
    Steady f (desMctTc stc tables) := by
  apply Steady.bind (steady_ofExcept _)
  intro bitLen
  exact steady_desMctRounds f bitLen _ stc tables

/-- And the work on any test. -/
theorem steady_desPlay (t : Option JsonObject) (tc : SymCipherTc) (tables : DesTables) :
    Steady f (desPlay t tc tables) := by
  unfold desPlay
  apply steady_ite
  · apply Steady.bind ((steady_desMctTc f tc tables).mapError _)
    rintro ⟨results, tables⟩
    exact steady_pure _
  · exact steady_askOnce (· ≠ 0) tc _
      (fun reply => desOutputTc reply.2 (responseTest t) reply.1) tables

end Steady

/-- What becomes of a test that is no Monte Carlo test. -/
theorem desPlay_single {tc : SymCipherTc} (h : tc.testType ≠ .mct)
    (f : SymCipherTc → Int × SymCipherTc) (t : Option JsonObject) (tables : DesTables) :
    (desPlay t tc tables).yields f =
      if (f tc).1 ≠ 0 then .error .cryptoModuleFail
      else (desOutputTc (f tc).2 (responseTest t) (f tc).1).map (·, tables) := by
  unfold desPlay
  rw [if_neg h]
  exact yields_askOnce (· ≠ 0) tc _
    (fun reply => desOutputTc reply.2 (responseTest t) reply.1) tables

/-- A test that is no Monte Carlo test takes no notice of the tables. -/
theorem desPlay_quiet {tc : SymCipherTc} (h : tc.testType ≠ .mct)
    (f : SymCipherTc → Int × SymCipherTc) (t : Option JsonObject) (tables tables' : DesTables) :
    ((desPlay t tc tables).yields f).toOption.map Prod.fst =
      ((desPlay t tc tables').yields f).toOption.map Prod.fst := by
  rw [desPlay_single h, desPlay_single h]
  split
  · rfl
  · cases desOutputTc (f tc).2 (responseTest t) (f tc).1 <;> rfl

/-- The lengths of a test case let its values be shown at the start of a round. -/
structure DesShowable (stc : SymCipherTc) : Prop where
  iv : 2 * stc.ivLen ≤ symIvMax
  pt : 2 * stc.ptLen ≤ symPtMax ∨ stc.cipher = .tdesCfb1
  ct : 2 * stc.ctLen ≤ symCtMax ∨ stc.cipher = .tdesCfb1

/-- The keys of an answer can always be shown. -/
theorem setDesKeys_ok (rTobj : JsonObject) (key : Memory) :
    ∃ rTobj', setDesKeys rTobj key = .ok rTobj' := by
  unfold setDesKeys
  simp only [memoryToHexstr_ok (show 2 * 8 ≤ 16 by decide) (by decide), ok_bind]
  exact ⟨_, rfl⟩

/-- A test case that can be shown is answered, and keeps its type. -/
theorem desOutputMctTc_ok {stc : SymCipherTc} (h : DesShowable stc) :
    ∃ rTobj stc', desOutputMctTc stc = .ok (rTobj, stc') ∧ stc'.testType = stc.testType := by
  unfold desOutputMctTc
  obtain ⟨rTobj, hkeys⟩ := setDesKeys_ok [] stc.key
  rw [hkeys, ok_bind]
  have hiv : ∃ rTobj', onlyIf (stc.cipher ≠ .tdesEcb)
      (setMemory rTobj "iv" stc.iv stc.ivLen symIvMax) rTobj = .ok rTobj' := by
    by_cases hcipher : stc.cipher ≠ .tdesEcb
    · rw [onlyIf_pos hcipher, setMemory_ok h.iv (by decide)]
      exact ⟨_, rfl⟩
    · exact ⟨_, onlyIf_neg hcipher _ _⟩
  obtain ⟨rTobj, hiv⟩ := hiv
  rw [hiv, ok_bind]
  by_cases hdir : stc.direction = .encrypt
  · rw [if_pos hdir]
    by_cases hcipher : stc.cipher = .tdesCfb1
    · rw [if_pos hcipher]
      dsimp only
      rw [setMemory_ok (by decide) (by decide)]
      exact ⟨_, _, rfl, rfl⟩
    · rw [if_neg hcipher, setMemory_ok (h.pt.resolve_right hcipher) (by decide)]
      exact ⟨_, _, rfl, rfl⟩
  · have hlength : 2 * (if stc.cipher = .tdesCfb1 then 1 else stc.ctLen) ≤ symCtMax := by
      by_cases hcipher : stc.cipher = .tdesCfb1
      · rw [if_pos hcipher]
        decide
      · rw [if_neg hcipher]
        exact h.ct.resolve_right hcipher
    rw [if_neg hdir, setMemory_ok hlength (by decide)]
    exact ⟨_, _, rfl, rfl⟩

/-! ## A module that shows the tables

The module answers every test with the same test case, whose texts are longer than a row.  So
the rows of {lit}`ctext` are not written, and the next round starts with what they hold. -/

/-- A test case that a module may leave. -/
def desShowing (text : UInt8) : SymCipherTc where
  cipher := .tdesCbc
  testType := .mct
  direction := .encrypt
  tcId := 0
  ct := fun _ => text
  keyLen := tdesKeyBitLen
  ptLen := 9
  ctLen := 9
  mctIndex := 1

/-- The test case after a call, when {lit}`ctext` holds this byte. -/
def desShown (byte : UInt8) : SymCipherTc :=
  { desShowing 0 with
    pt := Memory.zero.copy 0 8 (fun _ => byte) 0 8
    iv := Memory.zero.copy 0 8 (fun _ => byte) 8 8 }

/-- The test case at the start of a round. -/
def desShowingNext (byte : UInt8) : SymCipherTc := desMctTurn (desShown byte) {}

/-- The tables show a byte. -/
structure DesTables.Show (byte : UInt8) (tables : DesTables) : Prop where
  ctext : tables.ctext = fun _ => byte
  nk : tables.nk = .zero

/-- A copy that does not fit leaves the memory as it was. -/
theorem Memory.copy_of_lt (dest src : Memory) (at_ from_ : Nat) {destMax n : Nat}
    (h : destMax < n) : dest.copy at_ destMax src from_ n = dest :=
  if_pos h

/-- Shifting zeros into a window of zeros changes nothing. -/
theorem shiftin_zero (nbits : Nat) : shiftin .zero .zero nbits = .zero := by
  have hmoved : (fun n => if n < 3 * 8 - nbits / 8 then Memory.zero (n + nbits / 8)
      else Memory.zero n) = Memory.zero := by
    funext n
    exact ite_self _
  have hcopy (at_ destMax n : Nat) : Memory.zero.copy at_ destMax .zero 0 n = .zero := by
    unfold Memory.copy
    split
    · rfl
    · funext k
      exact ite_self _
  unfold shiftin
  simp only [hmoved, hcopy]
  split
  · funext n
    simp [Memory.zero]
  · rfl

/-- After a call of the showing module one turn of the inner loop keeps what the tables show. -/
theorem desMctIterateTc_showing {byte : UInt8} {tables : DesTables} (h : tables.Show byte) :
    ∃ tables', desMctIterateTc (desShowing 0) tables = .ok (desShown byte, tables') ∧
      tables'.Show byte := by
  have hctext : tables.ctext.copy 8 8 (desShowing 0).ct 0 9 = tables.ctext :=
    Memory.copy_of_lt _ _ _ _ (by decide)
  refine ⟨{ tables with
    ctext := tables.ctext.copy 8 8 (desShowing 0).ct 0 9
    ptext := tables.ptext.copy 8 8 (desShowing 0).pt 0 9 }, ?_, ?_⟩
  · unfold desShown
    rw [← h.ctext, ← hctext]
    rfl
  · rw [hctext]
    exact ⟨h.ctext, h.nk⟩

section Showing

variable {f : SymCipherTc → Int × SymCipherTc}
  (hf : ∀ stc, stc.testType = .mct → f stc = (0, desShowing 0))
include hf

/-- One call and its turn, with the showing module. -/
theorem desMctCalls_step (bitLen n j : Nat) {stc : SymCipherTc} (hstc : stc.testType = .mct)
    {byte : UInt8} {tables : DesTables} (h : tables.Show byte) :
    ∃ tables', (desMctCalls bitLen (n + 1) j stc tables).yields f =
        (desMctCalls bitLen n (j + 1) (desShown byte) tables').yields f ∧ tables'.Show byte := by
  have hreply := hf { stc with mctIndex := j } hstc
  have hask : (ask (ε := AmvpResult) { stc with mctIndex := j }).yields f =
      .ok (0, desShowing 0) := congrArg Except.ok hreply
  -- The first initialization vector of the round is kept.
  generalize hkept : (if j = 0 then { tables with
    oldIv := tables.oldIv.copy 0 8 stc.iv 0 stc.ivLen } else tables) = kept
  have hshow : kept.Show byte := by
    subst hkept
    split
    · exact ⟨h.ctext, h.nk⟩
    · exact h
  have hshifted : { kept with nk := shiftin kept.nk (desShowing 0).ct bitLen }.Show byte := by
    refine ⟨hshow.ctext, ?_⟩
    rw [hshow.nk]
    exact shiftin_zero bitLen
  obtain ⟨tables', hiterate, htables'⟩ := desMctIterateTc_showing hshifted
  refine ⟨tables', ?_, htables'⟩
  rw [desMctCalls]
  simp only [hkept]
  rw [yields_bind_ok hask]
  · simp only [ne_eq, not_true_eq_false, if_false]
    exact yields_ofExcept_bind hiterate _
  · rintro ⟨code, stc⟩
    apply steady_ite (steady_fail _)
    exact Steady.bind (steady_ofExcept _) fun out => steady_desMctCalls f _ _ _ _ _

/-- The inner loop ends as after one call, by induction on the calls. -/
theorem desMctCalls_showing (bitLen n j : Nat) {stc : SymCipherTc} (hstc : stc.testType = .mct)
    {byte : UInt8} {tables : DesTables} (h : tables.Show byte) :
    ∃ tables', (desMctCalls bitLen (n + 1) j stc tables).yields f =
      .ok (desShown byte, tables') ∧ tables'.Show byte := by
  induction n generalizing j stc tables with
  | zero =>
      obtain ⟨tables', hstep, hshow⟩ := desMctCalls_step hf bitLen 0 j hstc h
      exact ⟨tables', hstep, hshow⟩
  | succ n ih =>
      obtain ⟨tables₁, hstep, hshow₁⟩ := desMctCalls_step hf bitLen (n + 1) j hstc h
      have hshown : (desShown byte).testType = .mct := rfl
      obtain ⟨tables', hcalls, hshow⟩ := ih (j + 1) hshown hshow₁
      exact ⟨tables', hstep.trans hcalls, hshow⟩

end Showing

/-- The text that the module leaves, as an answer. -/
def desShowingText (text : UInt8) : String :=
  String.ofList (hexDigits ((desShowing text).ct.read 9))

/-- The turn to the next round leaves what the module shows next. -/
theorem desMctTurn_shown {byte : UInt8} {tables : DesTables} (h : tables.Show byte) :
    desMctTurn (desShown byte) tables = desShowingNext byte := by
  unfold desShowingNext desMctTurn
  rw [h.nk]
  rfl

/-- The text of that answer. -/
theorem desMctText_next (byte : UInt8) (rTobj : JsonObject) :
    desMctText (desShowingNext byte) rTobj =
      .ok (jsonObjectSetText rTobj "ct" (some (desShowingText 0)), desShowingNext byte) := by
  have hct : setMemory rTobj "ct" (desShowingNext byte).ct 9 symCtMax =
      .ok (jsonObjectSetText rTobj "ct" (some (desShowingText 0))) :=
    setMemory_ok (by decide) (by decide)
  change (setMemory rTobj "ct" (desShowingNext byte).ct 9 symCtMax >>= fun rTobj =>
    pure (rTobj, desShowingNext byte)) = _
  rw [hct]
  rfl

/-- What the object of a round is, if the lengths let it be made. -/
def desRound (stc : SymCipherTc) : JsonObject :=
  jsonObjectSetText (((desOutputMctTc stc).toOption.map Prod.fst).getD []) "ct"
    (some (desShowingText 0))

/-- And it can be shown. -/
theorem desShowable_next (byte : UInt8) : DesShowable (desShowingNext byte) := by
  constructor <;> simp [desShowingNext, desMctTurn, desShown, desShowing, symIvMax, symPtMax,
    symCtMax]

section Showing

variable {f : SymCipherTc → Int × SymCipherTc}
  (hf : ∀ stc, stc.testType = .mct → f stc = (0, desShowing 0))
include hf

/-- A round shows what the test case holds at its start. -/
theorem desMctRounds_step (bitLen n : Nat) {stc : SymCipherTc} (hstc : stc.testType = .mct)
    (hshowable : DesShowable stc) {byte : UInt8} {tables : DesTables} (h : tables.Show byte) :
    ∃ tables', tables'.Show byte ∧ (desMctRounds bitLen (n + 1) stc tables).yields f =
      ((desMctRounds bitLen n (desShowingNext byte) tables').yields f).map fun out =>
        (desRound stc :: out.1, out.2) := by
  obtain ⟨rTobj, stc', hout, htype⟩ := desOutputMctTc_ok hshowable
  obtain ⟨tables', hcalls, hshow⟩ :=
    desMctCalls_showing hf bitLen 9999 0 (htype.trans hstc) h
  have hinner : (desMctCalls bitLen desMctInner 0 stc' tables).yields f =
      .ok (desShown byte, tables') := hcalls
  have hround : desRound stc = jsonObjectSetText rTobj "ct" (some (desShowingText 0)) := by
    rw [desRound, hout]
    rfl
  refine ⟨tables', hshow, ?_⟩
  rw [desMctRounds, yields_ofExcept_bind hout, yields_bind_ok hinner]
  · simp only [desMctTurn_shown hshow]
    rw [yields_ofExcept_bind (desMctText_next byte rTobj), hround]
    exact yields_bind_pure _
  · rintro ⟨stc, tables⟩
    apply Steady.bind (steady_ofExcept _)
    rintro ⟨rTobj, stc⟩
    exact Steady.bind (steady_desMctRounds f _ _ _ _) fun out => steady_pure _

/-- All rounds are answered alike, by induction on them. -/
theorem desMctRounds_showing (bitLen n : Nat) {byte : UInt8} {tables : DesTables}
    (h : tables.Show byte) :
    ∃ tables', tables'.Show byte ∧ (desMctRounds bitLen n (desShowingNext byte) tables).yields f =
      .ok (List.replicate n (desRound (desShowingNext byte)), tables') := by
  induction n generalizing tables with
  | zero => exact ⟨tables, h, rfl⟩
  | succ n ih =>
      have htype : (desShowingNext byte).testType = .mct := rfl
      obtain ⟨tables₁, hshow₁, hstep⟩ :=
        desMctRounds_step hf bitLen n htype (desShowable_next byte) h
      obtain ⟨tables', hshow, hrounds⟩ := ih hshow₁
      refine ⟨tables', hshow, ?_⟩
      rw [hstep, hrounds, List.replicate_succ]
      rfl

/-- What the rounds of a Monte Carlo test are, when the tables show this byte. -/
def desShowingRounds (byte : UInt8) (tc : SymCipherTc) : List JsonObject :=
  desRound tc :: List.replicate 399 (desRound (desShowingNext byte))

/-- A Monte Carlo test shows the tables. -/
theorem desPlay_mct (t : Option JsonObject) {tc : SymCipherTc} (htype : tc.testType = .mct)
    (hshowable : DesShowable tc) {bitLen : Nat} (hbitLen : desBitLen tc.cipher = some bitLen)
    {byte : UInt8} {tables : DesTables} (h : tables.Show byte) :
    ∃ tables', (desPlay t tc tables).yields f =
        .ok (jsonObjectSetValue (responseTest t) "resultsArray"
          (.arr ((desShowingRounds byte tc).map .obj)), tables') ∧ tables'.Show byte := by
  obtain ⟨tables₁, hshow₁, hstep⟩ := desMctRounds_step hf bitLen 399 htype hshowable h
  obtain ⟨tables', hshow, hrounds⟩ := desMctRounds_showing hf bitLen 399 hshow₁
  refine ⟨tables', ?_, hshow⟩
  have htc : (desMctTc tc tables).yields f = .ok (desShowingRounds byte tc, tables') := by
    unfold desMctTc
    rw [hbitLen]
    exact hstep.trans (congrArg _ hrounds)
  unfold desPlay
  rw [if_pos htype]
  change yields f ((desMctTc tc tables).mapError (fun _ => AmvpResult.cryptoModuleFail) >>=
    fun out => pure (jsonObjectSetValue (responseTest t) "resultsArray" (.arr (out.1.map .obj)),
      out.2)) = _
  rw [yields_bind_pure, yields_mapError, htc]
  rfl

end Showing

/-- A Monte Carlo test whose cipher has no number of bits fails. -/
theorem desPlay_doomed (f : SymCipherTc → Int × SymCipherTc) (t : Option JsonObject)
    {tc : SymCipherTc} (htype : tc.testType = .mct) (hbitLen : desBitLen tc.cipher = none)
    (tables : DesTables) : ((desPlay t tc tables).yields f).toOption = none := by
  have htc : (desMctTc tc tables).yields f = .error .unsupportedOp := by
    unfold desMctTc
    rw [hbitLen]
    rfl
  unfold desPlay
  rw [if_pos htype]
  change (yields f ((desMctTc tc tables).mapError (fun _ => AmvpResult.cryptoModuleFail) >>=
    fun out => pure (jsonObjectSetValue (responseTest t) "resultsArray" (.arr (out.1.map .obj)),
      out.2))).toOption = none
  rw [yields_bind_pure, yields_mapError, htc]
  rfl

/-! ## Probes -/

/-- What the groups leave open of a test case. -/
structure DesReady (algId : Cipher) (group : DesGroup) (tc : SymCipherTc) : Prop where
  cipher : tc.cipher = algId
  testType : tc.testType = group.testType
  showable : DesShowable tc

/-- What is shown tells two bytes in the tables apart. -/
theorem desShowingRounds_ne (tc : SymCipherTc) :
    desShowingRounds 0 tc ≠ desShowingRounds 1 tc := by
  have htexts : jsonObjectGetString (some (desRound (desShowingNext 0))) "pt" ≠
      jsonObjectGetString (some (desRound (desShowingNext 1))) "pt" := by
    decide +kernel
  intro hsame
  have hround := List.replicate_right_injective (by decide) (List.cons.inj hsame).2
  exact htexts (by rw [hround])

/-- Another test shows whether it is marked. -/
theorem desPlay_marked (marked : SymCipherTc) (t : Option JsonObject) {tc : SymCipherTc}
    (htype : tc.testType ≠ .mct) (rounds : SymCipherTc → List JsonObject) (tables : DesTables) :
    (desPlay t tc tables).yields (symProbe desShowing marked) =
      .ok (symProbed rounds desShowingText marked t tc, tables) := by
  have hlength : 2 * 9 ≤ symCtMax := by decide
  have hout (text : UInt8) : desOutputTc (desShowing text) (responseTest t) 0 =
      .ok (jsonObjectSetText (responseTest t) "ct" (some (desShowingText text))) :=
    setMemory_ok hlength (by decide)
  have hplayed := desPlay_single htype (symProbe desShowing marked) t tables
  rw [symProbe_single _ _ htype, if_neg (by simp), hout] at hplayed
  rw [hplayed, symProbed, if_neg htype]
  rfl

/-- Every test that does not fail is answered with what it shows. -/
theorem des_probes (algId : Cipher) (marked : SymCipherTc) (byte : UInt8) :
    (desPlayer algId).Probes (fun group => group.testType = .mct ∧ desBitLen algId = none)
      (DesReady algId) (symProbe desShowing marked) (DesTables.Show byte)
      fun _ t tc => symProbed (desShowingRounds byte) desShowingText marked t tc := by
  intro group t tc tables hdoomed hready hshow
  by_cases hmct : tc.testType = .mct
  · have hcipher : desBitLen tc.cipher ≠ none := by
      rw [hready.cipher]
      exact fun hnone => hdoomed ⟨hready.testType.symm.trans hmct, hnone⟩
    obtain ⟨bitLen, hbitLen⟩ := Option.ne_none_iff_exists'.mp hcipher
    obtain ⟨tables', hplay, hshow'⟩ := desPlay_mct (fun _ => symProbe_mct desShowing marked) t hmct
      hready.showable hbitLen hshow
    refine ⟨tables', ?_, hshow'⟩
    dsimp only
    rw [symProbed_mct _ _ _ _ hmct]
    exact hplay
  · exact ⟨tables, desPlay_marked marked t hmct _ tables, hshow⟩

/-! ## Reading -/

/-- What a group sets the counters to. -/
def desSetsCounters (b : TestGroup) : Option (Nat × Nat) :=
  if jsonObjectGetString b.head "testType" = some "CTR" then
    some (unsignedOfInt (jsonObjectGetBoolean b.head "incrementalCounter"),
      unsignedOfInt (jsonObjectGetBoolean b.head "overflowCounter"))
  else none

/-- What a group sets the keying option to. -/
def desSetsKeyingOption (b : TestGroup) : Option Nat :=
  if jsonObjectGetValue b.head "keyingOption" ≠ none then
    some (toUnsigned (jsonObjectGetNumber b.head "keyingOption"))
  else none

/-- The counters that the variables hold. -/
def DesVars.counters (vars : DesVars) : Nat × Nat := (vars.incrCtr, vars.ovrflwCtr)

/-- The variables that a group leaves. -/
def desLeaves (vars : DesVars) (b : TestGroup) : DesVars where
  incrCtr := (Carry.settle desSetsCounters vars.counters b).1
  ovrflwCtr := (Carry.settle desSetsCounters vars.counters b).2
  keyingOption := Carry.settle desSetsKeyingOption vars.keyingOption b

/-- The counter mode is read from its own name only. -/
theorem readTestType_eq_ctr {str : String} : readTestType str = some .ctr ↔ str = "CTR" := by
  unfold readTestType
  split <;> simp_all

/-- The counters of a group are read alike whatever the variables were. -/
theorem readDesCounters_cases {vars vars₁ : DesVars} {b : TestGroup} {testType : SymCiphTestType}
    (htype : readDesName readTestType b.head "testType" = .ok testType)
    (h : onlyIf (testType = .ctr) (readDesCounters vars b.head) vars = .ok vars₁)
    (vars' : DesVars) :
    onlyIf (testType = .ctr) (readDesCounters vars' b.head) vars' =
      .ok { vars' with
        incrCtr := (Carry.settle desSetsCounters vars'.counters b).1
        ovrflwCtr := (Carry.settle desSetsCounters vars'.counters b).2 } := by
  simp only [readDesName, bind_eq_ok, need_eq_ok] at htype
  obtain ⟨str, hstr, htype⟩ := htype
  by_cases hctr : testType = .ctr
  · rw [onlyIf_pos hctr] at h ⊢
    have hsets : desSetsCounters b = some (unsignedOfInt (jsonObjectGetBoolean b.head
        "incrementalCounter"), unsignedOfInt (jsonObjectGetBoolean b.head "overflowCounter")) := by
      rw [hctr, readTestType_eq_ctr] at htype
      rw [desSetsCounters, hstr, htype]
      rfl
    simp only [readDesCounters, bind_eq_ok, stopIf_eq_ok, exists_unit] at h
    rw [readDesCounters, stopIf_neg h.1, ok_bind, stopIf_neg h.2.1, ok_bind,
      Carry.settle_of_some hsets]
    rfl
  · have hsets : desSetsCounters b = none := by
      have hname : str ≠ "CTR" := by
        intro hname
        rw [← readTestType_eq_ctr, htype] at hname
        exact hctr (Option.some.inj hname)
      rw [desSetsCounters, hstr, if_neg (by simpa using hname)]
    rw [onlyIf_neg hctr, Carry.settle_of_none hsets]
    rfl

/-- The keying option of a group is read alike whatever the variables were. -/
theorem readDesKeyingOption_cases {vars vars₁ : DesVars} {b : TestGroup}
    (h : onlyIf (jsonObjectGetValue b.head "keyingOption" ≠ none)
      (readDesKeyingOption vars b.head) vars = .ok vars₁) (vars' : DesVars) :
    onlyIf (jsonObjectGetValue b.head "keyingOption" ≠ none)
        (readDesKeyingOption vars' b.head) vars' =
      .ok { vars' with
        keyingOption := Carry.settle desSetsKeyingOption vars'.keyingOption b } := by
  by_cases hgiven : jsonObjectGetValue b.head "keyingOption" ≠ none
  · rw [onlyIf_pos hgiven] at h ⊢
    simp only [readDesKeyingOption, bind_eq_ok, stopIf_eq_ok, exists_unit] at h
    have hsets : desSetsKeyingOption b =
        some (toUnsigned (jsonObjectGetNumber b.head "keyingOption")) := if_pos hgiven
    rw [readDesKeyingOption, stopIf_neg h.1, ok_bind, Carry.settle_of_some hsets]
    rfl
  · have hsets : desSetsKeyingOption b = none := if_neg hgiven
    rw [onlyIf_neg hgiven, Carry.settle_of_none hsets]

/-- A group is read alike whatever the variables were. -/
theorem readDesGroup_cases {vars vars₁ : DesVars} {b : TestGroup} {group : DesGroup}
    (h : readDesGroup vars b.head = .ok (group, vars₁)) (vars' : DesVars) :
    readDesGroup vars' b.head = .ok (group, desLeaves vars' b) := by
  simp only [readDesGroup, bind_eq_ok, pure_eq_ok] at h
  obtain ⟨tgId, htgId, dir, hdir, testType, htype, vars₂, hcounters, vars₃, hkeying, hsame⟩ := h
  cases hsame
  rw [readDesGroup, htgId, ok_bind, hdir, ok_bind, htype, ok_bind,
    readDesCounters_cases htype hcounters vars', ok_bind, readDesKeyingOption_cases hkeying,
    ok_bind]
  rfl

/-- A group that was read is a Monte Carlo group exactly when its object says so. -/
theorem readDesGroup_mct {vars vars₁ : DesVars} {groupobj : Option JsonObject} {group : DesGroup}
    (h : readDesGroup vars groupobj = .ok (group, vars₁)) :
    group.testType = .mct ↔ IsMct groupobj := by
  simp only [readDesGroup, readDesName, bind_eq_ok, need_eq_ok] at h
  obtain ⟨tgId, -, dir, -, testType, ⟨str, hstr, htype⟩, vars₂, -, vars₃, -, hsame⟩ := h
  cases hsame
  rw [IsMct, hstr, Option.some.injEq, ← readTestType_eq_mct, htype, Option.some.injEq]

/-- A test case with the variables of the handler. -/
def withDesVars (tc : SymCipherTc) (vars : DesVars) : SymCipherTc :=
  { tc with
    incrCtr := vars.incrCtr
    ovrflwCtr := vars.ovrflwCtr
    keyingOption := vars.keyingOption }

/-- A test case shows the variables it was given. -/
theorem withDesVars_inj (tc : SymCipherTc) {vars vars' : DesVars}
    (h : withDesVars tc vars = withDesVars tc vars') : vars = vars' := by
  cases vars
  cases vars'
  simpa [withDesVars] using h

section Tests

variable {algId : Cipher} {vars vars₁ : DesVars} {group : DesGroup} {t : Option JsonObject}
  {tc : SymCipherTc}

/-- A test is read alike whatever the variables are; the test case holds them. -/
theorem readDesTest_cases (h : readDesTest algId vars group t = .ok tc) (vars' : DesVars) :
    readDesTest algId vars' group t = .ok (withDesVars tc vars') ∧ withDesVars tc vars = tc := by
  simp only [readDesTest, desInitTc, bind_eq_ok, pure_eq_ok] at h ⊢
  obtain ⟨key1, hkey1, key2, hkey2, key3, hkey3, pt, hpt, ct, hct, iv, hiv, keyBytes, hkeyBytes,
    ptBytes, hptBytes, ctBytes, hctBytes, ivBytes, hivBytes, rfl⟩ := h
  exact ⟨⟨key1, hkey1, key2, hkey2, key3, hkey3, pt, hpt, ct, hct, iv, hiv, keyBytes, hkeyBytes,
    ptBytes, hptBytes, ctBytes, hctBytes, ivBytes, hivBytes, rfl⟩, rfl⟩

/-- Two values of the variables are read as the same test case only when they are the same. -/
theorem readDesTest_same_iff {vars' : DesVars} (h : readDesTest algId vars group t = .ok tc) :
    readDesTest algId vars' group t = .ok tc ↔ vars' = vars := by
  obtain ⟨hread, hself⟩ := readDesTest_cases h vars'
  rw [hread, Except.ok.injEq]
  constructor
  · intro hsame
    rw [← hself] at hsame
    exact withDesVars_inj tc hsame
  · rintro rfl
    exact hself

/-- The bits of a text are at most those of the longest string. -/
theorem readDesText_bits {name : String} {strMax : Nat} {text : String × Nat}
    (h : readDesText algId t name strMax = .ok text) (halg : algId ≠ .tdesCfb1) :
    text.2 ≤ strMax * 4 := by
  simp only [readDesText, bind_eq_ok, pure_eq_ok] at h
  obtain ⟨str, hstr, rfl⟩ := h
  have hlength := (readString_ok hstr).2
  dsimp only
  rw [if_neg (fun hcfb => halg hcfb.1)]
  omega

/-- The bits of a text that may not be read. -/
theorem readDesText_optional {c : Prop} [Decidable c] {name : String} {strMax : Nat}
    {text : Option (String × Nat)}
    (h : onlyIf c ((readDesText algId t name strMax).map some) none = .ok text)
    (halg : algId ≠ .tdesCfb1) : (text.map Prod.snd).getD 0 ≤ strMax * 4 := by
  rcases onlyIf_cases h with ⟨-, hread⟩ | ⟨-, rfl⟩
  · obtain ⟨pair, hpair, rfl⟩ := map_eq_ok.mp hread
    exact readDesText_bits hpair halg
  · exact Nat.zero_le _

/-- A test case that was read can be shown at the start of a round. -/
theorem desReady_of_read (h : readDesTest algId vars group t = .ok tc) :
    DesReady algId group tc := by
  simp only [readDesTest, desInitTc, bind_eq_ok, pure_eq_ok] at h
  obtain ⟨key1, -, key2, -, key3, -, pt, hpt, ct, hct, iv, -, keyBytes, -, ptBytes, -, ctBytes, -,
    ivBytes, -, rfl⟩ := h
  refine ⟨rfl, rfl, ⟨?_, ?_, ?_⟩⟩
  · dsimp only
    split <;> decide
  · rw [or_iff_not_imp_right]
    intro hcipher
    have hbits := readDesText_optional hpt hcipher
    dsimp only at hcipher ⊢
    rw [if_neg hcipher]
    simp only [symPtMax] at hbits ⊢
    omega
  · rw [or_iff_not_imp_right]
    intro hcipher
    have hbits := readDesText_optional hct hcipher
    dsimp only at hcipher ⊢
    rw [if_neg hcipher]
    simp only [symCtMax] at hbits ⊢
    omega

end Tests

/-! ## What the handler shows -/

/-- Reading a group leaves its variables. -/
theorem desPlayer_enter {algId : Cipher} {vars vars₁ : DesVars} {b : TestGroup} {n : Nat}
    {group : DesGroup} (h : (desPlayer algId).enter vars b.head n = .ok (group, vars₁)) :
    vars₁ = desLeaves vars b := by
  have hsame := readDesGroup_cases h vars
  rw [show readDesGroup vars b.head = .ok (group, vars₁) from h] at hsame
  exact (Prod.mk.inj (Except.ok.inj hsame)).2

/-- The handler of triple-DES shows what it reads of each test, and the tables in the answers to
Monte Carlo tests. -/
theorem des_observable (algId : Cipher) :
    (desPlayer algId).Observable (fun group => group.testType = .mct)
      (fun group => group.testType = .mct ∧ desBitLen algId = none) (DesReady algId)
      (fun _ _ => True) where
  steady f _ t q k := steady_desPlay f t q k
  enter_eq {_ groupobj _ _ _} h vars' := by
    have hcases := @readDesGroup_cases _ _ ⟨groupobj, []⟩ _ h vars'
    exact ⟨_, hcases⟩
  start_le _ := trivial
  enter_le _ _ _ := trivial
  load_le {vars _ _ _ _ _} _ h := by
    obtain ⟨tc, hread, -⟩ := map_eq_ok.mp h
    exact ⟨_, _, map_eq_ok.mpr ⟨_, (readDesTest_cases hread vars).1, rfl⟩, trivial⟩
  ready _ h := by
    obtain ⟨tc, hread, hsame⟩ := map_eq_ok.mp h
    cases hsame
    exact desReady_of_read hread
  quiet hquiet hready f t k k' := desPlay_quiet (hready.testType ▸ hquiet) f t k k'
  fails hdoomed hready f t k := desPlay_doomed f t (hready.testType.trans hdoomed.1)
    (hready.cipher ▸ hdoomed.2) k
  shown marked := by
    have hshow (byte : UInt8) : ∃ tables : DesTables, tables.Show byte :=
      ⟨{ ctext := fun _ => byte }, rfl, rfl⟩
    have htext : desShowingText 0 ≠ desShowingText 1 := by
      decide +kernel
    exact shows_of_probes (fun group _ (h : DesReady algId group _) => h.testType) hshow
      desShowingRounds_ne htext marked (des_probes algId marked)
  close_inj := responseGroup_inj (by decide)

/-! ## Groups in a row -/

/-- The groups that have tests. -/
def HasTests (b : TestGroup) : Prop := b.items ≠ []

/-- Two values of the variables make no difference to groups in a row. -/
def DesAlike (vars vars' : DesVars) (bs : List TestGroup) : Prop :=
  Carry.Agrees desSetsCounters HasTests vars.counters vars'.counters bs ∧
    Carry.Agrees desSetsKeyingOption HasTests vars.keyingOption vars'.keyingOption bs

/-- Groups are read alike when the first one is and then the rest. -/
theorem desAlike_cons (vars vars' : DesVars) (b : TestGroup) (bs : List TestGroup) :
    DesAlike vars vars' (b :: bs) ↔ (HasTests b → desLeaves vars b = desLeaves vars' b) ∧
      DesAlike (desLeaves vars b) (desLeaves vars' b) bs := by
  have hsame : desLeaves vars b = desLeaves vars' b ↔
      Carry.settle desSetsCounters vars.counters b = Carry.settle desSetsCounters vars'.counters b ∧
        Carry.settle desSetsKeyingOption vars.keyingOption b =
          Carry.settle desSetsKeyingOption vars'.keyingOption b := by
    rw [Prod.ext_iff, desLeaves, desLeaves, DesVars.mk.injEq, and_assoc]
  rw [hsame]
  unfold DesAlike
  rw [Carry.Agrees, Carry.Agrees]
  constructor
  · rintro ⟨⟨hcounters, hcounterss⟩, hkeying, hkeyings⟩
    exact ⟨fun htests => ⟨hcounters htests, hkeying htests⟩, hcounterss, hkeyings⟩
  · rintro ⟨hboth, hcounterss, hkeyings⟩
    exact ⟨⟨fun htests => (hboth htests).1, hcounterss⟩, fun htests => (hboth htests).2, hkeyings⟩

/-- The variables that groups leave. -/
theorem foldl_desLeaves (vars : DesVars) (bs : List TestGroup) :
    (bs.foldl desLeaves vars).counters = Carry.lastSet desSetsCounters vars.counters bs ∧
      (bs.foldl desLeaves vars).keyingOption =
        Carry.lastSet desSetsKeyingOption vars.keyingOption bs := by
  induction bs generalizing vars with
  | nil => exact ⟨rfl, rfl⟩
  | cons b bs ih => exact ih (desLeaves vars b)

section Runs

variable {algId : Cipher} {vars vars' vars₀ : DesVars}

/-- Reading tests leaves the variables as they were. -/
theorem desScriptItems_leaves {group : DesGroup} {ts : List (Option JsonObject)}
    {items : List (Option JsonObject × SymCipherTc)}
    (h : ((desPlayer algId).scriptItems group vars ts).toOption = some (items, vars')) :
    vars' = vars := by
  induction ts generalizing items with
  | nil =>
      cases h
      rfl
  | cons t ts ih =>
      obtain ⟨tc, vars₁, rest, hload, hrest, -⟩ := Player.scriptItems_cons_eq_some.mp h
      obtain ⟨tc', -, hsame⟩ := map_eq_ok.mp hload
      cases hsame
      exact ih hrest

/-- The tests of a group are read alike exactly when there are none, or the variables are the
same. -/
theorem desScriptItems_same_iff {group : DesGroup} {ts : List (Option JsonObject)}
    {items : List (Option JsonObject × SymCipherTc)} {out₀ : DesVars}
    (h₀ : ((desPlayer algId).scriptItems group vars₀ ts).toOption = some (items, out₀)) :
    (∃ out, ((desPlayer algId).scriptItems group vars ts).toOption = some (items, out)) ↔
      (ts ≠ [] → vars = vars₀) := by
  cases ts with
  | nil =>
      cases h₀
      exact iff_of_true ⟨vars, rfl⟩ fun h => absurd rfl h
  | cons t ts =>
      constructor
      · rintro ⟨out, h⟩ -
        obtain ⟨tc, vars₁, rest, hload₀, -, rfl⟩ := Player.scriptItems_cons_eq_some.mp h₀
        obtain ⟨tc', vars₂, rest', hload, -, heq⟩ := Player.scriptItems_cons_eq_some.mp h
        cases heq
        obtain ⟨tc₀, hread₀, hsame₀⟩ := map_eq_ok.mp hload₀
        obtain ⟨tc', hread, hsame⟩ := map_eq_ok.mp hload
        cases hsame₀
        cases hsame
        exact (readDesTest_same_iff hread₀).mp hread
      · intro hvars
        obtain rfl := hvars (List.cons_ne_nil t ts)
        exact ⟨out₀, h₀⟩

/-- Reading groups leaves the variables of the last one that has any. -/
theorem desScript_leaves {bs : List TestGroup}
    {scenes : List (DesGroup × List (Option JsonObject × SymCipherTc))}
    (h : ((desPlayer algId).script vars bs).toOption = some (scenes, vars')) :
    vars' = bs.foldl desLeaves vars := by
  induction bs generalizing vars scenes with
  | nil =>
      cases h
      rfl
  | cons b bs ih =>
      obtain ⟨group, vars₁, items, vars₂, rest, henter, hitems, hrest, -⟩ :=
        Player.script_cons_eq_some.mp h
      rw [desScriptItems_leaves hitems, desPlayer_enter henter] at hrest
      exact ih hrest

/-- Groups are read alike exactly when those that have tests find the same variables. -/
theorem desScript_same_iff {bs : List TestGroup}
    {scenes : List (DesGroup × List (Option JsonObject × SymCipherTc))} {out₀ : DesVars}
    (h₀ : ((desPlayer algId).script vars₀ bs).toOption = some (scenes, out₀)) :
    (∃ out, ((desPlayer algId).script vars bs).toOption = some (scenes, out)) ↔
      DesAlike vars vars₀ bs := by
  induction bs generalizing vars vars₀ scenes with
  | nil =>
      cases h₀
      exact iff_of_true ⟨vars, rfl⟩ ⟨trivial, trivial⟩
  | cons b bs ih =>
      obtain ⟨group, vars₁, items, vars₂, rest, henter₀, hitems₀, hrest₀, rfl⟩ :=
        Player.script_cons_eq_some.mp h₀
      have henter : (desPlayer algId).enter vars b.head b.items.length =
          .ok (group, desLeaves vars b) := readDesGroup_cases henter₀ vars
      obtain rfl := desPlayer_enter henter₀
      obtain rfl := desScriptItems_leaves hitems₀
      rw [desAlike_cons, HasTests, ← desScriptItems_same_iff hitems₀, ← ih hrest₀]
      constructor
      · rintro ⟨out, h⟩
        obtain ⟨group', vars₃, items', vars₄, rest', henter', hitems, hrest, heq⟩ :=
          Player.script_cons_eq_some.mp h
        cases heq
        rw [henter] at henter'
        cases henter'
        obtain rfl := desScriptItems_leaves hitems
        exact ⟨⟨_, hitems⟩, out, hrest⟩
      · rintro ⟨⟨vars₃, hitems⟩, out, hrest⟩
        obtain rfl := desScriptItems_leaves hitems
        exact ⟨out, Player.script_cons_eq_some.mpr
          ⟨group, _, items, _, rest, henter, hitems, hrest, rfl⟩⟩

end Runs

/-- Neither part has Monte Carlo tests.  When the first part leaves counters or a keying option
other than zero, then the groups of the second part that have tests have their own, or one has
that comes before. -/
structure DesApart (bs bs' : List TestGroup) : Prop where
  noMct : NoMct bs
  noMct' : NoMct bs'
  ownCounters : Carry.Own desSetsCounters HasTests (0, 0) bs bs'
  ownKeyingOption : Carry.Own desSetsKeyingOption HasTests 0 bs bs'

/-- The groups of a triple-DES vector set fare in a row as they would apart exactly when a part
cannot be read, when there are Monte Carlo tests of a cipher that has none, or when no group feels
another. -/
theorem des_parted_iff (algId : Cipher) (bs bs' : List TestGroup) :
    (∀ f k k₁ k₂, Player.Parted
      (((desPlayer algId).worker k).result (.memoryless f) (bs ++ bs')).toOption
      (((desPlayer algId).worker k₁).result (.memoryless f) bs).toOption
      (((desPlayer algId).worker k₂).result (.memoryless f) bs').toOption) ↔
    ((desPlayer algId).Readable bs → (desPlayer algId).Readable bs' →
      desBitLen algId = none ∧ ¬(NoMct bs ∧ NoMct bs') ∨ DesApart bs bs') := by
  rw [Player.parted_iff (des_observable algId)]
  have hmct {vars vars' : DesVars} {groupobj : Option JsonObject} {n : Nat} {group : DesGroup}
      (h : (desPlayer algId).enter vars groupobj n = .ok (group, vars')) :
      group.testType = .mct ↔ IsMct groupobj := readDesGroup_mct h
  -- The second part is read alike when no variable that it uses was changed.
  have hsame {scenes scenes' s s'}
      (h : ((desPlayer algId).script {} bs).toOption = some (scenes, s))
      (h' : ((desPlayer algId).script {} bs').toOption = some (scenes', s')) :
      (∃ s'', ((desPlayer algId).script s bs').toOption = some (scenes', s'')) ↔
        Carry.Own desSetsCounters HasTests (0, 0) bs bs' ∧
          Carry.Own desSetsKeyingOption HasTests 0 bs bs' := by
    obtain ⟨hcounters, hkeying⟩ := foldl_desLeaves {} bs
    rw [desScript_same_iff h', desScript_leaves h, DesAlike, hcounters, hkeying, Carry.own_iff,
      Carry.own_iff]
    rfl
  -- Tests are doomed when they are Monte Carlo tests of a cipher that has none.
  have hdoomed {vars bs scenes s}
      (h : ((desPlayer algId).script vars bs).toOption = some (scenes, s)) :
      Player.Avoids (fun group => group.testType = .mct ∧ desBitLen algId = none) scenes ↔
        (desBitLen algId = none → NoMct bs) := by
    rw [NoMct, ← Player.avoids_iff_of_script hmct h]
    unfold Player.Avoids
    tauto
  constructor
  · rintro hall ⟨⟨scenes, s⟩, h⟩ ⟨⟨scenes', s'⟩, h'⟩
    rw [← Player.toOption_eq_some] at h h'
    by_cases hboth : desBitLen algId = none → NoMct bs ∧ NoMct bs'
    · obtain ⟨havoids, havoids', hread⟩ := hall scenes s scenes' s' h h'
        ((hdoomed h).mpr fun hnone => (hboth hnone).1)
        ((hdoomed h').mpr fun hnone => (hboth hnone).2)
      obtain ⟨hcounters, hkeying⟩ := (hsame h h').mp hread
      exact .inr ⟨(Player.avoids_iff_of_script hmct h).mp havoids,
        (Player.avoids_iff_of_script hmct h').mp havoids', hcounters, hkeying⟩
    · exact .inl (Classical.not_imp.mp hboth)
  · intro happly scenes s scenes' s' h h' hspared hspared'
    rcases happly ⟨_, Player.toOption_eq_some.mp h⟩ ⟨_, Player.toOption_eq_some.mp h'⟩ with
      ⟨hnone, hmcts⟩ | hapart
    · exact absurd ⟨(hdoomed h).mp hspared hnone, (hdoomed h').mp hspared' hnone⟩ hmcts
    · exact ⟨(Player.avoids_iff_of_script hmct h).mpr hapart.noMct,
        (Player.avoids_iff_of_script hmct h').mpr hapart.noMct',
        (hsame h h').mpr ⟨hapart.ownCounters, hapart.ownKeyingOption⟩⟩

end LibAmvp
