import LibAmvp.Kat.AesReading

/-!
# Independence of the groups of AES

What the groups of an AES vector set have in common are the variables {lit}`readIv` and
{lit}`seq_num` and the tables of the Monte Carlo loops.  When does a part of the groups fare as
it would alone, whatever the crypto module answers?

Main results:

- Theorem {lit}`aes_observable`: the handler shows what it reads, and Monte Carlo tests show the
  tables.
-/

namespace LibAmvp

open Guard Dialog

/-! ## The handler and the module -/

section Steady

variable (f : SymCipherTc → Int × SymCipherTc)

/-- The inner loop of the Monte Carlo test asks one question after another. -/
theorem steady_aesMctCalls (i n j : Nat) (stc : SymCipherTc) (tables : AesTables) :
    Steady f (aesMctCalls i n j stc tables) := by
  induction n generalizing j stc tables with
  | zero => exact steady_pure _
  | succ n ih =>
      apply Steady.bind (steady_ask _)
      rintro ⟨code, stc⟩
      apply steady_ite (steady_fail _)
      apply Steady.bind (steady_ofExcept _)
      rintro ⟨stc, tables⟩
      exact ih (j + 1) stc tables

/-- So does the outer loop. -/
theorem steady_aesMctRounds (n i : Nat) (stc : SymCipherTc) (tables : AesTables)
    (ciphertext : Memory) : Steady f (aesMctRounds n i stc tables ciphertext) := by
  induction n generalizing i stc tables ciphertext with
  | zero => exact steady_pure _
  | succ n ih =>
      apply Steady.bind (steady_ofExcept _)
      intro rTobj
      apply Steady.bind (steady_aesMctCalls f i _ 0 stc tables)
      rintro ⟨stc, tables⟩
      apply Steady.bind (steady_ofExcept _)
      intro rTobj
      apply Steady.bind (ih _ _ _ _)
      rintro ⟨rTobjs, tables⟩
      exact steady_pure _

/-- And the work on any test. -/
theorem steady_aesPlay (algId : Cipher) (t : Option JsonObject) (tc : SymCipherTc)
    (tables : AesTables) : Steady f (aesPlay algId t tc tables) := by
  unfold aesPlay
  apply steady_ite
  · apply Steady.bind (steady_aesMctRounds f _ _ _ _ _)
    rintro ⟨results, tables⟩
    exact steady_pure _
  · exact steady_askOnce (fun code => code ≠ 0 ∧ ¬aesGoesOn algId) tc _
      (fun reply => aesOutputTc reply.2 (responseTest t) reply.1) tables

end Steady

/-- What becomes of a test that is no Monte Carlo test. -/
theorem aesPlay_single (algId : Cipher) {tc : SymCipherTc} (h : tc.testType ≠ .mct)
    (f : SymCipherTc → Int × SymCipherTc) (t : Option JsonObject) (tables : AesTables) :
    (aesPlay algId t tc tables).yields f =
      if (f tc).1 ≠ 0 ∧ ¬aesGoesOn algId then .error .cryptoModuleFail
      else (aesOutputTc (f tc).2 (responseTest t) (f tc).1).map (·, tables) := by
  unfold aesPlay
  rw [if_neg h]
  exact yields_askOnce (fun code => code ≠ 0 ∧ ¬aesGoesOn algId) tc _
    (fun reply => aesOutputTc reply.2 (responseTest t) reply.1) tables

/-- A test that is no Monte Carlo test takes no notice of the tables. -/
theorem aesPlay_quiet {algId : Cipher} {tc : SymCipherTc} (h : tc.testType ≠ .mct)
    (f : SymCipherTc → Int × SymCipherTc) (t : Option JsonObject) (tables tables' : AesTables) :
    ((aesPlay algId t tc tables).yields f).toOption.map Prod.fst =
      ((aesPlay algId t tc tables').yields f).toOption.map Prod.fst := by
  rw [aesPlay_single algId h, aesPlay_single algId h]
  split
  · rfl
  · cases aesOutputTc (f tc).2 (responseTest t) (f tc).1 <;> rfl

/-- A test case that can be shown is answered. -/
theorem aesOutputMctTc_ok {stc : SymCipherTc} (h : AesShowable stc) :
    ∃ rTobj, aesOutputMctTc stc = .ok rTobj := by
  unfold aesOutputMctTc
  rw [setMemory_ok h.key (by decide), ok_bind]
  have hiv (rTobj : JsonObject) : ∃ rTobj', onlyIf (stc.cipher ≠ .aesEcb)
      (setMemory rTobj "iv" stc.iv stc.ivLen symCtMax) rTobj = .ok rTobj' := by
    by_cases hcipher : stc.cipher ≠ .aesEcb
    · rw [onlyIf_pos hcipher, setMemory_ok h.iv (by decide)]
      exact ⟨_, rfl⟩
    · exact ⟨_, onlyIf_neg hcipher _ _⟩
  obtain ⟨rTobj, hiv⟩ := hiv (jsonObjectSetText [] "key" _)
  rw [hiv, ok_bind]
  by_cases hdir : stc.direction = .encrypt
  · rw [if_pos hdir]
    refine ⟨_, setMemory_ok ?_ (by decide)⟩
    by_cases hcipher : stc.cipher = .aesCfb1
    · rw [if_pos hcipher]
      decide
    · rw [if_neg hcipher]
      exact h.pt.resolve_right hcipher
  · rw [if_neg hdir]
    refine ⟨_, setMemory_ok ?_ (by decide)⟩
    by_cases hcipher : stc.cipher = .aesCfb1
    · rw [if_pos hcipher]
      decide
    · rw [if_neg hcipher]
      exact h.ct.resolve_right hcipher

/-! ## A module that shows the tables

The module answers every test with the same test case, whose key is longer than the first row
of {lit}`mkey`.  So the row is not written, and the keys of the following rounds show it. -/

/-- A test case that a module may leave, with a byte of text. -/
def aesShowing (text : UInt8) : SymCipherTc where
  cipher := .aesEcb
  testType := .mct
  direction := .encrypt
  tcId := 0
  ct := fun _ => text
  keyLen := 264
  ptLen := 1
  ctLen := 1

/-- The test case at the start of a round, when {lit}`mkey` holds this byte. -/
def aesShowingKey (byte : UInt8) : SymCipherTc :=
  { aesShowing 0 with key := fun n => if n < 33 then byte else 0 }

/-- The text that is fed back to the showing module is zero. -/
theorem copy_showing (ctext : Memory) :
    Memory.zero.copy 0 symPtByteMax (ctext.copy 0 32 (aesShowing 0).ct 0 1) 0 1 = .zero := by
  funext k
  by_cases hk : k = 0
  · subst hk
    rfl
  · simp [Memory.copy, symPtByteMax, hk]

/-- One turn of the inner loop with the showing module keeps the key in the tables. -/
theorem aesMctIterateTc_showing (i : Nat) (tables : AesTables) :
    ∃ tables', aesMctIterateTc (aesShowing 0) i tables = .ok (aesShowing 0, tables') ∧
      tables'.mkey = tables.mkey := by
  refine ⟨aesMctKeep (aesShowing 0) tables, ?_, rfl⟩
  have hpt := copy_showing tables.ctext
  have hkept : { aesShowing 0 with
      pt := (Memory.zero.copy 0 symPtByteMax
        (tables.ctext.copy 0 32 (aesShowing 0).ct 0 1) 0 1) } = aesShowing 0 := by
    rw [hpt]
    rfl
  exact congrArg (fun stc => Except.ok (stc, aesMctKeep (aesShowing 0) tables)) hkept

section Showing

variable {f : SymCipherTc → Int × SymCipherTc}
  (hf : ∀ stc, stc.testType = .mct → f stc = (0, aesShowing 0))
include hf

/-- One call and its turn, with the showing module. -/
theorem aesMctCalls_step (i n j : Nat) {stc : SymCipherTc} (hstc : stc.testType = .mct)
    (tables : AesTables) :
    ∃ tables', (aesMctCalls i (n + 1) j stc tables).yields f =
        (aesMctCalls i n (j + 1) (aesShowing 0) tables').yields f ∧
      tables'.mkey = tables.mkey := by
  obtain ⟨tables', hiterate, hmkey⟩ := aesMctIterateTc_showing i tables
  refine ⟨tables', ?_, hmkey⟩
  have hreply := hf { stc with mctIndex := j } hstc
  have hask : (ask (ε := AmvpResult) { stc with mctIndex := j }).yields f =
      .ok (0, aesShowing 0) := congrArg Except.ok hreply
  rw [aesMctCalls, yields_bind_ok hask]
  · simp only [ne_eq, not_true_eq_false, if_false]
    rw [yields_ofExcept_bind hiterate]
  · rintro ⟨code, stc⟩
    apply steady_ite (steady_fail _)
    exact Steady.bind (steady_ofExcept _) fun out => steady_aesMctCalls f _ _ _ _ _

/-- The inner loop ends as after one call, by induction on the calls. -/
theorem aesMctCalls_showing (i n j : Nat) {stc : SymCipherTc} (hstc : stc.testType = .mct)
    (tables : AesTables) :
    ∃ tables', (aesMctCalls i (n + 1) j stc tables).yields f = .ok (aesShowing 0, tables') ∧
      tables'.mkey = tables.mkey := by
  induction n generalizing j stc tables with
  | zero =>
      obtain ⟨tables', hstep, hmkey⟩ := aesMctCalls_step hf i 0 j hstc tables
      exact ⟨tables', hstep, hmkey⟩
  | succ n ih =>
      obtain ⟨tables₁, hstep, hmkey₁⟩ := aesMctCalls_step hf i (n + 1) j hstc tables
      have hshowing : (aesShowing 0).testType = .mct := rfl
      obtain ⟨tables', hcalls, hmkey⟩ := ih (j + 1) hshowing tables₁
      exact ⟨tables', hstep.trans hcalls, hmkey.trans hmkey₁⟩

/-- A round shows what the test case holds at its start. -/
theorem aesMctRounds_step (n i : Nat) {stc : SymCipherTc} (hstc : stc.testType = .mct)
    {rTobj : JsonObject} (hout : aesOutputMctTc stc = .ok rTobj) {byte : UInt8}
    {tables : AesTables} (hmkey : tables.mkey = fun _ => byte) :
    ∃ tables', (tables'.mkey = fun _ => byte) ∧
      (aesMctRounds (n + 1) i stc tables .zero).yields f =
        ((aesMctRounds n (i + 1) (aesShowingKey byte) tables' .zero).yields f).map fun out =>
          (jsonObjectSetText rTobj "ct" (some "00") :: out.1, out.2) := by
  obtain ⟨tables', hcalls, hmkey'⟩ := aesMctCalls_showing hf i 999 0 hstc tables
  rw [hmkey] at hmkey'
  have hinner : (aesMctCalls i aesMctInner 0 stc tables).yields f =
      .ok (aesShowing 0, tables') := hcalls
  refine ⟨tables', hmkey', ?_⟩
  have htext : aesMctText (aesShowing 0) rTobj =
      .ok (jsonObjectSetText rTobj "ct" (some "00")) := setMemory_ok (by decide) (by decide)
  have hkey : aesMctKey (aesShowing 0) tables' .zero = aesShowingKey byte := by
    unfold aesMctKey aesShowingKey
    rw [hmkey']
    simp [aesShowing, Memory.zero]
  rw [aesMctRounds, yields_ofExcept_bind hout, yields_bind_ok hinner]
  · rw [yields_ofExcept_bind htext]
    change yields f (aesMctRounds n (i + 1) (aesMctKey (aesShowing 0) tables' .zero) tables' .zero
      >>= fun out => pure (jsonObjectSetText rTobj "ct" (some "00") :: out.1, out.2)) = _
    rw [yields_bind_pure, hkey]
  · intro out
    apply Steady.bind (steady_ofExcept _)
    intro m
    exact Steady.bind (steady_aesMctRounds f _ _ _ _ _) fun out => steady_pure _

/-- What the object of a round is, if the lengths let it be made. -/
def aesRound (stc : SymCipherTc) : JsonObject :=
  jsonObjectSetText ((aesOutputMctTc stc).toOption.getD []) "ct" (some "00")

/-- All rounds are answered alike, by induction on them. -/
theorem aesMctRounds_showing (n i : Nat) {byte : UInt8} {tables : AesTables}
    (hmkey : tables.mkey = fun _ => byte) :
    ∃ tables', (tables'.mkey = fun _ => byte) ∧
      (aesMctRounds n i (aesShowingKey byte) tables .zero).yields f =
        .ok (List.replicate n (aesRound (aesShowingKey byte)), tables') := by
  induction n generalizing i tables with
  | zero => exact ⟨tables, hmkey, rfl⟩
  | succ n ih =>
      have hshowable : AesShowable (aesShowingKey byte) := by
        constructor <;> simp [aesShowingKey, aesShowing, symCtMax, symPtMax]
      obtain ⟨rTobj, hout⟩ := aesOutputMctTc_ok hshowable
      have htype : (aesShowingKey byte).testType = .mct := rfl
      obtain ⟨tables₁, hmkey₁, hstep⟩ := aesMctRounds_step hf n i htype hout hmkey
      obtain ⟨tables', hmkey', hrounds⟩ := ih (i + 1) hmkey₁
      refine ⟨tables', hmkey', ?_⟩
      rw [hstep, hrounds, List.replicate_succ, aesRound, hout]
      rfl

end Showing

/-! ## Probes -/

/-- What the rounds of a Monte Carlo test are, when {lit}`mkey` holds this byte. -/
def aesShowingRounds (byte : UInt8) (tc : SymCipherTc) : List JsonObject :=
  aesRound tc :: List.replicate 99 (aesRound (aesShowingKey byte))

/-- The text that the module leaves, as an answer. -/
def aesShowingText (text : UInt8) : String := String.ofList (hexDigits [text])

/-- What is shown tells two bytes in the tables apart. -/
theorem aesShowingRounds_ne (tc : SymCipherTc) :
    aesShowingRounds 0 tc ≠ aesShowingRounds 1 tc := by
  have hkeys : jsonObjectGetString (some (aesRound (aesShowingKey 0))) "key" ≠
      jsonObjectGetString (some (aesRound (aesShowingKey 1))) "key" := by
    decide +kernel
  intro hsame
  have hround := List.replicate_right_injective (by decide) (List.cons.inj hsame).2
  exact hkeys (by rw [hround])

/-- A Monte Carlo test shows the tables. -/
theorem aesPlay_mct {f : SymCipherTc → Int × SymCipherTc}
    (hf : ∀ stc, stc.testType = .mct → f stc = (0, aesShowing 0)) (algId : Cipher)
    (t : Option JsonObject) {tc : SymCipherTc} (htype : tc.testType = .mct)
    (hshowable : AesShowable tc) {byte : UInt8} {tables : AesTables}
    (hmkey : tables.mkey = fun _ => byte) :
    ∃ tables', (aesPlay algId t tc tables).yields f =
        .ok (jsonObjectSetValue (responseTest t) "resultsArray"
          (.arr ((aesShowingRounds byte tc).map .obj)), tables') ∧
      tables'.mkey = fun _ => byte := by
  obtain ⟨rTobj, hout⟩ := aesOutputMctTc_ok hshowable
  have hstart : { tables with miv := tables.miv.copy 0 16 tc.iv 0 tc.ivLen }.mkey =
      fun _ => byte := hmkey
  obtain ⟨tables₁, hmkey₁, hstep⟩ := aesMctRounds_step hf 99 0 htype hout hstart
  obtain ⟨tables', hmkey', hrounds⟩ := aesMctRounds_showing hf 99 1 hmkey₁
  refine ⟨tables', ?_, hmkey'⟩
  have htc : (aesMctTc tc tables).yields f = .ok (aesShowingRounds byte tc, tables') := by
    have hround : aesRound tc = jsonObjectSetText rTobj "ct" (some "00") := by
      rw [aesRound, hout]
      rfl
    rw [aesShowingRounds, hround]
    exact hstep.trans (congrArg _ hrounds)
  unfold aesPlay
  rw [if_pos htype]
  change yields f (aesMctTc tc tables >>= fun out => pure
    (jsonObjectSetValue (responseTest t) "resultsArray" (.arr (out.1.map .obj)), out.2)) = _
  rw [yields_bind_pure, htc]
  rfl

/-- The answer to a plain test shows the byte of the module. -/
theorem aesOutputTc_showing (text : UInt8) (tcRsp : JsonObject) :
    aesOutputTc (aesShowing text) tcRsp 0 =
      .ok (jsonObjectSetText tcRsp "ct" (some (aesShowingText text))) := by
  have hct : memoryToHexstr (aesShowing text).ct 1 symCtMax = .ok (aesShowingText text) :=
    memoryToHexstr_ok (by decide) (by decide)
  change (memoryToHexstr (aesShowing text).ct 1 symCtMax >>= fun ct =>
    pure (jsonObjectSetText tcRsp "ct" (some ct))) = _
  rw [hct]
  rfl

/-- Another test shows whether it is marked. -/
theorem aesPlay_marked (marked : SymCipherTc) (algId : Cipher) (t : Option JsonObject)
    {tc : SymCipherTc} (htype : tc.testType ≠ .mct) (rounds : SymCipherTc → List JsonObject)
    (tables : AesTables) :
    (aesPlay algId t tc tables).yields (symProbe aesShowing marked) =
      .ok (symProbed rounds aesShowingText marked t tc, tables) := by
  have hplayed := aesPlay_single algId htype (symProbe aesShowing marked) t tables
  rw [symProbe_single _ _ htype, if_neg (by simp), aesOutputTc_showing] at hplayed
  rw [hplayed, symProbed, if_neg htype]
  rfl

/-! ## What the handler shows -/

/-- Entering a group reads it and leaves the variables as they were. -/
theorem readAesGroup_of_enter {head : AesHead} {vars vars' : AesVars}
    {groupobj : Option JsonObject} {n : Nat} {group : AesGroup}
    (h : (aesPlayer head).enter vars groupobj n = .ok (group, vars')) :
    readAesGroup head groupobj = .ok group ∧ vars' = vars := by
  obtain ⟨group', hread, hsame⟩ := map_eq_ok.mp h
  cases hsame
  exact ⟨hread, rfl⟩

/-- Every test is answered with what it shows. -/
theorem aes_probes (head : AesHead) (marked : SymCipherTc) (byte : UInt8) :
    (aesPlayer head).Probes (fun _ => False) AesReady (symProbe aesShowing marked)
      (fun tables => tables.mkey = fun _ => byte)
      fun _ t tc => symProbed (aesShowingRounds byte) aesShowingText marked t tc := by
  intro group t tc tables _ hready hmkey
  by_cases hmct : tc.testType = .mct
  · obtain ⟨tables', hplay, hmkey'⟩ := aesPlay_mct (fun _ => symProbe_mct aesShowing marked)
      head.algId t hmct hready.showable hmkey
    refine ⟨tables', ?_, hmkey'⟩
    dsimp only
    rw [symProbed_mct _ _ _ _ hmct]
    exact hplay
  · exact ⟨tables, aesPlay_marked marked head.algId t hmct _ tables, hmkey⟩

/-- The handler of AES shows what it reads of each test, and the tables in the answers to Monte
Carlo tests. -/
theorem aes_observable (head : AesHead) :
    (aesPlayer head).Observable (fun group => group.testType = .mct) (fun _ => False) AesReady
      (fun vars vars' => vars.readIv = true → vars'.readIv = true) where
  steady f _ t q k := steady_aesPlay f head.algId t q k
  enter_eq h vars' := by
    obtain ⟨hread, -⟩ := readAesGroup_of_enter h
    exact ⟨vars', map_eq_ok.mpr ⟨_, hread, rfl⟩⟩
  start_le _ := nofun
  enter_le hle h h' := by
    rw [(readAesGroup_of_enter h).2, (readAesGroup_of_enter h').2]
    exact hle
  load_le hle h := readAesTest_le hle h
  ready h h' := aesReady_of_read (readAesGroup_of_enter h).1 h'
  quiet hquiet hready f t k k' := aesPlay_quiet (hready.testType ▸ hquiet) f t k k'
  fails := nofun
  shown marked := by
    have hshow (byte : UInt8) : ∃ tables : AesTables, tables.mkey = fun _ => byte :=
      ⟨{ mkey := fun _ => byte }, rfl⟩
    have htext : aesShowingText 0 ≠ aesShowingText 1 := by
      decide +kernel
    exact shows_of_probes (fun group _ (h : AesReady group _) => h.testType) hshow
      aesShowingRounds_ne htext marked (aes_probes head marked)
  close_inj := responseGroup_inj (by decide)

/-! ## Groups in a row -/

/-- The tests of groups, each with what is read of its group. -/
def aesTests (head : AesHead) (bs : List TestGroup) : List (AesGroup × Option JsonObject) :=
  bs.flatMap fun b =>
    match readAesGroup head b.head with
    | .ok group => b.items.map (group, ·)
    | .error _ => []

/-- Two values of the variables make no difference to tests in a row. -/
def AesAlike (head : AesHead) (vars vars' : AesVars)
    (tests : List (AesGroup × Option JsonObject)) : Prop :=
  Carry.Agrees (aesSetsIv head) (fun test => ¬ZeroIv test.2) vars.readIv vars'.readIv tests ∧
    Carry.Agrees (aesSetsSeqNum head) (fun _ => True) vars.seqNum vars'.seqNum tests

section Runs

variable {head : AesHead} {vars vars' vars₀ : AesVars}

/-- Tests are read alike when the first one is and then the rest. -/
theorem aesAlike_cons (group : AesGroup) (t : Option JsonObject)
    (tests : List (AesGroup × Option JsonObject)) :
    AesAlike head vars vars₀ ((group, t) :: tests) ↔ AesReadsAlike head vars vars₀ group t ∧
      AesAlike head (aesLeaves head vars (group, t)) (aesLeaves head vars₀ (group, t)) tests := by
  unfold AesAlike
  rw [Carry.Agrees, Carry.Agrees]
  constructor
  · rintro ⟨⟨hiv, hivs⟩, hseq, hseqs⟩
    exact ⟨⟨hiv, hseq trivial⟩, hivs, hseqs⟩
  · rintro ⟨⟨hiv, hseq⟩, hivs, hseqs⟩
    exact ⟨⟨hiv, hivs⟩, fun _ => hseq, hseqs⟩

/-- Tests in two parts are read alike when both parts are. -/
theorem aesAlike_append (tests tests' : List (AesGroup × Option JsonObject)) :
    AesAlike head vars vars₀ (tests ++ tests') ↔ AesAlike head vars vars₀ tests ∧
      AesAlike head (tests.foldl (aesLeaves head) vars) (tests.foldl (aesLeaves head) vars₀)
        tests' := by
  induction tests generalizing vars vars₀ with
  | nil => exact ⟨fun h => ⟨⟨trivial, trivial⟩, h⟩, And.right⟩
  | cons test tests ih =>
      rw [List.cons_append, aesAlike_cons, aesAlike_cons, ih, and_assoc]
      rfl

/-- The variables that tests leave. -/
theorem foldl_aesLeaves (tests : List (AesGroup × Option JsonObject)) :
    tests.foldl (aesLeaves head) vars =
      ⟨Carry.lastSet (aesSetsIv head) vars.readIv tests,
        Carry.lastSet (aesSetsSeqNum head) vars.seqNum tests⟩ := by
  induction tests generalizing vars with
  | nil => rfl
  | cons test tests ih => exact ih

/-- What the variables were when the groups were read alone asks for less. -/
structure AesLess (head : AesHead) (vars₀ vars : AesVars) : Prop where
  first : vars₀.Reachable head
  second : vars.Reachable head
  readIv : vars₀.readIv = true → vars.readIv = true

/-- A test that is read in both runs keeps the order of the variables. -/
theorem AesLess.leaves (h : AesLess head vars₀ vars) {group : AesGroup} {t : Option JsonObject}
    {tc tc₀ : SymCipherTc} {out out₀ : AesVars}
    (hread : readAesTest head vars group t = .ok (tc, out))
    (hread₀ : readAesTest head vars₀ group t = .ok (tc₀, out₀)) : AesLess head out₀ out := by
  refine ⟨h.first.step hread₀, h.second.step hread, ?_⟩
  rw [readAesTest_leaves hread, readAesTest_leaves hread₀]
  exact settle_aesSetsIv_mono h.readIv

/-- Reading the tests of a group leaves the variables of the last one that sets any. -/
theorem aesScriptItems_leaves {group : AesGroup} {ts : List (Option JsonObject)}
    {items : List (Option JsonObject × SymCipherTc)}
    (h : ((aesPlayer head).scriptItems group vars ts).toOption = some (items, vars')) :
    vars' = (ts.map (group, ·)).foldl (aesLeaves head) vars := by
  induction ts generalizing vars items with
  | nil =>
      cases h
      rfl
  | cons t ts ih =>
      obtain ⟨tc, vars₁, rest, hload, hrest, -⟩ := Player.scriptItems_cons_eq_some.mp h
      rw [List.map_cons, List.foldl_cons, ← readAesTest_leaves hload]
      exact ih hrest

/-- The same order holds after all tests of a group. -/
theorem AesLess.scriptItems (hless : AesLess head vars₀ vars) {group : AesGroup}
    {ts : List (Option JsonObject)} {items items₀ : List (Option JsonObject × SymCipherTc)}
    {out out₀ : AesVars}
    (h : ((aesPlayer head).scriptItems group vars ts).toOption = some (items, out))
    (h₀ : ((aesPlayer head).scriptItems group vars₀ ts).toOption = some (items₀, out₀)) :
    AesLess head out₀ out := by
  induction ts generalizing vars vars₀ items items₀ with
  | nil =>
      cases h
      cases h₀
      exact hless
  | cons t ts ih =>
      obtain ⟨tc, vars₁, rest, hload, hrest, -⟩ := Player.scriptItems_cons_eq_some.mp h
      obtain ⟨tc₀, vars₂, rest₀, hload₀, hrest₀, -⟩ := Player.scriptItems_cons_eq_some.mp h₀
      exact ih (hless.leaves hload hload₀) hrest hrest₀

/-- The tests of a group are read alike exactly when each is. -/
theorem aesScriptItems_same_iff (hless : AesLess head vars₀ vars) {group : AesGroup}
    {ts : List (Option JsonObject)} {items : List (Option JsonObject × SymCipherTc)}
    {out₀ : AesVars}
    (h₀ : ((aesPlayer head).scriptItems group vars₀ ts).toOption = some (items, out₀)) :
    (∃ out, ((aesPlayer head).scriptItems group vars ts).toOption = some (items, out)) ↔
      AesAlike head vars vars₀ (ts.map (group, ·)) := by
  induction ts generalizing vars vars₀ items with
  | nil =>
      cases h₀
      exact iff_of_true ⟨vars, rfl⟩ ⟨trivial, trivial⟩
  | cons t ts ih =>
      obtain ⟨tc, vars₁, rest, hload₀, hrest₀, rfl⟩ := Player.scriptItems_cons_eq_some.mp h₀
      have hsame := readAesTest_same_iff hless.second hless.first hless.readIv hload₀
      rw [List.map_cons, aesAlike_cons, ← hsame, ← readAesTest_leaves hload₀]
      constructor
      · rintro ⟨out, h⟩
        obtain ⟨tc', vars₂, rest', hload, hrest, heq⟩ := Player.scriptItems_cons_eq_some.mp h
        cases heq
        refine ⟨⟨vars₂, hload⟩, ?_⟩
        rw [← readAesTest_leaves hload]
        exact (ih (hless.leaves hload hload₀) hrest₀).mp ⟨out, hrest⟩
      · rintro ⟨⟨vars₂, hload⟩, halike⟩
        rw [← readAesTest_leaves hload] at halike
        obtain ⟨out, hrest⟩ := (ih (hless.leaves hload hload₀) hrest₀).mpr halike
        exact ⟨out, Player.scriptItems_cons_eq_some.mpr ⟨tc, vars₂, rest, hload, hrest, rfl⟩⟩

/-- The tests of the groups, the first group apart. -/
theorem aesTests_cons {b : TestGroup} {group : AesGroup} (h : readAesGroup head b.head = .ok group)
    (bs : List TestGroup) :
    aesTests head (b :: bs) = b.items.map (group, ·) ++ aesTests head bs := by
  simp only [aesTests, List.flatMap_cons, h]

/-- Reading groups leaves the variables of the last test that sets any. -/
theorem aesScript_leaves {bs : List TestGroup}
    {scenes : List (AesGroup × List (Option JsonObject × SymCipherTc))}
    (h : ((aesPlayer head).script vars bs).toOption = some (scenes, vars')) :
    vars' = (aesTests head bs).foldl (aesLeaves head) vars := by
  induction bs generalizing vars scenes with
  | nil =>
      cases h
      rfl
  | cons b bs ih =>
      obtain ⟨group, vars₁, items, vars₂, rest, henter, hitems, hrest, -⟩ :=
        Player.script_cons_eq_some.mp h
      obtain ⟨hgroup, rfl⟩ := readAesGroup_of_enter henter
      rw [aesTests_cons hgroup, List.foldl_append, ← aesScriptItems_leaves hitems]
      exact ih hrest

/-- Groups are read alike exactly when their tests are. -/
theorem aesScript_same_iff (hless : AesLess head vars₀ vars) {bs : List TestGroup}
    {scenes : List (AesGroup × List (Option JsonObject × SymCipherTc))} {out₀ : AesVars}
    (h₀ : ((aesPlayer head).script vars₀ bs).toOption = some (scenes, out₀)) :
    (∃ out, ((aesPlayer head).script vars bs).toOption = some (scenes, out)) ↔
      AesAlike head vars vars₀ (aesTests head bs) := by
  induction bs generalizing vars vars₀ scenes with
  | nil =>
      cases h₀
      exact iff_of_true ⟨vars, rfl⟩ ⟨trivial, trivial⟩
  | cons b bs ih =>
      obtain ⟨group, vars₁, items, vars₂, rest, henter₀, hitems₀, hrest₀, rfl⟩ :=
        Player.script_cons_eq_some.mp h₀
      obtain ⟨hgroup, rfl⟩ := readAesGroup_of_enter henter₀
      have henter : (aesPlayer head).enter vars b.head b.items.length = .ok (group, vars) :=
        map_eq_ok.mpr ⟨group, hgroup, rfl⟩
      have hsame := aesScriptItems_same_iff hless hitems₀
      rw [aesTests_cons hgroup, aesAlike_append, ← hsame, ← aesScriptItems_leaves hitems₀]
      constructor
      · rintro ⟨out, h⟩
        obtain ⟨group', vars₃, items', vars₄, rest', henter', hitems, hrest, heq⟩ :=
          Player.script_cons_eq_some.mp h
        cases heq
        rw [henter] at henter'
        cases henter'
        refine ⟨⟨vars₄, hitems⟩, ?_⟩
        rw [← aesScriptItems_leaves hitems]
        exact (ih (hless.scriptItems hitems hitems₀) hrest₀).mp ⟨out, hrest⟩
      · rintro ⟨⟨vars₃, hitems⟩, halike⟩
        rw [← aesScriptItems_leaves hitems] at halike
        obtain ⟨out, hrest⟩ := (ih (hless.scriptItems hitems hitems₀) hrest₀).mpr halike
        exact ⟨out, Player.script_cons_eq_some.mpr
          ⟨group, vars, items, vars₃, rest, henter, hitems, hrest, rfl⟩⟩

/-- Variables that can be reached stay so over the tests of a group. -/
theorem AesVars.Reachable.scriptItems (hvars : vars.Reachable head) {group : AesGroup}
    {ts : List (Option JsonObject)} {items : List (Option JsonObject × SymCipherTc)}
    (h : ((aesPlayer head).scriptItems group vars ts).toOption = some (items, vars')) :
    vars'.Reachable head := by
  have hless : AesLess head vars vars := ⟨hvars, hvars, id⟩
  exact (hless.scriptItems h h).second

/-- And over all groups. -/
theorem AesVars.Reachable.script (hvars : vars.Reachable head) {bs : List TestGroup}
    {scenes : List (AesGroup × List (Option JsonObject × SymCipherTc))}
    (h : ((aesPlayer head).script vars bs).toOption = some (scenes, vars')) :
    vars'.Reachable head := by
  induction bs generalizing vars scenes with
  | nil =>
      cases h
      exact hvars
  | cons b bs ih =>
      obtain ⟨group, vars₁, items, vars₂, rest, henter, hitems, hrest, -⟩ :=
        Player.script_cons_eq_some.mp h
      obtain ⟨-, rfl⟩ := readAesGroup_of_enter henter
      exact ih (hvars.scriptItems hitems) hrest

end Runs

/-- A group that was read is a Monte Carlo group exactly when its object says so. -/
theorem readAesGroup_mct {head : AesHead} {groupobj : Option JsonObject} {group : AesGroup}
    (h : readAesGroup head groupobj = .ok group) : group.testType = .mct ↔ IsMct groupobj := by
  simp only [readAesGroup, readName, bind_eq_ok, need_eq_ok] at h
  obtain ⟨tgId, -, dir, -, testType, ⟨str, hstr, htype⟩, counters, -, kwcipher, -, -, -, aead, -,
    -, -, -, -, twMode, -, salt, -, hsame⟩ := h
  cases hsame
  rw [IsMct, hstr, Option.some.injEq, ← readTestType_eq_mct, htype, Option.some.injEq]

/-- Neither part has Monte Carlo tests.  When a test of the first part reads an initialization
vector, then the tests of the second part that do not ask for one have one of zeros, unless one
does that comes before.  When the first part leaves a sequence number other than zero, then the
first test of the second part has its own. -/
structure AesApart (head : AesHead) (bs bs' : List TestGroup) : Prop where
  noMct : NoMct bs
  noMct' : NoMct bs'
  ownIv : Carry.Own (aesSetsIv head) (fun test => ¬ZeroIv test.2) false (aesTests head bs)
    (aesTests head bs')
  ownSeqNum : Carry.Own (aesSetsSeqNum head) (fun _ => True) 0 (aesTests head bs)
    (aesTests head bs')

/-- The groups of an AES vector set fare in a row as they would apart exactly when a part cannot
be read, or when no group feels another. -/
theorem aes_parted_iff (head : AesHead) (bs bs' : List TestGroup) :
    (∀ f k k₁ k₂, Player.Parted
      (((aesPlayer head).worker k).result (.memoryless f) (bs ++ bs')).toOption
      (((aesPlayer head).worker k₁).result (.memoryless f) bs).toOption
      (((aesPlayer head).worker k₂).result (.memoryless f) bs').toOption) ↔
    ((aesPlayer head).Readable bs → (aesPlayer head).Readable bs' → AesApart head bs bs') := by
  rw [Player.parted_iff (aes_observable head)]
  have hmct {vars vars' : AesVars} {groupobj : Option JsonObject} {n : Nat} {group : AesGroup}
      (h : (aesPlayer head).enter vars groupobj n = .ok (group, vars')) :
      group.testType = .mct ↔ IsMct groupobj := readAesGroup_mct (readAesGroup_of_enter h).1
  -- The second part is read alike when no variable that it uses was changed.
  have hsame {scenes scenes' s s'} (h : ((aesPlayer head).script {} bs).toOption = some (scenes, s))
      (h' : ((aesPlayer head).script {} bs').toOption = some (scenes', s')) :
      (∃ s'', ((aesPlayer head).script s bs').toOption = some (scenes', s'')) ↔
        Carry.Own (aesSetsIv head) (fun test => ¬ZeroIv test.2) false (aesTests head bs)
            (aesTests head bs') ∧
          Carry.Own (aesSetsSeqNum head) (fun _ => True) 0 (aesTests head bs)
            (aesTests head bs') := by
    have hstart := AesVars.reachable_start head
    rw [aesScript_same_iff ⟨hstart, hstart.script h, nofun⟩ h', aesScript_leaves h, foldl_aesLeaves,
      Carry.own_iff, Carry.own_iff]
    rfl
  constructor
  · rintro hall ⟨⟨scenes, s⟩, h⟩ ⟨⟨scenes', s'⟩, h'⟩
    rw [← Player.toOption_eq_some] at h h'
    obtain ⟨havoids, havoids', hread⟩ := hall scenes s scenes' s' h h' (fun _ _ => False.elim)
      fun _ _ => False.elim
    obtain ⟨hiv, hseq⟩ := (hsame h h').mp hread
    exact ⟨(Player.avoids_iff_of_script hmct h).mp havoids,
      (Player.avoids_iff_of_script hmct h').mp havoids', hiv, hseq⟩
  · intro hapart scenes s scenes' s' h h' _ _
    have happly := hapart ⟨_, Player.toOption_eq_some.mp h⟩ ⟨_, Player.toOption_eq_some.mp h'⟩
    exact ⟨(Player.avoids_iff_of_script hmct h).mpr happly.noMct,
      (Player.avoids_iff_of_script hmct h').mpr happly.noMct',
      (hsame h h').mpr ⟨happly.ownIv, happly.ownSeqNum⟩⟩

end LibAmvp
