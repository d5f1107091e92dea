import LibAmvp.Kat.Answers
import LibAmvp.Kat.RsaPrim
import LibAmvp.Lib.Settles

/-!
# Accounting of the decryption primitive

The server says how many cipher texts of a group have to fail, and the module counts them off:
it is called for a cipher text until it has taken one from a counter.  The counters go through a
test case structure that is filled anew for every cipher text, and through three loops.

Main results:

- Theorem {lit}`decprimCall_settles`: the loop around the module ends.
- Theorem {lit}`decprim_accounting`: the handler ends, and of the entries of a group exactly as
  many have failed as the server has asked for.
-/

namespace LibAmvp

open Guard

/-! ## The module -/

/-- The counters of a test case structure. -/
def RsaPrimTc.vars (tc : RsaPrimTc) : DecprimVars := ⟨tc.fail, tc.pass⟩

/-- One is taken from a positive counter: from that of the tests to pass, or from that of the
tests to fail. -/
def CountedOff (vars vars' : DecprimVars) (passed : Prop) : Prop :=
  vars.fail = vars'.fail + 1 ∧ vars'.pass = vars.pass ∧ ¬passed ∨
    vars.pass = vars'.pass + 1 ∧ vars'.fail = vars.fail ∧ passed

/-- A module that counts: a call leaves the counters, or it takes one from a positive counter
and sets the disposition to match.  While one is positive, that happens after finitely many
calls. -/
structure CountingModule (p : Partner RsaPrimTc) : Prop where
  step : ∀ before q, (p before q).2.vars = q.vars ∨
    CountedOff q.vars (p before q).2.vars ((p before q).2.disposition ≠ 0)
  progress : ∀ before q, 0 < q.fail + q.pass → ∃ n, (p.again n before q).vars ≠ q.vars

/-- A test case structure that can be written out. -/
def RsaPrimTc.Answerable (tc : RsaPrimTc) : Prop :=
  Encodable tc.e rsaExpLenMax ∧ Encodable tc.n rsaExpLenMax ∧
    (tc.disposition ≠ 0 → Encodable tc.pt rsaExpLenMax)

/-- A module that refuses no call and leaves values that can be written out. -/
def WorkingModule (p : Partner RsaPrimTc) : Prop :=
  ∀ before q, (p before q).1 = 0 ∧ (p before q).2.Answerable

/-! ## The loop around the module -/

variable {p : Partner RsaPrimTc}

/-- The loop ends with a structure that the module has left, in which one is counted off. -/
def CallOutcome (p : Partner RsaPrimTc) (before : List RsaPrimTc) (q : RsaPrimTc)
    (out : Except (Option AmvpResult) RsaPrimTc × List RsaPrimTc) : Prop :=
  (∀ q' ∈ out.2, q'.vars = q.vars) ∧ ∃ n tc, out.1 = .ok tc ∧ tc = p.again n before q ∧
    CountedOff q.vars tc.vars (tc.disposition ≠ 0) ∧ tc.Answerable

/-- The loop around the module ends once the module counts one off. -/
theorem decprimCall_settles (hcounts : CountingModule p) (hworks : WorkingModule p) {n : Nat}
    {before : List RsaPrimTc} {q : RsaPrimTc} (hn : (p.again n before q).vars ≠ q.vars) :
    Settles (decprimCall q.vars · q p before) (CallOutcome p before q) := by
  induction n generalizing before q with
  | zero => exact absurd rfl hn
  | succ n ih =>
    obtain ⟨hcode, hanswerable⟩ := hworks before q
    apply Settles.of_succ
    refine Settles.dialog_bind (m := fun _ => Dialog.ask q)
      (P := fun out => out = (.ok (p before q), [q])) (Settles.const rfl)
      (fun e asked h => nomatch h) fun answer asked h => ?_
    obtain ⟨rfl, rfl⟩ := h
    simp only [hcode]
    by_cases hsame : (p before q).2.vars = q.vars
    · -- The counters are as before: one round more.
      have hrest : (p.again n (before ++ [q]) (p before q).2).vars ≠ (p before q).2.vars := by
        rw [hsame]
        exact hn
      have hequal : q.vars.fail = (p before q).2.fail ∧ q.vars.pass = (p before q).2.pass := by
        rw [← hsame]
        exact ⟨rfl, rfl⟩
      have hloop := ih hrest
      rw [hsame] at hloop
      simp only [ne_eq, not_true_eq_false, if_false, if_pos hequal]
      refine hloop.mono fun out ⟨hasked, m, tc, hout, htc, hoff, hok⟩ => ?_
      rw [hsame] at hasked hoff
      refine ⟨fun q' hq' => ?_, m + 1, tc, hout, htc, hoff, hok⟩
      rcases List.mem_append.mp hq' with hq' | hq'
      · rw [List.mem_singleton.mp hq']
      · exact hasked q' hq'
    · have hdiffer : ¬(q.vars.fail = (p before q).2.fail ∧ q.vars.pass = (p before q).2.pass) := by
        rintro ⟨hfail, hpass⟩
        exact hsame (congrArg₂ DecprimVars.mk hfail hpass).symm
      simp only [ne_eq, not_true_eq_false, if_false, if_neg hdiffer]
      refine Settles.const ⟨fun q' hq' => ?_, 1, _, rfl, rfl,
        (hcounts.step before q).resolve_left hsame, hanswerable⟩
      rw [List.mem_singleton.mp hq']

/-! ## One cipher text -/

/-- Whether an entry of the answer says that the cipher text has failed. -/
def entryFailed (entry : Option JsonObject) : Bool := jsonObjectGetBoolean entry "testPassed" = 0

/-- A cipher text that is there, is not too long and can be decoded. -/
def Decodable (ciphval : Json) : Prop :=
  ∃ cipher data, readString (jsonValueGetObject (some ciphval)) "cipherText" rsaExpByteMax =
    .ok cipher ∧ hexstrToBin (some cipher) rsaExpByteMax = .ok data

/-- An entry of the answer is what the module has left of the test case for the cipher text. -/
def CipherAnswered (p : Partner RsaPrimTc) (ciphval : Json) (entry : Option JsonObject) : Prop :=
  ∃ cipher deferred pass fail q before n rsp,
    readString (jsonValueGetObject (some ciphval)) "cipherText" rsaExpByteMax = .ok cipher ∧
      decprimInitTc 2048 deferred pass fail cipher = .ok q ∧
      decprimOutputTc (p.again n before q) [] = .ok rsp ∧ entry = some rsp

/-- A value that can be encoded is put into the answer. -/
theorem setHexstr_of_encodable {b : Bytes} {strMax : Nat} (h : Encodable b strMax)
    (tcRsp : JsonObject) (name : String) : ∃ hexstr, setHexstr tcRsp name b.data b.len strMax =
      .ok (jsonObjectSetText tcRsp name (some hexstr)) := by
  obtain ⟨hexstr, hhexstr⟩ := (binToHexstr_isOk b strMax).mpr h
  exact ⟨hexstr, by rw [setHexstr, hhexstr]; rfl⟩

/-- The entry says what the disposition is. -/
theorem decprimOutputTc_of_answerable {tc : RsaPrimTc} (h : tc.Answerable) :
    ∃ rsp, decprimOutputTc tc [] = .ok rsp ∧
      (entryFailed (some rsp) = true ↔ tc.disposition = 0) := by
  obtain ⟨he, hn, hpt⟩ := h
  obtain ⟨e, he⟩ := setHexstr_of_encodable he [] "e"
  obtain ⟨n, hn⟩ := setHexstr_of_encodable hn (jsonObjectSetText [] "e" (some e)) "n"
  have hget (obj : JsonObject) : entryFailed (some (jsonObjectSetBoolean obj "testPassed"
      tc.disposition)) = true ↔ tc.disposition = 0 := by
    by_cases hzero : tc.disposition = 0 <;>
      simp [entryFailed, jsonObjectSetBoolean, jsonObjectGetBoolean, jsonValueGetBoolean, hzero]
  simp only [decprimOutputTc, he, hn, ok_bind]
  by_cases hzero : tc.disposition = 0
  · rw [onlyIf_neg (not_not.mpr hzero)]
    exact ⟨_, rfl, hget _⟩
  · obtain ⟨pt, hpt⟩ := setHexstr_of_encodable (hpt hzero) (jsonObjectSetBoolean
      (jsonObjectSetText (jsonObjectSetText [] "e" (some e)) "n" (some n)) "testPassed"
      tc.disposition) "plainText"
    rw [onlyIf_pos hzero, hpt]
    refine ⟨_, rfl, ?_⟩
    rw [entryFailed, jsonObjectGetBoolean, jsonObjectGetValue_setText_of_ne _ _ (by decide)]
    exact hget _

/-- A structure whose cipher text was not decoded cannot be written out. -/
theorem decprimOutputTc_empty : decprimOutputTc {} [] = .error .convertDataErr := rfl

/-- A ciphertext is taken over exactly when it can be decoded. -/
theorem decprimInitTc_isOk {deferred : Int} {pass fail : Nat} {cipher : String} :
    (∃ q, decprimInitTc 2048 deferred pass fail cipher = .ok q) ↔
      ∃ data, hexstrToBin (some cipher) rsaExpByteMax = .ok data := by
  simp only [decprimInitTc, decodeBytes, bind_eq_ok, map_eq_ok, pure_eq_ok]
  constructor
  · rintro ⟨q, b, ⟨data, hdata, -⟩, -⟩
    exact ⟨data, hdata⟩
  · rintro ⟨data, hdata⟩
    exact ⟨_, _, ⟨data, hdata, rfl⟩, rfl⟩

/-- Taking it over keeps the counters. -/
theorem decprimInitTc_vars {deferred : Int} {vars : DecprimVars} {cipher : String} {q : RsaPrimTc}
    (h : decprimInitTc 2048 deferred vars.pass vars.fail cipher = .ok q) : q.vars = vars := by
  rw [decprimInitTc, bind_eq_ok] at h
  obtain ⟨b, -, h⟩ := h
  rw [pure_eq_ok] at h
  rw [← h]
  rfl

/-- A result asks nothing and the rest goes on from it. -/
theorem ofExcept_ok_bind {α β : Type} (a : α) (f : α → DecprimDialog β)
    (before : List RsaPrimTc) :
    (DecprimDialog.ofExcept (.ok a) >>= f) p before = f a p before := by
  simp [Dialog.bind_apply, Dialog.andThen, DecprimDialog.ofExcept, Dialog.ofExcept,
    Except.mapError]

/-- An error ends the dialog. -/
theorem ofExcept_error_bind {α β : Type} (e : AmvpResult) (f : α → DecprimDialog β)
    (before : List RsaPrimTc) :
    (DecprimDialog.ofExcept (.error e) >>= f) p before = (.error (some e), []) :=
  rfl

/-- What becomes of a part of the work: every question is of a kind, and it yields what is good,
or it ends with an error for a reason. -/
def RunOutcome {α κ : Type} (asks : κ → Prop) (good : α → Prop) (bad : Prop)
    (out : Except (Option AmvpResult) α × List κ) : Prop :=
  (∀ q ∈ out.2, asks q) ∧
    match out.1 with
    | .ok a => good a
    | .error e => e ≠ none ∧ bad

/-- An outcome for narrower reasons is one for wider ones. -/
theorem RunOutcome.mono {α κ : Type} {asks asks' : κ → Prop} {good good' : α → Prop}
    {bad bad' : Prop} {out : Except (Option AmvpResult) α × List κ}
    (h : RunOutcome asks good bad out) (hasks : ∀ q, asks q → asks' q) (hgood : ∀ a, good a → good' a) (hbad : bad → bad') :
    RunOutcome asks' good' bad' out := by
  obtain ⟨out, asked⟩ := out
  refine ⟨fun q hq => hasks q (h.1 q hq), ?_⟩
  cases out with
  | error e => exact ⟨h.2.1, hbad h.2.2⟩
  | ok a => exact hgood a h.2

/-- What is done after good work. -/
theorem RunOutcome.prepend {α β κ : Type} {asks : κ → Prop} {good : α → Prop} {good' : β → Prop}
    {bad : Prop} {rest : Except (Option AmvpResult) α × List κ} (h : RunOutcome asks good bad rest)
    {f : α → β} {asked : List κ} (hasked : ∀ q ∈ asked, asks q)
    (hgood : ∀ a, good a → good' (f a)) :
    RunOutcome asks good' bad (rest.1.map f, asked ++ rest.2) := by
  obtain ⟨out, asked'⟩ := rest
  refine ⟨fun q hq => ?_, ?_⟩
  · rcases List.mem_append.mp hq with hq | hq
    · exact hasked q hq
    · exact h.1 q hq
  · cases out with
    | error e => exact h.2
    | ok a => exact hgood a h.2

/-- A program goes on with what another yields. -/
theorem outcome_bind {α β : Type} {m : Nat → DecprimDialog α} {f : Nat → α → DecprimDialog β}
    {before : List RsaPrimTc} {asks : RsaPrimTc → Prop} {good : α → Prop} {good' : β → Prop}
    {bad bad' : Prop} (hm : Settles (m · p before) (RunOutcome asks good bad)) (hbad : bad → bad')
    (hf : ∀ a before', good a → Settles (f · a p before') (RunOutcome asks good' bad')) :
    Settles (fun n => (m n >>= f n) p before) (RunOutcome asks good' bad') := by
  refine Settles.dialog_bind hm (fun e asked h => ⟨h.1, h.2.1, hbad h.2.2⟩) fun a asked h => ?_
  refine (hf a _ h.2).mono fun out hout => ⟨fun q hq => ?_, hout.2⟩
  rcases List.mem_append.mp hq with hq | hq
  · exact h.1 q hq
  · exact hout.1 q hq

/-- The counters have not grown. -/
def DecprimVars.Within (vars vars' : DecprimVars) : Prop :=
  vars.fail ≤ vars'.fail ∧ vars.pass ≤ vars'.pass

/-- A cipher text is counted off, or it cannot be decoded. -/
def CipherOutcome (p : Partner RsaPrimTc) (vars : DecprimVars) (ciphval : Json) :
    Except (Option AmvpResult) (JsonObject × DecprimVars) × List RsaPrimTc → Prop :=
  RunOutcome (fun q => q.vars.Within vars) (fun out => CipherAnswered p ciphval (some out.1) ∧
    CountedOff vars out.2 (entryFailed (some out.1) = false)) (¬Decodable ciphval)

/-- The work on a ciphertext ends, with an entry that counts one off or with an error for a reason.
-/
theorem decprimCipher_settles (hcounts : CountingModule p) (hworks : WorkingModule p)
    {vars : DecprimVars} (hvars : 0 < vars.fail + vars.pass) (deferred : Int) (ciphval : Json)
    (before : List RsaPrimTc) :
    Settles (decprimCipher · deferred vars (jsonValueGetObject (some ciphval)) p before)
      (CipherOutcome p vars ciphval) := by
  cases hcipher : readString (jsonValueGetObject (some ciphval)) "cipherText" rsaExpByteMax with
  | error e =>
    simp only [decprimCipher, hcipher, ofExcept_error_bind]
    refine Settles.const ⟨by simp, by simp, ?_⟩
    rintro ⟨cipher, data, hread, -⟩
    rw [hcipher] at hread
    cases hread
  | ok cipher =>
    simp only [decprimCipher, hcipher, ofExcept_ok_bind]
    cases hinit : decprimInitTc 2048 deferred vars.pass vars.fail cipher with
    | error e =>
      -- The answer is made of a structure without buffers, and is refused.
      simp only [decprimOutputTc_empty, ofExcept_error_bind]
      refine Settles.const ⟨by simp, by simp, ?_⟩
      rintro ⟨cipher', data, hread, hdata⟩
      obtain rfl : cipher = cipher' := Except.ok.inj (hcipher.symm.trans hread)
      obtain ⟨q, hq⟩ := decprimInitTc_isOk.mpr ⟨data, hdata⟩
      rw [hinit] at hq
      cases hq
    | ok q =>
      have hq := decprimInitTc_vars hinit
      obtain ⟨n, hn⟩ := hcounts.progress before q (by rw [← hq] at hvars; exact hvars)
      have hcall := decprimCall_settles hcounts hworks hn
      rw [hq] at hcall
      refine Settles.dialog_bind hcall (fun e asked h => ?_) fun tc asked h => ?_
      · obtain ⟨-, n, tc, hok, -⟩ := h
        cases hok
      · obtain ⟨hasked, n, tc', hok, htc, hoff, hanswerable⟩ := h
        obtain rfl : tc = tc' := Except.ok.inj hok
        obtain ⟨rsp, hrsp, hfailed⟩ := decprimOutputTc_of_answerable hanswerable
        simp only [hrsp, ofExcept_ok_bind]
        refine Settles.const ⟨fun q' hq' => ?_, ?_, ?_⟩
        · have hvars' : q'.vars = q.vars := hasked q' (by simpa [Dialog.pure_apply] using hq')
          change q'.vars.Within vars
          rw [hvars', hq]
          exact ⟨le_rfl, le_rfl⟩
        · exact ⟨cipher, deferred, vars.pass, vars.fail, q, before, n, rsp, hcipher, hinit,
            htc ▸ hrsp, rfl⟩
        · have hpassed : entryFailed (some rsp) = false ↔ tc.disposition ≠ 0 := by
            rw [← Bool.not_eq_true, hfailed]
          rw [hq] at hoff
          unfold CountedOff at hoff ⊢
          rwa [hpassed]

/-! ## The cipher texts of a test -/

/-- The cipher texts of a test. -/
def ciphersOf (testobj : Option JsonObject) : List Json :=
  jsonArrayElems (jsonObjectGetArray testobj "resultsArray")

/-- The entries have used up the counters: the failed ones that of the tests to fail, all of them
the sum. -/
def Used (vars vars' : DecprimVars) (entries : List (Option JsonObject)) : Prop :=
  vars.fail = vars'.fail + entries.countP entryFailed ∧
    vars.fail + vars.pass = vars'.fail + vars'.pass + entries.length

/-- Without entries the counters are as before. -/
theorem used_nil (vars : DecprimVars) : Used vars vars [] := ⟨rfl, rfl⟩

/-- Entries in two parts use the counters up one after the other. -/
theorem Used.append {vars vars' vars'' : DecprimVars} {entries entries' : List (Option JsonObject)}
    (h : Used vars vars' entries) (h' : Used vars' vars'' entries') :
    Used vars vars'' (entries ++ entries') := by
  obtain ⟨hfail, hsum⟩ := h
  obtain ⟨hfail', hsum'⟩ := h'
  refine ⟨?_, ?_⟩
  · rw [List.countP_append]
    omega
  · rw [List.length_append]
    omega

/-- One that is counted off is used up by its entry. -/
theorem CountedOff.used {vars vars' : DecprimVars} {entry : Option JsonObject}
    (h : CountedOff vars vars' (entryFailed entry = false)) : Used vars vars' [entry] := by
  rcases h with ⟨hfail, hpass, hentry⟩ | ⟨hpass, hfail, hentry⟩
  · rw [Bool.not_eq_false] at hentry
    refine ⟨?_, ?_⟩
    · rw [List.countP_singleton, if_pos hentry]
      exact hfail
    · rw [List.length_singleton]
      omega
  · refine ⟨?_, ?_⟩
    · rw [List.countP_singleton, hentry]
      exact hfail.symm
    · rw [List.length_singleton]
      omega

/-- What is used up makes the counters no larger. -/
theorem Used.within {vars vars' : DecprimVars} {entries : List (Option JsonObject)}
    (h : Used vars vars' entries) : vars'.Within vars := by
  have hcount := List.countP_le_length (p := entryFailed) (l := entries)
  obtain ⟨hfail, hsum⟩ := h
  exact ⟨by omega, by omega⟩

/-- Counters that have not grown twice have not grown. -/
theorem DecprimVars.Within.trans {a b c : DecprimVars} (h : a.Within b) (h' : b.Within c) :
    a.Within c := ⟨h.1.trans h'.1, h.2.trans h'.2⟩

/-- The same for all ciphertexts of a test, by induction on them. -/
theorem decprimCiphers_settles (hcounts : CountingModule p) (hworks : WorkingModule p)
    (deferred : Int) (ciphers : List Json) {vars : DecprimVars}
    (hvars : ciphers.length ≤ vars.fail + vars.pass) (before : List RsaPrimTc) :
    Settles (decprimCiphers · deferred vars ciphers p before)
      (RunOutcome (fun q => q.vars.Within vars)
        (fun out => List.Forall₂ (CipherAnswered p) ciphers (out.1.map some) ∧
          Used vars out.2 (out.1.map some))
        (∃ ciphval ∈ ciphers, ¬Decodable ciphval)) := by
  induction ciphers generalizing vars before with
  | nil => exact Settles.const ⟨fun q hq => absurd hq List.not_mem_nil, .nil, used_nil vars⟩
  | cons ciphval ciphers ih =>
    rw [List.length_cons] at hvars
    refine outcome_bind (decprimCipher_settles hcounts hworks (by omega) deferred ciphval before)
      (fun hbad => ⟨ciphval, List.mem_cons_self, hbad⟩) fun out before' hout => ?_
    obtain ⟨hanswered, hoff⟩ := hout
    have hused := hoff.used
    have hsum := hused.2
    rw [List.length_singleton] at hsum
    have hleft : ciphers.length ≤ out.2.fail + out.2.pass := by omega
    refine outcome_bind ((ih hleft before').mono fun _ h =>
      h.mono (fun q hq => hq.trans hused.within) (fun _ h => h)
        fun ⟨c, hc, hbad⟩ => ⟨c, List.mem_cons_of_mem _ hc, hbad⟩) (fun h => h)
      fun rest before'' hrest => ?_
    exact Settles.const ⟨fun q hq => absurd hq List.not_mem_nil, .cons hanswered hrest.1,
      hused.append hrest.2⟩

/-! ## Tests and groups -/

/-- The entries of a test in the answer. -/
def entriesOf (test : Option JsonObject) : List (Option JsonObject) := objectsOf test "resultsArray"

/-- A test that has what the handler asks for. -/
def TestWellFormed (testobj : Option JsonObject) : Prop :=
  jsonObjectGetBoolean testobj "deferred" ≠ -1 ∧ ∀ ciphval ∈ ciphersOf testobj, Decodable ciphval

/-- A test has one entry for every cipher text, in order. -/
def TestAnswered (p : Partner RsaPrimTc) (testobj test : Option JsonObject) : Prop :=
  List.Forall₂ (CipherAnswered p) (ciphersOf testobj) (entriesOf test)

/-- The entries of an answered test are those that were put into it. -/
theorem entriesOf_test (testobj : Option JsonObject) (rsps : List JsonObject) :
    entriesOf (some (responseTest testobj ++ [("resultsArray", .arr (rsps.map .obj))])) =
      rsps.map some :=
  objectsOf_obj rsps _ "resultsArray" rfl

/-- The work on a test ends, with its entries or with an error for a reason. -/
theorem decprimTest_settles (hcounts : CountingModule p) (hworks : WorkingModule p)
    (testobj : Option JsonObject) {vars : DecprimVars}
    (hvars : (ciphersOf testobj).length ≤ vars.fail + vars.pass) (before : List RsaPrimTc) :
    Settles (decprimTest · vars testobj p before)
      (RunOutcome (fun q => q.vars.Within vars) (fun out => TestAnswered p testobj (some out.1) ∧
        Used vars out.2 (entriesOf (some out.1))) (¬TestWellFormed testobj)) := by
  by_cases hdeferred : jsonObjectGetBoolean testobj "deferred" = -1
  · have hstop : stopIf (jsonObjectGetBoolean testobj "deferred" = -1) AmvpResult.missingArg =
        .error .missingArg := if_pos hdeferred
    simp only [decprimTest, hstop, ofExcept_error_bind]
    exact Settles.const ⟨by simp, by simp, fun h => h.1 hdeferred⟩
  · simp only [decprimTest, stopIf_neg hdeferred, ofExcept_ok_bind]
    refine outcome_bind (decprimCiphers_settles hcounts hworks _ _ hvars before)
      (fun hbad h => ?_) fun out before' hout => ?_
    · obtain ⟨ciphval, hmem, hbad⟩ := hbad
      exact hbad (h.2 ciphval hmem)
    refine Settles.const ⟨fun q hq => absurd hq List.not_mem_nil, ?_⟩
    change List.Forall₂ _ _ _ ∧ Used _ _ _
    rw [entriesOf_test]
    exact hout

/-- The number of cipher texts of tests. -/
def cipherCount (items : List (Option JsonObject)) : Nat :=
  (items.map fun testobj => (ciphersOf testobj).length).sum

/-- Questions of one kind, asked in one place, are of that kind there. -/
theorem mem_place {i j : Nat} {asks : RsaPrimTc → Prop} {asked : List RsaPrimTc}
    (h : ∀ q ∈ asked, asks q) :
    ∀ x ∈ asked.map (((i, j) : Place), ·), x.1.1 = i ∧ asks x.2 := by
  intro x hx
  obtain ⟨q, hq, rfl⟩ := List.mem_map.mp hx
  exact ⟨rfl, h q hq⟩

/-- The same for all tests of a group, by induction on them. -/
theorem decprimItems_settles (hcounts : CountingModule p) (hworks : WorkingModule p) (i : Nat)
    (tgId : Int) (items : List (Option JsonObject)) (j : Nat) {vars : DecprimVars}
    (hvars : cipherCount items ≤ vars.fail + vars.pass) (before : List RsaPrimTc) :
    Settles (fun fuel => (decprimWorker fuel).runItems p i tgId j vars items before)
      (RunOutcome (fun x => x.1.1 = i ∧ x.2.vars.Within vars)
        (fun out => List.Forall₂ (TestAnswered p) items (out.1.map some) ∧
          Used vars out.2 ((out.1.map some).flatMap entriesOf))
        (∃ testobj ∈ items, ¬TestWellFormed testobj)) := by
  induction items generalizing j vars before with
  | nil => exact Settles.const ⟨fun q hq => absurd hq List.not_mem_nil, .nil, used_nil vars⟩
  | cons testobj items ih =>
    simp only [cipherCount, List.map_cons, List.sum_cons] at hvars
    refine Settles.runItems_cons (decprimTest_settles hcounts hworks testobj (by omega) before)
      (fun e asked h => ⟨mem_place h.1, h.2.1, testobj, List.mem_cons_self, h.2.2⟩)
      fun test vars' asked h => ?_
    obtain ⟨hasked, hanswered, hused⟩ := h
    have hsum := hused.2
    have hlength := hanswered.length_eq
    dsimp only at hsum hlength
    have hitems : cipherCount items ≤ vars'.fail + vars'.pass := by
      unfold cipherCount
      omega
    refine (ih (j + 1) hitems (before ++ asked)).mono fun out hout => ?_
    refine (hout.mono (fun x hx => ⟨hx.1, hx.2.trans hused.within⟩) (fun _ h => h)
      fun ⟨t, ht, hbad⟩ => ⟨t, List.mem_cons_of_mem _ ht, hbad⟩).prepend (mem_place hasked)
        fun rest hrest => ⟨.cons hanswered hrest.1, ?_⟩
    rw [List.map_cons, List.flatMap_cons]
    exact hused.append hrest.2

/-! ## The handler -/

/-- How many cipher texts of a group have to fail, as the server says. -/
def totalFailingCases (groupobj : Option JsonObject) : Nat :=
  toUnsigned (jsonObjectGetNumber groupobj "totalFailingCases")

/-- How many cipher texts a group has, as the server says. -/
def totalTestCases (groupobj : Option JsonObject) : Nat :=
  toUnsigned (jsonObjectGetNumber groupobj "totalTestCases")

/-- The numbers that the server has sent are those of the cipher texts, and some have to fail. -/
def GroupCounted (b : TestGroup) : Prop :=
  1 ≤ totalFailingCases b.head ∧ totalFailingCases b.head ≤ totalTestCases b.head ∧
    totalTestCases b.head = cipherCount b.items

instance (b : TestGroup) : Decidable (GroupCounted b) := inferInstanceAs (Decidable (_ ∧ _ ∧ _))

/-- A group that has what the handler asks for, as all its tests have. -/
def GroupWellFormed (b : TestGroup) : Prop :=
  toInt (jsonObjectGetNumber b.head "tgId") ≠ 0 ∧
    toUnsigned (jsonObjectGetNumber b.head "modulo") = 2048 ∧
    ∀ testobj ∈ b.items, TestWellFormed testobj

/-- A group of the answer has one test for every test, and as many entries have failed as the
server has asked for. -/
def GroupAnswered (p : Partner RsaPrimTc) (b : TestGroup) (group : Option JsonObject) : Prop :=
  List.Forall₂ (TestAnswered p) b.items (objectsOf group "tests") ∧
    ((objectsOf group "tests").flatMap entriesOf).countP entryFailed = totalFailingCases b.head

/-- The counters of a question are at most what the server has sent for its group. -/
def GroupAsks (b : TestGroup) (q : RsaPrimTc) : Prop :=
  q.fail ≤ totalFailingCases b.head ∧
    q.pass ≤ totalTestCases b.head - totalFailingCases b.head

/-- A group that is read gives its counters: the tests to fail and the others. -/
theorem readDecprimGroup_ok {b : TestGroup} (h : GroupCounted b) {out : Int × DecprimVars}
    (hread : readDecprimGroup b.head = .ok out) :
    out.2 = ⟨totalFailingCases b.head, totalTestCases b.head - totalFailingCases b.head⟩ := by
  have htotal : totalTestCases b.head < 2 ^ 32 := toUnsigned_lt _
  simp only [readDecprimGroup, bind_eq_ok, stopIf_eq_ok, exists_const, pure_eq_ok] at hread
  obtain ⟨tgId, -, -, -, -, rfl⟩ := hread
  refine congrArg (DecprimVars.mk _) ?_
  obtain ⟨-, hle, -⟩ := h
  unfold totalTestCases totalFailingCases at *
  unfold unsignedOfInt
  omega

/-- A group that is not read is not well formed. -/
theorem readDecprimGroup_error {b : TestGroup} (h : GroupCounted b) {e : AmvpResult}
    (hread : readDecprimGroup b.head = .error e) : ¬GroupWellFormed b := by
  rintro ⟨htgId, hmodulo, -⟩
  obtain ⟨hfailing, hle, -⟩ := h
  have hfail : ¬toUnsigned (jsonObjectGetNumber b.head "totalFailingCases") = 0 := by
    unfold totalFailingCases at hfailing
    omega
  have htotal : ¬toUnsigned (jsonObjectGetNumber b.head "totalTestCases") = 0 := by
    unfold totalTestCases totalFailingCases at hle
    omega
  simp only [readDecprimGroup, readTgId, stopIf_neg htgId, stopIf_neg (not_not.mpr hmodulo),
    stopIf_neg htotal, stopIf_neg hfail, ok_bind] at hread
  cases hread

/-- Answered tests have as many entries as ciphertexts. -/
theorem length_entries {items : List (Option JsonObject)} {tests : List (Option JsonObject)}
    (h : List.Forall₂ (TestAnswered p) items tests) :
    (tests.flatMap entriesOf).length = cipherCount items := by
  induction h with
  | nil => rfl
  | cons hanswered _ ih =>
    rw [List.flatMap_cons, List.length_append, ih, ← hanswered.length_eq]
    rfl

/-- The work on a group ends, with all its tests answered or with an error for a reason. -/
theorem decprimBatch_settles (hcounts : CountingModule p) (hworks : WorkingModule p) (i : Nat)
    (vars : DecprimVars) {b : TestGroup} (hb : GroupCounted b) (before : List RsaPrimTc) :
    Settles (fun fuel => (decprimWorker fuel).runBatch p i vars b before)
      (RunOutcome (fun x => x.1.1 = i ∧ GroupAsks b x.2)
        (fun out => GroupAnswered p b (some out.1)) (¬GroupWellFormed b)) := by
  cases hread : readDecprimGroup b.head with
  | error e =>
    have hrun (fuel : Nat) : (decprimWorker fuel).runBatch p i vars b before =
        (.error (some e), []) := by
      simp [Worker.runBatch, decprimWorker, hread, Except.mapError]
    simp only [hrun]
    exact Settles.const ⟨by simp, by simp, readDecprimGroup_error hb hread⟩
  | ok head =>
    obtain ⟨tgId, vars'⟩ := head
    have hvars := readDecprimGroup_ok hb hread
    dsimp only at hvars
    let close (out : Except (Option AmvpResult) (List JsonObject × DecprimVars) ×
        List (Place × RsaPrimTc)) :=
      (out.1.map fun out => (responseGroup "tgId" tgId out.1, out.2), [] ++ out.2)
    have hrun (fuel : Nat) : (decprimWorker fuel).runBatch p i vars b before =
        close ((decprimWorker fuel).runItems p i tgId 0 vars' b.items before) := by
      simp [Worker.runBatch, decprimWorker, hread, Except.mapError, close]
    simp only [hrun]
    obtain ⟨hfailing, hle, htotal⟩ := hb
    have hitems : cipherCount b.items ≤ vars'.fail + vars'.pass := by
      rw [hvars]
      dsimp only
      omega
    refine (decprimItems_settles hcounts hworks i tgId b.items 0 hitems before).map
      fun out hout => ?_
    rw [hvars] at hout
    have hill : (∃ t ∈ b.items, ¬TestWellFormed t) → ¬GroupWellFormed b := by
      rintro ⟨t, ht, hbad⟩ hwell
      exact hbad (hwell.2.2 t ht)
    refine (hout.mono (fun x hx => hx) (fun _ h => h) hill).prepend (List.forall_mem_nil _)
      fun tests htests => ?_
    obtain ⟨hanswered, hused⟩ := htests
    have htests : objectsOf (some (responseGroup "tgId" tgId tests.1)) "tests" = tests.1.map some :=
      objectsOf_responseGroup "tgId" tgId tests.1 (by decide)
    unfold GroupAnswered
    rw [htests]
    refine ⟨hanswered, ?_⟩
    obtain ⟨hfail, hsum⟩ := hused
    rw [length_entries hanswered] at hsum
    dsimp only at hfail hsum
    omega

/-- The same for all groups, by induction on them. -/
theorem decprimBatches_settles (hcounts : CountingModule p) (hworks : WorkingModule p)
    (bs : List TestGroup) (hbs : ∀ b ∈ bs, GroupCounted b) (i : Nat) (vars : DecprimVars)
    (before : List RsaPrimTc) :
    Settles (fun fuel => (decprimWorker fuel).runBatches p i vars bs before)
      (RunOutcome (fun x => ∃ k b, x.1.1 = i + k ∧ bs[k]? = some b ∧ GroupAsks b x.2)
        (fun out => List.Forall₂ (GroupAnswered p) bs (out.1.map some))
        (∃ b ∈ bs, ¬GroupWellFormed b)) := by
  induction bs generalizing i vars before with
  | nil => exact Settles.const ⟨fun q hq => absurd hq List.not_mem_nil, .nil⟩
  | cons b bs ih =>
    have hbatch := decprimBatch_settles hcounts hworks i vars (hbs b List.mem_cons_self) before
    have hfirst {asked : List (Place × RsaPrimTc)}
        (h : ∀ x ∈ asked, x.1.1 = i ∧ GroupAsks b x.2) :
        ∀ x ∈ asked, ∃ k b', x.1.1 = i + k ∧ (b :: bs)[k]? = some b' ∧ GroupAsks b' x.2 :=
      fun x hx => ⟨0, b, (h x hx).1, rfl, (h x hx).2⟩
    refine Settles.runBatches_cons hbatch
      (fun e asked h => ⟨hfirst h.1, h.2.1, b, List.mem_cons_self, h.2.2⟩)
      fun group vars' asked h => ?_
    refine (ih (fun b hb => hbs b (List.mem_cons_of_mem _ hb)) (i + 1) vars' _).mono
      fun out hout => ?_
    refine (hout.mono (fun x ⟨k, b', hk, hb', hasks⟩ => ⟨k + 1, b', by omega, hb', hasks⟩)
      (fun _ h => h) fun ⟨b', hb', hbad⟩ => ⟨b', List.mem_cons_of_mem _ hb', hbad⟩).prepend
        (hfirst h.1) fun rest hrest => .cons h.2 hrest

/-- The handler ends.  Unless the vector set lacks something, or a cipher text cannot be decoded,
it succeeds with one entry for every cipher text, in order, of which exactly as many have failed
as the server has asked for; and no counter is ever above what the server has sent. -/
theorem decprim_accounting (ctx : KatCtx) {obj : JsonObject} (hcounts : CountingModule p)
    (hworks : WorkingModule p) (hgroups : ∀ b ∈ testGroups obj, GroupCounted b) :
    ∃ bound, ∀ fuel ≥ bound,
      (∀ x ∈ (decprimWorker fuel).asked p (testGroups obj), ∃ b,
        (testGroups obj)[x.1.1]? = some b ∧ GroupAsks b x.2) ∧
      ((∃ rsp, rsaDecprimKatHandler ctx fuel obj p = .ok rsp ∧
          List.Forall₂ (GroupAnswered p) (testGroups obj) (objectsOf (some rsp) "testGroups")) ∨
        ∃ e, rsaDecprimKatHandler ctx fuel obj p = .error (some e) ∧
          ((∃ e, setupRsaPrim ctx .rsaDecprim .malformedJson (withoutMember obj "testGroups") =
              .error e) ∨
            ∃ b ∈ testGroups obj, ¬GroupWellFormed b)) := by
  obtain ⟨bound, hbound⟩ :=
    (decprimBatches_settles hcounts hworks (testGroups obj) hgroups 0 {} []).eventually
  refine ⟨bound, fun fuel hfuel => ?_⟩
  obtain ⟨hasked, hout⟩ := hbound fuel hfuel
  refine ⟨fun x hx => ?_, ?_⟩
  · obtain ⟨k, b, hk, hb, hasks⟩ := hasked x hx
    rw [Nat.zero_add] at hk
    exact ⟨b, hk ▸ hb, hasks⟩
  · unfold rsaDecprimKatHandler
    cases hsetup : setupRsaPrim ctx .rsaDecprim .malformedJson (withoutMember obj "testGroups") with
    | error e => exact Or.inr ⟨e, rfl, Or.inl ⟨e, rfl⟩⟩
    | ok head =>
      have hresult : (decprimWorker fuel).result p (testGroups obj) =
          ((decprimWorker fuel).runBatches p 0 {} (testGroups obj) []).1.map Prod.fst := rfl
      cases hrun : ((decprimWorker fuel).runBatches p 0 {} (testGroups obj) []).1 with
      | error e =>
        rw [hrun] at hout
        obtain ⟨e, rfl⟩ := Option.ne_none_iff_exists'.mp hout.1
        rw [hresult, hrun]
        exact Or.inr ⟨e, rfl, Or.inr hout.2⟩
      | ok out =>
        rw [hrun] at hout
        rw [hresult, hrun]
        refine Or.inl ⟨_, rfl, ?_⟩
        unfold responseWithMode
        rw [objectsOf_withMode]
        exact hout

/-- A structure after one call of a module that first counts off the tests to fail. -/
def RsaPrimTc.counted (tc : RsaPrimTc) : RsaPrimTc :=
  if 0 < tc.fail then { tc with fail := tc.fail - 1, disposition := 0 }
  else if 0 < tc.pass then { tc with pass := tc.pass - 1, disposition := 1 }
  else tc

/-- A module that counts at every call. -/
def countingModule (n : Bytes) : Partner RsaPrimTc := .memoryless fun tc =>
  (0, { tc.counted with e := .fresh rsaExpByteMax, n := n, pt := .fresh rsaExpByteMax })

/-- The module of the example counts one off at every call. -/
theorem countingModule_counts (n : Bytes) : CountingModule (countingModule n) := by
  have hstep (q : RsaPrimTc) : q.counted.vars = q.vars ∧ q.fail + q.pass = 0 ∨
      CountedOff q.vars q.counted.vars (q.counted.disposition ≠ 0) := by
    unfold RsaPrimTc.counted
    by_cases hfail : 0 < q.fail
    · rw [if_pos hfail]
      exact .inr (.inl ⟨(Nat.sub_add_cancel hfail).symm, rfl, not_not.mpr rfl⟩)
    · rw [if_neg hfail]
      by_cases hpass : 0 < q.pass
      · rw [if_pos hpass]
        exact .inr (.inr ⟨(Nat.sub_add_cancel hpass).symm, rfl, one_ne_zero⟩)
      · rw [if_neg hpass]
        exact .inl ⟨rfl, by omega⟩
  refine ⟨fun before q => (hstep q).imp And.left id, fun before q hpos => ⟨1, fun hsame => ?_⟩⟩
  rcases hstep q with ⟨-, hzero⟩ | ⟨hfail, -, -⟩ | ⟨hpass, -, -⟩
  · omega
  · have hvars : q.counted.vars = q.vars := hsame
    rw [hvars] at hfail
    omega
  · have hvars : q.counted.vars = q.vars := hsame
    rw [hvars] at hpass
    omega

/-- And what it leaves can be encoded. -/
theorem countingModule_works : WorkingModule (countingModule (.fresh rsaExpByteMax)) := by
  have hfresh : Encodable (.fresh rsaExpByteMax) rsaExpLenMax := by
    unfold Encodable
    decide
  exact fun before q => ⟨rfl, hfresh, hfresh, fun _ => hfresh⟩

/-- One cipher text, which has to fail. -/
def decprimVectorSet (members : JsonObject) : JsonObject :=
  [("algorithm", .str "RSA"), ("mode", .str "decryptionPrimitive"),
    ("testGroups", .arr [.obj [("tgId", .num 1), ("modulo", .num 2048),
      ("totalTestCases", .num 1), ("totalFailingCases", .num 1),
      ("tests", .arr [.obj (("tcId", .num 1) :: members ++
        [("resultsArray", .arr [.obj [("cipherText", .str "0A")]])])])]])]

/-- A test with these cipher texts. -/
def deferredTest (tcId : ℚ) (texts : List String) : Json :=
  .obj [("tcId", .num tcId), ("deferred", .bool true),
    ("resultsArray", .arr (texts.map fun text => .obj [("cipherText", .str text)]))]

/-- One group with two tests, in which one of three cipher texts has to fail, and one in which one
of two has to. -/
def decprimTwoGroups : JsonObject :=
  [("algorithm", .str "RSA"), ("mode", .str "decryptionPrimitive"),
    ("testGroups", .arr [
      .obj [("tgId", .num 1), ("modulo", .num 2048), ("totalTestCases", .num 3),
        ("totalFailingCases", .num 1),
        ("tests", .arr [deferredTest 1 ["0A", "0B"], deferredTest 2 ["0C"]])],
      .obj [("tgId", .num 2), ("modulo", .num 2048), ("totalTestCases", .num 2),
        ("totalFailingCases", .num 1), ("tests", .arr [deferredTest 3 ["0D", "0E"]])]])]

/-- The statement at two groups with tests to pass and tests to fail. -/
theorem decprim_accounting_two :
    ∃ bound, ∀ fuel ≥ bound,
      (∀ x ∈ (decprimWorker fuel).asked (countingModule (.fresh rsaExpByteMax))
          (testGroups decprimTwoGroups), ∃ b,
        (testGroups decprimTwoGroups)[x.1.1]? = some b ∧ GroupAsks b x.2) ∧
      ((∃ rsp, rsaDecprimKatHandler (.registered .rsaPrim .rsaDecprim) fuel decprimTwoGroups
            (countingModule (.fresh rsaExpByteMax)) = .ok rsp ∧
          List.Forall₂ (GroupAnswered (countingModule (.fresh rsaExpByteMax)))
            (testGroups decprimTwoGroups) (objectsOf (some rsp) "testGroups")) ∨
        ∃ e, rsaDecprimKatHandler (.registered .rsaPrim .rsaDecprim) fuel decprimTwoGroups
            (countingModule (.fresh rsaExpByteMax)) = .error (some e) ∧
          ((∃ e, setupRsaPrim (.registered .rsaPrim .rsaDecprim) .rsaDecprim .malformedJson
              (withoutMember decprimTwoGroups "testGroups") = .error e) ∨
            ∃ b ∈ testGroups decprimTwoGroups, ¬GroupWellFormed b)) :=
  decprim_accounting _ (countingModule_counts _) countingModule_works (by decide +kernel)

/-- The entries of the answer to the two groups, as they passed or failed. -/
example : ((rsaDecprimKatHandler (.registered .rsaPrim .rsaDecprim) 2 decprimTwoGroups
    (countingModule (.fresh rsaExpByteMax))).toOption.map fun rsp =>
      (objectsOf (some rsp) "testGroups").map fun group =>
        ((objectsOf group "tests").flatMap entriesOf).map entryFailed) =
      some [[true, false, false], [true, false]] := by
  decide +kernel

/-- The handler also fails when all cipher texts can be decoded: when a test does not say whether
it is deferred, and when the module leaves a modulus that is too long to be written out. -/
theorem decprim_other_errors :
    (∀ members ∈ [[], [("deferred", Json.bool true)]],
      ∀ b ∈ testGroups (decprimVectorSet members), GroupCounted b ∧
        ∀ testobj ∈ b.items, ∀ ciphval ∈ ciphersOf testobj, Decodable ciphval) ∧
    (∀ n, CountingModule (countingModule n)) ∧
    (∀ fuel, rsaDecprimKatHandler (.registered .rsaPrim .rsaDecprim) fuel (decprimVectorSet [])
      (countingModule (.fresh rsaExpByteMax)) = .error (some .missingArg)) ∧
    ∀ fuel, rsaDecprimKatHandler (.registered .rsaPrim .rsaDecprim) (fuel + 1)
      (decprimVectorSet [("deferred", .bool true)])
      (countingModule { data := some ⟨rsaExpByteMax, []⟩, len := 513 }) =
        .error (some .convertDataErr) := by
  refine ⟨?_, countingModule_counts, fun fuel => rfl, fun fuel => rfl⟩
  have hset : ∀ members ∈ [[], [("deferred", Json.bool true)]],
      ∀ b ∈ testGroups (decprimVectorSet members), GroupCounted b ∧
        ∀ testobj ∈ b.items, ∀ ciphval ∈ ciphersOf testobj,
          jsonObjectGetString (jsonValueGetObject (some ciphval)) "cipherText" = some "0A" := by
    decide +kernel
  intro members hmembers b hb
  obtain ⟨hcounted, hciphers⟩ := hset members hmembers b hb
  refine ⟨hcounted, fun testobj htest ciphval hciphval => ⟨"0A", [10], ?_, rfl⟩⟩
  unfold readString
  rw [hciphers testobj htest ciphval hciphval]
  rfl

end LibAmvp
