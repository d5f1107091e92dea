import LibAmvp.Session.Results

/-!
# Waiting for the server

The loops that download a vector set, download an evidence set or poll the results of a
session ask the server again after a wait.  {lit}`amvp_retry_handler` accounts for every
wait and refuses the next one once the accounted time has reached the maximum.  The time
it sleeps is clamped twice: to the time that is left, and then to the shortest and the
longest period.  The second clamp can undo the first.

Main results:

- Theorem {lit}`sleptTotal_le_maxWait`: the time slept stays within the maximum when the
  second clamp never undoes the first.
- Theorem {lit}`polling_ends`: each loop ends after at most 1201 polls, whatever the server
  replies.
-/

namespace LibAmvp

/-! ## One wait -/

/-- The period that {lit}`amvp_retry_handler` sleeps for.  The sum of the unsigned time and
the signed period wraps. -/
def sleptPeriod (period : Int) (waited : Nat) : Int :=
  let period := if amvpMaxWaitTime < ((waited : Int) + period) % 2 ^ 32 then
    (amvpMaxWaitTime : Int) - waited else period
  if period ≤ amvpRetryTimeMin ∨ amvpRetryTimeMax < period then amvpRetryTimeMax else period

/-- The period that {lit}`amvp_retry_handler` accounts for. -/
def accountedPeriod (slept modifier : Int) : Int :=
  let modifier := if modifier < 1 ∨ amvpRetryModifierMax < modifier then 1 else modifier
  if amvpRetryTimeMax < slept * modifier then amvpRetryTimeMax else slept * modifier

/-- A wait that is not refused sleeps for one period and accounts for another. -/
theorem retryHandler_eq {waited : Nat} (h : waited < amvpMaxWaitTime) (period modifier : Int) :
    retryHandler period waited modifier =
      some (accountedPeriod (sleptPeriod period waited) modifier,
        waited + (accountedPeriod (sleptPeriod period waited) modifier).toNat) := by
  unfold retryHandler
  rw [if_neg (by omega)]
  rfl

theorem retryHandler_refused {waited : Nat} (h : amvpMaxWaitTime ≤ waited)
    (period modifier : Int) : retryHandler period waited modifier = none := by
  unfold retryHandler
  rw [if_pos h]

theorem sleptPeriod_bounds (period : Int) (waited : Nat) :
    amvpRetryTimeMin < sleptPeriod period waited ∧
      sleptPeriod period waited ≤ amvpRetryTimeMax := by
  have hmin : amvpRetryTimeMin = 5 := rfl
  have hmax : amvpRetryTimeMax = 300 := rfl
  unfold sleptPeriod
  extract_lets p
  split <;> omega

/-- The accounted period is no shorter than the slept one. -/
theorem accountedPeriod_bounds {slept : Int} (hlower : amvpRetryTimeMin < slept)
    (hupper : slept ≤ amvpRetryTimeMax) (modifier : Int) :
    slept ≤ accountedPeriod slept modifier ∧
      accountedPeriod slept modifier ≤ amvpRetryTimeMax := by
  have hmin : amvpRetryTimeMin = 5 := rfl
  unfold accountedPeriod
  extract_lets m
  have hm : 1 ≤ m := by
    simp only [m]
    split <;> omega
  have hle : slept ≤ slept * m := by
    nlinarith
  split
  · exact ⟨hupper, le_refl _⟩
  · exact ⟨hle, by omega⟩

/-- A modifier that changes nothing. -/
def Unmodified (modifier : Int) : Prop := modifier ≤ 1 ∨ amvpRetryModifierMax < modifier

theorem accountedPeriod_of_unmodified {slept modifier : Int} (hupper : slept ≤ amvpRetryTimeMax)
    (h : Unmodified modifier) : accountedPeriod slept modifier = slept := by
  have hm : (if modifier < 1 ∨ amvpRetryModifierMax < modifier then 1 else modifier) = 1 := by
    split
    · rfl
    · rcases h with h | h <;> omega
  unfold accountedPeriod
  simp only [hm, mul_one]
  exact if_neg (by omega)

/-! ## The budget of a run -/

/-- The seconds slept by successive calls with these periods and modifiers, up to the first
refusal. -/
def sleptTotal : Nat → List (Int × Int) → Int
  | _, [] => 0
  | waited, (period, modifier) :: calls =>
    match retryHandler period waited modifier with
    | none => 0
    | some (_, waited') => sleptPeriod period waited + sleptTotal waited' calls

/-- The longest period still fits into the time that is left, or more than the shortest
period is left and asked for.  A negative period larger than the accounted time wraps to
one that is clamped to the time left. -/
def FitsBudget (waited : Nat) (period : Int) : Prop :=
  waited + amvpRetryTimeMax ≤ amvpMaxWaitTime ∨
    (waited + amvpRetryTimeMin < amvpMaxWaitTime ∧
      (amvpRetryTimeMin < period ∨ waited + period < 0))

instance (waited : Nat) (period : Int) : Decidable (FitsBudget waited period) :=
  inferInstanceAs (Decidable (_ ∨ _))

/-- Every call up to the first refusal fits into the time that is left. -/
def AllFitBudget : Nat → List (Int × Int) → Prop
  | _, [] => True
  | waited, (period, modifier) :: calls =>
    match retryHandler period waited modifier with
    | none => True
    | some (_, waited') => FitsBudget waited period ∧ AllFitBudget waited' calls

/-- The period slept is within the time left exactly when the call fits. -/
theorem sleptPeriod_le_iff {waited : Nat} {period : Int} (hwaited : waited < amvpMaxWaitTime)
    (hperiod : IsInt period) :
    waited + sleptPeriod period waited ≤ amvpMaxWaitTime ↔ FitsBudget waited period := by
  have hmin : amvpRetryTimeMin = 5 := rfl
  have hmax : amvpRetryTimeMax = 300 := rfl
  have hwait : amvpMaxWaitTime = 7200 := rfl
  obtain ⟨hlower, hupper⟩ := hperiod
  unfold sleptPeriod FitsBudget
  extract_lets p
  by_cases hneg : (waited : Int) + period < 0
  · have hwrap : ((waited : Int) + period) % 2 ^ 32 = waited + period + 2 ^ 32 := by omega
    have hp : p = (amvpMaxWaitTime : Int) - waited := by
      simp only [p, hwrap]
      exact if_pos (by omega)
    rw [hp]
    split <;> omega
  · have hwrap : ((waited : Int) + period) % 2 ^ 32 = waited + period := by omega
    have hp : p = if (amvpMaxWaitTime : Int) < waited + period then
        (amvpMaxWaitTime : Int) - waited else period := by
      simp only [p, hwrap]
    rw [hp]
    split <;> split <;> omega

/-- From an accounted time on, the seconds slept fit into the time that is left. -/
theorem sleptTotal_le_timeLeft (calls : List (Int × Int)) {waited : Nat}
    (hwaited : waited ≤ amvpMaxWaitTime) (hints : ∀ c ∈ calls, IsInt c.1)
    (hfit : AllFitBudget waited calls) :
    waited + sleptTotal waited calls ≤ amvpMaxWaitTime := by
  induction calls generalizing waited with
  | nil => simpa [sleptTotal] using hwaited
  | cons c calls ih =>
      obtain ⟨period, modifier⟩ := c
      by_cases hlt : waited < amvpMaxWaitTime
      swap
      · simp only [sleptTotal, retryHandler_refused (not_lt.1 hlt)]
        omega
      simp only [AllFitBudget, retryHandler_eq hlt] at hfit
      have hslept := sleptPeriod_bounds period waited
      have haccounted := accountedPeriod_bounds hslept.1 hslept.2 modifier
      have hmin : amvpRetryTimeMin = 5 := rfl
      have hstep : waited + sleptPeriod period waited ≤ amvpMaxWaitTime :=
        (sleptPeriod_le_iff hlt (hints (period, modifier) (List.mem_cons_self ..))).2 hfit.1
      simp only [sleptTotal, retryHandler_eq hlt]
      by_cases hnext : waited + (accountedPeriod (sleptPeriod period waited) modifier).toNat ≤
          amvpMaxWaitTime
      · have hrest := ih hnext (fun c hc => hints c (List.mem_cons_of_mem _ hc)) hfit.2
        omega
      · -- the accounted time has reached the maximum: the next call is refused
        have hrest : sleptTotal
            (waited + (accountedPeriod (sleptPeriod period waited) modifier).toNat) calls = 0 := by
          cases calls with
          | nil => rfl
          | cons c' calls' => simp only [sleptTotal, retryHandler_refused (not_le.1 hnext).le]
        omega

theorem sleptTotal_nonneg (calls : List (Int × Int)) (waited : Nat) :
    0 ≤ sleptTotal waited calls := by
  induction calls generalizing waited with
  | nil => exact le_refl 0
  | cons c calls ih =>
      obtain ⟨period, modifier⟩ := c
      have hslept := sleptPeriod_bounds period waited
      have hmin : amvpRetryTimeMin = 5 := rfl
      unfold sleptTotal
      cases retryHandler period waited modifier with
      | none => exact le_refl 0
      | some next =>
          have hrest := ih next.2
          simp only
          omega

/-- Where the modifiers change nothing, a call that does not fit exceeds the time left. -/
theorem allFitBudget_of_sleptTotal_le (calls : List (Int × Int)) {waited : Nat}
    (hints : ∀ c ∈ calls, IsInt c.1) (hmodifiers : ∀ c ∈ calls, Unmodified c.2)
    (h : waited + sleptTotal waited calls ≤ amvpMaxWaitTime) : AllFitBudget waited calls := by
  induction calls generalizing waited with
  | nil => trivial
  | cons c calls ih =>
      obtain ⟨period, modifier⟩ := c
      by_cases hlt : waited < amvpMaxWaitTime
      swap
      · simp only [AllFitBudget, retryHandler_refused (not_lt.1 hlt)]
      have hslept := sleptPeriod_bounds period waited
      have hmin : amvpRetryTimeMin = 5 := rfl
      have haccounted : accountedPeriod (sleptPeriod period waited) modifier =
          sleptPeriod period waited :=
        accountedPeriod_of_unmodified hslept.2
          (hmodifiers (period, modifier) (List.mem_cons_self ..))
      have hperiod : IsInt period := hints (period, modifier) (List.mem_cons_self ..)
      simp only [sleptTotal, retryHandler_eq hlt, haccounted] at h
      simp only [AllFitBudget, retryHandler_eq hlt, haccounted]
      have hrest : (0 : Int) ≤ sleptTotal (waited + (sleptPeriod period waited).toNat) calls :=
        sleptTotal_nonneg calls _
      constructor
      · apply (sleptPeriod_le_iff hlt hperiod).1
        omega
      · apply ih (fun c hc => hints c (List.mem_cons_of_mem _ hc))
          (fun c hc => hmodifiers c (List.mem_cons_of_mem _ hc))
        omega

/-- In every run of successive calls that starts with no accounted time: when every call fits
into the time left, the seconds slept sum to at most the maximum.  For modifiers that
change nothing, which are the only ones the library passes, the sum exceeds the maximum
otherwise. -/
theorem sleptTotal_le_maxWait (calls : List (Int × Int)) (hints : ∀ c ∈ calls, IsInt c.1) :
    (AllFitBudget 0 calls → sleptTotal 0 calls ≤ amvpMaxWaitTime) ∧
      ((∀ c ∈ calls, Unmodified c.2) → sleptTotal 0 calls ≤ amvpMaxWaitTime →
        AllFitBudget 0 calls) := by
  constructor
  · intro hfit
    have h := sleptTotal_le_timeLeft calls (Nat.zero_le _) hints hfit
    simpa using h
  · intro hmodifiers h
    apply allFitBudget_of_sleptTotal_le calls hints hmodifiers
    simpa using h

/-- A server that asks for the longest period every time. -/
theorem sleptTotal_le_maxWait_longest :
    AllFitBudget 0 (List.replicate 30 (300, 1)) ∧
      sleptTotal 0 (List.replicate 30 (300, 1)) ≤ amvpMaxWaitTime :=
  have hfit : AllFitBudget 0 (List.replicate 30 (300, 1)) := by
    simp [List.replicate, AllFitBudget, retryHandler, FitsBudget, amvpMaxWaitTime,
      amvpRetryTimeMin, amvpRetryTimeMax, amvpRetryModifierMax]
  ⟨hfit, (sleptTotal_le_maxWait (List.replicate 30 (300, 1)) (by simp [IsInt])).1 hfit⟩

/-- A server that asks for six seconds and then for one second at a time makes the library
sleep for six seconds more than the maximum. -/
theorem sleptTotal_exceeds_maxWait :
    sleptTotal 0 ((6, 1) :: List.replicate 24 (1, 1)) = amvpMaxWaitTime + 6 := by
  decide

/-! ## The number of polls -/

/-- The rounds of a waiting loop that are left when this time has been accounted for. -/
def pollsLeft (waited : Nat) : Nat := (amvpMaxWaitTime - waited + 5) / 6

/-- Every wait accounts for more than the shortest period. -/
theorem retryHandler_pollsLeft {period period' modifier : Int} {waited waited' : Nat}
    (h : retryHandler period waited modifier = some (period', waited')) :
    pollsLeft waited' < pollsLeft waited := by
  have hmin : amvpRetryTimeMin = 5 := rfl
  by_cases hlt : waited < amvpMaxWaitTime
  · rw [retryHandler_eq hlt] at h
    obtain ⟨-, rfl⟩ := Prod.mk.inj (Option.some.inj h)
    have hslept := sleptPeriod_bounds period waited
    have haccounted := accountedPeriod_bounds hslept.1 hslept.2 modifier
    unfold pollsLeft
    omega
  · rw [retryHandler_refused (not_lt.1 hlt)] at h
    cases h

section Loops

variable (out : Outside)

/-- A round of a download loop that does not end it has waited. -/
theorem processSetRound_waited {kind : SetKind} {vsidUrl : String} {count waited waited' : Nat}
    {w : World} (h : (processSetRound out kind vsidUrl count waited w).1 = .inl waited') :
    ∃ period period', retryHandler period waited 1 = some (period', waited') := by
  obtain ⟨⟨rv, w₁⟩, hget⟩ : ∃ q, retrieveVectorSet out vsidUrl w = q := ⟨_, rfl⟩
  rw [processSetRound, Prog.bind_of_eq hget] at h
  by_cases hrv : rv = .success
  · rw [if_neg (not_not.2 hrv), getCtx_bind] at h
    cases hbuf : w₁.ctx.curlBuf with
    | none =>
        rw [hbuf] at h
        cases h
    | some val =>
        simp only [hbuf] at h
        by_cases hretry : toInt (jsonObjectGetNumber (getObjFromRsp (some val)) "retry") = 0
        · rw [if_neg (not_not.2 hretry)] at h
          cases h
        · rw [if_pos hretry] at h
          cases hwait : retryHandler
            (toInt (jsonObjectGetNumber (getObjFromRsp (some val)) "retry")) waited 1 with
          | none =>
              rw [hwait] at h
              cases h
          | some next =>
              rw [hwait] at h
              cases h
              exact ⟨_, _, hwait⟩
  · rw [if_pos hrv] at h
    cases h

/-- A round of the polling loop that does not end it has waited. -/
theorem resultRound_waited {sessionUrl : Option String} {p p' : Polling} {w : World}
    (h : (resultRound out sessionUrl p w).1 = .inl p') :
    ∃ period period', retryHandler period p.waited 1 = some (period', p'.waited) := by
  obtain ⟨⟨rv, w₁⟩, hget⟩ : ∃ q, retrieveVectorSetResult out sessionUrl w = q := ⟨_, rfl⟩
  rw [resultRound, Prog.bind_of_eq hget] at h
  by_cases hrv : rv = .success
  swap
  · rw [if_pos hrv] at h
    cases h
  rw [if_neg (not_not.2 hrv), getCtx_bind] at h
  cases hobj : getObjFromRsp w₁.ctx.curlBuf with
  | none =>
      rw [hobj] at h
      cases h
  | some obj =>
      simp only [hobj] at h
      obtain ⟨⟨res, w₂⟩, hscan⟩ : ∃ q, scanResults out
        (jsonArrayElems (jsonObjectGetArray (some obj) "results")) .success 0 p.failedVs w₁ = q :=
        ⟨_, rfl⟩
      rw [Prog.bind_of_eq hscan] at h
      cases res with
      | error rv => cases h
      | ok res =>
          obtain ⟨rv, completed, failedVs⟩ := res
          simp only at h
          by_cases hdone : (jsonArrayElems (jsonObjectGetArray (some obj) "results")).length ≤
              completed
          · rw [if_pos hdone] at h
            cases h
          · rw [if_neg hdone] at h
            cases hwait : retryHandler p.interval p.waited 1 with
            | none =>
                rw [hwait] at h
                cases h
            | some next =>
                rw [hwait] at h
                cases h
                exact ⟨_, _, hwait⟩

/-- The loops of {lit}`amvp_process_vsid`, {lit}`amvp_process_teid` and
{lit}`amvp_get_result_test_session` return, with any server, after at most 1201 rounds.
Every round polls its URL once. -/
theorem polling_ends (vsidUrl : String) (count : Nat) (sessionUrl : Option String) (w : World) :
    (∃ polls ≤ 1201, Prog.Rounds (processSetRound out (vsidKind out) vsidUrl count) 0 w polls
      (processVsid out vsidUrl count w)) ∧
    (∃ polls ≤ 1201, Prog.Rounds (processSetRound out teidKind vsidUrl count) 0 w polls
      (processTeid out vsidUrl count w)) ∧
    (∃ polls ≤ 1201, Prog.Rounds (resultRound out sessionUrl) ⟨[], 0, amvpRetryTime⟩ w polls
      (getResultTestSession out sessionUrl w)) := by
  have hset (kind : SetKind) :
      Prog.Decreases pollsLeft (processSetRound out kind vsidUrl count) := by
    intro waited w waited' h
    obtain ⟨period, period', hwait⟩ := processSetRound_waited out h
    exact retryHandler_pollsLeft hwait
  have hresult : Prog.Decreases (fun p => pollsLeft p.waited) (resultRound out sessionUrl) := by
    intro p w p' h
    obtain ⟨period, period', hwait⟩ := resultRound_waited out h
    exact retryHandler_pollsLeft hwait
  refine ⟨?_, ?_, ?_⟩
  · exact Prog.exists_rounds_le (processSetRound_decreases out _ vsidUrl count) (hset _) 0 w
  · exact Prog.exists_rounds_le (processSetRound_decreases out _ vsidUrl count) (hset _) 0 w
  · exact Prog.exists_rounds_le (resultRound_decreases out sessionUrl) hresult
      ⟨[], 0, amvpRetryTime⟩ w

end Loops

end LibAmvp
