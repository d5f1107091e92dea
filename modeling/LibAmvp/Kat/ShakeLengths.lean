import LibAmvp.Kat.Hash
import LibAmvp.Lib.Machine

/-!
# The lengths of the digests of an extendable-output function

In a Monte Carlo test of an extendable-output function the length of every digest comes from the
last bits of the digest before.  The server gives the two bounds; the handler compares the lower
one with the least length and the upper one with the greatest, and not one with the other.

Main results:

- Theorem {lit}`hashShakeMct_safe_iff`: the lengths that are asked for stay between the bounds,
  and the loop has a defined outcome, exactly when the lower bound is, in whole bytes, at most
  the upper one.
-/

namespace LibAmvp

open Guard

/-! ## The bounds that the handler admits -/

theorem readXofLens_ok {groupobj : Option JsonObject} {minXofLen maxXofLen : Nat}
    (h : readXofLens groupobj = .ok (minXofLen, maxXofLen)) :
    16 ≤ minXofLen ∧ maxXofLen ≤ 65536 := by
  simp only [readXofLens, bind_eq_ok, stopIf_eq_ok, pure_eq_ok, exists_unit] at h
  obtain ⟨hmin, hmax, hlens⟩ := h
  obtain ⟨rfl, rfl⟩ := Prod.mk.inj hlens
  unfold hashXofMdBitMin at hmin
  unfold hashXofMdBitMax at hmax
  omega

/-- The bounds of a group of Monte Carlo tests of an extendable-output function. -/
theorem readHashGroup_xofLens {algId : Cipher} {groupobj : Option JsonObject} {group : HashGroup}
    (h : readHashGroup algId groupobj = .ok group) (hmct : group.testType = .mct)
    (hshake : algId.isShake) : 16 ≤ group.minXofLen ∧ group.maxXofLen ≤ 65536 := by
  simp only [readHashGroup, bind_eq_ok, stopIf_eq_ok, pure_eq_ok, exists_unit] at h
  obtain ⟨tgId, -, str, -, testType, -, -, ⟨minXofLen, maxXofLen⟩, hlens, rfl⟩ := h
  rw [onlyIf_pos ⟨hmct, hshake⟩] at hlens
  exact readXofLens_ok hlens

/-! ## The loops -/

/-- A module that returns digests of the length that it was asked for. -/
def ReturnsRequested (p : Partner HashTc) : Prop :=
  ∀ before tc, (p before tc).1 = 0 → (p before tc).2.mdLen = tc.xofLen

/-- A length of a digest that fits its buffer, whose last two bytes exist, and that lies between
the bounds of a group, in whole bytes. -/
structure XofLenFits (minXofLen maxXofLen xofLen : Nat) : Prop where
  lastBytes : 2 ≤ xofLen
  buffer : xofLen ≤ hashXofMdByteMax
  lower : minXofLen / 8 ≤ xofLen
  upper : xofLen ≤ maxXofLen / 8

/-- The loop asks for digests of a fitting length only, and has a defined outcome. -/
def ShakeMctSafe (p : Partner HashTc) (before : List HashTc) (stc : HashTc)
    (minXofLen maxXofLen : Nat) : Prop :=
  (∀ q ∈ (hashShakeMct stc minXofLen maxXofLen p before).2,
    XofLenFits minXofLen maxXofLen q.xofLen) ∧
  (hashShakeMct stc minXofLen maxXofLen p before).1 ≠ .error .divisionByZero ∧
  (hashShakeMct stc minXofLen maxXofLen p before).1 ≠ .error .outOfBounds

section Lengths

variable (p : Partner HashTc) (minXofLen maxXofLen : Nat)

/-- A module that is asked for digests of a fitting length. -/
def shakeLengths : Setting HashTc HashStop Unit where
  partner := p
  state _ := ()
  good q := XofLenFits minXofLen maxXofLen q.xofLen
  stop e := ∃ rv, e = .result rv

variable {p} {minXofLen maxXofLen}

/-- A remainder keeps the next length between the bounds. -/
theorem XofLenFits.next (hmin : 16 ≤ minXofLen) (hmax : maxXofLen ≤ 65536)
    (hle : minXofLen / 8 ≤ maxXofLen / 8) (n : Nat) :
    XofLenFits minXofLen maxXofLen
      ((minXofLen / 8 + n % (maxXofLen / 8 - minXofLen / 8 + 1)) % 2 ^ 32) := by
  have hrem : n % (maxXofLen / 8 - minXofLen / 8 + 1) < maxXofLen / 8 - minXofLen / 8 + 1 :=
    Nat.mod_lt _ (Nat.succ_pos _)
  rw [Nat.mod_eq_of_lt (by omega)]
  exact ⟨by omega, by unfold hashXofMdByteMax; omega, by omega, by omega⟩

theorem rightmostOutBits_ne_error {stc : HashTc} (h : XofLenFits minXofLen maxXofLen stc.mdLen)
    (e : HashStop) : rightmostOutBits stc ≠ .error e := by
  have hlen : ¬(stc.mdLen < 2 ∨ hashXofMdByteMax < stc.mdLen) :=
    not_or.mpr ⟨Nat.not_lt.mpr h.lastBytes, Nat.not_lt.mpr h.buffer⟩
  rw [rightmostOutBits, if_neg hlen]
  nofun

theorem runs_hashShakeCalls (hp : ReturnsRequested p) (hmin : 16 ≤ minXofLen)
    (hmax : maxXofLen ≤ 65536) (hle : minXofLen / 8 ≤ maxXofLen / 8) :
    ∀ (n i : Nat) (stc : HashTc), XofLenFits minXofLen maxXofLen stc.xofLen →
      (shakeLengths p minXofLen maxXofLen).Runs ()
        (hashShakeCalls (minXofLen / 8) (maxXofLen / 8 - minXofLen / 8 + 1) n i stc)
        fun stc' _ => XofLenFits minXofLen maxXofLen stc'.xofLen := by
  intro n
  induction n with
  | zero => exact fun i stc hfits => Setting.runs_pure hfits
  | succ n ih =>
    intro i stc hfits
    have hfed : XofLenFits minXofLen maxXofLen
        (if i ≠ 0 then hashShakeFeed stc else stc).xofLen := by
      split <;> exact hfits
    rw [hashShakeCalls]
    generalize (if i ≠ 0 then hashShakeFeed stc else stc) = fed at hfed
    refine Setting.runs_ite (fun _ => Setting.runs_pure hfed) fun _ => ?_
    refine Setting.runs_ask_bind hfed fun before _ => ?_
    refine Setting.runs_ite (fun _ => Setting.runs_fail ⟨_, rfl⟩) fun hcode => ?_
    have hlen : XofLenFits minXofLen maxXofLen (p before _).2.mdLen :=
      (hp before _ (not_not.mp hcode)).symm ▸ hfed
    -- the last two bytes exist, and the range is not zero
    refine Setting.runs_ofExcept_bind (fun rightmost _ => ?_) fun e he => ?_
    · rw [if_neg (Nat.succ_ne_zero _)]
      exact ih (i + 1) _ (.next hmin hmax hle rightmost)
    · exact absurd he (rightmostOutBits_ne_error hlen e)

theorem runs_hashShakeRounds (hp : ReturnsRequested p) (hmin : 16 ≤ minXofLen)
    (hmax : maxXofLen ≤ 65536) (hle : minXofLen / 8 ≤ maxXofLen / 8) :
    ∀ (n : Nat) (stc : HashTc), XofLenFits minXofLen maxXofLen stc.xofLen →
      (shakeLengths p minXofLen maxXofLen).Runs ()
        (hashShakeRounds (minXofLen / 8) (maxXofLen / 8 - minXofLen / 8 + 1) n stc)
        fun _ _ => True := by
  intro n
  induction n with
  | zero => exact fun stc _ => Setting.runs_pure trivial
  | succ n ih =>
    intro stc hfits
    rw [hashShakeRounds]
    refine (runs_hashShakeCalls hp hmin hmax hle _ 0 stc hfits).bind fun stc' _ hfits' => ?_
    refine Setting.runs_ofExcept_bind (fun _ _ => ?_) fun e he => ?_
    · exact (ih stc' hfits').bind fun _ _ _ => Setting.runs_pure trivial
    · cases hout : hashOutputMctTc stc' with
      | ok obj => rw [hout] at he; exact absurd he nofun
      | error rv => rw [hout] at he; exact ⟨rv, (Except.error.inj he).symm⟩

/-- The first digest has the greatest length. -/
theorem hashShakeMct_first (p : Partner HashTc) (minXofLen maxXofLen : Nat) (stc : HashTc)
    (before : List HashTc) :
    ∃ q ∈ (hashShakeMct stc minXofLen maxXofLen p before).2, q.xofLen = maxXofLen / 8 := by
  unfold hashShakeMct hashMctOuter
  rw [hashShakeRounds, hashShakeCalls, if_neg (by decide), if_neg (by decide)]
  exact ⟨_, Dialog.mem_bind (Dialog.mem_bind (List.mem_singleton_self _)), by dsimp only; omega⟩

theorem shakeMctSafe_of_le (hp : ReturnsRequested p) (hmin : 16 ≤ minXofLen)
    (hmax : maxXofLen ≤ 65536) (hle : minXofLen / 8 ≤ maxXofLen / 8) (before : List HashTc)
    (stc : HashTc) : ShakeMctSafe p before stc minXofLen maxXofLen := by
  have hrange : (maxXofLen / 8 + (2 ^ 32 - minXofLen / 8) + 1) % 2 ^ 32 =
      maxXofLen / 8 - minXofLen / 8 + 1 := by
    omega
  have hfirst : XofLenFits minXofLen maxXofLen ((maxXofLen / 8 * 8 + 7) / 8) :=
    ⟨by omega, by unfold hashXofMdByteMax; omega, by omega, by omega⟩
  have hruns := runs_hashShakeRounds hp hmin hmax hle hashMctOuter
    { stc with xofLen := (maxXofLen / 8 * 8 + 7) / 8 } hfirst before rfl
  rw [← hrange] at hruns
  obtain ⟨hgood, hout⟩ := hruns
  refine ⟨hgood, ?_, ?_⟩ <;> intro hstop <;>
    · rw [hashShakeMct] at hstop
      rw [shakeLengths, hstop] at hout
      obtain ⟨rv, hrv⟩ := hout
      cases hrv

end Lengths

/-! ## The lengths of a group -/

/-- The lengths that are asked for stay between the bounds of the group, and the loop has a
defined outcome, exactly when the lower bound is, in whole bytes, at most the upper one. -/
theorem hashShakeMct_safe_iff {algId : Cipher} {groupobj : Option JsonObject} {group : HashGroup}
    (hgroup : readHashGroup algId groupobj = .ok group) (hmct : group.testType = .mct)
    (hshake : algId.isShake) {p : Partner HashTc} (hp : ReturnsRequested p)
    (before : List HashTc) (stc : HashTc) :
    ShakeMctSafe p before stc group.minXofLen group.maxXofLen ↔
      group.minXofLen / 8 ≤ group.maxXofLen / 8 := by
  obtain ⟨hmin, hmax⟩ := readHashGroup_xofLens hgroup hmct hshake
  constructor
  · rintro ⟨hfits, -, -⟩
    obtain ⟨q, hq, hlen⟩ := hashShakeMct_first p group.minXofLen group.maxXofLen stc before
    exact hlen ▸ (hfits q hq).lower
  · exact fun hle => shakeMctSafe_of_le hp hmin hmax hle before stc

/-- A module that returns digests of zeros. -/
def zeroDigests : Partner HashTc := fun _ tc => (0, { tc with mdLen := tc.xofLen })

theorem zeroDigests_returnsRequested : ReturnsRequested zeroDigests := fun _ _ _ => rfl

/-- A group of Monte Carlo tests of SHAKE-128. -/
def shakeGroup (minOutLen maxOutLen : ℚ) : JsonObject :=
  [("tgId", .num 1), ("testType", .str "MCT"), ("minOutLen", .num minOutLen),
    ("maxOutLen", .num maxOutLen)]

/-- A test of such a group. -/
def shakeTc : HashTc :=
  { cipher := .hashShake128, tcId := 1, testType := .mct, msg := .zero, msgLen := 16 }

theorem hashShakeMct_safe_iff_full_range :
    readHashGroup .hashShake128 (some (shakeGroup 16 65536)) = .ok ⟨1, .mct, 16, 65536⟩ ∧
      ShakeMctSafe zeroDigests [] shakeTc 16 65536 :=
  have hgroup : readHashGroup .hashShake128 (some (shakeGroup 16 65536)) =
      .ok ⟨1, .mct, 16, 65536⟩ := by rfl
  ⟨hgroup, (hashShakeMct_safe_iff hgroup rfl rfl zeroDigests_returnsRequested [] shakeTc).mpr
    (by decide)⟩

/-- Bounds in the wrong order are admitted; the range can then be zero. -/
theorem hashShakeMct_divides_by_zero :
    readHashGroup .hashShake128 (some (shakeGroup 24 16)) = .ok ⟨1, .mct, 24, 16⟩ ∧
      ReturnsRequested zeroDigests ∧
      (hashShakeMct shakeTc 24 16 zeroDigests []).1 = .error .divisionByZero := by
  refine ⟨by rfl, zeroDigests_returnsRequested, ?_⟩
  rfl

end LibAmvp
