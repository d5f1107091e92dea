import LibAmvp.Lib.Memory
import LibAmvp.Lib.NulString

/-!
# Fitted string copies

{lit}`strncpy_s` of the safe string stub copies characters up to a terminator or a count.  It
holds the place where it would run into the other string, and goes on until it gets there, the
buffer is full or the copy is complete.  Both strings are in one memory and may overlap.

Main results:

- Theorem {lit}`strncpyLoop_eq`: both loops make a fitted copy.
- Theorem {lit}`strncpyS_spec`: no byte is written outside the buffer, and a copy succeeds exactly
  when it is complete before the buffer is full and before the strings meet.
-/

namespace LibAmvp.SafeC

/-! ## The copy -/

/-- The error codes of {lit}`strncpy_s`. -/
inductive Errno where
  | eok
  | esnullp
  | eszerol
  | eslemax
  | esovrlp
  | esnospc
deriving DecidableEq

/-- The loops of {lit}`strncpy_s`: the pointer that is compared with {lit}`overlap_bumper` is
{lit}`dest` in one of them and {lit}`src` in the other. -/
def strncpyLoop (origDest : Nat) (bumpsDest : Bool) (overlapBumper : Nat) :
    Nat → Nat → Nat → Nat → Memory → Errno × Memory
  | 0, _, _, _, m => (.esnospc, Function.update m origDest 0)
  | dmax + 1, dest, src, slen, m =>
    if (if bumpsDest then dest else src) = overlapBumper then
      (.esovrlp, Function.update m origDest 0)
    else
      match slen with
      | 0 => (.eok, Function.update m dest 0)
      | slen + 1 =>
        if m src = 0 then (.eok, Function.update m dest (m src))
        else
          strncpyLoop origDest bumpsDest overlapBumper dmax (dest + 1) (src + 1) slen
            (Function.update m dest (m src))

/-- {lit}`strncpy_s`.  A count that is too large empties the string, and the copy goes on. -/
def strncpyS (m : Memory) (dest : Option Nat) (dmax : Nat) (src : Option Nat) (slen : Nat) :
    Errno × Memory :=
  match dest with
  | none => (.esnullp, m)
  | some dest =>
    if dmax = 0 then (.eszerol, m)
    else if dmax > NulString.rsizeMaxStr then (.eslemax, m)
    else
      match src with
      | none => (.esnullp, Function.update m dest 0)
      | some src =>
        let m := if slen > NulString.rsizeMaxStr then Function.update m dest 0 else m
        if dest < src then strncpyLoop dest true src dmax dest src slen m
        else strncpyLoop dest false dest dmax dest src slen m

/-! ## What the loop does -/

/-- {lit}`strnlen`: the number of characters before a terminator, at most a count. -/
def strnlen (m : Memory) (src : Nat) : Nat → Nat
  | 0 => 0
  | slen + 1 => if m src = 0 then 0 else strnlen m (src + 1) slen + 1

/-- Some bytes are copied, one by one. -/
def copied (m : Memory) (dest src n : Nat) : Memory :=
  fun k => if dest ≤ k ∧ k < dest + n then m (src + (k - dest)) else m k

/-- What a fitted copy is for, when the strings meet after some rounds: the characters are copied
with a terminator when they are complete before that and before the buffer is full, and otherwise
the string is emptied. -/
def fittedCopy (origDest dmax dest src rounds slen : Nat) (m : Memory) : Errno × Memory :=
  if strnlen m src slen < min dmax rounds then
    (.eok, Function.update (copied m dest src (strnlen m src slen))
      (dest + strnlen m src slen) 0)
  else
    (if dmax ≤ rounds then .esnospc else .esovrlp,
      Function.update (copied m dest src (min dmax rounds)) origDest 0)

@[simp]
theorem copied_zero (m : Memory) (dest src : Nat) : copied m dest src 0 = m := by
  funext k
  simp [copied, show ¬(dest ≤ k ∧ k < dest) by omega]

/-- The pointer that is compared meets the bumper after some rounds, and none of the places that
are written before is read later. -/
structure Meets (bumpsDest : Bool) (overlapBumper dest src rounds : Nat) : Prop where
  meets : (if bumpsDest then dest else src) + rounds = overlapBumper
  apart : overlapBumper ≤ if bumpsDest then src else dest

theorem Meets.next {bumpsDest : Bool} {overlapBumper dest src rounds : Nat}
    (h : Meets bumpsDest overlapBumper dest src (rounds + 1)) :
    Meets bumpsDest overlapBumper (dest + 1) (src + 1) rounds := by
  rcases h with ⟨hmeets, hapart⟩
  cases bumpsDest
  · exact ⟨by simp at hmeets ⊢; omega, by simp at hapart ⊢; omega⟩
  · exact ⟨by simp at hmeets ⊢; omega, by simp at hapart ⊢; omega⟩

/-- A place that is written is not read as long as the strings have not met. -/
theorem Meets.ne {bumpsDest : Bool} {overlapBumper dest src rounds : Nat}
    (h : Meets bumpsDest overlapBumper dest src rounds) {i j : Nat} (hi : i < rounds)
    (hj : j < rounds) : dest + i ≠ src + j := by
  rcases h with ⟨hmeets, hapart⟩
  cases bumpsDest
  · simp only [Bool.false_eq_true, if_false] at hmeets hapart
    omega
  · simp only [if_true] at hmeets hapart
    omega

/-- As far as the characters are the same, the number of them is. -/
theorem min_strnlen_congr {m m' : Memory} {src rounds : Nat}
    (h : ∀ j < rounds, m (src + j) = m' (src + j)) (slen : Nat) :
    min (strnlen m src slen) rounds = min (strnlen m' src slen) rounds := by
  induction slen generalizing src rounds with
  | zero => rfl
  | succ slen ih =>
    cases rounds with
    | zero => simp
    | succ rounds =>
      have hfirst : m src = m' src := h 0 (Nat.succ_pos rounds)
      have hrest : min (strnlen m (src + 1) slen) rounds =
          min (strnlen m' (src + 1) slen) rounds := by
        refine ih fun j hj => ?_
        have hnext := h (j + 1) (Nat.succ_lt_succ hj)
        rwa [show src + (j + 1) = src + 1 + j by omega] at hnext
      rw [strnlen, strnlen, hfirst]
      split
      · rfl
      · omega

/-- A string with a character before its terminator. -/
theorem exists_strnlen {m : Memory} {src slen : Nat} (h : strnlen m src slen ≠ 0) :
    ∃ n, slen = n + 1 ∧ strnlen m src (n + 1) = strnlen m (src + 1) n + 1 := by
  cases slen with
  | zero => exact absurd rfl h
  | succ n =>
    rw [strnlen] at h
    split at h
    · exact absurd rfl h
    · rename_i hchar
      exact ⟨n, rfl, by rw [strnlen, if_neg hchar]⟩

/-- The first character is written, and then the rest that was not touched by it. -/
theorem copied_next {m : Memory} {dest src rounds n : Nat}
    (h : ∀ j < rounds, Function.update m dest (m src) (src + 1 + j) = m (src + 1 + j))
    (hn : n ≤ rounds) :
    copied (Function.update m dest (m src)) (dest + 1) (src + 1) n = copied m dest src (n + 1) := by
  funext k
  by_cases hfirst : k = dest
  · simp [copied, hfirst]
  · by_cases hrest : dest + 1 ≤ k ∧ k < dest + 1 + n
    · simp only [copied]
      rw [if_pos hrest, if_pos (by omega), h _ (by omega)]
      congr 1
      omega
    · simp only [copied]
      rw [if_neg hrest, if_neg (by omega), Function.update_of_ne hfirst]

theorem strncpyLoop_succ (origDest : Nat) (bumpsDest : Bool)
    (overlapBumper dmax dest src slen : Nat) (m : Memory) :
    strncpyLoop origDest bumpsDest overlapBumper (dmax + 1) dest src slen m =
      if (if bumpsDest then dest else src) = overlapBumper then
        (.esovrlp, Function.update m origDest 0)
      else if strnlen m src slen = 0 then (.eok, Function.update m dest 0)
      else
        strncpyLoop origDest bumpsDest overlapBumper dmax (dest + 1) (src + 1) (slen - 1)
          (Function.update m dest (m src)) := by
  cases slen with
  | zero => rfl
  | succ slen =>
    by_cases hstop : m src = 0
    · simp [strncpyLoop, strnlen, hstop]
    · simp [strncpyLoop, strnlen, hstop]

/-- The loop stops at the terminator or the count when it gets there before the buffer is full
and before the strings meet. -/
theorem strncpyLoop_eq {bumpsDest : Bool} {overlapBumper dest src rounds : Nat} (origDest : Nat)
    (h : Meets bumpsDest overlapBumper dest src rounds) (dmax slen : Nat) (m : Memory) :
    strncpyLoop origDest bumpsDest overlapBumper dmax dest src slen m =
      fittedCopy origDest dmax dest src rounds slen m := by
  induction dmax generalizing dest src rounds slen m with
  | zero => simp [strncpyLoop, fittedCopy]
  | succ dmax ih =>
    cases rounds with
    | zero =>
      have hmet : (if bumpsDest then dest else src) = overlapBumper := h.meets
      rw [strncpyLoop_succ, if_pos hmet]
      simp [fittedCopy]
    | succ rounds =>
      have hahead : (if bumpsDest then dest else src) ≠ overlapBumper := by
        have hmeets := h.meets
        omega
      rw [strncpyLoop_succ, if_neg hahead]
      by_cases hstop : strnlen m src slen = 0
      · simp [fittedCopy, hstop]
      · rcases exists_strnlen hstop with ⟨slen, rfl, hlength⟩
        rw [if_neg hstop, ih h.next, fittedCopy, fittedCopy, hlength, Nat.add_sub_cancel]
        -- what is left of the strings is as it was before the character was written
        have hunread : ∀ j < rounds, Function.update m dest (m src) (src + 1 + j) =
            m (src + 1 + j) := by
          intro j hj
          have hne := h.ne (i := 0) (j := j + 1) (by omega) (by omega)
          exact Function.update_of_ne (by omega) _ _
        have hrest := min_strnlen_congr hunread slen
        by_cases hfits : strnlen m (src + 1) slen < min dmax rounds
        · have hsame : strnlen (Function.update m dest (m src)) (src + 1) slen =
              strnlen m (src + 1) slen := by omega
          rw [hsame, if_pos hfits, if_pos (by omega), copied_next hunread (by omega),
            Nat.add_right_comm dest 1, Nat.add_assoc dest _ 1]
        · have hmin : min (dmax + 1) (rounds + 1) = min dmax rounds + 1 := by omega
          have hnot : ¬strnlen (Function.update m dest (m src)) (src + 1) slen <
              min dmax rounds := by omega
          have hnot' : ¬strnlen m (src + 1) slen + 1 < min dmax rounds + 1 := by omega
          rw [hmin, if_neg hnot, if_neg hnot', copied_next hunread (by omega)]
          simp only [Nat.add_le_add_iff_right]

/-! ## What the function does -/

/-- How far the strings are apart. -/
def distance (dest src : Nat) : Nat := (src - dest) + (dest - src)

theorem meets_of_lt {dest src : Nat} (h : dest < src) :
    Meets true src dest src (distance dest src) :=
  ⟨by simp only [if_true, distance]; omega, le_rfl⟩

theorem meets_of_not_lt {dest src : Nat} (h : ¬dest < src) :
    Meets false dest dest src (distance dest src) :=
  ⟨by simp only [Bool.false_eq_true, if_false, distance]; omega, le_rfl⟩

/-- The first byte is overwritten by a copy that has characters. -/
theorem copied_emptied {m : Memory} {dest src n : Nat}
    (h : ∀ j < n, Function.update m dest 0 (src + j) = m (src + j)) (hpos : 0 < n) :
    copied (Function.update m dest 0) dest src n = copied m dest src n := by
  funext k
  by_cases hk : dest ≤ k ∧ k < dest + n
  · rw [copied, copied, if_pos hk, if_pos hk, h _ (by omega)]
  · rw [copied, copied, if_neg hk, if_neg hk, Function.update_of_ne (by omega)]

/-- Nothing is left of a string that is emptied before the copy. -/
theorem fittedCopy_emptied {m : Memory} {dest src rounds : Nat}
    (h : ∀ j < rounds, Function.update m dest 0 (src + j) = m (src + j)) (dmax slen : Nat) :
    fittedCopy dest dmax dest src rounds slen (Function.update m dest 0) =
      fittedCopy dest dmax dest src rounds slen m := by
  have hlength := min_strnlen_congr h slen
  rw [fittedCopy, fittedCopy]
  by_cases hfits : strnlen m src slen < min dmax rounds
  · have hsame : strnlen (Function.update m dest 0) src slen = strnlen m src slen := by omega
    rw [hsame, if_pos hfits, if_pos hfits]
    rcases Nat.eq_zero_or_pos (strnlen m src slen) with hempty | hpos
    · rw [hempty, copied_zero, copied_zero, Nat.add_zero, Function.update_idem]
    · rw [copied_emptied (fun j hj => h j (by omega)) hpos]
  · have hnot : ¬strnlen (Function.update m dest 0) src slen < min dmax rounds := by omega
    rw [if_neg hfits, if_neg hnot]
    rcases Nat.eq_zero_or_pos (min dmax rounds) with hempty | hpos
    · rw [hempty, copied_zero, copied_zero, Function.update_idem]
    · rw [copied_emptied (fun j hj => h j (by omega)) hpos]

/-- In a buffer of a valid size the function makes a fitted copy; the strings meet after as many
rounds as they are apart. -/
theorem strncpyS_eq (m : Memory) (dest src slen : Nat) {dmax : Nat} (hpos : 0 < dmax)
    (hmax : dmax ≤ NulString.rsizeMaxStr) :
    strncpyS m (some dest) dmax (some src) slen =
      fittedCopy dest dmax dest src (distance dest src) slen m := by
  have hloop (m : Memory) : (if dest < src then strncpyLoop dest true src dmax dest src slen m
      else strncpyLoop dest false dest dmax dest src slen m) =
      fittedCopy dest dmax dest src (distance dest src) slen m := by
    by_cases hlt : dest < src
    · rw [if_pos hlt, strncpyLoop_eq dest (meets_of_lt hlt)]
    · rw [if_neg hlt, strncpyLoop_eq dest (meets_of_not_lt hlt)]
  simp only [strncpyS, if_neg hpos.ne', if_neg (Nat.not_lt.mpr hmax), hloop]
  by_cases hslen : slen > NulString.rsizeMaxStr
  · rw [if_pos hslen]
    refine fittedCopy_emptied (fun j hj => Function.update_of_ne ?_ _ _) dmax slen
    rw [distance] at hj
    omega
  · rw [if_neg hslen]

/-! ## The string in the buffer -/

/-- What stands before a terminator is no terminator. -/
theorem ne_zero_of_lt_strnlen {m : Memory} {src slen j : Nat} (h : j < strnlen m src slen) :
    m (src + j) ≠ 0 := by
  induction slen generalizing src j with
  | zero => exact absurd h (Nat.not_lt_zero j)
  | succ slen ih =>
    rw [strnlen] at h
    split at h
    · exact absurd h (Nat.not_lt_zero j)
    · rename_i hchar
      cases j with
      | zero => exact hchar
      | succ j =>
        have hrest := ih (Nat.lt_of_succ_lt_succ h)
        rwa [show src + 1 + j = src + (j + 1) by omega] at hrest

theorem strnlen_eq {m : Memory} {src n slen : Nat} (hchars : ∀ j < n, m (src + j) ≠ 0)
    (hnul : m (src + n) = 0) (h : n < slen) : strnlen m src slen = n := by
  induction slen generalizing src n with
  | zero => exact absurd h (Nat.not_lt_zero n)
  | succ slen ih =>
    cases n with
    | zero => rw [strnlen, if_pos (show m src = 0 from hnul)]
    | succ n =>
      rw [strnlen, if_neg (show m src ≠ 0 from hchars 0 (Nat.succ_pos n))]
      refine congrArg Nat.succ (ih (fun j hj => ?_) ?_ (Nat.lt_of_succ_lt_succ h))
      · have hchar := hchars (j + 1) (Nat.succ_lt_succ hj)
        rwa [show src + (j + 1) = src + 1 + j by omega] at hchar
      · rwa [show src + (n + 1) = src + 1 + n by omega] at hnul

theorem fittedCopy_eok_iff {dmax dest src rounds slen : Nat} {m : Memory} :
    (fittedCopy dest dmax dest src rounds slen m).1 = .eok ↔
      strnlen m src slen < min dmax rounds := by
  rw [fittedCopy]
  by_cases hfits : strnlen m src slen < min dmax rounds
  · rw [if_pos hfits]
    exact iff_of_true rfl hfits
  · rw [if_neg hfits]
    refine iff_of_false ?_ hfits
    dsimp only
    split <;> simp

theorem fittedCopy_outside {dmax dest k : Nat} (hpos : 0 < dmax) (hk : k < dest ∨ dest + dmax ≤ k)
    (src rounds slen : Nat) (m : Memory) :
    (fittedCopy dest dmax dest src rounds slen m).2 k = m k := by
  rw [fittedCopy]
  split
  · dsimp only
    rw [Function.update_of_ne (by omega), copied, if_neg (by omega)]
  · dsimp only
    rw [Function.update_of_ne (by omega), copied, if_neg (by omega)]

/-- A string that is copied is read in the buffer. -/
theorem fittedCopy_reads {dmax dest src rounds slen : Nat} {m : Memory}
    (hfits : strnlen m src slen < min dmax rounds) :
    strnlen (fittedCopy dest dmax dest src rounds slen m).2 dest dmax = strnlen m src slen ∧
      ∀ j < strnlen m src slen,
        (fittedCopy dest dmax dest src rounds slen m).2 (dest + j) = m (src + j) := by
  have hchars : ∀ j < strnlen m src slen, Function.update
      (copied m dest src (strnlen m src slen)) (dest + strnlen m src slen) 0 (dest + j) =
        m (src + j) := by
    intro j hj
    rw [Function.update_of_ne (by omega), copied, if_pos (by omega), Nat.add_sub_cancel_left]
  rw [fittedCopy, if_pos hfits]
  refine ⟨strnlen_eq (fun j hj => ?_) (Function.update_self _ _ _) (by omega), hchars⟩
  dsimp only
  rw [hchars j hj]
  exact ne_zero_of_lt_strnlen hj

theorem fittedCopy_emptyString {dmax dest src rounds slen : Nat} {m : Memory}
    (hfits : ¬strnlen m src slen < min dmax rounds) :
    (fittedCopy dest dmax dest src rounds slen m).2 dest = 0 := by
  rw [fittedCopy, if_neg hfits]
  exact Function.update_self _ _ _

/-- No byte outside the buffer is written.  The copy succeeds exactly when the characters and a
terminator fit in the buffer and in front of the other string; then the string in the buffer has
these characters.  In a buffer of a valid size, a string that is not copied is empty. -/
theorem strncpyS_spec (m : Memory) (dest dmax : Nat) (src : Option Nat) (slen : Nat) :
    (∀ k, k < dest ∨ dest + dmax ≤ k → (strncpyS m (some dest) dmax src slen).2 k = m k) ∧
    ((strncpyS m (some dest) dmax src slen).1 = .eok ↔ 0 < dmax ∧ dmax ≤ NulString.rsizeMaxStr ∧
      ∃ s, src = some s ∧ strnlen m s slen < min dmax (distance dest s)) ∧
    ((strncpyS m (some dest) dmax src slen).1 = .eok → ∀ s, src = some s →
      strnlen (strncpyS m (some dest) dmax src slen).2 dest dmax = strnlen m s slen ∧
      ∀ j < strnlen m s slen, (strncpyS m (some dest) dmax src slen).2 (dest + j) = m (s + j)) ∧
    ((strncpyS m (some dest) dmax src slen).1 ≠ .eok → 0 < dmax → dmax ≤ NulString.rsizeMaxStr →
      (strncpyS m (some dest) dmax src slen).2 dest = 0) := by
  by_cases hdmax : 0 < dmax ∧ dmax ≤ NulString.rsizeMaxStr
  · rcases hdmax with ⟨hpos, hmax⟩
    cases src with
    | none =>
      have hnull : strncpyS m (some dest) dmax none slen =
          (.esnullp, Function.update m dest 0) := by
        rw [strncpyS, if_neg hpos.ne', if_neg (Nat.not_lt.mpr hmax)]
      rw [hnull]
      refine ⟨fun k hk => Function.update_of_ne (by omega) _ _, ?_, fun h => ?_, fun _ _ _ => ?_⟩
      · simp
      · cases h
      · exact Function.update_self dest 0 m
    | some src =>
      rw [strncpyS_eq m dest src slen hpos hmax, ne_eq, fittedCopy_eok_iff]
      refine ⟨fun k hk => fittedCopy_outside hpos hk _ _ _ m, ?_, ?_, ?_⟩
      · simp [hpos, hmax]
      · rintro hfits s hs
        obtain rfl := Option.some.inj hs
        exact fittedCopy_reads hfits
      · intro hfits _ _
        exact fittedCopy_emptyString hfits
  · have hrefused : (strncpyS m (some dest) dmax src slen).1 ≠ .eok ∧
        (strncpyS m (some dest) dmax src slen).2 = m := by
      by_cases hzero : dmax = 0
      · simp [strncpyS, hzero]
      · have hlong : dmax > NulString.rsizeMaxStr := by omega
        simp [strncpyS, hzero, hlong]
    rcases hrefused with ⟨hcode, hsame⟩
    refine ⟨fun k _ => by rw [hsame], ?_, fun h => absurd h hcode, ?_⟩
    · exact iff_of_false hcode fun h => hdmax ⟨h.1, h.2.1⟩
    · intro _ hpos hmax
      exact absurd ⟨hpos, hmax⟩ hdmax

end LibAmvp.SafeC
