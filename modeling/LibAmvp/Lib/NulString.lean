import Mathlib.Data.List.TakeWhile
import Mathlib.Tactic

/-!
# C strings

The characters of a C string stand before its terminator.  The functions of the
bounds-checking interface refuse some of their arguments, and a comparison that is refused
leaves the variable for its outcome as it was.

Main results:

- Theorem {lit}`NulString.strncmpS_whole`: a comparison with all the characters of the second
  string.
- Theorem {lit}`NulString.strncmpS_front`: a comparison with a name that the second string may be
  a part of.
- Theorem {lit}`NulString.strncmpS_shorter`: a comparison with the shorter of two lengths.
-/

/-- A C string: its characters, none of which is the terminator. -/
structure NulString where
  chars : List UInt8
  noNul : 0 ∉ chars
deriving DecidableEq

namespace NulString

/-- The number of characters. -/
def length (s : NulString) : Nat := s.chars.length

/-- The string that has no characters. -/
def empty : NulString := ⟨[], by simp⟩

/-- The string that starts at the front of some bytes. -/
def ofBytes (bytes : List UInt8) : NulString :=
  ⟨bytes.takeWhile (· ≠ 0), fun h => by simpa using List.mem_takeWhile_imp h⟩

/-- The first characters. -/
def take (s : NulString) (n : Nat) : NulString :=
  ⟨s.chars.take n, fun h => s.noNul (List.mem_of_mem_take h)⟩

/-- One string is the start of the other, or the other way round. -/
def Comparable (s t : NulString) : Prop := s.chars <+: t.chars ∨ t.chars <+: s.chars

instance (s t : NulString) : Decidable (Comparable s t) :=
  inferInstanceAs (Decidable (_ ∨ _))

/-- {lit}`strnlen_s`: a string that is not there has no characters. -/
def strnlenS (s : Option NulString) (max : Nat) : Nat := min ((s.map length).getD 0) max

/-- {lit}`RSIZE_MAX_STR`. -/
def rsizeMaxStr : Nat := 2 ^ 63 - 1

/-- {lit}`strncmp_s` with the variable for its outcome: do the strings differ? -/
def strncmpS (dest : Option NulString) (dmax : Nat) (src : Option NulString) (smax : Nat)
    (differ : Bool) : Bool :=
  match dest, src with
  | some d, some s =>
    if dmax = 0 then differ
    else if smax > rsizeMaxStr ∨ smax > strnlenS dest dmax ∨ smax = 0 then differ
    else decide (d.chars.take smax ≠ s.chars.take smax)
  | _, _ => differ

@[ext]
theorem ext {s t : NulString} (h : s.chars = t.chars) : s = t := by
  cases s
  cases t
  congr

@[simp]
theorem empty_chars : empty.chars = [] := rfl

@[simp]
theorem take_chars (s : NulString) (n : Nat) : (s.take n).chars = s.chars.take n := rfl

@[simp]
theorem strnlenS_none (max : Nat) : strnlenS none max = 0 := by
  simp [strnlenS]

@[simp]
theorem strnlenS_some (s : NulString) (max : Nat) :
    strnlenS (some s) max = min s.chars.length max := rfl

theorem take_of_length_le {s : NulString} {n : Nat} (h : s.chars.length ≤ n) : s.take n = s :=
  ext (List.take_of_length_le h)

theorem length_take_le (s : NulString) (n : Nat) : (s.take n).chars.length ≤ n := by
  rw [take_chars, List.length_take]
  exact min_le_left n s.chars.length

/-- Bytes without a terminator are the characters of their string. -/
theorem ofBytes_chars {bytes : List UInt8} (h : 0 ∉ bytes) : (ofBytes bytes).chars = bytes := by
  refine List.takeWhile_eq_self_iff.mpr fun byte hbyte => ?_
  simp only [ne_eq, decide_not, Bool.not_eq_eq_eq_not, Bool.not_true, decide_eq_false_iff_not]
  rintro rfl
  exact h hbyte

/-! ## Comparisons -/

@[simp]
theorem strncmpS_none_left (dmax : Nat) (src : Option NulString) (smax : Nat) (differ : Bool) :
    strncmpS none dmax src smax differ = differ := rfl

@[simp]
theorem strncmpS_none_right (dest : Option NulString) (dmax smax : Nat) (differ : Bool) :
    strncmpS dest dmax none smax differ = differ := by
  cases dest <;> rfl

/-- A comparison with all the characters of a second string that is not empty: it is refused
when the first one is shorter. -/
theorem strncmpS_whole {s t : NulString} {dmax n : Nat} (hn : t.chars.length = n) (hpos : 0 < n)
    (hdmax : n ≤ dmax) (hmax : n ≤ rsizeMaxStr) (differ : Bool) :
    strncmpS (some s) dmax (some t) n differ =
      if s.chars.length < n then differ else decide (¬t.chars <+: s.chars) := by
  unfold strncmpS
  dsimp only
  rw [strnlenS_some, if_neg (by omega)]
  by_cases hshort : s.chars.length < n
  · rw [if_pos hshort, if_pos (by omega)]
  · rw [if_neg hshort, if_neg (by omega), decide_eq_decide]
    refine not_congr ?_
    rw [List.take_of_length_le hn.le, eq_comm, List.prefix_iff_eq_take, hn]

/-- A comparison with as many characters as the second string has, as far as a bound beyond the
first one shows it: the second string has to be a start of the first. -/
theorem strncmpS_front {name s : NulString} {cap : Nat} (hcap : name.chars.length < cap)
    (hmax : cap ≤ rsizeMaxStr) (differ : Bool) :
    strncmpS (some name) name.chars.length (some s) (strnlenS (some s) cap) differ =
      if s.chars.length = 0 ∨ name.chars.length < s.chars.length then differ
      else decide (¬s.chars <+: name.chars) := by
  unfold strncmpS
  dsimp only
  rw [strnlenS_some, strnlenS_some]
  by_cases hrefused : s.chars.length = 0 ∨ name.chars.length < s.chars.length
  · rw [if_pos hrefused]
    split
    · rfl
    · rw [if_pos (by omega)]
  · rw [if_neg hrefused, if_neg (by omega), if_neg (by omega), decide_eq_decide]
    refine not_congr ?_
    rw [min_eq_left (by omega), List.take_length, eq_comm, List.prefix_iff_eq_take]

/-- A comparison over the shorter of two lengths. -/
theorem strncmpS_shorter (s t : NulString) (differ : Bool)
    (hmax : min s.chars.length t.chars.length ≤ rsizeMaxStr) :
    strncmpS (some s) s.chars.length (some t) (min s.chars.length t.chars.length) differ =
      if s.chars.length = 0 ∨ t.chars.length = 0 then differ
      else decide (¬Comparable s t) := by
  unfold strncmpS
  dsimp only
  rw [strnlenS_some]
  by_cases hs : s.chars.length = 0
  · rw [if_pos hs, if_pos (Or.inl hs)]
  · by_cases ht : t.chars.length = 0
    · rw [if_neg hs, if_pos (Or.inr (Or.inr (by omega))), if_pos (Or.inr ht)]
    · rw [if_neg hs, if_neg (by omega), if_neg (by omega), decide_eq_decide]
      refine not_congr ?_
      unfold Comparable
      rcases le_total s.chars.length t.chars.length with hle | hle
      · rw [min_eq_left hle, List.take_length, ← List.prefix_iff_eq_take]
        refine ⟨Or.inl, fun h => h.elim id fun hpre => ?_⟩
        rw [hpre.eq_of_length_le hle]
      · rw [min_eq_right hle, List.take_length, eq_comm, ← List.prefix_iff_eq_take]
        refine ⟨Or.inr, fun h => h.elim (fun hpre => ?_) id⟩
        rw [hpre.eq_of_length_le hle]

end NulString
