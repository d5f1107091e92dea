import Mathlib.Data.List.GetD
import LibAmvp.Lib.Memory

/-!
# Logs of writes

The single writes of a program to a buffer of zeros, in their order: whether they stay inside
the buffer, and what it holds afterwards.

Main results:

- Theorem {lit}`WriteLog.contents_writeAt`: bytes that are written one after the other.
- Theorem {lit}`WriteLog.inside_writeAt`: when such bytes stay inside.
-/

/-- The writes to a buffer: the place and the byte of each. -/
abbrev WriteLog := List (Nat × UInt8)

namespace WriteLog

/-- All writes are at places of a buffer of this size. -/
def Inside (log : WriteLog) (size : Nat) : Prop := ∀ write ∈ log, write.1 < size

/-- What a buffer holds after the writes. -/
def apply (log : WriteLog) (m : Memory) : Memory :=
  log.foldl (fun m write => Function.update m write.1 write.2) m

/-- What a buffer of zeros holds after the writes. -/
def contents (log : WriteLog) : Memory := log.apply Memory.zero

/-- The writes of bytes from a place on. -/
def writeAt (place : Nat) : List UInt8 → WriteLog
  | [] => []
  | byte :: rest => (place, byte) :: writeAt (place + 1) rest

theorem apply_append (log log' : WriteLog) (m : Memory) :
    apply (log ++ log') m = log'.apply (log.apply m) :=
  List.foldl_append

theorem inside_append {log log' : WriteLog} {size : Nat} :
    Inside (log ++ log') size ↔ log.Inside size ∧ log'.Inside size :=
  List.forall_mem_append

/-- Bytes that are written one after the other. -/
theorem apply_writeAt (place : Nat) (bytes : List UInt8) (m : Memory) (k : Nat) :
    (writeAt place bytes).apply m k =
      if place ≤ k ∧ k < place + bytes.length then bytes.getD (k - place) 0 else m k := by
  induction bytes generalizing place m with
  | nil =>
      rw [if_neg (by rw [List.length_nil]; omega)]
      rfl
  | cons byte rest ih =>
      have hstep : (writeAt place (byte :: rest)).apply m =
          (writeAt (place + 1) rest).apply (Function.update m place byte) := rfl
      rw [hstep, ih, List.length_cons]
      by_cases hk : k = place
      · subst hk
        rw [if_neg (by omega), Function.update_self, if_pos (by omega), Nat.sub_self]
        rfl
      · rw [Function.update_of_ne hk]
        by_cases hrest : place + 1 ≤ k ∧ k < place + 1 + rest.length
        · obtain ⟨j, rfl⟩ := Nat.exists_eq_add_of_le hrest.1
          rw [if_pos hrest, if_pos (by omega)]
          have hsub : place + 1 + j - place = j + 1 := by omega
          rw [hsub, Nat.add_sub_cancel_left, List.getD_cons_succ]
        · rw [if_neg hrest, if_neg (by omega)]

/-- Bytes that are written to the front of a buffer, and others behind them. -/
theorem read_contents_writeAt (front rest : List UInt8) (k : Nat) :
    (contents (writeAt 0 front ++ writeAt front.length rest)).read
      (front.length + rest.length + k) = front ++ rest ++ List.replicate k 0 := by
  refine List.ext_getElem (by simp [Nat.add_assoc]) fun i hi _ => ?_
  rw [Memory.read_length] at hi
  have hread : ((contents (writeAt 0 front ++ writeAt front.length rest)).read
      (front.length + rest.length + k)).getD i 0 =
      contents (writeAt 0 front ++ writeAt front.length rest) i :=
    Memory.read_getD _ hi 0
  rw [List.getD_eq_getElem _ _ (by rwa [Memory.read_length])] at hread
  rw [hread, contents, apply_append, apply_writeAt, apply_writeAt]
  by_cases hfront : i < front.length
  · rw [if_neg (by omega), if_pos (by omega), List.getElem_append_left (by
      rw [List.length_append]; omega), List.getElem_append_left hfront, Nat.sub_zero,
      List.getD_eq_getElem _ _ hfront]
  · by_cases hrest : i < front.length + rest.length
    · rw [if_pos (by omega), List.getElem_append_left (by rw [List.length_append]; omega),
        List.getElem_append_right (by omega), List.getD_eq_getElem _ _ (by omega)]
    · rw [if_neg (by omega), if_neg (by omega), List.getElem_append_right (by
        rw [List.length_append]; omega), List.getElem_replicate]
      rfl

/-- When bytes that are written one after the other stay inside. -/
theorem inside_writeAt {place : Nat} {bytes : List UInt8} {size : Nat} :
    (writeAt place bytes).Inside size ↔ bytes = [] ∨ place + bytes.length ≤ size := by
  induction bytes generalizing place with
  | nil => exact iff_of_true (by rintro write ⟨⟩) (Or.inl rfl)
  | cons byte rest ih =>
      have hcons : (writeAt place (byte :: rest)).Inside size ↔
          place < size ∧ (writeAt (place + 1) rest).Inside size := List.forall_mem_cons
      rw [hcons, ih, List.length_cons]
      simp only [reduceCtorEq, false_or]
      cases rest with
      | nil => simp
      | cons byte' rest =>
          simp only [reduceCtorEq, false_or, List.length_cons]
          omega

end WriteLog
