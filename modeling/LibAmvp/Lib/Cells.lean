import LibAmvp.Lib.Guard
import Mathlib.Data.List.DropRight
import Mathlib.Tactic

/-!
# Allocations with checked access

An allocation is the list of its cells.  Reading or writing an index that is not
one of them ends the computation with that index, so a computation that returns
a value has stayed inside every allocation it worked on.  Indices are integers: a
pointer that walks off the front of an allocation has a negative one.

Main results:

- Theorem {lit}`writeAll_append`: consecutive writes replace the cells they cover and
  leave the others as they are.
- Theorem {lit}`writeAll_isOk_iff`: they succeed exactly when they stay inside.
- Theorem {lit}`text_append`: the text of an allocation ends at its first terminator.
-/

/-- A computation that stops with the first index it touches outside an allocation. -/
abbrev Checked := Except Int

namespace Checked

/-- The computation touched no index outside. -/
def Inside {β : Type} (x : Checked β) : Prop := ∃ v, x = .ok v

theorem inside_ok {β : Type} (v : β) : Inside (.ok v : Checked β) := ⟨v, rfl⟩

theorem not_inside_error {β : Type} (i : Int) : ¬ Inside (.error i : Checked β) := by
  rintro ⟨v, h⟩
  cases h

@[simp]
theorem error_bind {β γ : Type} (i : Int) (f : β → Checked γ) :
    (Except.error i >>= f) = .error i :=
  rfl

end Checked

attribute [simp] Guard.ok_bind Guard.pure_eq

namespace Cells

variable {α : Type}

/-! ## Single cells -/

/-- Read the cell with this index. -/
def read (cells : List α) : Int → Checked α
  | .ofNat i => match cells[i]? with
    | some a => .ok a
    | none => .error i
  | .negSucc i => .error (.negSucc i)

/-- Write the cell with this index. -/
def write (cells : List α) (i : Int) (a : α) : Checked (List α) :=
  match i with
  | .ofNat i => if i < cells.length then .ok (cells.set i a) else .error i
  | .negSucc i => .error (.negSucc i)

@[simp]
theorem read_append (front back : List α) (a : α) :
    read (front ++ a :: back) front.length = .ok a := by
  simp [read]

@[simp]
theorem write_append (front back : List α) (old a : α) :
    write (front ++ old :: back) front.length a = .ok (front ++ a :: back) := by
  simp [write]

/-- Reading a cell whose place is given by the cells in front of it. -/
theorem read_at (cells front : List α) (a : α) (back : List α) {i : Nat}
    (h : cells = front ++ a :: back) (hi : front.length = i) : read cells i = .ok a := by
  rw [h, ← hi]
  exact read_append front back a

/-- Writing a cell whose place is given by the cells in front of it. -/
theorem write_at (a : α) (cells front : List α) (old : α) (back : List α) {i : Nat}
    (h : cells = front ++ old :: back) (hi : front.length = i) :
    write cells i a = .ok (front ++ a :: back) := by
  rw [h, ← hi]
  exact write_append front back old a

theorem write_of_length_le {cells : List α} {i : Nat} (h : cells.length ≤ i) (a : α) :
    write cells i a = .error i := by
  simp [write, Nat.not_lt.mpr h]

/-! ## Consecutive cells -/

/-- Write consecutive cells from this index on, one after the other. -/
def writeAll (cells : List α) (i : Int) : List α → Checked (List α)
  | [] => .ok cells
  | a :: as => do
    let cells ← write cells i a
    writeAll cells (i + 1) as

@[simp]
theorem writeAll_nil (cells : List α) (i : Int) : writeAll cells i [] = .ok cells :=
  rfl

/-- Consecutive writes replace the cells they cover and leave the others alone. -/
theorem writeAll_append (front old back as : List α) (h : old.length = as.length) :
    writeAll (front ++ (old ++ back)) front.length as = .ok (front ++ (as ++ back)) := by
  induction as generalizing front old with
  | nil =>
      rw [List.length_nil, List.length_eq_zero_iff] at h
      rw [h]
      rfl
  | cons a as ih =>
      obtain ⟨o, old, rfl⟩ := List.exists_cons_of_length_eq_add_one h
      have hrest := ih (front ++ [a]) old (by simpa using h)
      simp only [writeAll, List.cons_append, write_append]
      simpa using hrest

/-- Consecutive writes that stay inside. -/
theorem writeAll_of_le {cells : List α} (as : List α) {i : Nat} (h : i + as.length ≤ cells.length) :
    writeAll cells i as =
      .ok (cells.take i ++ (as ++ cells.drop (i + as.length))) := by
  have hcells : cells = cells.take i ++
      ((cells.drop i).take as.length ++ cells.drop (i + as.length)) := by
    rw [← List.drop_drop, List.take_append_drop, List.take_append_drop]
  have hfront : (cells.take i).length = i := by
    simp only [List.length_take]
    omega
  have hold : ((cells.drop i).take as.length).length = as.length := by
    simp only [List.length_take, List.length_drop]
    omega
  have hwrite := writeAll_append (cells.take i) _ (cells.drop (i + as.length)) as hold
  rwa [← hcells, hfront] at hwrite

/-- Consecutive writes that reach beyond the end do not return. -/
theorem writeAll_of_lt {cells as : List α} {i : Nat} (has : as ≠ [])
    (h : cells.length < i + as.length) : ∃ j, writeAll cells i as = .error j := by
  induction as generalizing cells i with
  | nil => exact absurd rfl has
  | cons a as ih =>
      by_cases hi : i < cells.length
      · have hwrite : write cells i a = .ok (cells.set i a) := by
          simp [write, hi]
        have hne : as ≠ [] := by
          rintro rfl
          simp only [List.length_cons, List.length_nil] at h
          omega
        have hlt : (cells.set i a).length < i + 1 + as.length := by
          simp only [List.length_set, List.length_cons] at h ⊢
          omega
        obtain ⟨j, hj⟩ := ih hne hlt
        refine ⟨j, ?_⟩
        simp only [writeAll, hwrite]
        exact_mod_cast hj
      · refine ⟨i, ?_⟩
        simp only [writeAll, write_of_length_le (Nat.not_lt.mp hi)]
        rfl

/-- Consecutive writes stay inside exactly when the last one does. -/
theorem writeAll_isOk_iff {cells as : List α} {i : Nat} (has : as ≠ []) :
    Checked.Inside (writeAll cells i as) ↔ i + as.length ≤ cells.length := by
  constructor
  · intro hok
    by_contra h
    obtain ⟨j, hj⟩ := writeAll_of_lt has (Nat.not_le.mp h)
    rw [hj] at hok
    exact Checked.not_inside_error j hok
  · intro h
    rw [writeAll_of_le as h]
    exact Checked.inside_ok _

/-! ## Terminated text -/

section Text

variable [DecidableEq α] {nul : α}

/-- The text at the front of an allocation, up to the first terminator. -/
def text (nul : α) (cells : List α) : List α := cells.takeWhile (· ≠ nul)

theorem text_append {as : List α} (h : nul ∉ as) (back : List α) :
    text nul (as ++ nul :: back) = as := by
  have hmem : ∀ a ∈ as, decide (a ≠ nul) = true := by
    intro a ha
    simp only [decide_eq_true_eq]
    rintro rfl
    exact h ha
  rw [text, List.takeWhile_append_of_pos hmem]
  simp

theorem nul_notMem_text (cells : List α) : nul ∉ text nul cells := by
  intro h
  have hne := List.mem_takeWhile_imp h
  simp at hne

/-- A terminated allocation is its text, the terminator and the rest. -/
theorem exists_text_append {cells : List α} (h : nul ∈ cells) :
    ∃ back, cells = text nul cells ++ nul :: back := by
  induction cells with
  | nil => cases h
  | cons a cells ih =>
      by_cases ha : a = nul
      · exact ⟨cells, by simp [text, ha]⟩
      · obtain ⟨back, hback⟩ := ih ((List.mem_cons.mp h).resolve_left (Ne.symm ha))
        refine ⟨back, ?_⟩
        have htext : text nul (a :: cells) = a :: text nul cells := by
          simp [text, ha]
        rw [htext, List.cons_append, ← hback]

/-- A text ends before any terminator. -/
theorem length_text_le {cells : List α} {i : Nat} (h : cells[i]? = some nul) :
    (text nul cells).length ≤ i := by
  by_contra hlt
  have hi : i < (text nul cells).length := Nat.not_le.mp hlt
  have hsplit : text nul cells ++ cells.dropWhile (· ≠ nul) = cells :=
    List.takeWhile_append_dropWhile
  rw [← hsplit, List.getElem?_append_left hi] at h
  exact nul_notMem_text cells (List.mem_of_getElem? h)

/-- {lit}`strnlen` from this index on: the number of cells before the terminator, at most
{lit}`smax`. -/
def strnlenFrom (nul : α) (cells : List α) (i : Nat) : Nat → Checked Nat
  | 0 => .ok 0
  | smax + 1 => do
    if (← read cells i) = nul then
      return 0
    else
      return (← strnlenFrom nul cells (i + 1) smax) + 1

/-- {lit}`strnlen`. -/
def strnlen (nul : α) (cells : List α) (smax : Nat) : Checked Nat :=
  strnlenFrom nul cells 0 smax

theorem strnlenFrom_append {as : List α} (h : nul ∉ as) (front back : List α) {smax : Nat}
    (hmax : as.length < smax) :
    strnlenFrom nul (front ++ (as ++ nul :: back)) front.length smax = .ok as.length := by
  induction as generalizing front smax with
  | nil =>
      obtain ⟨smax, rfl⟩ := Nat.exists_eq_add_one.mpr hmax
      simp [strnlenFrom]
  | cons a as ih =>
      obtain ⟨smax, rfl⟩ := Nat.exists_eq_add_one.mpr (Nat.zero_lt_of_lt hmax)
      have ha : a ≠ nul := fun heq => h (heq ▸ List.mem_cons_self)
      have hrest := ih (fun hmem => h (List.mem_cons_of_mem _ hmem)) (front ++ [a])
        (Nat.lt_of_succ_lt_succ hmax)
      have hcells : front ++ [a] ++ (as ++ nul :: back) = front ++ (a :: as ++ nul :: back) := by
        simp
      rw [hcells, List.length_append] at hrest
      simp only [strnlenFrom, List.cons_append, read_append]
      simp only [List.cons_append, List.length_cons, List.length_nil, Nat.zero_add] at hrest
      simp [ha, hrest]

theorem strnlen_append {as : List α} (h : nul ∉ as) (back : List α) {smax : Nat}
    (hmax : as.length < smax) : strnlen nul (as ++ nul :: back) smax = .ok as.length :=
  strnlenFrom_append h [] back hmax

/-- {lit}`snprintf(cells + at, size, ...)` of a text: what does not fit is cut off, and a
terminator is written unless there is no room at all. -/
def snprintf (nul : α) (cells : List α) (at' : Int) (size : Nat) (as : List α) :
    Checked (List α) :=
  if size = 0 then .ok cells else writeAll cells at' (as.take (size - 1) ++ [nul])

end Text

end Cells
