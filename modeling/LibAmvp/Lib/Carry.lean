import Mathlib.Tactic

/-!
# Variables that are set now and then

An element of a list may set a variable; otherwise the variable keeps its value.  Two starts of
the same list differ as long as no element has set the variable.

Main results:

- Theorem {lit}`Carry.agrees_iff`: when do the elements that use a variable find the same
  value from two starts?
-/

namespace Carry

variable {α β : Type}

/-- The value of a variable when an element of a list is worked on. -/
def settle (sets : β → Option α) (a : α) (b : β) : α := (sets b).getD a

/-- The value that a list leaves. -/
def lastSet (sets : β → Option α) (a : α) (bs : List β) : α := bs.foldl (settle sets) a

/-- The elements of a list that find the variable as it was before. -/
def untilSet (sets : β → Option α) (bs : List β) : List β :=
  bs.takeWhile fun b => (sets b).isNone

/-- The elements that use a variable find the same value from two starts. -/
def Agrees (sets : β → Option α) (uses : β → Prop) : α → α → List β → Prop
  | _, _, [] => True
  | a, a', b :: bs =>
    (uses b → settle sets a b = settle sets a' b) ∧
      Agrees sets uses (settle sets a b) (settle sets a' b) bs

/-- A variable that a first list leaves as it was at the start, or that no element of a second
list uses before it is set. -/
def Own (sets : β → Option α) (uses : β → Prop) (a : α) (bs bs' : List β) : Prop :=
  lastSet sets a bs = a ∨ ∀ b ∈ untilSet sets bs', ¬uses b

variable {sets : β → Option α} {uses : β → Prop}

theorem settle_of_some {b : β} {a' : α} (h : sets b = some a') (a : α) : settle sets a b = a' := by
  rw [settle, h, Option.getD_some]

theorem settle_of_none {b : β} (h : sets b = none) (a : α) : settle sets a b = a := by
  rw [settle, h, Option.getD_none]

theorem agrees_self (a : α) (bs : List β) : Agrees sets uses a a bs := by
  induction bs generalizing a with
  | nil => trivial
  | cons b bs ih => exact ⟨fun _ => rfl, ih _⟩

/-- The elements that use a variable find the same value from two starts exactly when the
starts are the same, or when none uses it before it is set. -/
theorem agrees_iff (a a' : α) (bs : List β) :
    Agrees sets uses a a' bs ↔ a = a' ∨ ∀ b ∈ untilSet sets bs, ¬uses b := by
  by_cases hstart : a = a'
  · subst hstart
    exact iff_of_true (agrees_self a bs) (.inl rfl)
  rw [or_iff_right hstart]
  induction bs with
  | nil => exact iff_of_true trivial nofun
  | cons b bs ih =>
      cases hset : sets b with
      | some c =>
          have huntil : untilSet sets (b :: bs) = [] := by
            simp [untilSet, hset]
          rw [Agrees, settle_of_some hset, settle_of_some hset, huntil]
          exact iff_of_true ⟨fun _ => rfl, agrees_self c bs⟩ nofun
      | none =>
          have huntil : untilSet sets (b :: bs) = b :: untilSet sets bs := by
            simp [untilSet, hset]
          rw [Agrees, settle_of_none hset, settle_of_none hset, huntil, List.forall_mem_cons, ih]
          exact and_congr_left fun _ => ⟨fun h huse => hstart (h huse), fun h huse => absurd huse h⟩

theorem own_iff (a : α) (bs bs' : List β) :
    Own sets uses a bs bs' ↔ Agrees sets uses (lastSet sets a bs) a bs' :=
  (agrees_iff _ _ _).symm

end Carry
