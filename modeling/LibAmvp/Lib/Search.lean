import Mathlib.Tactic

/-!
# First hits

A list is searched for the first element that passes a test, and what is taken from
it is a value of that element.  Two such searches over the same list, with different
tests and different values, are compared.

Main result:

- Theorem {lit}`find_map_eq_iff`: two searches have the same outcome exactly when they
  agree at the first element that passes either test.

A search may also fail at an element, or not come to an end there.
-/

namespace Search

variable {α β : Type}

/-- At the first element that passes one of the tests, both are passed and the values are
the same, or the search that passes over it finds the same value further on. -/
def Agree (p q : α → Bool) (f g : α → β) : List α → Prop
  | [] => True
  | x :: xs =>
    match p x, q x with
    | true, true => f x = g x
    | true, false => (xs.find? q).map g = some (f x)
    | false, true => (xs.find? p).map f = some (g x)
    | false, false => Agree p q f g xs

variable {p q : α → Bool} {f g : α → β}

/-- Two searches have the same outcome exactly when they agree. -/
theorem find_map_eq_iff (xs : List α) :
    (xs.find? p).map f = (xs.find? q).map g ↔ Agree p q f g xs := by
  induction xs with
  | nil => exact iff_of_true rfl trivial
  | cons x xs ih =>
      rw [Agree, List.find?_cons, List.find?_cons]
      cases p x <;> cases q x
      · exact ih
      · exact Iff.rfl
      · exact eq_comm
      · exact Option.some_inj

/-- A search that does not look at the positions of the elements. -/
theorem find_map_zipIdx (xs : List α) :
    (xs.find? q).map g = (xs.zipIdx.find? fun e => q e.1).map fun e => g e.1 := by
  have hmap := List.find?_map (p := q) (f := Prod.fst) (l := xs.zipIdx)
  rw [List.zipIdx_map_fst] at hmap
  rw [hmap, Option.map_map]
  rfl

/-! ## Searches that may end early -/

/-- What a search makes of an element: it does not come to an end, it fails, it takes a value of
the element, or it goes on to the next one. -/
inductive Reaction (α : Type) where
  | hangs
  | fails
  | takes (a : α)
  | goesOn
deriving DecidableEq

/-- What a search ends with: the first reaction that is not to go on. -/
def firstEnd : List (Reaction α) → Reaction α
  | [] => .goesOn
  | .goesOn :: rest => firstEnd rest
  | reaction :: _ => reaction

@[simp]
theorem firstEnd_goesOn (rest : List (Reaction α)) :
    firstEnd (.goesOn :: rest) = firstEnd rest := rfl

/-- What a search takes, if it comes to an end. -/
def Reaction.found : Reaction α → Option (Option α)
  | .hangs => none
  | .takes a => some (some a)
  | _ => some none

/-- What is made of a list when a search of it finds nothing. -/
def Reaction.absent : Reaction α → Reaction Unit
  | .hangs => .hangs
  | .fails => .fails
  | .takes _ => .goesOn
  | .goesOn => .takes ()

/-- What is made of an element that a first test takes. -/
def Reaction.andThen (first : Reaction α) (next : Reaction β) : Reaction β :=
  match first with
  | .hangs => .hangs
  | .fails => .fails
  | .takes _ => next
  | .goesOn => .goesOn

end Search
