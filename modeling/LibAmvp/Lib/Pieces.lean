import Mathlib.Data.List.TakeWhile
import Mathlib.Tactic

/-!
# Pieces between separators

A list is cut at its separators, and empty pieces are left out, as a tokenizer does.  Lists that
were joined by separators come apart again as long as none of them holds a separator itself.

Main results:

- Theorem {lit}`pieces_join`: the pieces of joined lists are those of the lists.
- Theorem {lit}`one_lt_pieces`: a list with a separator inside has more than one piece.
- Theorem {lit}`pieces_map`: the pieces of a code are the codes of the pieces.
-/

variable {α : Type} (p : α → Bool)

/-- The pieces of a list between separators, without empty ones. -/
def pieces (l : List α) : List (List α) := (l.splitOnP p).filter fun piece => !piece.isEmpty

variable {p}

theorem pieces_nil : pieces p [] = [] := by simp [pieces]

theorem pieces_append_cons (l l' : List α) {sep : α} (hsep : p sep) :
    pieces p (l ++ sep :: l') = pieces p l ++ pieces p l' := by
  rw [pieces, List.splitOnP_append_cons l l' hsep, List.filter_append]
  rfl

theorem pieces_eq_singleton {l : List α} (hne : l ≠ []) (h : ∀ x ∈ l, p x = false) :
    pieces p l = [l] := by
  rw [pieces, List.splitOnP_eq_singleton h]
  simp [hne]

/-- Separators at the front are passed over. -/
theorem pieces_skip {front : List α} (h : ∀ x ∈ front, p x) (l : List α) :
    pieces p (front ++ l) = pieces p l := by
  induction front with
  | nil => rfl
  | cons x front ih =>
    rcases List.forall_mem_cons.mp h with ⟨hx, hrest⟩
    have hcut := pieces_append_cons [] (front ++ l) hx
    rw [pieces_nil, List.nil_append, List.nil_append] at hcut
    rw [List.cons_append, hcut, ih hrest]

/-- The first piece of a list, with a separator behind it. -/
theorem pieces_first {front piece l : List α} {sep : α} (hfront : ∀ x ∈ front, p x)
    (hne : piece ≠ []) (hpiece : ∀ x ∈ piece, p x = false) (hsep : p sep) :
    pieces p (front ++ (piece ++ sep :: l)) = piece :: pieces p l := by
  rw [pieces_skip hfront, pieces_append_cons piece l hsep, pieces_eq_singleton hne hpiece]
  rfl

/-- The only piece of a list. -/
theorem pieces_only {front piece : List α} (hfront : ∀ x ∈ front, p x) (hne : piece ≠ [])
    (hpiece : ∀ x ∈ piece, p x = false) : pieces p (front ++ piece) = [piece] := by
  rw [pieces_skip hfront, pieces_eq_singleton hne hpiece]

/-- A list with something between its separators has a piece. -/
theorem pieces_ne_nil {l : List α} {x : α} (hx : x ∈ l) (hpx : p x = false) : pieces p l ≠ [] := by
  induction l with
  | nil => cases hx
  | cons y l ih =>
    by_cases hy : p y
    · have hmem : x ∈ l := by
        rcases List.mem_cons.mp hx with rfl | hmem
        · rw [hy] at hpx
          cases hpx
        · exact hmem
      have hcut := pieces_append_cons [] l hy
      rw [pieces_nil, List.nil_append, List.nil_append] at hcut
      rw [hcut]
      exact ih hmem
    · obtain ⟨head, tail, hsplit⟩ := List.exists_cons_of_ne_nil (List.splitOnP_ne_nil p l)
      simp [pieces, List.splitOnP_cons_eq_if_modifyHead, hy, hsplit]

/-- The pieces of lists that are joined by separators. -/
theorem pieces_join {sep : α} (hsep : p sep) (ls : List (List α)) :
    pieces p ([sep, sep].intercalate ls) = ls.flatMap (pieces p) := by
  induction ls with
  | nil => exact pieces_nil
  | cons l ls ih =>
    cases ls with
    | nil => simp
    | cons l' ls =>
      have hjoin : [sep, sep].intercalate (l :: l' :: ls) =
          l ++ sep :: ([] ++ sep :: [sep, sep].intercalate (l' :: ls)) := by
        simp [List.intercalate_cons_cons]
      rw [hjoin, pieces_append_cons _ _ hsep, pieces_append_cons _ _ hsep, pieces_nil, ih]
      rfl

/-- A list with a separator between two other elements has more than one piece. -/
theorem one_lt_pieces {l l' : List α} {sep x y : α} (hsep : p sep) (hx : x ∈ l)
    (hpx : p x = false) (hy : y ∈ l') (hpy : p y = false) :
    1 < (pieces p (l ++ sep :: l')).length := by
  have hleft := List.length_pos_of_ne_nil (pieces_ne_nil hx hpx)
  have hright := List.length_pos_of_ne_nil (pieces_ne_nil hy hpy)
  rw [pieces_append_cons l l' hsep, List.length_append]
  omega

/-- A list is cut where its code is cut, when the elements that are separators are encoded as
separators and the others are not. -/
theorem splitOnP_map {β : Type} {q : β → Bool} {f : α → β} {l : List α}
    (h : ∀ x ∈ l, q (f x) = p x) :
    (l.map f).splitOnP q = (l.splitOnP p).map (List.map f) := by
  induction l with
  | nil => simp
  | cons x l ih =>
    rcases List.forall_mem_cons.mp h with ⟨hx, hrest⟩
    obtain ⟨head, tail, hsplit⟩ := List.exists_cons_of_ne_nil (List.splitOnP_ne_nil p l)
    rw [List.map_cons, List.splitOnP_cons_eq_if_modifyHead, List.splitOnP_cons_eq_if_modifyHead,
      hx, ih hrest, hsplit]
    split <;> simp

/-- The pieces of a code are the codes of the pieces. -/
theorem pieces_map {β : Type} {q : β → Bool} {f : α → β} {l : List α}
    (h : ∀ x ∈ l, q (f x) = p x) : pieces q (l.map f) = (pieces p l).map (List.map f) := by
  rw [pieces, pieces, splitOnP_map h, List.filter_map]
  refine congrArg _ (List.filter_congr fun piece _ => ?_)
  cases piece <;> rfl
