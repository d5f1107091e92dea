import Mathlib.Tactic

/-!
# Fields that own storage

A record has fields, each of which is empty or points to a block of storage.
Blocks are handed out by an allocator that may refuse, hold a value, and are
released once; releasing a block a second time is undefined.  The record is *owned*
when every field points to a live block of its own.

Main results:

- Theorem {lit}`Owned.free`: an owned record can release any of its fields.
- Theorem {lit}`Owned.replace`: replacing the value of a field keeps the record owned.
-/

/-- The blocks handed out so far, and the fields that point to them. -/
structure Storage (σ β : Type) where
  slot : σ → Option Nat
  blocks : List (Option β)

namespace Storage

variable {σ β : Type}

/-- The value of a live block. -/
def live (s : Storage σ β) (a : Nat) : Option β := (s.blocks[a]?).join

/-- No field points anywhere. -/
def empty : Storage σ β := ⟨fun _ => none, []⟩

/-- {lit}`if (field) free(field);` releases the block a field points to.  The field
keeps pointing there. -/
def free (f : σ) (s : Storage σ β) : Option (Storage σ β) :=
  match s.slot f with
  | none => some s
  | some a => if (s.live a).isSome then some { s with blocks := s.blocks.set a none } else none

variable [DecidableEq σ]

/-- Let a field point somewhere else. -/
def point (f : σ) (a : Option Nat) (s : Storage σ β) : Storage σ β :=
  { s with slot := Function.update s.slot f a }

/-- Let a field point to a new block with this value. -/
def alloc (f : σ) (v : β) (s : Storage σ β) : Storage σ β where
  slot := Function.update s.slot f (some s.blocks.length)
  blocks := s.blocks ++ [some v]

/-- Release what a field points to, then ask for a new block: with a refusal the field
is left empty. -/
def replace (granted : Bool) (f : σ) (v : β) (s : Storage σ β) : Option (Storage σ β) :=
  (s.free f).map fun s => if granted then s.alloc f v else s.point f none

/-! ## Ownership -/

/-- Every field points to a live block of its own. -/
structure Owned (s : Storage σ β) : Prop where
  alive : ∀ f a, s.slot f = some a → (s.live a).isSome
  apart : ∀ f g a, s.slot f = some a → s.slot g = some a → f = g

variable {s : Storage σ β} {f : σ}

omit [DecidableEq σ] in
theorem owned_empty : Owned (empty : Storage σ β) :=
  ⟨fun _ _ h => (Option.some_ne_none _ h.symm).elim, fun _ _ _ h => (Option.some_ne_none _ h.symm).elim⟩

omit [DecidableEq σ] in
theorem lt_length_of_live {a : Nat} (h : (s.live a).isSome) : a < s.blocks.length := by
  by_contra hge
  rw [live, List.getElem?_eq_none (Nat.not_lt.mp hge)] at h
  cases h

omit [DecidableEq σ] in
/-- What releasing a field does to the blocks. -/
theorem live_set {a b : Nat} : 
    live { s with blocks := s.blocks.set a none } b = if a = b then none else s.live b := by
  by_cases hab : a = b
  · subst hab
    rw [if_pos rfl, live, List.getElem?_set_self']
    cases s.blocks[a]? <;> rfl
  · rw [if_neg hab, live, live, List.getElem?_set_ne hab]

omit [DecidableEq σ] in
/-- An owned record can release any of its fields, and nothing else changes. -/
theorem Owned.free (h : s.Owned) (f : σ) :
    ∃ s', s.free f = some s' ∧ s'.slot = s.slot ∧
      (∀ a, s.slot f = some a → s'.live a = none) ∧
      ∀ g a, g ≠ f → s.slot g = some a → s'.live a = s.live a := by
  cases hf : s.slot f with
  | none =>
      refine ⟨s, by simp [Storage.free, hf], rfl, by simp, fun _ _ _ _ => rfl⟩
  | some a =>
      refine ⟨{ s with blocks := s.blocks.set a none }, ?_, rfl, ?_, ?_⟩
      · simp [Storage.free, hf, h.alive f a hf]
      · rintro b ⟨⟩
        rw [live_set, if_pos rfl]
      · intro g b hg hb
        have hab : a ≠ b := fun heq => hg (h.apart g f b hb (heq ▸ hf))
        rw [live_set, if_neg hab]

theorem live_alloc_new (v : β) : (s.alloc f v).live s.blocks.length = some v := by
  simp [live, alloc]

theorem live_alloc {v : β} {a : Nat} (ha : (s.live a).isSome) :
    (s.alloc f v).live a = s.live a := by
  rw [live, alloc, List.getElem?_append_left (lt_length_of_live ha), live]

/-- A record that owns all but one of its fields owns them all once that one points to a
new block or nowhere. -/
theorem owned_of_others {s s' : Storage σ β} (h : s.Owned) (hslot : s'.slot = s.slot)
    (hother : ∀ g a, g ≠ f → s.slot g = some a → s'.live a = s.live a) (granted : Bool) (v : β) :
    (if granted then s'.alloc f v else s'.point f none).Owned := by
  have halive : ∀ g a, g ≠ f → s'.slot g = some a → (s'.live a).isSome := by
    intro g a hg ha
    rw [hslot] at ha
    rw [hother g a hg ha]
    exact h.alive g a ha
  cases granted with
  | false =>
      constructor
      · intro g a ha
        by_cases hg : g = f
        · simp [point, hg] at ha
        · exact halive g a hg (by simpa [point, hg] using ha)
      · intro g g' a ha ha'
        by_cases hg : g = f
        · simp [point, hg] at ha
        · by_cases hg' : g' = f
          · simp [point, hg'] at ha'
          · exact h.apart g g' a (by simpa [point, hg, hslot] using ha)
              (by simpa [point, hg', hslot] using ha')
  | true =>
      constructor
      · intro g a ha
        by_cases hg : g = f
        · obtain rfl : s'.blocks.length = a := by simpa [alloc, hg] using ha
          simp [live_alloc_new]
        · have hlive := halive g a hg (by simpa [alloc, hg] using ha)
          simpa [live_alloc hlive] using hlive
      · intro g g' a ha ha'
        by_cases hg : g = f
        · by_cases hg' : g' = f
          · rw [hg, hg']
          · have hlive := lt_length_of_live (halive g' a hg' (by simpa [alloc, hg'] using ha'))
            obtain rfl : s'.blocks.length = a := by simpa [alloc, hg] using ha
            exact absurd hlive (Nat.lt_irrefl _)
        · by_cases hg' : g' = f
          · have hlive := lt_length_of_live (halive g a hg (by simpa [alloc, hg] using ha))
            obtain rfl : s'.blocks.length = a := by simpa [alloc, hg'] using ha'
            exact absurd hlive (Nat.lt_irrefl _)
          · exact h.apart g g' a (by simpa [alloc, hg, hslot] using ha)
              (by simpa [alloc, hg', hslot] using ha')

/-- Replacing the value of a field keeps the record owned. -/
theorem Owned.replace (h : s.Owned) (granted : Bool) (f : σ) (v : β) :
    ∃ s', s.replace granted f v = some s' ∧ s'.Owned := by
  obtain ⟨s', hfree, hslot, -, hother⟩ := h.free f
  exact ⟨_, by rw [Storage.replace, hfree]; rfl, owned_of_others h hslot hother granted v⟩

/-- Letting a field point to a new block or nowhere, without releasing the old one. -/
theorem Owned.allocate (h : s.Owned) (granted : Bool) (f : σ) (v : β) :
    (if granted then s.alloc f v else s.point f none).Owned :=
  owned_of_others h rfl (fun _ _ _ _ => rfl) granted v

end Storage
