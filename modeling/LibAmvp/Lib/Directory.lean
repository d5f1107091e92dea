import Mathlib.Data.List.Perm.Basic
import Mathlib.Tactic

/-!
# Directories

A directory is a list of entries under names, in no particular order.  A lookup finds the first
entry under a name, a new entry is put at the end, and an entry is taken out by moving the last
one into its place.  Some names may be hidden: no lookup is made under them, and their entries
pile up.

Main results:

- Theorem {lit}`Directory.lookup_put`: a lookup after an entry was put.
- Theorem {lit}`Directory.takeOut_perm`: taking out an entry keeps the others, in another order.
- Theorem {lit}`Directory.lookup_takeOut`: a lookup after an entry was taken out, when the names
  that are not hidden are kept apart.
-/

namespace Directory

variable {κ α : Type}

section Definitions

variable [DecidableEq κ]

/-- The place of the first entry under a name. -/
def place (entries : List (κ × α)) (k : κ) : Option Nat := entries.findIdx? fun e => e.1 = k

/-- The value of the first entry under a name. -/
def lookup (entries : List (κ × α)) (k : κ) : Option α :=
  (entries.find? fun e => e.1 = k).map Prod.snd

/-- Overwrite the first entry under a name, or put a new one at the end. -/
def put (entries : List (κ × α)) (k : κ) (v : α) : List (κ × α) :=
  match place entries k with
  | some i => entries.set i (k, v)
  | none => entries ++ [(k, v)]

end Definitions

/-- Take out the entry at a place: the last entry is moved there. -/
def takeOut (entries : List (κ × α)) (i : Nat) : List (κ × α) :=
  match entries.getLast? with
  | some last => if i ≠ entries.length - 1 then (entries.set i last).dropLast else entries.dropLast
  | none => []

/-- The names that are not hidden come once. -/
def Apart (visible : κ → Prop) [DecidablePred visible] (entries : List (κ × α)) : Prop :=
  ((entries.map Prod.fst).filter visible).Nodup

section Lookups

variable [DecidableEq κ]

/-! ## Places -/

/-- A key has no place exactly when it is none of the keys. -/
theorem place_eq_none_iff {entries : List (κ × α)} {k : κ} :
    place entries k = none ↔ k ∉ entries.map Prod.fst := by
  rw [place, List.findIdx?_eq_none_iff, List.mem_map, not_exists]
  simp only [decide_eq_false_iff_not, not_and]

/-- A key is found exactly when it is one of them. -/
theorem lookup_isSome_iff {entries : List (κ × α)} {k : κ} :
    (lookup entries k).isSome ↔ k ∈ entries.map Prod.fst := by
  simp [lookup]

/-- And not found exactly when it is none. -/
theorem lookup_eq_none_iff {entries : List (κ × α)} {k : κ} :
    lookup entries k = none ↔ k ∉ entries.map Prod.fst := by
  rw [← lookup_isSome_iff, Option.not_isSome_iff_eq_none]

/-- The first entry under a name, and what stands around it. -/
theorem place_eq_some {entries : List (κ × α)} {k : κ} {i : Nat} (h : place entries k = some i) :
    ∃ v front rest, entries = front ++ (k, v) :: rest ∧ front.length = i ∧
      k ∉ front.map Prod.fst := by
  induction entries generalizing i with
  | nil => cases h
  | cons e entries ih =>
    rw [place, List.findIdx?_cons] at h
    by_cases he : e.1 = k
    · rw [if_pos (by simpa using he)] at h
      refine ⟨e.2, [], entries, ?_, Option.some.inj h, List.not_mem_nil⟩
      rw [← he]
      rfl
    · rw [if_neg (by simpa using he)] at h
      rcases Option.map_eq_some_iff.mp h with ⟨j, hj, rfl⟩
      rcases ih hj with ⟨v, front, rest, rfl, rfl, hfront⟩
      refine ⟨v, e :: front, rest, rfl, rfl, ?_⟩
      rw [List.map_cons, List.mem_cons, not_or]
      exact ⟨fun hk => he hk.symm, hfront⟩

/-- A lookup behind entries with other names. -/
theorem lookup_append {front : List (κ × α)} {k : κ} (h : k ∉ front.map Prod.fst)
    (rest : List (κ × α)) : lookup (front ++ rest) k = lookup rest k := by
  have hnone := lookup_eq_none_iff.mpr h
  rw [lookup, Option.map_eq_none_iff] at hnone
  rw [lookup, List.find?_append, hnone, Option.none_or, lookup]

/-- The first entry is looked at first. -/
theorem lookup_cons (e : κ × α) (rest : List (κ × α)) (k : κ) :
    lookup (e :: rest) k = if e.1 = k then some e.2 else lookup rest k := by
  by_cases h : e.1 = k
  · simp [lookup, h]
  · simp [lookup, h]

/-! ## Putting entries -/

/-- And replaced when its key is the one. -/
theorem put_cons (e : κ × α) (entries : List (κ × α)) (k : κ) (v : α) :
    put (e :: entries) k v = if e.1 = k then (k, v) :: entries else e :: put entries k v := by
  by_cases he : e.1 = k
  · have hplace : place (e :: entries) k = some 0 := by simp [place, List.findIdx?_cons, he]
    rw [put, hplace, if_pos he]
    rfl
  · have hplace : place (e :: entries) k = (place entries k).map (· + 1) := by
      simp [place, List.findIdx?_cons, he]
    rw [put, hplace, if_neg he, put]
    cases place entries k with
    | none => rfl
    | some i => rfl

/-- The entries after one was put: an entry under the name is overwritten, or there was none. -/
theorem put_cases (entries : List (κ × α)) (k : κ) (v : α) :
    (∃ v' front rest, entries = front ++ (k, v') :: rest ∧ k ∉ front.map Prod.fst ∧
      put entries k v = front ++ (k, v) :: rest) ∨
    (k ∉ entries.map Prod.fst ∧ put entries k v = entries ++ [(k, v)]) := by
  cases hplace : place entries k with
  | none =>
    right
    refine ⟨place_eq_none_iff.mp hplace, ?_⟩
    rw [put, hplace]
  | some i =>
    left
    rcases place_eq_some hplace with ⟨v', front, rest, rfl, rfl, hfront⟩
    refine ⟨v', front, rest, rfl, hfront, ?_⟩
    rw [put, hplace]
    exact List.set_append_right _ _ (le_refl _) |>.trans (by rw [Nat.sub_self, List.set_cons_zero])

/-- Entries under another name are passed over. -/
theorem lookup_middle {k k' : κ} (h : k ≠ k') (front rest : List (κ × α)) (v : α) :
    lookup (front ++ (k, v) :: rest) k' = lookup (front ++ rest) k' := by
  induction front with
  | nil => rw [List.nil_append, List.nil_append, lookup_cons, if_neg h]
  | cons e front ih => rw [List.cons_append, List.cons_append, lookup_cons, lookup_cons, ih]

/-- What was put is found, and the rest as before. -/
theorem lookup_put (entries : List (κ × α)) (k : κ) (v : α) (k' : κ) :
    lookup (put entries k v) k' = if k = k' then some v else lookup entries k' := by
  rcases put_cases entries k v with ⟨v', front, rest, rfl, hfront, hput⟩ | ⟨hnone, hput⟩
  · rw [hput]
    by_cases hk : k = k'
    · subst hk
      rw [lookup_append hfront, lookup_cons, if_pos rfl, if_pos rfl]
    · rw [if_neg hk, lookup_middle hk, lookup_middle hk]
  · rw [hput]
    by_cases hk : k = k'
    · subst hk
      rw [lookup_append hnone, lookup_cons, if_pos rfl, if_pos rfl]
    · rw [if_neg hk, lookup_middle hk, List.append_nil]

/-- An entry after a put is the new one or an old one. -/
theorem mem_put {entries : List (κ × α)} {k : κ} {v : α} {e : κ × α} (h : e ∈ put entries k v) :
    e = (k, v) ∨ e ∈ entries := by
  rcases put_cases entries k v with ⟨v', front, rest, rfl, -, hput⟩ | ⟨-, hput⟩
  · rw [hput] at h
    simp only [List.mem_append, List.mem_cons] at h ⊢
    tauto
  · rw [hput] at h
    simp only [List.mem_append, List.mem_singleton] at h
    tauto

end Lookups

/-! ## Names that are kept apart -/

section Apart

variable {visible : κ → Prop} [DecidablePred visible]

/-- Keys are apart when the first one is not met again and the others are. -/
theorem apart_cons {e : κ × α} {entries : List (κ × α)} :
    Apart visible (e :: entries) ↔
      Apart visible entries ∧ (visible e.1 → e.1 ∉ entries.map Prod.fst) := by
  rw [Apart, Apart, List.map_cons, List.filter_cons]
  by_cases he : visible e.1
  · rw [if_pos (by simpa using he), List.nodup_cons, List.mem_filter]
    simp [he, and_comm]
  · rw [if_neg (by simpa using he)]
    simp [he]

/-- The order does not matter. -/
theorem apart_of_perm {entries entries' : List (κ × α)} (h : entries.Perm entries') :
    Apart visible entries ↔ Apart visible entries' :=
  ((h.map Prod.fst).filter _).nodup_iff

/-- Entries under a hidden name can be put at the end. -/
theorem Apart.append_hidden {entries : List (κ × α)} (hapart : Apart visible entries) {k : κ}
    (hk : ¬visible k) (v : α) : Apart visible (entries ++ [(k, v)]) := by
  rw [apart_of_perm (List.perm_append_singleton (k, v) entries), apart_cons]
  exact ⟨hapart, fun h => absurd h hk⟩

variable [DecidableEq κ]

/-- A lookup under a name that comes once. -/
theorem lookup_eq_some_iff {entries : List (κ × α)} (hapart : Apart visible entries) {k : κ}
    (hk : visible k) {v : α} : lookup entries k = some v ↔ (k, v) ∈ entries := by
  induction entries with
  | nil => simp [lookup]
  | cons e entries ih =>
    rcases apart_cons.mp hapart with ⟨hrest, he⟩
    rw [lookup_cons, List.mem_cons]
    by_cases hek : e.1 = k
    · have hnone : (k, v) ∉ entries := fun hmem =>
        he (hek ▸ hk) (List.mem_map.mpr ⟨(k, v), hmem, hek.symm⟩)
      rw [if_pos hek]
      constructor
      · intro h
        exact Or.inl (Prod.ext hek.symm (Option.some.inj h).symm)
      · rintro (rfl | hmem)
        · rfl
        · exact absurd hmem hnone
    · rw [if_neg hek, ih hrest]
      constructor
      · exact Or.inr
      · rintro (rfl | hmem)
        · exact absurd rfl hek
        · exact hmem

/-- The order of entries whose names are kept apart does not matter. -/
theorem lookup_of_perm {entries entries' : List (κ × α)} (hapart : Apart visible entries)
    (h : entries.Perm entries') {k : κ} (hk : visible k) :
    lookup entries k = lookup entries' k := by
  apply Option.ext
  intro v
  rw [lookup_eq_some_iff hapart hk, lookup_eq_some_iff ((apart_of_perm h).mp hapart) hk, h.mem_iff]

/-- Putting an entry keeps the names apart. -/
theorem Apart.put {entries : List (κ × α)} (hapart : Apart visible entries) (k : κ) (v : α) :
    Apart visible (put entries k v) := by
  rcases put_cases entries k v with ⟨v', front, rest, rfl, -, hput⟩ | ⟨hnone, hput⟩
  · rw [hput]
    simpa [Apart] using hapart
  · rw [hput]
    rw [apart_of_perm (List.perm_append_singleton (k, v) entries), apart_cons]
    exact ⟨hapart, fun _ => hnone⟩

end Apart

/-! ## Taking entries out -/

/-- The other entries are kept, in another order. -/
theorem takeOut_perm (front rest : List (κ × α)) (e : κ × α) :
    (takeOut (front ++ e :: rest) front.length).Perm (front ++ rest) := by
  rcases List.eq_nil_or_concat rest with rfl | ⟨init, last, rfl⟩
  · have hout : takeOut (front ++ [e]) front.length = front := by
      simp [takeOut]
    rw [hout, List.append_nil]
  · have hout : takeOut (front ++ e :: (init ++ [last])) front.length =
        front ++ last :: init := by
      have hset : (front ++ e :: (init ++ [last])).set front.length last =
          front ++ last :: init ++ [last] := by simp
      have hlast : (front ++ e :: (init ++ [last])).getLast? = some last := by
        rw [← List.cons_append, ← List.append_assoc, List.getLast?_concat]
      rw [takeOut, hlast]
      dsimp only
      rw [if_pos (by simp), hset, List.dropLast_concat]
    rw [List.concat_eq_append, hout, ← List.append_assoc]
    exact List.perm_middle.trans (List.perm_append_singleton last (front ++ init)).symm

section Apart

variable {visible : κ → Prop} [DecidablePred visible] [DecidableEq κ]

/-- Keys stay apart when an entry is taken out. -/
theorem Apart.takeOut {entries : List (κ × α)} (hapart : Apart visible entries) {k : κ} {i : Nat}
    (h : place entries k = some i) : Apart visible (takeOut entries i) := by
  rcases place_eq_some h with ⟨v, front, rest, rfl, rfl, -⟩
  rw [apart_of_perm (takeOut_perm front rest (k, v))]
  have hmoved : Apart visible ((k, v) :: (front ++ rest)) :=
    (apart_of_perm List.perm_middle).mp hapart
  exact (apart_cons.mp hmoved).1

/-- What is left was there before. -/
theorem mem_takeOut {entries : List (κ × α)} {k : κ} {i : Nat} (h : place entries k = some i)
    {e : κ × α} (he : e ∈ takeOut entries i) : e ∈ entries := by
  rcases place_eq_some h with ⟨v, front, rest, rfl, rfl, -⟩
  have hkept := (takeOut_perm front rest (k, v)).mem_iff.mp he
  simp only [List.mem_append, List.mem_cons] at hkept ⊢
  tauto

/-- What was taken out is not found, and the rest as before. -/
theorem lookup_takeOut {entries : List (κ × α)} (hapart : Apart visible entries) {k : κ} {i : Nat}
    (h : place entries k = some i) (hk : visible k) {k' : κ} (hk' : visible k') :
    lookup (takeOut entries i) k' = if k = k' then none else lookup entries k' := by
  have htaken := hapart.takeOut h
  rcases place_eq_some h with ⟨v, front, rest, rfl, rfl, -⟩
  have hperm := takeOut_perm front rest (k, v)
  rw [lookup_of_perm htaken hperm hk']
  by_cases hkk : k = k'
  · subst hkk
    have hmoved : Apart visible ((k, v) :: (front ++ rest)) :=
      (apart_of_perm List.perm_middle).mp hapart
    rw [if_pos rfl, lookup_eq_none_iff]
    exact (apart_cons.mp hmoved).2 hk
  · rw [if_neg hkk, lookup_middle hkk]

end Apart

end Directory
