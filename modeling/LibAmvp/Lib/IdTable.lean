import LibAmvp.Lib.Prog

/-!
# Tables whose entries carry an id

A table is a list of entries, each with a 32-bit id by which it is found again.  The
ids come from a counter that wraps, so a table is *numbered* when its entries carry
consecutive ids, none of them zero.  A program on an entry is *blind* when it neither
reads nor writes the id.

Main results:

- Theorem {lit}`Numbered.findEntry_eq_some_iff`: in a numbered table an entry is found at
  the distance of its id from the first one.
- Theorem {lit}`atEntry_append_of_fresh`: working on the newest entry through its id.
- Theorem {lit}`atEntry_eq`: what working on an entry does.
- Theorem {lit}`Sound.append` and its companions: ids stay distinct and non-zero.
-/

/-- Entries with an id. -/
class Entry (τ : Type) where
  ident : τ → UInt32
  withId : UInt32 → τ → τ
  ident_withId : ∀ id x, ident (withId id x) = id
  withId_ident : ∀ x, withId (ident x) x = x
  withId_withId : ∀ id id' x, withId id (withId id' x) = withId id x

namespace IdTable

open Entry

variable {τ α : Type} [Entry τ]

/-- The position of the first entry with this id; zero is no id. -/
def findEntry (id : UInt32) (table : List τ) : Option Nat :=
  if id = 0 then none else table.findIdx? fun x => ident x == id

attribute [grind =] findEntry

/-- Run a program on the first entry with this id, or answer with a default. -/
def atEntry (id : UInt32) (missing : α) (m : Prog τ α) : Prog (List τ) α := fun table =>
  if id = 0 then (missing, table)
  else
    match table with
    | [] => (missing, [])
    | x :: rest =>
      if ident x = id then ((m x).1, (m x).2 :: rest)
      else ((atEntry id missing m rest).1, x :: (atEntry id missing m rest).2)

/-- Append a new entry and run a program on it. -/
def appendEntry {τ : Type} (x : τ) (m : Prog τ α) : Prog (List τ) α := fun table =>
  ((m x).1, table ++ [(m x).2])

/-- An entry is appended as its program leaves it. -/
theorem appendEntry_of_eq {τ : Type} {x y : τ} {m : Prog τ α} {a : α} (h : m x = (a, y))
    (table : List τ) : appendEntry x m table = (a, table ++ [y]) := by
  rw [appendEntry, h]

/-! ## Numbered tables -/

/-- The entries carry consecutive ids from a base, and none of them is zero. -/
def Numbered (base : UInt32) (table : List τ) : Prop :=
  ∀ i x, table[i]? = some x → ident x = base + UInt32.ofNat i ∧ ident x ≠ 0

variable {base id : UInt32} {table : List τ} {x : τ}

/-- The empty table is numbered from everywhere. -/
theorem numbered_nil : Numbered base ([] : List τ) := by
  intro i x h
  simp at h

/-- It stays numbered with an entry of the next identifier. -/
theorem Numbered.append (h : Numbered base table)
    (hid : ident x = base + UInt32.ofNat table.length) (hzero : ident x ≠ 0) :
    Numbered base (table ++ [x]) := by
  intro i y hy
  rcases Nat.lt_trichotomy i table.length with hlt | rfl | hgt
  · rw [List.getElem?_append_left hlt] at hy
    exact h i y hy
  · obtain rfl : x = y := by simpa using hy
    exact ⟨hid, hzero⟩
  · rw [List.getElem?_eq_none (by simp; omega)] at hy
    cases hy

/-- And when the last entry is replaced by one with its identifier. -/
theorem Numbered.replace_last {y : τ} (h : Numbered base (table ++ [x]))
    (hid : ident y = ident x) : Numbered base (table ++ [y]) := by
  intro i z hz
  rcases Nat.lt_trichotomy i table.length with hlt | rfl | hgt
  · rw [List.getElem?_append_left hlt] at hz
    exact h i z (by rw [List.getElem?_append_left hlt]; exact hz)
  · obtain rfl : y = z := by simpa using hz
    rw [hid]
    exact h table.length x (by simp)
  · rw [List.getElem?_eq_none (by simp; omega)] at hz
    cases hz

/-- The identifier of an entry is the base and its place. -/
theorem Numbered.ident_eq (h : Numbered base table) {i : Nat} (hi : i < table.length) :
    ident table[i] = base + UInt32.ofNat i :=
  (h i _ (List.getElem?_eq_getElem hi)).1

/-- No such identifier is zero. -/
theorem Numbered.base_ne_zero (h : Numbered base table) {i : Nat} (hi : i < table.length) :
    base + UInt32.ofNat i ≠ 0 := by
  obtain ⟨hid, hzero⟩ := h i _ (List.getElem?_eq_getElem hi)
  rwa [← hid]

/-- Below the range of the counter, positions and ids determine each other. -/
theorem add_ofNat_inj {i j : Nat} (hi : i < 2 ^ 32) (hj : j < 2 ^ 32)
    (h : base + UInt32.ofNat i = base + UInt32.ofNat j) : i = j := by
  have hcancel : UInt32.ofNat i = UInt32.ofNat j := by simpa using h
  have htoNat := congrArg UInt32.toNat hcancel
  rwa [UInt32.toNat_ofNat_of_lt' hi, UInt32.toNat_ofNat_of_lt' hj] at htoNat

/-- The identifier after the one of a place. -/
theorem add_ofNat_succ (base : UInt32) (n : Nat) :
    base + UInt32.ofNat n + 1 = base + UInt32.ofNat (n + 1) := by
  rw [UInt32.add_assoc, UInt32.ofNat_add]
  rfl

/-- In a numbered table an entry is found at the distance of its id from the first. -/
theorem Numbered.findEntry_eq_some_iff (h : Numbered base table)
    (hlength : table.length < 2 ^ 32) (i : Nat) :
    findEntry id table = some i ↔ i < table.length ∧ id = base + UInt32.ofNat i := by
  rw [findEntry]
  by_cases hid : id = 0
  · subst hid
    rw [if_pos rfl]
    refine iff_of_false (by simp) ?_
    rintro ⟨hi, hzero⟩
    exact h.base_ne_zero hi hzero.symm
  · rw [if_neg hid, List.findIdx?_eq_some_iff_getElem]
    constructor
    · rintro ⟨hi, hfound, -⟩
      refine ⟨hi, ?_⟩
      rw [← h.ident_eq hi]
      exact (beq_iff_eq.mp hfound).symm
    · rintro ⟨hi, rfl⟩
      refine ⟨hi, by simp [h.ident_eq hi], fun j hj hfound => ?_⟩
      have hsame : base + UInt32.ofNat j = base + UInt32.ofNat i := by
        rw [← h.ident_eq (hj.trans hi)]
        simpa using hfound
      have hji := add_ofNat_inj (by omega) (by omega) hsame
      omega

/-- The next id is not in the table. -/
theorem Numbered.fresh (h : Numbered base table) (hlength : table.length < 2 ^ 32) :
    ∀ x ∈ table, ident x ≠ base + UInt32.ofNat table.length := by
  intro x hx hsame
  obtain ⟨i, hi, rfl⟩ := List.mem_iff_getElem.mp hx
  rw [h.ident_eq hi] at hsame
  have := add_ofNat_inj (by omega) (by omega) hsame
  omega

/-- An id that no entry has is not found. -/
theorem findEntry_eq_none (hfresh : ∀ y ∈ table, ident y ≠ id) : findEntry id table = none := by
  rw [findEntry]
  split
  · rfl
  · rw [List.findIdx?_eq_none_iff]
    intro y hy
    simpa using hfresh y hy

/-- An id that some entry has is found. -/
theorem findEntry_ne_none {y : τ} (hy : y ∈ table) (hid : id ≠ 0) (hyid : ident y = id) :
    findEntry id table ≠ none := by
  intro hnone
  rw [findEntry, if_neg hid, List.findIdx?_eq_none_iff] at hnone
  have hfalse := hnone y hy
  simp [hyid] at hfalse

/-- The newest entry is found behind the others. -/
theorem findEntry_append_of_fresh (hzero : ident x ≠ 0)
    (hfresh : ∀ y ∈ table, ident y ≠ ident x) :
    findEntry (ident x) (table ++ [x]) = some table.length := by
  have hnone : table.findIdx? (fun y => ident y == ident x) = none := by
    rw [List.findIdx?_eq_none_iff]
    intro y hy
    simpa using hfresh y hy
  rw [findEntry, if_neg hzero, List.findIdx?_append, hnone]
  simp

/-- Working on an entry that is the only one with its id, at the end of the table. -/
theorem atEntry_append_of_fresh (hzero : ident x ≠ 0) (hfresh : ∀ y ∈ table, ident y ≠ ident x)
    (missing : α) (m : Prog τ α) :
    atEntry (ident x) missing m (table ++ [x]) = appendEntry x m table := by
  induction table with
  | nil => simp [atEntry, hzero, appendEntry]
  | cons y table ih =>
      have hy : ident y ≠ ident x := hfresh y (by simp)
      have hrest := ih fun z hz => hfresh z (by simp [hz])
      rw [List.cons_append, atEntry, if_neg hzero]
      simp only [hy, if_false, hrest, appendEntry, List.cons_append]

/-- What working on an entry does, by what finding it says. -/
theorem atEntry_eq (id : UInt32) (missing : α) (m : Prog τ α) (table : List τ) :
    (findEntry id table = none ∧ atEntry id missing m table = (missing, table)) ∨
      ∃ i, ∃ hi : i < table.length, findEntry id table = some i ∧ ident table[i] = id ∧
        atEntry id missing m table = ((m table[i]).1, table.set i (m table[i]).2) := by
  by_cases hzero : id = 0
  · refine Or.inl ⟨by rw [findEntry, if_pos hzero], ?_⟩
    cases table <;> rw [atEntry, if_pos hzero]
  induction table with
  | nil => exact Or.inl ⟨by simp [findEntry], by simp [atEntry]⟩
  | cons x rest ih =>
      by_cases hx : ident x = id
      · refine Or.inr ⟨0, by simp, ?_, hx, ?_⟩
        · simp [findEntry, hzero, List.findIdx?_cons, hx]
        · simp [atEntry, hzero, hx]
      · have hfind : findEntry id (x :: rest) = (findEntry id rest).map (· + 1) := by
          simp [findEntry, hzero, List.findIdx?_cons, hx]
        have hat : atEntry id missing m (x :: rest) =
            ((atEntry id missing m rest).1, x :: (atEntry id missing m rest).2) := by
          simp only [atEntry, hzero, hx, if_false]
        rcases ih with ⟨hnone, hrest⟩ | ⟨i, hi, hsome, hident, hrest⟩
        · exact Or.inl ⟨by rw [hfind, hnone]; rfl, by rw [hat, hrest]⟩
        · exact Or.inr ⟨i + 1, by simpa using hi, by rw [hfind, hsome]; rfl, hident,
            by rw [hat, hrest]; rfl⟩

/-! ## Sound tables -/

/-- The ids are distinct and none of them is zero, and there are not too many entries. -/
structure Sound (max : Nat) (table : List τ) : Prop where
  nonzero : ∀ x ∈ table, ident x ≠ 0
  distinct : (table.map ident).Nodup
  count : table.length ≤ max

/-- There is room in the table for a new entry with this id. -/
structure Admits (max : Nat) (table : List τ) (id : UInt32) : Prop where
  room : table.length ≠ max
  nonzero : id ≠ 0
  fresh : ∀ x ∈ table, ident x ≠ id

variable {max : Nat}

/-- A table stays sound with an entry that it admits. -/
theorem Sound.append (h : Sound max table) (hx : Admits max table (ident x)) :
    Sound max (table ++ [x]) where
  nonzero y hy := by
    rcases List.mem_append.mp hy with hy | hy
    · exact h.nonzero y hy
    · rw [List.mem_singleton.mp hy]
      exact hx.nonzero
  distinct := by
    rw [List.map_append, List.nodup_append]
    refine ⟨h.distinct, by simp, ?_⟩
    intro id hid id' hid' heq
    obtain ⟨y, hy, rfl⟩ := List.mem_map.mp hid
    refine hx.fresh y hy ?_
    simpa [heq] using hid'
  count := by
    have hroom := hx.room
    have hcount := h.count
    simp only [List.length_append, List.length_singleton]
    omega

/-- Replacing an entry by one with its identifier keeps the identifiers. -/
theorem map_ident_set {i : Nat} (hi : i < table.length) (hx : ident x = ident table[i]) :
    (table.set i x).map ident = table.map ident := by
  have hi' : i < (table.map ident).length := by simpa using hi
  have hident : ident table[i] = (table.map ident)[i] := by rw [List.getElem_map]
  rw [List.map_set, hx, hident]
  exact List.set_getElem_self hi'

/-- So the table stays sound. -/
theorem Sound.set (h : Sound max table) {i : Nat} (hi : i < table.length)
    (hx : ident x = ident table[i]) : Sound max (table.set i x) where
  nonzero y hy := by
    rcases List.mem_or_eq_of_mem_set hy with hy | rfl
    · exact h.nonzero y hy
    · rw [hx]
      exact h.nonzero _ (List.getElem_mem hi)
  distinct := by
    rw [map_ident_set hi hx]
    exact h.distinct
  count := by simpa using h.count

/-- Where the ids are distinct, changing the entry found is changing the one with the id. -/
theorem Sound.set_eq_map (h : Sound max table) (f : τ → τ) {i : Nat} (hi : i < table.length) :
    table.set i (f table[i]) =
      table.map fun x => if ident x = ident table[i] then f x else x := by
  apply List.ext_getElem (by simp)
  intro j hj hj'
  have hj : j < table.length := by simpa using hj
  rw [List.getElem_set, List.getElem_map]
  by_cases hij : i = j
  · subst hij
    simp
  · rw [if_neg hij, if_neg]
    intro hsame
    have hji := List.inj_on_of_nodup_map h.distinct (List.getElem_mem hj) (List.getElem_mem hi) hsame
    exact hij ((h.distinct.of_map _).getElem_inj_iff.mp hji).symm

/-! ## Programs that do not see the id -/

/-- The entry without its id. -/
def erase (x : τ) : τ := withId 0 x

/-- The program neither reads nor writes the id of its entry. -/
def Blind (m : Prog τ α) : Prop :=
  ∀ id x, m (withId id x) = ((m x).1, withId id (m x).2)

/-- A program that does not look at the identifier keeps it. -/
theorem Blind.ident_eq {m : Prog τ α} (h : Blind m) (x : τ) : ident (m x).2 = ident x := by
  have hx := h (ident x) x
  rw [withId_ident] at hx
  rw [congrArg Prod.snd hx]
  exact ident_withId _ _

/-- A result does not look at it. -/
theorem Blind.pure (a : α) : Blind (Pure.pure a : Prog τ α) :=
  fun _ _ => rfl

/-- Nor does a test between programs that do not. -/
theorem Blind.ite {c : Prop} [Decidable c] {m n : Prog τ α} (hm : Blind m) (hn : Blind n) :
    Blind (if c then m else n) := by
  split
  · exact hm
  · exact hn

/-- Nor does a program on a part apart from it. -/
theorem Blind.zoom {ρ : Type} {get : τ → ρ} {set : τ → ρ → τ}
    (hget : ∀ id x, get (withId id x) = get x)
    (hset : ∀ id x y, set (withId id x) y = withId id (set x y)) (m : Prog ρ α) :
    Blind (Prog.zoom get set m) := by
  intro id x
  simp [Prog.zoom, hget, hset]

/-- Nor does a sequence of programs that do not. -/
theorem Blind.bind {β : Type} {m : Prog τ α} {f : α → Prog τ β} (hm : Blind m)
    (hf : ∀ a, Blind (f a)) : Blind (m >>= f) := by
  intro id x
  rw [Prog.bind_apply, hm, hf, Prog.bind_apply]

end IdTable
