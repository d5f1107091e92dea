import Mathlib.Tactic

/-!
# Operations that answer or trap

An operation on a state answers with a result and a new state, or it traps: it does
something that has no defined outcome.  An operation is *clean* at a state when every
answer but a good one leaves the state as it was.  Cleanness follows the text of an
operation, up to the changes that are made before the last check.

A keyed list is searched for its first element with a property; the element is
replaced in its place, or a new element is appended at the end.

Main results:

- Theorem {lit}`CleanAt.ite` and its companions: cleanness follows the structure of an
  operation.
- Theorem {lit}`cleanAt_zoom_iff`: an operation on a part of a state is clean exactly
  where it is clean on the part.
- Theorem {lit}`setFirst_eq_self_iff`: replacing the element that is found changes the
  list exactly when it changes the element.
-/

/-- An operation on the state {lit}`σ` answers with a result, or it traps. -/
def Op (τ ρ σ : Type) : Type := σ → Except τ (ρ × σ)

namespace Op

variable {τ τ' ρ σ υ : Type}

/-- Answer and leave the state alone. -/
def answer (r : ρ) : Op τ ρ σ := fun s => .ok (r, s)

/-- Answer and change the state. -/
def store (r : ρ) (f : σ → σ) : Op τ ρ σ := fun s => .ok (r, f s)

/-- Do something without a defined outcome. -/
def trap (t : τ) : Op τ ρ σ := fun _ => .error t

/-- Change the state, then go on. -/
def changed (f : σ → σ) (op : Op τ ρ σ) : Op τ ρ σ := fun s => op (f s)

/-- Go on in a way that depends on the state. -/
def inspect (k : σ → Op τ ρ σ) : Op τ ρ σ := fun s => k s s

/-- An operation on a part of the state. -/
def zoom (get : σ → υ) (set : υ → σ → σ) (op : Op τ ρ υ) : Op τ ρ σ := fun s =>
  (op (get s)).map fun out => (out.1, set out.2 s)

/-- An operation on the first element of a list. -/
def atHead (missing : τ) (op : Op τ ρ σ) : Op τ ρ (List σ)
  | [] => .error missing
  | x :: rest => (op x).map fun out => (out.1, out.2 :: rest)

/-- An operation on the first element with a property, or an answer. -/
def atFirst (p : σ → Bool) (missing : ρ) (op : Op τ ρ σ) : Op τ ρ (List σ)
  | [] => .ok (missing, [])
  | x :: rest =>
    if p x then (op x).map fun out => (out.1, out.2 :: rest)
    else (atFirst p missing op rest).map fun out => (out.1, x :: out.2)

/-- An operation on the element at a place of an array. -/
def atIndex (outside : τ) (i : Int) (op : Op τ ρ σ) : Op τ ρ (List σ) := fun l =>
  if 0 ≤ i then
    match l[i.toNat]? with
    | some x => (op x).map fun out => (out.1, l.set i.toNat out.2)
    | none => .error outside
  else .error outside

/-- Rename the traps. -/
def retrap (f : τ → τ') (op : Op τ ρ σ) : Op τ' ρ σ := fun s => (op s).mapError f

/-- A test between two operations, applied to a state. -/
theorem ite_apply (c : Prop) [Decidable c] (op op' : Op τ ρ σ) (s : σ) :
    (if c then op else op') s = if c then op s else op' s := by
  split <;> rfl

/-- An operation on a part succeeds exactly when it does on that part, which is then put back. -/
theorem zoom_eq_ok_iff {get : σ → υ} {set : υ → σ → σ} {op : Op τ ρ υ} {s s' : σ} {r : ρ} :
    zoom get set op s = .ok (r, s') ↔ ∃ u, op (get s) = .ok (r, u) ∧ set u s = s' := by
  rw [zoom]
  cases hop : op (get s) with
  | error t => simp [Except.map]
  | ok out =>
      obtain ⟨r₁, u₁⟩ := out
      constructor
      · intro h
        cases h
        exact ⟨u₁, rfl, rfl⟩
      · rintro ⟨u, hu, rfl⟩
        cases hu
        rfl

/-- An operation at an index succeeds exactly when the index is in range and it does on the element.
-/
theorem atIndex_eq_ok_iff {outside : τ} {i : Int} {op : Op τ ρ σ} {l l' : List σ} {r : ρ} :
    atIndex outside i op l = .ok (r, l') ↔
      0 ≤ i ∧ ∃ x x', l[i.toNat]? = some x ∧ op x = .ok (r, x') ∧ l.set i.toNat x' = l' := by
  rw [atIndex]
  by_cases hi : 0 ≤ i
  · rw [if_pos hi]
    cases hx : l[i.toNat]? with
    | none => simp
    | some x =>
        cases hop : op x with
        | error t => simp [Except.map, hop]
        | ok out =>
            obtain ⟨r₁, x₁⟩ := out
            simp [Except.map, hop, hi, and_comm]
  · rw [if_neg hi]
    simp [hi]

/-- Renaming traps leaves the successes as they are. -/
theorem retrap_eq_ok_iff {f : τ → τ'} {op : Op τ ρ σ} {s : σ} {out : ρ × σ} :
    retrap f op s = .ok out ↔ op s = .ok out := by
  rw [retrap]
  cases op s <;> simp [Except.mapError]

/-- The traps are the renamed ones. -/
theorem retrap_eq_error_iff {f : τ → τ'} {op : Op τ ρ σ} {s : σ} {t : τ'} :
    retrap f op s = .error t ↔ ∃ t₀, op s = .error t₀ ∧ f t₀ = t := by
  rw [retrap]
  cases op s <;> simp [Except.mapError]

/-! ## Invariants -/

/-- Whatever an operation answers, it keeps an invariant. -/
def Keeps (I : σ → Prop) (op : Op τ ρ σ) : Prop :=
  ∀ s r s', I s → op s = .ok (r, s') → I s'

section Keeps

variable {I : σ → Prop}

/-- An answer keeps every invariant. -/
theorem Keeps.answer (r : ρ) : Keeps I (answer r : Op τ ρ σ) := by
  intro s r' s' hs h
  cases h
  exact hs

/-- A store keeps what its function keeps. -/
theorem Keeps.store {r : ρ} {f : σ → σ} (hf : ∀ s, I s → I (f s)) :
    Keeps I (store r f : Op τ ρ σ) := by
  intro s r' s' hs h
  cases h
  exact hf s hs

/-- A test keeps what both branches keep under their own condition. -/
theorem Keeps.ite {c : Prop} [Decidable c] {op op' : Op τ ρ σ} (hop : c → Keeps I op)
    (hop' : ¬c → Keeps I op') : Keeps I (if c then op else op') := by
  split
  · exact hop ‹_›
  · exact hop' ‹_›

/-- An operation that looks at the state keeps what all its continuations keep. -/
theorem Keeps.inspect {k : σ → Op τ ρ σ} (h : ∀ s, Keeps I (k s)) : Keeps I (inspect k) :=
  fun s r s' hs hop => h s s r s' hs hop

/-- A change before an operation keeps what both keep. -/
theorem Keeps.changed {f : σ → σ} {op : Op τ ρ σ} (hf : ∀ s, I s → I (f s)) (hop : Keeps I op) :
    Keeps I (changed f op) :=
  fun s r s' hs h => hop (f s) r s' (hf s hs) h

/-- An operation on a part keeps what it keeps of the part. -/
theorem Keeps.zoom {J : υ → Prop} {get : σ → υ} {set : υ → σ → σ} {op : Op τ ρ υ}
    (hget : ∀ s, I s → J (get s)) (hset : ∀ s u, I s → J u → I (set u s)) (hop : Keeps J op) :
    Keeps I (zoom get set op) := by
  intro s r s' hs h
  obtain ⟨u, hu, rfl⟩ := zoom_eq_ok_iff.mp h
  exact hset s u hs (hop (get s) r u (hget s hs) hu)

end Keeps

/-! ## Cleanness -/

/-- Every answer but a good one leaves the state as it was. -/
def CleanAt (good : ρ → Prop) (op : Op τ ρ σ) (s : σ) : Prop :=
  ∀ r s', op s = .ok (r, s') → good r ∨ s' = s

variable {good : ρ → Prop} {op op' : Op τ ρ σ} {s : σ}

/-- An answer leaves the state as it was. -/
theorem CleanAt.answer (r : ρ) : CleanAt good (answer r : Op τ ρ σ) s := by
  intro r' s' h
  cases h
  exact .inr rfl

/-- A store whose answer is good leaves no trace of a failure. -/
theorem CleanAt.store {r : ρ} (hr : good r) (f : σ → σ) :
    CleanAt good (store r f : Op τ ρ σ) s := by
  intro r' s' h
  cases h
  exact .inl hr

/-- A trap is no failure that is answered. -/
theorem CleanAt.trap (t : τ) : CleanAt good (trap t : Op τ ρ σ) s := by
  intro r s' h
  cases h

/-- A test leaves no trace when neither branch does. -/
theorem CleanAt.ite {c : Prop} [Decidable c] (hop : CleanAt good op s)
    (hop' : CleanAt good op' s) : CleanAt good (if c then op else op') s := by
  split
  · exact hop
  · exact hop'

/-- Looking at the state leaves no trace when the continuation at it does not. -/
theorem CleanAt.inspect {k : σ → Op τ ρ σ} (h : CleanAt good (k s) s) :
    CleanAt good (inspect k) s :=
  h

/-- Renaming traps changes nothing about traces. -/
theorem cleanAt_retrap_iff {f : τ → τ'} : CleanAt good (retrap f op) s ↔ CleanAt good op s := by
  simp only [CleanAt, retrap_eq_ok_iff]

/-- On a part an operation leaves no trace exactly when it leaves none of the part. -/
theorem cleanAt_zoom_iff {get : σ → υ} {set : υ → σ → σ} {op : Op τ ρ υ}
    (hset : ∀ u, set u s = s ↔ u = get s) :
    CleanAt good (zoom get set op) s ↔ CleanAt good op (get s) := by
  constructor
  · intro h r u hop
    have hzoom := h r (set u s) (zoom_eq_ok_iff.2 ⟨u, hop, rfl⟩)
    rwa [hset] at hzoom
  · intro h r s' hzoom
    obtain ⟨u, hop, rfl⟩ := zoom_eq_ok_iff.1 hzoom
    rw [hset]
    exact h r u hop

/-- A mapped computation succeeds exactly when the computation does. -/
theorem map_eq_ok_iff {x : Except τ (ρ × υ)} {f : ρ × υ → ρ × σ} {out : ρ × σ} :
    x.map f = .ok out ↔ ∃ y, x = .ok y ∧ f y = out := by
  cases x <;> simp [Except.map]

/-- At the head an operation leaves no trace exactly when it leaves none of the first element. -/
theorem cleanAt_atHead_iff {missing : τ} {x : σ} {rest : List σ} :
    CleanAt good (atHead missing op) (x :: rest) ↔ CleanAt good op x := by
  constructor
  · intro h r x' hop
    have hhead := h r (x' :: rest) (by rw [atHead, hop]; rfl)
    simpa using hhead
  · intro h r l' hhead
    obtain ⟨⟨r', x'⟩, hop, hout⟩ := map_eq_ok_iff.1 hhead
    cases hout
    rcases h _ _ hop with hgood | rfl
    · exact .inl hgood
    · exact .inr rfl

/-- The same as an implication, for a list that may be empty. -/
theorem CleanAt.atHead {missing : τ} {l : List σ} (h : ∀ x ∈ l, CleanAt good op x) :
    CleanAt good (atHead missing op) l := by
  cases l with
  | nil =>
      intro r l' hhead
      cases hhead
  | cons x rest => exact cleanAt_atHead_iff.2 (h x (List.mem_cons_self ..))

/-- An operation on the element that is found is clean exactly where it is clean on it. -/
theorem cleanAt_atFirst_iff {p : σ → Bool} {missing : ρ} {l : List σ} :
    CleanAt good (atFirst p missing op) l ↔ ∀ x, l.find? p = some x → CleanAt good op x := by
  induction l with
  | nil =>
      constructor
      · intro _ x hx
        cases hx
      · intro _
        exact .answer missing
  | cons z rest ih =>
      by_cases hz : p z
      · have hatHead : atFirst p missing op (z :: rest) =
            (op z).map fun out => (out.1, out.2 :: rest) := by
          simp [atFirst, hz]
        rw [List.find?_cons_of_pos hz]
        constructor
        · rintro h x ⟨⟩ r x' hop
          have hfirst := h r (x' :: rest) (by rw [hatHead, hop]; rfl)
          simpa using hfirst
        · intro h r l' hfirst
          rw [hatHead] at hfirst
          obtain ⟨⟨r', x'⟩, hop, hout⟩ := map_eq_ok_iff.1 hfirst
          cases hout
          simpa using h z rfl _ _ hop
      · have hatRest : atFirst p missing op (z :: rest) =
            (atFirst p missing op rest).map fun out => (out.1, z :: out.2) := by
          simp [atFirst, hz]
        rw [List.find?_cons_of_neg hz, ← ih]
        constructor
        · intro h r rest' hop
          have hfirst := h r (z :: rest') (by rw [hatRest, hop]; rfl)
          simpa using hfirst
        · intro h r l' hfirst
          rw [hatRest] at hfirst
          obtain ⟨⟨r', rest'⟩, hop, hout⟩ := map_eq_ok_iff.1 hfirst
          cases hout
          simpa using h _ _ hop

/-- At an index an operation leaves no trace exactly when it leaves none of the element there. -/
theorem cleanAt_atIndex_iff {outside : τ} {i : Int} {l : List σ} :
    CleanAt good (atIndex outside i op) l ↔
      ∀ x, 0 ≤ i → l[i.toNat]? = some x → CleanAt good op x := by
  by_cases hi : 0 ≤ i
  · cases hx : l[i.toNat]? with
    | none =>
        simp only [CleanAt, atIndex, if_pos hi, hx]
        simp
    | some x =>
        have hset : ∀ y, l.set i.toNat y = l ↔ y = x := by
          intro y
          obtain ⟨hlt, rfl⟩ := List.getElem?_eq_some_iff.1 hx
          constructor
          · intro h
            have hget := congrArg (fun m => m[i.toNat]?) h
            simpa [hlt] using hget
          · rintro rfl
            exact List.set_getElem_self hlt
        constructor
        · intro h y _ hy r y' hop
          cases hy
          have hindex := h r (l.set i.toNat y')
            (by simp only [atIndex, if_pos hi, hx, hop]; rfl)
          rwa [hset] at hindex
        · intro h r l' hindex
          simp only [atIndex, if_pos hi, hx] at hindex
          obtain ⟨⟨r', y⟩, hop, hout⟩ := map_eq_ok_iff.1 hindex
          cases hout
          rw [hset]
          exact h x hi rfl _ _ hop
  · simp only [CleanAt, atIndex, if_neg hi]
    simp [hi]

/-! ## Operations that are clean everywhere -/

/-- An operation is clean at every state. -/
def Clean (good : ρ → Prop) (op : Op τ ρ σ) : Prop := ∀ s, CleanAt good op s

/-- An answer never leaves a trace. -/
@[simp]
theorem clean_answer (r : ρ) : Clean good (answer r : Op τ ρ σ) := fun _ => .answer r

/-- Nor does a store whose answer is good. -/
theorem clean_store {r : ρ} (hr : good r) (f : σ → σ) : Clean good (store r f : Op τ ρ σ) :=
  fun _ => .store hr f

/-- Nor does a trap. -/
@[simp]
theorem clean_trap (t : τ) : Clean good (trap t : Op τ ρ σ) := fun _ => .trap t

/-- A test never leaves a trace exactly when each branch does not under its condition. -/
@[simp]
theorem clean_ite_iff {c : Prop} [Decidable c] :
    Clean good (if c then op else op') ↔ (c → Clean good op) ∧ (¬ c → Clean good op') := by
  split <;> simp [*]

/-- Looking at the state never leaves a trace when no continuation does. -/
theorem Clean.inspect {k : σ → Op τ ρ σ} (h : ∀ s, Clean good (k s)) :
    Clean good (inspect k) :=
  fun s => h s s

/-- An operation on a part never leaves a trace when it leaves none of the part. -/
theorem Clean.zoom {get : σ → υ} {set : υ → σ → σ} {op : Op τ ρ υ} (h : Clean good op)
    (hset : ∀ s u, set u s = s ↔ u = get s) : Clean good (zoom get set op) :=
  fun s => (cleanAt_zoom_iff (hset s)).2 (h (get s))

/-- Nor does one at the head. -/
theorem Clean.atHead {missing : τ} (h : Clean good op) : Clean good (atHead missing op) :=
  fun _ => .atHead fun x _ => h x

/-- Nor does one at the first element with a property. -/
theorem Clean.atFirst {p : σ → Bool} {missing : ρ} (h : Clean good op) :
    Clean good (atFirst p missing op) :=
  fun _ => cleanAt_atFirst_iff.2 fun x _ => h x

/-- Nor does one at an index. -/
theorem Clean.atIndex {outside : τ} {i : Int} (h : Clean good op) :
    Clean good (atIndex outside i op) :=
  fun _ => cleanAt_atIndex_iff.2 fun x _ _ => h x

/-! ## Decisions -/

/-- An operation answers, with a good answer exactly when a condition holds; any other
answer leaves the state as it was. -/
def DecidesAt (good : ρ → Prop) (op : Op τ ρ σ) (s : σ) (c : Prop) : Prop :=
  ∃ r s', op s = .ok (r, s') ∧ (good r ↔ c) ∧ (good r ∨ s' = s)

/-- An answer that is not good decides for a condition that fails. -/
theorem DecidesAt.answer {r : ρ} {c : Prop} (hr : ¬ good r) (hc : ¬ c) :
    DecidesAt good (answer r : Op τ ρ σ) s c :=
  ⟨r, s, rfl, iff_of_false hr hc, .inr rfl⟩

/-- A store with a good answer decides for a condition that holds. -/
theorem DecidesAt.store {r : ρ} {c : Prop} {f : σ → σ} (hr : good r) (hc : c) :
    DecidesAt good (store r f : Op τ ρ σ) s c :=
  ⟨r, f s, rfl, iff_of_true hr hc, .inl hr⟩

/-- Looking at the state decides what the continuation decides. -/
theorem DecidesAt.inspect {k : σ → Op τ ρ σ} {c : Prop} (h : DecidesAt good (k s) s c) :
    DecidesAt good (inspect k) s c :=
  h

/-- A change made before a decision does no harm when the decision is good or the change
changes nothing. -/
theorem cleanAt_changed_iff {f : σ → σ} {c : Prop} (h : DecidesAt good op (f s) c) :
    CleanAt good (changed f op) s ↔ c ∨ f s = s := by
  obtain ⟨r, s', hop, hgood, hsame⟩ := h
  constructor
  · intro hclean
    rcases hclean r s' hop with hr | rfl
    · exact .inl (hgood.1 hr)
    · exact hsame.imp hgood.1 Eq.symm
  · intro hc r₁ s₁ hop₁
    rw [changed, hop] at hop₁
    cases hop₁
    rcases hc with hc | hf
    · exact .inl (hgood.2 hc)
    · rw [hf] at hsame
      exact hsame

end Op

/-! ## Keyed lists -/

namespace Keyed

variable {α β : Type} {p : α → Bool} {x y : α} {l : List α}

/-- Replace the first element with the property. -/
def setFirst (p : α → Bool) (y : α) : List α → List α
  | [] => []
  | x :: rest => if p x then y :: rest else x :: setFirst p y rest

attribute [grind =] setFirst

/-- Change the first element with the property. -/
def modifyFirst (p : α → Bool) (f : α → α) : List α → List α
  | [] => []
  | x :: rest => if p x then f x :: rest else x :: modifyFirst p f rest

/-- Change the first element with the property, or append a changed new element. -/
def upsert (p : α → Bool) (fresh : α) (f : α → α) : List α → List α
  | [] => [f fresh]
  | x :: rest => if p x then f x :: rest else x :: upsert p fresh f rest

/-- Replacing the first match changes nothing exactly when the replacement is that match. -/
theorem setFirst_eq_self_iff (h : l.find? p = some x) : setFirst p y l = l ↔ y = x := by
  induction l with
  | nil => cases h
  | cons z rest ih =>
      rw [setFirst]
      by_cases hz : p z
      · rw [List.find?_cons_of_pos hz] at h
        cases h
        simp [hz]
      · rw [List.find?_cons_of_neg hz] at h
        simp [hz, ih h]

/-- The replacement is found in the place of what it replaced. -/
theorem find?_setFirst (h : l.find? p = some x) (hy : p y = true) :
    (setFirst p y l).find? p = some y := by
  induction l with
  | nil => cases h
  | cons z rest ih =>
      rw [setFirst]
      by_cases hz : p z
      · rw [if_pos hz, List.find?_cons_of_pos hy]
      · rw [List.find?_cons_of_neg hz] at h
        rw [if_neg hz, List.find?_cons_of_neg hz, ih h]

/-- An element that is not asked for can be replaced by another one that is not. -/
theorem find?_setFirst_of_not {q : α → Bool} (h : l.find? p = some x) (hx : ¬ q x) (hy : ¬ q y) :
    (setFirst p y l).find? q = l.find? q := by
  induction l with
  | nil => cases h
  | cons z rest ih =>
      rw [setFirst]
      by_cases hz : p z
      · rw [List.find?_cons_of_pos hz] at h
        cases h
        rw [if_pos hz, List.find?_cons_of_neg hy, List.find?_cons_of_neg hx]
      · rw [List.find?_cons_of_neg hz] at h
        rw [if_neg hz, List.find?_cons, List.find?_cons, ih h]

/-- A function that does not tell the replacement from what it replaced sees no change. -/
theorem map_setFirst {f : α → β} (h : l.find? p = some x) (hf : f y = f x) :
    (setFirst p y l).map f = l.map f := by
  induction l with
  | nil => rfl
  | cons z rest ih =>
      rw [setFirst]
      by_cases hz : p z
      · rw [List.find?_cons_of_pos hz] at h
        cases h
        simp [hz, hf]
      · rw [List.find?_cons_of_neg hz] at h
        simp [hz, ih h]

/-- With different keys the other elements are those of other keys. -/
theorem mem_setFirst {κ : Type} [DecidableEq κ] {k : α → κ} {key : κ} {z : α}
    (hkeys : (l.map k).Nodup) (h : l.find? (fun x => k x == key) = some x)
    (hz : z ∈ setFirst (fun x => k x == key) y l) : z = y ∨ z ∈ l ∧ k z ≠ key := by
  induction l with
  | nil => cases h
  | cons w rest ih =>
      rw [List.map_cons, List.nodup_cons] at hkeys
      rw [setFirst] at hz
      by_cases hw : k w == key
      · rw [if_pos hw] at hz
        rcases List.mem_cons.mp hz with rfl | hz
        · exact .inl rfl
        · refine .inr ⟨List.mem_cons_of_mem w hz, fun hkey => hkeys.1 ?_⟩
          rw [eq_of_beq hw, ← hkey]
          exact List.mem_map_of_mem hz
      · rw [if_neg hw] at hz
        have hfalse : (k w == key) = false := by simpa using hw
        simp only [List.find?_cons, hfalse] at h
        rcases List.mem_cons.mp hz with rfl | hz
        · exact .inr ⟨List.mem_cons_self .., fun hkey => hw (by simp [hkey])⟩
        · exact (ih hkeys.2 h hz).imp_right fun hz => ⟨List.mem_cons_of_mem w hz.1, hz.2⟩

/-- When there is a match, an update or insertion updates it. -/
theorem upsert_of_find {f : α → α} {fresh : α} (h : l.find? p = some x) :
    upsert p fresh f l = setFirst p (f x) l := by
  induction l with
  | nil => cases h
  | cons z rest ih =>
      rw [upsert, setFirst]
      by_cases hz : p z
      · rw [List.find?_cons_of_pos hz] at h
        cases h
        simp [hz]
      · rw [List.find?_cons_of_neg hz] at h
        simp [hz, ih h]

/-- When there is none, it appends the updated fresh element. -/
theorem upsert_of_not_find {f : α → α} {fresh : α} (h : l.find? p = none) :
    upsert p fresh f l = l ++ [f fresh] := by
  induction l with
  | nil => rfl
  | cons z rest ih =>
      rw [List.find?_eq_none] at h
      have hz : ¬ p z := h z (List.mem_cons_self ..)
      have hrest : rest.find? p = none :=
        List.find?_eq_none.2 fun w hw => h w (List.mem_cons_of_mem z hw)
      simp [upsert, hz, ih hrest]

/-- A change that changes nothing leaves the list as it was. -/
theorem modifyFirst_of_forall_eq {f : α → α} (hf : ∀ x, f x = x) (l : List α) :
    modifyFirst p f l = l := by
  induction l with
  | nil => rfl
  | cons z rest ih => rw [modifyFirst, hf, ih, ite_self]

/-- A change of the first match commutes with a map that respects matches and change. -/
theorem map_modifyFirst {f : α → α} {f' : β → β} {g : α → β} {q : β → Bool}
    (hq : ∀ x, q (g x) = p x) (hf : ∀ x, g (f x) = f' (g x)) (l : List α) :
    (modifyFirst p f l).map g = modifyFirst q f' (l.map g) := by
  induction l with
  | nil => rfl
  | cons z rest ih =>
      rw [List.map_cons, modifyFirst, modifyFirst, hq]
      by_cases hz : p z
      · simp [hz, hf]
      · simp [hz, ih]

/-- So does an update or insertion. -/
theorem map_upsert {f : α → α} {f' : β → β} {g : α → β} {q : β → Bool} {fresh : α}
    (hq : ∀ x, q (g x) = p x) (hf : ∀ x, g (f x) = f' (g x)) (l : List α) :
    (upsert p fresh f l).map g = upsert q (g fresh) f' (l.map g) := by
  induction l with
  | nil => simp [upsert, hf]
  | cons z rest ih =>
      rw [List.map_cons, upsert, upsert, hq]
      by_cases hz : p z
      · simp [hz, hf]
      · simp [hz, ih]

/-- A change of the element that is found, or of a new one, changes the list unless it
finds an element and leaves it alone. -/
theorem upsert_eq_self_iff {f : α → α} {fresh : α} :
    upsert p fresh f l = l ↔ ∃ x, l.find? p = some x ∧ f x = x := by
  cases h : l.find? p with
  | none => simp [upsert_of_not_find h]
  | some x => simp [upsert_of_find h, setFirst_eq_self_iff h]

end Keyed
