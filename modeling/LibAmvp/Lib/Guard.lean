import Mathlib.Tactic

/-!
# Guarded computations

Checks in sequence, each of which may stop a computation with an error of its own.  The
lemmas turn a successful computation into what its checks have established.
-/

namespace Guard

variable {ε α β : Type}

/-- Stop with an error when a condition holds. -/
def stopIf (c : Prop) [Decidable c] (e : ε) : Except ε Unit :=
  if c then .error e else .ok ()

/-- Stop with an error when there is no value. -/
def need (x : Option α) (e : ε) : Except ε α :=
  match x with
  | some a => .ok a
  | none => .error e

/-- Compute a value when a condition holds, and take another one otherwise. -/
def onlyIf (c : Prop) [Decidable c] (x : Except ε α) (otherwise : α) : Except ε α :=
  if c then x else .ok otherwise

/-- A sequence succeeds exactly when both parts do. -/
theorem bind_eq_ok {x : Except ε α} {f : α → Except ε β} {b : β} :
    (x >>= f) = .ok b ↔ ∃ a, x = .ok a ∧ f a = .ok b := by
  cases x with
  | error e => exact ⟨nofun, fun ⟨_, h, _⟩ => nomatch h⟩
  | ok a => exact ⟨fun h => ⟨a, rfl, h⟩, fun ⟨_, h, hf⟩ => Except.ok.inj h ▸ hf⟩

/-- It fails with the first error. -/
theorem bind_eq_error {x : Except ε α} {f : α → Except ε β} {e : ε} :
    (x >>= f) = .error e ↔ x = .error e ∨ ∃ a, x = .ok a ∧ f a = .error e := by
  cases x with
  | error e' =>
      refine ⟨fun h => .inl (congrArg _ (Except.error.inj h)), ?_⟩
      rintro (h | ⟨_, h, _⟩) <;> cases h
      rfl
  | ok a =>
      refine ⟨fun h => .inr ⟨a, rfl, h⟩, ?_⟩
      rintro (h | ⟨_, h, hf⟩) <;> cases h
      exact hf

/-- A result is the one that succeeds. -/
theorem pure_eq_ok {a b : α} : (pure a : Except ε α) = .ok b ↔ a = b :=
  ⟨Except.ok.inj, fun h => h ▸ rfl⟩

/-- A result is a success. -/
theorem pure_eq (a : α) : (pure a : Except ε α) = .ok a :=
  rfl

/-- A success is handed on. -/
theorem ok_bind (a : α) (f : α → Except ε β) : (Except.ok a >>= f) = f a :=
  rfl

/-- A guard lets go on exactly when its condition fails. -/
theorem stopIf_eq_ok {c : Prop} [Decidable c] {e : ε} {u : Unit} :
    stopIf c e = .ok u ↔ ¬c := by
  unfold stopIf
  split <;> simp [*]

/-- In that case it does nothing. -/
theorem stopIf_neg {c : Prop} [Decidable c] (hc : ¬c) (e : ε) : stopIf c e = .ok () :=
  if_neg hc

/-- What must be there is found exactly when it is. -/
theorem need_eq_ok {x : Option α} {e : ε} {a : α} : need x e = .ok a ↔ x = some a := by
  cases x <;> simp [need]

/-- Under its condition a part is run. -/
theorem onlyIf_pos {c : Prop} [Decidable c] (hc : c) (x : Except ε α) (otherwise : α) :
    onlyIf c x otherwise = x :=
  if_pos hc

/-- Otherwise the default is taken. -/
theorem onlyIf_neg {c : Prop} [Decidable c] (hc : ¬c) (x : Except ε α) (otherwise : α) :
    onlyIf c x otherwise = .ok otherwise :=
  if_neg hc

/-- It fails only under its condition. -/
theorem onlyIf_eq_error {c : Prop} [Decidable c] {x : Except ε α} {otherwise : α} {e : ε} :
    onlyIf c x otherwise = .error e ↔ c ∧ x = .error e := by
  unfold onlyIf
  split <;> simp [*]

/-- It succeeds in one way or the other. -/
theorem onlyIf_cases {c : Prop} [Decidable c] {x : Except ε α} {a b : α}
    (h : onlyIf c x a = .ok b) : c ∧ x = .ok b ∨ ¬c ∧ b = a := by
  by_cases hc : c
  · rw [onlyIf_pos hc] at h
    exact .inl ⟨hc, h⟩
  · rw [onlyIf_neg hc] at h
    exact .inr ⟨hc, (Except.ok.inj h).symm⟩

/-- What is there is found. -/
@[simp]
theorem need_some (a : α) (e : ε) : need (some a) e = .ok a :=
  rfl

/-- A mapped computation succeeds exactly when the computation does. -/
theorem map_eq_ok {x : Except ε α} {f : α → β} {b : β} :
    x.map f = .ok b ↔ ∃ a, x = .ok a ∧ f a = b := by
  cases x <;> simp [Except.map]

/-- Renaming errors leaves the successes as they are. -/
theorem mapError_eq_ok {ε' : Type} {x : Except ε α} {f : ε → ε'} {a : α} :
    x.mapError f = .ok a ↔ x = .ok a := by
  cases x <;> simp [Except.mapError]

/-- A slot that is filled anew under a condition: whether it is full afterwards, and what
another content before would have left in it. -/
theorem onlyIf_some_ok {c : Bool} {x : Except ε α} {old new : Option α}
    (h : onlyIf c (x.map some) old = .ok new) :
    new.isSome = (c || old.isSome) ∧ (c = false → new = old) ∧ (c = true → x.toOption = new) ∧
      ∀ old', onlyIf c (x.map some) old' = .ok (if c then new else old') := by
  cases c with
  | false =>
      rw [onlyIf_neg (by simp)] at h
      cases h
      exact ⟨rfl, fun _ => rfl, nofun, fun old' => rfl⟩
  | true =>
      rw [onlyIf_pos rfl, map_eq_ok] at h
      obtain ⟨a, hx, rfl⟩ := h
      refine ⟨rfl, nofun, fun _ => by rw [hx]; rfl, fun old' => ?_⟩
      rw [onlyIf_pos rfl, hx]
      rfl

/-- There is one value of the unit type. -/
theorem exists_unit {p : Unit → Prop} : (∃ u, p u) ↔ p () :=
  ⟨fun ⟨_, h⟩ => h, fun h => ⟨(), h⟩⟩

end Guard
