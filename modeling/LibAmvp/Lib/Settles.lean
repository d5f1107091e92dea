import LibAmvp.Lib.Dialog

/-!
# Programs with a bound on their steps

A loop that ends only when its partner makes it end is modelled with a bound on its rounds.  Its
result says something about the unbounded loop when it no longer changes with the bound.

Main results:

- Theorem {lit}`Settles.bind`: what is computed from a settled result settles.
- Theorem {lit}`Settles.dialog_bind`: the same for programs that put questions to a partner.
- Theorems {lit}`Settles.runItems_cons` and {lit}`Settles.runBatches_cons`: work on items and on
  batches settles step by step.
-/

open Filter

variable {α β τ ε : Type}

/-- What a partner makes of a question that it is asked again, as it left it. -/
def Partner.again (p : Partner τ) : Nat → List τ → τ → τ
  | 0, _, q => q
  | n + 1, before, q => p.again n (before ++ [q]) (p before q).2

/-- From some bound on the result is always the same, and it has a property. -/
def Settles (x : Nat → α) (P : α → Prop) : Prop := ∃ a, (∀ᶠ n in atTop, x n = a) ∧ P a

namespace Settles

variable {x : Nat → α} {P Q : α → Prop} {R : β → Prop}

theorem const {a : α} (h : P a) : Settles (fun _ => a) P :=
  ⟨a, Eventually.of_forall fun _ => rfl, h⟩

theorem mono (h : Settles x P) (hPQ : ∀ a, P a → Q a) : Settles x Q := by
  obtain ⟨a, ha, hP⟩ := h
  exact ⟨a, ha, hPQ a hP⟩

/-- What is computed from a settled result settles. -/
theorem bind {f : Nat → α → β} (hx : Settles x P) (hf : ∀ a, P a → Settles (f · a) R) :
    Settles (fun n => f n (x n)) R := by
  obtain ⟨a, ha, hP⟩ := hx
  obtain ⟨b, hb, hR⟩ := hf a hP
  refine ⟨b, ?_, hR⟩
  filter_upwards [ha, hb] with n hxn hfn
  rw [hxn, hfn]

theorem map {f : α → β} (hx : Settles x P) (hf : ∀ a, P a → R (f a)) :
    Settles (fun n => f (x n)) R :=
  hx.bind fun a hP => const (hf a hP)

/-- One round less does not matter. -/
theorem of_succ (h : Settles (fun n => x (n + 1)) P) : Settles x P := by
  obtain ⟨a, ha, hP⟩ := h
  obtain ⟨N, hN⟩ := eventually_atTop.mp ha
  refine ⟨a, eventually_atTop.mpr ⟨N + 1, fun n hn => ?_⟩, hP⟩
  obtain ⟨m, rfl⟩ := Nat.exists_eq_add_of_le' (show 1 ≤ n by omega)
  exact hN m (by omega)

/-- From some bound on the result has the property. -/
theorem eventually (h : Settles x P) : ∃ N, ∀ n ≥ N, P (x n) := by
  obtain ⟨a, ha, hP⟩ := h
  obtain ⟨N, hN⟩ := eventually_atTop.mp ha
  exact ⟨N, fun n hn => hN n hn ▸ hP⟩

/-- A program that goes on with what another yields settles when both do. -/
theorem dialog_bind {p : Partner τ} {before : List τ} {m : Nat → Dialog τ ε α}
    {f : Nat → α → Dialog τ ε β} {P : Except ε α × List τ → Prop}
    {R : Except ε β × List τ → Prop} (hm : Settles (m · p before) P)
    (herror : ∀ e asked, P (.error e, asked) → R (.error e, asked))
    (hok : ∀ a asked, P (.ok a, asked) →
      Settles (f · a p (before ++ asked)) fun out => R (out.1, asked ++ out.2)) :
    Settles (fun n => (m n >>= f n) p before) R := by
  refine hm.bind (f := fun n (out : Except ε α × List τ) =>
      Dialog.andThen (fun _ _ => out) (f n) p before)
    fun out hout => ?_
  match out with
  | (.error e, asked) => exact const (herror e asked hout)
  | (.ok a, asked) => exact (hok a asked hout).map fun out hR => hR

section Worker

variable {σ Γ Τ γ ω ϱ : Type} {w : Nat → Worker σ Γ Τ γ τ ε ω ϱ} {p : Partner τ}

/-- Work on items settles when the work on the first does, and then that on the others. -/
theorem runItems_cons {i j : Nat} {c : γ} {s : σ} {t : Τ} {ts : List Τ} {before : List τ}
    {P : Except ε (ω × σ) × List τ → Prop}
    {R : Except ε (List ω × σ) × List (Place × τ) → Prop}
    (hwork : Settles (fun n => (w n).work s c t p before) P)
    (herror : ∀ e asked, P (.error e, asked) → R (.error e, asked.map ((i, j), ·)))
    (hok : ∀ a s' asked, P (.ok (a, s'), asked) →
      Settles (fun n => (w n).runItems p i c (j + 1) s' ts (before ++ asked)) fun rest =>
        R (rest.1.map fun out => (a :: out.1, out.2), asked.map ((i, j), ·) ++ rest.2)) :
    Settles (fun n => (w n).runItems p i c j s (t :: ts) before) R := by
  obtain ⟨out, hout, hP⟩ := hwork
  match out with
  | (.error e, asked) =>
    refine ⟨_, ?_, herror e asked hP⟩
    filter_upwards [hout] with n hn
    simp only [Worker.runItems, hn]
  | (.ok (a, s'), asked) =>
    obtain ⟨rest, hrest, hR⟩ := hok a s' asked hP
    refine ⟨_, ?_, hR⟩
    filter_upwards [hout, hrest] with n hn hrestn
    simp only [Worker.runItems, hn, hrestn]

/-- Work on batches settles when the work on the first does, and then that on the others. -/
theorem runBatches_cons {i : Nat} {s : σ} {b : Batch Γ Τ} {bs : List (Batch Γ Τ)}
    {before : List τ} {P : Except ε (ϱ × σ) × List (Place × τ) → Prop}
    {R : Except ε (List ϱ × σ) × List (Place × τ) → Prop}
    (hbatch : Settles (fun n => (w n).runBatch p i s b before) P)
    (herror : ∀ e asked, P (.error e, asked) → R (.error e, asked))
    (hok : ∀ r s' asked, P (.ok (r, s'), asked) →
      Settles (fun n => (w n).runBatches p (i + 1) s' bs (before ++ asked.map Prod.snd))
        fun rest => R (rest.1.map fun out => (r :: out.1, out.2), asked ++ rest.2)) :
    Settles (fun n => (w n).runBatches p i s (b :: bs) before) R := by
  obtain ⟨out, hout, hP⟩ := hbatch
  match out with
  | (.error e, asked) =>
    refine ⟨_, ?_, herror e asked hP⟩
    filter_upwards [hout] with n hn
    simp only [Worker.runBatches, hn]
  | (.ok (r, s'), asked) =>
    obtain ⟨rest, hrest, hR⟩ := hok r s' asked hP
    refine ⟨_, ?_, hR⟩
    filter_upwards [hout, hrest] with n hn hrestn
    simp only [Worker.runBatches, hn, hrestn]

end Worker

end Settles
