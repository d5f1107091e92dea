import LibAmvp.Lib.Dialog

/-!
# Work that follows a reference

Two workers that read alike may treat some replies of their partner differently.  As long as
none of these replies comes, one does what the other does.

Main results:

- Theorem {lit}`Worker.run_eq_of_replies`: the same results and the same questions.
-/

section Replies

variable {τ : Type}

/-- A property of all questions and of what was asked before each of them. -/
def Replies (P : List τ → τ → Prop) (before asked : List τ) : Prop :=
  ∀ earlier q later, asked = earlier ++ q :: later → P (before ++ earlier) q

variable {P : List τ → τ → Prop} {before : List τ}

theorem replies_append {asked asked' : List τ} (h : Replies P before (asked ++ asked')) :
    Replies P before asked ∧ Replies P (before ++ asked) asked' := by
  constructor
  · rintro earlier q later rfl
    exact h earlier q (later ++ asked') (by simp)
  · rintro earlier q later rfl
    rw [List.append_assoc]
    exact h (asked ++ earlier) q later (by simp)

theorem replies_of_forall {asked : List τ} (h : ∀ q ∈ asked, ∀ earlier, P earlier q) :
    Replies P before asked := by
  rintro earlier q later rfl
  exact h q (by simp) _

theorem replies_singleton {q : τ} (h : Replies P before [q]) : P before q := by
  simpa using h [] q [] rfl

end Replies

namespace Worker

variable {σ Γ Τ γ τ ε ω ϱ : Type} {w w' : Worker σ Γ Τ γ τ ε ω ϱ} {p : Partner τ}
  {P : List τ → τ → Prop}

/-- The work on an item is the same as that of another worker whose questions have a property. -/
def Follows (w w' : Worker σ Γ Τ γ τ ε ω ϱ) (p : Partner τ) (P : List τ → τ → Prop) : Prop :=
  ∀ s c t before, Replies P before (w'.work s c t p before).2 →
    w.work s c t p before = w'.work s c t p before

theorem runItems_eq_of_replies (hwork : w.Follows w' p P) (i : Nat) (c : γ) :
    ∀ (ts : List Τ) (j : Nat) (s : σ) (before : List τ),
      Replies P before ((w'.runItems p i c j s ts before).2.map Prod.snd) →
      w.runItems p i c j s ts before = w'.runItems p i c j s ts before := by
  intro ts
  induction ts with
  | nil => exact fun j s before _ => rfl
  | cons t ts ih =>
    intro j s before hreplies
    have heq := hwork s c t before
    rcases hrun : w'.work s c t p before with ⟨_ | ⟨a, s'⟩, asked⟩ <;>
      simp only [runItems, hrun, List.map_append, List.map_map, Function.comp_def,
        List.map_id'] at hreplies heq ⊢
    · rw [heq hreplies]
    · obtain ⟨hfirst, hrest⟩ := replies_append hreplies
      rw [heq hfirst]
      simp only [ih (j + 1) s' (before ++ asked) hrest]

theorem runBatch_eq_of_replies (henter : w.enter = w'.enter) (hclose : w.close = w'.close)
    (hwork : w.Follows w' p P) (i : Nat) (s : σ) (b : Batch Γ Τ) (before : List τ)
    (hreplies : Replies P before ((w'.runBatch p i s b before).2.map Prod.snd)) :
    w.runBatch p i s b before = w'.runBatch p i s b before := by
  unfold runBatch at hreplies ⊢
  rw [henter, hclose]
  cases hs : w'.enter s b.head b.items.length with
  | error e => rfl
  | ok out =>
    rw [hs] at hreplies
    dsimp only at hreplies ⊢
    rw [runItems_eq_of_replies hwork i out.1 b.items 0 out.2 before hreplies]

theorem runBatches_eq_of_replies (henter : w.enter = w'.enter) (hclose : w.close = w'.close)
    (hwork : w.Follows w' p P) :
    ∀ (bs : List (Batch Γ Τ)) (i : Nat) (s : σ) (before : List τ),
      Replies P before ((w'.runBatches p i s bs before).2.map Prod.snd) →
      w.runBatches p i s bs before = w'.runBatches p i s bs before := by
  intro bs
  induction bs with
  | nil => exact fun i s before _ => rfl
  | cons b bs ih =>
    intro i s before hreplies
    have heq := runBatch_eq_of_replies henter hclose hwork i s b before
    rcases hrun : w'.runBatch p i s b before with ⟨_ | ⟨r, s'⟩, asked⟩ <;>
      simp only [runBatches, hrun, List.map_append] at hreplies heq ⊢
    · rw [heq hreplies]
    · obtain ⟨hfirst, hrest⟩ := replies_append hreplies
      rw [heq hfirst]
      simp only [ih (i + 1) s' (before ++ asked.map Prod.snd) hrest]

/-- The same results and the same questions, when the questions that the other worker asks have
the property. -/
theorem run_eq_of_replies (hstart : w.start = w'.start) (henter : w.enter = w'.enter)
    (hclose : w.close = w'.close) (hwork : w.Follows w' p P) {bs : List (Batch Γ Τ)}
    (hreplies : Replies P [] ((w'.asked p bs).map Prod.snd)) :
    w.result p bs = w'.result p bs ∧ w.asked p bs = w'.asked p bs := by
  have heq := runBatches_eq_of_replies henter hclose hwork bs 0 w'.start [] hreplies
  unfold result asked
  rw [hstart, heq]
  exact ⟨rfl, rfl⟩

end Worker
