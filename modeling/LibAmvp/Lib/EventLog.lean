import Mathlib.Tactic

/-!
# Event logs and guarded events

General facts about append-only logs.  A log is *guarded* for a kind of action
when every action in it is preceded by a matching grant that no reset has
revoked.  The grant and the action carry a key, and a grant only covers actions
with its own key.

Main results:

- Theorem {lit}`Guarded.append`: a guarded log stays guarded when it is extended by
  events that contain no action.
- Theorem {lit}`Guarded.append_armed`: actions on an armed key may be appended.
-/

namespace EventLog

variable {ε κ : Type}

/-- The events appended between two snapshots of a log. -/
def since (old new : List ε) : List ε := new.drop old.length

@[simp]
theorem since_append (old new : List ε) : since old (old ++ new) = new := by
  simp [since]

@[simp]
theorem since_self (log : List ε) : since log log = [] := by
  simp [since]

section Guarded

variable (grant act : ε → Option κ) (reset : ε → Prop)

/-- A grant for the key is in the log, with no reset after it. -/
def Armed (key : κ) (log : List ε) : Prop :=
  ∃ earlier g later, log = earlier ++ g :: later ∧ grant g = some key ∧ ∀ e ∈ later, ¬ reset e

/-- Every action of the log comes after a grant for its key that is still armed. -/
def Guarded (log : List ε) : Prop :=
  ∀ earlier e later key, log = earlier ++ e :: later → act e = some key →
    Armed grant reset key earlier

variable {grant act reset}

theorem Armed.append {key : κ} {log evs : List ε} (h : Armed grant reset key log)
    (hquiet : ∀ e ∈ evs, ¬ reset e) : Armed grant reset key (log ++ evs) := by
  obtain ⟨earlier, g, later, rfl, hgrant, hlater⟩ := h
  refine ⟨earlier, g, later ++ evs, by simp, hgrant, ?_⟩
  intro e he
  rcases List.mem_append.mp he with he | he
  · exact hlater e he
  · exact hquiet e he

theorem Guarded.nil : Guarded grant act reset ([] : List ε) := by
  intro earlier e later key hlog
  simp at hlog

theorem Guarded.append_act {log : List ε} {e : ε} (h : Guarded grant act reset log)
    (harmed : ∀ key, act e = some key → Armed grant reset key log) :
    Guarded grant act reset (log ++ [e]) := by
  intro earlier e' later key hlog hact
  rcases List.eq_nil_or_concat later with rfl | ⟨later, x, rfl⟩
  · obtain ⟨rfl, he⟩ := List.append_inj' hlog rfl
    obtain rfl : e = e' := by simpa using he
    exact harmed key hact
  · have hlog' : log ++ [e] = (earlier ++ e' :: later) ++ [x] := by
      simpa using hlog
    obtain ⟨rfl, -⟩ := List.append_inj' hlog' rfl
    exact h earlier e' later key rfl hact

/-- An action of a guarded log has a grant. -/
theorem Guarded.exists_grant {log : List ε} {e : ε} {key : κ} (h : Guarded grant act reset log)
    (hmem : e ∈ log) (hact : act e = some key) : ∃ g ∈ log, grant g = some key := by
  obtain ⟨earlier, later, rfl⟩ := List.append_of_mem hmem
  obtain ⟨before, g, after, rfl, hgrant, -⟩ := h earlier e later key rfl hact
  exact ⟨g, by simp, hgrant⟩

/-- Events that contain no action leave a guarded log guarded. -/
theorem Guarded.append {log evs : List ε} (h : Guarded grant act reset log)
    (hquiet : ∀ e ∈ evs, act e = none) : Guarded grant act reset (log ++ evs) := by
  induction evs using List.reverseRecOn with
  | nil => simpa using h
  | append_singleton evs e ih =>
      rw [← List.append_assoc]
      refine (ih fun e he => hquiet e (by simp [he])).append_act fun key hact => ?_
      simp [hquiet e (by simp)] at hact

/-- Actions on an armed key may be appended, as long as nothing revokes the grant. -/
theorem Guarded.append_armed {log evs : List ε} (h : Guarded grant act reset log)
    (hquiet : ∀ e ∈ evs, ¬ reset e)
    (harmed : ∀ e ∈ evs, ∀ key, act e = some key → Armed grant reset key log) :
    Guarded grant act reset (log ++ evs) := by
  induction evs using List.reverseRecOn with
  | nil => simpa using h
  | append_singleton evs e ih =>
      rw [← List.append_assoc]
      have hrest := ih (fun e he => hquiet e (by simp [he])) fun e he => harmed e (by simp [he])
      refine hrest.append_act fun key hact => ?_
      exact (harmed e (by simp) key hact).append fun e he => hquiet e (by simp [he])

end Guarded

end EventLog
