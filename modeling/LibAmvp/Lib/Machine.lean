import LibAmvp.Lib.Dialog

/-!
# Partners that keep a state

What a partner replies may depend on everything it was asked before.  In a setting, a state
stands for all of that: a program is started in a state of the partner and leaves it in another
one.  The rules follow the text of a program, question by question.

Main results:

- Theorem {lit}`Setting.Runs.bind`: a program that goes on with what another yields.
- Theorem {lit}`Setting.Runs.ok`: a program that cannot stop yields something.
-/

/-- A partner with a state that it keeps, the questions that may be put to it, and the errors
with which a program may stop. -/
structure Setting (τ ε ρ : Type) where
  partner : Partner τ
  state : List τ → ρ
  good : τ → Prop := fun _ => True
  stop : ε → Prop := fun _ => False

/-- What was asked stays asked when a program goes on. -/
theorem Dialog.mem_bind {τ ε α β : Type} {m : Dialog τ ε α} {f : α → Dialog τ ε β} {p : Partner τ}
    {before : List τ} {q : τ} (h : q ∈ (m p before).2) : q ∈ ((m >>= f) p before).2 := by
  rw [bind_apply, andThen]
  rcases hm : m p before with ⟨_ | a, asked⟩ <;> rw [hm] at h
  · exact h
  · exact List.mem_append_left _ h

namespace Setting

variable {τ ε ρ α β : Type} (S : Setting τ ε ρ)

/-- Started in a state of the partner, a program puts good questions only, and either stops as it
may, or what it yields and the state in which it leaves the partner are as they should be. -/
def Runs (r : ρ) (m : Dialog τ ε α) (post : α → ρ → Prop) : Prop :=
  ∀ before, S.state before = r → (∀ q ∈ (m S.partner before).2, S.good q) ∧
    match (m S.partner before).1 with
    | .ok a => post a (S.state (before ++ (m S.partner before).2))
    | .error e => S.stop e

variable {S} {r : ρ} {m : Dialog τ ε α} {post post' : α → ρ → Prop}

theorem runs_pure {a : α} (h : post a r) : S.Runs r (pure a) post := by
  rintro before rfl
  refine ⟨fun q hq => absurd hq List.not_mem_nil, ?_⟩
  simpa [Dialog.pure_apply] using h

theorem runs_fail {e : ε} (h : S.stop e) : S.Runs r (Dialog.fail e : Dialog τ ε α) post :=
  fun _ _ => ⟨fun _ hq => absurd hq List.not_mem_nil, h⟩

/-- Going on with what a program yields. -/
theorem Runs.bind {f : α → Dialog τ ε β} {post' : β → ρ → Prop} (hm : S.Runs r m post)
    (hf : ∀ a r', post a r' → S.Runs r' (f a) post') : S.Runs r (m >>= f) post' := by
  intro before hbefore
  obtain ⟨hgood, hpost⟩ := hm before hbefore
  rw [Dialog.bind_apply, Dialog.andThen]
  rcases hrun : m S.partner before with ⟨e | a, asked⟩
  · rw [hrun] at hgood hpost
    exact ⟨hgood, hpost⟩
  · rw [hrun] at hgood hpost
    obtain ⟨hgood', hpost'⟩ := hf a _ hpost (before ++ asked) rfl
    refine ⟨fun q hq => (List.mem_append.mp hq).elim (hgood q) (hgood' q), ?_⟩
    rwa [List.append_assoc] at hpost'

/-- A question is put when it is good, and the reply is taken as it comes. -/
theorem runs_ask_bind {q : τ} {f : Int × τ → Dialog τ ε α} (hgood : S.good q)
    (hf : ∀ before, S.state before = r →
      S.Runs (S.state (before ++ [q])) (f (S.partner before q)) post) :
    S.Runs r (Dialog.ask q >>= f) post := by
  have hask : S.Runs r (Dialog.ask q : Dialog τ ε (Int × τ)) fun reply r' =>
      ∃ before, S.state before = r ∧ reply = S.partner before q ∧ r' = S.state (before ++ [q]) := by
    intro before hbefore
    refine ⟨fun q' hq' => ?_, before, hbefore, rfl, rfl⟩
    rwa [List.mem_singleton.mp hq']
  refine hask.bind ?_
  rintro _ _ ⟨before, hbefore, rfl, rfl⟩
  exact hf before hbefore

/-- Going on with what a computation without questions yields. -/
theorem runs_ofExcept_bind {x : Except ε β} {f : β → Dialog τ ε α}
    (hok : ∀ b, x = .ok b → S.Runs r (f b) post) (herr : ∀ e, x = .error e → S.stop e) :
    S.Runs r (Dialog.ofExcept x >>= f) post := by
  intro before hbefore
  rw [Dialog.bind_apply]
  cases x with
  | error e => exact ⟨fun q hq => absurd hq List.not_mem_nil, herr e rfl⟩
  | ok b => simpa [Dialog.andThen, Dialog.ofExcept] using hok b rfl before hbefore

theorem Runs.mono (hm : S.Runs r m post) (h : ∀ a r', post a r' → post' a r') :
    S.Runs r m post' := by
  intro before hbefore
  obtain ⟨hgood, hpost⟩ := hm before hbefore
  refine ⟨hgood, ?_⟩
  rcases hrun : (m S.partner before).1 with e | a
  · rwa [hrun] at hpost
  · rw [hrun] at hpost
    exact h a _ hpost

theorem runs_ite {c : Prop} [Decidable c] {m' : Dialog τ ε α} (hm : c → S.Runs r m post)
    (hm' : ¬c → S.Runs r m' post) : S.Runs r (if c then m else m') post := by
  split
  · exact hm ‹_›
  · exact hm' ‹_›

/-- A program that cannot stop yields something. -/
theorem Runs.ok (hm : S.Runs r m post) (hstop : ∀ e, ¬S.stop e) {before : List τ}
    (hbefore : S.state before = r) :
    ∃ a asked, m S.partner before = (.ok a, asked) ∧ post a (S.state (before ++ asked)) := by
  obtain ⟨-, hpost⟩ := hm before hbefore
  rcases hrun : m S.partner before with ⟨e | a, asked⟩
  · rw [hrun] at hpost
    exact absurd hpost (hstop e)
  · rw [hrun] at hpost
    exact ⟨a, asked, rfl, hpost⟩

end Setting
