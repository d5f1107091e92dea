import LibAmvp.Lib.Op

/-!
# Lists in the order of their keys

A list that is filled by finding the element of a key, or appending one, has its elements in the
order in which their keys came first.  When the element of every key is known as a function of
the key, an operation on one key changes that function at the key.

Main results:

- Theorem {lit}`Keyed.upsert_eraseDups`: one change of a list in the order of its keys.
- Theorem {lit}`List.foldl_part`: the part of a state that was set last.
- Theorem {lit}`Op.atFirst_keys`: one operation on the element of a key.
-/

namespace Keyed

variable {κ α : Type}

theorem map_eq_of_contents {β γ : Type} {content : α → γ} {g : κ → γ} {f : α → β} {f' : κ → β}
    {l : List α} {keys : List κ} (h : l.map content = keys.map g)
    (hf : ∀ x, ∀ k ∈ keys, content x = g k → f x = f' k) : l.map f = keys.map f' := by
  induction keys generalizing l with
  | nil =>
    rw [List.map_eq_nil_iff.mp h]
    rfl
  | cons k keys ih =>
    obtain ⟨x, l, rfl, hx, hrest⟩ := List.map_eq_cons_iff.mp h
    rw [List.map_cons, List.map_cons, hf x k List.mem_cons_self hx,
      ih hrest fun y j hj => hf y j (List.mem_cons_of_mem _ hj)]

variable [DecidableEq κ]

/-- A new key comes last. -/
theorem eraseDups_append_singleton (keys : List κ) (k : κ) :
    (keys ++ [k]).eraseDups = if k ∈ keys then keys.eraseDups else keys.eraseDups ++ [k] := by
  rw [List.eraseDups_append]
  by_cases hk : k ∈ keys
  · rw [if_pos hk]
    simp [List.removeAll, hk]
  · rw [if_neg hk]
    simp [List.removeAll, hk, List.eraseDups_cons]

theorem nodup_eraseDups (keys : List κ) : keys.eraseDups.Nodup := by
  induction keys using List.reverseRecOn with
  | nil => exact List.nodup_nil
  | append_singleton keys k ih =>
    rw [eraseDups_append_singleton]
    by_cases hk : k ∈ keys
    · rwa [if_pos hk]
    · rw [if_neg hk]
      refine ih.append (List.nodup_singleton k) fun j hj hj' => hk ?_
      rw [← List.mem_singleton.mp hj']
      exact List.mem_eraseDups.mp hj

variable {p : α → Bool} {fresh : α} {f : α → α}

theorem upsert_map {keys : List κ} {build build' : κ → α} {k : κ} (hnodup : keys.Nodup)
    (hp : ∀ j, p (build j) = true ↔ j = k) (hnew : k ∉ keys → build k = fresh)
    (hk : build' k = f (build k)) (hother : ∀ j, j ≠ k → build' j = build j) :
    upsert p fresh f (keys.map build) =
      (if k ∈ keys then keys else keys ++ [k]).map build' := by
  induction keys with
  | nil => simp [upsert, hk, hnew List.not_mem_nil]
  | cons j keys ih =>
    obtain ⟨hj, hnodup⟩ := List.nodup_cons.mp hnodup
    rw [List.map_cons, upsert]
    by_cases hjk : j = k
    · subst hjk
      rw [if_pos ((hp j).mpr rfl), if_pos List.mem_cons_self, List.map_cons, hk]
      refine congrArg _ (List.map_congr_left fun i hi => ?_)
      exact (hother i fun h => hj (h ▸ hi)).symm
    · rw [if_neg fun h => hjk ((hp j).mp h), ih hnodup fun h => hnew fun hmem =>
        (List.mem_cons.mp hmem).elim (fun h => hjk h.symm) h]
      by_cases hmem : k ∈ keys
      · rw [if_pos hmem, if_pos (List.mem_cons_of_mem _ hmem), List.map_cons, hother j hjk]
      · have hmem' : k ∉ j :: keys := fun h =>
          (List.mem_cons.mp h).elim (fun h => hjk h.symm) hmem
        rw [if_neg hmem, if_neg hmem', List.cons_append, List.map_cons, hother j hjk]

/-- A change of the element of a key, in the order in which the keys came first. -/
theorem upsert_eraseDups {keys : List κ} {build build' : κ → α} {k : κ}
    (hp : ∀ j, p (build j) = true ↔ j = k) (hnew : k ∉ keys → build k = fresh)
    (hk : build' k = f (build k)) (hother : ∀ j, j ≠ k → build' j = build j) :
    upsert p fresh f (keys.eraseDups.map build) = (keys ++ [k]).eraseDups.map build' := by
  rw [upsert_map (nodup_eraseDups keys) hp (fun h => hnew fun hmem =>
    h (List.mem_eraseDups.mpr hmem)) hk hother, eraseDups_append_singleton]
  simp only [List.mem_eraseDups]

/-- Two changes of the element of a key in turn are one. -/
theorem upsert_upsert {g : α → α} (hfresh : p fresh = true) (hf : ∀ x, p (f x) = p x)
    (l : List α) : upsert p fresh g (upsert p fresh f l) = upsert p fresh (g ∘ f) l := by
  induction l with
  | nil => simp [upsert, hfresh, hf]
  | cons x l ih =>
    by_cases hx : p x
    · simp [upsert, hx, hf]
    · simp [upsert, hx, ih]

end Keyed

namespace List

variable {α β κ : Type}

theorem filterMap_append_none {f : α → Option β} {a : α} (h : f a = none) (l : List α) :
    (l ++ [a]).filterMap f = l.filterMap f := by
  rw [filterMap_append, filterMap_cons_none h, filterMap_nil, append_nil]

theorem filterMap_append_some {f : α → Option β} {a : α} {b : β} (h : f a = some b)
    (l : List α) : (l ++ [a]).filterMap f = l.filterMap f ++ [b] := by
  rw [filterMap_append, filterMap_cons_some h, filterMap_nil]

/-- A part of a state that every element of a list sets or leaves alone is what was set last. -/
theorem foldl_part {γ : Type} {f : β → κ → β} (part : β → γ) {set? : κ → Option γ} {l : List κ}
    (h : ∀ c ∈ l, ∀ b, part (f b c) = (set? c).getD (part b)) (b : β) :
    part (l.foldl f b) = (l.filterMap set?).getLast?.getD (part b) := by
  induction l using List.reverseRecOn with
  | nil => rfl
  | append_singleton l c ih =>
    rw [foldl_append, foldl_cons, foldl_nil, h c (mem_append_right l mem_cons_self),
      ih fun d hd => h d (mem_append_left [c] hd)]
    cases hc : set? c with
    | none => rw [filterMap_append_none hc, Option.getD_none]
    | some v => rw [filterMap_append_some hc, getLast?_concat, Option.getD_some, Option.getD_some]

end List

namespace Op

variable {κ τ ρ σ γ : Type} [DecidableEq κ]

/-- An operation on the element of a key. -/
theorem atFirst_keys {content : σ → γ} {build : κ → γ} {k : κ} {p : σ → Bool} {missing r : ρ}
    {op : Op τ ρ σ} (hp : ∀ x j, content x = build j → (p x = true ↔ j = k)) (hr : r ≠ missing)
    {keys : List κ} (hnodup : keys.Nodup) {nodes nodes' : List σ}
    (hnodes : nodes.map content = keys.map build)
    (h : atFirst p missing op nodes = .ok (r, nodes')) :
    k ∈ keys ∧ ∃ x x', content x = build k ∧ op x = .ok (r, x') ∧
      nodes'.map content = keys.map (Function.update build k (content x')) := by
  induction keys generalizing nodes nodes' with
  | nil =>
    rw [List.map_eq_nil_iff.mp hnodes] at h
    cases h
    exact absurd rfl hr
  | cons j keys ih =>
    obtain ⟨x, nodes, rfl, hx, hrest⟩ := List.map_eq_cons_iff.mp hnodes
    obtain ⟨hj, hnodup⟩ := List.nodup_cons.mp hnodup
    rw [atFirst] at h
    by_cases hjk : j = k
    · subst hjk
      rw [if_pos ((hp x j hx).mpr rfl)] at h
      cases hop : op x with
      | error t =>
        rw [hop] at h
        cases h
      | ok out =>
        obtain ⟨r', x'⟩ := out
        rw [hop] at h
        cases h
        refine ⟨List.mem_cons_self, x, x', hx, hop, ?_⟩
        rw [List.map_cons, List.map_cons, Function.update_self, hrest]
        refine congrArg _ (List.map_congr_left fun i hi => ?_)
        exact (Function.update_of_ne (fun heq => hj (by rwa [← heq])) _ _).symm
    · rw [if_neg fun heq => hjk ((hp x j hx).mp heq)] at h
      cases hout : atFirst p missing op nodes with
      | error t =>
        rw [hout] at h
        cases h
      | ok out =>
        obtain ⟨r', out⟩ := out
        rw [hout] at h
        cases h
        obtain ⟨hk, y, y', hy, hop, hmap⟩ := ih hnodup hrest hout
        refine ⟨List.mem_cons_of_mem _ hk, y, y', hy, hop, ?_⟩
        rw [List.map_cons, List.map_cons, Function.update_of_ne hjk, hx, hmap]

/-- What an operation on an element leaves alone, stays in the list. -/
theorem atFirst_map_eq {β : Type} {f : σ → β} {p : σ → Bool} {missing r : ρ} {op : Op τ ρ σ}
    (hop : ∀ x x', op x = .ok (r, x') → f x' = f x) {nodes nodes' : List σ}
    (h : atFirst p missing op nodes = .ok (r, nodes')) : nodes'.map f = nodes.map f := by
  induction nodes generalizing nodes' with
  | nil =>
    cases h
    rfl
  | cons x nodes ih =>
    rw [atFirst] at h
    split at h
    · cases hout : op x with
      | error t =>
        rw [hout] at h
        cases h
      | ok out =>
        obtain ⟨r', x'⟩ := out
        rw [hout] at h
        cases h
        rw [List.map_cons, List.map_cons, hop x x' hout]
    · cases hout : atFirst p missing op nodes with
      | error t =>
        rw [hout] at h
        cases h
      | ok out =>
        obtain ⟨r', out⟩ := out
        rw [hout] at h
        cases h
        rw [List.map_cons, List.map_cons, ih hout]

end Op
