import Mathlib.Tactic

/-!
# State programs, frames and measured loops

A deterministic state program returns a value and the next state.  Two rules
carry most arguments about a client that talks to an adversarial environment:

- a *frame* is a reflexive and transitive relation between the states before
  and after a program; a program keeps a frame when every one of its steps
  does, so frame facts compose along the text of a program;
- a *measured loop* repeats a body until it yields a value, with a measure on
  the loop variables that every repetition decreases.

Main results:

- Theorem {lit}`Frame.Keeps.bind` and its companions: frame facts follow the
  structure of a program.
- Theorem {lit}`loop_eq`: a measured loop unfolds to its body.
- Theorem {lit}`Frame.Keeps.loop`: a loop keeps the frames of its body.
- Theorem {lit}`Triple.bind` and its companions: rules for pre- and postconditions.
-/

/-- A deterministic program over the state {lit}`σ`. -/
def Prog (σ α : Type) : Type := σ → α × σ

namespace Prog

variable {σ α β τ : Type}

instance : Monad (Prog σ) where
  pure a := fun s => (a, s)
  bind m f := fun s => f (m s).1 (m s).2

/-- Read the state. -/
def read : Prog σ σ := fun s => (s, s)

/-- Apply a function to the state. -/
def update (f : σ → σ) : Prog σ Unit := fun s => ((), f s)

/-- A result leaves the state as it is. -/
@[simp]
theorem pure_apply (a : α) (s : σ) : (pure a : Prog σ α) s = (a, s) :=
  rfl

/-- The second program runs at the state that the first leaves. -/
theorem bind_apply (m : Prog σ α) (f : α → Prog σ β) (s : σ) :
    (m >>= f) s = f (m s).1 (m s).2 :=
  rfl

/-- The same when the first outcome is known. -/
theorem bind_of_eq {m : Prog σ α} {s s' : σ} {a : α} (h : m s = (a, s')) (f : α → Prog σ β) :
    (m >>= f) s = f a s' := by
  rw [bind_apply, h]

/-- A result is handed on. -/
@[simp]
theorem pure_bind_apply (a : α) (f : α → Prog σ β) (s : σ) :
    ((pure a : Prog σ α) >>= f) s = f a s :=
  rfl

/-- Reading yields the state. -/
@[simp]
theorem read_apply (s : σ) : (read : Prog σ σ) s = (s, s) :=
  rfl

/-- The state is handed on. -/
@[simp]
theorem read_bind_apply (f : σ → Prog σ β) (s : σ) : (read >>= f) s = f s s :=
  rfl

/-- An update changes the state by its function. -/
@[simp]
theorem update_apply (f : σ → σ) (s : σ) : update f s = ((), f s) :=
  rfl

/-- What follows an update sees the changed state. -/
@[simp]
theorem update_bind_apply (f : σ → σ) (g : Unit → Prog σ β) (s : σ) :
    (update f >>= g) s = g () (f s) :=
  rfl

/-- A test between two programs, applied to a state. -/
@[simp]
theorem ite_apply (c : Prop) [Decidable c] (m n : Prog σ α) (s : σ) :
    (if c then m else n) s = if c then m s else n s := by
  split <;> rfl

/-- Run a program on a part of the state. -/
def zoom (get : σ → τ) (set : σ → τ → σ) (m : Prog τ α) : Prog σ α := fun s =>
  ((m (get s)).1, set s (m (get s)).2)

/-! ## Programs that always answer -/

/-- The program without the option around its value, when it always has one. -/
def total (m : Prog σ (Option α)) (hsome : ∀ s, (m s).1.isSome) : Prog σ α := fun s =>
  ((m s).1.get (hsome s), (m s).2)

/-- A program that always has a result yields it. -/
theorem total_apply {m : Prog σ (Option α)} {hsome : ∀ s, (m s).1.isSome} {s s' : σ} {a : α}
    (h : m s = (some a, s')) : total m hsome s = (a, s') := by
  simp [total, h]

/-- And it does to the state what the program does. -/
theorem eq_total (m : Prog σ (Option α)) (hsome : ∀ s, (m s).1.isSome) (s : σ) :
    m s = (some (total m hsome s).1, (total m hsome s).2) := by
  simp [total]

/-! ## Measured loops -/

/-- Repeat the body at most {lit}`fuel` times, until it yields a value. -/
def loopFuel (body : τ → Prog σ (τ ⊕ α)) : Nat → τ → Prog σ (Option α)
  | 0, _ => pure none
  | fuel + 1, t => do
    match ← body t with
    | .inl t' => loopFuel body fuel t'
    | .inr a => pure (some a)

/-- Every repetition of the body decreases the measure of the loop variables. -/
def Decreases (μ : τ → Nat) (body : τ → Prog σ (τ ⊕ α)) : Prop :=
  ∀ t s t', (body t s).1 = .inl t' → μ t' < μ t

/-- With more fuel than the measure the loop ends. -/
theorem loopFuel_isSome {μ : τ → Nat} {body : τ → Prog σ (τ ⊕ α)}
    (hdec : Decreases μ body) (fuel : Nat) (t : τ) (s : σ) (hfuel : μ t < fuel) :
    (loopFuel body fuel t s).1.isSome := by
  induction fuel generalizing t s with
  | zero => omega
  | succ fuel ih =>
      simp only [loopFuel, bind_apply]
      cases hbody : (body t s).1 with
      | inl t' =>
          have hlt := hdec t s t' hbody
          exact ih t' _ (by omega)
      | inr a => simp

/-- Repeat the body until it yields a value. -/
def loop (μ : τ → Nat) (body : τ → Prog σ (τ ⊕ α)) (hdec : Decreases μ body) (t : τ) :
    Prog σ α := fun s =>
  ((loopFuel body (μ t + 1) t s).1.get (loopFuel_isSome hdec _ t s (Nat.lt_succ_self _)),
    (loopFuel body (μ t + 1) t s).2)

/-- Beyond the measure the amount of fuel does not matter. -/
theorem loopFuel_stable {μ : τ → Nat} {body : τ → Prog σ (τ ⊕ α)}
    (hdec : Decreases μ body) (fuel fuel' : Nat) (t : τ) (s : σ)
    (hfuel : μ t < fuel) (hfuel' : μ t < fuel') :
    loopFuel body fuel t s = loopFuel body fuel' t s := by
  induction fuel generalizing fuel' t s with
  | zero => omega
  | succ fuel ih =>
      obtain ⟨fuel', rfl⟩ : ∃ k, fuel' = k + 1 := ⟨fuel' - 1, by omega⟩
      simp only [loopFuel, bind_apply]
      cases hbody : (body t s).1 with
      | inl t' =>
          have hlt := hdec t s t' hbody
          exact ih fuel' t' _ (by omega) (by omega)
      | inr a => rfl

/-- A measured loop unfolds to its body. -/
theorem loop_eq {μ : τ → Nat} {body : τ → Prog σ (τ ⊕ α)} (hdec : Decreases μ body)
    (t : τ) (s : σ) :
    loop μ body hdec t s =
      match (body t s).1 with
      | .inl t' => loop μ body hdec t' (body t s).2
      | .inr a => (a, (body t s).2) := by
  cases hbody : (body t s).1 with
  | inl t' =>
      have hlt := hdec t s t' hbody
      have hunfold : loopFuel body (μ t + 1) t s =
          loopFuel body (μ t' + 1) t' (body t s).2 := by
        rw [loopFuel]
        simp only [bind_apply, hbody]
        exact loopFuel_stable hdec _ _ t' _ (by omega) (by omega)
      simp [loop, hunfold]
  | inr a =>
      have hunfold : loopFuel body (μ t + 1) t s = (some a, (body t s).2) := by
        simp [loopFuel, bind_apply, hbody]
      simp [loop, hunfold]

/-- Induction on the repetitions of a measured loop. -/
theorem loop_induction {μ : τ → Nat} {body : τ → Prog σ (τ ⊕ α)} (hdec : Decreases μ body)
    {motive : τ → σ → α × σ → Prop}
    (hdone : ∀ t s a, (body t s).1 = .inr a → motive t s (a, (body t s).2))
    (hnext : ∀ t s t' r, (body t s).1 = .inl t' → motive t' (body t s).2 r → motive t s r)
    (t : τ) (s : σ) : motive t s (loop μ body hdec t s) := by
  induction hk : μ t using Nat.strong_induction_on generalizing t s with
  | _ k ih =>
      subst hk
      rw [loop_eq]
      cases hbody : (body t s).1 with
      | inl t' => exact hnext t s t' _ hbody (ih (μ t') (hdec t s t' hbody) t' _ rfl)
      | inr a => exact hdone t s a hbody

/-- A loop whose body carries more and yields more is the loop of the body without it. -/
theorem loop_map {τ' β : Type} {μ : τ → Nat} {μ' : τ' → Nat} {body : τ → Prog σ (τ ⊕ α)}
    {body' : τ' → Prog σ (τ' ⊕ β)} (hdec : Decreases μ body) (hdec' : Decreases μ' body')
    {f : τ' → τ} {g : β → α}
    (hbody : ∀ t s, body (f t) s = (Sum.map f g (body' t s).1, (body' t s).2)) (t : τ') (s : σ) :
    loop μ body hdec (f t) s = (g (loop μ' body' hdec' t s).1, (loop μ' body' hdec' t s).2) := by
  refine loop_induction hdec'
    (motive := fun t s r => loop μ body hdec (f t) s = (g r.1, r.2)) ?_ ?_ t s
  · intro t s a ha
    rw [loop_eq, hbody, ha]
    rfl
  · intro t s t' r ht' hrest
    rw [loop_eq, hbody, ht']
    exact hrest

/-- A loop runs its body this many times, and ends with this value and state. -/
inductive Rounds (body : τ → Prog σ (τ ⊕ α)) : τ → σ → Nat → α × σ → Prop
  | last {t : τ} {s : σ} {a : α} (hbody : (body t s).1 = .inr a) :
      Rounds body t s 1 (a, (body t s).2)
  | next {t t' : τ} {s : σ} {k : Nat} {r : α × σ} (hbody : (body t s).1 = .inl t')
      (hrest : Rounds body t' (body t s).2 k r) : Rounds body t s (k + 1) r

/-- Any measure that the body decreases bounds the rounds of a measured loop. -/
theorem exists_rounds_le {μ ν : τ → Nat} {body : τ → Prog σ (τ ⊕ α)} (hdec : Decreases μ body)
    (hν : Decreases ν body) (t : τ) (s : σ) :
    ∃ k ≤ ν t + 1, Rounds body t s k (loop μ body hdec t s) := by
  refine loop_induction hdec (motive := fun t s r => ∃ k ≤ ν t + 1, Rounds body t s k r) ?_ ?_ t s
  · intro t s a hbody
    exact ⟨1, by omega, .last hbody⟩
  · intro t s t' r hbody hrest
    obtain ⟨k, hk, hrounds⟩ := hrest
    have hlt := hν t s t' hbody
    exact ⟨k + 1, by omega, .next hbody hrounds⟩

/-- A loop whose rounds start at these loop variables and states, in order, and that ends
with this value and state. -/
inductive Trace (body : τ → Prog σ (τ ⊕ α)) : τ → σ → List (τ × σ) → α × σ → Prop
  | last {t : τ} {s : σ} {a : α} (hbody : (body t s).1 = .inr a) :
      Trace body t s [(t, s)] (a, (body t s).2)
  | next {t t' : τ} {s : σ} {starts : List (τ × σ)} {r : α × σ} (hbody : (body t s).1 = .inl t')
      (hrest : Trace body t' (body t s).2 starts r) : Trace body t s ((t, s) :: starts) r

/-- Every measured loop has a trace. -/
theorem exists_trace {μ : τ → Nat} {body : τ → Prog σ (τ ⊕ α)} (hdec : Decreases μ body)
    (t : τ) (s : σ) : ∃ starts, Trace body t s starts (loop μ body hdec t s) := by
  refine loop_induction hdec (motive := fun t s r => ∃ starts, Trace body t s starts r) ?_ ?_ t s
  · intro t s a hbody
    exact ⟨[(t, s)], .last hbody⟩
  · intro t s t' r hbody hrest
    obtain ⟨starts, htrace⟩ := hrest
    exact ⟨(t, s) :: starts, .next hbody htrace⟩

/-- A trace has a last round, which leaves the value and the state of the loop. -/
theorem Trace.exists_last {body : τ → Prog σ (τ ⊕ α)} {t : τ} {s : σ} {starts : List (τ × σ)}
    {r : α × σ} (h : Trace body t s starts r) :
    ∃ earlier u v, starts = earlier ++ [(u, v)] ∧ body u v = (.inr r.1, r.2) := by
  induction h with
  | @last t s a hbody => exact ⟨[], t, s, rfl, Prod.ext hbody rfl⟩
  | @next t t' s starts r hbody hrest ih =>
      obtain ⟨earlier, u, v, hstarts, hround⟩ := ih
      exact ⟨(t, s) :: earlier, u, v, by rw [hstarts]; rfl, hround⟩

end Prog

/-! ## Frames -/

/-- A reflexive and transitive relation between earlier and later states. -/
structure Frame (σ : Type) where
  rel : σ → σ → Prop
  refl : ∀ s, rel s s
  trans : ∀ {a b c}, rel a b → rel b c → rel a c

namespace Frame

variable {σ α β τ : Type} (F : Frame σ)

/-- The frame whose states agree on an observation. -/
def same {γ : Type} (f : σ → γ) : Frame σ where
  rel a b := f b = f a
  refl _ := rfl
  trans hab hbc := hbc.trans hab

/-- Every run of the program is inside the frame. -/
def Keeps (m : Prog σ α) : Prop := ∀ s, F.rel s (m s).2

variable {F}

/-- A result keeps every frame. -/
theorem Keeps.pure (a : α) : F.Keeps (Pure.pure a : Prog σ α) :=
  fun s => F.refl s

/-- So does reading. -/
theorem Keeps.read : F.Keeps (Prog.read : Prog σ σ) :=
  fun s => F.refl s

/-- A sequence keeps what its parts keep. -/
theorem Keeps.bind {m : Prog σ α} {f : α → Prog σ β} (hm : F.Keeps m)
    (hf : ∀ a, F.Keeps (f a)) : F.Keeps (m >>= f) :=
  fun s => F.trans (hm s) (hf (m s).1 (m s).2)

/-- A test keeps what both branches keep. -/
theorem Keeps.ite {c : Prop} [Decidable c] {m n : Prog σ α} (hm : F.Keeps m)
    (hn : F.Keeps n) : F.Keeps (if c then m else n) := by
  split
  · exact hm
  · exact hn

/-- A loop keeps the frames of its body. -/
theorem Keeps.loop {μ : τ → Nat} {body : τ → Prog σ (τ ⊕ α)} (hdec : Prog.Decreases μ body)
    (hbody : ∀ t, F.Keeps (body t)) (t : τ) : F.Keeps (Prog.loop μ body hdec t) := by
  intro s
  refine Prog.loop_induction hdec (motive := fun _ s r => F.rel s r.2) ?_ ?_ t s
  · intro t s a _
    exact hbody t s
  · intro t s t' r _ hrest
    exact F.trans (hbody t s) hrest

end Frame

/-! ## Pre- and postconditions -/

/-- From a state with the precondition the program ends in one with the postcondition. -/
def Triple {σ α : Type} (P : σ → Prop) (m : Prog σ α) (Q : σ → Prop) : Prop :=
  ∀ s, P s → Q (m s).2

namespace Triple

variable {σ α β : Type} {P Q R : σ → Prop}

/-- A result, when the precondition gives the postcondition. -/
theorem pure (h : ∀ s, P s → Q s) (a : α) : Triple P (Pure.pure a : Prog σ α) Q :=
  h

/-- A sequence, through what holds between its parts. -/
theorem bind {m : Prog σ α} {f : α → Prog σ β} (hm : Triple P m R)
    (hf : ∀ a, Triple R (f a) Q) : Triple P (m >>= f) Q :=
  fun s hs => hf (m s).1 (m s).2 (hm s hs)

/-- A test, each branch under its condition. -/
theorem ite {c : Prop} [Decidable c] {m n : Prog σ α} (hm : c → Triple P m Q)
    (hn : ¬ c → Triple P n Q) : Triple P (if c then m else n) Q := by
  split
  · next hc => exact hm hc
  · next hc => exact hn hc

/-- A weaker postcondition. -/
theorem weaken {m : Prog σ α} (hm : Triple P m R) (h : ∀ s, R s → Q s) : Triple P m Q :=
  fun s hs => h _ (hm s hs)

/-- A program inside a frame keeps every assertion that the frame keeps. -/
theorem of_keeps {F : Frame σ} {m : Prog σ α} (hm : F.Keeps m)
    (h : ∀ a b, F.rel a b → P a → P b) : Triple P m P :=
  fun s hs => h _ _ (hm s) hs

end Triple
