import Mathlib.Tactic

/-!
# Grouped work and questions to a partner

A worker goes through batches of items in order and carries variables from item to item.
For an item it may put questions to a partner, whose replies may depend on everything it
was asked before.  The first error ends the work.

Most workers are *loaders*: for every item they draft one question, send it, and make an
answer of the reply.  What a loader carries does not depend on the partner, so that every
question it asks can be traced back to the items that were loaded before.

Main results:

- Theorem {lit}`Worker.result_ok`: what is answered comes from the items, in order.
- Theorem {lit}`Loader.asks_of_mem_asked`: every question was drafted from variables that
  the earlier items have left.
- Theorem {lit}`Loader.asked_single`: what a loader asks about one item alone.
- Theorem {lit}`Loader.carry_induction`: a relation between batches and variables that
  every batch keeps holds after any number of batches.
- Theorem {lit}`Loader.result_served`: when every item is loaded and every question served,
  the work succeeds and the partner is asked about every item.
-/

/-- A partner answers a question with a code and with the question as it left it. -/
abbrev Partner (τ : Type) := List τ → τ → Int × τ

/-- A program that may put questions to a partner: what it yields and what it asked.  The
list it is given holds what was asked before. -/
def Dialog (τ ε α : Type) : Type := Partner τ → List τ → Except ε α × List τ

namespace Dialog

variable {τ ε α β : Type}

/-- Yield what a computation without questions yields. -/
def ofExcept (x : Except ε α) : Dialog τ ε α := fun _ _ => (x, [])

/-- Stop with an error. -/
def fail (e : ε) : Dialog τ ε α := ofExcept (.error e)

/-- Put one question to the partner. -/
def ask (q : τ) : Dialog τ ε (Int × τ) := fun p before => (.ok (p before q), [q])

/-- Go on with what a program yields. -/
def andThen (m : Dialog τ ε α) (f : α → Dialog τ ε β) : Dialog τ ε β := fun p before =>
  match m p before with
  | (.error e, asked) => (.error e, asked)
  | (.ok a, asked) =>
    let rest := f a p (before ++ asked)
    (rest.1, asked ++ rest.2)

instance : Monad (Dialog τ ε) where
  pure a := ofExcept (.ok a)
  bind := andThen

/-- A sequence of dialogs asks the questions of both. -/
theorem bind_apply (m : Dialog τ ε α) (f : α → Dialog τ ε β) (p : Partner τ)
    (before : List τ) : (m >>= f) p before = andThen m f p before :=
  rfl

/-- A program that goes on with what another yields has yielded something, so has the other. -/
theorem bind_ok {m : Dialog τ ε α} {f : α → Dialog τ ε β} {p : Partner τ}
    {before asked : List τ} {b : β} (h : (m >>= f) p before = (.ok b, asked)) :
    ∃ a asked₁ asked₂, m p before = (.ok a, asked₁) ∧
      f a p (before ++ asked₁) = (.ok b, asked₂) ∧ asked = asked₁ ++ asked₂ := by
  rw [bind_apply] at h
  unfold andThen at h
  rcases hm : m p before with ⟨_ | a, asked₁⟩
  · simp [hm] at h
  · simp only [hm, Prod.mk.injEq] at h
    exact ⟨a, asked₁, (f a p (before ++ asked₁)).2, rfl, Prod.ext h.1 rfl, h.2.symm⟩

/-- A result asks nothing. -/
theorem pure_apply (a : α) (p : Partner τ) (before : List τ) :
    (pure a : Dialog τ ε α) p before = (.ok a, []) :=
  rfl

/-- A test between two dialogs, with a module. -/
theorem ite_apply (c : Prop) [Decidable c] (m m' : Dialog τ ε α) (p : Partner τ)
    (before : List τ) :
    (if c then m else m') p before = if c then m p before else m' p before := by
  split <;> rfl

end Dialog

/-- A partner without a memory. -/
def Partner.memoryless {τ : Type} (f : τ → Int × τ) : Partner τ := fun _ q => f q

/-- A batch of items under a common head. -/
structure Batch (Γ Τ : Type) where
  head : Γ
  items : List Τ

/-- What a question was asked about: the numbers of the batch and of the item. -/
abbrev Place := Nat × Nat

/-- Work on batches of items.  The head of a batch is read together with the number of its
items. -/
structure Worker (σ Γ Τ γ τ ε ω ϱ : Type) where
  start : σ
  enter : σ → Γ → Nat → Except ε (γ × σ)
  work : σ → γ → Τ → Dialog τ ε (ω × σ)
  close : γ → List ω → ϱ

namespace Worker

variable {σ Γ Τ γ τ ε ω ϱ : Type} (w : Worker σ Γ Τ γ τ ε ω ϱ) (p : Partner τ)

/-- Work on the items of the batch with number {lit}`i`, from number {lit}`j` on. -/
def runItems (i : Nat) (c : γ) :
    Nat → σ → List Τ → List τ → Except ε (List ω × σ) × List (Place × τ)
  | _, s, [], _ => (.ok ([], s), [])
  | j, s, t :: ts, before =>
    match w.work s c t p before with
    | (.error e, asked) => (.error e, asked.map ((i, j), ·))
    | (.ok (a, s'), asked) =>
      let rest := runItems i c (j + 1) s' ts (before ++ asked)
      (rest.1.map fun out => (a :: out.1, out.2), asked.map ((i, j), ·) ++ rest.2)

attribute [grind =] runItems

/-- Work on one batch. -/
def runBatch (i : Nat) (s : σ) (b : Batch Γ Τ) (before : List τ) :
    Except ε (ϱ × σ) × List (Place × τ) :=
  match w.enter s b.head b.items.length with
  | .error e => (.error e, [])
  | .ok (c, s') =>
    let out := w.runItems p i c 0 s' b.items before
    (out.1.map fun r => (w.close c r.1, r.2), out.2)

/-- Work on batches, the first of which has number {lit}`i`. -/
def runBatches : Nat → σ → List (Batch Γ Τ) → List τ →
    Except ε (List ϱ × σ) × List (Place × τ)
  | _, s, [], _ => (.ok ([], s), [])
  | i, s, b :: bs, before =>
    match w.runBatch p i s b before with
    | (.error e, asked) => (.error e, asked)
    | (.ok (r, s'), asked) =>
      let rest := runBatches (i + 1) s' bs (before ++ asked.map Prod.snd)
      (rest.1.map fun out => (r :: out.1, out.2), asked ++ rest.2)

attribute [grind =] runBatches

/-- What becomes of the batches. -/
def result (bs : List (Batch Γ Τ)) : Except ε (List ϱ) :=
  (w.runBatches p 0 w.start bs []).1.map Prod.fst

/-- What the partner is asked, with the places the questions are about. -/
def asked (bs : List (Batch Γ Τ)) : List (Place × τ) :=
  (w.runBatches p 0 w.start bs []).2

attribute [grind =] asked

/-! ## Results -/

/-- An answer about an item comes from work on that item. -/
def Answers (c : γ) (t : Τ) (a : ω) : Prop :=
  ∃ s before s' asked, w.work s c t p before = (.ok (a, s'), asked)

/-- A batch is closed with one answer for each of its items. -/
def Closes (b : Batch Γ Τ) (r : ϱ) : Prop :=
  ∃ s c s' as, w.enter s b.head b.items.length = .ok (c, s') ∧
    List.Forall₂ (w.Answers p c) b.items as ∧ r = w.close c as

variable {w p}

/-- A batch that succeeds has answered every item. -/
theorem runItems_ok {i j : Nat} {c : γ} {s s' : σ} {ts : List Τ} {before : List τ}
    {as : List ω} (h : (w.runItems p i c j s ts before).1 = .ok (as, s')) :
    List.Forall₂ (w.Answers p c) ts as := by
  induction ts generalizing j s before as with
  | nil =>
      cases h
      exact .nil
  | cons t ts ih =>
      simp only [runItems] at h
      rcases hwork : w.work s c t p before with ⟨_ | ⟨a, s₁⟩, asked⟩
      · simp [hwork] at h
      · simp only [hwork] at h
        rcases hrest : (w.runItems p i c (j + 1) s₁ ts (before ++ asked)).1 with _ | ⟨as', s₂⟩
        · simp [hrest, Except.map] at h
        · simp only [hrest, Except.map, Except.ok.injEq, Prod.mk.injEq] at h
          obtain ⟨rfl, rfl⟩ := h
          exact .cons ⟨s, before, s₁, asked, hwork⟩ (ih hrest)

/-- A run that succeeds has closed every batch. -/
theorem runBatches_ok {i : Nat} {s s' : σ} {bs : List (Batch Γ Τ)} {before : List τ}
    {rs : List ϱ} (h : (w.runBatches p i s bs before).1 = .ok (rs, s')) :
    List.Forall₂ (w.Closes p) bs rs := by
  induction bs generalizing i s before rs with
  | nil =>
      cases h
      exact .nil
  | cons b bs ih =>
      simp only [runBatches] at h
      rcases hb : w.runBatch p i s b before with ⟨_ | ⟨r, s₁⟩, asked⟩
      · simp [hb] at h
      · simp only [hb] at h
        rcases hrest : (w.runBatches p (i + 1) s₁ bs (before ++ asked.map Prod.snd)).1 with
          _ | ⟨rs', s₂⟩
        · simp [hrest, Except.map] at h
        · simp only [hrest, Except.map, Except.ok.injEq, Prod.mk.injEq] at h
          obtain ⟨rfl, rfl⟩ := h
          refine .cons ?_ (ih hrest)
          unfold runBatch at hb
          rcases henter : w.enter s b.head b.items.length with _ | ⟨c, s₃⟩
          · simp [henter] at hb
          · simp only [henter, Prod.mk.injEq] at hb
            rcases hitems : (w.runItems p i c 0 s₃ b.items before).1 with _ | ⟨as, s₄⟩
            · simp [hitems, Except.map] at hb
            · simp only [hitems, Except.map, Except.ok.injEq, Prod.mk.injEq] at hb
              exact ⟨s, c, s₃, as, henter, runItems_ok hitems, hb.1.1.symm⟩

/-- Every batch of a result is closed with one answer for each of its items. -/
theorem result_ok {bs : List (Batch Γ Τ)} {rs : List ϱ} (h : w.result p bs = .ok rs) :
    List.Forall₂ (w.Closes p) bs rs := by
  unfold result at h
  rcases hrun : (w.runBatches p 0 w.start bs []).1 with _ | ⟨rs', s'⟩
  · simp [hrun, Except.map] at h
  · simp only [hrun, Except.map, Except.ok.injEq] at h
    subst h
    exact runBatches_ok hrun

end Worker

/-! ## Loaders -/

/-- A question as it was drafted, and whether it is sent. -/
structure Draft (τ : Type) where
  question : τ
  sent : Bool := true

/-- A worker that drafts one question for an item.  A draft that is not sent is answered
as it stands. -/
structure Loader (σ Γ Τ γ τ ε ω ϱ : Type) where
  start : σ
  enter : σ → Γ → Nat → Except ε (γ × σ)
  load : σ → γ → Τ → Except ε (Draft τ × σ)
  finish : γ → Τ → τ → Except ε ω
  close : γ → List ω → ϱ
  refused : ε

namespace Loader

variable {σ Γ Τ γ τ ε ω ϱ : Type} (l : Loader σ Γ Τ γ τ ε ω ϱ) (p : Partner τ)

/-- Send a draft; the partner refuses with a code other than zero. -/
def consult (draft : Draft τ) : Dialog τ ε τ :=
  if draft.sent then do
    let (code, q) ← Dialog.ask draft.question
    if code = 0 then pure q else Dialog.fail l.refused
  else pure draft.question

/-- The worker of a loader. -/
def worker : Worker σ Γ Τ γ τ ε ω ϱ where
  start := l.start
  enter := l.enter
  work s c t := do
    let (draft, s') ← Dialog.ofExcept (l.load s c t)
    let q ← l.consult draft
    let a ← Dialog.ofExcept (l.finish c t q)
    pure (a, s')
  close := l.close

/-- A loader's worker starts as it does. -/
@[simp]
theorem worker_start : l.worker.start = l.start :=
  rfl

/-- It enters a batch as the loader does. -/
@[simp]
theorem worker_enter : l.worker.enter = l.enter :=
  rfl

/-- And closes it so. -/
@[simp]
theorem worker_close : l.worker.close = l.close :=
  rfl

/-- What a loader makes of one item. -/
theorem work_eq (s : σ) (c : γ) (t : Τ) (before : List τ) :
    l.worker.work s c t p before =
      match l.load s c t with
      | .error e => (.error e, [])
      | .ok (⟨q, true⟩, s') =>
        if (p before q).1 = 0 then
          ((l.finish c t (p before q).2).map fun a => (a, s'), [q])
        else (.error l.refused, [q])
      | .ok (⟨q, false⟩, s') => ((l.finish c t q).map fun a => (a, s'), []) := by
  simp only [worker, Dialog.bind_apply, Dialog.andThen, Dialog.ofExcept]
  rcases l.load s c t with _ | ⟨⟨q, sent⟩, s'⟩
  · rfl
  · cases sent with
    | false =>
        simp only [consult, Bool.false_eq_true, if_false, Dialog.pure_apply]
        cases l.finish c t q <;> rfl
    | true =>
        simp only [consult, if_true, Dialog.bind_apply, Dialog.andThen, Dialog.ask,
          Dialog.ite_apply, List.append_nil]
        by_cases hcode : (p before q).1 = 0
        · simp only [hcode, if_true, Dialog.pure_apply]
          cases l.finish c t (p before q).2 <;> rfl
        · simp only [hcode, if_false]
          rfl

variable {l p} in
/-- An answer comes from the reply to the question that was drafted, or from the draft itself
when it was not sent. -/
theorem work_ok {s s' : σ} {c : γ} {t : Τ} {before asked : List τ} {a : ω}
    (h : l.worker.work s c t p before = (.ok (a, s'), asked)) :
    ∃ draft q, l.load s c t = .ok (draft, s') ∧ l.finish c t q = .ok a ∧
      (draft.sent = true ∧ asked = [draft.question] ∧ p before draft.question = (0, q) ∨
        draft.sent = false ∧ asked = [] ∧ q = draft.question) := by
  rw [work_eq] at h
  rcases hload : l.load s c t with _ | ⟨⟨q, sent⟩, s₁⟩
  · simp [hload] at h
  · cases sent with
    | false =>
        simp only [hload, Prod.mk.injEq] at h
        rcases hfinish : l.finish c t q with _ | a'
        · simp [hfinish, Except.map] at h
        · simp only [hfinish, Except.map, Except.ok.injEq, Prod.mk.injEq] at h
          obtain ⟨⟨rfl, rfl⟩, hasked⟩ := h
          exact ⟨_, q, rfl, hfinish, .inr ⟨rfl, hasked.symm, rfl⟩⟩
    | true =>
        by_cases hcode : (p before q).1 = 0
        · simp only [hload, hcode, if_true, Prod.mk.injEq] at h
          rcases hfinish : l.finish c t (p before q).2 with _ | a'
          · simp [hfinish, Except.map] at h
          · simp only [hfinish, Except.map, Except.ok.injEq, Prod.mk.injEq] at h
            obtain ⟨⟨rfl, rfl⟩, hasked⟩ := h
            exact ⟨_, (p before q).2, rfl, hfinish, .inl ⟨rfl, hasked.symm, Prod.ext hcode rfl⟩⟩
        · simp [hload, hcode] at h

/-! ### What a loader carries -/

/-- What loading the items leaves in the variables. -/
def carryItems (c : γ) : σ → List Τ → Except ε σ
  | s, [] => .ok s
  | s, t :: ts =>
    match l.load s c t with
    | .error e => .error e
    | .ok (_, s') => carryItems c s' ts

attribute [grind =] carryItems

/-- What loading the batches leaves in the variables. -/
def carry : σ → List (Batch Γ Τ) → Except ε σ
  | s, [] => .ok s
  | s, b :: bs =>
    match l.enter s b.head b.items.length with
    | .error e => .error e
    | .ok (c, s') =>
      match l.carryItems c s' b.items with
      | .error e => .error e
      | .ok s'' => carry s'' bs

/-- A question is drafted from the variables that all earlier items have left. -/
inductive Asks : List (Batch Γ Τ) → Nat → Nat → τ → Prop
  | intro {bs bs' : List (Batch Γ Τ)} {head : Γ} {ts ts' : List Τ} {t : Τ}
      {s₀ s₁ s₂ s₃ : σ} {c : γ} {q : τ} (hbefore : l.carry l.start bs = .ok s₀)
      (henter : l.enter s₀ head (ts ++ t :: ts').length = .ok (c, s₁))
      (hitems : l.carryItems c s₁ ts = .ok s₂) (hload : l.load s₂ c t = .ok (⟨q, true⟩, s₃)) :
      Asks (bs ++ ⟨head, ts ++ t :: ts'⟩ :: bs') bs.length ts.length q

variable {l p}

/-- A relation between items and variables that every item keeps. -/
theorem carryItems_induction {c : γ} {Q : List Τ → σ → Prop} {s s' : σ} {ts : List Τ}
    (hstart : Q [] s)
    (hstep : ∀ ts t s d s', Q ts s → l.load s c t = .ok (d, s') → Q (ts ++ [t]) s')
    (h : l.carryItems c s ts = .ok s') : Q ts s' := by
  have hgeneral : ∀ ts done s, Q done s → l.carryItems c s ts = .ok s' → Q (done ++ ts) s' := by
    intro ts
    induction ts with
    | nil =>
        intro done s hdone h
        cases h
        rwa [List.append_nil]
    | cons t ts ih =>
        intro done s hdone h
        simp only [carryItems] at h
        rcases hload : l.load s c t with _ | ⟨d, s₁⟩
        · simp [hload] at h
        · simp only [hload] at h
          have hnext := ih (done ++ [t]) s₁ (hstep done t s d s₁ hdone hload) h
          rwa [List.append_assoc] at hnext
  exact hgeneral ts [] s hstart h

/-- A relation between batches and variables that every batch keeps. -/
theorem carry_induction {P : List (Batch Γ Τ) → σ → Prop} {s' : σ} {bs : List (Batch Γ Τ)}
    (hstart : P [] l.start)
    (hstep : ∀ bs b s c s₁ s₂, P bs s → l.enter s b.head b.items.length = .ok (c, s₁) →
      l.carryItems c s₁ b.items = .ok s₂ → P (bs ++ [b]) s₂)
    (h : l.carry l.start bs = .ok s') : P bs s' := by
  have hgeneral : ∀ bs done s, P done s → l.carry s bs = .ok s' → P (done ++ bs) s' := by
    intro bs
    induction bs with
    | nil =>
        intro done s hdone h
        cases h
        rwa [List.append_nil]
    | cons b bs ih =>
        intro done s hdone h
        simp only [carry] at h
        rcases henter : l.enter s b.head b.items.length with _ | ⟨c, s₁⟩
        · simp [henter] at h
        · simp only [henter] at h
          rcases hitems : l.carryItems c s₁ b.items with _ | s₂
          · simp [hitems] at h
          · simp only [hitems] at h
            have hnext := ih (done ++ [b]) s₂ (hstep done b s c s₁ s₂ hdone henter hitems) h
            rwa [List.append_assoc] at hnext
  exact hgeneral bs [] l.start hstart h

/-- Items that leave the variables alone. -/
theorem carryItems_eq_of_load {c : γ} {s s' : σ} {ts : List Τ}
    (hload : ∀ s t d s', l.load s c t = .ok (d, s') → s' = s)
    (h : l.carryItems c s ts = .ok s') : s' = s := by
  refine carryItems_induction (Q := fun _ s'' => s'' = s) rfl ?_ h
  intro _ t s₁ d s₂ hs₁ hstep
  rw [hload s₁ t d s₂ hstep, hs₁]

/-- When batches leave the variables alone and every item brings them into a state of one
kind, then the variables are those at the start until the first item, and of that kind
afterwards. -/
theorem before_item {A : σ → Prop} {bs : List (Batch Γ Τ)} {head : Γ} {n : Nat} {c : γ}
    {s₀ s₁ s₂ : σ} {ts : List Τ}
    (hkeep : ∀ {s head n c s'}, l.enter s head n = .ok (c, s') → s' = s)
    (hleave : ∀ {s c t d s'}, l.load s c t = .ok (d, s') → A s')
    (hbefore : l.carry l.start bs = .ok s₀) (henter : l.enter s₀ head n = .ok (c, s₁))
    (hitems : l.carryItems c s₁ ts = .ok s₂) :
    ((∀ b ∈ bs, b.items = []) ∧ ts = [] → s₂ = l.start) ∧
      (¬((∀ b ∈ bs, b.items = []) ∧ ts = []) → A s₂) := by
  have htests : ∀ {c s ts s'}, l.carryItems c s ts = .ok s' →
      (ts = [] → s' = s) ∧ (ts ≠ [] → A s') := by
    intro c s ts s' h
    refine carryItems_induction (Q := fun ts s' => (ts = [] → s' = s) ∧ (ts ≠ [] → A s'))
      ⟨fun _ => rfl, fun h => absurd rfl h⟩ ?_ h
    intro ts t s₁ draft s₂ _ hload
    exact ⟨fun h => absurd h (by simp), fun _ => hleave hload⟩
  have hgroups : ((∀ b ∈ bs, b.items = []) → s₀ = l.start) ∧
      (¬(∀ b ∈ bs, b.items = []) → A s₀) := by
    refine carry_induction (P := fun bs s => ((∀ b ∈ bs, b.items = []) → s = l.start) ∧
      (¬(∀ b ∈ bs, b.items = []) → A s)) ⟨fun _ => rfl, fun h => absurd (by simp) h⟩ ?_ hbefore
    intro bs b s c s₁ s₂ ⟨hnone, hsome⟩ henter hitems
    obtain rfl := hkeep henter
    obtain ⟨hempty, hmore⟩ := htests hitems
    simp only [List.forall_mem_append, List.forall_mem_singleton]
    constructor
    · rintro ⟨hbs, hb⟩
      rw [hempty hb, hnone hbs]
    · intro hnot
      by_cases hb : b.items = []
      · rw [hempty hb]
        exact hsome fun hbs => hnot ⟨hbs, hb⟩
      · exact hmore hb
  obtain rfl := hkeep henter
  obtain ⟨hempty, hmore⟩ := htests hitems
  constructor
  · rintro ⟨hbs, hts⟩
    rw [hempty hts, hgroups.1 hbs]
  · intro hnot
    by_cases hts : ts = []
    · rw [hempty hts]
      exact hgroups.2 fun hbs => hnot ⟨hbs, hts⟩
    · exact hmore hts

/-! ### What a loader asks -/

/-- A question of a batch was loaded from its item, in the state that the items before it left. -/
theorem mem_asked_items {i j₀ j : Nat} {c : γ} {s : σ} {ts : List Τ} {before : List τ}
    {i' : Nat} {q : τ} (h : ((i', j), q) ∈ (l.worker.runItems p i c j₀ s ts before).2) :
    i' = i ∧ ∃ ts₁ t ts₂ s₂ s₃, ts = ts₁ ++ t :: ts₂ ∧ j = j₀ + ts₁.length ∧
      l.carryItems c s ts₁ = .ok s₂ ∧ l.load s₂ c t = .ok (⟨q, true⟩, s₃) := by
  induction ts generalizing j₀ s before with
  | nil => simp [Worker.runItems] at h
  | cons t ts ih =>
      simp only [Worker.runItems, work_eq] at h
      rcases hload : l.load s c t with _ | ⟨⟨q₀, sent⟩, s'⟩
      · simp [hload] at h
      -- The question is about this item, or one of the items after it.
      · have hrest : ∀ before', ((i', j), q) ∈
              (l.worker.runItems p i c (j₀ + 1) s' ts before').2 →
            i' = i ∧ ∃ ts₁ t' ts₂ s₂ s₃, t :: ts = ts₁ ++ t' :: ts₂ ∧
              j = j₀ + ts₁.length ∧ l.carryItems c s ts₁ = .ok s₂ ∧
              l.load s₂ c t' = .ok (⟨q, true⟩, s₃) := by
          intro before' hmem
          obtain ⟨hi, ts₁, t', ts₂, s₂, s₃, rfl, hj, hcarry, hq⟩ := ih hmem
          refine ⟨hi, t :: ts₁, t', ts₂, s₂, s₃, rfl, ?_, ?_, hq⟩
          · rw [List.length_cons]
            omega
          · simp only [carryItems, hload]
            exact hcarry
        cases sent with
        | false =>
            simp only [hload] at h
            rcases hfinish : l.finish c t q₀ with _ | a
            · simp [hfinish, Except.map] at h
            · simp only [hfinish, Except.map, List.map_nil, List.nil_append] at h
              exact hrest _ h
        | true =>
            have hthis : ((i', j), q) = ((i, j₀), q₀) → i' = i ∧ ∃ ts₁ t' ts₂ s₂ s₃,
                t :: ts = ts₁ ++ t' :: ts₂ ∧ j = j₀ + ts₁.length ∧
                l.carryItems c s ts₁ = .ok s₂ ∧ l.load s₂ c t' = .ok (⟨q, true⟩, s₃) := by
              intro heq
              simp only [Prod.mk.injEq] at heq
              obtain ⟨⟨rfl, rfl⟩, rfl⟩ := heq
              exact ⟨rfl, [], t, ts, s, s', rfl, rfl, rfl, hload⟩
            simp only [hload] at h
            by_cases hcode : (p before q₀).1 = 0
            · rcases hfinish : l.finish c t (p before q₀).2 with _ | a
              · simp only [hcode, if_true, hfinish, Except.map, List.map_cons, List.map_nil,
                  List.mem_singleton] at h
                exact hthis h
              · simp only [hcode, if_true, hfinish, Except.map, List.map_cons, List.map_nil,
                  List.mem_append, List.mem_singleton] at h
                rcases h with h | h
                · exact hthis h
                · exact hrest _ h
            · simp only [hcode, if_false, List.map_cons, List.map_nil,
                List.mem_singleton] at h
              exact hthis h

/-- A run of the items that does not fail leaves what loading them leaves. -/
theorem carryItems_of_runItems {i j : Nat} {c : γ} {s s' : σ} {ts : List Τ}
    {before : List τ} {as : List ω}
    (h : (l.worker.runItems p i c j s ts before).1 = .ok (as, s')) :
    l.carryItems c s ts = .ok s' := by
  induction ts generalizing j s before as with
  | nil =>
      cases h
      rfl
  | cons t ts ih =>
      simp only [Worker.runItems, work_eq] at h
      simp only [carryItems]
      rcases hload : l.load s c t with _ | ⟨⟨q, sent⟩, s₁⟩
      · simp [hload] at h
      · simp only [hload] at h ⊢
        have hrest : ∀ before' out,
            (l.worker.runItems p i c (j + 1) s₁ ts before').1 = .ok out →
              out.2 = s' → l.carryItems c s₁ ts = .ok s' := by
          rintro before' ⟨as', s₂⟩ hrun rfl
          exact ih hrun
        cases sent with
        | false =>
            simp only at h
            rcases hfinish : l.finish c t q with _ | a
            · simp [hfinish, Except.map] at h
            · simp only [hfinish, Except.map] at h
              split at h
              · cases h
              · next hrun =>
                  cases h
                  exact hrest _ _ hrun rfl
        | true =>
            by_cases hcode : (p before q).1 = 0
            · rcases hfinish : l.finish c t (p before q).2 with _ | a
              · simp [hcode, hfinish, Except.map] at h
              · simp only [hcode, if_true, hfinish, Except.map] at h
                split at h
                · cases h
                · next hrun =>
                    cases h
                    exact hrest _ _ hrun rfl
            · simp [hcode] at h

/-- A question of a run was loaded from its item, in the state that everything before it left. -/
theorem mem_asked_batches {i₀ i j : Nat} {s : σ} {bs : List (Batch Γ Τ)} {before : List τ}
    {q : τ} (h : ((i, j), q) ∈ (l.worker.runBatches p i₀ s bs before).2) :
    ∃ bs₁ head ts t ts' bs₂ s₀ s₁ s₂ s₃ c, bs = bs₁ ++ ⟨head, ts ++ t :: ts'⟩ :: bs₂ ∧
      i = i₀ + bs₁.length ∧ j = ts.length ∧ l.carry s bs₁ = .ok s₀ ∧
      l.enter s₀ head (ts ++ t :: ts').length = .ok (c, s₁) ∧
      l.carryItems c s₁ ts = .ok s₂ ∧ l.load s₂ c t = .ok (⟨q, true⟩, s₃) := by
  induction bs generalizing i₀ s before with
  | nil => simp [Worker.runBatches] at h
  | cons b bs ih =>
      simp only [Worker.runBatches, Worker.runBatch, worker_enter] at h
      rcases henter : l.enter s b.head b.items.length with _ | ⟨c, s'⟩
      · simp [henter] at h
      · simp only [henter] at h
        -- The question is about an item of this batch, or about a later batch.
        have hthis : ((i, j), q) ∈ (l.worker.runItems p i₀ c 0 s' b.items before).2 →
            ∃ bs₁ head ts t ts' bs₂ s₀ s₁ s₂ s₃ c,
              b :: bs = bs₁ ++ ⟨head, ts ++ t :: ts'⟩ :: bs₂ ∧
              i = i₀ + bs₁.length ∧ j = ts.length ∧ l.carry s bs₁ = .ok s₀ ∧
              l.enter s₀ head (ts ++ t :: ts').length = .ok (c, s₁) ∧
              l.carryItems c s₁ ts = .ok s₂ ∧ l.load s₂ c t = .ok (⟨q, true⟩, s₃) := by
          intro hmem
          obtain ⟨rfl, ts, t, ts', s₂, s₃, hts, hj, hcarry, hload⟩ := mem_asked_items hmem
          refine ⟨[], b.head, ts, t, ts', bs, s, s', s₂, s₃, c, ?_, rfl, ?_, rfl, ?_, hcarry,
            hload⟩
          · rw [← hts]
            rfl
          · omega
          · rw [← hts]
            exact henter
        rcases hitems : (l.worker.runItems p i₀ c 0 s' b.items before).1 with _ | ⟨as, s''⟩
        · simp only [hitems, Except.map] at h
          exact hthis h
        · simp only [hitems, Except.map, List.mem_append] at h
          rcases h with h | h
          · exact hthis h
          · obtain ⟨bs₁, head, ts, t, ts', bs₂, s₀, s₁, s₂, s₃, c', rfl, hi, hj, hbefore, hrest⟩ :=
              ih h
            refine ⟨b :: bs₁, head, ts, t, ts', bs₂, s₀, s₁, s₂, s₃, c', rfl, ?_, hj, ?_, hrest⟩
            · rw [List.length_cons]
              omega
            · have hcarry := carryItems_of_runItems hitems
              simp only [carry, henter, hcarry]
              exact hbefore

/-- Every question was drafted from variables that the earlier items have left. -/
theorem asks_of_mem_asked {bs : List (Batch Γ Τ)} {i j : Nat} {q : τ}
    (h : ((i, j), q) ∈ l.worker.asked p bs) : l.Asks bs i j q := by
  obtain ⟨bs₁, head, ts, t, ts', bs₂, s₀, s₁, s₂, s₃, c, rfl, hi, rfl, hbefore, henter, hitems,
    hload⟩ := mem_asked_batches h
  rw [hi, Nat.zero_add]
  exact .intro hbefore henter hitems hload

variable (l) in
/-- The question about one item when there is nothing else. -/
def alone (head : Γ) (t : Τ) : Option τ :=
  match l.enter l.start head 1 with
  | .error _ => none
  | .ok (c, s) =>
    match l.load s c t with
    | .ok (⟨q, true⟩, _) => some q
    | _ => none

/-- What is loaded of an item that is alone. -/
theorem alone_eq_some {head : Γ} {t : Τ} {q : τ} :
    l.alone head t = some q ↔ ∃ c s s', l.enter l.start head 1 = .ok (c, s) ∧
      l.load s c t = .ok (⟨q, true⟩, s') := by
  unfold alone
  rcases l.enter l.start head 1 with e | ⟨c, s⟩
  · simp
  · rcases hload : l.load s c t with e | ⟨⟨q', sent⟩, s'⟩
    · simp [hload]
    · cases sent <;> simp [hload]

/-- What a loader asks about one item alone. -/
theorem asked_single (head : Γ) (t : Τ) :
    l.worker.asked p [⟨head, [t]⟩] = (l.alone head t).toList.map ((0, 0), ·) := by
  simp only [Worker.asked, Worker.runBatches, Worker.runBatch, worker_enter, worker_start,
    alone, List.length_singleton]
  rcases l.enter l.start head 1 with _ | ⟨c, s⟩
  · rfl
  · simp only [Worker.runItems, work_eq]
    rcases l.load s c t with _ | ⟨⟨q, sent⟩, s'⟩
    · rfl
    · cases sent with
      | false =>
          dsimp only
          rcases l.finish c t q with _ | a <;> rfl
      | true =>
          by_cases hcode : (p [] q).1 = 0
          · simp only [hcode, if_true]
            rcases l.finish c t (p [] q).2 with _ | a <;> rfl
          · simp only [hcode, if_false]
            rfl

/-! ### A loader whose questions are all served -/

/-- The items of a batch with their places. -/
def placedItems (i : Nat) (head : Γ) : Nat → List Τ → List (Place × Γ × Τ)
  | _, [] => []
  | j, t :: ts => ((i, j), head, t) :: placedItems i head (j + 1) ts

/-- The items of all batches with their places. -/
def placed : Nat → List (Batch Γ Τ) → List (Place × Γ × Τ)
  | _, [] => []
  | i, b :: bs => placedItems i b.head 0 b.items ++ placed (i + 1) bs

/-- Every item of a batch has a place. -/
theorem exists_placedItems (i j : Nat) (head : Γ) {ts : List Τ} {t : Τ} (h : t ∈ ts) :
    ∃ place, (place, head, t) ∈ placedItems i head j ts := by
  induction ts generalizing j with
  | nil => simp at h
  | cons t' ts ih =>
      rcases List.mem_cons.mp h with rfl | h
      · exact ⟨(i, j), by simp [placedItems]⟩
      · obtain ⟨place, hplace⟩ := ih (j + 1) h
        exact ⟨place, List.mem_cons_of_mem _ hplace⟩

/-- Every item has a place. -/
theorem exists_placed (i : Nat) {bs : List (Batch Γ Τ)} {b : Batch Γ Τ} {t : Τ} (hb : b ∈ bs)
    (ht : t ∈ b.items) : ∃ place, (place, b.head, t) ∈ placed i bs := by
  induction bs generalizing i with
  | nil => simp at hb
  | cons b' bs ih =>
      rcases List.mem_cons.mp hb with rfl | hb
      · obtain ⟨place, hplace⟩ := exists_placedItems i 0 b.head ht
        exact ⟨place, List.mem_append_left _ hplace⟩
      · obtain ⟨place, hplace⟩ := ih (i + 1) hb
        exact ⟨place, List.mem_append_right _ hplace⟩

/-- Every item is asked about once, in order, with a question that suits it. -/
def AskedAbout (D : Γ → Τ → τ → Prop) (items : List (Place × Γ × Τ))
    (asked : List (Place × τ)) : Prop :=
  List.Forall₂ (fun item q => q.1 = item.1 ∧ D item.2.1 item.2.2 q.2) items asked

/-- Questions about items in one way are so in a weaker one. -/
theorem AskedAbout.imp {D D' : Γ → Τ → τ → Prop} {items : List (Place × Γ × Τ)}
    {asked : List (Place × τ)} (h : AskedAbout D items asked)
    (hD : ∀ head t q, D head t q → D' head t q) : AskedAbout D' items asked :=
  List.Forall₂.imp (fun _ _ hq => ⟨hq.1, hD _ _ _ hq.2⟩) h

variable (l p) in
/-- The partner accepts the questions that suit an item, and its replies can be answered. -/
def Served (D : Γ → Τ → τ → Prop) : Prop :=
  ∀ head c t before q, D head t q →
    (p before q).1 = 0 ∧ ∃ a, l.finish c t (p before q).2 = .ok a

variable (l) in
/-- An item gets a question that suits it, from all variables of one kind. -/
def Loads (I : σ → Prop) (D : Γ → Τ → τ → Prop) (head : Γ) (c : γ) (t : Τ) : Prop :=
  ∀ s, I s → ∃ q s', l.load s c t = .ok (⟨q, true⟩, s') ∧ I s' ∧ D head t q

section Served

variable {I : σ → Prop} {D : Γ → Τ → τ → Prop} (hserved : l.Served p D)
include hserved

/-- A batch whose items can be loaded and are served is answered, and asks about each item. -/
theorem runItems_served {i : Nat} {head : Γ} {c : γ} {ts : List Τ}
    (hloads : ∀ t ∈ ts, l.Loads I D head c t) (j : Nat) {s : σ} (hs : I s) (before : List τ) :
    ∃ as s' asked, l.worker.runItems p i c j s ts before = (.ok (as, s'), asked) ∧ I s' ∧
      AskedAbout D (placedItems i head j ts) asked := by
  induction ts generalizing j s before with
  | nil => exact ⟨[], s, [], rfl, hs, .nil⟩
  | cons t ts ih =>
      obtain ⟨q, s₁, hload, hs₁, hq⟩ := hloads t (by simp) s hs
      obtain ⟨hcode, a, hfinish⟩ := hserved head c t before q hq
      obtain ⟨as, s', asked, hrest, hs', hasked⟩ :=
        ih (fun t' ht' => hloads t' (List.mem_cons_of_mem t ht')) (j + 1) hs₁ (before ++ [q])
      refine ⟨a :: as, s', ((i, j), q) :: asked, ?_, hs', .cons ⟨rfl, hq⟩ hasked⟩
      simp only [Worker.runItems, work_eq, hload, hcode, if_true, hfinish, Except.map, hrest,
        List.map_cons, List.map_nil, List.cons_append, List.nil_append]

/-- So is a run, by induction on its batches. -/
theorem runBatches_served {bs : List (Batch Γ Τ)}
    (henter : ∀ b ∈ bs, ∀ s, I s → ∃ c s', l.enter s b.head b.items.length = .ok (c, s') ∧ I s' ∧
      ∀ t ∈ b.items, l.Loads I D b.head c t)
    (i : Nat) {s : σ} (hs : I s) (before : List τ) :
    ∃ rs s' asked, l.worker.runBatches p i s bs before = (.ok (rs, s'), asked) ∧ I s' ∧
      AskedAbout D (placed i bs) asked := by
  induction bs generalizing i s before with
  | nil => exact ⟨[], s, [], rfl, hs, .nil⟩
  | cons b bs ih =>
      obtain ⟨c, s₁, hc, hs₁, hloads⟩ := henter b (by simp) s hs
      obtain ⟨as, s₂, asked, hitems, hs₂, hasked⟩ := runItems_served hserved hloads 0 hs₁ before
      obtain ⟨rs, s', asked', hrest, hs', hasked'⟩ :=
        ih (fun b' hb' => henter b' (List.mem_cons_of_mem b hb')) (i + 1) hs₂
          (before ++ asked.map Prod.snd)
      refine ⟨l.close c as :: rs, s', asked ++ asked', ?_, hs', List.rel_append hasked hasked'⟩
      simp only [Worker.runBatches, Worker.runBatch, worker_enter, hc, hitems, Except.map, hrest,
        worker_close]

/-- When every batch is entered and every item loaded, the work succeeds and the partner is
asked about every item. -/
theorem result_served {bs : List (Batch Γ Τ)} (hstart : I l.start)
    (henter : ∀ b ∈ bs, ∀ s, I s → ∃ c s', l.enter s b.head b.items.length = .ok (c, s') ∧ I s' ∧
      ∀ t ∈ b.items, l.Loads I D b.head c t) :
    (∃ rs, l.worker.result p bs = .ok rs) ∧ AskedAbout D (placed 0 bs) (l.worker.asked p bs) := by
  obtain ⟨rs, s', asked, hrun, -, hasked⟩ := runBatches_served hserved henter 0 hstart []
  simp only [Worker.result, Worker.asked, worker_start, hrun]
  exact ⟨⟨rs, rfl⟩, hasked⟩

end Served

/-- In two lists that are related element by element, each on the left has one on the right. -/
theorem exists_of_forall₂ {α β : Type} {R : α → β → Prop} {xs : List α} {ys : List β} {x : α}
    (h : List.Forall₂ R xs ys) (hx : x ∈ xs) : ∃ y ∈ ys, R x y := by
  induction h with
  | nil => simp at hx
  | cons hxy _ ih =>
      rcases List.mem_cons.mp hx with rfl | hx
      · exact ⟨_, by simp, hxy⟩
      · obtain ⟨y, hy, hR⟩ := ih hx
        exact ⟨y, List.mem_cons_of_mem _ hy, hR⟩

/-- What is answered was entered and loaded. -/
theorem loaded_of_result {bs : List (Batch Γ Τ)} {rs : List ϱ}
    (h : l.worker.result p bs = .ok rs) {b : Batch Γ Τ} (hb : b ∈ bs) :
    ∃ s c s', l.enter s b.head b.items.length = .ok (c, s') ∧
      ∀ t ∈ b.items, ∃ s₁ draft s₂, l.load s₁ c t = .ok (draft, s₂) := by
  have hcloses := Worker.result_ok h
  obtain ⟨r, -, s, c, s', as, henter, hanswers, -⟩ := exists_of_forall₂ hcloses hb
  refine ⟨s, c, s', henter, fun t ht => ?_⟩
  obtain ⟨a, -, s₁, before, s₂, asked, hwork⟩ := exists_of_forall₂ hanswers ht
  obtain ⟨draft, q, hload, -⟩ := work_ok hwork
  exact ⟨s₁, draft, s₂, hload⟩

end Loader
