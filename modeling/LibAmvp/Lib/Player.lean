import LibAmvp.Lib.Dialog

/-!
# Reading first, performing then

A player reads every item with variables of its own, and then performs what it has read: it
talks to a partner and changes a store that outlives the work.  Neither the partner nor the
store has an influence on what is read, so that a run performs a script.

Main results:

- Theorem {lit}`Player.result_toOption`: the work of a player is the performance of its
  script.
- Theorem {lit}`Player.parted_iff`: when do batches in a row fare as they would apart, whatever
  the store holds and whatever a partner without a memory replies?
-/

namespace Dialog

variable {τ ε α β : Type}

/-- A program that does the same with a partner without a memory, whatever was asked before. -/
def Steady (f : τ → Int × τ) (m : Dialog τ ε α) : Prop :=
  ∀ before before', m (.memoryless f) before = m (.memoryless f) before'

variable {f : τ → Int × τ}

/-- A computation that asks nothing is steady. -/
theorem steady_ofExcept (x : Except ε α) : Steady f (ofExcept x : Dialog τ ε α) :=
  fun _ _ => rfl

/-- A result is steady. -/
theorem steady_pure (a : α) : Steady f (pure a : Dialog τ ε α) :=
  fun _ _ => rfl

/-- A failure is steady. -/
theorem steady_fail (e : ε) : Steady f (fail e : Dialog τ ε α) :=
  fun _ _ => rfl

/-- A single question is steady: the module answers it as its function does. -/
theorem steady_ask (q : τ) : Steady f (ask q : Dialog τ ε (Int × τ)) :=
  fun _ _ => rfl

/-- Replace the error of a program. -/
def mapError {ε' : Type} (g : ε → ε') (m : Dialog τ ε α) : Dialog τ ε' α := fun p before =>
  ((m p before).1.mapError g, (m p before).2)

/-- Renaming errors keeps a dialog steady. -/
theorem Steady.mapError {ε' : Type} {m : Dialog τ ε α} (hm : Steady f m) (g : ε → ε') :
    Steady f (m.mapError g) := by
  intro before before'
  unfold Dialog.mapError
  rw [hm before before']

/-- A test of two steady dialogs is steady. -/
theorem steady_ite {c : Prop} [Decidable c] {m m' : Dialog τ ε α} (hm : Steady f m)
    (hm' : Steady f m') : Steady f (if c then m else m') := by
  split
  · exact hm
  · exact hm'

/-- A sequence of steady dialogs is steady. -/
theorem Steady.bind {m : Dialog τ ε α} {g : α → Dialog τ ε β} (hm : Steady f m)
    (hg : ∀ a, Steady f (g a)) : Steady f (m >>= g) := by
  intro before before'
  simp only [bind_apply, andThen, hm before before']
  rcases m (.memoryless f) before' with ⟨_ | a, asked⟩
  · rfl
  · simp only [hg a (before ++ asked) (before' ++ asked)]

/-- What a program yields with a partner without a memory. -/
def yields (f : τ → Int × τ) (m : Dialog τ ε α) : Except ε α := (m (.memoryless f) []).1

/-- A computation that asks nothing yields its own result. -/
@[simp]
theorem yields_ofExcept (x : Except ε α) : yields f (ofExcept x : Dialog τ ε α) = x :=
  rfl

/-- A result yields itself. -/
@[simp]
theorem yields_pure (a : α) : yields f (pure a : Dialog τ ε α) = .ok a :=
  rfl

/-- A failure yields itself. -/
@[simp]
theorem yields_fail (e : ε) : yields f (fail e : Dialog τ ε α) = .error e :=
  rfl

/-- A question yields what the module's function answers. -/
@[simp]
theorem yields_ask (q : τ) : yields f (ask q : Dialog τ ε (Int × τ)) = .ok (f q) :=
  rfl

/-- Renaming errors renames the error that is yielded. -/
theorem yields_mapError {ε' : Type} (m : Dialog τ ε α) (g : ε → ε') :
    yields f (m.mapError g) = (yields f m).mapError g :=
  rfl

/-- A sequence yields what its rest yields at the first result. -/
theorem yields_bind {m : Dialog τ ε α} {g : α → Dialog τ ε β} (hg : ∀ a, Steady f (g a)) :
    yields f (m >>= g) =
      match yields f m with
      | .error e => .error e
      | .ok a => yields f (g a) := by
  unfold yields
  rw [bind_apply, andThen]
  rcases m (.memoryless f) [] with ⟨_ | a, asked⟩
  · rfl
  · dsimp only
    rw [hg a ([] ++ asked) []]

/-- The same once the first result is known. -/
theorem yields_bind_ok {m : Dialog τ ε α} {g : α → Dialog τ ε β} {a : α}
    (hm : yields f m = .ok a) (hg : ∀ a, Steady f (g a)) :
    yields f (m >>= g) = yields f (g a) := by
  rw [yields_bind hg, hm]

/-- The same for a first part that asks nothing. -/
theorem yields_ofExcept_bind {x : Except ε α} {a : α} (hx : x = .ok a)
    (g : α → Dialog τ ε β) : yields f (ofExcept x >>= g) = yields f (g a) := by
  subst hx
  rfl

/-- A program that goes on to yield what it makes of a value. -/
theorem yields_bind_pure {m : Dialog τ ε α} (g : α → β) :
    yields f (m >>= fun a => pure (g a)) = (yields f m).map g := by
  rw [yields_bind fun a => steady_pure (g a)]
  cases yields f m <;> rfl

section AskOnce

variable {κ ω : Type} (refused : Int → Prop) [DecidablePred refused]

/-- A program that puts one question and makes an answer of the reply, unless the code is
refused. -/
theorem steady_askOnce (q : τ) (e : ε) (answer : Int × τ → Except ε ω) (k : κ) :
    Steady f (ask q >>= fun reply =>
      if refused reply.1 then fail e
      else ofExcept (answer reply) >>= fun a => (pure (a, k) : Dialog τ ε (ω × κ))) := by
  apply Steady.bind (steady_ask q)
  intro reply
  apply steady_ite (steady_fail e)
  exact Steady.bind (steady_ofExcept _) fun a => steady_pure _

/-- A dialog that asks once yields the answer put together from the reply, or the refusal. -/
theorem yields_askOnce (q : τ) (e : ε) (answer : Int × τ → Except ε ω) (k : κ) :
    yields f (ask q >>= fun reply =>
      if refused reply.1 then fail e
      else ofExcept (answer reply) >>= fun a => (pure (a, k) : Dialog τ ε (ω × κ))) =
        if refused (f q).1 then .error e else (answer (f q)).map (·, k) := by
  rw [yields_bind_ok (yields_ask q)]
  · split
    · rfl
    · exact yields_bind_pure _
  · intro reply
    apply steady_ite (steady_fail e)
    exact Steady.bind (steady_ofExcept _) fun a => steady_pure _

end AskOnce

end Dialog

/-- A player reads the items of batches and performs what it has read. -/
structure Player (σ κ Γ Τ γ τ ε ω ϱ : Type) where
  start : σ
  enter : σ → Γ → Nat → Except ε (γ × σ)
  load : σ → γ → Τ → Except ε (τ × σ)
  play : γ → Τ → τ → κ → Dialog τ ε (ω × κ)
  close : γ → List ω → ϱ

namespace Player

variable {σ κ Γ Τ γ τ ε ω ϱ : Type} (l : Player σ κ Γ Τ γ τ ε ω ϱ)

/-- The worker of a player that finds a store. -/
def worker (k : κ) : Worker (σ × κ) Γ Τ γ τ ε ω ϱ where
  start := (l.start, k)
  enter s head n := (l.enter s.1 head n).map fun out => (out.1, out.2, s.2)
  work s c t := do
    let (q, s') ← Dialog.ofExcept (l.load s.1 c t)
    let (a, k') ← l.play c t q s.2
    pure (a, s', k')
  close := l.close

/-! ## Scripts -/

/-- What is read of the items of a batch. -/
def scriptItems (c : γ) : σ → List Τ → Except ε (List (Τ × τ) × σ)
  | s, [] => .ok ([], s)
  | s, t :: ts =>
    match l.load s c t with
    | .error e => .error e
    | .ok (q, s') => (scriptItems c s' ts).map fun out => ((t, q) :: out.1, out.2)

/-- What is read of batches. -/
def script : σ → List (Batch Γ Τ) → Except ε (List (γ × List (Τ × τ)) × σ)
  | s, [] => .ok ([], s)
  | s, b :: bs =>
    match l.enter s b.head b.items.length with
    | .error e => .error e
    | .ok (c, s') =>
      match l.scriptItems c s' b.items with
      | .error e => .error e
      | .ok (items, s'') => (script s'' bs).map fun out => ((c, items) :: out.1, out.2)

/-- All batches can be read from the start. -/
def Readable (bs : List (Batch Γ Τ)) : Prop := ∃ out, l.script l.start bs = .ok out

/-- What becomes of one item with a partner without a memory. -/
def answer (f : τ → Int × τ) (c : γ) (t : Τ) (q : τ) (k : κ) : Except ε (ω × κ) :=
  (l.play c t q k).yields f

/-- Perform what was read of the items of a batch. -/
def performItems (f : τ → Int × τ) (c : γ) : κ → List (Τ × τ) → Except ε (List ω × κ)
  | k, [] => .ok ([], k)
  | k, item :: items =>
    match l.answer f c item.1 item.2 k with
    | .error e => .error e
    | .ok (a, k') => (performItems f c k' items).map fun out => (a :: out.1, out.2)

/-- Perform what was read of batches. -/
def perform (f : τ → Int × τ) : κ → List (γ × List (Τ × τ)) → Except ε (List ϱ × κ)
  | k, [] => .ok ([], k)
  | k, scene :: scenes =>
    match l.performItems f scene.1 k scene.2 with
    | .error e => .error e
    | .ok (as, k') =>
      (perform f k' scenes).map fun out => (l.close scene.1 as :: out.1, out.2)

variable {l}

/-- What a player makes of one item. -/
theorem work_eq {f : τ → Int × τ} (hf : ∀ c t q k, (l.play c t q k).Steady f) (s : σ) (k : κ)
    (c : γ) (t : Τ) (before : List τ) :
    ((l.worker k).work (s, k) c t (.memoryless f) before).1 =
      match l.load s c t with
      | .error e => .error e
      | .ok (q, s') => (l.answer f c t q k).map fun out => (out.1, s', out.2) := by
  simp only [worker, Dialog.bind_apply, Dialog.andThen, Dialog.ofExcept]
  rcases l.load s c t with _ | ⟨q, s'⟩
  · rfl
  · simp only [hf c t q k (before ++ []) [], answer, Dialog.yields]
    rcases l.play c t q k (.memoryless f) [] with ⟨_ | ⟨a, k'⟩, asked⟩ <;> rfl

/-- The work of a worker does not depend on the memory it starts with. -/
theorem worker_work (k k' : κ) : (l.worker k).work = (l.worker k').work :=
  rfl

/-! ## The work of a player, up to the errors -/

/-- What is left after forgetting the error was the result. -/
theorem eq_ok_of_toOption {α : Type} {x : Except ε α} {a : α} (h : x.toOption = some a) :
    x = .ok a := by
  cases x with
  | error e => cases h
  | ok b =>
      cases h
      rfl

/-- A result is left after forgetting the error exactly when there was one. -/
theorem toOption_eq_some {α : Type} {x : Except ε α} {a : α} :
    x.toOption = some a ↔ x = .ok a :=
  ⟨eq_ok_of_toOption, fun h => by rw [h]; rfl⟩

/-- A result is kept. -/
theorem toOption_ok {α : Type} (a : α) : (Except.ok a : Except ε α).toOption = some a :=
  rfl

/-- Forgetting the error commutes with a function on the results. -/
theorem toOption_map {α β : Type} (g : α → β) (x : Except ε α) :
    (x.map g).toOption = x.toOption.map g := by
  cases x <;> rfl

/-- Going on alike from what is the same up to the store. -/
theorem bind_eq_of_fst {α β : Type} {x y : Option (α × κ)} (h : x.map Prod.fst = y.map Prod.fst)
    {g g' : α × κ → Option β} (hg : ∀ a k k', g (a, k) = g' (a, k')) : x.bind g = y.bind g' := by
  rcases x with _ | ⟨a, k⟩ <;> rcases y with _ | ⟨a', k'⟩ <;> cases h
  · rfl
  · exact hg a k k'

/-- The first item is read before the others, and the state is handed on. -/
theorem scriptItems_cons (c : γ) (s : σ) (t : Τ) (ts : List Τ) :
    (l.scriptItems c s (t :: ts)).toOption = (l.load s c t).toOption.bind fun out =>
      (l.scriptItems c out.2 ts).toOption.map fun rest => ((t, out.1) :: rest.1, rest.2) := by
  simp only [scriptItems]
  rcases l.load s c t with _ | ⟨q, s'⟩
  · rfl
  · exact toOption_map _ _

/-- The first batch is read before the others, and the state is handed on. -/
theorem script_cons (s : σ) (b : Batch Γ Τ) (bs : List (Batch Γ Τ)) :
    (l.script s (b :: bs)).toOption = (l.enter s b.head b.items.length).toOption.bind fun entered =>
      (l.scriptItems entered.1 entered.2 b.items).toOption.bind fun out =>
        (l.script out.2 bs).toOption.map fun rest => ((entered.1, out.1) :: rest.1, rest.2) := by
  simp only [script]
  rcases l.enter s b.head b.items.length with _ | ⟨c, s'⟩
  · rfl
  · simp only [Except.toOption, Option.bind_some]
    rcases l.scriptItems c s' b.items with _ | ⟨items, s''⟩
    · rfl
    · exact toOption_map _ _

/-- Items are read exactly when the first one is and then the rest. -/
theorem scriptItems_cons_eq_some {c : γ} {s s' : σ} {t : Τ} {ts : List Τ}
    {items : List (Τ × τ)} :
    (l.scriptItems c s (t :: ts)).toOption = some (items, s') ↔
      ∃ q s₁ rest, l.load s c t = .ok (q, s₁) ∧
        (l.scriptItems c s₁ ts).toOption = some (rest, s') ∧ items = (t, q) :: rest := by
  rw [scriptItems_cons]
  constructor
  · intro h
    obtain ⟨⟨q, s₁⟩, hload, h⟩ := Option.bind_eq_some_iff.mp h
    obtain ⟨⟨rest, s₂⟩, hrest, hsame⟩ := Option.map_eq_some_iff.mp h
    cases hsame
    exact ⟨q, s₁, rest, eq_ok_of_toOption hload, hrest, rfl⟩
  · rintro ⟨q, s₁, rest, hload, hrest, rfl⟩
    rw [hload, toOption_ok, Option.bind_some, hrest]
    rfl

/-- Batches are read exactly when the first one is and then the rest. -/
theorem script_cons_eq_some {s s' : σ} {b : Batch Γ Τ} {bs : List (Batch Γ Τ)}
    {scenes : List (γ × List (Τ × τ))} :
    (l.script s (b :: bs)).toOption = some (scenes, s') ↔
      ∃ c s₁ items s₂ rest, l.enter s b.head b.items.length = .ok (c, s₁) ∧
        (l.scriptItems c s₁ b.items).toOption = some (items, s₂) ∧
        (l.script s₂ bs).toOption = some (rest, s') ∧ scenes = (c, items) :: rest := by
  rw [script_cons]
  constructor
  · intro h
    obtain ⟨⟨c, s₁⟩, henter, h⟩ := Option.bind_eq_some_iff.mp h
    obtain ⟨⟨items, s₂⟩, hitems, h⟩ := Option.bind_eq_some_iff.mp h
    obtain ⟨⟨rest, s₃⟩, hrest, hsame⟩ := Option.map_eq_some_iff.mp h
    cases hsame
    exact ⟨c, s₁, items, s₂, rest, eq_ok_of_toOption henter, hitems, hrest, rfl⟩
  · rintro ⟨c, s₁, items, s₂, rest, henter, hitems, hrest, rfl⟩
    rw [henter, toOption_ok, Option.bind_some, hitems, Option.bind_some, hrest]
    rfl

/-- The first item is answered before the others, and the memory is handed on. -/
theorem performItems_cons (f : τ → Int × τ) (c : γ) (k : κ) (item : Τ × τ)
    (items : List (Τ × τ)) :
    (l.performItems f c k (item :: items)).toOption =
      (l.answer f c item.1 item.2 k).toOption.bind fun out =>
        (l.performItems f c out.2 items).toOption.map fun rest => (out.1 :: rest.1, rest.2) := by
  simp only [performItems]
  rcases l.answer f c item.1 item.2 k with _ | ⟨a, k'⟩
  · rfl
  · exact toOption_map _ _

/-- The first scene is answered before the others, and the memory is handed on. -/
theorem perform_cons (f : τ → Int × τ) (k : κ) (scene : γ × List (Τ × τ))
    (scenes : List (γ × List (Τ × τ))) :
    (l.perform f k (scene :: scenes)).toOption =
      (l.performItems f scene.1 k scene.2).toOption.bind fun out =>
        (l.perform f out.2 scenes).toOption.map fun rest =>
          (l.close scene.1 out.1 :: rest.1, rest.2) := by
  simp only [perform]
  rcases l.performItems f scene.1 k scene.2 with _ | ⟨as, k'⟩
  · rfl
  · exact toOption_map _ _

/-- The script of two parts is the script of the first followed by that of the second. -/
theorem script_append (s : σ) (bs bs' : List (Batch Γ Τ)) :
    (l.script s (bs ++ bs')).toOption = (l.script s bs).toOption.bind fun out =>
      (l.script out.2 bs').toOption.map fun rest => (out.1 ++ rest.1, rest.2) := by
  induction bs generalizing s with
  | nil => exact Option.map_id'.symm
  | cons b bs ih =>
      rw [List.cons_append, script_cons, script_cons, Option.bind_assoc]
      congr 1
      funext entered
      rw [Option.bind_assoc]
      congr 1
      funext out
      rw [ih, Option.map_bind, Option.bind_map]
      congr 1
      funext rest
      exact Option.map_map ..

/-- The answers to two parts are those to the first followed by those to the second. -/
theorem perform_append (f : τ → Int × τ) (k : κ) (scenes scenes' : List (γ × List (Τ × τ))) :
    (l.perform f k (scenes ++ scenes')).toOption = (l.perform f k scenes).toOption.bind fun out =>
      (l.perform f out.2 scenes').toOption.map fun rest => (out.1 ++ rest.1, rest.2) := by
  induction scenes generalizing k with
  | nil => exact Option.map_id'.symm
  | cons scene scenes ih =>
      rw [List.cons_append, perform_cons, perform_cons, Option.bind_assoc]
      congr 1
      funext out
      rw [ih, Option.map_bind, Option.bind_map]
      congr 1
      funext rest
      exact Option.map_map ..

section Memoryless

variable {f : τ → Int × τ} (hf : ∀ c t q k, (l.play c t q k).Steady f)
include hf

/-- Up to errors, the work on an item is to read it and then to answer it. -/
theorem work_toOption (s : σ) (k k₀ : κ) (c : γ) (t : Τ) (before : List τ) :
    ((l.worker k₀).work (s, k) c t (.memoryless f) before).1.toOption =
      (l.load s c t).toOption.bind fun read =>
        (l.answer f c t read.1 k).toOption.map fun out => (out.1, read.2, out.2) := by
  rw [worker_work k₀ k, work_eq hf]
  rcases l.load s c t with _ | ⟨q, s'⟩
  · rfl
  · exact toOption_map _ _

/-- The answers to the items of a batch are those to what is read of them. -/
theorem runItems_toOption (k₀ : κ) (i : Nat) (c : γ) (ts : List Τ) (j : Nat) (s : σ) (k : κ)
    (before : List τ) :
    ((l.worker k₀).runItems (.memoryless f) i c j (s, k) ts before).1.toOption =
      (l.scriptItems c s ts).toOption.bind fun out =>
        (l.performItems f c k out.1).toOption.map fun r => (r.1, out.2, r.2) := by
  induction ts generalizing j s k before with
  | nil => rfl
  | cons t ts ih =>
      have hwork := work_toOption hf s k k₀ c t before
      rw [scriptItems_cons]
      simp only [Worker.runItems]
      rcases hw : (l.worker k₀).work (s, k) c t (.memoryless f) before with
        ⟨e | ⟨a, s', k'⟩, asked⟩ <;> rw [hw] at hwork
      · rcases hload : (l.load s c t).toOption with _ | ⟨q, s'⟩
        · rfl
        · rw [hload] at hwork
          have hnone : (l.answer f c t q k).toOption = none := Option.map_eq_none_iff.mp hwork.symm
          rw [Option.bind_some]
          rcases (l.scriptItems c s' ts).toOption with _ | rest
          · rfl
          · rw [Option.map_some, Option.bind_some, performItems_cons, hnone]
            rfl
      · obtain ⟨⟨q, s''⟩, hload, hanswer⟩ := Option.bind_eq_some_iff.mp hwork.symm
        obtain ⟨⟨a', k''⟩, hreply, hsame⟩ := Option.map_eq_some_iff.mp hanswer
        cases hsame
        rw [hload, Option.bind_some, toOption_map, ih]
        dsimp only at hreply ⊢
        rcases (l.scriptItems c s'' ts).toOption with _ | rest
        · rfl
        · rw [Option.bind_some, Option.map_some, Option.bind_some, performItems_cons, hreply,
            Option.bind_some, Option.map_map, Option.map_map]
          rfl

/-- Up to errors, a batch is run by reading all of it and then answering it. -/
theorem runBatch_toOption (k₀ : κ) (i : Nat) (s : σ) (k : κ) (b : Batch Γ Τ) (before : List τ) :
    ((l.worker k₀).runBatch (.memoryless f) i (s, k) b before).1.toOption =
      (l.enter s b.head b.items.length).toOption.bind fun entered =>
        (l.scriptItems entered.1 entered.2 b.items).toOption.bind fun out =>
          (l.performItems f entered.1 k out.1).toOption.map fun r =>
            (l.close entered.1 r.1, out.2, r.2) := by
  have henter : (l.worker k₀).enter (s, k) b.head b.items.length =
      (l.enter s b.head b.items.length).map fun out => (out.1, out.2, k) := rfl
  simp only [Worker.runBatch, henter]
  rcases l.enter s b.head b.items.length with _ | ⟨c, s'⟩
  · rfl
  · simp only [Except.map]
    change (Except.map _ _).toOption = (l.scriptItems c s' b.items).toOption.bind _
    rw [toOption_map, runItems_toOption hf]
    rcases (l.scriptItems c s' b.items).toOption with _ | out
    · rfl
    · rw [Option.bind_some, Option.bind_some, Option.map_map]
      rfl

/-- The work on batches performs what is read of them. -/
theorem runBatches_toOption (k₀ : κ) (bs : List (Batch Γ Τ)) (i : Nat) (s : σ) (k : κ)
    (before : List τ) :
    ((l.worker k₀).runBatches (.memoryless f) i (s, k) bs before).1.toOption =
      (l.script s bs).toOption.bind fun out =>
        (l.perform f k out.1).toOption.map fun r => (r.1, out.2, r.2) := by
  induction bs generalizing i s k before with
  | nil => rfl
  | cons b bs ih =>
      have hbatch := runBatch_toOption hf k₀ i s k b before
      rw [script_cons]
      simp only [Worker.runBatches]
      rcases hrun : (l.worker k₀).runBatch (.memoryless f) i (s, k) b before with
        ⟨e | ⟨r, s', k'⟩, asked⟩ <;> rw [hrun] at hbatch
      · rcases henter : (l.enter s b.head b.items.length).toOption with _ | ⟨c, s'⟩
        · rfl
        rw [henter, Option.bind_some] at hbatch
        rw [Option.bind_some]
        dsimp only at hbatch ⊢
        rcases hitems : (l.scriptItems c s' b.items).toOption with _ | ⟨items, s''⟩
        · rfl
        rw [hitems, Option.bind_some] at hbatch
        rw [Option.bind_some]
        have hnone := Option.map_eq_none_iff.mp hbatch.symm
        rcases (l.script s'' bs).toOption with _ | rest
        · rfl
        · rw [Option.map_some, Option.bind_some, perform_cons, hnone]
          rfl
      · obtain ⟨⟨c, s₁⟩, henter, hbatch⟩ := Option.bind_eq_some_iff.mp hbatch.symm
        obtain ⟨⟨items, s₂⟩, hitems, hbatch⟩ := Option.bind_eq_some_iff.mp hbatch
        obtain ⟨⟨as, k''⟩, hperform, hsame⟩ := Option.map_eq_some_iff.mp hbatch
        cases hsame
        rw [henter, Option.bind_some, hitems, Option.bind_some, toOption_map, ih]
        dsimp only at hperform ⊢
        rcases (l.script s₂ bs).toOption with _ | rest
        · rfl
        · rw [Option.bind_some, Option.map_some, Option.bind_some, perform_cons, hperform,
            Option.bind_some, Option.map_map, Option.map_map]
          rfl

/-- The work of a player is the performance of its script. -/
theorem result_toOption (k : κ) (bs : List (Batch Γ Τ)) :
    ((l.worker k).result (.memoryless f) bs).toOption =
      (l.script l.start bs).toOption.bind fun out =>
        (l.perform f k out.1).toOption.map Prod.fst := by
  unfold Worker.result
  rw [toOption_map]
  change Option.map _ ((l.worker k).runBatches (.memoryless f) 0 (l.start, k) bs []).1.toOption = _
  rw [runBatches_toOption hf, Option.map_bind]
  congr 1
  funext out
  exact Option.map_map ..

end Memoryless

/-! ## Batches in a row and apart -/

/-- Both parts succeed, and what becomes of the whole is what becomes of them, in a row. -/
def Parted (whole first second : Option (List ϱ)) : Prop :=
  whole = first.bind fun rs => second.map (rs ++ ·)

/-- Batches of a kind are empty in what was read. -/
def Avoids (P : γ → Prop) (scenes : List (γ × List (Τ × τ))) : Prop :=
  ∀ scene ∈ scenes, P scene.1 → scene.2 = []

/-- Everything that was read has a property. -/
def AllRead (Ready : γ → τ → Prop) (scenes : List (γ × List (Τ × τ))) : Prop :=
  ∀ scene ∈ scenes, ∀ item ∈ scene.2, Ready scene.1 item.2

variable (l) in
/-- With this partner, and as long as the store has a property, every item that is not doomed
is answered in a fixed way. -/
def Probes (doomed : γ → Prop) (Ready : γ → τ → Prop) (f : τ → Int × τ) (I : κ → Prop)
    (a : γ → Τ → τ → ω) : Prop :=
  ∀ c t q k, ¬doomed c → Ready c q → I k → ∃ k', l.answer f c t q k = .ok (a c t q, k') ∧ I k'

variable (l) in
/-- A partner shows a question: it is answered unlike the others.  With two kinds of stores,
items of sensitive batches are answered differently. -/
def Shows (sensitive doomed : γ → Prop) (Ready : γ → τ → Prop) (q₀ : τ) : Prop :=
  ∃ f I I' a a', (∃ k, I k) ∧ (∃ k, I' k) ∧ l.Probes doomed Ready f I a ∧
    l.Probes doomed Ready f I' a' ∧
    (∀ c t q, sensitive c → ¬doomed c → Ready c q → a c t q ≠ a' c t q) ∧
    ∀ c t q, ¬sensitive c → ¬doomed c → Ready c q₀ → Ready c q → q ≠ q₀ → a c t q ≠ a c t q₀

variable (l) in
/-- A player whose variables and store show in its answers.  What is read of the head of a
batch does not depend on the variables, and the variables at the start ask for least.  Items of
sensitive batches look at the store; items of doomed batches fail. -/
structure Observable (sensitive doomed : γ → Prop) (Ready : γ → τ → Prop) (R : σ → σ → Prop) :
    Prop where
  steady : ∀ f c t q k, (l.play c t q k).Steady f
  enter_eq : ∀ {s head n c s₁}, l.enter s head n = .ok (c, s₁) →
    ∀ s', ∃ s₁', l.enter s' head n = .ok (c, s₁')
  start_le : ∀ s, R l.start s
  enter_le : ∀ {s s' head n c s₁ s₁'}, R s s' → l.enter s head n = .ok (c, s₁) →
    l.enter s' head n = .ok (c, s₁') → R s₁ s₁'
  load_le : ∀ {s s' c t q' s₁'}, R s s' → l.load s' c t = .ok (q', s₁') →
    ∃ q s₁, l.load s c t = .ok (q, s₁) ∧ R s₁ s₁'
  ready : ∀ {s head n c s₁ s₂ t q s₃}, l.enter s head n = .ok (c, s₁) →
    l.load s₂ c t = .ok (q, s₃) → Ready c q
  quiet : ∀ {c q}, ¬sensitive c → Ready c q → ∀ f t k k',
    (l.answer f c t q k).toOption.map Prod.fst = (l.answer f c t q k').toOption.map Prod.fst
  fails : ∀ {c q}, doomed c → Ready c q → ∀ f t k, (l.answer f c t q k).toOption = none
  shown : ∀ q₀, l.Shows sensitive doomed Ready q₀
  close_inj : ∀ {c as as'}, l.close c as = l.close c as' → as = as'

/-- What becomes of items that are answered in a fixed way. -/
def scene (l : Player σ κ Γ Τ γ τ ε ω ϱ) (a : γ → Τ → τ → ω) (scene : γ × List (Τ × τ)) : ϱ :=
  l.close scene.1 (scene.2.map fun item => a scene.1 item.1 item.2)

/-- A script names every item that was given, in order. -/
theorem scriptItems_map_fst {c : γ} {s s' : σ} {ts : List Τ} {items : List (Τ × τ)}
    (h : (l.scriptItems c s ts).toOption = some (items, s')) : items.map Prod.fst = ts := by
  induction ts generalizing s items with
  | nil =>
      cases h
      rfl
  | cons t ts ih =>
      obtain ⟨q, s₁, rest, -, hrest, rfl⟩ := scriptItems_cons_eq_some.mp h
      rw [List.map_cons, ih hrest]

/-- Batches of a kind are empty in what was read exactly when they are empty. -/
theorem avoids_iff_of_script {P : γ → Prop} {Q : Γ → Prop}
    (hkind : ∀ {s head n c s₁}, l.enter s head n = .ok (c, s₁) → (P c ↔ Q head)) {s s' : σ}
    {bs : List (Batch Γ Τ)} {scenes : List (γ × List (Τ × τ))}
    (h : (l.script s bs).toOption = some (scenes, s')) :
    Avoids P scenes ↔ ∀ b ∈ bs, Q b.head → b.items = [] := by
  induction bs generalizing s scenes with
  | nil =>
      cases h
      exact iff_of_true nofun nofun
  | cons b bs ih =>
      obtain ⟨c, s₁, items, s₂, rest, henter, hitems, hrest, rfl⟩ := script_cons_eq_some.mp h
      have hempty : items = [] ↔ b.items = [] := by
        rw [← scriptItems_map_fst hitems, List.map_eq_nil_iff]
      unfold Avoids at ih ⊢
      rw [List.forall_mem_cons, List.forall_mem_cons, ih hrest, hkind henter, hempty]

/-- Where the probe describes every answer, the items of a batch that is not doomed get those
answers. -/
theorem performItems_probe {doomed : γ → Prop} {Ready : γ → τ → Prop} {f : τ → Int × τ}
    {I : κ → Prop} {a : γ → Τ → τ → ω} (hprobe : l.Probes doomed Ready f I a) {c : γ}
    (hc : ¬doomed c) (items : List (Τ × τ)) (hready : ∀ item ∈ items, Ready c item.2) {k : κ}
    (hk : I k) :
    ∃ k', l.performItems f c k items = .ok (items.map fun item => a c item.1 item.2, k') ∧
      I k' := by
  induction items generalizing k with
  | nil => exact ⟨k, rfl, hk⟩
  | cons item items ih =>
      obtain ⟨k₁, hanswer, hk₁⟩ := hprobe c item.1 item.2 k hc (hready item List.mem_cons_self) hk
      obtain ⟨k₂, hrest, hk₂⟩ := ih (fun i hi => hready i (List.mem_cons_of_mem _ hi)) hk₁
      refine ⟨k₂, ?_, hk₂⟩
      simp only [performItems, hanswer, hrest, Except.map, List.map_cons]

/-- The same for all scenes, by induction on them. -/
theorem perform_probe {doomed : γ → Prop} {Ready : γ → τ → Prop} {f : τ → Int × τ} {I : κ → Prop}
    {a : γ → Τ → τ → ω} (hprobe : l.Probes doomed Ready f I a)
    (scenes : List (γ × List (Τ × τ))) (hspared : Avoids doomed scenes)
    (hready : AllRead Ready scenes) {k : κ} (hk : I k) :
    ∃ k', l.perform f k scenes = .ok (scenes.map (l.scene a), k') ∧ I k' := by
  induction scenes generalizing k with
  | nil => exact ⟨k, rfl, hk⟩
  | cons scene scenes ih =>
      have hitems : ∃ k', l.performItems f scene.1 k scene.2 =
          .ok (scene.2.map fun item => a scene.1 item.1 item.2, k') ∧ I k' := by
        by_cases hc : doomed scene.1
        · rw [hspared scene List.mem_cons_self hc]
          exact ⟨k, rfl, hk⟩
        · exact performItems_probe hprobe hc _ (hready scene List.mem_cons_self) hk
      obtain ⟨k₁, hitems, hk₁⟩ := hitems
      obtain ⟨k₂, hrest, hk₂⟩ := ih (fun x hx => hspared x (List.mem_cons_of_mem _ hx))
        (fun x hx => hready x (List.mem_cons_of_mem _ hx)) hk₁
      refine ⟨k₂, ?_, hk₂⟩
      simp only [perform, hitems, hrest, Except.map, List.map_cons]
      rfl

section Observed

variable {sensitive doomed : γ → Prop} {Ready : γ → τ → Prop} {R : σ → σ → Prop}
  (hl : l.Observable sensitive doomed Ready R)
include hl

/-- In a batch that is not sensitive the answers do not depend on the memory. -/
theorem performItems_quiet {c : γ} (hc : ¬sensitive c) (f : τ → Int × τ) (items : List (Τ × τ))
    (hready : ∀ item ∈ items, Ready c item.2) (k k' : κ) :
    (l.performItems f c k items).toOption.map Prod.fst =
      (l.performItems f c k' items).toOption.map Prod.fst := by
  induction items generalizing k k' with
  | nil => rfl
  | cons item items ih =>
      have hanswer := hl.quiet hc (hready item List.mem_cons_self) f item.1 k k'
      rw [performItems_cons, performItems_cons, Option.map_bind, Option.map_bind]
      refine bind_eq_of_fst hanswer fun a k₁ k₁' => ?_
      have hrest := congrArg (Option.map (a :: ·))
        (ih (fun i hi => hready i (List.mem_cons_of_mem _ hi)) k₁ k₁')
      rw [Option.map_map, Option.map_map] at hrest
      rw [Function.comp_apply, Function.comp_apply, Option.map_map, Option.map_map]
      exact hrest

/-- Nor do they in a run that avoids the sensitive batches. -/
theorem perform_quiet (f : τ → Int × τ) (scenes : List (γ × List (Τ × τ)))
    (havoids : Avoids sensitive scenes) (hready : AllRead Ready scenes) (k k' : κ) :
    (l.perform f k scenes).toOption.map Prod.fst =
      (l.perform f k' scenes).toOption.map Prod.fst := by
  induction scenes generalizing k k' with
  | nil => rfl
  | cons scene scenes ih =>
      have hitems : (l.performItems f scene.1 k scene.2).toOption.map Prod.fst =
          (l.performItems f scene.1 k' scene.2).toOption.map Prod.fst := by
        by_cases hc : sensitive scene.1
        · rw [havoids scene List.mem_cons_self hc]
          rfl
        · exact performItems_quiet hl hc f scene.2 (hready scene List.mem_cons_self) k k'
      rw [perform_cons, perform_cons, Option.map_bind, Option.map_bind]
      refine bind_eq_of_fst hitems fun as k₁ k₁' => ?_
      have hrest := congrArg (Option.map (l.close scene.1 as :: ·))
        (ih (fun x hx => havoids x (List.mem_cons_of_mem _ hx))
          (fun x hx => hready x (List.mem_cons_of_mem _ hx)) k₁ k₁')
      rw [Option.map_map, Option.map_map] at hrest
      rw [Function.comp_apply, Function.comp_apply, Option.map_map, Option.map_map]
      exact hrest

/-- A doomed batch that has items is not answered. -/
theorem performItems_doomed {c : γ} (hc : doomed c) (f : τ → Int × τ) {items : List (Τ × τ)}
    (hitems : items ≠ []) (hready : ∀ item ∈ items, Ready c item.2) (k : κ) :
    (l.performItems f c k items).toOption = none := by
  cases items with
  | nil => exact absurd rfl hitems
  | cons item items =>
      rw [performItems_cons, hl.fails hc (hready item List.mem_cons_self)]
      rfl

/-- A script with doomed items is not performed to the end. -/
theorem perform_doomed (f : τ → Int × τ) {scenes : List (γ × List (Τ × τ))}
    (hready : AllRead Ready scenes) (h : ¬Avoids doomed scenes) (k : κ) :
    (l.perform f k scenes).toOption = none := by
  induction scenes generalizing k with
  | nil => exact absurd nofun h
  | cons scene scenes ih =>
      rw [perform_cons]
      by_cases hhere : doomed scene.1 ∧ scene.2 ≠ []
      · rw [performItems_doomed hl hhere.1 f hhere.2 (hready scene List.mem_cons_self)]
        rfl
      · have hrest : ¬Avoids doomed scenes := by
          intro hrest
          refine h (List.forall_mem_cons.mpr ⟨fun hdoomed => ?_, hrest⟩)
          by_contra hitems
          exact hhere ⟨hdoomed, hitems⟩
        rw [Option.bind_eq_none_iff]
        intro out _
        rw [ih (fun x hx => hready x (List.mem_cons_of_mem _ hx)) hrest]
        rfl

/-! ### Two readings of the same batches -/

/-- From a related state what was read from the later one is read too. -/
theorem scriptItems_le {c : γ} {s s' s₁' : σ} {ts : List Τ} {items' : List (Τ × τ)}
    (hs : R s s') (h : (l.scriptItems c s' ts).toOption = some (items', s₁')) :
    ∃ items s₁, (l.scriptItems c s ts).toOption = some (items, s₁) ∧ R s₁ s₁' := by
  induction ts generalizing s s' items' with
  | nil =>
      cases h
      exact ⟨[], s, rfl, hs⟩
  | cons t ts ih =>
      obtain ⟨q', s₂', rest, hload, hrest, -⟩ := scriptItems_cons_eq_some.mp h
      obtain ⟨q, s₂, hload', hs₂⟩ := hl.load_le hs hload
      obtain ⟨items, s₃, hitems, hs₃⟩ := ih hs₂ hrest
      exact ⟨_, s₃, scriptItems_cons_eq_some.mpr ⟨q, s₂, items, hload', hitems, rfl⟩, hs₃⟩

/-- What can be read with some variables can be read with less demanding ones. -/
theorem script_le {s s' s₁' : σ} {bs : List (Batch Γ Τ)} {scenes' : List (γ × List (Τ × τ))}
    (hs : R s s') (h : (l.script s' bs).toOption = some (scenes', s₁')) :
    ∃ scenes s₁, (l.script s bs).toOption = some (scenes, s₁) ∧ R s₁ s₁' := by
  induction bs generalizing s s' scenes' with
  | nil =>
      cases h
      exact ⟨[], s, rfl, hs⟩
  | cons b bs ih =>
      obtain ⟨c, s₂', items', s₃', rest, henter, hitems, hrest, -⟩ := script_cons_eq_some.mp h
      obtain ⟨s₂, henter'⟩ := hl.enter_eq henter s
      have hs₂ := hl.enter_le hs henter' henter
      obtain ⟨items, s₃, hitems', hs₃⟩ := scriptItems_le hl hs₂ hitems
      obtain ⟨scenes, s₄, hscenes, hs₄⟩ := ih hs₃ hrest
      exact ⟨_, s₄, script_cons_eq_some.mpr
        ⟨c, s₂, items, s₃, scenes, henter', hitems', hscenes, rfl⟩, hs₄⟩

omit hl in
/-- Two readings of the same items differ in the questions only. -/
theorem scriptItems_shape {c : γ} {s s' s₁ s₁' : σ} {ts : List Τ} {items items' : List (Τ × τ)}
    (h : (l.scriptItems c s ts).toOption = some (items, s₁))
    (h' : (l.scriptItems c s' ts).toOption = some (items', s₁')) :
    List.Forall₂ (fun item item' => item.1 = item'.1) items items' := by
  induction ts generalizing s s' items items' with
  | nil =>
      cases h
      cases h'
      exact .nil
  | cons t ts ih =>
      obtain ⟨q, s₂, rest, -, hrest, rfl⟩ := scriptItems_cons_eq_some.mp h
      obtain ⟨q', s₂', rest', -, hrest', rfl⟩ := scriptItems_cons_eq_some.mp h'
      exact .cons rfl (ih hrest hrest')

/-- Two readings of the same batches differ in the questions only. -/
theorem script_shape {s s' s₁ s₁' : σ} {bs : List (Batch Γ Τ)}
    {scenes scenes' : List (γ × List (Τ × τ))} (h : (l.script s bs).toOption = some (scenes, s₁))
    (h' : (l.script s' bs).toOption = some (scenes', s₁')) :
    List.Forall₂ (fun x y => x.1 = y.1 ∧
      List.Forall₂ (fun item item' => item.1 = item'.1) x.2 y.2) scenes scenes' := by
  induction bs generalizing s s' scenes scenes' with
  | nil =>
      cases h
      cases h'
      exact .nil
  | cons b bs ih =>
      obtain ⟨c, s₂, items, s₃, rest, henter, hitems, hrest, rfl⟩ := script_cons_eq_some.mp h
      obtain ⟨c', s₂', items', s₃', rest', henter', hitems', hrest', rfl⟩ :=
        script_cons_eq_some.mp h'
      obtain ⟨s₅, hsame⟩ := hl.enter_eq henter s'
      rw [henter'] at hsame
      cases hsame
      exact .cons ⟨rfl, scriptItems_shape hitems hitems'⟩ (ih hrest hrest')

omit hl in
/-- Whether a run avoids a kind of batch depends on the heads only. -/
theorem avoids_of_shape {P : γ → Prop} {scenes scenes' : List (γ × List (Τ × τ))}
    (h : List.Forall₂ (fun x y => x.1 = y.1 ∧
      List.Forall₂ (fun item item' => item.1 = item'.1) x.2 y.2) scenes scenes')
    (havoids : Avoids P scenes) : Avoids P scenes' := by
  induction h with
  | nil => exact nofun
  | cons hscene _ ih =>
      obtain ⟨hhead, hrest⟩ := List.forall_mem_cons.mp havoids
      refine List.forall_mem_cons.mpr ⟨fun hP => ?_, ih hrest⟩
      rw [← hscene.1] at hP
      have hlength := hscene.2.length_eq
      rw [hhead hP] at hlength
      exact List.length_eq_zero_iff.mp hlength.symm

/-- Every item of a batch that was read is ready for its answer. -/
theorem scriptItems_ready {s₀ s₁ : σ} {head : Γ} {n : Nat} {c : γ}
    (henter : l.enter s₀ head n = .ok (c, s₁)) {s s' : σ} {ts : List Τ} {items : List (Τ × τ)}
    (h : (l.scriptItems c s ts).toOption = some (items, s')) :
    ∀ item ∈ items, Ready c item.2 := by
  induction ts generalizing s items with
  | nil =>
      cases h
      exact nofun
  | cons t ts ih =>
      obtain ⟨q, s₂, rest, hload, hrest, rfl⟩ := scriptItems_cons_eq_some.mp h
      exact List.forall_mem_cons.mpr ⟨hl.ready henter hload, ih hrest⟩

/-- Every item of a script is ready for its answer. -/
theorem script_ready {s s' : σ} {bs : List (Batch Γ Τ)} {scenes : List (γ × List (Τ × τ))}
    (h : (l.script s bs).toOption = some (scenes, s')) : AllRead Ready scenes := by
  induction bs generalizing s scenes with
  | nil =>
      cases h
      exact nofun
  | cons b bs ih =>
      obtain ⟨c, s₂, items, s₃, rest, henter, hitems, hrest, rfl⟩ := script_cons_eq_some.mp h
      exact List.forall_mem_cons.mpr ⟨scriptItems_ready hl henter hitems, ih hrest⟩

/-! ### When the parts do not feel each other -/

/-- What becomes of batches in a row, and apart. -/
theorem result_append_toOption (f : τ → Int × τ) (k : κ) (bs bs' : List (Batch Γ Τ)) :
    ((l.worker k).result (.memoryless f) (bs ++ bs')).toOption =
      (l.script l.start bs).toOption.bind fun out =>
        (l.script out.2 bs').toOption.bind fun out' =>
          (l.perform f k out.1).toOption.bind fun r =>
            (l.perform f r.2 out'.1).toOption.map fun r' => r.1 ++ r'.1 := by
  rw [result_toOption (hl.steady f), script_append, Option.bind_assoc]
  congr 1
  funext out
  rw [Option.bind_map]
  congr 1
  funext out'
  rw [Function.comp_apply, perform_append, Option.map_bind]
  congr 1
  funext r
  exact Option.map_map ..

/-- Parts that do not look at the store, and the second of which is read as it would be
alone, fare as they would apart. -/
theorem parted_of_quiet {bs bs' : List (Batch Γ Τ)} {scenes scenes' : List (γ × List (Τ × τ))}
    {s s₁ s₂ : σ} (h : (l.script l.start bs).toOption = some (scenes, s))
    (h' : (l.script l.start bs').toOption = some (scenes', s₁))
    (hsame : (l.script s bs').toOption = some (scenes', s₂)) (hquiet : Avoids sensitive scenes)
    (hquiet' : Avoids sensitive scenes') (f : τ → Int × τ) (k k₁ k₂ : κ) :
    Parted ((l.worker k).result (.memoryless f) (bs ++ bs')).toOption
      ((l.worker k₁).result (.memoryless f) bs).toOption
      ((l.worker k₂).result (.memoryless f) bs').toOption := by
  unfold Parted
  rw [result_append_toOption hl, result_toOption (hl.steady f), result_toOption (hl.steady f), h,
    h']
  simp only [Option.bind_some, hsame]
  rw [Option.bind_map]
  have hfirst := perform_quiet hl f scenes hquiet (script_ready hl h) k k₁
  refine bind_eq_of_fst hfirst fun rs k₃ _ => ?_
  have hrest := congrArg (Option.map (rs ++ ·))
    (perform_quiet hl f scenes' hquiet' (script_ready hl h') k₃ k₂)
  rw [Option.map_map] at hrest
  exact hrest

/-- When the first part cannot be read or is doomed, or so the second, then so is the whole. -/
theorem parted_of_none {bs bs' : List (Batch Γ Τ)}
    (h : ¬∃ scenes s scenes' s', (l.script l.start bs).toOption = some (scenes, s) ∧
      (l.script l.start bs').toOption = some (scenes', s') ∧ Avoids doomed scenes ∧
      Avoids doomed scenes') (f : τ → Int × τ) (k k₁ k₂ : κ) :
    Parted ((l.worker k).result (.memoryless f) (bs ++ bs')).toOption
      ((l.worker k₁).result (.memoryless f) bs).toOption
      ((l.worker k₂).result (.memoryless f) bs').toOption := by
  unfold Parted
  rw [result_append_toOption hl, result_toOption (hl.steady f), result_toOption (hl.steady f)]
  rcases hfirst : (l.script l.start bs).toOption with _ | ⟨scenes, s⟩
  · rfl
  simp only [Option.bind_some]
  by_cases hspared : Avoids doomed scenes
  swap
  · have hnone := perform_doomed hl f (script_ready hl hfirst) hspared
    rw [hnone k, hnone k₁]
    exact Option.bind_eq_none_iff.mpr fun _ _ => rfl
  -- The second part fails alone, so it fails after the first.
  have hwhole : ((l.script s bs').toOption.bind fun out' =>
      (l.perform f k scenes).toOption.bind fun r =>
        (l.perform f r.2 out'.1).toOption.map fun r' => r.1 ++ r'.1) = none := by
    refine Option.bind_eq_none_iff.mpr fun ⟨scenes'', s''⟩ hread => ?_
    refine Option.bind_eq_none_iff.mpr fun r _ => Option.map_eq_none_iff.mpr ?_
    obtain ⟨scenes', s', hsecond, -⟩ := script_le hl (hl.start_le s) hread
    refine perform_doomed hl f (script_ready hl hread) (fun hspared' => ?_) _
    exact h ⟨scenes, s, scenes', s', hfirst, hsecond, hspared,
      avoids_of_shape (script_shape hl hread hsecond) hspared'⟩
  have hsecond : ((l.script l.start bs').toOption.bind fun out =>
      (l.perform f k₂ out.1).toOption.map Prod.fst) = none := by
    refine Option.bind_eq_none_iff.mpr fun ⟨scenes', s'⟩ hread => Option.map_eq_none_iff.mpr ?_
    exact perform_doomed hl f (script_ready hl hread)
      (fun hspared' => h ⟨scenes, s, scenes', s', hfirst, hread, hspared, hspared'⟩) k₂
  rw [hwhole, hsecond]
  exact (Option.bind_eq_none_iff.mpr fun _ _ => rfl).symm

/-- Answers that differ on sensitive items show them. -/
theorem avoids_of_map_eq {a a' : γ → Τ → τ → ω} {scenes : List (γ × List (Τ × τ))}
    (hdiffer : ∀ c t q, sensitive c → ¬doomed c → Ready c q → a c t q ≠ a' c t q)
    (hspared : Avoids doomed scenes) (hready : AllRead Ready scenes)
    (h : scenes.map (l.scene a) = scenes.map (l.scene a')) : Avoids sensitive scenes := by
  intro scene hmem hsensitive
  by_contra hitems
  obtain ⟨item, hitem⟩ := List.exists_mem_of_ne_nil _ hitems
  have hdoomed : ¬doomed scene.1 := fun hdoomed => hitems (hspared scene hmem hdoomed)
  have hanswers := hl.close_inj (List.map_inj_left.mp h scene hmem)
  exact hdiffer _ _ _ hsensitive hdoomed (hready scene hmem item hitem)
    (List.map_inj_left.mp hanswers item hitem)

omit hl in
/-- Items that every probe answers alike are the same. -/
theorem items_eq_of_probes {c : γ} {items items' : List (Τ × τ)}
    (hshape : List.Forall₂ (fun item item' => item.1 = item'.1) items items')
    (hprobes : ∀ q₀, ∃ a : γ → Τ → τ → ω, (∀ t q, Ready c q₀ → Ready c q → q ≠ q₀ →
        a c t q ≠ a c t q₀) ∧ (items.map fun item => a c item.1 item.2) =
          items'.map fun item => a c item.1 item.2)
    (hready : ∀ item ∈ items, Ready c item.2) (hready' : ∀ item ∈ items', Ready c item.2) :
    items = items' := by
  induction hshape with
  | nil => rfl
  | @cons item item' items items' hitem _ ih =>
      have hquestion : item.2 = item'.2 := by
        obtain ⟨a, hdiffer, hsame⟩ := hprobes item'.2
        by_contra hne
        refine hdiffer item.1 item.2 (hready' item' List.mem_cons_self)
          (hready item List.mem_cons_self) hne ?_
        have hfirst : a c item.1 item.2 = a c item'.1 item'.2 := (List.cons.inj hsame).1
        rwa [← hitem] at hfirst
      have hrest := ih (fun q₀ => ?_) (fun i hi => hready i (List.mem_cons_of_mem _ hi))
        fun i hi => hready' i (List.mem_cons_of_mem _ hi)
      · rw [Prod.ext hitem hquestion, hrest]
      · obtain ⟨a, hdiffer, hsame⟩ := hprobes q₀
        exact ⟨a, hdiffer, (List.cons.inj hsame).2⟩

/-- Scripts that every probe answers alike are the same. -/
theorem scenes_eq_of_probes {scenes scenes' : List (γ × List (Τ × τ))}
    (hshape : List.Forall₂ (fun x y => x.1 = y.1 ∧
      List.Forall₂ (fun item item' => item.1 = item'.1) x.2 y.2) scenes scenes')
    (hprobes : ∀ q₀, ∃ a : γ → Τ → τ → ω,
      (∀ c t q, ¬sensitive c → ¬doomed c → Ready c q₀ → Ready c q → q ≠ q₀ →
        a c t q ≠ a c t q₀) ∧ scenes.map (l.scene a) = scenes'.map (l.scene a))
    (hquiet : Avoids sensitive scenes) (hspared : Avoids doomed scenes)
    (hready : AllRead Ready scenes) (hready' : AllRead Ready scenes') : scenes = scenes' := by
  induction hshape with
  | nil => rfl
  | @cons x y scenes scenes' hxy _ ih =>
      obtain ⟨c, items⟩ := x
      obtain ⟨c', items'⟩ := y
      obtain ⟨hc, hitems⟩ := hxy
      obtain rfl : c = c' := hc
      have hfirst : items = items' := by
        by_cases hnil : items = []
        · have hlength := hitems.length_eq
          rw [hnil] at hlength ⊢
          exact (List.length_eq_zero_iff.mp hlength.symm).symm
        have hsensitive : ¬sensitive c := fun h => hnil (hquiet _ List.mem_cons_self h)
        have hdoomed : ¬doomed c := fun h => hnil (hspared _ List.mem_cons_self h)
        have heach : ∀ q₀, ∃ a : γ → Τ → τ → ω, (∀ t q, Ready c q₀ → Ready c q → q ≠ q₀ →
            a c t q ≠ a c t q₀) ∧ (items.map fun item => a c item.1 item.2) =
              items'.map fun item => a c item.1 item.2 := by
          intro q₀
          obtain ⟨a, hdiffer, hsame⟩ := hprobes q₀
          exact ⟨a, fun t q => hdiffer c t q hsensitive hdoomed,
            hl.close_inj (List.cons.inj hsame).1⟩
        exact items_eq_of_probes hitems heach (hready _ List.mem_cons_self)
          (hready' _ List.mem_cons_self)
      have hrest := ih (fun q₀ => ?_) (fun x hx => hquiet x (List.mem_cons_of_mem _ hx))
        (fun x hx => hspared x (List.mem_cons_of_mem _ hx))
        (fun x hx => hready x (List.mem_cons_of_mem _ hx))
        fun x hx => hready' x (List.mem_cons_of_mem _ hx)
      · rw [hfirst, hrest]
      · obtain ⟨a, hdiffer, hsame⟩ := hprobes q₀
        exact ⟨a, hdiffer, (List.cons.inj hsame).2⟩

/-- A probe shows what becomes of batches in a row, and what becomes of them apart. -/
theorem map_eq_of_parted {f : τ → Int × τ} {I I₁ I₂ : κ → Prop} {a a₁ a₂ : γ → Τ → τ → ω}
    (hprobe : l.Probes doomed Ready f I a) (hprobe₁ : l.Probes doomed Ready f I₁ a₁)
    (hprobe₂ : l.Probes doomed Ready f I₂ a₂) {k k₁ k₂ : κ} (hk : I k) (hk₁ : I₁ k₁) (hk₂ : I₂ k₂)
    {bs bs' : List (Batch Γ Τ)} {scenes scenes' : List (γ × List (Τ × τ))} {s s' : σ}
    (h : (l.script l.start bs).toOption = some (scenes, s))
    (h' : (l.script l.start bs').toOption = some (scenes', s'))
    (hspared : Avoids doomed scenes) (hspared' : Avoids doomed scenes')
    (hparted : Parted ((l.worker k).result (.memoryless f) (bs ++ bs')).toOption
      ((l.worker k₁).result (.memoryless f) bs).toOption
      ((l.worker k₂).result (.memoryless f) bs').toOption) :
    ∃ scenes'' s'', (l.script s bs').toOption = some (scenes'', s'') ∧
      scenes.map (l.scene a) = scenes.map (l.scene a₁) ∧
      scenes''.map (l.scene a) = scenes'.map (l.scene a₂) := by
  have hready := script_ready hl h
  obtain ⟨k₃, hwhole, hk₃⟩ := perform_probe hprobe scenes hspared hready hk
  obtain ⟨k₄, hfirst, -⟩ := perform_probe hprobe₁ scenes hspared hready hk₁
  obtain ⟨k₅, hsecond, -⟩ := perform_probe hprobe₂ scenes' hspared' (script_ready hl h') hk₂
  unfold Parted at hparted
  rw [result_append_toOption hl, result_toOption (hl.steady f), result_toOption (hl.steady f), h,
    h'] at hparted
  simp only [Option.bind_some, hwhole, hfirst, hsecond, toOption_ok, Option.map_some] at hparted
  obtain ⟨⟨scenes'', s''⟩, hread, hparted⟩ := Option.bind_eq_some_iff.mp hparted
  have hspared'' := avoids_of_shape (script_shape hl h' hread) hspared'
  obtain ⟨k₆, hrest, -⟩ := perform_probe hprobe scenes'' hspared''
    (script_ready hl hread) hk₃
  simp only [hrest, toOption_ok, Option.map_some, Option.some.injEq] at hparted
  refine ⟨scenes'', s'', hread, ?_⟩
  exact List.append_inj hparted (by simp)

/-- Batches in a row fare as they would apart, whatever the store holds and whatever a partner
without a memory replies, exactly when, if both parts can be read and are not doomed, no item
looks at the store and the second part is read after the first as it is alone. -/
theorem parted_iff [Nonempty τ] (bs bs' : List (Batch Γ Τ)) :
    (∀ f k k₁ k₂, Parted ((l.worker k).result (.memoryless f) (bs ++ bs')).toOption
      ((l.worker k₁).result (.memoryless f) bs).toOption
      ((l.worker k₂).result (.memoryless f) bs').toOption) ↔
    ∀ scenes s scenes' s', (l.script l.start bs).toOption = some (scenes, s) →
      (l.script l.start bs').toOption = some (scenes', s') → Avoids doomed scenes →
      Avoids doomed scenes' → Avoids sensitive scenes ∧ Avoids sensitive scenes' ∧
        ∃ s'', (l.script s bs').toOption = some (scenes', s'') := by
  constructor
  · intro hparted scenes s scenes' s' h h' hspared hspared'
    obtain ⟨q₀⟩ := ‹Nonempty τ›
    obtain ⟨f, I, I', a, a', ⟨k, hk⟩, ⟨k', hk'⟩, hprobe, hprobe', hdiffer, -⟩ := hl.shown q₀
    -- Another store for the first part, and another one for the second.
    obtain ⟨scenes'', s'', hread, hfirst, -⟩ := map_eq_of_parted hl hprobe hprobe' hprobe hk hk' hk
      h h' hspared hspared' (hparted f k k' k)
    have hsame : ∀ {f I I₂ a a₂ k k₂}, l.Probes doomed Ready f I a →
        l.Probes doomed Ready f I₂ a₂ → I k → I₂ k₂ →
        scenes''.map (l.scene a) = scenes'.map (l.scene a₂) := by
      intro f I I₂ a a₂ k k₂ hp hp₂ hk hk₂
      obtain ⟨scenes₃, s₃, hread₃, -, hmap⟩ := map_eq_of_parted hl hp hp hp₂ hk hk hk₂ h h' hspared
        hspared' (hparted f k k k₂)
      rw [hread] at hread₃
      cases hread₃
      exact hmap
    have hquiet := avoids_of_map_eq hl hdiffer hspared (script_ready hl h) hfirst
    have hquiet' : Avoids sensitive scenes' := by
      refine avoids_of_map_eq hl hdiffer hspared' (script_ready hl h') ?_
      rw [← hsame hprobe hprobe hk hk, hsame hprobe hprobe' hk hk']
    have hshape := script_shape hl h' hread
    refine ⟨hquiet, hquiet', s'', ?_⟩
    rw [hread, scenes_eq_of_probes hl (script_shape hl hread h') (fun q => ?_)
      (avoids_of_shape hshape hquiet') (avoids_of_shape hshape hspared') (script_ready hl hread)
      (script_ready hl h')]
    obtain ⟨f, I, I', a, a', ⟨k, hk⟩, -, hprobe, -, -, hdiffer⟩ := hl.shown q
    exact ⟨a, hdiffer, hsame hprobe hprobe hk hk⟩
  · intro hall f k k₁ k₂
    by_cases h : ∃ scenes s scenes' s', (l.script l.start bs).toOption = some (scenes, s) ∧
      (l.script l.start bs').toOption = some (scenes', s') ∧ Avoids doomed scenes ∧
      Avoids doomed scenes'
    · obtain ⟨scenes, s, scenes', s', h, h', hspared, hspared'⟩ := h
      obtain ⟨hquiet, hquiet', s'', hsame⟩ := hall scenes s scenes' s' h h' hspared hspared'
      exact parted_of_quiet hl h h' hsame hquiet hquiet' f k k₁ k₂
    · exact parted_of_none hl h f k k₁ k₂

end Observed

end Player
