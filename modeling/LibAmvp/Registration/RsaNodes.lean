import LibAmvp.Lib.FirstKeys
import LibAmvp.Registration.Signatures

/-!
# Nodes of RSA capabilities

The setters for RSA keep a list of nodes, one for each mode or signature type, and in every node
a list of moduli.  The first node is there from the start and waits for the first mode; it also
holds the mode of the public exponent and the exponent.

Main results:

- Theorems {lit}`RunStores.claim` and {lit}`RunStores.modify`: a mode or type is set, and what is
  stored for it changes.
- Theorem {lit}`RunStores.setExponent`: the exponent is set.
-/

namespace LibAmvp

open Guard Keyed

/-! ## Runs of calls -/

/-- Calls that were all successful and met a condition on the state before them, and what they
leave. -/
inductive AcceptedRun {σ γ : Type} (setter : γ → Setter σ) (meets : σ → γ → Prop) (start : σ) :
    List γ → σ → Prop
  | start : AcceptedRun setter meets start [] start
  | call {calls : List γ} {s s' : σ} (before : AcceptedRun setter meets start calls s) (c : γ)
      (condition : meets s c) (accepted : setter c s = .ok (.success, s')) :
      AcceptedRun setter meets start (calls ++ [c]) s'

theorem AcceptedRun.meets {σ γ : Type} {setter : γ → Setter σ} {meets : σ → γ → Prop}
    {start s : σ} {calls : List γ} (h : AcceptedRun setter meets start calls s) :
    ∀ c ∈ calls, ∃ before, meets before c := by
  induction h with
  | start => exact fun c hc => absurd hc List.not_mem_nil
  | call before c condition accepted ih =>
    intro d hd
    rcases List.mem_append.mp hd with hd | hd
    · exact ih d hd
    · rw [List.mem_singleton.mp hd]
      exact ⟨_, condition⟩

/-! ## Lists of nodes -/

theorem withModulo_withModulo_id (mod : Int) (f : RsaModeCaps → RsaModeCaps)
    (caps : List RsaModeCaps) :
    withModulo mod f (withModulo mod id caps) = withModulo mod f caps := by
  refine upsert_upsert ?_ (fun _ => rfl) caps
  exact beq_self_eq_true mod

/-- How a node is read: what it holds for its mode or type, what the first node holds for all of
them, and what a vacant node and the node of a mode or type hold. -/
structure NodeForm (ν γ : Type) where
  content : ν → γ
  header : ν → Int × Option String
  blank : γ
  entry : Int → List RsaModeCaps → γ

/-- A list of nodes holds the modes or types that were set, each with its moduli, and its first
node holds the mode of the public exponent and the exponent. -/
structure NodesHold {ν γ : Type} (form : NodeForm ν γ) (keys : List Int)
    (moduli : Int → List RsaModeCaps) (exponent : Int × Option String) (nodes : List ν) :
    Prop where
  contents : nodes.map form.content =
    if keys = [] then [form.blank] else keys.map fun k => form.entry k (moduli k)
  first : nodes.head?.map form.header = some exponent
  nodup : keys.Nodup

theorem claimNode_of_full {ν : Type} {vacant taken : ν → Bool} {fresh : ν} {set : ν → ν}
    {nodes nodes' : List ν} (hfull : ∀ x ∈ nodes, vacant x = false)
    (h : claimNode vacant taken fresh set nodes = some nodes') :
    (∀ x ∈ nodes, taken x = false) ∧ nodes' = nodes ++ [set fresh] := by
  induction nodes generalizing nodes' with
  | nil =>
    cases h
    exact ⟨fun x hx => absurd hx List.not_mem_nil, rfl⟩
  | cons x nodes ih =>
    rw [claimNode, if_neg (by rw [hfull x List.mem_cons_self]; decide)] at h
    by_cases hx : taken x
    · rw [if_pos hx] at h
      cases h
    · rw [if_neg hx] at h
      obtain ⟨rest, hrest, rfl⟩ := Option.map_eq_some_iff.mp h
      obtain ⟨htaken, rfl⟩ := ih (fun y hy => hfull y (List.mem_cons_of_mem _ hy)) hrest
      refine ⟨fun y hy => ?_, rfl⟩
      rcases List.mem_cons.mp hy with rfl | hy
      · exact Bool.eq_false_iff.mpr hx
      · exact htaken y hy

theorem claimOr_accepted {ν : Type} {vacant taken : ν → Bool} {fresh : ν} {set : ν → ν}
    {nodes nodes' : List ν} (h : claimOr vacant taken fresh set nodes = .ok (.success, nodes')) :
    claimNode vacant taken fresh set nodes = some nodes' := by
  unfold claimOr Op.inspect at h
  cases hclaim : claimNode vacant taken fresh set nodes with
  | none =>
    simp only [hclaim] at h
    cases h
  | some claimed =>
    simp only [hclaim] at h
    cases h
    rfl

namespace NodesHold

variable {ν γ : Type} {form : NodeForm ν γ} {keys : List Int} {moduli : Int → List RsaModeCaps}
  {exponent : Int × Option String} {nodes nodes' : List ν}
  (h : NodesHold form keys moduli exponent nodes)

include h

/-- A mode or type that is set comes last. -/
theorem claim {vacant taken : ν → Bool} {fresh : ν} {set : ν → ν} {value : Int}
    (hclaim : claimOr vacant taken fresh set nodes = .ok (.success, nodes'))
    (hblank : ∀ x, form.content x = form.blank → vacant x = true)
    (hfull : ∀ x, ∀ k ∈ keys, form.content x = form.entry k (moduli k) →
      vacant x = false ∧ (taken x = false → k ≠ value))
    (hfresh : form.content fresh = form.blank)
    (hset : ∀ x, form.content x = form.blank → form.content (set x) = form.entry value [])
    (hheader : ∀ x, form.header (set x) = form.header x)
    (hnew : value ∉ keys → moduli value = []) :
    NodesHold form (keys ++ [value]) moduli exponent nodes' := by
  have hclaimed := claimOr_accepted hclaim
  have hcontents := h.contents
  have hfirst := h.first
  by_cases hkeys : keys = []
  · subst hkeys
    rw [if_pos rfl] at hcontents
    obtain ⟨x, rfl, hx⟩ := List.map_eq_singleton_iff.mp hcontents
    rw [claimNode, if_pos (hblank x hx)] at hclaimed
    cases hclaimed
    refine ⟨?_, ?_, List.nodup_singleton value⟩
    · rw [List.nil_append, if_neg (List.cons_ne_nil _ _), List.map_singleton, List.map_singleton,
        hset x hx, hnew List.not_mem_nil]
    · rw [← hfirst, List.head?_cons, List.head?_cons, Option.map_some, Option.map_some, hheader]
  · rw [if_neg hkeys] at hcontents
    have hnodes : ∀ x ∈ nodes, ∃ k ∈ keys, form.content x = form.entry k (moduli k) := by
      intro x hx
      have hmem : form.content x ∈ nodes.map form.content := List.mem_map.mpr ⟨x, hx, rfl⟩
      rw [hcontents] at hmem
      obtain ⟨k, hk, hkx⟩ := List.mem_map.mp hmem
      exact ⟨k, hk, hkx.symm⟩
    obtain ⟨htaken, rfl⟩ := claimNode_of_full (fun x hx => by
      obtain ⟨k, hk, hkx⟩ := hnodes x hx
      exact (hfull x k hk hkx).1) hclaimed
    have hvalue : value ∉ keys := by
      intro hmem
      have hentry : form.entry value (moduli value) ∈ nodes.map form.content := by
        rw [hcontents]
        exact List.mem_map.mpr ⟨value, hmem, rfl⟩
      obtain ⟨x, hx, hvx⟩ := List.mem_map.mp hentry
      exact (hfull x value hmem hvx).2 (htaken x hx) rfl
    refine ⟨?_, ?_, ?_⟩
    · rw [if_neg (by simp), List.map_append, List.map_append, hcontents, List.map_singleton,
        List.map_singleton, hset fresh hfresh, hnew hvalue]
    · obtain ⟨x, rest, rfl⟩ : ∃ x rest, nodes = x :: rest := by
        cases nodes with
        | nil => cases hfirst
        | cons x rest => exact ⟨x, rest, rfl⟩
      exact hfirst
    · refine h.nodup.append (List.nodup_singleton value) fun k hk hk' => hvalue ?_
      rw [← List.mem_singleton.mp hk']
      exact hk

/-- What is done with the first node leaves the modes and types alone. -/
theorem head {missing : Trap} {op : Setter ν}
    (hop : Op.atHead missing op nodes = .ok (.success, nodes'))
    (hcontent : ∀ x x', op x = .ok (.success, x') → form.content x' = form.content x) :
    ∃ x x', nodes.head? = some x ∧ form.header x = exponent ∧ op x = .ok (.success, x') ∧
      NodesHold form keys moduli (form.header x') nodes' := by
  cases nodes with
  | nil => cases hop
  | cons x rest =>
    rw [Op.atHead] at hop
    cases hout : op x with
    | error t =>
      rw [hout] at hop
      cases hop
    | ok out =>
      obtain ⟨r, x'⟩ := out
      rw [hout] at hop
      cases hop
      have hfirst : form.header x = exponent := Option.some.inj h.first
      refine ⟨x, x', rfl, hfirst, hout, ?_, rfl, h.nodup⟩
      rw [← h.contents, List.map_cons, List.map_cons, hcontent x x' hout]

/-- An operation on the node of a mode or type changes its moduli. -/
theorem modify {p : ν → Bool} {op : Setter ν} {k : Int} {missing : AmvpResult}
    (hmissing : AmvpResult.success ≠ missing)
    (hop : Op.atFirst p missing op nodes = .ok (.success, nodes'))
    (hblank : ∀ x, form.content x = form.blank → p x = false)
    (hp : ∀ x j, form.content x = form.entry j (moduli j) → (p x = true ↔ j = k))
    (hheader : ∀ x x', op x = .ok (.success, x') → form.header x' = form.header x)
    {moduli' : Int → List RsaModeCaps}
    (hk : ∀ x x', form.content x = form.entry k (moduli k) → op x = .ok (.success, x') →
      form.content x' = form.entry k (moduli' k)) (hother : ∀ j, j ≠ k → moduli' j = moduli j) :
    k ∈ keys ∧ NodesHold form keys moduli' exponent nodes' := by
  have hcontents := h.contents
  have hheaders := Op.atFirst_map_eq hheader hop
  have hfirst : nodes'.head?.map form.header = some exponent := by
    rw [← h.first, ← List.head?_map, ← List.head?_map, hheaders]
  by_cases hkeys : keys = []
  · rw [if_pos hkeys] at hcontents
    obtain ⟨x, rfl, hx⟩ := List.map_eq_singleton_iff.mp hcontents
    rw [Op.atFirst, if_neg (by rw [hblank x hx]; decide)] at hop
    cases hop
    exact absurd rfl hmissing
  · rw [if_neg hkeys] at hcontents
    obtain ⟨hmem, x, x', hx, hout, hmap⟩ := Op.atFirst_keys hp hmissing h.nodup hcontents hop
    refine ⟨hmem, ?_, hfirst, h.nodup⟩
    rw [if_neg hkeys, hmap]
    refine List.map_congr_left fun j _ => ?_
    by_cases hjk : j = k
    · rw [hjk, Function.update_self, hk x x' hx hout]
    · rw [Function.update_of_ne hjk, hother j hjk]

end NodesHold

/-! ## What calls set -/

/-- What is taken from calls: the modes or types that they set, the moduli that they store for
each of them, and the mode of the public exponent and the exponent. -/
structure CallForm (κ : Type) where
  key? : κ → Option Int
  stored : List κ → Int → List RsaModeCaps
  exponentMode? : κ → Option Int
  exponent? : κ → Option String

namespace CallForm

variable {κ : Type} (trace : CallForm κ) (calls : List κ)

/-- The modes or types in the order of their calls. -/
def keys : List Int := calls.filterMap trace.key?

/-- The mode of the exponent that was set last. -/
def exponentMode : Int := (calls.filterMap trace.exponentMode?).getLast?.getD 0

/-- The exponents that were set. -/
def exponents : List String := calls.filterMap trace.exponent?

end CallForm

/-- The nodes hold what the calls have set. -/
structure RunStores {ν γ κ : Type} (form : NodeForm ν γ) (trace : CallForm κ) (named : Int → Prop)
    (calls : List κ) (nodes : List ν) (fixed : Option String) : Prop where
  named : ∀ k ∈ trace.keys calls, named k
  unset : ∀ k ∉ trace.keys calls, trace.stored calls k = []
  exponents : trace.exponents calls = fixed.toList
  exponentMode : fixed ≠ none → trace.exponentMode calls = rsaPubExpModeFixed
  holds : NodesHold form (trace.keys calls) (trace.stored calls)
    (trace.exponentMode calls, fixed) nodes

/-- A fixed exponent is set once, while its mode is fixed. -/
theorem setFixedPubExp_accepted {σ : Type} {mode : σ → Int} {fixed : σ → Option String}
    {set : String → σ → σ} {param : RsaParm} {value : Option String} {x x' : σ}
    (h : setFixedPubExp mode fixed set param value x = .ok (.success, x')) :
    param = .fixedPubExpVal ∧ (mode x ≠ rsaPubExpModeFixed ∧ x' = x ∨
      mode x = rsaPubExpModeFixed ∧ fixed x = none ∧ x' = set (value.getD "") x) := by
  cases param with
  | fixedPubExpVal =>
    refine ⟨rfl, ?_⟩
    unfold setFixedPubExp Op.inspect at h
    dsimp only at h
    by_cases hmode : mode x = rsaPubExpModeFixed
    · rw [if_pos hmode] at h
      cases hfixed : fixed x with
      | none =>
        simp only [hfixed, Op.ite_apply] at h
        split at h
        · cases h
        · cases h
          exact Or.inr ⟨hmode, rfl, rfl⟩
      | some text =>
        simp only [hfixed] at h
        cases h
    · rw [if_neg hmode] at h
      cases h
      exact Or.inl ⟨hmode, rfl⟩
  | _ => cases h

namespace RunStores

variable {ν γ κ : Type} {form : NodeForm ν γ} {trace : CallForm κ} {named : Int → Prop}
  {calls : List κ} {nodes nodes' : List ν} {fixed : Option String}

/-- Before the first call there is one vacant node. -/
theorem start {x : ν} (hcontent : form.content x = form.blank) (hheader : form.header x = (0, none))
    (hstored : ∀ k, trace.stored [] k = []) : RunStores form trace named [] [x] none :=
  ⟨fun _ hk => absurd hk List.not_mem_nil, fun k _ => hstored k, rfl, fun hne => absurd rfl hne,
    congrArg (fun a => [a]) hcontent, congrArg some hheader, List.nodup_nil⟩

variable (h : RunStores form trace named calls nodes fixed) {c : κ}

include h

/-- What is made of every node, in the order of the calls. -/
theorem map_eq {β : Type} {f : ν → β} {f' : Int → β} (hkeys : trace.keys calls ≠ [])
    (hf : ∀ x k, named k → form.content x = form.entry k (trace.stored calls k) → f x = f' k) :
    nodes.map f = (trace.keys calls).map f' := by
  have hcontents := h.holds.contents
  rw [if_neg hkeys] at hcontents
  exact map_eq_of_contents hcontents fun x k hk => hf x k (h.named k hk)

theorem head_eq : ∃ first, nodes.head? = some first ∧
    form.header first = (trace.exponentMode calls, fixed) :=
  Option.map_eq_some_iff.mp h.holds.first

/-- An exponent that was set is the one that the first node holds, and its mode is fixed. -/
theorem mem_exponents {exponent : String} (hexponent : exponent ∈ trace.exponents calls) :
    fixed = some exponent ∧ trace.exponentMode calls = rsaPubExpModeFixed := by
  rw [h.exponents, Option.mem_toList] at hexponent
  have hfixed : fixed = some exponent := hexponent
  exact ⟨hfixed, h.exponentMode (hfixed ▸ Option.some_ne_none exponent)⟩

/-- A mode or type is set. -/
theorem claim {vacant taken : ν → Bool} {fresh : ν} {set : ν → ν} {value : Int}
    (hkey : trace.key? c = some value) (hstored : trace.stored (calls ++ [c]) = trace.stored calls)
    (hmode : trace.exponentMode? c = none) (hexponent : trace.exponent? c = none)
    (hvalue : named value)
    (hset : claimOr vacant taken fresh set nodes = .ok (.success, nodes'))
    (hblank : ∀ x, form.content x = form.blank → vacant x = true)
    (hfull : ∀ x k l, named k → form.content x = form.entry k l →
      vacant x = false ∧ (taken x = false → k ≠ value))
    (hfresh : form.content fresh = form.blank)
    (hentry : ∀ x, form.content x = form.blank → form.content (set x) = form.entry value [])
    (hheader : ∀ x, form.header (set x) = form.header x) :
    RunStores form trace named (calls ++ [c]) nodes' fixed := by
  have hkeys : trace.keys (calls ++ [c]) = trace.keys calls ++ [value] :=
    List.filterMap_append_some hkey calls
  have hexponentMode : trace.exponentMode (calls ++ [c]) = trace.exponentMode calls := by
    rw [CallForm.exponentMode, List.filterMap_append_none hmode]
    rfl
  have hholds := h.holds.claim hset hblank (fun x k hk hx => hfull x k _ (h.named k hk) hx) hfresh
    hentry hheader (h.unset value)
  refine ⟨fun k hk => ?_, fun k hk => ?_, ?_, ?_, ?_⟩
  · rw [hkeys] at hk
    rcases List.mem_append.mp hk with hk | hk
    · exact h.named k hk
    · rwa [List.mem_singleton.mp hk]
  · rw [hstored]
    exact h.unset k fun hmem => hk (by rw [hkeys]; exact List.mem_append_left _ hmem)
  · rw [CallForm.exponents, List.filterMap_append_none hexponent]
    exact h.exponents
  · rw [hexponentMode]
    exact h.exponentMode
  · rw [hkeys, hstored, hexponentMode]
    exact hholds

/-- A call that works on the first node leaves the modes or types alone. -/
theorem ofHead (hkey : trace.key? c = none)
    (hstored : trace.stored (calls ++ [c]) = trace.stored calls) {fixed' : Option String}
    (hexponents : trace.exponents (calls ++ [c]) = fixed'.toList)
    (hexponentMode : fixed' ≠ none → trace.exponentMode (calls ++ [c]) = rsaPubExpModeFixed)
    (hholds : NodesHold form (trace.keys calls) (trace.stored calls)
      (trace.exponentMode (calls ++ [c]), fixed') nodes') :
    RunStores form trace named (calls ++ [c]) nodes' fixed' := by
  have hkeys : trace.keys (calls ++ [c]) = trace.keys calls := List.filterMap_append_none hkey calls
  exact ⟨hkeys ▸ h.named, hkeys ▸ hstored ▸ h.unset, hexponents, hexponentMode,
    hkeys ▸ hstored ▸ hholds⟩

/-- The mode of the exponent is set. -/
theorem setExponentMode (hkey : trace.key? c = none)
    (hstored : trace.stored (calls ++ [c]) = trace.stored calls) {value : Int}
    (hmode : trace.exponentMode? c = some value) (hexponent : trace.exponent? c = none)
    (hmeets : ∀ first ∈ nodes.head?, (form.header first).2 = none ∨ value = rsaPubExpModeFixed)
    {f : ν → ν} (hset : storeHead f nodes = .ok (.success, nodes'))
    (hcontent : ∀ x, form.content (f x) = form.content x)
    (hheader : ∀ x, form.header (f x) = (value, (form.header x).2)) :
    RunStores form trace named (calls ++ [c]) nodes' fixed := by
  have hexponentMode : trace.exponentMode (calls ++ [c]) = value := by
    rw [CallForm.exponentMode, List.filterMap_append_some hmode, List.getLast?_concat]
    rfl
  obtain ⟨x, x', hfirst, hx, hout, hholds⟩ := h.holds.head hset fun x x' hout => by
    cases hout
    exact hcontent x
  cases hout
  have hfixed : (form.header x).2 = fixed := congrArg Prod.snd hx
  refine h.ofHead hkey hstored ((List.filterMap_append_none hexponent calls).trans h.exponents)
    (fun hne => ?_) ?_
  · rw [hexponentMode]
    exact (hmeets x hfirst).resolve_left (hfixed ▸ hne)
  · rw [hexponentMode, ← hfixed, ← hheader]
    exact hholds

/-- Another parameter of the first node is set. -/
theorem setOther (hkey : trace.key? c = none)
    (hstored : trace.stored (calls ++ [c]) = trace.stored calls)
    (hmode : trace.exponentMode? c = none) (hexponent : trace.exponent? c = none) {f : ν → ν}
    (hset : storeHead f nodes = .ok (.success, nodes'))
    (hcontent : ∀ x, form.content (f x) = form.content x)
    (hheader : ∀ x, form.header (f x) = form.header x) :
    RunStores form trace named (calls ++ [c]) nodes' fixed := by
  have hexponentMode : trace.exponentMode (calls ++ [c]) = trace.exponentMode calls := by
    rw [CallForm.exponentMode, List.filterMap_append_none hmode]
    rfl
  obtain ⟨x, x', -, hx, hout, hholds⟩ := h.holds.head hset fun x x' hout => by
    cases hout
    exact hcontent x
  cases hout
  rw [hheader, hx] at hholds
  refine h.ofHead hkey hstored ((List.filterMap_append_none hexponent calls).trans h.exponents)
    ?_ ?_
  · rw [hexponentMode]
    exact h.exponentMode
  · rw [hexponentMode]
    exact hholds

/-- The exponent is set. -/
theorem setExponent (hkey : trace.key? c = none)
    (hstored : trace.stored (calls ++ [c]) = trace.stored calls)
    (hmode : trace.exponentMode? c = none) {param : RsaParm} {value : Option String}
    (hexponent : param = .fixedPubExpVal → trace.exponent? c = some (value.getD ""))
    {mode : ν → Int} {exponent : ν → Option String} {set : String → ν → ν}
    (hform : ∀ x, form.header x = (mode x, exponent x))
    (hmeets : ∀ first ∈ nodes.head?, mode first = rsaPubExpModeFixed)
    (hset : Op.atHead .nullPointer (setFixedPubExp mode exponent set param value) nodes =
      .ok (.success, nodes'))
    (hcontent : ∀ text x, form.content (set text x) = form.content x)
    (hheader : ∀ text x, form.header (set text x) = (mode x, some text)) :
    RunStores form trace named (calls ++ [c]) nodes' (some (value.getD "")) := by
  obtain ⟨x, x', hfirst, hx, hout, hholds⟩ := h.holds.head hset fun x x' hout => by
    obtain ⟨-, ⟨-, rfl⟩ | ⟨-, -, rfl⟩⟩ := setFixedPubExp_accepted hout
    · rfl
    · exact hcontent _ x
  have hfixedMode := hmeets x hfirst
  obtain ⟨hparam, hnone, rfl⟩ :
      param = .fixedPubExpVal ∧ exponent x = none ∧ x' = set (value.getD "") x := by
    obtain ⟨hparam, ⟨hother, -⟩ | ⟨-, hnone, hx'⟩⟩ := setFixedPubExp_accepted hout
    · exact absurd hfixedMode hother
    · exact ⟨hparam, hnone, hx'⟩
  rw [hform] at hx
  have hexponentMode : trace.exponentMode (calls ++ [c]) = mode x := by
    rw [CallForm.exponentMode, List.filterMap_append_none hmode]
    exact (congrArg Prod.fst hx).symm
  have hfixed : exponent x = fixed := congrArg Prod.snd hx
  have hnil : trace.exponents calls = [] := by
    rw [h.exponents, ← hfixed, hnone]
    rfl
  refine h.ofHead hkey hstored ?_ (fun _ => hexponentMode.trans hfixedMode) ?_
  · rw [CallForm.exponents, List.filterMap_append_some (hexponent hparam)]
    exact congrArg (· ++ [value.getD ""]) hnil
  · rw [hexponentMode, ← hheader]
    exact hholds

/-- What is stored for a mode or type changes. -/
theorem modify {k : Int} {p : ν → Bool} {op : Setter ν} {missing : AmvpResult}
    (hkey : trace.key? c = none) (hmode : trace.exponentMode? c = none)
    (hexponent : trace.exponent? c = none) (hmissing : AmvpResult.success ≠ missing)
    (hset : Op.atFirst p missing op nodes = .ok (.success, nodes'))
    (hblank : ∀ x, form.content x = form.blank → p x = false)
    (hp : ∀ x j l, form.content x = form.entry j l → (p x = true ↔ j = k))
    (hheader : ∀ x x', op x = .ok (.success, x') → form.header x' = form.header x)
    (hk : ∀ x x', form.content x = form.entry k (trace.stored calls k) →
      op x = .ok (.success, x') → form.content x' = form.entry k (trace.stored (calls ++ [c]) k))
    (hother : ∀ j, j ≠ k → trace.stored (calls ++ [c]) j = trace.stored calls j) :
    RunStores form trace named (calls ++ [c]) nodes' fixed := by
  have hkeys : trace.keys (calls ++ [c]) = trace.keys calls := List.filterMap_append_none hkey calls
  have hexponentMode : trace.exponentMode (calls ++ [c]) = trace.exponentMode calls := by
    rw [CallForm.exponentMode, List.filterMap_append_none hmode]
    rfl
  obtain ⟨hmem, hholds⟩ := h.holds.modify hmissing hset hblank (fun x j => hp x j _) hheader hk
    hother
  refine ⟨hkeys ▸ h.named, fun j hj => ?_,
    (List.filterMap_append_none hexponent calls).trans h.exponents, hexponentMode ▸ h.exponentMode,
    hkeys ▸ hexponentMode ▸ hholds⟩
  rw [hkeys] at hj
  rw [hother j fun heq => hj (heq ▸ hmem)]
  exact h.unset j hj

end RunStores

/-! ## The registered exponent -/

theorem jsonObjectGetString_of_value {obj : JsonObject} {name text : String}
    (h : jsonObjectGetValue (some obj) name = some (.str text)) :
    jsonObjectGetString (some obj) name = some text := by
  rw [jsonObjectGetString, h]
  rfl

/-- A fixed exponent is registered when it is taken over. -/
theorem jsonObjectGetValue_setPubExp (obj : JsonObject) {mode : Int}
    (hmode : mode = rsaPubExpModeFixed) {exponent : String} (htext : IsText exponent) :
    jsonObjectGetValue (some (setPubExp obj mode (some exponent))) "fixedPubExp" =
      some (.str exponent) := by
  have htaken : takenOver (some exponent) = some exponent := takenOver_eq_self_iff.mpr fun s hs => by
    cases hs
    exact htext
  rw [setPubExp, if_pos hmode, jsonObjectSetString, htaken]
  exact jsonObjectGetValue_set _ _ _

end LibAmvp
