import LibAmvp.Capabilities.KdfRegistration

/-!
# Schemes of key agreement

The functions that set up the schemes of a mode of KAS-ECC and of KAS-FFC, and what a list of
schemes has to hold after a number of calls.  A call for a scheme that is not there yet takes
the place of the whole list, so that only the last scheme is left.

Main results:

- Theorem {lit}`accumulated_stored_iff`: when does the list hold what the calls have set?
- Theorem {lit}`kasSetScheme_accumulates_iff`: the same of the calls for both kinds of key
  agreement.
-/

namespace LibAmvp

open Keyed

/-! ## What calls set -/

/-- What a call sets for its scheme. -/
inductive SchemeAct where
  | kdf (value : Int)
  | role (value : Int)
  | pset (set curve value : Int)
  | nothing

namespace SchemeAct

/-- The value of the key derivation, where that is set. -/
def kdf? : SchemeAct → Option Int
  | kdf value => some value
  | _ => none

/-- The role, where one is added. -/
def role? : SchemeAct → Option Int
  | role value => some value
  | _ => none

/-- The curve and the hash function that are added to a parameter set. -/
def pset? (wanted : Int) : SchemeAct → Option (Int × Int)
  | pset set curve value => if set = wanted then some (curve, value) else none
  | _ => none

end SchemeAct

/-- A call: the scheme, and what is set for it. -/
structure SchemeCall where
  scheme : Int
  act : SchemeAct

/-- What the calls set for one scheme, in their order. -/
def actsOn (scheme : Int) (calls : List SchemeCall) : List SchemeAct :=
  (calls.filter fun c => c.scheme == scheme).map SchemeCall.act

/-- A parameter set of a scheme. -/
structure ParameterSet where
  set : Int
  curve : Int := 0
  sha : List Int := []

/-- A scheme of a mode. -/
structure Scheme where
  scheme : Int
  kdf : Int := 0
  role : List Int := []
  pset : List ParameterSet := []

/-- A scheme holds what the acts have set: all roles, the last key derivation, and for each
parameter set that was named one entry with all its hash functions. -/
structure Scheme.Holds (s : Scheme) (acts : List SchemeAct) : Prop where
  role : s.role = acts.filterMap SchemeAct.role?
  kdf : s.kdf = (acts.filterMap SchemeAct.kdf?).getLast?.getD 0
  nodup : (s.pset.map ParameterSet.set).Nodup
  sets : ∀ set, set ∈ s.pset.map ParameterSet.set ↔ acts.filterMap (SchemeAct.pset? set) ≠ []
  sha : ∀ p ∈ s.pset, p.sha = (acts.filterMap (SchemeAct.pset? p.set)).map Prod.snd
  curve : ∀ p ∈ s.pset,
    some p.curve = ((acts.filterMap (SchemeAct.pset? p.set)).map Prod.fst).head?

/-- A list holds exactly one entry for each scheme that was set, with everything that was set
for it. -/
structure Accumulated (calls : List SchemeCall) (l : List Scheme) : Prop where
  nodup : (l.map Scheme.scheme).Nodup
  schemes : ∀ n, n ∈ l.map Scheme.scheme ↔ n ∈ calls.map SchemeCall.scheme
  holds : ∀ s ∈ l, s.Holds (actsOn s.scheme calls)

/-! ## What calls store -/

/-- Add a hash function to a parameter set. -/
def ParameterSet.addSha (value : Int) (p : ParameterSet) : ParameterSet :=
  { p with sha := p.sha ++ [value] }

/-- What a call does to its scheme. -/
def SchemeAct.apply : SchemeAct → Scheme → Scheme
  | kdf value, s => { s with kdf := value }
  | role value, s => { s with role := s.role ++ [value] }
  | pset set curve value, s =>
    { s with
      pset := upsert (fun p => p.set == set) { set := set, curve := curve }
        (ParameterSet.addSha value) s.pset }
  | nothing, s => s

/-- The list a call works on. -/
def openOr (scheme : Int) (l : List Scheme) : List Scheme :=
  if l.any fun s => s.scheme == scheme then l else [{ scheme := scheme }]

/-- What a call does to the list of schemes. -/
def SchemeCall.store (l : List Scheme) (c : SchemeCall) : List Scheme :=
  modifyFirst (fun s => s.scheme == c.scheme) c.act.apply (openOr c.scheme l)

/-- What a number of calls store. -/
def stored (calls : List SchemeCall) : List Scheme := calls.foldl SchemeCall.store []

/-- A further call changes what is stored. -/
theorem stored_snoc (calls : List SchemeCall) (c : SchemeCall) :
    stored (calls ++ [c]) = c.store (stored calls) := by
  rw [stored, List.foldl_concat]
  rfl

/-! ## One scheme -/

/-- A new scheme holds nothing but its number. -/
theorem Scheme.holds_new (n : Int) : Scheme.Holds { scheme := n } [] where
  role := rfl
  kdf := rfl
  nodup := List.nodup_nil
  sets := by simp
  sha := by simp
  curve := by simp

/-- What is done to a scheme keeps its number. -/
@[simp]
theorem SchemeAct.apply_scheme (act : SchemeAct) (s : Scheme) :
    (act.apply s).scheme = s.scheme := by
  cases act <;> rfl

/-- Adding a hash keeps the parameter set. -/
@[simp]
theorem ParameterSet.addSha_set (value : Int) (p : ParameterSet) :
    (p.addSha value).set = p.set := rfl

/-- What one more act adds to the parameter sets of a scheme. -/
theorem Scheme.Holds.addPset {s : Scheme} {acts : List SchemeAct} (h : s.Holds acts)
    (set curve value : Int) :
    ((SchemeAct.pset set curve value).apply s).Holds (acts ++ [SchemeAct.pset set curve value]) := by
  have hother : ∀ n, n ≠ set →
      (acts ++ [SchemeAct.pset set curve value]).filterMap (SchemeAct.pset? n) =
        acts.filterMap (SchemeAct.pset? n) := by
    intro n hn
    simp [SchemeAct.pset?, Ne.symm hn]
  have hsame : (acts ++ [SchemeAct.pset set curve value]).filterMap (SchemeAct.pset? set) =
      acts.filterMap (SchemeAct.pset? set) ++ [(curve, value)] := by
    simp [SchemeAct.pset?]
  -- the parameter set is named now, whether or not it was before
  have hsets : ∀ keys : List Int, (∀ n, n ∈ keys ↔ n = set ∨ n ∈ s.pset.map ParameterSet.set) →
      ∀ n, n ∈ keys ↔
        (acts ++ [SchemeAct.pset set curve value]).filterMap (SchemeAct.pset? n) ≠ [] := by
    intro keys hkeys n
    rw [hkeys]
    by_cases hn : n = set
    · subst hn
      simp [hsame]
    · rw [hother n hn, ← h.sets n]
      simp [hn]
  cases hfind : s.pset.find? (fun p => p.set == set) with
  | none =>
      have hpset : ((SchemeAct.pset set curve value).apply s).pset =
          s.pset ++ [{ set := set, curve := curve, sha := [value] }] :=
        upsert_of_not_find hfind
      have hfresh : set ∉ s.pset.map ParameterSet.set := by
        simpa using hfind
      have hnone : acts.filterMap (SchemeAct.pset? set) = [] := by
        by_contra hne
        exact hfresh ((h.sets set).mpr hne)
      have hold : ∀ p ∈ s.pset, p.set ≠ set := fun p hp hset =>
        hfresh (hset ▸ List.mem_map_of_mem hp)
      refine ⟨?_, ?_, ?_, ?_, ?_, ?_⟩
      · simpa [SchemeAct.role?, SchemeAct.apply, List.filterMap_cons] using h.role
      · simpa [SchemeAct.kdf?, SchemeAct.apply] using h.kdf
      · rw [hpset, List.map_append]
        exact h.nodup.append (by simp) (by simpa using hfresh)
      · refine hsets _ fun n => ?_
        rw [hpset]
        simp [or_comm]
      · rw [hpset]
        intro p hp
        rcases List.mem_append.mp hp with hp | hp
        · rw [hother _ (hold p hp), h.sha p hp]
        · obtain rfl := List.mem_singleton.mp hp
          simp [hsame, hnone]
      · rw [hpset]
        intro p hp
        rcases List.mem_append.mp hp with hp | hp
        · rw [hother _ (hold p hp), h.curve p hp]
        · obtain rfl := List.mem_singleton.mp hp
          simp [hsame, hnone]
  | some q =>
      have hpset : ((SchemeAct.pset set curve value).apply s).pset =
          setFirst (fun p => p.set == set) (q.addSha value) s.pset :=
        upsert_of_find hfind
      have hqset : q.set = set := by simpa using List.find?_some hfind
      have hq : q ∈ s.pset := List.mem_of_find?_eq_some hfind
      have hkeys : (setFirst (fun p => p.set == set) (q.addSha value) s.pset).map
          ParameterSet.set = s.pset.map ParameterSet.set :=
        map_setFirst hfind rfl
      have hmem : ∀ p ∈ setFirst (fun p => p.set == set) (q.addSha value) s.pset,
          p = q.addSha value ∨ p ∈ s.pset ∧ p.set ≠ set := fun p hp =>
        mem_setFirst h.nodup hfind hp
      refine ⟨?_, ?_, ?_, ?_, ?_, ?_⟩
      · simpa [SchemeAct.role?, SchemeAct.apply, List.filterMap_cons] using h.role
      · simpa [SchemeAct.kdf?, SchemeAct.apply] using h.kdf
      · rw [hpset, hkeys]
        exact h.nodup
      · refine hsets _ fun n => ?_
        rw [hpset, hkeys]
        refine ⟨.inr, ?_⟩
        rintro (rfl | hn)
        · exact hqset ▸ List.mem_map_of_mem hq
        · exact hn
      · rw [hpset]
        intro p hp
        rcases hmem p hp with rfl | ⟨hp, hne⟩
        · simp [hqset, hsame, ParameterSet.addSha, h.sha q hq]
        · rw [hother _ hne, h.sha p hp]
      · rw [hpset]
        intro p hp
        rcases hmem p hp with rfl | ⟨hp, hne⟩
        · have hcurve := h.curve q hq
          rw [hqset] at hcurve
          cases hacts : acts.filterMap (SchemeAct.pset? set) with
          | nil => simp [hacts] at hcurve
          | cons first rest =>
              rw [hacts] at hcurve
              simpa [hqset, hsame, ParameterSet.addSha, hacts] using hcurve
        · rw [hother _ hne, h.curve p hp]

/-- A scheme that holds some acts holds one more after it was applied. -/
theorem Scheme.Holds.apply {s : Scheme} {acts : List SchemeAct} (h : s.Holds acts)
    (act : SchemeAct) : (act.apply s).Holds (acts ++ [act]) := by
  cases act with
  | kdf value =>
      exact ⟨by simpa [SchemeAct.apply, SchemeAct.role?, List.filterMap_cons] using h.role,
        by simp [SchemeAct.apply, SchemeAct.kdf?], h.nodup,
        by simpa [SchemeAct.apply, SchemeAct.pset?] using h.sets,
        by simpa [SchemeAct.apply, SchemeAct.pset?, List.filterMap_cons] using h.sha,
        by simpa [SchemeAct.apply, SchemeAct.pset?] using h.curve⟩
  | role value =>
      exact ⟨by simp [SchemeAct.apply, SchemeAct.role?, h.role],
        by simpa [SchemeAct.apply, SchemeAct.kdf?] using h.kdf, h.nodup,
        by simpa [SchemeAct.apply, SchemeAct.pset?] using h.sets,
        by simpa [SchemeAct.apply, SchemeAct.pset?, List.filterMap_cons] using h.sha,
        by simpa [SchemeAct.apply, SchemeAct.pset?] using h.curve⟩
  | pset set curve value => exact h.addPset set curve value
  | nothing =>
      exact ⟨by simpa [SchemeAct.apply, SchemeAct.role?, List.filterMap_cons] using h.role,
        by simpa [SchemeAct.apply, SchemeAct.kdf?] using h.kdf, h.nodup,
        by simpa [SchemeAct.apply, SchemeAct.pset?] using h.sets,
        by simpa [SchemeAct.apply, SchemeAct.pset?, List.filterMap_cons] using h.sha,
        by simpa [SchemeAct.apply, SchemeAct.pset?] using h.curve⟩

/-! ## The whole list -/

/-- A call leaves one entry: the scheme it names. -/
theorem stored_eq_singleton (calls : List SchemeCall) (c : SchemeCall) :
    ∃ s, stored (calls ++ [c]) = [s] ∧ s.scheme = c.scheme := by
  induction calls using List.reverseRecOn generalizing c with
  | nil => exact ⟨c.act.apply { scheme := c.scheme }, by simp [stored, SchemeCall.store,
      openOr, modifyFirst], by simp⟩
  | append_singleton calls last ih =>
      obtain ⟨s, hs, hscheme⟩ := ih last
      rw [stored_snoc, hs]
      by_cases h : s.scheme = c.scheme
      · exact ⟨c.act.apply s, by simp [SchemeCall.store, openOr, modifyFirst, h], by simpa using h⟩
      · exact ⟨c.act.apply { scheme := c.scheme },
          by simp [SchemeCall.store, openOr, modifyFirst, h], by simp⟩

/-- With calls for one scheme the entry holds what they set. -/
theorem holds_stored {calls : List SchemeCall} {n : Int} (h : ∀ c ∈ calls, c.scheme = n) :
    ∀ s ∈ stored calls, s.Holds (calls.map SchemeCall.act) := by
  induction calls using List.reverseRecOn with
  | nil => simp [stored]
  | append_singleton calls c ih =>
      have ih := ih fun c' hc' => h c' (List.mem_append_left _ hc')
      have hc : c.scheme = n := h c (by simp)
      intro s hs
      rw [stored_snoc] at hs
      rw [List.map_append]
      cases hlist : calls using List.reverseRecOn with
      | nil =>
          subst hlist
          have : s = c.act.apply { scheme := c.scheme } := by
            simpa [stored, SchemeCall.store, openOr, modifyFirst] using hs
          subst this
          exact (Scheme.holds_new c.scheme).apply c.act
      | append_singleton before last =>
          obtain ⟨t, ht, htscheme⟩ := stored_eq_singleton before last
          have hlast : last.scheme = n := h last (by simp [hlist])
          rw [hlist, ht] at hs
          have : s = c.act.apply t := by
            simpa [SchemeCall.store, openOr, modifyFirst, htscheme, hlast, hc] using hs
          subst this
          rw [← hlist]
          exact (ih t (by rw [hlist, ht]; exact List.mem_singleton_self t)).apply c.act

/-- When all calls are for one scheme, all their acts are on it. -/
theorem actsOn_eq_of_forall {calls : List SchemeCall} {n : Int} (h : ∀ c ∈ calls, c.scheme = n) :
    actsOn n calls = calls.map SchemeCall.act := by
  rw [actsOn, List.filter_eq_self.mpr fun c hc => by simp [h c hc]]

/-- The list holds what the calls have set just when they name one scheme. -/
theorem accumulated_stored_iff (calls : List SchemeCall) :
    Accumulated calls (stored calls) ↔ ∃ n, ∀ c ∈ calls, c.scheme = n := by
  induction calls using List.reverseRecOn with
  | nil =>
      refine iff_of_true ⟨by simp [stored], by simp [stored], by simp [stored]⟩ ⟨0, by simp⟩
  | append_singleton calls last _ =>
      obtain ⟨s, hs, hscheme⟩ := stored_eq_singleton calls last
      constructor
      · intro h
        refine ⟨last.scheme, fun c hc => ?_⟩
        have hmem := (h.schemes c.scheme).mpr (List.mem_map_of_mem hc)
        rw [hs] at hmem
        exact (List.mem_singleton.mp hmem).trans hscheme
      · rintro ⟨n, hn⟩
        have hlast : last.scheme = n := hn last (by simp)
        refine ⟨by simp [hs], fun m => ?_, fun t ht => ?_⟩
        · rw [hs]
          constructor
          · intro hm
            refine List.mem_map.mpr ⟨last, by simp, ?_⟩
            rw [List.mem_singleton.mp hm, hscheme]
          · intro hm
            obtain ⟨c, hc, rfl⟩ := List.mem_map.mp hm
            simp [hscheme, hlast, hn c hc]
        · have htscheme : t.scheme = n := by
            rw [hs] at ht
            rw [List.mem_singleton.mp ht, hscheme, hlast]
          rw [htscheme, actsOn_eq_of_forall hn]
          exact holds_stored hn t ht

/-! ## The functions of the interface -/

/-- Calls that all succeed, one after the other. -/
inductive Succeeded (s : Caps) : List CapCall → Caps → Prop
  | start : Succeeded s [] s
  | call {calls : List CapCall} {s' s'' : Caps} {c : CapCall} (hcalls : Succeeded s calls s')
      (hexec : c.exec s' = .ok (.success, s'')) : Succeeded s (calls ++ [c]) s''

/-- No call leads nowhere. -/
theorem succeeded_nil_iff {s s' : Caps} : Succeeded s [] s' ↔ s = s' := by
  constructor
  · intro h
    generalize hcalls : ([] : List CapCall) = calls at h
    cases h with
    | start => rfl
    | call => simp at hcalls
  · rintro rfl
    exact .start

/-- A further call succeeds after those before. -/
theorem succeeded_snoc_iff {s s'' : Caps} {calls : List CapCall} {c : CapCall} :
    Succeeded s (calls ++ [c]) s'' ↔
      ∃ s', Succeeded s calls s' ∧ c.exec s' = .ok (.success, s'') := by
  constructor
  · intro h
    generalize hall : calls ++ [c] = all at h
    cases h with
    | start => simp at hall
    | call hcalls hexec =>
        obtain ⟨rfl, hc⟩ := List.append_inj' hall rfl
        cases hc
        exact ⟨_, hcalls, hexec⟩
  · rintro ⟨s', hcalls, hexec⟩
    exact .call hcalls hexec

/-- A parameter set of KAS-ECC. -/
def KasEccPset.view (p : KasEccPset) : ParameterSet :=
  { set := p.set, curve := p.curve, sha := p.sha }

/-- A scheme of KAS-ECC. -/
def KasEccScheme.view (s : KasEccScheme) : Scheme :=
  { scheme := s.scheme, kdf := s.kdf, role := s.role, pset := s.pset.map KasEccPset.view }

/-- A parameter set of KAS-FFC, where no curve is stored. -/
def KasFfcPset.view (p : KasFfcPset) : ParameterSet := { set := p.set, sha := p.sha }

/-- A scheme of KAS-FFC. -/
def KasFfcScheme.view (s : KasFfcScheme) : Scheme :=
  { scheme := s.scheme, kdf := s.kdf, role := s.role, pset := s.pset.map KasFfcPset.view }

/-- The schemes of a mode of KAS-ECC. -/
def Caps.kasEccSchemes (s : Caps) (cipher : Cipher) (mode : KasEccMode) : Option (List Scheme) := do
  let cap ← s.content cipher .kasEccCap
  let capMode ← cap.kasEccMode[(mode.toInt - 1).toNat]?
  pure (capMode.scheme.map KasEccScheme.view)

/-- The schemes of a mode of KAS-FFC. -/
def Caps.kasFfcSchemes (s : Caps) (cipher : Cipher) (mode : KasFfcMode) : Option (List Scheme) := do
  let cap ← s.content cipher .kasFfcCap
  let capMode ← cap.kasFfcMode[(mode.toInt - 1).toNat]?
  pure (capMode.scheme.map KasFfcScheme.view)

/-- The arguments of {lit}`amvp_cap_kas_ecc_set_scheme` after the mode. -/
structure KasEccSchemeArgs where
  scheme : Int
  param : KasEccParam
  option : Int
  value : Int

namespace KasEccSchemeArgs

/-- The call with these arguments. -/
def call (cipher : Cipher) (mode : KasEccMode) (a : KasEccSchemeArgs) : CapCall :=
  .kasEccSetScheme cipher mode a.scheme a.param a.option a.value

/-- What such a call sets. -/
def sets (a : KasEccSchemeArgs) : SchemeCall where
  scheme := a.scheme
  act := match a.param with
    | .kdf => .kdf a.value
    | .role => .role a.value
    | .eb | .ec | .ed | .ee => .pset a.param.toInt a.option a.value
    | _ => .nothing

end KasEccSchemeArgs

/-- The arguments of {lit}`amvp_cap_kas_ffc_set_scheme` after the mode. -/
structure KasFfcSchemeArgs where
  scheme : Int
  param : KasFfcParam
  value : Int

namespace KasFfcSchemeArgs

/-- The call with these arguments. -/
def call (cipher : Cipher) (mode : KasFfcMode) (a : KasFfcSchemeArgs) : CapCall :=
  .kasFfcSetScheme cipher mode a.scheme a.param a.value

/-- What such a call sets. -/
def sets (a : KasFfcSchemeArgs) : SchemeCall where
  scheme := a.scheme
  act := match a.param with
    | .kdf => .kdf a.value
    | .role => .role a.value
    | .fb | .fc | .modp2048 | .modp3072 | .modp4096 | .modp6144 | .modp8192 | .ffdhe2048
    | .ffdhe3072 | .ffdhe4096 | .ffdhe6144 | .ffdhe8192 => .pset a.param.toInt 0 a.value
    | _ => .nothing

end KasFfcSchemeArgs

/-! ## What a call does to the list -/

/-- Opening a scheme of KAS-ECC, seen abstractly. -/
theorem KasEccCapMode.openScheme_view (scheme : Int) (m : KasEccCapMode) :
    (m.openScheme scheme).scheme.map KasEccScheme.view =
      openOr scheme (m.scheme.map KasEccScheme.view) := by
  have hany : (m.scheme.map KasEccScheme.view).any (fun s => s.scheme == scheme) =
      m.scheme.any fun s => s.scheme == scheme := List.any_map
  rw [openScheme, openOr, hany]
  split <;> rfl

/-- Changing a scheme of KAS-ECC, seen abstractly. -/
theorem KasEccCapMode.withScheme_view (scheme : Int) (f : KasEccScheme → KasEccScheme)
    (act : SchemeAct) (h : ∀ s, (f s).view = act.apply s.view) (m : KasEccCapMode) :
    (m.withScheme scheme f).scheme.map KasEccScheme.view =
      modifyFirst (fun s => s.scheme == scheme) act.apply (m.scheme.map KasEccScheme.view) := by
  refine map_modifyFirst ?_ h m.scheme
  intro s
  rfl

/-- Adding a parameter set to a scheme of KAS-ECC, seen abstractly. -/
theorem KasEccScheme.addPset_view (s : KasEccScheme) (set curve value : Int) :
    KasEccScheme.view { s with
      pset := upsert (fun p => p.set == set) { set := set, curve := curve }
        (fun p => { p with sha := p.sha ++ [value] }) s.pset } =
      (SchemeAct.pset set curve value).apply s.view := by
  rw [view, SchemeAct.apply, Scheme.mk.injEq]
  refine ⟨rfl, rfl, rfl, ?_⟩
  refine map_upsert ?_ ?_ s.pset
  · intro p
    rfl
  · intro p
    rfl

/-- What is left of the list of a mode of KAS-ECC. -/
theorem kasEccModeSetScheme_stores {a : KasEccSchemeArgs} {m m' : KasEccCapMode}
    (h : kasEccModeSetScheme a.scheme a.param a.option a.value m = .ok (.success, m')) :
    m'.scheme.map KasEccScheme.view = a.sets.store (m.scheme.map KasEccScheme.view) := by
  obtain ⟨scheme, param, option, value⟩ := a
  rw [kasEccModeSetScheme, Op.ite_apply] at h
  split at h
  swap
  · cases h
  rw [SchemeCall.store]
  change _ = modifyFirst _ _ (openOr scheme _)
  rw [← m.openScheme_view scheme]
  rw [Op.changed] at h
  generalize m.openScheme scheme = opened at h ⊢
  cases param with
  | kdf =>
      simp only [kasEccStoreScheme, Op.ite_apply] at h
      split at h
      · cases h
      · cases h
        exact KasEccCapMode.withScheme_view scheme _ (.kdf value) (fun _ => rfl) opened
  | role =>
      simp only [kasEccStoreScheme, Op.ite_apply] at h
      split at h
      · cases h
      · cases h
        exact KasEccCapMode.withScheme_view scheme _ (.role value) (fun _ => rfl) opened
  | eb | ec | ed | ee =>
      cases h
      exact KasEccCapMode.withScheme_view scheme _ (.pset _ option value)
        (fun s => s.addPset_view _ option value) opened
  | none =>
      cases h
      exact (modifyFirst_of_forall_eq (fun _ => rfl) _).symm
  | function | revision | curve | hash | other raw => cases h

/-- What a call for a scheme of KAS-ECC did when it succeeded. -/
theorem kasEccSetScheme_success {mode : KasEccMode} {scheme : Int} {param : KasEccParam}
    {option value : Int} {cap cap' : KasEccCap}
    (h : kasEccSetScheme mode scheme param option value cap = .ok (.success, cap')) :
    kasEccAtMode mode (kasEccModeSetScheme scheme param option value) cap =
      .ok (.success, cap') := by
  cases mode with
  | component | nocomp | none => exact h
  | cdh | maxModes | other raw => cases h

/-- One more call for KAS-ECC. -/
theorem kasEccSchemes_call {cipher : Cipher} {mode : KasEccMode} {a : KasEccSchemeArgs}
    {s s' : Caps} {l : List Scheme} (hl : s.kasEccSchemes cipher mode = some l)
    (h : (a.call cipher mode).exec s = .ok (.success, s')) :
    s'.kasEccSchemes cipher mode = some (a.sets.store l) := by
  obtain ⟨cap, hcap, hl⟩ := Option.bind_eq_some_iff.mp hl
  obtain ⟨m, hm, hl⟩ := Option.bind_eq_some_iff.mp hl
  cases hl
  simp only [CapCall.exec, CapCall.action, KasEccSchemeArgs.call, capKasEccSetScheme] at h
  split at h
  swap
  · cases h
  obtain ⟨cap', hop, hcap'⟩ := CapAction.content_of_run hcap h
  obtain ⟨modes, hmodes, rfl⟩ := Op.zoom_eq_ok_iff.mp (kasEccSetScheme_success hop)
  obtain ⟨-, m₀, m', hm₀, hm', rfl⟩ := Op.atIndex_eq_ok_iff.mp hmodes
  cases hm.symm.trans hm₀
  have hlt := (List.getElem?_eq_some_iff.mp hm).1
  rw [← kasEccModeSetScheme_stores hm', Caps.kasEccSchemes, hcap']
  simp only [Option.bind_eq_bind, Option.bind_some, List.getElem?_set_self hlt]
  rfl

/-- Opening a scheme of KAS-FFC, seen abstractly. -/
theorem KasFfcCapMode.openScheme_view (scheme : Int) (m : KasFfcCapMode) :
    (m.openScheme scheme).scheme.map KasFfcScheme.view =
      openOr scheme (m.scheme.map KasFfcScheme.view) := by
  have hany : (m.scheme.map KasFfcScheme.view).any (fun s => s.scheme == scheme) =
      m.scheme.any fun s => s.scheme == scheme := List.any_map
  rw [openScheme, openOr, hany]
  split <;> rfl

/-- Changing a scheme of KAS-FFC, seen abstractly. -/
theorem KasFfcCapMode.withScheme_view (scheme : Int) (f : KasFfcScheme → KasFfcScheme)
    (act : SchemeAct) (h : ∀ s, (f s).view = act.apply s.view) (m : KasFfcCapMode) :
    (m.withScheme scheme f).scheme.map KasFfcScheme.view =
      modifyFirst (fun s => s.scheme == scheme) act.apply (m.scheme.map KasFfcScheme.view) := by
  refine map_modifyFirst ?_ h m.scheme
  intro s
  rfl

/-- Adding a parameter set to a scheme of KAS-FFC, seen abstractly. -/
theorem KasFfcScheme.addPset_view (s : KasFfcScheme) (set value : Int) :
    KasFfcScheme.view { s with
      pset := upsert (fun p => p.set == set) { set := set }
        (fun p => { p with sha := p.sha ++ [value] }) s.pset } =
      (SchemeAct.pset set 0 value).apply s.view := by
  rw [view, SchemeAct.apply, Scheme.mk.injEq]
  refine ⟨rfl, rfl, rfl, ?_⟩
  refine map_upsert ?_ ?_ s.pset
  · intro p
    rfl
  · intro p
    rfl

/-- What is left of the list of a mode of KAS-FFC. -/
theorem kasFfcModeSetScheme_stores {a : KasFfcSchemeArgs} {m m' : KasFfcCapMode}
    (h : kasFfcModeSetScheme a.scheme a.param a.value m = .ok (.success, m')) :
    m'.scheme.map KasFfcScheme.view = a.sets.store (m.scheme.map KasFfcScheme.view) := by
  obtain ⟨scheme, param, value⟩ := a
  rw [kasFfcModeSetScheme, Op.ite_apply] at h
  split at h
  swap
  · cases h
  rw [SchemeCall.store]
  change _ = modifyFirst _ _ (openOr scheme _)
  rw [← m.openScheme_view scheme]
  rw [Op.changed] at h
  generalize m.openScheme scheme = opened at h ⊢
  cases param with
  | kdf =>
      simp only [kasFfcStoreScheme, Op.ite_apply] at h
      split at h
      · cases h
      · cases h
        exact KasFfcCapMode.withScheme_view scheme _ (.kdf value) (fun _ => rfl) opened
  | role =>
      simp only [kasFfcStoreScheme, Op.ite_apply] at h
      split at h
      · cases h
      · cases h
        exact KasFfcCapMode.withScheme_view scheme _ (.role value) (fun _ => rfl) opened
  | fb | fc | modp2048 | modp3072 | modp4096 | modp6144 | modp8192 | ffdhe2048 | ffdhe3072
  | ffdhe4096 | ffdhe6144 | ffdhe8192 =>
      cases h
      exact KasFfcCapMode.withScheme_view scheme _ (.pset _ 0 value)
        (fun s => s.addPset_view _ value) opened
  | function | curve | hash | genMeth | other raw => cases h

/-- What a call for a scheme of KAS-FFC did when it succeeded. -/
theorem kasFfcSetScheme_success {mode : KasFfcMode} {scheme : Int} {param : KasFfcParam}
    {value : Int} {cap cap' : KasFfcCap}
    (h : kasFfcSetScheme mode scheme param value cap = .ok (.success, cap')) :
    kasFfcAtMode mode (kasFfcModeSetScheme scheme param value) cap =
      .ok (.success, cap') := by
  cases mode with
  | component | nocomp | none => exact h
  | maxModes | other raw => cases h

/-- One more call for KAS-FFC. -/
theorem kasFfcSchemes_call {cipher : Cipher} {mode : KasFfcMode} {a : KasFfcSchemeArgs}
    {s s' : Caps} {l : List Scheme} (hl : s.kasFfcSchemes cipher mode = some l)
    (h : (a.call cipher mode).exec s = .ok (.success, s')) :
    s'.kasFfcSchemes cipher mode = some (a.sets.store l) := by
  obtain ⟨cap, hcap, hl⟩ := Option.bind_eq_some_iff.mp hl
  obtain ⟨m, hm, hl⟩ := Option.bind_eq_some_iff.mp hl
  cases hl
  simp only [CapCall.exec, CapCall.action, KasFfcSchemeArgs.call, capKasFfcSetScheme] at h
  obtain ⟨cap', hop, hcap'⟩ := CapAction.content_of_run hcap h
  obtain ⟨modes, hmodes, rfl⟩ := Op.zoom_eq_ok_iff.mp (kasFfcSetScheme_success hop)
  obtain ⟨-, m₀, m', hm₀, hm', rfl⟩ := Op.atIndex_eq_ok_iff.mp hmodes
  cases hm.symm.trans hm₀
  have hlt := (List.getElem?_eq_some_iff.mp hm).1
  rw [← kasFfcModeSetScheme_stores hm', Caps.kasFfcSchemes, hcap']
  simp only [Option.bind_eq_bind, Option.bind_some, List.getElem?_set_self hlt]
  rfl

/-! ## Sequences of calls -/

/-- A function of the interface that works on one list of schemes. -/
structure SchemeFunction (Args : Type) where
  call : Args → CapCall
  sets : Args → SchemeCall
  schemes : Caps → Option (List Scheme)
  schemes_call {a : Args} {s s' : Caps} {l : List Scheme} (hl : schemes s = some l)
    (h : (call a).exec s = .ok (.success, s')) : schemes s' = some ((sets a).store l)

/-- {lit}`amvp_cap_kas_ecc_set_scheme` on one cipher and mode. -/
def kasEccSchemeFunction (cipher : Cipher) (mode : KasEccMode) :
    SchemeFunction KasEccSchemeArgs where
  call := KasEccSchemeArgs.call cipher mode
  sets := KasEccSchemeArgs.sets
  schemes s := s.kasEccSchemes cipher mode
  schemes_call := kasEccSchemes_call

/-- {lit}`amvp_cap_kas_ffc_set_scheme` on one cipher and mode. -/
def kasFfcSchemeFunction (cipher : Cipher) (mode : KasFfcMode) :
    SchemeFunction KasFfcSchemeArgs where
  call := KasFfcSchemeArgs.call cipher mode
  sets := KasFfcSchemeArgs.sets
  schemes s := s.kasFfcSchemes cipher mode
  schemes_call := kasFfcSchemes_call

namespace SchemeFunction

variable {Args : Type} (F : SchemeFunction Args)

/-- After a number of successful calls the list is what they store. -/
theorem schemes_of_succeeded {args : List Args} {s s' : Caps} (hs : F.schemes s = some [])
    (h : Succeeded s (args.map F.call) s') : F.schemes s' = some (stored (args.map F.sets)) := by
  induction args using List.reverseRecOn generalizing s' with
  | nil =>
      rcases succeeded_nil_iff.mp h with rfl
      exact hs
  | append_singleton args a ih =>
      rw [List.map_append] at h
      obtain ⟨s₁, hcalls, hexec⟩ := succeeded_snoc_iff.mp h
      rw [List.map_append, List.map_singleton, stored_snoc]
      exact F.schemes_call (ih hcalls) hexec

/-- The list holds what the calls have set just when they name one scheme. -/
theorem accumulates_iff {args : List Args} {s s' : Caps} (hs : F.schemes s = some [])
    (h : Succeeded s (args.map F.call) s') :
    (∃ l, F.schemes s' = some l ∧ Accumulated (args.map F.sets) l) ↔
      ∃ n, ∀ a ∈ args, (F.sets a).scheme = n := by
  rw [F.schemes_of_succeeded hs h]
  simp only [Option.some.injEq, exists_eq_left', accumulated_stored_iff, List.forall_mem_map]

end SchemeFunction

/-- After a number of successful calls for one cipher and mode, from an empty list, the list
holds what they have set just when they all name one scheme. -/
theorem kasSetScheme_accumulates_iff (cipher : Cipher) (s s' : Caps) :
    (∀ (mode : KasEccMode) (args : List KasEccSchemeArgs),
      s.kasEccSchemes cipher mode = some [] →
      Succeeded s (args.map (KasEccSchemeArgs.call cipher mode)) s' →
      ((∃ l, s'.kasEccSchemes cipher mode = some l ∧
          Accumulated (args.map KasEccSchemeArgs.sets) l) ↔
        ∃ n, ∀ a ∈ args, a.scheme = n)) ∧
    ∀ (mode : KasFfcMode) (args : List KasFfcSchemeArgs),
      s.kasFfcSchemes cipher mode = some [] →
      Succeeded s (args.map (KasFfcSchemeArgs.call cipher mode)) s' →
      ((∃ l, s'.kasFfcSchemes cipher mode = some l ∧
          Accumulated (args.map KasFfcSchemeArgs.sets) l) ↔
        ∃ n, ∀ a ∈ args, a.scheme = n) := by
  constructor
  · intro mode args hs h
    exact (kasEccSchemeFunction cipher mode).accumulates_iff hs h
  · intro mode args hs h
    exact (kasFfcSchemeFunction cipher mode).accumulates_iff hs h

/-- A role and a hash function of one scheme of KAS-ECC, set right after it was enabled. -/
theorem kasSetScheme_accumulates_one_scheme :
    ∃ s s', (CapCall.kasEccEnable .kasEccComp (some ⟨0⟩)).exec {} = .ok (.success, s) ∧
      Succeeded s (([⟨1, .role, 0, 1⟩, ⟨1, .ec, 2, 64⟩] : List KasEccSchemeArgs).map
        (KasEccSchemeArgs.call .kasEccComp .component)) s' ∧
      ∃ l, s'.kasEccSchemes .kasEccComp .component = some l ∧
        Accumulated [⟨1, .role 1⟩, ⟨1, .pset 7 2 64⟩] l := by
  have hcalls : ∃ s s', (CapCall.kasEccEnable .kasEccComp (some ⟨0⟩)).exec {} =
      .ok (.success, s) ∧ s.kasEccSchemes .kasEccComp .component = some [] ∧
      Succeeded s (([⟨1, .role, 0, 1⟩] ++ [⟨1, .ec, 2, 64⟩] : List KasEccSchemeArgs).map
        (KasEccSchemeArgs.call .kasEccComp .component)) s' := by
    exact ⟨_, _, rfl, rfl, succeeded_snoc_iff.mpr ⟨_, .call .start rfl, rfl⟩⟩
  obtain ⟨s, s', henable, hs, hcalls⟩ := hcalls
  exact ⟨s, s', henable, hcalls,
    ((kasSetScheme_accumulates_iff .kasEccComp s s').1 .component _ hs hcalls).mpr ⟨1, by simp⟩⟩

/-- The second scheme of a mode takes the place of the first, whose role is lost. -/
theorem kasSetScheme_loses_scheme :
    ∃ s s₁ s₂, (CapCall.kasEccEnable .kasEccComp (some ⟨0⟩)).exec {} = .ok (.success, s) ∧
      (CapCall.kasEccSetScheme .kasEccComp .component 1 .role 0 1).exec s = .ok (.success, s₁) ∧
      (CapCall.kasEccSetScheme .kasEccComp .component 2 .role 0 1).exec s₁ = .ok (.success, s₂) ∧
      s₁.kasEccSchemes .kasEccComp .component = some [{ scheme := 1, role := [1] }] ∧
      s₂.kasEccSchemes .kasEccComp .component = some [{ scheme := 2, role := [1] }] := by
  exact ⟨_, _, _, rfl, rfl, rfl, rfl, rfl⟩

end LibAmvp
