import LibAmvp.Registration.RsaNodes

/-!
# Modes of the generation of RSA keys

A mode of the generation of keys is a way to find the primes.  Hashes and prime tests are set for
a modulus of a mode, and the exponent is set once for all modes.

Main results:

- Theorem {lit}`keygen_stores`: what a run of calls leaves in the nodes.
- Theorem {lit}`rsaKeygen_registered`: what is registered for it.
-/

namespace LibAmvp

open Guard Keyed

/-! ## Calls -/

/-- A call on the capability of the generation of keys. -/
inductive RsaKeygenCall where
  | setMode (value : Int)
  | setParm (param : RsaParm) (value : Int)
  | setPrimes (mode mod : Int) (param : RsaPrimeParam) (value : Int)
  | setExponent (param : RsaParm) (value : Option String)

namespace RsaKeygenCall

/-- What a call does with the nodes. -/
def setter : RsaKeygenCall → Setter (List RsaKeygenNode)
  | setMode value =>
    claimOr (fun node : RsaKeygenNode => node.randPq < 1 ∨ 5 < node.randPq)
      (fun node => node.randPq = value) {}
      fun node =>
        { node with
          randPq := value
          randPqStr := (rsaRandPqStr value).or node.randPqStr }
  | setParm .pubExpMode value => storeHead fun cap => { cap with pubExpMode := value }
  | setParm .infoGenByServer value =>
    if isValidTfParam value = .success then
      storeHead fun cap => { cap with infoGenByServer := value }
    else refuse .invalidArg
  | setParm .keyFormatCrt value =>
    if isValidTfParam value = .success then storeHead fun cap => { cap with keyFormatCrt := value }
    else refuse .invalidArg
  | setParm _ _ => refuse .invalidArg
  | setPrimes mode mod param value =>
    Op.atFirst (fun node => node.randPq == mode) .noCap (rsaKeygenAddPrime mod param value)
  | setExponent param value =>
    Op.atHead .nullPointer (setFixedPubExp RsaKeygenNode.pubExpMode RsaKeygenNode.fixedPubExp
      (fun text cap => { cap with fixedPubExp := some text }) param value)

/-- The function that is called. -/
def action : RsaKeygenCall → CapAction
  | setMode value => capRsaKeygenSetMode value
  | setParm param value => capRsaKeygenSetParm param value
  | setPrimes mode mod param value => capRsaKeygenSetPrimes mode mod param value
  | setExponent param value => capRsaKeygenSetExponent param value

/-- A function refuses its arguments, or it works on the nodes. -/
theorem action_cases (c : RsaKeygenCall) :
    c.action = .atEntry .rsaKeygen (.member .rsaKeygenCap (uncounted c.setter)) ∨
      c.action = .atEntry .rsaKeygen (.refuse .invalidArg) := by
  cases c with
  | setMode value => exact Or.inl rfl
  | setPrimes mode mod param value => exact Or.inl rfl
  | setExponent param value => exact Or.inl rfl
  | setParm param value =>
    cases param with
    | pubExpMode => exact Or.inl rfl
    | infoGenByServer | keyFormatCrt =>
      unfold action capRsaKeygenSetParm setter
      dsimp only
      by_cases hvalue : isValidTfParam value = .success
      · simp only [if_pos hvalue]
        exact Or.inl trivial
      · simp only [if_neg hvalue]
        exact Or.inr trivial
    | _ => exact Or.inr rfl

/-- The condition on a call: a mode has a name, the moduli go to a mode, and the exponent is UTF-8
and set while its mode is fixed and stays so. -/
def Meets (nodes : List RsaKeygenNode) : RsaKeygenCall → Prop
  | setMode value => (rsaRandPqStr value).isSome
  | setParm .pubExpMode value =>
    ∀ first ∈ nodes.head?, first.fixedPubExp = none ∨ value = rsaPubExpModeFixed
  | setParm _ _ => True
  | setPrimes mode _ _ _ => mode ≠ 0
  | setExponent _ value => (∀ first ∈ nodes.head?, first.pubExpMode = rsaPubExpModeFixed) ∧
    IsText (value.getD "")

/-! ## What the calls set -/

/-- The mode that a call sets. -/
def mode? : RsaKeygenCall → Option Int
  | setMode value => some value
  | _ => none

/-- The modulus of a mode that a call sets something for. -/
def modulus? (mode : Int) : RsaKeygenCall → Option Int
  | setPrimes mode' mod _ _ => if mode' = mode then some mod else none
  | _ => none

/-- The hash that a call sets for a modulus. -/
def hash? (mode mod : Int) : RsaKeygenCall → Option String
  | setPrimes mode' mod' .hashAlg value =>
    if mode' = mode ∧ mod' = mod then lookupHashAlgName value else none
  | _ => none

/-- The prime test that a call sets for a modulus. -/
def primeTest? (mode mod : Int) : RsaKeygenCall → Option String
  | setPrimes mode' mod' .test value =>
    if mode' = mode ∧ mod' = mod then lookupRsaPrimeTestName value else none
  | _ => none

/-- The mode of the exponent that a call sets. -/
def exponentMode? : RsaKeygenCall → Option Int
  | setParm .pubExpMode value => some value
  | _ => none

/-- The exponent that a call sets. -/
def exponent? : RsaKeygenCall → Option String
  | setExponent .fixedPubExpVal value => some (value.getD "")
  | _ => none

end RsaKeygenCall

section Keygen

variable (calls : List RsaKeygenCall)

/-- The modes in the order of their calls. -/
def keygenModes : List Int := calls.filterMap RsaKeygenCall.mode?

/-- The moduli of a mode, in the order in which they were set first. -/
def keygenModuli (mode : Int) : List Int :=
  (calls.filterMap (RsaKeygenCall.modulus? mode)).eraseDups

/-- The hashes of a modulus. -/
def keygenHashes (mode mod : Int) : List String := calls.filterMap (RsaKeygenCall.hash? mode mod)

/-- The prime tests of a modulus. -/
def keygenPrimeTests (mode mod : Int) : List String :=
  calls.filterMap (RsaKeygenCall.primeTest? mode mod)

/-- The mode of the exponent that was set last. -/
def keygenExponentMode : Int := (calls.filterMap RsaKeygenCall.exponentMode?).getLast?.getD 0

/-- The exponents that were set. -/
def keygenExponents : List String := calls.filterMap RsaKeygenCall.exponent?

/-- The object of a modulus with all that was set for it. -/
def keygenModulusObject (mode mod : Int) : JsonObject :=
  [("modulo", .num mod), ("hashAlg", stringsArray (keygenHashes calls mode mod))] ++
    if keygenPrimeTests calls mode mod = [] then []
    else [("primeTest", stringsArray (keygenPrimeTests calls mode mod))]

/-- The object of a mode with all that was set for it. -/
def keygenModeObject (mode : Int) : JsonObject :=
  [("randPQ", .str ((rsaRandPqStr mode).getD ""))] ++
    if keygenModuli calls mode = [] then []
    else [("properties",
      .arr ((keygenModuli calls mode).map fun mod => .obj (keygenModulusObject calls mode mod)))]

/-- What was set is registered: an object for every mode in the order of their calls, and the
exponent. -/
def KeygenRegistered (nodes : List RsaKeygenNode) : Prop :=
  (keygenModes calls).Nodup ∧ ∀ capObj entry, entry.cipher = .rsaKeygen →
    keygenModes calls ≠ [] → keygenExponentMode calls ≠ 0 →
    ∃ obj, buildRsaKeygenRegisterCap capObj entry nodes = .ok obj ∧
      jsonObjectGetArray (some obj) "capabilities" =
        some ((keygenModes calls).map fun mode => .obj (keygenModeObject calls mode)) ∧
      ∀ exponent ∈ keygenExponents calls,
        jsonObjectGetString (some obj) "fixedPubExp" = some exponent

/-- The moduli of a mode as they are stored. -/
def keygenStored (mode : Int) : List RsaModeCaps :=
  (keygenModuli calls mode).map fun mod =>
    { modulo := mod
      hashAlgs := keygenHashes calls mode mod
      primeTests := keygenPrimeTests calls mode mod }

end Keygen

/-! ## What the calls store -/

/-- The change that a call makes to a modulus. -/
def rsaPrimeChange (param : RsaPrimeParam) (value : Int) : Option (RsaModeCaps → RsaModeCaps) :=
  match param with
  | .hashAlg =>
    (lookupHashAlgName value).map fun name c => { c with hashAlgs := c.hashAlgs ++ [name] }
  | .test =>
    (lookupRsaPrimeTestName value).map fun name c => { c with primeTests := c.primeTests ++ [name] }
  | .other _ => none

/-- What an accepted call for a modulus changed. -/
theorem rsaKeygenAddPrime_accepted {mod value : Int} {param : RsaPrimeParam}
    {x x' : RsaKeygenNode} (h : rsaKeygenAddPrime mod param value x = .ok (.success, x')) :
    ∃ f, rsaPrimeChange param value = some f ∧ x' = x.withModulo mod f := by
  have htwice (f : RsaModeCaps → RsaModeCaps) :
      (x.withModulo mod id).withModulo mod f = x.withModulo mod f := by
    unfold RsaKeygenNode.withModulo
    dsimp only
    rw [withModulo_withModulo_id]
  unfold rsaKeygenAddPrime Op.changed at h
  cases param with
  | hashAlg =>
    cases hname : lookupHashAlgName value with
    | none =>
      simp only [hname] at h
      cases h
    | some name =>
      simp only [hname] at h
      cases h
      exact ⟨_, by rw [rsaPrimeChange, hname]; rfl, htwice _⟩
  | test =>
    cases hname : lookupRsaPrimeTestName value with
    | none =>
      simp only [hname] at h
      cases h
    | some name =>
      simp only [hname] at h
      cases h
      exact ⟨_, by rw [rsaPrimeChange, hname]; rfl, htwice _⟩
  | other raw => cases h

/-- A call for no modulus gives neither a hash nor a prime test for it. -/
theorem RsaKeygenCall.of_modulus_none {c : RsaKeygenCall} {mode mod : Int}
    (h : c.modulus? mode ≠ some mod) :
    c.hash? mode mod = none ∧ c.primeTest? mode mod = none := by
  cases c with
  | setPrimes mode' mod' param value =>
    have hne : ¬(mode' = mode ∧ mod' = mod) := by
      rintro ⟨rfl, rfl⟩
      exact h (if_pos rfl)
    cases param with
    | hashAlg => exact ⟨if_neg hne, rfl⟩
    | test => exact ⟨rfl, if_neg hne⟩
    | other raw => exact ⟨rfl, rfl⟩
  | _ => exact ⟨rfl, rfl⟩

/-- Nothing is set for a modulus that was not set. -/
theorem keygen_unset {calls : List RsaKeygenCall} {mode mod : Int}
    (h : mod ∉ calls.filterMap (RsaKeygenCall.modulus? mode)) :
    keygenHashes calls mode mod = [] ∧ keygenPrimeTests calls mode mod = [] := by
  have hnone : ∀ c ∈ calls, c.hash? mode mod = none ∧ c.primeTest? mode mod = none := fun c hc =>
    RsaKeygenCall.of_modulus_none fun hmod => h (List.mem_filterMap.mpr ⟨c, hc, hmod⟩)
  exact ⟨List.filterMap_eq_nil_iff.mpr fun c hc => (hnone c hc).1,
    List.filterMap_eq_nil_iff.mpr fun c hc => (hnone c hc).2⟩

/-- Nor does it change what is stored. -/
theorem keygenStored_of_modulus_none {calls : List RsaKeygenCall} {c : RsaKeygenCall} {mode : Int}
    (h : c.modulus? mode = none) :
    keygenStored (calls ++ [c]) mode = keygenStored calls mode := by
  unfold keygenStored keygenModuli keygenHashes keygenPrimeTests
  rw [List.filterMap_append_none h]
  refine List.map_congr_left fun mod _ => ?_
  have hother : c.modulus? mode ≠ some mod := by
    rw [h]
    exact (Option.some_ne_none mod).symm
  obtain ⟨hhash, htest⟩ := RsaKeygenCall.of_modulus_none hother
  rw [List.filterMap_append_none hhash, List.filterMap_append_none htest]

/-- A call for a modulus changes what is stored for it. -/
theorem keygenStored_setPrimes {calls : List RsaKeygenCall} {mode mod value : Int}
    {param : RsaPrimeParam} {f : RsaModeCaps → RsaModeCaps}
    (hf : rsaPrimeChange param value = some f) :
    keygenStored (calls ++ [.setPrimes mode mod param value]) mode =
      withModulo mod f (keygenStored calls mode) := by
  have hmodulus : RsaKeygenCall.modulus? mode (.setPrimes mode mod param value) = some mod :=
    if_pos rfl
  unfold withModulo keygenStored keygenModuli
  rw [List.filterMap_append_some hmodulus]
  refine (upsert_eraseDups (fun j => beq_iff_eq) (fun hnew => ?_) ?_ fun j hj => ?_).symm
  · obtain ⟨hhashes, htests⟩ := keygen_unset hnew
    rw [hhashes, htests]
  · cases param with
    | hashAlg =>
      obtain ⟨name, hname, rfl⟩ := Option.map_eq_some_iff.mp hf
      have hhash : RsaKeygenCall.hash? mode mod (.setPrimes mode mod .hashAlg value) = some name :=
        (if_pos ⟨rfl, rfl⟩).trans hname
      have htest : RsaKeygenCall.primeTest? mode mod (.setPrimes mode mod .hashAlg value) = none :=
        rfl
      rw [keygenHashes, keygenPrimeTests, List.filterMap_append_some hhash,
        List.filterMap_append_none htest]
      rfl
    | test =>
      obtain ⟨name, hname, rfl⟩ := Option.map_eq_some_iff.mp hf
      have hhash : RsaKeygenCall.hash? mode mod (.setPrimes mode mod .test value) = none := rfl
      have htest : RsaKeygenCall.primeTest? mode mod (.setPrimes mode mod .test value) =
          some name := (if_pos ⟨rfl, rfl⟩).trans hname
      rw [keygenHashes, keygenPrimeTests, List.filterMap_append_none hhash,
        List.filterMap_append_some htest]
      rfl
    | other raw => cases hf
  · have hother : RsaKeygenCall.modulus? mode (.setPrimes mode mod param value) ≠ some j := by
      rw [hmodulus]
      exact fun h => hj (Option.some.inj h).symm
    obtain ⟨hhash, htest⟩ := RsaKeygenCall.of_modulus_none hother
    rw [keygenHashes, keygenPrimeTests, List.filterMap_append_none hhash,
      List.filterMap_append_none htest]
    rfl

/-- The mode and the moduli of a node. -/
def RsaKeygenNode.content (node : RsaKeygenNode) : Int × List RsaModeCaps :=
  (node.randPq, node.modeCapabilities)

/-- The mode of the exponent and the exponent of a node. -/
def RsaKeygenNode.header (node : RsaKeygenNode) : Int × Option String :=
  (node.pubExpMode, node.fixedPubExp)

/-- How the nodes of the modes are read. -/
def keygenForm : NodeForm RsaKeygenNode (Int × List RsaModeCaps) where
  content := RsaKeygenNode.content
  header := RsaKeygenNode.header
  blank := (0, [])
  entry := Prod.mk

/-- What is taken from calls. -/
def keygenTrace : CallForm RsaKeygenCall where
  key? := RsaKeygenCall.mode?
  stored := keygenStored
  exponentMode? := RsaKeygenCall.exponentMode?
  exponent? := RsaKeygenCall.exponent?

/-- The nodes hold what the calls have set. -/
abbrev KeygenStores (calls : List RsaKeygenCall) (nodes : List RsaKeygenNode)
    (fixed : Option String) : Prop :=
  RunStores keygenForm keygenTrace (fun mode => (rsaRandPqStr mode).isSome) calls nodes fixed

/-- The ways to generate primes are numbered from one to five. -/
theorem rsaRandPq_range {mode : Int} (h : (rsaRandPqStr mode).isSome) : 1 ≤ mode ∧ mode ≤ 5 := by
  by_contra hrange
  unfold rsaRandPqStr at h
  rw [if_neg (by omega), if_neg (by omega), if_neg (by omega), if_neg (by omega),
    if_neg (by omega)] at h
  cases h

/-- A call for no modulus changes no mode. -/
theorem keygenStored_of_none {calls : List RsaKeygenCall} {c : RsaKeygenCall}
    (h : ∀ mode, c.modulus? mode = none) : keygenStored (calls ++ [c]) = keygenStored calls :=
  funext fun mode => keygenStored_of_modulus_none (h mode)

section Steps

variable {calls : List RsaKeygenCall} {nodes nodes' : List RsaKeygenNode} {fixed : Option String}
  (h : KeygenStores calls nodes fixed)

include h

/-- A new mode is stored. -/
theorem keygenStores_setMode {value : Int} (hvalue : (rsaRandPqStr value).isSome)
    (hset : (RsaKeygenCall.setMode value).setter nodes = .ok (.success, nodes')) :
    KeygenStores (calls ++ [.setMode value]) nodes' fixed := by
  refine h.claim rfl (keygenStored_of_none fun _ => rfl) rfl rfl hvalue hset (fun x hx => ?_)
    (fun x mode l hmode hx => ?_) rfl (fun x hx => ?_) fun _ => rfl
  · have hzero : x.randPq = 0 := congrArg Prod.fst hx
    exact decide_eq_true (Or.inl (by omega))
  · have hmode' : x.randPq = mode := congrArg Prod.fst hx
    have hrange := rsaRandPq_range hmode
    exact ⟨decide_eq_false (by omega), fun htaken => hmode' ▸ of_decide_eq_false htaken⟩
  · have hcaps : x.modeCapabilities = [] := congrArg Prod.snd hx
    exact Prod.ext rfl hcaps

/-- A parameter is stored. -/
theorem keygenStores_setParm {param : RsaParm} {value : Int}
    (hmeets : RsaKeygenCall.Meets nodes (.setParm param value))
    (hset : (RsaKeygenCall.setParm param value).setter nodes = .ok (.success, nodes')) :
    KeygenStores (calls ++ [.setParm param value]) nodes' fixed := by
  have hstored : keygenStored (calls ++ [.setParm param value]) = keygenStored calls :=
    keygenStored_of_none fun _ => rfl
  cases param with
  | pubExpMode =>
    exact h.setExponentMode rfl hstored rfl rfl hmeets hset (fun _ => rfl) fun _ => rfl
  | infoGenByServer | keyFormatCrt =>
    unfold RsaKeygenCall.setter at hset
    dsimp only at hset
    by_cases hvalue : isValidTfParam value = .success
    · rw [if_pos hvalue] at hset
      exact h.setOther rfl hstored rfl rfl hset (fun _ => rfl) fun _ => rfl
    · rw [if_neg hvalue] at hset
      cases hset
  | _ => cases hset

/-- A hash or prime test of a modulus is stored. -/
theorem keygenStores_setPrimes {mode mod value : Int} {param : RsaPrimeParam} (hmode : mode ≠ 0)
    (hset : (RsaKeygenCall.setPrimes mode mod param value).setter nodes = .ok (.success, nodes')) :
    KeygenStores (calls ++ [.setPrimes mode mod param value]) nodes' fixed := by
  refine h.modify (k := mode) rfl rfl rfl (by decide) hset (fun x hx => ?_) (fun x j l hx => ?_)
    (fun x x' hout => ?_) (fun x x' hx hout => ?_) fun j hj => ?_
  · have hzero : x.randPq = 0 := congrArg Prod.fst hx
    exact beq_eq_false_iff_ne.mpr (hzero ▸ hmode.symm)
  · have hj : x.randPq = j := congrArg Prod.fst hx
    rw [beq_iff_eq, hj]
  · obtain ⟨f, -, rfl⟩ := rsaKeygenAddPrime_accepted hout
    rfl
  · obtain ⟨f, hf, rfl⟩ := rsaKeygenAddPrime_accepted hout
    have hcaps : x.modeCapabilities = keygenStored calls mode := congrArg Prod.snd hx
    have hmode' : x.randPq = mode := congrArg Prod.fst hx
    refine Prod.ext hmode' ?_
    refine Eq.trans ?_ (keygenStored_setPrimes hf).symm
    rw [← hcaps]
    rfl
  · exact keygenStored_of_modulus_none (if_neg fun heq => hj heq.symm)

/-- A fixed public exponent is stored. -/
theorem keygenStores_setExponent {param : RsaParm} {value : Option String}
    (hmeets : RsaKeygenCall.Meets nodes (.setExponent param value))
    (hset : (RsaKeygenCall.setExponent param value).setter nodes = .ok (.success, nodes')) :
    KeygenStores (calls ++ [.setExponent param value]) nodes' (some (value.getD "")) := by
  refine h.setExponent rfl (keygenStored_of_none fun _ => rfl) rfl (fun hparam => ?_)
    (fun _ => rfl) hmeets.1 hset (fun _ _ => rfl) fun _ _ => rfl
  rw [hparam]
  rfl

end Steps

/-- What a run of calls leaves in the nodes. -/
theorem keygen_stores {calls : List RsaKeygenCall} {nodes : List RsaKeygenNode}
    (h : AcceptedRun RsaKeygenCall.setter RsaKeygenCall.Meets [{}] calls nodes) :
    ∃ fixed, KeygenStores calls nodes fixed := by
  induction h with
  | start => exact ⟨none, .start rfl rfl fun _ => rfl⟩
  | call before c condition accepted ih =>
    obtain ⟨fixed, ih⟩ := ih
    cases c with
    | setMode value => exact ⟨fixed, keygenStores_setMode ih condition accepted⟩
    | setParm param value => exact ⟨fixed, keygenStores_setParm ih condition accepted⟩
    | setPrimes mode mod param value => exact ⟨fixed, keygenStores_setPrimes ih condition accepted⟩
    | setExponent param value => exact ⟨_, keygenStores_setExponent ih condition accepted⟩

/-! ## What is built -/

/-- The name of a hash is found in the handler's table. -/
theorem lookupHashAlg_of_name {value : Int} {name : String}
    (h : lookupHashAlgName value = some name) : (lookupHashAlg name).isSome = true := by
  obtain ⟨alg, -, rfl⟩ := Option.map_eq_some_iff.mp h
  cases alg <;> rfl

/-- The name of a prime test is a valid one. -/
theorem isValidPrimeTest_of_name {value : Int} {name : String}
    (h : lookupRsaPrimeTestName value = some name) : isValidPrimeTest name = true := by
  unfold lookupRsaPrimeTestName at h
  split at h
  · cases h
    rfl
  · split at h
    · cases h
      rfl
    · cases h

/-- The hashes and prime tests that were set pass the checks of the builder. -/
theorem keygen_valid (calls : List RsaKeygenCall) (mode mod : Int) :
    (∀ name ∈ keygenHashes calls mode mod, (lookupHashAlg name).isSome = true) ∧
      ∀ name ∈ keygenPrimeTests calls mode mod, isValidPrimeTest name = true := by
  constructor
  · intro name hname
    obtain ⟨c, -, hc⟩ := List.mem_filterMap.mp hname
    unfold RsaKeygenCall.hash? at hc
    split at hc
    · split at hc
      · exact lookupHashAlg_of_name hc
      · cases hc
    · cases hc
  · intro name hname
    obtain ⟨c, -, hc⟩ := List.mem_filterMap.mp hname
    unfold RsaKeygenCall.primeTest? at hc
    split at hc
    · split at hc
      · exact isValidPrimeTest_of_name hc
      · cases hc
    · cases hc

/-- The object of a modulus lists its hashes and prime tests. -/
theorem rsaPrimesObject_stored (calls : List RsaKeygenCall) (mode mod : Int) :
    rsaPrimesObject
      { modulo := mod
        hashAlgs := keygenHashes calls mode mod
        primeTests := keygenPrimeTests calls mode mod } = keygenModulusObject calls mode mod := by
  obtain ⟨hhashes, htests⟩ := keygen_valid calls mode mod
  unfold rsaPrimesObject keygenModulusObject
  dsimp only
  rw [List.filter_eq_self.mpr hhashes, List.filter_eq_self.mpr htests]
  by_cases htest : keygenPrimeTests calls mode mod = []
  · rw [if_pos htest, if_pos htest]
    rfl
  · rw [if_neg htest, if_neg htest]
    rfl

/-- The objects of a mode are built for the moduli that were stored. -/
theorem lookupRsaPrimes_stored {calls : List RsaKeygenCall} {mode : Int}
    (hmode : (rsaRandPqStr mode).isSome) {node : RsaKeygenNode}
    (hnode : node.content = (mode, keygenStored calls mode)) :
    lookupRsaPrimes (jsonObjectSetText [] "randPQ" (lookupRsaRandpqName node.randPq)) node =
      keygenModeObject calls mode := by
  have hrandPq : node.randPq = mode := congrArg Prod.fst hnode
  have hcaps : node.modeCapabilities = keygenStored calls mode := congrArg Prod.snd hnode
  obtain ⟨name, hname⟩ := Option.isSome_iff_exists.mp hmode
  unfold lookupRsaPrimes keygenModeObject lookupRsaRandpqName
  rw [hrandPq, hcaps, hname]
  by_cases hmoduli : keygenModuli calls mode = []
  · rw [if_pos hmoduli, if_pos (by rw [keygenStored, hmoduli]; rfl)]
    rfl
  · rw [if_neg hmoduli, if_neg (by rw [keygenStored, List.map_eq_nil_iff]; exact hmoduli),
      keygenStored, List.map_map]
    have hobjects : (keygenModuli calls mode).map ((fun c => Json.obj (rsaPrimesObject c)) ∘
        fun mod =>
          { modulo := mod
            hashAlgs := keygenHashes calls mode mod
            primeTests := keygenPrimeTests calls mode mod }) =
        (keygenModuli calls mode).map fun mod => .obj (keygenModulusObject calls mode mod) :=
      List.map_congr_left fun mod _ => congrArg Json.obj (rsaPrimesObject_stored calls mode mod)
    rw [hobjects]
    rfl

/-- The exponents of calls that meet their conditions are UTF-8. -/
theorem isText_of_keygenExponent {calls : List RsaKeygenCall}
    (hmeets : ∀ c ∈ calls, ∃ nodes, RsaKeygenCall.Meets nodes c) {exponent : String}
    (h : exponent ∈ calls.filterMap RsaKeygenCall.exponent?) : IsText exponent := by
  obtain ⟨c, hc, hexponent⟩ := List.mem_filterMap.mp h
  obtain ⟨nodes, hmeets⟩ := hmeets c hc
  cases c with
  | setExponent param value =>
    cases param with
    | fixedPubExpVal =>
      obtain rfl := Option.some.inj hexponent
      exact hmeets.2
    | _ => cases hexponent
  | _ => cases hexponent

/-- Every mode is registered with its moduli, in the order of the calls, and so is the exponent. -/
theorem rsaKeygen_registered {calls : List RsaKeygenCall} {nodes : List RsaKeygenNode}
    (h : AcceptedRun RsaKeygenCall.setter RsaKeygenCall.Meets [{}] calls nodes) :
    KeygenRegistered calls nodes := by
  obtain ⟨fixed, hstores⟩ := keygen_stores h
  refine ⟨hstores.holds.nodup, fun capObj entry hentry hmodes hexponentMode => ?_⟩
  have hobjects : nodes.map (fun node => Json.obj (lookupRsaPrimes
      (jsonObjectSetText [] "randPQ" (lookupRsaRandpqName node.randPq)) node)) =
      (keygenModes calls).map fun mode => .obj (keygenModeObject calls mode) :=
    hstores.map_eq hmodes fun node mode hmode hnode =>
      congrArg Json.obj (lookupRsaPrimes_stored hmode hnode)
  obtain ⟨first, hhead, hheader⟩ := hstores.head_eq
  have hmode : first.pubExpMode = keygenExponentMode calls := congrArg Prod.fst hheader
  have hfixed : first.fixedPubExp = fixed := congrArg Prod.snd hheader
  obtain ⟨base, hbase⟩ : ∃ base,
      setNameAndRevision capObj (some "RSA") entry.cipher = .ok base := by
    rw [hentry]
    exact ⟨_, rfl⟩
  have hbuild : ∃ base', buildRsaKeygenRegisterCap capObj entry nodes = .ok (jsonObjectSetValue
      (jsonObjectSetText (setPubExp base' first.pubExpMode first.fixedPubExp) "keyFormat"
        (some (keyFormatStr first.keyFormatCrt))) "capabilities"
      (.arr ((keygenModes calls).map fun mode => .obj (keygenModeObject calls mode)))) := by
    refine ⟨jsonObjectSetBoolean (lookupPrereqVals (jsonObjectSetText base "mode"
      (some "keyGen")) entry) "infoGeneratedByServer" first.infoGenByServer, ?_⟩
    rw [buildRsaKeygenRegisterCap, hbase, ok_bind, hhead, need_some, ok_bind,
      stopIf_neg (hmode ▸ hexponentMode), ok_bind, hobjects]
    rfl
  obtain ⟨base', hbuild⟩ := hbuild
  refine ⟨_, hbuild, ?_, fun exponent hexponent => jsonObjectGetString_of_value ?_⟩
  · rw [jsonObjectGetArray, jsonObjectGetValue_set]
    rfl
  · obtain ⟨hset, hfixedMode⟩ := hstores.mem_exponents hexponent
    rw [jsonObjectGetValue_set_of_ne _ _ (by decide),
      jsonObjectGetValue_setText_of_ne _ _ (by decide), hfixed, hset, hmode]
    exact jsonObjectGetValue_setPubExp base' hfixedMode (isText_of_keygenExponent h.meets hexponent)

end LibAmvp
