import LibAmvp.Registration.RsaNodes

/-!
# Signature types of RSA

Hashes with their salts are set for a modulus of a signature type.  A hash without a name is
stored, and stops what is built later; the salt of a type other than PSS is stored and left out.

Main results:

- Theorem {lit}`sig_stores`: what a run of calls leaves in the nodes.
- Theorem {lit}`rsaSig_registered`: what is registered for it.
-/

namespace LibAmvp

open Guard Keyed

/-! ## Calls -/

/-- A call on the capability of a signature algorithm.  An exponent is set for the verification
alone. -/
inductive RsaSigCall (cipher : Cipher) where
  | setType (value : Int)
  | setModParm (sigType mod hashAlg saltLen : Int)
  | setParm (verifies : cipher = .rsaSigver) (param : RsaParm) (value : Int)
  | setExponent (verifies : cipher = .rsaSigver) (param : RsaParm) (value : Option String)

/-- {lit}`AMVP_RSA_SIG_TYPE_PKCS1PSS`. -/
def rsaSigTypePss : Int := 3

namespace RsaSigCall

variable {cipher : Cipher}

/-- What a call does with the nodes. -/
def setter : RsaSigCall cipher → Setter (List RsaSigNode)
  | setType value => rsaSigSetType value
  | setModParm sigType mod hashAlg saltLen =>
    if hashAlg = 0 ∨ mod = 0 then refuse .invalidArg
    else rsaSigSetModParm sigType mod hashAlg saltLen
  | setParm _ .pubExpMode value => storeHead fun cap => { cap with pubExpMode := value }
  | setParm _ _ _ => refuse .invalidArg
  | setExponent _ param value =>
    Op.atHead .nullPointer (setFixedPubExp RsaSigNode.pubExpMode RsaSigNode.fixedPubExp
      (fun text cap => { cap with fixedPubExp := some text }) param value)

/-- The function that is called for the generation of signatures. -/
def siggenAction : RsaSigCall .rsaSiggen → CapAction
  | setType value => capRsaSiggenSetType value
  | setModParm sigType mod hashAlg saltLen => capRsaSiggenSetModParm sigType mod hashAlg saltLen

/-- The function that is called for the verification of signatures. -/
def sigverAction : RsaSigCall .rsaSigver → CapAction
  | setType value => capRsaSigverSetType value
  | setModParm sigType mod hashAlg saltLen => capRsaSigverSetModParm sigType mod hashAlg saltLen
  | setParm _ param value => capRsaSigverSetParm param value
  | setExponent _ param value => capRsaSigverSetExponent param value

/-- A function refuses its arguments, or it works on the nodes. -/
theorem siggenAction_cases (c : RsaSigCall .rsaSiggen) :
    c.siggenAction = .atEntry .rsaSiggen (.member .rsaSiggenCap (uncounted c.setter)) ∨
      c.siggenAction = .refuse .invalidArg := by
  cases c with
  | setType value => exact Or.inl rfl
  | setModParm sigType mod hashAlg saltLen =>
    unfold siggenAction capRsaSiggenSetModParm setter
    dsimp only
    by_cases hzero : hashAlg = 0 ∨ mod = 0
    · simp only [if_pos hzero]
      exact Or.inr trivial
    · simp only [if_neg hzero]
      exact Or.inl trivial
  | setParm verifies param value => cases verifies
  | setExponent verifies param value => cases verifies

/-- A function refuses its arguments, or it works on the nodes. -/
theorem sigverAction_cases (c : RsaSigCall .rsaSigver) :
    c.sigverAction = .atEntry .rsaSigver (.member .rsaSigverCap (uncounted c.setter)) ∨
      c.sigverAction = .refuse .invalidArg ∨
      c.sigverAction = .atEntry .rsaSigver (.refuse .invalidArg) := by
  cases c with
  | setType value => exact Or.inl rfl
  | setExponent verifies param value => exact Or.inl rfl
  | setParm verifies param value =>
    cases param with
    | pubExpMode => exact Or.inl rfl
    | _ => exact Or.inr (Or.inr rfl)
  | setModParm sigType mod hashAlg saltLen =>
    unfold sigverAction capRsaSigverSetModParm setter
    dsimp only
    by_cases hzero : hashAlg = 0 ∨ mod = 0
    · simp only [if_pos hzero]
      exact Or.inr (Or.inl trivial)
    · simp only [if_neg hzero]
      exact Or.inl trivial

/-- The condition on a call: a type and a hash have names, a hash goes to a type, a salt goes to
PSS, and the exponent is UTF-8 and set while its mode is fixed and stays so. -/
def Meets (nodes : List RsaSigNode) : RsaSigCall cipher → Prop
  | setType value => (rsaSigTypeStr value).isSome
  | setModParm sigType _ hashAlg saltLen =>
    sigType ≠ 0 ∧ (lookupHashAlgName hashAlg).isSome ∧ (sigType = rsaSigTypePss ∨ saltLen = 0)
  | setParm _ .pubExpMode value =>
    ∀ first ∈ nodes.head?, first.fixedPubExp = none ∨ value = rsaPubExpModeFixed
  | setParm _ _ _ => True
  | setExponent _ _ value => (∀ first ∈ nodes.head?, first.pubExpMode = rsaPubExpModeFixed) ∧
    IsText (value.getD "")

/-! ## What the calls set -/

/-- The type that a call sets. -/
def type? : RsaSigCall cipher → Option Int
  | setType value => some value
  | _ => none

/-- The modulus of a type that a call sets a hash for. -/
def modulus? (sigType : Int) : RsaSigCall cipher → Option Int
  | setModParm sigType' mod _ _ => if sigType' = sigType then some mod else none
  | _ => none

/-- The hash and the salt that a call sets for a modulus. -/
def hashPair? (sigType mod : Int) : RsaSigCall cipher → Option RsaHashPair
  | setModParm sigType' mod' hashAlg saltLen =>
    if sigType' = sigType ∧ mod' = mod then some ⟨lookupHashAlgName hashAlg, saltLen⟩ else none
  | _ => none

/-- The mode of the exponent that a call sets. -/
def exponentMode? : RsaSigCall cipher → Option Int
  | setParm _ .pubExpMode value => some value
  | _ => none

/-- The exponent that a call sets. -/
def exponent? : RsaSigCall cipher → Option String
  | setExponent _ .fixedPubExpVal value => some (value.getD "")
  | _ => none

end RsaSigCall

section Sig

variable {cipher : Cipher} (calls : List (RsaSigCall cipher))

/-- The types in the order of their calls. -/
def sigTypes : List Int := calls.filterMap RsaSigCall.type?

/-- The moduli of a type, in the order in which they were set first. -/
def sigModuli (sigType : Int) : List Int :=
  (calls.filterMap (RsaSigCall.modulus? sigType)).eraseDups

/-- The hashes of a modulus with their salts. -/
def sigHashPairs (sigType mod : Int) : List RsaHashPair :=
  calls.filterMap (RsaSigCall.hashPair? sigType mod)

/-- The exponents that were set. -/
def sigExponents : List String := calls.filterMap RsaSigCall.exponent?

/-- The object of a hash.  It holds the salt for PSS, and whenever there is one. -/
def sigHashObject (sigType : Int) (pair : RsaHashPair) : JsonObject :=
  [("hashAlg", .str (pair.name.getD ""))] ++
    if sigType = rsaSigTypePss ∨ pair.salt ≠ 0 then [("saltLen", .num pair.salt)] else []

/-- The object of a modulus with all that was set for it. -/
def sigModulusObject (sigType mod : Int) : JsonObject :=
  [("modulo", .num mod), ("hashPair", .arr ((sigHashPairs calls sigType mod).map fun pair =>
    .obj (sigHashObject sigType pair)))]

/-- The object of a type with all that was set for it. -/
def sigTypeObject (sigType : Int) : JsonObject :=
  [("sigType", .str ((rsaSigTypeStr sigType).getD "")),
    ("properties", .arr ((sigModuli calls sigType).map fun mod =>
      .obj (sigModulusObject calls sigType mod)))]

/-- What was set is registered: an object for every type in the order of their calls, and the
exponent. -/
def SigRegistered (nodes : List RsaSigNode) : Prop :=
  (sigTypes calls).Nodup ∧ ∀ capObj entry, entry.cipher = cipher → sigTypes calls ≠ [] →
    ∃ obj, buildRsaSigRegisterCap capObj entry nodes = .ok obj ∧
      jsonObjectGetArray (some obj) "capabilities" =
        some ((sigTypes calls).map fun sigType => .obj (sigTypeObject calls sigType)) ∧
      ∀ exponent ∈ sigExponents calls,
        jsonObjectGetString (some obj) "fixedPubExp" = some exponent

/-- The moduli of a type as they are stored. -/
def sigStored (sigType : Int) : List RsaModeCaps :=
  (sigModuli calls sigType).map fun mod =>
    { modulo := mod
      hashPair := sigHashPairs calls sigType mod }

end Sig

/-! ## What the calls store -/

section Stored

variable {cipher : Cipher} {calls : List (RsaSigCall cipher)} {c : RsaSigCall cipher}

/-- A call for no modulus gives no hash pair for it. -/
theorem RsaSigCall.of_modulus_none {sigType mod : Int} (h : c.modulus? sigType ≠ some mod) :
    c.hashPair? sigType mod = none := by
  cases c with
  | setModParm sigType' mod' hashAlg saltLen =>
    refine if_neg ?_
    rintro ⟨rfl, rfl⟩
    exact h (if_pos rfl)
  | _ => rfl

/-- Nothing is set for a modulus that was not set. -/
theorem sig_unset {sigType mod : Int}
    (h : mod ∉ calls.filterMap (RsaSigCall.modulus? sigType)) :
    sigHashPairs calls sigType mod = [] :=
  List.filterMap_eq_nil_iff.mpr fun c hc =>
    RsaSigCall.of_modulus_none fun hmod => h (List.mem_filterMap.mpr ⟨c, hc, hmod⟩)

/-- Nor does it change what is stored. -/
theorem sigStored_of_modulus_none {sigType : Int} (h : c.modulus? sigType = none) :
    sigStored (calls ++ [c]) sigType = sigStored calls sigType := by
  unfold sigStored sigModuli sigHashPairs
  rw [List.filterMap_append_none h]
  refine List.map_congr_left fun mod _ => ?_
  have hother : c.modulus? sigType ≠ some mod := by
    rw [h]
    exact (Option.some_ne_none mod).symm
  rw [List.filterMap_append_none (RsaSigCall.of_modulus_none hother)]

/-- A call for no modulus changes no type. -/
theorem sigStored_of_none (h : ∀ sigType, c.modulus? sigType = none) :
    sigStored (calls ++ [c]) = sigStored calls :=
  funext fun sigType => sigStored_of_modulus_none (h sigType)

/-- A call for a modulus appends its hash pair. -/
theorem sigStored_setModParm {sigType mod hashAlg saltLen : Int} :
    sigStored (calls ++ [.setModParm sigType mod hashAlg saltLen]) sigType =
      withModulo mod (fun caps =>
        { caps with hashPair := caps.hashPair ++ [⟨lookupHashAlgName hashAlg, saltLen⟩] })
        (sigStored calls sigType) := by
  have hmodulus : (.setModParm sigType mod hashAlg saltLen : RsaSigCall cipher).modulus? sigType =
      some mod := if_pos rfl
  have hpair : (.setModParm sigType mod hashAlg saltLen : RsaSigCall cipher).hashPair? sigType mod =
      some ⟨lookupHashAlgName hashAlg, saltLen⟩ := if_pos ⟨rfl, rfl⟩
  unfold withModulo sigStored sigModuli
  rw [List.filterMap_append_some hmodulus]
  refine (upsert_eraseDups (fun j => beq_iff_eq) (fun hnew => ?_) ?_ fun j hj => ?_).symm
  · rw [sig_unset hnew]
  · rw [sigHashPairs, List.filterMap_append_some hpair]
    rfl
  · have hother : (.setModParm sigType mod hashAlg saltLen : RsaSigCall cipher).modulus? sigType ≠
        some j := by
      rw [hmodulus]
      exact fun h => hj (Option.some.inj h).symm
    rw [sigHashPairs, List.filterMap_append_none (RsaSigCall.of_modulus_none hother)]
    rfl

end Stored

/-- How the nodes of the types are read. -/
def sigForm : NodeForm RsaSigNode (Int × Option String × List RsaModeCaps) where
  content node := (node.sigType, node.sigTypeStr, node.modeCapabilities)
  header node := (node.pubExpMode, node.fixedPubExp)
  blank := (0, none, [])
  entry sigType moduli := (sigType, rsaSigTypeStr sigType, moduli)

/-- What is taken from calls. -/
def sigTrace (cipher : Cipher) : CallForm (RsaSigCall cipher) where
  key? := RsaSigCall.type?
  stored := sigStored
  exponentMode? := RsaSigCall.exponentMode?
  exponent? := RsaSigCall.exponent?

/-- The nodes hold what the calls have set. -/
abbrev SigStores {cipher : Cipher} (calls : List (RsaSigCall cipher)) (nodes : List RsaSigNode)
    (fixed : Option String) : Prop :=
  RunStores sigForm (sigTrace cipher) (fun sigType => (rsaSigTypeStr sigType).isSome) calls nodes
    fixed

/-- The signature types are numbered from one to three. -/
theorem rsaSigType_range {sigType : Int} (h : (rsaSigTypeStr sigType).isSome) :
    1 ≤ sigType ∧ sigType ≤ 3 := by
  by_contra hrange
  unfold rsaSigTypeStr at h
  rw [if_neg (by omega), if_neg (by omega), if_neg (by omega)] at h
  cases h

section Steps

variable {cipher : Cipher} {calls : List (RsaSigCall cipher)} {nodes nodes' : List RsaSigNode}
  {fixed : Option String} (h : SigStores calls nodes fixed)

include h

/-- A new type is stored. -/
theorem sigStores_setType {value : Int} (hvalue : (rsaSigTypeStr value).isSome)
    (hset : (RsaSigCall.setType value : RsaSigCall cipher).setter nodes = .ok (.success, nodes')) :
    SigStores (calls ++ [.setType value]) nodes' fixed := by
  refine h.claim rfl (sigStored_of_none fun _ => rfl) rfl rfl hvalue hset (fun x hx => ?_)
    (fun x sigType l htype hx => ?_) rfl (fun x hx => ?_) fun _ => rfl
  · have hzero : x.sigType = 0 := congrArg Prod.fst hx
    exact decide_eq_true hzero
  · have htype' : x.sigType = sigType := congrArg Prod.fst hx
    have hrange := rsaSigType_range htype
    exact ⟨decide_eq_false (by omega), fun htaken => htype' ▸ of_decide_eq_false htaken⟩
  · have hstr : x.sigTypeStr = none := congrArg (fun a => a.2.1) hx
    have hcaps : x.modeCapabilities = [] := congrArg (fun a => a.2.2) hx
    change (value, (rsaSigTypeStr value).or x.sigTypeStr, x.modeCapabilities) = _
    rw [hstr, hcaps, Option.or_none]
    rfl

/-- A hash pair of a modulus is stored. -/
theorem sigStores_setModParm {sigType mod hashAlg saltLen : Int} (htype : sigType ≠ 0)
    (hset : (RsaSigCall.setModParm sigType mod hashAlg saltLen : RsaSigCall cipher).setter nodes =
      .ok (.success, nodes')) :
    SigStores (calls ++ [.setModParm sigType mod hashAlg saltLen]) nodes' fixed := by
  unfold RsaSigCall.setter at hset
  dsimp only at hset
  by_cases hzero : hashAlg = 0 ∨ mod = 0
  · rw [if_pos hzero] at hset
    cases hset
  rw [if_neg hzero] at hset
  refine h.modify (k := sigType) rfl rfl rfl (by decide) hset (fun x hx => ?_) (fun x j l hx => ?_)
    (fun x x' hout => ?_) (fun x x' hx hout => ?_) fun j hj => ?_
  · have hzero : x.sigType = 0 := congrArg Prod.fst hx
    exact beq_eq_false_iff_ne.mpr (hzero ▸ htype.symm)
  · have hj : x.sigType = j := congrArg Prod.fst hx
    rw [beq_iff_eq, hj]
  · cases hout
    rfl
  · cases hout
    have htype' : x.sigType = sigType := congrArg Prod.fst hx
    have hstr : x.sigTypeStr = rsaSigTypeStr sigType := congrArg (fun a => a.2.1) hx
    have hcaps : x.modeCapabilities = sigStored calls sigType := congrArg (fun a => a.2.2) hx
    refine Prod.ext htype' (Prod.ext hstr ?_)
    refine Eq.trans ?_ sigStored_setModParm.symm
    rw [← hcaps]
    rfl
  · exact sigStored_of_modulus_none (if_neg fun heq => hj heq.symm)

/-- A parameter is stored. -/
theorem sigStores_setParm {verifies : cipher = .rsaSigver} {param : RsaParm} {value : Int}
    (hmeets : RsaSigCall.Meets nodes (.setParm verifies param value))
    (hset : (RsaSigCall.setParm verifies param value).setter nodes = .ok (.success, nodes')) :
    SigStores (calls ++ [.setParm verifies param value]) nodes' fixed := by
  cases param with
  | pubExpMode =>
    exact h.setExponentMode rfl (sigStored_of_none fun _ => rfl) rfl rfl hmeets hset
      (fun _ => rfl) fun _ => rfl
  | _ => cases hset

/-- A fixed public exponent is stored. -/
theorem sigStores_setExponent {verifies : cipher = .rsaSigver} {param : RsaParm}
    {value : Option String} (hmeets : RsaSigCall.Meets nodes (.setExponent verifies param value))
    (hset : (RsaSigCall.setExponent verifies param value).setter nodes = .ok (.success, nodes')) :
    SigStores (calls ++ [.setExponent verifies param value]) nodes' (some (value.getD "")) := by
  refine h.setExponent rfl (sigStored_of_none fun _ => rfl) rfl (fun hparam => ?_)
    (fun _ => rfl) hmeets.1 hset (fun _ _ => rfl) fun _ _ => rfl
  rw [hparam]
  rfl

end Steps

/-- What a run of calls leaves in the nodes. -/
theorem sig_stores {cipher : Cipher} {calls : List (RsaSigCall cipher)} {nodes : List RsaSigNode}
    (h : AcceptedRun RsaSigCall.setter RsaSigCall.Meets [{}] calls nodes) :
    ∃ fixed, SigStores calls nodes fixed := by
  induction h with
  | start => exact ⟨none, .start rfl rfl fun _ => rfl⟩
  | call before c condition accepted ih =>
    obtain ⟨fixed, ih⟩ := ih
    cases c with
    | setType value => exact ⟨fixed, sigStores_setType ih condition accepted⟩
    | setModParm sigType mod hashAlg saltLen =>
      exact ⟨fixed, sigStores_setModParm ih condition.1 accepted⟩
    | setParm verifies param value => exact ⟨fixed, sigStores_setParm ih condition accepted⟩
    | setExponent verifies param value => exact ⟨_, sigStores_setExponent ih condition accepted⟩

/-! ## What is built -/

/-- The name of a type decides the comparison with PSS. -/
theorem differsFromPss_of_named {sigType : Int} (h : (rsaSigTypeStr sigType).isSome) (diff : Bool) :
    differsFromPss (rsaSigTypeStr sigType) diff = decide (sigType ≠ rsaSigTypePss) := by
  have hrange := rsaSigType_range h
  obtain rfl | rfl | rfl : sigType = 1 ∨ sigType = 2 ∨ sigType = 3 := by omega
  · rfl
  · rfl
  · rfl

/-- A hash that the builder writes as it was set. -/
def HashPairFits (sigType : Int) (pair : RsaHashPair) : Prop :=
  pair.name.isSome ∧ (sigType = rsaSigTypePss ∨ pair.salt = 0)

/-- The hash pairs of accepted calls can be built. -/
theorem sigHashPairs_fit {cipher : Cipher} {calls : List (RsaSigCall cipher)}
    (hmeets : ∀ c ∈ calls, ∃ nodes, RsaSigCall.Meets nodes c) {sigType mod : Int} :
    ∀ pair ∈ sigHashPairs calls sigType mod, HashPairFits sigType pair := by
  intro pair hpair
  obtain ⟨c, hc, hcpair⟩ := List.mem_filterMap.mp hpair
  obtain ⟨nodes, hmeet⟩ := hmeets c hc
  cases c with
  | setModParm sigType' mod' hashAlg saltLen =>
    rw [RsaSigCall.hashPair?] at hcpair
    split at hcpair
    · rename_i hsame
      cases hcpair
      rw [← hsame.1]
      exact hmeet.2
    · cases hcpair
  | _ => cases hcpair

section Built

variable {sigType : Int} (htype : (rsaSigTypeStr sigType).isSome)

include htype

/-- Hash pairs that can be built are listed with their names. -/
theorem rsaHashPairs_of_fit {pairs : List RsaHashPair}
    (hpairs : ∀ pair ∈ pairs, HashPairFits sigType pair) (diff : Bool) :
    ∃ diff', rsaHashPairs (rsaSigTypeStr sigType) diff pairs =
      .ok (pairs.map fun pair => .obj (sigHashObject sigType pair), diff') := by
  induction pairs generalizing diff with
  | nil => exact ⟨diff, rfl⟩
  | cons pair pairs ih =>
    obtain ⟨hname, hsalt⟩ := hpairs pair List.mem_cons_self
    obtain ⟨name, hname⟩ := Option.isSome_iff_exists.mp hname
    obtain ⟨diff', hrest⟩ := ih (fun p hp => hpairs p (List.mem_cons_of_mem _ hp))
      (decide (sigType ≠ rsaSigTypePss))
    refine ⟨diff', ?_⟩
    rw [rsaHashPairs, hname, need_some, ok_bind]
    dsimp only
    rw [differsFromPss_of_named htype, hrest, ok_bind, List.map_cons]
    have hobject : (if decide (sigType ≠ rsaSigTypePss) = true then
          jsonObjectSetText [] "hashAlg" (some name)
        else jsonObjectSetValue (jsonObjectSetText [] "hashAlg" (some name)) "saltLen"
          (.num pair.salt)) = sigHashObject sigType pair := by
      rw [sigHashObject, hname]
      by_cases hpss : sigType = rsaSigTypePss
      · rw [if_neg (by simp [hpss]), if_pos (Or.inl hpss)]
        rfl
      · rw [if_pos (by simp [hpss]), if_neg (by simp [hpss, hsalt.resolve_left hpss])]
        rfl
    rw [hobject]
    rfl

/-- So are the moduli with their hash pairs. -/
theorem rsaSigProperties_of_fit {cipher : Cipher} {calls : List (RsaSigCall cipher)}
    (hpairs : ∀ mod, ∀ pair ∈ sigHashPairs calls sigType mod, HashPairFits sigType pair)
    (moduli : List Int) (diff : Bool) :
    ∃ diff', rsaSigProperties (rsaSigTypeStr sigType) diff
        (moduli.map fun mod => { modulo := mod, hashPair := sigHashPairs calls sigType mod }) =
      .ok (moduli.map fun mod => .obj (sigModulusObject calls sigType mod), diff') := by
  induction moduli generalizing diff with
  | nil => exact ⟨diff, rfl⟩
  | cons mod moduli ih =>
    obtain ⟨diff', hmod⟩ := rsaHashPairs_of_fit htype (hpairs mod) diff
    obtain ⟨diff'', hrest⟩ := ih diff'
    refine ⟨diff'', ?_⟩
    rw [List.map_cons, rsaSigProperties, hmod, ok_bind, hrest, ok_bind]
    rfl

end Built

/-- And the types with their moduli. -/
theorem rsaSigTypes_of_contents {cipher : Cipher} {calls : List (RsaSigCall cipher)}
    (hmeets : ∀ c ∈ calls, ∃ nodes, RsaSigCall.Meets nodes c) {types : List Int}
    (htypes : ∀ sigType ∈ types, (rsaSigTypeStr sigType).isSome) {nodes : List RsaSigNode}
    (hnodes : nodes.map sigForm.content =
      types.map fun sigType => sigForm.entry sigType (sigStored calls sigType)) (diff : Bool) :
    rsaSigTypes diff nodes =
      .ok (types.map fun sigType => .obj (sigTypeObject calls sigType)) := by
  induction types generalizing nodes diff with
  | nil =>
    rw [List.map_eq_nil_iff.mp hnodes]
    rfl
  | cons sigType types ih =>
    obtain ⟨node, nodes, rfl, hnode, hrest⟩ := List.map_eq_cons_iff.mp hnodes
    have htype := htypes sigType List.mem_cons_self
    have hstr : node.sigTypeStr = rsaSigTypeStr sigType := congrArg (fun a => a.2.1) hnode
    have hcaps : node.modeCapabilities = sigStored calls sigType :=
      congrArg (fun a => a.2.2) hnode
    obtain ⟨diff', hproperties⟩ := rsaSigProperties_of_fit htype
      (fun _ => sigHashPairs_fit hmeets) (sigModuli calls sigType) diff
    obtain ⟨name, hname⟩ := Option.isSome_iff_exists.mp htype
    rw [rsaSigTypes, hstr, hcaps, sigStored, hproperties, ok_bind,
      ih (fun t ht => htypes t (List.mem_cons_of_mem _ ht)) hrest, ok_bind, List.map_cons,
      sigTypeObject, hname]
    rfl

/-- The exponent is set for the verification alone. -/
theorem verifies_of_exponent {cipher : Cipher} {calls : List (RsaSigCall cipher)}
    {exponent : String} (h : exponent ∈ sigExponents calls) : cipher = .rsaSigver := by
  obtain ⟨c, -, hc⟩ := List.mem_filterMap.mp h
  cases c with
  | setExponent verifies param value => exact verifies
  | _ => cases hc

/-- The exponents of calls that meet their conditions are UTF-8. -/
theorem isText_of_sigExponent {cipher : Cipher} {calls : List (RsaSigCall cipher)}
    (hmeets : ∀ c ∈ calls, ∃ nodes, RsaSigCall.Meets nodes c) {exponent : String}
    (h : exponent ∈ calls.filterMap RsaSigCall.exponent?) : IsText exponent := by
  obtain ⟨c, hc, hexponent⟩ := List.mem_filterMap.mp h
  obtain ⟨nodes, hmeets⟩ := hmeets c hc
  cases c with
  | setExponent verifies param value =>
    cases param with
    | fixedPubExpVal =>
      obtain rfl := Option.some.inj hexponent
      exact hmeets.2
    | _ => cases hexponent
  | _ => cases hexponent

/-- Every type is registered with its moduli and their hashes, in the order of the calls, and so
is the exponent. -/
theorem rsaSig_registered {cipher : Cipher} (hsig : cipher = .rsaSiggen ∨ cipher = .rsaSigver)
    {calls : List (RsaSigCall cipher)} {nodes : List RsaSigNode}
    (h : AcceptedRun RsaSigCall.setter RsaSigCall.Meets [{}] calls nodes) :
    SigRegistered calls nodes := by
  obtain ⟨fixed, hstores⟩ := sig_stores h
  refine ⟨hstores.holds.nodup, fun capObj entry hentry htypes => ?_⟩
  have hcontents := hstores.holds.contents
  rw [if_neg (by exact htypes)] at hcontents
  have hobjects := rsaSigTypes_of_contents h.meets hstores.named hcontents true
  obtain ⟨first, hhead, hheader⟩ := hstores.head_eq
  have hmode : first.pubExpMode = (sigTrace cipher).exponentMode calls :=
    congrArg Prod.fst hheader
  have hfixed : first.fixedPubExp = fixed := congrArg Prod.snd hheader
  have hbuild : ∃ obj, (cipher = .rsaSigver →
      ∃ base, obj = setPubExp base first.pubExpMode first.fixedPubExp) ∧
      buildRsaSigRegisterCap capObj entry nodes = .ok (jsonObjectSetValue obj "capabilities"
        (.arr ((sigTypes calls).map fun sigType => .obj (sigTypeObject calls sigType)))) := by
    unfold buildRsaSigRegisterCap
    rw [hentry]
    rcases hsig with rfl | rfl
    · rw [hhead, hobjects]
      exact ⟨_, fun hver => (by cases hver), rfl⟩
    · rw [hhead, hobjects]
      exact ⟨_, fun _ => ⟨_, rfl⟩, rfl⟩
  obtain ⟨obj, hver, hbuild⟩ := hbuild
  refine ⟨_, hbuild, ?_, fun exponent hexponent => jsonObjectGetString_of_value ?_⟩
  · rw [jsonObjectGetArray, jsonObjectGetValue_set]
    rfl
  · obtain ⟨base, rfl⟩ := hver (verifies_of_exponent hexponent)
    obtain ⟨hset, hfixedMode⟩ := hstores.mem_exponents hexponent
    rw [jsonObjectGetValue_set_of_ne _ _ (by decide), hfixed, hset, hmode]
    exact jsonObjectGetValue_setPubExp base hfixedMode (isText_of_sigExponent h.meets hexponent)

end LibAmvp
