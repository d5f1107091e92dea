import LibAmvp.Registration.RsaNodes

/-!
# Groups of random bit generators

The parameters of a generator are set for a group of a mode, and every group is registered.  A
length that is set without a step is registered as one number.

Main results:

- Theorem {lit}`drbg_stores`: what a run of calls leaves in the capability.
- Theorem {lit}`drbg_registered`: what is registered for it.
-/

namespace LibAmvp

open Guard Keyed

/-! ## Calls -/

/-- A call on the capability of a generator. -/
inductive DrbgCall where
  | setParm (mode group : Int) (param : DrbgParm) (value : Int)
  | setLength (mode group : Int) (param : DrbgParm) (min step max : Int)

/-- The parameters that are lengths. -/
def DrbgParm.isLength : DrbgParm → Bool
  | entropyLen | nonceLen | persoLen | addInLen => true
  | _ => false

/-- What {lit}`amvp_cap_drbg_set_parm` changes in a group.  It stores a length where it is not
looked for. -/
def drbgParmChange (param : DrbgParm) (value : Int) (g : DrbgCapGroup) : DrbgCapGroup :=
  match param with
  | .derFuncEnabled => { g with derFuncEnabled := value }
  | .entropyLen => { g with entropyInputLen := value }
  | .nonceLen => { g with nonceLen := value }
  | .persoLen => { g with persoStringLen := value }
  | .addInLen => { g with additionalInputLen := value }
  | .retBitsLen => { g with returnedBitsLen := value }
  | _ => g

namespace DrbgCall

/-- What a call does with the capability. -/
def setter (cipher : Cipher) : DrbgCall → Setter DrbgCap
  | setParm mode group param value => drbgSetParm cipher mode group param value
  | setLength mode group param min step max => drbgSetLength mode group param min step max

/-- The function that is called. -/
def action (cipher : Cipher) : DrbgCall → CapAction
  | setParm mode group param value => capDrbgSetParm cipher mode group param value
  | setLength mode group param min step max => capDrbgSetLength cipher mode group param min step max

/-- Every call works on the DRBG capability of the cipher's entry. -/
theorem action_eq (cipher : Cipher) (c : DrbgCall) :
    c.action cipher = .atEntry cipher (.member .drbgCap (uncounted (c.setter cipher))) := by
  cases c with
  | setParm mode group param value => rfl
  | setLength mode group param min step max => rfl

/-- The mode of a call. -/
def mode : DrbgCall → Int
  | setParm mode _ _ _ => mode
  | setLength mode _ _ _ _ _ => mode

/-- The group of a call. -/
def group : DrbgCall → Int
  | setParm _ group _ _ => group
  | setLength _ group _ _ _ _ => group

/-- What a call changes in its group. -/
def change : DrbgCall → DrbgCapGroup → DrbgCapGroup
  | setParm _ _ param value => drbgParmChange param value
  | setLength _ _ param min step max => (addDrbgLengthRange param min step max).getD id

/-- The condition on a call: the mode has a name, a length is set with a step or with equal ends,
but not to zero for the entropy, and the derivation function is set for CTR. -/
def Meets (cipher : Cipher) (_ : DrbgCap) : DrbgCall → Prop
  | setParm mode _ param _ =>
    (lookupDrbgModeString mode).isSome ∧ param.isLength = false ∧
      (param = .derFuncEnabled → cipher = .ctrdrbg)
  | setLength mode _ param min step max =>
    (lookupDrbgModeString mode).isSome ∧
      (step ≠ 0 ∨ min = max ∧ (param = .entropyLen → min ≠ 0))

/-! ## What the calls set -/

/-- The group of a mode that a call sets something for. -/
def group? (mode : Int) (c : DrbgCall) : Option Int := if c.mode = mode then some c.group else none

/-- The value of a parameter that a call sets. -/
def parm? (param : DrbgParm) : DrbgCall → Option Int
  | setParm _ _ param' value => if param' = param then some value else none
  | setLength _ _ _ _ _ _ => none

/-- The shortest value of a length, its step and the longest value that a call sets. -/
def length? (param : DrbgParm) : DrbgCall → Option (Int × Int × Int)
  | setParm _ _ param' value => if param' = param then some (value, 0, value) else none
  | setLength _ _ param' min step max => if param' = param then some (min, step, max) else none

end DrbgCall

section Calls

variable (calls : List DrbgCall)

/-- The modes in the order in which they were set first. -/
def drbgModes : List Int := (calls.map DrbgCall.mode).eraseDups

/-- The groups of a mode in the order in which they were set first. -/
def drbgGroups (mode : Int) : List Int := (calls.filterMap (DrbgCall.group? mode)).eraseDups

/-- The calls for a group. -/
def drbgCallsAt (mode group : Int) : List DrbgCall :=
  calls.filter fun c => c.mode = mode ∧ c.group = group

/-- The value of a parameter that was set last. -/
def drbgLastParm (param : DrbgParm) : Option Int :=
  (calls.filterMap (DrbgCall.parm? param)).getLast?

/-- The length that was set last. -/
def drbgLastLength (param : DrbgParm) : Option (Int × Int × Int) :=
  (calls.filterMap (DrbgCall.length? param)).getLast?

end Calls

/-- A length that was set, with both its ends. -/
def drbgLengthValue : Int × Int × Int → Json
  | (min, step, max) =>
    if step = 0 ∧ min = max then .num min else rangeFromMax { min, max, increment := step }

/-- A length, with what stands for one that was not set. -/
def drbgLengthField (unset : List Json) (length : Option (Int × Int × Int)) : Json :=
  .arr ((length.map fun l => [drbgLengthValue l]).getD unset)

/-- The object of a group with all that its calls set. -/
def drbgSetObject (cipher : Cipher) (mode : Int) (calls : List DrbgCall) : JsonObject :=
  [("mode", .str ((lookupDrbgModeString mode).getD ""))] ++
    (if cipher = .ctrdrbg ∨ drbgLastParm calls .derFuncEnabled ≠ none then
      [("derFuncEnabled", .bool ((drbgLastParm calls .derFuncEnabled).getD 0 ≠ 0))]
    else []) ++
    [("entropyInputLen", drbgLengthField [] (drbgLastLength calls .entropyLen)),
      ("nonceLen", drbgLengthField [.num 0] (drbgLastLength calls .nonceLen)),
      ("persoStringLen", drbgLengthField [.num 0] (drbgLastLength calls .persoLen)),
      ("additionalInputLen", drbgLengthField [.num 0] (drbgLastLength calls .addInLen)),
      ("returnedBitsLen", .num ((drbgLastParm calls .retBitsLen).getD 0))]

/-- What was set is registered: an object for every group, and the parameters of the generator. -/
def DrbgRegistered (cipher : Cipher) (calls : List DrbgCall) (cap : DrbgCap) : Prop :=
  ∀ capObj entry, entry.cipher = cipher → calls ≠ [] →
    ∃ obj, buildDrbgRegisterCap capObj entry cap = .ok obj ∧
      jsonObjectGetArray (some obj) "capabilities" =
        some ((drbgModes calls).flatMap fun mode => (drbgGroups calls mode).map fun group =>
          .obj (drbgSetObject cipher mode (drbgCallsAt calls mode group))) ∧
      jsonObjectGetValue (some obj) "predResistanceEnabled" =
        some (.arr [.bool ((drbgLastParm calls .predResistEnabled).getD 0 ≠ 0)]) ∧
      jsonObjectGetValue (some obj) "reseedImplemented" =
        some (.bool ((drbgLastParm calls .reseedEnabled).getD 0 ≠ 0))

/-! ## What the calls store -/

/-- The content of a group after its calls. -/
def drbgChanged (calls : List DrbgCall) : DrbgCapGroup :=
  calls.foldl (fun g c => c.change g) {}

/-- The content of a group of a mode after calls. -/
def drbgStored (calls : List DrbgCall) (mode group : Int) : DrbgCapGroup :=
  drbgChanged (drbgCallsAt calls mode group)

/-- The groups of a mode after calls. -/
def drbgStoredMode (calls : List DrbgCall) (mode : Int) : DrbgCapMode where
  mode := mode
  groups := (drbgGroups calls mode).map fun group => ⟨group, drbgStored calls mode group⟩

/-- The capability holds what the calls have set. -/
structure DrbgStores (calls : List DrbgCall) (cap : DrbgCap) : Prop where
  predResist : cap.predResistEnabled = (drbgLastParm calls .predResistEnabled).getD 0
  reseed : cap.reseedImplemented = (drbgLastParm calls .reseedEnabled).getD 0
  modes : cap.drbgCapMode = (drbgModes calls).map (drbgStoredMode calls)

/-- Making a group and then changing it is changing it. -/
theorem DrbgCapMode.withGroup_withGroup_id (group : Int) (f : DrbgCapGroup → DrbgCapGroup)
    (m : DrbgCapMode) : (m.withGroup group id).withGroup group f = m.withGroup group f := by
  refine congrArg (fun groups : List DrbgGroup => { m with groups := groups }) ?_
  refine upsert_upsert ?_ (fun _ => rfl) m.groups
  exact beq_self_eq_true group

/-- The same seen from the capability. -/
theorem DrbgCap.withGroup_withGroup_id (mode group : Int) (f : DrbgCapGroup → DrbgCapGroup)
    (cap : DrbgCap) :
    DrbgCap.withGroup mode group f (DrbgCap.withGroup mode group id cap) =
      DrbgCap.withGroup mode group f cap := by
  have hmode : DrbgCapMode.withGroup group f ∘ DrbgCapMode.withGroup group id =
      DrbgCapMode.withGroup group f :=
    funext fun m => m.withGroup_withGroup_id group f
  refine congrArg (fun modes : List DrbgCapMode => { cap with drbgCapMode := modes }) ?_
  refine (upsert_upsert ?_ ?_ cap.drbgCapMode).trans ?_
  · exact beq_self_eq_true mode
  · exact fun _ => rfl
  · rw [hmode]

/-- A call that is accepted changes its group, or a parameter of the generator. -/
theorem DrbgCall.setter_accepted {cipher : Cipher} {c : DrbgCall} {cap cap' : DrbgCap}
    (h : c.setter cipher cap = .ok (.success, cap')) :
    cap' = { DrbgCap.withGroup c.mode c.group c.change cap with
      predResistEnabled := (c.parm? .predResistEnabled).getD cap.predResistEnabled
      reseedImplemented := (c.parm? .reseedEnabled).getD cap.reseedImplemented } := by
  cases c with
  | setLength mode group param min step max =>
    unfold setter drbgSetLength Op.changed at h
    simp only [Op.ite_apply] at h
    split at h
    · cases h
    · cases hchange : addDrbgLengthRange param min step max with
      | none =>
        simp only [hchange] at h
        cases h
      | some f =>
        simp only [hchange] at h
        cases h
        rw [DrbgCap.withGroup_withGroup_id]
        unfold change
        dsimp only
        rw [hchange]
        rfl
  | setParm mode group param value =>
    unfold setter drbgSetParm Op.changed at h
    simp only [Op.ite_apply] at h
    split at h
    · cases h
    · split at h
      · cases h
      · cases param with
        | derFuncEnabled | entropyLen | nonceLen | persoLen | addInLen | retBitsLen =>
          cases h
          rw [DrbgCap.withGroup_withGroup_id]
          rfl
        | predResistEnabled | reseedEnabled =>
          cases h
          rfl
        | preReqVals | other raw => cases h

section Append

variable (calls : List DrbgCall) (c : DrbgCall)

/-- A further call is one at its own group. -/
theorem drbgCallsAt_self :
    drbgCallsAt (calls ++ [c]) c.mode c.group = drbgCallsAt calls c.mode c.group ++ [c] := by
  simp [drbgCallsAt]

/-- It is none at any other. -/
theorem drbgCallsAt_of_ne {mode group : Int} (h : ¬(c.mode = mode ∧ c.group = group)) :
    drbgCallsAt (calls ++ [c]) mode group = drbgCallsAt calls mode group := by
  simp [drbgCallsAt, h]

/-- It changes what is stored for its group. -/
theorem drbgStored_self :
    drbgStored (calls ++ [c]) c.mode c.group = c.change (drbgStored calls c.mode c.group) := by
  rw [drbgStored, drbgCallsAt_self, drbgChanged, List.foldl_append]
  rfl

/-- A group that no call names has its defaults. -/
theorem drbgStored_unset {mode group : Int}
    (h : group ∉ calls.filterMap (DrbgCall.group? mode)) : drbgStored calls mode group = {} := by
  have hnone : drbgCallsAt calls mode group = [] := by
    rw [drbgCallsAt, List.filter_eq_nil_iff]
    intro d hd hat
    obtain ⟨hmode, hgroup⟩ := of_decide_eq_true hat
    refine h (List.mem_filterMap.mpr ⟨d, hd, ?_⟩)
    rw [DrbgCall.group?, if_pos hmode, hgroup]
  rw [drbgStored, hnone]
  rfl

/-- A call changes its group in its mode. -/
theorem drbgStoredMode_self :
    drbgStoredMode (calls ++ [c]) c.mode =
      (drbgStoredMode calls c.mode).withGroup c.group c.change := by
  have hgroup : c.group? c.mode = some c.group := if_pos rfl
  have hgroups : drbgGroups (calls ++ [c]) c.mode =
      (calls.filterMap (DrbgCall.group? c.mode) ++ [c.group]).eraseDups := by
    rw [drbgGroups, List.filterMap_append_some hgroup]
  refine congrArg (fun groups : List DrbgGroup => (⟨c.mode, groups⟩ : DrbgCapMode)) ?_
  rw [hgroups]
  refine (upsert_eraseDups (fun j => beq_iff_eq) (fun hnew => ?_) ?_ fun j hj => ?_).symm
  · rw [drbgStored_unset calls hnew]
  · rw [drbgStored_self]
  · rw [drbgStored, drbgCallsAt_of_ne calls c fun h => hj h.2.symm]
    rfl

/-- It leaves the other modes alone. -/
theorem drbgStoredMode_of_ne {mode : Int} (h : mode ≠ c.mode) :
    drbgStoredMode (calls ++ [c]) mode = drbgStoredMode calls mode := by
  have hgroup : c.group? mode = none := if_neg h.symm
  unfold drbgStoredMode drbgGroups
  rw [List.filterMap_append_none hgroup]
  refine congrArg (DrbgCapMode.mk mode) (List.map_congr_left fun group _ => ?_)
  rw [drbgStored, drbgCallsAt_of_ne calls c fun hat => h hat.1.symm]
  rfl

/-- A mode that no call names has no groups. -/
theorem drbgStoredMode_unset {mode : Int} (h : mode ∉ calls.map DrbgCall.mode) :
    drbgStoredMode calls mode = { mode := mode } := by
  have hnone : calls.filterMap (DrbgCall.group? mode) = [] :=
    List.filterMap_eq_nil_iff.mpr fun d hd =>
      if_neg fun hmode => h (List.mem_map.mpr ⟨d, hd, hmode⟩)
  unfold drbgStoredMode drbgGroups
  rw [hnone]
  rfl

/-- The last value of a parameter after a further call. -/
theorem drbgLastParm_append (param : DrbgParm) :
    (drbgLastParm (calls ++ [c]) param).getD 0 =
      (c.parm? param).getD ((drbgLastParm calls param).getD 0) := by
  unfold drbgLastParm
  cases hparm : c.parm? param with
  | none =>
    rw [List.filterMap_append_none hparm]
    rfl
  | some value =>
    rw [List.filterMap_append_some hparm, List.getLast?_concat]
    rfl

end Append

/-- What a run of calls leaves in the capability. -/
theorem drbg_stores {cipher : Cipher} {meets : DrbgCap → DrbgCall → Prop} {calls : List DrbgCall}
    {cap : DrbgCap} (h : AcceptedRun (DrbgCall.setter cipher) meets {} calls cap) :
    DrbgStores calls cap := by
  induction h with
  | start => exact ⟨rfl, rfl, rfl⟩
  | @call calls s s' before c condition accepted ih =>
    rw [DrbgCall.setter_accepted accepted]
    refine ⟨?_, ?_, ?_⟩
    · rw [drbgLastParm_append, ← ih.predResist]
    · rw [drbgLastParm_append, ← ih.reseed]
    · have hmodes : drbgModes (calls ++ [c]) = (calls.map DrbgCall.mode ++ [c.mode]).eraseDups := by
        rw [drbgModes, List.map_append]
        rfl
      rw [hmodes]
      change upsert _ _ _ s.drbgCapMode = _
      rw [ih.modes]
      refine upsert_eraseDups (fun j => beq_iff_eq) (fun hnew => ?_) ?_ fun j hj => ?_
      · exact drbgStoredMode_unset calls hnew
      · exact drbgStoredMode_self calls c
      · exact drbgStoredMode_of_ne calls c hj

/-! ## What is built -/

/-- The parts of a length in a group. -/
def DrbgCapGroup.length (g : DrbgCapGroup) : DrbgParm → Int × Int × Int
  | .entropyLen => (g.entropyLenMin, g.entropyLenStep, g.entropyLenMax)
  | .nonceLen => (g.nonceLenMin, g.nonceLenStep, g.nonceLenMax)
  | .persoLen => (g.persoLenMin, g.persoLenStep, g.persoLenMax)
  | .addInLen => (g.additionalInLenMin, g.additionalInLenStep, g.additionalInLenMax)
  | _ => (0, 0, 0)

/-- A call that is accepted sets a length to what it gives. -/
theorem DrbgCall.change_length {cipher : Cipher} {cap : DrbgCap} {c : DrbgCall}
    (h : c.Meets cipher cap) {param : DrbgParm} (hparam : param.isLength = true)
    (g : DrbgCapGroup) : (c.change g).length param = (c.length? param).getD (g.length param) := by
  cases c with
  | setParm mode group param' value =>
    have hne : param' ≠ param := by
      rintro rfl
      rw [h.2.1] at hparam
      cases hparam
    rw [length?, if_neg hne, Option.getD_none]
    cases param' with
    | entropyLen | nonceLen | persoLen | addInLen => exact absurd h.2.1 (by decide)
    | _ => rfl
  | setLength mode group param' min step max =>
    by_cases hsame : param' = param
    · subst hsame
      rw [length?, if_pos rfl, Option.getD_some]
      cases param' with
      | entropyLen | nonceLen | persoLen | addInLen => rfl
      | _ => cases hparam
    · rw [length?, if_neg hsame, Option.getD_none]
      cases param' with
      | entropyLen | nonceLen | persoLen | addInLen =>
        cases param with
        | entropyLen | nonceLen | persoLen | addInLen => first | rfl | exact absurd rfl hsame
        | _ => cases hparam
      | _ => rfl

/-- A call sets the derivation function to what it gives. -/
theorem DrbgCall.change_derFunc (c : DrbgCall) (g : DrbgCapGroup) :
    (c.change g).derFuncEnabled = (c.parm? .derFuncEnabled).getD g.derFuncEnabled := by
  cases c with
  | setParm mode group param value => cases param <;> rfl
  | setLength mode group param min step max => cases param <;> rfl

/-- And the number of returned bits. -/
theorem DrbgCall.change_retBits (c : DrbgCall) (g : DrbgCapGroup) :
    (c.change g).returnedBitsLen = (c.parm? .retBitsLen).getD g.returnedBitsLen := by
  cases c with
  | setParm mode group param value => cases param <;> rfl
  | setLength mode group param min step max => cases param <;> rfl

/-- The object of a group, member by member. -/
theorem drbgGroupObject_eq (cipher : Cipher) (modeStr : String) (g : DrbgCapGroup) :
    drbgGroupObject cipher modeStr g =
      [("mode", .str modeStr)] ++
        (if cipher = .ctrdrbg then [("derFuncEnabled", .bool (g.derFuncEnabled ≠ 0))] else []) ++
        [("entropyInputLen",
            drbgLengthArray false g.entropyLenMin g.entropyLenStep g.entropyLenMax),
          ("nonceLen", drbgLengthArray true g.nonceLenMin g.nonceLenStep g.nonceLenMax),
          ("persoStringLen", drbgLengthArray true g.persoLenMin g.persoLenStep g.persoLenMax),
          ("additionalInputLen", drbgLengthArray true g.additionalInLenMin g.additionalInLenStep
            g.additionalInLenMax),
          ("returnedBitsLen", .num g.returnedBitsLen)] := by
  unfold drbgGroupObject
  dsimp only
  by_cases hctr : cipher = .ctrdrbg
  · rw [if_pos hctr, if_pos hctr]
    rfl
  · rw [if_neg hctr, if_neg hctr]
    rfl

/-- A length that the builder writes with both its ends. -/
def LengthFits (withZero : Bool) : Int × Int × Int → Prop
  | (min, step, max) => step ≠ 0 ∨ min = max ∧ (withZero = true ∨ min ≠ 0)

/-- A length that fits is listed as its range. -/
theorem drbgLengthArray_of_fits {withZero : Bool} {length : Option (Int × Int × Int)}
    (h : ∀ l ∈ length, LengthFits withZero l) :
    drbgLengthArray withZero (length.getD (0, 0, 0)).1 (length.getD (0, 0, 0)).2.1
        (length.getD (0, 0, 0)).2.2 =
      drbgLengthField (if withZero then [.num 0] else []) length := by
  cases length with
  | none => cases withZero <;> rfl
  | some l =>
    obtain ⟨min, step, max⟩ := l
    have hfits := h (min, step, max) rfl
    unfold drbgLengthArray drbgLengthField drbgLengthValue
    dsimp only [Option.getD_some, Option.map_some]
    by_cases hstep : step = 0
    · obtain ⟨hends, hzero⟩ := hfits.resolve_left (not_not.mpr hstep)
      subst hends
      rw [if_neg (not_not.mpr hstep)]
      by_cases hmin : min = 0
      · have hwith := hzero.resolve_right (not_not.mpr hmin)
        rw [if_neg (not_not.mpr hmin), if_neg (not_not.mpr hmin), if_pos hwith,
          if_pos ⟨hstep, rfl⟩, hmin]
        rfl
      · rw [if_pos hmin, if_pos ⟨hstep, rfl⟩]
    · rw [if_pos hstep, if_neg fun hboth => hstep hboth.1]

section Built

variable {cipher : Cipher} {calls : List DrbgCall}
  (hmeets : ∀ c ∈ calls, ∃ cap : DrbgCap, c.Meets cipher cap)

include hmeets

/-- A length that was set last is one that the builder writes. -/
theorem drbgLastLength_fits {param : DrbgParm} (hparam : param.isLength = true) :
    ∀ l ∈ drbgLastLength calls param, LengthFits (param ≠ .entropyLen) l := by
  intro l hl
  obtain ⟨c, hc, hlength⟩ := List.mem_filterMap.mp (List.mem_of_getLast? hl)
  obtain ⟨cap, hmeet⟩ := hmeets c hc
  cases c with
  | setParm mode group param' value =>
    rw [DrbgCall.length?] at hlength
    split at hlength
    · rename_i hsame
      have hnot : param.isLength = false := hsame ▸ hmeet.2.1
      rw [hnot] at hparam
      cases hparam
    · cases hlength
  | setLength mode group param' min step max =>
    rw [DrbgCall.length?] at hlength
    split at hlength
    · rename_i hsame
      cases hlength
      refine hmeet.2.imp_right fun hends => ⟨hends.1, ?_⟩
      by_cases hentropy : param = .entropyLen
      · exact Or.inr (hends.2 (hsame.trans hentropy))
      · exact Or.inl (decide_eq_true hentropy)
    · cases hlength

/-- A length of a group is the one that was set last. -/
theorem drbg_length_eq {param : DrbgParm} (hparam : param.isLength = true) :
    (drbgChanged calls).length param =
      (drbgLastLength calls param).getD (0, 0, 0) := by
  have hstep : ∀ c ∈ calls, ∀ g : DrbgCapGroup,
      (c.change g).length param = (c.length? param).getD (g.length param) := by
    intro c hc g
    obtain ⟨cap, hmeet⟩ := hmeets c hc
    exact c.change_length hmeet hparam g
  have hlast := List.foldl_part (fun g : DrbgCapGroup => g.length param) hstep {}
  rw [drbgLastLength, drbgChanged, hlast]
  cases param <;> rfl

/-- The last length that was set is listed as its range. -/
theorem drbgLengthArray_last {param : DrbgParm} (hparam : param.isLength = true)
    {length : Int × Int × Int}
    (hlength : (drbgChanged calls).length param = length) :
    drbgLengthArray (param ≠ .entropyLen) length.1 length.2.1 length.2.2 =
      drbgLengthField (if param ≠ .entropyLen then [.num 0] else [])
        (drbgLastLength calls param) := by
  rw [← hlength, drbg_length_eq hmeets hparam,
    drbgLengthArray_of_fits (drbgLastLength_fits hmeets hparam)]
  simp only [decide_eq_true_eq]

/-- The derivation function is set for CTR alone. -/
theorem ctrdrbg_of_derFunc (h : drbgLastParm calls .derFuncEnabled ≠ none) : cipher = .ctrdrbg := by
  obtain ⟨value, hvalue⟩ := Option.ne_none_iff_exists'.mp h
  obtain ⟨c, hc, hparm⟩ := List.mem_filterMap.mp (List.mem_of_getLast? hvalue)
  obtain ⟨cap, hmeet⟩ := hmeets c hc
  cases c with
  | setParm mode group param value =>
    rw [DrbgCall.parm?] at hparm
    split at hparm
    · rename_i hparam
      exact hmeet.2.2 hparam
    · cases hparm
  | setLength mode group param min step max => cases hparm

/-- The object of a group holds what its calls set. -/
theorem drbgGroupObject_of_meets (mode : Int) :
    drbgGroupObject cipher ((lookupDrbgModeString mode).getD "") (drbgChanged calls) =
      drbgSetObject cipher mode calls := by
  have hderFunc : (drbgChanged calls).derFuncEnabled =
      (drbgLastParm calls .derFuncEnabled).getD 0 :=
    List.foldl_part DrbgCapGroup.derFuncEnabled
      (fun c (_ : c ∈ calls) g => c.change_derFunc g) {}
  have hretBits : (drbgChanged calls).returnedBitsLen =
      (drbgLastParm calls .retBitsLen).getD 0 :=
    List.foldl_part DrbgCapGroup.returnedBitsLen
      (fun c (_ : c ∈ calls) g => c.change_retBits g) {}
  have hlengths (param : DrbgParm) (hparam : param.isLength = true) :=
    drbgLengthArray_last hmeets hparam rfl
  rw [drbgGroupObject_eq, drbgSetObject, ← hderFunc, ← hretBits]
  have hentropy : drbgLengthArray false (drbgChanged calls).entropyLenMin
      (drbgChanged calls).entropyLenStep (drbgChanged calls).entropyLenMax =
      drbgLengthField [] (drbgLastLength calls .entropyLen) := hlengths .entropyLen rfl
  have hnonce : drbgLengthArray true (drbgChanged calls).nonceLenMin
      (drbgChanged calls).nonceLenStep (drbgChanged calls).nonceLenMax =
      drbgLengthField [.num 0] (drbgLastLength calls .nonceLen) := hlengths .nonceLen rfl
  have hperso : drbgLengthArray true (drbgChanged calls).persoLenMin
      (drbgChanged calls).persoLenStep (drbgChanged calls).persoLenMax =
      drbgLengthField [.num 0] (drbgLastLength calls .persoLen) := hlengths .persoLen rfl
  have haddIn : drbgLengthArray true (drbgChanged calls).additionalInLenMin
      (drbgChanged calls).additionalInLenStep (drbgChanged calls).additionalInLenMax =
      drbgLengthField [.num 0] (drbgLastLength calls .addInLen) := hlengths .addInLen rfl
  rw [hentropy, hnonce, hperso, haddIn]
  by_cases hctr : cipher = .ctrdrbg
  · rw [if_pos hctr, if_pos (Or.inl hctr)]
  · rw [if_neg hctr, if_neg fun hset => hset.elim hctr fun h => hctr (ctrdrbg_of_derFunc hmeets h)]

end Built

/-- The modes are built one after the other, and none fails. -/
theorem drbgModes_mapM {cipher : Cipher} {calls : List DrbgCall}
    (hmeets : ∀ c ∈ calls, ∃ cap : DrbgCap, c.Meets cipher cap) {modes : List Int}
    (hmodes : ∀ mode ∈ modes, (lookupDrbgModeString mode).isSome) :
    (modes.map (drbgStoredMode calls)).mapM (drbgModeObjects cipher) =
      .ok (modes.map fun mode => (drbgGroups calls mode).map fun group =>
        .obj (drbgSetObject cipher mode (drbgCallsAt calls mode group))) := by
  induction modes with
  | nil => rfl
  | cons mode modes ih =>
    obtain ⟨name, hname⟩ := Option.isSome_iff_exists.mp (hmodes mode List.mem_cons_self)
    have hmode : drbgModeObjects cipher (drbgStoredMode calls mode) =
        .ok ((drbgGroups calls mode).map fun group =>
          .obj (drbgSetObject cipher mode (drbgCallsAt calls mode group))) := by
      unfold drbgModeObjects drbgStoredMode
      rw [hname, need_some, ok_bind, List.map_map]
      refine congrArg Except.ok (List.map_congr_left fun group _ => congrArg Json.obj ?_)
      have hat : ∀ c ∈ drbgCallsAt calls mode group, ∃ cap : DrbgCap, c.Meets cipher cap :=
        fun c hc => hmeets c (List.mem_of_mem_filter hc)
      rw [← drbgGroupObject_of_meets hat mode, hname]
      rfl
    rw [List.map_cons, List.mapM_cons, hmode, ok_bind,
      ih fun m hm => hmodes m (List.mem_cons_of_mem _ hm), ok_bind]
    rfl

/-- Every group of a generator is registered with what was set last for it, in the order in which
the modes and their groups were set first. -/
theorem drbg_registered {cipher : Cipher}
    (hdrbg : cipher = .hashdrbg ∨ cipher = .hmacdrbg ∨ cipher = .ctrdrbg) {calls : List DrbgCall}
    {cap : DrbgCap}
    (h : AcceptedRun (DrbgCall.setter cipher) (fun cap c => c.Meets cipher cap) {} calls cap) :
    DrbgRegistered cipher calls cap := by
  intro capObj entry hentry hcalls
  have hstores := drbg_stores h
  obtain ⟨c, rest, rfl⟩ := List.exists_cons_of_ne_nil hcalls
  have hnamed : ∀ mode ∈ drbgModes (c :: rest), (lookupDrbgModeString mode).isSome := by
    intro mode hmode
    obtain ⟨d, hd, rfl⟩ := List.mem_map.mp (List.mem_eraseDups.mp hmode)
    obtain ⟨cap', hmeet⟩ := h.meets d hd
    cases d with
    | setParm mode group param value => exact hmeet.1
    | setLength mode group param min step max => exact hmeet.1
  have hobjects := drbgModes_mapM h.meets hnamed
  obtain ⟨first, hfirst, hgroups⟩ :
      ∃ first, cap.drbgCapMode.head? = some first ∧ first.groups ≠ [] := by
    refine ⟨drbgStoredMode (c :: rest) c.mode, ?_, ?_⟩
    · rw [hstores.modes, drbgModes, List.map_cons, List.eraseDups_cons]
      rfl
    · have hgroup : c.group? c.mode = some c.group := if_pos rfl
      unfold drbgStoredMode drbgGroups
      rw [List.filterMap_cons_some hgroup, List.eraseDups_cons]
      exact List.cons_ne_nil _ _
  have hbuild : ∃ base, buildDrbgRegisterCap capObj entry cap =
      .ok (jsonObjectSetValue (jsonObjectSetBoolean (jsonObjectSetValue base
        "predResistanceEnabled" (.arr [.bool (cap.predResistEnabled ≠ 0)])) "reseedImplemented"
        cap.reseedImplemented) "capabilities" (.arr ((drbgModes (c :: rest)).flatMap fun mode =>
          (drbgGroups (c :: rest) mode).map fun group =>
            .obj (drbgSetObject cipher mode (drbgCallsAt (c :: rest) mode group))))) := by
    unfold buildDrbgRegisterCap
    rw [hfirst, need_some, ok_bind, stopIf_neg hgroups, ok_bind, hentry, hstores.modes, hobjects]
    rcases hdrbg with rfl | rfl | rfl
    · exact ⟨_, rfl⟩
    · exact ⟨_, rfl⟩
    · exact ⟨_, rfl⟩
  obtain ⟨base, hbuild⟩ := hbuild
  rw [hstores.predResist, hstores.reseed] at hbuild
  refine ⟨_, hbuild, ?_, ?_, ?_⟩
  · rw [jsonObjectGetArray, jsonObjectGetValue_set]
    rfl
  · rw [jsonObjectGetValue_set_of_ne _ _ (by decide), jsonObjectSetBoolean,
      jsonObjectGetValue_set_of_ne _ _ (by decide), jsonObjectGetValue_set]
  · rw [jsonObjectGetValue_set_of_ne _ _ (by decide), jsonObjectSetBoolean,
      jsonObjectGetValue_set]

end LibAmvp
