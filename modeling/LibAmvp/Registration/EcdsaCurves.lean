import LibAmvp.Lib.Grouping
import LibAmvp.Registration.Signatures

/-!
# Curves and hashes of ECDSA signatures

The curves of a signature algorithm are registered in a list, and hashes are registered for one
curve or for all of them.  The registration puts the curves with the same hashes into one object.
A curve may be registered more than once; only the first node of a curve gets the hashes that
are registered for it.

Main results:

- Theorem {lit}`EcdsaSets.stores`: what a run of calls leaves in the capability.
- Theorem {lit}`ecdsa_grouping_iff`: when the curves are grouped by their hashes.
-/

namespace LibAmvp

open Guard

/-! ## Calls -/

/-- A call on the capability of a signature algorithm. -/
inductive EcdsaCall where
  | setParm (param : EcdsaParm) (value : Int)
  | setCurveHashAlg (curve alg : Int)

/-- What a call does with the capability of the cipher. -/
def EcdsaCall.setter (cipher : Cipher) : EcdsaCall → Setter (EcdsaCap × Int)
  | setParm param value => ecdsaSetParm cipher param value
  | setCurveHashAlg curve alg =>
    if curve ≤ ecCurveStart ∨ curve ≥ ecCurveEnd then refuse .invalidArg
    else if isSingleHashAlg alg then uncounted (ecdsaSetCurveHashAlg curve alg)
    else refuse .invalidArg

/-- The function that is called. -/
def EcdsaCall.action (cipher : Cipher) : EcdsaCall → CapAction
  | setParm param value => capEcdsaSetParm cipher param value
  | setCurveHashAlg curve alg => capEcdsaSetCurveHashAlg cipher curve alg

/-- A function refuses its arguments, or it works on the capability of the cipher. -/
theorem EcdsaCall.action_cases (c : EcdsaCall) :
    (c.action .ecdsaSiggen = .refuse .invalidArg ∧ c.action .ecdsaSigver = .refuse .invalidArg) ∨
    (c.action .ecdsaSiggen =
        .atEntry .ecdsaSiggen (.member .ecdsaSiggenCap (c.setter .ecdsaSiggen)) ∧
      c.action .ecdsaSigver =
        .atEntry .ecdsaSigver (.member .ecdsaSigverCap (c.setter .ecdsaSigver))) := by
  cases c with
  | setParm param value => exact Or.inr ⟨rfl, rfl⟩
  | setCurveHashAlg curve alg =>
    unfold EcdsaCall.action EcdsaCall.setter capEcdsaSetCurveHashAlg
    dsimp only
    by_cases hrange : curve ≤ ecCurveStart ∨ curve ≥ ecCurveEnd
    · rw [if_pos hrange]
      exact Or.inl ⟨rfl, if_pos hrange⟩
    · simp only [if_neg hrange]
      by_cases hsingle : isSingleHashAlg alg = true
      · simp only [if_pos hsingle]
        exact Or.inr ⟨trivial, trivial⟩
      · simp only [if_neg hsingle]
        exact Or.inl ⟨trivial, trivial⟩

/-- The calls on an entry that was registered, all of them successful, and what they leave. -/
inductive EcdsaSets (cipher : Cipher) : List EcdsaCall → EcdsaCap × Int → Prop
  | registered (vsCount : Int) : EcdsaSets cipher [] ({}, vsCount)
  | call {calls : List EcdsaCall} {s s' : EcdsaCap × Int} (before : EcdsaSets cipher calls s)
      (c : EcdsaCall) (accepted : c.setter cipher s = .ok (.success, s')) :
      EcdsaSets cipher (calls ++ [c]) s'

/-- The curve that a call registers. -/
def EcdsaCall.curve? : EcdsaCall → Option Int
  | setParm .curve value => some value
  | _ => none

/-- The hash that a call registers for all curves. -/
def EcdsaCall.commonHash? : EcdsaCall → Option Int
  | setParm .hashAlg value => some value
  | _ => none

/-- The hash that a call registers for a curve. -/
def EcdsaCall.curveHash? (curve : Int) : EcdsaCall → Option Int
  | setCurveHashAlg curve' alg => if curve' = curve then some alg else none
  | _ => none

/-- The curves in the order of their calls. -/
def registeredCurves (calls : List EcdsaCall) : List Int := calls.filterMap EcdsaCall.curve?

/-- The hashes that are registered for all curves. -/
def commonHashes (calls : List EcdsaCall) : Finset Int :=
  (calls.filterMap EcdsaCall.commonHash?).toFinset

/-- The hashes that are registered for a curve. -/
def curveHashes (calls : List EcdsaCall) (curve : Int) : Finset Int :=
  (calls.filterMap (EcdsaCall.curveHash? curve)).toFinset

/-- The hashes that are registered for a curve or for all curves. -/
def effectiveHashes (calls : List EcdsaCall) (curve : Int) : Finset Int :=
  curveHashes calls curve ∪ commonHashes calls

/-! ## The grouping -/

/-- The object of some curves: their names, and the names of their hashes. -/
def ListsCurves (cipher : Cipher) (hashes : Int → Finset Int) (curves : List Int) (object : Json) :
    Prop :=
  ∃ names algs, object = .obj (ecdsaGroupObject names algs) ∧
    curves.map (lookupEcCurveName cipher) = names.map some ∧ algs.Nodup ∧
    ∀ c ∈ curves, ∀ name, name ∈ algs ↔ ∃ i ∈ hashes c, lookupHashAlgName i = some name

/-- The objects group the registered curves by their hashes. -/
def GroupsCurves (cipher : Cipher) (calls : List EcdsaCall) (objects : List Json) : Prop :=
  ∃ groups, IsGrouping (effectiveHashes calls) (registeredCurves calls) groups ∧
    List.Forall₂ (ListsCurves cipher (effectiveHashes calls)) groups objects

/-- What is built from a capability holds these objects, with any component mode. -/
def Builds (cipher : Cipher) (cap : EcdsaCap) (objects : List Json) : Prop :=
  ∀ capObj entry component, entry.cipher = cipher →
    ∃ obj, (buildEcdsaRegisterCap capObj entry { cap with component }).1 = .ok obj ∧
      jsonObjectGetArray (some obj) "capabilities" = some objects

/-! ### What the calls store -/

/-- A node as a pair of its curve and its hashes. -/
def CurveAlgCompat.pair (c : CurveAlgCompat) : Int × Finset Int := (c.curve, c.algs)

/-- The capability holds what the calls have registered. -/
structure EcdsaStores (calls : List EcdsaCall) (cap : EcdsaCap) : Prop where
  curves : cap.curves.map CurveAlgCompat.pair =
    firstMarked (curveHashes calls) ∅ [] (registeredCurves calls)
  hashAlgs : cap.hashAlgs = commonHashes calls
  unregistered : ∀ c ∉ registeredCurves calls, curveHashes calls c = ∅
  inRange : ∀ c, ∀ i ∈ effectiveHashes calls c, 0 ≤ i ∧ i < hashAlgMax

/-- A value that is a single hash is within the table. -/
theorem isSingleHashAlg_inRange {value : Int} (h : isSingleHashAlg value = true) :
    0 ≤ value ∧ value < hashAlgMax := by
  unfold isSingleHashAlg noSha at h
  simp only [decide_eq_true_eq, not_or] at h
  omega

/-- What a successful call of {lit}`amvp_cap_ecdsa_set_parm` does. -/
theorem ecdsaSetParm_accepted {cipher : Cipher}
    (hsig : cipher = .ecdsaSiggen ∨ cipher = .ecdsaSigver) {param : EcdsaParm} {value : Int}
    {s s' : EcdsaCap × Int} (h : ecdsaSetParm cipher param value s = .ok (.success, s')) :
    (param = .curve ∧ s'.1 = { s.1 with curves := s.1.curves ++ [{ curve := value }] }) ∨
    (param = .hashAlg ∧ isSingleHashAlg value = true ∧
      s'.1 = { s.1 with hashAlgs := insert value s.1.hashAlgs }) ∨
    (param = .componentTest ∧ s'.1 = { s.1 with component := value }) := by
  have hrefuse (rv : AmvpResult) (hrv : rv ≠ .success) :
      (refuse rv : Setter (EcdsaCap × Int)) s ≠ .ok (.success, s') :=
    fun h => hrv (congrArg Prod.fst (Except.ok.inj h))
  have hkeygen : cipher ≠ .ecdsaKeygen := by rcases hsig with rfl | rfl <;> decide
  unfold ecdsaSetParm at h
  by_cases hvalue : value = 0
  · rw [if_pos hvalue] at h
    exact absurd h (hrefuse _ (by decide))
  · rw [if_neg hvalue] at h
    cases param with
    | curve =>
      simp only [Op.ite_apply] at h
      split at h
      · exact absurd h (hrefuse _ (by decide))
      · cases h
        exact Or.inl ⟨rfl, rfl⟩
    | secretGen =>
      dsimp only at h
      rw [if_pos hkeygen] at h
      exact absurd h (hrefuse _ (by decide))
    | hashAlg =>
      simp only [Op.ite_apply] at h
      split at h
      · exact absurd h (hrefuse _ (by decide))
      · split at h
        · rename_i hsingle
          cases h
          exact Or.inr (Or.inl ⟨rfl, hsingle, rfl⟩)
        · exact absurd h (hrefuse _ (by decide))
    | componentTest =>
      dsimp only at h
      rw [if_pos hsig, Op.ite_apply] at h
      split at h
      · cases h
        exact Or.inr (Or.inr ⟨rfl, rfl⟩)
      · exact absurd h (hrefuse _ (by decide))
    | other raw => exact absurd h (hrefuse _ (by decide))

/-- The first node of a curve gets a hash. -/
theorem atFirst_firstMarked {curve alg : Int} {hashes : Int → Finset Int} {keys seen : List Int}
    {nodes nodes' : List CurveAlgCompat} (hseen : curve ∉ seen)
    (hpairs : nodes.map CurveAlgCompat.pair = firstMarked hashes ∅ seen keys)
    (h : Op.atFirst (fun c => c.curve == curve) .unsupportedOp
      (accept fun c : CurveAlgCompat => { c with algs := insert alg c.algs }) nodes =
        .ok (.success, nodes')) :
    curve ∈ keys ∧ nodes'.map CurveAlgCompat.pair =
      firstMarked (Function.update hashes curve (insert alg (hashes curve))) ∅ seen keys := by
  induction keys generalizing seen nodes nodes' with
  | nil =>
    rw [List.map_eq_nil_iff.mp hpairs] at h
    cases h
  | cons k keys ih =>
    obtain ⟨c, nodes, rfl, hpair, hrest⟩ := List.map_eq_cons_iff.mp hpairs
    obtain ⟨rfl, halgs⟩ := Prod.mk.inj hpair
    rw [Op.atFirst] at h
    by_cases hk : c.curve = curve
    · rw [if_pos (beq_iff_eq.mpr hk)] at h
      cases h
      rw [hk, if_neg hseen] at halgs
      refine ⟨hk ▸ List.mem_cons_self, ?_⟩
      rw [firstMarked, List.map_cons, hrest, hk, if_neg hseen, Function.update_self]
      have hfirst : CurveAlgCompat.pair { c with algs := insert alg c.algs } =
          (curve, insert alg (hashes curve)) := Prod.ext hk (congrArg (insert alg) halgs)
      refine congrArg₂ _ hfirst (firstMarked_congr fun k _ hk' => ?_)
      refine (Function.update_of_ne (fun heq => hk' ?_) _ _).symm
      rw [heq]
      exact List.mem_cons_self
    · rw [if_neg fun heq => hk (beq_iff_eq.mp heq)] at h
      obtain ⟨⟨rv, out⟩, hout, hcons⟩ := map_eq_ok.mp h
      cases hcons
      have hseen' : curve ∉ c.curve :: seen := fun hmem =>
        (List.mem_cons.mp hmem).elim (fun heq => hk heq.symm) hseen
      obtain ⟨hmem, hnodes⟩ := ih hseen' hrest hout
      refine ⟨List.mem_cons_of_mem _ hmem, ?_⟩
      rw [firstMarked, List.map_cons, hnodes, Function.update_of_ne hk]
      exact congrArg₂ _ hpair rfl

/-- What a successful call of {lit}`amvp_cap_ecdsa_set_curve_hash_alg` does. -/
theorem setCurveHashAlg_accepted {cipher : Cipher} {curve alg : Int} {s s' : EcdsaCap × Int}
    (h : (EcdsaCall.setCurveHashAlg curve alg).setter cipher s = .ok (.success, s')) :
    isSingleHashAlg alg = true ∧ ∃ nodes,
      Op.atFirst (fun c => c.curve == curve) .unsupportedOp
        (accept fun c : CurveAlgCompat => { c with algs := insert alg c.algs }) s.1.curves =
          .ok (.success, nodes) ∧ s'.1 = { s.1 with curves := nodes } := by
  have hne : AmvpResult.invalidArg ≠ .success := by decide
  have hrefuse : (refuse .invalidArg : Setter (EcdsaCap × Int)) s ≠ .ok (.success, s') :=
    fun h => hne (congrArg Prod.fst (Except.ok.inj h))
  unfold EcdsaCall.setter at h
  dsimp only at h
  by_cases hrange : curve ≤ ecCurveStart ∨ curve ≥ ecCurveEnd
  · rw [if_pos hrange] at h
    exact absurd h hrefuse
  · rw [if_neg hrange] at h
    by_cases hsingle : isSingleHashAlg alg = true
    · rw [if_pos hsingle] at h
      obtain ⟨cap', hset, rfl⟩ := Op.zoom_eq_ok_iff.mp h
      obtain ⟨nodes, hnodes, rfl⟩ := Op.zoom_eq_ok_iff.mp hset
      exact ⟨hsingle, nodes, hnodes, rfl⟩
    · rw [if_neg hsingle] at h
      exact absurd h hrefuse

/-! ### Calls and what they register -/

/-- A further call registers its curve. -/
theorem registeredCurves_append (calls : List EcdsaCall) (c : EcdsaCall) :
    registeredCurves (calls ++ [c]) = registeredCurves calls ++ c.curve?.toList := by
  rw [registeredCurves, List.filterMap_append]
  cases hc : c.curve? <;> simp [registeredCurves, hc]

/-- A further call adds its hash for all curves. -/
theorem commonHashes_append (calls : List EcdsaCall) (c : EcdsaCall) :
    commonHashes (calls ++ [c]) = commonHashes calls ∪ c.commonHash?.toList.toFinset := by
  rw [commonHashes, List.filterMap_append, List.toFinset_append]
  cases hc : c.commonHash? <;> simp [commonHashes, hc]

/-- A further call adds its hash for one curve. -/
theorem curveHashes_append (calls : List EcdsaCall) (c : EcdsaCall) :
    curveHashes (calls ++ [c]) =
      fun curve => curveHashes calls curve ∪ (c.curveHash? curve).toList.toFinset := by
  funext curve
  rw [curveHashes, List.filterMap_append, List.toFinset_append]
  cases hc : c.curveHash? curve <;> simp [curveHashes, hc]

/-- A call to {lit}`amvp_cap_ecdsa_set_parm` registers no hash for a single curve. -/
theorem curveHashes_append_setParm (calls : List EcdsaCall) (param : EcdsaParm) (value : Int) :
    curveHashes (calls ++ [.setParm param value]) = curveHashes calls := by
  rw [curveHashes_append]
  exact funext fun curve => Finset.union_empty _

/-- The same, written as an update at the curve. -/
theorem curveHashes_append_setCurveHashAlg (calls : List EcdsaCall) (curve alg : Int) :
    curveHashes (calls ++ [.setCurveHashAlg curve alg]) =
      Function.update (curveHashes calls) curve (insert alg (curveHashes calls curve)) := by
  rw [curveHashes_append]
  funext c
  by_cases hc : c = curve
  · subst hc
    rw [Function.update_self, EcdsaCall.curveHash?, if_pos rfl, Option.toList_some,
      List.toFinset_cons, List.toFinset_nil, insert_empty_eq, Finset.union_comm,
      ← Finset.insert_eq]
  · rw [Function.update_of_ne hc, EcdsaCall.curveHash?, if_neg fun heq => hc heq.symm]
    exact Finset.union_empty _

/-- A hash is effective for a curve when it was set for it or for all. -/
theorem mem_effectiveHashes {calls : List EcdsaCall} {c i : Int} :
    i ∈ effectiveHashes calls c ↔ i ∈ curveHashes calls c ∨ i ∈ commonHashes calls :=
  Finset.mem_union

/-- What a run of calls leaves in the capability. -/
theorem EcdsaSets.stores {cipher : Cipher} (hsig : cipher = .ecdsaSiggen ∨ cipher = .ecdsaSigver)
    {calls : List EcdsaCall} {s : EcdsaCap × Int} (h : EcdsaSets cipher calls s) :
    EcdsaStores calls s.1 := by
  induction h with
  | registered vsCount =>
    refine ⟨rfl, rfl, fun c _ => rfl, fun c i hi => ?_⟩
    rcases mem_effectiveHashes.mp hi with hi | hi <;> exact absurd hi (Finset.notMem_empty i)
  | @call calls s s' before c accepted ih =>
    cases c with
    | setParm param value =>
      have hhashes := curveHashes_append_setParm calls param value
      rcases ecdsaSetParm_accepted hsig accepted with ⟨rfl, hs'⟩ | ⟨rfl, hsingle, hs'⟩ | ⟨rfl, hs'⟩
      · have hcurves := registeredCurves_append calls (.setParm .curve value)
        have hcommon := commonHashes_append calls (.setParm .curve value)
        simp only [EcdsaCall.curve?, EcdsaCall.commonHash?, Option.toList_some, Option.toList_none,
          List.toFinset_nil, Finset.union_empty] at hcurves hcommon
        refine ⟨?_, ?_, ?_, ?_⟩
        · have hnew : (if value ∈ [] ∨ value ∈ registeredCurves calls then ∅
              else curveHashes calls value) = ∅ := by
            split
            · rfl
            · rename_i hnew
              exact ih.unregistered value fun hmem => hnew (Or.inr hmem)
          rw [hs', hhashes, hcurves, firstMarked_append, ← ih.curves, List.map_append, hnew]
          rfl
        · rw [hs', hcommon]
          exact ih.hashAlgs
        · rw [hhashes, hcurves]
          exact fun c hc => ih.unregistered c fun h => hc (List.mem_append_left _ h)
        · intro c i hi
          rw [mem_effectiveHashes, hhashes, hcommon, ← mem_effectiveHashes] at hi
          exact ih.inRange c i hi
      · have hcurves := registeredCurves_append calls (.setParm .hashAlg value)
        have hcommon := commonHashes_append calls (.setParm .hashAlg value)
        simp only [EcdsaCall.curve?, EcdsaCall.commonHash?, Option.toList_some, Option.toList_none,
          List.append_nil, List.toFinset_cons, List.toFinset_nil, insert_empty_eq]
          at hcurves hcommon
        refine ⟨?_, ?_, ?_, ?_⟩
        · rw [hs', hhashes, hcurves]
          exact ih.curves
        · rw [hs', hcommon, Finset.union_comm, ← Finset.insert_eq, ih.hashAlgs]
        · rw [hhashes, hcurves]
          exact ih.unregistered
        · intro c i hi
          rw [mem_effectiveHashes, hhashes, hcommon, Finset.mem_union, ← or_assoc,
            ← mem_effectiveHashes, Finset.mem_singleton] at hi
          rcases hi with hi | rfl
          · exact ih.inRange c i hi
          · exact isSingleHashAlg_inRange hsingle
      · have hcurves := registeredCurves_append calls (.setParm .componentTest value)
        have hcommon := commonHashes_append calls (.setParm .componentTest value)
        simp only [EcdsaCall.curve?, EcdsaCall.commonHash?, Option.toList_none, List.append_nil,
          List.toFinset_nil, Finset.union_empty] at hcurves hcommon
        refine ⟨?_, ?_, ?_, ?_⟩
        · rw [hs', hhashes, hcurves]
          exact ih.curves
        · rw [hs', hcommon]
          exact ih.hashAlgs
        · rw [hhashes, hcurves]
          exact ih.unregistered
        · intro c i hi
          rw [mem_effectiveHashes, hhashes, hcommon, ← mem_effectiveHashes] at hi
          exact ih.inRange c i hi
    | setCurveHashAlg curve alg =>
      obtain ⟨hsingle, cap', hset, hs'⟩ := setCurveHashAlg_accepted accepted
      obtain ⟨hmem, hnodes⟩ := atFirst_firstMarked List.not_mem_nil ih.curves hset
      have hcurves := registeredCurves_append calls (.setCurveHashAlg curve alg)
      have hcommon := commonHashes_append calls (.setCurveHashAlg curve alg)
      simp only [EcdsaCall.curve?, EcdsaCall.commonHash?, Option.toList_none, List.append_nil,
        List.toFinset_nil, Finset.union_empty] at hcurves hcommon
      have hhashes := curveHashes_append_setCurveHashAlg calls curve alg
      refine ⟨?_, ?_, ?_, ?_⟩
      · rw [hs', hhashes, hcurves]
        exact hnodes
      · rw [hs', hcommon]
        exact ih.hashAlgs
      · rw [hhashes, hcurves]
        intro c hc
        rw [Function.update_of_ne fun heq => hc (by rwa [heq])]
        exact ih.unregistered c hc
      · intro c i hi
        rw [mem_effectiveHashes, hhashes, hcommon] at hi
        by_cases hc : c = curve
        · subst hc
          rw [Function.update_self, Finset.mem_insert, or_assoc, ← mem_effectiveHashes] at hi
          rcases hi with rfl | hi
          · exact isSingleHashAlg_inRange hsingle
          · exact ih.inRange c i hi
        · rw [Function.update_of_ne hc, ← mem_effectiveHashes] at hi
          exact ih.inRange c i hi

/-! ### What is built -/

/-- The object of a group of the scan. -/
def EmitsGroup (cipher : Cipher) (g : List Int × Finset Int) (object : Json) : Prop :=
  ∃ names algs, object = .obj (ecdsaGroupObject names algs) ∧
    g.1.map (lookupEcCurveName cipher) = names.map some ∧ hashAlgNames g.2 = .ok algs

/-- A curve is tracked when it is in range and marked. -/
theorem isTracked_eq_ok {track : List Int} {curve : Int} {b : Bool} :
    isTracked track curve = .ok b ↔
      (0 ≤ curve ∧ curve ≤ ecCurveEnd) ∧ decide (curve ∈ track) = b := by
  unfold isTracked
  split <;> simp_all

/-- What the inner loop collects are the curves of the list with the same hashes. -/
theorem ecdsaSameAlgs_eq_ok {cipher : Cipher} {current : CurveAlgCompat} {track : List Int}
    {nodes : List CurveAlgCompat} {out : List String × List Int}
    (h : ecdsaSameAlgs cipher current track nodes = .ok out) :
    (joinLeader current.pair track (nodes.map CurveAlgCompat.pair)).1.map
        (lookupEcCurveName cipher) = out.1.map some ∧
      (joinLeader current.pair track (nodes.map CurveAlgCompat.pair)).2 = out.2 := by
  induction nodes generalizing track out with
  | nil =>
    cases h
    exact ⟨rfl, rfl⟩
  | cons c nodes ih =>
    rw [ecdsaSameAlgs] at h
    rw [List.map_cons, joinLeader]
    by_cases hleader : current.curve = c.curve
    · rw [if_pos hleader] at h
      rw [if_pos (show current.pair.1 = c.pair.1 ∨ c.pair.1 ∈ track from Or.inl hleader)]
      exact ih h
    · rw [if_neg hleader, bind_eq_ok] at h
      obtain ⟨skipped, hskipped, h⟩ := h
      obtain ⟨-, rfl⟩ := isTracked_eq_ok.mp hskipped
      dsimp only at h
      by_cases hs : c.curve ∈ track
      · rw [if_pos (decide_eq_true hs)] at h
        rw [if_pos (show current.pair.1 = c.pair.1 ∨ c.pair.1 ∈ track from Or.inr hs)]
        exact ih h
      · rw [if_neg (by rw [decide_eq_false hs]; decide)] at h
        rw [if_neg (show ¬(current.pair.1 = c.pair.1 ∨ c.pair.1 ∈ track) from
          not_or.mpr ⟨hleader, hs⟩)]
        by_cases halgs : current.algs = c.algs
        · rw [if_pos (show current.pair.2 = c.pair.2 from halgs)]
          rw [if_pos halgs, bind_eq_ok] at h
          obtain ⟨name, hname, h⟩ := h
          obtain ⟨rest, hrest, h⟩ := bind_eq_ok.mp h
          cases h
          obtain ⟨hnames, htrack⟩ := ih hrest
          refine ⟨?_, htrack⟩
          dsimp only
          rw [List.map_cons, List.map_cons]
          exact congrArg₂ _ (need_eq_ok.mp hname) hnames
        · rw [if_neg (show ¬current.pair.2 = c.pair.2 from halgs)]
          rw [if_neg halgs] at h
          exact ih h

/-- The objects that are built are those of the scanned groups, in order. -/
theorem ecdsaCapabilities_eq_ok {cipher : Cipher} {track : List Int} {nodes : List CurveAlgCompat}
    {objects : List Json} (h : ecdsaCapabilities cipher track nodes = .ok objects) :
    List.Forall₂ (EmitsGroup cipher) (scanGroups track (nodes.map CurveAlgCompat.pair))
      objects := by
  induction nodes generalizing track objects with
  | nil =>
    cases h
    exact .nil
  | cons c nodes ih =>
    simp only [ecdsaCapabilities, bind_eq_ok, stopIf_eq_ok, exists_const] at h
    obtain ⟨-, skipped, hskipped, h⟩ := h
    obtain ⟨-, rfl⟩ := isTracked_eq_ok.mp hskipped
    rw [List.map_cons, scanGroups]
    by_cases hs : c.curve ∈ track
    · rw [if_pos (show c.pair.1 ∈ track from hs)]
      rw [if_pos (decide_eq_true hs)] at h
      exact ih h
    · rw [if_neg (show c.pair.1 ∉ track from hs)]
      rw [if_neg (by rw [decide_eq_false hs]; decide)] at h
      simp only [bind_eq_ok, pure_eq_ok, mapError_eq_ok] at h
      obtain ⟨name, hname, algs, halgs, same, hsame, out, hout, rfl⟩ := h
      obtain ⟨hnames, htrack⟩ := ecdsaSameAlgs_eq_ok hsame
      rw [← htrack] at hout
      refine .cons ⟨_, algs, rfl, ?_, halgs⟩ (ih hout)
      rw [List.map_cons, List.map_cons]
      exact congrArg₂ _ (need_eq_ok.mp hname) hnames

/-! ### Names -/

/-- The name of a curve is in one of the two tables. -/
theorem lookupEcCurveName_eq_some {cipher : Cipher} {id : Int} {name : String}
    (h : lookupEcCurveName cipher id = some name) :
    ∃ row ∈ ecCurveTbl ++ ecCurveDeprTbl, row.1.toInt = id ∧ row.2 = name := by
  unfold lookupEcCurveName at h
  obtain ⟨row, hrow, rfl⟩ := Option.map_eq_some_iff.mp h
  have hmem := List.mem_of_find?_eq_some hrow
  have hid : row.1.toInt = id := by simpa using List.find?_some hrow
  refine ⟨row, ?_, hid, rfl⟩
  split at hmem
  · exact hmem
  · exact List.mem_append_left _ hmem

/-- Two curves do not have the same name. -/
theorem lookupEcCurveName_injective {cipher : Cipher} {id id' : Int} {name : String}
    (h : lookupEcCurveName cipher id = some name) (h' : lookupEcCurveName cipher id' = some name) :
    id = id' := by
  obtain ⟨row, hrow, rfl, hname⟩ := lookupEcCurveName_eq_some h
  obtain ⟨row', hrow', rfl, hname'⟩ := lookupEcCurveName_eq_some h'
  have hnodup : ((ecCurveTbl ++ ecCurveDeprTbl).map Prod.snd).Nodup := by decide
  rw [List.inj_on_of_nodup_map hnodup hrow hrow' (hname.trans hname'.symm)]

/-- Curves of one cipher with the same names are the same. -/
theorem curves_eq_of_names {cipher : Cipher} {curves curves' : List Int} {names : List String}
    (h : curves.map (lookupEcCurveName cipher) = names.map some)
    (h' : curves'.map (lookupEcCurveName cipher) = names.map some) : curves = curves' := by
  induction names generalizing curves curves' with
  | nil => rw [List.map_eq_nil_iff.mp h, List.map_eq_nil_iff.mp h']
  | cons name names ih =>
    obtain ⟨c, curves, rfl, hc, hcurves⟩ := List.map_eq_cons_iff.mp h
    obtain ⟨c', curves', rfl, hc', hcurves'⟩ := List.map_eq_cons_iff.mp h'
    rw [lookupEcCurveName_injective hc hc', ih hcurves hcurves']

/-- The names are those of the hashes, each of them once. -/
theorem hashAlgNames_eq_ok {algs : Finset Int} {names : List String}
    (h : hashAlgNames algs = .ok names) :
    names.Nodup ∧ ∀ name, name ∈ names ↔ ∃ i ∈ algs, lookupHashAlgName i = some name := by
  unfold hashAlgNames at h
  split at h
  · cases h
    have hnodup : (HashAlg.all.map HashAlg.name).Nodup := by decide
    refine ⟨hnodup.sublist (List.filter_sublist.map _), fun name => ?_⟩
    simp only [List.mem_map, List.mem_filter, decide_eq_true_eq]
    constructor
    · rintro ⟨alg, ⟨-, halg⟩, rfl⟩
      exact ⟨alg.toInt, halg, by cases alg <;> rfl⟩
    · rintro ⟨i, hi, hname⟩
      obtain ⟨alg, halg, rfl⟩ := Option.map_eq_some_iff.mp hname
      have htoInt : alg.toInt = i := by simpa using List.find?_some halg
      exact ⟨alg, ⟨List.mem_of_find?_eq_some halg, htoInt ▸ hi⟩, rfl⟩
  · cases h

/-! ### The nodes that are scanned -/

/-- The flags of hashes within the table are all of them. -/
theorem hashFlags_of_inRange {algs : Finset Int} (h : ∀ i ∈ algs, 0 ≤ i ∧ i < hashAlgMax) :
    hashFlags algs = algs := Finset.filter_true_of_mem h

/-- What is stored after the hashes for all curves were added. -/
theorem EcdsaStores.widen {calls : List EcdsaCall} {cap : EcdsaCap} (h : EcdsaStores calls cap) :
    cap.widen.curves.map CurveAlgCompat.pair =
      firstMarked (effectiveHashes calls) (commonHashes calls) [] (registeredCurves calls) := by
  have hflags : hashFlags cap.hashAlgs = commonHashes calls := by
    rw [h.hashAlgs]
    exact hashFlags_of_inRange fun i hi => h.inRange 0 i (mem_effectiveHashes.mpr (Or.inr hi))
  have hmap : cap.widen.curves.map CurveAlgCompat.pair =
      (cap.curves.map CurveAlgCompat.pair).map fun x => (x.1, x.2 ∪ commonHashes calls) := by
    rw [EcdsaCap.widen, hflags, List.map_map, List.map_map]
    rfl
  rw [hmap, h.curves, firstMarked_map fun algs => algs ∪ commonHashes calls, Finset.empty_union]
  rfl

/-- What was added to the curves is not added again. -/
theorem EcdsaCap.widen_again (cap : EcdsaCap) (component : Int) :
    (EcdsaCap.widen { cap.widen with component }).curves = cap.widen.curves := by
  rw [EcdsaCap.widen, EcdsaCap.widen, List.map_map]
  refine List.map_congr_left fun c _ => ?_
  dsimp only [Function.comp_apply]
  rw [Finset.union_assoc, Finset.union_self]

/-- When the object is built, and what it lists. -/
theorem ecdsaSigObject_eq_ok {obj obj' : JsonObject} {entry : CapsEntry} {mode : String}
    {cap : EcdsaCap} (h : ecdsaSigObject obj entry mode cap = .ok obj') :
    cap.curves ≠ [] ∧ ∃ objects, ecdsaCapabilities entry.cipher [] cap.curves = .ok objects ∧
      jsonObjectGetArray (some obj') "capabilities" = some objects := by
  simp only [ecdsaSigObject, bind_eq_ok, stopIf_eq_ok, exists_const, pure_eq_ok] at h
  obtain ⟨hne, objects, hobjects, rfl⟩ := h
  refine ⟨hne, objects, hobjects, ?_⟩
  rw [jsonObjectGetArray, jsonObjectGetValue_set]
  rfl

/-- It is built when there are curves and their groups can be. -/
theorem ecdsaSigObject_of_ok (obj : JsonObject) {entry : CapsEntry} (mode : String)
    {cap : EcdsaCap} (hne : cap.curves ≠ []) {objects : List Json}
    (h : ecdsaCapabilities entry.cipher [] cap.curves = .ok objects) :
    ∃ obj', ecdsaSigObject obj entry mode cap = .ok obj' ∧
      jsonObjectGetArray (some obj') "capabilities" = some objects := by
  refine ⟨_, by rw [ecdsaSigObject, stopIf_neg hne, ok_bind, h, ok_bind]; rfl, ?_⟩
  rw [jsonObjectGetArray, jsonObjectGetValue_set]
  rfl

/-- What is built for a signature algorithm, and what stays in the capability. -/
theorem buildEcdsaRegisterCap_sig {entry : CapsEntry}
    (hsig : entry.cipher = .ecdsaSiggen ∨ entry.cipher = .ecdsaSigver) (capObj : JsonObject)
    (cap : EcdsaCap) :
    ∃ obj mode, buildEcdsaRegisterCap capObj entry cap =
      (ecdsaSigObject obj entry mode cap.widen, cap.widen) := by
  obtain ⟨obj, hobj⟩ : ∃ obj, setNameAndRevision capObj (some "ECDSA") entry.cipher = .ok obj := by
    rcases hsig with h | h <;> rw [h] <;> exact ⟨_, rfl⟩
  rcases hsig with h | h
  · refine ⟨obj, "sigGen", ?_⟩
    rw [buildEcdsaRegisterCap, hobj]
    dsimp only
    rw [h]
  · refine ⟨obj, "sigVer", ?_⟩
    rw [buildEcdsaRegisterCap, hobj]
    dsimp only
    rw [h]

/-- A group's object tells its curves. -/
theorem ecdsaGroupObject_names {names names' algs algs' : List String}
    (h : Json.obj (ecdsaGroupObject names algs) = .obj (ecdsaGroupObject names' algs')) :
    names = names' := by
  have hmembers := (List.cons.inj (Json.obj.inj h)).1
  have harrays := Json.arr.inj (Prod.mk.inj hmembers).2
  exact List.map_injective_iff.mpr (fun _ _ heq => Json.str.inj heq) harrays

/-- The names in the objects say which curves are in a group. -/
theorem groups_eq_of_emits {cipher : Cipher} {hashes : Int → Finset Int}
    {scanned : List (List Int × Finset Int)} {objects : List Json} {groups : List (List Int)}
    (hemits : List.Forall₂ (EmitsGroup cipher) scanned objects)
    (hlists : List.Forall₂ (ListsCurves cipher hashes) groups objects) :
    groups = scanned.map Prod.fst := by
  induction hemits generalizing groups with
  | nil =>
    cases hlists
    rfl
  | cons hemit _ ih =>
    cases hlists with
    | cons hlist hrest =>
      obtain ⟨names, algs, rfl, hnames, -⟩ := hemit
      obtain ⟨names', algs', hobject, hnames', -⟩ := hlist
      rw [← ecdsaGroupObject_names hobject] at hnames'
      rw [List.map_cons, ih hrest, curves_eq_of_names hnames' hnames]

/-- When all groups are pure, the objects list the curves with their hashes. -/
theorem lists_of_emits {cipher : Cipher} {hashes : Int → Finset Int}
    {scanned : List (List Int × Finset Int)} {objects : List Json}
    (hemits : List.Forall₂ (EmitsGroup cipher) scanned objects)
    (hpure : PureGroups hashes scanned) :
    List.Forall₂ (ListsCurves cipher hashes) (scanned.map Prod.fst) objects := by
  induction hemits with
  | nil => exact .nil
  | @cons g object _ _ hemit _ ih =>
    refine .cons ?_ (ih fun g hg => hpure g (List.mem_cons_of_mem _ hg))
    obtain ⟨names, algs, rfl, hnames, halgs⟩ := hemit
    obtain ⟨hnodup, hmem⟩ := hashAlgNames_eq_ok halgs
    refine ⟨names, algs, rfl, hnames, hnodup, fun c hc name => ?_⟩
    rw [hpure g List.mem_cons_self c hc]
    exact hmem name

/-- The scan groups the curves, unless a curve without hashes of its own comes too early. -/
theorem groupsCurves_iff {cipher : Cipher} {calls : List EcdsaCall} {cap : EcdsaCap}
    (hstores : EcdsaStores calls cap) {objects : List Json}
    (h : ecdsaCapabilities cipher [] cap.widen.curves = .ok objects) :
    GroupsCurves cipher calls objects ↔
      ¬MixesGroups (effectiveHashes calls) (commonHashes calls) [] (registeredCurves calls) := by
  have hemits := ecdsaCapabilities_eq_ok h
  rw [hstores.widen] at hemits
  rw [← isGrouping_scanGroups_iff]
  constructor
  · rintro ⟨groups, hgrouping, hlists⟩
    rwa [← groups_eq_of_emits hemits hlists]
  · intro hgrouping
    have hpure := (pure_scanGroups_iff fun _ h => h).mpr (isGrouping_scanGroups_iff.mp hgrouping)
    exact ⟨_, hgrouping, lists_of_emits hemits hpure⟩

/-- A capability that was built from builds the same objects again. -/
theorem builds_again {cipher : Cipher} (hsig : cipher = .ecdsaSiggen ∨ cipher = .ecdsaSigver)
    {cap : EcdsaCap} {objects : List Json} (hne : cap.widen.curves ≠ [])
    (h : ecdsaCapabilities cipher [] cap.widen.curves = .ok objects) :
    Builds cipher cap.widen objects := by
  rintro capObj entry component rfl
  obtain ⟨obj, mode, hbuild⟩ :=
    buildEcdsaRegisterCap_sig hsig capObj { cap.widen with component }
  rw [hbuild]
  rw [← cap.widen_again component] at hne h
  exact ecdsaSigObject_of_ok obj mode hne h

/-- What is built holds objects that group the curves by their hashes, and holds them again when
it is built again, unless a curve with the common hashes alone is registered before every curve
that has the hashes of a curve that is registered more than once. -/
theorem ecdsa_grouping_iff {cipher : Cipher} (hsig : cipher = .ecdsaSiggen ∨ cipher = .ecdsaSigver)
    {calls : List EcdsaCall} {cap : EcdsaCap} {vsCount : Int}
    (hsets : EcdsaSets cipher calls (cap, vsCount)) {capObj obj : JsonObject} {entry : CapsEntry}
    (hentry : entry.cipher = cipher) {cap' : EcdsaCap}
    (hbuild : buildEcdsaRegisterCap capObj entry cap = (.ok obj, cap')) :
    (∃ objects, jsonObjectGetArray (some obj) "capabilities" = some objects ∧
      GroupsCurves cipher calls objects ∧ Builds cipher cap' objects) ↔
    ¬MixesGroups (effectiveHashes calls) (commonHashes calls) [] (registeredCurves calls) := by
  subst hentry
  obtain ⟨base, mode, hobject⟩ := buildEcdsaRegisterCap_sig hsig capObj cap
  rw [hobject, Prod.mk.injEq] at hbuild
  obtain ⟨hobj, rfl⟩ := hbuild
  obtain ⟨hne, objects, hscan, hget⟩ := ecdsaSigObject_eq_ok hobj
  have hgroups := groupsCurves_iff (hsets.stores hsig) hscan
  rw [← hgroups]
  constructor
  · rintro ⟨objects', hget', hgroups', -⟩
    rwa [Option.some.inj (hget.symm.trans hget')]
  · intro hgroups'
    exact ⟨objects, hget, hgroups', builds_again hsig hne hscan⟩

/-! ### Two runs -/

/-- The entry of the generation of signatures. -/
def ecdsaSiggenEntry : CapsEntry := .new .ecdsaSiggen .ecdsaSiggen ⟨0⟩

/-- Two curves, one of them with a hash of its own. -/
def twoCurveCalls : List EcdsaCall :=
  [.setParm .curve 3, .setParm .curve 4, .setCurveHashAlg 4 4, .setParm .hashAlg 8]

/-- A curve is registered again. -/
def repeatedCurveCalls : List EcdsaCall := twoCurveCalls ++ [.setParm .curve 4]

def twoCurveCap : EcdsaCap where
  curves := [{ curve := 3 }, { curve := 4, algs := {4} }]
  hashAlgs := {8}

def repeatedCurveCap : EcdsaCap :=
  { twoCurveCap with curves := twoCurveCap.curves ++ [{ curve := 4 }] }

/-- The calls of the example all succeed. -/
theorem twoCurveCap_sets : EcdsaSets .ecdsaSiggen twoCurveCalls (twoCurveCap, 1) :=
  .call (.call (.call (.call (.registered 1) (.setParm .curve 3) rfl) (.setParm .curve 4) rfl)
    (.setCurveHashAlg 4 4) rfl) (.setParm .hashAlg 8) rfl

/-- The statement at two curves. -/
theorem ecdsa_grouping_two : ∃ obj objects,
    (buildEcdsaRegisterCap [] ecdsaSiggenEntry twoCurveCap).1 = .ok obj ∧
    jsonObjectGetArray (some obj) "capabilities" = some objects ∧
    GroupsCurves .ecdsaSiggen twoCurveCalls objects := by
  have hbuild : ∃ obj, buildEcdsaRegisterCap [] ecdsaSiggenEntry twoCurveCap =
      (.ok obj, twoCurveCap.widen) := ⟨_, rfl⟩
  obtain ⟨obj, hobj⟩ := hbuild
  have hdistinct : (registeredCurves twoCurveCalls).Nodup := by decide
  obtain ⟨objects, hget, hgroups, -⟩ :=
    (ecdsa_grouping_iff (Or.inl rfl) twoCurveCap_sets rfl hobj).mpr (not_mixesGroups hdistinct)
  exact ⟨obj, objects, by rw [hobj], hget, hgroups⟩

/-- The second node of P-384 has the hashes of P-256, and P-384 gets into its object. -/
theorem repeated_curve_misplaced :
    EcdsaSets .ecdsaSiggen repeatedCurveCalls (repeatedCurveCap, 1) ∧ ∃ obj,
      (buildEcdsaRegisterCap [] ecdsaSiggenEntry repeatedCurveCap).1 = .ok obj ∧
      jsonObjectGetArray (some obj) "capabilities" =
        some [.obj (ecdsaGroupObject ["P-256", "P-384"] ["SHA2-384"])] ∧
      ¬GroupsCurves .ecdsaSiggen repeatedCurveCalls
        [.obj (ecdsaGroupObject ["P-256", "P-384"] ["SHA2-384"])] := by
  have hsets : EcdsaSets .ecdsaSiggen repeatedCurveCalls (repeatedCurveCap, 1) :=
    .call twoCurveCap_sets (.setParm .curve 4) rfl
  refine ⟨hsets, _, rfl, rfl, ?_⟩
  rw [groupsCurves_iff (hsets.stores (Or.inl rfl)) rfl, not_not]
  exact ⟨[], 3, [4, 4], 4, rfl, List.not_mem_nil, by decide, List.not_mem_nil, by decide,
    by decide, fun e he => nomatch he⟩

end LibAmvp
