import LibAmvp.Kat.KasEcc
import LibAmvp.Kat.KasFfc
import LibAmvp.Kat.KasIfc
import LibAmvp.Kat.ResponseEncoding

/-!
# Verdicts of validation tests

In a validation test of a key agreement the handler compares what the module has computed with
what the server has sent, and the answer is whether the test has passed.  KAS-IFC adds up the
outcomes of {lit}`memcmp`, of which only the zero is known to mean something, and a comparison
that {lit}`memcmp_s` refuses leaves the outcome of the one before in its place.

Main results:

- Theorems {lit}`kasIfcSscValOutputTc_eq_verdict`, {lit}`kasEccOutputHash_eq_verdict` and
  {lit}`kasFfcOutputHash_eq_verdict`: the answers of the handlers.
- Theorems {lit}`kasIfc_exact_iff`, {lit}`kasEcc_exact_iff` and {lit}`hash_exact_iff`: which
  verdicts are exact, put together in {lit}`verdicts_exact_iff`.
-/

namespace LibAmvp

open Guard

/-! ## KAS-IFC -/

/-- A value that was decoded. -/
def Bytes.Given (b : Bytes) : Prop := ∃ size data, b = .holding size data

/-- A computed value is the given one, in length and content. -/
def Bytes.Same (computed given : Bytes) : Prop :=
  computed.data ≠ none ∧ computed.len = given.len ∧ computed.read = given.read

instance (computed given : Bytes) : Decidable (computed.Same given) :=
  inferInstanceAs (Decidable (_ ∧ _ ∧ _))

section KasIfc

variable (cmp : List UInt8 → List UInt8 → Int32)

/-- {lit}`memcmp_s` on two values of the same length, with the variable for its outcome. -/
def memcmpS (dest src : Bytes) (diff : Int32) : Except Trap Int32 :=
  if dest.data = none ∨ src.data = none ∨ src.len = 0 then .ok diff
  else if src.len < 0 then .error .outOfBounds
  else .ok (cmp dest.read src.read)

/-- A comparison in {lit}`amvp_kas_ifc_ssc_val_output_tc`: the sum of the outcomes and the variable
for the last one. -/
def kasIfcCompare (computed provided : Bytes) (rv diff : Int32) : Except Trap (Int32 × Int32) :=
  if computed.len = provided.len then do
    let diff ← memcmpS cmp computed provided diff
    pure (rv + diff, diff)
  else pure (rv + 1, diff)

/-- The comparison of the combined secrets, which are put together when their lengths add up. -/
def kasIfcCompareMerged (stc : KasIfcTc) (rv diff : Int32) : Except Trap (Int32 × Int32) := do
  stopIf (¬IsInt stc.mergedZ.len) .overflow
  stopIf (stc.mergedZ.len = stc.providedKas2Z.len ∧ (stc.iutPtZ.len < 0 ∨ stc.serverPtZ.len < 0))
    .outOfBounds
  kasIfcCompare cmp stc.mergedZ stc.providedKas2Z rv diff

/-- The first comparison: for an initiator the encapsulated secret, for a responder of KAS1 the
decapsulated one. -/
def kasIfcCompareFirst (stc : KasIfcTc) : Except Trap (Int32 × Int32) :=
  if stc.kasRole = some .initiator then kasIfcCompare cmp stc.iutCtZ stc.providedCtZ 0 1
  else if stc.scheme ≠ .kas2 then kasIfcCompare cmp stc.serverPtZ stc.providedPtZ 0 1
  else pure (0, 1)

/-- {lit}`amvp_kas_ifc_ssc_val_output_tc`: has the test passed? -/
def kasIfcVerdict (stc : KasIfcTc) : Except Trap Bool := do
  let out ← kasIfcCompareFirst cmp stc
  let out ← if stc.scheme = .kas2 then kasIfcCompareMerged cmp stc out.1 out.2 else pure out
  pure (decide (out.1 = 0))

/-- The value under test of the first comparison, and the given one. -/
def KasIfcTc.firstPair (stc : KasIfcTc) : Bytes × Bytes :=
  if stc.kasRole = some .initiator then (stc.iutCtZ, stc.providedCtZ)
  else (stc.serverPtZ, stc.providedPtZ)

/-- There is a first comparison: not for a responder of KAS2. -/
def KasIfcTc.ComparesFirst (stc : KasIfcTc) : Prop :=
  stc.kasRole = some .initiator ∨ stc.scheme ≠ .kas2

instance (stc : KasIfcTc) : Decidable stc.ComparesFirst := inferInstanceAs (Decidable (_ ∨ _))

/-- All values under test are the given ones. -/
def KasIfcTc.AllSame (stc : KasIfcTc) : Prop :=
  (stc.ComparesFirst → stc.firstPair.1.Same stc.firstPair.2) ∧
    (stc.scheme = .kas2 → stc.mergedZ.Same stc.providedKas2Z)

instance (stc : KasIfcTc) : Decidable stc.AllSame := inferInstanceAs (Decidable (_ ∧ _))

/-- The values that the server has to send were sent. -/
def KasIfcTc.Given (stc : KasIfcTc) : Prop :=
  (stc.ComparesFirst → stc.firstPair.2.Given) ∧ (stc.scheme = .kas2 → stc.providedKas2Z.Given)

/-- Two values that {lit}`memcmp` compares. -/
def Bytes.Called (computed given : Bytes) : Prop :=
  computed.data ≠ none ∧ computed.len = given.len ∧ given.len ≠ 0

instance (computed given : Bytes) : Decidable (computed.Called given) :=
  inferInstanceAs (Decidable (_ ∧ _ ∧ _))

/-- Two empty values. -/
def Bytes.BothEmpty (computed given : Bytes) : Prop :=
  computed.data ≠ none ∧ computed.len = 0 ∧ given.len = 0

instance (computed given : Bytes) : Decidable (computed.BothEmpty given) :=
  inferInstanceAs (Decidable (_ ∧ _ ∧ _))

/-- The two comparisons of an initiator of KAS2 do not deceive each other.  Two differences do
not cancel, and neither does a difference with the one that stands for other lengths; a
difference is not doubled to zero; and empty values, which are not compared, do not hide that
all values are the same. -/
def KasIfcTc.NoCancelling (stc : KasIfcTc) : Prop :=
  let first := cmp stc.iutCtZ.read stc.providedCtZ.read
  let second := cmp stc.mergedZ.read stc.providedKas2Z.read
  if stc.iutCtZ.Called stc.providedCtZ then
    if stc.mergedZ.Called stc.providedKas2Z then first + second = 0 → first = 0
    else if stc.mergedZ.len = stc.providedKas2Z.len then first + first = 0 → first = 0
    else first ≠ -1
  else if stc.mergedZ.Called stc.providedKas2Z then
    second ≠ -1 ∧ (stc.iutCtZ.BothEmpty stc.providedCtZ → second ≠ 0)
  else ¬(stc.iutCtZ.BothEmpty stc.providedCtZ ∧ stc.mergedZ.len = stc.providedKas2Z.len)

/-- The combined secrets are compared without a trap. -/
def KasIfcTc.Merges (stc : KasIfcTc) : Prop :=
  IsInt stc.mergedZ.len ∧
    (stc.mergedZ.len = stc.providedKas2Z.len → 0 ≤ stc.iutPtZ.len ∧ 0 ≤ stc.serverPtZ.len)

/-- The condition on a test for an exact verdict. -/
def KasIfcTc.Exact (stc : KasIfcTc) : Prop :=
  if stc.scheme = .kas2 then
    stc.Merges ∧
      if stc.kasRole = some .initiator then stc.NoCancelling cmp
      else ¬stc.mergedZ.BothEmpty stc.providedKas2Z
  else ¬stc.firstPair.1.BothEmpty stc.firstPair.2

/-! ### One comparison -/

variable {cmp}

/-- A decoded value is read as the bytes it was decoded to. -/
theorem Bytes.Given.read_eq {given : Bytes} (h : given.Given) :
    ∃ data, given.data ≠ none ∧ given.len = data.length ∧ given.read = data := by
  obtain ⟨size, data, rfl⟩ := h
  exact ⟨data, by simp [Bytes.holding], rfl, by simp [Bytes.holding, Bytes.read, Buffer.read]⟩

/-- As many bytes are read as the length says. -/
theorem Bytes.length_read (b : Bytes) : b.read.length = b.len.toNat := by
  unfold Bytes.read
  exact Buffer.length_read _ _

/-- Values that are the same are compared, or they are empty. -/
theorem Bytes.same_iff {computed given : Bytes} (hzero : ∀ a b : List UInt8,
    a.length = b.length → (cmp a b = 0 ↔ a = b)) :
    computed.Same given ↔
      computed.Called given ∧ cmp computed.read given.read = 0 ∨ computed.BothEmpty given := by
  have hlength (hlen : computed.len = given.len) : computed.read.length = given.read.length := by
    rw [Bytes.length_read, Bytes.length_read, hlen]
  unfold Bytes.Same Bytes.Called Bytes.BothEmpty
  by_cases hempty : given.len = 0
  · have hread (hlen : computed.len = 0) : computed.read = given.read := by
      have hnil : computed.read = [] := List.length_eq_zero_iff.mp (by
        rw [Bytes.length_read, hlen]
        rfl)
      have hnil' : given.read = [] := List.length_eq_zero_iff.mp (by
        rw [Bytes.length_read, hempty]
        rfl)
      rw [hnil, hnil']
    constructor
    · rintro ⟨hdata, hlen, -⟩
      exact Or.inr ⟨hdata, by rw [hlen, hempty], hempty⟩
    · rintro (⟨⟨-, -, hpos⟩, -⟩ | ⟨hdata, hlen, -⟩)
      · exact absurd hempty hpos
      · exact ⟨hdata, by rw [hlen, hempty], hread hlen⟩
  · constructor
    · rintro ⟨hdata, hlen, hread⟩
      exact Or.inl ⟨⟨hdata, hlen, hempty⟩, (hzero _ _ (hlength hlen)).mpr hread⟩
    · rintro (⟨⟨hdata, hlen, -⟩, hcmp⟩ | ⟨-, -, hzero⟩)
      · exact ⟨hdata, hlen, (hzero _ _ (hlength hlen)).mp hcmp⟩
      · exact absurd hzero hempty

/-- What a comparison with a given value adds to the sum, and what it leaves in the variable. -/
theorem kasIfcCompare_given {computed given : Bytes} (hgiven : given.Given) (rv diff : Int32) :
    kasIfcCompare cmp computed given rv diff = .ok
      (if computed.Called given then
        (rv + cmp computed.read given.read, cmp computed.read given.read)
      else if computed.len = given.len then (rv + diff, diff)
      else (rv + 1, diff)) := by
  obtain ⟨data, hdata, hlen, -⟩ := hgiven.read_eq
  by_cases hcalled : computed.Called given
  · obtain ⟨hsome, hsame, hpos⟩ := id hcalled
    have hcompare : ¬(computed.data = none ∨ given.data = none ∨ given.len = 0) := by tauto
    simp only [kasIfcCompare, memcmpS, if_pos hsame, if_neg hcompare, if_pos hcalled,
      if_neg (show ¬given.len < 0 by omega), ok_bind]
    rfl
  · rw [if_neg hcalled]
    by_cases hsame : computed.len = given.len
    · have hrefused : computed.data = none ∨ given.data = none ∨ given.len = 0 := by
        unfold Bytes.Called at hcalled
        tauto
      simp only [kasIfcCompare, memcmpS, if_pos hsame, if_pos hrefused, ok_bind]
      rfl
    · simp only [kasIfcCompare, if_neg hsame]
      rfl

/-- Values that are not compared count as different in the first comparison. -/
theorem kasIfcCompare_first {computed given : Bytes} (hgiven : given.Given) :
    kasIfcCompare cmp computed given 0 1 = .ok
      (if computed.Called given then
        (cmp computed.read given.read, cmp computed.read given.read)
      else (1, 1)) := by
  rw [kasIfcCompare_given hgiven, Int32.zero_add, Int32.zero_add, ite_self]

/-! ### The sum -/

/-- The outcomes of the first comparison, when there is one. -/
def KasIfcTc.first (cmp : List UInt8 → List UInt8 → Int32) (stc : KasIfcTc) : Int32 :=
  if stc.firstPair.1.Called stc.firstPair.2 then cmp stc.firstPair.1.read stc.firstPair.2.read
  else 1

/-- Where the first comparison is made, its outcome is both the result and the difference. -/
theorem kasIfcCompareFirst_pair {stc : KasIfcTc} (hgiven : stc.Given) (h : stc.ComparesFirst) :
    kasIfcCompareFirst cmp stc = .ok (stc.first cmp, stc.first cmp) := by
  have hpair : kasIfcCompareFirst cmp stc =
      kasIfcCompare cmp stc.firstPair.1 stc.firstPair.2 0 1 := by
    unfold kasIfcCompareFirst KasIfcTc.firstPair
    by_cases hrole : stc.kasRole = some .initiator
    · rw [if_pos hrole, if_pos hrole]
    · rw [if_neg hrole, if_neg hrole, if_pos (h.resolve_left hrole)]
  rw [hpair, kasIfcCompare_first (hgiven.1 h), KasIfcTc.first]
  split <;> rfl

/-- Where it is not made, the difference keeps its first value of one. -/
theorem kasIfcCompareFirst_none {stc : KasIfcTc} (h : ¬stc.ComparesFirst) :
    kasIfcCompareFirst cmp stc = .ok (0, 1) := by
  rw [KasIfcTc.ComparesFirst, not_or] at h
  rw [kasIfcCompareFirst, if_neg h.1, if_neg h.2]
  rfl

/-- The second comparison, when the merged value has its length. -/
theorem kasIfcCompareMerged_of_merges {stc : KasIfcTc} (h : stc.Merges) (rv diff : Int32) :
    kasIfcCompareMerged cmp stc rv diff =
      kasIfcCompare cmp stc.mergedZ stc.providedKas2Z rv diff := by
  have hlens : ¬(stc.mergedZ.len = stc.providedKas2Z.len ∧
      (stc.iutPtZ.len < 0 ∨ stc.serverPtZ.len < 0)) := by
    rintro ⟨hsame, hneg⟩
    obtain ⟨h₁, h₂⟩ := h.2 hsame
    omega
  rw [kasIfcCompareMerged, stopIf_neg (not_not.mpr h.1), ok_bind, stopIf_neg hlens, ok_bind]

/-- It has an outcome only then. -/
theorem merges_of_kasIfcCompareMerged {stc : KasIfcTc} {rv diff : Int32} {out : Int32 × Int32}
    (h : kasIfcCompareMerged cmp stc rv diff = .ok out) : stc.Merges := by
  simp only [kasIfcCompareMerged, bind_eq_ok, stopIf_eq_ok, exists_const, not_not] at h
  obtain ⟨hint, hlens, -⟩ := h
  refine ⟨hint, fun hsame => ?_⟩
  have := fun hneg => hlens ⟨hsame, hneg⟩
  omega

/-- With one secret the verdict is that of the first comparison. -/
theorem kasIfcVerdict_single {stc : KasIfcTc} (hscheme : stc.scheme ≠ .kas2)
    (hgiven : stc.Given) : kasIfcVerdict cmp stc = .ok (decide (stc.first cmp = 0)) := by
  rw [kasIfcVerdict, kasIfcCompareFirst_pair hgiven (Or.inr hscheme), ok_bind, if_neg hscheme]
  rfl

/-- With two secrets it is that of the sum of both comparisons. -/
theorem kasIfcVerdict_kas2 {stc : KasIfcTc} (hscheme : stc.scheme = .kas2) (hgiven : stc.Given)
    (hmerges : stc.Merges) {rv diff : Int32}
    (hfirst : kasIfcCompareFirst cmp stc = .ok (rv, diff)) :
    kasIfcVerdict cmp stc = .ok (decide
      ((if stc.mergedZ.Called stc.providedKas2Z then
        rv + cmp stc.mergedZ.read stc.providedKas2Z.read
      else if stc.mergedZ.len = stc.providedKas2Z.len then rv + diff
      else rv + 1) = 0)) := by
  rw [kasIfcVerdict, hfirst, ok_bind, if_pos hscheme, kasIfcCompareMerged_of_merges hmerges,
    kasIfcCompare_given (hgiven.2 hscheme), ok_bind]
  split
  · rfl
  · split <;> rfl

/-! ### Exact verdicts -/

/-- Values that are compared are not both empty. -/
theorem Bytes.Called.not_bothEmpty {computed given : Bytes} (h : computed.Called given) :
    ¬computed.BothEmpty given := fun hempty => h.2.2 hempty.2.2

/-- Where a merged value is not compared, it and the given one have one length exactly when both are
empty. -/
theorem bothEmpty_merged {stc : KasIfcTc} (h : ¬stc.mergedZ.Called stc.providedKas2Z) :
    stc.mergedZ.BothEmpty stc.providedKas2Z ↔ stc.mergedZ.len = stc.providedKas2Z.len := by
  have hdata : stc.mergedZ.data ≠ none := by simp [KasIfcTc.mergedZ]
  unfold Bytes.Called at h
  unfold Bytes.BothEmpty
  constructor
  · rintro ⟨-, hlen, hlen'⟩
    rw [hlen, hlen']
  · intro hlen
    have hzero : stc.providedKas2Z.len = 0 := by tauto
    exact ⟨hdata, hlen.trans hzero, hzero⟩

/-- The first comparison is zero exactly when the values are the same and not both empty. -/
theorem first_eq_zero_iff {stc : KasIfcTc} (hzero : ∀ a b : List UInt8,
    a.length = b.length → (cmp a b = 0 ↔ a = b)) :
    stc.first cmp = 0 ↔
      stc.firstPair.1.Same stc.firstPair.2 ∧ ¬stc.firstPair.1.BothEmpty stc.firstPair.2 := by
  rw [Bytes.same_iff hzero, KasIfcTc.first]
  by_cases hcalled : stc.firstPair.1.Called stc.firstPair.2
  · simp [hcalled, hcalled.not_bothEmpty]
  · simp [hcalled]

/-- The merged values are the same exactly when the comparison says so or both are empty. -/
theorem same_merged_iff {stc : KasIfcTc} (hzero : ∀ a b : List UInt8,
    a.length = b.length → (cmp a b = 0 ↔ a = b)) :
    stc.mergedZ.Same stc.providedKas2Z ↔
      if stc.mergedZ.Called stc.providedKas2Z then
        cmp stc.mergedZ.read stc.providedKas2Z.read = 0
      else stc.mergedZ.len = stc.providedKas2Z.len := by
  rw [Bytes.same_iff hzero]
  by_cases hcalled : stc.mergedZ.Called stc.providedKas2Z
  · simp [hcalled, hcalled.not_bothEmpty]
  · simp [hcalled, bothEmpty_merged hcalled]

/-- Two verdicts are the same exactly when their conditions are equivalent. -/
theorem ok_decide_iff {p q : Prop} [Decidable p] [Decidable q] :
    (Except.ok (decide p) : Except Trap Bool) = .ok (decide q) ↔ (p ↔ q) := by
  rw [Except.ok.injEq, decide_eq_decide]

/-- The verdict of a responder of KAS2. -/
theorem kasIfc_responder_iff {stc : KasIfcTc} (hzero : ∀ a b : List UInt8,
    a.length = b.length → (cmp a b = 0 ↔ a = b)) (hrole : stc.kasRole ≠ some .initiator)
    (hscheme : stc.scheme = .kas2) (hgiven : stc.Given) (hmerges : stc.Merges) :
    kasIfcVerdict cmp stc = .ok (decide stc.AllSame) ↔
      ¬stc.mergedZ.BothEmpty stc.providedKas2Z := by
  have hcompares : ¬stc.ComparesFirst := not_or.mpr ⟨hrole, not_not.mpr hscheme⟩
  rw [kasIfcVerdict_kas2 hscheme hgiven hmerges (kasIfcCompareFirst_none hcompares),
    ok_decide_iff]
  have hall : stc.AllSame ↔ stc.mergedZ.Same stc.providedKas2Z := by
    simp only [KasIfcTc.AllSame, hcompares, hscheme, true_implies, false_implies, true_and]
  rw [hall, Bytes.same_iff hzero, Int32.zero_add, Int32.zero_add, ite_self]
  by_cases hcalled : stc.mergedZ.Called stc.providedKas2Z
  · simp [hcalled, hcalled.not_bothEmpty]
  · simp [hcalled]

/-- The verdict of an initiator of KAS2. -/
theorem kasIfc_initiator_iff {stc : KasIfcTc} (hzero : ∀ a b : List UInt8,
    a.length = b.length → (cmp a b = 0 ↔ a = b)) (hrole : stc.kasRole = some .initiator)
    (hscheme : stc.scheme = .kas2) (hgiven : stc.Given) (hmerges : stc.Merges) :
    kasIfcVerdict cmp stc = .ok (decide stc.AllSame) ↔ stc.NoCancelling cmp := by
  have hcompares : stc.ComparesFirst := Or.inl hrole
  have hpair : stc.firstPair = (stc.iutCtZ, stc.providedCtZ) := if_pos hrole
  rw [kasIfcVerdict_kas2 hscheme hgiven hmerges (kasIfcCompareFirst_pair hgiven hcompares),
    ok_decide_iff]
  have hall : stc.AllSame ↔ stc.iutCtZ.Same stc.providedCtZ ∧
      stc.mergedZ.Same stc.providedKas2Z := by
    simp only [KasIfcTc.AllSame, hcompares, hscheme, hpair, true_implies]
  rw [hall, same_merged_iff hzero, Bytes.same_iff hzero, KasIfcTc.first, hpair,
    KasIfcTc.NoCancelling]
  generalize cmp stc.iutCtZ.read stc.providedCtZ.read = first
  generalize cmp stc.mergedZ.read stc.providedKas2Z.read = second
  have hminus (c : Int32) : c + 1 = 0 ↔ c = -1 := by grind
  have hone (c : Int32) : 1 + c = 0 ↔ c = -1 := by grind
  by_cases hfirst : stc.iutCtZ.Called stc.providedCtZ
  · simp only [hfirst, hfirst.not_bothEmpty, if_true, true_and, or_false]
    by_cases hsecond : stc.mergedZ.Called stc.providedKas2Z
    · simp only [hsecond, if_true]
      grind
    · by_cases hlen : stc.mergedZ.len = stc.providedKas2Z.len
      · simp only [hsecond, hlen, if_true, if_false]
        grind
      · simp only [hsecond, hlen, if_false, hminus, and_false, iff_false, ne_eq]
  · simp only [hfirst, if_false, false_and, false_or]
    by_cases hsecond : stc.mergedZ.Called stc.providedKas2Z
    · simp only [hsecond, if_true, hone]
      by_cases hcancel : second = -1
      · simp [hcancel]
      · simp [hcancel]
    · have hsum : (1 : Int32) + 1 ≠ 0 := by decide
      simp only [hsecond, if_false, ite_self, hsum, false_iff]

/-- Whether a verdict is exact. -/
theorem kasIfc_exact_iff {stc : KasIfcTc} (hzero : ∀ a b : List UInt8,
    a.length = b.length → (cmp a b = 0 ↔ a = b)) (hgiven : stc.Given) :
    kasIfcVerdict cmp stc = .ok (decide stc.AllSame) ↔ stc.Exact cmp := by
  unfold KasIfcTc.Exact
  by_cases hscheme : stc.scheme = .kas2
  · rw [if_pos hscheme]
    by_cases hmerges : stc.Merges
    · rw [and_iff_right hmerges]
      by_cases hrole : stc.kasRole = some .initiator
      · rw [if_pos hrole, kasIfc_initiator_iff hzero hrole hscheme hgiven hmerges]
      · rw [if_neg hrole, kasIfc_responder_iff hzero hrole hscheme hgiven hmerges]
    · refine iff_of_false (fun hverdict => hmerges ?_) (fun h => hmerges h.1)
      simp only [kasIfcVerdict, if_pos hscheme, bind_eq_ok] at hverdict
      obtain ⟨out, -, merged, hmerged, -⟩ := hverdict
      exact merges_of_kasIfcCompareMerged hmerged
  · have hcompares : stc.ComparesFirst := Or.inr hscheme
    rw [if_neg hscheme, kasIfcVerdict_single hscheme hgiven, ok_decide_iff, first_eq_zero_iff hzero]
    have hall : stc.AllSame ↔ stc.firstPair.1.Same stc.firstPair.2 := by
      simp only [KasIfcTc.AllSame, hcompares, hscheme, true_implies, false_implies, and_true]
    rw [hall, Bytes.same_iff hzero]
    tauto

/-- What was decoded is a given value. -/
theorem decodeBytes_given {src : Option String} {size : Nat} {b : Bytes}
    (h : decodeBytes src size = .ok b) : b.Given := by
  rw [decodeBytes, map_eq_ok] at h
  obtain ⟨data, -, rfl⟩ := h
  exact ⟨size, data, rfl⟩

/-- The values to compare with are decoded before the module is called. -/
theorem kasIfc_load_given {hashed : Bool} {vars vars' : KasIfcVars} {group : KasIfcGroup}
    {testobj : Option JsonObject} {draft : Draft KasIfcTc}
    (h : (kasIfcLoader hashed).load vars group testobj = .ok (draft, vars'))
    (hval : group.settings.testType = .val) : draft.question.Given := by
  obtain ⟨hread, stc, hinit, rfl⟩ := kasIfc_load_ok.mp h
  have hkas2 := (readKasIfcTest_ok hread).kas2Z.1
  simp only [kasIfcSscInitTc, bind_eq_ok, pure_eq_ok] at hinit
  obtain ⟨_, -, _, -, _, -, _, -, _, -, _, -, _, -, _, -, _, -, kas2Z, hkas2Z, _, -, _, -, _, -, _,
    -, ctZ, hctZ, ptZ, hptZ, rfl⟩ := hinit
  refine ⟨fun hcompares => ?_, fun hscheme => ?_⟩
  · unfold KasIfcTc.firstPair
    by_cases hrole : group.settings.role = some .initiator
    · rw [if_pos hrole]
      rw [onlyIf_pos ⟨hval, hrole⟩] at hctZ
      exact decodeBytes_given hctZ
    · rw [if_neg hrole]
      rw [onlyIf_pos ⟨hval, hrole⟩] at hptZ
      exact decodeBytes_given hptZ
  · have hsome : vars'.kas2Z ≠ none := by
      rw [← Option.isSome_iff_ne_none, hkas2, KasIfcSettings.readsKas2Z,
        decide_eq_true ⟨hscheme, hval⟩, Bool.true_or]
    rw [decodeOptional, onlyIf_pos hsome] at hkas2Z
    exact decodeBytes_given hkas2Z

end KasIfc

/-! ### The answer -/

/-- The outcome of {lit}`memcmp` as it is stored. -/
def memcmp32 (a b : List UInt8) : Int32 := .ofInt (memcmp a b)

/-- The difference of two texts is that of two bytes. -/
theorem memcmp_bound : ∀ a b : List UInt8, -255 ≤ memcmp a b ∧ memcmp a b ≤ 255
  | [], [] | [], _ :: _ | _ :: _, [] => by simp [memcmp]
  | a :: as, b :: bs => by
    have ih := memcmp_bound as bs
    have ha := a.toNat_lt
    have hb := b.toNat_lt
    unfold memcmp
    split
    · exact ih
    · omega

/-- A comparison stays within those bounds. -/
theorem compareBytes_bound (dest src : Bytes) {diff : Int} (h : -255 ≤ diff ∧ diff ≤ 255) :
    -255 ≤ compareBytes dest src diff ∧ compareBytes dest src diff ≤ 255 := by
  unfold compareBytes
  split
  · exact h
  · exact memcmp_bound _ _

/-- What a comparison that does not trap adds to the sum, and what it leaves in the variable. -/
theorem kasIfcCompare_memcmp {computed provided : Bytes} {rv diff : Int} {out : Int32 × Int32}
    (h : kasIfcCompare memcmp32 computed provided (.ofInt rv) (.ofInt diff) = .ok out) :
    out = if computed.len = provided.len then
        (.ofInt (rv + compareBytes computed provided diff),
          .ofInt (compareBytes computed provided diff))
      else (.ofInt (rv + 1), .ofInt diff) := by
  unfold kasIfcCompare at h
  split at h
  · rw [if_pos ‹_›]
    unfold memcmpS at h
    unfold compareBytes
    split at h
    · rw [if_pos ‹_›, Int32.ofInt_add]
      exact (Except.ok.inj h).symm
    · rw [if_neg ‹_›, Int32.ofInt_add]
      split at h
      · cases h
      · exact (Except.ok.inj h).symm
  · rw [if_neg ‹_›, Int32.ofInt_add]
    exact (Except.ok.inj h).symm

/-- The outcome of the first comparison. -/
def KasIfcTc.firstDiff (stc : KasIfcTc) : Int :=
  if stc.ComparesFirst ∧ stc.firstPair.1.len = stc.firstPair.2.len then
    compareBytes stc.firstPair.1 stc.firstPair.2 1
  else 1

/-- The first comparison with the differences of bytes. -/
theorem kasIfcCompareFirst_memcmp {stc : KasIfcTc} {out : Int32 × Int32}
    (h : kasIfcCompareFirst memcmp32 stc = .ok out) :
    out = (.ofInt (if stc.ComparesFirst then stc.firstDiff else 0), .ofInt stc.firstDiff) := by
  unfold KasIfcTc.firstDiff
  by_cases hcompares : stc.ComparesFirst
  · have hpair : kasIfcCompareFirst memcmp32 stc =
        kasIfcCompare memcmp32 stc.firstPair.1 stc.firstPair.2 (.ofInt 0) (.ofInt 1) := by
      unfold kasIfcCompareFirst KasIfcTc.firstPair
      by_cases hrole : stc.kasRole = some .initiator
      · rw [if_pos hrole, if_pos hrole]
        rfl
      · rw [if_neg hrole, if_neg hrole, if_pos (hcompares.resolve_left hrole)]
        rfl
    rw [hpair] at h
    rw [kasIfcCompare_memcmp h, if_pos hcompares]
    simp only [hcompares, true_and, Int.zero_add]
    split <;> rfl
  · rw [kasIfcCompareFirst_none hcompares] at h
    simp only [hcompares, false_and, if_false]
    exact (Except.ok.inj h).symm

/-- A number within the range of {lit}`int` is zero there exactly when it is zero. -/
theorem ofInt32_eq_zero {n : Int} (hlo : -2 ^ 31 ≤ n) (hhi : n < 2 ^ 31) :
    Int32.ofInt n = 0 ↔ n = 0 := by
  rw [← Int32.toInt_inj, Int32.toInt_ofInt_of_le hlo hhi]
  rfl

/-- The outcome of the second comparison, which counts for scheme KAS2. -/
def KasIfcTc.secondDiff (stc : KasIfcTc) : Int :=
  if stc.mergedZ.len = stc.providedKas2Z.len then
    compareBytes stc.mergedZ stc.providedKas2Z stc.firstDiff
  else 1

/-- The truth value of the answer as a number. -/
theorem ite_eq_toInt (p : Prop) [Decidable p] : (if p then 1 else 0) = (decide p).toInt := by
  by_cases hp : p <;> simp [hp]

/-- The answer says whether the sum of the two differences is zero. -/
theorem kasIfcSscValOutputTc_eq_sum (stc : KasIfcTc) (tcRsp : JsonObject) :
    kasIfcSscValOutputTc stc tcRsp = jsonObjectSetBoolean tcRsp "testPassed"
      (decide ((if stc.ComparesFirst then stc.firstDiff else 0) +
        (if stc.scheme = .kas2 then stc.secondDiff else 0) = 0)).toInt := by
  have hdiff : stc.firstDiff =
      if (stc.kasRole = some .initiator ∨ stc.scheme ≠ .kas2) ∧
          (if stc.kasRole = some .initiator then stc.iutCtZ else stc.serverPtZ).len =
            (if stc.kasRole = some .initiator then stc.providedCtZ else stc.providedPtZ).len then
        compareBytes (if stc.kasRole = some .initiator then stc.iutCtZ else stc.serverPtZ)
          (if stc.kasRole = some .initiator then stc.providedCtZ else stc.providedPtZ) 1
      else 1 := by
    unfold KasIfcTc.firstDiff KasIfcTc.firstPair KasIfcTc.ComparesFirst
    by_cases hrole : stc.kasRole = some .initiator
    · simp only [hrole, if_true]
    · simp only [hrole, if_false]
  have hrv : (if stc.scheme = .kas2 then
        (if stc.ComparesFirst then stc.firstDiff else 0) + stc.secondDiff
      else if stc.ComparesFirst then stc.firstDiff else 0) =
      (if stc.ComparesFirst then stc.firstDiff else 0) +
        (if stc.scheme = .kas2 then stc.secondDiff else 0) := by
    by_cases hscheme : stc.scheme = .kas2
    · rw [if_pos hscheme, if_pos hscheme]
    · rw [if_neg hscheme, if_neg hscheme, Int.add_zero]
  rw [← hrv]
  unfold kasIfcSscValOutputTc KasIfcTc.secondDiff
  simp only [← hdiff]
  exact congrArg _ (ite_eq_toInt _)

/-- The answer that the handler gives is its verdict. -/
theorem kasIfcSscValOutputTc_eq_verdict {stc : KasIfcTc} {passed : Bool}
    (h : kasIfcVerdict memcmp32 stc = .ok passed) (tcRsp : JsonObject) :
    kasIfcSscValOutputTc stc tcRsp = jsonObjectSetBoolean tcRsp "testPassed" passed.toInt := by
  have hbound : -255 ≤ stc.firstDiff ∧ stc.firstDiff ≤ 255 := by
    unfold KasIfcTc.firstDiff
    split
    · exact compareBytes_bound _ _ (by decide)
    · decide
  have hbound' : -255 ≤ stc.secondDiff ∧ stc.secondDiff ≤ 255 := by
    unfold KasIfcTc.secondDiff
    split
    · exact compareBytes_bound _ _ hbound
    · decide
  simp only [kasIfcVerdict, bind_eq_ok] at h
  obtain ⟨out, hfirst, h⟩ := h
  rw [kasIfcCompareFirst_memcmp hfirst] at h
  have hpassed : decide (Int32.ofInt ((if stc.ComparesFirst then stc.firstDiff else 0) +
      (if stc.scheme = .kas2 then stc.secondDiff else 0)) = 0) = passed := by
    by_cases hscheme : stc.scheme = .kas2
    · rw [if_pos hscheme] at h
      obtain ⟨out', hsecond, hpassed⟩ := bind_eq_ok.mp h
      rw [kasIfcCompareMerged_of_merges (merges_of_kasIfcCompareMerged hsecond)] at hsecond
      have hout := kasIfcCompare_memcmp hsecond
      rw [← Except.ok.inj hpassed]
      simp only [hscheme, if_true, hout, KasIfcTc.secondDiff]
      by_cases hlen : stc.mergedZ.len = stc.providedKas2Z.len
      · simp only [hlen, if_true]
      · simp only [hlen, if_false]
    · rw [if_neg hscheme] at h
      rw [if_neg hscheme, Int.add_zero]
      exact Except.ok.inj h
  rw [kasIfcSscValOutputTc_eq_sum, ← hpassed]
  refine congrArg (fun b : Bool => jsonObjectSetBoolean tcRsp "testPassed" b.toInt)
    (decide_eq_decide.mpr (ofInt32_eq_zero ?_ ?_)).symm
  · split <;> split <;> omega
  · split <;> split <;> omega

/-! ## KAS-ECC and KAS-FFC -/

/-- As many bytes at a pointer as another value has. -/
def Bytes.upTo (b : Bytes) (len : Int) : List UInt8 := (b.data.getD ⟨0, []⟩).read len.toNat

/-- The condition on a computed value for an exact comparison with the given one. -/
def HashExact (computed given : Bytes) : Prop :=
  ¬computed.BothEmpty given ∧ (computed.data ≠ none → given.len ≠ 0 →
    computed.upTo given.len = given.read → computed.len = given.len)

/-- The value that is computed in a test of KAS-ECC. -/
def KasEccTc.computed (stc : KasEccTc) : Bytes := { data := some stc.chash, len := stc.chashlen }

/-- The value that is given in a test of KAS-ECC. -/
def KasEccTc.given (stc : KasEccTc) : Bytes := { data := some stc.z, len := stc.zlen }

/-- The condition on a test of KAS-ECC for an exact verdict.  The length is also that of a
conversion, which is refused or runs over its string when it is too large. -/
def KasEccTc.Exact (stc : KasEccTc) : Prop :=
  (Int32.ofInt stc.chashlen * 2).toInt ≤ kasEccStrMax →
    stc.chashlen ≤ kasEccByteMax ∧ HashExact stc.computed stc.given

section Hash

variable (cmp : List UInt8 → List UInt8 → Int32)

/-- {lit}`memcmp_s` with the bound of a buffer finds no difference: it compares as many bytes as
are given. -/
def hashVerdict (byteMax : Nat) (computed given : Bytes) : Bool :=
  decide ((if computed.data = none ∨ given.data = none ∨ given.len ≤ 0 ∨ byteMax < given.len then 1
    else cmp (computed.upTo given.len) given.read) = 0)

/-- The two functions {lit}`amvp_kas_ecc_output_comp_tc` and
{lit}`amvp_kas_ecc_output_ssc_tc` on a validation test: has it passed?  An error gives no
verdict. -/
def kasEccVerdict (stc : KasEccTc) : Except Trap Bool :=
  if (Int32.ofInt stc.chashlen * 2).toInt > kasEccStrMax then .ok false
  else if stc.chashlen > kasEccByteMax then .error .outOfBounds
  else .ok (hashVerdict cmp kasEccByteMax stc.computed stc.given)

/-- The two functions {lit}`amvp_kas_ffc_output_comp_tc` and
{lit}`amvp_kas_ffc_output_ssc_tc` on a validation test. -/
def kasFfcVerdict (stc : KasFfcTc) : Bool := hashVerdict cmp kasFfcByteMax stc.chash stc.z

variable {cmp}

/-- A verdict through a hash is exact under its condition. -/
theorem hash_exact_iff {byteMax : Nat} {computed given : Bytes} (hzero : ∀ a b : List UInt8,
    a.length = b.length → (cmp a b = 0 ↔ a = b)) (hgiven : given.Given)
    (hfits : given.len ≤ byteMax) :
    hashVerdict cmp byteMax computed given = decide (computed.Same given) ↔
      HashExact computed given := by
  obtain ⟨data, hdata, hlen, hread⟩ := hgiven.read_eq
  unfold hashVerdict HashExact
  rw [decide_eq_decide]
  by_cases hempty : given.len = 0
  · have hsame : computed.Same given ↔ computed.BothEmpty given := by
      rw [Bytes.same_iff hzero]
      exact or_iff_right fun h => h.1.2.2 hempty
    rw [if_pos (by omega), hsame]
    simp [hempty]
  · have hboth : ¬computed.BothEmpty given := fun h => hempty h.2.2
    by_cases hnone : computed.data = none
    · have hsame : ¬computed.Same given := fun h => h.1 hnone
      simp [hnone, hsame, hboth]
    · have hlength : (computed.upTo given.len).length = given.read.length := by
        rw [Bytes.length_read, Bytes.upTo, Buffer.length_read]
      have hcompared : ¬(computed.data = none ∨ given.data = none ∨ given.len ≤ 0 ∨
          byteMax < given.len) := by
        rintro (h | h | h | h)
        · exact hnone h
        · exact hdata h
        · omega
        · omega
      rw [if_neg hcompared, hzero _ _ hlength]
      have hsame : computed.Same given ↔
          computed.len = given.len ∧ computed.upTo given.len = given.read := by
        unfold Bytes.Same
        rw [and_iff_right hnone]
        refine and_congr_right fun h => ?_
        rw [Bytes.upTo, ← h, Bytes.read]
      rw [hsame]
      tauto

/-- Whether a verdict is exact. -/
theorem kasEcc_exact_iff {stc : KasEccTc} (hzero : ∀ a b : List UInt8,
    a.length = b.length → (cmp a b = 0 ↔ a = b)) (hgiven : stc.given.Given)
    (hfits : stc.zlen ≤ kasEccByteMax) :
    kasEccVerdict cmp stc = .ok (decide (stc.computed.Same stc.given)) ↔ stc.Exact := by
  unfold kasEccVerdict KasEccTc.Exact
  by_cases hrefused : (Int32.ofInt stc.chashlen * 2).toInt > kasEccStrMax
  · rw [if_pos hrefused]
    refine iff_of_true ?_ fun h => absurd h (by omega)
    have hdiffers : ¬stc.computed.Same stc.given := by
      rintro ⟨-, hlen, -⟩
      obtain ⟨data, -, hnonneg, -⟩ := hgiven.read_eq
      replace hlen : stc.chashlen = stc.zlen := hlen
      replace hnonneg : stc.zlen = data.length := hnonneg
      have hmax : kasEccByteMax = 512 := rfl
      have hint : (Int32.ofInt stc.chashlen).toInt = stc.chashlen :=
        Int32.toInt_ofInt_of_le (by omega) (by omega)
      have hstr : (kasEccStrMax : Int) = 1024 := rfl
      rw [toInt32_mul_two (by omega) (by omega), hint] at hrefused
      omega
    rw [decide_eq_false hdiffers]
  · rw [if_neg hrefused]
    by_cases hlong : stc.chashlen > kasEccByteMax
    · rw [if_pos hlong]
      refine iff_of_false (fun h => nomatch h) fun h => ?_
      exact absurd (h (by omega)).1 (by omega)
    · rw [if_neg hlong, Except.ok.injEq, hash_exact_iff hzero hgiven hfits]
      exact ⟨fun h _ => ⟨by omega, h⟩, fun h => (h (by omega)).2⟩

end Hash

/-- The verdict in an answer. -/
def testPassed (answer : Except AmvpResult JsonObject) : Bool :=
  match answer with
  | .ok rsp => jsonObjectGetBoolean (some rsp) "testPassed" = 1
  | .error _ => false

/-- The verdict that was set is the one that is read. -/
@[simp]
theorem testPassed_set (tcRsp : JsonObject) (passed : Bool) :
    testPassed (.ok (jsonObjectSetBoolean tcRsp "testPassed" passed.toInt)) = passed := by
  cases passed <;>
    simp [testPassed, jsonObjectSetBoolean, jsonObjectGetBoolean, jsonValueGetBoolean]

/-- A verdict through a hash compares the values within the length of the buffer. -/
theorem hashVerdict_eq {cmp : List UInt8 → List UInt8 → Int32}
    (hzero : ∀ a b : List UInt8, a.length = b.length → (cmp a b = 0 ↔ a = b)) {byteMax : Nat}
    {computed given : Bytes} :
    hashVerdict cmp byteMax computed given = decide (computed.data ≠ none ∧ given.data ≠ none ∧
      0 < given.len ∧ given.len ≤ byteMax ∧ computed.upTo given.len = given.read) := by
  have hlength : (computed.upTo given.len).length = given.read.length := by
    rw [Bytes.length_read, Bytes.upTo, Buffer.length_read]
  unfold hashVerdict
  rw [decide_eq_decide]
  by_cases hrefused : computed.data = none ∨ given.data = none ∨ given.len ≤ 0 ∨ byteMax < given.len
  · rw [if_pos hrefused]
    refine iff_of_false (by decide) fun h => ?_
    rcases hrefused with hnone | hnone | hlen | hlen
    · exact h.1 hnone
    · exact h.2.1 hnone
    · omega
    · omega
  · rw [if_neg hrefused, hzero _ _ hlength]
    simp only [not_or, not_le, not_lt] at hrefused
    tauto

/-- The answer that the handlers of KAS-ECC give is their verdict, for lengths that can be
doubled. -/
theorem kasEccOutputHash_eq_verdict {cmp : List UInt8 → List UInt8 → Int32}
    (hzero : ∀ a b : List UInt8, a.length = b.length → (cmp a b = 0 ↔ a = b))
    (hashName : String) {stc : KasEccTc} (hval : stc.testType = .val)
    (hlo : -2 ^ 30 ≤ stc.chashlen) (hhi : stc.chashlen < 2 ^ 30) (tcRsp : JsonObject) :
    kasEccVerdict cmp stc = .ok (testPassed (kasEccOutputHash hashName stc tcRsp)) := by
  have hint : (Int32.ofInt stc.chashlen).toInt = stc.chashlen :=
    Int32.toInt_ofInt_of_le (by omega) (by omega)
  have hdouble : (Int32.ofInt stc.chashlen * 2).toInt = 2 * stc.chashlen := by
    rw [toInt32_mul_two (by rwa [hint]) (by rwa [hint]), hint]
  have hmax : (kasEccByteMax : Int) = 512 := rfl
  have hstr : (kasEccStrMax : Int) = 1024 := rfl
  unfold kasEccVerdict kasEccOutputHash
  rw [hval, hdouble]
  simp only [binToHexstr, need_some, ok_bind]
  by_cases hlong : 2 * stc.chashlen > kasEccStrMax
  · rw [if_pos hlong, stopIf, if_pos hlong]
    rfl
  · rw [if_neg hlong, if_neg (by omega), stopIf_neg hlong, hashVerdict_eq hzero]
    simp only [ok_bind, pure_bind]
    have hsame : decide (stc.computed.data ≠ none ∧ stc.given.data ≠ none ∧ 0 < stc.given.len ∧
        stc.given.len ≤ kasEccByteMax ∧ stc.computed.upTo stc.given.len = stc.given.read) =
        stc.sameHash := by
      simp [KasEccTc.sameHash, KasEccTc.computed, KasEccTc.given, Bytes.upTo, Bytes.read]
    rw [hsame]
    exact congrArg Except.ok (testPassed_set tcRsp stc.sameHash).symm

/-- The answer that the handlers of KAS-FFC give is their verdict. -/
theorem kasFfcOutputHash_eq_verdict {cmp : List UInt8 → List UInt8 → Int32}
    (hzero : ∀ a b : List UInt8, a.length = b.length → (cmp a b = 0 ↔ a = b))
    (hashName : String) {stc : KasFfcTc} (hval : stc.testType = .val) (tcRsp : JsonObject) :
    kasFfcVerdict cmp stc = testPassed (kasFfcOutputHash hashName stc tcRsp) := by
  have hsame : kasFfcVerdict cmp stc = stc.sameHash := hashVerdict_eq hzero
  rw [hsame, kasFfcOutputHash, hval]
  exact (testPassed_set tcRsp stc.sameHash).symm

/-- What the module is compared with is what the server has sent. -/
theorem kasEccInitCompTc_z {cipher : Cipher} {curve : EcCurve} {hash : Option HashAlg}
    {psx psy : String} {val : KasEccVal} {stc : KasEccTc}
    (h : kasEccInitCompTc cipher .val curve hash psx psy val = .ok stc) :
    ∃ data, hexstrToBin val.z kasEccByteMax = .ok data ∧ stc.z = ⟨kasEccByteMax, data⟩ ∧
      stc.zlen = data.length := by
  simp only [kasEccInitCompTc, bind_eq_ok, pure_eq_ok, onlyIf_pos] at h
  obtain ⟨psxData, -, psyData, -, -, -, pixData, -, piyData, -, dData, -, zData, hz, rfl⟩ := h
  exact ⟨zData, hz, rfl, rfl⟩

/-! ## All handlers -/

/-- A validation test, with what the module has left in the test case structure. -/
inductive ValTest where
  | kasIfc (stc : KasIfcTc)
  | kasEcc (stc : KasEccTc)
  | kasFfc (stc : KasFfcTc)

namespace ValTest

/-- The values to compare with are those of a test that was read: the module does not touch
them. -/
def Sent : ValTest → Prop
  | kasIfc stc =>
    ∃ hashed vars group testobj draft vars',
      (kasIfcLoader hashed).load vars group testobj = .ok (draft, vars') ∧
      group.settings.testType = .val ∧ stc.scheme = draft.question.scheme ∧
      stc.kasRole = draft.question.kasRole ∧ stc.providedCtZ = draft.question.providedCtZ ∧
      stc.providedPtZ = draft.question.providedPtZ ∧
      stc.providedKas2Z = draft.question.providedKas2Z
  | kasEcc stc =>
    ∃ cipher curve hash psx psy val tc,
      kasEccInitCompTc cipher .val curve hash psx psy val = .ok tc ∧ stc.z = tc.z ∧
        stc.zlen = tc.zlen
  | kasFfc stc =>
    ∃ hashAlg dgm test tc, kasFfcInitCompTc hashAlg dgm test .val = .ok tc ∧ stc.z = tc.z

/-- The verdict of the handler. -/
def verdict (cmp : List UInt8 → List UInt8 → Int32) : ValTest → Except Trap Bool
  | kasIfc stc => kasIfcVerdict cmp stc
  | kasEcc stc => kasEccVerdict cmp stc
  | kasFfc stc => .ok (kasFfcVerdict cmp stc)

/-- Every value under test is the given one. -/
def AllSame : ValTest → Prop
  | kasIfc stc => stc.AllSame
  | kasEcc stc => stc.computed.Same stc.given
  | kasFfc stc => stc.chash.Same stc.z

instance : DecidablePred AllSame
  | kasIfc stc => inferInstanceAs (Decidable stc.AllSame)
  | kasEcc stc => inferInstanceAs (Decidable (stc.computed.Same stc.given))
  | kasFfc stc => inferInstanceAs (Decidable (stc.chash.Same stc.z))

/-- The condition for an exact verdict. -/
def Exact (cmp : List UInt8 → List UInt8 → Int32) : ValTest → Prop
  | kasIfc stc => stc.Exact cmp
  | kasEcc stc => stc.Exact
  | kasFfc stc => HashExact stc.chash stc.z

end ValTest

/-- The comparison of texts of one length is zero exactly when they are the same. -/
theorem memcmp_eq_zero : ∀ {a b : List UInt8}, a.length = b.length → (memcmp a b = 0 ↔ a = b)
  | [], [], _ => by simp [memcmp]
  | a :: as, b :: bs, h => by
    have ih := memcmp_eq_zero (Nat.succ.inj h)
    unfold memcmp
    split
    · rw [ih, List.cons.injEq, and_iff_right ‹_›]
    · have hne : a.toNat ≠ b.toNat := fun h => ‹¬a = b› (UInt8.toNat_inj.mp h)
      rw [List.cons.injEq]
      refine iff_of_false (by omega) fun h => ‹¬a = b› h.1

/-- The outcome is zero for equal bytes only. -/
theorem memcmp32_eq_zero (a b : List UInt8) (h : a.length = b.length) :
    memcmp32 a b = 0 ↔ a = b := by
  have hbound := memcmp_bound a b
  rw [memcmp32, ofInt32_eq_zero (by omega) (by omega), memcmp_eq_zero h]

/-- Which verdicts of validation tests are exact. -/
theorem verdicts_exact_iff {cmp : List UInt8 → List UInt8 → Int32}
    (hzero : ∀ a b : List UInt8, a.length = b.length → (cmp a b = 0 ↔ a = b)) {test : ValTest}
    (hsent : test.Sent) :
    test.verdict cmp = .ok (decide test.AllSame) ↔ test.Exact cmp := by
  cases test with
  | kasIfc stc =>
    obtain ⟨hashed, vars, group, testobj, draft, vars', hload, hval, hscheme, hrole, hctZ, hptZ,
      hkas2Z⟩ := hsent
    have hgiven : stc.Given := by
      have h := kasIfc_load_given hload hval
      unfold KasIfcTc.Given KasIfcTc.ComparesFirst KasIfcTc.firstPair at h ⊢
      simp only [apply_ite Prod.snd] at h ⊢
      rwa [hscheme, hrole, hctZ, hptZ, hkas2Z]
    exact kasIfc_exact_iff hzero hgiven
  | kasEcc stc =>
    obtain ⟨cipher, curve, hash, psx, psy, val, tc, hinit, hz, hzlen⟩ := hsent
    obtain ⟨data, hdata, hgiven⟩ := kasEccInitCompTc_z hinit
    have hfits : data.length ≤ kasEccByteMax := hexstrToBin_length_le hdata (by decide)
    have hlen : stc.zlen = data.length := by rw [hzlen, hgiven.2]
    refine kasEcc_exact_iff hzero ⟨kasEccByteMax, data, ?_⟩ (by omega)
    rw [KasEccTc.given, hz, hzlen, hgiven.1, hgiven.2]
    rfl
  | kasFfc stc =>
    obtain ⟨hashAlg, dgm, test, tc, hinit, hz⟩ := hsent
    obtain ⟨-, data, hdata, htc⟩ := kasFfcInitCompTc_z hinit
    have hfits : data.length ≤ kasFfcByteMax := hexstrToBin_length_le hdata (by decide)
    rw [htc] at hz
    have hlen : stc.z.len = data.length := by rw [hz, Bytes.holding]
    exact (Except.ok.injEq _ _).to_iff.trans
      (hash_exact_iff hzero ⟨kasFfcByteMax, data, hz⟩ (by omega))

/-- A test of KAS-FFC whose secret is one byte, and a module that finds it. -/
def ffcTest (chashlen : Int) : KasFfcTc where
  testType := .val
  md := none
  dgm := .ffdhe2048
  eps := .holding kasFfcByteMax [1]
  z := .holding kasFfcByteMax [10]
  chash := { data := some ⟨kasFfcByteMax, [10]⟩, len := chashlen }

/-- The test of the example is one that a server can send. -/
theorem ffcTest_sent (chashlen : Int) : (ValTest.kasFfc (ffcTest chashlen)).Sent := by
  refine ⟨none, .ffdhe2048,
    { eps := some "01", epri := some "01", epui := some "01", z := some "0A" }, _, rfl, ?_⟩
  exact congrArg (Bytes.holding kasFfcByteMax) (by decide : [10] = hexPairs (cBytes "0A"))

/-- The statement at a test of KAS-FFC. -/
theorem verdicts_exact_ffc :
    (ValTest.kasFfc (ffcTest 1)).verdict memcmp32 =
        .ok (decide (ValTest.kasFfc (ffcTest 1)).AllSame) ↔
      (ValTest.kasFfc (ffcTest 1)).Exact memcmp32 :=
  verdicts_exact_iff memcmp32_eq_zero (ffcTest_sent 1)

/-- A result that is longer than the given one passes. -/
theorem longer_result_passes :
    (ValTest.kasFfc (ffcTest 2)).Sent ∧
      (∀ a b : List UInt8, a.length = b.length → (memcmp32 a b = 0 ↔ a = b)) ∧
      (ValTest.kasFfc (ffcTest 2)).verdict memcmp32 = .ok true ∧
      ¬(ValTest.kasFfc (ffcTest 2)).AllSame :=
  ⟨ffcTest_sent 2, memcmp32_eq_zero, by decide +kernel, by decide +kernel⟩

end LibAmvp
