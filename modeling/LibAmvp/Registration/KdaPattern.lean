import Mathlib.Data.List.TakeWhile
import LibAmvp.Kat.Answers
import LibAmvp.Kat.Kda
import LibAmvp.Lib.Pieces

/-!
# Patterns of fixed info

The registration of a KDA algorithm says how the fixed info is put together: its parts, by name
and joined by two bars, with the text of a literal in brackets.  The server sends such a pattern
back with its tests, and the handler takes it apart.

Main results:

- Theorem {lit}`accepted_literal`: what the setters leave of the literal.
- Theorem {lit}`kdaPattern_roundTrip_iff`: which registered patterns are read back as they were
  registered.
-/

namespace LibAmvp

open Guard

/-! ## Setters -/

/-- The KDA algorithms. -/
inductive KdaVariant where
  | onestep | twostep | hkdf
deriving DecidableEq

/-- The fields of a KDA capability that the pattern is made of. -/
structure KdaPatternCap where
  patterns : List Int := []
  literal : Option String := none

/-- The candidates that the setter of an algorithm admits. -/
def KdaVariant.admits : KdaVariant → Int → Bool
  | onestep, value | twostep, value => isPattern value
  | hkdf, value => value ≠ kdaPatternT && isPattern value

/-- The case {lit}`AMVP_KDA_PATTERN` of the setters of an algorithm. -/
def kdaStorePattern (k : KdaVariant) (value : Int) (text : String) : Setter KdaPatternCap :=
  kdaSetPattern (fun literal cap => { cap with literal })
    (fun cap => { cap with patterns := cap.patterns ++ [value] }) (k.admits value) value text

/-- What {lit}`amvp_cap_kda_set_parm` and {lit}`amvp_cap_kda_twostep_set_parm` do for
{lit}`AMVP_KDA_PATTERN`. -/
def kdaSetParmPattern (k : KdaVariant) (value : Int) (string : Option String) :
    Setter KdaPatternCap :=
  if value = kdaPatternLiteral ∧ string = none then refuse .invalidArg
  else kdaStorePattern k value (string.getD "")

section Zoom

variable {σ υ : Type} (get : σ → υ) (set : υ → σ → σ) {setLiteral : Option String → σ → σ}
  {addPattern : σ → σ} {partLiteral : Option String → υ → υ} {addPart : υ → υ}

/-- The setter works on the part of a capability that holds the pattern. -/
theorem kdaSetPattern_zoom (hget : ∀ u s, get (set u s) = u)
    (hset : ∀ u u' s, set u (set u' s) = set u s) (hself : ∀ s, set (get s) s = s)
    (hliteral : ∀ literal s, setLiteral literal s = set (partLiteral literal (get s)) s)
    (hadd : ∀ s, addPattern s = set (addPart (get s)) s) (admitted : Bool) (value : Int)
    (text : String) : kdaSetPattern setLiteral addPattern admitted value text =
      Op.zoom get set (kdaSetPattern partLiteral addPart admitted value text) := by
  funext s
  unfold kdaSetPattern
  by_cases hvalue : value = kdaPatternLiteral
  · rw [if_pos hvalue, if_pos hvalue]
    simp only [Op.zoom, Op.changed, Op.ite_apply, refuse, accept]
    split_ifs <;> simp [Op.answer, Op.store, Except.map, hliteral, hadd, hget, hset]
  · rw [if_neg hvalue, if_neg hvalue]
    simp only [Op.zoom, Op.ite_apply, refuse, accept]
    split_ifs <;> simp [Op.answer, Op.store, Except.map, hadd, hself]

end Zoom

def KdaOnestepCap.pattern (cap : KdaOnestepCap) : KdaPatternCap :=
  ⟨cap.patterns, cap.literalPatternCandidate⟩

def KdaOnestepCap.withPattern (part : KdaPatternCap) (cap : KdaOnestepCap) : KdaOnestepCap :=
  { cap with patterns := part.patterns, literalPatternCandidate := part.literal }

def KdaTwostepCap.pattern (cap : KdaTwostepCap) : KdaPatternCap :=
  ⟨cap.patterns, cap.literalPatternCandidate⟩

def KdaTwostepCap.withPattern (part : KdaPatternCap) (cap : KdaTwostepCap) : KdaTwostepCap :=
  { cap with patterns := part.patterns, literalPatternCandidate := part.literal }

def KdaHkdfCap.pattern (cap : KdaHkdfCap) : KdaPatternCap :=
  ⟨cap.patterns, cap.literalPatternCandidate⟩

def KdaHkdfCap.withPattern (part : KdaPatternCap) (cap : KdaHkdfCap) : KdaHkdfCap :=
  { cap with patterns := part.patterns, literalPatternCandidate := part.literal }

/-- A pattern of the one-step KDA is stored as for every variant. -/
theorem kdaOnestepSetParm_pattern (value : Int) (text : String) :
    kdaOnestepSetParm .pattern value text =
      Op.zoom KdaOnestepCap.pattern KdaOnestepCap.withPattern
        (kdaStorePattern .onestep value text) := by
  rw [kdaOnestepSetParm, kdaStorePattern]
  apply kdaSetPattern_zoom <;> intros <;> rfl

/-- So is one of HKDF. -/
theorem kdaHkdfSetParm_pattern (value : Int) (text : String) :
    kdaHkdfSetParm .pattern value text =
      Op.zoom KdaHkdfCap.pattern KdaHkdfCap.withPattern (kdaStorePattern .hkdf value text) := by
  rw [kdaHkdfSetParm, kdaStorePattern]
  apply kdaSetPattern_zoom <;> intros <;> rfl

/-- And one of the two-step KDA. -/
theorem kdaTwostepSetParm_pattern (value : Int) (kdfMode : Kdf108Mode) (string : Option String) :
    kdaTwostepSetParm .pattern value kdfMode string =
      Op.zoom KdaTwostepCap.pattern KdaTwostepCap.withPattern
        (kdaSetParmPattern .twostep value string) := by
  by_cases hmissing : value = kdaPatternLiteral ∧ string = none
  · rw [kdaSetParmPattern, if_pos hmissing, kdaTwostepSetParm, if_neg (by decide),
      if_pos ⟨rfl, hmissing⟩]
    rfl
  · rw [kdaSetParmPattern, if_neg hmissing, kdaTwostepSetParm, if_neg (by decide),
      if_neg fun h => hmissing h.2, kdaTwostepStoreParm, kdaStorePattern]
    apply kdaSetPattern_zoom <;> intros <;> rfl

/-- A candidate and the text of a literal that are registered. -/
structure PatternCall where
  value : Int
  string : Option String

/-- The calls of the setter were all accepted. -/
inductive AcceptedPattern (k : KdaVariant) : KdaPatternCap → Prop
  | start : AcceptedPattern k {}
  | call {cap cap' : KdaPatternCap} (c : PatternCall) (before : AcceptedPattern k cap)
      (accepted : kdaSetParmPattern k c.value c.string cap = .ok (.success, cap')) :
      AcceptedPattern k cap'

/-! ## The registration -/

/-- The part of the three functions {lit}`amvp_build_kda_onestep_register_cap`,
{lit}`amvp_build_kda_twostep_register_cap` and {lit}`amvp_build_kda_hkdf_register_cap` that appends
a candidate. -/
def patternToken (literal : Option String) (param : Int) : Except AmvpResult (List Char) :=
  if param = 1 then do
    let text ← need literal .missingArg
    pure ("literal".toList ++ '[' :: text.toList.take kdaPatternLiteralStrLenMax ++ [']'])
  else if param = 2 then pure "uPartyInfo".toList
  else if param = 3 then pure "vPartyInfo".toList
  else if param = 4 then pure "context".toList
  else if param = 5 then pure "algorithmId".toList
  else if param = 6 then pure "label".toList
  else if param = 7 then pure "l".toList
  else if param = 8 then pure "t".toList
  else .error .invalidArg

/-- The part of the three functions that assembles {lit}`fixedInfoPattern`.  {lit}`strncat_s` does
not look at the size of the string. -/
def kdaPatternStr (cap : KdaPatternCap) : Except AmvpResult String := do
  stopIf (cap.patterns = []) .unsupportedOp
  let tokens ← cap.patterns.mapM (patternToken cap.literal)
  pure (String.ofList (['|', '|'].intercalate tokens))

/-- The value of a candidate in the enumeration. -/
def KdaPatternCandidate.toInt : KdaPatternCandidate → Int
  | literal => 1
  | uPartyInfo => 2
  | vPartyInfo => 3
  | context => 4
  | algorithmId => 5
  | label => 6
  | l => 7
  | t => 8

/-! ## The round trip -/

/-- Where {lit}`cmp_pattern_str` stores the literals: {lit}`address` is that of the buffer. -/
def KdaVariant.storeLiterals (k : KdaVariant) (literals : List (List UInt8)) (address : Nat)
    (stc : KdaTc) : KdaTc :=
  match k with
  | twostep => stc.withMisplacedLiteral literals address
  | onestep | hkdf => stc.withLiteral literals

/-- The pattern that is registered fits into its string and is read back, and the bytes of the
literal are in the test case structure. -/
def RoundTrips (k : KdaVariant) (cap : KdaPatternCap) : Prop :=
  ∃ str candidates literals, kdaPatternStr cap = .ok str ∧
    (cBytes str).length ≤ kdaPatternRegStrLenMax ∧
    readInfoPattern str = some (candidates, literals) ∧
    candidates.map KdaPatternCandidate.toInt = cap.patterns ∧
    (1 ∈ cap.patterns → ∃ text data, cap.literal = some text ∧
      hexstrToBin (some text) kdaPatternLiteralStrMax = .ok data ∧
      ∀ address stc, (k.storeLiterals literals address stc).literalLen = data.length ∧
        (k.storeLiterals literals address stc).literalCandidate =
          some ⟨kdaPatternLiteralByteMax, data⟩)

/-- A literal that is read back: one to eight bytes in hexadecimal digits, without the characters
that end a literal. -/
def LiteralReads (text : String) : Prop :=
  '|' ∉ text.toList ∧ ']' ∉ text.toList ∧ text ≠ "" ∧ (cBytes text).length % 2 = 0 ∧
    (cBytes text).length ≤ 2 * kdaPatternLiteralByteMax

instance (text : String) : Decidable (LiteralReads text) :=
  inferInstanceAs (Decidable (_ ∧ _ ∧ _ ∧ _ ∧ _))

/-- A registered pattern that is read back. -/
def PatternReads (k : KdaVariant) (cap : KdaPatternCap) : Prop :=
  cap.patterns.length ≤ 9 ∧
    (1 ∈ cap.patterns → k ≠ .twostep ∧ ∃ text, cap.literal = some text ∧ LiteralReads text)

/-! ### What the setters leave -/

/-- An accepted call appends its candidate, and a literal keeps its text, which is short enough. -/
theorem kdaSetParmPattern_accepted {k : KdaVariant} {c : PatternCall} {cap cap' : KdaPatternCap}
    (h : kdaSetParmPattern k c.value c.string cap = .ok (.success, cap')) :
    isPattern c.value = true ∧ cap'.patterns = cap.patterns ++ [c.value] ∧
      if c.value = 1 then ∃ text, cap'.literal = some text ∧ text.length < 64
      else cap'.literal = cap.literal := by
  have hadmits (hadm : k.admits c.value = true) : isPattern c.value = true := by
    cases k with
    | onestep => exact hadm
    | twostep => exact hadm
    | hkdf => exact (Bool.and_eq_true_iff.mp hadm).2
  have hrefuse (rv : AmvpResult) (hrv : rv ≠ .success) (s : KdaPatternCap) :
      (refuse rv : Setter KdaPatternCap) s ≠ .ok (.success, cap') := by
    intro h
    exact hrv (congrArg Prod.fst (Except.ok.inj h))
  unfold kdaSetParmPattern at h
  split at h
  · exact absurd h (hrefuse _ (by decide) _)
  · unfold kdaStorePattern kdaSetPattern at h
    by_cases hone : c.value = 1
    · rw [if_pos (show c.value = kdaPatternLiteral from hone)] at h
      rw [if_pos hone]
      simp only [Op.changed, Op.ite_apply] at h
      split at h
      · exact absurd h (hrefuse _ (by decide) _)
      · split at h
        · exact absurd h (hrefuse _ (by decide) _)
        · split at h
          · rename_i hadm
            cases h
            refine ⟨hadmits hadm, rfl, _, rfl, ?_⟩
            unfold strncpyS
            split
            · rename_i hfits
              rw [String.length_ofList, List.length_take, String.length_toList]
              exact hfits
            · decide
          · exact absurd h (hrefuse _ (by decide) _)
    · rw [if_neg (show ¬c.value = kdaPatternLiteral from hone)] at h
      rw [if_neg hone]
      simp only [Op.ite_apply] at h
      split at h
      · rename_i hadm
        cases h
        exact ⟨hadmits hadm, rfl, rfl⟩
      · exact absurd h (hrefuse _ (by decide) _)

/-- A pattern that was accepted holds candidates only, and with a literal there is its text. -/
theorem accepted_literal {k : KdaVariant} {cap : KdaPatternCap} (h : AcceptedPattern k cap) :
    (∀ value ∈ cap.patterns, isPattern value = true) ∧
      (1 ∈ cap.patterns → ∃ text, cap.literal = some text ∧ text.length < 64) := by
  induction h with
  | start => simp
  | call c before accepted ih =>
    obtain ⟨hvalue, hpatterns, hliteral⟩ := kdaSetParmPattern_accepted accepted
    rw [hpatterns]
    refine ⟨fun value hmem => ?_, fun hmem => ?_⟩
    · rcases List.mem_append.mp hmem with hmem | hmem
      · exact ih.1 value hmem
      · rw [List.mem_singleton.mp hmem]
        exact hvalue
    · by_cases hone : c.value = 1
      · rw [if_pos hone] at hliteral
        exact hliteral
      · rw [if_neg hone] at hliteral
        rw [hliteral]
        rcases List.mem_append.mp hmem with hmem | hmem
        · exact ih.2 hmem
        · exact absurd (List.mem_singleton.mp hmem).symm hone

/-- Every value that is a pattern is that of a candidate. -/
theorem exists_candidate {value : Int} (h : isPattern value = true) :
    ∃ c : KdaPatternCandidate, c.toInt = value := by
  rw [isPattern, decide_eq_true_eq] at h
  have hlow : (0 : Int) < value := h.1
  have hhigh : value < 9 := h.2
  interval_cases value
  · exact ⟨.literal, rfl⟩
  · exact ⟨.uPartyInfo, rfl⟩
  · exact ⟨.vPartyInfo, rfl⟩
  · exact ⟨.context, rfl⟩
  · exact ⟨.algorithmId, rfl⟩
  · exact ⟨.label, rfl⟩
  · exact ⟨.l, rfl⟩
  · exact ⟨.t, rfl⟩

/-- So are all of a list. -/
theorem exists_candidates {values : List Int} (h : ∀ value ∈ values, isPattern value = true) :
    ∃ cs : List KdaPatternCandidate, cs.map KdaPatternCandidate.toInt = values := by
  induction values with
  | nil => exact ⟨[], rfl⟩
  | cons value values ih =>
    obtain ⟨c, rfl⟩ := exists_candidate (h value List.mem_cons_self)
    obtain ⟨cs, rfl⟩ := ih fun v hv => h v (List.mem_cons_of_mem _ hv)
    exact ⟨c :: cs, rfl⟩

/-- Candidates differ in their values. -/
theorem candidate_toInt_injective : Function.Injective KdaPatternCandidate.toInt := by
  intro c c' h
  cases c <;> cases c' <;> first | rfl | cases h

/-! ### Tokens -/

/-- What the builder appends for a candidate. -/
def KdaPatternCandidate.token (text : List Char) : KdaPatternCandidate → List Char
  | literal => "literal".toList ++ '[' :: text ++ [']']
  | uPartyInfo => "uPartyInfo".toList
  | vPartyInfo => "vPartyInfo".toList
  | context => "context".toList
  | algorithmId => "algorithmId".toList
  | label => "label".toList
  | l => "l".toList
  | t => "t".toList

/-- The token the builder writes for a candidate. -/
theorem patternToken_candidate {literal : Option String} {c : KdaPatternCandidate}
    (h : c = .literal → ∃ text, literal = some text ∧ text.length < 64) :
    patternToken literal c.toInt = .ok (c.token (literal.getD "").toList) := by
  cases c with
  | literal =>
    obtain ⟨text, rfl, hlength⟩ := h rfl
    have htake : text.toList.take kdaPatternLiteralStrLenMax = text.toList :=
      List.take_of_length_le (by rw [String.length_toList]; exact hlength.le)
    rw [KdaPatternCandidate.toInt, patternToken, if_pos rfl, need_some, ok_bind, htake]
    rfl
  | _ => rfl

/-- The string the builder writes is the tokens with two bars between. -/
theorem kdaPatternStr_candidates {cap : KdaPatternCap} {cs : List KdaPatternCandidate}
    (hcs : cs.map KdaPatternCandidate.toInt = cap.patterns) (hne : cs ≠ [])
    (hliteral : .literal ∈ cs → ∃ text, cap.literal = some text ∧ text.length < 64) :
    kdaPatternStr cap = .ok (String.ofList (['|', '|'].intercalate
      (cs.map (KdaPatternCandidate.token (cap.literal.getD "").toList)))) := by
  have hpatterns : cap.patterns ≠ [] := by
    rw [← hcs]
    simpa using hne
  have htokens : ∀ cs' : List KdaPatternCandidate, (∀ c ∈ cs', c ∈ cs) →
      (cs'.map KdaPatternCandidate.toInt).mapM (patternToken cap.literal) =
        .ok (cs'.map (KdaPatternCandidate.token (cap.literal.getD "").toList)) := by
    intro cs' hsub
    induction cs' with
    | nil => rfl
    | cons c cs' ih =>
      have htoken : patternToken cap.literal c.toInt =
          .ok (c.token (cap.literal.getD "").toList) :=
        patternToken_candidate fun hc => hliteral (hc ▸ hsub c List.mem_cons_self)
      rw [List.map_cons, List.mapM_cons, htoken, ok_bind,
        ih fun c hc => hsub c (List.mem_cons_of_mem _ hc)]
      rfl
  rw [kdaPatternStr, stopIf_neg hpatterns, ok_bind, ← hcs, htokens cs fun c hc => hc]
  rfl

/-- The tokens the handler reads are the parts between the bars that are not empty. -/
theorem patternTokens_eq_pieces (str : String) :
    patternTokens str = pieces (· == '|') str.toList := by
  refine List.filter_congr fun piece _ => ?_
  cases piece <;> rfl

/-- What stands between the brackets of a literal when it is read. -/
def innerToken (text : List Char) : List Char :=
  ((text ++ [']']).dropWhile (· = ']')).takeWhile (· ≠ ']')

/-- Reading the literal's token leaves the text up to a bracket. -/
theorem literalToken_token (text : List Char) :
    literalToken (KdaPatternCandidate.literal.token text) = innerToken text := by
  rfl

/-- A text without a closing bracket is read whole. -/
theorem innerToken_eq {text : List Char} (h : ']' ∉ text) : innerToken text = text := by
  cases text with
  | nil => rfl
  | cons c text =>
    have hc : c ≠ ']' := fun hc => h (hc ▸ List.mem_cons_self)
    have hall : ∀ x ∈ c :: text, decide (x ≠ ']') = true :=
      fun x hx => decide_eq_true fun hx' => h (hx' ▸ hx)
    rw [innerToken, List.cons_append, List.dropWhile_cons_of_neg (by simpa using hc),
      ← List.cons_append, List.takeWhile_append_of_pos hall]
    simp

/-- A closing bracket ends the literal early. -/
theorem length_innerToken_lt {text : List Char} (h : ']' ∈ text) :
    (innerToken text).length < text.length := by
  have hsub : (innerToken text).Sublist (text.filter (· ≠ ']')) := by
    have hinner : (innerToken text).filter (· ≠ ']') = innerToken text :=
      List.filter_eq_self.mpr fun c hc => by simpa using List.mem_takeWhile_imp hc
    have hpart : (innerToken text).Sublist (text ++ [']']) :=
      (List.takeWhile_sublist _).trans (List.dropWhile_sublist _)
    have hfilter := hpart.filter (· ≠ ']')
    rw [hinner, List.filter_append] at hfilter
    simpa using hfilter
  obtain ⟨front, back, rfl⟩ := List.append_of_mem h
  have hle := hsub.length_le
  have hfront := List.length_filter_le (· ≠ ']') front
  have hback := List.length_filter_le (· ≠ ']') back
  rw [List.filter_append, List.filter_cons_of_neg (by simp), List.length_append] at hle
  rw [List.length_append, List.length_cons]
  omega

/-- The literal's token is recognised when its text is not empty, and then decoded. -/
theorem cmpPatternStr_literal {text : List Char}
    {read : KdaPatternCandidate × Option (List UInt8)} :
    cmpPatternStr (KdaPatternCandidate.literal.token text) = some read ↔
      innerToken text ≠ [] ∧ ∃ data, read = (.literal, some data) ∧
        hexstrToBin (some (String.ofList (innerToken text))) kdaPatternLiteralByteMax =
          .ok data := by
  have hstart : "literal".toList <+: KdaPatternCandidate.literal.token text :=
    ⟨'[' :: text ++ [']'], rfl⟩
  have hname (name : String) (h : '[' ∉ name.toList) :
      KdaPatternCandidate.literal.token text ≠ name.toList := by
    have hbracket : '[' ∈ KdaPatternCandidate.literal.token text :=
      List.mem_append_left _ (List.mem_append_right _ List.mem_cons_self)
    exact fun heq => h (heq ▸ hbracket)
  have hfits : ∀ data, hexstrToBin (some (String.ofList (innerToken text)))
      kdaPatternLiteralByteMax = .ok data →
      strnlenS (String.ofList (innerToken text)) (kdaPatternLiteralStrMax + 1) ≤
        kdaPatternLiteralStrMax := by
    intro data hdata
    have hmax : 2 * kdaPatternLiteralByteMax < hexstrMax := by decide
    obtain ⟨hle, -, -⟩ := (hexstrToBin_eq_ok hmax).mp hdata
    have hbytes : kdaPatternLiteralByteMax = 8 := rfl
    have hstr : kdaPatternLiteralStrMax = 64 := rfl
    unfold strnlenS
    omega
  rw [cmpPatternStr]
  simp only [literalToken_token, hstart, true_and]
  rw [if_neg (hname _ (by decide)), if_neg (hname _ (by decide)), if_neg (hname _ (by decide)),
    if_neg (hname _ (by decide)), if_neg (hname _ (by decide)), if_neg (hname _ (by decide)),
    if_neg (hname _ (by decide))]
  constructor
  · intro h
    split at h
    · rename_i hinner
      refine ⟨hinner.1, ?_⟩
      split at h
      · rename_i data hdata
        exact ⟨data, (Option.some.inj h).symm, hdata⟩
      · cases h
    · cases h
  · rintro ⟨hinner, data, rfl, hdata⟩
    rw [if_pos ⟨hinner, hfits data hdata⟩, hdata]

/-- The token of any other candidate is recognised as that candidate. -/
theorem cmpPatternStr_name {c : KdaPatternCandidate} (h : c ≠ .literal) (text : List Char) :
    cmpPatternStr (c.token text) = some (c, none) := by
  cases c with
  | literal => exact absurd rfl h
  | _ => rfl

/-- No token is empty. -/
theorem token_ne_nil (c : KdaPatternCandidate) (text : List Char) : c.token text ≠ [] := by
  cases c <;> exact List.cons_ne_nil _ _

/-- A token has a bar only in the text of a literal. -/
theorem bar_not_mem_token {c : KdaPatternCandidate} {text : List Char}
    (h : c = .literal → '|' ∉ text) : '|' ∉ c.token text := by
  cases c with
  | literal =>
    have hbar := h rfl
    change '|' ∉ "literal".toList ++ '[' :: text ++ [']']
    simp only [List.mem_append, List.mem_cons, List.not_mem_nil, or_false, not_or]
    exact ⟨⟨by decide, by decide, hbar⟩, by decide⟩
  | _ => change '|' ∉ String.toList _; decide

/-- A token is one piece of the pattern, except for a literal with a bar in its text. -/
theorem pieces_token {c : KdaPatternCandidate} {text : List Char}
    (h : c = .literal → '|' ∉ text) : pieces (· == '|') (c.token text) = [c.token text] := by
  refine pieces_eq_singleton (token_ne_nil c text) fun x hx => ?_
  rw [beq_eq_false_iff_ne]
  exact fun hx' => bar_not_mem_token h (hx' ▸ hx)

/-- A literal with a bar in its text falls into more than one part. -/
theorem one_lt_pieces_literal {text : List Char} (h : '|' ∈ text) :
    1 < (pieces (· == '|') (KdaPatternCandidate.literal.token text)).length := by
  obtain ⟨front, back, rfl⟩ := List.append_of_mem h
  have hassoc (start : List Char) : start ++ '[' :: (front ++ '|' :: back) ++ [']'] =
      (start ++ '[' :: front) ++ '|' :: (back ++ [']']) := by
    simp only [List.append_assoc, List.cons_append]
  have hsplit : KdaPatternCandidate.literal.token (front ++ '|' :: back) =
      ("literal".toList ++ '[' :: front) ++ '|' :: (back ++ [']']) := hassoc _
  rw [hsplit]
  refine one_lt_pieces rfl (List.mem_append_right _ List.mem_cons_self) (x := '[') rfl
    (List.mem_append_right _ List.mem_cons_self) (y := ']') rfl

/-- There are at least as many parts as candidates, and more when a literal has a bar. -/
theorem length_le_pieces (text : List Char) (cs : List KdaPatternCandidate) :
    cs.length ≤ ((cs.map (KdaPatternCandidate.token text)).flatMap (pieces (· == '|'))).length ∧
      (.literal ∈ cs → '|' ∈ text → cs.length <
        ((cs.map (KdaPatternCandidate.token text)).flatMap (pieces (· == '|'))).length) := by
  induction cs with
  | nil => simp
  | cons c cs ih =>
    have hfirst : 1 ≤ (pieces (· == '|') (c.token text)).length := by
      by_cases hsplit : c = .literal ∧ '|' ∈ text
      · rw [hsplit.1]
        exact (one_lt_pieces_literal hsplit.2).le
      · rw [pieces_token fun hc hbar => hsplit ⟨hc, hbar⟩]
        exact le_rfl
    rw [List.map_cons, List.flatMap_cons, List.length_append, List.length_cons]
    refine ⟨by omega, fun hmem hbar => ?_⟩
    rcases List.mem_cons.mp hmem with rfl | hmem
    · have hmore := one_lt_pieces_literal hbar
      omega
    · have hmore := ih.2 hmem hbar
      omega

/-! ### Exactness -/

/-- A partial map of a list succeeds exactly when it does on every element. -/
theorem mapM_eq_some {α β : Type} {f : α → Option β} {as : List α} {bs : List β} :
    as.mapM f = some bs ↔ List.Forall₂ (fun a b => f a = some b) as bs := by
  induction as generalizing bs with
  | nil => cases bs <;> simp
  | cons a as ih =>
    rw [List.mapM_cons, Option.bind_eq_bind, Option.bind_eq_some_iff]
    simp only [Option.bind_eq_bind, Option.bind_eq_some_iff]
    constructor
    · rintro ⟨b, hb, bs', hbs, h⟩
      cases h
      exact .cons hb (ih.mp hbs)
    · rintro (_ | ⟨hb, hbs⟩)
      exact ⟨_, hb, _, ih.mpr hbs, rfl⟩

/-- When a pattern is read, and what is read: its length, the number of its tokens, and each of
them. -/
theorem readInfoPattern_eq_some {str : String} {candidates : List KdaPatternCandidate}
    {literals : List (List UInt8)} :
    readInfoPattern str = some (candidates, literals) ↔
      (1 ≤ (cBytes str).length ∧ (cBytes str).length ≤ 256) ∧ (patternTokens str).length ≤ 9 ∧
        ∃ read,
          List.Forall₂ (fun token r => cmpPatternStr token = some r) (patternTokens str) read ∧
          candidates = read.map Prod.fst ∧ literals = read.filterMap Prod.snd ∧
          .uPartyInfo ∈ candidates ∧ .vPartyInfo ∈ candidates := by
  have hlength : strnlenS str (kdaPatternRegStrLenMax + 1) = min (cBytes str).length 257 := rfl
  simp only [readInfoPattern, Option.bind_eq_bind, hlength]
  by_cases hlen : kdaPatternRegStrLenMax < min (cBytes str).length 257 ∨
      min (cBytes str).length 257 < 1
  · rw [if_pos hlen]
    refine iff_of_false (fun h => by cases h) fun h => ?_
    have hfits := h.1
    have hmax : kdaPatternRegStrLenMax = 256 := rfl
    omega
  · rw [if_neg hlen]
    have hlen' : 1 ≤ (cBytes str).length ∧ (cBytes str).length ≤ 256 := by
      have hmax : kdaPatternRegStrLenMax = 256 := rfl
      omega
    rw [and_iff_right hlen']
    by_cases hcount : kdaPatternMax < ((patternTokens str).length : Int)
    · rw [if_pos hcount]
      refine iff_of_false (fun h => by cases h) fun h => ?_
      have hfew := h.1
      have hmax : kdaPatternMax = 9 := rfl
      omega
    · have hcount' : (patternTokens str).length ≤ 9 := by
        have hmax : kdaPatternMax = 9 := rfl
        omega
      rw [if_neg hcount, and_iff_right hcount', Option.bind_eq_some_iff]
      simp only [mapM_eq_some]
      refine exists_congr fun read => and_congr_right fun _ => ?_
      by_cases hparties : .uPartyInfo ∈ read.map Prod.fst ∧ .vPartyInfo ∈ read.map Prod.fst
      · rw [if_pos hparties, Option.some.injEq, Prod.mk.injEq]
        constructor
        · rintro ⟨rfl, rfl⟩
          exact ⟨rfl, rfl, hparties⟩
        · rintro ⟨rfl, rfl, -⟩
          exact ⟨rfl, rfl⟩
      · rw [if_neg hparties]
        refine iff_of_false (fun h => by cases h) ?_
        rintro ⟨rfl, -, h⟩
        exact hparties h

/-- The bytes of a literal among the tokens that are read. -/
def KdaPatternCandidate.read (data : List UInt8) (c : KdaPatternCandidate) :
    KdaPatternCandidate × Option (List UInt8) :=
  (c, if c = .literal then some data else none)

/-- A bound on the length of tokens with two bars between. -/
theorem length_join_le {m : Nat} {tokens : List (List Char)}
    (h : ∀ token ∈ tokens, token.length ≤ m) :
    (['|', '|'].intercalate tokens).length ≤ (m + 2) * tokens.length := by
  induction tokens with
  | nil => exact Nat.zero_le _
  | cons token tokens ih =>
    have hfirst := h token List.mem_cons_self
    have hrest := ih fun t ht => h t (List.mem_cons_of_mem _ ht)
    cases tokens with
    | nil =>
      rw [List.intercalate_singleton, List.length_singleton]
      omega
    | cons token' tokens =>
      have hbars : ['|', '|'].length = 2 := rfl
      rw [List.intercalate_cons_cons, List.length_append, List.length_append, hbars,
        List.length_cons, Nat.mul_add_one]
      omega

/-- The token of a literal is its text and nine more characters. -/
theorem length_literalToken (text : List Char) :
    (KdaPatternCandidate.literal.token text).length = text.length + 9 := by
  have hstart : ("literal".toList ++ ['[']).length = 8 := by decide
  have hend : [']'].length = 1 := rfl
  have hsplit : KdaPatternCandidate.literal.token text =
      ("literal".toList ++ ['[']) ++ text ++ [']'] := by
    rw [List.append_assoc "literal".toList]
    rfl
  rw [hsplit, List.length_append, List.length_append, hstart, hend]
  omega

/-- Every other token has 25 characters at most. -/
theorem length_token_le {c : KdaPatternCandidate} (h : c ≠ .literal) (text : List Char) :
    (c.token text).length ≤ 25 := by
  cases c with
  | literal => exact absurd rfl h
  | _ => change (String.toList _).length ≤ 25; decide

/-- The last of equal elements is that element. -/
theorem getLast?_of_forall {α : Type} {l : List α} {a : α} (hne : l ≠ []) (h : ∀ x ∈ l, x = a) :
    l.getLast? = some a := by
  rw [List.getLast?_eq_some_getLast hne, h _ (List.getLast_mem hne)]

/-- A pattern that was accepted, as a list of candidates. -/
structure Registers (cap : KdaPatternCap) (cs : List KdaPatternCandidate) : Prop where
  patterns : cs.map KdaPatternCandidate.toInt = cap.patterns
  parties : .uPartyInfo ∈ cs ∧ .vPartyInfo ∈ cs
  literal : .literal ∈ cs → ∃ text, cap.literal = some text ∧ text.length < 64

/-- A candidate is in the list when its value is among the values. -/
theorem mem_of_toInt_mem {cs : List KdaPatternCandidate} {c : KdaPatternCandidate}
    (h : c.toInt ∈ cs.map KdaPatternCandidate.toInt) : c ∈ cs := by
  obtain ⟨c', hc', heq⟩ := List.mem_map.mp h
  rwa [candidate_toInt_injective heq] at hc'

/-- An accepted pattern that names both parties is a list of candidates. -/
theorem exists_registers {k : KdaVariant} {cap : KdaPatternCap} (h : AcceptedPattern k cap)
    (hu : 2 ∈ cap.patterns) (hv : 3 ∈ cap.patterns) : ∃ cs, Registers cap cs := by
  obtain ⟨hvalues, hliteral⟩ := accepted_literal h
  obtain ⟨cs, hcs⟩ := exists_candidates hvalues
  rw [← hcs] at hu hv hliteral
  exact ⟨cs, hcs, ⟨mem_of_toInt_mem hu, mem_of_toInt_mem hv⟩,
    fun hmem => hliteral (List.mem_map.mpr ⟨.literal, hmem, rfl⟩)⟩

namespace Registers

variable {cap : KdaPatternCap} {cs : List KdaPatternCandidate} (h : Registers cap cs)

/-- The pattern that is registered. -/
def str (cap : KdaPatternCap) (cs : List KdaPatternCandidate) : String :=
  String.ofList
    (['|', '|'].intercalate (cs.map (KdaPatternCandidate.token (cap.literal.getD "").toList)))

include h

/-- The builder writes the string of the candidates. -/
theorem patternStr : kdaPatternStr cap = .ok (str cap cs) :=
  kdaPatternStr_candidates h.patterns (List.ne_nil_of_mem h.parties.1) h.literal

omit h in
/-- The tokens of the string are the parts of the candidates' tokens. -/
theorem tokens : patternTokens (str cap cs) =
    (cs.map (KdaPatternCandidate.token (cap.literal.getD "").toList)).flatMap
      (pieces (· == '|')) := by
  rw [patternTokens_eq_pieces, str, String.toList_ofList, pieces_join rfl]

omit h in
/-- Without a bar in the literal, the pattern comes apart where it was joined. -/
theorem tokens_eq (hbar : .literal ∈ cs → '|' ∉ (cap.literal.getD "").toList) :
    patternTokens (str cap cs) =
      cs.map (KdaPatternCandidate.token (cap.literal.getD "").toList) := by
  rw [tokens]
  have hpiece : ∀ token ∈ cs.map (KdaPatternCandidate.token (cap.literal.getD "").toList),
      pieces (· == '|') token = [token] := by
    intro token htoken
    obtain ⟨c, hc, rfl⟩ := List.mem_map.mp htoken
    exact pieces_token fun hliteral => hbar (hliteral ▸ hc)
  rw [List.flatMap_congr hpiece]
  exact List.flatMap_singleton' _

/-- The string is not empty. -/
theorem str_ne_nil : 1 ≤ (cBytes (str cap cs)).length := by
  rw [str, length_cBytes, String.length_ofList]
  refine List.length_pos_iff.mpr fun hnil => ?_
  have hpieces : pieces (· == '|') (['|', '|'].intercalate
      (cs.map (KdaPatternCandidate.token (cap.literal.getD "").toList))) =
      (cs.map (KdaPatternCandidate.token (cap.literal.getD "").toList)).flatMap
        (pieces (· == '|')) := pieces_join rfl _
  rw [hnil, pieces_nil] at hpieces
  have hle := (length_le_pieces (cap.literal.getD "").toList cs).1
  rw [← hpieces] at hle
  exact absurd h.parties.1 (by simp [List.length_eq_zero_iff.mp (Nat.le_zero.mp hle)])

omit h in
/-- With nine candidates and a short literal the string stays below the limit. -/
theorem str_length_le (hlength : cs.length ≤ 9)
    (hliteral : .literal ∈ cs → (cBytes (cap.literal.getD "")).length ≤ 16) :
    (cBytes (str cap cs)).length ≤ 243 := by
  have htoken : ∀ token ∈ cs.map (KdaPatternCandidate.token (cap.literal.getD "").toList),
      token.length ≤ 25 := by
    intro token htoken
    obtain ⟨c, hc, rfl⟩ := List.mem_map.mp htoken
    by_cases hc' : c = .literal
    · have htext := hliteral (hc' ▸ hc)
      rw [length_cBytes] at htext
      rw [hc', length_literalToken, String.length_toList]
      omega
    · exact length_token_le hc' _
  have hjoin := length_join_le htoken
  rw [List.length_map] at hjoin
  rw [str, length_cBytes, String.length_ofList]
  omega

/-- A pattern of few candidates with a good literal is read back. -/
theorem reads (hlength : cs.length ≤ 9)
    (hliteral : .literal ∈ cs → LiteralReads (cap.literal.getD "")) :
    (cBytes (str cap cs)).length ≤ kdaPatternRegStrLenMax ∧
      ∃ literals, readInfoPattern (str cap cs) = some (cs, literals) ∧
        (.literal ∈ cs →
          literals.getLast? = some (hexPairs (cBytes (cap.literal.getD "")))) := by
  have hmax : kdaPatternRegStrLenMax = 256 := rfl
  have hlen := str_length_le hlength fun hmem => (hliteral hmem).2.2.2.2
  have hread : ∀ c ∈ cs, cmpPatternStr (c.token (cap.literal.getD "").toList) =
      some (c.read (hexPairs (cBytes (cap.literal.getD "")))) := by
    intro c hc
    by_cases hc' : c = .literal
    · obtain ⟨-, hbracket, hne, heven, hfits⟩ := hliteral (hc' ▸ hc)
      rw [hc']
      refine cmpPatternStr_literal.mpr ⟨?_, _, rfl, ?_⟩
      · rw [innerToken_eq hbracket]
        simpa using hne
      · rw [innerToken_eq hbracket, String.ofList_toList]
        exact (hexstrToBin_eq_ok (by unfold kdaPatternLiteralByteMax hexstrMax; omega)).mpr
          ⟨hfits, heven, rfl⟩
    · rw [cmpPatternStr_name hc', KdaPatternCandidate.read, if_neg hc']
  have hfst : (cs.map (KdaPatternCandidate.read (hexPairs (cBytes (cap.literal.getD ""))))).map
      Prod.fst = cs := by
    rw [List.map_map]
    exact List.map_id cs
  refine ⟨by omega, _, readInfoPattern_eq_some.mpr ⟨⟨h.str_ne_nil, by omega⟩, ?_,
    cs.map (KdaPatternCandidate.read (hexPairs (cBytes (cap.literal.getD "")))), ?_, hfst.symm, rfl,
    h.parties⟩, fun hmem => ?_⟩
  · rw [tokens_eq fun hmem => (hliteral hmem).1, List.length_map]
    exact hlength
  · rw [tokens_eq fun hmem => (hliteral hmem).1, List.forall₂_map_left_iff,
      List.forall₂_map_right_iff, List.forall₂_same]
    exact hread
  · refine getLast?_of_forall (List.ne_nil_of_mem (List.mem_filterMap.mpr
      ⟨_, List.mem_map.mpr ⟨.literal, hmem, rfl⟩, rfl⟩)) fun data hdata => ?_
    obtain ⟨r, hr, hsome⟩ := List.mem_filterMap.mp hdata
    obtain ⟨c, -, rfl⟩ := List.mem_map.mp hr
    unfold KdaPatternCandidate.read at hsome
    split at hsome
    · exact (Option.some.inj hsome).symm
    · cases hsome

omit h in
/-- A pattern that is read back has few candidates, and a literal that is read. -/
theorem reads_of_read {literals : List (List UInt8)}
    (hread : readInfoPattern (str cap cs) = some (cs, literals)) :
    cs.length ≤ 9 ∧ (.literal ∈ cs → '|' ∉ (cap.literal.getD "").toList ∧
      innerToken (cap.literal.getD "").toList ≠ [] ∧ ∃ data, literals.getLast? = some data ∧
        hexstrToBin (some (String.ofList (innerToken (cap.literal.getD "").toList)))
          kdaPatternLiteralByteMax = .ok data) := by
  obtain ⟨-, hfew, read, hall, hcs, hliterals, -⟩ := readInfoPattern_eq_some.mp hread
  have hcount : (patternTokens (str cap cs)).length = cs.length := by
    rw [hall.length_eq, hcs, List.length_map]
  refine ⟨by omega, fun hmem => ?_⟩
  have hbar : '|' ∉ (cap.literal.getD "").toList := by
    intro hbar
    have hmore := (length_le_pieces _ cs).2 hmem hbar
    rw [← tokens, hcount] at hmore
    exact absurd hmore (lt_irrefl _)
  rw [tokens_eq fun _ => hbar, List.forall₂_map_left_iff] at hall
  obtain ⟨r, hr, hliteral⟩ := Loader.exists_of_forall₂ hall hmem
  obtain ⟨hinner, data, rfl, hdata⟩ := cmpPatternStr_literal.mp hliteral
  refine ⟨hbar, hinner, data, ?_, hdata⟩
  rw [hliterals]
  refine getLast?_of_forall (List.ne_nil_of_mem (List.mem_filterMap.mpr ⟨_, hr, rfl⟩))
    fun data' hdata' => ?_
  obtain ⟨r', hr', hsome⟩ := List.mem_filterMap.mp hdata'
  obtain ⟨c, -, hc⟩ := Loader.exists_of_forall₂ hall.flip hr'
  by_cases hc' : c = .literal
  · rw [hc'] at hc
    obtain ⟨-, data'', rfl, hdata''⟩ := cmpPatternStr_literal.mp hc
    cases hsome
    exact Except.ok.inj (hdata''.symm.trans hdata)
  · have hname : some (c, none) = some r' := (cmpPatternStr_name hc' _).symm.trans hc
    cases hname
    cases hsome

end Registers

/-- A test case structure before its literals are stored. -/
def blankKdaTc : KdaTc where
  cipher := .kdaTwostep
  type := .aft
  fixedInfoPattern := []
  encoding := .concat
  saltMethod := .default
  tcId := 0
  l := 0

/-- The last literal is the one that stays, if it is stored at all. -/
theorem storesLiteral_iff {k : KdaVariant} {literals : List (List UInt8)} {data data' : List UInt8}
    (hlast : literals.getLast? = some data') :
    (∀ address stc, (k.storeLiterals literals address stc).literalLen = data.length ∧
      (k.storeLiterals literals address stc).literalCandidate =
        some ⟨kdaPatternLiteralByteMax, data⟩) ↔ k ≠ .twostep ∧ data = data' := by
  have hkeeps : ∀ address (stc : KdaTc),
      (stc.withMisplacedLiteral literals address).literalCandidate = stc.literalCandidate := by
    intro address stc
    rw [KdaTc.withMisplacedLiteral, hlast]
  have hstores : ∀ stc : KdaTc, stc.withLiteral literals =
      { stc with
        literalLen := data'.length
        literalCandidate := some ⟨kdaPatternLiteralByteMax, data'⟩ } := by
    intro stc
    rw [KdaTc.withLiteral, hlast]
  constructor
  · intro h
    obtain ⟨-, hstored⟩ := h 0 blankKdaTc
    cases k with
    | twostep =>
      have hnone := (hkeeps 0 blankKdaTc).symm.trans hstored
      cases hnone
    | onestep | hkdf =>
      rw [KdaVariant.storeLiterals, hstores] at hstored
      cases hstored
      exact ⟨by decide, rfl⟩
  · rintro ⟨hk, rfl⟩ address stc
    cases k with
    | twostep => exact absurd rfl hk
    | onestep | hkdf =>
      rw [KdaVariant.storeLiterals, hstores]
      exact ⟨rfl, rfl⟩

/-- The literal that is read has the bytes of the registered one only if nothing ends it early. -/
theorem literalReads_of_same {text : String} {data : List UInt8} (hbar : '|' ∉ text.toList)
    (hinner : innerToken text.toList ≠ [])
    (hread : hexstrToBin (some (String.ofList (innerToken text.toList)))
      kdaPatternLiteralByteMax = .ok data)
    (hdata : hexstrToBin (some text) kdaPatternLiteralStrMax = .ok data) : LiteralReads text := by
  have hmax : hexstrMax = 262144 := rfl
  have hbytes : kdaPatternLiteralByteMax = 8 := rfl
  have hstr : kdaPatternLiteralStrMax = 64 := rfl
  obtain ⟨hfits, heven', hpairs'⟩ := (hexstrToBin_eq_ok (by omega)).mp hread
  obtain ⟨-, heven, hpairs⟩ := (hexstrToBin_eq_ok (by omega)).mp hdata
  rw [length_cBytes, String.length_ofList] at hfits heven'
  have hsame : (innerToken text.toList).length = text.toList.length := by
    have hlength := congrArg List.length (hpairs'.symm.trans hpairs)
    rw [hexPairs_length, hexPairs_length, length_cBytes, length_cBytes,
      String.length_ofList] at hlength
    rw [length_cBytes] at heven
    rw [String.length_toList]
    omega
  have hbracket : ']' ∉ text.toList := by
    intro hbracket
    have hless := length_innerToken_lt hbracket
    omega
  rw [innerToken_eq hbracket, String.length_toList, ← length_cBytes] at hfits
  rw [innerToken_eq hbracket] at hinner
  refine ⟨hbar, hbracket, ?_, heven, hfits⟩
  rintro rfl
  exact hinner rfl

/-- Which patterns survive: no more candidates than are read, and a literal of a few bytes in
hexadecimal digits, that the handler stores where it belongs. -/
theorem kdaPattern_roundTrip_iff {k : KdaVariant} {cap : KdaPatternCap}
    (haccepted : AcceptedPattern k cap) (hu : 2 ∈ cap.patterns) (hv : 3 ∈ cap.patterns) :
    RoundTrips k cap ↔ PatternReads k cap := by
  obtain ⟨cs, hcs⟩ := exists_registers haccepted hu hv
  have hliteral : 1 ∈ cap.patterns ↔ .literal ∈ cs := by
    rw [← hcs.patterns]
    exact ⟨mem_of_toInt_mem (c := .literal), fun hmem => List.mem_map.mpr ⟨_, hmem, rfl⟩⟩
  have hlength : cap.patterns.length = cs.length := by rw [← hcs.patterns, List.length_map]
  unfold RoundTrips PatternReads
  rw [hcs.patternStr, hlength, hliteral]
  constructor
  · rintro ⟨str, candidates, literals, hstr, -, hread, hcandidates, hstored⟩
    cases hstr
    obtain rfl : candidates = cs :=
      candidate_toInt_injective.list_map (hcandidates.trans hcs.patterns.symm)
    obtain ⟨hfew, hgood⟩ := Registers.reads_of_read hread
    refine ⟨hfew, fun hmem => ?_⟩
    obtain ⟨hbar, hinner, data', hlast, hread'⟩ := hgood hmem
    obtain ⟨text, data, htext, hdata, hall⟩ := hstored hmem
    obtain ⟨hk, rfl⟩ := (storesLiteral_iff hlast).mp hall
    rw [htext, Option.getD_some] at hbar hinner hread'
    exact ⟨hk, text, htext, literalReads_of_same hbar hinner hread' hdata⟩
  · rintro ⟨hfew, hgood⟩
    have hreads : .literal ∈ cs → LiteralReads (cap.literal.getD "") := by
      intro hmem
      obtain ⟨-, text, htext, hreads⟩ := hgood hmem
      rw [htext]
      exact hreads
    obtain ⟨hfits, literals, hread, hlast⟩ := hcs.reads hfew hreads
    refine ⟨_, cs, literals, rfl, hfits, hread, hcs.patterns, fun hmem => ?_⟩
    obtain ⟨hk, text, htext, -, -, -, heven, hshort⟩ := hgood hmem
    have hbytes := hlast hmem
    rw [htext, Option.getD_some] at hbytes
    have hmax : hexstrMax = 262144 := rfl
    have hmaxes : kdaPatternLiteralByteMax = 8 ∧ kdaPatternLiteralStrMax = 64 := ⟨rfl, rfl⟩
    refine ⟨text, _, htext, (hexstrToBin_eq_ok (by omega)).mpr ⟨by omega, heven, rfl⟩, ?_⟩
    exact (storesLiteral_iff hbytes).mpr ⟨hk, rfl⟩

/-- A literal and both parties. -/
theorem acceptedPattern_parties {literal : String}
    (h : kdaSetParmPattern .hkdf 1 (some literal) {} = .ok (.success, ⟨[1], some literal⟩)) :
    AcceptedPattern .hkdf ⟨[1, 2, 3], some literal⟩ :=
  ((AcceptedPattern.start.call ⟨1, some literal⟩ h).call ⟨2, none⟩ rfl).call ⟨3, none⟩ rfl

/-- The statement at a pattern of a literal and both parties. -/
theorem kdaPattern_roundTrip_pair :
    RoundTrips .hkdf ⟨[1, 2, 3], some "abcd"⟩ ∧ PatternReads .hkdf ⟨[1, 2, 3], some "abcd"⟩ := by
  have hreads : PatternReads .hkdf ⟨[1, 2, 3], some "abcd"⟩ :=
    ⟨by decide, fun _ => ⟨by decide, _, rfl, by decide⟩⟩
  have haccepted : AcceptedPattern .hkdf ⟨[1, 2, 3], some "abcd"⟩ := acceptedPattern_parties rfl
  exact ⟨(kdaPattern_roundTrip_iff haccepted (by decide) (by decide)).mpr hreads, hreads⟩

/-- Nine bytes are accepted, but only eight of them would be read. -/
theorem nine_bytes_unread :
    AcceptedPattern .hkdf ⟨[1, 2, 3], some "0123456789abcdef01"⟩ ∧
      ¬RoundTrips .hkdf ⟨[1, 2, 3], some "0123456789abcdef01"⟩ := by
  refine ⟨acceptedPattern_parties rfl, ?_⟩
  rintro ⟨str, candidates, literals, hstr, -, hread, -⟩
  have hregistered : kdaPatternStr ⟨[1, 2, 3], some "0123456789abcdef01"⟩ =
      .ok "literal[0123456789abcdef01]||uPartyInfo||vPartyInfo" := rfl
  have hnone : readInfoPattern "literal[0123456789abcdef01]||uPartyInfo||vPartyInfo" = none := by
    decide +kernel
  rw [hregistered] at hstr
  cases hstr
  rw [hnone] at hread
  cases hread

end LibAmvp
