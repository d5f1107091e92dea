import LibAmvp.Parson.Strings

/-!
# The parser of parson

{lit}`json_parse_string` and the functions it descends into, over the characters of a C string.
What the C library makes of numbers is a parameter; allocations succeed.

Main results:

- Theorem {lit}`parseValue_eq_some_iff`: with enough room, the parser accepts the values of the
  grammar whose members have names that parson can keep apart and whose numbers are valid, and
  nothing else.
- Theorem {lit}`jsonParseString_eq_some_iff`: the same for a whole text.
-/

namespace LibAmvp.Parson

open JsonTree

/-- The values of {lit}`errno` that {lit}`strtod` can leave. -/
inductive Errno where
  | zero
  | erange
  | other
deriving DecidableEq

/-- What the C library makes of numbers: the number that a subject sequence of {lit}`strtod`
stands for and the {lit}`errno` it leaves, the tests on a number, and the text {lit}`sprintf`
prints for it with {lit}`FLOAT_FORMAT`. -/
structure NumberFormat (ν : Type) where
  zero : ν
  numeral : List UInt8 → Option ν
  errno : List UInt8 → Errno
  isHuge : ν → Bool
  isInvalid : ν → Bool
  print : ν → List UInt8

/-- {lit}`MAX_NESTING`. -/
def maxNesting : Nat := 2048

/-- {lit}`STRING_NAME_MAX`. -/
def stringNameMax : Nat := 128

/-- The members of an object. -/
abbrev Members (ν : Type) := List (NulString × JsonTree ν)

variable {ν : Type}

/-- {lit}`SKIP_WHITESPACES`. -/
def skipWhitespaces (s : List UInt8) : List UInt8 := s.dropWhile fun c => IsBlank c

/-! ## Members -/

/-- {lit}`json_object_getn_value`: a comparison over no characters is refused. -/
def jsonObjectGetnValue (members : Members ν) (name : NulString) (nameLen : Nat) :
    Option (JsonTree ν) :=
  (members.find? fun m => NulString.strnlenS (some m.1) stringNameMax = nameLen ∧ nameLen ≠ 0 ∧
    name = m.1).map Prod.snd

/-- {lit}`json_object_addn`. -/
def jsonObjectAddn (members : Members ν) (name : NulString) (nameLen : Nat) (value : JsonTree ν) :
    Option (Members ν) :=
  if (jsonObjectGetnValue members name nameLen).isSome then none
  else some (members ++ [(name.take nameLen, value)])

/-- {lit}`json_object_add`. -/
def jsonObjectAdd (members : Members ν) (name : NulString) (value : JsonTree ν) :
    Option (Members ν) :=
  jsonObjectAddn members name (NulString.strnlenS (some name) stringNameMax) value

/-! ## Numbers -/

namespace NumberFormat

variable (fmt : NumberFormat ν)

/-- The length of the subject sequence at the front of a text: the longest start of it that is a
number. -/
def subjectLength (s : List UInt8) : Nat :=
  Nat.findGreatest (fun n => (fmt.numeral (s.take n)).isSome) s.length

/-- {lit}`strtod` where no blank stands first: the number, {lit}`errno`, and how many characters
it reads. -/
def strtod (s : List UInt8) : ν × Errno × Nat :=
  let n := fmt.subjectLength s
  ((fmt.numeral (s.take n)).getD fmt.zero, fmt.errno (s.take n), n)

end NumberFormat

/-- {lit}`is_decimal`. -/
def isDecimal (s : List UInt8) (length : Nat) : Bool :=
  if 1 < length ∧ deref s = 0x30 ∧ deref (s.drop 1) ≠ 0x2e then false
  else if 2 < length ∧ deref (s.drop 2) ≠ 0x2e ∧ [0x2d, 0x30] <+: s then false
  else (s.take length).all fun c => c ≠ 0x78 ∧ c ≠ 0x58

/-- {lit}`json_value_init_number`. -/
def jsonValueInitNumber (fmt : NumberFormat ν) (number : ν) : Option (JsonTree ν) :=
  if fmt.isInvalid number then none else some (.num number)

/-- {lit}`parse_number_value`. -/
def parseNumberValue (fmt : NumberFormat ν) (s : List UInt8) :
    Option (JsonTree ν × List UInt8) :=
  let r := fmt.strtod s
  if r.2.1 = .erange ∧ fmt.isHuge r.1 then none
  else if (r.2.1 ≠ .zero ∧ r.2.1 ≠ .erange) ∨ isDecimal s r.2.2 = false then none
  else (jsonValueInitNumber fmt r.1).map fun v => (v, s.drop r.2.2)

/-! ## Values without parts -/

/-- {lit}`parse_string_value`. -/
def parseStringValue (s : List UInt8) : Option (JsonTree ν × List UInt8) :=
  (getQuotedString s).map fun p => (.str p.1, p.2)

/-- {lit}`parse_boolean_value`. -/
def parseBooleanValue (s : List UInt8) : Option (JsonTree ν × List UInt8) :=
  if boolText true <+: s then some (.bool true, s.drop (boolText true).length)
  else if boolText false <+: s then some (.bool false, s.drop (boolText false).length)
  else none

/-- {lit}`parse_null_value`. -/
def parseNullValue (s : List UInt8) : Option (JsonTree ν × List UInt8) :=
  if nullText <+: s then some (.null, s.drop nullText.length) else none

/-! ## Values with parts -/

section Loops

variable {α : Type}

/-- The loop of {lit}`parse_array_value` and {lit}`parse_object_value`: a function reads a part
and adds it to those that are there. -/
def parseLoop (part : List α → List UInt8 → Option (List α × List UInt8)) :
    Nat → List α → List UInt8 → Option (List α × List UInt8)
  | 0, _, _ => none
  | fuel + 1, out, s =>
    if s = [] then some (out, s)
    else do
      let p ← part out s
      let s := skipWhitespaces p.2
      if deref s ≠ comma then some (p.1, s)
      else parseLoop part fuel p.1 (skipWhitespaces (s.drop 1))

/-- What {lit}`parse_array_value` and {lit}`parse_object_value` do around their loops.  The
collection is cut to its size at the end, which is refused when it has no part. -/
def parseParts (opening closing : UInt8)
    (part : List α → List UInt8 → Option (List α × List UInt8)) (s : List UInt8) :
    Option (List α × List UInt8) :=
  if deref s ≠ opening then none
  else
    let s := skipWhitespaces (s.drop 1)
    if deref s = closing then some ([], s.drop 1)
    else do
      let p ← parseLoop part (s.length + 1) [] s
      let s := skipWhitespaces p.2
      if deref s ≠ closing ∨ p.1.length = 0 then none else some (p.1, s.drop 1)

end Loops

/-- One round of the loop of {lit}`parse_array_value`. -/
def parseItem (parse : List UInt8 → Option (JsonTree ν × List UInt8)) (items : List (JsonTree ν))
    (s : List UInt8) : Option (List (JsonTree ν) × List UInt8) :=
  (parse s).map fun p => (items ++ [p.1], p.2)

/-- One round of the loop of {lit}`parse_object_value`. -/
def parseMember (parse : List UInt8 → Option (JsonTree ν × List UInt8)) (members : Members ν)
    (s : List UInt8) : Option (Members ν × List UInt8) := do
  let key ← getQuotedString s
  let newKey := NulString.ofBytes key.1
  if key.1.length ≠ NulString.strnlenS (some newKey) stringNameMax then none
  else
    let s := skipWhitespaces key.2
    if deref s ≠ colon then none
    else
      let value ← parse (s.drop 1)
      let members ← jsonObjectAdd members newKey value.1
      some (members, value.2)

/-- {lit}`parse_array_value`, with the parser of its items. -/
def parseArrayValue (parse : List UInt8 → Option (JsonTree ν × List UInt8)) (s : List UInt8) :
    Option (JsonTree ν × List UInt8) :=
  (parseParts lbrack rbrack (parseItem parse) s).map fun p => (.arr p.1, p.2)

/-- {lit}`parse_object_value`, with the parser of the values of its members. -/
def parseObjectValue (parse : List UInt8 → Option (JsonTree ν × List UInt8)) (s : List UInt8) :
    Option (JsonTree ν × List UInt8) :=
  (parseParts lbrace rbrace (parseMember parse) s).map fun p => (.obj p.1, p.2)

/-- A character {lit}`parse_value` starts a number at. -/
def startsNumber (c : UInt8) : Prop := c = 0x2d ∨ 0x30 ≤ c ∧ c ≤ 0x39

instance (c : UInt8) : Decidable (startsNumber c) := inferInstanceAs (Decidable (_ ∨ _))

/-- {lit}`parse_value`.  The first argument is the room that is left for nesting:
{lit}`MAX_NESTING + 1 - nesting`, so that there is none when the nesting exceeds its bound. -/
def parseValue (fmt : NumberFormat ν) : Nat → List UInt8 → Option (JsonTree ν × List UInt8)
  | 0, _ => none
  | room + 1, s =>
    let s := skipWhitespaces s
    if deref s = lbrace then parseObjectValue (parseValue fmt room) s
    else if deref s = lbrack then parseArrayValue (parseValue fmt room) s
    else if deref s = quote then parseStringValue s
    else if deref s = 0x66 ∨ deref s = 0x74 then parseBooleanValue s
    else if startsNumber (deref s) then parseNumberValue fmt s
    else if deref s = 0x6e then parseNullValue s
    else none

/-- The text after a byte order mark. -/
def skipBom (s : List UInt8) : List UInt8 := if [0xef, 0xbb, 0xbf] <+: s then s.drop 3 else s

/-- {lit}`json_parse_string`. -/
def jsonParseString (fmt : NumberFormat ν) (string : NulString) : Option (JsonTree ν) :=
  (parseValue fmt (maxNesting + 1) (skipBom string.chars)).map Prod.fst

/-! ## Blanks -/

/-- The first place that is no blank, with only blanks before it. -/
theorem skipWhitespaces_eq_iff {s s' : List UInt8} :
    skipWhitespaces s = s' ↔ Blanks s s' ∧ Unled s' :=
  blanks_and_unled_iff.symm

/-- Only blanks are skipped. -/
theorem blanks_skipWhitespaces (s : List UInt8) : Blanks s (skipWhitespaces s) :=
  (skipWhitespaces_eq_iff.mp rfl).1

/-- No blank is left in front. -/
theorem unled_skipWhitespaces (s : List UInt8) : Unled (skipWhitespaces s) :=
  (skipWhitespaces_eq_iff.mp rfl).2

/-- Without a blank in front nothing is skipped. -/
theorem skipWhitespaces_of_unled {s : List UInt8} (h : Unled s) : skipWhitespaces s = s :=
  skipWhitespaces_eq_iff.mpr ⟨Blanks.refl s, h⟩

/-- Skipping makes the text no longer. -/
theorem length_skipWhitespaces_le (s : List UInt8) : (skipWhitespaces s).length ≤ s.length :=
  (List.dropWhile_suffix _).length_le

/-- Blanks before a place that is not blank, seen from a place that is not blank either. -/
theorem eq_of_blanks {s s' : List UInt8} (h : Blanks s s') (hs : Unled s) (hs' : Unled s') :
    s' = s :=
  (skipWhitespaces_eq_iff.mpr ⟨h, hs'⟩).symm.trans (skipWhitespaces_of_unled hs)

/-- A cursor that points at a character. -/
theorem eq_cons_of_deref {s : List UInt8} {c : UInt8} (h : deref s = c) (hc : c ≠ 0) :
    s = c :: s.drop 1 := by
  cases s with
  | nil => exact absurd h.symm hc
  | cons d t => rw [← h]; rfl

/-! ## Loops over parts -/

/-- Every part was let in by a test that sees the parts before it. -/
def Adds {α : Type} (ok : List α → α → Prop) : List α → List α → Prop
  | _, [] => True
  | out, a :: new => ok out a ∧ Adds ok (out ++ [a]) new

section Loops

variable {α : Type} {part : List α → List UInt8 → Option (List α × List UInt8)}
  {ok : List α → α → Prop} {R : List UInt8 → α → List UInt8 → Prop}

/-- A function that reads one part: where the part starts, it adds exactly the parts that a
relation reads and a test lets in. -/
structure ReadsPart (part : List α → List UInt8 → Option (List α × List UInt8))
    (ok : List α → α → Prop) (R : List UInt8 → α → List UInt8 → Prop) : Prop where
  eq_some_iff {out out' : List α} {s s' : List UInt8} (hs : Unled s) :
    part out s = some (out', s') ↔ ∃ a, out' = out ++ [a] ∧ ok out a ∧ R s a s'
  length_le {out : List α} {s : List UInt8} {p : List α × List UInt8}
    (h : part out s = some p) : p.2.length ≤ s.length
  unled {s s' : List UInt8} {a : α} (h : R s a s') : Unled s
  ne_nil {s s' : List UInt8} {a : α} (h : R s a s') : s ≠ []

/-- A scan over blanks stops before the first part. -/
theorem ReadsPart.separated_skip (hpart : ReadsPart part ok R) {s rest : List UInt8}
    {parts : List α} (h : Separated R s parts rest) :
    Separated R (skipWhitespaces s) parts rest := by
  cases h with
  | last hbefore ha hafter =>
    rw [skipWhitespaces_eq_iff.mpr ⟨hbefore, hpart.unled ha⟩]
    exact .last (Blanks.refl _) ha hafter
  | more hbefore ha hafter h =>
    rw [skipWhitespaces_eq_iff.mpr ⟨hbefore, hpart.unled ha⟩]
    exact .more (Blanks.refl _) ha hafter h

/-- A loop stops at the end of the text or at a place that is not blank. -/
theorem parseLoop_unled {fuel : Nat} {out : List α} {s : List UInt8} {p : List α × List UInt8}
    (h : parseLoop part fuel out s = some p) : Unled p.2 := by
  induction fuel generalizing out s with
  | zero => cases h
  | succ fuel ih =>
    rw [parseLoop] at h
    split at h
    · rename_i hs
      obtain rfl := Option.some.inj h
      simp [Unled, hs]
    · obtain ⟨q, hq, h⟩ := Option.bind_eq_some_iff.mp h
      dsimp only at h
      split at h
      · obtain rfl := Option.some.inj h
        exact unled_skipWhitespaces q.2
      · exact ih h

/-- The loop reads exactly the parts with commas between, up to the closing byte. -/
theorem parseLoop_eq_some_iff (hpart : ReadsPart part ok R) {closing : UInt8}
    (hblank : ¬IsBlank closing) (hcomma : closing ≠ comma) {fuel : Nat} {out out' : List α}
    {s rest : List UInt8} (hs : Unled s) (hfuel : s.length < fuel) :
    parseLoop part fuel out s = some (out', closing :: rest) ↔
      ∃ new, out' = out ++ new ∧ Adds ok out new ∧ Separated R s new (closing :: rest) := by
  induction fuel generalizing out s with
  | zero => omega
  | succ fuel ih =>
    rw [parseLoop]
    by_cases hnil : s = []
    · subst hnil
      rw [if_pos rfl]
      refine iff_of_false (by simp) ?_
      rintro ⟨new, -, -, hnew⟩
      have hempty {s₁ : List UInt8} (h : Blanks [] s₁) : s₁ = [] := by
        obtain ⟨w, hw, -⟩ := h
        exact (List.append_eq_nil_iff.mp hw.symm).2
      cases hnew with
      | last hbefore ha _ => exact hpart.ne_nil ha (hempty hbefore)
      | more hbefore ha _ _ => exact hpart.ne_nil ha (hempty hbefore)
    · rw [if_neg hnil, Option.bind_eq_bind, Option.bind_eq_some_iff]
      -- the part that is read, and what the loop goes on with
      have hstep {a : α} {s' : List UInt8} (hok : ok out a) (hR : R s a s') :
          part out s = some (out ++ [a], s') := (hpart.eq_some_iff hs).mpr ⟨a, rfl, hok, hR⟩
      have hfront {s₁ s₂ : List UInt8} {a : α} (hbefore : Blanks s s₁) (ha : R s₁ a s₂) :
          R s a s₂ := eq_of_blanks hbefore hs (hpart.unled ha) ▸ ha
      constructor
      · rintro ⟨p, hp, h⟩
        obtain ⟨a, ha, hok, hR⟩ := (hpart.eq_some_iff hs).mp hp
        dsimp only at h
        by_cases hnext : deref (skipWhitespaces p.2) = comma
        · rw [if_neg (not_not.mpr hnext)] at h
          have hcons := eq_cons_of_deref hnext (by decide)
          have hlength := hpart.length_le hp
          have hskip := length_skipWhitespaces_le p.2
          have hshort := length_skipWhitespaces_le ((skipWhitespaces p.2).drop 1)
          have hdrop : ((skipWhitespaces p.2).drop 1).length + 1 = (skipWhitespaces p.2).length :=
            (congrArg List.length hcons).symm
          obtain ⟨new, rfl, hadds, hnew⟩ := (ih (unled_skipWhitespaces _) (by omega)).mp h
          refine ⟨a :: new, by rw [ha, List.append_assoc, List.singleton_append],
            ⟨hok, ha ▸ hadds⟩, .more (Blanks.refl s) hR ?_
            (hnew.blanks (blanks_skipWhitespaces _))⟩
          rw [← hcons]
          exact blanks_skipWhitespaces p.2
        · rw [if_pos hnext, Option.some.injEq, Prod.mk.injEq] at h
          refine ⟨[a], by rw [← h.1, ha], ⟨hok, trivial⟩, .last (Blanks.refl s) hR ?_⟩
          rw [← h.2]
          exact blanks_skipWhitespaces p.2
      · rintro ⟨new, rfl, hadds, hnew⟩
        cases hnew with
        | @last _ _ s₂ _ a hbefore ha hafter =>
          refine ⟨_, hstep hadds.1 (hfront hbefore ha), ?_⟩
          have hskip : skipWhitespaces s₂ = closing :: rest :=
            skipWhitespaces_eq_iff.mpr ⟨hafter, unled_cons hblank⟩
          dsimp only
          rw [hskip]
          exact if_pos hcomma
        | @more _ _ s₂ s₃ _ a new hbefore ha hafter h =>
          have hread := hstep hadds.1 (hfront hbefore ha)
          refine ⟨_, hread, ?_⟩
          have hskip : skipWhitespaces s₂ = comma :: s₃ :=
            skipWhitespaces_eq_iff.mpr ⟨hafter, unled_cons (by decide)⟩
          have hlength := hpart.length_le hread
          have hshort := length_skipWhitespaces_le s₂
          rw [hskip, List.length_cons] at hshort
          have hrest := length_skipWhitespaces_le s₃
          dsimp only
          rw [hskip]
          refine (if_neg (not_not.mpr rfl)).trans ((ih (unled_skipWhitespaces s₃) (by
            dsimp only at hlength
            omega)).mpr ⟨new, by simp, hadds.2, hpart.separated_skip h⟩)

/-- What stands between the opening and the closing sign. -/
theorem parseParts_eq_some_iff (hpart : ReadsPart part ok R) {opening closing : UInt8}
    (hopening : opening ≠ 0) (hclosing : closing ≠ 0) (hblank : ¬IsBlank closing)
    (hcomma : closing ≠ comma) {s rest : List UInt8} {out : List α}
    (hfirst : ∀ t s' a, ¬R (closing :: t) a s') :
    parseParts opening closing part s = some (out, rest) ↔
      Adds ok [] out ∧ Sequence R opening closing s out rest := by
  by_cases hopen : deref s = opening
  · have hcons := eq_cons_of_deref hopen hopening
    rw [parseParts, if_neg (not_not.mpr hopen)]
    generalize s.drop 1 = t at hcons
    subst hcons
    have hunled := unled_skipWhitespaces t
    dsimp only
    by_cases hclose : deref (skipWhitespaces t) = closing
    · rw [if_pos hclose]
      have hskip := eq_cons_of_deref hclose hclosing
      constructor
      · intro h
        obtain ⟨rfl, rfl⟩ := Prod.mk.inj (Option.some.inj h)
        exact ⟨trivial, .empty (hskip ▸ blanks_skipWhitespaces t)⟩
      · rintro ⟨-, hseq⟩
        cases hseq with
        | empty h =>
          rw [skipWhitespaces_eq_iff.mpr ⟨h, unled_cons hblank⟩, List.drop_one, List.tail_cons]
        | parts h =>
          have hfront := hpart.separated_skip h
          rw [hskip] at hfront
          have hclosed : Unled (closing :: (skipWhitespaces t).drop 1) := unled_cons hblank
          cases hfront with
          | last hbefore ha _ =>
            exact absurd (eq_of_blanks hbefore hclosed (hpart.unled ha) ▸ ha) (hfirst _ _ _)
          | more hbefore ha _ _ =>
            exact absurd (eq_of_blanks hbefore hclosed (hpart.unled ha) ▸ ha) (hfirst _ _ _)
    · rw [if_neg hclose, Option.bind_eq_bind, Option.bind_eq_some_iff]
      have hloop {out : List α} {rest : List UInt8} :
          parseLoop part ((skipWhitespaces t).length + 1) [] (skipWhitespaces t) =
              some (out, closing :: rest) ↔
            ∃ new, out = [] ++ new ∧ Adds ok [] new ∧
              Separated R (skipWhitespaces t) new (closing :: rest) :=
        parseLoop_eq_some_iff hpart hblank hcomma hunled (Nat.lt_succ_self _)
      constructor
      · rintro ⟨p, hp, h⟩
        rw [skipWhitespaces_of_unled (parseLoop_unled hp)] at h
        split at h
        · cases h
        · rename_i hend
          obtain ⟨hend, -⟩ := not_or.mp hend
          obtain ⟨rfl, rfl⟩ := Prod.mk.inj (Option.some.inj h)
          have hp' : p = (p.1, closing :: p.2.drop 1) :=
            Prod.ext rfl (eq_cons_of_deref (not_not.mp hend) hclosing)
          rw [hp'] at hp
          obtain ⟨new, hnew, hadds, hsep⟩ := hloop.mp hp
          rw [List.nil_append] at hnew
          rw [hnew]
          exact ⟨hadds, .parts (hsep.blanks (blanks_skipWhitespaces t))⟩
      · rintro ⟨hadds, hseq⟩
        cases hseq with
        | empty h =>
          exact absurd (by rw [skipWhitespaces_eq_iff.mpr ⟨h, unled_cons hblank⟩]; rfl) hclose
        | parts h =>
          refine ⟨_, hloop.mpr ⟨out, rfl, hadds, hpart.separated_skip h⟩, ?_⟩
          have hlength : out.length ≠ 0 := by
            cases h with
            | last _ _ _ => simp
            | more _ _ _ _ => simp
          rw [skipWhitespaces_of_unled (unled_cons hblank)]
          exact if_neg (not_or.mpr ⟨not_not.mpr rfl, hlength⟩)
  · rw [parseParts, if_pos hopen]
    refine iff_of_false (by simp) ?_
    rintro ⟨-, hseq⟩
    cases hseq with
    | empty h => exact hopen rfl
    | parts h => exact hopen rfl

end Loops

section Lengths

variable {α : Type} {part : List α → List UInt8 → Option (List α × List UInt8)}

/-- The loop leaves no more text than it was given. -/
theorem parseLoop_length_le
    (h : ∀ out s p, part out s = some p → p.2.length ≤ s.length) {fuel : Nat} {out : List α}
    {s : List UInt8} {p : List α × List UInt8} (hp : parseLoop part fuel out s = some p) :
    p.2.length ≤ s.length := by
  induction fuel generalizing out s with
  | zero => cases hp
  | succ fuel ih =>
    rw [parseLoop] at hp
    split at hp
    · obtain rfl := Option.some.inj hp
      exact le_refl _
    · obtain ⟨q, hq, hp⟩ := Option.bind_eq_some_iff.mp hp
      have hread := h _ _ _ hq
      have hskip := length_skipWhitespaces_le q.2
      dsimp only at hp
      split at hp
      · obtain rfl := Option.some.inj hp
        exact hskip.trans hread
      · have hrest := ih hp
        have hshort := length_skipWhitespaces_le ((skipWhitespaces q.2).drop 1)
        rw [List.length_drop] at hshort
        omega

/-- Nor does the reader with its brackets. -/
theorem parseParts_length_le
    (h : ∀ out s p, part out s = some p → p.2.length ≤ s.length) {opening closing : UInt8}
    {s : List UInt8} {p : List α × List UInt8}
    (hp : parseParts opening closing part s = some p) : p.2.length ≤ s.length := by
  rw [parseParts] at hp
  split at hp
  · cases hp
  · have hskip := length_skipWhitespaces_le (s.drop 1)
    rw [List.length_drop] at hskip
    dsimp only at hp
    split at hp
    · obtain rfl := Option.some.inj hp
      rw [List.length_drop]
      omega
    · obtain ⟨q, hq, hp⟩ := Option.bind_eq_some_iff.mp hp
      have hloop := parseLoop_length_le h hq
      have hend := length_skipWhitespaces_le q.2
      split at hp
      · cases hp
      · obtain rfl := Option.some.inj hp
        rw [List.length_drop]
        omega

end Lengths

/-! ## Values -/

/-- The names of members that parson keeps apart: none is too long, and a name that is not empty
comes once. -/
def UniqueNames (members : Members ν) : Prop :=
  (∀ m ∈ members, m.1.chars.length ≤ stringNameMax) ∧
    ((names members).filter fun name => name.chars ≠ []).Nodup

/-- What parson keeps of a value: the members of an object are kept apart, and a number is
valid. -/
def NumberFormat.Sound (fmt : NumberFormat ν) : JsonTree ν → Prop
  | .obj members => UniqueNames members
  | .num x => fmt.isInvalid x = false
  | _ => True

/-- A number at the front of a text, as {lit}`parse_value` comes to it. -/
def NumberFormat.Number (fmt : NumberFormat ν) (s : List UInt8) (x : ν) (rest : List UInt8) :
    Prop :=
  startsNumber (deref s) ∧ parseNumberValue fmt s = some (.num x, rest)

/-- A text whose first byte is no blank does not start with one. -/
theorem unled_of_deref {s : List UInt8} (h : ¬IsBlank (deref s)) : Unled s := by
  cases s with
  | nil => simp [Unled]
  | cons c t => exact unled_cons h

/-- A text with a first byte is not empty. -/
theorem ne_nil_of_deref {s : List UInt8} {c : UInt8} (h : deref s = c) (hc : c ≠ 0) : s ≠ [] := by
  rintro rfl
  exact hc h.symm

/-- A character that starts a number starts nothing else. -/
theorem startsNumber_apart {c : UInt8} (h : startsNumber c) :
    ¬IsBlank c ∧ c ≠ 0 ∧ c ≠ lbrace ∧ c ≠ lbrack ∧ c ≠ quote ∧ c ≠ 0x66 ∧ c ≠ 0x74 ∧
      c ≠ rbrack := by
  have hall : ∀ n : Fin 256, startsNumber (UInt8.ofNat n) → ¬IsBlank (UInt8.ofNat n) ∧
      UInt8.ofNat n ≠ 0 ∧ UInt8.ofNat n ≠ lbrace ∧ UInt8.ofNat n ≠ lbrack ∧
      UInt8.ofNat n ≠ quote ∧ UInt8.ofNat n ≠ 0x66 ∧ UInt8.ofNat n ≠ 0x74 ∧
      UInt8.ofNat n ≠ rbrack := by decide +kernel
  simpa using hall ⟨c.toNat, c.toNat_lt⟩ (by simpa using h)

/-- What the loop asks of the front of its first part. -/
theorem front_cons {c : UInt8} {s : List UInt8} (h : ¬IsBlank c ∧ c ≠ rbrack) :
    Unled (c :: s) ∧ c :: s ≠ [] ∧ deref (c :: s) ≠ rbrack :=
  ⟨unled_cons h.1, List.cons_ne_nil c s, h.2⟩

/-- A value does not start with a blank or a closing bracket. -/
theorem reads_front {fmt : NumberFormat ν} {s rest : List UInt8} {v : JsonTree ν}
    (h : Reads fmt.Number s v rest) : Unled s ∧ s ≠ [] ∧ deref s ≠ rbrack := by
  cases h with
  | null => exact front_cons (by decide)
  | bool b =>
    cases b with
    | false => exact front_cons (by decide)
    | true => exact front_cons (by decide)
  | num h =>
    obtain ⟨hblank, hzero, -, -, -, -, -, hclose⟩ := startsNumber_apart h.1
    exact ⟨unled_of_deref hblank, ne_nil_of_deref rfl hzero, hclose⟩
  | str h => exact front_cons (by decide)
  | arr h =>
    cases h with
    | empty h => exact front_cons (by decide)
    | parts h => exact front_cons (by decide)
  | obj h =>
    cases h with
    | empty h => exact front_cons (by decide)
    | parts h => exact front_cons (by decide)

/-- A function that parses the values with a property. -/
structure ParsesValues (fmt : NumberFormat ν)
    (parse : List UInt8 → Option (JsonTree ν × List UInt8)) (p : JsonTree ν → Prop) : Prop where
  eq_some_iff {s rest : List UInt8} {v : JsonTree ν} :
    parse s = some (v, rest) ↔ p v ∧ ∃ s', Blanks s s' ∧ Reads fmt.Number s' v rest
  length_le {s : List UInt8} {r : JsonTree ν × List UInt8} (h : parse s = some r) :
    r.2.length ≤ s.length

section Parts

variable {fmt : NumberFormat ν} {parse : List UInt8 → Option (JsonTree ν × List UInt8)}
  {p : JsonTree ν → Prop}

/-- The reader of an item reads a value. -/
theorem readsPart_parseItem (h : ParsesValues fmt parse p) :
    ReadsPart (parseItem parse) (fun _ v => p v) (Reads fmt.Number) where
  eq_some_iff {out out' s s'} hs := by
    constructor
    · intro hread
      obtain ⟨r, hr, hout⟩ := Option.map_eq_some_iff.mp hread
      obtain ⟨rfl, rfl⟩ := Prod.mk.inj hout
      obtain ⟨hp, s₁, hblanks, hR⟩ := h.eq_some_iff.mp hr
      exact ⟨r.1, rfl, hp, eq_of_blanks hblanks hs (reads_front hR).1 ▸ hR⟩
    · rintro ⟨v, rfl, hp, hR⟩
      exact Option.map_eq_some_iff.mpr
        ⟨(v, s'), h.eq_some_iff.mpr ⟨hp, s, Blanks.refl s, hR⟩, rfl⟩
  length_le hread := by
    obtain ⟨r, hr, rfl⟩ := Option.map_eq_some_iff.mp hread
    exact h.length_le hr
  unled hR := (reads_front hR).1
  ne_nil hR := (reads_front hR).2.1

/-- A name is looked up among the names that are there. -/
theorem jsonObjectAdd_eq_some_iff {members members' : Members ν} {name : NulString}
    {value : JsonTree ν} (hname : name.chars.length ≤ stringNameMax) :
    jsonObjectAdd members name value = some members' ↔
      members' = members ++ [(name, value)] ∧ (name.chars ≠ [] → name ∉ names members) := by
  have hlen : NulString.strnlenS (some name) stringNameMax = name.chars.length := by
    rw [NulString.strnlenS_some, min_eq_left hname]
  have hfound : (jsonObjectGetnValue members name name.chars.length).isSome ↔
      name.chars ≠ [] ∧ name ∈ names members := by
    simp only [jsonObjectGetnValue, Option.isSome_map, List.find?_isSome, decide_eq_true_eq, names,
      List.mem_map, ne_eq, List.length_eq_zero_iff]
    constructor
    · rintro ⟨m, hm, -, hne, rfl⟩
      exact ⟨hne, m, hm, rfl⟩
    · rintro ⟨hne, m, hm, rfl⟩
      exact ⟨m, hm, hlen, hne, rfl⟩
  rw [jsonObjectAdd, jsonObjectAddn, hlen, NulString.take_of_length_le (le_refl _)]
  by_cases hmem : name.chars ≠ [] ∧ name ∈ names members
  · rw [if_pos (hfound.mpr hmem)]
    exact iff_of_false (by simp) fun h => h.2 hmem.1 hmem.2
  · rw [if_neg (mt hfound.mp hmem), Option.some.injEq, eq_comm]
    exact (and_iff_left fun hne h => hmem ⟨hne, h⟩).symm

/-- The name that is read has all the characters of the text. -/
theorem keyLength_iff {chars : List UInt8} :
    chars.length = NulString.strnlenS (some (NulString.ofBytes chars)) stringNameMax ↔
      (NulString.ofBytes chars).chars = chars ∧ chars.length ≤ stringNameMax := by
  have hfront : (NulString.ofBytes chars).chars <+: chars := List.takeWhile_prefix _
  rw [NulString.strnlenS_some]
  constructor
  · intro h
    have hlength : chars.length ≤ (NulString.ofBytes chars).chars.length := by omega
    exact ⟨hfront.eq_of_length_le hlength, by omega⟩
  · rintro ⟨heq, hle⟩
    rw [heq, min_eq_left hle]

/-- What a member that was read looks like: its name, the colon and its value. -/
theorem parseMember_eq_some {members : Members ν} {s : List UInt8} {r : Members ν × List UInt8}
    (h : parseMember parse members s = some r) :
    ∃ chars s₁ s₂ v, getQuotedString s = some (chars, s₁) ∧
      (NulString.ofBytes chars).chars = chars ∧ chars.length ≤ stringNameMax ∧
      Blanks s₁ (colon :: s₂) ∧ parse s₂ = some (v, r.2) ∧
      jsonObjectAdd members (NulString.ofBytes chars) v = some r.1 := by
  obtain ⟨key, hkey, h⟩ := Option.bind_eq_some_iff.mp h
  dsimp only at h
  split at h
  · cases h
  · rename_i hlength
    obtain ⟨hchars, hle⟩ := keyLength_iff.mp (not_not.mp hlength)
    split at h
    · cases h
    · rename_i hcolon
      have hcons := eq_cons_of_deref (not_not.mp hcolon) (by decide)
      obtain ⟨value, hvalue, h⟩ := Option.bind_eq_some_iff.mp h
      obtain ⟨members', hadd, h⟩ := Option.bind_eq_some_iff.mp h
      obtain rfl := Option.some.inj h
      exact ⟨key.1, key.2, (skipWhitespaces key.2).drop 1, value.1, hkey, hchars, hle,
        hcons ▸ blanks_skipWhitespaces key.2, hvalue, hadd⟩

/-- The reader of a member reads a named value, with a name that is short and new. -/
theorem readsPart_parseMember (h : ParsesValues fmt parse p) :
    ReadsPart (parseMember parse)
      (fun members m => p m.2 ∧ m.1.chars.length ≤ stringNameMax ∧
        (m.1.chars ≠ [] → m.1 ∉ names members))
      (Named (Reads fmt.Number)) where
  eq_some_iff {out out' s s'} hs := by
    constructor
    · intro hread
      obtain ⟨chars, s₁, s₂, v, hkey, hchars, hle, hcolon, hvalue, hadd⟩ :=
        parseMember_eq_some hread
      obtain ⟨t, rfl, hquoted⟩ := getQuotedString_eq_some_iff.mp hkey
      obtain ⟨hp, s₃, hblank, hR⟩ := h.eq_some_iff.mp hvalue
      obtain ⟨rfl, hnew⟩ := (jsonObjectAdd_eq_some_iff (by rwa [hchars])).mp hadd
      exact ⟨(NulString.ofBytes chars, v), rfl, ⟨hp, by rwa [hchars], hnew⟩,
        .mk (by rwa [hchars]) hcolon hblank hR⟩
    · rintro ⟨⟨name, v⟩, rfl, ⟨hp, hle, hnew⟩, hnamed⟩
      cases hnamed with
      | @mk t s₁ s₂ s₃ _ _ _ hname hcolon hblank hR =>
        have hof : NulString.ofBytes name.chars = name :=
          NulString.ext (NulString.ofBytes_chars name.noNul)
        have hskip : skipWhitespaces s₁ = colon :: s₂ :=
          skipWhitespaces_eq_iff.mpr ⟨hcolon, unled_cons (by decide)⟩
        have hkey : name.chars.length =
            NulString.strnlenS (some (NulString.ofBytes name.chars)) stringNameMax :=
          keyLength_iff.mpr ⟨congrArg NulString.chars hof, hle⟩
        have hvalue := h.eq_some_iff.mpr ⟨hp, s₃, hblank, hR⟩
        have hadd := (jsonObjectAdd_eq_some_iff hle).mpr
          (show out ++ [(name, v)] = out ++ [(name, v)] ∧ _ from ⟨rfl, hnew⟩)
        rw [parseMember, getQuotedString_eq_some_iff.mpr ⟨t, rfl, hname⟩, Option.bind_eq_bind,
          Option.bind_some]
        dsimp only
        rw [if_neg (not_not.mpr hkey), hskip,
          if_neg (not_not.mpr (show deref (colon :: s₂) = colon from rfl)), List.drop_succ_cons,
          List.drop_zero, hvalue, hof]
        exact (congrArg (Option.bind · fun members => some (members, s')) hadd)
  length_le {out s r} hread := by
    obtain ⟨chars, s₁, s₂, v, hkey, -, -, hcolon, hvalue, -⟩ := parseMember_eq_some hread
    have hquoted := getQuotedString_length hkey
    have hblanks := hcolon.length_le
    have hrest := h.length_le hvalue
    rw [List.length_cons] at hblanks
    dsimp only at hrest
    omega
  unled hR := by
    cases hR with
    | mk _ _ _ _ => exact unled_cons (by decide)
  ne_nil hR := by
    cases hR with
    | mk _ _ _ _ => exact List.cons_ne_nil _ _

/-- Every list of items may be added. -/
theorem adds_items {out items : List (JsonTree ν)} :
    Adds (fun _ v => p v) out items ↔ ∀ v ∈ items, p v := by
  induction items generalizing out with
  | nil => simp [Adds]
  | cons v items ih => rw [Adds, ih, List.forall_mem_cons]

/-- Names are unique when the first one is not met again and the others are unique. -/
theorem uniqueNames_cons {m : NulString × JsonTree ν} {members : Members ν} :
    UniqueNames (m :: members) ↔ m.1.chars.length ≤ stringNameMax ∧ UniqueNames members ∧
      ∀ m' ∈ members, m'.1.chars ≠ [] → m'.1 ≠ m.1 := by
  have hcomes : m.1.chars ≠ [] → (m.1 ∉ (names members).filter (fun name => name.chars ≠ []) ↔
      ∀ m' ∈ members, m'.1.chars ≠ [] → m'.1 ≠ m.1) := by
    intro hne
    rw [List.mem_filter, names, List.mem_map]
    constructor
    · rintro h m' hm' - heq
      exact h ⟨⟨m', hm', heq⟩, by simpa using hne⟩
    · rintro h ⟨⟨m', hm', heq⟩, -⟩
      exact h m' hm' (heq ▸ hne) heq
  rw [UniqueNames, UniqueNames, List.forall_mem_cons, names, List.map_cons, List.filter_cons]
  by_cases hne : m.1.chars ≠ []
  · rw [if_pos (by simpa using hne), List.nodup_cons, show List.map Prod.fst members =
      names members from rfl, hcomes hne]
    tauto
  · rw [if_neg (by simpa using hne)]
    have hother : ∀ m' ∈ members, m'.1.chars ≠ [] → m'.1 ≠ m.1 :=
      fun m' _ hne' heq => hne (heq ▸ hne')
    tauto

/-- Members that were let in one after the other. -/
theorem adds_members {out members : Members ν} :
    Adds (fun members m => p m.2 ∧ m.1.chars.length ≤ stringNameMax ∧
        (m.1.chars ≠ [] → m.1 ∉ names members)) out members ↔
      (∀ m ∈ members, p m.2) ∧ UniqueNames members ∧
        ∀ m ∈ members, m.1.chars ≠ [] → m.1 ∉ names out := by
  induction members generalizing out with
  | nil => simp [Adds, UniqueNames, names]
  | cons m members ih =>
    have hnames (name : NulString) : name ∉ names (out ++ [m]) ↔ name ∉ names out ∧ name ≠ m.1 := by
      simp [names]
    rw [Adds, ih, uniqueNames_cons, List.forall_mem_cons, List.forall_mem_cons]
    simp only [hnames]
    constructor
    · rintro ⟨⟨hp, hle, hnew⟩, hps, hunique, hrest⟩
      exact ⟨⟨hp, hps⟩, ⟨hle, hunique, fun m' hm' hne => (hrest m' hm' hne).2⟩, hnew,
        fun m' hm' hne => (hrest m' hm' hne).1⟩
    · rintro ⟨⟨hp, hps⟩, ⟨hle, hunique, hother⟩, hnew, hrest⟩
      exact ⟨⟨hp, hle, hnew⟩, hps, hunique, fun m' hm' hne =>
        ⟨hrest m' hm' hne, hother m' hm' hne⟩⟩

end Parts

/-! ## The grammar is what is accepted -/

/-- What is read as a number is one that is valid. -/
theorem parseNumberValue_num {fmt : NumberFormat ν} {s : List UInt8}
    {r : JsonTree ν × List UInt8} (h : parseNumberValue fmt s = some r) :
    (∃ x, r.1 = .num x ∧ fmt.isInvalid x = false) ∧ r.2.length ≤ s.length := by
  rw [parseNumberValue] at h
  split at h
  · cases h
  · split at h
    · cases h
    · obtain ⟨v, hv, rfl⟩ := Option.map_eq_some_iff.mp h
      rw [jsonValueInitNumber] at hv
      split at hv
      · cases hv
      · rename_i hvalid
        exact ⟨⟨_, (Option.some.inj hv).symm, by simpa using hvalid⟩, by simp⟩

/-- The values that are accepted when there is room for nesting. -/
def NumberFormat.Fits (fmt : NumberFormat ν) (room : Nat) (v : JsonTree ν) : Prop :=
  v.height < room ∧ Everywhere fmt.Sound v

/-- An array fits when its items do with one level less. -/
theorem fits_arr {fmt : NumberFormat ν} {room : Nat} {items : List (JsonTree ν)} :
    fmt.Fits (room + 1) (.arr items) ↔ ∀ v ∈ items, fmt.Fits room v := by
  rw [NumberFormat.Fits, height, itemsHeight_lt_iff, Everywhere, itemsEverywhere_iff]
  simp only [NumberFormat.Sound, true_and, NumberFormat.Fits]
  exact forall₂_and.symm

/-- An object fits when its values do with one level less and its names are unique. -/
theorem fits_obj {fmt : NumberFormat ν} {room : Nat} {members : Members ν} :
    fmt.Fits (room + 1) (.obj members) ↔
      (∀ m ∈ members, fmt.Fits room m.2) ∧ UniqueNames members := by
  rw [NumberFormat.Fits, height, membersHeight_lt_iff, Everywhere, membersEverywhere_iff]
  simp only [NumberFormat.Sound, NumberFormat.Fits]
  constructor
  · rintro ⟨hheight, hunique, hparts⟩
    exact ⟨fun m hm => ⟨hheight m hm, hparts m hm⟩, hunique⟩
  · rintro ⟨hparts, hunique⟩
    exact ⟨fun m hm => (hparts m hm).1, hunique, fun m hm => (hparts m hm).2⟩

/-- What {lit}`parse_value` makes of a text without blanks at its front, by its first
character. -/
theorem parseValue_succ (fmt : NumberFormat ν) (room : Nat) {s : List UInt8} (hs : Unled s) :
    parseValue fmt (room + 1) s =
      if deref s = lbrace then parseObjectValue (parseValue fmt room) s
      else if deref s = lbrack then parseArrayValue (parseValue fmt room) s
      else if deref s = quote then parseStringValue s
      else if deref s = 0x66 ∨ deref s = 0x74 then parseBooleanValue s
      else if startsNumber (deref s) then parseNumberValue fmt s
      else if deref s = 0x6e then parseNullValue s
      else none := by
  rw [parseValue, skipWhitespaces_of_unled hs]

section Cases

variable {fmt : NumberFormat ν} {parse : List UInt8 → Option (JsonTree ν × List UInt8)}
  {room : Nat} {s rest : List UInt8} {v : JsonTree ν}

/-- The reader of an array reads exactly the arrays that fit. -/
theorem parseArrayValue_eq_some_iff (h : ParsesValues fmt parse (fmt.Fits room)) :
    parseArrayValue parse s = some (v, rest) ↔ fmt.Fits (room + 1) v ∧
      ∃ items, v = .arr items ∧ Sequence (Reads fmt.Number) lbrack rbrack s items rest := by
  have hparts {items : List (JsonTree ν)} :
      parseParts lbrack rbrack (parseItem parse) s = some (items, rest) ↔
        Adds (fun _ v => fmt.Fits room v) [] items ∧
          Sequence (Reads fmt.Number) lbrack rbrack s items rest :=
    parseParts_eq_some_iff (readsPart_parseItem h) (by decide) (by decide) (by decide) (by decide)
      fun t s' a ha => (reads_front ha).2.2 rfl
  rw [parseArrayValue, Option.map_eq_some_iff]
  constructor
  · rintro ⟨p, hp, hv⟩
    obtain ⟨rfl, rfl⟩ := Prod.mk.inj hv
    obtain ⟨hadds, hseq⟩ := hparts.mp hp
    exact ⟨fits_arr.mpr (adds_items.mp hadds), p.1, rfl, hseq⟩
  · rintro ⟨hfits, items, rfl, hseq⟩
    exact ⟨(items, rest), hparts.mpr ⟨adds_items.mpr (fits_arr.mp hfits), hseq⟩, rfl⟩

/-- The reader of an object reads exactly the objects that fit. -/
theorem parseObjectValue_eq_some_iff (h : ParsesValues fmt parse (fmt.Fits room)) :
    parseObjectValue parse s = some (v, rest) ↔ fmt.Fits (room + 1) v ∧ ∃ members,
      v = .obj members ∧ Sequence (Named (Reads fmt.Number)) lbrace rbrace s members rest := by
  have hfirst (t s' : List UInt8) (m : NulString × JsonTree ν) :
      ¬Named (Reads fmt.Number) (rbrace :: t) m s' := by
    intro hm
    cases hm
  have hparts {members : Members ν} :
      parseParts lbrace rbrace (parseMember parse) s = some (members, rest) ↔
        ((∀ m ∈ members, fmt.Fits room m.2) ∧ UniqueNames members) ∧
          Sequence (Named (Reads fmt.Number)) lbrace rbrace s members rest := by
    rw [parseParts_eq_some_iff (readsPart_parseMember h) (by decide) (by decide) (by decide)
      (by decide) hfirst, adds_members]
    simp [names]
  rw [parseObjectValue, Option.map_eq_some_iff]
  constructor
  · rintro ⟨p, hp, hv⟩
    obtain ⟨rfl, rfl⟩ := Prod.mk.inj hv
    obtain ⟨hfits, hseq⟩ := hparts.mp hp
    exact ⟨fits_obj.mpr hfits, p.1, rfl, hseq⟩
  · rintro ⟨hfits, members, rfl, hseq⟩
    exact ⟨(members, rest), hparts.mpr ⟨fits_obj.mp hfits, hseq⟩, rfl⟩

end Cases

/-- The reader of a string reads exactly the quoted texts. -/
theorem parseStringValue_eq_some_iff {s rest : List UInt8} {v : JsonTree ν} :
    parseStringValue s = some (v, rest) ↔
      ∃ t chars, s = quote :: t ∧ v = .str chars ∧ Quoted t chars rest := by
  rw [parseStringValue, Option.map_eq_some_iff]
  constructor
  · rintro ⟨p, hp, hv⟩
    obtain ⟨rfl, rfl⟩ := Prod.mk.inj hv
    obtain ⟨t, rfl, hquoted⟩ := getQuotedString_eq_some_iff.mp hp
    exact ⟨t, p.1, rfl, rfl, hquoted⟩
  · rintro ⟨t, chars, rfl, rfl, hquoted⟩
    exact ⟨(chars, rest), getQuotedString_eq_some_iff.mpr ⟨t, rfl, hquoted⟩, rfl⟩

/-- The reader of a truth value reads exactly the two words. -/
theorem parseBooleanValue_eq_some_iff {s rest : List UInt8} {v : JsonTree ν} :
    parseBooleanValue s = some (v, rest) ↔ ∃ b, v = .bool b ∧ s = boolText b ++ rest := by
  rw [parseBooleanValue]
  constructor
  · intro h
    split at h
    · rename_i hpre
      obtain ⟨rfl, rfl⟩ := Prod.mk.inj (Option.some.inj h)
      exact ⟨true, rfl, (List.prefix_iff_eq_append.mp hpre).symm⟩
    · split at h
      · rename_i hpre
        obtain ⟨rfl, rfl⟩ := Prod.mk.inj (Option.some.inj h)
        exact ⟨false, rfl, (List.prefix_iff_eq_append.mp hpre).symm⟩
      · cases h
  · rintro ⟨b, rfl, rfl⟩
    cases b with
    | true => rw [if_pos (List.prefix_append _ _), List.drop_left]
    | false =>
      rw [if_neg, if_pos (List.prefix_append _ _), List.drop_left]
      rintro ⟨t, ht⟩
      simp [boolText] at ht

/-- The reader of null reads exactly its word. -/
theorem parseNullValue_eq_some_iff {s rest : List UInt8} {v : JsonTree ν} :
    parseNullValue s = some (v, rest) ↔ v = .null ∧ s = nullText ++ rest := by
  rw [parseNullValue]
  constructor
  · intro h
    split at h
    · rename_i hpre
      obtain ⟨rfl, rfl⟩ := Prod.mk.inj (Option.some.inj h)
      exact ⟨rfl, (List.prefix_iff_eq_append.mp hpre).symm⟩
    · cases h
  · rintro ⟨rfl, rfl⟩
    rw [if_pos (List.prefix_append _ _), List.drop_left]

/-- A value without parts fits when there is any room. -/
theorem fits_leaf {fmt : NumberFormat ν} {room : Nat} {v : JsonTree ν} (hheight : v.height = 0)
    (hv : Everywhere fmt.Sound v) : fmt.Fits (room + 1) v :=
  ⟨by rw [hheight]; exact Nat.succ_pos room, hv⟩

/-- One level of {lit}`parse_value`, where no blank stands first. -/
theorem parseValue_succ_eq_some_iff {fmt : NumberFormat ν} {room : Nat}
    (h : ParsesValues fmt (parseValue fmt room) (fmt.Fits room)) {s rest : List UInt8}
    {v : JsonTree ν} (hs : Unled s) :
    parseValue fmt (room + 1) s = some (v, rest) ↔
      fmt.Fits (room + 1) v ∧ Reads fmt.Number s v rest := by
  rw [parseValue_succ fmt room hs]
  constructor
  · intro hread
    split at hread
    · obtain ⟨hfits, members, rfl, hseq⟩ := (parseObjectValue_eq_some_iff h).mp hread
      exact ⟨hfits, .obj hseq⟩
    split at hread
    · obtain ⟨hfits, items, rfl, hseq⟩ := (parseArrayValue_eq_some_iff h).mp hread
      exact ⟨hfits, .arr hseq⟩
    split at hread
    · obtain ⟨t, chars, rfl, rfl, hquoted⟩ := parseStringValue_eq_some_iff.mp hread
      exact ⟨fits_leaf rfl trivial, .str hquoted⟩
    split at hread
    · obtain ⟨b, rfl, rfl⟩ := parseBooleanValue_eq_some_iff.mp hread
      exact ⟨fits_leaf rfl trivial, .bool b rest⟩
    split at hread
    · rename_i hstart
      obtain ⟨⟨x, hx, hvalid⟩, -⟩ := parseNumberValue_num hread
      obtain rfl : v = .num x := hx
      exact ⟨fits_leaf rfl hvalid, .num ⟨hstart, hread⟩⟩
    split at hread
    · obtain ⟨rfl, rfl⟩ := parseNullValue_eq_some_iff.mp hread
      exact ⟨fits_leaf rfl trivial, .null rest⟩
    · cases hread
  · rintro ⟨hfits, hR⟩
    cases hR with
    | null =>
      have hfront : deref (nullText ++ rest) = 0x6e := rfl
      rw [hfront, if_neg (by decide), if_neg (by decide), if_neg (by decide), if_neg (by decide),
        if_neg (by decide), if_pos rfl]
      exact parseNullValue_eq_some_iff.mpr ⟨rfl, rfl⟩
    | bool b =>
      have hfront : deref (boolText b ++ rest) = if b then 0x74 else 0x66 := by
        cases b <;> rfl
      have hread : parseBooleanValue (boolText b ++ rest) = some ((.bool b : JsonTree ν), rest) :=
        parseBooleanValue_eq_some_iff.mpr ⟨b, rfl, rfl⟩
      rw [hread, hfront]
      cases b <;> rfl
    | num hx =>
      obtain ⟨-, -, hbrace, hbrack, hquote, hf, ht, -⟩ := startsNumber_apart hx.1
      rw [if_neg hbrace, if_neg hbrack, if_neg hquote, if_neg (not_or.mpr ⟨hf, ht⟩),
        if_pos hx.1]
      exact hx.2
    | @str t chars _ hquoted =>
      have hfront : deref (quote :: t) = quote := rfl
      rw [hfront, if_neg (by decide), if_neg (by decide), if_pos rfl]
      exact parseStringValue_eq_some_iff.mpr ⟨t, chars, rfl, rfl, hquoted⟩
    | arr hseq =>
      have hread := (parseArrayValue_eq_some_iff h).mpr ⟨hfits, _, rfl, hseq⟩
      have hfront : deref s = lbrack := by
        cases hseq <;> rfl
      rw [hfront, if_neg (by decide), if_pos rfl]
      exact hread
    | obj hseq =>
      have hread := (parseObjectValue_eq_some_iff h).mpr ⟨hfits, _, rfl, hseq⟩
      have hfront : deref s = lbrace := by
        cases hseq <;> rfl
      rw [hfront, if_pos rfl]
      exact hread

/-- The parser reads exactly the values that fit, by induction on the room for nesting. -/
theorem parsesValues (fmt : NumberFormat ν) (room : Nat) :
    ParsesValues fmt (parseValue fmt room) (fmt.Fits room) := by
  induction room with
  | zero =>
    refine ⟨fun {s rest v} => iff_of_false (by simp [parseValue]) ?_, fun h => by cases h⟩
    rintro ⟨⟨hheight, -⟩, -⟩
    exact Nat.not_lt_zero _ hheight
  | succ room ih =>
    have hskip (s : List UInt8) :
        parseValue fmt (room + 1) s = parseValue fmt (room + 1) (skipWhitespaces s) := by
      rw [parseValue, parseValue, skipWhitespaces_of_unled (unled_skipWhitespaces s)]
    constructor
    · intro s rest v
      rw [hskip, parseValue_succ_eq_some_iff ih (unled_skipWhitespaces s)]
      refine and_congr_right fun _ => ⟨fun hR => ⟨_, blanks_skipWhitespaces s, hR⟩, ?_⟩
      rintro ⟨s', hblanks, hR⟩
      rwa [skipWhitespaces_eq_iff.mpr ⟨hblanks, (reads_front hR).1⟩]
    · intro s r h
      have hshort := length_skipWhitespaces_le s
      rw [hskip, parseValue_succ fmt room (unled_skipWhitespaces s)] at h
      generalize skipWhitespaces s = t at h hshort
      refine le_trans ?_ hshort
      split at h
      · obtain ⟨p, hp, rfl⟩ := Option.map_eq_some_iff.mp h
        exact parseParts_length_le (fun _ _ _ => (readsPart_parseMember ih).length_le) hp
      split at h
      · obtain ⟨p, hp, rfl⟩ := Option.map_eq_some_iff.mp h
        exact parseParts_length_le (fun _ _ _ => (readsPart_parseItem ih).length_le) hp
      split at h
      · obtain ⟨p, hp, rfl⟩ := Option.map_eq_some_iff.mp h
        exact (getQuotedString_length hp).le
      split at h
      · obtain ⟨b, -, rfl⟩ := parseBooleanValue_eq_some_iff.mp h
        rw [List.length_append]
        omega
      split at h
      · exact (parseNumberValue_num h).2
      split at h
      · obtain ⟨-, rfl⟩ := parseNullValue_eq_some_iff.mp h
        rw [List.length_append]
        omega
      · cases h

/-- With enough room for nesting, the parser accepts the sound values of the grammar, and nothing
else. -/
theorem parseValue_eq_some_iff {fmt : NumberFormat ν} {room : Nat} {s rest : List UInt8}
    {v : JsonTree ν} :
    parseValue fmt room s = some (v, rest) ↔
      (v.height < room ∧ Everywhere fmt.Sound v) ∧
        ∃ s', Blanks s s' ∧ Reads fmt.Number s' v rest :=
  (parsesValues fmt room).eq_some_iff

/-- A text is parsed as its first value, after a byte order mark; the rest is not looked at. -/
theorem jsonParseString_eq_some {fmt : NumberFormat ν} {string : NulString} {v : JsonTree ν} :
    jsonParseString fmt string = some v ↔
      ∃ rest, parseValue fmt (maxNesting + 1) (skipBom string.chars) = some (v, rest) := by
  rw [jsonParseString, Option.map_eq_some_iff]
  constructor
  · rintro ⟨p, hp, rfl⟩
    exact ⟨p.2, hp⟩
  · rintro ⟨rest, h⟩
    exact ⟨(v, rest), h, rfl⟩

/-- What is accepted is not nested too deep, keeps its members apart and has valid numbers. -/
theorem sound_of_jsonParseString {fmt : NumberFormat ν} {string : NulString} {v : JsonTree ν}
    (h : jsonParseString fmt string = some v) :
    v.height ≤ maxNesting ∧ Everywhere fmt.Sound v := by
  rcases jsonParseString_eq_some.mp h with ⟨rest, hparse⟩
  have hfits := (parseValue_eq_some_iff.mp hparse).1
  exact ⟨Nat.le_of_lt_succ hfits.1, hfits.2⟩

/-- A text that is a value of the grammar and no more than that. -/
theorem jsonParseString_of_reads {fmt : NumberFormat ν} {string : NulString} {v : JsonTree ν}
    (hheight : v.height ≤ maxNesting) (hv : Everywhere fmt.Sound v)
    (hbom : skipBom string.chars = string.chars) (h : Reads fmt.Number string.chars v []) :
    jsonParseString fmt string = some v := by
  apply jsonParseString_eq_some.mpr
  refine ⟨[], parseValue_eq_some_iff.mpr ⟨⟨Nat.lt_succ_of_le hheight, hv⟩, _, ?_, h⟩⟩
  rw [hbom]
  exact Blanks.refl _

/-- A text is accepted exactly when, after a byte order mark and blanks, it starts with a value
of the grammar that is not nested too deep, keeps its members apart and has valid numbers. -/
theorem jsonParseString_eq_some_iff (fmt : NumberFormat ν) (string : NulString) (v : JsonTree ν) :
    jsonParseString fmt string = some v ↔
      v.height ≤ maxNesting ∧ Everywhere fmt.Sound v ∧
        ∃ s rest, Blanks (skipBom string.chars) s ∧ Reads fmt.Number s v rest := by
  rw [jsonParseString_eq_some]
  simp only [parseValue_eq_some_iff, Nat.lt_succ_iff]
  constructor
  · rintro ⟨rest, ⟨hheight, hv⟩, s, hblanks, h⟩
    exact ⟨hheight, hv, s, rest, hblanks, h⟩
  · rintro ⟨hheight, hv, s, rest, hblanks, h⟩
    exact ⟨rest, ⟨hheight, hv⟩, s, hblanks, h⟩

end LibAmvp.Parson
