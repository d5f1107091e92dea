import LibAmvp.Lib.Memory
import LibAmvp.Lib.Pieces
import LibAmvp.Lib.NulString

/-!
# Tokens

{lit}`strtok_s` of the safe string stub looks for the next token of a text, writes a terminator
over the delimiter behind it, and holds where it goes on and how much of the text is left.  The
text in the memory is cut into its tokens in place.

Main results:

- Theorem {lit}`strtokS_inFront`: what one call finds, and where it goes on.
- Theorem {lit}`tokens_eq_pieces`: a caller who asks until there is no token gets the pieces of the
  text.
-/

namespace LibAmvp.SafeC

/-! ## The tokenizer -/

/-- {lit}`STRTOK_DELIM_MAX_LEN`. -/
def strtokDelimMaxLen : Nat := 16

/-- The loop over the delimiters: is a character one of them?  Too many are refused. -/
def scanDelims (c : UInt8) : List UInt8 → Nat → Option Bool
  | [], _ => some false
  | _ :: _, 0 => none
  | d :: src, slen + 1 => if c = d then some true else scanDelims c src slen

/-- The scan for the beginning of a token: the token if there is one, where the scan is, and what
is left of {lit}`dlen`.  Without delimiters no token begins. -/
def findStart (m : Memory) (src : List UInt8) : Nat → Nat → Option (Option Nat × Nat × Nat)
  | 0, dest => if m dest = 0 then some (none, dest, 0) else none
  | dlen + 1, dest =>
    if m dest = 0 then some (none, dest, dlen + 1)
    else
      (scanDelims (m dest) src strtokDelimMaxLen).bind fun found =>
        if found ∨ src = [] then findStart m src dlen (dest + 1)
        else some (some dest, dest + 1, dlen)

/-- The scan for the end of a token: the delimiter if there is one, and what is left of
{lit}`dlen`. -/
def findEnd (m : Memory) (src : List UInt8) : Nat → Nat → Option (Option Nat × Nat)
  | 0, dest => if m dest = 0 then some (none, 0) else none
  | dlen + 1, dest =>
    if m dest = 0 then some (none, dlen + 1)
    else
      (scanDelims (m dest) src strtokDelimMaxLen).bind fun found =>
        if found then some (some dest, dlen + 1) else findEnd m src dlen (dest + 1)

/-- What a tokenizer works on: the memory, and what {lit}`dmax` and {lit}`ptr` point to. -/
structure Tokenizer where
  mem : Memory
  dmax : Nat
  ptr : Option Nat

/-- {lit}`strtok_s` with delimiters that are there: the token, and the tokenizer afterwards.
Without a result a NULL pointer is used. -/
def strtokS (t : Tokenizer) (dest : Option Nat) (src : NulString) :
    Option (Option Nat × Tokenizer) :=
  if t.dmax = 0 ∨ t.dmax > NulString.rsizeMaxStr then some (none, t)
  else
    (dest.or t.ptr).map fun dest =>
      match findStart t.mem src.chars t.dmax dest with
      | none => (none, { t with ptr := none })
      | some (none, _, dlen) => (none, { t with dmax := dlen })
      | some (some ptoken, dest, dlen) =>
        match findEnd t.mem src.chars dlen dest with
        | none => (none, { t with ptr := none })
        | some (none, dlen) => (some ptoken, { t with dmax := dlen })
        | some (some place, dlen) =>
          (some ptoken, ⟨Function.update t.mem place 0, dlen - 1, some (place + 1)⟩)

/-- The text at an address, as far as a limit. -/
def textAt (m : Memory) (a : Nat) : Nat → List UInt8
  | 0 => []
  | limit + 1 => if m a = 0 then [] else m a :: textAt m (a + 1) limit

/-- The tokens that a caller reads who asks for the next one until there is none. -/
def tokens (src : NulString) (limit : Nat) :
    Nat → Tokenizer → Option Nat → Option (List (List UInt8))
  | 0, _, _ => none
  | rounds + 1, t, dest =>
    (strtokS t dest src).bind fun r =>
      match r.1 with
      | none => some []
      | some ptoken =>
        (tokens src limit rounds r.2 none).map fun rest => textAt r.2.mem ptoken limit :: rest

/-! ## Texts in memory -/

/-- A text stands at an address, with its terminator behind it. -/
def Text (m : Memory) (a : Nat) : List UInt8 → Prop
  | [] => m a = 0
  | c :: s => m a = c ∧ c ≠ 0 ∧ Text m (a + 1) s

theorem scanDelims_eq (c : UInt8) {src : List UInt8} {slen : Nat} (h : src.length ≤ slen) :
    scanDelims c src slen = some (decide (c ∈ src)) := by
  induction src generalizing slen with
  | nil => simp [scanDelims]
  | cons d src ih =>
    cases slen with
    | zero => exact absurd h (by simp)
    | succ slen =>
      rw [scanDelims, ih (Nat.le_of_succ_le_succ h)]
      by_cases hd : c = d
      · simp [hd]
      · simp [hd]

theorem text_append {m : Memory} {a : Nat} {s t : List UInt8} (h : Text m a (s ++ t)) :
    Text m (a + s.length) t := by
  induction s generalizing a with
  | nil => exact h
  | cons c s ih =>
    have hrest := ih h.2.2
    rwa [Nat.add_right_comm, Nat.add_assoc] at hrest

/-- A text is not touched by a byte in front of it. -/
theorem text_update {m : Memory} {a place : Nat} {s : List UInt8} (h : Text m a s)
    (hplace : place < a) (c : UInt8) : Text (Function.update m place c) a s := by
  induction s generalizing a with
  | nil => exact (Function.update_of_ne (by omega) _ _).trans h
  | cons d s ih =>
    exact ⟨(Function.update_of_ne (by omega) _ _).trans h.1, h.2.1, ih h.2.2 (by omega)⟩

/-- A text that is cut off reads as what stands before the cut. -/
theorem textAt_cut {m : Memory} {a limit : Nat} {s t : List UInt8} (h : Text m a (s ++ t))
    (hlimit : s.length ≤ limit) : textAt (Function.update m (a + s.length) 0) a limit = s := by
  induction s generalizing a limit with
  | nil =>
    cases limit with
    | zero => rfl
    | succ limit => simp [textAt]
  | cons c s ih =>
    cases limit with
    | zero => exact absurd hlimit (by simp)
    | succ limit =>
      have hfirst : Function.update m (a + (c :: s).length) 0 a = c :=
        (Function.update_of_ne (by simp) _ _).trans h.1
      have hrest := ih h.2.2 (Nat.le_of_succ_le_succ hlimit)
      rw [textAt, hfirst, if_neg h.2.1]
      rw [show a + (c :: s).length = a + 1 + s.length by simp; omega, hrest]

theorem textAt_eq {m : Memory} {a limit : Nat} {s : List UInt8} (h : Text m a s)
    (hlimit : s.length ≤ limit) : textAt m a limit = s := by
  induction s generalizing a limit with
  | nil =>
    cases limit with
    | zero => rfl
    | succ limit => rw [textAt, if_pos (show m a = 0 from h)]
  | cons c s ih =>
    cases limit with
    | zero => exact absurd hlimit (by simp)
    | succ limit =>
      rw [textAt, h.1, if_neg h.2.1, ih h.2.2 (Nat.le_of_succ_le_succ hlimit)]

/-- The scan passes over the delimiters. -/
theorem findStart_text {src : List UInt8} (hne : src ≠ []) (hlen : src.length ≤ strtokDelimMaxLen)
    {m : Memory} {a : Nat} {s : List UInt8} (h : Text m a s) :
    (∀ c ∈ s, c ∈ src) ∧ (∃ b, findStart m src s.length a = some (none, b, 0)) ∨
    ∃ front c t, s = front ++ c :: t ∧ (∀ d ∈ front, d ∈ src) ∧ c ∉ src ∧
      findStart m src s.length a =
        some (some (a + front.length), a + front.length + 1, t.length) := by
  induction s generalizing a with
  | nil =>
    refine Or.inl ⟨by simp, a, ?_⟩
    rw [List.length_nil, findStart, if_pos (show m a = 0 from h)]
  | cons c s ih =>
    rcases h with ⟨hc, hnul, hrest⟩
    rw [List.length_cons, findStart, hc, if_neg hnul, scanDelims_eq c hlen, Option.bind_some]
    by_cases hmem : c ∈ src
    · rw [if_pos (by simp [hmem])]
      rcases ih hrest with ⟨hall, b, hb⟩ | ⟨front, d, t, rfl, hfront, hd, hfound⟩
      · exact Or.inl ⟨List.forall_mem_cons.mpr ⟨hmem, hall⟩, b, hb⟩
      · refine Or.inr ⟨c :: front, d, t, rfl, List.forall_mem_cons.mpr ⟨hmem, hfront⟩, hd, ?_⟩
        rw [hfound, List.length_cons, Nat.add_right_comm, Nat.add_assoc]
    · rw [if_neg (by simp [hmem, hne])]
      exact Or.inr ⟨[], c, s, rfl, by simp, hmem, rfl⟩

/-- The scan stops at the next delimiter. -/
theorem findEnd_text {src : List UInt8} (hlen : src.length ≤ strtokDelimMaxLen) {m : Memory}
    {a : Nat} {s : List UInt8} (h : Text m a s) :
    (∀ c ∈ s, c ∉ src) ∧ findEnd m src s.length a = some (none, 0) ∨
    ∃ front c t, s = front ++ c :: t ∧ (∀ d ∈ front, d ∉ src) ∧ c ∈ src ∧
      findEnd m src s.length a = some (some (a + front.length), t.length + 1) := by
  induction s generalizing a with
  | nil =>
    refine Or.inl ⟨by simp, ?_⟩
    rw [List.length_nil, findEnd, if_pos (show m a = 0 from h)]
  | cons c s ih =>
    rcases h with ⟨hc, hnul, hrest⟩
    rw [List.length_cons, findEnd, hc, if_neg hnul, scanDelims_eq c hlen, Option.bind_some]
    by_cases hmem : c ∈ src
    · rw [if_pos (by simp [hmem])]
      exact Or.inr ⟨[], c, s, rfl, by simp, hmem, rfl⟩
    · rw [if_neg (by simp [hmem])]
      rcases ih hrest with ⟨hall, hb⟩ | ⟨front, d, t, rfl, hfront, hd, hfound⟩
      · exact Or.inl ⟨List.forall_mem_cons.mpr ⟨hmem, hall⟩, hb⟩
      · refine Or.inr ⟨c :: front, d, t, rfl, List.forall_mem_cons.mpr ⟨hmem, hfront⟩, hd, ?_⟩
        rw [hfound, List.length_cons, Nat.add_right_comm, Nat.add_assoc]

/-! ## One token -/

/-- Is a character a delimiter? -/
def isDelimiter (src : NulString) (c : UInt8) : Bool := decide (c ∈ src.chars)

/-- The tokenizer is in front of a text, and {lit}`dmax` is the length of the text. -/
structure InFront (t : Tokenizer) (dest : Option Nat) (s : List UInt8) : Prop where
  dmax_eq : t.dmax = s.length
  short : s.length ≤ NulString.rsizeMaxStr
  text : s ≠ [] → ∃ a, dest.or t.ptr = some a ∧ Text t.mem a s

/-- A call finds the first piece of the text and goes on behind the delimiter after it. -/
theorem strtokS_inFront {src : NulString} (hne : src.chars ≠ [])
    (hlen : src.chars.length ≤ strtokDelimMaxLen) {t : Tokenizer} {dest : Option Nat}
    {s : List UInt8} (h : InFront t dest s) :
    (pieces (isDelimiter src) s = [] ∧ ∃ t', strtokS t dest src = some (none, t')) ∨
    ∃ piece rest ptoken t', pieces (isDelimiter src) s = piece :: pieces (isDelimiter src) rest ∧
      piece.length ≤ s.length ∧ rest.length ≤ s.length ∧
      strtokS t dest src = some (some ptoken, t') ∧
      (∀ limit, piece.length ≤ limit → textAt t'.mem ptoken limit = piece) ∧
      InFront t' none rest := by
  rcases h with ⟨hdmax, hshort, htext⟩
  by_cases hempty : s = []
  · left
    refine ⟨by rw [hempty, pieces_nil], t, ?_⟩
    rw [strtokS, if_pos (Or.inl (by rw [hdmax, hempty]; rfl))]
  · rcases htext hempty with ⟨a, ha, hs⟩
    have hpos : 0 < s.length := List.length_pos_iff.mpr hempty
    have hstep : ¬(t.dmax = 0 ∨ t.dmax > NulString.rsizeMaxStr) := by omega
    rw [strtokS, if_neg hstep, ha, Option.map_some, hdmax]
    rcases findStart_text hne hlen hs with ⟨hall, b, hb⟩ | ⟨front, c, w, rfl, hfront, hc, hfound⟩
    · left
      have hskip : pieces (isDelimiter src) (s ++ []) = [] :=
        pieces_skip (fun d hd => decide_eq_true (hall d hd)) []
      rw [List.append_nil] at hskip
      exact ⟨hskip, { t with dmax := 0 }, by rw [hb]⟩
    · right
      have htoken := text_append hs
      have hskipped : ∀ d ∈ front, isDelimiter src d := fun d hd => decide_eq_true (hfront d hd)
      have hword {word : List UInt8} (h : ∀ d ∈ word, d ∉ src.chars) :
          ∀ d ∈ c :: word, isDelimiter src d = false :=
        List.forall_mem_cons.mpr ⟨decide_eq_false hc, fun d hd => decide_eq_false (h d hd)⟩
      rw [hfound]
      dsimp only
      rcases findEnd_text hlen htoken.2.2 with ⟨hall, hend⟩ | ⟨word, d, rest, rfl, hnone, hd, hend⟩
      · refine ⟨c :: w, [], a + front.length, { t with dmax := 0 }, ?_, by simp, by simp, ?_, ?_,
          ?_⟩
        · rw [pieces_nil]
          exact pieces_only hskipped (List.cons_ne_nil c w) (hword hall)
        · rw [hend]
        · intro limit hlimit
          exact textAt_eq htoken hlimit
        · exact ⟨rfl, Nat.zero_le _, fun h => absurd rfl h⟩
      · refine ⟨c :: word, rest, a + front.length,
          ⟨Function.update t.mem (a + front.length + 1 + word.length) 0, rest.length,
            some (a + front.length + 1 + word.length + 1)⟩, ?_, by simp; omega, by simp; omega,
          ?_, ?_, ?_⟩
        · exact pieces_first hskipped (List.cons_ne_nil c word) (hword hnone) (decide_eq_true hd)
        · rw [hend]
          rfl
        · intro limit hlimit
          have hcut := textAt_cut (s := c :: word) (t := d :: rest) htoken hlimit
          rwa [show a + front.length + (c :: word).length =
            a + front.length + 1 + word.length by simp; omega] at hcut
        · refine ⟨rfl, by simp at hshort; omega, fun _ => ⟨_, rfl, ?_⟩⟩
          have hrest := (text_append htoken.2.2).2.2
          exact text_update hrest (Nat.lt_succ_self _) 0

/-! ## All tokens -/

/-- A caller who asks for tokens until there is none gets the pieces of the text. -/
theorem tokens_eq_pieces {src : NulString} (hne : src.chars ≠ [])
    (hlen : src.chars.length ≤ strtokDelimMaxLen) {t : Tokenizer} {dest : Option Nat}
    {s : List UInt8} (h : InFront t dest s) {limit rounds : Nat} (hlimit : s.length ≤ limit)
    (hrounds : (pieces (isDelimiter src) s).length < rounds) :
    tokens src limit rounds t dest = some (pieces (isDelimiter src) s) := by
  induction rounds generalizing t dest s with
  | zero => exact absurd hrounds (Nat.not_lt_zero _)
  | succ rounds ih =>
    rcases strtokS_inFront hne hlen h with ⟨hnone, t', hcall⟩ |
      ⟨piece, rest, ptoken, t', hpieces, hpiece, hrest, hcall, hread, hnext⟩
    · rw [tokens, hcall, hnone]
      rfl
    · rw [hpieces, List.length_cons] at hrounds
      have hall := ih hnext (hrest.trans hlimit) (Nat.lt_of_succ_lt_succ hrounds)
      rw [tokens, hcall, Option.bind_some]
      dsimp only
      rw [hall, hpieces, Option.map_some, hread limit (hpiece.trans hlimit)]

end LibAmvp.SafeC
