import LibAmvp.Parson.Serializer

/-!
# Texts are read back

The text that parson serializes a value to is a text of the grammar, so that the parser gives the
value back.  What the C library makes of numbers enters as laws: a printed number is a decimal
number that is read back, and it ends where a blank, a comma or a closing sign follows.

Main results:

- Theorem {lit}`quoted_charsOf`: an escaped string is read back, with and without escaped slashes.
- Theorem {lit}`reads_text`: the text of a sound value is one of the grammar, compact or pretty.
- Theorem {lit}`jsonParseString_jsonSerializeToString`: the parser reads the string of a value back
  exactly when the value is sound and not nested too deep.
-/

namespace LibAmvp.Parson

open JsonTree

variable {ν : Type}

/-! ## Laws of the numbers -/

/-- A byte that can follow a number in a text. -/
def Delimiter (c : UInt8) : Prop := IsBlank c ∨ c = comma ∨ c = rbrack ∨ c = rbrace

instance (c : UInt8) : Decidable (Delimiter c) := inferInstanceAs (Decidable (_ ∨ _))

/-- A text that does not go on as a number. -/
def Delimited (s : List UInt8) : Prop := ∀ c ∈ s.head?, Delimiter c

/-- What parson relies on in the C library: {lit}`sprintf` with {lit}`FLOAT_FORMAT` prints a valid
number as a decimal number that {lit}`strtod` reads back, perhaps with {lit}`ERANGE` for a number
that is not huge, and a number has no delimiter in it. -/
structure NumberFormat.Lawful (fmt : NumberFormat ν) : Prop where
  zero_notMem : ∀ x, 0 ∉ fmt.print x
  plain : ∀ s, (fmt.numeral s).isSome → ∀ c ∈ s, ¬Delimiter c
  numeral_print : ∀ x, fmt.isInvalid x = false → fmt.numeral (fmt.print x) = some x
  errno_print : ∀ x, fmt.isInvalid x = false → fmt.errno (fmt.print x) = .zero ∨
    fmt.errno (fmt.print x) = .erange ∧ fmt.isHuge x = false
  starts_print : ∀ x, fmt.isInvalid x = false → startsNumber (deref (fmt.print x))
  decimal_print : ∀ x, fmt.isInvalid x = false →
    isDecimal (fmt.print x) (fmt.print x).length = true

theorem delimited_cons {c : UInt8} (s : List UInt8) (h : Delimiter c) : Delimited (c :: s) := by
  simpa [Delimited] using h

theorem delimited_blank {c : UInt8} (s : List UInt8) (h : IsBlank c) : Delimited (c :: s) :=
  delimited_cons s (Or.inl h)

section Numbers

variable {fmt : NumberFormat ν}

/-- The subject sequence ends where a number is delimited. -/
theorem subjectLength_append (hfmt : fmt.Lawful) {s rest : List UInt8}
    (hs : (fmt.numeral s).isSome) (hrest : Delimited rest) :
    fmt.subjectLength (s ++ rest) = s.length := by
  apply Nat.findGreatest_eq_iff.mpr
  refine ⟨by simp, fun _ => by simpa using hs, fun n hlt hle hn => ?_⟩
  cases rest with
  | nil =>
    rw [List.append_nil] at hle
    omega
  | cons c rest =>
    apply hfmt.plain _ hn c
    · obtain ⟨k, rfl⟩ := Nat.exists_eq_add_of_lt hlt
      rw [Nat.add_assoc, List.take_length_add_append, List.take_succ_cons]
      simp
    · exact hrest c rfl

/-- Whether a number is decimal depends on its characters only. -/
theorem isDecimal_append (s rest : List UInt8) :
    isDecimal (s ++ rest) s.length = isDecimal s s.length := by
  rcases s with _ | ⟨a, _ | ⟨b, _ | ⟨c, s⟩⟩⟩
  · rfl
  · rfl
  · simp [isDecimal, deref]
  · simp [isDecimal, deref, List.cons_prefix_cons]

/-- A printed number is read back. -/
theorem number_print (hfmt : fmt.Lawful) {x : ν} (hx : fmt.isInvalid x = false)
    {rest : List UInt8} (hrest : Delimited rest) : fmt.Number (fmt.print x ++ rest) x rest := by
  have hstart := hfmt.starts_print x hx
  have hread := hfmt.numeral_print x hx
  have hfront : deref (fmt.print x ++ rest) = deref (fmt.print x) := by
    cases hprint : fmt.print x with
    | nil =>
      rw [hprint] at hstart
      exact absurd hstart (by decide)
    | cons c s => rfl
  have hlength : fmt.subjectLength (fmt.print x ++ rest) = (fmt.print x).length :=
    subjectLength_append hfmt (by rw [hread]; rfl) hrest
  have hstrtod : fmt.strtod (fmt.print x ++ rest) =
      (x, fmt.errno (fmt.print x), (fmt.print x).length) := by
    simp only [NumberFormat.strtod, hlength, List.take_left, hread, Option.getD_some]
  refine ⟨hfront ▸ hstart, ?_⟩
  simp only [parseNumberValue, hstrtod, isDecimal_append, hfmt.decimal_print x hx,
    jsonValueInitNumber, hx, List.drop_left]
  rcases hfmt.errno_print x hx with herrno | ⟨herrno, hhuge⟩
  · simp [herrno]
  · simp [herrno, hhuge]

end Numbers

/-! ## Strings -/

/-- The bytes of a character that needs no more than one. -/
theorem utf8_control {n : Nat} (h : n < 0x20) : utf8 n = [UInt8.ofNat n] := by
  have hall : ∀ k : Fin 0x20, utf8 k = [UInt8.ofNat k] := by decide
  exact hall ⟨n, h⟩

/-- The characters of a string, with or without escaped slashes, are read back. -/
theorem quoted_charsOf (escapeSlashes : Bool) (chars rest : List UInt8) :
    Quoted (charsOf (chars.map (charPiece escapeSlashes)) ++ quote :: rest) chars rest := by
  induction chars with
  | nil => exact .close rest
  | cons c chars ih =>
    rw [List.map_cons, charsOf, List.flatMap_cons, List.append_assoc]
    rcases charPiece_cases escapeSlashes c with
      ⟨hpiece, hraw⟩ | ⟨hpiece, hc⟩ | ⟨e, hpiece, he⟩ | ⟨a, b, hpiece, hunit, hlt⟩
    · rw [hpiece]
      exact .raw hraw ih
    · rw [hpiece]
      exact .raw (by rw [hc]; decide) ih
    · rw [hpiece]
      exact .short he ih
    · rw [hpiece]
      have hread := Quoted.unit hunit (Or.inl (hlt.trans (by decide))) ih
      rw [utf8_control hlt, UInt8.ofNat_toNat] at hread
      exact hread

theorem charsOf_stringPieces (escapeSlashes : Bool) (chars rest : List UInt8) :
    charsOf (stringPieces escapeSlashes chars) ++ rest =
      quote :: (charsOf (chars.map (charPiece escapeSlashes)) ++ quote :: rest) := by
  simp [stringPieces, charsOf, Piece.chars]

/-! ## Parts with commas between them -/

/-- The pieces of a part are read back wherever the part is delimited. -/
def ReadBack {α : Type} (R : List UInt8 → α → List UInt8 → Prop) (part : α → List Piece)
    (a : α) : Prop :=
  ∀ rest, Delimited rest → R (charsOf (part a) ++ rest) a rest

section Joined

variable {α : Type} {R : List UInt8 → α → List UInt8 → Prop} {part : α → List Piece}

/-- A line break, where there is one, is blank. -/
theorem blanks_line (isPretty : Bool) {c : UInt8} (hc : IsBlank c) (s : List UInt8) :
    Blanks (charsOf (if isPretty then [.append [c]] else []) ++ s) s := by
  cases isPretty with
  | false => exact Blanks.refl s
  | true => exact blanks_append (by simpa [charsOf, Piece.chars] using hc) s

theorem blanks_indent (isPretty : Bool) (level : Nat) (s : List UInt8) :
    Blanks (charsOf (if isPretty then indentPieces level else []) ++ s) s := by
  cases isPretty with
  | false => exact Blanks.refl s
  | true =>
    refine blanks_append (fun c hc => ?_) s
    rcases List.mem_flatMap.mp hc with ⟨p, hp, hcp⟩
    obtain rfl : p = .append [0x20, 0x20, 0x20, 0x20] := List.eq_of_mem_replicate hp
    revert hcp
    simp only [Piece.chars, List.mem_cons, List.not_mem_nil, or_false, or_self]
    rintro rfl
    decide

/-- What is delimited stays so behind blanks. -/
theorem Delimited.of_blanks {s s' : List UInt8} (h : Blanks s s') (hs' : Delimited s') :
    Delimited s := by
  rcases h with ⟨w, rfl, hw⟩
  cases w with
  | nil => exact hs'
  | cons c w => exact delimited_blank _ (hw c List.mem_cons_self)

/-- The parts that a loop writes are read back, up to the closing sign. -/
theorem separated_joined {isPretty : Bool} {level : Nat} {parts : List α} {s rest : List UInt8}
    (hparts : ∀ a ∈ parts, ReadBack R part a) (hne : parts ≠ []) (hend : Blanks s rest)
    (hrest : Delimited rest) :
    Separated R (charsOf (joined isPretty level part parts) ++ s) parts rest := by
  induction parts with
  | nil => exact absurd rfl hne
  | cons a parts ih =>
    rcases List.forall_mem_cons.mp hparts with ⟨ha, hlater⟩
    cases parts with
    | nil =>
      have hline := (blanks_line isPretty (by decide : IsBlank 0x0a) s).trans hend
      have hlast := Separated.last (blanks_indent isPretty level _)
        (ha _ (hrest.of_blanks hline)) hline
      simpa [joined, charsOf, List.append_assoc] using hlast
    | cons b parts =>
      have hmore := Separated.more (blanks_indent isPretty level _)
        (ha (comma :: _) (delimited_cons _ (by decide))) (Blanks.refl _)
        ((ih hlater (List.cons_ne_nil b parts)).blanks
          (blanks_line isPretty (by decide : IsBlank 0x0a) _))
      simpa [joined, charsOf, Piece.chars, List.append_assoc] using hmore

/-- What is written around parts is read back. -/
theorem sequence_enclosed {isPretty : Bool} {opening closing : UInt8} {level : Nat}
    {parts : List α} (hclosing : Delimiter closing) (hparts : ∀ a ∈ parts, ReadBack R part a)
    (rest : List UInt8) :
    Sequence R opening closing
      (charsOf (enclosed isPretty opening closing level part parts) ++ rest) parts rest := by
  cases parts with
  | nil => exact .empty (Blanks.refl _)
  | cons a parts =>
    have hjoined : Separated R (charsOf (joined isPretty (level + 1) part (a :: parts)) ++
        (charsOf (if isPretty then indentPieces level else []) ++ closing :: rest)) (a :: parts)
        (closing :: rest) :=
      separated_joined hparts (List.cons_ne_nil a parts) (blanks_indent isPretty level _)
        (delimited_cons rest hclosing)
    have hall : Sequence R opening closing (opening :: _) (a :: parts) rest :=
      .parts (hjoined.blanks (blanks_line isPretty (by decide : IsBlank 0x0a) _))
    simpa [enclosed, charsOf, Piece.chars, List.append_assoc] using hall

end Joined

/-! ## Values -/

section Values

variable {fmt : NumberFormat ν}

theorem readBack_member {escapeSlashes isPretty : Bool} {level : Nat}
    {m : NulString × JsonTree ν} (hname : m.1.chars.length ≤ stringNameMax)
    (hvalue : ReadBack (Reads fmt.Number) (pieces fmt escapeSlashes isPretty level) m.2) :
    ReadBack (Named (Reads fmt.Number)) (memberPart fmt escapeSlashes isPretty level) m := by
  intro rest hrest
  have htake : m.1.chars.take (NulString.strnlenS (some m.1) stringNameMax) = m.1.chars := by
    rw [NulString.strnlenS_some, min_eq_left hname, List.take_length]
  have hread := Named.mk (quoted_charsOf escapeSlashes m.1.chars _) (Blanks.refl _)
    (blanks_line isPretty (by decide : IsBlank 0x20) _) (hvalue rest hrest)
  rw [← charsOf_stringPieces] at hread
  rw [memberPart, htake]
  simpa [charsOf, Piece.chars, List.append_assoc] using hread

/-- The text of a sound value is one of the grammar, wherever it is delimited. -/
theorem reads_text (hfmt : fmt.Lawful) (escapeSlashes isPretty : Bool) {v : JsonTree ν}
    (hv : Everywhere fmt.Sound v) (level : Nat) :
    ReadBack (Reads fmt.Number) (pieces fmt escapeSlashes isPretty level) v := by
  induction v using JsonTree.induction generalizing level with
  | null =>
    intro rest _
    rw [pieces]
    exact .null rest
  | bool b =>
    intro rest _
    have htext : charsOf [.append (boolText b)] = boolText b := List.append_nil _
    rw [pieces, htext]
    exact .bool b rest
  | num x =>
    intro rest hrest
    have htext : charsOf [.print (fmt.print x)] = fmt.print x := List.append_nil _
    rw [pieces, htext]
    exact .num (number_print hfmt hv hrest)
  | str chars =>
    intro rest _
    rw [pieces, charsOf_stringPieces]
    exact .str (quoted_charsOf escapeSlashes chars rest)
  | arr items ih =>
    intro rest _
    rw [Everywhere, itemsEverywhere_iff] at hv
    rw [pieces_arr]
    refine .arr (sequence_enclosed (by decide) (fun v hmem => ?_) rest)
    exact ih v hmem (hv.2 v hmem) (level + 1)
  | obj members ih =>
    intro rest _
    rw [Everywhere, membersEverywhere_iff] at hv
    rw [pieces_obj]
    refine .obj (sequence_enclosed (by decide) (fun m hmem => ?_) rest)
    exact readBack_member (hv.1.1 m hmem) (ih m hmem (hv.2 m hmem) (level + 1))

/-- A value does not start with a byte order mark. -/
theorem deref_ne_of_reads {s rest : List UInt8} {v : JsonTree ν}
    (h : Reads fmt.Number s v rest) : deref s ≠ 0xef := by
  cases h with
  | null => exact (by decide : (0x6e : UInt8) ≠ 0xef)
  | bool b =>
    cases b with
    | false => exact (by decide : (0x66 : UInt8) ≠ 0xef)
    | true => exact (by decide : (0x74 : UInt8) ≠ 0xef)
  | num h =>
    intro hbom
    exact absurd (hbom ▸ h.1) (by decide)
  | str h => exact (by decide : quote ≠ 0xef)
  | arr h =>
    cases h with
    | empty h => exact (by decide : lbrack ≠ 0xef)
    | parts h => exact (by decide : lbrack ≠ 0xef)
  | obj h =>
    cases h with
    | empty h => exact (by decide : lbrace ≠ 0xef)
    | parts h => exact (by decide : lbrace ≠ 0xef)

theorem skipBom_of_deref {s : List UInt8} (h : deref s ≠ 0xef) : skipBom s = s := by
  apply if_neg
  rintro ⟨t, rfl⟩
  exact h rfl

/-- The string of a text holds the text. -/
theorem chars_ofBytes_text (hfmt : fmt.Lawful) (escapeSlashes isPretty : Bool) (v : JsonTree ν) :
    (NulString.ofBytes (text fmt escapeSlashes isPretty 0 v ++ [0])).chars =
      text fmt escapeSlashes isPretty 0 v := by
  have hnul := zero_notMem_text hfmt.zero_notMem escapeSlashes isPretty 0 v
  have hall : ∀ c ∈ text fmt escapeSlashes isPretty 0 v, c ≠ 0 := by
    rintro c hc rfl
    exact hnul hc
  show List.takeWhile _ _ = _
  rw [List.takeWhile_append_of_pos (by simpa using hall)]
  simp

/-- A sound value that is not nested too deep is read back from its string. -/
theorem jsonParseString_text (hfmt : fmt.Lawful) (escapeSlashes isPretty : Bool) {v : JsonTree ν}
    (hheight : v.height ≤ maxNesting) (hv : Everywhere fmt.Sound v) :
    jsonParseString fmt
      (NulString.ofBytes (text fmt escapeSlashes isPretty 0 v ++ [0])) = some v := by
  have hchars := chars_ofBytes_text hfmt escapeSlashes isPretty v
  have htext : Reads fmt.Number (text fmt escapeSlashes isPretty 0 v) v [] := by
    have hback := reads_text hfmt escapeSlashes isPretty hv 0 [] (by simp [Delimited])
    rwa [List.append_nil] at hback
  rw [← hchars] at htext
  exact jsonParseString_of_reads hheight hv (skipBom_of_deref (deref_ne_of_reads htext)) htext

end Values

/-! ## Natural numbers -/

/-- The decimal digits of a number. -/
def decimalText (n : Nat) : List UInt8 :=
  if n = 0 then [0x30] else (Nat.digits 10 n).reverse.map fun d => UInt8.ofNat (0x30 + d)

/-- Natural numbers, read and printed with decimal digits. -/
def NumberFormat.decimal : NumberFormat Nat where
  zero := 0
  numeral s :=
    if s ≠ [] ∧ s.all fun c => 0x30 ≤ c ∧ c ≤ 0x39 then
      some (Nat.ofDigits 10 (s.reverse.map fun c => c.toNat - 0x30))
    else none
  errno _ := .zero
  isHuge _ := false
  isInvalid _ := false
  print := decimalText

theorem decimalText_digit {n : Nat} {c : UInt8} (h : c ∈ decimalText n) :
    0x30 ≤ c ∧ c ≤ 0x39 := by
  rw [decimalText] at h
  split at h
  · obtain rfl := List.mem_singleton.mp h
    decide
  · rcases List.mem_map.mp h with ⟨d, hd, rfl⟩
    have hlt : d < 10 := Nat.digits_lt_base (by norm_num) (List.mem_reverse.mp hd)
    have hall : ∀ k : Fin 10, 0x30 ≤ UInt8.ofNat (0x30 + k) ∧ UInt8.ofNat (0x30 + k) ≤ 0x39 := by
      decide
    exact hall ⟨d, hlt⟩

/-- A number with more than one digit does not start with a zero. -/
theorem decimalText_front (n : Nat) :
    decimalText n = [0x30] ∨ ∃ c s, decimalText n = c :: s ∧ c ≠ 0x30 := by
  by_cases hn : n = 0
  · exact Or.inl (if_pos hn)
  · right
    have hne : (Nat.digits 10 n).reverse ≠ [] := by
      simpa using Nat.digits_ne_nil_iff_ne_zero.mpr hn
    rcases List.exists_cons_of_ne_nil hne with ⟨d, ds, hds⟩
    have hlast : d = (Nat.digits 10 n).getLast (Nat.digits_ne_nil_iff_ne_zero.mpr hn) := by
      rw [← List.head_reverse hne]
      simp [hds]
    have hlt : d < 10 := Nat.digits_lt_base (by norm_num)
      (List.mem_reverse.mp (hds ▸ List.mem_cons_self))
    refine ⟨UInt8.ofNat (0x30 + d), _, by rw [decimalText, if_neg hn, hds, List.map_cons], ?_⟩
    have hall : ∀ k : Fin 10, k.val ≠ 0 → UInt8.ofNat (0x30 + k) ≠ 0x30 := by decide
    exact hall ⟨d, hlt⟩ (hlast ▸ Nat.getLast_digit_ne_zero 10 hn)

theorem decimal_lawful : NumberFormat.decimal.Lawful where
  zero_notMem n h := absurd (decimalText_digit h).1 (by decide)
  plain s hs c hc := by
    have hdigits : s ≠ [] ∧ s.all fun c => 0x30 ≤ c ∧ c ≤ 0x39 := by
      by_contra hnot
      rw [show NumberFormat.decimal.numeral s = none from if_neg hnot] at hs
      cases hs
    have hall : ∀ k : Fin 256, 0x30 ≤ UInt8.ofNat k ∧ UInt8.ofNat k ≤ 0x39 →
        ¬Delimiter (UInt8.ofNat k) := by decide +kernel
    simpa using hall ⟨c.toNat, c.toNat_lt⟩ (by simpa using List.all_eq_true.mp hdigits.2 c hc)
  numeral_print n _ := by
    have hdigits : decimalText n ≠ [] ∧ (decimalText n).all fun c => 0x30 ≤ c ∧ c ≤ 0x39 := by
      refine ⟨?_, List.all_eq_true.mpr fun c hc => decide_eq_true (decimalText_digit hc)⟩
      rcases decimalText_front n with h | ⟨c, s, h, -⟩
      · simp [h]
      · simp [h]
    have hvalue : Nat.ofDigits 10 ((decimalText n).reverse.map fun c => c.toNat - 0x30) = n := by
      rw [decimalText]
      split
      · rename_i hn
        rw [hn]
        rfl
      · rw [← List.map_reverse, List.reverse_reverse, List.map_map, List.map_congr_left (g := id),
          List.map_id, Nat.ofDigits_digits]
        intro d hd
        have hlt : d < 10 := Nat.digits_lt_base (by norm_num) hd
        have hall : ∀ k : Fin 10, (UInt8.ofNat (0x30 + k)).toNat - 0x30 = k := by decide
        exact hall ⟨d, hlt⟩
    exact (if_pos hdigits).trans (congrArg some hvalue)
  errno_print n _ := Or.inl rfl
  starts_print n _ := by
    show startsNumber (deref (decimalText n))
    rcases decimalText_front n with h | ⟨c, s, h, -⟩
    · rw [h]
      decide
    · rw [h]
      exact Or.inr (decimalText_digit (h ▸ List.mem_cons_self))
  decimal_print n _ := by
    show isDecimal (decimalText n) (decimalText n).length = true
    rcases decimalText_front n with h | ⟨c, s, h, hc⟩
    · rw [h]
      rfl
    · have hdigit : ∀ d ∈ c :: s, 0x30 ≤ d ∧ d ≤ 0x39 := fun d hd => decimalText_digit (h ▸ hd)
      have hall : ∀ k : Fin 256, 0x30 ≤ UInt8.ofNat k ∧ UInt8.ofNat k ≤ 0x39 →
          UInt8.ofNat k ≠ 0x78 ∧ UInt8.ofNat k ≠ 0x58 ∧ UInt8.ofNat k ≠ 0x2d := by decide +kernel
      have hplain (d : UInt8) (hd : d ∈ c :: s) : d ≠ 0x78 ∧ d ≠ 0x58 ∧ d ≠ 0x2d := by
        simpa using hall ⟨d.toNat, d.toNat_lt⟩ (by simpa using hdigit d hd)
      rw [h, isDecimal, if_neg (fun hzero => hc hzero.2.1), if_neg, List.take_length,
        List.all_eq_true]
      · intro d hd
        simpa using ⟨(hplain d hd).1, (hplain d hd).2.1⟩
      · rintro ⟨-, -, hminus⟩
        exact (hplain c List.mem_cons_self).2.2 (List.cons_prefix_cons.mp hminus).1.symm

/-! ## The round trip -/

/-- The string that a value is serialized to, compact or pretty, is read back as the value exactly
when the value is sound and not nested too deep. -/
theorem jsonParseString_jsonSerializeToString {fmt : NumberFormat ν} (hfmt : fmt.Lawful)
    (escapeSlashes isPretty : Bool) (v : JsonTree ν) :
    ∃ s, jsonSerializeToString fmt escapeSlashes isPretty v = some s ∧ ∀ m,
      (jsonParseString fmt (NulString.ofBytes ((s.log.apply m).read s.bufSize)) = some v ↔
        v.height ≤ maxNesting ∧ Everywhere fmt.Sound v) := by
  rcases jsonSerializeToString_eq fmt escapeSlashes isPretty v with ⟨s, hs, -, hread⟩
  refine ⟨s, hs, fun m => ?_⟩
  rw [hread]
  constructor
  · intro h
    exact sound_of_jsonParseString h
  · rintro ⟨hheight, hv⟩
    exact jsonParseString_text hfmt escapeSlashes isPretty hheight hv

theorem jsonParseString_jsonSerializeToString_array :
    ∃ s, jsonSerializeToString NumberFormat.decimal true true (.arr [.num 4711, .str [0x2f]]) =
        some s ∧ ∀ m, jsonParseString NumberFormat.decimal
          (NulString.ofBytes ((s.log.apply m).read s.bufSize)) =
            some (.arr [.num 4711, .str [0x2f]]) := by
  rcases jsonParseString_jsonSerializeToString decimal_lawful true true
    (.arr [.num 4711, .str [0x2f]]) with ⟨s, hs, hread⟩
  exact ⟨s, hs, fun m => (hread m).mpr ⟨by decide, trivial, rfl, trivial, trivial⟩⟩

end LibAmvp.Parson
