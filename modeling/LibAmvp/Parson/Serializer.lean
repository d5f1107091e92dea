import LibAmvp.Lib.WriteLog
import LibAmvp.Parson.Parser

/-!
# The serializer of parson

{lit}`json_serialize_to_buffer_r` runs twice over a value: without a buffer it only counts, with
one it writes.  Both runs go through the same pieces of text in the same order, and every piece
that is printed leaves a terminator behind it, which the next piece overwrites.  Allocations
succeed, and a text is short enough for the counters.

Main results:

- Theorem {lit}`write_text`: what the second run writes, and where.
- Theorem {lit}`jsonSerializeToBuffer_spec`: a buffer is refused exactly when the text does not fit,
  and no byte is written outside one that is taken.
- Theorem {lit}`jsonSerializeToString_eq`: the string that is allocated after the first run holds
  the whole text and its terminator.
-/

namespace LibAmvp.Parson

open JsonTree

variable {ν : Type}

/-! ## The pieces of a text -/

/-- What the serializer appends in one step: a string with {lit}`append_string`, a printed
number, or one character. -/
inductive Piece where
  | append (string : List UInt8)
  | print (number : List UInt8)
  | char (c : UInt8)

/-- The lower-case hexadecimal digit of a half byte. -/
def hexDigit (n : UInt8) : UInt8 := if n < 10 then 0x30 + n else 0x57 + n

/-- What {lit}`json_serialize_string` appends for a character. -/
def charPiece (escapeSlashes : Bool) (c : UInt8) : Piece :=
  if c = quote then .append [backslash, quote]
  else if c = backslash then .append [backslash, backslash]
  else if c = 0x08 then .append [backslash, 0x62]
  else if c = 0x0c then .append [backslash, 0x66]
  else if c = 0x0a then .append [backslash, 0x6e]
  else if c = 0x0d then .append [backslash, 0x72]
  else if c = 0x09 then .append [backslash, 0x74]
  -- the cases from '\x00' to '\x1f' that have no letter
  else if c < 0x20 then
    .append [backslash, 0x75, 0x30, 0x30, hexDigit (c >>> 4), hexDigit (c &&& 0x0f)]
  else if c = 0x2f then
    if escapeSlashes then .append [backslash, 0x2f] else .append [0x2f]
  else .char c

/-- {lit}`json_serialize_string`. -/
def stringPieces (escapeSlashes : Bool) (chars : List UInt8) : List Piece :=
  .append [quote] :: (chars.map (charPiece escapeSlashes) ++ [.append [quote]])

/-- {lit}`append_indent`. -/
def indentPieces (level : Nat) : List Piece :=
  List.replicate level (.append [0x20, 0x20, 0x20, 0x20])

section Pieces

variable (fmt : NumberFormat ν) (escapeSlashes isPretty : Bool)

mutual

/-- {lit}`json_serialize_to_buffer_r`: the pieces it appends, in order. -/
def pieces : Nat → JsonTree ν → List Piece
  | level, .arr items =>
    .append [lbrack] :: ((if !items.isEmpty && isPretty then [.append [0x0a]] else []) ++
      itemPieces (level + 1) items ++
      (if !items.isEmpty && isPretty then indentPieces level else []) ++ [.append [rbrack]])
  | level, .obj members =>
    .append [lbrace] :: ((if !members.isEmpty && isPretty then [.append [0x0a]] else []) ++
      memberPieces (level + 1) members ++
      (if !members.isEmpty && isPretty then indentPieces level else []) ++ [.append [rbrace]])
  | _, .str chars => stringPieces escapeSlashes chars
  | _, .bool b => [.append (boolText b)]
  | _, .num x => [.print (fmt.print x)]
  | _, .null => [.append nullText]

/-- The loop over the items of an array. -/
def itemPieces : Nat → List (JsonTree ν) → List Piece
  | _, [] => []
  | level, v :: items =>
    (if isPretty then indentPieces level else []) ++ pieces level v ++
      (if !items.isEmpty then [.append [comma]] else []) ++
      (if isPretty then [.append [0x0a]] else []) ++ itemPieces level items

/-- The loop over the members of an object. -/
def memberPieces : Nat → List (NulString × JsonTree ν) → List Piece
  | _, [] => []
  | level, m :: members =>
    (if isPretty then indentPieces level else []) ++
      stringPieces escapeSlashes
        (m.1.chars.take (NulString.strnlenS (some m.1) stringNameMax)) ++
      [.append [colon]] ++ (if isPretty then [.append [0x20]] else []) ++ pieces level m.2 ++
      (if !members.isEmpty then [.append [comma]] else []) ++
      (if isPretty then [.append [0x0a]] else []) ++ memberPieces level members

end

end Pieces

/-! ## The two runs -/

/-- The characters of a piece. -/
def Piece.chars : Piece → List UInt8
  | .append string => string
  | .print number => number
  | .char c => [c]

/-- The count for a piece when there is no buffer. -/
def Piece.size : Piece → Nat
  | .append string => min string.length stringValueMax
  | .print number => number.length
  | .char _ => 1

/-- The writes for a piece at a place in a buffer: what is printed ends with a terminator. -/
def Piece.write (place : Nat) : Piece → WriteLog
  | .append string => .writeAt place (string ++ [0])
  | .print number => .writeAt place (number ++ [0])
  | .char c => [(place, c)]

/-- The run without a buffer. -/
def sizePass (ps : List Piece) : Nat := (ps.map Piece.size).sum

/-- The run with a buffer: the place of the buffer pointer moves behind every piece. -/
def writePass : Nat → List Piece → WriteLog
  | _, [] => []
  | place, p :: ps => p.write place ++ writePass (place + p.chars.length) ps

section Api

variable (fmt : NumberFormat ν) (escapeSlashes isPretty : Bool)

/-- {lit}`json_serialization_size` and {lit}`json_serialization_size_pretty`. -/
def jsonSerializationSize (v : JsonTree ν) : Nat :=
  sizePass (pieces fmt escapeSlashes isPretty 0 v) + 1

/-- {lit}`json_serialize_to_buffer` and {lit}`json_serialize_to_buffer_pretty`: the writes, when
the buffer has enough room. -/
def jsonSerializeToBuffer (v : JsonTree ν) (bufSize : Nat) : Option WriteLog :=
  if bufSize < jsonSerializationSize fmt escapeSlashes isPretty v then none
  else some (writePass 0 (pieces fmt escapeSlashes isPretty 0 v))

/-- What {lit}`json_serialize_to_string` answers with: the length, the size of the allocation, and
the writes to it. -/
structure Serialized where
  len : Nat
  bufSize : Nat
  log : WriteLog

/-- {lit}`json_serialize_to_string` and {lit}`json_serialize_to_string_pretty`. -/
def jsonSerializeToString (v : JsonTree ν) : Option Serialized :=
  let bufSize := jsonSerializationSize fmt escapeSlashes isPretty v
  (jsonSerializeToBuffer fmt escapeSlashes isPretty v bufSize).map fun log =>
    { len := bufSize - 1, bufSize, log }

/-- The text of a value at a level. -/
def text (level : Nat) (v : JsonTree ν) : List UInt8 :=
  (pieces fmt escapeSlashes isPretty level v).flatMap Piece.chars

end Api

/-! ## Parts with commas between them -/

/-- The pieces that a loop appends for the parts of an array or of an object. -/
def joined {α : Type} (isPretty : Bool) (level : Nat) (part : α → List Piece) :
    List α → List Piece
  | [] => []
  | a :: parts =>
    (if isPretty then indentPieces level else []) ++ part a ++
      (if !parts.isEmpty then [.append [comma]] else []) ++
      (if isPretty then [.append [0x0a]] else []) ++ joined isPretty level part parts

section Joined

variable (fmt : NumberFormat ν) (escapeSlashes isPretty : Bool)

/-- The pieces of a member. -/
def memberPart (level : Nat) (m : NulString × JsonTree ν) : List Piece :=
  stringPieces escapeSlashes (m.1.chars.take (NulString.strnlenS (some m.1) stringNameMax)) ++
    [.append [colon]] ++ (if isPretty then [.append [0x20]] else []) ++
    pieces fmt escapeSlashes isPretty level m.2

/-- The pieces of the items are theirs with commas between. -/
theorem itemPieces_eq (level : Nat) (items : List (JsonTree ν)) :
    itemPieces fmt escapeSlashes isPretty level items =
      joined isPretty level (pieces fmt escapeSlashes isPretty level) items := by
  induction items with
  | nil => rw [itemPieces, joined]
  | cons v items ih => rw [itemPieces, joined, ih]

/-- So are those of the members. -/
theorem memberPieces_eq (level : Nat) (members : Members ν) :
    memberPieces fmt escapeSlashes isPretty level members =
      joined isPretty level (memberPart fmt escapeSlashes isPretty level) members := by
  induction members with
  | nil => rw [memberPieces, joined]
  | cons m members ih =>
    rw [memberPieces, joined, ih, memberPart]
    simp only [List.append_assoc]

end Joined

/-- What stands around the parts of a value. -/
def enclosed {α : Type} (isPretty : Bool) (opening closing : UInt8) (level : Nat)
    (part : α → List Piece) (parts : List α) : List Piece :=
  .append [opening] :: ((if !parts.isEmpty && isPretty then [.append [0x0a]] else []) ++
    joined isPretty (level + 1) part parts ++
    (if !parts.isEmpty && isPretty then indentPieces level else []) ++ [.append [closing]])

section Enclosed

variable (fmt : NumberFormat ν) (escapeSlashes isPretty : Bool)

/-- An array is its items between brackets. -/
theorem pieces_arr (level : Nat) (items : List (JsonTree ν)) :
    pieces fmt escapeSlashes isPretty level (.arr items) =
      enclosed isPretty lbrack rbrack level (pieces fmt escapeSlashes isPretty (level + 1))
        items := by
  rw [pieces, itemPieces_eq, enclosed]

/-- An object is its members between braces. -/
theorem pieces_obj (level : Nat) (members : Members ν) :
    pieces fmt escapeSlashes isPretty level (.obj members) =
      enclosed isPretty lbrace rbrace level
        (memberPart fmt escapeSlashes isPretty (level + 1)) members := by
  rw [pieces, memberPieces_eq, enclosed]

end Enclosed

/-! ## Properties of all pieces -/

/-- A character is appended as itself or as an escape of it. -/
theorem charPiece_cases (escapeSlashes : Bool) (c : UInt8) :
    (charPiece escapeSlashes c = .char c ∧ 0x20 ≤ c ∧ c ≠ quote ∧ c ≠ backslash) ∨
    (charPiece escapeSlashes c = .append [c] ∧ c = 0x2f) ∨
    (∃ e, charPiece escapeSlashes c = .append [backslash, e] ∧ shortEscape e = some c) ∨
    ∃ a b, charPiece escapeSlashes c = .append [backslash, 0x75, 0x30, 0x30, a, b] ∧
      hexUnit 0x30 0x30 a b = some c.toNat ∧ c.toNat < 0x20 := by
  have hletter {e c' : UInt8} (hc : c = c') (hpiece : charPiece escapeSlashes c' =
      .append [backslash, e]) (he : shortEscape e = some c') :
      ∃ e', charPiece escapeSlashes c = .append [backslash, e'] ∧ shortEscape e' = some c :=
    ⟨e, hc ▸ hpiece, hc ▸ he⟩
  by_cases hquote : c = quote
  · exact .inr (.inr (.inl (hletter hquote rfl (by decide))))
  by_cases hslash : c = backslash
  · exact .inr (.inr (.inl (hletter hslash rfl (by decide))))
  by_cases hb : c = 0x08
  · exact .inr (.inr (.inl (hletter hb rfl (by decide))))
  by_cases hf : c = 0x0c
  · exact .inr (.inr (.inl (hletter hf rfl (by decide))))
  by_cases hn : c = 0x0a
  · exact .inr (.inr (.inl (hletter hn rfl (by decide))))
  by_cases hr : c = 0x0d
  · exact .inr (.inr (.inl (hletter hr rfl (by decide))))
  by_cases ht : c = 0x09
  · exact .inr (.inr (.inl (hletter ht rfl (by decide))))
  rw [charPiece, if_neg hquote, if_neg hslash, if_neg hb, if_neg hf, if_neg hn, if_neg hr,
    if_neg ht]
  by_cases hcontrol : c < 0x20
  · rw [if_pos hcontrol]
    refine .inr (.inr (.inr ⟨_, _, rfl, ?_, UInt8.lt_iff_toNat_lt.mp hcontrol⟩))
    have hall : ∀ k : Fin 32, hexUnit 0x30 0x30 (hexDigit (UInt8.ofNat k >>> 4))
        (hexDigit (UInt8.ofNat k &&& 0x0f)) = some k.val := by decide
    simpa using hall ⟨c.toNat, UInt8.lt_iff_toNat_lt.mp hcontrol⟩
  · rw [if_neg hcontrol]
    by_cases hsolidus : c = 0x2f
    · rw [if_pos hsolidus]
      cases escapeSlashes with
      | true => exact .inr (.inr (.inl ⟨0x2f, rfl, by rw [hsolidus]; decide⟩))
      | false => exact .inr (.inl ⟨by rw [hsolidus]; rfl, hsolidus⟩)
    · rw [if_neg hsolidus]
      exact .inl ⟨rfl, UInt8.not_lt.mp hcontrol, hquote, hslash⟩

section AllPieces

variable {p : Piece → Prop} (happend : ∀ s, s.length ≤ 6 → 0 ∉ s → p (.append s))

include happend

/-- A property of the line break. -/
theorem forall_mem_line (isPretty : Bool) {s : List UInt8} (hs : s.length ≤ 6 ∧ 0 ∉ s) :
    ∀ q ∈ (if isPretty then [Piece.append s] else []), p q := by
  intro q hq
  cases isPretty with
  | false => simp at hq
  | true =>
    obtain rfl : q = .append s := by simpa using hq
    exact happend s hs.1 hs.2

/-- A property of the indentation. -/
theorem forall_mem_indent (isPretty : Bool) (level : Nat) :
    ∀ q ∈ (if isPretty then indentPieces level else []), p q := by
  intro q hq
  cases isPretty with
  | false => simp at hq
  | true =>
    obtain rfl : q = .append [0x20, 0x20, 0x20, 0x20] := List.eq_of_mem_replicate hq
    exact happend _ (by decide) (by decide)

/-- A property of parts with commas between. -/
theorem forall_mem_joined {α : Type} {isPretty : Bool} {level : Nat} {part : α → List Piece}
    {parts : List α} (h : ∀ a ∈ parts, ∀ q ∈ part a, p q) :
    ∀ q ∈ joined isPretty level part parts, p q := by
  induction parts with
  | nil => simp [joined]
  | cons a parts ih =>
    obtain ⟨ha, hparts⟩ := List.forall_mem_cons.mp h
    simp only [joined, List.forall_mem_append]
    exact ⟨⟨⟨⟨forall_mem_indent happend isPretty level, ha⟩,
      forall_mem_line happend _ (by decide)⟩, forall_mem_line happend _ (by decide)⟩, ih hparts⟩

/-- A property of parts between brackets. -/
theorem forall_mem_enclosed {α : Type} {isPretty : Bool} {opening closing : UInt8} {level : Nat}
    {part : α → List Piece} {parts : List α} (hopening : 0 ≠ opening) (hclosing : 0 ≠ closing)
    (h : ∀ a ∈ parts, ∀ q ∈ part a, p q) :
    ∀ q ∈ enclosed isPretty opening closing level part parts, p q := by
  simp only [enclosed, List.forall_mem_cons, List.forall_mem_append]
  exact ⟨happend _ (by simp) (by simpa using hopening), ⟨⟨forall_mem_line happend _ (by decide),
    forall_mem_joined happend h⟩, forall_mem_indent happend _ level⟩,
    happend _ (by simp) (by simpa using hclosing), by simp⟩

/-- A property of the pieces of a string. -/
theorem forall_mem_stringPieces {escapeSlashes : Bool} {chars : List UInt8}
    (hchar : ∀ c, c ≠ 0 → p (.char c)) : ∀ q ∈ stringPieces escapeSlashes chars, p q := by
  have hquote : p (.append [quote]) := happend _ (by decide) (by decide)
  simp only [stringPieces, List.forall_mem_cons, List.forall_mem_append, List.forall_mem_map]
  refine ⟨hquote, fun c _ => ?_, hquote, by simp⟩
  obtain ⟨hpiece, hraw⟩ | ⟨hpiece, hc⟩ | ⟨e, hpiece, he⟩ | ⟨a, b, hpiece, hunit, -⟩ :=
    charPiece_cases escapeSlashes c
  · rw [hpiece]
    exact hchar c fun h => absurd hraw.1 (h ▸ by decide)
  · rw [hpiece, hc]
    exact happend _ (by decide) (by decide)
  · rw [hpiece]
    have hne : e ≠ 0 := by
      rintro rfl
      cases he
    exact happend _ (by simp) (by simpa [show (0 : UInt8) ≠ backslash by decide] using hne.symm)
  · rw [hpiece]
    have hdigit {d : UInt8} {n : Nat} (hd : hexValue d = some n) : (0 : UInt8) ≠ d := by
      rintro rfl
      cases hd
    simp only [hexUnit, Option.bind_eq_bind, Option.bind_eq_some_iff] at hunit
    obtain ⟨-, -, -, -, n1, h1, n2, h2, -⟩ := hunit
    have hslash : (0 : UInt8) ≠ backslash := by decide
    exact happend _ (by simp) (by simpa [hslash] using ⟨hdigit h1, hdigit h2⟩)

/-- What holds of short strings, of characters and of printed numbers holds of all pieces of a
value. -/
theorem forall_mem_pieces {fmt : NumberFormat ν} {escapeSlashes isPretty : Bool}
    (hchar : ∀ c, c ≠ 0 → p (.char c)) (hprint : ∀ x, p (.print (fmt.print x)))
    (v : JsonTree ν) (level : Nat) : ∀ q ∈ pieces fmt escapeSlashes isPretty level v, p q := by
  induction v using JsonTree.induction generalizing level with
  | null => simpa [pieces] using happend nullText (by decide) (by decide)
  | bool b => cases b <;> simpa [pieces] using happend (boolText _) (by decide) (by decide)
  | num x => simpa [pieces] using hprint x
  | str chars =>
    rw [pieces]
    exact forall_mem_stringPieces happend hchar
  | arr items ih =>
    rw [pieces_arr]
    exact forall_mem_enclosed happend (by decide) (by decide) fun v hv => ih v hv (level + 1)
  | obj members ih =>
    rw [pieces_obj]
    refine forall_mem_enclosed happend (by decide) (by decide) fun m hm => ?_
    simp only [memberPart, List.forall_mem_append]
    exact ⟨⟨⟨forall_mem_stringPieces happend hchar,
      by simpa using happend [colon] (by decide) (by decide)⟩,
      forall_mem_line happend _ (by decide)⟩, ih m hm (level + 1)⟩

end AllPieces

/-! ## The first run counts what the second one writes -/

/-- The characters of some pieces. -/
abbrev charsOf (ps : List Piece) : List UInt8 := ps.flatMap Piece.chars

/-- A piece that leaves a terminator behind it. -/
def Piece.Printed (p : Piece) : Prop := ∀ place, p.write place = .writeAt place (p.chars ++ [0])

/-- The first pass counts the characters of the text. -/
theorem sizePass_eq (fmt : NumberFormat ν) (escapeSlashes isPretty : Bool) (level : Nat)
    (v : JsonTree ν) :
    sizePass (pieces fmt escapeSlashes isPretty level v) =
      (text fmt escapeSlashes isPretty level v).length := by
  rw [sizePass, text, List.length_flatMap]
  refine congrArg List.sum (List.map_congr_left ?_)
  refine forall_mem_pieces (fun s hs _ => ?_) (fun _ _ => rfl) (fun _ => rfl) v level
  exact min_eq_left (hs.trans (by decide))

/-- A text has no terminator in it. -/
theorem zero_notMem_text {fmt : NumberFormat ν} (hprint : ∀ x, 0 ∉ fmt.print x)
    (escapeSlashes isPretty : Bool) (level : Nat) (v : JsonTree ν) :
    0 ∉ text fmt escapeSlashes isPretty level v := by
  have hpieces : ∀ p ∈ pieces fmt escapeSlashes isPretty level v, 0 ∉ p.chars :=
    forall_mem_pieces (fun s _ hs => hs) (fun c hc => by simpa [Piece.chars] using hc.symm)
      hprint v level
  intro hmem
  obtain ⟨p, hp, hzero⟩ := List.mem_flatMap.mp hmem
  exact hpieces p hp hzero

/-- A fixed text is printed as it is. -/
theorem printed_append (s : List UInt8) : (Piece.append s).Printed := fun _ => rfl

/-- The last piece of a value is printed. -/
theorem pieces_eq_concat (fmt : NumberFormat ν) (escapeSlashes isPretty : Bool) (level : Nat)
    (v : JsonTree ν) : ∃ ps q, pieces fmt escapeSlashes isPretty level v = ps ++ [q] ∧
      q.Printed := by
  cases v with
  | null => exact ⟨[], _, by rw [pieces]; rfl, printed_append nullText⟩
  | bool b => exact ⟨[], _, by rw [pieces]; rfl, printed_append (boolText b)⟩
  | num x => exact ⟨[], .print (fmt.print x), by rw [pieces]; rfl, fun _ => rfl⟩
  | str chars => exact ⟨_ :: _, _, by rw [pieces, stringPieces]; rfl, printed_append [quote]⟩
  | arr items => exact ⟨_ :: _, _, by rw [pieces]; rfl, printed_append [rbrack]⟩
  | obj members => exact ⟨_ :: _, _, by rw [pieces]; rfl, printed_append [rbrace]⟩

/-- The second pass writes two parts one after the other. -/
theorem writePass_append (place : Nat) (ps qs : List Piece) :
    writePass place (ps ++ qs) =
      writePass place ps ++ writePass (place + (charsOf ps).length) qs := by
  induction ps generalizing place with
  | nil => rfl
  | cons p ps ih =>
    rw [List.cons_append, writePass, ih, writePass, List.append_assoc]
    rw [charsOf, charsOf, List.flatMap_cons, List.length_append, Nat.add_assoc]

/-- Bytes that are written with a terminator, seen from another place than the terminator's. -/
theorem apply_writeAt_terminated {place k : Nat} {bytes : List UInt8} (m : Memory)
    (hk : k ≠ place + bytes.length) :
    (WriteLog.writeAt place (bytes ++ [0])).apply m k =
      if place ≤ k ∧ k < place + bytes.length then bytes.getD (k - place) 0 else m k := by
  rw [WriteLog.apply_writeAt, List.length_append, List.length_singleton]
  by_cases hin : place ≤ k ∧ k < place + bytes.length
  · rw [if_pos hin, if_pos (by omega), List.getD_append _ _ _ _ (by omega)]
  · rw [if_neg hin, if_neg (by omega)]

/-- One piece writes its characters, and nothing outside but perhaps a terminator behind them. -/
theorem apply_pieceWrite {p : Piece} {place k : Nat} (m : Memory)
    (hk : k ≠ place + p.chars.length) :
    (p.write place).apply m k =
      if place ≤ k ∧ k < place + p.chars.length then p.chars.getD (k - place) 0 else m k := by
  cases p with
  | append s => exact apply_writeAt_terminated m hk
  | print s => exact apply_writeAt_terminated m hk
  | char c => exact WriteLog.apply_writeAt place [c] m k

/-- The run with a buffer writes the characters one after the other, and nothing outside but
perhaps a terminator behind them. -/
theorem apply_writePass {ps : List Piece} {place k : Nat} (m : Memory)
    (hk : k ≠ place + (charsOf ps).length) :
    (writePass place ps).apply m k =
      if place ≤ k ∧ k < place + (charsOf ps).length then (charsOf ps).getD (k - place) 0
      else m k := by
  induction ps generalizing place m with
  | nil =>
    rw [if_neg (by simp only [charsOf, List.flatMap_nil, List.length_nil]; omega)]
    rfl
  | cons p ps ih =>
    have hchars : charsOf (p :: ps) = p.chars ++ charsOf ps := List.flatMap_cons
    rw [hchars, List.length_append] at hk ⊢
    rw [writePass, WriteLog.apply_append, ih _ (by omega)]
    by_cases hlater : place + p.chars.length ≤ k ∧
        k < place + p.chars.length + (charsOf ps).length
    · rw [if_pos hlater, if_pos (by omega), List.getD_append_right _ _ _ _ (by omega),
        Nat.sub_add_eq]
    · -- the terminator of the piece is not seen, unless nothing comes after it
      rw [if_neg hlater, apply_pieceWrite m (by omega)]
      by_cases hhere : place ≤ k ∧ k < place + p.chars.length
      · rw [if_pos hhere, if_pos (by omega), List.getD_append _ _ _ _ (by omega)]
      · rw [if_neg hhere, if_neg (by omega)]

/-- A piece is written with a terminator behind it and no further. -/
theorem inside_pieceWrite (p : Piece) (place : Nat) :
    (p.write place).Inside (place + p.chars.length + 1) := by
  have hterminated (s : List UInt8) :
      (WriteLog.writeAt place (s ++ [0])).Inside (place + s.length + 1) :=
    WriteLog.inside_writeAt.mpr (Or.inr (by rw [List.length_append, List.length_singleton,
      Nat.add_assoc]))
  cases p with
  | append s => exact hterminated s
  | print s => exact hterminated s
  | char c =>
    exact (WriteLog.inside_writeAt : (WriteLog.writeAt place [c]).Inside _ ↔ _).mpr
      (Or.inr (Nat.le_succ (place + 1)))

/-- No write is behind the terminator. -/
theorem inside_writePass {place size : Nat} {ps : List Piece}
    (hsize : place + (charsOf ps).length < size) : (writePass place ps).Inside size := by
  induction ps generalizing place with
  | nil => simp [writePass, WriteLog.Inside]
  | cons p ps ih =>
    have hchars : charsOf (p :: ps) = p.chars ++ charsOf ps := List.flatMap_cons
    rw [hchars, List.length_append] at hsize
    rw [writePass, WriteLog.inside_append]
    refine ⟨fun write hwrite => ?_, ih (by omega)⟩
    have hplace := inside_pieceWrite p place write hwrite
    omega

/-- What the run with a buffer leaves in it: the text with its terminator from the place on, and
what was there before outside. -/
theorem write_text (fmt : NumberFormat ν) (escapeSlashes isPretty : Bool) (level place k : Nat)
    (v : JsonTree ν) (m : Memory) :
    (writePass place (pieces fmt escapeSlashes isPretty level v)).apply m k =
      if place ≤ k ∧ k < place + (text fmt escapeSlashes isPretty level v).length + 1 then
        (text fmt escapeSlashes isPretty level v ++ [0]).getD (k - place) 0
      else m k := by
  obtain ⟨ps, q, hps, hq⟩ := pieces_eq_concat fmt escapeSlashes isPretty level v
  have htext : text fmt escapeSlashes isPretty level v = charsOf ps ++ q.chars := by
    rw [text, hps, List.flatMap_append, List.flatMap_singleton]
  rw [htext, hps, writePass_append, WriteLog.apply_append, writePass, writePass, List.append_nil,
    hq, WriteLog.apply_writeAt]
  simp only [List.length_append, List.length_singleton, List.append_assoc]
  by_cases hlast : place + (charsOf ps).length ≤ k ∧
      k < place + (charsOf ps).length + (q.chars.length + 1)
  · rw [if_pos hlast, if_pos (by omega), List.getD_append_right (charsOf ps) _ _ _ (by omega),
      Nat.sub_add_eq]
  · rw [if_neg hlast, apply_writePass m (by omega)]
    by_cases hhere : place ≤ k ∧ k < place + (charsOf ps).length
    · rw [if_pos hhere, if_pos (by omega), List.getD_append _ _ _ _ (by omega)]
    · rw [if_neg hhere, if_neg (by omega)]

/-- The size is that of the text and its terminator. -/
theorem jsonSerializationSize_eq (fmt : NumberFormat ν) (escapeSlashes isPretty : Bool)
    (v : JsonTree ν) :
    jsonSerializationSize fmt escapeSlashes isPretty v =
      (text fmt escapeSlashes isPretty 0 v).length + 1 := by
  rw [jsonSerializationSize, sizePass_eq]

/-- The buffer for a value is refused exactly when the text and its terminator do not fit.  In
one that is taken, they stand at its front, and what is behind them is as it was. -/
theorem jsonSerializeToBuffer_spec (fmt : NumberFormat ν) (escapeSlashes isPretty : Bool)
    (v : JsonTree ν) (bufSize : Nat) :
    (jsonSerializeToBuffer fmt escapeSlashes isPretty v bufSize = none ↔
      bufSize ≤ (text fmt escapeSlashes isPretty 0 v).length) ∧
    ∀ log, jsonSerializeToBuffer fmt escapeSlashes isPretty v bufSize = some log →
      log.Inside bufSize ∧ ∀ m k, log.apply m k =
        if k ≤ (text fmt escapeSlashes isPretty 0 v).length then
          (text fmt escapeSlashes isPretty 0 v ++ [0]).getD k 0
        else m k := by
  rw [jsonSerializeToBuffer, jsonSerializationSize_eq]
  by_cases hroom : bufSize < (text fmt escapeSlashes isPretty 0 v).length + 1
  · rw [if_pos hroom]
    exact ⟨iff_of_true rfl (Nat.le_of_lt_succ hroom), fun log h => by cases h⟩
  · rw [if_neg hroom]
    refine ⟨iff_of_false (by simp) (by omega), fun log h => ?_⟩
    obtain rfl := Option.some.inj h
    refine ⟨inside_writePass ?_, fun m k => ?_⟩
    · show 0 + (text fmt escapeSlashes isPretty 0 v).length < bufSize
      omega
    · rw [write_text]
      simp only [Nat.zero_le, true_and, Nat.zero_add, Nat.lt_succ_iff, Nat.sub_zero]

/-- The string of a value: after the writes to it, whatever was there before, it holds the text
and its terminator. -/
theorem jsonSerializeToString_eq (fmt : NumberFormat ν) (escapeSlashes isPretty : Bool)
    (v : JsonTree ν) :
    ∃ s, jsonSerializeToString fmt escapeSlashes isPretty v = some s ∧
      s.len = (text fmt escapeSlashes isPretty 0 v).length ∧
      ∀ m, (s.log.apply m).read s.bufSize = text fmt escapeSlashes isPretty 0 v ++ [0] := by
  have hsize := jsonSerializationSize_eq fmt escapeSlashes isPretty v
  have hlog : jsonSerializeToString fmt escapeSlashes isPretty v =
      some ⟨jsonSerializationSize fmt escapeSlashes isPretty v - 1,
        jsonSerializationSize fmt escapeSlashes isPretty v,
        writePass 0 (pieces fmt escapeSlashes isPretty 0 v)⟩ := by
    rw [jsonSerializeToString, jsonSerializeToBuffer, if_neg (lt_irrefl _), Option.map_some]
  refine ⟨_, hlog, by rw [hsize, Nat.add_sub_cancel], fun m => ?_⟩
  rw [hsize]
  refine (Memory.read_eq_of_lt fun k hk => ?_).trans (Memory.read_ofBytes (by simp))
  rw [write_text, if_pos ⟨Nat.zero_le k, by rw [Nat.zero_add]; exact hk⟩, Memory.ofBytes,
    Nat.sub_zero]

end LibAmvp.Parson
