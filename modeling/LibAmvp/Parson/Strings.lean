import LibAmvp.Lib.JsonText

/-!
# Quoted strings in parson

How parson reads a quoted string: {lit}`skip_quotes` looks for the closing quotation mark, and
{lit}`process_string` then writes the characters that the text before it stands for.  A cursor
into a C string is the characters that are left before the terminator.

Main results:

- Theorems {lit}`parseUtf16_unit` and {lit}`parseUtf16_pair`: an escape that names a character is
  rewritten to its UTF-8 bytes.
- Theorem {lit}`getQuotedString_eq_some_iff`: the two passes together read the grammar of quoted
  strings, and no escape is read past the closing quotation mark.
-/

namespace LibAmvp.Parson

open JsonTree

/-- {lit}`STRING_VALUE_MAX`. -/
def stringValueMax : Nat := 8000000

/-- What a pointer into a C string points at. -/
def deref (s : List UInt8) : UInt8 := s.headD 0

/-- {lit}`hex_char_to_int`, without a value where the source answers minus one. -/
def hexCharToInt (c : UInt8) : Option UInt32 :=
  if 0x30 ≤ c ∧ c ≤ 0x39 then some (c.toUInt32 - 0x30)
  else if 0x61 ≤ c ∧ c ≤ 0x66 then some (c.toUInt32 - 0x61 + 10)
  else if 0x41 ≤ c ∧ c ≤ 0x46 then some (c.toUInt32 - 0x41 + 10)
  else none

/-- {lit}`parse_utf16_hex`. -/
def parseUtf16Hex (s : List UInt8) : Option UInt32 := do
  let x1 ← hexCharToInt (deref s)
  let x2 ← hexCharToInt (deref (s.drop 1))
  let x3 ← hexCharToInt (deref (s.drop 2))
  let x4 ← hexCharToInt (deref (s.drop 3))
  some (x1 <<< 12 ||| x2 <<< 8 ||| x3 <<< 4 ||| x4)

/-- The low bits of a number, and the mark of their place in a sequence of UTF-8. -/
def utf8Byte (cp mask mark : UInt32) : UInt8 := (cp &&& mask ||| mark).toUInt8

/-- {lit}`parse_utf16` at the letter of the escape: the bytes it writes, and how far past the
letter it reads. -/
def parseUtf16 (s : List UInt8) : Option (List UInt8 × Nat) :=
  let s := s.drop 1
  match parseUtf16Hex s with
  | none => none
  | some cp =>
    if cp < 0x80 then some ([cp.toUInt8], 4)
    else if cp < 0x800 then
      some ([utf8Byte (cp >>> 6) 0x1f 0xc0, utf8Byte cp 0x3f 0x80], 4)
    else if cp < 0xd800 ∨ 0xdfff < cp then
      some ([utf8Byte (cp >>> 12) 0x0f 0xe0, utf8Byte (cp >>> 6) 0x3f 0x80,
        utf8Byte cp 0x3f 0x80], 4)
    else if 0xd800 ≤ cp ∧ cp ≤ 0xdbff then
      if deref (s.drop 4) ≠ backslash ∨ deref (s.drop 5) ≠ 0x75 then none
      else
        match parseUtf16Hex (s.drop 6) with
        | none => none
        | some trail =>
          if trail < 0xdc00 ∨ 0xdfff < trail then none
          else
            let cp := ((cp - 0xd800) &&& 0x3ff) <<< 10 ||| ((trail - 0xdc00) &&& 0x3ff)
            let cp := cp + 0x10000
            some ([utf8Byte (cp >>> 18) 0x07 0xf0, utf8Byte (cp >>> 12) 0x3f 0x80,
              utf8Byte (cp >>> 6) 0x3f 0x80, utf8Byte cp 0x3f 0x80], 10)
    else none

/-- One round of the loop of {lit}`process_string`: the bytes it writes, and how many characters
after the first one it reads. -/
def processChar (s : List UInt8) : Option (List UInt8 × Nat) :=
  if deref s = backslash then
    let e := deref (s.drop 1)
    if e = quote then some ([quote], 1)
    else if e = backslash then some ([backslash], 1)
    else if e = 0x2f then some ([0x2f], 1)
    else if e = 0x62 then some ([0x08], 1)
    else if e = 0x66 then some ([0x0c], 1)
    else if e = 0x6e then some ([0x0a], 1)
    else if e = 0x72 then some ([0x0d], 1)
    else if e = 0x74 then some ([0x09], 1)
    else if e = 0x75 then (parseUtf16 (s.drop 1)).map fun p => (p.1, 1 + p.2)
    else none
  else if deref s < 0x20 then none
  else some ([deref s], 0)

/-- The loop of {lit}`process_string`, with the part of the supplied length that is left. -/
def processLoop (left : Nat) (s : List UInt8) : Option (List UInt8) :=
  if s = [] ∨ left = 0 then some []
  else do
    let p ← processChar s
    let out ← processLoop (left - (p.2 + 1)) (s.drop (p.2 + 1))
    some (p.1 ++ out)
termination_by left

/-- {lit}`process_string`. -/
def processString (input : List UInt8) (inputLen : Nat) : Option (List UInt8) :=
  processLoop inputLen input

/-- The loop of {lit}`skip_quotes`: what is left after the closing quotation mark. -/
def skipToQuote : List UInt8 → Option (List UInt8)
  | [] => none
  | c :: s =>
    if c = quote then some s
    else if c = backslash then
      match s with
      | [] => none
      | _ :: s => skipToQuote s
    else skipToQuote s

/-- {lit}`skip_quotes`. -/
def skipQuotes (s : List UInt8) : Option (List UInt8) :=
  if deref s ≠ quote then none else skipToQuote (s.drop 1)

/-- {lit}`get_quoted_string`: the characters, and what is left. -/
def getQuotedString (s : List UInt8) : Option (List UInt8 × List UInt8) := do
  let rest ← skipQuotes s
  let inputStringLen := s.length - rest.length - 2
  let chars ← processString (s.drop 1) inputStringLen
  some (chars, rest)

/-! ## Unicode escapes -/

/-- The digits parson reads have the values of the grammar. -/
theorem hexCharToInt_toNat (c : UInt8) : (hexCharToInt c).map UInt32.toNat = hexValue c := by
  have hall : ∀ n : Fin 256, (hexCharToInt (UInt8.ofNat n)).map UInt32.toNat =
      hexValue (UInt8.ofNat n) := by decide +kernel
  simpa using hall ⟨c.toNat, c.toNat_lt⟩

/-- A hexadecimal digit is neither of the characters that end a run of raw ones. -/
theorem hexValue_eq_some {c : UInt8} {n : Nat} (h : hexValue c = some n) :
    n < 16 ∧ c ≠ quote ∧ c ≠ backslash := by
  have hall : ∀ c : Fin 256, ∀ n ∈ hexValue (UInt8.ofNat c),
      n < 16 ∧ UInt8.ofNat c ≠ quote ∧ UInt8.ofNat c ≠ backslash := by decide +kernel
  simpa using hall ⟨c.toNat, c.toNat_lt⟩ n (by simpa using h)

theorem hexCharToInt_eq_some_iff {c : UInt8} {x : UInt32} :
    hexCharToInt c = some x ↔ hexValue c = some x.toNat := by
  rw [← hexCharToInt_toNat, Option.map_eq_some_iff]
  constructor
  · intro h
    exact ⟨x, h, rfl⟩
  · rintro ⟨y, hy, hxy⟩
    rw [hy, UInt32.toNat.inj hxy]

/-- Four digits are put together without carries. -/
theorem unit_toNat {x1 x2 x3 x4 : UInt32} (h1 : x1.toNat < 16) (h2 : x2.toNat < 16)
    (h3 : x3.toNat < 16) (h4 : x4.toNat < 16) :
    (x1 <<< 12 ||| x2 <<< 8 ||| x3 <<< 4 ||| x4).toNat =
      ((x1.toNat * 16 + x2.toNat) * 16 + x3.toNat) * 16 + x4.toNat := by
  have hshift {x : UInt32} (hx : x.toNat < 16) {k : UInt32} {i : Nat} (hk : k.toNat % 32 = i)
      (hi : i ≤ 12) : (x <<< k).toNat = x.toNat <<< i := by
    rw [UInt32.toNat_shiftLeft, hk, Nat.mod_eq_of_lt]
    have hpow : 2 ^ i ≤ 2 ^ 12 := Nat.pow_le_pow_right (by omega) hi
    rw [Nat.shiftLeft_eq]
    calc x.toNat * 2 ^ i ≤ 15 * 2 ^ 12 := Nat.mul_le_mul (by omega) hpow
      _ < 2 ^ 32 := by norm_num
  rw [UInt32.toNat_or, UInt32.toNat_or, UInt32.toNat_or,
    hshift h1 (show (12 : UInt32).toNat % 32 = 12 from rfl) (le_refl 12),
    hshift h2 (show (8 : UInt32).toNat % 32 = 8 from rfl) (by omega),
    hshift h3 (show (4 : UInt32).toNat % 32 = 4 from rfl) (by omega), Nat.or_assoc, Nat.or_assoc,
    ← Nat.shiftLeft_add_eq_or_of_lt (by omega : x4.toNat < 2 ^ 4)]
  have hlow : x3.toNat <<< 4 + x4.toNat < 2 ^ 8 := by
    rw [Nat.shiftLeft_eq]
    omega
  rw [← Nat.shiftLeft_add_eq_or_of_lt hlow]
  have hmid : x2.toNat <<< 8 + (x3.toNat <<< 4 + x4.toNat) < 2 ^ 12 := by
    rw [Nat.shiftLeft_eq, Nat.shiftLeft_eq]
    rw [Nat.shiftLeft_eq] at hlow
    omega
  rw [← Nat.shiftLeft_add_eq_or_of_lt hmid]
  simp only [Nat.shiftLeft_eq]
  ring

/-- What four digits at a cursor stand for. -/
theorem parseUtf16Hex_eq_some_iff {s : List UInt8} {cp : UInt32} :
    parseUtf16Hex s = some cp ↔
      ∃ a b c d rest, s = a :: b :: c :: d :: rest ∧ hexUnit a b c d = some cp.toNat := by
  have hnone : hexCharToInt 0 = none := by decide
  constructor
  · intro h
    simp only [parseUtf16Hex, Option.bind_eq_bind, Option.bind_eq_some_iff, Option.some.injEq] at h
    obtain ⟨x1, h1, x2, h2, x3, h3, x4, h4, rfl⟩ := h
    have hend {t : List UInt8} {x : UInt32} (hx : hexCharToInt (deref t) = some x) : t ≠ [] := by
      rintro rfl
      exact absurd hx (by simp [deref, hnone])
    obtain _ | ⟨a, _ | ⟨b, _ | ⟨c, _ | ⟨d, rest⟩⟩⟩⟩ := s
    · exact absurd rfl (hend h1)
    · exact absurd rfl (hend h2)
    · exact absurd rfl (hend h3)
    · exact absurd rfl (hend h4)
    · have ha := hexCharToInt_eq_some_iff.mp h1
      have hb := hexCharToInt_eq_some_iff.mp h2
      have hc := hexCharToInt_eq_some_iff.mp h3
      have hd := hexCharToInt_eq_some_iff.mp h4
      refine ⟨a, b, c, d, rest, rfl, ?_⟩
      rw [unit_toNat (hexValue_eq_some ha).1 (hexValue_eq_some hb).1 (hexValue_eq_some hc).1
        (hexValue_eq_some hd).1]
      simp only [hexUnit, show hexValue a = _ from ha, show hexValue b = _ from hb,
        show hexValue c = _ from hc, show hexValue d = _ from hd, Option.bind_eq_bind,
        Option.bind_some]
  · rintro ⟨a, b, c, d, rest, rfl, h⟩
    simp only [hexUnit, Option.bind_eq_bind, Option.bind_eq_some_iff, Option.some.injEq] at h
    obtain ⟨n1, h1, n2, h2, n3, h3, n4, h4, hcp⟩ := h
    have hdigit {c : UInt8} {n : Nat} (hc : hexValue c = some n) :
        hexCharToInt c = some (UInt32.ofNat n) ∧ (UInt32.ofNat n).toNat = n ∧ n < 16 := by
      have hlt := (hexValue_eq_some hc).1
      have hnat : (UInt32.ofNat n).toNat = n :=
        UInt32.toNat_ofNat_of_lt' (by rw [UInt32.size]; omega)
      exact ⟨hexCharToInt_eq_some_iff.mpr (by rw [hc, hnat]), hnat, hlt⟩
    obtain ⟨hx1, ht1, hl1⟩ := hdigit h1
    obtain ⟨hx2, ht2, hl2⟩ := hdigit h2
    obtain ⟨hx3, ht3, hl3⟩ := hdigit h3
    obtain ⟨hx4, ht4, hl4⟩ := hdigit h4
    have hunit := unit_toNat (by rwa [ht1]) (by rwa [ht2]) (by rwa [ht3]) (by rwa [ht4])
    rw [ht1, ht2, ht3, ht4, hcp] at hunit
    simp only [parseUtf16Hex, deref, List.drop_succ_cons, List.drop_zero, List.headD_cons, hx1,
      hx2, hx3, hx4, Option.bind_eq_bind, Option.bind_some, Option.some.injEq]
    exact UInt32.toNat.inj hunit

/-- A code point that is a character, and the bytes of the character. -/
theorem utf8_toNat {cp : UInt32} (h : cp.toNat.isValidChar) :
    utf8 cp.toNat =
      if cp < 0x80 then [cp.toUInt8]
      else if cp < 0x800 then [utf8Byte (cp >>> 6) 0x1f 0xc0, utf8Byte cp 0x3f 0x80]
      else if cp ≤ 0xffff then
        [utf8Byte (cp >>> 12) 0x0f 0xe0, utf8Byte (cp >>> 6) 0x3f 0x80, utf8Byte cp 0x3f 0x80]
      else
        [utf8Byte (cp >>> 18) 0x07 0xf0, utf8Byte (cp >>> 12) 0x3f 0x80,
          utf8Byte (cp >>> 6) 0x3f 0x80, utf8Byte cp 0x3f 0x80] := by
  have hval : (Char.ofNat cp.toNat).val = cp := by
    rw [Char.ofNat, dif_pos h]
    exact UInt32.toNat.inj rfl
  have hone : cp < 0x80 ↔ cp ≤ 0x7f := by
    rw [UInt32.lt_iff_toNat_lt, UInt32.le_iff_toNat_le]
    exact Nat.lt_succ_iff
  have htwo : cp < 0x800 ↔ cp ≤ 0x7ff := by
    rw [UInt32.lt_iff_toNat_lt, UInt32.le_iff_toNat_le]
    exact Nat.lt_succ_iff
  rw [utf8, String.utf8EncodeChar_eq_utf8EncodeCharFast]
  simp only [String.utf8EncodeCharFast, hval, utf8Byte, UInt32.toUInt8_or, UInt32.toUInt8_and,
    hone, htwo]
  rfl

theorem hexUnit_lt {a b c d : UInt8} {n : Nat} (h : hexUnit a b c d = some n) : n < 0x10000 := by
  simp only [hexUnit, Option.bind_eq_bind, Option.bind_eq_some_iff, Option.some.injEq] at h
  obtain ⟨n1, h1, n2, h2, n3, h3, n4, h4, rfl⟩ := h
  have hl1 := (hexValue_eq_some h1).1
  have hl2 := (hexValue_eq_some h2).1
  have hl3 := (hexValue_eq_some h3).1
  have hl4 := (hexValue_eq_some h4).1
  omega

/-- The four digits at a cursor, as the number that the source computes with. -/
theorem exists_parseUtf16Hex {a b c d : UInt8} {n : Nat} (h : hexUnit a b c d = some n)
    (rest : List UInt8) :
    ∃ cp : UInt32, parseUtf16Hex (a :: b :: c :: d :: rest) = some cp ∧ cp.toNat = n := by
  have hnat : (UInt32.ofNat n).toNat = n := by
    have hlt := hexUnit_lt h
    exact UInt32.toNat_ofNat_of_lt' (by rw [UInt32.size]; omega)
  exact ⟨UInt32.ofNat n, parseUtf16Hex_eq_some_iff.mpr ⟨a, b, c, d, rest, rfl, by rw [h, hnat]⟩,
    hnat⟩

/-- The code point of a pair of surrogates. -/
theorem pair_toNat {lead trail : UInt32} (hlead : 0xd800 ≤ lead.toNat ∧ lead.toNat ≤ 0xdbff)
    (htrail : 0xdc00 ≤ trail.toNat ∧ trail.toNat ≤ 0xdfff) :
    ((((lead - 0xd800) &&& 0x3ff) <<< 10 ||| ((trail - 0xdc00) &&& 0x3ff)) + 0x10000).toNat =
      pairPoint lead.toNat trail.toNat := by
  have hhigh : ((lead - 0xd800) &&& 0x3ff).toNat = lead.toNat - 0xd800 := by
    have hle : (0xd800 : UInt32) ≤ lead := UInt32.le_iff_toNat_le.mpr hlead.1
    rw [UInt32.toNat_and, UInt32.toNat_sub_of_le _ _ hle]
    exact (Nat.and_two_pow_sub_one_eq_mod _ 10).trans (Nat.mod_eq_of_lt (by
      show lead.toNat - 0xd800 < 2 ^ 10
      omega))
  have hlow : ((trail - 0xdc00) &&& 0x3ff).toNat = trail.toNat - 0xdc00 := by
    have hle : (0xdc00 : UInt32) ≤ trail := UInt32.le_iff_toNat_le.mpr htrail.1
    rw [UInt32.toNat_and, UInt32.toNat_sub_of_le _ _ hle]
    exact (Nat.and_two_pow_sub_one_eq_mod _ 10).trans (Nat.mod_eq_of_lt (by
      show trail.toNat - 0xdc00 < 2 ^ 10
      omega))
  have hshift : (((lead - 0xd800) &&& 0x3ff) <<< 10).toNat = (lead.toNat - 0xd800) <<< 10 := by
    rw [UInt32.toNat_shiftLeft, hhigh, show (10 : UInt32).toNat % 32 = 10 from rfl,
      Nat.mod_eq_of_lt]
    rw [Nat.shiftLeft_eq]
    omega
  have hlt : trail.toNat - 0xdc00 < 2 ^ 10 := by omega
  unfold pairPoint
  rw [UInt32.toNat_add, UInt32.toNat_or, hshift, hlow, ← Nat.shiftLeft_add_eq_or_of_lt hlt,
    Nat.shiftLeft_eq, show (0x10000 : UInt32).toNat = 0x10000 from rfl]
  omega

/-- An escape of a character is rewritten to the bytes of the character. -/
theorem parseUtf16_unit {u a b c d : UInt8} {n : Nat} (h : hexUnit a b c d = some n)
    (hrange : n < 0xd800 ∨ 0xdfff < n) (rest : List UInt8) :
    parseUtf16 (u :: a :: b :: c :: d :: rest) = some (utf8 n, 4) := by
  obtain ⟨cp, hcp, rfl⟩ := exists_parseUtf16Hex h rest
  have hlt := hexUnit_lt h
  have hvalid : cp.toNat.isValidChar := by
    rcases hrange with hlow | hhigh
    · exact Or.inl hlow
    · exact Or.inr ⟨hhigh, by omega⟩
  have hfew : cp ≤ 0xffff := UInt32.le_iff_toNat_le.mpr (Nat.le_of_lt_succ hlt)
  have hthree : cp < 0xd800 ∨ 0xdfff < cp := by
    rwa [UInt32.lt_iff_toNat_lt, UInt32.lt_iff_toNat_lt]
  rw [utf8_toNat hvalid]
  simp only [parseUtf16, List.drop_succ_cons, List.drop_zero, hcp, if_pos hfew, if_pos hthree]
  split
  · rfl
  · split <;> rfl

/-- An escape of a pair of surrogates is rewritten to the bytes of their character. -/
theorem parseUtf16_pair {u a b c d a' b' c' d' : UInt8} {lead trail : Nat}
    (hlead : hexUnit a b c d = some lead) (hleadRange : 0xd800 ≤ lead ∧ lead ≤ 0xdbff)
    (htrail : hexUnit a' b' c' d' = some trail) (htrailRange : 0xdc00 ≤ trail ∧ trail ≤ 0xdfff)
    (rest : List UInt8) :
    parseUtf16 (u :: a :: b :: c :: d :: backslash :: 0x75 :: a' :: b' :: c' :: d' :: rest) =
      some (utf8 (pairPoint lead trail), 10) := by
  obtain ⟨cp, hcp, rfl⟩ := exists_parseUtf16Hex hlead
    (backslash :: 0x75 :: a' :: b' :: c' :: d' :: rest)
  obtain ⟨cp', hcp', rfl⟩ := exists_parseUtf16Hex htrail rest
  have hpair := pair_toNat hleadRange htrailRange
  have hbounds : 0x10000 ≤ pairPoint cp.toNat cp'.toNat ∧
      pairPoint cp.toNat cp'.toNat < 0x110000 := by
    unfold pairPoint
    omega
  have hbig : 0x10000 ≤ ((((cp - 0xd800) &&& 0x3ff) <<< 10 ||| ((cp' - 0xdc00) &&& 0x3ff)) +
      0x10000).toNat := hpair ▸ hbounds.1
  have hvalid : ((((cp - 0xd800) &&& 0x3ff) <<< 10 ||| ((cp' - 0xdc00) &&& 0x3ff)) +
      0x10000).toNat.isValidChar := Or.inr ⟨by omega, by omega⟩
  have hleadIs : (0xd800 : UInt32) ≤ cp ∧ cp ≤ 0xdbff :=
    ⟨UInt32.le_iff_toNat_le.mpr hleadRange.1, UInt32.le_iff_toNat_le.mpr hleadRange.2⟩
  have htrailIs : ¬(cp' < 0xdc00 ∨ 0xdfff < cp') := by
    rw [UInt32.lt_iff_toNat_lt, UInt32.lt_iff_toNat_lt]
    exact not_or.mpr ⟨Nat.not_lt.mpr htrailRange.1, Nat.not_lt.mpr htrailRange.2⟩
  have hnot {k x : UInt32} (hk : k.toNat ≤ x.toNat) : ¬x < k :=
    fun h => Nat.not_lt.mpr hk (UInt32.lt_iff_toNat_lt.mp h)
  have hnotUnit : ¬(cp < 0xd800 ∨ 0xdfff < cp) :=
    not_or.mpr ⟨hnot hleadRange.1, hnot (hleadRange.2.trans (show 0xdbff ≤ 0xdfff by omega))⟩
  rw [← hpair, utf8_toNat hvalid, if_neg (hnot (Nat.le_trans (by decide) hbig)),
    if_neg (hnot (Nat.le_trans (by decide) hbig)), if_neg fun h =>
      absurd (UInt32.le_iff_toNat_le.mp h) (Nat.not_le.mpr (Nat.lt_of_lt_of_le (by decide) hbig))]
  simp only [parseUtf16, List.drop_succ_cons, List.drop_zero, hcp, hcp', deref, List.headD_cons,
    ne_eq, not_true_eq_false, or_self, if_false, if_neg hnotUnit, if_pos hleadIs, if_neg htrailIs,
    if_neg (hnot (Nat.le_trans (show (0x80 : UInt32).toNat ≤ 0xd800 by decide) hleadRange.1)),
    if_neg (hnot (Nat.le_trans (show (0x800 : UInt32).toNat ≤ 0xd800 by decide) hleadRange.1))]

/-- Every escape that {lit}`parse_utf16` rewrites is that of a character or of a pair of
surrogates. -/
theorem parseUtf16_eq_some {u : UInt8} {s out : List UInt8} {k : Nat}
    (h : parseUtf16 (u :: s) = some (out, k)) :
    ∃ a b c d rest n, s = a :: b :: c :: d :: rest ∧ hexUnit a b c d = some n ∧
      ((n < 0xd800 ∨ 0xdfff < n) ∨
        (0xd800 ≤ n ∧ n ≤ 0xdbff) ∧ ∃ a' b' c' d' rest' trail,
          rest = backslash :: 0x75 :: a' :: b' :: c' :: d' :: rest' ∧
          hexUnit a' b' c' d' = some trail ∧ 0xdc00 ≤ trail ∧ trail ≤ 0xdfff) := by
  simp only [parseUtf16, List.drop_succ_cons, List.drop_zero] at h
  cases hcp : parseUtf16Hex s with
  | none =>
    rw [hcp] at h
    cases h
  | some cp =>
    obtain ⟨a, b, c, d, rest, rfl, hunit⟩ := parseUtf16Hex_eq_some_iff.mp hcp
    refine ⟨a, b, c, d, rest, cp.toNat, rfl, hunit, ?_⟩
    by_cases hrange : cp.toNat < 0xd800 ∨ 0xdfff < cp.toNat
    · exact Or.inl hrange
    · have hnotUnit : ¬(cp < 0xd800 ∨ 0xdfff < cp) := by
        rwa [UInt32.lt_iff_toNat_lt, UInt32.lt_iff_toNat_lt]
      have hlow : 0xd800 ≤ cp.toNat := by omega
      have hnot {k : UInt32} (hk : k.toNat ≤ 0xd800) : ¬cp < k := fun hlt =>
        Nat.not_lt.mpr (hk.trans hlow) (UInt32.lt_iff_toNat_lt.mp hlt)
      simp only [hcp, if_neg (hnot (show (0x80 : UInt32).toNat ≤ 0xd800 by decide)),
        if_neg (hnot (show (0x800 : UInt32).toNat ≤ 0xd800 by decide)), if_neg hnotUnit] at h
      split at h
      · rename_i hlead
        split at h
        · cases h
        · rename_i hmark
          obtain ⟨hslash, hletter⟩ := not_or.mp hmark
          cases htrail : parseUtf16Hex (List.drop 6 (a :: b :: c :: d :: rest)) with
          | none =>
            rw [htrail] at h
            cases h
          | some trail =>
            rw [htrail] at h
            obtain ⟨a', b', c', d', rest', hrest, hunit'⟩ := parseUtf16Hex_eq_some_iff.mp htrail
            refine Or.inr ⟨⟨hlow, UInt32.le_iff_toNat_le.mp hlead.2⟩, a', b', c', d', rest',
              trail.toNat, ?_, hunit', ?_⟩
            · obtain _ | ⟨x, _ | ⟨y, rest⟩⟩ := rest
              · cases hrest
              · cases hrest
              · rw [show x = backslash from not_not.mp hslash,
                  show y = 0x75 from not_not.mp hletter]
                exact congrArg (fun t => backslash :: 0x75 :: t) hrest
            · by_cases htrailRange : trail < 0xdc00 ∨ 0xdfff < trail
              · simp only [if_pos htrailRange] at h
                cases h
              · rw [UInt32.lt_iff_toNat_lt, UInt32.lt_iff_toNat_lt] at htrailRange
                exact ⟨Nat.not_lt.mp fun hlt => htrailRange (Or.inl hlt),
                  Nat.not_lt.mp fun hlt => htrailRange (Or.inr hlt)⟩
      · cases h

/-! ## Quoted strings -/

theorem shortEscape_unicode : shortEscape 0x75 = none := by decide

/-- A round at a backslash. -/
theorem processChar_escape (e : UInt8) (s : List UInt8) :
    processChar (backslash :: e :: s) = (shortEscape e).elim
      (if e = 0x75 then (parseUtf16 (e :: s)).map fun p => (p.1, 1 + p.2) else none)
      fun c => some ([c], 1) := by
  simp only [processChar, deref, List.headD_cons, List.drop_succ_cons, List.drop_zero, if_true,
    shortEscape]
  split_ifs <;> rfl

theorem processChar_raw {c : UInt8} (h : 0x20 ≤ c ∧ c ≠ quote ∧ c ≠ backslash) (s : List UInt8) :
    processChar (c :: s) = some ([c], 0) := by
  rw [processChar, if_neg (show deref (c :: s) ≠ backslash from h.2.2),
    if_neg (show ¬deref (c :: s) < 0x20 from UInt8.not_lt.mpr h.1)]
  rfl

/-- The search for the closing quotation mark passes over what an escape starts with. -/
theorem skipToQuote_escape (e : UInt8) (s : List UInt8) :
    skipToQuote (backslash :: e :: s) = skipToQuote s := by
  rw [skipToQuote.eq_def]
  exact (if_neg (by decide)).trans (if_pos rfl)

theorem skipToQuote_raw {c : UInt8} (hq : c ≠ quote) (hb : c ≠ backslash) (s : List UInt8) :
    skipToQuote (c :: s) = skipToQuote s := by
  rw [skipToQuote.eq_def]
  exact (if_neg hq).trans (if_neg hb)

/-- The digits of an escape are passed over. -/
theorem skipToQuote_unit {a b c d : UInt8} {n : Nat} (h : hexUnit a b c d = some n)
    (s : List UInt8) : skipToQuote (a :: b :: c :: d :: s) = skipToQuote s := by
  simp only [hexUnit, Option.bind_eq_bind, Option.bind_eq_some_iff, Option.some.injEq] at h
  obtain ⟨n1, h1, n2, h2, n3, h3, n4, h4, -⟩ := h
  rw [skipToQuote_raw (hexValue_eq_some h1).2.1 (hexValue_eq_some h1).2.2,
    skipToQuote_raw (hexValue_eq_some h2).2.1 (hexValue_eq_some h2).2.2,
    skipToQuote_raw (hexValue_eq_some h3).2.1 (hexValue_eq_some h3).2.2,
    skipToQuote_raw (hexValue_eq_some h4).2.1 (hexValue_eq_some h4).2.2]

/-- The closing quotation mark stands before what is left. -/
theorem skipToQuote_lt {s rest : List UInt8} (h : skipToQuote s = some rest) :
    rest.length < s.length := by
  fun_induction skipToQuote s with
  | case1 => cases h
  | case2 =>
    obtain rfl := Option.some.inj h
    exact Nat.lt_succ_self _
  | case3 => cases h
  | case4 _ s _ ih => exact (ih h).trans (by simp)
  | case5 _ s _ _ ih => exact (ih h).trans (Nat.lt_succ_self _)

theorem processLoop_zero (s : List UInt8) : processLoop 0 s = some [] := by
  rw [processLoop, if_pos (Or.inr rfl)]

theorem processLoop_cons {left : Nat} (hleft : 0 < left) (c : UInt8) (s : List UInt8) :
    processLoop left (c :: s) = (processChar (c :: s)).bind fun p =>
      (processLoop (left - (p.2 + 1)) (s.drop p.2)).map (p.1 ++ ·) := by
  rw [processLoop, if_neg (not_or.mpr ⟨List.cons_ne_nil c s, hleft.ne'⟩)]
  refine congrArg (processChar (c :: s)).bind (funext fun p => ?_)
  rw [List.drop_succ_cons]
  cases processLoop (left - (p.2 + 1)) (s.drop p.2) <;> rfl

/-- The characters up to the closing quotation mark. -/
theorem quoted_of_process {s rest chars : List UInt8} (hrest : skipToQuote s = some rest)
    (hchars : processLoop (s.length - rest.length - 1) s = some chars) : Quoted s chars rest := by
  induction hn : s.length using Nat.strong_induction_on generalizing s chars with
  | _ n ih =>
    have hread {t out : List UInt8} (hlt : t.length < n) (ht : skipToQuote t = some rest)
        {left : Nat} (hleft : left = t.length - rest.length - 1)
        (hout : processLoop left t = some out) : Quoted t out rest :=
      ih t.length hlt ht (hleft ▸ hout) rfl
    obtain _ | ⟨c, s⟩ := s
    · cases hrest
    have hlt := skipToQuote_lt hrest
    simp only [List.length_cons] at hlt hchars hn
    by_cases hq : c = quote
    · subst hq
      rw [skipToQuote.eq_def] at hrest
      obtain rfl := Option.some.inj hrest
      rw [show s.length + 1 - s.length - 1 = 0 by omega, processLoop_zero] at hchars
      obtain rfl := Option.some.inj hchars
      exact .close s
    by_cases hb : c = backslash
    · subst hb
      obtain _ | ⟨e, s⟩ := s
      · cases hrest
      rw [skipToQuote_escape] at hrest
      have hlt' := skipToQuote_lt hrest
      simp only [List.length_cons] at hlt hchars hn
      rw [processLoop_cons (by omega), processChar_escape, Option.bind_eq_some_iff] at hchars
      obtain ⟨p, hp, hmap⟩ := hchars
      obtain ⟨out, hout, rfl⟩ := Option.map_eq_some_iff.mp hmap
      cases hshort : shortEscape e with
      | some c =>
        rw [hshort] at hp
        obtain rfl := Option.some.inj hp
        exact .short hshort (hread (by omega) hrest (by omega) hout)
      | none =>
        rw [hshort, Option.elim_none] at hp
        by_cases he : e = 0x75
        · subst he
          rw [if_pos rfl] at hp
          obtain ⟨q, hutf, rfl⟩ := Option.map_eq_some_iff.mp hp
          obtain ⟨a, b, c, d, t, u, rfl, hu, hrange | ⟨hrange, hpair⟩⟩ := parseUtf16_eq_some hutf
          · rw [parseUtf16_unit hu hrange] at hutf
            obtain rfl := Option.some.inj hutf
            rw [skipToQuote_unit hu] at hrest
            simp only [List.length_cons] at hn hout
            exact .unit hu hrange (hread (by omega) hrest (by omega) hout)
          · obtain ⟨a', b', c', d', t', trail, rfl, htrail, hlow, hhigh⟩ := hpair
            rw [parseUtf16_pair hu hrange htrail ⟨hlow, hhigh⟩] at hutf
            have hq := Option.some.inj hutf
            subst hq
            rw [skipToQuote_unit hu, skipToQuote_escape, skipToQuote_unit htrail] at hrest
            simp only [List.length_cons] at hn hout
            exact .pair hu hrange htrail ⟨hlow, hhigh⟩ (hread (by omega) hrest (by omega) hout)
        · rw [if_neg he] at hp
          cases hp
    · rw [skipToQuote_raw hq hb] at hrest
      have hlt' := skipToQuote_lt hrest
      rw [processLoop_cons (by omega), Option.bind_eq_some_iff] at hchars
      obtain ⟨p, hp, hmap⟩ := hchars
      obtain ⟨out, hout, rfl⟩ := Option.map_eq_some_iff.mp hmap
      have hlow : 0x20 ≤ c := by
        by_contra hlow
        rw [processChar, if_neg (show deref (c :: s) ≠ backslash from hb),
          if_pos (show deref (c :: s) < 0x20 from UInt8.not_le.mp hlow)] at hp
        cases hp
      rw [processChar_raw ⟨hlow, hq, hb⟩] at hp
      obtain rfl := Option.some.inj hp
      exact .raw ⟨hlow, hq, hb⟩ (hread (by omega) hrest (by omega) hout)

theorem process_of_quoted {s rest chars : List UInt8} (h : Quoted s chars rest) :
    skipToQuote s = some rest ∧ processLoop (s.length - rest.length - 1) s = some chars := by
  have hleft {left left' : Nat} {t : List UInt8} {out : Option (List UInt8)}
      (hout : processLoop left t = out) (heq : left' = left) : processLoop left' t = out :=
    heq ▸ hout
  induction h with
  | close rest =>
    refine ⟨by rw [skipToQuote.eq_def]; rfl, ?_⟩
    rw [List.length_cons, show rest.length + 1 - rest.length - 1 = 0 by omega, processLoop_zero]
  | raw hc h ih =>
    have hlt := skipToQuote_lt ih.1
    refine ⟨(skipToQuote_raw hc.2.1 hc.2.2 _).trans ih.1, ?_⟩
    rw [List.length_cons, processLoop_cons (by omega), processChar_raw hc, Option.bind_some]
    exact Option.map_eq_some_iff.mpr ⟨_, hleft ih.2 (by dsimp only; omega), rfl⟩
  | short he h ih =>
    have hlt := skipToQuote_lt ih.1
    refine ⟨(skipToQuote_escape _ _).trans ih.1, ?_⟩
    rw [List.length_cons, List.length_cons, processLoop_cons (by omega), processChar_escape, he,
      Option.elim_some, Option.bind_some]
    exact Option.map_eq_some_iff.mpr ⟨_, hleft ih.2 (by dsimp only; omega), rfl⟩
  | unit hn hrange h ih =>
    have hlt := skipToQuote_lt ih.1
    refine ⟨((skipToQuote_escape _ _).trans (skipToQuote_unit hn _)).trans ih.1, ?_⟩
    simp only [List.length_cons]
    rw [processLoop_cons (by omega), processChar_escape, shortEscape_unicode, Option.elim_none,
      if_pos rfl, parseUtf16_unit hn hrange, Option.map_some, Option.bind_some]
    exact Option.map_eq_some_iff.mpr ⟨_, hleft ih.2 (by dsimp only; omega), rfl⟩
  | pair hlead hleadRange htrail htrailRange h ih =>
    have hlt := skipToQuote_lt ih.1
    refine ⟨((skipToQuote_escape _ _).trans (skipToQuote_unit hlead _)).trans
      (((skipToQuote_escape _ _).trans (skipToQuote_unit htrail _)).trans ih.1), ?_⟩
    simp only [List.length_cons]
    rw [processLoop_cons (by omega), processChar_escape, shortEscape_unicode, Option.elim_none,
      if_pos rfl, parseUtf16_pair hlead hleadRange htrail htrailRange, Option.map_some,
      Option.bind_some]
    exact Option.map_eq_some_iff.mpr ⟨_, hleft ih.2 (by dsimp only; omega), rfl⟩

/-- The two passes over a string read the grammar of quoted strings. -/
theorem getQuotedString_eq_some_iff {s chars rest : List UInt8} :
    getQuotedString s = some (chars, rest) ↔
      ∃ t, s = quote :: t ∧ Quoted t chars rest := by
  constructor
  · intro h
    simp only [getQuotedString, skipQuotes, Option.bind_eq_bind, Option.bind_eq_some_iff,
      Option.some.injEq, Prod.mk.injEq] at h
    obtain ⟨rest', hrest, chars', hchars, rfl, rfl⟩ := h
    obtain _ | ⟨c, t⟩ := s
    · cases hrest
    by_cases hc : deref (c :: t) = quote
    · rw [if_neg (not_not.mpr hc)] at hrest
      have hlength : (c :: t).length - rest'.length - 2 = t.length - rest'.length - 1 := by
        rw [List.length_cons]
        omega
      rw [hlength] at hchars
      exact ⟨t, congrArg (· :: t) hc, quoted_of_process hrest hchars⟩
    · rw [if_pos hc] at hrest
      cases hrest
  · rintro ⟨t, rfl, h⟩
    obtain ⟨hrest, hchars⟩ := process_of_quoted h
    have hskip : skipQuotes (quote :: t) = some rest := (if_neg (not_not.mpr rfl)).trans hrest
    have hlength : (quote :: t).length - rest.length - 2 = t.length - rest.length - 1 := by
      rw [List.length_cons]
      omega
    have hprocess : processString t ((quote :: t).length - rest.length - 2) = some chars :=
      hlength ▸ hchars
    rw [getQuotedString, hskip, Option.bind_eq_bind, Option.bind_some, List.drop_succ_cons,
      List.drop_zero]
    exact congrArg (Option.bind · fun chars => some (chars, rest)) hprocess

theorem getQuotedString_length {s chars rest : List UInt8}
    (h : getQuotedString s = some (chars, rest)) : rest.length < s.length := by
  obtain ⟨t, rfl, hquoted⟩ := getQuotedString_eq_some_iff.mp h
  exact (skipToQuote_lt (process_of_quoted hquoted).1).trans (Nat.lt_succ_self _)

end LibAmvp.Parson
