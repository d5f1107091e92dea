import LibAmvp.Capabilities.Kda
import LibAmvp.Kat.VectorSet
import LibAmvp.SafeC.StringCopy
import LibAmvp.SafeC.Tokens
import LibAmvp.Session.Context
import LibAmvp.Session.UserAgent

/-!
# Copies of texts

The library copies texts of its own into buffers that hold no other text.  Byte by byte, with
{lit}`strcpy_s` and {lit}`strncpy_s` of the safe string stub, these are the copies of strings that
the rest of the development works with.  The buffers of the user agent are followed cell by cell
and may hold another text before.

Main results:

- Theorem {lit}`strncpyS_text`: a text that fits is copied.
- Theorem {lit}`copies_refine`: the copies in memory are the copies of the strings.
- Theorem {lit}`field_strncpyS_refines`: the copies into the buffers of the user agent are those
  in memory.
- Theorem {lit}`snprintf_text`: a string is printed into cells as it is printed into a string.
-/

namespace LibAmvp.SafeC

/-! ## Texts that are copied -/

/-- The number of characters of a text in memory, at most a count. -/
theorem strnlen_text {m : Memory} {a : Nat} {s : List UInt8} (h : Text m a s) (n : Nat) :
    strnlen m a n = min s.length n := by
  induction n generalizing a s with
  | zero => simp [strnlen]
  | succ n ih =>
    cases s with
    | nil => simp [strnlen, show m a = 0 from h]
    | cons c s =>
      rw [strnlen, h.1, if_neg h.2.1, ih h.2.2, List.length_cons]
      omega

/-- The front of a text is a text where it was copied and a terminator was set behind it. -/
theorem text_of_front {m m' : Memory} {a b : Nat} {s t : List UInt8} (h : Text m a (s ++ t))
    (hchars : ∀ j < s.length, m' (b + j) = m (a + j)) (hnul : m' (b + s.length) = 0) :
    Text m' b s := by
  induction s generalizing a b with
  | nil => exact hnul
  | cons c s ih =>
    refine ⟨(hchars 0 (Nat.succ_pos _)).trans h.1, h.2.1, ih h.2.2 (fun j hj => ?_) ?_⟩
    · have hnext := hchars (j + 1) (Nat.succ_lt_succ hj)
      rwa [← Nat.add_assoc, Nat.add_right_comm, ← Nat.add_assoc a, Nat.add_right_comm a] at hnext
    · rwa [List.length_cons, ← Nat.add_assoc, Nat.add_right_comm] at hnul

/-- As many characters of a text as the count allows are copied when they fit in a buffer of
their own. -/
theorem strncpyS_text (dest : Nat) {m : Memory} {src dmax slen : Nat} {s : List UInt8}
    (h : Text m src s) (hroom : min s.length slen < dmax) (hmax : dmax ≤ NulString.rsizeMaxStr)
    (hapart : dmax ≤ distance dest src) :
    (strncpyS m (some dest) dmax (some src) slen).1 = .eok ∧
      Text (strncpyS m (some dest) dmax (some src) slen).2 dest (s.take slen) := by
  have hlength : strnlen m src slen = (s.take slen).length := by
    rw [strnlen_text h, List.length_take, Nat.min_comm]
  have hshort : (s.take slen).length < dmax := by
    rwa [List.length_take, Nat.min_comm]
  have hfits : strnlen m src slen < min dmax (distance dest src) := by omega
  have hfront : Text m src (s.take slen ++ s.drop slen) := by
    rwa [List.take_append_drop]
  rw [strncpyS_eq m dest src slen (by omega) hmax]
  refine ⟨fittedCopy_eok_iff.mpr hfits, text_of_front hfront (fun j hj => ?_) ?_⟩
  · exact (fittedCopy_reads hfits).2 j (by omega)
  · rw [fittedCopy, if_pos hfits, hlength]
    exact Function.update_self _ _ _

/-! ## Copies that fit or are refused -/

/-- {lit}`strncpy`, which fills the buffer with zeros behind the characters. -/
def strncpy (m : Memory) (dest src n : Nat) : Memory := fun k =>
  if dest ≤ k ∧ k < dest + n then
    if k - dest < strnlen m src n then m (src + (k - dest)) else 0
  else m k

/-- {lit}`strcpy_s`. -/
def strcpyS (m : Memory) (dest : Option Nat) (dmax : Nat) (src : Option Nat) : Errno × Memory :=
  match dest, src with
  | some dest, some src =>
    if dmax = 0 then (.eszerol, m)
    else if dmax ≤ strnlen m src dmax then (.esnospc, m)
    else (.eok, strncpy m dest src dmax)
  | _, _ => (.esnullp, m)

theorem strcpyS_text (dest : Nat) {m : Memory} {src dmax : Nat} {s : List UInt8}
    (h : Text m src s) (hroom : s.length < dmax) :
    Text (strcpyS m (some dest) dmax (some src)).2 dest s := by
  have hlength : strnlen m src dmax = s.length := by
    rw [strnlen_text h, Nat.min_eq_left hroom.le]
  rw [strcpyS, if_neg (by omega), if_neg (by omega)]
  refine text_of_front (show Text m src (s ++ []) by rwa [List.append_nil]) (fun j hj => ?_) ?_
  · dsimp only
    rw [strncpy, if_pos (by omega), if_pos (by omega), Nat.add_sub_cancel_left]
  · dsimp only
    rw [strncpy, if_pos (by omega), if_neg (by omega)]

/-! ## Copies of strings -/

theorem cBytes_take (s : String) (n : Nat) :
    cBytes (String.ofList (s.toList.take n)) = (cBytes s).take n := by
  rw [cBytes, cBytes, String.toList_ofList, List.map_take]

/-- For a string in memory and an empty buffer that is apart from it, the buffer holds after
{lit}`strcpy_s` and after {lit}`strncpy_s` what the copies of strings say. -/
theorem copies_refine {s : String} {m : Memory} {dest src dmax : Nat}
    (htext : Text m src (cBytes s)) (hempty : m dest = 0) (hpos : 0 < dmax)
    (hmax : dmax ≤ NulString.rsizeMaxStr) (hapart : dmax ≤ distance dest src) :
    Text (strcpyS m (some dest) dmax (some src)).2 dest (cBytes (LibAmvp.strcpyS dmax s)) ∧
    ∀ slen, Text (strncpyS m (some dest) dmax (some src) slen).2 dest
      (cBytes (LibAmvp.strncpyS dmax s slen)) := by
  have hlength := length_cBytes s
  constructor
  · rw [LibAmvp.strcpyS]
    by_cases hfits : s.length < dmax
    · rw [if_pos hfits]
      exact strcpyS_text dest htext (by omega)
    · rw [if_neg hfits, strcpyS, if_neg hpos.ne', strnlen_text htext, if_pos (by omega)]
      exact hempty
  · intro slen
    rw [LibAmvp.strncpyS]
    by_cases hfits : min slen s.length < dmax
    · rw [if_pos hfits, cBytes_take]
      exact (strncpyS_text dest htext (by omega) hmax hapart).2
    · rw [if_neg hfits, strncpyS_eq m dest src slen hpos hmax]
      refine fittedCopy_emptyString ?_
      rw [strnlen_text htext]
      omega

/-- The length of a string is that of its bytes in either reading. -/
theorem strnlenS_cBytes {s : String} (h : 0 ∉ cBytes s) (n : Nat) :
    NulString.strnlenS (some (.ofBytes (cBytes s))) n = strnlenS s n := by
  calc
    NulString.strnlenS (some (.ofBytes (cBytes s))) n =
        min (NulString.ofBytes (cBytes s)).chars.length n := NulString.strnlenS_some _ _
    _ = min (cBytes s).length n := by rw [NulString.ofBytes_chars h]
    _ = strnlenS s n := rfl

theorem copies_refine_jwt :
    Text (strcpyS (Memory.ofBytes [0x6a, 0x77, 0x74]) (some 1000) 3 (some 0)).2 1000 [] ∧
      Text (strncpyS (Memory.ofBytes [0x6a, 0x77, 0x74]) (some 1000) 3 (some 0) 2).2 1000
        [0x6a, 0x77] := by
  have htext : Text (Memory.ofBytes [0x6a, 0x77, 0x74]) 0 (cBytes "jwt") :=
    ⟨rfl, by decide, rfl, by decide, rfl, by decide, rfl⟩
  have hread := copies_refine htext (show Memory.ofBytes [0x6a, 0x77, 0x74] 1000 = 0 from rfl)
    (show 0 < 3 by decide) (by decide) (by decide)
  exact ⟨hread.1, hread.2 2⟩

/-! ## Copies into cells -/

/-- The cells of a buffer in memory. -/
def HoldsCells (m : Memory) (a : Nat) (cells : List Char) : Prop :=
  ∀ i c, cells[i]? = some c → m (a + i) = c.val.toUInt8

theorem text_getElem {m : Memory} {a : Nat} {s : List UInt8} (h : Text m a s) {i : Nat}
    {b : UInt8} (hi : s[i]? = some b) : m (a + i) = b := by
  induction s generalizing a i with
  | nil => simp at hi
  | cons c s ih =>
    cases i with
    | zero => exact h.1.trans (Option.some.inj hi)
    | succ i =>
      rw [← ih h.2.2 hi]
      congr 1
      omega

/-- After the copy into a buffer of the user agent, the cells in memory are those of the
buffer. -/
theorem field_strncpyS_refines {max : Nat} (f : Field max) {m : Memory} {dest src : Nat}
    {s : List Char} (hcells : HoldsCells m dest f.cells)
    (htext : Text m src (s.map fun c => c.val.toUInt8)) (hnul : nul ∉ s)
    (hmax : max < NulString.rsizeMaxStr) (hapart : max + 1 ≤ distance dest src) :
    HoldsCells (strncpyS m (some dest) (max + 1) (some src) max).2 dest (f.strncpyS s).cells := by
  have hlength : strnlen m src max = (s.take max).length := by
    rw [strnlen_text htext, List.length_map, List.length_take, Nat.min_comm]
  have hfits : strnlen m src max < min (max + 1) (distance dest src) := by
    rw [hlength, List.length_take]
    omega
  have hs : Cells.text nul s = s :=
    List.takeWhile_eq_self_iff.mpr fun c hc => by
      simpa using fun heq : c = nul => hnul (heq ▸ hc)
  intro i c hi
  change (((Cells.text nul s).take max ++
    nul :: f.cells.drop (((Cells.text nul s).take max).length + 1))[i]? = some c) at hi
  rw [hs] at hi
  rw [strncpyS_eq m dest src max (by omega) hmax]
  rcases Nat.lt_trichotomy i (s.take max).length with hlt | rfl | hgt
  · -- a character that was copied
    rw [List.getElem?_append_left hlt, List.getElem?_take] at hi
    rw [(fittedCopy_reads hfits).2 i (by omega)]
    refine text_getElem htext ?_
    split at hi
    · rw [List.getElem?_map, hi]
      rfl
    · cases hi
  · -- the terminator
    rw [List.getElem?_append_right le_rfl, Nat.sub_self, List.getElem?_cons_zero] at hi
    rw [fittedCopy, if_pos hfits, hlength, ← Option.some.inj hi]
    exact Function.update_self _ _ _
  · -- a cell behind the terminator
    obtain ⟨j, rfl⟩ := Nat.exists_eq_add_of_lt hgt
    rw [List.getElem?_append_right (by omega), show (s.take max).length + j + 1 -
      (s.take max).length = j + 1 by omega, List.getElem?_cons_succ, List.getElem?_drop] at hi
    rw [fittedCopy, if_pos hfits, hlength]
    dsimp only
    rw [Function.update_of_ne (by omega), copied, if_neg (by omega)]
    exact hcells _ c (by rwa [Nat.add_right_comm] at hi)

/-- A string that is printed into the front of some cells is cut off there as it is in a string. -/
theorem snprintf_text {cells : List Char} {s : String} {size : Nat} (hnul : nul ∉ s.toList)
    (hpos : 0 < size) (hsize : size ≤ cells.length) :
    ∃ cells', Cells.snprintf nul cells 0 size s.toList = .ok cells' ∧
      Cells.text nul cells' = (snprintf size s).toList := by
  have hlength : (s.toList.take (size - 1) ++ [nul]).length ≤ cells.length := by
    simp only [List.length_append, List.length_take, List.length_singleton]
    omega
  have hwrite := Cells.writeAll_append [] (cells.take (s.toList.take (size - 1) ++ [nul]).length)
    (cells.drop (s.toList.take (size - 1) ++ [nul]).length) (s.toList.take (size - 1) ++ [nul])
    (by rw [List.length_take, Nat.min_eq_left hlength])
  rw [List.nil_append, List.take_append_drop, List.nil_append] at hwrite
  refine ⟨_, (if_neg (by omega)).trans hwrite, ?_⟩
  rw [List.append_assoc, List.singleton_append,
    Cells.text_append fun hmem => hnul (List.mem_of_mem_take hmem), snprintf, String.toList_ofList]

end LibAmvp.SafeC
