import LibAmvp.Parson.Accessors
import LibAmvp.Registration.KdaPattern
import LibAmvp.SafeC.TextCopy

/-!
# The tokens of a pattern

The reader of a pattern copies its text to a buffer of its own with {lit}`strncpy_s` and asks
{lit}`strtok_s` for the tokens there, with the length of the text in {lit}`dmax`.

Main results:

- Theorem {lit}`tokens_patternTokens`: the tokens that are read are those of the pattern.
-/

namespace LibAmvp.SafeC

open Parson

/-- The delimiters that {lit}`read_info_pattern` hands to {lit}`strtok_s`. -/
def patternDelimiters : NulString := NulString.ofBytes [0x7c, 0x7c]

theorem isDelimiter_pattern (c : UInt8) : isDelimiter patternDelimiters c = decide (c = 0x7c) := by
  rw [isDelimiter, decide_eq_decide, patternDelimiters, NulString.ofBytes_chars (by decide)]
  simp

/-- The tokens of a pattern are the pieces of its bytes. -/
theorem pieces_cBytes {str : String} (hstr : IsCString str) :
    pieces (isDelimiter patternDelimiters) (cBytes str) =
      (patternTokens str).map fun token => token.map fun c => c.val.toUInt8 := by
  rw [cBytes, patternTokens_eq_pieces]
  refine pieces_map fun c hc => ?_
  rw [isDelimiter_pattern, beq_eq_decide, decide_eq_decide]
  constructor
  · intro hbar
    have hchar := ofNat_toUInt8 (hstr c hc).2
    rw [hbar] at hchar
    exact hchar.symm
  · rintro rfl
    rfl

/-- The reader of a pattern copies its text to a buffer of its own and asks for the tokens there
until there is none: it gets them all, and no other. -/
theorem tokens_patternTokens {str : String} (hstr : IsCString str) {m : Memory} {cpy src : Nat}
    (htext : Text m src (cBytes str)) (hshort : (cBytes str).length ≤ kdaPatternRegStrLenMax)
    (hapart : kdaPatternRegStrLenMax < distance cpy src) {rounds : Nat}
    (hrounds : (patternTokens str).length < rounds) :
    ∃ m', strncpyS m (some cpy) (kdaPatternRegStrLenMax + 1) (some src) kdaPatternRegStrLenMax =
        (.eok, m') ∧
      tokens patternDelimiters kdaPatternRegStrLenMax rounds
          ⟨m', strnlen m src (kdaPatternRegStrLenMax + 1), none⟩ (some cpy) =
        some ((patternTokens str).map fun token => token.map fun c => c.val.toUInt8) := by
  rcases strncpyS_text cpy htext (by omega) (by decide) hapart with ⟨hcode, hcopy⟩
  rw [List.take_of_length_le hshort] at hcopy
  refine ⟨_, Prod.ext hcode rfl, ?_⟩
  rw [strnlen_text htext, Nat.min_eq_left (by omega), ← pieces_cBytes hstr]
  refine tokens_eq_pieces (by decide) (by decide) ⟨rfl, ?_, fun _ => ⟨cpy, rfl, hcopy⟩⟩ hshort ?_
  · exact hshort.trans (by decide)
  · rw [pieces_cBytes hstr, List.length_map]
    exact hrounds

theorem tokens_patternTokens_two :
    ∃ m', strncpyS (Memory.ofBytes [0x6c, 0x7c, 0x7c, 0x74]) (some 1000) 257 (some 0) 256 =
        (.eok, m') ∧
      tokens patternDelimiters 256 3 ⟨m', 4, none⟩ (some 1000) = some [[0x6c], [0x74]] := by
  have hbytes : cBytes "l||t" = [0x6c, 0x7c, 0x7c, 0x74] := by decide
  have htokens : patternTokens "l||t" = [['l'], ['t']] := by decide
  have htext : Text (Memory.ofBytes [0x6c, 0x7c, 0x7c, 0x74]) 0 (cBytes "l||t") := by
    rw [hbytes]
    exact ⟨rfl, by decide, rfl, by decide, rfl, by decide, rfl, by decide, rfl⟩
  have hread := tokens_patternTokens (by decide) htext (by rw [hbytes]; decide)
    (show kdaPatternRegStrLenMax < distance 1000 0 by decide)
    (show (patternTokens "l||t").length < 3 by rw [htokens]; decide)
  rw [htokens, strnlen_text htext, hbytes] at hread
  exact hread

end LibAmvp.SafeC
