import LibAmvp.Kat.RsaSig
import LibAmvp.Lib.NulString
import LibAmvp.Lib.WriteLog

/-!
# The padding of RSA signatures

Before a signature is verified, the handler brings it to the length of the modulus.  It
allocates a string of that length, writes zeros to its front and copies the signature behind
them.  The number of zeros is a difference of unsigned numbers, and the length of the signature
was only compared with the most that any modulus allows.

Main results:

- Theorem {lit}`padSignature_eq_handed`: the signature that the model of the handler pads.
- Theorem {lit}`padding_safe_iff`: a signature is padded safely exactly when it is not longer than
  the modulus.
-/

namespace LibAmvp

open Guard WriteLog

/-- The writes of {lit}`memcpy_s`, which copies nothing when there is too much. -/
def copyWrites (place : Nat) (destMax : UInt32) (src : List UInt8) (n : UInt32) : WriteLog :=
  if n > destMax then [] else writeAt place (src.take n.toNat)

/-- The part of {lit}`amvp_rsa_sig_kat_handler_internal` that pads a signature: what is written to
the string of {lit}`mod/4 + 1` characters. -/
def padRsaSignature (mod : UInt32) (signature : Option NulString) : Except AmvpResult WriteLog := do
  let signature ← need signature .missingArg
  let jsonSiglen : UInt32 := .ofNat (NulString.strnlenS (some signature) (rsaSignatureMax + 1))
  stopIf (jsonSiglen > .ofNat rsaSignatureMax) .invalidArg
  if jsonSiglen ≠ mod / 4 then
    let padding := mod / 4 - jsonSiglen
    pure (writeAt 0 (List.replicate padding.toNat 48) ++
      copyWrites padding.toNat (mod / 4) signature.chars jsonSiglen)
  else
    pure (copyWrites 0 (mod / 4) signature.chars jsonSiglen)

/-- The characters that were allocated. -/
def signatureRoom (mod : UInt32) : Nat := (mod / 4).toNat + 1

/-- The string that {lit}`amvp_rsa_sig_init_tc` gets. -/
def handedSignature (mod : UInt32) (log : WriteLog) : NulString :=
  .ofBytes (log.contents.read (signatureRoom mod))

/-- The moduli that the handler accepts. -/
def rsaModuli : List UInt32 := [1024, 1536, 2048, 3072, 4096]

/-- A signature is padded safely: all writes are inside the string, which then holds the
signature with zeros in front, as many as the modulus has digits, and a longer signature is
refused. -/
def PadsSafely (mod : UInt32) (signature : NulString) : Prop :=
  (∀ log, padRsaSignature mod (some signature) = .ok log → log.Inside (signatureRoom mod) ∧
    (handedSignature mod log).chars =
      List.replicate ((mod / 4).toNat - signature.chars.length) 48 ++ signature.chars) ∧
  (signature.chars.length ≤ (mod / 4).toNat →
    ∃ log, padRsaSignature mod (some signature) = .ok log) ∧
  ((mod / 4).toNat < signature.chars.length →
    ∃ rv, padRsaSignature mod (some signature) = .error rv)

/-! ## Writes -/

theorem siglen_toNat {n : Nat} (h : n ≤ rsaSignatureMax) : (UInt32.ofNat n).toNat = n := by
  rw [UInt32.toNat_ofNat']
  unfold rsaSignatureMax at h
  omega

/-- A signature that is short enough for some modulus is padded. -/
theorem padRsaSignature_ok (mod : UInt32) {signature : NulString}
    (hmax : signature.chars.length ≤ rsaSignatureMax) :
    padRsaSignature mod (some signature) = .ok
      (writeAt 0 (List.replicate (mod / 4 - .ofNat signature.chars.length).toNat 48) ++
        copyWrites (mod / 4 - .ofNat signature.chars.length).toNat (mod / 4) signature.chars
          (.ofNat signature.chars.length)) := by
  have hlength : NulString.strnlenS (some signature) (rsaSignatureMax + 1) =
      signature.chars.length := by
    rw [NulString.strnlenS_some]
    omega
  have hfits : ¬UInt32.ofNat signature.chars.length > .ofNat rsaSignatureMax := by
    rw [gt_iff_lt, UInt32.lt_iff_toNat_lt, siglen_toNat hmax, siglen_toNat le_rfl]
    omega
  unfold padRsaSignature
  rw [need_some, ok_bind]
  dsimp only
  rw [hlength, stopIf_neg hfits, ok_bind]
  split_ifs with hfull
  · rfl
  · rw [not_not.mp hfull]
    rw [UInt32.sub_self]
    rfl

/-- The zeros of a signature that is not longer than the modulus. -/
theorem padding_toNat {mod : UInt32} {n : Nat} (hfits : n ≤ (mod / 4).toNat) :
    (mod / 4 - .ofNat n).toNat = (mod / 4).toNat - n := by
  have hmod := (mod / 4).toNat_lt
  have hn : (UInt32.ofNat n).toNat = n := by
    rw [UInt32.toNat_ofNat']
    omega
  rw [UInt32.toNat_sub_of_le _ _ (by rw [UInt32.le_iff_toNat_le, hn]; exact hfits), hn]

/-- The zeros of a longer signature: their number wraps. -/
theorem padding_wraps {mod : UInt32} {n : Nat} (hlong : (mod / 4).toNat < n)
    (hmax : n ≤ rsaSignatureMax) :
    (mod / 4 - .ofNat n).toNat = 2 ^ 32 + (mod / 4).toNat - n := by
  rw [UInt32.toNat_sub, siglen_toNat hmax]
  unfold rsaSignatureMax at hmax
  omega

/-- A signature that is not longer than the modulus is written with the zeros in front. -/
theorem padRsaSignature_fits {mod : UInt32} {signature : NulString}
    (hmax : signature.chars.length ≤ rsaSignatureMax)
    (hfits : signature.chars.length ≤ (mod / 4).toNat) :
    padRsaSignature mod (some signature) = .ok
      (writeAt 0 (List.replicate ((mod / 4).toNat - signature.chars.length) 48) ++
        writeAt ((mod / 4).toNat - signature.chars.length) signature.chars) := by
  rw [padRsaSignature_ok mod hmax, padding_toNat hfits, copyWrites, if_neg, siglen_toNat hmax,
    List.take_length]
  rw [gt_iff_lt, UInt32.lt_iff_toNat_lt, siglen_toNat hmax]
  omega

/-- What is handed on of a signature that is not longer than the modulus. -/
theorem handedSignature_fits {mod : UInt32} {signature : NulString}
    (hfits : signature.chars.length ≤ (mod / 4).toNat) :
    (handedSignature mod
      (writeAt 0 (List.replicate ((mod / 4).toNat - signature.chars.length) 48) ++
        writeAt ((mod / 4).toNat - signature.chars.length) signature.chars)).chars =
      List.replicate ((mod / 4).toNat - signature.chars.length) 48 ++ signature.chars := by
  have hread := read_contents_writeAt
    (List.replicate ((mod / 4).toNat - signature.chars.length) 48) signature.chars 1
  rw [List.length_replicate, Nat.sub_add_cancel hfits] at hread
  have hnul : ∀ ch ∈ List.replicate ((mod / 4).toNat - signature.chars.length) 48 ++
      signature.chars, decide (ch ≠ 0) = true := by
    intro ch hch
    refine decide_eq_true fun hzero => ?_
    rcases List.mem_append.mp hch with hpad | hsig
    · exact absurd (hzero ▸ List.eq_of_mem_replicate hpad) (by decide)
    · exact signature.noNul (hzero ▸ hsig)
  unfold handedSignature signatureRoom NulString.ofBytes
  dsimp only
  rw [hread, List.takeWhile_append_of_pos hnul]
  simp

/-- The zeros of a longer signature are written far behind the string. -/
theorem padRsaSignature_leaves {mod : UInt32} (hmod : mod ∈ rsaModuli) {signature : NulString}
    (hmax : signature.chars.length ≤ rsaSignatureMax)
    (hlong : (mod / 4).toNat < signature.chars.length) :
    ∃ log, padRsaSignature mod (some signature) = .ok log ∧ ¬log.Inside (signatureRoom mod) := by
  have hquarter : (mod / 4).toNat ≤ 1024 := by
    have hmod' : mod.toNat ≤ 4096 := by
      simp only [rsaModuli, List.mem_cons, List.not_mem_nil, or_false] at hmod
      rcases hmod with rfl | rfl | rfl | rfl | rfl <;> simp
    rw [UInt32.toNat_div]
    exact (Nat.div_le_div_right hmod').trans (by simp)
  refine ⟨_, padRsaSignature_ok mod hmax, fun hinside => ?_⟩
  rw [padding_wraps hlong hmax, inside_append, inside_writeAt, List.length_replicate,
    List.replicate_eq_nil_iff] at hinside
  unfold signatureRoom at hinside
  unfold rsaSignatureMax at hmax
  omega

/-- For every modulus and every signature that passes the check, the signature is padded safely
exactly when it is not longer than the modulus. -/
theorem padding_safe_iff (mod : UInt32) (signature : NulString)
    (hmax : signature.chars.length ≤ rsaSignatureMax) :
    PadsSafely mod signature ↔ signature.chars.length ≤ (mod / 4).toNat := by
  unfold PadsSafely
  constructor
  · rintro ⟨-, -, hrefused⟩
    by_contra hlong
    obtain ⟨rv, hrv⟩ := hrefused (not_le.mp hlong)
    rw [padRsaSignature_ok mod hmax] at hrv
    cases hrv
  · intro hfits
    refine ⟨fun log hlog => ?_, fun _ => ⟨_, padRsaSignature_fits hmax hfits⟩,
      fun hlong => absurd hfits (not_le.mpr hlong)⟩
    rw [padRsaSignature_fits hmax hfits] at hlog
    cases hlog
    refine ⟨?_, handedSignature_fits hfits⟩
    rw [inside_append, inside_writeAt, inside_writeAt, List.length_replicate]
    unfold signatureRoom
    exact ⟨Or.inr (by omega), Or.inr (by omega)⟩

/-- Two digits more than a modulus of 1024 bits has. -/
def longSignature : NulString :=
  ⟨List.replicate 258 48, fun h => absurd (List.eq_of_mem_replicate h) (by decide)⟩

/-- The zeros of a signature of 258 digits leave the string for a modulus of 1024 bits. -/
theorem long_signature_leaves :
    (1024 : UInt32) ∈ rsaModuli ∧ longSignature.chars.length ≤ rsaSignatureMax ∧
      ∃ log, padRsaSignature 1024 (some longSignature) = .ok log ∧
        ¬log.Inside (signatureRoom 1024) := by
  have hlength : longSignature.chars.length = 258 := List.length_replicate
  have hmax : longSignature.chars.length ≤ rsaSignatureMax := by
    rw [hlength]
    decide
  refine ⟨by decide, hmax, padRsaSignature_leaves (by decide) hmax ?_⟩
  rw [hlength]
  decide

/-- A signature of two digits. -/
def shortSignature : NulString := ⟨[65, 66], by decide⟩

theorem padding_safe_short :
    PadsSafely 1024 shortSignature ↔ shortSignature.chars.length ≤ (1024 / 4 : UInt32).toNat :=
  padding_safe_iff 1024 shortSignature (by decide)

/-- What the handler pads is what it hands on. -/
theorem padSignature_eq_handed (wild : String → Except AmvpResult String) {modulo : Nat}
    (hmodulo : modulo < 2 ^ 32) {signature : String} (hnul : 0 ∉ cBytes signature)
    (hmax : (cBytes signature).length ≤ rsaSignatureMax)
    (hfits : (cBytes signature).length ≤ modulo / 4) :
    ∃ padded log, padSignature wild modulo signature = .ok padded ∧
      padRsaSignature (.ofNat modulo) (some (.ofBytes (cBytes signature))) = .ok log ∧
      (handedSignature (.ofNat modulo) log).chars = cBytes padded := by
  have hquarter : (UInt32.ofNat modulo / 4).toNat = modulo / 4 := by
    rw [UInt32.toNat_div, UInt32.toNat_ofNat', Nat.mod_eq_of_lt hmodulo]
    rfl
  have hchars := NulString.ofBytes_chars hnul
  have hlength : (NulString.ofBytes (cBytes signature)).chars.length ≤
      (UInt32.ofNat modulo / 4).toNat := by
    rw [hchars, hquarter]
    exact hfits
  refine ⟨_, _, by rw [padSignature, if_pos hfits]; rfl,
    padRsaSignature_fits (by rw [hchars]; exact hmax) hlength, ?_⟩
  rw [handedSignature_fits hlength, hquarter, hchars, cBytes_append, cBytes_replicate]

end LibAmvp
